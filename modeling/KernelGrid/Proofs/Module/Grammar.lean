import KernelGrid.Proofs.Inst.Pattern
import KernelGrid.Proofs.Module.Resolution

/-!
# The grammar of streams

The words that are read as a module, described without reading them: framed records that follow
the patterns of their opcodes, define no id twice, and open and close functions and blocks in
turn.  A stream is decoded exactly if it conforms.
-/

namespace KernelGrid

open KernelGrid.Stream

/-! ## Functions and blocks -/

/-- Whether a record of the opcode stands in a block or outside functions and changes nothing
there. -/
def Opcode.Loose (op : Opcode) : Prop :=
  op ≠ Form.function.opcode ∧ op ≠ Form.functionParameter.opcode ∧ op ≠ Form.label.opcode ∧
    op ≠ Opcode.functionEnd

/-- Blocks one behind the other, each with its label in front. -/
inductive Blocks : List Opcode → Prop
  | nil : Blocks []
  | block {body rest : List Opcode} (hbody : ∀ op ∈ body, op.Loose) (hrest : Blocks rest) :
      Blocks (Form.label.opcode :: (body ++ rest))

/-- Records outside functions, and functions with their parameters before their blocks. -/
inductive Layers : List Opcode → Prop
  | nil : Layers []
  | loose {op : Opcode} {rest : List Opcode} (hop : op.Loose) (hrest : Layers rest) :
      Layers (op :: rest)
  | function {count : Nat} {blocks rest : List Opcode} (hblocks : Blocks blocks)
      (hrest : Layers rest) :
      Layers (Form.function.opcode ::
        (List.replicate count Form.functionParameter.opcode ++
          (blocks ++ Opcode.functionEnd :: rest)))

def Opcode.Anywhere (op : Opcode) : Prop :=
  op = Opcode.entryPoint ∨ op = Form.executionMode.opcode

instance : DecidablePred Opcode.Anywhere := fun _ => inferInstanceAs (Decidable (_ ∨ _))

/-! ## Positions -/

namespace Position

def Admits : Position → Opcode → Prop
  | outside, op =>
    op ≠ Form.functionParameter.opcode ∧ op ≠ Form.label.opcode ∧ op ≠ Opcode.functionEnd
  | header, op =>
    op = Form.functionParameter.opcode ∨ op = Form.label.opcode ∨ op = Opcode.functionEnd
  | blocks, op => op ≠ Form.function.opcode ∧ op ≠ Form.functionParameter.opcode

def after (p : Position) (op : Opcode) : Position :=
  if op = Form.function.opcode then header
  else if op = Form.label.opcode then blocks
  else if op = Opcode.functionEnd then outside
  else p

def AdmitsAll : Position → List Opcode → Prop
  | p, [] => p = outside
  | p, op :: ops => p.Admits op ∧ (p.after op).AdmitsAll ops

variable {p : Position} {op : Opcode} {ops rest : List Opcode}

theorem after_loose (hop : op.Loose) : p.after op = p := by
  obtain ⟨hfunction, -, hlabel, hend⟩ := hop
  rw [after, if_neg hfunction, if_neg hlabel, if_neg hend]

theorem admitsAll_body (hops : ∀ op ∈ ops, op.Loose) (hrest : blocks.AdmitsAll rest) :
    blocks.AdmitsAll (ops ++ rest) := by
  induction ops with
  | nil => exact hrest
  | cons op ops ih =>
      rw [List.forall_mem_cons] at hops
      refine ⟨⟨hops.1.1, hops.1.2.1⟩, ?_⟩
      rw [after_loose hops.1]
      exact ih hops.2

theorem admitsAll_blocks (hops : Blocks ops) (hp : p ≠ outside)
    (hrest : outside.AdmitsAll rest) : p.AdmitsAll (ops ++ Opcode.functionEnd :: rest) := by
  induction hops generalizing p with
  | nil =>
      refine ⟨?_, hrest⟩
      cases p with
      | outside => exact absurd rfl hp
      | header => exact .inr (.inr rfl)
      | blocks => exact ⟨by decide, by decide⟩
  | @block body more hbody _ ih =>
      rw [List.cons_append, List.append_assoc]
      refine ⟨?_, admitsAll_body hbody (ih (by decide))⟩
      cases p with
      | outside => exact absurd rfl hp
      | header => exact .inr (.inl rfl)
      | blocks => exact ⟨by decide, by decide⟩

theorem admitsAll_parameters (count : Nat) (hrest : header.AdmitsAll rest) :
    header.AdmitsAll (List.replicate count Form.functionParameter.opcode ++ rest) := by
  induction count with
  | zero => exact hrest
  | succ count ih => exact ⟨.inl rfl, ih⟩

theorem admitsAll_layers (hops : Layers ops) : outside.AdmitsAll ops := by
  induction hops with
  | nil => rfl
  | @loose op rest hop _ ih =>
      refine ⟨hop.2, ?_⟩
      rw [after_loose hop]
      exact ih
  | @function count bs rest hblocks _ ih =>
      exact ⟨⟨by decide, by decide, by decide⟩,
        admitsAll_parameters count (admitsAll_blocks hblocks (by decide) ih)⟩

def Leaves : Position → List Opcode → Prop
  | outside, ops => Layers ops
  | header, ops => ∃ count bs rest, Blocks bs ∧ Layers rest ∧
      ops = List.replicate count Form.functionParameter.opcode ++
      (bs ++ Opcode.functionEnd :: rest)
  | blocks, ops => ∃ body bs rest, (∀ op ∈ body, op.Loose) ∧ Blocks bs ∧ Layers rest ∧
      ops = body ++ (bs ++ Opcode.functionEnd :: rest)

theorem leaves_cons (hop : p.Admits op) (hops : (p.after op).Leaves ops) :
    p.Leaves (op :: ops) := by
  unfold after at hops
  split at hops
  · rename_i hfunction
    subst hfunction
    obtain ⟨count, bs, rest, hbs, hrest, rfl⟩ := hops
    cases p with
    | outside => exact .function hbs hrest
    | header => exact absurd hop (by rw [Admits]; decide)
    | blocks => exact absurd rfl hop.1
  rename_i hfunction
  split at hops
  · rename_i hlabel
    subst hlabel
    obtain ⟨body, bs, rest, hbody, hbs, hrest, rfl⟩ := hops
    have hblock := Blocks.block hbody hbs
    cases p with
    | outside => exact absurd rfl hop.2.1
    | header => exact ⟨0, _, rest, hblock, hrest, by simp⟩
    | blocks => exact ⟨[], _, rest, by simp, hblock, hrest, by simp⟩
  rename_i hlabel
  split at hops
  · rename_i hend
    subst hend
    cases p with
    | outside => exact absurd rfl hop.2.2
    | header => exact ⟨0, [], ops, .nil, hops, rfl⟩
    | blocks => exact ⟨[], [], ops, by simp, .nil, hops, rfl⟩
  · rename_i hend
    cases p with
    | outside => exact .loose ⟨hfunction, hop.1, hlabel, hend⟩ hops
    | header =>
        obtain ⟨count, bs, rest, hbs, hrest, rfl⟩ := hops
        obtain rfl | hop | hop := hop
        · exact ⟨count + 1, bs, rest, hbs, hrest, rfl⟩
        · exact absurd hop hlabel
        · exact absurd hop hend
    | blocks =>
        obtain ⟨body, bs, rest, hbody, hbs, hrest, rfl⟩ := hops
        exact ⟨op :: body, bs, rest,
          List.forall_mem_cons.2 ⟨⟨hfunction, hop.2, hlabel, hend⟩, hbody⟩, hbs, hrest, rfl⟩

theorem leaves_of_admitsAll (hops : p.AdmitsAll ops) : p.Leaves ops := by
  induction ops generalizing p with
  | nil =>
      obtain rfl : p = outside := hops
      exact .nil
  | cons op ops ih => exact leaves_cons hops.1 (ih hops.2)

theorem admitsAll_outside : outside.AdmitsAll ops ↔ Layers ops :=
  ⟨leaves_of_admitsAll, admitsAll_layers⟩

end Position

/-! ## Records -/

namespace Opcode

theorem layout_entryPoint : entryPoint.layout = .plain := by decide +kernel

theorem layout_functionEnd : functionEnd.layout = .plain := by decide +kernel

end Opcode

namespace Item

def opcode (x : Item ResultId) : Opcode := x.statement.opcode

theorem next_of_anywhere {x : Item ResultId} (hx : x.opcode.Anywhere) {bound : ResultId}
    (hread : x.Readable bound) (c : Context) :
    c.Allows x.mark ∧ (c.next x.mark).position = c.position := by
  cases x with
  | entryPoint e => exact ⟨trivial, rfl⟩
  | functionEnd => exact absurd hx (by decide)
  | inst i =>
      have hmode : i.opcode = Form.executionMode.opcode :=
        hx.resolve_left hread.genuine.opcode_ne.1
      obtain ⟨f, size, hmark, -⟩ | hmark := mark_cases i
      · rw [hmark]
        exact ⟨trivial, rfl⟩
      · rw [hmark, hmode]
        exact ⟨.inl rfl, rfl⟩

/-- What stands where it stands for a reason is told by opcodes alone. -/
theorem allows_of_not_anywhere {x : Item ResultId} (hx : ¬x.opcode.Anywhere) {bound : ResultId}
    (hread : x.Readable bound) (c : Context) :
    (c.Allows x.mark ↔ c.position.Admits x.opcode) ∧
      (c.next x.mark).position = c.position.after x.opcode := by
  obtain ⟨p, entered⟩ := c
  cases x with
  | entryPoint e => exact absurd (.inl rfl) hx
  | functionEnd =>
      refine ⟨?_, rfl⟩
      cases p with
      | outside => exact iff_of_false (fun h => h rfl) fun h => h.2.2 rfl
      | header => exact iff_of_true (by rintro ⟨⟩) (.inr (.inr rfl))
      | blocks => exact iff_of_true (by rintro ⟨⟩) ⟨by decide, by decide⟩
  | inst i =>
      have hmode : i.opcode ≠ Form.executionMode.opcode := fun h => hx (.inr h)
      have hend : i.opcode ≠ Opcode.functionEnd := hread.genuine.opcode_ne.2
      have hop : opcode (.inst i) = i.opcode := rfl
      rw [mark_of_opcode_ne hmode, hop]
      constructor
      · simp only [Context.Allows, hmode, false_or]
        cases p with
        | outside => simp only [Position.Admits, and_iff_left hend]
        | header => simp only [Position.Admits, or_iff_left hend]
        | blocks => rfl
      · rw [Position.after, if_neg hend]
        simp only [Context.next]
        split_ifs <;> rfl

theorem allowsAll_iff {bound : ResultId} {xs : List (Item ResultId)}
    (hread : ∀ x ∈ xs, x.Readable bound) (c : Context) :
    c.AllowsAll (xs.map mark) ∧ (c.run (xs.map mark)).position = .outside ↔
      c.position.AdmitsAll ((xs.map opcode).filter fun op => ¬op.Anywhere) := by
  induction xs generalizing c with
  | nil => exact and_iff_right trivial
  | cons x xs ih =>
      rw [List.forall_mem_cons] at hread
      have hrest := ih hread.2 (c.next x.mark)
      rw [List.map_cons, List.map_cons, Context.run_cons, Context.AllowsAll, and_assoc, hrest]
      by_cases hx : x.opcode.Anywhere
      · obtain ⟨hallow, hnext⟩ := next_of_anywhere hx hread.1 c
        rw [List.filter_cons_of_neg (by simpa using hx), hnext, and_iff_right hallow]
      · obtain ⟨hallow, hnext⟩ := allows_of_not_anywhere hx hread.1 c
        rw [List.filter_cons_of_pos (by simpa using hx), hnext, hallow, Position.AdmitsAll]

/-- What a record says has the opcode and the result id that stand in the record. -/
theorem eq_of_ofRecord {bound : ResultId} {r : Record} {x : Item ResultId}
    (h : ofRecord bound r = .ok x) : x.opcode = r.opcode ∧ x.result? = r.result? := by
  refine ⟨(readable_of_ofRecord h).2.1, ?_⟩
  obtain ⟨c', h⟩ := ofRecord_eq_ok.1 h
  rw [Record.result?]
  unfold read at h
  split at h
  · rename_i hop
    obtain ⟨e, -, rfl⟩ := Reader.returns_map.1 h
    rw [show r.opcode = _ from hop, Opcode.layout_entryPoint]
    rfl
  split at h
  · rename_i hop
    obtain ⟨_, _, -, h⟩ := Reader.returns_bind.1 h
    obtain ⟨rfl, -⟩ := Reader.returns_pure.1 h
    rw [show r.opcode = _ from hop, Opcode.layout_functionEnd]
    rfl
  split at h
  · rename_i form hform
    obtain ⟨i, _, hi, h⟩ := Reader.returns_bind.1 h
    obtain ⟨_, _, -, h⟩ := Reader.returns_bind.1 h
    obtain ⟨rfl, -⟩ := Reader.returns_pure.1 h
    rw [show r.opcode = _ from (Form.opcode_of_ofOpcode? hform).symm, Form.layout_opcode]
    exact Inst.read_result? hi
  · obtain ⟨i, hi, rfl⟩ := Reader.returns_map.1 h
    exact Inst.readRaw_result? hi

end Item

theorem EntryPoint.rest_of_read {s : Scope} {c c' : Cursor} {e : EntryPoint ResultId}
    (h : (read s).Returns c e c') : c'.rest = [] := by
  unfold read at h
  obtain ⟨_, _, -, h⟩ := Reader.returns_bind.1 h
  obtain ⟨_, _, -, h⟩ := Reader.returns_bind.1 h
  obtain ⟨_, _, -, h⟩ := Reader.returns_bind.1 h
  obtain ⟨_, hinterface, -⟩ := Reader.returns_map.1 h
  obtain ⟨-, -, rfl⟩ := Scope.refs_returns.1 hinterface
  rfl

namespace Stream.Record

/-- A record says something and defines no id out of bound exactly if its operands are proper. -/
theorem proper_iff {bound : ResultId} {r : Record} :
    r.Proper bound ↔ ∃ x, Item.ofRecord bound r = .ok x ∧ ∀ id ∈ x.result?,
      IdBelow bound id := by
  simp only [Item.ofRecord_eq_ok, Proper]
  unfold Item.read
  split
  · rename_i hop
    rw [← EntryPoint.read_follows ⟨bound, r.opcode, r.offset⟩ (r.offset + 1)]
    constructor
    · rintro ⟨e, end_, he⟩
      refine ⟨.entryPoint e, ⟨_, Reader.returns_map.2 ⟨e, he, rfl⟩⟩, ?_⟩
      rintro _ ⟨⟩
    · rintro ⟨_, ⟨⟨end_, rest⟩, h⟩, -⟩
      obtain ⟨e, he, -⟩ := Reader.returns_map.1 h
      obtain rfl := EntryPoint.rest_of_read he
      exact ⟨e, end_, he⟩
  split
  · constructor
    · intro hnone
      refine ⟨.functionEnd,
        ⟨_, Reader.returns_bind.2 ⟨(), _, Scope.finish_returns.2 ⟨hnone, rfl⟩,
        Reader.returns_pure.2 ⟨rfl, rfl⟩⟩⟩, ?_⟩
      rintro _ ⟨⟩
    · rintro ⟨_, ⟨_, h⟩, -⟩
      obtain ⟨_, _, hfinish, -⟩ := Reader.returns_bind.1 h
      exact (Scope.finish_returns.1 hfinish).1
  cases hform : Form.ofOpcode? r.opcode with
  | some form =>
    simp only
    rw [← Inst.read_accepts ⟨bound, r.opcode, r.offset⟩ form (r.offset + 1)]
    constructor
    · rintro ⟨i, end_, hi, hresult⟩
      exact ⟨.inst i, ⟨_, Reader.returns_bind.2 ⟨i, _, hi, Reader.returns_bind.2 ⟨(), _,
        Scope.finish_returns.2 ⟨rfl, rfl⟩, Reader.returns_pure.2 ⟨rfl, rfl⟩⟩⟩⟩, hresult⟩
    · rintro ⟨_, ⟨_, h⟩, hresult⟩
      obtain ⟨i, ⟨end_, rest⟩, hi, h⟩ := Reader.returns_bind.1 h
      obtain ⟨_, _, hfinish, h⟩ := Reader.returns_bind.1 h
      obtain ⟨rfl, -⟩ := Scope.finish_returns.1 hfinish
      obtain ⟨rfl, -⟩ := Reader.returns_pure.1 h
      exact ⟨i, end_, hi, hresult⟩
  | none =>
    simp only
    rw [← Inst.readRaw_accepts ⟨bound, r.opcode, r.offset⟩ (r.offset + 1)]
    constructor
    · rintro ⟨i, c', hi, hresult⟩
      exact ⟨.inst i, ⟨_, Reader.returns_map.2 ⟨i, hi, rfl⟩⟩, hresult⟩
    · rintro ⟨_, ⟨c', h⟩, hresult⟩
      obtain ⟨i, hi, rfl⟩ := Reader.returns_map.1 h
      exact ⟨i, c', hi, hresult⟩

end Stream.Record

/-! ## Streams -/

namespace Module

/-- Whether the words are those of a module, with the given records. -/
structure Conforms (words : List Word) (records : List Record) : Prop where
  long : Stream.headerWords ≤ words.length
  magic : words.head? = some magic
  bounded : words.getD 3 0 ≤ maxIdBound
  framed : words.drop Stream.headerWords = records.flatMap Record.words
  consecutive : Record.Consecutive Stream.headerWords records
  fits : ∀ r ∈ records, r.Fits
  proper : ∀ r ∈ records, r.Proper (max (words.getD 3 0) 1)
  /-- No id is defined twice. -/
  results : (records.filterMap Record.result?).Nodup
  layers : Layers ((records.map (·.opcode)).filter fun op => ¬op.Anywhere)

variable {bound : ResultId} {records : List Record} {item : Record → Item ResultId}
  (hread : ∀ r ∈ records, Item.ofRecord bound r = .ok (item r))

include hread

/-- The layers of records are the order that the decoder follows. -/
theorem layers_iff : Layers ((records.map (·.opcode)).filter fun op => ¬op.Anywhere) ↔
    Context.start.AllowsAll (records.map (Item.mark ∘ item)) ∧
      (KernelGrid.after item records).position = .outside := by
  have hopcodes : records.map (·.opcode) = (records.map item).map Item.opcode := by
    rw [List.map_map]
    exact List.map_congr_left fun r hr => (Item.eq_of_ofRecord (hread r hr)).1.symm
  have hreadable : ∀ x ∈ records.map item, x.Readable bound := by
    rintro _ hx
    obtain ⟨r, hr, rfl⟩ := List.mem_map.1 hx
    exact (Item.readable_of_ofRecord (hread r hr)).1
  rw [hopcodes, ← Position.admitsAll_outside, KernelGrid.after, ← List.map_map]
  exact (Item.allowsAll_iff hreadable .start).symm

theorem filterMap_result? :
    records.filterMap Record.result? = records.filterMap fun r => (item r).result? :=
  List.filterMap_congr fun r hr => (Item.eq_of_ofRecord (hread r hr)).2.symm

omit hread

theorem exists_conforms {w : List Word} {m : Module} (hdecode : decode w = .ok m) :
    ∃ records, Conforms w records := by
  obtain ⟨version, generator, bound, schema, body, rfl, hbound, records, hsplit, item, hm⟩ :=
    exists_endOf hdecode
  have hread : ∀ r ∈ records, Item.ofRecord (max bound 1) r = .ok (item r) := hm.read
  obtain ⟨origin, hA⟩ := hm.assembled fun _ _ _ _ => trivial
  obtain ⟨hallowed, hbelow⟩ := hm.allowed
  obtain ⟨-, hnodup, -⟩ := hm.ids
  obtain ⟨hwords, hfits⟩ := Record.words_of_split hsplit
  exact ⟨records, {
    long := by simp [Stream.headerWords]
    magic := rfl
    bounded := hbound
    framed := hwords
    consecutive := Record.consecutive_of_split hsplit
    fits := hfits
    proper := fun r hr => Record.proper_iff.2 ⟨item r, hread r hr, hbelow r hr⟩
    results := by rwa [filterMap_result? hread]
    layers := (layers_iff hread).2 ⟨hallowed, hA.frames.position⟩ }⟩

theorem Conforms.exists_decode {w : List Word} {records : List Record}
    (hw : Conforms w records) : ∃ m, decode w = .ok m := by
  obtain ⟨version, generator, bound, schema, body, rfl⟩ : ∃ version generator bound schema body,
      w = Stream.magic :: version :: generator :: bound :: schema :: body := by
    obtain ⟨hlong, hmagic⟩ := And.intro hw.long hw.magic
    match w, hlong, hmagic with
    | first :: version :: generator :: bound :: schema :: body, _, hmagic =>
      obtain rfl := Option.some.inj hmagic
      exact ⟨version, generator, bound, schema, body, rfl⟩
  have hbound : bound ≤ maxIdBound := hw.bounded
  obtain rfl : body = records.flatMap Record.words := hw.framed
  have hproper : ∀ r ∈ records, ∃ x, Item.ofRecord (max bound 1) r = .ok x ∧
      ∀ id ∈ x.result?, IdBelow (max bound 1) id :=
        fun r hr => Record.proper_iff.1 (hw.proper r hr)
  have hnonempty : Nonempty (Item ResultId) := ⟨.functionEnd⟩
  choose! item hitem using hproper
  have hread : ∀ r ∈ records, Item.ofRecord (max bound 1) r = .ok (item r) :=
    fun r hr => (hitem r hr).1
  have hpairs : List.Forall₂ (fun r y => Item.ofRecord (max bound 1) r = .ok (item y)) records
      records := List.forall₂_same.2 hread
  have hstart : Assembled item (fun _ => True) _ [] _ fun _ => none :=
    Assembled.start ⟨version, generator, max bound 1⟩
  have hknown : ∀ r ∈ records, ∀ id ∈ (item r).mentions, True := fun _ _ _ _ => trivial
  obtain ⟨hallowed, hposition⟩ := (layers_iff hread).1 hw.layers
  obtain ⟨a, hrun⟩ := hstart.exists_run hpairs (UInt32.le_refl _) hknown hallowed
    (fun r hr => (hitem r hr).2)
    (by rw [List.nil_append, ← filterMap_result? hread]; exact hw.results)
  obtain ⟨origin, hA⟩ := hstart.run hpairs (UInt32.le_refl _) hknown hrun
  have hcurrent := Assembly.current_of_position (hA.frames.position.symm.trans hposition)
  have ha : a = ⟨a.module, none⟩ := congrArg (Assembly.mk a.module) hcurrent
  exact ⟨a.module, decode_eq_ok.2 ⟨version, generator, bound, schema, _, records, rfl, hbound,
    Record.split_words hw.fits hw.consecutive, hrun.trans (congrArg Except.ok ha)⟩⟩

/-- A stream is decoded exactly if it conforms to the grammar. -/
theorem exists_decode_iff_conforms (w : List Word) :
    (∃ m, decode w = .ok m) ↔ ∃ records, Conforms w records := by
  constructor
  · rintro ⟨m, hdecode⟩
    exact exists_conforms hdecode
  · rintro ⟨records, hw⟩
    exact hw.exists_decode

end Module

end KernelGrid
