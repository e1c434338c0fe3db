import KernelGrid.Proofs.Module.EmittedPlaces
import KernelGrid.Proofs.Stream.Framing

/-!
# Reading what was written

A stream that was written of a regular module is accepted record by record.  In one that was
written of a well-formed module nothing is mentioned without being defined.
-/

namespace KernelGrid

open KernelGrid.Stream

/-! ## Numbered records -/

namespace Stream.Record

def number : Nat → List Statement → List Record
  | _, [] => []
  | offset, s :: ss =>
    ⟨offset, s.opcode, s.words⟩ :: number (offset + s.record.words.length) ss

theorem consecutive_number (offset : Nat) (ss : List Statement) :
    Consecutive offset (number offset ss) := by
  induction ss generalizing offset with
  | nil => trivial
  | cons s ss ih => exact ⟨rfl, ih _⟩

theorem flatMap_words_number (offset : Nat) (ss : List Statement) :
    (number offset ss).flatMap words = ss.flatMap fun s => s.record.words := by
  induction ss generalizing offset with
  | nil => rfl
  | cons s ss ih =>
      rw [number, List.flatMap_cons, List.flatMap_cons, ih]
      rfl

theorem fits_number {ss : List Statement} (hfits : ∀ s ∈ ss, s.record.Fits) (offset : Nat) :
    ∀ r ∈ number offset ss, r.Fits := by
  induction ss generalizing offset with
  | nil => simp [number]
  | cons s ss ih =>
      rw [List.forall_mem_cons] at hfits
      rw [number, List.forall_mem_cons]
      exact ⟨hfits.1, ih hfits.2 _⟩

/-- Each record is read as the item that it was written of. -/
theorem ofRecord_number {α : Type} (item : α → Item ResultId) {bound : ResultId} {xs : List α}
    (hread : ∀ x ∈ xs, (item x).Readable bound) (offset : Nat) :
    List.Forall₂ (fun r x => Item.ofRecord bound r = .ok (item x))
      (number offset (xs.map fun x => (item x).statement)) xs := by
  induction xs generalizing offset with
  | nil => exact .nil
  | cons x xs ih =>
      rw [List.forall_mem_cons] at hread
      exact .cons (Item.ofRecord_statement hread.1 offset) (ih hread.2 _)

end Stream.Record

theorem Statement.encode_eq_ok {s : Statement} {words : List Word} :
    s.encode = .ok words ↔ s.record.Fits ∧ words = s.record.words :=
  Record.frame_eq_ok

theorem Statement.fits_of_mapM {ss : List Statement} {records : List (List Word)}
    (hencode : ss.mapM Statement.encode = .ok records) : ∀ s ∈ ss, s.record.Fits := by
  induction ss generalizing records with
  | nil => simp
  | cons s ss ih =>
      rw [List.mapM_cons] at hencode
      cases hs : s.encode with
      | error e =>
          rw [hs] at hencode
          cases hencode
      | ok words =>
          rw [hs] at hencode
          cases hss : ss.mapM Statement.encode with
          | error e =>
              rw [hss] at hencode
              cases hencode
          | ok rest =>
              rw [List.forall_mem_cons]
              exact ⟨(encode_eq_ok.1 hs).1, ih hss⟩

theorem Module.fits_of_encode {m : Module} {w : List Word} (hencode : m.encode = .ok w) :
    ∀ s ∈ m.statements, s.record.Fits := by
  rw [encode] at hencode
  cases hrecords : m.statements.mapM Statement.encode with
  | error e =>
      rw [hrecords] at hencode
      cases hencode
  | ok records => exact Statement.fits_of_mapM hrecords

/-! ## Readable items -/

@[simp] theorem Kind.genuine_map {ρ σ : Type} (f : ρ → σ) (k : Kind ρ) :
    (k.map f).Genuine ↔ k.Genuine := by
  cases k
  case var storage initializer => cases initializer <;> exact Iff.rfl
  all_goals exact Iff.rfl

theorem Kind.map_eq_raw {ρ σ : Type} {f : ρ → σ} {k : Kind ρ} {op : Opcode} {words : List Word} :
    k.map f = raw op words ↔ k = raw op words := by
  cases k
  case raw => exact ⟨fun h => by cases h; rfl, fun h => by cases h; rfl⟩
  case var storage initializer => cases initializer <;> exact ⟨nofun, nofun⟩
  all_goals exact ⟨nofun, nofun⟩

@[simp] theorem Inst.hasLayout_map {ρ σ : Type} (f : ρ → σ) (i : Inst ρ) :
    (i.map f).HasLayout ↔ i.HasLayout := by
  rw [HasLayout, HasLayout, opcode_map]
  cases i.opcode.layout <;> simp [Suits, Kind.map_eq_raw]

/-- Whether an instruction is read again as it is written, if what it refers to has an id. -/
structure Inst.Writable {ρ : Type} (i : Inst ρ) : Prop where
  genuine : i.kind.Genuine
  layout : i.HasLayout
  strings : ∀ s, .string s ∈ i.kind.operands → '\x00' ∉ s.toList

theorem Inst.Writable.isSome_resultId {ρ : Type} {i : Inst ρ} (hi : i.Writable) (form : Form)
    (hop : i.opcode = form.opcode) (hlayout : form.layout ≠ .plain) : i.resultId.isSome := by
  have hraw := hi.genuine.ne_raw hop
  have hsuits := (Inst.hasLayout_iff form hop).1 hi.layout
  cases hform : form.layout
  case plain => exact absurd hform hlayout
  all_goals rw [hform] at hsuits
  case typed => exact hsuits.elim And.right fun ⟨_, op, hkind⟩ => absurd hkind (hraw op [])
  case untyped => exact hsuits.2.elim id fun ⟨op, hkind⟩ => absurd hkind (hraw op [])

theorem Inst.Writable.readable {ρ : Type} {i : Inst ρ} (hi : i.Writable) {bound : ResultId}
    {f : ρ → ResultId} (hf : ∀ r ∈ i.references, IdBelow bound (f r)) :
    (i.map f).Readable bound := by
  refine ⟨(Kind.genuine_map f _).2 hi.genuine, (hasLayout_map f i).2 hi.layout, ?_, ?_⟩
  · intro id hid
    obtain ⟨r, hr, rfl⟩ := Option.map_eq_some_iff.1 hid
    exact hf r (mem_references.2 (.inl hr))
  · intro t ht
    rw [kind_map, Kind.operands_map, List.mem_map] at ht
    obtain ⟨t, ht, rfl⟩ := ht
    cases t with
    | ref r => exact hf r (mem_references.2 (.inr (List.mem_filterMap.2 ⟨_, ht, rfl⟩)))
    | string s => exact hi.strings s ht
    | literal | named | hidden | remark => trivial

theorem Inst.writable_of_readable {ρ : Type} {i : Inst ρ} {bound : ResultId} {f : ρ → ResultId}
    (hi : (i.map f).Readable bound) : i.Writable := by
  refine ⟨(Kind.genuine_map f _).1 hi.genuine, (hasLayout_map f i).1 hi.layout, ?_⟩
  intro s hs
  have hread := hi.operands (.string s) (by
    rw [kind_map, Kind.operands_map]
    exact List.mem_map_of_mem (f := Operand.map f) hs)
  exact hread

theorem Inst.readable_executionMode {bound function : ResultId}
    (hfunction : IdBelow bound function) (mode : ExecutionMode) (operands : List Word) :
    (Inst.plain (.executionMode function mode operands)).Readable bound := by
  constructor
  · trivial
  · rw [hasLayout_iff .executionMode rfl]
    exact ⟨rfl, rfl⟩
  · simp [plain]
  · simpa [plain, Kind.operands] using hfunction

namespace Module

variable {m : Module}

theorem mem_emitted {x : Item ResultId × Handle} (hx : x ∈ m.emitted) :
    (∃ h ∈ m.listed, x = m.emitInst h) ∨ (∃ e ∈ m.entryPoints, x = m.emitEntry e) ∨
      (∃ e ∈ m.entryPoints, ∃ size ∈ e.localSize, x = (.inst (.plain
        (.executionMode (m.idOf e.function) .localSize size.toList)), e.function)) ∨
      x.1 = .functionEnd := by
  have hsections {ss : List Section} (hx : x ∈ m.emitSections ss) :
      ∃ h ∈ m.listed, x = m.emitInst h := by
    obtain ⟨h, hh, rfl⟩ := List.mem_map.1 hx
    obtain ⟨s, -, hs⟩ := List.mem_flatMap.1 hh
    exact ⟨h, mem_listed.2 (.inl ⟨s, hs⟩), rfl⟩
  simp only [emitted, List.mem_append] at hx
  obtain (((hx | hx) | hx) | hx) | hx := hx
  · exact .inl (hsections hx)
  · obtain ⟨e, he, rfl⟩ := List.mem_map.1 hx
    exact .inr (.inl ⟨e, he, rfl⟩)
  · exact .inr (.inr (.inl (mem_sizes hx)))
  · exact .inl (hsections hx)
  · obtain ⟨f, hf, hx⟩ := List.mem_flatMap.1 hx
    rw [emitFunction, List.mem_append, List.mem_map, List.mem_singleton] at hx
    obtain ⟨h, hh, rfl⟩ | rfl := hx
    · exact .inl ⟨h, mem_listed.2 (.inr ⟨f, hf, hh⟩), rfl⟩
    · exact .inr (.inr (.inr rfl))

theorem Legible.idOf_function_below (hm : m.Legible) {e : EntryPoint Handle}
    (he : e ∈ m.entryPoints) : IdBelow m.header.bound (m.idOf e.function) :=
  (hm.entries e he).function

theorem Legible.readable_emitted (hm : m.Legible) :
    ∀ x ∈ m.emitted, x.1.Readable m.header.bound := by
  intro x hx
  obtain ⟨h, hh, rfl⟩ | ⟨e, he, rfl⟩ | ⟨e, he, size, -, rfl⟩ | hend := mem_emitted hx
  · exact hm.insts h hh
  · exact hm.entries e he
  · exact Inst.readable_executionMode (hm.idOf_function_below he) _ _
  · rw [hend]
    trivial

/-! ## Ids of emitted items -/

def Defines (m : Module) (id : ResultId) : Prop := ∃ h ∈ m.listed, (m.inst h).resultId = some id

theorem defines_idOf {h : Handle} (hh : h ∈ m.listed ∧ (m.inst h).resultId.isSome) :
    m.Defines (m.idOf h) := by
  obtain ⟨id, hid⟩ := Option.isSome_iff_exists.1 hh.2
  exact ⟨h, hh.1, by rw [hid, idOf_eq hid]⟩

theorem results_emitInst (m : Module) (hs : List Handle) :
    (hs.map m.emitInst).filterMap (fun x => x.1.result?) =
      hs.filterMap fun h => (m.inst h).resultId := by
  rw [List.filterMap_map]
  rfl

theorem results_emitted (m : Module) :
    m.emitted.filterMap (fun x => x.1.result?) =
      m.listed.filterMap fun h => (m.inst h).resultId := by
  have hentries : (m.entryPoints.map m.emitEntry).filterMap (fun x => x.1.result?) = [] := by
    rw [List.filterMap_map]
    exact List.filterMap_eq_nil_iff.2 fun e _ => rfl
  have hsizes : (m.entryPoints.filterMap m.emitSize?).filterMap (fun x => x.1.result?) = [] := by
    rw [List.filterMap_eq_nil_iff]
    intro x hx
    obtain ⟨e, -, size, -, rfl⟩ := mem_sizes hx
    rfl
  have hfunctions : (m.functions.flatMap m.emitFunction).filterMap (fun x => x.1.result?) =
      (m.functions.flatMap FunctionDef.handles).filterMap fun h => (m.inst h).resultId := by
    rw [List.filterMap_flatMap, List.filterMap_flatMap]
    apply List.flatMap_congr
    intro f _
    rw [emitFunction, List.filterMap_append, results_emitInst]
    exact List.append_nil _
  simp only [emitted, List.filterMap_append, emitSections, results_emitInst, hentries, hsizes,
    hfunctions, listed, List.append_nil, List.nil_append, List.flatMap_cons, List.flatMap_nil,
    Section.handles, List.append_assoc]

theorem Legible.results_below (hm : m.Legible) :
    ∀ x ∈ m.emitted, ∀ id ∈ x.1.result?, IdBelow m.header.bound id := by
  intro x hx id hid
  have hmem : id ∈ m.emitted.filterMap fun x => x.1.result? := List.mem_filterMap.2 ⟨x, hx, hid⟩
  rw [results_emitted, List.mem_filterMap] at hmem
  obtain ⟨h, hh, hid⟩ := hmem
  exact hm.resultIds h hh id hid

theorem defines_of_mem_mentions
    (hreferences : ∀ h ∈ m.listed, ∀ r ∈ (m.inst h).references,
      r ∈ m.listed ∧ (m.inst r).resultId.isSome)
    (hentries : ∀ e ∈ m.entryPoints, ∀ r ∈ e.references,
      r ∈ m.listed ∧ (m.inst r).resultId.isSome) :
    ∀ x ∈ m.emitted, ∀ id ∈ x.1.mentions, m.Defines id := by
  intro x hx id hid
  obtain ⟨h, hh, rfl⟩ | ⟨e, he, rfl⟩ | ⟨e, he, size, -, rfl⟩ | hend := mem_emitted hx
  · obtain hid | hid := List.mem_append.1 hid
    · change id ∈ (m.wire h).references at hid
      rw [wire, Inst.references_map, List.mem_map] at hid
      obtain ⟨r, hr, rfl⟩ := hid
      exact defines_idOf (hreferences h hh r hr)
    · exact ⟨h, hh, by simpa [wire] using hid⟩
  · change id ∈ (e.map m.idOf).references at hid
    rw [EntryPoint.references_map, List.mem_map] at hid
    obtain ⟨r, hr, rfl⟩ := hid
    exact defines_idOf (hentries e he r hr)
  · obtain rfl : id = m.idOf e.function := by
      simpa [Item.mentions, Inst.plain, Inst.references, Kind.operands, List.filterMap_cons]
        using hid
    exact defines_idOf (hentries e he e.function List.mem_cons_self)
  · rw [hend] at hid
    cases hid

/-! ## Whole modules -/

/-- What was written of a legible module is read again. -/
theorem Legible.exists_assembled (hm : m.Legible) {w : List Word} (hencode : m.encode = .ok w)
    {known : ResultId → Prop} (hknown : ∀ x ∈ m.emitted, ∀ id ∈ x.1.mentions, known id) :
    ∃ (a : Assembly) (origin : Handle → Option (Item ResultId × Handle)),
      Assembled Prod.fst known m.header m.emitted a origin ∧ a.current = none ∧
        decode w = .ok a.module := by
  have hfits := fits_of_encode hencode
  rw [encode_eq_ok hfits, headerWords, List.cons_append, List.cons_append, List.cons_append,
    List.cons_append, List.cons_append, List.nil_append,
    ← Record.flatMap_words_number 5] at hencode
  obtain rfl := Except.ok.inj hencode
  have hmax : max m.header.bound 1 = m.header.bound :=
    Word.max_of_le hm.bound_pos
  have hpairs := Record.ofRecord_number Prod.fst hm.readable_emitted 5
  rw [← hm.statements_eq] at hpairs
  have hstart : Assembled (@Prod.fst (Item ResultId) Handle) known m.header []
      (.start m.header) fun _ => none := Assembled.start m.header
  obtain ⟨out, hsorts, -⟩ := hm.sorts_emitted
  obtain ⟨a, hrun⟩ := hstart.exists_run hpairs (UInt32.le_refl _) hknown hsorts.allowed
    hm.results_below
    (by rw [List.nil_append, results_emitted]; exact hm.distinctIds)
  obtain ⟨origin, hA⟩ := hstart.run hpairs (UInt32.le_refl _) hknown hrun
  rw [List.nil_append] at hA
  have hposition : a.position = .outside := by
    rw [← hA.frames.position, after]
    exact congrArg Context.position hsorts.run_eq
  have hcurrent := Assembly.current_of_position hposition
  refine ⟨a, origin, hA, hcurrent, ?_⟩
  have hsplit := Record.split_words (Record.fits_number hfits 5)
    (Record.consecutive_number 5 m.statements)
  have ha : a = ⟨a.module, none⟩ := congrArg (Assembly.mk a.module) hcurrent
  refine decode_eq_ok.2 ⟨_, _, _, _, _, _, rfl, hm.bound_le, hsplit, ?_⟩
  rw [hmax, ← ha]
  exact hrun

/-! ## Well-formed modules -/

theorem eq_of_nodup_filterMap {α β : Type} {f : α → Option β} {xs : List α}
    (hnodup : (xs.filterMap f).Nodup) {x y : α} (hx : x ∈ xs) (hy : y ∈ xs) {b : β}
    (hxb : f x = some b) (hyb : f y = some b) : x = y := by
  induction xs with
  | nil => cases hx
  | cons z zs ih =>
      rw [List.filterMap_cons] at hnodup
      have hmem {w : α} (hw : w ∈ zs) (hwb : f w = some b) : b ∈ zs.filterMap f :=
        List.mem_filterMap.2 ⟨w, hw, hwb⟩
      rw [List.mem_cons] at hx hy
      obtain rfl | hx := hx
      · obtain rfl | hy := hy
        · rfl
        · rw [hxb, List.nodup_cons] at hnodup
          exact absurd (hmem hy hyb) hnodup.1
      · obtain rfl | hy := hy
        · rw [hyb, List.nodup_cons] at hnodup
          exact absurd (hmem hx hxb) hnodup.1
        · refine ih ?_ hx hy
          split at hnodup
          · exact hnodup
          · exact hnodup.of_cons

theorem WellFormed.eq_of_resultId (hm : m.WellFormed) {h g : Handle} (hh : h ∈ m.listed)
    (hg : g ∈ m.listed) {id : ResultId} (hid : (m.inst h).resultId = some id)
    (hid' : (m.inst g).resultId = some id) : h = g :=
  eq_of_nodup_filterMap hm.distinctIds hh hg hid hid'

theorem WellFormed.idOf_inj (hm : m.WellFormed) {h g : Handle}
    (hh : h ∈ m.listed ∧ (m.inst h).resultId.isSome)
    (hg : g ∈ m.listed ∧ (m.inst g).resultId.isSome) (heq : m.idOf h = m.idOf g) : h = g := by
  obtain ⟨id, hid⟩ := Option.isSome_iff_exists.1 hh.2
  obtain ⟨id', hid'⟩ := Option.isSome_iff_exists.1 hg.2
  rw [idOf_eq hid, idOf_eq hid'] at heq
  exact hm.eq_of_resultId hh.1 hg.1 hid (heq ▸ hid')

theorem WellFormed.function_mem (hm : m.WellFormed) {e : EntryPoint Handle}
    (he : e ∈ m.entryPoints) : e.function ∈ m.listed ∧ (m.inst e.function).resultId.isSome :=
  hm.entryReferences e he e.function List.mem_cons_self

theorem WellFormed.nodup_enteredIds (hm : m.WellFormed) : m.enteredIds.Nodup := by
  have hfunctions := hm.distinctEntries
  rw [List.nodup_iff_pairwise_ne, List.pairwise_map] at hfunctions
  rw [enteredIds, List.nodup_iff_pairwise_ne, List.pairwise_map]
  refine hfunctions.imp_of_mem ?_
  intro d e hd he hne heq
  exact hne (hm.idOf_inj (hm.function_mem hd) (hm.function_mem he) heq)

theorem WellFormed.not_mem_enteredIds (hm : m.WellFormed) {h function : Handle} {x y z : Word}
    (hh : h ∈ m.executionModes)
    (hkind : m.kindOf h = .executionMode function .localSize [x, y, z]) :
    m.idOf function ∉ m.enteredIds := by
  intro hmem
  obtain ⟨e, he, heq⟩ := List.mem_map.1 hmem
  have hlisted : h ∈ m.listed := mem_listed.2 (.inl ⟨.executionModes, hh⟩)
  have hkind' : (m.inst h).kind = .executionMode function .localSize [x, y, z] := hkind
  have hfunction := hm.references h hlisted function
    (Inst.mem_references.2 (.inr (by simp [hkind', Kind.references, Kind.operands])))
  exact hm.sizes h hh function x y z hkind e he
    (hm.idOf_inj (hm.function_mem he) hfunction heq)

theorem WellFormed.idBelow (hm : m.WellFormed) {h : Handle}
    (hh : h ∈ m.listed ∧ (m.inst h).resultId.isSome) : IdBelow m.header.bound (m.idOf h) := by
  obtain ⟨id, hid⟩ := Option.isSome_iff_exists.1 hh.2
  rw [idOf_eq hid]
  exact hm.resultIds h hh.1 id hid

theorem WellFormed.readable_wire (hm : m.WellFormed) {h : Handle} (hh : h ∈ m.listed) :
    (m.wire h).Readable m.header.bound := by
  have hwritable : (m.inst h).Writable := ⟨hm.genuine h hh, hm.layouts h hh, hm.strings h hh⟩
  exact hwritable.readable fun r hr => hm.idBelow (hm.references h hh r hr)

/-- A well-formed module can be written and read again. -/
theorem WellFormed.regular (hm : m.WellFormed) : m.Regular where
  bound_pos := hm.bound_pos
  bound_le := hm.bound_le
  resultIds := hm.resultIds
  distinctIds := hm.distinctIds
  insts h hh := hm.readable_wire hh
  entries e he := by
    refine ⟨hm.idBelow (hm.function_mem he), hm.entryNames e he, ?_, rfl⟩
    intro id hid
    obtain ⟨r, hr, rfl⟩ := List.mem_map.1 hid
    exact hm.idBelow (hm.entryReferences e he r (List.mem_cons_of_mem _ hr))
  sections := hm.sections
  functions := hm.functions
  bodies := hm.bodies
  sized := by
    rw [EntryPoint.SizedOnce, List.pairwise_map]
    have hdistinct := hm.nodup_enteredIds
    rw [enteredIds, List.nodup_iff_pairwise_ne, List.pairwise_map] at hdistinct
    exact hdistinct.imp fun hne heq => absurd heq hne
  sizes h hh function x y z := hm.not_mem_enteredIds hh

theorem WellFormed.exists_assembled (hm : m.WellFormed) {w : List Word}
    (hencode : m.encode = .ok w) :
    ∃ (a : Assembly) (origin : Handle → Option (Item ResultId × Handle)),
      Assembled Prod.fst m.Defines m.header m.emitted a origin ∧ a.current = none ∧
        decode w = .ok a.module :=
  hm.regular.exists_assembled hencode (defines_of_mem_mentions hm.references hm.entryReferences)

end Module

end KernelGrid
