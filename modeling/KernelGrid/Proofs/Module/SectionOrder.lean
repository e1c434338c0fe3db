import KernelGrid.Module.Encoding
import KernelGrid.Proofs.Module.Arrangement
import KernelGrid.Proofs.Module.Assembly
import KernelGrid.Proofs.Stream.Framing

/-!
# Writing what was read

What is written of a module that was read from a stream are the records of the stream in
canonical form, in the order of the sections.
-/

namespace KernelGrid

open KernelGrid.Stream

/-! ## Statements -/

namespace Statement

def record (s : Statement) : Record := ⟨0, s.opcode, s.words⟩

theorem mapM_encode {ss : List Statement} (hfits : ∀ s ∈ ss, s.record.Fits) :
    ss.mapM encode = .ok (ss.map fun s => s.record.words) := by
  induction ss with
  | nil => rfl
  | cons s ss ih =>
      rw [List.forall_mem_cons] at hfits
      have hs : s.encode = .ok s.record.words := Record.frame_eq_ok.2 ⟨hfits.1, rfl⟩
      rw [List.mapM_cons, hs, ih hfits.2]
      rfl

end Statement

theorem Module.encode_eq_ok {m : Module} (hfits : ∀ s ∈ m.statements, s.record.Fits) :
    m.encode = .ok (m.headerWords ++ m.statements.flatMap fun s => s.record.words) := by
  rw [encode, Statement.mapM_encode hfits]
  rfl

/-! ## Lists that come from items -/

section

variable {α : Type} {item : α → Item ResultId} {xs : List α} {m : Module} {a : Assembly}
  {origin : Handle → Option α} {known : ResultId → Prop} {header : Header}

theorem map_eq_of_map_origin {β : Type} {hs : List Handle} {ys : List α}
    (horigin : hs.map origin = ys.map some) {f : Handle → β} {g : α → β}
    (hfg : ∀ h y, origin h = some y → f h = g y) : hs.map f = ys.map g := by
  induction hs generalizing ys with
  | nil =>
      cases ys with
      | nil => rfl
      | cons y ys => cases horigin
  | cons h hs ih =>
      cases ys with
      | nil => cases horigin
      | cons y ys =>
          rw [List.map_cons, List.map_cons, List.cons.injEq] at horigin
          rw [List.map_cons, List.map_cons, hfg h y horigin.1, ih horigin.2]

theorem Stores.isPlaceholder_eq (hS : Stores item xs m origin) {h : Handle} {y : α}
    (hh : origin h = some y) : (m.inst h).isPlaceholder = false := by
  by_contra hplace
  rw [hS.vacant h (by simpa using hplace)] at hh
  cases hh

theorem Stores.statement_eq (hS : Stores item xs m origin) {h : Handle} {y : α}
    (hh : origin h = some y) : m.statement h = (item y).statement := by
  obtain ⟨x, -, hx, hitem⟩ := hS.stored h (hS.isPlaceholder_eq hh)
  rw [hh] at hx
  cases hx
  rw [hitem, Module.statement_eq_wire]
  rfl

theorem Stores.sectionStatements_eq (hS : Stores item xs m origin) {hs : List Handle}
    (hsome : ∀ h ∈ hs, (origin h).isSome) : m.sectionStatements hs = hs.map m.statement := by
  rw [Module.sectionStatements, List.filter_eq_self.2]
  intro h hh
  obtain ⟨y, hy⟩ := Option.isSome_iff_exists.1 (hsome h hh)
  rw [hS.isPlaceholder_eq hy]
  rfl

theorem Assembled.sectionStatements_handles (hA : Assembled item known header xs a origin)
    (s : Section) :
    a.module.sectionStatements (s.handles a.module) =
      (s.keep (goesTo item xs (.listed s))).map fun x => (item x).statement := by
  rw [hA.stores.sectionStatements_eq fun h hh => hA.lists.isSome_of_mem hh]
  exact map_eq_of_map_origin (hA.lists.sections s) fun h y => hA.stores.statement_eq

theorem Assembled.entryStatements (hA : Assembled item known header xs a origin) :
    a.module.entryPoints.map (·.statement a.module.idOf) =
      (goesTo item xs .entryPoint).map fun x => (item x).statement := by
  have hsized (seen : List ResultId) (es : List (EntryPoint ResultId)) :
      (EntryPoint.sized (statedSize? item xs) seen es).map (·.statement id) =
        es.map (·.statement id) := by
    induction es generalizing seen with
    | nil => rfl
    | cons e es ih =>
        rw [EntryPoint.sized, List.map_cons, List.map_cons, ih]
        rfl
  have hentries : (entries item xs).map (·.statement id) =
      (goesTo item xs .entryPoint).map fun x => (item x).statement := by
    rw [entries, List.map_filterMap]
    apply List.filterMap_eq_map_iff_forall_eq_some.2
    intro x hx
    obtain ⟨c, hplace⟩ := exists_place_of_mem_inPlace hx
    obtain ⟨f, hmark⟩ := Context.place_eq_entryPoint.1 hplace
    obtain ⟨e, he, -⟩ := Item.mark_eq_entryPoint.1 hmark
    simp [he, Item.entryPoint?, Item.statement]
  rw [← hentries, ← hsized [], ← hA.enters.entryPoints, List.map_map]
  apply List.map_congr_left
  intro e _
  exact (EntryPoint.statement_map a.module.idOf id e).symm

theorem Assembled.sizeStatements {bound : ResultId}
    (hA : Assembled item known header xs a origin) (hread : ∀ x ∈ xs, (item x).Readable bound) :
    a.module.entryPoints.filterMap (·.sizeStatement? a.module.idOf) =
      (enteredFunctions (Item.mark ∘ item) xs).flatMap fun f =>
        ((Place.size f).keep (goesTo item xs (.size f))).map fun x => (item x).statement := by
  let sizeStatement (f : ResultId) (size : Extent) : Statement :=
    .plain Form.executionMode.opcode
      (.ref f :: ExecutionMode.localSize.operand :: size.toList.map .literal)
  have hsizes := EntryPoint.filterMap_sized (statedSize? item xs) [] (entries item xs)
    sizeStatement
  rw [← hA.enters.entryPoints, List.filterMap_map, ← entered_eq,
    List.filter_eq_self.2 (by simp)] at hsizes
  refine hsizes.trans ?_
  rw [List.filterMap_eq_flatMap_toList]
  apply List.flatMap_congr
  intro f _
  rw [statedSize?, Place.keep_size]
  cases hlast : (goesTo item xs (.size f)).getLast? with
  | none => rfl
  | some x =>
      have hx := List.mem_of_getLast? hlast
      obtain ⟨c, hplace⟩ := exists_place_of_mem_inPlace hx
      obtain ⟨⟨type?, result?, k⟩, sx, sy, sz, hi, hkind⟩ :=
        Item.mark_eq_size.1 (Context.place_eq_size.1 hplace).1
      obtain rfl : k = .executionMode f .localSize [sx, sy, sz] := hkind
      have hreadable := hread x (mem_of_mem_inPlace hx)
      rw [hi] at hreadable
      obtain ⟨rfl, rfl⟩ : type? = none ∧ result? = none :=
        Inst.Readable.plain_of_executionMode hreadable rfl
      simp only [Option.bind_some, Option.toList_some, List.map_cons, List.map_nil, hi]
      rfl

theorem Assembled.functionStatements (hA : Assembled item known header xs a origin)
    (hclosed : a.current = none) :
    a.module.functions.flatMap a.module.functionStatements =
      (goesTo item xs .function).map fun x => (item x).statement := by
  let statement : Option α → Statement
    | none => .functionEnd
    | some x => (item x).statement
  have hfunctions := congrArg (List.map statement) hA.lists.functions
  have hopen : a.openHandles = [] := by simp [Assembly.openHandles, hclosed]
  have hsettled := hA.lists.settled
  simp only [hopen, List.append_nil, List.mem_flatMap, forall_exists_index, and_imp] at hsettled
  rw [hopen, List.map_nil, List.append_nil, List.map_flatMap, List.map_map] at hfunctions
  calc a.module.functions.flatMap a.module.functionStatements
      _ = a.module.functions.flatMap fun f =>
            (f.handles.map origin ++ [none]).map statement := by
          apply List.flatMap_congr
          intro f hf
          rw [List.map_append, List.map_map]
          change a.module.sectionStatements f.handles ++ [.functionEnd] = _
          rw [hA.stores.sectionStatements_eq fun h hh => hsettled h f hf hh]
          congr 1
          apply List.map_congr_left
          intro h hh
          obtain ⟨y, hy⟩ := Option.isSome_iff_exists.1 (hsettled h f hf hh)
          rw [hA.stores.statement_eq hy, Function.comp_apply, hy]
      _ = (goesTo item xs .function).map (statement ∘ inst? item) := hfunctions
      _ = (goesTo item xs .function).map fun x => (item x).statement := by
          apply List.map_congr_left
          intro x _
          rw [Function.comp_apply, inst?]
          split
          · rename_i hx
            rw [hx]
            rfl
          · rfl

theorem Module.sectionStatements_append (m : Module) (hs gs : List Handle) :
    m.sectionStatements (hs ++ gs) = m.sectionStatements hs ++ m.sectionStatements gs := by
  simp [sectionStatements]

/-- A module that was read is written item by item, in the order of the sections. -/
theorem Assembled.statements {bound : ResultId} (hA : Assembled item known header xs a origin)
    (hread : ∀ x ∈ xs, (item x).Readable bound) (hclosed : a.current = none) :
    a.module.statements =
      (arranged (Item.mark ∘ item) xs).map fun x => (item x).statement := by
  have hcapabilities : a.module.sectionStatements a.module.capabilities = _ :=
    hA.sectionStatements_handles .capabilities
  have hextensions : a.module.sectionStatements a.module.extensions = _ :=
    hA.sectionStatements_handles .extensions
  have himports : a.module.sectionStatements a.module.extInstImports = _ :=
    hA.sectionStatements_handles .extInstImports
  have hmemory : a.module.sectionStatements a.module.memoryModel.toList = _ :=
    hA.sectionStatements_handles .memoryModel
  have hmodes : a.module.sectionStatements a.module.executionModes = _ :=
    hA.sectionStatements_handles .executionModes
  have hdebug : a.module.sectionStatements a.module.debug = _ :=
    hA.sectionStatements_handles .debug
  have hannotations : a.module.sectionStatements a.module.annotations = _ :=
    hA.sectionStatements_handles .annotations
  have hglobals : a.module.sectionStatements a.module.globals = _ :=
    hA.sectionStatements_handles .globals
  simp only [Module.statements, Module.sectionStatements_append, hcapabilities, hextensions,
    himports, hmemory, hmodes, hdebug, hannotations, hglobals, hA.entryStatements,
    hA.sizeStatements hread, hA.functionStatements hclosed, arranged, Place.order,
    List.flatMap_append, List.flatMap_cons, List.flatMap_nil, List.flatMap_map, List.map_append,
    List.map_flatMap, Place.keep_listed, Place.keep_entryPoint, Place.keep_function,
    List.append_nil, List.append_assoc]
  rfl

end

/-! ## Records -/

theorem Kind.Genuine.exists_executionMode {ρ : Type} {k : Kind ρ} (hk : k.Genuine)
    (hop : k.opcode = Form.executionMode.opcode) :
    ∃ function mode operands, k = .executionMode function mode operands := by
  cases k
  case placeholder => exact hk.elim
  case executionMode function mode operands => exact ⟨function, mode, operands, rfl⟩
  case raw op operands =>
    obtain rfl : op = Form.executionMode.opcode := hop
    rw [Genuine, Form.ofOpcode?_opcode] at hk
    cases hk.1
  all_goals
    exfalso
    rw [opcode] at hop
    revert hop
    decide

/-- A record can be sorted without being read. -/
theorem Stream.Record.mark_eq {bound : ResultId} {r : Record} {item : Item ResultId}
    (hr : Item.ofRecord bound r = .ok item) : r.mark = item.mark := by
  obtain ⟨hread, hop, hwords⟩ := Item.readable_of_ofRecord hr
  have hop : item.statement.opcode = r.opcode := hop
  cases item with
  | entryPoint e =>
      have hentry : r.opcode = Opcode.entryPoint := hop.symm
      simp only [Record.canonical, if_pos hentry] at hwords
      change (e.statement id).words = _ at hwords
      rw [EntryPoint.words_statement] at hwords
      rw [mark, if_pos hentry]
      rcases hoperands : r.operands with _ | ⟨_, _ | ⟨function, rest⟩⟩
      · rw [hoperands] at hwords
        cases hwords
      · rw [hoperands] at hwords
        cases hwords
      · rw [hoperands] at hwords
        simp only [List.take_succ_cons, List.cons_append, List.cons.injEq] at hwords
        exact congrArg Mark.entryPoint hwords.2.1.symm
  | functionEnd =>
      have hend : r.opcode = Opcode.functionEnd := hop.symm
      rw [mark, hend]
      rfl
  | inst i =>
      obtain ⟨hentry, hend⟩ := hread.genuine.opcode_ne
      have hop : i.opcode = r.opcode := hop
      rw [mark, if_neg (hop ▸ hentry), if_neg (hop ▸ hend)]
      by_cases hmode : r.opcode = Form.executionMode.opcode
      · have hmode' := hop.trans hmode
        obtain ⟨htype, hresult⟩ := Inst.Readable.plain_of_executionMode hread hmode'
        obtain ⟨function, mode, operands, hkind⟩ := hread.genuine.exists_executionMode hmode'
        obtain ⟨type?, result?, k⟩ := i
        subst hkind htype hresult
        have hcanonical : r.canonical.operands = r.operands := by
          simp only [canonical, hmode]
          rfl
        rw [hcanonical] at hwords
        change (Inst.statement id _).words = _ at hwords
        rw [Inst.words_statement] at hwords
        rw [if_pos hmode, ← hwords, hmode]
        simp only [Option.toList_none, List.nil_append, Kind.operands, List.flatMap_cons,
          Operand.words_ref, Operand.words_enumerant, Operand.flatMap_words_literal,
          List.cons_append]
        obtain _ | ⟨_, _ | ⟨_, _ | ⟨_, _ | ⟨_, _⟩⟩⟩⟩ := operands
        · rfl
        · rfl
        · rfl
        · by_cases hsize : mode = .localSize
          · subst hsize
            rfl
          · have hcode : mode.code ≠ ExecutionMode.localSize.code :=
              fun heq => hsize (Enumerant.code_injective heq)
            exact (if_neg hcode).trans (if_neg hsize).symm
        · rfl
      · rw [if_neg hmode, Item.mark_of_opcode_ne (hop.symm ▸ hmode), hop]

namespace Stream.Record

theorem Fits.canonical {r : Record} (hr : r.Fits) : r.canonical.Fits := by
  rw [Fits, length_canonical]
  exact hr

theorem words_canonical {bound : ResultId} {r : Record} {item : Item ResultId}
    (hr : Item.ofRecord bound r = .ok item) :
    item.statement.record.Fits = r.canonical.Fits ∧
      item.statement.record.words = r.canonical.words := by
  obtain ⟨-, hop, hwords⟩ := Item.readable_of_ofRecord hr
  simp only [Fits, words, Statement.record, hop, hwords, and_self]

end Stream.Record

/-! ## Whole streams -/

theorem Header.read_eq_ok {w : List Word} {header : Header} {cursor : Cursor} :
    Header.read w = .ok (header, cursor) ↔ ∃ version generator bound schema body,
      w = magic :: version :: generator :: bound :: schema :: body ∧ bound ≤ maxIdBound ∧
      header = ⟨version, generator, max bound 1⟩ ∧ cursor = ⟨Stream.headerWords, body⟩ := by
  constructor
  · intro hread
    unfold Header.read at hread
    split at hread
    · rename_i first version generator bound schema body
      split at hread
      · cases hread
      rename_i hmagic
      split at hread
      · cases hread
      rename_i hmax
      cases hread
      obtain rfl : first = magic := by simpa using hmagic
      exact ⟨version, generator, bound, schema, body, rfl, UInt32.not_lt.1 hmax, rfl, rfl⟩
    · cases hread
  · rintro ⟨version, generator, bound, schema, body, rfl, hbound, rfl, rfl⟩
    rw [Header.read, if_neg (by simp), if_neg (UInt32.not_lt.2 hbound)]

theorem Assembly.finish_eq_ok {a : Assembly} {length : Nat} {m : Module} :
    a.finish length = .ok m ↔ a = ⟨m, none⟩ := by
  obtain ⟨m', current⟩ := a
  cases current <;> simp [finish]

namespace Module

theorem records_of_foldlM {bound : ResultId} {records : List Record} {a a' : Assembly}
    (hrun : records.foldlM (Assembly.accept bound) a = .ok a') :
    ∀ r ∈ records, ∃ item, Item.ofRecord bound r = .ok item := by
  induction records generalizing a with
  | nil => simp
  | cons r records ih =>
      rw [List.foldlM_cons] at hrun
      rw [List.forall_mem_cons]
      cases hread : Item.ofRecord bound r with
      | error e =>
          simp only [Assembly.accept, hread, bind, Except.bind] at hrun
          cases hrun
      | ok item =>
          cases hacc : a.accept bound r with
          | error e =>
              rw [hacc] at hrun
              cases hrun
          | ok a₁ =>
              rw [hacc] at hrun
              exact ⟨⟨item, rfl⟩, ih hrun⟩

/-- Exactly these streams are decoded: a header, and records that are accepted and leave no
function open. -/
theorem decode_eq_ok {w : List Word} {m : Module} :
    decode w = .ok m ↔ ∃ version generator bound schema body records,
      w = magic :: version :: generator :: bound :: schema :: body ∧ bound ≤ maxIdBound ∧
      Record.split ⟨Stream.headerWords, body⟩ = (records, none) ∧
      records.foldlM (Assembly.accept (max bound 1)) (.start ⟨version, generator, max bound 1⟩) =
        .ok ⟨m, none⟩ := by
  constructor
  · intro hdecode
    obtain ⟨⟨header, cursor⟩, hheader, hdecode⟩ := except_bind.1 hdecode
    obtain ⟨version, generator, bound, schema, body, rfl, hbound, rfl, rfl⟩ :=
      Header.read_eq_ok.1 hheader
    rcases hsplit : Record.split ⟨Stream.headerWords, body⟩ with ⟨records, fault⟩
    simp only [hsplit] at hdecode
    obtain ⟨a, hrun, hdecode⟩ := except_bind.1 hdecode
    cases fault with
    | some e => cases hdecode
    | none =>
        obtain rfl := Assembly.finish_eq_ok.1 hdecode
        exact ⟨version, generator, bound, schema, body, records, rfl, hbound, hsplit, hrun⟩
  · rintro ⟨version, generator, bound, schema, body, records, rfl, hbound, hsplit, hrun⟩
    have hheader := Header.read_eq_ok.2
      ⟨version, generator, bound, schema, body, rfl, hbound, rfl, rfl⟩
    simp only [decode, hheader, bind, Except.bind, hsplit, hrun]
    exact Assembly.finish_eq_ok.2 rfl

/-- The run over the records of a stream that ends in the module. -/
structure EndOf (m : Module) (header : Header) (records : List Record)
    (item : Record → Item ResultId) : Prop where
  read : ∀ r ∈ records, Item.ofRecord header.bound r = .ok (item r)
  run : records.foldlM (Assembly.accept header.bound) (.start header) = .ok ⟨m, none⟩

section

variable {m : Module} {header : Header} {records : List Record} {item : Record → Item ResultId}

theorem EndOf.assembled (hm : m.EndOf header records item) {known : ResultId → Prop}
    (hknown : ∀ r ∈ records, ∀ id ∈ (item r).mentions, known id) :
    ∃ origin, Assembled item known header records ⟨m, none⟩ origin :=
  (Assembled.start header).run (List.forall₂_same.2 hm.read) (UInt32.le_refl _) hknown hm.run

/-- What holds of nothing and is preserved by each accepted record holds of all records. -/
theorem EndOf.induction {P : List Record → Assembly → Prop}
    (hm : m.EndOf header records item) (hstart : P [] (.start header))
    (hstep : ∀ {xs x a a' origin} {r : Record},
      Assembled item (fun _ => True) header xs a origin →
      Item.ofRecord header.bound r = .ok (item x) → a.accept header.bound r = .ok a' → P xs a →
        P (xs ++ [x]) a') : P records ⟨m, none⟩ :=
  ((Assembled.start header).run_induction (List.forall₂_same.2 hm.read) (UInt32.le_refl _)
    (fun _ _ _ _ => trivial) hm.run hstart hstep).1

end

theorem exists_endOf {w : List Word} {m : Module} (hdecode : decode w = .ok m) :
    ∃ version generator bound schema body,
      w = magic :: version :: generator :: bound :: schema :: body ∧ bound ≤ maxIdBound ∧
      ∃ records, Record.split ⟨Stream.headerWords, body⟩ = (records, none) ∧
      ∃ item : Record → Item ResultId,
        m.EndOf ⟨version, generator, max bound 1⟩ records item := by
  obtain ⟨version, generator, bound, schema, body, records, rfl, hbound, hsplit, hrun⟩ :=
    decode_eq_ok.1 hdecode
  let item (r : Record) : Item ResultId :=
    (Item.ofRecord (max bound 1) r).toOption.getD .functionEnd
  have hread : ∀ r ∈ records, Item.ofRecord (max bound 1) r = .ok (item r) := by
    intro r hr
    obtain ⟨i, hi⟩ := records_of_foldlM hrun r hr
    simp [item, hi, Except.toOption]
  exact ⟨version, generator, bound, schema, body, rfl, hbound, records, hsplit, item,
    hread, hrun⟩

theorem exists_assembled {w : List Word} {m : Module} (hdecode : decode w = .ok m) :
    ∃ version generator bound schema body,
      w = magic :: version :: generator :: bound :: schema :: body ∧ ∃ records,
      Record.split ⟨Stream.headerWords, body⟩ = (records, none) ∧
      ∃ (item : Record → Item ResultId) (a : Assembly) (origin : Handle → Option Record),
        (∀ r ∈ records, Item.ofRecord (max bound 1) r = .ok (item r)) ∧
        Assembled item (fun _ => True) ⟨version, generator, max bound 1⟩ records a origin ∧
        a.current = none ∧ a.module = m := by
  obtain ⟨version, generator, bound, schema, body, hw, -, records, hsplit, item, hm⟩ :=
    exists_endOf hdecode
  obtain ⟨origin, hA⟩ := hm.assembled fun _ _ _ _ => trivial
  exact ⟨version, generator, bound, schema, body, hw, records, hsplit, item, ⟨m, none⟩, origin,
    hm.read, hA, rfl, rfl⟩

theorem encode_resolve {m m' : Module} (hresolve : m.resolve = .ok m') :
    m'.encode = m.encode := by
  unfold resolve at hresolve
  split at hresolve
  · cases hresolve
  · obtain rfl := Except.ok.inj hresolve
    have hstatements : m.reintern.statements = m.statements := rfl
    rw [encode, encode, hstatements]
    rfl

/-- What is written of a decoded module: its records by section, less what it does not keep. -/
theorem exists_statements {w : List Word} {m : Module} (hdecode : decode w = .ok m) :
    ∃ version generator bound schema body,
      w = magic :: version :: generator :: bound :: schema :: body ∧ ∃ records,
      Record.split ⟨Stream.headerWords, body⟩ = (records, none) ∧
      ∃ item : Record → Item ResultId,
      (∀ r ∈ records, Item.ofRecord (max bound 1) r = .ok (item r)) ∧
      m.header = ⟨version, generator, max bound 1⟩ ∧
      m.statements = (arranged Record.mark records).map fun r => (item r).statement := by
  obtain ⟨version, generator, bound, schema, body, hw, records, hsplit, item, a, origin, hread,
    hA, hcurrent, rfl⟩ := exists_assembled hdecode
  have hmark : ∀ r ∈ records, r.mark = (Item.mark ∘ item) r :=
    fun r hr => Record.mark_eq (hread r hr)
  refine ⟨version, generator, bound, schema, body, hw, records, hsplit, item, hread,
    hA.header, ?_⟩
  rw [arranged_congr hmark]
  exact hA.statements (fun r hr => (Item.readable_of_ofRecord (hread r hr)).1) hcurrent

theorem mem_of_mem_arranged {r : Record} {records : List Record}
    (hr : r ∈ arranged Record.mark records) : r ∈ records :=
  (arranged_append_leftOut_perm records).mem_iff.1 (List.mem_append_left _ hr)

theorem fits_of_decode {w : List Word} {m : Module} (hdecode : decode w = .ok m) :
    ∀ s ∈ m.statements, s.record.Fits := by
  obtain ⟨version, generator, bound, schema, body, -, records, hsplit, item, hread, -,
    hstatements⟩ := exists_statements hdecode
  intro s hs
  rw [hstatements] at hs
  obtain ⟨r, hr, rfl⟩ := List.mem_map.1 hs
  have hmem := mem_of_mem_arranged hr
  rw [(Record.words_canonical (hread r hmem)).1]
  exact ((Record.words_of_split hsplit).2 r hmem).canonical

/-- Decoding loses and invents nothing: what is encoded again are the records of the stream in
canonical form, sorted stably by section, without overridden memory models and work group
sizes. -/
theorem encode_of_decode {w : List Word} {m : Module} (hdecode : decode w = .ok m) :
    ∃ version generator bound schema body,
      w = magic :: version :: generator :: bound :: schema :: body ∧ ∃ records,
      Record.split ⟨Stream.headerWords, body⟩ = (records, none) ∧
      body = records.flatMap Record.words ∧
      m.encode = .ok (magic :: version :: generator :: max bound 1 :: 0 ::
        (arranged Record.mark records).flatMap fun r => r.canonical.words) ∧
      (∀ m', m.resolve = .ok m' → m'.encode = m.encode) ∧
      (arranged Record.mark records ++ leftOut Record.mark records).Perm records := by
  obtain ⟨version, generator, bound, schema, body, hw, records, hsplit, item, hread, hheader,
    hstatements⟩ := exists_statements hdecode
  refine ⟨version, generator, bound, schema, body, hw, records, hsplit,
    (Record.words_of_split hsplit).1, ?_, fun m' hresolve => encode_resolve hresolve,
    arranged_append_leftOut_perm records⟩
  have hwords : m.statements.flatMap (fun s => s.record.words) =
      (arranged Record.mark records).flatMap fun r => r.canonical.words := by
    rw [hstatements, List.flatMap_map]
    apply List.flatMap_congr
    intro r hr
    exact (Record.words_canonical (hread r (mem_of_mem_arranged hr))).2
  rw [encode_eq_ok (fits_of_decode hdecode), headerWords, hheader, hwords]
  simp only [List.cons_append, List.nil_append]

/-- A capability that stands behind a type is written in front of it. -/
theorem encode_of_decode_late_capability :
    ∃ m, decode [magic, 0x10000, 7, 2, 9, 0x00020013, 1, 0x00020011, 1] = .ok m ∧
      m.encode = .ok [magic, 0x10000, 7, 2, 0, 0x00020011, 1, 0x00020013, 1] := by
  have hok : (decode [magic, 0x10000, 7, 2, 9, 0x00020013, 1, 0x00020011, 1]).toBool = true := by
    decide +kernel
  cases hdecode : decode [magic, 0x10000, 7, 2, 9, 0x00020013, 1, 0x00020011, 1] with
  | error e =>
      rw [hdecode] at hok
      cases hok
  | ok m =>
      obtain ⟨version, generator, bound, schema, body, hw, records, hsplit, -, hencode, -⟩ :=
        encode_of_decode hdecode
      simp only [List.cons.injEq] at hw
      obtain ⟨-, rfl, rfl, rfl, rfl, rfl⟩ := hw
      have hrecords : Record.split ⟨Stream.headerWords, [0x00020013, 1, 0x00020011, 1]⟩ =
          ([⟨5, 19, [1]⟩, ⟨7, 17, [1]⟩], none) := by rfl
      rw [hrecords] at hsplit
      cases hsplit
      refine ⟨m, rfl, hencode.trans ?_⟩
      decide +kernel

end Module

end KernelGrid
