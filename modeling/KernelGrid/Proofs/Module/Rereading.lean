import KernelGrid.Proofs.Module.Reassembly

/-!
# Reading again

Reading what was written of a regular module gives a module that says the same, id by id.
-/

namespace KernelGrid

/-! ## Parts of lists -/

/-- A list falls apart in one way only, if its parts can be told from their elements. -/
theorem append_inj_of_head {α : Type} {p : α → Prop} {xs xs' ys ys' : List α}
    (hxs : ∀ x ∈ xs, p x) (hxs' : ∀ x ∈ xs', p x) (hys : ∀ y ∈ ys.head?, ¬p y)
    (hys' : ∀ y ∈ ys'.head?, ¬p y) (heq : xs ++ ys = xs' ++ ys') : xs = xs' ∧ ys = ys' := by
  induction xs generalizing xs' with
  | nil =>
      cases xs' with
      | nil => exact ⟨rfl, heq⟩
      | cons x' xs' =>
          rw [List.nil_append] at heq
          rw [List.forall_mem_cons] at hxs'
          exact absurd hxs'.1 (hys x' (by rw [heq]; rfl))
  | cons x xs ih =>
      rw [List.forall_mem_cons] at hxs
      cases xs' with
      | nil =>
          rw [List.nil_append] at heq
          exact absurd hxs.1 (hys' x (by rw [← heq]; rfl))
      | cons x' xs' =>
          rw [List.forall_mem_cons] at hxs'
          rw [List.cons_append, List.cons_append, List.cons.injEq] at heq
          obtain ⟨hparts, hrest⟩ := ih hxs.2 hxs'.2 heq.2
          exact ⟨by rw [heq.1, hparts], hrest⟩

theorem flatMap_concat_none_inj {α : Type} {xss yss : List (List (Option α))}
    (hxss : ∀ xs ∈ xss, ∀ x ∈ xs, x ≠ none) (hyss : ∀ ys ∈ yss, ∀ y ∈ ys, y ≠ none)
    (heq : xss.flatMap (· ++ [none]) = yss.flatMap (· ++ [none])) : xss = yss := by
  induction xss generalizing yss with
  | nil =>
      cases yss with
      | nil => rfl
      | cons ys yss => simp at heq
  | cons xs xss ih =>
      cases yss with
      | nil => simp at heq
      | cons ys yss =>
          rw [List.forall_mem_cons] at hxss hyss
          simp only [List.flatMap_cons, List.append_assoc, List.singleton_append] at heq
          obtain ⟨hfirst, hrest⟩ := append_inj_of_head (p := (· ≠ none)) hxss.1 hyss.1 (by simp)
            (by simp) heq
          rw [hfirst, ih hxss.2 hyss.2 (List.cons.inj hrest).2]

namespace Module

/-! ## Agreement -/

/-- Whether two modules say the same, id by id: in their headers, in each section, in their entry
points with the sizes of their work groups, and in their functions. -/
structure Agrees (m m' : Module) : Prop where
  header : m.header = m'.header
  sections : ∀ s : Section, (s.handles m).map m.wire = (s.handles m').map m'.wire
  entryPoints : m.entryPoints.map (EntryPoint.map m.idOf) =
    m'.entryPoints.map (EntryPoint.map m'.idOf)
  functions : m.functions.map (fun f => f.handles.map m.wire) =
    m'.functions.map fun f => f.handles.map m'.wire

theorem Agrees.trans {m m' m'' : Module} (h₁ : m.Agrees m') (h₂ : m'.Agrees m'') :
    m.Agrees m'' :=
  ⟨h₁.header.trans h₂.header, fun s => (h₁.sections s).trans (h₂.sections s),
    h₁.entryPoints.trans h₂.entryPoints, h₁.functions.trans h₂.functions⟩

theorem sectionStatements_eq_wire (m : Module) (hs : List Handle) :
    m.sectionStatements hs =
      ((hs.map m.wire).filter fun i => !i.isPlaceholder).map (Inst.statement id) := by
  have hplaceholder (h : Handle) : (m.wire h).isPlaceholder = (m.inst h).isPlaceholder :=
    Kind.isPlaceholder_map ..
  rw [sectionStatements, List.filter_map, List.map_map]
  simp only [Function.comp_def, hplaceholder]
  exact List.map_congr_left fun h _ => m.statement_eq_wire h

/-- What is written depends on nothing but what is said, id by id. -/
theorem Agrees.statements_eq {m m' : Module} (h : m.Agrees m') :
    m.statements = m'.statements := by
  have hsections (ss : List Section) : m.sectionStatements (ss.flatMap fun s => s.handles m) =
      m'.sectionStatements (ss.flatMap fun s => s.handles m') := by
    rw [sectionStatements_eq_wire, sectionStatements_eq_wire, List.map_flatMap, List.map_flatMap]
    simp only [h.sections]
  have hfirst := hsections [.capabilities, .extensions, .extInstImports, .memoryModel]
  have hlast := hsections [.executionModes, .debug, .annotations, .globals]
  simp only [List.flatMap_cons, List.flatMap_nil, List.append_nil, Section.handles,
    ← List.append_assoc] at hfirst hlast
  have hentries : m.entryPoints.map (·.statement m.idOf) =
      m'.entryPoints.map (·.statement m'.idOf) := by
    have hmap := congrArg (List.map (EntryPoint.statement id)) h.entryPoints
    simpa only [List.map_map, Function.comp_def, EntryPoint.statement_map, id_eq] using hmap
  have hsizes : m.entryPoints.filterMap (·.sizeStatement? m.idOf) =
      m'.entryPoints.filterMap (·.sizeStatement? m'.idOf) := by
    have hmap := congrArg (List.filterMap (EntryPoint.sizeStatement? id)) h.entryPoints
    rwa [List.filterMap_map, List.filterMap_map] at hmap
  have hfunctions : m.functions.flatMap m.functionStatements =
      m'.functions.flatMap m'.functionStatements := by
    have hfunction (n : Module) (f : FunctionDef) : n.functionStatements f =
        ((f.handles.map n.wire).filter fun i => !i.isPlaceholder).map (Inst.statement id) ++
          [.functionEnd] := by
      rw [← sectionStatements_eq_wire]
      rfl
    have hmap := congrArg (List.flatMap fun is : List (Inst ResultId) =>
      (is.filter fun i => !i.isPlaceholder).map (Inst.statement id) ++ [.functionEnd])
      h.functions
    simpa only [List.flatMap_map, ← hfunction] using hmap
  rw [statements, statements, hfirst, hentries, hsizes, hlast, hfunctions]

theorem Agrees.encode_eq {m m' : Module} (h : m.Agrees m') : m.encode = m'.encode := by
  rw [encode, encode, headerWords, headerWords, h.statements_eq, h.header]

/-! ## Modules that were read from what was written -/

def source (origin : Handle → Option (Item ResultId × Handle)) (h : Handle) : Handle :=
  ((origin h).map Prod.snd).getD ⟨0⟩

variable {m : Module} {known : ResultId → Prop} {a : Assembly}
  {origin : Handle → Option (Item ResultId × Handle)}

theorem source_eq {h : Handle} {x : Item ResultId × Handle} (hh : origin h = some x) :
    source origin h = x.2 := by
  rw [source, hh]
  rfl

theorem Legible.goesTo_emitted (hm : m.Legible) {p : Place} (hp : p.Firm) :
    goesTo Prod.fst m.emitted p = m.emittedTo p := by
  obtain ⟨out, hsorts, hout⟩ := hm.sorts_emitted
  exact (hsorts.inPlace_eq p).trans (hout p hp)

abbrev ReadFrom (m : Module) (known : ResultId → Prop) (a : Assembly)
    (origin : Handle → Option (Item ResultId × Handle)) : Prop :=
  Assembled Prod.fst known m.header m.emitted a origin

namespace ReadFrom

variable (hA : m.ReadFrom known a origin)

include hA

theorem map_origin_section {s : Section}
    (hgoes : goesTo Prod.fst m.emitted (.listed s) = m.emittedTo (.listed s)) :
    (s.handles a.module).map origin = (s.handles m).map fun h => some (m.emitInst h) := by
  have hkeep : s.keep ((s.handles m).map m.emitInst) = (s.handles m).map m.emitInst := by
    rw [Section.keep]
    split
    · rename_i hs
      rw [hs, Section.handles]
      cases m.memoryModel <;> rfl
    · rfl
  rw [hA.lists.sections, hgoes, emittedTo, hkeep, List.map_map]
  rfl

theorem map_origin_functions (hm : m.Legible) (hcurrent : a.current = none) :
    a.module.functions.map (fun f => f.handles.map origin) =
      m.functions.map fun f => f.handles.map fun h => some (m.emitInst h) := by
  have hopen : a.openHandles = [] := by simp [Assembly.openHandles, hcurrent]
  have hgoes : goesTo Prod.fst m.emitted .function = m.functions.flatMap m.emitFunction :=
    hm.goesTo_emitted ⟨by simp, by simp⟩
  have hlists := hA.lists.functions
  have hsettled := hA.lists.settled
  simp only [hopen, List.append_nil, List.mem_flatMap, forall_exists_index, and_imp] at hsettled
  rw [hopen, List.map_nil, List.append_nil, hgoes, List.map_flatMap] at hlists
  have hemit (f : FunctionDef) : (m.emitFunction f).map (inst? Prod.fst) =
      (f.handles.map fun h => some (m.emitInst h)) ++ [none] := by
    rw [emitFunction, List.map_append, List.map_map]
    rfl
  apply flatMap_concat_none_inj
  · intro xs hxs x hx
    obtain ⟨f, hf, rfl⟩ := List.mem_map.1 hxs
    obtain ⟨h, hh, rfl⟩ := List.mem_map.1 hx
    exact Option.isSome_iff_ne_none.1 (hsettled h f hf hh)
  · intro ys hys y hy
    obtain ⟨f, hf, rfl⟩ := List.mem_map.1 hys
    obtain ⟨h, hh, rfl⟩ := List.mem_map.1 hy
    simp
  · rw [List.flatMap_map, List.flatMap_map]
    simpa only [hemit] using hlists

theorem wire_eq {h g : Handle} (horigin : origin h = some (m.emitInst g)) :
    a.module.wire h = m.wire g := by
  obtain ⟨x, -, hx, hitem⟩ := hA.stores.stored h (hA.stores.isPlaceholder_eq horigin)
  rw [horigin, Option.some.injEq] at hx
  subst hx
  exact (Item.inst.inj hitem).symm

theorem origin_listed (hm : m.Regular) (hcurrent : a.current = none) {h : Handle}
    (hh : h ∈ a.module.listed) :
    ∃ g ∈ m.listed, origin h = some (m.emitInst g) ∧ m.wire g = a.module.wire h := by
  have horigin : ∃ g ∈ m.listed, origin h = some (m.emitInst g) := by
    obtain ⟨s, hs⟩ | ⟨f, hf, hh⟩ := mem_listed.1 hh
    · have hmem := List.mem_map_of_mem (f := origin) hs
      rw [hA.map_origin_section (hm.sorts_emitted.inPlace_eq _), List.mem_map] at hmem
      obtain ⟨g, hg, heq⟩ := hmem
      exact ⟨g, mem_listed.2 (.inl ⟨s, hg⟩), heq.symm⟩
    · have hmem := List.mem_map_of_mem (f := fun f : FunctionDef => f.handles.map origin) hf
      rw [hA.map_origin_functions hm.toLegible hcurrent, List.mem_map] at hmem
      obtain ⟨f', hf', heq⟩ := hmem
      have hmem' := List.mem_map_of_mem (f := origin) hh
      rw [← heq, List.mem_map] at hmem'
      obtain ⟨g, hg, heq⟩ := hmem'
      exact ⟨g, mem_listed.2 (.inr ⟨f', hf', hg⟩), heq.symm⟩
  obtain ⟨g, hg, horigin⟩ := horigin
  exact ⟨g, hg, horigin, (hA.wire_eq horigin).symm⟩

theorem section_source {s : Section}
    (hgoes : goesTo Prod.fst m.emitted (.listed s) = m.emittedTo (.listed s)) :
    (s.handles a.module).map (source origin) = s.handles m := by
  have horigins := congrArg (List.map fun o : Option (Item ResultId × Handle) =>
    (o.map Prod.snd).getD ⟨0⟩) (hA.map_origin_section hgoes)
  rw [List.map_map, List.map_map] at horigins
  exact horigins.trans (List.map_id _)

theorem handles_source (hm : m.Regular) (s : Section) :
    (s.handles a.module).map (source origin) = s.handles m :=
  hA.section_source (hm.sorts_emitted.inPlace_eq _)

theorem section_wires {s : Section}
    (hgoes : goesTo Prod.fst m.emitted (.listed s) = m.emittedTo (.listed s)) :
    (s.handles a.module).map a.module.wire = (s.handles m).map m.wire := by
  rw [← hA.section_source hgoes, List.map_map]
  apply List.map_congr_left
  intro h hh
  have hmem := List.mem_map_of_mem (f := origin) hh
  rw [hA.map_origin_section hgoes, List.mem_map] at hmem
  obtain ⟨g, -, heq⟩ := hmem
  rw [Function.comp_apply, source_eq heq.symm]
  exact hA.wire_eq heq.symm

theorem function_handles_source (hm : m.Legible) (hcurrent : a.current = none) :
    a.module.functions.map (fun f => f.handles.map (source origin)) =
      m.functions.map FunctionDef.handles := by
  have horigins := congrArg (List.map (List.map fun o : Option (Item ResultId × Handle) =>
    (o.map Prod.snd).getD ⟨0⟩)) (hA.map_origin_functions hm hcurrent)
  simp only [List.map_map, Function.comp_def] at horigins
  exact horigins.trans (List.map_congr_left fun f _ => List.map_id _)

theorem function_wires (hm : m.Legible) (hcurrent : a.current = none) :
    a.module.functions.map (fun f => f.handles.map a.module.wire) =
      m.functions.map fun f => f.handles.map m.wire := by
  have hfunctions :=
    congrArg (List.map (List.map m.wire)) (hA.function_handles_source hm hcurrent)
  rw [List.map_map, List.map_map] at hfunctions
  refine Eq.trans (List.map_congr_left fun f hf => ?_) hfunctions
  rw [Function.comp_apply, List.map_map]
  apply List.map_congr_left
  intro h hh
  have hmem := List.mem_map_of_mem (f := fun f : FunctionDef => f.handles.map origin) hf
  rw [hA.map_origin_functions hm hcurrent, List.mem_map] at hmem
  obtain ⟨f', -, heq⟩ := hmem
  have hmem' := List.mem_map_of_mem (f := origin) hh
  rw [← heq, List.mem_map] at hmem'
  obtain ⟨g, -, heq⟩ := hmem'
  rw [Function.comp_apply, source_eq heq.symm]
  exact hA.wire_eq heq.symm

/-! ### Entry points -/

omit hA in
theorem statedSize?_emitted {size? : ResultId → Option Extent}
    (hsized : EntryPoint.sized size? [] (m.entryPoints.map (EntryPoint.map m.idOf)) =
      m.entryPoints.map (EntryPoint.map m.idOf)) (hm : m.Regular) {f : ResultId}
    (hf : f ∈ m.enteredIds) : statedSize? Prod.fst m.emitted f = size? f := by
  have hgoes : goesTo Prod.fst m.emitted (.size f) = _ := hm.sorts_emitted.inPlace_eq (.size f)
  have hown : ((m.entryPoints.filterMap m.emitSize?).filter fun x => m.idOf x.2 = f).map
      (fun x => x.1.extent?) = (size? f).toList.map some :=
    calc ((m.entryPoints.filterMap m.emitSize?).filter fun x => m.idOf x.2 = f).map
          (fun x => x.1.extent?)
      _ = (m.entryPoints.filterMap fun e =>
            if m.idOf e.function = f then e.localSize else none).map some := by
          rw [List.filter_filterMap, List.map_filterMap, List.map_filterMap]
          apply List.filterMap_congr
          intro e _
          rw [emitSize?]
          split
          · rename_i hfunction
            cases hsize : e.localSize <;> simp [Option.filter, hfunction]
            rfl
          · rename_i hfunction
            cases hsize : e.localSize <;> simp [Option.filter, hfunction]
      _ = ((m.entryPoints.map (EntryPoint.map m.idOf)).filterMap fun e =>
            if e.function = f then e.localSize else none).map some := by
          rw [List.filterMap_map]
          rfl
      _ = (size? f).toList.map some := by
          rw [← hsized, EntryPoint.filterMap_sized_of_mem _ List.not_mem_nil]
          rw [List.map_map]
          exact hf
  have hlast := congrArg (fun sizes => sizes.getLast?.bind id) hown
  simp only [List.getLast?_map, Option.bind_map] at hlast
  rw [statedSize?, hgoes]
  refine hlast.trans ?_
  cases size? f <;> rfl

theorem entryPoints_idOf (hm : m.Regular) :
    a.module.entryPoints.map (EntryPoint.map a.module.idOf) =
      m.entryPoints.map (EntryPoint.map m.idOf) := by
  have hgoes : goesTo Prod.fst m.emitted .entryPoint = m.entryPoints.map m.emitEntry :=
    hm.sorts_emitted.inPlace_eq .entryPoint
  have hentries : entries Prod.fst m.emitted =
      (m.entryPoints.map (EntryPoint.map m.idOf)).map (EntryPoint.withSize none) := by
    rw [entries, hgoes, List.filterMap_map, List.map_map, ← List.filterMap_eq_map]
    rfl
  obtain ⟨size?, hsized⟩ := EntryPoint.exists_sized_eq hm.sized
  rw [hA.enters.entryPoints, hentries, EntryPoint.sized_map_withSize,
    EntryPoint.sized_congr, hsized]
  intro f hf _
  rw [List.map_map] at hf
  exact statedSize?_emitted hsized hm hf

/-- What was read says what was written. -/
theorem agrees (hm : m.Regular) (hcurrent : a.current = none) : a.module.Agrees m :=
  ⟨hA.header, fun _ => hA.section_wires (hm.sorts_emitted.inPlace_eq _),
    hA.entryPoints_idOf hm, hA.function_wires hm.toLegible hcurrent⟩

end ReadFrom

/-- What was written of a regular module is read as a module that says the same. -/
theorem Regular.exists_agrees (hm : m.Regular) {w : List Word} (hencode : m.encode = .ok w) :
    ∃ d, decode w = .ok d ∧ d.Agrees m := by
  have hknown : ∀ x ∈ m.emitted, ∀ id ∈ x.1.mentions, (fun _ => True) id :=
    fun _ _ _ _ => trivial
  obtain ⟨a, origin, hA, hcurrent, hdecode⟩ := hm.exists_assembled hencode hknown
  exact ⟨a.module, hdecode, ReadFrom.agrees hA hm hcurrent⟩

/-! ## Modules in which everything is defined -/

/-- What is left unresolved are the ids of placeholders. -/
theorem mem_undefinedIds {id : ResultId} : id ∈ m.undefinedIds ↔
    ∃ h, (m.inst h).resultId = some id ∧ (m.inst h).isPlaceholder := by
  simp only [undefinedIds, Arena.toList, List.mem_filterMap, List.mem_map, Prod.exists,
    List.mem_zipIdx_iff_getElem?]
  constructor
  · rintro ⟨h, i, ⟨_, index, hget, ⟨⟩⟩, hid⟩
    have hinst : m.inst ⟨index⟩ = i := by
      rw [inst, Arena.get?, ← Array.getElem?_toList, hget, Option.getD_some]
    refine ⟨⟨index⟩, ?_⟩
    rw [hinst]
    split at hid
    · exact ⟨hid, ‹_›⟩
    · cases hid
  · rintro ⟨h, hid, hplace⟩
    obtain ⟨i, hget⟩ := Option.isSome_iff_exists.1 (stored_of_resultId hid)
    have hinst : m.inst h = i := by rw [inst, hget, Option.getD_some]
    rw [Arena.get?, ← Array.getElem?_toList] at hget
    rw [hinst] at hid hplace
    exact ⟨h, i, ⟨i, h.index, hget, rfl⟩, by rw [if_pos hplace, hid]⟩

theorem undefinedIds_eq_nil : m.undefinedIds = [] ↔
    ∀ h, (m.inst h).resultId.isSome → (m.inst h).isPlaceholder = false := by
  rw [List.eq_nil_iff_forall_not_mem]
  simp only [mem_undefinedIds, Option.isSome_iff_exists, not_exists, not_and, Bool.not_eq_true]
  exact ⟨fun hall h ⟨id, hid⟩ => hall id h hid, fun hall id h hid => hall h ⟨id, hid⟩⟩

namespace ReadFrom

variable (hA : m.ReadFrom m.Defines a origin)

include hA

theorem isPlaceholder_eq {h : Handle} (hid : (a.module.inst h).resultId.isSome) :
    (a.module.inst h).isPlaceholder = false := by
  obtain ⟨id, hid⟩ := Option.isSome_iff_exists.1 hid
  obtain ⟨g, hg, hgid⟩ := hA.named h id hid
  have hmem : id ∈ m.emitted.filterMap fun x => x.1.result? := by
    rw [results_emitted]
    exact List.mem_filterMap.2 ⟨g, hg, hgid⟩
  obtain ⟨x, hx, hxid⟩ := List.mem_filterMap.1 hmem
  obtain ⟨h', hh', hstored⟩ := hA.stores.defined x hx id hxid
  have heq := (hA.stores.indexed id h).2 hid
  rw [(hA.stores.indexed id h').2 hh', Option.some.injEq] at heq
  exact heq ▸ hstored

theorem undefinedIds_eq : a.module.undefinedIds = [] :=
  undefinedIds_eq_nil.2 fun _ hid => isPlaceholder_eq hA hid

end ReadFrom

/-- The same of a module in which everything is defined: no id is left unresolved. -/
theorem Regular.exists_resolved (hm : m.Regular) {w : List Word} (hencode : m.encode = .ok w)
    (hdefined : ∀ x ∈ m.emitted, ∀ id ∈ x.1.mentions, m.Defines id) :
    ∃ d r, decode w = .ok d ∧ d.resolve = .ok r ∧ r.Agrees m := by
  obtain ⟨a, origin, hA, hcurrent, hdecode⟩ := hm.exists_assembled hencode hdefined
  have hresolve : a.module.resolve = .ok a.module.reintern := by
    rw [resolve, ReadFrom.undefinedIds_eq hA]
    rfl
  obtain ⟨hheader, hsections, hentries, hfunctions⟩ := ReadFrom.agrees hA hm hcurrent
  refine ⟨a.module, a.module.reintern, hdecode, hresolve, hheader, ?_, hentries, hfunctions⟩
  intro s
  rw [← hsections s]
  cases s <;> rfl

end Module

end KernelGrid
