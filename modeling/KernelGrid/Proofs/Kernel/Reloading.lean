import KernelGrid.Proofs.Kernel.Conservation
import KernelGrid.Proofs.Module.TypeSizes
import KernelGrid.Proofs.Module.Validity

/-!
# Modules that are read again

What is read of what was written of a sound module says the same, but for the sizes of work
groups: a size that stood apart from its entry point is joined to it.
-/

namespace KernelGrid

theorem Inst.Writable.resultId_of_executionMode {i : Inst Handle} (hi : i.Writable)
    (hop : Section.ofOpcode i.opcode = .executionModes) : i.resultId = none := by
  have hlayout := hi.layout
  have hplain : i.opcode.layout = .plain := by
    unfold Section.ofOpcode at hop
    repeat' split at hop
    all_goals try cases hop
    rename_i hmode
    obtain hmode | hmode := hmode
    · rw [hmode]
      exact Form.layout_opcode .executionMode
    · rw [hmode]
      decide +kernel
  rw [Inst.HasLayout, hplain] at hlayout
  exact hlayout.2

namespace Kind

variable {ρ σ : Type} {f : ρ → σ} {k : Kind ρ} {storage : StorageClass}

theorem map_eq_var {initializer : Option σ} : k.map f = .var storage initializer ↔
    ∃ initializer', k = .var storage initializer' ∧ initializer'.map f = initializer := by
  cases k
  case var storage' initializer' => cases initializer' <;> simp [map, mapM, eq_comm]
  all_goals simp [map, mapM]

theorem map_eq_typePointer {pointee : σ} : k.map f = .typePointer storage pointee ↔
    ∃ pointee', k = .typePointer storage pointee' ∧ f pointee' = pointee := by
  cases k
  case var storage' initializer' => cases initializer' <;> simp [map, mapM]
  all_goals simp [map, mapM]

theorem map_eq_typeStruct {members : List σ} : k.map f = .typeStruct members ↔
    ∃ members', k = .typeStruct members' ∧ members'.map f = members := by
  cases k
  case var storage' initializer' => cases initializer' <;> simp [map, mapM]
  all_goals simp [map, mapM]

theorem map_eq_typeRuntimeArray {element : σ} : k.map f = .typeRuntimeArray element ↔
    ∃ element', k = .typeRuntimeArray element' ∧ f element' = element := by
  cases k
  case var storage' initializer' => cases initializer' <;> simp [map, mapM]
  all_goals simp [map, mapM]

theorem map_eq_typeForwardPointer {pointer : σ} : k.map f = .typeForwardPointer pointer storage ↔
    ∃ pointer', k = .typeForwardPointer pointer' storage ∧ f pointer' = pointer := by
  cases k
  case typeForwardPointer pointer' storage' => simp [map, mapM, and_comm]
  case var storage' initializer' => cases initializer' <;> simp [map, mapM]
  all_goals simp [map, mapM]

theorem isUniformVar_map (f : ρ → σ) (k : Kind ρ) : (k.map f).isUniformVar = k.isUniformVar := by
  cases k
  case var storage' initializer' => cases initializer' <;> rfl
  all_goals rfl

theorem map_eq_constant {words : List Word} :
    k.map f = .constant words ↔ k = .constant words := by
  cases k
  case var storage' initializer' => cases initializer' <;> simp [map, mapM]
  all_goals simp [map, mapM]

end Kind

theorem Inst.named?_map {ρ σ : Type} (f : ρ → σ) (i : Inst ρ) {name : String} :
    (i.map f).named? name = (i.named? name).map f := by
  rw [named?, named?, kind_map]
  cases i.kind
  case debugName target text =>
    change (if text = name then some (f target) else none) = _
    dsimp only
    split <;> rfl
  case var storage initializer => cases initializer <;> rfl
  all_goals rfl

namespace Module

variable {m m' : Module} {h h' : Handle}

/-! ## Saying the same -/

/-- Whether two modules say the same, id by id, wherever no sizes of work groups stand. -/
structure Matches (m m' : Module) : Prop where
  sections : ∀ s : Section, s ≠ .executionModes → m.wires s = m'.wires s
  functions : m.wireFunctions = m'.wireFunctions

structure Paired (m m' : Module) : Prop where
  sound : m.Sound
  sound' : m'.Sound
  bound_le : m.header.bound ≤ maxIdBound
  bound_le' : m'.header.bound ≤ maxIdBound
  agree : m.Matches m'

structure Twins (m m' : Module) (h h' : Handle) : Prop where
  usable : m.Usable h
  usable' : m'.Usable h'
  wire_eq : m.wire h = m'.wire h'

theorem Twins.idOf_eq (ht : Twins m m' h h') : m.idOf h = m'.idOf h' := by
  have hid := congrArg Inst.resultId ht.wire_eq
  rw [wire, wire, Inst.resultId_map, Inst.resultId_map] at hid
  rw [idOf, idOf, hid]

theorem Twins.kind_eq (ht : Twins m m' h h') :
    (m.kindOf h).map m.idOf = (m'.kindOf h').map m'.idOf := congrArg Inst.kind ht.wire_eq

theorem Twins.symm (ht : Twins m m' h h') : Twins m' m h' h :=
  ⟨ht.usable', ht.usable, ht.wire_eq.symm⟩

namespace Paired

variable (hmm : Paired m m')

include hmm

theorem symm : Paired m' m :=
  ⟨hmm.sound', hmm.sound, hmm.bound_le', hmm.bound_le,
    fun s hs => (hmm.agree.sections s hs).symm, hmm.agree.functions.symm⟩

theorem exists_wire_eq (hh : m.Usable h) : ∃ h' ∈ m'.listed, m'.wire h' = m.wire h := by
  obtain ⟨s, hs⟩ | ⟨f, hf, hmem⟩ := mem_listed.1 (hh.listed hmm.bound_le)
  · have hne : s ≠ .executionModes := by
      rintro rfl
      have hwritable := hmm.sound.writable h (hh.listed hmm.bound_le)
      have hid := hh.isSome
      rw [hwritable.resultId_of_executionMode (hmm.sound.sections _ h hs).1] at hid
      cases hid
    have hmem : m.wire h ∈ m.wires s := List.mem_map_of_mem hs
    rw [hmm.agree.sections s hne] at hmem
    obtain ⟨h', hh', heq⟩ := List.mem_map.1 hmem
    exact ⟨h', mem_listed.2 (.inl ⟨s, hh'⟩), heq⟩
  · have hlist : f.handles.map m.wire ∈ m.wireFunctions := List.mem_map_of_mem hf
    rw [hmm.agree.functions] at hlist
    obtain ⟨f', hf', heq⟩ := List.mem_map.1 hlist
    have hwire : m.wire h ∈ f.handles.map m.wire := List.mem_map_of_mem hmem
    rw [← heq] at hwire
    obtain ⟨h', hh', heq⟩ := List.mem_map.1 hwire
    exact ⟨h', mem_listed.2 (.inr ⟨f', hf', hh'⟩), heq⟩

omit hmm in
theorem usable_of_wire_eq (hh : m.Usable h) (hlisted : h' ∈ m'.listed)
    (heq : m'.wire h' = m.wire h) : m'.Usable h' := by
  refine ⟨?_, fun _ => hlisted⟩
  have hid := congrArg Inst.resultId heq
  rw [wire, wire, Inst.resultId_map, Inst.resultId_map] at hid
  rw [hid]
  exact hh.isSome

theorem exists_twins (hh : m.Usable h) : ∃ h', Twins m m' h h' := by
  obtain ⟨h', hlisted, heq⟩ := hmm.exists_wire_eq hh
  exact ⟨h', hh, usable_of_wire_eq hh hlisted heq, heq.symm⟩

theorem twins (hh : m.Usable h) (hh' : m'.Usable h') (heq : m.idOf h = m'.idOf h') :
    Twins m m' h h' := by
  obtain ⟨g, ht⟩ := hmm.exists_twins hh
  have hg : g = h' := (hmm.sound'.numbered hmm.bound_le').idOf_inj ht.usable'.isSome hh'.isSome
    (ht.idOf_eq.symm.trans heq)
  exact hg ▸ ht

theorem eq_of_wire_eq {g : Handle} (ht : Twins m m' h h') (hlisted : g ∈ m'.listed)
    (heq : m'.wire g = m.wire h) : g = h' := by
  have husable := usable_of_wire_eq ht.usable hlisted heq
  have htwin : Twins m m' h g := ⟨ht.usable, husable, heq.symm⟩
  exact (hmm.sound'.numbered hmm.bound_le').idOf_inj husable.isSome ht.usable'.isSome
    (htwin.idOf_eq.symm.trans ht.idOf_eq)

theorem exists_reference {g g' : Handle} (heq : m.wire g = m'.wire g')
    (hh' : h' ∈ (m'.inst g').references) : ∃ h ∈ (m.inst g).references, Twins m m' h h' := by
  have hmem : m'.idOf h' ∈ (m'.wire g').references := by
    rw [wire, Inst.references_map]
    exact List.mem_map_of_mem hh'
  rw [← heq, wire, Inst.references_map] at hmem
  obtain ⟨h, hh, hid⟩ := List.mem_map.1 hmem
  exact ⟨h, hh, hmm.twins (hmm.sound.references g h hh) (hmm.sound'.references g' h' hh') hid⟩

theorem injOn_idOf : Set.InjOn m.idOf {r | m.Usable r} := fun _ hr _ hs heq =>
  (hmm.sound.numbered hmm.bound_le).idOf_inj hr.isSome hs.isSome heq

theorem mem_notes {k k' : Kind Handle} (hk : k ∈ m.notes) (hmap : k.map m.idOf = k'.map m'.idOf)
    (husable : ∀ r ∈ k'.references, m'.Usable r) : k' ∈ m'.notes := by
  obtain ⟨h, hh, rfl⟩ := List.mem_map.1 hk
  have hwire : m.wire h ∈ m.wires .annotations := List.mem_map_of_mem hh
  rw [hmm.agree.sections .annotations (by decide)] at hwire
  obtain ⟨h', hh', heq⟩ := List.mem_map.1 hwire
  have hkind : (m'.kindOf h').map m'.idOf = k'.map m'.idOf :=
    (congrArg Inst.kind heq).trans hmap
  have : Nonempty Handle := ⟨h'⟩
  have hplain : Inst.plain (m'.kindOf h') = Inst.plain k' := by
    refine Inst.map_injOn hmm.symm.injOn_idOf (fun r hr => ?_) (fun r hr => ?_) ?_
    · exact hmm.sound'.usable_of_kindOf hr
    · exact husable r hr
    · exact congrArg (fun k : Kind ResultId => (⟨none, none, k⟩ : Inst ResultId)) hkind
  have hsame : m'.kindOf h' = k' := congrArg Inst.kind hplain
  exact hsame ▸ List.mem_map_of_mem hh'

/-- A decoration is found by the id of its target. -/
theorem memberWordsOn?_wire (hh : m.Usable h) (g : Handle) (member : Word)
    (decoration : Decoration) : (m.kindOf g).memberWordsOn? h member decoration =
      (m.wire g).kind.memberWordsOn? (m.idOf h) member decoration := by
  change _ = ((m.kindOf g).map m.idOf).memberWordsOn? (m.idOf h) member decoration
  cases hkind : m.kindOf g
  case memberDecorate target i d words =>
    have htarget : m.Usable target := hmm.sound.usable_of_kindOf (h := g) (by
      rw [hkind]
      simp [Kind.references, Kind.operands, List.filterMap_cons])
    have hiff : m.idOf target = m.idOf h ↔ target = h :=
      hmm.injOn_idOf.eq_iff htarget hh
    change _ = (Kind.memberDecorate (m.idOf target) i d words).memberWordsOn? _ _ _
    simp only [Kind.memberWordsOn?, hiff]
  case var storage initializer => cases initializer <;> rfl
  all_goals rfl

theorem findSome?_notes {block block' : Handle} (hb : Twins m m' block block') (member : Word)
    (decoration : Decoration) : m.notes.findSome? (Kind.memberWordsOn? block member decoration) =
      m'.notes.findSome? (Kind.memberWordsOn? block' member decoration) := by
  have hwires {m m' : Module} (hmm : Paired m m') {block : Handle} (hb : m.Usable block) :
      m.notes.findSome? (Kind.memberWordsOn? block member decoration) =
        (m.wires .annotations).findSome? fun i =>
          i.kind.memberWordsOn? (m.idOf block) member decoration := by
    rw [← List.head?_filterMap, ← List.head?_filterMap, notes, wires, List.filterMap_map,
      List.filterMap_map]
    exact congrArg List.head? (List.filterMap_congr fun g _ =>
      hmm.memberWordsOn?_wire hb g member decoration)
  rw [hwires hmm hb.usable, hwires hmm.symm hb.usable',
    hmm.agree.sections .annotations (by decide), hb.idOf_eq]

end Paired

/-! ### Annotations -/

namespace Paired

variable {target target' var var' block block' t t' : Handle} {decoration : Decoration}
  {member s : Word} {words : List Word} {members : List Handle} (hmm : Paired m m')

include hmm

theorem decorate_mem (ht : Twins m m' target target')
    (hmem : .decorate target decoration words ∈ m.notes) :
    .decorate target' decoration words ∈ m'.notes := by
  refine hmm.mem_notes hmem (congrArg (Kind.decorate · decoration words) ht.idOf_eq) ?_
  simpa [Kind.references, Kind.operands, List.filterMap_cons] using ht.usable'

theorem memberDecorate_mem (ht : Twins m m' target target')
    (hmem : .memberDecorate target member decoration words ∈ m.notes) :
    .memberDecorate target' member decoration words ∈ m'.notes := by
  refine hmm.mem_notes hmem
    (congrArg (Kind.memberDecorate · member decoration words) ht.idOf_eq) ?_
  simpa [Kind.references, Kind.operands, List.filterMap_cons] using ht.usable'

theorem exists_twins_of_mem_notes {k : Kind Handle} (hk : k ∈ m'.notes)
    (htarget : target' ∈ k.references) : ∃ target, Twins m m' target target' := by
  obtain ⟨h, -, rfl⟩ := List.mem_map.1 hk
  obtain ⟨target, ht⟩ := hmm.symm.exists_twins (hmm.sound'.usable_of_kindOf htarget)
  exact ⟨target, ht.symm⟩

theorem exists_decorate (hmem : .decorate target' decoration words ∈ m'.notes) :
    ∃ target, Twins m m' target target' ∧ .decorate target decoration words ∈ m.notes := by
  have htarget : target' ∈ (Kind.decorate target' decoration words).references := by
    simp [Kind.references, Kind.operands, List.filterMap_cons]
  obtain ⟨target, ht⟩ := hmm.exists_twins_of_mem_notes hmem htarget
  exact ⟨target, ht, hmm.symm.decorate_mem ht.symm hmem⟩

theorem exists_memberDecorate
    (hmem : .memberDecorate target' member decoration words ∈ m'.notes) :
    ∃ target, Twins m m' target target' ∧
      .memberDecorate target member decoration words ∈ m.notes := by
  have htarget : target' ∈ (Kind.memberDecorate target' member decoration words).references := by
    simp [Kind.references, Kind.operands, List.filterMap_cons]
  obtain ⟨target, ht⟩ := hmm.exists_twins_of_mem_notes hmem htarget
  exact ⟨target, ht, hmm.symm.memberDecorate_mem ht.symm hmem⟩

/-! ### Names and types -/

theorem findNamed? {name : String} (hvar : m'.findNamed? name = some var') :
    ∃ var, m.findNamed? name = some var ∧ Twins m m' var var' := by
  have hnamed (n : Module) :
      (n.named name).map n.idOf = (n.wires .debug).filterMap (Inst.named? name) := by
    rw [named_eq, wires_eq, List.map_filterMap, List.filterMap_map]
    exact List.filterMap_congr fun i _ => (Inst.named?_map n.idOf i).symm
  have hhead := congrArg List.head? ((hnamed m).trans
    ((congrArg _ (hmm.agree.sections .debug (by decide))).trans (hnamed m').symm))
  simp only [List.head?_map] at hhead
  have hvar : (m'.named name).head? = some var' := hvar
  rw [hvar] at hhead
  obtain ⟨var, hsome, hid⟩ := Option.map_eq_some_iff.1 hhead
  refine ⟨var, hsome, hmm.twins ?_ ?_ hid⟩
  · exact hmm.sound.usable_of_named (List.mem_of_mem_head? hsome)
  · exact hmm.sound'.usable_of_named (List.mem_of_mem_head? hvar)

theorem forall₂_twins {hs hs' : List Handle} (hids : hs.map m.idOf = hs'.map m'.idOf)
    (husable : ∀ h ∈ hs, m.Usable h) (husable' : ∀ h ∈ hs', m'.Usable h) :
    List.Forall₂ (Twins m m') hs hs' := by
  induction hs generalizing hs' with
  | nil =>
      obtain rfl := List.map_eq_nil_iff.1 hids.symm
      exact .nil
  | cons h hs ih =>
      obtain ⟨h', hs', rfl, hid, hids⟩ := List.map_eq_cons_iff.1 hids.symm
      rw [List.forall_mem_cons] at husable husable'
      exact .cons (hmm.twins husable.1 husable'.1 hid.symm) (ih hids.symm husable.2 husable'.2)

theorem pointeeStruct? (ht : Twins m m' var var')
    (hpointee : m.pointeeStruct? var = some (block, members)) : ∃ block' members',
      m'.pointeeStruct? var' = some (block', members') ∧ Twins m m' block block' ∧
        List.Forall₂ (Twins m m') members members' := by
  obtain ⟨pointer, storage, htype, hpointer, hblock⟩ := pointeeStruct?_eq_some.1 hpointee
  obtain ⟨pointer', htype', hid⟩ : ∃ pointer', m'.typeOf? var' = some pointer' ∧
      m'.idOf pointer' = m.idOf pointer := by
    have hmap : (m.typeOf? var).map m.idOf = (m'.typeOf? var').map m'.idOf :=
      congrArg Inst.resultType ht.wire_eq
    rw [htype] at hmap
    exact Option.map_eq_some_iff.1 hmap.symm
  have htwin : Twins m m' pointer pointer' :=
    hmm.twins (hmm.sound.references var pointer (Inst.mem_references.2 (.inl htype)))
      (hmm.sound'.references var' pointer' (Inst.mem_references.2 (.inl htype'))) hid.symm
  have hkind := htwin.kind_eq
  rw [hpointer] at hkind
  obtain ⟨block', hpointer', hid⟩ := Kind.map_eq_typePointer.1 hkind.symm
  have htwin : Twins m m' block block' :=
    hmm.twins (hmm.sound.usable_of_kindOf (h := pointer) (by
        simp [hpointer, Kind.references, Kind.operands, List.filterMap_cons]))
      (hmm.sound'.usable_of_kindOf (h := pointer') (by
        simp [hpointer', Kind.references, Kind.operands, List.filterMap_cons])) hid.symm
  have hkind := htwin.kind_eq
  rw [hblock, Kind.map_eq_typeStruct.2 ⟨members, rfl, rfl⟩] at hkind
  obtain ⟨members', hblock', hids⟩ := Kind.map_eq_typeStruct.1 hkind.symm
  refine ⟨block', members',
    pointeeStruct?_eq_some.2 ⟨pointer', storage, htype', hpointer', hblock'⟩, htwin,
    hmm.forall₂_twins hids.symm (fun h hh => ?_) fun h hh => ?_⟩
  · exact hmm.sound.usable_of_kindOf (h := block)
      (by simpa [hblock, Kind.references, Kind.operands])
  · exact hmm.sound'.usable_of_kindOf (h := block')
      (by simpa [hblock', Kind.references, Kind.operands])

theorem hasSize (ht : Twins m m' t t') (hs : m.HasSize t s) : m'.HasSize t' s := by
  refine hs.of_alike (R := Twins m m') (f := m.idOf) (g := m'.idOf) (fun t t' ht _ => ⟨?_, ?_⟩)
    (fun u u' hu n hn => ?_) ht
  · rw [← Kind.makeup_map, ← Kind.makeup_map, ht.kind_eq]
  · exact fun u hu u' hu' heq =>
      hmm.twins (hmm.sound.usable_of_kindOf hu) (hmm.sound'.usable_of_kindOf hu') heq
  · have hkind := hu.kind_eq
    unfold constantValue? at hn ⊢
    split at hn
    · rename_i value hconstant
      rw [hconstant] at hkind
      rw [Kind.map_eq_constant.1 hkind.symm]
      exact hn
    · cases hn

end Paired

/-! ## Reading again -/

/-- Whether a module was read of what was written of another: a size is one that was written,
at its entry point or apart from it. -/
structure Reloads (m m' : Module) : Prop where
  paired : Paired m m'
  sizes : ∀ e' ∈ m'.entryPoints, ∀ size ∈ e'.localSize,
    (∃ e ∈ m.entryPoints, e.localSize = some size) ∨
    ∃ h ∈ m.executionModes, ∃ function,
    m.kindOf h = .executionMode function .localSize size.toList

theorem Sound.mem_executionModes (hm : m.Sound) (hh : h ∈ m.listed) {function : Handle}
    {words : List Word} (hkind : m.kindOf h = .executionMode function .localSize words) :
    h ∈ m.executionModes := by
  have hop : (m.kindOf h).opcode = Form.executionMode.opcode := by
    rw [hkind]
    rfl
  obtain ⟨s, hs⟩ | ⟨f, hf, hmem⟩ := mem_listed.1 hh
  · have hsection := (hm.sections s h hs).1
    rw [hop] at hsection
    obtain rfl : s = .executionModes := hsection.symm
    exact hs
  · have hshaped := hm.functions f hf
    simp only [FunctionDef.handles, List.cons_append, List.mem_cons, List.mem_append,
      List.mem_flatMap] at hmem
    obtain rfl | hmem | ⟨b, hb, rfl | hmem⟩ := hmem
    · exact absurd (hshaped.function.symm.trans hop) (by decide)
    · exact absurd ((hshaped.parameters h hmem).symm.trans hop) (by decide)
    · exact absurd ((hshaped.labels b hb).symm.trans hop) (by decide)
    · exact absurd hop (hm.bodies f hf b hb h hmem)

/-- A size is read wherever one was written for the function. -/
theorem ReadFrom.exists_size {known : ResultId → Prop} {a : Assembly}
    {origin : Handle → Option (Item ResultId × Handle)} (hA : m.ReadFrom known a origin)
    (hm : m.Sound) {e' : EntryPoint Handle} (he' : e' ∈ a.module.entryPoints) {size : Extent}
    (hsize : e'.localSize = some size) : (∃ e ∈ m.entryPoints, e.localSize = some size) ∨
      ∃ h ∈ m.executionModes, ∃ function,
      m.kindOf h = .executionMode function .localSize size.toList := by
  have hmem : e'.map a.module.idOf ∈ a.module.entryPoints.map (EntryPoint.map a.module.idOf) :=
    List.mem_map_of_mem he'
  rw [hA.enters.entryPoints] at hmem
  obtain ⟨x, hlast, hextent⟩ :=
    Option.bind_eq_some_iff.1 (EntryPoint.localSize_of_mem_sized hmem hsize)
  have hx := List.mem_of_getLast? hlast
  obtain ⟨c, hplace⟩ := exists_place_of_mem_inPlace hx
  obtain ⟨i, sx, sy, sz, hitem, hkind⟩ := Item.mark_eq_size.1 (Context.place_eq_size.1 hplace).1
  obtain rfl : size = ⟨sx, sy, sz⟩ := by
    simp only [hitem, Item.extent?, hkind, Option.some.injEq] at hextent
    exact hextent.symm
  obtain ⟨h, hh, rfl⟩ | ⟨e, -, rfl⟩ | ⟨e, he, size', hsize', rfl⟩ | hend :=
    mem_emitted (mem_of_mem_inPlace hx)
  · obtain rfl : m.wire h = i := Item.inst.inj hitem
    obtain ⟨function, hfunction⟩ : ∃ function,
        m.kindOf h = .executionMode function .localSize [sx, sy, sz] := by
      change (m.kindOf h).map m.idOf = _ at hkind
      cases hmode : m.kindOf h
      case executionMode function mode words =>
        rw [hmode] at hkind
        obtain ⟨-, rfl, rfl⟩ := Kind.executionMode.inj hkind
        exact ⟨function, rfl⟩
      case var storage initializer =>
        rw [hmode] at hkind
        cases initializer <;> cases hkind
      all_goals
        rw [hmode] at hkind
        cases hkind
    exact .inr ⟨h, hm.mem_executionModes hh hfunction, function, hfunction⟩
  · cases hitem
  · obtain rfl := Item.inst.inj hitem
    obtain ⟨-, -, heq⟩ := Kind.executionMode.inj hkind
    refine .inl ⟨e, he, Eq.trans hsize' (congrArg some ?_)⟩
    obtain ⟨x, y, z⟩ := size'
    simpa [Extent.toList] using heq
  · rw [hend] at hitem
    cases hitem

/-- What was written of a sound module is read as what was written. -/
theorem Sound.reloads (hm : m.Sound) {w : List Word} (hencode : m.encode = .ok w)
    (hload : load w = .ok m') : Reloads m m' := by
  have hbound := bound_le_of_load hload _ (bound_of_encode hencode)
  have hsound := sound_of_load hload
  obtain ⟨d, hdecode, -, rfl⟩ := load_eq_ok.1 hload
  have hlegible := hm.legible hbound
  have hknown : ∀ x ∈ m.emitted, ∀ id ∈ x.1.mentions, (fun _ => True) id :=
    fun _ _ _ _ => trivial
  obtain ⟨a, origin, hA, hcurrent, hdecode'⟩ := hlegible.exists_assembled hencode hknown
  obtain rfl := Except.ok.inj (hdecode.symm.trans hdecode')
  have hheader : a.module.header = m.header := hA.header
  refine ⟨⟨hm, hsound, hbound, ?_, fun s hs => ?_, ?_⟩, fun e' he' size hsize => ?_⟩
  · exact hheader.symm ▸ hbound
  · have hsection := ReadFrom.section_wires hA
      (hlegible.goesTo_emitted (p := .listed s) ⟨by simpa using hs, by simp⟩)
    exact hsection.symm.trans (by cases s <;> rfl)
  · exact (ReadFrom.function_wires hA hlegible hcurrent).symm
  · exact ReadFrom.exists_size hA hm he' hsize

end Module

end KernelGrid
