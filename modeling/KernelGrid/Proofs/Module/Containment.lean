import KernelGrid.Proofs.Kernel.Preamble
import KernelGrid.Proofs.Module.ByteSizes
import KernelGrid.Proofs.Module.Normalization

/-!
# Containment

Edits are paths of elementary changes.  Every module on such a path is contained if the first
one is, and none has a type that contains itself by value if the first one has none.
-/

namespace KernelGrid

open Relation

theorem Inst.references_plain (kind : Kind Handle) :
    (Inst.plain kind).references = kind.references := by
  simp [Inst.references, Inst.plain, Kind.references]

theorem Inst.references_of_description? {i : Inst Handle} {d : Description}
    (hd : i.description? = some d) : ∀ r ∈ d.references, r ∈ i.references := by
  intro r hr
  unfold description? at hd
  split at hd
  · obtain rfl := Option.some.inj hd
    exact Inst.mem_references.2 (.inr (by simpa [Description.references] using hr))
  split at hd
  · obtain rfl := Option.some.inj hd
    exact Inst.mem_references.2 (by simpa [Description.references] using hr)
  · cases hd

namespace Module

variable {m₀ m m' m₁ : Module} {h : Handle} {kind : Kind Handle}

/-! ## Paths -/

theorem owns_of_path (hpath : ReflTransGen Move m m') (hh : m.Owns h) : m'.Owns h := by
  induction hpath with
  | refl => exact hh
  | tail _ hmove ih => exact hmove.owns ih

theorem Contained.of_path (hm : m.Contained) (hpath : ReflTransGen Move m m') :
    m'.Contained := by
  induction hpath with
  | refl => exact hm
  | tail _ hmove ih => exact hmove.contained ih

/-- A new instruction is embedded in nothing that was there, and what is changed gets no
parts. -/
theorem Move.embeds (hmove : m.Move m') (hm : m.Contained) {t u : Handle} (htu : m'.Embeds t u) :
    m.Owns u ∧ (m.Owns t → m.Embeds t u) := by
  have hsame (heq : m'.kindOf t = m.kindOf t) : m.Owns u ∧ (m.Owns t → m.Embeds t u) := by
    have htu : m.Embeds t u := by rwa [Embeds, heq] at htu
    exact ⟨hm.owns_of_embeds htu, fun _ => htu⟩
  cases hmove with
  | @append i hi =>
      by_cases ht : t = m.insts.nextHandle
      · have hinst : (Module.append i m).2.inst t = i := by rw [inst_append, if_pos ht]
        rw [Embeds, kindOf, hinst] at htu
        refine ⟨hi u (Inst.mem_references.2 (.inr (Kind.mem_references_of_mem_parts htu))), ?_⟩
        rw [ht, Owns]
        exact fun hlt => absurd hlt (Nat.lt_irrefl _)
      · exact hsame (by rw [kindOf, inst_append, if_neg ht, kindOf])
  | @change h f hh hreferences hparts =>
      by_cases ht : h = t ∧ (m.insts.get? t).isSome
      · have hinst : ({ m with insts := m.insts.modify h f } : Module).inst t =
            f (m.inst t) := by
          rw [inst_modify, if_pos ht]
        rw [Embeds, kindOf, hinst, ← ht.1] at htu
        have htu : m.Embeds t u := ht.1 ▸ hparts u htu
        exact ⟨hm.owns_of_embeds htu, fun _ => htu⟩
      · exact hsame (by rw [kindOf, inst_modify, if_neg ht, kindOf])
  | list hm' =>
      obtain ⟨_, _, _, _, _, _, _, _, rfl⟩ := hm'
      exact hsame rfl
  | allocId | enter | tabulate => exact hsame rfl

theorem Move.acyclic (hmove : m.Move m') (hm : m.Contained) (hacyclic : m.Acyclic) :
    m'.Acyclic := by
  have hpath {t u : Handle} (hown : m.Owns t) (htu : TransGen m'.Embeds t u) :
      TransGen m.Embeds t u := by
    induction htu with
    | single h => exact .single ((hmove.embeds hm h).2 hown)
    | tail htv h ih =>
        obtain ⟨w, -, hv⟩ := TransGen.tail'_iff.1 htv
        exact ih.tail ((hmove.embeds hm h).2 (hmove.embeds hm hv).1)
  intro t ht
  obtain ⟨u, -, hu⟩ := TransGen.tail'_iff.1 ht
  exact hacyclic t (hpath (hmove.embeds hm hu).1 ht)

/-! ## Single instructions -/

theorem Contained.move_lists (hm : m.Contained) {s : Section}
    (hframe : ∃ capabilities extensions extInstImports memoryModel executionModes debug
      annotations globals, m' = { m with
        capabilities, extensions, extInstImports, memoryModel, executionModes, debug,
        annotations, globals })
    (hs : ∀ g ∈ s.handles m', m.Owns g) (hothers : ∀ t, t ≠ s → t.handles m' = t.handles m) :
    m.Move m' := by
  refine .list hframe fun t g hg => ?_
  by_cases ht : t = s
  · exact hs g (ht ▸ hg)
  · exact hm.sections t g (hothers t ht ▸ hg)

theorem Contained.move_add (hm : m.Contained) (s : Section) (hh : m.Owns h) :
    m.Move (s.add h m) := by
  refine hm.move_lists (s := s) ?_ (fun g hg => ?_) fun t ht => ?_
  · cases s <;> exact ⟨_, _, _, _, _, _, _, _, rfl⟩
  · rw [Section.handles_add, if_pos rfl] at hg
    split at hg
    · rwa [List.mem_singleton.1 hg]
    · obtain hg | hg := List.mem_append.1 hg
      · exact hm.sections s g hg
      · rwa [List.mem_singleton.1 hg]
  · rw [Section.handles_add, if_neg (Ne.symm ht)]

theorem Contained.move_insertSource (hm : m.Contained) (hh : m.Owns h) :
    m.Move (insertSource h m).2 := by
  refine hm.move_lists (s := .debug) ⟨_, _, _, _, _, _, _, _, rfl⟩ (fun g hg => ?_)
    fun t ht => ?_
  · have hg : g ∈ m.debug.takeWhile _ ++ h :: m.debug.dropWhile _ := hg
    obtain hg | hg := List.mem_append.1 hg
    · exact hm.sections .debug g (List.takeWhile_subset _ hg)
    obtain rfl | hg := List.mem_cons.1 hg
    · exact hh
    · exact hm.sections .debug g ((List.dropWhile_suffix _).subset hg)
  · cases t <;> first | rfl | exact absurd rfl ht

theorem owns_self {i : Inst Handle} (hrun : append i m = (h, m₁)) : m₁.Owns h := by
  have hfst := fst_append i m
  have hsnd := (owns_append (m := m) (h := h) i).2 (.inl ?_)
  · rwa [hrun] at hsnd
  · rw [← hfst, hrun]

theorem move_append {i : Inst Handle} (hi : ∀ r ∈ i.references, m.Owns r)
    (hrun : append i m = (h, m₁)) : m.Move m₁ := by
  have hmove := Move.append hi
  rwa [hrun] at hmove

theorem Contained.path_append (hm : m.Contained) {i : Inst Handle} (s : Section)
    (hi : ∀ r ∈ i.references, m.Owns r) (hrun : Module.append i m = (h, m₁)) :
    ReflTransGen Move m (s.add h m₁) := by
  have hmove := move_append hi hrun
  exact (ReflTransGen.single hmove).tail ((hmove.contained hm).move_add s (owns_self hrun))

theorem Contained.path_define (hm : m.Contained) {type : Option Handle} (s : Section)
    (hreferences : ∀ r ∈ type.toList ++ kind.references, m.Owns r)
    (hrun : define type kind m = (h, m₁)) :
    ReflTransGen Move m (s.add h m₁) ∧ (s.add h m₁).Owns h := by
  have hrun : Module.append ⟨type, some m.header.bound, kind⟩ (allocId m).2 = (h, m₁) := hrun
  have hi : ∀ r ∈ (⟨type, some m.header.bound, kind⟩ : Inst Handle).references,
      (allocId m).2.Owns r := hreferences
  have hpath := (Move.allocId.contained hm).path_append s hi hrun
  refine ⟨hpath.head .allocId, ?_⟩
  rw [Owns, Section.insts_add]
  exact owns_self hrun

theorem Contained.path_append_insertSource (hm : m.Contained) (hkind : kind.references = [])
    (hrun : Module.append (.plain kind) m = (h, m₁)) :
    ReflTransGen Move m (insertSource h m₁).2 := by
  have hmove := move_append (by simp [Inst.references_plain, hkind]) hrun
  exact (ReflTransGen.single hmove).tail
    ((hmove.contained hm).move_insertSource (owns_self hrun))

theorem Contained.move_setKind (hm : m.Contained) (hh : m.Owns h)
    (hkind : kind.references = []) : m.Move (setKind h kind m).2 := by
  refine .change (f := fun i => { i with kind }) hh (fun r hr => ?_) fun u hu => ?_
  · obtain hr | hr := Inst.mem_references.1 hr
    · exact hm.references h r (Inst.mem_references.2 (.inl hr))
    · rw [hkind] at hr
      cases hr
  · have hu := Kind.mem_references_of_mem_parts hu
    rw [hkind] at hu
    cases hu

/-! ## Edits -/

structure Reaches (m₀ m : Module) : Prop where
  contained : m.Contained
  path : ReflTransGen Move m₀ m

theorem Contained.reaches (hm : m.Contained) : m.Reaches m := ⟨hm, .refl⟩

variable {known : List Handle} {α : Type} {made : α → List Handle}

/-- An edit keeps modules contained if it is a path from every contained one. -/
theorem keeps_reaches {x : Edit α} (hx : ∀ m a m', x m = (a, m') → m.Contained →
    (∀ r ∈ known, m.Owns r) → ReflTransGen Move m m' ∧ ∀ r ∈ made a, m'.Owns r) :
    Keeps (Reaches m₀) Owns known x made := by
  intro m hm hknown
  obtain ⟨hpath, hmade⟩ := hx m _ _ rfl hm.contained hknown
  refine ⟨⟨hm.contained.of_path hpath, hm.path.trans hpath⟩, fun r hr => ?_⟩
  exact (List.mem_append.1 hr).elim (hmade r) fun hr => owns_of_path hpath (hknown r hr)

theorem Contained.reaches_edit (hm : m.Contained) {x : Edit α}
    (hx : Keeps (Reaches m) Owns [] x made) :
    m.Reaches (x m).2 ∧ ∀ r ∈ made (x m).1, (x m).2.Owns r := by
  obtain ⟨hreaches, hmade⟩ := hx m hm.reaches (by simp)
  exact ⟨hreaches, fun r hr => hmade r (List.mem_append_left _ hr)⟩

theorem reaches_annotate (hreferences : ∀ r ∈ kind.references, r ∈ known) :
    Keeps (Reaches m₀) Owns known (annotate kind) fun _ => [] := by
  apply keeps_reaches
  intro m h m' hrun hm hknown
  obtain ⟨m₁, hstored, rfl⟩ := annotate_cases hrun
  refine ⟨hm.path_append .annotations (fun r hr => ?_) hstored, by simp⟩
  rw [Inst.references_plain] at hr
  exact hknown r (hreferences r hr)

theorem reaches_intern {d : Description} (hreferences : ∀ r ∈ d.references, r ∈ known) :
    Keeps (Reaches m₀) Owns known (intern d) fun h => [h] := by
  apply keeps_reaches
  intro m h m' hrun hm hknown
  obtain ⟨hmem, rfl⟩ | ⟨m₁, hdefine, rfl⟩ := intern_cases hrun
  · exact ⟨.refl, List.forall_mem_singleton.2 (hm.interned d h hmem).1⟩
  · have howned : ∀ r ∈ d.references, m.Owns r := fun r hr => hknown r (hreferences r hr)
    obtain ⟨hpath, hown⟩ := hm.path_define .globals howned hdefine
    have hdeclared := hm.of_path hpath
    have hinterned : ∀ d' g, (d', g) ∈ m₁.interned ++ [(d, h)] →
        (Section.globals.add h m₁).Owns g ∧
          ∀ r ∈ d'.references, (Section.globals.add h m₁).Owns r := by
      intro d' g hg
      obtain hg | hg := List.mem_append.1 hg
      · exact hdeclared.interned d' g hg
      · obtain ⟨rfl, rfl⟩ := Prod.mk.inj (List.mem_singleton.1 hg)
        exact ⟨hown, fun r hr => owns_of_path hpath (howned r hr)⟩
    exact ⟨hpath.tail (.tabulate hinterned hdeclared.distinct), List.forall_mem_singleton.2 hown⟩

theorem reaches_internType (hreferences : ∀ r ∈ kind.references, r ∈ known) :
    Keeps (Reaches m₀) Owns known (internType kind) fun h => [h] := reaches_intern hreferences

theorem reaches_internConstant {type : Handle} (htype : type ∈ known)
    (hreferences : ∀ r ∈ kind.references, r ∈ known) :
    Keeps (Reaches m₀) Owns known (internConstant type kind) fun h => [h] :=
  reaches_intern (List.forall_mem_cons.2 ⟨htype, hreferences⟩)

theorem reaches_decorate {target : Handle} {decoration : Decoration} {words : List Word}
    (htarget : target ∈ known) :
    Keeps (Reaches m₀) Owns known (decorate target decoration words) fun _ => [] :=
  reaches_annotate (by simpa [Kind.references, Kind.operands, List.filterMap_cons] using htarget)

theorem reaches_memberDecorate {target : Handle} {member : Word} {decoration : Decoration}
    {words : List Word} (htarget : target ∈ known) :
    Keeps (Reaches m₀) Owns known (memberDecorate target member decoration words) fun _ => [] :=
  reaches_annotate (by simpa [Kind.references, Kind.operands, List.filterMap_cons] using htarget)

theorem reaches_freshStructType {members : List Handle} (hmembers : ∀ r ∈ members, r ∈ known) :
    Keeps (Reaches m₀) Owns known (freshStructType members) fun h => [h] := by
  apply keeps_reaches
  intro m h m' hrun hm hknown
  obtain ⟨h', m₁, hstored, hrun⟩ := edit_bind.1 hrun
  obtain ⟨_, m₂, hdeclare, hrun⟩ := edit_bind.1 hrun
  obtain ⟨_, m₃, hdistinct, hrun⟩ := edit_bind.1 hrun
  obtain ⟨rfl, rfl⟩ := edit_pure.1 hrun
  obtain rfl : m₂ = Section.globals.add h' m₁ := (Prod.mk.inj hdeclare).2.symm
  obtain rfl := (Prod.mk.inj hdistinct).2.symm
  obtain ⟨hpath, hown⟩ := hm.path_define .globals
    (by simpa [Kind.references, Kind.operands] using fun r hr => hknown r (hmembers r hr))
    hstored
  have hdeclared := hm.of_path hpath
  have hdistinct : ∀ g ∈ h' :: m₁.distinct, m₁.Owns g :=
    List.forall_mem_cons.2 ⟨hown, hdeclared.distinct⟩
  exact ⟨hpath.tail (.tabulate hdeclared.interned hdistinct), List.forall_mem_singleton.2 hown⟩

theorem reaches_addGlobalVar {pointer : Handle}
    {storage : StorageClass} (hpointer : pointer ∈ known) :
    Keeps (Reaches m₀) Owns known (addGlobalVar pointer storage) fun h => [h] := by
  apply keeps_reaches
  intro m h m' hrun hm hknown
  obtain ⟨h', m₁, hstored, hrun⟩ := edit_bind.1 hrun
  obtain ⟨_, m₂, hdeclare, hrun⟩ := edit_bind.1 hrun
  obtain ⟨rfl, rfl⟩ := edit_pure.1 hrun
  obtain rfl : m₂ = Section.globals.add h' m₁ := (Prod.mk.inj hdeclare).2.symm
  obtain ⟨hpath, hown⟩ := hm.path_define .globals
    (by simpa [Kind.references, Kind.operands] using hknown pointer hpointer) hstored
  exact ⟨hpath, List.forall_mem_singleton.2 hown⟩

/-! ## Looking up -/

theorem Contained.owns_of_kindOf (hm : m.Contained)
    {r : Handle} (hr : r ∈ (m.kindOf h).references) :
    m.Owns r := hm.references h r (Inst.mem_references.2 (.inr hr))

theorem Contained.owns_of_typeOf? (hm : m.Contained) {t : Handle} (ht : m.typeOf? h = some t) :
    m.Owns t := hm.references h t (Inst.mem_references.2 (.inl ht))

theorem Contained.owns_of_named (hm : m.Contained) {name : String} (hh : h ∈ m.named name) :
    m.Owns h := by
  obtain ⟨g, -, hkind⟩ := List.mem_filterMap.1 hh
  split at hkind
  next t text heq =>
    split at hkind
    · obtain rfl := Option.some.inj hkind
      exact hm.owns_of_kindOf (h := g) (by simp [heq, Kind.references, Kind.operands])
    · cases hkind
  · cases hkind

theorem Contained.owns_of_findBuiltIn? (hm : m.Contained) {builtIn : Word}
    (hfind : m.findBuiltIn? builtIn = some h) : m.Owns h := by
  obtain ⟨g, -, ⟨words, heq⟩, -⟩ := exists_note_of_findBuiltIn? hfind
  exact hm.owns_of_kindOf (h := g) (by simp [heq, Kind.references, Kind.operands])

theorem Contained.notedVar?_eq (hm : m.Contained) {m' : Module} {builtIn : Word} {note : Handle}
    (hmm : m.Outlasts m') (hnote : note ∈ m.annotations) :
    m'.notedVar? builtIn note = m.notedVar? builtIn note := by
  have hkind : m'.kindOf note = m.kindOf note :=
    hmm.kindOf_eq (owns_iff.1 (hm.sections .annotations note hnote))
  unfold notedVar?
  rw [hkind]
  split
  next target decoration operands heq =>
    have howns : m.Owns target :=
      hm.owns_of_kindOf (h := note) (by simp [heq, Kind.references, Kind.operands])
    rw [hmm.kindOf_eq (owns_iff.1 howns)]
  · rfl

theorem Contained.findSome?_notedVar? (hm : m.Contained) {m' : Module} {builtIn : Word}
    (hmm : m.Outlasts m') :
    m.annotations.findSome? (m'.notedVar? builtIn) = m.findBuiltIn? builtIn := by
  rw [findBuiltIn?_eq_findSome?, ← List.head?_filterMap, ← List.head?_filterMap]
  exact congrArg List.head? (List.filterMap_congr fun n hn => hm.notedVar?_eq hmm hn)

theorem Contained.owns_of_pointee? (hm : m.Contained) {t : Handle} (ht : m.pointee? h = some t) :
    m.Owns t := by
  unfold pointee? at ht
  split at ht
  next storage pointee hkind =>
    obtain rfl := Option.some.inj ht
    exact hm.owns_of_kindOf (h := h)
      (by simp [hkind, Kind.references, Kind.operands, List.filterMap_cons])
  · cases ht

theorem Contained.owns_of_pointeeStruct? (hm : m.Contained) {block : Handle}
    {members : List Handle} (hblock : m.pointeeStruct? h = some (block, members)) :
    m.Owns block := by
  simp only [pointeeStruct?, bind, Option.bind_eq_some_iff] at hblock
  obtain ⟨pointer, -, block', hpointee, hstruct⟩ := hblock
  split at hstruct
  · rw [← (Prod.mk.inj (Option.some.inj hstruct)).1]
    exact hm.owns_of_pointee? hpointee
  · cases hstruct

/-! ## The preamble -/

theorem reaches_addCapability (c : Capability) :
    Keeps (Reaches m₀) Owns known (addCapability c) fun _ => [] := by
  apply keeps_reaches
  intro m u m' hrun hm hknown
  obtain ⟨-, rfl⟩ | ⟨-, h, m₁, hstored, rfl⟩ := addCapability_cases hrun
  · exact ⟨.refl, by simp⟩
  · exact ⟨hm.path_append .capabilities
      (by simp [Inst.references_plain, Kind.references, Kind.operands]) hstored, by simp⟩

theorem reaches_addExtInstImport (name : String) :
    Keeps (Reaches m₀) Owns known (addExtInstImport name) fun _ => [] := by
  apply keeps_reaches
  intro m h m' hrun hm hknown
  obtain ⟨-, -, rfl⟩ | ⟨-, m₁, hstored, rfl⟩ := addExtInstImport_cases hrun
  · exact ⟨.refl, by simp⟩
  · exact ⟨(hm.path_define .extInstImports (by simp [Kind.references, Kind.operands]) hstored).1,
      by simp⟩

theorem reaches_setMemoryModel (addressing : AddressingModel) (memory : MemoryModel) :
    Keeps (Reaches m₀) Owns known (setMemoryModel addressing memory) fun _ => [] := by
  apply keeps_reaches
  intro m u m' hrun hm hknown
  obtain ⟨h, hmodel, rfl⟩ | ⟨-, h, m₁, hstored, rfl⟩ := setMemoryModel_cases hrun
  · have hown := hm.sections .memoryModel h (by simp [Section.handles, hmodel])
    exact ⟨.single (hm.move_setKind hown (by simp [Kind.references, Kind.operands])), by simp⟩
  · exact ⟨hm.path_append .memoryModel
      (by simp [Inst.references_plain, Kind.references, Kind.operands]) hstored, by simp⟩

theorem reaches_setSource (language version : Word) :
    Keeps (Reaches m₀) Owns known (setSource language version) fun _ => [] := by
  apply keeps_reaches
  intro m u m' hrun hm hknown
  obtain ⟨h, hfind, rfl⟩ | ⟨-, h, m₁, hstored, rfl⟩ := setSource_cases hrun
  · have hown := hm.sections .debug h (findKind?_eq_some hfind).1
    exact ⟨.single (hm.move_setKind hown (by simp [Kind.references, Kind.operands])), by simp⟩
  · exact ⟨hm.path_append_insertSource (by simp [Kind.references, Kind.operands])
      hstored, by simp⟩

theorem reaches_addSourceExtension (name : String) :
    Keeps (Reaches m₀) Owns known (addSourceExtension name) fun _ => [] := by
  apply keeps_reaches
  intro m u m' hrun hm hknown
  obtain ⟨-, rfl⟩ | ⟨-, h, m₁, hstored, rfl⟩ := addSourceExtension_cases hrun
  · exact ⟨.refl, by simp⟩
  · exact ⟨hm.path_append_insertSource (by simp [Kind.references, Kind.operands])
      hstored, by simp⟩

theorem reaches_addComputePreamble :
    Keeps (Reaches m₀) Owns known addComputePreamble fun _ => [] := by
  unfold addComputePreamble
  refine .bind (reaches_addCapability _) fun _ => ?_
  refine .bind (reaches_setMemoryModel _ _) fun _ => ?_
  refine .bind (reaches_addExtInstImport _) fun _ => ?_
  refine .bind (reaches_setSource _ _) fun _ => ?_
  exact .forM fun name _ => reaches_addSourceExtension name

/-! ## Normalization -/

theorem Contained.move_consolidate (hm : m.Contained) : m.Move m.consolidate :=
  .list ⟨_, _, _, _, _, _, _, _, rfl⟩ fun s h hh =>
    hm.sections s h ((handles_consolidate s m).subset hh)

theorem Contained.move_reintern (hm : m.Contained) : m.Move m.reintern := by
  refine .tabulate (fun d h hh => ?_) hm.distinct
  obtain ⟨hglobal, hd⟩ := interned_reintern hh
  exact ⟨hm.sections .globals h hglobal, fun r hr =>
    hm.references h r (Inst.references_of_description? hd r hr)⟩

theorem parts_withStorage (k : Kind Handle) (storage : StorageClass) :
    (k.withStorage storage).parts = k.parts := by
  cases k <;> rfl

theorem Contained.move_makeUniform (hm : m.Contained) (hh : m.Owns h) :
    m.Move { m with insts := m.insts.modify h makeUniform } := by
  refine .change hh (fun r hr => ?_) fun u hu => ?_
  · exact hm.references h r ((replaces_makeUniform _).references r hr)
  · obtain ⟨-, heq⟩ | ⟨-, heq⟩ := makeUniform_cases (m.inst h)
    · rwa [heq] at hu
    · rwa [heq, parts_withStorage] at hu

theorem Contained.path_makeUniform (hm : m.Contained) {hs : List Handle}
    (hhs : ∀ h ∈ hs, m.Owns h) : ReflTransGen Move m
      { m with insts := hs.foldl (fun insts h => insts.modify h makeUniform) m.insts } := by
  induction hs generalizing m with
  | nil => exact .refl
  | cons h hs ih =>
      rw [List.forall_mem_cons] at hhs
      have hmove := hm.move_makeUniform hhs.1
      exact (ih (hmove.contained hm) fun g hg => hmove.owns (hhs.2 g hg)).head hmove

theorem Contained.path_normalize (hm : m.Contained) : ReflTransGen Move m m.normalize.2 := by
  have hstorage : ReflTransGen Move m m.normalizeStorage.2 := by
    unfold normalizeStorage
    split
    · have hpath := hm.path_makeUniform (hm.sections .globals)
      exact hpath.tail (hm.of_path hpath).move_reintern
    · exact .refl
  rw [normalize_eq]
  exact hstorage.tail (hm.of_path hstorage).move_consolidate

end Module

end KernelGrid
