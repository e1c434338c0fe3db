import KernelGrid.Proofs.Module.Annotations
import KernelGrid.Proofs.Module.Soundness

/-!
# Valid modules

When validation finds nothing: no work group is empty, every bound variable is a uniform
variable that points to a marked block, and whatever has offsets has them in increasing order.
-/

namespace KernelGrid

theorem EntryPoint.findings_eq_nil_iff {e : EntryPoint Handle} :
    e.findings = [] ↔ ∀ size ∈ e.localSize, 0 ∉ size.toList := by
  rw [EntryPoint.findings, List.filterMap_eq_nil_iff]
  constructor
  · intro hnone size hsize hzero
    obtain ⟨axis, haxis⟩ := List.mem_iff_getElem?.1 hzero
    have hmem : (0, axis) ∈ e.localSize.toList.flatMap fun size => size.toList.zipIdx :=
      List.mem_flatMap.2 ⟨size, Option.mem_toList.2 hsize,
        List.mk_mem_zipIdx_iff_getElem?.2 haxis⟩
    simpa using hnone _ hmem
  · rintro he ⟨extent, axis⟩ hmem
    obtain ⟨size, hsize, hmem⟩ := List.mem_flatMap.1 hmem
    refine if_neg ?_
    rintro rfl
    exact he size (Option.mem_toList.1 hsize) (List.fst_mem_of_mem_zipIdx hmem)

namespace Module

variable {m m' : Module} {var block h : Handle} {notes : List (Kind Handle)}

/-! ## Members -/

def offsets (m : Module) (block : Handle) (count : Word) : List Word :=
  (List.range count.toNat).filterMap (m.memberOffset? block)

theorem map_snd_placedMembers (m : Module) (block : Handle) (count : Word) :
    (m.placedMembers block count).map Prod.snd = m.offsets block count := by
  rw [placedMembers, List.map_filterMap, offsets]
  refine List.filterMap_congr fun i _ => ?_
  rw [Option.map_map]
  exact Option.map_id'

/-- A list is in order if whatever stands next to each other is. -/
theorem forall_mem_zip_tail_iff {α : Type} {R : α → α → Prop} [Trans R R R] {xs : List α} :
    (∀ x ∈ xs.zip xs.tail, R x.1 x.2) ↔ xs.Pairwise R := by
  rw [← List.isChain_iff_pairwise]
  induction xs with
  | nil => simp
  | cons a xs ih =>
      cases xs with
      | nil => simp
      | cons b xs =>
          rw [List.tail_cons, List.zip_cons_cons, List.forall_mem_cons, List.isChain_cons_cons]
          exact and_congr_right fun _ => ih

theorem offsetFindings_eq_nil_iff {count : Word} :
    m.offsetFindings block count = [] ↔ (m.offsets block count).Pairwise (· < ·) := by
  have hplaced : (∀ x ∈ (m.placedMembers block count).zip (m.placedMembers block count).tail,
      x.1.2 < x.2.2) ↔ (m.placedMembers block count).Pairwise fun x y => x.2 < y.2 :=
    forall_mem_zip_tail_iff (R := fun x y : Nat × Word => x.2 < y.2)
  rw [← map_snd_placedMembers, List.pairwise_map, ← hplaced, offsetFindings,
    List.filterMap_eq_nil_iff]
  refine forall₂_congr fun x _ => ?_
  rw [← UInt32.not_le]
  simp

theorem pairwise_offsets_of_le_one {count : Word} (hcount : count.toNat ≤ 1) :
    (m.offsets block count).Pairwise (· < ·) := by
  have hlength : (m.offsets block count).length ≤ 1 :=
    (List.length_filterMap_le _ _).trans (by simpa using hcount)
  cases hlist : m.offsets block count with
  | nil => exact .nil
  | cons a xs =>
      cases xs with
      | nil => exact List.pairwise_singleton _ _
      | cons b xs =>
          rw [hlist] at hlength
          simp at hlength

theorem filterMap_getElem?_range {α : Type} (xs : List α) (n : Nat) :
    (List.range n).filterMap (xs[·]?) = xs.take n := by
  induction n with
  | zero => simp
  | succ n ih =>
      rw [List.range_succ, List.filterMap_append, ih, List.take_add_one]
      cases hx : xs[n]? <;> simp [hx]

/-- Members that are given offsets one after the other have these. -/
theorem offsets_eq_take {given : List Word} {count : Word} (hlength : given.length ≤ 2 ^ 32)
    (hnotes : ∀ member, m.notes.findSome? (Kind.memberWordsOn? block member .offset) =
      (offsetNotes block given.zipIdx).findSome? (Kind.memberWordsOn? block member .offset)) :
    m.offsets block count = given.take count.toNat := by
  rw [← filterMap_getElem?_range, offsets]
  refine List.filterMap_congr fun i hi => ?_
  have hlt : i < 2 ^ 32 := (List.mem_range.1 hi).trans count.toNat_lt
  rw [memberOffset?_eq_notes, hnotes,
    findSome?_offsetNotes (by simpa using hlength) hlt (Nat.zero_le i), Nat.sub_zero]
  cases given[i]? <;> rfl

theorem length_members_lt {w : List Word} (hload : load w = .ok m) {members : List Handle}
    (hkind : m.kindOf h = .typeStruct members) : members.length < Stream.maxRecordWords := by
  obtain ⟨d, hdecode, -, rfl⟩ := load_eq_ok.1 hload
  obtain ⟨_, _, _, _, _, -, -, records, item, origin, hsplit, hD⟩ := exists_decoded hdecode
  have hkind : (d.inst h).kind = .typeStruct members := hkind
  obtain ⟨r, hr, -, hitem⟩ :=
    hD.assembled.stores.stored h (by rw [Inst.isPlaceholder, hkind]; rfl)
  have hfits := ((Stream.Record.words_of_split hsplit).2 r hr).canonical
  rw [← (Stream.Record.words_canonical (hD.read r hr)).1, hitem] at hfits
  have hfits : ((d.wire h).statement id).words.length + 1 ≤ Stream.maxRecordWords := hfits
  have hoperands : ((d.wire h).statement id).operands = members.map fun g =>
      .ref (d.idOf g) := by
    rw [Inst.statement, wire, Inst.kind_map, Kind.operands_map, hkind]
    simp [Kind.operands, Operand.map]
  have hwords : ((members.map fun g => Operand.ref (d.idOf g)).flatMap Operand.words).length =
      members.length := by
    simp [List.flatMap_map, Operand.words]
  rw [Statement.words, List.length_append, hoperands, hwords] at hfits
  omega

/-! ## Well-formed modules -/

structure InOrder (m : Module) (block : Handle) : Prop where
  stored : (m.insts.get? block).isSome
  increasing : ∀ members, m.kindOf block = .typeStruct members →
    (m.offsets block members.length.toUInt32).Pairwise (· < ·)

def IsMarked (m : Module) (block : Handle) : Prop :=
  ∃ words, .decorate block .bufferBlock words ∈ m.notes ∨ .decorate block .block words ∈ m.notes

structure IsBound (m : Module) (var : Handle) : Prop where
  storage : ∃ initializer, m.kindOf var = .var .uniform initializer
  pointee : ∃ block members, m.pointeeStruct? var = some (block, members) ∧ m.IsMarked block

/-- Whether no work group is empty, where its size is stated at its entry point or apart from
it. -/
structure NonEmptyGroups (m : Module) : Prop where
  entryPoints : ∀ e ∈ m.entryPoints, ∀ size ∈ e.localSize, 0 ∉ size.toList
  executionModes : ∀ h ∈ m.executionModes, ∀ function, ∀ size : Extent,
    m.kindOf h = .executionMode function .localSize size.toList → 0 ∉ size.toList

structure LaidOut (m : Module) : Prop where
  stored : ∀ h ∈ m.annotations, (m.insts.get? h).isSome
  bound : ∀ var words, .decorate var .binding words ∈ m.notes → m.IsBound var
  placed : ∀ block member words, .memberDecorate block member .offset words ∈ m.notes →
    m.InOrder block

theorem isMarked_iff :
    m.IsMarked block ↔ m.hasDecoration block .bufferBlock ∨ m.hasDecoration block .block := by
  rw [hasDecoration_iff, hasDecoration_iff, ← exists_or]
  rfl

theorem blockFindings_eq_nil_iff {members : List Handle} :
    m.blockFindings var block members = [] ↔
    m.IsMarked block ∧ (m.offsets block members.length.toUInt32).Pairwise (· < ·) := by
  rw [blockFindings, List.append_eq_nil_iff, offsetFindings_eq_nil_iff, isMarked_iff]
  refine and_congr_left fun _ => ?_
  simp [or_iff_not_imp_left]

theorem LaidOut.increasing (hm : m.LaidOut) {members : List Handle}
    (hblock : m.kindOf block = .typeStruct members) :
    (m.offsets block members.length.toUInt32).Pairwise (· < ·) := by
  by_cases hplaced : ∃ member words, .memberDecorate block member .offset words ∈ m.notes
  · obtain ⟨member, words, hmem⟩ := hplaced
    exact (hm.placed block member words hmem).increasing members hblock
  · have hnone : m.offsets block members.length.toUInt32 = [] := by
      rw [offsets, List.filterMap_eq_nil_iff]
      intro i _
      rw [memberOffset?_eq_notes, Option.bind_eq_none_iff]
      intro words hfound
      obtain ⟨k, hk, hwords⟩ := List.exists_of_findSome?_eq_some hfound
      exact absurd ⟨_, _, Kind.memberWordsOn?_eq_some.1 hwords ▸ hk⟩ hplaced
    rw [hnone]
    exact .nil

theorem pointeeStruct?_eq_some {members : List Handle} :
    m.pointeeStruct? var = some (block, members) ↔ ∃ pointer storage,
      m.typeOf? var = some pointer ∧ m.kindOf pointer = .typePointer storage block ∧
        m.kindOf block = .typeStruct members := by
  simp only [pointeeStruct?, bind, Option.bind_eq_some_iff]
  constructor
  · rintro ⟨pointer, htype, block', hpointee, hstruct⟩
    unfold pointee? at hpointee
    split at hpointee
    next storage pointee hpointer =>
      obtain rfl := Option.some.inj hpointee
      split at hstruct
      next members' hmembers =>
        obtain ⟨rfl, rfl⟩ := Prod.mk.inj (Option.some.inj hstruct)
        exact ⟨pointer, storage, htype, hpointer, hmembers⟩
      · cases hstruct
    · cases hpointee
  · rintro ⟨pointer, storage, htype, hpointer, hblock⟩
    refine ⟨pointer, htype, block, ?_, ?_⟩
    · rw [pointee?, hpointer]
    · rw [hblock]
      rfl

/-- Of a bound global nothing is found if it is a uniform variable that points to a marked
block whose offsets increase, and of any other global nothing is found at all. -/
theorem globalFindings_eq_nil_iff : m.globalFindings var = [] ↔
    ∀ words, .decorate var .binding words ∈ m.notes →
      (∃ initializer, m.kindOf var = .var .uniform initializer) ∧
      ∃ block members, m.pointeeStruct? var = some (block, members) ∧ m.IsMarked block ∧
        (m.offsets block members.length.toUInt32).Pairwise (· < ·) := by
  rw [← forall_exists_index (p := fun words => Kind.decorate var .binding words ∈ m.notes)
    (q := fun _ => _ ∧ _), ← hasDecoration_iff, globalFindings]
  split
  next hbound =>
    rw [forall_prop_of_true hbound]
    split
    next storage initializer hvar =>
      rw [List.append_eq_nil_iff]
      refine and_congr ?_ ?_
      · rw [hvar]
        simp
      · split
        next block members hpointee =>
          rw [blockFindings_eq_nil_iff, hpointee]
          simp
        next hnone =>
          simp [hnone]
    next hother =>
      refine iff_of_false (by simp) ?_
      rintro ⟨⟨initializer, hvar⟩, -⟩
      exact hother _ _ hvar
  next hfree => exact iff_of_true rfl fun hbound => absurd hbound hfree

theorem validate_eq_nil_iff_forall : m.validate = [] ↔ (∀ e ∈ m.entryPoints, e.findings = []) ∧
    ∀ var ∈ m.globals, m.globalFindings var = [] := by
  rw [validate, List.append_eq_nil_iff, List.flatMap_eq_nil_iff, List.flatMap_eq_nil_iff]

/-- Of a module that is laid out validation finds nothing. -/
theorem LaidOut.validate_eq_nil (hm : m.LaidOut)
    (hgroups : ∀ e ∈ m.entryPoints, ∀ size ∈ e.localSize, 0 ∉ size.toList) :
    m.validate = [] := by
  refine validate_eq_nil_iff_forall.2
    ⟨fun e he => EntryPoint.findings_eq_nil_iff.2 (hgroups e he),
    fun var _ => globalFindings_eq_nil_iff.2 fun words hmem => ?_⟩
  obtain ⟨hvar, block, members, hpointee, hmarked⟩ := hm.bound var words hmem
  obtain ⟨_, _, -, -, hblock⟩ := pointeeStruct?_eq_some.1 hpointee
  exact ⟨hvar, block, members, hpointee, hmarked, hm.increasing hblock⟩

/-! ## Changes -/

theorem isSome_of_kindOf (hh : m.kindOf h ≠ .placeholder) : (m.insts.get? h).isSome := by
  cases hget : m.insts.get? h with
  | some i => rfl
  | none =>
      rw [kindOf, inst, hget] at hh
      exact absurd rfl hh

theorem isSome_of_typeOf? {type : Handle} (hh : m.typeOf? h = some type) :
    (m.insts.get? h).isSome := by
  cases hget : m.insts.get? h with
  | some i => rfl
  | none =>
      rw [typeOf?, inst, hget] at hh
      cases hh

theorem pointeeStruct?_mono (hinsts : ∀ h i, m.insts.get? h = some i → m'.insts.get? h = some i)
    {members : List Handle} (hpointee : m.pointeeStruct? var = some (block, members)) :
    m'.pointeeStruct? var = some (block, members) := by
  have hinst {h : Handle} (hh : (m.insts.get? h).isSome) : m'.inst h = m.inst h := by
    obtain ⟨i, hi⟩ := Option.isSome_iff_exists.1 hh
    rw [inst_of_get? hi, inst_of_get? (hinsts h i hi)]
  have hkind {h : Handle} (hh : m.kindOf h ≠ .placeholder) : m'.kindOf h = m.kindOf h :=
    congrArg Inst.kind (hinst (isSome_of_kindOf hh))
  obtain ⟨pointer, storage, htype, hpointer, hblock⟩ := pointeeStruct?_eq_some.1 hpointee
  refine pointeeStruct?_eq_some.2 ⟨pointer, storage, ?_, ?_, ?_⟩
  · rw [typeOf?, hinst (isSome_of_typeOf? htype)]
    exact htype
  · rw [hkind (by simp [hpointer]), hpointer]
  · rw [hkind (by simp [hblock]), hblock]

theorem IsBound.extends (hvar : m.IsBound var) (hmm : m.Extends notes m')
    (hnotes : m.notes ⊆ m'.notes) : m'.IsBound var := by
  obtain ⟨⟨initializer, hkind⟩, block, members, hpointee, words, hmarked⟩ := hvar
  refine ⟨⟨initializer, ?_⟩, block, members, pointeeStruct?_mono hmm.insts hpointee, words,
    hmarked.imp (hnotes ·) (hnotes ·)⟩
  rw [hmm.kindOf_eq (isSome_of_kindOf (by simp [hkind])), hkind]

theorem offsets_of_notes_append (hnotes : m'.notes = m.notes ++ notes)
    (hblock : ∀ member words, .memberDecorate block member .offset words ∉ notes)
    (count : Word) : m'.offsets block count = m.offsets block count := by
  refine List.filterMap_congr fun i _ => ?_
  have hnone : notes.findSome? (Kind.memberWordsOn? block i.toUInt32 .offset) = none := by
    rw [List.findSome?_eq_none_iff]
    intro k hk
    rw [Option.eq_none_iff_forall_ne_some]
    rintro words hwords
    exact hblock _ words (Kind.memberWordsOn?_eq_some.1 hwords ▸ hk)
  rw [memberOffset?_eq_notes, memberOffset?_eq_notes, hnotes, List.findSome?_append, hnone,
    Option.or_none]

theorem InOrder.extends (hblock : m.InOrder block) (hmm : m.Extends notes m')
    (hnotes : m'.notes = m.notes ++ notes)
    (hnone : ∀ member words, .memberDecorate block member .offset words ∉ notes) :
    m'.InOrder block := by
  refine ⟨hmm.isSome hblock.stored, fun members hmembers => ?_⟩
  rw [hmm.kindOf_eq hblock.stored] at hmembers
  rw [offsets_of_notes_append hnotes hnone]
  exact hblock.increasing members hmembers

/-- A module stays laid out if what is bound and given offsets in addition is. -/
theorem LaidOut.extends (hm : m.LaidOut) (hmm : m.Extends notes m')
    (hbound : ∀ var words, .decorate var .binding words ∈ notes → m'.IsBound var)
    (hplaced : ∀ block member words, .memberDecorate block member .offset words ∈ notes →
      m'.InOrder block) : m'.LaidOut := by
  have hnotes := hmm.notes_eq hm.stored
  refine ⟨hmm.stored_annotations hm.stored, fun var words hmem => ?_,
    fun block member words hmem => ?_⟩
  · rw [hnotes, List.mem_append] at hmem
    obtain hmem | hmem := hmem
    · exact (hm.bound var words hmem).extends hmm (by simp [hnotes])
    · exact hbound var words hmem
  · by_cases hnew : ∃ member words, .memberDecorate block member .offset words ∈ notes
    · obtain ⟨_, _, hnew⟩ := hnew
      exact hplaced block _ _ hnew
    · push Not at hnew
      rw [hnotes, List.mem_append] at hmem
      exact (hm.placed block member words (hmem.resolve_right (hnew member words))).extends
        hmm hnotes hnew

theorem offsets_consolidate (m : Module) (block : Handle) (count : Word) :
    m.consolidate.offsets block count = m.offsets block count := by
  refine List.filterMap_congr fun i _ => ?_
  rw [memberOffset?_eq_notes, memberOffset?_eq_notes, findSome?_notes_consolidate]

theorem LaidOut.consolidate (hm : m.LaidOut) : m.consolidate.LaidOut := by
  refine ⟨fun h hh => hm.stored h ((handles_consolidate .annotations m).subset hh),
    fun var words hmem => ?_, fun block member words hmem => ?_⟩
  · obtain ⟨hstorage, block, members, hpointee, words', hmarked⟩ :=
      hm.bound var words (mem_notes_consolidate.1 hmem)
    exact ⟨hstorage, block, members, hpointee, words',
      hmarked.imp mem_notes_consolidate.2 mem_notes_consolidate.2⟩
  · have hblock := hm.placed block member words (mem_notes_consolidate.1 hmem)
    refine ⟨hblock.stored, fun members hmembers => ?_⟩
    rw [offsets_consolidate]
    exact hblock.increasing members hmembers

end Module

end KernelGrid
