import KernelGrid.Proofs.Module.Validity

/-!
# Findings

Validation is silent about a module exactly if no work group is empty and every bound global
variable points to a marked block whose members are laid out in order.  Members without offset
may stand in between: neighbours that are in order make all pairs of members so.
-/

namespace KernelGrid.Module

variable {m : Module} {var block : Handle} {members : List Handle} {offset : Word} {member : Nat}

/-- Whether the first note about the offset of a member begins with this one.  A note without
operands gives none, and later notes do not count. -/
def GivesOffset (m : Module) (block : Handle) (member offset : Word) : Prop :=
  ∃ before words after,
    m.notes = before ++ .memberDecorate block member .offset (offset :: words) :: after ∧
      ∀ words', .memberDecorate block member .offset words' ∉ before

theorem memberOffset?_eq_some :
    m.memberOffset? block member = some offset ↔ m.GivesOffset block member.toUInt32 offset := by
  have hfirst (words : List Word) :
      m.notes.findSome? (Kind.memberWordsOn? block member.toUInt32 .offset) = some words ↔
        ∃ before after,
          m.notes = before ++ .memberDecorate block member.toUInt32 .offset words :: after ∧
          ∀ words', .memberDecorate block member.toUInt32 .offset words' ∉ before := by
    rw [List.findSome?_eq_some_iff]
    simp only [Kind.memberWordsOn?_eq_some, Option.eq_none_iff_forall_ne_some, ne_eq]
    constructor
    · rintro ⟨before, k, after, hnotes, rfl, hbefore⟩
      exact ⟨before, after, hnotes, fun words' hmem => hbefore _ hmem words' rfl⟩
    · rintro ⟨before, after, hnotes, hbefore⟩
      exact ⟨before, _, after, hnotes, rfl, fun k hk words' heq => hbefore words' (heq ▸ hk)⟩
  rw [memberOffset?_eq_notes, Option.bind_eq_some_iff]
  constructor
  · rintro ⟨words, hwords, hhead⟩
    obtain ⟨rest, rfl⟩ := List.head?_eq_some_iff.1 hhead
    obtain ⟨before, after, hnotes, hbefore⟩ := (hfirst _).1 hwords
    exact ⟨before, rest, after, hnotes, hbefore⟩
  · rintro ⟨before, rest, after, hnotes, hbefore⟩
    exact ⟨offset :: rest, (hfirst _).2 ⟨before, after, hnotes, hbefore⟩, rfl⟩

theorem pairwise_range_iff {R : Word → Word → Prop} {count : Word} :
    (List.range count.toNat).Pairwise (fun i j => R i.toUInt32 j.toUInt32) ↔
      ∀ i j, i < j → j < count → R i j := by
  rw [List.pairwise_iff_getElem]
  simp only [List.getElem_range, List.length_range]
  constructor
  · intro h i j hij hj
    simpa using h i.toNat j.toNat (hij.trans hj) hj hij
  · intro h i j hi hj hij
    refine h _ _ ?_ ?_
    · rwa [UInt32.lt_iff_toNat_lt, Word.toNat_toUInt32 hi, Word.toNat_toUInt32 hj]
    · rwa [UInt32.lt_iff_toNat_lt, Word.toNat_toUInt32 hj]

theorem pairwise_offsets_iff {count : Word} : (m.offsets block count).Pairwise (· < ·) ↔
    ∀ i j a b, i < j → j < count → m.GivesOffset block i a → m.GivesOffset block j b →
      a < b := by
  rw [offsets, List.pairwise_filterMap]
  simp only [memberOffset?_eq_some]
  rw [pairwise_range_iff (R := fun i j => ∀ a, m.GivesOffset block i a →
    ∀ b, m.GivesOffset block j b → a < b)]
  exact ⟨fun h i j a b hij hj ha hb => h i j hij hj a ha b hb,
    fun h i j hij hj a ha b hb => h i j a b hij hj ha hb⟩

/-- Whether a variable in uniform storage points to a marked block whose members stand in the
order of their offsets.  Members are numbered by words, so their count is one. -/
structure BindsBlock (m : Module) (var block : Handle) (members : List Handle) : Prop where
  storage : ∃ initializer, m.kindOf var = .var .uniform initializer
  pointer : ∃ pointer storage, m.typeOf? var = some pointer ∧
    m.kindOf pointer = .typePointer storage block
  struct : m.kindOf block = .typeStruct members
  marked : m.IsMarked block
  increasing : ∀ i j a b, i < j → j < members.length.toUInt32 → m.GivesOffset block i a →
    m.GivesOffset block j b → a < b

theorem exists_bindsBlock_iff : (∃ block members, m.BindsBlock var block members) ↔
    (∃ initializer, m.kindOf var = .var .uniform initializer) ∧
    ∃ block members, m.pointeeStruct? var = some (block, members) ∧ m.IsMarked block ∧
      (m.offsets block members.length.toUInt32).Pairwise (· < ·) := by
  simp only [pointeeStruct?_eq_some, pairwise_offsets_iff]
  constructor
  · rintro ⟨block, members, hstorage, ⟨pointer, storage, htype, hpointer⟩, hstruct, hmarked,
      hincreasing⟩
    exact ⟨hstorage, block, members, ⟨pointer, storage, htype, hpointer, hstruct⟩, hmarked,
      hincreasing⟩
  · rintro ⟨hstorage, block, members, ⟨pointer, storage, htype, hpointer, hstruct⟩, hmarked,
      hincreasing⟩
    exact ⟨block, members, hstorage, ⟨pointer, storage, htype, hpointer⟩, hstruct, hmarked,
      hincreasing⟩

theorem zero_not_mem_toList_iff {size : Extent} :
    0 ∉ size.toList ↔ size.x ≠ 0 ∧ size.y ≠ 0 ∧ size.z ≠ 0 := by
  simp [Extent.toList, eq_comm]

/-- Validation finds nothing exactly if every work group has three extents that are not zero,
and every global that is bound is a uniform variable that points to a block struct in which, of
any two members with offsets, the later one has the greater offset. -/
theorem validate_eq_nil_iff (m : Module) : m.validate = [] ↔
    (∀ e ∈ m.entryPoints, ∀ size ∈ e.localSize, size.x ≠ 0 ∧ size.y ≠ 0 ∧ size.z ≠ 0) ∧
    ∀ var ∈ m.globals, ∀ words, .decorate var .binding words ∈ m.notes →
      ∃ block members, m.BindsBlock var block members := by
  rw [validate_eq_nil_iff_forall]
  simp only [EntryPoint.findings_eq_nil_iff, zero_not_mem_toList_iff, globalFindings_eq_nil_iff,
    exists_bindsBlock_iff]

end KernelGrid.Module
