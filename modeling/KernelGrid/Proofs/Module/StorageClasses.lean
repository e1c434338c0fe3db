import KernelGrid.Proofs.Module.Normalization

/-!
# Storage classes of variables

A variable is in the storage class of its pointer type, and so is what announces a pointer
type. Normalization moves what stands in the globals section, so that a variable in the code of
a function stays behind if its pointer type is moved.
-/

namespace KernelGrid

/-- The pointer type that a variable has or that is announced. -/
def Inst.pointerType? {ρ : Type} (i : Inst ρ) : Option ρ :=
  match i.kind with
  | .var _ _ => i.resultType
  | .typeForwardPointer pointer _ => some pointer
  | _ => none

def Kind.isPointer {ρ : Type} : Kind ρ → Bool
  | typePointer _ _ => true
  | _ => false

namespace Module

variable {m : Module} {h t : Handle}

/-- Whether every variable, global or not, is in the storage class of its pointer type, and
every pointer type in the one that it is announced for. -/
def StorageAgrees (m : Module) : Prop := ∀ h ∈ m.listed, ∀ t ∈ (m.inst h).pointerType?,
  (m.kindOf t).isPointer ∧ (m.kindOf t).storage? = (m.kindOf h).storage?

/-- Whether what is in function storage stands in the globals section exactly if its pointer
type does. -/
def MovesTogether (m : Module) : Prop := ∀ h ∈ m.listed, ∀ t ∈ (m.inst h).pointerType?,
  (m.kindOf h).storage? = some .function → (h ∈ m.globals ↔ t ∈ m.globals)

instance (m : Module) : Decidable m.StorageAgrees :=
  inferInstanceAs (Decidable (∀ h ∈ m.listed, _))

instance (m : Module) : Decidable m.MovesTogether :=
  inferInstanceAs (Decidable (∀ h ∈ m.listed, _))

/-! ## One instruction -/

theorem pointerType?_makeUniform (i : Inst Handle) :
    (makeUniform i).pointerType? = i.pointerType? := by
  obtain ⟨-, heq⟩ | ⟨-, heq⟩ := makeUniform_cases i
  · rw [heq]
  · rw [heq, Inst.pointerType?, Inst.pointerType?]
    cases i.kind <;> rfl

theorem isPointer_makeUniform (i : Inst Handle) :
    (makeUniform i).kind.isPointer = i.kind.isPointer :=
  kind_makeUniform (fun k => by cases k <;> rfl) i

theorem storage?_makeUniform_of_ne {i : Inst Handle} (hi : i.kind.storage? ≠ some .function) :
    (makeUniform i).kind.storage? = i.kind.storage? := by
  rw [makeUniform, if_neg hi]

theorem storage?_makeUniform_of_eq {i : Inst Handle} (hi : i.kind.storage? = some .function) :
    (makeUniform i).kind.storage? = some .uniform := by
  rw [makeUniform, if_pos hi, Kind.storage?_withStorage, hi]
  rfl

theorem inst_normalizeStorage (m : Module) (h : Handle) : m.normalizeStorage.2.inst h =
    if h ∈ m.globals then makeUniform (m.inst h) else m.inst h := by
  obtain ⟨hany, heq⟩ | ⟨insts, heq, hinst⟩ := m.normalizeStorage_cases
  · rw [heq]
    split
    next hh =>
      have hstorage : ¬(m.kindOf h).storage? = some .function := by
        simpa [isInFunctionStorage] using List.any_eq_false.1 hany h hh
      exact (if_neg hstorage).symm
    · rfl
  · rw [heq]
    exact hinst h

theorem pointerType?_normalizeStorage (m : Module) (h : Handle) :
    (m.normalizeStorage.2.inst h).pointerType? = (m.inst h).pointerType? := by
  rw [inst_normalizeStorage]
  split
  · exact pointerType?_makeUniform _
  · rfl

theorem isPointer_normalizeStorage (m : Module) (h : Handle) :
    (m.normalizeStorage.2.kindOf h).isPointer = (m.kindOf h).isPointer := by
  rw [kindOf, inst_normalizeStorage]
  split
  · exact isPointer_makeUniform _
  · rfl

theorem storage?_normalizeStorage_of_ne (hh : (m.kindOf h).storage? ≠ some .function) :
    (m.normalizeStorage.2.kindOf h).storage? = (m.kindOf h).storage? := by
  rw [kindOf, inst_normalizeStorage]
  split
  · exact storage?_makeUniform_of_ne hh
  · rfl

theorem storage?_normalizeStorage_of_eq (hh : (m.kindOf h).storage? = some .function) :
    (m.normalizeStorage.2.kindOf h).storage? =
      some (if h ∈ m.globals then .uniform else .function) := by
  rw [kindOf, inst_normalizeStorage]
  split
  · exact storage?_makeUniform_of_eq hh
  · exact hh

/-- Two that are in function storage stay in one storage class if both are moved or none is. -/
theorem storage?_normalizeStorage_eq_iff (heq : (m.kindOf t).storage? = (m.kindOf h).storage?) :
    (m.normalizeStorage.2.kindOf t).storage? = (m.normalizeStorage.2.kindOf h).storage? ↔
      ((m.kindOf h).storage? = some .function → (h ∈ m.globals ↔ t ∈ m.globals)) := by
  by_cases hh : (m.kindOf h).storage? = some .function
  · have hne : StorageClass.uniform ≠ .function := by decide
    rw [storage?_normalizeStorage_of_eq hh, storage?_normalizeStorage_of_eq (heq.trans hh)]
    by_cases hglobal : h ∈ m.globals <;> by_cases hglobal' : t ∈ m.globals <;>
      simp [hh, hglobal, hglobal', hne, hne.symm]
  · rw [storage?_normalizeStorage_of_ne hh, storage?_normalizeStorage_of_ne (heq ▸ hh)]
    simp [hh, heq]

/-! ## Whole modules -/

theorem storageAgrees_normalizeStorage_iff (hm : m.StorageAgrees) :
    m.normalizeStorage.2.StorageAgrees ↔ m.MovesTogether := by
  have hlisted : m.normalizeStorage.2.listed = m.listed := by
    obtain ⟨-, heq⟩ | ⟨insts, heq, -⟩ := m.normalizeStorage_cases
    · rw [heq]
    · rw [heq]
      rfl
  rw [StorageAgrees, MovesTogether, hlisted]
  refine forall₂_congr fun h hh => ?_
  rw [pointerType?_normalizeStorage]
  refine forall₂_congr fun t ht => ?_
  obtain ⟨hpointer, hstorage⟩ := hm h hh t ht
  rw [isPointer_normalizeStorage, storage?_normalizeStorage_eq_iff hstorage]
  simp [hpointer]

theorem section_of_pointerType? {i : Inst Handle} (ht : t ∈ i.pointerType?) :
    Section.ofOpcode i.opcode = .globals := by
  rw [Inst.pointerType?] at ht
  rw [Inst.opcode]
  cases hkind : i.kind
  case var => rfl
  case typeForwardPointer => rfl
  all_goals
    rw [hkind] at ht
    cases ht

theorem Sound.storageAgrees_consolidate_iff (hm : m.Sound) :
    m.consolidate.StorageAgrees ↔ m.StorageAgrees := by
  refine ⟨fun hc h hh t ht => ?_, fun hc h hh => hc h ((listed_consolidate m).subset hh)⟩
  refine hc h ?_ t ht
  obtain ⟨s, hs⟩ | hf := mem_listed.1 hh
  · refine mem_listed.2 (.inl ⟨s, ?_⟩)
    obtain rfl : .globals = s := (section_of_pointerType? ht).symm.trans (hm.sections s h hs).1
    exact hs
  · exact mem_listed.2 (.inr hf)

/-- Where all variables are in the storage class of their pointer types, they still are after a
pass over storage classes, and after normalization, exactly if no variable is left behind by
its pointer type or leaves it behind. -/
theorem storageAgrees_normalize_iff {w : List Word} (hload : load w = .ok m)
    (hm : m.StorageAgrees) : ((Pass.storageClass.run m).2.StorageAgrees ↔ m.MovesTogether) ∧
      (m.normalize.2.StorageAgrees ↔ m.MovesTogether) := by
  have hpass := storageAgrees_normalizeStorage_iff hm
  refine ⟨hpass, ?_⟩
  rw [normalize_eq, (sound_of_load hload).normalizeStorage.sound.storageAgrees_consolidate_iff]
  exact hpass

def announcedGlobal : List Word :=
  [Stream.magic, 0x10000, 0, 4, 0, 0x40015, 1, 32, 0, 0x30027, 2, 7, 0x40020, 2, 7, 1, 0x4003b,
    2, 3, 7]

theorem storageAgrees_normalize_iff_announcedGlobal : ∃ m, load announcedGlobal = .ok m ∧
    m.StorageAgrees ∧ m.MovesTogether ∧ (Pass.storageClass.run m).1 = true ∧
    (Pass.storageClass.run m).2.StorageAgrees ∧ m.normalize.2.StorageAgrees := by
  have hread : (load announcedGlobal).toOption.map (fun m => (decide m.StorageAgrees,
      decide m.MovesTogether, (Pass.storageClass.run m).1)) = some (true, true, true) := by
    decide +kernel
  cases hload : load announcedGlobal with
  | error e =>
      rw [hload] at hread
      cases hread
  | ok m =>
      rw [hload] at hread
      obtain ⟨hm, hmoves, hchanged⟩ := by
        simpa only [Except.toOption, Option.map_some, Option.some.injEq, Prod.mk.injEq,
          decide_eq_true_eq] using hread
      obtain ⟨hpass, hnormalize⟩ := storageAgrees_normalize_iff hload hm
      exact ⟨m, rfl, hm, hmoves, hchanged, hpass.2 hmoves, hnormalize.2 hmoves⟩

def localVariable : List Word :=
  [Stream.magic, 0x10000, 0, 8, 0, 0x20013, 1, 0x40015, 2, 32, 0, 0x40020, 3, 7, 2,
    0x30021, 4, 1, 0x50036, 1, 5, 0, 4, 0x200f8, 6, 0x4003b, 3, 7, 7, 0x100fd, 0x10038]

/-- The pointer type of a variable in code is moved without it. -/
theorem not_storageAgrees_localVariable : ¬∀ (w : List Word) (m : Module), load w = .ok m →
    m.StorageAgrees → (Pass.storageClass.run m).2.StorageAgrees ∧
      m.normalize.2.StorageAgrees := by
  intro hall
  have hread : (load localVariable).toOption.map (fun m => (decide m.StorageAgrees,
      decide (Pass.storageClass.run m).2.StorageAgrees)) = some (true, false) := by
    decide +kernel
  cases hload : load localVariable with
  | error e =>
      rw [hload] at hread
      cases hread
  | ok m =>
      rw [hload] at hread
      obtain ⟨hm, hpass⟩ := by
        simpa only [Except.toOption, Option.map_some, Option.some.injEq, Prod.mk.injEq,
          decide_eq_true_eq, decide_eq_false_iff_not] using hread
      exact hpass (hall _ _ hload hm).1

end Module

end KernelGrid
