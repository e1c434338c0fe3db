import KernelGrid.Proofs.Module.FixedPoints
import Mathlib.Data.List.Pairwise

/-!
# Type declarations

Normalization keeps all declarations.  Types that are declared once stay so, except that
pointer types to the same type become one if one of them is in function storage and one in
uniform storage: it is declared twice from then on.
-/

namespace KernelGrid

namespace Kind

variable {ρ : Type} {k k' : Kind ρ}

/-- Whether both are types of pointers to the same, one in function storage and one in uniform
storage. -/
def Merges (k k' : Kind ρ) : Prop := ∃ pointee,
  k = typePointer .function pointee ∧ k' = typePointer .uniform pointee ∨
    k = typePointer .uniform pointee ∧ k' = typePointer .function pointee

theorem Merges.symm (hk : k.Merges k') : k'.Merges k := by
  obtain ⟨pointee, hkinds | hkinds⟩ := hk
  · exact ⟨pointee, .inr hkinds.symm⟩
  · exact ⟨pointee, .inl hkinds.symm⟩

theorem not_merges_self (k : Kind ρ) : ¬k.Merges k := by
  rintro ⟨pointee, ⟨rfl, heq⟩ | ⟨rfl, heq⟩⟩ <;>
    simp [StorageClass.function, StorageClass.uniform] at heq

theorem Merges.isPointer (hk : k.Merges k') : k.isPointer := by
  obtain ⟨pointee, ⟨rfl, -⟩ | ⟨rfl, -⟩⟩ := hk <;> rfl

theorem isPointer_iff : k.isPointer ↔ ∃ storage pointee, k = typePointer storage pointee := by
  cases k <;> simp [isPointer]

theorem isType_of_isPointer (hk : k.isPointer) : k.isType ∧ ¬k.isStruct := by
  obtain ⟨storage, pointee, rfl⟩ := isPointer_iff.1 hk
  exact ⟨rfl, Bool.false_ne_true⟩

theorem storage?_of_isType (hk : k.isType) (hpointer : ¬k.isPointer) : k.storage? = none := by
  cases k
  case typePointer => exact absurd rfl hpointer
  case typeForwardPointer | var => cases hk
  all_goals rfl

end Kind

namespace Module

variable {m : Module} {i j : Inst Handle} {h : Handle}

/-! ## Two declarations -/

theorem isType_makeUniform (i : Inst Handle) : (makeUniform i).kind.isType = i.kind.isType :=
  kind_makeUniform (fun _ => Kind.isType_withStorage) i

theorem isStruct_makeUniform (i : Inst Handle) :
    (makeUniform i).kind.isStruct = i.kind.isStruct :=
  kind_makeUniform (fun _ => Kind.isStruct_withStorage) i

theorem kind_makeUniform_of_pointer {storage : StorageClass} {pointee : Handle}
    (hi : i.kind = .typePointer storage pointee) : (makeUniform i).kind =
      .typePointer (if storage = .function then .uniform else storage) pointee := by
  by_cases hstorage : storage = .function <;>
    simp [makeUniform, hi, Kind.storage?, Kind.withStorage, hstorage]

theorem makeUniform_of_not_isPointer (hi : i.kind.isType) (hpointer : ¬i.kind.isPointer) :
    makeUniform i = i := by
  rw [makeUniform, Kind.storage?_of_isType hi hpointer, if_neg (by simp)]

/-- Types become the same only where they have been the same or are merged. -/
theorem kind_makeUniform_eq_iff (hi : i.kind.isType) :
    (makeUniform i).kind = (makeUniform j).kind ↔ i.kind = j.kind ∨ i.kind.Merges j.kind := by
  refine ⟨fun heq => ?_, ?_⟩
  · have hj : j.kind.isType := by rwa [← isType_makeUniform, ← heq, isType_makeUniform]
    have hpointers : i.kind.isPointer = j.kind.isPointer := by
      rw [← isPointer_makeUniform i, heq, isPointer_makeUniform]
    by_cases hpointer : i.kind.isPointer
    · obtain ⟨a, p, hi⟩ := Kind.isPointer_iff.1 hpointer
      obtain ⟨b, q, hj⟩ := Kind.isPointer_iff.1 (hpointers ▸ hpointer)
      rw [kind_makeUniform_of_pointer hi, kind_makeUniform_of_pointer hj] at heq
      obtain ⟨hstorage, rfl⟩ := Kind.typePointer.inj heq
      rw [hi, hj]
      simp only [Kind.Merges, Kind.typePointer.injEq]
      grind
    · rw [makeUniform_of_not_isPointer hi hpointer,
        makeUniform_of_not_isPointer hj (hpointers ▸ hpointer)] at heq
      exact .inl heq
  · rintro (heq | ⟨pointee, ⟨hi, hj⟩ | ⟨hi, hj⟩⟩)
    · unfold makeUniform
      rw [heq]
      split <;> simp [heq]
    all_goals
      rw [kind_makeUniform_of_pointer hi, kind_makeUniform_of_pointer hj]
      rfl

/-! ## All declarations -/

/-- Whether no type, structs aside, is declared twice in the globals section. -/
def TypesDistinct (m : Module) : Prop := m.globals.Pairwise fun h g =>
  (m.kindOf h).isType → ¬(m.kindOf h).isStruct → m.kindOf h ≠ m.kindOf g

instance (m : Module) : Decidable m.TypesDistinct :=
  inferInstanceAs (Decidable (List.Pairwise _ _))

def PointersApart (m : Module) : Prop :=
  ∀ h ∈ m.globals, ∀ g ∈ m.globals, ¬(m.kindOf h).Merges (m.kindOf g)

theorem kindOf_normalizeStorage (hh : h ∈ m.globals) :
    m.normalizeStorage.2.kindOf h = (makeUniform (m.inst h)).kind := by
  rw [kindOf, inst_normalizeStorage, if_pos hh]

theorem isType_normalizeStorage (hh : h ∈ m.globals) :
    (m.normalizeStorage.2.kindOf h).isType = (m.kindOf h).isType := by
  rw [kindOf_normalizeStorage hh, isType_makeUniform, kindOf]

theorem isStruct_normalizeStorage (hh : h ∈ m.globals) :
    (m.normalizeStorage.2.kindOf h).isStruct = (m.kindOf h).isStruct := by
  rw [kindOf_normalizeStorage hh, isStruct_makeUniform, kindOf]

theorem TypesDistinct.pairwise_normalizeStorage (hm : m.TypesDistinct) :
    m.globals.Pairwise fun h g =>
    (m.kindOf h).isType → ¬(m.kindOf h).isStruct →
      (m.normalizeStorage.2.kindOf h = m.normalizeStorage.2.kindOf g ↔
        (m.kindOf h).Merges (m.kindOf g)) := by
  refine hm.imp_of_mem fun {h g} hh hg hne htype hstruct => ?_
  rw [kindOf_normalizeStorage hh, kindOf_normalizeStorage hg, kind_makeUniform_eq_iff htype]
  exact or_iff_right (hne htype hstruct)

theorem pointersApart_of_pairwise
    (hpairs : m.globals.Pairwise fun h g => ¬(m.kindOf h).Merges (m.kindOf g)) :
    m.PointersApart := by
  have : Std.Symm fun h g => ¬(m.kindOf h).Merges (m.kindOf g) :=
    ⟨fun _ _ hne hmerges => hne hmerges.symm⟩
  exact fun h hh g hg => hpairs.forall_of_forall (fun _ _ => Kind.not_merges_self _) hh hg

theorem TypesDistinct.normalizeStorage_iff (hm : m.TypesDistinct) :
    m.normalizeStorage.2.TypesDistinct ↔ m.PointersApart := by
  have hpairs := hm.pairwise_normalizeStorage
  rw [TypesDistinct, globals_normalizeStorage]
  refine ⟨fun hdistinct => pointersApart_of_pairwise ?_, fun hapart => ?_⟩
  · refine (hdistinct.and hpairs).imp_of_mem fun {h g} hh hg ⟨hne, hiff⟩ hmerges => ?_
    obtain ⟨htype, hstruct⟩ := Kind.isType_of_isPointer hmerges.isPointer
    rw [isType_normalizeStorage hh, isStruct_normalizeStorage hh] at hne
    exact hne htype hstruct ((hiff htype hstruct).2 hmerges)
  · refine hpairs.imp_of_mem fun {h g} hh hg hiff htype hstruct heq => ?_
    rw [isType_normalizeStorage hh] at htype
    rw [isStruct_normalizeStorage hh] at hstruct
    exact hapart h hh g hg ((hiff htype hstruct).1 heq)

/-- All declarations stay.  Of types that are declared once two become the same exactly if they
are of pointers to the same, one in function storage and one in uniform storage. -/
theorem typesDistinct_run_iff (hm : m.TypesDistinct) :
    (Pass.storageClass.run m).2.globals = m.globals ∧
    (m.globals.Pairwise fun h g => (m.kindOf h).isType → ¬(m.kindOf h).isStruct →
      ((Pass.storageClass.run m).2.kindOf h = (Pass.storageClass.run m).2.kindOf g ↔
        (m.kindOf h).Merges (m.kindOf g))) ∧
    ((Pass.storageClass.run m).2.TypesDistinct ↔ m.PointersApart) :=
  ⟨globals_normalizeStorage m, hm.pairwise_normalizeStorage, hm.normalizeStorage_iff⟩

def privatePointer : List Word :=
  [Stream.magic, 0x10000, 0, 4, 0, 0x40015, 1, 32, 0, 0x40020, 2, 7, 1, 0x40020, 3, 6, 1]

theorem typesDistinct_run_iff_privatePointer :
    ∃ m, decode privatePointer = .ok m ∧ m.TypesDistinct ∧
    (Pass.storageClass.run m).1 = true ∧ (Pass.storageClass.run m).2.TypesDistinct ∧
    m.PointersApart := by
  have hread : (decode privatePointer).toOption.map (fun m => (decide m.TypesDistinct,
      (Pass.storageClass.run m).1, decide (Pass.storageClass.run m).2.TypesDistinct)) =
        some (true, true, true) := by
    decide +kernel
  obtain ⟨m, hdecode, hall⟩ := exists_of_map_toOption hread
  obtain ⟨hm, hchanged, hdistinct⟩ := by simpa only [Prod.mk.injEq, decide_eq_true_eq] using hall
  exact ⟨m, hdecode, hm, hchanged, hdistinct, (typesDistinct_run_iff hm).2.2.1 hdistinct⟩

def uniformPointer : List Word :=
  [Stream.magic, 0x10000, 0, 4, 0, 0x40015, 1, 32, 0, 0x40020, 2, 7, 1, 0x40020, 3, 2, 1]

/-- A pointer type may be declared twice after the pass. -/
theorem not_typesDistinct_uniformPointer : ¬∀ (w : List Word) (m : Module), decode w = .ok m →
    m.TypesDistinct → (Pass.storageClass.run m).2.TypesDistinct := by
  intro hall
  have hread : (decode uniformPointer).toOption.map (fun m => (decide m.TypesDistinct,
      decide (Pass.storageClass.run m).2.TypesDistinct)) = some (true, false) := by
    decide +kernel
  obtain ⟨m, hdecode, hread⟩ := exists_of_map_toOption hread
  obtain ⟨hm, hmerged⟩ := by
    simpa only [Prod.mk.injEq, decide_eq_true_eq, decide_eq_false_iff_not] using hread
  exact hmerged (hall _ m hdecode hm)

end Module

end KernelGrid
