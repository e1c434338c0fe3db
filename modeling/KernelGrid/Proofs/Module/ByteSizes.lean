import KernelGrid.Module.ByteSize
import KernelGrid.Proofs.Module.Handles
import Mathlib.Data.Set.Card

/-!
# Byte sizes

The size of a type follows from the sizes of the types whose values it contains.  Where no type
contains itself, following them ends, and what is added to a module does not change what it
gives.
-/

namespace KernelGrid

namespace Module

open Relation

variable {m m' : Module} {t u : Handle}

/-- Whether values of the second type are part of every value of the first. -/
def Embeds (m : Module) (t u : Handle) : Prop := u ∈ (m.kindOf t).parts

def Acyclic (m : Module) : Prop := ∀ t, ¬TransGen m.Embeds t t

def span (m : Module) (t : Handle) : Set Handle := {u | ReflTransGen m.Embeds t u}

/-- Whether neither a type nor anything inside it contains itself by value. -/
def AcyclicFrom (m : Module) (t : Handle) : Prop := ∀ u ∈ m.span t, ¬TransGen m.Embeds u u

theorem mem_span_self : t ∈ m.span t := ReflTransGen.refl

theorem mem_span_of_embeds {v : Handle} (htu : m.Embeds t u) (hv : v ∈ m.span u) :
    v ∈ m.span t :=
  ReflTransGen.head htu hv

theorem mem_span_iff {v : Handle} : v ∈ m.span t ↔ v = t ∨ ∃ u, m.Embeds t u ∧ v ∈ m.span u :=
  ReflTransGen.cases_head_iff.trans (or_congr_left eq_comm)

theorem Acyclic.acyclicFrom (hacyclic : m.Acyclic) (t : Handle) : m.AcyclicFrom t :=
  fun u _ => hacyclic u

theorem AcyclicFrom.of_embeds (hacyclic : m.AcyclicFrom t) (htu : m.Embeds t u) :
    m.AcyclicFrom u :=
  fun v hv => hacyclic v (mem_span_of_embeds htu hv)

/-- The size of a type, given the sizes of its parts. -/
def byteSizeFrom (m : Module) (size : Handle → Except ModuleError Word) (type : Handle) :
    Except ModuleError Word :=
  let sized : Option Word → Except ModuleError Word
    | some size => .ok size
    | none => .error (.sizeOverflow (m.idOf type))
  match m.kindOf type with
  | .typeBool => .ok 4
  | .typeInt width _ => .ok (width / 8)
  | .typeFloat width => .ok (width / 8)
  | .typeVector component count => do sized (Word.mul? (← size component) count)
  | .typeArray element length =>
    match m.constantValue? length with
    | some length => do sized (Word.mul? (← size element) length)
    | none => .error (.unsized (m.idOf type))
  | .typeStruct members =>
    members.foldlM (fun sum member => do sized (Word.add? sum (← size member))) 0
  | .typePointer _ _ => .ok 4
  | _ => .error (.unsized (m.idOf type))

theorem byteSizeWithin_succ (m : Module) (depth : Nat) (t : Handle) :
    m.byteSizeWithin (depth + 1) t = m.byteSizeFrom (m.byteSizeWithin depth) t := rfl

theorem foldlM_congr_of_mem {α β ε : Type} {f g : β → α → Except ε β} {xs : List α} (b : β)
    (hfg : ∀ x ∈ xs, ∀ b, f b x = g b x) : xs.foldlM f b = xs.foldlM g b := by
  induction xs generalizing b with
  | nil => rfl
  | cons x xs ih =>
      rw [List.forall_mem_cons] at hfg
      rw [List.foldlM_cons, List.foldlM_cons, hfg.1 b]
      exact bind_congr fun b' => ih b' hfg.2

/-- Nothing but the type, what it refers to and the sizes of its parts is looked at. -/
theorem byteSizeFrom_congr {size size' : Handle → Except ModuleError Word}
    (hinst : m'.inst t = m.inst t)
    (hreferences : ∀ r ∈ (m.inst t).references, m'.inst r = m.inst r)
    (hparts : ∀ u, m.Embeds t u → size' u = size u) :
    m'.byteSizeFrom size' t = m.byteSizeFrom size t := by
  have hid : m'.idOf t = m.idOf t := by rw [idOf, hinst, idOf]
  have hkind : m'.kindOf t = m.kindOf t := by rw [kindOf, hinst, kindOf]
  simp only [byteSizeFrom, hkind, hid]
  cases hk : m.kindOf t
  case typeVector component count =>
    simp only [hparts component (by simp [Embeds, hk, Kind.parts])]
  case typeArray element length =>
    have hlength : m'.constantValue? length = m.constantValue? length := by
      have heq := hreferences length (Inst.mem_references.2 (.inr (by
        change length ∈ (m.kindOf t).references
        simp [hk, Kind.references, Kind.operands])))
      rw [constantValue?, kindOf, heq, constantValue?, kindOf]
    simp only [hlength, hparts element (by simp [Embeds, hk, Kind.parts])]
  case typeStruct members =>
    refine foldlM_congr_of_mem 0 fun member hmem sum => ?_
    rw [hparts member (by simpa [Embeds, hk, Kind.parts] using hmem)]
  all_goals rfl

/-! ## Nesting -/

def nested (m : Module) (t : Handle) : Set Handle := {u | TransGen m.Embeds t u}

theorem Contained.owns_of_embeds (hm : m.Contained) (htu : m.Embeds t u) : m.Owns u :=
  hm.references t u (Inst.mem_references.2 (.inr (Kind.mem_references_of_mem_parts htu)))

def owned (m : Module) : Finset Handle :=
  (Finset.range m.insts.size).map ⟨Handle.mk, fun _ _ h => Handle.mk.inj h⟩

theorem mem_owned : u ∈ m.owned ↔ m.Owns u := by
  simp only [owned, Finset.mem_map, Finset.mem_range, Owns]
  constructor
  · rintro ⟨i, hi, rfl⟩
    exact hi
  · intro hu
    exact ⟨u.index, hu, rfl⟩

theorem Contained.nested_subset (hm : m.Contained) (t : Handle) : m.nested t ⊆ m.owned := by
  intro u hu
  rw [Finset.mem_coe, mem_owned]
  obtain ⟨v, -, hvu⟩ := TransGen.tail'_iff.1 hu
  exact hm.owns_of_embeds hvu

theorem Contained.finite_nested (hm : m.Contained) (t : Handle) : (m.nested t).Finite :=
  m.owned.finite_toSet.subset (hm.nested_subset t)

theorem Contained.ncard_nested_le (hm : m.Contained) (t : Handle) :
    (m.nested t).ncard ≤ m.insts.size := by
  have hle := Set.ncard_le_ncard (hm.nested_subset t) m.owned.finite_toSet
  rwa [Set.ncard_coe_finset, owned, Finset.card_map, Finset.card_range] at hle

/-- What is inside a part is inside the whole, apart from the part itself. -/
theorem Contained.ncard_nested_lt (hm : m.Contained) (hu : u ∉ m.nested u) (htu : m.Embeds t u) :
    (m.nested u).ncard < (m.nested t).ncard :=
  Set.ncard_lt_ncard ⟨fun _ hv => TransGen.head htu hv,
    fun hsub => hu (hsub (TransGen.single htu))⟩ (hm.finite_nested t)

theorem Contained.acc_embeds (hm : m.Contained) (hacyclic : m.AcyclicFrom t) :
    Acc (fun u t => m.Embeds t u) t := by
  induction hn : (m.nested t).ncard using Nat.strong_induction_on generalizing t with
  | _ n ih =>
      refine .intro t fun u htu => ?_
      have hlt := hm.ncard_nested_lt ((hacyclic.of_embeds htu) u mem_span_self) htu
      exact ih _ (hn ▸ hlt) (hacyclic.of_embeds htu) rfl

theorem Contained.wellFounded_embeds (hm : m.Contained) (hacyclic : m.Acyclic) :
    WellFounded fun u t => m.Embeds t u :=
  ⟨fun t => hm.acc_embeds (hacyclic.acyclicFrom t)⟩

/-- Types that are declared behind their parts do not contain themselves. -/
theorem acyclic_of_parts_lt
    (hparts : ∀ t ∈ m.insts.handles, ∀ u ∈ (m.kindOf t).parts, u.index < t.index) :
    m.Acyclic := by
  have hlt {t u : Handle} (htu : m.Embeds t u) : u.index < t.index := by
    by_cases ht : m.Owns t
    · exact hparts t (mem_handles.2 ht) u htu
    · rw [Embeds, kindOf, inst_of_not_owns ht] at htu
      cases htu
  have hbelow {t u : Handle} (htu : TransGen m.Embeds t u) : u.index < t.index := by
    induction htu with
    | single h => exact hlt h
    | tail _ h ih => exact (hlt h).trans ih
  exact fun t ht => Nat.lt_irrefl _ (hbelow ht)

/-! ## Depth -/

/-- Looking deeper, or at a module that has more instructions, gives the same size. -/
theorem Contained.byteSizeWithin_eq (hm : m.Contained) (hacyclic : m.AcyclicFrom t)
    (hinst : ∀ h, m.Owns h → m'.inst h = m.inst h) {depth depth' : Nat} (ht : m.Owns t)
    (hdepth : (m.nested t).ncard < depth) (hdepth' : (m.nested t).ncard < depth') :
    m'.byteSizeWithin depth' t = m.byteSizeWithin depth t := by
  induction depth generalizing t depth' with
  | zero => omega
  | succ depth ih =>
      obtain ⟨depth', rfl⟩ : ∃ d, depth' = d + 1 := ⟨depth' - 1, by omega⟩
      rw [byteSizeWithin_succ, byteSizeWithin_succ]
      refine byteSizeFrom_congr (hinst t ht) (fun r hr => hinst r (hm.references t r hr))
        fun u htu => ?_
      have hacyclic' := hacyclic.of_embeds htu
      have hlt := hm.ncard_nested_lt (hacyclic' u mem_span_self) htu
      exact ih hacyclic' (hm.owns_of_embeds htu) (by omega) (by omega)

theorem Contained.byteSize_eq (hm : m.Contained) (hacyclic : m.Acyclic)
    (hinst : ∀ h, m.Owns h → m'.inst h = m.inst h) (hsize : m.insts.size ≤ m'.insts.size)
    (ht : m.Owns t) : m'.byteSize t = m.byteSize t := by
  have hle := hm.ncard_nested_le t
  exact hm.byteSizeWithin_eq (hacyclic.acyclicFrom t) hinst ht (by omega) (by omega)

/-- The size of a type follows from those of its parts, however deep it is nested. -/
theorem Contained.byteSize_eq_from (hm : m.Contained) (hacyclic : m.AcyclicFrom t) :
    m.byteSize t = m.byteSizeFrom m.byteSize t := by
  have hle := hm.ncard_nested_le t
  rw [byteSize, byteSizeWithin_succ]
  refine byteSizeFrom_congr rfl (fun _ _ => rfl) fun u htu => ?_
  have hacyclic' := hacyclic.of_embeds htu
  have hlt := hm.ncard_nested_lt (hacyclic' u mem_span_self) htu
  exact hm.byteSizeWithin_eq hacyclic' (fun _ _ => rfl) (hm.owns_of_embeds htu) (by omega)
    (by omega)

end Module

end KernelGrid
