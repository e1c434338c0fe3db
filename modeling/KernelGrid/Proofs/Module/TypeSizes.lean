import KernelGrid.Proofs.Inst.Traversal
import KernelGrid.Proofs.Module.ByteSizes

/-!
# Sizes of types

A size that has been found depends only on how types are made up.  It is found again, however
deep one looks, in every module that makes up the same types.
-/

namespace KernelGrid

inductive Makeup (ρ : Type) where
  | fixed (size : Word)
  | repeated (part : ρ) (count : Word)
  | array (part length : ρ)
  | joined (parts : List ρ)
  | unsized

namespace Makeup

variable {ρ σ τ : Type} {value size : ρ → Word → Prop} {value' size' : σ → Word → Prop}
  {g : ρ → τ} {g' : σ → τ} {x : Makeup ρ} {y : Makeup σ} {s : Word}

def map (f : ρ → σ) : Makeup ρ → Makeup σ
  | fixed size => fixed size
  | repeated part count => repeated (f part) count
  | array part length => array (f part) (f length)
  | joined parts => joined (parts.map f)
  | unsized => unsized

def references : Makeup ρ → List ρ
  | fixed _ | unsized => []
  | repeated part _ => [part]
  | array part length => [part, length]
  | joined parts => parts

def Gives (value size : ρ → Word → Prop) : Makeup ρ → Word → Prop
  | fixed n, s => s = n
  | repeated part count, s => ∃ a, size part a ∧ Word.mul? a count = some s
  | array part length, s => ∃ n a, value length n ∧ size part a ∧ Word.mul? a n = some s
  | joined parts, s => ∃ sizes, List.Forall₂ size parts sizes ∧ sizes.foldlM Word.add? 0 = some s
  | unsized, _ => False

theorem forall₂_of_map_eq {xs : List ρ} {ys : List σ} {sizes : List Word}
    (hmap : xs.map g = ys.map g')
    (hsize : ∀ a ∈ xs, ∀ b ∈ ys, g a = g' b → ∀ s, size a s → size' b s)
    (hxs : List.Forall₂ size xs sizes) : List.Forall₂ size' ys sizes := by
  induction hxs generalizing ys with
  | nil =>
      obtain rfl : ys = [] := List.map_eq_nil_iff.1 hmap.symm
      exact .nil
  | @cons a s xs sizes ha _ ih =>
      obtain ⟨b, ys, rfl, hb, hys⟩ := List.map_eq_cons_iff.1 hmap.symm
      refine .cons (hsize a List.mem_cons_self b List.mem_cons_self hb.symm s ha)
        (ih hys.symm ?_)
      exact fun c hc d hd => hsize c (List.mem_cons_of_mem _ hc) d (List.mem_cons_of_mem _ hd)

theorem Gives.of_map_eq (hx : x.Gives value size s) (hmap : x.map g = y.map g')
    (hvalue : ∀ a ∈ x.references, ∀ b ∈ y.references, g a = g' b → ∀ s, value a s → value' b s)
    (hsize : ∀ a ∈ x.references, ∀ b ∈ y.references, g a = g' b → ∀ s, size a s → size' b s) :
    y.Gives value' size' s := by
  cases x <;> cases y <;>
    simp only [map, fixed.injEq, repeated.injEq, array.injEq, joined.injEq, reduceCtorEq] at hmap
  case fixed.fixed n n' =>
    obtain rfl := hmap
    exact hx
  case repeated.repeated part count part' count' =>
    obtain ⟨hpart, rfl⟩ := hmap
    obtain ⟨a, ha, hs⟩ := hx
    exact ⟨a, hsize part (by simp [references]) part' (by simp [references]) hpart a ha, hs⟩
  case array.array part length part' length' =>
    obtain ⟨hpart, hlength⟩ := hmap
    obtain ⟨n, a, hn, ha, hs⟩ := hx
    exact ⟨n, a,
      hvalue length (by simp [references]) length' (by simp [references]) hlength n hn,
      hsize part (by simp [references]) part' (by simp [references]) hpart a ha, hs⟩
  case joined.joined parts parts' =>
    obtain ⟨sizes, hparts, hs⟩ := hx
    exact ⟨sizes, forall₂_of_map_eq hmap hsize hparts, hs⟩
  case unsized.unsized => exact hx

end Makeup

namespace Kind

variable {ρ σ : Type}

def makeup : Kind ρ → Makeup ρ
  | typeBool => .fixed 4
  | typeInt width _ => .fixed (width / 8)
  | typeFloat width => .fixed (width / 8)
  | typeVector component count => .repeated component count
  | typeArray element length => .array element length
  | typeStruct members => .joined members
  | typePointer _ _ => .fixed 4
  | _ => .unsized

theorem makeup_map (f : ρ → σ) (k : Kind ρ) : (k.map f).makeup = k.makeup.map f := by
  cases k
  case var storage initializer => cases initializer <;> rfl
  all_goals simp [map, mapM, makeup, Makeup.map]

theorem makeup_withStorage (storage : StorageClass) (k : Kind ρ) :
    (k.withStorage storage).makeup = k.makeup := by
  cases k <;> rfl

theorem isType_of_makeup {k : Kind ρ} (hk : k.makeup ≠ .unsized) : k.isType := by
  cases k
  case typeBool | typeInt | typeFloat | typeVector | typeArray | typeStruct | typePointer => rfl
  all_goals exact absurd rfl hk

theorem mem_references_of_makeup {k : Kind ρ} {r : ρ} (hr : r ∈ k.makeup.references) :
    r ∈ k.references := by
  cases k
  all_goals simp_all [makeup, Makeup.references, references, operands, List.filterMap_cons]

end Kind

namespace Module

open Relation

variable {m m' : Module} {t t' u : Handle} {s s' : Word} {depth depth' : Nat}
  {size : Handle → Except ModuleError Word}

theorem foldlM_sizes_eq_ok {ms : List Handle} {start : Word} {e : ModuleError} :
    ms.foldlM (fun sum member => do
        match Word.add? sum (← size member) with
        | some sum => .ok sum
        | none => .error e) start = Except.ok s ↔
      ∃ sizes, List.Forall₂ (fun u s => size u = .ok s) ms sizes ∧
        sizes.foldlM Word.add? start = some s := by
  induction ms generalizing start with
  | nil => simp [pure, Except.pure]
  | cons u ms ih =>
      rw [List.foldlM_cons, except_bind]
      simp only [ih, except_bind, List.forall₂_cons_left_iff]
      constructor
      · rintro ⟨sum, ⟨a, ha, hsum⟩, sizes, hsizes, hs⟩
        refine ⟨a :: sizes, ⟨a, sizes, ha, hsizes, rfl⟩, ?_⟩
        rw [List.foldlM_cons]
        cases hadd : Word.add? start a with
        | none => simp [hadd] at hsum
        | some b =>
            rw [hadd] at hsum
            obtain rfl := Except.ok.inj hsum
            exact hs
      · rintro ⟨_, ⟨a, sizes, ha, hsizes, rfl⟩, hs⟩
        rw [List.foldlM_cons] at hs
        obtain ⟨b, hb, hs⟩ := Option.bind_eq_some_iff.1 hs
        exact ⟨b, ⟨a, ha, by rw [hb]⟩, sizes, hsizes, hs⟩

/-- When a size is found. -/
theorem byteSizeFrom_eq_ok : m.byteSizeFrom size t = .ok s ↔
    (m.kindOf t).makeup.Gives (fun u n => m.constantValue? u = some n)
      (fun u s => size u = .ok s) s := by
  unfold byteSizeFrom
  have hsized {x : Option Word} {e : ModuleError} :
      (match x with | some size => .ok size | none => .error e : Except ModuleError Word) =
        .ok s ↔ x = some s := by
    cases x <;> simp
  cases m.kindOf t
  case typeBool | typeInt | typeFloat | typePointer => simp [Kind.makeup, Makeup.Gives, eq_comm]
  case typeVector component count =>
    simp only [Kind.makeup, Makeup.Gives, except_bind]
    exact exists_congr fun a => and_congr_right fun _ => hsized
  case typeArray element length =>
    simp only [Kind.makeup, Makeup.Gives]
    cases m.constantValue? length with
    | none => simp
    | some n =>
        simp only [except_bind, Option.some.injEq, exists_and_left, exists_eq_left']
        exact exists_congr fun a => and_congr_right fun _ => hsized
  case typeStruct members =>
    simp only [Kind.makeup, Makeup.Gives]
    exact foldlM_sizes_eq_ok
  all_goals simp [Kind.makeup, Makeup.Gives]

/-- Whether the size of a type is found by looking deep enough. -/
def HasSize (m : Module) (t : Handle) (s : Word) : Prop :=
  ∃ depth, m.byteSizeWithin depth t = .ok s

theorem HasSize.of_byteSize (hs : m.byteSize t = .ok s) : m.HasSize t s := ⟨_, hs⟩

theorem makeup_of_byteSizeWithin (hs : m.byteSizeWithin depth t = .ok s) :
    (m.kindOf t).makeup ≠ .unsized := by
  cases depth with
  | zero => cases hs
  | succ depth =>
      intro hmakeup
      rw [byteSizeWithin_succ, byteSizeFrom_eq_ok, hmakeup] at hs
      exact hs

theorem HasSize.isType (hs : m.HasSize t s) : (m.kindOf t).isType :=
  Kind.isType_of_makeup (makeup_of_byteSizeWithin hs.choose_spec)

/-! ## Other modules -/

section

variable {ρ : Type} {f g : Handle → ρ} {R : Handle → Handle → Prop}

/-- A size is found in another module, as deep or deeper, if types are made up alike there. -/
theorem byteSizeWithin_of_alike (hR : ∀ t t', R t t' → (m.kindOf t).makeup ≠ .unsized →
      (m.kindOf t).makeup.map f = (m'.kindOf t').makeup.map g ∧
        ∀ u ∈ (m.kindOf t).references, ∀ u' ∈ (m'.kindOf t').references, f u = g u' → R u u')
    (hvalue : ∀ u u', R u u' → ∀ n, m.constantValue? u = some n → m'.constantValue? u' = some n)
    (ht : R t t') (hs : m.byteSizeWithin depth t = .ok s) (hle : depth ≤ depth') :
    m'.byteSizeWithin depth' t' = .ok s := by
  induction depth generalizing t t' s depth' with
  | zero => cases hs
  | succ depth ih =>
      obtain ⟨depth', rfl⟩ : ∃ d, depth' = d + 1 := ⟨depth' - 1, by omega⟩
      obtain ⟨hmap, hparts⟩ := hR t t' ht (makeup_of_byteSizeWithin hs)
      rw [byteSizeWithin_succ, byteSizeFrom_eq_ok] at hs ⊢
      have hpart {u u' : Handle} (hu : u ∈ (m.kindOf t).makeup.references)
          (hu' : u' ∈ (m'.kindOf t').makeup.references) (heq : f u = g u') : R u u' :=
        hparts u (Kind.mem_references_of_makeup hu) u' (Kind.mem_references_of_makeup hu') heq
      exact hs.of_map_eq hmap (fun u hu u' hu' heq => hvalue u u' (hpart hu hu' heq))
        fun u hu u' hu' heq s hs => ih (hpart hu hu' heq) hs (by omega)

theorem HasSize.of_alike (hR : ∀ t t', R t t' → (m.kindOf t).makeup ≠ .unsized →
      (m.kindOf t).makeup.map f = (m'.kindOf t').makeup.map g ∧
        ∀ u ∈ (m.kindOf t).references, ∀ u' ∈ (m'.kindOf t').references, f u = g u' → R u u')
    (hvalue : ∀ u u', R u u' → ∀ n, m.constantValue? u = some n → m'.constantValue? u' = some n)
    (ht : R t t') (hs : m.HasSize t s) : m'.HasSize t' s := by
  obtain ⟨depth, hs⟩ := hs
  exact ⟨depth, byteSizeWithin_of_alike hR hvalue ht hs le_rfl⟩

end

/-- Looking deeper finds the same size. -/
theorem byteSizeWithin_mono (hs : m.byteSizeWithin depth t = .ok s) (hle : depth ≤ depth') :
    m.byteSizeWithin depth' t = .ok s :=
  byteSizeWithin_of_alike (R := Eq) (f := id) (g := id)
    (fun _ _ ht _ => ht ▸ ⟨rfl, fun _ _ _ _ => id⟩) (fun _ _ hu _ => hu ▸ id) rfl hs hle

theorem HasSize.unique (hs : m.HasSize t s) (hs' : m.HasSize t s') : s = s' := by
  obtain ⟨depth, hs⟩ := hs
  obtain ⟨depth', hs'⟩ := hs'
  have h := byteSizeWithin_mono hs (Nat.le_max_left depth depth')
  rw [byteSizeWithin_mono hs' (Nat.le_max_right depth depth')] at h
  exact (Except.ok.inj h).symm

theorem constantValue?_of_kindOf_eq
    (hkind : m.constantValue? u ≠ none → m'.kindOf u = m.kindOf u) {n : Word}
    (hn : m.constantValue? u = some n) : m'.constantValue? u = some n := by
  rw [constantValue?, hkind (by simp [hn])]
  exact hn

theorem HasSize.mono (hs : m.HasSize t s)
    (hinsts : ∀ h i, m.insts.get? h = some i → m'.insts.get? h = some i) : m'.HasSize t s := by
  have hkind {h : Handle} (hh : m.kindOf h ≠ .placeholder) : m'.kindOf h = m.kindOf h := by
    cases hget : m.insts.get? h with
    | none => exact absurd (by rw [kindOf, inst, hget]; rfl) hh
    | some i => rw [kindOf, kindOf, inst, inst, hinsts h i hget, hget]
  refine hs.of_alike (R := Eq) (f := id) (g := id) (fun t _ ht hmakeup => ?_)
    (fun u _ hu n hn => ?_) rfl
  · subst ht
    have heq := hkind fun hplaceholder => hmakeup (by rw [hplaceholder]; rfl)
    exact ⟨by rw [heq], fun _ _ _ _ => id⟩
  · subst hu
    exact constantValue?_of_kindOf_eq (fun hne => hkind fun hplaceholder => hne (by
      rw [constantValue?, hplaceholder])) hn

theorem HasSize.before (hs : m'.HasSize t s) (hm : m.Contained) (ht : m.Owns t)
    (hinsts : ∀ h, m.Owns h → m'.inst h = m.inst h) : m.HasSize t s := by
  have hkind {h : Handle} (hh : m.Owns h) : m'.kindOf h = m.kindOf h :=
    congrArg Inst.kind (hinsts h hh)
  refine hs.of_alike (R := fun t t' => t = t' ∧ m.Owns t) (f := id) (g := id) ?_ ?_ ⟨rfl, ht⟩
  · rintro t _ ⟨rfl, ht⟩ -
    refine ⟨by rw [hkind ht], fun u hu _ _ heq => ⟨heq, ?_⟩⟩
    rw [hkind ht] at hu
    exact hm.references t u (Inst.mem_references.2 (.inr hu))
  · rintro u _ ⟨rfl, hu⟩ n hn
    exact constantValue?_of_kindOf_eq (fun _ => (hkind hu).symm) hn

/-! ## Depth -/

theorem exists_size_of_embeds (hs : m.byteSizeWithin (depth + 1) t = .ok s)
    (htu : m.Embeds t u) : ∃ s', m.byteSizeWithin depth u = .ok s' := by
  rw [byteSizeWithin_succ, byteSizeFrom_eq_ok] at hs
  have htu : u ∈ (m.kindOf t).parts := htu
  cases hkind : m.kindOf t
  all_goals
    rw [hkind] at hs htu
    simp only [Kind.makeup, Makeup.Gives, Kind.parts, List.mem_singleton,
      List.not_mem_nil] at hs htu
  case typeVector component count =>
    subst htu
    obtain ⟨a, ha, -⟩ := hs
    exact ⟨a, ha⟩
  case typeArray element length =>
    subst htu
    obtain ⟨n, a, -, ha, -⟩ := hs
    exact ⟨a, ha⟩
  case typeStruct members =>
    obtain ⟨sizes, hsizes, -⟩ := hs
    exact (List.forall₂_iff_get.1 hsizes).elim fun hlength hget => by
      obtain ⟨i, rfl⟩ := List.mem_iff_get.1 htu
      exact ⟨_, hget i.1 i.2 (hlength ▸ i.2)⟩

/-- A type that has a size does not contain itself. -/
theorem not_nested_of_byteSizeWithin (hs : m.byteSizeWithin depth t = .ok s) :
    t ∉ m.nested t := by
  induction depth generalizing t s with
  | zero => cases hs
  | succ depth ih =>
      intro ht
      obtain ⟨u, htu, hut⟩ := TransGen.head'_iff.1 ht
      obtain ⟨s', hs'⟩ := exists_size_of_embeds hs htu
      exact ih hs' (TransGen.tail' hut htu)

/-- It is enough to look as deep as the parts of a type are nested. -/
theorem byteSizeWithin_of_ncard_lt (hm : m.Contained) (hs : m.byteSizeWithin depth t = .ok s)
    (hdepth : (m.nested t).ncard < depth') : m.byteSizeWithin depth' t = .ok s := by
  induction depth generalizing t s depth' with
  | zero => cases hs
  | succ depth ih =>
      obtain ⟨depth', rfl⟩ : ∃ d, depth' = d + 1 := ⟨depth' - 1, by omega⟩
      rw [← hs, byteSizeWithin_succ, byteSizeWithin_succ]
      refine byteSizeFrom_congr rfl (fun _ _ => rfl) fun u htu => ?_
      obtain ⟨s', hs'⟩ := exists_size_of_embeds hs htu
      have hlt := hm.ncard_nested_lt (not_nested_of_byteSizeWithin hs') htu
      rw [ih hs' (by omega), hs']

theorem hasSize_iff (hm : m.Contained) : m.HasSize t s ↔ m.byteSize t = .ok s := by
  refine ⟨fun hs => ?_, HasSize.of_byteSize⟩
  obtain ⟨depth, hs⟩ := hs
  exact byteSizeWithin_of_ncard_lt hm hs (Nat.lt_succ_of_le (hm.ncard_nested_le t))

end Module

end KernelGrid
