import KernelGrid.Proofs.Inst.Traversal
import Mathlib.Data.List.Nodup

/-!
# Work group sizes

A work group size is stated for a function.  It belongs to the first entry point of the
function, and of several sizes the last counts.
-/

namespace KernelGrid.EntryPoint

variable {ρ : Type}

def withSize (size? : Option Extent) (e : EntryPoint ρ) : EntryPoint ρ :=
  { e with localSize := size? }

@[simp] theorem function_withSize (size? : Option Extent) (e : EntryPoint ρ) :
    (e.withSize size?).function = e.function := rfl

theorem map_withSize {σ : Type} (g : σ → ρ) (size? : Option Extent) (e : EntryPoint σ) :
    (e.withSize size?).map g = (e.map g).withSize size? := rfl

theorem map_modify_withSize {σ : Type} (g : σ → ρ) (size? : Option Extent)
    (es : List (EntryPoint σ)) (i : Nat) :
    (es.modify i (withSize size?)).map (map g) = (es.map (map g)).modify i (withSize size?) := by
  apply List.ext_getElem?
  intro j
  rw [List.getElem?_map, List.getElem?_modify, List.getElem?_modify, List.getElem?_map]
  cases es[j]? with
  | none => rfl
  | some e =>
      by_cases hij : i = j
      · simp [hij, map_withSize]
      · simp [hij]

theorem map_references_modify (size? : Option Extent) (es : List (EntryPoint ρ)) (i : Nat) :
    (es.modify i (withSize size?)).map references = es.map references := by
  apply List.ext_getElem?
  intro j
  rw [List.getElem?_map, List.getElem?_modify, List.getElem?_map]
  cases es[j]? with
  | none => rfl
  | some e =>
      by_cases hij : i = j
      · simp [hij, withSize, references]
      · simp [hij]

variable [DecidableEq ρ] {size? : ρ → Option Extent}

/-- The first entry point of each function has the size that was stated for it. -/
def sized (size? : ρ → Option Extent) : List ρ → List (EntryPoint ρ) → List (EntryPoint ρ)
  | _, [] => []
  | seen, e :: es =>
    e.withSize (if e.function ∈ seen then none else size? e.function)
      :: sized size? (e.function :: seen) es

theorem map_function_sized (size? : ρ → Option Extent) (seen : List ρ)
    (es : List (EntryPoint ρ)) :
    (sized size? seen es).map (·.function) = es.map (·.function) := by
  induction es generalizing seen with
  | nil => rfl
  | cons e es ih => rw [sized, List.map_cons, List.map_cons, ih, function_withSize]

theorem sized_concat (seen : List ρ) (es : List (EntryPoint ρ)) (e : EntryPoint ρ) :
    sized size? seen (es ++ [e]) = sized size? seen es ++
      [e.withSize (if e.function ∈ seen ∨ e.function ∈ es.map (·.function) then none
        else size? e.function)] := by
  induction es generalizing seen with
  | nil => simp [sized]
  | cons d es ih =>
      rw [List.cons_append, sized, ih, sized, List.cons_append]
      simp [or_assoc, or_left_comm]

theorem sized_congr {size?' : ρ → Option Extent} {seen : List ρ} {es : List (EntryPoint ρ)}
    (h : ∀ f ∈ es.map (·.function), f ∉ seen → size? f = size?' f) :
    sized size? seen es = sized size?' seen es := by
  induction es generalizing seen with
  | nil => rfl
  | cons e es ih =>
      rw [List.map_cons, List.forall_mem_cons] at h
      rw [sized, sized, ih fun f hf hseen => h.2 f hf fun hmem => hseen (.tail _ hmem)]
      by_cases hseen : e.function ∈ seen
      · rw [if_pos hseen, if_pos hseen]
      · rw [if_neg hseen, if_neg hseen, h.1 hseen]

theorem modify_sized {seen : List ρ} {es : List (EntryPoint ρ)} {f : ρ} {i : Nat}
    (hseen : f ∉ seen) (hi : (sized size? seen es).findIdx? (·.function = f) = some i)
    (size : Extent) :
    (sized size? seen es).modify i (withSize (some size)) =
      sized (fun g => if g = f then some size else size? g) seen es := by
  induction es generalizing seen i with
  | nil => cases hi
  | cons e es ih =>
      rw [sized, List.findIdx?_cons] at hi
      rw [sized, sized]
      by_cases hf : e.function = f
      · subst hf
        have hrest : ∀ g ∈ es.map (·.function), g ∉ e.function :: seen →
            size? g = if g = e.function then some size else size? g := by
          intro g _ hg
          rw [if_neg]
          rintro rfl
          exact hg List.mem_cons_self
        obtain rfl : i = 0 := by simpa using hi.symm
        rw [List.modify_zero_cons, if_neg hseen, if_neg hseen, if_pos rfl, sized_congr hrest]
        rfl
      · simp only [function_withSize, hf, decide_false, Bool.false_eq_true, if_false,
          Option.map_eq_some_iff] at hi
        obtain ⟨j, hj, rfl⟩ := hi
        rw [List.modify_succ_cons, ih (by simp [Ne.symm hf, hseen]) hj, if_neg hf]

/-! ## Replacing references -/

/-- A function is found by what stands for it, if that stands for no other. -/
theorem findIdx?_map_function {σ : Type} [DecidableEq σ] {g : σ → ρ} {es : List (EntryPoint σ)}
    {f : σ} (hinj : ∀ e ∈ es, g e.function = g f → e.function = f) :
    (es.map (map g)).findIdx? (·.function = g f) = es.findIdx? (·.function = f) := by
  induction es with
  | nil => rfl
  | cons e es ih =>
      rw [List.forall_mem_cons] at hinj
      have hiff : (e.map g).function = g f ↔ e.function = f :=
        ⟨hinj.1, fun heq => congrArg g heq⟩
      rw [List.map_cons, List.findIdx?_cons, List.findIdx?_cons, ih hinj.2]
      simp only [hiff]

/-! ## All sizes -/

theorem filterMap_sized {β : Type} (size? : ρ → Option Extent) (seen : List ρ)
    (es : List (EntryPoint ρ)) (g : ρ → Extent → β) :
    (sized size? seen es).filterMap (fun e => e.localSize.map (g e.function)) =
      ((es.map (·.function)).filter (· ∉ seen)).eraseDups.filterMap
        fun f => (size? f).map (g f) := by
  induction es generalizing seen with
  | nil => rfl
  | cons e es ih =>
      rw [sized, List.filterMap_cons, ih, List.map_cons, List.filter_cons]
      by_cases hseen : e.function ∈ seen
      · have hfilter : (es.map (·.function)).filter (· ∉ e.function :: seen) =
            (es.map (·.function)).filter (· ∉ seen) := by
          apply List.filter_congr
          intro f _
          rw [decide_eq_decide, List.mem_cons, not_or]
          exact ⟨And.right, fun hf => ⟨fun heq => hf (heq ▸ hseen), hf⟩⟩
        rw [if_pos hseen, if_neg (by simpa using hseen), hfilter]
        rfl
      · have hfilter : ((es.map (·.function)).filter (· ∉ seen)).filter (!· == e.function) =
            (es.map (·.function)).filter (· ∉ e.function :: seen) := by
          rw [List.filter_filter]
          apply List.filter_congr
          intro f _
          by_cases hf : f = e.function
          · simp [hf]
          · simp [hf]
        rw [if_neg hseen, if_pos (by simpa using hseen), List.eraseDups_cons, hfilter,
          List.filterMap_cons]
        rfl

theorem filterMap_sized_of_seen {f : ρ} {seen : List ρ} (hseen : f ∈ seen)
    (es : List (EntryPoint ρ)) :
    ((sized size? seen es).filterMap fun e => if e.function = f then e.localSize else none) =
      [] := by
  induction es generalizing seen with
  | nil => rfl
  | cons e es ih =>
      have hrest := ih (List.mem_cons_of_mem e.function hseen)
      rw [sized, List.filterMap_cons_none, hrest]
      rw [function_withSize]
      split
      · rename_i hf
        rw [hf, if_pos hseen]
        rfl
      · rfl

theorem filterMap_sized_of_mem {f : ρ} {seen : List ρ} (es : List (EntryPoint ρ))
    (hseen : f ∉ seen) (hf : f ∈ es.map (·.function)) :
    ((sized size? seen es).filterMap fun e => if e.function = f then e.localSize else none) =
      (size? f).toList := by
  induction es generalizing seen with
  | nil => cases hf
  | cons e es ih =>
      rw [sized, List.filterMap_cons, function_withSize]
      by_cases heq : e.function = f
      · have hlater : ((sized size? (e.function :: seen) es).filterMap fun e =>
            if e.function = f then e.localSize else none) = [] :=
          filterMap_sized_of_seen (List.mem_cons.2 (.inl heq.symm)) es
        rw [if_pos heq, heq, if_neg hseen]
        rw [heq] at hlater
        cases hsize : size? f with
        | none => simpa [withSize] using hlater
        | some size => simpa [withSize] using hlater
      · have hmem : f ∈ es.map (·.function) := by
          rw [List.map_cons, List.mem_cons] at hf
          exact hf.resolve_left (Ne.symm heq)
        rw [if_neg heq]
        exact ih (by simp [hseen, Ne.symm heq]) hmem

/-! ## Sizes at first entry points -/

omit [DecidableEq ρ] in
def SizedOnce (es : List (EntryPoint ρ)) : Prop :=
  es.Pairwise fun e d => e.function = d.function → d.localSize = none

theorem localSize_sized_of_seen {seen : List ρ} {es : List (EntryPoint ρ)} :
    ∀ e ∈ sized size? seen es, e.function ∈ seen → e.localSize = none := by
  induction es generalizing seen with
  | nil => simp [sized]
  | cons d es ih =>
      rw [sized, List.forall_mem_cons]
      constructor
      · intro hseen
        rw [function_withSize] at hseen
        rw [if_pos hseen]
        rfl
      · intro e he hseen
        exact ih e he (List.mem_cons_of_mem _ hseen)

theorem sizedOnce_sized (size? : ρ → Option Extent) (seen : List ρ) (es : List (EntryPoint ρ)) :
    SizedOnce (sized size? seen es) := by
  induction es generalizing seen with
  | nil => exact .nil
  | cons e es ih =>
      refine .cons ?_ (ih _)
      intro d hd heq
      exact localSize_sized_of_seen d hd (List.mem_cons.2 (.inl heq.symm))

theorem sized_eq_self_of_seen {seen : List ρ} {es : List (EntryPoint ρ)} (hes : SizedOnce es)
    (hseen : ∀ e ∈ es, e.function ∈ seen → e.localSize = none)
    (hsize : ∀ f, f ∉ seen → size? f = (es.find? (·.function = f)).bind (·.localSize)) :
    sized size? seen es = es := by
  induction es generalizing seen with
  | nil => rfl
  | cons e es ih =>
      rw [SizedOnce, List.pairwise_cons] at hes
      rw [List.forall_mem_cons] at hseen
      rw [sized, ih hes.2]
      · congr 1
        by_cases hmem : e.function ∈ seen
        · rw [if_pos hmem, ← hseen.1 hmem]
          rfl
        · rw [if_neg hmem, hsize _ hmem, List.find?_cons_of_pos (by simp)]
          rfl
      · intro d hd hmem
        obtain heq | hmem := List.mem_cons.1 hmem
        · exact hes.1 d hd heq.symm
        · exact hseen.2 d hd hmem
      · intro f hf
        rw [List.mem_cons, not_or] at hf
        rw [hsize f hf.2, List.find?_cons_of_neg (by simpa using Ne.symm hf.1)]

/-- Sizes at first entry points can be stated apart from them. -/
theorem exists_sized_eq {es : List (EntryPoint ρ)} (hes : SizedOnce es) :
    ∃ size?, sized size? [] es = es :=
  ⟨fun f => (es.find? (·.function = f)).bind (·.localSize),
    sized_eq_self_of_seen hes (by simp) fun _ _ => rfl⟩

theorem localSize_of_mem_sized {seen : List ρ} {es : List (EntryPoint ρ)} {e : EntryPoint ρ}
    (he : e ∈ sized size? seen es) {size : Extent} (hsize : e.localSize = some size) :
    size? e.function = some size := by
  induction es generalizing seen with
  | nil => cases he
  | cons d es ih =>
      rw [sized, List.mem_cons] at he
      obtain rfl | he := he
      · by_cases hseen : d.function ∈ seen
        · simp [withSize, hseen] at hsize
        · simpa [withSize, hseen] using hsize
      · exact ih he

theorem map_withSize_sized (seen : List ρ) (es : List (EntryPoint ρ)) :
    (sized size? seen es).map (withSize none) = es.map (withSize none) := by
  induction es generalizing seen with
  | nil => rfl
  | cons e es ih => rw [sized, List.map_cons, List.map_cons, ih]; rfl

theorem sized_map_withSize (seen : List ρ) (es : List (EntryPoint ρ)) :
    sized size? seen (es.map (withSize none)) = sized size? seen es := by
  induction es generalizing seen with
  | nil => rfl
  | cons e es ih => rw [List.map_cons, sized, sized, function_withSize, ih]; rfl

end KernelGrid.EntryPoint
