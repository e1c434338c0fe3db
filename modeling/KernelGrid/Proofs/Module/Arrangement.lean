import KernelGrid.Proofs.Module.Outline
import Mathlib.Data.List.Induction
import Mathlib.Data.List.Nodup
import Mathlib.Data.List.Perm.Basic

/-!
# The order of a module

A module is written place by place.  Nothing is left out on the way but memory models in front of
the last one, and work group sizes in front of the last one for the same function.
-/

namespace KernelGrid

namespace Place

/-- The places of a module in the order of the format, with a place for the work group size of
each function that has an entry point. -/
def order (functions : List ResultId) : List Place :=
  [listed .capabilities, listed .extensions, listed .extInstImports, listed .memoryModel,
    entryPoint] ++ functions.map size ++
    [listed .executionModes, listed .debug, listed .annotations, listed .globals, function]

/-- Whether only the last record in a place counts. -/
def isSingle : Place → Bool
  | listed .memoryModel | size _ => true
  | _ => false

def keep {α : Type} (p : Place) (xs : List α) : List α :=
  if p.isSingle then xs.getLast?.toList else xs

def leave {α : Type} (p : Place) (xs : List α) : List α :=
  if p.isSingle then xs.dropLast else []

theorem keep_listed {α : Type} (s : Section) (xs : List α) : (listed s).keep xs = s.keep xs := by
  cases s <;> rfl

theorem keep_size {α : Type} (f : ResultId) (xs : List α) :
    (size f).keep xs = xs.getLast?.toList := rfl

theorem keep_entryPoint {α : Type} (xs : List α) : entryPoint.keep xs = xs := rfl

theorem keep_function {α : Type} (xs : List α) : function.keep xs = xs := rfl

theorem keep_append_leave_perm {α : Type} (p : Place) (xs : List α) :
    (p.keep xs ++ p.leave xs).Perm xs := by
  rw [keep, leave]
  by_cases hp : p.isSingle
  · rw [if_pos hp, if_pos hp]
    induction xs using List.reverseRecOn with
    | nil => rfl
    | append_singleton xs x ih => simpa using (@List.perm_append_comm _ [x] xs)
  · rw [if_neg hp, if_neg hp, List.append_nil]

theorem nodup_order {functions : List ResultId} (hnodup : functions.Nodup) :
    (order functions).Nodup := by
  have hsizes : (functions.map size).Nodup := hnodup.map fun _ _ h => by cases h; rfl
  simp [order, List.nodup_append, hsizes]

end Place

section

variable {α : Type} (mark : α → Mark)

/-- The functions that have an entry point, by their first. -/
def enteredFunctions (xs : List α) : List ResultId :=
  (Context.start.run (xs.map mark)).entered.eraseDups

def arranged (xs : List α) : List α :=
  (Place.order (enteredFunctions mark xs)).flatMap fun p => p.keep (inPlace mark .start xs p)

def leftOut (xs : List α) : List α :=
  (Place.order (enteredFunctions mark xs)).flatMap fun p => p.leave (inPlace mark .start xs p)

variable {mark}

theorem arranged_congr {mark' : α → Mark} {xs : List α} (h : ∀ x ∈ xs, mark x = mark' x) :
    arranged mark xs = arranged mark' xs := by
  have hentered : enteredFunctions mark xs = enteredFunctions mark' xs := by
    rw [enteredFunctions, List.map_congr_left h, ← enteredFunctions]
  rw [arranged, arranged, hentered, funext (inPlace_congr h)]

theorem nodup_eraseDups {β : Type} [DecidableEq β] (xs : List β) : xs.eraseDups.Nodup := by
  match xs with
  | [] => exact List.nodup_nil
  | x :: xs =>
      rw [List.eraseDups_cons, List.nodup_cons, List.mem_eraseDups]
      exact ⟨by simp, nodup_eraseDups _⟩
termination_by xs.length
decreasing_by exact Nat.lt_succ_of_le (List.length_filter_le _ _)

theorem flatMap_singleton_of_mem {β : Type} [DecidableEq β] {ps : List β} {p : β}
    (hnodup : ps.Nodup) (hp : p ∈ ps) (x : α) :
    ps.flatMap (fun q => if p = q then [x] else []) = [x] := by
  induction ps with
  | nil => cases hp
  | cons q ps ih =>
      rw [List.nodup_cons] at hnodup
      rw [List.flatMap_cons]
      by_cases hpq : p = q
      · have hrest : ps.flatMap (fun q => if p = q then [x] else []) = [] := by
          rw [List.flatMap_eq_nil_iff]
          intro r hr
          rw [if_neg]
          rintro rfl
          exact hnodup.1 (hpq ▸ hr)
        rw [if_pos hpq, hrest, List.append_nil]
      · rw [if_neg hpq, List.nil_append, ih hnodup.2]
        exact (List.mem_cons.1 hp).resolve_left hpq

/-- Places that are all different hold everything once if they include every place in use. -/
theorem flatMap_inPlace_perm {ps : List Place} (hnodup : ps.Nodup) {c : Context} {xs : List α}
    (hps : ∀ q ∈ placed mark c xs, q.1 ∈ ps) : (ps.flatMap (inPlace mark c xs)).Perm xs := by
  induction xs generalizing c with
  | nil => simp [List.flatMap_eq_nil_iff]
  | cons x xs ih =>
      rw [placed, List.forall_mem_cons] at hps
      have hcons : inPlace mark c (x :: xs) = fun p =>
          (if c.place (mark x) = p then [x] else []) ++ inPlace mark (c.next (mark x)) xs p :=
        funext (inPlace_cons c x xs)
      calc ps.flatMap (inPlace mark c (x :: xs))
          _ = ps.flatMap (fun p => (if c.place (mark x) = p then [x] else []) ++
                inPlace mark (c.next (mark x)) xs p) := by rw [hcons]
          List.Perm _ (ps.flatMap (fun p => if c.place (mark x) = p then [x] else []) ++
                ps.flatMap (inPlace mark (c.next (mark x)) xs)) :=
              (List.flatMap_append_perm ps _ _).symm
          _ = x :: ps.flatMap (inPlace mark (c.next (mark x)) xs) := by
              rw [flatMap_singleton_of_mem hnodup hps.1]
              rfl
          List.Perm _ (x :: xs) := (ih hps.2).cons x

theorem mem_order_of_placed {c : Context} {xs : List α} {q : Place × α}
    (hq : q ∈ placed mark c xs) {functions : List ResultId}
    (hfunctions : ∀ f ∈ (c.run (xs.map mark)).entered, f ∈ functions) :
    q.1 ∈ Place.order functions := by
  induction xs generalizing c with
  | nil => cases hq
  | cons x xs ih =>
      rw [placed, List.mem_cons] at hq
      obtain rfl | hq := hq
      · cases hplace : c.place (mark x) with
        | listed s => cases s <;> simp [Place.order]
        | entryPoint => simp [Place.order]
        | function => simp [Place.order]
        | size f =>
            have hf := hfunctions f (Context.entered_run _ (Context.place_eq_size.1 hplace).2)
            simp [Place.order, hf]
      · exact ih hq hfunctions

theorem arranged_append_leftOut_perm (xs : List α) :
    (arranged mark xs ++ leftOut mark xs).Perm xs := by
  have hnodup := Place.nodup_order (nodup_eraseDups (Context.start.run (xs.map mark)).entered)
  calc List.Perm (arranged mark xs ++ leftOut mark xs)
        ((Place.order (enteredFunctions mark xs)).flatMap fun p : Place =>
          p.keep (inPlace mark .start xs p) ++ p.leave (inPlace mark .start xs p)) :=
      List.flatMap_append_perm _ _ _
    List.Perm _ ((Place.order (enteredFunctions mark xs)).flatMap (inPlace mark .start xs)) :=
      List.Perm.flatMap_left _ fun p _ => p.keep_append_leave_perm _
    List.Perm _ xs := flatMap_inPlace_perm hnodup fun q hq =>
      mem_order_of_placed hq fun f hf => List.mem_eraseDups.2 hf

end

end KernelGrid
