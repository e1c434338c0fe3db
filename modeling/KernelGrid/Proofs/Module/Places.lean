import KernelGrid.Module.Assembly

/-!
# Places

Where a record goes depends on the record and on what stands in front of it: whether a function
is open, and which functions have an entry point already.  A module keeps the records of one
place in the order of the stream.
-/

namespace KernelGrid

open KernelGrid.Stream

inductive Mark where
  | entryPoint (function : ResultId)
  | functionEnd
  /-- The size of a work group, stated for a function. -/
  | size (function : ResultId)
  | inst (opcode : Opcode)
deriving DecidableEq, Repr

inductive Place where
  | listed (s : Section)
  | entryPoint
  /-- In the entry point of a function. -/
  | size (function : ResultId)
  | function
deriving DecidableEq, Repr

inductive Position where
  | outside
  | header
  | blocks
deriving DecidableEq, Repr

structure Context where
  position : Position
  /-- The functions of the entry points so far. -/
  entered : List ResultId
deriving DecidableEq, Repr

namespace Context

def start : Context := ⟨.outside, []⟩

def place (c : Context) : Mark → Place
  | .entryPoint _ => .entryPoint
  | .functionEnd => .function
  | .size f => if f ∈ c.entered then .size f else .listed .executionModes
  | .inst op =>
    if op = Form.executionMode.opcode then .listed .executionModes
    else if c.position ≠ .outside ∨ op = Form.function.opcode then .function
    else .listed (Section.ofOpcode op)

def next (c : Context) : Mark → Context
  | .entryPoint f => { c with entered := c.entered ++ [f] }
  | .functionEnd => { c with position := .outside }
  | .size _ => c
  | .inst op =>
    if op = Form.function.opcode then { c with position := .header }
    else if op = Form.label.opcode then { c with position := .blocks }
    else c

/-- Whether a record may stand here: parameters come before the blocks of their function, and
what is not in a block stands outside functions. -/
def Allows (c : Context) : Mark → Prop
  | .entryPoint _ => True
  | .functionEnd => c.position ≠ .outside
  | .size _ => True
  | .inst op =>
    op = Form.executionMode.opcode ∨
      match c.position with
      | .outside => op ≠ Form.functionParameter.opcode ∧ op ≠ Form.label.opcode
      | .header => op = Form.functionParameter.opcode ∨ op = Form.label.opcode
      | .blocks => op ≠ Form.function.opcode ∧ op ≠ Form.functionParameter.opcode

def AllowsAll : Context → List Mark → Prop
  | _, [] => True
  | c, k :: ks => c.Allows k ∧ (c.next k).AllowsAll ks

def run (c : Context) (marks : List Mark) : Context := marks.foldl next c

@[simp] theorem run_nil (c : Context) : c.run [] = c := rfl

@[simp] theorem run_cons (c : Context) (k : Mark) (ks : List Mark) :
    c.run (k :: ks) = (c.next k).run ks := rfl

theorem run_append (c : Context) (ks ls : List Mark) : c.run (ks ++ ls) = (c.run ks).run ls :=
  List.foldl_append

theorem allowsAll_append {c : Context} {ks ls : List Mark} (hks : c.AllowsAll ks)
    (hls : (c.run ks).AllowsAll ls) : c.AllowsAll (ks ++ ls) := by
  induction ks generalizing c with
  | nil => exact hls
  | cons k ks ih => exact ⟨hks.1, ih hks.2 hls⟩

theorem allows_of_split {c : Context} {ks ls : List Mark} {k : Mark}
    (h : c.AllowsAll (ks ++ k :: ls)) : (c.run ks).Allows k := by
  induction ks generalizing c with
  | nil => exact h.1
  | cons l ks ih => exact ih h.2

theorem section_of_place {c : Context} {op : Opcode} {s : Section}
    (hplace : c.place (.inst op) = .listed s) (hallow : c.Allows (.inst op)) :
    Section.ofOpcode op = s ∧ op ≠ Form.function.opcode ∧ op ≠ Form.functionParameter.opcode ∧
      op ≠ Form.label.opcode := by
  simp only [place] at hplace
  split at hplace
  · rename_i hmode
    cases hplace
    rw [hmode]
    decide
  · rename_i hmode
    split at hplace
    · cases hplace
    · rename_i houtside
      cases hplace
      rw [not_or, ne_eq, Classical.not_not] at houtside
      simp only [Allows, hmode, false_or, houtside.1] at hallow
      exact ⟨rfl, houtside.2, hallow⟩

theorem entered_next_of_ne {c : Context} {k : Mark} (hk : ∀ f, k ≠ .entryPoint f) :
    (c.next k).entered = c.entered := by
  cases k with
  | entryPoint f => exact absurd rfl (hk f)
  | inst op =>
      simp only [next]
      split
      · rfl
      split
      · rfl
      · rfl
  | functionEnd | size => rfl

theorem entered_next {c : Context} {f : ResultId} (k : Mark) (hf : f ∈ c.entered) :
    f ∈ (c.next k).entered := by
  by_cases hk : ∃ g, k = .entryPoint g
  · obtain ⟨g, rfl⟩ := hk
    exact List.mem_append_left _ hf
  · rw [entered_next_of_ne fun g hg => hk ⟨g, hg⟩]
    exact hf

theorem entered_run {c : Context} {f : ResultId} (ks : List Mark) (hf : f ∈ c.entered) :
    f ∈ (c.run ks).entered := by
  induction ks generalizing c with
  | nil => exact hf
  | cons k ks ih => exact ih (entered_next k hf)

theorem place_eq_entryPoint {c : Context} {k : Mark} :
    c.place k = .entryPoint ↔ ∃ f, k = .entryPoint f := by
  cases k with
  | entryPoint f => simp [place]
  | functionEnd => simp [place]
  | size f =>
      by_cases hf : f ∈ c.entered
      · simp [place, hf]
      · simp [place, hf]
  | inst op =>
      simp only [place]
      split
      · simp
      split
      · simp
      · simp

theorem place_eq_size {c : Context} {k : Mark} {f : ResultId} :
    c.place k = .size f ↔ k = .size f ∧ f ∈ c.entered := by
  cases k with
  | entryPoint g => simp [place]
  | functionEnd => simp [place]
  | size g =>
      by_cases hg : g ∈ c.entered
      · simp only [place, if_pos hg, Place.size.injEq, Mark.size.injEq]
        constructor
        · rintro rfl
          exact ⟨rfl, hg⟩
        · exact And.left
      · simp only [place, if_neg hg, reduceCtorEq, Mark.size.injEq, false_iff, not_and]
        rintro rfl
        exact hg
  | inst op =>
      simp only [place]
      split
      · simp
      split
      · simp
      · simp

end Context

/-! ## Sorting by place -/

section Sorting

variable {α β : Type} (mark : α → Mark)

def placed (c : Context) : List α → List (Place × α)
  | [] => []
  | x :: xs => (c.place (mark x), x) :: placed (c.next (mark x)) xs

/-- What goes to a place, in the order of the stream. -/
def inPlace (c : Context) (xs : List α) (p : Place) : List α :=
  ((placed mark c xs).filter fun q => q.1 = p).map Prod.snd

variable {mark}

@[simp] theorem inPlace_nil (c : Context) (p : Place) : inPlace mark c [] p = [] := rfl

theorem inPlace_cons (c : Context) (x : α) (xs : List α) (p : Place) :
    inPlace mark c (x :: xs) p =
      (if c.place (mark x) = p then [x] else []) ++ inPlace mark (c.next (mark x)) xs p := by
  by_cases hp : c.place (mark x) = p
  · simp [inPlace, placed, hp]
  · simp [inPlace, placed, hp]

theorem inPlace_append (c : Context) (xs ys : List α) (p : Place) :
    inPlace mark c (xs ++ ys) p =
      inPlace mark c xs p ++ inPlace mark (c.run (xs.map mark)) ys p := by
  induction xs generalizing c with
  | nil => simp
  | cons x xs ih =>
      rw [List.cons_append, inPlace_cons, inPlace_cons, ih, List.append_assoc]
      rfl

theorem inPlace_concat (c : Context) (xs : List α) (x : α) (p : Place) :
    inPlace mark c (xs ++ [x]) p =
      inPlace mark c xs p ++ if (c.run (xs.map mark)).place (mark x) = p then [x] else [] := by
  rw [inPlace_append, inPlace_cons, inPlace_nil, List.append_nil]

theorem mem_of_mem_inPlace {c : Context} {xs : List α} {p : Place} {x : α}
    (hx : x ∈ inPlace mark c xs p) : x ∈ xs := by
  induction xs generalizing c with
  | nil => cases hx
  | cons y ys ih =>
      rw [inPlace_cons, List.mem_append] at hx
      obtain hx | hx := hx
      · split at hx
        · simp only [List.mem_singleton] at hx
          exact hx ▸ List.mem_cons_self
        · cases hx
      · exact List.mem_cons_of_mem _ (ih hx)

theorem exists_mem_inPlace {c : Context} {xs : List α} {x : α} (hx : x ∈ xs) :
    ∃ p, x ∈ inPlace mark c xs p := by
  induction xs generalizing c with
  | nil => cases hx
  | cons y ys ih =>
      obtain rfl | hx := List.mem_cons.1 hx
      · refine ⟨c.place (mark x), ?_⟩
        rw [inPlace_cons, if_pos rfl]
        exact List.mem_cons_self
      · obtain ⟨p, hp⟩ := ih (c := c.next (mark y)) hx
        refine ⟨p, ?_⟩
        rw [inPlace_cons]
        exact List.mem_append_right _ hp

theorem exists_split_of_mem_inPlace {c : Context} {xs : List α} {p : Place} {x : α}
    (hx : x ∈ inPlace mark c xs p) :
    ∃ before behind, xs = before ++ x :: behind ∧
      (c.run (before.map mark)).place (mark x) = p := by
  induction xs generalizing c with
  | nil => cases hx
  | cons y ys ih =>
      rw [inPlace_cons, List.mem_append] at hx
      obtain hx | hx := hx
      · split at hx
        · rename_i hplace
          obtain rfl := List.mem_singleton.1 hx
          exact ⟨[], ys, rfl, hplace⟩
        · cases hx
      · obtain ⟨before, behind, rfl, hplace⟩ := ih hx
        exact ⟨y :: before, behind, rfl, hplace⟩

theorem exists_place_of_mem_inPlace {c : Context} {xs : List α} {p : Place} {x : α}
    (hx : x ∈ inPlace mark c xs p) : ∃ c' : Context, c'.place (mark x) = p := by
  obtain ⟨before, -, -, hplace⟩ := exists_split_of_mem_inPlace hx
  exact ⟨_, hplace⟩

theorem inPlace_congr {mark' : α → Mark} {c : Context} {xs : List α}
    (h : ∀ x ∈ xs, mark x = mark' x) (p : Place) :
    inPlace mark c xs p = inPlace mark' c xs p := by
  induction xs generalizing c with
  | nil => rfl
  | cons x xs ih =>
      rw [List.forall_mem_cons] at h
      rw [inPlace_cons, inPlace_cons, h.1, ih h.2]

end Sorting

/-! ## Stretches -/

inductive Stretch (p : Place) : Context → List Mark → Context → Prop
  | nil (c : Context) : Stretch p c [] c
  | cons {c c' : Context} {k : Mark} {ks : List Mark} (hallow : c.Allows k)
      (hplace : c.place k = p) (hrest : Stretch p (c.next k) ks c') : Stretch p c (k :: ks) c'

namespace Stretch

variable {p : Place} {c c' c'' : Context} {ks ls : List Mark}

theorem append (hks : Stretch p c ks c') (hls : Stretch p c' ls c'') :
    Stretch p c (ks ++ ls) c'' := by
  induction hks with
  | nil => exact hls
  | cons hallow hplace _ ih => exact .cons hallow hplace (ih hls)

theorem of_stable (h : ∀ k ∈ ks, c.Allows k ∧ c.place k = p ∧ c.next k = c) :
    Stretch p c ks c := by
  induction ks with
  | nil => exact .nil c
  | cons k ks ih =>
      rw [List.forall_mem_cons] at h
      obtain ⟨⟨hallow, hplace, hnext⟩, hrest⟩ := h
      refine .cons hallow hplace ?_
      rw [hnext]
      exact ih hrest

theorem allowsAll (hks : Stretch p c ks c') : c.AllowsAll ks := by
  induction hks with
  | nil => trivial
  | cons hallow _ _ ih => exact ⟨hallow, ih⟩

theorem run_eq (hks : Stretch p c ks c') : c.run ks = c' := by
  induction hks with
  | nil => rfl
  | cons _ _ _ ih => exact ih

theorem inPlace_eq {α : Type} {mark : α → Mark} {xs : List α}
    (hxs : Stretch p c (xs.map mark) c')
    (q : Place) : inPlace mark c xs q = if p = q then xs else [] := by
  induction xs generalizing c with
  | nil => simp
  | cons x xs ih =>
      cases hxs with
      | cons _ hplace hrest =>
          rw [inPlace_cons, hplace, ih hrest]
          by_cases hpq : p = q
          · rw [if_pos hpq, if_pos hpq, if_pos hpq]
            rfl
          · rw [if_neg hpq, if_neg hpq, if_neg hpq]
            rfl

end Stretch

/-! ## Sorted streams -/

/-- What may stand behind some records, with everything that goes to each place. -/
structure Sorts {α : Type} (mark : α → Mark) (c : Context) (xs : List α) (c' : Context)
    (out : Place → List α) : Prop where
  allowed : c.AllowsAll (xs.map mark)
  run_eq : c.run (xs.map mark) = c'
  inPlace_eq : ∀ p, inPlace mark c xs p = out p

section

variable {α : Type} {mark : α → Mark} {c c' c'' : Context} {xs ys : List α}
  {out out' : Place → List α}

theorem Stretch.sorts {p : Place} (hxs : Stretch p c (xs.map mark) c') :
    Sorts mark c xs c' fun q => if p = q then xs else [] :=
  ⟨hxs.allowsAll, hxs.run_eq, hxs.inPlace_eq⟩

theorem Sorts.append (hxs : Sorts mark c xs c' out) (hys : Sorts mark c' ys c'' out') :
    Sorts mark c (xs ++ ys) c'' fun p => out p ++ out' p := by
  refine ⟨?_, ?_, ?_⟩
  · rw [List.map_append]
    apply Context.allowsAll_append hxs.allowed
    rw [hxs.run_eq]
    exact hys.allowed
  · rw [List.map_append, Context.run_append, hxs.run_eq, hys.run_eq]
  · intro p
    rw [inPlace_append, hxs.run_eq, hxs.inPlace_eq, hys.inPlace_eq]

theorem Sorts.of_stable (hallow : ∀ x ∈ xs, c.Allows (mark x))
    (hnext : ∀ x ∈ xs, c.next (mark x) = c) :
    Sorts mark c xs c fun p => xs.filter fun x => c.place (mark x) = p := by
  induction xs with
  | nil => exact ⟨trivial, rfl, fun _ => rfl⟩
  | cons x xs ih =>
      rw [List.forall_mem_cons] at hallow hnext
      have hrest := ih hallow.2 hnext.2
      refine ⟨⟨hallow.1, ?_⟩, ?_, ?_⟩
      · rw [hnext.1]
        exact hrest.allowed
      · rw [List.map_cons, Context.run_cons, hnext.1, hrest.run_eq]
      · intro p
        rw [inPlace_cons, hnext.1, hrest.inPlace_eq, List.filter_cons]
        by_cases hp : c.place (mark x) = p
        · rw [if_pos hp, if_pos (by simpa using hp)]
          rfl
        · rw [if_neg hp, if_neg (by simpa using hp)]
          rfl

end

/-! ## Items and records -/

def Item.mark : Item ResultId → Mark
  | .entryPoint e => .entryPoint e.function
  | .functionEnd => .functionEnd
  | .inst i =>
    match i.kind with
    | .executionMode function mode [_, _, _] =>
      if mode = .localSize then .size function else .inst i.opcode
    | _ => .inst i.opcode

theorem Item.mark_eq_entryPoint {item : Item ResultId} {f : ResultId} :
    item.mark = .entryPoint f ↔ ∃ e, item = .entryPoint e ∧ e.function = f := by
  cases item with
  | entryPoint e => simp [mark]
  | functionEnd => simp [mark]
  | inst i =>
      simp only [mark, reduceCtorEq, false_and, exists_false, iff_false]
      split
      · split
        · simp
        · simp
      · simp

theorem Item.mark_eq_size {item : Item ResultId} {f : ResultId} :
    item.mark = .size f ↔
      ∃ i x y z, item = .inst i ∧ i.kind = .executionMode f .localSize [x, y, z] := by
  cases item with
  | entryPoint e => simp [mark]
  | functionEnd => simp [mark]
  | inst i =>
      simp only [mark, Item.inst.injEq, exists_and_left, exists_eq_left']
      constructor
      · intro hmark
        split at hmark
        · rename_i function mode x y z hkind
          split at hmark
          · rename_i hmode
            cases hmark
            exact ⟨x, y, z, hkind.trans (by rw [hmode])⟩
          · cases hmark
        · cases hmark
      · rintro ⟨x, y, z, hkind⟩
        rw [hkind]
        exact if_pos rfl

def Stream.Record.mark (r : Record) : Mark :=
  if r.opcode = Opcode.entryPoint then .entryPoint (r.operands.getD 1 0)
  else if r.opcode = Opcode.functionEnd then .functionEnd
  else if r.opcode = Form.executionMode.opcode then
    match r.operands with
    | [function, mode, _, _, _] =>
      if mode = ExecutionMode.localSize.code then .size function else .inst r.opcode
    | _ => .inst r.opcode
  else .inst r.opcode

end KernelGrid
