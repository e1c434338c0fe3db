import KernelGrid.Module.Validation
import KernelGrid.Proofs.Module.Additions
import KernelGrid.Proofs.Module.Normalization
import KernelGrid.Proofs.Runs

/-!
# Annotations

What the annotations of a module say, when more is attached and when repeated decorations are
dropped.
-/

namespace KernelGrid

namespace Kind

variable {ρ : Type} [DecidableEq ρ] {k : Kind ρ} {target : ρ} {member : Word}
  {decoration : Decoration} {words : List Word}

/-- What is decorated, as a whole or in a member. -/
def decorated? : Kind ρ → Option ρ
  | decorate target _ _ => some target
  | memberDecorate target _ _ _ => some target
  | _ => none

def wordsOn? (target : ρ) (decoration : Decoration) : Kind ρ → Option (List Word)
  | decorate t d words => if t = target ∧ d = decoration then some words else none
  | _ => none

def memberWordsOn? (target : ρ) (member : Word) (decoration : Decoration) :
    Kind ρ → Option (List Word)
  | memberDecorate t i d words =>
    if t = target ∧ i = member ∧ d = decoration then some words else none
  | _ => none

theorem wordsOn?_eq_some : k.wordsOn? target decoration = some words ↔
    k = decorate target decoration words := by
  cases k
  case decorate => simp only [wordsOn?, decorate.injEq]; grind
  all_goals simp [wordsOn?]

theorem wordsOn?_eq_none (hk : k.decorated? ≠ some target) :
    k.wordsOn? target decoration = none := by
  refine Option.eq_none_iff_forall_ne_some.2 fun words hwords => hk ?_
  rw [wordsOn?_eq_some.1 hwords, decorated?]

theorem memberWordsOn?_eq_some : k.memberWordsOn? target member decoration = some words ↔
    k = memberDecorate target member decoration words := by
  cases k
  case memberDecorate => simp only [memberWordsOn?, memberDecorate.injEq]; grind
  all_goals simp [memberWordsOn?]

theorem memberWordsOn?_eq_none (hk : k.decorated? ≠ some target) :
    k.memberWordsOn? target member decoration = none := by
  refine Option.eq_none_iff_forall_ne_some.2 fun words hwords => hk ?_
  rw [memberWordsOn?_eq_some.1 hwords, decorated?]

end Kind

/-- The first that something is found of is not left out. -/
theorem findSome?_eraseDupsBy {α β γ : Type} [DecidableEq β] {f : α → β} {h : α → Option γ}
    (hf : ∀ x y, f x = f y → h x = h y) (xs : List α) :
    (xs.eraseDupsBy fun a b => f a = f b).findSome? h = xs.findSome? h := by
  match xs with
  | [] => rfl
  | x :: xs =>
      rw [List.eraseDupsBy_cons, List.findSome?_cons, List.findSome?_cons,
        findSome?_eraseDupsBy hf]
      cases hx : h x with
      | some c => rfl
      | none =>
          have hkept : (xs.filter fun y => decide (f y = f x) = false).findSome? h =
              xs.findSome? h := by
            induction xs with
            | nil => rfl
            | cons y ys ih =>
                by_cases hy : f y = f x
                · rw [List.filter_cons_of_neg (by simp [hy]), ih, List.findSome?_cons,
                    hf y x hy, hx]
                · rw [List.filter_cons_of_pos (by simp [hy]), List.findSome?_cons,
                    List.findSome?_cons, ih]
          exact hkept
termination_by xs.length
decreasing_by exact Nat.lt_succ_of_le (List.length_filter_le _ _)

namespace Module

variable {m m' : Module} {target : Handle} {member : Word} {decoration : Decoration}
  {k : Kind Handle}

def notes (m : Module) : List (Kind Handle) := m.annotations.map m.kindOf

theorem decorations_eq_notes :
    m.decorations target decoration = m.notes.filterMap (Kind.wordsOn? target decoration) := by
  rw [decorations, notes, List.filterMap_map]
  refine List.filterMap_congr fun h _ => ?_
  rw [Function.comp_apply]
  cases m.kindOf h <;> rfl

theorem memberDecorations_eq_notes : m.memberDecorations target member decoration =
    m.notes.filterMap (Kind.memberWordsOn? target member decoration) := by
  rw [memberDecorations, notes, List.filterMap_map]
  refine List.filterMap_congr fun h _ => ?_
  rw [Function.comp_apply]
  cases m.kindOf h <;> rfl

theorem mem_decorations {words : List Word} : words ∈ m.decorations target decoration ↔
    .decorate target decoration words ∈ m.notes := by
  rw [decorations_eq_notes, List.mem_filterMap]
  simp only [Kind.wordsOn?_eq_some, exists_eq_right]

theorem mem_memberDecorations {words : List Word} :
    words ∈ m.memberDecorations target member decoration ↔
      .memberDecorate target member decoration words ∈ m.notes := by
  rw [memberDecorations_eq_notes, List.mem_filterMap]
  simp only [Kind.memberWordsOn?_eq_some, exists_eq_right]

theorem hasDecoration_iff :
    m.hasDecoration target decoration ↔ ∃ words,
      .decorate target decoration words ∈ m.notes := by
  rw [hasDecoration, decorations_eq_notes, Bool.not_eq_true',
    List.isEmpty_eq_false_iff_exists_mem]
  simp only [List.mem_filterMap, Kind.wordsOn?_eq_some]
  exact exists_congr fun words => ⟨by rintro ⟨k, hk, rfl⟩; exact hk, fun h => ⟨_, h, rfl⟩⟩

theorem memberOffset?_eq_notes (m : Module) (block : Handle) (i : Nat) :
    m.memberOffset? block i =
    (m.notes.findSome? (Kind.memberWordsOn? block i.toUInt32 .offset)).bind List.head? := by
  rw [memberOffset?, memberDecorations_eq_notes, List.head?_filterMap]

/-! ## Offsets of members -/

def offsetNotes (block : Handle) (members : List (Word × Nat)) : List (Kind Handle) :=
  members.map fun (offset, i) => .memberDecorate block i.toUInt32 .offset [offset]

theorem toUInt32_inj {i j : Nat} (hi : i < 2 ^ 32) (hj : j < 2 ^ 32) :
    i.toUInt32 = j.toUInt32 ↔ i = j := by
  refine ⟨fun heq => ?_, congrArg _⟩
  have hnat := congrArg UInt32.toNat heq
  rwa [Nat.toUInt32_eq, Nat.toUInt32_eq,
    UInt32.toNat_ofNat_of_lt' (by simp [UInt32.size]; omega),
    UInt32.toNat_ofNat_of_lt' (by simp [UInt32.size]; omega)] at hnat

theorem findSome?_offsetNotes {block : Handle} {offsets : List Word} {n i : Nat}
    (hn : n + offsets.length ≤ 2 ^ 32) (hi : i < 2 ^ 32) (hle : n ≤ i) :
    (offsetNotes block (offsets.zipIdx n)).findSome?
      (Kind.memberWordsOn? block i.toUInt32 .offset) = offsets[i - n]?.map ([·]) := by
  induction offsets generalizing n with
  | nil => rfl
  | cons offset offsets ih =>
      rw [List.length_cons] at hn
      have hiff : n.toUInt32 = i.toUInt32 ↔ n = i := toUInt32_inj (by omega) hi
      rw [List.zipIdx_cons, offsetNotes, List.map_cons, List.findSome?_cons, ← offsetNotes,
        Kind.memberWordsOn?]
      by_cases heq : n = i
      · subst heq
        simp
      · rw [if_neg fun hand => heq (hiff.1 hand.2.1), ih (by omega) (by omega),
          show i - n = i - (n + 1) + 1 by omega, List.getElem?_cons_succ]

/-! ## Changes -/

theorem Extends.stored_annotations {notes : List (Kind Handle)} (hmm : m.Extends notes m')
    (hstored : ∀ h ∈ m.annotations, (m.insts.get? h).isSome) :
    ∀ h ∈ m'.annotations, (m'.insts.get? h).isSome := by
  obtain ⟨hs, heq, -, hnotes⟩ := hmm.annotations
  rw [heq]
  refine List.forall_mem_append.2 ⟨fun h hh => hmm.isSome (hstored h hh), fun h hh => ?_⟩
  have hmem := List.mem_map_of_mem (f := m'.insts.get?) hh
  rw [hnotes, List.mem_map] at hmem
  obtain ⟨k, -, hk⟩ := hmem
  rw [← hk]
  rfl

theorem Extends.exists_notes {notes : List (Kind Handle)} (hmm : m.Extends notes m') :
    ∃ hs, m'.annotations = m.annotations ++ hs ∧ (∀ h ∈ hs, m.insts.get? h = none) ∧
      hs.map m'.kindOf = notes := by
  obtain ⟨hs, heq, hfresh, hget⟩ := hmm.annotations
  have hkinds := congrArg (List.map fun i => (i.getD (.plain .placeholder)).kind) hget
  rw [List.map_map, List.map_map] at hkinds
  exact ⟨hs, heq, hfresh, hkinds.trans (List.map_id' _)⟩

theorem Extends.notes_eq {notes : List (Kind Handle)} (hmm : m.Extends notes m')
    (hstored : ∀ h ∈ m.annotations, (m.insts.get? h).isSome) : m'.notes = m.notes ++ notes := by
  obtain ⟨hs, heq, -, hnew⟩ := hmm.exists_notes
  have hkept : m.annotations.map m'.kindOf = m.notes :=
    List.map_congr_left fun h hh => hmm.kindOf_eq (hstored h hh)
  rw [Module.notes, heq, List.map_append, hkept, hnew]

structure Annotates (m : Module) (notes : List (Kind Handle)) (m' : Module) : Prop
    extends m.Edits notes m' where
  globals_eq : m'.globals = m.globals
  interned_eq : m'.interned = m.interned

theorem Annotates.refl (m : Module) : m.Annotates [] m := ⟨.refl m, rfl, rfl⟩

theorem Annotates.trans {m'' : Module} {notes notes' : List (Kind Handle)}
    (h₁ : m.Annotates notes m')
    (h₂ : m'.Annotates notes' m'') : m.Annotates (notes ++ notes') m'' :=
  ⟨h₁.toEdits.trans h₂.toEdits, h₂.globals_eq.trans h₁.globals_eq,
    h₂.interned_eq.trans h₁.interned_eq⟩

theorem annotate_annotates {h : Handle} (hrun : annotate k m = (h, m')) :
    m.Annotates [k] m' := by
  refine ⟨annotate_edits hrun, ?_, ?_⟩
  all_goals
    obtain ⟨m₁, hstored, rfl⟩ := annotate_cases hrun
    obtain ⟨bound, insts, ids, hframe⟩ := append_frame (.plain k) m
    rw [hstored] at hframe
    rw [show m₁ = _ from hframe]

theorem notes_consolidate (m : Module) :
    m.consolidate.notes = (m.annotations.map m.inst).eraseDups.map Inst.kind := by
  rw [← annotations_consolidate, List.map_map]
  rfl

theorem mem_notes_consolidate : k ∈ m.consolidate.notes ↔ k ∈ m.notes := by
  rw [notes_consolidate, notes]
  simp only [List.mem_map, List.mem_eraseDups, exists_exists_and_eq_and]
  rfl

theorem findSome?_notes_consolidate {β : Type} (f : Kind Handle → Option β) :
    m.consolidate.notes.findSome? f = m.notes.findSome? f := by
  rw [notes, notes, List.findSome?_map, List.findSome?_map]
  exact findSome?_eraseDupsBy (fun g h heq => congrArg (f ∘ Inst.kind) heq) m.annotations

/-! ## Attaching -/

variable {notes : List (Kind Handle)} {g h : Handle}

/-- The module with notes behind all its instructions, listed at the end of its annotations. -/
def annotated (m : Module) (notes : List (Kind Handle)) : Module :=
  { m with
    insts := ⟨m.insts.values ++ (notes.map Inst.plain).toArray⟩
    annotations := m.annotations ++ (List.range' m.insts.size notes.length).map Handle.mk }

@[simp] theorem annotated_nil (m : Module) : m.annotated [] = m := by
  simp [annotated]

@[simp] theorem annotated_annotated (m : Module) (notes notes' : List (Kind Handle)) :
    (m.annotated notes).annotated notes' = m.annotated (notes ++ notes') := by
  have hhandles : List.range' m.insts.size (notes ++ notes').length =
      List.range' m.insts.size notes.length ++
        List.range' (m.annotated notes).insts.size notes'.length := by
    simp [annotated, Arena.size, List.range'_append_1]
  rw [annotated, annotated, annotated, hhandles]
  simp [annotated]

theorem annotate_eq (k : Kind Handle) (m : Module) :
    annotate k m = (m.insts.nextHandle, m.annotated [k]) := by
  have hpush : m.insts.push (.plain k) = ⟨m.insts.values ++ [Inst.plain k].toArray⟩ := by
    simp [Arena.push]
  change (m.insts.nextHandle, { m with
    insts := m.insts.push (.plain k), annotations := m.annotations ++ [m.insts.nextHandle] }) = _
  rw [hpush]
  rfl

theorem forIn_annotate {β : Type} (note : β → Kind Handle)
    {f : β → PUnit → Edit (ForInStep PUnit)}
    (hf : ∀ b u m, f b u m = (.yield ⟨⟩, m.annotated [note b])) (xs : List β) (u : PUnit)
    (m : Module) : ForIn.forIn xs u f m = (⟨⟩, m.annotated (xs.map note)) := by
  induction xs generalizing m u with
  | nil => rw [List.map_nil, annotated_nil]; rfl
  | cons b xs ih =>
      rw [List.forIn_cons]
      refine edit_bind.2 ⟨_, _, hf b u m, (ih _ _).trans ?_⟩
      rw [annotated_annotated]
      rfl

theorem forIn_annotate_except {ε β : Type} (note : β → Kind Handle)
    {f : β → PUnit → ExceptT ε Edit (ForInStep PUnit)}
    (hf : ∀ b u m, f b u m = (.ok (.yield ⟨⟩), m.annotated [note b])) (xs : List β) (u : PUnit)
    (m : Module) : ForIn.forIn xs u f m = (.ok ⟨⟩, m.annotated (xs.map note)) := by
  induction xs generalizing m u with
  | nil => rw [List.map_nil, annotated_nil]; rfl
  | cons b xs ih =>
      rw [List.forIn_cons, bind_apply, hf]
      exact (ih _ _).trans (by rw [annotated_annotated]; rfl)

theorem annotates_annotated (m : Module) (notes : List (Kind Handle)) :
    m.Annotates notes (m.annotated notes) := by
  induction notes generalizing m with
  | nil =>
      rw [annotated_nil]
      exact .refl m
  | cons k notes ih =>
      have hall := (annotate_annotates (annotate_eq k m)).trans (ih (m.annotated [k]))
      rwa [annotated_annotated] at hall

theorem get?_annotated (m : Module) (notes : List (Kind Handle)) (h : Handle) :
    (m.annotated notes).insts.get? h =
      (m.insts.get? h).or (notes[h.index - m.insts.size]?.map Inst.plain) := by
  simp only [annotated, Arena.get?, Arena.size, Array.getElem?_append]
  split
  next hlt => simp [hlt]
  next hge => simp [Array.getElem?_eq_none (Nat.not_lt.1 hge)]

theorem kindOf_annotated (m : Module) (notes : List (Kind Handle)) (h : Handle) :
    (m.annotated notes).kindOf h = m.kindOf h ∨
      m.kindOf h = .placeholder ∧ (m.annotated notes).kindOf h ∈ notes := by
  simp only [kindOf, inst, get?_annotated]
  cases hget : m.insts.get? h with
  | some i => exact .inl rfl
  | none =>
      cases hnote : notes[h.index - m.insts.size]? with
      | none => exact .inl rfl
      | some k => exact .inr ⟨rfl, List.mem_of_getElem? hnote⟩

theorem get?_annotated_of_some {i : Inst Handle} (hh : m.insts.get? h = some i) :
    (m.annotated notes).insts.get? h = some i := by
  rw [get?_annotated, hh]
  rfl

/-- What the annotations say, in order: the old ones may see a note where nothing has been
before. -/
theorem notes_annotated (m : Module) (notes : List (Kind Handle)) :
    (m.annotated notes).notes = m.annotations.map (m.annotated notes).kindOf ++ notes := by
  have hnew : ((List.range' m.insts.size notes.length).map Handle.mk).map
      (m.annotated notes).kindOf = notes := by
    refine List.ext_getElem (by simp) fun i _ hi => ?_
    simp only [List.getElem_map, List.getElem_range', kindOf, inst, get?_annotated]
    simp [Arena.get?, Arena.size, hi, Inst.plain]
  exact List.map_append.trans (congrArg _ hnew)

theorem notes_subset_annotated (m : Module) (notes : List (Kind Handle)) :
    notes ⊆ (m.annotated notes).notes := by
  rw [notes_annotated]
  exact List.subset_append_right _ _

theorem filterMap_notes_annotated {β : Type} {f : Kind Handle → Option β}
    (hf : ∀ k ∈ notes, f k = none) (hplaceholder : f .placeholder = none) :
    (m.annotated notes).notes.filterMap f = m.notes.filterMap f := by
  rw [notes_annotated, List.filterMap_append, List.filterMap_eq_nil_iff.2 hf, List.append_nil,
    Module.notes, List.filterMap_map, List.filterMap_map]
  refine List.filterMap_congr fun h _ => ?_
  simp only [Function.comp_apply]
  obtain heq | ⟨heq, hmem⟩ := m.kindOf_annotated notes h
  · rw [heq]
  · rw [hf _ hmem, heq, hplaceholder]

theorem decorations_annotated (hnotes : ∀ k ∈ notes, k.decorated? ≠ some g) (d : Decoration) :
    (m.annotated notes).decorations g d = m.decorations g d := by
  rw [decorations_eq_notes, decorations_eq_notes]
  exact filterMap_notes_annotated (fun k hk => Kind.wordsOn?_eq_none (hnotes k hk)) rfl

theorem memberDecorations_annotated (hnotes : ∀ k ∈ notes, k.decorated? ≠ some g) (i : Word)
    (d : Decoration) :
    (m.annotated notes).memberDecorations g i d = m.memberDecorations g i d := by
  rw [memberDecorations_eq_notes, memberDecorations_eq_notes]
  exact filterMap_notes_annotated (fun k hk => Kind.memberWordsOn?_eq_none (hnotes k hk)) rfl

end Module

end KernelGrid
