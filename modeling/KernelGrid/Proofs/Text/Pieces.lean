import KernelGrid.Text.Pieces
import Mathlib.Data.List.Basic

/-!
# Pieces of text

The pieces of a text hold no separator, and the text is made of them with separators in between.
-/

namespace KernelGrid.Text

variable {separator : Char}

theorem pieces_eq_splitOn (separator : Char) (cs : List Char) :
    pieces separator cs = cs.splitOn separator := by
  induction cs with
  | nil => exact (List.splitOn_nil separator).symm
  | cons c cs ih =>
      have hcons : pieces separator (c :: cs) =
          if c = separator then [] :: pieces separator cs
          else (c :: (pieces separator cs).headD []) :: (pieces separator cs).tail := rfl
      rw [hcons, ih, List.splitOn_cons_eq_if_modifyHead]
      simp only [beq_iff_eq]
      split
      · rfl
      · cases hpieces : cs.splitOn separator with
        | nil => exact absurd hpieces (List.splitOn_ne_nil separator cs)
        | cons piece rest => rfl

theorem pieces_append {cs : List Char} (hcs : separator ∉ cs) (rest : List Char) :
    pieces separator (cs ++ separator :: rest) = cs :: pieces separator rest := by
  rw [pieces_eq_splitOn, pieces_eq_splitOn, List.splitOn_append_cons_self_of_not_mem hcs]

theorem pieces_of_notMem {cs : List Char} (hcs : separator ∉ cs) :
    pieces separator cs = [cs] := by
  rw [pieces_eq_splitOn, List.splitOn_eq_singleton hcs]

theorem pieces_eq_cons_iff {cs piece : List Char} {others : List (List Char)} :
    pieces separator cs = piece :: others ↔
      separator ∉ piece ∧ ((cs = piece ∧ others = []) ∨
        ∃ rest, cs = piece ++ separator :: rest ∧ pieces separator rest = others) := by
  constructor
  · intro h
    by_cases hmem : separator ∈ cs
    · obtain ⟨first, rest, rfl, hfirst⟩ := List.eq_append_cons_of_mem hmem
      rw [pieces_append hfirst] at h
      obtain ⟨rfl, hrest⟩ := List.cons.inj h
      exact ⟨hfirst, .inr ⟨rest, rfl, hrest⟩⟩
    · rw [pieces_of_notMem hmem] at h
      obtain ⟨rfl, rfl⟩ := List.cons.inj h
      exact ⟨hmem, .inl ⟨rfl, rfl⟩⟩
  · rintro ⟨hpiece, ⟨rfl, rfl⟩ | ⟨rest, rfl, rfl⟩⟩
    · exact pieces_of_notMem hpiece
    · exact pieces_append hpiece rest

theorem pieces_eq_triple_iff {cs first second third : List Char} :
    pieces separator cs = [first, second, third] ↔
      cs = first ++ separator :: (second ++ separator :: third) ∧
        separator ∉ first ∧ separator ∉ second ∧ separator ∉ third := by
  constructor
  · intro h
    obtain ⟨hfirst, ⟨-, ⟨⟩⟩ | ⟨others, rfl, hothers⟩⟩ := pieces_eq_cons_iff.1 h
    obtain ⟨hsecond, ⟨-, ⟨⟩⟩ | ⟨last, rfl, hlast⟩⟩ := pieces_eq_cons_iff.1 hothers
    obtain ⟨hthird, ⟨rfl, -⟩ | ⟨rest, rfl, hrest⟩⟩ := pieces_eq_cons_iff.1 hlast
    · exact ⟨rfl, hfirst, hsecond, hthird⟩
    · rw [pieces_eq_splitOn] at hrest
      exact absurd hrest (List.splitOn_ne_nil separator rest)
  · rintro ⟨rfl, hfirst, hsecond, hthird⟩
    rw [pieces_append hfirst, pieces_append hsecond, pieces_of_notMem hthird]

end KernelGrid.Text
