import KernelGrid.Proofs.Runs
import KernelGrid.Stream.Cursor

/-!
# Readers that succeed

What the single reads return, stated once, so that no proof about a record opens them again.
-/

namespace KernelGrid.Stream

abbrev Reader.Returns {α : Type} (x : Reader α) (c : Cursor) (a : α) (c' : Cursor) : Prop :=
  Runs x c a c'

/-! ## Sequences -/

namespace Reader

variable {α β : Type} {c c' c'' : Cursor}

theorem returns_bind {x : Reader α} {f : α → Reader β} {b : β} :
    (x >>= f).Returns c b c'' ↔ ∃ a c', x.Returns c a c' ∧ (f a).Returns c' b c'' := runs_bind

theorem returns_pure {a b : α} : (pure a : Reader α).Returns c b c' ↔ a = b ∧ c = c' := runs_pure

theorem returns_map {x : Reader α} {f : α → β} {b : β} :
    Returns (f <$> x) c b c' ↔ ∃ a, x.Returns c a c' ∧ f a = b := runs_map

theorem not_returns_throw {e : ModuleError} {a : α} : ¬(throw e : Reader α).Returns c a c' :=
  not_runs_throw

theorem returns_ofExcept {x : Except ModuleError α} {a : α} :
    (MonadExcept.ofExcept x : Reader α).Returns c a c' ↔ x = .ok a ∧ c = c' := runs_ofExcept

theorem returns_get {a : Cursor} : (get : Reader Cursor).Returns c a c' ↔ c = a ∧ c = c' :=
  runs_get

theorem returns_adapt {x : Reader α} {f : ModuleError → ModuleError} {a : α} :
    Returns (ExceptT.adapt f x) c a c' ↔ x.Returns c a c' := runs_adapt

end Reader

/-! ## Single reads -/

namespace Cursor

open Reader

theorem readWord_returns {offset : Nat} {words : List Word} {w : Word} {c' : Cursor} :
    readWord.Returns ⟨offset, words⟩ w c' ↔
      ∃ rest, words = w :: rest ∧ c' = ⟨offset + 1, rest⟩ := by
  cases words with
  | nil =>
      constructor
      · intro h
        cases h
      · rintro ⟨rest, h, -⟩
        cases h
  | cons v rest =>
      constructor
      · intro h
        cases h
        exact ⟨rest, rfl, rfl⟩
      · rintro ⟨rest, h, rfl⟩
        cases h
        rfl

theorem readWords_returns {count offset : Nat} {words taken : List Word} {c' : Cursor} :
    (readWords count).Returns ⟨offset, words⟩ taken c' ↔
      count ≤ words.length ∧ taken = words.take count ∧
        c' = ⟨offset + count, words.drop count⟩ := by
  have hread : readWords count ⟨offset, words⟩ =
      if words.length < count then
        (.error (.truncated offset count words.length), ⟨offset, words⟩)
      else (.ok (words.take count), ⟨offset + count, words.drop count⟩) := rfl
  simp only [Returns, Runs, hread]
  split
  · constructor
    · intro h
      cases h
    · rintro ⟨h, -⟩
      omega
  · constructor
    · intro h
      cases h
      exact ⟨by omega, rfl, rfl⟩
    · rintro ⟨-, rfl, rfl⟩
      rfl

theorem readRest_returns {offset : Nat} {words taken : List Word} {c' : Cursor} :
    readRest.Returns ⟨offset, words⟩ taken c' ↔
      taken = words ∧ c' = ⟨offset + words.length, []⟩ := by
  have hread : readRest ⟨offset, words⟩ =
      (.ok words, ⟨offset + words.length, words.drop words.length⟩) := rfl
  simp only [Returns, Runs, hread, List.drop_length]
  constructor
  · intro h
    cases h
    exact ⟨rfl, rfl⟩
  · rintro ⟨rfl, rfl⟩
    rfl

end Cursor

end KernelGrid.Stream
