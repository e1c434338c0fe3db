import KernelGrid.Inst.Item
import KernelGrid.Proofs.Stream.Reader

/-!
# Reading operands

What each reader of a single operand takes from the words in front of it.
-/

namespace KernelGrid

open KernelGrid.Stream

def IdBelow (bound id : ResultId) : Prop := id ≠ 0 ∧ id < bound

theorem checkId_eq_ok {bound id id' : ResultId} :
    checkId bound id = .ok id' ↔ IdBelow bound id ∧ id' = id := by
  simp only [checkId, IdBelow, ← UInt32.not_le]
  split
  · rename_i h
    constructor
    · intro h'
      cases h'
    · rintro ⟨⟨hzero, hbound⟩, -⟩
      exact absurd h (by simp [hzero, hbound])
  · rename_i h
    rw [not_or] at h
    constructor
    · intro h'
      cases h'
      exact ⟨h, rfl⟩
    · rintro ⟨-, rfl⟩
      rfl

namespace Scope

variable {s : Scope} {offset : Nat} {words : List Word} {c' : Cursor}

theorem word_returns {w : Word} :
    s.word.Returns ⟨offset, words⟩ w c' ↔ ∃ rest, words = w :: rest ∧
      c' = ⟨offset + 1, rest⟩ := by
  rw [word, Reader.returns_adapt, Cursor.readWord_returns]

theorem checked_returns {id id' : ResultId} {c : Cursor} :
    (s.checked id).Returns c id' c' ↔ IdBelow s.bound id ∧ id' = id ∧ c = c' := by
  rw [checked, Reader.returns_ofExcept, checkId_eq_ok, and_assoc]

theorem ref_returns {id : ResultId} :
    s.ref.Returns ⟨offset, words⟩ id c' ↔
      IdBelow s.bound id ∧ ∃ rest, words = id :: rest ∧ c' = ⟨offset + 1, rest⟩ := by
  simp only [ref, Reader.returns_bind, word_returns, checked_returns]
  constructor
  · rintro ⟨_, _, ⟨rest, rfl, rfl⟩, hid, rfl, rfl⟩
    exact ⟨hid, rest, rfl, rfl⟩
  · rintro ⟨hid, rest, rfl, rfl⟩
    exact ⟨_, _, ⟨rest, rfl, rfl⟩, hid, rfl, rfl⟩

theorem mapM_checked_returns {ids ids' : List ResultId} {c : Cursor} :
    Reader.Returns (ids.mapM s.checked) c ids' c' ↔
      (∀ id ∈ ids, IdBelow s.bound id) ∧ ids' = ids ∧ c = c' := by
  induction ids generalizing ids' c c' with
  | nil =>
      rw [List.mapM_nil, Reader.returns_pure, eq_comm]
      simp
  | cons id ids ih =>
      simp only [List.mapM_cons, Reader.returns_bind, Reader.returns_pure, checked_returns, ih,
        List.forall_mem_cons]
      constructor
      · rintro ⟨_, _, ⟨hid, rfl, rfl⟩, _, _, ⟨hids, rfl, rfl⟩, rfl, rfl⟩
        exact ⟨⟨hid, hids⟩, rfl, rfl⟩
      · rintro ⟨⟨hid, hids⟩, rfl, rfl⟩
        exact ⟨_, _, ⟨hid, rfl, rfl⟩, _, _, ⟨hids, rfl, rfl⟩, rfl, rfl⟩

theorem refs_returns {ids : List ResultId} :
    s.refs.Returns ⟨offset, words⟩ ids c' ↔
      (∀ id ∈ words, IdBelow s.bound id) ∧ ids = words ∧ c' = ⟨offset + words.length, []⟩ := by
  simp only [refs, Reader.returns_bind, Cursor.readRest_returns, mapM_checked_returns]
  constructor
  · rintro ⟨_, _, ⟨rfl, rfl⟩, hids, rfl, rfl⟩
    exact ⟨hids, rfl, rfl⟩
  · rintro ⟨hids, rfl, rfl⟩
    exact ⟨_, _, ⟨rfl, rfl⟩, hids, rfl, rfl⟩

theorem ref?_returns {id? : Option ResultId} :
    s.ref?.Returns ⟨offset, words⟩ id? c' ↔
      (∀ id ∈ id?, IdBelow s.bound id) ∧
        ∃ rest, words = id?.toList ++ rest ∧ (id? = none → rest = []) ∧
          c' = ⟨offset + id?.toList.length, rest⟩ := by
  simp only [ref?, Reader.returns_bind]
  constructor
  · rintro ⟨_, _, hget, h⟩
    obtain ⟨rfl, rfl⟩ := Reader.returns_get.1 hget
    cases words with
    | nil =>
        obtain ⟨rfl, rfl⟩ := Reader.returns_pure.1 h
        exact ⟨by simp, [], rfl, fun _ => rfl, rfl⟩
    | cons w words =>
        obtain ⟨_, _, href, h⟩ := Reader.returns_bind.1 h
        obtain ⟨hid, rest, hwords, rfl⟩ := ref_returns.1 href
        obtain ⟨rfl, rfl⟩ := Reader.returns_pure.1 h
        exact ⟨by simpa using hid, rest, hwords, by simp, rfl⟩
  · rintro ⟨hid, rest, rfl, hnone, rfl⟩
    refine ⟨_, _, Reader.returns_get.2 ⟨rfl, rfl⟩, ?_⟩
    cases id? with
    | none =>
        obtain rfl := hnone rfl
        exact Reader.returns_pure.2 ⟨rfl, rfl⟩
    | some id =>
        exact Reader.returns_bind.2
          ⟨_, _, ref_returns.2 ⟨hid id rfl, rest, rfl, rfl⟩, Reader.returns_pure.2 ⟨rfl, rfl⟩⟩

theorem enumerant_returns {v : Vocabulary} {e : Enumerant v} :
    (s.enumerant v).Returns ⟨offset, words⟩ e c' ↔
      ∃ rest, words = e.code :: rest ∧ c' = ⟨offset + 1, rest⟩ := by
  simp only [enumerant, Reader.returns_bind, word_returns]
  constructor
  · rintro ⟨code, _, ⟨rest, rfl, rfl⟩, h⟩
    split at h
    · rename_i e' hcode
      obtain ⟨rfl, rfl⟩ := Reader.returns_pure.1 h
      exact ⟨rest, by rw [Enumerant.code_of_ofCode? hcode], rfl⟩
    · exact absurd h Reader.not_returns_throw
  · rintro ⟨rest, rfl, rfl⟩
    refine ⟨_, _, ⟨rest, rfl, rfl⟩, ?_⟩
    rw [Enumerant.ofCode?_code]
    exact Reader.returns_pure.2 ⟨rfl, rfl⟩

theorem finish_returns {c : Cursor} {u : Unit} :
    s.finish.Returns c u c' ↔ c.rest = [] ∧ c = c' := by
  simp only [finish, Reader.returns_bind]
  constructor
  · rintro ⟨_, _, hget, h⟩
    obtain ⟨rfl, rfl⟩ := Reader.returns_get.1 hget
    by_cases hempty : c.isEmpty
    · rw [if_pos hempty] at h
      obtain ⟨-, rfl⟩ := Reader.returns_pure.1 h
      exact ⟨by simpa [Cursor.isEmpty] using hempty, rfl⟩
    · rw [if_neg hempty] at h
      exact absurd h Reader.not_returns_throw
  · rintro ⟨hrest, rfl⟩
    refine ⟨_, _, Reader.returns_get.2 ⟨rfl, rfl⟩, ?_⟩
    rw [if_pos (by simp [Cursor.isEmpty, hrest])]
    exact Reader.returns_pure.2 ⟨rfl, rfl⟩

end Scope

end KernelGrid
