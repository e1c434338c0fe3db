import KernelGrid.Proofs.Stream.StringReads

/-!
# Cursors over many reads

Whatever is read and however it ends, a cursor stands behind exactly the words that were taken
so far. Each read passes what it takes, so a sequence of reads takes the words from its start
one after the other, none twice and none left out.
-/

namespace KernelGrid.Stream

inductive Read where
  | word
  | words (count : Nat)
  | rest
  | string
deriving DecidableEq, Repr

inductive Answer where
  | words (taken : List Word)
  | text (s : String)
deriving DecidableEq, Repr

def returned : Except ModuleError Answer → List Word
  | .ok (.words ws) => ws
  | _ => []

namespace Read

def run : Read → Reader Answer
  | .word => (fun w => .words [w]) <$> Cursor.readWord
  | .words count => .words <$> Cursor.readWords count
  | .rest => .words <$> Cursor.readRest
  | .string => .text <$> Cursor.readString

def count? : Read → Option Nat
  | .word => some 1
  | .words count => some count
  | .rest | .string => none

/-- The words that a read at a cursor takes.  A string takes the words up to its end, also if
it is malformed; all others take what they return. -/
def taken (r : Read) (c : Cursor) : List Word :=
  match r with
  | .string => literalSpan c.rest
  | .word | .words _ | .rest => returned (r.run c).1

end Read

def Cursor.after (c : Cursor) : List Read → Cursor
  | [] => c
  | r :: reads => Cursor.after (r.run c).2 reads

def Cursor.takenBy (c : Cursor) : List Read → List Word
  | [] => []
  | r :: reads => r.taken c ++ Cursor.takenBy (r.run c).2 reads

/-! ## One read -/

variable {c c' : Cursor} {r : Read} {e : ModuleError}

theorem Cursor.advance_advance (c : Cursor) (m n : Nat) :
    (c.advance m).advance n = c.advance (m + n) := by
  simp [Cursor.advance, Nat.add_assoc]

theorem Read.run_of_count {count : Nat} (hcount : r.count? = some count) (c : Cursor) :
    r.run c =
      if c.remaining < count then (.error (.truncated c.offset count c.remaining), c)
      else (.ok (.words (c.rest.take count)), c.advance count) := by
  cases r with
  | word =>
      obtain rfl : 1 = count := Option.some.inj hcount
      obtain ⟨offset, _ | ⟨w, words⟩⟩ := c
      · rfl
      · exact (if_neg (Nat.not_lt.2 (Nat.le_add_left 1 words.length))).symm
  | words n =>
      obtain rfl : n = count := Option.some.inj hcount
      rw [run, map_apply]
      unfold Cursor.readWords
      split <;> rfl
  | rest | string => cases hcount

theorem Read.taken_of_count {count : Nat} (hcount : r.count? = some count) (c : Cursor) :
    r.taken c = if c.remaining < count then [] else c.rest.take count := by
  have htaken : r.taken c = returned (r.run c).1 := by
    cases r with
    | word | words n | rest => rfl
    | string => cases hcount
  rw [htaken, Read.run_of_count hcount]
  split <;> rfl

theorem Read.run_eq_error_iff {count : Nat} (hcount : r.count? = some count) :
    r.run c = (.error e, c') ↔
      c.remaining < count ∧ e = .truncated c.offset count c.remaining ∧ c' = c := by
  rw [Read.run_of_count hcount]
  split
  next hshort =>
    constructor
    · intro h
      cases h
      exact ⟨hshort, rfl, rfl⟩
    · rintro ⟨-, rfl, rfl⟩
      rfl
  next hlong => exact iff_of_false nofun fun h => hlong h.1

/-- What is taken stands at the cursor, and is what the cursor passes. -/
theorem Read.run_passes (r : Read) (c : Cursor) :
    r.taken c <+: c.rest ∧ (r.run c).2 = c.advance (r.taken c).length := by
  cases hcount : r.count? with
  | some count =>
      rw [Read.taken_of_count hcount, Read.run_of_count hcount]
      split
      next hshort => exact ⟨List.nil_prefix, rfl⟩
      next hlong =>
        refine ⟨List.take_prefix count c.rest, ?_⟩
        rw [List.length_take]
        exact congrArg c.advance (Nat.min_eq_left (Nat.not_lt.1 hlong)).symm
  | none =>
      cases r with
      | word | words n => cases hcount
      | rest => exact ⟨List.prefix_rfl, rfl⟩
      | string =>
          refine ⟨literalSpan_isPrefix c.rest, ?_⟩
          rw [run, map_apply]
          exact readString_snd c

/-! ## Many reads -/

theorem Cursor.after_append (c : Cursor) (reads more : List Read) :
    c.after (reads ++ more) = (c.after reads).after more := by
  induction reads generalizing c with
  | nil => rfl
  | cons r reads ih => exact ih _

theorem Cursor.after_passes (c : Cursor) (reads : List Read) :
    c.takenBy reads <+: c.rest ∧ c.after reads = c.advance (c.takenBy reads).length := by
  induction reads generalizing c with
  | nil => exact ⟨List.nil_prefix, rfl⟩
  | cons r reads ih =>
      obtain ⟨hfirst, hnext⟩ := r.run_passes c
      obtain ⟨hothers, hafter⟩ := ih (r.run c).2
      rw [takenBy, after, hafter, hnext, advance_advance, List.length_append]
      refine ⟨?_, rfl⟩
      -- The first read leaves what follows its own words, and the others start there.
      obtain ⟨rest, hrest⟩ := hfirst
      have hleft : (r.run c).2.rest = rest := by
        rw [hnext, advance, ← hrest, List.drop_left]
      rw [hnext] at hleft hothers
      rw [← hrest, List.prefix_append_right_inj]
      exact hleft ▸ hothers

/-- Over any words and from any offset, a cursor that was read in any way, with or without
success, stands between the words that were taken, in their order, and those that are left,
and no further read moves it back.  A read of a number of words fails exactly if fewer are
left; it leaves the cursor where it is and reports its offset, the number asked for and the
number left. -/
theorem reads_accounted (base : Nat) (words : List Word) (reads : List Read) :
    ∃ c position, Cursor.after ⟨base, words⟩ reads = c ∧ position ≤ words.length ∧
      c.offset = base + position ∧ c.remaining = words.length - position ∧
      (c.isEmpty = true ↔ c.remaining = 0) ∧
      Cursor.takenBy ⟨base, words⟩ reads = words.take position ∧ c.rest = words.drop position ∧
      (∀ more, c.offset ≤ (Cursor.after ⟨base, words⟩ (reads ++ more)).offset) ∧
      ∀ (r : Read) (count : Nat), r.count? = some count → ∀ e c', r.run c = (.error e, c') ↔
        c.remaining < count ∧ e = .truncated c.offset count c.remaining ∧ c' = c := by
  obtain ⟨htaken, hafter⟩ := Cursor.after_passes ⟨base, words⟩ reads
  refine ⟨_, (Cursor.takenBy ⟨base, words⟩ reads).length, rfl, htaken.length_le, ?_, ?_, ?_,
    List.prefix_iff_eq_take.1 htaken, ?_, fun more => ?_,
    fun r count hcount e c' => Read.run_eq_error_iff hcount⟩
  · rw [hafter]
    rfl
  · rw [hafter]
    exact List.length_drop
  · rw [Cursor.isEmpty, Cursor.remaining, List.isEmpty_iff, List.length_eq_zero_iff]
  · rw [hafter]
    rfl
  · rw [Cursor.after_append, (Cursor.after_passes _ more).2]
    exact Nat.le_add_right _ _

end KernelGrid.Stream
