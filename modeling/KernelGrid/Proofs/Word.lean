import KernelGrid.Word
import Mathlib.Tactic.IntervalCases

/-!
# Words

A word is put together from four bytes, or from two halves, and checked arithmetic of words is
that of numbers as long as it succeeds.
-/

namespace KernelGrid.Word

theorem getLsbD_umod_twoPow (x : BitVec 32) {k : Nat} (hk : k < 32) (i : Nat) :
    (x % BitVec.ofNat 32 (2 ^ k)).getLsbD i = (decide (i < k) && x.getLsbD i) := by
  have hpow : 2 ^ k < 2 ^ 32 := Nat.pow_lt_pow_right (by omega) hk
  rw [BitVec.getLsbD, BitVec.toNat_umod, BitVec.toNat_ofNat, Nat.mod_eq_of_lt hpow,
    Nat.testBit_mod_two_pow, BitVec.getLsbD]

/-! ## Bytes -/

theorem ofBytes_bytes (w : Word) :
    ofBytes w.toUInt8 (w >>> 8).toUInt8 (w >>> 16).toUInt8 (w >>> 24).toUInt8 = w := by
  have hmod (x : BitVec 32) (i : Nat) :
      (x % 256#32).getLsbD i = (decide (i < 8) && x.getLsbD i) :=
    getLsbD_umod_twoPow x (show 8 < 32 by omega) i
  apply UInt32.eq_of_toBitVec_eq
  apply BitVec.eq_of_getLsbD_eq
  intro i hi
  simp [ofBytes, hmod]
  interval_cases i <;> simp

theorem bytes_ofBytes (a b c d : UInt8) : (ofBytes a b c d).bytes = [a, b, c, d] := by
  simp only [ofBytes, bytes, List.cons.injEq, and_true]
  refine ⟨?_, ?_, ?_, ?_⟩
  all_goals
    apply UInt8.eq_of_toBitVec_eq
    apply BitVec.eq_of_getLsbD_eq
    intro i hi
    interval_cases i <;> simp

theorem exists_ofBytes (w : Word) : ∃ a b c d, w = ofBytes a b c d :=
  ⟨_, _, _, _, (ofBytes_bytes w).symm⟩

/-! ## Halves -/

theorem shiftRight_halves {high : Word} (hhigh : high.toNat < 2 ^ 16) (low : UInt16) :
    (high <<< 16 ||| low.toUInt32) >>> 16 = high := by
  apply UInt32.eq_of_toBitVec_eq
  apply BitVec.eq_of_getLsbD_eq
  intro i hi
  by_cases hlow : i < 16
  · interval_cases i <;> simp
  · have hbit : high.toBitVec.getLsbD i = false := by
      rw [BitVec.getLsbD]
      apply Nat.testBit_lt_two_pow
      calc high.toNat < 2 ^ 16 := hhigh
        _ ≤ 2 ^ i := Nat.pow_le_pow_right (by omega) (by omega)
    rw [hbit]
    simp
    omega

theorem toUInt16_halves (high : Word) (low : UInt16) :
    (high <<< 16 ||| low.toUInt32).toUInt16 = low := by
  apply UInt16.eq_of_toBitVec_eq
  apply BitVec.eq_of_getLsbD_eq
  intro i hi
  interval_cases i <;> simp

theorem halves_eq (w : Word) : (w >>> 16) <<< 16 ||| w.toUInt16.toUInt32 = w := by
  have hmod (x : BitVec 32) (i : Nat) :
      (x % 65536#32).getLsbD i = (decide (i < 16) && x.getLsbD i) :=
    getLsbD_umod_twoPow x (show 16 < 32 by omega) i
  apply UInt32.eq_of_toBitVec_eq
  apply BitVec.eq_of_getLsbD_eq
  intro i hi
  simp [hmod]
  interval_cases i <;> simp

/-! ## Numbers and order -/

theorem toNat_toUInt32 {n : Nat} {w : Word} (hn : n < w.toNat) : n.toUInt32.toNat = n :=
  UInt32.toNat_ofNat_of_lt' (hn.trans w.toNat_lt)

theorem max_of_le {v w : Word} (h : v ≤ w) : max w v = w := by
  change (if w ≤ v then v else w) = w
  split
  · rename_i hle
    exact UInt32.le_antisymm h hle
  · rfl

theorem le_max_left (v w : Word) : v ≤ max v w := by
  change v ≤ if v ≤ w then w else v
  split
  · rename_i hle
    exact hle
  · exact UInt32.le_refl v

theorem le_max_right (v w : Word) : w ≤ max v w := by
  change w ≤ if v ≤ w then w else v
  split
  · exact UInt32.le_refl w
  · rename_i hle
    exact UInt32.le_of_lt (UInt32.not_le.1 hle)

theorem max_le {u v w : Word} (hu : u ≤ w) (hv : v ≤ w) : max u v ≤ w := by
  change (if u ≤ v then v else u) ≤ w
  split
  · exact hv
  · exact hu

theorem one_le {w : Word} (hw : w ≠ 0) : 1 ≤ w := by
  rw [Ne, ← UInt32.toNat_inj] at hw
  rw [UInt32.le_iff_toNat_le]
  exact Nat.one_le_iff_ne_zero.2 hw

theorem lt_next {w v : Word} (hw : next w ≤ v) (hv : v < 0xffffffff) : w < next w := by
  unfold next at hw ⊢
  split
  · rename_i hmax
    rw [if_pos hmax, hmax] at hw
    exact absurd (UInt32.lt_of_le_of_lt hw hv) (UInt32.lt_irrefl _)
  · rename_i hmax
    rw [← UInt32.toNat_inj] at hmax
    rw [UInt32.lt_iff_toNat_lt, UInt32.toNat_add]
    have hlt := w.toNat_lt
    simp at hmax ⊢
    omega

theorem next_eq_self {w : Word} : next w = w ↔ w = 0xffffffff := by
  constructor
  · intro heq
    by_contra hmax
    rw [next, if_neg hmax] at heq
    have hnat := congrArg UInt32.toNat heq
    rw [UInt32.toNat_add] at hnat
    have hlt := w.toNat_lt
    have hone : (1 : UInt32).toNat = 1 := rfl
    omega
  · rintro rfl
    rfl

theorem le_next (w : Word) : w ≤ next w := by
  by_cases hmax : next w < 0xffffffff
  · exact UInt32.le_of_lt (lt_next (UInt32.le_refl _) hmax)
  · rw [UInt32.not_lt] at hmax
    refine UInt32.le_trans ?_ hmax
    rw [UInt32.le_iff_toNat_le]
    exact Nat.le_of_lt_succ w.toNat_lt

/-! ## Checked arithmetic -/

variable {a b c : Word}

theorem add?_eq_some : add? a b = some c ↔ c.toNat = a.toNat + b.toNat := by
  have hc : c.toNat < UInt32.size := c.toNat_lt
  unfold add?
  split
  next hlt =>
    rw [Option.some.injEq, ← UInt32.toNat_inj, UInt32.toNat_add, Nat.mod_eq_of_lt hlt, eq_comm]
  next hge => exact iff_of_false nofun (by omega)

theorem add?_eq_none : add? a b = none ↔ UInt32.size ≤ a.toNat + b.toNat := by
  unfold add?
  split <;> simp <;> omega

theorem mul?_eq_some : mul? a b = some c ↔ c.toNat = a.toNat * b.toNat := by
  have hc : c.toNat < UInt32.size := c.toNat_lt
  unfold mul?
  split
  next hlt =>
    rw [Option.some.injEq, ← UInt32.toNat_inj, UInt32.toNat_mul, Nat.mod_eq_of_lt hlt, eq_comm]
  next hge => exact iff_of_false nofun (by omega)

theorem mul?_eq_none : mul? a b = none ↔ UInt32.size ≤ a.toNat * b.toNat := by
  unfold mul?
  split <;> simp <;> omega

end KernelGrid.Word
