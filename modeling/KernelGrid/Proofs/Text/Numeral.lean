import KernelGrid.Proofs.Runs
import KernelGrid.Text.Numeral
import Mathlib.Data.List.Forall2
import Mathlib.Data.Nat.Digits.Defs
import Mathlib.Tactic.SplitIfs

/-!
# Numerals

A numeral is read exactly if it consists of digits of its base, behind at most one plus sign,
and its value fits a word.  Numbers that are written with digits of either case are numerals.
-/

namespace KernelGrid.Text

def IsDigit (base d : Nat) (c : Char) : Prop :=
  d < base ∧ (c = d.digitChar ∨ c = d.digitChar.toUpper)

/-- One or more digits, most significant first, and the number that they stand for. -/
def IsNumeral (base : Nat) (text : List Char) (n : Nat) : Prop :=
  text ≠ [] ∧ ∃ digits : List Nat, List.Forall₂ (IsDigit base) digits text ∧
    Nat.ofDigits base digits.reverse = n

def IsSigned (base : Nat) (text : List Char) (n : Nat) : Prop :=
  IsNumeral base text n ∨ ∃ digits, text = '+' :: digits ∧ IsNumeral base digits n

variable {base d n : Nat} {c : Char} {text : List Char}

/-! ## Digits -/

theorem toNat_digitChar : ∀ d < 16,
    d.digitChar.toNat = (if d < 10 then 48 + d else 87 + d) ∧
      d.digitChar.toUpper.toNat = if d < 10 then 48 + d else 55 + d := by
  decide

theorem isDigit_iff_toNat (hbase : base ≤ 16) : IsDigit base d c ↔ d < base ∧
    (d < 10 ∧ c.toNat = 48 + d ∨ 10 ≤ d ∧ (c.toNat = 87 + d ∨ c.toNat = 55 + d)) := by
  unfold IsDigit
  refine and_congr_right fun hd => ?_
  obtain ⟨hlower, hupper⟩ := toNat_digitChar d (by omega)
  rw [← Char.toNat_inj, ← Char.toNat_inj, hlower, hupper]
  split <;> omega

theorem digitValue?_eq_some_iff (hbase : base ≤ 16) :
    digitValue? base c = some d ↔ IsDigit base d c := by
  rw [isDigit_iff_toNat hbase]
  have hle (a b : Char) : a ≤ b ↔ a.toNat ≤ b.toNat := Iff.rfl
  obtain ⟨h0, h9, ha, hz, hA, hZ⟩ : '0'.toNat = 48 ∧ '9'.toNat = 57 ∧ 'a'.toNat = 97 ∧
      'z'.toNat = 122 ∧ 'A'.toNat = 65 ∧ 'Z'.toNat = 90 := by decide
  simp only [digitValue?, hle, h0, h9, ha, hz, hA, hZ, Option.ite_none_right_eq_some,
    Option.some.injEq]
  split_ifs <;> omega

theorem not_isDigit (hbase : base ≤ 16) (hc : c ∈ ['+', ':', 'x', 'X']) : ¬IsDigit base d c := by
  rw [isDigit_iff_toNat hbase]
  have hcode : c.toNat ∈ [43, 58, 120, 88] := List.mem_map_of_mem hc
  simp only [List.mem_cons, List.not_mem_nil, or_false] at hcode
  omega

theorem IsDigit.toUpper (hbase : base ≤ 16) (h : IsDigit base d c) :
    IsDigit base d c.toUpper := by
  have hupper : ∀ k < 16, k.digitChar.toUpper.toUpper = k.digitChar.toUpper := by decide
  obtain ⟨hd, rfl | rfl⟩ := h
  · exact ⟨hd, .inr rfl⟩
  · exact ⟨hd, .inr (hupper d (by omega))⟩

/-! ## Values -/

def appendDigits (base value : Nat) (digits : List Nat) : Nat :=
  digits.foldl (fun v d => base * v + d) value

theorem ofDigits_reverse (digits : List Nat) :
    Nat.ofDigits base digits.reverse = appendDigits base 0 digits := by
  rw [Nat.ofDigits_eq_foldr, List.foldr_reverse, appendDigits]
  congr 1
  funext v d
  exact Nat.add_comm d (base * v)

theorem le_appendDigits (hbase : 0 < base) (value : Nat) (digits : List Nat) :
    value ≤ appendDigits base value digits := by
  induction digits generalizing value with
  | nil => exact Nat.le_refl value
  | cons d digits ih =>
      calc value ≤ base * value := Nat.le_mul_of_pos_left value hbase
        _ ≤ base * value + d := Nat.le_add_right _ d
        _ ≤ appendDigits base (base * value + d) digits := ih _

/-! ## Reading -/

theorem appendDigit_eq_ok_iff (hbase : base ≤ 16) {value : Nat} :
    appendDigit base value c = .ok n ↔
      ∃ d, IsDigit base d c ∧ base * value + d = n ∧ n < UInt32.size := by
  simp only [appendDigit, ← digitValue?_eq_some_iff hbase]
  cases digitValue? base c with
  | none => simp
  | some d =>
      simp only [Option.some.injEq, exists_eq_left']
      split
      next hfits =>
        rw [Except.ok.injEq]
        constructor
        · rintro rfl
          exact ⟨rfl, hfits⟩
        · exact And.left
      next hlarge =>
        refine iff_of_false nofun ?_
        rintro ⟨rfl, hfits⟩
        exact hlarge hfits

/-- Digits are read one after the other.  The value only grows, so it never exceeds a word on
the way to a value that does not. -/
theorem foldlM_appendDigit_eq_ok_iff (hpos : 0 < base) (hbase : base ≤ 16) {value : Nat}
    (hvalue : value < UInt32.size) : text.foldlM (appendDigit base) value = .ok n ↔
      ∃ digits, List.Forall₂ (IsDigit base) digits text ∧ appendDigits base value digits = n ∧
        n < UInt32.size := by
  induction text generalizing value with
  | nil =>
      rw [List.foldlM_nil]
      constructor
      · intro h
        cases h
        exact ⟨[], .nil, rfl, hvalue⟩
      · rintro ⟨digits, hdigits, rfl, -⟩
        cases hdigits
        rfl
  | cons c text ih =>
      rw [List.foldlM_cons, except_bind]
      constructor
      · rintro ⟨next, hfirst, hothers⟩
        obtain ⟨d, hd, rfl, hnext⟩ := (appendDigit_eq_ok_iff hbase).1 hfirst
        obtain ⟨digits, hdigits, hn⟩ := (ih hnext).1 hothers
        exact ⟨d :: digits, .cons hd hdigits, hn⟩
      · rintro ⟨_, hdigits, rfl, hn⟩
        cases hdigits with
        | @cons d _ digits _ hd hdigits =>
            have hnext : base * value + d < UInt32.size :=
              Nat.lt_of_le_of_lt (le_appendDigits hpos _ digits) hn
            exact ⟨_, (appendDigit_eq_ok_iff hbase).2 ⟨d, hd, rfl, hnext⟩,
              (ih hnext).2 ⟨digits, hdigits, rfl, hn⟩⟩

theorem parseDigits_eq_ok_iff (hpos : 0 < base) (hbase : base ≤ 16) {w : Word} :
    parseDigits base text = .ok w ↔ ∃ digits, List.Forall₂ (IsDigit base) digits text ∧
      Nat.ofDigits base digits.reverse = w.toNat := by
  have hmap : parseDigits base text = .ok w ↔
      ∃ n, text.foldlM (appendDigit base) 0 = .ok n ∧ UInt32.ofNat n = w := by
    unfold parseDigits
    cases text.foldlM (appendDigit base) 0 <;> simp [Except.map]
  simp only [hmap, foldlM_appendDigit_eq_ok_iff hpos hbase (show 0 < UInt32.size by decide),
    ofDigits_reverse]
  constructor
  · rintro ⟨n, ⟨digits, hdigits, hn, hfits⟩, rfl⟩
    exact ⟨digits, hdigits, hn.trans (UInt32.toNat_ofNat_of_lt' hfits).symm⟩
  · rintro ⟨digits, hdigits, hn⟩
    exact ⟨w.toNat, ⟨digits, hdigits, hn, w.toNat_lt⟩, UInt32.ofNat_toNat⟩

theorem IsNumeral.notMem (hbase : base ≤ 16) (h : IsNumeral base text n)
    (hc : c ∈ ['+', ':', 'x', 'X']) : c ∉ text := by
  obtain ⟨-, digits, hdigits, -⟩ := h
  induction hdigits with
  | nil => exact List.not_mem_nil
  | cons hd _ ih =>
      rw [List.mem_cons, not_or]
      refine ⟨?_, ih⟩
      rintro rfl
      exact not_isDigit hbase hc hd

theorem IsSigned.notMem (hbase : base ≤ 16) (h : IsSigned base text n)
    (hc : c ∈ [':', 'x', 'X']) : c ∉ text := by
  have hmem : c ∈ ['+', ':', 'x', 'X'] := List.mem_cons_of_mem '+' hc
  obtain h | ⟨digits, rfl, h⟩ := h
  · exact h.notMem hbase hmem
  · rw [List.mem_cons, not_or]
    refine ⟨?_, h.notMem hbase hmem⟩
    rintro rfl
    exact absurd hc (by decide)

theorem parseNumeral_eq_ok_iff (hpos : 0 < base) (hbase : base ≤ 16) {w : Word} :
    parseNumeral base text = .ok w ↔ IsSigned base text w.toNat := by
  have hplus (digits : List Char) : ¬IsNumeral base ('+' :: digits) w.toNat := fun h =>
    h.notMem hbase (by decide) List.mem_cons_self
  have hempty : ¬IsNumeral base [] w.toNat := fun h => h.1 rfl
  unfold parseNumeral IsSigned
  split
  · simp [hempty]
  · simp [hempty, hplus]
  next digits hdigits =>
    rw [parseDigits_eq_ok_iff hpos hbase]
    constructor
    · exact fun h => .inr ⟨digits, rfl, hdigits, h⟩
    · rintro (h | ⟨_, heq, h⟩)
      · exact absurd h (hplus digits)
      · cases heq
        exact h.2
  next hne _ hsign =>
    rw [parseDigits_eq_ok_iff hpos hbase]
    constructor
    · exact fun h => .inl ⟨hne, h⟩
    · rintro (h | ⟨digits, rfl, -⟩)
      · exact h.2
      · exact absurd rfl (hsign digits)

/-! ## Writing -/

theorem isNumeral_toDigits (hbase : 1 < base) (n : Nat) :
    IsNumeral base (Nat.toDigits base n) n := by
  refine ⟨Nat.toDigits_ne_nil, ?_⟩
  induction n using Nat.strongRecOn with
  | ind n ih =>
      rw [Nat.toDigits_eq_if hbase]
      split
      next hn => exact ⟨[n], .cons ⟨hn, .inl rfl⟩ .nil, by simp⟩
      next hn =>
        obtain ⟨digits, hdigits, hvalue⟩ := ih _ (Nat.div_lt_self (by omega) hbase)
        have hlast := Nat.mod_lt n (Nat.lt_trans Nat.zero_lt_one hbase)
        refine ⟨digits ++ [n % base], ?_, ?_⟩
        · exact List.rel_append hdigits (.cons ⟨hlast, .inl rfl⟩ .nil)
        · rw [List.reverse_append, List.reverse_singleton, List.singleton_append,
            Nat.ofDigits_cons, hvalue]
          exact Nat.mod_add_div n base

theorem IsNumeral.map_toUpper (hbase : base ≤ 16) (h : IsNumeral base text n) :
    IsNumeral base (text.map Char.toUpper) n := by
  obtain ⟨hne, digits, hdigits, hvalue⟩ := h
  refine ⟨by simpa using hne, digits, ?_, hvalue⟩
  rw [List.forall₂_map_right_iff]
  exact hdigits.imp fun _ _ => IsDigit.toUpper hbase

end KernelGrid.Text
