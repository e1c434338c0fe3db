import KernelGrid.CommandLine.Value
import KernelGrid.Proofs.Text.Numeral
import KernelGrid.Proofs.Text.Pieces

/-!
# Kernels on the command line

A kernel is read exactly from a name that is not empty and two numbers, with colons between
them.  The numbers are those that the texts stand for, so a kernel with a name is read back
from every way to write its numbers.
-/

namespace KernelGrid.CommandLine

open KernelGrid.Text

/-! ## Numbers -/

def IsNumber (text : List Char) (n : Nat) : Prop :=
  IsSigned 10 text n ∨
    ∃ digits, (text = '0' :: 'x' :: digits ∨ text = '0' :: 'X' :: digits) ∧ IsSigned 16 digits n

theorem isNumber_of_mark {mark : Char} (hmark : mark = 'x' ∨ mark = 'X') {digits : List Char}
    {n : Nat} : IsNumber ('0' :: mark :: digits) n ↔ IsSigned 16 digits n := by
  have hmem : mark ∈ [':', 'x', 'X'] := by
    obtain rfl | rfl := hmark <;> decide
  have hten : ¬IsSigned 10 ('0' :: mark :: digits) n := fun h =>
    h.notMem (by decide) hmem (List.mem_cons_of_mem _ List.mem_cons_self)
  obtain rfl | rfl := hmark <;> simp [IsNumber, hten]

theorem parseNumber_eq_ok_iff {text : List Char} {w : Word} :
    parseNumber text = .ok w ↔ IsNumber text w.toNat := by
  unfold parseNumber
  rw [mapError_eq_ok]
  split
  next digits =>
    rw [parseNumeral_eq_ok_iff (by decide) (by decide), isNumber_of_mark (.inl rfl)]
  next digits =>
    rw [parseNumeral_eq_ok_iff (by decide) (by decide), isNumber_of_mark (.inr rfl)]
  next hlower hupper =>
    rw [parseNumeral_eq_ok_iff (by decide) (by decide)]
    constructor
    · exact .inl
    · rintro (h | ⟨digits, rfl | rfl, -⟩)
      · exact h
      · exact absurd rfl (hlower digits)
      · exact absurd rfl (hupper digits)

theorem IsNumber.colon_notMem {text : List Char} {n : Nat} (h : IsNumber text n) :
    ':' ∉ text := by
  obtain h | ⟨digits, htext, h⟩ := h
  · exact h.notMem (by decide) (by decide)
  · have hdigits : ':' ∉ digits := h.notMem (by decide) (by decide)
    obtain rfl | rfl := htext <;> simp [hdigits]

/-- The ways to write a number: in base ten, or in base sixteen with the mark and the digits in
either case. -/
inductive NumberStyle where
  | decimal
  | hexadecimal (upperMark upperDigits : Bool)
deriving DecidableEq, Repr

def NumberStyle.write (style : NumberStyle) (w : Word) : List Char :=
  match style with
  | .decimal => Nat.toDigits 10 w.toNat
  | .hexadecimal upperMark upperDigits =>
    let digits := Nat.toDigits 16 w.toNat
    '0' :: (if upperMark then 'X' else 'x') ::
      if upperDigits then digits.map Char.toUpper else digits

theorem NumberStyle.isNumber_write (style : NumberStyle) (w : Word) :
    IsNumber (style.write w) w.toNat := by
  cases style with
  | decimal => exact .inl (.inl (isNumeral_toDigits (by decide) w.toNat))
  | hexadecimal upperMark upperDigits =>
      have hdigits : IsNumeral 16 (Nat.toDigits 16 w.toNat) w.toNat :=
        isNumeral_toDigits (by decide) w.toNat
      refine (isNumber_of_mark ?_).2 (.inl ?_)
      · cases upperMark <;> simp
      · cases upperDigits with
        | false => exact hdigits
        | true => exact hdigits.map_toUpper (by decide)

/-! ## Kernels -/

theorem parseKernel_of_pieces {text : String} {name signature inputs : List Char}
    (h : pieces ':' text.toList = [name, signature, inputs]) :
    parseKernel text =
      if name = [] then .error (.kernelName text)
      else do
        let bits ← parseNumber signature
        let count ← parseNumber inputs
        return ⟨String.ofList name, ⟨bits⟩, count⟩ := by
  unfold parseKernel
  rw [h]
  cases name <;> rfl

/-- Three pieces with colons between them: a name that is not empty, and two numbers. -/
def IsKernelText (text name : List Char) (bits count : Nat) : Prop :=
  name ≠ [] ∧ ∃ signature inputs, text = name ++ ':' :: (signature ++ ':' :: inputs) ∧
    (':' ∉ name ∧ ':' ∉ signature ∧ ':' ∉ inputs) ∧ IsNumber signature bits ∧
    IsNumber inputs count

theorem parseKernel_eq_ok_iff {text : String} {k : Kernel} :
    parseKernel text = .ok k ↔
      IsKernelText text.toList k.name.toList k.signature.bits.toNat k.inputs.toNat := by
  constructor
  · intro h
    obtain ⟨name, signature, inputs, hpieces⟩ : ∃ name signature inputs,
        pieces ':' text.toList = [name, signature, inputs] := by
      unfold parseKernel at h
      split at h
      next hpieces => exact ⟨_, _, _, hpieces⟩
      · cases h
    rw [parseKernel_of_pieces hpieces] at h
    split at h
    · cases h
    next hname =>
      obtain ⟨bits, hbits, h⟩ := except_bind.1 h
      obtain ⟨count, hcount, h⟩ := except_bind.1 h
      cases h
      rw [String.toList_ofList]
      obtain ⟨htext, hcolons⟩ := pieces_eq_triple_iff.1 hpieces
      exact ⟨hname, signature, inputs, htext, hcolons, parseNumber_eq_ok_iff.1 hbits,
        parseNumber_eq_ok_iff.1 hcount⟩
  · rintro ⟨hname, signature, inputs, htext, hcolons, hsignature, hinputs⟩
    rw [parseKernel_of_pieces (pieces_eq_triple_iff.2 ⟨htext, hcolons⟩), if_neg hname,
      parseNumber_eq_ok_iff.2 hsignature, parseNumber_eq_ok_iff.2 hinputs, String.ofList_toList]
    rfl

theorem exists_parseKernel_iff {text : String} : (∃ k, parseKernel text = .ok k) ↔
    ∃ name bits count, IsKernelText text.toList name bits count ∧ bits < 2 ^ 32 ∧
      count < 2 ^ 32 := by
  simp only [parseKernel_eq_ok_iff]
  constructor
  · rintro ⟨k, hk⟩
    exact ⟨_, _, _, hk, k.signature.bits.toNat_lt, k.inputs.toNat_lt⟩
  · rintro ⟨name, bits, count, htext, hbits, hcount⟩
    refine ⟨⟨String.ofList name, ⟨UInt32.ofNat bits⟩, UInt32.ofNat count⟩, ?_⟩
    rwa [String.toList_ofList, UInt32.toNat_ofNat_of_lt' hbits, UInt32.toNat_ofNat_of_lt' hcount]

def writeKernel (k : Kernel) (signature inputs : NumberStyle) : String :=
  k.name ++ ":" ++ String.ofList (signature.write k.signature.bits) ++ ":" ++
    String.ofList (inputs.write k.inputs)

theorem toList_writeKernel (k : Kernel) (signature inputs : NumberStyle) :
    (writeKernel k signature inputs).toList =
      k.name.toList ++
      ':' :: (signature.write k.signature.bits ++ ':' :: inputs.write k.inputs) := by
  have hcolon : ":".toList = [':'] := rfl
  simp [writeKernel, hcolon]

theorem parseKernel_writeKernel {k : Kernel} (hname : k.name ≠ "") (hcolon : ':' ∉ k.name.toList)
    (signature inputs : NumberStyle) : parseKernel (writeKernel k signature inputs) = .ok k := by
  have hsignature := signature.isNumber_write k.signature.bits
  have hinputs := inputs.isNumber_write k.inputs
  refine parseKernel_eq_ok_iff.2 ⟨?_, _, _, toList_writeKernel k signature inputs,
    ⟨hcolon, hsignature.colon_notMem, hinputs.colon_notMem⟩, hsignature, hinputs⟩
  exact fun h => hname (String.toList_eq_nil_iff.1 h)

/-- A text is read as a kernel exactly if it has three pieces between colons, a name that is
not empty and two numbers that fit a word, and the kernel has that name and those numbers.  A
kernel is read back from every way to write it if its name is not empty and holds no colon. -/
theorem parseKernel_exact (text : String) (k : Kernel) :
    ((∃ read, parseKernel text = .ok read) ↔ ∃ name bits count,
      IsKernelText text.toList name bits count ∧ bits < 2 ^ 32 ∧ count < 2 ^ 32) ∧
    (parseKernel text = .ok k ↔
      IsKernelText text.toList k.name.toList k.signature.bits.toNat k.inputs.toNat) ∧
    (k.name ≠ "" → ':' ∉ k.name.toList → ∀ signature inputs : NumberStyle,
      parseKernel (writeKernel k signature inputs) = .ok k) :=
  ⟨exists_parseKernel_iff, parseKernel_eq_ok_iff, parseKernel_writeKernel⟩

-- Signs, zeros in front and digits of either case are all allowed.
example : parseKernel "fill:+0035:0X+1a" = .ok ⟨"fill", ⟨35⟩, 26⟩ := by decide

/-- A kernel without a name is written as an argument that is refused. -/
theorem not_parseKernel_writeKernel : ¬∀ k : Kernel, ':' ∉ k.name.toList →
    ∀ signature inputs : NumberStyle, parseKernel (writeKernel k signature inputs) = .ok k := by
  intro hall
  have hread := hall ⟨"", ⟨35⟩, 1⟩ (by decide) .decimal .decimal
  have htext : writeKernel ⟨"", ⟨35⟩, 1⟩ .decimal .decimal = ":35:1" := by decide
  have herror : parseKernel ":35:1" = .error (.kernelName ":35:1") := by decide
  rw [htext, herror] at hread
  cases hread

end KernelGrid.CommandLine
