import KernelGrid.Proofs.Stream.Reader
import KernelGrid.Stream.Literal
import KernelGrid.Proofs.Word
import Mathlib.Data.List.TakeWhile

/-!
# Literal strings in streams

A string is written as its bytes, a zero byte and padding.  Reading it back gives the string
and stops behind its last word; reading any other words passes the same number of words that
the string read from them is written with, and changes the padding only.
-/

namespace KernelGrid.Stream

theorem bytesOfWords_ofBytes_cons (a b c d : UInt8) (words : List Word) :
    bytesOfWords (Word.ofBytes a b c d :: words) = a :: b :: c :: d :: bytesOfWords words := by
  simp [bytesOfWords, Word.bytes_ofBytes]

/-! ## Packing -/

/-- Bytes as words, with at least one zero byte behind them. -/
def packBytes : List UInt8 → List Word
  | a :: b :: c :: d :: rest => Word.ofBytes a b c d :: packBytes rest
  | [a, b, c] => [Word.ofBytes a b c 0]
  | [a, b] => [Word.ofBytes a b 0 0]
  | [a] => [Word.ofBytes a 0 0 0]
  | [] => [Word.ofBytes 0 0 0 0]

theorem littleEndianWord_eq (bytes : Array UInt8) (i : Nat) :
    littleEndianWord bytes i =
      Word.ofBytes (bytes.getD (4 * i) 0) (bytes.getD (4 * i + 1) 0)
        (bytes.getD (4 * i + 2) 0) (bytes.getD (4 * i + 3) 0) := rfl

theorem littleEndianWord_succ (a b c d : UInt8) (rest : List UInt8) (i : Nat) :
    littleEndianWord ⟨a :: b :: c :: d :: rest⟩ (i + 1) = littleEndianWord ⟨rest⟩ i := by
  simp only [littleEndianWord_eq, Array.getD_eq_getD_getElem?, List.getElem?_toArray]
  rw [show 4 * (i + 1) = 4 * i + 1 + 1 + 1 + 1 by omega]
  simp only [List.getElem?_cons_succ]

theorem map_littleEndianWord (bytes : List UInt8) :
    (List.range (bytes.length / 4 + 1)).map (littleEndianWord ⟨bytes⟩) = packBytes bytes := by
  fun_induction packBytes bytes with
  | case1 a b c d rest ih =>
      have hlength : (a :: b :: c :: d :: rest).length / 4 + 1 = rest.length / 4 + 1 + 1 := by
        simp only [List.length_cons]
        omega
      rw [hlength, List.range_succ_eq_map, List.map_cons, List.map_map, ← ih]
      congr 1
      apply List.map_congr_left
      intro i _
      exact littleEndianWord_succ a b c d rest i
  | case2 | case3 | case4 | case5 => simp [List.range_succ, littleEndianWord_eq]

theorem literalWords_eq_packBytes (s : String) :
    literalWords s = packBytes s.toUTF8.data.toList :=
  map_littleEndianWord s.toUTF8.data.toList

theorem length_packBytes (bytes : List UInt8) :
    (packBytes bytes).length = bytes.length / 4 + 1 := by
  rw [← map_littleEndianWord]
  simp

theorem bytesOfWords_packBytes (bytes : List UInt8) (words : List Word) :
    ∃ zeros, bytesOfWords (packBytes bytes ++ words) =
      bytes ++ 0 :: (List.replicate zeros 0 ++ bytesOfWords words) := by
  fun_induction packBytes bytes with
  | case1 a b c d rest ih =>
      obtain ⟨zeros, hzeros⟩ := ih
      exact ⟨zeros, by rw [List.cons_append, bytesOfWords_ofBytes_cons, hzeros]; rfl⟩
  | case2 a b c => exact ⟨0, by simp [bytesOfWords_ofBytes_cons]⟩
  | case3 a b => exact ⟨1, by simp [bytesOfWords_ofBytes_cons]⟩
  | case4 a => exact ⟨2, by simp [bytesOfWords_ofBytes_cons, List.replicate]⟩
  | case5 => exact ⟨3, by simp [bytesOfWords_ofBytes_cons, List.replicate]⟩

/-! ## Padding -/

def padWord (w : Word) : Word :=
  match w.bytes with
  | [a, b, c, d] =>
    if a = 0 then 0 else if b = 0 then Word.ofBytes a 0 0 0
    else if c = 0 then Word.ofBytes a b 0 0 else if d = 0 then Word.ofBytes a b c 0 else w
  | _ => w

/-- Words from the start of a string on, with zeros between the string and the end of its last
word. -/
def padString : List Word → List Word
  | [] => []
  | w :: words => if 0 ∈ w.bytes then padWord w :: words else w :: padString words

theorem length_padString (words : List Word) : (padString words).length = words.length := by
  induction words with
  | nil => rfl
  | cons w words ih =>
      rw [padString]
      split
      · rfl
      · rw [List.length_cons, List.length_cons, ih]

theorem padString_eq (words : List Word) :
    let text := (bytesOfWords words).takeWhile (· ≠ 0)
    text.length ≠ (bytesOfWords words).length →
      padString words = packBytes text ++ words.drop (text.length / 4 + 1) := by
  induction words with
  | nil => simp [bytesOfWords]
  | cons w words ih =>
      obtain ⟨a, b, c, d, rfl⟩ := Word.exists_ofBytes w
      simp only [bytesOfWords_ofBytes_cons, padString, Word.bytes_ofBytes, padWord]
      by_cases ha : a = 0
      · simp [ha, packBytes, Word.ofBytes]
      by_cases hb : b = 0
      · simp [ha, hb, packBytes]
      by_cases hc : c = 0
      · simp [ha, hb, hc, packBytes]
      by_cases hd : d = 0
      · simp [ha, hb, hc, hd, packBytes]
      -- No zero in this word: the string goes on, and so does the induction.
      have hzero : (0 : UInt8) ∉ [a, b, c, d] := by
        simp [Ne.symm ha, Ne.symm hb, Ne.symm hc, Ne.symm hd]
      intro hlength
      simp only [ha, hb, hc, hd, hzero, List.takeWhile_cons, ne_eq, not_false_eq_true,
        decide_true, if_true, if_false, List.length_cons, packBytes] at hlength ⊢
      rw [ih (by simpa using hlength), List.cons_append]
      congr 2
      rw [show ∀ n, (n + 1 + 1 + 1 + 1) / 4 + 1 = n / 4 + 1 + 1 by omega, List.drop_succ_cons]

/-! ## Reading -/

theorem utf8_eq_flatMap (s : String) :
    s.toUTF8.data.toList = s.toList.flatMap String.utf8EncodeChar := by
  rw [String.toUTF8_eq_toByteArray, ← String.utf8Encode_toList, List.utf8Encode]
  simp

theorem zero_notMem_utf8EncodeChar {c : Char} (hc : c ≠ '\x00') :
    0 ∉ String.utf8EncodeChar c := by
  have hpos : 0 < c.val.toNat := by
    by_contra hzero
    exact hc (Char.ext (UInt32.toNat_inj.1 (by simpa using hzero)))
  fun_cases String.utf8EncodeChar c
  all_goals
    simp only [List.mem_cons, List.not_mem_nil, or_false, not_or, ← UInt8.toNat_inj,
      UInt8.toNat_ofNat', UInt8.toNat_zero]
    omega

/-- The bytes of a string hold a zero only where it has a zero character. -/
theorem zero_mem_utf8 {s : String} : 0 ∈ s.toUTF8.data.toList ↔ '\x00' ∈ s.toList := by
  rw [utf8_eq_flatMap, List.mem_flatMap]
  constructor
  · rintro ⟨c, hc, hzero⟩
    by_cases h : c = '\x00'
    · exact h ▸ hc
    · exact absurd hzero (zero_notMem_utf8EncodeChar h)
  · intro h
    exact ⟨_, h, by decide⟩

theorem toUTF8_of_fromUTF8? {bytes : List UInt8} {s : String}
    (h : String.fromUTF8? ⟨bytes.toArray⟩ = some s) : s.toUTF8.data.toList = bytes := by
  rw [String.fromUTF8?] at h
  split at h
  · cases h
    rfl
  · cases h

theorem fromUTF8?_toUTF8 (s : String) :
    String.fromUTF8? ⟨s.toUTF8.data.toList.toArray⟩ = some s := by
  rw [Array.toArray_toList, String.fromUTF8?]
  exact dif_pos s.isValidUTF8

theorem bytesOfWords_append (words words' : List Word) :
    bytesOfWords (words ++ words') = bytesOfWords words ++ bytesOfWords words' :=
  List.flatMap_append

theorem length_bytesOfWords (words : List Word) :
    (bytesOfWords words).length = 4 * words.length := by
  induction words with
  | nil => rfl
  | cons w words ih =>
      have hlength : (bytesOfWords (w :: words)).length = 4 + (bytesOfWords words).length :=
        List.length_append
      rw [hlength, ih, List.length_cons]
      omega

theorem readString_returns {offset : Nat} {words : List Word} {c' : Cursor} {s : String}
    (h : Cursor.readString.Returns ⟨offset, words⟩ s c') :
    padString words = literalWords s ++ c'.rest ∧ '\x00' ∉ s.toList := by
  simp only [Reader.Returns, Runs, Cursor.readString] at h
  split at h
  · cases h
  · rename_i hlength
    split at h
    · rename_i t ht
      cases h
      have hbytes := toUTF8_of_fromUTF8? ht
      constructor
      · rw [padString_eq words hlength, literalWords_eq_packBytes, hbytes]
        rfl
      · rw [← zero_mem_utf8, hbytes]
        intro hzero
        simpa using List.all_eq_true.1 List.all_takeWhile 0 hzero
    · cases h

theorem takeWhile_append_zero {text : List UInt8} (htext : 0 ∉ text) (more : List UInt8) :
    (text ++ 0 :: more).takeWhile (· ≠ 0) = text := by
  rw [List.takeWhile_append_of_pos]
  · simp
  · intro b hb
    simpa using fun h : b = 0 => htext (h ▸ hb)

/-- The bytes in front of the first zero byte are the string, and the word of that byte is its
last. -/
theorem readString_of_split {c : Cursor} {text more : List UInt8}
    (hsplit : bytesOfWords c.rest = text ++ 0 :: more) (htext : 0 ∉ text) :
    Cursor.readString c =
      ((String.fromUTF8? ⟨text.toArray⟩).elim (.error (.badString c.offset)) .ok,
        c.advance (text.length / 4 + 1)) := by
  simp only [Cursor.readString, hsplit, takeWhile_append_zero htext]
  rw [if_neg (by simp)]
  cases String.fromUTF8? ⟨text.toArray⟩ <;> rfl

theorem readString_of_notMem {c : Cursor} (hzero : 0 ∉ bytesOfWords c.rest) :
    Cursor.readString c = (.error (.badString c.offset), c.advance c.remaining) := by
  have htext : (bytesOfWords c.rest).takeWhile (· ≠ 0) = bytesOfWords c.rest := by
    rw [List.takeWhile_eq_self_iff]
    intro b hb
    simpa using fun h : b = 0 => hzero (h ▸ hb)
  simp only [Cursor.readString, htext]
  rfl

theorem readString_of_bytes {s : String} {padding : List UInt8} {literal : List Word}
    (hliteral : bytesOfWords literal = s.toUTF8.data.toList ++ 0 :: padding)
    (hs : '\x00' ∉ s.toList) (hpadding : padding.length < 4) (offset : Nat) (rest : List Word) :
    Cursor.readString.Returns ⟨offset, literal ++ rest⟩ s ⟨offset + literal.length, rest⟩ := by
  have hzero : 0 ∉ s.toUTF8.data.toList := fun h => hs (zero_mem_utf8.1 h)
  have hvalid := fromUTF8?_toUTF8 s
  generalize s.toUTF8.data.toList = bytes at hzero hvalid hliteral
  have hlength : bytes.length / 4 + 1 = literal.length := by
    have hcount := congrArg List.length hliteral
    rw [length_bytesOfWords, List.length_append, List.length_cons] at hcount
    omega
  have hall : bytesOfWords (literal ++ rest) = bytes ++ 0 :: (padding ++ bytesOfWords rest) := by
    rw [bytesOfWords_append, hliteral, List.append_assoc, List.cons_append]
  rw [Reader.Returns, Runs, readString_of_split (c := ⟨offset, literal ++ rest⟩) hall hzero,
    hvalid, hlength]
  simp [Cursor.advance]

theorem readString_literalWords {s : String} (hs : '\x00' ∉ s.toList) (offset : Nat)
    (rest : List Word) :
    Cursor.readString.Returns ⟨offset, literalWords s ++ rest⟩ s
      ⟨offset + (literalWords s).length, rest⟩ := by
  obtain ⟨zeros, hzeros⟩ := bytesOfWords_packBytes s.toUTF8.data.toList []
  rw [List.append_nil, ← literalWords_eq_packBytes] at hzeros
  refine readString_of_bytes hzeros hs ?_ offset rest
  have hcount := congrArg List.length hzeros
  rw [length_bytesOfWords, literalWords_eq_packBytes, length_packBytes, List.length_append,
    List.length_cons] at hcount
  omega

theorem span_le_length {words : List Word} {text more : List UInt8}
    (h : bytesOfWords words = text ++ 0 :: more) : text.length / 4 + 1 ≤ words.length := by
  have hcount := congrArg List.length h
  rw [length_bytesOfWords, List.length_append, List.length_cons] at hcount
  omega

/-- Text that ends with a zero byte fills all words but the last, which holds the zero byte. -/
theorem bytesOfWords_take {words : List Word} {text more : List UInt8}
    (h : bytesOfWords words = text ++ 0 :: more) :
    ∃ padding, bytesOfWords (words.take (text.length / 4 + 1)) = text ++ 0 :: padding ∧
      padding.length < 4 := by
  have hwords := span_le_length h
  have hcount : (bytesOfWords (words.take (text.length / 4 + 1))).length =
      4 * (text.length / 4 + 1) := by
    rw [length_bytesOfWords, List.length_take, Nat.min_eq_left hwords]
  have hsplit := bytesOfWords_append (words.take (text.length / 4 + 1))
    (words.drop (text.length / 4 + 1))
  rw [List.take_append_drop, h] at hsplit
  obtain ⟨xs, hliteral, hxs⟩ | ⟨xs, htext, -⟩ := List.append_eq_append_iff.1 hsplit
  · rw [hliteral, List.length_append] at hcount
    cases xs with
    | nil =>
        rw [List.length_nil] at hcount
        omega
    | cons x padding =>
        obtain ⟨rfl, -⟩ := List.cons.inj hxs
        rw [List.length_cons] at hcount
        exact ⟨padding, hliteral, by omega⟩
  · have hlonger := congrArg List.length htext
    rw [List.length_append, hcount] at hlonger
    omega

/-- No other words are read as a string. -/
theorem exists_readString_returns {offset : Nat} {words rest : List Word} :
    (∃ s end_, Cursor.readString.Returns ⟨offset, words⟩ s ⟨end_, rest⟩) ↔
      ∃ (s : String) (padding : List UInt8) (literal : List Word), words = literal ++ rest ∧
        bytesOfWords literal = s.toUTF8.data.toList ++ 0 :: padding ∧ '\x00' ∉ s.toList ∧
        padding.length < 4 := by
  constructor
  · rintro ⟨s, end_, h⟩
    have hs := (readString_returns h).2
    rw [Reader.Returns, Runs] at h
    by_cases hzero : 0 ∈ bytesOfWords words
    · obtain ⟨text, more, hsplit, htext⟩ := List.eq_append_cons_of_mem hzero
      rw [readString_of_split (c := ⟨offset, words⟩) hsplit htext] at h
      cases hread : String.fromUTF8? ⟨text.toArray⟩ with
      | none =>
          rw [hread] at h
          cases h
      | some t =>
          rw [hread] at h
          cases h
          obtain ⟨padding, hliteral, hpadding⟩ := bytesOfWords_take hsplit
          rw [← toUTF8_of_fromUTF8? hread] at hliteral ⊢
          exact ⟨s, padding, _, (List.take_append_drop _ _).symm, hliteral, hs, hpadding⟩
    · rw [readString_of_notMem (c := ⟨offset, words⟩) hzero] at h
      cases h
  · rintro ⟨s, padding, literal, rfl, hliteral, hs, hpadding⟩
    exact ⟨s, _, readString_of_bytes hliteral hs hpadding offset rest⟩

end KernelGrid.Stream
