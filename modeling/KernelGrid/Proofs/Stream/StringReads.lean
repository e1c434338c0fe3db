import KernelGrid.Proofs.Stream.Literal

/-!
# What a string read returns and passes

Reading a string passes the words up to the one that holds the first zero byte, whether or not
the bytes in front of it are UTF-8, and all words if there is no zero byte.  The string is made
of exactly those bytes, and is written with as many words as were passed.
-/

namespace KernelGrid.Stream

/-- The words that a string takes up: those up to the first that holds a zero byte, or all. -/
def literalSpan : List Word → List Word
  | [] => []
  | w :: words => if 0 ∈ w.bytes then [w] else w :: literalSpan words

theorem literalSpan_isPrefix (words : List Word) : literalSpan words <+: words := by
  induction words with
  | nil => exact List.nil_prefix
  | cons w words ih =>
      rw [literalSpan]
      split
      · exact (List.prefix_cons_inj w).2 List.nil_prefix
      · exact (List.prefix_cons_inj w).2 ih

theorem literalSpan_of_notMem {words : List Word} (hzero : 0 ∉ bytesOfWords words) :
    literalSpan words = words := by
  induction words with
  | nil => rfl
  | cons w words ih =>
      rw [bytesOfWords, List.flatMap_cons, List.mem_append, not_or] at hzero
      rw [literalSpan, if_neg hzero.1, ih hzero.2]

/-- Four bytes that are followed by others hold the first zero byte, or the text in front of it
starts with them. -/
theorem text_lt_or_eq {a b c d : UInt8} {bytes text more : List UInt8}
    (h : a :: b :: c :: d :: bytes = text ++ 0 :: more) (htext : 0 ∉ text) :
    (0 ∈ [a, b, c, d] ∧ text.length < 4) ∨
      (0 ∉ [a, b, c, d] ∧ ∃ tail, text = a :: b :: c :: d :: tail ∧
        bytes = tail ++ 0 :: more) := by
  match text with
  | [] | [_] | [_, _] | [_, _, _] =>
      simp only [List.cons_append, List.nil_append, List.cons.injEq] at h
      left
      simp [h]
  | _ :: _ :: _ :: _ :: tail =>
      simp only [List.cons_append, List.cons.injEq] at h
      obtain ⟨rfl, rfl, rfl, rfl, hbytes⟩ := h
      right
      refine ⟨fun hzero => htext ?_, tail, rfl, hbytes⟩
      exact List.mem_append_left tail hzero

theorem length_literalSpan {words : List Word} {text more : List UInt8}
    (hsplit : bytesOfWords words = text ++ 0 :: more) (htext : 0 ∉ text) :
    (literalSpan words).length = text.length / 4 + 1 := by
  induction words generalizing text with
  | nil =>
      have hempty := congrArg List.length hsplit
      simp [bytesOfWords] at hempty
  | cons w words ih =>
      obtain ⟨a, b, c, d, rfl⟩ := Word.exists_ofBytes w
      rw [bytesOfWords_ofBytes_cons] at hsplit
      rw [literalSpan, Word.bytes_ofBytes]
      obtain ⟨hzero, hshort⟩ | ⟨hzero, tail, rfl, hrest⟩ := text_lt_or_eq hsplit htext
      · rw [if_pos hzero, List.length_singleton]
        omega
      · rw [if_neg hzero, List.length_cons, ih hrest fun h => htext (by simp [h])]
        simp only [List.length_cons]
        omega

/-! ## One read -/

variable {c : Cursor}

theorem fromUTF8?_eq_some_iff {text : List UInt8} {s : String} :
    String.fromUTF8? ⟨text.toArray⟩ = some s ↔ s.toUTF8.data.toList = text := by
  constructor
  · exact toUTF8_of_fromUTF8?
  · rintro rfl
    exact fromUTF8?_toUTF8 s

section Terminated

variable {text more : List UInt8} (hsplit : bytesOfWords c.rest = text ++ 0 :: more)
  (htext : 0 ∉ text)

include hsplit htext

theorem readString_eq_ok_iff {s : String} :
    (Cursor.readString c).1 = .ok s ↔ s.toUTF8.data.toList = text := by
  rw [readString_of_split hsplit htext, ← fromUTF8?_eq_some_iff]
  cases String.fromUTF8? ⟨text.toArray⟩ <;> simp

theorem readString_eq_error_iff {e : ModuleError} :
    (Cursor.readString c).1 = .error e ↔
      e = .badString c.offset ∧ ¬∃ s : String, s.toUTF8.data.toList = text := by
  simp only [readString_of_split hsplit htext, ← fromUTF8?_eq_some_iff]
  cases String.fromUTF8? ⟨text.toArray⟩ <;> simp [eq_comm]

end Terminated

theorem readString_snd (c : Cursor) :
    (Cursor.readString c).2 = c.advance (literalSpan c.rest).length := by
  by_cases hzero : 0 ∈ bytesOfWords c.rest
  · obtain ⟨text, more, hsplit, htext⟩ := List.eq_append_cons_of_mem hzero
    rw [readString_of_split hsplit htext, length_literalSpan hsplit htext]
  · rw [readString_of_notMem hzero, literalSpan_of_notMem hzero]
    rfl

theorem length_literalWords (s : String) :
    (literalWords s).length = s.toUTF8.data.toList.length / 4 + 1 := by
  rw [literalWords_eq_packBytes, length_packBytes]

theorem length_literalWords_of_readString {s : String} (h : (Cursor.readString c).1 = .ok s) :
    (literalWords s).length = (literalSpan c.rest).length := by
  by_cases hzero : 0 ∈ bytesOfWords c.rest
  · obtain ⟨text, more, hsplit, htext⟩ := List.eq_append_cons_of_mem hzero
    rw [length_literalWords, (readString_eq_ok_iff hsplit htext).1 h,
      length_literalSpan hsplit htext]
  · rw [readString_of_notMem hzero] at h
    cases h

/-! ## All reads -/

/-- A string without a zero character is read back from its words, and the read stops behind
them.  From any position the bytes up to the first zero byte are returned if they are UTF-8 and
reported as a bad string at that position if not, and the words up to that byte are passed.
Without a zero byte all words are passed for a bad string.  A string that is returned is
written with as many words as were passed. -/
theorem readString_exact (s : String) (offset : Nat) (tail : List Word) (c : Cursor) :
    ('\x00' ∉ s.toList → Cursor.readString ⟨offset, literalWords s ++ tail⟩ =
      (.ok s, ⟨offset + (literalWords s).length, tail⟩)) ∧
    (0 ∈ bytesOfWords c.rest → ∃ text more, bytesOfWords c.rest = text ++ 0 :: more ∧ 0 ∉ text ∧
      text.length / 4 + 1 ≤ c.remaining ∧
      (Cursor.readString c).2 =
        ⟨c.offset + (text.length / 4 + 1), c.rest.drop (text.length / 4 + 1)⟩ ∧
      (∀ t, (Cursor.readString c).1 = .ok t ↔ t.toUTF8.data.toList = text) ∧
      ∀ e, (Cursor.readString c).1 = .error e ↔
        e = .badString c.offset ∧ ¬∃ t : String, t.toUTF8.data.toList = text) ∧
    (0 ∉ bytesOfWords c.rest → Cursor.readString c =
      (.error (.badString c.offset), ⟨c.offset + c.remaining, []⟩)) ∧
    ∀ t, (Cursor.readString c).1 = .ok t → (literalWords t).length ≤ c.remaining ∧
      (Cursor.readString c).2 = c.advance (literalWords t).length := by
  refine ⟨fun hs => readString_literalWords hs offset tail, fun hzero => ?_, fun hzero => ?_,
    fun t ht => ?_⟩
  · obtain ⟨text, more, hsplit, htext⟩ := List.eq_append_cons_of_mem hzero
    refine ⟨text, more, hsplit, htext, span_le_length hsplit, ?_,
      fun t => readString_eq_ok_iff hsplit htext, fun e => readString_eq_error_iff hsplit htext⟩
    rw [readString_of_split hsplit htext]
    rfl
  · rw [readString_of_notMem hzero, Cursor.advance, Cursor.remaining, List.drop_length]
  · rw [length_literalWords_of_readString ht]
    exact ⟨(literalSpan_isPrefix c.rest).length_le, readString_snd c⟩

end KernelGrid.Stream
