import KernelGrid.Proofs.Stream.Literal

/-!
# Byte order

A stream that starts with the magic number is read alike in either byte order.  Written words
are read back unless the first of them is the magic number with its bytes reversed, and what
was read from a stream is written as the same bytes, each word least significant byte first.
-/

namespace KernelGrid

namespace Word

def byteSwap (w : Word) : Word :=
  ofBytes (w >>> 24).toUInt8 (w >>> 16).toUInt8 (w >>> 8).toUInt8 w.toUInt8

theorem byteSwap_ofBytes (a b c d : UInt8) :
    byteSwap (ofBytes a b c d) = ofBytes d c b a := by
  have hbytes := bytes_ofBytes a b c d
  simp only [bytes, List.cons.injEq, and_true] at hbytes
  obtain ⟨ha, hb, hc, hd⟩ := hbytes
  rw [byteSwap, ha, hb, hc, hd]

theorem byteSwap_byteSwap (w : Word) : w.byteSwap.byteSwap = w := by
  obtain ⟨a, b, c, d, rfl⟩ := exists_ofBytes w
  rw [byteSwap_ofBytes, byteSwap_ofBytes]

theorem bytes_byteSwap (w : Word) : w.byteSwap.bytes = w.bytes.reverse := by
  obtain ⟨a, b, c, d, rfl⟩ := exists_ofBytes w
  rw [byteSwap_ofBytes, bytes_ofBytes, bytes_ofBytes]
  rfl

end Word

namespace Stream

/-- The bytes of words, each word most significant byte first. -/
def bigEndianBytes (words : List Word) : List UInt8 :=
  words.flatMap fun w => w.bytes.reverse

def reverseGroups : List UInt8 → List UInt8
  | a :: b :: c :: d :: rest => d :: c :: b :: a :: reverseGroups rest
  | rest => rest

def bigEndianMagic : List UInt8 := [0x07, 0x23, 0x02, 0x03]

/-! ## Bytes and words -/

theorem bytesOfWords_injective : Function.Injective bytesOfWords := by
  intro words
  induction words with
  | nil =>
      intro words' h
      cases words' with
      | nil => rfl
      | cons w words' => simp [bytesOfWords, Word.bytes] at h
  | cons w words ih =>
      intro words' h
      cases words' with
      | nil => simp [bytesOfWords, Word.bytes] at h
      | cons w' words' =>
          obtain ⟨a, b, c, d, rfl⟩ := Word.exists_ofBytes w
          obtain ⟨a', b', c', d', rfl⟩ := Word.exists_ofBytes w'
          simp only [bytesOfWords_ofBytes_cons, List.cons.injEq] at h
          obtain ⟨rfl, rfl, rfl, rfl, hrest⟩ := h
          rw [ih hrest]

theorem exists_bytesOfWords (bytes : List UInt8) (h : 4 ∣ bytes.length) :
    ∃ words, bytesOfWords words = bytes := by
  fun_induction reverseGroups bytes with
  | case1 a b c d rest ih =>
      obtain ⟨words, hwords⟩ := ih (by simpa [Nat.dvd_add_left] using h)
      exact ⟨Word.ofBytes a b c d :: words, by rw [bytesOfWords_ofBytes_cons, hwords]⟩
  | case2 rest hshort =>
      match rest with
      | [] => exact ⟨[], rfl⟩
      | [_] | [_, _] | [_, _, _] => simp at h
      | a :: b :: c :: d :: rest => exact absurd rfl (hshort a b c d rest)

theorem bytesOfWords_map_byteSwap (words : List Word) :
    bytesOfWords (words.map Word.byteSwap) = reverseGroups (bytesOfWords words) := by
  induction words with
  | nil => rfl
  | cons w words ih =>
      obtain ⟨a, b, c, d, rfl⟩ := Word.exists_ofBytes w
      rw [List.map_cons, Word.byteSwap_ofBytes, bytesOfWords_ofBytes_cons, ih,
        bytesOfWords_ofBytes_cons, reverseGroups]

theorem bigEndianBytes_eq (words : List Word) :
    bigEndianBytes words = bytesOfWords (words.map Word.byteSwap) := by
  simp only [bigEndianBytes, bytesOfWords, List.flatMap_map, Word.bytes_byteSwap]

/-! ## Reading -/

theorem bigEndianWord_eq (bytes : Array UInt8) (i : Nat) :
    bigEndianWord bytes i = (littleEndianWord bytes i).byteSwap := by
  rw [littleEndianWord_eq, Word.byteSwap_ofBytes]
  rfl

theorem littleEndianWord_zero (w : Word) (words : List Word) :
    littleEndianWord (bytesOfWords (w :: words)).toArray 0 = w := by
  obtain ⟨a, b, c, d, rfl⟩ := Word.exists_ofBytes w
  simp [bytesOfWords_ofBytes_cons, littleEndianWord_eq]

theorem map_littleEndianWord_range (words : List Word) :
    (List.range words.length).map (littleEndianWord (bytesOfWords words).toArray) = words := by
  induction words with
  | nil => rfl
  | cons w words ih =>
      have hsucc (i : Nat) : littleEndianWord (bytesOfWords (w :: words)).toArray (i + 1) =
          littleEndianWord (bytesOfWords words).toArray i := by
        obtain ⟨a, b, c, d, rfl⟩ := Word.exists_ofBytes w
        rw [bytesOfWords_ofBytes_cons]
        exact littleEndianWord_succ a b c d _ i
      rw [List.length_cons, List.range_succ_eq_map, List.map_cons, List.map_map,
        littleEndianWord_zero]
      congr 1
      calc (List.range words.length).map
            (littleEndianWord (bytesOfWords (w :: words)).toArray ∘ Nat.succ)
          = (List.range words.length).map (littleEndianWord (bytesOfWords words).toArray) :=
            List.map_congr_left fun i _ => hsucc i
        _ = words := ih

theorem map_bigEndianWord_range (words : List Word) :
    (List.range words.length).map (bigEndianWord (bytesOfWords words).toArray) =
      words.map Word.byteSwap := by
  have hword : bigEndianWord (bytesOfWords words).toArray =
      Word.byteSwap ∘ littleEndianWord (bytesOfWords words).toArray := by
    ext i
    rw [bigEndianWord_eq]
    rfl
  rw [hword, ← List.map_map, map_littleEndianWord_range]

/-- The first four bytes of words decide the order in which they are read. -/
theorem bigEndianMagic_isPrefix_iff (words : List Word) :
    bigEndianMagic <+: bytesOfWords words ↔ words.head? = some magic.byteSwap := by
  cases words with
  | nil => simp [bigEndianMagic, bytesOfWords]
  | cons w words =>
      obtain ⟨a, b, c, d, rfl⟩ := Word.exists_ofBytes w
      have hmagic : magic.byteSwap = Word.ofBytes 0x07 0x23 0x02 0x03 := by decide
      rw [bytesOfWords_ofBytes_cons, hmagic]
      simp only [bigEndianMagic, List.cons_prefix_cons, List.nil_prefix, and_true,
        List.head?_cons, Option.some.injEq]
      constructor
      · rintro ⟨rfl, rfl, rfl, rfl⟩
        rfl
      · intro h
        have hbytes := congrArg Word.bytes h
        simp only [Word.bytes_ofBytes, List.cons.injEq, and_true] at hbytes
        exact ⟨hbytes.1.symm, hbytes.2.1.symm, hbytes.2.2.1.symm, hbytes.2.2.2.symm⟩

theorem bigEndianWord_eq_magic_iff (words : List Word) :
    (4 ≤ (bytesOfWords words).toArray.size ∧
      bigEndianWord (bytesOfWords words).toArray 0 = magic) ↔
        words.head? = some magic.byteSwap := by
  rw [List.size_toArray, length_bytesOfWords]
  cases words with
  | nil => simp
  | cons w words =>
      rw [bigEndianWord_eq, littleEndianWord_zero, List.head?_cons, Option.some.injEq,
        List.length_cons]
      constructor
      · rintro ⟨-, hw⟩
        rw [← hw, Word.byteSwap_byteSwap]
      · rintro rfl
        exact ⟨by omega, Word.byteSwap_byteSwap magic⟩

/-- Bytes that were written least significant byte first are read in that order, unless they
start as a stream in the other order does. -/
theorem wordsOfBytes_bytesOfWords (words : List Word) :
    wordsOfBytes (bytesOfWords words).toArray =
      .ok (if words.head? = some magic.byteSwap then words.map Word.byteSwap else words) := by
  have hsize : (bytesOfWords words).toArray.size = 4 * words.length := by
    rw [List.size_toArray, length_bytesOfWords]
  have hcount : (bytesOfWords words).toArray.size / 4 = words.length := by omega
  unfold wordsOfBytes
  rw [if_neg (by omega), hcount, map_bigEndianWord_range, map_littleEndianWord_range]
  simp only [bigEndianWord_eq_magic_iff]
  split <;> rfl

theorem wordsOfBytes_eq_error_iff {bytes : Array UInt8} {e : ModuleError} :
    wordsOfBytes bytes = .error e ↔ e = .unaligned bytes.size ∧ ¬4 ∣ bytes.size := by
  rw [Nat.dvd_iff_mod_eq_zero]
  unfold wordsOfBytes
  constructor
  · intro h
    split at h
    · rename_i hsize
      cases h
      exact ⟨rfl, hsize⟩
    · split at h <;> cases h
  · rintro ⟨rfl, hsize⟩
    exact if_pos hsize

/-! ## Both orders -/

theorem wordsOfBytes_bigEndianBytes (rest : List Word) :
    wordsOfBytes (bigEndianBytes (magic :: rest)).toArray = .ok (magic :: rest) := by
  have hswap : (magic :: rest).map Word.byteSwap = magic.byteSwap :: rest.map Word.byteSwap :=
    rfl
  have hinvolutive : Word.byteSwap ∘ Word.byteSwap = id := funext Word.byteSwap_byteSwap
  rw [bigEndianBytes_eq, wordsOfBytes_bytesOfWords, if_pos (by rw [hswap, List.head?_cons]),
    List.map_map, hinvolutive, List.map_id]

theorem wordsOfBytes_bytesOfWords_iff (words : List Word) :
    wordsOfBytes (bytesOfWords words).toArray = .ok words ↔
      words.head? ≠ some magic.byteSwap := by
  rw [wordsOfBytes_bytesOfWords, Except.ok.injEq]
  split
  · rename_i hhead
    -- The first word becomes the magic number, which is not its own reverse.
    refine iff_of_false ?_ (not_not.2 hhead)
    intro hswap
    have hfirst := congrArg List.head? hswap
    rw [List.head?_map, hhead, Option.map_some, Word.byteSwap_byteSwap] at hfirst
    exact absurd hfirst (by decide)
  · rename_i hhead
    exact iff_of_true rfl hhead

theorem bytesOfWords_of_wordsOfBytes {bytes : Array UInt8} (h : 4 ∣ bytes.size) :
    ∃ words, wordsOfBytes bytes = .ok words ∧
      (bytesOfWords words = bytes.toList ↔ ¬bigEndianMagic <+: bytes.toList) ∧
      (bigEndianMagic <+: bytes.toList → bytesOfWords words = reverseGroups bytes.toList) := by
  obtain ⟨words, hwords⟩ := exists_bytesOfWords bytes.toList h
  have hbytes : bytes = (bytesOfWords words).toArray := by rw [hwords]
  rw [hbytes, wordsOfBytes_bytesOfWords, bigEndianMagic_isPrefix_iff]
  refine ⟨_, rfl, ?_, fun hhead => ?_⟩
  · have hread := wordsOfBytes_bytesOfWords_iff words
    rw [wordsOfBytes_bytesOfWords, Except.ok.injEq] at hread
    rw [bytesOfWords_injective.eq_iff, hread]
  · rw [if_pos hhead, bytesOfWords_map_byteSwap]

/-- Words that start with the magic number are read back from either byte order.  Words in
general are read back exactly if they do not start with its reverse.  Bytes that are no whole
words are the only ones refused, and all others are written as they were, or with each group of
four reversed if they were in the other order. -/
theorem wordsOfBytes_transparent (rest words : List Word) (bytes : Array UInt8) :
    (wordsOfBytes (bytesOfWords (magic :: rest)).toArray = .ok (magic :: rest) ∧
      wordsOfBytes (bigEndianBytes (magic :: rest)).toArray = .ok (magic :: rest)) ∧
    (wordsOfBytes (bytesOfWords words).toArray = .ok words ↔ words.head? ≠ some 0x03022307) ∧
    (∀ e, wordsOfBytes bytes = .error e ↔ e = .unaligned bytes.size ∧ ¬4 ∣ bytes.size) ∧
    (4 ∣ bytes.size → ∃ read, wordsOfBytes bytes = .ok read ∧
      (bytesOfWords read = bytes.toList ↔ ¬[0x07, 0x23, 0x02, 0x03] <+: bytes.toList) ∧
      ([0x07, 0x23, 0x02, 0x03] <+: bytes.toList →
        bytesOfWords read = reverseGroups bytes.toList)) := by
  have hmagic : magic.byteSwap = 0x03022307 := by decide
  refine ⟨⟨?_, wordsOfBytes_bigEndianBytes rest⟩, ?_, fun e => wordsOfBytes_eq_error_iff,
    bytesOfWords_of_wordsOfBytes⟩
  · exact (wordsOfBytes_bytesOfWords_iff _).2 (by rw [List.head?_cons]; decide)
  · rw [wordsOfBytes_bytesOfWords_iff, hmagic]

-- The one first word that is not read as it was written, and the order of the words behind it.
example :
    wordsOfBytes (bytesOfWords [0x03022307, 0x00000100]).toArray = .ok [magic, 0x00010000] := by
  decide

end Stream

end KernelGrid
