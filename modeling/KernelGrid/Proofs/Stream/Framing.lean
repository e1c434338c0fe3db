import KernelGrid.Proofs.Stream.Reader
import KernelGrid.Proofs.Word
import KernelGrid.Stream.Record

/-!
# Framing

A record is written as a word that holds its length and its opcode, followed by its operands.
Splitting a stream gives back the records that it was put together from, and a stream that can be
split is made of the words of its records.
-/

namespace KernelGrid.Stream.Record

def words (r : Record) : List Word :=
  ((r.operands.length + 1).toUInt32 <<< 16 ||| r.opcode.toUInt32) :: r.operands

def Fits (r : Record) : Prop :=
  r.operands.length + 1 ≤ maxRecordWords

theorem frame_eq_ok {op : Opcode} {operands framed : List Word} :
    frame op operands = .ok framed ↔
      operands.length + 1 ≤ maxRecordWords ∧ framed = words ⟨0, op, operands⟩ := by
  simp only [frame]
  split
  · constructor
    · intro h
      cases h
    · rintro ⟨h, -⟩
      omega
  · constructor
    · intro h
      cases h
      exact ⟨by omega, rfl⟩
    · rintro ⟨-, rfl⟩
      rfl

/-! ## One record -/

theorem count_toUInt32 {count : Nat} (hcount : count ≤ maxRecordWords) :
    count.toUInt32.toNat = count := by
  have hmax : maxRecordWords = 65535 := rfl
  simp only [Nat.toUInt32, UInt32.toNat_ofNat']
  omega

theorem read_words {r : Record} (hfits : r.Fits) (rest : List Word) :
    read.Returns ⟨r.offset, r.words ++ rest⟩ r ⟨r.offset + r.words.length, rest⟩ := by
  have hcount := count_toUInt32 hfits
  have hshift := Word.shiftRight_halves
    (by rw [hcount]; exact Nat.lt_of_le_of_lt hfits (by decide)) r.opcode
  simp only [read, Reader.returns_bind]
  refine ⟨_, _, Reader.returns_get.2 ⟨rfl, rfl⟩, _, _,
    Cursor.readWord_returns.2 ⟨_, rfl, rfl⟩, ?_⟩
  rw [hshift, hcount, if_neg (Nat.succ_ne_zero _), Nat.add_sub_cancel,
    Word.toUInt16_halves, Reader.returns_bind]
  refine ⟨_, _, Cursor.readWords_returns.2 ⟨by simp, rfl, rfl⟩,
    Reader.returns_pure.2 ⟨?_, ?_⟩⟩
  · simp
  · simp [words]
    omega

theorem words_of_read {c c' : Cursor} {r : Record} (h : read.Returns c r c') :
    r.Fits ∧ r.offset = c.offset ∧ c.rest = r.words ++ c'.rest ∧
      c'.offset = c.offset + r.words.length := by
  obtain ⟨offset, words⟩ := c
  simp only [read, Reader.returns_bind] at h
  obtain ⟨_, _, hget, first, _, hfirst, h⟩ := h
  obtain ⟨rfl, rfl⟩ := Reader.returns_get.1 hget
  obtain ⟨rest, rfl, rfl⟩ := Cursor.readWord_returns.1 hfirst
  by_cases hzero : (first >>> 16).toNat = 0
  · rw [if_pos hzero, Reader.returns_bind] at h
    obtain ⟨_, _, hthrow, _⟩ := h
    exact absurd hthrow Reader.not_returns_throw
  rw [if_neg hzero, Reader.returns_bind] at h
  obtain ⟨operands, _, hwords, hpure⟩ := h
  obtain ⟨hcount, rfl, rfl⟩ := Cursor.readWords_returns.1 hwords
  obtain ⟨rfl, rfl⟩ := Reader.returns_pure.1 hpure
  have hlength : (rest.take ((first >>> 16).toNat - 1)).length + 1 = (first >>> 16).toNat := by
    rw [List.length_take]
    omega
  refine ⟨?_, rfl, ?_, ?_⟩
  · rw [Fits, hlength, UInt32.toNat_shiftRight]
    have hlt := first.toNat_lt
    simp [Nat.shiftRight_eq_div_pow, maxRecordWords]
    omega
  · have hfirst : (first >>> 16).toNat.toUInt32 = first >>> 16 := UInt32.ofNat_toNat
    simp only [Record.words, hlength, hfirst, Word.halves_eq, List.cons_append,
      List.take_append_drop]
  · simp only [Record.words, List.length_cons, hlength]
    omega

/-! ## All records -/

/-- Records in the positions that they take one behind the other. -/
def Consecutive : Nat → List Record → Prop
  | _, [] => True
  | offset, r :: records => r.offset = offset ∧ Consecutive (offset + r.words.length) records

theorem readAll_returns {limit : Nat} {c : Cursor} {done : List Record} :
    readAll (limit + 1) c done =
      if c.isEmpty then (done.reverse, none)
      else
        match read c with
        | (.ok record, c) => readAll limit c (record :: done)
        | (.error e, _) => (done.reverse, some e) := rfl

theorem readAll_words {records done : List Record} {offset limit : Nat}
    (hfits : ∀ r ∈ records, r.Fits) (hplace : Consecutive offset records)
    (hlimit : records.length ≤ limit) :
    readAll limit ⟨offset, records.flatMap words⟩ done = (done.reverse ++ records, none) := by
  induction records generalizing offset limit done with
  | nil =>
      cases limit with
      | zero => simp [readAll]
      | succ limit => simp [readAll, Cursor.isEmpty]
  | cons r records ih =>
      obtain ⟨rfl, hplace⟩ := hplace
      obtain ⟨limit, rfl⟩ : ∃ n, limit = n + 1 := ⟨limit - 1, by simp at hlimit; omega⟩
      have hread := read_words (hfits r (by simp)) (records.flatMap words)
      rw [Reader.Returns, Runs] at hread
      rw [readAll_returns, if_neg (by simp [Cursor.isEmpty, words]), List.flatMap_cons, hread]
      simp only
      rw [ih (fun s hs => hfits s (by simp [hs])) hplace (by simpa using hlimit)]
      simp

theorem split_words {records : List Record} {offset : Nat}
    (hfits : ∀ r ∈ records, r.Fits) (hplace : Consecutive offset records) :
    split ⟨offset, records.flatMap words⟩ = (records, none) := by
  rw [split, readAll_words hfits hplace]
  · simp
  · clear hplace hfits
    induction records with
    | nil => simp
    | cons r records ih =>
        simp only [Cursor.remaining, List.flatMap_cons, List.length_append, words,
          List.length_cons] at ih ⊢
        omega

theorem words_of_readAll {limit : Nat} {c : Cursor} {done records : List Record}
    (hlimit : c.remaining ≤ limit) (h : readAll limit c done = (records, none)) :
    ∃ rest, records = done.reverse ++ rest ∧ c.rest = rest.flatMap words ∧
      ∀ r ∈ rest, r.Fits := by
  induction limit generalizing c done with
  | zero =>
      have hrest : c.rest = [] := List.length_eq_zero_iff.1 (Nat.le_zero.1 hlimit)
      simp only [readAll, Prod.mk.injEq, and_true] at h
      exact ⟨[], by simp [← h], by simp [hrest], by simp⟩
  | succ limit ih =>
      rw [readAll_returns] at h
      split at h
      · rename_i hempty
        simp only [Prod.mk.injEq, and_true] at h
        exact ⟨[], by simp [← h], by simpa [Cursor.isEmpty] using hempty, by simp⟩
      · rcases hread : read c with ⟨_ | r, c'⟩
        · rw [hread] at h
          cases h
        · rw [hread] at h
          obtain ⟨hfits, -, hwords, -⟩ := words_of_read hread
          have hremaining : c'.remaining ≤ limit := by
            simp only [Cursor.remaining, hwords, words, List.length_append,
              List.length_cons] at hlimit ⊢
            omega
          obtain ⟨rest, hrecords, hrest, hall⟩ := ih hremaining h
          refine ⟨r :: rest, by simp [hrecords], by simp [hwords, hrest], ?_⟩
          rintro s (_ | ⟨_, hs⟩)
          · exact hfits
          · exact hall s hs

theorem consecutive_of_readAll {limit : Nat} {c : Cursor} {done records : List Record}
    {fault : Option ModuleError} (h : readAll limit c done = (records, fault)) :
    ∃ rest, records = done.reverse ++ rest ∧ Consecutive c.offset rest := by
  induction limit generalizing c done with
  | zero =>
      simp only [readAll, Prod.mk.injEq] at h
      exact ⟨[], by simp [h.1], trivial⟩
  | succ limit ih =>
      rw [readAll_returns] at h
      split at h
      · simp only [Prod.mk.injEq] at h
        exact ⟨[], by simp [h.1], trivial⟩
      · rcases hread : read c with ⟨_ | r, c'⟩
        · simp only [hread, Prod.mk.injEq] at h
          exact ⟨[], by simp [h.1], trivial⟩
        · rw [hread] at h
          obtain ⟨-, hoffset, -, hnext⟩ := words_of_read hread
          obtain ⟨rest, hrecords, hplace⟩ := ih h
          exact ⟨r :: rest, by simp [hrecords], hoffset, hnext ▸ hplace⟩

theorem Consecutive.le_offset {offset : Nat} {records : List Record}
    (h : Consecutive offset records) : ∀ r ∈ records, offset ≤ r.offset := by
  induction records generalizing offset with
  | nil => simp
  | cons r records ih =>
      rw [List.forall_mem_cons]
      exact ⟨h.1.ge, fun s hs => (Nat.le_add_right _ _).trans (ih h.2 s hs)⟩

theorem Consecutive.nodup {offset : Nat} {records : List Record}
    (h : Consecutive offset records) : records.Nodup := by
  induction records generalizing offset with
  | nil => exact List.nodup_nil
  | cons r records ih =>
      refine List.nodup_cons.2 ⟨?_, ih h.2⟩
      intro hr
      have hle := h.2.le_offset r hr
      simp only [h.1, words, List.length_cons] at hle
      omega

theorem consecutive_of_split {c : Cursor} {records : List Record} {fault : Option ModuleError}
    (h : split c = (records, fault)) : Consecutive c.offset records := by
  obtain ⟨rest, hrecords, hplace⟩ := consecutive_of_readAll h
  rw [List.reverse_nil, List.nil_append] at hrecords
  exact hrecords ▸ hplace

theorem nodup_of_split {c : Cursor} {records : List Record} {fault : Option ModuleError}
    (h : split c = (records, fault)) : records.Nodup := (consecutive_of_split h).nodup

theorem words_of_split {c : Cursor} {records : List Record} (h : split c = (records, none)) :
    c.rest = records.flatMap words ∧ ∀ r ∈ records, r.Fits := by
  obtain ⟨rest, hrecords, hrest, hfits⟩ := words_of_readAll (Nat.le_refl _) h
  rw [List.reverse_nil, List.nil_append] at hrecords
  exact hrecords ▸ ⟨hrest, hfits⟩

end KernelGrid.Stream.Record
