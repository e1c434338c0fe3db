import KernelGrid.Proofs.Module.Reassembly

/-!
# Emitted records

How many words each kind of record takes, and what becomes of a whole module: the first record
that is too long is reported with its size, and if there is none, the words fall apart into the
records again.
-/

namespace KernelGrid

open KernelGrid.Stream

/-! ## Sizes -/

def literalCount (s : String) : Nat := s.utf8ByteSize / 4 + 1

def Kind.wordCount {ρ : Type} : Kind ρ → Nat
  | placeholder | typeVoid | typeBool | functionParameter | label | ret => 0
  | capability _ | typeFloat _ | typeRuntimeArray _ | retValue _ => 1
  | memoryModel _ _ | typeInt _ _ | typeVector _ _ | typeArray _ _ | typePointer _ _
  | typeForwardPointer _ _ | function _ _ | iAdd _ _ | iMul _ _ => 2
  | extension name | extInstImport name | sourceExtension name => literalCount name
  | debugName _ name => 1 + literalCount name
  | memberName _ _ name => 2 + literalCount name
  | executionMode _ _ words | decorate _ _ words | store _ _ words => 2 + words.length
  | memberDecorate _ _ _ words => 3 + words.length
  | typeStruct refs | constantComposite refs => refs.length
  | typeFunction _ refs | accessChain _ refs | functionCall _ refs => 1 + refs.length
  | constant words | raw _ words => words.length
  | load _ words | compositeExtract _ words => 1 + words.length
  | var _ none => 1
  | var _ (some _) => 2

theorem length_literalWords (s : String) : (literalWords s).length = literalCount s := by
  simp [literalWords, literalCount]

theorem Kind.length_words (k : Kind ResultId) :
    (k.operands.flatMap Operand.words).length = k.wordCount := by
  have hrefs (ids : List ResultId) :
      (ids.map Operand.ref).flatMap Operand.words = ids := by
    simp [List.flatMap_map, Operand.words]
  have hliterals (words : List Word) :
      (words.map Operand.literal).flatMap Operand.words = words := by
    simp [List.flatMap_map, Operand.words]
  have hhidden (words : List Word) :
      (words.map Operand.hidden).flatMap Operand.words = words := by
    simp [List.flatMap_map, Operand.words]
  cases k with
  | var storage initializer =>
      cases initializer <;> simp [operands, wordCount, Operand.words, Enumerant.operand]
  | _ =>
      simp [operands, wordCount, Operand.words, Enumerant.operand, length_literalWords, hrefs,
        hliterals, hhidden] <;> omega

namespace Item

def wordCount {ρ : Type} : Item ρ → Nat
  | entryPoint e => 3 + literalCount e.name + e.interface.length
  | functionEnd => 1
  | inst i => 1 + i.resultType.toList.length + i.resultId.toList.length + i.kind.wordCount

theorem length_words (x : Item ResultId) : x.statement.words.length + 1 = x.wordCount := by
  cases x with
  | entryPoint e =>
      rw [statement, EntryPoint.words_statement]
      simp only [List.length_cons, List.length_append, length_literalWords, wordCount]
      omega
  | functionEnd => rfl
  | inst i =>
      rw [statement, Inst.words_statement]
      simp only [List.length_append, Kind.length_words, wordCount]
      omega

theorem fits_iff (x : Item ResultId) :
    x.statement.record.Fits ↔ x.wordCount ≤ maxRecordWords := by
  rw [← x.length_words]
  exact Iff.rfl

theorem length_record_words (x : Item ResultId) :
    x.statement.record.words.length = x.wordCount :=
  x.length_words

end Item

/-! ## The first failure -/

theorem Stream.Record.frame_of_overlong {op : Opcode} {operands : List Word}
    (hlong : ¬operands.length + 1 ≤ maxRecordWords) :
    frame op operands = .error (.recordTooLong op (operands.length + 1)) :=
  if_pos (Nat.lt_of_not_le hlong)

theorem Statement.mapM_encode_of_overlong {before : List Statement} {s : Statement}
    (hbefore : ∀ t ∈ before, t.record.Fits) (hs : ¬s.record.Fits) (after : List Statement) :
    (before ++ s :: after).mapM encode =
      .error (.recordTooLong s.opcode (s.words.length + 1)) := by
  induction before with
  | nil =>
      have hfail : s.encode = _ := Record.frame_of_overlong hs
      rw [List.nil_append, List.mapM_cons, hfail]
      rfl
  | cons t before ih =>
      rw [List.forall_mem_cons] at hbefore
      have ht : t.encode = .ok t.record.words := encode_eq_ok.2 ⟨hbefore.1, rfl⟩
      rw [List.cons_append, List.mapM_cons, ht, ih hbefore.2]
      rfl

namespace Module

variable {m : Module}

theorem fits_or_exists_overlong (xs : List (Item ResultId)) :
    (∀ x ∈ xs, x.wordCount ≤ maxRecordWords) ∨ ∃ before x after, xs = before ++ x :: after ∧
      (∀ y ∈ before, y.wordCount ≤ maxRecordWords) ∧ maxRecordWords < x.wordCount := by
  cases hfind : xs.find? fun x => decide (maxRecordWords < x.wordCount) with
  | none =>
      refine .inl fun x hx => ?_
      have hfalse := List.find?_eq_none.1 hfind x hx
      simpa using hfalse
  | some x =>
      obtain ⟨hlong, before, after, heq, hbefore⟩ := List.find?_eq_some_iff_append.1 hfind
      refine .inr ⟨before, x, after, heq, fun y hy => ?_, by simpa using hlong⟩
      have hfalse := hbefore y hy
      simpa using hfalse

theorem fits_written_iff :
    (∀ s ∈ m.statements, s.record.Fits) ↔ ∀ x ∈ m.written, x.wordCount ≤ maxRecordWords := by
  rw [statements_eq_written, List.forall_mem_map]
  exact forall₂_congr fun x _ => x.fits_iff

theorem encode_of_fits (hm : ∀ x ∈ m.written, x.wordCount ≤ maxRecordWords) :
    m.encode = .ok (m.headerWords ++ (Record.number 5 m.statements).flatMap Record.words) := by
  rw [encode_eq_ok (fits_written_iff.2 hm), Record.flatMap_words_number]

theorem encode_of_overlong {before after : List (Item ResultId)} {x : Item ResultId}
    (heq : m.written = before ++ x :: after)
    (hbefore : ∀ y ∈ before, y.wordCount ≤ maxRecordWords) (hx : maxRecordWords < x.wordCount) :
    m.encode = .error (.recordTooLong x.statement.opcode x.wordCount) := by
  have hfits : ∀ s ∈ before.map Item.statement, s.record.Fits :=
    List.forall_mem_map.2 fun y hy => y.fits_iff.2 (hbefore y hy)
  have hlong : ¬x.statement.record.Fits :=
    fun hfits => absurd (x.fits_iff.1 hfits) (Nat.not_le.2 hx)
  have hfail := Statement.mapM_encode_of_overlong hfits hlong (after.map Item.statement)
  rw [encode, statements_eq_written, heq, List.map_append, List.map_cons, hfail, x.length_words]
  rfl

theorem encode_eq_error_iff {e : ModuleError} :
    m.encode = .error e ↔ ∃ before x after, m.written = before ++ x :: after ∧
      (∀ y ∈ before, y.wordCount ≤ maxRecordWords) ∧ maxRecordWords < x.wordCount ∧
      e = .recordTooLong x.statement.opcode x.wordCount := by
  constructor
  · intro hfail
    obtain hfits | ⟨before, x, after, heq, hbefore, hx⟩ := fits_or_exists_overlong m.written
    · exact nomatch hfail.symm.trans (encode_of_fits hfits)
    · have herror := hfail.symm.trans (encode_of_overlong heq hbefore hx)
      exact ⟨before, x, after, heq, hbefore, hx, Except.error.inj herror⟩
  · rintro ⟨before, x, after, heq, hbefore, hx, rfl⟩
    exact encode_of_overlong heq hbefore hx

theorem encode_eq_ok_iff :
    (∃ w, m.encode = .ok w) ↔ ∀ x ∈ m.written, x.wordCount ≤ maxRecordWords :=
  ⟨fun ⟨_, hencode⟩ => fits_written_iff.1 (fits_of_encode hencode),
    fun hm => ⟨_, encode_of_fits hm⟩⟩

theorem split_of_encode {w : List Word} (hencode : m.encode = .ok w) :
    w.take 5 = m.headerWords ∧
      Record.split ⟨5, w.drop 5⟩ = (Record.number 5 (m.written.map Item.statement), none) ∧
      w.length = 5 + (m.written.map Item.wordCount).sum := by
  have hfits := fits_of_encode hencode
  obtain rfl := Except.ok.inj (hencode.symm.trans (encode_of_fits (fits_written_iff.1 hfits)))
  refine ⟨rfl, ?_, ?_⟩
  · have hdrop : (m.headerWords ++ (Record.number 5 m.statements).flatMap Record.words).drop 5 =
        (Record.number 5 m.statements).flatMap Record.words := rfl
    rw [hdrop, ← statements_eq_written]
    exact Record.split_words (Record.fits_number hfits 5)
      (Record.consecutive_number 5 m.statements)
  · have hsum : (m.written.map fun x => x.statement.record.words.length) =
        m.written.map Item.wordCount := List.map_congr_left fun x _ => x.length_record_words
    rw [List.length_append, Record.flatMap_words_number, statements_eq_written, List.flatMap_map,
      List.length_flatMap, hsum]
    rfl

/-- A module is written unless some record would take more than 65535 words, and then the first
such record is reported with its opcode and size.  What is written falls apart, by the counts
in the high halves of the first words, into the records of what is emitted, in order and with
nothing left. -/
theorem encode_frames (m : Module) :
    (∀ e, m.encode = .error e ↔ ∃ before x after, m.written = before ++ x :: after ∧
      (∀ y ∈ before, y.wordCount ≤ 65535) ∧ 65535 < x.wordCount ∧
      e = .recordTooLong x.statement.opcode x.wordCount) ∧
    ((∃ w, m.encode = .ok w) ↔ ∀ x ∈ m.written, x.wordCount ≤ 65535) ∧
    ∀ w, m.encode = .ok w → w.take 5 = m.headerWords ∧
      Record.split ⟨5, w.drop 5⟩ = (Record.number 5 (m.written.map Item.statement), none) ∧
      w.length = 5 + (m.written.map Item.wordCount).sum :=
  ⟨fun _ => encode_eq_error_iff, encode_eq_ok_iff, fun _ => split_of_encode⟩

end Module

end KernelGrid
