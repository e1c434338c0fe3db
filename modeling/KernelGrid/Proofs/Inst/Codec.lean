import KernelGrid.Inst.Statement
import KernelGrid.Proofs.Inst.Reading
import KernelGrid.Proofs.Stream.Literal
import Mathlib.Tactic.CasesM

/-!
# Instructions in streams

What is written of an instruction is what is read from its record, operand by operand.  A
record may differ from what is written of it in two places only: behind the end of a literal
string, and in the word that says whether an integer type is signed.
-/

namespace KernelGrid

open KernelGrid.Stream

/-! ## Operands -/

namespace Operand

/-- Whether an operand is read again as it is written: ids have to be below the bound, and
strings end at their first zero. -/
def Readable (bound : ResultId) : Operand ResultId → Prop
  | ref id => IdBelow bound id
  | string s => '\x00' ∉ s.toList
  | _ => True

variable {bound : ResultId}

@[simp] theorem readable_ref {id : ResultId} : (ref id).Readable bound ↔ IdBelow bound id :=
  Iff.rfl

@[simp] theorem readable_string {s : String} :
    (string s).Readable bound ↔ '\x00' ∉ s.toList := Iff.rfl

@[simp] theorem readable_literal {w : Word} : (literal w).Readable bound := trivial

@[simp] theorem readable_hidden {w : Word} : (hidden w).Readable bound := trivial

@[simp] theorem readable_enumerant {v : Vocabulary} {e : Enumerant v} :
    e.operand.Readable bound := trivial

@[simp] theorem flatMap_words_ref (ids : List ResultId) : (ids.map ref).flatMap words = ids := by
  simp [List.flatMap_map, words]

@[simp] theorem flatMap_words_literal (ws : List Word) :
    (ws.map literal).flatMap words = ws := by
  simp [List.flatMap_map, words]

@[simp] theorem flatMap_words_hidden (ws : List Word) : (ws.map hidden).flatMap words = ws := by
  simp [List.flatMap_map, words]

@[simp] theorem words_ref (id : ResultId) : (ref id).words = [id] := rfl

@[simp] theorem words_literal (w : Word) : (literal w).words = [w] := rfl

@[simp] theorem words_hidden (w : Word) : (hidden w).words = [w] := rfl

@[simp] theorem words_string (s : String) : (string s).words = literalWords s := rfl

@[simp] theorem words_enumerant {v : Vocabulary} (e : Enumerant v) :
    e.operand.words = [e.code] :=
  rfl

theorem map_id (t : Operand ResultId) : t.map id = t := by
  cases t <;> rfl

end Operand

/-! ## Kinds -/

/-- The operand words behind result type and result id, as they are written. -/
def Form.canonical : Form → List Word → List Word
  | .extension, words | .extInstImport, words | .sourceExtension, words => padString words
  | .debugName, words => words.take 1 ++ padString (words.drop 1)
  | .memberName, words => words.take 2 ++ padString (words.drop 2)
  | .typeInt, width :: signed :: words => width :: (if signed = 0 then 0 else 1) :: words
  | _, words => words

theorem Form.length_canonical (form : Form) (words : List Word) :
    (form.canonical words).length = words.length := by
  unfold canonical
  split
  case h_1 | h_2 | h_3 => exact length_padString words
  case h_4 | h_5 =>
    rw [List.length_append, length_padString, ← List.length_append, List.take_append_drop]
  case h_6 => rfl
  case h_7 => rfl

namespace Kind

/-- Whether a kind is the reading of some record. -/
def Genuine {ρ : Type} : Kind ρ → Prop
  | placeholder => False
  | raw op _ => Form.ofOpcode? op = none ∧ op ≠ Opcode.entryPoint ∧ op ≠ Opcode.functionEnd
  | _ => True

/-- An instruction of a known form has been understood. -/
theorem Genuine.ne_raw {ρ : Type} {k : Kind ρ} (hk : k.Genuine) {form : Form}
    (hop : k.opcode = form.opcode) (op : Opcode) (words : List Word) : k ≠ .raw op words := by
  rintro rfl
  obtain rfl : op = form.opcode := hop
  rw [Genuine, Form.ofOpcode?_opcode] at hk
  cases hk.1

theorem read_returns {s : Scope} {form : Form} {offset : Nat} {words : List Word}
    {k : Kind ResultId} {c' : Cursor} (h : (read s form).Returns ⟨offset, words⟩ k c') :
    k.Genuine ∧ k.opcode = form.opcode ∧ (∀ t ∈ k.operands, t.Readable s.bound) ∧
      form.canonical words = k.operands.flatMap Operand.words ++ c'.rest := by
  cases form
  all_goals
    simp [read, Reader.returns_bind, Reader.returns_pure, Reader.returns_map, Scope.ref_returns,
      Scope.word_returns, Scope.enumerant_returns, Scope.refs_returns, Scope.ref?_returns,
      Cursor.readRest_returns, Form.canonical] at h ⊢
  case extension | sourceExtension | extInstImport =>
    obtain ⟨text, htext, rfl⟩ := h
    obtain ⟨hpad, hzero⟩ := readString_returns htext
    simp [Genuine, opcode, operands, hpad, hzero]
  case debugName =>
    obtain ⟨_, _, ⟨hid, rfl⟩, text, htext, rfl⟩ := h
    obtain ⟨hpad, hzero⟩ := readString_returns htext
    simp [Genuine, opcode, operands, hpad, hzero, hid]
  case memberName =>
    obtain ⟨_, _, _, ⟨hid, rfl⟩, text, htext, rfl⟩ := h
    obtain ⟨hpad, hzero⟩ := readString_returns htext
    simp [Genuine, opcode, operands, hpad, hzero, hid]
  case typeInt =>
    obtain ⟨width, signed, rest, rfl, rfl, rfl⟩ := h
    by_cases hsigned : signed = 0 <;> simp [Genuine, opcode, operands, hsigned]
  all_goals
    casesm* _ ∧ _, ∃ _, _
    subst_vars
    simp_all [Genuine, opcode, operands]

/-- A kind has a form of its own, or its operands are kept unread. -/
theorem form_or_raw {k : Kind ResultId} (hk : k.Genuine) :
    (∃ form, Form.ofOpcode? k.opcode = some form) ∨ ∃ op ws, k = raw op ws := by
  cases k
  case placeholder => exact hk.elim
  case raw op ws => exact .inr ⟨op, ws, rfl⟩
  all_goals simp [opcode]

theorem read_operands {s : Scope} {form : Form} {k : Kind ResultId}
    (hform : Form.ofOpcode? k.opcode = some form) (hk : k.Genuine)
    (hread : ∀ t ∈ k.operands, t.Readable s.bound) (offset : Nat) :
    ∃ end_, (read s form).Returns ⟨offset, k.operands.flatMap Operand.words⟩ k ⟨end_, []⟩ := by
  cases k
  case placeholder => exact hk.elim
  case raw op ws =>
    rw [opcode, hk.1] at hform
    cases hform
  all_goals
    simp only [opcode, Form.ofOpcode?_opcode, Option.some.injEq] at hform
    subst hform
    simp [operands] at hread
    simp [read, operands, Reader.returns_bind, Reader.returns_pure, Reader.returns_map,
      Scope.ref_returns, Scope.word_returns, Scope.enumerant_returns, Scope.refs_returns,
      Scope.ref?_returns, Cursor.readRest_returns, hread]
  case extension | extInstImport | sourceExtension | debugName | memberName =>
    exact ⟨_, by simpa using readString_literalWords (by simp [hread]) _ []⟩
  case typeInt width signed => cases signed <;> rfl
  case typeStruct | constantComposite | var => exact hread
  case typeFunction | accessChain | functionCall => exact hread.2

/-- Entry points and the ends of functions are no instructions. -/
theorem Genuine.opcode_ne {k : Kind ResultId} (hk : k.Genuine) :
    k.opcode ≠ Opcode.entryPoint ∧ k.opcode ≠ Opcode.functionEnd := by
  obtain ⟨form, hform⟩ | ⟨op, ws, rfl⟩ := form_or_raw hk
  · constructor
    · intro hop
      rw [hop] at hform
      cases hform
    · intro hop
      rw [hop] at hform
      cases hform
  · exact hk.2

end Kind

/-! ## Instructions -/

def Layout.width : Layout → Nat
  | .typed => 2
  | .untyped => 1
  | .plain => 0

namespace Inst

/-- Whether result type and result id are there where the layout has them.  The operands of an
opcode that is kept unread may end before them. -/
def Suits {ρ : Type} (i : Inst ρ) : Layout → Prop
  | .typed =>
    i.resultType.isSome ∧ i.resultId.isSome ∨ i.resultId = none ∧ ∃ op, i.kind = .raw op []
  | .untyped => i.resultType = none ∧ (i.resultId.isSome ∨ ∃ op, i.kind = .raw op [])
  | .plain => i.resultType = none ∧ i.resultId = none

def HasLayout {ρ : Type} (i : Inst ρ) : Prop := i.Suits i.opcode.layout

theorem hasLayout_iff {ρ : Type} {i : Inst ρ} (form : Form) (hop : i.opcode = form.opcode) :
    i.HasLayout ↔ i.Suits form.layout := by
  rw [HasLayout, hop, Form.layout_opcode]

structure Readable (bound : ResultId) (i : Inst ResultId) : Prop where
  genuine : i.kind.Genuine
  layout : i.HasLayout
  resultType : ∀ type ∈ i.resultType, IdBelow bound type
  operands : ∀ t ∈ i.kind.operands, t.Readable bound

theorem words_statement (i : Inst ResultId) :
    (i.statement id).words =
      i.resultType.toList ++ i.resultId.toList ++ i.kind.operands.flatMap Operand.words := by
  simp [statement, Statement.words, List.flatMap_map, Operand.map_id]

theorem read_returns {s : Scope} {form : Form} {offset : Nat} {words : List Word}
    {i : Inst ResultId} {c' : Cursor} (h : (read s form).Returns ⟨offset, words⟩ i c') :
    i.Readable s.bound ∧ i.opcode = form.opcode ∧
      words.take form.layout.width ++ form.canonical (words.drop form.layout.width) =
        (i.statement id).words ++ c'.rest := by
  rw [words_statement]
  unfold read at h
  split at h
  · rename_i hlayout
    obtain ⟨type, _, htype, h⟩ := Reader.returns_bind.1 h
    obtain ⟨hid, _, rfl, rfl⟩ := Scope.ref_returns.1 htype
    obtain ⟨result, _, hresult, h⟩ := Reader.returns_bind.1 h
    obtain ⟨_, rfl, rfl⟩ := Scope.word_returns.1 hresult
    obtain ⟨k, hk, rfl⟩ := Reader.returns_map.1 h
    obtain ⟨hgenuine, hop, hread, hwords⟩ := Kind.read_returns hk
    refine ⟨⟨hgenuine, ?_, by simpa using hid, hread⟩, hop, ?_⟩
    · simp [HasLayout, Suits, opcode, hop, Form.layout_opcode, hlayout]
    · simp [hlayout, Layout.width, hwords]
  · rename_i hlayout
    obtain ⟨result, _, hresult, h⟩ := Reader.returns_bind.1 h
    obtain ⟨_, rfl, rfl⟩ := Scope.word_returns.1 hresult
    obtain ⟨k, hk, rfl⟩ := Reader.returns_map.1 h
    obtain ⟨hgenuine, hop, hread, hwords⟩ := Kind.read_returns hk
    refine ⟨⟨hgenuine, ?_, by simp, hread⟩, hop, ?_⟩
    · simp [HasLayout, Suits, opcode, hop, Form.layout_opcode, hlayout]
    · simp [hlayout, Layout.width, hwords]
  · rename_i hlayout
    obtain ⟨k, hk, rfl⟩ := Reader.returns_map.1 h
    obtain ⟨hgenuine, hop, hread, hwords⟩ := Kind.read_returns hk
    refine ⟨⟨hgenuine, ?_, by simp, hread⟩, hop, ?_⟩
    · simp [HasLayout, Suits, opcode, hop, Form.layout_opcode, hlayout]
    · simp [hlayout, Layout.width, hwords]

theorem readRaw_returns {s : Scope} {offset : Nat} {words : List Word} {i : Inst ResultId}
    {c' : Cursor} (hform : Form.ofOpcode? s.opcode = none)
    (hentry : s.opcode ≠ Opcode.entryPoint) (hend : s.opcode ≠ Opcode.functionEnd)
    (h : (readRaw s).Returns ⟨offset, words⟩ i c') :
    i.Readable s.bound ∧ i.opcode = s.opcode ∧ words = (i.statement id).words ∧
      c'.rest = [] := by
  rw [words_statement]
  unfold readRaw at h
  obtain ⟨words, _, hrest, h⟩ := Reader.returns_bind.1 h
  obtain ⟨rfl, rfl⟩ := Cursor.readRest_returns.1 hrest
  have hgenuine (ws : List Word) : (Kind.raw s.opcode ws : Kind ResultId).Genuine :=
    ⟨hform, hentry, hend⟩
  have hoperands (ws : List Word) :
      ∀ t ∈ (Kind.raw s.opcode ws : Kind ResultId).operands, t.Readable s.bound := by
    simp [Kind.operands]
  cases hlayout : s.opcode.layout with
  | typed =>
      cases words with
      | nil =>
          simp only [hlayout] at h
          obtain ⟨rfl, rfl⟩ := Reader.returns_pure.1 h
          refine ⟨⟨hgenuine _, ?_, by simp [plain], hoperands _⟩, rfl, ?_, rfl⟩
          · simp [HasLayout, Suits, opcode, plain, Kind.opcode, hlayout]
          · simp [plain, Kind.operands]
      | cons type rest =>
          simp only [hlayout] at h
          obtain ⟨_, _, htype, h⟩ := Reader.returns_bind.1 h
          obtain ⟨hid, rfl, rfl⟩ := Scope.checked_returns.1 htype
          obtain ⟨rfl, rfl⟩ := Reader.returns_pure.1 h
          refine ⟨⟨hgenuine _, ?_, by simpa using hid, hoperands _⟩, rfl, ?_, rfl⟩
          · cases rest <;> simp [HasLayout, Suits, opcode, Kind.opcode, hlayout]
          · cases rest <;> simp [Kind.operands]
  | untyped =>
      simp only [hlayout] at h
      obtain ⟨rfl, rfl⟩ := Reader.returns_pure.1 h
      refine ⟨⟨hgenuine _, ?_, by simp, hoperands _⟩, rfl, ?_, rfl⟩
      · cases words <;> simp [HasLayout, Suits, opcode, Kind.opcode, hlayout]
      · cases words <;> simp [Kind.operands]
  | plain =>
      simp only [hlayout] at h
      obtain ⟨rfl, rfl⟩ := Reader.returns_pure.1 h
      refine ⟨⟨hgenuine _, ?_, by simp [plain], hoperands _⟩, rfl, ?_, rfl⟩
      · simp [HasLayout, Suits, opcode, plain, Kind.opcode, hlayout]
      · simp [plain, Kind.operands]

theorem read_words {s : Scope} {form : Form} {i : Inst ResultId} (hi : i.Readable s.bound)
    (hform : Form.ofOpcode? i.opcode = some form) (offset : Nat) :
    ∃ end_, (read s form).Returns ⟨offset, (i.statement id).words⟩ i ⟨end_, []⟩ := by
  have hop : i.opcode.layout = form.layout := by
    rw [← Form.opcode_of_ofOpcode? hform, Form.layout_opcode]
  have hraw : ¬ ∃ op, i.kind = .raw op [] := by
    rintro ⟨op, hkind⟩
    have hgenuine := hi.genuine
    rw [hkind] at hgenuine
    rw [opcode, hkind, Kind.opcode, hgenuine.1] at hform
    cases hform
  have hlayout := hi.layout
  obtain ⟨type?, result?, k⟩ := i
  rw [words_statement]
  unfold read
  simp only [HasLayout, hop] at hlayout
  unfold Suits at hlayout
  cases hwidth : form.layout with
  | typed =>
      simp only [hwidth, hraw, and_false, or_false] at hlayout
      obtain ⟨type, rfl⟩ := Option.isSome_iff_exists.1 hlayout.1
      obtain ⟨result, rfl⟩ := Option.isSome_iff_exists.1 hlayout.2
      obtain ⟨end_, hk⟩ := Kind.read_operands hform hi.genuine hi.operands (offset + 2)
      refine ⟨end_, Reader.returns_bind.2 ⟨type, _, Scope.ref_returns.2 ⟨hi.resultType type rfl,
        _, rfl, rfl⟩, Reader.returns_bind.2 ⟨result, _, Scope.word_returns.2 ⟨_, rfl, rfl⟩,
        Reader.returns_map.2 ⟨k, hk, rfl⟩⟩⟩⟩
  | untyped =>
      simp only [hwidth, hraw, or_false] at hlayout
      obtain ⟨rfl, hresult⟩ := hlayout
      obtain ⟨result, rfl⟩ := Option.isSome_iff_exists.1 hresult
      obtain ⟨end_, hk⟩ := Kind.read_operands hform hi.genuine hi.operands (offset + 1)
      exact ⟨end_, Reader.returns_bind.2 ⟨result, _, Scope.word_returns.2 ⟨_, rfl, rfl⟩,
        Reader.returns_map.2 ⟨k, hk, rfl⟩⟩⟩
  | plain =>
      simp only [hwidth] at hlayout
      obtain ⟨rfl, rfl⟩ := hlayout
      obtain ⟨end_, hk⟩ := Kind.read_operands hform hi.genuine hi.operands offset
      exact ⟨end_, Reader.returns_map.2 ⟨k, hk, rfl⟩⟩

theorem readRaw_words {s : Scope} {i : Inst ResultId} (hi : i.Readable s.bound)
    (hop : i.opcode = s.opcode) (hform : Form.ofOpcode? i.opcode = none) (offset : Nat) :
    (readRaw s).Returns ⟨offset, (i.statement id).words⟩ i
      ⟨offset + (i.statement id).words.length, []⟩ := by
  obtain ⟨type?, result?, k⟩ := i
  obtain ⟨op, ws, rfl⟩ : ∃ op ws, k = .raw op ws := by
    obtain ⟨form, hsome⟩ | hraw := Kind.form_or_raw hi.genuine
    · rw [opcode, hsome] at hform
      cases hform
    · exact hraw
  obtain rfl : op = s.opcode := hop
  have hlayout := hi.layout
  rw [words_statement]
  unfold readRaw
  refine Reader.returns_bind.2 ⟨_, _, Cursor.readRest_returns.2 ⟨rfl, rfl⟩, ?_⟩
  simp only [HasLayout, opcode, Kind.opcode] at hlayout
  unfold Suits at hlayout
  cases hwidth : s.opcode.layout with
  | typed =>
      simp only [hwidth] at hlayout ⊢
      cases type? with
      | none =>
          obtain ⟨rfl, rfl⟩ : result? = none ∧ ws = [] := by simpa using hlayout
          exact Reader.returns_pure.2 ⟨rfl, rfl⟩
      | some type =>
          have hchecked := hi.resultType type rfl
          refine Reader.returns_bind.2 ⟨type, _,
            Scope.checked_returns.2 ⟨hchecked, rfl, rfl⟩, Reader.returns_pure.2 ⟨?_, rfl⟩⟩
          cases result? with
          | none =>
              obtain rfl : ws = [] := by simpa using hlayout
              rfl
          | some result => simp [Kind.operands]
  | untyped =>
      simp only [hwidth] at hlayout ⊢
      obtain ⟨rfl, hresult⟩ := hlayout
      refine Reader.returns_pure.2 ⟨?_, rfl⟩
      cases result? with
      | none =>
          obtain rfl : ws = [] := by simpa using hresult
          rfl
      | some result => simp [Kind.operands]
  | plain =>
      simp only [hwidth] at hlayout ⊢
      obtain ⟨rfl, rfl⟩ := hlayout
      exact Reader.returns_pure.2 ⟨by simp [plain, Kind.operands], rfl⟩

end Inst

end KernelGrid
