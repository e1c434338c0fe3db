import KernelGrid.Proofs.Inst.Item

/-!
# Patterns of records

What the operands of a record have to be, stated without a reader: a pattern for each form, and
ids in front where the layout has them.  A record can be read exactly if it follows the pattern
of its opcode.
-/

namespace KernelGrid

open KernelGrid.Stream

/-! ## Patterns -/

/-- One operand of a record.  The ids are the result type, the result id and what is
mentioned. -/
inductive Slot where
  | ident
  | literal
  | enumerant (v : Vocabulary)
  | string

inductive Tail where
  | nothing
  | idents
  | literals
  | optionalIdent

structure Pattern where
  slots : List Slot
  tail : Tail

/-- Whether the operand can be taken from the words such that the rest is left.  A string is
UTF-8 that ends with the word of its first zero byte. -/
def Slot.Takes (bound : ResultId) (words rest : List Word) : Slot → Prop
  | ident => ∃ id, words = id :: rest ∧ IdBelow bound id
  | literal => ∃ w, words = w :: rest
  | enumerant v => ∃ w, words = w :: rest ∧ (v.entries.lookup w).isSome
  | string => ∃ (s : String) (padding : List UInt8) (literal : List Word),
      words = literal ++ rest ∧
      bytesOfWords literal = s.toUTF8.data.toList ++ 0 :: padding ∧ '\x00' ∉ s.toList ∧
      padding.length < 4

def Tail.Takes (bound : ResultId) (words : List Word) : Tail → Prop
  | nothing => words = []
  | idents => ∀ id ∈ words, IdBelow bound id
  | literals => True
  | optionalIdent => words = [] ∨ ∃ id, words = [id] ∧ IdBelow bound id

def Tail.TakesBehind (bound : ResultId) (tail : Tail) : List Slot → List Word → Prop
  | [], words => tail.Takes bound words
  | slot :: slots, words =>
    ∃ rest, slot.Takes bound words rest ∧ tail.TakesBehind bound slots rest

namespace Pattern

def Accepts (bound : ResultId) (p : Pattern) (words : List Word) : Prop :=
  p.tail.TakesBehind bound p.slots words

def withLayout (p : Pattern) : Layout → Pattern
  | .typed => ⟨.ident :: .ident :: p.slots, p.tail⟩
  | .untyped => ⟨.ident :: p.slots, p.tail⟩
  | .plain => p

end Pattern

def Layout.result? (words : List Word) : Layout → Option ResultId
  | .typed => words[1]?
  | .untyped => words[0]?
  | .plain => none

def Form.pattern : Form → Pattern
  | .capability => ⟨[.enumerant Capability.vocabulary], .nothing⟩
  | .extension | .extInstImport | .sourceExtension => ⟨[.string], .nothing⟩
  | .memoryModel =>
    ⟨[.enumerant AddressingModel.vocabulary, .enumerant MemoryModel.vocabulary], .nothing⟩
  | .executionMode => ⟨[.ident, .enumerant ExecutionMode.vocabulary], .literals⟩
  | .debugName => ⟨[.ident, .string], .nothing⟩
  | .memberName => ⟨[.ident, .literal, .string], .nothing⟩
  | .decorate => ⟨[.ident, .enumerant Decoration.vocabulary], .literals⟩
  | .memberDecorate => ⟨[.ident, .literal, .enumerant Decoration.vocabulary], .literals⟩
  | .typeVoid | .typeBool | .functionParameter | .label | .ret => ⟨[], .nothing⟩
  | .typeInt => ⟨[.literal, .literal], .nothing⟩
  | .typeFloat => ⟨[.literal], .nothing⟩
  | .typeVector => ⟨[.ident, .literal], .nothing⟩
  | .typeArray | .iAdd | .iMul => ⟨[.ident, .ident], .nothing⟩
  | .typeRuntimeArray | .retValue => ⟨[.ident], .nothing⟩
  | .typeStruct | .constantComposite => ⟨[], .idents⟩
  | .typePointer => ⟨[.enumerant StorageClass.vocabulary, .ident], .nothing⟩
  | .typeForwardPointer => ⟨[.ident, .enumerant StorageClass.vocabulary], .nothing⟩
  | .typeFunction | .accessChain | .functionCall => ⟨[.ident], .idents⟩
  | .constant => ⟨[], .literals⟩
  | .var => ⟨[.enumerant StorageClass.vocabulary], .optionalIdent⟩
  | .function => ⟨[.literal, .ident], .nothing⟩
  | .load | .compositeExtract => ⟨[.ident], .literals⟩
  | .store => ⟨[.ident, .ident], .literals⟩

def EntryPoint.pattern : Pattern :=
  ⟨[.enumerant ExecutionModel.vocabulary, .ident, .string], .idents⟩

namespace Stream.Record

/-- Whether the operands are those of the opcode.  What the opcode table says of an opcode
without a form are its first operands, if they are there. -/
def Proper (bound : ResultId) (r : Record) : Prop :=
  if r.opcode = Opcode.entryPoint then EntryPoint.pattern.Accepts bound r.operands
  else if r.opcode = Opcode.functionEnd then r.operands = []
  else
    match Form.ofOpcode? r.opcode with
    | some form => (form.pattern.withLayout form.layout).Accepts bound r.operands
    | none => ∀ id ∈ r.operands.take r.opcode.layout.width, IdBelow bound id

def result? (r : Record) : Option ResultId := r.opcode.layout.result? r.operands

end Stream.Record

/-! ## Readers that follow a pattern -/

variable {α β : Type} {s : Scope} {slot : Slot} {slots : List Slot} {tail : Tail}

def Scope.Takes (s : Scope) (x : Reader α) (slot : Slot) : Prop :=
  ∀ offset words rest, (∃ a end_, x.Returns ⟨offset, words⟩ a ⟨end_, rest⟩) ↔
    slot.Takes s.bound words rest

def Scope.Follows (s : Scope) (x : Reader α) (p : Pattern) : Prop :=
  ∀ offset words, (∃ a end_, x.Returns ⟨offset, words⟩ a ⟨end_, []⟩) ↔ p.Accepts s.bound words

namespace Scope

theorem takes_ref : s.Takes s.ref .ident := by
  intro offset words rest
  simp only [ref_returns, Slot.Takes]
  constructor
  · rintro ⟨id, _, hid, _, rfl, ⟨⟩⟩
    exact ⟨id, rfl, hid⟩
  · rintro ⟨id, rfl, hid⟩
    exact ⟨id, _, hid, rest, rfl, rfl⟩

theorem takes_word : s.Takes s.word .literal := by
  intro offset words rest
  simp only [word_returns, Slot.Takes]
  constructor
  · rintro ⟨w, _, _, rfl, ⟨⟩⟩
    exact ⟨w, rfl⟩
  · rintro ⟨w, rfl⟩
    exact ⟨w, _, rest, rfl, rfl⟩

theorem takes_enumerant (v : Vocabulary) : s.Takes (s.enumerant v) (.enumerant v) := by
  intro offset words rest
  simp only [enumerant_returns, Slot.Takes]
  constructor
  · rintro ⟨e, _, _, rfl, ⟨⟩⟩
    exact ⟨e.code, rfl, e.isKnown⟩
  · rintro ⟨w, rfl, hknown⟩
    exact ⟨⟨w, hknown⟩, _, rest, rfl, rfl⟩

theorem takes_string : s.Takes Cursor.readString .string :=
  fun _ _ _ => exists_readString_returns

theorem follows_bind {x : Reader α} {f : α → Reader β} (hx : s.Takes x slot)
    (hf : ∀ a, s.Follows (f a) ⟨slots, tail⟩) : s.Follows (x >>= f) ⟨slot :: slots, tail⟩ := by
  intro offset words
  simp only [Reader.returns_bind, Pattern.Accepts, Tail.TakesBehind]
  constructor
  · rintro ⟨b, end_, a, ⟨middle, rest⟩, hread, hrest⟩
    exact ⟨rest, (hx offset words rest).1 ⟨a, middle, hread⟩,
      (hf a middle rest).1 ⟨b, end_, hrest⟩⟩
  · rintro ⟨rest, hslot, hrest⟩
    obtain ⟨a, middle, hread⟩ := (hx offset words rest).2 hslot
    obtain ⟨b, end_, hrest⟩ := (hf a middle rest).2 hrest
    exact ⟨b, end_, a, _, hread, hrest⟩

theorem follows_pure (a : α) : s.Follows (pure a) ⟨[], .nothing⟩ := by
  intro offset words
  simp only [Reader.returns_pure, Pattern.Accepts, Tail.TakesBehind, Tail.Takes]
  constructor
  · rintro ⟨_, _, rfl, ⟨⟩⟩
    rfl
  · rintro rfl
    exact ⟨a, offset, rfl, rfl⟩

theorem follows_map {x : Reader α} {p : Pattern} (hx : s.Follows x p) (f : α → β) :
    s.Follows (x >>= fun a => pure (f a)) p := by
  intro offset words
  rw [← hx offset words]
  simp only [Reader.returns_bind, Reader.returns_pure]
  constructor
  · rintro ⟨_, end_, a, _, hread, rfl, rfl⟩
    exact ⟨a, end_, hread⟩
  · rintro ⟨a, end_, hread⟩
    exact ⟨f a, end_, a, _, hread, rfl, rfl⟩

theorem follows_rest : s.Follows Cursor.readRest ⟨[], .literals⟩ := fun _ words =>
  iff_of_true ⟨words, _, Cursor.readRest_returns.2 ⟨rfl, rfl⟩⟩ trivial

theorem follows_refs : s.Follows s.refs ⟨[], .idents⟩ := by
  intro offset words
  simp only [refs_returns, Pattern.Accepts, Tail.TakesBehind, Tail.Takes]
  constructor
  · rintro ⟨_, _, hids, -⟩
    exact hids
  · exact fun hids => ⟨words, _, hids, rfl, rfl⟩

theorem follows_ref? : s.Follows s.ref? ⟨[], .optionalIdent⟩ := by
  intro offset words
  simp only [ref?_returns, Pattern.Accepts, Tail.TakesBehind, Tail.Takes]
  constructor
  · rintro ⟨_ | id, _, hid, _, rfl, -, ⟨⟩⟩
    · exact .inl rfl
    · exact .inr ⟨id, rfl, hid id rfl⟩
  · rintro (rfl | ⟨id, rfl, hid⟩)
    · exact ⟨none, offset, by simp, [], rfl, by simp, rfl⟩
    · exact ⟨some id, offset + 1, by simpa using hid, [], rfl, by simp, rfl⟩

end Scope

open Scope

/-- The operands of a form are read exactly if they follow its pattern. -/
theorem Kind.read_follows (s : Scope) (form : Form) :
    s.Follows (Kind.read s form) form.pattern := by
  cases form
  case typeVoid | typeBool | functionParameter | label | ret => exact follows_pure _
  case typeStruct | constantComposite => exact follows_map follows_refs _
  case constant => exact follows_map follows_rest _
  case capability => exact follows_bind (takes_enumerant _) fun _ => follows_pure _
  case extension | extInstImport | sourceExtension =>
    exact follows_bind takes_string fun _ => follows_pure _
  case typeFloat => exact follows_bind takes_word fun _ => follows_pure _
  case typeRuntimeArray | retValue => exact follows_bind takes_ref fun _ => follows_pure _
  case typeFunction | accessChain | functionCall =>
    exact follows_bind takes_ref fun _ => follows_map follows_refs _
  case load | compositeExtract =>
    exact follows_bind takes_ref fun _ => follows_map follows_rest _
  case var => exact follows_bind (takes_enumerant _) fun _ => follows_map follows_ref? _
  case memoryModel =>
    exact follows_bind (takes_enumerant _) fun _ =>
      follows_bind (takes_enumerant _) fun _ => follows_pure _
  case executionMode | decorate =>
    exact follows_bind takes_ref fun _ =>
      follows_bind (takes_enumerant _) fun _ => follows_map follows_rest _
  case debugName =>
    exact follows_bind takes_ref fun _ => follows_bind takes_string fun _ => follows_pure _
  case memberName =>
    exact follows_bind takes_ref fun _ => follows_bind takes_word fun _ =>
      follows_bind takes_string fun _ => follows_pure _
  case memberDecorate =>
    exact follows_bind takes_ref fun _ => follows_bind takes_word fun _ =>
      follows_bind (takes_enumerant _) fun _ => follows_map follows_rest _
  case typeInt =>
    exact follows_bind takes_word fun _ => follows_bind takes_word fun _ => follows_pure _
  case typeVector =>
    exact follows_bind takes_ref fun _ => follows_bind takes_word fun _ => follows_pure _
  case typeArray | iAdd | iMul =>
    exact follows_bind takes_ref fun _ => follows_bind takes_ref fun _ => follows_pure _
  case typePointer =>
    exact follows_bind (takes_enumerant _) fun _ => follows_bind takes_ref fun _ =>
      follows_pure _
  case typeForwardPointer =>
    exact follows_bind takes_ref fun _ => follows_bind (takes_enumerant _) fun _ =>
      follows_pure _
  case function =>
    exact follows_bind takes_word fun _ => follows_bind takes_ref fun _ => follows_pure _
  case store =>
    exact follows_bind takes_ref fun _ => follows_bind takes_ref fun _ =>
      follows_map follows_rest _

theorem EntryPoint.read_follows (s : Scope) : s.Follows (EntryPoint.read s) EntryPoint.pattern :=
  follows_bind (takes_enumerant _) fun _ => follows_bind takes_ref fun _ =>
    follows_bind takes_string fun _ => follows_map follows_refs _

namespace Inst

/-- A result id is any word when it is read.  Whether it is below the bound is asked later. -/
private theorem read_result (s : Scope) (form : Form) (type? : Option ResultId) (offset : Nat)
    (words : List Word) :
    (∃ (i : Inst ResultId) (end_ : Nat), Reader.Returns
        (do return ⟨type?, some (← s.word), ← Kind.read s form⟩) ⟨offset, words⟩ i ⟨end_, []⟩ ∧
        ∀ id ∈ i.resultId, IdBelow s.bound id) ↔
      Pattern.Accepts s.bound ⟨.ident :: form.pattern.slots, form.pattern.tail⟩ words := by
  constructor
  · rintro ⟨i, end_, h, hresult⟩
    obtain ⟨id, _, hword, h⟩ := Reader.returns_bind.1 h
    obtain ⟨rest, rfl, rfl⟩ := Scope.word_returns.1 hword
    obtain ⟨k, _, hkind, h⟩ := Reader.returns_bind.1 h
    obtain ⟨rfl, rfl⟩ := Reader.returns_pure.1 h
    exact ⟨rest, ⟨id, rfl, hresult id rfl⟩, (Kind.read_follows s form _ _).1 ⟨k, end_, hkind⟩⟩
  · rintro ⟨rest, ⟨id, rfl, hid⟩, hrest⟩
    obtain ⟨k, end_, hkind⟩ := (Kind.read_follows s form (offset + 1) _).2 hrest
    refine ⟨⟨type?, some id, k⟩, end_, Reader.returns_bind.2 ⟨id, _, Scope.word_returns.2
      ⟨rest, rfl, rfl⟩, Reader.returns_bind.2 ⟨k, _, hkind, Reader.returns_pure.2 ⟨rfl, rfl⟩⟩⟩,
      ?_⟩
    rintro _ ⟨⟩
    exact hid

/-- An instruction of a form is read exactly if the operands follow pattern and layout. -/
theorem read_accepts (s : Scope) (form : Form) (offset : Nat) (words : List Word) :
    (∃ i end_, (read s form).Returns ⟨offset, words⟩ i ⟨end_, []⟩ ∧
        ∀ id ∈ i.resultId, IdBelow s.bound id) ↔
      (form.pattern.withLayout form.layout).Accepts s.bound words := by
  unfold read
  cases form.layout with
  | typed =>
      constructor
      · rintro ⟨i, end_, h, hresult⟩
        obtain ⟨type, ⟨middle, rest⟩, htype, h⟩ := Reader.returns_bind.1 h
        exact ⟨rest, (takes_ref offset words rest).1 ⟨type, middle, htype⟩,
          (read_result s form type middle rest).1 ⟨i, end_, h, hresult⟩⟩
      · rintro ⟨rest, htype, hrest⟩
        obtain ⟨type, middle, htype⟩ := (takes_ref offset words rest).2 htype
        obtain ⟨i, end_, h, hresult⟩ := (read_result s form type middle rest).2 hrest
        exact ⟨i, end_, Reader.returns_bind.2 ⟨type, _, htype, h⟩, hresult⟩
  | untyped => exact read_result s form none offset words
  | plain =>
      refine Iff.trans ?_ (follows_map (Kind.read_follows s form) (Inst.plain ·) offset words)
      refine exists_congr fun i => exists_congr fun end_ => and_iff_left_of_imp fun h => ?_
      obtain ⟨k, _, h⟩ := Reader.returns_bind.1 h
      obtain ⟨rfl, -⟩ := Reader.returns_pure.1 h.2
      rintro _ ⟨⟩

/-- Without a form only ids in front are checked. -/
theorem readRaw_accepts (s : Scope) (offset : Nat) (words : List Word) :
    (∃ i c', (readRaw s).Returns ⟨offset, words⟩ i c' ∧ ∀ id ∈ i.resultId, IdBelow s.bound id) ↔
      ∀ id ∈ words.take s.opcode.layout.width, IdBelow s.bound id := by
  have hraw (f : List Word → Reader (Inst ResultId)) : (∃ i c', Reader.Returns
      (Cursor.readRest >>= f) ⟨offset, words⟩ i c' ∧ ∀ id ∈ i.resultId, IdBelow s.bound id) ↔
      ∃ i c', (f words).Returns ⟨offset + words.length, []⟩ i c' ∧
        ∀ id ∈ i.resultId, IdBelow s.bound id := by
    simp only [Reader.returns_bind, Cursor.readRest_returns]
    constructor
    · rintro ⟨i, c', ⟨_, _, ⟨rfl, rfl⟩, h⟩, hresult⟩
      exact ⟨i, c', h, hresult⟩
    · rintro ⟨i, c', h, hresult⟩
      exact ⟨i, c', ⟨_, _, ⟨rfl, rfl⟩, h⟩, hresult⟩
  unfold readRaw
  rw [hraw]
  cases s.opcode.layout <;> rcases words with _ | ⟨first, _ | ⟨second, rest⟩⟩ <;>
    simp [Reader.returns_map, Reader.returns_pure, Scope.checked_returns, Layout.width, plain]

theorem read_result? {s : Scope} {form : Form} {offset : Nat} {words : List Word}
    {i : Inst ResultId} {c' : Cursor} (h : (read s form).Returns ⟨offset, words⟩ i c') :
    i.resultId = form.layout.result? words := by
  unfold read at h
  cases hlayout : form.layout with
  | typed =>
      rw [hlayout] at h
      obtain ⟨type, _, htype, h⟩ := Reader.returns_bind.1 h
      obtain ⟨-, rest, rfl, rfl⟩ := Scope.ref_returns.1 htype
      obtain ⟨id, _, hword, h⟩ := Reader.returns_bind.1 h
      obtain ⟨rest, rfl, rfl⟩ := Scope.word_returns.1 hword
      obtain ⟨k, -, rfl⟩ := Reader.returns_map.1 h
      rfl
  | untyped =>
      rw [hlayout] at h
      obtain ⟨id, _, hword, h⟩ := Reader.returns_bind.1 h
      obtain ⟨rest, rfl, rfl⟩ := Scope.word_returns.1 hword
      obtain ⟨k, -, rfl⟩ := Reader.returns_map.1 h
      rfl
  | plain =>
      rw [hlayout] at h
      obtain ⟨k, -, rfl⟩ := Reader.returns_map.1 h
      rfl

theorem readRaw_result? {s : Scope} {offset : Nat} {words : List Word} {i : Inst ResultId}
    {c' : Cursor} (h : (readRaw s).Returns ⟨offset, words⟩ i c') :
    i.resultId = s.opcode.layout.result? words := by
  unfold readRaw at h
  obtain ⟨_, _, hrest, h⟩ := Reader.returns_bind.1 h
  obtain ⟨rfl, rfl⟩ := Cursor.readRest_returns.1 hrest
  generalize s.opcode.layout = layout at h ⊢
  split at h
  · obtain ⟨rfl, -⟩ := Reader.returns_pure.1 h
    rfl
  · obtain ⟨type, -, rfl⟩ := Reader.returns_map.1 h
    simp [Layout.result?, List.head?_eq_getElem?]
  · obtain ⟨rfl, -⟩ := Reader.returns_pure.1 h
    simp [Layout.result?, List.head?_eq_getElem?]
  · obtain ⟨rfl, -⟩ := Reader.returns_pure.1 h
    rfl

end Inst

end KernelGrid
