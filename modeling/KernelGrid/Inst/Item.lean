import KernelGrid.Inst.Basic
import KernelGrid.Stream.Record

/-!
# Reading records

What one record contributes to a module, read off its operand words.  Ids are checked against the
bound of the header as they are read, so that of several faults the leftmost is reported.
-/

namespace KernelGrid

open KernelGrid.Stream

/-- An entry point, the end of a function, or an instruction. -/
inductive Item (ρ : Type) where
  | entryPoint (e : EntryPoint ρ)
  | functionEnd
  | inst (i : Inst ρ)
deriving DecidableEq

/-- Ids are not zero and stay below the bound. -/
def checkId (bound id : ResultId) : Except ModuleError ResultId :=
  if id = 0 ∨ bound ≤ id then .error (.idOutOfBound id bound) else .ok id

/-- What the meaning of operand words depends on. -/
structure Scope where
  bound : ResultId
  opcode : Opcode
  offset : Nat

namespace Scope

variable (s : Scope)

def fault (flaw : Flaw) : ModuleError :=
  .malformed s.opcode s.offset flaw

def word : Reader Word :=
  ExceptT.adapt (fun _ => s.fault .missingOperand) Cursor.readWord

def checked (id : ResultId) : Reader ResultId :=
  MonadExcept.ofExcept (checkId s.bound id)

def ref : Reader ResultId := do
  s.checked (← s.word)

/-- All words that are left, as ids. -/
def refs : Reader (List ResultId) := do
  (← Cursor.readRest).mapM s.checked

/-- One id, or nothing if no word is left. -/
def ref? : Reader (Option ResultId) := do
  if (← get).isEmpty then return none else return some (← s.ref)

def enumerant (v : Vocabulary) : Reader (Enumerant v) := do
  let code ← s.word
  match Enumerant.ofCode? code with
  | some e => return e
  | none => throw (s.fault (.unknown v.label code))

/-- Nothing may be left over. -/
def finish : Reader Unit := do
  unless (← get).isEmpty do throw (s.fault .trailingOperands)

end Scope

/-- The operands after result type and result id. -/
def Kind.read (s : Scope) : Form → Reader (Kind ResultId)
  | .capability => return capability (← s.enumerant _)
  | .extension => return extension (← Cursor.readString)
  | .extInstImport => return extInstImport (← Cursor.readString)
  | .memoryModel => return memoryModel (← s.enumerant _) (← s.enumerant _)
  | .executionMode => return executionMode (← s.ref) (← s.enumerant _) (← Cursor.readRest)
  | .sourceExtension => return sourceExtension (← Cursor.readString)
  | .debugName => return debugName (← s.ref) (← Cursor.readString)
  | .memberName => return memberName (← s.ref) (← s.word) (← Cursor.readString)
  | .decorate => return decorate (← s.ref) (← s.enumerant _) (← Cursor.readRest)
  | .memberDecorate =>
    return memberDecorate (← s.ref) (← s.word) (← s.enumerant _) (← Cursor.readRest)
  | .typeVoid => return typeVoid
  | .typeBool => return typeBool
  | .typeInt => return typeInt (← s.word) ((← s.word) ≠ 0)
  | .typeFloat => return typeFloat (← s.word)
  | .typeVector => return typeVector (← s.ref) (← s.word)
  | .typeArray => return typeArray (← s.ref) (← s.ref)
  | .typeRuntimeArray => return typeRuntimeArray (← s.ref)
  | .typeStruct => return typeStruct (← s.refs)
  | .typePointer => return typePointer (← s.enumerant _) (← s.ref)
  | .typeForwardPointer => return typeForwardPointer (← s.ref) (← s.enumerant _)
  | .typeFunction => return typeFunction (← s.ref) (← s.refs)
  | .constant => return constant (← Cursor.readRest)
  | .constantComposite => return constantComposite (← s.refs)
  | .var => return var (← s.enumerant _) (← s.ref?)
  | .function => return function (← s.word) (← s.ref)
  | .functionParameter => return functionParameter
  | .label => return label
  | .load => return load (← s.ref) (← Cursor.readRest)
  | .store => return store (← s.ref) (← s.ref) (← Cursor.readRest)
  | .accessChain => return accessChain (← s.ref) (← s.refs)
  | .compositeExtract => return compositeExtract (← s.ref) (← Cursor.readRest)
  | .iAdd => return iAdd (← s.ref) (← s.ref)
  | .iMul => return iMul (← s.ref) (← s.ref)
  | .functionCall => return functionCall (← s.ref) (← s.refs)
  | .ret => return ret
  | .retValue => return retValue (← s.ref)

namespace Inst

def read (s : Scope) (form : Form) : Reader (Inst ResultId) := do
  match form.layout with
  | .typed => return ⟨some (← s.ref), some (← s.word), ← Kind.read s form⟩
  | .untyped => return ⟨none, some (← s.word), ← Kind.read s form⟩
  | .plain => return ⟨none, none, ← Kind.read s form⟩

/-- The opcode table says what the operands start with.  They may end early. -/
def readRaw (s : Scope) : Reader (Inst ResultId) := do
  let words ← Cursor.readRest
  match s.opcode.layout, words with
  | .typed, [] => return plain (.raw s.opcode [])
  | .typed, type :: words =>
    return ⟨some (← s.checked type), words.head?, .raw s.opcode words.tail⟩
  | .untyped, words => return ⟨none, words.head?, .raw s.opcode words.tail⟩
  | .plain, words => return plain (.raw s.opcode words)

end Inst

def EntryPoint.read (s : Scope) : Reader (EntryPoint ResultId) :=
  return ⟨← s.enumerant _, ← s.ref, ← Cursor.readString, ← s.refs, none⟩

namespace Item

def read (s : Scope) : Reader (Item ResultId) := do
  if s.opcode = Opcode.entryPoint then return entryPoint (← EntryPoint.read s)
  else if s.opcode = Opcode.functionEnd then
    s.finish
    return functionEnd
  else
    match Form.ofOpcode? s.opcode with
    | some form =>
      let i ← Inst.read s form
      s.finish
      return inst i
    | none => return inst (← Inst.readRaw s)

def ofRecord (bound : ResultId) (r : Record) : Except ModuleError (Item ResultId) :=
  ((read ⟨bound, r.opcode, r.offset⟩).run.run ⟨r.offset + 1, r.operands⟩).1

end Item

end KernelGrid
