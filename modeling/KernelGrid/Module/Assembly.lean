import KernelGrid.Inst.Item
import KernelGrid.Module.Interning

/-!
# Assembling a module from a stream

Records are read in order.  An id that was not defined yet is represented by a placeholder, which
its definition replaces later.  After the last record no placeholder may be left.
-/

namespace KernelGrid

open KernelGrid.Stream

namespace Module

/-- What stands for an id, made on first mention. -/
def reference (id : ResultId) : Edit Handle := do
  match (← get).byId? id with
  | some h => return h
  | none => append (.placeholder id)

/-- Stores an instruction from a stream, in its placeholder if there is one. -/
def insert (bound : ResultId) (i : Inst Handle) (m : Module) :
    Except ModuleError (Handle × Module) :=
  match i.resultId with
  | none => .ok (append i m)
  | some id => do
    let id ← checkId bound id
    match m.byId? id with
    | none => .ok (append i m)
    | some h =>
      if (m.inst h).isPlaceholder then
        .ok (h, { m with insts := m.insts.modify h fun _ => i })
      else .error (.duplicateId id)

/-- Gives a work group size to the first entry point of a function, if it has one. -/
def claimSize? (m : Module) (function : Handle) (size : Extent) : Option Module :=
  (m.entryPoints.findIdx? (·.function = function)).map fun i =>
    { m with entryPoints := m.entryPoints.modify i fun e => { e with localSize := some size } }

/-- Resolves an execution mode: a work group size belongs to its entry point. -/
def claimMode? (m : Module) (kind : Kind Handle) : Option Module :=
  match kind with
  | .executionMode entry mode [x, y, z] =>
    if mode = .localSize then m.claimSize? entry ⟨x, y, z⟩ else none
  | _ => none

end Module

/-- Replaces ids by handles. -/
def Inst.link (i : Inst ResultId) : Edit (Inst Handle) := i.mapM Module.reference

def EntryPoint.link (e : EntryPoint ResultId) : Edit (EntryPoint Handle) := do
  let function ← Module.reference e.function
  let interface ← e.interface.mapM Module.reference
  return ⟨e.model, function, e.name, interface, e.localSize⟩

/-- Where an instruction outside functions goes. -/
inductive Section where
  | capabilities
  | extensions
  | extInstImports
  | memoryModel
  | executionModes
  | debug
  | annotations
  | globals
deriving DecidableEq, Repr

namespace Section

def debugOpcodes : List Opcode :=
  [Opcode.string, Opcode.source, Opcode.sourceContinued, Form.sourceExtension.opcode,
    Form.debugName.opcode, Form.memberName.opcode, Opcode.moduleProcessed]

def annotationOpcodes : List Opcode :=
  [Form.decorate.opcode, Form.memberDecorate.opcode, Opcode.decorationGroup,
    Opcode.groupDecorate, Opcode.groupMemberDecorate, Opcode.decorateId, Opcode.decorateString,
    Opcode.memberDecorateString]

/-- What belongs nowhere else is a global declaration. -/
def ofOpcode (op : Opcode) : Section :=
  if op = Form.capability.opcode then capabilities
  else if op = Form.extension.opcode then extensions
  else if op = Form.extInstImport.opcode then extInstImports
  else if op = Form.memoryModel.opcode then memoryModel
  else if op = Form.executionMode.opcode ∨ op = Opcode.executionModeId then executionModes
  else if op ∈ debugOpcodes then debug
  else if op ∈ annotationOpcodes then annotations
  else globals

/-- Adds to the end of the section.  The last memory model counts. -/
def add (s : Section) (h : Handle) (m : Module) : Module :=
  match s with
  | capabilities => { m with capabilities := m.capabilities ++ [h] }
  | extensions => { m with extensions := m.extensions ++ [h] }
  | extInstImports => { m with extInstImports := m.extInstImports ++ [h] }
  | memoryModel => { m with memoryModel := some h }
  | executionModes => { m with executionModes := m.executionModes ++ [h] }
  | debug => { m with debug := m.debug ++ [h] }
  | annotations => { m with annotations := m.annotations ++ [h] }
  | globals => { m with globals := m.globals ++ [h] }

end Section

/-- A function whose end was not read yet, with its last block. -/
structure OpenFunction where
  definition : FunctionDef
  block : Option Block

namespace OpenFunction

/-- The function with its last block. -/
def close (f : OpenFunction) : FunctionDef :=
  { f.definition with blocks := f.definition.blocks ++ f.block.toList }

/-- Adds an instruction of the given opcode, unless it may not stand here. -/
def add (op : Opcode) (h : Handle) (f : OpenFunction) : Except Flaw OpenFunction :=
  if op = Form.function.opcode then .error .nestedFunction
  else if op = Form.functionParameter.opcode then
    if f.close.blocks.isEmpty then
      .ok { f with definition.parameters := f.definition.parameters ++ [h] }
    else .error .lateParameter
  else if op = Form.label.opcode then .ok ⟨f.close, some ⟨h, []⟩⟩
  else
    match f.block with
    | some b => .ok { f with block := some { b with body := b.body ++ [h] } }
    | none => .error .outsideBlock

end OpenFunction

/-- A module of which not all records were read yet. -/
structure Assembly where
  module : Module
  current : Option OpenFunction

namespace Assembly

def start (header : Header) : Assembly where
  module := { Module.empty with header }
  current := none

/-- Puts a stored instruction where it belongs. -/
def place (op : Opcode) (h : Handle) (a : Assembly) : Except Flaw Assembly :=
  match a.current with
  | some f => return { a with current := some (← f.add op h) }
  | none =>
    if op = Form.function.opcode then
      .ok { a with current := some ⟨.empty h, none⟩ }
    else if op = Form.functionParameter.opcode ∨ op = Form.label.opcode then
      .error .outsideFunction
    else .ok { a with module := (Section.ofOpcode op).add h a.module }

/-- Ends the open function. -/
def close (a : Assembly) : Except Flaw Assembly :=
  match a.current with
  | some f =>
    .ok ⟨{ a.module with functions := a.module.functions ++ [f.close] }, none⟩
  | none => .error .endOutsideFunction

/-- Execution modes belong to the module wherever they stand. -/
def accept (bound : ResultId) (a : Assembly) (r : Record) : Except ModuleError Assembly := do
  let flawed := ModuleError.malformed r.opcode r.offset
  match ← Item.ofRecord bound r with
  | .entryPoint e =>
    let (e, m) := e.link a.module
    return { a with module := { m with entryPoints := m.entryPoints ++ [e] } }
  | .functionEnd => a.close.mapError flawed
  | .inst i =>
    let (i, m) := i.link a.module
    match m.claimMode? i.kind with
    | some m => return { a with module := m }
    | none =>
      let (h, m) ← m.insert bound i
      if r.opcode = Form.executionMode.opcode then
        return { a with module := Section.executionModes.add h m }
      else (place r.opcode h { a with module := m }).mapError flawed

/-- The module, once all `length` words are read. -/
def finish (length : Nat) (a : Assembly) : Except ModuleError Module :=
  match a.current with
  | some _ => .error (.malformed Form.function.opcode length .missingEnd)
  | none => .ok a.module

end Assembly

/-- The header at the start of a stream, and the position of the first record. -/
def Header.read : List Word → Except ModuleError (Header × Cursor)
  | first :: version :: generator :: bound :: _ :: records =>
    if first ≠ Stream.magic then .error (.badMagic first)
    else if maxIdBound < bound then .error (.boundTooLarge bound)
    else .ok (⟨version, generator, max bound 1⟩, ⟨Stream.headerWords, records⟩)
  | words => .error (.truncated 0 Stream.headerWords words.length)

namespace Module

/-- Reads a whole stream.  Ids may still be undefined in the result. -/
def decode (words : List Word) : Except ModuleError Module := do
  let (header, cursor) ← Header.read words
  let (records, fault) := Record.split cursor
  let assembly ← records.foldlM (Assembly.accept header.bound) (.start header)
  match fault with
  | some e => throw e
  | none => assembly.finish words.length

/-- The ids that were mentioned but not defined. -/
def undefinedIds (m : Module) : List ResultId :=
  m.insts.toList.filterMap fun (_, i) => if i.isPlaceholder then i.resultId else none

/-- Checks that every id that is mentioned is defined, and interns the declarations. -/
def resolve (m : Module) : Except ModuleError Module :=
  match m.undefinedIds.min? with
  | some id => .error (.unresolvedId id)
  | none => .ok m.reintern

end Module

end KernelGrid
