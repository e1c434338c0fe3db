import KernelGrid.Grammar.Opcode

/-!
# Instruction forms

The opcodes that have a kind of instruction of their own, with operands that are read one by one.
Every other opcode keeps its operand words as they stand.
-/

namespace KernelGrid

inductive Form where
  | sourceExtension | debugName | memberName | extension | extInstImport | memoryModel
  | executionMode | capability
  | typeVoid | typeBool | typeInt | typeFloat | typeVector | typeArray | typeRuntimeArray
  | typeStruct | typePointer | typeFunction | typeForwardPointer
  | constant | constantComposite
  | function | functionParameter | functionCall
  | var | load | store | accessChain
  | decorate | memberDecorate
  | compositeExtract | iAdd | iMul
  | label | ret | retValue
deriving DecidableEq, Repr

namespace Form

def opcode : Form → Opcode
  | sourceExtension => 4
  | debugName => 5
  | memberName => 6
  | extension => 10
  | extInstImport => 11
  | memoryModel => 14
  | executionMode => 16
  | capability => 17
  | typeVoid => 19
  | typeBool => 20
  | typeInt => 21
  | typeFloat => 22
  | typeVector => 23
  | typeArray => 28
  | typeRuntimeArray => 29
  | typeStruct => 30
  | typePointer => 32
  | typeFunction => 33
  | typeForwardPointer => 39
  | constant => 43
  | constantComposite => 44
  | function => 54
  | functionParameter => 55
  | functionCall => 57
  | var => 59
  | load => 61
  | store => 62
  | accessChain => 65
  | decorate => 71
  | memberDecorate => 72
  | compositeExtract => 81
  | iAdd => 128
  | iMul => 132
  | label => 248
  | ret => 253
  | retValue => 254

/-- Every form, by increasing opcode. -/
def all : List Form :=
  [sourceExtension, debugName, memberName, extension, extInstImport, memoryModel, executionMode,
    capability, typeVoid, typeBool, typeInt, typeFloat, typeVector, typeArray,
    typeRuntimeArray, typeStruct, typePointer, typeFunction, typeForwardPointer, constant,
    constantComposite, function, functionParameter, functionCall, var, load, store,
    accessChain, decorate, memberDecorate, compositeExtract, iAdd, iMul, label, ret, retValue]

def ofOpcode? (op : Opcode) : Option Form :=
  all.find? (·.opcode = op)

@[simp] theorem ofOpcode?_opcode (f : Form) : ofOpcode? f.opcode = some f := by
  cases f <;> rfl

theorem opcode_of_ofOpcode? {op : Opcode} {f : Form} (h : ofOpcode? op = some f) :
    f.opcode = op := by
  simpa using List.find?_some h

def layout : Form → Layout
  | constant | constantComposite | function | functionParameter | functionCall | var | load
  | accessChain | compositeExtract | iAdd | iMul => .typed
  | extInstImport | typeVoid | typeBool | typeInt | typeFloat | typeVector | typeArray
  | typeRuntimeArray | typeStruct | typePointer | typeFunction | label => .untyped
  | _ => .plain

/-- The forms follow the opcode table. -/
theorem layout_opcode (f : Form) : f.opcode.layout = f.layout := by
  cases f <;> decide +kernel

end Form

end KernelGrid
