import KernelGrid.Grammar.Capability
import KernelGrid.Grammar.Decoration
import KernelGrid.Grammar.ExecutionModel
import KernelGrid.Grammar.Form
import KernelGrid.Grammar.MemoryModel
import KernelGrid.Grammar.StorageClass
import KernelGrid.Inst.Operand

/-!
# Instructions

An instruction has a kind, which holds its operands, and may have a result id and a result type.
What the transformation reasons about has a kind of its own; every other opcode keeps its operand
words unread.  Kinds are generic in the type of references, so that the same instruction can be
looked at as it stands in a stream (with ids) and as it is linked in a module (with handles).
-/

namespace KernelGrid

inductive Kind (ρ : Type) where
  /-- Stands for a result that was referred to before it was defined. -/
  | placeholder
  | capability (capability : Capability)
  | extension (name : String)
  | extInstImport (name : String)
  | memoryModel (addressing : AddressingModel) (memory : MemoryModel)
  | executionMode (entry : ρ) (mode : ExecutionMode) (operands : List Word)
  | sourceExtension (name : String)
  | debugName (target : ρ) (name : String)
  | memberName (target : ρ) (member : Word) (name : String)
  | decorate (target : ρ) (decoration : Decoration) (operands : List Word)
  | memberDecorate (target : ρ) (member : Word) (decoration : Decoration) (operands : List Word)
  | typeVoid
  | typeBool
  | typeInt (width : Word) (signed : Bool)
  | typeFloat (width : Word)
  | typeVector (component : ρ) (count : Word)
  | typeArray (element length : ρ)
  | typeRuntimeArray (element : ρ)
  | typeStruct (members : List ρ)
  | typePointer (storage : StorageClass) (pointee : ρ)
  /-- Announces a pointer type; it has no result of its own. -/
  | typeForwardPointer (pointer : ρ) (storage : StorageClass)
  | typeFunction (result : ρ) (parameters : List ρ)
  /-- A scalar; the number of its words follows from the width of the type. -/
  | constant (value : List Word)
  | constantComposite (parts : List ρ)
  | var (storage : StorageClass) (initializer : Option ρ)
  | function (control : Word) (type : ρ)
  | functionParameter
  | label
  | load (pointer : ρ) (access : List Word)
  | store (pointer object : ρ) (access : List Word)
  | accessChain (base : ρ) (indices : List ρ)
  | compositeExtract (composite : ρ) (indices : List Word)
  | iAdd (a b : ρ)
  | iMul (a b : ρ)
  | functionCall (callee : ρ) (arguments : List ρ)
  | ret
  | retValue (value : ρ)
  /-- Any other opcode, with the words after result type and result id. -/
  | raw (opcode : Opcode) (operands : List Word)
deriving DecidableEq

namespace Kind

variable {ρ σ : Type}

def opcode : Kind ρ → Opcode
  | placeholder => 0
  | capability _ => Form.capability.opcode
  | extension _ => Form.extension.opcode
  | extInstImport _ => Form.extInstImport.opcode
  | memoryModel _ _ => Form.memoryModel.opcode
  | executionMode _ _ _ => Form.executionMode.opcode
  | sourceExtension _ => Form.sourceExtension.opcode
  | debugName _ _ => Form.debugName.opcode
  | memberName _ _ _ => Form.memberName.opcode
  | decorate _ _ _ => Form.decorate.opcode
  | memberDecorate _ _ _ _ => Form.memberDecorate.opcode
  | typeVoid => Form.typeVoid.opcode
  | typeBool => Form.typeBool.opcode
  | typeInt _ _ => Form.typeInt.opcode
  | typeFloat _ => Form.typeFloat.opcode
  | typeVector _ _ => Form.typeVector.opcode
  | typeArray _ _ => Form.typeArray.opcode
  | typeRuntimeArray _ => Form.typeRuntimeArray.opcode
  | typeStruct _ => Form.typeStruct.opcode
  | typePointer _ _ => Form.typePointer.opcode
  | typeForwardPointer _ _ => Form.typeForwardPointer.opcode
  | typeFunction _ _ => Form.typeFunction.opcode
  | constant _ => Form.constant.opcode
  | constantComposite _ => Form.constantComposite.opcode
  | var _ _ => Form.var.opcode
  | function _ _ => Form.function.opcode
  | functionParameter => Form.functionParameter.opcode
  | label => Form.label.opcode
  | load _ _ => Form.load.opcode
  | store _ _ _ => Form.store.opcode
  | accessChain _ _ => Form.accessChain.opcode
  | compositeExtract _ _ => Form.compositeExtract.opcode
  | iAdd _ _ => Form.iAdd.opcode
  | iMul _ _ => Form.iMul.opcode
  | functionCall _ _ => Form.functionCall.opcode
  | ret => Form.ret.opcode
  | retValue _ => Form.retValue.opcode
  | raw opcode _ => opcode

/-- The operands after result type and result id, in the order of the format. -/
def operands : Kind ρ → List (Operand ρ)
  | placeholder => [.remark "<unresolved>"]
  | capability c => [c.operand]
  | extension name => [.string name]
  | extInstImport name => [.string name]
  | memoryModel addressing memory => [addressing.operand, memory.operand]
  | executionMode entry mode operands => .ref entry :: mode.operand :: operands.map .literal
  | sourceExtension name => [.string name]
  | debugName target name => [.ref target, .string name]
  | memberName target member name => [.ref target, .literal member, .string name]
  | decorate target decoration operands =>
    .ref target :: decoration.operand :: operands.map .literal
  | memberDecorate target member decoration operands =>
    .ref target :: .literal member :: decoration.operand :: operands.map .literal
  | typeVoid => []
  | typeBool => []
  | typeInt width signed => [.literal width, .literal signed.toNat.toUInt32]
  | typeFloat width => [.literal width]
  | typeVector component count => [.ref component, .literal count]
  | typeArray element length => [.ref element, .ref length]
  | typeRuntimeArray element => [.ref element]
  | typeStruct members => members.map .ref
  | typePointer storage pointee => [storage.operand, .ref pointee]
  | typeForwardPointer pointer storage => [.ref pointer, storage.operand]
  | typeFunction result parameters => .ref result :: parameters.map .ref
  | constant value => value.map .literal
  | constantComposite parts => parts.map .ref
  | var storage initializer => storage.operand :: initializer.toList.map .ref
  | function control type => [.literal control, .ref type]
  | functionParameter => []
  | label => []
  | load pointer access => .ref pointer :: access.map .hidden
  | store pointer object access => .ref pointer :: .ref object :: access.map .hidden
  | accessChain base indices => .ref base :: indices.map .ref
  | compositeExtract composite indices => .ref composite :: indices.map .literal
  | iAdd a b => [.ref a, .ref b]
  | iMul a b => [.ref a, .ref b]
  | functionCall callee arguments => .ref callee :: arguments.map .ref
  | ret => []
  | retValue value => [.ref value]
  | raw _ operands => operands.map .literal

/-- Replaces each reference, from left to right. -/
def mapM {m : Type → Type} [Monad m] (f : ρ → m σ) : Kind ρ → m (Kind σ)
  | placeholder => pure placeholder
  | capability c => pure (capability c)
  | extension name => pure (extension name)
  | extInstImport name => pure (extInstImport name)
  | memoryModel addressing memory => pure (memoryModel addressing memory)
  | executionMode entry mode operands => return executionMode (← f entry) mode operands
  | sourceExtension name => pure (sourceExtension name)
  | debugName target name => return debugName (← f target) name
  | memberName target member name => return memberName (← f target) member name
  | decorate target decoration operands => return decorate (← f target) decoration operands
  | memberDecorate target member decoration operands =>
    return memberDecorate (← f target) member decoration operands
  | typeVoid => pure typeVoid
  | typeBool => pure typeBool
  | typeInt width signed => pure (typeInt width signed)
  | typeFloat width => pure (typeFloat width)
  | typeVector component count => return typeVector (← f component) count
  | typeArray element length => return typeArray (← f element) (← f length)
  | typeRuntimeArray element => return typeRuntimeArray (← f element)
  | typeStruct members => return typeStruct (← members.mapM f)
  | typePointer storage pointee => return typePointer storage (← f pointee)
  | typeForwardPointer pointer storage => return typeForwardPointer (← f pointer) storage
  | typeFunction result parameters => return typeFunction (← f result) (← parameters.mapM f)
  | constant value => pure (constant value)
  | constantComposite parts => return constantComposite (← parts.mapM f)
  | var storage none => pure (var storage none)
  | var storage (some initializer) => return var storage (some (← f initializer))
  | function control type => return function control (← f type)
  | functionParameter => pure functionParameter
  | label => pure label
  | load pointer access => return load (← f pointer) access
  | store pointer object access => return store (← f pointer) (← f object) access
  | accessChain base indices => return accessChain (← f base) (← indices.mapM f)
  | compositeExtract composite indices => return compositeExtract (← f composite) indices
  | iAdd a b => return iAdd (← f a) (← f b)
  | iMul a b => return iMul (← f a) (← f b)
  | functionCall callee arguments => return functionCall (← f callee) (← arguments.mapM f)
  | ret => pure ret
  | retValue value => return retValue (← f value)
  | raw opcode operands => pure (raw opcode operands)

def isPlaceholder : Kind ρ → Bool
  | placeholder => true
  | _ => false

/-- Whether the kind declares a type.  A forward pointer only announces one. -/
def isType : Kind ρ → Bool
  | typeVoid | typeBool | typeInt _ _ | typeFloat _ | typeVector _ _ | typeArray _ _
  | typeRuntimeArray _ | typeStruct _ | typePointer _ _ | typeFunction _ _ => true
  | _ => false

def isConstant : Kind ρ → Bool
  | constant _ | constantComposite _ => true
  | _ => false

def isStruct : Kind ρ → Bool
  | typeStruct _ => true
  | _ => false

def isVar : Kind ρ → Bool
  | var _ _ => true
  | _ => false

def isName : Kind ρ → Bool
  | debugName _ _ | memberName _ _ _ => true
  | _ => false

/-- Whether the kind states the source language. -/
def isSource : Kind ρ → Bool
  | raw opcode _ => opcode = Opcode.source
  | _ => false

/-- The storage class that the kind itself states. -/
def storage? : Kind ρ → Option StorageClass
  | typePointer storage _ => some storage
  | typeForwardPointer _ storage => some storage
  | var storage _ => some storage
  | _ => none

/-- Overwrites the storage class where the kind states one. -/
def withStorage (storage : StorageClass) : Kind ρ → Kind ρ
  | typePointer _ pointee => typePointer storage pointee
  | typeForwardPointer pointer _ => typeForwardPointer pointer storage
  | var _ initializer => var storage initializer
  | k => k

end Kind

structure Inst (ρ : Type) where
  resultType : Option ρ
  resultId : Option ResultId
  kind : Kind ρ
deriving DecidableEq

namespace Inst

variable {ρ σ : Type}

/-- An instruction that defines nothing. -/
def plain (kind : Kind ρ) : Inst ρ := ⟨none, none, kind⟩

def placeholder (id : ResultId) : Inst ρ := ⟨none, some id, .placeholder⟩

def isPlaceholder (i : Inst ρ) : Bool := i.kind.isPlaceholder

def opcode (i : Inst ρ) : Opcode := i.kind.opcode

/-- Everything the instruction refers to, its result type first. -/
def references (i : Inst ρ) : List ρ :=
  i.resultType.toList ++ i.kind.operands.filterMap Operand.target?

/-- Replaces each reference, the result type first. -/
def mapM {m : Type → Type} [Monad m] (f : ρ → m σ) : Inst ρ → m (Inst σ)
  | ⟨none, id, kind⟩ => return ⟨none, id, ← kind.mapM f⟩
  | ⟨some type, id, kind⟩ => return ⟨some (← f type), id, ← kind.mapM f⟩

end Inst

/-- The size of a work group. -/
structure Extent where
  x : Word
  y : Word
  z : Word
deriving DecidableEq, Repr

def Extent.toList (e : Extent) : List Word := [e.x, e.y, e.z]

/-- A function that the host can launch, with the global variables it uses. -/
structure EntryPoint (ρ : Type) where
  model : ExecutionModel
  function : ρ
  name : String
  interface : List ρ
  localSize : Option Extent
deriving DecidableEq

end KernelGrid
