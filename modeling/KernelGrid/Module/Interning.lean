import KernelGrid.Module.Basic

/-!
# Types and constants

Types and constants are declared once: asking again for the same description returns the same
declaration.
-/

namespace KernelGrid

/-- Under which description an instruction is found again, if it declares a type or a
constant. -/
def Inst.description? (i : Inst Handle) : Option Description :=
  if i.kind.isType then some ⟨none, i.kind⟩
  else if i.kind.isConstant ∧ i.resultType.isSome then some ⟨i.resultType, i.kind⟩
  else none

namespace Module

def declare (h : Handle) : Edit Unit :=
  modify fun m => { m with globals := m.globals ++ [h] }

/-- The declaration with the given description, made if there is none yet. -/
def intern (d : Description) : Edit Handle := do
  match (← get).interned.lookup d with
  | some h => return h
  | none =>
    let h ← define d.type d.kind
    declare h
    modify fun m => { m with interned := m.interned ++ [(d, h)] }
    return h

/-- Interns the declarations of the globals section anew, in order.  Needed after a change that
makes kinds equal or different; of equal declarations the first is found. -/
def reintern (m : Module) : Module :=
  { m with interned := m.globals.filterMap fun h =>
      if h ∈ m.distinct then none else (m.inst h).description?.map (·, h) }

def internType (kind : Kind Handle) : Edit Handle := intern ⟨none, kind⟩

def internConstant (type : Handle) (kind : Kind Handle) : Edit Handle := intern ⟨some type, kind⟩

def voidType : Edit Handle := internType .typeVoid

def boolType : Edit Handle := internType .typeBool

def intType (width : Word) (signed : Bool) : Edit Handle := internType (.typeInt width signed)

def unsignedType (width : Word) : Edit Handle := intType width false

def floatType (width : Word) : Edit Handle := internType (.typeFloat width)

def vectorType (component : Handle) (count : Word) : Edit Handle :=
  internType (.typeVector component count)

def arrayType (element length : Handle) : Edit Handle := internType (.typeArray element length)

def runtimeArrayType (element : Handle) : Edit Handle := internType (.typeRuntimeArray element)

def structType (members : List Handle) : Edit Handle := internType (.typeStruct members)

/-- A struct type that is distinct from every other, for members with decorations of their
own. -/
def freshStructType (members : List Handle) : Edit Handle := do
  let h ← define none (.typeStruct members)
  declare h
  modify fun m => { m with distinct := h :: m.distinct }
  return h

def pointerType (storage : StorageClass) (pointee : Handle) : Edit Handle :=
  internType (.typePointer storage pointee)

def functionType (result : Handle) (parameters : List Handle) : Edit Handle :=
  internType (.typeFunction result parameters)

/-- A scalar constant of one word. -/
def constant (type : Handle) (value : Word) : Edit Handle :=
  internConstant type (.constant [value])

def constantComposite (type : Handle) (parts : List Handle) : Edit Handle :=
  internConstant type (.constantComposite parts)

/-- The first word of a scalar constant. -/
def constantValue? (m : Module) (h : Handle) : Option Word :=
  match m.kindOf h with
  | .constant value => value.head?
  | _ => none

def pointee? (m : Module) (h : Handle) : Option Handle :=
  match m.kindOf h with
  | .typePointer _ pointee => some pointee
  | _ => none

end Module

end KernelGrid
