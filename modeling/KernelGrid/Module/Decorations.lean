import KernelGrid.Module.Interning

/-!
# Decorations

Attaching decorations and asking for them, and the variables that stand for built-in values.
-/

namespace KernelGrid

/-! ## Numbers of built-in values -/

namespace BuiltIn

def numWorkgroups : Word := 24
def globalInvocationId : Word := 28

end BuiltIn

namespace Module

/-! ## Attaching and asking -/

/-- Adds to the end of the annotations. -/
def annotate (kind : Kind Handle) : Edit Handle := do
  let h ← append (.plain kind)
  modify fun m => { m with annotations := m.annotations ++ [h] }
  return h

def decorate (target : Handle) (decoration : Decoration) (operands : List Word) : Edit Handle :=
  annotate (.decorate target decoration operands)

def memberDecorate (target : Handle) (member : Word) (decoration : Decoration)
    (operands : List Word) : Edit Handle :=
  annotate (.memberDecorate target member decoration operands)

/-- The operands of each such decoration of the target itself. -/
def decorations (m : Module) (target : Handle) (decoration : Decoration) : List (List Word) :=
  m.annotations.filterMap fun h =>
    match m.kindOf h with
    | .decorate t d operands => if t = target ∧ d = decoration then some operands else none
    | _ => none

/-- The operands of each such decoration of one member of the target. -/
def memberDecorations (m : Module) (target : Handle) (member : Word) (decoration : Decoration) :
    List (List Word) :=
  m.annotations.filterMap fun h =>
    match m.kindOf h with
    | .memberDecorate t i d operands =>
      if t = target ∧ i = member ∧ d = decoration then some operands else none
    | _ => none

def hasDecoration (m : Module) (target : Handle) (decoration : Decoration) : Bool :=
  !(m.decorations target decoration).isEmpty

/-- Leaves out every decoration that repeats an earlier one word for word. -/
def consolidate (m : Module) : Module :=
  { m with annotations := m.annotations.eraseDupsBy fun a b => m.inst a = m.inst b }

/-! ## Variables -/

/-- Declares a global variable without initial value. -/
def addGlobalVar (pointerType : Handle) (storage : StorageClass) : Edit Handle := do
  let h ← define (some pointerType) (.var storage none)
  declare h
  return h

/-- The first variable that a decoration declares to hold the built-in value. -/
def findBuiltIn? (m : Module) (builtIn : Word) : Option Handle :=
  m.annotations.findSome? fun h =>
    match m.kindOf h with
    | .decorate target decoration operands =>
      if decoration = .builtIn ∧ operands.head? = some builtIn ∧ (m.kindOf target).isVar then
        some target
      else none
    | _ => none

/-- The variable that holds a built-in value, declared as three input words if there is none. -/
def builtInVar (builtIn : Word) : Edit Handle := do
  match (← get).findBuiltIn? builtIn with
  | some h => return h
  | none =>
    let triple ← vectorType (← unsignedType 32) 3
    let h ← addGlobalVar (← pointerType .input triple) .input
    let _ ← decorate h .builtIn [builtIn]
    return h

/-- The position of an invocation in the grid. -/
def invocationIdVar : Edit Handle := builtInVar BuiltIn.globalInvocationId

/-- The number of work groups along each axis. -/
def numWorkgroupsVar : Edit Handle := builtInVar BuiltIn.numWorkgroups

end Module

end KernelGrid
