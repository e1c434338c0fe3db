import KernelGrid.Module.Interning

/-!
# Building functions

A builder appends code to the function it began last, in the block it opened last.
-/

namespace KernelGrid

/-- A module under construction with the positions of the selected function and block. -/
structure Builder where
  module : Module
  function : Option Nat
  block : Option Nat

/-- A building step.  A step that fails keeps what it did before. -/
abbrev Build := ExceptT ModuleError (StateM Builder)

namespace Builder

def start (m : Module) : Builder := ⟨m, none, none⟩

/-- Changes the module under the builder. -/
def edit {α : Type} (e : Edit α) : Build α := fun b =>
  let (a, m) := e b.module
  (.ok a, { b with module := m })

/-- Changes the module under the builder, if that succeeds. -/
def attempt {α : Type} (e : ExceptT ModuleError Edit α) : Build α := fun b =>
  let (a, m) := e b.module
  (a, { b with module := m })

def selectedFunction : Build Nat := do
  match (← get).function with
  | some i => return i
  | none => throw (.detached .function)

def selectedBlock : Build Nat := do
  match (← get).block with
  | some i => return i
  | none => throw (.detached .block)

def modifyFunction (i : Nat) (f : FunctionDef → FunctionDef) : Build Unit :=
  edit (modify fun m => { m with functions := m.functions.modify i f })

/-- Begins a function and selects it, without a block. -/
def beginFunction (result : Handle) (control : Word) (type : Handle) : Build Handle := do
  let h ← edit (Module.define (some result) (.function control type))
  edit (modify fun m => { m with functions := m.functions ++ [.empty h] })
  modify fun b => { b with function := some (b.module.functions.length - 1), block := none }
  return h

def functionParameter (type : Handle) : Build Handle := do
  let function ← selectedFunction
  let h ← edit (Module.define (some type) .functionParameter)
  modifyFunction function fun f => { f with parameters := f.parameters ++ [h] }
  return h

/-- Opens a block at the end of the selected function and selects it. -/
def beginBlock : Build Handle := do
  let function ← selectedFunction
  let h ← edit (Module.define none .label)
  modifyFunction function fun f => { f with blocks := f.blocks ++ [⟨h, []⟩] }
  modify fun b =>
    { b with block := b.module.functions[function]?.map fun f => f.blocks.length - 1 }
  return h

/-- Appends an instruction to the selected block. -/
def push (i : Inst Handle) : Build Handle := do
  let function ← selectedFunction
  let block ← selectedBlock
  let h ← edit (Module.append i)
  modifyFunction function fun f =>
    { f with blocks := f.blocks.modify block fun b => { b with body := b.body ++ [h] } }
  return h

/-- Appends an instruction with a result.  Its id is taken before the selection is checked. -/
def pushResult (type : Handle) (kind : Kind Handle) : Build Handle := do
  let id ← edit Module.allocId
  push ⟨some type, some id, kind⟩

def load (type pointer : Handle) : Build Handle := pushResult type (.load pointer [])

def store (pointer object : Handle) : Build Handle := push (.plain (.store pointer object []))

def compositeExtract (type composite : Handle) (indices : List Word) : Build Handle :=
  pushResult type (.compositeExtract composite indices)

def iAdd (type a b : Handle) : Build Handle := pushResult type (.iAdd a b)

def iMul (type a b : Handle) : Build Handle := pushResult type (.iMul a b)

def accessChain (type base : Handle) (indices : List Handle) : Build Handle :=
  pushResult type (.accessChain base indices)

def functionCall (type function : Handle) (arguments : List Handle) : Build Handle :=
  pushResult type (.functionCall function arguments)

/-- Ends the selected block, after which none is selected. -/
def terminate (kind : Kind Handle) : Build Unit := do
  let _ ← push (.plain kind)
  modify fun b => { b with block := none }

def ret : Build Unit := terminate .ret

def retValue (value : Handle) : Build Unit := terminate (.retValue value)

end Builder

end KernelGrid
