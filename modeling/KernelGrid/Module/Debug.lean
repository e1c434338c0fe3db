import KernelGrid.Module.Preamble

/-!
# Debug information

Source statements and names.  Source statements stand in front of the names.
-/

namespace KernelGrid.Module

/-- Puts a source statement in front of the first name of the debug section. -/
def insertSource (h : Handle) : Edit Unit :=
  modify fun m =>
    let isUnnamed := fun g => !(m.kindOf g).isName
    { m with debug := m.debug.takeWhile isUnnamed ++ h :: m.debug.dropWhile isUnnamed }

/-- States the source language, in place of an earlier statement. -/
def setSource (language version : Word) : Edit Unit := do
  let kind : Kind Handle := .raw Opcode.source [language, version]
  let m ← get
  match m.findKind? (·.isSource) m.debug with
  | some h => setKind h kind
  | none => insertSource (← append (.plain kind))

def addSourceExtension (name : String) : Edit Unit := do
  let m ← get
  if (m.findKind? (· = .sourceExtension name) m.debug).isNone then
    insertSource (← append (.plain (.sourceExtension name)))

def setName (target : Handle) (name : String) : Edit Unit := do
  let h ← append (.plain (.debugName target name))
  modify fun m => { m with debug := m.debug ++ [h] }

/-- Everything that carries the given name. -/
def named (m : Module) (name : String) : List Handle :=
  m.debug.filterMap fun h =>
    match m.kindOf h with
    | .debugName target text => if text = name then some target else none
    | _ => none

def findNamed? (m : Module) (name : String) : Option Handle :=
  (m.named name).head?

/-- The first name given to an instruction. -/
def nameOf? (m : Module) (target : Handle) : Option String :=
  m.debug.findSome? fun h =>
    match m.kindOf h with
    | .debugName t name => if t = target then some name else none
    | _ => none

def functionDef? (m : Module) (function : Handle) : Option FunctionDef :=
  m.functions.find? (·.function = function)

/-- The first function definition that carries the given name. -/
def findFunction? (m : Module) (name : String) : Option FunctionDef :=
  (m.named name).findSome? m.functionDef?

end KernelGrid.Module
