import KernelGrid.Module.Basic

/-!
# The preamble

What a module requires of its consumer: capabilities, extensions, imported instruction sets and
the memory model.  Each requirement is stated once.
-/

namespace KernelGrid.Module

/-- The first instruction of a section with a kind that passes the test. -/
def findKind? (m : Module) (test : Kind Handle → Bool) (hs : List Handle) : Option Handle :=
  hs.find? fun h => test (m.kindOf h)

def addCapability (c : Capability) : Edit Unit := do
  let m ← get
  if (m.findKind? (· = .capability c) m.capabilities).isNone then
    let h ← append (.plain (.capability c))
    modify fun m => { m with capabilities := m.capabilities ++ [h] }

def addExtension (name : String) : Edit Unit := do
  let m ← get
  if (m.findKind? (· = .extension name) m.extensions).isNone then
    let h ← append (.plain (.extension name))
    modify fun m => { m with extensions := m.extensions ++ [h] }

/-- The import of an instruction set, made if it is missing. -/
def addExtInstImport (name : String) : Edit Handle := do
  let m ← get
  match m.findKind? (· = .extInstImport name) m.extInstImports with
  | some h => return h
  | none =>
    let h ← define none (.extInstImport name)
    modify fun m => { m with extInstImports := m.extInstImports ++ [h] }
    return h

def setMemoryModel (addressing : AddressingModel) (memory : MemoryModel) : Edit Unit := do
  match (← get).memoryModel with
  | some h => setKind h (.memoryModel addressing memory)
  | none =>
    let h ← append (.plain (.memoryModel addressing memory))
    modify fun m => { m with memoryModel := some h }

end KernelGrid.Module
