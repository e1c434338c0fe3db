import KernelGrid.Module.Basic

/-!
# Encoding

The statements of a module in the order of the format, and their words.
-/

namespace KernelGrid

namespace Module

variable (m : Module)

def statement (h : Handle) : Statement := (m.inst h).statement m.idOf

/-- A section's statements; a placeholder states nothing. -/
def sectionStatements (hs : List Handle) : List Statement :=
  (hs.filter fun h => !(m.inst h).isPlaceholder).map m.statement

def functionStatements (f : FunctionDef) : List Statement :=
  m.sectionStatements (f.function :: f.parameters ++ f.blocks.flatMap fun b => b.label :: b.body)
    ++ [.functionEnd]

def statements : List Statement :=
  m.sectionStatements (m.capabilities ++ m.extensions ++ m.extInstImports ++
    m.memoryModel.toList) ++ m.entryPoints.map (·.statement m.idOf)
    ++ m.entryPoints.filterMap (·.sizeStatement? m.idOf)
    ++ m.sectionStatements (m.executionModes ++ m.debug ++ m.annotations ++ m.globals)
    ++ m.functions.flatMap m.functionStatements

def headerWords : List Word :=
  [Stream.magic, m.header.version, m.header.generator, m.header.bound, 0]

/-- Fails at the first statement that is too long for a record. -/
def encode : Except ModuleError (List Word) := do
  let records ← m.statements.mapM Statement.encode
  return m.headerWords ++ records.flatten

end Module

end KernelGrid
