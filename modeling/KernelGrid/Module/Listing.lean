import KernelGrid.Module.Encoding

/-!
# Listings

A module as text with one statement on each line.
-/

namespace KernelGrid.Module

variable (m : Module)

def instText (h : Handle) : String := (m.statement h).text

/-- The size of an entry point's work group stands right after it. -/
def entryPointLines (e : EntryPoint Handle) : List String :=
  (e.statement m.idOf).text :: ((e.sizeStatement? m.idOf).toList.map Statement.text)

def blockLines (b : Block) : List String :=
  m.instText b.label :: b.body.map fun h => "    " ++ m.instText h

/-- An empty line stands in front of each function. -/
def functionLines (f : FunctionDef) : List String :=
  "" :: m.instText f.function :: f.parameters.map m.instText
    ++ f.blocks.flatMap m.blockLines ++ [Statement.functionEnd.text]

def lines : List String :=
  m.header.text
    :: (m.capabilities ++ m.extensions ++ m.extInstImports ++ m.memoryModel.toList).map
    m.instText ++ m.entryPoints.flatMap m.entryPointLines
    ++ (m.executionModes ++ m.debug ++ m.annotations ++ m.globals).map m.instText
    ++ m.functions.flatMap m.functionLines

/-- Every line is ended by a line feed. -/
def listing : String :=
  String.join (m.lines.map (· ++ "\n"))

end KernelGrid.Module
