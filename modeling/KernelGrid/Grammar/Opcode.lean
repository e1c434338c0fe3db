import KernelGrid.Grammar.OpcodeTable

/-!
# Opcodes

The name of an opcode and what its operands start with.
-/

namespace KernelGrid

/-- Which of result type and result id an instruction starts with. -/
inductive Layout where
  | typed
  | untyped
  | plain
deriving DecidableEq, Repr

namespace Opcode

def sourceContinued : Opcode := 2
def source : Opcode := 3
def string : Opcode := 7
def entryPoint : Opcode := 15
def functionEnd : Opcode := 56
def decorationGroup : Opcode := 73
def groupDecorate : Opcode := 74
def groupMemberDecorate : Opcode := 75
def moduleProcessed : Opcode := 330
def executionModeId : Opcode := 331
def decorateId : Opcode := 332
def decorateString : Opcode := 5632
def memberDecorateString : Opcode := 5633

/-- The name without its common first syllable, if the opcode is in the table. -/
def bareName? (op : Opcode) : Option String :=
  plainNames.lookup op <|> untypedNames.lookup op <|> typedNames.lookup op

/-- An opcode outside the table is named by its number. -/
def name (op : Opcode) : String :=
  match bareName? op with
  | some s => "Op" ++ s
  | none => s!"Op<{op}>"

/-- An opcode outside the table defines nothing. -/
def layout (op : Opcode) : Layout :=
  if (typedNames.lookup op).isSome then .typed
  else if (untypedNames.lookup op).isSome then .untyped
  else .plain

end Opcode

end KernelGrid
