import KernelGrid.Inst.Basic
import KernelGrid.Stream.Record

/-!
# Statements

What one record of a module says, between its words and its text: a statement can be written both
ways.
-/

namespace KernelGrid

structure Statement where
  opcode : Opcode
  resultType : Option ResultId
  resultId : Option ResultId
  operands : List (Operand ResultId)

namespace Statement

/-- A statement that defines nothing. -/
def plain (opcode : Opcode) (operands : List (Operand ResultId)) : Statement :=
  ⟨opcode, none, none, operands⟩

def words (s : Statement) : List Word :=
  s.resultType.toList ++ s.resultId.toList ++ s.operands.flatMap Operand.words

def encode (s : Statement) : Except ModuleError (List Word) :=
  Stream.Record.frame s.opcode s.words

/-- The result, then opcode, result type and operands with single spaces between them. -/
def text (s : Statement) : String :=
  let result := match s.resultId with
    | some id => s!"%{id} = "
    | none => ""
  let type := s.resultType.toList.map fun id => s!"%{id}"
  result ++ " ".intercalate (s.opcode.name :: type ++ s.operands.filterMap Operand.text?)

def functionEnd : Statement := plain Opcode.functionEnd []

end Statement

/-- The statement of an instruction whose references have the given ids. -/
def Inst.statement {ρ : Type} (idOf : ρ → ResultId) (i : Inst ρ) : Statement where
  opcode := i.opcode
  resultType := i.resultType.map idOf
  resultId := i.resultId
  operands := i.kind.operands.map (Operand.map idOf)

namespace EntryPoint

variable {ρ : Type} (idOf : ρ → ResultId) (e : EntryPoint ρ)

def statement : Statement :=
  .plain Opcode.entryPoint
    (e.model.operand :: .ref (idOf e.function) :: .string e.name ::
      e.interface.map fun v => .ref (idOf v))

/-- The execution mode that states the size of the work group. -/
def sizeStatement? : Option Statement :=
  e.localSize.map fun size =>
    .plain Form.executionMode.opcode
      (.ref (idOf e.function) :: ExecutionMode.localSize.operand :: size.toList.map .literal)

end EntryPoint

end KernelGrid
