import KernelGrid.Grammar.Opcode
import KernelGrid.Text.Numeral

/-!
# Module errors

Everything that can go wrong while a module is read, built, measured or written.
-/

namespace KernelGrid

/-- What is wrong with the operands of a record or with its place in the stream. -/
inductive Flaw where
  | missingOperand
  | trailingOperands
  | unknown (label : String) (code : Word)
  | endOutsideFunction
  | nestedFunction
  | lateParameter
  | outsideBlock
  | outsideFunction
  | missingEnd
deriving DecidableEq, Repr

def Flaw.message : Flaw → String
  | missingOperand => "missing operand"
  | trailingOperands => "trailing operands"
  | unknown label code => s!"unknown {label} {code}"
  | endOutsideFunction => "OpFunctionEnd outside a function"
  | nestedFunction => "nested OpFunction"
  | lateParameter => "parameter after first block"
  | outsideBlock => "instruction outside a block"
  | outsideFunction => "outside a function"
  | missingEnd => "missing OpFunctionEnd"

/-- What a builder has to have selected. -/
inductive Selectable where
  | function
  | block
deriving DecidableEq, Repr

def Selectable.name : Selectable → String
  | function => "function"
  | block => "block"

/-- The largest bound on result ids that a stream may declare. -/
def maxIdBound : ResultId := 0x3fffff

/-- Offsets count words from the start of the stream. -/
inductive ModuleError where
  | unaligned (length : Nat)
  | truncated (offset needed available : Nat)
  | badMagic (word : Word)
  | zeroWordCount (offset : Nat)
  | malformed (opcode : Opcode) (offset : Nat) (flaw : Flaw)
  | badString (offset : Nat)
  | duplicateId (id : ResultId)
  | idOutOfBound (id bound : ResultId)
  | boundTooLarge (bound : ResultId)
  | unresolvedId (id : ResultId)
  | detached (missing : Selectable)
  | unsized (type : ResultId)
  | sizeOverflow (type : ResultId)
  | recordTooLong (opcode : Opcode) (words : Nat)
deriving DecidableEq, Repr

def ModuleError.message : ModuleError → String
  | unaligned length => s!"byte stream length {length} is not a multiple of 4"
  | truncated offset needed available =>
    s!"truncated word stream at word {offset}: need {needed} words, {available} available"
  | badMagic word => "bad magic number 0x" ++ Text.paddedHexadecimal word.toNat
  | zeroWordCount offset => s!"instruction at word {offset} has a word count of zero"
  | malformed opcode offset flaw =>
    s!"malformed {opcode.name} at word {offset}: {flaw.message}"
  | badString offset => s!"invalid literal string at word {offset}"
  | duplicateId id => s!"result id %{id} is defined more than once"
  | idOutOfBound id bound => s!"id %{id} is outside the header bound {bound}"
  | boundTooLarge bound => s!"header bound {bound} exceeds the id limit {maxIdBound}"
  | unresolvedId id => s!"id %{id} is referenced but never defined"
  | detached missing => s!"no {missing.name} selected in builder"
  | unsized type => s!"type %{type} has no static size"
  | sizeOverflow type => s!"size of type %{type} overflows"
  | recordTooLong opcode words =>
    s!"{opcode.name} needs {words} words, more than a record can hold"

end KernelGrid
