import KernelGrid.Grammar.Enumerant
import KernelGrid.Stream.Literal
import KernelGrid.Text.Quoted

/-!
# Operands

One operand of an instruction, with the words that encode it and the text that shows it.
-/

namespace KernelGrid

/-- References to other instructions are of any type: ids in a stream, handles in a module. -/
inductive Operand (ρ : Type) where
  | ref (target : ρ)
  | literal (word : Word)
  | string (text : String)
  | named (code : Word) (name : String)
  /-- Encoded but not shown. -/
  | hidden (word : Word)
  /-- Shown but not encoded. -/
  | remark (text : String)
deriving DecidableEq, Repr

def Enumerant.operand {ρ : Type} {v : Vocabulary} (e : Enumerant v) : Operand ρ :=
  .named e.code e.name

namespace Operand

variable {ρ σ : Type}

def target? : Operand ρ → Option ρ
  | ref r => some r
  | _ => none

def map (f : ρ → σ) : Operand ρ → Operand σ
  | ref r => ref (f r)
  | literal w => literal w
  | string s => string s
  | named code name => named code name
  | hidden w => hidden w
  | remark s => remark s

def words : Operand ResultId → List Word
  | ref id => [id]
  | literal w => [w]
  | string s => Stream.literalWords s
  | named code _ => [code]
  | hidden w => [w]
  | remark _ => []

def text? : Operand ResultId → Option String
  | ref id => some s!"%{id}"
  | literal w => some (toString w)
  | string s => some (Text.quote s)
  | named _ name => some name
  | hidden _ => none
  | remark s => some s

end Operand

end KernelGrid
