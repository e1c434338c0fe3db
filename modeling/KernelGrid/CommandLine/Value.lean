import KernelGrid.Kernel.Host
import KernelGrid.Text.Numeral
import KernelGrid.Text.Pieces

/-!
# Values on the command line

How kernels, numbers and byte offsets are written as arguments.
-/

namespace KernelGrid.CommandLine

open KernelGrid.Text

inductive ValueError where
  | number (text : String) (cause : NumeralError)
  | kernelShape (text : String)
  | kernelName (text : String)
deriving DecidableEq, Repr

def ValueError.message : ValueError → String
  | number text cause => s!"invalid number '{text}': {cause.message}"
  | kernelShape text => s!"invalid kernel '{text}', expected NAME:SIGNATURE:INPUTS"
  | kernelName text => s!"invalid kernel '{text}', empty name"

/-- Digits of base ten, or of base sixteen after the usual mark. -/
def parseNumber (text : List Char) : Except ValueError Word :=
  let numeral := match text with
    | '0' :: 'x' :: digits => parseNumeral 16 digits
    | '0' :: 'X' :: digits => parseNumeral 16 digits
    | digits => parseNumeral 10 digits
  numeral.mapError (.number (String.ofList text))

/-- A kernel is written as its name, its signature and its number of inputs. -/
def parseKernel (text : String) : Except ValueError Kernel :=
  match pieces ':' text.toList with
  | [name, signature, inputs] => do
    if name.isEmpty then throw (.kernelName text)
    let signature ← parseNumber signature
    let inputs ← parseNumber inputs
    return ⟨String.ofList name, ⟨signature⟩, inputs⟩
  | _ => .error (.kernelShape text)

/-- A byte offset: digits of base ten with at most one sign, where a minus sign fits zero
alone. -/
def parseOffset? (text : List Char) : Option Word :=
  match text with
  | '-' :: c :: digits =>
    if (c :: digits).all (· = '0') then some 0 else none
  | digits => (parseNumeral 10 digits).toOption

/-- Byte offsets with commas between them. -/
def parseOffsets? (text : String) : Option (List Word) :=
  (pieces ',' text.toList).mapM parseOffset?

end KernelGrid.CommandLine
