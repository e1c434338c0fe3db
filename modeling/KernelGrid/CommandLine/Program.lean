import KernelGrid.CommandLine.Arguments
import KernelGrid.Kernel.Lowering
import KernelGrid.Module.Listing

/-!
# The program

What the command line tool does, given a way to read and write files.
-/

namespace KernelGrid.CommandLine

/-- Why a file cannot be read or written. -/
inductive FileFault where
  | missing
  | denied
  | notDirectory
  | isDirectory
  | noSpace
  | nameTooLong
  | other (code : Nat) (reason : String)
deriving DecidableEq, Repr

namespace FileFault

/-- The faults that are told apart, with their numbers. -/
def ofCode (code : Nat) (reason : String) : FileFault :=
  ([(2, missing), (13, denied), (20, notDirectory), (21, isDirectory),
    (28, noSpace), (36, nameTooLong)].lookup code).getD (other code reason)

def message : FileFault → String
  | missing => "No such file or directory (os error 2)"
  | denied => "Permission denied (os error 13)"
  | notDirectory => "Not a directory (os error 20)"
  | isDirectory => "Is a directory (os error 21)"
  | noSpace => "No space left on device (os error 28)"
  | nameTooLong => "File name too long (os error 36)"
  | other code reason => s!"{reason} (os error {code})"

end FileFault

/-- Files and the error stream. -/
structure FileSystem (m : Type → Type) where
  read : String → m (Except FileFault (Array UInt8))
  write : String → Array UInt8 → m (Except FileFault Unit)
  report : String → m Unit

inductive Failure where
  | read (path : String) (cause : FileFault)
  | notWords (cause : ModuleError)
  | load (cause : LoweringError)
  | lower (cause : LoweringError)
  | noOutput
  | write (path : String) (cause : FileFault)
deriving DecidableEq, Repr

namespace Failure

/-- What failed, and below it why. -/
def chain : Failure → List String
  | read path cause => [s!"failed to read {path}", cause.message]
  | notWords cause => ["input is not a word stream", cause.message]
  | load cause => ["failed to load kernel module", s!"{cause.message} (code {cause.code})"]
  | lower cause => ["lowering failed", s!"{cause.message} (code {cause.code})"]
  | noOutput => ["lowering produced binary output but no --output path was specified"]
  | write path cause => [s!"failed to write {path}", cause.message]

/-- A path may spread over several lines. -/
def lines (f : Failure) : List String := f.chain.flatMap Text.lines

end Failure

namespace Arguments

def has (a : Arguments) (s : Switch) : Bool := s ∈ a.switches

/-- The host as far as the command line tells. -/
def host (a : Arguments) : Host where
  layout := a.globalOffsets.map .struct
  allocations := if a.allocations.isEmpty then none else some a.allocations

def job (a : Arguments) (words : List Word) : Job where
  words := words
  kernels := a.kernels
  host := a.host
  validates := !a.has .noValidate

end Arguments

section

variable {m : Type → Type} [Monad m] (fs : FileSystem m)

/-- Lists the module on request, before anything else can fail. -/
def inspect (a : Arguments) (words : List Word) : ExceptT Failure m Unit := do
  if a.has .emitIr || a.has .dryRun then
    let module ← MonadExcept.ofExcept ((Module.load words).mapError Failure.load)
    if a.has .emitIr then
      ExceptT.lift (fs.report (module.listing ++ "\n"))

/-- Reads the input, and unless this is a dry run lowers it and writes the output. -/
def run (a : Arguments) : ExceptT Failure m Unit := do
  let input := a.input.getD ""
  let bytes ← MonadExcept.ofExcept
    ((← ExceptT.lift (fs.read input)).mapError (Failure.read input))
  let words ← MonadExcept.ofExcept ((Stream.wordsOfBytes bytes).mapError Failure.notWords)
  inspect fs a words
  unless a.has .dryRun do
    let (result, _) := (a.job words).lower .passThrough
    let lowered ← MonadExcept.ofExcept (result.mapError Failure.lower)
    let some output := a.output | throw .noOutput
    let written ← ExceptT.lift (fs.write output (Stream.bytesOfWords lowered).toArray)
    MonadExcept.ofExcept (written.mapError (Failure.write output))

end

end KernelGrid.CommandLine
