import KernelGrid.CommandLine.Value

/-!
# Arguments

What a command line asks for.  Arguments are read from left to right, and an option stays pending
with its value until something follows that is not its value.
-/

namespace KernelGrid.CommandLine

/-- Options without a value. -/
inductive Switch where
  | noValidate
  | emitIr
  | dryRun
  | help
  | version
deriving DecidableEq, Repr

/-- What a value can be for: the argument without a name, or an option. -/
inductive Slot where
  | input
  | output
  | kernel
  | globalOffsets
  | allocation
deriving DecidableEq, Repr

def Slot.name : Slot → String
  | input => "<INPUT>"
  | output => "--output"
  | kernel => "--kernel"
  | globalOffsets => "--global-offsets"
  | allocation => "--allocation"

def Switch.name : Switch → String
  | noValidate => "--no-validate"
  | emitIr => "--emit-ir"
  | dryRun => "--dry-run"
  | help => "--help"
  | version => "--version"

inductive UsageError where
  | missingInput
  | unknown (argument : String)
  | missingValue (slot : Slot)
  | badValue (slot : Slot) (value : String)
  | repeatedSlot (slot : Slot)
  | repeatedSwitch (switch : Switch)
  | unexpectedValue (switch : Switch)
  | help
  | version
deriving DecidableEq, Repr

def UsageError.message : UsageError → String
  | missingInput => "the input is missing"
  | unknown argument => s!"unexpected argument '{argument}'"
  | missingValue slot => s!"a value is required for '{slot.name}'"
  | badValue slot value => s!"invalid value '{value}' for '{slot.name}'"
  | repeatedSlot slot => s!"'{slot.name}' cannot be used more than once"
  | repeatedSwitch switch => s!"'{switch.name}' cannot be used more than once"
  | unexpectedValue switch => s!"'{switch.name}' takes no value"
  | help => "usage: kernelgrid [OPTIONS] <INPUT>"
  | version => "kernelgrid 0.1.0"

structure Arguments where
  input : Option String
  output : Option String
  kernels : List Kernel
  globalOffsets : Option (List Word)
  allocations : List String
  switches : List Switch
deriving DecidableEq, Repr

namespace Arguments

def empty : Arguments := ⟨none, none, [], none, [], []⟩

/-- Switches are given at most once. -/
def turnOn (a : Arguments) (s : Switch) : Except UsageError Arguments :=
  match s with
  | .help => .error .help
  | .version => .error .version
  | s =>
    if s ∈ a.switches then .error (.repeatedSwitch s)
    else .ok { a with switches := s :: a.switches }

/-- Paths are not empty.  There is one input and at most one output; other values accumulate. -/
def assign (a : Arguments) (slot : Slot) (value : String) : Except UsageError Arguments :=
  match slot with
  | .input =>
    if value.isEmpty then .error (.missingValue slot) else .ok { a with input := some value }
  | .output =>
    if a.output.isSome then .error (.repeatedSlot slot)
    else if value.isEmpty then .error (.missingValue slot)
    else .ok { a with output := some value }
  | .kernel =>
    match parseKernel value with
    | .ok k => .ok { a with kernels := a.kernels ++ [k] }
    | .error _ => .error (.badValue slot value)
  | .globalOffsets =>
    match parseOffsets? value with
    | some offsets => .ok { a with globalOffsets := some (a.globalOffsets.getD [] ++ offsets) }
    | none => .error (.badValue slot value)
  | .allocation => .ok { a with allocations := a.allocations ++ [value] }

end Arguments

/-- What an argument is by its form alone. -/
inductive Token where
  /-- Everything after it is positional. -/
  | escape
  /-- A name after two dashes, with the value after an equals sign. -/
  | long (name : List Char) (value : Option String)
  /-- The letters after a single dash. -/
  | short (letters : List Char)
  | plain
deriving DecidableEq, Repr

def Token.ofString (argument : String) : Token :=
  match argument.toList with
  | ['-', '-'] => .escape
  | '-' :: '-' :: rest =>
    match rest.span (· ≠ '=') with
    | (name, []) => .long name none
    | (name, _ :: value) => .long name (some (String.ofList value))
  | '-' :: c :: rest => .short (c :: rest)
  | _ => .plain

/-- What a name or letter stands for. -/
inductive Meaning where
  | switch (s : Switch)
  | slot (s : Slot)
deriving DecidableEq, Repr

def Meaning.ofName? (name : List Char) : Option Meaning :=
  [("output", slot .output), ("kernel", slot .kernel), ("global-offsets", slot .globalOffsets),
    ("allocation", slot .allocation), ("no-validate", switch .noValidate),
    ("emit-ir", switch .emitIr), ("dry-run", switch .dryRun), ("help", switch .help),
    ("version", switch .version)].lookup (String.ofList name)

def Meaning.ofLetter? (letter : Char) : Option Meaning :=
  [('o', slot .output), ('h', switch .help), ('V', switch .version)].lookup letter

/-- Arguments read so far. -/
structure Progress where
  arguments : Arguments
  /-- The slot that was named last, with its value if that was given. -/
  pending : Option (Slot × Option String)
  hasInput : Bool
  /-- Whether only positional arguments may follow. -/
  isEscaped : Bool

namespace Progress

def start : Progress := ⟨.empty, none, false, false⟩

/-- Assigns what is pending. -/
def settle (p : Progress) : Except UsageError Progress :=
  match p.pending with
  | none => .ok p
  | some (slot, none) => .error (.missingValue slot)
  | some (slot, some value) =>
    return { p with arguments := ← p.arguments.assign slot value, pending := none }

def turnOn (p : Progress) (s : Switch) : Except UsageError Progress := do
  let p ← p.settle
  return { p with arguments := ← p.arguments.turnOn s }

/-- Names a slot.  A value that is attached to the name is assigned at once. -/
def name (p : Progress) (slot : Slot) (value : Option String) : Except UsageError Progress := do
  let p ← p.settle
  match value with
  | some value => return { p with arguments := ← p.arguments.assign slot value }
  | none => return { p with pending := some (slot, none) }

/-- What follows the letter of an option is its value, if anything does. -/
def readLetters (argument : String) : List Char → Progress → Except UsageError Progress
  | [], p => .ok p
  | c :: rest, p =>
    match Meaning.ofLetter? c with
    | some (.switch s) => do readLetters argument rest (← p.turnOn s)
    | some (.slot slot) =>
      match rest with
      | [] => p.name slot none
      | '=' :: value => p.name slot (some (String.ofList value))
      | value => p.name slot (some (String.ofList value))
    | none => .error (.unknown argument)

def readPositional (p : Progress) (argument : String) : Except UsageError Progress := do
  if p.hasInput then throw (.unknown argument)
  let p ← p.settle
  return { p with pending := some (.input, some argument), hasInput := true }

def read (p : Progress) (argument : String) : Except UsageError Progress :=
  if p.isEscaped then p.readPositional argument
  else
    match Token.ofString argument with
    | .escape => .ok { p with isEscaped := true }
    | .long name value =>
      match Meaning.ofName? name, value with
      | some (.switch s), none => p.turnOn s
      | some (.switch s), some _ => .error (.unexpectedValue s)
      | some (.slot slot), value => p.name slot value
      | none, _ => .error (.unknown argument)
    | .short letters => p.readLetters argument letters
    | .plain =>
      match p.pending with
      | some (slot, none) => .ok { p with pending := some (slot, some argument) }
      | _ => p.readPositional argument

end Progress

/-- Reads a command line; the input is the one argument that has to be there. -/
def Arguments.parse (args : List String) : Except UsageError Arguments := do
  let p ← args.foldlM Progress.read .start
  let p ← p.settle
  if p.arguments.input.isNone then throw .missingInput
  return p.arguments

end KernelGrid.CommandLine
