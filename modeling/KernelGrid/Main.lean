import KernelGrid.CommandLine.Program

/-!
# The command line tool

Files are those of the operating system.  The exit code is 0 after success, 1 after a failure
and 2 for a command line that cannot be read.
-/

namespace KernelGrid.CommandLine

/-- The number and the reason that the operating system gives, where it gives them. -/
def details? : IO.Error → Option (UInt32 × String)
  | .noFileOrDirectory _ code reason => some (code, reason)
  | .permissionDenied _ code reason => some (code, reason)
  | .inappropriateType _ code reason => some (code, reason)
  | .invalidArgument _ code reason => some (code, reason)
  | .resourceExhausted _ code reason => some (code, reason)
  | .otherError code reason => some (code, reason)
  | _ => none

/-- Some numbers come with a minus sign, in two's complement. -/
def FileFault.ofError (e : IO.Error) : FileFault :=
  match details? e with
  | some (code, reason) => .ofCode (min code (0 - code)).toNat reason
  | none => .other 0 e.toString

def systemFiles : FileSystem IO where
  read path := do
    try return .ok (← IO.FS.readBinFile path).data
    catch e => return .error (.ofError e)
  write path bytes := do
    try
      IO.FS.withFile path .write fun file => do
        file.write ⟨bytes⟩
        file.flush
      return .ok ()
    catch e => return .error (.ofError e)
  report := IO.eprint

/-- Runs the tool and returns its exit code. -/
def execute (args : List String) : IO UInt32 := do
  match Arguments.parse args with
  | .error .help =>
    IO.println UsageError.help.message
    return 0
  | .error .version =>
    IO.println UsageError.version.message
    return 0
  | .error e =>
    IO.eprintln s!"error: {e.message}"
    return 2
  | .ok arguments =>
    match ← (run systemFiles arguments).run with
    | .ok () => return 0
    | .error failure =>
      IO.eprintln ("Error: " ++ "\n  ".intercalate failure.lines)
      return 1

end KernelGrid.CommandLine

def main (args : List String) : IO UInt32 :=
  KernelGrid.CommandLine.execute args
