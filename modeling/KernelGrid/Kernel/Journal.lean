import KernelGrid.Kernel.Entry
import KernelGrid.Kernel.GlobalBlock
import KernelGrid.Module.Pass

/-!
# The journal of a lowering

What a lowering reports while it runs: lines of a log, and the modules that it handed to the
host's transformations.
-/

namespace KernelGrid

inductive Severity where
  | warning
  | info
  | debug
deriving DecidableEq, Repr

def Severity.name : Severity → String
  | warning => "WARN"
  | info => "INFO"
  | debug => "DEBUG"

structure LogEntry where
  severity : Severity
  message : String
deriving DecidableEq, Repr

def LogEntry.text (e : LogEntry) : String := s!"{e.severity.name} {e.message}"

structure Journal where
  log : List LogEntry
  toBuiltIns : Option Module
  toAccessors : Option (Module × Handle)

def Journal.empty : Journal := ⟨[], none, none⟩

/-- What the log says about a decorated global block. -/
def BlockOutcome.entries : BlockOutcome → List LogEntry
  | noBlock => [⟨.debug, s!"no {globalBlockName} in module"⟩]
  | noHostLayout => [⟨.debug, s!"host has no native {globalBlockName}"⟩]
  | noAllocations => [⟨.debug, "host reports no allocation info"⟩]
  | complete => []

/-- What the log says about an attempt to make an entry point. -/
def Kernel.entries (k : Kernel) : Except KernelError EntryOutcome → List LogEntry
  | .ok .skipped => [⟨.debug, "no root kernel, skipping"⟩]
  | .ok (.synthesized name) =>
    [⟨.info, s!"synthesized entry point '{name}' ({k.signature.text})"⟩]
  | .error e => if e.isRejection then [⟨.warning, s!"rejecting kernel: {e.message}"⟩] else []

end KernelGrid
