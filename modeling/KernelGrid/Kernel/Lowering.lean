import KernelGrid.Kernel.ComputePreamble
import KernelGrid.Kernel.Journal
import KernelGrid.Kernel.Metadata
import KernelGrid.Module.Assembly

/-!
# Lowering

From a stream of kernels to a stream of compute entry points.  The stages run in order, and the
first failure ends the lowering without a result.
-/

namespace KernelGrid

/-- A stage writes to the journal even if it fails. -/
abbrev Stage := ExceptT LoweringError (StateM Journal)

/-- Everything that a lowering depends on besides the transformations of the host. -/
structure Job where
  words : List Word
  kernels : List Kernel
  host : Host
  /-- Whether the log lists what the module violates. -/
  validates : Bool

/-- Reads a stream in which every id is defined. -/
def Module.load (words : List Word) : Except LoweringError Module := do
  let m ← (Module.decode words).mapError .stream
  m.resolve.mapError .unresolved

namespace Stage

def logAll (entries : List LogEntry) : Stage Unit :=
  modify fun j => { j with log := j.log ++ entries }

def debug (message : String) : Stage Unit := logAll [⟨.debug, message⟩]

/-- Makes the entry point of one kernel. -/
def addEntry (m : Module) (k : Kernel) : Stage Module := do
  debug s!"wrapping kernel '{k.name}' (signature {k.signature.text}, {k.inputs} inputs)"
  let (result, m) := (Module.addEntry k).run.run m
  logAll (k.entries result)
  let _ ← MonadExcept.ofExcept (result.mapError LoweringError.structural)
  return m

def decorateGlobalBlock (host : Host) (m : Module) : Stage Module := do
  debug "decorating global buffer"
  let (result, m) := (Module.decorateGlobalBlock host).run.run m
  let outcome ← MonadExcept.ofExcept (result.mapError LoweringError.structural)
  logAll outcome.entries
  return m

/-- Up to the module that is handed to the host for its built-in calls. -/
def prepare (job : Job) : Stage Module := do
  debug s!"decoding {job.words.length} words"
  let m ← MonadExcept.ofExcept (Module.load job.words)
  let (changes, m) := m.normalize
  logAll (changes.map fun c => ⟨.debug, c.message⟩)
  let ((), m) := Module.addComputePreamble.run m
  let m ← decorateGlobalBlock job.host m
  let m ← job.kernels.foldlM addEntry m
  let m := m.consolidate
  if job.validates then
    logAll (m.validate.map fun f => ⟨.warning, f.message⟩)
  return m

/-- From what the host made of that module to the module that is handed over for its accessors,
with the metadata variable. -/
def complete (words : List Word) : Stage (Module × Handle) := do
  let m ← MonadExcept.ofExcept (Module.load words)
  let (metadata, m) := Module.declareMetadata.run m
  return (m.consolidate, metadata)

def lower (job : Job) (transforms : Transforms) : Stage (List Word) := do
  let m ← prepare job
  debug "handing off to builtin lowering"
  modify fun j => { j with toBuiltIns := some m }
  let words ← MonadExcept.ofExcept
    ((transforms.lowerBuiltIns m).mapError LoweringError.external)
  let (m, metadata) ← complete words
  debug "handing off to accessor lowering"
  modify fun j => { j with toAccessors := some (m, metadata) }
  let words ← MonadExcept.ofExcept
    ((transforms.lowerAccessors m metadata).mapError LoweringError.external)
  debug s!"produced {words.length} words"
  return words

end Stage

/-- The lowered stream, with the journal of its making. -/
def Job.lower (job : Job) (transforms : Transforms) :
    Except LoweringError (List Word) × Journal :=
  (Stage.lower job transforms).run.run .empty

end KernelGrid
