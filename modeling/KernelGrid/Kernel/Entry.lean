import KernelGrid.Kernel.Buffer
import KernelGrid.Kernel.Cell
import KernelGrid.Kernel.Error
import KernelGrid.Module.Debug

/-!
# Entry points for kernels

A kernel handles one cell of the grid and takes its inputs as values.  Its entry point computes
the index of the cell from the position of the invocation, loads each input from its buffer,
calls the kernel and stores the result in the output buffer.
-/

namespace KernelGrid

/-- This kernel may be missing. -/
def rootKernel : String := "root"

def entryName (kernel : String) : String := "entry_" ++ kernel

namespace Signature

/-- Whether an entry point can be made for a kernel of this signature. -/
def check (s : Signature) (name : String) (inputs : Word) : Except KernelError Unit :=
  if !s.contains kernel then .error (.notForEach name s)
  else if s.contains userData then .error (.userData name)
  else if s.contains context then .error (.context name)
  else if 0 < inputs ∧ !s.needsIndex then .error (.inputsWithoutIndex name inputs)
  else .ok ()

end Signature

/-- A kernel of a module that can be called. -/
structure Callee where
  name : String
  signature : Signature
  function : Handle
  inputTypes : List Handle
  resultType : Handle

/-- The function of a kernel with the types that an entry point needs; nothing if the root
kernel is missing. -/
def Kernel.callee? (k : Kernel) (m : Module) : Except KernelError (Option Callee) := do
  let some f := m.findFunction? k.name
    | if k.name = rootKernel then return none else throw (.missingKernel k.name)
  k.signature.check k.name k.inputs
  if f.parameters.length < k.inputs.toNat then
    throw (.tooFewParameters k.name k.inputs f.parameters.length)
  let some inputTypes := (f.parameters.take k.inputs.toNat).mapM m.typeOf?
    | throw (.malformedKernel k.name)
  let some resultType := m.typeOf? f.function | throw (.malformedKernel k.name)
  return some { name := k.name, signature := k.signature, function := f.function,
                inputTypes, resultType }

namespace Callee

open KernelGrid.Module KernelGrid.Builder

/-- A pointer to the cell's element of a new buffer. -/
def emitElement (zero : Handle) (cell : Cell) (element : Handle) (binding : Word) :
    Build Handle := do
  let buffer ← attempt (addBuffer element binding)
  let type ← edit (pointerType .uniform element)
  accessChain type buffer [zero, cell.index]

/-- Loads the inputs, in order. -/
def emitInputs (c : Callee) (zero : Handle) (cell : Cell) : Build (List Handle) :=
  c.inputTypes.zipIdx.mapM fun (type, i) => do
    let pointer ← emitElement zero cell type (firstInputBinding + i.toUInt32)
    load type pointer

/-- The body of the entry point, whose function and cell are returned. -/
def emit (c : Callee) (word void type : Handle) : Build (Handle × Option Cell) := do
  let entry ← beginFunction void 0 type
  let _ ← beginBlock
  let cell ← if c.signature.needsIndex then some <$> Cell.emit word else pure none
  let zero ← edit (constant word 0)
  let arguments ← match cell with
    | some cell => do
      let inputs ← c.emitInputs zero cell
      pure (inputs ++ cell.coordinates c.signature)
    | none => pure []
  let result ← functionCall c.resultType c.function arguments
  match cell with
  | some cell =>
    if c.signature.contains .output then
      let pointer ← emitElement zero cell c.resultType outputBinding
      let _ ← store pointer result
  | none => pure ()
  ret
  return (entry, cell)

end Callee

inductive EntryOutcome where
  | skipped
  | synthesized (name : String)
deriving DecidableEq, Repr

/-- Makes the entry point of a kernel.  A missing root kernel is skipped. -/
def Module.addEntry (k : Kernel) : ExceptT KernelError Edit EntryOutcome := do
  match ← MonadExcept.ofExcept (k.callee? (← get)) with
  | none => return .skipped
  | some callee =>
    let word ← unsignedType 32
    let void ← voidType
    let type ← functionType void []
    let (result, builder) := (callee.emit word void type).run.run (.start (← get))
    set builder.module
    let (entry, cell) ← MonadExcept.ofExcept (result.mapError KernelError.module)
    let name := entryName k.name
    let entryPoint : EntryPoint Handle :=
      { model := .compute, function := entry, name,
        interface := cell.toList.flatMap Cell.interface, localSize := some ⟨1, 1, 1⟩ }
    modify fun m => { m with entryPoints := m.entryPoints ++ [entryPoint] }
    return .synthesized name

end KernelGrid
