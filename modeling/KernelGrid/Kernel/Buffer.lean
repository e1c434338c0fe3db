import KernelGrid.Module.ByteSize
import KernelGrid.Module.Decorations

/-!
# Buffers

Uniform variables that are bound to a slot of descriptor set 0.  Slot 0 is for the metadata of
allocations or for the global block, slot 1 for the output, slots from 2 on for the inputs, and
slots from 3 on for globals that are backed by allocations.
-/

namespace KernelGrid

def metadataBinding : Word := 0
def outputBinding : Word := 1
def firstInputBinding : Word := 2
def firstAllocationBinding : Word := 3

namespace Module

/-- Binds a variable to a slot. -/
def bindSlot (var : Handle) (binding : Word) : Edit Unit := do
  let _ ← decorate var .descriptorSet [0]
  let _ ← decorate var .binding [binding]

/-- Declares a uniform variable of the given block type and binds it to a slot. -/
def addBlockVar (block : Handle) (binding : Word) : Edit Handle := do
  let pointer ← pointerType .uniform block
  let var ← addGlobalVar pointer .uniform
  bindSlot var binding
  return var

/-- Declares a buffer of elements of the given type. -/
def addBuffer (element : Handle) (binding : Word) : ExceptT ModuleError Edit Handle := do
  let stride ← MonadExcept.ofExcept ((← get).byteSize element)
  let array ← runtimeArrayType element
  let _ ← decorate array .arrayStride [stride]
  let block ← structType [array]
  let _ ← decorate block .bufferBlock []
  let _ ← memberDecorate block 0 .offset [0]
  addBlockVar block binding

end Module

end KernelGrid
