import KernelGrid.Kernel.Buffer
import KernelGrid.Kernel.Error
import KernelGrid.Module.Debug
import KernelGrid.Module.Validation

/-!
# The global block

The globals of a program live in one struct that the host and the kernels share.  Its members get
the byte offsets of the host, so that both sides agree.
-/

namespace KernelGrid

def globalBlockName : String := "__GPUBlock"

/-- How far the decoration of the global block got. -/
inductive BlockOutcome where
  | noBlock
  | noHostLayout
  | noAllocations
  | complete
deriving DecidableEq, Repr

namespace Module

/-- Binds each variable that is backed by an allocation, in order. -/
def bindAllocations (names : List String) : ExceptT KernelError Edit Unit :=
  names.zipIdx.forM fun (name, i) => do
    match (← get).findNamed? name with
    | some var => bindSlot var (firstAllocationBinding + i.toUInt32)
    | none => throw (.missingAllocation name)

/-- Binds the global block, gives its members the host's offsets, and binds what is backed by
allocations. -/
def decorateGlobalBlock (host : Host) : ExceptT KernelError Edit BlockOutcome := do
  let m ← get
  let some var := m.findNamed? globalBlockName | return .noBlock
  let some (block, members) := m.pointeeStruct? var | throw (.globalBlockShape (m.idOf var))
  bindSlot var metadataBinding
  let _ ← decorate block .bufferBlock []
  match host.layout with
  | none => return .noHostLayout
  | some .notAStruct => throw .hostBlockShape
  | some (.struct offsets) =>
    if members.length < offsets.length then
      throw (.memberCount offsets.length members.length)
    for (offset, member) in offsets.zipIdx do
      let _ ← memberDecorate block member.toUInt32 .offset [offset]
    match host.allocations with
    | none => return .noAllocations
    | some names =>
      bindAllocations names
      return .complete

end Module

end KernelGrid
