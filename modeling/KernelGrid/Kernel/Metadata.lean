import KernelGrid.Kernel.Buffer

/-!
# Metadata of allocations

A buffer with one record for each allocation, which says how its elements are laid out.
-/

namespace KernelGrid

/-- Byte offsets in a metadata record.  They are four bytes past the natural ones, because
pointers into the record come out four bytes short. -/
def metadataOffsets : List Word := [4, 8, 12, 16]

namespace Module

/-- Declares the metadata of allocations: records of element size, two extents and a reserved
word. The record type is not shared, since another struct of four words may be laid out
differently. -/
def addMetadata : Edit Handle := do
  let word ← unsignedType 32
  let record ← freshStructType (metadataOffsets.map fun _ => word)
  for (offset, member) in metadataOffsets.zipIdx do
    let _ ← memberDecorate record member.toUInt32 .offset [offset]
  let array ← runtimeArrayType record
  let _ ← decorate array .arrayStride [metadataOffsets.length.toUInt32 * 4]
  let block ← structType [array]
  let _ ← decorate block .bufferBlock []
  addBlockVar block metadataBinding

/-- Declares the metadata, with what the lowering of accessors uses but cannot declare itself:
two constants and a pointer to a word. -/
def declareMetadata : Edit Handle := do
  let metadata ← addMetadata
  let word ← unsignedType 32
  let _ ← constant word 0
  let _ ← constant word 1
  let _ ← pointerType .uniform word
  return metadata

end Module

end KernelGrid
