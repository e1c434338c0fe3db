import KernelGrid.Kernel.Signature
import KernelGrid.Module.Builder
import KernelGrid.Module.Decorations

/-!
# Cells of the grid

A grid has three extents, and its cells are numbered line by line.  The code that computes the
number of a cell follows the same rule.
-/

namespace KernelGrid

/-- The number of a cell, counted along x, then y, then z.  The last extent does not matter. -/
def linearIndex (cell extent : Extent) : Word :=
  cell.x + extent.x * (cell.y + extent.y * cell.z)

/-- What an entry point derives from the position of its invocation. -/
structure Cell where
  x : Handle
  y : Handle
  z : Handle
  index : Handle
  invocationId : Handle
  numWorkgroups : Handle

namespace Cell

/-- The coordinates that a kernel takes: a later one only together with those before it. -/
def coordinates (c : Cell) (s : Signature) : List Handle :=
  if s.contains .x then
    c.x :: if s.contains .y then
      c.y :: if s.contains .z then [c.z] else []
    else []
  else []

def interface (c : Cell) : List Handle := [c.invocationId, c.numWorkgroups]

open KernelGrid.Module KernelGrid.Builder

/-- Computes the index of the cell.  Work groups have a single member, so that the grid has as
many cells as there are groups. -/
def emit (word : Handle) : Build Cell := do
  let triple ← edit (vectorType word 3)
  let invocationId ← edit invocationIdVar
  let position ← load triple invocationId
  let x ← compositeExtract word position [0]
  let y ← compositeExtract word position [1]
  let z ← compositeExtract word position [2]
  let one ← edit (constant word 1)
  let groupSize ← edit (constantComposite triple [one, one, one])
  let groupSizeX ← compositeExtract word groupSize [0]
  let groupSizeY ← compositeExtract word groupSize [1]
  let numWorkgroups ← edit numWorkgroupsVar
  let groups ← load triple numWorkgroups
  let groupsX ← compositeExtract word groups [0]
  let groupsY ← compositeExtract word groups [1]
  let extentX ← iMul word groupSizeX groupsX
  let extentY ← iMul word groupSizeY groupsY
  let rowsBelow ← iMul word extentY z
  let row ← iAdd word y rowsBelow
  let cellsBefore ← iMul word extentX row
  let index ← iAdd word cellsBefore x
  return { x, y, z, index, invocationId, numWorkgroups }

end Cell

end KernelGrid
