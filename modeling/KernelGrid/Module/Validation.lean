import KernelGrid.Module.Decorations

/-!
# Validation

What a module violates of the rules for work group sizes and for bound buffers: a bound
variable is a uniform variable that points to a block struct, and the members of the struct are
laid out in order.
-/

namespace KernelGrid

inductive Finding where
  | zeroExtent (entry : String) (axis : Nat)
  | boundNonVariable (id : ResultId)
  | boundStorage (id : ResultId) (storage : StorageClass)
  | unmarkedBlock (id block : ResultId)
  | boundNonStruct (id : ResultId)
  | offsetOrder (block : ResultId) (member : Nat) (offset : Word)
deriving DecidableEq

def Finding.message : Finding → String
  | zeroExtent entry axis => s!"entry point '{entry}' has local_size[{axis}] = 0"
  | boundNonVariable id => s!"binding on non-variable %{id}"
  | boundStorage id storage =>
    s!"bound variable %{id} is in {storage.name} storage, expected Uniform"
  | unmarkedBlock id block =>
    s!"bound variable %{id} points to struct %{block} without a block decoration"
  | boundNonStruct id => s!"bound variable %{id} does not point to a struct"
  | offsetOrder block member offset =>
    s!"struct %{block} member {member} offset {offset} does not increase"

def EntryPoint.findings (e : EntryPoint Handle) : List Finding :=
  (e.localSize.toList.flatMap fun size => size.toList.zipIdx).filterMap fun (extent, axis) =>
    if extent = 0 then some (.zeroExtent e.name axis) else none

namespace Module

variable (m : Module)

/-- The offset of a struct member: the first operand of its first such decoration. -/
def memberOffset? (block : Handle) (member : Nat) : Option Word :=
  (m.memberDecorations block member.toUInt32 .offset).head?.bind List.head?

/-- The members that have an offset. -/
def placedMembers (block : Handle) (count : Word) : List (Nat × Word) :=
  (List.range count.toNat).filterMap fun member =>
    (m.memberOffset? block member).map (member, ·)

/-- Each member is compared with the nearest placed member in front of it. -/
def offsetFindings (block : Handle) (count : Word) : List Finding :=
  let placed := m.placedMembers block count
  (placed.zip placed.tail).filterMap fun ((_, before), (member, offset)) =>
    if offset ≤ before then some (.offsetOrder (m.idOf block) member offset) else none

def blockFindings (h block : Handle) (members : List Handle) : List Finding :=
  let isMarked := m.hasDecoration block .bufferBlock || m.hasDecoration block .block
  (if isMarked then [] else [.unmarkedBlock (m.idOf h) (m.idOf block)])
    ++ m.offsetFindings block members.length.toUInt32

/-- The struct type that a variable points to, with its members. -/
def pointeeStruct? (h : Handle) : Option (Handle × List Handle) := do
  let block ← m.pointee? (← m.typeOf? h)
  match m.kindOf block with
  | .typeStruct members => return (block, members)
  | _ => none

def globalFindings (h : Handle) : List Finding :=
  if m.hasDecoration h .binding then
    match m.kindOf h with
    | .var storage _ =>
      (if storage = .uniform then [] else [.boundStorage (m.idOf h) storage])
        ++ match m.pointeeStruct? h with
          | some (block, members) => m.blockFindings h block members
          | none => [.boundNonStruct (m.idOf h)]
    | _ => [.boundNonVariable (m.idOf h)]
  else []

def validate : List Finding :=
  m.entryPoints.flatMap EntryPoint.findings ++ m.globals.flatMap m.globalFindings

end Module

end KernelGrid
