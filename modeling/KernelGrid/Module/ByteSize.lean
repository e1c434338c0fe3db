import KernelGrid.Module.Interning

/-!
# Byte sizes

How many bytes a value of a type takes in a buffer.
-/

namespace KernelGrid.Module

variable (m : Module)

/-- Looks at types that are nested at most `depth` deep. -/
def byteSizeWithin : Nat → Handle → Except ModuleError Word
  | 0, type => .error (.unsized (m.idOf type))
  | depth + 1, type =>
    let sized : Option Word → Except ModuleError Word
      | some size => .ok size
      | none => .error (.sizeOverflow (m.idOf type))
    match m.kindOf type with
    | .typeBool => .ok 4
    | .typeInt width _ => .ok (width / 8)
    | .typeFloat width => .ok (width / 8)
    | .typeVector component count => do
      sized (Word.mul? (← byteSizeWithin depth component) count)
    | .typeArray element length =>
      match m.constantValue? length with
      | some length => do sized (Word.mul? (← byteSizeWithin depth element) length)
      | none => .error (.unsized (m.idOf type))
    | .typeStruct members =>
      members.foldlM
        (fun size member => do sized (Word.add? size (← byteSizeWithin depth member))) 0
    | .typePointer _ _ => .ok 4
    | _ => .error (.unsized (m.idOf type))

/-- Pointers take four bytes.  Types that do not contain themselves by value are nested at most
as deep as there are instructions. -/
def byteSize (type : Handle) : Except ModuleError Word :=
  m.byteSizeWithin (m.insts.size + 1) type

end KernelGrid.Module
