import KernelGrid.Kernel.Signature
import KernelGrid.Module.Encoding

/-!
# The host's side

What only the host compiler knows: the kernels it exports, how it laid out the global block,
which globals are backed by allocations, and two transformations of its own that the lowering
hands the module to.
-/

namespace KernelGrid

/-- A kernel that the host exports, with the number of allocations it reads. -/
structure Kernel where
  name : String
  signature : Signature
  inputs : Word
deriving DecidableEq, Repr

/-- The host's own global block. -/
inductive BlockLayout where
  /-- A struct, with the byte offset of each member. -/
  | struct (offsets : List Word)
  | notAStruct
deriving DecidableEq, Repr

/-- Either fact may be unknown. -/
structure Host where
  layout : Option BlockLayout
  allocations : Option (List String)
deriving DecidableEq, Repr

/-- A host without a global block or allocations. -/
def Host.bare : Host := ⟨none, none⟩

/-- Why a transformation of the host failed.  Codes should be negative. -/
structure TransformError where
  code : Int
  message : String
deriving DecidableEq, Repr

namespace TransformError

/-- Stands for a code that is not negative. -/
def fallbackCode : Int := -4

def text (e : TransformError) : String := s!"{e.message} (code {e.code})"

def ofModuleError (e : ModuleError) : TransformError := ⟨fallbackCode, e.message⟩

end TransformError

/-- The transformations of the host.  Each is given a module and returns a whole stream. -/
structure Transforms where
  /-- Replaces calls of built-in functions. -/
  lowerBuiltIns : Module → Except TransformError (List Word)
  /-- Replaces accessors of allocations; the handle is that of the metadata variable. -/
  lowerAccessors : Module → Handle → Except TransformError (List Word)

/-- Encodes the module as it is. -/
def Transforms.passThrough : Transforms where
  lowerBuiltIns m := m.encode.mapError .ofModuleError
  lowerAccessors m _ := m.encode.mapError .ofModuleError

end KernelGrid
