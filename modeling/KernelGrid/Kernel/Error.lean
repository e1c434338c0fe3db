import KernelGrid.Kernel.Host

/-!
# Lowering errors

Why a kernel or a global block cannot be lowered, and at which stage a lowering failed.
-/

namespace KernelGrid

inductive KernelError where
  | missingKernel (name : String)
  /-- A parameter or the function itself has no type. -/
  | malformedKernel (name : String)
  | notForEach (name : String) (signature : Signature)
  | userData (name : String)
  | context (name : String)
  /-- Inputs are read at the index of the cell. -/
  | inputsWithoutIndex (name : String) (inputs : Word)
  | tooFewParameters (name : String) (inputs : Word) (parameters : Nat)
  | globalBlockShape (id : ResultId)
  | hostBlockShape
  | memberCount (host shader : Nat)
  | missingAllocation (name : String)
  | module (e : ModuleError)
deriving DecidableEq, Repr

namespace KernelError

def message : KernelError → String
  | missingKernel name => s!"kernel '{name}' is not defined in the module"
  | malformedKernel name => s!"kernel '{name}' is missing a parameter or return type"
  | notForEach name signature =>
    s!"kernel '{name}' is not a foreach kernel (signature {signature.text})"
  | userData name => s!"kernel '{name}' takes a user data argument"
  | context name => s!"kernel '{name}' takes a context argument"
  | inputsWithoutIndex name inputs =>
    s!"kernel '{name}' declares {inputs} inputs but no index is computed"
  | tooFewParameters name inputs parameters =>
    s!"kernel '{name}' declares {inputs} inputs but has {parameters} parameters"
  | globalBlockShape id => s!"global block %{id} is not a pointer to a struct"
  | hostBlockShape => "native global block is not a struct"
  | memberCount host shader =>
    s!"native global block has {host} members, shader block has {shader}"
  | missingAllocation name => s!"allocation '{name}' has no global variable"
  | module e => e.message

/-- Whether the signature alone is the reason. -/
def isRejection : KernelError → Bool
  | notForEach _ _ | userData _ | context _ | inputsWithoutIndex _ _ => true
  | _ => false

end KernelError

/-- The stage at which a lowering failed, with the cause. -/
inductive LoweringError where
  | stream (cause : ModuleError)
  | unresolved (cause : ModuleError)
  | structural (cause : KernelError)
  | external (cause : TransformError)
deriving DecidableEq, Repr

namespace LoweringError

def message : LoweringError → String
  | stream _ => "malformed word stream"
  | unresolved _ => "unresolved identifiers"
  | structural _ => "structural mismatch"
  | external _ => "external lowering failed"

def causeMessage : LoweringError → String
  | stream e => e.message
  | unresolved e => e.message
  | structural e => e.message
  | external e => e.text

/-- The status code for the caller; it is always negative. -/
def code : LoweringError → Int
  | stream _ => -1
  | unresolved _ => -2
  | structural _ => -3
  | external e => if e.code < 0 then e.code else TransformError.fallbackCode

end LoweringError

end KernelGrid
