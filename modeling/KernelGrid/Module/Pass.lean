import KernelGrid.Module.Validation

/-!
# Passes

Changes of a whole module that are repeated until a round of them changes nothing.
-/

namespace KernelGrid

inductive Pass where
  | storageClass
  | consolidation
  | validation
deriving DecidableEq, Repr

namespace Module

/-- Moves an instruction from function storage to uniform storage. -/
def makeUniform (i : Inst Handle) : Inst Handle :=
  if i.kind.storage? = some .function then { i with kind := i.kind.withStorage .uniform } else i

def isInFunctionStorage (m : Module) (h : Handle) : Bool :=
  (m.kindOf h).storage? = some .function

/-- Moves pointer types and variables of the globals section to uniform storage.  Pointer types
may become equal by that, so declarations are interned anew. -/
def normalizeStorage (m : Module) : Bool × Module :=
  if m.globals.any m.isInFunctionStorage then
    (true, reintern
      { m with insts := m.globals.foldl (fun insts h => insts.modify h makeUniform) m.insts })
  else (false, m)

end Module

namespace Pass

def name : Pass → String
  | storageClass => "global-storage-class"
  | consolidation => "annotation-consolidation"
  | validation => "ir-validation"

/-- Whether the pass changed anything, and the module after it.  Validation never does. -/
def run (p : Pass) (m : Module) : Bool × Module :=
  match p with
  | storageClass => m.normalizeStorage
  | consolidation =>
    let after := m.consolidate
    (after.annotations.length ≠ m.annotations.length, after)
  | validation => (false, m)

/-- A pass that changed the module in some iteration. -/
structure Change where
  pass : Pass
  iteration : Nat
deriving DecidableEq, Repr

def Change.message (c : Change) : String :=
  s!"pass '{c.pass.name}' changed the module (iteration {c.iteration})"

/-- Runs each pass once. -/
def runRound (passes : List Pass) (iteration : Nat) (m : Module) : List Change × Module :=
  passes.foldl
    (fun (changes, m) pass =>
      match pass.run m with
      | (true, m) => (changes ++ [⟨pass, iteration⟩], m)
      | (false, m) => (changes, m))
    ([], m)

/-- Repeats the passes until a round changes nothing, at most `rounds` times. -/
def repeatRounds (passes : List Pass) : (rounds iteration : Nat) → Module → List Change × Module
  | 0, _, m => ([], m)
  | rounds + 1, iteration, m =>
    match runRound passes iteration m with
    | ([], m) => ([], m)
    | (changes, m) =>
      let (later, m) := repeatRounds passes rounds (iteration + 1) m
      (changes ++ later, m)

def maxRounds : Nat := 10

def runAll (passes : List Pass) (m : Module) : List Change × Module :=
  repeatRounds passes maxRounds 0 m

def normalization : List Pass := [storageClass, consolidation]

end Pass

/-- Moves globals to uniform storage and drops repeated decorations. -/
def Module.normalize (m : Module) : List Pass.Change × Module :=
  Pass.runAll Pass.normalization m

end KernelGrid
