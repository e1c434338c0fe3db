import KernelGrid.Word

/-!
# Kernel signatures

A signature is a set of flags that say what a kernel takes and returns besides its inputs.
-/

namespace KernelGrid

structure Signature where
  bits : Word
deriving DecidableEq, Repr

namespace Signature

def empty : Signature := ⟨0⟩

/-- Reads one element of each input. -/
def input : Signature := ⟨0x01⟩
/-- Returns one element of the output. -/
def output : Signature := ⟨0x02⟩
/-- Takes a pointer to data of the caller. -/
def userData : Signature := ⟨0x04⟩
/-- Takes the first coordinate. -/
def x : Signature := ⟨0x08⟩
/-- Takes the second coordinate. -/
def y : Signature := ⟨0x10⟩
/-- Handles one cell of the grid at a time. -/
def kernel : Signature := ⟨0x20⟩
/-- Takes the third coordinate. -/
def z : Signature := ⟨0x40⟩
/-- Takes the context of the launch. -/
def context : Signature := ⟨0x80⟩

def union (a b : Signature) : Signature := ⟨a.bits ||| b.bits⟩

def isEmpty (s : Signature) : Bool := s.bits = 0

def contains (a b : Signature) : Bool := a.bits &&& b.bits = b.bits

def intersects (a b : Signature) : Bool := a.bits &&& b.bits ≠ 0

/-- Whether the kernel needs the position of its cell. -/
def needsIndex (s : Signature) : Bool :=
  s.intersects ((((input.union output).union x).union y).union z)

/-- The flags that have a name, by increasing bit. -/
def flagNames : List (Signature × String) :=
  [(input, "in"), (output, "out"), (userData, "usrdata"), (x, "x"), (y, "y"), (kernel, "kernel"),
    (z, "z"), (context, "ctxt")]

def text (s : Signature) : String :=
  match flagNames.filterMap fun (flag, name) => if s.contains flag then some name else none with
  | [] => "none"
  | names => "|".intercalate names

end Signature

end KernelGrid
