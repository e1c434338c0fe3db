/-!
# Arenas

Append-only storage.  A handle is the position at which a value was stored, and it stays valid
because values are replaced but never removed.
-/

namespace KernelGrid

structure Handle where
  index : Nat
deriving DecidableEq, Repr

namespace Handle

def text (h : Handle) : String := s!"[{h.index}]"

/-- Handles are ordered by the time of storing. -/
instance : Ord Handle where
  compare a b := compare a.index b.index

end Handle

structure Arena (α : Type) where
  values : Array α

namespace Arena

variable {α : Type}

def empty : Arena α := ⟨#[]⟩

instance : Inhabited (Arena α) := ⟨empty⟩

def size (a : Arena α) : Nat := a.values.size

def isEmpty (a : Arena α) : Bool := a.values.isEmpty

/-- The handle of the value that is stored next. -/
def nextHandle (a : Arena α) : Handle := ⟨a.size⟩

def push (a : Arena α) (value : α) : Arena α := ⟨a.values.push value⟩

def get? (a : Arena α) (h : Handle) : Option α := a.values[h.index]?

/-- Replaces a stored value. -/
def set? (a : Arena α) (h : Handle) (value : α) : Option (Arena α) :=
  if h.index < a.size then some ⟨a.values.setIfInBounds h.index value⟩ else none

/-- Changes a stored value; a handle that stores nothing changes nothing. -/
def modify (a : Arena α) (h : Handle) (f : α → α) : Arena α := ⟨a.values.modify h.index f⟩

/-- Every value with its handle, in the order of storing. -/
def toList (a : Arena α) : List (Handle × α) :=
  a.values.toList.zipIdx.map fun (value, i) => (⟨i⟩, value)

def handles (a : Arena α) : List Handle :=
  (List.range a.size).map Handle.mk

@[simp] theorem size_push (a : Arena α) (value : α) : (a.push value).size = a.size + 1 := by
  simp [size, push]

@[simp] theorem get?_push_nextHandle (a : Arena α) (value : α) :
    (a.push value).get? a.nextHandle = some value := by
  simp [get?, push, nextHandle, size]

theorem get?_nextHandle (a : Arena α) : a.get? a.nextHandle = none := by
  simp [get?, nextHandle, size]

theorem get?_push (a : Arena α) (value : α) (h : Handle) :
    (a.push value).get? h = if h = a.nextHandle then some value else a.get? h := by
  cases h
  simp [get?, push, nextHandle, size, Array.getElem?_push]

@[simp] theorem size_modify (a : Arena α) (h : Handle) (f : α → α) :
    (a.modify h f).size = a.size := by
  simp [size, modify]

theorem get?_modify (a : Arena α) (h g : Handle) (f : α → α) :
    (a.modify h f).get? g = if h = g then (a.get? g).map f else a.get? g := by
  cases h; cases g; simp [get?, modify, Array.getElem?_modify]

end Arena

end KernelGrid
