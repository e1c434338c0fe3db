import KernelGrid.Word

/-!
# Enumerants

The format numbers its storage classes, decorations, capabilities and so on.  A vocabulary is one
such numbering; an enumerant is a number that the vocabulary knows.
-/

namespace KernelGrid

/-- A numbering of names.  The label says what is named. -/
structure Vocabulary where
  label : String
  entries : List (Word × String)

/-- A number that stands for a name of the vocabulary. -/
structure Enumerant (v : Vocabulary) where
  code : Word
  isKnown : (v.entries.lookup code).isSome
deriving DecidableEq

namespace Enumerant

variable {v : Vocabulary}

def ofCode? (code : Word) : Option (Enumerant v) :=
  if h : (v.entries.lookup code).isSome then some ⟨code, h⟩ else none

def name (e : Enumerant v) : String :=
  (v.entries.lookup e.code).get e.isKnown

theorem code_injective {a b : Enumerant v} (h : a.code = b.code) : a = b := by
  cases a; cases b; cases h; rfl

@[simp] theorem ofCode?_code (e : Enumerant v) : ofCode? e.code = some e := by
  simp [ofCode?, e.isKnown]

theorem code_of_ofCode? {code : Word} {e : Enumerant v} (h : ofCode? code = some e) :
    e.code = code := by
  unfold ofCode? at h
  split at h
  · cases h; rfl
  · cases h

end Enumerant

end KernelGrid
