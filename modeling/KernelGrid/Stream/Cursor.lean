import KernelGrid.Stream.Bytes

/-!
# Cursors

A position in a stream with the words that are left there.  Each read returns its result beside
the new position: a read that asks for more words than there are does not move, while a string
that turns out to be malformed has been passed.
-/

namespace KernelGrid.Stream

/-- The offset counts words from the start of the stream. -/
structure Cursor where
  offset : Nat
  rest : List Word
deriving DecidableEq, Repr

abbrev Reader := ExceptT ModuleError (StateM Cursor)

namespace Cursor

def remaining (c : Cursor) : Nat := c.rest.length

def isEmpty (c : Cursor) : Bool := c.rest.isEmpty

def advance (c : Cursor) (count : Nat) : Cursor where
  offset := c.offset + count
  rest := c.rest.drop count

def readWord : Reader Word := fun c =>
  match c.rest with
  | [] => (.error (.truncated c.offset 1 0), c)
  | w :: _ => (.ok w, c.advance 1)

def readWords (count : Nat) : Reader (List Word) := fun c =>
  if c.remaining < count then (.error (.truncated c.offset count c.remaining), c)
  else (.ok (c.rest.take count), c.advance count)

def readRest : Reader (List Word) := fun c =>
  (.ok c.rest, c.advance c.remaining)

/-- Reads up to the word that holds the first zero byte.  Without one the whole rest is
passed. -/
def readString : Reader String := fun c =>
  let bytes := bytesOfWords c.rest
  let text := bytes.takeWhile (· ≠ 0)
  if text.length = bytes.length then
    (.error (.badString c.offset), c.advance c.remaining)
  else
    let next := c.advance (text.length / 4 + 1)
    match String.fromUTF8? ⟨text.toArray⟩ with
    | some s => (.ok s, next)
    | none => (.error (.badString c.offset), next)

end Cursor

end KernelGrid.Stream
