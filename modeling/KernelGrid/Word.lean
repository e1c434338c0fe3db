/-!
# Words

The unit of the binary format is a 32-bit word.  Results are numbered by words, and each record
starts with a word whose low half is an opcode.
-/

namespace KernelGrid

abbrev Word := UInt32

/-- The number by which a stream refers to the result of an instruction. -/
abbrev ResultId := UInt32

abbrev Opcode := UInt16

namespace Word

/-- The four bytes of a word, least significant first. -/
def bytes (w : Word) : List UInt8 :=
  [w.toUInt8, (w >>> 8).toUInt8, (w >>> 16).toUInt8, (w >>> 24).toUInt8]

/-- The word with the given bytes, least significant first. -/
def ofBytes (a b c d : UInt8) : Word :=
  a.toUInt32 ||| b.toUInt32 <<< 8 ||| c.toUInt32 <<< 16 ||| d.toUInt32 <<< 24

/-- The following word; the largest word is its own successor. -/
def next (w : Word) : Word :=
  if w = 0xffffffff then w else w + 1

/-- The sum, unless it needs more than one word. -/
def add? (a b : Word) : Option Word :=
  if a.toNat + b.toNat < UInt32.size then some (a + b) else none

/-- The product, unless it needs more than one word. -/
def mul? (a b : Word) : Option Word :=
  if a.toNat * b.toNat < UInt32.size then some (a * b) else none

end Word

end KernelGrid
