import KernelGrid.Error

/-!
# Byte streams

A stream is stored as bytes in either byte order.  The first word of a module tells which,
since it is always the same number.
-/

namespace KernelGrid.Stream

/-- The first word of every module. -/
def magic : Word := 0x07230203

/-- Words in front of the first record: magic number, version, generator, bound and schema. -/
def headerWords : Nat := 5

/-- The largest word count that fits the high half of a record's first word. -/
def maxRecordWords : Nat := 0xffff

/-- Byte `i`, or zero past the end. -/
private def byteAt (bytes : Array UInt8) (i : Nat) : UInt8 := bytes.getD i 0

/-- Word `i` of bytes stored least significant first, padded with zeros. -/
def littleEndianWord (bytes : Array UInt8) (i : Nat) : Word :=
  Word.ofBytes (byteAt bytes (4 * i)) (byteAt bytes (4 * i + 1)) (byteAt bytes (4 * i + 2))
    (byteAt bytes (4 * i + 3))

/-- Word `i` of bytes stored most significant first. -/
def bigEndianWord (bytes : Array UInt8) (i : Nat) : Word :=
  Word.ofBytes (byteAt bytes (4 * i + 3)) (byteAt bytes (4 * i + 2)) (byteAt bytes (4 * i + 1))
    (byteAt bytes (4 * i))

/-- Bytes that start with the magic number most significant byte first are in that order
throughout; all others start with the least significant byte. -/
def wordsOfBytes (bytes : Array UInt8) : Except ModuleError (List Word) :=
  if bytes.size % 4 ≠ 0 then .error (.unaligned bytes.size)
  else if 4 ≤ bytes.size ∧ bigEndianWord bytes 0 = magic then
    .ok ((List.range (bytes.size / 4)).map (bigEndianWord bytes))
  else
    .ok ((List.range (bytes.size / 4)).map (littleEndianWord bytes))

/-- Words are written least significant byte first. -/
def bytesOfWords (words : List Word) : List UInt8 :=
  words.flatMap Word.bytes

end KernelGrid.Stream
