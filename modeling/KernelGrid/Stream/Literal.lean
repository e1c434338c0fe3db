import KernelGrid.Stream.Bytes

/-!
# Literal strings

A string is packed into words as its UTF-8 bytes, a zero byte, and zeros up to the word's end.
-/

namespace KernelGrid.Stream

/-- The words of a string.  There is always room for the terminating zero. -/
def literalWords (s : String) : List Word :=
  (List.range (s.utf8ByteSize / 4 + 1)).map (littleEndianWord s.toUTF8.data)

end KernelGrid.Stream
