/-!
# Pieces

Text taken apart at a separator, and into lines.
-/

namespace KernelGrid.Text

/-- The pieces between the separators, one more than there are separators. -/
def pieces (separator : Char) (cs : List Char) : List (List Char) :=
  cs.foldr
    (fun c pieces =>
      if c = separator then [] :: pieces
      else (c :: pieces.headD []) :: pieces.tail)
    [[]]

/-- Leaves out one carriage return at the end. -/
def dropReturn (cs : List Char) : List Char :=
  if cs.getLast? = some '\r' then cs.dropLast else cs

/-- The lines of a text, one more than there are line feeds.  A carriage return at the end of a
line belongs to the line's end. -/
def lines (text : String) : List String :=
  (pieces '\n' text.toList).map fun line => String.ofList (dropReturn line)

end KernelGrid.Text
