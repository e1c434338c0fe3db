import KernelGrid.Text.Unprintable
import KernelGrid.Text.Numeral

/-!
# Quoted text

Text between double quotes on one line: quotes and backslashes are escaped, and so is everything
that would not show as itself.
-/

namespace KernelGrid.Text

/-- How one character is written between double quotes. -/
def escape (c : Char) : String :=
  if c = '"' then "\\\""
  else if c = '\\' then "\\\\"
  else if c = '\n' then "\\n"
  else if c = '\r' then "\\r"
  else if c = '\t' then "\\t"
  else if c = '\x00' then "\\0"
  else if isUnprintable c then "\\u\x7b" ++ hexadecimal c.toNat ++ "\x7d"
  else c.toString

def quote (s : String) : String :=
  "\"" ++ String.join (s.toList.map escape) ++ "\""

end KernelGrid.Text
