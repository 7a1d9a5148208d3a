import RowFilter.Text.Printable

/-!
Quoted texts. A text is written between single quotes, or between double quotes if it holds a
single quote and no double one; the enclosing quote and the backslash are escaped, the three
common control characters have short escapes, and every other character that does not print is
written by its code point.
-/

namespace RowFilter.Text

def hex : Nat → Nat → List Char
  | 0, _ => []
  | width + 1, n => hex width (n / 16) ++ [Nat.digitChar (n % 16)]

def quoteMark (cs : List Char) : Char :=
  if cs.contains '\'' && !cs.contains '"' then '"' else '\''

def quoteChar (mark c : Char) : List Char :=
  if c = mark || c = '\\' then ['\\', c]
  else if c = '\n' then ['\\', 'n']
  else if c = '\r' then ['\\', 'r']
  else if c = '\t' then ['\\', 't']
  else if isPrintable c then [c]
  else if c.toNat < 0x100 then '\\' :: 'x' :: hex 2 c.toNat
  else if c.toNat < 0x10000 then '\\' :: 'u' :: hex 4 c.toNat
  else '\\' :: 'U' :: hex 8 c.toNat

def quoted (s : String) : String :=
  let mark := quoteMark s.toList
  .ofList (mark :: s.toList.flatMap (quoteChar mark) ++ [mark])

example : quoted "it's" = "\"it's\"" := by decide

example : quoted "a'\"\n" = "'a\\'\"\\n'" := by decide

end RowFilter.Text
