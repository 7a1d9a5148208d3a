import RowFilter.Text.Lowercase

/-!
Snake case. An underscore is put before a capital that starts a word of small letters, if
something on the same line stands before it; then between a small letter or digit and a capital;
and the result is put in lower case. Only ASCII letters and digits part words.
-/

namespace RowFilter.Text

/-- Puts an underscore before a capital followed by small letters, unless a line starts there. A
word, once parted, is passed over as a whole. -/
def partWords : List Char → List Char
  | c :: capital :: small :: cs =>
    if c ≠ '\n' && capital.isUpper && small.isLower then
      c :: '_' :: capital :: small :: cs.takeWhile Char.isLower
        ++ partWords (cs.dropWhile Char.isLower)
    else c :: partWords (capital :: small :: cs)
  | cs => cs
termination_by cs => cs.length
decreasing_by
  · have := (List.dropWhile_sublist Char.isLower (l := cs)).length_le
    simp only [List.length_cons]
    omega
  · simp

def partCapitals : List Char → List Char
  | c :: capital :: cs =>
    if (c.isLower || c.isDigit) && capital.isUpper then c :: '_' :: capital :: partCapitals cs
    else c :: partCapitals (capital :: cs)
  | cs => cs

def snakeCase (s : String) : String :=
  lower (.ofList (partCapitals (partWords s.toList)))

example : snakeCase "publishedAt" = "published_at" := by cbv

end RowFilter.Text
