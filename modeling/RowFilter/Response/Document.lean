import RowFilter.Text.Quoted

/-!
Documents in the object notation that responses are written in. A document is written on one line,
with a space after every comma and colon, and in ASCII only: other characters are escaped by their
UTF-16 units, of which a character beyond the first 65536 has two.
-/

namespace RowFilter

inductive Document where
  | null
  | bool (b : Bool)
  | number (n : Int)
  | text (s : String)
  | list (items : List Document)
  | object (entries : List (String × Document))
  deriving Inhabited

namespace Document

def unit (n : Nat) : List Char :=
  '\\' :: 'u' :: Text.hex 4 n

def escape (c : Char) : List Char :=
  match c with
  | '"' => ['\\', '"']
  | '\\' => ['\\', '\\']
  | '\n' => ['\\', 'n']
  | '\r' => ['\\', 'r']
  | '\t' => ['\\', 't']
  | '\x08' => ['\\', 'b']
  | '\x0c' => ['\\', 'f']
  | c =>
    let n := c.toNat
    if 32 ≤ n ∧ n < 127 then [c]
    else if n < 0x10000 then unit n
    else unit (0xD800 + (n - 0x10000) / 0x400) ++ unit (0xDC00 + (n - 0x10000) % 0x400)

def quote (s : String) : String :=
  .ofList ('"' :: s.toList.flatMap escape ++ ['"'])

mutual

def render : Document → String
  | null => "null"
  | bool b => if b then "true" else "false"
  | number n => toString n
  | text s => quote s
  | list items => "[" ++ ", ".intercalate (renderAll items) ++ "]"
  | object entries => "\x7b" ++ ", ".intercalate (renderEntries entries) ++ "\x7d"

def renderAll : List Document → List String
  | [] => []
  | d :: rest => d.render :: renderAll rest

def renderEntries : List (String × Document) → List String
  | [] => []
  | (key, d) :: rest => (quote key ++ ": " ++ d.render) :: renderEntries rest

end

example : (list [number 1, text "é😀"]).render = "[1, \"\\u00e9\\ud83d\\ude00\"]" := by decide

end Document

end RowFilter
