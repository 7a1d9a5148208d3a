/-!
Likeness of texts. Two texts are alike by what is left of them when the longest block that they
share is matched, and then the parts before it and the parts after it in the same way. The likeness
is twice the number of characters matched to the number of all characters; `closest` finds the few
texts that are most like another one.
-/

namespace RowFilter.Text

def commonStart : List Char → List Char → Nat
  | a :: as, b :: bs => if a = b then commonStart as bs + 1 else 0
  | _, _ => 0

structure Block where
  left : Nat
  right : Nat
  length : Nat
  deriving DecidableEq, Repr

/-- The longest block that two lists share, the first one of the left list, and then of the right
list, if there are several. -/
def longestBlock (as bs : List Char) : Block :=
  let blocks := (List.range as.length).flatMap fun i =>
    (List.range bs.length).map fun j => Block.mk i j (commonStart (as.drop i) (bs.drop j))
  blocks.foldl (fun best block => if best.length < block.length then block else best) ⟨0, 0, 0⟩

/-- The number of characters matched by at most `depth` nested blocks. -/
def matchedAux : (depth : Nat) → List Char → List Char → Nat
  | 0, _, _ => 0
  | depth + 1, as, bs =>
    let block := longestBlock as bs
    if block.length = 0 then 0
    else matchedAux depth (as.take block.left) (bs.take block.right) + block.length
      + matchedAux depth (as.drop (block.left + block.length))
          (bs.drop (block.right + block.length))

/-- How alike two texts are: the number of characters matched, and half the number of all. -/
structure Likeness where
  matched : Nat
  total : Nat
  deriving DecidableEq, Repr

def likeness (a b : String) : Likeness :=
  ⟨2 * matchedAux a.length a.toList b.toList, a.length + b.length⟩

namespace Likeness

def isClose (x : Likeness) : Bool :=
  3 * x.total ≤ 5 * x.matched && x.total ≠ 0

def less (x y : Likeness) : Bool :=
  x.matched * y.total < y.matched * x.total

end Likeness

def maxOffered : Nat := 3

/-- The texts of a list that are close to `word`, the most alike first and of equally alike ones the
greatest first. -/
def closest (word : String) (known : List String) : List String :=
  let scored := known.map fun text => (likeness text word, text)
  let close := (scored.filter (·.1.isClose)).mergeSort fun (x, a) (y, b) =>
    y.less x || !x.less y && b ≤ a
  (close.take maxOffered).map (·.2)

example : likeness "gte" "lte" = ⟨4, 6⟩ := by decide +kernel

end RowFilter.Text
