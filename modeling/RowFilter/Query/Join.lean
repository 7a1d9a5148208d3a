import RowFilter.Query.Test

/-!
Joins of a query. The conditions of a query share the paths of hops that their columns take to
single rows. A join is such a path; while it is inner, a row from which the path leads nowhere is no
row of the query. A join is outer to begin with if its last hop is optional or the join before it is
outer, and inner from the first condition on that needs the row at its end. It counts only if the
column of some condition is found through it.
-/

namespace RowFilter

/-- A path that conditions of a query share. -/
structure Join where
  path : List Hop
  isOuter : Bool
  /-- Whether the column of a condition is found through the join. -/
  isUsed : Bool
  deriving DecidableEq, Repr

/-- What a condition asks of the joins of its query: a path, how many of its hops lead to the
column of the condition, and whether the rows on it are needed. -/
structure Touch where
  path : List Hop
  used : Nat
  needsRow : Bool
  deriving DecidableEq, Repr

def ColumnRef.touch (c : ColumnRef) (needsRow : Bool) : Touch :=
  ⟨c.singlePath, c.hops.length, needsRow⟩

abbrev Joins := List Join

namespace Joins

def isOuter (js : Joins) (path : List Hop) : Bool :=
  js.any fun j => j.path == path && j.isOuter

/-- The joins with one more hop after a path, or with that join changed if it is among them. -/
def extend (needsRow isUsed : Bool) (path : List Hop) (hop : Hop) (js : Joins) : Joins :=
  if js.any (·.path == path ++ [hop]) then
    js.map fun j =>
      if j.path = path ++ [hop] then
        { j with isOuter := j.isOuter && !needsRow, isUsed := j.isUsed || isUsed }
      else j
  else
    js ++ [{ path := path ++ [hop], isUsed
             isOuter := (hop.isOptional || js.isOuter path) && !needsRow }]

def extendAll (needsRow : Bool) : (used : Nat) → (path : List Hop) → List Hop → Joins → Joins
  | _, _, [], js => js
  | used, path, hop :: hops, js =>
    extendAll needsRow (used - 1) (path ++ [hop]) hops (js.extend needsRow (0 < used) path hop)

def add (js : Joins) (t : Touch) : Joins :=
  extendAll t.needsRow t.used [] t.path js

def ofTouches (touches : List Touch) : Joins :=
  touches.foldl add []

def keep (db : Database) (js : Joins) (row : Row) : Bool :=
  js.all fun j => j.isOuter || !j.isUsed || !(followHops db j.path row).isEmpty

/-- Columns of the query's own rows ask for no joins. -/
theorem add_of_path_eq_nil {t : Touch} (h : t.path = []) (js : Joins) : js.add t = js := by
  simp [add, h, extendAll]

end Joins

theorem touch_of_hops_eq_nil {c : ColumnRef} (h : c.hops = []) (hb : c.beyond = [])
    (needsRow : Bool) : (c.touch needsRow).path = [] := by
  simp [ColumnRef.touch, ColumnRef.singlePath, h, hb]

end RowFilter
