import RowFilter.Fault
import RowFilter.Query.Join

/-!
Conditions and their meaning. A condition on the rows of a model tests a column, asks for a linked
row that meets conditions of its own, or for the absence of rows with a cell that meets a test.
`Condition.holds` says when a row meets one. Between related rows that hops lead to, `copies` counts
how many of them meet it, which is how often the row appears among those of a query.

Before rows are looked at, `Condition.verdict` tells whether a condition can be put to a database
at all, and some that no row meets.
-/

namespace RowFilter

/-- A link from the rows of a model to related rows: a column of these has the cell `outer`. -/
structure Link where
  related : Model
  join : ColumnRef
  outer : ColumnRef

def Link.leads (db : Database) (l : Link) (row related : Row) : Bool :=
  (l.join.cells db true related).any fun key => key.agrees (l.outer.read db row)

/-- The absence of rows of a model, with the cell `outer` in their column `target`, of which a
column meets a test. Where `butNull` is set, rows without a cell `outer` are left out. -/
structure Absence where
  outer : ColumnRef
  model : String
  target : String
  inner : ColumnRef
  test : Test
  butNull : Bool
  deriving DecidableEq, Repr

def Absence.holds (db : Database) (a : Absence) (row : Row) : Bool :=
  let key := a.outer.read db row
  !((db.rows a.model).any fun other =>
      (other.cell a.target).agrees key && a.inner.meets db a.test other)
    && !(a.butNull && !key.isPresent)

inductive Condition where
  | never
  | test (column : ColumnRef) (t : Test)
  | absent (a : Absence)
  | linked (link : Link) (inner : List Condition)

/-- What becomes of a condition before rows are looked at: it is met by no row, or it is put to a
database, which fails if an operand is too large. -/
inductive Verdict where
  | never
  | asked (overflows : Bool)
  deriving DecidableEq, Repr

namespace Verdict

def and : Verdict → Verdict → Verdict
  | asked a, asked b => asked (a || b)
  | _, _ => never

def nested : Verdict → Verdict
  | never => asked false
  | asked overflows => asked overflows

end Verdict

def ColumnRef.verdict (c : ColumnRef) (t : Test) : Except Fault Verdict :=
  match c.missingYear? t with
  | some (ofWeeks, year) => .error (.noSuchYear ofWeeks year)
  | none =>
    if t.operands.any Cell.isOutOfCalendar then .error .outOfCalendar
    else if t = .contains none then .error .longNumber
    else .ok (if c.excludes t then .never else .asked (c.overflows t))

namespace Condition

def touch? : Condition → Option Touch
  | never => none
  | test column t => some (column.touch t.needsRow)
  | absent a => some (a.outer.touch false)
  | linked link _ => some (link.outer.touch false)

def linkJoins (link : Link) (inner : List Condition) : Joins :=
  .ofTouches (link.join.touch true :: inner.filterMap touch?)

mutual

def holds (db : Database) : Condition → Row → Bool
  | never, _ => false
  | test column t, row => column.meets db t row
  | absent a, row => a.holds db row
  | linked link inner, row =>
    (db.visible link.related).any fun related =>
      link.leads db row related && (linkJoins link inner).keep db related
        && allHold db inner related

def allHold (db : Database) : List Condition → Row → Bool
  | [], _ => true
  | c :: cs, row => c.holds db row && allHold db cs row

end

def copies (db : Database) (c : Condition) (row : Row) : Nat :=
  match c with
  | test column t => (column.cells db t.needsRow row).countP (column.accepts t)
  | c => if c.holds db row then 1 else 0

mutual

def verdict : Condition → Except Fault Verdict
  | never => .ok .never
  | test column t => column.verdict t
  | absent a => Verdict.nested <$> a.inner.verdict a.test
  | linked _ inner => do return (← verdictOfAll inner).nested

/-- What becomes of conditions, in order up to the first that no row meets. -/
def verdictOfAll : List Condition → Except Fault Verdict
  | [] => .ok (.asked false)
  | c :: cs => do
    match ← c.verdict with
    | .never => return .never
    | found => return found.and (← verdictOfAll cs)

end

mutual

def tables : Condition → List String
  | never | test _ _ | absent _ => []
  | linked link inner => link.related.table :: tablesOf inner

def tablesOf : List Condition → List String
  | [] => []
  | c :: cs => c.tables ++ tablesOf cs

end

theorem allHold_eq_all (db : Database) (cs : List Condition) (row : Row) :
    allHold db cs row = cs.all (·.holds db row) := by
  induction cs with
  | nil => rfl
  | cons c cs ih => simp [allHold, ih]

theorem allHold_append (db : Database) (cs ds : List Condition) (row : Row) :
    allHold db (cs ++ ds) row = (allHold db cs row && allHold db ds row) := by
  simp [allHold_eq_all, List.all_append]

theorem copies_pos_iff {db : Database} {c : Condition} {row : Row} :
    0 < c.copies db row ↔ c.holds db row = true := by
  cases c with
  | test column t => simp [copies, holds, ColumnRef.meets, List.countP_pos_iff]
  | never => simp [copies, holds]
  | absent a => simp only [copies]; split <;> simp_all
  | linked link inner => simp only [copies]; split <;> simp_all

/-- A row meets a condition on linked rows exactly if a visible row that the link leads to, and
that the joins keep, meets all inner conditions. -/
theorem holds_linked_iff {db : Database} {link : Link} {inner : List Condition} {row : Row} :
    (linked link inner).holds db row = true ↔
      ∃ related ∈ db.visible link.related, link.leads db row related = true ∧
        (linkJoins link inner).keep db related = true ∧ ∀ c ∈ inner, c.holds db related = true := by
  simp [holds, allHold_eq_all, and_assoc]

end Condition

end RowFilter
