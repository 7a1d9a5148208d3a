import RowFilter.Fault
import RowFilter.Query.Condition

/-!
Queries. A query starts from the visible rows of a model and is narrowed by one condition after
another; its rows are those that meet all of them and that the joins shared by the conditions keep.
A condition on several related rows may bring a row more than once. Rows are only looked at when
they are fetched, and an operand that cannot be put to a database shows only then; but a query that
is known to have no rows is not put to the database at all.
-/

namespace RowFilter

/-- The visible rows of a model that meet conditions. Rows of a distinct query are never
repeated. -/
structure Query where
  model : Model
  conditions : List Condition := []
  isDistinct : Bool := false

namespace Query

def all (m : Model) : Query :=
  { model := m }

def narrow (q : Query) (c : Condition) : Query :=
  { q with conditions := q.conditions ++ [c] }

def distinct (q : Query) : Query :=
  { q with isDistinct := true }

def joins (q : Query) : Joins :=
  .ofTouches (q.conditions.filterMap Condition.touch?)

def admits (q : Query) (db : Database) (row : Row) : Bool :=
  q.joins.keep db row && Condition.allHold db q.conditions row

/-- How often a row is among those of the query if it is admitted: once for every choice of a way to
meet each condition, or once only if the query is distinct. -/
def copies (q : Query) (db : Database) (row : Row) : Nat :=
  if q.isDistinct then 1 else q.conditions.foldr (fun c count => c.copies db row * count) 1

def rows (q : Query) (db : Database) : List Row :=
  ((db.visible q.model).filter (q.admits db)).flatMap fun row =>
    List.replicate (q.copies db row) row

def fetch (q : Query) (db : Database) : Except Fault (List Row) := do
  match ← Condition.verdictOfAll q.conditions with
  | .never => return []
  | .asked overflows => if overflows then throw .tooLarge else return q.rows db

def keys (schema : Schema) (q : Query) (db : Database) : Except Fault (List Cell) := do
  let column := ((schema.keyField? q.model).map (·.columnName)).getD "id"
  let rows ← q.fetch db
  return (rows.map (·.cell column)).mergeSort fun a b => !b.before a

theorem copies_pos {q : Query} {db : Database} {row : Row} (h : q.admits db row = true) :
    0 < q.copies db row := by
  have hall : ∀ c ∈ q.conditions, 0 < c.copies db row := fun c hc =>
    Condition.copies_pos_iff.2
      (List.all_eq_true.1 (Condition.allHold_eq_all db q.conditions row ▸
        (Bool.and_eq_true _ _ ▸ h).2) c hc)
  have product (cs : List Condition) (hcs : ∀ c ∈ cs, 0 < c.copies db row) :
      0 < cs.foldr (fun c count => c.copies db row * count) 1 := by
    induction cs with
    | nil => simp
    | cons c cs ih =>
      rw [List.foldr_cons]
      exact Nat.mul_pos (hcs c List.mem_cons_self)
        (ih fun d hd => hcs d (List.mem_cons_of_mem c hd))
  unfold copies
  split
  · exact Nat.one_pos
  · exact product q.conditions hall

theorem mem_rows_iff {q : Query} {db : Database} {row : Row} :
    row ∈ q.rows db ↔ row ∈ db.visible q.model ∧ q.admits db row = true := by
  simp only [rows, List.mem_flatMap, List.mem_filter, List.mem_replicate]
  constructor
  · rintro ⟨other, hother, -, rfl⟩
    exact hother
  · exact fun h => ⟨row, h, Nat.ne_of_gt (copies_pos h.2), rfl⟩

end Query

end RowFilter
