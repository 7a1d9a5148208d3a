import RowFilter.Schema.Model
import RowFilter.Table.Cell

/-!
Databases. A database holds the rows of every model; the pairs of keys that many-to-many fields link
are rows too, of the models they go through. A model may hide some of its rows: those are in the
table, and references lead to them, but queries do not start from them.
-/

namespace RowFilter

structure Database where
  rows : String → List Row

namespace Database

def visible (db : Database) (m : Model) : List Row :=
  (db.rows m.concrete).filter fun row =>
    match m.hiddenBy with
    | some column => row.cell column == .int 0
    | none => true

end Database

end RowFilter
