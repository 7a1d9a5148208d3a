import RowFilter.Filter.Registry
import RowFilter.Parameters.Basic
import RowFilter.Response.Document

/-!
Responses. A resource answers a request for its rows with their keys; the request's parameters say
which rows are wanted. An error of a filter becomes a document of its own, under the error's
status; any other fault is left to whoever asked.
-/

namespace RowFilter

structure Response where
  status : Nat
  body : String
  deriving DecidableEq, Repr

namespace FilterError

def parameter? (e : FilterError) : Option String :=
  match e.key with
  | none | some "" => none
  | some key => some ("filter[" ++ key ++ "]")

def entries (e : FilterError) : List (String × Document) :=
  let source := match e.parameter? with
    | some name => [("source", .object [("parameter", .text name)])]
    | none => []
  [("status", .text (toString e.status)), ("title", .text e.detail.errorClass.title),
    ("detail", .text e.message)] ++ source

def response (e : FilterError) : Response :=
  { status := e.status
    body := (Document.object [("errors", .list [.object e.entries])]).render }

end FilterError

namespace Response

def contentType : String := "application/json"

def ofCell : Cell → Document
  | .null => .null
  | .int n => .number n
  | .text s => .text s
  | .moment m => .text m.text

def ofKeys (keys : List Cell) : Response :=
  { status := 200, body := (Document.object [("data", .list (keys.map ofCell))]).render }

/-- Turns an error of a filter into a response, and logs it with the path that was asked for. -/
def reportingErrors (path : String) (x : Outcome Response) : Outcome Response :=
  match x.result with
  | .error (.rejected r) =>
    let record : Record :=
      { level := .info
        message := s!"Filter error on {path}: {r.message}"
        key := r.error.key
        status := some r.error.status }
    ⟨x.log ++ [record], .ok r.error.response⟩
  | _ => x

def answer (schema : Schema) (settings : Settings) (registry : FilterRegistry) (db : Database)
    (m : Model) (path : String) (parameters : Mapping Value) : Outcome Response :=
  reportingErrors path do
    let incoming ← Parameters.filters settings parameters none
    let narrowed ← registry.apply schema settings (.all m) (.mapping incoming)
    return ofKeys (← .ofExcept (narrowed.keys schema db))

end Response

end RowFilter
