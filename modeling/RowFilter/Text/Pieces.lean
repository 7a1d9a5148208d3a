/-!
Cutting a text at a separator. `pieces` cuts at every occurrence and yields one piece more than
there are separators, so the empty text has one empty piece; `lastCut` cuts at the last occurrence
only. Joining the pieces with the separator gives the text back.
-/

namespace RowFilter.Text

def piecesAux (sep : Char) : List Char → List (List Char)
  | [] => [[]]
  | c :: cs =>
    if c = sep then [] :: piecesAux sep cs
    else match piecesAux sep cs with
      | [] => [[c]]
      | piece :: rest => (c :: piece) :: rest

/-- The pieces of a text between the occurrences of `sep`, none of them trimmed. -/
def pieces (sep : Char) (s : String) : List String :=
  (piecesAux sep s.toList).map .ofList

def lastCutAux (sep : Char) : List Char → Option (List Char × List Char)
  | [] => none
  | c :: cs =>
    match lastCutAux sep cs with
    | some (before, after) => some (c :: before, after)
    | none => if c = sep then some ([], cs) else none

def lastCut (sep : Char) (s : String) : Option (String × String) :=
  (lastCutAux sep s.toList).map fun (before, after) => (.ofList before, .ofList after)

def firstCutAux (sep : Char) : List Char → Option (List Char × List Char)
  | [] => none
  | c :: cs =>
    if c = sep then some ([], cs)
    else (firstCutAux sep cs).map fun (before, after) => (c :: before, after)

def doublePiecesAux : List Char → List (List Char)
  | [] => [[]]
  | '_' :: '_' :: cs => [] :: doublePiecesAux cs
  | c :: cs =>
    match doublePiecesAux cs with
    | [] => [[c]]
    | piece :: rest => (c :: piece) :: rest

/-- The pieces of a text between doubled underscores. -/
def doublePieces (s : String) : List String :=
  (doublePiecesAux s.toList).map .ofList

theorem piecesAux_eq_splitOn (sep : Char) (cs : List Char) : piecesAux sep cs = cs.splitOn sep := by
  induction cs with
  | nil => rfl
  | cons c cs ih =>
    rw [piecesAux, List.splitOn_cons_eq_if_modifyHead, ih]
    by_cases h : c = sep
    · simp [h]
    · rw [if_neg h, if_neg (by simpa using h)]
      cases hp : cs.splitOn sep with
      | nil => exact absurd hp (List.splitOn_ne_nil sep cs)
      | cons first rest => rfl

theorem length_piecesAux (sep : Char) (cs : List Char) :
    (piecesAux sep cs).length = cs.count sep + 1 := by
  induction cs with
  | nil => rfl
  | cons c cs ih =>
    by_cases h : c = sep
    · simp [piecesAux, h, ih]
    · rw [piecesAux, if_neg h, List.count_cons_of_ne h, ← ih]
      split
      · next hp => simp [hp] at ih
      · next hp => simp [hp]

theorem not_mem_of_mem_piecesAux {sep : Char} {cs piece : List Char}
    (h : piece ∈ piecesAux sep cs) : sep ∉ piece := by
  induction cs generalizing piece with
  | nil => simp_all [piecesAux]
  | cons c cs ih =>
    by_cases hc : c = sep
    · simp only [piecesAux, hc, if_true, List.mem_cons] at h
      rcases h with rfl | h
      · simp
      · exact ih h
    · rw [piecesAux, if_neg hc] at h
      split at h
      · obtain rfl := List.mem_singleton.1 h
        simpa using Ne.symm hc
      · next first rest hp =>
        rw [hp] at ih
        rcases List.mem_cons.1 h with rfl | h
        · have hfirst : sep ∉ first := ih (List.mem_cons_self ..)
          simp [hfirst, Ne.symm hc]
        · exact ih (List.mem_cons_of_mem _ h)

theorem piecesAux_of_not_mem {sep : Char} {cs : List Char} (h : sep ∉ cs) :
    piecesAux sep cs = [cs] := by
  rw [piecesAux_eq_splitOn, List.splitOn_eq_singleton h]

theorem intercalate_piecesAux (sep : Char) (cs : List Char) :
    List.intercalate [sep] (piecesAux sep cs) = cs := by
  rw [piecesAux_eq_splitOn, List.intercalate_splitOn]

theorem length_pieces (sep : Char) (s : String) :
    (pieces sep s).length = s.toList.count sep + 1 := by
  rw [pieces, List.length_map, length_piecesAux]

theorem not_mem_of_mem_pieces {sep : Char} {s piece : String} (h : piece ∈ pieces sep s) :
    sep ∉ piece.toList := by
  obtain ⟨cs, hcs, rfl⟩ := List.mem_map.1 h
  rw [String.toList_ofList]
  exact not_mem_of_mem_piecesAux hcs

theorem intercalate_pieces (sep : Char) (s : String) :
    (String.singleton sep).intercalate (pieces sep s) = s := by
  rw [← String.toList_inj, String.toList_intercalate, pieces, List.map_map]
  simp [Function.comp_def, intercalate_piecesAux]

theorem pieces_intercalate {sep : Char} {parts : List String} (hne : parts ≠ [])
    (h : ∀ part ∈ parts, sep ∉ part.toList) :
    pieces sep ((String.singleton sep).intercalate parts) = parts := by
  have hparts : ∀ cs ∈ parts.map String.toList, sep ∉ cs := by simpa using h
  rw [pieces, String.toList_intercalate, piecesAux_eq_splitOn, String.toList_singleton,
    List.splitOn_intercalate sep hparts (by simpa using hne), List.map_map]
  simp [Function.comp_def]

theorem pieces_of_not_mem {sep : Char} {s : String} (h : sep ∉ s.toList) : pieces sep s = [s] := by
  simp [pieces, piecesAux_of_not_mem h]

theorem lastCutAux_of_not_mem {sep : Char} {cs : List Char} (h : sep ∉ cs) :
    lastCutAux sep cs = none := by
  induction cs with
  | nil => rfl
  | cons c cs ih =>
    have hc := List.ne_of_not_mem_cons h
    simp only [lastCutAux, ih (List.not_mem_of_not_mem_cons h), if_neg (Ne.symm hc)]

/-- A separator that no other follows is where the last cut is. -/
theorem lastCutAux_append {sep : Char} {rest : List Char} (h : sep ∉ rest) (cs : List Char) :
    lastCutAux sep (cs ++ sep :: rest) = some (cs, rest) := by
  induction cs with
  | nil => simp [lastCutAux, lastCutAux_of_not_mem h]
  | cons c cs ih => simp only [List.cons_append, lastCutAux, ih]

theorem lastCut_of_not_mem {sep : Char} {s : String} (h : sep ∉ s.toList) :
    lastCut sep s = none := by
  simp [lastCut, lastCutAux_of_not_mem h]

example : pieces ',' "a,b, c" = ["a", "b", " c"] := by decide

example : pieces ',' "" = [""] := by decide

example : lastCut '.' "shop.items.code" = some ("shop.items", "code") := by decide

example : doublePieces "author___name" = ["author", "_name"] := by decide

end RowFilter.Text
