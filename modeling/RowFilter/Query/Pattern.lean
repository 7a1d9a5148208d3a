/-!
Patterns. A search is put to a database as a pattern, a text in which some characters are marks: a
percent sign stands for any characters, an underscore for any one, and a mark behind a backslash for
itself. What is looked for is escaped and stands between two percent signs. The database reads a
pattern, and the texts that it compares with one, up to the first null character, and does not tell
ASCII capitals from small letters.

So a search finds the texts in which what is looked for occurs. If that has a null character, the
percent sign behind it is not read, and it is found at the end of texts only.
-/

namespace RowFilter

inductive PatternMark where
  | letter (c : Char)
  | anyOne
  | anyMany
  deriving DecidableEq, Repr

namespace Pattern

def escape (c : Char) : List Char :=
  if c = '\\' ∨ c = '%' ∨ c = '_' then ['\\', c] else [c]

def containing (part : List Char) : List Char :=
  '%' :: part.flatMap escape ++ ['%']

def beforeNull (cs : List Char) : List Char :=
  cs.takeWhile (· ≠ '\x00')

/-- The marks of a pattern, which must not end in a backslash. -/
def read? : List Char → Option (List PatternMark)
  | [] => some []
  | ['\\'] => none
  | '\\' :: c :: cs => (.letter c :: ·) <$> read? cs
  | c :: cs =>
    let mark := if c = '%' then .anyMany else if c = '_' then .anyOne else .letter c
    (mark :: ·) <$> read? cs

def someSuffix (p : List Char → Bool) : List Char → Bool
  | [] => p []
  | c :: cs => p (c :: cs) || someSuffix p cs

def fits : List PatternMark → List Char → Bool
  | [], cs => cs.isEmpty
  | .anyMany :: marks, cs => someSuffix (fits marks) cs
  | _ :: _, [] => false
  | .anyOne :: marks, _ :: cs => fits marks cs
  | .letter a :: marks, c :: cs => a.toLower == c.toLower && fits marks cs

def matches? (pattern text : List Char) : Bool :=
  ((read? (beforeNull pattern)).map (fits · (beforeNull text))).getD false

section Marks

variable {c : Char} {part cs : List Char} {marks : List PatternMark}

theorem beforeNull_eq_self (h : '\x00' ∉ cs) : beforeNull cs = cs := by
  induction cs with
  | nil => rfl
  | cons c cs ih =>
    have hc := List.ne_of_not_mem_cons h
    rw [beforeNull, List.takeWhile_cons_of_pos (by simpa using Ne.symm hc)]
    exact congrArg (c :: ·) (ih (List.not_mem_of_not_mem_cons h))

theorem beforeNull_escape (h : c ≠ '\x00') (cs : List Char) :
    beforeNull (escape c ++ cs) = escape c ++ beforeNull cs := by
  unfold escape
  split <;> simp [beforeNull, h]

/-- Of escaped characters those before the first null character are read, and what stands behind
them if there is none. -/
theorem beforeNull_flatMap_escape (part cs : List Char) :
    beforeNull (part.flatMap escape ++ cs) = (beforeNull part).flatMap escape ++
      if '\x00' ∈ part then [] else beforeNull cs := by
  induction part with
  | nil => rfl
  | cons c part ih =>
    rw [List.flatMap_cons, List.append_assoc]
    by_cases hc : c = '\x00'
    · subst hc
      simp [escape, beforeNull]
    · rw [beforeNull_escape hc, ih]
      simp [beforeNull, hc, Ne.symm hc]

theorem read?_escape (c : Char) (cs : List Char) :
    read? (escape c ++ cs) = (.letter c :: ·) <$> read? cs := by
  unfold escape
  split
  · simp [read?]
  · next h =>
    obtain ⟨hbackslash, hmany, hone⟩ : c ≠ '\\' ∧ c ≠ '%' ∧ c ≠ '_' := by simpa using h
    simp [read?, hbackslash, hmany, hone]

theorem read?_flatMap_escape (part cs : List Char) :
    read? (part.flatMap escape ++ cs) = (part.map .letter ++ ·) <$> read? cs := by
  induction part with
  | nil => simp
  | cons c part ih => simp [read?_escape, ih, Function.comp_def]

theorem someSuffix_iff {p : List Char → Bool} :
    someSuffix p cs = true ↔ ∃ rest, rest <:+ cs ∧ p rest = true := by
  induction cs with
  | nil => simp [someSuffix]
  | cons c cs ih => simp [someSuffix, ih, List.suffix_cons_iff, or_and_right, exists_or]

/-- Letters fit characters that are the same but for capitals. -/
theorem fits_letters_iff : fits (part.map .letter ++ marks) cs = true ↔
    ∃ found rest, cs = found ++ rest ∧ found.map Char.toLower = part.map Char.toLower ∧
      fits marks rest = true := by
  induction part generalizing cs with
  | nil =>
    constructor
    · intro h
      exact ⟨[], cs, rfl, rfl, h⟩
    · rintro ⟨found, rest, rfl, hfound, hrest⟩
      rwa [List.map_eq_nil_iff.1 hfound]
  | cons a part ih =>
    cases cs with
    | nil => simp [fits]
    | cons c cs =>
      simp only [List.map_cons, List.cons_append, fits, Bool.and_eq_true, beq_iff_eq, ih]
      constructor
      · rintro ⟨hletter, found, rest, rfl, hfound, hrest⟩
        exact ⟨c :: found, rest, rfl, by simp [hletter, hfound], hrest⟩
      · rintro ⟨found, rest, heq, hfound, hrest⟩
        cases found with
        | nil => simp at hfound
        | cons b found =>
          obtain ⟨rfl, rfl⟩ := List.cons.inj heq
          obtain ⟨hletter, hfound⟩ := List.cons.inj hfound
          exact ⟨hletter.symm, found, rest, rfl, hfound, hrest⟩

end Marks

end Pattern

def searchIn (part text : String) : Bool :=
  Pattern.matches? (Pattern.containing part.toList) text.toList

/-- What is read of the pattern for a part: the percent sign behind it unless a null character comes
before. -/
theorem Pattern.read?_containing (part : List Char) :
    read? (beforeNull (containing part)) = some (.anyMany :: ((beforeNull part).map .letter ++
      if '\x00' ∈ part then [] else [.anyMany])) := by
  have hfirst : beforeNull (containing part) =
      '%' :: beforeNull (part.flatMap escape ++ ['%']) := rfl
  have hlast : read? (if '\x00' ∈ part then [] else ['%']) =
      some (if '\x00' ∈ part then [] else [.anyMany]) := by
    split <;> rfl
  have hread (cs : List Char) : read? ('%' :: cs) = (.anyMany :: ·) <$> read? cs := by
    simp [read?]
  have hpercent : beforeNull ['%'] = ['%'] := rfl
  rw [hfirst, beforeNull_flatMap_escape, hpercent, hread, read?_flatMap_escape, hlast]
  rfl

section Search

open Pattern

variable {part text : String}

/-- A text is found in those in which it occurs, capitals or not, before any null character. -/
theorem searchIn_iff (h : '\x00' ∉ part.toList) : searchIn part text = true ↔
    ∃ found, found <:+: beforeNull text.toList ∧
      found.map Char.toLower = part.toList.map Char.toLower := by
  have hany (rest : List Char) : fits [.anyMany] rest = true :=
    someSuffix_iff.2 ⟨[], List.nil_suffix, rfl⟩
  rw [searchIn, matches?, read?_containing, if_neg h, beforeNull_eq_self h]
  show someSuffix _ _ = true ↔ _
  simp only [someSuffix_iff, fits_letters_iff, hany, and_true]
  constructor
  · rintro ⟨_, hsuffix, found, more, rfl, hfound⟩
    exact ⟨found, (List.prefix_append found more).isInfix.trans hsuffix.isInfix, hfound⟩
  · rintro ⟨found, ⟨before, more, htext⟩, hfound⟩
    refine ⟨found ++ more, ⟨before, ?_⟩, found, more, rfl, hfound⟩
    rw [← List.append_assoc, htext]

/-- Of a text with a null character what stands before it is found, at the end of others only. -/
theorem searchIn_iff_of_null (h : '\x00' ∈ part.toList) : searchIn part text = true ↔
    ∃ found, found <:+ beforeNull text.toList ∧
      found.map Char.toLower = (beforeNull part.toList).map Char.toLower := by
  rw [searchIn, matches?, read?_containing, if_pos h]
  show someSuffix _ _ = true ↔ _
  simp only [someSuffix_iff, fits_letters_iff]
  constructor
  · rintro ⟨_, hsuffix, found, more, rfl, hfound, hempty⟩
    obtain rfl := List.isEmpty_iff.1 hempty
    exact ⟨found, List.append_nil found ▸ hsuffix, hfound⟩
  · rintro ⟨found, hsuffix, hfound⟩
    exact ⟨found, hsuffix, found, [], (List.append_nil found).symm, hfound, rfl⟩

end Search

end RowFilter
