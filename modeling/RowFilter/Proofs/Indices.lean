import Mathlib.Data.List.TakeWhile
import RowFilter.Proofs.Coherence
import RowFilter.Proofs.RoundTrip
import RowFilter.Response.Basic

/-!
Indices that cannot be read. A key may set an entry at an index, which has to consist of characters
that stand for a digit; but only decimal digits make a numeral, and only so many of them. This is
the one thing that reading parameters can fail for: what else is not understood is passed over, with
a record if it has the wanted head. The first index that is no numeral decides the fault.
-/

namespace RowFilter

namespace BracketKey

/-- Whether an index is written in decimal digits, and not in too many of them. -/
structure IsNumeral (digits : String) : Prop where
  decimal : ∀ c ∈ digits.toList, (Text.decimalValue? c).isSome = true
  short : digits.toList.length ≤ Text.maxDigits

def leadingCount (digits : String) : Nat :=
  (digits.toList.takeWhile fun c => (Text.decimalValue? c).isSome).length

def indexFault (digits : String) : Fault :=
  if Text.maxDigits < leadingCount digits then .longIndex (leadingCount digits)
  else .badIndex digits

theorem indexFault_ne (digits : String) (r : Rejection) : indexFault digits ≠ .rejected r := by
  unfold indexFault
  split <;> simp

theorem isNumeral_iff (digits : String) : IsNumeral digits ↔
    leadingCount digits = digits.toList.length ∧ leadingCount digits ≤ Text.maxDigits := by
  have hall : leadingCount digits = digits.toList.length ↔
      ∀ c ∈ digits.toList, (Text.decimalValue? c).isSome = true := by
    rw [leadingCount, ← List.takeWhile_eq_self_iff]
    exact ⟨List.takeWhile_sublist _ |>.eq_of_length, congrArg List.length⟩
  constructor
  · rintro ⟨hdecimal, hshort⟩
    have hlength := hall.2 hdecimal
    exact ⟨hlength, hlength ▸ hshort⟩
  · rintro ⟨hlength, hshort⟩
    exact ⟨hall.1 hlength, hlength ▸ hshort⟩

instance (digits : String) : Decidable (IsNumeral digits) :=
  decidable_of_iff _ (isNumeral_iff digits).symm

theorem length_leading (cs : List Char) :
    (((cs.map Text.decimalValue?).takeWhile (·.isSome)).filterMap id).length =
      (cs.takeWhile fun c => (Text.decimalValue? c).isSome).length := by
  induction cs with
  | nil => rfl
  | cons c cs ih =>
      cases h : Text.decimalValue? c with
      | none => simp [h]
      | some n => simpa [h] using ih

theorem readIndex_eq (digits : String) : (∃ n, readIndex digits = .ok n) ∧ IsNumeral digits ∨
    readIndex digits = .error (indexFault digits) ∧ ¬ IsNumeral digits := by
  have hcount := length_leading digits.toList
  rw [← leadingCount] at hcount
  rw [isNumeral_iff]
  simp only [readIndex, hcount, List.length_map]
  by_cases hlong : Text.maxDigits < leadingCount digits
  · refine .inr ⟨?_, fun h => absurd hlong (Nat.not_lt.2 h.2)⟩
    rw [if_pos hlong, indexFault, if_pos hlong]
  · rw [if_neg hlong]
    by_cases hall : leadingCount digits = digits.toList.length
    · exact .inl ⟨⟨_, if_pos hall⟩, hall, Nat.not_lt.1 hlong⟩
    · refine .inr ⟨?_, fun h => hall h.1⟩
      rw [if_neg hall, indexFault, if_neg hlong]

end BracketKey

/-- A fault that is no error of a filter is left to whoever asked. -/
theorem Response.result_reportingErrors_of_ne {x : Outcome Response} {fault : Fault}
    (h : x.result = .error fault) (hne : ∀ r, fault ≠ .rejected r) (path : String) :
    (reportingErrors path x).result = .error fault := by
  unfold reportingErrors
  split
  · next r hr =>
    rw [h] at hr
    exact absurd (Except.error.inj hr) (hne r)
  · exact h

namespace Parameters

open BracketKey

variable {settings : Settings} {param : Option String} {head raw : Value} {c : Collected}
  {rawKey digits : String} {parameters more : Mapping Value} {as : List Assignment} {fault : Fault}

/-- Whether a parameter sets an entry at an index of characters that stand for digits, but do not
make a numeral. -/
structure IsMisnumbered (head : Value) (rawKey digits : String) : Prop where
  written : ∃ text name sub, head.asText? = some text ∧ Plain text ∧ Plain name ∧ Plain sub ∧
    (rawKey = write ⟨text, [name, digits, sub]⟩ ∨
      rawKey = write ⟨text, [name, digits, sub]⟩ ++ "\n")
  index : isIndex digits = true
  not_numeral : ¬ IsNumeral digits

/-- Whether a parameter has the wanted head and a name, but none of the forms that keys have. -/
def isUnsupported (head : Value) (rawKey : String) : Bool :=
  match read? rawKey with
  | some ⟨text, name :: rest⟩ =>
    head.asText? = some text && name ≠ "" && (formOf? rest).isNone
  | _ => false

def unsupportedRecord (rawKey : String) : Record :=
  { level := .debug
    message := "Ignoring unsupported filter parameter " ++ Text.quoted rawKey }

namespace Assignment

theorem read?_eq_error_iff : Assignment.read? head rawKey raw = .error fault ↔
    ∃ digits, IsMisnumbered head rawKey digits ∧ fault = indexFault digits := by
  constructor
  · intro h
    unfold Assignment.read? at h
    split at h
    · next text name rest hkey =>
      split_ifs at h with hskip
      split at h
      · cases h
      · cases h
      · next digits sub hform =>
        obtain ⟨rfl, hindex, hsub⟩ := formOf?_eq_some_iff.1 hform
        rcases readIndex_eq digits with ⟨⟨n, hn⟩, _⟩ | ⟨hfault, hnumeral⟩
        · rw [hn] at h
          cases h
        · rw [hfault] at h
          obtain ⟨hkey, hname⟩ := read?_eq_some_iff.1 hkey
          push Not at hskip
          refine ⟨digits, ⟨⟨text, name, sub, hskip.1, ⟨hkey.head_ne, hkey.head_free⟩,
            ⟨hskip.2, hkey.parts_free _ (by simp)⟩, ⟨hsub, hkey.parts_free _ (by simp)⟩, hname⟩,
            hindex, hnumeral⟩, ?_⟩
          cases h
          rfl
      · cases h
    · cases h
  · rintro ⟨digits, ⟨⟨text, name, sub, hhead, htext, hname, hsub, hwritten⟩, hindex, hnumeral⟩, rfl⟩
    have hparts : ∀ part ∈ [name, digits, sub], BracketFree part.toList := by
      simp [hname.free, hsub.free, bracketFree_of_isIndex hindex]
    have hkey : BracketKey.read? rawKey = some ⟨text, [name, digits, sub]⟩ :=
      read?_eq_some_iff.2 ⟨⟨htext.ne, htext.free, by simp, hparts⟩, hwritten⟩
    have hform : formOf? [digits, sub] = some (.indexed digits sub) :=
      formOf?_eq_some_iff.2 ⟨rfl, hindex, hsub.ne⟩
    have hfault : readIndex digits = .error (indexFault digits) := by
      rcases readIndex_eq digits with ⟨_, h⟩ | ⟨hfault, _⟩
      · exact absurd h hnumeral
      · exact hfault
    simp [Assignment.read?, hkey, hhead, hname.ne, hform, hfault, Except.map]

theorem read?_of_isUnsupported (h : isUnsupported head rawKey = true) (raw : Value) :
    Assignment.read? head rawKey raw = .ok none := by
  unfold isUnsupported at h
  split at h
  · next hkey =>
    simp only [Bool.and_eq_true, decide_eq_true_eq, Option.isNone_iff_eq_none] at h
    obtain ⟨⟨hhead, hname⟩, hform⟩ := h
    rw [Assignment.read?, hkey]
    simp [hhead, hname, hform]
  · cases h

theorem readAll_append : readAll head (parameters ++ more) =
    (readAll head parameters).bind fun as => (readAll head more).map fun bs => as ++ bs := by
  induction parameters with
  | nil => cases h : readAll head more <;> simp [readAll, h, Except.bind, Except.map]
  | cons p rest ih =>
      rw [List.cons_append, readAll, readAll, ih]
      cases Assignment.read? head p.1 p.2 with
      | error fault => rfl
      | ok first =>
          cases readAll head rest with
          | error fault => rfl
          | ok as => cases readAll head more <;> simp [Except.bind, Except.map]

theorem readAll_filter {keep : String × Value → Bool}
    (h : ∀ p, keep p = false → Assignment.read? head p.1 p.2 = .ok none) :
    readAll head (parameters.filter keep) = readAll head parameters := by
  induction parameters with
  | nil => rfl
  | cons p rest ih =>
      cases hkeep : keep p with
      | true => rw [List.filter_cons_of_pos hkeep, readAll, readAll, ih]
      | false =>
          rw [List.filter_cons_of_neg (by simp [hkeep]), readAll, h p hkeep, ih]
          cases readAll head rest <;> rfl

/-- Parameters can be read exactly if none of them is misnumbered. -/
theorem exists_readAll_iff : (∃ as, readAll head parameters = .ok as) ↔
    ∀ p ∈ parameters, ∀ digits, ¬ IsMisnumbered head p.1 digits := by
  induction parameters with
  | nil => simp [readAll]
  | cons p rest ih =>
      simp only [List.forall_mem_cons, ← ih, readAll_cons_eq_ok_iff]
      cases hread : Assignment.read? head p.1 p.2 with
      | error fault =>
          obtain ⟨digits, hdigits, _⟩ := read?_eq_error_iff.1 hread
          refine iff_of_false ?_ fun h => h.1 digits hdigits
          rintro ⟨_, _, _, hfirst, _⟩
          cases hfirst
      | ok first =>
          have hp (digits : String) : ¬ IsMisnumbered head p.1 digits := fun hdigits => by
            rw [read?_eq_error_iff.2 ⟨digits, hdigits, rfl⟩] at hread
            cases hread
          cases readAll head rest <;> simp [hp]

/-- Of several misnumbered parameters the first decides. -/
theorem readAll_of_first {p : String × Value}
    (h : ∀ b ∈ parameters, ∀ digits, ¬ IsMisnumbered head b.1 digits)
    (hp : IsMisnumbered head p.1 digits) :
    readAll head (parameters ++ p :: more) = .error (indexFault digits) := by
  obtain ⟨as, has⟩ := exists_readAll_iff.2 h
  have hfault : Assignment.read? head p.1 p.2 = .error (indexFault digits) :=
    read?_eq_error_iff.2 ⟨digits, hp, rfl⟩
  rw [readAll_append, has, readAll, hfault]
  rfl

theorem exists_of_readAll_eq_error (h : readAll head parameters = .error fault) :
    ∃ digits, fault = indexFault digits := by
  induction parameters with
  | nil => cases h
  | cons p rest ih =>
      rw [readAll] at h
      cases hread : Assignment.read? head p.1 p.2 with
      | error first =>
          rw [hread] at h
          obtain ⟨digits, _, rfl⟩ := read?_eq_error_iff.1 hread
          cases h
          exact ⟨digits, rfl⟩
      | ok first =>
          rw [hread] at h
          cases hrest : readAll head rest with
          | error later =>
              rw [hrest] at h
              cases h
              exact ih hrest
          | ok as =>
              rw [hrest] at h
              cases h

end Assignment

theorem log_readOne (head : Value) (c : Collected) (rawKey : String) (raw : Value) :
    (readOne head c rawKey raw).log =
      if isUnsupported head rawKey then [unsupportedRecord rawKey] else [] := by
  cases hkey : read? rawKey with
  | none => simp [readOne, isUnsupported, hkey]
  | some key =>
      obtain ⟨text, _ | ⟨name, rest⟩⟩ := key
      · simp [readOne, isUnsupported, hkey]
      · simp only [readOne, isUnsupported, hkey]
        by_cases hskip : head.asText? ≠ some text ∨ name = ""
        · have hforeign : (decide (head.asText? = some text) && decide (name ≠ "")) = false := by
            rw [Bool.and_eq_false_iff, decide_eq_false_iff_not, decide_eq_false_iff_not, not_not]
            exact hskip
          rw [if_pos hskip, hforeign]
          rfl
        · rw [if_neg hskip]
          push Not at hskip
          cases formOf? rest with
          | none =>
              rw [if_pos (by simp [hskip])]
              rfl
          | some form =>
              rw [Option.isNone_some, Bool.and_false]
              cases form with
              | value => rfl
              | entry sub => rfl
              | indexed digits sub =>
                  dsimp only
                  cases readIndex digits <;> rfl

/-- Reading parameters logs those that have no known form, in order. -/
theorem log_collect (c : Collected) (h : Assignment.readAll head parameters = .ok as) :
    (collect head c parameters).log =
      (parameters.filter fun p => isUnsupported head p.1).map fun p => unsupportedRecord p.1 := by
  induction parameters generalizing c as with
  | nil => rfl
  | cons p rest ih =>
      obtain ⟨key, raw⟩ := p
      obtain ⟨first, more, hread, hrest, _⟩ := Assignment.readAll_cons_eq_ok_iff.1 h
      have hone := result_readOne head c key raw
      rw [hread] at hone
      rw [collect, Outcome.bind_of_ok hone]
      show (readOne head c key raw).log ++ (collect head _ rest).log = _
      rw [log_readOne, ih _ hrest]
      cases hkey : isUnsupported head key <;> simp [hkey]

theorem exists_of_result_filters_eq_error
    (h : (filters settings parameters param).result = .error fault) :
    ∃ digits, fault = indexFault digits := by
  rw [result_filters_eq] at h
  cases hread : Assignment.readAll (headOf settings param) parameters with
  | error first =>
      rw [hread] at h
      cases h
      exact Assignment.exists_of_readAll_eq_error hread
  | ok as =>
      rw [hread] at h
      cases h

/-- Reading parameters yields a mapping unless one of them is misnumbered. Those of the wanted head
that have no known form are logged and make no difference. The first one that is misnumbered
decides the fault, which is no error of a filter and so gets past a resource that is asked. -/
theorem result_filters_total (settings : Settings) (parameters : Mapping Value)
    (param : Option String) :
    ((∀ p ∈ parameters, ∀ digits, ¬ IsMisnumbered (headOf settings param) p.1 digits) →
      ∃ incoming, (filters settings parameters param).result = .ok incoming ∧
        (filters settings parameters param).log =
          (parameters.filter fun p => isUnsupported (headOf settings param) p.1).map fun p =>
            unsupportedRecord p.1) ∧
    (filters settings
        (parameters.filter fun p => !isUnsupported (headOf settings param) p.1) param).result =
      (filters settings parameters param).result ∧
    (∀ before p after digits, parameters = before ++ p :: after →
      (∀ b ∈ before, ∀ digits, ¬ IsMisnumbered (headOf settings param) b.1 digits) →
        IsMisnumbered (headOf settings param) p.1 digits →
          (filters settings parameters param).result = .error (indexFault digits)) ∧
    ∀ fault, (filters settings parameters none).result = .error fault →
      ∀ schema registry db m path,
        (Response.answer schema settings registry db m path parameters).result = .error fault := by
  simp only [result_filters_eq]
  refine ⟨fun h => ?_, ?_, ?_, fun fault h schema registry db m path => ?_⟩
  · obtain ⟨as, has⟩ := Assignment.exists_readAll_iff.2 h
    have hcollect := result_collect (headOf settings param) {} parameters
    rw [has] at hcollect
    refine ⟨_, by rw [has]; rfl, ?_⟩
    rw [filters_eq]
    show (collect (headOf settings param) {} parameters >>= _).log = _
    rw [Outcome.bind_of_ok hcollect, log_collect {} has]
    exact List.append_nil _
  · rw [Assignment.readAll_filter]
    intro p hp
    exact Assignment.read?_of_isUnsupported (by simpa using hp) p.2
  · rintro before p after digits rfl hbefore hp
    rw [Assignment.readAll_of_first hbefore hp]
    rfl
  · have hfault : (filters settings parameters none).result = .error fault := by
      rw [result_filters_eq, h]
    obtain ⟨digits, rfl⟩ := exists_of_result_filters_eq_error hfault
    rw [Response.answer, Outcome.bind_of_error hfault]
    exact Response.result_reportingErrors_of_ne rfl (indexFault_ne digits) path

def untidy : Mapping Value :=
  [("page", .text "2"), ("filter[tags][first][operator]", .text "in"),
    ("filter[tags][1][operator]", .text "null")]

def superscript : String × Value :=
  ("filter[tags][²][operator]", .text "in")

theorem result_filters_total_untidy :
    (∃ incoming, (filters (.ofProject .null) untidy none).result = .ok incoming ∧
      (filters (.ofProject .null) untidy none).log =
        [unsupportedRecord "filter[tags][first][operator]"]) ∧
    (filters (.ofProject .null) (untidy ++ [superscript]) none).result =
      .error (.badIndex "²") := by
  have htidy : ∀ p ∈ untidy, ∀ digits,
      ¬ IsMisnumbered (headOf (.ofProject .null) none) p.1 digits :=
    Assignment.exists_readAll_iff.1 ⟨_, rfl⟩
  have hsuperscript : IsMisnumbered (headOf (.ofProject .null) none) superscript.1 "²" :=
    ⟨⟨"filter", "tags", "operator", rfl, by decide, by decide, by decide, .inl (by decide)⟩,
      by decide, by decide⟩
  obtain ⟨hread, _, _, _⟩ := result_filters_total (.ofProject .null) untidy none
  obtain ⟨_, _, hfails, _⟩ :=
    result_filters_total (.ofProject .null) (untidy ++ [superscript]) none
  exact ⟨hread htidy, hfails untidy superscript [] "²" rfl htidy hsuperscript⟩

/-- A query with a superscript for an index is not read, and a resource that is asked with it does
not answer. -/
theorem result_filters_superscript :
    (filters (.ofProject .null) (ofQuery "filter[tags][%C2%B2][operator]=in") none).result =
        .error (.badIndex "²") ∧
      (Response.answer Blog.schema (.ofProject .null) .empty Blog.shelf Blog.post "/posts/"
        (ofQuery "filter[tags][%C2%B2][operator]=in")).result = .error (.badIndex "²") :=
  ⟨rfl, rfl⟩

end Parameters

end RowFilter
