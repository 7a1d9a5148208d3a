import Mathlib.Algebra.Group.Nat.Defs
import RowFilter.Parameters.Key

/-!
The grammar of bracketed keys. A name is taken apart exactly if it is a head without brackets and
one or more texts without brackets, each in brackets, with one newline behind them at most; so every
name comes from one key only. The texts in brackets decide the form of a key. An index is written in
decimal digits and read back, as long as a numeral may have that many.
-/

namespace RowFilter

def BracketFree (cs : List Char) : Prop :=
  ∀ c ∈ cs, isBracket c = false

instance (cs : List Char) : Decidable (BracketFree cs) :=
  decidable_of_iff (cs.all (!isBracket ·) = true) (by simp [BracketFree])

def bracketed (parts : List String) : List Char :=
  parts.flatMap fun part => '[' :: part.toList ++ [']']

theorem isBracket_eq_false_iff {c : Char} : isBracket c = false ↔ c ≠ '[' ∧ c ≠ ']' := by
  simp [isBracket]

theorem groups?_some_cons {c : Char} (hc : isBracket c = false) (read cs : List Char) :
    groups? (some read) (c :: cs) = groups? (some (c :: read)) cs := by
  obtain ⟨hopen, hclose⟩ := isBracket_eq_false_iff.1 hc
  simp [groups?]

theorem groups?_part {part : List Char} (hpart : BracketFree part) (read cs : List Char) :
    groups? (some read) (part ++ ']' :: cs) =
      (groups? none cs).map (.ofList (read.reverse ++ part) :: ·) := by
  induction part generalizing read with
  | nil => simp [groups?]
  | cons c part ih =>
      have hrest : BracketFree part := fun d hd => hpart d (List.mem_cons_of_mem c hd)
      rw [List.cons_append, groups?_some_cons (hpart c List.mem_cons_self), ih hrest]
      simp

theorem groups?_bracketed_append {parts : List String}
    (hparts : ∀ part ∈ parts, BracketFree part.toList) (cs : List Char) :
    groups? none (bracketed parts ++ cs) = (groups? none cs).map (parts ++ ·) := by
  induction parts with
  | nil => simp [bracketed]
  | cons part parts ih =>
      have hpart := hparts part List.mem_cons_self
      have hrest := ih fun p hp => hparts p (List.mem_cons_of_mem part hp)
      have hshape : bracketed (part :: parts) ++ cs =
          '[' :: (part.toList ++ ']' :: (bracketed parts ++ cs)) := by
        simp [bracketed]
      rw [hshape, groups?, groups?_part hpart, hrest, Option.map_map]
      congr 1
      funext found
      simp

/-- What is read since a bracket was opened ends at the next closing one, and what follows is read
on its own. -/
theorem exists_of_groups?_some {cs read : List Char} {found : List String}
    (h : groups? (some read) cs = some found) :
    ∃ part rest parts, BracketFree part ∧ cs = part ++ ']' :: rest ∧
      groups? none rest = some parts ∧ found = .ofList (read.reverse ++ part) :: parts := by
  induction cs generalizing read with
  | nil => simp [groups?] at h
  | cons c cs ih =>
      by_cases hclose : c = ']'
      · subst hclose
        rw [groups?, Option.map_eq_some_iff] at h
        obtain ⟨parts, hparts, rfl⟩ := h
        exact ⟨[], cs, parts, by simp [BracketFree], rfl, hparts, by simp⟩
      · by_cases hopen : c = '['
        · subst hopen
          simp [groups?] at h
        · have hc := isBracket_eq_false_iff.2 ⟨hopen, hclose⟩
          rw [groups?_some_cons hc] at h
          obtain ⟨part, rest, parts, hpart, rfl, hparts, rfl⟩ := ih h
          refine ⟨c :: part, rest, parts, ?_, rfl, hparts, by simp⟩
          intro d hd
          rcases List.mem_cons.1 hd with rfl | hd
          · exact hc
          · exact hpart d hd

/-- Outside of brackets nothing may stand but one final newline. -/
theorem eq_of_groups?_none_cons {c : Char} {cs : List Char} {parts : List String} (hc : c ≠ '[')
    (h : groups? none (c :: cs) = some parts) : parts = [] ∧ c :: cs = ['\n'] := by
  unfold groups? at h
  split at h <;> simp_all

theorem groups?_none_eq_some_iff {cs : List Char} {parts : List String} :
    groups? none cs = some parts ↔ (∀ part ∈ parts, BracketFree part.toList) ∧
      (cs = bracketed parts ∨ cs = bracketed parts ++ ['\n']) := by
  constructor
  · intro h
    -- what follows a closing bracket is shorter, but not the tail of what was read
    induction hn : cs.length using Nat.strongRecOn generalizing cs parts with
    | _ n ih =>
        cases cs with
        | nil =>
            obtain rfl : parts = [] := by simpa [groups?] using h.symm
            simp [bracketed]
        | cons c cs =>
            by_cases hc : c = '['
            · subst hc
              rw [groups?] at h
              obtain ⟨part, rest, parts, hpart, rfl, hrest, rfl⟩ := exists_of_groups?_some h
              obtain ⟨hfree, hshape⟩ := ih rest.length (by simp at hn; omega) hrest rfl
              refine ⟨?_, ?_⟩
              · intro p hp
                rcases List.mem_cons.1 hp with rfl | hp
                · simpa using hpart
                · exact hfree p hp
              · rcases hshape with rfl | rfl <;> simp [bracketed]
            · obtain ⟨rfl, hshape⟩ := eq_of_groups?_none_cons hc h
              simp [hshape, bracketed]
  · rintro ⟨hparts, rfl | rfl⟩
    · simpa [groups?] using groups?_bracketed_append hparts []
    · simpa [groups?] using groups?_bracketed_append hparts ['\n']

namespace BracketKey

/-- Whether a head and texts in brackets make a key: there is a head, there are texts, and none of
them holds a bracket. -/
structure IsWritable (key : BracketKey) : Prop where
  head_ne : key.head ≠ ""
  head_free : BracketFree key.head.toList
  parts_ne : key.parts ≠ []
  parts_free : ∀ part ∈ key.parts, BracketFree part.toList

theorem toList_write (key : BracketKey) :
    key.write.toList = key.head.toList ++ bracketed key.parts := by
  have hparts (parts : List String) :
      ("".intercalate (parts.map fun part => "[" ++ part ++ "]")).toList = bracketed parts := by
    induction parts with
    | nil => rfl
    | cons part parts ih =>
        cases parts with
        | nil => simp [bracketed]
        | cons next parts =>
            simp only [List.map_cons] at ih
            rw [List.map_cons, List.map_cons, String.intercalate_cons_of_ne_nil (by simp),
              String.toList_append, ih]
            simp [bracketed]
  rw [write, String.toList_append, hparts]

/-- The head of a name is what stands before its first bracket. -/
theorem span_head {head : List Char} (hhead : BracketFree head) (cs : List Char) :
    (head ++ '[' :: cs).takeWhile (!isBracket ·) = head ∧
      (head ++ '[' :: cs).dropWhile (!isBracket ·) = '[' :: cs := by
  have hall : ∀ c ∈ head, (!isBracket c) = true := fun c hc => by simp [hhead c hc]
  constructor
  · rw [List.takeWhile_append_of_pos hall]
    simp [isBracket]
  · rw [List.dropWhile_append_of_pos hall]
    simp [isBracket]

theorem read?_of_groups? {name : String} {key : BracketKey} (cs : List Char)
    (hkey : key.IsWritable) (hname : name.toList = key.head.toList ++ '[' :: cs)
    (hcs : groups? none ('[' :: cs) = some key.parts) : read? name = some key := by
  obtain ⟨htake, hdrop⟩ := span_head hkey.head_free cs
  obtain ⟨head, parts⟩ := key
  cases parts with
  | nil => exact absurd rfl hkey.parts_ne
  | cons part parts =>
      have hhead : head ≠ "" := hkey.head_ne
      simp [read?, hname, htake, hdrop, hcs, hhead]

/-- A name is taken apart into the key that writes it, one final newline apart. -/
theorem read?_eq_some_iff {name : String} {key : BracketKey} :
    read? name = some key ↔
      key.IsWritable ∧ (name = key.write ∨ name = key.write ++ "\n") := by
  constructor
  · intro h
    unfold read? at h
    split at h
    · next part parts hgroups =>
      obtain ⟨hparts, hshape⟩ := groups?_none_eq_some_iff.1 hgroups
      have hhead : BracketFree (name.toList.takeWhile (!isBracket ·)) := fun c hc => by
        simpa using List.all_eq_true.1 (List.all_takeWhile (p := (!isBracket ·))) c hc
      have hname := List.takeWhile_append_dropWhile (p := (!isBracket ·)) (l := name.toList)
      dsimp only at h
      split at h
      · simp at h
      · next hne =>
        obtain rfl := Option.some.inj h
        refine ⟨⟨by simpa using hne, by simpa using hhead, by simp, hparts⟩, ?_⟩
        rcases hshape with hshape | hshape <;> rw [hshape] at hname
        · left
          rw [← String.toList_inj, toList_write, String.toList_ofList, hname]
        · right
          rw [← String.toList_inj, String.toList_append, toList_write, String.toList_ofList,
            List.append_assoc]
          exact hname.symm
    · simp at h
  · rintro ⟨hkey, hname⟩
    obtain ⟨part, parts, hparts⟩ := List.exists_cons_of_ne_nil hkey.parts_ne
    have hopen (cs : List Char) : bracketed key.parts ++ cs =
        '[' :: (part.toList ++ ']' :: (bracketed parts ++ cs)) := by
      simp [hparts, bracketed]
    rcases hname with rfl | rfl
    · refine read?_of_groups? (part.toList ++ ']' :: (bracketed parts ++ [])) hkey ?_ ?_
      · rw [toList_write, ← hopen, List.append_nil]
      · rw [← hopen, List.append_nil]
        exact groups?_none_eq_some_iff.2 ⟨hkey.parts_free, .inl rfl⟩
    · refine read?_of_groups? (part.toList ++ ']' :: (bracketed parts ++ ['\n'])) hkey ?_ ?_
      · rw [String.toList_append, toList_write, ← hopen]
        simp
      · rw [← hopen]
        exact groups?_none_eq_some_iff.2 ⟨hkey.parts_free, .inr rfl⟩

theorem exists_of_read?_eq_some {name : String} {key : BracketKey} (h : read? name = some key) :
    ∃ cs, name.toList = key.head.toList ++ '[' :: cs := by
  obtain ⟨hkey, hname⟩ := read?_eq_some_iff.1 h
  obtain ⟨part, parts, hparts⟩ := List.exists_cons_of_ne_nil hkey.parts_ne
  rcases hname with rfl | rfl <;> simp [toList_write, hparts, bracketed]

theorem decimalValue?_of_isDigit {c : Char} (h : c.isDigit = true) :
    Text.decimalValue? c = some (c.toNat - '0'.toNat) := by
  have hbounds : 48 ≤ c.toNat ∧ c.toNat < 58 := by
    simp only [Char.isDigit, Bool.and_eq_true, decide_eq_true_eq, ge_iff_le] at h
    have hlow : (48 : UInt32).toNat ≤ c.val.toNat := UInt32.le_iff_toNat_le.1 h.1
    have hhigh : c.val.toNat ≤ (57 : UInt32).toNat := UInt32.le_iff_toNat_le.1 h.2
    exact ⟨hlow, Nat.lt_succ_of_le hhigh⟩
  rw [Text.decimalValue?, Text.zeroDigits, List.find?_cons_of_pos (by simpa using hbounds)]
  rfl

theorem isIndex_iff {s : String} :
    isIndex s = true ↔ s ≠ "" ∧ ∀ c ∈ s.toList, Text.isDigit c = true := by
  simp [isIndex]

theorem bracketFree_of_isIndex {s : String} (h : isIndex s = true) : BracketFree s.toList := by
  intro c hc
  have hdigit := (isIndex_iff.1 h).2 c hc
  have hbrackets : Text.isDigit '[' = false ∧ Text.isDigit ']' = false := by decide +kernel
  refine isBracket_eq_false_iff.2 ⟨?_, ?_⟩
  · rintro rfl
    simp [hbrackets] at hdigit
  · rintro rfl
    simp [hbrackets] at hdigit

theorem isIndex_repr (n : Nat) : isIndex n.repr = true := by
  have hdigits : n.repr.toList.all Text.isDigit = true := by
    rw [List.all_eq_true]
    intro c hc
    rw [Nat.toList_repr] at hc
    have hdigit := Nat.isDigit_of_mem_toDigits (by decide) (by decide) hc
    exact Text.isDigit_of_decimalValue?_eq_some (decimalValue?_of_isDigit hdigit)
  rw [isIndex, hdigits]
  simp

/-- The parts of a key behind its name that make up each form. -/
theorem formOf?_eq_some_iff {parts : List String} {form : Form} :
    formOf? parts = some form ↔ match form with
      | .value => parts = []
      | .entry sub => parts = [sub] ∧ sub ≠ ""
      | .indexed digits sub => parts = [digits, sub] ∧ isIndex digits = true ∧ sub ≠ "" := by
  constructor
  · intro h
    unfold formOf? at h
    split at h
    · cases h
      rfl
    · split at h
      · next hsub =>
        cases h
        exact ⟨rfl, hsub⟩
      · cases h
    · split at h
      · next hform =>
        cases h
        simpa using hform
      · cases h
    · cases h
  · cases form with
    | value =>
        rintro rfl
        rfl
    | entry sub =>
        rintro ⟨rfl, hsub⟩
        simp [formOf?, hsub]
    | indexed digits sub =>
        rintro ⟨rfl, hindex, hsub⟩
        simp [formOf?, hindex, hsub]

/-- Decimal digits are read as the number that they write, as long as there are not too many. -/
theorem readIndex_of_map {digits : String} {values : List Nat}
    (h : digits.toList.map Text.decimalValue? = values.map some) :
    readIndex digits = if Text.maxDigits < values.length then .error (.longIndex values.length)
      else .ok (Text.ofDigits values) := by
  have hleading (values : List Nat) :
      (((values.map some).takeWhile (·.isSome)).filterMap id) = values := by
    induction values with
    | nil => rfl
    | cons value values ih => simpa using ih
  simp only [readIndex, h, hleading, List.length_map, if_true]

theorem readIndex_repr {n : Nat} (h : n < 10 ^ Text.maxDigits) : readIndex n.repr = .ok n := by
  have hvalues : (n.repr.toList.map Text.decimalValue?) =
      ((Nat.toDigits 10 n).map fun c => c.toNat - '0'.toNat).map some := by
    rw [Nat.toList_repr, List.map_map]
    refine List.map_congr_left fun c hc => ?_
    exact decimalValue?_of_isDigit (Nat.isDigit_of_mem_toDigits (by decide) (by decide) hc)
  have hlength : (Nat.toDigits 10 n).length ≤ Text.maxDigits :=
    (Nat.length_toDigits_le_iff (by decide) (by decide)).2 h
  have hnumber : Text.ofDigits ((Nat.toDigits 10 n).map fun c => c.toNat - '0'.toNat) = n := by
    rw [Text.ofDigits, List.foldl_map]
    exact Nat.ofDigitChars_ten_toDigits
  rw [readIndex_of_map hvalues, List.length_map, if_neg (Nat.not_lt.2 hlength), hnumber]

end BracketKey

end RowFilter
