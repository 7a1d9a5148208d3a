import RowFilter.Form.Pair
import RowFilter.Proofs.Mappings

/-!
Forms filled in again. A value that was made of two inputs is shown in two inputs again, and these
make the same value. What carries this is that the texts of the inputs are all that the value holds.
But whether both inputs are blank is asked of the inputs themselves, before anything else: inputs
that are not blank and have no letter of text make a value that is shown by blank inputs, and these
do not make it again.
-/

namespace RowFilter

namespace FormPair

variable {required : Bool} {v operator operand x : Value} {s t : String}

/-! ### What two inputs make -/

def IsRead (v : Value) (s : String) : Prop :=
  inputText v = .ok s ∧ '\x00' ∉ s.toList

/-- The input that shows a text; an empty one is not shown. -/
def shown (s : String) : Value :=
  if s = "" then .null else .text s

theorem isBlank_text_iff : isBlank (.text s) = true ↔ s = "" := by
  constructor
  · intro h
    unfold isBlank at h
    split at h <;> simp_all
  · rintro rfl
    rfl

theorem inputText_text (s : String) : inputText (.text s) = .ok s := by
  unfold inputText
  split
  · next h => rw [isBlank_text_iff.1 h]
  · rfl

theorem isBlank_shown_iff : isBlank (shown s) = true ↔ s = "" := by
  unfold shown
  split
  · next h => exact iff_of_true rfl h
  · exact isBlank_text_iff

theorem isRead_shown (h : '\x00' ∉ s.toList) : IsRead (shown s) s := by
  refine ⟨?_, h⟩
  rw [shown]
  split
  · next hempty => exact hempty ▸ rfl
  · exact inputText_text s

theorem checkText_eq (s : String) :
    checkText s = if '\x00' ∈ s.toList then .error .nullCharacters else .ok s := by
  simp [checkText]

theorem cleanPair_eq_ok_iff : cleanPair operator operand = .ok x ↔
    ∃ s t, IsRead operator s ∧ IsRead operand t ∧ pair (.text s) (.text t) = x := by
  unfold cleanPair IsRead
  cases inputText operator with
  | error fault => simp [bind, Except.bind]
  | ok s =>
      cases inputText operand with
      | error fault => simp [bind, Except.bind]
      | ok t =>
          have hcompress : compress (.list [.text s, .text t]) =
              .ok (pair (.text s) (.text t)) := rfl
          by_cases hs : '\x00' ∈ s.toList <;> by_cases ht : '\x00' ∈ t.toList <;>
            simp [bind, Except.bind, checkText_eq, hs, ht, hcompress]

theorem clean_of_item (h : (isBlank operator && isBlank operand) = false) :
    clean required (.list [operator, operand]) = cleanPair operator operand := by
  simp only [clean, Value.truthy, List.all_cons, List.all_nil, Bool.and_true, h]
  rfl

theorem clean_of_blank_items (h : (isBlank operator && isBlank operand) = true) :
    clean required (.list [operator, operand]) =
      if required then .error (.form [.required]) else .ok .null := by
  simp only [clean, Value.truthy, List.all_cons, List.all_nil, Bool.and_true, h]
  rfl

theorem decompress_pair (s t : String) :
    decompress (pair (.text s) (.text t)) = (shown s, shown t) := by
  by_cases hs : s = "" <;> by_cases ht : t = "" <;>
    simp [pair, shown, decompress, Value.truthy, Mapping.find?, hs, ht]

/-- The pair of two texts is made again by what shows it, if a text is shown at all. -/
theorem clean_shown_eq_ok_iff (hs : '\x00' ∉ s.toList) (ht : '\x00' ∉ t.toList) :
    clean required (.list [shown s, shown t]) = .ok (pair (.text s) (.text t)) ↔
      ¬ (s = "" ∧ t = "") := by
  cases h : isBlank (shown s) && isBlank (shown t) with
  | true =>
      have hempty := Bool.and_eq_true_iff.1 h
      rw [isBlank_shown_iff, isBlank_shown_iff] at hempty
      rw [clean_of_blank_items h]
      refine iff_of_false ?_ (not_not_intro hempty)
      cases required <;> simp [pair]
  | false =>
      rw [clean_of_item h, cleanPair_eq_ok_iff]
      refine iff_of_true ⟨s, t, isRead_shown hs, isRead_shown ht, rfl⟩ fun hempty => ?_
      rw [isBlank_shown_iff.2 hempty.1, isBlank_shown_iff.2 hempty.2] at h
      cases h

/-- The value that two inputs make, of whatever kind these are, is shown by their texts: a text that
is not empty is neither lost nor trimmed. What shows it makes the value again, unless neither input
has a text and yet not both were blank. -/
theorem clean_decompress (h : clean required (.list [operator, operand]) = .ok x) :
    ∃ s t, inputText operator = .ok s ∧ inputText operand = .ok t ∧
      decompress x = (shown s, shown t) ∧
      (clean required (.list [(decompress x).1, (decompress x).2]) = .ok x ↔
        (s = "" → t = "" → isBlank operator = true ∧ isBlank operand = true)) ∧
      (∀ text, operator = .text text → s = text) ∧ ∀ text, operand = .text text → t = text := by
  have hsame {v : Value} {s text : String} (hv : inputText v = .ok s) (htext : v = .text text) :
      s = text := by
    rw [htext, inputText_text] at hv
    exact (Except.ok.inj hv).symm
  cases hblank : isBlank operator && isBlank operand with
  | true =>
      obtain ⟨hoperator, hoperand⟩ := Bool.and_eq_true_iff.1 hblank
      have hs : inputText operator = .ok "" := if_pos hoperator
      have ht : inputText operand = .ok "" := if_pos hoperand
      rw [clean_of_blank_items hblank] at h
      cases required with
      | true => cases h
      | false =>
          obtain rfl := Except.ok.inj h
          exact ⟨"", "", hs, ht, rfl, iff_of_true rfl fun _ _ => ⟨hoperator, hoperand⟩,
            fun text => hsame hs, fun text => hsame ht⟩
  | false =>
      rw [clean_of_item hblank] at h
      obtain ⟨s, t, ⟨hs, hfree⟩, ⟨ht, hfree'⟩, rfl⟩ := cleanPair_eq_ok_iff.1 h
      refine ⟨s, t, hs, ht, decompress_pair s t, ?_, fun text => hsame hs, fun text => hsame ht⟩
      rw [decompress_pair, clean_shown_eq_ok_iff hfree hfree', not_and]
      refine forall₂_congr fun _ _ => iff_of_false id ?_
      rintro ⟨hoperator, hoperand⟩
      rw [hoperator, hoperand] at hblank
      cases hblank

/-- A number and a blank are shown as texts, and what is shown makes the same value. -/
theorem clean_decompress_blank :
    clean true (.list [.int 0, .text " "]) =
        .ok (.mapping [("value", .text " "), ("operator", .text "0")]) ∧
      clean true (.list [.text "0", .text " "]) =
        .ok (.mapping [("value", .text " "), ("operator", .text "0")]) := by
  have hclean : clean true (.list [.int 0, .text " "]) =
      .ok (.mapping [("value", .text " "), ("operator", .text "0")]) := by rfl
  obtain ⟨s, t, hs, _, _, hagain, _⟩ := clean_decompress hclean
  refine ⟨hclean, hagain.2 fun hempty => ?_⟩
  have hzero : inputText (.int 0) = .ok "0" := by rfl
  obtain rfl := Except.ok.inj (hzero.symm.trans hs)
  exact absurd hempty (by decide)

/-- An input of a kind of its own, without any text. -/
def unlabelled : Value :=
  .object { shape := "Exception", truthy := true, text := "", shown := "Exception()" }

/-- What an input without any text makes is not made again. -/
theorem clean_decompress_unlabelled :
    clean false (.list [unlabelled, .text ""]) = .ok (.mapping [("value", .null)]) ∧
      decompress (.mapping [("value", .null)]) = (.null, .null) ∧
      clean false (.list [.null, .null]) = .ok .null := by
  exact ⟨by rfl, by rfl, by rfl⟩

end FormPair

end RowFilter
