import RowFilter.Fault

/-!
Outcomes and what they log. An operation of the library ends in a value or in a fault, and has
logged records on the way; an outcome is both, so that what was logged before a fault is kept. A
sequence of operations logs what each of them logs, in order, up to the first fault.
-/

namespace RowFilter

inductive Level where
  | debug
  | info
  | warning
  deriving DecidableEq, Repr

/-- One line of the log. A record about an error of a filter has the error's key and status. -/
structure Record where
  level : Level
  message : String
  key : Option String := none
  status : Option Nat := none
  deriving DecidableEq, Repr

/-- The records of an operation, and the value or fault it ended in. -/
structure Outcome (α : Type) where
  log : List Record
  result : Except Fault α

namespace Outcome

variable {α β : Type}

def andThen (x : Outcome α) (f : α → Outcome β) : Outcome β :=
  match x.result with
  | .ok a => ⟨x.log ++ (f a).log, (f a).result⟩
  | .error e => ⟨x.log, .error e⟩

instance : Monad Outcome where
  pure a := ⟨[], .ok a⟩
  bind := andThen

def fail (e : Fault) : Outcome α :=
  ⟨[], .error e⟩

def reject (r : Rejection) : Outcome α :=
  fail (.rejected r)

def record (r : Record) : Outcome Unit :=
  ⟨[r], .ok ()⟩

def debug (message : String) : Outcome Unit :=
  record { level := .debug, message }

def ofExcept (x : Except Fault α) : Outcome α :=
  ⟨[], x⟩

def warnings (x : Outcome α) : List Record :=
  x.log.filter (·.level = .warning)

@[simp] theorem log_pure (a : α) : (pure a : Outcome α).log = [] := rfl

@[simp] theorem result_pure (a : α) : (pure a : Outcome α).result = .ok a := rfl

theorem bind_of_ok {x : Outcome α} {a : α} (h : x.result = .ok a) (f : α → Outcome β) :
    x >>= f = ⟨x.log ++ (f a).log, (f a).result⟩ := by
  change x.andThen f = _
  simp [andThen, h]

theorem bind_of_error {x : Outcome α} {e : Fault} (h : x.result = .error e) (f : α → Outcome β) :
    x >>= f = ⟨x.log, .error e⟩ := by
  change x.andThen f = _
  simp [andThen, h]

theorem result_bind (x : Outcome α) (f : α → Outcome β) :
    (x >>= f).result = x.result >>= fun a => (f a).result := by
  cases h : x.result with
  | ok a => rw [bind_of_ok h]; rfl
  | error e => rw [bind_of_error h]; rfl

theorem result_bind_eq_ok_iff {x : Outcome α} {f : α → Outcome β} {b : β} :
    (x >>= f).result = .ok b ↔ ∃ a, x.result = .ok a ∧ (f a).result = .ok b := by
  cases h : x.result with
  | ok a => simp [bind_of_ok h]
  | error e => simp [bind_of_error h]

theorem result_ofExcept (x : Except Fault α) : (ofExcept x).result = x := rfl

theorem andThen_pure (x : Outcome α) : x.andThen pure = x := by
  obtain ⟨log, result⟩ := x
  cases result <;> simp [andThen]

theorem pure_andThen (a : α) (f : α → Outcome β) : (pure a : Outcome α).andThen f = f a := rfl

theorem andThen_assoc {γ : Type} (x : Outcome α) (f : α → Outcome β) (g : β → Outcome γ) :
    (x.andThen f).andThen g = x.andThen fun a => (f a).andThen g := by
  obtain ⟨log, result⟩ := x
  cases result with
  | error e => rfl
  | ok a => cases h : (f a).result <;> simp [andThen, h]

instance : LawfulMonad Outcome :=
  LawfulMonad.mk' Outcome (fun x => andThen_pure x) (fun a f => pure_andThen a f)
    (fun x f g => andThen_assoc x f g)

end Outcome

end RowFilter
