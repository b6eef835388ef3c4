-- SUMMARY: Runs that record events and end with a value or an error.
import EpcTag.Event

/-!
# Traced runs

A traced run has an outcome, a value or an error, and the list of the events
recorded until then. Runs are put in sequence by `bind`: a run that fails ends
the sequence, and what it recorded before stays recorded.
-/

namespace EpcTag

theorem bind_eq_bind {ε α β : Type} (first : Except ε α) (next : α → Except ε β) :
    first.bind next = first >>= next := rfl

theorem ok_eq_pure {ε α : Type} (value : α) : (Except.ok value : Except ε α) = pure value := rfl

@[simp] theorem ok_bind {ε α β : Type} (value : α) (next : α → Except ε β) :
    Except.ok value >>= next = next value := rfl

@[simp] theorem error_bind {ε α β : Type} (error : ε) (next : α → Except ε β) :
    Except.error error >>= next = .error error := rfl

/-- A calculation in two steps has a result if both steps have one. -/
theorem bind_eq_ok_iff {ε α β : Type} {first : Except ε α} {next : α → Except ε β} {result : β} :
    first.bind next = .ok result ↔ ∃ value, first = .ok value ∧ next value = .ok result := by
  cases first <;> simp [Except.bind]

/-- A calculation in two steps fails in the first step or in the second. -/
theorem bind_eq_error_iff {ε α β : Type} {first : Except ε α} {next : α → Except ε β} {error : ε} :
    first.bind next = .error error ↔
      first = .error error ∨ ∃ value, first = .ok value ∧ next value = .error error := by
  cases first <;> simp [Except.bind]

theorem eq_ok_of_toOption {ε α : Type} {outcome : Except ε α} {result : α}
    (h : outcome.toOption = some result) : outcome = .ok result := by
  cases outcome with
  | error error => cases h
  | ok value => exact congrArg Except.ok (Option.some.inj h)

structure Traced (α : Type) where
  outcome : Except Error α
  events : List Event

namespace Traced

variable {α β γ : Type}

@[ext] protected theorem ext {x y : Traced α} (h : x.outcome = y.outcome)
    (h' : x.events = y.events) : x = y := by
  cases x; cases y; simp_all

/-- The run that records nothing and ends with `value`. -/
protected def pure (value : α) : Traced α := ⟨.ok value, []⟩

/-- The run that records nothing and fails. -/
def fail (error : Error) : Traced α := ⟨.error error, []⟩

/-- The run that records one event. -/
def record (event : Event) : Traced Unit := ⟨.ok (), [event]⟩

/-- A calculation without events, as a run. -/
def ofExcept (outcome : Except Error α) : Traced α := ⟨outcome, []⟩

/-- One run after the other. -/
protected def bind (first : Traced α) (next : α → Traced β) : Traced β :=
  match first.outcome with
  | .error error => ⟨.error error, first.events⟩
  | .ok value => ⟨(next value).outcome, first.events ++ (next value).events⟩

instance : Monad Traced where
  pure := Traced.pure
  bind := Traced.bind

instance : MonadLift (Except Error) Traced := ⟨ofExcept⟩

/-! ## Laws -/

@[simp] theorem pure_outcome (value : α) : (pure value : Traced α).outcome = .ok value := rfl

@[simp] theorem pure_events (value : α) : (pure value : Traced α).events = [] := rfl

@[simp] theorem ofExcept_outcome (outcome : Except Error α) :
    (ofExcept outcome).outcome = outcome := rfl

@[simp] theorem ofExcept_events (outcome : Except Error α) : (ofExcept outcome).events = [] := rfl

@[simp] theorem liftM_outcome (outcome : Except Error α) :
    (liftM outcome : Traced α).outcome = outcome := rfl

@[simp] theorem record_outcome (event : Event) : (record event).outcome = .ok () := rfl

@[simp] theorem record_events (event : Event) : (record event).events = [event] := rfl

@[simp] theorem fail_outcome (error : Error) : (fail error : Traced α).outcome = .error error := rfl

@[simp] theorem fail_events (error : Error) : (fail error : Traced α).events = [] := rfl

theorem bind_of_ok {first : Traced α} {value : α} (h : first.outcome = .ok value)
    (next : α → Traced β) :
    first >>= next = ⟨(next value).outcome, first.events ++ (next value).events⟩ := by
  simp only [Bind.bind, Traced.bind, h]

theorem bind_of_error {first : Traced α} {error : Error} (h : first.outcome = .error error)
    (next : α → Traced β) : first >>= next = ⟨.error error, first.events⟩ := by
  simp only [Bind.bind, Traced.bind, h]

@[simp] theorem bind_outcome (first : Traced α) (next : α → Traced β) :
    (first >>= next).outcome = first.outcome.bind fun value => (next value).outcome := by
  simp only [Bind.bind, Traced.bind]
  cases first.outcome <;> rfl

theorem bind_outcome_eq_ok_iff {first : Traced α} {next : α → Traced β} {result : β} :
    (first >>= next).outcome = .ok result ↔
      ∃ value, first.outcome = .ok value ∧ (next value).outcome = .ok result := by
  rw [bind_outcome, bind_eq_ok_iff]

instance : LawfulMonad Traced := LawfulMonad.mk' Traced
  (fun x => by
    obtain ⟨outcome, events⟩ := x
    cases outcome <;> simp [Functor.map, Traced.bind, Traced.pure])
  (fun x f => by simp [Bind.bind, Traced.bind, Pure.pure, Traced.pure])
  (fun x f g => by
    obtain ⟨outcome, events⟩ := x
    cases outcome with
    | error e => rfl
    | ok a =>
      simp only [Bind.bind, Traced.bind]
      cases (f a).outcome <;> simp)

end Traced

end EpcTag
