import Mathlib

/-! # Rules for computations that may fail

`Meets result returns throws` says what holds of the value when the
computation returns and what holds of the failure when it does not. The loop
rule carries an invariant over the elements that are still to be processed. -/

namespace Foundation

def Meets (result : Except ε α) (returns : α → Prop) (throws : ε → Prop) : Prop :=
  match result with
  | .ok value => returns value
  | .error failure => throws failure

universe u v w

@[simp] theorem ok_bind {ε : Type u} {α β : Type v} (value : α)
    (next : α → Except ε β) : (Except.ok value >>= next) = next value := rfl

@[simp] theorem error_bind {ε : Type u} {α β : Type v} (failure : ε)
    (next : α → Except ε β) : (Except.error failure >>= next) = .error failure := rfl

theorem bind_eq_ok {ε : Type u} {α β : Type v} {first : Except ε α}
    {next : α → Except ε β} {value : β} :
    (first >>= next) = .ok value ↔ ∃ middle, first = .ok middle ∧ next middle = .ok value := by
  cases first <;> simp

theorem mapError_eq_ok {ε : Type u} {δ : Type w} {α : Type v} {failure : ε → δ}
    {result : Except ε α} {value : α} :
    result.mapError failure = .ok value ↔ result = .ok value := by
  cases result <;> simp [Except.mapError]

/-- A traversal that never fails is a map. -/
theorem mapM_eq_ok {ε : Type u} {α : Type w} {β : Type v} {first : α → Except ε β}
    {value : α → β} {elements : List α}
    (each : ∀ element ∈ elements, first element = .ok (value element)) :
    elements.mapM first = .ok (elements.map value) := by
  induction elements with
  | nil => rfl
  | cons element rest induction =>
      rw [List.mapM_cons, each element (by simp), ok_bind,
        induction fun other member => each other (by simp [member])]
      rfl

namespace Meets

variable {ε : Type u} {α β : Type v} {result : Except ε α} {returns : α → Prop} {throws : ε → Prop}

@[simp] theorem ok_iff (value : α) :
    Meets (.ok value : Except ε α) returns throws ↔ returns value := Iff.rfl

@[simp] theorem error_iff (failure : ε) :
    Meets (.error failure : Except ε α) returns throws ↔ throws failure := Iff.rfl

@[simp] theorem pure_iff (value : α) :
    Meets (pure value : Except ε α) returns throws ↔ returns value := Iff.rfl

@[simp] theorem throw_iff (failure : ε) :
    Meets (throw failure : Except ε α) returns throws ↔ throws failure := Iff.rfl

instance [DecidablePred returns] [DecidablePred throws] :
    Decidable (Meets result returns throws) :=
  match result with
  | .ok value => inferInstanceAs (Decidable (returns value))
  | .error failure => inferInstanceAs (Decidable (throws failure))

theorem mono {weakerReturns : α → Prop} {weakerThrows : ε → Prop}
    (holds : Meets result returns throws)
    (ofReturns : ∀ value, returns value → weakerReturns value)
    (ofThrows : ∀ failure, throws failure → weakerThrows failure) :
    Meets result weakerReturns weakerThrows := by
  cases result with
  | ok value => exact ofReturns value holds
  | error failure => exact ofThrows failure holds

theorem and {otherReturns : α → Prop} {otherThrows : ε → Prop}
    (left : Meets result returns throws)
    (right : Meets result otherReturns otherThrows) :
    Meets result (fun value => returns value ∧ otherReturns value)
      (fun failure => throws failure ∧ otherThrows failure) := by
  cases result with
  | ok value => exact ⟨left, right⟩
  | error failure => exact ⟨left, right⟩

theorem returns_of_eq_ok {value : α} (holds : Meets result returns throws)
    (returned : result = .ok value) : returns value := by
  subst returned
  exact holds

theorem throws_of_eq_error {failure : ε} (holds : Meets result returns throws)
    (failed : result = .error failure) : throws failure := by
  subst failed
  exact holds

/-- A computation that cannot throw returns a value. -/
theorem exists_ok (holds : Meets result returns throws)
    (noFailure : ∀ failure, ¬ throws failure) :
    ∃ value, result = .ok value ∧ returns value := by
  cases result with
  | ok value => exact ⟨value, rfl, holds⟩
  | error failure => exact absurd holds (noFailure failure)

theorem bind {next : α → Except ε β} {returnsNext : β → Prop}
    (first : Meets result returns throws)
    (rest : ∀ value, returns value → Meets (next value) returnsNext throws) :
    Meets (result >>= next) returnsNext throws := by
  cases result with
  | ok value => exact rest value first
  | error failure => exact first

theorem bind_any {next : α → Except ε β} {returnsNext : β → Prop}
    (first : Meets result (fun _ => True) throws)
    (rest : ∀ value, Meets (next value) returnsNext throws) :
    Meets (result >>= next) returnsNext throws :=
  first.bind fun value _ => rest value

/-- The loop rule: `invariant remaining state` holds before every iteration,
with `remaining` the elements not yet processed. -/
theorem foldlM {ι : Type w} {step : β → ι → Except ε β}
    (invariant : List ι → β → Prop)
    (preserved : ∀ element remaining state, invariant (element :: remaining) state →
      Meets (step state element) (invariant remaining) throws)
    (elements : List ι) (initial : β) (established : invariant elements initial) :
    Meets (elements.foldlM step initial) (invariant []) throws := by
  induction elements generalizing initial with
  | nil => exact established
  | cons element remaining induction =>
      rw [List.foldlM_cons]
      exact Meets.bind (preserved element remaining initial established) induction

/-- The loop rule for a property of the state alone. -/
theorem foldlM_const {ι : Type w} {step : β → ι → Except ε β}
    (invariant : β → Prop) {elements : List ι}
    (preserved : ∀ state, ∀ element ∈ elements, invariant state →
      Meets (step state element) invariant throws)
    (initial : β) (established : invariant initial) :
    Meets (elements.foldlM step initial) invariant throws := by
  apply foldlM (fun remaining state => remaining ⊆ elements ∧ invariant state) ?_
    elements initial ⟨List.Subset.refl _, established⟩ |>.mono
    (fun _ holds => holds.2) (fun _ failed => failed)
  intro element remaining state holds
  have member : element ∈ elements := holds.1 (by simp)
  exact (preserved state element member holds.2).mono
    (fun _ kept => ⟨fun _ inRest => holds.1 (by simp [inRest]), kept⟩)
    (fun _ failed => failed)

end Meets

end Foundation
