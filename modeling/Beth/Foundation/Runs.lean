import Mathlib

/-! # Runs of a labelled step relation

A run lists the labels of its steps in the order they happened. Invariants may
mention the whole history; a transitive relation kept by every step relates
any two states of a run. -/

namespace Foundation

variable {State : Type u} {Label : Type v}

inductive Run (step : State → Label → State → Prop) (start : State) :
    List Label → State → Prop
  | start : Run step start [] start
  | extend {history state label next} :
      Run step start history state →
      step state label next →
      Run step start (history ++ [label]) next

namespace Run

variable {step : State → Label → State → Prop} {start final : State}
  {history : List Label}

/-- The invariant rule: what holds of the empty run and is kept by each
extension holds of every run. -/
theorem invariant (Holds : List Label → State → Prop) (initially : Holds [] start)
    (preserved : ∀ history state label next, Run step start history state →
      Holds history state → step state label next → Holds (history ++ [label]) next)
    (run : Run step start history final) : Holds history final := by
  induction run with
  | start => exact initially
  | extend earlier taken induction => exact preserved _ _ _ _ earlier induction taken

/-- A run of a relation is a run of every weaker one. -/
theorem weaken {weaker : State → Label → State → Prop}
    (implies : ∀ state label next, step state label next → weaker state label next)
    (run : Run step start history final) : Run weaker start history final := by
  induction run with
  | start => exact .start
  | extend _ taken induction => exact .extend induction (implies _ _ _ taken)

/-- The empty run leaves the state. -/
theorem final_eq_of_nil (run : Run step start [] final) : final = start := by
  generalize emptyEq : ([] : List Label) = history at run
  cases run with
  | start => rfl
  | extend earlier taken => simp at emptyEq

/-- A longer run passes through the final state of each of its prefixes. -/
theorem split {earlier later : List Label}
    (run : Run step start (earlier ++ later) final) :
    ∃ middle, Run step start earlier middle ∧ Run step middle later final := by
  induction later using List.reverseRecOn generalizing final with
  | nil =>
      rw [List.append_nil] at run
      exact ⟨final, run, .start⟩
  | append_singleton front label induction =>
      rw [← List.append_assoc] at run
      generalize whole : earlier ++ front ++ [label] = labels at run
      cases run with
      | start => simp at whole
      | extend before taken =>
          obtain ⟨sameFront, sameLabel⟩ := List.append_inj' whole rfl
          cases sameFront
          cases sameLabel
          obtain ⟨middle, toMiddle, fromMiddle⟩ := induction before
          exact ⟨middle, toMiddle, .extend fromMiddle taken⟩

/-- Two runs that meet compose. -/
theorem append {middle : State} {earlier later : List Label}
    (first : Run step start earlier middle) (second : Run step middle later final) :
    Run step start (earlier ++ later) final := by
  induction second with
  | start => simpa using first
  | extend _ taken induction =>
      rw [← List.append_assoc]
      exact .extend induction taken

/-- Steps that were computed one after the other are a run. -/
theorem of_foldlM {next : State → Label → Option State} {labels : List Label}
    (taken : labels.foldlM next start = some final) :
    Run (fun state label after => next state label = some after) start labels final := by
  induction labels generalizing start with
  | nil =>
      cases taken
      exact .start
  | cons label rest induction =>
      rcases Option.bind_eq_some_iff.mp taken with ⟨middle, first, others⟩
      have started : Run (fun state label after => next state label = some after) start
          ([] ++ [label]) middle := .extend .start first
      exact started.append (induction others)

/-- A reflexive and transitive relation kept by each step relates the ends of
a run. -/
theorem related {Later : State → State → Prop} (refl : ∀ state, Later state state)
    (trans : ∀ {first second third}, Later first second → Later second third →
      Later first third)
    (kept : ∀ state label next, step state label next → Later state next)
    (run : Run step start history final) : Later start final := by
  induction run with
  | start => exact refl _
  | extend _ taken induction => exact trans induction (kept _ _ _ taken)

end Run

/-- What holds at every position of a history holds however it is split there. -/
theorem forall_split_of_take {Holds : List Label → Label → Prop} {history : List Label}
    (atPosition : ∀ position, (inside : position < history.length) →
      Holds (history.take position) history[position])
    (earlier : List Label) (label : Label) (later : List Label)
    (split : history = earlier ++ label :: later) : Holds earlier label := by
  subst split
  simpa using atPosition earlier.length (by simp)

end Foundation
