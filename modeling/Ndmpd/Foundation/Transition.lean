import Mathlib.Data.List.Basic

/-!
# Labelled transition systems with partial steps

A system is a predicate on initial states and a partial step function: `step s a`
is `none` when action `a` is not enabled in `s`. Nondeterminism (a scheduler, an
expiring timer, the result of a system call) is part of the action, so that a
run is determined by its list of actions and can be evaluated.

`ReachableBy allowed` collects the states reached by runs all of whose steps meet
a side condition on the state before the step and the action taken. The invariant
rule `ReachableBy.invariant` is the only induction over runs a client needs.
-/

namespace Foundation

universe u v

/-- A labelled transition system with a partial step function. -/
structure System (State : Type u) (Action : Type v) where
  init : State → Prop
  step : State → Action → Option State

namespace System

variable {State : Type u} {Action : Type v}

/-- A guarded step is taken where its guard holds. -/
theorem of_guarded {guard : Prop} [Decidable guard] {s t : State}
    (taken : (if guard then some s else none) = some t) : guard ∧ s = t := by
  obtain ⟨holds, same⟩ := Option.ite_none_right_eq_some.mp taken
  exact ⟨holds, Option.some.inj same⟩

variable (M : System State Action)
  (allowed : State → Action → Prop)

/-- States reached from an initial state by steps that all meet `allowed`. -/
inductive ReachableBy : State → Prop where
  | init {s : State} : M.init s → ReachableBy s
  | step {s t : State} {a : Action} :
      ReachableBy s → allowed s a → M.step s a = some t → ReachableBy t

/-- States reached by any run. -/
abbrev Reachable : State → Prop := M.ReachableBy fun _ _ => True

/-- Execute a list of actions, failing when one of them is not enabled or does not
meet `allowed`. -/
def run [∀ s a, Decidable (allowed s a)] (s : State) : List Action → Option State
  | [] => some s
  | a :: as => if allowed s a then (M.step s a).bind fun t => run t as else none

variable {M} {allowed}

/-- What every allowed step keeps holds behind an evaluated run. -/
theorem run_invariant [∀ s a, Decidable (allowed s a)] (inv : State → Prop)
    (preserved : ∀ s a t, inv s → allowed s a → M.step s a = some t → inv t) {s t : State}
    {actions : List Action} (evaluated : M.run allowed s actions = some t) (holds : inv s) :
    inv t := by
  induction actions generalizing s with
  | nil =>
      cases evaluated
      exact holds
  | cons a as ih =>
      rw [System.run, Option.ite_none_right_eq_some, Option.bind_eq_some_iff] at evaluated
      obtain ⟨meets, middle, taken, rest⟩ := evaluated
      exact ih rest (preserved _ _ _ holds meets taken)

/-- A predicate that holds initially and is kept by every allowed step holds in
every state reached by allowed steps. -/
theorem ReachableBy.invariant (inv : State → Prop)
    (initial : ∀ s, M.init s → inv s)
    (preserved : ∀ s a t, inv s → allowed s a → M.step s a = some t → inv t)
    {s : State} (reached : M.ReachableBy allowed s) : inv s := by
  induction reached with
  | init start => exact initial _ start
  | step _ meets taken ih => exact preserved _ _ _ ih meets taken

/-- An evaluated run of allowed steps ends in a state reached by allowed steps. -/
theorem ReachableBy.run [∀ s a, Decidable (allowed s a)] {s t : State}
    (reached : M.ReachableBy allowed s) {actions : List Action}
    (evaluated : M.run allowed s actions = some t) : M.ReachableBy allowed t := by
  induction actions generalizing s with
  | nil =>
      cases evaluated
      exact reached
  | cons a as ih =>
      rw [System.run, Option.ite_none_right_eq_some, Option.bind_eq_some_iff] at evaluated
      obtain ⟨meets, middle, taken, rest⟩ := evaluated
      exact ih (.step reached meets taken) rest

end System

end Foundation
