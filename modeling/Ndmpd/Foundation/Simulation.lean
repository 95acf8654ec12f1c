import Ndmpd.Foundation.Transition

/-!
# Traces and forward simulation

A labelling says what is visible of a step; a trace is what is visible of a run. A forward
simulation relates the states of a system to those of an abstract one that takes the labels
as its actions: a silent step keeps the relation, a visible one is a step of the abstract
system with that label. Every trace is then an abstract run (`Simulation.performs`).
-/

namespace Foundation

namespace System

universe u v w x

variable {State : Type u} {Action : Type v} {Label : Type w} {Abstract : Type x}

section Traces

variable (M : System State Action) (allowed : State → Action → Prop)
  (label : State → Action → Option Label)

/-- Runs from an initial state by allowed steps, with what is visible of them. -/
inductive Traces : List Label → State → Prop where
  | init {s : State} : M.init s → Traces [] s
  | step {s t : State} {a : Action} {labels : List Label} :
      Traces labels s → allowed s a → M.step s a = some t →
        Traces (labels ++ (label s a).toList) t

/-- Execute a list of actions and collect what is visible of them. -/
def observe [∀ s a, Decidable (allowed s a)] (s : State) :
    List Action → Option (List Label × State)
  | [] => some ([], s)
  | a :: as =>
      if allowed s a then
        (M.step s a).bind fun t =>
          (observe t as).map fun seen => ((label s a).toList ++ seen.1, seen.2)
      else none

variable {M} {allowed} {label}

/-- An evaluated run goes on with a trace. -/
theorem Traces.observe [∀ s a, Decidable (allowed s a)] {labels seen : List Label} {s t : State}
    (traces : M.Traces allowed label labels s) {actions : List Action}
    (evaluated : M.observe allowed label s actions = some (seen, t)) :
    M.Traces allowed label (labels ++ seen) t := by
  induction actions generalizing s labels seen with
  | nil =>
      cases evaluated
      rwa [List.append_nil]
  | cons a as ih =>
      rw [System.observe, Option.ite_none_right_eq_some, Option.bind_eq_some_iff] at evaluated
      obtain ⟨meets, middle, taken, rest⟩ := evaluated
      obtain ⟨⟨later, last⟩, ran, same⟩ := Option.map_eq_some_iff.mp rest
      cases same
      rw [← List.append_assoc]
      exact ih (.step traces meets taken) ran

end Traces

variable (M : System State Action) (allowed : State → Action → Prop)
  (label : State → Action → Option Label) (A : System Abstract Label)

/-- The labels lead the abstract system from an initial state to this one. -/
inductive Performs : List Label → Abstract → Prop where
  | init {t : Abstract} : A.init t → Performs [] t
  | step {t u : Abstract} {l : Label} {labels : List Label} :
      Performs labels t → A.step t l = some u → Performs (labels ++ [l]) u

/-- A forward simulation: initial states are related, silent steps keep the relation, and
visible ones are steps of the abstract system. -/
structure Simulation (related : State → Abstract → Prop) : Prop where
  init : ∀ s, M.init s → ∃ t, A.init t ∧ related s t
  silent : ∀ s a s' t, related s t → allowed s a → M.step s a = some s' → label s a = none →
    related s' t
  visible : ∀ s a s' t l, related s t → allowed s a → M.step s a = some s' →
    label s a = some l → ∃ t', A.step t l = some t' ∧ related s' t'

variable {M} {allowed} {label} {A}

/-- Every trace is a run of the abstract system, to a related state. -/
theorem Simulation.performs {related : State → Abstract → Prop}
    (simulation : Simulation M allowed label A related) {labels : List Label} {s : State}
    (traces : M.Traces allowed label labels s) : ∃ t, A.Performs labels t ∧ related s t := by
  induction traces with
  | init start =>
      obtain ⟨t, starts, same⟩ := simulation.init _ start
      exact ⟨t, .init starts, same⟩
  | @step s s' a labels _ meets taken ih =>
      obtain ⟨t, performs, same⟩ := ih
      cases visible : label s a with
      | none =>
          rw [Option.toList_none, List.append_nil]
          exact ⟨t, performs, simulation.silent s a s' t same meets taken visible⟩
      | some l =>
          obtain ⟨t', taken', same'⟩ := simulation.visible s a s' t l same meets taken visible
          exact ⟨t', .step performs taken', same'⟩

/-- The last step of a run. -/
theorem Performs.last {labels : List Label} {l : Label} {u : Abstract}
    (performs : A.Performs (labels ++ [l]) u) : ∃ t, A.Performs labels t ∧ A.step t l = some u := by
  generalize same : labels ++ [l] = all at performs
  cases performs with
  | init _ => simp at same
  | @step t u l' labels' before taken =>
      obtain ⟨rfl, isLast⟩ := List.append_inj' same rfl
      cases List.singleton_injective isLast
      exact ⟨t, before, taken⟩

/-- From a single initial state the labels determine the state. -/
theorem Performs.unique (single : ∀ t u, A.init t → A.init u → t = u) {labels : List Label}
    {t u : Abstract} (first : A.Performs labels t) (second : A.Performs labels u) : t = u := by
  induction first generalizing u with
  | init start =>
      generalize same : ([] : List Label) = none_ at second
      cases second with
      | init start' => exact single _ _ start start'
      | step _ _ => simp at same
  | @step t t' l labels _ taken ih =>
      obtain ⟨before, performs, taken'⟩ := second.last
      rw [ih performs, taken'] at taken
      exact (Option.some.inj taken).symm

end System

end Foundation
