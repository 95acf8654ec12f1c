import Mathlib.Algebra.Order.Group.Multiset
import Mathlib.Order.Basic

/-!
# Work that may be broken off

Work goes on under someone who may stop it: before each piece the worker looks whether to
stop. What it gets done is logged. `Does` says of a part of the work that it gets nothing
done but what is owed, and all of that exactly if the part goes well and no look finds the
order to stop. Parts done one after the other make a part (`Does.trans`).
-/

namespace Foundation

universe u

/-- The number of looks so far, and what has been done. -/
structure Progress (α : Type u) where
  looks : Nat
  log : List α
  deriving DecidableEq, Repr

namespace Progress

variable {α : Type u}

/-- One more look. -/
def look (progress : Progress α) : Progress α :=
  { progress with looks := progress.looks + 1 }

/-- One more thing done. -/
def note (progress : Progress α) (mark : α) : Progress α :=
  { progress with log := progress.log ++ [mark] }

@[simp] theorem look_log (progress : Progress α) : progress.look.log = progress.log := rfl

end Progress

variable {α : Type u} {stop : Nat → Bool}

/-- A number of looks from a look on does not find the order to stop. -/
def Undisturbed (stop : Nat → Bool) (start count : Nat) : Prop :=
  ∀ look, start ≤ look → look < start + count → stop look = false

theorem undisturbed_zero (start : Nat) : Undisturbed stop start 0 :=
  fun _ after before => absurd before (Nat.not_lt.mpr after)

theorem undisturbed_one {start : Nat} : Undisturbed stop start 1 ↔ stop start = false := by
  constructor
  · intro free
    exact free start le_rfl (Nat.lt_succ_self start)
  · intro free look after before
    rwa [Nat.le_antisymm (Nat.le_of_lt_succ before) after]

theorem undisturbed_add {start first second : Nat} :
    Undisturbed stop start (first + second) ↔
      Undisturbed stop start first ∧ Undisturbed stop (start + first) second := by
  constructor
  · intro free
    constructor
    · intro look after before
      exact free look after (by omega)
    · intro look after before
      exact free look (by omega) (by omega)
  · rintro ⟨early, late⟩ look after before
    by_cases inFirst : look < start + first
    · exact early look after inFirst
    · exact late look (Nat.not_lt.mp inFirst) (by omega)

/-- A part of the work, between two states: what it owes, how many looks it takes, and
whether it goes well. -/
def Does (stop : Nat → Bool) (before after : Progress α) (owed : List α) (count : Nat)
    (well : Prop) : Prop :=
  ∃ marks : List α, after.log = before.log ++ marks ∧ (marks : Multiset α) ≤ owed ∧
    ((marks : Multiset α) = owed ↔ well ∧ Undisturbed stop before.looks count) ∧
    ((marks : Multiset α) = owed → after.looks = before.looks + count)

namespace Does

variable {before after later : Progress α} {owed more : List α} {count further : Nat}
  {well fine : Prop}

/-- What is owed is left undone, because it does not go well or the order to stop is
there. -/
theorem undone (same : after.log = before.log) (owes : owed ≠ [])
    (disturbed : ¬ (well ∧ Undisturbed stop before.looks count)) :
    Does stop before after owed count well := by
  have short : ((([] : List α) : Multiset α) = (owed : Multiset α)) ↔ False := by
    rw [Multiset.coe_eq_coe, iff_false]
    intro permuted
    exact owes permuted.symm.eq_nil
  refine ⟨[], by rw [same, List.append_nil], Multiset.zero_le _, ?_, ?_⟩
  · rw [short, false_iff]
    exact disturbed
  · rw [short]
    exact False.elim

/-- A look finds the order to stop, and what is owed is left undone. -/
theorem stopped (found : stop before.looks = true) (owes : owed ≠ []) :
    Does stop before before.look owed (1 + count) well := by
  apply undone before.look_log owes
  rintro ⟨_, free⟩
  rw [undisturbed_one.mp (undisturbed_add.mp free).1] at found
  cases found

/-- A look that does not find the order to stop. -/
theorem look (free : stop before.looks = false) : Does stop before before.look [] 1 True := by
  refine ⟨[], (List.append_nil _).symm, le_refl _, ?_, fun _ => rfl⟩
  exact ⟨fun _ => ⟨trivial, undisturbed_one.mpr free⟩, fun _ => rfl⟩

/-- One thing is owed, and it is done when it goes well. -/
theorem single (mark : α) (done : Bool) :
    Does stop before (if done then before.note mark else before) [mark] 0 (done = true) := by
  cases done with
  | true =>
      refine ⟨[mark], rfl, le_refl _, ?_, fun _ => rfl⟩
      exact ⟨fun _ => ⟨rfl, undisturbed_zero _⟩, fun _ => rfl⟩
  | false => exact undone rfl (List.cons_ne_nil mark []) fun both => Bool.false_ne_true both.1

/-- One part after the other. -/
theorem trans (first : Does stop before after owed count well)
    (second : Does stop after later more further fine) :
    Does stop before later (owed ++ more) (count + further) (well ∧ fine) := by
  obtain ⟨marks, logged, part, all, looked⟩ := first
  obtain ⟨marks', logged', part', all', looked'⟩ := second
  have split : ((marks ++ marks' : List α) : Multiset α) = ((owed ++ more : List α) : Multiset α) ↔
      (marks : Multiset α) = owed ∧ (marks' : Multiset α) = more := by
    rw [← Multiset.coe_add, ← Multiset.coe_add]
    exact add_eq_add_iff_eq_and_eq part part'
  refine ⟨marks ++ marks', by rw [logged', logged, List.append_assoc], ?_, ?_, ?_⟩
  · rw [← Multiset.coe_add, ← Multiset.coe_add]
    exact add_le_add part part'
  · rw [split, undisturbed_add]
    constructor
    · rintro ⟨whole, whole'⟩
      obtain ⟨goes, free⟩ := all.mp whole
      obtain ⟨goes', free'⟩ := all'.mp whole'
      rw [looked whole] at free'
      exact ⟨⟨goes, goes'⟩, free, free'⟩
    · rintro ⟨⟨goes, goes'⟩, free, free'⟩
      have whole := all.mpr ⟨goes, free⟩
      refine ⟨whole, all'.mpr ⟨goes', ?_⟩⟩
      rwa [looked whole]
  · rw [split]
    rintro ⟨whole, whole'⟩
    rw [looked' whole', looked whole, Nat.add_assoc]

/-- The same part, with what it owes in another order and its condition in other words. -/
theorem congr (does : Does stop before after owed count well) (permuted : owed.Perm more)
    (same : well ↔ fine) (counted : count = further) :
    Does stop before after more further fine := by
  subst counted
  have owes : (owed : Multiset α) = more := Multiset.coe_eq_coe.mpr permuted
  unfold Does at does ⊢
  rwa [owes, propext same] at does

/-- From the beginning, all that is owed is done exactly if the work goes well. -/
theorem perm_iff (does : Does stop ⟨0, []⟩ after owed count well) :
    after.log.Perm owed ↔ well ∧ Undisturbed stop 0 count := by
  obtain ⟨marks, logged, _, all, _⟩ := does
  rw [logged, List.nil_append, ← Multiset.coe_eq_coe]
  exact all

end Does

end Foundation
