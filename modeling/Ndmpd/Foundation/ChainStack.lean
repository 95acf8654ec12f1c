import Mathlib.Data.List.Basic
import Mathlib.Order.Defs.Unbundled

/-!
# Stacks of nested things

On a stack of nested things each entry is around the entries above it. When the entries
that are not around a key are popped from the top, up to the first one that is, all of
them are gone (`popUntil_eq_filter`), so that an entry is popped by the first key that it
is not around (`lt_length_popUntil_iff`).
-/

namespace Foundation

variable {α : Type*}

/-- A list in which what passes is followed by what passes. -/
theorem dropWhile_not_eq_filter {passes : α → Bool} {entries : List α}
    (onward : entries.Pairwise fun first second => passes first = true → passes second = true) :
    entries.dropWhile (fun entry => !passes entry) = entries.filter passes := by
  induction entries with
  | nil => rfl
  | cons entry entries ih =>
      obtain ⟨behind, onward⟩ := List.pairwise_cons.mp onward
      cases passed : passes entry with
      | true =>
          have all : entries.filter passes = entries :=
            List.filter_eq_self.mpr fun later listed => behind later listed passed
          rw [List.dropWhile_cons_of_neg (by rw [passed]; exact Bool.false_ne_true),
            List.filter_cons_of_pos passed, all]
      | false =>
          rw [List.dropWhile_cons_of_pos (by rw [passed]; rfl),
            List.filter_cons_of_neg (by rw [passed]; exact Bool.false_ne_true), ih onward]

variable (around : α → α → Prop) [DecidableRel around]

/-- Whether an entry stays on the stack for a key. Without a key all entries do. -/
def stays (key : Option α) (entry : α) : Bool := key.all fun inner => around entry inner

/-- The stack once the entries on top that are not around a key have been popped. -/
def popUntil (key : Option α) (stack : List α) : List α :=
  stack.dropWhile fun entry => !stays around key entry

/-- Each entry is around those above it. -/
def Nested (stack : List α) : Prop := stack.Pairwise fun upper lower => around lower upper

variable {around} [IsTrans α around]

theorem stays_of_stays {key : Option α} {upper lower : α} (inside : around lower upper)
    (kept : stays around key upper = true) : stays around key lower = true := by
  cases key with
  | none => rfl
  | some inner =>
      exact decide_eq_true (IsTrans.trans lower upper inner inside (of_decide_eq_true kept))

/-- Popping from the top removes every entry that is not around the key. -/
theorem popUntil_eq_filter {stack : List α} (nested : Nested around stack) (key : Option α) :
    popUntil around key stack = stack.filter (stays around key) :=
  dropWhile_not_eq_filter
    (nested.imp fun {upper lower} inside => @stays_of_stays α around _ _ key upper lower inside)

/-- A key can be put on top of what is around it. -/
theorem Nested.push {stack : List α} (nested : Nested around stack) (inner : α) :
    Nested around (inner :: popUntil around (some inner) stack) := by
  rw [popUntil_eq_filter nested]
  refine List.pairwise_cons.mpr ⟨fun entry listed => ?_, nested.filter _⟩
  exact of_decide_eq_true (List.mem_filter.mp listed).2

theorem Nested.pop {stack : List α} (nested : Nested around stack) (key : Option α) :
    Nested around (popUntil around key stack) := by
  rw [popUntil_eq_filter nested]
  exact nested.filter _

/-- The entries below one that stays do. -/
theorem popUntil_of_stays {upper lower : List α} {entry : α}
    (nested : Nested around (upper ++ entry :: lower)) {key : Option α}
    (kept : stays around key entry = true) :
    popUntil around key (upper ++ entry :: lower) =
      upper.filter (stays around key) ++ entry :: lower := by
  obtain ⟨-, rest, -⟩ := List.pairwise_append.mp nested
  have all : lower.filter (stays around key) = lower := by
    apply List.filter_eq_self.mpr
    intro below listed
    exact stays_of_stays ((List.pairwise_cons.mp rest).1 below listed) kept
  rw [popUntil_eq_filter nested, List.filter_append, List.filter_cons_of_pos kept, all]

/-- The height of the stack tells whether an entry has been popped. -/
theorem lt_length_popUntil_iff {upper lower : List α} {entry : α}
    (nested : Nested around (upper ++ entry :: lower)) (key : Option α) :
    lower.length < (popUntil around key (upper ++ entry :: lower)).length ↔
      stays around key entry = true := by
  cases kept : stays around key entry with
  | true =>
      rw [popUntil_of_stays nested kept, List.length_append, List.length_cons]
      exact iff_of_true (by omega) rfl
  | false =>
      have above : upper.filter (stays around key) = [] := by
        apply List.filter_eq_nil_iff.mpr
        intro top listed passed
        obtain ⟨-, -, across⟩ := List.pairwise_append.mp nested
        have inside := across top listed entry List.mem_cons_self
        exact absurd (kept.symm.trans (stays_of_stays inside passed)) Bool.false_ne_true
      rw [popUntil_eq_filter nested, List.filter_append, above, List.nil_append,
        List.filter_cons_of_neg (by rw [kept]; exact Bool.false_ne_true)]
      exact iff_of_false (Nat.not_lt.mpr (List.length_filter_le _ _)) Bool.false_ne_true

end Foundation
