import Mathlib.Data.List.Destutter

/-!
# Runs of equal elements

`xs.destutter (· ≠ ·)` keeps one element of each run. An element is left once exactly when
it occurs in one run (`count_destutter_eq_one_iff`).
-/

namespace Foundation

variable {α : Type*} [DecidableEq α] {x y : α}

/-- The element occurs, and not again behind its first run. -/
def InOneRun (x : α) (xs : List α) : Prop :=
  x ∈ xs ∧ x ∉ (xs.dropWhile (· ≠ x)).dropWhile (· = x)

instance (x : α) (xs : List α) : Decidable (InOneRun x xs) :=
  inferInstanceAs (Decidable (_ ∧ _))

theorem inOneRun_cons_self (x : α) (xs : List α) :
    InOneRun x (x :: xs) ↔ x ∉ xs.dropWhile (· = x) := by
  simp [InOneRun]

theorem inOneRun_cons_of_ne (other : y ≠ x) (xs : List α) :
    InOneRun x (y :: xs) ↔ InOneRun x xs := by
  simp [InOneRun, other, other.symm]

theorem mem_destutter'_iff (x y : α) (xs : List α) :
    x ∈ xs.destutter' (· ≠ ·) y ↔ x ∈ y :: xs := by
  induction xs generalizing y with
  | nil => rw [List.destutter'_nil]
  | cons head xs ih =>
      by_cases change : y ≠ head
      · rw [List.destutter'_cons_pos _ change, List.mem_cons, ih, ← List.mem_cons]
      · rw [List.destutter'_cons_neg _ change, ih, not_not.mp change]
        simp

/-- The first element is left once if it does not come back. -/
theorem count_destutter'_self (x : α) (xs : List α) :
    (xs.destutter' (· ≠ ·) x).count x = 1 ↔ x ∉ xs.dropWhile (· = x) := by
  induction xs with
  | nil => simp
  | cons head xs ih =>
      by_cases change : x ≠ head
      · have stays : (head :: xs).dropWhile (· = x) = head :: xs := by
          simp [change.symm]
        rw [List.destutter'_cons_pos _ change, List.count_cons_self, stays, Nat.add_eq_right,
          List.count_eq_zero, mem_destutter'_iff]
      · rw [List.destutter'_cons_neg _ change, ih, not_not.mp change]
        simp

theorem count_destutter'_of_ne (other : y ≠ x) (xs : List α) :
    (xs.destutter' (· ≠ ·) y).count x = 1 ↔ InOneRun x xs := by
  induction xs generalizing y with
  | nil => simp [InOneRun, other]
  | cons head xs ih =>
      by_cases change : y ≠ head
      · rw [List.destutter'_cons_pos _ change, List.count_cons_of_ne other]
        by_cases begins : head = x
        · rw [begins, count_destutter'_self, inOneRun_cons_self]
        · rw [ih begins, inOneRun_cons_of_ne begins]
      · have same : y = head := not_not.mp change
        rw [List.destutter'_cons_neg _ change, ih other, inOneRun_cons_of_ne (same ▸ other)]

theorem count_destutter_eq_one_iff (x : α) (xs : List α) :
    (xs.destutter (· ≠ ·)).count x = 1 ↔ InOneRun x xs := by
  cases xs with
  | nil => simp [InOneRun]
  | cons head xs =>
      rw [List.destutter_cons']
      by_cases begins : head = x
      · rw [begins, count_destutter'_self, inOneRun_cons_self]
      · rw [count_destutter'_of_ne begins, inOneRun_cons_of_ne begins]

end Foundation
