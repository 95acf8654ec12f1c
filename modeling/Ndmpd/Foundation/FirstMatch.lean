import Mathlib.Data.List.Perm.Basic

/-!
# The first match in a list

`xs.findSome? f` is the answer of the first element that has one. It does not depend on
the order of the list exactly when all answers are the same (`findSome?_perm_iff`).

`updateFirst` changes the first element with a property. Where that element is known by
another property, which no second element has, this is the change of the element that is
known so (`updateFirst_eq_map`).
-/

namespace Foundation

variable {α β : Type*} {f : α → Option β} {xs ys : List α}

/-- The elements that have an answer have the same. -/
def Agree (f : α → Option β) (xs : List α) : Prop :=
  ∀ x ∈ xs, ∀ y ∈ xs, ∀ b ∈ f x, ∀ c ∈ f y, b = c

theorem findSome?_of_agree (agree : Agree f xs) {x : α} (member : x ∈ xs) {b : β}
    (found : f x = some b) : xs.findSome? f = some b := by
  cases first : xs.findSome? f with
  | none =>
      have silent := List.findSome?_eq_none_iff.mp first x member
      rw [found] at silent
      cases silent
  | some c =>
      obtain ⟨y, listed, answer⟩ := List.exists_of_findSome?_eq_some first
      exact congrArg some (agree y listed x member c answer b found)

theorem Agree.findSome?_eq (agree : Agree f xs) (perm : ys.Perm xs) :
    ys.findSome? f = xs.findSome? f := by
  cases first : ys.findSome? f with
  | none =>
      symm
      rw [List.findSome?_eq_none_iff] at first ⊢
      intro x member
      exact first x (perm.mem_iff.mpr member)
  | some b =>
      obtain ⟨y, listed, answer⟩ := List.exists_of_findSome?_eq_some first
      exact (findSome?_of_agree agree (perm.mem_iff.mp listed) answer).symm

/-- Every element can be put in front. -/
theorem exists_perm_cons {x : α} (member : x ∈ xs) : ∃ rest, (x :: rest).Perm xs := by
  obtain ⟨front, rest, rfl⟩ := List.append_of_mem member
  exact ⟨front ++ rest, List.perm_middle.symm⟩

/-- The first match is the same in every order exactly when the matches agree. -/
theorem findSome?_perm_iff :
    (∀ ys : List α, ys.Perm xs → ys.findSome? f = xs.findSome? f) ↔ Agree f xs := by
  constructor
  · intro same x member y listed b answer c other
    obtain ⟨rest, perm⟩ := exists_perm_cons member
    obtain ⟨others, permOther⟩ := exists_perm_cons listed
    have fromFirst := (same _ perm).trans (same _ permOther).symm
    rw [List.findSome?_cons, answer, List.findSome?_cons, other] at fromFirst
    exact Option.some.inj fromFirst
  · intro agree ys perm
    exact agree.findSome?_eq perm

/-! ## Changing the first match -/

/-- Change the first element with a property. -/
def updateFirst (p : α → Bool) (change : α → α) : List α → List α
  | [] => []
  | x :: xs => if p x then change x :: xs else x :: updateFirst p change xs

variable {p : α → Bool} {change : α → α}

/-- The list stays as it is exactly if the first match does. -/
theorem updateFirst_eq_self_iff :
    updateFirst p change xs = xs ↔ ∀ x, xs.find? p = some x → change x = x := by
  induction xs with
  | nil => exact iff_of_true rfl nofun
  | cons x xs ih =>
      rw [updateFirst]
      by_cases here : p x = true
      · rw [if_pos here, List.find?_cons_of_pos here, List.cons.injEq]
        constructor
        · rintro ⟨same, -⟩ y found
          exact Option.some.inj found ▸ same
        · intro same
          exact ⟨same x rfl, rfl⟩
      · rw [if_neg here, List.find?_cons_of_neg here, List.cons.injEq, ih]
        exact and_iff_right rfl

/-- A property of one element only, which the first match has if there is one. -/
theorem updateFirst_eq_map {q : α → Prop} [DecidablePred q] (implies : ∀ x, q x → p x = true)
    (first : ∀ x, xs.find? p = some x → q x) (once : xs.Pairwise fun x y => ¬ (q x ∧ q y)) :
    updateFirst p change xs = xs.map fun x => if q x then change x else x := by
  induction xs with
  | nil => rfl
  | cons x xs ih =>
      rw [List.pairwise_cons] at once
      rw [updateFirst, List.map_cons]
      by_cases here : p x = true
      · rw [List.find?_cons_of_pos here] at first
        have isIt : q x := first x rfl
        have others : (xs.map fun y => if q y then change y else y) = xs.map id :=
          List.map_congr_left fun y listed => if_neg fun also => once.1 y listed ⟨isIt, also⟩
        rw [if_pos here, if_pos isIt, others, List.map_id]
      · rw [List.find?_cons_of_neg here] at first
        rw [if_neg here, if_neg fun isIt => here (implies x isIt), ih first once.2]

/-- The change does not reach what it does not touch. -/
theorem map_updateFirst {γ : Type*} {g : α → γ} (same : ∀ x, g (change x) = g x) :
    (updateFirst p change xs).map g = xs.map g := by
  induction xs with
  | nil => rfl
  | cons x xs ih =>
      rw [updateFirst]
      split
      · rw [List.map_cons, List.map_cons, same]
      · rw [List.map_cons, List.map_cons, ih]

end Foundation
