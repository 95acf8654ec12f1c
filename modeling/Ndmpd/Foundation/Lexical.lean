import Mathlib.Data.List.Basic

/-!
# Lexical walks

A walk follows names from a place in a tree: one name stays where it is, one goes up,
and every other name goes down. A place is the list of the names on the way to it, the
last one first, so that a place is below another one when it ends with it. Names that
never go up further than they went down lead to a place below the one they start from
(`suffix_walk`).
-/

namespace Foundation

variable {α : Type*} [DecidableEq α] (here up : α)

/-- One name further. Nothing is above the root. -/
def walkStep (place : List α) (name : α) : List α :=
  if name = here then place else if name = up then place.tail else name :: place

/-- The place that names lead to. -/
def walk (place : List α) (names : List α) : List α := names.foldl (walkStep here up) place

/-- Whether names go up no further than they have gone down, from a place that is `depth`
names down. -/
def descends : Nat → List α → Bool
  | _, [] => true
  | depth, name :: names =>
      if name = here then descends depth names
      else if name = up then decide (depth ≠ 0) && descends (depth - 1) names
      else descends (depth + 1) names

theorem walk_append (place names more : List α) :
    walk here up place (names ++ more) = walk here up (walk here up place names) more :=
  List.foldl_append

variable {here up}

/-- Names that go down lead to a place below. -/
theorem suffix_walk_append {place names : List α} (inner : List α)
    (down : descends here up inner.length names = true) :
    place <:+ walk here up (inner ++ place) names := by
  induction names generalizing inner with
  | nil => exact List.suffix_append inner place
  | cons name names ih =>
      unfold walk
      rw [List.foldl_cons, walkStep]
      rw [descends] at down
      by_cases stays : name = here
      · rw [if_pos stays] at down ⊢
        exact ih inner down
      · rw [if_neg stays] at down ⊢
        by_cases goesUp : name = up
        · rw [if_pos goesUp] at down ⊢
          rw [Bool.and_eq_true, decide_eq_true_eq] at down
          cases inner with
          | nil => exact absurd rfl down.1
          | cons last inner => exact ih inner down.2
        · rw [if_neg goesUp] at down ⊢
          exact ih (name :: inner) down

theorem suffix_walk {place names : List α} (down : descends here up 0 names = true) :
    place <:+ walk here up place names :=
  suffix_walk_append [] down

end Foundation
