import Mathlib.Computability.Language
import Mathlib.Data.List.DropRight
import Mathlib.Order.ConditionallyCompleteLattice.Basic

/-!
# Patterns with wildcards

A pattern is a list of letters and wildcards, and its language is the product of theirs.
`searchLanguage` is what a matcher accepts that tries the rest of a pattern only at places
in front of the end. On a pattern with its last wildcards split off the two differ in these
alone (`searchLanguage_append_replicate`), and only when there are two of them or more.
-/

namespace Foundation

variable {α : Type*}

/-- A wildcard for any word, one for any letter, or a letter. -/
inductive Wildcard (α : Type*) where
  | any
  | one
  | letter (a : α)

/-- The words that one element of a pattern stands for. -/
def Wildcard.language : Wildcard α → Language α
  | any => ⊤
  | one => {word | word.length = 1}
  | letter a => {[a]}

/-- The words that a pattern stands for. -/
def patternLanguage (pattern : List (Wildcard α)) : Language α :=
  (pattern.map Wildcard.language).prod

/-- The words that are not empty. -/
def nonempty : Language α := {word | word ≠ []}

/-- What is accepted when the rest of a pattern behind `any` is tried at nonempty rests. -/
def searchLanguage : List (Wildcard α) → Language α
  | [] => 1
  | .any :: pattern =>
      if pattern.isEmpty then ⊤ else ⊤ * (searchLanguage pattern ⊓ nonempty)
  | item :: pattern => item.language * searchLanguage pattern

/-! ## Words -/

@[simp] theorem mem_language_any (word : List α) : word ∈ (Wildcard.any : Wildcard α).language :=
  Set.mem_univ word

@[simp] theorem mem_language_one (word : List α) :
    word ∈ (Wildcard.one : Wildcard α).language ↔ word.length = 1 := Iff.rfl

@[simp] theorem mem_language_letter (word : List α) (a : α) :
    word ∈ (Wildcard.letter a).language ↔ word = [a] := Iff.rfl

@[simp] theorem mem_nonempty (word : List α) : word ∈ (nonempty : Language α) ↔ word ≠ [] := Iff.rfl

theorem mem_inf {first second : Language α} (word : List α) :
    word ∈ first ⊓ second ↔ word ∈ first ∧ word ∈ second := Iff.rfl

@[simp] theorem patternLanguage_nil : patternLanguage ([] : List (Wildcard α)) = 1 := rfl

@[simp] theorem patternLanguage_cons (item : Wildcard α) (pattern : List (Wildcard α)) :
    patternLanguage (item :: pattern) = item.language * patternLanguage pattern := List.prod_cons

theorem patternLanguage_append (first second : List (Wildcard α)) :
    patternLanguage (first ++ second) = patternLanguage first * patternLanguage second := by
  rw [patternLanguage, List.map_append, List.prod_append]
  rfl

theorem mem_top_mul {language : Language α} {word : List α} :
    word ∈ ⊤ * language ↔ ∃ rest, rest <:+ word ∧ rest ∈ language := by
  rw [Language.mem_mul]
  constructor
  · rintro ⟨front, -, rest, inside, rfl⟩
    exact ⟨rest, List.suffix_append front rest, inside⟩
  · rintro ⟨rest, ⟨front, rfl⟩, inside⟩
    exact ⟨front, Set.mem_univ front, rest, inside, rfl⟩

theorem mem_mul_top {language : Language α} {word : List α} :
    word ∈ language * ⊤ ↔ ∃ front, front <+: word ∧ front ∈ language := by
  rw [Language.mem_mul]
  constructor
  · rintro ⟨front, inside, rest, -, rfl⟩
    exact ⟨front, List.prefix_append front rest, inside⟩
  · rintro ⟨front, ⟨rest, rfl⟩, inside⟩
    exact ⟨front, inside, rest, Set.mem_univ rest, rfl⟩

theorem mem_mul_nonempty {language : Language α} {word : List α} :
    word ∈ language * nonempty ↔ ∃ front, front <+: word ∧ front ∈ language ∧ front ≠ word := by
  rw [Language.mem_mul]
  constructor
  · rintro ⟨front, inside, rest, some_, rfl⟩
    refine ⟨front, List.prefix_append front rest, inside, ?_⟩
    intro same
    exact some_ (List.self_eq_append_right.mp same)
  · rintro ⟨front, ⟨rest, rfl⟩, inside, different⟩
    refine ⟨front, inside, rest, ?_, rfl⟩
    rintro rfl
    exact different (List.append_nil front).symm

theorem nil_mem_mul {first second : Language α} :
    [] ∈ first * second ↔ [] ∈ first ∧ [] ∈ second := by
  simp only [Language.mem_mul, List.append_eq_nil_iff]
  constructor
  · rintro ⟨_, inFirst, _, inSecond, rfl, rfl⟩
    exact ⟨inFirst, inSecond⟩
  · intro both
    exact ⟨[], both.1, [], both.2, rfl, rfl⟩

/-- Only `any` stands for the empty word. -/
theorem nil_mem_patternLanguage {pattern : List (Wildcard α)} :
    [] ∈ patternLanguage pattern ↔ ∀ item ∈ pattern, item = .any := by
  induction pattern with
  | nil => simp
  | cons item pattern ih =>
      rw [patternLanguage_cons, nil_mem_mul, ih, List.forall_mem_cons]
      cases item with
      | any => simp
      | one => simp
      | letter a => simp

/-- A language without the empty word. -/
theorem inf_nonempty_of {language : Language α} (full : [] ∉ language) :
    language ⊓ nonempty = language := by
  apply inf_eq_left.mpr
  intro word inside isEmpty
  rw [isEmpty] at inside
  exact full inside

/-! ## The last wildcards -/

theorem patternLanguage_replicate (count : Nat) :
    patternLanguage (List.replicate (count + 1) (Wildcard.any : Wildcard α)) = ⊤ := by
  induction count with
  | zero =>
      rw [List.replicate_one, patternLanguage_cons, patternLanguage_nil, mul_one]
      rfl
  | succ count ih =>
      rw [List.replicate_succ, patternLanguage_cons, ih]
      apply top_unique
      intro word _
      exact mem_top_mul.mpr ⟨word, List.suffix_refl word, Set.mem_univ word⟩

theorem searchLanguage_replicate (count : Nat) :
    searchLanguage (List.replicate (count + 2) (Wildcard.any : Wildcard α)) = nonempty := by
  have step : ∀ language : Language α, nonempty ≤ language →
      (⊤ : Language α) * (language ⊓ nonempty) = nonempty := by
    intro language all
    rw [inf_eq_right.mpr all]
    ext word
    rw [mem_top_mul]
    constructor
    · rintro ⟨rest, ⟨front, rfl⟩, some_⟩ none_
      exact some_ (List.append_eq_nil_iff.mp none_).2
    · intro some_
      exact ⟨word, List.suffix_refl word, some_⟩
  induction count with
  | zero => exact step ⊤ le_top
  | succ count ih =>
      change ⊤ * (searchLanguage (List.replicate (count + 2) Wildcard.any) ⊓ nonempty) = nonempty
      rw [ih]
      exact step nonempty le_rfl

/-- In front of its last wildcards a pattern is matched as it should be. -/
theorem searchLanguage_append_replicate {front : List (Wildcard α)}
    (split : front.getLast? ≠ some .any) (count : Nat) :
    searchLanguage (front ++ List.replicate count .any) =
      patternLanguage front * searchLanguage (List.replicate count .any) := by
  induction front with
  | nil => rw [List.nil_append, patternLanguage_nil, one_mul]
  | cons item front ih =>
      have inner : front.getLast? ≠ some .any := by
        cases front with
        | nil => simp
        | cons next front => rwa [List.getLast?_cons_cons] at split
      have behind := ih inner
      cases item with
      | any =>
          cases front with
          | nil => exact absurd rfl split
          | cons next front =>
              -- the rest holds more than wildcards, so that it stands for no empty word
              have full : [] ∉ patternLanguage (next :: front) := by
                intro none_
                have all := nil_mem_patternLanguage.mp none_
                apply inner
                rw [List.getLast?_eq_some_getLast (List.cons_ne_nil next front)]
                exact congrArg some (all _ (List.getLast_mem _))
              change ⊤ * (searchLanguage (next :: front ++ List.replicate count .any) ⊓ nonempty) =
                _
              rw [behind, inf_nonempty_of, patternLanguage_cons .any, mul_assoc]
              · rfl
              · intro none_
                exact full (nil_mem_mul.mp none_).1
      | one =>
          change _ * searchLanguage (front ++ List.replicate count .any) = _
          rw [behind, patternLanguage_cons, mul_assoc]
      | letter a =>
          change _ * searchLanguage (front ++ List.replicate count .any) = _
          rw [behind, patternLanguage_cons, mul_assoc]

/-- What is searched for is what the pattern stands for, but for words of which no part is
left to two last wildcards. -/
theorem mem_searchLanguage_iff {front : List (Wildcard α)} (split : front.getLast? ≠ some .any)
    (count : Nat) (word : List α) :
    (word ∈ searchLanguage (front ++ List.replicate count .any) ↔
        word ∈ patternLanguage (front ++ List.replicate count .any)) ↔
      ¬ (2 ≤ count ∧ word ∈ patternLanguage front ∧
        ∀ part, part <+: word → part ∈ patternLanguage front → part = word) := by
  rw [searchLanguage_append_replicate split, patternLanguage_append]
  rcases count with _ | _ | count
  · exact iff_of_true Iff.rfl fun wrong => absurd wrong.1 (by omega)
  · rw [patternLanguage_replicate]
    exact iff_of_true Iff.rfl fun wrong => absurd wrong.1 (by omega)
  · rw [patternLanguage_replicate, searchLanguage_replicate, mem_mul_nonempty, mem_mul_top]
    constructor
    · rintro same ⟨-, inside, only⟩
      obtain ⟨part, begins, inPart, different⟩ := same.mpr ⟨word, List.prefix_refl word, inside⟩
      exact different (only part begins inPart)
    · intro other
      constructor
      · rintro ⟨part, begins, inPart, -⟩
        exact ⟨part, begins, inPart⟩
      · rintro ⟨part, begins, inPart⟩
        by_contra none_
        have only : ∀ part, part <+: word → part ∈ patternLanguage front → part = word := by
          intro shorter before inShorter
          by_contra different
          exact none_ ⟨shorter, before, inShorter, different⟩
        have whole := only part begins inPart
        rw [whole] at inPart
        exact other ⟨Nat.le_add_left 2 count, inPart, only⟩

end Foundation
