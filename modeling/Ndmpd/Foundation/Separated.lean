import Mathlib.Data.List.Basic

/-!
# Lists with separators

`xs.splitOn sep` cuts a list at every separator, and `pieces sep xs` keeps the pieces
that are not empty. One cut list is the front of another exactly when the list is and a
separator follows it (`splitOn_prefix_iff`), and the pieces of a list that is put
together are put together (`pieces_append_cons`).
-/

namespace Foundation

variable {α : Type*}

/-- The end of a list, or a place in front of a separator. -/
def AtBoundary (sep : α) (rest : List α) : Prop := rest = [] ∨ rest.head? = some sep

variable [BEq α] [LawfulBEq α] {sep : α} {xs ys rest : List α}

/-- Putting the separator in front of every piece gives the list back. -/
theorem flatMap_splitOn (sep : α) (xs : List α) :
    (xs.splitOn sep).flatMap (sep :: ·) = sep :: xs := by
  induction xs with
  | nil => rfl
  | cons x xs ih =>
      rw [List.splitOn_cons_eq_if_modifyHead]
      by_cases isSep : x == sep
      · rw [if_pos isSep, List.flatMap_cons, ih, eq_of_beq isSep]
        rfl
      · rw [if_neg isSep]
        cases pieces : xs.splitOn sep with
        | nil => exact absurd pieces (List.splitOn_ne_nil sep xs)
        | cons piece others =>
            rw [pieces, List.flatMap_cons] at ih
            rw [List.modifyHead_cons, List.flatMap_cons, List.cons_append, List.cons_append]
            exact congrArg (sep :: x :: ·) (List.cons.inj ih).2

theorem splitOn_prefix_of_boundary (boundary : AtBoundary sep rest) :
    xs.splitOn sep <+: (xs ++ rest).splitOn sep := by
  rcases boundary with rfl | head
  · exact ⟨[], by rw [List.append_nil, List.append_nil]⟩
  · cases rest with
    | nil => cases head
    | cons x rest =>
        cases head
        rw [List.splitOn_append_cons_self]
        exact List.prefix_append _ _

/-- One cut list is the front of another exactly where the other one goes on with a
separator. -/
theorem splitOn_prefix_iff :
    xs.splitOn sep <+: ys.splitOn sep ↔ ∃ rest, ys = xs ++ rest ∧ AtBoundary sep rest := by
  constructor
  · rintro ⟨others, whole⟩
    have joined := congrArg (List.flatMap (sep :: ·)) whole
    rw [List.flatMap_append, flatMap_splitOn, flatMap_splitOn, List.cons_append] at joined
    refine ⟨others.flatMap (sep :: ·), (List.cons.inj joined).2.symm, ?_⟩
    cases others with
    | nil => exact .inl rfl
    | cons other others => exact .inr rfl
  · rintro ⟨rest, rfl, boundary⟩
    exact splitOn_prefix_of_boundary boundary

/-- What follows the front of a cut list is what follows the front, with its
separator. -/
theorem flatMap_drop_splitOn (boundary : AtBoundary sep rest) :
    (((xs ++ rest).splitOn sep).drop (xs.splitOn sep).length).flatMap (sep :: ·) = rest := by
  rcases boundary with rfl | head
  · rw [List.append_nil, List.drop_length]
    rfl
  · cases rest with
    | nil => cases head
    | cons x rest =>
        cases head
        rw [List.splitOn_append_cons_self, List.drop_left, flatMap_splitOn]

/-! ## Pieces that are not empty -/

/-- The pieces between separators that are not empty. -/
def pieces (sep : α) (xs : List α) : List (List α) :=
  (xs.splitOn sep).filter fun piece => !piece.isEmpty

omit [LawfulBEq α] in
theorem length_splitOn (sep : α) (xs : List α) : (xs.splitOn sep).length = xs.count sep + 1 := by
  induction xs with
  | nil => rfl
  | cons x xs ih =>
      rw [List.splitOn_cons_eq_if_modifyHead, List.count_cons]
      split
      · rw [List.length_cons, ih]
      · rw [List.length_modifyHead, ih, Nat.add_zero]

theorem splitOn_cons_self (sep : α) (xs : List α) :
    (sep :: xs).splitOn sep = [] :: xs.splitOn sep := by
  rw [List.splitOn_cons_eq_if_modifyHead, if_pos (beq_self_eq_true sep)]

/-- The piece in front is not empty unless a separator is in front. -/
theorem count_splitOn_cons_of_ne {x : α} (other : x ≠ sep) (xs : List α) :
    ((x :: xs).splitOn sep).count [] = ((x :: xs).splitOn sep).tail.count [] := by
  rw [List.splitOn_cons_eq_if_modifyHead, if_neg (by simpa using other)]
  cases split : xs.splitOn sep with
  | nil => exact absurd split (List.splitOn_ne_nil sep xs)
  | cons piece others =>
      rw [List.modifyHead_cons, List.tail_cons]
      exact List.count_cons_of_ne (List.cons_ne_nil x piece)

/-- Every piece is empty or not. -/
theorem length_pieces_add_count (sep : α) (xs : List α) :
    (pieces sep xs).length + (xs.splitOn sep).count [] = xs.count sep + 1 := by
  rw [← length_splitOn, pieces, ← List.countP_eq_length_filter, Nat.add_comm, List.count,
    List.length_eq_countP_add_countP (fun piece : List α => piece == [])]
  congr 1
  apply List.countP_congr
  intro piece _
  cases piece <;> simp

theorem pieces_append_cons (sep : α) (xs ys : List α) :
    pieces sep (xs ++ sep :: ys) = pieces sep xs ++ pieces sep ys := by
  unfold pieces
  rw [List.splitOn_append_cons_self, List.filter_append]

omit [LawfulBEq α] in
@[simp]
theorem pieces_nil (sep : α) : pieces sep ([] : List α) = [] := rfl

theorem pieces_cons_self (sep : α) (xs : List α) : pieces sep (sep :: xs) = pieces sep xs := by
  have split := pieces_append_cons sep [] xs
  rwa [List.nil_append, pieces_nil, List.nil_append] at split

/-- Separators in front of a list add no pieces. -/
theorem pieces_dropWhile {skips : α → Bool} (seps : ∀ x, skips x = true → x = sep) (xs : List α) :
    pieces sep (xs.dropWhile skips) = pieces sep xs := by
  induction xs with
  | nil => rfl
  | cons x xs ih =>
      by_cases skipped : skips x = true
      · rw [List.dropWhile_cons_of_pos skipped, ih, seps x skipped, pieces_cons_self]
      · rw [List.dropWhile_cons_of_neg skipped]

/-- Pieces come together at a separator, on whichever side it is. -/
theorem pieces_append (boundary : xs = [] ∨ xs.getLast? = some sep ∨ AtBoundary sep ys) :
    pieces sep (xs ++ ys) = pieces sep xs ++ pieces sep ys := by
  rcases boundary with rfl | last | rfl | head
  · rfl
  · obtain ⟨front, rfl⟩ := List.getLast?_eq_some_iff.mp last
    rw [List.append_assoc, List.singleton_append, pieces_append_cons, pieces_append_cons,
      pieces_nil, List.append_nil]
  · rw [List.append_nil, pieces_nil, List.append_nil]
  · cases ys with
    | nil => cases head
    | cons y ys =>
        cases head
        rw [pieces_append_cons, pieces_cons_self]

end Foundation
