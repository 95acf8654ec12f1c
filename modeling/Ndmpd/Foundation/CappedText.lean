import Mathlib.Algebra.GroupWithZero.Nat
import Mathlib.Data.List.Basic

/-!
# Text in a buffer of a fixed size

`appendCapped cap text more` puts `more` behind `text` as far as `cap` characters allow. The
buffer then holds the front of the text that an unbounded one would hold
(`appendCapped_take`), and all of it exactly when that text fits.
-/

namespace Foundation

variable {α : Type*} {cap : Nat}

/-- Put a text behind another one as far as there is room. -/
def appendCapped (cap : Nat) (text more : List α) : List α :=
  text ++ more.take (cap - text.length)

/-- What a full buffer does not hold is lost without a trace. -/
theorem appendCapped_take (text more : List α) :
    appendCapped cap (text.take cap) more = (text ++ more).take cap := by
  unfold appendCapped
  rw [List.take_append, List.length_take]
  congr 2
  omega

/-- The length of pieces with a separator between them. -/
theorem length_intercalate_cons (sep piece : List α) (pieces : List (List α)) :
    (sep.intercalate (piece :: pieces)).length =
      piece.length + (pieces.map fun other => sep.length + other.length).sum := by
  induction pieces generalizing piece with
  | nil => simp
  | cons other pieces ih =>
      rw [List.intercalate_cons_cons, List.length_append, List.length_append, ih, List.map_cons,
        List.sum_cons]
      omega

/-- Pieces that are not empty take more than one character each, with their separators. -/
theorem length_le_length_intercalate (sep : List α) {pieces : List (List α)}
    (nonempty : ∀ piece ∈ pieces, piece ≠ []) :
    pieces.length + (pieces.length - 1) * sep.length ≤ (sep.intercalate pieces).length := by
  cases pieces with
  | nil => simp
  | cons piece pieces =>
      rw [length_intercalate_cons]
      have first : 0 < piece.length :=
        List.length_pos_iff.mpr (nonempty piece (List.mem_cons_self ..))
      have rest : ∀ others : List (List α), (∀ other ∈ others, other ≠ []) →
          others.length + others.length * sep.length ≤
            (others.map fun other => sep.length + other.length).sum := by
        intro others some_
        induction others with
        | nil => simp
        | cons other others ih =>
            have here : 0 < other.length :=
              List.length_pos_iff.mpr (some_ other (List.mem_cons_self ..))
            have later := ih fun next listed => some_ next (List.mem_cons_of_mem other listed)
            rw [List.map_cons, List.sum_cons, List.length_cons, Nat.add_mul]
            omega
      have others := rest pieces fun other listed =>
        nonempty other (List.mem_cons_of_mem piece listed)
      rw [List.length_cons, Nat.add_sub_cancel]
      omega

end Foundation
