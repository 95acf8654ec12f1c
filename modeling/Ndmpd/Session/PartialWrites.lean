import Mathlib.Algebra.BigOperators.Group.List.Basic
import Mathlib.Algebra.Order.BigOperators.Group.List
import Mathlib.Algebra.Order.Group.Nat
import Mathlib.Algebra.Order.Ring.Int
import Mathlib.Data.List.Range

/-!
# Writing a buffer to the control connection

`ndmp_writeit` is what the XDR record stream writes with. It goes on after a `write` that
takes only part of the buffer, but moves on as if the buffer held `int`s: a write of `n`
bytes is followed by one from `4 * n` bytes further on.

The buffer gets through exactly if the first write takes all of it
(`ndmpWriteit_intact_iff`). Otherwise the last write reads behind the end of the buffer.
-/

namespace Ndmpd

namespace ControlStream

/-- The size of an `int`. -/
abbrev intSize : Nat := 4

/-- What a call of `ndmp_writeit` comes to: its result, where it has returned, the flag
`conn_eof`, and for each `write` that took bytes, where they lay in the buffer and how many
they were. -/
structure WriteRun where
  rv : Option Int
  connEof : Bool
  taken : List (Nat × Nat)
  deriving DecidableEq, Repr

/-- The loop of `ndmp_writeit`, on what `write` returns each time. `offset` is where `buf`
has got to. -/
def writeLoop (len : Int) : List Int → Int → Nat → WriteRun
  | results, cnt, offset =>
      if cnt ≤ 0 then ⟨some len, false, []⟩
      else
        match results with
        | [] => ⟨none, false, []⟩
        | n :: results =>
            if n < 0 then ⟨some (-1), true, []⟩
            else
              -- `buf = (int *)buf + n`
              let run := writeLoop len results (cnt - n) (offset + intSize * n.toNat)
              { run with taken := (offset, n.toNat) :: run.taken }

/-- `ndmp_writeit`. -/
def ndmpWriteit (len : Int) (results : List Int) : WriteRun := writeLoop len results len 0

namespace WriteRun

variable (run : WriteRun)

/-- The bytes that go out, from a memory that begins with the buffer. -/
def transmitted (memory : Nat → UInt8) : List UInt8 :=
  run.taken.flatMap fun (offset, n) => (List.range n).map fun index => memory (offset + index)

/-- Every byte that goes out is one of the buffer. -/
def Inside (len : Nat) : Prop := ∀ piece ∈ run.taken, piece.1 + piece.2 ≤ len

/-- The call returns the length, and the bytes of the buffer go out in order. -/
structure Intact (len : Nat) : Prop where
  rv : run.rv = some (len : Int)
  transmitted : ∀ memory, run.transmitted memory = (List.range len).map memory
  inside : run.Inside len

end WriteRun

/-- Where the writes take their bytes. -/
def pieces : Nat → List Nat → List (Nat × Nat)
  | _, [] => []
  | offset, n :: sizes => (offset, n) :: pieces (offset + intSize * n) sizes

variable {len : Nat} {sizes : List Nat}

/-- Writes that take what is left run to the end of the loop. -/
theorem writeLoop_eq (len : Int) {sizes : List Nat} (positive : ∀ n ∈ sizes, 0 < n)
    (offset : Nat) : writeLoop len (sizes.map Nat.cast) (sizes.sum : Nat) offset =
      ⟨some len, false, pieces offset sizes⟩ := by
  induction sizes generalizing offset with
  | nil =>
      unfold writeLoop
      exact if_pos le_rfl
  | cons n sizes ih =>
      have some_ := positive n List.mem_cons_self
      have more : ¬ ((((n :: sizes).sum : Nat) : Int) ≤ 0) := by
        rw [List.sum_cons]
        omega
      have left : (((n :: sizes).sum : Nat) : Int) - n = (sizes.sum : Nat) := by
        rw [List.sum_cons]
        omega
      have rest := ih (fun m listed => positive m (List.mem_cons_of_mem n listed))
        (offset + intSize * n)
      unfold writeLoop
      rw [if_neg more, List.map_cons]
      dsimp only
      rw [if_neg (Int.not_lt.mpr (Int.natCast_nonneg n)), left, Int.toNat_natCast, rest, pieces]

theorem ndmpWriteit_eq (positive : ∀ n ∈ sizes, 0 < n) (total : sizes.sum = len) :
    ndmpWriteit len (sizes.map Nat.cast) = ⟨some (len : Int), false, pieces 0 sizes⟩ := by
  subst total
  exact writeLoop_eq _ positive 0

/-- The last write ends as far behind the start as four times the bytes in front of it. -/
theorem exists_last_piece (offset : Nat) {sizes : List Nat} (nonempty : sizes ≠ []) :
    ∃ n ∈ sizes, (offset + intSize * (sizes.sum - n), n) ∈ pieces offset sizes := by
  induction sizes generalizing offset with
  | nil => exact absurd rfl nonempty
  | cons n sizes ih =>
      by_cases last : sizes = []
      · subst last
        refine ⟨n, List.mem_cons_self, ?_⟩
        rw [List.sum_singleton, Nat.sub_self, Nat.mul_zero, Nat.add_zero, pieces]
        exact List.mem_cons_self
      · obtain ⟨m, listed, taken⟩ := ih (offset + intSize * n) last
        have part := List.single_le_sum (fun _ _ => Nat.zero_le _) m listed
        refine ⟨m, List.mem_cons_of_mem n listed, ?_⟩
        have place : offset + intSize * ((n :: sizes).sum - m) =
            offset + intSize * n + intSize * (sizes.sum - m) := by
          rw [List.sum_cons, Nat.add_sub_assoc part, Nat.mul_add, Nat.add_assoc]
        rw [place, pieces]
        exact List.mem_cons_of_mem _ taken

/-- A buffer that takes more than one write is left on the way. -/
theorem not_inside_of_more (positive : ∀ n ∈ sizes, 0 < n) (more : 1 < sizes.length) :
    ∃ piece ∈ pieces 0 sizes, sizes.sum < piece.1 + piece.2 := by
  have nonempty : sizes ≠ [] := by
    rintro rfl
    exact absurd more (by simp)
  obtain ⟨n, listed, taken⟩ := exists_last_piece 0 nonempty
  have others : n < sizes.sum := by
    obtain ⟨before, behind, rfl⟩ := List.append_of_mem listed
    have rest : before ++ behind ≠ [] := by
      intro none_
      obtain ⟨rfl, rfl⟩ := List.append_eq_nil_iff.mp none_
      exact absurd more (by simp)
    obtain ⟨m, other⟩ := List.exists_mem_of_ne_nil _ rest
    have some_ : 0 < m := by
      rcases List.mem_append.mp other with early | late
      · exact positive m (List.mem_append_left _ early)
      · exact positive m (List.mem_append_right _ (List.mem_cons_of_mem n late))
    have part := List.single_le_sum (fun _ _ => Nat.zero_le _) m other
    rw [List.sum_append] at part
    rw [List.sum_append, List.sum_cons]
    omega
  refine ⟨_, taken, ?_⟩
  change sizes.sum < 0 + 4 * (sizes.sum - n) + n
  omega

/-- Bytes that are taken in several writes of positive sizes get through exactly if one
write takes all of them. -/
theorem ndmpWriteit_intact_iff (positive : ∀ n ∈ sizes, 0 < n) (total : sizes.sum = len) :
    (ndmpWriteit len (sizes.map Nat.cast)).Intact len ↔ sizes.length ≤ 1 := by
  rw [ndmpWriteit_eq positive total]
  constructor
  · intro intact
    by_contra more
    obtain ⟨piece, taken, outside⟩ := not_inside_of_more positive (Nat.not_le.mp more)
    exact absurd (intact.inside piece taken) (Nat.not_le.mpr (total ▸ outside))
  · intro once
    subst total
    cases sizes with
    | nil => exact ⟨rfl, fun memory => rfl, fun piece taken => nomatch taken⟩
    | cons n sizes =>
        have alone : sizes = [] := List.length_eq_zero_iff.mp (by simpa using once)
        subst alone
        refine ⟨rfl, fun memory => ?_, fun piece taken => ?_⟩
        · simp [WriteRun.transmitted, pieces]
        · cases List.mem_singleton.mp taken
          simp

/-- One write takes all of eight bytes. -/
theorem ndmpWriteit_intact_iff_once :
    (ndmpWriteit 8 [8]).Intact 8 ↔ [8].length ≤ 1 :=
  @ndmpWriteit_intact_iff 8 [8] (by simp) rfl

/-- Two writes of four bytes each: the second one takes the bytes 16 to 19. -/
theorem ndmpWriteit_outside :
    ndmpWriteit 8 [4, 4] = ⟨some 8, false, [(0, 4), (16, 4)]⟩ ∧
      ¬ (ndmpWriteit 8 [4, 4]).Intact 8 := by
  have run : ndmpWriteit 8 [4, 4] = ⟨some 8, false, [(0, 4), (16, 4)]⟩ := by decide
  refine ⟨run, fun intact => ?_⟩
  have outside := intact.inside (16, 4) (by rw [run]; simp)
  exact absurd outside (by decide)

end ControlStream

end Ndmpd
