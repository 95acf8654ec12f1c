import Mathlib.Data.List.Basic

/-!
# Lines that may be continued

A text is cut behind each `stop` that has no `escape` in front of it; what follows the last one
is no line. Of a text of lines that is cut off somewhere, the lines that are complete are left
(`mem_continuedLines_take`).
-/

namespace Foundation

variable {α : Type*} [DecidableEq α] {stop escape : α}

/-- The lines of a text, behind the beginning of one. `prev` is the last element of what
has been read of it. -/
def continuedLines (stop escape : α) : Option α → List α → List α → List (List α)
  | _, _, [] => []
  | prev, line, x :: xs =>
      if x = stop ∧ prev ≠ some escape then
        (line ++ [x]) :: continuedLines stop escape none [] xs
      else continuedLines stop escape (some x) (line ++ [x]) xs

/-- No line ends in the text. -/
def Continues (stop escape : α) : Option α → List α → Prop
  | _, [] => True
  | prev, x :: xs => (x = stop → prev = some escape) ∧ Continues stop escape (some x) xs

/-- The text is one line. -/
def IsLine (stop escape : α) (text : List α) : Prop :=
  ∃ body, text = body ++ [stop] ∧ Continues stop escape none body ∧
    body.getLast? ≠ some escape

omit [DecidableEq α] in
theorem getLast?_cons_or (x : α) (xs : List α) (prev : Option α) :
    (x :: xs).getLast?.or prev = xs.getLast?.or (some x) := by
  rw [List.getLast?_cons]
  cases xs.getLast? with
  | none => rfl
  | some last => rfl

omit [DecidableEq α] in
theorem continues_append {prev : Option α} {xs ys : List α} :
    Continues stop escape prev (xs ++ ys) ↔
      Continues stop escape prev xs ∧ Continues stop escape (xs.getLast?.or prev) ys := by
  induction xs generalizing prev with
  | nil => simp [Continues]
  | cons x xs ih => rw [List.cons_append, Continues, Continues, ih, getLast?_cons_or, and_assoc]

omit [DecidableEq α] in
theorem continues_of_notMem {prev : Option α} {xs : List α} (absent : stop ∉ xs) :
    Continues stop escape prev xs := by
  induction xs generalizing prev with
  | nil => trivial
  | cons x xs ih =>
      rw [List.mem_cons, not_or] at absent
      exact ⟨fun same => absurd same.symm absent.1, ih absent.2⟩

/-- A text in which no line ends is read on to its end. -/
theorem continuedLines_pass {prev : Option α} {xs : List α}
    (continues : Continues stop escape prev xs) (line rest : List α) :
    continuedLines stop escape prev line (xs ++ rest) =
      continuedLines stop escape (xs.getLast?.or prev) (line ++ xs) rest := by
  induction xs generalizing prev line with
  | nil => simp
  | cons x xs ih =>
      obtain ⟨escaped, later⟩ := continues
      have goesOn : ¬ (x = stop ∧ prev ≠ some escape) := fun ends => ends.2 (escaped ends.1)
      rw [List.cons_append, continuedLines, if_neg goesOn, ih later, getLast?_cons_or,
        List.append_assoc, List.singleton_append]

theorem IsLine.append {text : List α} (isLine : IsLine stop escape text) (rest : List α) :
    continuedLines stop escape none [] (text ++ rest) =
      text :: continuedLines stop escape none [] rest := by
  obtain ⟨body, rfl, continues, last⟩ := isLine
  have ends : stop = stop ∧ body.getLast?.or none ≠ some escape := by simpa using last
  rw [List.append_assoc, continuedLines_pass continues, List.singleton_append, continuedLines,
    if_pos ends, List.nil_append]

/-- A part of a line is none. -/
theorem IsLine.take {text : List α} (isLine : IsLine stop escape text) {count : Nat}
    (short : count < text.length) : continuedLines stop escape none [] (text.take count) = [] := by
  obtain ⟨body, rfl, continues, -⟩ := isLine
  have within : count ≤ body.length := by
    rw [List.length_append, List.length_singleton] at short
    omega
  have front : Continues stop escape none (body.take count) := by
    rw [← List.take_append_drop count body, continues_append] at continues
    exact continues.1
  have passed := continuedLines_pass front [] []
  rw [List.append_nil] at passed
  rw [List.take_append_of_le_length within, passed, continuedLines]

/-- The lines that are complete in the first elements of a text of lines. -/
theorem mem_continuedLines_take {lines : List (List α)}
    (isLine : ∀ line ∈ lines, IsLine stop escape line) (count : Nat) (text : List α) :
    text ∈ continuedLines stop escape none [] (lines.flatten.take count) ↔
      ∃ k, lines[k]? = some text ∧ (lines.take (k + 1)).flatten.length ≤ count := by
  induction lines generalizing count with
  | nil => simp [continuedLines]
  | cons line lines ih =>
      obtain ⟨here, later⟩ := List.forall_mem_cons.mp isLine
      rw [List.flatten_cons]
      by_cases whole : line.length ≤ count
      · have cut : (line ++ lines.flatten).take count =
            line ++ lines.flatten.take (count - line.length) := by
          rw [List.take_append, List.take_of_length_le whole]
        rw [cut, here.append, List.mem_cons, ih later]
        constructor
        · rintro (rfl | ⟨k, listed, fits⟩)
          · exact ⟨0, rfl, by simpa using whole⟩
          · refine ⟨k + 1, listed, ?_⟩
            rw [List.take_succ_cons, List.flatten_cons, List.length_append]
            omega
        · rintro ⟨k, listed, fits⟩
          cases k with
          | zero => exact .inl (Option.some.inj listed).symm
          | succ k =>
              rw [List.take_succ_cons, List.flatten_cons, List.length_append] at fits
              exact .inr ⟨k, listed, by omega⟩
      · have cut : (line ++ lines.flatten).take count = line.take count :=
          List.take_append_of_le_length (by omega)
        rw [cut, here.take (by omega)]
        refine iff_of_false List.not_mem_nil ?_
        rintro ⟨k, -, fits⟩
        rw [List.take_succ_cons, List.flatten_cons, List.length_append] at fits
        omega

end Foundation
