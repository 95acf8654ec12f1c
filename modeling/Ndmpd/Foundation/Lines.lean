import Ndmpd.Foundation.CharArray

/-!
# Reading a stream by lines

`takeLine count stream` takes the bytes of a stream up to and including the first
newline, and at most `count` of them, as `fgets` does. What was taken and what is left
make up the stream (`takeLine_append`), a newline that was taken is its last byte
(`newline_notMem_dropLast_takeLine`), and a line that is short enough is taken whole
(`takeLine_line`) where a longer one is cut before its newline (`takeLine_cut`).
-/

namespace Foundation

/-- The newline byte. -/
abbrev newline : UInt8 := 10

/-- The bytes of the first line with its newline, at most `count` of them, and what is
left of the stream. -/
def takeLine : Nat → List UInt8 → List UInt8 × List UInt8
  | 0, stream => ([], stream)
  | _ + 1, [] => ([], [])
  | count + 1, byte :: stream =>
      if byte = newline then ([byte], stream)
      else (byte :: (takeLine count stream).1, (takeLine count stream).2)

theorem takeLine_append (count : Nat) (stream : List UInt8) :
    (takeLine count stream).1 ++ (takeLine count stream).2 = stream := by
  induction count generalizing stream with
  | zero => rfl
  | succ count ih =>
      cases stream with
      | nil => rfl
      | cons byte stream =>
          by_cases ends : byte = newline
          · rw [takeLine, if_pos ends, List.singleton_append]
          · rw [takeLine, if_neg ends, List.cons_append, ih]

theorem length_takeLine_le (count : Nat) (stream : List UInt8) :
    (takeLine count stream).1.length ≤ count := by
  induction count generalizing stream with
  | zero => exact Nat.le_refl 0
  | succ count ih =>
      cases stream with
      | nil => exact Nat.zero_le _
      | cons byte stream =>
          by_cases ends : byte = newline
          · rw [takeLine, if_pos ends, List.length_singleton]
            exact Nat.le_add_left 1 count
          · rw [takeLine, if_neg ends, List.length_cons]
            exact Nat.succ_le_succ (ih stream)

/-- Something is taken from a stream that is not at its end. -/
theorem takeLine_ne_nil {count : Nat} {stream : List UInt8} (room : 0 < count)
    (more : stream ≠ []) : (takeLine count stream).1 ≠ [] := by
  obtain ⟨count, rfl⟩ := Nat.exists_eq_succ_of_ne_zero (Nat.ne_of_gt room)
  obtain ⟨byte, stream, rfl⟩ := List.exists_cons_of_ne_nil more
  by_cases ends : byte = newline
  · rw [takeLine, if_pos ends]
    exact List.cons_ne_nil _ _
  · rw [takeLine, if_neg ends]
    exact List.cons_ne_nil _ _

/-- Only the last byte of what was taken may be a newline. -/
theorem newline_notMem_dropLast_takeLine (count : Nat) (stream : List UInt8) :
    newline ∉ (takeLine count stream).1.dropLast := by
  induction count generalizing stream with
  | zero => exact List.not_mem_nil
  | succ count ih =>
      cases stream with
      | nil => exact List.not_mem_nil
      | cons byte stream =>
          by_cases ends : byte = newline
          · rw [takeLine, if_pos ends]
            exact List.not_mem_nil
          · rw [takeLine, if_neg ends]
            rcases taken : (takeLine count stream).1 with _ | ⟨next, more⟩
            · exact List.not_mem_nil
            · rw [List.dropLast_cons_of_ne_nil (List.cons_ne_nil _ _)]
              rintro listed
              rcases List.mem_cons.mp listed with same | listed
              · exact ends same.symm
              · exact ih stream (taken ▸ listed)

/-- A line that is short enough is taken with its newline. -/
theorem takeLine_line {line : List UInt8} (noNewline : newline ∉ line) (rest : List UInt8)
    {count : Nat} (fits : line.length < count) :
    takeLine count (line ++ newline :: rest) = (line ++ [newline], rest) := by
  induction line generalizing count with
  | nil =>
      obtain ⟨count, rfl⟩ := Nat.exists_eq_succ_of_ne_zero (Nat.ne_of_gt fits)
      rw [List.nil_append, takeLine, if_pos rfl, List.nil_append]
  | cons byte line ih =>
      obtain ⟨count, rfl⟩ := Nat.exists_eq_succ_of_ne_zero (Nat.ne_of_gt (Nat.zero_lt_of_lt fits))
      have other : byte ≠ newline := fun same => noNewline (same ▸ List.mem_cons_self)
      have inner : newline ∉ line := fun listed => noNewline (List.mem_cons_of_mem _ listed)
      rw [List.cons_append, takeLine, if_neg other, ih inner (Nat.lt_of_succ_lt_succ fits),
        List.cons_append]

/-- A line that is too long is cut before its newline. -/
theorem takeLine_cut {line : List UInt8} (noNewline : newline ∉ line) (rest : List UInt8)
    {count : Nat} (long : count ≤ line.length) :
    (takeLine count (line ++ rest)).1 = line.take count := by
  induction line generalizing count with
  | nil =>
      rw [Nat.le_zero.mp long]
      rfl
  | cons byte line ih =>
      have other : byte ≠ newline := fun same => noNewline (same ▸ List.mem_cons_self)
      have inner : newline ∉ line := fun listed => noNewline (List.mem_cons_of_mem _ listed)
      cases count with
      | zero => rfl
      | succ count =>
          rw [List.cons_append, takeLine, if_neg other, List.take_succ_cons,
            ih inner (Nat.le_of_succ_le_succ long)]

end Foundation
