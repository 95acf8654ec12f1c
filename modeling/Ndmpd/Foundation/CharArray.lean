import Mathlib.Data.List.Basic
import Mathlib.Algebra.Order.Group.Nat

/-!
# Character arrays and C strings

A C string is the bytes of a memory before the first NUL (`cstring`). A `CharArray`
is an array of fixed size; bytes written past its end are dropped. A string without
NUL that is shorter than the array is read back as it was stored
(`cstring_ofString`), whatever follows the array in memory.
-/

namespace Foundation

/-- The C string at the start of a memory. -/
def cstring (memory : List UInt8) : List UInt8 := memory.takeWhile (· ≠ 0)

/-- A C string has no NUL before its end. -/
abbrev NulFree (text : List UInt8) : Prop := (0 : UInt8) ∉ text

theorem cstring_append_nul {text : List UInt8} (nulFree : NulFree text) (rest : List UInt8) :
    cstring (text ++ 0 :: rest) = text := by
  have run : ∀ byte ∈ text, (decide (byte ≠ 0)) = true := by
    intro byte listed
    rw [decide_eq_true_eq]
    rintro rfl
    exact nulFree listed
  rw [cstring, List.takeWhile_append_of_pos run]
  simp

theorem cstring_of_nulFree {text : List UInt8} (nulFree : NulFree text) : cstring text = text := by
  have run : ∀ byte ∈ text, (decide (byte ≠ 0)) = true := by
    intro byte listed
    rw [decide_eq_true_eq]
    rintro rfl
    exact nulFree listed
  have whole := @List.takeWhile_append_of_pos _ _ text [] run
  rwa [List.append_nil, List.takeWhile_nil, List.append_nil] at whole

/-- An array of bytes of a fixed size. -/
structure CharArray (size : Nat) where
  bytes : List UInt8
  length_bytes : bytes.length = size
  deriving DecidableEq, Repr

namespace CharArray

variable {size : Nat}

attribute [simp] length_bytes

/-- A cleared array. -/
def zero (size : Nat) : CharArray size := ⟨List.replicate size 0, List.length_replicate⟩

/-- A cleared array into which a string was copied, cut so that a NUL remains at its
end. -/
def ofString (size : Nat) (text : List UInt8) : CharArray size where
  bytes := text.take (size - 1) ++ List.replicate (size - min (size - 1) text.length) 0
  length_bytes := by
    rw [List.length_append, List.length_take, List.length_replicate]
    omega

/-- Overwrite the bytes from an offset on. -/
def write (array : CharArray size) (offset : Nat) (bytes : List UInt8) : CharArray size where
  bytes := (array.bytes.take offset ++ bytes ++ array.bytes.drop (offset + bytes.length)).take size
  length_bytes := by
    simp only [List.length_take, List.length_append, List.length_drop, length_bytes]
    omega

/-- The string that the array holds. -/
def string (array : CharArray size) : List UInt8 := cstring array.bytes

/-- Copy a string to the start of the array, cut so that its NUL fits. -/
def strlcpy (array : CharArray size) (text : List UInt8) : CharArray size :=
  array.write 0 (text.take (size - 1) ++ [0])

theorem bytes_ofString {text : List UInt8} (fits : text.length < size) :
    (ofString size text).bytes = text ++ List.replicate (size - text.length) 0 := by
  have whole : text.take (size - 1) = text := List.take_of_length_le (by omega)
  have left : min (size - 1) text.length = text.length := by omega
  simp only [ofString, whole, left]

/-- A stored string is read back, whatever follows the array in memory. -/
theorem cstring_ofString {text : List UInt8} (nulFree : NulFree text) (fits : text.length < size)
    (rest : List UInt8) : cstring ((ofString size text).bytes ++ rest) = text := by
  obtain ⟨count, padding⟩ : ∃ count, size - text.length = count + 1 :=
    Nat.exists_eq_succ_of_ne_zero (by omega)
  rw [bytes_ofString fits, padding, List.replicate_succ, List.append_assoc, List.cons_append]
  exact cstring_append_nul nulFree _

/-- What an array holds after a write that fits. -/
theorem bytes_write {array : CharArray size} {offset : Nat} {bytes : List UInt8}
    (fits : offset + bytes.length ≤ size) :
    (array.write offset bytes).bytes =
      array.bytes.take offset ++ (bytes ++ array.bytes.drop (offset + bytes.length)) := by
  have within : (array.bytes.take offset ++ bytes ++
      array.bytes.drop (offset + bytes.length)).length ≤ size := by
    simp only [List.length_append, List.length_take, List.length_drop, length_bytes]
    omega
  simp only [write]
  rw [List.take_of_length_le within, List.append_assoc]

/-- A string that was written from the start of an array and then ended. -/
theorem string_write_terminated {array : CharArray size} {text : List UInt8}
    (nulFree : NulFree text) (fits : text.length < size) :
    ((array.write 0 text).write text.length [0]).string = text := by
  have first : (array.write 0 text).bytes = text ++ array.bytes.drop text.length := by
    rw [bytes_write (by omega), List.take_zero, List.nil_append, Nat.zero_add]
  have front : (array.write 0 text).bytes.take text.length = text := by
    rw [first, List.take_left]
  rw [string, bytes_write (by rwa [List.length_singleton]), front]
  exact cstring_append_nul nulFree _

/-- `strlcpy` stores a string that fits. -/
theorem string_strlcpy {array : CharArray size} {text : List UInt8}
    (nulFree : NulFree text) (fits : text.length < size) : (array.strlcpy text).string = text := by
  have whole : text.take (size - 1) = text := List.take_of_length_le (by omega)
  have room : 0 + (text ++ [0]).length ≤ size := by
    rw [List.length_append, List.length_singleton]
    omega
  rw [strlcpy, whole, string, bytes_write room, List.take_zero, List.nil_append, List.append_assoc]
  exact cstring_append_nul nulFree _

/-- A NUL at the start ends the string at once. -/
theorem string_write_nul {array : CharArray size} (positive : 0 < size) :
    (array.write 0 [0]).string = [] := by
  rw [string, bytes_write (by rw [List.length_singleton]; omega), List.take_zero, List.nil_append]
  exact cstring_append_nul (List.not_mem_nil) _

/-- The array begins with these bytes. -/
def Holds (array : CharArray size) (front : List UInt8) : Prop :=
  array.bytes.take front.length = front

theorem holds_nil (array : CharArray size) : array.Holds [] := List.take_zero

/-- Writing where the known bytes end makes more of them known. -/
theorem Holds.write {array : CharArray size} {front bytes : List UInt8} {offset : Nat}
    (held : array.Holds front) (behind : offset = front.length)
    (fits : offset + bytes.length ≤ size) : (array.write offset bytes).Holds (front ++ bytes) := by
  unfold Holds at held ⊢
  rw [bytes_write fits, behind, held, ← List.append_assoc, List.take_left]

/-- An array that begins with as many bytes as are wanted. -/
theorem Holds.take_bytes {array : CharArray size} {front : List UInt8} (held : array.Holds front)
    {count : Nat} (enough : count ≤ front.length) : array.bytes.take count = front.take count := by
  rw [← held, List.take_take, Nat.min_eq_left enough]

/-- A text was written from the start of an array on, and the rest is as it was. -/
def Begun (array start : CharArray size) (text : List UInt8) : Prop :=
  array.bytes = text ++ start.bytes.drop text.length

theorem begun_nil (array : CharArray size) : array.Begun array [] := rfl

/-- One byte more. -/
theorem Begun.write {array start : CharArray size} {text : List UInt8}
    (begun : array.Begun start text) (room : text.length < size) (byte : UInt8) :
    (array.write text.length [byte]).Begun start (text ++ [byte]) := by
  unfold Begun at begun ⊢
  have fits : text.length + [byte].length ≤ size := room
  rw [bytes_write fits, begun, List.take_left, ← List.drop_drop, List.drop_left, List.drop_drop,
    List.length_append, List.append_assoc]

/-- The string in an array where a text was written and ended. -/
theorem Begun.string {array start : CharArray size} {text : List UInt8}
    (begun : array.Begun start (text ++ [0])) (nulFree : NulFree text) (behind : List UInt8) :
    cstring (array.bytes ++ behind) = text := by
  unfold Begun at begun
  rw [begun, List.append_assoc, List.append_assoc]
  exact cstring_append_nul nulFree _

end CharArray

end Foundation
