import Ndmpd.Foundation.CharArray
import Mathlib.Logic.Function.Basic

/-!
# Names in a shared memory

A table of names is an array of bytes with an offset for each name. The names stand in
front of a limit, each with its NUL (`Named`). A name that is copied to the limit
leaves those in front of it alone (`Named.append`), so all of them can still be read
(`Named.read`).
-/

namespace Foundation

namespace CharArray

variable {size : Nat}

/-- The C string at an offset of an array. -/
def stringAt (array : CharArray size) (offset : Nat) : List UInt8 :=
  cstring (array.bytes.drop offset)

/-- Copy a string to an offset of an array, cut so that with its NUL it takes no more
than `bound` bytes. -/
def strlcpyAt (array : CharArray size) (offset : Nat) (text : List UInt8) (bound : Nat) :
    CharArray size :=
  array.write offset (text.take (bound - 1) ++ [0])

/-- What stands in front of a write is not touched. -/
theorem prefix_drop_write {array : CharArray size} {offset place : Nat}
    {held bytes : List UInt8} (fits : offset + bytes.length ≤ size)
    (before : place + held.length ≤ offset) (there : held <+: array.bytes.drop place) :
    held <+: (array.write offset bytes).bytes.drop place := by
  have front : (array.bytes.take offset).length = offset := by
    rw [List.length_take, length_bytes]
    omega
  rw [bytes_write fits, List.drop_append_of_le_length (by omega), List.drop_take]
  apply List.IsPrefix.trans _ (List.prefix_append _ _)
  exact List.prefix_take_iff.mpr ⟨there, by omega⟩

/-- A string that was copied into an array stands there with its NUL. -/
theorem prefix_drop_strlcpyAt {array : CharArray size} {offset bound : Nat} {text : List UInt8}
    (fits : offset + text.length + 1 ≤ size) (short : text.length < bound) :
    text ++ [0] <+: (array.strlcpyAt offset text bound).bytes.drop offset := by
  have whole : text.take (bound - 1) = text := List.take_of_length_le (by omega)
  have front : (array.bytes.take offset).length = offset := by
    rw [List.length_take, length_bytes]
    omega
  have room : offset + (text ++ [0]).length ≤ size := by
    rw [List.length_append, List.length_singleton]
    omega
  rw [strlcpyAt, whole, bytes_write room, List.drop_left' front]
  exact List.prefix_append _ _

/-- What stands in an array with its NUL is read from there. -/
theorem stringAt_of_prefix {array : CharArray size} {offset : Nat} {text : List UInt8}
    (nulFree : NulFree text) (there : text ++ [0] <+: array.bytes.drop offset) :
    array.stringAt offset = text := by
  obtain ⟨rest, whole⟩ := there
  rw [stringAt, ← whole, List.append_assoc]
  exact cstring_append_nul nulFree rest

end CharArray

variable {size : Nat} {array : CharArray size} {offsets : Nat → Nat} {limit : Nat}
  {names : List (List UInt8)}

/-- The names stand with their NULs at their offsets, in front of the limit. -/
def Named (array : CharArray size) (offsets : Nat → Nat) (limit : Nat)
    (names : List (List UInt8)) : Prop :=
  ∀ place (inside : place < names.length),
    offsets place + (names[place].length + 1) ≤ limit ∧
      names[place] ++ [0] <+: array.bytes.drop (offsets place)

theorem Named.nil : Named array offsets limit [] := by
  intro place inside
  exact absurd inside (Nat.not_lt_zero place)

/-- A name of the table is read back. -/
theorem Named.read (named : Named array offsets limit names) {place : Nat}
    (inside : place < names.length) (nulFree : NulFree names[place]) :
    array.stringAt (offsets place) = names[place] :=
  CharArray.stringAt_of_prefix nulFree (named place inside).2

/-- A name that is copied to the limit joins the table. -/
theorem Named.append (named : Named array offsets limit names) {name : List UInt8}
    {bound next : Nat} (fits : limit + name.length + 1 ≤ size) (short : name.length < bound)
    (further : limit + name.length + 1 ≤ next) :
    Named (array.strlcpyAt limit name bound) (Function.update offsets names.length limit) next
      (names ++ [name]) := by
  intro place inside
  rw [List.length_append, List.length_singleton] at inside
  rcases Nat.lt_succ_iff_lt_or_eq.mp inside with earlier | rfl
  · obtain ⟨before, there⟩ := named place earlier
    have whole : name.take (bound - 1) = name := List.take_of_length_le (by omega)
    have room : limit + (name ++ [0]).length ≤ size := by
      rw [List.length_append, List.length_singleton]
      omega
    rw [List.getElem_append_left earlier, Function.update_of_ne (Nat.ne_of_lt earlier)]
    constructor
    · omega
    · rw [CharArray.strlcpyAt, whole]
      apply CharArray.prefix_drop_write room _ there
      rwa [List.length_append, List.length_singleton]
  · rw [List.getElem_concat_length rfl, Function.update_self]
    exact ⟨by omega, CharArray.prefix_drop_strlcpyAt fits short⟩

end Foundation
