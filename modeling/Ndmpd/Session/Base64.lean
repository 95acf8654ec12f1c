import Ndmpd.Foundation.CharArray
import Ndmpd.Foundation.Gathered

/-!
# Base64

`ndmp_base64_encode` and `ndmp_base64_decode`. Both gather characters into a group that is
regrouped bit by bit when it is full, and treat a last group that is not full apart. A `char`
is signed, but what of it survives the masks is the same for either sign.

The table of the decoder has no terminator. In the last group it is searched for characters
of value 0, which are found in the memory behind it. No bit of what is found there gets into
the result, so that a string of up to 255 characters is decoded to what was encoded
(`ndmpBase64Decode_encode`).
-/

namespace Ndmpd

open Foundation

/-- `NDMP_ENC_LEN`. -/
abbrev ndmpEncLen : Nat := 1024

/-- `NDMP_DEC_LEN`. -/
abbrev ndmpDecLen : Nat := 256

namespace Base64

/-- `b64_data`. -/
def b64Data : List UInt8 :=
  "ABCDEFGHIJKLMNOPQRSTUVWXYZabcdefghijklmnopqrstuvwxyz0123456789+/".toUTF8.toList

/-- `=`. -/
abbrev pad : UInt8 := 61

/-- `isalnum(3)`. -/
def isalnum (c : UInt8) : Bool :=
  (48 ≤ c && c ≤ 57) || (65 ≤ c && c ≤ 90) || (97 ≤ c && c ≤ 122)

/-- `ndmp_is_base64`. -/
def ndmpIsBase64 (c : UInt8) : Bool := isalnum c || c == 43 || c == 47

/-- The `int` that a `char` is promoted to. -/
def intOf (c : UInt8) : BitVec 32 := c.toBitVec.signExtend 32

/-- The `char` that an `int` is stored in. -/
def charOf (value : BitVec 32) : UInt8 := ⟨value.setWidth 8⟩

/-! ## Encoding -/

/-- `arr_4`, computed from `arr_3`. The characters that a group lacks are `'\0'`. -/
def encodeGroup (arr3 : List UInt8) : List UInt8 :=
  let a := arr3.getD 0 0
  let b := arr3.getD 1 0
  let c := arr3.getD 2 0
  [charOf ((intOf a &&& 0xfc).sshiftRight 2),
    charOf (((intOf a &&& 0x03) <<< 4) + (intOf b &&& 0xf0).sshiftRight 4),
    charOf (((intOf b &&& 0x0f) <<< 2) + (intOf c &&& 0xc0).sshiftRight 6),
    charOf (intOf c &&& 0x3f)]

/-- `b64_data[(unsigned char)c]`. -/
def b64Char (c : UInt8) : UInt8 := b64Data.getD c.toNat 0

/-- The body of the loop for a full group. -/
def encodeFull (ret arr3 : List UInt8) : List UInt8 := ret ++ (encodeGroup arr3).map b64Char

/-- What stands behind the loop: a group that is not full, filled up with `=`. -/
def encodeRest (ret arr3 : List UInt8) : List UInt8 :=
  if arr3 = [] then ret
  else
    ret ++ ((encodeGroup arr3).take (arr3.length + 1)).map b64Char ++
      List.replicate (3 - arr3.length) pad

/-- What `ndmp_base64_encode` writes. Every write goes to `ret[ret_cnt++]`. The length of the
string is kept in an `int`. -/
def encodeWrites (text : List UInt8) : List UInt8 :=
  let gathered := gather 3 encodeFull [] [] (text.take (text.length % 2 ^ 32))
  encodeRest gathered.1 gathered.2 ++ [0]

/-! ## Decoding -/

/-- `strchr(3)`, whose result is an index into the memory. The NUL at the end of the string is
found as well. -/
def strchr (memory : List UInt8) (c : UInt8) : Option Nat :=
  let text := cstring memory
  if c = 0 then some text.length
  else if c ∈ text then some (text.idxOf c)
  else none

/-- `arr_4` after its characters were looked up in `b64_data`. `beyond` is the memory behind
the table. -/
def lookups (beyond arr4 : List UInt8) : Option (List UInt8) :=
  arr4.mapM fun c => (strchr (b64Data ++ beyond) c).map UInt8.ofNat

/-- `arr_3`, computed from `arr_4`. -/
def decodeGroup (arr4 : List UInt8) : List UInt8 :=
  let p := arr4.getD 0 0
  let q := arr4.getD 1 0
  let r := arr4.getD 2 0
  let s := arr4.getD 3 0
  [charOf ((intOf p <<< 2) + (intOf q &&& 0x30).sshiftRight 4),
    charOf (((intOf q &&& 0xf) <<< 4) + (intOf r &&& 0x3c).sshiftRight 2),
    charOf (((intOf r &&& 0x3) <<< 6) + intOf s)]

/-- The body of the loop for a full group. A character that is not found ends the function
with `NULL`. -/
def decodeFull (beyond : List UInt8) (ret : Option (List UInt8)) (arr4 : List UInt8) :
    Option (List UInt8) :=
  match ret, lookups beyond arr4 with
  | some ret, some arr4 => some (ret ++ decodeGroup arr4)
  | _, _ => none

/-- What stands behind the loop: a group that is not full, filled up with `'\0'`. -/
def decodeRest (beyond : List UInt8) (ret : Option (List UInt8)) (arr4 : List UInt8) :
    Option (List UInt8) :=
  if arr4 = [] then ret
  else
    match ret, lookups beyond (arr4 ++ List.replicate (4 - arr4.length) 0) with
    | some ret, some found => some (ret ++ (decodeGroup found).take (arr4.length - 1))
    | _, _ => none

/-- The condition of the loop on the next character. -/
def goesOn (c : UInt8) : Bool := c ≠ pad && ndmpIsBase64 c

/-- What `ndmp_base64_decode` writes, or `none` where it returns `NULL`. The loop ends before
the first character that is no digit of base 64. -/
def decodeWrites (beyond encoded : List UInt8) : Option (List UInt8) :=
  let digits := (encoded.take (encoded.length % 2 ^ 32)).takeWhile goesOn
  let gathered := gather 4 (decodeFull beyond) (some []) [] digits
  (decodeRest beyond gathered.1 gathered.2).map (· ++ [0])

/-! ## The buffers -/

/-- A buffer that is returned, and whether something was written outside of it. -/
structure Returned (size : Nat) where
  memory : CharArray size
  outside : Bool

namespace Returned

variable {size : Nat}

/-- The buffer after writes from its start on. -/
def of (ret : CharArray size) (writes : List UInt8) : Returned size where
  memory := ret.write 0 writes
  outside := size < writes.length

/-- The string in the buffer. -/
def string (returned : Returned size) : List UInt8 := returned.memory.string

end Returned

end Base64

/-- `ndmp_base64_encode`, given what `malloc(3)` returns. -/
def ndmpBase64Encode (ret : Option (CharArray ndmpEncLen)) (strToEncode : List UInt8) :
    Option (Base64.Returned ndmpEncLen) :=
  ret.map fun ret => .of ret (Base64.encodeWrites strToEncode)

/-- `ndmp_base64_decode`, given what `malloc(3)` returns. -/
def ndmpBase64Decode (beyond : List UInt8) (ret : Option (CharArray ndmpDecLen))
    (encodedStr : List UInt8) : Option (Base64.Returned ndmpDecLen) :=
  ret.bind fun ret => (Base64.decodeWrites beyond encodedStr).map (.of ret)

namespace Base64

/-! ## Bits -/

theorem intOf_toNat_mod (c : UInt8) : (intOf c).toNat % 2 ^ 8 = c.toNat := by
  have small := c.toNat_lt
  have plain : c.toBitVec.toNat = c.toNat := rfl
  rw [intOf, BitVec.toNat_signExtend, BitVec.toNat_setWidth, plain]
  split <;> omega

/-- The bits of a `char` from a place on, cut out and moved to the right. -/
theorem bits_right (c : UInt8) (shift width : Nat) (inside : shift + width ≤ 8) :
    ((intOf c &&& BitVec.ofNat 32 ((2 ^ width - 1) * 2 ^ shift)).sshiftRight shift).toNat =
      c.toNat / 2 ^ shift % 2 ^ width := by
  have mask : (2 ^ width - 1) * 2 ^ shift < 2 ^ 8 := by
    calc (2 ^ width - 1) * 2 ^ shift
      _ < 2 ^ width * 2 ^ shift :=
        Nat.mul_lt_mul_of_pos_right (Nat.sub_one_lt_of_lt (Nat.two_pow_pos _)) (Nat.two_pow_pos _)
      _ = 2 ^ (shift + width) := by rw [Nat.pow_add, Nat.mul_comm]
      _ ≤ 2 ^ 8 := Nat.pow_le_pow_right (by decide) inside
  have cut : (intOf c &&& BitVec.ofNat 32 ((2 ^ width - 1) * 2 ^ shift)).toNat =
      (intOf c).toNat &&& (2 ^ width - 1) <<< shift := by
    rw [BitVec.toNat_and, BitVec.toNat_ofNat, Nat.mod_eq_of_lt (by omega), Nat.shiftLeft_eq]
  have positive : (intOf c &&& BitVec.ofNat 32 ((2 ^ width - 1) * 2 ^ shift)).msb = false := by
    rw [BitVec.msb_eq_false_iff_two_mul_lt, cut]
    have bound := @Nat.and_le_right (intOf c).toNat ((2 ^ width - 1) <<< shift)
    rw [Nat.shiftLeft_eq] at bound ⊢
    omega
  calc ((intOf c &&& BitVec.ofNat 32 ((2 ^ width - 1) * 2 ^ shift)).sshiftRight shift).toNat
    _ = ((intOf c).toNat &&& (2 ^ width - 1) <<< shift) >>> shift := by
      rw [BitVec.sshiftRight_eq_of_msb_false positive, BitVec.toNat_ushiftRight, cut]
    _ = (intOf c).toNat / 2 ^ shift % 2 ^ width := by
      rw [Nat.shiftRight_and_distrib, Nat.shiftLeft_shiftRight, Nat.and_two_pow_sub_one_eq_mod,
        Nat.shiftRight_eq_div_pow]
    _ = c.toNat / 2 ^ shift % 2 ^ width := by
      rw [← intOf_toNat_mod c, ← Nat.mod_mul_right_div_self, ← Nat.mod_mul_right_div_self,
        ← Nat.pow_add, Nat.mod_mod_of_dvd _ (Nat.pow_dvd_pow 2 inside)]

/-- The low bits of a `char`, cut out and moved to the left. -/
theorem bits_left (c : UInt8) (width shift : Nat) (inside : width + shift ≤ 8) :
    ((intOf c &&& BitVec.ofNat 32 (2 ^ width - 1)) <<< shift).toNat =
      c.toNat % 2 ^ width * 2 ^ shift := by
  have room : 2 ^ (width + shift) ≤ 2 ^ 8 := Nat.pow_le_pow_right (by decide) inside
  have mask : 2 ^ width ≤ 2 ^ 8 := Nat.pow_le_pow_right (by decide) (by omega)
  have cut : (intOf c &&& BitVec.ofNat 32 (2 ^ width - 1)).toNat = c.toNat % 2 ^ width := by
    rw [BitVec.toNat_and, BitVec.toNat_ofNat, Nat.mod_eq_of_lt (by omega),
      Nat.and_two_pow_sub_one_eq_mod, ← intOf_toNat_mod c,
      Nat.mod_mod_of_dvd _ (Nat.pow_dvd_pow 2 (by omega))]
  have small : c.toNat % 2 ^ width * 2 ^ shift < 2 ^ (width + shift) := by
    rw [Nat.pow_add]
    exact Nat.mul_lt_mul_of_pos_right (Nat.mod_lt _ (Nat.two_pow_pos _)) (Nat.two_pow_pos _)
  rw [BitVec.toNat_shiftLeft, cut, Nat.shiftLeft_eq, Nat.mod_eq_of_lt (by omega)]

theorem charOf_toNat (value : BitVec 32) : (charOf value).toNat = value.toNat % 256 := rfl

theorem charOf_add_toNat (first second : BitVec 32) :
    (charOf (first + second)).toNat = (first.toNat + second.toNat) % 256 := by
  rw [charOf_toNat, BitVec.toNat_add]
  omega

/-! ## One group -/

theorem arr4_zero (a : UInt8) :
    (charOf ((intOf a &&& 0xfc).sshiftRight 2)).toNat = a.toNat / 4 := by
  have small := a.toNat_lt
  have high := bits_right a 2 6 (by decide)
  rw [charOf_toNat]
  change ((intOf a &&& 0xfc).sshiftRight 2).toNat = _ at high
  omega

theorem arr4_one (a b : UInt8) :
    (charOf (((intOf a &&& 0x03) <<< 4) + (intOf b &&& 0xf0).sshiftRight 4)).toNat =
      a.toNat % 4 * 16 + b.toNat / 16 := by
  have small := b.toNat_lt
  have low := bits_left a 2 4 (by decide)
  have high := bits_right b 4 4 (by decide)
  rw [charOf_add_toNat]
  change ((intOf a &&& 0x03) <<< 4).toNat = _ at low
  change ((intOf b &&& 0xf0).sshiftRight 4).toNat = _ at high
  omega

theorem arr4_two (b c : UInt8) :
    (charOf (((intOf b &&& 0x0f) <<< 2) + (intOf c &&& 0xc0).sshiftRight 6)).toNat =
      b.toNat % 16 * 4 + c.toNat / 64 := by
  have small := c.toNat_lt
  have low := bits_left b 4 2 (by decide)
  have high := bits_right c 6 2 (by decide)
  rw [charOf_add_toNat]
  change ((intOf b &&& 0x0f) <<< 2).toNat = _ at low
  change ((intOf c &&& 0xc0).sshiftRight 6).toNat = _ at high
  omega

theorem arr4_three (c : UInt8) : (charOf (intOf c &&& 0x3f)).toNat = c.toNat % 64 := by
  have low := bits_left c 6 0 (by decide)
  rw [BitVec.shiftLeft_zero] at low
  rw [charOf_toNat]
  change (intOf c &&& 0x3f).toNat = _ at low
  omega

variable {a b c p q r s : UInt8}

/-- The first byte is put together from the first two characters. -/
theorem arr3_zero (first : p.toNat = a.toNat / 4)
    (second : q.toNat = a.toNat % 4 * 16 + b.toNat / 16) :
    charOf ((intOf p <<< 2) + (intOf q &&& 0x30).sshiftRight 4) = a := by
  have small := a.toNat_lt
  have other := b.toNat_lt
  have whole := intOf_toNat_mod p
  have high := bits_right q 4 2 (by decide)
  change ((intOf q &&& 0x30).sshiftRight 4).toNat = _ at high
  apply UInt8.toNat_inj.mp
  rw [charOf_add_toNat, BitVec.toNat_shiftLeft, Nat.shiftLeft_eq, high]
  omega

/-- The second byte is put together from the second and the third character. -/
theorem arr3_one (second : q.toNat = a.toNat % 4 * 16 + b.toNat / 16)
    (third : r.toNat = b.toNat % 16 * 4 + c.toNat / 64) :
    charOf (((intOf q &&& 0xf) <<< 4) + (intOf r &&& 0x3c).sshiftRight 2) = b := by
  have small := b.toNat_lt
  have other := c.toNat_lt
  have low := bits_left q 4 4 (by decide)
  have high := bits_right r 2 4 (by decide)
  change ((intOf q &&& 0xf) <<< 4).toNat = _ at low
  change ((intOf r &&& 0x3c).sshiftRight 2).toNat = _ at high
  apply UInt8.toNat_inj.mp
  rw [charOf_add_toNat, low, high]
  omega

/-- The third byte is put together from the last two characters. -/
theorem arr3_two (third : r.toNat = b.toNat % 16 * 4 + c.toNat / 64)
    (fourth : s.toNat = c.toNat % 64) :
    charOf (((intOf r &&& 0x3) <<< 6) + intOf s) = c := by
  have small := c.toNat_lt
  have whole := intOf_toNat_mod s
  have low := bits_left r 2 6 (by decide)
  change ((intOf r &&& 0x3) <<< 6).toNat = _ at low
  apply UInt8.toNat_inj.mp
  rw [charOf_add_toNat, low]
  omega

/-- Regrouping there and back. A group of one or two bytes is got back from the characters that
were written for it, whatever stands behind them. -/
theorem decodeGroup_take {arr3 : List UInt8} (short : arr3.length ≤ 3) (behind : List UInt8) :
    (decodeGroup ((encodeGroup arr3).take (arr3.length + 1) ++ behind)).take arr3.length =
      arr3 := by
  obtain _ | ⟨a, _ | ⟨b, _ | ⟨c, _ | ⟨d, more⟩⟩⟩⟩ := arr3
  · rfl
  · exact congrArg (fun byte => [byte]) (arr3_zero (arr4_zero a) (arr4_one a 0))
  · exact congrArg₂ (fun first second => [first, second])
      (arr3_zero (arr4_zero a) (arr4_one a b)) (arr3_one (arr4_one a b) (arr4_two b 0))
  · have first := arr3_zero (arr4_zero a) (arr4_one a b)
    have second := arr3_one (arr4_one a b) (arr4_two b c)
    have third := arr3_two (arr4_two b c) (arr4_three c)
    exact List.cons_eq_cons.mpr ⟨first, congrArg₂ (fun byte last => [byte, last]) second third⟩
  · simp only [List.length_cons] at short
    omega

/-! ## The table -/

/-- The characters of a group are numbers of entries of the table. -/
theorem encodeGroup_lt {arr3 : List UInt8} {value : UInt8} (listed : value ∈ encodeGroup arr3) :
    value.toNat < 64 := by
  have first := (arr3.getD 0 0).toNat_lt
  have second := (arr3.getD 1 0).toNat_lt
  have third := (arr3.getD 2 0).toNat_lt
  unfold encodeGroup at listed
  simp only [List.mem_cons, List.not_mem_nil, or_false] at listed
  rcases listed with rfl | rfl | rfl | rfl
  · rw [arr4_zero]
    omega
  · rw [arr4_one]
    omega
  · rw [arr4_two]
    omega
  · rw [arr4_three]
    omega

theorem length_encodeGroup (arr3 : List UInt8) : (encodeGroup arr3).length = 4 := rfl

/-- Each entry of the table is a digit, is not `=`, and is found at its own place. -/
theorem b64Data_entries : ∀ n : Fin 64, b64Data.getD n 0 ≠ pad ∧
    ndmpIsBase64 (b64Data.getD n 0) = true ∧ b64Data.getD n 0 ≠ 0 ∧
      b64Data.getD n 0 ∈ b64Data ∧ b64Data.idxOf (b64Data.getD n 0) = n := by
  decide +kernel

theorem b64Data_nulFree : NulFree b64Data := by
  decide +kernel

theorem cstring_b64Data (beyond : List UInt8) :
    cstring (b64Data ++ beyond) = b64Data ++ cstring beyond := by
  have run : ∀ byte ∈ b64Data, decide (byte ≠ 0) = true := by
    intro byte listed
    rw [decide_eq_true_eq]
    rintro rfl
    exact b64Data_nulFree listed
  exact List.takeWhile_append_of_pos run

/-- A character of the table is looked up as the number it was written for. -/
theorem strchr_b64Char (beyond : List UInt8) {value : UInt8} (entry : value.toNat < 64) :
    strchr (b64Data ++ beyond) (b64Char value) = some value.toNat := by
  obtain ⟨-, -, nonzero, listed, found⟩ := b64Data_entries ⟨value.toNat, entry⟩
  unfold strchr b64Char
  dsimp only at nonzero listed found ⊢
  rw [cstring_b64Data, if_neg nonzero, if_pos (List.mem_append_left _ listed),
    List.idxOf_append_of_mem listed, found]

theorem lookups_cons {beyond rest found : List UInt8} {c : UInt8} {index : Nat}
    (here : strchr (b64Data ++ beyond) c = some index) (others : lookups beyond rest = some found) :
    lookups beyond (c :: rest) = some (UInt8.ofNat index :: found) := by
  unfold lookups at others ⊢
  rw [List.mapM_cons, here, others]
  rfl

theorem lookups_map (beyond : List UInt8) {values : List UInt8}
    (entries : ∀ value ∈ values, value.toNat < 64) :
    lookups beyond (values.map b64Char) = some values := by
  induction values with
  | nil => rfl
  | cons value values ih =>
      have here := strchr_b64Char beyond (entries value List.mem_cons_self)
      have others := ih fun other listed => entries other (List.mem_cons_of_mem _ listed)
      rw [List.map_cons, lookups_cons here others, UInt8.ofNat_toNat]

/-- Characters of value 0 are always found, somewhere behind the table. -/
theorem lookups_zeros (beyond : List UInt8) (count : Nat) :
    ∃ found, lookups beyond (List.replicate count 0) = some found := by
  induction count with
  | zero => exact ⟨[], rfl⟩
  | succ count ih =>
      obtain ⟨found, others⟩ := ih
      exact ⟨_, lookups_cons rfl others⟩

theorem lookups_append {beyond first second found behind : List UInt8}
    (front : lookups beyond first = some found) (back : lookups beyond second = some behind) :
    lookups beyond (first ++ second) = some (found ++ behind) := by
  unfold lookups at front back ⊢
  rw [List.mapM_append, front, back]
  rfl

/-! ## Whole texts -/

/-- The characters for a full group. -/
def fullChars (arr3 : List UInt8) : List UInt8 := (encodeGroup arr3).map b64Char

/-- The characters for a group that is not full, without the `=` behind them. -/
def restChars (arr3 : List UInt8) : List UInt8 :=
  if arr3 = [] then [] else ((encodeGroup arr3).take (arr3.length + 1)).map b64Char

theorem length_restChars_le (arr3 : List UInt8) : (restChars arr3).length ≤ arr3.length + 1 := by
  unfold restChars
  split
  · exact Nat.zero_le _
  · rw [List.length_map, List.length_take]
    exact Nat.min_le_left _ _

theorem foldl_encodeFull (groups : List (List UInt8)) (ret : List UInt8) :
    groups.foldl encodeFull ret = ret ++ (groups.map fullChars).flatten := by
  induction groups generalizing ret with
  | nil => rw [List.map_nil, List.flatten_nil, List.append_nil, List.foldl_nil]
  | cons group groups ih =>
      rw [List.foldl_cons, ih, List.map_cons, List.flatten_cons, ← List.append_assoc]
      rfl

theorem encodeRest_eq (ret arr3 : List UInt8) : encodeRest ret arr3 =
    ret ++ restChars arr3 ++ List.replicate (if arr3 = [] then 0 else 3 - arr3.length) pad := by
  unfold encodeRest restChars
  split
  · simp
  · rfl

/-- The encoded text of full groups and a rest. -/
theorem encodeWrites_eq {groups : List (List UInt8)} {rest : List UInt8}
    (full : ∀ group ∈ groups, group.length = 3) (short : rest.length < 3)
    (ordinary : (groups.flatten ++ rest).length < 2 ^ 32) :
    encodeWrites (groups.flatten ++ rest) = (groups.map fullChars).flatten ++ restChars rest ++
      List.replicate (if rest = [] then 0 else 3 - rest.length) pad ++ [0] := by
  unfold encodeWrites
  dsimp only
  rw [Nat.mod_eq_of_lt ordinary, List.take_length, gather_flatten full short, encodeRest_eq,
    foldl_encodeFull, List.nil_append]

theorem decodeFull_fullChars (beyond ret : List UInt8) {arr3 : List UInt8}
    (full : arr3.length = 3) :
    decodeFull beyond (some ret) (fullChars arr3) = some (ret ++ arr3) := by
  have back := @decodeGroup_take arr3 (by omega) []
  have whole : (encodeGroup arr3).take (arr3.length + 1) = encodeGroup arr3 :=
    List.take_of_length_le (by rw [full, length_encodeGroup])
  have three : (decodeGroup (encodeGroup arr3)).take arr3.length =
      decodeGroup (encodeGroup arr3) := List.take_of_length_le (by rw [full]; rfl)
  rw [whole, List.append_nil, three] at back
  unfold decodeFull fullChars
  rw [lookups_map beyond fun value listed => encodeGroup_lt listed]
  dsimp only
  rw [back]

theorem foldl_decodeFull (beyond : List UInt8) {groups : List (List UInt8)}
    (full : ∀ group ∈ groups, group.length = 3) (ret : List UInt8) :
    (groups.map fullChars).foldl (decodeFull beyond) (some ret) =
      some (ret ++ groups.flatten) := by
  induction groups generalizing ret with
  | nil => rw [List.map_nil, List.foldl_nil, List.flatten_nil, List.append_nil]
  | cons group groups ih =>
      rw [List.map_cons, List.foldl_cons,
        decodeFull_fullChars beyond ret (full group List.mem_cons_self),
        ih fun other listed => full other (List.mem_cons_of_mem _ listed), List.flatten_cons,
        List.append_assoc]

/-- The last group is decoded without what is found for the characters that it lacks. -/
theorem decodeRest_restChars (beyond ret : List UInt8) {arr3 : List UInt8}
    (short : arr3.length < 3) :
    decodeRest beyond (some ret) (restChars arr3) = some (ret ++ arr3) := by
  unfold decodeRest restChars
  by_cases empty : arr3 = []
  · rw [if_pos empty, if_pos rfl, empty, List.append_nil]
  · have positive := List.length_pos_iff.mpr empty
    rw [if_neg empty]
    have chars : (((encodeGroup arr3).take (arr3.length + 1)).map b64Char).length =
        arr3.length + 1 := by
      rw [List.length_map, List.length_take, length_encodeGroup]
      omega
    have visible : ((encodeGroup arr3).take (arr3.length + 1)).map b64Char ≠ [] := by
      intro none
      rw [none, List.length_nil] at chars
      omega
    obtain ⟨behind, zeros⟩ := lookups_zeros beyond (4 - (arr3.length + 1))
    have front := @lookups_map beyond ((encodeGroup arr3).take (arr3.length + 1))
      fun value listed => encodeGroup_lt (List.mem_of_mem_take listed)
    rw [if_neg visible, chars, lookups_append front zeros]
    dsimp only
    rw [Nat.add_sub_cancel, decodeGroup_take (by omega)]

theorem b64Char_goesOn {value : UInt8} (entry : value.toNat < 64) :
    goesOn (b64Char value) = true ∧ b64Char value ≠ 0 := by
  obtain ⟨other, digit, nonzero, -⟩ := b64Data_entries ⟨value.toNat, entry⟩
  unfold goesOn b64Char
  dsimp only at other digit nonzero ⊢
  rw [digit, Bool.and_true, decide_eq_true_eq]
  exact ⟨other, nonzero⟩

/-- All characters in front of the `=` are digits. -/
theorem chars_goOn {groups : List (List UInt8)} {rest : List UInt8} {c : UInt8}
    (listed : c ∈ (groups.map fullChars).flatten ++ restChars rest) :
    goesOn c = true ∧ c ≠ 0 := by
  rcases List.mem_append.mp listed with early | late
  · obtain ⟨chars, listedChars, isChar⟩ := List.mem_flatten.mp early
    obtain ⟨group, -, rfl⟩ := List.mem_map.mp listedChars
    obtain ⟨value, listedValue, rfl⟩ := List.mem_map.mp isChar
    exact b64Char_goesOn (encodeGroup_lt listedValue)
  · unfold restChars at late
    split at late
    · exact absurd late List.not_mem_nil
    · obtain ⟨value, listedValue, rfl⟩ := List.mem_map.mp late
      exact b64Char_goesOn (encodeGroup_lt (List.mem_of_mem_take listedValue))

/-- What the decoder writes for an encoded text. -/
theorem decodeWrites_eq (beyond : List UInt8) {groups : List (List UInt8)} {rest : List UInt8}
    (full : ∀ group ∈ groups, group.length = 3) (short : rest.length < 3) {count : Nat}
    (ordinary : ((groups.map fullChars).flatten ++ restChars rest ++
      List.replicate count pad).length < 2 ^ 32) :
    decodeWrites beyond ((groups.map fullChars).flatten ++ restChars rest ++
      List.replicate count pad) = some (groups.flatten ++ rest ++ [0]) := by
  have digits : ((groups.map fullChars).flatten ++ restChars rest ++
      List.replicate count pad).takeWhile goesOn =
        (groups.map fullChars).flatten ++ restChars rest := by
    rw [List.takeWhile_append_of_pos fun c listed => (chars_goOn listed).1]
    cases count with
    | zero => rw [List.replicate_zero, List.takeWhile_nil, List.append_nil]
    | succ count =>
        rw [List.replicate_succ, List.takeWhile_cons_of_neg (by decide), List.append_nil]
  have fullFour : ∀ chars ∈ groups.map fullChars, chars.length = 4 := by
    intro chars listed
    obtain ⟨group, -, rfl⟩ := List.mem_map.mp listed
    rw [fullChars, List.length_map, length_encodeGroup]
  have shortFour : (restChars rest).length < 4 := by
    have bound := length_restChars_le rest
    omega
  unfold decodeWrites
  dsimp only
  rw [Nat.mod_eq_of_lt ordinary, List.take_length]
  rw [digits, gather_flatten fullFour shortFour, foldl_decodeFull beyond full,
    decodeRest_restChars beyond _ short, List.nil_append]
  rfl

/-- A string that was written into a buffer with room for it. -/
theorem Returned.of_string {size : Nat} (ret : CharArray size) {text : List UInt8}
    (nulFree : NulFree text) (fits : text.length < size) :
    (Returned.of ret (text ++ [0])).string = text ∧
      (Returned.of ret (text ++ [0])).outside = false := by
  have room : 0 + (text ++ [0]).length ≤ size := by
    rw [List.length_append, List.length_singleton]
    omega
  refine ⟨?_, decide_eq_false (by omega)⟩
  change (ret.write 0 (text ++ [0])).string = text
  rw [CharArray.string, CharArray.bytes_write room, List.take_zero, List.nil_append,
    List.append_assoc]
  exact cstring_append_nul nulFree _

end Base64

/-- A string of up to 255 characters is decoded to what was encoded, and neither function
writes outside of its buffer. -/
theorem ndmpBase64Decode_encode (beyond : List UInt8) (encRet : CharArray ndmpEncLen)
    (decRet : CharArray ndmpDecLen) {text : List UInt8} (nulFree : NulFree text)
    (short : text.length ≤ 255) :
    ∃ encoded decoded, ndmpBase64Encode (some encRet) text = some encoded ∧
      ndmpBase64Decode beyond (some decRet) encoded.string = some decoded ∧
        decoded.string = text ∧ encoded.outside = false ∧ decoded.outside = false := by
  obtain ⟨groups, rest, rfl, full, shortRest⟩ := exists_groups (show 0 < 3 by decide) text
  have size := length_flatten_groups full
  have sizeFour : ((groups.map Base64.fullChars).flatten).length = 4 * groups.length := by
    rw [← List.length_map Base64.fullChars]
    apply length_flatten_groups
    intro chars listed
    obtain ⟨group, -, rfl⟩ := List.mem_map.mp listed
    rw [Base64.fullChars, List.length_map, Base64.length_encodeGroup]
  have bound := Base64.length_restChars_le rest
  rw [List.length_append] at short
  generalize padding : (if rest = [] then 0 else 3 - rest.length) = count
  have few : count ≤ 2 := by
    rw [← padding]
    split
    · exact Nat.zero_le _
    · have positive := List.length_pos_iff.mpr ‹rest ≠ []›
      omega
  have length : ((groups.map Base64.fullChars).flatten ++ Base64.restChars rest ++
      List.replicate count Base64.pad).length < ndmpEncLen := by
    have limit : ndmpEncLen = 1024 := rfl
    rw [List.length_append, List.length_append, List.length_replicate, sizeFour]
    omega
  have visible : NulFree ((groups.map Base64.fullChars).flatten ++ Base64.restChars rest ++
      List.replicate count Base64.pad) := by
    intro listed
    rcases List.mem_append.mp listed with digit | isPad
    · exact (Base64.chars_goOn digit).2 rfl
    · exact absurd (List.eq_of_mem_replicate isPad) (by decide)
  have encodes := Base64.encodeWrites_eq full shortRest (by rw [List.length_append]; omega)
  rw [padding] at encodes
  have decodes := @Base64.decodeWrites_eq beyond _ _ full shortRest count
    (length.trans (by decide))
  obtain ⟨encString, encInside⟩ := Base64.Returned.of_string encRet visible length
  obtain ⟨decString, decInside⟩ := Base64.Returned.of_string decRet nulFree
    (by rw [List.length_append]; exact Nat.lt_succ_of_le short)
  refine ⟨_, _, rfl, ?_, decString, ?_, decInside⟩
  · rw [encodes, encString]
    unfold ndmpBase64Decode
    rw [Option.bind_some, decodes]
    rfl
  · rw [encodes]
    exact encInside

/-- Two bytes above 127. -/
theorem ndmpBase64Decode_encode_signed :
    ∃ encoded decoded, ndmpBase64Encode (some (.zero _)) [200, 255] = some encoded ∧
      ndmpBase64Decode [7, 0] (some (.zero _)) encoded.string = some decoded ∧
        decoded.string = [200, 255] ∧ encoded.outside = false ∧ decoded.outside = false :=
  ndmpBase64Decode_encode [7, 0] (.zero _) (.zero _) (by decide) (by decide)

end Ndmpd
