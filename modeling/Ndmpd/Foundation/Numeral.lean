import Mathlib.Data.Nat.Digits.Lemmas

/-!
# Numbers as digit strings

`numeral base n` is the ASCII text of a number, as `printf` prints it, and
`numeralValue base text` the number that a scan over digits accumulates. The two are
inverse to each other (`numeralValue_numeral`), leading zeros do not count
(`numeralValue_padLeft`), and the length of a numeral is bounded by the power of the
base it stays below (`length_numeral_le`).
-/

namespace Foundation

/-- The ASCII digit of a number below ten. -/
def digitByte (digit : Nat) : UInt8 := UInt8.ofNat (48 + digit)

/-- The value of an ASCII digit. -/
def digitValue (byte : UInt8) : Nat := byte.toNat - 48

/-- A digit of the base, in ASCII. -/
def isDigit (base : Nat) (byte : UInt8) : Bool :=
  decide (48 ≤ byte.toNat ∧ byte.toNat < 48 + base)

/-- The digits of a number, most significant first and without leading zeros. -/
def numeral (base n : Nat) : List UInt8 :=
  if n = 0 then [48] else ((Nat.digits base n).map digitByte).reverse

/-- Fill a text up to a width from the left. -/
def padLeft (fill : UInt8) (width : Nat) (text : List UInt8) : List UInt8 :=
  List.replicate (width - text.length) fill ++ text

/-- The number that a scan over digits accumulates. -/
def numeralValue (base : Nat) (text : List UInt8) : Nat :=
  text.foldl (fun value byte => value * base + digitValue byte) 0

variable {base : Nat}

theorem toNat_digitByte {digit : Nat} (small : digit < 10) :
    (digitByte digit).toNat = 48 + digit := by
  rw [digitByte, UInt8.toNat_ofNat']
  omega

theorem digitValue_digitByte {digit : Nat} (small : digit < 10) :
    digitValue (digitByte digit) = digit := by
  rw [digitValue, toNat_digitByte small]
  omega

theorem numeralValue_append (text more : List UInt8) :
    numeralValue base (text ++ more) =
      numeralValue base text * base ^ more.length + numeralValue base more := by
  induction more using List.reverseRecOn with
  | nil => simp [numeralValue]
  | append_singleton more byte ih =>
      have step : ∀ front : List UInt8, numeralValue base (front ++ [byte]) =
          numeralValue base front * base + digitValue byte := by
        intro front
        simp [numeralValue]
      rw [← List.append_assoc, step, ih, step, List.length_append, List.length_singleton, pow_succ]
      ring

theorem numeralValue_zeros (count : Nat) : numeralValue base (List.replicate count 48) = 0 := by
  induction count with
  | zero => rfl
  | succ count ih =>
      rw [List.replicate_succ', numeralValue_append, ih]
      simp [numeralValue, digitValue]

/-- Leading zeros do not change the value. -/
theorem numeralValue_padLeft (width : Nat) (text : List UInt8) :
    numeralValue base (padLeft 48 width text) = numeralValue base text := by
  rw [padLeft, numeralValue_append, numeralValue_zeros]
  simp

/-- Scanning the digits of a number gives the number back. -/
theorem numeralValue_numeral (lower : 1 < base) (upper : base ≤ 10) (n : Nat) :
    numeralValue base (numeral base n) = n := by
  unfold numeral
  by_cases zero : n = 0
  · rw [if_pos zero, zero]
    simp [numeralValue, digitValue]
  · rw [if_neg zero]
    have scanned : ∀ digits : List Nat, (∀ digit ∈ digits, digit < base) →
        numeralValue base (digits.map digitByte).reverse = Nat.ofDigits base digits := by
      intro digits
      induction digits with
      | nil => intro _; rfl
      | cons digit digits ih =>
          intro below
          have digitBelow : digit < base := below digit (by simp)
          have restBelow : ∀ other ∈ digits, other < base :=
            fun other listed => below other (by simp [listed])
          rw [List.map_cons, List.reverse_cons, numeralValue_append, ih restBelow,
            Nat.ofDigits_cons]
          have single : numeralValue base [digitByte digit] = digit := by
            simp [numeralValue, digitValue_digitByte (show digit < 10 by omega)]
          rw [single, List.length_singleton, pow_one]
          ring
    rw [scanned _ fun digit listed => Nat.digits_lt_base lower listed, Nat.ofDigits_digits]

/-- A numeral consists of digits of its base. -/
theorem isDigit_of_mem_numeral (lower : 1 < base) (upper : base ≤ 10) {n : Nat} {byte : UInt8}
    (listed : byte ∈ numeral base n) : isDigit base byte = true := by
  unfold numeral at listed
  by_cases zero : n = 0
  · rw [if_pos zero, List.mem_singleton] at listed
    rw [listed, isDigit, decide_eq_true_eq]
    have value : (48 : UInt8).toNat = 48 := rfl
    omega
  · rw [if_neg zero, List.mem_reverse, List.mem_map] at listed
    obtain ⟨digit, inDigits, rfl⟩ := listed
    have below : digit < base := Nat.digits_lt_base lower inDigits
    rw [isDigit, decide_eq_true_eq, toNat_digitByte (by omega)]
    omega

theorem isDigit_of_mem_padLeft (lower : 1 < base) {width : Nat} {text : List UInt8}
    (digits : ∀ byte ∈ text, isDigit base byte = true) {byte : UInt8}
    (listed : byte ∈ padLeft 48 width text) : isDigit base byte = true := by
  rcases List.mem_append.mp listed with filled | original
  · rw [List.eq_of_mem_replicate filled, isDigit, decide_eq_true_eq]
    have value : (48 : UInt8).toNat = 48 := rfl
    omega
  · exact digits byte original

/-- A number below a power of the base has at most that many digits. -/
theorem length_numeral_le (lower : 1 < base) {width n : Nat} (positive : 0 < width)
    (below : n < base ^ width) : (numeral base n).length ≤ width := by
  unfold numeral
  by_cases zero : n = 0
  · rw [if_pos zero]
    exact positive
  · rw [if_neg zero, List.length_reverse, List.length_map]
    exact (Nat.digits_length_le_iff lower n).mpr below

theorem numeral_ne_nil (n : Nat) : numeral base n ≠ [] := by
  unfold numeral
  by_cases zero : n = 0
  · rw [if_pos zero]
    exact List.cons_ne_nil _ _
  · rw [if_neg zero]
    simpa using Nat.digits_ne_nil_iff_ne_zero.mpr zero

theorem length_padLeft (fill : UInt8) (width : Nat) (text : List UInt8) :
    (padLeft fill width text).length = max width text.length := by
  rw [padLeft, List.length_append, List.length_replicate]
  omega

/-- A scan for a run of bytes stops at the first byte outside. -/
theorem takeWhile_append_stop {accepts : UInt8 → Bool} {text rest : List UInt8} {stop : UInt8}
    (run : ∀ byte ∈ text, accepts byte = true) (stops : accepts stop = false) :
    (text ++ stop :: rest).takeWhile accepts = text := by
  rw [List.takeWhile_append_of_pos run, List.takeWhile_cons_of_neg (by simp [stops]),
    List.append_nil]

end Foundation
