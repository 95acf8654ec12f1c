import Ndmpd.Dates.Dumpdates

/-!
# The fields of a record that is read back

Behind the name, `dumprecout` prints a level and a date without control characters and
backslashes (`Plain`). The level is read back by `getDdlevel` (`getDdlevel_number`) and the
date by `unctime` (`unctime_text`), whatever the buffers held before. A date is one whose text
has its usual form and which the C library finds again from that text (`Calendar.Inverts`).
-/

namespace Ndmpd

open Foundation

namespace Dumpdates

/-! ## Numbers -/

/-- A digit, as a number. -/
theorem digit_bounds {byte : UInt8} (digit : isDigit 10 byte = true) :
    48 ≤ byte.toNat ∧ byte.toNat < 58 := by
  rwa [isDigit, decide_eq_true_eq] at digit

theorem digit_not_space {byte : UInt8} (digit : isDigit 10 byte = true) :
    ¬ decide (byte = 32 ∨ 9 ≤ byte ∧ byte ≤ 13) = true := by
  have bounds := digit_bounds digit
  rw [decide_eq_true_eq]
  rintro (rfl | ⟨-, low⟩)
  · exact absurd bounds.1 (by decide)
  · have low := UInt8.le_iff_toNat_le.mp low
    have bound : (13 : UInt8).toNat = 13 := rfl
    omega

theorem digit_not_blank {byte : UInt8} (digit : isDigit 10 byte = true) :
    ¬ isBlank byte = true := by
  have bounds := digit_bounds digit
  rw [isBlank, decide_eq_true_eq]
  rintro (rfl | rfl)
  · exact absurd bounds.1 (by decide)
  · exact absurd bounds.1 (by decide)

/-- Blanks, then digits, then something else or the end of the string. -/
theorem atoi_digits (blanks : Nat) {text rest : List UInt8}
    (digits : ∀ byte ∈ text, isDigit 10 byte = true) (nonempty : text ≠ [])
    (stops : ∀ byte, rest.head? = some byte → isDigit 10 byte = false)
    (small : numeralValue 10 text < 2 ^ 31) :
    atoi (List.replicate blanks 32 ++ (text ++ rest)) = numeralValue 10 text := by
  have run : (text ++ rest).takeWhile (isDigit 10) = text := by
    rcases rest with _ | ⟨stop, rest⟩
    · have whole := @List.takeWhile_append_of_pos _ _ text [] digits
      rw [List.append_nil, List.takeWhile_nil, List.append_nil] at whole
      rwa [List.append_nil]
    · exact takeWhile_append_stop digits (stops stop rfl)
  obtain ⟨first, others, rfl⟩ := List.exists_cons_of_ne_nil nonempty
  have digit := digits first (by simp)
  have bounds := digit_bounds digit
  have skipped : (List.replicate blanks (32 : UInt8) ++ (first :: others ++ rest)).dropWhile
      (fun byte => byte = 32 ∨ 9 ≤ byte ∧ byte ≤ 13) = first :: others ++ rest := by
    rw [List.dropWhile_append_of_pos (by simp), List.cons_append]
    exact List.dropWhile_cons_of_neg (digit_not_space digit)
  have clamped : (max (-2 ^ 63) (min (2 ^ 63 - 1) (numeralValue 10 (first :: others) : Int))) =
      numeralValue 10 (first :: others) := by
    omega
  unfold atoi
  dsimp only
  rw [skipped, List.cons_append]
  split
  · rename_i more same
    cases same
    exact absurd bounds.1 (by decide)
  · rename_i more same
    cases same
    exact absurd bounds.1 (by decide)
  · rw [← List.cons_append, run, clamped, Int.bmod_eq_of_le]
    · omega
    · omega

theorem numeral_small {n : Nat} (small : n < 2 ^ 31) : numeralValue 10 (numeral 10 n) < 2 ^ 31 := by
  rwa [numeralValue_numeral (by decide) (by decide)]

theorem numeral_digits (n : Nat) : ∀ byte ∈ numeral 10 n, isDigit 10 byte = true :=
  fun _ listed => isDigit_of_mem_numeral (by decide) (by decide) listed

/-- A number printed with leading blanks. -/
theorem atoi_blanks (width : Nat) {n : Nat} (small : n < 2 ^ 31) {rest : List UInt8}
    (stops : ∀ byte, rest.head? = some byte → isDigit 10 byte = false) :
    atoi (padLeft 32 width (numeral 10 n) ++ rest) = n := by
  rw [padLeft, List.append_assoc,
    atoi_digits _ (numeral_digits n) (numeral_ne_nil n) stops (numeral_small small),
    numeralValue_numeral (by decide) (by decide)]

/-- A number printed with leading zeros. -/
theorem atoi_zeros (width : Nat) {n : Nat} (small : n < 2 ^ 31) {rest : List UInt8}
    (stops : ∀ byte, rest.head? = some byte → isDigit 10 byte = false) :
    atoi (padLeft 48 width (numeral 10 n) ++ rest) = n := by
  have digits : ∀ byte ∈ padLeft 48 width (numeral 10 n), isDigit 10 byte = true :=
    fun _ listed => isDigit_of_mem_padLeft (by decide) (numeral_digits n) listed
  have nonempty : padLeft 48 width (numeral 10 n) ≠ [] := by
    intro empty
    exact numeral_ne_nil n (List.append_eq_nil_iff.mp empty).2
  have small : numeralValue 10 (padLeft 48 width (numeral 10 n)) < 2 ^ 31 := by
    rw [numeralValue_padLeft]
    exact numeral_small small
  have read := atoi_digits 0 digits nonempty stops small
  rw [List.replicate_zero, List.nil_append, numeralValue_padLeft,
    numeralValue_numeral (by decide) (by decide)] at read
  exact read

/-! ## The level -/

/-- A level that is a number is printed as one. -/
theorem putDdlevel_number {level : Int} (low : 0 ≤ level) (high : level ≤ 9) :
    putDdlevel level = numeral 10 level.toNat := by
  have other : ¬ isLbrBktype level = true := by
    rw [isLbrBktype, decide_eq_true_eq]
    simp only [List.mem_cons, List.not_mem_nil, or_false]
    omega
  have sign : ¬ level < 0 := by omega
  have same : level.natAbs = level.toNat := by omega
  rw [putDdlevel, if_neg other, printInt, if_neg sign, same]

theorem getDdlevel_number {n : Nat} (small : n < 128) (memory : List UInt8) :
    getDdlevel (numeral 10 n ++ tab :: memory) = ((n : Int), memory) := by
  have value : atoi (numeral 10 n) = n := by
    have read := @atoi_blanks 0 n (by omega) [] nofun
    rwa [padLeft, Nat.zero_sub, List.replicate_zero, List.nil_append, List.append_nil] at read
  have run : (numeral 10 n ++ tab :: memory).takeWhile (isDigit 10) = numeral 10 n :=
    takeWhile_append_stop (numeral_digits n) (by decide)
  have behind : (numeral 10 n ++ tab :: memory).drop ((numeral 10 n).length + 1) = memory := by
    rw [List.drop_append, List.drop_of_length_le (Nat.le_add_right _ 1), List.nil_append,
      Nat.add_sub_cancel_left]
    rfl
  obtain ⟨first, others, shape⟩ := List.exists_cons_of_ne_nil (@numeral_ne_nil 10 n)
  have digit : isDigit 10 first = true := numeral_digits n first (by rw [shape]; simp)
  have bounds := digit_bounds digit
  have start : skipBlanks (numeral 10 n ++ tab :: memory) = numeral 10 n ++ tab :: memory := by
    rw [shape, List.cons_append]
    exact List.dropWhile_cons_of_neg (digit_not_blank digit)
  have other : ¬ isLbrBktype ((numeral 10 n ++ tab :: memory).headD 0).toNat = true := by
    rw [shape, List.cons_append, List.headD_cons, isLbrBktype, decide_eq_true_eq]
    simp only [List.mem_cons, List.not_mem_nil, or_false]
    omega
  unfold getDdlevel
  dsimp only
  rw [start, if_neg other, run, behind, value, Int.bmod_eq_of_le]
  · omega
  · omega

/-! ## The date -/

/-- A broken-down time whose text has its usual 24 characters. -/
structure Tm.Usual (broken : Tm) : Prop where
  sec : 0 ≤ broken.tmSec ∧ broken.tmSec ≤ 60
  min : 0 ≤ broken.tmMin ∧ broken.tmMin ≤ 59
  hour : 0 ≤ broken.tmHour ∧ broken.tmHour ≤ 23
  mday : 1 ≤ broken.tmMday ∧ broken.tmMday ≤ 31
  mon : 0 ≤ broken.tmMon ∧ broken.tmMon ≤ 11
  year : 1000 ≤ 1900 + broken.tmYear ∧ 1900 + broken.tmYear ≤ 9999
  wday : 0 ≤ broken.tmWday ∧ broken.tmWday ≤ 6

/-- The C library finds a date again from the fields in its text. -/
structure Calendar.Inverts (calendar : Calendar) (date : Int) : Prop where
  usual : (calendar.localtime date).Usual
  inverse : calendar.mktime
    { calendar.localtime date with tmWday := 0, tmYday := 0, tmIsdst := -1 } = date

/-- The bytes of a date's text. -/
def Plain (byte : UInt8) : Prop := 32 ≤ byte.toNat ∧ byte ≠ backslash

instance (byte : UInt8) : Decidable (Plain byte) := inferInstanceAs (Decidable (_ ∧ _))

theorem Plain.of_digit {byte : UInt8} (digit : isDigit 10 byte = true) : Plain byte := by
  have bounds := digit_bounds digit
  refine ⟨by omega, ?_⟩
  rintro rfl
  exact absurd bounds.2 (by decide)

/-- A number is printed with digits and a sign. -/
theorem printInt_bytes {value : Int} {byte : UInt8} (listed : byte ∈ printInt value) :
    byte = 45 ∨ isDigit 10 byte = true := by
  unfold printInt at listed
  split at listed
  · rcases List.mem_cons.mp listed with sign | digit
    · exact .inl sign
    · exact .inr (numeral_digits _ byte digit)
  · exact .inr (numeral_digits _ byte listed)

theorem printInt_plain (value : Int) : ∀ byte ∈ printInt value, Plain byte := by
  intro byte listed
  rcases printInt_bytes listed with rfl | digit
  · decide
  · exact Plain.of_digit digit

/-- A number that is filled up to a width. -/
theorem padded_plain {fill : UInt8} (plain : Plain fill) (width : Nat) (value : Int) :
    ∀ byte ∈ padLeft fill width (printInt value), Plain byte := by
  intro byte listed
  rcases List.mem_append.mp listed with filled | printed
  · rw [List.eq_of_mem_replicate filled]
    exact plain
  · exact printInt_plain value byte printed

/-- A name from a table, or three question marks. -/
theorem getD_plain {names : List CString} (plain : ∀ name ∈ names, ∀ byte ∈ name, Plain byte)
    (number : Nat) : ∀ byte ∈ names.getD number [63, 63, 63], Plain byte := by
  rw [List.getD_eq_getElem?_getD]
  cases found : names[number]? with
  | none =>
      intro byte listed
      have question : byte = 63 := by simpa using listed
      rw [question]
      decide
  | some name => exact plain name (List.mem_of_getElem? found)

/-- The text of any broken-down time. -/
theorem Tm.plain_text (broken : Tm) : ∀ byte ∈ broken.text, Plain byte := by
  intro byte listed
  simp only [Tm.text, List.mem_append, List.mem_cons] at listed
  rcases listed with day | rfl | month | mday | rfl | hour | rfl | min | rfl | sec | rfl | year
  · exact getD_plain (by decide +kernel) _ byte day
  · decide
  · exact getD_plain (by decide +kernel) _ byte month
  · exact padded_plain (by decide) _ _ byte mday
  · decide
  · exact padded_plain (by decide) _ _ byte hour
  · decide
  · exact padded_plain (by decide) _ _ byte min
  · decide
  · exact padded_plain (by decide) _ _ byte sec
  · decide
  · exact printInt_plain _ byte year

/-- The letters of the backup types. -/
theorem lbrBktype_letter {level : Int} (letter : isLbrBktype level = true) :
    Plain (UInt8.ofNat level.toNat) ∧ UInt8.ofNat level.toNat ≠ 45 ∧
      isDigit 10 (UInt8.ofNat level.toNat) = false := by
  have letters : ∀ level ∈ ([70, 65, 73, 68, 102, 97, 105, 100] : List Int),
      Plain (UInt8.ofNat level.toNat) ∧ UInt8.ofNat level.toNat ≠ 45 ∧
        isDigit 10 (UInt8.ofNat level.toNat) = false := by
    decide
  exact letters level (of_decide_eq_true letter)

theorem putDdlevel_plain (level : Int) : ∀ byte ∈ putDdlevel level, Plain byte := by
  unfold putDdlevel
  split
  · next letter =>
      intro byte listed
      rw [List.mem_singleton.mp listed]
      exact (lbrBktype_letter letter).1
  · exact printInt_plain level

theorem printInt_natCast {value : Int} (sign : 0 ≤ value) :
    printInt value = numeral 10 value.toNat := by
  have same : value.natAbs = value.toNat := by omega
  rw [printInt, if_neg (by omega), same]

theorem length_numeral_two {value : Int} (low : 0 ≤ value) (high : value ≤ 99) :
    (numeral 10 value.toNat).length ≤ 2 :=
  length_numeral_le (by decide) (by decide) (by omega)

theorem length_zeros {value : Int} (low : 0 ≤ value) (high : value ≤ 99) :
    (padLeft 48 2 (numeral 10 value.toNat)).length = 2 := by
  rw [length_padLeft]
  exact Nat.max_eq_left (length_numeral_two low high)

theorem length_year {value : Int} (low : 1000 ≤ value) (high : value ≤ 9999) :
    (numeral 10 value.toNat).length = 4 := by
  have nonzero : value.toNat ≠ 0 := by omega
  have upper : (numeral 10 value.toNat).length ≤ 4 :=
    length_numeral_le (by decide) (by decide) (by omega)
  have lower : 3 < (numeral 10 value.toNat).length := by
    rw [numeral, if_neg nonzero, List.length_reverse, List.length_map]
    exact (Nat.lt_digits_length_iff (by decide) _).mpr (by omega)
  omega

theorem day_plain {wday : Int} (low : 0 ≤ wday) (high : wday ≤ 6) :
    (days.getD wday.toNat [63, 63, 63]).length = 3 ∧
      ∀ byte ∈ days.getD wday.toNat [63, 63, 63], Plain byte ∧ isBlank byte = false := by
  interval_cases wday <;> decide +kernel

theorem month_plain {mon : Int} (low : 0 ≤ mon) (high : mon ≤ 11) :
    (months.getD mon.toNat [63, 63, 63]).length = 3 ∧
      ∀ byte ∈ months.getD mon.toNat [63, 63, 63], Plain byte := by
  interval_cases mon <;> decide +kernel

theorem lookup_month {mon : Int} (low : 0 ≤ mon) (high : mon ≤ 11) (rest : List UInt8) :
    lookup (months.getD mon.toNat [63, 63, 63] ++ rest) = some mon.toNat := by
  rw [lookup, List.take_left' (month_plain low high).1]
  interval_cases mon <;> decide +kernel

/-- The text in front of the day of the month. -/
def Tm.front (broken : Tm) : CString :=
  days.getD broken.tmWday.toNat [63, 63, 63] ++ [blank] ++
    months.getD broken.tmMon.toNat [63, 63, 63]

/-- The text from the digits of the day of the month on. -/
def Tm.body (broken : Tm) : CString :=
  padLeft 32 2 (numeral 10 broken.tmMday.toNat) ++ blank ::
    (padLeft 48 2 (numeral 10 broken.tmHour.toNat) ++ 58 ::
      (padLeft 48 2 (numeral 10 broken.tmMin.toNat) ++ 58 ::
        (padLeft 48 2 (numeral 10 broken.tmSec.toNat) ++ blank ::
          numeral 10 (1900 + broken.tmYear).toNat)))

namespace Tm.Usual

variable {broken : Tm} (usual : broken.Usual)

include usual

theorem text_eq : broken.text = broken.front ++ blank :: broken.body := by
  obtain ⟨⟨sec, -⟩, ⟨min, -⟩, ⟨hour, -⟩, ⟨mday, short⟩, -, ⟨year, -⟩, -⟩ := usual
  have narrow := length_numeral_two (by omega) (show broken.tmMday ≤ 99 by omega)
  have padded : padLeft 32 3 (numeral 10 broken.tmMday.toNat) =
      blank :: padLeft 32 2 (numeral 10 broken.tmMday.toNat) := by
    have more : 3 - (numeral 10 broken.tmMday.toNat).length =
        (2 - (numeral 10 broken.tmMday.toNat).length) + 1 := by omega
    rw [padLeft, padLeft, more, List.replicate_succ, List.cons_append]
  rw [Tm.text, printInt_natCast sec, printInt_natCast min, printInt_natCast hour,
    printInt_natCast (by omega), printInt_natCast (by omega), padded, Tm.front, Tm.body]
  simp only [List.append_assoc, List.cons_append, List.nil_append]

theorem length_front : broken.front.length = 7 := by
  have day := (day_plain usual.wday.1 usual.wday.2).1
  have month := (month_plain usual.mon.1 usual.mon.2).1
  simp only [Tm.front, List.length_append, day, month, List.length_singleton]

theorem length_mday : (padLeft 32 2 (numeral 10 broken.tmMday.toNat)).length = 2 := by
  obtain ⟨low, high⟩ := usual.mday
  rw [length_padLeft]
  exact Nat.max_eq_left (length_numeral_two (by omega) (by omega))

theorem length_hour : (padLeft 48 2 (numeral 10 broken.tmHour.toNat)).length = 2 := by
  obtain ⟨low, high⟩ := usual.hour
  exact length_zeros low (by omega)

theorem length_min : (padLeft 48 2 (numeral 10 broken.tmMin.toNat)).length = 2 := by
  obtain ⟨low, high⟩ := usual.min
  exact length_zeros low (by omega)

theorem length_sec : (padLeft 48 2 (numeral 10 broken.tmSec.toNat)).length = 2 := by
  obtain ⟨low, high⟩ := usual.sec
  exact length_zeros low (by omega)

theorem length_body : broken.body.length = 16 := by
  have year := length_year usual.year.1 usual.year.2
  simp only [Tm.body, List.length_append, List.length_cons, usual.length_mday, usual.length_hour,
    usual.length_min, usual.length_sec, year]

/-- The text of a date has 24 characters. -/
theorem length_text : broken.text.length = 24 := by
  rw [usual.text_eq, List.length_append, List.length_cons, usual.length_front, usual.length_body]

/-- The text begins with a letter. -/
theorem text_head? : ∃ first, broken.text.head? = some first ∧ isBlank first = false := by
  obtain ⟨three, letters⟩ := day_plain usual.wday.1 usual.wday.2
  rw [Tm.text]
  rcases named : days.getD broken.tmWday.toNat [63, 63, 63] with _ | ⟨first, more⟩
  · rw [named] at three
    cases three
  · rw [named] at letters
    exact ⟨first, rfl, (letters first List.mem_cons_self).2⟩

end Tm.Usual

/-- The buffer of `unctime` behind a text of 24 characters. -/
theorem unctimeBuffer_bytes (dbuf : CharArray 26) {front body : CString}
    (seven : front.length = 7) (sixteen : body.length = 16) (separator : UInt8) :
    (unctimeBuffer dbuf (front ++ separator :: body)).bytes = front ++ 0 :: (body ++ [0, 0]) := by
  have length : (front ++ separator :: body).length = 24 := by
    rw [List.length_append, List.length_cons, seven, sixteen]
  have whole : (front ++ separator :: body).take 24 = front ++ separator :: body :=
    List.take_of_length_le (Nat.le_of_eq length)
  obtain ⟨last, lastEq⟩ : ∃ last, dbuf.bytes.drop 25 = [last] := by
    apply List.length_eq_one_iff.mp
    rw [List.length_drop, dbuf.length_bytes]
  have copied : (dbuf.write 0 ((front ++ separator :: body).take 24 ++ [0])).bytes =
      front ++ separator :: (body ++ [0, last]) := by
    have fits : 0 + ((front ++ separator :: body) ++ [0]).length ≤ 26 := by
      rw [List.length_append, length, List.length_singleton]
      omega
    have behind : 0 + ((front ++ separator :: body) ++ [0]).length = 25 := by
      rw [List.length_append, length, List.length_singleton]
    rw [whole, CharArray.bytes_write fits, behind, lastEq]
    simp only [List.take_zero, List.nil_append, List.append_assoc, List.cons_append]
  have closed : ((dbuf.write 0 ((front ++ separator :: body).take 24 ++ [0])).write 25 [0]).bytes =
      front ++ separator :: (body ++ [0, 0]) := by
    have split : front ++ separator :: (body ++ [0, last]) =
        (front ++ separator :: (body ++ [0])) ++ [last] := by
      simp only [List.append_assoc, List.cons_append, List.nil_append]
    have first : (front ++ separator :: (body ++ [0])).length = 25 := by
      simp only [List.length_append, List.length_cons, List.length_nil, seven, sixteen]
    rw [CharArray.bytes_write (by decide), copied, split, List.take_left' first,
      List.drop_of_length_le (by rw [List.length_append, first]; exact Nat.le_refl _)]
    simp only [List.append_assoc, List.cons_append, List.nil_append, List.append_nil]
  have behind : (front ++ separator :: (body ++ [0, 0])).drop (7 + [(0 : UInt8)].length) =
      body ++ [0, 0] := by
    rw [List.append_cons]
    apply List.drop_left'
    rw [List.length_append, seven]
    rfl
  rw [unctimeBuffer, CharArray.bytes_write (by decide), closed, List.take_left' seven, behind]
  rfl

/-- Skip a field and the byte behind it. -/
theorem drop_field {memory field rest : List UInt8} {stop : UInt8} {start width : Nat}
    (here : memory.drop start = field ++ stop :: rest) (long : field.length = width) :
    memory.drop (start + (width + 1)) = rest := by
  rw [← List.drop_drop, here, List.append_cons]
  apply List.drop_left'
  rw [List.length_append, long, List.length_singleton]

theorem toNat_small {value : Int} (low : 0 ≤ value) (high : value ≤ 9999) :
    value.toNat < 2 ^ 31 ∧ (value.toNat : Int) = value := by
  omega

/-- `unctime` finds a date again from its text. -/
theorem unctime_text {calendar : Calendar} {date : Int} (inverts : calendar.Inverts date)
    (dbuf : CharArray 26) :
    unctime calendar dbuf (calendar.localtime date).text = some date := by
  have usual := inverts.usual
  have inverse := inverts.inverse
  revert usual inverse
  generalize calendar.localtime date = broken
  intro usual inverse
  obtain ⟨memory, memoryEq⟩ : ∃ memory, memory = (unctimeBuffer dbuf broken.text).bytes := ⟨_, rfl⟩
  have whole := memoryEq
  rw [usual.text_eq, unctimeBuffer_bytes dbuf usual.length_front usual.length_body] at whole
  have noDigit : ∀ stop : UInt8, isDigit 10 stop = false → ∀ (rest : List UInt8) (byte : UInt8),
      (stop :: rest).head? = some byte → isDigit 10 byte = false := by
    rintro stop stops rest byte first
    cases first
    exact stops
  have atMon : memory.drop 4 =
      months.getD broken.tmMon.toNat [63, 63, 63] ++ 0 :: (broken.body ++ [0, 0]) := by
    rw [whole, Tm.front, List.append_assoc]
    apply List.drop_left'
    rw [List.length_append, (day_plain usual.wday.1 usual.wday.2).1, List.length_singleton]
  have atMday : memory.drop 8 = broken.body ++ [0, 0] := by
    rw [whole, List.append_cons]
    apply List.drop_left'
    rw [List.length_append, usual.length_front, List.length_singleton]
  simp only [Tm.body, List.append_assoc, List.cons_append] at atMday
  have atHour := drop_field atMday usual.length_mday
  have atMin := drop_field atHour usual.length_hour
  have atSec := drop_field atMin usual.length_min
  have atYear := drop_field atSec usual.length_sec
  obtain ⟨sec, secEq⟩ := toNat_small usual.sec.1 (by have := usual.sec.2; omega)
  obtain ⟨min, minEq⟩ := toNat_small usual.min.1 (by have := usual.min.2; omega)
  obtain ⟨hour, hourEq⟩ := toNat_small usual.hour.1 (by have := usual.hour.2; omega)
  have mdayBounds := usual.mday
  have yearBounds := usual.year
  obtain ⟨mday, mdayEq⟩ := toNat_small (show 0 ≤ broken.tmMday by omega) (by omega)
  obtain ⟨year, yearEq⟩ := toNat_small (show 0 ≤ 1900 + broken.tmYear by omega) (by omega)
  have monEq : (broken.tmMon.toNat : Int) = broken.tmMon := Int.toNat_of_nonneg usual.mon.1
  have readYear := @atoi_zeros 0 _ year [0, 0] (noDigit 0 (by decide) [0])
  rw [padLeft, Nat.zero_sub, List.replicate_zero, List.nil_append] at readYear
  unfold unctime
  dsimp only
  rw [← memoryEq, atMon, lookup_month usual.mon.1 usual.mon.2]
  dsimp only
  rw [atMday, atHour, atMin, atSec, atYear, readYear,
    atoi_blanks _ mday (noDigit blank (by decide) _), atoi_zeros _ hour (noDigit 58 (by decide) _),
    atoi_zeros _ min (noDigit 58 (by decide) _), atoi_zeros _ sec (noDigit blank (by decide) _),
    secEq, minEq, hourEq, mdayEq, yearEq, monEq, add_sub_cancel_left]
  exact congrArg some inverse

end Dumpdates

end Ndmpd
