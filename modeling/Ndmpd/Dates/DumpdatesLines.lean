import Ndmpd.Dates.DumpdatesRoundTrip
import Ndmpd.Foundation.ContinuedLines

/-!
# The lines of a dumpdates file

Whatever a node of the list of dump dates holds, `dumprecout` prints it on one line of its
own, as the only newlines that it does not escape are those behind the dates
(`dumprecout_isLine`), and the line tells the name and the level (`dumprecout_key`).
-/

namespace Ndmpd

open Foundation

namespace Dumpdates

theorem Plain.unlike {byte : UInt8} (plain : Plain byte) : byte ≠ tab ∧ byte ≠ newline := by
  refine ⟨?_, ?_⟩
  · rintro rfl
    exact absurd plain.1 (by decide)
  · rintro rfl
    exact absurd plain.1 (by decide)

/-! ## The line of a record -/

/-- The bytes that are printed with a backslash in front. -/
def Escaped (byte : UInt8) : Prop := byte = blank ∨ byte = newline ∨ byte = tab

theorem putDdname_escaped {byte : UInt8} (escaped : Escaped byte) (name : CString) :
    putDdname (byte :: name) = backslash :: byte :: putDdname name := by
  have printed : (if byte = blank ∨ byte = newline ∨ byte = tab then [backslash, byte]
      else [byte]) = [backslash, byte] := if_pos escaped
  rw [putDdname, List.flatMap_cons, printed]
  rfl

theorem putDdname_plain {byte : UInt8} (plain : ¬ Escaped byte) (name : CString) :
    putDdname (byte :: name) = byte :: putDdname name := by
  have printed : (if byte = blank ∨ byte = newline ∨ byte = tab then [backslash, byte]
      else [byte]) = [byte] := if_neg plain
  rw [putDdname, List.flatMap_cons, printed]
  rfl

/-- No line ends in the name. -/
theorem putDdname_continues (prev : Option UInt8) (name : CString) :
    Continues newline backslash prev (putDdname name) := by
  induction name generalizing prev with
  | nil => trivial
  | cons byte name ih =>
      by_cases escaped : Escaped byte
      · rw [putDdname_escaped escaped]
        exact ⟨fun same => absurd same (by decide), fun _ => rfl, ih _⟩
      · rw [putDdname_plain escaped]
        exact ⟨fun same => absurd (.inr (.inl same)) escaped, ih _⟩

theorem dumprecout_isLine (calendar : Calendar) (ddp : Dumpdates) :
    IsLine newline backslash (dumprecout calendar ddp) := by
  have behind {byte : UInt8} (listed : byte ∈ tailOf calendar ddp) :
      byte ≠ newline ∧ byte ≠ backslash := by
    rcases tailOf_plain calendar ddp listed with rfl | plain
    · decide
    · exact ⟨plain.unlike.2, plain.2⟩
  refine ⟨putDdname ddp.ddName ++ tailOf calendar ddp, ?_, ?_, ?_⟩
  · rw [dumprecout_eq, List.append_assoc]
  · rw [continues_append]
    exact ⟨putDdname_continues _ _, continues_of_notMem fun listed => (behind listed).1 rfl⟩
  · have nonempty : tailOf calendar ddp ≠ [] := List.cons_ne_nil _ _
    rw [List.getLast?_append_of_ne_nil _ nonempty]
    intro last
    exact (behind (List.mem_of_getLast? last)).2 rfl

/-! ## What the line tells -/

/-- An escaped byte does not begin what is printed. -/
theorem escaped_ne {byte : UInt8} (escaped : Escaped byte) {front name x y : CString}
    (one : x.count tab = 1) (one' : y.count tab = 1) :
    byte :: (putDdname front ++ tab :: x) ≠ putDdname name ++ tab :: y := by
  intro same
  cases name with
  | nil =>
      -- the name would end in a backslash, and too many tabs follow
      obtain ⟨-, behind⟩ := List.cons.inj same
      have tabs := congrArg (List.count tab) behind
      rw [List.count_append, List.count_cons_self, one, one'] at tabs
      omega
  | cons other name =>
      by_cases escaped' : Escaped other
      · rw [putDdname_escaped escaped'] at same
        obtain ⟨rfl, -⟩ := List.cons.inj same
        exact absurd escaped (by unfold Escaped; decide)
      · rw [putDdname_plain escaped'] at same
        obtain ⟨rfl, -⟩ := List.cons.inj same
        exact escaped' escaped

/-- The name can be told from what is printed. -/
theorem putDdname_inj {name other x y : CString} (one : x.count tab = 1) (one' : y.count tab = 1)
    (same : putDdname name ++ tab :: x = putDdname other ++ tab :: y) : name = other ∧ x = y := by
  induction name generalizing other with
  | nil =>
      cases other with
      | nil => exact ⟨rfl, (List.cons.inj same).2⟩
      | cons byte other =>
          by_cases escaped : Escaped byte
          · rw [putDdname_escaped escaped] at same
            exact absurd (List.cons.inj same).1 (by decide)
          · rw [putDdname_plain escaped] at same
            exact absurd (.inr (.inr (List.cons.inj same).1.symm)) escaped
  | cons byte name ih =>
      cases other with
      | nil =>
          by_cases escaped : Escaped byte
          · rw [putDdname_escaped escaped] at same
            exact absurd (List.cons.inj same).1 (by decide)
          · rw [putDdname_plain escaped] at same
            exact absurd (.inr (.inr (List.cons.inj same).1)) escaped
      | cons byte' other =>
          by_cases escaped : Escaped byte <;> by_cases escaped' : Escaped byte'
          · rw [putDdname_escaped escaped, putDdname_escaped escaped'] at same
            obtain ⟨rfl, behind⟩ := List.cons.inj (List.cons.inj same).2
            obtain ⟨rfl, tails⟩ := ih behind
            exact ⟨rfl, tails⟩
          · rw [putDdname_escaped escaped, putDdname_plain escaped'] at same
            exact absurd (List.cons.inj same).2 (escaped_ne escaped one one')
          · rw [putDdname_plain escaped, putDdname_escaped escaped'] at same
            exact absurd (List.cons.inj same).2.symm (escaped_ne escaped' one' one)
          · rw [putDdname_plain escaped, putDdname_plain escaped'] at same
            obtain ⟨rfl, behind⟩ := List.cons.inj same
            obtain ⟨rfl, tails⟩ := ih behind
            exact ⟨rfl, tails⟩

theorem printInt_inj {value other : Int} (same : printInt value = printInt other) :
    value = other := by
  have unsigned (n : Nat) (digits : CString) : numeral 10 n ≠ 45 :: digits := by
    intro signed
    have digit := numeral_digits n 45 (signed ▸ List.mem_cons_self)
    cases digit
  have magnitude {n m : Nat} (printed : numeral 10 n = numeral 10 m) : n = m := by
    have value (n : Nat) : numeralValue 10 (numeral 10 n) = n :=
      numeralValue_numeral (by decide) (by decide) n
    rw [← value n, printed, value m]
  unfold printInt at same
  split at same <;> split at same
  · have sizes := magnitude (List.cons.inj same).2
    omega
  · exact absurd same.symm (unsigned _ _)
  · exact absurd same (unsigned _ _)
  · have sizes := magnitude same
    omega

theorem putDdlevel_inj {level other : Int} (same : putDdlevel level = putDdlevel other) :
    level = other := by
  have letters : ∀ level ∈ ([70, 65, 73, 68, 102, 97, 105, 100] : List Int),
      ∀ other ∈ ([70, 65, 73, 68, 102, 97, 105, 100] : List Int),
        UInt8.ofNat level.toNat = UInt8.ofNat other.toNat → level = other := by
    decide
  have apart {level other : Int} (letter : isLbrBktype level = true) :
      [UInt8.ofNat level.toNat] ≠ printInt other := by
    intro printed
    obtain ⟨-, sign, digit⟩ := lbrBktype_letter letter
    rcases printInt_bytes (printed ▸ List.mem_singleton_self _) with minus | number
    · exact sign minus
    · cases digit.symm.trans number
  unfold putDdlevel at same
  split at same <;> split at same
  · next letter letter' =>
      exact letters level (of_decide_eq_true letter) other (of_decide_eq_true letter')
        (List.cons.inj same).1
  · next letter _ => exact absurd same (apart letter)
  · next _ letter => exact absurd same.symm (apart letter)
  · exact printInt_inj same

/-- The name and the level of a record can be told from its line. -/
theorem dumprecout_key {calendar : Calendar} {record other : Dumpdates}
    (same : dumprecout calendar record = dumprecout calendar other) :
    record.ddName = other.ddName ∧ record.ddLevel = other.ddLevel := by
  have free {text : CString} (plain : ∀ byte ∈ text, Plain byte) : tab ∉ text :=
    fun listed => (plain tab listed).unlike.1 rfl
  have one (record : Dumpdates) :
      (putDdlevel record.ddLevel ++ tab :: (calendar.localtime record.ddDdate).text ++
        [newline]).count tab = 1 := by
    have level := List.count_eq_zero.mpr (free (putDdlevel_plain record.ddLevel))
    have text := List.count_eq_zero.mpr
      (free (Tm.plain_text (calendar.localtime record.ddDdate)))
    have last : List.count tab [newline] = 0 := rfl
    simp [level, text, last]
  rw [dumprecout_eq, dumprecout_eq, tailOf, tailOf, List.cons_append, List.cons_append] at same
  obtain ⟨names, tails⟩ := putDdname_inj (one record) (one other) same
  have accepted (level : Int) : ∀ byte ∈ putDdlevel level, decide (byte ≠ tab) = true := by
    intro byte listed
    exact decide_eq_true (putDdlevel_plain level byte listed).unlike.1
  rw [List.append_assoc, List.append_assoc, List.cons_append, List.cons_append] at tails
  have levels := congrArg (List.takeWhile fun byte => decide (byte ≠ tab)) tails
  rw [takeWhile_append_stop (accepted _) (by decide),
    takeWhile_append_stop (accepted _) (by decide)]
    at levels
  exact ⟨names, putDdlevel_inj levels⟩

end Dumpdates

end Ndmpd
