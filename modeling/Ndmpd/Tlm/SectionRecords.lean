import Ndmpd.Tlm.RestoreOnward

/-!
# The records of a section

`restore_file` is to take the records of a section from the stream, whatever becomes of
the file. Its loop counts what `write(2)` returns, though. What the writes fall short by
is asked for again, and it comes from the next entry unless the padding of the last
record makes up for it (`restoreFile_takes_iff`).
-/

namespace Ndmpd

namespace RestoreWriter

variable {writer : RestoreWriter}

/-! ## One round -/

/-- A write leaves the pool alone and returns at most the length of what it is given. -/
theorem writeRecord_count (writer : RestoreWriter) (bytes : List UInt8) :
    (writer.writeRecord bytes).1.blocks = writer.blocks ∧
      (writer.writeRecord bytes).1.tcWriterStop = writer.tcWriterStop ∧
      -1 ≤ (writer.writeRecord bytes).2 ∧ (writer.writeRecord bytes).2 ≤ bytes.length := by
  unfold writeRecord
  split
  · dsimp only
    split
    · exact ⟨rfl, rfl, by omega, by omega⟩
    · refine ⟨rfl, rfl, by omega, ?_⟩
      rw [List.length_take]
      omega
  · exact ⟨rfl, rfl, by omega, by omega⟩

/-- A round takes records and counts what has been written of them. -/
theorem restoreLoop_round (running : writer.tcWriterStop = false) (whole : Whole writer.blocks)
    (more : bytesOf writer.blocks ≠ []) {size : Int} (positive : 0 < size)
    (ordinary : size < 2 ^ 32 - 512) (wanted : Bool) :
    ∃ (front : List UInt8) (next : RestoreWriter) (count : Int),
      (∀ rounds, restoreLoop (rounds + 1) writer size wanted =
        restoreLoop rounds next (size - count) wanted) ∧
      bytesOf writer.blocks = front ++ bytesOf next.blocks ∧ Whole next.blocks ∧
      next.tcWriterStop = false ∧ 0 < front.length ∧ 512 ∣ front.length ∧
      front.length ≤ roundToRecords size.toNat ∧ -1 ≤ count ∧ count ≤ size ∧
      count ≤ front.length ∧ (wanted = false → count = min size front.length) ∧
      (wanted = true → writer.fp ≠ .opened → count = -1) := by
  obtain ⟨front, blocks, read, bytes, left, nonempty, records, most⟩ :=
    @getReadBuffer_front writer running whole more size.toNat (by omega) (by omega)
  have stop : ¬ (size ≤ 0 ∨ writer.tcWriterStop = true) := by
    rw [running]
    rintro (none_ | stopped)
    · omega
    · cases stopped
  have piece : (front.take size.toNat).length = min size.toNat front.length := List.length_take
  cases wanted with
  | false =>
      refine ⟨front, { writer with blocks := blocks }, ((front.take size.toNat).length : Nat), ?_,
        bytes, left, running, nonempty, records, most, by omega, by omega, by omega,
        fun _ => by omega, ?_⟩
      · intro rounds
        rw [restoreLoop, if_neg stop, read]
        rfl
      · intro isWanted
        cases isWanted
  | true =>
      obtain ⟨kept, still, low, high⟩ :=
        writeRecord_count { writer with blocks := blocks } (front.take size.toNat)
      refine ⟨front, _, _, ?_, by rw [kept, bytes], by rw [kept]; exact left, still.trans running,
        nonempty, records, most, low, by omega, by omega, ?_, ?_⟩
      · intro rounds
        rw [restoreLoop, if_neg stop, read]
        rfl
      · intro unwanted
        cases unwanted
      · intro _ unopened
        unfold writeRecord
        rw [if_neg unopened]

theorem restoreLoop_done {size : Int} (done : size ≤ 0) (rounds : Nat) (writer : RestoreWriter)
    (wanted : Bool) : restoreLoop rounds writer size wanted = writer := by
  cases rounds with
  | zero => rfl
  | succ rounds => rw [restoreLoop, if_pos (.inl done)]

/-- At the end of the stream the loop is left. -/
theorem restoreLoop_end (running : writer.tcWriterStop = false) (ended : bytesOf writer.blocks = [])
    (rounds : Nat) (size : Int) (wanted : Bool) :
    (restoreLoop rounds writer size wanted).available = 0 := by
  cases rounds with
  | zero =>
      rw [available_eq]
      exact congrArg List.length ended
  | succ rounds =>
      unfold restoreLoop
      split
      · rw [available_eq]
        exact congrArg List.length ended
      · rw [getReadBuffer_end running ended]
        rfl

theorem available_of_append {next : RestoreWriter} {front : List UInt8}
    (bytes : bytesOf writer.blocks = front ++ bytesOf next.blocks) :
    writer.available = front.length + next.available := by
  rw [available_eq, available_eq, bytes, List.length_append]

/-! ## More than there is -/

/-- A loop that asks for all that is left takes all of it. -/
theorem restoreLoop_all (rounds : Nat) (writer : RestoreWriter) (size : Int) (wanted : Bool)
    (running : writer.tcWriterStop = false) (whole : Whole writer.blocks)
    (wants : writer.available ≤ roundToRecords size.toNat)
    (ordinary : size + writer.available / 512 < 2 ^ 32 - 512)
    (enough : writer.available < rounds) :
    (restoreLoop rounds writer size wanted).available = 0 := by
  induction rounds generalizing writer size with
  | zero => exact absurd enough (Nat.not_lt_zero _)
  | succ rounds ih =>
      by_cases ended : bytesOf writer.blocks = []
      · exact restoreLoop_end running ended _ size wanted
      · have length := List.length_pos_iff.mpr ended
        rw [← available_eq] at length
        have positive : 0 < size := by
          unfold roundToRecords recordSize at wants
          omega
        obtain ⟨front, next, count, loop, bytes, left, still, nonempty, records, most, low, below,
          within, -, -⟩ := restoreLoop_round running whole ended positive (by omega) wanted
        have total := available_of_append bytes
        rw [loop]
        apply ih next _ still left
        · unfold roundToRecords recordSize at wants most ⊢
          omega
        · omega
        · omega

/-- A loop that has counted too little for the records that are left of a section goes on
behind them. -/
theorem restoreLoop_beyond (args : RestoreArgs) (rounds : Nat) (writer : RestoreWriter)
    (size : Int) (wanted : Bool) (left : Nat) (running : writer.tcWriterStop = false)
    (whole : Whole writer.blocks)
    (exceeds : (left : Int) < size) (more : left < writer.available)
    (ordinary : size + left / 512 < 2 ^ 32 - 512) (enough : writer.available < rounds) :
    (restoreLoop rounds writer size wanted).available + left < writer.available := by
  induction rounds generalizing writer size left with
  | zero => exact absurd enough (Nat.not_lt_zero _)
  | succ rounds ih =>
      have ended : bytesOf writer.blocks ≠ [] := by
        rw [available_eq] at more
        exact List.length_pos_iff.mp (Nat.lt_of_le_of_lt (Nat.zero_le _) more)
      obtain ⟨front, next, count, loop, bytes, whole', still, nonempty, records, most, low, below,
        within, -, -⟩ :=
        @restoreLoop_round writer running whole ended size (by omega) (by omega) wanted
      have total := available_of_append bytes
      rw [loop]
      by_cases past : left < front.length
      · have onward := (@Onward.restoreLoop args [] next rounds (size - count) wanted).left
        omega
      · have rest := ih next (size - count) (left - front.length) still whole'
          (by omega) (by omega) (by omega) (by omega)
        omega

/-- Once too little has been counted, only the end of the stream keeps the loop within
the section. -/
theorem restoreLoop_over (args : RestoreArgs) (rounds : Nat) (writer : RestoreWriter) (size : Int)
    (wanted : Bool) (left : Nat) (running : writer.tcWriterStop = false)
    (whole : Whole writer.blocks) (exceeds : (left : Int) < size) (there : left ≤ writer.available)
    (ordinary : size + left / 512 < 2 ^ 32 - 512) (enough : writer.available < rounds) :
    (restoreLoop rounds writer size wanted).available + left = writer.available ↔
      writer.available = left := by
  have above := roundToRecords_ge size.toNat
  constructor
  · intro exact_
    by_contra more
    have beyond := restoreLoop_beyond args rounds writer size wanted left running whole exceeds
      (by omega) ordinary enough
    omega
  · intro last
    have all := restoreLoop_all rounds writer size wanted running whole (by omega) (by omega) enough
    omega

/-! ## Exactly the records of the section -/

/-- The writes of a section take the loop to the end of its last record: of `left` bytes
in records, `slack` are padding. Those before the last one fall short by no more than
that in all, and the last one is taken in full. -/
def writesThrough : List ReadBlock → List (Option Nat) → Nat → Nat → Bool
  | [], _, _, _ => false
  | block :: rest, written, left, slack =>
      if block.bytes = [] then writesThrough rest written left slack
      else if left ≤ block.bytes.length then
        (written.head?.getD (some (left - slack))).any (left - slack ≤ ·)
      else
        match written.head?.getD (some block.bytes.length) with
        | none => false
        | some count =>
            block.bytes.length ≤ count + slack ∧
              writesThrough rest written.tail (left - block.bytes.length)
                (slack - (block.bytes.length - count))

theorem writesThrough_dropWhile (blocks : List ReadBlock) (written : List (Option Nat))
    (left slack : Nat) :
    writesThrough (blocks.dropWhile fun block => block.bytes = []) written left slack =
      writesThrough blocks written left slack := by
  induction blocks with
  | nil => rfl
  | cons block blocks ih =>
      by_cases empty : block.bytes = []
      · rw [List.dropWhile_cons_of_pos (by simpa using empty), ih, writesThrough, if_pos empty]
      · rw [List.dropWhile_cons_of_neg (by simpa using empty)]

/-- The first block of a stream that has bytes left. -/
theorem exists_first (whole : Whole writer.blocks) (more : 0 < writer.available) :
    ∃ block rest, (writer.blocks.dropWhile fun block => block.bytes = []) = block :: rest ∧
      block.bytes ≠ [] ∧ 512 ∣ block.bytes.length ∧ block.tbErrno = 0 ∧ Whole rest ∧
      writer.available = block.bytes.length + (bytesOf rest).length := by
  have same := bytesOf_dropWhile writer.blocks
  have kept := whole.dropWhile
  have nonempty := List.head?_dropWhile_not
    (fun block : ReadBlock => decide (block.bytes = [])) writer.blocks
  rw [available_eq, ← same] at more ⊢
  revert more kept nonempty
  generalize (writer.blocks.dropWhile fun block => block.bytes = []) = left
  intro more kept nonempty
  cases left with
  | nil => exact absurd more (Nat.lt_irrefl 0)
  | cons block rest =>
      obtain ⟨records, noError⟩ := kept block List.mem_cons_self
      refine ⟨block, rest, rfl, by simpa using nonempty, records, noError, ?_, List.length_append⟩
      intro other listed
      exact kept other (List.mem_cons_of_mem _ listed)

/-- What `write(2)` returns for a piece of a file that is open. -/
def writeResult (written : List (Option Nat)) (piece : Nat) : Int :=
  match written.head?.getD (some piece) with
  | none => -1
  | some count => (min count piece : Nat)

theorem writeRecord_result (opened : writer.fp = .opened) (bytes : List UInt8) :
    (writer.writeRecord bytes).2 = writeResult writer.io.written bytes.length ∧
      (writer.writeRecord bytes).1.io.written = writer.io.written.tail ∧
      (writer.writeRecord bytes).1.fp = .opened := by
  unfold writeRecord writeResult
  rw [if_pos opened]
  dsimp only
  cases writer.io.written.head?.getD (some bytes.length) with
  | none => exact ⟨rfl, rfl, opened⟩
  | some count =>
      refine ⟨?_, rfl, opened⟩
      dsimp only
      rw [List.length_take]

/-- A write is taken in full or falls short. -/
theorem writeResult_cases (written : List (Option Nat)) (piece : Nat) :
    (writeResult written piece = piece ∧
        (written.head?.getD (some piece)).any (piece ≤ ·) = true) ∨
      (-1 ≤ writeResult written piece ∧ writeResult written piece < piece ∧
        (written.head?.getD (some piece)).any (piece ≤ ·) = false) := by
  unfold writeResult
  cases written.head?.getD (some piece) with
  | none =>
      dsimp only
      exact .inr ⟨by omega, by omega, rfl⟩
  | some count =>
      dsimp only
      by_cases full : piece ≤ count
      · exact .inl ⟨by omega, decide_eq_true full⟩
      · exact .inr ⟨by omega, by omega, decide_eq_false full⟩

/-- A round takes the records of the first block that are left of the section and writes
their data. -/
theorem restoreLoop_first (running : writer.tcWriterStop = false) (opened : writer.fp = .opened)
    {left slack : Nat} (records : 512 ∣ left) (slack_lt : slack < 512)
    (positive : 0 < left) (ordinary : left < 2 ^ 32 - 512) {block : ReadBlock}
    {rest : List ReadBlock}
    (first : (writer.blocks.dropWhile fun block => block.bytes = []) = block :: rest)
    (noError : block.tbErrno = 0) :
    ∃ next : RestoreWriter,
      next.blocks = block.rest (min left block.bytes.length) :: rest ∧
      next.tcWriterStop = false ∧ next.fp = .opened ∧
      next.io.written = writer.io.written.tail ∧
      ∀ rounds, restoreLoop (rounds + 1) writer ((left : Int) - slack) true =
        restoreLoop rounds next ((left : Int) - slack -
          writeResult writer.io.written (min (left - slack) block.bytes.length)) true := by
  have small := block.small
  have asks : ((left : Int) - slack).toNat = left - slack := by omega
  have rounded : roundToRecords (left - slack) = left := by
    unfold roundToRecords recordSize
    omega
  have taken : unsignedMin (roundToRecords (left - slack)) block.bytes.length =
      min left block.bytes.length := by
    rw [rounded, unsignedMin, Nat.mod_eq_of_lt (by omega), Nat.mod_eq_of_lt (by omega)]
  have read : writer.getReadBuffer (left - slack) =
      (some (block.bytes.take (min left block.bytes.length), 0),
        { writer with blocks := block.rest (min left block.bytes.length) :: rest }) := by
    unfold getReadBuffer
    rw [if_neg (by rw [running]; decide), first]
    dsimp only
    rw [noError, taken]
  have piece : ((block.bytes.take (min left block.bytes.length)).take (left - slack)).length =
      min (left - slack) block.bytes.length := by
    rw [List.length_take, List.length_take]
    omega
  obtain ⟨kept, still, -⟩ := writeRecord_count
    { writer with blocks := block.rest (min left block.bytes.length) :: rest }
    ((block.bytes.take (min left block.bytes.length)).take (left - slack))
  obtain ⟨result, scripts, file⟩ := @writeRecord_result
    { writer with blocks := block.rest (min left block.bytes.length) :: rest } opened
    ((block.bytes.take (min left block.bytes.length)).take (left - slack))
  rw [piece] at result
  refine ⟨_, kept, still.trans running, file, scripts, ?_⟩
  intro rounds
  have stop : ¬ ((left : Int) - slack ≤ 0 ∨ writer.tcWriterStop = true) := by
    rw [running]
    rintro (none_ | stopped)
    · omega
    · cases stopped
  rw [restoreLoop, if_neg stop, asks, read, ← result]
  rfl

/-- The loop on an open file takes the records of the section and no others exactly if
its writes go through, or nothing follows the section. -/
theorem restoreLoop_takes_iff (args : RestoreArgs) (rounds : Nat) (writer : RestoreWriter)
    (left slack : Nat) (running : writer.tcWriterStop = false) (whole : Whole writer.blocks)
    (opened : writer.fp = .opened) (records : 512 ∣ left) (slack_lt : slack < 512)
    (positive : 0 < left) (ordinary : left < 2 ^ 32 - 2 ^ 25) (there : left ≤ writer.available)
    (enough : writer.available < rounds) :
    (restoreLoop rounds writer ((left : Int) - slack) true).available + left = writer.available ↔
      writer.available = left ∨
        writesThrough writer.blocks writer.io.written left slack = true := by
  induction rounds generalizing writer left slack with
  | zero => exact absurd enough (Nat.not_lt_zero _)
  | succ rounds ih =>
      obtain ⟨block, rest, first, nonempty, dvd, noError, others, total⟩ :=
        exists_first whole (Nat.lt_of_lt_of_le positive there)
      have length := List.length_pos_iff.mpr nonempty
      obtain ⟨next, blocks, still, file, scripts, loop⟩ :=
        restoreLoop_first running opened records slack_lt positive (by omega) first noError
      have remaining : next.available + min left block.bytes.length = writer.available := by
        rw [available_eq, blocks, total]
        change ((block.bytes.drop _) ++ bytesOf rest).length + _ = _
        rw [List.length_append, List.length_drop]
        omega
      have whole' : Whole next.blocks := by
        rw [blocks]
        intro other listed
        rcases List.mem_cons.mp listed with rfl | inRest
        · refine ⟨?_, noError⟩
          rw [ReadBlock.rest, List.length_drop]
          omega
        · exact others other inRest
      rw [loop, ← writesThrough_dropWhile, first, writesThrough, if_neg nonempty]
      by_cases last : left ≤ block.bytes.length
      · -- the last piece of the section
        rw [if_pos last]
        rw [Nat.min_eq_left last] at remaining
        rw [Nat.min_eq_left (by omega)]
        rcases writeResult_cases writer.io.written (left - slack) with
          ⟨full, isFull⟩ | ⟨low, short, isShort⟩
        · have nothing :
              ((left : Int) - slack - writeResult writer.io.written (left - slack)) ≤ 0 := by
            omega
          rw [restoreLoop_done nothing, isFull]
          simp only [or_true, iff_true]
          omega
        · rw [isShort]
          have exceeds := restoreLoop_over args rounds next
            ((left : Int) - slack - writeResult writer.io.written (left - slack)) true 0 still
              whole'
            (by omega) (Nat.zero_le _) (by omega) (by omega)
          simp only [Bool.false_eq_true, or_false]
          omega
      · rw [if_neg last]
        rw [Nat.min_eq_right (by omega)] at remaining
        rw [Nat.min_eq_right (by omega)]
        obtain ⟨result, isResult⟩ : ∃ result,
          writer.io.written.head?.getD (some block.bytes.length) = result := ⟨_, rfl⟩
        unfold writeResult
        rw [isResult]
        cases result with
        | none =>
            have exceeds := restoreLoop_over args rounds next ((left : Int) - slack - -1) true
              (left - block.bytes.length) still whole' (by omega) (by omega) (by omega) (by omega)
            simp only [Bool.false_eq_true, or_false]
            omega
        | some count =>
            by_cases fits : block.bytes.length ≤ count + slack
            · have counted : ((left : Int) - slack - (min count block.bytes.length : Nat)) =
                  ((left - block.bytes.length : Nat) : Int) -
                    ((slack - (block.bytes.length - count) : Nat) : Int) := by
                omega
              have rest_ := ih next (left - block.bytes.length)
                (slack - (block.bytes.length - count)) still whole' file (by omega) (by omega)
                (by omega) (by omega) (by omega) (by omega)
              have through : writesThrough next.blocks next.io.written (left - block.bytes.length)
                  (slack - (block.bytes.length - count)) =
                    writesThrough rest writer.io.written.tail (left - block.bytes.length)
                      (slack - (block.bytes.length - count)) := by
                rw [blocks, scripts, writesThrough, if_pos]
                apply List.drop_of_length_le
                omega
              rw [through] at rest_
              dsimp only
              rw [counted, decide_eq_true_eq, and_iff_right fits]
              refine Iff.trans ?_ (rest_.trans (or_congr_left ?_))
              · omega
              · omega
            · have exceeds := restoreLoop_over args rounds next
                ((left : Int) - slack - (min count block.bytes.length : Nat)) true
                (left - block.bytes.length) still whole' (by omega) (by omega) (by omega) (by omega)
              simp only [fits, false_and, decide_false, Bool.false_eq_true, or_false]
              omega

/-! ## The section of a file -/

/-- A section that is not written is counted as it is taken. -/
theorem restoreLoop_passed (rounds : Nat) (writer : RestoreWriter) (size : Int)
    (running : writer.tcWriterStop = false) (whole : Whole writer.blocks)
    (ordinary : size < 2 ^ 31) (there : roundToRecords size.toNat ≤ writer.available)
    (enough : writer.available < rounds) :
    (restoreLoop rounds writer size false).available + roundToRecords size.toNat =
      writer.available := by
  induction rounds generalizing writer size with
  | zero => exact absurd enough (Nat.not_lt_zero _)
  | succ rounds ih =>
      by_cases done : size ≤ 0
      · rw [restoreLoop_done done, show size.toNat = 0 by omega]
        rfl
      · have more : bytesOf writer.blocks ≠ [] := by
          rw [available_eq] at there
          apply List.length_pos_iff.mp
          have above := roundToRecords_ge size.toNat
          omega
        obtain ⟨front, next, count, loop, bytes, left, still, nonempty, records, most, -, -, -,
          counted, -⟩ :=
          @restoreLoop_round writer running whole more size (by omega) (by omega) false
        have total := available_of_append bytes
        have isCount := counted rfl
        have rounded : roundToRecords (size - count).toNat + front.length =
            roundToRecords size.toNat := by
          unfold roundToRecords recordSize at most ⊢
          omega
        rw [loop]
        have rest := ih next (size - count) still left (by omega) (by omega) (by omega)
        omega

/-- The section of a file is given to `write(2)`: it is wanted, and its file has been
opened before or is opened now. -/
def writesSection (writer : RestoreWriter) (args : RestoreArgs) (realName : Option CString)
    (wanted : Bool) : Bool :=
  wanted && realName.any fun path =>
    decide (writer.fp ≠ .closed) ||
      (replaces args writer.acls path && writer.io.opened.head?.getD true)

theorem openWanted_opens (args : RestoreArgs) (writer : RestoreWriter) (path : CString) :
    (writer.openWanted args path).2 =
        (replaces args writer.acls path && writer.io.opened.head?.getD true) ∧
      (writer.openWanted args path).1.blocks = writer.blocks ∧
      (writer.openWanted args path).1.tcWriterStop = writer.tcWriterStop ∧
      (writer.openWanted args path).1.io.written = writer.io.written ∧
      ((writer.openWanted args path).2 = true → (writer.openWanted args path).1.fp = .opened) := by
  unfold openWanted
  cases replaced : replaces args writer.acls path with
  | false => exact ⟨rfl, rfl, rfl, rfl, nofun⟩
  | true =>
      refine ⟨rfl, rfl, rfl, rfl, ?_⟩
      intro done
      exact if_pos done

/-- The state in front of the loop of `restore_file`. -/
theorem restoreFile_opened (args : RestoreArgs) (writer : RestoreWriter)
    (realName : Option CString) (size : Int) (wanted : Bool) :
    ∃ opened : RestoreWriter,
      writer.restoreFile args realName size wanted =
        closeFinished realName (writer.hugeSize - size)
          (restoreLoop (opened.available + 1) opened size
            (writesSection writer args realName wanted)) ∧
      opened.blocks = writer.blocks ∧ opened.tcWriterStop = writer.tcWriterStop ∧
      opened.io.written = writer.io.written ∧
      (writesSection writer args realName wanted = true →
        (opened.fp = .opened ↔ writer.fp ≠ .failed)) := by
  unfold writesSection
  cases realName with
  | none =>
      rw [Option.any_none, Bool.and_false]
      exact ⟨writer, rfl, rfl, rfl, rfl, nofun⟩
  | some path =>
      rw [Option.any_some]
      by_cases opens : writer.fp = .closed ∧ wanted = true
      · obtain ⟨closed, rfl⟩ := opens
        obtain ⟨writes, blocks, stop, written, file⟩ := openWanted_opens args writer path
        rw [restoreFile_some args size (if_pos ⟨closed, rfl⟩), closed, ← writes]
        refine ⟨_, rfl, blocks, stop, written, ?_⟩
        intro wanted
        exact iff_of_true (file wanted) nofun
      · rw [restoreFile_some args size (if_neg opens)]
        cases wanted with
        | false => exact ⟨writer, rfl, rfl, rfl, rfl, nofun⟩
        | true =>
            have unclosed : writer.fp ≠ .closed := fun closed => opens ⟨closed, rfl⟩
            rw [decide_eq_true unclosed]
            refine ⟨writer, rfl, rfl, rfl, rfl, ?_⟩
            intro _
            cases file : writer.fp with
            | closed => exact absurd file unclosed
            | failed => exact iff_of_false nofun fun able => able rfl
            | opened => exact iff_of_true rfl nofun

theorem closeFinished_available (realName : Option CString) (left : Int)
    (restored : RestoreWriter) :
    (closeFinished realName left restored).available = restored.available := by
  unfold closeFinished
  split
  · split
    · rfl
    · rfl
  · rfl

/-- Without an open file, every write fails. -/
theorem restoreLoop_unopened (args : RestoreArgs) (writer : RestoreWriter) (size : Int)
    (running : writer.tcWriterStop = false) (whole : Whole writer.blocks)
    (unopened : writer.fp ≠ .opened) (positive : 0 < size) (ordinary : size < 2 ^ 31)
    (there : roundToRecords size.toNat ≤ writer.available) :
    (restoreLoop (writer.available + 1) writer size true).available + roundToRecords size.toNat =
        writer.available ↔
      writer.available = roundToRecords size.toNat := by
  have above := roundToRecords_ge size.toNat
  have below := roundToRecords_lt size.toNat
  have more : bytesOf writer.blocks ≠ [] := by
    rw [available_eq] at there
    apply List.length_pos_iff.mp
    omega
  obtain ⟨front, next, count, loop, bytes, left, still, nonempty, records, most, -, -, -, -,
    failed⟩ := @restoreLoop_round writer running whole more size positive (by omega) true
  have isCount := failed rfl unopened
  have total := available_of_append bytes
  rw [loop]
  have exceeds := restoreLoop_over args writer.available next (size - count) true
    (roundToRecords size.toNat - front.length) still left (by omega) (by omega) (by omega)
      (by omega)
  omega

/-- `restore_file` takes the records of its section and no others exactly if nothing is
written, the file is open and the writes go through, or nothing follows the section. -/
theorem restoreFile_takes_iff (args : RestoreArgs) (writer : RestoreWriter)
    (realName : Option CString) (size : Int) (wanted : Bool)
    (running : writer.tcWriterStop = false) (whole : Whole writer.blocks)
    (ordinary : size < 2 ^ 31) (there : roundToRecords size.toNat ≤ writer.available) :
    (writer.restoreFile args realName size wanted).available + roundToRecords size.toNat =
        writer.available ↔
      size ≤ 0 ∨ writesSection writer args realName wanted = false ∨
        writer.available = roundToRecords size.toNat ∨
        writer.fp ≠ .failed ∧ writesThrough writer.blocks writer.io.written
          (roundToRecords size.toNat) (roundToRecords size.toNat - size.toNat) = true := by
  obtain ⟨opened, shape, blocks, stop, written, file⟩ :=
    restoreFile_opened args writer realName size wanted
  have running' : opened.tcWriterStop = false := stop.trans running
  have whole' : Whole opened.blocks := by
    rw [blocks]
    exact whole
  have total : opened.available = writer.available := by
    rw [available_eq, available_eq, blocks]
  rw [shape, closeFinished_available, ← total]
  rw [← total] at there
  by_cases nothing : size ≤ 0
  · rw [restoreLoop_done nothing, show size.toNat = 0 by omega]
    exact iff_of_true rfl (.inl nothing)
  cases writes : writesSection writer args realName wanted with
  | false =>
      exact iff_of_true (restoreLoop_passed _ opened size running' whole' ordinary there (by omega))
        (.inr (.inl rfl))
  | true =>
      have below := roundToRecords_lt size.toNat
      have above := roundToRecords_ge size.toNat
      have records := roundToRecords_dvd size.toNat
      by_cases open_ : opened.fp = .opened
      · have takes := restoreLoop_takes_iff args (opened.available + 1) opened
          (roundToRecords size.toNat) (roundToRecords size.toNat - size.toNat) running' whole' open_
          records (by omega) (by omega) (by omega) there (by omega)
        have asked : (roundToRecords size.toNat : Int) -
            ((roundToRecords size.toNat - size.toNat : Nat) : Int) = size := by
          omega
        rw [asked, blocks, written] at takes
        rw [takes]
        have able := (file writes).mp open_
        simp only [nothing, Bool.true_eq_false, able, ne_eq, not_false_eq_true, true_and, false_or]
      · have failed : ¬ writer.fp ≠ .failed := fun able => open_ ((file writes).mpr able)
        rw [restoreLoop_unopened args opened size running' whole' open_ (by omega) ordinary there]
        simp only [nothing, Bool.true_eq_false, failed, false_and, false_or, or_false]

/-- A decoder in front of two records of data. -/
def twoRecords (written : List (Option Nat)) : RestoreWriter :=
  .start restoreArgs [⟨List.replicate 1024 1, 0, by rw [List.length_replicate]; decide⟩] []
    ⟨[], [], written⟩

theorem twoRecords_whole (written : List (Option Nat)) : Whole (twoRecords written).blocks := by
  intro block listed
  cases List.mem_singleton.mp listed
  exact ⟨by rw [List.length_replicate]; decide, rfl⟩

theorem twoRecords_available (written : List (Option Nat)) :
    (twoRecords written).available = 1024 := by
  unfold available twoRecords start
  rw [List.map_singleton, List.sum_singleton, List.length_replicate]

theorem restoreFile_takes_iff_oneRecord :
    ((twoRecords []).restoreFile restoreArgs (some [slash, 102]) 512 true).available +
          roundToRecords (512 : Int).toNat = (twoRecords []).available ↔
      (512 : Int) ≤ 0 ∨ writesSection (twoRecords []) restoreArgs (some [slash, 102]) true = false ∨
        (twoRecords []).available = roundToRecords (512 : Int).toNat ∨
        (twoRecords []).fp ≠ .failed ∧ writesThrough (twoRecords []).blocks
          (twoRecords []).io.written (roundToRecords (512 : Int).toNat)
          (roundToRecords (512 : Int).toNat - (512 : Int).toNat) = true :=
  restoreFile_takes_iff restoreArgs (twoRecords []) (some [slash, 102]) 512 true rfl
    (twoRecords_whole []) (by decide) (by rw [twoRecords_available]; decide)

/-- After a write that fails, a file of one record takes the record behind it as well. -/
theorem failedWrite_takes_more :
    ∃ (args : RestoreArgs) (writer : RestoreWriter) (path : CString) (size : Int),
      writer.tcWriterStop = false ∧ Whole writer.blocks ∧ size < 2 ^ 31 ∧
      roundToRecords size.toNat ≤ writer.available ∧
      (writer.restoreFile args (some path) size true).available + roundToRecords size.toNat ≠
        writer.available := by
  refine ⟨restoreArgs, twoRecords [none], [slash, 102], 512, rfl, twoRecords_whole _, by decide,
    by rw [twoRecords_available]; decide, ?_⟩
  decide +kernel

end RestoreWriter

end Ndmpd
