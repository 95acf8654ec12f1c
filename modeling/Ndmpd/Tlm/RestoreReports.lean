import Ndmpd.Foundation.Transition
import Ndmpd.Tlm.ArchiveRoundTrip

/-!
# What is reported as restored

`tar_getdir` takes a file for restored when the sizes in its headers add up, whatever
became of its data: `restore_file` returns zero when the stream ends inside the file,
when a block cannot be read and when the file cannot be written. A `RestoreRun` keeps
beside the decoder whether all sections of the current file have been written to it. As
long as no round meets such a case (`RestoreRun.supplied`), only restored files are
reported and none is left in part (`intact_of_supplied`).
-/

namespace Ndmpd

open Foundation

namespace RestoreWriter

variable {writer : RestoreWriter}

/-! ## Reading from any blocks -/

theorem available_eq (writer : RestoreWriter) :
    writer.available = (bytesOf writer.blocks).length := by
  unfold available bytesOf
  rw [List.length_flatten, List.map_map]
  rfl

/-- As long as bytes are left, a request takes some of them. -/
theorem getReadBuffer_some (running : writer.tcWriterStop = false) (more : 0 < writer.available)
    {want : Nat} (positive : 0 < want) (ordinary : want < 2 ^ 32 - 512) :
    ∃ front error blocks, writer.getReadBuffer want =
        (some (front, error), { writer with blocks := blocks }) ∧
      bytesOf writer.blocks = front ++ bytesOf blocks ∧ 0 < front.length := by
  have same := bytesOf_dropWhile writer.blocks
  rw [available_eq, ← same] at more
  rw [← same]
  unfold getReadBuffer
  rw [if_neg (by rw [running]; decide)]
  have first := List.head?_dropWhile_not (fun block : ReadBlock => decide (block.bytes = []))
    writer.blocks
  revert more first
  generalize (writer.blocks.dropWhile fun block => block.bytes = []) = left
  intro more first
  cases left with
  | nil => exact absurd more (Nat.lt_irrefl 0)
  | cons block rest =>
      have small := block.small
      have below := roundToRecords_lt want
      have above := roundToRecords_ge want
      have nonempty : 0 < block.bytes.length := by
        apply List.length_pos_iff.mpr
        simpa using first
      have size : unsignedMin (roundToRecords want) block.bytes.length =
          min (roundToRecords want) block.bytes.length := by
        rw [unsignedMin, Nat.mod_eq_of_lt (by omega), Nat.mod_eq_of_lt (by omega)]
      refine ⟨block.bytes.take (unsignedMin (roundToRecords want) block.bytes.length),
        block.tbErrno,
        block.rest (unsignedMin (roundToRecords want) block.bytes.length) :: rest, rfl, ?_, ?_⟩
      · rw [bytesOf, bytesOf, List.map_cons, List.map_cons, List.flatten_cons, List.flatten_cons,
          ← List.append_assoc]
        congr 1
        exact (List.take_append_drop _ _).symm
      · rw [List.length_take, size]
        omega

/-- `input_mem` stops the decoder only when the bytes do not suffice. -/
theorem inputMemLoop_running (rounds : Nat) (writer : RestoreWriter) (mem : List UInt8)
    (toread : Nat) (running : writer.tcWriterStop = false) (enough : toread ≤ writer.available)
    (ordinary : toread < 2 ^ 31) :
    (inputMemLoop rounds writer mem toread).2.tcWriterStop = false := by
  induction rounds generalizing writer mem toread with
  | zero => exact running
  | succ rounds ih =>
      unfold inputMemLoop
      by_cases done : toread = 0
      · rw [if_pos done]
        exact running
      · obtain ⟨front, error, blocks, read, bytes, nonempty⟩ :=
          @getReadBuffer_some writer running (by omega) toread (by omega) (by omega)
        rw [if_neg done, read]
        dsimp only
        split
        · exact running
        · apply ih
          · exact running
          · have total := congrArg List.length bytes
            rw [List.length_append] at total
            rw [available_eq] at enough ⊢
            rw [List.length_take]
            change _ ≤ (bytesOf blocks).length
            omega
          · omega

theorem getReadBuffer_frame (writer : RestoreWriter) (want : Nat) :
    ∃ blocks stop, (writer.getReadBuffer want).2 =
      { writer with blocks := blocks, tcWriterStop := stop } := by
  unfold getReadBuffer
  split
  · exact ⟨writer.blocks, writer.tcWriterStop, rfl⟩
  · split
    · exact ⟨[], true, rfl⟩
    · exact ⟨_, writer.tcWriterStop, rfl⟩

/-- `input_mem` changes nothing but the pool. -/
theorem inputMemLoop_frame (rounds : Nat) (writer : RestoreWriter) (mem : List UInt8)
    (toread : Nat) :
    ∃ blocks stop fault, (inputMemLoop rounds writer mem toread).2 =
      { writer with blocks := blocks, tcWriterStop := stop, faulted := fault } := by
  induction rounds generalizing writer mem toread with
  | zero => exact ⟨writer.blocks, writer.tcWriterStop, writer.faulted, rfl⟩
  | succ rounds ih =>
      unfold inputMemLoop
      obtain ⟨blocks, stop, kept⟩ := getReadBuffer_frame writer toread
      split
      · exact ⟨writer.blocks, writer.tcWriterStop, writer.faulted, rfl⟩
      · split
        · next read =>
            rw [read] at kept
            dsimp only at kept
            subst kept
            exact ⟨blocks, stop, true, rfl⟩
        · next read =>
            rw [read] at kept
            dsimp only at kept ⊢
            subst kept
            split
            · exact ⟨blocks, stop, writer.faulted, rfl⟩
            · obtain ⟨later, stopped, fault, same⟩ := ih _ _ _
              rw [same]
              exact ⟨later, stopped, fault, rfl⟩

/-! ## Writing a file in full -/

/-- The next blocks give `size` bytes without an error, and what is written of each is
taken in full. -/
def takesAll : List ReadBlock → List (Option Nat) → Nat → Bool
  | _, _, 0 => true
  | [], _, _ + 1 => false
  | block :: rest, written, size + 1 =>
      if block.bytes = [] then takesAll rest written (size + 1)
      else
        let piece := min (size + 1) block.bytes.length
        block.tbErrno = 0 ∧ (written.head?.getD (some piece)).any (piece ≤ ·) ∧
          takesAll rest written.tail (size + 1 - block.bytes.length)

theorem takesAll_none (blocks : List ReadBlock) (written : List (Option Nat)) :
    takesAll blocks written 0 = true := by
  unfold takesAll
  rfl

theorem takesAll_empty {block : ReadBlock} (empty : block.bytes = []) (rest : List ReadBlock)
    (written : List (Option Nat)) (size : Nat) :
    takesAll (block :: rest) written size = takesAll rest written size := by
  cases size with
  | zero => rw [takesAll_none, takesAll_none]
  | succ size => rw [takesAll, if_pos empty]

theorem takesAll_dropWhile (blocks : List ReadBlock) (written : List (Option Nat)) (size : Nat) :
    takesAll (blocks.dropWhile fun block => block.bytes = []) written size =
      takesAll blocks written size := by
  induction blocks with
  | nil => rfl
  | cons block blocks ih =>
      by_cases empty : block.bytes = []
      · rw [List.dropWhile_cons_of_pos (by simpa using empty), takesAll_empty empty, ih]
      · rw [List.dropWhile_cons_of_neg (by simpa using empty)]

/-- The first block that is not empty, with what follows it. -/
theorem takesAll_first {blocks : List ReadBlock} {written : List (Option Nat)} {size : Nat}
    (positive : 0 < size) (takes : takesAll blocks written size = true) :
    ∃ block rest, (blocks.dropWhile fun block => block.bytes = []) = block :: rest ∧
      block.bytes ≠ [] ∧ block.tbErrno = 0 ∧
      (∃ count, written.head?.getD (some (min size block.bytes.length)) = some count ∧
        min size block.bytes.length ≤ count) ∧
      takesAll rest written.tail (size - block.bytes.length) = true := by
  have first := List.head?_dropWhile_not (fun block : ReadBlock => decide (block.bytes = [])) blocks
  rw [← takesAll_dropWhile] at takes
  revert takes first
  generalize (blocks.dropWhile fun block => block.bytes = []) = left
  intro takes first
  obtain ⟨size, rfl⟩ := Nat.exists_eq_succ_of_ne_zero (Nat.ne_of_gt positive)
  cases left with
  | nil =>
      unfold takesAll at takes
      cases takes
  | cons block rest =>
      have nonempty : block.bytes ≠ [] := by simpa using first
      unfold takesAll at takes
      rw [if_neg nonempty, decide_eq_true_eq] at takes
      obtain ⟨noError, full, more⟩ := takes
      refine ⟨block, rest, rfl, nonempty, noError, ?_, more⟩
      cases result : written.head?.getD (some (min (size + 1) block.bytes.length)) with
      | none =>
          rw [result] at full
          cases full
      | some count =>
          rw [result] at full
          exact ⟨count, rfl, of_decide_eq_true full⟩

theorem takesAll_le {blocks : List ReadBlock} {written : List (Option Nat)} {size : Nat}
    (takes : takesAll blocks written size = true) : size ≤ (bytesOf blocks).length := by
  induction blocks generalizing written size with
  | nil =>
      cases size with
      | zero => exact Nat.zero_le _
      | succ size =>
          unfold takesAll at takes
          cases takes
  | cons block blocks ih =>
      have total : (bytesOf (block :: blocks)).length =
          block.bytes.length + (bytesOf blocks).length := List.length_append
      by_cases empty : block.bytes = []
      · rw [takesAll_empty empty] at takes
        have rest := ih takes
        omega
      · cases size with
        | zero => exact Nat.zero_le _
        | succ size =>
            unfold takesAll at takes
            rw [if_neg empty, decide_eq_true_eq] at takes
            have rest := ih takes.2.2
            omega

/-- The loop of `restore_file` writes the front of the stream to the open file. -/
theorem restoreLoop_takes (rounds : Nat) (writer : RestoreWriter) (size : Nat)
    (running : writer.tcWriterStop = false) (opened : writer.fp = .opened)
    (takes : takesAll writer.blocks writer.io.written size = true) (ordinary : size < 2 ^ 31)
    (enough : size ≤ rounds) :
    ∃ (blocks : List ReadBlock) (written : List (Option Nat)) (pieces : List (List UInt8)),
      restoreLoop rounds writer size true =
        { writer with
          blocks := blocks
          io := { writer.io with written := written }
          ops := writer.ops ++ pieces.map RestoreOp.write } ∧
      pieces.flatten = (bytesOf writer.blocks).take size := by
  induction rounds generalizing writer size with
  | zero =>
      have none : size = 0 := by omega
      subst none
      refine ⟨writer.blocks, writer.io.written, [], ?_, rfl⟩
      rw [List.map_nil, List.append_nil]
      rfl
  | succ rounds ih =>
      by_cases none : size = 0
      · subst none
        refine ⟨writer.blocks, writer.io.written, [], ?_, rfl⟩
        rw [List.map_nil, List.append_nil]
        rfl
      · obtain ⟨block, rest, first, nonempty, noError, ⟨count, result, full⟩, others⟩ :=
          takesAll_first (Nat.pos_of_ne_zero none) takes
        have small := block.small
        have above := roundToRecords_ge size
        have below := roundToRecords_lt size
        have length := List.length_pos_iff.mpr nonempty
        have bytes : bytesOf writer.blocks = block.bytes ++ bytesOf rest := by
          rw [← bytesOf_dropWhile, first]
          rfl
        obtain ⟨taken, isTaken⟩ : ∃ taken, taken = min (roundToRecords size) block.bytes.length :=
          ⟨_, rfl⟩
        have read : writer.getReadBuffer size =
            (some (block.bytes.take taken, 0),
              { writer with blocks := block.rest taken :: rest }) := by
          unfold getReadBuffer
          rw [if_neg (by rw [running]; decide), first]
          dsimp only
          rw [noError, unsignedMin, Nat.mod_eq_of_lt (by omega), Nat.mod_eq_of_lt (by omega),
            isTaken]
        have piece : (block.bytes.take taken).take size = block.bytes.take size := by
          rw [List.take_take]
          by_cases short : size ≤ taken
          · rw [Nat.min_eq_left short]
          · rw [Nat.min_eq_right (by omega), List.take_of_length_le (by omega),
              List.take_of_length_le (by omega)]
        have pieceLength : (block.bytes.take size).length = min size block.bytes.length :=
          List.length_take
        have wrote : { writer with blocks := block.rest taken :: rest }.writeRecord
            (block.bytes.take size) =
              ({ writer with
                  blocks := block.rest taken :: rest
                  io := { writer.io with written := writer.io.written.tail }
                  ops := writer.ops ++ [.write (block.bytes.take size)] },
                ((block.bytes.take size).length : Int)) := by
          unfold writeRecord
          rw [if_pos opened]
          dsimp only
          rw [pieceLength, result]
          dsimp only
          rw [List.take_of_length_le (show (block.bytes.take size).length ≤ count by omega),
            pieceLength]
          rfl
        have left : takesAll (block.rest taken :: rest) writer.io.written.tail
            (size - (block.bytes.take size).length) = true := by
          rw [pieceLength]
          by_cases whole : size ≤ block.bytes.length
          · rw [Nat.min_eq_left whole, Nat.sub_self]
            exact takesAll_none _ _
          · have empty : (block.rest taken).bytes = [] := by
              apply List.drop_of_length_le
              omega
            rw [takesAll_empty empty, Nat.min_eq_right (by omega)]
            exact others
        obtain ⟨blocks, written, pieces, loop, all⟩ := ih
          { writer with
            blocks := block.rest taken :: rest
            io := { writer.io with written := writer.io.written.tail }
            ops := writer.ops ++ [.write (block.bytes.take size)] }
          (size - (block.bytes.take size).length) running opened left (by omega) (by omega)
        refine ⟨blocks, written, block.bytes.take size :: pieces, ?_, ?_⟩
        · have stop : ¬ ((size : Int) ≤ 0 ∨ writer.tcWriterStop = true) := by
            rintro (nothing | stopped)
            · omega
            · rw [running] at stopped
              cases stopped
          rw [restoreLoop, if_neg stop, Int.toNat_natCast, read]
          dsimp only
          rw [if_neg (by decide), if_pos rfl, piece, wrote]
          dsimp only
          rw [show (size : Int) - ((block.bytes.take size).length : Int) =
            ((size - (block.bytes.take size).length : Nat) : Int) by omega, loop, List.map_cons,
            List.append_assoc, List.singleton_append]
        · rw [List.flatten_cons, all, bytes, List.take_append]
          congr 1
          change ((block.rest taken).bytes ++ bytesOf rest).take _ = _
          rw [pieceLength]
          by_cases whole : size ≤ block.bytes.length
          · rw [Nat.min_eq_left whole, Nat.sub_self, Nat.sub_eq_zero_of_le whole, List.take_zero,
              List.take_zero]
          · have empty : (block.rest taken).bytes = [] := by
              apply List.drop_of_length_le
              omega
            rw [empty, List.nil_append, Nat.min_eq_right (by omega)]

/-! ## The record that a round carries out -/

/-- The number that the octal digits of a field stand for. `oct_atoi` cuts it to an `int`. -/
def octNumber (memory : List UInt8) : Nat :=
  ((memory.dropWhile (· = 32)).takeWhile (isDigit 8)).foldl
    (fun value byte => value * 8 + digitValue byte) 0

theorem octAtoi_eq (memory : List UInt8) : octAtoi memory = toInt32 (octNumber memory) := by
  have cut := foldl_mod ((memory.dropWhile (· = 32)).takeWhile (isDigit 8)) 0
  unfold octAtoi octNumber
  rw [show (0 : Nat) % 2 ^ 32 = 0 from rfl] at cut
  rw [cut]
  unfold toInt32
  rw [Nat.mod_mod]

/-- The state in which `tar_getdir` gets to its `switch`, with what it looks at there. `thSize`
is the size that the header has, which `fileSize` is an `int` for. -/
structure RecordCall where
  writer : RestoreWriter
  linkflag : UInt8
  fileSize : Int
  record : List UInt8
  thSize : Nat

/-- The record that the next round carries out, if it comes to one. -/
def nextRecord (writer : RestoreWriter) : Option RecordCall :=
  if writer.multiVolume then
    some ⟨{ writer with multiVolume := false, lastAction := 0 }, writer.lastAction, writer.sizeLeft,
      List.replicate recordSize 0, writer.sizeLeft.toNat⟩
  else
    match writer.getReadBuffer 345 with
    | (none, _) => none
    | (some (record, _), writer) =>
        let linkflag := (record.drop thLinkflagAt).head?.getD 0
        if record.length < 345 ∨ tlmVfyTarChecksum record ≠ 1 then none
        else if linkflag = lfMultivol ∨ linkflag = lfVolhdr then
          some ⟨writer, linkflag, 0, record, octNumber (record.drop thSizeAt)⟩
        else
          let acls := if linkflag = lfHumongus then writer.acls else headerAcls writer.acls record
          some ⟨{ writer with acls := acls, aclSpot := 0, lastAction := linkflag }, linkflag,
            octAtoi (record.drop thSizeAt), record, octNumber (record.drop thSizeAt)⟩

theorem tarGetdirStep_of_record {args : RestoreArgs} {call : RecordCall}
    (next : nextRecord writer = some call) :
    writer.tarGetdirStep args =
      call.writer.restoreRecord args call.linkflag call.fileSize call.record := by
  unfold nextRecord at next
  unfold tarGetdirStep
  split
  · next multi =>
      rw [if_pos multi] at next
      cases next
      rfl
  · next single =>
      rw [if_neg single] at next
      split
      · next stopped read =>
          rw [read] at next
          cases next
      · next record error reading read =>
          rw [read] at next
          dsimp only at next
          split
          · next bad =>
              rw [if_pos bad] at next
              cases next
          · next good =>
              rw [if_neg good] at next
              unfold acceptRecord
              dsimp only
              split
              · next volume =>
                  rw [if_pos volume] at next
                  cases next
                  rfl
              · next ordinary =>
                  rw [if_neg ordinary] at next
                  cases next
                  rfl

/-- Otherwise the round touches no file, and it stops the decoder only when nothing is
left. -/
theorem tarGetdirStep_of_none {args : RestoreArgs} (none_ : nextRecord writer = none) :
    (writer.tarGetdirStep args).fp = writer.fp ∧
      (writer.tarGetdirStep args).sizeLeft = writer.sizeLeft ∧
      (writer.tcWriterStop = false → 0 < writer.available →
        (writer.tarGetdirStep args).tcWriterStop = false) := by
  unfold nextRecord at none_
  unfold tarGetdirStep
  split
  · next multi =>
      rw [if_pos multi] at none_
      cases none_
  · next single =>
      rw [if_neg single] at none_
      obtain ⟨blocks_, stop, kept⟩ := getReadBuffer_frame writer 345
      split
      · next stopped read =>
          rw [read] at kept
          dsimp only at kept
          subst kept
          refine ⟨rfl, rfl, ?_⟩
          intro running more
          obtain ⟨front, error, blocks, taken, -⟩ :=
            getReadBuffer_some running more (show 0 < 345 by decide) (by decide)
          rw [taken] at read
          cases read
      · next record error reading read =>
          rw [read] at none_ kept
          dsimp only at none_ kept
          subst kept
          split
          · refine ⟨rfl, rfl, ?_⟩
            intro running more
            obtain ⟨front, error, blocks, taken, -⟩ :=
              getReadBuffer_some running more (show 0 < 345 by decide) (by decide)
            rw [taken] at read
            have same := congrArg (fun result => result.2.tcWriterStop) read
            exact same.symm.trans running
          · next good =>
              rw [if_neg good] at none_
              split at none_
              · cases none_
              · cases none_

/-- What a record is to `restoreRegular`, with the inode of an `LF_LINK`, if it is the
header of a regular file. -/
def RecordCall.regular (call : RecordCall) : Option (Option Nat) :=
  if call.linkflag = lfLink then
    let inode := ((octAtoi (call.record.drop thHlinkInoAt)) % 2 ^ 64).toNat
    let seen := if inode = 0 then none else call.writer.hardlinkQ.hardlinkQGet inode
    if seen.isSome ∨ call.record.head? = some 0 then none else some (some inode)
  else if call.linkflag = lfOldnormal then if call.record.head? = some 0 then none else some none
  else if call.linkflag = lfNormal ∨ call.linkflag = lfContig then some none
  else none

theorem restoreRecord_of_regular (args : RestoreArgs) {call : RecordCall} {hardlink : Option Nat}
    (regular : call.regular = some hardlink) :
    call.writer.restoreRecord args call.linkflag call.fileSize call.record =
      call.writer.restoreRegular args call.fileSize hardlink call.record := by
  unfold RecordCall.regular at regular
  unfold restoreRecord
  by_cases isLink : call.linkflag = lfLink
  · rw [if_pos isLink] at regular
    rw [if_neg (by rw [isLink]; decide), if_pos isLink]
    unfold restoreLink
    dsimp only at regular ⊢
    generalize (if ((octAtoi (call.record.drop thHlinkInoAt)) % 2 ^ 64).toNat = 0 then none
      else call.writer.hardlinkQ.hardlinkQGet _) = seen at regular ⊢
    cases seen with
    | some node =>
        rw [if_pos (.inl rfl)] at regular
        cases regular
    | none =>
        dsimp only
        by_cases nul : call.record.head? = some 0
        · rw [if_pos (.inr nul)] at regular
          cases regular
        · rw [if_neg nul]
          rw [if_neg (by rintro (seen | same); cases seen; exact nul same)] at regular
          cases regular
          rfl
  · rw [if_neg isLink] at regular
    by_cases isOld : call.linkflag = lfOldnormal
    · rw [if_pos isOld] at regular
      rw [if_neg (by rw [isOld]; decide), if_neg isLink, if_pos isOld]
      split at regular
      · cases regular
      · next named =>
          cases regular
          rw [if_neg named]
    · rw [if_neg isOld] at regular
      split at regular
      · next isNormal =>
          cases regular
          have notMultivol : call.linkflag ≠ lfMultivol := by
            rcases isNormal with flag | flag
            · rw [flag]
              decide
            · rw [flag]
              decide
          rw [if_neg notMultivol, if_neg isLink, if_neg isOld, if_pos isNormal]
      · cases regular

/-- The bytes that a record of another kind announces. -/
def RecordCall.demand (call : RecordCall) : Nat :=
  if call.linkflag = lfLonglink then (longNameSize call.fileSize call.writer.lnkEnd).toNat
  else if call.linkflag = lfLongname then (longNameSize call.fileSize call.writer.nmEnd).toNat
  else if call.linkflag = lfAcl then call.fileSize.toNat
  else if call.linkflag = lfHumongus then
    (if call.fileSize = 0 then (recordSize : Int) else call.fileSize).toNat
  else 0

/-- An operation that is not about a file that is being written. -/
structure Aside (before after : RestoreWriter) : Prop where
  fp : after.fp = before.fp
  sizeLeft : before.sizeLeft ≤ 0 → after.sizeLeft ≤ 0
  stop : after.tcWriterStop = before.tcWriterStop

theorem Aside.refl (writer : RestoreWriter) : Aside writer writer := ⟨rfl, id, rfl⟩

theorem Aside.trans {first second third : RestoreWriter} (before : Aside first second)
    (after : Aside second third) : Aside first third :=
  ⟨after.fp.trans before.fp, fun none_ => after.sizeLeft (before.sizeLeft none_),
    after.stop.trans before.stop⟩

theorem reportRestored_aside (writer : RestoreWriter) (mchtype : MatchType) (name : CString)
    (pos : Nat) : Aside writer (writer.reportRestored mchtype name pos) := by
  unfold reportRestored
  split
  · exact ⟨rfl, id, rfl⟩
  · exact .refl writer

theorem Aside.ite {condition : Prop} [Decidable condition] {before yes no : RestoreWriter}
    (first : Aside before yes) (second : Aside before no) :
    Aside before (if condition then yes else no) := by
  split
  · exact first
  · exact second

theorem Aside.used {before after : RestoreWriter} (aside : Aside before after) :
    Aside before after.resetNames :=
  ⟨aside.fp, aside.sizeLeft, aside.stop⟩

theorem Aside.pushed {before after : RestoreWriter} (aside : Aside before after) (path : CString) :
    Aside before ((after.dtreePopUntil path).dtreePush path).resetNames :=
  ⟨aside.fp, aside.sizeLeft, aside.stop⟩

theorem restoreDirectory_aside (args : RestoreArgs) (writer : RestoreWriter)
    (record : List UInt8) : Aside writer (writer.restoreDirectory args record) := by
  unfold restoreDirectory
  dsimp only [fileWanted]
  split
  · exact ⟨rfl, id, rfl⟩
  · next path _ =>
      split
      · exact ⟨rfl, id, rfl⟩
      · dsimp only [nextMade]
        apply Aside.pushed
        apply Aside.ite
        · refine Aside.trans ?_ (reportRestored_aside _ _ _ _)
          exact ⟨rfl, id, rfl⟩
        · exact ⟨rfl, id, rfl⟩

theorem restoreSymlink_aside (args : RestoreArgs) (writer : RestoreWriter)
    (record : List UInt8) : Aside writer (writer.restoreSymlink args record) := by
  unfold restoreSymlink
  dsimp only [fileWanted]
  split
  · exact ⟨rfl, id, rfl⟩
  · dsimp only [nextMade]
    apply Aside.used
    apply Aside.ite
    · refine Aside.trans ?_ (reportRestored_aside _ _ _ _)
      exact ⟨rfl, id, rfl⟩
    · exact ⟨rfl, id, rfl⟩

theorem restoreFifo_aside (args : RestoreArgs) (writer : RestoreWriter)
    (record : List UInt8) : Aside writer (writer.restoreFifo args record) := by
  unfold restoreFifo
  dsimp only [fileWanted]
  split
  · exact ⟨rfl, id, rfl⟩
  · apply Aside.used
    refine Aside.trans ?_ (reportRestored_aside _ _ _ _)
    exact ⟨rfl, id, rfl⟩

theorem restoreHardLink_aside (args : RestoreArgs) (target : Option CString)
    (writer : RestoreWriter) (record : List UInt8) :
    Aside writer (writer.restoreHardLink args target record) := by
  unfold restoreHardLink
  dsimp only [fileWanted]
  split
  · exact ⟨rfl, id, rfl⟩
  · split
    · dsimp only [nextMade]
      apply Aside.used
      apply Aside.ite
      · exact ⟨rfl, id, rfl⟩
      · exact ⟨rfl, id, rfl⟩
    · exact ⟨rfl, id, rfl⟩

/-- A record leaves the open file alone, and with the bytes that it announces there it
does not stop the decoder. -/
structure RecordCall.Passes (call : RecordCall) (next : RestoreWriter) : Prop where
  fp : next.fp = call.writer.fp
  sizeLeft : call.writer.sizeLeft ≤ 0 → next.sizeLeft ≤ 0
  running : call.writer.tcWriterStop = false → call.demand ≤ call.writer.available →
    call.demand < 2 ^ 31 → next.tcWriterStop = false

theorem RecordCall.Passes.of_aside {call : RecordCall} {next : RestoreWriter}
    (aside : Aside call.writer next) : call.Passes next :=
  ⟨aside.fp, aside.sizeLeft, fun running _ _ => aside.stop.trans running⟩

/-- What is read of a record is what it announces. -/
theorem RecordCall.Passes.of_read {call : RecordCall} {next : RestoreWriter} {len : Int}
    (demand : call.demand = len.toNat) (aside : Aside (call.writer.inputMem len).2 next) :
    call.Passes next := by
  obtain ⟨blocks, stopped, fault, kept⟩ := inputMemLoop_frame len.toNat call.writer [] len.toNat
  refine ⟨?_, ?_, ?_⟩
  · rw [aside.fp, inputMem, kept]
  · intro none_
    apply aside.sizeLeft
    rw [inputMem, kept]
    exact none_
  · intro running enough ordinary
    rw [demand] at enough ordinary
    rw [aside.stop]
    exact inputMemLoop_running _ _ _ _ running enough ordinary

theorem getLongName_aside (writer : RestoreWriter) (recsize : Int)
    (name : CharArray tlmMaxPathName) (bufSpot : Nat) :
    Aside (writer.inputMem recsize).2 (writer.getLongName recsize name bufSpot).1 := by
  unfold getLongName
  split
  · next read =>
      rw [read]
      exact ⟨rfl, id, rfl⟩
  · next read =>
      rw [read]
      exact ⟨rfl, id, rfl⟩

/-- What is read is never empty. -/
theorem length_getReadBuffer {want : Nat} (positive : 0 < want) (ordinary : want < 2 ^ 31)
    {rec : List UInt8} {error : Int} {next : RestoreWriter}
    (taken : writer.getReadBuffer want = (some (rec, error), next)) : 0 < rec.length := by
  have first := List.head?_dropWhile_not (fun block : ReadBlock => decide (block.bytes = []))
    writer.blocks
  unfold getReadBuffer at taken
  split at taken
  · cases taken
  · revert first taken
    generalize (writer.blocks.dropWhile fun block => block.bytes = []) = left
    intro first taken
    cases left with
    | nil => cases taken
    | cons block rest =>
        cases taken
        have nonempty : block.bytes ≠ [] := by simpa using first
        have length := List.length_pos_iff.mpr nonempty
        have small := block.small
        have above := roundToRecords_ge want
        have below := roundToRecords_lt want
        rw [List.length_take, unsignedMin, Nat.mod_eq_of_lt (by omega), Nat.mod_eq_of_lt (by omega)]
        omega

/-- What `input_mem` reads is as long as was asked for. -/
theorem length_inputMemLoop (rounds : Nat) (writer : RestoreWriter) (mem : List UInt8)
    (toread : Nat) (enough : toread ≤ rounds) (ordinary : toread < 2 ^ 31) {read : List UInt8}
    {next : RestoreWriter}
    (result : inputMemLoop rounds writer mem toread = (some read, next)) :
    mem.length + toread ≤ read.length := by
  induction rounds generalizing writer mem toread with
  | zero =>
      cases result
      omega
  | succ rounds ih =>
      unfold inputMemLoop at result
      split at result
      · cases result
        omega
      · next more =>
          split at result
          · cases result
          · next rec error reading taken =>
              split at result
              · cases result
              · have some_ := length_getReadBuffer (Nat.pos_of_ne_zero more) ordinary taken
                have whole := ih _ _ _ (by rw [List.length_take]; omega)
                  (by rw [List.length_take]; omega) result
                rw [List.length_append, List.length_take] at whole
                omega

theorem loadAclInfo_aside (writer : RestoreWriter) {fileSize : Int} (ordinary : fileSize < 2 ^ 31) :
    Aside (writer.inputMem fileSize).2 (writer.loadAclInfo fileSize) := by
  unfold loadAclInfo
  dsimp only
  split
  · next read =>
      rw [read]
      exact ⟨rfl, fun _ => Int.le_refl 0, rfl⟩
  · next mem next read =>
      rw [read]
      have length := length_inputMemLoop fileSize.toNat writer [] fileSize.toNat (Nat.le_refl _)
        (by omega) read
      refine ⟨rfl, fun _ => ?_, rfl⟩
      dsimp only
      rw [List.length_nil] at length
      omega

theorem getHumongusFileHeader_aside (writer : RestoreWriter) (recsize : Int) :
    Aside (writer.inputMem (if recsize = 0 then (recordSize : Int) else recsize)).2
      (writer.getHumongusFileHeader recsize) := by
  unfold getHumongusFileHeader
  dsimp only
  generalize (if recsize = 0 then (recordSize : Int) else recsize) = size
  split
  · next read =>
      rw [read]
      exact ⟨rfl, id, rfl⟩
  · next read =>
      rw [read]
      split
      · exact ⟨rfl, id, rfl⟩
      · exact ⟨rfl, id, rfl⟩

theorem restoreLink_aside (args : RestoreArgs) {call : RecordCall} (isLink : call.linkflag = lfLink)
    (other : call.regular = none) :
    Aside call.writer (call.writer.restoreLink args call.fileSize call.record) := by
  unfold RecordCall.regular at other
  rw [if_pos isLink] at other
  unfold restoreLink
  dsimp only at other ⊢
  generalize (if ((octAtoi (call.record.drop thHlinkInoAt)) % 2 ^ 64).toNat = 0 then none
    else call.writer.hardlinkQ.hardlinkQGet _) = seen at other ⊢
  cases seen with
  | some node => exact restoreHardLink_aside args node.path call.writer call.record
  | none =>
      dsimp only
      by_cases nul : call.record.head? = some 0
      · rw [if_pos nul]
        exact .refl _
      · rw [if_neg (by rintro (seen | same); cases seen; exact nul same)] at other
        cases other

theorem restoreRecord_of_other (args : RestoreArgs) {call : RecordCall}
    (other : call.regular = none) (ordinary : call.fileSize < 2 ^ 31) :
    call.Passes (call.writer.restoreRecord args call.linkflag call.fileSize call.record) := by
  unfold restoreRecord
  by_cases isMultivol : call.linkflag = lfMultivol
  · rw [if_pos isMultivol]
    exact .of_aside ⟨rfl, id, rfl⟩
  rw [if_neg isMultivol]
  by_cases isLink : call.linkflag = lfLink
  · rw [if_pos isLink]
    exact .of_aside (restoreLink_aside args isLink other)
  unfold RecordCall.regular at other
  rw [if_neg isLink] at other ⊢
  by_cases isOld : call.linkflag = lfOldnormal
  · rw [if_pos isOld] at other ⊢
    split at other
    · next nul =>
        rw [if_pos nul]
        exact .of_aside (.refl _)
    · cases other
  rw [if_neg isOld] at other ⊢
  by_cases isNormal : call.linkflag = lfNormal ∨ call.linkflag = lfContig
  · rw [if_pos isNormal] at other
    cases other
  rw [if_neg isNormal]
  by_cases isSymlink : call.linkflag = lfSymlink
  · rw [if_pos isSymlink]
    exact .of_aside (restoreSymlink_aside args _ _)
  rw [if_neg isSymlink]
  by_cases isDir : call.linkflag = lfDir
  · rw [if_pos isDir]
    exact .of_aside (restoreDirectory_aside args _ _)
  rw [if_neg isDir]
  by_cases isFifo : call.linkflag = lfFifo
  · rw [if_pos isFifo]
    exact .of_aside (restoreFifo_aside args _ _)
  rw [if_neg isFifo]
  by_cases isLonglink : call.linkflag = lfLonglink
  · rw [if_pos isLonglink]
    have read := getLongName_aside call.writer (longNameSize call.fileSize call.writer.lnkEnd)
      call.writer.longlink call.writer.lnkEnd
    apply RecordCall.Passes.of_read (by unfold RecordCall.demand; rw [if_pos isLonglink])
    exact ⟨read.fp, fun _ => Int.le_refl 0, read.stop⟩
  rw [if_neg isLonglink]
  by_cases isLongname : call.linkflag = lfLongname
  · rw [if_pos isLongname]
    have read := getLongName_aside call.writer (longNameSize call.fileSize call.writer.nmEnd)
      call.writer.longname call.writer.nmEnd
    apply RecordCall.Passes.of_read
      (by unfold RecordCall.demand; rw [if_neg isLonglink, if_pos isLongname])
    exact ⟨read.fp, fun _ => Int.le_refl 0, read.stop⟩
  rw [if_neg isLongname]
  by_cases isAcl : call.linkflag = lfAcl
  · rw [if_pos isAcl]
    exact .of_read
      (by unfold RecordCall.demand; rw [if_neg isLonglink, if_neg isLongname, if_pos isAcl])
      (loadAclInfo_aside _ ordinary)
  rw [if_neg isAcl]
  by_cases isHumongus : call.linkflag = lfHumongus
  · rw [if_pos isHumongus]
    exact .of_read
      (by
        unfold RecordCall.demand
        rw [if_neg isLonglink, if_neg isLongname, if_neg isAcl, if_pos isHumongus])
      (getHumongusFileHeader_aside _ _)
  rw [if_neg isHumongus]
  exact .of_aside (.refl _)

theorem getReadBuffer_kept {want : Nat} {taken : List UInt8 × Int} {next : RestoreWriter}
    (read : writer.getReadBuffer want = (some taken, next)) :
    ∃ blocks, next = { writer with blocks := blocks } := by
  unfold getReadBuffer at read
  split at read
  · cases read
  · split at read
    · cases read
    · cases read
      exact ⟨_, rfl⟩

theorem toInt32_lt (value : Nat) : toInt32 value < 2 ^ 31 := by
  unfold toInt32
  split
  · omega
  · omega

/-- The state of a record call is the state before the round but for what was read. -/
theorem nextRecord_spec {call : RecordCall} (next : nextRecord writer = some call) :
    call.writer.fp = writer.fp ∧ call.writer.sizeLeft = writer.sizeLeft ∧
      call.writer.tcWriterStop = writer.tcWriterStop ∧
      (writer.sizeLeft ≤ 0 → call.fileSize < 2 ^ 31) := by
  unfold nextRecord at next
  split at next
  · cases next
    refine ⟨rfl, rfl, rfl, ?_⟩
    intro none
    dsimp only
    omega
  · split at next
    · cases next
    · next record error reading read =>
        obtain ⟨blocks, rfl⟩ := getReadBuffer_kept read
        dsimp only at next
        split at next
        · cases next
        · split at next
          · cases next
            exact ⟨rfl, rfl, rfl, fun _ => show (0 : Int) < 2 ^ 31 by decide⟩
          · cases next
            exact ⟨rfl, rfl, rfl, fun _ => toInt32_lt _⟩

/-- A size that an `int` holds is the size that the round goes by. -/
theorem nextRecord_thSize {call : RecordCall} (next : nextRecord writer = some call)
    (regular : call.regular.isSome = true) (small : call.thSize < 2 ^ 31) :
    call.fileSize.toNat = call.thSize := by
  unfold nextRecord at next
  split at next
  · cases next
    rfl
  · split at next
    · cases next
    · dsimp only at next
      split at next
      · cases next
      · split at next
        · next volume =>
            cases next
            unfold RecordCall.regular at regular
            dsimp only at regular
            rcases volume with flag | flag
            · rw [flag, if_neg (by decide), if_neg (by decide), if_neg (by decide)] at regular
              cases regular
            · rw [flag, if_neg (by decide), if_neg (by decide), if_neg (by decide)] at regular
              cases regular
        · cases next
          dsimp only at small ⊢
          rw [octAtoi_eq, toInt32_of_lt small, Int.toNat_natCast]

end RestoreWriter

/-! ## Effects on files -/

/-- The bytes that an operation writes. -/
def RestoreOp.writtenBytes : RestoreOp → List UInt8
  | .write bytes => bytes
  | _ => []

/-- Whether an operation reports an entry as restored. -/
def RestoreOp.reports : RestoreOp → Bool
  | .entryRestored _ _ => true
  | _ => false

/-- Operations that write nothing and close nothing. -/
def Quiet (ops : List RestoreOp) : Prop :=
  ops.flatMap RestoreOp.writtenBytes = [] ∧ .closeFile ∉ ops

theorem Quiet.setAcls (dirs : List (CString × TlmAcls)) :
    Quiet (dirs.map fun entry => .setAcl (some entry.1) entry.2) ∧
      (dirs.map fun entry => RestoreOp.setAcl (some entry.1) entry.2).any RestoreOp.reports =
        false := by
  induction dirs with
  | nil => exact ⟨⟨rfl, List.not_mem_nil⟩, rfl⟩
  | cons dir dirs ih =>
      obtain ⟨⟨written, open_⟩, unreported⟩ := ih
      refine ⟨⟨written, ?_⟩, unreported⟩
      intro listed
      rcases List.mem_cons.mp listed with first | other
      · cases first
      · exact open_ other

namespace RestoreWriter

variable {writer : RestoreWriter}

theorem finishRegular_effects (args : RestoreArgs) (writer : RestoreWriter) (fileSize : Int)
    (hardlink : Option Nat) (wanted : Wanted) (path : Option CString) :
    ∃ effects, (writer.finishRegular args fileSize hardlink wanted path).ops =
        writer.ops ++ effects ∧ Quiet effects ∧
      (effects.any RestoreOp.reports = true → wanted.mchtype.exactOrChild = true) ∧
      (writer.finishRegular args fileSize hardlink wanted path).fp = writer.fp ∧
      (writer.finishRegular args fileSize hardlink wanted path).tcWriterStop = writer.tcWriterStop ∧
      (writer.finishRegular args fileSize hardlink wanted path).sizeLeft = 0 := by
  by_cases ended : max 0 (writer.hugeSize - fileSize) = 0
  · -- the queue of hard links is all that the inode is for
    obtain ⟨queue, shape⟩ : ∃ queue, writer.finishRegular args fileSize hardlink wanted path =
        { ({ ({ writer with
              hugeSize := max 0 (writer.hugeSize - fileSize)
              sizeLeft := 0 } : RestoreWriter).reportRestored
                wanted.mchtype writer.longname.string wanted.pos with
            hardlinkQ := queue } : RestoreWriter).resetNames with
          hugename := (({ writer with
              hugeSize := max 0 (writer.hugeSize - fileSize)
              sizeLeft := 0 } : RestoreWriter).reportRestored
                wanted.mchtype writer.longname.string wanted.pos).hugename.write 0 [0] } := by
      unfold finishRegular
      dsimp only
      rw [if_pos ended]
      cases hardlink with
      | none => exact ⟨_, rfl⟩
      | some inode =>
          dsimp only
          split
          · exact ⟨_, rfl⟩
          · exact ⟨_, rfl⟩
    rw [shape]
    unfold reportRestored
    by_cases reported : wanted.mchtype.exactOrChild = true
    · rw [if_pos reported]
      refine ⟨[.entryRestored writer.longname.string wanted.pos], rfl, ⟨rfl, ?_⟩, fun _ => reported,
        rfl, rfl, rfl⟩
      intro closes
      cases List.mem_singleton.mp closes
    · rw [if_neg reported]
      refine ⟨[], (List.append_nil _).symm, ⟨rfl, List.not_mem_nil⟩, ?_, rfl, rfl, rfl⟩
      intro nothing
      cases nothing
  · unfold finishRegular
    dsimp only
    rw [if_neg ended]
    refine ⟨[], (List.append_nil _).symm, ⟨rfl, List.not_mem_nil⟩, ?_, rfl, rfl, rfl⟩
    intro nothing
    cases nothing

/-- What a round does when a section has been put to its file. -/
def afterSection (args : RestoreArgs) (fileSize : Int) (hardlink : Option Nat) (wanted : Wanted)
    (path : Option CString) (writer : RestoreWriter) : RestoreWriter :=
  let writer :=
    match path with
    | some path => writer.dtreePopUntil path
    | none => writer
  writer.finishRegular args fileSize hardlink wanted path

/-- Between `restore_file` and what follows it, no more than the queue of hard links is
changed. -/
theorem restoreRegular_queued (args : RestoreArgs) (writer : RestoreWriter) (fileSize : Int)
    (hardlink : Option Nat) (record : List UInt8) :
    let name := (writer.regularName record).string
    let wanted := isFileWanted name args.sels args.exls args.flags writer.retry
    let path := if wanted.found then args.newName wanted.pos name else none
    let restored := ({ writer with
        longname := writer.regularName record, retry := wanted.retry } : RestoreWriter).restoreFile
      args path fileSize (wanted.found && path.isSome)
    ∃ queue, writer.restoreRegular args fileSize hardlink record =
      afterSection args fileSize hardlink wanted path { restored with hardlinkQ := queue } := by
  intro name wanted path restored
  cases hardlink with
  | none => exact ⟨restored.hardlinkQ, rfl⟩
  | some inode =>
      have shape : writer.restoreRegular args fileSize (some inode) record =
          afterSection args fileSize (some inode) wanted path
            (if args.dar then restored
            else { restored with
              hardlinkQ := restored.hardlinkQ.hardlinkQAdd inode 0 path false }) := rfl
      rw [shape]
      split
      · exact ⟨restored.hardlinkQ, rfl⟩
      · exact ⟨_, rfl⟩

/-- What a section does to files is what `restore_file` does, and perhaps a report. -/
theorem restoreRegular_effects (args : RestoreArgs) (writer : RestoreWriter) (fileSize : Int)
    (hardlink : Option Nat) (record : List UInt8) :
    let name := (writer.regularName record).string
    let wanted := isFileWanted name args.sels args.exls args.flags writer.retry
    let path := if wanted.found then args.newName wanted.pos name else none
    let restored := ({ writer with
        longname := writer.regularName record, retry := wanted.retry } : RestoreWriter).restoreFile
      args path fileSize (wanted.found && path.isSome)
    let next := writer.restoreRegular args fileSize hardlink record
    ∃ effects, next.ops = restored.ops ++ effects ∧ Quiet effects ∧
      (effects.any RestoreOp.reports = true → wanted.mchtype.exactOrChild = true) ∧
      next.fp = restored.fp ∧ next.tcWriterStop = restored.tcWriterStop ∧ next.sizeLeft = 0 := by
  intro name wanted path restored next
  obtain ⟨queue, shape⟩ : ∃ queue, next = afterSection args fileSize hardlink wanted path
      { restored with hardlinkQ := queue } :=
    restoreRegular_queued args writer fileSize hardlink record
  rw [shape]
  unfold afterSection
  cases path with
  | none =>
      obtain ⟨effects, ops, quiet, reports, fp, stop, sizeLeft⟩ := finishRegular_effects args
        { restored with hardlinkQ := queue } fileSize hardlink wanted none
      exact ⟨effects, ops, quiet, reports, fp, stop, sizeLeft⟩
  | some path =>
      obtain ⟨effects, ops, ⟨written, open_⟩, reports, fp, stop, sizeLeft⟩ :=
        finishRegular_effects args
          (({ restored with hardlinkQ := queue } : RestoreWriter).dtreePopUntil path) fileSize
            hardlink
          wanted (some path)
      obtain ⟨⟨popped, popsOpen⟩, unreported⟩ := Quiet.setAcls
        (restored.dtree.takeWhile fun entry => ¬ entry.1 <:+: path)
      refine ⟨_ ++ effects, ops.trans (List.append_assoc _ _ _), ⟨?_, ?_⟩, ?_, fp, stop, sizeLeft⟩
      · rw [List.flatMap_append, popped, written]
        rfl
      · intro closes
        rcases List.mem_append.mp closes with first | last
        · exact popsOpen first
        · exact open_ last
      · rw [List.any_append, unreported, Bool.false_or]
        exact reports

/-- What `restore_file` does behind its loop, with `left` bytes of the file to come. -/
def closeFinished (realName : Option CString) (left : Int) (restored : RestoreWriter) :
    RestoreWriter :=
  if restored.fp ≠ .closed ∧ left ≤ 0 then
    let closed := if restored.fp = .opened then restored.perform .closeFile else restored
    { closed with fp := .closed }.setOwnAcl realName
  else restored

/-- `restore_file` once it has looked at the file of a name. -/
theorem restoreFile_some (args : RestoreArgs) {path : CString} {wanted : Bool}
    {opened : RestoreWriter × Bool} (size : Int)
    (opens : (if writer.fp = .closed ∧ wanted then writer.openWanted args path
      else (writer, wanted)) = opened) :
    writer.restoreFile args (some path) size wanted =
      closeFinished (some path) (writer.hugeSize - size)
        (restoreLoop (opened.1.available + 1) opened.1 size opened.2) := by
  subst opens
  rfl

theorem closeFinished_effects (realName : Option CString) (left : Int) (restored : RestoreWriter) :
    ∃ effects, (closeFinished realName left restored).ops = restored.ops ++ effects ∧
      effects.flatMap RestoreOp.writtenBytes = [] ∧ effects.any RestoreOp.reports = false ∧
      (closeFinished realName left restored).tcWriterStop = restored.tcWriterStop ∧
      (restored.fp ≠ .opened → .closeFile ∉ effects ∧
        (closeFinished realName left restored).fp ≠ .opened) := by
  unfold closeFinished
  by_cases ends : restored.fp ≠ .closed ∧ left ≤ 0
  · rw [if_pos ends]
    by_cases opened : restored.fp = .opened
    · rw [if_pos opened]
      exact ⟨[.closeFile, .setAcl realName restored.acls], List.append_assoc _ _ _, rfl, rfl, rfl,
        fun other => absurd opened other⟩
    · rw [if_neg opened]
      refine ⟨[.setAcl realName restored.acls], rfl, rfl, rfl, rfl, fun _ => ⟨?_, ?_⟩⟩
      · intro closes
        cases List.mem_singleton.mp closes
      · intro open_
        cases open_
  · rw [if_neg ends]
    exact ⟨[], (List.append_nil _).symm, rfl, rfl, rfl, fun other => ⟨List.not_mem_nil, other⟩⟩

/-- A section that is not wanted is read past. -/
theorem restoreLoop_passes (rounds : Nat) (writer : RestoreWriter) (size : Int) :
    ∃ blocks stop, restoreLoop rounds writer size false =
      { writer with blocks := blocks, tcWriterStop := stop } := by
  induction rounds generalizing writer size with
  | zero => exact ⟨writer.blocks, writer.tcWriterStop, rfl⟩
  | succ rounds ih =>
      unfold restoreLoop
      obtain ⟨blocks, stop, kept⟩ := getReadBuffer_frame writer size.toNat
      split
      · exact ⟨writer.blocks, writer.tcWriterStop, rfl⟩
      · split
        · next read =>
            rw [read] at kept
            dsimp only at kept
            subst kept
            exact ⟨blocks, stop, rfl⟩
        · next read =>
            rw [read] at kept
            dsimp only at kept ⊢
            subst kept
            split
            · exact ⟨blocks, stop, rfl⟩
            · rw [if_neg Bool.false_ne_true]
              obtain ⟨later, stopped, same⟩ :=
                ih { writer with blocks := blocks, tcWriterStop := stop } _
              exact ⟨later, stopped, same⟩

/-- A file that is not selected is not touched. -/
theorem restoreFile_passed (args : RestoreArgs) (writer : RestoreWriter) (size : Int)
    (unopened : writer.fp ≠ .opened) :
    ∃ effects, (writer.restoreFile args none size false).ops = writer.ops ++ effects ∧
      effects.flatMap RestoreOp.writtenBytes = [] ∧
      .closeFile ∉ effects ∧ effects.any RestoreOp.reports = false ∧
      (writer.restoreFile args none size false).fp ≠ .opened := by
  obtain ⟨blocks, stop, loop⟩ := restoreLoop_passes (writer.available + 1) writer size
  obtain ⟨effects, ops, unwritten, unreported, -, closed⟩ := closeFinished_effects none
    (writer.hugeSize - size) { writer with blocks := blocks, tcWriterStop := stop }
  obtain ⟨noClose, fp⟩ := closed unopened
  have shape : writer.restoreFile args none size false = closeFinished none (writer.hugeSize - size)
      (restoreLoop (writer.available + 1) writer size false) := rfl
  rw [shape, loop]
  exact ⟨effects, ops, unwritten, noClose, unreported, fp⟩

/-- Opening a file has no effect but to open it. -/
theorem openWanted_effects (args : RestoreArgs) (writer : RestoreWriter) (path : CString) :
    ∃ effects, (writer.openWanted args path).1.ops = writer.ops ++ effects ∧
      effects.flatMap RestoreOp.writtenBytes = [] ∧ effects.any RestoreOp.reports = false ∧
      (writer.openWanted args path).1.tcWriterStop = writer.tcWriterStop := by
  unfold openWanted
  split
  · exact ⟨_, rfl, rfl, rfl, rfl⟩
  · exact ⟨[], (List.append_nil _).symm, rfl, rfl, rfl⟩

/-- A file that is open for a section, or that can be opened for it. -/
def writableAt (args : RestoreArgs) (writer : RestoreWriter) (path : CString) : Bool :=
  match writer.fp with
  | .opened => true
  | .closed => replaces args writer.acls path && writer.io.opened.head?.getD true
  | .failed => false

/-- The file of a section before the loop of `restore_file`. -/
theorem openWanted_writable {args : RestoreArgs} {path : CString}
    (writable : writableAt args writer path = true) :
    ∃ (opened : RestoreWriter) (effects : List RestoreOp),
      (if writer.fp = .closed ∧ true then writer.openWanted args path else (writer, true)) =
        (opened, true) ∧
      opened.fp = .opened ∧ opened.blocks = writer.blocks ∧
      opened.io.written = writer.io.written ∧ opened.tcWriterStop = writer.tcWriterStop ∧
      opened.ops = writer.ops ++ effects ∧ effects.flatMap RestoreOp.writtenBytes = [] ∧
      effects.any RestoreOp.reports = false := by
  unfold writableAt at writable
  cases file : writer.fp with
  | opened =>
      rw [if_neg (by rintro ⟨closed, -⟩; cases closed)]
      exact ⟨writer, [], rfl, file, rfl, rfl, rfl, (List.append_nil _).symm, rfl, rfl⟩
  | failed =>
      rw [file] at writable
      cases writable
  | closed =>
      rw [file] at writable
      dsimp only at writable
      rw [Bool.and_eq_true] at writable
      obtain ⟨replaced, done⟩ := writable
      rw [if_pos ⟨rfl, rfl⟩]
      unfold openWanted
      rw [if_pos replaced]
      dsimp only
      rw [done]
      exact ⟨_, [.openFile path true], rfl, rfl, rfl, rfl, rfl, rfl, rfl, rfl⟩

/-- A section with its data there is written to its file. -/
theorem restoreFile_written (args : RestoreArgs) {path : CString} {size : Int}
    (running : writer.tcWriterStop = false) (ordinary : size < 2 ^ 31)
    (possible : size ≤ 0 ∨ writableAt args writer path = true ∧
      takesAll writer.blocks writer.io.written size.toNat = true) :
    ∃ effects, (writer.restoreFile args (some path) size true).ops = writer.ops ++ effects ∧
      effects.flatMap RestoreOp.writtenBytes = (bytesOf writer.blocks).take size.toNat ∧
      size.toNat ≤ writer.available ∧ effects.any RestoreOp.reports = false ∧
      (writer.restoreFile args (some path) size true).tcWriterStop = false := by
  by_cases nothing : size ≤ 0
  · have none_ : size.toNat = 0 := by omega
    have idle : ∀ (rounds : Nat) (opened : RestoreWriter) (wanted : Bool),
        restoreLoop (rounds + 1) opened size wanted = opened := by
      intro rounds opened wanted
      rw [restoreLoop, if_pos (.inl nothing)]
    obtain ⟨opened, effects, opens, ops, written, unreported, stop⟩ :
        ∃ (opened : RestoreWriter × Bool) (effects : List RestoreOp),
          (if writer.fp = .closed ∧ true then writer.openWanted args path else (writer, true)) =
            opened ∧ opened.1.ops = writer.ops ++ effects ∧
          effects.flatMap RestoreOp.writtenBytes = [] ∧ effects.any RestoreOp.reports = false ∧
          opened.1.tcWriterStop = writer.tcWriterStop := by
      split
      · obtain ⟨effects, ops, written, unreported, stop⟩ := openWanted_effects args writer path
        exact ⟨_, effects, rfl, ops, written, unreported, stop⟩
      · exact ⟨_, [], rfl, (List.append_nil _).symm, rfl, rfl, rfl⟩
    obtain ⟨closing, closes, quiet, silent, stopped, -⟩ :=
      closeFinished_effects (some path) (writer.hugeSize - size) opened.1
    rw [restoreFile_some args size opens, idle, none_]
    refine ⟨effects ++ closing, ?_, ?_, Nat.zero_le _, ?_, ?_⟩
    · rw [closes, ops, List.append_assoc]
    · rw [List.flatMap_append, written, quiet]
      rfl
    · rw [List.any_append, unreported, silent]
      rfl
    · exact stopped.trans (stop.trans running)
  · obtain ⟨writable, takes⟩ := possible.resolve_left nothing
    obtain ⟨count, rfl⟩ := Int.eq_ofNat_of_zero_le (Int.le_of_lt (Int.not_le.mp nothing))
    rw [Int.toNat_natCast] at takes ⊢
    obtain ⟨opened, effects, opens, fp, blocks, scripts, stop, ops, written, unreported⟩ :=
      openWanted_writable writable
    have enough := takesAll_le takes
    have total : opened.available = (bytesOf writer.blocks).length := by
      rw [available_eq, blocks]
    obtain ⟨later, left, pieces, loop, all⟩ := restoreLoop_takes (opened.available + 1) opened
      count (stop.trans running) fp (by rw [blocks, scripts]; exact takes) (by omega) (by omega)
    rw [blocks] at all
    obtain ⟨closing, closes, quiet, silent, stopped, -⟩ :=
      closeFinished_effects (some path) (writer.hugeSize - count)
        (restoreLoop (opened.available + 1) opened count true)
    have pieceBytes : (pieces.map RestoreOp.write).flatMap RestoreOp.writtenBytes =
        pieces.flatten := by
      rw [List.flatMap_map]
      exact List.flatMap_id'
    have pieceReports : (pieces.map RestoreOp.write).any RestoreOp.reports = false := by
      rw [List.any_map]
      exact List.any_eq_false.mpr fun _ _ => Bool.false_ne_true
    rw [restoreFile_some args _ opens]
    rw [loop] at closes stopped ⊢
    refine ⟨effects ++ (pieces.map RestoreOp.write ++ closing), ?_, ?_, ?_, ?_, ?_⟩
    · rw [closes, ops, List.append_assoc, List.append_assoc]
    · rw [List.flatMap_append, List.flatMap_append, written, quiet, pieceBytes, all,
        List.append_nil]
      rfl
    · rw [available_eq]
      exact enough
    · rw [List.any_append, List.any_append, unreported, silent, pieceReports]
      rfl
    · exact stopped.trans (stop.trans running)

end RestoreWriter

/-! ## Runs of the decoder -/

namespace RestoreWriter.RecordCall

variable (args : RestoreArgs) (call : RestoreWriter.RecordCall)

/-- How the file of a section is selected. -/
def wanted : Wanted :=
  isFileWanted (call.writer.regularName call.record).string args.sels args.exls args.flags
    call.writer.retry

/-- The path that the file of a section is restored to. -/
def path : Option CString :=
  if (call.wanted args).found then
    args.newName (call.wanted args).pos (call.writer.regularName call.record).string
  else none

/-- The bytes of the stream that a section consists of. -/
def data : List UInt8 := (RestoreWriter.bytesOf call.writer.blocks).take call.thSize

end RestoreWriter.RecordCall

/-- A decoder, with the path of the file that is open, whether all sections of the current
file with bytes have been selected so far, whether they have been read and written to it, and
whether a file was reported of which this does not hold, or was left in part. -/
structure RestoreRun where
  writer : RestoreWriter
  current : Option CString
  selected : Bool
  intact : Bool
  misreported : Bool
  partly : Bool

namespace RestoreRun

/-- What a round on a record does. -/
def effectsOf (args : RestoreArgs) (run : RestoreRun) (call : RestoreWriter.RecordCall) :
    List RestoreOp :=
  (run.writer.tarGetdirStep args).ops.drop call.writer.ops.length

/-- All sections of the current file up to this one have been read and written to it. -/
def Wrote (args : RestoreArgs) (run : RestoreRun) (call : RestoreWriter.RecordCall) : Prop :=
  run.intact ∧ (call.writer.fp = .opened → run.current = call.path args) ∧
    call.thSize ≤ call.writer.available ∧
    (run.effectsOf args call).flatMap RestoreOp.writtenBytes = call.data

instance (args : RestoreArgs) (run : RestoreRun) (call : RestoreWriter.RecordCall) :
    Decidable (run.Wrote args call) :=
  inferInstanceAs (Decidable (_ ∧ _ ∧ _ ∧ _))

/-- A round on a section of a regular file. -/
def onSection (args : RestoreArgs) (run : RestoreRun) (call : RestoreWriter.RecordCall) :
    RestoreRun :=
  let next := run.writer.tarGetdirStep args
  let effects := run.effectsOf args call
  let path := call.path args
  let intact := run.Wrote args call
  { writer := next
    current := if call.writer.fp = .opened then run.current else path
    selected := (run.selected ∧ ((call.wanted args).found ∨ call.thSize = 0)) ∨ next.hugeSize = 0
    intact := intact ∨ next.hugeSize = 0
    misreported := run.misreported ∨
      (effects.any RestoreOp.reports ∧ ¬ ((call.wanted args).found ∧ intact))
    partly := run.partly ∨ (.closeFile ∈ effects ∧ ¬ intact) }

/-- A round of the decoder. -/
def round (args : RestoreArgs) (run : RestoreRun) : RestoreRun :=
  match run.writer.nextRecord with
  | none => { run with writer := run.writer.tarGetdirStep args }
  | some call =>
      if call.regular.isSome then run.onSection args call
      else { run with writer := run.writer.tarGetdirStep args }

/-- The section can go to its file: an open file is its own, and if it is selected, then
so were the sections before it, its size is an `int`, and its data is there and can be
written. -/
def suppliesSection (args : RestoreArgs) (run : RestoreRun) (call : RestoreWriter.RecordCall) :
    Bool :=
  let path := call.path args
  (call.writer.fp = .opened → run.current = path ∧ path.isSome) ∧
    ((call.wanted args).found → run.selected ∧ path.isSome ∧ call.thSize < 2 ^ 31 ∧
      (call.thSize = 0 ∨
        path.all (RestoreWriter.writableAt args call.writer) ∧
          RestoreWriter.takesAll call.writer.blocks call.writer.io.written call.thSize))

/-- The next round finds what it asks for. The stream does not end while a file is open,
at a header or inside a record that announces more. -/
def supplied (args : RestoreArgs) (run : RestoreRun) : Bool :=
  match run.writer.nextRecord with
  | none => run.writer.fp = .opened → 0 < run.writer.available
  | some call =>
      if call.regular.isSome then run.suppliesSection args call
      else call.writer.fp = .opened → call.demand ≤ call.writer.available ∧ call.demand < 2 ^ 31

/-- The runs of `tar_getdir` on a stream. -/
def system (args : RestoreArgs) : System RestoreRun Unit where
  init run := ∃ blocks hardlinkQ io,
    run = ⟨.start args blocks hardlinkQ io, none, true, true, false, false⟩
  step run _ := if run.writer.tcWriterStop then none else some (run.round args)

/-- No file was reported that is not restored, none was left in part, and none is open
when the stream has ended. -/
structure Sound (run : RestoreRun) : Prop where
  reported : run.misreported = false
  whole : run.partly = false
  ended : run.writer.tcWriterStop = true → run.writer.fp ≠ .opened
  sizeLeft : run.writer.sizeLeft ≤ 0
  intact : run.selected = true → run.intact = true

variable {args : RestoreArgs} {run : RestoreRun}

/-- What is not found is not matched. -/
theorem unfound_unmatched {name : CString} {sels exls : List CString} {flags : RestoreFlags}
    {retry : CString} (unfound : (isFileWanted name sels exls flags retry).found = false) :
    (isFileWanted name sels exls flags retry).mchtype = .none := by
  revert unfound
  unfold isFileWanted
  split
  · intro found
    cases found
  · dsimp only
    generalize namep name flags = bare
    split
    · intro _
      rfl
    · split
      · intro _
        rfl
      · intro found
        cases found

theorem Sound.onSection (sound : run.Sound) (running : run.writer.tcWriterStop = false)
    {call : RestoreWriter.RecordCall} (next : run.writer.nextRecord = some call)
    {hardlink : Option Nat} (regular : call.regular = some hardlink)
    (supplies : run.suppliesSection args call = true) : (run.onSection args call).Sound := by
  obtain ⟨-, sizeLeft, stop, ordinary⟩ := RestoreWriter.nextRecord_spec next
  have small := ordinary sound.sizeLeft
  unfold suppliesSection at supplies
  rw [decide_eq_true_eq] at supplies
  obtain ⟨own, selected⟩ := supplies
  have step := (@RestoreWriter.tarGetdirStep_of_record run.writer args call next).trans
    (RestoreWriter.restoreRecord_of_regular args regular)
  obtain ⟨later, ops, ⟨written, noClose⟩, reports, fp, stops, done⟩ :=
    RestoreWriter.restoreRegular_effects args call.writer call.fileSize hardlink call.record
  rw [← step] at ops fp stops done
  have named :
      isFileWanted (call.writer.regularName call.record).string args.sels args.exls args.flags
      call.writer.retry = call.wanted args := rfl
  have placed : (if (call.wanted args).found then args.newName (call.wanted args).pos
      (call.writer.regularName call.record).string else none) = call.path args := rfl
  rw [named] at ops reports fp stops
  rw [placed] at ops fp stops
  cases found : (call.wanted args).found with
  | false =>
      have nowhere : call.path args = none := by
        unfold RestoreWriter.RecordCall.path
        rw [found]
        rfl
      have unopened : call.writer.fp ≠ .opened := by
        intro opened
        have somewhere := (own opened).2
        rw [nowhere] at somewhere
        cases somewhere
      rw [found, nowhere, Bool.false_and] at ops fp stops
      obtain ⟨first, opsFirst, unwritten, firstOpen, silent, closed⟩ :=
        RestoreWriter.restoreFile_passed args
        { call.writer with
          longname := call.writer.regularName call.record, retry := (call.wanted args).retry }
        call.fileSize unopened
      have effects : run.effectsOf args call = first ++ later := by
        rw [RestoreRun.effectsOf, ops, opsFirst, List.append_assoc, List.drop_left]
      have unreported : (first ++ later).any RestoreOp.reports = false := by
        rw [List.any_append, silent, Bool.false_or]
        apply Bool.eq_false_iff.mpr
        intro reported
        have matched := reports reported
        have unmatched : (call.wanted args).mchtype = .none := unfound_unmatched found
        rw [unmatched] at matched
        cases matched
      have open_ : .closeFile ∉ first ++ later := by
        intro closes
        rcases List.mem_append.mp closes with early | late
        · exact firstOpen early
        · exact noClose late
      refine ⟨?_, ?_, ?_, Int.le_of_eq done, ?_⟩
      · unfold RestoreRun.onSection
        dsimp only
        rw [effects, unreported, sound.reported]
        apply decide_eq_false
        rintro (before | ⟨reported, -⟩)
        · cases before
        · cases reported
      · unfold RestoreRun.onSection
        dsimp only
        rw [effects, sound.whole]
        apply decide_eq_false
        rintro (before | ⟨closes, -⟩)
        · cases before
        · exact open_ closes
      · intro _ opened
        exact closed (fp.symm.trans opened)
      · unfold RestoreRun.onSection
        dsimp only
        rw [decide_eq_true_eq, decide_eq_true_eq, found]
        rintro (⟨before, others | empty⟩ | ended)
        · cases others
        · refine .inl ⟨sound.intact before, fun opened => absurd opened unopened, ?_, ?_⟩
          · rw [empty]
            exact Nat.zero_le _
          · rw [effects, List.flatMap_append, unwritten, written, RestoreWriter.RecordCall.data,
              empty]
            rfl
        · exact .inr ended
  | true =>
      obtain ⟨before, somewhere, fits, possible⟩ := selected found
      have thSize := RestoreWriter.nextRecord_thSize next (by rw [regular]; rfl) fits
      have intact := sound.intact before
      obtain ⟨path, isPath⟩ := Option.isSome_iff_exists.mp somewhere
      rw [found, isPath] at ops fp stops
      rw [isPath] at possible
      obtain ⟨first, opsFirst, bytes, enough, silent, runs⟩ := @RestoreWriter.restoreFile_written
        { call.writer with
          longname := call.writer.regularName call.record, retry := (call.wanted args).retry }
        args path call.fileSize (stop.trans running) small (by
          rw [thSize]
          exact possible.imp_left (fun none_ => by omega))
      have effects : run.effectsOf args call = first ++ later := by
        rw [RestoreRun.effectsOf, ops]
        change List.drop _ ((RestoreWriter.restoreFile _ args (some path) call.fileSize true).ops ++
          later) = _
        rw [opsFirst, List.append_assoc, List.drop_left]
      have whole : run.Wrote args call := by
        rw [thSize] at enough bytes
        refine ⟨intact, fun opened => (own opened).1, enough, ?_⟩
        rw [effects, List.flatMap_append, written, List.append_nil]
        exact bytes
      refine ⟨?_, ?_, ?_, Int.le_of_eq done, ?_⟩
      · unfold RestoreRun.onSection
        dsimp only
        rw [effects, sound.reported]
        apply decide_eq_false
        rintro (before | ⟨-, unsound⟩)
        · cases before
        · exact unsound ⟨found, whole⟩
      · unfold RestoreRun.onSection
        dsimp only
        rw [effects, sound.whole]
        apply decide_eq_false
        rintro (before | ⟨-, unsound⟩)
        · cases before
        · exact unsound whole
      · intro stopped
        exact absurd (stopped.symm.trans (stops.trans runs)) (by decide)
      · intro _
        exact decide_eq_true (.inl whole)

theorem Sound.round (sound : run.Sound) (running : run.writer.tcWriterStop = false)
    (supplied : run.supplied args = true) : (run.round args).Sound := by
  unfold RestoreRun.supplied at supplied
  unfold RestoreRun.round
  cases next : run.writer.nextRecord with
  | none =>
      rw [next, decide_eq_true_eq] at supplied
      obtain ⟨fp, sizeLeft, stays⟩ := @RestoreWriter.tarGetdirStep_of_none run.writer args next
      refine ⟨sound.reported, sound.whole, ?_,
        (Int.le_of_eq sizeLeft).trans sound.sizeLeft, sound.intact⟩
      intro stopped opened
      have more := supplied (fp.symm.trans opened)
      exact absurd (stopped.symm.trans (stays running more)) (by decide)
  | some call =>
      rw [next] at supplied
      obtain ⟨fp, sizeLeft, stop, ordinary⟩ := RestoreWriter.nextRecord_spec next
      dsimp only at supplied ⊢
      cases regular : call.regular with
      | some hardlink =>
          rw [regular] at supplied
          change run.suppliesSection args call = true at supplied
          change (run.onSection args call).Sound
          exact sound.onSection running next regular supplied
      | none =>
          rw [regular] at supplied
          have announced := of_decide_eq_true supplied
          change ({ run with writer := run.writer.tarGetdirStep args } : RestoreRun).Sound
          have passes := RestoreWriter.restoreRecord_of_other args regular
            (ordinary sound.sizeLeft)
          rw [← RestoreWriter.tarGetdirStep_of_record next] at passes
          refine ⟨sound.reported, sound.whole, ?_,
            passes.sizeLeft ((Int.le_of_eq sizeLeft).trans sound.sizeLeft), sound.intact⟩
          intro stopped opened
          obtain ⟨enough, ordinary⟩ := announced (passes.fp.symm.trans opened)
          exact absurd (stopped.symm.trans (passes.running (stop.trans running) enough ordinary))
            (by decide)

theorem Sound.initial (start : (system args).init run) : run.Sound := by
  obtain ⟨blocks, hardlinkQ, io, rfl⟩ := start
  refine ⟨rfl, rfl, ?_, Int.le_refl 0, id⟩
  intro stopped
  cases stopped

/-- As long as each round finds what it asks for, a file is reported only when it is
restored, and a decoder that ends with success has left no file in part. -/
theorem intact_of_supplied
    (reached : (system args).ReachableBy (fun run _ => run.supplied args = true) run) :
    run.misreported = false ∧
      (run.writer.tcWriterStop = true → run.writer.tearDown.rv = 0 →
        run.partly = false ∧ run.writer.fp ≠ .opened) := by
  have sound : run.Sound := by
    apply reached.invariant Sound
    · intro run start
      exact Sound.initial start
    · intro run action next sound supplied taken
      unfold system at taken
      dsimp only at taken
      split at taken
      · cases taken
      · next running =>
          cases taken
          exact sound.round (Bool.not_eq_true _ ▸ running) supplied
  exact ⟨sound.reported, fun stopped _ => ⟨sound.whole, sound.ended stopped⟩⟩

/-! ## A file of two records -/

/-- A restore of the file `/a/f`. -/
def selectedArgs : RestoreArgs := { restoreArgs with sels := [[slash, 97, slash, 102]] }

/-- The first records of the archive of `/a/f`, which has 1000 bytes. -/
def firstRecords (count : Nat) : List ReadBlock :=
  let contents := List.replicate 1000 1
  [⟨(someArchive [.regularFile (entryOf [102] .regular 1000) (.ofContents contents)
      contents]).take (512 * min count 3), 0, by rw [List.length_take]; omega⟩]

/-- A decoder in front of these records. -/
def atRecords (count : Nat) : RestoreRun :=
  ⟨.start selectedArgs (firstRecords count) [] ⟨[], [], []⟩, none, true, true, false, false⟩

theorem intact_of_supplied_allRecords :
    ∃ run, (system selectedArgs).run (fun run _ => run.supplied selectedArgs = true) (atRecords 3)
        [(), ()] = some run ∧
      run.writer.ops.any RestoreOp.reports = true ∧ run.misreported = false ∧
      run.writer.tearDown.rv = 0 ∧ run.partly = false := by
  have ends :
      ((system selectedArgs).run (fun run _ => run.supplied selectedArgs = true) (atRecords 3)
      [(), ()]).map (fun run => (run.writer.ops.any RestoreOp.reports, run.writer.tcWriterStop,
        run.writer.tearDown.rv)) = some (true, true, 0) := by decide +kernel
  obtain ⟨run, ran, observed⟩ := Option.map_eq_some_iff.mp ends
  simp only [Prod.mk.injEq] at observed
  obtain ⟨reported, stopped, succeeded⟩ := observed
  have fresh : (system selectedArgs).init (atRecords 3) := ⟨_, _, _, rfl⟩
  obtain ⟨honest, whole⟩ := intact_of_supplied (System.ReachableBy.run (.init fresh) ran)
  exact ⟨run, ran, reported, honest, succeeded, (whole stopped succeeded).1⟩

/-- When the stream ends behind the first data record, the file is reported and the
restore succeeds. -/
theorem partialFile_reported :
    ∃ run, (system selectedArgs).Reachable run ∧ run.writer.tcWriterStop = true ∧
      run.misreported = true ∧ run.writer.tearDown.rv = 0 ∧ run.partly = true := by
  have ends : ((system selectedArgs).run (fun _ _ => True) (atRecords 2) [()]).map (fun run =>
      (run.writer.tcWriterStop, run.misreported, run.writer.tearDown.rv, run.partly)) =
        some (true, true, 0, true) := by decide +kernel
  obtain ⟨run, ran, observed⟩ := Option.map_eq_some_iff.mp ends
  simp only [Prod.mk.injEq] at observed
  have fresh : (system selectedArgs).init (atRecords 2) := ⟨_, _, _, rfl⟩
  exact ⟨run, System.ReachableBy.run (.init fresh) ran, observed⟩

end RestoreRun

end Ndmpd
