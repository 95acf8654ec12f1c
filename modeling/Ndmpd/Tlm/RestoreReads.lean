import Mathlib.Data.List.TakeWhile
import Ndmpd.Tlm.RestoreWriter

/-!
# How the decoder takes bytes

The pool of the decoder is a stream of bytes cut into blocks. As long as the blocks
consist of whole records without read errors (`Whole`), the cut does not matter: a
header is the next record of the stream (`getReadBuffer_record`), and data of any
length is the front of the stream, padded to whole records (`inputMem_eq`).
-/

namespace Ndmpd

namespace RestoreWriter

/-- Blocks of whole records, read without errors. -/
def Whole (blocks : List ReadBlock) : Prop :=
  ∀ block ∈ blocks, 512 ∣ block.bytes.length ∧ block.tbErrno = 0

/-- The bytes in a list of blocks. -/
def bytesOf (blocks : List ReadBlock) : List UInt8 :=
  (blocks.map ReadBlock.bytes).flatten

variable {writer : RestoreWriter}

theorem bytesOf_dropWhile (blocks : List ReadBlock) :
    bytesOf (blocks.dropWhile fun block => block.bytes = []) = bytesOf blocks := by
  induction blocks with
  | nil => rfl
  | cons block blocks ih =>
      by_cases empty : block.bytes = []
      · rw [List.dropWhile_cons_of_pos (by simpa using empty), ih]
        simp [bytesOf, empty]
      · rw [List.dropWhile_cons_of_neg (by simpa using empty)]

theorem Whole.dropWhile {blocks : List ReadBlock} (whole : Whole blocks) :
    Whole (blocks.dropWhile fun block => block.bytes = []) :=
  fun block listed => whole block ((List.dropWhile_suffix _).subset listed)

/-- At the end of the stream the decoder is stopped. -/
theorem getReadBuffer_end (running : writer.tcWriterStop = false)
    (ended : bytesOf writer.blocks = []) (want : Nat) :
    writer.getReadBuffer want = (none, { writer with blocks := [], tcWriterStop := true }) := by
  have empty : ∀ block ∈ writer.blocks, block.bytes = [] := by
    intro block listed
    exact List.flatten_eq_nil_iff.mp ended _ (List.mem_map_of_mem listed)
  have none_left : (writer.blocks.dropWhile fun block => block.bytes = []) = [] := by
    apply List.dropWhile_eq_nil_iff.mpr
    intro block listed
    simpa using empty block listed
  unfold getReadBuffer
  rw [if_neg (by rw [running]; decide), none_left]

/-- A request takes whole records from the front of the stream, at most as many as it
needs. -/
theorem getReadBuffer_front (running : writer.tcWriterStop = false) (whole : Whole writer.blocks)
    (more : bytesOf writer.blocks ≠ []) {want : Nat} (positive : 0 < want)
    (ordinary : want < 2 ^ 32 - 512) :
    ∃ front blocks, writer.getReadBuffer want =
        (some (front, 0), { writer with blocks := blocks }) ∧
      bytesOf writer.blocks = front ++ bytesOf blocks ∧ Whole blocks ∧
        0 < front.length ∧ 512 ∣ front.length ∧ front.length ≤ roundToRecords want := by
  unfold getReadBuffer
  rw [if_neg (by simp [running])]
  have same := bytesOf_dropWhile writer.blocks
  have kept := whole.dropWhile
  have first : ∀ block rest, (writer.blocks.dropWhile fun block => block.bytes = []) =
      block :: rest → block.bytes ≠ [] := by
    intro block rest left
    have head := List.head?_dropWhile_not (fun block : ReadBlock => decide (block.bytes = []))
      writer.blocks
    rw [left] at head
    simpa using head
  revert same kept first
  generalize (writer.blocks.dropWhile fun block => block.bytes = []) = left
  intro same kept first
  cases left with
  | nil =>
      rw [← same] at more
      exact absurd rfl more
  | cons block rest =>
      obtain ⟨records, errors⟩ := kept block (by simp)
      have nonempty := List.length_pos_iff.mpr (first block rest rfl)
      have small := block.small
      have below := roundToRecords_lt want
      have above := roundToRecords_ge want
      have round := roundToRecords_dvd want
      have size : unsignedMin (roundToRecords want) block.bytes.length =
          min (roundToRecords want) block.bytes.length := by
        rw [unsignedMin, Nat.mod_eq_of_lt (by omega), Nat.mod_eq_of_lt (by omega)]
      refine ⟨block.bytes.take (unsignedMin (roundToRecords want) block.bytes.length),
        block.rest (unsignedMin (roundToRecords want) block.bytes.length) :: rest,
        ?_, ?_, ?_, ?_, ?_, ?_⟩
      · dsimp only
        rw [errors]
      · rw [← same, bytesOf, bytesOf, List.map_cons, List.map_cons, List.flatten_cons,
          List.flatten_cons, ← List.append_assoc]
        congr 1
        exact (List.take_append_drop _ _).symm
      · intro other listed
        rcases List.mem_cons.mp listed with rfl | inRest
        · refine ⟨?_, errors⟩
          rw [ReadBlock.rest, List.length_drop, size]
          omega
        · exact kept other (by simp [inRest])
      · rw [List.length_take, size]
        omega
      · rw [List.length_take, size]
        omega
      · rw [List.length_take, size]
        omega

/-- A header is the next record of the stream. -/
theorem getReadBuffer_record (running : writer.tcWriterStop = false) (whole : Whole writer.blocks)
    {record rest : List UInt8} (length : record.length = 512)
    (stream : bytesOf writer.blocks = record ++ rest) :
    ∃ blocks, writer.getReadBuffer 345 = (some (record, 0), { writer with blocks := blocks }) ∧
      bytesOf blocks = rest ∧ Whole blocks := by
  have more : bytesOf writer.blocks ≠ [] := by
    rw [stream]
    intro empty
    have none : record = [] := (List.append_eq_nil_iff.mp empty).1
    rw [none] at length
    cases length
  obtain ⟨front, blocks, taken, split, left, nonempty, records, most⟩ :=
    @getReadBuffer_front writer running whole more 345 (by decide) (by decide)
  have bound : roundToRecords 345 = 512 := rfl
  have exact_ : front.length = record.length := by
    omega
  rw [stream] at split
  obtain ⟨rfl, rfl⟩ := List.append_inj split exact_.symm
  exact ⟨blocks, taken, rfl, left⟩

/-- No data has no padding. -/
theorem unpadded_of_empty {pad : List UInt8}
    (padded : ([] : List UInt8).length + pad.length = roundToRecords ([] : List UInt8).length) :
    pad = [] := by
  have none : roundToRecords ([] : List UInt8).length = 0 := rfl
  rw [none] at padded
  exact List.length_eq_zero_iff.mp (by omega)

/-- A request for all of the data takes a piece of it, or its end with the padding. -/
theorem getReadBuffer_piece (running : writer.tcWriterStop = false) (whole : Whole writer.blocks)
    {mem pad rest : List UInt8} (more : mem ≠ [])
    (stream : bytesOf writer.blocks = mem ++ (pad ++ rest))
    (padded : mem.length + pad.length = roundToRecords mem.length)
    (ordinary : mem.length < 2 ^ 31) :
    ∃ front blocks left fill,
      writer.getReadBuffer mem.length = (some (front, 0), { writer with blocks := blocks }) ∧
      mem = front.take mem.length ++ left ∧ 0 < (front.take mem.length).length ∧
      bytesOf blocks = left ++ (fill ++ rest) ∧ Whole blocks ∧
      left.length + fill.length = roundToRecords left.length := by
  have positive : 0 < mem.length := List.length_pos_iff.mpr more
  have nonempty : bytesOf writer.blocks ≠ [] := by
    rw [stream]
    simp [more]
  obtain ⟨front, blocks, taken, split, good, some_, records, most⟩ :=
    getReadBuffer_front running whole nonempty positive (by omega)
  rw [stream, ← List.append_assoc] at split
  have within : front.length ≤ (mem ++ pad).length := by
    rw [List.length_append]
    omega
  have cut : mem ++ pad = front ++ (mem ++ pad).drop front.length := by
    have front_ := congrArg (List.take front.length) split
    rw [List.take_left, List.take_append_of_le_length within] at front_
    have whole_ := (List.take_append_drop front.length (mem ++ pad)).symm
    rwa [front_] at whole_
  have after : bytesOf blocks = (mem ++ pad).drop front.length ++ rest := by
    have back := congrArg (List.drop front.length) split
    rw [List.drop_left, List.drop_append_of_le_length within] at back
    exact back.symm
  have copied : front.take mem.length = mem.take front.length := by
    have both := congrArg (List.take (min front.length mem.length)) cut
    rw [List.take_append_of_le_length (by omega), List.take_append_of_le_length (by omega)] at both
    rw [← List.take_eq_take_min, Nat.min_comm, ← List.take_eq_take_min] at both
    exact both.symm
  refine ⟨front, blocks, mem.drop front.length, pad.drop (front.length - mem.length), taken,
    ?_, ?_, ?_, good, ?_⟩
  · rw [copied, List.take_append_drop]
  · rw [List.length_take]
    omega
  · rw [after, List.drop_append, List.append_assoc]
  · rw [List.length_drop, List.length_drop]
    unfold roundToRecords recordSize at padded most ⊢
    omega

/-- The loop of `input_mem` reads the front of the stream and skips its padding. -/
theorem inputMemLoop_eq (rounds : Nat) (writer : RestoreWriter)
    (running : writer.tcWriterStop = false) (whole : Whole writer.blocks)
    (done mem pad rest : List UInt8) (stream : bytesOf writer.blocks = mem ++ (pad ++ rest))
    (padded : mem.length + pad.length = roundToRecords mem.length)
    (ordinary : mem.length < 2 ^ 31) (enough : mem.length ≤ rounds) :
    ∃ blocks, inputMemLoop rounds writer done mem.length =
        (some (done ++ mem), { writer with blocks := blocks }) ∧
      bytesOf blocks = rest ∧ Whole blocks := by
  induction rounds generalizing writer done mem pad with
  | zero =>
      have nothing : mem = [] := List.length_eq_zero_iff.mp (by omega)
      subst nothing
      cases unpadded_of_empty padded
      refine ⟨writer.blocks, ?_, stream, whole⟩
      rw [List.append_nil]
      rfl
  | succ rounds ih =>
      by_cases nothing : mem = []
      · subst nothing
        cases unpadded_of_empty padded
        refine ⟨writer.blocks, ?_, stream, whole⟩
        rw [List.append_nil]
        rfl
      · have positive : 0 < mem.length := List.length_pos_iff.mpr nothing
        obtain ⟨front, blocks, left, fill, taken, split, some_, behind, good, padding⟩ :=
          getReadBuffer_piece running whole nothing stream padded ordinary
        have length := congrArg List.length split
        rw [List.length_append] at length
        obtain ⟨last, read, ended, kept⟩ := ih { writer with blocks := blocks } running good
          (done ++ front.take mem.length) left fill behind padding (by omega) (by omega)
        refine ⟨last, ?_, ended, kept⟩
        rw [List.append_assoc, ← split] at read
        rw [inputMemLoop, if_neg (by omega), taken]
        dsimp only
        rw [if_neg (by decide), show mem.length - (front.take mem.length).length = left.length by
          omega]
        exact read

/-- Data of any length is the front of the stream, padded to whole records. -/
theorem inputMem_eq (running : writer.tcWriterStop = false) (whole : Whole writer.blocks)
    {mem pad rest : List UInt8} (stream : bytesOf writer.blocks = mem ++ (pad ++ rest))
    (padded : mem.length + pad.length = roundToRecords mem.length)
    (ordinary : mem.length < 2 ^ 31) :
    ∃ blocks, writer.inputMem mem.length = (some mem, { writer with blocks := blocks }) ∧
      bytesOf blocks = rest ∧ Whole blocks := by
  exact inputMemLoop_eq mem.length writer running whole [] mem pad rest stream padded ordinary
    (Nat.le_refl _)

/-- The loop of `restore_file` writes the front of the stream to the open file and skips
its padding. -/
theorem restoreLoop_eq (rounds : Nat) (writer : RestoreWriter)
    (running : writer.tcWriterStop = false) (whole : Whole writer.blocks)
    (opened : writer.fp = .opened) (scripts : writer.io = ⟨[], [], []⟩)
    (mem pad rest : List UInt8) (stream : bytesOf writer.blocks = mem ++ (pad ++ rest))
    (padded : mem.length + pad.length = roundToRecords mem.length)
    (ordinary : mem.length < 2 ^ 31) (enough : mem.length ≤ rounds) :
    ∃ (blocks : List ReadBlock) (pieces : List (List UInt8)),
      restoreLoop rounds writer mem.length true =
        { writer with blocks := blocks, ops := writer.ops ++ pieces.map RestoreOp.write } ∧
      pieces.flatten = mem ∧ bytesOf blocks = rest ∧ Whole blocks := by
  induction rounds generalizing writer mem pad with
  | zero =>
      have nothing : mem = [] := List.length_eq_zero_iff.mp (by omega)
      subst nothing
      cases unpadded_of_empty padded
      refine ⟨writer.blocks, [], ?_, rfl, stream, whole⟩
      rw [List.map_nil, List.append_nil]
      rfl
  | succ rounds ih =>
      by_cases nothing : mem = []
      · subst nothing
        cases unpadded_of_empty padded
        refine ⟨writer.blocks, [], ?_, rfl, stream, whole⟩
        rw [List.map_nil, List.append_nil]
        rfl
      · have positive : 0 < mem.length := List.length_pos_iff.mpr nothing
        obtain ⟨front, blocks, left, fill, taken, split, some_, behind, good, padding⟩ :=
          getReadBuffer_piece running whole nothing stream padded ordinary
        have length := congrArg List.length split
        rw [List.length_append] at length
        have written : { writer with blocks := blocks }.writeRecord (front.take mem.length) =
            ({ writer with
                blocks := blocks, ops := writer.ops ++ [.write (front.take mem.length)] },
              ((front.take mem.length).length : Int)) := by
          unfold writeRecord
          rw [if_pos opened]
          dsimp only
          rw [scripts]
          dsimp only [List.head?_nil, Option.getD_none]
          rw [List.take_length]
          rfl
        obtain ⟨last, pieces, read, all, ended, kept⟩ :=
          ih { writer with blocks := blocks, ops := writer.ops ++ [.write (front.take mem.length)] }
            running good opened scripts left fill behind padding (by omega) (by omega)
        refine ⟨last, front.take mem.length :: pieces, ?_, ?_, ended, kept⟩
        · have stop : ¬ ((mem.length : Int) ≤ 0 ∨ writer.tcWriterStop = true) := by
            rintro (none | stopped)
            · omega
            · rw [running] at stopped
              cases stopped
          rw [restoreLoop, if_neg stop, Int.toNat_natCast, taken]
          dsimp only
          rw [if_neg (by decide), if_pos rfl, written]
          dsimp only
          rw [show (mem.length : Int) - ((front.take mem.length).length : Int) = left.length by
            omega, read, List.map_cons, List.append_assoc, List.singleton_append]
        · rw [List.flatten_cons, all]
          exact split.symm

/-! ## One round of the decoder -/

/-- At the end of the stream a round stops the decoder. -/
theorem tarGetdirStep_end (args : RestoreArgs) (running : writer.tcWriterStop = false)
    (single : writer.multiVolume = false) (ended : bytesOf writer.blocks = []) :
    writer.tarGetdirStep args =
      { writer with blocks := [], tcWriterStop := true, rv := -1 } := by
  unfold tarGetdirStep
  rw [if_neg (by rw [single]; decide), getReadBuffer_end running ended]

/-- A round takes the next record, and accepts it if its checksum is good. -/
theorem tarGetdirStep_record (args : RestoreArgs) (running : writer.tcWriterStop = false)
    (single : writer.multiVolume = false) (whole : Whole writer.blocks)
    {record rest : List UInt8} (length : record.length = 512)
    (stream : bytesOf writer.blocks = record ++ rest) :
    ∃ blocks, bytesOf blocks = rest ∧ Whole blocks ∧
      writer.tarGetdirStep args =
        if tlmVfyTarChecksum record = 1 then
          { writer with blocks := blocks }.acceptRecord args record
        else { writer with blocks := blocks } := by
  obtain ⟨blocks, taken, left, good⟩ := getReadBuffer_record running whole length stream
  refine ⟨blocks, left, good, ?_⟩
  unfold tarGetdirStep
  rw [if_neg (by rw [single]; decide), taken]
  dsimp only
  by_cases checked : tlmVfyTarChecksum record = 1
  · rw [if_neg (by omega), if_pos checked]
  · rw [if_pos (.inr checked), if_neg checked]

end RestoreWriter

end Ndmpd
