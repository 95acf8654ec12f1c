import Ndmpd.Tlm.Buffers
import Mathlib.Algebra.Order.Group.Nat

/-!
# The write pool in order

The encoder's view of the pool while the writer thread keeps up: a block without room
is passed on (`sentBlocks`) and comes back empty, with its old bytes still in memory.
What has been written is the blocks sent and the front of the current block, up to its
cursor (`content`). Every grant appends whole records to it (`put_content`), and of a
grant that is not filled the rest is what the block held before.
-/

namespace Ndmpd

/-- The pool is divided into records: the size of the block and its cursor are
multiples of the record size. -/
structure TlmBuffers.RecordAligned (bufs : TlmBuffers) : Prop where
  size_pos : 0 < bufs.block.tbBufferSize
  size_lt : bufs.block.tbBufferSize < 2 ^ 32
  size_dvd : 512 ∣ bufs.block.tbBufferSize
  spot_le : bufs.block.tbBufferSpot ≤ bufs.block.tbBufferSize
  spot_dvd : 512 ∣ bufs.block.tbBufferSpot

/-- A step that keeps the block's size only has to account for the cursor. -/
theorem TlmBuffers.RecordAligned.of_sameSize {bufs next : TlmBuffers} (aligned : bufs.RecordAligned)
    (size : next.block.tbBufferSize = bufs.block.tbBufferSize)
    (inside : next.block.tbBufferSpot ≤ bufs.block.tbBufferSize)
    (whole : 512 ∣ next.block.tbBufferSpot) : next.RecordAligned where
  size_pos := size ▸ aligned.size_pos
  size_lt := size ▸ aligned.size_lt
  size_dvd := size ▸ aligned.size_dvd
  spot_le := size ▸ inside
  spot_dvd := whole

/-- The pool of a backup and the blocks that the writer has passed on. -/
structure WritePool where
  bufs : TlmBuffers
  sentBlocks : List (List UInt8)
  aligned : bufs.RecordAligned

@[simp]
theorem TlmBuffer.tbBufferSize_overwrite (buffer : TlmBuffer) (offset : Nat)
    (bytes : List UInt8) : (buffer.overwrite offset bytes).tbBufferSize = buffer.tbBufferSize := by
  simp only [overwrite, tbBufferSize, List.length_take, List.length_append, List.length_drop]
  omega

theorem TlmBuffer.data_overwrite {buffer : TlmBuffer} {offset : Nat} {bytes : List UInt8}
    (inside : offset + bytes.length ≤ buffer.tbBufferSize) :
    (buffer.overwrite offset bytes).tbBufferData = buffer.tbBufferData.take offset ++
      (bytes ++ buffer.tbBufferData.drop (offset + bytes.length)) := by
  unfold tbBufferSize at inside
  have whole : (buffer.tbBufferData.take offset ++ bytes ++
      buffer.tbBufferData.drop (offset + bytes.length)).length ≤ buffer.tbBufferSize := by
    simp only [tbBufferSize, List.length_append, List.length_take, List.length_drop]
    omega
  rw [overwrite]
  dsimp only
  rw [List.take_of_length_le whole, List.append_assoc]

/-- Bytes before the overwritten ones stay. -/
theorem TlmBuffer.take_overwrite {buffer : TlmBuffer} {offset : Nat} {bytes : List UInt8}
    (inside : offset + bytes.length ≤ buffer.tbBufferSize) :
    (buffer.overwrite offset bytes).tbBufferData.take offset = buffer.tbBufferData.take offset := by
  have start : (buffer.tbBufferData.take offset).length = offset := by
    unfold tbBufferSize at inside
    rw [List.length_take]
    omega
  rw [data_overwrite inside, List.take_left' start]

/-- Bytes behind the overwritten ones stay. -/
theorem TlmBuffer.drop_overwrite {buffer : TlmBuffer} {offset behind : Nat} {bytes : List UInt8}
    (inside : offset + bytes.length ≤ buffer.tbBufferSize)
    (after : offset + bytes.length ≤ behind) :
    (buffer.overwrite offset bytes).tbBufferData.drop behind = buffer.tbBufferData.drop behind := by
  have start : (buffer.tbBufferData.take offset ++ bytes).length = offset + bytes.length := by
    unfold tbBufferSize at inside
    rw [List.length_append, List.length_take]
    omega
  obtain ⟨more, rfl⟩ := Nat.exists_eq_add_of_le after
  rw [data_overwrite inside, ← List.append_assoc, ← List.drop_drop, List.drop_left' start,
    List.drop_drop]

theorem roundToRecords_dvd (want : Nat) : 512 ∣ roundToRecords want :=
  Nat.dvd_mul_left 512 _

theorem roundToRecords_ge (want : Nat) : want ≤ roundToRecords want := by
  unfold roundToRecords recordSize
  omega

theorem roundToRecords_lt (want : Nat) : roundToRecords want < want + 512 := by
  unfold roundToRecords recordSize
  omega

namespace WritePool

variable (pool : WritePool)

/-- The block being filled. -/
def block : TlmBuffer := pool.bufs.block

/-- What the encoder has written. -/
def content : List UInt8 :=
  pool.sentBlocks.flatten ++ pool.block.tbBufferData.take pool.block.tbBufferSpot

/-- The bytes left in the block. -/
def room : Nat := pool.block.tbBufferSize - pool.block.tbBufferSpot

/-- A block without room is marked full, the writer passes it on and marks it free, and
the cursor goes back to its start. -/
def passBlock (bufs : TlmBuffers) : TlmBuffers :=
  let full := bufs.modify bufs.tbsBufferIn fun buffer => { buffer with tbFull := true }
  let released := full.tlmBufferAdvanceInIdx
  let passed := released.modify released.tbsBufferOut fun buffer => { buffer with tbFull := false }
  let taken := passed.tlmBufferAdvanceOutIdx
  taken.modify taken.tbsBufferIn fun buffer => { buffer with tbBufferSpot := 0 }

@[simp]
theorem passBlock_block (bufs : TlmBuffers) :
    (passBlock bufs).block = { bufs.block with tbFull := false, tbBufferSpot := 0 } := by
  simp [passBlock]

@[simp]
theorem passBlock_size (bufs : TlmBuffers) :
    (passBlock bufs).block.tbBufferSize = bufs.block.tbBufferSize := by
  rw [passBlock_block]
  rfl

theorem passBlock_aligned {bufs : TlmBuffers} (aligned : bufs.RecordAligned) :
    (passBlock bufs).RecordAligned := by
  refine aligned.of_sameSize (passBlock_size bufs) ?_ ?_
  · rw [passBlock_block]
    exact Nat.zero_le _
  · rw [passBlock_block]
    exact Nat.dvd_zero 512

/-- The first part of `tlm_get_write_buffer`. -/
def makeRoom : WritePool :=
  if pool.room = 0 then
    { bufs := passBlock pool.bufs
      sentBlocks := pool.sentBlocks ++ [pool.block.tbBufferData]
      aligned := passBlock_aligned pool.aligned }
  else pool

theorem makeRoom_of_full (full : pool.room = 0) :
    pool.makeRoom.block = { pool.block with tbFull := false, tbBufferSpot := 0 } ∧
      pool.makeRoom.sentBlocks = pool.sentBlocks ++ [pool.block.tbBufferData] := by
  rw [makeRoom, if_pos full]
  exact ⟨passBlock_block pool.bufs, rfl⟩

theorem makeRoom_of_free (free : pool.room ≠ 0) : pool.makeRoom = pool := by
  rw [makeRoom, if_neg free]

@[simp]
theorem makeRoom_size : pool.makeRoom.block.tbBufferSize = pool.block.tbBufferSize := by
  by_cases full : pool.room = 0
  · rw [(pool.makeRoom_of_full full).1]
    rfl
  · rw [pool.makeRoom_of_free full]

theorem makeRoom_room : 0 < pool.makeRoom.room := by
  by_cases full : pool.room = 0
  · have size := pool.makeRoom_size
    have positive : 0 < pool.block.tbBufferSize := pool.aligned.size_pos
    rw [room, size, (pool.makeRoom_of_full full).1]
    exact positive
  · rw [pool.makeRoom_of_free full]
    exact Nat.pos_of_ne_zero full

@[simp]
theorem makeRoom_content : pool.makeRoom.content = pool.content := by
  by_cases full : pool.room = 0
  · have whole : pool.block.tbBufferData.take pool.block.tbBufferSpot =
        pool.block.tbBufferData := by
      refine List.take_of_length_le ?_
      unfold room TlmBuffer.tbBufferSize at full
      omega
    obtain ⟨block, sent⟩ := pool.makeRoom_of_full full
    rw [content, content, block, sent, whole]
    simp
  · rw [pool.makeRoom_of_free full]

/-- The size of the next grant for a request. -/
def granted (want : Nat) : Nat := unsignedMin (roundToRecords want) pool.makeRoom.room

theorem granted_le_room (want : Nat) : pool.granted want ≤ pool.makeRoom.room := by
  have le := Nat.mod_le pool.makeRoom.room (2 ^ 32)
  unfold granted unsignedMin
  omega

theorem room_dvd : 512 ∣ pool.room :=
  Nat.dvd_sub pool.aligned.size_dvd pool.aligned.spot_dvd

theorem granted_dvd (want : Nat) : 512 ∣ pool.granted want := by
  have round := roundToRecords_dvd want
  have room := pool.makeRoom.room_dvd
  unfold granted unsignedMin
  omega

/-- A request of ordinary size is granted up to the room left. -/
theorem granted_eq {want : Nat} (ordinary : want < 2 ^ 32 - 512) :
    pool.granted want = min (roundToRecords want) pool.makeRoom.room := by
  have round := roundToRecords_lt want
  have size : pool.makeRoom.block.tbBufferSize < 2 ^ 32 := pool.makeRoom.aligned.size_lt
  have room : pool.makeRoom.room ≤ pool.makeRoom.block.tbBufferSize := Nat.sub_le _ _
  rw [granted, unsignedMin, Nat.mod_eq_of_lt (by omega), Nat.mod_eq_of_lt (by omega)]

/-- A grant moves the cursor and, if asked to, clears the record. -/
theorem grantRecord_block (bufs : TlmBuffers) (index : Fin tlmTapeBuffers) (want : Nat)
    (zero : Bool) :
    (bufs.grantRecord index want zero).1.block =
      let spot := bufs.block.tbBufferSpot
      let actual := unsignedMin (roundToRecords want) (bufs.block.tbBufferSize - spot)
      let moved := { bufs.block with tbBufferSpot := spot + actual }
      if zero then moved.overwrite spot (List.replicate actual 0) else moved := by
  cases zero <;> simp [TlmBuffers.grantRecord]

theorem grantRecord_size (bufs : TlmBuffers) (index : Fin tlmTapeBuffers) (want : Nat)
    (zero : Bool) :
    (bufs.grantRecord index want zero).1.block.tbBufferSize = bufs.block.tbBufferSize := by
  rw [grantRecord_block]
  cases zero
  · rfl
  · exact TlmBuffer.tbBufferSize_overwrite _ _ _

theorem grantRecord_spot (bufs : TlmBuffers) (index : Fin tlmTapeBuffers) (want : Nat)
    (zero : Bool) :
    (bufs.grantRecord index want zero).1.block.tbBufferSpot = bufs.block.tbBufferSpot +
      unsignedMin (roundToRecords want) (bufs.block.tbBufferSize - bufs.block.tbBufferSpot) := by
  rw [grantRecord_block]
  cases zero
  · rfl
  · rfl

/-- The second part of `tlm_get_write_buffer`. -/
def takeRecord (want : Nat) (zero : Bool) : WritePool where
  bufs := (pool.bufs.grantRecord pool.bufs.tbsBufferIn want zero).1
  sentBlocks := pool.sentBlocks
  aligned := by
    have round := roundToRecords_dvd want
    have le := Nat.mod_le (pool.bufs.block.tbBufferSize - pool.bufs.block.tbBufferSpot) (2 ^ 32)
    have inside := pool.aligned.spot_le
    have size := pool.aligned.size_dvd
    have spot := pool.aligned.spot_dvd
    refine pool.aligned.of_sameSize (grantRecord_size _ _ _ _) ?_ ?_
    · rw [grantRecord_spot, unsignedMin]
      omega
    · rw [grantRecord_spot, unsignedMin]
      omega

/-- `tlm_get_write_buffer` for a writer that keeps up. The record starts at the cursor
before the call and has the size `granted`. -/
def tlmGetWriteBuffer (want : Nat) (zero : Bool) : WritePool :=
  pool.makeRoom.takeRecord want zero

/-- The caller fills the front of the record it was granted at `offset`. -/
def fill (offset : Nat) (bytes : List UInt8) : WritePool where
  bufs := pool.bufs.modify pool.bufs.tbsBufferIn fun buffer => buffer.overwrite offset bytes
  sentBlocks := pool.sentBlocks
  aligned := by
    refine pool.aligned.of_sameSize ?_ ?_ ?_
    · rw [TlmBuffers.modify_block]
      exact TlmBuffer.tbBufferSize_overwrite _ _ _
    · rw [TlmBuffers.modify_block]
      exact pool.aligned.spot_le
    · rw [TlmBuffers.modify_block]
      exact pool.aligned.spot_dvd

/-- Get a record and fill its front. What is to be filled in may depend on the size of
the record. -/
def put (want : Nat) (zero : Bool) (bytes : Nat → List UInt8) : WritePool :=
  (pool.tlmGetWriteBuffer want zero).fill pool.makeRoom.block.tbBufferSpot
    ((bytes (pool.granted want)).take (pool.granted want))

/-- What `put` does to the block: the cursor moves behind the record, and the bytes in
front of the record and behind it stay. -/
theorem put_block (want : Nat) (zero : Bool) (bytes : Nat → List UInt8) :
    let spot := pool.makeRoom.block.tbBufferSpot
    let behind := spot + pool.granted want
    let filled := (bytes (pool.granted want)).take (pool.granted want)
    let next := (pool.put want zero bytes).block
    next.tbBufferSpot = behind ∧
      next.tbBufferSize = pool.block.tbBufferSize ∧
        next.tbBufferData.take (spot + filled.length) =
          pool.makeRoom.block.tbBufferData.take spot ++ filled ∧
            next.tbBufferData.drop behind = pool.makeRoom.block.tbBufferData.drop behind := by
  intro spot behind filled next
  have spotLe : spot ≤ pool.makeRoom.block.tbBufferSize := pool.makeRoom.aligned.spot_le
  have within : behind ≤ pool.makeRoom.block.tbBufferSize := by
    have le := pool.granted_le_room want
    unfold room at le
    omega
  have short : filled.length ≤ pool.granted want := List.length_take_le _ _
  let granted := (pool.tlmGetWriteBuffer want zero).block
  have size : granted.tbBufferSize = pool.makeRoom.block.tbBufferSize := grantRecord_size _ _ _ _
  have moved : granted.tbBufferSpot = behind := grantRecord_spot _ _ _ _
  have front : granted.tbBufferData.take spot = pool.makeRoom.block.tbBufferData.take spot := by
    change (pool.makeRoom.bufs.grantRecord _ want zero).1.block.tbBufferData.take spot = _
    rw [grantRecord_block]
    cases zero
    · rfl
    · exact TlmBuffer.take_overwrite (by rw [List.length_replicate]; exact within)
  have back : granted.tbBufferData.drop behind = pool.makeRoom.block.tbBufferData.drop behind := by
    change (pool.makeRoom.bufs.grantRecord _ want zero).1.block.tbBufferData.drop behind = _
    rw [grantRecord_block]
    cases zero
    · rfl
    · refine TlmBuffer.drop_overwrite ?_ ?_
      · rw [List.length_replicate]
        exact within
      · rw [List.length_replicate]
        exact Nat.le_refl _
  have inside : spot + filled.length ≤ granted.tbBufferSize := by
    omega
  have overwritten : next = granted.overwrite spot filled := by
    let bufs := (pool.tlmGetWriteBuffer want zero).bufs
    exact bufs.modify_block bufs.tbsBufferIn fun buffer => buffer.overwrite spot filled
  have start : (granted.tbBufferData.take spot).length = spot := by
    unfold TlmBuffer.tbBufferSize at inside
    rw [List.length_take]
    omega
  refine ⟨?_, ?_, ?_, ?_⟩
  · rw [overwritten]
    exact moved
  · rw [overwritten, TlmBuffer.tbBufferSize_overwrite, size, makeRoom_size]
  · rw [overwritten, TlmBuffer.data_overwrite inside, ← List.append_assoc, List.take_left', front]
    rw [List.length_append, start]
  · rw [overwritten, TlmBuffer.drop_overwrite inside (by omega), back]

/-- A record that is granted extends what has been written by whole records, which
begin with the bytes filled in. -/
theorem put_content (want : Nat) (zero : Bool) (bytes : Nat → List UInt8) :
    ∃ rest, (pool.put want zero bytes).content =
        pool.content ++ ((bytes (pool.granted want)).take (pool.granted want) ++ rest) ∧
      ((bytes (pool.granted want)).take (pool.granted want)).length + rest.length =
        pool.granted want := by
  obtain ⟨cursor, size, written, -⟩ := pool.put_block want zero bytes
  have short : ((bytes (pool.granted want)).take (pool.granted want)).length ≤
      pool.granted want := List.length_take_le _ _
  have le := pool.granted_le_room want
  have spotLe : pool.makeRoom.block.tbBufferSpot ≤ pool.makeRoom.block.tbBufferSize :=
    pool.makeRoom.aligned.spot_le
  generalize (bytes (pool.granted want)).take (pool.granted want) = filled at written short ⊢
  let next := (pool.put want zero bytes).block
  let spot := pool.makeRoom.block.tbBufferSpot
  refine ⟨(next.tbBufferData.drop (spot + filled.length)).take
    (pool.granted want - filled.length), ?_, ?_⟩
  · have split : next.tbBufferData.take (spot + pool.granted want) =
        next.tbBufferData.take (spot + filled.length) ++
          (next.tbBufferData.drop (spot + filled.length)).take
            (pool.granted want - filled.length) := by
      rw [← List.take_add]
      congr 1
      omega
    have sent : (pool.put want zero bytes).sentBlocks = pool.makeRoom.sentBlocks := rfl
    rw [← pool.makeRoom_content, content, content, sent, cursor, split, written]
    simp only [List.append_assoc]
  · have total : next.tbBufferData.length = pool.makeRoom.block.tbBufferSize := by
      rw [makeRoom_size, ← size]
      rfl
    unfold room at le
    rw [List.length_take, List.length_drop, total]
    omega

end WritePool

end Ndmpd
