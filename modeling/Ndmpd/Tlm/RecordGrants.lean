import Ndmpd.Foundation.Transition
import Ndmpd.Tlm.WritePool

/-!
# The records that a backup is granted

`tlm_get_write_buffer` with a writer that empties the block at any moment while it is full:
between two calls, or within a call that finds no room, before the block is tested, before
the wait and during it. A call that still finds the block full returns no record.

A grant is cut to 32 bits by `min`. As long as neither a request, rounded up to records, nor
the room in the block is cut to nothing, the records since the block was last emptied lie in
the block one behind the other, whole records each (`reachable_recordsAligned`).
-/

namespace Ndmpd

/-- A record that has been granted, with what was asked for. -/
structure GrantedRecord where
  want : Nat
  offset : Nat
  length : Nat
  deriving DecidableEq, Repr

/-- The pool, the records granted since the block was last emptied, and the length of all
records ever granted. -/
structure GrantingPool where
  bufs : TlmBuffers
  records : List GrantedRecord
  granted : Nat

/-- The moments within a call at which the writer may come to empty the block. -/
structure Moments where
  beforeTest : Bool
  beforeWait : Bool
  duringWait : Bool
  deriving DecidableEq, Repr

namespace GrantingPool

open Foundation

/-- What the writer does with a block that it has passed on. -/
def clearFull (bufs : TlmBuffers) : TlmBuffers :=
  (bufs.modify bufs.tbsBufferOut fun buffer =>
    { buffer with tbFull := false, tbEof := false, tbEot := false, tbErrno := 0 })
      |>.tlmBufferAdvanceOutIdx

section Calls

variable (pool : GrantingPool)

/-- The block that the next record is taken from. -/
def inBuf : TlmBuffer := pool.bufs.tbsBuffer pool.bufs.tbsBufferIn

/-- The writer empties the block if it is full. -/
def emptied (comes : Bool) : GrantingPool :=
  if comes ∧ (pool.bufs.tbsBuffer pool.bufs.tbsBufferOut).tbFull then
    { pool with bufs := clearFull pool.bufs, records := [] }
  else pool

/-- A full block is passed on, unless that has been done in a call before. -/
def passOn : GrantingPool :=
  if pool.inBuf.tbFull then pool
  else
    { pool with
      bufs := (pool.bufs.modify pool.bufs.tbsBufferIn fun buffer => { buffer with tbFull := true })
        |>.tlmBufferAdvanceInIdx }

/-- The cursor of a free block goes back to its start. -/
def resetSpot : GrantingPool :=
  { pool with
    bufs := pool.bufs.modify pool.bufs.tbsBufferIn fun buffer => { buffer with tbBufferSpot := 0 } }

/-- The closing lines of `tlm_get_write_buffer`. -/
def grant (want : Nat) (zero : Bool) : GrantingPool :=
  let (bufs, record) := pool.bufs.grantRecord pool.bufs.tbsBufferIn want zero
  { bufs := bufs
    records := pool.records ++ [⟨want, record.1, record.2⟩]
    granted := pool.granted + record.2 }

/-- The block after the wait for the writer. -/
def awaited (moments : Moments) : GrantingPool :=
  (((pool.emptied moments.beforeTest).passOn).emptied moments.beforeWait).emptied
    moments.duringWait

/-- `tlm_get_write_buffer`. -/
def tlmGetWriteBuffer (want : Nat) (zero : Bool) (moments : Moments) : GrantingPool :=
  if pool.inBuf.tbBufferSize ≤ pool.inBuf.tbBufferSpot then
    let pool := pool.awaited moments
    -- the next buffer is still full of data from previous activity
    if pool.inBuf.tbFull then pool else pool.resetSpot.grant want zero
  else pool.grant want zero

end Calls

/-- The pool as `tlm_allocate_buffers` makes it. -/
def allocated (memory : List UInt8) : GrantingPool where
  bufs :=
    { tbsBufferIn := 0, tbsBufferOut := 0, tbsOffset := 0,
      tbsBuffer := fun _ => TlmBuffer.allocated memory }
  records := []
  granted := 0

/-- A call with a positive size, or the writer between two calls. -/
inductive Use where
  | getWriteBuffer (want : Nat) (zero : Bool) (moments : Moments)
  | emptied
  deriving DecidableEq, Repr

/-- A write pool with blocks of a given size, under any uses. -/
def system (size : Nat) : System GrantingPool Use where
  init pool := ∃ memory, memory.length = size ∧ pool = allocated memory
  step pool use :=
    match use with
    | .getWriteBuffer want zero moments =>
        if 0 < want then some (pool.tlmGetWriteBuffer want zero moments) else none
    | .emptied => some (pool.emptied true)

/-! ## What the records are like -/

/-- A record of the block, made of whole records of the archive; one of them when no more
was asked for. -/
structure GrantedRecord.Aligned (size : Nat) (record : GrantedRecord) : Prop where
  inside : record.offset + record.length ≤ size
  start : recordSize ∣ record.offset
  whole : recordSize ∣ record.length
  positive : 0 < record.length
  single : record.want ≤ recordSize → record.length = recordSize

/-- The records in the block are aligned and do not overlap, and the offset of the stream
counts all records that have been granted; a `longlong_t` holds it. -/
structure RecordsAligned (size : Nat) (pool : GrantingPool) : Prop where
  aligned : ∀ record ∈ pool.records, GrantedRecord.Aligned size record
  apart : pool.records.Pairwise fun first second =>
    first.offset + first.length ≤ second.offset ∨ second.offset + second.length ≤ first.offset
  total : pool.bufs.tbsOffset = pool.granted
  countable : pool.bufs.tbsOffset < 2 ^ 63

/-- The room that a grant is taken from. -/
def roomAhead (size : Nat) (pool : GrantingPool) : Nat :=
  if size ≤ pool.inBuf.tbBufferSpot then size else size - pool.inBuf.tbBufferSpot

/-- A record can be granted: there is room, or the writer comes in time. -/
def Grants (size : Nat) (pool : GrantingPool) (moments : Moments) : Prop :=
  pool.inBuf.tbBufferSpot < size ∨ moments.beforeWait = true ∨ moments.duringWait = true

/-- Neither the request nor the room is cut to nothing, and the records can still be counted. -/
def GrantFits (want room granted : Nat) : Prop :=
  roundToRecords want % 2 ^ 32 ≠ 0 ∧ room % 2 ^ 32 ≠ 0 ∧
    granted + unsignedMin (roundToRecords want) room < 2 ^ 63

instance (want room granted : Nat) : Decidable (GrantFits want room granted) :=
  inferInstanceAs (Decidable (_ ∧ _ ∧ _))

/-- A request fits where a record can be granted. -/
def RequestFits (size : Nat) (pool : GrantingPool) (want : Nat) (moments : Moments) : Prop :=
  Grants size pool moments → GrantFits want (roomAhead size pool) pool.granted

def Fits (size : Nat) (pool : GrantingPool) : Use → Prop
  | .getWriteBuffer want _ moments => RequestFits size pool want moments
  | .emptied => True

/-- What holds of the pool besides: the cursor stands behind the records, and at the end of
a block that is full. -/
structure Sound (size : Nat) (pool : GrantingPool) : Prop extends RecordsAligned size pool where
  size_eq : pool.bufs.block.tbBufferSize = size
  spot_le : pool.bufs.block.tbBufferSpot ≤ size
  spot_dvd : recordSize ∣ pool.bufs.block.tbBufferSpot
  full : pool.bufs.block.tbFull = true → pool.bufs.block.tbBufferSpot = size
  behind : ∀ record ∈ pool.records, record.offset + record.length ≤ pool.bufs.block.tbBufferSpot

variable {size : Nat} {pool : GrantingPool}

@[simp] theorem inBuf_eq (pool : GrantingPool) : pool.inBuf = pool.bufs.block :=
  pool.bufs.tbsBuffer_eq_block _

theorem clearFull_block (bufs : TlmBuffers) : (clearFull bufs).block =
    { bufs.block with tbFull := false, tbEof := false, tbEot := false, tbErrno := 0 } := by
  rw [clearFull, TlmBuffers.tlmBufferAdvanceOutIdx_block, TlmBuffers.modify_block]

/-- Emptying the block leaves no record in it. -/
theorem emptied_of_full (full : pool.bufs.block.tbFull = true) :
    pool.emptied true = { pool with bufs := clearFull pool.bufs, records := [] } := by
  rw [emptied, TlmBuffers.tbsBuffer_eq_block, full, if_pos ⟨rfl, rfl⟩]

theorem emptied_of_free (free : pool.bufs.block.tbFull = false) (comes : Bool) :
    pool.emptied comes = pool := by
  rw [emptied, TlmBuffers.tbsBuffer_eq_block, free, if_neg fun both => Bool.false_ne_true both.2]

theorem emptied_granted (pool : GrantingPool) (comes : Bool) :
    (pool.emptied comes).granted = pool.granted := by
  unfold GrantingPool.emptied
  split <;> rfl

theorem passOn_granted (pool : GrantingPool) : pool.passOn.granted = pool.granted := by
  unfold GrantingPool.passOn
  split <;> rfl

/-- Waiting for the writer grants nothing. -/
theorem awaited_granted (pool : GrantingPool) (moments : Moments) :
    (pool.awaited moments).granted = pool.granted := by
  unfold GrantingPool.awaited
  rw [emptied_granted, emptied_granted, passOn_granted, emptied_granted]

theorem emptied_false (pool : GrantingPool) : pool.emptied false = pool := by
  rw [emptied, if_neg fun both => Bool.false_ne_true both.1]

/-- The block has been emptied at its end. -/
theorem Sound.cleared (sound : Sound size pool) :
    Sound size { pool with bufs := clearFull pool.bufs, records := [] } where
  aligned := nofun
  apart := .nil
  total := sound.total
  countable := sound.countable
  size_eq := by
    rw [clearFull_block]
    exact sound.size_eq
  spot_le := by
    rw [clearFull_block]
    exact sound.spot_le
  spot_dvd := by
    rw [clearFull_block]
    exact sound.spot_dvd
  full := by
    rw [clearFull_block]
    exact fun full => absurd full Bool.false_ne_true
  behind := nofun

theorem Sound.emptied (sound : Sound size pool) (comes : Bool) :
    Sound size (pool.emptied comes) := by
  cases comes with
  | false =>
      rw [emptied_false]
      exact sound
  | true =>
      cases full : pool.bufs.block.tbFull with
      | false =>
          rw [emptied_of_free full]
          exact sound
      | true =>
          rw [emptied_of_full full]
          exact sound.cleared

theorem emptied_spot (pool : GrantingPool) (comes : Bool) :
    (pool.emptied comes).bufs.block.tbBufferSpot = pool.bufs.block.tbBufferSpot := by
  cases comes with
  | false => rw [emptied_false]
  | true =>
      cases full : pool.bufs.block.tbFull with
      | false => rw [emptied_of_free full]
      | true =>
          rw [emptied_of_full full]
          dsimp only
          rw [clearFull_block]

/-- A block without room is full when it has been passed on. -/
theorem Sound.passOn (sound : Sound size pool) (noRoom : pool.bufs.block.tbBufferSpot = size) :
    Sound size pool.passOn ∧ pool.passOn.bufs.block.tbFull = true := by
  unfold GrantingPool.passOn
  rw [inBuf_eq]
  by_cases full : pool.bufs.block.tbFull = true
  · rw [if_pos full]
    exact ⟨sound, full⟩
  · rw [if_neg full]
    have block : ((pool.bufs.modify pool.bufs.tbsBufferIn fun buffer =>
        { buffer with tbFull := true }).tlmBufferAdvanceInIdx).block =
          { pool.bufs.block with tbFull := true } := by
      rw [TlmBuffers.tlmBufferAdvanceInIdx_block, TlmBuffers.modify_block]
    refine ⟨⟨⟨sound.aligned, sound.apart, sound.total, sound.countable⟩, ?_, ?_, ?_, ?_, ?_⟩, ?_⟩
    · rw [block]
      exact sound.size_eq
    · rw [block]
      exact sound.spot_le
    · rw [block]
      exact sound.spot_dvd
    · rw [block]
      exact fun _ => noRoom
    · rw [block]
      exact sound.behind
    · rw [block]

/-- Once a block without room has been passed on, it is free when the writer has come. -/
theorem Sound.awaited (sound : Sound size pool) (noRoom : size ≤ pool.bufs.block.tbBufferSpot)
    (moments : Moments) :
    Sound size (pool.awaited moments) ∧
      ((pool.awaited moments).bufs.block.tbFull = false ↔
        moments.beforeWait = true ∨ moments.duringWait = true) ∧
      ((pool.awaited moments).bufs.block.tbFull = false → (pool.awaited moments).records = []) := by
  have atEnd : (pool.emptied moments.beforeTest).bufs.block.tbBufferSpot = size :=
    (emptied_spot _ _).trans (le_antisymm sound.spot_le noRoom)
  obtain ⟨passed, full⟩ := (sound.emptied moments.beforeTest).passOn atEnd
  unfold GrantingPool.awaited
  generalize (pool.emptied moments.beforeTest).passOn = pool at passed full
  refine ⟨(passed.emptied _).emptied _, ?_⟩
  have freed : (clearFull pool.bufs).block.tbFull = false := by
    rw [clearFull_block]
  cases moments.beforeWait with
  | true =>
      rw [emptied_of_full full, emptied_of_free freed]
      exact ⟨iff_of_true freed (Or.inl rfl), fun _ => rfl⟩
  | false =>
      rw [emptied_false]
      cases moments.duringWait with
      | true =>
          rw [emptied_of_full full]
          exact ⟨iff_of_true freed (Or.inr rfl), fun _ => rfl⟩
      | false =>
          rw [emptied_false, full]
          refine ⟨iff_of_false (by decide) ?_, fun free => absurd free (by decide)⟩
          rintro (comes | comes)
          · exact Bool.false_ne_true comes
          · exact Bool.false_ne_true comes

/-- The cursor goes back when no record is left in the block. -/
theorem Sound.resetSpot (sound : Sound size pool) (none_ : pool.records = [])
    (free : pool.bufs.block.tbFull = false) : Sound size pool.resetSpot := by
  have block : pool.resetSpot.bufs.block = { pool.bufs.block with tbBufferSpot := 0 } :=
    pool.bufs.modify_block pool.bufs.tbsBufferIn fun buffer => { buffer with tbBufferSpot := 0 }
  have records : pool.resetSpot.records = [] := none_
  refine ⟨⟨?_, ?_, sound.total, sound.countable⟩, ?_, ?_, ?_, ?_, ?_⟩
  · rw [records]
    exact nofun
  · rw [records]
    exact .nil
  · rw [block]
    exact sound.size_eq
  · rw [block]
    exact Nat.zero_le size
  · rw [block]
    exact Nat.dvd_zero recordSize
  · rw [block]
    exact fun full => absurd (free.symm.trans full) Bool.false_ne_true
  · rw [records]
    exact nofun

/-! ## Granting a record -/

/-- The length of a grant. -/
theorem unsignedMin_aligned {want room : Nat} (whole : recordSize ∣ room) (asked : 0 < want) :
    recordSize ∣ unsignedMin (roundToRecords want) room ∧
      unsignedMin (roundToRecords want) room ≤ room ∧
      (0 < unsignedMin (roundToRecords want) room ↔
        roundToRecords want % 2 ^ 32 ≠ 0 ∧ room % 2 ^ 32 ≠ 0) ∧
      (want ≤ recordSize → 0 < unsignedMin (roundToRecords want) room →
        unsignedMin (roundToRecords want) room = recordSize) := by
  have rounded := roundToRecords_dvd want
  have above := roundToRecords_ge want
  have below := roundToRecords_lt want
  have record : recordSize = 512 := rfl
  unfold unsignedMin
  generalize roundToRecords want = rounds at rounded above below
  have low := Nat.mod_le room (2 ^ 32)
  rw [record] at whole ⊢
  refine ⟨?_, ?_, ?_, ?_⟩
  · omega
  · omega
  · omega
  · intro few some_
    omega

/-- A grant from a block with room, cut to nothing or not. -/
theorem Sound.grant (sound : Sound size pool) (free : pool.bufs.block.tbBufferSpot < size)
    (whole : recordSize ∣ size) {want : Nat} (asked : 0 < want) (zero : Bool) :
    (GrantFits want (size - pool.bufs.block.tbBufferSpot) pool.granted →
        Sound size (pool.grant want zero)) ∧
      (RecordsAligned size (pool.grant want zero) →
        GrantFits want (size - pool.bufs.block.tbBufferSpot) pool.granted) := by
  have room : recordSize ∣ size - pool.bufs.block.tbBufferSpot := Nat.dvd_sub whole sound.spot_dvd
  obtain ⟨dvd, le, positive, single⟩ := unsignedMin_aligned room asked
  unfold GrantFits
  generalize isLength : unsignedMin (roundToRecords want)
    (size - pool.bufs.block.tbBufferSpot) = length at dvd le positive single
  let index := pool.bufs.tbsBufferIn
  have spot := WritePool.grantRecord_spot pool.bufs index want zero
  have same := WritePool.grantRecord_size pool.bufs index want zero
  have full := pool.bufs.grantRecord_tbFull index want zero
  have offset : (pool.bufs.grantRecord index want zero).1.tbsOffset =
      pool.bufs.tbsOffset + length := by
    cases zero <;> simp [TlmBuffers.grantRecord, TlmBuffers.advanceOffset, TlmBuffers.modify,
      sound.size_eq, isLength]
  have record : (pool.bufs.grantRecord index want zero).2 =
      (pool.bufs.block.tbBufferSpot, length) := by
    rw [TlmBuffers.grantRecord, TlmBuffers.tbsBuffer_eq_block, sound.size_eq, isLength]
  rw [sound.size_eq, isLength] at spot
  rw [sound.size_eq] at same
  have records : (pool.grant want zero).records =
      pool.records ++ [⟨want, pool.bufs.block.tbBufferSpot, length⟩] := by
    change pool.records ++ [⟨want, (pool.bufs.grantRecord index want zero).2.1,
      (pool.bufs.grantRecord index want zero).2.2⟩] = _
    rw [record]
  have total : (pool.grant want zero).granted = pool.granted + length := by
    change pool.granted + (pool.bufs.grantRecord index want zero).2.2 = _
    rw [record]
  change (_ → Sound size ⟨(pool.bufs.grantRecord index want zero).1,
    (pool.grant want zero).records, (pool.grant want zero).granted⟩) ∧ _
  rw [← and_assoc, ← positive]
  constructor
  · rintro ⟨some_, counted⟩
    refine ⟨⟨?_, ?_, ?_, ?_⟩, same, ?_, ?_, ?_, ?_⟩
    · intro granted listed
      rw [records] at listed
      rcases List.mem_append.mp listed with early | late
      · exact sound.aligned granted early
      · rw [List.mem_singleton.mp late]
        exact ⟨by dsimp only; omega, sound.spot_dvd, dvd, some_, fun few => single few some_⟩
    · rw [records, List.pairwise_append]
      refine ⟨sound.apart, List.pairwise_singleton _ _, fun early listed late isLate => Or.inl ?_⟩
      rw [List.mem_singleton.mp isLate]
      exact sound.behind early listed
    · rw [total]
      exact offset.trans (congrArg (· + length) sound.total)
    · rw [← sound.total] at counted
      exact offset.trans_lt counted
    · rw [spot]
      omega
    · rw [spot]
      exact Nat.dvd_add sound.spot_dvd dvd
    · rw [full]
      intro isFull
      exact absurd (sound.full isFull) free.ne
    · intro granted listed
      rw [records] at listed
      rw [spot]
      rcases List.mem_append.mp listed with early | late
      · exact (sound.behind granted early).trans (Nat.le_add_right _ _)
      · rw [List.mem_singleton.mp late]
  · intro aligned
    constructor
    · refine (aligned.aligned ⟨want, pool.bufs.block.tbBufferSpot, length⟩ ?_).positive
      rw [records]
      exact List.mem_append_right _ List.mem_cons_self
    · rw [← total, ← aligned.total]
      exact aligned.countable

/-- A call keeps the pool sound exactly if it fits. -/
theorem Sound.tlmGetWriteBuffer (sound : Sound size pool) (positive : 0 < size)
    (whole : recordSize ∣ size) {want : Nat} (asked : 0 < want) (zero : Bool) (moments : Moments) :
    (RequestFits size pool want moments →
        Sound size (pool.tlmGetWriteBuffer want zero moments)) ∧
      (RecordsAligned size (pool.tlmGetWriteBuffer want zero moments) →
        RequestFits size pool want moments) := by
  unfold GrantingPool.tlmGetWriteBuffer RequestFits Grants roomAhead
  rw [inBuf_eq, sound.size_eq]
  by_cases noRoom : size ≤ pool.bufs.block.tbBufferSpot
  · obtain ⟨awaited, comes, none_⟩ := sound.awaited noRoom moments
    rw [if_pos noRoom, if_pos noRoom]
    dsimp only
    rw [inBuf_eq]
    cases full : (pool.awaited moments).bufs.block.tbFull with
    | true =>
        rw [if_pos rfl]
        refine ⟨fun _ => awaited, fun _ grants => absurd grants ?_⟩
        rintro (room | inTime)
        · exact absurd noRoom (Nat.not_le.mpr room)
        · rw [comes.mpr inTime] at full
          cases full
    | false =>
        have ready := awaited.resetSpot (none_ full) full
        have atStart : (pool.awaited moments).resetSpot.bufs.block.tbBufferSpot = 0 :=
          congrArg TlmBuffer.tbBufferSpot ((pool.awaited moments).bufs.modify_block
            (pool.awaited moments).bufs.tbsBufferIn fun buffer => { buffer with tbBufferSpot := 0 })
        have granted : (pool.awaited moments).resetSpot.granted = pool.granted :=
          awaited_granted pool moments
        obtain ⟨keeps, needs⟩ := ready.grant (atStart ▸ positive) whole asked zero
        rw [atStart, Nat.sub_zero, granted] at keeps needs
        rw [if_neg Bool.false_ne_true]
        exact ⟨fun fits => keeps (fits (Or.inr (comes.mp full))), fun aligned _ => needs aligned⟩
  · have room := Nat.not_le.mp noRoom
    rw [if_neg noRoom, if_neg noRoom]
    obtain ⟨keeps, needs⟩ := sound.grant room whole asked zero
    exact ⟨fun fits => keeps (fits (Or.inl room)), fun aligned _ => needs aligned⟩

theorem sound_allocated (memory : List UInt8) : Sound memory.length (allocated memory) where
  aligned := nofun
  apart := .nil
  total := rfl
  countable := Nat.two_pow_pos 63
  size_eq := rfl
  spot_le := Nat.zero_le _
  spot_dvd := Nat.dvd_zero recordSize
  full := fun full => absurd full Bool.false_ne_true
  behind := nofun

/-- One use. -/
theorem Sound.step (sound : Sound size pool) (positive : 0 < size) (whole : recordSize ∣ size)
    {use : Use} {after : GrantingPool} (taken : (system size).step pool use = some after) :
    (Fits size pool use → Sound size after) ∧
      (RecordsAligned size after → Fits size pool use) := by
  cases use with
  | emptied =>
      cases taken
      exact ⟨fun _ => sound.emptied true, fun _ => trivial⟩
  | getWriteBuffer want zero moments =>
      obtain ⟨asked, rfl⟩ := System.of_guarded taken
      exact sound.tlmGetWriteBuffer positive whole asked zero moments

/-- After any uses that fit, the records in the block are aligned; and they are after the
next use exactly if it fits, too. -/
theorem reachable_recordsAligned (positive : 0 < size) (whole : recordSize ∣ size)
    (reached : (system size).ReachableBy (Fits size) pool) :
    RecordsAligned size pool ∧ ∀ use after, (system size).step pool use = some after →
      (RecordsAligned size after ↔ Fits size pool use) := by
  have sound : Sound size pool := by
    refine reached.invariant (Sound size) ?_ ?_
    · rintro _ ⟨memory, rfl, rfl⟩
      exact sound_allocated memory
    · intro before use after sound fits taken
      exact (sound.step positive whole taken).1 fits
  refine ⟨sound.toRecordsAligned, fun use after taken => ?_⟩
  obtain ⟨keeps, needs⟩ := sound.step positive whole taken
  exact ⟨needs, fun fits => (keeps fits).toRecordsAligned⟩

/-- A block of one record. -/
def oneRecord : GrantingPool := allocated (List.replicate 512 0)

/-- A byte is asked for in a block of one record. -/
theorem reachable_recordsAligned_oneByte :
    RecordsAligned 512 (oneRecord.tlmGetWriteBuffer 1 false ⟨false, false, false⟩) ∧
      ∀ use after, (system 512).step (oneRecord.tlmGetWriteBuffer 1 false ⟨false, false, false⟩)
        use = some after → (RecordsAligned 512 after ↔
          Fits 512 (oneRecord.tlmGetWriteBuffer 1 false ⟨false, false, false⟩) use) :=
  reachable_recordsAligned (by decide) (by decide)
    (@System.ReachableBy.step _ _ (system 512) (Fits 512) _ _
      (.getWriteBuffer 1 false ⟨false, false, false⟩)
      (.init ⟨_, List.length_replicate, rfl⟩) (fun _ => by decide +kernel) rfl)

/-- A request of 4 GiB is granted a record of no bytes. -/
theorem grant_empty :
    (system 512).Reachable (oneRecord.tlmGetWriteBuffer (2 ^ 32) false ⟨false, false, false⟩) ∧
      (oneRecord.tlmGetWriteBuffer (2 ^ 32) false ⟨false, false, false⟩).records =
        [⟨2 ^ 32, 0, 0⟩] ∧
      ¬ RecordsAligned 512 (oneRecord.tlmGetWriteBuffer (2 ^ 32) false ⟨false, false, false⟩) := by
  have records : (oneRecord.tlmGetWriteBuffer (2 ^ 32) false ⟨false, false, false⟩).records =
      [⟨2 ^ 32, 0, 0⟩] := by decide +kernel
  refine ⟨?_, records, fun aligned => ?_⟩
  · exact @System.ReachableBy.step _ _ (system 512) _ _ _
      (.getWriteBuffer (2 ^ 32) false ⟨false, false, false⟩)
      (.init ⟨_, List.length_replicate, rfl⟩) trivial rfl
  · have empty := aligned.aligned ⟨2 ^ 32, 0, 0⟩ (by rw [records]; exact List.mem_cons_self)
    exact absurd empty.positive (Nat.lt_irrefl 0)

end GrantingPool

end Ndmpd
