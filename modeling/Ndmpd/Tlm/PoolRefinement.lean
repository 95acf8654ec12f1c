import Ndmpd.Foundation.Simulation
import Ndmpd.Tlm.ArchiveTail
import Ndmpd.Tlm.BlockDrain
import Ndmpd.Tlm.BlockOrder

/-!
# The encoder and the pool that two threads share

The encoder is described over a pool of its own, from which the writer takes each block
when it is full. The daemon shares the pool between two threads. What the encoder sees of
the shared pool, the records it is granted and the bytes it stores, it sees of the
sequential pool as well, whatever the order of the threads' steps
(`represents_simulation`), and the blocks that the writer has passed on at the end are
those of the sequential pool (`passedBlocks_eq_blocks`).

A request takes effect when its record is granted, and the end of the archive when the
last block is declared full.
-/

namespace Ndmpd

open Foundation Foundation.System

/-- What the encoder sees of the pool: a record at an offset, with a length, the bytes it
stores in a record, and the end of the archive. -/
inductive PoolEvent where
  | granted (request : Request) (record : Nat × Nat)
  | stored (offset : Nat) (byte : UInt8)
  | closed
  deriving DecidableEq, Repr

/-- What the encoder does of its own accord. -/
inductive PoolInput where
  | getWriteBuffer (request : Request)
  | store (offset : Nat) (byte : UInt8)
  | writeTarEof
  deriving DecidableEq, Repr

/-- An event without what the pool decides. -/
def PoolEvent.input : PoolEvent → PoolInput
  | granted request _ => .getWriteBuffer request
  | stored offset byte => .store offset byte
  | closed => .writeTarEof

/-! ## The sequential pool -/

/-- The pool of the encoder, the record it was granted last, and whether the archive is
closed. -/
structure SequentialPool where
  pool : WritePool
  held : Nat × Nat
  closed : Bool

namespace SequentialPool

variable (seq : SequentialPool)

/-- The blocks that the writer gets. -/
def blocks : List (List UInt8) :=
  if seq.closed then seq.pool.sentBlocks ++ [seq.pool.block.tbBufferData]
  else seq.pool.sentBlocks

/-- The record of the next grant. -/
def nextRecord (request : Request) : Nat × Nat :=
  (seq.pool.makeRoom.block.tbBufferSpot, seq.pool.granted request.want)

/-- One step of the encoder on its own pool. -/
def step : PoolEvent → Option SequentialPool
  | .granted request record =>
      if seq.closed = false ∧ record = seq.nextRecord request then
        some { seq with
          pool := seq.pool.tlmGetWriteBuffer request.want request.zero, held := record }
      else none
  | .stored offset byte =>
      if seq.closed = false ∧ offset < seq.held.2 then
        some { seq with pool := seq.pool.fill (seq.held.1 + offset) [byte] }
      else none
  | .closed => if seq.closed = false then some { seq with closed := true } else none

/-- The pool of a backup, cleared, with blocks of `size` bytes. -/
def initial {size : Nat} (positive : 0 < size) (small : size < 2 ^ 32) (records : 512 ∣ size) :
    SequentialPool where
  pool := ⟨.cleared size, [], TlmBuffers.cleared_aligned positive small records⟩
  held := (0, 0)
  closed := false

/-- The sequential pool as a transition system. -/
def system {size : Nat} (positive : 0 < size) (small : size < 2 ^ 32) (records : 512 ∣ size) :
    System SequentialPool PoolEvent where
  init seq := seq = initial positive small records
  step := step

/-- The sequential pool answers the same requests with the same records. -/
theorem step_input {seq first second : SequentialPool} {event event' : PoolEvent}
    (taken : seq.step event = some first) (taken' : seq.step event' = some second)
    (same : event.input = event'.input) : event = event' ∧ first = second := by
  have agree : event = event' := by
    cases event <;> cases event' <;> cases same
    case granted request record record' =>
        obtain ⟨⟨-, record_⟩, -⟩ := System.of_guarded taken
        obtain ⟨⟨-, record'_⟩, -⟩ := System.of_guarded taken'
        rw [record_, record'_]
    case stored => rfl
    case closed => rfl
  refine ⟨agree, ?_⟩
  rw [← agree, taken] at taken'
  exact Option.some.inj taken'

section Runs

variable {size : Nat} {positive : 0 < size} {small : size < 2 ^ 32} {records : 512 ∣ size}
  {events events' : List PoolEvent} {first second : SequentialPool}

/-- What the encoder sees determines the pool. -/
theorem performs_unique (performs : (system positive small records).Performs events first)
    (performs' : (system positive small records).Performs events second) : first = second := by
  refine performs.unique ?_ performs'
  intro start start' starts starts'
  exact starts.trans starts'.symm

/-- What the encoder does determines what it sees, and the pool. -/
theorem performs_input
    (performs : (system positive small records).Performs events first)
    (performs' : (system positive small records).Performs events' second)
    (same : events.map PoolEvent.input = events'.map PoolEvent.input) :
    events = events' ∧ first = second := by
  induction performs generalizing events' second with
  | init starts =>
      cases events' with
      | nil => exact ⟨rfl, performs_unique (.init starts) performs'⟩
      | cons _ _ => cases same
  | @step before after event labels _ taken ih =>
      rw [List.map_append] at same
      obtain ⟨labels', last, rfl, sameLabels, sameLast⟩ := List.map_eq_append_iff.mp same.symm
      obtain ⟨event', rest, rfl, sameEvent, noMore⟩ := List.map_eq_cons_iff.mp sameLast
      cases List.map_eq_nil_iff.mp noMore
      obtain ⟨before', performed', taken'⟩ := performs'.last
      obtain ⟨rfl, rfl⟩ := ih performed' sameLabels.symm
      obtain ⟨rfl, rfl⟩ := step_input taken taken' sameEvent.symm
      exact ⟨rfl, rfl⟩

end Runs

end SequentialPool

namespace HandOff

/-- The hand-off from a cleared pool with blocks of `size` bytes. -/
def ofSize (size : Nat) : System HandOff HandOffAction where
  init state := state = started (List.replicate size 0)
  step := step

/-- What the encoder sees of a step. -/
def event (state : HandOff) : HandOffAction → Option PoolEvent
  | .reader =>
      match state.readerPc with
      | .grant request =>
          some (.granted request
            (state.bufs.grantRecord state.readerBuffer request.want request.zero).2)
      | .eofFull => some .closed
      | _ => none
  | .store offset byte => some (.stored offset byte)
  | _ => none

/-- The backup is running when the reader looks, as for an encoder that gets all the
records it asks for. -/
def Granting (state : HandOff) (action : HandOffAction) : Prop :=
  action = .reader → state.readerPc.testsReader = true → state.tcReader = .backupRun

instance (state : HandOff) (action : HandOffAction) : Decidable (state.Granting action) :=
  inferInstanceAs (Decidable (_ → _ → _))

theorem Granting.retries {state : HandOff} {action : HandOffAction}
    (granting : state.Granting action) : state.retriesUntilRecord action :=
  fun isReader tests => .inl (granting isReader tests)

/-! ## The relation -/

/-- The block and the blocks declared full are those of the sequential pool. -/
structure Same (block : TlmBuffer) (filledBlocks : List (List UInt8)) (pool : WritePool) :
    Prop where
  data : block.tbBufferData = pool.block.tbBufferData
  spot : block.tbBufferSpot = pool.block.tbBufferSpot
  filled : filledBlocks = pool.sentBlocks

/-- The block has no room left and was declared full for a request that is not granted
yet. -/
structure DeclaredFull (block : TlmBuffer) (filledBlocks : List (List UInt8))
    (pool : WritePool) : Prop where
  data : block.tbBufferData = pool.block.tbBufferData
  spot : block.tbBufferSpot = pool.block.tbBufferSpot
  full : pool.room = 0
  filled : filledBlocks = pool.sentBlocks ++ [pool.block.tbBufferData]

/-- How the shared pool is related to the sequential one where the reader stands. -/
def Matches (state : HandOff) (seq : SequentialPool) : ReaderPc → Prop
  | .outside | .enter _ | .testReader _ false | .testRoom _ false | .eofFilled | .eofFull =>
      seq.closed = false ∧ state.bufs.block.tbFull = false ∧
        Same state.bufs.block state.filledBlocks seq.pool
  | .testFull _ false | .setFull _ false =>
      seq.closed = false ∧ state.bufs.block.tbFull = false ∧
        Same state.bufs.block state.filledBlocks seq.pool ∧
        seq.pool.room = 0
  | .resetSpot _ =>
      seq.closed = false ∧ state.bufs.block.tbFull = false ∧
        DeclaredFull state.bufs.block state.filledBlocks seq.pool
  | .grant _ =>
      seq.closed = false ∧ state.bufs.block.tbFull = false ∧
        Same state.bufs.block state.filledBlocks seq.pool.makeRoom
  | .giveUp => False
  | .eofRelease | .stopWriter | .finished => state.filledBlocks = seq.blocks
  | _ => seq.closed = false ∧ DeclaredFull state.bufs.block state.filledBlocks seq.pool

/-- The shared pool represents the sequential one. -/
def Represents (state : HandOff) (seq : SequentialPool) : Prop :=
  state.held = seq.held ∧ state.Matches seq state.readerPc

/-- A step that takes nothing from the block but its flags. -/
structure Keeps (state next : HandOff) : Prop where
  held : next.held = state.held
  filled : next.filledBlocks = state.filledBlocks
  data : next.bufs.block.tbBufferData = state.bufs.block.tbBufferData
  spot : next.bufs.block.tbBufferSpot = state.bufs.block.tbBufferSpot
  free : state.bufs.block.tbFull = false → next.bufs.block.tbFull = false

variable {state next : HandOff} {seq : SequentialPool} {pool : WritePool}

theorem Same.of_keeps (same : Same state.bufs.block state.filledBlocks pool)
    (kept : state.Keeps next) : Same next.bufs.block next.filledBlocks pool :=
  ⟨kept.data.trans same.data, kept.spot.trans same.spot, kept.filled.trans same.filled⟩

theorem DeclaredFull.of_keeps (declared : DeclaredFull state.bufs.block state.filledBlocks pool)
    (kept : state.Keeps next) : DeclaredFull next.bufs.block next.filledBlocks pool :=
  ⟨kept.data.trans declared.data, kept.spot.trans declared.spot, declared.full,
    kept.filled.trans declared.filled⟩

theorem Matches.of_keeps {pc : ReaderPc} (matches_ : state.Matches seq pc)
    (kept : state.Keeps next) : next.Matches seq pc := by
  cases pc with
  | outside | enter | eofFilled | eofFull =>
      exact ⟨matches_.1, kept.free matches_.2.1, matches_.2.2.of_keeps kept⟩
  | testReader _ again | testRoom _ again =>
      cases again with
      | false => exact ⟨matches_.1, kept.free matches_.2.1, matches_.2.2.of_keeps kept⟩
      | true => exact ⟨matches_.1, matches_.2.of_keeps kept⟩
  | testFull _ again | setFull _ again =>
      cases again with
      | false =>
          exact ⟨matches_.1, kept.free matches_.2.1, matches_.2.2.1.of_keeps kept,
            matches_.2.2.2⟩
      | true => exact ⟨matches_.1, matches_.2.of_keeps kept⟩
  | resetSpot => exact ⟨matches_.1, kept.free matches_.2.1, matches_.2.2.of_keeps kept⟩
  | grant => exact ⟨matches_.1, kept.free matches_.2.1, matches_.2.2.of_keeps kept⟩
  | giveUp => exact matches_.elim
  | eofRelease | stopWriter | finished => exact kept.filled.trans matches_
  | releaseIn | advanceIn | fetchIn | testBusy | timedWait | refetchIn | testStillBusy =>
      exact ⟨matches_.1, matches_.2.of_keeps kept⟩

/-- A step that keeps the block represents the same pool, if the reader is where the pool
matches. -/
theorem Represents.moves (represents : state.Represents seq) (kept : state.Keeps next)
    (matches_ : state.Matches seq next.readerPc) : next.Represents seq :=
  ⟨kept.held.trans represents.1, matches_.of_keeps kept⟩

theorem writerStep_keeps (taken : state.writerStep = some next) :
    state.Keeps next ∧ next.readerPc = state.readerPc := by
  cases pc : state.writerPc <;>
    simp only [HandOff.writerStep, pc, TlmBuffers.tbsBuffer_eq_block, reduceCtorEq,
      Option.some.injEq] at taken
  case testWriters | testWriter | testFull | testFilled | testRunning =>
      split at taken <;> cases taken <;> exact ⟨⟨rfl, rfl, rfl, rfl, id⟩, rfl⟩
  case clearFilled =>
      subst taken
      exact ⟨⟨rfl, rfl, by simp, by simp, by simp⟩, rfl⟩
  case clearFull =>
      subst taken
      exact ⟨⟨rfl, rfl, by simp, by simp, by simp⟩, rfl⟩
  all_goals
    subst taken
    exact ⟨⟨rfl, rfl, rfl, rfl, id⟩, rfl⟩

/-! ## Steps of the reader -/

/-- What a grant does to the data of a block depends on its data and cursor only. -/
theorem grantRecord_agrees {bufs other : TlmBuffers} (index index' : Fin tlmTapeBuffers)
    (want : Nat) (zero : Bool) (data : bufs.block.tbBufferData = other.block.tbBufferData)
    (spot : bufs.block.tbBufferSpot = other.block.tbBufferSpot) :
    (bufs.grantRecord index want zero).1.block.tbBufferData =
        (other.grantRecord index' want zero).1.block.tbBufferData ∧
      (bufs.grantRecord index want zero).1.block.tbBufferSpot =
        (other.grantRecord index' want zero).1.block.tbBufferSpot ∧
      (bufs.grantRecord index want zero).2 = (other.block.tbBufferSpot,
        unsignedMin (roundToRecords want)
          (other.block.tbBufferSize - other.block.tbBufferSpot)) := by
  rw [WritePool.grantRecord_block, WritePool.grantRecord_block]
  have size : bufs.block.tbBufferSize = other.block.tbBufferSize := congrArg List.length data
  refine ⟨?_, ?_, ?_⟩
  · cases zero with
    | false => exact data
    | true =>
        dsimp only
        rw [if_pos rfl, if_pos rfl, TlmBuffer.overwrite, TlmBuffer.overwrite]
        simp only [TlmBuffer.tbBufferSize, data, spot]
  · cases zero <;> simp [spot, size, TlmBuffer.overwrite]
  · simp [TlmBuffers.grantRecord, spot, size]

variable {block : TlmBuffer} {filledBlocks : List (List UInt8)}

theorem Same.noRoom_iff (same : Same block filledBlocks pool) :
    block.tbBufferSize ≤ block.tbBufferSpot ↔ pool.room = 0 := by
  have size : block.tbBufferSize = pool.block.tbBufferSize :=
    congrArg List.length same.data
  rw [size, same.spot, WritePool.room, Nat.sub_eq_zero_iff_le]

theorem DeclaredFull.noRoom (declared : DeclaredFull block filledBlocks pool) :
    block.tbBufferSize ≤ block.tbBufferSpot := by
  have size : block.tbBufferSize = pool.block.tbBufferSize :=
    congrArg List.length declared.data
  rw [size, declared.spot]
  exact Nat.sub_eq_zero_iff_le.mp declared.full

/-- The block is free again and its cursor goes back: the sequential pool has made room. -/
theorem DeclaredFull.makeRoom (declared : DeclaredFull block filledBlocks pool) :
    Same { block with tbBufferSpot := 0 } filledBlocks pool.makeRoom := by
  obtain ⟨made, sent⟩ := pool.makeRoom_of_full declared.full
  refine ⟨?_, ?_, ?_⟩
  · rw [made]
    exact declared.data
  · rw [made]
  · rw [sent]
    exact declared.filled

/-- A block without room is declared full. -/
theorem Same.declareFull (same : Same block filledBlocks pool) (full : pool.room = 0) :
    DeclaredFull { block with tbFull := true } (filledBlocks ++ [block.tbBufferData]) pool where
  data := same.data
  spot := same.spot
  full := full
  filled := by
    rw [same.filled, same.data]

/-- A retry declares the same block full again. -/
theorem DeclaredFull.again (declared : DeclaredFull block filledBlocks pool) :
    DeclaredFull { block with tbFull := true } filledBlocks pool :=
  ⟨declared.data, declared.spot, declared.full, declared.filled⟩

/-- The record is granted as the sequential pool grants it. -/
theorem Matches.granted {request : Request} (matches_ : state.Matches seq (.grant request)) :
    ∃ after, seq.step (.granted request
        (state.bufs.grantRecord state.readerBuffer request.want request.zero).2) = some after ∧
      ({ state with
        bufs := (state.bufs.grantRecord state.readerBuffer request.want request.zero).1
        held := (state.bufs.grantRecord state.readerBuffer request.want request.zero).2
        readerPc := .outside } : HandOff).Represents after := by
  obtain ⟨notClosed, free, same⟩ := matches_
  let room := seq.pool.makeRoom
  obtain ⟨data, spot, record⟩ := grantRecord_agrees state.readerBuffer room.bufs.tbsBufferIn
    request.want request.zero same.data same.spot
  refine ⟨{ seq with
    pool := seq.pool.tlmGetWriteBuffer request.want request.zero
    held := (state.bufs.grantRecord state.readerBuffer request.want request.zero).2 }, ?_, rfl, ?_⟩
  · rw [SequentialPool.step, if_pos ⟨notClosed, record⟩]
  · exact ⟨notClosed, (TlmBuffers.grantRecord_tbFull _ _ _ _).trans free, data, spot, same.filled⟩

/-- The last block is declared full. -/
theorem Matches.closed (matches_ : state.Matches seq .eofFull) :
    ∃ after, seq.step .closed = some after ∧ after.held = seq.held ∧
      state.fill.filledBlocks = after.blocks := by
  obtain ⟨notClosed, -, same⟩ := matches_
  refine ⟨{ seq with closed := true }, ?_, rfl, ?_⟩
  · rw [SequentialPool.step, if_pos notClosed]
  · rw [HandOff.fill, SequentialPool.blocks, if_pos rfl, TlmBuffers.tbsBuffer_eq_block, same.filled,
      same.data]

/-- The silent steps of the reader: from its place to the next one, on a block that it
keeps. -/
theorem Represents.silentStep (represents : state.Represents seq)
    (granting : state.Granting .reader) (silent : state.event .reader = none)
    (taken : state.readerStep = some next) : next.Represents seq := by
  have matches_ := represents.2
  cases pc : state.readerPc <;>
    simp only [HandOff.readerStep, pc, TlmBuffers.tbsBuffer_eq_block, reduceCtorEq,
      Option.ite_none_left_eq_some, Option.some.injEq] at taken <;>
    rw [pc] at matches_
  case enter request =>
      obtain ⟨-, rfl⟩ := taken
      exact represents.moves ⟨rfl, rfl, by simp, by simp, by simp⟩ matches_
  case testReader request again =>
      rw [if_pos (granting rfl (by rw [pc]; rfl))] at taken
      cases taken
      refine represents.moves ⟨rfl, rfl, rfl, rfl, id⟩ ?_
      cases again <;> exact matches_
  case testRoom request again =>
      cases again with
      | false =>
          by_cases full : state.bufs.block.tbBufferSize ≤ state.bufs.block.tbBufferSpot
          · rw [if_pos full] at taken
            cases taken
            refine represents.moves ⟨rfl, rfl, rfl, rfl, id⟩ ?_
            exact ⟨matches_.1, matches_.2.1, matches_.2.2, matches_.2.2.noRoom_iff.mp full⟩
          · rw [if_neg full] at taken
            cases taken
            refine represents.moves ⟨rfl, rfl, rfl, rfl, id⟩ ⟨matches_.1, matches_.2.1, ?_⟩
            rw [seq.pool.makeRoom_of_free fun none_ => full (matches_.2.2.noRoom_iff.mpr none_)]
            exact matches_.2.2
      | true =>
          rw [if_pos matches_.2.noRoom] at taken
          cases taken
          exact represents.moves ⟨rfl, rfl, rfl, rfl, id⟩ matches_
  case testFull request again =>
      cases again with
      | false =>
          rw [if_neg (by rw [matches_.2.1]; exact Bool.false_ne_true)] at taken
          cases taken
          exact represents.moves ⟨rfl, rfl, rfl, rfl, id⟩ matches_
      | true =>
          split at taken <;> cases taken <;>
            exact represents.moves ⟨rfl, rfl, rfl, rfl, id⟩ matches_
  case setFull request again =>
      cases taken
      cases again with
      | false =>
          refine ⟨represents.1, matches_.1, ?_⟩
          rw [HandOff.fill, TlmBuffers.modify_block, TlmBuffers.tbsBuffer_eq_block]
          exact matches_.2.2.1.declareFull matches_.2.2.2
      | true =>
          refine ⟨represents.1, matches_.1, ?_⟩
          rw [HandOff.fill, TlmBuffers.modify_block]
          exact matches_.2.again
  case advanceIn request =>
      obtain ⟨-, rfl⟩ := taken
      exact represents.moves ⟨rfl, rfl, by simp, by simp, by simp⟩ matches_
  case testBusy request =>
      split at taken <;> cases taken <;>
        exact represents.moves ⟨rfl, rfl, rfl, rfl, id⟩ matches_
  case testStillBusy request =>
      by_cases full : state.bufs.block.tbFull = true
      · rw [if_pos full] at taken
        cases taken
        exact represents.moves ⟨rfl, rfl, rfl, rfl, id⟩ matches_
      · rw [if_neg full] at taken
        cases taken
        refine represents.moves ⟨rfl, rfl, rfl, rfl, id⟩ ⟨matches_.1, ?_, matches_.2⟩
        exact Bool.eq_false_iff.mpr full
  case resetSpot request =>
      cases taken
      refine ⟨represents.1, matches_.1, ?_, ?_⟩
      · rw [TlmBuffers.modify_block]
        exact matches_.2.1
      · rw [TlmBuffers.modify_block]
        exact matches_.2.2.makeRoom
  case eofFilled =>
      cases taken
      exact represents.moves ⟨rfl, rfl, by simp, by simp, by simp⟩ matches_
  case eofRelease =>
      obtain ⟨-, rfl⟩ := taken
      exact represents.moves ⟨rfl, rfl, rfl, rfl, id⟩ matches_
  case stopWriter =>
      cases taken
      exact represents.moves ⟨rfl, rfl, rfl, rfl, id⟩ matches_
  case releaseIn request | fetchIn request | timedWait request | refetchIn request =>
      obtain ⟨-, rfl⟩ := taken
      exact represents.moves ⟨rfl, rfl, rfl, rfl, id⟩ matches_
  case grant | eofFull =>
      rw [event, pc] at silent
      cases silent
  case giveUp => exact matches_.elim

/-- A step of the reader is silent, or one that the sequential pool takes as well. -/
theorem Represents.visibleStep (represents : state.Represents seq) {seen : PoolEvent}
    (visible : state.event .reader = some seen) (taken : state.readerStep = some next) :
    ∃ after, seq.step seen = some after ∧ next.Represents after := by
  obtain ⟨held, matches_⟩ := represents
  cases pc : state.readerPc <;> rw [event, pc] at visible <;> cases visible <;>
    rw [pc] at matches_ <;> rw [HandOff.readerStep, pc] at taken <;> cases taken
  case grant request =>
      exact matches_.granted
  case eofFull =>
      obtain ⟨after, stepped, same, blocks⟩ := matches_.closed
      exact ⟨after, stepped, held.trans same.symm, blocks⟩

/-! ## Steps of the caller -/

/-- A byte is stored where the sequential pool stores it. -/
theorem Represents.stores (represents : state.Represents seq) (outside : state.readerPc = .outside)
    {offset : Nat} {byte : UInt8} (inside : offset < state.held.2) :
    ∃ after, seq.step (.stored offset byte) = some after ∧
      ({ state with
        bufs := state.bufs.modify state.bufs.tbsBufferIn fun buffer =>
          buffer.overwrite (state.held.1 + offset) [byte] } : HandOff).Represents after := by
  obtain ⟨held, matches_⟩ := represents
  rw [outside] at matches_
  obtain ⟨notClosed, free, same⟩ := matches_
  have room : offset < seq.held.2 := held ▸ inside
  have size : state.bufs.block.tbBufferSize = seq.pool.block.tbBufferSize :=
    congrArg List.length same.data
  refine ⟨{ seq with pool := seq.pool.fill (seq.held.1 + offset) [byte] }, ?_, held, ?_⟩
  · rw [SequentialPool.step, if_pos ⟨notClosed, room⟩]
  · change Matches _ _ state.readerPc
    rw [outside]
    refine ⟨notClosed, ?_, ?_, ?_, same.filled⟩
    · rw [TlmBuffers.modify_block]
      exact free
    · rw [TlmBuffers.modify_block, WritePool.fill, WritePool.block, TlmBuffers.modify_block,
        ← held]
      change List.take _ _ = List.take _ _
      rw [same.data, size]
      rfl
    · rw [TlmBuffers.modify_block, WritePool.fill, WritePool.block, TlmBuffers.modify_block]
      exact same.spot

/-- The silent steps of the caller. -/
theorem Represents.callerSilent (represents : state.Represents seq)
    (outside : state.readerPc = .outside) {action : HandOffAction}
    (silent : state.event action = none) (taken : state.callerStep action = some next) :
    next.Represents seq := by
  have matches_ := represents.2
  rw [outside] at matches_
  cases action <;>
    simp only [HandOff.callerStep, reduceCtorEq, Option.ite_none_left_eq_some,
      Option.some.injEq] at taken
  case store offset byte =>
      cases silent
  case setWriteBufDone =>
      obtain ⟨-, rfl⟩ := taken
      refine represents.moves ⟨rfl, rfl, by simp, by simp, by simp⟩ ?_
      change state.Matches seq state.readerPc
      rw [outside]
      exact matches_
  case getWriteBuffer request =>
      subst taken
      exact represents.moves ⟨rfl, rfl, rfl, rfl, id⟩ matches_
  case checkAbort =>
      split at taken <;> cases taken
      · exact represents
      · refine represents.moves ⟨rfl, rfl, rfl, rfl, id⟩ ?_
        change state.Matches seq state.readerPc
        rw [outside]
        exact matches_
  case writeTarEof =>
      subst taken
      exact represents.moves ⟨rfl, rfl, rfl, rfl, id⟩ matches_
  case abandonTraversal =>
      subst taken
      refine represents.moves ⟨rfl, rfl, rfl, rfl, id⟩ ?_
      change state.filledBlocks = seq.blocks
      rw [SequentialPool.blocks, if_neg (by rw [matches_.1]; exact Bool.false_ne_true)]
      exact matches_.2.2.filled

/-- A step that leaves the block, the record and the reader where they are. -/
theorem Represents.kept (represents : state.Represents seq) (kept : state.Keeps next)
    (stays : next.readerPc = state.readerPc) : next.Represents seq := by
  refine represents.moves kept ?_
  rw [stays]
  exact represents.2

/-- One step: silent steps represent the same pool. -/
theorem Represents.silent (represents : state.Represents seq) {action : HandOffAction}
    (granting : state.Granting action) (taken : state.step action = some next)
    (silent : state.event action = none) : next.Represents seq := by
  cases action with
  | reader => exact represents.silentStep granting silent taken
  | writer =>
      obtain ⟨kept, stays⟩ := writerStep_keeps taken
      exact represents.kept kept stays
  | modWriteReturns succeeded =>
      simp only [step] at taken
      split at taken <;> cases taken <;>
        exact represents.kept ⟨rfl, rfl, rfl, rfl, id⟩ rfl
  | requestAbort signal =>
      cases taken
      cases signal <;> exact represents.kept ⟨rfl, rfl, rfl, rfl, id⟩ rfl
  | _ =>
      simp only [step, Option.ite_none_right_eq_some] at taken
      exact represents.callerSilent taken.1 silent taken.2

/-- One step: visible steps are steps of the sequential pool. -/
theorem Represents.visible (represents : state.Represents seq) {action : HandOffAction}
    (taken : state.step action = some next) {seen : PoolEvent}
    (visible : state.event action = some seen) :
    ∃ after, seq.step seen = some after ∧ next.Represents after := by
  cases action <;> try cases visible
  case reader => exact represents.visibleStep visible taken
  case store offset byte =>
      simp only [step, Option.ite_none_right_eq_some] at taken
      obtain ⟨outside, stored⟩ := taken
      rw [HandOff.callerStep, Option.ite_none_right_eq_some] at stored
      obtain ⟨inside, same⟩ := stored
      cases same
      exact represents.stores outside inside

variable {size : Nat} (positive : 0 < size) (small : size < 2 ^ 32) (records : 512 ∣ size)

theorem represents_started :
    (started (List.replicate size 0)).Represents
      (SequentialPool.initial positive small records) :=
  ⟨rfl, rfl, rfl, rfl, rfl, rfl⟩

/-- The shared pool simulates the sequential one. -/
theorem represents_simulation :
    Simulation (ofSize size) Granting event (SequentialPool.system positive small records)
      Represents where
  init := by
    rintro _ rfl
    exact ⟨_, rfl, represents_started positive small records⟩
  silent _ _ _ _ represents granting taken unseen := represents.silent granting taken unseen
  visible _ _ _ _ _ represents _ taken seen := represents.visible taken seen

/-! ## Runs without abort and error -/

/-- No abort was requested and the writer has met no error. -/
def Undisturbed (state : HandOff) : Prop :=
  state.abortRequested = false ∧ state.err = 0

/-- A writer on its way out: the reader has finished, and all its blocks were passed on. -/
structure Done (state : HandOff) : Prop where
  reader : state.readerPc = .finished
  writer : state.writerPc = .stopReader ∨ state.writerPc = .exited
  passed : state.passedBlocks = state.filledBlocks

/-- The writer is at work on the blocks of a running backup, or it has passed all of them
on. -/
structure Serves (state : HandOff) : Prop where
  draining : state.Draining
  phase : state.tcReader = .backupRun ∧ state.Live ∨ state.Done

theorem readerStep_tcReader (taken : state.readerStep = some next) :
    next.tcReader = state.tcReader := by
  cases pc : state.readerPc <;>
    simp only [HandOff.readerStep, pc, fill, reduceCtorEq, Option.ite_none_left_eq_some,
      Option.some.injEq] at taken
  all_goals grind

theorem callerStep_tcReader {action : HandOffAction} (taken : state.callerStep action = some next) :
    next.tcReader = state.tcReader := by
  cases action <;> simp only [HandOff.callerStep] at taken <;> grind

/-- Only its last step gets the writer out of its loop, and that step stops the reader. -/
theorem writerStep_leaves (taken : state.writerStep = some next) :
    (next.writerPc = .stopReader → next = { state with writerPc := .stopReader }) ∧
      (next.writerPc = .exited → state.writerPc = .stopReader) ∧
      (state.writerPc ≠ .stopReader → next.tcReader = state.tcReader) := by
  cases pc : state.writerPc <;> simp only [HandOff.writerStep, pc] at taken
  all_goals grind

theorem Serves.started (memory : List UInt8) : (HandOff.started memory).Serves :=
  ⟨.started memory, .inl ⟨rfl, .started memory⟩⟩

theorem Serves.readerStep (serves : state.Serves) (ordered : ¬ state.stopsBetweenTests .reader)
    (taken : state.readerStep = some next) : next.Serves := by
  refine ⟨serves.draining.readerStep ordered taken, ?_⟩
  rcases serves.phase with ⟨running, live⟩ | done
  · exact .inl ⟨(readerStep_tcReader taken).trans running,
      live.readerStep (fun _ _ => .inl running) taken⟩
  · simp [HandOff.readerStep, done.reader] at taken

/-- A writer that leaves its loop has found the block empty for good. -/
theorem Serves.leaves (draining : next.Draining) (leaving : next.Leaving) :
    (next.writerPc = .stopReader ∨ next.writerPc = .exited) ∧
      next.readerPc = .finished ∧ next.bufs.block.tbFull = false := by
  rcases draining.phase with ⟨-, inLoop⟩ | ⟨-, finished, notFirst, notSecond, empty⟩
  · rcases leaving.leaving with pc | ⟨pc, -⟩ | ⟨-, aborted⟩ | pc | pc
    · rw [pc] at inLoop
      cases inLoop
    · rw [pc] at inLoop
      cases inLoop
    · rw [draining.tcsWriter] at aborted
      cases aborted
    · rw [pc] at inLoop
      cases inLoop
    · rw [pc] at inLoop
      cases inLoop
  · rcases leaving.leaving with pc | ⟨pc, -⟩ | ⟨-, aborted⟩ | pc | pc
    · exact absurd pc notFirst
    · exact absurd pc notSecond
    · rw [draining.tcsWriter] at aborted
      cases aborted
    · exact ⟨.inl pc, finished, empty (by rw [pc]; rfl)⟩
    · exact ⟨.inr pc, finished, empty (by rw [pc]; rfl)⟩

theorem Serves.writerStep (serves : state.Serves) (taken : state.writerStep = some next) :
    next.Serves := by
  have draining := serves.draining.writerStep taken
  obtain ⟨stops, exits, keeps⟩ := writerStep_leaves taken
  refine ⟨draining, ?_⟩
  rcases serves.phase with ⟨running, live⟩ | done
  · have working : state.writerPc ≠ .stopReader := by
      intro pc
      have writer := live.writer
      rw [pc] at writer
      exact writer
    rcases live.writerStep taken with stays | leaving
    · exact .inl ⟨(keeps working).trans running, stays⟩
    · obtain ⟨pc, finished, empty⟩ := Serves.leaves draining leaving
      rcases pc with stopping | exited
      · have same := stops stopping
        have history := live.history
        have free : state.bufs.block.tbFull = false := by
          rw [same] at empty
          exact empty
        rw [pending_of_not_full free, List.append_nil] at history
        refine .inr ⟨finished, .inl stopping, ?_⟩
        rw [same]
        exact history.symm
      · exact absurd (exits exited) working
  · obtain ⟨finished, pc, passed⟩ := done
    rcases pc with pc | pc <;> rw [HandOff.writerStep, pc] at taken <;> cases taken
    exact .inr ⟨finished, .inr rfl, passed⟩

/-- An ordered step keeps the writer at its work, or it disturbs the run. -/
theorem Serves.step (serves : state.Serves) {action : HandOffAction}
    (ordered : ¬ state.stopsBetweenTests action) (taken : state.step action = some next)
    (undisturbed : next.Undisturbed) : next.Serves := by
  cases action with
  | reader => exact serves.readerStep ordered taken
  | writer => exact serves.writerStep taken
  | modWriteReturns succeeded =>
      refine ⟨?_, ?_⟩
      · have drains : state.DrainsUnlessDisturbed := fun _ _ => serves.draining
        exact drainsUnlessDisturbed_step drains ordered taken undisturbed.1 undisturbed.2
      · rcases serves.phase with ⟨running, live⟩ | done
        · have sameReader : next.tcReader = state.tcReader := by
            simp only [HandOff.step] at taken
            split at taken <;> cases taken <;> rfl
          rcases live.modWriteReturns taken with stays | leaving
          · exact .inl ⟨sameReader.trans running, stays⟩
          · simp only [HandOff.step] at taken
            split at taken <;> cases taken
            · exact absurd leaving.leaving (by simp)
            · cases undisturbed.2
        · simp only [HandOff.step] at taken
          rcases done.writer with pc | pc <;> rw [pc] at taken <;> cases taken
  | requestAbort signal =>
      cases taken
      cases signal <;> cases undisturbed.1
  | _ =>
      simp only [HandOff.step, Option.ite_none_right_eq_some] at taken
      obtain ⟨outside, taken⟩ := taken
      refine ⟨serves.draining.callerStep outside taken, ?_⟩
      rcases serves.phase with ⟨running, live⟩ | done
      · exact .inl ⟨(callerStep_tcReader taken).trans running, live.callerStep outside taken⟩
      · rw [done.reader] at outside
        cases outside

/-- What disturbs a run disturbs it to its end. -/
theorem Undisturbed.before {action : HandOffAction} (undisturbed : next.Undisturbed)
    (taken : state.step action = some next) : state.Undisturbed := by
  cases action with
  | reader =>
      obtain ⟨-, -, -, err, abortRequested⟩ := readerStep_commands taken
      exact ⟨abortRequested.symm.trans undisturbed.1, err.symm.trans undisturbed.2⟩
  | writer =>
      obtain ⟨err, abortRequested⟩ := writerStep_err taken
      exact ⟨abortRequested.symm.trans undisturbed.1, err.symm.trans undisturbed.2⟩
  | modWriteReturns succeeded =>
      simp only [step] at taken
      split at taken <;> cases taken
      · exact undisturbed
      · cases undisturbed.2
  | requestAbort signal =>
      cases taken
      cases signal <;> cases undisturbed.1
  | _ =>
      simp only [step, Option.ite_none_right_eq_some] at taken
      obtain ⟨err, abortRequested⟩ := callerStep_err taken.2
      exact ⟨abortRequested.symm.trans undisturbed.1, err.symm.trans undisturbed.2⟩

/-- Runs in which the reader does not set `tc_writer` between the writer's two tests of a
full block. -/
def Ordered (state : HandOff) (action : HandOffAction) : Prop :=
  ¬ state.stopsBetweenTests action

instance (state : HandOff) (action : HandOffAction) : Decidable (state.Ordered action) :=
  inferInstanceAs (Decidable (¬ _))

/-- In an ordered run without abort and error the writer serves the reader, and the reader
finds the backup running wherever it looks. -/
theorem serves_of_traces {events : List PoolEvent}
    (traces : (ofSize size).Traces Ordered event events state) (undisturbed : state.Undisturbed) :
    state.Serves ∧ (ofSize size).Traces Granting event events state := by
  induction traces with
  | init start =>
      cases start
      exact ⟨.started _, .init rfl⟩
  | @step before after action labels _ ordered taken ih =>
      obtain ⟨serves, granted⟩ := ih (undisturbed.before taken)
      refine ⟨serves.step ordered taken undisturbed, .step granted ?_ taken⟩
      intro isReader testing
      rcases serves.phase with ⟨running, -⟩ | done
      · exact running
      · rw [done.reader] at testing
        cases testing

/-- **The threads do what the encoder does on a pool of its own.** What the encoder sees of
the shared pool in an ordered run without abort and error, it sees of the sequential pool,
and once the writer has ended, the blocks passed on are those of the sequential pool. -/
theorem passedBlocks_eq_blocks {events : List PoolEvent}
    (traces : (ofSize size).Traces Ordered event events state) (undisturbed : state.Undisturbed) :
    ∃ seq, (SequentialPool.system positive small records).Performs events seq ∧
      (state.writerPc = .exited → state.passedBlocks = seq.blocks) := by
  obtain ⟨serves, granted⟩ := serves_of_traces traces undisturbed
  obtain ⟨seq, performs, represents⟩ :=
    (represents_simulation positive small records).performs granted
  refine ⟨seq, performs, fun exited => ?_⟩
  rcases serves.phase with ⟨-, live⟩ | done
  · have writer := live.writer
    rw [exited] at writer
    exact writer.elim
  · have matches_ := represents.2
    rw [done.reader] at matches_
    exact done.passed.trans matches_

/-- **The schedule does not show.** In two ordered runs without abort and error in which the
encoder does the same, it is granted the same records, and at the end the writer has passed
on the same blocks. -/
theorem schedule_independent {events events' : List PoolEvent} {other : HandOff}
    (positive : 0 < size) (small : size < 2 ^ 32) (records : 512 ∣ size)
    (traces : (ofSize size).Traces Ordered event events state)
    (traces' : (ofSize size).Traces Ordered event events' other)
    (undisturbed : state.Undisturbed) (undisturbed' : other.Undisturbed)
    (same : events.map PoolEvent.input = events'.map PoolEvent.input) :
    events = events' ∧
      (state.writerPc = .exited → other.writerPc = .exited →
        state.passedBlocks = other.passedBlocks) := by
  obtain ⟨seq, performs, blocks⟩ :=
    passedBlocks_eq_blocks positive small records traces undisturbed
  obtain ⟨seq', performs', blocks'⟩ :=
    passedBlocks_eq_blocks positive small records traces' undisturbed'
  obtain ⟨sameEvents, sameSeq⟩ := SequentialPool.performs_input performs performs' same
  refine ⟨sameEvents, fun exited exited' => ?_⟩
  rw [blocks exited, blocks' exited', sameSeq]

/-- One byte is stored and the archive closed before the writer looks. -/
def lateWriter : List HandOffAction :=
  .getWriteBuffer ⟨1, false⟩ :: List.replicate 4 .reader ++ .store 0 7 :: .writeTarEof ::
    List.replicate 4 .reader ++ List.replicate 5 .writer ++
      .modWriteReturns true :: List.replicate 9 .writer

/-- The same with a writer that looks in between and waits. -/
def busyWriter : List HandOffAction :=
  List.replicate 5 .writer ++ .getWriteBuffer ⟨1, false⟩ :: List.replicate 4 .reader ++
    List.replicate 5 .writer ++ .store 0 7 :: .writeTarEof ::
      List.replicate 4 .reader ++ List.replicate 5 .writer ++
        .modWriteReturns true :: List.replicate 9 .writer

theorem schedule_independent_oneByte :
    ∃ late busy, (ofSize 512).Traces Ordered event
        [.granted ⟨1, false⟩ (0, 512), .stored 0 7, .closed] late ∧
      (ofSize 512).Traces Ordered event
        [.granted ⟨1, false⟩ (0, 512), .stored 0 7, .closed] busy ∧
      late.passedBlocks = busy.passedBlocks := by
  have ends : ((ofSize 512).observe Ordered event (started (List.replicate 512 0)) lateWriter).map
      (fun seen => (seen.1, seen.2.abortRequested, seen.2.err, seen.2.writerPc)) =
        some ([.granted ⟨1, false⟩ (0, 512), .stored 0 7, .closed], false, 0, .exited) := by
    decide +kernel
  have ends' : ((ofSize 512).observe Ordered event (started (List.replicate 512 0)) busyWriter).map
      (fun seen => (seen.1, seen.2.abortRequested, seen.2.err, seen.2.writerPc)) =
        some ([.granted ⟨1, false⟩ (0, 512), .stored 0 7, .closed], false, 0, .exited) := by
    decide +kernel
  obtain ⟨late, ran, seen⟩ := Option.map_eq_some_iff.mp ends
  obtain ⟨busy, ran', seen'⟩ := Option.map_eq_some_iff.mp ends'
  simp only [Prod.mk.injEq] at seen seen'
  obtain ⟨events, unaborted, succeeded, exited⟩ := seen
  obtain ⟨events', unaborted', succeeded', exited'⟩ := seen'
  have fresh : (ofSize 512).Traces Ordered event [] (started (List.replicate 512 0)) := .init rfl
  have traces := fresh.observe ran
  have traces' := fresh.observe ran'
  rw [List.nil_append, events] at traces
  rw [List.nil_append, events'] at traces'
  refine ⟨late.2, busy.2, traces, traces', ?_⟩
  exact (schedule_independent (by decide) (by decide) (by decide) traces traces'
    ⟨unaborted, succeeded⟩ ⟨unaborted', succeeded'⟩ rfl).2 exited exited'

end HandOff

end Ndmpd
