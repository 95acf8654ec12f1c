import Ndmpd.Foundation.Transition
import Ndmpd.Tlm.Buffers

/-!
# Handing blocks from the restore reader to the restore writer

A restore uses the pool the other way round: `ndmp_tar_reader_v3` fills the block with
`MOD_READ`, and the restore writer takes records from it through `get_read_buffer`, which
calls `tlm_get_read_buffer` until it returns one. Every access to a shared field is one
step. The reader holds the mutex of the pool from before `MOD_READ` until it has set
`tb_full` (`ReadHandOff.mutexHeld`); what the writer does under the mutex is disabled in
between, what it does without goes on.

The pool has one block, so advancing an index only takes the mutex.
-/

namespace Ndmpd

/-- The values of the command words: `TLM_RESTORE_RUN`, `TLM_STOP`, `TLM_ABORT`. -/
inductive RestoreCommand where
  | restoreRun
  | stop
  | abort
  deriving DecidableEq, Repr

/-- The block of a restore pool. -/
structure RestoreBlock where
  tbBufferData : List UInt8
  tbBufferSize : Nat
  tbBufferSpot : Nat
  tbFull : Bool
  tbReadBufRead : Bool
  deriving DecidableEq, Repr

/-- Where `ndmp_tar_reader_v3` stands. -/
inductive FillerPc where
  | testReaders
  | testReader
  | testFull
  | timedWait
  | fetchIn
  | testRead
  | lockPool
  | reading
  | clearRead
  | setSize
  | setSpot
  | setFull
  | advanceIn
  | refetchIn
  | releaseIn
  | stopReaders
  | stopReader
  | stopWriter
  | releaseLast
  | exited
  deriving DecidableEq, Repr

/-- Where the restore writer stands in `get_read_buffer`, asking for `want` bytes. What it
has read of the block so far is kept with the place. -/
inductive TakerPc where
  | outside
  | setReadBufDone (want : Nat)
  | testWriter (want : Nat)
  | readSize (want : Nat)
  | readSpot (want size : Nat)
  | testFull (want currentSize : Nat)
  | clearFull (want : Nat)
  | releaseOut (want : Nat)
  | advanceOut (want : Nat)
  | readSizeNext (want : Nat)
  | readSpotNext (want size : Nat)
  | testEmpty (want currentSize : Nat)
  | timedWait (want : Nat)
  | fetchOut (want : Nat)
  | testStillEmpty (want : Nat)
  | readSizeLast (want : Nat)
  | readSpotLast (want size : Nat)
  | testCurrent (want currentSize : Nat)
  | locate (actualSize : Nat)
  | loadSpot (actualSize record : Nat)
  | storeSpot (actualSize record spot : Nat)
  | giveUp
  deriving DecidableEq, Repr

/-- The shared block and command words, both threads, and the bytes that went in and out. -/
structure ReadHandOff where
  tbsDataTransferSize : Nat
  block : RestoreBlock
  tcReader : RestoreCommand
  tcsReader : RestoreCommand
  tcWriter : RestoreCommand
  fillerPc : FillerPc
  takerPc : TakerPc
  /-- What `MOD_READ` has delivered. -/
  delivered : List UInt8
  /-- The records that `get_read_buffer` has returned. -/
  returned : List UInt8
  deriving DecidableEq, Repr

/-- The command words. -/
inductive RestoreWord where
  | tcReader
  | tcsReader
  | tcWriter
  deriving DecidableEq, Repr

inductive ReadAction where
  | getReadBuffer (want : Nat)
  | taker
  | filler
  | modReadReturns (bytes : List UInt8)
  | modReadFails (memory : List UInt8)
  /-- Another thread, or the writer behind the archive, stops or aborts the job. -/
  | command (word : RestoreWord) (aborted : Bool)
  deriving DecidableEq, Repr

namespace ReadHandOff

/-- The reader holds `tbs_mtx` while it reads a block and declares it full. -/
def mutexHeld (state : ReadHandOff) : Bool :=
  match state.fillerPc with
  | .reading | .clearRead | .setSize | .setSpot | .setFull => true
  | _ => false

/-- The writer goes on, once it has the mutex where it needs it. -/
def locked (state : ReadHandOff) (pc : TakerPc) : Option ReadHandOff :=
  if state.mutexHeld then none else some { state with takerPc := pc }

/-- The next step of the restore writer inside `get_read_buffer`. A size that would be
negative is 0: it is only compared with 0. -/
def takerStep (state : ReadHandOff) : Option ReadHandOff :=
  let block := state.block
  match state.takerPc with
  | .outside => none
  | .setReadBufDone want =>
      if state.mutexHeld then none
      else some { state with
        block := { block with tbReadBufRead := true }, takerPc := .testWriter want }
  | .testWriter want =>
      if state.tcWriter = .restoreRun then some { state with takerPc := .readSize want }
      else some { state with takerPc := .giveUp }
  | .readSize want => some { state with takerPc := .readSpot want block.tbBufferSize }
  | .readSpot want size =>
      some { state with takerPc := .testFull want (size - block.tbBufferSpot) }
  | .testFull want currentSize =>
      -- no more data: release this block and get another
      if block.tbFull ∧ currentSize = 0 then some { state with takerPc := .clearFull want }
      else some { state with takerPc := .testEmpty want currentSize }
  | .clearFull want =>
      some { state with block := { block with tbFull := false }, takerPc := .releaseOut want }
  | .releaseOut want => state.locked (.advanceOut want)
  | .advanceOut want => state.locked (.readSizeNext want)
  | .readSizeNext want => some { state with takerPc := .readSpotNext want block.tbBufferSize }
  | .readSpotNext want size =>
      some { state with takerPc := .testEmpty want (size - block.tbBufferSpot) }
  | .testEmpty want currentSize =>
      if block.tbFull then some { state with takerPc := .testCurrent want currentSize }
      else some { state with takerPc := .timedWait want }
  | .timedWait want => state.locked (.fetchOut want)
  | .fetchOut want => state.locked (.testStillEmpty want)
  | .testStillEmpty want =>
      -- nothing came yet: `get_read_buffer` calls again
      if block.tbFull then some { state with takerPc := .readSizeLast want }
      else some { state with takerPc := .testWriter want }
  | .readSizeLast want => some { state with takerPc := .readSpotLast want block.tbBufferSize }
  | .readSpotLast want size =>
      some { state with takerPc := .testCurrent want (size - block.tbBufferSpot) }
  | .testCurrent want currentSize =>
      if currentSize = 0 then some { state with takerPc := .testWriter want }
      else some { state with
        takerPc := .locate (unsignedMin (roundToRecords want) currentSize) }
  | .locate actualSize =>
      some { state with takerPc := .loadSpot actualSize block.tbBufferSpot }
  | .loadSpot actualSize record =>
      some { state with takerPc := .storeSpot actualSize record block.tbBufferSpot }
  | .storeSpot actualSize record spot =>
      some { state with
        block := { block with tbBufferSpot := spot + actualSize }
        returned := state.returned ++ (block.tbBufferData.drop record).take actualSize
        takerPc := .outside }
  | .giveUp =>
      if state.mutexHeld then none
      else some { state with
        block := { block with tbReadBufRead := true }, takerPc := .outside }

/-- The next step of `ndmp_tar_reader_v3`, other than the return of `MOD_READ`. -/
def fillerStep (state : ReadHandOff) : Option ReadHandOff :=
  let block := state.block
  match state.fillerPc with
  | .testReaders =>
      if state.tcsReader = .restoreRun then some { state with fillerPc := .testReader }
      else some { state with fillerPc := .stopWriter }
  | .testReader =>
      if state.tcReader = .restoreRun then some { state with fillerPc := .testFull }
      else some { state with fillerPc := .stopWriter }
  | .testFull =>
      -- the block is still full: wait for the writer to use it
      if block.tbFull then some { state with fillerPc := .timedWait }
      else some { state with fillerPc := .testRead }
  | .timedWait => some { state with fillerPc := .fetchIn }
  | .fetchIn => some { state with fillerPc := .testReaders }
  | .testRead =>
      if block.tbReadBufRead then some { state with fillerPc := .lockPool }
      else some { state with fillerPc := .testReaders }
  | .lockPool => some { state with fillerPc := .reading }
  | .reading => none
  | .clearRead =>
      some { state with block := { block with tbReadBufRead := false }, fillerPc := .setSize }
  | .setSize =>
      some { state with
        block := { block with tbBufferSize := state.tbsDataTransferSize }, fillerPc := .setSpot }
  | .setSpot =>
      some { state with block := { block with tbBufferSpot := 0 }, fillerPc := .setFull }
  | .setFull =>
      some { state with block := { block with tbFull := true }, fillerPc := .advanceIn }
  | .advanceIn => some { state with fillerPc := .refetchIn }
  | .refetchIn => some { state with fillerPc := .releaseIn }
  | .releaseIn => some { state with fillerPc := .testReaders }
  | .stopReaders => some { state with tcsReader := .stop, fillerPc := .stopReader }
  | .stopReader => some { state with tcReader := .stop, fillerPc := .testReaders }
  | .stopWriter => some { state with tcWriter := .stop, fillerPc := .releaseLast }
  | .releaseLast => some { state with fillerPc := .exited }
  | .exited => none

/-- A command word is set to `TLM_STOP` or `TLM_ABORT`. -/
def commanded (state : ReadHandOff) (word : RestoreWord) (command : RestoreCommand) :
    ReadHandOff :=
  match word with
  | .tcReader => { state with tcReader := command }
  | .tcsReader => { state with tcsReader := command }
  | .tcWriter => { state with tcWriter := command }

/-- One atomic step. -/
def step (state : ReadHandOff) : ReadAction → Option ReadHandOff
  | .getReadBuffer want =>
      if state.takerPc = .outside then some { state with takerPc := .setReadBufDone want }
      else none
  | .taker => state.takerStep
  | .filler => state.fillerStep
  | .modReadReturns bytes =>
      if state.fillerPc = .reading ∧ bytes.length = state.tbsDataTransferSize then
        some { state with
          block := { state.block with tbBufferData := bytes }
          delivered := state.delivered ++ bytes
          fillerPc := .clearRead }
      else none
  | .modReadFails memory =>
      if state.fillerPc = .reading then
        some { state with
          block := { state.block with tbBufferData := memory }, fillerPc := .stopReaders }
      else none
  | .command word aborted => some (state.commanded word (if aborted then .abort else .stop))

/-- Both threads have been started on a pool allocated for reading. -/
def started (transferSize : Nat) (memory : List UInt8) : ReadHandOff where
  tbsDataTransferSize := transferSize
  block :=
    { tbBufferData := memory, tbBufferSize := 0, tbBufferSpot := 0, tbFull := false,
      tbReadBufRead := true }
  tcReader := .restoreRun
  tcsReader := .restoreRun
  tcWriter := .restoreRun
  fillerPc := .testReaders
  takerPc := .outside
  delivered := []
  returned := []

/-- The hand-off for any transfer size, any memory and any interleaving. -/
def system : Foundation.System ReadHandOff ReadAction where
  init state := ∃ transferSize memory, 0 < transferSize ∧ state = started transferSize memory
  step := step

end ReadHandOff

end Ndmpd
