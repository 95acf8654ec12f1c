import Ndmpd.Foundation.Transition
import Ndmpd.Tlm.Buffers

/-!
# Handing blocks from the backup reader to the writer

Two threads share one pool and the command words of a job. The backup reader fills
blocks through `get_write_buffer` and closes with `write_tar_eof`; the writer,
`ndmp_tar_writer_v3`, passes full blocks to `MOD_WRITE`. Every test and every
assignment of a shared flag is one step, so all orders of the two threads' accesses
are runs of the system `HandOff.system`.

A timed wait is a step that is enabled whenever the pool's mutex is free: the wait
may have been signalled or may have expired. The reader's own critical sections are
single steps. The writer holds the mutex from before `MOD_WRITE` until it has
cleared the flags (`HandOff.mutexHeld`), and the steps of the reader that take the
mutex are disabled in between.

`filledBlocks` and `passedBlocks` record the history: a block is filled when the
reader first declares it full, and passed when `MOD_WRITE` is called on it.
-/

namespace Ndmpd

/-- The values of the command words: `TLM_BACKUP_RUN`, `TLM_STOP`, `TLM_ABORT`. -/
inductive Command where
  | backupRun
  | stop
  | abort
  deriving DecidableEq, Repr

/-- The arguments of one `get_write_buffer` call. -/
structure Request where
  want : Nat
  zero : Bool
  deriving DecidableEq, Repr

/-- Where the backup reader stands. The flag of a request in progress says whether
`tlm_get_write_buffer` has already returned without a record for it. -/
inductive ReaderPc where
  | outside
  | enter (request : Request)
  | testReader (request : Request) (again : Bool)
  | testRoom (request : Request) (again : Bool)
  | testFull (request : Request) (again : Bool)
  | setFull (request : Request) (again : Bool)
  | releaseIn (request : Request)
  | advanceIn (request : Request)
  | fetchIn (request : Request)
  | testBusy (request : Request)
  | timedWait (request : Request)
  | refetchIn (request : Request)
  | testStillBusy (request : Request)
  | resetSpot (request : Request)
  | grant (request : Request)
  | giveUp
  | eofFilled
  | eofFull
  | eofRelease
  | stopWriter
  | finished
  deriving DecidableEq, Repr

/-- Where the writer stands. -/
inductive WriterPc where
  | testWriters
  | testWriter
  | testFull
  | testFilled
  | lockPool
  | writing
  | clearFilled
  | clearFull
  | advanceOut
  | fetchOut
  | abortWriters
  | abortWriter
  | testRunning
  | timedWait
  | stopReader
  | exited
  deriving DecidableEq, Repr

/-- The shared pool and command words, both threads, and the history of blocks. -/
structure HandOff where
  bufs : TlmBuffers
  tcReader : Command
  tcWriter : Command
  tcsReader : Command
  tcsWriter : Command
  readerPc : ReaderPc
  readerBuffer : Fin tlmTapeBuffers
  held : Nat × Nat
  writerPc : WriterPc
  writerBuffer : Fin tlmTapeBuffers
  err : Int
  abortRequested : Bool
  filledBlocks : List (List UInt8)
  passedBlocks : List (List UInt8)

/-- The command words another thread may set to `TLM_ABORT`. -/
inductive AbortSignal where
  | tcReader
  | tcWriter
  | tcsReader
  | tcsWriter
  deriving DecidableEq, Repr

/-- One step of the system. Between two requests the reader's caller may store
bytes into the record it was given, mark the block filled, ask for a record, test
for an abort, or close the archive. -/
inductive HandOffAction where
  | store (offset : Nat) (byte : UInt8)
  | setWriteBufDone
  | getWriteBuffer (request : Request)
  | checkAbort
  | writeTarEof
  | abandonTraversal
  | reader
  | writer
  | modWriteReturns (succeeded : Bool)
  | requestAbort (signal : AbortSignal)
  deriving DecidableEq, Repr

namespace HandOff

/-- The writer holds `tbs_mtx` while it sends a block and clears its flags. -/
def mutexHeld (state : HandOff) : Bool :=
  state.writerPc = .writing ∨ state.writerPc = .clearFilled ∨ state.writerPc = .clearFull

/-- The block the reader declares full. -/
def fill (state : HandOff) : HandOff :=
  { state with
    bufs := state.bufs.modify state.readerBuffer fun buffer => { buffer with tbFull := true }
    filledBlocks := state.filledBlocks ++ [(state.bufs.tbsBuffer state.readerBuffer).tbBufferData] }

/-- The next step of the reader inside `get_write_buffer`, `write_tar_eof` and the
end of `backup_reader_v3`. -/
def readerStep (state : HandOff) : Option HandOff :=
  match state.readerPc with
  | .outside => none
  | .enter request =>
      if state.mutexHeld then none
      else some { state with
        bufs := state.bufs.setWriteBufDone, readerPc := .testReader request false }
  | .testReader request again =>
      if state.tcReader = .backupRun then
        some { state with
          readerBuffer := state.bufs.tbsBufferIn, readerPc := .testRoom request again }
      else some { state with readerPc := .giveUp }
  | .testRoom request again =>
      let buffer := state.bufs.tbsBuffer state.readerBuffer
      if buffer.tbBufferSize ≤ buffer.tbBufferSpot then
        some { state with readerPc := .testFull request again }
      else some { state with readerPc := .grant request }
  | .testFull request again =>
      -- do not send if we failed to get a buffer on the previous call
      if (state.bufs.tbsBuffer state.readerBuffer).tbFull then
        some { state with readerPc := .fetchIn request }
      else some { state with readerPc := .setFull request again }
  | .setFull request again =>
      -- a retry finds the block it has already declared full, so nothing new is filled
      let filled := state.fill
      some { filled with
        filledBlocks := if again then state.filledBlocks else filled.filledBlocks
        readerPc := .releaseIn request }
  | .releaseIn request =>
      if state.mutexHeld then none else some { state with readerPc := .advanceIn request }
  | .advanceIn request =>
      if state.mutexHeld then none
      else some { state with
        bufs := state.bufs.tlmBufferAdvanceInIdx, readerPc := .fetchIn request }
  | .fetchIn request =>
      if state.mutexHeld then none
      else some { state with
        readerBuffer := state.bufs.tbsBufferIn, readerPc := .testBusy request }
  | .testBusy request =>
      if (state.bufs.tbsBuffer state.readerBuffer).tbFull then
        some { state with readerPc := .timedWait request }
      else some { state with readerPc := .refetchIn request }
  | .timedWait request =>
      if state.mutexHeld then none else some { state with readerPc := .refetchIn request }
  | .refetchIn request =>
      if state.mutexHeld then none
      else some { state with
        readerBuffer := state.bufs.tbsBufferIn, readerPc := .testStillBusy request }
  | .testStillBusy request =>
      -- the library returns no record here and `get_write_buffer` calls it again
      if (state.bufs.tbsBuffer state.readerBuffer).tbFull then
        some { state with readerPc := .testReader request true }
      else some { state with readerPc := .resetSpot request }
  | .resetSpot request =>
      some { state with
        bufs := state.bufs.modify state.readerBuffer fun buffer => { buffer with tbBufferSpot := 0 }
        readerPc := .grant request }
  | .grant request =>
      let (bufs, record) := state.bufs.grantRecord state.readerBuffer request.want request.zero
      some { state with bufs := bufs, held := record, readerPc := .outside }
  | .giveUp =>
      if state.mutexHeld then none
      else some { state with
        bufs := state.bufs.setWriteBufDone, held := (0, 0), readerPc := .outside }
  | .eofFilled =>
      some { state with
        bufs := state.bufs.modify state.bufs.tbsBufferIn fun buffer =>
          { buffer with tbWriteBufFilled := true }
        readerBuffer := state.bufs.tbsBufferIn
        readerPc := .eofFull }
  | .eofFull => some { state.fill with readerPc := .eofRelease }
  | .eofRelease =>
      if state.mutexHeld then none else some { state with readerPc := .stopWriter }
  | .stopWriter => some { state with tcWriter := .stop, readerPc := .finished }
  | .finished => none

/-- The next step of `ndmp_tar_writer_v3`, other than the return of `MOD_WRITE`. -/
def writerStep (state : HandOff) : Option HandOff :=
  match state.writerPc with
  | .testWriters =>
      if state.tcsWriter = .abort then some { state with writerPc := .stopReader }
      else some { state with writerPc := .testWriter }
  | .testWriter =>
      if state.tcWriter = .abort then some { state with writerPc := .stopReader }
      else some { state with writerPc := .testFull }
  | .testFull =>
      if (state.bufs.tbsBuffer state.writerBuffer).tbFull then
        some { state with writerPc := .testFilled }
      else some { state with writerPc := .testRunning }
  | .testFilled =>
      -- only really write if the content of the buffer is filled
      if (state.bufs.tbsBuffer state.writerBuffer).tbWriteBufFilled then
        some { state with writerPc := .lockPool }
      else some { state with writerPc := .testWriters }
  | .lockPool =>
      some { state with
        passedBlocks :=
          state.passedBlocks ++ [(state.bufs.tbsBuffer state.writerBuffer).tbBufferData]
        writerPc := .writing }
  | .writing => none
  | .clearFilled =>
      some { state with
        bufs := state.bufs.modify state.writerBuffer fun buffer =>
          { buffer with tbWriteBufFilled := false }
        writerPc := .clearFull }
  | .clearFull =>
      some { state with
        bufs := state.bufs.modify state.writerBuffer fun buffer =>
          { buffer with tbFull := false, tbEof := false, tbEot := false, tbErrno := 0 }
        writerPc := .advanceOut }
  | .advanceOut =>
      some { state with
        bufs := state.bufs.tlmBufferAdvanceOutIdx, writerPc := .fetchOut }
  | .fetchOut =>
      some { state with writerBuffer := state.bufs.tbsBufferOut, writerPc := .testWriters }
  | .abortWriters => some { state with tcsWriter := .abort, writerPc := .abortWriter }
  | .abortWriter => some { state with tcWriter := .abort, writerPc := .testWriters }
  | .testRunning =>
      if state.tcWriter = .backupRun then some { state with writerPc := .timedWait }
      else some { state with writerPc := .stopReader }
  | .timedWait => some { state with writerPc := .testWriters }
  | .stopReader => some { state with tcReader := .stop, writerPc := .exited }
  | .exited => none

/-- Another thread sets one command word to `TLM_ABORT`. -/
def requestAbort (state : HandOff) : AbortSignal → HandOff
  | .tcReader => { state with tcReader := .abort, abortRequested := true }
  | .tcWriter => { state with tcWriter := .abort, abortRequested := true }
  | .tcsReader => { state with tcsReader := .abort, abortRequested := true }
  | .tcsWriter => { state with tcsWriter := .abort, abortRequested := true }

/-- The reader's caller acts between two requests. -/
def callerStep (state : HandOff) : HandOffAction → Option HandOff
  | .store offset byte =>
      if offset < state.held.2 then
        some { state with
          bufs := state.bufs.modify state.bufs.tbsBufferIn fun buffer =>
            buffer.overwrite (state.held.1 + offset) [byte] }
      else none
  | .setWriteBufDone =>
      if state.mutexHeld then none else some { state with bufs := state.bufs.setWriteBufDone }
  | .getWriteBuffer request => some { state with readerPc := .enter request }
  | .checkAbort =>
      if state.tcsReader = .backupRun then some state
      else some { state with tcWriter := .abort }
  | .writeTarEof => some { state with readerPc := .eofFilled }
  | .abandonTraversal => some { state with readerPc := .stopWriter }
  | _ => none

/-- One atomic step of the two threads and of a thread asking for an abort. -/
def step (state : HandOff) : HandOffAction → Option HandOff
  | .reader => state.readerStep
  | .writer => state.writerStep
  | .modWriteReturns succeeded =>
      match state.writerPc, succeeded with
      | .writing, true => some { state with writerPc := .clearFilled }
      | .writing, false => some { state with err := -1, writerPc := .abortWriters }
      | _, _ => none
  | .requestAbort signal => some (state.requestAbort signal)
  | action => if state.readerPc = .outside then state.callerStep action else none

/-- The state when both threads have been started on a fresh pool. -/
def started (memory : List UInt8) : HandOff where
  bufs :=
    { tbsBufferIn := 0, tbsBufferOut := 0, tbsOffset := 0,
      tbsBuffer := fun _ => TlmBuffer.allocated memory }
  tcReader := .backupRun
  tcWriter := .backupRun
  tcsReader := .backupRun
  tcsWriter := .backupRun
  readerPc := .outside
  readerBuffer := 0
  held := (0, 0)
  writerPc := .testWriters
  writerBuffer := 0
  err := 0
  abortRequested := false
  filledBlocks := []
  passedBlocks := []

/-- The hand-off as a transition system: any memory, any interleaving. -/
def system : Foundation.System HandOff HandOffAction where
  init state := ∃ memory, state = started memory
  step := step

end HandOff

end Ndmpd
