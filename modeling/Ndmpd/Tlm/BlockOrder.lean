import Ndmpd.Tlm.BlockHandOff

/-!
# Blocks are passed on once and in order

While the writer works, the block in the pool belongs to the reader when `tbFull`
is clear and to the writer when it is set; `tbWriteBufFilled` tells a block still
to be sent from one that was sent while the reader's wait had expired. The reader
declares such a block full again, but the writer finds it unfilled and does not
send it a second time. `HandOff.Live` states this for every pair of program
counters. Once the writer is leaving its loop (`HandOff.Leaving`), nothing is
passed on any more.
-/

namespace Ndmpd

namespace ReaderPc

/-- What the reader knows about the pool's block where it stands, while the writer
works. -/
def Expects (block : TlmBuffer) : ReaderPc → Prop
  | .outside | .enter _ | .resetSpot _ | .grant _ | .eofFilled => block.tbFull = false
  | .testReader _ false | .testRoom _ false | .eofFull =>
      block.tbFull = false ∧ block.tbWriteBufFilled = true
  | .testFull _ false | .setFull _ false =>
      block.tbFull = false ∧ block.tbWriteBufFilled = true ∧
        block.tbBufferSize ≤ block.tbBufferSpot
  | .setFull _ true =>
      block.tbFull = false ∧ block.tbWriteBufFilled = false ∧
        block.tbBufferSize ≤ block.tbBufferSpot
  | .giveUp => False
  | .eofRelease | .stopWriter | .finished => True
  | _ =>
      (block.tbWriteBufFilled = true → block.tbFull = true) ∧
        block.tbBufferSize ≤ block.tbBufferSpot

/-- The reader is about to test `tc_reader` in its retry loop. -/
def testsReader : ReaderPc → Bool
  | .testReader _ _ => true
  | _ => false

/-- What the reader knows about a full block survives when the block is sent and its
flags are cleared. -/
theorem Expects.of_unfilled {pc : ReaderPc} {block other : TlmBuffer} (expects : pc.Expects block)
    (full : block.tbFull = true) (unfilled : other.tbWriteBufFilled = false)
    (size : other.tbBufferSize = block.tbBufferSize)
    (spot : other.tbBufferSpot = block.tbBufferSpot) : pc.Expects other := by
  cases pc with
  | testReader request again | testRoom request again | testFull request again
  | setFull request again => cases again <;> simp_all [Expects]
  | _ => simp_all [Expects]

end ReaderPc

namespace WriterPc

/-- What the writer knows about the pool's block where it stands. -/
def Expects (block : TlmBuffer) : WriterPc → Prop
  | .testFilled => block.tbFull = true
  | .lockPool | .writing | .clearFilled => block.tbFull = true ∧ block.tbWriteBufFilled = true
  | .clearFull => block.tbFull = true ∧ block.tbWriteBufFilled = false
  | .abortWriters | .abortWriter | .stopReader | .exited => False
  | _ => True

/-- The block in the pool has been passed to `MOD_WRITE`, but is still marked filled. -/
def sending : WriterPc → Bool
  | .writing | .clearFilled => true
  | _ => false

end WriterPc

namespace WriterPc.Expects

variable {pc : WriterPc} {block : TlmBuffer}

/-- A writer that stands where an empty block is possible does not depend on the block. -/
theorem of_empty (expects : pc.Expects block) (empty : block.tbFull = false)
    {other : TlmBuffer} : pc.Expects other := by
  cases pc <;> simp_all [WriterPc.Expects]

theorem not_sending (expects : pc.Expects block) (empty : block.tbFull = false) :
    pc.sending = false := by
  cases pc <;> simp_all [WriterPc.Expects, WriterPc.sending]

end WriterPc.Expects

namespace HandOff

/-- The block that has been filled and not yet passed on. -/
def pending (state : HandOff) : List (List UInt8) :=
  if state.bufs.block.tbFull ∧ state.bufs.block.tbWriteBufFilled ∧ ¬ state.writerPc.sending then
    [state.bufs.block.tbBufferData]
  else []

/-- The writer is in its loop and every filled block is passed on or pending. -/
structure Live (state : HandOff) : Prop where
  reader : state.readerPc.Expects state.bufs.block
  writer : state.writerPc.Expects state.bufs.block
  history : state.filledBlocks = state.passedBlocks ++ state.pending
  sent : state.writerPc = .writing →
    state.passedBlocks.getLast? = some state.bufs.block.tbBufferData

/-- The writer is on its way out of its loop. -/
structure Leaving (state : HandOff) : Prop where
  leaving : state.writerPc = .abortWriters ∨
    state.writerPc = .abortWriter ∧ state.tcsWriter = .abort ∨
    state.writerPc = .testWriters ∧ state.tcsWriter = .abort ∨
    state.writerPc = .stopReader ∨ state.writerPc = .exited
  history : state.passedBlocks <+: state.filledBlocks

theorem Live.passed_prefix {state : HandOff} (live : state.Live) :
    state.passedBlocks <+: state.filledBlocks := by
  rw [live.history]
  exact List.prefix_append ..

/-- A block that is not full is not pending. -/
theorem pending_of_not_full {state : HandOff} (empty : state.bufs.block.tbFull = false) :
    state.pending = [] := by
  simp [pending, empty]

/-- A request is repeated until it returns a record, unless the writer is gone: the
retry loop of `get_write_buffer` does not find `tc_reader` changed by anyone else. -/
def retriesUntilRecord (state : HandOff) (action : HandOffAction) : Prop :=
  action = .reader → state.readerPc.testsReader = true →
    state.tcReader = .backupRun ∨ state.writerPc = .exited

instance (state : HandOff) (action : HandOffAction) :
    Decidable (state.retriesUntilRecord action) :=
  inferInstanceAs (Decidable (_ → _ → _))

theorem Live.reader_runs {state : HandOff} (live : state.Live)
    (retries : state.tcReader = .backupRun ∨ state.writerPc = .exited) :
    state.tcReader = .backupRun := by
  rcases retries with running | exited
  · exact running
  · have writer := live.writer
    rw [exited] at writer
    exact writer.elim

theorem Live.started (memory : List UInt8) : (HandOff.started memory).Live := by
  constructor <;>
    simp [HandOff.started, ReaderPc.Expects, WriterPc.Expects, pending, TlmBuffers.block,
      TlmBuffer.allocated]

/-- The reader moves on without changing the block. -/
theorem Live.reader_moves {state : HandOff} (live : state.Live) (pc : ReaderPc)
    (expects : pc.Expects state.bufs.block) {bufs : TlmBuffers}
    (same : bufs.block = state.bufs.block) {buffer : Fin tlmTapeBuffers} :
    Live { state with bufs := bufs, readerPc := pc, readerBuffer := buffer } where
  reader := by
    simpa only [same] using expects
  writer := by
    simpa only [same] using live.writer
  history := by
    simpa only [pending, same] using live.history
  sent := by
    simpa only [same] using live.sent

/-- The reader changes the block while it is not full. -/
theorem Live.reader_works {state : HandOff} (live : state.Live)
    (empty : state.bufs.block.tbFull = false) {bufs : TlmBuffers}
    (kept : bufs.block.tbFull = false) {pc : ReaderPc} (expects : pc.Expects bufs.block)
    {buffer : Fin tlmTapeBuffers} {held : Nat × Nat} :
    Live { state with bufs := bufs, readerPc := pc, readerBuffer := buffer, held := held } where
  reader := expects
  writer := live.writer.of_empty empty
  history := by
    have nothing := live.history
    rw [pending_of_not_full empty] at nothing
    rw [pending_of_not_full kept]
    exact nothing
  sent := fun writing => absurd (writing ▸ live.writer) (by simp [WriterPc.Expects, empty])

/-- The reader declares a block full that has not been sent yet. -/
theorem Live.reader_fills {state : HandOff} (live : state.Live)
    (empty : state.bufs.block.tbFull = false)
    (unsent : state.bufs.block.tbWriteBufFilled = true) {pc : ReaderPc}
    (expects : pc.Expects { state.bufs.block with tbFull := true }) :
    Live { state.fill with readerPc := pc } where
  reader := by
    simpa [fill] using expects
  writer := live.writer.of_empty empty
  history := by
    have nothing := live.history
    rw [pending_of_not_full empty, List.append_nil] at nothing
    simp [fill, pending, unsent, nothing, live.writer.not_sending empty]
  sent := fun writing => absurd (writing ▸ live.writer) (by simp [WriterPc.Expects, empty])

/-- The reader declares a block full that was sent after its wait had expired. -/
theorem Live.reader_refills {state : HandOff} (live : state.Live)
    (empty : state.bufs.block.tbFull = false)
    (alreadySent : state.bufs.block.tbWriteBufFilled = false) {pc : ReaderPc}
    (expects : pc.Expects { state.bufs.block with tbFull := true }) :
    Live { state.fill with filledBlocks := state.filledBlocks, readerPc := pc } where
  reader := by
    simpa [fill] using expects
  writer := live.writer.of_empty empty
  history := by
    have nothing := live.history
    rw [pending_of_not_full empty, List.append_nil] at nothing
    simp [fill, pending, alreadySent, nothing]
  sent := fun writing => absurd (writing ▸ live.writer) (by simp [WriterPc.Expects, empty])

theorem Live.readerStep {state next : HandOff} (live : state.Live)
    (retries : state.retriesUntilRecord .reader) (taken : state.readerStep = some next) :
    next.Live := by
  have reader := live.reader
  cases pc : state.readerPc <;>
    simp only [HandOff.readerStep, pc, TlmBuffers.tbsBuffer_eq_block, reduceCtorEq,
      Option.ite_none_left_eq_some, Option.some.injEq] at taken <;>
    rw [pc] at reader
  case enter request =>
      obtain ⟨-, rfl⟩ := taken
      have empty : state.bufs.block.tbFull = false := reader
      refine live.reader_works empty ?_ ?_ <;> simp [ReaderPc.Expects, empty]
  case testReader request again =>
      rw [if_pos (live.reader_runs (retries rfl (by rw [pc]; rfl)))] at taken
      cases taken
      refine live.reader_moves (.testRoom request again) ?_ rfl
      cases again <;> exact reader
  case testRoom request again =>
      split at taken <;> cases taken
      case isTrue noRoom =>
          refine live.reader_moves (.testFull request again) ?_ rfl
          cases again
          · exact ⟨reader.1, reader.2, noRoom⟩
          · exact reader
      case isFalse room =>
          refine live.reader_moves (.grant request) ?_ rfl
          cases again
          · exact reader.1
          · exact absurd reader.2 room
  case testFull request again =>
      split at taken <;> cases taken
      case isTrue full =>
          refine live.reader_moves (.fetchIn request) ?_ rfl
          cases again
          · exact absurd full (by simp [reader.1])
          · exact reader
      case isFalse empty =>
          refine live.reader_moves (.setFull request again) ?_ rfl
          cases again
          · exact reader
          · exact ⟨Bool.eq_false_of_not_eq_true empty,
              Bool.eq_false_of_not_eq_true fun filled => empty (reader.1 filled), reader.2⟩
  case setFull request again =>
      subst taken
      cases again
      · exact live.reader_fills reader.1 reader.2.1 ⟨fun _ => rfl, reader.2.2⟩
      · exact live.reader_refills reader.1 reader.2.1 ⟨fun _ => rfl, reader.2.2⟩
  case releaseIn request =>
      obtain ⟨-, rfl⟩ := taken
      exact live.reader_moves (.advanceIn request) reader rfl
  case advanceIn request =>
      obtain ⟨-, rfl⟩ := taken
      exact live.reader_moves (.fetchIn request) reader (TlmBuffers.tlmBufferAdvanceInIdx_block _)
  case fetchIn request =>
      obtain ⟨-, rfl⟩ := taken
      exact live.reader_moves (.testBusy request) reader rfl
  case testBusy request =>
      split at taken <;> cases taken
      · exact live.reader_moves (.timedWait request) reader rfl
      · exact live.reader_moves (.refetchIn request) reader rfl
  case timedWait request =>
      obtain ⟨-, rfl⟩ := taken
      exact live.reader_moves (.refetchIn request) reader rfl
  case refetchIn request =>
      obtain ⟨-, rfl⟩ := taken
      exact live.reader_moves (.testStillBusy request) reader rfl
  case testStillBusy request =>
      split at taken <;> cases taken
      case isTrue full => exact live.reader_moves (.testReader request true) reader rfl
      case isFalse empty =>
          exact live.reader_moves (.resetSpot request) (Bool.eq_false_of_not_eq_true empty) rfl
  case resetSpot request | grant request =>
      subst taken
      have empty : state.bufs.block.tbFull = false := reader
      refine live.reader_works empty ?_ ?_ <;> simp [ReaderPc.Expects, empty]
  case giveUp => exact reader.elim
  case eofFilled =>
      subst taken
      have empty : state.bufs.block.tbFull = false := reader
      refine live.reader_works empty ?_ ?_ <;> simp [ReaderPc.Expects, empty]
  case eofFull =>
      subst taken
      exact live.reader_fills reader.1 reader.2 trivial
  case eofRelease =>
      obtain ⟨-, rfl⟩ := taken
      exact live.reader_moves .stopWriter trivial rfl
  case stopWriter =>
      subst taken
      exact ⟨trivial, live.writer, live.history, live.sent⟩

theorem Live.callerStep {state next : HandOff} {action : HandOffAction} (live : state.Live)
    (outside : state.readerPc = .outside) (taken : state.callerStep action = some next) :
    next.Live := by
  have reader := live.reader
  rw [outside] at reader
  have empty : state.bufs.block.tbFull = false := reader
  cases action <;>
    simp only [HandOff.callerStep, reduceCtorEq, Option.ite_none_right_eq_some,
      Option.ite_none_left_eq_some, Option.some.injEq] at taken
  case store offset byte =>
      obtain ⟨-, rfl⟩ := taken
      refine live.reader_works empty ?_ ?_ <;>
        simp [outside, ReaderPc.Expects, TlmBuffer.overwrite, empty]
  case setWriteBufDone =>
      obtain ⟨-, rfl⟩ := taken
      refine live.reader_works empty ?_ ?_ <;> simp [outside, ReaderPc.Expects, empty]
  case getWriteBuffer request =>
      subst taken
      exact live.reader_moves (.enter request) empty rfl
  case checkAbort =>
      split at taken <;> cases taken
      · exact live
      · exact ⟨live.reader, live.writer, live.history, live.sent⟩
  case writeTarEof =>
      subst taken
      exact live.reader_moves .eofFilled empty rfl
  case abandonTraversal =>
      subst taken
      exact live.reader_moves .stopWriter trivial rfl

/-- The writer moves on without changing the block or what is pending. -/
theorem Live.writer_moves {state : HandOff} (live : state.Live) (pc : WriterPc)
    (expects : pc.Expects state.bufs.block) (before : state.writerPc.sending = false)
    (after : pc.sending = false) {bufs : TlmBuffers} (same : bufs.block = state.bufs.block)
    {buffer : Fin tlmTapeBuffers} :
    Live { state with bufs := bufs, writerPc := pc, writerBuffer := buffer } where
  reader := by
    simpa only [same] using live.reader
  writer := by
    simpa only [same] using expects
  history := by
    simpa only [pending, same, before, after] using live.history
  sent := fun writing => by
    have sending : pc = .writing := writing
    rw [sending] at after
    cases after

/-- The writer clears a flag of the block it has sent. -/
theorem Live.writer_clears {state : HandOff} (live : state.Live)
    (full : state.bufs.block.tbFull = true) (nothing : state.pending = []) {bufs : TlmBuffers}
    (unfilled : bufs.block.tbWriteBufFilled = false)
    (size : bufs.block.tbBufferSize = state.bufs.block.tbBufferSize)
    (spot : bufs.block.tbBufferSpot = state.bufs.block.tbBufferSpot) {pc : WriterPc}
    (expects : pc.Expects bufs.block) (notWriting : pc ≠ .writing) :
    Live { state with bufs := bufs, writerPc := pc } where
  reader := live.reader.of_unfilled full unfilled size spot
  writer := expects
  history := by
    have sent := live.history
    rw [nothing] at sent
    simpa [pending, unfilled] using sent
  sent := fun writing => absurd writing notWriting

/-- The writer passes the pending block on. -/
theorem Live.writer_passes {state : HandOff} (live : state.Live)
    (locked : state.writerPc = .lockPool) :
    Live { state with
      passedBlocks := state.passedBlocks ++ [state.bufs.block.tbBufferData]
      writerPc := .writing } where
  reader := live.reader
  writer := by
    have writer := live.writer
    rw [locked] at writer
    exact writer
  history := by
    have writer := live.writer
    rw [locked] at writer
    have filled := live.history
    simpa [pending, locked, writer.1, writer.2, WriterPc.sending] using filled
  sent := fun _ => by simp

theorem Live.writerStep {state next : HandOff} (live : state.Live)
    (taken : state.writerStep = some next) : next.Live ∨ next.Leaving := by
  have writer := live.writer
  cases pc : state.writerPc <;>
    simp only [HandOff.writerStep, pc, TlmBuffers.tbsBuffer_eq_block, reduceCtorEq,
      Option.some.injEq] at taken <;>
    rw [pc] at writer
  case testWriters =>
      split at taken <;> cases taken
      case isTrue aborted => exact .inr ⟨by simp, live.passed_prefix⟩
      case isFalse running =>
          exact .inl (live.writer_moves .testWriter trivial (by rw [pc]; rfl) rfl rfl)
  case testWriter =>
      split at taken <;> cases taken
      case isTrue aborted => exact .inr ⟨by simp, live.passed_prefix⟩
      case isFalse running =>
          exact .inl (live.writer_moves .testFull trivial (by rw [pc]; rfl) rfl rfl)
  case testFull =>
      split at taken <;> cases taken
      case isTrue full =>
          exact .inl (live.writer_moves .testFilled full (by rw [pc]; rfl) rfl rfl)
      case isFalse empty =>
          exact .inl (live.writer_moves .testRunning trivial (by rw [pc]; rfl) rfl rfl)
  case testFilled =>
      split at taken <;> cases taken
      case isTrue filled =>
          exact .inl (live.writer_moves .lockPool ⟨writer, filled⟩ (by rw [pc]; rfl) rfl rfl)
      case isFalse unfilled =>
          exact .inl (live.writer_moves .testWriters trivial (by rw [pc]; rfl) rfl rfl)
  case lockPool =>
      subst taken
      exact .inl (live.writer_passes pc)
  case clearFilled =>
      subst taken
      have nothing : state.pending = [] := by
        simp [pending, pc, WriterPc.sending]
      refine .inl (live.writer_clears writer.1 nothing ?_ ?_ ?_ ?_ (by simp)) <;>
        simp [TlmBuffer.tbBufferSize, WriterPc.Expects, writer.1]
  case clearFull =>
      subst taken
      have nothing : state.pending = [] := by
        simp [pending, writer.2]
      refine .inl (live.writer_clears writer.1 nothing ?_ ?_ ?_ ?_ (by simp)) <;>
        simp [TlmBuffer.tbBufferSize, WriterPc.Expects, writer.2]
  case advanceOut =>
      subst taken
      exact .inl (live.writer_moves .fetchOut trivial (by rw [pc]; rfl) rfl
        (TlmBuffers.tlmBufferAdvanceOutIdx_block _))
  case fetchOut | timedWait =>
      subst taken
      exact .inl (live.writer_moves .testWriters trivial (by rw [pc]; rfl) rfl rfl)
  case testRunning =>
      split at taken <;> cases taken
      case isTrue running =>
          exact .inl (live.writer_moves .timedWait trivial (by rw [pc]; rfl) rfl rfl)
      case isFalse stopped => exact .inr ⟨by simp, live.passed_prefix⟩
  case abortWriters | abortWriter | stopReader => exact writer.elim

/-- The reader's steps leave the writer and what it has passed on alone. -/
theorem readerStep_frame {state next : HandOff} (taken : state.readerStep = some next) :
    next.writerPc = state.writerPc ∧ next.tcsWriter = state.tcsWriter ∧
      next.passedBlocks = state.passedBlocks ∧ state.filledBlocks <+: next.filledBlocks := by
  cases pc : state.readerPc <;>
    simp only [HandOff.readerStep, pc, reduceCtorEq, Option.ite_none_left_eq_some,
      Option.some.injEq] at taken
  case setFull request again =>
      subst taken
      cases again <;> simp [fill]
  case eofFull =>
      subst taken
      simp [fill]
  all_goals grind

theorem callerStep_frame {state next : HandOff} {action : HandOffAction}
    (taken : state.callerStep action = some next) :
    next.writerPc = state.writerPc ∧ next.tcsWriter = state.tcsWriter ∧
      next.passedBlocks = state.passedBlocks ∧ state.filledBlocks <+: next.filledBlocks := by
  cases action <;> simp only [HandOff.callerStep] at taken <;> grind

theorem Leaving.of_frame {state next : HandOff} (leaving : state.Leaving)
    (frame : next.writerPc = state.writerPc ∧ next.tcsWriter = state.tcsWriter ∧
      next.passedBlocks = state.passedBlocks ∧ state.filledBlocks <+: next.filledBlocks) :
    next.Leaving := by
  obtain ⟨samePc, sameCommand, samePassed, grown⟩ := frame
  refine ⟨?_, ?_⟩
  · rw [samePc, sameCommand]
    exact leaving.leaving
  · rw [samePassed]
    exact leaving.history.trans grown

theorem Leaving.writerStep {state next : HandOff} (leaving : state.Leaving)
    (taken : state.writerStep = some next) : next.Leaving := by
  rcases leaving.leaving with pc | ⟨pc, aborted⟩ | ⟨pc, aborted⟩ | pc | pc <;>
    simp only [HandOff.writerStep, pc, reduceCtorEq, Option.some.injEq] at taken
  · subst taken
    exact ⟨by simp, leaving.history⟩
  · subst taken
    exact ⟨by simp [aborted], leaving.history⟩
  · rw [if_pos aborted] at taken
    cases taken
    exact ⟨by simp, leaving.history⟩
  · subst taken
    exact ⟨by simp, leaving.history⟩

theorem Live.modWriteReturns {state next : HandOff} {succeeded : Bool} (live : state.Live)
    (taken : state.step (.modWriteReturns succeeded) = some next) : next.Live ∨ next.Leaving := by
  simp only [step] at taken
  split at taken
  case h_1 writing =>
      cases taken
      have writer := live.writer
      have history := live.history
      rw [writing] at writer
      refine .inl ⟨live.reader, writer, ?_, by simp⟩
      simpa [pending, writing, WriterPc.sending] using history
  case h_2 writing =>
      cases taken
      exact .inr ⟨.inl rfl, live.passed_prefix⟩
  case h_3 => cases taken

theorem Leaving.modWriteReturns {state next : HandOff} {succeeded : Bool}
    (leaving : state.Leaving) (taken : state.step (.modWriteReturns succeeded) = some next) :
    next.Leaving := by
  simp only [step] at taken
  split at taken
  case h_1 writing | h_2 writing =>
      exact absurd leaving.leaving (by simp [writing])
  case h_3 => cases taken

theorem Live.requestAbort {state : HandOff} (live : state.Live) (signal : AbortSignal) :
    (state.requestAbort signal).Live := by
  cases signal <;> exact ⟨live.reader, live.writer, live.history, live.sent⟩

theorem Leaving.requestAbort {state : HandOff} (leaving : state.Leaving) (signal : AbortSignal) :
    (state.requestAbort signal).Leaving := by
  refine ⟨?_, ?_⟩
  · cases signal <;> simpa [HandOff.requestAbort] using leaving.leaving.imp_right (by grind)
  · cases signal <;> exact leaving.history

/-- One step keeps the filled blocks in step with the passed ones. -/
theorem live_or_leaving_step {state next : HandOff} {action : HandOffAction}
    (ordered : state.Live ∨ state.Leaving) (retries : state.retriesUntilRecord action)
    (taken : state.step action = some next) : next.Live ∨ next.Leaving := by
  rcases ordered with live | leaving
  · cases action with
    | reader => exact .inl (live.readerStep retries taken)
    | writer => exact live.writerStep taken
    | modWriteReturns succeeded => exact live.modWriteReturns taken
    | requestAbort signal =>
        cases taken
        exact .inl (live.requestAbort signal)
    | _ =>
        simp only [step, Option.ite_none_right_eq_some] at taken
        exact .inl (live.callerStep taken.1 taken.2)
  · cases action with
    | reader => exact .inr (leaving.of_frame (readerStep_frame taken))
    | writer => exact .inr (leaving.writerStep taken)
    | modWriteReturns succeeded => exact .inr (leaving.modWriteReturns taken)
    | requestAbort signal =>
        cases taken
        exact .inr (leaving.requestAbort signal)
    | _ =>
        simp only [step, Option.ite_none_right_eq_some] at taken
        exact .inr (leaving.of_frame (callerStep_frame taken.2))

theorem live_or_leaving {state : HandOff} (reached : system.ReachableBy retriesUntilRecord state) :
    state.Live ∨ state.Leaving := by
  refine reached.invariant (fun state => state.Live ∨ state.Leaving) ?_ ?_
  · rintro _ ⟨memory, rfl⟩
    exact .inl (Live.started memory)
  · intro state action next ordered retries taken
    exact live_or_leaving_step ordered retries taken

/-- **Blocks are handed over once, in order and unchanged.** Whatever the order of
the two threads' steps and whenever a timed wait expires, the blocks passed to
`MOD_WRITE` are the first of the filled blocks, and while `MOD_WRITE` runs the
block's memory still holds what was passed. -/
theorem passedBlocks_prefix_filledBlocks {state : HandOff}
    (reached : system.ReachableBy retriesUntilRecord state) :
    state.passedBlocks <+: state.filledBlocks ∧
      (state.writerPc = .writing →
        state.passedBlocks.getLast? = some state.bufs.block.tbBufferData) := by
  rcases live_or_leaving reached with live | leaving
  · exact ⟨live.passed_prefix, live.sent⟩
  · refine ⟨leaving.history, fun writing => ?_⟩
    exact absurd leaving.leaving (by simp [writing])

/-- One block: the reader fills it and its wait expires before the writer sends it. -/
def oneBlockRun : List HandOffAction :=
  .getWriteBuffer ⟨512, false⟩ :: List.replicate 4 .reader ++
    .getWriteBuffer ⟨512, false⟩ :: List.replicate 12 .reader ++
      List.replicate 5 .writer ++ .modWriteReturns true :: List.replicate 4 .writer

theorem passedBlocks_prefix_filledBlocks_oneBlock :
    ∃ state, system.run retriesUntilRecord (started [1, 2, 3]) oneBlockRun =
        some state ∧
      state.passedBlocks = [[1, 2, 3]] ∧
        state.passedBlocks <+: state.filledBlocks := by
  have sent : (system.run retriesUntilRecord (started [1, 2, 3]) oneBlockRun).map passedBlocks =
      some [[1, 2, 3]] := by decide
  obtain ⟨state, ran, passed⟩ := Option.map_eq_some_iff.mp sent
  have fresh : system.ReachableBy retriesUntilRecord (started [1, 2, 3]) := .init ⟨_, rfl⟩
  exact ⟨state, ran, passed, (passedBlocks_prefix_filledBlocks (fresh.run ran)).1⟩

end HandOff

end Ndmpd
