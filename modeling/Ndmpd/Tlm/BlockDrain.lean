import Ndmpd.Tlm.BlockHandOff

/-!
# Draining the pool at the end of a backup

The writer leaves its loop after two separate tests: it finds `tbFull` clear, and
then finds `tc_writer` changed. The reader sets `tbFull` for the last block and then
sets `tc_writer`. When both of the reader's assignments fall between the writer's
two tests, the last block stays in the pool and the writer reports success
(`lastBlock_lost`). Apart from that order, a writer that ends without an error
leaves no full block behind.
-/

namespace Ndmpd

/-- The writer has not decided to leave its loop and has met no error. -/
def WriterPc.inLoop : WriterPc → Bool
  | .abortWriters | .abortWriter | .stopReader | .exited => false
  | _ => true

/-- The writer has found the block empty and acts on that. -/
def WriterPc.pastFullTest : WriterPc → Bool
  | .testRunning | .stopReader | .exited => true
  | _ => false

namespace HandOff

open Foundation

/-- A job without abort and error: either the reader is at work, or it has set
`tc_writer` to `TLM_STOP` as its last step and a writer that found the block empty
found it empty for good. -/
structure Draining (state : HandOff) : Prop where
  tcsReader : state.tcsReader = .backupRun
  tcsWriter : state.tcsWriter = .backupRun
  phase : state.tcWriter = .backupRun ∧ state.writerPc.inLoop = true ∨
    state.tcWriter = .stop ∧ state.readerPc = .finished ∧
      state.writerPc ≠ .abortWriters ∧ state.writerPc ≠ .abortWriter ∧
      (state.writerPc.pastFullTest = true → state.bufs.block.tbFull = false)

/-- The reader sets `tc_writer` while the writer stands between its two tests
with a full block in the pool. -/
def stopsBetweenTests (state : HandOff) (action : HandOffAction) : Prop :=
  action = .reader ∧ state.readerPc = .stopWriter ∧ state.writerPc = .testRunning ∧
    state.bufs.block.tbFull = true

instance (state : HandOff) (action : HandOffAction) : Decidable (state.stopsBetweenTests action) :=
  inferInstanceAs (Decidable (_ ∧ _ ∧ _ ∧ _))

/-- The reader's steps leave the writer and all command words but `tc_writer` alone. -/
theorem readerStep_commands {state next : HandOff} (taken : state.readerStep = some next) :
    next.tcsReader = state.tcsReader ∧ next.tcsWriter = state.tcsWriter ∧
      next.writerPc = state.writerPc ∧ next.err = state.err ∧
      next.abortRequested = state.abortRequested := by
  cases pc : state.readerPc <;>
    simp only [HandOff.readerStep, pc, fill, reduceCtorEq, Option.ite_none_left_eq_some,
      Option.some.injEq] at taken
  all_goals grind

theorem readerStep_tcWriter {state next : HandOff} (taken : state.readerStep = some next)
    (running : state.readerPc ≠ .stopWriter) : next.tcWriter = state.tcWriter := by
  cases pc : state.readerPc <;>
    simp only [HandOff.readerStep, pc, fill, reduceCtorEq, Option.ite_none_left_eq_some,
      Option.some.injEq] at taken
  all_goals grind

theorem Draining.readerStep {state next : HandOff} (draining : state.Draining)
    (ordered : ¬ state.stopsBetweenTests .reader) (taken : state.readerStep = some next) :
    next.Draining := by
  obtain ⟨tcsReader, tcsWriter, writerPc, -, -⟩ := readerStep_commands taken
  refine ⟨tcsReader.trans draining.tcsReader, tcsWriter.trans draining.tcsWriter, ?_⟩
  rcases draining.phase with ⟨running, inLoop⟩ | ⟨-, finished, -⟩
  · by_cases stopping : state.readerPc = .stopWriter
    · rw [HandOff.readerStep, stopping] at taken
      cases taken
      refine .inr ⟨rfl, rfl, ?_, ?_, ?_⟩
      · intro aborting
        simp_all [WriterPc.inLoop]
      · intro aborting
        simp_all [WriterPc.inLoop]
      · intro tested
        cases pc : state.writerPc <;> simp_all [WriterPc.pastFullTest, WriterPc.inLoop,
          stopsBetweenTests]
    · rw [writerPc, readerStep_tcWriter taken stopping]
      exact .inl ⟨running, inLoop⟩
  · simp [HandOff.readerStep, finished] at taken

theorem callerStep_commands {state next : HandOff} {action : HandOffAction}
    (tcsReader : state.tcsReader = .backupRun) (taken : state.callerStep action = some next) :
    next.tcsReader = state.tcsReader ∧ next.tcsWriter = state.tcsWriter ∧
      next.tcWriter = state.tcWriter ∧ next.writerPc = state.writerPc := by
  cases action <;> simp only [HandOff.callerStep] at taken <;> grind

theorem Draining.callerStep {state next : HandOff} {action : HandOffAction}
    (draining : state.Draining) (outside : state.readerPc = .outside)
    (taken : state.callerStep action = some next) : next.Draining := by
  obtain ⟨tcsReader, tcsWriter, tcWriter, writerPc⟩ :=
    callerStep_commands draining.tcsReader taken
  refine ⟨tcsReader.trans draining.tcsReader, tcsWriter.trans draining.tcsWriter, ?_⟩
  rcases draining.phase with running | ⟨-, finished, -⟩
  · rw [tcWriter, writerPc]
    exact .inl running
  · rw [outside] at finished
    cases finished

/-- The writer's steps inside its loop, on a job without abort and error. -/
theorem Draining.writerStep {state next : HandOff} (draining : state.Draining)
    (taken : state.writerStep = some next) : next.Draining := by
  obtain ⟨tcsReader, tcsWriter, phase⟩ := draining
  cases pc : state.writerPc <;>
    simp only [HandOff.writerStep, pc, TlmBuffers.tbsBuffer_eq_block, reduceCtorEq,
      Option.some.injEq] at taken <;>
    simp only [pc, WriterPc.inLoop, WriterPc.pastFullTest] at phase
  case testWriters =>
      rw [if_neg (by simp [tcsWriter])] at taken
      cases taken
      exact ⟨tcsReader, tcsWriter, by simpa [WriterPc.inLoop, WriterPc.pastFullTest] using phase⟩
  case testWriter =>
      have running : state.tcWriter ≠ .abort := by
        grind
      rw [if_neg running] at taken
      cases taken
      exact ⟨tcsReader, tcsWriter, by simpa [WriterPc.inLoop, WriterPc.pastFullTest] using phase⟩
  case testFull =>
      split at taken <;> cases taken
      case isTrue full =>
          exact ⟨tcsReader, tcsWriter,
            by simpa [WriterPc.inLoop, WriterPc.pastFullTest] using phase⟩
      case isFalse empty =>
          refine ⟨tcsReader, tcsWriter, ?_⟩
          simpa [WriterPc.inLoop, WriterPc.pastFullTest, empty] using phase
  case testFilled =>
      split at taken <;> cases taken <;>
        exact ⟨tcsReader, tcsWriter,
          by simpa [WriterPc.inLoop, WriterPc.pastFullTest] using phase⟩
  case testRunning =>
      split at taken <;> cases taken
      case isTrue running =>
          exact ⟨tcsReader, tcsWriter, .inl ⟨running, rfl⟩⟩
      case isFalse stopped =>
          refine ⟨tcsReader, tcsWriter, .inr ?_⟩
          simpa [stopped, WriterPc.pastFullTest] using phase
  case stopReader =>
      subst taken
      exact ⟨tcsReader, tcsWriter, by simpa [WriterPc.inLoop, WriterPc.pastFullTest] using phase⟩
  case abortWriters | abortWriter => simp at phase
  all_goals
    subst taken
    exact ⟨tcsReader, tcsWriter, by simpa [WriterPc.inLoop, WriterPc.pastFullTest] using phase⟩

/-- What holds of a run whose steps are all ordered well: it was disturbed by an abort,
it failed, or it drains. -/
def DrainsUnlessDisturbed (state : HandOff) : Prop :=
  state.abortRequested = false → state.err = 0 → state.Draining

theorem writerStep_err {state next : HandOff} (taken : state.writerStep = some next) :
    next.err = state.err ∧ next.abortRequested = state.abortRequested := by
  cases pc : state.writerPc <;> simp only [HandOff.writerStep, pc] at taken
  all_goals grind

theorem callerStep_err {state next : HandOff} {action : HandOffAction}
    (taken : state.callerStep action = some next) :
    next.err = state.err ∧ next.abortRequested = state.abortRequested := by
  cases action <;> simp only [HandOff.callerStep] at taken
  all_goals grind

theorem drainsUnlessDisturbed_step {state next : HandOff} {action : HandOffAction}
    (drains : state.DrainsUnlessDisturbed) (ordered : ¬ state.stopsBetweenTests action)
    (taken : state.step action = some next) : next.DrainsUnlessDisturbed := by
  intro undisturbed succeeded
  cases action with
  | reader =>
      obtain ⟨-, -, -, err, abortRequested⟩ := readerStep_commands taken
      rw [abortRequested] at undisturbed
      rw [err] at succeeded
      exact (drains undisturbed succeeded).readerStep ordered taken
  | writer =>
      obtain ⟨err, abortRequested⟩ := writerStep_err taken
      rw [abortRequested] at undisturbed
      rw [err] at succeeded
      exact (drains undisturbed succeeded).writerStep taken
  | modWriteReturns returned =>
      simp only [step] at taken
      split at taken <;> cases taken
      case h_1 writing =>
          obtain ⟨tcsReader, tcsWriter, phase⟩ := drains undisturbed succeeded
          rw [writing] at phase
          exact ⟨tcsReader, tcsWriter,
            by simpa [WriterPc.inLoop, WriterPc.pastFullTest] using phase⟩
      case h_2 => cases succeeded
  | requestAbort signal =>
      cases taken
      cases signal <;> cases undisturbed
  | _ =>
      simp only [step, Option.ite_none_right_eq_some] at taken
      obtain ⟨err, abortRequested⟩ := callerStep_err taken.2
      rw [abortRequested] at undisturbed
      rw [err] at succeeded
      exact (drains undisturbed succeeded).callerStep taken.1 taken.2

theorem Draining.started (memory : List UInt8) : (HandOff.started memory).Draining :=
  ⟨rfl, rfl, .inl ⟨rfl, rfl⟩⟩

/-- **The pool is drained at the end of a backup**, in every run in which the reader
does not set `tc_writer` between the writer's two tests of a block it has just
declared full. -/
theorem exited_drained {state : HandOff}
    (reached : system.ReachableBy (fun state action => ¬ state.stopsBetweenTests action) state)
    (undisturbed : state.abortRequested = false) (exited : state.writerPc = .exited)
    (succeeded : state.err = 0) (index : Fin tlmTapeBuffers) :
    (state.bufs.tbsBuffer index).tbFull = false := by
  have drains : state.DrainsUnlessDisturbed := by
    refine reached.invariant DrainsUnlessDisturbed ?_ ?_
    · rintro _ ⟨memory, rfl⟩ - -
      exact Draining.started memory
    · intro state action next drains ordered taken
      exact drainsUnlessDisturbed_step drains ordered taken
  have phase := (drains undisturbed succeeded).phase
  rw [exited] at phase
  rw [TlmBuffers.tbsBuffer_eq_block]
  simp only [WriterPc.inLoop, WriterPc.pastFullTest] at phase
  simp at phase
  exact phase.2.2

/-- A writer that finds the closed block full before the reader stops it. -/
def drainedRun : List HandOffAction :=
  .writeTarEof :: List.replicate 4 .reader ++ List.replicate 5 .writer ++
    .modWriteReturns true :: List.replicate 9 .writer

theorem exited_drained_closedBlock :
    ∃ state, system.run (fun state action => ¬ state.stopsBetweenTests action) (started [1, 2, 3])
        drainedRun = some state ∧
      state.passedBlocks = [[1, 2, 3]] ∧ (state.bufs.tbsBuffer 0).tbFull = false := by
  have ends : (system.run (fun state action => ¬ state.stopsBetweenTests action)
      (started [1, 2, 3]) drainedRun).map (fun state =>
        (state.passedBlocks, state.abortRequested, state.writerPc, state.err)) =
      some ([[1, 2, 3]], false, .exited, 0) := by decide
  obtain ⟨state, ran, observed⟩ := Option.map_eq_some_iff.mp ends
  simp only [Prod.mk.injEq] at observed
  obtain ⟨passed, undisturbed, exited, succeeded⟩ := observed
  have fresh : system.init (started [1, 2, 3]) := ⟨_, rfl⟩
  exact ⟨state, ran, passed,
    exited_drained (System.ReachableBy.run (.init fresh) ran) undisturbed exited succeeded 0⟩

/-- The reader closes the archive and stops the writer between the writer's test of
`tbFull` and its test of `tc_writer`. -/
def lostBlockRun : List HandOffAction :=
  List.replicate 3 .writer ++ .writeTarEof :: List.replicate 4 .reader ++
    List.replicate 2 .writer

/-- The only block of a small archive is lost in a run that reports success. -/
theorem lastBlock_lost :
    ∃ state, system.Reachable state ∧ state.writerPc = .exited ∧ state.err = 0 ∧
      state.abortRequested = false ∧ (state.bufs.tbsBuffer 0).tbFull = true ∧
        state.filledBlocks = [[1, 2, 3]] ∧ state.passedBlocks = [] := by
  have ends : (system.run (fun _ _ => True) (started [1, 2, 3]) lostBlockRun).map (fun state =>
      (state.writerPc, state.err, state.abortRequested, (state.bufs.tbsBuffer 0).tbFull,
        state.filledBlocks, state.passedBlocks)) =
      some (.exited, 0, false, true, [[1, 2, 3]], []) := by rfl
  obtain ⟨state, ran, observed⟩ := Option.map_eq_some_iff.mp ends
  simp only [Prod.mk.injEq] at observed
  have fresh : system.init (started [1, 2, 3]) := ⟨_, rfl⟩
  exact ⟨state, System.ReachableBy.run (.init fresh) ran, observed⟩

end HandOff

end Ndmpd
