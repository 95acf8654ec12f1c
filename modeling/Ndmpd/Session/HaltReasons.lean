import Ndmpd.Foundation.Transition
import Ndmpd.Session.RefusedStart

/-!
# The reason for which an operation halts

A backup or restore runs in a thread of its own and hands its result to
`ndmpd_api_done_v3`, which expects the number of an error: `EINTR` for an operation that was
aborted, `EIO` for a data connection that failed. `tar_backup_v3` and `ndmpd_rs_sar_tar_v3`
keep such a number in `result`, but return `err`, which is 0 or negative. No operation is
therefore reported as aborted or cut off (`halted_reason`), and the reason that is reported
matches the outcome exactly when neither happened (`haltMatches_iff`).
-/

namespace Ndmpd

namespace HaltReasons

open Foundation.System

/-- The reason that `ndmpd_api_done_v3` finds for a result. -/
def haltReason (err : Int) : DataHaltReason :=
  if err = 0 then .successful
  else if err = 4 then .aborted -- EINTR
  else if err = 5 then .connectError -- EIO
  else .internalError

/-- Where the thread of the operation stands, in the order of `tar_backup_v3` and
`ndmpd_rs_sar_tar_v3`. -/
inductive Phase where
  | starting
  | preparing
  | lookingEof
  | lookingAbort
  | allocating
  | marking
  | launching
  | moving
  | writing
  | joining
  | joined
  | finishing
  | reporting (reason : DataHaltReason)
  | done
  deriving DecidableEq, Repr

/-- How a call of `ndmpd_remote_read_v3` ends: with the data, with an error of the socket,
where the tape server has closed the connection behind the whole stream or has been cut off
before, or because NOTIFY_DATA_READ could not be sent. The call cannot tell the two ends of
the connection apart. -/
inductive ReadResult where
  | full
  | failed
  | closed
  | cutOff
  | notRequested
  deriving DecidableEq, Repr

/-- A run of an operation, from the creation of its thread. -/
structure DataRun where
  session : DataServer
  nsEof : Bool
  phase : Phase
  err : Int
  /-- `ndmp_tar_reader_v3` runs. -/
  reading : Bool
  /-- A DATA_ABORT was accepted while the operation was active. -/
  abortAccepted : Bool
  /-- The socket failed, or the connection ended before all of the stream had come. -/
  connectionFailed : Bool
  deriving DecidableEq, Repr

/-- What happens next. -/
inductive HaltAction where
  -- the control thread
  | abort
  | eof
  -- the thread of a backup
  | curBkTime (succeeded : Bool)
  | bkDirIno (found : Bool)
  | lookEof
  | allocStructs (succeeded : Bool)
  | utf8Magic (succeeded : Bool)
  | lookWrite
  | write (succeeded : Bool)
  | writerDone
  -- the threads of a restore
  | restoreAllocStructs (succeeded : Bool)
  | setupsels (succeeded : Bool)
  | read (result : ReadResult)
  | getdir (rv : Int)
  -- either thread
  | lookAbort
  | launch (created : Bool)
  | join
  | lastLook
  | apiDone
  | halt
  deriving DecidableEq, Repr

namespace DataRun

/-- A call is followed by the next phase, or by the return of -1. -/
def after (run : DataRun) (succeeded : Bool) (next : Phase) : DataRun :=
  if succeeded then { run with phase := next } else { run with phase := .finishing, err := -1 }

/-- `ndmp_tar_reader_v3` has called `MOD_READ`. It ends upon any failure. -/
def afterRead (run : DataRun) : ReadResult → DataRun
  | .full => run
  | .failed => { run with reading := false, connectionFailed := true }
  -- how every restore of a whole archive ends
  | .closed => { run with reading := false }
  | .cutOff => { run with reading := false, connectionFailed := true }
  | .notRequested => { run with reading := false }

/-- One step. -/
def step (run : DataRun) : HaltAction → Option DataRun
  | .abort =>
      some { run with
        session := run.session.ndmpdDataAbortV3
        abortAccepted := run.abortAccepted || decide (run.session.ddState = .active) }
  | .eof => some { run with nsEof := true }
  | .curBkTime succeeded =>
      if run.phase = .starting ∧ run.session.ddOperation = .backup then
        some (run.after succeeded .preparing)
      else none
  | .bkDirIno found =>
      if run.phase = .preparing ∧ run.session.ddOperation = .backup then
        some (run.after found .lookingEof)
      else none
  | .lookEof =>
      if run.phase = .lookingEof then some (run.after (!run.nsEof) .lookingAbort) else none
  | .allocStructs succeeded =>
      if run.phase = .allocating then some (run.after succeeded .marking) else none
  | .utf8Magic succeeded =>
      if run.phase = .marking then some (run.after succeeded .launching) else none
  -- `ndmpd_remote_write` looks again before every `write`
  | .lookWrite =>
      if run.phase = .moving ∧ run.session.ddOperation = .backup then
        if run.nsEof ∨ run.session.ddAbort then some { run with phase := .joining, err := -1 }
        else some { run with phase := .writing }
      else none
  | .write succeeded =>
      if run.phase = .writing then
        if succeeded then some { run with phase := .moving }
        else
          some { run with
            session := { run.session with ddAbort := true }
            phase := .joining
            err := -1
            connectionFailed := true }
      else none
  | .writerDone =>
      if run.phase = .moving ∧ run.session.ddOperation = .backup then
        some { run with phase := .joining }
      else none
  | .restoreAllocStructs succeeded =>
      if run.phase = .starting ∧ run.session.ddOperation = .recover then
        some (run.after succeeded .preparing)
      else none
  | .setupsels succeeded =>
      if run.phase = .preparing ∧ run.session.ddOperation = .recover then
        some (run.after succeeded .lookingAbort)
      else none
  | .read result => if run.reading then some (run.afterRead result) else none
  -- `tar_getdir` returns 0, -1 or `-TLM_NO_SCRATCH_SPACE`
  | .getdir rv =>
      if run.phase = .moving ∧ run.session.ddOperation = .recover ∧
          (rv = 0 ∨ rv = -1 ∨ rv = -0x15) then
        some { run with phase := .joining, err := rv }
      else none
  | .lookAbort =>
      if run.phase = .lookingAbort then
        if run.session.ddAbort then some { run with phase := .joined }
        else if run.session.ddOperation = .backup then some { run with phase := .allocating }
        else some { run with phase := .launching }
      else none
  | .launch created =>
      if run.phase = .launching then
        some { run.after created .moving with
          reading := created && decide (run.session.ddOperation = .recover) }
      else none
  -- `result` is set too, to `EIO` or `EPIPE`, and dropped
  | .join =>
      if run.phase = .joining then
        some { run with
          session :=
            if run.session.ddOperation = .recover then run.session.ndmpStopRemoteReader
            else run.session
          phase := .joined
          err := if run.nsEof then -1 else run.err
          reading := false }
      else none
  -- a restore sets `result` to `EINTR`
  | .lastLook =>
      if run.phase = .joined then
        some { run with
          phase := .finishing, err := if run.session.ddAbort then -1 else run.err }
      else none
  | .apiDone =>
      if run.phase = .finishing then some { run with phase := .reporting (haltReason run.err) }
      else none
  -- `ndmpd_data_error` sends the file history first, so that the state is still ACTIVE
  | .halt =>
      match run.phase with
      | .reporting reason =>
          some { run with session := run.session.ndmpdDataError reason, phase := .done }
      | _ => none

end DataRun

/-- The runs of a backup or restore that was started with success. -/
def dataRuns : Foundation.System DataRun HaltAction where
  init run :=
    ∃ session : DataServer, session.ddState = .active ∧ session.ddAbort = false ∧
      (session.ddOperation = .backup ∨ session.ddOperation = .recover) ∧
      run = ⟨session, false, .starting, 0, false, false, false⟩
  step run action := run.step action

/-- The recorded reason says how the operation ended. An abort goes before a failure of the
connection. -/
structure HaltMatches (run : DataRun) : Prop where
  aborted : run.abortAccepted = true → run.session.ddHaltReason = .aborted
  connectError : run.connectionFailed = true → run.abortAccepted = false →
    run.session.ddHaltReason = .connectError
  successful : run.session.ddHaltReason = .successful →
    run.abortAccepted = false ∧ run.connectionFailed = false

/-! ## What the calls do to the session -/

/-- The result is a number of an error in `ndmpd_api_done_v3`. -/
theorem ndmpdApiDoneV3_eq (session : DataServer) (err : Nat) :
    session.ndmpdApiDoneV3 err = session.ndmpdDataError (haltReason err) := by
  unfold DataServer.ndmpdApiDoneV3 haltReason
  split
  · rfl
  · rfl
  · rfl
  · rename_i unequal0 unequal4 unequal5
    rw [if_neg (mod_cast unequal0), if_neg (mod_cast unequal4), if_neg (mod_cast unequal5)]

theorem haltReason_of_returned {err : Int} (returned : err = 0 ∨ err = -1 ∨ err = -0x15) :
    haltReason err = .successful ∨ haltReason err = .internalError := by
  rcases returned with rfl | rfl | rfl
  · exact .inl rfl
  · exact .inr rfl
  · exact .inr rfl

section Sessions

variable {session : DataServer}

theorem ndmpdMoverError_ddHaltReason (session : DataServer) :
    session.ndmpdMoverError.ddHaltReason = session.ddHaltReason := by
  unfold DataServer.ndmpdMoverError
  split
  · rfl
  · by_cases listening : session.mdListenSock = -1 <;>
      by_cases connected : session.mdSock = -1 <;>
        simp [listening, connected, DataServer.close, DataServer.ndmpdRemoveFileHandler]

/-- An active operation halts for the reason given. -/
theorem ndmpdDataError_ddHaltReason (active : session.ddState = .active)
    (reason : DataHaltReason) : (session.ndmpdDataError reason).ddHaltReason = reason := by
  have working : ¬ (session.ddState = .idle ∨ session.ddState = .halted) := by simp [active]
  rw [DataServer.ndmpdDataError, if_neg working]
  by_cases network : session.ddDataAddr = .tcp
  · simp only [network, if_true]
    rw [(DataServer.closeListenSock_frame _).2.2.2.1, (DataServer.closeDataSock_frame _).2.2.2.1]
    by_cases closed : session.ddSock = -1 <;> simp [closed, DataServer.ndmpdRemoveFileHandler]
  · simp only [network, if_false]
    rw [ndmpdMoverError_ddHaltReason]

/-- An active operation stays active until its thread has seen the abort. -/
theorem ndmpdDataAbortV3_active (active : session.ddState = .active) :
    session.ndmpdDataAbortV3.ddState = .active ∧
      session.ndmpdDataAbortV3.ddOperation = session.ddOperation := by
  unfold DataServer.ndmpdDataAbortV3 DataServer.ndmpdTarBackupAbortV3
    DataServer.ndmpdTarRestoreAbortV3 DataServer.ndmpSendReply DataServer.close
  rw [active]
  dsimp only
  split
  · split_ifs <;> exact ⟨rfl, rfl⟩
  · split_ifs <;> exact ⟨rfl, rfl⟩
  · exact ⟨rfl, rfl⟩

/-- A halted operation keeps its reason. -/
theorem ndmpdDataAbortV3_halted (halted : session.ddState = .halted) :
    session.ndmpdDataAbortV3.ddState = .halted ∧
      session.ndmpdDataAbortV3.ddHaltReason = session.ddHaltReason ∧
      session.ndmpdDataAbortV3.ddOperation = session.ddOperation := by
  unfold DataServer.ndmpdDataAbortV3
  rw [halted]
  exact ⟨rfl, rfl, rfl⟩

theorem ndmpStopRemoteReader_frame (session : DataServer) :
    session.ndmpStopRemoteReader.ddState = session.ddState ∧
      session.ndmpStopRemoteReader.ddOperation = session.ddOperation := by
  unfold DataServer.ndmpStopRemoteReader
  split_ifs
  · exact ⟨rfl, rfl⟩
  · exact ⟨rfl, rfl⟩

end Sessions

/-! ## What every run keeps -/

/-- The result of an operation is one that its functions return, and the reason follows it. -/
structure Consistent (run : DataRun) : Prop where
  returned : run.err = 0 ∨ run.err = -1 ∨ run.err = -0x15
  active : run.phase ≠ .done → run.session.ddState = .active
  reported : ∀ reason, run.phase = .reporting reason → reason = haltReason run.err
  halted : run.phase = .done →
    run.session.ddState = .halted ∧ run.session.ddHaltReason = haltReason run.err

section Steps

variable {run next : DataRun}

/-- The thread goes on to a phase before `ndmpd_api_done_v3`. -/
theorem Consistent.working (consistent : Consistent run) (running : run.phase ≠ .done)
    (same : next.session.ddState = run.session.ddState)
    (returned : next.err = 0 ∨ next.err = -1 ∨ next.err = -0x15)
    (unreported : ∀ reason, next.phase ≠ .reporting reason) (unfinished : next.phase ≠ .done) :
    Consistent next where
  returned := returned
  active _ := same.trans (consistent.active running)
  reported reason phase := absurd phase (unreported reason)
  halted phase := absurd phase unfinished

theorem Consistent.after (consistent : Consistent run) (running : run.phase ≠ .done)
    (succeeded : Bool) {phase : Phase} (unreported : ∀ reason, phase ≠ .reporting reason)
    (unfinished : phase ≠ .done) : Consistent (run.after succeeded phase) := by
  cases succeeded with
  | true => exact consistent.working running rfl consistent.returned unreported unfinished
  | false => exact consistent.working running rfl (.inr (.inl rfl)) nofun nofun

/-- What a step does to the session and the result keeps both consistent. -/
theorem Consistent.step (consistent : Consistent run) {action : HaltAction}
    (taken : run.step action = some next) : Consistent next := by
  have returned := consistent.returned
  cases action with
  | abort =>
      cases taken
      by_cases finished : run.phase = .done
      · obtain ⟨halted, recorded⟩ := consistent.halted finished
        obtain ⟨still, kept, -⟩ := ndmpdDataAbortV3_halted halted
        exact ⟨returned, absurd finished, consistent.reported, fun _ =>
          ⟨still, kept.trans recorded⟩⟩
      · have active := (ndmpdDataAbortV3_active (consistent.active finished)).1
        exact ⟨returned, fun _ => active, consistent.reported, fun done => absurd done finished⟩
  | eof =>
      cases taken
      exact ⟨returned, consistent.active, consistent.reported, consistent.halted⟩
  | curBkTime succeeded | restoreAllocStructs succeeded =>
      obtain ⟨⟨phase, _⟩, rfl⟩ := of_guarded taken
      exact consistent.after (by simp [phase]) succeeded nofun nofun
  | bkDirIno succeeded | setupsels succeeded =>
      obtain ⟨⟨phase, _⟩, rfl⟩ := of_guarded taken
      exact consistent.after (by simp [phase]) succeeded nofun nofun
  | allocStructs succeeded | utf8Magic succeeded =>
      obtain ⟨phase, rfl⟩ := of_guarded taken
      exact consistent.after (by simp [phase]) succeeded nofun nofun
  | lookEof =>
      obtain ⟨phase, rfl⟩ := of_guarded taken
      exact consistent.after (by simp [phase]) _ nofun nofun
  | lookWrite =>
      obtain ⟨⟨phase, _⟩, taken⟩ := Option.ite_none_right_eq_some.mp taken
      split at taken <;> cases taken
      · exact consistent.working (by simp [phase]) rfl (.inr (.inl rfl)) nofun nofun
      · exact consistent.working (by simp [phase]) rfl returned nofun nofun
  | write succeeded =>
      obtain ⟨phase, taken⟩ := Option.ite_none_right_eq_some.mp taken
      split at taken <;> cases taken
      · exact consistent.working (by simp [phase]) rfl returned nofun nofun
      · exact consistent.working (by simp [phase]) rfl (.inr (.inl rfl)) nofun nofun
  | writerDone =>
      obtain ⟨⟨phase, _⟩, rfl⟩ := of_guarded taken
      exact consistent.working (by simp [phase]) rfl returned nofun nofun
  | read result =>
      obtain ⟨_, rfl⟩ := of_guarded taken
      cases result <;> exact ⟨returned, consistent.active, consistent.reported, consistent.halted⟩
  | getdir rv =>
      obtain ⟨⟨phase, _, given⟩, rfl⟩ := of_guarded taken
      exact consistent.working (by simp [phase]) rfl given nofun nofun
  | lookAbort =>
      obtain ⟨phase, taken⟩ := Option.ite_none_right_eq_some.mp taken
      split at taken
      · cases taken
        exact consistent.working (by simp [phase]) rfl returned nofun nofun
      · split at taken <;> cases taken
        · exact consistent.working (by simp [phase]) rfl returned nofun nofun
        · exact consistent.working (by simp [phase]) rfl returned nofun nofun
  | launch created =>
      obtain ⟨phase, rfl⟩ := of_guarded taken
      obtain ⟨returned, active, reported, halted⟩ :=
        @Consistent.after run consistent (by simp [phase]) created .moving nofun nofun
      exact ⟨returned, active, reported, halted⟩
  | join =>
      obtain ⟨phase, rfl⟩ := of_guarded taken
      refine consistent.working (by simp [phase]) ?_ ?_ nofun nofun
      · dsimp only
        split
        · exact (ndmpStopRemoteReader_frame _).1
        · rfl
      · cases run.nsEof with
        | true => exact .inr (.inl rfl)
        | false => exact returned
  | lastLook =>
      obtain ⟨phase, rfl⟩ := of_guarded taken
      refine consistent.working (by simp [phase]) rfl ?_ nofun nofun
      cases run.session.ddAbort with
      | true => exact .inr (.inl rfl)
      | false => exact returned
  | apiDone =>
      obtain ⟨phase, rfl⟩ := of_guarded taken
      have active := consistent.active (by simp [phase])
      refine ⟨returned, fun _ => active, ?_, nofun⟩
      intro reason reported
      cases reported
      rfl
  | halt =>
      simp only [DataRun.step] at taken
      split at taken <;> cases taken
      rename_i reason phase
      have active := consistent.active (by simp [phase])
      have halted := DataServer.ndmpdDataError_ddState run.session reason (by
        simp [DataServer.AtRest, active])
      have recorded := (ndmpdDataError_ddHaltReason active reason).trans
        (consistent.reported reason phase)
      exact ⟨returned, nofun, nofun, fun _ => ⟨halted, recorded⟩⟩

end Steps

theorem consistent_of_reachable {run : DataRun} (reached : dataRuns.Reachable run) :
    Consistent run := by
  apply reached.invariant Consistent
  · rintro run ⟨session, active, -, -, rfl⟩
    exact ⟨.inl rfl, fun _ => active, nofun, nofun⟩
  · intro run action next consistent _ taken
    exact consistent.step taken

/-- No operation halts as aborted or for its connection. -/
theorem halted_reason {run : DataRun} (reached : dataRuns.Reachable run)
    (finished : run.phase = .done) :
    run.session.ddHaltReason = .successful ∨ run.session.ddHaltReason = .internalError := by
  have consistent := consistent_of_reachable reached
  rw [(consistent.halted finished).2]
  exact haltReason_of_returned consistent.returned

/-- The reason that an operation halts for matches its outcome exactly if no DATA_ABORT was
accepted while it was active and its data connection did not fail. -/
theorem haltMatches_iff {run : DataRun} (reached : dataRuns.Reachable run)
    (finished : run.phase = .done) :
    HaltMatches run ↔ run.abortAccepted = false ∧ run.connectionFailed = false := by
  have reason := halted_reason reached finished
  constructor
  · intro fits
    have unaborted : run.abortAccepted = false := by
      by_contra aborted
      rw [fits.aborted (by simpa using aborted)] at reason
      simp at reason
    refine ⟨unaborted, ?_⟩
    by_contra failed
    rw [fits.connectError (by simpa using failed) unaborted] at reason
    simp at reason
  · rintro ⟨unaborted, connected⟩
    refine ⟨?_, ?_, fun _ => ⟨unaborted, connected⟩⟩
    · intro aborted
      simp [unaborted] at aborted
    · intro failed
      simp [connected] at failed

/-- A session whose backup or restore was started over TCP. -/
def startedSession (operation : DataOperation) : DataServer :=
  { DataServer.initial 3 3 with
    ddState := .active, ddOperation := operation, ddSock := 4, ddDataAddr := .tcp,
    ddMover := .tcp, dmAbortFunc := some operation, dmModuleCookie := true,
    openDescriptors := [4, 3], runningWorkers := [operation] }

/-- The thread of an operation has been created. -/
def startedRun (operation : DataOperation) : DataRun :=
  ⟨startedSession operation, false, .starting, 0, false, false, false⟩

/-- A restore whose tape server closes the connection behind the whole archive. -/
theorem haltMatches_wholeRestore :
    ∃ run, dataRuns.run (fun _ _ => True) (startedRun .recover)
        [.restoreAllocStructs true, .setupsels true, .lookAbort, .launch true, .read .full,
          .read .closed, .getdir 0, .join, .lastLook, .apiDone, .halt] = some run ∧
      run.session.ddHaltReason = .successful ∧ HaltMatches run := by
  have ended : ∃ run, dataRuns.run (fun _ _ => True) (startedRun .recover)
      [.restoreAllocStructs true, .setupsels true, .lookAbort, .launch true, .read .full,
        .read .closed, .getdir 0, .join, .lastLook, .apiDone, .halt] = some run ∧
      run.phase = .done ∧ run.session.ddHaltReason = .successful ∧
        run.abortAccepted = false ∧ run.connectionFailed = false := ⟨_, rfl, rfl, rfl, rfl, rfl⟩
  obtain ⟨run, ran, finished, successful, unaborted, connected⟩ := ended
  have started : dataRuns.Reachable (startedRun .recover) :=
    .init ⟨_, rfl, rfl, .inr rfl, rfl⟩
  have fits := haltMatches_iff (ReachableBy.run started ran) finished
  exact ⟨run, ran, successful, fits.mpr ⟨unaborted, connected⟩⟩

/-- A restore that is aborted while it reads is reported to have met an internal error. -/
theorem abortedRestore_internal :
    ¬ ∀ run, dataRuns.Reachable run → run.phase = .done → HaltMatches run := by
  intro always
  have ended : ∃ run, dataRuns.run (fun _ _ => True) (startedRun .recover)
      [.restoreAllocStructs true, .setupsels true, .lookAbort, .launch true, .read .full, .abort,
        .read .failed, .getdir 0, .join, .lastLook, .apiDone, .halt] = some run ∧
      run.phase = .done ∧ run.abortAccepted = true ∧
        run.session.ddHaltReason = .internalError := ⟨_, rfl, rfl, rfl, rfl⟩
  obtain ⟨run, ran, finished, aborted, internal⟩ := ended
  have started : dataRuns.Reachable (startedRun .recover) :=
    .init ⟨_, rfl, rfl, .inr rfl, rfl⟩
  have recorded := (always run (ReachableBy.run started ran) finished).aborted aborted
  rw [internal] at recorded
  cases recorded

end HaltReasons

end Ndmpd
