import Ndmpd.Session.DataServer

/-!
# A refused start request

A start request is refused outside the state `CONNECTED`, while a backup or restore
may be running. The handlers of `LISTEN` and `CONNECT` answer such a request and leave
the session alone. The start handlers also run the common epilogue, which closes both
sockets and frees what the running operation has saved; the restore handler halts the
operation as well. The refusal is harmless exactly when there was nothing to give up.
-/

namespace Ndmpd

namespace DataServer

/-- The running operation is as it was: its state, its sockets and what it has saved. -/
def SameOperation (before after : DataServer) : Prop :=
  after.ddState = before.ddState ∧ after.ddHaltReason = before.ddHaltReason ∧
    after.ddSock = before.ddSock ∧ after.ddListenSock = before.ddListenSock ∧
      after.ddEnv = before.ddEnv ∧ after.ddNlistV3 = before.ddNlistV3

/-- The session holds no socket and has saved nothing that `ndmpd_free_nlist` and
`ndmpd_free_env` would free. -/
def HoldsNothing (session : DataServer) : Prop :=
  session.ddSock = -1 ∧ session.ddListenSock = -1 ∧ session.ddEnv = [] ∧
    (1 ≤ session.nsProtocolVersion → session.nsProtocolVersion ≤ 4 → session.ddNlistV3 = [])

/-- There is no operation for `ndmpd_data_error` to halt. -/
def AtRest (session : DataServer) : Prop :=
  session.ddState = .idle ∨ session.ddState = .halted

theorem closeListenSock_frame (session : DataServer) :
    session.closeListenSock.ddListenSock = -1 ∧
      session.closeListenSock.ddSock = session.ddSock ∧
      session.closeListenSock.ddState = session.ddState ∧
      session.closeListenSock.ddHaltReason = session.ddHaltReason ∧
      session.closeListenSock.ddEnv = session.ddEnv ∧
      session.closeListenSock.ddNlistV3 = session.ddNlistV3 ∧
      session.closeListenSock.nsProtocolVersion = session.nsProtocolVersion := by
  unfold closeListenSock
  by_cases closed : session.ddListenSock = -1
  · simp [closed]
  · simp [closed, close, ndmpdRemoveFileHandler]

theorem closeDataSock_frame (session : DataServer) :
    session.closeDataSock.ddSock = -1 ∧
      session.closeDataSock.ddListenSock = session.ddListenSock ∧
      session.closeDataSock.ddState = session.ddState ∧
      session.closeDataSock.ddHaltReason = session.ddHaltReason ∧
      session.closeDataSock.ddEnv = session.ddEnv ∧
      session.closeDataSock.ddNlistV3 = session.ddNlistV3 ∧
      session.closeDataSock.nsProtocolVersion = session.nsProtocolVersion := by
  unfold closeDataSock
  by_cases closed : session.ddSock = -1
  · simp [closed]
  · rw [if_neg closed]
    by_cases shared : session.ddSock = session.mdSock
    · simp [shared]
    · simp [shared, close]

theorem ndmpdMoverError_ddState (session : DataServer) :
    session.ndmpdMoverError.ddState = session.ddState := by
  unfold ndmpdMoverError
  split
  · rfl
  · by_cases listening : session.mdListenSock = -1 <;>
      by_cases connected : session.mdSock = -1 <;>
        simp [listening, connected, close, ndmpdRemoveFileHandler]

/-- What `ndmpd_data_cleanup` leaves of an operation. -/
theorem ndmpdDataCleanup_frame (session : DataServer) :
    session.ndmpdDataCleanup.ddState = session.ddState ∧
      session.ndmpdDataCleanup.ddHaltReason = session.ddHaltReason ∧
      session.ndmpdDataCleanup.ddSock = -1 ∧ session.ndmpdDataCleanup.ddListenSock = -1 ∧
      session.ndmpdDataCleanup.ddEnv = [] ∧
      session.ndmpdDataCleanup.ddNlistV3 =
        if 1 ≤ session.nsProtocolVersion ∧ session.nsProtocolVersion ≤ 4 then []
        else session.ddNlistV3 := by
  obtain ⟨listenClosed, -, listenState, listenReason, -, listenNlist, listenVersion⟩ :=
    closeListenSock_frame session
  obtain ⟨sockClosed, sockListen, sockState, sockReason, -, sockNlist, sockVersion⟩ :=
    closeDataSock_frame session.closeListenSock
  by_cases known : 1 ≤ session.nsProtocolVersion ∧ session.nsProtocolVersion ≤ 4 <;>
    simp [ndmpdDataCleanup, ndmpdFreeNlist, ndmpdFreeNlistV3, ndmpdFreeEnv, sockVersion,
      listenVersion, sockState, listenState, sockReason, listenReason, sockClosed, sockListen,
      listenClosed, sockNlist, listenNlist, known]

/-- Cleaning up keeps the operation exactly when nothing is held. -/
theorem sameOperation_cleanup_iff (session : DataServer) :
    session.SameOperation session.ndmpdDataCleanup ↔ session.HoldsNothing := by
  obtain ⟨state, reason, sock, listenSock, env, nlist⟩ := ndmpdDataCleanup_frame session
  rw [SameOperation, state, reason, sock, listenSock, env, nlist]
  constructor
  · rintro ⟨-, -, sockClosed, listenClosed, envEmpty, nlistKept⟩
    refine ⟨sockClosed.symm, listenClosed.symm, envEmpty.symm, fun low high => ?_⟩
    rw [if_pos ⟨low, high⟩] at nlistKept
    exact nlistKept.symm
  · rintro ⟨sockClosed, listenClosed, envEmpty, nlistEmpty⟩
    refine ⟨rfl, rfl, sockClosed.symm, listenClosed.symm, envEmpty.symm, ?_⟩
    split
    case isTrue known => exact (nlistEmpty known.1 known.2).symm
    case isFalse => rfl

/-- A data error halts every operation that is not at rest. -/
theorem ndmpdDataError_ddState (session : DataServer) (reason : DataHaltReason)
    (working : ¬ session.AtRest) : (session.ndmpdDataError reason).ddState = .halted := by
  unfold AtRest at working
  rw [ndmpdDataError, if_neg working]
  by_cases network : session.ddDataAddr = .tcp
  · simp only [network, if_true]
    rw [(closeListenSock_frame _).2.2.1, (closeDataSock_frame _).2.2.1]
    by_cases closed : session.ddSock = -1 <;> simp [closed, ndmpdRemoveFileHandler]
  · simp only [network, if_false]
    rw [ndmpdMoverError_ddState]

theorem ndmpdDataError_of_atRest {session : DataServer} (reason : DataHaltReason)
    (atRest : session.AtRest) : session.ndmpdDataError reason = session :=
  if_pos atRest

/-- The refusal of `DATA_START_BACKUP` and what follows it. -/
theorem ndmpdDataStartBackupV3_refused {session : DataServer} (request : StartRequest)
    (unconnected : session.ddState ≠ .connected) :
    session.ndmpdDataStartBackupV3 request =
      (session.ndmpSendReply .illegalStateErr).ndmpdDataCleanup := by
  simp [ndmpdDataStartBackupV3, startBackupV3, unconnected]

/-- The refusal of `DATA_START_RECOVER` and what follows it. -/
theorem ndmpdDataStartRecoverV3_refused {session : DataServer} (request : StartRequest)
    (unconnected : session.ddState ≠ .connected) :
    session.ndmpdDataStartRecoverV3 request =
      ((session.ndmpSendReply .illegalStateErr).ndmpdDataError
        .internalError).ndmpdDataCleanup := by
  simp [ndmpdDataStartRecoverV3, startRecoverV3, unconnected]

/-- **When a refused start request leaves the running operation alone**: a refused
backup when the session holds no socket and nothing saved, a refused restore when
there is in addition no operation to halt. -/
theorem refusedStart_sameOperation_iff (session : DataServer) (request : StartRequest)
    (unconnected : session.ddState ≠ .connected) :
    (session.SameOperation (session.ndmpdDataStartBackupV3 request) ↔ session.HoldsNothing) ∧
      (session.SameOperation (session.ndmpdDataStartRecoverV3 request) ↔
        session.HoldsNothing ∧ session.AtRest) := by
  rw [ndmpdDataStartBackupV3_refused request unconnected,
    ndmpdDataStartRecoverV3_refused request unconnected]
  constructor
  · exact sameOperation_cleanup_iff (session.ndmpSendReply .illegalStateErr)
  · by_cases atRest : session.AtRest
    · have replied : (session.ndmpSendReply .illegalStateErr).AtRest := atRest
      rw [ndmpdDataError_of_atRest _ replied, and_iff_left atRest]
      exact sameOperation_cleanup_iff (session.ndmpSendReply .illegalStateErr)
    · have halted : ((session.ndmpSendReply .illegalStateErr).ndmpdDataError
          .internalError).ndmpdDataCleanup.ddState = .halted := by
        rw [(ndmpdDataCleanup_frame _).1]
        exact ndmpdDataError_ddState (session.ndmpSendReply .illegalStateErr) _ atRest
      constructor
      · intro same
        have kept := same.1
        rw [halted] at kept
        exact absurd (.inr kept.symm) atRest
      · intro held
        exact absurd held.2 atRest

/-- A start request for a backup that every call grants. -/
def grantedBackup : StartRequest where
  buType := ndmpDumpType
  env := []
  nlist := []
  envMemory := ⟨true, 0⟩
  nlistMemory := ⟨true, 0⟩
  paramsAllocated := true
  paramsError := .noErr
  fixedNlist := []
  responseSent := true
  threadCreated := true

/-- A data server that listens for the local mover. -/
def listeningLocally : DataServer := (initial 3 4).ndmpdDataListenV4 .local none true

/-- It has no socket and nothing saved, so a refused backup keeps its operation; a refused
restore halts it. -/
theorem refusedStart_sameOperation_listening :
    listeningLocally.ddState = .listen ∧
      listeningLocally.SameOperation (listeningLocally.ndmpdDataStartBackupV3 grantedBackup) ∧
      ¬ listeningLocally.SameOperation
        (listeningLocally.ndmpdDataStartRecoverV3 grantedBackup) := by
  have nothing : listeningLocally.HoldsNothing := ⟨rfl, rfl, rfl, fun _ _ => rfl⟩
  have same := refusedStart_sameOperation_iff listeningLocally grantedBackup (by decide)
  refine ⟨rfl, same.1.mpr nothing, fun kept => ?_⟩
  rcases (same.2.mp kept).2 with idle | halted
  · cases idle
  · cases halted

/-- A backup is running: the data server has connected to a mover and started it. -/
def runningBackup : List DataAction :=
  [.connectV4 .tcp (some 7), .startBackup grantedBackup, .workerStarts .backup]

/-- A second `DATA_START_BACKUP` closes the data socket of the running backup. -/
theorem refusedStart_closes_running :
    ∃ session, system.Reachable session ∧ session.ddState = .active ∧ session.ddSock = 7 ∧
      (session.ndmpdDataStartBackupV3 grantedBackup).ddSock = -1 ∧
        ¬ session.SameOperation (session.ndmpdDataStartBackupV3 grantedBackup) := by
  have runs : (system.run (fun _ _ => True) (initial 3 4) runningBackup).map (fun session =>
      (session.ddState, session.ddSock,
        (session.ndmpdDataStartBackupV3 grantedBackup).ddSock)) = some (.active, 7, -1) := by
    rfl
  obtain ⟨session, ran, observed⟩ := Option.map_eq_some_iff.mp runs
  simp only [Prod.mk.injEq] at observed
  obtain ⟨active, sock, closed⟩ := observed
  have start : system.init (initial 3 4) := ⟨3, 4, by decide, .inr rfl, rfl⟩
  refine ⟨session, Foundation.System.ReachableBy.run (.init start) ran, active, sock, closed, ?_⟩
  intro same
  have kept := same.2.2.1
  rw [closed, sock] at kept
  exact absurd kept (by decide)

end DataServer

end Ndmpd
