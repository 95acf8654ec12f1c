import Ndmpd.Session.DataSockets

/-!
# Answers and worker threads

Every request to the data server is answered once, by its handler or by the code that calls
it. A start request is the exception: when the reply cannot be sent it goes without one, and
when no thread can be created the reply has gone out already and a second one follows. In all
other runs there are as many replies as requests (`replies_of_run`).

A worker thread is created for a start request in state `CONNECTED`. It reports the end of
the operation with `MOD_DONE`, which halts the data server, and gives back its session
reference behind that. Where no refused restore request halts a running operation, and no
socket is stranded, there is one worker at most: while it has the operation to do the data
server is `ACTIVE`, and behind `MOD_DONE` it is `HALTED` until the worker is gone
(`workers_of_reachable`).
-/

namespace Ndmpd

namespace DataServer

/-! ## What the handlers leave alone -/

/-- The worker threads: created, running and done. -/
def threads (session : DataServer) :
    List DataOperation × List DataOperation × List DataOperation :=
  (session.createdWorkers, session.runningWorkers, session.doneWorkers)

/-- The replies and the worker threads. -/
def ledger (session : DataServer) :
    List NdmpError × List DataOperation × List DataOperation × List DataOperation :=
  (session.replies, session.threads)

variable {session : DataServer}

@[simp]
theorem ledger_closeListenSock (session : DataServer) :
    session.closeListenSock.ledger = session.ledger := by
  unfold closeListenSock
  split <;> rfl

@[simp]
theorem ledger_closeDataSock (session : DataServer) :
    session.closeDataSock.ledger = session.ledger := by
  unfold closeDataSock
  split
  · rfl
  · split <;> rfl

@[simp]
theorem ledger_ndmpdMoverError (session : DataServer) :
    session.ndmpdMoverError.ledger = session.ledger := by
  unfold ndmpdMoverError
  split
  · rfl
  · by_cases listening : session.mdListenSock = -1 <;>
      by_cases connected : session.mdSock = -1 <;>
        simp [listening, connected, close, ndmpdRemoveFileHandler, ledger, threads]

@[simp]
theorem ledger_ndmpdDataError (session : DataServer) (reason : DataHaltReason) :
    (session.ndmpdDataError reason).ledger = session.ledger := by
  unfold ndmpdDataError
  split
  · rfl
  · by_cases network : session.ddDataAddr = .tcp
    · simp only [network, if_true]
      rw [ledger_closeListenSock, ledger_closeDataSock]
      split <;> rfl
    · simp only [network, if_false]
      rw [ledger_ndmpdMoverError]
      rfl

@[simp]
theorem ledger_ndmpdApiDoneV3 (session : DataServer) (err : Nat) :
    (session.ndmpdApiDoneV3 err).ledger = session.ledger := by
  unfold ndmpdApiDoneV3
  exact ledger_ndmpdDataError session _

@[simp]
theorem ledger_ndmpdDataCleanup (session : DataServer) :
    session.ndmpdDataCleanup.ledger = session.ledger := by
  have freed : session.ndmpdDataCleanup.ledger = session.closeListenSock.closeDataSock.ledger := by
    unfold ndmpdDataCleanup ndmpdFreeNlist
    split <;> rfl
  rw [freed, ledger_closeDataSock, ledger_closeListenSock]

@[simp]
theorem ledger_ndmpdSaveEnv (session : DataServer) (env : List Pval) (memory : Allocations) :
    (session.ndmpdSaveEnv env memory).1.ledger = session.ledger := by
  unfold ndmpdSaveEnv
  split
  · rfl
  · split
    · rfl
    · split <;> rfl

@[simp]
theorem ledger_ndmpdSaveNlistV3 (session : DataServer) (nlist : List NameV3)
    (memory : Allocations) :
    (session.ndmpdSaveNlistV3 nlist memory).1.ledger = session.ledger := by
  unfold ndmpdSaveNlistV3
  split
  · rfl
  · split
    · rfl
    · split <;> rfl

theorem ddState_ndmpdDataCleanup (session : DataServer) :
    session.ndmpdDataCleanup.ddState = session.ddState := by
  have freed : session.ndmpdDataCleanup.ddState =
      session.closeListenSock.closeDataSock.ddState := by
    unfold ndmpdDataCleanup ndmpdFreeNlist
    split <;> rfl
  have sock : session.closeListenSock.closeDataSock.ddState = session.closeListenSock.ddState := by
    unfold closeDataSock
    split
    · rfl
    · split <;> rfl
  rw [freed, sock, closeListenSock]
  split <;> rfl

theorem ddState_ndmpdSaveEnv (session : DataServer) (env : List Pval) (memory : Allocations) :
    (session.ndmpdSaveEnv env memory).1.ddState = session.ddState := by
  unfold ndmpdSaveEnv
  split
  · rfl
  · split
    · rfl
    · split <;> rfl

theorem ddState_ndmpdSaveNlistV3 (session : DataServer) (nlist : List NameV3)
    (memory : Allocations) :
    (session.ndmpdSaveNlistV3 nlist memory).1.ddState = session.ddState := by
  unfold ndmpdSaveNlistV3
  split
  · rfl
  · split
    · rfl
    · split <;> rfl

/-! ## What a start request comes to -/

/-- How `start_backup_v3` and `start_recover_v3` end: with an error that is still to be
replied to; after a reply of their own; without the reply; without a thread; or with a
worker. -/
inductive Starts (operation : DataOperation) (request : StartRequest) (before next : DataServer) :
    NdmpError → Prop where
  | refused {error : NdmpError} :
      error ≠ .noErr → next.ledger = before.ledger → next.ddState = before.ddState →
        Starts operation request before next error
  | denied (error : NdmpError) :
      before.ddState = .connected →
        next.ledger = (before.replies ++ [error], before.threads) →
          Starts operation request before next .noErr
  | unsent :
      before.ddState = .connected → request.responseSent = false →
        next.ledger = before.ledger → Starts operation request before next .noErr
  | threadless {error : NdmpError} :
      before.ddState = .connected → request.responseSent = true →
        request.threadCreated = false → error ≠ .noErr →
        next.ledger = (before.replies ++ [.noErr], before.threads) →
          Starts operation request before next error
  | started :
      before.ddState = .connected →
        request.responseSent = true → request.threadCreated = true →
        next.ddState = .active →
        next.ledger = (before.replies ++ [.noErr], operation :: before.createdWorkers,
          before.runningWorkers, before.doneWorkers) →
          Starts operation request before next .noErr

theorem startBackupV3_starts (session : DataServer) (request : StartRequest) :
    Starts .backup request session (session.startBackupV3 request).1
      (session.startBackupV3 request).2 := by
  unfold startBackupV3
  by_cases state : session.ddState = .connected
  · rw [if_neg (not_not.mpr state)]
    by_cases isLocal : session.ddDataAddr = .local
    · rw [if_pos isLocal]
      exact .refused (by simp) rfl rfl
    · rw [if_neg isLocal]
      by_cases supported : supportedType request.buType = true
      · rw [if_neg (not_not.mpr supported)]
        have savedLedger := ledger_ndmpdSaveEnv session request.env request.envMemory
        have savedState := ddState_ndmpdSaveEnv session request.env request.envMemory
        generalize session.ndmpdSaveEnv request.env request.envMemory = save
          at savedLedger savedState ⊢
        obtain ⟨saved, error⟩ := save
        by_cases accepted : error = .noErr
        · subst accepted
          dsimp only at savedLedger savedState ⊢
          by_cases allocated : request.paramsAllocated = true
          · rw [if_neg (not_not.mpr allocated)]
            by_cases denied : request.paramsError = .noErr
            · rw [if_neg (not_not.mpr denied)]
              by_cases sent : request.responseSent = true
              · rw [if_neg (not_not.mpr sent)]
                by_cases created : request.threadCreated = true
                · rw [if_neg (not_not.mpr created)]
                  refine .started state sent created rfl ?_
                  simp only [ledger, threads, Prod.mk.injEq] at savedLedger
                  simp [ledger, threads, ndmpSendReply, savedLedger]
                · rw [if_pos created]
                  refine .threadless state sent (eq_false_of_ne_true created) (by simp) ?_
                  simp only [ledger, threads, Prod.mk.injEq] at savedLedger
                  simp [ledger, threads, ndmpSendReply, savedLedger]
              · rw [if_pos sent]
                exact .unsent state (eq_false_of_ne_true sent) savedLedger
            · rw [if_pos denied]
              refine .denied request.paramsError state ?_
              rw [ledger_ndmpdApiDoneV3]
              simp only [ledger, threads, Prod.mk.injEq] at savedLedger
              simp [ledger, threads, ndmpSendReply, savedLedger]
          · rw [if_pos allocated]
            exact .refused (by simp) savedLedger savedState
        · cases error <;> first
            | exact absurd rfl accepted
            | exact .refused accepted savedLedger savedState
      · rw [if_pos supported]
        exact .refused (by simp) rfl rfl
  · rw [if_pos state]
    exact .refused (by simp) rfl rfl

theorem startRecoverV3_starts (session : DataServer) (request : StartRequest) :
    Starts .recover request session (session.startRecoverV3 request).1
      (session.startRecoverV3 request).2 := by
  unfold startRecoverV3
  by_cases state : session.ddState = .connected
  · rw [if_neg (not_not.mpr state)]
    by_cases supported : supportedType request.buType = true
    · rw [if_neg (not_not.mpr supported)]
      by_cases allocated : request.paramsAllocated = true
      · rw [if_neg (not_not.mpr allocated)]
        have savedLedger := ledger_ndmpdSaveEnv session request.env request.envMemory
        have savedState := ddState_ndmpdSaveEnv session request.env request.envMemory
        generalize session.ndmpdSaveEnv request.env request.envMemory = save
          at savedLedger savedState ⊢
        obtain ⟨saved, error⟩ := save
        by_cases accepted : error = .noErr
        · subst accepted
          have namedLedger := ledger_ndmpdSaveNlistV3 saved request.nlist request.nlistMemory
          have namedState := ddState_ndmpdSaveNlistV3 saved request.nlist request.nlistMemory
          dsimp only at savedLedger savedState namedLedger namedState ⊢
          generalize saved.ndmpdSaveNlistV3 request.nlist request.nlistMemory = save
            at namedLedger namedState ⊢
          obtain ⟨named, nlistError⟩ := save
          dsimp only at namedLedger namedState ⊢
          rw [savedLedger] at namedLedger
          rw [savedState] at namedState
          by_cases listed : nlistError = .noErr
          · subst listed
            dsimp only
            by_cases denied : request.paramsError = .noErr
            · rw [if_neg (not_not.mpr denied)]
              by_cases sent : request.responseSent = true
              · rw [if_neg (not_not.mpr sent)]
                simp only [ledger, threads, Prod.mk.injEq] at namedLedger
                by_cases created : request.threadCreated = true
                · rw [if_neg (not_not.mpr created)]
                  refine .started state sent created rfl ?_
                  simp [ledger, threads, ndmpSendReply, namedLedger]
                · rw [if_pos created]
                  refine .threadless state sent (eq_false_of_ne_true created) (by simp) ?_
                  simp [ledger, threads, ndmpSendReply, namedLedger]
              · rw [if_pos sent]
                refine .unsent state (eq_false_of_ne_true sent) ?_
                rw [ledger_ndmpdDataError]
                exact namedLedger
            · rw [if_pos denied]
              exact .refused denied namedLedger namedState
          · cases nlistError <;> first
              | exact absurd rfl listed
              | exact .refused (by simp) namedLedger namedState
        · cases error <;> first
            | exact absurd rfl accepted
            | exact .refused (by simp) savedLedger savedState
      · rw [if_pos allocated]
        exact .refused (by simp) rfl rfl
    · rw [if_pos supported]
      exact .refused (by simp) rfl rfl
  · rw [if_pos state]
    exact .refused (by simp) rfl rfl

/-! ## The handlers -/

/-- What a start request has done when its handler returns. -/
inductive Handled (operation : DataOperation) (request : StartRequest)
    (before next : DataServer) : Prop where
  | answered (error : NdmpError) :
      (before.ddState = .active → operation = .backup → next.ddState = .active) →
      (before.ddState = .halted → next.ddState = .halted) →
        next.ledger = (before.replies ++ [error], before.threads) →
          Handled operation request before next
  | unanswered :
      before.ddState = .connected → request.responseSent = false →
        next.ledger = before.ledger → Handled operation request before next
  | twice (error : NdmpError) :
      before.ddState = .connected → request.threadCreated = false →
        next.ledger = (before.replies ++ [.noErr, error], before.threads) →
          Handled operation request before next
  | started :
      before.ddState = .connected → next.ddState = .active →
        next.ledger = (before.replies ++ [.noErr], operation :: before.createdWorkers,
          before.runningWorkers, before.doneWorkers) → Handled operation request before next

section Handlers

variable {request : StartRequest} {started : DataServer} {error : NdmpError}

theorem ndmpdDataStartBackupV3_of_ok (result : session.startBackupV3 request = (started, .noErr)) :
    session.ndmpdDataStartBackupV3 request = started := by
  rw [ndmpdDataStartBackupV3, result]

theorem ndmpdDataStartBackupV3_of_error (result : session.startBackupV3 request = (started, error))
    (failed : error ≠ .noErr) : session.ndmpdDataStartBackupV3 request =
      (started.ndmpSendReply error).ndmpdDataCleanup := by
  unfold ndmpdDataStartBackupV3
  rw [result]
  cases error <;> first | rfl | exact absurd rfl failed

theorem ndmpdDataStartRecoverV3_of_ok
    (result : session.startRecoverV3 request = (started, .noErr)) :
    session.ndmpdDataStartRecoverV3 request = started := by
  rw [ndmpdDataStartRecoverV3, result]

theorem ndmpdDataStartRecoverV3_of_error
    (result : session.startRecoverV3 request = (started, error)) (failed : error ≠ .noErr) :
    session.ndmpdDataStartRecoverV3 request =
      ((started.ndmpSendReply error).ndmpdDataError .internalError).ndmpdDataCleanup := by
  unfold ndmpdDataStartRecoverV3
  rw [result]
  cases error <;> first | rfl | exact absurd rfl failed

/-- A reply more. -/
theorem ledger_ndmpSendReply (session : DataServer) (error : NdmpError) :
    (session.ndmpSendReply error).ledger =
      (session.replies ++ [error], session.threads) := rfl

theorem ledger_eq {other : DataServer} {replies : List NdmpError}
    {threads : List DataOperation × List DataOperation × List DataOperation}
    (same : other.ledger = (replies, threads)) :
    other.replies = replies ∧ other.threads = threads := by
  simpa [ledger] using same

/-- A reply that follows steps which leave the ledger alone. -/
theorem ledger_reply_of_same {other : DataServer} {error : NdmpError}
    (same : other.ledger = session.ledger) : (other.ndmpSendReply error).ledger =
      (session.replies ++ [error], session.threads) := by
  obtain ⟨replies, threads⟩ := ledger_eq same
  rw [ledger_ndmpSendReply, replies, threads]

theorem handled_startBackup (session : DataServer) (request : StartRequest) :
    Handled .backup request session (session.ndmpdDataStartBackupV3 request) := by
  have starts := session.startBackupV3_starts request
  rcases result : session.startBackupV3 request with ⟨next, error⟩
  rw [result] at starts
  cases starts with
  | refused failed same state =>
      rw [ndmpdDataStartBackupV3_of_error result failed]
      refine .answered error (fun active _ => ?_) (fun halted => ?_) ?_
      · rw [ddState_ndmpdDataCleanup]
        exact state.trans active
      · rw [ddState_ndmpdDataCleanup]
        exact state.trans halted
      · rw [ledger_ndmpdDataCleanup, ledger_reply_of_same same]
  | denied error connected same =>
      rw [ndmpdDataStartBackupV3_of_ok result]
      refine .answered error (fun active _ => ?_) (fun halted => ?_) same
      · cases connected.symm.trans active
      · cases connected.symm.trans halted
  | unsent connected unsent same =>
      rw [ndmpdDataStartBackupV3_of_ok result]
      exact .unanswered connected unsent same
  | threadless connected _ threadless failed same =>
      obtain ⟨replies, threads⟩ := ledger_eq same
      rw [ndmpdDataStartBackupV3_of_error result failed]
      refine .twice error connected threadless ?_
      rw [ledger_ndmpdDataCleanup, ledger_ndmpSendReply, replies, threads,
        List.append_assoc, List.singleton_append]
  | started connected _ _ active same =>
      rw [ndmpdDataStartBackupV3_of_ok result]
      exact .started connected active same

theorem handled_startRecover (session : DataServer) (request : StartRequest) :
    Handled .recover request session (session.ndmpdDataStartRecoverV3 request) := by
  have starts := session.startRecoverV3_starts request
  rcases result : session.startRecoverV3 request with ⟨next, error⟩
  rw [result] at starts
  cases starts with
  | refused failed same state =>
      rw [ndmpdDataStartRecoverV3_of_error result failed]
      refine .answered error (fun _ isBackup => by cases isBackup) (fun halted => ?_) ?_
      · rw [ddState_ndmpdDataCleanup, ndmpdDataError, if_pos (.inr (state.trans halted))]
        exact state.trans halted
      · rw [ledger_ndmpdDataCleanup, ledger_ndmpdDataError, ledger_reply_of_same same]
  | denied error connected same =>
      rw [ndmpdDataStartRecoverV3_of_ok result]
      refine .answered error (fun _ isBackup => by cases isBackup) (fun halted => ?_) same
      cases connected.symm.trans halted
  | unsent connected unsent same =>
      rw [ndmpdDataStartRecoverV3_of_ok result]
      exact .unanswered connected unsent same
  | threadless connected _ threadless failed same =>
      obtain ⟨replies, threads⟩ := ledger_eq same
      rw [ndmpdDataStartRecoverV3_of_error result failed]
      refine .twice error connected threadless ?_
      rw [ledger_ndmpdDataCleanup, ledger_ndmpdDataError, ledger_ndmpSendReply, replies, threads,
        List.append_assoc, List.singleton_append]
  | started connected _ _ active same =>
      rw [ndmpdDataStartRecoverV3_of_ok result]
      exact .started connected active same

/-- The other handlers answer once. An operation that is `ACTIVE` stays so, and a `HALTED`
one while a worker is left. -/
structure Answered (before next : DataServer) : Prop where
  reply : ∃ error, next.ledger = (before.replies ++ [error], before.threads)
  active : before.ddState = .active → next.ddState = .active
  halted : before.ddState = .halted → before.doneWorkers ≠ [] → next.ddState = .halted

theorem answered_reply (session : DataServer) (error : NdmpError) :
    session.Answered (session.ndmpSendReply error) := ⟨⟨error, rfl⟩, id, fun halted _ => halted⟩

/-- An answer to a request in state `IDLE`. -/
theorem answered_idle {next : DataServer} (idle : session.ddState = .idle) (error : NdmpError)
    (same : next.ledger = (session.replies ++ [error], session.threads)) :
    session.Answered next where
  reply := ⟨error, same⟩
  active active := by cases idle.symm.trans active
  halted halted := by cases idle.symm.trans halted

theorem answered_listen (session : DataServer) (addrType : AddrType) (sock : Option Int)
    (handlerAllocated : Bool) :
    session.Answered (session.listen addrType sock handlerAllocated) := by
  unfold listen
  by_cases idle : session.ddState = .idle
  · rw [if_neg (not_not.mpr idle)]
    split
    · exact answered_reply session _
    · cases addrType with
      | «local» => exact answered_idle idle _ rfl
      | tcp =>
          cases sock with
          | none => exact answered_idle idle .ioErr rfl
          | some fd => cases handlerAllocated <;> exact answered_idle idle _ rfl
      | fc | ipc | unknown => exact answered_reply session _
  · rw [if_pos idle]
    exact answered_reply session _

theorem answered_connect (session : DataServer) (addrType : AddrType) (sock : Option Int) :
    session.Answered (session.connect addrType sock) := by
  unfold connect
  split
  · exact answered_reply session _
  · by_cases idle : session.ddState = .idle
    · rw [if_neg (not_not.mpr idle)]
      cases addrType with
      | «local» =>
          dsimp only
          split
          · exact answered_reply session _
          · exact answered_idle idle _ rfl
      | tcp => cases sock <;> exact answered_idle idle _ rfl
      | fc | ipc | unknown => exact answered_reply session _
    · rw [if_pos idle]
      exact answered_reply session _

@[simp]
theorem ledger_ndmpdDataInit (session : DataServer) :
    session.ndmpdDataInit.ledger = session.ledger := rfl

@[simp]
theorem ledger_ndmpdTarBackupAbortV3 (session : DataServer) :
    session.ndmpdTarBackupAbortV3.ledger = session.ledger := by
  unfold ndmpdTarBackupAbortV3
  split <;> rfl

@[simp]
theorem ledger_ndmpdTarRestoreAbortV3 (session : DataServer) :
    session.ndmpdTarRestoreAbortV3.ledger = session.ledger := by
  unfold ndmpdTarRestoreAbortV3
  split <;> rfl

theorem ddState_ndmpdTarBackupAbortV3 (session : DataServer) :
    session.ndmpdTarBackupAbortV3.ddState = session.ddState := by
  unfold ndmpdTarBackupAbortV3
  split <;> rfl

theorem ddState_ndmpdTarRestoreAbortV3 (session : DataServer) :
    session.ndmpdTarRestoreAbortV3.ddState = session.ddState := by
  unfold ndmpdTarRestoreAbortV3
  split <;> rfl

theorem answered_abort (session : DataServer) : session.Answered session.ndmpdDataAbortV3 := by
  unfold ndmpdDataAbortV3
  cases state : session.ddState with
  | idle => exact answered_reply session _
  | active =>
      -- the operation stays `ACTIVE` until its thread sees `dd_abort`
      dsimp only
      have vacuous {next : DataServer} (halted : session.ddState = .halted) :
          next.ddState = .halted := by
        cases state.symm.trans halted
      cases session.dmAbortFunc with
      | none => exact ⟨⟨.noErr, rfl⟩, fun _ => rfl, fun halted _ => vacuous halted⟩
      | some operation =>
          cases operation with
          | noaction => exact ⟨⟨.noErr, rfl⟩, fun _ => rfl, fun halted _ => vacuous halted⟩
          | backup =>
              exact ⟨⟨.noErr, ledger_reply_of_same (ledger_ndmpdTarBackupAbortV3 _)⟩,
                fun _ => ddState_ndmpdTarBackupAbortV3 _, fun halted _ => vacuous halted⟩
          | recover =>
              exact ⟨⟨.noErr, ledger_reply_of_same (ledger_ndmpdTarRestoreAbortV3 _)⟩,
                fun _ => ddState_ndmpdTarRestoreAbortV3 _, fun halted _ => vacuous halted⟩
  | halted =>
      refine ⟨⟨.noErr, ledger_reply_of_same (ledger_ndmpdDataError _ _)⟩, fun active => ?_,
        fun _ _ => ?_⟩
      · cases state.symm.trans active
      · simp [ndmpdDataError, ndmpSendReply]
  | listen | connected =>
      refine ⟨⟨.noErr, ledger_reply_of_same (ledger_ndmpdDataError _ _)⟩, fun active => ?_,
        fun halted _ => ?_⟩
      · cases state.symm.trans active
      · cases state.symm.trans halted

theorem answered_stop {next : DataServer} (taken : session.ndmpdDataStopV3 = some next) :
    session.Answered next := by
  unfold ndmpdDataStopV3 at taken
  by_cases halted : session.ddState = .halted
  · rw [if_neg (not_not.mpr halted), Option.ite_none_left_eq_some, Option.some.injEq] at taken
    obtain ⟨waited, rfl⟩ := taken
    refine ⟨⟨.noErr, ledger_reply_of_same (by simp)⟩, fun active => ?_, fun _ left => ?_⟩
    · cases halted.symm.trans active
    · exact absurd (.inr left) waited
  · rw [if_pos halted] at taken
    cases taken
    exact answered_reply session _

theorem ledger_dataAcceptConnectionV3 (session : DataServer) (fd : Int) (sock : Option Int) :
    (session.dataAcceptConnectionV3 fd sock).ledger = session.ledger := by
  unfold dataAcceptConnectionV3
  cases sock with
  | none => exact ledger_ndmpdDataError _ _
  | some accepted =>
      dsimp only
      split
      · exact ledger_ndmpdDataError _ _
      · rfl

theorem ledger_ndmpStopRemoteReader (session : DataServer) :
    session.ndmpStopRemoteReader.ledger = session.ledger := by
  unfold ndmpStopRemoteReader
  split <;> rfl

end Handlers

/-! ## One answer for each request -/

/-- A request of the client, as against a callback or a step of a worker. -/
def isRequest : DataAction → Bool
  | .listenV3 .. | .listenV4 .. | .connectV3 .. | .connectV4 .. | .startBackup _
  | .startRecover _ | .abort | .stop => true
  | .acceptConnection .. | .workerStarts _ | .stopRemoteReader | .operationDone ..
  | .workerExits _ => false

/-- A start request finds its connection and the thread it needs. -/
def Serves (session : DataServer) : DataAction → Prop
  | .startBackup request | .startRecover request =>
      session.ddState = .connected → request.responseSent = true ∧ request.threadCreated = true
  | .listenV3 .. | .listenV4 .. | .connectV3 .. | .connectV4 .. | .abort | .stop
  | .acceptConnection .. | .workerStarts _ | .stopRemoteReader | .operationDone ..
  | .workerExits _ => True

instance (session : DataServer) (action : DataAction) : Decidable (session.Serves action) :=
  match action with
  | .startBackup _ | .startRecover _ => inferInstanceAs (Decidable (_ → _ ∧ _))
  | .listenV3 .. | .listenV4 .. | .connectV3 .. | .connectV4 .. | .abort | .stop
  | .acceptConnection .. | .workerStarts _ | .stopRemoteReader | .operationDone ..
  | .workerExits _ => isTrue trivial

/-- Of a start request that is served there is one reply. -/
theorem Handled.reply {operation : DataOperation} {request : StartRequest}
    {before next : DataServer} (handled : Handled operation request before next)
    (served : before.ddState = .connected →
      request.responseSent = true ∧ request.threadCreated = true) :
    ∃ error, next.replies = before.replies ++ [error] := by
  cases handled with
  | answered error _ _ same => exact ⟨error, (ledger_eq same).1⟩
  | unanswered connected unsent _ => cases unsent.symm.trans (served connected).1
  | twice _ connected threadless _ => cases threadless.symm.trans (served connected).2
  | started _ _ same => exact ⟨.noErr, (ledger_eq same).1⟩

theorem Answered.replies {before next : DataServer} (answered : before.Answered next) :
    ∃ error, next.replies = before.replies ++ [error] := by
  obtain ⟨error, same⟩ := answered.reply
  exact ⟨error, (ledger_eq same).1⟩

/-- **One step**: a request adds a reply, and nothing else does. -/
theorem replies_step {next : DataServer} {action : DataAction} (served : session.Serves action)
    (taken : session.step action = some next) :
    ∃ added, next.replies = session.replies ++ added ∧
      added.length = if isRequest action then 1 else 0 := by
  have one : (∃ error, next.replies = session.replies ++ [error]) → isRequest action = true →
      ∃ added, next.replies = session.replies ++ added ∧
        added.length = if isRequest action then 1 else 0 := by
    rintro ⟨error, replied⟩ request
    exact ⟨[error], replied, by rw [if_pos request, List.length_singleton]⟩
  have silent : next.ledger.1 = session.ledger.1 → isRequest action = false →
      ∃ added, next.replies = session.replies ++ added ∧
        added.length = if isRequest action then 1 else 0 := by
    intro same callback
    exact ⟨[], by rw [List.append_nil]; exact same, by rw [callback]; rfl⟩
  cases action with
  | listenV3 addrType sock handlerAllocated | listenV4 addrType sock handlerAllocated =>
      obtain ⟨-, rfl⟩ := Foundation.System.of_guarded taken
      exact one (answered_listen session addrType sock handlerAllocated).replies rfl
  | connectV3 addrType sock | connectV4 addrType sock =>
      obtain ⟨-, rfl⟩ := Foundation.System.of_guarded taken
      exact one (answered_connect session addrType sock).replies rfl
  | startBackup request =>
      cases taken
      exact one ((handled_startBackup session request).reply served) rfl
  | startRecover request =>
      cases taken
      exact one ((handled_startRecover session request).reply served) rfl
  | abort =>
      cases taken
      exact one (answered_abort session).replies rfl
  | stop => exact one (answered_stop taken).replies rfl
  | acceptConnection fd sock =>
      obtain ⟨-, rfl⟩ := Foundation.System.of_guarded taken
      exact silent (congrArg Prod.fst (ledger_dataAcceptConnectionV3 session fd sock)) rfl
  | workerStarts operation =>
      obtain ⟨-, rfl⟩ := Foundation.System.of_guarded taken
      exact silent rfl rfl
  | stopRemoteReader =>
      obtain ⟨-, rfl⟩ := Foundation.System.of_guarded taken
      exact silent (congrArg Prod.fst (ledger_ndmpStopRemoteReader session)) rfl
  | operationDone operation err =>
      obtain ⟨-, rfl⟩ := Foundation.System.of_guarded taken
      have same : (session.ndmpdApiDoneV3 err).replies = session.replies :=
        (ledger_eq (ledger_ndmpdApiDoneV3 session err)).1
      exact silent same rfl
  | workerExits operation =>
      obtain ⟨-, rfl⟩ := Foundation.System.of_guarded taken
      exact silent rfl rfl

/-- **One answer for each request**: while start requests get their connection and their thread,
a run adds as many replies as it has requests, behind those sent before. -/
theorem replies_of_run {next : DataServer} {actions : List DataAction}
    (ran : system.run Serves session actions = some next) :
    ∃ added, next.replies = session.replies ++ added ∧
      added.length = actions.countP isRequest := by
  induction actions generalizing session with
  | nil =>
      cases ran
      exact ⟨[], (List.append_nil _).symm, rfl⟩
  | cons action actions ih =>
      rw [Foundation.System.run, Option.ite_none_right_eq_some, Option.bind_eq_some_iff] at ran
      obtain ⟨served, middle, taken, rest⟩ := ran
      obtain ⟨first, replied, one⟩ := replies_step served taken
      obtain ⟨others, more, many⟩ := ih rest
      refine ⟨first ++ others, by rw [more, replied, List.append_assoc], ?_⟩
      rw [List.length_append, one, many, List.countP_cons, Nat.add_comm]

/-- A listening data server is started too early, aborted and stopped. -/
def stoppedRun : List DataAction :=
  [.listenV4 .tcp (some 7) true, .acceptConnection 7 (some 8), .startBackup earlyBackup,
    .workerStarts .backup, .abort, .operationDone .backup 4, .workerExits .backup,
    .stop]

/-- Four requests, four replies. -/
theorem replies_of_run_stopped :
    ∃ session, system.run Serves (initial 3 4) stoppedRun = some session ∧
      ∃ added, session.replies = [] ++ added ∧ added.length = 4 := by
  have runs : (system.run Serves (initial 3 4) stoppedRun).isSome = true := by decide
  obtain ⟨session, ran⟩ := Option.isSome_iff_exists.mp runs
  exact ⟨session, ran, replies_of_run ran⟩

/-! ## One worker at most -/

/-- A restore request that is refused halts the operation that is running. -/
def HaltsOperation (session : DataServer) : DataAction → Prop
  | .startRecover _ => session.ddState = .active
  | .listenV3 .. | .listenV4 .. | .connectV3 .. | .connectV4 .. | .startBackup _ | .abort | .stop
  | .acceptConnection .. | .workerStarts _ | .stopRemoteReader | .operationDone ..
  | .workerExits _ => False

instance (session : DataServer) (action : DataAction) :
    Decidable (session.HaltsOperation action) :=
  match action with
  | .startRecover _ => inferInstanceAs (Decidable (_ = _))
  | .listenV3 .. | .listenV4 .. | .connectV3 .. | .connectV4 .. | .startBackup _ | .abort | .stop
  | .acceptConnection .. | .workerStarts _ | .stopRemoteReader | .operationDone ..
  | .workerExits _ => isFalse id

/-- The steps of a session whose operations end by themselves or by an abort. -/
def Orderly (session : DataServer) (action : DataAction) : Prop :=
  ¬ session.StrandsSocket action ∧ ¬ session.HaltsOperation action

instance (session : DataServer) (action : DataAction) : Decidable (session.Orderly action) :=
  inferInstanceAs (Decidable (_ ∧ _))

/-- The workers with an operation to do, whether they hold a session reference yet or not. -/
def workers (session : DataServer) : List DataOperation :=
  session.createdWorkers ++ session.runningWorkers

/-- One worker at most: while it has an operation to do the data server is `ACTIVE`, and
behind that it is `HALTED` until the worker is gone. -/
structure OneWorker (session : DataServer) : Prop where
  few : session.workers.length + session.doneWorkers.length ≤ 1
  working : session.workers ≠ [] → session.ddState = .active
  done : session.doneWorkers ≠ [] → session.ddState = .halted

/-- Where the data server is neither `ACTIVE` nor `HALTED` there is no worker. -/
theorem OneWorker.none_of_resting (lone : session.OneWorker)
    (inactive : session.ddState ≠ .active) (unhalted : session.ddState ≠ .halted) :
    session.workers = [] ∧ session.doneWorkers = [] := by
  constructor
  · by_contra working
    exact inactive (lone.working working)
  · by_contra left
    exact unhalted (lone.done left)

theorem workers_of_ledger {other : DataServer} (same : other.ledger.2 = session.ledger.2) :
    other.workers = session.workers ∧ other.doneWorkers = session.doneWorkers := by
  simp only [ledger, threads, Prod.mk.injEq] at same
  exact ⟨by rw [workers, workers, same.1, same.2.1], same.2.2⟩

/-- A step that keeps the workers, and the states that they need. -/
theorem OneWorker.kept {next : DataServer} (lone : session.OneWorker)
    (same : next.ledger.2 = session.ledger.2)
    (active : session.ddState = .active → next.ddState = .active)
    (halted : session.ddState = .halted → session.doneWorkers ≠ [] → next.ddState = .halted) :
    next.OneWorker := by
  obtain ⟨workers, done⟩ := workers_of_ledger same
  refine ⟨by rw [workers, done]; exact lone.few, fun working => ?_, fun left => ?_⟩
  · exact active (lone.working (workers ▸ working))
  · rw [done] at left
    exact halted (lone.done left) left

theorem OneWorker.answered {next : DataServer} (lone : session.OneWorker)
    (answered : session.Answered next) : next.OneWorker := by
  obtain ⟨error, same⟩ := answered.reply
  refine lone.kept ?_ answered.active answered.halted
  rw [same]
  rfl

/-- A start request finds no worker and leaves one at most. -/
theorem OneWorker.handled {operation : DataOperation} {request : StartRequest}
    {next : DataServer} (lone : session.OneWorker)
    (handled : Handled operation request session next)
    (running : session.ddState = .active → operation = .backup) : next.OneWorker := by
  cases handled with
  | answered error active halted same =>
      exact lone.kept (by rw [same]; rfl) (fun state => active state (running state))
        fun state _ => halted state
  | unanswered connected _ same =>
      refine lone.kept (by rw [same]) (fun state => ?_) fun state _ => ?_ <;>
        cases connected.symm.trans state
  | twice error connected _ same =>
      refine lone.kept (by rw [same]; rfl) (fun state => ?_) fun state _ => ?_ <;>
        cases connected.symm.trans state
  | started connected active same =>
      have threads := (ledger_eq same).2
      simp only [DataServer.threads, Prod.mk.injEq] at threads
      obtain ⟨created, running, left⟩ := threads
      obtain ⟨none, gone⟩ := lone.none_of_resting (by simp [connected]) (by simp [connected])
      have workers : next.workers = [operation] := by
        rw [workers, created, running, List.cons_append]
        exact congrArg (operation :: ·) none
      have done : next.doneWorkers = [] := left.trans gone
      exact ⟨by rw [workers, done]; exact Nat.le_refl 1, fun _ => active,
        fun other => absurd done other⟩

/-- A worker that takes its session reference is the same worker. -/
theorem OneWorker.workerStarts {operation : DataOperation} (lone : session.OneWorker)
    (created : operation ∈ session.createdWorkers) :
    ({ session with
      dmModuleCookie := true
      createdWorkers := session.createdWorkers.erase operation
      runningWorkers := operation :: session.runningWorkers } : DataServer).OneWorker := by
  have working : session.workers ≠ [] := by
    intro none
    rw [(List.append_eq_nil_iff.mp none).1] at created
    cases created
  refine ⟨?_, fun _ => lone.working working, lone.done⟩
  have length := List.length_erase_of_mem created
  have positive := List.length_pos_of_mem created
  have few := lone.few
  simp only [workers, List.length_append, List.length_cons] at few ⊢
  omega

/-- A worker that is done leaves the data server `HALTED`. -/
theorem OneWorker.operationDone {connection : Int} {operation : DataOperation}
    (lone : session.OneWorker) (sound : session.Sound connection)
    (running : operation ∈ session.runningWorkers) (err : Nat) :
    ({ session.ndmpdApiDoneV3 err with
      runningWorkers := session.runningWorkers.erase operation
      doneWorkers := operation :: session.doneWorkers } : DataServer).OneWorker := by
  have threads := (ledger_eq (ledger_ndmpdApiDoneV3 session err)).2
  simp only [DataServer.threads, Prod.mk.injEq] at threads
  obtain ⟨created, -, -⟩ := threads
  have working : session.workers ≠ [] := by
    intro none
    rw [(List.append_eq_nil_iff.mp none).2] at running
    cases running
  have active := lone.working working
  have halted : (session.ndmpdApiDoneV3 err).ddState = .halted := by
    unfold ndmpdApiDoneV3
    rw [sound.ndmpdDataError _ (by simp [active])]
  have length := List.length_erase_of_mem running
  have positive := List.length_pos_of_mem running
  have few := lone.few
  have gone : ({ session.ndmpdApiDoneV3 err with
      runningWorkers := session.runningWorkers.erase operation
      doneWorkers := operation :: session.doneWorkers } : DataServer).workers = [] := by
    rw [← List.length_eq_zero_iff]
    simp only [workers, List.length_append, created] at few ⊢
    omega
  refine ⟨?_, fun other => absurd gone other, fun _ => halted⟩
  rw [gone]
  simp only [workers, List.length_append, List.length_nil, List.length_cons] at few ⊢
  omega

/-- A worker that exits is gone. -/
theorem OneWorker.workerExits {operation : DataOperation} (lone : session.OneWorker)
    (left : operation ∈ session.doneWorkers) :
    ({ session with doneWorkers := session.doneWorkers.erase operation } :
      DataServer).OneWorker := by
  have length := List.length_erase_of_mem left
  have few := lone.few
  refine ⟨?_, lone.working, fun _ => lone.done (List.ne_nil_of_mem left)⟩
  change session.workers.length + (session.doneWorkers.erase operation).length ≤ 1
  omega

theorem OneWorker.accept {connection fd : Int} {sock : Option Int} (lone : session.OneWorker)
    (sound : session.Sound connection)
    (member : ⟨fd, .dataAcceptConnectionV3⟩ ∈ session.nsFileHandlerList) :
    (session.dataAcceptConnectionV3 fd sock).OneWorker := by
  have listening := (sound.listenSock (sound.accept_handler member).2).2.2.2
  refine lone.kept (by rw [ledger_dataAcceptConnectionV3]) (fun active => ?_) fun halted _ => ?_
  · cases listening.symm.trans active
  · cases listening.symm.trans halted

/-- **One step** of an orderly session keeps the bound on the workers. -/
theorem OneWorker.step {connection : Int} {next : DataServer} {action : DataAction}
    (sound : session.Sound connection) (lone : session.OneWorker)
    (orderly : ¬ session.HaltsOperation action) (taken : session.step action = some next) :
    next.OneWorker := by
  cases action with
  | listenV3 addrType sock handlerAllocated | listenV4 addrType sock handlerAllocated =>
      obtain ⟨-, rfl⟩ := Foundation.System.of_guarded taken
      exact lone.answered (answered_listen session addrType sock handlerAllocated)
  | connectV3 addrType sock | connectV4 addrType sock =>
      obtain ⟨-, rfl⟩ := Foundation.System.of_guarded taken
      exact lone.answered (answered_connect session addrType sock)
  | startBackup request =>
      cases taken
      exact lone.handled (handled_startBackup session request) fun _ => rfl
  | startRecover request =>
      cases taken
      exact lone.handled (handled_startRecover session request) fun active => absurd active orderly
  | abort =>
      cases taken
      exact lone.answered (answered_abort session)
  | stop => exact lone.answered (answered_stop taken)
  | acceptConnection fd sock =>
      obtain ⟨⟨member, -⟩, rfl⟩ := Foundation.System.of_guarded taken
      exact lone.accept sound member
  | workerStarts operation =>
      obtain ⟨created, rfl⟩ := Foundation.System.of_guarded taken
      exact lone.workerStarts created
  | stopRemoteReader =>
      obtain ⟨-, rfl⟩ := Foundation.System.of_guarded taken
      have state : session.ndmpStopRemoteReader.ddState = session.ddState := by
        unfold ndmpStopRemoteReader
        split <;> rfl
      exact lone.kept (by rw [ledger_ndmpStopRemoteReader]) state.trans fun halted _ =>
        state.trans halted
  | operationDone operation err =>
      obtain ⟨running, rfl⟩ := Foundation.System.of_guarded taken
      exact lone.operationDone sound running err
  | workerExits operation =>
      obtain ⟨left, rfl⟩ := Foundation.System.of_guarded taken
      exact lone.workerExits left

/-- **One worker at most** in every orderly run: the backups and restores of a session run one
after the other. While a worker has its operation to do the data server is `ACTIVE`; when it
has reported the end the data server is `HALTED`, and stays so until the worker is gone. -/
theorem workers_of_reachable (reached : system.ReachableBy Orderly session) :
    (session.workers ++ session.doneWorkers).length ≤ 1 ∧
      (session.workers ≠ [] → session.ddState = .active) ∧
      (session.doneWorkers ≠ [] → session.ddState = .halted) := by
  have lone : ∃ connection, session.Sound connection ∧ session.OneWorker := by
    refine reached.invariant (fun session => ∃ connection, session.Sound connection ∧
      session.OneWorker) ?_ ?_
    · rintro _ ⟨connection, version, valid, supported, rfl⟩
      refine ⟨connection, Sound.initial valid supported, Nat.zero_le 1, fun working => ?_,
        fun left => ?_⟩
      · exact absurd rfl working
      · exact absurd rfl left
    · rintro session action next ⟨connection, sound, lone⟩ ⟨kept, orderly⟩ taken
      exact ⟨connection, sound.step kept taken, lone.step sound orderly taken⟩
  obtain ⟨-, -, lone⟩ := lone
  exact ⟨by rw [List.length_append]; exact lone.few, lone.working, lone.done⟩

/-- A backup that was aborted has reported so, and its thread is still there. -/
theorem workers_of_reachable_backup :
    ∃ session, system.run Orderly (initial 3 4) (stoppedRun.take 6) = some session ∧
      session.doneWorkers = [.backup] ∧
      (session.workers ++ session.doneWorkers).length ≤ 1 ∧
      (session.workers ≠ [] → session.ddState = .active) ∧
      (session.doneWorkers ≠ [] → session.ddState = .halted) := by
  have runs : (system.run Orderly (initial 3 4) (stoppedRun.take 6)).map doneWorkers =
      some [.backup] := by decide
  obtain ⟨session, ran, left⟩ := Option.map_eq_some_iff.mp runs
  have start : system.init (initial 3 4) := ⟨3, 4, by decide, .inr rfl, rfl⟩
  exact ⟨session, ran, left,
    workers_of_reachable (Foundation.System.ReachableBy.run (.init start) ran)⟩

end DataServer

end Ndmpd
