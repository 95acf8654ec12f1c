import Ndmpd.Session.DataServer

/-!
# Data-server state, sockets and file handlers

The state of the data server says which descriptors it holds: none at rest, a
registered listening socket in `LISTEN`, an open data socket in `CONNECTED`
(`Agrees`). The invariant behind it, `Sound`, names the whole file handler list and
says that a descriptor is held only in the states that know it.

Two kinds of step take a socket away and keep the state: a `DATA_START_BACKUP` that is
refused in `LISTEN` or `CONNECTED`, and the end of a restore whose thread was still
being created when the client stopped the data server and connected it anew
(`StrandsSocket`). All other steps keep the invariant.
-/

namespace Ndmpd

namespace DataServer

/-- State and descriptors agree. -/
structure Agrees (session : DataServer) : Prop where
  atRest : session.ddState = .idle ∨ session.ddState = .halted →
    session.ddSock = -1 ∧ session.ddListenSock = -1
  listening : session.ddState = .listen → session.ddDataAddr = .tcp →
    session.ddListenSock ∈ session.openDescriptors ∧
      session.nsFileHandlerList.countP (fun handler => handler.fhFd = session.ddListenSock) = 1
  connected : session.ddState = .connected → session.ddDataAddr = .tcp →
    session.ddSock ∈ session.openDescriptors
  handlers : ∀ handler ∈ session.nsFileHandlerList, handler.fhFd ∈ session.openDescriptors

/-- The file handlers of a session whose control connection is `connection`. -/
def handlersFor (connection listenSock : Int) : List FileHandler :=
  if listenSock = -1 then [⟨connection, .connectionFileHandler⟩]
  else [⟨listenSock, .dataAcceptConnectionV3⟩, ⟨connection, .connectionFileHandler⟩]

/-- Which handlers are registered, whatever the state. -/
structure Registered (connection : Int) (session : DataServer) : Prop where
  descriptors : ∀ fd ∈ session.openDescriptors, 0 ≤ fd
  handlers : session.nsFileHandlerList = handlersFor connection session.ddListenSock
  unregistered : session.ddSock ≠ -1 → session.ddSock ≠ connection ∧ session.ddListenSock = -1
  mover : session.mdState = .idle ∧ session.mdSock = -1
  version : session.nsProtocolVersion = 3 ∨ session.nsProtocolVersion = 4

/-- The invariant of the data server's descriptors. -/
structure Sound (connection : Int) (session : DataServer) : Prop
    extends Registered connection session where
  connection_open : connection ∈ session.openDescriptors
  sock : session.ddSock ≠ -1 → session.ddSock ∈ session.openDescriptors ∧
    session.ddDataAddr = .tcp ∧ (session.ddState = .connected ∨ session.ddState = .active)
  listenSock : session.ddListenSock ≠ -1 → session.ddListenSock ∈ session.openDescriptors ∧
    session.ddListenSock ≠ connection ∧ session.ddDataAddr = .tcp ∧ session.ddState = .listen
  listening : session.ddState = .listen → session.ddDataAddr = .tcp → session.ddListenSock ≠ -1
  connected : session.ddState = .connected → session.ddDataAddr = .tcp ∧ session.ddSock ≠ -1

variable {connection : Int} {session : DataServer}

theorem Sound.agrees (sound : session.Sound connection) : session.Agrees where
  atRest := by
    intro resting
    refine ⟨?_, ?_⟩ <;> by_contra held
    · rcases (sound.sock held).2.2 with state | state <;> simp [state] at resting
    · have state := (sound.listenSock held).2.2.2
      simp [state] at resting
  listening := by
    intro state network
    have held := sound.listening state network
    obtain ⟨isOpen, different, -, -⟩ := sound.listenSock held
    refine ⟨isOpen, ?_⟩
    simp [sound.handlers, handlersFor, held, different.symm]
  connected := by
    intro state network
    exact (sound.sock (sound.connected state).2).1
  handlers := by
    intro handler member
    rw [sound.handlers, handlersFor] at member
    split at member
    · rw [List.mem_singleton] at member
      subst member
      exact sound.connection_open
    · rename_i held
      simp only [List.mem_cons, List.not_mem_nil, or_false] at member
      rcases member with rfl | rfl
      · exact (sound.listenSock held).1
      · exact sound.connection_open

theorem Sound.initial {version : Nat} (valid : 0 ≤ connection)
    (supported : version = 3 ∨ version = 4) : (initial connection version).Sound connection where
  descriptors := by
    simpa [DataServer.initial] using valid
  handlers := rfl
  unregistered := by
    simp [DataServer.initial]
  mover := ⟨rfl, rfl⟩
  version := supported
  connection_open := by
    simp [DataServer.initial]
  sock := by
    simp [DataServer.initial]
  listenSock := by
    simp [DataServer.initial]
  listening := by
    simp [DataServer.initial]
  connected := by
    simp [DataServer.initial]

theorem Registered.negative_not_mem (registered : session.Registered connection) :
    (-1 : Int) ∉ session.openDescriptors := by
  intro member
  have nonnegative := registered.descriptors _ member
  omega

/-- Both sockets given up: unregistered, closed and forgotten. -/
def released (connection : Int) (session : DataServer) : DataServer :=
  { session with
    nsFileHandlerList := [⟨connection, .connectionFileHandler⟩]
    openDescriptors := session.openDescriptors.filter fun fd =>
      fd ≠ session.ddListenSock ∧ fd ≠ session.ddSock
    ddSock := -1
    ddListenSock := -1 }

theorem filter_ne_absent {fds : List Int} {fd : Int} (absent : fd ∉ fds) :
    fds.filter (· ≠ fd) = fds := by
  rw [List.filter_eq_self]
  intro other member
  simpa using fun same : other = fd => absent (same ▸ member)

theorem Registered.closeListenSock (registered : session.Registered connection) :
    session.closeListenSock = { session with
      nsFileHandlerList := [⟨connection, .connectionFileHandler⟩]
      openDescriptors := session.openDescriptors.filter (· ≠ session.ddListenSock)
      ddListenSock := -1 } := by
  have handlers := registered.handlers
  by_cases closed : session.ddListenSock = -1
  · rw [closed, handlersFor, if_pos rfl] at handlers
    rw [DataServer.closeListenSock, if_pos closed, closed,
      filter_ne_absent registered.negative_not_mem, ← handlers, ← closed]
  · rw [handlersFor, if_neg closed] at handlers
    rw [DataServer.closeListenSock, if_neg closed]
    simp [ndmpdRemoveFileHandler, close, handlers]

theorem closeDataSock_eq (unshared : session.mdSock = -1)
    (valid : (-1 : Int) ∉ session.openDescriptors) :
    session.closeDataSock = { session with
      openDescriptors := session.openDescriptors.filter (· ≠ session.ddSock)
      ddSock := -1 } := by
  by_cases closed : session.ddSock = -1
  · rw [DataServer.closeDataSock, if_pos closed, closed, filter_ne_absent valid, ← closed]
  · rw [DataServer.closeDataSock, if_neg closed, if_neg (by rw [unshared]; exact closed)]
    rfl

/-- The data socket has no file handler to remove. -/
theorem Registered.removeDataHandler (registered : session.Registered connection) :
    (if session.ddSock = -1 then session else session.ndmpdRemoveFileHandler session.ddSock) =
      session := by
  by_cases held : session.ddSock = -1
  · exact if_pos held
  · obtain ⟨different, closed⟩ := registered.unregistered held
    have handlers := registered.handlers
    rw [closed, handlersFor, if_pos rfl] at handlers
    have kept : (session.nsFileHandlerList.eraseP fun handler =>
        handler.fhFd = session.ddSock) = session.nsFileHandlerList := by
      rw [handlers]
      simp [different.symm]
    rw [if_neg held, ndmpdRemoveFileHandler, kept]

/-- Closing both sockets in the order of `ndmpd_data_cleanup`. -/
theorem Registered.closeListenSock_closeDataSock (registered : session.Registered connection) :
    session.closeListenSock.closeDataSock = session.released connection := by
  rw [registered.closeListenSock, closeDataSock_eq]
  · simp [released, List.filter_filter, and_comm]
  · exact registered.mover.2
  · exact fun member => registered.negative_not_mem (List.mem_filter.mp member).1

/-- Closing both sockets in the order of `ndmpd_data_error`. -/
theorem Registered.closeDataSock_closeListenSock (registered : session.Registered connection) :
    session.closeDataSock.closeListenSock = session.released connection := by
  rw [closeDataSock_eq registered.mover.2 registered.negative_not_mem]
  have closed : ({ session with
      openDescriptors := session.openDescriptors.filter (· ≠ session.ddSock)
      ddSock := -1 } : DataServer).Registered connection :=
    { registered with
      descriptors := fun fd member => registered.descriptors fd (List.mem_filter.mp member).1
      unregistered := fun held => absurd rfl held }
  rw [closed.closeListenSock]
  simp [released, List.filter_filter]

theorem Registered.released_of_closed (registered : session.Registered connection)
    (sockClosed : session.ddSock = -1) (listenClosed : session.ddListenSock = -1) :
    session.released connection = session := by
  have handlers := registered.handlers
  rw [listenClosed, handlersFor, if_pos rfl] at handlers
  have kept := filter_ne_absent registered.negative_not_mem
  cases session
  simp only at sockClosed listenClosed handlers kept
  simp only [released, sockClosed, listenClosed, and_self, kept, handlers]

theorem Sound.ndmpdDataCleanup (sound : session.Sound connection) :
    session.ndmpdDataCleanup =
      { session.released connection with ddEnv := [], ddNlistV3 := [] } := by
  have known : 1 ≤ session.nsProtocolVersion ∧ session.nsProtocolVersion ≤ 4 := by
    rcases sound.version with version | version <;> omega
  rw [DataServer.ndmpdDataCleanup, sound.toRegistered.closeListenSock_closeDataSock]
  simp [ndmpdFreeNlist, ndmpdFreeEnv, ndmpdFreeNlistV3, released, known]

theorem Registered.ndmpdMoverError (registered : session.Registered connection) :
    session.ndmpdMoverError = session := by
  refine if_pos (.inr ⟨?_, registered.mover.1⟩)
  rcases registered.version with version | version <;> omega

/-- A data error gives up both sockets, whatever the address. -/
theorem Sound.ndmpdDataError (sound : session.Sound connection) (reason : DataHaltReason)
    (working : ¬ (session.ddState = .idle ∨ session.ddState = .halted)) :
    session.ndmpdDataError reason =
      { session.released connection with ddState := .halted, ddHaltReason := reason } := by
  have halted :
      ({ session with ddState := .halted, ddHaltReason := reason } : DataServer).Registered
      connection := { sound.toRegistered with }
  rw [DataServer.ndmpdDataError, if_neg working]
  by_cases network : session.ddDataAddr = .tcp
  · refine (if_pos network).trans ?_
    have removed := congrArg (fun session => session.closeDataSock.closeListenSock)
      halted.removeDataHandler
    exact removed.trans halted.closeDataSock_closeListenSock
  · refine (if_neg network).trans ?_
    rw [halted.ndmpdMoverError]
    have sockClosed : session.ddSock = -1 := by
      by_contra held
      exact network (sound.sock held).2.1
    have listenClosed : session.ddListenSock = -1 := by
      by_contra held
      exact network (sound.listenSock held).2.2.1
    rw [sound.toRegistered.released_of_closed sockClosed listenClosed]

/-- A session that has given up its sockets is sound in every state that needs none. -/
theorem Sound.released (sound : session.Sound connection) {state : DataState}
    (unconnected : state ≠ .connected)
    (deaf : state = .listen → session.ddDataAddr ≠ .tcp) {reason : DataHaltReason}
    {env : List Pval} {nlist : List MemNdmpNameV3} :
    ({ session.released connection with
      ddState := state, ddHaltReason := reason, ddEnv := env, ddNlistV3 := nlist } :
      DataServer).Sound connection where
  descriptors := fun fd member => sound.descriptors fd (List.mem_filter.mp member).1
  handlers := rfl
  unregistered := fun held => absurd rfl held
  mover := sound.mover
  version := sound.version
  connection_open := by
    have nonnegative := sound.descriptors _ sound.connection_open
    refine List.mem_filter.mpr ⟨sound.connection_open, ?_⟩
    have notListening : connection ≠ session.ddListenSock := by
      intro same
      by_cases closed : session.ddListenSock = -1
      · omega
      · exact (sound.listenSock closed).2.1 same.symm
    have notConnected : connection ≠ session.ddSock := by
      intro same
      by_cases closed : session.ddSock = -1
      · omega
      · exact (sound.unregistered closed).1 same.symm
    simp [notListening, notConnected]
  sock := fun held => absurd rfl held
  listenSock := fun held => absurd rfl held
  listening := fun listening network => absurd network (deaf listening)
  connected := fun connected => absurd connected unconnected

theorem Sound.cleanup (sound : session.Sound connection)
    (unconnected : session.ddState ≠ .connected)
    (deaf : session.ddState = .listen → session.ddDataAddr ≠ .tcp) :
    session.ndmpdDataCleanup.Sound connection := by
  rw [sound.ndmpdDataCleanup]
  exact sound.released unconnected deaf

theorem Sound.dataError (sound : session.Sound connection) (reason : DataHaltReason) :
    (session.ndmpdDataError reason).Sound connection := by
  by_cases atRest : session.ddState = .idle ∨ session.ddState = .halted
  · rw [DataServer.ndmpdDataError, if_pos atRest]
    exact sound
  · rw [sound.ndmpdDataError reason atRest]
    exact sound.released (by simp) (by simp)

/-- After a data error the data server is at rest. -/
theorem Sound.dataError_ddState (sound : session.Sound connection) (reason : DataHaltReason) :
    (session.ndmpdDataError reason).ddState = .idle ∨
      (session.ndmpdDataError reason).ddState = .halted := by
  by_cases atRest : session.ddState = .idle ∨ session.ddState = .halted
  · rw [DataServer.ndmpdDataError, if_pos atRest]
    exact atRest
  · rw [sound.ndmpdDataError reason atRest]
    exact .inr rfl

/-- The epilogue of a refused restore. -/
theorem Sound.dataError_cleanup (sound : session.Sound connection) (reason : DataHaltReason) :
    (session.ndmpdDataError reason).ndmpdDataCleanup.Sound connection := by
  refine (sound.dataError reason).cleanup ?_ ?_ <;>
    rcases sound.dataError_ddState reason with state | state <;> simp [state]

theorem Sound.sendReply (sound : session.Sound connection) (error : NdmpError) :
    (session.ndmpSendReply error).Sound connection :=
  { sound with }

theorem Sound.saveEnv (sound : session.Sound connection) (env : List Pval) :
    ({ session with ddEnv := env } : DataServer).Sound connection :=
  { sound with }

/-- A connected data server becomes active. -/
theorem Sound.activate (sound : session.Sound connection) (state : session.ddState = .connected)
    (cookie : Bool) (abort : Option DataOperation) (nlist : List MemNdmpNameV3)
    (operation : DataOperation) :
    ({ session with
      dmModuleCookie := cookie, dmAbortFunc := abort, ddNlistV3 := nlist, ddState := .active
      ddOperation := operation, ddAbort := false } : DataServer).Sound connection :=
  { sound with
    sock := fun held => ⟨(sound.sock held).1, (sound.sock held).2.1, .inr rfl⟩
    listenSock := fun held => by
      have listening := (sound.listenSock held).2.2.2
      rw [state] at listening
      cases listening
    listening := fun listening => by cases listening
    connected := fun connected => by cases connected }

/-- The step takes a socket away from a data server that keeps its state: a refused
backup, or the end of a restore that belongs to an earlier connection. -/
def StrandsSocket (session : DataServer) : DataAction → Prop
  | .startBackup request =>
      session.ddDataAddr = .tcp ∧ (session.ddState = .listen ∨ session.ddState = .connected ∧
        ¬ (supportedType request.buType ∧ request.envMemory.suffice request.env.length ∧
          request.paramsAllocated))
  | .stopRemoteReader => session.ddDataAddr = .tcp ∧ session.ddState = .connected
  | _ => False

theorem ndmpdSaveEnv_of_suffice {request : StartRequest}
    (enough : request.envMemory.suffice request.env.length) :
    session.ndmpdSaveEnv request.env request.envMemory =
      ({ session with ddEnv := request.env }, .noErr) := by
  simp only [Allocations.suffice, List.length_eq_zero_iff, Bool.decide_or, Bool.decide_and,
    Bool.or_eq_true, decide_eq_true_eq, Bool.and_eq_true] at enough
  by_cases empty : request.env = []
  · simp [ndmpdSaveEnv, empty]
  · obtain ⟨array, entries⟩ := enough.resolve_left empty
    simp [ndmpdSaveEnv, empty, array, entries]

/-- A data server that can go through `ndmpd_data_cleanup` and keep its state. -/
def NeedsNoSocket (session : DataServer) : Prop :=
  session.ddState ≠ .connected ∧ (session.ddState = .listen → session.ddDataAddr ≠ .tcp)

theorem Sound.startBackupV3 (sound : session.Sound connection) {request : StartRequest}
    (kept : ¬ session.StrandsSocket (.startBackup request)) :
    (session.startBackupV3 request).1.Sound connection ∧
      ((session.startBackupV3 request).2 ≠ .noErr →
        (session.startBackupV3 request).1.NeedsNoSocket) := by
  unfold DataServer.startBackupV3
  by_cases state : session.ddState = .connected
  · have network := (sound.connected state).1
    have granted := not_not.mp fun refused => kept ⟨network, .inr ⟨state, refused⟩⟩
    obtain ⟨supported, enough, allocated⟩ := granted
    have active := (sound.saveEnv request.env).activate state false (some .backup) [] .backup
    rw [if_neg (by simp [state]), if_neg (by simp [network]), if_neg (by simp [supported]),
      ndmpdSaveEnv_of_suffice enough]
    dsimp only
    rw [if_neg (by simp [allocated])]
    by_cases denied : request.paramsError = .noErr
    · rw [if_neg (by simp [denied])]
      by_cases sent : request.responseSent = true
      · rw [if_neg (by simp [sent])]
        by_cases created : request.threadCreated = true
        · rw [if_neg (by simp [created])]
          exact ⟨{ active.sendReply .noErr with }, by simp⟩
        · rw [if_pos created]
          refine ⟨active.sendReply .noErr, fun _ => ⟨?_, ?_⟩⟩ <;> simp [ndmpSendReply]
      · rw [if_pos sent]
        exact ⟨active, by simp⟩
    · rw [if_pos denied]
      exact ⟨(active.sendReply request.paramsError).dataError _, by simp⟩
  · rw [if_pos state]
    exact ⟨sound, fun _ => ⟨state, fun listening network => kept ⟨network, .inl listening⟩⟩⟩

theorem Sound.startBackup (sound : session.Sound connection) {request : StartRequest}
    (kept : ¬ session.StrandsSocket (.startBackup request)) :
    (session.ndmpdDataStartBackupV3 request).Sound connection := by
  obtain ⟨started, refused⟩ := sound.startBackupV3 kept
  unfold ndmpdDataStartBackupV3
  split
  case h_1 result => simpa [result] using started
  case h_2 error failed result =>
      rw [result] at started refused
      have closed := refused failed
      exact (started.sendReply error).cleanup closed.1 closed.2

theorem Sound.saveNlist (sound : session.Sound connection) (nlist : List NameV3)
    (memory : Allocations) :
    (session.ndmpdSaveNlistV3 nlist memory).1.Sound connection ∧
      (session.ndmpdSaveNlistV3 nlist memory).1.ddState = session.ddState := by
  unfold ndmpdSaveNlistV3
  split
  · exact ⟨sound, rfl⟩
  · split
    · exact ⟨{ sound with }, rfl⟩
    · split <;> exact ⟨{ sound with }, rfl⟩

theorem Sound.saveEnv_keeps (sound : session.Sound connection) (env : List Pval)
    (memory : Allocations) :
    (session.ndmpdSaveEnv env memory).1.Sound connection ∧
      (session.ndmpdSaveEnv env memory).1.ddState = session.ddState := by
  unfold ndmpdSaveEnv
  split
  · exact ⟨sound.saveEnv _, rfl⟩
  · split
    · exact ⟨sound.saveEnv _, rfl⟩
    · split <;> exact ⟨sound.saveEnv _, rfl⟩

theorem Sound.startRecoverV3 (sound : session.Sound connection) (request : StartRequest) :
    (session.startRecoverV3 request).1.Sound connection := by
  unfold DataServer.startRecoverV3
  by_cases state : session.ddState = .connected
  · rw [if_neg (by simp [state])]
    split
    · exact sound
    · split
      · exact sound
      · obtain ⟨envSound, envState⟩ := sound.saveEnv_keeps request.env request.envMemory
        split
        case h_1 saved savedEq =>
            rw [savedEq] at envSound envState
            obtain ⟨nlistSound, nlistState⟩ :=
              envSound.saveNlist request.nlist request.nlistMemory
            split
            case h_1 named namedEq =>
                rw [namedEq] at nlistSound nlistState
                have connected := nlistState.trans (envState.trans state)
                have params : ({ named with
                    dmModuleCookie := false, dmAbortFunc := some .recover
                    ddNlistV3 := request.fixedNlist } : DataServer).Sound connection :=
                  { nlistSound with }
                have active := (nlistSound.sendReply .noErr).activate connected false
                  (some .recover) request.fixedNlist .recover
                dsimp only
                split
                · exact params
                · split
                  · have freed : ({ named with
                        dmModuleCookie := false, dmAbortFunc := some .recover
                        ddNlistV3 := [] } : DataServer).Sound connection := { nlistSound with }
                    exact freed.dataError .connectError
                  · split
                    · exact active
                    · exact { active with }
            case h_2 named namedEq =>
                rw [namedEq] at nlistSound
                exact nlistSound
        case h_2 saved savedEq =>
            rw [savedEq] at envSound
            exact envSound
  · rw [if_pos state]
    exact sound

theorem Sound.startRecover (sound : session.Sound connection) (request : StartRequest) :
    (session.ndmpdDataStartRecoverV3 request).Sound connection := by
  have started := sound.startRecoverV3 request
  unfold ndmpdDataStartRecoverV3
  split
  case h_1 result => simpa [result] using started
  case h_2 error failed result =>
      rw [result] at started
      exact (started.sendReply error).dataError_cleanup .internalError

/-- The data socket is closed in a state that does not promise one. -/
theorem Sound.closeSock (sound : session.Sound connection)
    (unconnected : session.ddState ≠ .connected) (held : session.ddSock ≠ -1) :
    ({ session.close session.ddSock with ddSock := -1 } : DataServer).Sound connection :=
  { sound with
    descriptors := fun fd member => sound.descriptors fd (List.mem_filter.mp member).1
    unregistered := fun held => absurd rfl held
    connection_open := by
      have different := (sound.unregistered held).1.symm
      exact List.mem_filter.mpr ⟨sound.connection_open, by simpa using different⟩
    sock := fun held => absurd rfl held
    listenSock := fun listening => absurd (sound.unregistered held).2 listening
    connected := fun connected => absurd connected unconnected }

theorem Sound.abort (sound : session.Sound connection) :
    session.ndmpdDataAbortV3.Sound connection := by
  unfold ndmpdDataAbortV3
  have aborting : ({ session with ddAbort := true } : DataServer).Sound connection :=
    { sound with }
  split
  case h_1 => exact sound.sendReply _
  case h_2 state =>
      have unconnected : session.ddState ≠ .connected := by
        simp [state]
      refine Sound.sendReply ?_ .noErr
      split
      · unfold ndmpdTarBackupAbortV3
        split
        case isTrue closing => exact aborting.closeSock unconnected closing.2.2
        case isFalse => exact aborting
      · unfold ndmpdTarRestoreAbortV3
        split
        case isTrue closing => exact aborting.closeSock unconnected closing.2.2
        case isFalse => exact aborting
      · exact aborting
  all_goals exact (aborting.dataError _).sendReply _

theorem Sound.dataInit (sound : session.Sound connection)
    (listenClosed : session.ddListenSock = -1) : session.ndmpdDataInit.Sound connection :=
  { sound with
    handlers := by
      have handlers := sound.handlers
      rw [listenClosed] at handlers
      exact handlers
    unregistered := fun held => absurd rfl held
    sock := fun held => absurd rfl held
    listenSock := fun held => absurd rfl held
    listening := fun listening => by cases listening
    connected := fun connected => by cases connected }

theorem Sound.stop {next : DataServer} (sound : session.Sound connection)
    (taken : session.ndmpdDataStopV3 = some next) : next.Sound connection := by
  unfold ndmpdDataStopV3 at taken
  split at taken
  case isTrue => exact Option.some.inj taken ▸ sound.sendReply _
  case isFalse halted =>
      split at taken
      case isTrue => cases taken
      case isFalse =>
          cases taken
          have state := not_not.mp halted
          have cleaned := sound.cleanup (by simp [state]) (by simp [state])
          refine Sound.sendReply (cleaned.dataInit ?_) .noErr
          rw [sound.ndmpdDataCleanup]
          rfl

/-- A descriptor from the operating system is neither in use nor negative. -/
theorem fresh_some {fd : Int} (isFresh : session.fresh (some fd) = true) :
    0 ≤ fd ∧ fd ∉ session.openDescriptors := by
  simpa [fresh] using isFresh

theorem Sound.at_rest_closed (sound : session.Sound connection)
    (state : session.ddState = .idle) : session.ddSock = -1 ∧ session.ddListenSock = -1 :=
  sound.agrees.atRest (.inl state)

/-- A new descriptor is neither -1 nor the control connection. -/
theorem Sound.fresh_distinct (sound : session.Sound connection) {fd : Int}
    (isFresh : session.fresh (some fd) = true) : fd ≠ -1 ∧ fd ≠ connection := by
  obtain ⟨nonnegative, absent⟩ := fresh_some isFresh
  refine ⟨by omega, ?_⟩
  intro same
  exact absent (same ▸ sound.connection_open)

/-- An idle data server starts to listen on a new, registered socket. -/
theorem Sound.listenOn (sound : session.Sound connection) {fd : Int}
    (isFresh : session.fresh (some fd) = true) (state : session.ddState = .idle) :
    ({ ({ session.opened fd with ddListenSock := fd } : DataServer).ndmpdAddFileHandler fd
        .dataAcceptConnectionV3 with ddDataAddr := .tcp, ddState := .listen } :
      DataServer).Sound connection := by
  obtain ⟨sockClosed, listenClosed⟩ := sound.at_rest_closed state
  obtain ⟨nonnegative, -⟩ := fresh_some isFresh
  obtain ⟨valid, different⟩ := sound.fresh_distinct isFresh
  have handlers := sound.handlers
  rw [listenClosed, handlersFor, if_pos rfl] at handlers
  exact {
    mover := sound.mover
    version := sound.version
    descriptors := by
      intro other member
      rcases List.mem_cons.mp member with rfl | older
      · exact nonnegative
      · exact sound.descriptors other older
    handlers := by
      simp [ndmpdAddFileHandler, opened, handlersFor, valid, handlers]
    unregistered := fun held => absurd sockClosed held
    connection_open := List.mem_cons_of_mem _ sound.connection_open
    sock := fun held => absurd sockClosed held
    listenSock := fun _ => ⟨List.mem_cons_self, different, rfl, rfl⟩
    listening := fun _ _ => valid
    connected := fun connected => by cases connected }

theorem Sound.listen (sound : session.Sound connection) {addrType : AddrType} {sock : Option Int}
    {handlerAllocated : Bool} (isFresh : session.fresh sock = true) :
    (session.listen addrType sock handlerAllocated).Sound connection := by
  unfold DataServer.listen
  split
  · exact sound.sendReply _
  rename_i idle
  have state := not_not.mp idle
  obtain ⟨sockClosed, listenClosed⟩ := sound.at_rest_closed state
  split
  · exact sound.sendReply _
  split
  · have listening : ({ session with ddDataAddr := .local, ddState := .listen } :
        DataServer).Sound connection :=
      { sound with
        sock := fun held => absurd sockClosed held
        listenSock := fun held => absurd listenClosed held
        listening := fun _ network => by cases network
        connected := fun connected => by cases connected }
    exact listening.sendReply _
  · cases sock with
    | none =>
        have unchanged : ({ session with ddListenSock := -1 } : DataServer) = session := by
          rw [← listenClosed]
        rw [createListenSocketV3, unchanged]
        exact sound.sendReply _
    | some fd =>
        cases handlerAllocated with
        | true => exact (sound.listenOn isFresh state).sendReply _
        | false =>
            have kept :
                ({ ({ session.opened fd with ddListenSock := fd } : DataServer).close fd with
                  ddListenSock := -1 } : DataServer) = session := by
              have absent : (fd :: session.openDescriptors).filter (· ≠ fd) =
                  session.openDescriptors := by
                rw [List.filter_cons_of_neg (by simp), filter_ne_absent (fresh_some isFresh).2]
              simp only [opened, close, absent, ← listenClosed]
            simp only [createListenSocketV3, Bool.false_eq_true, if_false, kept]
            exact sound.sendReply _
  · exact sound.sendReply _

/-- An idle data server is connected through a new socket. -/
theorem Sound.connectThrough (sound : session.Sound connection) {fd : Int}
    (isFresh : session.fresh (some fd) = true) (state : session.ddState = .idle) :
    ({ session.opened fd with ddSock := fd, ddDataAddr := .tcp, ddState := .connected } :
      DataServer).Sound connection := by
  obtain ⟨-, listenClosed⟩ := sound.at_rest_closed state
  obtain ⟨nonnegative, -⟩ := fresh_some isFresh
  obtain ⟨valid, different⟩ := sound.fresh_distinct isFresh
  exact {
    handlers := sound.handlers
    mover := sound.mover
    version := sound.version
    descriptors := by
      intro other member
      rcases List.mem_cons.mp member with rfl | older
      · exact nonnegative
      · exact sound.descriptors other older
    unregistered := fun _ => ⟨different, listenClosed⟩
    connection_open := List.mem_cons_of_mem _ sound.connection_open
    sock := fun _ => ⟨List.mem_cons_self, rfl, .inl rfl⟩
    listenSock := fun held => absurd listenClosed held
    listening := fun listening => by cases listening
    connected := fun _ => ⟨rfl, valid⟩ }

theorem Sound.connect (sound : session.Sound connection) {addrType : AddrType} {sock : Option Int}
    (isFresh : session.fresh sock = true) :
    (session.connect addrType sock).Sound connection := by
  unfold DataServer.connect
  split
  · exact sound.sendReply _
  split
  · exact sound.sendReply _
  rename_i idle
  have state := not_not.mp idle
  split
  · have deaf : session.mdState ≠ .listen ∨ session.mdListenSock ≠ -1 := by
      simp [sound.mover.1]
    rw [if_pos deaf]
    exact sound.sendReply _
  · cases sock with
    | none => exact sound.sendReply _
    | some fd => exact (sound.connectThrough isFresh state).sendReply _
  · exact sound.sendReply _

/-- The socket a registered accept handler belongs to. -/
theorem Sound.accept_handler (sound : session.Sound connection) {fd : Int}
    (member : ⟨fd, .dataAcceptConnectionV3⟩ ∈ session.nsFileHandlerList) :
    fd = session.ddListenSock ∧ session.ddListenSock ≠ -1 := by
  rw [sound.handlers, handlersFor] at member
  split at member
  · simp at member
  · rename_i held
    simp only [List.mem_cons, FileHandler.mk.injEq, and_true, reduceCtorEq, and_false,
      List.not_mem_nil, or_false] at member
    exact ⟨member, held⟩

/-- In `LISTEN` the accept handler unregisters and closes the listening socket. -/
theorem Sound.accept_handlers (sound : session.Sound connection)
    (held : session.ddListenSock ≠ -1) :
    (session.nsFileHandlerList.eraseP fun handler => handler.fhFd = session.ddListenSock) =
      [⟨connection, .connectionFileHandler⟩] := by
  rw [sound.handlers, handlersFor, if_neg held]
  simp

/-- The data error after a failed `accept(2)` finds nothing left to close. -/
theorem ndmpdDataError_released (reason : DataHaltReason) (state : session.ddState = .listen)
    (network : session.ddDataAddr = .tcp) :
    (session.released connection).ndmpdDataError reason =
      { session.released connection with ddState := .halted, ddHaltReason := reason } := by
  have working : ¬ ((session.released connection).ddState = .idle ∨
      (session.released connection).ddState = .halted) := by
    simp [DataServer.released, state]
  rw [DataServer.ndmpdDataError, if_neg working]
  exact if_pos network

theorem Sound.accept (sound : session.Sound connection) {fd : Int} {sock : Option Int}
    (member : ⟨fd, .dataAcceptConnectionV3⟩ ∈ session.nsFileHandlerList)
    (isFresh : session.fresh sock = true) :
    (session.dataAcceptConnectionV3 fd sock).Sound connection := by
  obtain ⟨rfl, held⟩ := sound.accept_handler member
  obtain ⟨isOpen, different, network, state⟩ := sound.listenSock held
  have sockClosed : session.ddSock = -1 := by
    by_contra connected
    exact held (sound.unregistered connected).2
  have handlers := sound.accept_handlers held
  cases sock with
  | none =>
      have given : ({ ({ session with ddSock := -1 } : DataServer).ndmpdRemoveFileHandler
          session.ddListenSock |>.close session.ddListenSock with ddListenSock := -1 } :
            DataServer) = session.released connection := by
        have kept : (session.openDescriptors.filter fun other =>
            other ≠ session.ddListenSock ∧ other ≠ session.ddSock) =
              session.openDescriptors.filter (· ≠ session.ddListenSock) := by
          refine List.filter_congr fun other present => ?_
          have nonnegative := sound.descriptors other present
          have valid : other ≠ session.ddSock := by
            omega
          simp [valid]
        simp only [ndmpdRemoveFileHandler, close, handlers, DataServer.released, kept]
      have halted := @ndmpdDataError_released connection _ .connectError state network
      have failing : session.dataAcceptConnectionV3 session.ddListenSock none =
          ({ ({ session with ddSock := -1 } : DataServer).ndmpdRemoveFileHandler
            session.ddListenSock |>.close session.ddListenSock with ddListenSock := -1 } :
              DataServer).ndmpdDataError .connectError :=
        rfl
      rw [failing, given, halted]
      exact sound.released (by simp) (by simp)
  | some accepted =>
      obtain ⟨nonnegative, absent⟩ := fresh_some isFresh
      obtain ⟨valid, apart⟩ := sound.fresh_distinct isFresh
      have notListening : accepted ≠ session.ddListenSock := by
        intro same
        exact absent (same ▸ isOpen)
      have connecting : session.dataAcceptConnectionV3 session.ddListenSock (some accepted) =
          { (({ session.opened accepted with ddSock := accepted } :
              DataServer).ndmpdRemoveFileHandler session.ddListenSock).close
                session.ddListenSock with
            ddListenSock := -1, ddState := .connected } :=
        if_neg (Int.not_lt.mpr nonnegative)
      rw [connecting]
      exact {
        handlers := handlers
        mover := sound.mover
        version := sound.version
        descriptors := by
          intro other present
          rcases List.mem_cons.mp (List.mem_filter.mp present).1 with rfl | older
          · exact nonnegative
          · exact sound.descriptors other older
        unregistered := fun _ => ⟨apart, rfl⟩
        connection_open := by
          refine List.mem_filter.mpr ⟨List.mem_cons_of_mem _ sound.connection_open, ?_⟩
          simpa using different.symm
        sock := fun _ => by
          exact ⟨List.mem_filter.mpr ⟨List.mem_cons_self, decide_eq_true notListening⟩, network,
            .inl rfl⟩
        listenSock := fun held => absurd rfl held
        listening := fun listening => by cases listening
        connected := fun _ => ⟨network, valid⟩ }

theorem Sound.stopRemoteReader (sound : session.Sound connection)
    (kept : ¬ session.StrandsSocket .stopRemoteReader) :
    session.ndmpStopRemoteReader.Sound connection := by
  unfold ndmpStopRemoteReader
  split
  case isTrue nonnegative =>
      have held : session.ddSock ≠ -1 := by
        omega
      refine sound.closeSock ?_ held
      intro connected
      exact kept ⟨(sound.sock held).2.1, connected⟩
  case isFalse => exact sound

/-- Every step that strands no socket keeps the invariant. -/
theorem Sound.step {next : DataServer} {action : DataAction} (sound : session.Sound connection)
    (kept : ¬ session.StrandsSocket action) (taken : session.step action = some next) :
    next.Sound connection := by
  cases action with
  | listenV3 addrType sock handlerAllocated | listenV4 addrType sock handlerAllocated =>
      simp only [DataServer.step, Option.ite_none_right_eq_some, Option.some.injEq] at taken
      obtain ⟨isFresh, rfl⟩ := taken
      exact sound.listen isFresh
  | connectV3 addrType sock | connectV4 addrType sock =>
      simp only [DataServer.step, Option.ite_none_right_eq_some, Option.some.injEq] at taken
      obtain ⟨isFresh, rfl⟩ := taken
      exact sound.connect isFresh
  | startBackup request =>
      cases taken
      exact sound.startBackup kept
  | startRecover request =>
      cases taken
      exact sound.startRecover request
  | abort =>
      cases taken
      exact sound.abort
  | stop => exact sound.stop taken
  | acceptConnection fd sock =>
      simp only [DataServer.step, Option.ite_none_right_eq_some, Option.some.injEq] at taken
      obtain ⟨⟨member, isFresh⟩, rfl⟩ := taken
      exact sound.accept member isFresh
  | workerStarts operation =>
      simp only [DataServer.step, Option.ite_none_right_eq_some, Option.some.injEq] at taken
      obtain ⟨-, rfl⟩ := taken
      exact { sound with }
  | stopRemoteReader =>
      simp only [DataServer.step, Option.ite_none_right_eq_some, Option.some.injEq] at taken
      obtain ⟨-, rfl⟩ := taken
      exact sound.stopRemoteReader kept
  | operationDone operation err =>
      simp only [DataServer.step, Option.ite_none_right_eq_some, Option.some.injEq] at taken
      obtain ⟨-, rfl⟩ := taken
      exact { sound.dataError _ with }
  | workerExits operation =>
      simp only [DataServer.step, Option.ite_none_right_eq_some, Option.some.injEq] at taken
      obtain ⟨-, rfl⟩ := taken
      exact { sound with }

/-- **State and descriptors agree** in every run that strands no socket. -/
theorem agrees_of_reachable
    (reached : system.ReachableBy (fun session action => ¬ session.StrandsSocket action) session) :
    session.Agrees := by
  have sound : ∃ connection, session.Sound connection := by
    refine reached.invariant (fun session => ∃ connection, session.Sound connection) ?_ ?_
    · rintro _ ⟨connection, version, valid, supported, rfl⟩
      exact ⟨connection, Sound.initial valid supported⟩
    · rintro session action next ⟨connection, sound⟩ kept taken
      exact ⟨connection, sound.step kept taken⟩
  obtain ⟨connection, sound⟩ := sound
  exact sound.agrees

instance (session : DataServer) (action : DataAction) : Decidable (session.StrandsSocket action) :=
  match action with
  | .startBackup _ => inferInstanceAs (Decidable (_ ∧ (_ ∨ _ ∧ ¬ _)))
  | .stopRemoteReader => inferInstanceAs (Decidable (_ ∧ _))
  | .listenV3 .. | .listenV4 .. | .connectV3 .. | .connectV4 .. | .startRecover _ | .abort | .stop
  | .acceptConnection .. | .workerStarts _ | .operationDone .. | .workerExits _ => isFalse id

/-- The mover connects to the listening data server. -/
def acceptedRun : List DataAction :=
  [.listenV4 .tcp (some 7) true, .acceptConnection 7 (some 8)]

theorem agrees_of_reachable_accepted :
    ∃ session, system.run (fun session action => ¬ session.StrandsSocket action) (initial 3 4)
        acceptedRun = some session ∧
      session.ddState = .connected ∧ session.Agrees := by
  have runs : (system.run (fun session action => ¬ session.StrandsSocket action) (initial 3 4)
      acceptedRun).map ddState = some .connected := by decide
  obtain ⟨session, ran, state⟩ := Option.map_eq_some_iff.mp runs
  have start : system.init (initial 3 4) := ⟨3, 4, by decide, .inr rfl, rfl⟩
  exact ⟨session, ran, state,
    agrees_of_reachable (Foundation.System.ReachableBy.run (.init start) ran)⟩

/-- A `DATA_START_BACKUP` that nobody is connected for. -/
def earlyBackup : StartRequest where
  buType := ndmpTarType
  env := []
  nlist := []
  envMemory := ⟨true, 0⟩
  nlistMemory := ⟨true, 0⟩
  paramsAllocated := true
  paramsError := .noErr
  fixedNlist := []
  responseSent := true
  threadCreated := true

/-- A refused backup leaves the data server in `LISTEN` without a listening socket. -/
theorem listening_socket_lost :
    ∃ session, system.Reachable session ∧ session.ddState = .listen ∧
      session.ddDataAddr = .tcp ∧ session.ddListenSock = -1 ∧ ¬ session.Agrees := by
  have runs : (system.run (fun _ _ => True) (initial 3 4)
      [.listenV4 .tcp (some 7) true, .startBackup earlyBackup]).map (fun session =>
        (session.ddState, session.ddDataAddr, session.ddListenSock, session.openDescriptors)) =
      some (.listen, .tcp, -1, [3]) := by rfl
  obtain ⟨session, ran, observed⟩ := Option.map_eq_some_iff.mp runs
  simp only [Prod.mk.injEq] at observed
  obtain ⟨state, network, closed, opened⟩ := observed
  have start : system.init (initial 3 4) := ⟨3, 4, by decide, .inr rfl, rfl⟩
  refine ⟨session, Foundation.System.ReachableBy.run (.init start) ran, state, network, closed, ?_⟩
  intro agrees
  have promised := (agrees.listening state network).1
  rw [closed, opened] at promised
  exact absurd promised (by decide)

end DataServer

end Ndmpd
