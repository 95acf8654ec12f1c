import Mathlib.Data.List.Basic
import Ndmpd.Foundation.Transition
import Ndmpd.Session.Protocol

/-!
# The data server

The data server of a session is the state `dd_state`, two descriptors, and what a
backup or restore request has saved. Ten request handlers and callbacks change them.
The model has one definition for each function of the source and one action for each
request, accepted connection and step of a worker thread; what the operating system
answers (a descriptor or a failure, an allocation that fails, a thread that is not
created) is part of the action.

The session's file handler list and the set of open descriptors are part of the
state. A descriptor the operating system hands out is any one that is not open.

The mover's own requests have no handlers in this daemon, so its fields keep the
values they are initialised with, but the data server reads them.
-/

namespace Ndmpd

/-- `NDMP_DATA_STATE_*`. -/
inductive DataState where
  | idle
  | active
  | halted
  | listen
  | connected
  deriving DecidableEq, Repr

/-- `NDMP_DATA_HALT_*`. -/
inductive DataHaltReason where
  | na
  | successful
  | aborted
  | internalError
  | connectError
  deriving DecidableEq, Repr

/-- `NDMP_DATA_OP_*`. -/
inductive DataOperation where
  | noaction
  | backup
  | recover
  deriving DecidableEq, Repr

/-- `NDMP_ADDR_*`, or a number that is none of them. -/
inductive AddrType where
  | local
  | tcp
  | fc
  | ipc
  | unknown
  deriving DecidableEq, Repr

/-- `NDMP_MOVER_STATE_*`, as far as the data server tells them apart. -/
inductive MoverState where
  | idle
  | listen
  | active
  | halted
  deriving DecidableEq, Repr

/-- The function a file handler calls when its descriptor is ready. -/
inductive FileHandlerFunc where
  | connectionFileHandler
  | dataAcceptConnectionV3
  deriving DecidableEq, Repr

/-- An `ndmpd_file_handler_t`. -/
structure FileHandler where
  fhFd : Int
  fhFunc : FileHandlerFunc
  deriving DecidableEq, Repr

/-- An environment variable, `ndmp_pval`. -/
structure Pval where
  name : List UInt8
  value : List UInt8
  deriving DecidableEq, Repr

/-- An entry of the name list of a restore request, `ndmp_name_v3`. -/
structure NameV3 where
  originalPath : List UInt8
  destinationDir : List UInt8
  newName : List UInt8
  node : Nat
  fhInfo : Nat
  deriving DecidableEq, Repr

/-- A saved entry of the name list, `mem_ndmp_name_v3_t`. -/
structure MemNdmpNameV3 where
  nm3Opath : List UInt8
  nm3Dpath : Option (List UInt8)
  nm3Newnm : Option (List UInt8)
  nm3Node : Nat
  nm3FhInfo : Nat
  nm3Err : NdmpError
  deriving DecidableEq, Repr

/-- The fields of a session that the data server reads and writes, with the open
descriptors, the worker threads and the errors of the replies sent so far. -/
structure DataServer where
  ddState : DataState
  ddOperation : DataOperation
  ddHaltReason : DataHaltReason
  ddAbort : Bool
  ddSock : Int
  ddListenSock : Int
  ddDataAddr : AddrType
  ddMover : AddrType
  ddEnv : List Pval
  ddNlistV3 : List MemNdmpNameV3
  dmAbortFunc : Option DataOperation
  dmModuleCookie : Bool
  nsProtocolVersion : Nat
  nsFileHandlerList : List FileHandler
  mdState : MoverState
  mdSock : Int
  mdListenSock : Int
  openDescriptors : List Int
  /-- Threads that have been created and do not hold a session reference yet. -/
  createdWorkers : List DataOperation
  /-- Threads that hold a session reference and are not done with their operation. -/
  runningWorkers : List DataOperation
  /-- Threads behind `MOD_DONE`, which still hold their session reference. -/
  doneWorkers : List DataOperation
  replies : List NdmpError
  deriving DecidableEq, Repr

/-- `NDMP_DUMP_TYPE`, the bytes of `dump`. -/
def ndmpDumpType : List UInt8 := [0x64, 0x75, 0x6d, 0x70]

/-- `NDMP_TAR_TYPE`, the bytes of `tar`. -/
def ndmpTarType : List UInt8 := [0x74, 0x61, 0x72]

/-- The request's backup type is one the handlers accept. -/
def supportedType (buType : List UInt8) : Bool :=
  buType = ndmpDumpType ∨ buType = ndmpTarType

/-- How the allocations of one saved list turn out: the array, and how many entries
are copied before an allocation fails. -/
structure Allocations where
  array : Bool
  entries : Nat
  deriving DecidableEq, Repr

/-- The allocations of a list of this length all succeed. -/
def Allocations.suffice (allocations : Allocations) (length : Nat) : Bool :=
  length = 0 ∨ allocations.array ∧ length ≤ allocations.entries

/-- A start request, and how the calls it makes turn out. `paramsError` is the result
of `ndmp_backup_get_params_v3` or `ndmp_restore_get_params_v3`; the latter leaves the
saved name list rewritten as `fixedNlist`. -/
structure StartRequest where
  buType : List UInt8
  env : List Pval
  nlist : List NameV3
  envMemory : Allocations
  nlistMemory : Allocations
  paramsAllocated : Bool
  paramsError : NdmpError
  fixedNlist : List MemNdmpNameV3
  responseSent : Bool
  threadCreated : Bool
  deriving DecidableEq, Repr

namespace DataServer

/-- A reply is sent, or its loss is only logged. -/
def ndmpSendReply (session : DataServer) (error : NdmpError) : DataServer :=
  { session with replies := session.replies ++ [error] }

/-- `close(2)`. -/
def close (session : DataServer) (fd : Int) : DataServer :=
  { session with openDescriptors := session.openDescriptors.filter (· ≠ fd) }

/-- The operating system hands out a descriptor. -/
def opened (session : DataServer) (fd : Int) : DataServer :=
  { session with openDescriptors := fd :: session.openDescriptors }

/-- `ndmpd_add_file_handler`, when its allocation succeeds. -/
def ndmpdAddFileHandler (session : DataServer) (fd : Int) (func : FileHandlerFunc) : DataServer :=
  { session with nsFileHandlerList := ⟨fd, func⟩ :: session.nsFileHandlerList }

/-- `ndmpd_remove_file_handler`: drop the first handler of the descriptor. -/
def ndmpdRemoveFileHandler (session : DataServer) (fd : Int) : DataServer :=
  { session with
    nsFileHandlerList := session.nsFileHandlerList.eraseP fun handler => handler.fhFd = fd }

/-- Unregister and close the listening socket, as `ndmpd_data_error` and
`ndmpd_data_cleanup` do. -/
def closeListenSock (session : DataServer) : DataServer :=
  if session.ddListenSock = -1 then session
  else
    { (session.ndmpdRemoveFileHandler session.ddListenSock).close session.ddListenSock with
      ddListenSock := -1 }

/-- Close the data socket unless the mover uses it too. -/
def closeDataSock (session : DataServer) : DataServer :=
  if session.ddSock = -1 then session
  else if session.ddSock = session.mdSock then { session with ddSock := -1 }
  else { session.close session.ddSock with ddSock := -1 }

/-- `ndmpd_mover_error`. -/
def ndmpdMoverError (session : DataServer) : DataServer :=
  if session.mdState = .halted ∨ 2 < session.nsProtocolVersion ∧ session.mdState = .idle then
    session
  else
    let session :=
      if session.mdListenSock = -1 then session
      else
        { (session.ndmpdRemoveFileHandler session.mdListenSock).close session.mdListenSock with
          mdListenSock := -1 }
    let session :=
      if session.mdSock = -1 then session
      else
        { (session.ndmpdRemoveFileHandler session.mdSock).close session.mdSock with
          mdSock := -1 }
    { session with mdState := .halted }

/-- `ndmpd_data_error`. -/
def ndmpdDataError (session : DataServer) (reason : DataHaltReason) : DataServer :=
  if session.ddState = .idle ∨ session.ddState = .halted then session
  else
    let session := { session with ddState := .halted, ddHaltReason := reason }
    if session.ddDataAddr = .tcp then
      let session :=
        if session.ddSock = -1 then session else session.ndmpdRemoveFileHandler session.ddSock
      session.closeDataSock.closeListenSock
    else session.ndmpdMoverError

/-- `ndmpd_free_env`. -/
def ndmpdFreeEnv (session : DataServer) : DataServer :=
  { session with ddEnv := [] }

/-- `ndmpd_free_nlist_v3`. -/
def ndmpdFreeNlistV3 (session : DataServer) : DataServer :=
  { session with ddNlistV3 := [] }

/-- `ndmpd_free_nlist` knows the protocol versions 1 to 4. -/
def ndmpdFreeNlist (session : DataServer) : DataServer :=
  if 1 ≤ session.nsProtocolVersion ∧ session.nsProtocolVersion ≤ 4 then session.ndmpdFreeNlistV3
  else session

/-- `ndmpd_data_cleanup`. -/
def ndmpdDataCleanup (session : DataServer) : DataServer :=
  session.closeListenSock.closeDataSock.ndmpdFreeEnv.ndmpdFreeNlist

/-- `ndmpd_data_init`. -/
def ndmpdDataInit (session : DataServer) : DataServer :=
  { session with
    ddOperation := .noaction
    ddState := .idle
    ddHaltReason := .na
    ddAbort := false
    ddEnv := []
    ddNlistV3 := []
    ddMover := .local
    ddSock := -1
    ddDataAddr := .local
    ddListenSock := -1 }

/-- `ndmpd_save_env`. -/
def ndmpdSaveEnv (session : DataServer) (env : List Pval) (memory : Allocations) :
    DataServer × NdmpError :=
  if env = [] then ({ session with ddEnv := [] }, .noErr)
  else if ¬ memory.array then ({ session with ddEnv := [] }, .noMemErr)
  else if memory.entries < env.length then
    ({ session with ddEnv := env.take memory.entries }, .noMemErr)
  else ({ session with ddEnv := env }, .noErr)

/-- The loop of `ndmpd_save_nlist_v3`; `copies` entries can be copied. -/
def copyNames (version : Nat) : List NameV3 → Nat → Except NdmpError (List MemNdmpNameV3)
  | [], _ => .ok []
  | _ :: _, 0 => .error .noMemErr
  | source :: sources, copies + 1 =>
      -- in V4 the destination directory cannot be empty
      if source.destinationDir = [] ∧ version = 4 then .error .illegalArgsErr
      else do
        let rest ← copyNames version sources copies
        return {
          nm3Opath := source.originalPath
          nm3Dpath := if source.destinationDir = [] then none else some source.destinationDir
          nm3Newnm := if source.newName = [] then none else some source.newName
          nm3Node := source.node
          nm3FhInfo := source.fhInfo
          nm3Err := .noErr } :: rest

/-- `ndmpd_save_nlist_v3`. -/
def ndmpdSaveNlistV3 (session : DataServer) (nlist : List NameV3) (memory : Allocations) :
    DataServer × NdmpError :=
  if nlist = [] then (session, .illegalArgsErr)
  else if ¬ memory.array then ({ session with ddNlistV3 := [] }, .noMemErr)
  else
    match copyNames session.nsProtocolVersion nlist memory.entries with
    | .ok names => ({ session with ddNlistV3 := names }, .noErr)
    | .error error => (session.ndmpdFreeNlistV3, error)

/-- `ndmpd_api_done_v3`, called with a UNIX error code. -/
def ndmpdApiDoneV3 (session : DataServer) (err : Nat) : DataServer :=
  session.ndmpdDataError <|
    match err with
    | 0 => .successful
    | 4 => .aborted -- EINTR
    | 5 => .connectError -- EIO
    | _ => .internalError

/-- `start_backup_v3`. The error it returns is replied to by its caller. -/
def startBackupV3 (session : DataServer) (request : StartRequest) : DataServer × NdmpError :=
  if session.ddState ≠ .connected then (session, .illegalStateErr)
  else if session.ddDataAddr = .local then (session, .noDeviceErr)
  else if ¬ supportedType request.buType then (session, .illegalArgsErr)
  else
    match session.ndmpdSaveEnv request.env request.envMemory with
    | (session, .noErr) =>
        if ¬ request.paramsAllocated then (session, .noMemErr)
        else
          let session := { session with
            dmModuleCookie := false
            dmAbortFunc := some .backup
            ddNlistV3 := []
            ddState := .active
            ddOperation := .backup
            ddAbort := false }
          if request.paramsError ≠ .noErr then
            -- the error is replied to here and the operation is closed as if it had run
            ((session.ndmpSendReply request.paramsError).ndmpdApiDoneV3 request.paramsError.code,
              .noErr)
          else if ¬ request.responseSent then (session, .noErr)
          else
            let session := session.ndmpSendReply .noErr
            if ¬ request.threadCreated then (session, .illegalArgsErr)
            else
              ({ session with createdWorkers := .backup :: session.createdWorkers }, .noErr)
    | (session, error) => (session, error)

/-- `start_recover_v3`. -/
def startRecoverV3 (session : DataServer) (request : StartRequest) : DataServer × NdmpError :=
  if session.ddState ≠ .connected then (session, .illegalStateErr)
  else if ¬ supportedType request.buType then (session, .illegalArgsErr)
  else if ¬ request.paramsAllocated then (session, .noMemErr)
  else
    match session.ndmpdSaveEnv request.env request.envMemory with
    | (session, .noErr) =>
        match session.ndmpdSaveNlistV3 request.nlist request.nlistMemory with
        | (session, .noErr) =>
            let session := { session with
              dmModuleCookie := false
              dmAbortFunc := some .recover
              ddNlistV3 := request.fixedNlist }
            if request.paramsError ≠ .noErr then (session, request.paramsError)
            else if ¬ request.responseSent then
              (session.ndmpdFreeNlistV3.ndmpdDataError .connectError, .noErr)
            else
              let session := { session.ndmpSendReply .noErr with
                ddState := .active
                ddOperation := .recover
                ddAbort := false }
              if ¬ request.threadCreated then (session, .illegalArgsErr)
              else
                ({ session with createdWorkers := .recover :: session.createdWorkers }, .noErr)
        | (session, _) => (session, .noMemErr)
    | (session, _) => (session, .noMemErr)

/-- `ndmpd_data_start_backup_v3`. -/
def ndmpdDataStartBackupV3 (session : DataServer) (request : StartRequest) : DataServer :=
  match session.startBackupV3 request with
  | (session, .noErr) => session
  | (session, error) => (session.ndmpSendReply error).ndmpdDataCleanup

/-- `ndmpd_data_start_recover_v3`. -/
def ndmpdDataStartRecoverV3 (session : DataServer) (request : StartRequest) : DataServer :=
  match session.startRecoverV3 request with
  | (session, .noErr) => session
  | (session, error) =>
      ((session.ndmpSendReply error).ndmpdDataError .internalError).ndmpdDataCleanup

/-- `ndmpd_tar_backup_abort_v3`, as far as it touches the data server. -/
def ndmpdTarBackupAbortV3 (session : DataServer) : DataServer :=
  if session.dmModuleCookie ∧ session.ddDataAddr = .tcp ∧ session.ddSock ≠ -1 then
    { session.close session.ddSock with ddSock := -1 }
  else session

/-- `ndmpd_tar_restore_abort_v3`, which looks at the address of `dd_mover`. -/
def ndmpdTarRestoreAbortV3 (session : DataServer) : DataServer :=
  if session.dmModuleCookie ∧ session.ddMover = .tcp ∧ session.ddSock ≠ -1 then
    { session.close session.ddSock with ddSock := -1 }
  else session

/-- `ndmpd_data_abort_v3`. -/
def ndmpdDataAbortV3 (session : DataServer) : DataServer :=
  match session.ddState with
  | .idle => session.ndmpSendReply .illegalStateErr
  | .active =>
      let session := { session with ddAbort := true }
      let session :=
        match session.dmAbortFunc with
        | some .backup => session.ndmpdTarBackupAbortV3
        | some .recover => session.ndmpdTarRestoreAbortV3
        | _ => session
      session.ndmpSendReply .noErr
  | .halted | .listen | .connected =>
      ({ session with ddAbort := true }.ndmpdDataError .aborted).ndmpSendReply .noErr

/-- `ndmpd_data_stop_v3`, once `ndmp_waitfor_op` has seen no session reference. -/
def ndmpdDataStopV3 (session : DataServer) : Option DataServer :=
  if session.ddState ≠ .halted then some (session.ndmpSendReply .illegalStateErr)
  else if session.runningWorkers ≠ [] ∨ session.doneWorkers ≠ [] then none
  else some (session.ndmpdDataCleanup.ndmpdDataInit.ndmpSendReply .noErr)

/-- `create_listen_socket_v3`: `sock` is the result of `ndmp_create_socket`. -/
def createListenSocketV3 (session : DataServer) (sock : Option Int) (handlerAllocated : Bool) :
    DataServer × Bool :=
  match sock with
  | none => ({ session with ddListenSock := -1 }, false)
  | some fd =>
      let session := { session.opened fd with ddListenSock := fd }
      if handlerAllocated then
        (session.ndmpdAddFileHandler fd .dataAcceptConnectionV3, true)
      else ({ session.close fd with ddListenSock := -1 }, false)

/-- The two versions of the listen handler, which differ in the reply's layout only. -/
def listen (session : DataServer) (addrType : AddrType) (sock : Option Int)
    (handlerAllocated : Bool) : DataServer :=
  if session.ddState ≠ .idle then session.ndmpSendReply .illegalStateErr
  else if session.mdState ≠ .idle then session.ndmpSendReply .illegalStateErr
  else
    match addrType with
    | .local => { session with ddDataAddr := .local, ddState := .listen }.ndmpSendReply .noErr
    | .tcp =>
        match session.createListenSocketV3 sock handlerAllocated with
        | (session, true) =>
            { session with ddDataAddr := .tcp, ddState := .listen }.ndmpSendReply .noErr
        | (session, false) => session.ndmpSendReply .ioErr
    | _ => session.ndmpSendReply .illegalArgsErr

/-- `ndmpd_data_listen_v3`. -/
def ndmpdDataListenV3 (session : DataServer) (addrType : AddrType) (sock : Option Int)
    (handlerAllocated : Bool) : DataServer :=
  session.listen addrType sock handlerAllocated

/-- `ndmpd_data_listen_v4`. -/
def ndmpdDataListenV4 (session : DataServer) (addrType : AddrType) (sock : Option Int)
    (handlerAllocated : Bool) : DataServer :=
  session.listen addrType sock handlerAllocated

/-- `data_connect_sock_v3`: `sock` is the result of `ndmp_connect_sock_v3`. -/
def dataConnectSockV3 (session : DataServer) (sock : Option Int) : DataServer × NdmpError :=
  match sock with
  | none => (session, .connectErr)
  | some fd => ({ session.opened fd with ddSock := fd, ddDataAddr := .tcp }, .noErr)

/-- The two versions of the connect handler, which differ in the request's layout only. -/
def connect (session : DataServer) (addrType : AddrType) (sock : Option Int) : DataServer :=
  if addrType = .unknown then session.ndmpSendReply .illegalArgsErr
  else if session.ddState ≠ .idle then session.ndmpSendReply .illegalStateErr
  else
    match addrType with
    | .local =>
        if session.mdState ≠ .listen ∨ session.mdListenSock ≠ -1 then
          session.ndmpSendReply .illegalStateErr
        else { session with mdState := .active, ddState := .connected }.ndmpSendReply .noErr
    | .tcp =>
        match session.dataConnectSockV3 sock with
        | (session, .noErr) => { session with ddState := .connected }.ndmpSendReply .noErr
        | (session, error) => session.ndmpSendReply error
    | _ => session.ndmpSendReply .illegalArgsErr

/-- `ndmpd_data_connect_v3`. -/
def ndmpdDataConnectV3 (session : DataServer) (addrType : AddrType) (sock : Option Int) :
    DataServer :=
  session.connect addrType sock

/-- `ndmpd_data_connect_v4`. -/
def ndmpdDataConnectV4 (session : DataServer) (addrType : AddrType) (sock : Option Int) :
    DataServer :=
  session.connect addrType sock

/-- `data_accept_connection_v3`, called for the descriptor of its handler; `sock` is
the result of `accept(2)`. -/
def dataAcceptConnectionV3 (session : DataServer) (fd : Int) (sock : Option Int) : DataServer :=
  let session : DataServer :=
    match sock with
    | none => { session with ddSock := -1 }
    | some accepted => { session.opened accepted with ddSock := accepted }
  let session := session.ndmpdRemoveFileHandler fd
  let session : DataServer := { session.close session.ddListenSock with ddListenSock := -1 }
  if session.ddSock < 0 then session.ndmpdDataError .connectError
  else { session with ddState := .connected }

/-- `ndmp_stop_remote_reader`, by which a restore ends. -/
def ndmpStopRemoteReader (session : DataServer) : DataServer :=
  if 0 ≤ session.ddSock then { session.close session.ddSock with ddSock := -1 } else session

end DataServer

/-- A request, an accepted connection or a step of a worker thread. -/
inductive DataAction where
  | listenV3 (addrType : AddrType) (sock : Option Int) (handlerAllocated : Bool)
  | listenV4 (addrType : AddrType) (sock : Option Int) (handlerAllocated : Bool)
  | connectV3 (addrType : AddrType) (sock : Option Int)
  | connectV4 (addrType : AddrType) (sock : Option Int)
  | startBackup (request : StartRequest)
  | startRecover (request : StartRequest)
  | abort
  | stop
  | acceptConnection (fd : Int) (sock : Option Int)
  | workerStarts (operation : DataOperation)
  | stopRemoteReader
  | operationDone (operation : DataOperation) (err : Nat)
  | workerExits (operation : DataOperation)
  deriving DecidableEq, Repr

namespace DataServer

/-- A descriptor the operating system may hand out. -/
def fresh (session : DataServer) : Option Int → Bool
  | none => true
  | some fd => 0 ≤ fd ∧ fd ∉ session.openDescriptors

/-- One request, callback or worker step. -/
def step (session : DataServer) : DataAction → Option DataServer
  | .listenV3 addrType sock handlerAllocated =>
      if session.fresh sock then some (session.ndmpdDataListenV3 addrType sock handlerAllocated)
      else none
  | .listenV4 addrType sock handlerAllocated =>
      if session.fresh sock then some (session.ndmpdDataListenV4 addrType sock handlerAllocated)
      else none
  | .connectV3 addrType sock =>
      if session.fresh sock then some (session.ndmpdDataConnectV3 addrType sock) else none
  | .connectV4 addrType sock =>
      if session.fresh sock then some (session.ndmpdDataConnectV4 addrType sock) else none
  | .startBackup request => some (session.ndmpdDataStartBackupV3 request)
  | .startRecover request => some (session.ndmpdDataStartRecoverV3 request)
  | .abort => some session.ndmpdDataAbortV3
  | .stop => session.ndmpdDataStopV3
  | .acceptConnection fd sock =>
      if ⟨fd, .dataAcceptConnectionV3⟩ ∈ session.nsFileHandlerList ∧ session.fresh sock then
        some (session.dataAcceptConnectionV3 fd sock)
      else none
  | .workerStarts operation =>
      if operation ∈ session.createdWorkers then
        some { session with
          dmModuleCookie := true
          createdWorkers := session.createdWorkers.erase operation
          runningWorkers := operation :: session.runningWorkers }
      else none
  | .stopRemoteReader =>
      if .recover ∈ session.runningWorkers then some session.ndmpStopRemoteReader else none
  | .operationDone operation err =>
      -- `MOD_DONE`
      if operation ∈ session.runningWorkers then
        some { session.ndmpdApiDoneV3 err with
          runningWorkers := session.runningWorkers.erase operation
          doneWorkers := operation :: session.doneWorkers }
      else none
  | .workerExits operation =>
      -- `ndmp_session_unref` and `pthread_exit`
      if operation ∈ session.doneWorkers then
        some { session with doneWorkers := session.doneWorkers.erase operation }
      else none

/-- A session after `ndmpd_data_init`: only the control connection is open and has a
file handler. -/
def initial (connection : Int) (version : Nat) : DataServer where
  ddState := .idle
  ddOperation := .noaction
  ddHaltReason := .na
  ddAbort := false
  ddSock := -1
  ddListenSock := -1
  ddDataAddr := .local
  ddMover := .local
  ddEnv := []
  ddNlistV3 := []
  dmAbortFunc := none
  dmModuleCookie := false
  nsProtocolVersion := version
  nsFileHandlerList := [⟨connection, .connectionFileHandler⟩]
  mdState := .idle
  mdSock := -1
  mdListenSock := -1
  openDescriptors := [connection]
  createdWorkers := []
  runningWorkers := []
  doneWorkers := []
  replies := []

/-- The data server as a transition system, under protocol version 3 or 4. -/
def system : Foundation.System DataServer DataAction where
  init session :=
    ∃ connection version, 0 ≤ connection ∧ (version = 3 ∨ version = 4) ∧
      session = initial connection version
  step := step

end DataServer

end Ndmpd
