import Ndmpd.Foundation.Transition
import Ndmpd.Session.MessageTable
import Ndmpd.Session.Protocol

/-!
# Receiving messages and calling their handlers

`ndmp_process_messages` reads one message after the other with `ndmp_recv_msg` and
calls the handler of each request. Whether a request may run is decided in
`ndmp_recv_msg`, which checks the authentication of the connection and decodes the
body. It returns early, with the value that means success, for a message whose header
carries an error; such a request reaches its handler unchecked and without a body
(`unauthenticated_backup_started`). These requests are the only ones
(`ndmpProcessMessage_gated_iff`).

A connection that has agreed to a version before 3 calls no handler any more
(`unheard_of_run`).

What a message brings (header fields, whether its parts can be decoded, what its
handler finds) is part of the action. `calls` and `responses` record the history.
-/

namespace Ndmpd

/-- What a handler finds out that matters to the connection: whether the credentials
of a `CONNECT_CLIENT_AUTH` are right, the version a `CONNECT_OPEN` asks for and whether
the session is idle, and whether the connection broke or was closed meanwhile. -/
structure HandlerOutcome where
  authenticated : Bool
  sessionIdle : Bool
  protocolVersion : Nat
  connectionLost : Bool
  deriving DecidableEq, Repr

/-- A message on the stream: the header fields that `ndmp_recv_msg` looks at, and how
far it can be read. -/
structure Incoming where
  isRequest : Bool
  message : Nat
  error : Nat
  headerDecoded : Bool
  endOfFile : Bool
  bodyAllocated : Bool
  bodyDecoded : Bool
  outcome : HandlerOutcome
  deriving DecidableEq, Repr

/-- A call of a request handler: the handler with its entry in the table, and the
state in which it is called. -/
structure HandlerCall where
  func : HandlerFunc
  message : Nat
  authRequired : Bool
  sizeofRequest : Bool
  connAuthorized : Bool
  body : Bool
  deriving DecidableEq, Repr

/-- The gate: authentication where it is required, and a body where one is declared. -/
def HandlerCall.Gated (call : HandlerCall) : Prop :=
  (call.authRequired = true → call.connAuthorized = true) ∧
    (call.sizeofRequest = true → call.body = true)

/-- The current message, a `msg_info_t`. -/
structure MsgInfo where
  miHandler : Option MsgHandler
  miBody : Bool
  deriving DecidableEq, Repr

/-- A connection with the local variables of `ndmp_process_messages` and the history. -/
structure Connection where
  ndmpVer : Nat
  connVersion : Nat
  connAuthorized : Bool
  connEof : Bool
  connMsginfo : MsgInfo
  replyExpected : Bool
  replyRead : Bool
  replyError : Bool
  calls : List HandlerCall
  responses : List Nat
  deriving DecidableEq, Repr

/-- `ndmp_get_interface`. An index behind the last interface of the table is outside
the array and finds nothing here. -/
def ndmpGetInterface (message : Nat) : Option NdmpHandler := do
  let interface ← ndmpMsghdlTab[(message / 256) % intMaxcmd]?
  if interface.hdCnt ≤ message % 256 then none
  else
    let entry ← interface.hdMsgs[message % 256]?
    if entry.hmMessage = message then some interface else none

/-- `ndmp_check_auth_required`. -/
def ndmpCheckAuthRequired (message : Nat) : Bool :=
  match ndmpGetInterface message with
  | none => false
  | some interface =>
      match interface.hdMsgs[message % 256]? with
      | none => false
      | some entry => entry.hmAuthRequired

namespace Connection

/-- `ndmp_get_handler`. There is a handler column for each of the versions 2, 3 and 4. -/
def ndmpGetHandler (connection : Connection) (message : Nat) : Option MsgHandler := do
  let interface ← ndmpGetInterface message
  let entry ← interface.hdMsgs[message % 256]?
  -- we don't support v1
  entry.hmMsgV[max connection.connVersion 2 - 2]?

/-- The middle part of `ndmp_recv_msg`, which makes room for a body with an XDR
function and decodes it. -/
def receiveBody (connection : Connection) (handler : MsgHandler) (declared : Bool)
    (incoming : Incoming) : Connection × Int :=
  if ¬ declared then (connection, 0)
  else if ¬ incoming.bodyAllocated then (connection, NdmpError.noMemErr.code)
  else if ¬ incoming.bodyDecoded then
    ({ connection with connMsginfo := ⟨some handler, false⟩ }, NdmpError.xdrDecodeErr.code)
  else ({ connection with connMsginfo := ⟨some handler, true⟩ }, 0)

/-- `ndmp_recv_msg`: 0, an error number, or -1 when the header cannot be decoded. -/
def ndmpRecvMsg (connection : Connection) (incoming : Incoming) : Connection × Int :=
  let connection :=
    { connection with connEof := connection.connEof || incoming.endOfFile }
  if ¬ incoming.headerDecoded then (connection, -1)
  else
    match connection.ndmpGetHandler incoming.message with
    | none =>
        ({ connection with connMsginfo := ⟨none, false⟩ }, NdmpError.notSupportedErr.code)
    | some handler =>
        let connection := { connection with connMsginfo := ⟨some handler, false⟩ }
        if incoming.error ≠ NdmpError.noErr.code then (connection, 0)
        else if incoming.isRequest then
          if ndmpCheckAuthRequired incoming.message ∧ ¬ connection.connAuthorized then
            (connection, NdmpError.notAuthorizedErr.code)
          else connection.receiveBody handler handler.mhSizeofRequest incoming
        else connection.receiveBody handler handler.mhSizeofReply incoming

/-- `ndmp_send_response` with an error number. -/
def ndmpSendResponse (connection : Connection) (error : Nat) : Connection :=
  { connection with responses := connection.responses ++ [error] }

/-- What a handler changes on the connection. -/
def handled (connection : Connection) (func : HandlerFunc) (outcome : HandlerOutcome) :
    Connection :=
  let connection := { connection with connEof := connection.connEof || outcome.connectionLost }
  match func with
  | .connectClientAuthV3 => { connection with connAuthorized := outcome.authenticated }
  | .connectOpenV3 =>
      if outcome.sessionIdle ∧ outcome.protocolVersion ≤ connection.ndmpVer then
        { connection with connVersion := outcome.protocolVersion }
      else connection
  | _ => connection

/-- Call the handler function with the body of the message. -/
def callHandler (connection : Connection) (func : HandlerFunc) (sizeofRequest : Bool)
    (incoming : Incoming) : Connection :=
  let call : HandlerCall := {
    func := func
    message := incoming.message
    authRequired := ndmpCheckAuthRequired incoming.message
    sizeofRequest := sizeofRequest
    connAuthorized := connection.connAuthorized
    body := connection.connMsginfo.miBody }
  { connection with calls := connection.calls ++ [call] }.handled func incoming.outcome

/-- The body of the loop of `ndmp_process_messages`. -/
def ndmpProcessMessage (connection : Connection) (incoming : Incoming) : Connection :=
  match { connection with connMsginfo := ⟨none, false⟩ }.ndmpRecvMsg incoming with
  | (connection, 0) =>
      if ¬ incoming.isRequest then
        if ¬ connection.replyExpected ∨ connection.replyRead then connection
        else { connection with replyRead := true }
      else
        match connection.connMsginfo.miHandler with
        | some ⟨some func, sizeofRequest, _⟩ => connection.callHandler func sizeofRequest incoming
        | _ => connection.ndmpSendResponse NdmpError.notSupportedErr.code
  | (connection, error) =>
      if connection.connEof then connection
      else if error < 1 then
        { connection with replyError := connection.replyError || !connection.replyRead }
      else if ¬ incoming.isRequest then
        { connection with
          replyRead := true
          replyError := connection.replyError || !connection.replyRead }
      else connection.ndmpSendResponse error.toNat

/-- A connection as `ndmp_create_xdr_connection` leaves it. -/
def created (ndmpVer : Nat) : Connection where
  ndmpVer := ndmpVer
  connVersion := max ndmpVer 2
  connAuthorized := false
  connEof := false
  connMsginfo := ⟨none, false⟩
  replyExpected := false
  replyRead := false
  replyError := false
  calls := []
  responses := []

end Connection

/-- Enter `ndmp_process_messages`, or read one message in its loop. -/
inductive ConnectionAction where
  | processMessages (replyExpected : Bool)
  | receive (incoming : Incoming)
  deriving DecidableEq, Repr

namespace Connection

/-- One step of the connection. Nothing is read from a connection that has ended. -/
def step (connection : Connection) : ConnectionAction → Option Connection
  | .processMessages replyExpected =>
      some { connection with
        replyExpected := replyExpected, replyRead := false, replyError := false }
  | .receive incoming =>
      if connection.connEof then none else some (connection.ndmpProcessMessage incoming)

/-- The connection as a transition system, for any configured version. -/
def system : Foundation.System Connection ConnectionAction where
  init connection := ∃ ndmpVer, connection = created ndmpVer
  step := step

/-- The message takes the early return of `ndmp_recv_msg` past a check that its handler
relies on: a request with an error in its header whose handler function exists and
either needs an authentication that the connection lacks or declares a body. -/
def SkipsGate (connection : Connection) (incoming : Incoming) : Prop :=
  incoming.headerDecoded = true ∧ incoming.isRequest = true ∧
    incoming.error ≠ NdmpError.noErr.code ∧
      ∃ handler, connection.ndmpGetHandler incoming.message = some handler ∧
        handler.mhFunc.isSome = true ∧
          (ndmpCheckAuthRequired incoming.message = true ∧ connection.connAuthorized = false ∨
            handler.mhSizeofRequest = true)

variable {connection received : Connection} {incoming : Incoming}

/-- A body that is declared is there when the message is accepted. -/
theorem receiveBody_accepts {handler : MsgHandler} {declared : Bool}
    (absent : connection.connMsginfo = ⟨some handler, false⟩)
    (accepted : connection.receiveBody handler declared incoming = (received, 0)) :
    received = { connection with connMsginfo := ⟨some handler, declared⟩ } := by
  unfold receiveBody at accepted
  cases declared with
  | false =>
      simp only [Bool.false_eq_true, not_false_eq_true, if_true, Prod.mk.injEq,
        and_true] at accepted
      rw [← accepted, ← absent]
  | true =>
      by_cases allocated : incoming.bodyAllocated = true
      · by_cases decoded : incoming.bodyDecoded = true
        · simpa [allocated, decoded, eq_comm] using accepted
        · simp [allocated, decoded, NdmpError.code] at accepted
      · simp [allocated, NdmpError.code] at accepted

/-- What `ndmp_recv_msg` has checked of a request that it accepts. -/
theorem ndmpRecvMsg_accepts (accepted : connection.ndmpRecvMsg incoming = (received, 0))
    (request : incoming.isRequest = true) :
    incoming.headerDecoded = true ∧ ∃ handler body,
      connection.ndmpGetHandler incoming.message = some handler ∧
        received = { connection with
          connEof := connection.connEof || incoming.endOfFile
          connMsginfo := ⟨some handler, body⟩ } ∧
        if incoming.error = NdmpError.noErr.code then
          body = handler.mhSizeofRequest ∧
            (ndmpCheckAuthRequired incoming.message = true → connection.connAuthorized = true)
        else body = false := by
  unfold ndmpRecvMsg at accepted
  by_cases decoded : incoming.headerDecoded = true
  · rw [if_neg (by simp [decoded])] at accepted
    refine ⟨decoded, ?_⟩
    split at accepted
    case h_1 => simp [NdmpError.code] at accepted
    case h_2 handler found =>
        by_cases failed : incoming.error = NdmpError.noErr.code
        · rw [if_neg (by simp [failed]), if_pos request] at accepted
          by_cases denied : ndmpCheckAuthRequired incoming.message = true ∧
              ¬ connection.connAuthorized = true
          · rw [if_pos denied] at accepted
            simp [NdmpError.code] at accepted
          · rw [if_neg denied] at accepted
            refine ⟨handler, handler.mhSizeofRequest, found, ?_, ?_⟩
            · exact receiveBody_accepts rfl accepted
            · rw [if_pos failed]
              exact ⟨rfl, fun required => by_contra fun missing => denied ⟨required, missing⟩⟩
        · rw [if_pos failed] at accepted
          cases accepted
          refine ⟨handler, false, found, rfl, ?_⟩
          rw [if_neg failed]
  · rw [if_pos (by simp [decoded])] at accepted
    cases accepted

theorem receiveBody_frame (handler : MsgHandler) (declared : Bool) :
    ∃ info, (connection.receiveBody handler declared incoming).1 =
      { connection with connMsginfo := info } := by
  unfold receiveBody
  repeat' split
  all_goals exact ⟨_, rfl⟩

/-- Receiving changes the current message and may end the connection. -/
theorem ndmpRecvMsg_frame (incoming : Incoming) :
    ∃ info, (connection.ndmpRecvMsg incoming).1 =
      { connection with
        connEof := connection.connEof || incoming.endOfFile
        connMsginfo := info } := by
  unfold ndmpRecvMsg
  dsimp only
  by_cases decoded : incoming.headerDecoded = true
  · rw [if_neg (by simp [decoded])]
    split
    · exact ⟨_, rfl⟩
    · split
      · exact ⟨_, rfl⟩
      split
      · split
        · exact ⟨_, rfl⟩
        · exact receiveBody_frame _ _
      · exact receiveBody_frame _ _
  · rw [if_pos (by simp [decoded])]
    exact ⟨_, rfl⟩

theorem ndmpRecvMsg_calls (incoming : Incoming) :
    (connection.ndmpRecvMsg incoming).1.calls = connection.calls := by
  obtain ⟨info, frame⟩ := @ndmpRecvMsg_frame connection incoming
  rw [frame]

/-- A request that skips the gate is accepted. -/
theorem SkipsGate.accepted (skips : connection.SkipsGate incoming) :
    (connection.ndmpRecvMsg incoming).2 = 0 := by
  obtain ⟨decoded, -, failed, handler, found, -, -⟩ := skips
  unfold ndmpRecvMsg
  rw [if_neg (by simp [decoded])]
  have found' : { connection with
      connEof := connection.connEof || incoming.endOfFile }.ndmpGetHandler incoming.message =
        some handler := found
  dsimp only
  rw [found']
  dsimp only
  rw [if_pos failed]

@[simp]
theorem handled_calls (func : HandlerFunc) (outcome : HandlerOutcome) :
    (connection.handled func outcome).calls = connection.calls := by
  cases func with
  | connectOpenV3 =>
      simp only [handled]
      split <;> rfl
  | _ => rfl

/-- The call that `callHandler` makes of an accepted request is gated exactly when the
request does not skip the gate. -/
theorem callHandler_gated {handler : MsgHandler} {func : HandlerFunc} {body : Bool}
    (decoded : incoming.headerDecoded = true) (request : incoming.isRequest = true)
    (found : connection.ndmpGetHandler incoming.message = some handler)
    (function : handler.mhFunc = some func)
    (checked : if incoming.error = NdmpError.noErr.code then
        body = handler.mhSizeofRequest ∧
          (ndmpCheckAuthRequired incoming.message = true → connection.connAuthorized = true)
      else body = false) :
    HandlerCall.Gated ⟨func, incoming.message, ndmpCheckAuthRequired incoming.message,
        handler.mhSizeofRequest, connection.connAuthorized, body⟩ ↔
      ¬ connection.SkipsGate incoming := by
  unfold HandlerCall.Gated
  constructor
  · rintro ⟨authorized, present⟩ ⟨-, -, failed, handler', found', -, unmet⟩
    have same : handler' = handler := Option.some.inj (found'.symm.trans found)
    subst same
    rw [if_neg failed] at checked
    rcases unmet with ⟨required, missing⟩ | declared
    · have granted := authorized required
      simp [missing] at granted
    · have here := present declared
      simp [checked] at here
  · intro gated
    by_cases clean : incoming.error = NdmpError.noErr.code
    · rw [if_pos clean] at checked
      exact ⟨checked.2, fun declared => checked.1.trans declared⟩
    · have unmet : ¬ (ndmpCheckAuthRequired incoming.message = true ∧
          connection.connAuthorized = false ∨ handler.mhSizeofRequest = true) := fun unmet =>
        gated ⟨decoded, request, clean, handler, found, by simp [function], unmet⟩
      rw [not_or] at unmet
      refine ⟨fun required => ?_, fun declared => absurd declared unmet.2⟩
      by_contra missing
      exact unmet.1 ⟨required, by simpa using missing⟩

/-- A message that is not accepted is answered at most with an error. -/
theorem ndmpProcessMessage_refused {error : Int}
    (result : { connection with connMsginfo := ⟨none, false⟩ }.ndmpRecvMsg incoming =
      (received, error)) (refused : error ≠ 0) :
    (connection.ndmpProcessMessage incoming).calls = received.calls := by
  unfold ndmpProcessMessage
  rw [result]
  split
  case h_1 accepted => exact absurd (Prod.ext_iff.mp accepted).2 refused
  case h_2 other code _ same =>
    obtain ⟨rfl, rfl⟩ := Prod.mk.inj same
    repeat' split
    all_goals rfl

/-- An accepted message leads to a call if it is a request with a handler function. -/
theorem ndmpProcessMessage_accepted
    (result : { connection with connMsginfo := ⟨none, false⟩ }.ndmpRecvMsg incoming =
      (received, 0)) :
    connection.ndmpProcessMessage incoming =
      if ¬ incoming.isRequest then
        if ¬ received.replyExpected ∨ received.replyRead then received
        else { received with replyRead := true }
      else
        match received.connMsginfo.miHandler with
        | some ⟨some func, sizeofRequest, _⟩ => received.callHandler func sizeofRequest incoming
        | _ => received.ndmpSendResponse NdmpError.notSupportedErr.code := by
  unfold ndmpProcessMessage
  rw [result]
  rfl

/-- One message leads to at most one call, and to an ungated one exactly when it skips
the gate. -/
theorem ndmpProcessMessage_calls (connection : Connection) (incoming : Incoming) :
    (connection.ndmpProcessMessage incoming).calls = connection.calls ∧
        ¬ connection.SkipsGate incoming ∨
      ∃ call, (connection.ndmpProcessMessage incoming).calls = connection.calls ++ [call] ∧
        (call.Gated ↔ ¬ connection.SkipsGate incoming) := by
  let cleared : Connection := { connection with connMsginfo := ⟨none, false⟩ }
  have kept : (cleared.ndmpRecvMsg incoming).1.calls = connection.calls :=
    ndmpRecvMsg_calls incoming
  rcases result : cleared.ndmpRecvMsg incoming with ⟨received, code⟩
  rw [result] at kept
  by_cases accepted : code = 0
  · subst accepted
    rw [ndmpProcessMessage_accepted result]
    by_cases request : incoming.isRequest = true
    · rw [if_neg (by simp [request])]
      obtain ⟨decoded, ⟨function, sizeofRequest, sizeofReply⟩, body, found, rfl, checked⟩ :=
        ndmpRecvMsg_accepts result request
      cases function with
      | none =>
          refine .inl ⟨rfl, ?_⟩
          rintro ⟨-, -, -, other, found', function, -⟩
          have same : other = ⟨none, sizeofRequest, sizeofReply⟩ :=
            Option.some.inj (found'.symm.trans found)
          simp [same] at function
      | some func =>
          have exactly := @callHandler_gated connection incoming _ func body decoded request
            found rfl checked
          exact .inr ⟨_, handled_calls _ _, exactly⟩
    · rw [if_pos (by simp [request])]
      refine .inl ⟨?_, fun skips => request skips.2.1⟩
      split
      · exact kept
      · exact kept
  · rw [ndmpProcessMessage_refused result accepted]
    refine .inl ⟨kept, fun skips => accepted ?_⟩
    have zero := @SkipsGate.accepted cleared incoming skips
    rw [result] at zero
    exact zero

/-- The calls stay gated exactly when the message does not skip the gate. -/
theorem ndmpProcessMessage_gated_iff (gated : ∀ call ∈ connection.calls, call.Gated)
    (incoming : Incoming) :
    (∀ call ∈ (connection.ndmpProcessMessage incoming).calls, call.Gated) ↔
      ¬ connection.SkipsGate incoming := by
  rcases ndmpProcessMessage_calls connection incoming with
    ⟨unchanged, passes⟩ | ⟨call, called, exactly⟩
  · rw [unchanged]
    exact iff_of_true gated passes
  · rw [called, ← exactly]
    constructor
    · intro all
      exact all call (by simp)
    · intro new other listed
      rcases List.mem_append.mp listed with old | last
      · exact gated other old
      · rw [List.mem_singleton.mp last]
        exact new

/-- The condition under which a step keeps the gate. -/
def KeepsGate (connection : Connection) : ConnectionAction → Prop
  | .processMessages _ => True
  | .receive incoming => ¬ connection.SkipsGate incoming

/-- **The gate holds** in every run in which no message takes the early return. -/
theorem gated_of_reachable (reached : system.ReachableBy KeepsGate connection) :
    ∀ call ∈ connection.calls, call.Gated := by
  refine reached.invariant (fun connection => ∀ call ∈ connection.calls, call.Gated) ?_ ?_
  · rintro _ ⟨ndmpVer, rfl⟩ call listed
    cases listed
  · intro connection action next gated keeps taken
    cases action with
    | processMessages replyExpected =>
        cases taken
        exact gated
    | receive incoming =>
        simp only [system, step, Option.ite_none_left_eq_some, Option.some.injEq] at taken
        obtain ⟨-, rfl⟩ := taken
        exact (ndmpProcessMessage_gated_iff gated incoming).mpr keeps

instance (connection : Connection) (incoming : Incoming) :
    Decidable (connection.SkipsGate incoming) :=
  match found : connection.ndmpGetHandler incoming.message with
  | none => isFalse fun skips => by
      obtain ⟨-, -, -, handler, found', -⟩ := skips
      exact absurd (found.symm.trans found') (by simp)
  | some handler =>
      decidable_of_iff
        (incoming.headerDecoded = true ∧ incoming.isRequest = true ∧
          incoming.error ≠ NdmpError.noErr.code ∧ handler.mhFunc.isSome = true ∧
            (ndmpCheckAuthRequired incoming.message = true ∧ connection.connAuthorized = false ∨
              handler.mhSizeofRequest = true)) <| by
        simp [SkipsGate, found]

instance (connection : Connection) (action : ConnectionAction) :
    Decidable (connection.KeepsGate action) :=
  match action with
  | .processMessages _ => isTrue trivial
  | .receive incoming => inferInstanceAs (Decidable (¬ connection.SkipsGate incoming))

/-- A request that can be read completely. -/
def request (message error : Nat) : Incoming where
  isRequest := true
  message := message
  error := error
  headerDecoded := true
  endOfFile := false
  bodyAllocated := true
  bodyDecoded := true
  outcome := ⟨true, true, 4, false⟩

/-- An authorized client asks for the state of the data server. -/
theorem gated_of_reachable_authorized :
    ∃ connection, system.run KeepsGate (created 4)
        [.processMessages false, .receive (request 0x901 0), .receive (request 0x400 0)] =
          some connection ∧
      connection.calls.length = 2 ∧ ∀ call ∈ connection.calls, call.Gated := by
  have runs : (system.run KeepsGate (created 4)
      [.processMessages false, .receive (request 0x901 0), .receive (request 0x400 0)]).map
        (fun connection => connection.calls.length) = some 2 := by decide
  obtain ⟨connection, ran, calls⟩ := Option.map_eq_some_iff.mp runs
  have start : system.init (created 4) := ⟨4, rfl⟩
  exact ⟨connection, ran, calls,
    gated_of_reachable (Foundation.System.ReachableBy.run (.init start) ran)⟩

/-- A `DATA_START_BACKUP` whose header carries an error reaches its handler on a
connection that nobody has authenticated on, and without a body. -/
theorem unauthenticated_backup_started :
    ∃ connection, system.Reachable connection ∧ ∃ call ∈ connection.calls,
      call.func = .dataStartBackupV3 ∧ call.authRequired = true ∧
        call.connAuthorized = false ∧ call.sizeofRequest = true ∧ call.body = false ∧
          ¬ call.Gated := by
  let call : HandlerCall := ⟨.dataStartBackupV3, 0x401, true, true, false, false⟩
  have runs : (system.run (fun _ _ => True) (created 4)
      [.processMessages false, .receive (request 0x401 1)]).map calls = some [call] := by decide
  obtain ⟨connection, ran, called⟩ := Option.map_eq_some_iff.mp runs
  have start : system.init (created 4) := ⟨4, rfl⟩
  refine ⟨connection, Foundation.System.ReachableBy.run (.init start) ran, call, ?_⟩
  refine ⟨by simp [called], rfl, rfl, rfl, rfl, rfl, ?_⟩
  intro gated
  exact absurd (gated.2 rfl) (by decide)

/-! ## Versions without handlers -/

/-- The first column of the table, which is that of version 2, is empty. -/
theorem mhFunc_of_oldVersion (old : connection.connVersion < 3) {message : Nat}
    {handler : MsgHandler} (found : connection.ndmpGetHandler message = some handler) :
    handler.mhFunc = none := by
  have empty : ∀ interface ∈ ndmpMsghdlTab, ∀ entry ∈ interface.hdMsgs,
      ∀ handler ∈ entry.hmMsgV[0]?, handler.mhFunc = none := by decide
  have column : max connection.connVersion 2 - 2 = 0 := by omega
  rw [ndmpGetHandler, column] at found
  obtain ⟨interface, listed, found⟩ := Option.bind_eq_some_iff.mp found
  obtain ⟨entry, inside, first⟩ := Option.bind_eq_some_iff.mp found
  rw [ndmpGetInterface] at listed
  obtain ⟨other, at_, listed⟩ := Option.bind_eq_some_iff.mp listed
  rw [Option.ite_none_left_eq_some] at listed
  obtain ⟨-, listed⟩ := listed
  obtain ⟨entry', -, listed⟩ := Option.bind_eq_some_iff.mp listed
  rw [Option.ite_none_right_eq_some] at listed
  cases listed.2
  exact empty _ (List.mem_of_getElem? at_) _ (List.mem_of_getElem? inside) _ first

/-- Nothing has been called, and what was answered are errors. -/
structure Unheard (before after : Connection) : Prop where
  version : after.connVersion = before.connVersion
  authorized : after.connAuthorized = before.connAuthorized
  calls : after.calls = before.calls
  errors : ∃ errors, after.responses = before.responses ++ errors ∧ 0 ∉ errors

theorem Unheard.trans {first middle last : Connection} (before : first.Unheard middle)
    (after : middle.Unheard last) : first.Unheard last := by
  obtain ⟨errors, answered, bad⟩ := before.errors
  obtain ⟨others, answered', bad'⟩ := after.errors
  refine ⟨after.version.trans before.version, after.authorized.trans before.authorized,
    after.calls.trans before.calls, errors ++ others, ?_, ?_⟩
  · rw [answered', answered, List.append_assoc]
  · rw [List.mem_append, not_or]
    exact ⟨bad, bad'⟩

/-- What only changes the variables of the loop is not heard. -/
theorem unheard_of_eq {next : Connection} (version : next.connVersion = connection.connVersion)
    (authorized : next.connAuthorized = connection.connAuthorized)
    (calls : next.calls = connection.calls) (responses : next.responses = connection.responses) :
    connection.Unheard next :=
  ⟨version, authorized, calls, [], by rw [responses, List.append_nil], List.not_mem_nil⟩

theorem unheard_ndmpSendResponse {error : Nat} (bad : error ≠ 0) :
    connection.Unheard (connection.ndmpSendResponse error) :=
  ⟨rfl, rfl, rfl, [error], rfl, by rw [List.mem_singleton]; exact bad.symm⟩

/-- A message to a connection of an old version is not heard. -/
theorem ndmpProcessMessage_unheard (old : connection.connVersion < 3) (incoming : Incoming) :
    connection.Unheard (connection.ndmpProcessMessage incoming) := by
  let cleared : Connection := { connection with connMsginfo := ⟨none, false⟩ }
  obtain ⟨info, frame⟩ := @ndmpRecvMsg_frame cleared incoming
  rcases result : cleared.ndmpRecvMsg incoming with ⟨received, code⟩
  rw [result] at frame
  have same : connection.Unheard received := by
    rw [show received = _ from frame]
    exact unheard_of_eq rfl rfl rfl rfl
  by_cases accepted : code = 0
  · subst accepted
    rw [ndmpProcessMessage_accepted result]
    by_cases request : incoming.isRequest = true
    · rw [if_neg (by simp [request])]
      obtain ⟨-, ⟨function, sizeofRequest, sizeofReply⟩, body, found, rfl, -⟩ :=
        ndmpRecvMsg_accepts result request
      cases @mhFunc_of_oldVersion cleared old _ _ found
      exact same.trans (unheard_ndmpSendResponse (by decide))
    · rw [if_pos (by simp [request])]
      split
      · exact same
      · exact same.trans (unheard_of_eq rfl rfl rfl rfl)
  · unfold ndmpProcessMessage
    rw [result]
    split
    case h_1 zero => exact absurd (Prod.ext_iff.mp zero).2 accepted
    case h_2 other error _ equal =>
      obtain ⟨rfl, rfl⟩ := Prod.mk.inj equal
      split
      · exact same
      split
      · exact same.trans (unheard_of_eq rfl rfl rfl rfl)
      split
      · exact same.trans (unheard_of_eq rfl rfl rfl rfl)
      · exact same.trans (unheard_ndmpSendResponse (by omega))

/-- **A version before 3 ends the dialogue.** `ndmpd_connect_open_v3` agrees to versions that
have no handlers. On such a connection no message is heard any more, not even another
`CONNECT_OPEN`: it stays as it is, and every answer is an error. -/
theorem unheard_of_run (old : connection.connVersion < 3) {actions : List ConnectionAction}
    {last : Connection} (ran : system.run (fun _ _ => True) connection actions = some last) :
    connection.Unheard last := by
  refine Foundation.System.run_invariant connection.Unheard ?_ ran (unheard_of_eq rfl rfl rfl rfl)
  intro before action next unheard _ taken
  cases action with
  | processMessages replyExpected =>
      cases taken
      exact unheard.trans (unheard_of_eq rfl rfl rfl rfl)
  | receive incoming =>
      simp only [system, step, Option.ite_none_left_eq_some, Option.some.injEq] at taken
      obtain ⟨-, rfl⟩ := taken
      exact unheard.trans (ndmpProcessMessage_unheard (by rw [unheard.version]; exact old) incoming)

/-- A `CONNECT_OPEN` for version 2. -/
def openVersionTwo : Incoming := { request 0x900 0 with outcome := ⟨false, true, 2, false⟩ }

/-- After it the client cannot go back to version 4, and cannot authenticate. -/
theorem unheard_of_run_versionTwo :
    ∃ opened last,
      system.run (fun _ _ => True) (created 4)
        [.processMessages false, .receive openVersionTwo] = some opened ∧
      system.run (fun _ _ => True) opened
        [.receive (request 0x900 0), .receive (request 0x901 0)] = some last ∧
      opened.connVersion = 2 ∧ opened.calls.length = 1 ∧ opened.Unheard last := by
  have runs : (system.run (fun _ _ => True) (created 4)
      [.processMessages false, .receive openVersionTwo]).map
        (fun opened => (opened.connVersion, opened.calls.length,
          (system.run (fun _ _ => True) opened
            [.receive (request 0x900 0), .receive (request 0x901 0)]).isSome)) =
      some (2, 1, true) := by decide
  obtain ⟨opened, ran, seen⟩ := Option.map_eq_some_iff.mp runs
  simp only [Prod.mk.injEq] at seen
  obtain ⟨version, calls, more⟩ := seen
  obtain ⟨last, rest⟩ := Option.isSome_iff_exists.mp more
  exact ⟨opened, last, ran, rest, version, calls, unheard_of_run (by rw [version]; decide) rest⟩

end Connection

end Ndmpd
