import Ndmpd.Foundation.RestartScan
import Ndmpd.Session.DataSockets

/-!
# The event loop of a session

`connection_handler` calls `ndmpd_select` until the connection has ended. One call waits in
`select(2)` and then hands each ready descriptor to a handler of the session's list. The
handlers change that list: the one that accepts a data connection removes itself.

A call waits for its first round that is not quiet. If descriptors are ready there, and the 90
seconds of a blocking call are not over, it hands each of them to one handler at most, which is
registered at that moment, and returns 1 only when no registered handler is left with one
(`ndmpdSelect_delivers`). The loop takes no step that the data server does not know: what it
reaches, the data server reaches, and `data_accept_connection_v3` is only called in state
`LISTEN`, on the listening socket (`session_of_loop`).
-/

namespace Ndmpd

open Foundation

/-- `NDMPD_SELECT_MODE_*`, which are bits of `fh_mode`. -/
inductive SelectMode where
  | read
  | write
  | exception
  deriving DecidableEq, Repr

def SelectMode.bit : SelectMode → Nat
  | read => 1
  | write => 2
  | exception => 4

/-- `HC_CLIENT`. -/
abbrev hcClient : Nat := 1

/-- `HC_MOVER`. -/
abbrev hcMover : Nat := 2

/-- `HC_ALL`. -/
abbrev hcAll : Nat := 0xffffffff

namespace FileHandler

variable (handler : FileHandler)

/-- Both functions are registered for reading. -/
def fhMode : Nat :=
  match handler.fhFunc with
  | .connectionFileHandler | .dataAcceptConnectionV3 => SelectMode.read.bit

/-- The class that `connection_handler` and `create_listen_socket_v3` register with. -/
def fhClass : Nat :=
  match handler.fhFunc with
  | .connectionFileHandler => hcClient
  | .dataAcceptConnectionV3 => hcMover

/-- The handler is one of these classes. -/
def inClass (classMask : Nat) : Bool := handler.fhClass &&& classMask ≠ 0

end FileHandler

/-- `NDMP_MOVER_MODE_*`. -/
inductive MoverMode where
  | read
  | write
  | noaction
  deriving DecidableEq, Repr

/-- What a handler meets at a ready descriptor: the result of `accept(2)`, or the requests
that are processed, with the steps of other threads in between, and whether the connection
ends with them. -/
structure Arrival where
  sock : Option Int
  actions : List DataAction
  eof : Bool
  deriving DecidableEq, Repr

/-- A descriptor that `select(2)` has found ready. -/
structure ReadyFd where
  fd : Int
  mode : SelectMode
  arrival : Arrival
  deriving DecidableEq, Repr

/-- One round of `select(2)`: the ready descriptors, or an error, which may be `EINTR`; what
`ndmp_connection_closed` has found before; and the seconds since `ndmpd_select` was called. -/
structure Poll where
  ready : List ReadyFd
  interrupted : Option Bool
  moverClosed : Bool
  waited : Nat
  deriving DecidableEq, Repr

/-- The round comes when a blocking call gives up. What is ready then is not looked at. -/
def Poll.Late (block : Bool) (poll : Poll) : Prop := block = true ∧ 90 ≤ poll.waited

/-- A blocking call waits once more behind this round. -/
structure Poll.Quiet (block : Bool) (poll : Poll) : Prop where
  block : block = true
  soon : poll.waited < 90
  works : poll.interrupted = none
  nothing : poll.ready = []

/-- The session, as far as its event loop knows it. -/
structure EventLoop where
  session : DataServer
  nsEof : Bool
  connSock : Int
  mdMode : MoverMode
  /-- `connection_handler` has left its loop. -/
  ended : Bool
  deriving DecidableEq, Repr

/-- What a call of `ndmpd_select` comes to. -/
structure SelectRun where
  rv : Int
  loop : EventLoop
  calls : List (FileHandler × List ReadyFd)
  deriving DecidableEq, Repr

namespace EventLoop

variable (allowed : DataServer → DataAction → Prop) [∀ s a, Decidable (allowed s a)]

/-- What can happen while requests are processed. -/
def Served (session : DataServer) : DataAction → Prop
  | .acceptConnection .. => False
  | action => allowed session action

instance (session : DataServer) (action : DataAction) : Decidable (Served allowed session action) :=
  match action with
  | .acceptConnection .. => isFalse id
  | .listenV3 .. | .listenV4 .. | .connectV3 .. | .connectV4 .. | .startBackup _
  | .startRecover _ | .abort | .stop | .workerStarts _ | .stopRemoteReader | .operationDone ..
  | .workerExits _ =>
      inferInstanceAs (Decidable (allowed _ _))

variable (loop : EventLoop)

/-- `ndmp_check_mover_state`. -/
def ndmpCheckMoverState (closed : Bool) : EventLoop :=
  if 0 ≤ loop.session.mdSock ∧ loop.mdMode = .write ∧ closed then
    { loop with session := loop.session.ndmpdMoverError }
  else loop

/-- `connection_file_handler`, where the requests are processed to their end. -/
def connectionFileHandler (arrival : Arrival) : Option EventLoop :=
  (DataServer.system.run (Served allowed) loop.session arrival.actions).map fun session =>
    { loop with session := session, nsEof := loop.nsEof || arrival.eof }

/-- `data_accept_connection_v3` on a descriptor that the system may hand out. -/
def acceptConnection (fd : Int) (arrival : Arrival) : Option EventLoop :=
  if allowed loop.session (.acceptConnection fd arrival.sock) ∧
      loop.session.fresh arrival.sock then
    some { loop with session := loop.session.dataAcceptConnectionV3 fd arrival.sock }
  else none

/-- `(*handler->fh_func)`. -/
def fhFunc (handler : FileHandler) (arrival : Arrival) : Option EventLoop :=
  match handler.fhFunc with
  | .connectionFileHandler => loop.connectionFileHandler allowed arrival
  | .dataAcceptConnectionV3 => loop.acceptConnection allowed handler.fhFd arrival

/-- The walk of `ndmpd_select` over the handlers, each of which takes its own descriptor in
its own modes. -/
def dispatcher (classMask : Nat) : Dispatcher EventLoop FileHandler ReadyFd where
  handlers loop := loop.session.nsFileHandlerList
  wants handler ready :=
    handler.inClass classMask && (handler.fhFd = ready.fd && handler.fhMode &&& ready.mode.bit ≠ 0)
  call loop handler taken := taken.head?.bind fun ready => loop.fhFunc allowed handler ready.arrival

/-- A failed `select(2)` leaves the descriptors set as they were. -/
def connectionWatched (classMask : Nat) : Bool :=
  loop.session.nsFileHandlerList.any fun handler =>
    handler.inClass classMask && (handler.fhMode ≠ 0 && handler.fhFd = loop.connSock)

/-- The rounds of `select(2)`, which are the last ones when they return. A blocking call
gives up after 90 seconds. -/
def selectLoop (block : Bool) (classMask : Nat) : List Poll → EventLoop → Option SelectRun
  | [], _ => none
  | poll :: polls, loop =>
      let loop := loop.ndmpCheckMoverState poll.moverClosed
      if block ∧ 90 ≤ poll.waited then some ⟨-1, loop, []⟩
      else
        match poll.interrupted with
        | some true => some ⟨0, loop, []⟩
        | some false =>
            some ⟨-1, { loop with nsEof := loop.nsEof || loop.connectionWatched classMask }, []⟩
        | none =>
            if poll.ready = [] then
              if block then selectLoop block classMask polls loop else some ⟨0, loop, []⟩
            else
              ((dispatcher allowed classMask).scan loop poll.ready).map fun done =>
                ⟨1, done.state, done.calls⟩

/-- `ndmpd_select`. -/
def ndmpdSelect (block : Bool) (classMask : Nat) (polls : List Poll) : Option SelectRun :=
  if loop.session.nsFileHandlerList = [] then some ⟨0, loop, []⟩
  else loop.selectLoop allowed block classMask polls

/-! ## What a call delivers -/

variable {allowed} {loop}

theorem ndmpdMoverError_idem (session : DataServer) :
    session.ndmpdMoverError.ndmpdMoverError = session.ndmpdMoverError := by
  by_cases halted : session.mdState = .halted ∨
      2 < session.nsProtocolVersion ∧ session.mdState = .idle
  · have same : session.ndmpdMoverError = session := if_pos halted
    rw [same, same]
  · have isHalted : session.ndmpdMoverError.mdState = .halted := by
      rw [DataServer.ndmpdMoverError, if_neg halted]
    exact if_pos (.inl isHalted)

/-- Checking a mover that writes can halt it, and nothing else happens. -/
def Checked (loop checked : EventLoop) : Prop :=
  checked = loop ∨
    loop.mdMode = .write ∧ checked = { loop with session := loop.session.ndmpdMoverError }

theorem checked_ndmpCheckMoverState (closed : Bool) :
    loop.Checked (loop.ndmpCheckMoverState closed) := by
  rw [ndmpCheckMoverState]
  split
  · rename_i halts
    exact .inr ⟨halts.2.1, rfl⟩
  · exact .inl rfl

theorem Checked.trans {middle last : EventLoop} (first : loop.Checked middle)
    (second : middle.Checked last) : loop.Checked last := by
  rcases first with rfl | ⟨writes, rfl⟩
  · exact second
  · rcases second with rfl | ⟨-, rfl⟩
    · exact .inr ⟨writes, rfl⟩
    · refine .inr ⟨writes, ?_⟩
      dsimp only
      rw [ndmpdMoverError_idem]

variable (allowed) in
/-- The ready descriptors of this round are handed to registered handlers, each once, and no
handler that is registered at the end is left with one of them. -/
structure Delivers (checked : EventLoop) (classMask : Nat) (poll : Poll) (done : SelectRun) :
    Prop where
  calls : (dispatcher allowed classMask).Calls checked done.calls done.loop
  once : ∃ left, (done.calls.flatMap Prod.snd ++ left).Perm poll.ready ∧
    ∀ handler ∈ done.loop.session.nsFileHandlerList,
      (dispatcher allowed classMask).taken handler left = []

variable (loop) in
/-- The mover has been checked in front of each round. -/
def checkedFor (polls : List Poll) : EventLoop :=
  polls.foldl (fun loop poll => loop.ndmpCheckMoverState poll.moverClosed) loop

theorem checked_checkedFor (polls : List Poll) : loop.Checked (loop.checkedFor polls) := by
  induction polls generalizing loop with
  | nil => exact .inl rfl
  | cons poll polls ih => exact (checked_ndmpCheckMoverState poll.moverClosed).trans ih

variable (allowed) in
/-- How a call of `ndmpd_select` ends with a round: after 90 seconds, interrupted, with an
error, without ready descriptors or with some. Each round has one of these ends, but for a
quiet one. -/
inductive EndsWith (block : Bool) (classMask : Nat) (poll : Poll) (checked : EventLoop) :
    SelectRun → Prop where
  | expired : poll.Late block → EndsWith block classMask poll checked ⟨-1, checked, []⟩
  | interrupted : ¬ poll.Late block → poll.interrupted = some true →
      EndsWith block classMask poll checked ⟨0, checked, []⟩
  | failed : ¬ poll.Late block → poll.interrupted = some false →
      EndsWith block classMask poll checked
        ⟨-1, { checked with nsEof := checked.nsEof || checked.connectionWatched classMask }, []⟩
  | idle : ¬ poll.Late block → poll.interrupted = none → poll.ready = [] → block = false →
      EndsWith block classMask poll checked ⟨0, checked, []⟩
  | delivered {done : SelectRun} : ¬ poll.Late block → poll.interrupted = none →
      poll.ready ≠ [] → done.rv = 1 → checked.Delivers allowed classMask poll done →
        EndsWith block classMask poll checked done

variable (allowed) in
/-- A wait in `ndmpd_select` ends with the first round that is not quiet. -/
def Ends (block : Bool) (classMask : Nat) (polls : List Poll) (loop : EventLoop)
    (done : SelectRun) : Prop :=
  ∃ earlier last later, polls = earlier ++ last :: later ∧
    (∀ poll ∈ earlier, poll.Quiet block) ∧
    EndsWith allowed block classMask last (loop.checkedFor (earlier ++ [last])) done

/-- The walk over the handlers delivers what is ready. -/
theorem delivers_of_scan {classMask : Nat} {poll : Poll}
    {done : Dispatcher.Scan EventLoop FileHandler ReadyFd}
    (scanned : (dispatcher allowed classMask).scan loop poll.ready = some done) :
    loop.Delivers allowed classMask poll ⟨1, done.state, done.calls⟩ where
  calls := Dispatcher.scan_calls scanned
  once := ⟨done.left, Dispatcher.scan_delivered scanned, Dispatcher.scan_quiet scanned⟩

/-- A wait that ends with its first round. -/
theorem EndsWith.ends {block : Bool} {classMask : Nat} {poll : Poll} {done : SelectRun}
    (ends : EndsWith allowed block classMask poll (loop.ndmpCheckMoverState poll.moverClosed) done)
    (polls : List Poll) : Ends allowed block classMask (poll :: polls) loop done :=
  ⟨[], poll, polls, rfl, fun _ earlier => absurd earlier List.not_mem_nil, ends⟩

/-- A quiet round in front of a wait changes nothing but the mover. -/
theorem Ends.later {block : Bool} {classMask : Nat} {poll : Poll} {polls : List Poll}
    {done : SelectRun} (quiet : poll.Quiet block)
    (ends : Ends allowed block classMask polls (loop.ndmpCheckMoverState poll.moverClosed) done) :
    Ends allowed block classMask (poll :: polls) loop done := by
  obtain ⟨earlier, last, later, rfl, quiets, endsWith⟩ := ends
  exact ⟨poll :: earlier, last, later, rfl, List.forall_mem_cons.mpr ⟨quiet, quiets⟩, endsWith⟩

/-- Each round of the wait ends it or leads to the next one. -/
theorem selectLoop_ends {block : Bool} {classMask : Nat} {polls : List Poll} {done : SelectRun}
    (ran : loop.selectLoop allowed block classMask polls = some done) :
    Ends allowed block classMask polls loop done := by
  induction polls generalizing loop with
  | nil => cases ran
  | cons poll polls ih =>
      simp only [selectLoop] at ran
      split at ran
      · rename_i late
        cases ran
        exact (EndsWith.expired late).ends polls
      · rename_i soon
        cases error : poll.interrupted with
        | some interrupted =>
            rw [error] at ran
            cases interrupted <;> cases ran
            · exact (EndsWith.failed soon error).ends polls
            · exact (EndsWith.interrupted soon error).ends polls
        | none =>
            rw [error] at ran
            dsimp only at ran
            by_cases quiet : poll.ready = []
            · rw [if_pos quiet] at ran
              split at ran
              · rename_i blocks
                have early : poll.waited < 90 :=
                  Nat.lt_of_not_le fun late => soon ⟨blocks, late⟩
                exact .later ⟨blocks, early, error, quiet⟩ (ih ran)
              · rename_i polling
                cases ran
                exact (EndsWith.idle soon error quiet (eq_false_of_ne_true polling)).ends polls
            · rw [if_neg quiet] at ran
              obtain ⟨scan, scanned, rfl⟩ := Option.map_eq_some_iff.mp ran
              exact (EndsWith.delivered soon error quiet rfl (delivers_of_scan scanned)).ends polls

/-- **Each ready descriptor is delivered at most once.** Without handlers a call of
`ndmpd_select` returns 0 at once. With handlers it ends with its first round that is not
quiet: when descriptors are ready there, and a blocking call is not 90 seconds old, each is
handed to one registered handler at most, and none that a handler wants is left; in all other
cases no handler is called. -/
theorem ndmpdSelect_delivers {block : Bool} {classMask : Nat} {polls : List Poll}
    {done : SelectRun} (ran : loop.ndmpdSelect allowed block classMask polls = some done) :
    (loop.session.nsFileHandlerList = [] → done = ⟨0, loop, []⟩) ∧
      (loop.session.nsFileHandlerList ≠ [] → Ends allowed block classMask polls loop done) := by
  rw [ndmpdSelect] at ran
  split at ran
  · rename_i none_
    cases ran
    exact ⟨fun _ => rfl, fun some_ => absurd none_ some_⟩
  · rename_i some_
    exact ⟨fun none_ => absurd none_ some_, fun _ => selectLoop_ends ran⟩

/-- A data server that waits for a connection on descriptor 7. -/
def waiting : EventLoop where
  session := (DataServer.initial 3 4).ndmpdDataListenV4 .tcp (some 7) true
  nsEof := false
  connSock := 3
  mdMode := .read
  ended := false

/-- The mover connects while the client asks for a listening socket once more. -/
def bothReady : List Poll :=
  [⟨[], none, false, 10⟩,
    ⟨[⟨3, .read, ⟨none, [.listenV4 .tcp (some 9) true], false⟩⟩, ⟨7, .read, ⟨some 8, [], false⟩⟩],
      none, false, 20⟩]

/-- The connection is accepted first, and its handler is gone when the client's turn comes. -/
theorem ndmpdSelect_delivers_bothReady :
    ∃ done, waiting.ndmpdSelect (fun _ _ => True) true hcAll bothReady = some done ∧
      done.calls.map Prod.fst =
        [⟨7, .dataAcceptConnectionV3⟩, ⟨3, .connectionFileHandler⟩] ∧
      Ends (fun _ _ => True) true hcAll bothReady waiting done := by
  have ends : (waiting.ndmpdSelect (fun _ _ => True) true hcAll bothReady).map
      (fun done => done.calls.map Prod.fst) =
        some [⟨7, .dataAcceptConnectionV3⟩, ⟨3, .connectionFileHandler⟩] := by
    decide +kernel
  obtain ⟨done, ran, calls⟩ := Option.map_eq_some_iff.mp ends
  exact ⟨done, ran, calls, (ndmpdSelect_delivers ran).2 (by decide)⟩

/-! ## The loop of a connection -/

/-- A call of `ndmpd_select`, or a step of a worker thread in between. -/
inductive LoopAction where
  | select (polls : List Poll)
  | worker (action : DataAction)
  deriving DecidableEq, Repr

/-- What worker threads do. -/
def byWorker : DataAction → Bool
  | .workerStarts _ | .stopRemoteReader | .operationDone .. | .workerExits _ => true
  | _ => false

variable (allowed) in
/-- The loop goes on until the connection has ended or `ndmpd_select` has failed. -/
def step (loop : EventLoop) : LoopAction → Option EventLoop
  | .select polls =>
      if loop.nsEof ∨ loop.ended then none
      else
        (loop.ndmpdSelect allowed true hcAll polls).map fun run =>
          { run.loop with ended := run.rv < 0 }
  | .worker action =>
      if byWorker action ∧ allowed loop.session action then
        (loop.session.step action).map fun session => { loop with session := session }
      else none

/-- The session as `connection_handler` sets it up. -/
def initial (connection : Int) (version : Nat) : EventLoop where
  session := .initial connection version
  nsEof := false
  connSock := connection
  mdMode := .read
  ended := false

variable (allowed) in
def system : Foundation.System EventLoop LoopAction where
  init loop :=
    ∃ connection version, 0 ≤ connection ∧ (version = 3 ∨ version = 4) ∧
      loop = initial connection version
  step := step allowed

open Foundation.System

section Follows

variable {inv : Int → DataServer → Prop}

variable (inv) in
/-- The data server of a connection is as its own steps leave it, and the mover does not
write. -/
structure Follows (loop : EventLoop) : Prop where
  holds : inv loop.connSock loop.session
  mdMode : loop.mdMode = .read

/-- Every step of the data server keeps its invariant. -/
abbrev Kept (allowed : DataServer → DataAction → Prop) (inv : Int → DataServer → Prop) : Prop :=
  ∀ connection session action next, inv connection session → allowed session action →
    DataServer.system.step session action = some next → inv connection next

omit [∀ s a, Decidable (allowed s a)] in
theorem allowed_of_served {session : DataServer} {action : DataAction}
    (served : Served allowed session action) : allowed session action := by
  cases action <;> first | exact served | exact served.elim

/-- A handler takes steps of the data server. -/
theorem Follows.call (follows : loop.Follows inv) (kept : Kept allowed inv) {classMask : Nat}
    {handler : FileHandler} {taken : List ReadyFd} {next : EventLoop}
    (registered : handler ∈ loop.session.nsFileHandlerList)
    (called : (dispatcher allowed classMask).call loop handler taken = some next) :
    next.Follows inv := by
  obtain ⟨ready, -, called⟩ := Option.bind_eq_some_iff.mp called
  obtain ⟨fd, func⟩ := handler
  cases func with
  | connectionFileHandler =>
      obtain ⟨session, ran, rfl⟩ := Option.map_eq_some_iff.mp called
      refine ⟨run_invariant (inv loop.connSock) ?_ ran follows.holds, follows.mdMode⟩
      exact fun _ _ _ holds served taken => kept _ _ _ _ holds (allowed_of_served served) taken
  | dataAcceptConnectionV3 =>
      obtain ⟨⟨meets, isFresh⟩, rfl⟩ := of_guarded called
      have taken : DataServer.system.step loop.session (.acceptConnection fd ready.arrival.sock) =
          some _ := if_pos ⟨registered, isFresh⟩
      exact ⟨kept _ _ _ _ follows.holds meets taken, follows.mdMode⟩

/-- A mover that does not write is left alone. -/
theorem Follows.checked (follows : loop.Follows inv) {checked : EventLoop}
    (same : loop.Checked checked) : checked = loop := by
  rcases same with rfl | ⟨writes, -⟩
  · rfl
  · cases follows.mdMode.symm.trans writes

/-- So does a call of `ndmpd_select`. -/
theorem Follows.select (follows : loop.Follows inv) (kept : Kept allowed inv) {block : Bool}
    {classMask : Nat} {polls : List Poll} {done : SelectRun}
    (ran : loop.ndmpdSelect allowed block classMask polls = some done) :
    done.loop.Follows inv := by
  rw [ndmpdSelect] at ran
  split at ran
  · cases ran
    exact follows
  · obtain ⟨earlier, last, later, -, -, endsWith⟩ := selectLoop_ends ran
    rw [follows.checked (checked_checkedFor _)] at endsWith
    cases endsWith with
    | delivered _ _ _ _ delivers =>
        exact delivers.calls.invariant
          (fun _ _ _ _ holds registered _ _ called => holds.call kept registered called) follows
    | expired _ | interrupted _ _ | idle _ _ _ _ => exact follows
    | failed _ _ => exact ⟨follows.holds, follows.mdMode⟩

/-- Every step of the loop is a run of the data server. -/
theorem Follows.step (follows : loop.Follows inv) (kept : Kept allowed inv) {action : LoopAction}
    {next : EventLoop} (taken : loop.step allowed action = some next) : next.Follows inv := by
  cases action with
  | select polls =>
      simp only [EventLoop.step, Option.ite_none_left_eq_some] at taken
      obtain ⟨-, taken⟩ := taken
      obtain ⟨done, ran, rfl⟩ := Option.map_eq_some_iff.mp taken
      have later := follows.select kept ran
      exact ⟨later.holds, later.mdMode⟩
  | worker action =>
      simp only [EventLoop.step, Option.ite_none_right_eq_some] at taken
      obtain ⟨⟨-, meets⟩, taken⟩ := taken
      obtain ⟨session, worked, rfl⟩ := Option.map_eq_some_iff.mp taken
      exact ⟨kept _ _ _ _ follows.holds meets worked, follows.mdMode⟩

end Follows

/-! ## Handlers and states -/

/-- No step strands a socket. -/
abbrev KeepsSockets (session : DataServer) (action : DataAction) : Prop :=
  ¬ session.StrandsSocket action

/-- The data server has come here by such steps, and its sockets are in order. -/
structure Steady (connection : Int) (session : DataServer) : Prop where
  reached : DataServer.system.ReachableBy KeepsSockets session
  sound : session.Sound connection

theorem kept_steady : Kept KeepsSockets Steady :=
  fun _ _ _ _ steady keeps taken => ⟨steady.reached.step keeps taken, steady.sound.step keeps taken⟩

theorem follows_of_reachable (reached : (system KeepsSockets).Reachable loop) :
    loop.Follows Steady := by
  refine reached.invariant (Follows Steady) ?_ ?_
  · rintro _ ⟨connection, version, valid, supported, rfl⟩
    exact ⟨⟨.init ⟨connection, version, valid, supported, rfl⟩, .initial valid supported⟩, rfl⟩
  · exact fun _ _ _ follows _ taken => follows.step kept_steady taken

/-- **The loop keeps to the data server's steps.** Where no step strands a socket, all that
the loop of a connection reaches, the data server reaches; the control connection is always
watched, and the listening socket exactly while there is one; and `data_accept_connection_v3`
is only called in state `LISTEN`, on the listening socket: so it is in the state that the calls
before it have led to. -/
theorem session_of_loop (reached : (system KeepsSockets).Reachable loop) :
    DataServer.system.ReachableBy KeepsSockets loop.session ∧
      loop.session.nsFileHandlerList =
        DataServer.handlersFor loop.connSock loop.session.ddListenSock ∧
      ∀ block classMask polls done,
        loop.ndmpdSelect KeepsSockets block classMask polls = some done →
          ∀ earlier made later, done.calls = earlier ++ made :: later →
            made.1.fhFunc = .dataAcceptConnectionV3 →
              ∃ before after ready,
                (dispatcher KeepsSockets classMask).Calls loop earlier before ∧
                before.session.ddState = .listen ∧ before.session.ddListenSock = made.1.fhFd ∧
                made.2.head? = some ready ∧
                before.acceptConnection KeepsSockets made.1.fhFd ready.arrival = some after ∧
                (dispatcher KeepsSockets classMask).Calls after later done.loop := by
  have follows := follows_of_reachable reached
  refine ⟨follows.holds.reached, follows.holds.sound.handlers, ?_⟩
  intro block classMask polls done ran earlier made later calls accepts
  have called : made ∈ done.calls := by simp [calls]
  rw [ndmpdSelect] at ran
  split at ran
  · cases ran
    exact absurd called List.not_mem_nil
  · obtain ⟨_, _, _, -, -, endsWith⟩ := selectLoop_ends ran
    rw [follows.checked (checked_checkedFor _)] at endsWith
    cases endsWith with
    | delivered _ _ _ _ delivers =>
        have led := delivers.calls
        rw [calls] at led
        obtain ⟨before, after, first, registered, taken, rest⟩ := led.split
        have holds : before.Follows Steady := first.invariant
          (fun _ _ _ _ holds registered _ _ called => holds.call kept_steady registered called)
          follows
        obtain ⟨⟨fd, func⟩, tokens⟩ := made
        cases accepts
        obtain ⟨same, held⟩ := holds.holds.sound.accept_handler registered
        have listening := (holds.holds.sound.listenSock held).2.2.2
        obtain ⟨ready, head, taken⟩ := Option.bind_eq_some_iff.mp taken
        exact ⟨before, after, ready, first, listening, same.symm, head, taken, rest⟩
    | expired _ | interrupted _ _ | failed _ _ | idle _ _ _ _ =>
        exact absurd called List.not_mem_nil

/-- The client asks for a listening socket, and the mover connects to it. -/
def acceptedLoop : List LoopAction :=
  [.select [⟨[⟨3, .read, ⟨none, [.listenV4 .tcp (some 7) true], false⟩⟩], none, false, 0⟩],
    .select [⟨[⟨7, .read, ⟨some 8, [], false⟩⟩], none, false, 5⟩]]

theorem session_of_loop_accepted :
    ∃ loop, (system KeepsSockets).run (fun _ _ => True) (initial 3 4) acceptedLoop = some loop ∧
      loop.session.ddState = .connected ∧
      DataServer.system.ReachableBy KeepsSockets loop.session := by
  have ends : ((system KeepsSockets).run (fun _ _ => True) (initial 3 4) acceptedLoop).map
      (fun loop => loop.session.ddState) = some .connected := by
    decide +kernel
  obtain ⟨loop, ran, state⟩ := Option.map_eq_some_iff.mp ends
  have start : (system KeepsSockets).Reachable (initial 3 4) :=
    .init ⟨3, 4, by decide, .inr rfl, rfl⟩
  exact ⟨loop, ran, state, (session_of_loop (start.run ran)).1⟩

end EventLoop

end Ndmpd
