import Mathlib.Algebra.Order.Group.Nat
import Mathlib.Data.Fintype.Basic
import Mathlib.Data.List.Flatten
import Mathlib.Logic.Function.Basic
import Ndmpd.Foundation.Transition

/-!
# The stream of control messages

The threads of a session write to one XDR record stream. The control thread replies under
`conn_lock`, and file history is sent under it too; log messages, recovered files and halt
notifications go through `ndmp_send_request`, which takes no lock. All share the sequence
counter, the direction flag of the stream and, for log messages, a static text buffer.

In a run in which no use without the lock overlaps another one, the stream is made of whole
messages with increasing sequence numbers (`framed_of_inTurn`). Where a log message comes
between a reply's header and its body, it is not (`reply_interleaved`).
-/

namespace Ndmpd

namespace ControlStream

open Foundation.System

inductive XdrOp where
  | encode
  | decode
  | free
  deriving DecidableEq, Repr

/-- A message that is sent: its code and, when it has one, its body. The body of a log
message is encoded from the static buffer of `ndmpd_api_log_v4`. -/
structure Message where
  message : Nat
  body : Option Nat
  log : Bool
  deriving DecidableEq, Repr

/-- What is put into the stream. A header stands for its message. -/
inductive Token where
  | header (sequence : UInt64) (message : Message)
  | body (content : Nat)
  | endOfRecord
  /-- A structure that is only decoded or freed, or a part of what failed to encode. -/
  | stray
  deriving DecidableEq, Repr

/-- A message with the sequence number it was given. -/
abbrev Sent := UInt64 × Message

namespace Message

def bodyTokens (message : Message) : List Token :=
  (message.body.map .body).toList

end Message

def Sent.tokens (sent : Sent) : List Token :=
  .header sent.1 sent.2 :: sent.2.bodyTokens ++ [.endOfRecord]

/-- Whole messages with increasing sequence numbers, the last one perhaps not yet finished. -/
def Framed (stream : List Token) : Prop :=
  ∃ messages : List Sent, messages.Pairwise (·.1 < ·.1) ∧
    stream <+: messages.flatMap Sent.tokens

/-! ## The threads -/

/-- How far a message is sent. -/
inductive SendPoint where
  /-- The text of a log message is in the buffer. -/
  | begun
  /-- `conn_my_sequence` was read. -/
  | loaded
  /-- It was stored, one higher. -/
  | numbered
  /-- `x_op` is `XDR_ENCODE`; the header is to be encoded. -/
  | header
  | body
  /-- `xdrrec_endofrecord` is to be called. -/
  | ending
  deriving DecidableEq, Repr

/-- What a thread does on the connection: nothing, holding `conn_lock` between two uses,
decoding a message, freeing one, or sending one. -/
inductive Phase where
  | idle
  | holding
  | decoding
  | freeing
  | sending (locked : Bool) (point : SendPoint) (sequence : UInt64) (message : Message)
  deriving DecidableEq, Repr

namespace Phase

/-- The thread holds `conn_lock`. -/
def holds : Phase → Bool
  | .idle => false
  | .holding | .decoding | .freeing => true
  | .sending locked _ _ _ => locked

/-- From the read of the sequence number to the end of the record. -/
def sends : Phase → Bool
  | .sending _ point _ _ => point != .begun
  | _ => false

/-- From the read of the sequence number to the last encoding. -/
def encodes : Phase → Bool
  | .sending _ point _ _ => point != .begun && point != .ending
  | _ => false

/-- A header or a body is to be encoded next. -/
def encodesXdr : Phase → Bool
  | .sending _ point _ _ => point == .header || point == .body
  | _ => false

/-- A message is decoded or freed. -/
def decodes : Phase → Bool
  | .decoding | .freeing => true
  | _ => false

/-- The text of a log message is still to be encoded. -/
def logs : Phase → Bool
  | .sending _ point _ message => message.log && point != .ending
  | _ => false

end Phase

variable {Thread : Type} [DecidableEq Thread]

variable (Thread) in
/-- The connection and where each thread stands. -/
structure Connection where
  connMySequence : UInt64
  xOp : XdrOp
  connLock : Option Thread
  logBuffer : Nat
  stream : List Token
  phases : Thread → Phase

variable (Thread) in
inductive Action where
  | lock (thread : Thread)
  | unlock (thread : Thread)
  -- `ndmp_recv_msg` and `ndmp_free_message` of the control thread
  | receive
  | decode (last : Bool)
  | free
  | release
  -- `ndmp_send_response` and `ndmp_send_request`
  | begin (thread : Thread) (message : Message)
  | load (thread : Thread)
  | store (thread : Thread)
  | setEncode (thread : Thread)
  | encodeHeader (thread : Thread) (encoded : Bool)
  | encodeBody (thread : Thread) (encoded : Bool)
  | endOfRecord (thread : Thread)

namespace Connection

/-- A thread goes on. -/
def move (connection : Connection Thread) (thread : Thread) (phase : Phase) :
    Connection Thread :=
  { connection with phases := Function.update connection.phases thread phase }

/-- An `xdr` function runs: it writes only while `x_op` is `XDR_ENCODE`. -/
def put (connection : Connection Thread) (token : Token) : Connection Thread :=
  if connection.xOp = .encode then { connection with stream := connection.stream ++ [token] }
  else connection

variable (control : Thread)

/-- One step. The control thread may hold the lock for any number of messages, and the
handlers of the messages send what they like. -/
def step (connection : Connection Thread) : Action Thread → Option (Connection Thread)
  | .lock thread =>
      if connection.phases thread = .idle ∧ connection.connLock = none then
        some { connection.move thread .holding with connLock := some thread }
      else none
  | .unlock thread =>
      if connection.phases thread = .holding then
        some { connection.move thread .idle with connLock := none }
      else none
  | .receive =>
      if connection.phases control = .holding then
        some { connection.move control .decoding with xOp := .decode }
      else none
  | .decode last =>
      if connection.phases control = .decoding then
        some ((connection.put .stray).move control (if last then .holding else .decoding))
      else none
  | .free =>
      if connection.phases control = .holding then
        some { connection.move control .freeing with xOp := .free }
      else none
  | .release =>
      if connection.phases control = .freeing then
        some ((connection.put .stray).move control .holding)
      else none
  | .begin thread message =>
      if connection.phases thread = .idle ∨ connection.phases thread = .holding then
        some { connection.move thread
            (.sending (connection.phases thread).holds .begun 0 message) with
          logBuffer := if message.log then message.body.getD 0 else connection.logBuffer }
      else none
  | .load thread =>
      match connection.phases thread with
      | .sending locked .begun _ message =>
          some (connection.move thread
            (.sending locked .loaded connection.connMySequence message))
      | _ => none
  | .store thread =>
      match connection.phases thread with
      | .sending locked .loaded sequence message =>
          some { connection.move thread (.sending locked .numbered (sequence + 1) message) with
            connMySequence := sequence + 1 }
      | _ => none
  | .setEncode thread =>
      match connection.phases thread with
      | .sending locked .numbered sequence message =>
          some { connection.move thread (.sending locked .header sequence message) with
            xOp := .encode }
      | _ => none
  | .encodeHeader thread encoded =>
      match connection.phases thread with
      | .sending locked .header sequence message =>
          let token := if encoded then .header sequence message else .stray
          let point := if encoded ∧ message.body.isSome then .body else .ending
          some ((connection.put token).move thread (.sending locked point sequence message))
      | _ => none
  | .encodeBody thread encoded =>
      match connection.phases thread with
      | .sending locked .body sequence message =>
          let content := if message.log then connection.logBuffer else message.body.getD 0
          let token := if encoded then .body content else .stray
          some ((connection.put token).move thread (.sending locked .ending sequence message))
      | _ => none
  | .endOfRecord thread =>
      match connection.phases thread with
      | .sending locked .ending _ _ =>
          some { connection.move thread (if locked then .holding else .idle) with
            stream := connection.stream ++ [.endOfRecord] }
      | _ => none

end Connection

/-- The connection of a session with its control thread; the stream is not used yet. -/
def controlStream (control : Thread) :
    Foundation.System (Connection Thread) (Action Thread) where
  init connection := connection.connMySequence = 0 ∧ connection.connLock = none ∧
    connection.stream = [] ∧ ∀ thread, connection.phases thread = .idle
  step connection action := connection.step control action

/-- No other thread is in such a use, unless both hold the lock. -/
def Apart (connection : Connection Thread) (thread : Thread) (uses : Phase → Bool) : Prop :=
  ∀ other, other ≠ thread → uses (connection.phases other) = true →
    (connection.phases thread).holds = true ∧ (connection.phases other).holds = true

/-- A message is sent without the lock only while no other thread sends, decodes or frees
one, and no thread begins to do so before it is sent; nor is a second log text formatted
before the first is encoded. All headers and bodies can be encoded, so the sequence numbers
stay below 2³², which is what an `xdr_u_long` takes. -/
def InTurn (control : Thread) (connection : Connection Thread) : Action Thread → Prop
  | .begin thread message => message.log = true → Apart connection thread Phase.logs
  | .load thread => Apart connection thread fun phase => phase.sends || phase.decodes
  | .store _ => connection.connMySequence.toNat + 1 < 2 ^ 32
  | .receive | .free => Apart connection control Phase.encodes
  | .encodeHeader _ encoded | .encodeBody _ encoded => encoded = true
  | _ => True

/-! ## Who uses the connection -/

namespace Phase

/-- The text of a log message that is still to be encoded. -/
def text : Phase → Nat
  | .sending _ _ _ message => message.body.getD 0
  | _ => 0

/-- What two threads can do at the same time. -/
structure Compatible (phase other : Phase) : Prop where
  holds : phase.holds = true → other.holds = false
  sends : phase.sends = true → other.sends = false
  encodes : phase.encodes = true → other.decodes = false
  decodes : phase.decodes = true → other.encodes = false
  logs : phase.logs = true → other.logs = false

/-- A thread does no more than it did. -/
structure Narrower (next phase : Phase) : Prop where
  holds : next.holds = true → phase.holds = true
  sends : next.sends = true → phase.sends = true
  encodes : next.encodes = true → phase.encodes = true
  decodes : next.decodes = true → phase.decodes = true
  logs : next.logs = true → phase.logs = true

theorem Compatible.symm {phase other : Phase} (compatible : Compatible phase other) :
    Compatible other phase := by
  obtain ⟨holds, sends, encodes, decodes, logs⟩ := compatible
  have flip {first second : Bool} (excludes : first = true → second = false) :
      second = true → first = false := by
    intro second
    cases first
    · rfl
    · exact absurd second (by simp [excludes rfl])
  exact ⟨flip holds, flip sends, flip decodes, flip encodes, flip logs⟩

theorem Compatible.narrow {next phase other : Phase} (compatible : Compatible phase other)
    (narrower : Narrower next phase) : Compatible next other where
  holds held := compatible.holds (narrower.holds held)
  sends sending := compatible.sends (narrower.sends sending)
  encodes encoding := compatible.encodes (narrower.encodes encoding)
  decodes decoding := compatible.decodes (narrower.decodes decoding)
  logs logging := compatible.logs (narrower.logs logging)

/-- A phase agrees with the lock, the direction flag and the text buffer. -/
structure Suits (phase : Phase) (connection : Connection Thread) (thread : Thread) : Prop where
  lock : phase.holds = true ↔ connection.connLock = some thread
  encode : phase.encodesXdr = true → connection.xOp = .encode
  decode : phase.decodes = true → connection.xOp ≠ .encode
  text : phase.logs = true → connection.logBuffer = phase.text

end Phase

/-- All threads agree with the connection and with each other. -/
structure Exclusive (connection : Connection Thread) : Prop where
  suits : ∀ thread, (connection.phases thread).Suits connection thread
  compatible : ∀ thread other, thread ≠ other →
    (connection.phases thread).Compatible (connection.phases other)

section Steps

variable {control thread : Thread} {connection next : Connection Thread} {phase : Phase}
  {uses : Phase → Bool}

/-- It is enough to look at the thread that goes on, and at any other one beside it. -/
theorem Exclusive.move (exclusive : Exclusive connection)
    (phases : next.phases = Function.update connection.phases thread phase)
    (own : phase.Suits next thread)
    (others : ∀ other, other ≠ thread → (connection.phases other).Suits connection other →
      (connection.phases thread).Compatible (connection.phases other) →
      (connection.phases other).Suits next other ∧
        phase.Compatible (connection.phases other)) :
    Exclusive next := by
  have beside (other : Thread) (different : other ≠ thread) :=
    others other different (exclusive.suits other)
      (exclusive.compatible thread other different.symm)
  constructor
  · intro one
    rw [phases, Function.update_apply]
    split
    · rename_i same
      rw [same]
      exact own
    · rename_i different
      exact (beside one different).1
  · intro one other different
    rw [phases, Function.update_apply, Function.update_apply]
    split <;> split
    · rename_i first second
      exact absurd (first.trans second.symm) different
    · rename_i second
      exact (beside other second).2
    · rename_i first _
      exact (beside one first).2.symm
    · exact exclusive.compatible one other different

/-- A thread goes on to do no more than it did; the flag and the buffer stay. -/
theorem Exclusive.narrow (exclusive : Exclusive connection)
    (phases : next.phases = Function.update connection.phases thread phase)
    (narrower : phase.Narrower (connection.phases thread))
    (own : phase.Suits next thread) (lock : next.connLock = connection.connLock)
    (flag : next.xOp = connection.xOp) (buffer : next.logBuffer = connection.logBuffer) :
    Exclusive next := by
  refine exclusive.move phases own fun other different suits compatible => ⟨?_, ?_⟩
  · obtain ⟨held, encode, decode, text⟩ := suits
    exact ⟨lock ▸ held, flag ▸ encode, flag ▸ decode, buffer ▸ text⟩
  · exact compatible.narrow narrower

omit [DecidableEq Thread] in
/-- In turn, no other thread is in such a use at all: two threads never both hold the lock. -/
theorem Apart.none (apart : Apart connection thread uses) {other : Thread}
    (different : other ≠ thread)
    (compatible : (connection.phases thread).Compatible (connection.phases other)) :
    uses (connection.phases other) = false := by
  rw [Bool.eq_false_iff]
  intro used
  obtain ⟨held, otherHeld⟩ := apart other different used
  cases (compatible.holds held).symm.trans otherHeld

theorem Phase.encodes_of_xdr (encoding : phase.encodesXdr = true) : phase.encodes = true := by
  match phase, encoding with
  | .sending _ .header _ _, _ => rfl
  | .sending _ .body _ _, _ => rfl

omit [DecidableEq Thread] in
theorem Connection.put_of_decodes (notEncode : connection.xOp ≠ .encode) (token : Token) :
    connection.put token = connection :=
  if_neg notEncode

omit [DecidableEq Thread] in
theorem Connection.put_of_encodes (encode : connection.xOp = .encode) (token : Token) :
    connection.put token = { connection with stream := connection.stream ++ [token] } :=
  if_pos encode

/-- The control thread starts to decode or to free: it turns the direction of the stream. -/
theorem Exclusive.turn (exclusive : Exclusive connection)
    (holding : connection.phases control = .holding)
    (apart : Apart connection control Phase.encodes)
    (phases : next.phases = Function.update connection.phases control phase)
    (held : phase.holds = true) (reads : phase.decodes = true)
    (lock : next.connLock = connection.connLock) (flag : next.xOp ≠ .encode)
    (buffer : next.logBuffer = connection.logBuffer) : Exclusive next := by
  have own := (exclusive.suits control).lock
  rw [holding] at own
  have only : phase.sends = false ∧ phase.encodes = false ∧ phase.encodesXdr = false ∧
      phase.logs = false := by
    cases phase with
    | decoding | freeing => exact ⟨rfl, rfl, rfl, rfl⟩
    | idle | holding | sending => cases reads
  obtain ⟨sends, encodes, encodesXdr, logs⟩ := only
  have never {used : Bool} (unused : used = false) {goal : Prop} : used = true → goal :=
    fun used => by cases unused.symm.trans used
  refine exclusive.move phases ⟨?_, ?_, fun _ => flag, ?_⟩ fun other different suits compatible =>
    ?_
  · rw [lock]
    exact iff_of_true held (own.mp rfl)
  · exact never encodesXdr
  · exact never logs
  · have unused := apart.none different compatible
    rw [holding] at compatible
    constructor
    · refine ⟨lock ▸ suits.lock, fun encoding => ?_, fun _ => flag, buffer ▸ suits.text⟩
      cases unused.symm.trans (Phase.encodes_of_xdr encoding)
    · exact ⟨fun _ => compatible.holds rfl, never sends, never encodes, fun _ => unused,
        never logs⟩

theorem Exclusive.step (exclusive : Exclusive connection) {action : Action Thread}
    (inTurn : InTurn control connection action)
    (taken : connection.step control action = some next) : Exclusive next := by
  cases action with
  | lock thread =>
      obtain ⟨⟨idle, free⟩, rfl⟩ := of_guarded taken
      refine exclusive.move rfl ⟨iff_of_true rfl rfl, nofun, nofun, nofun⟩ ?_
      intro other different suits compatible
      have outside : (connection.phases other).holds = false := by
        rw [Bool.eq_false_iff]
        intro held
        cases free.symm.trans (suits.lock.mp held)
      constructor
      · refine ⟨iff_of_false (Bool.eq_false_iff.mp outside) fun same => ?_, suits.encode,
          suits.decode, suits.text⟩
        exact different (Option.some.inj same).symm
      · exact ⟨fun _ => outside, nofun, nofun, nofun, nofun⟩
  | unlock thread =>
      obtain ⟨holding, rfl⟩ := of_guarded taken
      refine exclusive.move rfl ⟨iff_of_false nofun nofun, nofun, nofun, nofun⟩ ?_
      intro other different suits compatible
      rw [holding] at compatible
      constructor
      · refine ⟨iff_of_false ?_ nofun, suits.encode, suits.decode, suits.text⟩
        exact Bool.eq_false_iff.mp (compatible.holds rfl)
      · exact ⟨nofun, nofun, nofun, nofun, nofun⟩
  | receive =>
      obtain ⟨holding, rfl⟩ := of_guarded taken
      exact exclusive.turn holding inTurn rfl rfl rfl rfl nofun rfl
  | decode last =>
      obtain ⟨decoding, rfl⟩ := of_guarded taken
      have own := exclusive.suits control
      rw [decoding] at own
      rw [Connection.put_of_decodes (own.decode rfl)]
      cases last with
      | true =>
          refine exclusive.narrow rfl ?_ ⟨own.lock, nofun, nofun, nofun⟩ rfl rfl rfl
          rw [decoding]
          exact ⟨id, nofun, nofun, nofun, nofun⟩
      | false =>
          refine exclusive.narrow rfl ?_ ⟨own.lock, nofun, own.decode, nofun⟩ rfl rfl rfl
          rw [decoding]
          exact ⟨id, nofun, nofun, id, nofun⟩
  | free =>
      obtain ⟨holding, rfl⟩ := of_guarded taken
      exact exclusive.turn holding inTurn rfl rfl rfl rfl nofun rfl
  | release =>
      obtain ⟨freeing, rfl⟩ := of_guarded taken
      have own := exclusive.suits control
      rw [freeing] at own
      rw [Connection.put_of_decodes (own.decode rfl)]
      refine exclusive.narrow rfl ?_ ⟨own.lock, nofun, nofun, nofun⟩ rfl rfl rfl
      rw [freeing]
      exact ⟨id, nofun, nofun, nofun, nofun⟩
  | begin thread message =>
      obtain ⟨outside, rfl⟩ := of_guarded taken
      have own := (exclusive.suits thread).lock
      refine exclusive.move rfl ⟨own, nofun, nofun, fun logging => ?_⟩ ?_
      · have log : message.log = true := (Bool.and_eq_true_iff.mp logging).1
        exact if_pos log
      intro other different suits compatible
      have alone (log : message.log = true) : (connection.phases other).logs = false :=
        (inTurn log).none different compatible
      constructor
      · refine ⟨suits.lock, suits.encode, suits.decode, fun logging => ?_⟩
        have quiet : message.log ≠ true := fun log => by cases (alone log).symm.trans logging
        exact (if_neg quiet).trans (suits.text logging)
      · exact ⟨compatible.holds, nofun, nofun, nofun,
          fun logging => alone (Bool.and_eq_true_iff.mp logging).1⟩
  | load thread =>
      simp only [Connection.step] at taken
      split at taken <;> cases taken
      rename_i locked _ message begun
      have own := exclusive.suits thread
      rw [begun] at own
      refine exclusive.move rfl ⟨own.lock, nofun, nofun, own.text⟩ ?_
      intro other different suits compatible
      have apart : Apart connection thread fun phase => phase.sends || phase.decodes := inTurn
      obtain ⟨sends, decodes⟩ := Bool.or_eq_false_iff.mp (apart.none different compatible)
      rw [begun] at compatible
      refine ⟨⟨suits.lock, suits.encode, suits.decode, suits.text⟩, ?_⟩
      exact ⟨compatible.holds, fun _ => sends, fun _ => decodes, nofun, compatible.logs⟩
  | store thread =>
      simp only [Connection.step] at taken
      split at taken <;> cases taken
      rename_i locked _ message loaded
      have own := exclusive.suits thread
      rw [loaded] at own
      refine exclusive.narrow rfl ?_ ⟨own.lock, nofun, nofun, own.text⟩ rfl rfl rfl
      rw [loaded]
      exact ⟨id, fun _ => rfl, fun _ => rfl, nofun, id⟩
  | setEncode thread =>
      simp only [Connection.step] at taken
      split at taken <;> cases taken
      rename_i locked _ message numbered
      have own := exclusive.suits thread
      rw [numbered] at own
      refine exclusive.move rfl ⟨own.lock, fun _ => rfl, nofun, own.text⟩ ?_
      intro other different suits compatible
      rw [numbered] at compatible
      constructor
      · refine ⟨suits.lock, fun _ => rfl, fun decoding => ?_, suits.text⟩
        cases (compatible.encodes rfl).symm.trans decoding
      · exact compatible.narrow ⟨id, fun _ => rfl, fun _ => rfl, nofun, id⟩
  | encodeHeader thread encoded =>
      cases (inTurn : encoded = true)
      simp only [Connection.step] at taken
      split at taken <;> cases taken
      rename_i locked _ message header
      have own := exclusive.suits thread
      rw [header] at own
      rw [Connection.put_of_encodes (own.encode rfl)]
      cases body : message.body with
      | none =>
          refine exclusive.narrow rfl ?_ ⟨own.lock, nofun, nofun, ?_⟩ rfl rfl rfl
          · rw [header]
            exact ⟨id, fun _ => rfl, nofun, nofun, fun logging => by simp [Phase.logs] at logging⟩
          · intro logging
            simp [Phase.logs] at logging
      | some content =>
          refine exclusive.narrow rfl ?_ ⟨own.lock, own.encode, nofun, own.text⟩ rfl rfl rfl
          rw [header]
          exact ⟨id, fun _ => rfl, fun _ => rfl, nofun, id⟩
  | encodeBody thread encoded =>
      simp only [Connection.step] at taken
      split at taken <;> cases taken
      rename_i locked _ message body
      have own := exclusive.suits thread
      rw [body] at own
      rw [Connection.put_of_encodes (own.encode rfl)]
      refine exclusive.narrow rfl ?_ ⟨own.lock, nofun, nofun, fun logging => ?_⟩ rfl rfl rfl
      · rw [body]
        exact ⟨id, fun _ => rfl, nofun, nofun, fun logging => by simp [Phase.logs] at logging⟩
      · simp [Phase.logs] at logging
  | endOfRecord thread =>
      simp only [Connection.step] at taken
      split at taken <;> cases taken
      rename_i locked _ message ending
      have own := exclusive.suits thread
      rw [ending] at own
      cases locked with
      | true =>
          refine exclusive.narrow rfl ?_ ⟨own.lock, nofun, nofun, nofun⟩ rfl rfl rfl
          rw [ending]
          exact ⟨id, nofun, nofun, nofun, nofun⟩
      | false =>
          refine exclusive.narrow rfl ?_ ⟨own.lock, nofun, nofun, nofun⟩ rfl rfl rfl
          rw [ending]
          exact ⟨nofun, nofun, nofun, nofun, nofun⟩

/-! ## What is in the stream -/

/-- How a message that is being sent stands to the counter, to the messages sent before it
and to what is in the stream behind them. -/
def Phase.Opens (phase : Phase) (counter : UInt64) (sent : List Sent) (part : List Token) : Prop :=
  match phase with
  | .sending _ .loaded sequence _ => sequence = counter ∧ part = []
  | .sending _ .numbered sequence _ | .sending _ .header sequence _ =>
      (sequence = counter ∧ ∀ before ∈ sent, before.1 < sequence) ∧ part = []
  | .sending _ .body sequence message =>
      (sequence = counter ∧ ∀ before ∈ sent, before.1 < sequence) ∧
        part = [.header sequence message] ∧ message.body.isSome = true
  | .sending _ .ending sequence message =>
      (sequence = counter ∧ ∀ before ∈ sent, before.1 < sequence) ∧
        part = .header sequence message :: message.bodyTokens
  | _ => True

/-- The stream holds whole messages and the part of the one that is being sent. -/
structure Written (connection : Connection Thread) (sent : List Sent) (part : List Token) :
    Prop where
  increasing : sent.Pairwise (·.1 < ·.1)
  bounded : ∀ before ∈ sent, before.1 ≤ connection.connMySequence
  stream : connection.stream = sent.flatMap Sent.tokens ++ part
  opened : ∀ thread, (connection.phases thread).sends = true →
    (connection.phases thread).Opens connection.connMySequence sent part
  closed : (∀ thread, (connection.phases thread).sends = false) → part = []

variable {sent : List Sent} {part : List Token}

omit [DecidableEq Thread] in
theorem Written.framed (written : Written connection sent part) : Framed connection.stream := by
  rw [written.stream]
  have whole : Framed (sent.flatMap Sent.tokens) := ⟨sent, written.increasing, List.prefix_rfl⟩
  by_cases unused : ∀ thread, (connection.phases thread).sends = false
  · rw [written.closed unused, List.append_nil]
    exact whole
  · obtain ⟨thread, sending⟩ := not_forall.mp unused
    rw [Bool.not_eq_false] at sending
    have opened := written.opened thread sending
    have last {sequence : UInt64} {message : Message}
        (above : ∀ before ∈ sent, before.1 < sequence)
        (front : part <+: Sent.tokens (sequence, message)) :
        Framed (sent.flatMap Sent.tokens ++ part) := by
      refine ⟨sent ++ [(sequence, message)], ?_, ?_⟩
      · rw [List.pairwise_append]
        refine ⟨written.increasing, List.pairwise_singleton _ _, fun before member after same => ?_⟩
        rw [List.mem_singleton.mp same]
        exact above before member
      · rw [List.flatMap_append, List.flatMap_singleton]
        exact (List.prefix_append_right_inj _).mpr front
    match phase : connection.phases thread, sending with
    | .sending _ .loaded _ _, _ | .sending _ .numbered _ _, _ | .sending _ .header _ _, _ =>
        rw [phase] at opened
        rw [opened.2, List.append_nil]
        exact whole
    | .sending _ .body _ message, _ =>
        rw [phase] at opened
        obtain ⟨⟨_, above⟩, rfl, _⟩ := opened
        exact last above (List.prefix_append [_] _)
    | .sending _ .ending _ message, _ =>
        rw [phase] at opened
        obtain ⟨⟨_, above⟩, rfl⟩ := opened
        exact last above (List.prefix_append _ _)

/-- A thread that does not send goes on. -/
theorem Written.aside (written : Written connection sent part)
    (phases : next.phases = Function.update connection.phases thread phase)
    (before : (connection.phases thread).sends = false) (after : phase.sends = false)
    (stream : next.stream = connection.stream)
    (counter : next.connMySequence = connection.connMySequence) : Written next sent part := by
  have same (one : Thread) : (next.phases one).sends = true →
      (connection.phases one).sends = true ∧ next.phases one = connection.phases one := by
    rw [phases, Function.update_apply]
    split
    · intro sending
      cases after.symm.trans sending
    · exact fun sending => ⟨sending, rfl⟩
  refine ⟨written.increasing, counter ▸ written.bounded, stream ▸ written.stream, ?_, ?_⟩
  · intro one sending
    obtain ⟨sends, unchanged⟩ := same one sending
    rw [unchanged, counter]
    exact written.opened one sends
  · intro unused
    apply written.closed
    intro one
    rw [Bool.eq_false_iff]
    intro sends
    by_cases own : one = thread
    · rw [own] at sends
      cases before.symm.trans sends
    · have still := unused one
      rw [phases, Function.update_of_ne own] at still
      cases still.symm.trans sends

/-- The one thread that sends goes on. -/
theorem Written.own (alone : ∀ other, other ≠ thread → (connection.phases other).sends = false)
    (phases : next.phases = Function.update connection.phases thread phase)
    (increasing : sent.Pairwise (·.1 < ·.1))
    (bounded : ∀ before ∈ sent, before.1 ≤ next.connMySequence)
    (stream : next.stream = sent.flatMap Sent.tokens ++ part)
    (opened : phase.Opens next.connMySequence sent part)
    (closed : phase.sends = false → part = []) : Written next sent part := by
  refine ⟨increasing, bounded, stream, ?_, ?_⟩
  · intro one
    rw [phases, Function.update_apply]
    split
    · exact fun _ => opened
    · rename_i different
      intro sending
      cases (alone one different).symm.trans sending
  · intro unused
    apply closed
    have still := unused thread
    rw [phases, Function.update_self] at still
    exact still

omit [DecidableEq Thread] in
theorem Exclusive.others (exclusive : Exclusive connection)
    (sends : (connection.phases thread).sends = true) (other : Thread)
    (different : other ≠ thread) :
    (connection.phases other).sends = false :=
  (exclusive.compatible thread other different.symm).sends sends

theorem Written.step (written : Written connection sent part) (exclusive : Exclusive connection)
    {action : Action Thread} (inTurn : InTurn control connection action)
    (taken : connection.step control action = some next) :
    ∃ sent part, Written next sent part := by
  obtain ⟨increasing, bounded, stream, opened, closed⟩ := written
  have written : Written connection sent part := ⟨increasing, bounded, stream, opened, closed⟩
  cases action with
  | lock thread =>
      obtain ⟨⟨idle, _⟩, rfl⟩ := of_guarded taken
      exact ⟨sent, part, written.aside rfl (by rw [idle]; rfl) rfl rfl rfl⟩
  | unlock thread =>
      obtain ⟨holding, rfl⟩ := of_guarded taken
      exact ⟨sent, part, written.aside rfl (by rw [holding]; rfl) rfl rfl rfl⟩
  | receive =>
      obtain ⟨holding, rfl⟩ := of_guarded taken
      exact ⟨sent, part, written.aside rfl (by rw [holding]; rfl) rfl rfl rfl⟩
  | decode last =>
      obtain ⟨decoding, rfl⟩ := of_guarded taken
      have own := (exclusive.suits control).decode
      rw [Connection.put_of_decodes (own (by rw [decoding]; rfl))]
      exact ⟨sent, part, written.aside rfl (by rw [decoding]; rfl) (by cases last <;> rfl) rfl rfl⟩
  | free =>
      obtain ⟨holding, rfl⟩ := of_guarded taken
      exact ⟨sent, part, written.aside rfl (by rw [holding]; rfl) rfl rfl rfl⟩
  | release =>
      obtain ⟨freeing, rfl⟩ := of_guarded taken
      have own := (exclusive.suits control).decode
      rw [Connection.put_of_decodes (own (by rw [freeing]; rfl))]
      exact ⟨sent, part, written.aside rfl (by rw [freeing]; rfl) rfl rfl rfl⟩
  | begin thread message =>
      obtain ⟨outside, rfl⟩ := of_guarded taken
      refine ⟨sent, part, written.aside rfl ?_ rfl rfl rfl⟩
      obtain idle | holding := outside
      · rw [idle]
        rfl
      · rw [holding]
        rfl
  | load thread =>
      simp only [Connection.step] at taken
      split at taken <;> cases taken
      rename_i locked _ message begun
      have alone (other : Thread) (different : other ≠ thread) :
          (connection.phases other).sends = false := by
        have apart : Apart connection thread fun phase => phase.sends || phase.decodes := inTurn
        exact (Bool.or_eq_false_iff.mp
          (apart.none different (exclusive.compatible thread other different.symm))).1
      have nothing : part = [] := by
        apply closed
        intro one
        by_cases own : one = thread
        · rw [own, begun]
          rfl
        · exact alone one own
      subst nothing
      exact ⟨sent, [], .own alone rfl increasing bounded stream ⟨rfl, rfl⟩ nofun⟩
  | store thread =>
      simp only [Connection.step] at taken
      split at taken <;> cases taken
      rename_i locked _ message loaded
      have alone := exclusive.others (by rw [loaded]; rfl)
      have opens := opened thread (by rw [loaded]; rfl)
      rw [loaded] at opens
      obtain ⟨rfl, rfl⟩ := opens
      have above (before : Sent) (member : before ∈ sent) :
          before.1 < connection.connMySequence + 1 := by
        have room : connection.connMySequence.toNat + 1 < 2 ^ 32 := inTurn
        have below := UInt64.le_iff_toNat_le.mp (bounded before member)
        rw [UInt64.lt_iff_toNat_lt, UInt64.toNat_add, UInt64.toNat_one]
        omega
      exact ⟨sent, [],
        .own alone rfl increasing (fun before member => UInt64.le_of_lt (above before member))
        stream ⟨⟨rfl, above⟩, rfl⟩ nofun⟩
  | setEncode thread =>
      simp only [Connection.step] at taken
      split at taken <;> cases taken
      rename_i locked _ message numbered
      have alone := exclusive.others (by rw [numbered]; rfl)
      have opens := opened thread (by rw [numbered]; rfl)
      rw [numbered] at opens
      exact ⟨sent, part, .own alone rfl increasing bounded stream opens nofun⟩
  | encodeHeader thread encoded =>
      cases (inTurn : encoded = true)
      simp only [Connection.step] at taken
      split at taken <;> cases taken
      rename_i locked sequence message header
      have alone := exclusive.others (by rw [header]; rfl)
      have opens := opened thread (by rw [header]; rfl)
      have own := (exclusive.suits thread).encode (by rw [header]; rfl)
      rw [header] at opens
      rw [Connection.put_of_encodes own]
      obtain ⟨above, rfl⟩ := opens
      rw [List.append_nil] at stream
      refine ⟨sent, [.header sequence message], ?_⟩
      cases body : message.body with
      | none =>
          refine .own alone rfl increasing bounded (congrArg (· ++ _) stream) ⟨above, ?_⟩ nofun
          rw [Message.bodyTokens, body]
          rfl
      | some content =>
          refine .own alone rfl increasing bounded (congrArg (· ++ _) stream) ⟨above, rfl, ?_⟩ nofun
          rw [body]
          rfl
  | encodeBody thread encoded =>
      cases (inTurn : encoded = true)
      simp only [Connection.step] at taken
      split at taken <;> cases taken
      rename_i locked sequence message body
      have alone := exclusive.others (by rw [body]; rfl)
      have opens := opened thread (by rw [body]; rfl)
      have own := exclusive.suits thread
      rw [body] at opens own
      rw [Connection.put_of_encodes (own.encode rfl)]
      obtain ⟨above, rfl, present⟩ := opens
      obtain ⟨content, given⟩ := Option.isSome_iff_exists.mp present
      have encoded : (if message.log then connection.logBuffer else message.body.getD 0) =
          content := by
        split
        · rename_i log
          rw [own.text (by rw [Phase.logs, log]; rfl), Phase.text, given]
          rfl
        · rw [given]
          rfl
      refine ⟨sent, .header sequence message :: message.bodyTokens, ?_⟩
      refine .own alone rfl increasing bounded ?_ ⟨above, rfl⟩ nofun
      have written : connection.stream ++ [.body content] =
          sent.flatMap Sent.tokens ++ .header sequence message :: message.bodyTokens := by
        rw [stream, List.append_assoc, Message.bodyTokens, given]
        rfl
      rw [← written, ← encoded]
      rfl
  | endOfRecord thread =>
      simp only [Connection.step] at taken
      split at taken <;> cases taken
      rename_i locked sequence message ending
      have alone := exclusive.others (by rw [ending]; rfl)
      have opens := opened thread (by rw [ending]; rfl)
      rw [ending] at opens
      obtain ⟨⟨same, above⟩, rfl⟩ := opens
      refine ⟨sent ++ [(sequence, message)], [], .own alone rfl ?_ ?_ ?_ ?_ fun _ => rfl⟩
      · rw [List.pairwise_append]
        refine ⟨increasing, List.pairwise_singleton _ _, fun before member after last => ?_⟩
        rw [List.mem_singleton.mp last]
        exact above before member
      · intro before member
        obtain earlier | last := List.mem_append.mp member
        · exact bounded before earlier
        · rw [List.mem_singleton.mp last]
          exact UInt64.le_of_eq same
      · rw [List.flatMap_append, List.flatMap_singleton, List.append_nil]
        have written := congrArg (· ++ [Token.endOfRecord]) stream
        rw [List.append_assoc] at written
        exact written
      · cases locked
        · trivial
        · trivial

end Steps

/-- In a run in which every use without the lock has the connection to itself, the stream
is made of whole messages, each with its own body, with increasing sequence numbers. -/
theorem framed_of_inTurn (control : Thread) {connection : Connection Thread}
    (reached : (controlStream control).ReachableBy (InTurn control) connection) :
    Framed connection.stream := by
  have consistent : Exclusive connection ∧ ∃ sent part, Written connection sent part := by
    apply reached.invariant fun connection => Exclusive connection ∧
      ∃ sent part, Written connection sent part
    · rintro connection ⟨counter, lock, stream, idle⟩
      refine ⟨⟨fun thread => ?_, fun thread other _ => ?_⟩, [], [], .nil, nofun, stream, ?_,
        fun _ => rfl⟩
      · rw [idle]
        exact ⟨iff_of_false nofun (by rw [lock]; nofun), nofun, nofun, nofun⟩
      · rw [idle]
        exact ⟨nofun, nofun, nofun, nofun, nofun⟩
      · intro thread sending
        rw [idle] at sending
        cases sending
    · rintro connection action next ⟨exclusive, sent, part, written⟩ inTurn taken
      exact ⟨exclusive.step inTurn taken, written.step exclusive inTurn taken⟩
  obtain ⟨_, sent, part, written⟩ := consistent
  exact written.framed

instance [Fintype Thread] (connection : Connection Thread) (thread : Thread)
    (uses : Phase → Bool) : Decidable (Apart connection thread uses) :=
  inferInstanceAs (Decidable (∀ other, other ≠ thread → uses (connection.phases other) = true →
    (connection.phases thread).holds = true ∧ (connection.phases other).holds = true))

instance [Fintype Thread] (control : Thread) (connection : Connection Thread) :
    ∀ action, Decidable (InTurn control connection action)
  | .begin thread message =>
      inferInstanceAs (Decidable (message.log = true → Apart connection thread Phase.logs))
  | .load thread =>
      inferInstanceAs (Decidable
        (Apart connection thread fun phase => phase.sends || phase.decodes))
  | .receive | .free => inferInstanceAs (Decidable (Apart connection control Phase.encodes))
  | .encodeHeader _ encoded | .encodeBody _ encoded =>
      inferInstanceAs (Decidable (encoded = true))
  | .store _ => inferInstanceAs (Decidable (_ < _))
  | .lock _ | .unlock _ | .decode _ | .release | .setEncode _ | .endOfRecord _ =>
      inferInstanceAs (Decidable True)

/-- A connection that is not used yet. -/
def unused : Connection Thread :=
  ⟨0, .encode, none, 0, [], fun _ => .idle⟩

/-- The reply to NDMP_DATA_START_BACKUP. -/
def reply : Message := ⟨0x401, some 0, false⟩

/-- A log message of a worker. -/
def logMessage : Message := ⟨0x602, some 7, true⟩

/-- One whole message of a thread. -/
def sendAll (thread : Thread) (message : Message) : List (Action Thread) :=
  [.begin thread message, .load thread, .store thread, .setEncode thread,
    .encodeHeader thread true, .encodeBody thread true, .endOfRecord thread]

/-- A request is answered, a worker logs behind the reply, and another one sends file
history under the lock. -/
def exchange : List (Action (Fin 3)) :=
  [.lock 0, .receive, .decode true] ++ sendAll 0 reply ++ [.free, .release] ++
    sendAll 1 logMessage ++ [.unlock 0, .lock 2] ++ sendAll 2 ⟨0x703, some 3, false⟩

theorem framed_of_inTurn_exchange :
    ∃ ended, (controlStream 0).run (InTurn 0) unused exchange = some ended ∧
      ended.stream.length = 9 ∧ Framed ended.stream := by
  have finished : ∃ ended, (controlStream 0).run (InTurn 0) unused exchange = some ended ∧
      ended.stream.length = 9 := ⟨_, rfl, rfl⟩
  obtain ⟨ended, ran, nine⟩ := finished
  have started : (controlStream (0 : Fin 3)).init unused := ⟨rfl, rfl, rfl, fun _ => rfl⟩
  exact ⟨ended, ran, nine, framed_of_inTurn 0 (ReachableBy.run (.init started) ran)⟩

/-- A header behind a header that is to be followed by a body is not framed. -/
theorem not_framed_of_headers {first second : UInt64} {message later : Message}
    (body : message.body.isSome = true) (rest : List Token) :
    ¬ Framed (.header first message :: .header second later :: rest) := by
  rintro ⟨messages, _, front⟩
  obtain ⟨content, given⟩ := Option.isSome_iff_exists.mp body
  cases messages with
  | nil => cases List.prefix_nil.mp front
  | cons sent messages =>
      rw [List.flatMap_cons] at front
      obtain ⟨same, behind⟩ := List.cons_prefix_cons.mp front
      obtain ⟨_, rfl⟩ := Token.header.inj same
      have own : sent.2.bodyTokens = [.body content] := by
        rw [Message.bodyTokens, given]
        rfl
      change _ <+: sent.2.bodyTokens ++ [.endOfRecord] ++ messages.flatMap Sent.tokens at behind
      rw [own] at behind
      cases (List.cons_prefix_cons.mp behind).1

/-- A worker logs while a reply is being sent: its header comes between the header of the
reply and its body. -/
theorem reply_interleaved :
    ¬ ∀ connection : Connection (Fin 2), (controlStream 0).Reachable connection →
      Framed connection.stream := by
  intro framed
  have run : ∃ ended, (controlStream (0 : Fin 2)).run (fun _ _ => True) unused
      [.lock 0, .receive, .decode true, .begin 0 reply, .load 0, .store 0, .setEncode 0,
        .encodeHeader 0 true, .begin 1 logMessage, .load 1, .store 1, .setEncode 1,
        .encodeHeader 1 true] = some ended ∧
      ended.stream = [.header 1 reply, .header 2 logMessage] := ⟨_, rfl, rfl⟩
  obtain ⟨ended, ran, stream⟩ := run
  have reached := framed ended (ReachableBy.run (.init ⟨rfl, rfl, rfl, fun _ => rfl⟩) ran)
  rw [stream] at reached
  exact not_framed_of_headers rfl [] reached

end ControlStream

end Ndmpd
