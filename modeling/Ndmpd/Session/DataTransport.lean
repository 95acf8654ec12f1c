import Ndmpd.Foundation.Transition
import Ndmpd.Session.RemoteRead

/-!
# The archive on the data connection

`ndmpd_remote_write` writes a block to the data connection, in as many pieces as `write(2)`
takes. What it meets can stop it inside a block: then nothing more goes out in this operation,
so that the stream has no hole (`sent_of_reachable`).

A mover that plays the stream back gives `ndmpd_remote_read_v3` the same bytes, block by
block (`Played.bytes`).
-/

namespace Ndmpd

open Foundation

/-- What a round of the loop meets: whether the session has ended or the operation was
aborted before it, and the result of `write(2)`. -/
structure WriteRound where
  eof : Bool
  abort : Bool
  n : Int
  deriving DecidableEq, Repr

/-- The data connection of a backup: `ns_eof`, `dd_abort`, the bytes that were taken, those
that the calls were to send, and whether a call has failed. -/
structure DataConnection where
  nsEof : Bool
  ddAbort : Bool
  sent : List UInt8
  given : List UInt8
  failed : Bool
  deriving DecidableEq, Repr

namespace DataConnection

variable (connection : DataConnection)

/-- Nothing goes out any more. -/
def Stopped : Prop := connection.nsEof = true ∨ connection.ddAbort = true

instance : Decidable connection.Stopped := inferInstanceAs (Decidable (_ ∨ _))

/-- What other threads set before a round. -/
def meets (round : WriteRound) : DataConnection :=
  { connection with
    nsEof := connection.nsEof || round.eof, ddAbort := connection.ddAbort || round.abort }

/-- The loop of `ndmpd_remote_write`, with the data that is left. -/
def writeLoop : List WriteRound → List UInt8 → DataConnection → Option Int × DataConnection
  | rounds, data, connection =>
      if data = [] then (some 0, connection)
      else
        match rounds with
        | [] => (none, connection)
        | round :: rounds =>
            let connection := connection.meets round
            if connection.Stopped then (some (-1), connection)
            else if round.n < 0 then (some (-1), { connection with ddAbort := true })
            else
              writeLoop rounds (data.drop round.n.toNat)
                { connection with sent := connection.sent ++ data.take round.n.toNat }

/-- `ndmpd_remote_write`. -/
def ndmpdRemoteWrite (data : List UInt8) (rounds : List WriteRound) :
    Option Int × DataConnection :=
  writeLoop rounds data connection

/-- The connection when a backup starts. -/
def initial : DataConnection := ⟨false, false, [], [], false⟩

/-- A backup: calls of `ndmpd_remote_write`, each of which returns. -/
def system : System DataConnection (List UInt8 × List WriteRound) where
  init connection := connection = initial
  step connection call :=
    let run := connection.ndmpdRemoteWrite call.1 call.2
    run.1.map fun (rv : Int) =>
      { run.2 with given := connection.given ++ call.1, failed := connection.failed || rv ≠ 0 }

variable {connection}

/-- Stopped once, a connection stays so, and a call that has something to send fails. -/
theorem Stopped.writeLoop (stopped : connection.Stopped) {data : List UInt8} (more : data ≠ [])
    (rounds : List WriteRound) :
    (writeLoop rounds data connection).2.Stopped ∧
      (writeLoop rounds data connection).2.sent = connection.sent ∧
      (writeLoop rounds data connection).1 ≠ some 0 := by
  unfold DataConnection.writeLoop
  rw [if_neg more]
  cases rounds with
  | nil => exact ⟨stopped, rfl, nofun⟩
  | cons round rounds =>
      have still : (connection.meets round).Stopped := by
        rcases stopped with eof | abort
        · exact .inl (by rw [meets, eof, Bool.true_or])
        · exact .inr (by rw [meets, abort, Bool.true_or])
      dsimp only
      rw [if_pos still]
      exact ⟨still, rfl, fun same => absurd (Option.some.inj same) (by decide)⟩

/-- A call sends a front of its data: all of it when it returns 0, and otherwise it stops the
connection. -/
theorem writeLoop_sends (rounds : List WriteRound) (data : List UInt8)
    (connection : DataConnection) :
    ∃ front, front <+: data ∧
      (writeLoop rounds data connection).2.sent = connection.sent ++ front ∧
      ((writeLoop rounds data connection).1 = some 0 → front = data) ∧
      ∀ rv, (writeLoop rounds data connection).1 = some rv → rv ≠ 0 →
        (writeLoop rounds data connection).2.Stopped := by
  induction rounds generalizing data connection with
  | nil =>
      unfold DataConnection.writeLoop
      by_cases done : data = []
      · rw [if_pos done]
        exact ⟨[], List.nil_prefix, (List.append_nil _).symm, fun _ => done.symm,
          fun rv same failed => absurd (Option.some.inj same).symm failed⟩
      · rw [if_neg done]
        exact ⟨[], List.nil_prefix, (List.append_nil _).symm, nofun, nofun⟩
  | cons round rounds ih =>
      unfold DataConnection.writeLoop
      by_cases done : data = []
      · rw [if_pos done]
        exact ⟨[], List.nil_prefix, (List.append_nil _).symm, fun _ => done.symm,
          fun rv same failed => absurd (Option.some.inj same).symm failed⟩
      · rw [if_neg done]
        dsimp only
        by_cases stopped : (connection.meets round).Stopped
        · rw [if_pos stopped]
          refine ⟨[], List.nil_prefix, (List.append_nil _).symm, ?_, fun _ _ _ => stopped⟩
          exact fun same => absurd (Option.some.inj same) (by decide)
        · rw [if_neg stopped]
          by_cases error : round.n < 0
          · rw [if_pos error]
            refine ⟨[], List.nil_prefix, (List.append_nil _).symm, ?_, fun _ _ _ => .inr rfl⟩
            exact fun same => absurd (Option.some.inj same) (by decide)
          · rw [if_neg error]
            obtain ⟨front, isFront, sent, whole, stops⟩ := ih (data.drop round.n.toNat)
              { connection.meets round with
                sent := (connection.meets round).sent ++ data.take round.n.toNat }
            refine ⟨data.take round.n.toNat ++ front, ?_, ?_, fun succeeded => ?_, stops⟩
            · obtain ⟨rest, same⟩ := isFront
              refine ⟨rest, ?_⟩
              rw [List.append_assoc, same, List.take_append_drop]
            · rw [sent, List.append_assoc]
              rfl
            · rw [whole succeeded, List.take_append_drop]

/-! ## The stream of a backup -/

/-- What was sent is a front of what was to be sent, all of it as long as no call has failed;
a failed call has stopped the connection. -/
structure Gapless (connection : DataConnection) : Prop where
  front : connection.sent <+: connection.given
  whole : connection.failed = false → connection.sent = connection.given
  stopped : connection.failed = true → connection.Stopped

theorem Gapless.step (gapless : connection.Gapless) {call : List UInt8 × List WriteRound}
    {next : DataConnection} (taken : system.step connection call = some next) : next.Gapless := by
  obtain ⟨data, rounds⟩ := call
  obtain ⟨rv, returned, rfl⟩ := Option.map_eq_some_iff.mp taken
  obtain ⟨front, isFront, sent, whole, stops⟩ := writeLoop_sends rounds data connection
  rw [ndmpdRemoteWrite] at returned
  cases failed : connection.failed with
  | false =>
      have same := gapless.whole failed
      refine ⟨?_, fun succeeded => ?_, fun late => ?_⟩
      · change (writeLoop rounds data connection).2.sent <+: connection.given ++ data
        rw [sent, same]
        exact (List.prefix_append_right_inj _).mpr isFront
      · have ok : rv = 0 := by simpa [failed] using succeeded
        rw [ok] at returned
        change (writeLoop rounds data connection).2.sent = connection.given ++ data
        rw [sent, same, whole returned]
      · have failing : rv ≠ 0 := by simpa [failed] using late
        exact stops rv returned failing
  | true =>
      have stopped := gapless.stopped failed
      by_cases nothing : data = []
      · have still : writeLoop rounds data connection = (some 0, connection) := by
          unfold DataConnection.writeLoop
          rw [if_pos nothing]
        refine ⟨?_, fun succeeded => ?_, fun _ => ?_⟩
        · change (writeLoop rounds data connection).2.sent <+: connection.given ++ data
          rw [still]
          exact gapless.front.trans (List.prefix_append _ _)
        · cases (show true = false from succeeded)
        · change (writeLoop rounds data connection).2.Stopped
          rw [still]
          exact stopped
      · obtain ⟨still, kept, -⟩ := stopped.writeLoop nothing rounds
        refine ⟨?_, fun succeeded => ?_, fun _ => still⟩
        · change (writeLoop rounds data connection).2.sent <+: connection.given ++ data
          rw [kept]
          exact gapless.front.trans (List.prefix_append _ _)
        · cases (show true = false from succeeded)

theorem gapless_of_reachable (reached : system.Reachable connection) : connection.Gapless := by
  refine reached.invariant Gapless ?_ ?_
  · rintro _ rfl
    exact ⟨List.prefix_rfl, fun _ => rfl, nofun⟩
  · exact fun _ _ _ gapless _ taken => gapless.step taken

/-- **The stream has no hole.** Whatever the calls of `ndmpd_remote_write` meet, the bytes on
the data connection are a front of the blocks given, and all of them while no call has failed;
once one has failed nothing more goes out, and every later call with data fails. -/
theorem sent_of_reachable (reached : system.Reachable connection) :
    connection.sent <+: connection.given ∧
      (connection.failed = false → connection.sent = connection.given) ∧
      (connection.failed = true → ∀ data rounds, data ≠ [] →
        (connection.ndmpdRemoteWrite data rounds).2.sent = connection.sent ∧
          (connection.ndmpdRemoteWrite data rounds).1 ≠ some 0) := by
  have gapless := gapless_of_reachable reached
  refine ⟨gapless.front, gapless.whole, fun failed data rounds more => ?_⟩
  exact ((gapless.stopped failed).writeLoop more rounds).2

/-- Blocks can go out, each in one piece. -/
theorem exists_sent (blocks : List (List UInt8)) :
    ∃ connection, system.Reachable connection ∧ ¬ connection.Stopped ∧
      connection.given = blocks.flatten ∧ connection.failed = false := by
  induction blocks using List.reverseRecOn with
  | nil => exact ⟨initial, .init rfl, by decide, rfl, rfl⟩
  | append_singleton blocks data ih =>
      obtain ⟨connection, reached, running, given, succeeded⟩ := ih
      have same : connection.meets ⟨false, false, data.length⟩ = connection := by
        rw [meets, Bool.or_false, Bool.or_false]
      have sends : connection.ndmpdRemoteWrite data [⟨false, false, data.length⟩] =
          (some 0, { connection with sent := connection.sent ++ data }) := by
        rw [ndmpdRemoteWrite]
        unfold DataConnection.writeLoop
        by_cases nothing : data = []
        · rw [if_pos nothing, nothing, List.append_nil]
        · rw [if_neg nothing]
          dsimp only
          rw [same, if_neg running, if_neg (Int.not_lt.mpr (Int.natCast_nonneg _)),
            Int.toNat_natCast, List.take_length, List.drop_length]
          rfl
      have taken : system.step connection (data, [⟨false, false, data.length⟩]) = some
          { connection with
            sent := connection.sent ++ data, given := connection.given ++ data } := by
        simp only [system, sends, Option.map_some]
        simp
      refine ⟨_, reached.step trivial taken, running, ?_, succeeded⟩
      rw [List.flatten_append, List.flatten_singleton, given]

/-- The second block is cut by an error, and the third one is not sent. -/
def cutRun : List (List UInt8 × List WriteRound) :=
  [([1, 2, 3], [⟨false, false, 2⟩, ⟨false, false, 1⟩]),
    ([4, 5, 6], [⟨false, false, 1⟩, ⟨false, false, -1⟩]), ([7], [⟨false, false, 1⟩])]

theorem sent_of_reachable_cut :
    ∃ connection, system.run (fun _ _ => True) initial cutRun = some connection ∧
      connection.sent = [1, 2, 3, 4] ∧ connection.sent <+: connection.given := by
  have ends : (system.run (fun _ _ => True) initial cutRun).map DataConnection.sent =
      some [1, 2, 3, 4] := by
    decide +kernel
  obtain ⟨connection, ran, sent⟩ := Option.map_eq_some_iff.mp ends
  have start : system.Reachable initial := .init rfl
  exact ⟨connection, ran, sent, (sent_of_reachable (start.run ran)).1⟩

end DataConnection

/-! ## Reading the stream back -/

namespace RemoteRead

variable {stream : Nat → UInt8} {reader last : DataReader} {blocks : List (List UInt8)}

/-- The blocks that calls of `ndmpd_remote_read_v3` store, each of which returns 0. -/
inductive Played (stream : Nat → UInt8) (length : UInt64) :
    DataReader → List (List UInt8) → DataReader → Prop where
  | nil (reader : DataReader) : Played stream length reader [] reader
  | cons {reader last : DataReader} {blocks : List (List UInt8)} (rounds : List Round) :
      (ndmpdRemoteReadV3 stream length rounds reader).rv = some 0 →
        Played stream length (ndmpdRemoteReadV3 stream length rounds reader).reader blocks last →
          Played stream length reader
            ((ndmpdRemoteReadV3 stream length rounds reader).data :: blocks) last

/-- The blocks are the stream from where reading has got to, each of the length asked for. -/
theorem Played.stored {length : UInt64} (played : Played stream length reader blocks last)
    (windowed : Windowed reader) :
    (∀ block ∈ blocks, block.length = length.toNat) ∧
      blocks.flatten = (List.range (blocks.length * length.toNat)).map
        fun index => stream (reader.taken + index) := by
  induction played with
  | nil reader =>
      refine ⟨fun block mem => absurd mem List.not_mem_nil, ?_⟩
      rw [List.length_nil, Nat.zero_mul]
      rfl
  | @cons reader last blocks rounds succeeded _ ih =>
      obtain ⟨data, taken⟩ := readLoop_delivers rounds windowed (Nat.zero_le _) succeeded
      obtain ⟨lengths, rest⟩ := ih (readLoop_windowed _ _ _ windowed)
      have stored : (ndmpdRemoteReadV3 stream length rounds reader).data =
          (List.range length.toNat).map fun index => stream (reader.taken + index) := data
      have onward : (ndmpdRemoteReadV3 stream length rounds reader).reader.taken =
          reader.taken + length.toNat := taken
      refine ⟨?_, ?_⟩
      · intro block mem
        rcases List.mem_cons.mp mem with rfl | later
        · rw [stored, List.length_map, List.length_range]
        · exact lengths block later
      · have total : (blocks.length + 1) * length.toNat =
            length.toNat + blocks.length * length.toNat := by
          rw [Nat.succ_mul, Nat.add_comm]
        rw [List.flatten_cons, rest, stored, onward, List.length_cons, total, List.range_add,
          List.map_append, List.map_map]
        simp only [Function.comp_def, Nat.add_assoc]

/-- A block of any length can be read, one byte at a time. -/
theorem exists_played (stream : Nat → UInt8) (length : UInt64) :
    ∃ data last, Played stream length .reset [data] last := by
  have returned : (ndmpdRemoteReadV3 stream length (List.replicate length.toNat ⟨0, true, 1⟩)
      .reset).rv = some 0 := by
    refine readLoop_returns _ windowed_reset ?_ ?_
    · intro round mem
      rw [List.eq_of_mem_replicate mem]
      exact ⟨rfl, by decide⟩
    · rw [List.length_replicate]
      exact Nat.le_add_left _ _
  exact ⟨_, _, .cons _ returned (.nil _)⟩

/-- A mover plays these bytes back. -/
def Plays (stream : Nat → UInt8) (bytes : List UInt8) : Prop :=
  ∀ index (inside : index < bytes.length), stream index = bytes[index]

theorem plays_getD (bytes : List UInt8) : Plays (fun index => bytes.getD index 0) bytes := by
  intro index inside
  change bytes.getD index 0 = _
  rw [List.getD_eq_getElem?_getD, List.getElem?_eq_getElem inside, Option.getD_some]

/-- All of the bytes are read back. -/
theorem Played.bytes {length : UInt64} {bytes : List UInt8}
    (played : Played stream length .reset blocks last) (plays : Plays stream bytes)
    (all : blocks.length * length.toNat = bytes.length) : blocks.flatten = bytes := by
  rw [(played.stored windowed_reset).2, all]
  refine List.ext_getElem (by rw [List.length_map, List.length_range]) fun index _ inside => ?_
  rw [List.getElem_map, List.getElem_range, show DataReader.reset.taken = 0 from rfl, Nat.zero_add,
    plays index inside]

end RemoteRead

end Ndmpd
