import Ndmpd.Tlm.ArchiveRoundTrip
import Ndmpd.Tlm.PoolRefinement

/-!
# Backups through the shared pool

Every function of the encoder asks for records and fills their fronts. `TarStream.Asks` says
which records an encoder has asked for and what it has filled in, and `eventsOf` how this
looks to the pool. When the encoder's thread does this on the shared pool, in an ordered run
without abort and error, the writer passes on the blocks of the archive
(`BackupRun.encodedBlocks_arrive`), and a decoder that gets them restores what was backed up
(`restored_of_endedRun`).
-/

namespace Ndmpd

open Foundation Foundation.System

/-- A record asked for, and the bytes for its front, which may depend on its size. -/
structure PoolUse where
  want : Nat
  zero : Bool
  bytes : Nat → List UInt8

/-- Bytes stored one after the other. -/
def storedFrom (offset : Nat) : List UInt8 → List PoolEvent
  | [] => []
  | byte :: bytes => .stored offset byte :: storedFrom (offset + 1) bytes

namespace PoolUse

/-- What the use does to the pool of an encoder. -/
def put (pool : WritePool) (use : PoolUse) : WritePool :=
  pool.put use.want use.zero use.bytes

/-- The bytes that are stored. -/
def filled (pool : WritePool) (use : PoolUse) : List UInt8 :=
  (use.bytes (pool.granted use.want)).take (pool.granted use.want)

/-- How the use looks to the pool. -/
def events (pool : WritePool) (use : PoolUse) : List PoolEvent :=
  .granted ⟨use.want, use.zero⟩ (pool.makeRoom.block.tbBufferSpot, pool.granted use.want) ::
    storedFrom 0 (use.filled pool)

end PoolUse

/-- How an encoder that uses the pool so looks to the pool. -/
def eventsOf : WritePool → List PoolUse → List PoolEvent
  | _, [] => []
  | pool, use :: uses => use.events pool ++ eventsOf (use.put pool) uses

namespace TarStream

/-- The records that the encoder asks for from one stream to another, with what it fills
in. -/
inductive Asks : List PoolUse → TarStream → TarStream → Prop where
  | refl (stream : TarStream) : Asks [] stream stream
  | header {stream next : TarStream} {tarHdr : TlmTarHdr} :
      stream.putHeader tarHdr = some next →
        Asks [⟨recordSize, true, fun _ => tarHdr.record⟩] stream next
  | data {stream next : TarStream} {want : Nat} {zero : Bool} {bytes : Nat → List UInt8} :
      stream.putData want zero bytes = some next → Asks [⟨want, zero, bytes⟩] stream next
  | touch {stream next : TarStream} : next.pool = stream.pool → next.puts = stream.puts →
      next.grantsLeft = stream.grantsLeft → Asks [] stream next
  | trans {first second third : TarStream} {uses more : List PoolUse} :
      Asks uses first second → Asks more second third → Asks (uses ++ more) first third

variable {stream next : TarStream} {uses : List PoolUse}

/-- Every function of the encoder asks for some records. -/
theorem Extends.asks (extends_ : Extends stream next) : ∃ uses, Asks uses stream next := by
  induction extends_ with
  | refl stream => exact ⟨_, .refl stream⟩
  | header put => exact ⟨_, .header put⟩
  | data put => exact ⟨_, .data put⟩
  | touch pool puts grants => exact ⟨_, .touch pool puts grants⟩
  | trans _ _ first second =>
      obtain ⟨uses, before⟩ := first
      obtain ⟨more, after⟩ := second
      exact ⟨_, .trans before after⟩

/-- The pool is what the records asked for have made of it. -/
theorem Asks.pool (asks : Asks uses stream next) :
    next.pool = uses.foldl PoolUse.put stream.pool := by
  induction asks with
  | refl => rfl
  | header put => exact (putHeader_some put).2.1
  | data put => exact (putData_some put).2.1
  | touch pool _ _ => exact pool
  | trans _ _ first second => rw [List.foldl_append, ← first, second]

end TarStream

/-! ## A record filled byte by byte -/

theorem TlmBuffer.overwrite_nil (buffer : TlmBuffer) (offset : Nat) :
    buffer.overwrite offset [] = buffer := by
  rw [overwrite, List.append_nil, List.length_nil, Nat.add_zero, List.take_append_drop,
    tbBufferSize, List.take_length]

/-- Bytes behind one another are overwritten one after the other. -/
theorem TlmBuffer.overwrite_cons {buffer : TlmBuffer} {offset : Nat} {byte : UInt8}
    {bytes : List UInt8} (inside : offset + (byte :: bytes).length ≤ buffer.tbBufferSize) :
    (buffer.overwrite offset [byte]).overwrite (offset + 1) bytes =
      buffer.overwrite offset (byte :: bytes) := by
  rw [List.length_cons] at inside
  have first : offset + [byte].length ≤ buffer.tbBufferSize := by
    rw [List.length_singleton]
    omega
  have second : offset + 1 + bytes.length ≤ (buffer.overwrite offset [byte]).tbBufferSize := by
    rw [tbBufferSize_overwrite]
    omega
  have whole : offset + (byte :: bytes).length ≤ buffer.tbBufferSize := by
    rw [List.length_cons]
    omega
  have front : (buffer.tbBufferData.take offset ++ [byte]).length = offset + 1 := by
    unfold tbBufferSize at inside
    rw [List.length_append, List.length_take, List.length_singleton]
    omega
  have data : ((buffer.overwrite offset [byte]).overwrite (offset + 1) bytes).tbBufferData =
      (buffer.overwrite offset (byte :: bytes)).tbBufferData := by
    rw [data_overwrite second, data_overwrite whole, data_overwrite first,
      ← List.append_assoc (buffer.tbBufferData.take offset), List.take_left' front,
      List.drop_append, front, List.drop_of_length_le (by omega), List.drop_drop, List.nil_append,
      List.append_assoc, List.singleton_append, List.length_singleton, List.length_cons,
      show offset + 1 + (offset + 1 + bytes.length - (offset + 1)) =
        offset + (bytes.length + 1) by omega, List.cons_append]
  rw [overwrite, overwrite, overwrite, TlmBuffer.mk.injEq]
  exact ⟨data, rfl, rfl, rfl, rfl, rfl, rfl⟩

/-- Two changes of one block are one. -/
theorem TlmBuffers.modify_modify (bufs : TlmBuffers) (index : Fin tlmTapeBuffers)
    (first second : TlmBuffer → TlmBuffer) :
    (bufs.modify index first).modify index second =
      bufs.modify index fun buffer => second (first buffer) := by
  unfold modify
  dsimp only
  rw [Function.update_self, Function.update_idem]

theorem WritePool.eq_of {first second : WritePool} (bufs : first.bufs = second.bufs)
    (sent : first.sentBlocks = second.sentBlocks) : first = second := by
  cases first
  cases second
  cases bufs
  cases sent
  rfl

namespace WritePool

variable (pool : WritePool)

theorem fill_nil (offset : Nat) : pool.fill offset [] = pool := by
  refine eq_of ?_ rfl
  rw [fill]
  dsimp only
  rw [TlmBuffers.modify, TlmBuffer.overwrite_nil, Function.update_eq_self]

theorem fill_cons {offset : Nat} {byte : UInt8} {bytes : List UInt8}
    (inside : offset + (byte :: bytes).length ≤ pool.block.tbBufferSize) :
    (pool.fill offset [byte]).fill (offset + 1) bytes = pool.fill offset (byte :: bytes) := by
  refine eq_of ?_ rfl
  change
    (pool.bufs.modify pool.bufs.tbsBufferIn fun buffer => buffer.overwrite offset [byte]).modify
    pool.bufs.tbsBufferIn (fun buffer => buffer.overwrite (offset + 1) bytes) =
      pool.bufs.modify pool.bufs.tbsBufferIn fun buffer => buffer.overwrite offset (byte :: bytes)
  have room : offset + (byte :: bytes).length ≤ pool.bufs.block.tbBufferSize := inside
  rw [TlmBuffers.modify_modify, TlmBuffers.modify, TlmBuffers.modify,
    TlmBuffers.tbsBuffer_eq_block, TlmBuffer.overwrite_cons room]

@[simp]
theorem fill_size (offset : Nat) (bytes : List UInt8) :
    (pool.fill offset bytes).block.tbBufferSize = pool.block.tbBufferSize := by
  rw [fill, block, TlmBuffers.modify_block]
  exact TlmBuffer.tbBufferSize_overwrite _ _ _

end WritePool

namespace SequentialPool

variable {size : Nat} {positive : 0 < size} {small : size < 2 ^ 32} {records : 512 ∣ size}
  {labels : List PoolEvent}

/-- The front of a record is filled. -/
theorem performs_storedFrom {seq : SequentialPool} {offset : Nat} {bytes : List UInt8}
    (performs : (system positive small records).Performs labels seq) (isOpen : seq.closed = false)
    (held : offset + bytes.length ≤ seq.held.2)
    (inside : seq.held.1 + offset + bytes.length ≤ seq.pool.block.tbBufferSize) :
    (system positive small records).Performs (labels ++ storedFrom offset bytes)
      { seq with pool := seq.pool.fill (seq.held.1 + offset) bytes } := by
  induction bytes generalizing seq offset labels with
  | nil =>
      rw [storedFrom, List.append_nil, WritePool.fill_nil]
      exact performs
  | cons byte bytes ih =>
      rw [List.length_cons] at held
      let after : SequentialPool :=
        { seq with pool := seq.pool.fill (seq.held.1 + offset) [byte] }
      have stored : (system positive small records).step seq (.stored offset byte) = some after :=
        if_pos ⟨isOpen, by omega⟩
      have room : after.held.2 = seq.held.2 := rfl
      have spot : after.held.1 = seq.held.1 := rfl
      have same : after.pool.block.tbBufferSize = seq.pool.block.tbBufferSize :=
        seq.pool.fill_size _ _
      have behind := inside
      rw [List.length_cons] at behind
      have further := @ih _ after (offset + 1) (.step performs stored) isOpen (by omega) (by omega)
      rw [storedFrom, List.append_cons, ← WritePool.fill_cons _ inside]
      exact further

/-- One use of the pool. -/
theorem performs_use {seq : SequentialPool}
    (performs : (system positive small records).Performs labels seq) (isOpen : seq.closed = false)
    (use : PoolUse) :
    (system positive small records).Performs (labels ++ use.events seq.pool)
      { pool := use.put seq.pool
        held := (seq.pool.makeRoom.block.tbBufferSpot, seq.pool.granted use.want)
        closed := false } := by
  let record := (seq.pool.makeRoom.block.tbBufferSpot, seq.pool.granted use.want)
  let taken : SequentialPool :=
    { seq with pool := seq.pool.tlmGetWriteBuffer use.want use.zero, held := record }
  have granted : (system positive small records).step seq
      (.granted ⟨use.want, use.zero⟩ record) = some taken := if_pos ⟨isOpen, rfl⟩
  have short : (use.filled seq.pool).length ≤ seq.pool.granted use.want := List.length_take_le _ _
  have room := seq.pool.granted_le_room use.want
  have spot : seq.pool.makeRoom.block.tbBufferSpot ≤ seq.pool.makeRoom.block.tbBufferSize :=
    seq.pool.makeRoom.aligned.spot_le
  have same : taken.pool.block.tbBufferSize = seq.pool.makeRoom.block.tbBufferSize :=
    WritePool.grantRecord_size _ _ _ _
  have stored := @performs_storedFrom size positive small records _ taken 0 (use.filled seq.pool)
    (.step performs granted) isOpen (by
      change 0 + _ ≤ seq.pool.granted use.want
      omega) (by
      change seq.pool.makeRoom.block.tbBufferSpot + 0 + _ ≤ _
      rw [same]
      unfold WritePool.room at room
      omega)
  rw [PoolUse.events, List.append_cons]
  have done : ({ taken with pool := taken.pool.fill (taken.held.1 + 0) (use.filled seq.pool) } :
      SequentialPool) = ⟨use.put seq.pool, record, false⟩ := by
    rw [SequentialPool.mk.injEq]
    exact ⟨rfl, rfl, isOpen⟩
  rw [← done]
  exact stored

/-- The uses of an encoder, one after the other. -/
theorem performs_eventsOf {seq : SequentialPool} {uses : List PoolUse}
    (performs : (system positive small records).Performs labels seq) (isOpen : seq.closed = false) :
    ∃ held, (system positive small records).Performs (labels ++ eventsOf seq.pool uses)
      ⟨uses.foldl PoolUse.put seq.pool, held, false⟩ := by
  induction uses generalizing seq labels with
  | nil =>
      rw [eventsOf, List.append_nil]
      refine ⟨seq.held, ?_⟩
      rw [List.foldl_nil, ← isOpen]
      exact performs
  | cons use uses ih =>
      obtain ⟨held, further⟩ := ih (performs_use performs isOpen use) rfl
      rw [List.append_assoc] at further
      exact ⟨held, further⟩

/-- An encoder that has closed its archive. -/
theorem blocks_of_performs {uses : List PoolUse} {seq : SequentialPool}
    (performs : (system positive small records).Performs
      (eventsOf (initial positive small records).pool uses ++ [.closed]) seq) :
    seq.blocks = (uses.foldl PoolUse.put (initial positive small records).pool).sentBlocks ++
      [(uses.foldl PoolUse.put (initial positive small records).pool).block.tbBufferData] := by
  obtain ⟨held, uses_⟩ := @performs_eventsOf size positive small records [] _ uses (.init rfl) rfl
  have closed : (system positive small records).Performs
      (eventsOf (initial positive small records).pool uses ++ [.closed])
      ⟨uses.foldl PoolUse.put (initial positive small records).pool, held, true⟩ :=
    .step uses_ rfl
  rw [performs_unique performs closed, blocks, if_pos rfl]

end SequentialPool

/-! ## The threads can do what an encoder asks for -/

namespace HandOff

/-- Where the threads stand while the writer has not looked for a block yet. -/
structure Stands (reader : ReaderPc) (tcWriter : Command) (full : Bool) (state : HandOff) :
    Prop where
  reader : state.readerPc = reader
  writer : state.writerPc = .testWriters
  tcReader : state.tcReader = .backupRun
  tcWriter : state.tcWriter = tcWriter
  tcsWriter : state.tcsWriter = .backupRun
  marked : state.bufs.block.tbFull = full
  filled : full = true → state.bufs.block.tbWriteBufFilled = true
  undisturbed : state.Undisturbed

variable {size : Nat} {state : HandOff} {labels : List PoolEvent}

theorem Stands.grants (stands : Stands .outside .backupRun false state) (request : Request)
    (room : state.bufs.block.tbBufferSpot < state.bufs.block.tbBufferData.length) :
    ∃ record next, (ofSize size).observe Ordered event state
        (.getWriteBuffer request :: List.replicate 4 .reader) =
          some ([.granted request record], next) ∧ Stands .outside .backupRun false next := by
  obtain ⟨reader, writer, tcReader, tcWriter, tcsWriter, free, -, undisturbed⟩ := stands
  have some_ := Nat.not_le_of_gt room
  simp [observe, ofSize, List.replicate, Ordered, stopsBetweenTests, step, callerStep, readerStep,
    event, reader, writer, tcReader, mutexHeld, TlmBuffer.tbBufferSize, some_]
  constructor <;> simp [tcWriter, tcsWriter, free, TlmBuffers.grantRecord_tbFull]
  exact undisturbed

theorem Stands.declares (stands : Stands .outside .backupRun false state) (request : Request)
    (full : state.bufs.block.tbBufferData.length ≤ state.bufs.block.tbBufferSpot) :
    ∃ next, (ofSize size).observe Ordered event state
        (.getWriteBuffer request :: List.replicate 5 .reader) = some ([], next) ∧
      Stands (.releaseIn request) .backupRun true next := by
  obtain ⟨reader, writer, tcReader, tcWriter, tcsWriter, free, -, undisturbed⟩ := stands
  simp [observe, ofSize, List.replicate, Ordered, stopsBetweenTests, step, callerStep, readerStep,
    event, reader, writer, tcReader, mutexHeld, TlmBuffer.tbBufferSize, full, free, fill]
  constructor <;> simp [tcWriter, tcsWriter]
  exact undisturbed

theorem Stands.sends {pc : ReaderPc} {tcWriter : Command} (stands : Stands pc tcWriter true state)
    (running : tcWriter ≠ .abort) :
    ∃ next, (ofSize size).observe Ordered event state
        (List.replicate 5 .writer ++ .modWriteReturns true :: List.replicate 4 .writer) =
          some ([], next) ∧ Stands pc tcWriter false next := by
  obtain ⟨reader, writer, tcReader, rfl, tcsWriter, full, filled, undisturbed⟩ := stands
  have running' := filled rfl
  simp [observe, ofSize, List.replicate, Ordered, stopsBetweenTests, step, writerStep,
    event, writer, tcReader, full, running, running', tcsWriter]
  constructor <;> simp [reader]
  exact undisturbed

theorem Stands.awaits {request : Request}
    (stands : Stands (.releaseIn request) .backupRun false state) :
    ∃ next, (ofSize size).observe Ordered event state (List.replicate 4 .reader) =
          some ([], next) ∧ Stands (.refetchIn request) .backupRun false next := by
  obtain ⟨reader, writer, tcReader, tcWriter, tcsWriter, free, -, undisturbed⟩ := stands
  simp [observe, ofSize, List.replicate, Ordered, stopsBetweenTests, step, readerStep,
    event, reader, writer, mutexHeld, free]
  constructor <;> simp [tcReader, tcWriter, tcsWriter, free]
  exact undisturbed

theorem Stands.takes {request : Request}
    (stands : Stands (.refetchIn request) .backupRun false state) :
    ∃ record next, (ofSize size).observe Ordered event state (List.replicate 4 .reader) =
          some ([.granted request record], next) ∧ Stands .outside .backupRun false next := by
  obtain ⟨reader, writer, tcReader, tcWriter, tcsWriter, free, -, undisturbed⟩ := stands
  simp [observe, ofSize, List.replicate, Ordered, stopsBetweenTests, step, readerStep,
    event, reader, writer, mutexHeld, free]
  constructor <;> simp [tcReader, tcWriter, tcsWriter, free, TlmBuffers.grantRecord_tbFull]
  exact undisturbed

theorem Stands.closes (stands : Stands .outside .backupRun false state) :
    ∃ next, (ofSize size).observe Ordered event state (.writeTarEof :: List.replicate 4 .reader) =
          some ([.closed], next) ∧ Stands .finished .stop true next := by
  obtain ⟨reader, writer, tcReader, tcWriter, tcsWriter, free, filled, undisturbed⟩ := stands
  simp [observe, ofSize, List.replicate, Ordered, stopsBetweenTests, step, readerStep, callerStep,
    event, reader, writer, tcReader, mutexHeld, fill]
  constructor <;> simp [tcsWriter]
  exact undisturbed

theorem Stands.ends (stands : Stands .finished .stop false state) :
    ∃ next, (ofSize size).observe Ordered event state (List.replicate 5 .writer) =
          some ([], next) ∧ next.writerPc = .exited ∧ next.Undisturbed := by
  obtain ⟨reader, writer, tcReader, tcWriter, tcsWriter, free, filled, undisturbed⟩ := stands
  simp [observe, ofSize, List.replicate, Ordered, stopsBetweenTests, step, writerStep,
    event, writer, free, tcsWriter, tcWriter]
  exact undisturbed

/-- The bytes for a record are stored one after the other. -/
theorem Stands.stores (traces : (ofSize size).Traces Ordered event labels state)
    (stands : Stands .outside .backupRun false state) {offset : Nat} {bytes : List UInt8}
    (inside : offset + bytes.length ≤ state.held.2) :
    ∃ next, (ofSize size).Traces Ordered event (labels ++ storedFrom offset bytes) next ∧
      Stands .outside .backupRun false next := by
  induction bytes generalizing offset labels state with
  | nil =>
      rw [storedFrom, List.append_nil]
      exact ⟨state, traces, stands⟩
  | cons byte bytes ih =>
      rw [List.length_cons] at inside
      let after : HandOff := { state with
        bufs := state.bufs.modify state.bufs.tbsBufferIn fun buffer =>
          buffer.overwrite (state.held.1 + offset) [byte] }
      have room : offset < state.held.2 := by
        omega
      have stored : (ofSize size).step state (.store offset byte) = some after := by
        simp [ofSize, step, stands.reader, callerStep, room, after]
      have ordered : state.Ordered (.store offset byte) := by
        intro stopping
        cases stopping.1
      have stays : Stands .outside .backupRun false after := by
        obtain ⟨reader, writer, tcReader, tcWriter, tcsWriter, free, -, undisturbed⟩ := stands
        refine ⟨reader, writer, tcReader, tcWriter, tcsWriter, ?_, ?_, undisturbed⟩
        · rw [TlmBuffers.modify_block]
          exact free
        · intro closed
          cases closed
      have rest : offset + 1 + bytes.length ≤ after.held.2 := by
        change _ ≤ state.held.2
        omega
      rw [storedFrom, List.append_cons]
      exact ih (.step traces ordered stored) stays rest

/-- A record is granted, whether the block has room or not. -/
theorem Stands.granted (traces : (ofSize size).Traces Ordered event labels state)
    (stands : Stands .outside .backupRun false state) (request : Request) :
    ∃ record next, (ofSize size).Traces Ordered event (labels ++ [.granted request record]) next ∧
      Stands .outside .backupRun false next := by
  by_cases full : state.bufs.block.tbBufferData.length ≤ state.bufs.block.tbBufferSpot
  · obtain ⟨declared, observed, stands⟩ := @Stands.declares size _ stands request full
    have traces := traces.observe observed
    obtain ⟨sent, observed, stands⟩ := @Stands.sends size _ _ _ stands (by decide)
    have traces := traces.observe observed
    obtain ⟨awaited, observed, stands⟩ := @Stands.awaits size _ _ stands
    have traces := traces.observe observed
    obtain ⟨record, next, observed, stands⟩ := @Stands.takes size _ _ stands
    have traces := traces.observe observed
    simp only [List.append_nil] at traces
    exact ⟨record, next, traces, stands⟩
  · obtain ⟨record, next, observed, stands⟩ :=
      @Stands.grants size _ stands request (Nat.lt_of_not_le full)
    exact ⟨record, next, traces.observe observed, stands⟩

end HandOff

/-! ## The blocks of an archive -/

section SharedRuns

open HandOff

variable {size : Nat} (positive : 0 < size) (small : size < 2 ^ 32) (records : 512 ∣ size)
  {fileCount : Nat} {state : HandOff}

/-- A run of the two threads in which the encoder uses the pool so and closes its archive,
without abort and error, until the writer has ended. -/
structure EndedRun (uses : List PoolUse) (state : HandOff) : Prop where
  traces : (ofSize size).Traces Ordered event
    (eventsOf (SequentialPool.initial positive small records).pool uses ++ [.closed]) state
  undisturbed : state.Undisturbed
  exited : state.writerPc = .exited

variable {labels : List PoolEvent}

/-- The threads can do what one use of the pool asks for. -/
theorem HandOff.Stands.use (traces : (ofSize size).Traces Ordered event labels state)
    (stands : Stands .outside .backupRun false state) {seq : SequentialPool}
    (performs : (SequentialPool.system positive small records).Performs labels seq)
    (use : PoolUse) :
    ∃ next, (ofSize size).Traces Ordered event (labels ++ use.events seq.pool) next ∧
      Stands .outside .backupRun false next := by
  obtain ⟨record, granted, traces', stands'⟩ :=
    stands.granted traces ⟨use.want, use.zero⟩
  obtain ⟨-, granting⟩ := serves_of_traces traces' stands'.undisturbed
  obtain ⟨after, performs', represents⟩ :=
    (represents_simulation positive small records).performs granting
  obtain ⟨before, performed, taken⟩ := performs'.last
  rw [SequentialPool.performs_unique performed performs] at taken
  obtain ⟨⟨-, same⟩, result⟩ := System.of_guarded taken
  have held : granted.held.2 = seq.pool.granted use.want := by
    rw [represents.1, ← result, same]
    rfl
  have short : (use.filled seq.pool).length ≤ seq.pool.granted use.want := List.length_take_le _ _
  obtain ⟨next, stored, stands''⟩ := @Stands.stores size _ _ traces' stands' 0
    (use.filled seq.pool) (by omega)
  rw [same, List.append_assoc, List.singleton_append] at stored
  exact ⟨next, stored, stands''⟩

/-- The threads can do what an encoder asks for. -/
theorem HandOff.Stands.uses (traces : (ofSize size).Traces Ordered event labels state)
    (stands : Stands .outside .backupRun false state) {seq : SequentialPool}
    (performs : (SequentialPool.system positive small records).Performs labels seq)
    (isOpen : seq.closed = false) (uses : List PoolUse) :
    ∃ next, (ofSize size).Traces Ordered event (labels ++ eventsOf seq.pool uses) next ∧
      Stands .outside .backupRun false next := by
  induction uses generalizing labels state seq with
  | nil =>
      rw [eventsOf, List.append_nil]
      exact ⟨state, traces, stands⟩
  | cons use uses ih =>
      obtain ⟨next, traces', stands'⟩ :=
        Stands.use positive small records traces stands performs use
      rw [eventsOf, ← List.append_assoc]
      exact ih traces' stands' (SequentialPool.performs_use performs isOpen use) rfl

/-- Whatever an encoder asks for, the threads have a run that ends. -/
theorem endedRun_exists (uses : List PoolUse) :
    ∃ state, EndedRun positive small records uses state := by
  have start : (ofSize size).Traces Ordered event [] (started (List.replicate size 0)) := .init rfl
  have stands : Stands .outside .backupRun false (started (List.replicate size 0)) :=
    ⟨rfl, rfl, rfl, rfl, rfl, rfl, Bool.false_ne_true.elim, rfl, rfl⟩
  obtain ⟨encoded, traces, stands⟩ :=
    Stands.uses positive small records start stands (.init rfl) rfl uses
  obtain ⟨closed, observed, stands⟩ := @Stands.closes size _ stands
  have traces := traces.observe observed
  obtain ⟨sent, observed, stands⟩ := @Stands.sends size _ _ _ stands (by decide)
  have traces := traces.observe observed
  obtain ⟨last, observed, exited, undisturbed⟩ := @Stands.ends size _ stands
  have traces := traces.observe observed
  simp only [List.append_nil, List.nil_append] at traces
  exact ⟨last, traces, undisturbed, exited⟩

variable {positive small records}

/-- The writer passes on what the encoder has put into the pool. -/
theorem TarStream.Asks.passedBlocks {uses : List PoolUse} {grantsLeft : Option Nat}
    {stream : TarStream}
    (asks : Asks uses (.initial positive small records fileCount grantsLeft) stream)
    (ended : EndedRun positive small records uses state) :
    state.passedBlocks = stream.writeTarEof := by
  obtain ⟨seq, performs, blocks⟩ :=
    passedBlocks_eq_blocks positive small records ended.traces ended.undisturbed
  rw [blocks ended.exited, SequentialPool.blocks_of_performs performs, TarStream.writeTarEof,
    asks.pool]
  rfl

/-- **What the encoder writes is what arrives.** However the encoder of a backup and the
writer interleave, if no abort and no error comes in between and the reader does not stop
the writer between its two tests, the writer passes on the blocks of the archive; and there
is such a run for what the encoder asks for. -/
theorem BackupRun.encodedBlocks_arrive {grantsLeft : Option Nat} {stream : TarStream}
    {hardlinkQ : HardlinkQ}
    (run : BackupRun (.initial positive small records fileCount grantsLeft) stream hardlinkQ) :
    ∃ uses, TarStream.Asks uses (.initial positive small records fileCount grantsLeft) stream ∧
      (∃ state, EndedRun positive small records uses state) ∧
        ∀ state, EndedRun positive small records uses state →
          state.passedBlocks = stream.writeTarEof := by
  obtain ⟨uses, asks⟩ := run.extends.asks
  exact ⟨uses, asks, endedRun_exists positive small records uses,
    fun _ ended => asks.passedBlocks ended⟩

end SharedRuns

/-- The backup of one directory. -/
theorem BackupRun.encodedBlocks_arrive_oneDirectory :
    let stream :=
      (TarStream.initial (show 0 < 512 by decide) (by decide) (by decide) 0 none).tlmOutputDir
        ⟨fun _ => none, fun _ => none⟩ [slash, 97] ⟨.directory, 0o755, 2, 5, 0, 0, 4096, 0, 0⟩ none
    ∃ uses, TarStream.Asks uses (.initial (show 0 < 512 by decide) (by decide) (by decide) 0 none)
        stream ∧
      (∃ state, EndedRun (show 0 < 512 by decide) (by decide) (by decide) uses state) ∧
        ∀ state, EndedRun (show 0 < 512 by decide) (by decide) (by decide) uses state →
          state.passedBlocks = stream.writeTarEof :=
  BackupRun.encodedBlocks_arrive (.directory _ _ _ _ (.start []))

/-! ## From a directory tree to a directory tree -/

theorem SourceEntry.encodeAll_extends (owners : OwnerNames) (sources : List SourceEntry)
    (stream : TarStream) (hardlinkQ : HardlinkQ) :
    stream.Extends (encodeAll owners sources stream hardlinkQ).1 := by
  induction sources generalizing stream hardlinkQ with
  | nil => exact .refl stream
  | cons source sources ih =>
      refine .trans ?_ (ih _ _)
      cases source with
      | directory name attr aclInfo => exact stream.tlmOutputDir_extends _ _ _ _
      | symbolicLink entry run _ | fifo entry run _ | regularFile entry run _ =>
          exact tlmOutputFile_extends _ _ _ _ _

/-- The stream ends with what lies behind the archive. -/
theorem TarStream.flatten_writeTarEof (stream : TarStream) :
    stream.writeTarEof.flatten = stream.pool.content ++ stream.trailing := by
  rw [stream.trailing_eq, writeTarEof, List.flatten_append, List.flatten_singleton,
    WritePool.content, List.append_assoc, List.take_append_drop]

section EndToEnd

variable {size : Nat} {positive : 0 < size} {small : size < 2 ^ 32} {records : 512 ∣ size}
  {fileCount : Nat} {owners : OwnerNames} {sources : List SourceEntry} {encoderQ : HardlinkQ}

/-- A decoder that gets the stream of an encoder, cut in any way into blocks of whole records,
restores the entries. -/
theorem restored_of_stream (accepted : ∀ source ∈ sources, source.Accepted)
    (linked : ∀ entry run, SourceEntry.symbolicLink entry run [] ∉ sources)
    (nothing : ¬ HasRecord (SourceEntry.encodeAll owners sources
      (.initial positive small records fileCount none) encoderQ).1.oneBlockBefore)
    {blocks : List ReadBlock} (whole : RestoreWriter.Whole blocks)
    (arrived : RestoreWriter.bytesOf blocks = (SourceEntry.encodeAll owners sources
      (.initial positive small records fileCount none) encoderQ).1.writeTarEof.flatten)
    {args : RestoreArgs} (all : RestoresAll args) (fifos : SourceEntry.FifosMade args sources [])
    (decoderQ : HardlinkQ) {rounds : Nat}
    (enough : (RestoreWriter.bytesOf blocks).length ≤ 512 * rounds) :
    Restored.of (RestoreWriter.tarGetdir args blocks decoderQ ⟨[], [], []⟩ rounds).ops =
      ⟨sources.map SourceEntry.archived, none⟩ := by
  let encoded := SourceEntry.encodeAll owners sources
    (.initial positive small records fileCount none) encoderQ
  have goesOn : TarStream.Extends (.initial positive small records fileCount none) encoded.1 :=
    SourceEntry.encodeAll_extends owners sources _ encoderQ
  have bytes : RestoreWriter.bytesOf blocks =
      archiveOf positive small records fileCount owners encoderQ sources ++ encoded.1.trailing :=
    arrived.trans encoded.1.flatten_writeTarEof
  have bad : ¬ HasRecord encoded.1.trailing :=
    fun record => nothing ((TarStream.trailing_hasRecord_iff goesOn.behindSpot).mp record)
  rw [bytes, List.length_append] at enough
  rw [restored_tarGetdir positive small records fileCount owners encoderQ accepted all whole bad
    bytes decoderQ (by omega), (SourceEntry.restoredAll_iff args [] sources).mpr ⟨linked, fifos⟩,
    List.nil_append]

end EndToEnd

end Ndmpd
