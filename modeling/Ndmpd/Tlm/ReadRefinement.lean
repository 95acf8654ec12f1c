import Ndmpd.Foundation.Simulation
import Ndmpd.Tlm.ArchiveRoundTrip
import Ndmpd.Tlm.ReadOrder

/-!
# The decoder and the pool that two threads share

The decoder is described over a list of blocks, from which it takes one record after the
other. The daemon reads the blocks in one thread while the decoder takes records in another.
As long as the reader does not overtake the decoder, each request is answered with the record
that the decoder takes from the list of the blocks read (`records_sequential`), whatever the
order of the threads' steps: a state of the two threads represents what is left of the
current block (`represents_simulation`).
-/

namespace Ndmpd

open Foundation Foundation.System

/-- What is seen of the shared pool: a block that was read, a request of the decoder, the
record that it gets, or that it gets none. -/
inductive ReadEvent where
  | block (bytes : List UInt8)
  | asked (want : Nat)
  | record (bytes : List UInt8)
  | gaveUp
  deriving DecidableEq, Repr

namespace ReadEvent

/-- The blocks that were read. -/
def blocks : List ReadEvent → List (List UInt8) :=
  List.filterMap fun
    | block bytes => some bytes
    | _ => none

/-- What the decoder asked for. -/
def requests : List ReadEvent → List Nat :=
  List.filterMap fun
    | asked want => some want
    | _ => none

/-- The records that the decoder got. -/
def records : List ReadEvent → List (List UInt8) :=
  List.filterMap fun
    | record bytes => some bytes
    | _ => none

end ReadEvent

/-! ## The sequential reader -/

/-- What is left of the current block, the request that is not yet answered, and whether a
request was given up. -/
structure SequentialReader where
  rest : List UInt8
  pending : Option Nat
  stopped : Bool
  deriving DecidableEq, Repr

namespace SequentialReader

/-- How much of what is left a request is answered with. -/
def size (reader : SequentialReader) (want : Nat) : Nat :=
  unsignedMin (roundToRecords want) reader.rest.length

/-- Blocks come one at a time, and records are taken from the front of what is left. -/
def step (reader : SequentialReader) : ReadEvent → Option SequentialReader
  | .block bytes => if reader.rest = [] then some { reader with rest := bytes } else none
  | .asked want => if reader.pending = none then some { reader with pending := some want } else none
  | .record bytes =>
      reader.pending.bind fun want =>
        if reader.stopped = false ∧ reader.rest ≠ [] ∧
            bytes = reader.rest.take (reader.size want) then
          some { reader with rest := reader.rest.drop (reader.size want), pending := none }
        else none
  | .gaveUp =>
      if reader.pending.isSome then some { reader with pending := none, stopped := true }
      else none

/-- Nothing was read yet. -/
def initial : SequentialReader := ⟨[], none, false⟩

def system : System SequentialReader ReadEvent where
  init reader := reader = initial
  step := step

/-- A reader that gave up no request is not stopped. -/
theorem stopped_eq {events : List ReadEvent} {reader : SequentialReader}
    (performs : system.Performs events reader) (none_ : .gaveUp ∉ events) :
    reader.stopped = false := by
  induction performs with
  | init starts =>
      cases starts
      rfl
  | @step before after seen events _ taken ih =>
      have same := ih fun mem => none_ (List.mem_append_left _ mem)
      cases seen with
      | block bytes | asked want =>
          obtain ⟨-, rfl⟩ := of_guarded taken
          exact same
      | record bytes =>
          obtain ⟨want, -, taken⟩ := Option.bind_eq_some_iff.mp taken
          obtain ⟨-, rfl⟩ := of_guarded taken
          exact same
      | gaveUp => exact absurd (List.mem_append_right _ (List.mem_singleton_self _)) none_

end SequentialReader

namespace ReadHandOff

/-! ## What the two threads represent -/

/-- What is visible of a step. -/
def event (state : ReadHandOff) : ReadAction → Option ReadEvent
  | .getReadBuffer want => some (.asked want)
  | .modReadReturns bytes => some (.block bytes)
  | .taker =>
      match state.takerPc with
      | .storeSpot actualSize record _ =>
          some (.record ((state.block.tbBufferData.drop record).take actualSize))
      | .giveUp => some .gaveUp
      | _ => none
  | _ => none

end ReadHandOff

/-- The request that is pending where the decoder stands. It gives up only when it was
stopped. -/
def TakerPc.Pending (command : RestoreCommand) (reader : SequentialReader) : TakerPc → Prop
  | .outside => reader.pending = none
  | .setReadBufDone want | .testWriter want => reader.pending = some want
  | .giveUp => reader.pending.isSome = true ∧ command ≠ .restoreRun
  | .locate actualSize | .loadSpot actualSize _ | .storeSpot actualSize _ _ =>
      reader.stopped = false ∧ reader.rest ≠ [] ∧
        ∃ want, reader.pending = some want ∧ actualSize = reader.size want
  | .readSize want | .readSpot want _ | .testFull want _ | .clearFull want | .releaseOut want
  | .advanceOut want | .readSizeNext want | .readSpotNext want _ | .testEmpty want _
  | .timedWait want | .fetchOut want | .testStillEmpty want | .readSizeLast want
  | .readSpotLast want _ | .testCurrent want _ =>
      reader.stopped = false ∧ reader.pending = some want

namespace ReadHandOff

/-- The state of the sequential reader that the two threads stand for. -/
structure Represents (state : ReadHandOff) (reader : SequentialReader) : Prop where
  consistent : state.Consistent
  rest : state.delivered = state.returned ++ reader.rest
  stopped : reader.stopped = true → state.tcWriter ≠ .restoreRun
  pending : state.takerPc.Pending state.tcWriter reader

variable {state next : ReadHandOff} {reader : SequentialReader}

/-- What is left of a full block. -/
theorem Represents.held (represents : state.Represents reader)
    (isFull : state.block.tbFull = true) :
    reader.rest = state.block.tbBufferData.drop state.block.tbBufferSpot ∧
      reader.rest.length = state.block.tbBufferSize - state.block.tbBufferSpot := by
  obtain ⟨size, spot, length, held⟩ := represents.consistent.full isFull
  have same := List.append_cancel_left (represents.rest.symm.trans held)
  refine ⟨same, ?_⟩
  rw [same, List.length_drop, length, size]

/-- A step that moves no bytes and does not restart the decoder. -/
theorem Represents.keeps (represents : state.Represents reader) (consistent : next.Consistent)
    (delivered : next.delivered = state.delivered) (returned : next.returned = state.returned)
    (command : state.tcWriter ≠ .restoreRun → next.tcWriter ≠ .restoreRun)
    (pending : next.takerPc.Pending next.tcWriter reader) : next.Represents reader := by
  refine ⟨consistent, ?_, fun stopped => command (represents.stopped stopped), pending⟩
  rw [delivered, returned]
  exact represents.rest

/-- The decoder has the mutex, or it waits for it. -/
theorem locked_eq {pc : TakerPc} (taken : state.locked pc = some next) :
    next = { state with takerPc := pc } := by
  rw [locked] at taken
  split at taken <;> cases taken
  rfl

/-- A decoder that was stopped stays stopped. -/
theorem Pending_of_command {command command' : RestoreCommand} {pc : TakerPc}
    (keeps : command ≠ .restoreRun → command' ≠ .restoreRun)
    (pending : pc.Pending command reader) : pc.Pending command' reader := by
  cases pc with
  | giveUp => exact ⟨pending.1, keeps pending.2⟩
  | _ => exact pending

/-- The reader does not touch what the decoder does, and stops it at most. -/
theorem fillerStep_frame (taken : state.fillerStep = some next) :
    next.takerPc = state.takerPc ∧ next.delivered = state.delivered ∧
      next.returned = state.returned ∧
      (state.tcWriter ≠ .restoreRun → next.tcWriter ≠ .restoreRun) := by
  cases pc : state.fillerPc with
  | testReaders | testReader | testFull | testRead =>
      simp only [fillerStep, pc] at taken
      split at taken <;> cases taken <;> exact ⟨rfl, rfl, rfl, id⟩
  | reading | exited =>
      rw [fillerStep, pc] at taken
      cases taken
  | stopWriter =>
      rw [fillerStep, pc] at taken
      cases taken
      refine ⟨rfl, rfl, rfl, fun _ running => ?_⟩
      cases running
  | timedWait | fetchIn | lockPool | clearRead | setSize | setSpot | setFull | advanceIn
  | refetchIn | releaseIn | stopReaders | stopReader | releaseLast =>
      rw [fillerStep, pc] at taken
      cases taken
      exact ⟨rfl, rfl, rfl, id⟩

theorem Represents.fillerStep (represents : state.Represents reader)
    (timely : Timely state .filler) (taken : state.fillerStep = some next) :
    next.Represents reader := by
  obtain ⟨takerPc, delivered, returned, command⟩ := fillerStep_frame taken
  refine represents.keeps (represents.consistent.fillerStep timely taken) delivered returned
    command ?_
  rw [takerPc]
  exact Pending_of_command command represents.pending

/-- The decoder goes on with its request. -/
theorem Represents.silentStep (represents : state.Represents reader)
    (unseen : state.event .taker = none) (taken : state.takerStep = some next) :
    next.Represents reader := by
  have consistent := represents.consistent.takerStep taken
  have pending := represents.pending
  cases pc : state.takerPc with
  | outside =>
      rw [takerStep, pc] at taken
      cases taken
  | setReadBufDone want =>
      rw [pc] at pending
      simp only [takerStep, pc] at taken
      split at taken <;> cases taken
      exact represents.keeps consistent rfl rfl id pending
  | testWriter want =>
      rw [pc] at pending
      simp only [takerStep, pc] at taken
      split at taken <;> cases taken
      · rename_i running
        have live : reader.stopped = false := by
          refine eq_false_of_ne_true fun stopped => ?_
          exact represents.stopped stopped running
        exact represents.keeps consistent rfl rfl id ⟨live, pending⟩
      · rename_i stopped
        refine represents.keeps consistent rfl rfl id ⟨?_, stopped⟩
        rw [pending]
        rfl
  | testFull want currentSize | testEmpty want currentSize =>
      rw [pc] at pending
      simp only [takerStep, pc] at taken
      split at taken <;> cases taken <;> exact represents.keeps consistent rfl rfl id pending
  | testStillEmpty want =>
      rw [pc] at pending
      simp only [takerStep, pc] at taken
      split at taken <;> cases taken
      · exact represents.keeps consistent rfl rfl id pending
      · exact represents.keeps consistent rfl rfl id pending.2
  | readSize want | readSpot want size | clearFull want | readSizeNext want
  | readSpotNext want size | readSizeLast want | readSpotLast want size | locate actualSize
  | loadSpot actualSize record =>
      rw [pc] at pending
      simp only [takerStep, pc] at taken
      cases taken
      exact represents.keeps consistent rfl rfl id pending
  | releaseOut want | advanceOut want | timedWait want | fetchOut want =>
      rw [pc] at pending
      simp only [takerStep, pc] at taken
      cases locked_eq taken
      exact represents.keeps consistent rfl rfl id pending
  | testCurrent want currentSize =>
      have expects := represents.consistent.taker
      rw [pc] at pending expects
      obtain ⟨isFull, left⟩ := expects
      simp only [takerStep, pc] at taken
      split at taken <;> cases taken
      · exact represents.keeps consistent rfl rfl id pending.2
      · rename_i more
        have length := (represents.held isFull).2.trans (left.resolve_left more).symm
        refine represents.keeps consistent rfl rfl id ⟨pending.1, ?_, want, pending.2, ?_⟩
        · rintro empty
          rw [empty] at length
          exact more length.symm
        · rw [SequentialReader.size, length]
  | storeSpot actualSize record spot | giveUp =>
      rw [event, pc] at unseen
      cases unseen

/-- A request is answered with a record of the current block, or given up. -/
theorem Represents.visibleStep (represents : state.Represents reader) {seen : ReadEvent}
    (visible : state.event .taker = some seen) (taken : state.takerStep = some next) :
    ∃ after, reader.step seen = some after ∧ next.Represents after := by
  have consistent := represents.consistent.takerStep taken
  have pending := represents.pending
  cases pc : state.takerPc with
  | storeSpot actualSize record spot =>
      have expects := represents.consistent.taker
      rw [pc] at pending expects
      obtain ⟨isFull, inside, rfl, rfl⟩ := expects
      obtain ⟨live, more, want, asked, rfl⟩ := pending
      have left := (represents.held isFull).1
      rw [event, pc] at visible
      simp only [takerStep, pc] at taken
      cases visible
      cases taken
      rw [← left] at consistent ⊢
      refine ⟨{ reader with rest := reader.rest.drop (reader.size want), pending := none }, ?_,
        consistent, ?_, represents.stopped, rfl⟩
      · rw [SequentialReader.step, asked]
        exact if_pos ⟨live, more, rfl⟩
      · show state.delivered = state.returned ++ _ ++ _
        rw [List.append_assoc, List.take_append_drop]
        exact represents.rest
  | giveUp =>
      rw [pc] at pending
      rw [event, pc] at visible
      simp only [takerStep, pc] at taken
      split at taken <;> cases taken
      cases visible
      exact ⟨_, if_pos pending.1, consistent, represents.rest, fun _ => pending.2, rfl⟩
  | _ =>
      rw [event, pc] at visible
      cases visible

/-- A block is read when nothing is left of the one before. -/
theorem Represents.modReadReturns (represents : state.Represents reader) {bytes : List UInt8}
    (taken : state.step (.modReadReturns bytes) = some next) :
    ∃ after, reader.step (.block bytes) = some after ∧ next.Represents after := by
  have timely : state.Timely (.modReadReturns bytes) := trivial
  have consistent := represents.consistent.step timely taken
  have pending := represents.pending
  have expects := represents.consistent.taker
  obtain ⟨⟨reading, length⟩, rfl⟩ := of_guarded taken
  have filler := represents.consistent.filler
  rw [reading] at filler
  obtain ⟨free, -, -, same⟩ := filler
  have empty : reader.rest = [] := by
    have whole := represents.rest
    rwa [same, List.self_eq_append_right] at whole
  refine ⟨{ reader with rest := bytes }, if_pos empty, consistent, ?_, represents.stopped, ?_⟩
  · show state.delivered ++ bytes = state.returned ++ bytes
    rw [same]
  · show state.takerPc.Pending state.tcWriter _
    cases pc : state.takerPc with
    | locate actualSize | loadSpot actualSize record | storeSpot actualSize record spot =>
        -- the block is not full, so the decoder does not take a record from it
        rw [pc] at expects
        cases free.symm.trans expects.1
    | _ =>
        rw [pc] at pending
        exact pending

/-- The two threads simulate the sequential reader. -/
theorem represents_simulation :
    Simulation system Timely event SequentialReader.system Represents where
  init := by
    rintro state ⟨transferSize, memory, positive, rfl⟩
    have reached : system.ReachableBy Timely (started transferSize memory) :=
      .init ⟨transferSize, memory, positive, rfl⟩
    exact ⟨.initial, rfl, consistent_of_reachable reached, rfl, nofun, rfl⟩
  silent state action next reader represents timely taken unseen := by
    have consistent := represents.consistent.step timely taken
    cases action with
    | getReadBuffer want | modReadReturns bytes => cases unseen
    | taker => exact represents.silentStep unseen taken
    | filler => exact represents.fillerStep timely taken
    | modReadFails memory =>
        obtain ⟨-, rfl⟩ := of_guarded taken
        exact represents.keeps consistent rfl rfl id represents.pending
    | command word aborted =>
        cases taken
        have command : state.tcWriter ≠ .restoreRun →
            (state.commanded word (if aborted then .abort else .stop)).tcWriter ≠
              .restoreRun := by
          intro stopped
          cases word <;> cases aborted <;> first | exact stopped | exact nofun
        refine represents.keeps consistent ?_ ?_ command ?_
        · cases word <;> rfl
        · cases word <;> rfl
        · have pending := Pending_of_command command represents.pending
          cases word <;> exact pending
  visible state action next reader seen represents timely taken visible := by
    have consistent := represents.consistent.step timely taken
    cases action with
    | getReadBuffer want =>
        cases visible
        obtain ⟨outside, rfl⟩ := of_guarded taken
        have pending := represents.pending
        rw [outside] at pending
        exact ⟨_, if_pos pending, consistent, represents.rest, represents.stopped, rfl⟩
    | taker => exact represents.visibleStep visible taken
    | modReadReturns bytes =>
        cases visible
        exact represents.modReadReturns taken
    | filler | modReadFails memory | command word aborted => cases visible

end ReadHandOff

/-! ## Taking the records from the list of blocks -/

namespace RestoreWriter

variable {writer : RestoreWriter}

/-- The answers to these requests, one after the other. -/
def reads (writer : RestoreWriter) : List Nat → List (Option (List UInt8)) × RestoreWriter
  | [] => ([], writer)
  | want :: wants =>
      let answer := writer.getReadBuffer want
      let others := reads answer.2 wants
      (answer.1.map Prod.fst :: others.1, others.2)

theorem reads_append (writer : RestoreWriter) (first second : List Nat) :
    writer.reads (first ++ second) =
      ((writer.reads first).1 ++ ((writer.reads first).2.reads second).1,
        ((writer.reads first).2.reads second).2) := by
  induction first generalizing writer with
  | nil => rfl
  | cons want wants ih =>
      rw [List.cons_append, reads, reads, ih]
      rfl

/-- All blocks are used up, but for the rest of the last one. -/
inductive Left (rest : List UInt8) : List ReadBlock → Prop where
  | nil : rest = [] → Left rest []
  | last {block : ReadBlock} : block.bytes = rest → Left rest [block]
  | used {block : ReadBlock} {blocks : List ReadBlock} :
      block.bytes = [] → Left rest blocks → Left rest (block :: blocks)

/-- Behind used blocks comes a new one. -/
theorem Left.append {blocks : List ReadBlock} (left : Left [] blocks) (block : ReadBlock) :
    Left block.bytes (blocks ++ [block]) := by
  induction left with
  | nil _ => exact .last rfl
  | last empty => exact .used empty (.last rfl)
  | used empty _ ih => exact .used empty ih

/-- What is left is found behind the used blocks. -/
theorem Left.dropWhile {rest : List UInt8} {blocks : List ReadBlock} (left : Left rest blocks)
    (more : rest ≠ []) (later : List ReadBlock) :
    ∃ block : ReadBlock, block.bytes = rest ∧
      ((blocks ++ later).dropWhile fun block => block.bytes = []) = block :: later := by
  induction left with
  | nil empty => exact absurd empty more
  | @last block same =>
      refine ⟨block, same, ?_⟩
      rw [List.singleton_append, List.dropWhile_cons_of_neg]
      simpa [same] using more
  | @used block blocks empty _ ih =>
      obtain ⟨found, same, dropped⟩ := ih
      refine ⟨found, same, ?_⟩
      rw [List.cons_append, List.dropWhile_cons_of_pos (by simpa using empty), dropped]

/-- A request takes from the front of what is left. -/
theorem Left.getReadBuffer {reader : SequentialReader} {blocks : List ReadBlock}
    (left : Left reader.rest blocks) (more : reader.rest ≠ []) (later : List ReadBlock)
    (running : writer.tcWriterStop = false) (want : Nat) :
    ∃ error blocks', { writer with blocks := blocks ++ later }.getReadBuffer want =
        (some (reader.rest.take (reader.size want), error),
          { writer with blocks := blocks' ++ later }) ∧
      Left (reader.rest.drop (reader.size want)) blocks' := by
  obtain ⟨block, same, dropped⟩ := left.dropWhile more later
  refine ⟨block.tbErrno, [block.rest (reader.size want)], ?_, .last ?_⟩
  · rw [RestoreWriter.getReadBuffer, if_neg (by rw [running]; decide), dropped]
    dsimp only
    rw [SequentialReader.size, same]
    rfl
  · change block.bytes.drop _ = _
    rw [same]

/-- The sequential reader answers as the decoder does on the list of the blocks. -/
theorem reads_of_performs {events : List ReadEvent} {reader : SequentialReader}
    (performs : SequentialReader.system.Performs events reader)
    (running : writer.tcWriterStop = false) {blocks : List ReadBlock}
    (same : blocks.map ReadBlock.bytes = ReadEvent.blocks events) (later : List ReadBlock) :
    ∃ answered left,
      { writer with blocks := blocks ++ later }.reads answered =
        ((ReadEvent.records events).map some, { writer with blocks := left ++ later }) ∧
      Left reader.rest left ∧ answered <+: ReadEvent.requests events ∧
      (reader.stopped = false →
        ReadEvent.requests events = answered ++ reader.pending.toList) := by
  induction performs generalizing blocks later with
  | init starts =>
      cases starts
      cases List.map_eq_nil_iff.mp same
      exact ⟨[], [], rfl, .nil rfl, List.prefix_rfl, fun _ => rfl⟩
  | @step before after seen events _ taken ih =>
      cases seen with
      | block bytes =>
          obtain ⟨empty, rfl⟩ := of_guarded taken
          rw [ReadEvent.blocks, List.filterMap_append] at same
          obtain ⟨earlier, last, rfl, sameEarlier, sameLast⟩ := List.map_eq_append_iff.mp same
          obtain ⟨block, none_, rfl, rfl, noMore⟩ := List.map_eq_cons_iff.mp sameLast
          cases List.map_eq_nil_iff.mp noMore
          obtain ⟨answered, left, read, rest, front, asked⟩ := ih sameEarlier (block :: later)
          rw [empty] at rest
          refine ⟨answered, left ++ [block], ?_, rest.append block, ?_, fun live => ?_⟩
          · simpa [ReadEvent.records] using read
          · simpa [ReadEvent.requests] using front
          · simpa [ReadEvent.requests] using asked live
      | asked want =>
          obtain ⟨idle, rfl⟩ := of_guarded taken
          have sameBlocks : blocks.map ReadBlock.bytes = ReadEvent.blocks events := by
            simpa [ReadEvent.blocks] using same
          obtain ⟨answered, left, read, rest, front, asked⟩ := ih sameBlocks later
          refine ⟨answered, left, ?_, rest, ?_, fun live => ?_⟩
          · simpa [ReadEvent.records] using read
          · rw [ReadEvent.requests, List.filterMap_append]
            exact front.trans (List.prefix_append _ _)
          · rw [ReadEvent.requests, List.filterMap_append]
            change ReadEvent.requests events ++ [want] = _
            rw [asked live, idle]
            simp
      | record bytes =>
          obtain ⟨want, pending, taken⟩ := Option.bind_eq_some_iff.mp taken
          obtain ⟨⟨live, more, rfl⟩, rfl⟩ := of_guarded taken
          have sameBlocks : blocks.map ReadBlock.bytes = ReadEvent.blocks events := by
            simpa [ReadEvent.blocks] using same
          obtain ⟨answered, left, read, rest, front, asked⟩ := ih sameBlocks later
          obtain ⟨error, left', took, rest'⟩ := rest.getReadBuffer more later running want
          have requests : ReadEvent.requests events = answered ++ [want] := by
            rw [asked live, pending]
            rfl
          refine ⟨answered ++ [want], left', ?_, rest', ?_, fun _ => ?_⟩
          · rw [reads_append, read]
            simp [reads, took, ReadEvent.records]
          · simp [ReadEvent.requests, ← requests]
          · simp [ReadEvent.requests, ← requests]
      | gaveUp =>
          obtain ⟨isPending, rfl⟩ := of_guarded taken
          have sameBlocks : blocks.map ReadBlock.bytes = ReadEvent.blocks events := by
            simpa [ReadEvent.blocks] using same
          obtain ⟨answered, left, read, rest, front, -⟩ := ih sameBlocks later
          refine ⟨answered, left, ?_, rest, ?_, nofun⟩
          · simpa [ReadEvent.records] using read
          · simpa [ReadEvent.requests] using front

end RestoreWriter

namespace ReadHandOff

/-- **The decoder gets the records of the blocks.** In every run in which the reader does not
overtake the decoder, the requests are answered in order with the records that the decoder
takes from the list of the blocks read. At most the last request is open, unless one was
given up. -/
theorem records_sequential {events : List ReadEvent} {state : ReadHandOff}
    (traces : system.Traces Timely event events state) (writer : RestoreWriter)
    (running : writer.tcWriterStop = false)
    (same : writer.blocks.map ReadBlock.bytes = ReadEvent.blocks events) :
    ∃ answered, answered <+: ReadEvent.requests events ∧
      (writer.reads answered).1 = (ReadEvent.records events).map some ∧
      (.gaveUp ∉ events → (ReadEvent.requests events).length ≤ answered.length + 1) := by
  obtain ⟨reader, performs, -⟩ := represents_simulation.performs traces
  obtain ⟨answered, left, read, -, front, asked⟩ :=
    RestoreWriter.reads_of_performs performs running same []
  rw [List.append_nil] at read
  refine ⟨answered, front, ?_, fun none_ => ?_⟩
  · rw [show writer.reads answered = _ from read]
  · rw [asked (SequentialReader.stopped_eq performs none_), List.length_append]
    have atMostOne : reader.pending.toList.length ≤ 1 := by
      cases reader.pending <;> simp
    omega

/-- A block of 512 equal bytes. -/
def evenBlock (byte : UInt8) : ReadBlock where
  bytes := List.replicate 512 byte
  tbErrno := 0
  small := by
    rw [List.length_replicate]
    decide

/-- The two blocks of `retried` and the fetch behind it are taken as two records. -/
theorem records_sequential_twoBlocks :
    ∃ events state, system.Traces Timely event events state ∧
      ReadEvent.records events = [(evenBlock 7).bytes, (evenBlock 8).bytes] ∧
      ∃ answered, answered <+: ReadEvent.requests events ∧
        ((RestoreWriter.start restoreArgs [evenBlock 7, evenBlock 8] []
          ⟨[], [], []⟩).reads answered).1 = (ReadEvent.records events).map some ∧
        (.gaveUp ∉ events → (ReadEvent.requests events).length ≤ answered.length + 1) := by
  have ends : (system.observe Timely event (started 512 (List.replicate 512 0))
      (retried ++ fetch (List.replicate 512 8) ++ List.replicate 9 .taker)).map Prod.fst =
        some [.block (List.replicate 512 7), .asked 512, .record (List.replicate 512 7),
          .asked 512, .block (List.replicate 512 8), .record (List.replicate 512 8)] := by
    decide +kernel
  obtain ⟨seen, ran, same⟩ := Option.map_eq_some_iff.mp ends
  have fresh : system.Traces Timely event [] (started 512 (List.replicate 512 0)) :=
    .init ⟨512, _, by decide, rfl⟩
  have traces := fresh.observe ran
  rw [List.nil_append, same] at traces
  exact ⟨_, _, traces, rfl, records_sequential traces _ rfl rfl⟩

end ReadHandOff

end Ndmpd
