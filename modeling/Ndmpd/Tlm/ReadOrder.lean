import Ndmpd.Tlm.ReadHandOff

/-!
# Blocks are read once and in order

While `tb_full` is set the block belongs to the restore writer, otherwise to the reader. The
writer computes what is left of the block before it looks at `tb_full`, so it must not be
overtaken there: where the reader declares a block full in between, the writer takes the new
block for the old one and releases it unread (`unread_block_released`). In every other run each
byte that was delivered is returned once, in order, and no unread block is released
(`read_in_order`).
-/

namespace Ndmpd

namespace FillerPc

variable (block : RestoreBlock) (transferSize : Nat) (delivered returned : List UInt8)

/-- All that was delivered has been returned. -/
def Consumed : Prop :=
  block.tbBufferSize = block.tbBufferSpot ∧
    (block.tbBufferSize = 0 ∨ block.tbBufferSize = transferSize) ∧ delivered = returned

/-- The bytes of the block have been delivered and none of them returned. -/
def Fresh : Prop :=
  block.tbBufferData.length = transferSize ∧ delivered = returned ++ block.tbBufferData

/-- What the reader knows about the block where it stands. -/
def Expects : FillerPc → Prop
  | .testRead | .lockPool | .reading =>
      block.tbFull = false ∧ Consumed block transferSize delivered returned
  | .clearRead | .setSize =>
      block.tbFull = false ∧ Fresh block transferSize delivered returned ∧
        block.tbBufferSize = block.tbBufferSpot ∧
        (block.tbBufferSize = 0 ∨ block.tbBufferSize = transferSize)
  | .setSpot =>
      block.tbFull = false ∧ Fresh block transferSize delivered returned ∧
        block.tbBufferSize = transferSize ∧
        (block.tbBufferSpot = 0 ∨ block.tbBufferSpot = transferSize)
  | .setFull =>
      block.tbFull = false ∧ Fresh block transferSize delivered returned ∧
        block.tbBufferSize = transferSize ∧ block.tbBufferSpot = 0
  | _ => block.tbFull = false → Consumed block transferSize delivered returned

end FillerPc

namespace TakerPc

/-- The writer has read the size, and perhaps the spot, of a block with nothing left, and
is still to look at `tb_full`. -/
def stale : TakerPc → Bool
  | .readSpot _ size => size == 0
  | .testFull _ currentSize => currentSize == 0
  | _ => false

/-- What the writer has read before it looked at `tb_full` is nothing, or all of a block
that is about to be declared full. -/
def Ahead (state : ReadHandOff) (currentSize : Nat) : Prop :=
  currentSize = 0 ∨ currentSize = state.tbsDataTransferSize ∧
    state.block.tbBufferSize = state.tbsDataTransferSize ∧ state.block.tbBufferSpot = 0 ∧
    (state.fillerPc = .setSpot ∨ state.fillerPc = .setFull)

/-- What the writer knows about the block where it stands. -/
def Expects (state : ReadHandOff) : TakerPc → Prop
  | .readSpot _ size =>
      (state.block.tbFull = true → size = state.block.tbBufferSize) ∧
        (state.block.tbFull = false → size = 0 ∨
          size = state.tbsDataTransferSize ∧
            state.block.tbBufferSize = state.tbsDataTransferSize)
  | .testFull _ currentSize =>
      (state.block.tbFull = true →
          currentSize = state.block.tbBufferSize - state.block.tbBufferSpot) ∧
        (state.block.tbFull = false → Ahead state currentSize)
  | .clearFull _ =>
      state.block.tbFull = true ∧ state.block.tbBufferSize ≤ state.block.tbBufferSpot
  | .releaseOut _ | .advanceOut _ | .readSizeNext _ =>
      state.block.tbBufferSize = state.tbsDataTransferSize
  | .readSpotNext _ size =>
      state.block.tbBufferSize = state.tbsDataTransferSize ∧ size = state.tbsDataTransferSize
  | .testEmpty _ currentSize =>
      (state.block.tbFull = true → currentSize = 0 ∨
          currentSize = state.block.tbBufferSize - state.block.tbBufferSpot) ∧
        (state.block.tbFull = false → Ahead state currentSize)
  | .readSizeLast _ => state.block.tbFull = true
  | .readSpotLast _ size => state.block.tbFull = true ∧ size = state.block.tbBufferSize
  | .testCurrent _ currentSize =>
      state.block.tbFull = true ∧ (currentSize = 0 ∨
        currentSize = state.block.tbBufferSize - state.block.tbBufferSpot)
  | .locate actualSize =>
      state.block.tbFull = true ∧
        actualSize ≤ state.block.tbBufferSize - state.block.tbBufferSpot
  | .loadSpot actualSize record =>
      state.block.tbFull = true ∧
        actualSize ≤ state.block.tbBufferSize - state.block.tbBufferSpot ∧
        record = state.block.tbBufferSpot
  | .storeSpot actualSize record spot =>
      state.block.tbFull = true ∧
        actualSize ≤ state.block.tbBufferSize - state.block.tbBufferSpot ∧
        record = state.block.tbBufferSpot ∧ spot = state.block.tbBufferSpot
  | .outside | .setReadBufDone _ | .testWriter _ | .readSize _ | .timedWait _ | .fetchOut _
  | .testStillEmpty _ | .giveUp => True

end TakerPc

namespace ReadHandOff

open Foundation.System

/-- A full block holds what was delivered and not yet returned. -/
def Held (state : ReadHandOff) : Prop :=
  state.block.tbBufferSize = state.tbsDataTransferSize ∧
    state.block.tbBufferSpot ≤ state.tbsDataTransferSize ∧
    state.block.tbBufferData.length = state.tbsDataTransferSize ∧
    state.delivered = state.returned ++ state.block.tbBufferData.drop state.block.tbBufferSpot

/-- The block belongs to the writer while it is full and to the reader while it is not. -/
structure Consistent (state : ReadHandOff) : Prop where
  positive : 0 < state.tbsDataTransferSize
  filler : state.fillerPc.Expects state.block state.tbsDataTransferSize state.delivered
    state.returned
  full : state.block.tbFull = true → state.Held
  taker : state.takerPc.Expects state

/-- The reader does not declare a block full while the writer, in `tlm_get_read_buffer`,
has found nothing left of the block before and is still to look at `tb_full`. -/
def Timely (state : ReadHandOff) : ReadAction → Prop
  | .filler => state.fillerPc = .setFull → state.takerPc.stale = false
  | _ => True

/-- A block with unread bytes is not full, and the reader does not work on it. -/
def Dropped (state : ReadHandOff) : Prop :=
  state.mutexHeld = false ∧ state.block.tbFull = false ∧
    state.block.tbBufferSpot < state.block.tbBufferSize

/-- What was returned is a front of what was delivered, and no unread block was released. -/
def InOrder (state : ReadHandOff) : Prop :=
  state.returned <+: state.delivered ∧ ¬ state.Dropped

section

variable {state next : ReadHandOff}

/-- Whoever has the block, the returned bytes are a front of the delivered ones. -/
theorem Consistent.inOrder (consistent : Consistent state) : state.InOrder := by
  obtain ⟨_, filler, full, _⟩ := consistent
  cases isFull : state.block.tbFull with
  | true =>
      obtain ⟨_, _, _, rest⟩ := full isFull
      refine ⟨rest ▸ List.prefix_append _ _, fun dropped => ?_⟩
      cases isFull.symm.trans dropped.2.1
  | false =>
      have consumed (all : FillerPc.Consumed state.block state.tbsDataTransferSize
          state.delivered state.returned) : state.InOrder := by
        obtain ⟨size, _, same⟩ := all
        refine ⟨same ▸ List.prefix_rfl, fun dropped => ?_⟩
        exact absurd dropped.2.2 (size ▸ Nat.lt_irrefl _)
      have fresh (new : FillerPc.Fresh state.block state.tbsDataTransferSize state.delivered
          state.returned) (held : state.mutexHeld = true) : state.InOrder := by
        refine ⟨new.2 ▸ List.prefix_append _ _, fun dropped => ?_⟩
        cases held.symm.trans dropped.1
      cases pc : state.fillerPc with
      | testRead | lockPool | reading =>
          rw [pc] at filler
          exact consumed filler.2
      | clearRead | setSize | setSpot | setFull =>
          rw [pc] at filler
          exact fresh filler.2.1 (by rw [mutexHeld, pc])
      | testReaders | testReader | testFull | timedWait | fetchIn | advanceIn | refetchIn
      | releaseIn | stopReaders | stopReader | stopWriter | releaseLast | exited =>
          rw [pc] at filler
          exact consumed (filler isFull)

/-- The writer goes on without touching the block. -/
theorem Consistent.take (consistent : Consistent state) {pc : TakerPc}
    (expects : pc.Expects state) : Consistent { state with takerPc := pc } := by
  obtain ⟨positive, filler, full, _⟩ := consistent
  refine ⟨positive, filler, full, ?_⟩
  cases pc <;> exact expects

theorem Consistent.takeLocked (consistent : Consistent state) {pc : TakerPc}
    (taken : state.locked pc = some next) (expects : pc.Expects state) : Consistent next := by
  rw [locked] at taken
  split at taken <;> cases taken
  exact consistent.take expects

/-- The writer marks the block as read; nobody depends on the mark. -/
theorem Consistent.markRead (consistent : Consistent state) {pc : TakerPc}
    (anywhere : ∀ state, pc.Expects state) :
    Consistent { state with
      block := { state.block with tbReadBufRead := true }, takerPc := pc } := by
  obtain ⟨positive, filler, full, _⟩ := consistent
  refine ⟨positive, ?_, full, anywhere _⟩
  cases pc : state.fillerPc <;> rw [pc] at filler <;> exact filler

/-- A block is empty or has the transfer size. -/
theorem Consistent.size (consistent : Consistent state) :
    state.block.tbBufferSize = 0 ∨ state.block.tbBufferSize = state.tbsDataTransferSize := by
  obtain ⟨_, filler, full, _⟩ := consistent
  cases isFull : state.block.tbFull with
  | true => exact .inr (full isFull).1
  | false =>
      cases pc : state.fillerPc with
      | testRead | lockPool | reading =>
          rw [pc] at filler
          exact filler.2.2.1
      | clearRead | setSize =>
          rw [pc] at filler
          exact filler.2.2.2
      | setSpot | setFull =>
          rw [pc] at filler
          exact .inr filler.2.2.1
      | testReaders | testReader | testFull | timedWait | fetchIn | advanceIn | refetchIn
      | releaseIn | stopReaders | stopReader | stopWriter | releaseLast | exited =>
          rw [pc] at filler
          exact (filler isFull).2.1

/-- What is left of a block that is not full: nothing, or all of a new one. -/
theorem Consistent.ahead (consistent : Consistent state) (empty : state.block.tbFull = false)
    {size : Nat} (known : size = 0 ∨ size = state.tbsDataTransferSize ∧
      state.block.tbBufferSize = state.tbsDataTransferSize) :
    TakerPc.Ahead state (size - state.block.tbBufferSpot) := by
  obtain ⟨positive, filler, _, _⟩ := consistent
  obtain rfl | ⟨rfl, whole⟩ := known
  · exact .inl (Nat.zero_sub _)
  by_cases start : state.block.tbBufferSpot = 0
  · rw [start]
    have busy : state.block.tbBufferSize ≠ state.block.tbBufferSpot := by
      rw [whole, start]
      exact positive.ne'
    refine .inr ⟨Nat.sub_zero _, whole, start, ?_⟩
    cases pc : state.fillerPc with
    | setSpot => exact .inl rfl
    | setFull => exact .inr rfl
    | testRead | lockPool | reading =>
        rw [pc] at filler
        exact absurd filler.2.1 busy
    | clearRead | setSize =>
        rw [pc] at filler
        exact absurd filler.2.2.1 busy
    | testReaders | testReader | testFull | timedWait | fetchIn | advanceIn | refetchIn
    | releaseIn | stopReaders | stopReader | stopWriter | releaseLast | exited =>
        rw [pc] at filler
        exact absurd (filler empty).1 busy
  · -- the spot of a block that is not full is at its start or at its end
    refine .inl (Nat.sub_eq_zero_of_le (le_of_eq ?_))
    have ended (same : state.block.tbBufferSize = state.block.tbBufferSpot) :
        state.tbsDataTransferSize = state.block.tbBufferSpot :=
      whole.symm.trans same
    cases pc : state.fillerPc with
    | setSpot =>
        rw [pc] at filler
        exact (filler.2.2.2.resolve_left start).symm
    | setFull =>
        rw [pc] at filler
        exact absurd filler.2.2.2 start
    | testRead | lockPool | reading =>
        rw [pc] at filler
        exact ended filler.2.1
    | clearRead | setSize =>
        rw [pc] at filler
        exact ended filler.2.2.1
    | testReaders | testReader | testFull | timedWait | fetchIn | advanceIn | refetchIn
    | releaseIn | stopReaders | stopReader | stopWriter | releaseLast | exited =>
        rw [pc] at filler
        exact ended (filler empty).1

/-- The reader is not in its critical section while the block is full. -/
theorem Consistent.outside (consistent : Consistent state) (isFull : state.block.tbFull = true)
    {block : RestoreBlock} {returned : List UInt8}
    (expects : block.tbFull = false →
      FillerPc.Consumed block state.tbsDataTransferSize state.delivered returned) :
    state.fillerPc.Expects block state.tbsDataTransferSize state.delivered returned := by
  have filler := consistent.filler
  cases pc : state.fillerPc with
  | testRead | lockPool | reading | clearRead | setSize | setSpot | setFull =>
      rw [pc] at filler
      cases isFull.symm.trans filler.1
  | testReaders | testReader | testFull | timedWait | fetchIn | advanceIn | refetchIn
  | releaseIn | stopReaders | stopReader | stopWriter | releaseLast | exited => exact expects

theorem Consistent.takerStep (consistent : Consistent state)
    (taken : state.takerStep = some next) : Consistent next := by
  have taker := consistent.taker
  cases pc : state.takerPc with
  | outside =>
      rw [ReadHandOff.takerStep, pc] at taken
      cases taken
  | setReadBufDone want =>
      simp only [ReadHandOff.takerStep, pc] at taken
      split at taken <;> cases taken
      exact consistent.markRead fun _ => trivial
  | testWriter want =>
      simp only [ReadHandOff.takerStep, pc] at taken
      split at taken <;> cases taken
      · exact consistent.take trivial
      · exact consistent.take trivial
  | readSize want =>
      simp only [ReadHandOff.takerStep, pc] at taken
      cases taken
      refine consistent.take ⟨fun _ => rfl, fun _ => ?_⟩
      exact consistent.size.imp_right fun whole => ⟨whole, whole⟩
  | readSpot want size =>
      rw [pc] at taker
      simp only [ReadHandOff.takerStep, pc] at taken
      cases taken
      refine consistent.take ⟨fun isFull => ?_, fun empty => ?_⟩
      · rw [taker.1 isFull]
      · exact consistent.ahead empty (taker.2 empty)
  | testFull want currentSize =>
      rw [pc] at taker
      simp only [ReadHandOff.takerStep, pc] at taken
      split at taken <;> cases taken
      · rename_i done
        refine consistent.take ⟨done.1, Nat.sub_eq_zero_iff_le.mp ?_⟩
        exact (taker.1 done.1).symm.trans done.2
      · exact consistent.take ⟨fun isFull => .inr (taker.1 isFull), taker.2⟩
  | clearFull want =>
      rw [pc] at taker
      simp only [ReadHandOff.takerStep, pc] at taken
      cases taken
      obtain ⟨isFull, done⟩ := taker
      obtain ⟨size, spot, length, rest⟩ := consistent.full isFull
      have ended : state.block.tbBufferSpot = state.tbsDataTransferSize := by
        exact spot.antisymm (size ▸ done)
      refine ⟨consistent.positive, ?_, nofun, size⟩
      refine consistent.outside isFull fun _ => ⟨size.trans ended.symm, .inr size, ?_⟩
      rw [rest, List.drop_eq_nil_of_le (by rw [length, ended]), List.append_nil]
  | releaseOut want =>
      rw [pc] at taker
      simp only [ReadHandOff.takerStep, pc] at taken
      exact consistent.takeLocked taken taker
  | advanceOut want =>
      rw [pc] at taker
      simp only [ReadHandOff.takerStep, pc] at taken
      exact consistent.takeLocked taken taker
  | readSizeNext want =>
      rw [pc] at taker
      simp only [ReadHandOff.takerStep, pc] at taken
      cases taken
      exact consistent.take ⟨taker, taker⟩
  | readSpotNext want size =>
      rw [pc] at taker
      simp only [ReadHandOff.takerStep, pc] at taken
      cases taken
      obtain ⟨whole, same⟩ := taker
      refine consistent.take ⟨fun _ => .inr ?_, fun empty => ?_⟩
      · rw [same, whole]
      · exact consistent.ahead empty (.inr ⟨same, whole⟩)
  | testEmpty want currentSize =>
      rw [pc] at taker
      simp only [ReadHandOff.takerStep, pc] at taken
      split at taken <;> cases taken
      · rename_i isFull
        exact consistent.take ⟨isFull, taker.1 isFull⟩
      · exact consistent.take trivial
  | timedWait want =>
      simp only [ReadHandOff.takerStep, pc] at taken
      exact consistent.takeLocked taken trivial
  | fetchOut want =>
      simp only [ReadHandOff.takerStep, pc] at taken
      exact consistent.takeLocked taken trivial
  | testStillEmpty want =>
      simp only [ReadHandOff.takerStep, pc] at taken
      split at taken <;> cases taken
      · rename_i isFull
        exact consistent.take isFull
      · exact consistent.take trivial
  | readSizeLast want =>
      rw [pc] at taker
      simp only [ReadHandOff.takerStep, pc] at taken
      cases taken
      exact consistent.take ⟨taker, rfl⟩
  | readSpotLast want size =>
      rw [pc] at taker
      simp only [ReadHandOff.takerStep, pc] at taken
      cases taken
      obtain ⟨isFull, rfl⟩ := taker
      exact consistent.take ⟨isFull, .inr rfl⟩
  | testCurrent want currentSize =>
      rw [pc] at taker
      simp only [ReadHandOff.takerStep, pc] at taken
      split at taken <;> cases taken
      · exact consistent.take trivial
      · rename_i some
        obtain ⟨isFull, left⟩ := taker
        refine consistent.take ⟨isFull, ?_⟩
        rw [← left.resolve_left some]
        exact (min_le_right _ _).trans (Nat.mod_le _ _)
  | locate actualSize =>
      rw [pc] at taker
      simp only [ReadHandOff.takerStep, pc] at taken
      cases taken
      exact consistent.take ⟨taker.1, taker.2, rfl⟩
  | loadSpot actualSize record =>
      rw [pc] at taker
      simp only [ReadHandOff.takerStep, pc] at taken
      cases taken
      exact consistent.take ⟨taker.1, taker.2.1, taker.2.2, rfl⟩
  | storeSpot actualSize record spot =>
      rw [pc] at taker
      simp only [ReadHandOff.takerStep, pc] at taken
      cases taken
      obtain ⟨isFull, fits, rfl, rfl⟩ := taker
      obtain ⟨size, spot, length, rest⟩ := consistent.full isFull
      refine ⟨consistent.positive, ?_, fun _ => ⟨size, ?_, length, ?_⟩, trivial⟩
      · exact consistent.outside isFull fun empty => by cases isFull.symm.trans empty
      · change state.block.tbBufferSpot + actualSize ≤ state.tbsDataTransferSize
        omega
      · change state.delivered = _ ++ (state.block.tbBufferData.drop _).take actualSize ++
          state.block.tbBufferData.drop (state.block.tbBufferSpot + actualSize)
        rw [rest, List.append_assoc, ← List.drop_drop, List.take_append_drop]
  | giveUp =>
      simp only [ReadHandOff.takerStep, pc] at taken
      split at taken <;> cases taken
      exact consistent.markRead fun _ => trivial

/-- The reader goes on where the writer does not notice: the block stays as it is, and is
not declared full next. -/
theorem Consistent.fill (consistent : Consistent state) {pc : FillerPc}
    (expects : pc.Expects state.block state.tbsDataTransferSize state.delivered state.returned)
    (apart : state.fillerPc ≠ .setSpot ∧ state.fillerPc ≠ .setFull) :
    Consistent { state with fillerPc := pc } := by
  obtain ⟨positive, filler, full, taker⟩ := consistent
  refine ⟨positive, expects, full, ?_⟩
  have ahead {currentSize : Nat} (ahead : TakerPc.Ahead state currentSize) :
      TakerPc.Ahead { state with fillerPc := pc } currentSize := by
    refine ahead.imp_right fun filled => ?_
    obtain spot | full := filled.2.2.2
    · exact absurd spot apart.1
    · exact absurd full apart.2
  cases taking : state.takerPc with
  | testFull want currentSize =>
      rw [taking] at taker
      exact ⟨taker.1, fun empty => ahead (taker.2 empty)⟩
  | testEmpty want currentSize =>
      rw [taking] at taker
      exact ⟨taker.1, fun empty => ahead (taker.2 empty)⟩
  | outside | setReadBufDone | testWriter | readSize | readSpot | clearFull | releaseOut
  | advanceOut | readSizeNext | readSpotNext | timedWait | fetchOut | testStillEmpty
  | readSizeLast | readSpotLast | testCurrent | locate | loadSpot | storeSpot | giveUp =>
      rw [taking] at taker
      exact taker

/-- The reader changes a block that is not full: the writer keeps what it has read of it. -/
theorem Consistent.refill (consistent : Consistent state) {pc : FillerPc}
    {block : RestoreBlock} {delivered : List UInt8} (empty : state.block.tbFull = false)
    (still : block.tbFull = false)
    (expects : pc.Expects block state.tbsDataTransferSize delivered state.returned)
    (size : state.block.tbBufferSize = state.tbsDataTransferSize →
      block.tbBufferSize = state.tbsDataTransferSize)
    (ahead : ∀ currentSize, TakerPc.Ahead state currentSize →
      TakerPc.Ahead { state with block := block, fillerPc := pc } currentSize) :
    Consistent { state with block := block, fillerPc := pc, delivered := delivered } := by
  obtain ⟨positive, filler, full, taker⟩ := consistent
  have never {goal : Prop} : block.tbFull = true → goal := fun isFull => by
    cases still.symm.trans isFull
  refine ⟨positive, expects, never, ?_⟩
  cases taking : state.takerPc with
  | readSpot want read =>
      rw [taking] at taker
      exact ⟨never, fun _ => (taker.2 empty).imp_right fun whole => ⟨whole.1, size whole.2⟩⟩
  | testFull want currentSize =>
      rw [taking] at taker
      exact ⟨never, fun _ => ahead _ (taker.2 empty)⟩
  | testEmpty want currentSize =>
      rw [taking] at taker
      exact ⟨never, fun _ => ahead _ (taker.2 empty)⟩
  | releaseOut | advanceOut | readSizeNext =>
      rw [taking] at taker
      exact size taker
  | readSpotNext want read =>
      rw [taking] at taker
      exact ⟨size taker.1, taker.2⟩
  | clearFull | readSpotLast | testCurrent | locate | loadSpot | storeSpot =>
      rw [taking] at taker
      cases empty.symm.trans taker.1
  | readSizeLast =>
      rw [taking] at taker
      cases empty.symm.trans taker
  | outside | setReadBufDone | testWriter | readSize | timedWait | fetchOut | testStillEmpty
  | giveUp => trivial

/-- The block is declared full while the writer does not hold what it has read of the
block before. -/
theorem Consistent.declare (consistent : Consistent state) (setting : state.fillerPc = .setFull)
    (timely : state.takerPc.stale = false) :
    Consistent { state with
      block := { state.block with tbFull := true }, fillerPc := .advanceIn } := by
  obtain ⟨positive, filler, full, taker⟩ := consistent
  rw [setting] at filler
  obtain ⟨empty, ⟨length, fresh⟩, size, spot⟩ := filler
  refine ⟨positive, nofun, fun _ => ⟨size, ?_, length, ?_⟩, ?_⟩
  · change state.block.tbBufferSpot ≤ _
    rw [spot]
    exact Nat.zero_le _
  · change _ = _ ++ state.block.tbBufferData.drop state.block.tbBufferSpot
    rw [spot, List.drop_zero]
    exact fresh
  have left : state.tbsDataTransferSize = state.block.tbBufferSize - state.block.tbBufferSpot := by
    rw [size, spot, Nat.sub_zero]
  cases taking : state.takerPc with
  | readSpot want read =>
      rw [taking] at taker timely
      refine ⟨fun _ => ?_, nofun⟩
      obtain nothing | ⟨whole, _⟩ := taker.2 empty
      · rw [nothing] at timely
        cases timely
      · exact whole.trans size.symm
  | testFull want currentSize =>
      rw [taking] at taker timely
      refine ⟨fun _ => ?_, nofun⟩
      obtain nothing | ⟨whole, _⟩ := taker.2 empty
      · rw [nothing] at timely
        cases timely
      · exact whole.trans left
  | testEmpty want currentSize =>
      rw [taking] at taker
      exact ⟨fun _ => (taker.2 empty).imp_right fun whole => whole.1.trans left, nofun⟩
  | releaseOut | advanceOut | readSizeNext | readSpotNext =>
      rw [taking] at taker
      exact taker
  | clearFull | readSpotLast | testCurrent | locate | loadSpot | storeSpot =>
      rw [taking] at taker
      cases empty.symm.trans taker.1
  | readSizeLast => rfl
  | outside | setReadBufDone | testWriter | readSize | timedWait | fetchOut | testStillEmpty
  | giveUp => trivial

/-- No thread depends on a command word for the block. -/
theorem Consistent.commanded (consistent : Consistent state) (word : RestoreWord)
    (command : RestoreCommand) : Consistent (state.commanded word command) := by
  obtain ⟨positive, filler, full, taker⟩ := consistent
  cases word <;> refine ⟨positive, filler, full, ?_⟩
  all_goals
    change TakerPc.Expects _ state.takerPc
    cases taking : state.takerPc <;> rw [taking] at taker <;> exact taker

theorem Consistent.fillerStep (consistent : Consistent state)
    (timely : state.fillerPc = .setFull → state.takerPc.stale = false)
    (taken : state.fillerStep = some next) : Consistent next := by
  have filler := consistent.filler
  cases pc : state.fillerPc with
  | testReaders | testReader =>
      rw [pc] at filler
      simp only [ReadHandOff.fillerStep, pc] at taken
      split at taken <;> cases taken
      · exact consistent.fill filler (by rw [pc]; exact ⟨nofun, nofun⟩)
      · exact consistent.fill filler (by rw [pc]; exact ⟨nofun, nofun⟩)
  | testFull =>
      rw [pc] at filler
      simp only [ReadHandOff.fillerStep, pc] at taken
      split at taken <;> cases taken
      · exact consistent.fill filler (by rw [pc]; exact ⟨nofun, nofun⟩)
      · rename_i notFull
        have empty := Bool.eq_false_iff.mpr notFull
        exact consistent.fill ⟨empty, filler empty⟩ (by rw [pc]; exact ⟨nofun, nofun⟩)
  | testRead =>
      rw [pc] at filler
      simp only [ReadHandOff.fillerStep, pc] at taken
      split at taken <;> cases taken
      · exact consistent.fill filler (by rw [pc]; exact ⟨nofun, nofun⟩)
      · exact consistent.fill (fun _ => filler.2) (by rw [pc]; exact ⟨nofun, nofun⟩)
  | reading | exited =>
      rw [ReadHandOff.fillerStep, pc] at taken
      cases taken
  | clearRead =>
      rw [pc] at filler
      simp only [ReadHandOff.fillerStep, pc] at taken
      cases taken
      refine consistent.refill filler.1 filler.1 filler id fun currentSize ahead => ?_
      exact ahead.imp_right fun filled => by
        rw [pc] at filled
        simp at filled
  | setSize =>
      rw [pc] at filler
      simp only [ReadHandOff.fillerStep, pc] at taken
      cases taken
      obtain ⟨empty, fresh, same, known⟩ := filler
      refine consistent.refill empty empty ⟨empty, fresh, rfl, same ▸ known⟩ (fun _ => rfl)
        fun currentSize ahead => ?_
      exact ahead.imp_right fun filled => by
        rw [pc] at filled
        simp at filled
  | setSpot =>
      rw [pc] at filler
      simp only [ReadHandOff.fillerStep, pc] at taken
      cases taken
      obtain ⟨empty, fresh, whole, _⟩ := filler
      refine consistent.refill empty empty ⟨empty, fresh, whole, rfl⟩ id fun currentSize ahead => ?_
      exact ahead.imp_right fun filled => ⟨filled.1, whole, rfl, .inr rfl⟩
  | setFull =>
      simp only [ReadHandOff.fillerStep, pc] at taken
      cases taken
      exact consistent.declare pc (timely pc)
  | timedWait | fetchIn | lockPool | advanceIn | refetchIn | releaseIn | releaseLast =>
      rw [pc] at filler
      simp only [ReadHandOff.fillerStep, pc] at taken
      cases taken
      exact consistent.fill filler (by rw [pc]; exact ⟨nofun, nofun⟩)
  | stopReaders =>
      rw [pc] at filler
      simp only [ReadHandOff.fillerStep, pc] at taken
      cases taken
      exact (consistent.commanded .tcsReader .stop).fill filler
        (by change state.fillerPc ≠ _ ∧ state.fillerPc ≠ _; rw [pc]; exact ⟨nofun, nofun⟩)
  | stopReader =>
      rw [pc] at filler
      simp only [ReadHandOff.fillerStep, pc] at taken
      cases taken
      exact (consistent.commanded .tcReader .stop).fill filler
        (by change state.fillerPc ≠ _ ∧ state.fillerPc ≠ _; rw [pc]; exact ⟨nofun, nofun⟩)
  | stopWriter =>
      rw [pc] at filler
      simp only [ReadHandOff.fillerStep, pc] at taken
      cases taken
      exact (consistent.commanded .tcWriter .stop).fill filler
        (by change state.fillerPc ≠ _ ∧ state.fillerPc ≠ _; rw [pc]; exact ⟨nofun, nofun⟩)

theorem Consistent.step (consistent : Consistent state) {action : ReadAction}
    (timely : Timely state action) (taken : state.step action = some next) :
    Consistent next := by
  cases action with
  | getReadBuffer want =>
      obtain ⟨_, rfl⟩ := of_guarded taken
      exact consistent.take trivial
  | taker => exact consistent.takerStep taken
  | filler => exact consistent.fillerStep timely taken
  | modReadReturns bytes =>
      obtain ⟨⟨reading, length⟩, rfl⟩ := of_guarded taken
      have filler := consistent.filler
      rw [reading] at filler
      obtain ⟨empty, size, known, same⟩ := filler
      refine consistent.refill empty empty ⟨empty, ⟨length, ?_⟩, size, known⟩ id
        fun currentSize ahead => ?_
      · rw [same]
      · exact ahead.imp_right fun filled => by
          rw [reading] at filled
          simp at filled
  | modReadFails memory =>
      obtain ⟨reading, rfl⟩ := of_guarded taken
      have filler := consistent.filler
      rw [reading] at filler
      obtain ⟨empty, consumed⟩ := filler
      refine consistent.refill empty empty (fun _ => consumed) id fun currentSize ahead => ?_
      exact ahead.imp_right fun filled => by
        rw [reading] at filled
        simp at filled
  | command word aborted =>
      cases taken
      exact consistent.commanded word _

/-- Declared full too early, the new block is taken for the old one: the writer, by its
own next steps, releases it unread. -/
theorem Consistent.late (consistent : Consistent state) (late : ¬ Timely state .filler)
    (taken : state.fillerStep = some next) :
    ∃ steps dropped, system.run (fun _ _ => True) next (List.replicate steps .taker) =
      some dropped ∧ ¬ InOrder dropped := by
  obtain ⟨setting, stale⟩ := Classical.not_imp.mp late
  rw [Bool.not_eq_false] at stale
  have filler := consistent.filler
  rw [setting] at filler
  obtain ⟨_, _, size, spot⟩ := filler
  simp only [ReadHandOff.fillerStep, setting] at taken
  cases taken
  have unread : state.block.tbBufferSpot < state.block.tbBufferSize := by
    rw [size, spot]
    exact consistent.positive
  match pc : state.takerPc, stale with
  | .readSpot want read, stale =>
      cases (beq_iff_eq.mp stale : read = 0)
      refine ⟨3, { state with
        block := { state.block with tbFull := false }
        fillerPc := .advanceIn, takerPc := .releaseOut want }, ?_, fun inOrder => ?_⟩
      · simp [Foundation.System.run, system, ReadHandOff.step, ReadHandOff.takerStep,
          List.replicate]
      · exact inOrder.2 ⟨rfl, rfl, unread⟩
  | .testFull want currentSize, stale =>
      cases (beq_iff_eq.mp stale : currentSize = 0)
      refine ⟨2, { state with
        block := { state.block with tbFull := false }
        fillerPc := .advanceIn, takerPc := .releaseOut want }, ?_, fun inOrder => ?_⟩
      · simp [Foundation.System.run, system, ReadHandOff.step, ReadHandOff.takerStep,
          List.replicate]
      · exact inOrder.2 ⟨rfl, rfl, unread⟩

end

theorem consistent_of_reachable {state : ReadHandOff}
    (reached : system.ReachableBy Timely state) : Consistent state := by
  apply reached.invariant Consistent
  · rintro state ⟨transferSize, memory, positive, rfl⟩
    exact ⟨positive, fun _ => ⟨rfl, .inl rfl, rfl⟩, nofun, trivial⟩
  · exact fun state action next consistent timely taken => consistent.step timely taken

/-- In every run in which the reader does not overtake the writer between its look at the
block and its look at `tb_full`, the returned bytes are a front of the delivered ones and
no unread block is released. A step that does overtake it leads to a released one. -/
theorem read_in_order {state : ReadHandOff} (reached : system.ReachableBy Timely state) :
    InOrder state ∧
      ∀ next, system.step state .filler = some next → ¬ Timely state .filler →
        ∃ steps dropped, system.run (fun _ _ => True) next (List.replicate steps .taker) =
          some dropped ∧ ¬ InOrder dropped := by
  have consistent := consistent_of_reachable reached
  exact ⟨consistent.inOrder, fun next taken late => consistent.late late taken⟩

instance (state : ReadHandOff) : ∀ action, Decidable (Timely state action)
  | .filler =>
      inferInstanceAs (Decidable (state.fillerPc = .setFull → state.takerPc.stale = false))
  | .getReadBuffer _ | .taker | .modReadReturns _ | .modReadFails _ | .command _ _ =>
      inferInstanceAs (Decidable True)

/-- The reader fetches one block, then goes back to its tests. -/
def fetch (bytes : List UInt8) : List ReadAction :=
  List.replicate 5 .filler ++ [.modReadReturns bytes] ++ List.replicate 7 .filler

/-- One block is read and taken as one record; the next call finds nothing and retries. -/
def retried : List ReadAction :=
  fetch (List.replicate 512 7) ++ [.getReadBuffer 512] ++ List.replicate 10 .taker ++
    [.getReadBuffer 512] ++ List.replicate 14 .taker

/-- The second block comes before the next try, which returns it. -/
theorem read_in_order_twoBlocks :
    ∃ ended, system.run Timely (started 512 (List.replicate 512 0))
        (retried ++ fetch (List.replicate 512 8) ++ List.replicate 9 .taker) = some ended ∧
      ended.returned.length = 1024 ∧ InOrder ended ∧
      ∀ next, system.step ended .filler = some next → ¬ Timely ended .filler →
        ∃ steps dropped, system.run (fun _ _ => True) next (List.replicate steps .taker) =
          some dropped ∧ ¬ InOrder dropped := by
  have ends : (system.run Timely (started 512 (List.replicate 512 0))
      (retried ++ fetch (List.replicate 512 8) ++ List.replicate 9 .taker)).map
        (fun ended => ended.returned.length) = some 1024 := by
    decide +kernel
  obtain ⟨ended, ran, length⟩ := Option.map_eq_some_iff.mp ends
  refine ⟨ended, ran, length, read_in_order ?_⟩
  exact ReachableBy.run (.init ⟨512, _, by decide, rfl⟩) ran

/-- The second block comes while the next try is between its look at the block and its
look at `tb_full`: it is released unread. -/
theorem unread_block_released :
    ¬ ∀ state, system.Reachable state → InOrder state := by
  intro inOrder
  have ends : (system.run (fun _ _ => True) (started 512 (List.replicate 512 0))
      (retried ++ List.replicate 3 .taker ++ fetch (List.replicate 512 8) ++
        List.replicate 2 .taker)).map
        (fun ended => (ended.mutexHeld, ended.block.tbFull, ended.block.tbBufferSpot,
          ended.block.tbBufferSize)) = some (false, false, 0, 512) := by
    decide +kernel
  obtain ⟨ended, ran, shape⟩ := Option.map_eq_some_iff.mp ends
  obtain ⟨held, empty, spot, size⟩ : ended.mutexHeld = false ∧ ended.block.tbFull = false ∧
      ended.block.tbBufferSpot = 0 ∧ ended.block.tbBufferSize = 512 := by
    simpa using shape
  have reached := inOrder ended (ReachableBy.run (.init ⟨512, _, by decide, rfl⟩) ran)
  refine reached.2 ⟨held, empty, ?_⟩
  rw [spot, size]
  decide

end ReadHandOff

end Ndmpd
