import Mathlib.Algebra.Order.Group.Nat
import Mathlib.Logic.Function.Basic
import Mathlib.Data.Fin.Basic

/-!
# The pool of tape buffers

A backup moves through one pool of blocks shared by two threads. The block being
filled is `tbsBufferIn`, the block being sent is `tbsBufferOut`; both run round
robin over the pool, which holds `tlmTapeBuffers` blocks. The daemon is built with
a single block, so the two indices never differ and every pointer into the pool is
the same pointer (`TlmBuffers.tbsBuffer_eq_block`).

The condition variables and `tbs_flags` only decide when a sleeping thread wakes.
A timed wait may return at any moment, so they carry no information and are left
out.
-/

namespace Ndmpd

/-- `TLM_TAPE_BUFFERS`, the number of rotating buffers. -/
abbrev tlmTapeBuffers : Nat := 1

instance : @NeZero Nat Zero.ofOfNat0 tlmTapeBuffers := ⟨Nat.one_ne_zero⟩

/-- `RECORDSIZE`, the unit of every tar header and of all padding. -/
abbrev recordSize : Nat := 512

/-- Round a request up to whole records: `want += 511; want &= ~511`. -/
def roundToRecords (want : Nat) : Nat :=
  (want + (recordSize - 1)) / recordSize * recordSize

/-- The library's `min`, which compares its arguments as 32-bit unsigned numbers. -/
def unsignedMin (a b : Nat) : Nat :=
  min (a % 2 ^ 32) (b % 2 ^ 32)

/-- One block of a backup pool, a `tlm_buffer_t`. -/
structure TlmBuffer where
  tbBufferData : List UInt8
  tbBufferSpot : Nat
  tbFull : Bool
  tbEot : Bool
  tbEof : Bool
  tbWriteBufFilled : Bool
  tbErrno : Int
  deriving DecidableEq, Repr

namespace TlmBuffer

/-- A backup block is allocated at the transfer size and keeps it. -/
def tbBufferSize (buffer : TlmBuffer) : Nat := buffer.tbBufferData.length

/-- The state `tlm_allocate_buffers` leaves a write block in, whatever its memory holds. -/
def allocated (memory : List UInt8) : TlmBuffer where
  tbBufferData := memory
  tbBufferSpot := 0
  tbFull := false
  tbEot := false
  tbEof := false
  tbWriteBufFilled := true
  tbErrno := 0

/-- Overwrite the bytes from `offset` on. Bytes past the end of the block are
outside every record the pool grants and are not modelled. -/
def overwrite (buffer : TlmBuffer) (offset : Nat) (bytes : List UInt8) : TlmBuffer :=
  { buffer with
    tbBufferData :=
      (buffer.tbBufferData.take offset ++ bytes ++
        buffer.tbBufferData.drop (offset + bytes.length)).take buffer.tbBufferSize }

end TlmBuffer

/-- The pool, a `tlm_buffers_t`. -/
structure TlmBuffers where
  tbsBufferIn : Fin tlmTapeBuffers
  tbsBufferOut : Fin tlmTapeBuffers
  tbsOffset : Nat
  tbsBuffer : Fin tlmTapeBuffers → TlmBuffer

/-- Advance a pool index round robin. -/
def advanceIndex (index : Fin tlmTapeBuffers) : Fin tlmTapeBuffers :=
  ⟨if tlmTapeBuffers ≤ index.val + 1 then 0 else index.val + 1, by
    split <;> omega⟩

namespace TlmBuffers

/-- Change one block of the pool. -/
def modify (bufs : TlmBuffers) (index : Fin tlmTapeBuffers) (change : TlmBuffer → TlmBuffer) :
    TlmBuffers :=
  { bufs with tbsBuffer := Function.update bufs.tbsBuffer index (change (bufs.tbsBuffer index)) }

/-- The only block of the pool. -/
def block (bufs : TlmBuffers) : TlmBuffer := bufs.tbsBuffer 0

@[simp] theorem tbsBuffer_eq_block (bufs : TlmBuffers) (index : Fin tlmTapeBuffers) :
    bufs.tbsBuffer index = bufs.block := by
  rw [block, Subsingleton.elim index 0]

@[simp] theorem modify_block (bufs : TlmBuffers) (index : Fin tlmTapeBuffers)
    (change : TlmBuffer → TlmBuffer) : (bufs.modify index change).block = change bufs.block := by
  rw [Subsingleton.elim index 0]
  exact Function.update_self (0 : Fin tlmTapeBuffers) _ bufs.tbsBuffer

/-- Count bytes handed out of the pool. -/
def advanceOffset (bufs : TlmBuffers) (count : Nat) : TlmBuffers :=
  { bufs with tbsOffset := bufs.tbsOffset + count }

@[simp] theorem advanceOffset_block (bufs : TlmBuffers) (count : Nat) :
    (bufs.advanceOffset count).block = bufs.block := rfl

/-- `tlm_buffer_advance_in_idx`. -/
def tlmBufferAdvanceInIdx (bufs : TlmBuffers) : TlmBuffers :=
  { bufs with tbsBufferIn := advanceIndex bufs.tbsBufferIn }

@[simp] theorem tlmBufferAdvanceInIdx_block (bufs : TlmBuffers) :
    bufs.tlmBufferAdvanceInIdx.block = bufs.block := rfl

/-- `tlm_buffer_advance_out_idx`. -/
def tlmBufferAdvanceOutIdx (bufs : TlmBuffers) : TlmBuffers :=
  { bufs with tbsBufferOut := advanceIndex bufs.tbsBufferOut }

@[simp] theorem tlmBufferAdvanceOutIdx_block (bufs : TlmBuffers) :
    bufs.tlmBufferAdvanceOutIdx.block = bufs.block := rfl

/-- `setWriteBufDone`: mark the block being sent as filled. -/
def setWriteBufDone (bufs : TlmBuffers) : TlmBuffers :=
  bufs.modify bufs.tbsBufferOut fun buffer => { buffer with tbWriteBufFilled := true }

@[simp] theorem setWriteBufDone_block (bufs : TlmBuffers) :
    bufs.setWriteBufDone.block = { bufs.block with tbWriteBufFilled := true } := by
  rw [setWriteBufDone, modify_block]

/-- The closing lines of `tlm_get_write_buffer`: hand out a record at the cursor of
block `index`, move the cursor and the stream offset behind it, and clear it when
asked to. The result is the pool and the offset and length of the record. -/
def grantRecord (bufs : TlmBuffers) (index : Fin tlmTapeBuffers) (want : Nat) (zero : Bool) :
    TlmBuffers × (Nat × Nat) :=
  let buffer := bufs.tbsBuffer index
  let spot := buffer.tbBufferSpot
  let actualSize := unsignedMin (roundToRecords want) (buffer.tbBufferSize - spot)
  let moved := bufs.modify index fun buffer => { buffer with tbBufferSpot := spot + actualSize }
  let cleared :=
    if zero then
      moved.modify index fun buffer => buffer.overwrite spot (List.replicate actualSize 0)
    else
      moved
  (cleared.advanceOffset actualSize, (spot, actualSize))

@[simp] theorem grantRecord_tbFull (bufs : TlmBuffers) (index : Fin tlmTapeBuffers) (want : Nat)
    (zero : Bool) : (bufs.grantRecord index want zero).1.block.tbFull = bufs.block.tbFull := by
  cases zero <;> simp [grantRecord, TlmBuffer.overwrite]

end TlmBuffers

end Ndmpd
