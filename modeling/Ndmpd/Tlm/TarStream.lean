import Ndmpd.Tlm.TarHeader
import Ndmpd.Tlm.WritePool

/-!
# The stream of an archive

The encoder puts an archive into the write pool one grant at a time: a header record,
or whole records of data of which it fills the front. `puts` is the history of these
grants, and `written` says that the bytes in the pool are what the history says, so
that the layout of an archive can be read off the history
(`TarStream.written`).
-/

namespace Ndmpd

/-- One grant of the pool: a record with a header, or records of which the caller
filled the front. -/
inductive Put where
  | header (header : TlmTarHdr)
  | data (granted : Nat) (bytes : List UInt8)
  deriving DecidableEq, Repr

namespace Put

/-- The bytes in the stream that a grant can have led to. What the caller does not fill
holds whatever was in the block before. -/
def Holds : Put → List UInt8 → Prop
  | header tarHdr, segment => segment = tarHdr.record
  | data granted bytes, segment => bytes <+: segment ∧ segment.length = granted

/-- The size of a grant in bytes. -/
def size : Put → Nat
  | header _ => recordSize
  | data granted _ => granted

theorem Holds.length {put : Put} {segment : List UInt8} (holds : put.Holds segment) :
    segment.length = put.size := by
  cases put with
  | header tarHdr =>
      rw [show segment = tarHdr.record from holds]
      exact tarHdr.length_record
  | data granted bytes => exact holds.2

end Put

/-- A stream of bytes is what a list of grants led to. -/
inductive Represents : List Put → List UInt8 → Prop where
  | nil : Represents [] []
  | cons {put : Put} {segment : List UInt8} {puts : List Put} {content : List UInt8} :
      put.Holds segment → Represents puts content → Represents (put :: puts) (segment ++ content)

namespace Represents

theorem append {first second : List Put} {front back : List UInt8}
    (before : Represents first front) (after : Represents second back) :
    Represents (first ++ second) (front ++ back) := by
  induction before with
  | nil => exact after
  | cons holds _ ih =>
      rw [List.append_assoc, List.cons_append]
      exact .cons holds ih

theorem snoc {puts : List Put} {content segment : List UInt8} {put : Put}
    (before : Represents puts content) (holds : put.Holds segment) :
    Represents (puts ++ [put]) (content ++ segment) := by
  have single : Represents [put] (segment ++ []) := .cons holds .nil
  rw [List.append_nil] at single
  exact before.append single

/-- A header is the record it was put as. -/
theorem header {tarHdr : TlmTarHdr} {puts : List Put} {content : List UInt8}
    (represents : Represents (.header tarHdr :: puts) content) :
    ∃ rest, content = tarHdr.record ++ rest ∧ Represents puts rest := by
  cases represents with
  | cons holds rest =>
      cases holds
      exact ⟨_, rfl, rest⟩

/-- The stream splits where the list of grants splits. -/
theorem split {first second : List Put} {content : List UInt8}
    (whole : Represents (first ++ second) content) :
    ∃ front back, content = front ++ back ∧ Represents first front ∧ Represents second back := by
  induction first generalizing content with
  | nil => exact ⟨[], content, rfl, .nil, whole⟩
  | cons put first ih =>
      cases whole with
      | cons holds rest =>
          obtain ⟨front, back, rfl, before, after⟩ := ih rest
          exact ⟨_ ++ front, back, (List.append_assoc _ _ _).symm, .cons holds before, after⟩

theorem length {puts : List Put} {content : List UInt8} (represents : Represents puts content) :
    content.length = (puts.map Put.size).sum := by
  induction represents with
  | nil => rfl
  | cons holds _ ih =>
      rw [List.length_append, List.map_cons, List.sum_cons, ih, holds.length]

end Represents

/-- The encoder's side of the stream. `grantsLeft` counts the grants until `tc_reader`
leaves `TLM_BACKUP_RUN`, if it ever does; `fileCount` is the static counter of
`output_file_header`; `faulted` records a copy to the NULL record. -/
structure TarStream where
  pool : WritePool
  puts : List Put
  written : Represents puts pool.content
  fileCount : Nat
  grantsLeft : Option Nat
  faulted : Bool
  tcWriterAbort : Bool

namespace TarStream

variable (stream : TarStream)

/-- `get_write_buffer` gives out a record while `tc_reader` is `TLM_BACKUP_RUN`. -/
def granting : Bool :=
  match stream.grantsLeft with
  | some 0 => false
  | _ => true

/-- Get a record for a header, clear it and fill it in. -/
def putHeader (header : TlmTarHdr) : Option TarStream :=
  if stream.granting then
    some {
      pool := stream.pool.put recordSize true fun _ => header.record
      puts := stream.puts ++ [.header header]
      written := by
        have room := stream.pool.makeRoom_room
        have whole := stream.pool.makeRoom.room_dvd
        have granted : stream.pool.granted recordSize = 512 := by
          rw [stream.pool.granted_eq (by decide), show roundToRecords recordSize = 512 from rfl]
          omega
        obtain ⟨rest, content, length⟩ :=
          stream.pool.put_content recordSize true fun _ => header.record
        have record : header.record.length = 512 := header.length_record
        rw [granted, List.take_of_length_le (by omega)] at content length
        have none : rest = [] := by
          rw [← List.length_eq_zero_iff]
          omega
        rw [content, none, List.append_nil]
        exact stream.written.snoc rfl
      fileCount := stream.fileCount
      grantsLeft := stream.grantsLeft.map (· - 1)
      faulted := stream.faulted
      tcWriterAbort := stream.tcWriterAbort }
  else none

/-- Get records for up to `want` bytes, cleared if `zero` is set, and fill in their
front, which may depend on how much was granted. -/
def putData (want : Nat) (zero : Bool) (bytes : Nat → List UInt8) : Option TarStream :=
  if stream.granting then
    some {
      pool := stream.pool.put want zero bytes
      puts := stream.puts ++
        [.data (stream.pool.granted want)
          ((bytes (stream.pool.granted want)).take (stream.pool.granted want))]
      written := by
        obtain ⟨rest, content, length⟩ := stream.pool.put_content want zero bytes
        rw [content]
        refine stream.written.snoc ⟨List.prefix_append _ _, ?_⟩
        rw [List.length_append]
        exact length
      fileCount := stream.fileCount
      grantsLeft := stream.grantsLeft.map (· - 1)
      faulted := stream.faulted
      tcWriterAbort := stream.tcWriterAbort }
  else none

/-- A stream as a backup starts with it, for the memory of a block. -/
def fresh (bufs : TlmBuffers) (aligned : bufs.RecordAligned)
    (empty : bufs.block.tbBufferSpot = 0) (fileCount : Nat) (grantsLeft : Option Nat) :
    TarStream where
  pool := ⟨bufs, [], aligned⟩
  puts := []
  written := by
    have nothing : (⟨bufs, [], aligned⟩ : WritePool).content = [] := by
      simp [WritePool.content, WritePool.block, empty]
    rw [nothing]
    exact .nil
  fileCount := fileCount
  grantsLeft := grantsLeft
  faulted := false
  tcWriterAbort := false

/-- One stream comes out of another by grants and by changes that do not concern the
pool. Every function of the encoder is such a step (`Extends.trans` chains them). -/
inductive Extends : TarStream → TarStream → Prop where
  | refl (stream : TarStream) : Extends stream stream
  | header {stream next : TarStream} {tarHdr : TlmTarHdr} :
      stream.putHeader tarHdr = some next → Extends stream next
  | data {stream next : TarStream} {want : Nat} {zero : Bool} {bytes : Nat → List UInt8} :
      stream.putData want zero bytes = some next → Extends stream next
  | touch {stream next : TarStream} : next.pool = stream.pool → next.puts = stream.puts →
      next.grantsLeft = stream.grantsLeft → Extends stream next
  | trans {first second third : TarStream} :
      Extends first second → Extends second third → Extends first third

variable {stream next : TarStream}

theorem granting_of_unlimited (unlimited : stream.grantsLeft = none) : stream.granting = true := by
  rw [granting, unlimited]

theorem putHeader_of_granting (running : stream.granting = true) (tarHdr : TlmTarHdr) :
    ∃ next, stream.putHeader tarHdr = some next ∧
      next.puts = stream.puts ++ [.header tarHdr] ∧
        next.pool = stream.pool.put recordSize true (fun _ => tarHdr.record) ∧
          next.grantsLeft = stream.grantsLeft.map (· - 1) ∧
            next.fileCount = stream.fileCount := by
  rw [putHeader, if_pos running]
  exact ⟨_, rfl, rfl, rfl, rfl, rfl⟩

theorem putData_of_granting (running : stream.granting = true) (want : Nat) (zero : Bool)
    (bytes : Nat → List UInt8) :
    ∃ next, stream.putData want zero bytes = some next ∧
      next.puts = stream.puts ++ [.data (stream.pool.granted want)
        ((bytes (stream.pool.granted want)).take (stream.pool.granted want))] ∧
        next.pool = stream.pool.put want zero bytes ∧
          next.grantsLeft = stream.grantsLeft.map (· - 1) ∧
            next.fileCount = stream.fileCount := by
  rw [putData, if_pos running]
  exact ⟨_, rfl, rfl, rfl, rfl, rfl⟩

theorem putHeader_some {tarHdr : TlmTarHdr} (put : stream.putHeader tarHdr = some next) :
    stream.granting = true ∧ next.pool = stream.pool.put recordSize true (fun _ => tarHdr.record) ∧
      next.puts = stream.puts ++ [.header tarHdr] := by
  rw [putHeader, Option.ite_none_right_eq_some] at put
  obtain ⟨running, same⟩ := put
  cases same
  exact ⟨running, rfl, rfl⟩

theorem putData_some {want : Nat} {zero : Bool} {bytes : Nat → List UInt8}
    (put : stream.putData want zero bytes = some next) :
    stream.granting = true ∧ next.pool = stream.pool.put want zero bytes ∧
      next.puts = stream.puts ++ [.data (stream.pool.granted want)
        ((bytes (stream.pool.granted want)).take (stream.pool.granted want))] := by
  rw [putData, Option.ite_none_right_eq_some] at put
  obtain ⟨running, same⟩ := put
  cases same
  exact ⟨running, rfl, rfl⟩

namespace Extends

/-- What every grant keeps of the pool, every step keeps. -/
theorem pool_invariant (inv : WritePool → Prop)
    (kept : ∀ pool want zero bytes, inv pool → inv (WritePool.put pool want zero bytes))
    (steps : Extends stream next) (start : inv stream.pool) : inv next.pool := by
  induction steps with
  | refl => exact start
  | header put =>
      rw [(putHeader_some put).2.1]
      exact kept _ _ _ _ start
  | data put =>
      rw [(putData_some put).2.1]
      exact kept _ _ _ _ start
  | touch pool _ _ =>
      rw [pool]
      exact start
  | trans _ _ ih₁ ih₂ => exact ih₂ (ih₁ start)

/-- Once `tc_reader` has left `TLM_BACKUP_RUN` it does not come back. -/
theorem granting (steps : Extends stream next) (running : next.granting = true) :
    stream.granting = true := by
  induction steps with
  | refl => exact running
  | header put => exact (putHeader_some put).1
  | data put => exact (putData_some put).1
  | touch _ _ grants =>
      unfold TarStream.granting at running ⊢
      rwa [grants] at running
  | trans _ _ ih₁ ih₂ => exact ih₁ (ih₂ running)

end Extends

end TarStream

end Ndmpd
