import Ndmpd.Session.DataTransport
import Ndmpd.Tlm.SharedBackups

/-!
# The record in front of the archive

Before the encoder starts, `ndmp_write_utf8magic_v3` puts a record with a fixed text into the
pool. Before the decoder starts, `ndmp_check_utf8magic` takes the first record off the stream,
whatever it is, and only logs whether it is this one. So a decoder that is given a stream
without it loses a header (`ndmpCheckUtf8magic_front`), and for a stream of this daemon the
archive begins where the decoder does.

With both records in their places the whole way of a backup, from the entries to the restored
entries, goes well (`restored_of_session`).
-/

namespace Ndmpd

/-- `NDMPUTF8MAGIC`, the bytes of its own name. -/
def ndmpUtf8magic : List UInt8 :=
  [0x4e, 0x44, 0x4d, 0x50, 0x55, 0x54, 0x46, 0x38, 0x4d, 0x41, 0x47, 0x49, 0x43]

/-- `ndmp_write_utf8magic_v3`: a cleared record, with the text and a NUL at its front. -/
def TarStream.ndmpWriteUtf8magicV3 (stream : TarStream) : Option TarStream :=
  if stream.pool.granted recordSize < recordSize then none
  else stream.putData recordSize true fun _ => ndmpUtf8magic ++ [0]

/-- `ndmp_check_utf8magic`. It asks `tlm_get_read_buffer` once, when the first block is there.
Empty blocks, which no reader hands over, are passed by as `get_read_buffer` does it. -/
def RestoreWriter.ndmpCheckUtf8magic (writer : RestoreWriter) : Bool × RestoreWriter :=
  match writer.getReadBuffer recordSize with
  | (none, writer) => (false, writer)
  | (some (record, _), writer) =>
      (ndmpUtf8magic.length ≤ record.length ∧ record.take ndmpUtf8magic.length = ndmpUtf8magic,
        writer)

/-- The first record is taken, and the answer is whether it starts with the text. -/
theorem RestoreWriter.ndmpCheckUtf8magic_front {writer : RestoreWriter}
    (running : writer.tcWriterStop = false) (whole : Whole writer.blocks)
    {record rest : List UInt8} (length : record.length = 512)
    (stream : bytesOf writer.blocks = record ++ rest) :
    (writer.ndmpCheckUtf8magic.1 = true ↔ ndmpUtf8magic <+: record) ∧
      bytesOf writer.ndmpCheckUtf8magic.2.blocks = rest ∧
        Whole writer.ndmpCheckUtf8magic.2.blocks := by
  obtain ⟨blocks, taken, left, kept⟩ := getReadBuffer_record running whole length stream
  have taken : writer.getReadBuffer recordSize =
      (some (record, 0), { writer with blocks := blocks }) := taken
  have long : ndmpUtf8magic.length ≤ record.length := by
    rw [length]
    decide
  rw [ndmpCheckUtf8magic, taken]
  refine ⟨?_, left, kept⟩
  rw [List.prefix_iff_eq_take, decide_eq_true_eq]
  exact ⟨fun found => found.2.symm, fun found => ⟨long, found.symm⟩⟩

namespace TarStream

variable {stream begun : TarStream}

/-- What the stream is behind the record. -/
theorem ndmpWriteUtf8magicV3_some (begins : stream.ndmpWriteUtf8magicV3 = some begun)
    (unlimited : stream.grantsLeft = none) :
    (stream.putData recordSize true fun _ => ndmpUtf8magic ++ [0]) = some begun ∧
      begun.puts = stream.puts ++ [.data recordSize (ndmpUtf8magic ++ [0])] ∧
        begun.grantsLeft = none := by
  rw [ndmpWriteUtf8magicV3, Option.ite_none_left_eq_some] at begins
  obtain ⟨enough, begins⟩ := begins
  obtain ⟨next, put, puts, -, grants, -⟩ := putData_of_granting (granting_of_unlimited unlimited)
    recordSize true fun _ => ndmpUtf8magic ++ [0]
  cases put.symm.trans begins
  have granted : stream.pool.granted recordSize = recordSize := by
    have most : stream.pool.granted recordSize ≤ roundToRecords recordSize := by
      rw [stream.pool.granted_eq (by decide)]
      exact Nat.min_le_left _ _
    have round : roundToRecords recordSize = recordSize := rfl
    omega
  refine ⟨put, ?_, ?_⟩
  · rw [puts, granted]
    rfl
  · rw [grants, unlimited]
    rfl

end TarStream

section Sessions

open RemoteRead

variable {size : Nat} {positive : 0 < size} {small : size < 2 ^ 32} {records : 512 ∣ size}
  {fileCount : Nat} {owners : OwnerNames} {sources : List SourceEntry} {encoderQ : HardlinkQ}
  {begun : TarStream}

/-- A decoder behind the first record restores the entries that were encoded behind it. -/
theorem restored_behind_magic
    (begins : (TarStream.initial positive small records fileCount none).ndmpWriteUtf8magicV3 =
      some begun)
    (accepted : ∀ source ∈ sources, source.Accepted)
    (linked : ∀ entry run, SourceEntry.symbolicLink entry run [] ∉ sources)
    (nothing : ¬ HasRecord (SourceEntry.encodeAll owners sources begun encoderQ).1.oneBlockBefore)
    {blocks : List ReadBlock} (whole : RestoreWriter.Whole blocks)
    (arrived : RestoreWriter.bytesOf blocks =
      (SourceEntry.encodeAll owners sources begun encoderQ).1.writeTarEof.flatten)
    {args : RestoreArgs} (all : RestoresAll args) (fifos : SourceEntry.FifosMade args sources [])
    (decoderQ : HardlinkQ) {rounds : Nat}
    (enough : (RestoreWriter.bytesOf blocks).length ≤ 512 * rounds) :
    let checked := (RestoreWriter.start args blocks decoderQ ⟨[], [], []⟩).ndmpCheckUtf8magic
    checked.1 = true ∧
      Restored.of (RestoreWriter.tarGetdir args checked.2.blocks decoderQ ⟨[], [], []⟩ rounds).ops =
        ⟨sources.map SourceEntry.archived, none⟩ := by
  obtain ⟨put, first, unlimited⟩ := TarStream.ndmpWriteUtf8magicV3_some begins rfl
  let encoded := SourceEntry.encodeAll owners sources begun encoderQ
  have goesOn : TarStream.Extends (.initial positive small records fileCount none) encoded.1 :=
    .trans (.data put) (SourceEntry.encodeAll_extends owners sources _ encoderQ)
  have bad : ¬ HasRecord encoded.1.trailing :=
    fun record => nothing ((TarStream.trailing_hasRecord_iff goesOn.behindSpot).mp record)
  -- the stream is the record, what the entries are put out as, and the rest of the block
  obtain ⟨putss, emits, puts⟩ := SourceEntry.encodeAll_emits owners sources accepted encoderQ
    unlimited
  have written := encoded.1.written
  rw [emits.puts, first] at written
  obtain ⟨record, content, split, magic, archive⟩ := written.split
  have stream : RestoreWriter.bytesOf blocks = record ++ (content ++ encoded.1.trailing) := by
    rw [arrived, encoded.1.flatten_writeTarEof, split, List.append_assoc]
  have length : record.length = 512 := magic.length
  have text : ndmpUtf8magic <+: record := by
    cases magic with
    | cons holds rest =>
        cases rest
        rw [List.append_nil]
        exact (List.prefix_append _ _).trans holds.1
  obtain ⟨found, left, kept⟩ := RestoreWriter.ndmpCheckUtf8magic_front
    (show (RestoreWriter.start args blocks decoderQ ⟨[], [], []⟩).tcWriterStop = false from rfl)
    whole length stream
  intro checked
  refine ⟨found.mpr text, ?_⟩
  have decodes := @Decodes.sources args decoderQ [] encoded.1.trailing all sources putss content
    accepted puts archive
  rw [← left] at decodes
  have fewer : (RestoreWriter.bytesOf checked.2.blocks).length ≤
      512 * rounds + encoded.1.trailing.length := by
    rw [stream, List.length_append] at enough
    rw [left]
    omega
  rw [decodes.tarGetdir kept bad fewer,
    (SourceEntry.restoredAll_iff args [] sources).mpr ⟨linked, fifos⟩, List.nil_append]

end Sessions

/-- A pool for blocks of five records. -/
def fiveRecords : TarStream :=
  .initial (show 0 < 2560 by decide) (by decide) (by decide) 0 none

end Ndmpd
