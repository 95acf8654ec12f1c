import Ndmpd.Tlm.ArchivePuts
import Ndmpd.Tlm.RestoreReads

/-!
# What lies behind an archive

`write_tar_eof` hands the last block to the writer as it is. Behind the cursor the block
holds the block sent before it, or zeros if there is none (`TarStream.Extends.behindSpot`). So
what is behind the archive is what the archive has one block before its end, and the
decoder, which has no end marker, takes every good record there for an entry.
-/

namespace Ndmpd

/-- A record with a good checksum, at a record boundary. -/
def HasRecord (bytes : List UInt8) : Prop :=
  ∃ index, 512 * (index + 1) ≤ bytes.length ∧
    tlmVfyTarChecksum ((bytes.drop (512 * index)).take 512) = 1

theorem HasRecord.of_drop {bytes : List UInt8} {index : Nat}
    (record : HasRecord (bytes.drop (512 * index))) : HasRecord bytes := by
  obtain ⟨more, inside, good⟩ := record
  rw [List.length_drop] at inside
  rw [List.drop_drop, ← Nat.mul_add] at good
  exact ⟨index + more, by omega, good⟩

theorem byteSum_zeros (count : Nat) : byteSum (List.replicate count 0) = 0 := by
  simp [byteSum]

/-- Cleared memory has no record. -/
theorem not_hasRecord_zeros (count : Nat) : ¬ HasRecord (List.replicate count 0) := by
  rintro ⟨index, -, good⟩
  rw [List.drop_replicate, List.take_replicate] at good
  unfold tlmVfyTarChecksum at good
  dsimp only at good
  rw [if_pos (byteSum_zeros _)] at good
  cases good

/-! ## The memory of the block -/

/-- Behind its cursor the block holds the block that was sent last, or the memory it was
allocated with. -/
structure WritePool.BehindSpot (memory : List UInt8) (pool : WritePool) : Prop where
  size : pool.block.tbBufferSize = memory.length
  sent : ∀ block ∈ pool.sentBlocks, block.length = memory.length
  behind : pool.block.tbBufferData.drop pool.block.tbBufferSpot =
    (pool.sentBlocks.getLast?.getD memory).drop pool.block.tbBufferSpot

namespace WritePool.BehindSpot

variable {memory : List UInt8} {pool : WritePool}

theorem makeRoom (stale : pool.BehindSpot memory) : pool.makeRoom.BehindSpot memory := by
  by_cases full : pool.room = 0
  · obtain ⟨block, sent⟩ := pool.makeRoom_of_full full
    refine ⟨?_, ?_, ?_⟩
    · rw [pool.makeRoom_size]
      exact stale.size
    · intro other listed
      rw [sent] at listed
      rcases List.mem_append.mp listed with before | last
      · exact stale.sent other before
      · rw [List.mem_singleton.mp last]
        exact stale.size
    · rw [block, sent, List.getLast?_concat]
      rfl
  · rw [pool.makeRoom_of_free full]
    exact stale

theorem put (stale : pool.BehindSpot memory) (want : Nat) (zero : Bool)
    (bytes : Nat → List UInt8) : (pool.put want zero bytes).BehindSpot memory := by
  obtain ⟨spot, size, -, behind⟩ := pool.put_block want zero bytes
  have room := stale.makeRoom
  refine ⟨size.trans stale.size, room.sent, ?_⟩
  have before := congrArg (List.drop (pool.granted want)) room.behind
  rw [List.drop_drop, List.drop_drop] at before
  rw [spot, behind]
  exact before

end WritePool.BehindSpot

namespace TarStream

variable (stream : TarStream)

/-- The bytes of the last block behind the last record of the encoder. -/
def trailing : List UInt8 := stream.writeTarEof.flatten.drop stream.pool.content.length

/-- What was written one block before the end of the archive, up to the boundary of the
blocks. An archive that does not fill one block has nothing there. -/
def oneBlockBefore : List UInt8 :=
  let size := stream.pool.block.tbBufferSize
  if stream.pool.content.length < size then []
  else
    (stream.pool.content.drop (stream.pool.content.length - size)).take
      (size - stream.pool.block.tbBufferSpot)

theorem trailing_eq :
    stream.trailing = stream.pool.block.tbBufferData.drop stream.pool.block.tbBufferSpot := by
  have inside : stream.pool.block.tbBufferSpot ≤ stream.pool.block.tbBufferData.length :=
    stream.pool.aligned.spot_le
  have length : stream.pool.content.length =
      stream.pool.sentBlocks.flatten.length + stream.pool.block.tbBufferSpot := by
    rw [WritePool.content, List.length_append, List.length_take, Nat.min_eq_left inside]
  rw [trailing, writeTarEof, List.flatten_append, List.flatten_singleton, length,
    List.drop_length_add_append]

end TarStream

namespace TarStream

variable {stream : TarStream} {memory : List UInt8}

/-- With a block sent, the last block ends as the archive went on one block before. -/
theorem trailing_of_sent (stale : stream.pool.BehindSpot memory)
    (sent : stream.pool.sentBlocks ≠ []) : stream.trailing = stream.oneBlockBefore := by
  have behind := stale.behind
  have sizes := stale.sent
  have size := stale.size
  have inside : stream.pool.block.tbBufferSpot ≤ stream.pool.block.tbBufferSize :=
    stream.pool.aligned.spot_le
  have front : (stream.pool.block.tbBufferData.take stream.pool.block.tbBufferSpot).length =
      stream.pool.block.tbBufferSpot := by
    rw [List.length_take]
    exact Nat.min_eq_left inside
  rcases List.eq_nil_or_concat' stream.pool.sentBlocks with none | ⟨earlier, last, split⟩
  · exact absurd none sent
  · rw [split, List.getLast?_concat, Option.getD_some] at behind
    have length : last.length = memory.length := sizes last (by rw [split]; simp)
    have content : stream.pool.content = earlier.flatten ++ (last ++
        stream.pool.block.tbBufferData.take stream.pool.block.tbBufferSpot) := by
      rw [WritePool.content, split, List.flatten_append, List.flatten_singleton, List.append_assoc]
    have total := congrArg List.length content
    rw [List.length_append, List.length_append, front] at total
    have from_ : stream.pool.content.length - stream.pool.block.tbBufferSize =
        earlier.flatten.length + stream.pool.block.tbBufferSpot := by
      omega
    rw [stream.trailing_eq, behind, oneBlockBefore, if_neg (by omega), from_, content,
      List.drop_length_add_append, List.drop_append_of_le_length (by omega),
      List.take_left' (by rw [List.length_drop]; omega)]

/-- An archive in one block has behind it what the memory was. -/
theorem trailing_of_unsent (stale : stream.pool.BehindSpot memory)
    (unsent : stream.pool.sentBlocks = []) :
    stream.trailing = memory.drop stream.pool.block.tbBufferSpot ∧ stream.oneBlockBefore = [] := by
  have behind := stale.behind
  have inside : stream.pool.block.tbBufferSpot ≤ stream.pool.block.tbBufferSize :=
    stream.pool.aligned.spot_le
  have length : stream.pool.content.length = stream.pool.block.tbBufferSpot := by
    rw [WritePool.content, unsent, List.flatten_nil, List.nil_append, List.length_take]
    exact Nat.min_eq_left inside
  rw [unsent] at behind
  refine ⟨stream.trailing_eq.trans behind, ?_⟩
  rw [oneBlockBefore, length]
  split
  · rfl
  · rw [show stream.pool.block.tbBufferSize - stream.pool.block.tbBufferSpot = 0 by omega,
      List.take_zero]

/-- From cleared memory, what is behind the archive has a record exactly if what was
written one block before its end has one. -/
theorem trailing_hasRecord_iff {size : Nat}
    (stale : stream.pool.BehindSpot (List.replicate size 0)) :
    HasRecord stream.trailing ↔ HasRecord stream.oneBlockBefore := by
  by_cases sent : stream.pool.sentBlocks = []
  · obtain ⟨cleared, nothing⟩ := trailing_of_unsent stale sent
    rw [cleared, nothing, List.drop_replicate]
    constructor
    · intro record
      exact absurd record (not_hasRecord_zeros _)
    · rintro ⟨index, inside, -⟩
      rw [List.length_nil] at inside
      omega
  · rw [trailing_of_sent stale sent]

end TarStream

/-! ## The decoder behind the archive -/

namespace RestoreWriter

theorem Whole.bytesOf_dvd {blocks : List ReadBlock} (whole : Whole blocks) :
    512 ∣ (bytesOf blocks).length := by
  induction blocks with
  | nil => exact Nat.dvd_zero 512
  | cons block blocks ih =>
      have first := (whole block (by simp)).1
      have rest := ih fun other listed => whole other (by simp [listed])
      have length : (bytesOf (block :: blocks)).length =
          block.bytes.length + (bytesOf blocks).length := by
        simp [bytesOf]
      rw [length]
      exact Nat.dvd_add first rest

/-- The decoder has nothing but records without a good checksum in front of it. -/
structure OnlyBadRecords (writer : RestoreWriter) : Prop where
  single : writer.multiVolume = false
  whole : Whole writer.blocks
  bad : ¬ HasRecord (bytesOf writer.blocks)

variable {writer : RestoreWriter}

/-- A bad record is skipped. -/
theorem OnlyBadRecords.step (behind : writer.OnlyBadRecords) (args : RestoreArgs)
    (running : writer.tcWriterStop = false) :
    (writer.tarGetdirStep args).OnlyBadRecords ∧ (writer.tarGetdirStep args).ops = writer.ops ∧
      (writer.tarGetdirStep args).fp = writer.fp := by
  obtain ⟨single, whole, bad⟩ := behind
  by_cases ended : bytesOf writer.blocks = []
  · rw [tarGetdirStep_end args running single ended]
    refine ⟨⟨single, ?_, ?_⟩, rfl, rfl⟩
    · intro block listed
      cases listed
    · rwa [ended] at bad
  · have positive := List.length_pos_iff.mpr ended
    have records := whole.bytesOf_dvd
    have length : ((bytesOf writer.blocks).take 512).length = 512 := by
      rw [List.length_take]
      omega
    obtain ⟨blocks, rest, good, step⟩ := tarGetdirStep_record args running single whole length
      (List.take_append_drop 512 (bytesOf writer.blocks)).symm
    have unchecked : tlmVfyTarChecksum ((bytesOf writer.blocks).take 512) ≠ 1 :=
      fun checked => bad ⟨0, by omega, checked⟩
    rw [step, if_neg unchecked]
    refine ⟨⟨single, good, ?_⟩, rfl, rfl⟩
    rw [rest]
    exact fun record => bad (@HasRecord.of_drop _ 1 record)

/-- Behind the archive the decoder does nothing to the file system. -/
theorem OnlyBadRecords.loop (behind : writer.OnlyBadRecords) (args : RestoreArgs) (rounds : Nat) :
    (tarGetdirLoop args rounds writer).ops = writer.ops ∧
      (tarGetdirLoop args rounds writer).fp = writer.fp := by
  induction rounds generalizing writer with
  | zero => exact ⟨rfl, rfl⟩
  | succ rounds ih =>
      unfold tarGetdirLoop
      split
      · exact ⟨rfl, rfl⟩
      · next running =>
          obtain ⟨next, ops, fp⟩ := behind.step args (Bool.not_eq_true _ ▸ running)
          obtain ⟨sameOps, sameFp⟩ := ih next
          exact ⟨sameOps.trans ops, sameFp.trans fp⟩

end RestoreWriter

/-! ## Nothing beyond the archive -/

/-- The bytes behind the archive contain no record, and a decoder that has reached them
does nothing more. -/
def TarStream.NothingBeyond (stream : TarStream) : Prop :=
  ¬ HasRecord stream.trailing ∧
    ∀ (args : RestoreArgs) (writer : RestoreWriter) (index rounds : Nat),
      writer.multiVolume = false → RestoreWriter.Whole writer.blocks →
        RestoreWriter.bytesOf writer.blocks = stream.trailing.drop (512 * index) →
          (RestoreWriter.tarGetdirLoop args rounds writer).ops = writer.ops

/-- A pool as `tlm_allocate_buffers` returns it for blocks of `size` bytes. -/
def TlmBuffers.cleared (size : Nat) : TlmBuffers where
  tbsBufferIn := 0
  tbsBufferOut := 0
  tbsOffset := 0
  tbsBuffer := fun _ => .allocated (List.replicate size 0)

theorem TlmBuffers.cleared_aligned {size : Nat} (positive : 0 < size) (small : size < 2 ^ 32)
    (records : 512 ∣ size) : (TlmBuffers.cleared size).RecordAligned where
  size_pos := by
    rwa [show (TlmBuffers.cleared size).block.tbBufferSize = size from List.length_replicate]
  size_lt := by
    rwa [show (TlmBuffers.cleared size).block.tbBufferSize = size from List.length_replicate]
  size_dvd := by
    rwa [show (TlmBuffers.cleared size).block.tbBufferSize = size from List.length_replicate]
  spot_le := Nat.zero_le _
  spot_dvd := Nat.dvd_zero 512

/-- The stream with which a backup starts, for a block size of whole records. -/
def TarStream.initial {size : Nat} (positive : 0 < size) (small : size < 2 ^ 32)
    (records : 512 ∣ size) (fileCount : Nat) (grantsLeft : Option Nat) : TarStream :=
  .fresh (.cleared size) (TlmBuffers.cleared_aligned positive small records) rfl fileCount
    grantsLeft

/-- Behind the cursor nothing has been written since the last block was sent, whatever the
stream was put together of. -/
theorem TarStream.Extends.behindSpot {size : Nat} {positive : 0 < size} {small : size < 2 ^ 32}
    {records : 512 ∣ size} {fileCount : Nat} {grantsLeft : Option Nat} {stream : TarStream}
    (goesOn : TarStream.Extends (.initial positive small records fileCount grantsLeft) stream) :
    stream.pool.BehindSpot (List.replicate size 0) := by
  refine goesOn.pool_invariant _ (fun _ _ _ _ stale => stale.put _ _ _) ⟨rfl, ?_, rfl⟩
  intro block listed
  cases listed

/-- Nothing is restored beyond the archive exactly if what was written one block before
its end contains no record. -/
theorem BackupRun.nothingBeyond_iff {size : Nat} (positive : 0 < size) (small : size < 2 ^ 32)
    (records : 512 ∣ size) {fileCount : Nat} {grantsLeft : Option Nat} {stream : TarStream}
    {hardlinkQ : HardlinkQ}
    (run : BackupRun (.initial positive small records fileCount grantsLeft) stream hardlinkQ) :
    stream.NothingBeyond ↔ ¬ HasRecord stream.oneBlockBefore := by
  rw [← TarStream.trailing_hasRecord_iff run.extends.behindSpot]
  constructor
  · exact fun nothing => nothing.1
  · intro bad
    refine ⟨bad, ?_⟩
    intro args writer index rounds single whole bytes
    have behind : writer.OnlyBadRecords := by
      refine ⟨single, whole, ?_⟩
      rw [bytes]
      exact fun record => bad record.of_drop
    exact (behind.loop args rounds).1

/-! ## An archive of directories -/

/-- A grant is for the header of an entry. -/
def Put.GoodHeader (put : Put) : Prop :=
  ∃ tarHdr, put = .header tarHdr ∧ tlmVfyTarChecksum tarHdr.record = 1

/-- In a stream of good headers there is a good record at every record boundary. -/
theorem Represents.goodRecord {puts : List Put} {content : List UInt8}
    (represents : Represents puts content) (good : ∀ put ∈ puts, put.GoodHeader) {index : Nat}
    (inside : index < puts.length) :
    tlmVfyTarChecksum ((content.drop (512 * index)).take 512) = 1 := by
  induction represents generalizing index with
  | nil => exact absurd inside (Nat.not_lt_zero index)
  | @cons put segment puts content holds _ ih =>
      obtain ⟨first, others⟩ := List.forall_mem_cons.mp good
      obtain ⟨tarHdr, rfl, checksum⟩ := first
      have length : segment.length = 512 := holds.length
      cases index with
      | zero =>
          rw [Nat.mul_zero, List.drop_zero, List.take_left' length,
            show segment = tarHdr.record from holds]
          exact checksum
      | succ index =>
          rw [Nat.mul_succ, Nat.add_comm, ← List.drop_drop, List.drop_left' length]
          exact ih others (Nat.lt_of_succ_lt_succ inside)

theorem Represents.length_headers {puts : List Put} {content : List UInt8}
    (represents : Represents puts content) (good : ∀ put ∈ puts, put.GoodHeader) :
    content.length = 512 * puts.length := by
  have sizes : ∀ put ∈ puts, Put.size put = 512 := by
    intro put listed
    obtain ⟨_, rfl, _⟩ := good put listed
    rfl
  rw [represents.length, List.map_congr_left sizes, List.map_const', List.sum_replicate_nat,
    Nat.mul_comm]

/-- An archive of good headers that is longer than a block and does not end with one has a
record one block before its end. -/
theorem TarStream.oneBlockBefore_hasRecord {stream : TarStream}
    (good : ∀ put ∈ stream.puts, put.GoodHeader)
    (sent : ∀ block ∈ stream.pool.sentBlocks, block.length = stream.pool.block.tbBufferSize)
    (more : stream.pool.block.tbBufferSize < 512 * stream.puts.length)
    (uneven : ¬ stream.pool.block.tbBufferSize ∣ 512 * stream.puts.length) :
    HasRecord stream.oneBlockBefore := by
  have total := stream.written.length_headers good
  have inside := stream.pool.aligned.spot_le
  have spotRecords := stream.pool.aligned.spot_dvd
  have records := stream.pool.aligned.size_dvd
  change stream.pool.block.tbBufferSpot ≤ stream.pool.block.tbBufferSize at inside
  change 512 ∣ stream.pool.block.tbBufferSpot at spotRecords
  change 512 ∣ stream.pool.block.tbBufferSize at records
  have front : stream.pool.content.length =
      stream.pool.sentBlocks.length * stream.pool.block.tbBufferSize +
        stream.pool.block.tbBufferSpot := by
    have part : min stream.pool.block.tbBufferSpot stream.pool.block.tbBufferData.length =
        stream.pool.block.tbBufferSpot := Nat.min_eq_left inside
    rw [WritePool.content, List.length_append, List.length_take, part, List.length_flatten,
      List.map_congr_left sent, List.map_const', List.sum_replicate_nat]
  have unfilled : stream.pool.block.tbBufferSpot ≠ stream.pool.block.tbBufferSize := by
    intro filled
    rw [← total, front, filled] at uneven
    exact uneven (Nat.dvd_add (Nat.dvd_mul_left _ _) (Nat.dvd_refl _))
  obtain ⟨count, size⟩ := records
  have place : stream.pool.content.length - stream.pool.block.tbBufferSize =
      512 * (stream.puts.length - count) := by
    omega
  have left : 512 ≤ stream.pool.block.tbBufferSize - stream.pool.block.tbBufferSpot := by
    omega
  refine ⟨0, ?_, ?_⟩
  · rw [oneBlockBefore, if_neg (by omega), List.length_take, List.length_drop]
    omega
  · rw [oneBlockBefore, if_neg (by omega), Nat.mul_zero, List.drop_zero, List.take_take,
      Nat.min_eq_left left, place]
    exact stream.written.goodRecord good (by omega)

/-- Directories, put out one after the other. -/
def TarStream.outputDirs (owners : OwnerNames) (attr : Stat) (names : List CString)
    (stream : TarStream) : TarStream :=
  names.foldl (fun stream name => stream.tlmOutputDir owners name attr none) stream

theorem BackupRun.outputDirs {start stream : TarStream} {hardlinkQ : HardlinkQ}
    (run : BackupRun start stream hardlinkQ) (owners : OwnerNames) (attr : Stat)
    (names : List CString) :
    BackupRun start (stream.outputDirs owners attr names) hardlinkQ := by
  induction names generalizing stream with
  | nil => exact run
  | cons name names ih => exact ih (run.directory owners name attr none)

/-- A directory with a short name has a header and nothing else. -/
theorem TarStream.outputDirs_emits {stream : TarStream} (forever : stream.grantsLeft = none)
    (owners : OwnerNames) (attr : Stat) {names : List CString}
    (short : ∀ name ∈ names, name.length < tlmNameSize) :
    ∃ puts, Emits stream (stream.outputDirs owners attr names) puts ∧
      puts.length = names.length ∧ ∀ put ∈ puts, put.GoodHeader := by
  induction names generalizing stream with
  | nil => exact ⟨[], .refl forever, rfl, nofun⟩
  | cons name names ih =>
      obtain ⟨here, others⟩ := List.forall_mem_cons.mp short
      obtain ⟨first, emits, header⟩ := @outputFileHeader_emits stream forever owners name [] attr 0
        (by decide)
      have single : ∃ tarHdr, first = [.header tarHdr] ∧ tlmVfyTarChecksum tarHdr.record = 1 := by
        have most : (sectionName name 0).length ≤ name.length := by
          unfold sectionName
          rw [if_pos rfl]
          exact List.length_take_le' _ _
        cases header with
        | mk namePuts linkPuts entry =>
            cases namePuts with
            | long long => omega
            | short _ =>
                cases linkPuts with
                | long long => cases long
                | short _ => exact ⟨_, rfl, entry.checksum⟩
      obtain ⟨tarHdr, rfl, checksum⟩ := single
      obtain ⟨puts, rest, length, good⟩ := ih emits.forever others
      refine ⟨_, emits.trans rest, congrArg (· + 1) length, ?_⟩
      exact List.forall_mem_cons.mpr ⟨⟨tarHdr, rfl, checksum⟩, good⟩

/-- Where directories with short names are more records than a block has, and not as many as
some blocks have, one of them is sent twice. -/
theorem TarStream.outputDirs_beyond {size : Nat} (positive : 0 < size) (small : size < 2 ^ 32)
    (records : 512 ∣ size) (fileCount : Nat) (owners : OwnerNames) (attr : Stat)
    {names : List CString} (short : ∀ name ∈ names, name.length < tlmNameSize)
    (more : size < 512 * names.length) (uneven : ¬ size ∣ 512 * names.length) :
    HasRecord ((TarStream.initial positive small records fileCount none).outputDirs owners attr
      names).oneBlockBefore := by
  have run := (@BackupRun.start (.initial positive small records fileCount none)
    []).outputDirs owners attr names
  have stale := run.extends.behindSpot
  obtain ⟨puts, emits, length, good⟩ :=
    @outputDirs_emits (.initial positive small records fileCount none) rfl owners attr names short
  have all : ((TarStream.initial positive small records fileCount none).outputDirs owners attr
      names).puts = puts := emits.puts
  have block := stale.size
  rw [List.length_replicate] at block
  refine oneBlockBefore_hasRecord (by rwa [all]) ?_ ?_ ?_
  · rw [block]
    simpa using stale.sent
  · rwa [block, all, length]
  · rwa [block, all, length]

/-- One directory more than a block of the default size, 480 KB, has records. -/
def manyDirectories : List CString :=
  (List.range 961).map fun k => [slash, .ofNat (97 + k / 100), .ofNat (97 + k / 10 % 10),
    .ofNat (97 + k % 10)]

/-- The stream behind their backup. -/
def manyStream : TarStream :=
  (TarStream.initial (show 0 < 491520 by decide) (by decide) (by decide) 0 none).outputDirs
    ⟨fun _ => none, fun _ => none⟩ ⟨.directory, 0o755, 2, 5, 0, 0, 4096, 0, 0⟩ manyDirectories

theorem BackupRun.nothingBeyond_iff_manyDirectories :
    manyStream.NothingBeyond ↔ ¬ HasRecord manyStream.oneBlockBefore :=
  BackupRun.nothingBeyond_iff _ _ _ ((BackupRun.start []).outputDirs _ _ manyDirectories)

/-- The record of the second directory is sent twice. -/
theorem TarStream.record_sent_twice :
    ∃ stream hardlinkQ,
      BackupRun (.initial (show 0 < 491520 by decide) (by decide) (by decide) 0 none)
        stream hardlinkQ ∧ ¬ stream.NothingBeyond := by
  have run : BackupRun (.initial (show 0 < 491520 by decide) (by decide) (by decide) 0 none)
      manyStream [] := (BackupRun.start []).outputDirs _ _ manyDirectories
  have count : manyDirectories.length = 961 := by
    rw [manyDirectories, List.length_map, List.length_range]
  have short : ∀ name ∈ manyDirectories, name.length < tlmNameSize := by
    intro name listed
    obtain ⟨k, -, rfl⟩ := List.mem_map.mp listed
    exact show 4 < tlmNameSize by decide
  refine ⟨manyStream, [], run, fun nothing => ?_⟩
  refine (TarStream.trailing_hasRecord_iff run.extends.behindSpot).not.mp nothing.1 ?_
  exact TarStream.outputDirs_beyond _ _ _ _ _ _ short (by rw [count]; decide)
    (by rw [count]; decide)

end Ndmpd
