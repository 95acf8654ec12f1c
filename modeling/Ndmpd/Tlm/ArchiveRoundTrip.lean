import Ndmpd.Tlm.ArchiveDecode
import Ndmpd.Tlm.ArchiveTail

/-!
# The archive round trip

Directories, symbolic links, FIFOs and files of one name that fit one header, encoded
one after the other and decoded with nothing selected, come back as they were, whatever
the sizes of the blocks on either side. There are three exceptions: a symbolic link with an
empty target, which `output_file_header` takes for a regular file, a FIFO that no process
writes to, in which `open(2)` waits, and a FIFO that `mknod(2)` does not make where it is
restored (`restored_tarGetdir_iff`).
-/

namespace Ndmpd

open Foundation

/-- An entry of the file system, with what the system calls on it return. `open(2)` waits in
a FIFO until another process opens it for writing, for ever if none does. -/
inductive SourceEntry where
  | directory (name : CString) (attr : Stat) (aclInfo : Option SecAttr)
  | symbolicLink (entry : FileEntry) (run : FileRun) (target : CString)
  | fifo (entry : FileEntry) (run : FileRun) (waits : Bool)
  | regularFile (entry : FileEntry) (run : FileRun) (contents : List UInt8)

/-- The full name of an entry of a directory. -/
def FileEntry.fullname (entry : FileEntry) : CString :=
  (tlmCatPath entry.dir entry.name).getD []

/-- A name that is accepted for the archive, in a directory with an absolute path. -/
structure FileEntry.Accepted (entry : FileEntry) : Prop where
  nonempty : entry.name ≠ []
  dirFree : NulFree entry.dir
  nameFree : NulFree entry.name
  absolute : entry.fullname.head? = some slash
  short : tlmIsTooLong entry.dir entry.name = false
  checked : tlmIsTooLong entry.chkdir entry.name = false
  noText : NoAclText entry.aclInfo

namespace SourceEntry

/-- The entries of a round trip. A symbolic link is as long as its target, and a FIFO has
no size. -/
def Accepted : SourceEntry → Prop
  | directory name attr aclInfo =>
      AbsolutePath name ∧ attr.fileType = .directory ∧ NoAclText aclInfo
  | symbolicLink entry run target =>
      entry.Accepted ∧ entry.attr.fileType = .symbolicLink ∧ entry.attr.stNlink = 1 ∧
        entry.attr.stSize = target.length ∧ run.readlink = .target target ∧ NulFree target ∧
          target.length < tlmMaxPathName
  | fifo entry run _ =>
      entry.Accepted ∧ entry.attr.fileType = .fifo ∧ entry.attr.stSize = 0 ∧ run.FillsRequests []
  | regularFile entry run contents =>
      entry.Accepted ∧ entry.attr.fileType = .regular ∧ entry.attr.stNlink = 1 ∧
        entry.attr.stSize = contents.length ∧ contents.length ≤ tlmMaxTarImage ∧
          run.FillsRequests contents

/-- The entry as an archive has it. -/
def archived : SourceEntry → ArchiveEntry
  | directory name _ _ => .directory name
  | symbolicLink entry _ target => .symbolicLink entry.fullname target
  | fifo entry _ _ => .fifo entry.fullname
  | regularFile entry _ contents => .regularFile entry.fullname contents

/-- What a restore makes of the entry. -/
def restored : SourceEntry → ArchiveEntry
  | symbolicLink entry _ [] => .regularFile entry.fullname []
  | source => source.archived

/-- Put the entry into the stream. -/
def encode (owners : OwnerNames) (source : SourceEntry) (stream : TarStream)
    (hardlinkQ : HardlinkQ) : TarStream × HardlinkQ :=
  match source with
  | directory name attr aclInfo => (stream.tlmOutputDir owners name attr aclInfo, hardlinkQ)
  | symbolicLink entry run _ | fifo entry run _ | regularFile entry run _ =>
      let result := tlmOutputFile owners entry run stream hardlinkQ
      (result.1, result.2.1)

/-- Put a list of entries into the stream. -/
def encodeAll (owners : OwnerNames) : List SourceEntry → TarStream → HardlinkQ →
    TarStream × HardlinkQ
  | [], stream, hardlinkQ => (stream, hardlinkQ)
  | source :: sources, stream, hardlinkQ =>
      let (stream, hardlinkQ) := source.encode owners stream hardlinkQ
      encodeAll owners sources stream hardlinkQ

/-- Put the entry into the stream, where `tlm_output_file` returns. -/
def encode? (owners : OwnerNames) (source : SourceEntry) (stream : TarStream)
    (hardlinkQ : HardlinkQ) : Option (TarStream × HardlinkQ) :=
  match source with
  | fifo entry run waits =>
      if waits ∧ entry.comesToOpen hardlinkQ then none
      else some ((fifo entry run waits).encode owners stream hardlinkQ)
  | source => some (source.encode owners stream hardlinkQ)

/-- Put a list of entries into the stream, where `tlm_output_file` returns for each. -/
def encodeAll? (owners : OwnerNames) : List SourceEntry → TarStream → HardlinkQ →
    Option (TarStream × HardlinkQ)
  | [], stream, hardlinkQ => some (stream, hardlinkQ)
  | source :: sources, stream, hardlinkQ => do
      let result ← source.encode? owners stream hardlinkQ
      encodeAll? owners sources result.1 result.2

/-- `open(2)` returns, or is not called as the inode is known to be in the archive. -/
def Opens (known : Nat → Bool) : SourceEntry → Prop
  | fifo entry _ waits => waits = true → 1 < entry.attr.stNlink ∧ known entry.attr.stIno = true
  | _ => True

/-- The entry makes an inode known. -/
def links : SourceEntry → Nat → Bool
  | fifo entry _ _, ino => decide (1 < entry.attr.stNlink ∧ entry.attr.stIno = ino)
  | _, _ => false

/-- `tlm_output_file` gets through all FIFOs of the list. -/
def FifosOpen : List SourceEntry → (Nat → Bool) → Prop
  | [], _ => True
  | source :: sources, known =>
      source.Opens known ∧ FifosOpen sources fun ino => known ino || source.links ino

/-- `mknod(2)` can make the entry, if it is a FIFO, when some others are there. -/
def Made (args : RestoreArgs) (before : List ArchiveEntry) : SourceEntry → Prop
  | fifo entry _ _ => args.mknod before entry.fullname = true
  | _ => True

/-- `mknod(2)` can make each FIFO of the list when all that is in front of it is there. -/
def FifosMade (args : RestoreArgs) : List SourceEntry → List ArchiveEntry → Prop
  | [], _ => True
  | source :: sources, before =>
      source.Made args before ∧ FifosMade args sources (before ++ [source.archived])

/-- What has been restored when the entry has come. -/
def restoredOnto (args : RestoreArgs) (before : List ArchiveEntry) : SourceEntry →
    List ArchiveEntry
  | fifo entry _ _ =>
      if args.mknod before entry.fullname then before ++ [.fifo entry.fullname] else before
  | source => before ++ [source.restored]

/-- What has been restored when a list of entries has come. -/
def restoredAll (args : RestoreArgs) (before : List ArchiveEntry) (sources : List SourceEntry) :
    List ArchiveEntry :=
  sources.foldl (restoredOnto args) before

/-- Exactly the symbolic links with empty targets come back as something else. -/
theorem restored_eq_archived_iff (source : SourceEntry) :
    source.restored = source.archived ↔ ∀ entry run, source ≠ .symbolicLink entry run [] := by
  cases source with
  | directory name attr aclInfo =>
      constructor
      · intro _ entry run other
        cases other
      · intro _
        rfl
  | symbolicLink entry run target =>
      cases target with
      | nil =>
          constructor
          · intro same
            cases same
          · intro other
            exact absurd rfl (other entry run)
      | cons byte target =>
          constructor
          · intro _ entry run other
            cases other
          · intro _
            rfl
  | fifo entry run waits =>
      constructor
      · intro _ entry run other
        cases other
      · intro _
        rfl
  | regularFile entry run contents =>
      constructor
      · intro _ entry run other
        cases other
      · intro _
        rfl

/-- An entry comes back behind those before it, if it comes back at all. -/
theorem restoredOnto_eq (args : RestoreArgs) (before : List ArchiveEntry) (source : SourceEntry) :
    (source.Made args before ∧ source.restoredOnto args before = before ++ [source.restored]) ∨
      (¬ source.Made args before ∧ source.restoredOnto args before = before) := by
  cases source with
  | directory name attr aclInfo => exact .inl ⟨trivial, rfl⟩
  | symbolicLink entry run target => exact .inl ⟨trivial, rfl⟩
  | regularFile entry run contents => exact .inl ⟨trivial, rfl⟩
  | fifo entry run waits =>
      by_cases done : args.mknod before entry.fullname = true
      · exact .inl ⟨done, if_pos done⟩
      · exact .inr ⟨done, if_neg done⟩

theorem restoredAll_extends (args : RestoreArgs) (before : List ArchiveEntry)
    (sources : List SourceEntry) :
    ∃ more, restoredAll args before sources = before ++ more ∧ more.length ≤ sources.length := by
  induction sources generalizing before with
  | nil => exact ⟨[], (List.append_nil _).symm, Nat.le_refl _⟩
  | cons source sources ih =>
      obtain ⟨more, same, fewer⟩ := ih (source.restoredOnto args before)
      change restoredAll args before (source :: sources) = _ at same
      rcases restoredOnto_eq args before source with ⟨-, onto⟩ | ⟨-, onto⟩
      · refine ⟨source.restored :: more, ?_, Nat.succ_le_succ fewer⟩
        rw [same, onto, List.append_assoc, List.singleton_append]
      · exact ⟨more, same.trans (congrArg (· ++ more) onto), Nat.le_succ_of_le fewer⟩

/-- All entries come back exactly if there are no symbolic links with empty targets and all
FIFOs can be made. -/
theorem restoredAll_iff (args : RestoreArgs) (before : List ArchiveEntry)
    (sources : List SourceEntry) :
    restoredAll args before sources = before ++ sources.map archived ↔
      (∀ entry run, .symbolicLink entry run [] ∉ sources) ∧ FifosMade args sources before := by
  induction sources generalizing before with
  | nil =>
      have none_ : ∀ entry run, SourceEntry.symbolicLink entry run [] ∉ [] := fun _ _ =>
        List.not_mem_nil
      exact ⟨fun _ => ⟨none_, trivial⟩, fun _ => (List.append_nil before).symm⟩
  | cons source sources ih =>
      have split : (∀ entry run, SourceEntry.symbolicLink entry run [] ∉ source :: sources) ↔
          source.restored = source.archived ∧
            ∀ entry run, SourceEntry.symbolicLink entry run [] ∉ sources := by
        rw [restored_eq_archived_iff]
        simp only [List.mem_cons, not_or, forall_and, eq_comm, ne_eq]
      change restoredAll args (source.restoredOnto args before) sources = _ ↔
        _ ∧ source.Made args before ∧ FifosMade args sources (before ++ [source.archived])
      rcases restoredOnto_eq args before source with ⟨made, onto⟩ | ⟨unmade, onto⟩
      · obtain ⟨more, same, -⟩ := restoredAll_extends args (before ++ [source.restored]) sources
        have ih := ih (before ++ [source.archived])
        rw [onto, split, List.map_cons]
        constructor
        · intro all
          have heads := same.symm.trans all
          rw [List.append_assoc, List.singleton_append] at heads
          obtain ⟨head, -⟩ := List.cons.inj (List.append_cancel_left heads)
          rw [head] at all
          obtain ⟨rest, fifos⟩ := ih.mp (by rw [all, List.append_assoc, List.singleton_append])
          exact ⟨⟨head, rest⟩, made, fifos⟩
        · rintro ⟨⟨head, rest⟩, -, fifos⟩
          rw [head, ih.mpr ⟨rest, fifos⟩, List.append_assoc, List.singleton_append]
      · obtain ⟨more, same, fewer⟩ := restoredAll_extends args before sources
        constructor
        · intro all
          rw [onto, same] at all
          have lengths := congrArg List.length (List.append_cancel_left all)
          rw [List.length_map, List.length_cons] at lengths
          omega
        · rintro ⟨-, made, -⟩
          exact absurd made unmade

end SourceEntry

/-! ## Names -/

namespace FileEntry.Accepted

variable {entry : FileEntry}

theorem joined (accepted : entry.Accepted) :
    tlmCatPath entry.dir entry.name = some entry.fullname := by
  obtain ⟨fullname, joined⟩ :=
    Option.isSome_iff_exists.mp (tlmCatPath_isSome accepted.short accepted.nonempty)
  rw [FileEntry.fullname, joined, Option.getD_some]

theorem named (accepted : entry.Accepted) : entry.Named entry.fullname where
  short := accepted.short
  joined := accepted.joined
  checked := tlmCatPath_isSome accepted.checked accepted.nonempty
  noText := accepted.noText

theorem path (accepted : entry.Accepted) : AbsolutePath entry.fullname where
  nulFree := tlmCatPath_nulFree accepted.dirFree accepted.nameFree accepted.joined
  absolute := accepted.absolute
  short := tlmCatPath_length accepted.joined

end FileEntry.Accepted

/-- The first header of a file has its name. -/
theorem sectionName_zero {name : CString} (path : AbsolutePath name) :
    TarStream.sectionName name 0 = name := by
  have bound : pathMax < tlmMaxPathName := by decide
  have short := path.short
  unfold TarStream.sectionName
  rw [if_pos rfl]
  exact List.take_of_length_le (by omega)

/-! ## Encoding -/

/-- The headers and the data of a file that fits one header. -/
def FilePuts (linkflag : UInt8) (ino : Nat) (name : CString) (contents : List UInt8)
    (puts : List Put) : Prop :=
  ∃ header data, puts = header ++ data ∧ HeaderPuts linkflag contents.length ino name [] header ∧
    Filled contents data

/-- A file that fits one header is put out as its only section. -/
theorem outputContents_single {owners : OwnerNames} {entry : FileEntry} {name : CString}
    {run : FileRun} {contents : List UInt8} {stream : TarStream}
    (fills : run.FillsRequests contents) (path : AbsolutePath name)
    (size : entry.attr.stSize = contents.length) (image : contents.length ≤ tlmMaxTarImage)
    (forever : stream.grantsLeft = none) :
    ∃ puts, (stream.outputContents owners entry name run 0 contents.length).2 = .finished ∧
      Emits stream (stream.outputContents owners entry name run 0 contents.length).1 puts ∧
      FilePuts (TarStream.linkflagOf entry.attr []) entry.attr.stIno name contents puts := by
  by_cases empty : contents = []
  · subst empty
    obtain ⟨puts, finished, emits, header⟩ :=
      @TarStream.outputContents_emits_empty entry owners name run stream 0 forever
    rw [sectionName_zero path, size] at header
    exact ⟨puts, finished, emits, puts, [], (List.append_nil _).symm, header, .nil⟩
  · obtain ⟨puts, finished, emits, sections⟩ :=
      @TarStream.outputContents_emits entry owners name run contents stream fills 0 forever empty
    refine ⟨puts, finished, emits, ?_⟩
    cases sections with
    | done => exact absurd rfl empty
    | @more _ _ header data rest nonempty header_ filled others =>
        rw [List.drop_of_length_le image] at others
        rw [List.take_of_length_le image] at filled
        rw [Nat.min_eq_left image, sectionName_zero path] at header_
        cases others with
        | done => exact ⟨header, data, by rw [List.append_nil], header_, filled⟩
        | more nonempty => exact absurd rfl nonempty

namespace SourceEntry

/-- What an entry is put out as. -/
def PutsAs : SourceEntry → List Put → Prop
  | directory name attr _, puts => HeaderPuts lfDir attr.stSize attr.stIno name [] puts
  | symbolicLink entry _ target, puts =>
      HeaderPuts (if target = [] then lfNormal else lfSymlink) target.length entry.attr.stIno
        entry.fullname target puts
  | fifo entry _ _, puts => FilePuts lfFifo entry.attr.stIno entry.fullname [] puts
  | regularFile entry _ contents, puts =>
      FilePuts lfNormal entry.attr.stIno entry.fullname contents puts

/-- A file with a type that has data, of one name and one header. -/
theorem tlmOutputFile_single {owners : OwnerNames} {entry : FileEntry} {run : FileRun}
    {contents : List UInt8} {stream : TarStream} {hardlinkQ : HardlinkQ}
    (accepted : entry.Accepted) (notLink : entry.attr.fileType ≠ .symbolicLink)
    (size : entry.attr.stSize = contents.length) (image : contents.length ≤ tlmMaxTarImage)
    (fills : run.FillsRequests contents)
    (first : entry.hardlinkDone hardlinkQ = true → contents = [])
    (forever : stream.grantsLeft = none) :
    (∃ puts, Emits stream (tlmOutputFile owners entry run stream hardlinkQ).1 puts ∧
      FilePuts (TarStream.linkflagOf entry.attr []) entry.attr.stIno entry.fullname contents
        puts) ∧
      (tlmOutputFile owners entry run stream hardlinkQ).2.1 =
        if 1 < entry.attr.stNlink ∧ ¬ entry.hardlinkDone hardlinkQ then
          hardlinkQ.hardlinkQAdd entry.attr.stIno stream.pool.bufs.tbsOffset none false
        else hardlinkQ := by
  have fits : ¬ tlmMaxTarImage < entry.attr.stSize := by
    rw [size]
    omega
  have fileSize : (if entry.hardlinkDone hardlinkQ then 0 else entry.attr.stSize) =
      contents.length := by
    by_cases done : entry.hardlinkDone hardlinkQ = true
    · rw [if_pos done, first done]
      rfl
    · rw [if_neg done, size]
  have output := @tlmOutputFile_opened owners entry run stream hardlinkQ entry.fullname
    accepted.named notLink fills.opened fills.nameAllocated
  dsimp only at output
  rw [fileSize, if_neg fits, TarStream.outputHugeName, if_neg fits] at output
  rw [output]
  obtain ⟨puts, finished, emits, file⟩ := @outputContents_single owners entry entry.fullname run
    contents stream fills accepted.path size image forever
  refine ⟨⟨puts, emits, file⟩, ?_⟩
  dsimp only
  rw [finished]
  simp only [true_and]

/-- Every accepted entry is put out as it should be. -/
theorem encode_emits (owners : OwnerNames) (source : SourceEntry) (accepted : source.Accepted)
    {stream : TarStream} (hardlinkQ : HardlinkQ) (forever : stream.grantsLeft = none) :
    ∃ puts, Emits stream (source.encode owners stream hardlinkQ).1 puts ∧ source.PutsAs puts := by
  cases source with
  | directory name attr aclInfo =>
      obtain ⟨path, type, noText⟩ := accepted
      obtain ⟨puts, emits, header⟩ :=
        @TarStream.outputFileHeader_emits stream forever owners name []
        attr 0 (by decide)
      have flag : TarStream.linkflagOf attr [] = lfDir := by
        unfold TarStream.linkflagOf
        rw [type]
      rw [sectionName_zero path, flag] at header
      refine ⟨puts, ?_, header⟩
      unfold encode TarStream.tlmOutputDir
      dsimp only
      rw [noText.outputAclHeader]
      exact emits
  | symbolicLink entry run target =>
      obtain ⟨accepted, type, single, size, read, -, fits⟩ := accepted
      have most : tlmMaxPathName = 1088 := rfl
      obtain ⟨puts, emits, header⟩ := @TarStream.outputFileHeader_emits stream forever owners
        entry.fullname target entry.attr 0 (by omega)
      have flag : TarStream.linkflagOf entry.attr target =
          if target = [] then lfNormal else lfSymlink := by
        unfold TarStream.linkflagOf
        rw [type]
        dsimp only
        rw [if_neg (by omega)]
      rw [sectionName_zero accepted.path, flag, size] at header
      refine ⟨puts, ?_, header⟩
      unfold encode
      dsimp only
      rw [tlmOutputFile_symlink accepted.named type read fits]
      exact emits
  | fifo entry run waits =>
      obtain ⟨accepted, type, size, fills⟩ := accepted
      have notLink : entry.attr.fileType ≠ .symbolicLink := by
        rw [type]
        decide
      obtain ⟨⟨puts, emits, file⟩, -⟩ := @tlmOutputFile_single owners entry run [] stream hardlinkQ
        accepted notLink size (by decide) fills (fun _ => rfl) forever
      have flag : TarStream.linkflagOf entry.attr [] = lfFifo := by
        unfold TarStream.linkflagOf
        rw [type]
      rw [flag] at file
      exact ⟨puts, emits, file⟩
  | regularFile entry run contents =>
      obtain ⟨accepted, type, single, size, image, fills⟩ := accepted
      have notLink : entry.attr.fileType ≠ .symbolicLink := by
        rw [type]
        decide
      have first : entry.hardlinkDone hardlinkQ = true → contents = [] := by
        intro done
        unfold FileEntry.hardlinkDone at done
        rw [single] at done
        exact absurd (of_decide_eq_true done).1 (by decide)
      obtain ⟨⟨puts, emits, file⟩, -⟩ := @tlmOutputFile_single owners entry run contents stream
        hardlinkQ accepted notLink size image fills first forever
      have flag : TarStream.linkflagOf entry.attr [] = lfNormal := by
        unfold TarStream.linkflagOf
        rw [type]
        dsimp only
        rw [if_neg (by omega), if_pos rfl]
      rw [flag] at file
      exact ⟨puts, emits, file⟩

end SourceEntry

/-! ## Decoding -/

variable {args : RestoreArgs} {hardlinkQ : HardlinkQ} {entries : List ArchiveEntry}
  {segment rest : List UInt8} {puts : List Put}

/-- The decoder takes the names of an entry, and then its header. -/
theorem Decodes.headerPuts {linkflag : UInt8} {size ino : Nat} {name link : CString}
    {next : DecoderView} (headers : HeaderPuts linkflag size ino name link puts)
    (represents : Represents puts segment) (path : AbsolutePath name) (linkFree : NulFree link)
    (fits : link.length < tlmMaxPathName) (shorter : next.left.length ≤ rest.length)
    (last : ∀ tarHdr writer, EntryHeader tarHdr linkflag size ino name link →
      Sees (.entry (tarHdr.record ++ rest) hardlinkQ entries name link) writer →
        Sees next (writer.tarGetdirStep args)) :
    Decodes args (.between (segment ++ rest) hardlinkQ entries) next := by
  have bound : pathMax < tlmMaxPathName := by decide
  have short := path.short
  have spills : 0 + DecoderView.spill name < tlmMaxPathName := by
    unfold DecoderView.spill
    split
    · omega
    · decide
  obtain ⟨tarHdr, header, taken⟩ :=
    @Decodes.names args (.between (segment ++ rest) hardlinkQ entries)
    linkflag size ino name link puts segment rest headers represents rfl path.nulFree linkFree rfl
    spills fits
  apply taken.trans
  apply Decodes.step
  · intro writer sees
    exact last tarHdr writer header sees
  · have length : tarHdr.record.length = 512 := tarHdr.length_record
    change 512 + next.left.length ≤
      (DecoderView.entry (tarHdr.record ++ rest) hardlinkQ entries name link).left.length
    rw [DecoderView.entry_left, List.length_append]
    omega

/-- The decoder restores a file that fits one header. -/
theorem Decodes.regularFile (all : RestoresAll args) {linkflag : UInt8} {ino : Nat}
    {hardlink : Option Nat} (asFile : AsFile hardlinkQ ino linkflag hardlink) {name : CString}
    {contents : List UInt8} (file : FilePuts linkflag ino name contents puts)
    (represents : Represents puts segment) (path : AbsolutePath name)
    (image : contents.length ≤ tlmMaxTarImage) :
    Decodes args (.between (segment ++ rest) hardlinkQ entries)
      (.between rest (DecoderView.linked args.dar hardlink name hardlinkQ)
        (entries ++ [.regularFile name contents])) := by
  have most : tlmMaxTarImage = 0o17777777770 := rfl
  obtain ⟨header, data, rfl, headers, filled⟩ := file
  obtain ⟨front, back, rfl, before, after⟩ := represents.split
  obtain ⟨pad, rfl, padded⟩ := filled.represents after
  rw [List.append_assoc, List.append_assoc]
  apply Decodes.headerPuts headers before path (List.not_mem_nil) (by decide)
  · change rest.length ≤ _
    simp only [List.length_append]
    omega
  · intro tarHdr writer entry sees
    exact Sees.regular_step all asFile sees entry path padded (by omega)

/-- The decoder restores what an entry was put out as. -/
theorem Decodes.source (all : RestoresAll args) (source : SourceEntry)
    (accepted : source.Accepted) (put : source.PutsAs puts)
    (represents : Represents puts segment) :
    Decodes args (.between (segment ++ rest) hardlinkQ entries)
      (.between rest hardlinkQ (source.restoredOnto args entries)) := by
  cases source with
  | directory name attr aclInfo =>
      obtain ⟨path, -, -⟩ := accepted
      apply Decodes.headerPuts put represents path (List.not_mem_nil) (by decide)
      · exact Nat.le_refl rest.length
      · intro tarHdr writer header sees
        exact Sees.directory_step all sees header path
  | symbolicLink entry run target =>
      obtain ⟨accepted, -, -, -, -, linkFree, fits⟩ := accepted
      cases target with
      | nil =>
          -- the header of an empty file
          have file : FilePuts lfNormal entry.attr.stIno entry.fullname [] puts :=
            ⟨puts, [], (List.append_nil _).symm, put, .nil⟩
          exact Decodes.regularFile all .normal file represents accepted.path (by decide)
      | cons byte target =>
          apply Decodes.headerPuts put represents accepted.path linkFree fits
          · exact Nat.le_refl rest.length
          · intro tarHdr writer header sees
            exact Sees.symlink_step all sees header accepted.path linkFree
  | fifo entry run waits =>
      obtain ⟨accepted, -, -, -⟩ := accepted
      obtain ⟨header, data, rfl, headers, filled⟩ := put
      cases filled.of_nil
      rw [List.append_nil] at represents
      apply Decodes.headerPuts headers represents accepted.path (List.not_mem_nil) (by decide)
      · exact Nat.le_refl rest.length
      · intro tarHdr writer header sees
        exact Sees.fifo_step all sees header accepted.path
  | regularFile entry run contents =>
      obtain ⟨accepted, -, -, -, image, -⟩ := accepted
      exact Decodes.regularFile all .normal put represents accepted.path image

/-! ## Lists of entries -/

/-- A list of entries is put out one after the other. -/
theorem SourceEntry.encodeAll_emits (owners : OwnerNames) (sources : List SourceEntry)
    (accepted : ∀ source ∈ sources, source.Accepted) {stream : TarStream} (hardlinkQ : HardlinkQ)
    (forever : stream.grantsLeft = none) :
    ∃ putss : List (List Put), Emits stream (encodeAll owners sources stream hardlinkQ).1
      putss.flatten ∧ List.Forall₂ PutsAs sources putss := by
  induction sources generalizing stream hardlinkQ with
  | nil => exact ⟨[], .refl forever, .nil⟩
  | cons source sources ih =>
      obtain ⟨puts, emits, put⟩ :=
        encode_emits owners source (accepted source (by simp)) hardlinkQ forever
      obtain ⟨putss, rest, others⟩ := ih (fun other listed => accepted other (by simp [listed]))
        (source.encode owners stream hardlinkQ).2 emits.forever
      exact ⟨puts :: putss, emits.trans rest, .cons put others⟩

namespace SourceEntry

/-- An entry adds its inode to the queue if it has more than one link, which only a FIFO may. -/
theorem encode_links (owners : OwnerNames) (source : SourceEntry) (accepted : source.Accepted)
    {stream : TarStream} (hardlinkQ : HardlinkQ) (forever : stream.grantsLeft = none) (ino : Nat) :
    ((source.encode owners stream hardlinkQ).2.hardlinkQGet ino).isSome =
      ((hardlinkQ.hardlinkQGet ino).isSome || source.links ino) := by
  cases source with
  | directory name attr aclInfo => exact (Bool.or_false _).symm
  | symbolicLink entry run target =>
      obtain ⟨accepted, type, -, -, read, -, fits⟩ := accepted
      unfold encode
      dsimp only
      rw [tlmOutputFile_symlink accepted.named type read fits]
      exact (Bool.or_false _).symm
  | regularFile entry run contents =>
      obtain ⟨accepted, type, single, size, image, fills⟩ := accepted
      have alone : ¬ 1 < entry.attr.stNlink := by omega
      have queue := (@tlmOutputFile_single owners entry run contents stream hardlinkQ accepted
        (by simp [type]) size image fills (by simp [FileEntry.hardlinkDone, alone]) forever).2
      rw [if_neg (fun more => alone more.1)] at queue
      unfold encode
      dsimp only
      rw [queue]
      exact (Bool.or_false _).symm
  | fifo entry run waits =>
      obtain ⟨accepted, type, size, fills⟩ := accepted
      have queue := (@tlmOutputFile_single owners entry run [] stream hardlinkQ accepted
        (by simp [type]) size (by decide) fills (fun _ => rfl) forever).2
      unfold encode links
      dsimp only
      rw [queue]
      by_cases more : 1 < entry.attr.stNlink
      · cases known : (hardlinkQ.hardlinkQGet entry.attr.stIno).isSome with
        | true =>
            have done : entry.hardlinkDone hardlinkQ = true := by
              simp [FileEntry.hardlinkDone, more, known]
            rw [if_neg (fun added => added.2 done)]
            by_cases same : entry.attr.stIno = ino
            · rw [← same, known, Bool.true_or]
            · simp [same]
        | false =>
            have done : ¬ entry.hardlinkDone hardlinkQ = true := by
              simp [FileEntry.hardlinkDone, known]
            rw [if_pos ⟨more, done⟩, HardlinkQ.hardlinkQGet_hardlinkQAdd]
            by_cases same : entry.attr.stIno = ino
            · simp [same, more]
            · simp [same]
      · rw [if_neg (fun added => more added.1)]
        simp [more]

/-- `tlm_output_file` returns for an entry exactly if its FIFO opens. -/
theorem encode?_eq (owners : OwnerNames) (source : SourceEntry) (accepted : source.Accepted)
    (stream : TarStream) (hardlinkQ : HardlinkQ) :
    (source.Opens (fun ino => (hardlinkQ.hardlinkQGet ino).isSome) ∧
        source.encode? owners stream hardlinkQ = some (source.encode owners stream hardlinkQ)) ∨
      (¬ source.Opens (fun ino => (hardlinkQ.hardlinkQGet ino).isSome) ∧
        source.encode? owners stream hardlinkQ = none) := by
  cases source with
  | directory name attr aclInfo => exact .inl ⟨trivial, rfl⟩
  | symbolicLink entry run target => exact .inl ⟨trivial, rfl⟩
  | regularFile entry run contents => exact .inl ⟨trivial, rfl⟩
  | fifo entry run waits =>
      obtain ⟨accepted, type, -, -⟩ := accepted
      have opens : entry.comesToOpen hardlinkQ = true ↔
          ¬ (1 < entry.attr.stNlink ∧ (hardlinkQ.hardlinkQGet entry.attr.stIno).isSome = true) := by
        simp [FileEntry.comesToOpen, FileEntry.hardlinkDone, accepted.short, accepted.joined,
          accepted.named.checked, type, or_iff_not_imp_left]
      unfold encode? Opens
      dsimp only
      by_cases waited : waits = true ∧ entry.comesToOpen hardlinkQ = true
      · exact .inr ⟨fun returns => opens.mp waited.2 (returns waited.1), if_pos waited⟩
      · refine .inl ⟨fun waits => ?_, if_neg waited⟩
        by_contra unknown
        exact waited ⟨waits, opens.mpr unknown⟩

/-- `tlm_output_file` returns for all entries of a list exactly if its FIFOs open. -/
theorem encodeAll?_eq (owners : OwnerNames) (sources : List SourceEntry)
    (accepted : ∀ source ∈ sources, source.Accepted) {stream : TarStream} (hardlinkQ : HardlinkQ)
    (forever : stream.grantsLeft = none) :
    (FifosOpen sources (fun ino => (hardlinkQ.hardlinkQGet ino).isSome) ∧
        encodeAll? owners sources stream hardlinkQ =
          some (encodeAll owners sources stream hardlinkQ)) ∨
      (¬ FifosOpen sources (fun ino => (hardlinkQ.hardlinkQGet ino).isSome) ∧
        encodeAll? owners sources stream hardlinkQ = none) := by
  induction sources generalizing stream hardlinkQ with
  | nil => exact .inl ⟨trivial, rfl⟩
  | cons source sources ih =>
      have own := accepted source List.mem_cons_self
      obtain ⟨puts, emits, -⟩ := encode_emits owners source own hardlinkQ forever
      have known := funext (encode_links owners source own hardlinkQ forever)
      have rest := ih (fun other listed => accepted other (List.mem_cons_of_mem _ listed))
        (source.encode owners stream hardlinkQ).2 emits.forever
      rw [known] at rest
      rcases encode?_eq owners source own stream hardlinkQ with ⟨opens, first⟩ | ⟨waits, first⟩
      · have step : encodeAll? owners (source :: sources) stream hardlinkQ =
            encodeAll? owners sources (source.encode owners stream hardlinkQ).1
              (source.encode owners stream hardlinkQ).2 := by
          simp [encodeAll?, first]
        rw [step]
        rcases rest with ⟨others, all⟩ | ⟨others, none_⟩
        · exact .inl ⟨⟨opens, others⟩, all⟩
        · exact .inr ⟨fun fifos => others fifos.2, none_⟩
      · exact .inr ⟨fun fifos => waits fifos.1, by simp [encodeAll?, first]⟩

variable {owners : OwnerNames} {sources : List SourceEntry} {stream : TarStream}
  {hardlinkQ : HardlinkQ}

theorem encodeAll?_of_opens (accepted : ∀ source ∈ sources, source.Accepted)
    (forever : stream.grantsLeft = none)
    (opens : FifosOpen sources fun ino => (hardlinkQ.hardlinkQGet ino).isSome) :
    encodeAll? owners sources stream hardlinkQ =
      some (encodeAll owners sources stream hardlinkQ) := by
  rcases encodeAll?_eq owners sources accepted hardlinkQ forever with ⟨-, all⟩ | ⟨waits, -⟩
  · exact all
  · exact absurd opens waits

theorem encodeAll_of_encodes (accepted : ∀ source ∈ sources, source.Accepted)
    (forever : stream.grantsLeft = none) {result : TarStream × HardlinkQ}
    (encodes : encodeAll? owners sources stream hardlinkQ = some result) :
    encodeAll owners sources stream hardlinkQ = result := by
  rcases encodeAll?_eq owners sources accepted hardlinkQ forever with ⟨-, all⟩ | ⟨-, none_⟩
  · exact Option.some.inj (all.symm.trans encodes)
  · cases none_.symm.trans encodes

end SourceEntry

/-- The decoder restores what a list of entries was put out as. -/
theorem Decodes.sources (all : RestoresAll args) {sources : List SourceEntry}
    {putss : List (List Put)} {content : List UInt8}
    (accepted : ∀ source ∈ sources, source.Accepted)
    (put : List.Forall₂ SourceEntry.PutsAs sources putss)
    (represents : Represents putss.flatten content) :
    Decodes args (.between (content ++ rest) hardlinkQ entries)
      (.between rest hardlinkQ (SourceEntry.restoredAll args entries sources)) := by
  induction put generalizing content entries with
  | nil =>
      cases represents
      exact .refl
  | @cons source _ sources _ head _ ih =>
      obtain ⟨front, back, rfl, before, after⟩ := represents.split
      rw [List.append_assoc]
      have first := @Decodes.source args hardlinkQ entries front (back ++ rest) _ all _
        (accepted _ (by simp)) head before
      have others := @ih (source.restoredOnto args entries) back
        (fun other listed => accepted other (by simp [listed])) after
      exact first.trans others

/-- A decoder starts between two entries. -/
theorem Sees.start (args : RestoreArgs) {blocks : List ReadBlock}
    (whole : RestoreWriter.Whole blocks) (hardlinkQ : HardlinkQ) :
    Sees (.between (RestoreWriter.bytesOf blocks) hardlinkQ [])
      (RestoreWriter.start args blocks hardlinkQ ⟨[], [], []⟩) where
  running := rfl
  single := rfl
  sound := rfl
  scripts := rfl
  whole := whole
  left := rfl
  longname := by
    intro name listed
    rw [← Option.some.inj listed]
    rfl
  nmEnd := rfl
  longlink := rfl
  lnkEnd := rfl
  hugename := rfl
  hugeSize := rfl
  fp := rfl
  hardlinkQ := rfl
  restored := rfl

/-- What a decoder has restored that gets from its start to a state between two entries,
with nothing but bad records behind it. -/
theorem Decodes.tarGetdir {blocks : List ReadBlock} {initialQ : HardlinkQ} {rounds : Nat}
    (decodes : Decodes args (.between (RestoreWriter.bytesOf blocks) initialQ [])
      (.between rest hardlinkQ entries))
    (whole : RestoreWriter.Whole blocks) (bad : ¬ HasRecord rest)
    (enough : (RestoreWriter.bytesOf blocks).length ≤ 512 * rounds + rest.length) :
    Restored.of (RestoreWriter.tarGetdir args blocks initialQ ⟨[], [], []⟩ rounds).ops =
      ⟨entries, none⟩ := by
  obtain ⟨used, last, sees, fewer, run, -⟩ := decodes _ (Sees.start args whole initialQ)
  change 512 * used + rest.length ≤ (RestoreWriter.bytesOf blocks).length at fewer
  obtain ⟨more, rfl⟩ : ∃ more, rounds = used + more := ⟨rounds - used, by omega⟩
  have behind : last.OnlyBadRecords := by
    refine ⟨sees.single, sees.whole, ?_⟩
    rw [sees.left]
    exact bad
  obtain ⟨ops, fp⟩ := behind.loop args more
  have closed : (RestoreWriter.tarGetdirLoop args more last).fp = .closed := fp.trans sees.fp
  have restored := sees.restored
  rw [← ops] at restored
  unfold RestoreWriter.tarGetdir
  rw [run]
  generalize RestoreWriter.tarGetdirLoop args more last = final at closed restored ⊢
  have stillClosed : ∀ rv, ({ final with rv := rv } : RestoreWriter).fp ≠ .opened := by
    intro rv opened
    rw [show ({ final with rv := rv } : RestoreWriter).fp = final.fp from rfl, closed] at opened
    cases opened
  unfold RestoreWriter.tearDown
  by_cases stopped : final.tcWriterStop = true
  · rw [if_pos stopped]
    dsimp only
    rw [if_neg (stillClosed 0)]
    exact (Restored.of_append_setAcls _ _).trans restored
  · rw [if_neg stopped]
    dsimp only
    rw [if_neg (stillClosed final.rv)]
    exact (Restored.of_append_setAcls _ _).trans restored

section RoundTrip

variable {size : Nat} (positive : 0 < size) (small : size < 2 ^ 32) (records : 512 ∣ size)
  (fileCount : Nat) (owners : OwnerNames) {sources : List SourceEntry} (encoderQ : HardlinkQ)

/-- The archive of a list of entries, for a pool with blocks of `size` bytes. -/
def archiveOf (sources : List SourceEntry) : List UInt8 :=
  (SourceEntry.encodeAll owners sources (.initial positive small records fileCount none)
    encoderQ).1.pool.content

/-- The archive of a list of entries, where `tlm_output_file` returns for each of them. -/
def archiveOf? (sources : List SourceEntry) : Option (List UInt8) :=
  (SourceEntry.encodeAll? owners sources (.initial positive small records fileCount none)
    encoderQ).map fun result => result.1.pool.content

theorem grantsLeft_initial :
    (TarStream.initial positive small records fileCount none).grantsLeft = none := rfl

/-- An archive consists of what its entries are put out as. -/
theorem archiveOf_of_emits {puts : List Put}
    (emits : Emits (.initial positive small records fileCount none)
      (SourceEntry.encodeAll owners sources (.initial positive small records fileCount none)
        encoderQ).1 puts) :
    Represents puts (archiveOf positive small records fileCount owners encoderQ sources) := by
  have written := (SourceEntry.encodeAll owners sources
    (.initial positive small records fileCount none) encoderQ).1.written
  rw [emits.puts] at written
  exact written

/-- What is restored from the archive of a list of entries. -/
theorem restored_tarGetdir (accepted : ∀ source ∈ sources, source.Accepted)
    {args : RestoreArgs} (all : RestoresAll args) {blocks : List ReadBlock}
    (whole : RestoreWriter.Whole blocks) {tail : List UInt8} (bad : ¬ HasRecord tail)
    (bytes : RestoreWriter.bytesOf blocks =
      archiveOf positive small records fileCount owners encoderQ sources ++ tail)
    (decoderQ : HardlinkQ) {rounds : Nat}
    (enough : (archiveOf positive small records fileCount owners encoderQ sources).length ≤
      512 * rounds) :
    Restored.of (RestoreWriter.tarGetdir args blocks decoderQ ⟨[], [], []⟩ rounds).ops =
      ⟨SourceEntry.restoredAll args [] sources, none⟩ := by
  obtain ⟨putss, emits, put⟩ := SourceEntry.encodeAll_emits owners sources accepted
    encoderQ (grantsLeft_initial positive small records fileCount)
  have written := archiveOf_of_emits positive small records fileCount owners encoderQ emits
  have decodes := @Decodes.sources args decoderQ [] tail all sources putss _ accepted put written
  have total : (RestoreWriter.bytesOf blocks).length ≤ 512 * rounds + tail.length := by
    rw [bytes, List.length_append]
    omega
  have begun : Decodes args (.between (RestoreWriter.bytesOf blocks) decoderQ [])
      (.between tail decoderQ (SourceEntry.restoredAll args [] sources)) := by
    rw [bytes]
    exact decodes
  exact begun.tarGetdir whole bad total

/-- There is an archive exactly if all FIFOs open. -/
theorem archiveOf?_eq_some_iff (accepted : ∀ source ∈ sources, source.Accepted) :
    archiveOf? positive small records fileCount owners encoderQ sources =
        some (archiveOf positive small records fileCount owners encoderQ sources) ↔
      SourceEntry.FifosOpen sources fun ino => (encoderQ.hardlinkQGet ino).isSome := by
  unfold archiveOf?
  rcases SourceEntry.encodeAll?_eq owners sources accepted encoderQ
      (grantsLeft_initial positive small records fileCount) with ⟨opens, all⟩ | ⟨waits, none_⟩
  · rw [all]
    exact ⟨fun _ => opens, fun _ => rfl⟩
  · rw [none_]
    exact ⟨fun some_ => (by cases some_), fun opens => absurd opens waits⟩

end RoundTrip

/-! ## Archives of a directory, a file and a symbolic link -/

/-- A restore of everything to an empty place. -/
def restoreArgs : RestoreArgs where
  newName := fun _ name => some name
  sels := []
  exls := []
  flags := ⟨false, false, false, false⟩
  dar := false
  existing := fun _ => none
  mknod := fun _ _ => true

theorem restoreArgs_all : RestoresAll restoreArgs := ⟨rfl, fun _ => rfl, fun _ => rfl⟩

/-- A file of which all reads fill their requests, or a link to `contents`. -/
def FileRun.ofContents (contents : List UInt8) : FileRun where
  readlink := .target contents
  opened := true
  nameAllocated := true
  reads := fun _ seekSpot request => .bytes ((contents.drop seekSpot).take request)
  readsBeforeAbort := contents.length
  abortWithBuffer := false

theorem FileRun.ofContents_fills (contents : List UInt8) :
    (FileRun.ofContents contents).FillsRequests contents :=
  ⟨rfl, rfl, fun _ _ _ _ => rfl, Nat.le_refl _⟩

/-- The entry `name` of the directory `/a`. -/
def entryOf (name : CString) (fileType : FileType) (size : Nat) : FileEntry where
  dir := [slash, 97]
  name := name
  chkdir := [slash, 97]
  attr := ⟨fileType, 0o644, 1, 7, 0, 0, size, 0, 0⟩
  aclInfo := none

theorem entryOf_accepted {name : CString} (fileType : FileType) (size : Nat)
    (known : name = [102] ∨ name = [108] ∨ name = [112]) :
    (entryOf name fileType size).Accepted := by
  have noText : NoAclText none := by
    intro acl listed
    cases listed
  have dirFree : NulFree [slash, 97] := by decide
  rcases known with rfl | rfl | rfl
  · exact ⟨List.cons_ne_nil _ _, dirFree, show NulFree [102] by decide, rfl, rfl, rfl, noText⟩
  · exact ⟨List.cons_ne_nil _ _, dirFree, show NulFree [108] by decide, rfl, rfl, rfl, noText⟩
  · exact ⟨List.cons_ne_nil _ _, dirFree, show NulFree [112] by decide, rfl, rfl, rfl, noText⟩

/-- The directory `/a` with a file and a symbolic link to it. -/
def someEntries : List SourceEntry :=
  [.directory [slash, 97] ⟨.directory, 0o755, 2, 5, 0, 0, 4096, 0, 0⟩ none,
    .regularFile (entryOf [102] .regular 3) (.ofContents [1, 2, 3]) [1, 2, 3],
    .symbolicLink (entryOf [108] .symbolicLink 1) (.ofContents [102]) [102]]

/-- The same with a FIFO that another process writes to. -/
def pipedEntries : List SourceEntry :=
  someEntries ++ [.fifo (entryOf [112] .fifo 0) (.ofContents []) false]

/-- A symbolic link with an empty target. -/
def emptyLink : SourceEntry :=
  .symbolicLink (entryOf [108] .symbolicLink 0) (.ofContents []) []

theorem someEntries_accepted : ∀ source ∈ someEntries, source.Accepted := by
  intro source listed
  unfold someEntries at listed
  simp only [List.mem_cons, List.not_mem_nil, or_false] at listed
  rcases listed with rfl | rfl | rfl
  · refine ⟨⟨by decide, rfl, by decide⟩, rfl, ?_⟩
    intro acl listed
    cases listed
  · exact ⟨entryOf_accepted _ _ (by decide), rfl, rfl, rfl, by decide,
      FileRun.ofContents_fills _⟩
  · exact ⟨entryOf_accepted _ _ (by decide), rfl, rfl, rfl, rfl, by decide, by decide⟩

theorem someEntries_open (known : Nat → Bool) : SourceEntry.FifosOpen someEntries known :=
  ⟨trivial, trivial, trivial, trivial⟩

theorem someEntries_made (args : RestoreArgs) : SourceEntry.FifosMade args someEntries [] :=
  ⟨trivial, trivial, trivial, trivial⟩

theorem pipedEntries_accepted : ∀ source ∈ pipedEntries, source.Accepted := by
  intro source listed
  rcases List.mem_append.mp listed with known | fifo
  · exact someEntries_accepted source known
  · rw [List.mem_singleton.mp fifo]
    exact ⟨entryOf_accepted _ _ (by decide), rfl, rfl, FileRun.ofContents_fills _⟩

theorem emptyLink_accepted : emptyLink.Accepted :=
  ⟨entryOf_accepted _ _ (by decide), rfl, rfl, rfl, rfl, by decide, by decide⟩

/-- A stream into blocks of two records. -/
def twoRecords : TarStream :=
  .initial (show 0 < 1024 by decide) (by decide) (by decide) 0 none

/-- The archive of some entries for blocks of two records, with no owners known. -/
def someArchive (sources : List SourceEntry) : List UInt8 :=
  archiveOf (show 0 < 1024 by decide) (by decide) (by decide) 0 ⟨fun _ => none, fun _ => none⟩ []
    sources

/-- The archive in one block. -/
def someBlock (sources : List SourceEntry) (small : (someArchive sources).length < 2 ^ 31) :
    ReadBlock := ⟨someArchive sources, 0, small⟩

theorem someBlock_whole {sources : List SourceEntry}
    (small : (someArchive sources).length < 2 ^ 31) (records : 512 ∣ (someArchive sources).length) :
    RestoreWriter.Whole [someBlock sources small] := by
  intro block listed
  cases List.mem_singleton.mp listed
  exact ⟨records, rfl⟩

theorem bytesOf_someBlock {sources : List SourceEntry}
    (small : (someArchive sources).length < 2 ^ 31) :
    RestoreWriter.bytesOf [someBlock sources small] = someArchive sources ++ [] := by
  rw [RestoreWriter.bytesOf, List.map_singleton, List.flatten_singleton, List.append_nil]
  rfl

theorem pipedEntries_length : (someArchive pipedEntries).length = 2560 := by
  decide +kernel

end Ndmpd
