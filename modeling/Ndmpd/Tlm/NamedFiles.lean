import Ndmpd.Tlm.HugeFiles

/-!
# Files with several names

Regular files and symbolic links may have several names. All names of a file have the link
flag `LF_LINK` and the inode as `%o` prints it, but only the first one that a session puts
out has data (`NamedFile.PutsAs`): the queue of the session keeps the inode number of every
linked file that was put out, of all backups and all devices (`NamedFile.encode_emits`).
-/

namespace Ndmpd

open Foundation

/-- A name of a regular file or of a symbolic link: its device, what the system calls on it
return, and the contents of the file or the target of the link. -/
structure NamedFile where
  stDev : Nat
  entry : FileEntry
  run : FileRun
  data : List UInt8

namespace NamedFile

variable (file : NamedFile)

/-- The entry that is put out. -/
def source : SourceEntry :=
  if file.entry.attr.fileType = .symbolicLink then .symbolicLink file.entry file.run file.data
  else .regularFile file.entry file.run file.data

/-- A regular file with several names. -/
def Linked : Prop := file.entry.attr.fileType = .regular ∧ 1 < file.entry.attr.stNlink

instance : Decidable file.Linked := inferInstanceAs (Decidable (_ ∧ _))

/-- Another name of the same file. -/
def SameFile (other : NamedFile) : Prop :=
  file.Linked ∧ other.Linked ∧ file.stDev = other.stDev ∧
    file.entry.attr.stIno = other.entry.attr.stIno

instance (other : NamedFile) : Decidable (file.SameFile other) :=
  inferInstanceAs (Decidable (_ ∧ _ ∧ _ ∧ _))

/-- The first of some names that is a name of the file. -/
def firstName (before : List NamedFile) : Option NamedFile :=
  before.find? fun other => file.SameFile other

/-- The name as it should be restored when others have been: the first name of a file has
its contents, and each later one is a link to the first. -/
def archived (before : List NamedFile) : ArchiveEntry :=
  if file.entry.attr.fileType = .symbolicLink then
    .symbolicLink file.entry.fullname file.data
  else
    match file.firstName before with
    | some first => .hardLink file.entry.fullname first.entry.fullname
    | none => .regularFile file.entry.fullname file.data

/-- A list of names as it should be restored when others have been. -/
def archivedAll (before : List NamedFile) : List NamedFile → List ArchiveEntry
  | [] => []
  | file :: files => file.archived before :: archivedAll (before ++ [file]) files

/-- Whether some names that were put out are names of a linked file with the inode number, of
whatever device: the data of the file are then left out. -/
def DataPut (names : List NamedFile) : Prop :=
  1 < file.entry.attr.stNlink ∧
    ∃ other ∈ names, other.Linked ∧ other.entry.attr.stIno = file.entry.attr.stIno

instance (names : List NamedFile) : Decidable (file.DataPut names) :=
  inferInstanceAs (Decidable (_ ∧ _))

/-- What `stat`, `readlink` and `read` return fits together. -/
structure Accepted : Prop where
  named : file.entry.Accepted
  fileType : file.entry.attr.fileType = .regular ∨ file.entry.attr.fileType = .symbolicLink
  size : file.entry.attr.stSize = file.data.length
  ordinary : file.data.length < 2 ^ 63
  contents : file.entry.attr.fileType = .regular → file.run.FillsRequests file.data
  target : file.entry.attr.fileType = .symbolicLink →
    file.run.readlink = .target file.data ∧ NulFree file.data ∧ file.data.length < tlmMaxPathName

/-! ## What is put out -/

/-- What a name is put out as, if the data of its inode have been put out (`done`) and if
they have not. A huge file gets its `HUMONGUS` header in any case. -/
inductive PutsAs (file : NamedFile) : Bool → List Put → Prop where
  | symbolicLink {done : Bool} {puts : List Put} :
      file.entry.attr.fileType = .symbolicLink →
        HeaderPuts (TarStream.linkflagOf file.entry.attr file.data) file.data.length
          file.entry.attr.stIno file.entry.fullname file.data puts → PutsAs file done puts
  | contents {puts : List Put} :
      file.entry.attr.fileType = .regular → file.data.length ≤ tlmMaxTarImage →
        FilePuts (TarStream.linkflagOf file.entry.attr []) file.entry.attr.stIno
          file.entry.fullname file.data puts → PutsAs file false puts
  | name {puts : List Put} :
      file.entry.attr.fileType = .regular → file.data.length ≤ tlmMaxTarImage →
        HeaderPuts (TarStream.linkflagOf file.entry.attr []) file.data.length
          file.entry.attr.stIno file.entry.fullname [] puts → PutsAs file true puts
  | hugeContents {tarHdr : TlmTarHdr} {text sections : List Put} :
      file.entry.attr.fileType = .regular → tlmMaxTarImage < file.data.length →
        EntryHeader tarHdr lfHumongus (hugeText file.data.length file.entry.fullname).length 0 []
          [] →
          Filled (hugeText file.data.length file.entry.fullname) text →
            SectionPuts (TarStream.linkflagOf file.entry.attr []) file.entry.attr.stIno
              file.entry.fullname 1 file.data sections →
                PutsAs file false (.header tarHdr :: text ++ sections)
  | hugeName {tarHdr : TlmTarHdr} {text header : List Put} :
      file.entry.attr.fileType = .regular → tlmMaxTarImage < file.data.length →
        EntryHeader tarHdr lfHumongus (hugeText file.data.length file.entry.fullname).length 0 []
          [] →
          Filled (hugeText file.data.length file.entry.fullname) text →
            HeaderPuts (TarStream.linkflagOf file.entry.attr []) file.data.length
              file.entry.attr.stIno (TarStream.sectionName file.entry.fullname 1) [] header →
                PutsAs file true (.header tarHdr :: text ++ header)

variable {file}

/-- The headers and the data of a regular file. -/
theorem outputContents_puts (owners : OwnerNames) (accepted : file.Accepted)
    (regular : file.entry.attr.fileType = .regular) {stream : TarStream} (done : Bool)
    (forever : stream.grantsLeft = none) :
    let contents := (stream.outputHugeName file.entry.fullname file.data.length).outputContents
      owners file.entry file.entry.fullname file.run
      (if tlmMaxTarImage < file.data.length then 1 else 0) (if done then 0 else file.data.length)
    ∃ puts, contents.2 = .finished ∧ Emits stream contents.1 puts ∧ file.PutsAs done puts := by
  have bound : pathMax = 1024 := rfl
  have path := accepted.named.path
  have short := path.short
  have fills := accepted.contents regular
  by_cases huge : tlmMaxTarImage < file.data.length
  · have nonempty : file.data ≠ [] := by
      intro empty
      rw [empty] at huge
      exact Nat.not_lt_zero _ huge
    obtain ⟨tarHdr, text, emitsName, header, filled⟩ :=
      @TarStream.outputHumongusHeader_emits stream forever file.entry.fullname file.data.length
        (by omega)
    rw [← length_hugeText file.data.length] at header
    rw [TarStream.outputHugeName, if_pos huge, if_pos huge]
    cases done with
    | false =>
        obtain ⟨sections, finished, emits, sectionPuts⟩ :=
          @TarStream.outputContents_emits file.entry owners file.entry.fullname file.run file.data
            _ fills 1 emitsName.forever nonempty
        exact ⟨_, finished, emitsName.trans emits,
          .hugeContents regular huge header filled sectionPuts⟩
    | true =>
        obtain ⟨puts, finished, emits, named⟩ :=
          @TarStream.outputContents_emits_empty file.entry owners file.entry.fullname file.run
            _ 1 emitsName.forever
        rw [accepted.size] at named
        exact ⟨_, finished, emitsName.trans emits, .hugeName regular huge header filled named⟩
  · rw [TarStream.outputHugeName, if_neg huge, if_neg huge]
    cases done with
    | false =>
        obtain ⟨puts, finished, emits, contents⟩ := @outputContents_single owners file.entry
          file.entry.fullname file.run file.data stream fills path accepted.size (by omega) forever
        exact ⟨puts, finished, emits, .contents regular (by omega) contents⟩
    | true =>
        obtain ⟨puts, finished, emits, named⟩ :=
          @TarStream.outputContents_emits_empty file.entry owners file.entry.fullname file.run
            stream 0 forever
        rw [accepted.size, sectionName_zero path] at named
        exact ⟨puts, finished, emits, .name regular (by omega) named⟩

/-- A queue that has the inode numbers of the linked files among some names. -/
def PutOut (names : List NamedFile) (hardlinkQ : HardlinkQ) : Prop :=
  ∀ inode, (hardlinkQ.hardlinkQGet inode).isSome ↔
    ∃ other ∈ names, other.Linked ∧ other.entry.attr.stIno = inode

theorem PutOut.hardlinkDone_iff {names : List NamedFile} {hardlinkQ : HardlinkQ}
    (putOut : PutOut names hardlinkQ) :
    file.entry.hardlinkDone hardlinkQ = true ↔ file.DataPut names := by
  unfold FileEntry.hardlinkDone DataPut
  rw [decide_eq_true_iff, putOut]

/-- An accepted name is put out as it should be, and the inode of a linked file is then in
the queue. -/
theorem encode_emits (owners : OwnerNames) (accepted : file.Accepted) {stream : TarStream}
    {names : List NamedFile} {hardlinkQ : HardlinkQ} (putOut : PutOut names hardlinkQ)
    (forever : stream.grantsLeft = none) :
    ∃ puts, Emits stream (file.source.encode owners stream hardlinkQ).1 puts ∧
      file.PutsAs (decide (file.DataPut names)) puts ∧
      PutOut (names ++ [file]) (file.source.encode owners stream hardlinkQ).2 := by
  have done : file.entry.hardlinkDone hardlinkQ = decide (file.DataPut names) :=
    Bool.eq_iff_iff.mpr (putOut.hardlinkDone_iff.trans decide_eq_true_iff.symm)
  have snoc : ∀ inode, (∃ other ∈ names ++ [file],
      other.Linked ∧ other.entry.attr.stIno = inode) ↔ (hardlinkQ.hardlinkQGet inode).isSome ∨
        file.Linked ∧ file.entry.attr.stIno = inode := by
    intro inode
    rw [putOut inode]
    simp only [List.mem_append, List.mem_singleton, or_and_right, exists_or, exists_eq_left]
  have encodes : file.source.encode owners stream hardlinkQ =
      ((tlmOutputFile owners file.entry file.run stream hardlinkQ).1,
        (tlmOutputFile owners file.entry file.run stream hardlinkQ).2.1) := by
    unfold source
    split
    · rfl
    · rfl
  rw [encodes]
  rcases accepted.fileType with regular | symbolic
  · have fills := accepted.contents regular
    have notLink : file.entry.attr.fileType ≠ .symbolicLink := by
      rw [regular]
      decide
    have output := @tlmOutputFile_opened owners file.entry file.run stream hardlinkQ
      file.entry.fullname accepted.named.named notLink fills.opened fills.nameAllocated
    dsimp only at output
    rw [accepted.size] at output
    obtain ⟨puts, finished, emits, put⟩ :=
      outputContents_puts owners accepted regular (file.entry.hardlinkDone hardlinkQ) forever
    rw [output]
    rw [done] at put
    refine ⟨puts, emits, put, ?_⟩
    intro inode
    rw [snoc]
    dsimp only
    by_cases adds : 1 < file.entry.attr.stNlink ∧ ¬ file.entry.hardlinkDone hardlinkQ
    · rw [if_pos ⟨finished, adds⟩, HardlinkQ.hardlinkQGet_hardlinkQAdd]
      split
      · next same => simp [Linked, regular, adds.1, same]
      · next other => simp [other]
    · rw [if_neg (fun both => adds both.2)]
      constructor
      · exact .inl
      · rintro (found | ⟨⟨-, several⟩, rfl⟩)
        · exact found
        · have done : file.entry.hardlinkDone hardlinkQ = true := by
            by_contra missing
            exact adds ⟨several, missing⟩
          exact (of_decide_eq_true done).2
  · obtain ⟨read, -, fits⟩ := accepted.target symbolic
    have most : tlmMaxPathName = 1088 := rfl
    obtain ⟨puts, emits, header⟩ := @TarStream.outputFileHeader_emits stream forever owners
      file.entry.fullname file.data file.entry.attr 0 (by omega)
    rw [sectionName_zero accepted.named.path, accepted.size] at header
    rw [tlmOutputFile_symlink accepted.named.named symbolic read fits]
    refine ⟨puts, emits, .symbolicLink symbolic header, ?_⟩
    intro inode
    rw [snoc]
    simp [Linked, symbolic]

/-! ## What a decoder keeps -/

/-- The inode that a decoder keeps the file under when it has restored it. -/
def hardlink (file : NamedFile) : Option Nat :=
  if file.Linked then some (printedIno file.entry.attr.stIno) else none

/-- The file that a decoder has for an inode, if it has restored some names: one of its
queue's before, or else the first of the names that has the inode in print. -/
def known (decoderQ : HardlinkQ) (before : List NamedFile) (inode : Nat) :
    Option (Option CString) :=
  ((decoderQ.hardlinkQGet inode).map (·.path)).or
    ((before.find? fun other => other.hardlink = some inode).map
      fun other => some other.entry.fullname)

/-- The queue of a decoder that has restored some names. -/
def Knows (decoderQ : HardlinkQ) (before : List NamedFile) (hardlinkQ : HardlinkQ) : Prop :=
  ∀ inode, (hardlinkQ.hardlinkQGet inode).map (·.path) = known decoderQ before inode

theorem Knows.start (decoderQ : HardlinkQ) : Knows decoderQ [] decoderQ := by
  intro inode
  rw [known, List.find?_nil, Option.map_none, Option.or_none]

theorem known_snoc (decoderQ : HardlinkQ) (before : List NamedFile) (inode : Nat) :
    known decoderQ (before ++ [file]) inode = (known decoderQ before inode).or
      (if file.hardlink = some inode then some (some file.entry.fullname) else none) := by
  unfold known
  rw [List.find?_append, Option.map_or, Option.or_assoc]
  congr 2
  by_cases same : file.hardlink = some inode
  · rw [if_pos same, List.find?_cons_of_pos (by simpa using same)]
    rfl
  · rw [if_neg same, List.find?_cons_of_neg (by simpa using same)]
    rfl

/-- The queue of a decoder that has restored one more name. -/
theorem Knows.snoc {decoderQ : HardlinkQ} {before : List NamedFile} {hardlinkQ : HardlinkQ}
    (knows : Knows decoderQ before hardlinkQ) :
    Knows decoderQ (before ++ [file])
      (DecoderView.linked false file.hardlink file.entry.fullname hardlinkQ) := by
  intro inode
  rw [known_snoc, ← knows inode]
  cases kept : file.hardlink with
  | none =>
      rw [if_neg (Option.some_ne_none inode).symm, Option.or_none]
      rfl
  | some own =>
      change ((hardlinkQ.hardlinkQAdd own 0 (some file.entry.fullname) false).hardlinkQGet
        inode).map _ = _
      rw [HardlinkQ.hardlinkQGet_hardlinkQAdd]
      by_cases same : own = inode
      · rw [if_pos same, if_pos (congrArg some same), Option.map_or]
        rfl
      · rw [if_neg same, if_neg (fun both => same (Option.some.inj both)), Option.or_none]

/-! ## What a decoder makes of a name -/

/-- What a decoder makes the name a link to, if it has restored some names. An inode that is
0 in print is not looked up. -/
def target (file : NamedFile) (decoderQ : HardlinkQ) (before : List NamedFile) :
    Option (Option CString) :=
  if printedIno file.entry.attr.stIno = 0 then none
  else known decoderQ before (printedIno file.entry.attr.stIno)

/-- A name that comes back from a backup, behind the names `before` of the same backup and
those that the session put out `earlier`.

A symbolic link has one name and a target. The names of the sections of a huge file fit the
decoder's buffer, and if the file is linked, its inode is 0 in print. The first name of a
linked file has an inode that is new to the decoder, and unless the file is empty, an inode
number that is new to the session; for each later name the decoder has the first one. -/
structure Supported (file : NamedFile) (decoderQ : HardlinkQ)
    (earlier before : List NamedFile) : Prop where
  symbolicLink : file.entry.attr.fileType = .symbolicLink →
    file.entry.attr.stNlink ≤ 1 ∧ file.data ≠ []
  namesFit : file.entry.attr.fileType = .regular → tlmMaxTarImage < file.data.length →
    TarStream.sectionNames file.entry.fullname 1 file.data.length < tlmMaxPathName
  sections : file.Linked → tlmMaxTarImage < file.data.length →
    printedIno file.entry.attr.stIno = 0
  linked : file.Linked → file.target decoderQ before =
    (file.firstName before).map fun first => some first.entry.fullname
  contents : file.Linked → file.firstName before = none →
    file.data = [] ∨ ¬ file.DataPut (earlier ++ before)

section Decoding

variable {args : RestoreArgs} {decoderQ hardlinkQ : HardlinkQ} {earlier before : List NamedFile}
  {entries : List ArchiveEntry} {segment rest : List UInt8} {puts : List Put}

/-- A file of which an earlier name was restored has its inode number put out. -/
theorem DataPut.of_firstName {first : NamedFile} (found : file.firstName before = some first) :
    file.DataPut (earlier ++ before) := by
  unfold firstName at found
  have chosen := List.find?_some found
  have same : file.SameFile first := of_decide_eq_true chosen
  exact ⟨same.1.2, first, List.mem_append_right _ (List.mem_of_find?_eq_some found), same.2.1,
    same.2.2.2.symm⟩

/-- A header with data of a file is restored as a file, if the decoder does not find it. -/
theorem asFile (regular : file.entry.attr.fileType = .regular)
    (unseen : file.Linked → printedIno file.entry.attr.stIno ≠ 0 →
      hardlinkQ.hardlinkQGet (printedIno file.entry.attr.stIno) = none) :
    AsFile hardlinkQ file.entry.attr.stIno (TarStream.linkflagOf file.entry.attr [])
      file.hardlink := by
  unfold TarStream.linkflagOf hardlink
  rw [regular]
  dsimp only
  by_cases several : 1 < file.entry.attr.stNlink
  · have isLinked : file.Linked := ⟨regular, several⟩
    rw [if_pos several, if_pos isLinked]
    exact .link (unseen isLinked)
  · have single : ¬ file.Linked := fun both => several both.2
    rw [if_neg several, if_neg single, if_pos rfl]
    exact .normal

theorem Knows.unseen (knows : Knows decoderQ before hardlinkQ)
    (missing : file.target decoderQ before = none)
    (counted : printedIno file.entry.attr.stIno ≠ 0) :
    hardlinkQ.hardlinkQGet (printedIno file.entry.attr.stIno) = none := by
  rw [target, if_neg counted, ← knows] at missing
  exact Option.map_eq_none_iff.mp missing

/-- The file of which a decoder makes the name a link. -/
theorem Knows.found (knows : Knows decoderQ before hardlinkQ) {old : CString}
    (present : file.target decoderQ before = some (some old)) :
    printedIno file.entry.attr.stIno ≠ 0 ∧ ∃ node,
      hardlinkQ.hardlinkQGet (printedIno file.entry.attr.stIno) = some node ∧
        node.path = some old := by
  unfold target at present
  split at present
  · cases present
  · next counted =>
      rw [← knows] at present
      exact ⟨counted, Option.map_eq_some_iff.mp present⟩

/-- A regular file without an earlier name is restored with its contents. -/
theorem archived_first (regular : file.entry.attr.fileType = .regular)
    (first : file.firstName before = none) :
    file.archived before = .regularFile file.entry.fullname file.data := by
  unfold archived
  rw [regular, if_neg (by decide), first]

/-- A later name is restored as a link to the first. -/
theorem archived_later (regular : file.entry.attr.fileType = .regular) {first : NamedFile}
    (found : file.firstName before = some first) :
    file.archived before = .hardLink file.entry.fullname first.entry.fullname := by
  unfold archived
  rw [regular, if_neg (by decide), found]

/-- The header of a symbolic link of one name. -/
theorem decodes_symbolicLink (all : RestoresAll args) (accepted : file.Accepted)
    (symbolic : file.entry.attr.fileType = .symbolicLink) (single : file.entry.attr.stNlink ≤ 1)
    (nonempty : file.data ≠ [])
    (header : HeaderPuts (TarStream.linkflagOf file.entry.attr file.data) file.data.length
      file.entry.attr.stIno file.entry.fullname file.data puts)
    (represents : Represents puts segment) :
    Decodes args (.between (segment ++ rest) hardlinkQ entries)
      (.between rest (DecoderView.linked false file.hardlink file.entry.fullname hardlinkQ)
        (entries ++ [file.archived before])) := by
  obtain ⟨-, linkFree, fits⟩ := accepted.target symbolic
  have notLinked : ¬ file.Linked := by
    intro both
    have regular := both.1
    rw [symbolic] at regular
    cases regular
  have flag : TarStream.linkflagOf file.entry.attr file.data = lfSymlink := by
    unfold TarStream.linkflagOf
    rw [symbolic]
    dsimp only
    rw [if_neg (Nat.not_lt.mpr single), if_neg nonempty]
  have archived_ : file.archived before = .symbolicLink file.entry.fullname file.data := by
    unfold archived
    rw [if_pos symbolic]
  rw [flag] at header
  rw [archived_, hardlink, if_neg notLinked]
  apply Decodes.headerPuts header represents accepted.named.path linkFree fits
  · exact Nat.le_refl rest.length
  · intro tarHdr writer header sees
    exact Sees.symlink_step all sees header accepted.named.path linkFree

/-- The header of a later name, if the decoder has the first one. -/
theorem decodes_later (all : RestoresAll args) (accepted : file.Accepted)
    (isLinked : file.Linked)
    (header : HeaderPuts (TarStream.linkflagOf file.entry.attr []) file.data.length
      file.entry.attr.stIno file.entry.fullname [] puts)
    (represents : Represents puts segment) (knows : Knows decoderQ before hardlinkQ)
    {first : NamedFile} (found : file.firstName before = some first)
    (present : file.target decoderQ before = some (some first.entry.fullname)) :
    Decodes args (.between (segment ++ rest) hardlinkQ entries)
      (.between rest (DecoderView.linked false file.hardlink file.entry.fullname hardlinkQ)
        (entries ++ [file.archived before])) := by
  obtain ⟨counted, node, listed, old⟩ := knows.found present
  have kept : DecoderView.linked false file.hardlink file.entry.fullname hardlinkQ =
      hardlinkQ := by
    rw [hardlink, if_pos isLinked]
    exact HardlinkQ.hardlinkQAdd_of_some listed _ _ _
  have flag : TarStream.linkflagOf file.entry.attr [] = lfLink := by
    unfold TarStream.linkflagOf
    rw [isLinked.1]
    dsimp only
    rw [if_pos isLinked.2]
  rw [flag] at header
  rw [archived_later isLinked.1 found, kept]
  apply Decodes.headerPuts header represents accepted.named.path List.not_mem_nil (by decide)
  · exact Nat.le_refl rest.length
  · intro tarHdr writer header sees
    exact Sees.hardLink_step all sees header accepted.named.path counted listed old

/-- The `HUMONGUS` header and the sections of a huge file. -/
theorem decodes_sections (all : RestoresAll args) (plain : args.dar = false)
    (accepted : file.Accepted) (regular : file.entry.attr.fileType = .regular)
    (huge : tlmMaxTarImage < file.data.length) {tarHdr : TlmTarHdr} {text sections : List Put}
    (header : EntryHeader tarHdr lfHumongus
      (hugeText file.data.length file.entry.fullname).length 0 [] [])
    (filled : Filled (hugeText file.data.length file.entry.fullname) text)
    (sectionPuts : SectionPuts (TarStream.linkflagOf file.entry.attr []) file.entry.attr.stIno
      file.entry.fullname 1 file.data sections)
    (represents : Represents (.header tarHdr :: text ++ sections) segment)
    (first : file.firstName before = none) (supported : file.Supported decoderQ earlier before) :
    Decodes args (.between (segment ++ rest) hardlinkQ entries)
      (.between rest (DecoderView.linked false file.hardlink file.entry.fullname hardlinkQ)
        (entries ++ [file.archived before])) := by
  have path := accepted.named.path
  have fits : 0 + TarStream.sectionNames file.entry.fullname 1 file.data.length <
      tlmMaxPathName := by
    rw [Nat.zero_add]
    exact supported.namesFit regular huge
  have nonempty : file.data ≠ [] := by
    intro empty
    rw [empty] at huge
    exact Nat.not_lt_zero _ huge
  -- an inode that is 0 in print is not looked up, whatever the sections before have added
  have sectionFile : ∀ queue, AsFile queue file.entry.attr.stIno
      (TarStream.linkflagOf file.entry.attr []) file.hardlink := fun queue =>
    asFile regular fun isLinked counted => absurd (supported.sections isLinked huge) counted
  obtain ⟨front, back, rfl, nameBytes, sectionBytes⟩ := represents.split
  obtain ⟨view, left, inside, named⟩ := @Decodes.hugeHeader args hardlinkQ entries front
    (back ++ rest) tarHdr text file.entry.fullname file.data header filled path
    accepted.ordinary nameBytes
  rw [List.append_assoc, archived_first regular first, ← plain]
  exact named.trans (Decodes.sections all sectionFile sectionPuts path sectionBytes inside left
    nonempty fits)

/-- The decoder restores what a name was put out as. -/
theorem decodes (all : RestoresAll args) (plain : args.dar = false) (accepted : file.Accepted)
    (put : file.PutsAs (decide (file.DataPut (earlier ++ before))) puts)
    (represents : Represents puts segment) (knows : Knows decoderQ before hardlinkQ)
    (supported : file.Supported decoderQ earlier before) :
    Decodes args (.between (segment ++ rest) hardlinkQ entries)
      (.between rest (DecoderView.linked false file.hardlink file.entry.fullname hardlinkQ)
        (entries ++ [file.archived before])) := by
  -- without an earlier name nothing is found, whether the data are there or not
  have unseen : file.firstName before = none → file.Linked →
      printedIno file.entry.attr.stIno ≠ 0 →
        hardlinkQ.hardlinkQGet (printedIno file.entry.attr.stIno) = none := by
    intro first isLinked
    have missing := supported.linked isLinked
    rw [first, Option.map_none] at missing
    exact knows.unseen missing
  have whole : ¬ file.DataPut (earlier ++ before) → file.firstName before = none := by
    intro missing
    cases found : file.firstName before with
    | none => rfl
    | some first => exact absurd (.of_firstName found) missing
  generalize given : decide (file.DataPut (earlier ++ before)) = done at put
  cases put with
  | symbolicLink symbolic header =>
      obtain ⟨single, nonempty⟩ := supported.symbolicLink symbolic
      exact decodes_symbolicLink all accepted symbolic single nonempty header represents
  | contents regular image contents =>
      have first := whole (of_decide_eq_false given)
      rw [archived_first regular first, ← plain]
      exact Decodes.regularFile all (asFile regular (unseen first)) contents represents
        accepted.named.path image
  | name regular image header =>
      have dataPut := of_decide_eq_true given
      have isLinked : file.Linked := ⟨regular, dataPut.1⟩
      cases found : file.firstName before with
      | none =>
          -- only an empty file can do without its data
          have empty : file.data = [] :=
            (supported.contents isLinked found).resolve_right fun missing => missing dataPut
          rw [empty] at header
          have contents : FilePuts (TarStream.linkflagOf file.entry.attr []) file.entry.attr.stIno
              file.entry.fullname [] puts := ⟨puts, [], (List.append_nil _).symm, header, .nil⟩
          rw [archived_first regular found, empty, ← plain]
          exact Decodes.regularFile all (asFile regular (unseen found)) contents represents
            accepted.named.path (Nat.zero_le _)
      | some first =>
          have present := supported.linked isLinked
          rw [found, Option.map_some] at present
          exact decodes_later all accepted isLinked header represents knows found present
  | hugeContents regular huge header filled sectionPuts =>
      exact decodes_sections all plain accepted regular huge header filled sectionPuts represents
        (whole (of_decide_eq_false given)) supported
  | hugeName regular huge header filled named =>
      -- with an inode that is 0 in print, the file has no first name that a decoder would find
      have dataPut := of_decide_eq_true given
      have isLinked : file.Linked := ⟨regular, dataPut.1⟩
      have first := supported.linked isLinked
      rw [target, if_pos (supported.sections isLinked huge)] at first
      rcases supported.contents isLinked (Option.map_eq_none_iff.mp first.symm) with empty | missing
      · rw [empty] at huge
        exact absurd huge (Nat.not_lt_zero _)
      · exact absurd dataPut missing

end Decoding

end NamedFile

end Ndmpd
