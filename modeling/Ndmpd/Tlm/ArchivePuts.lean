import Ndmpd.Tlm.EncoderSteps

/-!
# What the encoder emits

For an encoder that is granted every record it asks for, `Emits stream next puts` says
which grants lead from one stream to the next. Data comes out in pieces that together
are the data and its padding (`Filled.represents`), and a long name or link target is a
header with the text behind it (`NamePuts`). The header of an entry says what
`EntryHeader` lists, and the contents of a file are sections with a header each
(`SectionPuts`).
-/

namespace Ndmpd

open Foundation

/-- Every grant holds the next piece of the data, until none is left. -/
inductive Filled : List UInt8 → List Put → Prop where
  | nil : Filled [] []
  | cons {mem : List UInt8} {granted : Nat} {puts : List Put} :
      0 < granted → 512 ∣ granted → granted ≤ roundToRecords mem.length →
        Filled (mem.drop granted) puts → Filled mem (.data granted (mem.take granted) :: puts)

/-- No data takes no grants. -/
theorem Filled.of_nil {puts : List Put} (filled : Filled [] puts) : puts = [] := by
  cases filled with
  | nil => rfl
  | cons positive _ most _ =>
      have nothing : roundToRecords ([] : List UInt8).length = 0 := rfl
      omega

/-- The pieces of data together are the data, padded to whole records. -/
theorem Filled.represents {mem content : List UInt8} {puts : List Put} (filled : Filled mem puts)
    (represents : Represents puts content) :
    ∃ pad, content = mem ++ pad ∧ mem.length + pad.length = roundToRecords mem.length := by
  induction filled generalizing content with
  | nil =>
      cases represents
      exact ⟨[], rfl, rfl⟩
  | @cons mem granted puts positive records most _ ih =>
      cases represents with
      | cons holds rest =>
          obtain ⟨⟨fill, rfl⟩, length⟩ := holds
          obtain ⟨pad, rfl, padded⟩ := ih rest
          rw [List.length_append, List.length_take] at length
          rw [List.length_drop] at padded
          by_cases whole : granted ≤ mem.length
          · have none : fill = [] := List.length_eq_zero_iff.mp (by omega)
            refine ⟨pad, ?_, ?_⟩
            · rw [none, List.append_nil, ← List.append_assoc, List.take_append_drop]
            · unfold roundToRecords recordSize at padded most ⊢
              omega
          · have zero : mem.length - granted = 0 := by
              omega
            have nothing : roundToRecords 0 = 0 := rfl
            rw [zero, nothing] at padded
            refine ⟨fill ++ pad, ?_, ?_⟩
            · rw [List.take_of_length_le (by omega), List.drop_of_length_le (by omega),
                List.nil_append, List.append_assoc]
            · rw [List.length_append]
              unfold roundToRecords recordSize at most ⊢
              omega

/-- The grants that lead from one stream to the next, with more to come. -/
structure Emits (stream next : TarStream) (puts : List Put) : Prop where
  puts : next.puts = stream.puts ++ puts
  forever : next.grantsLeft = none

namespace Emits

variable {first second third : TarStream} {before after : List Put}

theorem refl {stream : TarStream} (forever : stream.grantsLeft = none) : Emits stream stream [] :=
  ⟨(List.append_nil _).symm, forever⟩

theorem trans (front : Emits first second before) (back : Emits second third after) :
    Emits first third (before ++ after) := by
  refine ⟨?_, back.forever⟩
  rw [back.puts, front.puts, List.append_assoc]

end Emits

/-! ## Data -/

theorem WritePool.granted_pos (pool : WritePool) {want : Nat} (positive : 0 < want)
    (ordinary : want < 2 ^ 32 - 512) : 0 < pool.granted want := by
  have room := pool.makeRoom_room
  have above := roundToRecords_ge want
  rw [pool.granted_eq ordinary]
  omega

theorem WritePool.granted_le (pool : WritePool) {want : Nat} (ordinary : want < 2 ^ 32 - 512) :
    pool.granted want ≤ roundToRecords want := by
  rw [pool.granted_eq ordinary]
  exact Nat.min_le_left _ _

namespace TarStream

theorem putHeader_emits {stream : TarStream} (forever : stream.grantsLeft = none)
    (tarHdr : TlmTarHdr) :
    ∃ next, stream.putHeader tarHdr = some next ∧ Emits stream next [.header tarHdr] := by
  obtain ⟨next, put, puts, -, grants, -⟩ :=
    putHeader_of_granting (granting_of_unlimited forever) tarHdr
  refine ⟨next, put, puts, ?_⟩
  rw [grants, forever]
  rfl

theorem putData_emits {stream : TarStream} (forever : stream.grantsLeft = none) (want : Nat)
    (zero : Bool) (bytes : Nat → List UInt8) :
    ∃ next, stream.putData want zero bytes = some next ∧
      Emits stream next [.data (stream.pool.granted want)
        ((bytes (stream.pool.granted want)).take (stream.pool.granted want))] := by
  obtain ⟨next, put, puts, -, grants, -⟩ :=
    putData_of_granting (granting_of_unlimited forever) want zero bytes
  refine ⟨next, put, puts, ?_⟩
  rw [grants, forever]
  rfl

theorem outputMemLoop_emits (rounds : Nat) (stream : TarStream) (mem : List UInt8)
    (forever : stream.grantsLeft = none) (ordinary : mem.length < 2 ^ 31)
    (enough : mem.length ≤ rounds) :
    ∃ puts, Emits stream (outputMemLoop rounds stream mem) puts ∧ Filled mem puts := by
  induction rounds generalizing stream mem with
  | zero =>
      have nothing : mem = [] := List.length_eq_zero_iff.mp (by omega)
      subst nothing
      exact ⟨[], .refl forever, .nil⟩
  | succ rounds ih =>
      unfold outputMemLoop
      by_cases nothing : mem = []
      · subst nothing
        exact ⟨[], .refl forever, .nil⟩
      · have positive : 0 < mem.length := List.length_pos_iff.mpr nothing
        obtain ⟨next, put, emits⟩ := putData_emits forever mem.length false
          fun actualSize => mem.take actualSize
        have granted := stream.pool.granted_pos positive (by omega)
        have most := stream.pool.granted_le (show mem.length < 2 ^ 32 - 512 by omega)
        have records := stream.pool.granted_dvd mem.length
        rw [if_neg nothing, put]
        dsimp only
        obtain ⟨puts, rest, filled⟩ := ih next (mem.drop (stream.pool.granted mem.length))
          emits.forever (by rw [List.length_drop]; omega) (by rw [List.length_drop]; omega)
        refine ⟨_, emits.trans rest, ?_⟩
        rw [List.take_take, Nat.min_self]
        exact .cons granted records most filled

theorem outputMem_emits {stream : TarStream} (mem : List UInt8)
    (forever : stream.grantsLeft = none) (ordinary : mem.length < 2 ^ 31) :
    ∃ puts, Emits stream (stream.outputMem mem) puts ∧ Filled mem puts :=
  outputMemLoop_emits mem.length stream mem forever ordinary (Nat.le_refl _)

end TarStream

/-! ## Headers -/

/-- What the decoder reads off the header of an entry. A name that does not fit is
somewhere else. -/
structure EntryHeader (tarHdr : TlmTarHdr) (linkflag : UInt8) (size ino : Nat)
    (name link : CString) : Prop where
  checksum : tlmVfyTarChecksum tarHdr.record = 1
  thLinkflag : tarHdr.thLinkflag = linkflag
  thSize : tarHdr.thSize = octalField _ 11 size
  thHlinkIno : linkflag = lfLink → tarHdr.thHlinkIno = octalField _ 11 (ino % 2 ^ 32)
  thName : name.length < tlmNameSize → tarHdr.thName = .ofString _ name
  thName_long : tlmNameSize ≤ name.length → tarHdr.record.head? = longnamePrefix.head?
  thLinkname : link.length < tlmNameSize → tarHdr.thLinkname = .ofString _ link

/-- A text that does not fit the header of its entry has a header of its own. -/
inductive NamePuts (linkflag : UInt8) (text : CString) : List Put → Prop where
  | short : text.length < tlmNameSize → NamePuts linkflag text []
  | long {tarHdr : TlmTarHdr} {puts : List Put} :
      tlmNameSize ≤ text.length → tlmVfyTarChecksum tarHdr.record = 1 →
        tarHdr.thLinkflag = linkflag → tarHdr.thSize = octalField _ 11 text.length →
          Filled text puts → NamePuts linkflag text (.header tarHdr :: puts)

/-- The header of an entry, with what does not fit it before it. -/
inductive HeaderPuts (linkflag : UInt8) (size ino : Nat) (name link : CString) :
    List Put → Prop where
  | mk {names links : List Put} {tarHdr : TlmTarHdr} :
      NamePuts lfLongname name names → NamePuts lfLonglink link links →
        EntryHeader tarHdr linkflag size ino name link →
          HeaderPuts linkflag size ino name link (names ++ (links ++ [.header tarHdr]))

namespace TarStream

variable {stream : TarStream}

theorem putLongName_emits (forever : stream.grantsLeft = none) (owned : TlmTarHdr)
    {name : CString} (long : tlmNameSize ≤ name.length) (ordinary : name.length < 2 ^ 31) :
    ∃ next puts, stream.putLongName owned name = some next ∧ Emits stream next puts ∧
      NamePuts lfLongname name puts := by
  unfold putLongName
  dsimp only
  generalize header : tlmBuildHeaderChecksum _ = tarHdr
  obtain ⟨next, put, emits⟩ := putHeader_emits forever tarHdr
  obtain ⟨puts, text, filled⟩ := @outputMem_emits { next with fileCount := next.fileCount + 1 }
    name emits.forever ordinary
  rw [put, Option.map_some]
  refine ⟨_, _, rfl, emits.trans ⟨text.puts, text.forever⟩, ?_⟩
  subst header
  exact .long long (tlmVfyTarChecksum_build _) rfl rfl filled

theorem putLongLink_emits (forever : stream.grantsLeft = none) (owned : TlmTarHdr)
    {link : CString} (long : tlmNameSize ≤ link.length) (ordinary : link.length < 2 ^ 31) :
    ∃ next puts, stream.putLongLink owned link = some next ∧ Emits stream next puts ∧
      NamePuts lfLonglink link puts := by
  unfold putLongLink
  dsimp only
  generalize header : tlmBuildHeaderChecksum _ = tarHdr
  obtain ⟨next, put, emits⟩ := putHeader_emits forever tarHdr
  obtain ⟨puts, text, filled⟩ := @outputMem_emits { next with fileCount := next.fileCount + 1 }
    link emits.forever ordinary
  rw [put, Option.map_some]
  refine ⟨_, _, rfl, emits.trans ⟨text.puts, text.forever⟩, ?_⟩
  subst header
  exact .long long (tlmVfyTarChecksum_build _) rfl rfl filled

/-- A record with a made-up name starts as these names do. -/
theorem head_record_longName {tarHdr : TlmTarHdr} {count : Nat} {suffix : CString}
    (named : tarHdr.thName = .ofString _ (longName count suffix)) :
    tarHdr.record.head? = longnamePrefix.head? := by
  obtain ⟨first, others, text⟩ : ∃ first others, longnamePrefix = first :: others :=
    ⟨_, _, show longnamePrefix = 46 :: longnamePrefix.tail by decide +kernel⟩
  rw [TlmTarHdr.record, named, longName, text]
  rfl

theorem putEntryHeader_emits (forever : stream.grantsLeft = none) (owned : TlmTarHdr) (attr : Stat)
    (name link : CString) : ∃ thName thLinkname,
    Emits stream (stream.putEntryHeader owned attr name link)
      [.header (entryHeader owned attr link thName thLinkname)] ∧
      EntryHeader (entryHeader owned attr link thName thLinkname) (linkflagOf attr link) attr.stSize
        attr.stIno name link := by
  unfold putEntryHeader
  dsimp only
  generalize linkNumber : (if tlmNameSize ≤ name.length then stream.fileCount + 1
    else stream.fileCount) = linkCount
  refine ⟨if tlmNameSize ≤ name.length then longName stream.fileCount filSuffix else name,
    if tlmNameSize ≤ link.length then longName linkCount slkSuffix else link, ?_, ?_⟩
  · obtain ⟨next, put, emits⟩ := putHeader_emits forever (entryHeader owned attr link
      (if tlmNameSize ≤ name.length then longName stream.fileCount filSuffix else name)
      (if tlmNameSize ≤ link.length then longName linkCount slkSuffix else link))
    rw [put]
    exact ⟨emits.puts, emits.forever⟩
  · refine ⟨tlmVfyTarChecksum_build _, rfl, rfl, ?_, ?_, ?_, ?_⟩
    · intro isLink
      unfold entryHeader tlmBuildHeaderChecksum
      dsimp only
      rw [if_pos isLink]
    · intro short
      unfold entryHeader tlmBuildHeaderChecksum
      dsimp only
      rw [if_neg (by omega)]
    · intro long
      unfold entryHeader tlmBuildHeaderChecksum
      dsimp only
      rw [if_pos long]
      exact head_record_longName rfl
    · intro short
      unfold entryHeader tlmBuildHeaderChecksum
      dsimp only
      rw [if_neg (by omega)]

/-- `output_file_header` ends with the header of the entry. Before it are the name and the link
target if they do not fit. -/
theorem outputFileHeader_puts (forever : stream.grantsLeft = none) (owners : OwnerNames)
    (name : CString) {link : CString} (attr : Stat) (sectionNo : Nat)
    (ordinary : link.length < 2 ^ 31) : ∃ names links thName thLinkname,
    Emits stream (stream.outputFileHeader owners name link attr sectionNo)
      (names ++ (links ++
        [.header (entryHeader (ownedHeader owners attr) attr link thName thLinkname)])) ∧
      NamePuts lfLongname (sectionName name sectionNo) names ∧ NamePuts lfLonglink link links ∧
      EntryHeader (entryHeader (ownedHeader owners attr) attr link thName thLinkname)
        (linkflagOf attr link) attr.stSize attr.stIno (sectionName name sectionNo) link := by
  have cut : (sectionName name sectionNo).length < 2 ^ 31 := by
    have most : tlmMaxPathName = 1088 := rfl
    unfold sectionName
    split <;> (rw [List.length_take]; omega)
  unfold outputFileHeader
  dsimp only
  generalize sectionName name sectionNo = name at cut ⊢
  generalize ownedHeader owners attr = owned
  obtain ⟨named, names, putName, emitsName, namePuts⟩ : ∃ named names,
      (if tlmNameSize ≤ name.length then stream.putLongName owned name else some stream) =
        some named ∧ Emits stream named names ∧ NamePuts lfLongname name names := by
    by_cases long : tlmNameSize ≤ name.length
    · rw [if_pos long]
      exact putLongName_emits forever owned long cut
    · rw [if_neg long]
      exact ⟨stream, [], rfl, .refl forever, .short (by omega)⟩
  rw [putName]
  dsimp only
  obtain ⟨linked, links, putLink, emitsLink, linkPuts⟩ : ∃ linked links,
      (if tlmNameSize ≤ link.length then named.putLongLink owned link else some named) =
        some linked ∧ Emits named linked links ∧ NamePuts lfLonglink link links := by
    by_cases long : tlmNameSize ≤ link.length
    · rw [if_pos long]
      exact putLongLink_emits emitsName.forever owned long ordinary
    · rw [if_neg long]
      exact ⟨named, [], rfl, .refl emitsName.forever, .short (by omega)⟩
  rw [putLink]
  dsimp only
  obtain ⟨thName, thLinkname, emits, header⟩ :=
    putEntryHeader_emits emitsLink.forever owned attr name link
  exact ⟨names, links, thName, thLinkname, emitsName.trans (emitsLink.trans emits), namePuts,
    linkPuts, header⟩

theorem outputFileHeader_emits (forever : stream.grantsLeft = none) (owners : OwnerNames)
    (name : CString) {link : CString} (attr : Stat) (sectionNo : Nat)
    (ordinary : link.length < 2 ^ 31) :
    ∃ puts, Emits stream (stream.outputFileHeader owners name link attr sectionNo) puts ∧
      HeaderPuts (linkflagOf attr link) attr.stSize attr.stIno (sectionName name sectionNo) link
        puts := by
  obtain ⟨names, links, thName, thLinkname, emits, namePuts, linkPuts, header⟩ :=
    @outputFileHeader_puts stream forever owners name link attr sectionNo ordinary
  exact ⟨_, emits, .mk namePuts linkPuts header⟩

/-- A `HUMONGUS` header is followed by the size and the name of the file. -/
theorem outputHumongusHeader_emits (forever : stream.grantsLeft = none) {fullname : CString}
    (fileSize : Nat) (ordinary : fullname.length < 2 ^ 30) :
    ∃ tarHdr puts, Emits stream (stream.outputHumongusHeader fullname fileSize)
        (.header tarHdr :: puts) ∧
      EntryHeader tarHdr lfHumongus (20 + 1 + fullname.length + 1) 0 [] [] ∧
      Filled (CharArray.ofString (20 + 1 + fullname.length + 1)
        (numeral 10 fileSize ++ 32 :: fullname)).bytes puts := by
  unfold outputHumongusHeader
  dsimp only
  generalize header : tlmBuildHeaderChecksum _ = tarHdr
  obtain ⟨next, put, emits⟩ := putHeader_emits forever tarHdr
  rw [put]
  dsimp only
  obtain ⟨puts, text, filled⟩ := @outputMem_emits next
    (CharArray.ofString (20 + 1 + fullname.length + 1)
      (numeral 10 fileSize ++ 32 :: fullname)).bytes
    emits.forever (by rw [CharArray.length_bytes]; omega)
  refine ⟨tarHdr, puts, emits.trans text, ?_, filled⟩
  subst header
  refine ⟨tlmVfyTarChecksum_build _, rfl, rfl, ?_, ?_, ?_, ?_⟩
  · intro isLink
    exact absurd isLink (by decide)
  · intro _
    rfl
  · intro long
    exact absurd long (by decide)
  · intro _
    rfl

end TarStream

/-! ## Contents -/

/-- A file that can be opened and whose reads all fill their requests. -/
structure FileRun.FillsRequests (run : FileRun) (contents : List UInt8) : Prop where
  opened : run.opened = true
  nameAllocated : run.nameAllocated = true
  reads : ∀ call seekSpot request, seekSpot + request ≤ contents.length →
    run.reads call seekSpot request = .bytes ((contents.drop seekSpot).take request)
  patient : contents.length ≤ run.readsBeforeAbort

/-- The sections of a file, from a section number on: each is a header for its size and
as much of the data. -/
inductive SectionPuts (linkflag : UInt8) (ino : Nat) (fullname : CString) :
    Nat → List UInt8 → List Put → Prop where
  | done {sectionNo : Nat} : SectionPuts linkflag ino fullname sectionNo [] []
  | more {sectionNo : Nat} {bytes : List UInt8} {header puts rest : List Put} : bytes ≠ [] →
      HeaderPuts linkflag (min bytes.length tlmMaxTarImage) ino
        (TarStream.sectionName fullname sectionNo) [] header →
        Filled (bytes.take tlmMaxTarImage) puts →
          SectionPuts linkflag ino fullname (sectionNo + 1) (bytes.drop tlmMaxTarImage) rest →
            SectionPuts linkflag ino fullname sectionNo bytes (header ++ (puts ++ rest))

namespace TarStream

/-- The cursor stands where `left` of the contents and `sectionSize` of a section remain. -/
structure AtContents (contents left : List UInt8) (cursor : DataCursor) : Prop where
  place : left = contents.drop cursor.seekSpot
  fileSize : cursor.fileSize = left.length
  sectionSize : cursor.sectionSize ≤ left.length
  image : cursor.sectionSize ≤ tlmMaxTarImage

variable {entry : FileEntry} {owners : OwnerNames} {fullname : CString} {run : FileRun}
  {contents : List UInt8}

/-- One round of the loops, inside a section: a read fills the front of what is granted. -/
theorem outputData_round {putHeader : TarStream → Nat → Nat → TarStream} {reads : Nat}
    {stream opened : TarStream} {cursor inside : DataCursor} {left : List UInt8}
    (fills : run.FillsRequests contents) (more : left ≠ [])
    (opens : stream.openSection putHeader cursor = (opened, inside))
    (same : inside.fileSize = cursor.fileSize) (forever : opened.grantsLeft = none)
    (at_ : AtContents contents left inside) (positive : 0 < inside.sectionSize) :
    ∃ next granted, 0 < granted ∧ 512 ∣ granted ∧
      granted ≤ roundToRecords (left.take inside.sectionSize).length ∧
      Emits opened next [.data granted ((left.take inside.sectionSize).take granted)] ∧
      outputData run putHeader (reads + 1) stream cursor = outputData run putHeader reads next
        (inside.advance (min inside.sectionSize granted)) := by
  have image : inside.sectionSize ≤ 0o17777777770 := at_.image
  have ordinary : inside.sectionSize < 2 ^ 32 - 512 := by
    omega
  have granted := opened.pool.granted_pos positive ordinary
  have most := opened.pool.granted_le ordinary
  have records := opened.pool.granted_dvd inside.sectionSize
  have size := at_.sectionSize
  have length : left.length = contents.length - inside.seekSpot := by
    rw [at_.place, List.length_drop]
  have nonempty := List.length_pos_iff.mpr more
  have read := fills.reads inside.call inside.seekSpot
    (min inside.sectionSize (opened.pool.granted inside.sectionSize)) (by omega)
  rw [← at_.place] at read
  obtain ⟨next, put, emits⟩ := putData_emits forever inside.sectionSize false fun _ =>
    left.take (min inside.sectionSize (opened.pool.granted inside.sectionSize))
  have piece : (left.take (min inside.sectionSize (opened.pool.granted inside.sectionSize))).take
      (opened.pool.granted inside.sectionSize) =
        (left.take inside.sectionSize).take (opened.pool.granted inside.sectionSize) := by
    rw [List.take_take, List.take_take]
    congr 1
    omega
  rw [piece] at emits
  refine ⟨next, opened.pool.granted inside.sectionSize, granted, records, ?_, emits, ?_⟩
  · rw [List.length_take, Nat.min_eq_left size]
    exact most
  · have unfinished : cursor.fileSize ≠ 0 := by
      rw [← same, at_.fileSize]
      omega
    have whole : (left.take (min inside.sectionSize (opened.pool.granted inside.sectionSize))).take
        (min inside.sectionSize (opened.pool.granted inside.sectionSize)) =
          left.take (min inside.sectionSize (opened.pool.granted inside.sectionSize)) :=
      List.take_of_length_le (List.length_take_le _ _)
    rw [outputData, if_neg unfinished, opens]
    dsimp only
    rw [read]
    dsimp only
    rw [whole, put]
    dsimp only
    rw [List.length_take, Nat.min_eq_left (by omega)]

/-- Behind a read the cursor stands behind what it returned. -/
theorem AtContents.advance {left : List UInt8} {cursor : DataCursor} {count : Nat}
    (at_ : AtContents contents left cursor) (positive : 0 < count)
    (within : count ≤ cursor.sectionSize) :
    AtContents contents (left.drop count) (cursor.advance count) := by
  obtain ⟨place, fileSize, sectionSize, image⟩ := at_
  have nonzero : count ≠ 0 := by
    omega
  refine ⟨?_, ?_, ?_, ?_⟩
  · rw [place, List.drop_drop]
    rfl
  · rw [List.length_drop, DataCursor.advance]
    dsimp only
    omega
  · rw [List.length_drop, DataCursor.advance]
    dsimp only
    rw [if_neg nonzero]
    omega
  · rw [DataCursor.advance]
    dsimp only
    rw [if_neg nonzero]
    omega

/-- From a stream on, the loops put out the rest of a section and, from a section number
on, the sections of the data behind it. -/
def PutsSections (opened : TarStream) (entry : FileEntry) (fullname : CString)
    (current : List UInt8) (sectionNo : Nat) (behind : List UInt8)
    (result : TarStream × DataCursor × DataExit) : Prop :=
  ∃ puts rest, result.2.2 = .finished ∧ Emits opened result.1 (puts ++ rest) ∧
    Filled current puts ∧
    SectionPuts (linkflagOf entry.attr []) entry.attr.stIno fullname sectionNo behind rest

/-- The number of the section that follows the one the cursor is in. -/
def nextSection (cursor : DataCursor) : Nat :=
  if cursor.sectionSize = 0 then cursor.sectionNo else cursor.sectionNo + 1

/-- A piece of a section comes before what is left of it. -/
theorem PutsSections.piece {opened next : TarStream} {inside : DataCursor} {left : List UInt8}
    {granted : Nat} {result : TarStream × DataCursor × DataExit}
    (emits : Emits opened next [.data granted ((left.take inside.sectionSize).take granted)])
    (nonzero : 0 < granted) (records : 512 ∣ granted)
    (most : granted ≤ roundToRecords (left.take inside.sectionSize).length)
    (positive : 0 < inside.sectionSize)
    (after : PutsSections next entry fullname
      ((left.drop (min inside.sectionSize granted)).take
        (inside.advance (min inside.sectionSize granted)).sectionSize)
      (nextSection (inside.advance (min inside.sectionSize granted)))
      ((left.drop (min inside.sectionSize granted)).drop
        (inside.advance (min inside.sectionSize granted)).sectionSize) result) :
    PutsSections opened entry fullname (left.take inside.sectionSize) (inside.sectionNo + 1)
      (left.drop inside.sectionSize) result := by
  obtain ⟨puts, rest, finished, more, filled, sections⟩ := after
  have remains : (inside.advance (min inside.sectionSize granted)).sectionSize =
      inside.sectionSize - min inside.sectionSize granted := by
    rw [DataCursor.advance]
    dsimp only
    rw [if_neg (by omega)]
  have number : nextSection (inside.advance (min inside.sectionSize granted)) =
      inside.sectionNo + 1 := by
    have nothing : min inside.sectionSize granted ≠ 0 := by
      omega
    unfold nextSection
    rw [DataCursor.advance]
    dsimp only
    rw [if_neg nothing]
    by_cases ended : inside.sectionSize - min inside.sectionSize granted = 0
    · rw [if_pos ended, if_pos ended]
    · rw [if_neg ended, if_neg ended]
  rw [number, remains, List.drop_drop, show min inside.sectionSize granted +
    (inside.sectionSize - min inside.sectionSize granted) = inside.sectionSize by omega] at sections
  have behind : (left.drop (min inside.sectionSize granted)).take
      (inside.advance (min inside.sectionSize granted)).sectionSize =
        (left.take inside.sectionSize).drop granted := by
    rw [remains, List.drop_take]
    by_cases whole : granted ≤ inside.sectionSize
    · rw [Nat.min_eq_right whole]
    · rw [Nat.min_eq_left (by omega), show inside.sectionSize - granted = 0 by omega, Nat.sub_self,
        List.take_zero, List.take_zero]
  rw [behind] at filled
  exact ⟨_ :: puts, rest, finished, emits.trans more, .cons nonzero records most filled, sections⟩

theorem putSection_emits {stream : TarStream} (forever : stream.grantsLeft = none)
    (size sectionNo : Nat) :
    ∃ header, Emits stream (entry.putSection owners fullname stream size sectionNo) header ∧
      HeaderPuts (linkflagOf entry.attr []) size entry.attr.stIno (sectionName fullname sectionNo)
        []
        header :=
  @outputFileHeader_emits stream forever owners fullname [] { entry.attr with stSize := size }
    sectionNo (by decide)

/-- A section starts with its header. -/
theorem PutsSections.section {stream opened : TarStream} {header : List Put} {sectionNo : Nat}
    {left : List UInt8} {result : TarStream × DataCursor × DataExit} (nonempty : left ≠ [])
    (emits : Emits stream opened header)
    (headers : HeaderPuts (linkflagOf entry.attr []) (min left.length tlmMaxTarImage)
      entry.attr.stIno (sectionName fullname sectionNo) [] header)
    (after : PutsSections opened entry fullname (left.take (min left.length tlmMaxTarImage))
      (sectionNo + 1) (left.drop (min left.length tlmMaxTarImage)) result) :
    PutsSections stream entry fullname [] sectionNo left result := by
  obtain ⟨puts, rest, finished, more, filled, sections⟩ := after
  have front : left.take (min left.length tlmMaxTarImage) = left.take tlmMaxTarImage := by
    rw [Nat.min_comm, ← List.take_eq_take_min]
  have back : left.drop (min left.length tlmMaxTarImage) = left.drop tlmMaxTarImage := by
    rw [Nat.min_comm, ← List.drop_eq_drop_min]
  rw [front] at filled
  rw [back] at sections
  exact ⟨[], _, finished, emits.trans more, .nil, .more nonempty headers filled sections⟩

/-- The loops put out the rest of the current section and then the sections behind it. -/
theorem outputData_emits (fills : run.FillsRequests contents) (reads : Nat) (stream : TarStream)
    (cursor : DataCursor) (left : List UInt8) (forever : stream.grantsLeft = none)
    (at_ : AtContents contents left cursor) (enough : left.length ≤ reads) :
    PutsSections stream entry fullname (left.take cursor.sectionSize) (nextSection cursor)
      (left.drop cursor.sectionSize)
      (outputData run (entry.putSection owners fullname) reads stream cursor) := by
  induction reads generalizing stream cursor left with
  | zero =>
      have nothing : left = [] := List.length_eq_zero_iff.mp (by omega)
      subst nothing
      have finished : cursor.fileSize = 0 := at_.fileSize
      rw [outputData, if_pos finished, List.take_nil, List.drop_nil]
      exact ⟨[], [], rfl, .refl forever, .nil, .done⟩
  | succ reads ih =>
      by_cases nothing : left = []
      · subst nothing
        have finished : cursor.fileSize = 0 := at_.fileSize
        rw [outputData, if_pos finished, List.take_nil, List.drop_nil]
        exact ⟨[], [], rfl, .refl forever, .nil, .done⟩
      · -- inside a section, a round puts out the next piece
        have inside_ :
            ∀ opened inside, stream.openSection (entry.putSection owners fullname) cursor =
            (opened, inside) → inside.fileSize = cursor.fileSize → opened.grantsLeft = none →
            AtContents contents left inside → 0 < inside.sectionSize →
            PutsSections opened entry fullname (left.take inside.sectionSize) (inside.sectionNo + 1)
              (left.drop inside.sectionSize)
              (outputData run (entry.putSection owners fullname) (reads + 1) stream cursor) := by
          intro opened inside opens same foreverOpened here positive
          obtain ⟨next, granted, nonzero, records, most, emits, round⟩ :=
            @outputData_round run contents (entry.putSection owners fullname) reads stream opened
              cursor inside left fills nothing opens same foreverOpened here positive
          have count : 0 < min inside.sectionSize granted := by
            omega
          rw [round]
          apply PutsSections.piece emits nonzero records most positive
          exact ih next _ _ emits.forever (here.advance count (Nat.min_le_left _ _))
            (by rw [List.length_drop]; omega)
        by_cases between : cursor.sectionSize = 0
        · have length := List.length_pos_iff.mpr nothing
          have size := at_.fileSize
          obtain ⟨header, emits, headers⟩ :=
            @putSection_emits entry owners fullname stream forever (min left.length tlmMaxTarImage)
              cursor.sectionNo
          have opens : stream.openSection (entry.putSection owners fullname) cursor =
              (entry.putSection owners fullname stream (min left.length tlmMaxTarImage)
                cursor.sectionNo,
              { cursor with sectionSize := min left.length tlmMaxTarImage }) := by
            unfold openSection
            rw [if_pos between, size]
          have image : 0 < min left.length tlmMaxTarImage := Nat.lt_min.mpr ⟨length, by decide⟩
          rw [between, List.take_zero, List.drop_zero, nextSection, if_pos between]
          apply PutsSections.section nothing emits headers
          exact inside_ _ _ opens rfl emits.forever
            ⟨at_.place, size, Nat.min_le_left _ _, Nat.min_le_right _ _⟩ image
        · have opens : stream.openSection (entry.putSection owners fullname) cursor =
              (stream, cursor) := by
            unfold openSection
            rw [if_neg between]
          rw [nextSection, if_neg between]
          exact inside_ _ _ opens rfl forever at_ (Nat.pos_of_ne_zero between)

/-- The headers and data of a file whose data is put out. -/
theorem outputContents_emits {stream : TarStream} (fills : run.FillsRequests contents)
    (sectionNo : Nat) (forever : stream.grantsLeft = none) (nonempty : contents ≠ []) :
    ∃ puts, (stream.outputContents owners entry fullname run sectionNo contents.length).2 =
        .finished ∧
      Emits stream (stream.outputContents owners entry fullname run sectionNo contents.length).1
        puts ∧
      SectionPuts (linkflagOf entry.attr []) entry.attr.stIno fullname sectionNo contents puts := by
  have length := List.length_pos_iff.mpr nonempty
  have start : AtContents contents contents ⟨contents.length, 0, sectionNo, 0, 0⟩ :=
    ⟨rfl, rfl, Nat.zero_le _, Nat.zero_le _⟩
  obtain ⟨puts, rest, finished, emits, filled, sections⟩ :=
    @outputData_emits entry owners fullname run contents fills run.readsBeforeAbort stream _ _
      forever start
      fills.patient
  rw [List.take_zero] at filled
  cases filled.of_nil
  unfold outputContents
  rw [if_neg (by omega)]
  exact ⟨rest, finished, emits, sections⟩

/-- A file without data to put out has one header. -/
theorem outputContents_emits_empty {stream : TarStream} (sectionNo : Nat)
    (forever : stream.grantsLeft = none) :
    ∃ puts, (stream.outputContents owners entry fullname run sectionNo 0).2 = .finished ∧
      Emits stream (stream.outputContents owners entry fullname run sectionNo 0).1 puts ∧
      HeaderPuts (linkflagOf entry.attr []) entry.attr.stSize entry.attr.stIno
        (sectionName fullname sectionNo) [] puts := by
  obtain ⟨puts, emits, header⟩ :=
    @outputFileHeader_emits stream forever owners fullname [] entry.attr sectionNo (by decide)
  refine ⟨puts, ?_, ?_, header⟩
  · unfold outputContents
    dsimp only
    cases run.readsBeforeAbort with
    | zero => rfl
    | succ reads => rfl
  · unfold outputContents
    dsimp only
    cases run.readsBeforeAbort with
    | zero => exact emits
    | succ reads => exact emits

end TarStream

/-! ## Entries -/

/-- A security attribute without text is not put out. -/
def NoAclText (aclInfo : Option SecAttr) : Prop :=
  ∀ acl ∈ aclInfo, acl.attrInfo.head?.getD 0 = 0

theorem NoAclText.outputAclHeader {aclInfo : Option SecAttr} (noText : NoAclText aclInfo)
    (stream : TarStream) : stream.outputAclHeader aclInfo = stream := by
  unfold TarStream.outputAclHeader
  cases aclInfo with
  | none => rfl
  | some acl =>
      dsimp only
      rw [if_pos (noText acl rfl)]

/-- An entry whose name can be joined, in the archive and where it is read from. -/
structure FileEntry.Named (entry : FileEntry) (fullname : CString) : Prop where
  short : tlmIsTooLong entry.dir entry.name = false
  joined : tlmCatPath entry.dir entry.name = some fullname
  checked : (tlmCatPath entry.chkdir entry.name).isSome
  noText : NoAclText entry.aclInfo

/-- `tlm_output_file` on a symbolic link. -/
theorem tlmOutputFile_symlink {owners : OwnerNames} {entry : FileEntry} {run : FileRun}
    {stream : TarStream} {hardlinkQ : HardlinkQ} {fullname target : CString}
    (named : entry.Named fullname) (symlink : entry.attr.fileType = .symbolicLink)
    (read : run.readlink = .target target) (fits : target.length < tlmMaxPathName) :
    tlmOutputFile owners entry run stream hardlinkQ =
      (stream.outputFileHeader owners fullname target entry.attr 0, hardlinkQ, 0) := by
  obtain ⟨_, checked⟩ := Option.isSome_iff_exists.mp named.checked
  have kept : target.take (tlmMaxPathName - 1) = target := List.take_of_length_le (by omega)
  have linked : tlmReadlink run = (target, (target.length : Int)) := by
    unfold tlmReadlink
    rw [read]
    dsimp only
    rw [kept]
  unfold tlmOutputFile
  rw [if_neg (by rw [named.short]; decide), named.joined, checked]
  dsimp only
  rw [if_pos symlink, linked]
  dsimp only
  rw [if_neg (by omega)]

/-- `tlm_output_file` on a file that can be opened. -/
theorem tlmOutputFile_opened {owners : OwnerNames} {entry : FileEntry} {run : FileRun}
    {stream : TarStream} {hardlinkQ : HardlinkQ} {fullname : CString}
    (named : entry.Named fullname) (notLink : entry.attr.fileType ≠ .symbolicLink)
    (opened : run.opened = true) (allocated : run.nameAllocated = true) :
    let contents := (stream.outputHugeName fullname entry.attr.stSize).outputContents owners entry
      fullname run (if tlmMaxTarImage < entry.attr.stSize then 1 else 0)
      (if entry.hardlinkDone hardlinkQ then 0 else entry.attr.stSize)
    tlmOutputFile owners entry run stream hardlinkQ =
      (contents.1,
        if contents.2 = .finished ∧ 1 < entry.attr.stNlink ∧ ¬ entry.hardlinkDone hardlinkQ then
          hardlinkQ.hardlinkQAdd entry.attr.stIno stream.pool.bufs.tbsOffset none false
        else hardlinkQ,
        (entry.attr.stSize : Int)) := by
  obtain ⟨_, checked⟩ := Option.isSome_iff_exists.mp named.checked
  have notLost : ¬ (¬ entry.hardlinkDone hardlinkQ ∧ ¬ run.opened) := by
    rintro ⟨-, lost⟩
    exact lost opened
  have notShort : ¬ (tlmMaxTarImage < entry.attr.stSize ∧ ¬ run.nameAllocated) := by
    rintro ⟨-, lost⟩
    exact lost allocated
  have notLong : ¬ tlmIsTooLong entry.dir entry.name = true := by
    rw [named.short]
    decide
  unfold tlmOutputFile
  rw [if_neg notLong, named.joined, checked]
  dsimp only
  rw [if_neg notLink, if_neg notLost, named.noText.outputAclHeader, if_neg notShort]

end Ndmpd
