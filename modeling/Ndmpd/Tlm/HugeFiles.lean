import Ndmpd.Tlm.ArchiveRoundTrip

/-!
# Files in sections

A file above `TLM_MAX_TAR_IMAGE` is put out as a `HUMONGUS` header with its size and its
name and then as sections, each with a header of its own. The decoder keeps the file open
from one section to the next. It also keeps the end of the long name: what has been read
of the names of the sections adds up in one buffer, and a file whose section names do not
fit it together has the buffer overrun (`restoresBefore_iff`).
-/

namespace Ndmpd

open Foundation

/-! ## The name and size of a file in sections -/

/-- The number up to the first blank is split off. -/
theorem RestoreWriter.parseBlank_numeral (size : Nat) {path : CString}
    (absolute : path.head? = some slash) :
    parseBlank (numeral 10 size ++ 32 :: path) = (numeral 10 size, path) := by
  have digits : ∀ byte ∈ numeral 10 size, decide (byte ≠ 32) = true := by
    intro byte listed
    have digit := isDigit_of_mem_numeral (by decide) (by decide) listed
    rw [decide_eq_true_eq]
    rintro rfl
    cases digit
  have noBlank : path.dropWhile (· = 32) = path := by
    cases path with
    | nil => rfl
    | cons byte path =>
        cases absolute
        rfl
  cases text : numeral 10 size with
  | nil => exact absurd text (numeral_ne_nil size)
  | cons byte digits_ =>
      rw [text] at digits
      have run : ∀ other ∈ digits_, decide (other ≠ 32) = true :=
        fun other listed => digits other (by simp [listed])
      rw [List.cons_append, parseBlank, takeWhile_append_stop run (by decide),
        List.dropWhile_append_of_pos run]
      change (byte :: digits_, ((32 : UInt8) :: path).dropWhile (· = 32)) = _
      rw [List.dropWhile_cons_of_pos (by decide), noBlank]

/-- `atoll` reads back what was printed. -/
theorem RestoreWriter.atoll_numeral (size : Nat) : atoll (numeral 10 size) = size := by
  have digits : ∀ byte ∈ numeral 10 size, isDigit 10 byte = true :=
    fun byte listed => isDigit_of_mem_numeral (by decide) (by decide) listed
  have value : (numeralValue 10 (numeral 10 size) : Int) = size := by
    rw [numeralValue_numeral (by decide) (by decide)]
  have whole : (numeral 10 size).takeWhile (isDigit 10) = numeral 10 size := by
    have all := @List.takeWhile_append_of_pos _ _ (numeral 10 size) [] digits
    rwa [List.append_nil, List.takeWhile_nil, List.append_nil] at all
  rw [← whole] at value
  revert value digits
  unfold atoll
  cases numeral 10 size with
  | nil =>
      intro _ value
      exact value
  | cons byte text =>
      intro digits value
      have digit := digits byte (by simp)
      rw [isDigit, decide_eq_true_eq] at digit
      have noSpace : ¬ (decide (byte = 32 ∨ 9 ≤ byte ∧ byte ≤ 13)) = true := by
        rw [decide_eq_true_eq]
        rintro (rfl | ⟨-, low⟩)
        · exact absurd digit.1 (by decide)
        · have low := UInt8.le_iff_toNat_le.mp low
          have bound : (13 : UInt8).toNat = 13 := rfl
          omega
      have kept : (byte :: text).dropWhile (fun byte => decide (byte = 32 ∨ 9 ≤ byte ∧ byte ≤ 13)) =
          byte :: text := List.dropWhile_cons_of_neg noSpace
      dsimp only
      rw [kept]
      split
      · next isMinus =>
          cases isMinus
          exact absurd digit.1 (by decide)
      · next isPlus =>
          cases isPlus
          exact absurd digit.1 (by decide)
      · exact value

/-- The text behind a `HUMONGUS` header. -/
def hugeText (size : Nat) (name : CString) : List UInt8 :=
  (CharArray.ofString (20 + 1 + name.length + 1) (numeral 10 size ++ 32 :: name)).bytes

theorem length_hugeText (size : Nat) (name : CString) :
    (hugeText size name).length = 20 + 1 + name.length + 1 :=
  CharArray.length_bytes _

/-- The text is read back as the name and the size. -/
theorem RestoreWriter.getHumongusFileHeader_eq {writer : RestoreWriter} {size : Nat}
    {path : CString} {pad rest : List UInt8} (running : writer.tcWriterStop = false)
    (whole : Whole writer.blocks)
    (stream : bytesOf writer.blocks = hugeText size path ++ (pad ++ rest))
    (padded : (hugeText size path).length + pad.length =
      roundToRecords (hugeText size path).length)
    (absolute : AbsolutePath path) (ordinary : size < 2 ^ 63) :
    ∃ blocks hugename, writer.getHumongusFileHeader (hugeText size path).length =
        { writer with blocks := blocks, hugename := hugename, hugeSize := size } ∧
      hugename.string = path ∧ bytesOf blocks = rest ∧ Whole blocks := by
  have bound : pathMax = 1024 := rfl
  have most : tlmMaxPathName = 1088 := rfl
  have short := absolute.short
  have length := length_hugeText size path
  obtain ⟨blocks, read, bytes, good⟩ := inputMem_eq running whole stream padded (by omega)
  have digits : (numeral 10 size).length ≤ 19 :=
    length_numeral_le (by decide) (by decide) (show size < 10 ^ 19 by omega)
  have fits : (numeral 10 size ++ 32 :: path).length < 20 + 1 + path.length + 1 := by
    rw [List.length_append, List.length_cons]
    omega
  have nulFree : NulFree (numeral 10 size ++ 32 :: path) := by
    intro nul
    rcases List.mem_append.mp nul with inNumeral | behind
    · have digit := isDigit_of_mem_numeral (by decide) (by decide) inNumeral
      cases digit
    · rcases List.mem_cons.mp behind with isBlank | inPath
      · cases isBlank
      · exact absolute.nulFree inPath
  have stored : ((CharArray.zero tlmMaxPathName).write 0 (hugeText size path)).string =
      numeral 10 size ++ 32 :: path := by
    rw [CharArray.string, CharArray.bytes_write (by omega), List.take_zero, List.nil_append]
    exact CharArray.cstring_ofString nulFree fits _
  refine ⟨blocks, ((CharArray.zero tlmMaxPathName).write 0 (hugeText size path)).strlcpy path, ?_,
    CharArray.string_strlcpy absolute.nulFree (by omega), bytes, good⟩
  have nonempty : ((hugeText size path).length : Int) ≠ 0 := by
    omega
  unfold getHumongusFileHeader
  dsimp only
  rw [if_neg nonempty, read]
  dsimp only
  rw [if_neg (fun other => other rfl), stored, parseBlank_numeral size absolute.absolute]
  dsimp only
  rw [atoll_numeral]

namespace DecoderView

/-- The view behind a `HUMONGUS` header. -/
def takeHuge (view : DecoderView) (name : CString) (size : Nat) : DecoderView :=
  { view with hugename := name, hugeSize := size }

end DecoderView

/-- A `HUMONGUS` header and its text name a file and give its size. -/
theorem Sees.humongus_step {args : RestoreArgs} {view : DecoderView} {writer : RestoreWriter}
    (sees : Sees view writer) {tarHdr : TlmTarHdr} {ino size : Nat} {path : CString}
    {pad rest : List UInt8}
    (header : EntryHeader tarHdr lfHumongus (hugeText size path).length ino [] [])
    (left : view.left = tarHdr.record ++ (hugeText size path ++ (pad ++ rest)))
    (padded : (hugeText size path).length + pad.length =
      roundToRecords (hugeText size path).length)
    (absolute : AbsolutePath path) (ordinary : size < 2 ^ 63) :
    Sees ((view.leaving rest).takeHuge path size) (writer.tarGetdirStep args) := by
  have bound : pathMax = 1024 := rfl
  have short := absolute.short
  have length := length_hugeText size path
  obtain ⟨reading, seen, step⟩ := @Sees.header view writer args sees tarHdr lfHumongus _
    header.checksum header.thLinkflag (by decide) (by decide) left
  obtain ⟨blocks, hugename, read, named, bytes, whole⟩ :=
    @RestoreWriter.getHumongusFileHeader_eq reading size path pad rest seen.running seen.whole
      seen.left padded absolute ordinary
  rw [step, fileSize_of header.thSize (by omega)]
  change Sees _ (reading.getHumongusFileHeader (hugeText size path).length)
  rw [read]
  exact { seen with whole := whole, left := bytes, hugename := named, hugeSize := rfl }

/-! ## Sections -/

namespace TarStream

/-- The number of sections of so many bytes. -/
def sectionCount (size : Nat) : Nat := (size + (tlmMaxTarImage - 1)) / tlmMaxTarImage

/-- What the names of the sections from a number on take up in the decoder's buffer for
long names. -/
def sectionNames (name : CString) (sectionNo size : Nat) : Nat :=
  ((List.range (sectionCount size)).map fun index =>
    DecoderView.spill (sectionName name (sectionNo + index))).sum

theorem sectionNames_none (name : CString) (sectionNo : Nat) : sectionNames name sectionNo 0 = 0 :=
  rfl

theorem sectionNames_more (name : CString) (sectionNo : Nat) {size : Nat} (positive : 0 < size) :
    sectionNames name sectionNo size = DecoderView.spill (sectionName name sectionNo) +
      sectionNames name (sectionNo + 1) (size - tlmMaxTarImage) := by
  have most : tlmMaxTarImage = 0o17777777770 := rfl
  have count : sectionCount size = sectionCount (size - tlmMaxTarImage) + 1 := by
    unfold sectionCount
    rw [most]
    omega
  unfold sectionNames
  rw [count, List.range_succ_eq_map, List.map_cons, List.sum_cons, List.map_map]
  congr 2
  apply List.map_congr_left
  intro index _
  change DecoderView.spill (sectionName name (sectionNo + (index + 1))) = _
  rw [Nat.add_comm index, Nat.add_assoc]

theorem length_sectionName (name : CString) (sectionNo : Nat) :
    (sectionName name sectionNo).length < 2 ^ 31 := by
  have most : tlmMaxPathName = 1088 := rfl
  unfold sectionName
  split
  · rw [List.length_take]
    omega
  · rw [List.length_take]
    omega

theorem sectionName_nulFree {name : CString} (nulFree : NulFree name) (sectionNo : Nat) :
    NulFree (sectionName name sectionNo) := by
  intro nul
  unfold sectionName at nul
  split at nul
  · exact nulFree (List.mem_of_mem_take nul)
  · rcases List.mem_append.mp (List.mem_of_mem_take nul) with inName | inNumber
    · exact nulFree inName
    · rcases List.mem_cons.mp inNumber with isDot | inDigits
      · cases isDot
      · have digit := isDigit_of_mem_padLeft (by decide)
          (fun byte listed => isDigit_of_mem_numeral (by decide) (by decide) listed) inDigits
        cases digit

theorem sectionName_absolute {name : CString} (absolute : name.head? = some slash)
    (sectionNo : Nat) : (sectionName name sectionNo).head? = some slash := by
  obtain ⟨rest, rfl⟩ := List.head?_eq_some_iff.mp absolute
  unfold sectionName
  split
  · rfl
  · rfl

end TarStream

namespace DecoderView

/-- Linking a file to the same inode again changes nothing. -/
theorem linked_linked (dar : Bool) (hardlink : Option Nat) (path : CString)
    (hardlinkQ : HardlinkQ) :
    linked dar hardlink path (linked dar hardlink path hardlinkQ) =
      linked dar hardlink path hardlinkQ := by
  cases hardlink with
  | none => rfl
  | some inode =>
      unfold linked
      dsimp only
      split
      · rfl
      · obtain ⟨node, found⟩ : ∃ node, (hardlinkQ.hardlinkQAdd inode 0 (some path)
            false).hardlinkQGet inode = some node := by
          rw [HardlinkQ.hardlinkQGet_hardlinkQAdd, if_pos rfl]
          cases hardlinkQ.hardlinkQGet inode with
          | none => exact ⟨_, rfl⟩
          | some node => exact ⟨node, rfl⟩
        exact HardlinkQ.hardlinkQAdd_of_some found _ _ _

/-- Between two sections of a file, or in front of its first one: `bytes` are still to
come, and the names of the sections have filled the buffer for long names up to `nmEnd`. -/
structure InSections (view : DecoderView) (path : CString) (entries : List ArchiveEntry)
    (hardlinkQ : HardlinkQ) (contents bytes : List UInt8) (nmEnd : Nat) : Prop where
  hugename : view.hugename = path
  hugeSize : view.hugeSize = bytes.length
  nmEnd : view.nmEnd = nmEnd
  lnkEnd : view.lnkEnd = 0
  hardlinkQ : view.hardlinkQ = hardlinkQ
  writing : view.Writing path entries contents

variable {view : DecoderView} {path : CString} {entries : List ArchiveEntry}
  {hardlinkQ : HardlinkQ} {contents bytes : List UInt8} {nmEnd : Nat}

theorem InSections.leaving (inside : view.InSections path entries hardlinkQ contents bytes nmEnd)
    (left : List UInt8) :
    (view.leaving left).InSections path entries hardlinkQ contents bytes nmEnd := by
  obtain ⟨hugename, hugeSize, names, lnkEnd, queue, writing⟩ := inside
  refine ⟨hugename, hugeSize, names, lnkEnd, queue, ?_⟩
  cases writing with
  | unopened closed restored => exact .unopened closed restored
  | opened open_ restored => exact .opened open_ restored

theorem InSections.takeName (inside : view.InSections path entries hardlinkQ contents bytes nmEnd)
    (name : CString) :
    (view.takeName name).InSections path entries hardlinkQ contents bytes (nmEnd + spill name) := by
  obtain ⟨hugename, hugeSize, names, lnkEnd, queue, writing⟩ := inside
  unfold DecoderView.takeName spill
  by_cases long : tlmNameSize ≤ name.length
  · rw [if_pos long, if_pos long]
    refine ⟨hugename, hugeSize, congrArg (· + name.length) names, lnkEnd, queue, ?_⟩
    cases writing with
    | unopened closed restored => exact .unopened closed restored
    | opened open_ restored => exact .opened open_ restored
  · rw [if_neg long, if_neg long]
    exact ⟨hugename, hugeSize, names, lnkEnd, queue, writing⟩

theorem InSections.linking (inside : view.InSections path entries hardlinkQ contents bytes nmEnd)
    (queue : HardlinkQ) :
    (view.linking queue).InSections path entries queue contents bytes nmEnd := by
  obtain ⟨hugename, hugeSize, names, lnkEnd, -, writing⟩ := inside
  refine ⟨hugename, hugeSize, names, lnkEnd, rfl, ?_⟩
  cases writing with
  | unopened closed restored => exact .unopened closed restored
  | opened open_ restored => exact .opened open_ restored

/-- A part of the file has been written. -/
def nextSection (view : DecoderView) (path : CString) (entries : List ArchiveEntry)
    (contents : List UInt8) (size : Nat) : DecoderView :=
  ((view.writing path entries contents).naming path).sectionDone size

theorem InSections.next {data : List UInt8} {remaining : List UInt8}
    (inside : view.InSections path entries hardlinkQ contents (data ++ remaining) nmEnd) :
    (view.nextSection path entries (contents ++ data) data.length).InSections path entries hardlinkQ
      (contents ++ data) remaining nmEnd := by
  obtain ⟨hugename, hugeSize, names, lnkEnd, queue, -⟩ := inside
  refine ⟨hugename, ?_, names, lnkEnd, queue, .opened rfl rfl⟩
  change view.hugeSize - data.length = remaining.length
  rw [hugeSize, List.length_append]
  omega

theorem written_fileDone (view : DecoderView) (path : CString) (entries : List ArchiveEntry)
    (data : List UInt8) (queue : HardlinkQ) :
    ((view.written path entries data).fileDone).linking queue =
      between view.left queue (entries ++ [.regularFile path data]) := rfl

end DecoderView

namespace Sees

variable {args : RestoreArgs} {view : DecoderView} {writer : RestoreWriter} {path : CString}
  {entries : List ArchiveEntry} {hardlinkQ : HardlinkQ} {contents bytes data pad rest : List UInt8}
  {nmEnd ino : Nat} {name : CString} {tarHdr : TlmTarHdr}

/-- The header and the data of one section: the file has the name that the `HUMONGUS`
header gave. -/
theorem section_step (all : RestoresAll args) (sees : Sees view writer)
    (inside : view.InSections path entries hardlinkQ contents bytes nmEnd) {linkflag : UInt8}
    {hardlink : Option Nat} (asFile : AsFile hardlinkQ ino linkflag hardlink)
    (header : EntryHeader tarHdr linkflag data.length ino name [])
    (named : name.head? = some slash) (left : view.left = tarHdr.record ++ (data ++ (pad ++ rest)))
    (padded : data.length + pad.length = roundToRecords data.length)
    (ordinary : data.length < 2 ^ 31) (absolute : AbsolutePath path) :
    Sees (if (bytes.length : Int) - data.length ≤ 0 then
        (((view.leaving rest).written path entries (contents ++ data)).fileDone).linking
          (DecoderView.linked args.dar hardlink path hardlinkQ)
      else ((view.leaving rest).nextSection path entries (contents ++ data) data.length).linking
        (DecoderView.linked args.dar hardlink path hardlinkQ))
      (writer.tarGetdirStep args) := by
  have most : tlmMaxPathName = 1088 := rfl
  have bound : pathMax = 1024 := rfl
  have short := absolute.short
  rw [← inside.hardlinkQ] at asFile
  obtain ⟨reading, seen, step⟩ := @file_header args writer _ tarHdr linkflag data.length ino name
    view sees hardlink asFile header named left ordinary
  have hugename : reading.hugename.string = path := seen.hugename.trans inside.hugename
  have named : (reading.regularName tarHdr.record).string = path := by
    unfold RestoreWriter.regularName
    rw [hugename, if_pos absolute.nonempty]
    exact CharArray.string_strlcpy absolute.nulFree (by omega)
  have part := @Sees.restoreRegular args reading rest entries path _ contents data pad hardlink all
    seen tarHdr.record named (inside.leaving _).writing rfl padded ordinary
  have hugeSize : (view.leaving (data ++ (pad ++ rest))).hugeSize = bytes.length := inside.hugeSize
  have queue : (view.leaving (data ++ (pad ++ rest))).hardlinkQ = hardlinkQ := inside.hardlinkQ
  rw [step]
  rw [hugeSize, queue] at part
  exact part

end Sees

namespace Decodes

variable {args : RestoreArgs} {view : DecoderView} {path : CString} {entries : List ArchiveEntry}
  {hardlinkQ : HardlinkQ} {contents bytes rest : List UInt8} {nmEnd ino sectionNo : Nat}
  {headers puts : List Put} {front back : List UInt8} {linkflag : UInt8} {hardlink : Option Nat}

theorem takeLink_none (view : DecoderView) : view.takeLink [] = view := by
  unfold DecoderView.takeLink
  rw [if_neg (by decide)]

/-- The decoder gets to the header of a section that has a name which still fits, and
from there takes the section. -/
theorem throughSection (all : RestoresAll args)
    (inside : view.InSections path entries hardlinkQ contents bytes nmEnd)
    (asFile : AsFile hardlinkQ ino linkflag hardlink)
    (header : HeaderPuts linkflag (min bytes.length tlmMaxTarImage) ino
      (TarStream.sectionName path sectionNo) [] headers)
    (headerBytes : Represents headers front) (filled : Filled (bytes.take tlmMaxTarImage) puts)
    (dataBytes : Represents puts back) (left : view.left = front ++ (back ++ rest))
    (absolute : AbsolutePath path)
    (fits : nmEnd + DecoderView.spill (TarStream.sectionName path sectionNo) < tlmMaxPathName) :
    ∃ named : DecoderView,
      named.InSections path entries hardlinkQ contents bytes
        (nmEnd + DecoderView.spill (TarStream.sectionName path sectionNo)) ∧
      Decodes args view
        (if (bytes.length : Int) - (bytes.take tlmMaxTarImage).length ≤ 0 then
          (((named.leaving rest).written path entries
            (contents ++ bytes.take tlmMaxTarImage)).fileDone).linking
              (DecoderView.linked args.dar hardlink path hardlinkQ)
        else ((named.leaving rest).nextSection path entries
          (contents ++ bytes.take tlmMaxTarImage) (bytes.take tlmMaxTarImage).length).linking
            (DecoderView.linked args.dar hardlink path hardlinkQ)) := by
  have image : tlmMaxTarImage = 0o17777777770 := rfl
  have nameFits : view.nmEnd + DecoderView.spill (TarStream.sectionName path sectionNo) <
      tlmMaxPathName := by
    rw [inside.nmEnd]
    exact fits
  obtain ⟨pad, rfl, padded⟩ := filled.represents dataBytes
  obtain ⟨tarHdr, entryHeader, taken⟩ := @Decodes.names args view linkflag _ ino _ [] headers
    front ((bytes.take tlmMaxTarImage ++ pad) ++ rest) header headerBytes left
    (TarStream.sectionName_nulFree absolute.nulFree sectionNo) List.not_mem_nil inside.lnkEnd
      nameFits
    (by decide)
  rw [takeLink_none] at taken
  have length : min bytes.length tlmMaxTarImage = (bytes.take tlmMaxTarImage).length := by
    rw [List.length_take, Nat.min_comm]
  have ordinary : (bytes.take tlmMaxTarImage).length < 2 ^ 31 := by
    rw [List.length_take]
    omega
  rw [length] at entryHeader
  have here : ∀ left, ((view.leaving left).takeName
      (TarStream.sectionName path sectionNo)).left = left := by
    intro left
    unfold DecoderView.takeName
    split
    · rfl
    · rfl
  have named := (inside.leaving (tarHdr.record ++ ((bytes.take tlmMaxTarImage ++ pad) ++
    rest))).takeName (TarStream.sectionName path sectionNo)
  refine ⟨_, named, taken.trans ?_⟩
  apply Decodes.step
  · intro writer sees
    have left_ := (here (tarHdr.record ++ ((bytes.take tlmMaxTarImage ++ pad) ++ rest))).trans
      (congrArg (tarHdr.record ++ ·) (List.append_assoc _ _ _))
    exact sees.section_step all named asFile entryHeader
      (TarStream.sectionName_absolute absolute.absolute sectionNo) left_ padded ordinary absolute
  · have record : tarHdr.record.length = 512 := tarHdr.length_record
    have shorter : ∀ next : DecoderView, next.left = rest →
        512 + next.left.length ≤ ((view.leaving (tarHdr.record ++ ((bytes.take tlmMaxTarImage ++
          pad) ++ rest))).takeName (TarStream.sectionName path sectionNo)).left.length := by
      intro next nextLeft
      rw [nextLeft, here, List.length_append, List.length_append]
      omega
    split
    · exact shorter _ rfl
    · exact shorter _ rfl

/-- The sections of a file of which the names fit the decoder's buffer. -/
theorem sections (all : RestoresAll args) {bytes : List UInt8}
    (asFile : ∀ queue, AsFile queue ino linkflag hardlink)
    (sectionPuts : SectionPuts linkflag ino path sectionNo bytes puts)
    (absolute : AbsolutePath path) {segment : List UInt8} (represents : Represents puts segment)
    (inside : view.InSections path entries hardlinkQ contents bytes nmEnd)
    (left : view.left = segment ++ rest) (nonempty : bytes ≠ [])
    (fits : nmEnd + TarStream.sectionNames path sectionNo bytes.length < tlmMaxPathName) :
    Decodes args view (.between rest (DecoderView.linked args.dar hardlink path hardlinkQ)
      (entries ++ [.regularFile path (contents ++ bytes)])) := by
  induction sectionPuts generalizing view contents nmEnd segment hardlinkQ with
  | done => exact absurd rfl nonempty
  | @more sectionNo bytes headers puts others _ header filled behind ih =>
      obtain ⟨front, back, rfl, headerBytes, others_⟩ := represents.split
      obtain ⟨middle, last, rfl, dataBytes, otherBytes⟩ := others_.split
      rw [TarStream.sectionNames_more path sectionNo (List.length_pos_iff.mpr nonempty)] at fits
      rw [List.append_assoc, List.append_assoc] at left
      obtain ⟨named, there, through⟩ := throughSection all inside (asFile hardlinkQ) header
        headerBytes filled dataBytes left absolute (by omega)
      have whole := List.take_append_drop tlmMaxTarImage bytes
      have total := congrArg List.length whole
      rw [List.length_append] at total
      by_cases ended : bytes.drop tlmMaxTarImage = []
      · rw [ended] at behind
        cases behind with
        | more nonempty => exact absurd rfl nonempty
        | done =>
            cases otherBytes
            rw [ended, List.append_nil] at whole
            rw [if_pos (by rw [whole]; omega), whole, DecoderView.written_fileDone] at through
            exact through
      · have more := List.length_pos_iff.mpr ended
        rw [if_neg (by omega)] at through
        rw [← whole] at there
        have next := (there.leaving (last ++ rest)).next.linking
          (DecoderView.linked args.dar hardlink path hardlinkQ)
        rw [List.length_drop] at more
        have done := ih otherBytes next rfl ended (by rw [List.length_drop]; omega)
        rw [DecoderView.linked_linked, List.append_assoc, whole] at done
        exact through.trans done

end Decodes

/-! ## Names that do not fit together -/

/-- The decoder writes behind one of its buffers before it gets to the last `rest` bytes
of what is left. -/
def Faults (args : RestoreArgs) (view : DecoderView) (rest : Nat) : Prop :=
  ∀ writer, Sees view writer → ∃ rounds,
    (RestoreWriter.tarGetdirLoop args rounds writer).faulted = true ∧
    ∀ fewer < rounds,
      rest < (RestoreWriter.bytesOf (RestoreWriter.tarGetdirLoop args fewer writer).blocks).length

theorem Decodes.faults {args : RestoreArgs} {view next : DecoderView} {rest : Nat}
    (decodes : Decodes args view next) (faults : Faults args next rest)
    (before : rest ≤ next.left.length) : Faults args view rest := by
  intro writer sees
  obtain ⟨rounds, last, seen, -, run, unread⟩ := decodes writer sees
  obtain ⟨more, faulted, behind⟩ := faults last seen
  refine ⟨rounds + more, ?_, ?_⟩
  · rw [run]
    exact faulted
  · intro fewer sooner
    by_cases first : fewer < rounds
    · obtain ⟨-, most⟩ := unread fewer (Nat.le_of_lt first)
      omega
    · obtain ⟨further, rfl⟩ : ∃ further, fewer = rounds + further := ⟨fewer - rounds, by omega⟩
      rw [run]
      exact behind further (by omega)

theorem Faults.step {args : RestoreArgs} {view : DecoderView} {rest : Nat}
    (steps : ∀ writer, Sees view writer → (writer.tarGetdirStep args).faulted = true)
    (before : rest < view.left.length) : Faults args view rest := by
  intro writer sees
  refine ⟨1, ?_, ?_⟩
  · rw [RestoreWriter.tarGetdirLoop, if_neg (by rw [sees.running]; decide)]
    exact steps writer sees
  · intro fewer sooner
    rw [Nat.lt_one_iff.mp sooner]
    change rest < (RestoreWriter.bytesOf writer.blocks).length
    rwa [sees.left]

theorem Faults.mono {args : RestoreArgs} {view : DecoderView} {rest fewer : Nat}
    (faults : Faults args view rest) (less : fewer ≤ rest) : Faults args view fewer := by
  intro writer sees
  obtain ⟨rounds, faulted, unread⟩ := faults writer sees
  exact ⟨rounds, faulted, fun earlier sooner => Nat.lt_of_le_of_lt less (unread earlier sooner)⟩

/-- A name that does not fit what is left of its buffer has its NUL written behind it. -/
theorem RestoreWriter.getLongName_faulted {writer : RestoreWriter}
    (name : CharArray tlmMaxPathName) {bufSpot : Nat} {text pad rest : List UInt8}
    (running : writer.tcWriterStop = false) (whole : Whole writer.blocks)
    (stream : bytesOf writer.blocks = text ++ (pad ++ rest))
    (padded : text.length + pad.length = roundToRecords text.length)
    (within : bufSpot < tlmMaxPathName) (spills : tlmMaxPathName ≤ bufSpot + text.length)
    (ordinary : text.length < 2 ^ 31) :
    (writer.getLongName (longNameSize text.length bufSpot) name bufSpot).1.faulted = true := by
  have most : tlmMaxPathName = 1088 := rfl
  obtain ⟨cut, room⟩ : ∃ cut, cut = tlmMaxPathName - bufSpot := ⟨_, rfl⟩
  have length : (text.take cut).length = cut := by
    rw [List.length_take]
    omega
  have size : longNameSize text.length bufSpot = (text.take cut).length := by
    have low : ((text.length : Int) % 2 ^ 32).toNat = text.length := by
      omega
    have left : (((tlmMaxPathName : Int) - bufSpot) % 2 ^ 32).toNat = cut := by
      omega
    rw [longNameSize, low, left, unsignedMin, Nat.mod_eq_of_lt (by omega),
      Nat.mod_eq_of_lt (by omega), Nat.min_eq_right (by omega), toInt32_of_lt (by omega), length]
  have records : roundToRecords cut ≤ roundToRecords text.length := by
    unfold roundToRecords recordSize
    omega
  have above := roundToRecords_ge cut
  -- the front of the name is what `input_mem` takes for all of it
  have front : bytesOf writer.blocks = text.take cut ++
      ((text.drop cut ++ pad).take (roundToRecords cut - cut) ++
        ((text.drop cut ++ pad).drop (roundToRecords cut - cut) ++ rest)) := by
    have rejoined := List.take_append_drop (roundToRecords cut - cut) (text.drop cut ++ pad)
    rw [← List.append_assoc ((text.drop cut ++ pad).take _), rejoined, List.append_assoc,
      ← List.append_assoc, List.take_append_drop]
    exact stream
  have filled : (text.take cut).length +
      ((text.drop cut ++ pad).take (roundToRecords cut - cut)).length =
        roundToRecords (text.take cut).length := by
    rw [length, List.length_take, List.length_append, List.length_drop]
    omega
  obtain ⟨blocks, read, -, -⟩ := inputMem_eq running whole front filled (by omega)
  unfold getLongName
  rw [size, read]
  dsimp only
  rw [decide_eq_true (by omega), Bool.or_true]

/-- The header of a name that does not fit. -/
theorem Sees.longname_faulted {args : RestoreArgs} {view : DecoderView} {writer : RestoreWriter}
    (sees : Sees view writer) {tarHdr : TlmTarHdr} {text pad rest : List UInt8}
    (checksum : tlmVfyTarChecksum tarHdr.record = 1) (flag : tarHdr.thLinkflag = lfLongname)
    (size : tarHdr.thSize = octalField _ 11 text.length)
    (left : view.left = tarHdr.record ++ (text ++ (pad ++ rest)))
    (padded : text.length + pad.length = roundToRecords text.length)
    (within : view.nmEnd < tlmMaxPathName) (spills : tlmMaxPathName ≤ view.nmEnd + text.length)
    (ordinary : text.length < 2 ^ 31) : (writer.tarGetdirStep args).faulted = true := by
  obtain ⟨reading, seen, step⟩ :=
    @header view writer args sees tarHdr lfLongname _ checksum flag (by decide) (by decide) left
  have nmEnd : reading.nmEnd = view.nmEnd := seen.nmEnd
  rw [← nmEnd] at within spills
  have fault := @RestoreWriter.getLongName_faulted reading reading.longname reading.nmEnd text pad
    rest seen.running seen.whole seen.left padded within spills ordinary
  rw [step, fileSize_of size ordinary]
  exact fault

namespace Faults

variable {args : RestoreArgs} {view : DecoderView} {path : CString} {entries : List ArchiveEntry}
  {hardlinkQ : HardlinkQ} {contents bytes rest segment : List UInt8} {nmEnd ino sectionNo : Nat}
  {puts : List Put}

/-- The name before the header of a section does not fit. -/
theorem headerPuts {size : Nat} {name : CString}
    (headers : HeaderPuts lfNormal size ino name [] puts)
    (represents : Represents puts segment) (left : view.left = segment ++ rest)
    (within : view.nmEnd < tlmMaxPathName)
    (spills : tlmMaxPathName ≤ view.nmEnd + DecoderView.spill name)
    (ordinary : name.length < 2 ^ 31) : Faults args view rest.length := by
  obtain @⟨names, links, tarHdr, namePuts, linkPuts, header⟩ := headers
  obtain ⟨front, back, rfl, nameBytes, -⟩ := represents.split
  cases namePuts with
  | short short =>
      rw [DecoderView.spill, if_neg (by omega)] at spills
      omega
  | @long tarHdr puts long checksum flag size filled =>
      obtain ⟨text, rfl, rest_⟩ := nameBytes.header
      obtain ⟨pad, rfl, padded⟩ := filled.represents rest_
      rw [DecoderView.spill, if_pos long] at spills
      rw [List.append_assoc, List.append_assoc, List.append_assoc] at left
      have record : tarHdr.record.length = 512 := tarHdr.length_record
      apply Faults.step
      · intro writer sees
        exact sees.longname_faulted checksum flag size left padded within spills ordinary
      · rw [left]
        simp only [List.length_append]
        omega

/-- The sections of a file of which the names do not fit the decoder's buffer. -/
theorem sections (all : RestoresAll args)
    (sectionPuts : SectionPuts lfNormal ino path sectionNo bytes puts)
    (absolute : AbsolutePath path) (represents : Represents puts segment)
    (inside : view.InSections path entries hardlinkQ contents bytes nmEnd)
    (left : view.left = segment ++ rest) (within : nmEnd < tlmMaxPathName)
    (spills : tlmMaxPathName ≤ nmEnd + TarStream.sectionNames path sectionNo bytes.length) :
    Faults args view rest.length := by
  induction sectionPuts generalizing view contents nmEnd segment with
  | done =>
      rw [List.length_nil, TarStream.sectionNames_none] at spills
      omega
  | @more sectionNo bytes headers puts others nonempty header filled behind ih =>
      obtain ⟨front, back, rfl, headerBytes, others_⟩ := represents.split
      obtain ⟨middle, last, rfl, dataBytes, otherBytes⟩ := others_.split
      rw [TarStream.sectionNames_more path sectionNo (List.length_pos_iff.mpr nonempty)] at spills
      rw [List.append_assoc, List.append_assoc] at left
      by_cases fits : nmEnd + DecoderView.spill (TarStream.sectionName path sectionNo) <
          tlmMaxPathName
      · obtain ⟨named, there, through⟩ :=
          Decodes.throughSection all inside .normal header headerBytes
          filled dataBytes left absolute fits
        have whole := List.take_append_drop tlmMaxTarImage bytes
        have total := congrArg List.length whole
        rw [List.length_append] at total
        have behind_ : 0 < (bytes.drop tlmMaxTarImage).length := by
          apply Nat.pos_of_ne_zero
          intro none
          rw [List.length_drop] at none
          rw [none, TarStream.sectionNames_none] at spills
          omega
        rw [if_neg (by omega)] at through
        rw [← whole] at there
        have next := (there.leaving (last ++ rest)).next.linking hardlinkQ
        have faults := ih otherBytes next rfl fits (by rw [List.length_drop]; omega)
        exact through.faults faults (show rest.length ≤ (last ++ rest).length by
          rw [List.length_append]; omega)
      · have names : view.nmEnd = nmEnd := inside.nmEnd
        have short := TarStream.length_sectionName path sectionNo
        have faults := @headerPuts args view (middle ++ (last ++ rest)) front ino headers _ _ header
          headerBytes left (by omega) (by omega) short
        exact faults.mono (by simp only [List.length_append]; omega)

end Faults

/-! ## Archives with huge files -/

namespace SourceEntry

/-- A file of one name that needs more than one section. -/
def Huge : SourceEntry → Prop
  | regularFile entry run contents =>
      entry.Accepted ∧ entry.attr.fileType = .regular ∧ entry.attr.stNlink = 1 ∧
        entry.attr.stSize = contents.length ∧ tlmMaxTarImage < contents.length ∧
          contents.length < 2 ^ 63 ∧ run.FillsRequests contents
  | _ => False

/-- The names of the sections of a huge file fit the decoder's buffer together. -/
def NamesFit : SourceEntry → Prop
  | regularFile entry _ contents => tlmMaxTarImage < contents.length →
      TarStream.sectionNames entry.fullname 1 contents.length < tlmMaxPathName
  | _ => True

/-- What a huge file is put out as. -/
def HugePuts : SourceEntry → List Put → Prop
  | regularFile entry _ contents, puts => ∃ tarHdr text sections,
      puts = .header tarHdr :: text ++ sections ∧
        EntryHeader tarHdr lfHumongus (hugeText contents.length entry.fullname).length 0 [] [] ∧
        Filled (hugeText contents.length entry.fullname) text ∧
        SectionPuts lfNormal entry.attr.stIno entry.fullname 1 contents sections
  | _, _ => False

theorem encode_emits_huge (owners : OwnerNames) (source : SourceEntry) (huge : source.Huge)
    {stream : TarStream} (hardlinkQ : HardlinkQ) (forever : stream.grantsLeft = none) :
    ∃ puts, Emits stream (source.encode owners stream hardlinkQ).1 puts ∧ source.HugePuts puts := by
  cases source with
  | directory name attr aclInfo => cases huge
  | symbolicLink entry run target => cases huge
  | fifo entry run waits => cases huge
  | regularFile entry run contents =>
      have bound : pathMax = 1024 := rfl
      obtain ⟨accepted, type, single, size, image, -, fills⟩ := huge
      have short := accepted.path.short
      have notLink : entry.attr.fileType ≠ .symbolicLink := by
        rw [type]
        decide
      have notDone : ¬ entry.hardlinkDone hardlinkQ = true := by
        intro done
        unfold FileEntry.hardlinkDone at done
        rw [single] at done
        exact absurd (of_decide_eq_true done).1 (by decide)
      have flag : TarStream.linkflagOf entry.attr [] = lfNormal := by
        unfold TarStream.linkflagOf
        rw [type]
        dsimp only
        rw [if_neg (by omega), if_pos rfl]
      have output := @tlmOutputFile_opened owners entry run stream hardlinkQ entry.fullname
        accepted.named notLink fills.opened fills.nameAllocated
      dsimp only at output
      rw [if_neg notDone, size, if_pos image, TarStream.outputHugeName, if_pos image] at output
      obtain ⟨tarHdr, text, emitsName, header, filled⟩ :=
        @TarStream.outputHumongusHeader_emits stream forever entry.fullname contents.length
          (by omega)
      have nonempty : contents ≠ [] := by
        rintro rfl
        exact Nat.not_lt_zero _ image
      obtain ⟨sections, -, emitsSections, sectionPuts⟩ :=
        @TarStream.outputContents_emits entry owners entry.fullname run contents
          (stream.outputHumongusHeader entry.fullname contents.length) fills 1 emitsName.forever
          nonempty
      rw [flag] at sectionPuts
      refine ⟨.header tarHdr :: text ++ sections, ?_, tarHdr, text, sections, rfl, ?_, filled,
        sectionPuts⟩
      · unfold encode
        dsimp only
        rw [output]
        exact emitsName.trans emitsSections
      · rw [length_hugeText]
        exact header

/-- What an entry of an archive with huge files is put out as. -/
def PutsAny (source : SourceEntry) (puts : List Put) : Prop :=
  (source.Accepted ∧ source.PutsAs puts) ∨ (source.Huge ∧ source.HugePuts puts)

theorem encodeAll_emits_any (owners : OwnerNames) (sources : List SourceEntry)
    (accepted : ∀ source ∈ sources, source.Accepted ∨ source.Huge) {stream : TarStream}
    (hardlinkQ : HardlinkQ) (forever : stream.grantsLeft = none) :
    ∃ putss : List (List Put), Emits stream (encodeAll owners sources stream hardlinkQ).1
      putss.flatten ∧ List.Forall₂ PutsAny sources putss := by
  induction sources generalizing stream hardlinkQ with
  | nil => exact ⟨[], .refl forever, .nil⟩
  | cons source sources ih =>
      obtain ⟨puts, emits, put⟩ : ∃ puts,
          Emits stream (source.encode owners stream hardlinkQ).1 puts ∧ source.PutsAny puts := by
        rcases accepted source (by simp) with ordinary | huge
        · obtain ⟨puts, emits, put⟩ := encode_emits owners source ordinary hardlinkQ forever
          exact ⟨puts, emits, .inl ⟨ordinary, put⟩⟩
        · obtain ⟨puts, emits, put⟩ := encode_emits_huge owners source huge hardlinkQ forever
          exact ⟨puts, emits, .inr ⟨huge, put⟩⟩
      obtain ⟨putss, rest, others⟩ := ih (fun other listed => accepted other (by simp [listed]))
        (source.encode owners stream hardlinkQ).2 emits.forever
      exact ⟨puts :: putss, emits.trans rest, .cons put others⟩

/-- Only a huge file can have names that do not fit. -/
theorem Accepted.namesFit {source : SourceEntry} (accepted : source.Accepted) :
    source.NamesFit := by
  cases source with
  | directory name attr aclInfo => trivial
  | symbolicLink entry run target => trivial
  | fifo entry run waits => trivial
  | regularFile entry run contents =>
      obtain ⟨-, -, -, -, image, -⟩ := accepted
      intro huge
      omega

end SourceEntry

section HugeFiles

variable {args : RestoreArgs} {hardlinkQ : HardlinkQ} {entries : List ArchiveEntry}
  {segment rest : List UInt8} {puts : List Put}

/-- Behind the `HUMONGUS` header of a file the decoder is in front of its first section. -/
theorem Decodes.hugeHeader {tarHdr : TlmTarHdr} {text : List Put} {name : CString}
    {contents : List UInt8}
    (header : EntryHeader tarHdr lfHumongus (hugeText contents.length name).length 0 [] [])
    (filled : Filled (hugeText contents.length name) text) (path : AbsolutePath name)
    (ordinary : contents.length < 2 ^ 63)
    (represents : Represents (.header tarHdr :: text) segment) :
    ∃ view, view.left = rest ∧ view.InSections name entries hardlinkQ [] contents 0 ∧
      Decodes args (.between (segment ++ rest) hardlinkQ entries) view := by
  obtain ⟨record, rfl, textBytes⟩ := represents.header
  obtain ⟨pad, rfl, padded⟩ := filled.represents textBytes
  refine ⟨((DecoderView.between (tarHdr.record ++ (hugeText contents.length name ++ (pad ++ rest)))
    hardlinkQ entries).leaving rest).takeHuge name contents.length, rfl,
    ⟨rfl, rfl, rfl, rfl, rfl, .unopened rfl rfl⟩, ?_⟩
  rw [List.append_assoc, List.append_assoc]
  apply Decodes.step
  · intro writer sees
    exact sees.humongus_step header rfl padded path ordinary
  · have length : tarHdr.record.length = 512 := tarHdr.length_record
    change 512 + rest.length ≤ (tarHdr.record ++ _).length
    simp only [List.length_append]
    omega

/-- A huge file of one name is put out as the header and the sections. -/
theorem Decodes.humongus {source : SourceEntry} (huge : source.Huge) (put : source.HugePuts puts)
    (represents : Represents puts segment) :
    ∃ entry run contents sections behind view, source = .regularFile entry run contents ∧
      contents ≠ [] ∧ AbsolutePath entry.fullname ∧
      SectionPuts lfNormal entry.attr.stIno entry.fullname 1 contents sections ∧
      Represents sections behind ∧ view.left = behind ++ rest ∧
      view.InSections entry.fullname entries hardlinkQ [] contents 0 ∧
      tlmMaxTarImage < contents.length ∧
      Decodes args (.between (segment ++ rest) hardlinkQ entries) view := by
  cases source with
  | directory name attr aclInfo => cases huge
  | symbolicLink entry run target => cases huge
  | fifo entry run waits => cases huge
  | regularFile entry run contents =>
      obtain ⟨accepted, -, -, -, image, ordinary, -⟩ := huge
      obtain ⟨tarHdr, text, sections, rfl, header, filled, sectionPuts⟩ := put
      obtain ⟨front, behind, rfl, nameBytes, sectionBytes⟩ := represents.split
      have nonempty : contents ≠ [] := by
        rintro rfl
        exact Nat.not_lt_zero _ image
      obtain ⟨view, left, inside, named⟩ := @Decodes.hugeHeader args hardlinkQ entries front
        (behind ++ rest) tarHdr text entry.fullname contents header filled accepted.path ordinary
        nameBytes
      rw [← List.append_assoc] at named
      exact ⟨entry, run, contents, sections, behind, view, rfl, nonempty, accepted.path,
        sectionPuts, sectionBytes, left, inside, image, named⟩

/-- The decoder restores an entry of which the names fit. -/
theorem Decodes.anySource (all : RestoresAll args) {source : SourceEntry}
    (put : source.PutsAny puts) (represents : Represents puts segment) (fits : source.NamesFit) :
    Decodes args (.between (segment ++ rest) hardlinkQ entries)
      (.between rest hardlinkQ (source.restoredOnto args entries)) := by
  rcases put with ⟨accepted, put⟩ | ⟨huge, put⟩
  · exact Decodes.source all source accepted put represents
  · obtain ⟨entry, run, contents, sections, behind, view, rfl, nonempty, path, sectionPuts, bytes,
      left, inside, image, named⟩ := @Decodes.humongus args hardlinkQ entries segment rest puts
        source huge put represents
    have spills : 0 + TarStream.sectionNames entry.fullname 1 contents.length < tlmMaxPathName := by
      rw [Nat.zero_add]
      exact fits image
    exact named.trans (Decodes.sections all (fun _ => .normal) sectionPuts path bytes inside left
      nonempty spills)

/-- The decoder restores a list of entries of which the names fit. -/
theorem Decodes.anySources (all : RestoresAll args) {sources : List SourceEntry}
    {putss : List (List Put)} {content : List UInt8}
    (put : List.Forall₂ SourceEntry.PutsAny sources putss)
    (represents : Represents putss.flatten content)
    (fits : ∀ source ∈ sources, source.NamesFit) :
    Decodes args (.between (content ++ rest) hardlinkQ entries)
      (.between rest hardlinkQ (SourceEntry.restoredAll args entries sources)) := by
  induction put generalizing content entries with
  | nil =>
      cases represents
      exact .refl
  | @cons source _ sources _ head _ ih =>
      obtain ⟨front, back, rfl, before, after⟩ := represents.split
      rw [List.append_assoc]
      have first := @Decodes.anySource args hardlinkQ entries front (back ++ rest) _ all source head
        before (fits _ (by simp))
      have others := @ih (source.restoredOnto args entries) back after
        (fun other listed => fits other (by simp [listed]))
      exact first.trans others

/-- In the first huge file of which the names do not fit, the decoder faults. -/
theorem Faults.anySources (all : RestoresAll args) {sources : List SourceEntry}
    {putss : List (List Put)} {content : List UInt8}
    (put : List.Forall₂ SourceEntry.PutsAny sources putss)
    (represents : Represents putss.flatten content)
    (spills : ¬ ∀ source ∈ sources, source.NamesFit) :
    Faults args (.between (content ++ rest) hardlinkQ entries) rest.length := by
  induction put generalizing content entries with
  | nil =>
      refine absurd ?_ spills
      intro source listed
      cases listed
  | @cons source _ sources _ head _ ih =>
      obtain ⟨front, back, rfl, before, after⟩ := represents.split
      rw [List.append_assoc]
      by_cases fits : source.NamesFit
      · have first :=
          @Decodes.anySource args hardlinkQ entries front (back ++ rest) _ all source head
          before fits
        have later : ¬ ∀ source ∈ sources, source.NamesFit := by
          intro others
          apply spills
          intro other listed
          rcases List.mem_cons.mp listed with rfl | inRest
          · exact fits
          · exact others other inRest
        exact first.faults (ih after later) (show rest.length ≤ (back ++ rest).length by
          rw [List.length_append]; omega)
      · rcases head with ⟨accepted, -⟩ | ⟨huge, put⟩
        · exact absurd accepted.namesFit fits
        · obtain ⟨entry, run, contents, sections, behind, view, rfl, nonempty, path, sectionPuts,
            bytes, left, inside, image, named⟩ := @Decodes.humongus args hardlinkQ entries front
              (back ++ rest) _ source huge put before
          have overrun : tlmMaxPathName ≤
              0 + TarStream.sectionNames entry.fullname 1 contents.length := by
            rw [Nat.zero_add]
            exact Nat.le_of_not_lt fun short => fits fun _ => short
          have behind_ : (back ++ rest).length ≤ view.left.length := by
            rw [left]
            simp only [List.length_append]
            omega
          have faults := named.faults
            (Faults.sections all sectionPuts path bytes inside left (by decide) overrun) behind_
          exact faults.mono (show rest.length ≤ (back ++ rest).length by
            rw [List.length_append]; omega)

end HugeFiles

/-- The decoder is between two entries: of those before it has no name, no file in
sections and no open file left. -/
structure RestoreWriter.AtRest (writer : RestoreWriter) : Prop where
  running : writer.tcWriterStop = false
  single : writer.multiVolume = false
  longname : writer.longname.string = []
  nmEnd : writer.nmEnd = 0
  longlink : writer.longlink.string = []
  lnkEnd : writer.lnkEnd = 0
  hugename : writer.hugename.string = []
  hugeSize : writer.hugeSize = 0
  fp : writer.fp = .closed

theorem Sees.atRest {left : List UInt8} {hardlinkQ : HardlinkQ} {entries : List ArchiveEntry}
    {writer : RestoreWriter} (sees : Sees (.between left hardlinkQ entries) writer) :
    writer.AtRest :=
  ⟨sees.running, sees.single, sees.longname [] rfl, sees.nmEnd, sees.longlink, sees.lnkEnd,
    sees.hugename, sees.hugeSize, sees.fp⟩

/-- The decoder restores some entries, without a fault, and is then at rest in front of the
bytes behind them. -/
def RestoresEntries (args : RestoreArgs) (blocks : List ReadBlock) (hardlinkQ : HardlinkQ)
    (entries : List ArchiveEntry) (tail : List UInt8) : Prop :=
  let decoder rounds := RestoreWriter.tarGetdirLoop args rounds
    (RestoreWriter.start args blocks hardlinkQ ⟨[], [], []⟩)
  ∃ rounds, (decoder rounds).AtRest ∧ Restored.of (decoder rounds).ops = ⟨entries, none⟩ ∧
    RestoreWriter.bytesOf (decoder rounds).blocks = tail ∧
    ∀ fewer ≤ rounds, (decoder fewer).faulted = false

theorem Decodes.restoresEntries {args : RestoreArgs} {blocks : List ReadBlock}
    {hardlinkQ finalQ : HardlinkQ} {entries : List ArchiveEntry} {tail : List UInt8}
    (decodes : Decodes args (.between (RestoreWriter.bytesOf blocks) hardlinkQ [])
      (.between tail finalQ entries)) (whole : RestoreWriter.Whole blocks) :
    RestoresEntries args blocks hardlinkQ entries tail := by
  obtain ⟨rounds, last, sees, -, run, sound⟩ := decodes _ (Sees.start args whole hardlinkQ)
  have reached := run 0
  change RestoreWriter.tarGetdirLoop args rounds _ = last at reached
  subst reached
  exact ⟨rounds, sees.atRest, sees.restored, sees.left, fun fewer within => (sound fewer within).1⟩

section HugeArchives

variable {size : Nat} (positive : 0 < size) (small : size < 2 ^ 32) (records : 512 ∣ size)
  (fileCount : Nat) (owners : OwnerNames) {sources : List SourceEntry} (encoderQ : HardlinkQ)
  {args : RestoreArgs} {blocks : List ReadBlock} {tail : List UInt8}

/-- An archive of accepted entries and huge files consists of what each is put out as. -/
theorem archiveOf_represents (accepted : ∀ source ∈ sources, source.Accepted ∨ source.Huge) :
    ∃ putss, List.Forall₂ SourceEntry.PutsAny sources putss ∧
      Represents putss.flatten
        (archiveOf positive small records fileCount owners encoderQ sources) := by
  obtain ⟨putss, emits, put⟩ := SourceEntry.encodeAll_emits_any owners sources accepted
    encoderQ (grantsLeft_initial positive small records fileCount)
  exact ⟨putss, put, archiveOf_of_emits positive small records fileCount owners encoderQ emits⟩

theorem restoresBefore_of_namesFit (accepted : ∀ source ∈ sources, source.Accepted ∨ source.Huge)
    (all : RestoresAll args) (whole : RestoreWriter.Whole blocks)
    (bytes : RestoreWriter.bytesOf blocks =
      archiveOf positive small records fileCount owners encoderQ sources ++ tail)
    (decoderQ : HardlinkQ) (fits : ∀ source ∈ sources, source.NamesFit) :
    RestoresEntries args blocks decoderQ (SourceEntry.restoredAll args [] sources) tail := by
  obtain ⟨putss, put, represents⟩ :=
    archiveOf_represents positive small records fileCount owners encoderQ accepted
  have decodes := @Decodes.anySources args decoderQ [] tail all sources putss _ put represents fits
  rw [← bytes] at decodes
  exact decodes.restoresEntries whole

theorem not_restoresBefore (accepted : ∀ source ∈ sources, source.Accepted ∨ source.Huge)
    (all : RestoresAll args) (whole : RestoreWriter.Whole blocks)
    (bytes : RestoreWriter.bytesOf blocks =
      archiveOf positive small records fileCount owners encoderQ sources ++ tail)
    (decoderQ : HardlinkQ) (spills : ¬ ∀ source ∈ sources, source.NamesFit) :
    ¬ RestoresEntries args blocks decoderQ (SourceEntry.restoredAll args [] sources) tail := by
  rintro ⟨rounds, -, -, left, sound⟩
  obtain ⟨putss, put, represents⟩ :=
    archiveOf_represents positive small records fileCount owners encoderQ accepted
  have faults := @Faults.anySources args decoderQ [] tail all sources putss _ put represents spills
  rw [← bytes] at faults
  obtain ⟨fault, faulted, unread⟩ := faults _ (Sees.start args whole decoderQ)
  by_cases sooner : fault ≤ rounds
  · exact absurd (faulted.symm.trans (sound fault sooner)) (by decide)
  · have more := unread rounds (by omega)
    have ended := congrArg List.length left
    dsimp only at ended
    omega

/-- An archive with huge files is restored, and whatever follows it is read from the state
it was begun in, exactly when the names of the sections of each huge file fit the
decoder's buffer together. -/
theorem restoresBefore_iff (accepted : ∀ source ∈ sources, source.Accepted ∨ source.Huge)
    (all : RestoresAll args) (whole : RestoreWriter.Whole blocks)
    (bytes : RestoreWriter.bytesOf blocks =
      archiveOf positive small records fileCount owners encoderQ sources ++ tail)
    (decoderQ : HardlinkQ) :
    RestoresEntries args blocks decoderQ (SourceEntry.restoredAll args [] sources) tail ↔
      ∀ source ∈ sources, source.NamesFit := by
  constructor
  · intro restores
    by_contra spills
    exact not_restoresBefore positive small records fileCount owners encoderQ accepted all whole
      bytes decoderQ spills restores
  · intro fits
    exact restoresBefore_of_namesFit positive small records fileCount owners encoderQ accepted all
      whole bytes decoderQ fits

end HugeArchives

/-! ## A file of two sections -/

/-- Any bytes are the front of some whole blocks. -/
theorem RestoreWriter.Whole.exists_front (count : Nat) (bytes : List UInt8)
    (enough : bytes.length ≤ 512 * count) :
    ∃ blocks tail, Whole blocks ∧ bytesOf blocks = bytes ++ tail := by
  induction count generalizing bytes with
  | zero =>
      have empty : bytes = [] := List.length_eq_zero_iff.mp (by omega)
      refine ⟨[], [], ?_, ?_⟩
      · intro block listed
        cases listed
      · rw [empty]
        rfl
  | succ count ih =>
      obtain ⟨blocks, tail, whole, rest⟩ := ih (bytes.drop 512) (by rw [List.length_drop]; omega)
      have length : (bytes.take 512 ++ List.replicate (512 - bytes.length) 0).length = 512 := by
        rw [List.length_append, List.length_take, List.length_replicate]
        omega
      by_cases last : bytes.length ≤ 512
      · refine ⟨[⟨bytes.take 512 ++ List.replicate (512 - bytes.length) 0, 0, by omega⟩],
          List.replicate (512 - bytes.length) 0, ?_, ?_⟩
        · intro block listed
          rw [List.mem_singleton.mp listed]
          exact ⟨by rw [length], rfl⟩
        · rw [bytesOf, List.map_singleton, List.flatten_singleton]
          exact congrArg (· ++ List.replicate (512 - bytes.length) 0) (List.take_of_length_le last)
      · have front : (bytes.take 512).length = 512 := by
          rw [List.length_take]
          omega
        refine ⟨⟨bytes.take 512, 0, by omega⟩ :: blocks, tail, ?_, ?_⟩
        · intro block listed
          rcases List.mem_cons.mp listed with rfl | inRest
          · exact ⟨by rw [front], rfl⟩
          · exact whole block inRest
        · change bytes.take 512 ++ bytesOf blocks = bytes ++ tail
          rw [rest, ← List.append_assoc, List.take_append_drop]

/-- A file of two sections of zeros in the root directory. -/
def hugeFile (name : CString) : SourceEntry :=
  let contents := List.replicate (2 ^ 31) 0
  .regularFile ⟨[slash], name, [slash], ⟨.regular, 0o644, 1, 7, 0, 0, 2 ^ 31, 0, 0⟩, none⟩
    (.ofContents contents) contents

theorem hugeFile_huge {name : CString} (nonempty : name ≠ []) (nulFree : NulFree name)
    (absolute : ((tlmCatPath [slash] name).getD []).head? = some slash)
    (short : tlmIsTooLong [slash] name = false) : (hugeFile name).Huge := by
  have noText : NoAclText none := by
    intro acl listed
    cases listed
  have length : (List.replicate (2 ^ 31) (0 : UInt8)).length = 2 ^ 31 := List.length_replicate
  refine ⟨⟨nonempty, ?_, nulFree, absolute, short, short, noText⟩, rfl, rfl, length.symm, ?_, ?_,
    FileRun.ofContents_fills _⟩
  · change NulFree [slash]
    decide
  · rw [length]
    decide
  · rw [length]
    decide

theorem restoresBefore_iff_shortName :
    ∃ blocks tail,
      RestoreWriter.bytesOf blocks = someArchive [hugeFile [102]] ++ tail ∧
      (RestoresEntries restoreArgs blocks []
        (SourceEntry.restoredAll restoreArgs [] [hugeFile [102]]) tail ↔
        ∀ source ∈ [hugeFile [102]], source.NamesFit) := by
  obtain ⟨blocks, tail, whole, bytes⟩ := RestoreWriter.Whole.exists_front
    (someArchive [hugeFile [102]]).length (someArchive [hugeFile [102]]) (by omega)
  have huge : ∀ source ∈ [hugeFile [102]], source.Accepted ∨ source.Huge := by
    intro source listed
    rw [List.mem_singleton.mp listed]
    exact .inr (hugeFile_huge (List.cons_ne_nil _ _) (by decide) rfl rfl)
  exact ⟨blocks, tail, bytes, restoresBefore_iff (show 0 < 1024 by decide) (by decide) (by decide) 0
    _ [] huge restoreArgs_all whole bytes []⟩

/-- A file of two sections with a name of 1021 bytes overruns the decoder's buffer. -/
theorem longName_overrun :
    ∃ name blocks tail, (hugeFile name).Huge ∧
      RestoreWriter.Whole blocks ∧
      RestoreWriter.bytesOf blocks = someArchive [hugeFile name] ++ tail ∧
      ¬ RestoresEntries restoreArgs blocks []
        (SourceEntry.restoredAll restoreArgs [] [hugeFile name]) tail := by
  obtain ⟨name, chosen⟩ : ∃ name : CString, name = List.replicate 1021 97 := ⟨_, rfl⟩
  have huge : (hugeFile name).Huge := by
    rw [chosen]
    apply hugeFile_huge
    · exact List.cons_ne_nil _ _
    · intro nul
      cases List.eq_of_mem_replicate nul
    · decide +kernel
    · decide +kernel
  have accepted : ∀ source ∈ [hugeFile name], source.Accepted ∨ source.Huge := by
    intro source listed
    rw [List.mem_singleton.mp listed]
    exact .inr huge
  have spills : ¬ ∀ source ∈ [hugeFile name], source.NamesFit := by
    intro fits
    have fit := fits (hugeFile name) (by simp)
    unfold hugeFile SourceEntry.NamesFit at fit
    dsimp only at fit
    rw [List.length_replicate] at fit
    have overrun := fit (by decide)
    rw [chosen] at overrun
    exact absurd overrun (by decide +kernel)
  obtain ⟨blocks, tail, whole, bytes⟩ := RestoreWriter.Whole.exists_front
    (someArchive [hugeFile name]).length (someArchive [hugeFile name]) (by omega)
  exact ⟨name, blocks, tail, huge, whole, bytes, not_restoresBefore (show 0 < 1024 by decide)
    (by decide) (by decide) 0 _ [] accepted restoreArgs_all whole bytes [] spills⟩

end Ndmpd
