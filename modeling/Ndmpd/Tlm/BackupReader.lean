import Ndmpd.Tlm.HardLinkQueue
import Ndmpd.Tlm.TarStream

/-!
# The backup reader

`tlm_output_dir` and `tlm_output_file` put one entry into the stream: an ACL with its
text, a `HUMONGUS` record for a file that needs several headers, records for names and
link targets that do not fit a header, the header itself, and the data as `read(2)`
returns it. A header promises a size before the data is read.

What the operating system answers for an entry is its `FileRun`. The abort of the
operation is seen after a number of reads, so that every finite part of a run is the
run of some `FileRun`.
-/

namespace Ndmpd

open Foundation

/-- The type of a file, from its mode. -/
inductive FileType where
  | directory
  | fifo
  | symbolicLink
  | regular
  | other
  deriving DecidableEq, Repr

/-- The fields of a `struct stat` that a backup uses. `stPerm` is the mode without the
type. -/
structure Stat where
  fileType : FileType
  stPerm : Nat
  stNlink : Nat
  stIno : Nat
  stUid : Nat
  stGid : Nat
  stSize : Nat
  stMtime : Int
  stCtime : Int
  deriving DecidableEq, Repr

/-- The user and group database. -/
structure OwnerNames where
  getpwuid : Nat → Option CString
  getgrgid : Nat → Option CString

/-- A `sec_attr_t` with text: the memory of `attr_len` bytes at `attr_info` and its
address, which goes into the stream as well. -/
structure SecAttr where
  attrInfo : List UInt8
  attrAddress : Nat
  deriving DecidableEq, Repr

/-- The low bytes of a number, least significant first. -/
def littleEndian : Nat → Nat → List UInt8
  | 0, _ => []
  | count + 1, n => UInt8.ofNat n :: littleEndian count (n / 256)

theorem littleEndian_length (count n : Nat) : (littleEndian count n).length = count := by
  induction count generalizing n with
  | zero => rfl
  | succ count ih => rw [littleEndian, List.length_cons, ih]

/-- The memory of a `sec_attr_t`, 16 bytes with the type `UFSD_ACL` in the first. -/
def SecAttr.image (acl : SecAttr) : List UInt8 :=
  [1, 0, 0, 0] ++ littleEndian 4 acl.attrInfo.length ++ littleEndian 8 acl.attrAddress

/-- The result of `readlink(2)`: a target, a link that is gone, or another error. -/
inductive LinkResult where
  | target (bytes : List UInt8)
  | missing
  | failed
  deriving DecidableEq, Repr

/-- The result of `read(2)`: bytes, none of them at the end of the file, or an error. -/
inductive ReadResult where
  | bytes (bytes : List UInt8)
  | error
  deriving DecidableEq, Repr

/-- What happens while an entry is backed up. `reads` gets the number of the call, the
place in the file and the size asked for. After `readsBeforeAbort` reads the operation is
found to be aborted, before or after the next buffer has been granted. -/
structure FileRun where
  readlink : LinkResult
  opened : Bool
  nameAllocated : Bool
  reads : Nat → Nat → Nat → ReadResult
  readsBeforeAbort : Nat
  abortWithBuffer : Bool

/-- `TLM_NO_SCRATCH_SPACE`. -/
abbrev tlmNoScratchSpace : Int := 0x15

/-- `TLM_NO_SOURCE_FILE`. -/
abbrev tlmNoSourceFile : Int := 0x0b

/-- `ENOENT`. -/
abbrev enoent : Int := 2

/-- `UID_NOBODY`, also `GID_NOBODY`. -/
abbrev uidNobody : Nat := 65534

/-- A number as `%0<width>d`. -/
def decimal (width n : Nat) : CString := padLeft 48 width (numeral 10 n)

namespace TarStream

variable (stream : TarStream)

/-- The loop of `output_mem`. Each round copies at least one byte. -/
def outputMemLoop : Nat → TarStream → List UInt8 → TarStream
  | 0, stream, _ => stream
  | rounds + 1, stream, mem =>
      if mem = [] then stream
      else
        match stream.putData mem.length false fun actualSize => mem.take actualSize with
        | none => { stream with faulted := true }
        | some next => outputMemLoop rounds next (mem.drop (stream.pool.granted mem.length))

/-- `output_mem`. -/
def outputMem (mem : List UInt8) : TarStream := outputMemLoop mem.length stream mem

/-- `output_acl_header`. -/
def outputAclHeader (aclInfo : Option SecAttr) : TarStream :=
  match aclInfo with
  | none => stream
  | some acl =>
      if acl.attrInfo.head?.getD 0 = 0 then stream
      else
        let mem := acl.image ++ acl.attrInfo
        let tarHdr := { TlmTarHdr.zero with
          thLinkflag := lfAcl
          thName := .ofString _ "UFSACL".toUTF8.toList
          thSize := octalField _ 11 mem.length
          thMode := octalField _ 6 0o444
          thUid := octalField _ 6 0
          thGid := octalField _ 6 0
          thMtime := octalField _ 11 0
          thMagic := .ofString _ tlmMagic }
        match stream.putHeader (tlmBuildHeaderChecksum tarHdr) with
        | none => stream
        | some stream => stream.outputMem mem

/-- `output_humongus_header`, after its buffer has been allocated. -/
def outputHumongusHeader (fullname : CString) (fileSize : Nat) : TarStream :=
  let len := 20 + 1 + fullname.length + 1
  let tarHdr := { TlmTarHdr.zero with
    thLinkflag := lfHumongus
    thSize := octalField _ 11 len }
  match stream.putHeader (tlmBuildHeaderChecksum tarHdr) with
  | none => stream
  | some stream =>
      stream.outputMem (CharArray.ofString len (numeral 10 fileSize ++ 32 :: fullname)).bytes

/-- The name of an entry in the stream: a section of a huge file gets its number. -/
def sectionName (name : CString) (sectionNo : Nat) : CString :=
  if sectionNo = 0 then name.take (tlmMaxPathName - 1)
  else (name ++ 46 :: decimal 3 sectionNo).take (tlmMaxPathName - 1)

/-- The fields that `output_file_header` fills in alike in all of its headers. -/
def ownedHeader (owners : OwnerNames) (attr : Stat) : TlmTarHdr :=
  let uname := (owners.getpwuid attr.stUid).getD []
  let gname := (owners.getgrgid attr.stGid).getD []
  { TlmTarHdr.zero with
    thMode := octalField _ 6 attr.stPerm
    thUid := octalField _ 6 (if octal7Char < attr.stUid ∨ uname = [] then uidNobody else attr.stUid)
    thGid := octalField _ 6 (if octal7Char < attr.stGid ∨ gname = [] then uidNobody else attr.stGid)
    thUname := .ofString _ (uname.take 31)
    thGname := .ofString _ (gname.take 31)
    thMtime := octalField _ 11 (attr.stMtime % 2 ^ 64).toNat
    thMagic := .ofString _ tlmMagic }

/-- The made-up name that a header carries in the place of a long one. -/
def longName (count : Nat) (suffix : CString) : CString :=
  longnamePrefix ++ decimal 8 count ++ suffix

/-- The suffixes of made-up names and link targets. -/
def filSuffix : CString := ".fil".toUTF8.toList
def slkSuffix : CString := ".slk".toUTF8.toList

/-- The header of a name that does not fit, followed by the name. -/
def putLongName (owned : TlmTarHdr) (name : CString) : Option TarStream :=
  let tarHdr := { owned with
    thName := .ofString _ (longName stream.fileCount filSuffix)
    thLinkflag := lfLongname
    thSize := octalField _ 11 name.length }
  (stream.putHeader (tlmBuildHeaderChecksum tarHdr)).map fun next =>
    { next with fileCount := next.fileCount + 1 }.outputMem name

/-- The header of a link target that does not fit, followed by the target. -/
def putLongLink (owned : TlmTarHdr) (link : CString) : Option TarStream :=
  let tarHdr := { owned with
    thLinkname := .ofString _ (longName stream.fileCount slkSuffix)
    thLinkflag := lfLonglink
    thSize := octalField _ 11 link.length }
  (stream.putHeader (tlmBuildHeaderChecksum tarHdr)).map fun next =>
    { next with fileCount := next.fileCount + 1 }.outputMem link

/-- The link flag of an entry. -/
def linkflagOf (attr : Stat) (link : CString) : UInt8 :=
  match attr.fileType with
  | .directory => lfDir
  | .fifo => lfFifo
  | _ =>
      if 1 < attr.stNlink then lfLink
      else if link = [] then lfNormal
      else lfSymlink

/-- The header of the entry itself. `%o` prints the low 32 bits of the inode number. -/
def entryHeader (owned : TlmTarHdr) (attr : Stat) (link thName thLinkname : CString) :
    TlmTarHdr :=
  let linkflag := linkflagOf attr link
  tlmBuildHeaderChecksum { owned with
    thName := .ofString _ thName
    thLinkname := .ofString _ thLinkname
    thLinkflag := linkflag
    thHlinkIno := if linkflag = lfLink then octalField _ 11 (attr.stIno % 2 ^ 32) else .zero _
    thSize := octalField _ 11 attr.stSize }

/-- The last part of `output_file_header`. -/
def putEntryHeader (owned : TlmTarHdr) (attr : Stat) (name link : CString) : TarStream :=
  let isLongName := tlmNameSize ≤ name.length
  let isLongLink := tlmNameSize ≤ link.length
  let linkCount := if isLongName then stream.fileCount + 1 else stream.fileCount
  let nextCount := if isLongLink then linkCount + 1 else linkCount
  let tarHdr := entryHeader owned attr link
    (if isLongName then longName stream.fileCount filSuffix else name)
    (if isLongLink then longName linkCount slkSuffix else link)
  match stream.putHeader tarHdr with
  | none => stream
  | some next =>
      { next with
        fileCount :=
          if (isLongName ∨ isLongLink) ∧ 99999990 < nextCount then 0 else nextCount }

/-- `output_file_header`. -/
def outputFileHeader (owners : OwnerNames) (name link : CString) (attr : Stat)
    (sectionNo : Nat) : TarStream :=
  let owned := ownedHeader owners attr
  let name := sectionName name sectionNo
  match (if tlmNameSize ≤ name.length then stream.putLongName owned name else some stream) with
  | none => stream
  | some named =>
      match (if tlmNameSize ≤ link.length then named.putLongLink owned link else some named) with
      | none => named
      | some linked => linked.putEntryHeader owned attr name link

/-- `tlm_output_dir`. The size in the header is the size of the directory. -/
def tlmOutputDir (owners : OwnerNames) (name : CString) (attr : Stat) (aclInfo : Option SecAttr) :
    TarStream :=
  (stream.outputAclHeader aclInfo).outputFileHeader owners name [] attr 0

end TarStream

/-- `tlm_readlink`: the target that is written into the buffer, and the result. A link
that is gone counts as one with an empty target. -/
def tlmReadlink (run : FileRun) : CString × Int :=
  match run.readlink with
  | .target bytes =>
      let bytes := bytes.take (tlmMaxPathName - 1)
      (bytes, bytes.length)
  | .missing => ([], 0)
  | .failed => ([], -1)

/-- The local variables of the two loops of `tlm_output_file`. A section has been left
when nothing of it remains. -/
structure DataCursor where
  fileSize : Nat
  sectionSize : Nat
  sectionNo : Nat
  seekSpot : Nat
  call : Nat
  deriving DecidableEq, Repr

/-- The cursor after `read(2)` has returned `count` bytes. At the end of the file the
rest of the section is given up. -/
def DataCursor.advance (cursor : DataCursor) (count : Nat) : DataCursor :=
  let sectionSize := if count = 0 then 0 else cursor.sectionSize - count
  { fileSize := cursor.fileSize - count
    sectionSize := sectionSize
    sectionNo := if sectionSize = 0 then cursor.sectionNo + 1 else cursor.sectionNo
    seekSpot := cursor.seekSpot + count
    call := cursor.call + 1 }

/-- How the loops of `tlm_output_file` are left. -/
inductive DataExit where
  | finished
  | tornDown
  deriving DecidableEq, Repr

namespace TarStream

/-- The head of the outer loop: a new section starts with a header for its size. -/
def openSection (putHeader : TarStream → Nat → Nat → TarStream) (stream : TarStream)
    (cursor : DataCursor) : TarStream × DataCursor :=
  if cursor.sectionSize = 0 then
    let sectionSize := min cursor.fileSize tlmMaxTarImage
    (putHeader stream sectionSize cursor.sectionNo, { cursor with sectionSize := sectionSize })
  else (stream, cursor)

/-- The loops over sections and reads of `tlm_output_file`, for a number of reads before
the abort is seen. `putHeader` writes the header of a section, given its size and
number. -/
def outputData (run : FileRun) (putHeader : TarStream → Nat → Nat → TarStream) :
    Nat → TarStream → DataCursor → TarStream × DataCursor × DataExit
  | 0, stream, cursor =>
      if cursor.fileSize = 0 then (stream, cursor, .finished)
      else
        let (stream, cursor) := stream.openSection putHeader cursor
        if run.abortWithBuffer then
          match stream.putData cursor.sectionSize false fun _ => [] with
          | none => (stream, cursor, .tornDown)
          | some next => ({ next with tcWriterAbort := true }, cursor, .tornDown)
        else ({ stream with tcWriterAbort := true }, cursor, .tornDown)
  | reads + 1, stream, cursor =>
      if cursor.fileSize = 0 then (stream, cursor, .finished)
      else
        let (stream, cursor) := stream.openSection putHeader cursor
        let readSize := min cursor.sectionSize (stream.pool.granted cursor.sectionSize)
        match run.reads cursor.call cursor.seekSpot readSize with
        | .error =>
            match stream.putData cursor.sectionSize false fun _ => [] with
            | none => (stream, cursor, .tornDown)
            | some next => (next, cursor, .tornDown)
        | .bytes bytes =>
            let bytes := bytes.take readSize
            match stream.putData cursor.sectionSize false fun _ => bytes with
            | none => (stream, cursor, .tornDown)
            | some next => outputData run putHeader reads next (cursor.advance bytes.length)

end TarStream

/-- An entry for `tlm_output_file`: its directory and name, the directory it is read
from, and its attributes. -/
structure FileEntry where
  dir : CString
  name : CString
  chkdir : CString
  attr : Stat
  aclInfo : Option SecAttr

/-- The name and data of a huge file start with a `HUMONGUS` header. -/
def TarStream.outputHugeName (fullname : CString) (fileSize : Nat) (stream : TarStream) :
    TarStream :=
  if tlmMaxTarImage < fileSize then stream.outputHumongusHeader fullname fileSize else stream

/-- The header of one section of a file. -/
def FileEntry.putSection (entry : FileEntry) (owners : OwnerNames) (fullname : CString)
    (stream : TarStream) (size sectionNo : Nat) : TarStream :=
  stream.outputFileHeader owners fullname [] { entry.attr with stSize := size } sectionNo

/-- The headers and data of a file: a file without data to put out has one header, of
its own size, and the loops then do nothing. -/
def TarStream.outputContents (owners : OwnerNames) (entry : FileEntry) (fullname : CString)
    (run : FileRun) (sectionNo fileSize : Nat) (stream : TarStream) : TarStream × DataExit :=
  let stream :=
    if fileSize = 0 then stream.outputFileHeader owners fullname [] entry.attr sectionNo
    else stream
  let (stream, _, exit) := TarStream.outputData run (entry.putSection owners fullname)
    run.readsBeforeAbort stream ⟨fileSize, 0, sectionNo, 0, 0⟩
  (stream, exit)

/-- Whether the data of the entry has been put out under another name. -/
def FileEntry.hardlinkDone (entry : FileEntry) (hardlinkQ : HardlinkQ) : Bool :=
  1 < entry.attr.stNlink ∧ (hardlinkQ.hardlinkQGet entry.attr.stIno).isSome

/-- Whether `tlm_output_file` comes to `open(2)`. -/
def FileEntry.comesToOpen (entry : FileEntry) (hardlinkQ : HardlinkQ) : Bool :=
  !tlmIsTooLong entry.dir entry.name && (tlmCatPath entry.dir entry.name).isSome &&
    (tlmCatPath entry.chkdir entry.name).isSome && entry.attr.fileType ≠ .symbolicLink &&
      !entry.hardlinkDone hardlinkQ

/-- `tlm_output_file`: the stream, the queue and the result, which is the size of the
file unless the entry had to be left out. `open(2)` is one that returns. -/
def tlmOutputFile (owners : OwnerNames) (entry : FileEntry) (run : FileRun) (stream : TarStream)
    (hardlinkQ : HardlinkQ) : TarStream × HardlinkQ × Int :=
  if tlmIsTooLong entry.dir entry.name then (stream, hardlinkQ, -tlmNoScratchSpace)
  else
    match tlmCatPath entry.dir entry.name, tlmCatPath entry.chkdir entry.name with
    | some fullname, some _ =>
        let pos := stream.pool.bufs.tbsOffset
        if entry.attr.fileType = .symbolicLink then
          let (linkname, fileSize) := tlmReadlink run
          if fileSize < 0 then (stream, hardlinkQ, -enoent)
          else (stream.outputFileHeader owners fullname linkname entry.attr 0, hardlinkQ, 0)
        else if ¬ entry.hardlinkDone hardlinkQ ∧ ¬ run.opened then
          (stream, hardlinkQ, -tlmNoSourceFile)
        else
          let realSize := entry.attr.stSize
          let stream := stream.outputAclHeader entry.aclInfo
          if tlmMaxTarImage < realSize ∧ ¬ run.nameAllocated then
            (stream, hardlinkQ, -tlmNoScratchSpace)
          else
            let sectionNo := if tlmMaxTarImage < realSize then 1 else 0
            let fileSize := if entry.hardlinkDone hardlinkQ then 0 else realSize
            let (stream, exit) := (stream.outputHugeName fullname realSize).outputContents owners
              entry fullname run sectionNo fileSize
            let hardlinkQ :=
              if exit = .finished ∧ 1 < entry.attr.stNlink ∧ ¬ entry.hardlinkDone hardlinkQ then
                hardlinkQ.hardlinkQAdd entry.attr.stIno pos none false
              else hardlinkQ
            (stream, hardlinkQ, realSize)
    | _, _ => (stream, hardlinkQ, -tlmNoScratchSpace)

/-- `write_tar_eof`: the block is handed to the writer as it is. The result is what the
writer has passed on in the end. -/
def TarStream.writeTarEof (stream : TarStream) : List (List UInt8) :=
  stream.pool.sentBlocks ++ [stream.pool.block.tbBufferData]

end Ndmpd
