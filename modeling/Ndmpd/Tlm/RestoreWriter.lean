import Ndmpd.Tlm.BackupReader
import Ndmpd.Tlm.Selection

/-!
# The restore writer

`tar_getdir` reads one record after the other and carries out what it says. What a
record means depends on the records before it: long names, long link targets, the name
and size of a file in sections, an ACL and the attributes of open directories are kept
in local variables until an entry uses them up, and so is a file that is still open.

The decoder's effects are its list of operations on the file system (`ops`). The results
of these operations are scripted in `io`; where a script has ended they succeed. The
stream has ended when no block is left: the reader thread then stops the decoder.
-/

namespace Ndmpd

open Foundation

/-- One block of the restore pool. Its size is an `int`. -/
structure ReadBlock where
  bytes : List UInt8
  tbErrno : Int
  small : bytes.length < 2 ^ 31

/-- The part of a block behind its front. -/
def ReadBlock.rest (block : ReadBlock) (count : Nat) : ReadBlock where
  bytes := block.bytes.drop count
  tbErrno := block.tbErrno
  small := by
    have small := block.small
    rw [List.length_drop]
    omega

/-- The fields of a `tlm_acls_t` that a restore uses. `aclMemory` is what was read to
the address of `acl_info`. -/
structure TlmAcls where
  aclOverwrite : Bool
  aclUpdate : Bool
  aclNonTrivial : Bool
  aclMemory : List UInt8
  attrInfo : Option (List UInt8)
  stMode : Int
  stSize : Int
  stUid : Int
  stGid : Int
  stMtime : Int
  uname : CString
  gname : CString
  deriving DecidableEq, Repr

/-- A cleared `tlm_acls_t`. -/
def TlmAcls.zero : TlmAcls where
  aclOverwrite := false
  aclUpdate := false
  aclNonTrivial := false
  aclMemory := []
  attrInfo := none
  stMode := 0
  stSize := 0
  stUid := 0
  stGid := 0
  stMtime := 0
  uname := []
  gname := []

/-- What the decoder does to the file system and what it reports. The flag is the
success of the operation. -/
inductive RestoreOp where
  | makeDirectory (path : CString) (done : Bool)
  | symbolicLink (path target : CString) (done : Bool)
  | hardLink (old path : CString) (done : Bool)
  | makeFifo (path : CString) (done : Bool)
  | openFile (path : CString) (done : Bool)
  | write (bytes : List UInt8)
  | closeFile
  | setAcl (path : Option CString) (acls : TlmAcls)
  | entryRestored (name : CString) (pos : Nat)
  deriving DecidableEq, Repr

/-- An entry of an archive. -/
inductive ArchiveEntry where
  | directory (path : CString)
  | symbolicLink (path target : CString)
  | hardLink (path old : CString)
  | fifo (path : CString)
  | regularFile (path : CString) (contents : List UInt8)
  deriving DecidableEq, Repr

/-- The entries restored, and the file that is being written. -/
structure Restored where
  entries : List ArchiveEntry
  current : Option (CString × List UInt8)
  deriving DecidableEq, Repr

/-- The effect of an operation on what has been restored. Attributes do not count. -/
def Restored.apply (restored : Restored) : RestoreOp → Restored
  | .makeDirectory path true => { restored with entries := restored.entries ++ [.directory path] }
  | .symbolicLink path target true =>
      { restored with entries := restored.entries ++ [.symbolicLink path target] }
  | .hardLink old path true => { restored with entries := restored.entries ++ [.hardLink path old] }
  | .makeFifo path true => { restored with entries := restored.entries ++ [.fifo path] }
  | .openFile path true => { restored with current := some (path, []) }
  | .write bytes =>
      { restored with current := restored.current.map fun file => (file.1, file.2 ++ bytes) }
  | .closeFile =>
      match restored.current with
      | some (path, contents) => ⟨restored.entries ++ [.regularFile path contents], none⟩
      | none => restored
  | _ => restored

/-- What a list of operations has restored. -/
def Restored.of (ops : List RestoreOp) : Restored := ops.foldl apply ⟨[], none⟩

/-- Scripted results: whether files can be opened, whether directories and links can be made
(`none` if they can, and else which part of its path a directory fails at), and how much of
each `write(2)` is taken (`none` for an error). -/
structure RestoreIo where
  opened : List Bool
  made : List (Option Nat)
  written : List (Option Nat)
  deriving DecidableEq, Repr

/-- The file of `tar_getdir`: 0, -1 or a descriptor. -/
inductive FilePointer where
  | closed
  | failed
  | opened
  deriving DecidableEq, Repr

/-- The arguments of `tar_getdir`. `newName` is the name maker, `existing` gives the
modification time of the files that are already there, and `mknod` is whether a FIFO can be
made at a path when some entries have been restored: its directory has to be there. -/
structure RestoreArgs where
  newName : Nat → CString → Option CString
  sels : List CString
  exls : List CString
  flags : RestoreFlags
  dar : Bool
  existing : CString → Option Int
  mknod : List ArchiveEntry → CString → Bool

/-- The local variables of `tar_getdir`, the pool and the effects so far. -/
structure RestoreWriter where
  blocks : List ReadBlock
  tcWriterStop : Bool
  faulted : Bool
  acls : TlmAcls
  longname : CharArray tlmMaxPathName
  longlink : CharArray tlmMaxPathName
  hugename : CharArray tlmMaxPathName
  hugeSize : Int
  nmEnd : Nat
  lnkEnd : Nat
  aclSpot : Nat
  sizeLeft : Int
  lastAction : UInt8
  multiVolume : Bool
  rv : Int
  fp : FilePointer
  dtree : List (CString × TlmAcls)
  hardlinkQ : HardlinkQ
  retry : CString
  io : RestoreIo
  ops : List RestoreOp

namespace RestoreWriter

variable (writer : RestoreWriter)

/-- Append to the effects. -/
def perform (op : RestoreOp) : RestoreWriter := { writer with ops := writer.ops ++ [op] }

/-- Take the next scripted result of making a directory or a link. -/
def nextMade : Bool × RestoreWriter :=
  ((writer.io.made.head?.getD none).isNone,
    { writer with io := { writer.io with made := writer.io.made.tail } })

/-! ## Reading from the pool -/

/-- The bytes that are left in the pool. -/
def available : Nat := (writer.blocks.map fun block => block.bytes.length).sum

/-- `get_read_buffer`: up to `want` bytes of the current block, in whole records, with
the error of the block. NULL once the reader has stopped. -/
def getReadBuffer (want : Nat) : Option (List UInt8 × Int) × RestoreWriter :=
  if writer.tcWriterStop then (none, writer)
  else
    match writer.blocks.dropWhile fun block => block.bytes = [] with
    | [] => (none, { writer with blocks := [], tcWriterStop := true })
    | block :: rest =>
        let size := unsignedMin (roundToRecords want) block.bytes.length
        (some (block.bytes.take size, block.tbErrno),
          { writer with blocks := block.rest size :: rest })

/-- The loop of `input_mem`, with the bytes read so far. A copy from the NULL record is
a fault. -/
def inputMemLoop : Nat → RestoreWriter → List UInt8 → Nat → Option (List UInt8) × RestoreWriter
  | 0, writer, mem, _ => (some mem, writer)
  | rounds + 1, writer, mem, toread =>
      if toread = 0 then (some mem, writer)
      else
        match writer.getReadBuffer toread with
        | (none, writer) => (none, { writer with faulted := true })
        | (some (rec, err), writer) =>
            if err ≠ 0 then (none, writer)
            else
              let copied := rec.take toread
              inputMemLoop rounds writer (mem ++ copied) (toread - copied.length)

/-- `input_mem`, which reads nothing for a negative length. -/
def inputMem (len : Int) : Option (List UInt8) × RestoreWriter :=
  inputMemLoop len.toNat writer [] len.toNat

/-! ## Attributes -/

/-- `set_acl`: apply the attributes to a path, and clear them unless an ACL without
text was to be set. -/
def setAcl (path : Option CString) (acls : TlmAcls) : RestoreWriter × TlmAcls :=
  (writer.perform (.setAcl path acls),
    if acls.aclNonTrivial ∧ acls.attrInfo = none then acls else .zero)

/-- `set_acl` on the attributes of the current entry. -/
def setOwnAcl (path : Option CString) : RestoreWriter :=
  let (writer, acls) := writer.setAcl path writer.acls
  { writer with acls := acls }

/-- `dtree_push`. -/
def dtreePush (path : CString) : RestoreWriter :=
  { writer with dtree := (path, writer.acls) :: writer.dtree, acls := .zero }

/-- Pop directories and set their attributes until one contains the path: its name is
somewhere in the path. -/
def dtreePopUntil (path : CString) : RestoreWriter :=
  let left := writer.dtree.takeWhile fun entry => ¬ entry.1 <:+: path
  { writer with
    dtree := writer.dtree.dropWhile fun entry => ¬ entry.1 <:+: path
    ops := writer.ops ++ left.map fun entry => .setAcl (some entry.1) entry.2 }

/-- Pop all directories. -/
def dtreePopAll : RestoreWriter :=
  { writer with
    dtree := []
    ops := writer.ops ++ writer.dtree.map fun entry => .setAcl (some entry.1) entry.2 }

/-! ## Files -/

/-- Whether `restore_file` takes a file although one is there. Only an update compares
the dates. -/
def replaces (args : RestoreArgs) (acls : TlmAcls) (path : CString) : Bool :=
  match args.existing path with
  | none => true
  | some mtime =>
      if acls.aclOverwrite then true
      else if acls.aclUpdate then mtime < acls.stMtime
      else true

/-- The part of `restore_file` that opens the file, and whether it is still wanted. -/
def openWanted (args : RestoreArgs) (path : CString) : RestoreWriter × Bool :=
  if replaces args writer.acls path then
    let done := writer.io.opened.head?.getD true
    let writer := { writer with
      io := { writer.io with opened := writer.io.opened.tail }
      fp := if done then .opened else .failed }
    (writer.perform (.openFile path done), done)
  else (writer, false)

/-- `write(2)` of a record: the result, with less than all bytes where the script says
so, and -1 without an open file. -/
def writeRecord (bytes : List UInt8) : RestoreWriter × Int :=
  if writer.fp = .opened then
    let result := writer.io.written.head?.getD (some bytes.length)
    let writer := { writer with io := { writer.io with written := writer.io.written.tail } }
    match result with
    | none => (writer, -1)
    | some count =>
        let taken := bytes.take count
        (writer.perform (.write taken), taken.length)
  else (writer, -1)

/-- The loop of `restore_file`. A NULL record comes with the size `RECORDSIZE` and no error,
but nothing can be written from it, and the loop is left as `tc_writer` has changed. -/
def restoreLoop : Nat → RestoreWriter → Int → Bool → RestoreWriter
  | 0, writer, _, _ => writer
  | rounds + 1, writer, size, wanted =>
      if size ≤ 0 ∨ writer.tcWriterStop then writer
      else
        match writer.getReadBuffer size.toNat with
        | (none, writer) => writer
        | (some (rec, error), writer) =>
            if error ≠ 0 then writer
            else
              let front := rec.take size.toNat
              if wanted then
                let (writer, writeSize) := writer.writeRecord front
                restoreLoop rounds writer (size - writeSize) wanted
              else restoreLoop rounds writer (size - front.length) wanted

/-- `restore_file`. Every round takes bytes from the pool or is the last one. A record
is never empty, so that nothing is ever reported as left over. -/
def restoreFile (args : RestoreArgs) (realName : Option CString) (size : Int) (wanted : Bool) :
    RestoreWriter :=
  let opened : RestoreWriter × Bool :=
    match realName with
    | none => (writer, false)
    | some path =>
        if writer.fp = .closed ∧ wanted then writer.openWanted args path else (writer, wanted)
  let restored := restoreLoop (opened.1.available + 1) opened.1 size opened.2
  if restored.fp ≠ .closed ∧ writer.hugeSize - size ≤ 0 then
    let closed := if restored.fp = .opened then restored.perform .closeFile else restored
    { closed with fp := .closed }.setOwnAcl realName
  else restored

/-! ## Names -/

/-- `get_long_name`, for one of the two name buffers and its end. A name that fills its
buffer has its NUL written behind the buffer, which is a fault. -/
def getLongName (recsize : Int) (name : CharArray tlmMaxPathName) (bufSpot : Nat) :
    RestoreWriter × CharArray tlmMaxPathName × Nat :=
  match writer.inputMem recsize with
  | (none, writer) =>
      ({ writer with faulted := writer.faulted || decide (tlmMaxPathName ≤ bufSpot) },
        name.write bufSpot [0], bufSpot)
  | (some mem, writer) =>
      ({ writer with
          faulted := writer.faulted || decide (tlmMaxPathName ≤ bufSpot + mem.length) },
        (name.write bufSpot mem).write (bufSpot + mem.length) [0], bufSpot + mem.length)

/-- The size of a long name, cut to what is left of its buffer as `min` sees it. -/
def longNameSize (fileSize : Int) (bufSpot : Nat) : Int :=
  toInt32 (unsignedMin (fileSize % 2 ^ 32).toNat
    (((tlmMaxPathName : Int) - bufSpot) % 2 ^ 32).toNat)

/-- `parse` with a blank for a separator: the first word and what follows the blanks
behind it. -/
def parseBlank : CString → CString × CString
  | [] => ([], [])
  | byte :: line =>
      (byte :: line.takeWhile (· ≠ 32), (line.dropWhile (· ≠ 32)).dropWhile (· = 32))

/-- `atoll` without its overflow. -/
def atoll (text : CString) : Int :=
  let text := text.dropWhile fun byte => byte = 32 ∨ 9 ≤ byte ∧ byte ≤ 13
  match text with
  | 45 :: digits => -(numeralValue 10 (digits.takeWhile (isDigit 10)) : Int)
  | 43 :: digits => numeralValue 10 (digits.takeWhile (isDigit 10))
  | digits => numeralValue 10 (digits.takeWhile (isDigit 10))

/-- `get_humongus_file_header` on the cleared name buffer. -/
def getHumongusFileHeader (recsize : Int) : RestoreWriter :=
  let recsize : Int := if recsize = 0 then recordSize else recsize
  let cleared := CharArray.zero tlmMaxPathName
  match writer.inputMem recsize with
  | (none, writer) => { writer with hugename := cleared, hugeSize := 0 }
  | (some mem, writer) =>
      if (mem.length : Int) ≠ recsize then { writer with hugename := cleared, hugeSize := 0 }
      else
        let name := cleared.write 0 mem
        let (value, rest) := parseBlank name.string
        { writer with hugename := name.strlcpy rest, hugeSize := atoll value }

/-- The number in little-endian order at the front of a memory. -/
def littleEndianValue (memory : List UInt8) : Nat :=
  memory.foldr (fun byte value => byte.toNat + 256 * value) 0

/-- `load_acl_info`. The length of the text is taken from the memory that was read. Only a
negative size is left over. -/
def loadAclInfo (fileSize : Int) : RestoreWriter :=
  let acls := if writer.aclSpot = 0 then .zero else writer.acls
  match writer.inputMem fileSize with
  | (none, writer) => { writer with acls := .zero, aclSpot := 0, sizeLeft := 0 }
  | (some mem, next) =>
      let memory := acls.aclMemory.take writer.aclSpot ++ mem
      let length := littleEndianValue ((memory.drop 4).take 4)
      let text := memory.drop 16 ++ List.replicate length 0
      { next with
        acls := { acls with
          aclMemory := memory, attrInfo := some (text.take length), aclNonTrivial := true }
        aclSpot := writer.aclSpot + mem.length
        sizeLeft := fileSize - mem.length }

/-- An entry has used up the long name and the long link target. -/
def resetNames : RestoreWriter :=
  { writer with
    nmEnd := 0
    longname := writer.longname.write 0 [0]
    lnkEnd := 0
    longlink := writer.longlink.write 0 [0] }

/-- The name of an entry: the long name, or else the one in its header. -/
def fileName (record : List UInt8) : CString :=
  if writer.longname.string = [] then cstring record else writer.longname.string

/-- The link target of an entry. -/
def linkName (record : List UInt8) : CString :=
  if writer.longlink.string = [] then cstring (record.drop thLinknameAt)
  else writer.longlink.string

/-- `is_file_wanted` for an entry. -/
def fileWanted (args : RestoreArgs) (name : CString) : Wanted × RestoreWriter :=
  let wanted := isFileWanted name args.sels args.exls args.flags writer.retry
  (wanted, { writer with retry := wanted.retry })

/-- Report an entry as restored when it was selected itself or is below a selection. -/
def reportRestored (mchtype : MatchType) (name : CString) (pos : Nat) : RestoreWriter :=
  if mchtype.exactOrChild then writer.perform (.entryRestored name pos) else writer

/-! ## Entries -/

/-- Where the parts of a path end. -/
def partEnds (path : CString) : List Nat :=
  (List.range' 1 path.length).filter fun spot => path[spot]?.getD slash = slash

/-- What `create_directory` leaves of a path: it breaks off behind the part that cannot be
made, with a NUL there. -/
def createDirectory (path : CString) : CString :=
  match writer.io.made.head?.getD none with
  | none => path
  | some part => path.take ((partEnds path)[part]?.getD path.length)

/-- The case `LF_DIR`. -/
def restoreDirectory (args : RestoreArgs) (record : List UInt8) : RestoreWriter :=
  let name := writer.fileName record
  let (wanted, writer) := writer.fileWanted args name
  let made :=
    match (if wanted.found then args.newName wanted.pos name else none) with
    | none => writer
    | some path =>
        if wanted.mchtype = MatchType.parent then writer
        else
          let left := writer.createDirectory path
          let (done, writer) := writer.nextMade
          let writer := writer.perform (.makeDirectory path done)
          let writer :=
            if done then writer.reportRestored wanted.mchtype name wanted.pos else writer
          (writer.dtreePopUntil left).dtreePush left
  made.resetNames

/-- The case `LF_SYMLINK`. -/
def restoreSymlink (args : RestoreArgs) (record : List UInt8) : RestoreWriter :=
  let name := writer.fileName record
  let target := writer.linkName record
  let (wanted, writer) := writer.fileWanted args name
  let made :=
    match (if wanted.found then args.newName wanted.pos name else none) with
    | none => writer
    | some path =>
        let (done, writer) := writer.nextMade
        let writer := writer.perform (.symbolicLink path target done)
        if done then
          (writer.setOwnAcl (some path)).reportRestored wanted.mchtype name wanted.pos
        else writer
  made.resetNames

/-- The case `LF_FIFO`. `create_fifo` makes no directory for it, and drops the result of
`mknod(2)`. -/
def restoreFifo (args : RestoreArgs) (record : List UInt8) : RestoreWriter :=
  let name := writer.fileName record
  let (wanted, writer) := writer.fileWanted args name
  let made :=
    match (if wanted.found then args.newName wanted.pos name else none) with
    | none => writer
    | some path =>
        let done := args.mknod (Restored.of writer.ops).entries path
        let writer := (writer.perform (.makeFifo path done)).setOwnAcl (some path)
        writer.reportRestored wanted.mchtype name wanted.pos
  made.resetNames

/-- `rs_darhl_new_name`: the first selection that is not a blank, and its position. -/
def rsDarhlNewName (sels : List CString) : Option (Nat × CString) :=
  match sels.findIdx? (· ≠ [32]) with
  | none => none
  | some pos => (sels[pos]?).map fun name => (pos, name)

/-- The case `LF_LINK` for an inode that has been restored to `target`. -/
def restoreHardLink (args : RestoreArgs) (target : Option CString) (record : List UInt8) :
    RestoreWriter :=
  let name := writer.fileName record
  let (wanted, writer) := writer.fileWanted args name
  let place :=
    if wanted.found then some (wanted.pos, name)
    else if args.dar then rsDarhlNewName args.sels
    else none
  let made :=
    match place with
    | none => writer
    | some (pos, name) =>
        match args.newName pos name, target with
        | some path, some old =>
            let (done, writer) := writer.nextMade
            let writer := writer.perform (.hardLink old path done)
            if done then (writer.setOwnAcl (some path)).perform (.entryRestored name pos)
            else writer
        | _, _ => writer
  made.resetNames

/-- The name that the cases of regular files settle on. -/
def regularName (record : List UInt8) : CharArray tlmMaxPathName :=
  if writer.hugename.string ≠ [] then writer.longname.strlcpy writer.hugename.string
  else if writer.longname.string = [] then
    let thName := cstring record
    if thName.head? = some slash then writer.longname.strlcpy thName
    else writer.longname.strlcpy (slash :: thName)
  else writer.longname

/-- What follows `restore_file`: a part of the file is done, and with the last one the
whole file. `hardlink` is the inode of an `LF_LINK`. -/
def finishRegular (args : RestoreArgs) (fileSize : Int) (hardlink : Option Nat) (wanted : Wanted)
    (path : Option CString) : RestoreWriter :=
  let name := writer.longname.string
  let hugeSize := max 0 (writer.hugeSize - fileSize)
  let writer := { writer with hugeSize := hugeSize, sizeLeft := 0 }
  if hugeSize = 0 then
    let writer := writer.reportRestored wanted.mchtype name wanted.pos
    let writer :=
      match hardlink with
      | some inode =>
          if wanted.mchtype.exactOrChild ∧ args.dar then
            { writer with hardlinkQ := writer.hardlinkQ.hardlinkQAdd inode 0 path false }
          else writer
      | none => writer
    { writer.resetNames with hugename := writer.hugename.write 0 [0] }
  else writer

/-- The cases of regular files. Nothing is restored to temporary files, as no directory
for them is set. -/
def restoreRegular (args : RestoreArgs) (fileSize : Int) (hardlink : Option Nat)
    (record : List UInt8) : RestoreWriter :=
  let writer := { writer with longname := writer.regularName record }
  let name := writer.longname.string
  let (wanted, writer) := writer.fileWanted args name
  let path := if wanted.found then args.newName wanted.pos name else none
  let writer := writer.restoreFile args path fileSize (wanted.found && path.isSome)
  let writer :=
    match hardlink with
    | some inode =>
        if args.dar then writer
        else { writer with hardlinkQ := writer.hardlinkQ.hardlinkQAdd inode 0 path false }
    | none => writer
  let writer :=
    match path with
    | some path => writer.dtreePopUntil path
    | none => writer
  writer.finishRegular args fileSize hardlink wanted path

/-- The case `LF_LINK`, and the file types it falls through to. -/
def restoreLink (args : RestoreArgs) (fileSize : Int) (record : List UInt8) : RestoreWriter :=
  let inode := ((octAtoi (record.drop thHlinkInoAt)) % 2 ^ 64).toNat
  let seen := if inode = 0 then none else writer.hardlinkQ.hardlinkQGet inode
  match seen with
  | some node => writer.restoreHardLink args node.path record
  | none =>
      if record.head? = some 0 then writer
      else writer.restoreRegular args fileSize (some inode) record

/-- The `switch` of `tar_getdir` over the link flag. -/
def restoreRecord (args : RestoreArgs) (linkflag : UInt8) (fileSize : Int)
    (record : List UInt8) : RestoreWriter :=
  if linkflag = lfMultivol then { writer with multiVolume := true }
  else if linkflag = lfLink then writer.restoreLink args fileSize record
  else if linkflag = lfOldnormal then
    if record.head? = some 0 then writer else writer.restoreRegular args fileSize none record
  else if linkflag = lfNormal ∨ linkflag = lfContig then
    writer.restoreRegular args fileSize none record
  else if linkflag = lfSymlink then writer.restoreSymlink args record
  else if linkflag = lfDir then writer.restoreDirectory args record
  else if linkflag = lfFifo then writer.restoreFifo args record
  else if linkflag = lfLonglink then
    let size := longNameSize fileSize writer.lnkEnd
    let (writer, longlink, lnkEnd) := writer.getLongName size writer.longlink writer.lnkEnd
    { writer with longlink := longlink, lnkEnd := lnkEnd, sizeLeft := 0 }
  else if linkflag = lfLongname then
    let size := longNameSize fileSize writer.nmEnd
    let (writer, longname, nmEnd) := writer.getLongName size writer.longname writer.nmEnd
    { writer with longname := longname, nmEnd := nmEnd, sizeLeft := 0 }
  else if linkflag = lfAcl then writer.loadAclInfo fileSize
  else if linkflag = lfHumongus then writer.getHumongusFileHeader fileSize
  else writer

/-- The attributes in a header. -/
def headerAcls (acls : TlmAcls) (record : List UInt8) : TlmAcls :=
  { acls with
    stMode := octAtoi (record.drop thModeAt)
    stSize := octAtoi (record.drop thSizeAt)
    stUid := octAtoi (record.drop thUidAt)
    stGid := octAtoi (record.drop thGidAt)
    stMtime := octAtoi (record.drop thMtimeAt)
    uname := (cstring (record.drop thUnameAt)).take 31
    gname := (cstring (record.drop thGnameAt)).take 31 }

/-- A record with a good checksum. The size of a volume header is not looked at. -/
def acceptRecord (args : RestoreArgs) (record : List UInt8) : RestoreWriter :=
  let linkflag := (record.drop thLinkflagAt).head?.getD 0
  if linkflag = lfMultivol ∨ linkflag = lfVolhdr then writer.restoreRecord args linkflag 0 record
  else
    let acls := if linkflag = lfHumongus then writer.acls else headerAcls writer.acls record
    { writer with acls := acls, aclSpot := 0, lastAction := linkflag }.restoreRecord args linkflag
      (octAtoi (record.drop thSizeAt)) record

/-- The body of the loop of `tar_getdir`. A record without a good checksum is skipped. -/
def tarGetdirStep (args : RestoreArgs) : RestoreWriter :=
  if writer.multiVolume then
    -- the file goes on as a made-up header says
    let linkflag := writer.lastAction
    { writer with multiVolume := false, lastAction := 0 }.restoreRecord args linkflag
      writer.sizeLeft (List.replicate recordSize 0)
  else
    match writer.getReadBuffer 345 with
    | (none, writer) => { writer with rv := -1 }
    | (some (record, _), writer) =>
        if record.length < 345 ∨ tlmVfyTarChecksum record ≠ 1 then writer
        else writer.acceptRecord args record

/-- The loop of `tar_getdir`, for a number of rounds before the abort is seen. -/
def tarGetdirLoop (args : RestoreArgs) : Nat → RestoreWriter → RestoreWriter
  | 0, writer => writer
  | rounds + 1, writer =>
      if writer.tcWriterStop then writer
      else tarGetdirLoop args rounds (writer.tarGetdirStep args)

/-- The state in which `tar_getdir` starts. -/
def start (args : RestoreArgs) (blocks : List ReadBlock) (hardlinkQ : HardlinkQ)
    (io : RestoreIo) : RestoreWriter where
  blocks := blocks
  tcWriterStop := false
  faulted := false
  acls := { TlmAcls.zero with
    aclOverwrite := args.flags.ovrAlways
    aclUpdate := !args.flags.ovrAlways && args.flags.ovrUpdate }
  longname := .zero _
  longlink := .zero _
  hugename := .zero _
  hugeSize := 0
  nmEnd := 0
  lnkEnd := 0
  aclSpot := 0
  sizeLeft := 0
  lastAction := 0
  multiVolume := false
  rv := 0
  fp := .closed
  dtree := []
  hardlinkQ := hardlinkQ
  retry := []
  io := io
  ops := []

/-- The end of `tar_getdir`. -/
def tearDown : RestoreWriter :=
  let stopped := if writer.tcWriterStop then { writer with rv := 0 } else writer
  let closed := if stopped.fp = .opened then stopped.perform .closeFile else stopped
  { closed with fp := .closed }.dtreePopAll

/-- `tar_getdir`. -/
def tarGetdir (args : RestoreArgs) (blocks : List ReadBlock) (hardlinkQ : HardlinkQ)
    (io : RestoreIo) (rounds : Nat) : RestoreWriter :=
  (tarGetdirLoop args rounds (start args blocks hardlinkQ io)).tearDown

end RestoreWriter

end Ndmpd
