import Ndmpd.Tlm.BackupReader

/-!
# The encoder as a chain of grants

Every function of the backup reader does nothing to the pool but ask it for records and
fill them (`tlmOutputFile_extends`, `tlmOutputDir_extends`). A backup run is a chain of
such functions from a fresh stream (`BackupRun`).
-/

namespace Ndmpd

namespace TarStream

variable (stream : TarStream)

/-- Each round asks for one record and goes on behind it. -/
theorem outputMemLoop_extends (rounds : Nat) (stream : TarStream) (mem : List UInt8) :
    Extends stream (outputMemLoop rounds stream mem) := by
  induction rounds generalizing stream mem with
  | zero => exact .refl stream
  | succ rounds ih =>
      unfold outputMemLoop
      split
      · exact .refl stream
      · split
        case h_1 => exact .touch rfl rfl rfl
        case h_2 next put => exact .trans (.data put) (ih _ _)

theorem outputMem_extends (mem : List UInt8) : Extends stream (stream.outputMem mem) :=
  outputMemLoop_extends _ _ _

/-- An ACL is a header and its text, or nothing. -/
theorem outputAclHeader_extends (aclInfo : Option SecAttr) :
    Extends stream (stream.outputAclHeader aclInfo) := by
  unfold outputAclHeader
  split
  · exact .refl stream
  · split
    · exact .refl stream
    · dsimp only
      split
      case h_1 => exact .refl stream
      case h_2 next put => exact .trans (.header put) (outputMem_extends _ _)

/-- The name of a huge file is a header and a text. -/
theorem outputHumongusHeader_extends (fullname : CString) (fileSize : Nat) :
    Extends stream (stream.outputHumongusHeader fullname fileSize) := by
  unfold outputHumongusHeader
  dsimp only
  split
  case h_1 => exact .refl stream
  case h_2 next put => exact .trans (.header put) (outputMem_extends _ _)

/-- A long name is a header and the name. -/
theorem putLongName_extends {owned : TlmTarHdr} {name : CString} {next : TarStream}
    (put : stream.putLongName owned name = some next) : Extends stream next := by
  unfold putLongName at put
  obtain ⟨middle, taken, rfl⟩ := Option.map_eq_some_iff.mp put
  refine .trans (.header taken) (.trans ?_ (outputMem_extends _ _))
  exact .touch rfl rfl rfl

/-- A long link target is a header and the target. -/
theorem putLongLink_extends {owned : TlmTarHdr} {link : CString} {next : TarStream}
    (put : stream.putLongLink owned link = some next) : Extends stream next := by
  unfold putLongLink at put
  obtain ⟨middle, taken, rfl⟩ := Option.map_eq_some_iff.mp put
  refine .trans (.header taken) (.trans ?_ (outputMem_extends _ _))
  exact .touch rfl rfl rfl

/-- The header of an entry comes behind what its names need. -/
theorem putEntryHeader_extends (owned : TlmTarHdr) (attr : Stat) (name link : CString) :
    Extends stream (stream.putEntryHeader owned attr name link) := by
  unfold putEntryHeader
  dsimp only
  split
  case h_1 => exact .refl stream
  case h_2 next put => exact .trans (.header put) (.touch rfl rfl rfl)

/-- A header with a short name and a short target, or with long ones. -/
theorem outputFileHeader_extends (owners : OwnerNames) (name link : CString) (attr : Stat)
    (sectionNo : Nat) :
    Extends stream (stream.outputFileHeader owners name link attr sectionNo) := by
  unfold outputFileHeader
  dsimp only
  split
  case h_1 => exact .refl stream
  case h_2 named putName =>
    have first : Extends stream named := by
      split at putName
      · exact putLongName_extends stream putName
      · cases putName
        exact .refl stream
    refine .trans first ?_
    split
    case h_1 => exact .refl named
    case h_2 linked putLink =>
      have second : Extends named linked := by
        split at putLink
        · exact putLongLink_extends named putLink
        · cases putLink
          exact .refl named
      exact .trans second (putEntryHeader_extends _ _ _ _ _)

theorem tlmOutputDir_extends (owners : OwnerNames) (name : CString) (attr : Stat)
    (aclInfo : Option SecAttr) : Extends stream (stream.tlmOutputDir owners name attr aclInfo) :=
  .trans (outputAclHeader_extends _ _) (outputFileHeader_extends _ _ _ _ _ _)

/-- A section begins with its header. -/
theorem openSection_extends {putHeader : TarStream → Nat → Nat → TarStream}
    (headers : ∀ stream size number, Extends stream (putHeader stream size number))
    (cursor : DataCursor) : Extends stream (stream.openSection putHeader cursor).1 := by
  unfold openSection
  split
  · exact headers _ _ _
  · exact .refl stream

/-- Reading a file is a grant for each read and a header for each section. -/
theorem outputData_extends {putHeader : TarStream → Nat → Nat → TarStream}
    (headers : ∀ stream size number, Extends stream (putHeader stream size number))
    (run : FileRun) (reads : Nat) (stream : TarStream) (cursor : DataCursor) :
    Extends stream (outputData run putHeader reads stream cursor).1 := by
  induction reads generalizing stream cursor with
  | zero =>
      have opened := openSection_extends stream headers cursor
      unfold outputData
      split
      · exact .refl stream
      · dsimp only
        split
        · split
          case h_1 => exact opened
          case h_2 next put => exact .trans opened (.trans (.data put) (.touch rfl rfl rfl))
        · exact .trans opened (.touch rfl rfl rfl)
  | succ reads ih =>
      have opened := openSection_extends stream headers cursor
      unfold outputData
      split
      · exact .refl stream
      · dsimp only
        split
        · split
          case h_1 => exact opened
          case h_2 next put => exact .trans opened (.data put)
        · split
          case h_1 => exact opened
          case h_2 next put => exact .trans opened (.trans (.data put) (ih _ _))

theorem outputHugeName_extends (fullname : CString) (fileSize : Nat) :
    Extends stream (stream.outputHugeName fullname fileSize) := by
  unfold outputHugeName
  split
  · exact outputHumongusHeader_extends _ _ _
  · exact .refl stream

/-- A regular file with data, under its own name or a huge one. -/
theorem outputContents_extends (owners : OwnerNames) (entry : FileEntry) (fullname : CString)
    (run : FileRun) (sectionNo fileSize : Nat) :
    Extends stream (stream.outputContents owners entry fullname run sectionNo fileSize).1 := by
  unfold outputContents
  refine .trans ?_ (outputData_extends (fun _ _ _ => outputFileHeader_extends _ _ _ _ _ _) _ _ _ _)
  split
  · exact outputFileHeader_extends _ _ _ _ _ _
  · exact .refl stream

end TarStream

open TarStream in
/-- An entry of any type, however its calls come out. -/
theorem tlmOutputFile_extends (owners : OwnerNames) (entry : FileEntry) (run : FileRun)
    (stream : TarStream) (hardlinkQ : HardlinkQ) :
    Extends stream (tlmOutputFile owners entry run stream hardlinkQ).1 := by
  unfold tlmOutputFile
  split
  · exact .refl stream
  · split
    case h_2 => exact .refl stream
    case h_1 fullname _ _ _ =>
      dsimp only
      split
      · split
        · exact .refl stream
        · exact outputFileHeader_extends _ _ _ _ _ _
      · split
        · exact .refl stream
        · split
          · exact outputAclHeader_extends _ _
          · exact .trans (outputAclHeader_extends _ _)
              (.trans (outputHugeName_extends _ _ _) (outputContents_extends _ _ _ _ _ _ _))

/-- The run of a backup: the encoder's functions in any order, each on the stream that
the one before has left, for any results of the system calls. -/
inductive BackupRun (start : TarStream) : TarStream → HardlinkQ → Prop where
  | start (hardlinkQ : HardlinkQ) : BackupRun start start hardlinkQ
  | magic {stream next : TarStream} {hardlinkQ : HardlinkQ} {text : List UInt8} :
      BackupRun start stream hardlinkQ →
        stream.putData recordSize true (fun _ => text) = some next → BackupRun start next hardlinkQ
  | directory {stream : TarStream} {hardlinkQ : HardlinkQ} (owners : OwnerNames) (name : CString)
      (attr : Stat) (aclInfo : Option SecAttr) :
      BackupRun start stream hardlinkQ →
        BackupRun start (stream.tlmOutputDir owners name attr aclInfo) hardlinkQ
  | file {stream : TarStream} {hardlinkQ : HardlinkQ} (owners : OwnerNames) (entry : FileEntry)
      (run : FileRun) :
      BackupRun start stream hardlinkQ →
        BackupRun start (tlmOutputFile owners entry run stream hardlinkQ).1
          (tlmOutputFile owners entry run stream hardlinkQ).2.1

/-- By induction over the entries, a whole backup. -/
theorem BackupRun.extends {start stream : TarStream} {hardlinkQ : HardlinkQ}
    (run : BackupRun start stream hardlinkQ) : start.Extends stream := by
  induction run with
  | start => exact .refl start
  | magic _ put ih => exact .trans ih (.data put)
  | directory owners name attr aclInfo _ ih =>
      exact .trans ih (TarStream.tlmOutputDir_extends _ _ _ _ _)
  | file owners entry fileRun _ ih => exact .trans ih (tlmOutputFile_extends _ _ _ _ _)

end Ndmpd
