import Ndmpd.Foundation.NameTable
import Ndmpd.Tlm.PathNames

/-!
# File history

The backup reports its files through `ndmpd_api_file_history_file_v3`, or its directories
and nodes through the functions for these. The entries are buffered in `ns_fh_v3` and
sent as one request when a buffer is full. An entry holds pointers: to its name entry and
its stat entry, and from the name entry into a buffer that all names of a kind share.
Pointers into these arrays are indices here, and a request has what is read through
them when it is sent.
-/

namespace Ndmpd

open Foundation

abbrev nPathEntries : Nat := 1000
abbrev nFileEntries : Nat := nPathEntries
abbrev nDirEntries : Nat := 1000
abbrev nNodeEntries : Nat := 1000
abbrev pathNamebufSize : Nat := nPathEntries * 32
abbrev dirNamebufSize : Nat := nPathEntries * 16

/-! ## Entries -/

/-- `ndmp_u_quad`. -/
structure NdmpUQuad where
  high : UInt64
  low : UInt64
  deriving DecidableEq, Repr, Inhabited

def longLongToQuad (ull : UInt64) : NdmpUQuad where
  high := ull >>> 32
  low := ull

inductive NdmpFsType where
  | unix
  | nt
  | other
  deriving DecidableEq, Repr, Inhabited

inductive NdmpFileType where
  | dir
  | fifo
  | cspec
  | bspec
  | reg
  | slink
  | sock
  | registry
  | other
  deriving DecidableEq, Repr, Inhabited

/-- The fields of `struct stat` that file history reports. -/
structure HistoryStat where
  stMode : UInt32
  stIno : UInt64
  stNlink : UInt64
  stUid : UInt32
  stGid : UInt32
  stSize : Int64
  stAtime : Int64
  stMtime : Int64
  stCtime : Int64
  deriving DecidableEq, Repr, Inhabited

/-- `ndmpd_get_file_entry_type`. -/
def ndmpdGetFileEntryType (mode : UInt32) : NdmpFileType :=
  match mode &&& 0xf000 with
  | 0x1000 => .fifo
  | 0x2000 => .cspec
  | 0x4000 => .dir
  | 0x6000 => .bspec
  | 0x8000 => .reg
  | 0xa000 => .slink
  | _ => .sock

/-- `ndmp_file_stat_v3`. -/
structure NdmpFileStat where
  invalid : UInt64
  fsType : NdmpFsType
  ftype : NdmpFileType
  mtime : UInt64
  atime : UInt64
  ctime : UInt64
  owner : UInt64
  group : UInt64
  fattr : UInt64
  size : NdmpUQuad
  links : UInt64
  deriving DecidableEq, Repr, Inhabited

/-- The stat entry of a file; the functions differ in what they take for `fattr`. -/
def HistoryStat.entry (fileStat : HistoryStat) (fattr : UInt32) : NdmpFileStat where
  invalid := 0
  fsType := .unix
  ftype := ndmpdGetFileEntryType fileStat.stMode
  mtime := fileStat.stMtime.toUInt64
  atime := fileStat.stAtime.toUInt64
  ctime := fileStat.stCtime.toUInt64
  owner := fileStat.stUid.toUInt64
  group := fileStat.stGid.toUInt64
  fattr := fattr.toUInt64
  size := longLongToQuad fileStat.stSize.toUInt64
  links := fileStat.stNlink

/-- The stat entry that goes with a file: of the mode, the permission bits only. -/
def HistoryStat.fileEntry (fileStat : HistoryStat) : NdmpFileStat :=
  fileStat.entry (fileStat.stMode &&& 0x0fff)

/-- The stat entry that goes with a node. -/
def HistoryStat.nodeEntry (fileStat : HistoryStat) : NdmpFileStat :=
  fileStat.entry fileStat.stMode

/-- A name of file history, `TLM_MAX_PATH_NAME` bytes at most. -/
structure HistoryName where
  text : CString
  nulFree : NulFree text
  short : text.length ≤ tlmMaxPathName
  deriving DecidableEq

/-- `ndmp_file_name_v3`, with an offset in the name buffer. -/
structure NdmpFileName where
  fsType : NdmpFsType
  unixName : Nat
  deriving DecidableEq, Repr, Inhabited

/-- `ndmp_file_v3`, with the indices of its one name and its one stat. -/
structure NdmpFile where
  namesVal : Nat
  statsVal : Nat
  node : NdmpUQuad
  fhInfo : NdmpUQuad
  deriving DecidableEq, Repr, Inhabited

/-- `ndmp_dir_v3`, with the index of its one name. -/
structure NdmpDir where
  namesVal : Nat
  node : NdmpUQuad
  parent : NdmpUQuad
  deriving DecidableEq, Repr, Inhabited

/-- `ndmp_node_v3`, with the index of its one stat. -/
structure NdmpNode where
  statsVal : Nat
  node : NdmpUQuad
  fhInfo : NdmpUQuad
  deriving DecidableEq, Repr, Inhabited

/-- A file as it stands in a request. -/
structure HistoryFile where
  fsType : NdmpFsType
  unixName : CString
  stat : NdmpFileStat
  node : NdmpUQuad
  fhInfo : NdmpUQuad
  deriving DecidableEq, Repr

/-- A directory entry as it stands in a request. -/
structure HistoryDir where
  fsType : NdmpFsType
  unixName : CString
  node : NdmpUQuad
  parent : NdmpUQuad
  deriving DecidableEq, Repr

/-- A node as it stands in a request. -/
structure HistoryNode where
  stat : NdmpFileStat
  node : NdmpUQuad
  fhInfo : NdmpUQuad
  deriving DecidableEq, Repr

/-- The requests that carry file history. -/
inductive HistoryRequest where
  | fhAddFile (files : List HistoryFile)
  | fhAddDir (dirs : List HistoryDir)
  | fhAddNode (nodes : List HistoryNode)
  deriving DecidableEq, Repr

inductive HistoryEntry where
  | file (entry : HistoryFile)
  | dir (entry : HistoryDir)
  | node (entry : HistoryNode)
  deriving DecidableEq, Repr

/-! ## The buffers -/

/-- `ndmpd_session_file_history_v3_t`. A buffer is `none` while its pointer is NULL. -/
structure FileHistoryV3 where
  fhFiles : Option (Nat → NdmpFile)
  fhDirs : Option (Nat → NdmpDir)
  fhNodes : Option (Nat → NdmpNode)
  fhFileNames : Option (Nat → NdmpFileName)
  fhDirNames : Option (Nat → NdmpFileName)
  fhFileStats : Option (Nat → NdmpFileStat)
  fhNodeStats : Option (Nat → NdmpFileStat)
  fhFileNameBuf : Option (CharArray pathNamebufSize)
  fhDirNameBuf : Option (CharArray dirNamebufSize)
  fhFileIndex : Nat
  fhDirIndex : Nat
  fhNodeIndex : Nat
  fhFileNameBufIndex : Nat
  fhDirNameBufIndex : Nat

/-- What `ndmpd_file_history_init` sets. -/
def FileHistoryV3.init : FileHistoryV3 where
  fhFiles := none
  fhDirs := none
  fhNodes := none
  fhFileNames := none
  fhDirNames := none
  fhFileStats := none
  fhNodeStats := none
  fhFileNameBuf := none
  fhDirNameBuf := none
  fhFileIndex := 0
  fhDirIndex := 0
  fhNodeIndex := 0
  fhFileNameBufIndex := 0
  fhDirNameBufIndex := 0

namespace FileHistoryV3

variable (history : FileHistoryV3)

/-- What a request has for the file entry at an index. -/
def heldFile (place : Nat) : Option HistoryFile := do
  let entry := (← history.fhFiles) place
  let name := (← history.fhFileNames) entry.namesVal
  let stat := (← history.fhFileStats) entry.statsVal
  let nameBuf ← history.fhFileNameBuf
  some ⟨name.fsType, nameBuf.stringAt name.unixName, stat, entry.node, entry.fhInfo⟩

/-- What a request has for the directory entry at an index. -/
def heldDir (place : Nat) : Option HistoryDir := do
  let entry := (← history.fhDirs) place
  let name := (← history.fhDirNames) entry.namesVal
  let nameBuf ← history.fhDirNameBuf
  some ⟨name.fsType, nameBuf.stringAt name.unixName, entry.node, entry.parent⟩

/-- What a request has for the node entry at an index. -/
def heldNode (place : Nat) : Option HistoryNode := do
  let entry := (← history.fhNodes) place
  let stat := (← history.fhNodeStats) entry.statsVal
  some ⟨stat, entry.node, entry.fhInfo⟩

end FileHistoryV3

/-- What a session has to do with file history: its buffers, and the requests that were
sent. -/
structure HistorySession where
  nsFhV3 : FileHistoryV3
  nsProtocolVersion : Nat
  sent : List HistoryRequest

inductive HistoryKind where
  | file
  | dir
  | node
  deriving DecidableEq, Repr

/-- What a call meets: whether a request of a kind can be sent, and how many calls of
`ndmp_malloc` give memory before one gives NULL. -/
structure HistoryMeans where
  sends : HistoryKind → Bool
  mallocs : Nat

/-- `ndmp_malloc` for a pointer that is still NULL, and how many calls of it are left to
give memory. -/
def allocate {Memory : Type} (fresh : Memory) : Option Memory → Nat → Option Memory × Nat
  | some memory, left => (some memory, left)
  | none, 0 => (none, 0)
  | none, left + 1 => (some fresh, left)

namespace HistorySession

variable (session : HistorySession)

/-! ## Files -/

/-- The request with the buffered files was sent. -/
def sendFiles : HistorySession :=
  { session with
    nsFhV3 := { session.nsFhV3 with fhFileIndex := 0, fhFileNameBufIndex := 0 }
    sent := session.sent ++
      [.fhAddFile ((List.range session.nsFhV3.fhFileIndex).filterMap session.nsFhV3.heldFile)] }

/-- The part of `ndmpd_api_file_history_file_v3` that adds an entry. When a call of
`ndmp_malloc` gives NULL, it returns -1 at once. -/
def addFile (name : HistoryName) (fileStat : HistoryStat) (fhInfo : UInt64) (mallocs : Nat) :
    HistorySession × Int :=
  let history := session.nsFhV3
  let files := allocate default history.fhFiles mallocs
  let names := allocate default history.fhFileNames files.2
  let nameBuf := allocate (CharArray.zero pathNamebufSize) history.fhFileNameBuf names.2
  let stats := allocate default history.fhFileStats nameBuf.2
  let allocated :=
    { history with
      fhFiles := files.1
      fhFileNames := names.1
      fhFileNameBuf := nameBuf.1
      fhFileStats := stats.1 }
  match files.1, names.1, nameBuf.1, stats.1 with
  | some files, some names, some nameBuf, some stats =>
      let index := history.fhFileIndex
      let spot := history.fhFileNameBufIndex
      ({ session with
          nsFhV3 :=
            { allocated with
              fhFiles := some (Function.update files index
                ⟨index, index, longLongToQuad fileStat.stIno, longLongToQuad fhInfo⟩)
              fhFileNames := some (Function.update names index ⟨.unix, spot⟩)
              fhFileNameBuf := some (nameBuf.strlcpyAt spot name.text pathNamebufSize)
              fhFileNameBufIndex := spot + (name.text.length + 1)
              fhFileStats := some (Function.update stats index fileStat.fileEntry)
              fhFileIndex := index + 1 } }, 0)
  | _, _, _, _ => ({ session with nsFhV3 := allocated }, -1)

/-- `ndmpd_api_file_history_file_v3`. Without a name it only sends what is buffered. -/
def ndmpdApiFileHistoryFileV3 (name : Option HistoryName) (fileStat : HistoryStat)
    (fhInfo : UInt64) (means : HistoryMeans) : HistorySession × Int :=
  match name with
  | none =>
      if session.nsFhV3.fhFileIndex = 0 then (session, 0)
      else if means.sends .file then (session.sendFiles, 0) else (session, -1)
  | some name =>
      if session.nsFhV3.fhFileIndex = nFileEntries ∨
          session.nsFhV3.fhFileNameBufIndex + name.text.length + 1 > pathNamebufSize then
        if means.sends .file then
          session.sendFiles.addFile name fileStat fhInfo means.mallocs
        else (session, -1)
      else session.addFile name fileStat fhInfo means.mallocs

/-! ## Directories -/

/-- The request with the buffered directory entries was sent. -/
def sendDirs : HistorySession :=
  { session with
    nsFhV3 := { session.nsFhV3 with fhDirIndex := 0, fhDirNameBufIndex := 0 }
    sent := session.sent ++
      [.fhAddDir ((List.range session.nsFhV3.fhDirIndex).filterMap session.nsFhV3.heldDir)] }

/-- The part of `ndmpd_api_file_history_dir_v3` that adds an entry. A name is copied up
to the size of the path name buffer, and the index goes on by that size. -/
def addDir (name : HistoryName) (node parent : UInt64) (mallocs : Nat) : HistorySession × Int :=
  let history := session.nsFhV3
  let dirs := allocate default history.fhDirs mallocs
  let names := allocate default history.fhDirNames dirs.2
  let nameBuf := allocate (CharArray.zero dirNamebufSize) history.fhDirNameBuf names.2
  let allocated :=
    { history with fhDirs := dirs.1, fhDirNames := names.1, fhDirNameBuf := nameBuf.1 }
  match dirs.1, names.1, nameBuf.1 with
  | some dirs, some names, some nameBuf =>
      let index := history.fhDirIndex
      let spot := history.fhDirNameBufIndex
      ({ session with
          nsFhV3 :=
            { allocated with
              fhDirNames := some (Function.update names index ⟨.unix, spot⟩)
              fhDirNameBuf := some (nameBuf.strlcpyAt spot name.text pathNamebufSize)
              fhDirNameBufIndex := spot + pathNamebufSize
              fhDirs := some (Function.update dirs index
                ⟨index, longLongToQuad node, longLongToQuad parent⟩)
              fhDirIndex := index + 1 } }, 0)
  | _, _, _ => ({ session with nsFhV3 := allocated }, -1)

/-- `ndmpd_api_file_history_dir_v3`. Without a name it only sends what is buffered. -/
def ndmpdApiFileHistoryDirV3 (name : Option HistoryName) (node parent : UInt64)
    (means : HistoryMeans) : HistorySession × Int :=
  match name with
  | none =>
      if session.nsFhV3.fhDirIndex = 0 then (session, 0)
      else if means.sends .dir then (session.sendDirs, 0) else (session, -1)
  | some name =>
      if session.nsFhV3.fhDirIndex = nDirEntries ∨
          session.nsFhV3.fhDirNameBufIndex + name.text.length + 1 > dirNamebufSize then
        if means.sends .dir then session.sendDirs.addDir name node parent means.mallocs
        else (session, -1)
      else session.addDir name node parent means.mallocs

/-! ## Nodes -/

/-- The request with the buffered nodes was sent. -/
def sendNodes : HistorySession :=
  { session with
    nsFhV3 := { session.nsFhV3 with fhNodeIndex := 0 }
    sent := session.sent ++
      [.fhAddNode ((List.range session.nsFhV3.fhNodeIndex).filterMap session.nsFhV3.heldNode)] }

/-- The part of `ndmpd_api_file_history_node_v3` that adds an entry. -/
def addNode (node : UInt64) (fileStat : HistoryStat) (fhInfo : UInt64) (mallocs : Nat) :
    HistorySession × Int :=
  let history := session.nsFhV3
  let nodes := allocate default history.fhNodes mallocs
  let stats := allocate default history.fhNodeStats nodes.2
  let allocated := { history with fhNodes := nodes.1, fhNodeStats := stats.1 }
  match nodes.1, stats.1 with
  | some nodes, some stats =>
      let index := history.fhNodeIndex
      ({ session with
          nsFhV3 :=
            { allocated with
              fhNodeStats := some (Function.update stats index fileStat.nodeEntry)
              fhNodes := some (Function.update nodes index
                ⟨index, longLongToQuad node, longLongToQuad fhInfo⟩)
              fhNodeIndex := index + 1 } }, 0)
  | _, _ => ({ session with nsFhV3 := allocated }, -1)

/-- The buffered directory entries are sent before the nodes, whatever becomes of them. -/
def sendDirsFirst (means : HistoryMeans) : HistorySession :=
  (session.ndmpdApiFileHistoryDirV3 none 0 0 means).1

/-- `ndmpd_api_file_history_node_v3`. Without a stat it only sends what is buffered. -/
def ndmpdApiFileHistoryNodeV3 (node : UInt64) (fileStat : Option HistoryStat) (fhInfo : UInt64)
    (means : HistoryMeans) : HistorySession × Int :=
  match fileStat with
  | none =>
      if session.nsFhV3.fhNodeIndex = 0 then (session, 0)
      else if means.sends .node then ((session.sendDirsFirst means).sendNodes, 0)
      else (session.sendDirsFirst means, -1)
  | some fileStat =>
      if session.nsFhV3.fhNodeIndex = nNodeEntries then
        if means.sends .node then
          (session.sendDirsFirst means).sendNodes.addNode node fileStat fhInfo means.mallocs
        else (session.sendDirsFirst means, -1)
      else session.addNode node fileStat fhInfo means.mallocs

/-! ## Cleanup -/

/-- `ndmpd_file_history_cleanup_v3`. -/
def ndmpdFileHistoryCleanupV3 (sendFlag : Bool) (means : HistoryMeans) : HistorySession :=
  let flushed :=
    if sendFlag then
      let files := (session.ndmpdApiFileHistoryFileV3 none default 0 means).1
      let dirs := (files.ndmpdApiFileHistoryDirV3 none 0 0 means).1
      (dirs.ndmpdApiFileHistoryNodeV3 0 none 0 means).1
    else session
  { flushed with nsFhV3 := .init }

/-- `ndmpd_file_history_cleanup`. -/
def ndmpdFileHistoryCleanup (sendFlag : Bool) (means : HistoryMeans) : HistorySession :=
  if 1 ≤ session.nsProtocolVersion ∧ session.nsProtocolVersion ≤ 4 then
    session.ndmpdFileHistoryCleanupV3 sendFlag means
  else session

end HistorySession

end Ndmpd
