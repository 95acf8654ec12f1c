import Ndmpd.History.HistoryDelivery
import Ndmpd.Session.WireMessages

/-!
# File history on the wire

The requests with file history are encoded and decoded by the XDR functions of the handler
table. A quad has the whole number in its low half, so that putting its halves together
again gives another number when it has more than 32 bits
(`quadToLongLong_longLongToQuad_iff`). On the wire the low half keeps 32 bits only, and the
client puts the number together as it was (`quadToLongLong_arrived`). So everything that a
backup reports arrives: each file, directory entry and node that a call added, with its
name, its inode numbers, its size and its place in the data stream
(`HistorySession.fileHistory_arrives`).
-/

namespace Ndmpd

open Foundation

/-! ## Quads -/

/-- `quad_to_long_long`. -/
def quadToLongLong (q : NdmpUQuad) : UInt64 := (q.high <<< 32) + q.low

/-- What arrives of a long number. -/
def low32 (n : UInt64) : UInt64 := UInt64.ofNat (n.toNat % 2 ^ 32)

namespace NdmpUQuad

def toVal (q : NdmpUQuad) : xdrNdmpUQuad.Val := (q.high, q.low, ())

/-- What arrives of a quad: 32 bits of each half. -/
def arrived (q : NdmpUQuad) : NdmpUQuad := ⟨low32 q.high, low32 q.low⟩

theorem received_toVal (q : NdmpUQuad) : xdrNdmpUQuad.received q.toVal = q.arrived.toVal := rfl

theorem sendable (q : NdmpUQuad) : xdrNdmpUQuad.Sendable q.toVal := ⟨trivial, trivial, trivial⟩

end NdmpUQuad

theorem toNat_shift32 (n : UInt64) : (n >>> 32).toNat = n.toNat / 2 ^ 32 := by
  rw [UInt64.toNat_shiftRight, Nat.shiftRight_eq_div_pow]
  rfl

/-- The number of a quad. -/
theorem toNat_quadToLongLong (q : NdmpUQuad) :
    (quadToLongLong q).toNat = (q.high.toNat * 2 ^ 32 + q.low.toNat) % 2 ^ 64 := by
  rw [quadToLongLong, UInt64.toNat_add, UInt64.toNat_shiftLeft, Nat.shiftLeft_eq]
  change (q.high.toNat * 2 ^ 32 % 2 ^ 64 + q.low.toNat) % 2 ^ 64 = _
  rw [Nat.mod_add_mod]

/-- Without the wire, only short numbers come back. -/
theorem quadToLongLong_longLongToQuad_iff (ull : UInt64) :
    quadToLongLong (longLongToQuad ull) = ull ↔ ull.toNat < 2 ^ 32 := by
  have size := ull.toNat_lt
  rw [← UInt64.toNat_inj, toNat_quadToLongLong, longLongToQuad]
  dsimp only
  rw [toNat_shift32]
  omega

/-- On the wire, every number comes back. -/
theorem quadToLongLong_arrived (ull : UInt64) :
    quadToLongLong (longLongToQuad ull).arrived = ull := by
  have size := ull.toNat_lt
  rw [← UInt64.toNat_inj, toNat_quadToLongLong, longLongToQuad, NdmpUQuad.arrived, low32, low32,
    UInt64.toNat_ofNat', UInt64.toNat_ofNat']
  dsimp only
  rw [toNat_shift32]
  omega

/-! ## Entries -/

/-- The text that a `char *` points to. No memory holds one of `2 ^ 32` bytes. -/
def asText (text : List UInt8) : { text : List UInt8 // IsText text } :=
  ⟨cutAtNul (text.take (2 ^ 32 - 2)), cutAtNul_isText (by rw [List.length_take]; omega)⟩

/-- The numbers of the file system types in the protocol. -/
def NdmpFsType.code : NdmpFsType → UInt32
  | unix => 0
  | nt => 1
  | other => 2

/-- The numbers of the file types in the protocol. -/
def NdmpFileType.code : NdmpFileType → UInt32
  | dir => 0
  | fifo => 1
  | cspec => 2
  | bspec => 3
  | reg => 4
  | slink => 5
  | sock => 6
  | registry => 7
  | other => 8

/-- A `ndmp_file_name_v3`. File history has names of UNIX only. -/
def unixNameVal (name : CString) : xdrNdmpFileNameV3.Val := ⟨0, asText name⟩

namespace NdmpFileStat

def toVal (stat : NdmpFileStat) : xdrNdmpFileStatV3.Val :=
  (stat.invalid, stat.fsType.code, stat.ftype.code, stat.mtime, stat.atime, stat.ctime, stat.owner,
    stat.group, stat.fattr, stat.size.toVal, stat.links, ())

def arrived (stat : NdmpFileStat) : NdmpFileStat :=
  { stat with
    invalid := low32 stat.invalid
    mtime := low32 stat.mtime
    atime := low32 stat.atime
    ctime := low32 stat.ctime
    owner := low32 stat.owner
    group := low32 stat.group
    fattr := low32 stat.fattr
    size := stat.size.arrived
    links := low32 stat.links }

theorem received_toVal (stat : NdmpFileStat) :
    xdrNdmpFileStatV3.received stat.toVal = stat.arrived.toVal := rfl

theorem sendable (stat : NdmpFileStat) : xdrNdmpFileStatV3.Sendable stat.toVal :=
  ⟨trivial, trivial, trivial, trivial, trivial, trivial, trivial, trivial, trivial,
    stat.size.sendable, trivial, trivial⟩

end NdmpFileStat

/-! An array of one element, and an array of as many as a buffer holds. -/

/-- An array with one element. -/
def single {α : Type} (a : α) : { elements : List α // elements.length < 2 ^ 32 } :=
  ⟨[a], by rw [List.length_singleton]; decide⟩

/-- An array of one element goes onto the wire if the element does. -/
theorem single_sendable {elementSize : Nat} {element : Xdr} {value : element.Val}
    (small : elementSize < 2 ^ 32) (sendable : element.Sendable value) :
    (Xdr.array elementSize element).Sendable (single value) := by
  refine ⟨?_, ?_⟩
  · change 1 * elementSize < 2 ^ 32
    rwa [Nat.one_mul]
  · intro other listed
    rwa [List.mem_singleton.mp listed]

theorem unixNameVal_sendable (name : CString) :
    xdrNdmpFileNameV3.Sendable (unixNameVal name) := ⟨rfl, trivial⟩

namespace HistoryFile

def toVal (file : HistoryFile) : xdrNdmpFileV3.Val :=
  (single (unixNameVal file.unixName), single file.stat.toVal, file.node.toVal,
    file.fhInfo.toVal, ())

def arrived (file : HistoryFile) : HistoryFile :=
  { file with stat := file.stat.arrived, node := file.node.arrived, fhInfo := file.fhInfo.arrived }

theorem received_toVal (file : HistoryFile) :
    xdrNdmpFileV3.received file.toVal = file.arrived.toVal := rfl

theorem sendable (file : HistoryFile) : xdrNdmpFileV3.Sendable file.toVal :=
  ⟨single_sendable (by decide) (unixNameVal_sendable _),
    single_sendable (by decide) file.stat.sendable, file.node.sendable, file.fhInfo.sendable,
    trivial⟩

end HistoryFile

namespace HistoryDir

def toVal (dir : HistoryDir) : xdrNdmpDirV3.Val :=
  (single (unixNameVal dir.unixName), dir.node.toVal, dir.parent.toVal, ())

def arrived (dir : HistoryDir) : HistoryDir :=
  { dir with node := dir.node.arrived, parent := dir.parent.arrived }

theorem received_toVal (dir : HistoryDir) :
    xdrNdmpDirV3.received dir.toVal = dir.arrived.toVal := rfl

theorem sendable (dir : HistoryDir) : xdrNdmpDirV3.Sendable dir.toVal :=
  ⟨single_sendable (by decide) (unixNameVal_sendable _), dir.node.sendable, dir.parent.sendable,
    trivial⟩

end HistoryDir

namespace HistoryNode

def toVal (node : HistoryNode) : xdrNdmpNodeV3.Val :=
  (single node.stat.toVal, node.node.toVal, node.fhInfo.toVal, ())

def arrived (node : HistoryNode) : HistoryNode :=
  { stat := node.stat.arrived, node := node.node.arrived, fhInfo := node.fhInfo.arrived }

theorem received_toVal (node : HistoryNode) :
    xdrNdmpNodeV3.received node.toVal = node.arrived.toVal := rfl

theorem sendable (node : HistoryNode) : xdrNdmpNodeV3.Sendable node.toVal :=
  ⟨single_sendable (by decide) node.stat.sendable, node.node.sendable, node.fhInfo.sendable,
    trivial⟩

end HistoryNode

/-! ## Requests -/

namespace HistoryRequest

def count : HistoryRequest → Nat
  | fhAddFile files => files.length
  | fhAddDir dirs => dirs.length
  | fhAddNode nodes => nodes.length

/-- The XDR function for the body of a request, in the versions 3 and 4. -/
def xdr : HistoryRequest → Xdr
  | fhAddFile _ => xdrNdmpFhAddFileRequestV3
  | fhAddDir _ => xdrNdmpFhAddDirRequestV3
  | fhAddNode _ => xdrNdmpFhAddNodeRequestV3

def toVal : (request : HistoryRequest) → request.count < 2 ^ 32 → request.xdr.Val
  | fhAddFile files, small => ⟨files.map HistoryFile.toVal, by rwa [List.length_map]⟩
  | fhAddDir dirs, small => ⟨dirs.map HistoryDir.toVal, by rwa [List.length_map]⟩
  | fhAddNode nodes, small => ⟨nodes.map HistoryNode.toVal, by rwa [List.length_map]⟩

def arrived : HistoryRequest → HistoryRequest
  | fhAddFile files => fhAddFile (files.map HistoryFile.arrived)
  | fhAddDir dirs => fhAddDir (dirs.map HistoryDir.arrived)
  | fhAddNode nodes => fhAddNode (nodes.map HistoryNode.arrived)

/-- The number of the message. -/
def message : HistoryRequest → Nat
  | fhAddFile _ => 0x703
  | fhAddDir _ => 0x704
  | fhAddNode _ => 0x705

/-- The handler table has this XDR function for the message. -/
theorem xdr_of_table (request : HistoryRequest) {connection : Connection}
    (version : connection.connVersion = 3 ∨ connection.connVersion = 4) :
    connection.ndmpGetXdr request.message = some (xdrRq request.xdr) := by
  rw [Connection.ndmpGetXdr]
  rcases version with three | four
  · rw [three]
    cases request <;> dsimp only [message, xdr] <;> rfl
  · rw [four]
    cases request <;> dsimp only [message, xdr] <;> rfl

/-- The bytes of the body. -/
def onWire (request : HistoryRequest) : List UInt8 :=
  if small : request.count < 2 ^ 32 then (request.xdr.encode (request.toVal small)).bytes else []

end HistoryRequest

/-! ## The client -/

/-- The text of a name of UNIX. -/
def nameText (value : xdrNdmpFileNameV3.Val) : CString :=
  if unix : value.1 = 0 then
    (cast (by rw [unix]; rfl) value.2 : { text : List UInt8 // IsText text }).val
  else []

/-- The text of a name comes back from the wire. -/
theorem nameText_unixNameVal (name : HistoryName) :
    nameText (unixNameVal name.text) = name.text := by
  have text : IsText name.text := by
    refine ⟨?_, Nat.lt_of_le_of_lt (Nat.succ_le_succ name.short) (by decide)⟩
    rintro byte listed rfl
    exact name.nulFree listed
  have short : name.text.length ≤ 2 ^ 32 - 2 := name.short.trans (by decide)
  change cutAtNul (name.text.take (2 ^ 32 - 2)) = name.text
  rw [List.take_of_length_le short, cutAtNul_of_isText text]

/-- The number of a quad. -/
def quadNumber (value : xdrNdmpUQuad.Val) : UInt64 := quadToLongLong ⟨value.1, value.2.1⟩

/-- A file as the client has it. -/
structure ClientFile where
  names : List CString
  sizes : List UInt64
  node : UInt64
  fhInfo : UInt64
  deriving DecidableEq, Repr

/-- A directory entry as the client has it. -/
structure ClientDir where
  names : List CString
  node : UInt64
  parent : UInt64
  deriving DecidableEq, Repr

/-- A node as the client has it. -/
structure ClientNode where
  sizes : List UInt64
  node : UInt64
  fhInfo : UInt64
  deriving DecidableEq, Repr

/-- The size in a `ndmp_file_stat_v3`. -/
def statSize (value : xdrNdmpFileStatV3.Val) : UInt64 := quadNumber value.2.2.2.2.2.2.2.2.2.1

/-- A file, from the value that was decoded. -/
def ClientFile.ofVal (value : xdrNdmpFileV3.Val) : ClientFile where
  names := value.1.val.map nameText
  sizes := value.2.1.val.map statSize
  node := quadNumber value.2.2.1
  fhInfo := quadNumber value.2.2.2.1

/-- A directory entry, from the value that was decoded. -/
def ClientDir.ofVal (value : xdrNdmpDirV3.Val) : ClientDir where
  names := value.1.val.map nameText
  node := quadNumber value.2.1
  parent := quadNumber value.2.2.1

/-- A node, from the value that was decoded. -/
def ClientNode.ofVal (value : xdrNdmpNodeV3.Val) : ClientNode where
  sizes := value.1.val.map statSize
  node := quadNumber value.2.1
  fhInfo := quadNumber value.2.2.1

/-- What the client decodes from the body of a message with a number. -/
def clientEntries {Client : Type} (number elementSize : Nat) (element : Xdr)
    (ofVal : element.Val → Client) (message : Nat) (body : List UInt8) : List Client :=
  if message = number then
    match (Xdr.array elementSize element).decode flat body with
    | (some entries, _) => entries.val.map ofVal
    | (none, _) => []
  else []

/-- The files in the body of a message. -/
def clientFiles : Nat → List UInt8 → List ClientFile :=
  clientEntries 0x703 64 xdrNdmpFileV3 ClientFile.ofVal

/-- The directory entries in the body of a message. -/
def clientDirs : Nat → List UInt8 → List ClientDir :=
  clientEntries 0x704 48 xdrNdmpDirV3 ClientDir.ofVal

/-- The nodes in the body of a message. -/
def clientNodes : Nat → List UInt8 → List ClientNode :=
  clientEntries 0x705 48 xdrNdmpNodeV3 ClientNode.ofVal

/-- An array of entries is decoded entry by entry. -/
theorem clientEntries_array {Entry Client : Type} {number elementSize : Nat} {element : Xdr}
    {ofVal : element.Val → Client} {toVal : Entry → element.Val} {arrived : Entry → Entry}
    (received : ∀ entry, element.received (toVal entry) = toVal (arrived entry))
    (sendable : ∀ entry, element.Sendable (toVal entry)) {entries : List Entry}
    (short : (entries.map toVal).length < 2 ^ 32)
    (small : entries.length * elementSize < 2 ^ 32) :
    clientEntries number elementSize element ofVal number
        ((Xdr.array elementSize element).encode ⟨entries.map toVal, short⟩).bytes =
      entries.map fun entry => ofVal (toVal (arrived entry)) := by
  have whole :
      ((Xdr.array elementSize element).encode ⟨entries.map toVal, short⟩).whole = true := by
    refine Xdr.encode_whole _ ⟨by rwa [List.length_map], ?_⟩
    intro value listed
    obtain ⟨entry, -, rfl⟩ := List.mem_map.mp listed
    exact sendable entry
  have run := Xdr.decode_encode _ whole []
  rw [List.append_nil, Xdr.received] at run
  rw [clientEntries, if_pos rfl, run]
  dsimp only
  rw [List.map_map, List.map_map]
  exact List.map_congr_left fun entry _ => congrArg ofVal (received entry)

/-- A message with another number has no such entries. -/
theorem clientEntries_other {Client : Type} {number elementSize message : Nat} {element : Xdr}
    {ofVal : element.Val → Client} {body : List UInt8} (other : message ≠ number) :
    clientEntries number elementSize element ofVal message body = [] := if_neg other

theorem lt_of_few {count size : Nat} (few : count ≤ nPathEntries) (small : size ≤ 64) :
    count * size < 2 ^ 32 :=
  Nat.lt_of_le_of_lt (Nat.mul_le_mul few small) (by decide)

namespace HistoryRequest

variable {request : HistoryRequest} (few : request.count ≤ nPathEntries)
include few

/-- A request with no more entries than a buffer holds is encoded whole. -/
theorem onWire_of_few : ∃ small : request.count < 2 ^ 32,
    request.onWire = (request.xdr.encode (request.toVal small)).bytes := by
  have small : request.count < 2 ^ 32 := Nat.lt_of_le_of_lt few (by decide)
  exact ⟨small, dif_pos small⟩

/-- The client has the files of the request. -/
theorem clientFiles_onWire : clientFiles request.message request.onWire =
    (filesOf request.entries).map fun file => ClientFile.ofVal file.arrived.toVal := by
  obtain ⟨small, bytes⟩ := onWire_of_few few
  rw [bytes]
  cases request with
  | fhAddFile files =>
      rw [(entries_fhAddFile files).1]
      exact clientEntries_array HistoryFile.received_toVal HistoryFile.sendable _
        (lt_of_few few (Nat.le_refl 64))
  | fhAddDir dirs =>
      rw [(entries_fhAddDir dirs).1]
      exact clientEntries_other (by dsimp only [message]; decide)
  | fhAddNode nodes =>
      rw [(entries_fhAddNode nodes).1]
      exact clientEntries_other (by dsimp only [message]; decide)

/-- The client has the directory entries of the request. -/
theorem clientDirs_onWire : clientDirs request.message request.onWire =
    (dirsOf request.entries).map fun dir => ClientDir.ofVal dir.arrived.toVal := by
  obtain ⟨small, bytes⟩ := onWire_of_few few
  rw [bytes]
  cases request with
  | fhAddFile files =>
      rw [(entries_fhAddFile files).2.1]
      exact clientEntries_other (by dsimp only [message]; decide)
  | fhAddDir dirs =>
      rw [(entries_fhAddDir dirs).2.1]
      exact clientEntries_array HistoryDir.received_toVal HistoryDir.sendable _
        (lt_of_few few (by decide))
  | fhAddNode nodes =>
      rw [(entries_fhAddNode nodes).2.1]
      exact clientEntries_other (by dsimp only [message]; decide)

/-- The client has the nodes of the request. -/
theorem clientNodes_onWire : clientNodes request.message request.onWire =
    (nodesOf request.entries).map fun node => ClientNode.ofVal node.arrived.toVal := by
  obtain ⟨small, bytes⟩ := onWire_of_few few
  rw [bytes]
  cases request with
  | fhAddFile files =>
      rw [(entries_fhAddFile files).2.2.1]
      exact clientEntries_other (by dsimp only [message]; decide)
  | fhAddDir dirs =>
      rw [(entries_fhAddDir dirs).2.2.1]
      exact clientEntries_other (by dsimp only [message]; decide)
  | fhAddNode nodes =>
      rw [(entries_fhAddNode nodes).2.2.1]
      exact clientEntries_array HistoryNode.received_toVal HistoryNode.sendable _
        (lt_of_few few (by decide))

end HistoryRequest

/-! ## The size of requests -/

namespace HistorySession

/-- No buffer holds more entries than there is room for, and no request has more. -/
structure Limited (session : HistorySession) : Prop where
  files : session.nsFhV3.fhFileIndex ≤ nPathEntries
  dirs : session.nsFhV3.fhDirIndex ≤ nPathEntries
  nodes : session.nsFhV3.fhNodeIndex ≤ nPathEntries
  sent : ∀ request ∈ session.sent, request.count ≤ nPathEntries

/-- The buffers are empty at first. -/
theorem start_limited (version : Nat) : (start version).Limited where
  files := Nat.zero_le _
  dirs := Nat.zero_le _
  nodes := Nat.zero_le _
  sent := fun _ listed => absurd listed List.not_mem_nil

theorem empty : 0 < nPathEntries := by decide

namespace Limited

variable {session : HistorySession} (limited : session.Limited)
include limited

theorem append {request : HistoryRequest} (few : request.count ≤ nPathEntries) :
    ∀ other ∈ session.sent ++ [request], other.count ≤ nPathEntries := by
  intro other listed
  rcases List.mem_append.mp listed with before | last
  · exact limited.sent other before
  · rwa [List.mem_singleton.mp last]

theorem sendFiles : session.sendFiles.Limited :=
  { limited with
    files := Nat.zero_le _
    sent := limited.append <|
      (List.length_filterMap_le _ _).trans (List.length_range.trans_le limited.files) }

theorem sendDirs : session.sendDirs.Limited :=
  { limited with
    dirs := Nat.zero_le _
    sent := limited.append <|
      (List.length_filterMap_le _ _).trans (List.length_range.trans_le limited.dirs) }

theorem sendNodes : session.sendNodes.Limited :=
  { limited with
    nodes := Nat.zero_le _
    sent := limited.append <|
      (List.length_filterMap_le _ _).trans (List.length_range.trans_le limited.nodes) }

theorem addFile (room : session.nsFhV3.fhFileIndex < nPathEntries) (name : HistoryName)
    (fileStat : HistoryStat) (fhInfo : UInt64) (mallocs : Nat) :
    (session.addFile name fileStat fhInfo mallocs).1.Limited := by
  unfold HistorySession.addFile
  extract_lets
  split
  · exact { limited with files := room }
  · exact { limited with }

theorem addDir (room : session.nsFhV3.fhDirIndex < nPathEntries) (name : HistoryName)
    (inode parent : UInt64) (mallocs : Nat) :
    (session.addDir name inode parent mallocs).1.Limited := by
  unfold HistorySession.addDir
  extract_lets
  split
  · exact { limited with dirs := room }
  · exact { limited with }

theorem addNode (room : session.nsFhV3.fhNodeIndex < nPathEntries) (inode : UInt64)
    (fileStat : HistoryStat) (fhInfo : UInt64) (mallocs : Nat) :
    (session.addNode inode fileStat fhInfo mallocs).1.Limited := by
  unfold HistorySession.addNode
  extract_lets
  split
  · exact { limited with nodes := room }
  · exact { limited with }

theorem ndmpdApiFileHistoryFileV3 (name : Option HistoryName) (fileStat : HistoryStat)
    (fhInfo : UInt64) (means : HistoryMeans) :
    (session.ndmpdApiFileHistoryFileV3 name fileStat fhInfo means).1.Limited := by
  unfold HistorySession.ndmpdApiFileHistoryFileV3
  split
  · split_ifs
    · exact limited
    · exact limited.sendFiles
    · exact limited
  · split_ifs with full
    · exact limited.sendFiles.addFile empty _ _ _ _
    · exact limited
    · exact limited.addFile (Nat.lt_of_le_of_ne limited.files fun last => full (.inl last)) _ _ _ _

theorem ndmpdApiFileHistoryDirV3 (name : Option HistoryName) (inode parent : UInt64)
    (means : HistoryMeans) :
    (session.ndmpdApiFileHistoryDirV3 name inode parent means).1.Limited := by
  unfold HistorySession.ndmpdApiFileHistoryDirV3
  split
  · split_ifs
    · exact limited
    · exact limited.sendDirs
    · exact limited
  · split_ifs with full
    · exact limited.sendDirs.addDir empty _ _ _ _
    · exact limited
    · exact limited.addDir (Nat.lt_of_le_of_ne limited.dirs fun last => full (.inl last)) _ _ _ _

theorem ndmpdApiFileHistoryNodeV3 (inode : UInt64) (fileStat : Option HistoryStat)
    (fhInfo : UInt64) (means : HistoryMeans) :
    (session.ndmpdApiFileHistoryNodeV3 inode fileStat fhInfo means).1.Limited := by
  have dirsFirst : (session.sendDirsFirst means).Limited :=
    limited.ndmpdApiFileHistoryDirV3 none 0 0 means
  unfold HistorySession.ndmpdApiFileHistoryNodeV3
  split
  · split_ifs
    · exact limited
    · exact dirsFirst.sendNodes
    · exact dirsFirst
  · split_ifs with full
    · exact dirsFirst.sendNodes.addNode empty _ _ _ _
    · exact dirsFirst
    · exact limited.addNode (Nat.lt_of_le_of_ne limited.nodes full) _ _ _ _

theorem perform (means : HistoryMeans) (call : HistoryCall) :
    (session.perform means call).1.Limited := by
  cases call with
  | file name fileStat fhInfo => exact limited.ndmpdApiFileHistoryFileV3 _ _ _ _
  | dir name inode parent => exact limited.ndmpdApiFileHistoryDirV3 _ _ _ _
  | node inode fileStat fhInfo => exact limited.ndmpdApiFileHistoryNodeV3 _ _ _ _

theorem performAll (calls : List (HistoryCall × HistoryMeans)) :
    (session.performAll calls).1.Limited := by
  induction calls generalizing session with
  | nil => exact limited
  | cons first others ih => exact ih (limited.perform first.2 first.1)

theorem cleanup (sendFlag : Bool) (means : HistoryMeans) :
    (session.ndmpdFileHistoryCleanup sendFlag means).Limited := by
  have flushed := ((limited.ndmpdApiFileHistoryFileV3 none default 0 means).ndmpdApiFileHistoryDirV3
    none 0 0 means).ndmpdApiFileHistoryNodeV3 0 none 0 means
  unfold ndmpdFileHistoryCleanup ndmpdFileHistoryCleanupV3
  split
  · split
    · exact ⟨Nat.zero_le _, Nat.zero_le _, Nat.zero_le _, flushed.sent⟩
    · exact ⟨Nat.zero_le _, Nat.zero_le _, Nat.zero_le _, limited.sent⟩
  · exact limited

end Limited

/-! ## Everything arrives -/

/-- The calls that returned 0. -/
def accepted (session : HistorySession) : List (HistoryCall × HistoryMeans) → List HistoryCall
  | [] => []
  | (call, means) :: others =>
      let done := session.perform means call
      (if done.2 = 0 then [call] else []) ++ done.1.accepted others

/-- The calls that were accepted are the entries that were added. -/
theorem performAll_accepted (session : HistorySession)
    (calls : List (HistoryCall × HistoryMeans)) :
    (session.performAll calls).2 = (session.accepted calls).filterMap HistoryCall.entry := by
  induction calls generalizing session with
  | nil => rfl
  | cons first others ih =>
      rw [performAll, accepted, List.filterMap_append, ← ih]
      dsimp only
      split
      · rw [List.filterMap_cons, List.filterMap_nil]
        cases first.1.entry <;> rfl
      · rfl

end HistorySession

namespace HistoryCall

/-- What the client is to have of a call that added a file. -/
def clientFile : HistoryCall → Option ClientFile
  | file (some name) fileStat fhInfo =>
      some ⟨[name.text], [fileStat.stSize.toUInt64], fileStat.stIno, fhInfo⟩
  | _ => none

/-- What the client is to have of a call that added a directory entry. -/
def clientDir : HistoryCall → Option ClientDir
  | dir (some name) inode parent => some ⟨[name.text], inode, parent⟩
  | _ => none

/-- What the client is to have of a call that added a node. -/
def clientNode : HistoryCall → Option ClientNode
  | node inode (some fileStat) fhInfo => some ⟨[fileStat.stSize.toUInt64], inode, fhInfo⟩
  | _ => none

end HistoryCall

/-- An inode number or a place in the data stream arrives with all its bits. -/
theorem quadNumber_arrived (ull : UInt64) :
    quadNumber (longLongToQuad ull).arrived.toVal = ull := quadToLongLong_arrived ull

/-- So does a size. -/
theorem statSize_arrived (fileStat : HistoryStat) (fattr : UInt32) :
    statSize (fileStat.entry fattr).arrived.toVal = fileStat.stSize.toUInt64 :=
  quadToLongLong_arrived _

/-- What the client has of a file that a call added. -/
theorem clientFile_entry (calls : List HistoryCall) :
    ((filesOf (calls.filterMap HistoryCall.entry)).map fun file =>
        ClientFile.ofVal file.arrived.toVal) = calls.filterMap HistoryCall.clientFile := by
  induction calls with
  | nil => rfl
  | cons call calls ih =>
      rcases call with ⟨_ | name, fileStat, fhInfo⟩ | ⟨_ | name, inode, parent⟩ |
        ⟨inode, _ | fileStat, fhInfo⟩
      case file.some =>
        refine congrArg₂ List.cons ?_ ih
        change ClientFile.mk [nameText (unixNameVal name.text)]
          [statSize (fileStat.entry (fileStat.stMode &&& 0x0fff)).arrived.toVal]
          (quadNumber (longLongToQuad fileStat.stIno).arrived.toVal)
          (quadNumber (longLongToQuad fhInfo).arrived.toVal) = _
        rw [nameText_unixNameVal, statSize_arrived, quadNumber_arrived, quadNumber_arrived]
      all_goals exact ih

/-- What the client has of a directory entry that a call added. -/
theorem clientDir_entry (calls : List HistoryCall) :
    ((dirsOf (calls.filterMap HistoryCall.entry)).map fun dir =>
        ClientDir.ofVal dir.arrived.toVal) = calls.filterMap HistoryCall.clientDir := by
  induction calls with
  | nil => rfl
  | cons call calls ih =>
      rcases call with ⟨_ | name, fileStat, fhInfo⟩ | ⟨_ | name, inode, parent⟩ |
        ⟨inode, _ | fileStat, fhInfo⟩
      case dir.some =>
        refine congrArg₂ List.cons ?_ ih
        change ClientDir.mk [nameText (unixNameVal name.text)]
          (quadNumber (longLongToQuad inode).arrived.toVal)
          (quadNumber (longLongToQuad parent).arrived.toVal) = _
        rw [nameText_unixNameVal, quadNumber_arrived, quadNumber_arrived]
      all_goals exact ih

/-- What the client has of a node that a call added. -/
theorem clientNode_entry (calls : List HistoryCall) :
    ((nodesOf (calls.filterMap HistoryCall.entry)).map fun node =>
        ClientNode.ofVal node.arrived.toVal) = calls.filterMap HistoryCall.clientNode := by
  induction calls with
  | nil => rfl
  | cons call calls ih =>
      rcases call with ⟨_ | name, fileStat, fhInfo⟩ | ⟨_ | name, inode, parent⟩ |
        ⟨inode, _ | fileStat, fhInfo⟩
      case node.some =>
        refine congrArg₂ List.cons ?_ ih
        change ClientNode.mk [statSize (fileStat.entry fileStat.stMode).arrived.toVal]
          (quadNumber (longLongToQuad inode).arrived.toVal)
          (quadNumber (longLongToQuad fhInfo).arrived.toVal) = _
        rw [statSize_arrived, quadNumber_arrived, quadNumber_arrived]
      all_goals exact ih

/-- What is decoded from each request is decoded from all of them. -/
theorem flatMap_entries {Entry Client : Type} {kind : List HistoryEntry → List Entry}
    (none_ : kind [] = []) (append : ∀ front back, kind (front ++ back) = kind front ++ kind back)
    {decoded : HistoryRequest → List Client} {client : Entry → Client}
    {requests : List HistoryRequest}
    (each : ∀ request ∈ requests, decoded request = (kind request.entries).map client) :
    requests.flatMap decoded = (kind (sentEntries requests)).map client := by
  induction requests with
  | nil =>
      change [] = (kind []).map client
      rw [none_]
      rfl
  | cons request requests ih =>
      rw [List.flatMap_cons, each request List.mem_cons_self,
        ih fun other listed => each other (List.mem_cons_of_mem _ listed), ← List.map_append,
        ← append]
      rfl

/-- **File history arrives.** When everything can be sent, what the client decodes from the
requests of a backup are the files, directory entries and nodes of the calls that were
accepted, each once and in order, with their names and with all 64 bits of their numbers. -/
theorem HistorySession.fileHistory_arrives (version : Nat) (known : 1 ≤ version ∧ version ≤ 4)
    (calls : List (HistoryCall × HistoryMeans)) (closing : HistoryMeans)
    (sends : ∀ call ∈ calls, ∀ kind, call.2.sends kind = true)
    (sendsLast : ∀ kind, closing.sends kind = true) :
    let requests := (((start version).performAll calls).1.ndmpdFileHistoryCleanup true closing).sent
    let accepted := (start version).accepted calls
    (requests.flatMap fun request => clientFiles request.message request.onWire) =
        accepted.filterMap HistoryCall.clientFile ∧
      (requests.flatMap fun request => clientDirs request.message request.onWire) =
        accepted.filterMap HistoryCall.clientDir ∧
      (requests.flatMap fun request => clientNodes request.message request.onWire) =
        accepted.filterMap HistoryCall.clientNode := by
  intro requests accepted
  have few := (((start_limited version).performAll calls).cleanup true closing).sent
  have keeps := (start_keeps version).performAll fun call listed => sends call listed .dir
  have kept := keeps.cleanup sendsLast
  have cleanup : ((start version).performAll calls).1.ndmpdFileHistoryCleanup true closing =
      ((start version).performAll calls).1.ndmpdFileHistoryCleanupV3 true closing := by
    apply if_pos
    rwa [performAll_nsProtocolVersion]
  rw [← cleanup, List.nil_append, performAll_accepted] at kept
  have files := kept.filesAll
  have dirs := kept.dirsAll
  have nodes := kept.nodesAll
  rw [List.append_nil] at files dirs nodes
  refine ⟨?_, ?_, ?_⟩
  · rw [← clientFile_entry, ← files]
    exact flatMap_entries rfl filesOf_append fun request listed =>
      HistoryRequest.clientFiles_onWire (few request listed)
  · rw [← clientDir_entry, ← dirs]
    exact flatMap_entries rfl dirsOf_append fun request listed =>
      HistoryRequest.clientDirs_onWire (few request listed)
  · rw [← clientNode_entry, ← nodes]
    exact flatMap_entries rfl nodesOf_append fun request listed =>
      HistoryRequest.clientNodes_onWire (few request listed)

/-- Two directory entries and a node. -/
theorem HistorySession.fileHistory_arrives_twoDirs :
    let requests := (((start 4).performAll twoDirs).1.ndmpdFileHistoryCleanup true ample).sent
    (requests.flatMap fun request => clientDirs request.message request.onWire) =
      ((start 4).accepted twoDirs).filterMap HistoryCall.clientDir := by
  refine (fileHistory_arrives 4 (by decide) twoDirs ample ?_ fun _ => rfl).2.1
  intro call listed kind
  rcases List.mem_cons.mp listed with rfl | listed
  · rfl
  · rcases List.mem_cons.mp listed with rfl | listed
    · rfl
    · rw [List.mem_singleton.mp listed]
      rfl

end Ndmpd
