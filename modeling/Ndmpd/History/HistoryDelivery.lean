import Ndmpd.History.FileHistory
import Mathlib.Data.List.Forall2

/-!
# Delivery of file history

Every entry that a call added is sent exactly once, in the order of its kind and with the
name it was added with, and a node is sent behind all directory entries that were added
before it (`fileHistory_delivered`). What carries this over the calls is that the entries
sent and the entries buffered are together those added (`Kept`); a buffered entry can be
read through its pointers until it is sent, because a further name is copied behind the
names in the buffer.
-/

namespace Ndmpd

open Foundation

/-! ## Calls -/

/-- A call of a function of file history by the backup. -/
inductive HistoryCall where
  | file (name : Option HistoryName) (fileStat : HistoryStat) (fhInfo : UInt64)
  | dir (name : Option HistoryName) (node parent : UInt64)
  | node (inode : UInt64) (fileStat : Option HistoryStat) (fhInfo : UInt64)

/-- The entry that is to be sent for a call, if it is not only to send what is
buffered. -/
def HistoryCall.entry : HistoryCall → Option HistoryEntry
  | .file name fileStat fhInfo =>
      name.map fun name => .file ⟨.unix, name.text, fileStat.fileEntry,
        longLongToQuad fileStat.stIno, longLongToQuad fhInfo⟩
  | .dir name inode parent =>
      name.map fun name => .dir ⟨.unix, name.text, longLongToQuad inode, longLongToQuad parent⟩
  | .node inode fileStat fhInfo =>
      fileStat.map fun fileStat => .node ⟨fileStat.nodeEntry, longLongToQuad inode,
        longLongToQuad fhInfo⟩

namespace HistorySession

/-- A call of one of the three functions of file history. -/
def perform (session : HistorySession) (means : HistoryMeans) :
    HistoryCall → HistorySession × Int
  | .file name fileStat fhInfo => session.ndmpdApiFileHistoryFileV3 name fileStat fhInfo means
  | .dir name inode parent => session.ndmpdApiFileHistoryDirV3 name inode parent means
  | .node inode fileStat fhInfo => session.ndmpdApiFileHistoryNodeV3 inode fileStat fhInfo means

/-- The session after some calls, and the entries that the calls added: those of the
calls that returned 0. -/
def performAll (session : HistorySession) :
    List (HistoryCall × HistoryMeans) → HistorySession × List HistoryEntry
  | [] => (session, [])
  | (call, means) :: rest =>
      let done := session.perform means call
      let later := done.1.performAll rest
      (later.1, (if done.2 = 0 then call.entry.toList else []) ++ later.2)

/-- A session as it begins. -/
def start (version : Nat) : HistorySession where
  nsFhV3 := .init
  nsProtocolVersion := version
  sent := []

end HistorySession

/-! ## Entries by kind -/

/-- The entries of a request. -/
def HistoryRequest.entries : HistoryRequest → List HistoryEntry
  | .fhAddFile files => files.map .file
  | .fhAddDir dirs => dirs.map .dir
  | .fhAddNode nodes => nodes.map .node

/-- The entries of all requests. -/
def sentEntries (sent : List HistoryRequest) : List HistoryEntry :=
  sent.flatMap HistoryRequest.entries

/-- The files among some entries. -/
def filesOf (entries : List HistoryEntry) : List HistoryFile :=
  entries.filterMap fun
    | .file entry => some entry
    | _ => none

/-- The directory entries among some entries. -/
def dirsOf (entries : List HistoryEntry) : List HistoryDir :=
  entries.filterMap fun
    | .dir entry => some entry
    | _ => none

/-- The nodes among some entries. -/
def nodesOf (entries : List HistoryEntry) : List HistoryNode :=
  entries.filterMap fun
    | .node entry => some entry
    | _ => none

/-- For each node of a list, how many directory entries come before it. -/
def dirsAhead : List HistoryEntry → List Nat
  | [] => []
  | .file _ :: rest => dirsAhead rest
  | .dir _ :: rest => (dirsAhead rest).map (· + 1)
  | .node _ :: rest => 0 :: dirsAhead rest

section Entries

variable (entries more : List HistoryEntry) (sent : List HistoryRequest)
  (request : HistoryRequest)

@[simp] theorem sentEntries_append :
    sentEntries (sent ++ [request]) = sentEntries sent ++ request.entries := by
  rw [sentEntries, List.flatMap_append, List.flatMap_singleton]
  rfl

@[simp] theorem filesOf_append : filesOf (entries ++ more) = filesOf entries ++ filesOf more :=
  List.filterMap_append

@[simp] theorem dirsOf_append : dirsOf (entries ++ more) = dirsOf entries ++ dirsOf more :=
  List.filterMap_append

@[simp] theorem nodesOf_append : nodesOf (entries ++ more) = nodesOf entries ++ nodesOf more :=
  List.filterMap_append

/-- There is one count for each node. -/
theorem length_dirsAhead : (dirsAhead entries).length = (nodesOf entries).length := by
  induction entries with
  | nil => rfl
  | cons entry rest ih =>
      cases entry with
      | file entry => exact ih
      | dir entry => exact (List.length_map _).trans ih
      | node entry => exact congrArg (· + 1) ih

/-- Behind other entries, all their directory entries come before a node too. -/
theorem dirsAhead_append :
    dirsAhead (entries ++ more) =
      dirsAhead entries ++ (dirsAhead more).map (· + (dirsOf entries).length) := by
  induction entries with
  | nil => exact (List.map_id _).symm
  | cons entry rest ih =>
      cases entry with
      | file entry => exact ih
      | dir entry =>
          have ahead : dirsOf (.dir entry :: rest) = entry :: dirsOf rest := rfl
          simp only [List.cons_append, dirsAhead, ih, ahead, List.map_append, List.map_map,
            List.length_cons]
          rfl
      | node entry => exact congrArg (0 :: ·) ih

/-- No more directory entries come before a node than there are. -/
theorem dirsAhead_le : ∀ count ∈ dirsAhead entries, count ≤ (dirsOf entries).length := by
  induction entries with
  | nil => exact fun _ listed => absurd listed List.not_mem_nil
  | cons entry rest ih =>
      intro count listed
      cases entry with
      | file entry => exact ih count listed
      | dir entry =>
          obtain ⟨before, earlier, rfl⟩ := List.mem_map.mp listed
          exact Nat.succ_le_succ (ih before earlier)
      | node entry =>
          rcases List.mem_cons.mp listed with rfl | later
          · exact Nat.zero_le _
          · exact ih count later

end Entries

section Requests

variable (files : List HistoryFile) (dirs : List HistoryDir) (nodes : List HistoryNode)

theorem entries_fhAddFile :
    filesOf (HistoryRequest.fhAddFile files).entries = files ∧
      dirsOf (HistoryRequest.fhAddFile files).entries = [] ∧
      nodesOf (HistoryRequest.fhAddFile files).entries = [] ∧
      dirsAhead (HistoryRequest.fhAddFile files).entries = [] := by
  induction files with
  | nil => exact ⟨rfl, rfl, rfl, rfl⟩
  | cons file rest ih => exact ⟨congrArg (file :: ·) ih.1, ih.2⟩

theorem entries_fhAddDir :
    filesOf (HistoryRequest.fhAddDir dirs).entries = [] ∧
      dirsOf (HistoryRequest.fhAddDir dirs).entries = dirs ∧
      nodesOf (HistoryRequest.fhAddDir dirs).entries = [] ∧
      dirsAhead (HistoryRequest.fhAddDir dirs).entries = [] := by
  induction dirs with
  | nil => exact ⟨rfl, rfl, rfl, rfl⟩
  | cons dir rest ih =>
      obtain ⟨noFiles, all, noNodes, ahead⟩ := ih
      exact ⟨noFiles, congrArg (dir :: ·) all, noNodes, congrArg (List.map (· + 1)) ahead⟩

theorem entries_fhAddNode :
    filesOf (HistoryRequest.fhAddNode nodes).entries = [] ∧
      dirsOf (HistoryRequest.fhAddNode nodes).entries = [] ∧
      nodesOf (HistoryRequest.fhAddNode nodes).entries = nodes ∧
      dirsAhead (HistoryRequest.fhAddNode nodes).entries = List.replicate nodes.length 0 := by
  induction nodes with
  | nil => exact ⟨rfl, rfl, rfl, rfl⟩
  | cons node rest ih =>
      obtain ⟨noFiles, noDirs, all, ahead⟩ := ih
      exact ⟨noFiles, noDirs, congrArg (node :: ·) all, congrArg (0 :: ·) ahead⟩

end Requests

/-! ## What the buffers hold -/

theorem filterMap_range_held {α : Type} {read : Nat → Option α} {held : List α}
    (there : ∀ place (inside : place < held.length), read place = some held[place]) :
    (List.range held.length).filterMap read = held := by
  have mapped : (List.range held.length).map read = held.map some := by
    apply List.ext_getElem
    · rw [List.length_map, List.length_map, List.length_range]
    · intro place _ inside
      rw [List.length_map] at inside
      rw [List.getElem_map, List.getElem_map, List.getElem_range]
      exact there place inside
  calc (List.range held.length).filterMap read
      = ((List.range held.length).map read).filterMap id := by
        rw [List.filterMap_map, Function.id_comp]
    _ = held := by rw [mapped, List.filterMap_map, Function.id_comp, List.filterMap_some]

section Arrays

variable (files : Nat → NdmpFile) (dirs : Nat → NdmpDir) (nodes : Nat → NdmpNode)
  (names : Nat → NdmpFileName) (stats : Nat → NdmpFileStat) (limit : Nat)

/-- The entry at an index is this file, but for its name. -/
def FileAt (place : Nat) (file : HistoryFile) : Prop :=
  files place = ⟨place, place, file.node, file.fhInfo⟩ ∧ stats place = file.stat ∧
    (names place).fsType = file.fsType ∧ NulFree file.unixName

/-- The entry at an index is this directory entry, but for its name. -/
def DirAt (place : Nat) (dir : HistoryDir) : Prop :=
  dirs place = ⟨place, dir.node, dir.parent⟩ ∧ (names place).fsType = dir.fsType ∧
    NulFree dir.unixName

/-- The entry at an index is this node. -/
def NodeAt (place : Nat) (node : HistoryNode) : Prop :=
  nodes place = ⟨place, node.node, node.fhInfo⟩ ∧ stats place = node.stat

/-- The arrays of the file buffer hold these files. -/
structure FilesStored (nameBuf : CharArray pathNamebufSize) (held : List HistoryFile) : Prop where
  named : Named nameBuf (fun place => (names place).unixName) limit (held.map (·.unixName))
  stored : ∀ place (inside : place < held.length), FileAt files names stats place held[place]

/-- The arrays of the directory buffer hold these entries. -/
structure DirsStored (nameBuf : CharArray dirNamebufSize) (held : List HistoryDir) : Prop where
  named : Named nameBuf (fun place => (names place).unixName) limit (held.map (·.unixName))
  stored : ∀ place (inside : place < held.length), DirAt dirs names place held[place]

/-- The arrays of the node buffer hold these nodes. -/
def NodesStored (held : List HistoryNode) : Prop :=
  ∀ place (inside : place < held.length), NodeAt nodes stats place held[place]

end Arrays

namespace FileHistoryV3

variable (history : FileHistoryV3)

/-- The file buffer holds these files. -/
def FilesHeld (held : List HistoryFile) : Prop :=
  history.fhFileIndex = held.length ∧ (held = [] ∨ ∃ files names stats nameBuf,
    history.fhFiles = some files ∧ history.fhFileNames = some names ∧
      history.fhFileStats = some stats ∧ history.fhFileNameBuf = some nameBuf ∧
      FilesStored files names stats history.fhFileNameBufIndex nameBuf held)

/-- The directory buffer holds these directory entries. -/
def DirsHeld (held : List HistoryDir) : Prop :=
  history.fhDirIndex = held.length ∧ (held = [] ∨ ∃ dirs names nameBuf,
    history.fhDirs = some dirs ∧ history.fhDirNames = some names ∧
      history.fhDirNameBuf = some nameBuf ∧
      DirsStored dirs names history.fhDirNameBufIndex nameBuf held)

/-- The node buffer holds these nodes. -/
def NodesHeld (held : List HistoryNode) : Prop :=
  history.fhNodeIndex = held.length ∧ (held = [] ∨ ∃ nodes stats,
    history.fhNodes = some nodes ∧ history.fhNodeStats = some stats ∧
      NodesStored nodes stats held)

variable {history}

/-- What is sent of the file buffer are the files it holds. -/
theorem FilesHeld.read {held : List HistoryFile} (holds : history.FilesHeld held) :
    (List.range history.fhFileIndex).filterMap history.heldFile = held := by
  obtain ⟨index, rfl | ⟨files, names, stats, nameBuf, isFiles, isNames, isStats, isNameBuf,
    named, stored⟩⟩ := holds
  · rw [index]
    rfl
  · rw [index]
    apply filterMap_range_held
    intro place inside
    obtain ⟨file, stat, fsType, nulFree⟩ := stored place inside
    have name := @Named.read _ _ _ _ _ named place (by rwa [List.length_map])
      (by rwa [List.getElem_map])
    rw [List.getElem_map] at name
    simp only [heldFile, isFiles, isNames, isStats, isNameBuf, Option.bind_eq_bind,
      Option.bind_some, file, stat, fsType, name]

/-- What is sent of the directory buffer are the entries it holds. -/
theorem DirsHeld.read {held : List HistoryDir} (holds : history.DirsHeld held) :
    (List.range history.fhDirIndex).filterMap history.heldDir = held := by
  obtain ⟨index, rfl | ⟨dirs, names, nameBuf, isDirs, isNames, isNameBuf, named, stored⟩⟩ := holds
  · rw [index]
    rfl
  · rw [index]
    apply filterMap_range_held
    intro place inside
    obtain ⟨dir, fsType, nulFree⟩ := stored place inside
    have name := @Named.read _ _ _ _ _ named place (by rwa [List.length_map])
      (by rwa [List.getElem_map])
    rw [List.getElem_map] at name
    simp only [heldDir, isDirs, isNames, isNameBuf, Option.bind_eq_bind, Option.bind_some, dir,
      fsType, name]

/-- What is sent of the node buffer are the nodes it holds. -/
theorem NodesHeld.read {held : List HistoryNode} (holds : history.NodesHeld held) :
    (List.range history.fhNodeIndex).filterMap history.heldNode = held := by
  obtain ⟨index, rfl | ⟨nodes, stats, isNodes, isStats, stored⟩⟩ := holds
  · rw [index]
    rfl
  · rw [index]
    apply filterMap_range_held
    intro place inside
    obtain ⟨node, stat⟩ := stored place inside
    simp only [heldNode, isNodes, isStats, Option.bind_eq_bind, Option.bind_some, node, stat]

end FileHistoryV3

/-! ## Adding to the buffers -/

/-- A new name in the array of names. -/
theorem unixName_update (names : Nat → NdmpFileName) (index : Nat) (name : NdmpFileName) :
    (fun place => (Function.update names index name place).unixName) =
      Function.update (fun place => (names place).unixName) index name.unixName := by
  funext place
  by_cases here : place = index
  · rw [here, Function.update_self, Function.update_self]
  · rw [Function.update_of_ne here, Function.update_of_ne here]

/-- A property of the entries of an array that gets one more. -/
theorem forall_places_append {α : Type} {held : List α} {last : α} {P : Nat → α → Prop}
    (front : ∀ place (inside : place < held.length), P place held[place])
    (end_ : P held.length last) :
    ∀ place (inside : place < (held ++ [last]).length), P place (held ++ [last])[place] := by
  intro place inside
  rw [List.length_append, List.length_singleton] at inside
  rcases Nat.lt_succ_iff_lt_or_eq.mp inside with earlier | rfl
  · rw [List.getElem_append_left earlier]
    exact front place earlier
  · rw [List.getElem_concat_length rfl]
    exact end_

section Stored

variable {names : Nat → NdmpFileName} {limit : Nat}

/-- A file is stored behind the others, its name behind theirs. -/
theorem FilesStored.append {files : Nat → NdmpFile} {stats : Nat → NdmpFileStat}
    {nameBuf : CharArray pathNamebufSize} {held : List HistoryFile}
    (holds : FilesStored files names stats limit nameBuf held) (name : HistoryName)
    (stat : NdmpFileStat) (node fhInfo : NdmpUQuad)
    (fits : limit + name.text.length + 1 ≤ pathNamebufSize) :
    FilesStored (Function.update files held.length ⟨held.length, held.length, node, fhInfo⟩)
      (Function.update names held.length ⟨.unix, limit⟩)
      (Function.update stats held.length stat)
      (limit + (name.text.length + 1)) (nameBuf.strlcpyAt limit name.text pathNamebufSize)
      (held ++ [⟨.unix, name.text, stat, node, fhInfo⟩]) := by
  constructor
  · have joined := @Named.append _ _ _ _ _ holds.named name.text pathNamebufSize
      (limit + (name.text.length + 1)) fits (by omega) (Nat.le_refl _)
    rw [List.length_map] at joined
    rw [unixName_update, List.map_append]
    exact joined
  · apply forall_places_append
    · intro place inside
      have before := Nat.ne_of_lt inside
      unfold FileAt
      rw [Function.update_of_ne before, Function.update_of_ne before, Function.update_of_ne before]
      exact holds.stored place inside
    · unfold FileAt
      rw [Function.update_self, Function.update_self, Function.update_self]
      exact ⟨rfl, rfl, rfl, name.nulFree⟩

/-- A directory entry is stored behind the others, its name behind theirs. -/
theorem DirsStored.append {dirs : Nat → NdmpDir} {nameBuf : CharArray dirNamebufSize}
    {held : List HistoryDir} (holds : DirsStored dirs names limit nameBuf held)
    (name : HistoryName) (node parent : NdmpUQuad)
    (fits : limit + name.text.length + 1 ≤ dirNamebufSize) :
    DirsStored (Function.update dirs held.length ⟨held.length, node, parent⟩)
      (Function.update names held.length ⟨.unix, limit⟩)
      (limit + pathNamebufSize) (nameBuf.strlcpyAt limit name.text pathNamebufSize)
      (held ++ [⟨.unix, name.text, node, parent⟩]) := by
  have short : name.text.length < pathNamebufSize :=
    Nat.lt_of_le_of_lt name.short (by decide)
  constructor
  · have joined := @Named.append _ _ _ _ _ holds.named name.text pathNamebufSize
      (limit + pathNamebufSize) fits short (by omega)
    rw [List.length_map] at joined
    rw [unixName_update, List.map_append]
    exact joined
  · apply forall_places_append
    · intro place inside
      have before := Nat.ne_of_lt inside
      unfold DirAt
      rw [Function.update_of_ne before, Function.update_of_ne before]
      exact holds.stored place inside
    · unfold DirAt
      rw [Function.update_self, Function.update_self]
      exact ⟨rfl, rfl, name.nulFree⟩

/-- A node is stored behind the others. -/
theorem NodesStored.append {nodes : Nat → NdmpNode} {stats : Nat → NdmpFileStat}
    {held : List HistoryNode} (holds : NodesStored nodes stats held) (stat : NdmpFileStat)
    (node fhInfo : NdmpUQuad) :
    NodesStored (Function.update nodes held.length ⟨held.length, node, fhInfo⟩)
      (Function.update stats held.length stat) (held ++ [⟨stat, node, fhInfo⟩]) := by
  apply forall_places_append
  · intro place inside
    have before := Nat.ne_of_lt inside
    unfold NodeAt
    rw [Function.update_of_ne before, Function.update_of_ne before]
    exact holds place inside
  · unfold NodeAt
    rw [Function.update_self, Function.update_self]
    exact ⟨rfl, rfl⟩

end Stored

/-! Memory that a buffer has already is not replaced. -/

namespace FileHistoryV3

variable {history : FileHistoryV3} (first second third fourth : Nat)

/-- Allocating the arrays keeps the files that are held. -/
theorem FilesHeld.allocated {held : List HistoryFile} (holds : history.FilesHeld held) :
    { history with
      fhFiles := (allocate default history.fhFiles first).1
      fhFileNames := (allocate default history.fhFileNames second).1
      fhFileNameBuf := (allocate (CharArray.zero _) history.fhFileNameBuf third).1
      fhFileStats := (allocate default history.fhFileStats fourth).1 }.FilesHeld held := by
  obtain ⟨index, none_ | ⟨files, names, stats, nameBuf, isFiles, isNames, isStats, isNameBuf,
    stored⟩⟩ := holds
  · exact ⟨index, .inl none_⟩
  · refine ⟨index, .inr ⟨files, names, stats, nameBuf, ?_, ?_, ?_, ?_, stored⟩⟩
    · rw [isFiles, allocate]
    · rw [isNames, allocate]
    · rw [isStats, allocate]
    · rw [isNameBuf, allocate]

theorem DirsHeld.allocated {held : List HistoryDir} (holds : history.DirsHeld held) :
    { history with
      fhDirs := (allocate default history.fhDirs first).1
      fhDirNames := (allocate default history.fhDirNames second).1
      fhDirNameBuf := (allocate (CharArray.zero _) history.fhDirNameBuf third).1 }.DirsHeld
        held := by
  obtain ⟨index, none_ | ⟨dirs, names, nameBuf, isDirs, isNames, isNameBuf, stored⟩⟩ := holds
  · exact ⟨index, .inl none_⟩
  · refine ⟨index, .inr ⟨dirs, names, nameBuf, ?_, ?_, ?_, stored⟩⟩
    · rw [isDirs, allocate]
    · rw [isNames, allocate]
    · rw [isNameBuf, allocate]

theorem NodesHeld.allocated {held : List HistoryNode} (holds : history.NodesHeld held) :
    { history with
      fhNodes := (allocate default history.fhNodes first).1
      fhNodeStats := (allocate default history.fhNodeStats second).1 }.NodesHeld held := by
  obtain ⟨index, none_ | ⟨nodes, stats, isNodes, isStats, stored⟩⟩ := holds
  · exact ⟨index, .inl none_⟩
  · refine ⟨index, .inr ⟨nodes, stats, ?_, ?_, stored⟩⟩
    · rw [isNodes, allocate]
    · rw [isStats, allocate]

theorem FilesHeld.stored {held : List HistoryFile} (holds : history.FilesHeld held)
    {files : Nat → NdmpFile} {names : Nat → NdmpFileName} {stats : Nat → NdmpFileStat}
    {nameBuf : CharArray pathNamebufSize} (isFiles : history.fhFiles = some files)
    (isNames : history.fhFileNames = some names) (isNameBuf : history.fhFileNameBuf = some nameBuf)
    (isStats : history.fhFileStats = some stats) :
    FilesStored files names stats history.fhFileNameBufIndex nameBuf held := by
  obtain ⟨index, rfl | ⟨files', names', stats', nameBuf', isFiles', isNames', isStats',
    isNameBuf', stored⟩⟩ := holds
  · exact ⟨Named.nil, fun _ inside => absurd inside (Nat.not_lt_zero _)⟩
  · cases isFiles.symm.trans isFiles'
    cases isNames.symm.trans isNames'
    cases isStats.symm.trans isStats'
    cases isNameBuf.symm.trans isNameBuf'
    exact stored

theorem DirsHeld.stored {held : List HistoryDir} (holds : history.DirsHeld held)
    {dirs : Nat → NdmpDir} {names : Nat → NdmpFileName} {nameBuf : CharArray dirNamebufSize}
    (isDirs : history.fhDirs = some dirs) (isNames : history.fhDirNames = some names)
    (isNameBuf : history.fhDirNameBuf = some nameBuf) :
    DirsStored dirs names history.fhDirNameBufIndex nameBuf held := by
  obtain ⟨index, rfl | ⟨dirs', names', nameBuf', isDirs', isNames', isNameBuf', stored⟩⟩ := holds
  · exact ⟨Named.nil, fun _ inside => absurd inside (Nat.not_lt_zero _)⟩
  · cases isDirs.symm.trans isDirs'
    cases isNames.symm.trans isNames'
    cases isNameBuf.symm.trans isNameBuf'
    exact stored

theorem NodesHeld.stored {held : List HistoryNode} (holds : history.NodesHeld held)
    {nodes : Nat → NdmpNode} {stats : Nat → NdmpFileStat} (isNodes : history.fhNodes = some nodes)
    (isStats : history.fhNodeStats = some stats) : NodesStored nodes stats held := by
  obtain ⟨index, rfl | ⟨nodes', stats', isNodes', isStats', stored⟩⟩ := holds
  · exact fun _ inside => absurd inside (Nat.not_lt_zero _)
  · cases isNodes.symm.trans isNodes'
    cases isStats.symm.trans isStats'
    exact stored

end FileHistoryV3

/-! ## What every call keeps -/

/-- The entries sent and those still buffered are together the entries added, and as many
directory entries were sent before a node as had been added before it. -/
structure Kept (session : HistorySession) (added : List HistoryEntry) (files : List HistoryFile)
    (dirs : List HistoryDir) (nodes : List HistoryNode) : Prop where
  filesHeld : session.nsFhV3.FilesHeld files
  dirsHeld : session.nsFhV3.DirsHeld dirs
  nodesHeld : session.nsFhV3.NodesHeld nodes
  filesAll : filesOf (sentEntries session.sent) ++ files = filesOf added
  dirsAll : dirsOf (sentEntries session.sent) ++ dirs = dirsOf added
  nodesAll : nodesOf (sentEntries session.sent) ++ nodes = nodesOf added
  ahead : List.Forall₂ (· ≤ ·)
    ((dirsAhead added).take (nodesOf (sentEntries session.sent)).length)
    (dirsAhead (sentEntries session.sent))

/-- `Kept`, for some contents of the buffers. -/
def HistorySession.Keeps (session : HistorySession) (added : List HistoryEntry) : Prop :=
  ∃ files dirs nodes, Kept session added files dirs nodes

/-- `Kept` after a call that is to add an entry, or none: the entry counts as added when
the call returns 0. -/
def Adds (result : HistorySession × Int) (added : List HistoryEntry)
    (entry : Option HistoryEntry) : Prop :=
  result.1.Keeps (added ++ if result.2 = 0 then entry.toList else [])

namespace Kept

variable {session : HistorySession} {added : List HistoryEntry} {files : List HistoryFile}
  {dirs : List HistoryDir} {nodes : List HistoryNode}

/-- Sending the file buffer moves its files to what was sent. -/
theorem sendFiles (kept : Kept session added files dirs nodes) :
    Kept session.sendFiles added [] dirs nodes := by
  obtain ⟨allFiles, noDirs, noNodes, noneAhead⟩ := entries_fhAddFile files
  have sent : sentEntries session.sendFiles.sent =
      sentEntries session.sent ++ (HistoryRequest.fhAddFile files).entries := by
    rw [HistorySession.sendFiles, sentEntries_append, kept.filesHeld.read]
  constructor
  · exact ⟨rfl, .inl rfl⟩
  · exact kept.dirsHeld
  · exact kept.nodesHeld
  · rw [sent, filesOf_append, allFiles, List.append_nil]
    exact kept.filesAll
  · rw [sent, dirsOf_append, noDirs, List.append_nil]
    exact kept.dirsAll
  · rw [sent, nodesOf_append, noNodes, List.append_nil]
    exact kept.nodesAll
  · rw [sent, nodesOf_append, noNodes, List.append_nil, dirsAhead_append, noneAhead, List.map_nil,
      List.append_nil]
    exact kept.ahead

/-- Sending the directory buffer moves its entries to what was sent. -/
theorem sendDirs (kept : Kept session added files dirs nodes) :
    Kept session.sendDirs added files [] nodes := by
  obtain ⟨noFiles, allDirs, noNodes, noneAhead⟩ := entries_fhAddDir dirs
  have sent : sentEntries session.sendDirs.sent =
      sentEntries session.sent ++ (HistoryRequest.fhAddDir dirs).entries := by
    rw [HistorySession.sendDirs, sentEntries_append, kept.dirsHeld.read]
  constructor
  · exact kept.filesHeld
  · exact ⟨rfl, .inl rfl⟩
  · exact kept.nodesHeld
  · rw [sent, filesOf_append, noFiles, List.append_nil]
    exact kept.filesAll
  · rw [sent, dirsOf_append, allDirs, List.append_nil]
    exact kept.dirsAll
  · rw [sent, nodesOf_append, noNodes, List.append_nil]
    exact kept.nodesAll
  · rw [sent, nodesOf_append, noNodes, List.append_nil, dirsAhead_append, noneAhead, List.map_nil,
      List.append_nil]
    exact kept.ahead

/-- When no directory entry is left, all that were added are sent before the nodes. -/
theorem sendNodes (kept : Kept session added files [] nodes) :
    Kept session.sendNodes added files [] [] := by
  obtain ⟨noFiles, noDirs, allNodes, noneAhead⟩ := entries_fhAddNode nodes
  have sent : sentEntries session.sendNodes.sent =
      sentEntries session.sent ++ (HistoryRequest.fhAddNode nodes).entries := by
    rw [HistorySession.sendNodes, sentEntries_append, kept.nodesHeld.read]
  have allDirs : dirsOf (sentEntries session.sent) = dirsOf added := by
    rw [← kept.dirsAll, List.append_nil]
  constructor
  · exact kept.filesHeld
  · exact kept.dirsHeld
  · exact ⟨rfl, .inl rfl⟩
  · rw [sent, filesOf_append, noFiles, List.append_nil]
    exact kept.filesAll
  · rw [sent, dirsOf_append, noDirs, List.append_nil]
    exact kept.dirsAll
  · rw [sent, nodesOf_append, allNodes, List.append_nil]
    exact kept.nodesAll
  · have count : (dirsAhead added).length =
        (nodesOf (sentEntries session.sent)).length + nodes.length := by
      rw [length_dirsAhead, ← kept.nodesAll, List.length_append]
    have rest : List.Forall₂ (· ≤ ·)
        ((dirsAhead added).drop (nodesOf (sentEntries session.sent)).length)
        (List.replicate nodes.length (dirsOf added).length) := by
      rw [List.forall₂_iff_get]
      constructor
      · rw [List.length_drop, List.length_replicate, count]
        omega
      · intro place inside _
        rw [List.get_eq_getElem, List.get_eq_getElem, List.getElem_replicate]
        exact dirsAhead_le added _ (List.mem_of_mem_drop (List.getElem_mem inside))
    have both := List.rel_append kept.ahead rest
    beta_reduce at both
    rw [List.take_append_drop] at both
    rw [sent, nodesOf_append, allNodes, List.length_append, ← count, List.take_length,
      dirsAhead_append, noneAhead, List.map_replicate, Nat.zero_add, allDirs]
    exact both

/-- An entry joins the buffer of its kind; nothing is sent. -/
theorem joined (kept : Kept session added files dirs nodes) {next : HistorySession}
    (entry : HistoryEntry) (sent : next.sent = session.sent)
    (filesHeld : next.nsFhV3.FilesHeld (files ++ filesOf [entry]))
    (dirsHeld : next.nsFhV3.DirsHeld (dirs ++ dirsOf [entry]))
    (nodesHeld : next.nsFhV3.NodesHeld (nodes ++ nodesOf [entry])) :
    Kept next (added ++ [entry]) (files ++ filesOf [entry]) (dirs ++ dirsOf [entry])
      (nodes ++ nodesOf [entry]) := by
  constructor
  · exact filesHeld
  · exact dirsHeld
  · exact nodesHeld
  · rw [sent, ← List.append_assoc, kept.filesAll, filesOf_append]
  · rw [sent, ← List.append_assoc, kept.dirsAll, dirsOf_append]
  · rw [sent, ← List.append_assoc, kept.nodesAll, nodesOf_append]
  · have within : (nodesOf (sentEntries session.sent)).length ≤ (dirsAhead added).length := by
      rw [length_dirsAhead, ← kept.nodesAll, List.length_append]
      omega
    rw [sent, dirsAhead_append, List.take_append_of_le_length within]
    exact kept.ahead

/-- A call that adds nothing. -/
theorem unchanged (kept : Kept session added files dirs nodes) {code : Int}
    {entry : Option HistoryEntry} (nothing : code ≠ 0 ∨ entry = none) :
    Adds (session, code) added entry := by
  have none_ : (if code = 0 then entry.toList else []) = [] := by
    rcases nothing with failed | rfl
    · exact if_neg failed
    · exact ite_self _
  refine ⟨files, dirs, nodes, ?_⟩
  dsimp only
  rwa [none_, List.append_nil]

/-- A file is added to the file buffer, or the call fails for want of memory. -/
theorem addFile (kept : Kept session added files dirs nodes) (name : HistoryName)
    (fileStat : HistoryStat) (fhInfo : UInt64) (mallocs : Nat)
    (fits : session.nsFhV3.fhFileNameBufIndex + name.text.length + 1 ≤ pathNamebufSize) :
    Adds (session.addFile name fileStat fhInfo mallocs) added
      (HistoryCall.file (some name) fileStat fhInfo).entry := by
  unfold HistorySession.addFile
  extract_lets history files' names nameBuf stats allocated index spot
  have held : allocated.FilesHeld files :=
    kept.filesHeld.allocated mallocs files'.2 names.2 nameBuf.2
  split
  case h_1 fileArray nameArray nameBytes statArray isFiles isNames isNameBuf isStats =>
    have longer := (held.stored isFiles isNames isNameBuf isStats).append name fileStat.fileEntry
      (longLongToQuad fileStat.stIno) (longLongToQuad fhInfo) fits
    rw [← kept.filesHeld.1] at longer
    refine ⟨_, _, _, kept.joined (.file _) rfl ⟨?_, .inr ⟨_, _, _, _, rfl, rfl, rfl, rfl, longer⟩⟩
      ?_ ?_⟩
    · rw [List.length_append]
      exact congrArg (· + 1) kept.filesHeld.1
    · exact (List.append_nil dirs).symm ▸ kept.dirsHeld
    · exact (List.append_nil nodes).symm ▸ kept.nodesHeld
  case h_2 =>
    have same : Kept { session with nsFhV3 := allocated } added files dirs nodes :=
      { kept with filesHeld := held }
    exact same.unchanged (.inl (by decide))

/-- A directory entry is added to the directory buffer, or the call fails. -/
theorem addDir (kept : Kept session added files dirs nodes) (name : HistoryName)
    (inode parent : UInt64) (mallocs : Nat)
    (fits : session.nsFhV3.fhDirNameBufIndex + name.text.length + 1 ≤ dirNamebufSize) :
    Adds (session.addDir name inode parent mallocs) added
      (HistoryCall.dir (some name) inode parent).entry := by
  unfold HistorySession.addDir
  extract_lets history dirs' names nameBuf allocated index spot
  have held : allocated.DirsHeld dirs := kept.dirsHeld.allocated mallocs dirs'.2 names.2
  split
  case h_1 dirArray nameArray nameBytes isDirs isNames isNameBuf =>
    have longer := (held.stored isDirs isNames isNameBuf).append name (longLongToQuad inode)
      (longLongToQuad parent) fits
    rw [← kept.dirsHeld.1] at longer
    refine ⟨_, _, _, kept.joined (.dir _) rfl ?_ ⟨?_, .inr ⟨_, _, _, rfl, rfl, rfl, longer⟩⟩ ?_⟩
    · exact (List.append_nil files).symm ▸ kept.filesHeld
    · rw [List.length_append]
      exact congrArg (· + 1) kept.dirsHeld.1
    · exact (List.append_nil nodes).symm ▸ kept.nodesHeld
  case h_2 =>
    have same : Kept { session with nsFhV3 := allocated } added files dirs nodes :=
      { kept with dirsHeld := held }
    exact same.unchanged (.inl (by decide))

/-- A node is added to the node buffer, or the call fails. -/
theorem addNode (kept : Kept session added files dirs nodes) (inode : UInt64)
    (fileStat : HistoryStat) (fhInfo : UInt64) (mallocs : Nat) :
    Adds (session.addNode inode fileStat fhInfo mallocs) added
      (HistoryCall.node inode (some fileStat) fhInfo).entry := by
  unfold HistorySession.addNode
  extract_lets history nodes' stats allocated index
  have held : allocated.NodesHeld nodes := kept.nodesHeld.allocated mallocs nodes'.2
  split
  case h_1 nodeArray statArray isNodes isStats =>
    have longer := (held.stored isNodes isStats).append fileStat.nodeEntry (longLongToQuad inode)
      (longLongToQuad fhInfo)
    rw [← kept.nodesHeld.1] at longer
    refine ⟨_, _, _, kept.joined (.node _) rfl ?_ ?_ ⟨?_, .inr ⟨_, _, rfl, rfl, longer⟩⟩⟩
    · exact (List.append_nil files).symm ▸ kept.filesHeld
    · exact (List.append_nil dirs).symm ▸ kept.dirsHeld
    · rw [List.length_append]
      exact congrArg (· + 1) kept.nodesHeld.1
  case h_2 =>
    have same : Kept { session with nsFhV3 := allocated } added files dirs nodes :=
      { kept with nodesHeld := held }
    exact same.unchanged (.inl (by decide))

/-- A full buffer is sent, and has room for any name then. -/
theorem ndmpdApiFileHistoryFileV3 (kept : Kept session added files dirs nodes)
    (name : Option HistoryName) (fileStat : HistoryStat) (fhInfo : UInt64) {means : HistoryMeans} :
    Adds (session.ndmpdApiFileHistoryFileV3 name fileStat fhInfo means) added
      (HistoryCall.file name fileStat fhInfo).entry := by
  cases name with
  | none =>
      simp only [HistorySession.ndmpdApiFileHistoryFileV3]
      split
      · exact kept.unchanged (.inr rfl)
      · split
        · exact kept.sendFiles.unchanged (.inr rfl)
        · exact kept.unchanged (.inr rfl)
  | some name =>
      simp only [HistorySession.ndmpdApiFileHistoryFileV3]
      split
      · split
        · apply kept.sendFiles.addFile
          have short := name.short
          have room : tlmMaxPathName + 1 ≤ pathNamebufSize := by decide
          simp only [HistorySession.sendFiles]
          omega
        · exact kept.unchanged (.inl (by decide))
      next room =>
        apply kept.addFile
        exact Nat.le_of_not_lt (not_or.mp room).2

theorem ndmpdApiFileHistoryDirV3 (kept : Kept session added files dirs nodes)
    (name : Option HistoryName) (inode parent : UInt64) {means : HistoryMeans} :
    Adds (session.ndmpdApiFileHistoryDirV3 name inode parent means) added
      (HistoryCall.dir name inode parent).entry := by
  cases name with
  | none =>
      simp only [HistorySession.ndmpdApiFileHistoryDirV3]
      split
      · exact kept.unchanged (.inr rfl)
      · split
        · exact kept.sendDirs.unchanged (.inr rfl)
        · exact kept.unchanged (.inr rfl)
  | some name =>
      simp only [HistorySession.ndmpdApiFileHistoryDirV3]
      split
      · split
        · apply kept.sendDirs.addDir
          have short := name.short
          have room : tlmMaxPathName + 1 ≤ dirNamebufSize := by decide
          simp only [HistorySession.sendDirs]
          omega
        · exact kept.unchanged (.inl (by decide))
      next room =>
        apply kept.addDir
        exact Nat.le_of_not_lt (not_or.mp room).2

/-- Without a name, the functions leave nothing in their buffers. -/
theorem flushFiles (kept : Kept session added files dirs nodes) {means : HistoryMeans}
    (sends : means.sends .file = true) (fileStat : HistoryStat) (fhInfo : UInt64) :
    Kept (session.ndmpdApiFileHistoryFileV3 none fileStat fhInfo means).1 added [] dirs nodes := by
  simp only [HistorySession.ndmpdApiFileHistoryFileV3]
  by_cases empty : session.nsFhV3.fhFileIndex = 0
  · have none_ : files = [] := List.eq_nil_of_length_eq_zero (kept.filesHeld.1.symm.trans empty)
    rw [if_pos empty]
    rwa [none_] at kept
  · rw [if_neg empty, if_pos sends]
    exact kept.sendFiles

/-- Nothing is lost when the directory buffer is flushed. -/
theorem flushDirs (kept : Kept session added files dirs nodes) {means : HistoryMeans}
    (sends : means.sends .dir = true) (inode parent : UInt64) :
    Kept (session.ndmpdApiFileHistoryDirV3 none inode parent means).1 added files [] nodes := by
  simp only [HistorySession.ndmpdApiFileHistoryDirV3]
  by_cases empty : session.nsFhV3.fhDirIndex = 0
  · have none_ : dirs = [] := List.eq_nil_of_length_eq_zero (kept.dirsHeld.1.symm.trans empty)
    rw [if_pos empty]
    rwa [none_] at kept
  · rw [if_neg empty, if_pos sends]
    exact kept.sendDirs

/-- Nothing is lost when the node buffer is flushed. -/
theorem flushNodes (kept : Kept session added files [] nodes) {means : HistoryMeans}
    (sends : ∀ kind, means.sends kind = true) (inode fhInfo : UInt64) :
    Kept (session.ndmpdApiFileHistoryNodeV3 inode none fhInfo means).1 added files [] [] := by
  simp only [HistorySession.ndmpdApiFileHistoryNodeV3]
  by_cases empty : session.nsFhV3.fhNodeIndex = 0
  · have none_ : nodes = [] := List.eq_nil_of_length_eq_zero (kept.nodesHeld.1.symm.trans empty)
    rw [if_pos empty]
    rwa [none_] at kept
  · rw [if_neg empty, if_pos (sends .node)]
    exact (kept.flushDirs (sends .dir) 0 0).sendNodes

theorem ndmpdApiFileHistoryNodeV3 (kept : Kept session added files dirs nodes) (inode : UInt64)
    (fileStat : Option HistoryStat) (fhInfo : UInt64) {means : HistoryMeans}
    (sends : means.sends .dir = true) :
    Adds (session.ndmpdApiFileHistoryNodeV3 inode fileStat fhInfo means) added
      (HistoryCall.node inode fileStat fhInfo).entry := by
  have before : Kept (session.sendDirsFirst means) added files [] nodes :=
    kept.flushDirs sends 0 0
  cases fileStat with
  | none =>
      simp only [HistorySession.ndmpdApiFileHistoryNodeV3]
      split
      · exact kept.unchanged (.inr rfl)
      · split
        · exact before.sendNodes.unchanged (.inr rfl)
        · exact before.unchanged (.inr rfl)
  | some fileStat =>
      simp only [HistorySession.ndmpdApiFileHistoryNodeV3]
      split
      · split
        · exact before.sendNodes.addNode inode fileStat fhInfo means.mallocs
        · exact before.unchanged (.inl (by decide))
      · exact kept.addNode inode fileStat fhInfo means.mallocs

end Kept

/-! ## Runs -/

namespace HistorySession

variable {session : HistorySession} {added : List HistoryEntry}

/-- A call keeps what was added before and adds its entry. -/
theorem Keeps.perform (keeps : session.Keeps added) (call : HistoryCall) {means : HistoryMeans}
    (sends : means.sends .dir = true) : Adds (session.perform means call) added call.entry := by
  obtain ⟨files, dirs, nodes, kept⟩ := keeps
  cases call with
  | file name fileStat fhInfo => exact kept.ndmpdApiFileHistoryFileV3 name fileStat fhInfo
  | dir name inode parent => exact kept.ndmpdApiFileHistoryDirV3 name inode parent
  | node inode fileStat fhInfo => exact kept.ndmpdApiFileHistoryNodeV3 inode fileStat fhInfo sends

/-- By induction over the calls: what was sent and what is held is what was added. -/
theorem Keeps.performAll {calls : List (HistoryCall × HistoryMeans)}
    (keeps : session.Keeps added) (sends : ∀ call ∈ calls, call.2.sends .dir = true) :
    (session.performAll calls).1.Keeps (added ++ (session.performAll calls).2) := by
  induction calls generalizing session added with
  | nil =>
      rw [HistorySession.performAll, List.append_nil]
      exact keeps
  | cons first rest ih =>
      have next := keeps.perform first.1 (sends first List.mem_cons_self)
      have later := ih next fun call listed => sends call (List.mem_cons_of_mem first listed)
      rw [List.append_assoc] at later
      exact later

/-- A session begins with empty buffers. -/
theorem start_keeps (version : Nat) : (start version).Keeps [] :=
  ⟨[], [], [], ⟨rfl, .inl rfl⟩, ⟨rfl, .inl rfl⟩, ⟨rfl, .inl rfl⟩, rfl, rfl, rfl, .nil⟩

/-- When everything can be sent, the cleanup leaves nothing in the buffers. -/
theorem Keeps.cleanup (keeps : session.Keeps added) {means : HistoryMeans}
    (sends : ∀ kind, means.sends kind = true) :
    Kept (session.ndmpdFileHistoryCleanupV3 true means) added [] [] [] := by
  obtain ⟨files, dirs, nodes, kept⟩ := keeps
  have flushed := ((kept.flushFiles (sends .file) default 0).flushDirs (sends .dir) 0 0).flushNodes
    sends 0 0
  exact { flushed with
    filesHeld := ⟨rfl, .inl rfl⟩
    dirsHeld := ⟨rfl, .inl rfl⟩
    nodesHeld := ⟨rfl, .inl rfl⟩ }

/-! The calls do not change the protocol version. -/

section Version

variable (session)

theorem addFile_nsProtocolVersion (name : HistoryName) (fileStat : HistoryStat)
    (fhInfo : UInt64) (mallocs : Nat) :
    (session.addFile name fileStat fhInfo mallocs).1.nsProtocolVersion =
      session.nsProtocolVersion := by
  unfold addFile
  extract_lets
  split <;> rfl

theorem addDir_nsProtocolVersion (name : HistoryName) (inode parent : UInt64) (mallocs : Nat) :
    (session.addDir name inode parent mallocs).1.nsProtocolVersion =
      session.nsProtocolVersion := by
  unfold addDir
  extract_lets
  split <;> rfl

theorem addNode_nsProtocolVersion (inode : UInt64) (fileStat : HistoryStat) (fhInfo : UInt64)
    (mallocs : Nat) :
    (session.addNode inode fileStat fhInfo mallocs).1.nsProtocolVersion =
      session.nsProtocolVersion := by
  unfold addNode
  extract_lets
  split <;> rfl

theorem sendDirsFirst_nsProtocolVersion (means : HistoryMeans) :
    (session.sendDirsFirst means).nsProtocolVersion = session.nsProtocolVersion := by
  simp only [sendDirsFirst, ndmpdApiFileHistoryDirV3]
  split
  · rfl
  · split <;> rfl

/-- No call changes the version of the protocol. -/
theorem perform_nsProtocolVersion (means : HistoryMeans) (call : HistoryCall) :
    (session.perform means call).1.nsProtocolVersion = session.nsProtocolVersion := by
  rcases call with ⟨_ | name, fileStat, fhInfo⟩ | ⟨_ | name, inode, parent⟩ |
    ⟨inode, _ | fileStat, fhInfo⟩
  all_goals
    simp only [perform, ndmpdApiFileHistoryFileV3, ndmpdApiFileHistoryDirV3,
      ndmpdApiFileHistoryNodeV3]
    split_ifs
  all_goals
    simp only [addFile_nsProtocolVersion, addDir_nsProtocolVersion, addNode_nsProtocolVersion,
      sendFiles, sendDirs, sendNodes, sendDirsFirst_nsProtocolVersion]

theorem performAll_nsProtocolVersion (calls : List (HistoryCall × HistoryMeans)) :
    (session.performAll calls).1.nsProtocolVersion = session.nsProtocolVersion := by
  induction calls generalizing session with
  | nil => rfl
  | cons first rest ih => exact (ih _).trans (session.perform_nsProtocolVersion first.2 first.1)

end Version

/-- With every send succeeding, the requests carry exactly the entries added, and each
node comes behind the directory entries that were added before it. -/
theorem fileHistory_delivered (version : Nat) (known : 1 ≤ version ∧ version ≤ 4)
    (calls : List (HistoryCall × HistoryMeans)) (closing : HistoryMeans)
    (sends : ∀ call ∈ calls, ∀ kind, call.2.sends kind = true)
    (sendsLast : ∀ kind, closing.sends kind = true) :
    let added := ((start version).performAll calls).2
    let session := ((start version).performAll calls).1.ndmpdFileHistoryCleanup true closing
    let delivered := sentEntries session.sent
    filesOf delivered = filesOf added ∧ dirsOf delivered = dirsOf added ∧
      nodesOf delivered = nodesOf added ∧
      List.Forall₂ (· ≤ ·) (dirsAhead added) (dirsAhead delivered) := by
  intro added session delivered
  have keeps := (start_keeps version).performAll fun call listed => sends call listed .dir
  rw [List.nil_append] at keeps
  have kept := keeps.cleanup sendsLast
  have cleanup : session =
      ((start version).performAll calls).1.ndmpdFileHistoryCleanupV3 true closing := by
    apply if_pos
    rwa [performAll_nsProtocolVersion]
  rw [← cleanup] at kept
  have files := kept.filesAll
  have dirs := kept.dirsAll
  have nodes := kept.nodesAll
  have ahead := kept.ahead
  rw [List.append_nil] at files dirs nodes
  rw [nodes, ← length_dirsAhead, List.take_length] at ahead
  exact ⟨files, dirs, nodes, ahead⟩

/-- Memory enough, and everything can be sent. -/
def ample : HistoryMeans := ⟨fun _ => true, 4⟩

/-- The name `a`. -/
def nameA : HistoryName := ⟨[97], by decide, by decide⟩

/-- Two directory entries, of which the second makes the first be sent, and a node. -/
def twoDirs : List (HistoryCall × HistoryMeans) :=
  [(.dir (some nameA) 7 1, ample), (.dir (some nameA) 8 1, ample),
    (.node 8 (some default) 0, ample)]

theorem fileHistory_delivered_twoDirs :
    let added := ((start 4).performAll twoDirs).2
    let session := ((start 4).performAll twoDirs).1.ndmpdFileHistoryCleanup true ample
    let delivered := sentEntries session.sent
    filesOf delivered = filesOf added ∧ dirsOf delivered = dirsOf added ∧
      nodesOf delivered = nodesOf added ∧
      List.Forall₂ (· ≤ ·) (dirsAhead added) (dirsAhead delivered) := by
  apply fileHistory_delivered 4 (by decide) twoDirs ample
  · intro call listed kind
    rcases List.mem_cons.mp listed with rfl | listed
    · rfl
    · rcases List.mem_cons.mp listed with rfl | listed
      · rfl
      · rw [List.mem_singleton.mp listed]
        rfl
  · exact fun _ => rfl

end HistorySession

end Ndmpd
