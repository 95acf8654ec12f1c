import Ndmpd.Tlm.HugeFiles
import Ndmpd.Tlm.RestoreFrames

/-!
# Nothing is taken back

Whatever a record says, the decoder only adds to what it has done and only takes from
what is left of the stream. What it adds is done to paths that the name maker has given for
the name of a record that was read; an old path of a hard link it was given before
(`RestoreWriter.Onward`).
-/

namespace Ndmpd

open Foundation

/-! ## Names that have been made -/

/-- The name of the entry of a record: as the cases of regular files settle on it, or as the
others take it. -/
def RestoreWriter.RecordCall.HasName (call : RestoreWriter.RecordCall) (name : CString) : Prop :=
  name = (call.writer.regularName call.record).string ∨ name = call.writer.fileName call.record

/-- An entry of one of the records is restored under this name as part of the selection at
this position. -/
def RestoreArgs.Matches (args : RestoreArgs) (calls : List RestoreWriter.RecordCall) (pos : Nat)
    (name : CString) : Prop :=
  (∃ call ∈ calls, call.HasName name ∧
    (isFileWanted name args.sels args.exls args.flags call.writer.retry).found = true ∧
    (isFileWanted name args.sels args.exls args.flags call.writer.retry).pos = pos) ∨
  args.dar = true ∧ RestoreWriter.rsDarhlNewName args.sels = some (pos, name)

/-- A path that the name maker gives for the entry of a record. -/
def RestoreArgs.Makes (args : RestoreArgs) (calls : List RestoreWriter.RecordCall)
    (path : CString) : Prop :=
  ∃ pos name, args.Matches calls pos name ∧ args.newName pos name = some path

/-- A path for a wanted entry is one that the name maker gives. -/
theorem RestoreArgs.makes_of_wanted {args : RestoreArgs} {calls : List RestoreWriter.RecordCall}
    {call : RestoreWriter.RecordCall} (listed : call ∈ calls) {name path : CString}
    (named : call.HasName name)
    (made : (if (isFileWanted name args.sels args.exls args.flags call.writer.retry).found then
      args.newName (isFileWanted name args.sels args.exls args.flags call.writer.retry).pos name
      else none) = some path) : args.Makes calls path := by
  split at made
  · next found => exact ⟨_, name, .inl ⟨call, listed, named, found, rfl⟩, made⟩
  · cases made

/-- A path that a hard link can be made to. -/
def RestoreArgs.Links (args : RestoreArgs) (calls : List RestoreWriter.RecordCall)
    (hardlinkQ : HardlinkQ) (path : CString) : Prop :=
  args.Makes calls path ∨ ∃ node ∈ hardlinkQ, node.path = some path

/-- The paths of an operation are ones that the name maker has given. -/
def RestoreArgs.Names (args : RestoreArgs) (calls : List RestoreWriter.RecordCall)
    (hardlinkQ : HardlinkQ) : RestoreOp → Prop
  | .makeDirectory path _ => args.Makes calls path
  | .symbolicLink path _ _ => args.Makes calls path
  | .hardLink old path _ => args.Links calls hardlinkQ old ∧ args.Makes calls path
  | .makeFifo path _ => args.Makes calls path
  | .openFile path _ => args.Makes calls path
  | .write _ => True
  | .closeFile => True
  | .setAcl _ _ => True
  | .entryRestored _ _ => True

/-- The queue of a later state adds no path that could not be linked to. -/
theorem RestoreArgs.Names.of_links {args : RestoreArgs} {calls : List RestoreWriter.RecordCall}
    {first second : HardlinkQ}
    (links : ∀ path, args.Links calls second path → args.Links calls first path) {op : RestoreOp}
    (names : args.Names calls second op) : args.Names calls first op := by
  cases op with
  | hardLink old path done => exact ⟨links old names.1, names.2⟩
  | makeDirectory path done => exact names
  | symbolicLink path target done => exact names
  | makeFifo path done => exact names
  | openFile path done => exact names
  | write bytes => trivial
  | closeFile => trivial
  | setAcl path acls => trivial
  | entryRestored name pos => trivial

namespace RestoreWriter

/-! ## Going on -/

/-- Nothing has been taken back since `before`: what was done is done, and what was read
is read. -/
structure Onward (args : RestoreArgs) (calls : List RecordCall) (before after : RestoreWriter) :
    Prop where
  added : ∃ more, after.ops = before.ops ++ more ∧
    ∀ op ∈ more, args.Names calls before.hardlinkQ op
  left : after.available ≤ before.available
  links : ∀ path, args.Links calls after.hardlinkQ path → args.Links calls before.hardlinkQ path

namespace Onward

variable {args : RestoreArgs} {calls : List RecordCall}
  {writer first second third : RestoreWriter}

/-- Neither operations, nor the stream, nor the queue have changed. -/
theorem of_eq (ops : second.ops = first.ops) (blocks : second.blocks = first.blocks)
    (hardlinkQ : second.hardlinkQ = first.hardlinkQ) : Onward args calls first second := by
  refine ⟨⟨[], ?_, fun _ listed => by cases listed⟩, ?_, ?_⟩
  · rw [ops, List.append_nil]
  · unfold available
    rw [blocks]
  · rw [hardlinkQ]
    exact fun _ links => links

theorem refl (writer : RestoreWriter) : Onward args calls writer writer := of_eq rfl rfl rfl

/-- One part of the work after the other. -/
theorem trans (before : Onward args calls first second) (after : Onward args calls second third) :
    Onward args calls first third := by
  obtain ⟨more, ops, names⟩ := before.added
  obtain ⟨others, ops', names'⟩ := after.added
  refine ⟨⟨more ++ others, ?_, ?_⟩, Nat.le_trans after.left before.left, ?_⟩
  · rw [ops', ops, List.append_assoc]
  · intro op listed
    rcases List.mem_append.mp listed with listed | listed
    · exact names op listed
    · exact (names' op listed).of_links before.links
  · exact fun path links => before.links path (after.links path links)

/-- Only operations have been added. -/
theorem of_added (more : List RestoreOp) (names : ∀ op ∈ more, args.Names calls first.hardlinkQ op)
    (ops : second.ops = first.ops ++ more) (blocks : second.blocks = first.blocks)
    (hardlinkQ : second.hardlinkQ = first.hardlinkQ) : Onward args calls first second := by
  refine ⟨⟨more, ops, names⟩, ?_, ?_⟩
  · unfold available
    rw [blocks]
  · rw [hardlinkQ]
    exact fun _ links => links

/-- Whichever way a test of the decoder goes. -/
theorem ite {condition : Prop} [Decidable condition]
    (yes : condition → Onward args calls first second)
    (no : ¬ condition → Onward args calls first third) :
    Onward args calls first (if condition then second else third) := by
  by_cases holds : condition
  · rw [if_pos holds]
    exact yes holds
  · rw [if_neg holds]
    exact no holds

/-- An operation on paths that have been given. -/
theorem perform (before : Onward args calls first second) {op : RestoreOp}
    (names : args.Names calls second.hardlinkQ op) :
    Onward args calls first (second.perform op) := by
  refine before.trans (of_added [op] ?_ rfl rfl rfl)
  intro other listed
  rw [List.mem_singleton.mp listed]
  exact names

/-- An ACL is no path of its own. -/
theorem setOwnAcl (before : Onward args calls first second) (path : Option CString) :
    Onward args calls first (second.setOwnAcl path) := by
  refine before.trans (of_added [.setAcl path second.acls] ?_ rfl rfl rfl)
  intro op listed
  rw [List.mem_singleton.mp listed]
  trivial

/-- Directories that are popped get their ACLs, and no more. -/
theorem dtreePopUntil (before : Onward args calls first second) (path : CString) :
    Onward args calls first (second.dtreePopUntil path) := by
  refine before.trans (of_added _ ?_ rfl rfl rfl)
  intro op listed
  obtain ⟨entry, -, rfl⟩ := List.mem_map.mp listed
  trivial

theorem dtreePopAll (before : Onward args calls first second) :
    Onward args calls first second.dtreePopAll := by
  refine before.trans (of_added _ ?_ rfl rfl rfl)
  intro op listed
  obtain ⟨entry, -, rfl⟩ := List.mem_map.mp listed
  trivial

theorem dtreePush (before : Onward args calls first second) (path : CString) :
    Onward args calls first (second.dtreePush path) :=
  before.trans (of_eq rfl rfl rfl)

/-- A report is made to the client and touches no path. -/
theorem reportRestored (before : Onward args calls first second) (mchtype : MatchType)
    (name : CString)
    (pos : Nat) : Onward args calls first (second.reportRestored mchtype name pos) := by
  unfold RestoreWriter.reportRestored
  apply ite
  · intro _
    exact before.perform trivial
  · intro _
    exact before

theorem resetNames (before : Onward args calls first second) :
    Onward args calls first second.resetNames :=
  before.trans (of_eq rfl rfl rfl)

/-- A node for a path that has been made, or for none. -/
theorem hardlinkQAdd (before : Onward args calls first second) (inode : Nat) {path : Option CString}
    (makes : ∀ made, path = some made → args.Makes calls made) :
    Onward args calls first { second with
      hardlinkQ := second.hardlinkQ.hardlinkQAdd inode 0 path false } := by
  apply before.trans
  refine ⟨⟨[], (List.append_nil _).symm, fun _ listed => by cases listed⟩, Nat.le_refl _, ?_⟩
  rintro other (made | ⟨node, listed, holds⟩)
  · exact .inl made
  · dsimp only at listed
    unfold HardlinkQ.hardlinkQAdd at listed
    split at listed
    · exact .inr ⟨node, listed, holds⟩
    · rcases List.mem_cons.mp listed with rfl | listed
      · exact .inl (makes other holds)
      · exact .inr ⟨node, listed, holds⟩

/-! ### Reading -/

variable (args writer)

/-- A read takes records from the stream. -/
theorem getReadBuffer (want : Nat) : Onward args calls writer (writer.getReadBuffer want).2 := by
  have same := bytesOf_dropWhile writer.blocks
  unfold RestoreWriter.getReadBuffer
  split
  · exact refl writer
  · split
    · exact ⟨⟨[], (List.append_nil _).symm, fun _ listed => by cases listed⟩, Nat.zero_le _,
        fun _ links => links⟩
    · next block rest left =>
        rw [left] at same
        refine ⟨⟨[], (List.append_nil _).symm, fun _ listed => by cases listed⟩, ?_,
          fun _ links => links⟩
        rw [available_eq, available_eq, ← same]
        change (bytesOf (block.rest _ :: rest)).length ≤ _
        simp only [bytesOf, List.map_cons, List.flatten_cons, List.length_append, ReadBlock.rest,
          List.length_drop]
        omega

variable {writer} in
/-- The same, for a result that was looked at. -/
theorem of_read {want : Nat} {result : Option (List UInt8 × Int)}
    (read : writer.getReadBuffer want = (result, second)) : Onward args calls writer second := by
  have onward := @getReadBuffer args calls writer want
  rwa [read] at onward

/-- Reading into memory takes records from the stream. -/
theorem inputMemLoop (rounds : Nat) (mem : List UInt8) (toread : Nat) :
    Onward args calls writer (RestoreWriter.inputMemLoop rounds writer mem toread).2 := by
  induction rounds generalizing writer mem toread with
  | zero => exact refl writer
  | succ rounds ih =>
      unfold RestoreWriter.inputMemLoop
      split
      · exact refl writer
      · split
        · next read => exact (of_read args read).trans (of_eq rfl rfl rfl)
        · next read =>
            split
            · exact of_read args read
            · exact (of_read args read).trans (ih _ _ _)

variable {writer} in
theorem of_input {len : Int} {result : Option (List UInt8)}
    (read : writer.inputMem len = (result, second)) : Onward args calls writer second := by
  have onward := @inputMemLoop args calls writer len.toNat [] len.toNat
  change Onward args calls writer (writer.inputMem len).2 at onward
  rwa [read] at onward

/-- A name record is read and nothing is done. -/
theorem getLongName (recsize : Int) (name : CharArray tlmMaxPathName) (bufSpot : Nat) :
    Onward args calls writer (writer.getLongName recsize name bufSpot).1 := by
  unfold RestoreWriter.getLongName
  split
  · next read => exact (of_input args read).trans (of_eq rfl rfl rfl)
  · next read => exact (of_input args read).trans (of_eq rfl rfl rfl)

/-- The header of a huge file is read and nothing is done. -/
theorem getHumongusFileHeader (recsize : Int) :
    Onward args calls writer (writer.getHumongusFileHeader recsize) := by
  unfold RestoreWriter.getHumongusFileHeader
  dsimp only
  generalize (if recsize = 0 then (recordSize : Int) else recsize) = size
  split
  · next read => exact (of_input args read).trans (of_eq rfl rfl rfl)
  · next read =>
      split
      · exact (of_input args read).trans (of_eq rfl rfl rfl)
      · exact (of_input args read).trans (of_eq rfl rfl rfl)

/-- An ACL is read and kept for the entry behind it. -/
theorem loadAclInfo (fileSize : Int) : Onward args calls writer (writer.loadAclInfo fileSize) := by
  unfold RestoreWriter.loadAclInfo
  dsimp only
  split
  · next read => exact (of_input args read).trans (of_eq rfl rfl rfl)
  · next read => exact (of_input args read).trans (of_eq rfl rfl rfl)

/-! ### Files -/

variable {args} in
/-- A file is opened under the name that was made for it. -/
theorem openWanted {path : CString} (makes : args.Makes calls path) :
    Onward args calls writer (writer.openWanted args path).1 := by
  unfold RestoreWriter.openWanted
  split
  · refine of_added [.openFile path (writer.io.opened.head?.getD true)] ?_ rfl rfl rfl
    intro op listed
    rw [List.mem_singleton.mp listed]
    exact makes
  · exact refl writer

/-- A record is written to the file that is open. -/
theorem writeRecord (bytes : List UInt8) :
    Onward args calls writer (writer.writeRecord bytes).1 := by
  unfold RestoreWriter.writeRecord
  split
  · dsimp only
    split
    · exact of_eq rfl rfl rfl
    · apply perform
      · exact of_eq rfl rfl rfl
      · trivial
  · exact refl writer

/-- The data of a section is read record by record, and written or passed over. -/
theorem restoreLoop (rounds : Nat) (size : Int) (wanted : Bool) :
    Onward args calls writer (RestoreWriter.restoreLoop rounds writer size wanted) := by
  induction rounds generalizing writer size with
  | zero => exact refl writer
  | succ rounds ih =>
      unfold RestoreWriter.restoreLoop
      split
      · exact refl writer
      · split
        · next read => exact of_read args read
        · next read =>
            split
            · exact of_read args read
            · split
              · exact (of_read args read).trans ((writeRecord args _ _).trans (ih _ _))
              · exact (of_read args read).trans (ih _ _)

/-- A file that is complete is closed and gets its ACL. -/
theorem closeFinished (realName : Option CString) (left : Int) :
    Onward args calls writer (RestoreWriter.closeFinished realName left writer) := by
  unfold RestoreWriter.closeFinished
  apply ite
  · intro _
    apply setOwnAcl
    by_cases opened : writer.fp = .opened
    · rw [if_pos opened]
      have closed : Onward args calls writer (writer.perform .closeFile) := by
        apply perform (refl writer)
        trivial
      exact closed.trans (of_eq rfl rfl rfl)
    · rw [if_neg opened]
      exact of_eq rfl rfl rfl
  · intro _
    exact refl writer

variable {args} in
/-- A section of a regular file. -/
theorem restoreFile {realName : Option CString}
    (makes : ∀ path, realName = some path → args.Makes calls path)
    (size : Int) (wanted : Bool) :
    Onward args calls writer (writer.restoreFile args realName size wanted) := by
  cases realName with
  | none =>
      exact (restoreLoop args writer _ size false).trans (closeFinished args _ none _)
  | some path =>
      obtain ⟨opened, opens, onward⟩ : ∃ opened : RestoreWriter × Bool,
          (if writer.fp = .closed ∧ wanted then writer.openWanted args path
            else (writer, wanted)) = opened ∧ Onward args calls writer opened.1 := by
        split
        · exact ⟨_, rfl, openWanted writer (makes path rfl)⟩
        · exact ⟨_, rfl, refl writer⟩
      rw [restoreFile_some args size opens]
      exact onward.trans ((restoreLoop args _ _ size _).trans (closeFinished args _ _ _))

/-! ### Entries -/

variable {call : RecordCall} (listed : call ∈ calls)

include listed in
/-- A directory record, whether `mkdir` succeeds or not. -/
theorem restoreDirectory :
    Onward args calls call.writer (call.writer.restoreDirectory args call.record) := by
  unfold RestoreWriter.restoreDirectory
  dsimp only [fileWanted, nextMade]
  apply resetNames
  split
  · exact of_eq rfl rfl rfl
  · next path made =>
      have makes := RestoreArgs.makes_of_wanted listed (.inr rfl) made
      apply ite
      · intro _
        exact of_eq rfl rfl rfl
      · intro _
        apply dtreePush
        apply dtreePopUntil
        apply ite
        · intro _
          apply reportRestored
          apply perform
          · exact of_eq rfl rfl rfl
          · exact makes
        · intro _
          apply perform
          · exact of_eq rfl rfl rfl
          · exact makes

include listed in
/-- A record of a symbolic link. -/
theorem restoreSymlink :
    Onward args calls call.writer (call.writer.restoreSymlink args call.record) := by
  unfold RestoreWriter.restoreSymlink
  dsimp only [fileWanted, nextMade]
  apply resetNames
  split
  · exact of_eq rfl rfl rfl
  · next path made =>
      have makes := RestoreArgs.makes_of_wanted listed (.inr rfl) made
      apply ite
      · intro _
        apply reportRestored
        apply setOwnAcl
        apply perform
        · exact of_eq rfl rfl rfl
        · exact makes
      · intro _
        apply perform
        · exact of_eq rfl rfl rfl
        · exact makes

include listed in
/-- A record of a FIFO. -/
theorem restoreFifo :
    Onward args calls call.writer (call.writer.restoreFifo args call.record) := by
  unfold RestoreWriter.restoreFifo
  dsimp only [fileWanted]
  apply resetNames
  split
  · exact of_eq rfl rfl rfl
  · next path made =>
      apply reportRestored
      apply setOwnAcl
      apply perform
      · exact of_eq rfl rfl rfl
      · exact RestoreArgs.makes_of_wanted listed (.inr rfl) made

include listed in
/-- The place of a further link, as the name of the entry or the selections of a direct
access restore give it. -/
theorem makes_of_place {name path : CString} (named : call.HasName name) {pos : Nat}
    {other : CString}
    (place : (if (isFileWanted name args.sels args.exls args.flags call.writer.retry).found then
        some ((isFileWanted name args.sels args.exls args.flags call.writer.retry).pos, name)
      else if args.dar then rsDarhlNewName args.sels else none) = some (pos, other))
    (made : args.newName pos other = some path) : args.Makes calls path := by
  split at place
  · next found =>
      cases place
      exact ⟨_, _, .inl ⟨call, listed, named, found, rfl⟩, made⟩
  · split at place
    · next dar => exact ⟨pos, other, .inr ⟨dar, place⟩, made⟩
    · cases place

variable {args} in
include listed in
/-- A further link to an inode that was restored before. -/
theorem restoreHardLink {target : Option CString}
    (links : ∀ old, target = some old → args.Links calls call.writer.hardlinkQ old) :
    Onward args calls call.writer (call.writer.restoreHardLink args target call.record) := by
  unfold RestoreWriter.restoreHardLink
  dsimp only [fileWanted]
  apply resetNames
  split
  · exact of_eq rfl rfl rfl
  · next pos name place =>
      split
      · next path old made =>
          have makes := makes_of_place args listed (.inr rfl) place made
          dsimp only [nextMade]
          apply ite
          · intro _
            apply perform
            · apply setOwnAcl
              apply perform
              · exact of_eq rfl rfl rfl
              · exact ⟨links old rfl, makes⟩
            · trivial
          · intro _
            apply perform
            · exact of_eq rfl rfl rfl
            · exact ⟨links old rfl, makes⟩
      · exact of_eq rfl rfl rfl

/-- The end of a regular file, with the report and the node in the queue. -/
theorem finishRegular (fileSize : Int) (hardlink : Option Nat) (wanted : Wanted)
    {path : Option CString} (makes : ∀ made, path = some made → args.Makes calls made) :
    Onward args calls writer (writer.finishRegular args fileSize hardlink wanted path) := by
  unfold RestoreWriter.finishRegular
  dsimp only
  apply ite
  · intro _
    have reported : Onward args calls writer (RestoreWriter.reportRestored
        { writer with hugeSize := max 0 (writer.hugeSize - fileSize), sizeLeft := 0 }
        wanted.mchtype writer.longname.string wanted.pos) := by
      apply reportRestored
      exact of_eq rfl rfl rfl
    cases hardlink with
    | none => exact reported.trans (of_eq rfl rfl rfl)
    | some inode =>
        dsimp only
        split
        · exact (reported.hardlinkQAdd inode makes).trans (of_eq rfl rfl rfl)
        · exact reported.trans (of_eq rfl rfl rfl)
  · intro _
    exact of_eq rfl rfl rfl

/-- Behind a section, the directories that are left get their ACLs and the section is finished. -/
theorem afterSection (fileSize : Int) (hardlink : Option Nat) (wanted : Wanted)
    {path : Option CString} (makes : ∀ made, path = some made → args.Makes calls made) :
    Onward args calls writer
      (RestoreWriter.afterSection args fileSize hardlink wanted path writer) := by
  cases path with
  | none => exact finishRegular args writer fileSize hardlink wanted makes
  | some path =>
      exact ((refl writer).dtreePopUntil path).trans
        (finishRegular args _ fileSize hardlink wanted makes)

include listed in
/-- A record of a regular file, with its data. -/
theorem restoreRegular (fileSize : Int) (hardlink : Option Nat) :
    Onward args calls call.writer
      (call.writer.restoreRegular args fileSize hardlink call.record) := by
  obtain ⟨name, named⟩ : ∃ name, (call.writer.regularName call.record).string = name := ⟨_, rfl⟩
  obtain ⟨wanted, found⟩ : ∃ wanted,
    isFileWanted name args.sels args.exls args.flags call.writer.retry = wanted := ⟨_, rfl⟩
  obtain ⟨path, made⟩ : ∃ path,
    (if wanted.found then args.newName wanted.pos name else none) = path := ⟨_, rfl⟩
  have makes : ∀ given, path = some given → args.Makes calls given := by
    intro given isGiven
    rw [isGiven, ← found] at made
    exact RestoreArgs.makes_of_wanted listed (.inl named.symm) made
  have begun : Onward args calls call.writer { call.writer with
      longname := call.writer.regularName call.record, retry := wanted.retry } :=
    of_eq rfl rfl rfl
  have restored := begun.trans
    (restoreFile _ makes fileSize (wanted.found && path.isSome))
  cases hardlink with
  | none =>
      have shape : call.writer.restoreRegular args fileSize none call.record =
          RestoreWriter.afterSection args fileSize none wanted path (({ call.writer with
            longname := call.writer.regularName call.record, retry := wanted.retry } :
              RestoreWriter).restoreFile args path fileSize (wanted.found && path.isSome)) := by
        subst named found made
        rfl
      rw [shape]
      exact restored.trans (afterSection args _ fileSize none wanted makes)
  | some inode =>
      have shape : call.writer.restoreRegular args fileSize (some inode) call.record =
          let restored := ({ call.writer with
              longname := call.writer.regularName call.record, retry := wanted.retry } :
                RestoreWriter).restoreFile args path fileSize (wanted.found && path.isSome)
          RestoreWriter.afterSection args fileSize (some inode) wanted path
            (if args.dar then restored
            else { restored with
              hardlinkQ := restored.hardlinkQ.hardlinkQAdd inode 0 path false }) := by
        subst named found made
        rfl
      rw [shape]
      dsimp only
      split
      · exact restored.trans (afterSection args _ fileSize (some inode) wanted makes)
      · exact (restored.hardlinkQAdd inode makes).trans
          (afterSection args _ fileSize (some inode) wanted makes)

include listed in
/-- A record of a hard link, with its data if it has some. -/
theorem restoreLink (fileSize : Int) :
    Onward args calls call.writer (call.writer.restoreLink args fileSize call.record) := by
  unfold RestoreWriter.restoreLink
  dsimp only
  split
  · next node seen =>
      apply restoreHardLink listed
      intro old holds
      split at seen
      · cases seen
      · exact .inr ⟨node, List.mem_of_find?_eq_some seen, holds⟩
  · apply ite
    · intro _
      exact refl call.writer
    · intro _
      exact restoreRegular args listed fileSize _

include listed in
/-- A record of any type. -/
theorem restoreRecord : Onward args calls call.writer
    (call.writer.restoreRecord args call.linkflag call.fileSize call.record) := by
  unfold RestoreWriter.restoreRecord
  dsimp only
  apply ite
  · intro _
    exact of_eq rfl rfl rfl
  intro _
  apply ite
  · intro _
    exact restoreLink args listed call.fileSize
  intro _
  apply ite
  · intro _
    apply ite
    · intro _
      exact refl call.writer
    · intro _
      exact restoreRegular args listed call.fileSize none
  intro _
  apply ite
  · intro _
    exact restoreRegular args listed call.fileSize none
  intro _
  apply ite
  · intro _
    exact restoreSymlink args listed
  intro _
  apply ite
  · intro _
    exact restoreDirectory args listed
  intro _
  apply ite
  · intro _
    exact restoreFifo args listed
  intro _
  apply ite
  · intro _
    exact (getLongName args call.writer _ call.writer.longlink call.writer.lnkEnd).trans
      (of_eq rfl rfl rfl)
  intro _
  apply ite
  · intro _
    exact (getLongName args call.writer _ call.writer.longname call.writer.nmEnd).trans
      (of_eq rfl rfl rfl)
  intro _
  apply ite
  · intro _
    exact loadAclInfo args call.writer call.fileSize
  intro _
  apply ite
  · intro _
    exact getHumongusFileHeader args call.writer call.fileSize
  · intro _
    exact refl call.writer

/-- Up to the `switch`, records are taken and nothing is done. -/
theorem nextRecord {call : RecordCall} (next : writer.nextRecord = some call) :
    Onward args calls writer call.writer := by
  unfold RestoreWriter.nextRecord at next
  split at next
  · cases next
    exact of_eq rfl rfl rfl
  · split at next
    · cases next
    · next read =>
        have taken := @of_read args calls _ _ _ _ read
        dsimp only at next
        split at next
        · cases next
        · split at next
          · cases next
            exact taken
          · cases next
            exact taken.trans (of_eq rfl rfl rfl)

/-- A round without a record. -/
theorem tarGetdirStep_of_none (none_ : writer.nextRecord = none) :
    Onward args calls writer (writer.tarGetdirStep args) := by
  unfold RestoreWriter.nextRecord at none_
  unfold RestoreWriter.tarGetdirStep
  split
  · next multi =>
      rw [if_pos multi] at none_
      cases none_
  · next single =>
      rw [if_neg single] at none_
      split
      · next read => exact (of_read args read).trans (of_eq rfl rfl rfl)
      · next read =>
          rw [read] at none_
          dsimp only at none_
          split
          · exact of_read args read
          · next good =>
              rw [if_neg good] at none_
              split at none_ <;> cases none_

/-- One round of `tar_getdir`: a record, or what is behind the last one. -/
theorem tarGetdirStep (inside : writer.nextRecord.toList ⊆ calls) :
    Onward args calls writer (writer.tarGetdirStep args) := by
  cases next : writer.nextRecord with
  | none => exact tarGetdirStep_of_none args writer next
  | some call =>
      have listed : call ∈ calls := inside (by simp [next])
      rw [tarGetdirStep_of_record next]
      exact (nextRecord args writer next).trans (restoreRecord args listed)

/-- By induction, any number of rounds. -/
theorem tarGetdirLoop (rounds : Nat) (inside : runRecords args rounds writer ⊆ calls) :
    Onward args calls writer (RestoreWriter.tarGetdirLoop args rounds writer) := by
  induction rounds generalizing writer with
  | zero => exact refl writer
  | succ rounds ih =>
      unfold RestoreWriter.tarGetdirLoop
      unfold runRecords at inside
      split
      · exact refl writer
      · next running =>
          rw [if_neg running] at inside
          obtain ⟨here, later⟩ := List.append_subset.mp inside
          exact (tarGetdirStep args writer here).trans (ih _ later)

/-- At the end the open file is closed and the directories get their ACLs. -/
theorem tearDown : Onward args calls writer writer.tearDown := by
  unfold RestoreWriter.tearDown
  dsimp only
  apply dtreePopAll
  have stopped :
      Onward args calls writer
        (if writer.tcWriterStop then { writer with rv := 0 } else writer) := by
    apply ite
    · intro _
      exact of_eq rfl rfl rfl
    · intro _
      exact refl writer
  generalize (if writer.tcWriterStop then { writer with rv := 0 } else writer) = next at stopped
  by_cases opened : next.fp = .opened
  · rw [if_pos opened]
    have closed : Onward args calls writer (next.perform .closeFile) := by
      apply perform stopped
      trivial
    exact closed.trans (of_eq rfl rfl rfl)
  · rw [if_neg opened]
    exact stopped.trans (of_eq rfl rfl rfl)

end Onward

/-- Every path that a restore puts something at is one that the name maker has given for the
name of a record it has read, and it links to what it has put there or to what the queue
held. -/
theorem tarGetdir_names (args : RestoreArgs) (blocks : List ReadBlock) (hardlinkQ : HardlinkQ)
    (io : RestoreIo) (rounds : Nat) :
    ∀ op ∈ (tarGetdir args blocks hardlinkQ io rounds).ops,
      args.Names (runRecords args rounds (start args blocks hardlinkQ io)) hardlinkQ op := by
  have onward := (Onward.tarGetdirLoop args (start args blocks hardlinkQ io) rounds
    (List.Subset.refl _)).trans (Onward.tearDown args _)
  obtain ⟨more, ops, names⟩ := onward.added
  intro op listed
  unfold tarGetdir at listed
  rw [ops] at listed
  exact names op listed

end RestoreWriter

end Ndmpd
