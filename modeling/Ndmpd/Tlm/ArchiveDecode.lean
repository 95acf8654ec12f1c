import Ndmpd.Tlm.ArchiveView

/-!
# Decoding entries

A restore of everything to an empty place makes each entry of an archive under its own
name (`RestoresAll`). For each kind of entry there is a lemma that says what the decoder
makes of its headers and its data, from one state between entries to the next.
-/

namespace Ndmpd

open Foundation

/-- A path name as a backup uses it. -/
structure AbsolutePath (name : CString) : Prop where
  nulFree : NulFree name
  absolute : name.head? = some slash
  short : name.length < pathMax

theorem AbsolutePath.nonempty {name : CString} (path : AbsolutePath name) : name ≠ [] := by
  intro none
  have absolute := path.absolute
  rw [none] at absolute
  cases absolute

/-- The inode number that a decoder reads off the header of a link. -/
def printedIno (stIno : Nat) : Nat := (toInt32 (stIno % 2 ^ 32) % 2 ^ 64).toNat

theorem EntryHeader.printedIno {tarHdr : TlmTarHdr} {size ino : Nat} {name link : CString}
    (header : EntryHeader tarHdr lfLink size ino name link) :
    (octAtoi (tarHdr.record.drop thHlinkInoAt) % 2 ^ 64).toNat = printedIno ino := by
  rw [header.inode]
  rfl

/-- The link flags of a file with data, and the inode that the file is kept under when it has
been restored. A link is restored as a file if the decoder has not met its inode, or reads it
as 0. -/
inductive AsFile (hardlinkQ : HardlinkQ) (ino : Nat) : UInt8 → Option Nat → Prop where
  | normal : AsFile hardlinkQ ino lfNormal none
  | link : (printedIno ino ≠ 0 → hardlinkQ.hardlinkQGet (printedIno ino) = none) →
      AsFile hardlinkQ ino lfLink (some (printedIno ino))

/-- A restore of everything, under its own names and to an empty place. -/
structure RestoresAll (args : RestoreArgs) : Prop where
  all : args.sels = []
  named : ∀ name, args.newName 0 name = some name
  absent : ∀ path, args.existing path = none

namespace DecoderView

/-- A file of which some contents have been written, or which is still to be opened. -/
inductive Writing (view : DecoderView) (path : CString) (entries : List ArchiveEntry) :
    List UInt8 → Prop where
  | unopened : view.fp = .closed → view.restored = ⟨entries, none⟩ → Writing view path entries []
  | opened {contents : List UInt8} : view.fp = .opened →
      view.restored = ⟨entries, some (path, contents)⟩ → Writing view path entries contents

/-- The view with a file open. -/
def writing (view : DecoderView) (path : CString) (entries : List ArchiveEntry)
    (contents : List UInt8) : DecoderView :=
  { view with fp := .opened, restored := ⟨entries, some (path, contents)⟩ }

/-- The view with a file written to its end. -/
def written (view : DecoderView) (path : CString) (entries : List ArchiveEntry)
    (contents : List UInt8) : DecoderView :=
  { view with fp := .closed, restored := ⟨entries ++ [.regularFile path contents], none⟩ }

/-- The view after a part of a file, in front of its next part. -/
def sectionDone (view : DecoderView) (size : Nat) : DecoderView :=
  { view with hugeSize := view.hugeSize - size }

/-- The view after the last part of a file. -/
def fileDone (view : DecoderView) : DecoderView :=
  { view.unnamed with hugeSize := 0, hugename := [] }

/-- The view with a name in the long name's buffer. -/
def naming (view : DecoderView) (name : CString) : DecoderView :=
  { view with longname := some name }

/-- The view with another queue of hard links. -/
def linking (view : DecoderView) (hardlinkQ : HardlinkQ) : DecoderView :=
  { view with hardlinkQ := hardlinkQ }

/-- The queue after a file with the inode `hardlink` was restored. -/
def linked (dar : Bool) (hardlink : Option Nat) (path : CString) (hardlinkQ : HardlinkQ) :
    HardlinkQ :=
  match hardlink with
  | some inode => if dar then hardlinkQ else hardlinkQ.hardlinkQAdd inode 0 (some path) false
  | none => hardlinkQ

/-- The view in front of the header of an entry, with the names that do not fit it. -/
def entry (left : List UInt8) (hardlinkQ : HardlinkQ) (entries : List ArchiveEntry)
    (name link : CString) : DecoderView :=
  ((between left hardlinkQ entries).takeName name).takeLink link

variable {left rest : List UInt8} {hardlinkQ : HardlinkQ} {entries : List ArchiveEntry}
  {name link : CString}

theorem entry_longname : (entry left hardlinkQ entries name link).longname =
    some (if tlmNameSize ≤ name.length then name else []) := by
  unfold entry takeName takeLink
  by_cases long : tlmNameSize ≤ name.length
  · rw [if_pos long, if_pos long]
    split
    · rfl
    · rfl
  · rw [if_neg long, if_neg long]
    split
    · rfl
    · rfl

theorem entry_longlink : (entry left hardlinkQ entries name link).longlink =
    if tlmNameSize ≤ link.length then link else [] := by
  unfold entry takeName takeLink
  by_cases long : tlmNameSize ≤ link.length
  · rw [if_pos long, if_pos long]
  · rw [if_neg long, if_neg long]
    split
    · rfl
    · rfl

/-- Once an entry that one operation restores has used up its names, the view is one
between entries. -/
theorem entry_used {op : RestoreOp} {later : List ArchiveEntry}
    (makes : Restored.apply ⟨entries, none⟩ op = ⟨later, none⟩) :
    (((entry left hardlinkQ entries name link).leaving rest).after op).unnamed =
      between rest hardlinkQ later := by
  unfold between
  rw [← makes]
  unfold entry takeName takeLink
  split
  · split
    · rfl
    · rfl
  · split
    · rfl
    · rfl

theorem entry_left : (entry left hardlinkQ entries name link).left = left := by
  unfold entry takeName takeLink
  split
  · split
    · rfl
    · rfl
  · split
    · rfl
    · rfl

theorem entry_restored : (entry left hardlinkQ entries name link).restored = ⟨entries, none⟩ := by
  unfold entry takeName takeLink
  split
  · split
    · rfl
    · rfl
  · split
    · rfl
    · rfl

theorem entry_hardlinkQ : (entry left hardlinkQ entries name link).hardlinkQ = hardlinkQ := by
  unfold entry takeName takeLink
  split
  · split
    · rfl
    · rfl
  · split
    · rfl
    · rfl

end DecoderView

namespace Sees

variable {args : RestoreArgs} {writer : RestoreWriter} {left rest : List UInt8}
  {hardlinkQ : HardlinkQ} {entries : List ArchiveEntry} {tarHdr : TlmTarHdr} {linkflag : UInt8}
  {size ino : Nat} {name link : CString}

/-- The name of an entry is found in its header or before it. -/
theorem fileName_entry
    (sees : Sees ((DecoderView.entry left hardlinkQ entries name link).leaving rest) writer)
    (header : EntryHeader tarHdr linkflag size ino name link) (path : AbsolutePath name) :
    writer.fileName tarHdr.record = name := by
  have longname := sees.longname _ (Option.mem_def.mpr DecoderView.entry_longname)
  unfold RestoreWriter.fileName
  rw [longname]
  by_cases long : tlmNameSize ≤ name.length
  · rw [if_pos long, if_neg path.nonempty]
  · rw [if_neg long, if_pos rfl]
    exact header.cstring_name path.nulFree (by omega)

/-- So is the link target of an entry. -/
theorem linkName_entry
    (sees : Sees ((DecoderView.entry left hardlinkQ entries name link).leaving rest) writer)
    (header : EntryHeader tarHdr linkflag size ino name link) (linkFree : NulFree link) :
    writer.linkName tarHdr.record = link := by
  have longlink : writer.longlink.string = if tlmNameSize ≤ link.length then link else [] :=
    sees.longlink.trans DecoderView.entry_longlink
  unfold RestoreWriter.linkName
  rw [longlink]
  by_cases long : tlmNameSize ≤ link.length
  · have nonempty : link ≠ [] := by
      intro none
      rw [none] at long
      exact absurd long (by decide)
    rw [if_pos long, if_neg nonempty]
  · rw [if_neg long, if_pos rfl]
    exact header.cstring_link linkFree (by omega)

/-- Everything is wanted, and as nothing in particular. -/
theorem fileWanted_all (all : RestoresAll args) (writer : RestoreWriter) (name : CString) :
    writer.fileWanted args name = (⟨true, .none, 0, writer.retry⟩, writer) := by
  unfold RestoreWriter.fileWanted
  rw [all.all, isFileWanted_all]

theorem restoreDirectory_eq {view : DecoderView} (all : RestoresAll args)
    (sees : Sees view writer) {record : List UInt8} (named : writer.fileName record = name) :
    writer.restoreDirectory args record =
      (((writer.perform (.makeDirectory name true)).dtreePopUntil name).dtreePush
        name).resetNames := by
  unfold RestoreWriter.restoreDirectory
  dsimp only
  rw [named, fileWanted_all all]
  dsimp only
  rw [if_pos rfl, all.named]
  dsimp only
  rw [if_neg (by decide), sees.createDirectory, sees.nextMade]
  rfl

theorem restoreSymlink_eq {view : DecoderView} (all : RestoresAll args)
    (sees : Sees view writer) {record : List UInt8} (named : writer.fileName record = name)
    (linked : writer.linkName record = link) :
    writer.restoreSymlink args record =
      ((writer.perform (.symbolicLink name link true)).setOwnAcl (some name)).resetNames := by
  unfold RestoreWriter.restoreSymlink
  dsimp only
  rw [named, linked, fileWanted_all all]
  dsimp only
  rw [if_pos rfl, all.named]
  dsimp only
  rw [sees.nextMade]
  rfl

theorem restoreFifo_eq (all : RestoresAll args) {record : List UInt8}
    (named : writer.fileName record = name) :
    writer.restoreFifo args record =
      ((writer.perform (.makeFifo name (args.mknod (Restored.of writer.ops).entries
        name))).setOwnAcl (some name)).resetNames := by
  unfold RestoreWriter.restoreFifo
  dsimp only
  rw [named, fileWanted_all all]
  dsimp only
  rw [if_pos rfl, all.named]
  rfl

theorem restoreHardLink_eq {view : DecoderView} (all : RestoresAll args)
    (sees : Sees view writer) {record : List UInt8} (named : writer.fileName record = name)
    (old : CString) :
    writer.restoreHardLink args (some old) record =
      (((writer.perform (.hardLink old name true)).setOwnAcl (some name)).perform
        (.entryRestored name 0)).resetNames := by
  unfold RestoreWriter.restoreHardLink
  dsimp only
  rw [named, fileWanted_all all]
  dsimp only
  rw [if_pos rfl]
  dsimp only
  rw [all.named]
  dsimp only
  rw [sees.nextMade]
  rfl

/-- The header of a directory. -/
theorem directory_step (all : RestoresAll args)
    (sees : Sees (.entry (tarHdr.record ++ rest) hardlinkQ entries name []) writer)
    (header : EntryHeader tarHdr lfDir size ino name []) (path : AbsolutePath name) :
    Sees (.between rest hardlinkQ (entries ++ [.directory name])) (writer.tarGetdirStep args) := by
  obtain ⟨reading, seen, step⟩ := @Sees.header _ writer args sees tarHdr lfDir rest header.checksum
    header.thLinkflag (by decide) (by decide) DecoderView.entry_left
  rw [step]
  change Sees _ (reading.restoreDirectory args tarHdr.record)
  rw [restoreDirectory_eq all seen (seen.fileName_entry header path)]
  have made := (((seen.perform (.makeDirectory name true)).dtreePopUntil name).dtreePush
    name).resetNames
  rwa [DecoderView.entry_used rfl] at made

/-- The header of a symbolic link. -/
theorem symlink_step (all : RestoresAll args)
    (sees : Sees (.entry (tarHdr.record ++ rest) hardlinkQ entries name link) writer)
    (header : EntryHeader tarHdr lfSymlink size ino name link) (path : AbsolutePath name)
    (linkFree : NulFree link) :
    Sees (.between rest hardlinkQ (entries ++ [.symbolicLink name link]))
      (writer.tarGetdirStep args) := by
  obtain ⟨reading, seen, step⟩ := @Sees.header _ writer args sees tarHdr lfSymlink rest
    header.checksum header.thLinkflag (by decide) (by decide) DecoderView.entry_left
  rw [step]
  change Sees _ (reading.restoreSymlink args tarHdr.record)
  rw [restoreSymlink_eq all seen (seen.fileName_entry header path)
    (seen.linkName_entry header linkFree)]
  have made := ((seen.perform (.symbolicLink name link true)).setOwnAcl (some name)).resetNames
  rwa [DecoderView.entry_used rfl] at made

/-- The header of a FIFO. It is passed over if `mknod(2)` fails. -/
theorem fifo_step (all : RestoresAll args)
    (sees : Sees (.entry (tarHdr.record ++ rest) hardlinkQ entries name []) writer)
    (header : EntryHeader tarHdr lfFifo size ino name []) (path : AbsolutePath name) :
    Sees (.between rest hardlinkQ
        (if args.mknod entries name then entries ++ [.fifo name] else entries))
      (writer.tarGetdirStep args) := by
  obtain ⟨reading, seen, step⟩ := @Sees.header _ writer args sees tarHdr lfFifo rest
    header.checksum header.thLinkflag (by decide) (by decide) DecoderView.entry_left
  have before : (Restored.of reading.ops).entries = entries :=
    congrArg Restored.entries (seen.restored.trans DecoderView.entry_restored)
  rw [step]
  change Sees _ (reading.restoreFifo args tarHdr.record)
  rw [restoreFifo_eq all (seen.fileName_entry header path), before]
  have made := ((seen.perform (.makeFifo name (args.mknod entries name))).setOwnAcl
    (some name)).resetNames
  cases done : args.mknod entries name with
  | true =>
      rw [done, DecoderView.entry_used rfl] at made
      rwa [if_pos rfl]
  | false =>
      rw [done, DecoderView.entry_used rfl] at made
      rwa [if_neg (by decide)]

/-- The header of another name of a file that was restored to `old`. The data that its size
speaks of are not there. -/
theorem hardLink_step (all : RestoresAll args)
    (sees : Sees (.entry (tarHdr.record ++ rest) hardlinkQ entries name []) writer)
    (header : EntryHeader tarHdr lfLink size ino name []) (path : AbsolutePath name)
    (counted : printedIno ino ≠ 0) {node : HardlinkNode} {old : CString}
    (found : hardlinkQ.hardlinkQGet (printedIno ino) = some node) (target : node.path = some old) :
    Sees (.between rest hardlinkQ (entries ++ [.hardLink name old]))
      (writer.tarGetdirStep args) := by
  obtain ⟨reading, seen, step⟩ := @Sees.header _ writer args sees tarHdr lfLink rest
    header.checksum header.thLinkflag (by decide) (by decide) DecoderView.entry_left
  have queue : reading.hardlinkQ = hardlinkQ := seen.hardlinkQ.trans DecoderView.entry_hardlinkQ
  rw [step]
  change Sees _ (reading.restoreLink args _ tarHdr.record)
  unfold RestoreWriter.restoreLink
  dsimp only
  rw [header.printedIno, if_neg counted, queue, found]
  dsimp only
  rw [target, restoreHardLink_eq all seen (seen.fileName_entry header path)]
  have made := (((seen.perform (.hardLink old name true)).setOwnAcl (some name)).perform
    (.entryRestored name 0)).resetNames
  change Sees (((DecoderView.entry _ hardlinkQ entries name []).leaving rest).after
    (.hardLink old name true)).unnamed _ at made
  rwa [DecoderView.entry_used rfl] at made

/-! ## Regular files -/

variable {view : DecoderView} {contents data pad : List UInt8} {hardlink : Option Nat}

/-- A file that is not there is opened. -/
theorem openWanted (all : RestoresAll args) (sees : Sees view writer)
    (restored : view.restored = ⟨entries, none⟩) (path : CString) :
    ∃ opened, writer.openWanted args path = (opened, true) ∧ opened.fp = .opened ∧
      Sees (view.writing path entries []) opened := by
  have scripts := sees.scripts
  have absent : RestoreWriter.replaces args writer.acls path = true := by
    unfold RestoreWriter.replaces
    rw [all.absent]
  unfold RestoreWriter.openWanted
  rw [if_pos absent, scripts]
  refine ⟨_, rfl, rfl, ?_⟩
  have opening : Restored.of (writer.ops ++ [.openFile path true]) =
      ⟨entries, some (path, [])⟩ := by
    rw [Restored.of_concat, sees.restored, restored]
    rfl
  exact { sees with scripts := rfl, fp := rfl, restored := opening }

theorem restoreLoop (sees : Sees (view.writing name entries contents) writer)
    (left : view.left = data ++ (pad ++ rest))
    (padded : data.length + pad.length = roundToRecords data.length)
    (ordinary : data.length < 2 ^ 31) {rounds : Nat} (enough : data.length ≤ rounds) :
    Sees ((view.leaving rest).writing name entries (contents ++ data))
      (RestoreWriter.restoreLoop rounds writer data.length true) := by
  obtain ⟨blocks, pieces, loop, all, bytes, whole⟩ := RestoreWriter.restoreLoop_eq rounds writer
    sees.running sees.whole sees.fp sees.scripts data pad rest (sees.left.trans left) padded
    ordinary enough
  rw [loop]
  have restored := Restored.of_append_writes writer.ops pieces sees.restored
  rw [all] at restored
  exact { sees with whole := whole, left := bytes, restored := restored }

/-- A round of the loop is enough for every byte that is left. -/
theorem length_le_available (sees : Sees view writer)
    (left : view.left = data ++ (pad ++ rest)) : data.length ≤ writer.available + 1 := by
  have total : writer.available = (RestoreWriter.bytesOf writer.blocks).length := by
    unfold RestoreWriter.available RestoreWriter.bytesOf
    rw [List.length_flatten, List.map_map]
    rfl
  rw [total, sees.left, left, List.length_append]
  omega

/-- `restore_file` writes a part of a file and closes the file behind its last part. -/
theorem restoreFile (all : RestoresAll args) (sees : Sees view writer)
    (current : view.Writing name entries contents) (left : view.left = data ++ (pad ++ rest))
    (padded : data.length + pad.length = roundToRecords data.length)
    (ordinary : data.length < 2 ^ 31) :
    Sees (if view.hugeSize - data.length ≤ 0 then
        (view.leaving rest).written name entries (contents ++ data)
      else (view.leaving rest).writing name entries (contents ++ data))
      (writer.restoreFile args (some name) data.length true) := by
  obtain ⟨opened, opening, seen⟩ : ∃ opened, (if writer.fp = .closed ∧ true then
      writer.openWanted args name else (writer, true)) = (opened, true) ∧
        Sees (view.writing name entries contents) opened := by
    cases current with
    | unopened closed restored =>
        obtain ⟨opened, opening, -, seen⟩ := openWanted all sees restored name
        rw [if_pos ⟨sees.fp.trans closed, rfl⟩]
        exact ⟨opened, opening, seen⟩
    | opened open_ restored =>
        have fp : writer.fp = .opened := sees.fp.trans open_
        have notClosed : ¬ (writer.fp = .closed ∧ true) := by
          rw [fp]
          rintro ⟨closed, -⟩
          cases closed
        rw [if_neg notClosed]
        exact ⟨writer, rfl, { sees with fp := fp, restored := sees.restored.trans restored }⟩
  have looped := seen.restoreLoop left padded ordinary (seen.length_le_available left)
  unfold RestoreWriter.restoreFile
  dsimp only
  rw [opening]
  dsimp only
  generalize RestoreWriter.restoreLoop (opened.available + 1) opened data.length true = last
    at looped ⊢
  have fp : last.fp = .opened := looped.fp
  rw [sees.hugeSize]
  by_cases ended : view.hugeSize - data.length ≤ 0
  · have closes : last.fp ≠ .closed ∧ view.hugeSize - data.length ≤ 0 := by
      refine ⟨?_, ended⟩
      rw [fp]
      decide
    rw [if_pos ended, if_pos closes, if_pos fp]
    have closed := looped.perform .closeFile
    have seen : Sees ((view.leaving rest).written name entries (contents ++ data))
        { last.perform .closeFile with fp := .closed } := { closed with fp := rfl }
    exact seen.setOwnAcl (some name)
  · rw [if_neg ended, if_neg (fun closes => ended closes.2)]
    exact looped

/-- What follows a part of a file that is not the last one. -/
theorem finishRegular_section (sees : Sees view writer) {wanted : Wanted} {path : Option CString}
    {size : Nat} (more : 0 < view.hugeSize - size) :
    Sees (view.sectionDone size) (writer.finishRegular args size hardlink wanted path) := by
  have hugeSize : max 0 (writer.hugeSize - size) = view.hugeSize - size := by
    rw [sees.hugeSize]
    omega
  unfold RestoreWriter.finishRegular
  dsimp only
  rw [hugeSize, if_neg (by omega)]
  exact { sees with hugeSize := rfl }

/-- What follows the last part of a file that was not selected by itself. -/
theorem finishRegular_last (sees : Sees view writer) {retry : CString} {path : Option CString}
    {size : Nat} (ended : view.hugeSize - size ≤ 0) :
    Sees view.fileDone (writer.finishRegular args size hardlink ⟨true, .none, 0, retry⟩ path) := by
  have hugeSize : max 0 (writer.hugeSize - size) = 0 := by
    rw [sees.hugeSize]
    omega
  have unreported : ¬ (MatchType.none.exactOrChild = true ∧ args.dar = true) := by
    rintro ⟨reported, -⟩
    cases reported
  have unnamed := sees.resetNames
  have cleared := @CharArray.string_write_nul _ writer.hugename (by decide)
  unfold RestoreWriter.finishRegular
  dsimp only
  rw [hugeSize, if_pos rfl]
  cases hardlink with
  | none => exact { unnamed with hugename := cleared, hugeSize := rfl }
  | some inode =>
      dsimp only
      rw [if_neg unreported]
      exact { unnamed with hugename := cleared, hugeSize := rfl }

/-- The cases of regular files: a part of the file that the view is at is restored. -/
theorem restoreRegular (all : RestoresAll args) (sees : Sees view writer) {record : List UInt8}
    (named : (writer.regularName record).string = name)
    (current : view.Writing name entries contents) (left : view.left = data ++ (pad ++ rest))
    (padded : data.length + pad.length = roundToRecords data.length)
    (ordinary : data.length < 2 ^ 31) :
    Sees (if view.hugeSize - data.length ≤ 0 then
        (((view.leaving rest).written name entries (contents ++ data)).fileDone).linking
          (DecoderView.linked args.dar hardlink name view.hardlinkQ)
      else
        ((((view.leaving rest).writing name entries (contents ++ data)).naming name).sectionDone
          data.length).linking (DecoderView.linked args.dar hardlink name view.hardlinkQ))
      (writer.restoreRegular args data.length hardlink record) := by
  have naming : ∀ text ∈ some name, (writer.regularName record).string = text := by
    intro text listed
    rw [named, Option.some.inj listed]
  have start : Sees (view.naming name) { writer with longname := writer.regularName record } :=
    { sees with longname := naming }
  have current_ : (view.naming name).Writing name entries contents := by
    cases current with
    | unopened closed restored => exact .unopened closed restored
    | opened open_ restored => exact .opened open_ restored
  have part := @Sees.restoreFile args _ rest entries name (view.naming name) contents data pad all
    start current_ left padded ordinary
  unfold RestoreWriter.restoreRegular
  dsimp only
  rw [named, fileWanted_all all]
  dsimp only
  rw [if_pos rfl, all.named]
  rw [show (true && (some name).isSome) = true from rfl]
  generalize RestoreWriter.restoreFile _ args (some name) data.length true = last at part ⊢
  -- the file is recorded as the first of its inode
  have queued : ∀ view_ : DecoderView, Sees view_ last → view_.hardlinkQ = view.hardlinkQ →
      Sees (view_.linking (DecoderView.linked args.dar hardlink name view.hardlinkQ))
        (match hardlink with
        | some inode =>
            if args.dar then last
            else { last with
              hardlinkQ := last.hardlinkQ.hardlinkQAdd inode 0 (some name) false }
        | none => last) := by
    intro view_ seen same
    have queue := seen.hardlinkQ.trans same
    cases hardlink with
    | none => exact { seen with hardlinkQ := queue }
    | some inode =>
        unfold DecoderView.linked
        dsimp only
        by_cases dar : args.dar = true
        · rw [if_pos dar, if_pos dar]
          exact { seen with hardlinkQ := queue }
        · rw [if_neg dar, if_neg dar]
          exact { seen with hardlinkQ := congrArg (·.hardlinkQAdd inode 0 (some name) false) queue }
  by_cases ended : view.hugeSize - data.length ≤ 0
  · rw [if_pos (show (view.naming name).hugeSize - data.length ≤ 0 from ended)] at part
    rw [if_pos ended]
    exact ((queued _ part rfl).dtreePopUntil name).finishRegular_last ended
  · rw [if_neg (show ¬ (view.naming name).hugeSize - data.length ≤ 0 from ended)] at part
    rw [if_neg ended]
    exact ((queued _ part rfl).dtreePopUntil name).finishRegular_section
      (show 0 < view.hugeSize - data.length by omega)

/-- The name of an entry that fits one header. -/
theorem regularName_entry
    (sees : Sees ((DecoderView.entry left hardlinkQ entries name link).leaving rest) writer)
    (header : EntryHeader tarHdr linkflag size ino name link) (path : AbsolutePath name) :
    (writer.regularName tarHdr.record).string = name := by
  have longname := sees.longname _ (Option.mem_def.mpr DecoderView.entry_longname)
  have hugename : writer.hugename.string = [] := by
    rw [sees.hugename]
    unfold DecoderView.entry DecoderView.takeName DecoderView.takeLink
    split
    · split
      · rfl
      · rfl
    · split
      · rfl
      · rfl
  have bound : pathMax < tlmMaxPathName := by decide
  have short := path.short
  unfold RestoreWriter.regularName
  rw [if_neg (fun other => other hugename)]
  by_cases long : tlmNameSize ≤ name.length
  · rw [if_pos long] at longname
    rw [longname, if_neg path.nonempty]
    exact longname
  · rw [if_neg long] at longname
    have read := header.cstring_name path.nulFree (by omega)
    rw [longname, if_pos rfl, read]
    dsimp only
    rw [if_pos path.absolute]
    exact CharArray.string_strlcpy path.nulFree (by omega)

theorem entry_fileDone {middle : List UInt8} {queue : HardlinkQ} :
    ((((DecoderView.entry left hardlinkQ entries name link).leaving middle).leaving rest).written
      name entries data).fileDone.linking queue =
        .between rest queue (entries ++ [.regularFile name data]) := by
  unfold DecoderView.entry DecoderView.takeName DecoderView.takeLink
  split
  · split
    · rfl
    · rfl
  · split
    · rfl
    · rfl

theorem entry_writing {middle : List UInt8} :
    ((DecoderView.entry left hardlinkQ entries name link).leaving middle).Writing name entries
      [] := by
  unfold DecoderView.entry DecoderView.takeName DecoderView.takeLink
  apply DecoderView.Writing.unopened
  · split
    · split
      · rfl
      · rfl
    · split
      · rfl
      · rfl
  · split
    · split
      · rfl
      · rfl
    · split
      · rfl
      · rfl

theorem entry_hugeSize : (DecoderView.entry left hardlinkQ entries name link).hugeSize = 0 := by
  unfold DecoderView.entry DecoderView.takeName DecoderView.takeLink
  split
  · split
    · rfl
    · rfl
  · split
    · rfl
    · rfl

/-- The data of a file that fits one header. -/
theorem restoreRegular_entry (all : RestoresAll args)
    (sees : Sees ((DecoderView.entry left hardlinkQ entries name link).leaving
      (data ++ (pad ++ rest))) writer)
    (header : EntryHeader tarHdr linkflag size ino name link) (path : AbsolutePath name)
    (padded : data.length + pad.length = roundToRecords data.length)
    (ordinary : data.length < 2 ^ 31) :
    Sees (.between rest (DecoderView.linked args.dar hardlink name hardlinkQ)
        (entries ++ [.regularFile name data]))
      (writer.restoreRegular args data.length hardlink tarHdr.record) := by
  have done := @restoreRegular args writer rest entries name _ [] data pad hardlink all sees
    tarHdr.record (sees.regularName_entry header path) entry_writing rfl padded ordinary
  have hugeSize : ((DecoderView.entry left hardlinkQ entries name link).leaving
      (data ++ (pad ++ rest))).hugeSize = 0 := entry_hugeSize
  have queue : ((DecoderView.entry left hardlinkQ entries name link).leaving
      (data ++ (pad ++ rest))).hardlinkQ = hardlinkQ := DecoderView.entry_hardlinkQ
  rw [hugeSize, queue, if_pos (by omega), List.nil_append, entry_fileDone] at done
  exact done

/-- The record of an entry does not begin with a NUL. -/
theorem head_record_ne (header : EntryHeader tarHdr linkflag size ino name link)
    (absolute : name.head? = some slash) : tarHdr.record.head? ≠ some 0 := by
  by_cases long : tlmNameSize ≤ name.length
  · rw [header.thName_long long]
    decide +kernel
  · obtain ⟨rest, rfl⟩ := List.head?_eq_some_iff.mp absolute
    rw [TlmTarHdr.record, header.thName (by omega), CharArray.bytes_ofString (by omega)]
    change some slash ≠ some 0
    decide

/-- A header with data is restored as a file. -/
theorem file_header {view : DecoderView} (sees : Sees view writer) {hardlink : Option Nat}
    (asFile : AsFile view.hardlinkQ ino linkflag hardlink)
    (header : EntryHeader tarHdr linkflag size ino name [])
    (absolute : name.head? = some slash) (left : view.left = tarHdr.record ++ rest)
    (ordinary : size < 2 ^ 31) : ∃ reading, Sees (view.leaving rest) reading ∧
      writer.tarGetdirStep args = reading.restoreRegular args size hardlink tarHdr.record := by
  cases asFile with
  | normal =>
      obtain ⟨reading, seen, step⟩ := @Sees.header _ writer args sees tarHdr lfNormal _
        header.checksum header.thLinkflag (by decide) (by decide) left
      rw [fileSize_of header.thSize ordinary] at step
      exact ⟨reading, seen, step⟩
  | link unseen =>
      obtain ⟨reading, seen, step⟩ := @Sees.header _ writer args sees tarHdr lfLink _
        header.checksum header.thLinkflag (by decide) (by decide) left
      rw [fileSize_of header.thSize ordinary] at step
      refine ⟨reading, seen, step.trans ?_⟩
      change reading.restoreLink args size tarHdr.record = _
      have notFound : (if printedIno ino = 0 then none
          else reading.hardlinkQ.hardlinkQGet (printedIno ino)) = none := by
        by_cases zero : printedIno ino = 0
        · rw [if_pos zero]
        · rw [if_neg zero, seen.hardlinkQ]
          exact unseen zero
      unfold RestoreWriter.restoreLink
      dsimp only
      rw [header.printedIno, notFound]
      dsimp only
      rw [if_neg (head_record_ne header absolute)]

/-- The header and the data of a file that fits one header. -/
theorem regular_step (all : RestoresAll args) (asFile : AsFile hardlinkQ ino linkflag hardlink)
    (sees : Sees (.entry (tarHdr.record ++ (data ++ (pad ++ rest))) hardlinkQ entries name [])
      writer)
    (header : EntryHeader tarHdr linkflag data.length ino name []) (path : AbsolutePath name)
    (padded : data.length + pad.length = roundToRecords data.length)
    (ordinary : data.length < 2 ^ 31) :
    Sees (.between rest (DecoderView.linked args.dar hardlink name hardlinkQ)
      (entries ++ [.regularFile name data])) (writer.tarGetdirStep args) := by
  rw [← @DecoderView.entry_hardlinkQ (tarHdr.record ++ (data ++ (pad ++ rest))) hardlinkQ entries
    name
    []] at asFile
  obtain ⟨reading, seen, step⟩ := @file_header args writer _ tarHdr linkflag data.length ino name _
    sees hardlink asFile header path.absolute DecoderView.entry_left ordinary
  rw [step]
  exact @restoreRegular_entry args reading _ rest hardlinkQ entries tarHdr linkflag data.length ino
    name [] data pad hardlink all seen header path padded ordinary

end Sees

end Ndmpd
