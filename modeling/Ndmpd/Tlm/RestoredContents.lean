import Ndmpd.Tlm.RestoreReports

/-!
# What a restored file contains

`restore_file` opens a file without cutting it off, and writes the sections of the
archived file one after the other from its start. What was there before stays behind
them (`restoreSections_file`), so that the file contains what was archived exactly if it
was not longer (`restoreSections_archived_iff`).
-/

namespace Ndmpd

/-! ## Files on a disk -/

/-- The contents of the regular files, and the file that is open with its position. -/
structure Disk where
  files : CString → Option (List UInt8)
  opened : Option (CString × Nat)

/-- The contents of a file after bytes have been written at a position. A hole is filled
with zeros. -/
def overwrite (contents : List UInt8) (pos : Nat) (bytes : List UInt8) : List UInt8 :=
  contents.take pos ++ List.replicate (pos - contents.length) 0 ++ bytes ++
    contents.drop (pos + bytes.length)

namespace Disk

/-- What `open(2)` with `O_CREAT | O_WRONLY`, `write(2)` and `close(2)` do to a file. -/
def apply (disk : Disk) : RestoreOp → Disk
  | .openFile path true =>
      { files := Function.update disk.files path (some ((disk.files path).getD []))
        opened := some (path, 0) }
  | .write bytes =>
      match disk.opened with
      | none => disk
      | some (path, pos) =>
          { files := Function.update disk.files path
              (some (overwrite ((disk.files path).getD []) pos bytes))
            opened := some (path, pos + bytes.length) }
  | .closeFile => { disk with opened := none }
  | _ => disk

/-- What a list of operations does. -/
def applyAll (disk : Disk) (ops : List RestoreOp) : Disk := ops.foldl apply disk

theorem applyAll_append (disk : Disk) (ops more : List RestoreOp) :
    disk.applyAll (ops ++ more) = (disk.applyAll ops).applyAll more :=
  List.foldl_append

/-- The file `path` is open behind `written`, and `old` was there before. -/
structure Writing (disk : Disk) (path : CString) (old written : List UInt8) : Prop where
  opened : disk.opened = some (path, written.length)
  file : disk.files path = some (written ++ old.drop written.length)

theorem writing_open (disk : Disk) (path : CString) :
    (disk.apply (.openFile path true)).Writing path ((disk.files path).getD []) [] :=
  ⟨rfl, Function.update_self _ _ _⟩

theorem Writing.write {disk : Disk} {path : CString} {old written : List UInt8}
    (writing : disk.Writing path old written) (bytes : List UInt8) :
    (disk.apply (.write bytes)).Writing path old (written ++ bytes) := by
  unfold apply
  rw [writing.opened]
  refine ⟨?_, ?_⟩
  · rw [List.length_append]
  · dsimp only
    rw [Function.update_self, writing.file]
    unfold overwrite
    have behind : (written ++ old.drop written.length).drop (written.length + bytes.length) =
        old.drop (written ++ bytes).length := by
      rw [← List.drop_drop, List.drop_left, List.drop_drop, List.length_append]
    have noHole : written.length - (written ++ old.drop written.length).length = 0 := by
      rw [List.length_append]
      omega
    rw [Option.getD_some, List.take_left, behind, noHole, List.replicate_zero, List.append_nil]

theorem Writing.writes {disk : Disk} {path : CString} {old written : List UInt8}
    (writing : disk.Writing path old written) (pieces : List (List UInt8)) :
    (disk.applyAll (pieces.map .write)).Writing path old (written ++ pieces.flatten) := by
  induction pieces generalizing disk written with
  | nil =>
      rw [List.flatten_nil, List.append_nil]
      exact writing
  | cons piece pieces ih =>
      rw [List.flatten_cons, ← List.append_assoc]
      exact ih (writing.write piece)

end Disk

/-! ## The sections of a file -/

/-- What stands behind the header of a section, and the attributes that the headers have
given. -/
structure FileSection where
  blocks : List ReadBlock
  acls : TlmAcls
  size : Nat

/-- The archived bytes of a section. -/
def FileSection.data (part : FileSection) : List UInt8 :=
  (RestoreWriter.bytesOf part.blocks).take part.size

/-- The stream has the records of the section, without a read error. -/
structure FileSection.Readable (part : FileSection) : Prop where
  whole : RestoreWriter.Whole part.blocks
  there : roundToRecords part.size ≤ (RestoreWriter.bytesOf part.blocks).length
  ordinary : part.size < 2 ^ 31

theorem FileSection.Readable.length_data {part : FileSection} (readable : part.Readable) :
    part.data.length = part.size := by
  have above := roundToRecords_ge part.size
  have there := readable.there
  rw [FileSection.data, List.length_take]
  omega

/-- The sections come up to the announced size of a file with the last of them. A file
of one section has none announced. -/
def Announced : Int → List FileSection → Prop
  | _, [] => False
  | hugeSize, part :: rest =>
      (rest = [] ∧ hugeSize ≤ part.size) ∨
        ((part.size : Int) < hugeSize ∧ Announced (hugeSize - part.size) rest)

namespace RestoreWriter

/-- `restore_file` for a wanted section, and what the decoder takes off the size. -/
def restoreSection (args : RestoreArgs) (path : CString) (writer : RestoreWriter)
    (part : FileSection) : RestoreWriter :=
  let restored := { writer with blocks := part.blocks, acls := part.acls }.restoreFile args
    (some path) part.size true
  { restored with hugeSize := max 0 (restored.hugeSize - part.size) }

/-- All sections of a file. -/
def restoreSections (args : RestoreArgs) (path : CString) (writer : RestoreWriter)
    (parts : List FileSection) : RestoreWriter :=
  parts.foldl (restoreSection args path) writer

/-- A decoder that is not stopped and for which every operation succeeds. -/
structure Succeeding (writer : RestoreWriter) : Prop where
  running : writer.tcWriterStop = false
  io : writer.io = ⟨[], [], []⟩

variable {args : RestoreArgs} {path : CString} {writer : RestoreWriter} {part : FileSection}

variable (path) in
/-- The loop and the end of `restore_file` for an open file. -/
theorem restoreSection_rest (succeeding : writer.Succeeding) (opened : writer.fp = .opened)
    (readable : part.Readable) (blocks : writer.blocks = part.blocks) (left : Int) :
    ∃ (last : RestoreWriter) (pieces : List (List UInt8)),
      closeFinished (some path) left
          (restoreLoop (writer.available + 1) writer part.size true) = last ∧
        pieces.flatten = part.data ∧ last.Succeeding ∧ last.hugeSize = writer.hugeSize ∧
        (0 < left → last.fp = .opened ∧ last.ops = writer.ops ++ pieces.map .write) ∧
        (left ≤ 0 → last.fp = .closed ∧ ∃ acls,
          last.ops =
            writer.ops ++ pieces.map .write ++ [.closeFile, .setAcl (some path) acls]) := by
  have length := readable.length_data
  have there := readable.there
  have above := roundToRecords_ge part.size
  have stream : bytesOf writer.blocks = part.data ++
      (((bytesOf part.blocks).drop part.size).take (roundToRecords part.size - part.size) ++
        (bytesOf part.blocks).drop (roundToRecords part.size)) := by
    have padding := List.take_append_drop (roundToRecords part.size - part.size)
      ((bytesOf part.blocks).drop part.size)
    rw [List.drop_drop, show part.size + (roundToRecords part.size - part.size) =
      roundToRecords part.size by omega] at padding
    rw [blocks, padding]
    exact (List.take_append_drop _ _).symm
  have padded : part.data.length + (((bytesOf part.blocks).drop part.size).take
      (roundToRecords part.size - part.size)).length = roundToRecords part.data.length := by
    rw [length, List.length_take, List.length_drop]
    omega
  have enough : part.data.length ≤ writer.available + 1 := by
    rw [available_eq, blocks, length]
    omega
  obtain ⟨later, pieces, loop, all, -, -⟩ := restoreLoop_eq (writer.available + 1) writer
    succeeding.running (by rw [blocks]; exact readable.whole) opened succeeding.io part.data _ _
      stream
    padded (by rw [length]; exact readable.ordinary) enough
  rw [length] at loop
  rw [loop]
  unfold closeFinished
  by_cases more : 0 < left
  · rw [if_neg (fun ends => absurd ends.2 (Int.not_le.mpr more))]
    exact ⟨_, pieces, rfl, all, ⟨succeeding.running, succeeding.io⟩, rfl, fun _ => ⟨opened, rfl⟩,
      fun none_ => absurd none_ (Int.not_le.mpr more)⟩
  · have unclosed : writer.fp ≠ .closed := by
      rw [opened]
      nofun
    rw [if_pos ⟨unclosed, Int.not_lt.mp more⟩, if_pos opened]
    refine ⟨_, pieces, rfl, all, ⟨succeeding.running, succeeding.io⟩, rfl,
      fun some_ => absurd some_ more, fun _ => ⟨rfl, writer.acls, ?_⟩⟩
    exact List.append_assoc _ _ _

/-- What a decoder does with a section of a file that is open or is opened for it. -/
theorem restoreSection_ops (succeeding : writer.Succeeding) (readable : part.Readable)
    (able : writer.fp = .opened ∨
      writer.fp = .closed ∧ replaces args part.acls path = true) :
    ∃ (pieces : List (List UInt8)) (back : List RestoreOp),
      (restoreSection args path writer part).ops = writer.ops ++
          (if writer.fp = .closed then [.openFile path true] else []) ++ pieces.map .write ++ back ∧
        pieces.flatten = part.data ∧ (restoreSection args path writer part).Succeeding ∧
        (restoreSection args path writer part).hugeSize = max 0 (writer.hugeSize - part.size) ∧
        (part.size < writer.hugeSize →
          (restoreSection args path writer part).fp = .opened ∧ back = []) ∧
        (writer.hugeSize ≤ part.size → ∃ acls, back = [.closeFile, .setAcl (some path) acls]) := by
  obtain ⟨opened, opens, succeeds, file, blocks, size, ops⟩ :
      ∃ opened : RestoreWriter,
        (if ({ writer with blocks := part.blocks, acls := part.acls } : RestoreWriter).fp =
              .closed ∧ true then
          ({ writer with blocks := part.blocks, acls := part.acls } : RestoreWriter).openWanted args
            path
        else ({ writer with blocks := part.blocks, acls := part.acls }, true)) = (opened, true) ∧
        opened.Succeeding ∧ opened.fp = .opened ∧ opened.blocks = part.blocks ∧
        opened.hugeSize = writer.hugeSize ∧
        opened.ops = writer.ops ++ (if writer.fp = .closed then [.openFile path true] else []) := by
    rcases able with opened | ⟨closed, replaced⟩
    · have unclosed : writer.fp ≠ .closed := by
        rw [opened]
        nofun
      rw [if_neg (fun closed => unclosed closed.1), if_neg unclosed]
      exact ⟨_, rfl, ⟨succeeding.running, succeeding.io⟩, opened, rfl, rfl,
        (List.append_nil _).symm⟩
    · rw [if_pos ⟨closed, rfl⟩, if_pos closed]
      unfold openWanted
      rw [if_pos replaced]
      dsimp only
      rw [succeeding.io]
      exact ⟨_, rfl, ⟨succeeding.running, rfl⟩, rfl, rfl, rfl, rfl⟩
  obtain ⟨last, pieces, ends, all, succeeds', size', open_, close⟩ :=
    restoreSection_rest path succeeds file readable blocks (writer.hugeSize - part.size)
  have restored : restoreSection args path writer part =
      { last with hugeSize := max 0 (last.hugeSize - part.size) } := by
    unfold restoreSection
    rw [restoreFile_some args part.size opens, ends]
  rw [size] at size'
  rw [restored]
  by_cases more : (part.size : Int) < writer.hugeSize
  · obtain ⟨file', done⟩ := open_ (by omega)
    refine ⟨pieces, [], ?_, all, ⟨succeeds'.running, succeeds'.io⟩, by rw [size'],
      fun _ => ⟨file', rfl⟩, fun past => absurd more (Int.not_lt.mpr past)⟩
    rw [List.append_nil, ← ops]
    exact done
  · obtain ⟨-, acls, done⟩ := close (by omega)
    refine ⟨pieces, [.closeFile, .setAcl (some path) acls], ?_, all,
      ⟨succeeds'.running, succeeds'.io⟩, by rw [size'], fun past => absurd past more,
      fun _ => ⟨acls, rfl⟩⟩
    rw [← ops]
    exact done

end RestoreWriter

open RestoreWriter

variable {args : RestoreArgs} {path : CString}

/-- The file is open behind `written`, or the next section opens it. -/
def Ready (args : RestoreArgs) (path : CString) (writer : RestoreWriter) (parts : List FileSection)
    (disk : Disk) (old written : List UInt8) : Prop :=
  (writer.fp = .opened ∧ disk.Writing path old written) ∨
    (writer.fp = .closed ∧ (∀ part ∈ parts.head?, replaces args part.acls path = true) ∧
      (disk.files path).getD [] = old ∧ written = [])

/-- From any section on, the file gets the rest of what was archived. -/
theorem restoreSections_writes (parts : List FileSection) (writer : RestoreWriter)
    (succeeding : writer.Succeeding) (readable : ∀ part ∈ parts, part.Readable)
    (announced : Announced writer.hugeSize parts) {disk : Disk} {old written : List UInt8}
    (ready : Ready args path writer parts disk old written) :
    ∃ effects, (restoreSections args path writer parts).ops = writer.ops ++ effects ∧
      (disk.applyAll effects).files path = some (written ++ parts.flatMap FileSection.data ++
        old.drop (written ++ parts.flatMap FileSection.data).length) := by
  induction parts generalizing writer disk written with
  | nil => exact announced.elim
  | cons part rest ih =>
      have able : writer.fp = .opened ∨ writer.fp = .closed ∧ replaces args part.acls path = true :=
        ready.imp And.left fun closed => ⟨closed.1, closed.2.1 part rfl⟩
      obtain ⟨pieces, back, ops, all, succeeds, size, more, last⟩ :=
        restoreSection_ops succeeding (readable part List.mem_cons_self) able
      have begun :
          (disk.applyAll (if writer.fp = .closed then [.openFile path true] else [])).Writing
          path old written := by
        rcases ready with ⟨opened, writing⟩ | ⟨closed, -, rfl, rfl⟩
        · rw [opened]
          exact writing
        · rw [closed]
          exact disk.writing_open path
      have done := begun.writes pieces
      rw [all, ← Disk.applyAll_append] at done
      rw [List.flatMap_cons, ← List.append_assoc]
      rcases announced with ⟨rfl, closes⟩ | ⟨goes, announced⟩
      · obtain ⟨acls, rfl⟩ := last closes
        refine ⟨_, by rw [restoreSections, List.foldl_cons, List.foldl_nil, ops, List.append_assoc,
          List.append_assoc], ?_⟩
        rw [← List.append_assoc, Disk.applyAll_append, List.flatMap_nil, List.append_nil]
        exact done.file
      · obtain ⟨opened, rfl⟩ := more goes
        have announced' : Announced (restoreSection args path writer part).hugeSize rest := by
          rw [size, max_eq_right (by omega)]
          exact announced
        obtain ⟨effects, ops', file⟩ := ih _ succeeds
          (fun other listed => readable other (List.mem_cons_of_mem _ listed)) announced'
          (.inl ⟨opened, done⟩)
        refine ⟨_, by rw [restoreSections, List.foldl_cons]; exact ops'.trans (by
          rw [ops, List.append_nil, List.append_assoc, List.append_assoc]), ?_⟩
        rw [← List.append_assoc, Disk.applyAll_append]
        exact file

/-- What the operations of `restore_file` on all sections of a file leave of the disk. -/
def restoredDisk (args : RestoreArgs) (path : CString) (writer : RestoreWriter)
    (parts : List FileSection) (disk : Disk) : Disk :=
  disk.applyAll ((restoreSections args path writer parts).ops.drop writer.ops.length)

/-- A restored file has what was archived in front, and behind it the end of what was
there before. -/
theorem restoreSections_file (writer : RestoreWriter) (parts : List FileSection) (disk : Disk)
    (succeeding : writer.Succeeding) (closed : writer.fp = .closed)
    (wanted : ∀ part ∈ parts.head?, replaces args part.acls path = true)
    (readable : ∀ part ∈ parts, part.Readable) (announced : Announced writer.hugeSize parts) :
    (restoredDisk args path writer parts disk).files path =
      some (parts.flatMap FileSection.data ++
        ((disk.files path).getD []).drop (parts.flatMap FileSection.data).length) := by
  obtain ⟨effects, ops, file⟩ := restoreSections_writes parts writer succeeding readable announced
    (.inr ⟨closed, wanted, rfl, rfl⟩)
  unfold restoredDisk
  rw [ops, List.drop_left, file]
  rfl

/-- A restored file contains the archived bytes exactly if what was there before was not
longer. -/
theorem restoreSections_archived_iff (args : RestoreArgs) (path : CString) (writer : RestoreWriter)
    (parts : List FileSection) (disk : Disk) (succeeding : writer.Succeeding)
    (closed : writer.fp = .closed)
    (wanted : ∀ part ∈ parts.head?, replaces args part.acls path = true)
    (readable : ∀ part ∈ parts, part.Readable) (announced : Announced writer.hugeSize parts) :
    (restoredDisk args path writer parts disk).files path =
        some (parts.flatMap FileSection.data) ↔
      ((disk.files path).getD []).length ≤ (parts.flatMap FileSection.data).length := by
  rw [restoreSections_file writer parts disk succeeding closed wanted readable announced,
    Option.some_inj, List.append_right_eq_self, List.drop_eq_nil_iff]

/-! ## A file of one byte -/

/-- A section of one byte. -/
def oneByte : FileSection where
  blocks := [⟨1 :: List.replicate 511 0, 0, by
    rw [List.length_cons, List.length_replicate]
    decide⟩]
  acls := .zero
  size := 1

theorem oneByte_readable : ∀ part ∈ [oneByte], part.Readable := by
  intro part listed
  rw [List.mem_singleton.mp listed]
  have size : (bytesOf oneByte.blocks).length = recordSize := by
    simp only [oneByte, bytesOf, List.map_cons, List.map_nil, List.flatten_cons, List.flatten_nil,
      List.append_nil, List.length_cons, List.length_replicate]
  constructor
  · intro block listed
    cases List.mem_singleton.mp listed
    simp only [List.length_cons, List.length_replicate]
    exact ⟨by decide, trivial⟩
  · rw [size]
    exact Nat.le_refl _
  · exact Nat.lt_of_sub_eq_succ rfl

/-- A disk with a file `/f`. -/
def diskWith (contents : List UInt8) : Disk where
  files := Function.update (fun _ => none) [slash, 102] (some contents)
  opened := none

/-- A restore of everything, over files that are there. -/
def overArgs : RestoreArgs := { restoreArgs with existing := fun _ => some 0 }

theorem oneByte_replaces :
    ∀ part ∈ [oneByte].head?, replaces overArgs part.acls [slash, 102] = true := by
  intro part listed
  cases listed
  rfl

theorem restoreSections_archived_iff_oneByte :
    (restoredDisk overArgs [slash, 102] (.start overArgs [] [] ⟨[], [], []⟩) [oneByte]
        (diskWith [7])).files [slash, 102] = some ([oneByte].flatMap FileSection.data) ↔
      (((diskWith [7]).files [slash, 102]).getD []).length ≤
        ([oneByte].flatMap FileSection.data).length :=
  restoreSections_archived_iff overArgs [slash, 102] (.start overArgs [] [] ⟨[], [], []⟩) [oneByte]
    (diskWith [7]) ⟨rfl, rfl⟩ rfl oneByte_replaces oneByte_readable (.inl ⟨rfl, by decide⟩)

/-- A file of one byte over one of two bytes leaves the second byte. -/
theorem oneByte_keeps_end :
    ∃ args path writer parts disk, Succeeding writer ∧ writer.fp = .closed ∧
      (∀ part ∈ parts.head?, replaces args part.acls path = true) ∧
      (∀ part ∈ parts, FileSection.Readable part) ∧ Announced writer.hugeSize parts ∧
      parts.flatMap FileSection.data = [1] ∧
      (restoredDisk args path writer parts disk).files path = some [1, 7] := by
  have announced : Announced (RestoreWriter.start overArgs [] [] ⟨[], [], []⟩).hugeSize [oneByte] :=
    .inl ⟨rfl, by decide⟩
  refine ⟨overArgs, [slash, 102], .start overArgs [] [] ⟨[], [], []⟩, [oneByte], diskWith [7, 7],
    ⟨rfl, rfl⟩, rfl, oneByte_replaces, oneByte_readable, announced, rfl, ?_⟩
  exact restoreSections_file _ _ _ ⟨rfl, rfl⟩ rfl oneByte_replaces oneByte_readable announced

end Ndmpd
