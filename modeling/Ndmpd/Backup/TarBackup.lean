import Ndmpd.Backup.Traversal

/-!
# The result of a tar backup

`tar_backup_v3` starts the thread that walks the tree, `backup_reader_v3`, and returns what
the writer returns. The result of the thread is dropped when it is joined, as
`traverse_level` drops the results for the directories below and `timebk_v3` those for the
files. A result of 0, for which the starter records the date of the backup, therefore
stands for a complete backup only where nothing went wrong in the walk
(`complete_iff`). A thread without its path buffer leaves without a word to the writer, and
`tar_backup_v3` does not return at all.
-/

namespace Ndmpd

open Foundation

/-- A directory tree as the traversal finds it. -/
structure Tree where
  path : CString
  opens : Bool
  listing : Listing
  deriving Repr

/-- The course that a backup takes around the traversal. The connection is found closed
and the backup aborted from a certain look on, if ever; `writerBack` is the look from which
the writer has returned, upon which the traversal is told to stop. -/
structure BackupCourse where
  hasDirIno : Bool
  eofBefore : Bool
  abortBefore : Bool
  allocated : Bool
  magicWritten : Bool
  launched : Bool
  hasTmp : Bool
  writerErr : Int
  writerBack : Option Nat
  eofFrom : Option Nat
  abortFrom : Option Nat
  deriving DecidableEq, Repr

namespace BackupCourse

variable (course : BackupCourse)

/-- `FORCE_STOP_TRAVEL`. -/
def forceStopTravel (look : Nat) : Bool := course.writerBack.any (· ≤ look)

/-- `ns_eof` or `dd_abort`. -/
def dropped (look : Nat) : Bool :=
  course.eofFrom.any (· ≤ look) || course.abortFrom.any (· ≤ look)

/-- The backup fails for a reason that `tar_backup_v3` itself sees. -/
def Fails : Prop :=
  course.hasDirIno = false ∨ course.eofBefore = true ∨ course.abortBefore = true ∨
    course.allocated = false ∨ course.magicWritten = false ∨ course.launched = false ∨
    course.writerErr ≠ 0 ∨ course.eofFrom.isSome = true ∨ course.abortFrom.isSome = true

end BackupCourse

/-- Before the traversal. -/
def Progress.idle : Progress Mark := ⟨0, []⟩

/-- `backup_reader_v3`. -/
def backupReaderV3 (course : BackupCourse) (bpp : BkParam) (tree : Tree) : Int × Progress Mark :=
  if ¬ course.hasTmp then (-1, Progress.idle)
  else if ¬ bpp.levelbk then (-1, Progress.idle)
  else
    traverseLevel course.forceStopTravel true (fun look => timebkV3 bpp (course.dropped look))
      tree.path tree.opens tree.listing Progress.idle

/-- What `ndmp_tar_writer_v3` returns. A thread without its path buffer returns without
`TLM_STOP` in `tc_writer`, so that the writer waits for a full block until the clean-up
behind the end of the connection stops it. -/
def ndmpTarWriterV3 (course : BackupCourse) : Option Int :=
  if course.hasTmp then some course.writerErr
  else if course.eofFrom.isSome then some 0
  else none

/-- `tar_backup_v3`, and what the traversal got done. There is no result where the writer
does not return. -/
def tarBackupV3 (course : BackupCourse) (bpp : BkParam) (tree : Tree) :
    Option Int × Progress Mark :=
  if ¬ course.hasDirIno then (some (-1), Progress.idle)
  else if course.eofBefore then (some (-1), Progress.idle)
  else if course.abortBefore then (some (-1), Progress.idle)
  else if ¬ course.allocated then (some (-1), Progress.idle)
  else if ¬ course.magicWritten then (some (-1), Progress.idle)
  else if ¬ course.launched then (some (-1), Progress.idle)
  else
    let err := ndmpTarWriterV3 course
    -- `pthread_join` drops the result of the thread
    let (_, walk) := backupReaderV3 course bpp tree
    let err := if course.eofFrom.isSome then err.map fun _ => -1 else err
    let err := if course.abortFrom.isSome then err.map fun _ => -1 else err
    (err, walk)

/-- `ndmpd_tar_backup_starter_v3`, given the result of `ndmp_get_cur_bk_time`: the error
that is reported with `MOD_DONE`, and whether the date of the backup is saved. -/
def ndmpdTarBackupStarterV3 (timeErr : Int) (course : BackupCourse) (bpp : BkParam)
    (tree : Tree) : Option (Int × Bool) :=
  let err := if timeErr ≠ 0 then some timeErr else (tarBackupV3 course bpp tree).1
  err.map fun err => (err, decide (err = 0))

namespace Tree

variable (bpp : BkParam) (tree : Tree)

/-- The directories of the tree and the objects that are selected for the backup. -/
def owed : List Mark := tree.listing.owed bpp.selects (trimmedPath tree.path)

/-- How often a whole traversal looks whether to stop. -/
def looks : Nat := 1 + tree.listing.looks

/-- Every directory opens and is listed to its end, every selected object can be put, and
the callback skips nothing but the last entry of a listing. -/
def GoesWell : Prop :=
  tree.opens = true ∧
    tree.listing.GoesWell bpp.selects canBePut bpp.skips (trimmedPath tree.path)

end Tree

/-- `tar_backup_v3` returns 0 unless it sees a reason to fail or the thread has no path
buffer. What happens in the tree is no reason. -/
theorem tarBackupV3_eq_zero_iff (course : BackupCourse) (bpp : BkParam) (tree : Tree) :
    (tarBackupV3 course bpp tree).1 = some 0 ↔ ¬ course.Fails ∧ course.hasTmp = true := by
  unfold tarBackupV3 BackupCourse.Fails
  cases course.hasDirIno with
  | false => simp
  | true =>
  cases course.eofBefore with
  | true => simp
  | false =>
  cases course.abortBefore with
  | true => simp
  | false =>
  cases course.allocated with
  | false => simp
  | true =>
  cases course.magicWritten with
  | false => simp
  | true =>
  cases course.launched with
  | false => simp
  | true =>
      unfold ndmpTarWriterV3
      cases course.hasTmp <;> cases course.eofFrom <;> cases course.abortFrom <;> simp

/-- The date of a backup is saved whatever happens in the tree. -/
theorem date_saved_iff (timeErr : Int) (course : BackupCourse) (bpp : BkParam) (tree : Tree) :
    ndmpdTarBackupStarterV3 timeErr course bpp tree = some (0, true) ↔
      timeErr = 0 ∧ ¬ course.Fails ∧ course.hasTmp = true := by
  unfold ndmpdTarBackupStarterV3
  rw [← tarBackupV3_eq_zero_iff course bpp tree]
  by_cases timed : timeErr = 0
  · simp [timed]
  · simp [timed]

/-- A date is saved only with the report of a success. -/
theorem reported_of_saved {timeErr : Int} {course : BackupCourse} {bpp : BkParam} {tree : Tree}
    {err : Int} (saved : ndmpdTarBackupStarterV3 timeErr course bpp tree = some (err, true)) :
    err = 0 := by
  unfold ndmpdTarBackupStarterV3 at saved
  simp only [Option.map_eq_some_iff, Prod.mk.injEq, decide_eq_true_iff] at saved
  obtain ⟨result, -, rfl, zero⟩ := saved
  exact zero

/-- A backup without a reason to fail has walked the tree. -/
theorem tarBackupV3_walk {course : BackupCourse} (sound : ¬ course.Fails) (bpp : BkParam)
    (tree : Tree) : (tarBackupV3 course bpp tree).2 = (backupReaderV3 course bpp tree).2 := by
  unfold BackupCourse.Fails at sound
  simp only [not_or, Bool.not_eq_false, Bool.not_eq_true] at sound
  obtain ⟨hasDirIno, eofBefore, abortBefore, allocated, magicWritten, launched, -⟩ := sound
  simp [tarBackupV3, hasDirIno, eofBefore, abortBefore, allocated, magicWritten, launched]

theorem BackupCourse.not_dropped {course : BackupCourse} (sound : ¬ course.Fails) (look : Nat) :
    course.dropped look = false := by
  unfold BackupCourse.Fails at sound
  simp only [not_or] at sound
  obtain ⟨-, -, -, -, -, -, -, eof, abort⟩ := sound
  rw [Bool.not_eq_true, Option.isSome_eq_false_iff, Option.isNone_iff_eq_none] at eof abort
  simp [BackupCourse.dropped, eof, abort]

/-- No look of the traversal finds the writer back exactly if there are no more looks
than until it is back. -/
theorem BackupCourse.undisturbed_iff (course : BackupCourse) {looks : Nat} :
    Undisturbed course.forceStopTravel 0 looks ↔
      ∀ back, course.writerBack = some back → looks ≤ back := by
  unfold BackupCourse.forceStopTravel
  constructor
  · intro free back returned
    by_contra late
    have found := free back (Nat.zero_le back) (by omega)
    rw [returned] at found
    simp at found
  · intro late look _ before
    cases returned : course.writerBack with
    | none => rfl
    | some back =>
        have most := late back returned
        simp only [Option.any_some, decide_eq_false_iff_not]
        omega

/-- The callback of a level backup that is neither aborted nor cut off. -/
theorem timebkV3_answers {course : BackupCourse} (sound : ¬ course.Fails) {bpp : BkParam}
    (level : bpp.levelbk = true) :
    Answers (fun look => timebkV3 bpp (course.dropped look)) bpp.selects canBePut bpp.skips where
  put look dir ent visit := by
    rw [course.not_dropped sound, timebkV3_put level]
  rv look dir ent visit := by
    rw [course.not_dropped sound]
    exact timebkV3_rv level dir ent visit

/-- What the thread gets done, in a backup that does not fail for other reasons. -/
theorem backupReaderV3_perm_iff {course : BackupCourse} (sound : ¬ course.Fails) (bpp : BkParam)
    (tree : Tree) :
    (backupReaderV3 course bpp tree).2.log.Perm (tree.owed bpp) ↔
      course.hasTmp = true ∧ bpp.levelbk = true ∧ tree.GoesWell bpp ∧
        ∀ back, course.writerBack = some back → tree.looks ≤ back := by
  have owes : tree.owed bpp ≠ [] :=
    List.ne_nil_of_mem (Listing.directory_mem_owed bpp.selects _ tree.listing)
  have unwalked : ¬ Progress.idle.log.Perm (tree.owed bpp) := by
    intro permuted
    exact owes permuted.symm.eq_nil
  unfold backupReaderV3
  cases hasTmp : course.hasTmp with
  | false => simpa using unwalked
  | true =>
  cases level : bpp.levelbk with
  | false => simpa using unwalked
  | true =>
      have does := @traverseLevel_does course.forceStopTravel _ _ _ _
        (timebkV3_answers sound level) tree.path tree.opens tree.listing Progress.idle
      rw [if_neg (by decide), if_neg (by decide), ← course.undisturbed_iff]
      simpa [Tree.GoesWell, Tree.owed, Tree.looks, and_assoc] using does.perm_iff

/-- A backup that returns 0 has read every directory and put every selected object, each
once, exactly if it fails for another reason, does not return as the thread has no path
buffer, or nothing goes wrong in the tree and the traversal is not told to stop. -/
theorem complete_iff (course : BackupCourse) (bpp : BkParam) (tree : Tree) :
    ((tarBackupV3 course bpp tree).1 = some 0 →
        (tarBackupV3 course bpp tree).2.log.Perm (tree.owed bpp)) ↔
      course.Fails ∨ course.hasTmp = false ∨
        (bpp.levelbk = true ∧ tree.GoesWell bpp ∧
          ∀ back, course.writerBack = some back → tree.looks ≤ back) := by
  rw [tarBackupV3_eq_zero_iff]
  by_cases sound : course.Fails
  · exact ⟨fun _ => .inl sound, fun _ fine => absurd sound fine.1⟩
  · cases hasTmp : course.hasTmp with
    | false => simp
    | true =>
        have complete := backupReaderV3_perm_iff sound bpp tree
        rw [← tarBackupV3_walk sound] at complete
        simp only [hasTmp, true_and] at complete
        simp [complete, sound]

/-! ## A directory that cannot be opened -/

/-- A backup in which everything around the traversal succeeds. -/
def smoothCourse : BackupCourse where
  hasDirIno := true
  eofBefore := false
  abortBefore := false
  allocated := true
  magicWritten := true
  launched := true
  hasTmp := true
  writerErr := 0
  writerBack := none
  eofFrom := none
  abortFrom := none

/-- A level 0 backup without selections. -/
def fullBackup : BkParam where
  levelbk := true
  nlp := ⟨0, 0, 0, 100, false, true⟩
  nlpExl := []
  nlpInc := none
  ndmpForceBkDirs := false

/-- What is found at a directory that is there. -/
def plainDirectory : Visit := ⟨⟨true, 0, 0⟩, true, ⟨0, true⟩⟩

/-- `/a` with a directory `b` that cannot be opened. -/
def lockedTree : Tree where
  path := [slash, 97]
  opens := true
  listing := .entry dotName plainDirectory true (.nil true)
    (.entry [98] plainDirectory false (.nil true) (.nil true))

/-- The backup of a tree with a directory that cannot be opened returns 0, and its date is
saved, but the directory has not been read. -/
theorem lockedTree_incomplete :
    ¬ ∀ (course : BackupCourse) (bpp : BkParam) (tree : Tree),
      (tarBackupV3 course bpp tree).1 = some 0 →
        (tarBackupV3 course bpp tree).2.log.Perm (tree.owed bpp) := by
  intro complete
  have permuted := complete smoothCourse fullBackup lockedTree (by decide)
  have read : (tarBackupV3 smoothCourse fullBackup lockedTree).2.log =
      [.object [slash, 97] dotName, .directory [slash, 97]] := by
    decide
  have owes : Mark.directory [slash, 97, slash, 98] ∈ lockedTree.owed fullBackup := by
    decide
  rw [read] at permuted
  exact absurd (permuted.mem_iff.mpr owes) (by decide)

end Ndmpd
