import Ndmpd.Dates.DumpdatesStore
import Ndmpd.Foundation.Transition

/-!
# What a level backup selects

A level backup looks up the date of its base (`getBackupLevelV3`), takes its own date when
it starts, reads each file later (`ischngd` decides on the file's times) and puts its own
date at the end (`saveLevelV3`). `levelBackups` is the timeline of any number of such
backups of one path and of modifications of one file, in whole seconds.

The date of a backup is the second in which it starts, and `ischngd` compares strictly. A
file that was modified after the base read it is therefore selected exactly when not all
these modifications fall in that one second (`selected_iff`).
-/

namespace Ndmpd

open Foundation

/-- What `ischngd` reads of `struct stat`. -/
structure FileTimes where
  isDir : Bool
  stMtime : Int
  stCtime : Int
  deriving DecidableEq, Repr

/-- `ndmp_lbr_params_t`, as far as level backups go. -/
structure LevelParams where
  nlpLlevel : Int
  nlpLdate : Int
  nlpClevel : Int
  nlpCdate : Int
  ignctime : Bool
  update : Bool
  deriving DecidableEq, Repr

/-- `ischngd`: is the object to be backed up? -/
def ischngd (ndmpForceBkDirs : Bool) (stp : FileTimes) (t : Int) (nlp : LevelParams) : Bool :=
  if t = 0 then true
  else if stp.isDir ∧ ndmpForceBkDirs then true
  else if stp.stMtime > t then true
  else if stp.stCtime > t then !nlp.ignctime
  else false

namespace LevelBackups

open Dumpdates

section Calls

variable (calendar : Calendar) (stale : Nat → Stale) (path : CString)

/-- `get_backup_level_v3` on the dumpdates file, with the value of `LEVEL`; `none` where the
backup is refused. With the whole environment and session it is in `BackupParams`. -/
def getBackupLevelV3 (envp : Option CString) (nlp : LevelParams) (files : DateFiles) :
    Option LevelParams × DateFiles :=
  match envp with
  | none => (some { nlp with nlpLlevel := 0, nlpLdate := 0, nlpClevel := 0 }, files)
  | some [digit] =>
      if isDigit 10 digit then
        let level : Int := digitValue digit
        let (found, files) := ndmpdGetDumptime calendar stale path level 0 files
        (some { nlp with nlpLlevel := found.level, nlpLdate := found.ddate, nlpClevel := level },
          files)
      else (none, files)
  | some _ => (none, files)

/-- `save_level_v3`. -/
def saveLevelV3 (nlp : LevelParams) (files : DateFiles) : DateFiles :=
  if nlp.update then (putdumptime calendar stale path nlp.nlpClevel nlp.nlpCdate files).2
  else files

end Calls

/-- Where a backup stands. When it reads the file, the number of modifications that had
been made is kept with the answer of `ischngd`. -/
inductive Phase where
  | absent
  | prepared (nlp : LevelParams)
  | started (nlp : LevelParams)
  | hasRead (nlp : LevelParams) (mark : Nat) (selected : Bool)
  | recorded (nlp : LevelParams) (mark : Nat)
  | finished
  deriving DecidableEq, Repr

/-- The clock, the file with the seconds of its modifications, the latest first, the
dumpdates file and the backups. -/
structure Timeline where
  now : Int
  file : FileTimes
  modified : List Int
  files : DateFiles
  backups : Nat → Phase

/-- What happens in a timeline. -/
inductive Event where
  | tick
  | modify
  | prepare (backup : Nat) (envp : Option CString) (ignctime update : Bool)
  | start (backup : Nat)
  | readFile (backup : Nat)
  | finish (backup : Nat)

namespace Timeline

variable (calendar : Calendar) (stale : Nat → Nat → Stale) (path : CString)
  (ndmpForceBkDirs : Bool)

/-- A backup gets to another phase. -/
def enter (line : Timeline) (backup : Nat) (phase : Phase) : Timeline :=
  { line with backups := Function.update line.backups backup phase }

/-- One event. -/
def step (line : Timeline) : Event → Option Timeline
  | .tick => some { line with now := line.now + 1 }
  | .modify =>
      some { line with
        file := { line.file with stMtime := line.now, stCtime := line.now }
        modified := line.now :: line.modified }
  | .prepare backup envp ignctime update =>
      match line.backups backup with
      | .absent =>
          let nlp := ⟨0, 0, 0, 0, ignctime, update⟩
          let (got, files) := getBackupLevelV3 calendar (stale backup) path envp nlp line.files
          let line := { line with files := files }
          some (line.enter backup (match got with | some nlp => .prepared nlp | none => .finished))
      | _ => none
  -- `ndmp_get_cur_bk_time`
  | .start backup =>
      match line.backups backup with
      | .prepared nlp => some (line.enter backup (.started { nlp with nlpCdate := line.now }))
      | _ => none
  | .readFile backup =>
      match line.backups backup with
      | .started nlp =>
          let selected := ischngd ndmpForceBkDirs line.file nlp.nlpLdate nlp
          some (line.enter backup (.hasRead nlp line.modified.length selected))
      | _ => none
  | .finish backup =>
      match line.backups backup with
      | .hasRead nlp mark _ =>
          let files := saveLevelV3 calendar (stale backup) path nlp line.files
          some ({ line with files := files }.enter backup
            (if nlp.update then .recorded nlp mark else .finished))
      | _ => none

end Timeline

/-- Timelines of backups of a path, from a time after 1970 at which no backup was made. -/
def levelBackups (calendar : Calendar) (stale : Nat → Nat → Stale) (path : CString)
    (ndmpForceBkDirs : Bool) : System Timeline Event where
  init line := 0 < line.now ∧ line.file.isDir = false ∧ line.modified = [] ∧
    line.files.dumpdates = none ∧ ∀ backup, line.backups backup = .absent
  step line event := line.step calendar stale path ndmpForceBkDirs event

/-- The modifications that were made after a backup read the file. -/
def Timeline.since (line : Timeline) (mark : Nat) : List Int :=
  line.modified.take (line.modified.length - mark)

/-! ## Order in time -/

/-- A backup that has read the file did so after it took its date, and so did everything
that was modified later. -/
def Phase.InOrder (now : Int) (modified : List Int) : Phase → Prop
  | .started nlp => 0 < nlp.nlpCdate ∧ nlp.nlpCdate ≤ now
  | .hasRead nlp mark _ | .recorded nlp mark =>
      0 < nlp.nlpCdate ∧ nlp.nlpCdate ≤ now ∧ mark ≤ modified.length ∧
        ∀ second ∈ modified.take (modified.length - mark), nlp.nlpCdate ≤ second
  | _ => True

/-- The clock does not run backwards, and the file has the times of its latest
modification. -/
structure Timeline.InOrder (line : Timeline) : Prop where
  positive : 0 < line.now
  regular : line.file.isDir = false
  past : ∀ second ∈ line.modified, second ≤ line.now
  sorted : line.modified.Pairwise (· ≥ ·)
  times : ∀ second, line.modified.head? = some second →
    line.file.stMtime = second ∧ line.file.stCtime = second
  backups : ∀ backup, (line.backups backup).InOrder line.now line.modified

theorem Phase.InOrder.later {now later : Int} {modified : List Int} {phase : Phase}
    (order : phase.InOrder now modified) (after : now ≤ later) : phase.InOrder later modified := by
  cases phase with
  | absent | prepared | finished => exact True.intro
  | started nlp => exact ⟨order.1, le_trans order.2 after⟩
  | hasRead nlp mark selected => exact ⟨order.1, le_trans order.2.1 after, order.2.2⟩
  | recorded nlp mark => exact ⟨order.1, le_trans order.2.1 after, order.2.2⟩

/-- One more modification. -/
theorem take_since_cons {mark : Nat} {modified : List Int} (seen : mark ≤ modified.length)
    (second : Int) :
    (second :: modified).take ((second :: modified).length - mark) =
      second :: modified.take (modified.length - mark) := by
  rw [List.length_cons, Nat.succ_sub seen, List.take_succ_cons]

theorem Phase.InOrder.modify {now : Int} {modified : List Int} {phase : Phase}
    (order : phase.InOrder now modified) : phase.InOrder now (now :: modified) := by
  have more : ∀ {nlp : LevelParams} {mark : Nat}, (0 < nlp.nlpCdate ∧ nlp.nlpCdate ≤ now ∧
      mark ≤ modified.length ∧
        ∀ second ∈ modified.take (modified.length - mark), nlp.nlpCdate ≤ second) →
      0 < nlp.nlpCdate ∧ nlp.nlpCdate ≤ now ∧ mark ≤ (now :: modified).length ∧
        ∀ second ∈ (now :: modified).take ((now :: modified).length - mark),
          nlp.nlpCdate ≤ second := by
    rintro nlp mark ⟨positive, before, seen, made⟩
    refine ⟨positive, before, Nat.le_succ_of_le seen, ?_⟩
    rw [take_since_cons seen]
    intro second listed
    rcases List.mem_cons.mp listed with rfl | older
    · exact before
    · exact made second older
  cases phase with
  | absent | prepared | started | finished => exact order
  | hasRead nlp mark selected => exact more order
  | recorded nlp mark => exact more order

namespace Timeline.InOrder

variable {line : Timeline}

/-- A backup gets to another phase; the dumpdates file may change. -/
theorem enter (order : line.InOrder) {backup : Nat} {phase : Phase}
    (fits : phase.InOrder line.now line.modified) (files : DateFiles) :
    ({ line with files := files }.enter backup phase).InOrder where
  positive := order.positive
  regular := order.regular
  past := order.past
  sorted := order.sorted
  times := order.times
  backups := by
    intro other
    by_cases same : other = backup
    · subst same
      have here : ({ line with files := files }.enter other phase).backups other = phase :=
        Function.update_self _ _ _
      rw [here]
      exact fits
    · have elsewhere : ({ line with files := files }.enter backup phase).backups other =
          line.backups other := Function.update_of_ne same _ _
      rw [elsewhere]
      exact order.backups other

theorem tick (order : line.InOrder) : { line with now := line.now + 1 }.InOrder where
  positive := by
    have before := order.positive
    change 0 < line.now + 1
    omega
  regular := order.regular
  past := fun second listed => le_trans (order.past second listed) (by simp)
  sorted := order.sorted
  times := order.times
  backups := fun backup => (order.backups backup).later (by simp)

theorem modify (order : line.InOrder) :
    { line with
      file := { line.file with stMtime := line.now, stCtime := line.now }
      modified := line.now :: line.modified }.InOrder where
  positive := order.positive
  regular := order.regular
  past := by
    intro second listed
    rcases List.mem_cons.mp listed with rfl | older
    · exact le_refl _
    · exact order.past second older
  sorted := List.pairwise_cons.mpr ⟨fun second listed => order.past second listed, order.sorted⟩
  times := by
    rintro second latest
    cases latest
    exact ⟨rfl, rfl⟩
  backups := fun backup => (order.backups backup).modify

variable {calendar : Calendar} {stale : Nat → Nat → Stale} {path : CString}
  {ndmpForceBkDirs : Bool}

/-- Every event keeps the order. -/
theorem step (order : line.InOrder) {event : Event} {next : Timeline}
    (taken : line.step calendar stale path ndmpForceBkDirs event = some next) : next.InOrder := by
  cases event with
  | tick =>
      cases taken
      exact order.tick
  | modify =>
      cases taken
      exact order.modify
  | prepare backup envp ignctime update =>
      rw [Timeline.step] at taken
      split at taken
      · cases taken
        apply order.enter
        split
        · exact True.intro
        · exact True.intro
      · cases taken
  | start backup =>
      rw [Timeline.step] at taken
      split at taken
      · rename_i nlp here
        cases taken
        have fits : Phase.InOrder line.now line.modified
            (.started { nlp with nlpCdate := line.now }) := ⟨order.positive, le_refl line.now⟩
        exact order.enter fits line.files
      · cases taken
  | readFile backup =>
      rw [Timeline.step] at taken
      split at taken
      · rename_i nlp here
        cases taken
        have started := order.backups backup
        rw [here] at started
        have fits : Phase.InOrder line.now line.modified (.hasRead nlp line.modified.length
            (ischngd ndmpForceBkDirs line.file nlp.nlpLdate nlp)) := by
          refine ⟨started.1, started.2, le_refl _, ?_⟩
          rw [Nat.sub_self, List.take_zero]
          exact nofun
        exact order.enter fits line.files
      · cases taken
  | finish backup =>
      rw [Timeline.step] at taken
      split at taken
      · rename_i nlp mark selected here
        cases taken
        have read := order.backups backup
        rw [here] at read
        apply order.enter
        split
        · exact read
        · exact True.intro
      · cases taken

/-- In every timeline. -/
theorem of_reachable (reached : (levelBackups calendar stale path ndmpForceBkDirs).Reachable line) :
    line.InOrder := by
  apply reached.invariant Timeline.InOrder
  · rintro line ⟨positive, regular, unmodified, -, absent⟩
    refine ⟨positive, regular, ?_, ?_, ?_, ?_⟩
    · rw [unmodified]
      exact nofun
    · rw [unmodified]
      exact List.Pairwise.nil
    · rw [unmodified]
      exact nofun
    · intro backup
      rw [absent backup]
      exact True.intro
  · intro line event next order _ taken
    exact order.step taken

/-- The latest modification decides: all others were made before. -/
theorem latest (order : line.InOrder) {mark : Nat} (later : mark < line.modified.length) :
    line.file.stMtime ∈ line.since mark ∧
      ∀ second ∈ line.since mark, second ≤ line.file.stMtime := by
  rcases shape : line.modified with _ | ⟨second, older⟩
  · rw [shape] at later
    exact absurd later (Nat.not_lt_zero _)
  · have time : line.file.stMtime = second := (order.times second (by rw [shape]; rfl)).1
    have sorted := order.sorted
    rw [shape] at sorted later
    rw [Timeline.since, shape, time,
      take_since_cons (Nat.le_of_lt_succ later)]
    refine ⟨List.mem_cons_self, ?_⟩
    intro other listed
    rcases List.mem_cons.mp listed with rfl | listed
    · exact le_refl _
    · exact (List.pairwise_cons.mp sorted).1 other (List.mem_of_mem_take listed)

end Timeline.InOrder

/-- **What an incremental backup selects.** A backup whose base is a recorded backup with
the date `nlpLdate` reads a file that was modified after the base read it: the file is
selected exactly when one of these modifications does not fall in the second in which the
base started. -/
theorem selected_iff {calendar : Calendar} {stale : Nat → Nat → Stale} {path : CString}
    {ndmpForceBkDirs : Bool} {line : Timeline}
    (reached : (levelBackups calendar stale path ndmpForceBkDirs).Reachable line)
    {backup base : Nat} {nlp baseNlp : LevelParams} {mark : Nat}
    (started : line.backups backup = .started nlp)
    (recorded : line.backups base = .recorded baseNlp mark)
    (chosen : nlp.nlpLlevel = baseNlp.nlpClevel ∧ nlp.nlpLdate = baseNlp.nlpCdate)
    (modified : mark < line.modified.length) :
    ∃ next selected,
      line.step calendar stale path ndmpForceBkDirs (.readFile backup) = some next ∧
        next.backups backup = .hasRead nlp line.modified.length selected ∧
        (selected = true ↔ ∃ second ∈ line.since mark, second ≠ baseNlp.nlpCdate) := by
  refine ⟨_, ischngd ndmpForceBkDirs line.file nlp.nlpLdate nlp, by rw [Timeline.step, started],
    Function.update_self _ _ _, ?_⟩
  have order := Timeline.InOrder.of_reachable reached
  have read := order.backups base
  rw [recorded] at read
  obtain ⟨positive, -, -, made⟩ := read
  obtain ⟨listed, latest⟩ := order.latest modified
  have notBase : nlp.nlpLdate ≠ 0 := by
    rw [chosen.2]
    omega
  have file : ¬ (line.file.isDir = true ∧ ndmpForceBkDirs = true) := by
    rw [order.regular]
    exact fun both => Bool.noConfusion both.1
  have ctime : line.file.stCtime = line.file.stMtime := by
    rcases shape : line.modified with _ | ⟨second, older⟩
    · rw [shape] at modified
      exact absurd modified (Nat.not_lt_zero _)
    · obtain ⟨mtime, ctime⟩ := order.times second (by rw [shape]; rfl)
      rw [mtime, ctime]
  rw [ischngd, if_neg notBase, if_neg file, ctime, chosen.2]
  by_cases after : line.file.stMtime > baseNlp.nlpCdate
  · rw [if_pos after]
    exact ⟨fun _ => ⟨_, listed, ne_of_gt after⟩, fun _ => rfl⟩
  · rw [if_neg after, if_neg after]
    constructor
    · exact nofun
    · rintro ⟨second, later, other⟩
      have upper := latest second later
      have lower := made second later
      exact absurd (show second = baseNlp.nlpCdate by omega) other

/-- A full backup at second 100 reads the file two seconds later; an incremental one is
about to read it after another modification at second 103. -/
def laterChange : List Event :=
  [.prepare 0 none false true, .start 0, .tick, .tick, .readFile 0, .finish 0, .tick, .modify,
    .tick, .prepare 1 (some [49]) true true, .start 1]

/-- As before, but all happens in the second in which the full backup starts. -/
def sameSecond : List Event :=
  [.prepare 0 none false true, .start 0, .readFile 0, .modify, .finish 0, .tick,
    .prepare 1 (some [49]) false true, .start 1]

/-- Second 100, before any backup. -/
def atSecond100 : Timeline where
  now := 100
  file := ⟨false, 40, 40⟩
  modified := []
  files := ⟨none, none⟩
  backups := fun _ => .absent

theorem atSecond100_init {ndmpForceBkDirs : Bool} :
    (levelBackups january (fun _ => noStale) [47, 97] ndmpForceBkDirs).init atSecond100 :=
  ⟨by decide, rfl, rfl, rfl, fun _ => rfl⟩

theorem selected_iff_laterChange :
    ∃ line next, (levelBackups january (fun _ => noStale) [47, 97] true).Reachable line ∧
      line.step january (fun _ => noStale) [47, 97] true (.readFile 1) = some next ∧
        next.backups 1 = .hasRead ⟨0, 100, 1, 104, true, true⟩ 1 true := by
  have ends : ((levelBackups january (fun _ => noStale) [47, 97] true).run (fun _ _ => True)
      atSecond100 laterChange).map (fun line => (line.backups 1, line.backups 0, line.modified)) =
      some (.started ⟨0, 100, 1, 104, true, true⟩, .recorded ⟨0, 0, 0, 100, false, true⟩ 0,
        [103]) := by
    decide +kernel
  obtain ⟨line, ran, observed⟩ := Option.map_eq_some_iff.mp ends
  have started := congrArg Prod.fst observed
  have recorded := congrArg (fun seen => seen.2.1) observed
  have modified : line.modified = [103] := congrArg (fun seen => seen.2.2) observed
  have reached : (levelBackups january (fun _ => noStale) [47, 97] true).Reachable line :=
    System.ReachableBy.run (.init atSecond100_init) ran
  obtain ⟨next, selected, taken, read, decided⟩ := selected_iff reached started recorded
    ⟨rfl, rfl⟩ (by rw [modified]; decide)
  have change : selected = true :=
    decided.mpr ⟨103, by rw [Timeline.since, modified]; decide, by decide⟩
  rw [change, modified] at read
  exact ⟨line, next, reached, taken, read⟩

/-- A modification in the second in which the base started is not selected, although it
was made after the base read the file. -/
theorem sameSecond_missed :
    ∃ line next, (levelBackups january (fun _ => noStale) [47, 97] true).Reachable line ∧
      line.backups 0 = .recorded ⟨0, 0, 0, 100, false, true⟩ 0 ∧ line.modified = [100] ∧
      line.backups 1 = .started ⟨0, 100, 1, 101, false, true⟩ ∧
      line.step january (fun _ => noStale) [47, 97] true (.readFile 1) = some next ∧
      next.backups 1 = .hasRead ⟨0, 100, 1, 101, false, true⟩ 1 false := by
  have ends : ((levelBackups january (fun _ => noStale) [47, 97] true).run (fun _ _ => True)
      atSecond100 sameSecond).map (fun line => (line.backups 0, line.modified, line.backups 1,
        (line.step january (fun _ => noStale) [47, 97] true (.readFile 1)).map
          fun next => next.backups 1)) =
      some (.recorded ⟨0, 0, 0, 100, false, true⟩ 0, [100],
        .started ⟨0, 100, 1, 101, false, true⟩,
        some (.hasRead ⟨0, 100, 1, 101, false, true⟩ 1 false)) := by
    decide +kernel
  obtain ⟨line, ran, observed⟩ := Option.map_eq_some_iff.mp ends
  have read := congrArg (fun seen => seen.2.2.2) observed
  obtain ⟨next, taken, missed⟩ := Option.map_eq_some_iff.mp read
  exact ⟨line, next, System.ReachableBy.run (.init atSecond100_init) ran,
    congrArg Prod.fst observed, congrArg (fun seen => seen.2.1) observed,
    congrArg (fun seen => seen.2.2.1) observed, taken, missed⟩

end LevelBackups

end Ndmpd
