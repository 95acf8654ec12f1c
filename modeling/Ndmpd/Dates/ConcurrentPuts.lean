import Ndmpd.Dates.DumpdatesStore
import Ndmpd.Foundation.Transition

/-!
# Two sessions that put a date at the same time

Each connection is served by a forked process, so that `ndmp_dd_lock` orders the calls of
one session only: every process locks its own copy (`PutState.ddLock`). The steps of two
calls of `ndmpd_put_dumptime` on the files interleave freely (`twoPuts`).

No update is lost in a run in which neither session reads the file between the other's
read and rename (`puts_kept`); otherwise a session may write a list in which the other's
record is missing (`put_lost`).
-/

namespace Ndmpd

open Foundation

namespace Dumpdates

/-- The files of the working directory: a name refers to a file by its number. -/
structure FileSystem where
  contents : Nat → List UInt8
  fresh : Nat
  dumpdates : Option Nat
  bak : Option Nat

namespace FileSystem

/-- What the names refer to. -/
def dateFiles (files : FileSystem) : DateFiles where
  dumpdates := files.dumpdates.map files.contents
  bak := files.bak.map files.contents

/-- `fopen` of `dumpdates` for writing: the file is made or truncated. -/
def createDumpdates (files : FileSystem) : FileSystem :=
  match files.dumpdates with
  | some file => { files with contents := Function.update files.contents file [] }
  | none =>
      { files with
        contents := Function.update files.contents files.fresh []
        fresh := files.fresh + 1
        dumpdates := some files.fresh }

/-- `fopen` of `dumpdates.bak` for writing. -/
def createBak (files : FileSystem) : FileSystem × Nat :=
  match files.bak with
  | some file => ({ files with contents := Function.update files.contents file [] }, file)
  | none =>
      ({ files with
        contents := Function.update files.contents files.fresh []
        fresh := files.fresh + 1
        bak := some files.fresh }, files.fresh)

/-- Write from the start of an open file. -/
def write (files : FileSystem) (file : Nat) (text : List UInt8) : FileSystem :=
  { files with
    contents := Function.update files.contents file
      (text ++ (files.contents file).drop text.length) }

/-- `rename` of `dumpdates.bak` to `dumpdates`, which fails when the former is absent. -/
def rename (files : FileSystem) : FileSystem :=
  match files.bak with
  | some file => { files with dumpdates := some file, bak := none }
  | none => files

/-- The two names refer to different files, and new files are new. -/
structure Sound (files : FileSystem) : Prop where
  dumpdates_lt : ∀ file, files.dumpdates = some file → file < files.fresh
  bak_lt : ∀ file, files.bak = some file → file < files.fresh
  distinct : ∀ file other, files.dumpdates = some file → files.bak = some other → file ≠ other

end FileSystem

/-- The two sessions. -/
inductive Session where
  | first
  | second
  deriving DecidableEq, Repr

/-- The other one of the two sessions. -/
def Session.other : Session → Session
  | .first => .second
  | .second => .first

/-- Where a call of `ndmpd_put_dumptime` stands. -/
inductive Progress where
  | called
  | locked
  | missing
  | creating
  | created
  | loaded (ddhead : List Dumpdates)
  | opened (ddhead : List Dumpdates) (wfp : Nat)
  | written
  | finished
  | returned

/-- The call has looked for the file and not yet replaced it. -/
def Progress.between : Progress → Bool
  | .missing | .creating | .created | .loaded _ | .opened _ _ | .written => true
  | _ => false

/-- The call has replaced the file. -/
def Progress.done : Progress → Bool
  | .finished | .returned => true
  | _ => false

/-- The files, and for each session the progress of its call and its own copy of
`ndmp_dd_lock`. -/
structure PutState where
  files : FileSystem
  progress : Session → Progress
  ddLock : Session → Bool

namespace PutState

/-- A session gets on with its call. -/
def advance (state : PutState) (who : Session) (files : FileSystem) (progress : Progress) :
    PutState :=
  { state with files := files, progress := Function.update state.progress who progress }

variable (calendar : Calendar) (calls : Session → PutCall)

/-- The next step of a session's call. -/
def step (state : PutState) (who : Session) : Option PutState :=
  let files := state.files
  let read := fun file => readdumptimes calendar (calls who).stale (files.contents file)
  match state.progress who with
  | .called =>
      if state.ddLock who then none
      else some { state.advance who files .locked with
        ddLock := Function.update state.ddLock who true }
  -- the file is read when it can be opened
  | .locked =>
      match files.dumpdates with
      | some file => some (state.advance who files (.loaded (read file)))
      | none => some (state.advance who files .missing)
  -- `initdumptimes`
  | .missing =>
      match files.dumpdates with
      | some file => some (state.advance who files (.loaded (read file)))
      | none => some (state.advance who files .creating)
  | .creating => some (state.advance who files.createDumpdates .created)
  | .created =>
      match files.dumpdates with
      | some file => some (state.advance who files (.loaded (read file)))
      | none => some (state.advance who files .finished)
  | .loaded ddhead =>
      let (files, wfp) := files.createBak
      some (state.advance who files (.opened ddhead wfp))
  | .opened ddhead wfp =>
      let call := calls who
      let text := writeRecords calendar (updateRecords call.path call.level call.ddate ddhead)
      some (state.advance who (files.write wfp text) .written)
  | .written => some (state.advance who files.rename .finished)
  | .finished =>
      some { state.advance who files .returned with
        ddLock := Function.update state.ddLock who false }
  | .returned => none

end PutState

/-- Two calls by two sessions, from files that are there before. -/
def twoPuts (calendar : Calendar) (calls : Session → PutCall) (files : FileSystem) :
    System PutState Session where
  init state := state = ⟨files, fun _ => .called, fun _ => false⟩
  step state who := state.step calendar calls who

/-- A session reads the file only while the other one is not between its own read and its
rename. -/
def Undisturbed (state : PutState) (who : Session) : Prop :=
  (match state.progress who with | .locked => true | _ => false) = true →
    (state.progress who.other).between = false

instance (state : PutState) (who : Session) : Decidable (Undisturbed state who) :=
  inferInstanceAs (Decidable (_ → _))

/-! ## What holds during a run -/

/-- The key of the record that a call puts. -/
def PutCall.key (call : PutCall) : CString × Int := (call.path, call.level)

/-- What a call between its read and its rename has done, given the records of the
file. -/
def Progress.Fits (calendar : Calendar) (files : FileSystem) (call : PutCall)
    (records : List Dumpdates) : Progress → Prop
  | .missing | .creating => files.dumpdates = none
  | .created => files.dumpdates ≠ none
  | .loaded ddhead => ddhead = records
  | .opened ddhead wfp => ddhead = records ∧ files.bak = some wfp ∧ files.contents wfp = []
  | .written => ∃ file, files.bak = some file ∧ files.contents file =
      writeRecords calendar (updateRecords call.path call.level call.ddate records)
  | _ => True

theorem Progress.fits_of_not_between {calendar : Calendar} {files : FileSystem} {call : PutCall}
    {records : List Dumpdates} {progress : Progress} (outside : progress.between = false) :
    progress.Fits calendar files call records := by
  cases progress with
  | called | locked | finished | returned => exact True.intro
  | missing | creating | created | written => cases outside
  | loaded ddhead => cases outside
  | opened ddhead wfp => cases outside

/-- The file contains the records that were there before and those that were put, and at
most one call is between its read and its rename. -/
structure Kept (calendar : Calendar) (calls : Session → PutCall) (before : List Dumpdates)
    (state : PutState) (records : List Dumpdates) : Prop where
  contains : Contains calendar state.files.dateFiles records
  sound : state.files.Sound
  earlier : ∀ record ∈ before, (∀ who, (entry record).1 ≠ (calls who).key) → record ∈ records
  put : ∀ who, (state.progress who).done = true → (calls who).record ∈ records
  alone : ∀ who, (state.progress who).between = true →
    (state.progress who.other).between = false
  fits : ∀ who, (state.progress who).Fits calendar state.files (calls who) records

theorem Session.other_ne (who : Session) : who.other ≠ who := by
  cases who with
  | first => exact Session.noConfusion
  | second => exact Session.noConfusion

theorem Session.other_other (who : Session) : who.other.other = who := by
  cases who with
  | first => rfl
  | second => rfl

theorem Session.eq_or_other (who side : Session) : side = who ∨ side = who.other := by
  cases who with
  | first => cases side with
    | first => exact .inl rfl
    | second => exact .inr rfl
  | second => cases side with
    | first => exact .inr rfl
    | second => exact .inl rfl

namespace FileSystem

variable {files : FileSystem}

/-- A new file under the name `dumpdates`. -/
theorem Sound.createDumpdates (sound : files.Sound) (absent : files.dumpdates = none) :
    files.createDumpdates.Sound ∧ files.createDumpdates.dateFiles.dumpdates = some [] := by
  rw [FileSystem.createDumpdates, absent]
  refine ⟨⟨?_, ?_, ?_⟩, ?_⟩
  · rintro file same
    cases same
    exact Nat.lt_succ_self _
  · intro file named
    exact Nat.lt_succ_of_lt (sound.bak_lt file named)
  · rintro file other same named rfl
    cases same
    exact absurd (sound.bak_lt _ named) (Nat.lt_irrefl _)
  · simp only [dateFiles, Option.map_some, Function.update_self]

/-- What `dumpdates` refers to is not changed through another file. -/
theorem dateFiles_dumpdates {later : FileSystem} (same : later.dumpdates = files.dumpdates)
    (kept : ∀ file, files.dumpdates = some file → later.contents file = files.contents file) :
    later.dateFiles.dumpdates = files.dateFiles.dumpdates := by
  unfold dateFiles
  dsimp only
  rw [same]
  rcases named : files.dumpdates with _ | file
  · rfl
  · exact congrArg some (kept file named)

/-- An empty file under the name `dumpdates.bak`; the other file is as before. -/
theorem Sound.createBak (sound : files.Sound) :
    files.createBak.1.Sound ∧
      files.createBak.1.dateFiles.dumpdates = files.dateFiles.dumpdates ∧
      files.createBak.1.bak = some files.createBak.2 ∧
      files.createBak.1.contents files.createBak.2 = [] := by
  rcases named : files.bak with _ | file
  · have made : files.createBak = ({ files with
        contents := Function.update files.contents files.fresh []
        fresh := files.fresh + 1
        bak := some files.fresh }, files.fresh) := by
      rw [FileSystem.createBak, named]
    rw [made]
    refine ⟨⟨?_, ?_, ?_⟩, dateFiles_dumpdates rfl ?_, rfl, Function.update_self _ _ _⟩
    · intro file other
      exact Nat.lt_succ_of_lt (sound.dumpdates_lt file other)
    · rintro file same
      cases same
      exact Nat.lt_succ_self _
    · rintro file other older same rfl
      cases same
      exact absurd (sound.dumpdates_lt _ older) (Nat.lt_irrefl _)
    · intro file older
      exact Function.update_of_ne (Nat.ne_of_lt (sound.dumpdates_lt file older)) _ _
  · have made : files.createBak =
        ({ files with contents := Function.update files.contents file [] }, file) := by
      rw [FileSystem.createBak, named]
    rw [made]
    refine ⟨⟨sound.dumpdates_lt, sound.bak_lt, sound.distinct⟩, dateFiles_dumpdates rfl ?_, named,
      Function.update_self _ _ _⟩
    intro other older
    exact Function.update_of_ne (sound.distinct other file older named) _ _

/-- An empty file has the text that is written to it. -/
theorem contents_write {file : Nat} (empty : files.contents file = []) (text : List UInt8) :
    (files.write file text).contents file = text := by
  unfold write
  dsimp only
  rw [Function.update_self, empty, List.drop_nil, List.append_nil]

/-- Writing to `dumpdates.bak` leaves `dumpdates` as it is. -/
theorem Sound.write (sound : files.Sound) {file : Nat} (named : files.bak = some file)
    (text : List UInt8) :
    (files.write file text).Sound ∧
      (files.write file text).dateFiles.dumpdates = files.dateFiles.dumpdates := by
  refine ⟨⟨sound.dumpdates_lt, sound.bak_lt, sound.distinct⟩, dateFiles_dumpdates rfl ?_⟩
  intro other older
  exact Function.update_of_ne (sound.distinct other file older named) _ _

theorem Sound.rename (sound : files.Sound) {file : Nat} (named : files.bak = some file) :
    files.rename.Sound ∧ files.rename.dateFiles.dumpdates = some (files.contents file) := by
  rw [FileSystem.rename, named]
  refine ⟨⟨?_, nofun, nofun⟩, rfl⟩
  rintro other same
  cases same
  exact sound.bak_lt file named

end FileSystem

namespace Contains

variable {calendar : Calendar} {records : List Dumpdates}

/-- What the records are depends on the file `dumpdates` alone. -/
theorem of_dumpdates {files later : DateFiles} (contains : Contains calendar files records)
    (same : later.dumpdates = files.dumpdates) : Contains calendar later records where
  text := same ▸ contains.text
  recordable := contains.recordable
  storable := contains.storable

/-- A file that is open for reading has the text of the records. -/
theorem read {files : FileSystem} (contains : Contains calendar files.dateFiles records)
    {file : Nat} (named : files.dumpdates = some file) (stale : Nat → Stale) :
    Dumpdates.readdumptimes calendar stale (files.contents file) = records := by
  rcases contains.text with present | ⟨absent, -⟩
  · rw [FileSystem.dateFiles, named, Option.map_some, Option.some_inj] at present
    rw [present]
    exact contains.readdumptimes stale
  · rw [FileSystem.dateFiles, named] at absent
    cases absent

/-- A record of another key stays in the list. -/
theorem mem_updateRecords_of_other {path : CString} {level ddate : Int} {record : Dumpdates}
    (listed : record ∈ records) (other : (entry record).1 ≠ (path, level)) :
    record ∈ updateRecords path level ddate records := by
  apply List.mem_append_left
  refine List.mem_map.mpr ⟨record, listed, if_neg ?_⟩
  rintro ⟨rfl, rfl⟩
  exact other rfl

/-- The record that is put is in the list. -/
theorem mem_updateRecords_self {path : CString} {level ddate : Int}
    (made : Recordable calendar ⟨path, level, ddate⟩) (records : List Dumpdates) :
    ⟨path, level, ddate⟩ ∈ updateRecords path level ddate records := by
  by_cases found : (records.any fun ddp => ddp.ddLevel = level ∧ path = ddp.ddName) = true
  · obtain ⟨record, listed, hit⟩ := List.any_eq_true.mp found
    obtain ⟨rfl, rfl⟩ := of_decide_eq_true hit
    apply List.mem_append_left
    exact List.mem_map.mpr ⟨record, listed, if_pos ⟨rfl, rfl⟩⟩
  · apply List.mem_append_right
    rw [if_neg found, stored_whole made]
    exact List.mem_singleton.mpr rfl

end Contains

section Runs

variable {calendar : Calendar} {calls : Session → PutCall} {before : List Dumpdates}

namespace Kept

variable {state : PutState} {records : List Dumpdates}

/-- One session gets on: what it does may change the records, but only of its own key. -/
theorem advance (kept : Kept calendar calls before state records) {who : Session}
    (different : (calls who).key ≠ (calls who.other).key) {files : FileSystem}
    {progress : Progress} {later : List Dumpdates} {next : PutState}
    (nextFiles : next.files = files)
    (nextProgress : next.progress = Function.update state.progress who progress)
    (contains : Contains calendar files.dateFiles later) (sound : files.Sound)
    (keeps : ∀ record ∈ records, (entry record).1 ≠ (calls who).key → record ∈ later)
    (own : progress.done = true → (calls who).record ∈ later)
    (alone : progress.between = true → (state.progress who.other).between = false)
    (fits : progress.Fits calendar files (calls who) later)
    (others : (state.progress who.other).Fits calendar files (calls who.other) later) :
    Kept calendar calls before next later := by
  have atWho : next.progress who = progress := by
    rw [nextProgress, Function.update_self]
  have atOther : next.progress who.other = state.progress who.other := by
    rw [nextProgress, Function.update_of_ne who.other_ne]
  subst nextFiles
  refine ⟨contains, sound, ?_, ?_, ?_, ?_⟩
  · intro record listed distinct
    exact keeps record (kept.earlier record listed distinct) (distinct who)
  · intro side
    rcases who.eq_or_other side with rfl | rfl
    · rw [atWho]
      exact own
    · rw [atOther]
      intro done
      exact keeps _ (kept.put _ done) different.symm
  · intro side
    rcases who.eq_or_other side with rfl | rfl
    · rw [atWho, atOther]
      exact alone
    · rw [atOther, Session.other_other, atWho]
      intro busy
      by_contra both
      rw [Bool.not_eq_false] at both
      exact absurd busy (Bool.eq_false_iff.mp (alone both))
  · intro side
    rcases who.eq_or_other side with rfl | rfl
    · rw [atWho]
      exact fits
    · rw [atOther]
      exact others

/-- A step that leaves the files as they are. -/
theorem stays (kept : Kept calendar calls before state records) {who : Session}
    (different : (calls who).key ≠ (calls who.other).key) {progress : Progress} {next : PutState}
    (nextFiles : next.files = state.files)
    (nextProgress : next.progress = Function.update state.progress who progress)
    (own : progress.done = true → (calls who).record ∈ records)
    (alone : progress.between = true → (state.progress who.other).between = false)
    (fits : progress.Fits calendar state.files (calls who) records) :
    Kept calendar calls before next records :=
  kept.advance different nextFiles nextProgress kept.contains kept.sound
    (fun _ listed _ => listed) own alone fits (kept.fits who.other)

/-- An undisturbed step. -/
theorem step (kept : Kept calendar calls before state records)
    (made : ∀ who, Recordable calendar (calls who).record)
    (preserved : ∀ who, Storable (calls who).record) {who : Session}
    (different : (calls who).key ≠ (calls who.other).key) (undisturbed : Undisturbed state who)
    {next : PutState} (taken : state.step calendar calls who = some next) :
    ∃ later, Kept calendar calls before next later := by
  have fits := kept.fits who
  have alone := kept.alone who
  unfold PutState.step at taken
  dsimp only at taken
  rcases here : state.progress who with _ | _ | _ | _ | _ | ddhead | ⟨ddhead, wfp⟩ | _ | _ | _
  all_goals rw [here] at taken fits alone
  all_goals dsimp only at taken
  · -- called
    by_cases held : state.ddLock who = true
    · rw [if_pos held] at taken
      cases taken
    · rw [if_neg held, Option.some_inj] at taken
      subst taken
      exact ⟨records, kept.stays different rfl rfl nofun nofun True.intro⟩
  · -- locked: the other session is not between its read and its rename
    have quiet : (state.progress who.other).between = false := by
      apply undisturbed
      rw [here]
    rcases named : state.files.dumpdates with _ | file
    · rw [named, Option.some_inj] at taken
      subst taken
      exact ⟨records, kept.stays different rfl rfl nofun (fun _ => quiet) named⟩
    · rw [named, Option.some_inj] at taken
      subst taken
      exact ⟨records, kept.stays different rfl rfl nofun (fun _ => quiet)
        (kept.contains.read named _)⟩
  · -- missing
    rcases named : state.files.dumpdates with _ | file
    · rw [named, Option.some_inj] at taken
      subst taken
      exact ⟨records, kept.stays different rfl rfl nofun alone named⟩
    · have absent : state.files.dumpdates = none := fits
      rw [named] at absent
      cases absent
  · -- creating: the file was missing, so there are no records
    rw [Option.some_inj] at taken
    subst taken
    obtain ⟨sound, empty⟩ := kept.sound.createDumpdates fits
    have none : records = [] := by
      rcases kept.contains.text with present | ⟨-, none⟩
      · rw [FileSystem.dateFiles, show state.files.dumpdates = _ from fits] at present
        cases present
      · exact none
    subst none
    have contains : Contains calendar state.files.createDumpdates.dateFiles [] :=
      ⟨.inl empty, nofun, nofun⟩
    have named : state.files.createDumpdates.dumpdates ≠ none := by
      intro absent
      rw [FileSystem.dateFiles, absent] at empty
      cases empty
    exact ⟨[], kept.advance different rfl rfl contains sound (fun _ listed _ => listed) nofun alone
      named (Progress.fits_of_not_between (alone rfl))⟩
  · -- created
    rcases named : state.files.dumpdates with _ | file
    · exact absurd named fits
    · rw [named, Option.some_inj] at taken
      subst taken
      exact ⟨records, kept.stays different rfl rfl nofun alone (kept.contains.read named _)⟩
  · -- loaded
    rw [Option.some_inj] at taken
    subst taken
    obtain ⟨sound, same, named, empty⟩ := kept.sound.createBak
    exact ⟨records, kept.advance different rfl rfl (kept.contains.of_dumpdates same) sound
      (fun _ listed _ => listed) nofun alone ⟨fits, named, empty⟩
      (Progress.fits_of_not_between (alone rfl))⟩
  · -- opened
    rw [Option.some_inj] at taken
    subst taken
    obtain ⟨rfl, named, empty⟩ := fits
    obtain ⟨sound, same⟩ := kept.sound.write named
      (writeRecords calendar
        (updateRecords (calls who).path (calls who).level (calls who).ddate ddhead))
    have written : ((state.files.write wfp (writeRecords calendar
        (updateRecords (calls who).path (calls who).level (calls who).ddate ddhead))).contents
          wfp) = writeRecords calendar
        (updateRecords (calls who).path (calls who).level (calls who).ddate ddhead) :=
      FileSystem.contents_write empty _
    exact ⟨ddhead, kept.advance different rfl rfl (kept.contains.of_dumpdates same) sound
      (fun _ listed _ => listed) nofun alone ⟨wfp, named, written⟩
      (Progress.fits_of_not_between (alone rfl))⟩
  · -- written: the file is replaced by the updated list
    rw [Option.some_inj] at taken
    subst taken
    obtain ⟨file, named, written⟩ := fits
    obtain ⟨sound, replaced⟩ := kept.sound.rename named
    rw [written] at replaced
    have contains := kept.contains.updated (made who) (preserved who) replaced
    exact ⟨_, kept.advance different rfl rfl contains sound
      (fun _ listed other => Contains.mem_updateRecords_of_other listed other)
      (fun _ => Contains.mem_updateRecords_self (made who) records) nofun True.intro
      (Progress.fits_of_not_between (alone rfl))⟩
  · -- finished
    rw [Option.some_inj] at taken
    subst taken
    have put := kept.put who (by rw [here]; rfl)
    exact ⟨records, kept.stays different rfl rfl (fun _ => put) nofun True.intro⟩
  · cases taken

end Kept

/-- **No update is lost in undisturbed runs.** When both calls are done, the file contains
both records and every other record that was there before. -/
theorem puts_kept {files : FileSystem} (sound : files.Sound)
    (contains : Contains calendar files.dateFiles before)
    (made : ∀ who, Recordable calendar (calls who).record)
    (preserved : ∀ who, Storable (calls who).record)
    (different : (calls .first).key ≠ (calls .second).key) {state : PutState}
    (reached : (twoPuts calendar calls files).ReachableBy Undisturbed state)
    (done : ∀ who, (state.progress who).done = true) (stale : Nat → Stale) :
    (∀ who, (calls who).record ∈ fileRecords calendar stale state.files.dateFiles) ∧
      ∀ record ∈ before, (∀ who, (entry record).1 ≠ (calls who).key) →
        record ∈ fileRecords calendar stale state.files.dateFiles := by
  have keys : ∀ who : Session, (calls who).key ≠ (calls who.other).key := by
    intro who
    cases who with
    | first => exact different
    | second => exact different.symm
  obtain ⟨records, kept⟩ : ∃ records, Kept calendar calls before state records := by
    apply reached.invariant fun state => ∃ records, Kept calendar calls before state records
    · rintro state rfl
      exact ⟨before, contains, sound, fun _ listed _ => listed, fun _ => nofun, fun _ => nofun,
        fun _ => True.intro⟩
    · rintro state who next ⟨records, kept⟩ undisturbed taken
      exact kept.step made preserved (keys who) undisturbed taken
  rw [kept.contains.fileRecords stale]
  exact ⟨fun who => kept.put who (done who), kept.earlier⟩

end Runs

/-! ## Two runs -/

/-- An empty dumpdates file. -/
def emptyFiles : FileSystem where
  contents _ := []
  fresh := 1
  dumpdates := some 0
  bak := none

theorem emptyFiles_sound : emptyFiles.Sound := by
  refine ⟨?_, nofun, nofun⟩
  rintro file same
  cases same
  exact Nat.zero_lt_one

/-- Full backups of two paths. -/
def twoPaths : Session → PutCall
  | .first => ⟨"/a".toUTF8.toList, 0, 3661, noStale⟩
  | .second => ⟨"/b".toUTF8.toList, 0, 90000, noStale⟩

theorem twoPaths_accepted (who : Session) :
    Recordable january (twoPaths who).record ∧ Storable (twoPaths who).record := by
  cases who with
  | first =>
      exact ⟨⟨by decide +kernel, by decide +kernel, by decide +kernel, by decide,
        january_inverts (by decide) (by decide)⟩,
        ⟨⟨by decide +kernel, by decide +kernel⟩, by decide +kernel⟩⟩
  | second =>
      exact ⟨⟨by decide +kernel, by decide +kernel, by decide +kernel, by decide,
        january_inverts (by decide) (by decide)⟩,
        ⟨⟨by decide +kernel, by decide +kernel⟩, by decide +kernel⟩⟩

/-- All steps of one call on a file that is present. -/
def wholeCall (who : Session) : List Session := List.replicate 6 who

/-- A full backup of another path, made before. -/
def oldRecord : Dumpdates := ⟨"/c".toUTF8.toList, 0, 40⟩

theorem oldRecord_accepted : Recordable january oldRecord ∧ Storable oldRecord :=
  ⟨⟨by decide +kernel, by decide +kernel, by decide +kernel, by decide,
    january_inverts (by decide) (by decide)⟩,
    ⟨⟨by decide +kernel, by decide +kernel⟩, by decide +kernel⟩⟩

/-- A dumpdates file with that record. -/
def oldFiles : FileSystem :=
  { emptyFiles with contents := fun _ => writeRecords january [oldRecord] }

theorem oldFiles_sound : oldFiles.Sound := { emptyFiles_sound with }

theorem oldFiles_contains : Contains january oldFiles.dateFiles [oldRecord] := by
  refine ⟨.inl rfl, fun record listed => ?_, fun record listed => ?_⟩
  · rw [List.mem_singleton.mp listed]
    exact oldRecord_accepted.1
  · rw [List.mem_singleton.mp listed]
    exact oldRecord_accepted.2

/-- One call after the other: both records are there, and the old one. -/
theorem puts_kept_inTurn :
    ∃ state, (twoPuts january twoPaths oldFiles).ReachableBy Undisturbed state ∧
      (∀ who, (twoPaths who).record ∈ fileRecords january noStale state.files.dateFiles) ∧
      oldRecord ∈ fileRecords january noStale state.files.dateFiles := by
  have ends : ((twoPuts january twoPaths oldFiles).run Undisturbed
      ⟨oldFiles, fun _ => .called, fun _ => false⟩
      (wholeCall .first ++ wholeCall .second)).map
        (fun state => ((state.progress .first).done, (state.progress .second).done)) =
      some (true, true) := by
    decide +kernel
  obtain ⟨state, ran, both⟩ := Option.map_eq_some_iff.mp ends
  have reached : (twoPuts january twoPaths oldFiles).ReachableBy Undisturbed state :=
    System.ReachableBy.run (.init rfl) ran
  have done : ∀ who, (state.progress who).done = true := by
    intro who
    cases who with
    | first => exact congrArg Prod.fst both
    | second => exact congrArg Prod.snd both
  obtain ⟨put, kept⟩ := puts_kept oldFiles_sound oldFiles_contains
    (fun who => (twoPaths_accepted who).1) (fun who => (twoPaths_accepted who).2)
    (by decide +kernel) reached done noStale
  refine ⟨state, reached, put, kept oldRecord List.mem_cons_self fun who => ?_⟩
  cases who <;> decide +kernel

/-- The second call runs whole between the first one's read and its rename. -/
def crossedCalls : List Session := [.first, .first] ++ wholeCall .second ++ List.replicate 4 .first

/-- When a session reads the file before the other one replaces it, and replaces it
afterwards, the other's date is lost. -/
theorem put_lost :
    (∀ who, Recordable january (twoPaths who).record ∧ Storable (twoPaths who).record) ∧
      (twoPaths .first).key ≠ (twoPaths .second).key ∧
      ∃ state, (twoPuts january twoPaths emptyFiles).Reachable state ∧
        (∀ who, (state.progress who).done = true) ∧
        (twoPaths .second).record ∉ fileRecords january noStale state.files.dateFiles := by
  refine ⟨twoPaths_accepted, by decide +kernel, ?_⟩
  have ends : ((twoPuts january twoPaths emptyFiles).run (fun _ _ => True)
      ⟨emptyFiles, fun _ => .called, fun _ => false⟩ crossedCalls).map
        (fun state => ((state.progress .first).done, (state.progress .second).done,
          state.files.dateFiles.dumpdates)) =
      some (true, true, some (writeRecords january [(twoPaths .first).record])) := by
    decide +kernel
  obtain ⟨state, ran, observed⟩ := Option.map_eq_some_iff.mp ends
  refine ⟨state, System.ReachableBy.run (.init rfl) ran, ?_, ?_⟩
  · intro who
    cases who with
    | first => exact congrArg Prod.fst observed
    | second => exact congrArg (fun seen => seen.2.1) observed
  · have contains : Contains january state.files.dateFiles [(twoPaths .first).record] := by
      refine ⟨.inl (congrArg (fun seen => seen.2.2) observed), ?_, ?_⟩
      · intro record listed
        rw [List.mem_singleton.mp listed]
        exact (twoPaths_accepted .first).1
      · intro record listed
        rw [List.mem_singleton.mp listed]
        exact (twoPaths_accepted .first).2
    rw [contains.fileRecords noStale]
    decide +kernel

end Dumpdates

end Ndmpd
