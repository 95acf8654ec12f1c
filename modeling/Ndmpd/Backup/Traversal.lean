import Mathlib.Data.List.DropRight
import Ndmpd.Dates.LevelBackups
import Ndmpd.Foundation.Progress
import Ndmpd.Tlm.BackupReader
import Ndmpd.Tlm.Selection

/-!
# Walking a directory tree

`traverse_level` opens a directory, passes what `readdir` lists to a callback and walks the
directories among it when the listing is over, the one listed last first. `timebk_v3` is
the callback of a level backup. It answers `FST_SKIP` for an excluded directory and for a
path that is too long, which the traversal takes for an error.

The walk reports what it gets done as `Mark`s: a directory read to its end, an object put
into the stream. `readLoop_does` says which marks are owed, and that all of them are made
exactly when every step goes well.
-/

namespace Ndmpd

open Foundation

/-! ## The callback -/

/-- What `tlm_output_file` makes of an object: its result, and whether the header and all
of the data have been put into the stream. -/
structure PutReport where
  rv : Int
  whole : Bool
  deriving DecidableEq, Repr

/-- The object has been put into the stream and no error was returned. -/
def PutReport.succeeded (put : PutReport) : Bool := 0 ≤ put.rv ∧ put.whole

/-- What the callback meets at an object: the `struct stat` that the traversal passes on,
whether `lstat` finds the object once more, and what becomes of it. -/
structure Visit where
  stp : FileTimes
  lstats : Bool
  put : PutReport
  deriving DecidableEq, Repr

/-- What `bk_param_v3_t` holds for the callback. -/
structure BkParam where
  levelbk : Bool
  nlp : LevelParams
  nlpExl : List CString
  nlpInc : Option (List CString)
  ndmpForceBkDirs : Bool
  deriving DecidableEq, Repr

/-- `FST_SKIP`. -/
abbrev fstSkip : Int := 1

/-- `tlm_is_excluded`. The patterns start with `d_` for the directory or with two other
bytes for the name. -/
def tlmIsExcluded (dir name : CString) (excles : List CString) : Bool :=
  excles.any fun pattern =>
    if [100, 95].isPrefixOf pattern then globMatch (pattern.drop 2) dir
    else globMatch (pattern.drop 2) name

/-- `inlist`. -/
def inlist (lpp : List CString) (ent : CString) : Bool :=
  lpp.any fun pattern =>
    globMatch (if [46, 47].isPrefixOf pattern then pattern.drop 2 else pattern) ent

/-- `ininc`. -/
def ininc (lpp : Option (List CString)) (ent : CString) : Bool :=
  match lpp with
  | none => true
  | some lpp => if ent = [] then true else inlist lpp ent

/-- `shouldskip`, with `*errp` where the entry is to be skipped. -/
def shouldskip (bpp : BkParam) (dir ent : CString) (stp : FileTimes) : Option Int :=
  if tlmIsExcluded dir ent bpp.nlpExl then some (if stp.isDir then fstSkip else 0)
  else if ¬ stp.isDir ∧ ¬ ininc bpp.nlpInc ent then some 0
  else none

/-- `tar_putfile` with the result of `tlm_output_file`, which goes through an `int`. -/
def tarPutfile (put : PutReport) : Int :=
  let rv := put.rv.bmod (2 ^ 32)
  if rv < 0 then rv else 0

/-- `backup_dirv3`, and whether the directory has been put into the stream. -/
def backupDirv3 (visit : Visit) : Int × Bool :=
  if ¬ visit.lstats then (0, false) else (0, true)

/-- `backup_filev3`, and whether the file has been put into the stream. -/
def backupFilev3 (visit : Visit) : Int × Bool :=
  if ¬ visit.lstats then (0, false)
  else
    let rv := tarPutfile visit.put
    (if rv < 0 then rv else 0, visit.put.succeeded)

/-- `timebk_v3`, and whether the object has been put into the stream. `dropped` says that
the connection is closed or the backup aborted. -/
def timebkV3 (bpp : BkParam) (dropped : Bool) (dir ent : CString) (visit : Visit) :
    Int × Bool :=
  -- `check_bk_args`
  if dropped then (-1, false)
  else
    match shouldskip bpp dir ent visit.stp with
    | some rv => (rv, false)
    | none =>
        if tlmCatPath dir ent = none then (fstSkip, false)
        else if ¬ bpp.levelbk then (-1, false)
        else
          let changed := ischngd bpp.ndmpForceBkDirs visit.stp bpp.nlp.nlpLdate bpp.nlp
          if visit.stp.isDir then
            if changed then backupDirv3 visit else (0, false)
          -- `iscreated` never selects a file; the result of `backup_filev3` is dropped
          else if changed then (0, (backupFilev3 visit).2)
          else (0, false)

/-- What the callback takes on can be put into the stream: the path is not too long,
`lstat` finds the object again, and a file is put there whole. -/
def canBePut (dir ent : CString) (visit : Visit) : Bool :=
  tlmCatPath dir ent ≠ none ∧ visit.lstats ∧ (visit.stp.isDir ∨ visit.put.succeeded)

namespace BkParam

variable (bpp : BkParam)

/-- The object is selected for the backup. -/
def selects (dir ent : CString) (visit : Visit) : Bool :=
  (shouldskip bpp dir ent visit.stp).isNone ∧
    ischngd bpp.ndmpForceBkDirs visit.stp bpp.nlp.nlpLdate bpp.nlp

/-- The callback answers `FST_SKIP`: for an excluded directory, and for what is not to be
skipped but has a path that is too long. -/
def skips (dir ent : CString) (visit : Visit) : Bool :=
  match shouldskip bpp dir ent visit.stp with
  | some rv => rv ≠ 0
  | none => tlmCatPath dir ent = none

end BkParam

/-- A level backup puts an object into the stream exactly where it is selected and can be
put. -/
theorem timebkV3_put {bpp : BkParam} (level : bpp.levelbk = true) (dir ent : CString)
    (visit : Visit) :
    (timebkV3 bpp false dir ent visit).2 =
      (bpp.selects dir ent visit && canBePut dir ent visit) := by
  unfold timebkV3 BkParam.selects canBePut
  rw [if_neg Bool.false_ne_true]
  cases shouldskip bpp dir ent visit.stp with
  | some rv => rfl
  | none =>
      by_cases long : tlmCatPath dir ent = none
      · simp only [long, if_true, ne_eq, not_true_eq_false, false_and, decide_false,
          Bool.and_false]
      · simp only [long, level, not_true_eq_false, if_false, ne_eq, not_false_eq_true,
          true_and, Option.isNone_none]
        cases ischngd bpp.ndmpForceBkDirs visit.stp bpp.nlp.nlpLdate bpp.nlp with
        | false => simp
        | true =>
            cases isDir : visit.stp.isDir with
            | true => cases again : visit.lstats <;> simp [backupDirv3, again]
            | false => cases again : visit.lstats <;> simp [backupFilev3, again]

/-- The callback of a level backup returns 0 unless it skips. -/
theorem timebkV3_rv {bpp : BkParam} (level : bpp.levelbk = true) (dir ent : CString)
    (visit : Visit) :
    (timebkV3 bpp false dir ent visit).1 ≠ 0 ↔ bpp.skips dir ent visit = true := by
  unfold timebkV3 BkParam.skips
  rw [if_neg Bool.false_ne_true]
  cases shouldskip bpp dir ent visit.stp with
  | some rv => simp
  | none =>
      by_cases long : tlmCatPath dir ent = none
      · simp [long]
      · simp only [level, not_true_eq_false, if_false, long, decide_false, Bool.false_eq_true,
          iff_false, not_not]
        cases ischngd bpp.ndmpForceBkDirs visit.stp bpp.nlp.nlpLdate bpp.nlp with
        | false => simp
        | true =>
            cases isDir : visit.stp.isDir with
            | true => cases again : visit.lstats <;> simp [backupDirv3, again]
            | false => simp

/-! ## The traversal -/

/-- What `readdir` lists of a directory, up to the `NULL` that it returns at the end or
for an error. For every entry, what the callback meets there and, should it be a
directory, whether it can be opened and what it lists. -/
inductive Listing where
  | nil (complete : Bool)
  | entry (name : CString) (visit : Visit) (opens : Bool) (inner rest : Listing)
  deriving Repr

/-- Nothing more is listed. -/
def Listing.atEnd : Listing → Bool
  | .nil _ => true
  | .entry .. => false

/-- What gets done in a traversal. -/
inductive Mark where
  | directory (path : CString)
  | object (dir name : CString)
  deriving DecidableEq, Repr

/-- The names of a directory itself and of its parent. -/
abbrev dotName : CString := [46]
abbrev dotdotName : CString := [46, 46]

/-- The path of an entry, as `traverse_level` prints it. -/
def entryPath (path name : CString) : CString := path ++ slash :: name

/-- The path of a directory without the slashes at its end. -/
def trimmedPath (path : CString) : CString := path.rdropWhile (· = slash)

section Traversal

variable (stop : Nat → Bool) (stopOnError : Bool)
  (callbk : Nat → CString → CString → Visit → Int × Bool)

/-- The head of `traverse_level`: the order to stop, and `opendir`. -/
def enterDirectory (opens : Bool) (inside : Progress Mark → Progress Mark)
    (walk : Progress Mark) : Int × Progress Mark :=
  if stop walk.looks then (-1, walk.look)
  else if ¬ opens then (-1, walk.look)
  else (0, inside walk.look)

/-- One call of the callback. -/
def callBack (path name : CString) (visit : Visit) (walk : Progress Mark) :
    Bool × Progress Mark :=
  let (rv, put) := callbk walk.looks path name visit
  (rv ≠ 0, if put then walk.look.note (.object path name) else walk.look)

/-- The rest of `traverse_level`, from an entry of the listing on. A directory is pushed
onto the stack: what follows it in the listing comes first, and the directories that are
pushed later are popped before it. The result of walking it is dropped. -/
def readLoop : CString → Listing → Bool → Progress Mark → Progress Mark
  | path, .nil complete, _, walk => if complete then walk.note (.directory path) else walk
  | path, .entry name visit opens inner rest, error, walk =>
      if stop walk.looks then walk.look
      else if stopOnError ∧ error then walk.look
      else if name = dotdotName then readLoop path rest error walk.look
      else if name = dotName then
        let (failed, walk) := callBack callbk path name visit walk
        readLoop path rest (error || failed) walk
      else if visit.stp.isDir then
        let walk := readLoop path rest error walk.look
        (enterDirectory stop opens
          (readLoop (trimmedPath (entryPath path name)) inner false) walk).2
      else
        let (failed, walk) := callBack callbk path name visit walk
        readLoop path rest (error || failed) walk

/-- `traverse_level`. -/
def traverseLevel (path : CString) (opens : Bool) (listing : Listing) (walk : Progress Mark) :
    Int × Progress Mark :=
  enterDirectory stop opens (readLoop stop stopOnError callbk (trimmedPath path) listing false)
    walk

end Traversal

/-- Whether an entry of a listing is walked as a directory. -/
def Visit.walked (visit : Visit) (name : CString) : Bool :=
  name ≠ dotdotName ∧ name ≠ dotName ∧ visit.stp.isDir

namespace Listing

variable (wants puts skips : CString → CString → Visit → Bool)

/-- What a traversal is to get done: every directory is to be read, and every object that
is wanted is to be put. -/
def owed : CString → Listing → List Mark
  | path, .nil _ => [.directory path]
  | path, .entry name visit _ inner rest =>
      (if name = dotdotName then []
        else if visit.walked name then owed (trimmedPath (entryPath path name)) inner
        else if wants path name visit then [.object path name] else []) ++
      owed path rest

/-- How often a whole traversal looks for the order to stop. -/
def looks : Listing → Nat
  | .nil _ => 0
  | .entry name visit _ inner rest =>
      1 + (if visit.walked name then 1 + inner.looks else 0) + rest.looks

/-- Everything goes well below a directory that has been opened: `readdir` gets to the end
of every listing, every directory opens, what is wanted can be put, and an answer other
than 0 comes at the end of a listing only. -/
def GoesWell : CString → Listing → Prop
  | _, .nil complete => complete = true
  | path, .entry name visit opens inner rest =>
      (if name = dotdotName then True
        else if visit.walked name then
          opens = true ∧ GoesWell (trimmedPath (entryPath path name)) inner
        else (wants path name visit = true → puts path name visit = true) ∧
          (skips path name visit = true → rest.atEnd = true)) ∧
      GoesWell path rest

/-- The directory itself is always owed. -/
theorem directory_mem_owed (path : CString) (listing : Listing) :
    Mark.directory path ∈ listing.owed wants path := by
  induction listing with
  | nil complete => exact List.mem_singleton_self _
  | entry name visit opens inner rest _ rest_ih => exact List.mem_append_right _ rest_ih

end Listing

/-- The callback does the same at any time: it puts what is wanted and can be put, and
returns 0 unless it skips. -/
structure Answers (callbk : Nat → CString → CString → Visit → Int × Bool)
    (wants puts skips : CString → CString → Visit → Bool) : Prop where
  put : ∀ looks dir ent visit,
    (callbk looks dir ent visit).2 = (wants dir ent visit && puts dir ent visit)
  rv : ∀ looks dir ent visit,
    (callbk looks dir ent visit).1 ≠ 0 ↔ skips dir ent visit = true

section Walks

variable {stop : Nat → Bool} {callbk : Nat → CString → CString → Visit → Int × Bool}
  {wants puts skips : CString → CString → Visit → Bool}

/-- What a directory owes gets done if it can be opened and the rest goes well. -/
theorem enterDirectory_does (opens : Bool) {inside : Progress Mark → Progress Mark}
    {walk : Progress Mark} {owed : List Mark} {count : Nat} {well : Prop} (owes : owed ≠ [])
    (does : Does stop walk.look (inside walk.look) owed count well) :
    Does stop walk (enterDirectory stop opens inside walk).2 owed (1 + count)
      (opens = true ∧ well) := by
  unfold enterDirectory
  by_cases stopped : stop walk.looks = true
  · rw [if_pos stopped]
    exact Does.stopped stopped owes
  · rw [if_neg stopped]
    cases opens with
    | false => exact Does.undone rfl owes fun both => Bool.false_ne_true both.1.1
    | true =>
        have looked := Does.look (Bool.eq_false_iff.mpr stopped)
        exact (looked.trans does).congr (.refl _) (by simp) rfl

/-- One call of the callback puts what is wanted there. -/
theorem callBack_does (answers : Answers callbk wants puts skips) (path name : CString)
    (visit : Visit) {walk : Progress Mark} (free : stop walk.looks = false) :
    Does stop walk (callBack callbk path name visit walk).2
      (if wants path name visit then [.object path name] else []) 1
      (wants path name visit = true → puts path name visit = true) := by
  have looked := Does.look free
  change Does stop walk
    (if (callbk walk.looks path name visit).2 then walk.look.note (.object path name)
      else walk.look) _ _ _
  rw [answers.put]
  cases wants path name visit with
  | false => exact looked.congr (.refl _) (by simp) rfl
  | true =>
      have put := @Does.single _ stop walk.look (.object path name) (puts path name visit)
      rw [Bool.true_and, if_pos rfl]
      exact (looked.trans put).congr (.refl _) (by simp) rfl

theorem callBack_failed (answers : Answers callbk wants puts skips) (path name : CString)
    (visit : Visit) (walk : Progress Mark) :
    (callBack callbk path name visit walk).1 = skips path name visit := by
  change decide ((callbk walk.looks path name visit).1 ≠ 0) = _
  rw [Bool.eq_iff_iff, decide_eq_true_iff]
  exact answers.rv _ _ _ _

/-- From an entry of a listing on, a traversal that stops on errors does all that is owed
exactly if everything goes well and no error comes before the end. -/
theorem readLoop_does (answers : Answers callbk wants puts skips) (listing : Listing) :
    ∀ (path : CString) (error : Bool) (walk : Progress Mark),
      Does stop walk (readLoop stop true callbk path listing error walk)
        (listing.owed wants path) listing.looks
        (listing.GoesWell wants puts skips path ∧ (error = true → listing.atEnd = true)) := by
  induction listing with
  | nil complete =>
      intro path error walk
      have does := @Does.single _ stop walk (.directory path) complete
      exact does.congr (.refl _) (by simp [Listing.GoesWell, Listing.atEnd]) rfl
  | entry name visit opens inner rest inner_ih rest_ih =>
      intro path error walk
      have owes : (Listing.entry name visit opens inner rest).owed wants path ≠ [] :=
        List.ne_nil_of_mem (Listing.directory_mem_owed wants path _)
      rw [readLoop]
      by_cases stopped : stop walk.looks = true
      · rw [if_pos stopped, Listing.looks, Nat.add_assoc]
        exact Does.stopped stopped owes
      rw [if_neg stopped]
      have free := Bool.eq_false_iff.mpr stopped
      cases error with
      | true =>
          rw [if_pos ⟨rfl, rfl⟩]
          exact Does.undone rfl owes fun both => Bool.false_ne_true (both.1.2 rfl)
      | false =>
          rw [if_neg fun both => Bool.false_ne_true both.2]
          have ordinary : visit.walked name = false → name ≠ dotdotName →
              Does stop walk
                (readLoop stop true callbk path rest
                  (false || (callBack callbk path name visit walk).1)
                  (callBack callbk path name visit walk).2)
                ((Listing.entry name visit opens inner rest).owed wants path)
                (Listing.entry name visit opens inner rest).looks
                ((Listing.entry name visit opens inner rest).GoesWell wants puts skips path ∧
                  (false = true → (Listing.entry name visit opens inner rest).atEnd = true)) := by
            intro plain notParent
            rw [Bool.false_or, callBack_failed answers]
            have both := (callBack_does answers path name visit free).trans
              (rest_ih path (skips path name visit) _)
            refine both.congr ?_ ?_ ?_
            · rw [Listing.owed, if_neg notParent, plain, if_neg Bool.false_ne_true]
            · rw [Listing.GoesWell, if_neg notParent, plain, if_neg Bool.false_ne_true]
              simp only [Bool.false_eq_true, false_implies, and_true]
              tauto
            · rw [Listing.looks, plain, if_neg Bool.false_ne_true, Nat.add_zero]
          by_cases parent : name = dotdotName
          · rw [if_pos parent]
            have both := (Does.look free).trans (rest_ih path false walk.look)
            refine both.congr ?_ ?_ ?_
            · rw [Listing.owed, if_pos parent]
            · rw [Listing.GoesWell, if_pos parent]
              simp only [Bool.false_eq_true, false_implies, and_true]
            · have plain : visit.walked name = false := by simp [Visit.walked, parent]
              rw [Listing.looks, plain, if_neg Bool.false_ne_true, Nat.add_zero]
          rw [if_neg parent]
          by_cases itself : name = dotName
          · rw [if_pos itself]
            exact ordinary (by simp [Visit.walked, itself]) parent
          rw [if_neg itself]
          by_cases isDir : visit.stp.isDir = true
          · rw [if_pos isDir]
            have walked : visit.walked name = true := by
              simp [Visit.walked, parent, itself, isDir]
            have child := enterDirectory_does opens
              (List.ne_nil_of_mem (Listing.directory_mem_owed wants _ inner))
              (inner_ih (trimmedPath (entryPath path name)) false
                (readLoop stop true callbk path rest false walk.look).look)
            have all := ((Does.look free).trans (rest_ih path false walk.look)).trans child
            refine all.congr ?_ ?_ ?_
            · rw [Listing.owed, if_neg parent, if_pos walked, List.nil_append]
              exact List.perm_append_comm
            · rw [Listing.GoesWell, if_neg parent, if_pos walked]
              simp only [Bool.false_eq_true, false_implies, and_true]
              tauto
            · rw [Listing.looks, if_pos walked]
              omega
          · rw [if_neg isDir]
            exact ordinary (by simp [Visit.walked, isDir]) parent

/-- A whole traversal. -/
theorem traverseLevel_does (answers : Answers callbk wants puts skips) (path : CString)
    (opens : Bool) (listing : Listing) (walk : Progress Mark) :
    Does stop walk (traverseLevel stop true callbk path opens listing walk).2
      (listing.owed wants (trimmedPath path)) (1 + listing.looks)
      (opens = true ∧ listing.GoesWell wants puts skips (trimmedPath path)) := by
  have does := enterDirectory_does opens
    (List.ne_nil_of_mem (Listing.directory_mem_owed wants _ listing))
    (@readLoop_does stop _ _ _ _ answers listing (trimmedPath path) false walk.look)
  exact does.congr (.refl _) (by simp) rfl

end Walks

end Ndmpd
