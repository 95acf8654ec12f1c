import Ndmpd.Foundation.ChainStack
import Ndmpd.Tlm.AclTexts

/-!
# When directories get their attributes

The attributes of a directory wait on a stack until a later path does not contain the
name of the directory. Along a run the directories on the stack are nested, so that each
one is popped by the first directory or regular file whose path does not contain its name
(`takeWhile_staysAbove`), after that has been made. A backup names its directories `dir/.`,
which most paths inside do not contain: whether something inside is still made behind that
is a question of the paths alone (`directoryAttributes_last_iff`).
-/

namespace Ndmpd

open Foundation

namespace RestoreWriter

/-! ## The names on the stack -/

/-- The names of the directories that wait for their attributes. -/
def dirNames (writer : RestoreWriter) : List CString := writer.dtree.map Prod.fst

/-- The names that are left behind a record. -/
def RecordCall.namesAfter (args : RestoreArgs) (dirs : List CString) (call : RecordCall) :
    List CString :=
  (call.effect args).pushed.toList ++
    dirs.filter (stays (fun dir path : CString => dir <:+: path) (call.effect args).popUntil)

variable {writer : RestoreWriter} {args : RestoreArgs}

theorem RecordEffect.pops_eq (effect : RecordEffect) (dir : CString × TlmAcls) :
    effect.pops dir = !stays (fun dir path : CString => dir <:+: path) effect.popUntil dir.1 := by
  unfold RecordEffect.pops stays
  cases effect.popUntil with
  | none => rfl
  | some path => exact decide_not

theorem map_dropWhile_pops (effect : RecordEffect) (dirs : List (CString × TlmAcls)) :
    (dirs.dropWhile effect.pops).map Prod.fst =
      popUntil (fun dir path : CString => dir <:+: path) effect.popUntil (dirs.map Prod.fst) := by
  rw [popUntil, List.dropWhile_map]
  have same : effect.pops = (fun name => !stays (fun dir path : CString => dir <:+: path)
      effect.popUntil name) ∘ Prod.fst := funext effect.pops_eq
  rw [same]

/-- A directory is pushed when what it is not inside of has been popped. -/
theorem effect_pushed {call : RecordCall} {path : CString}
    (pushed : (call.effect args).pushed = some path) : (call.effect args).popUntil = some path := by
  unfold RecordCall.effect at pushed ⊢
  split at pushed
  · cases pushed
  · cases pushed
  · cases pushed
  · split at pushed
    · cases pushed
    · split at pushed
      · cases pushed
      · next notParent =>
          cases pushed
          rw [if_neg notParent]
  · cases pushed
  · cases pushed
  · cases pushed

theorem restoreRecord_dtree (args : RestoreArgs) (call : RecordCall) :
    (call.writer.restoreRecord args call.linkflag call.fileSize call.record).dtree =
      ((call.effect args).pushed.toList.map fun path => (path, call.writer.acls)) ++
        call.writer.dtree.dropWhile (call.effect args).pops := by
  by_cases isAcl : call.kind = .acl
  · have carried := restoreRecord_kind args call
    rw [isAcl] at carried
    rw [show _ = _ from carried, (loadAclInfo_frame call.writer call.fileSize).2, RecordCall.effect,
      isAcl]
    cases call.writer.dtree with
    | nil => rfl
    | cons dir dirs => rfl
  · exact (restoreRecord_effect args isAcl).dtree

theorem restoreRecord_names (args : RestoreArgs) (call : RecordCall)
    (nested : Nested (fun dir path : CString => dir <:+: path) call.writer.dirNames) :
    (call.writer.restoreRecord args call.linkflag call.fileSize call.record).dirNames =
        call.namesAfter args call.writer.dirNames ∧
      Nested (fun dir path : CString => dir <:+: path)
        (call.writer.restoreRecord args call.linkflag call.fileSize call.record).dirNames := by
  have shape : (call.writer.restoreRecord args call.linkflag call.fileSize call.record).dirNames =
      (call.effect args).pushed.toList ++ popUntil (fun dir path : CString => dir <:+: path)
        (call.effect args).popUntil call.writer.dirNames := by
    unfold dirNames
    rw [restoreRecord_dtree, List.map_append, map_dropWhile_pops, List.map_map]
    exact congrArg (· ++ _) (List.map_id _)
  constructor
  · rw [shape, popUntil_eq_filter nested, RecordCall.namesAfter]
  · rw [shape]
    cases pushed : (call.effect args).pushed with
    | none => exact nested.pop _
    | some path =>
        rw [effect_pushed pushed]
        exact nested.push path

/-! ## Along a run -/

theorem nextRecord_dtree {call : RecordCall} (next : nextRecord writer = some call) :
    call.writer.dtree = writer.dtree := by
  obtain ⟨blocks, acls, aclSpot, lastAction, multiVolume, same, -⟩ := nextRecord_frame next
  rw [same]

/-- A run up to one of its records, and behind it. -/
theorem runRecords_split (rounds : Nat) (writer : RestoreWriter)
    (nested : Nested (fun dir path : CString => dir <:+: path) writer.dirNames)
    {before behind : List RecordCall} {call : RecordCall}
    (split : runRecords args rounds writer = before ++ call :: behind) :
    call.writer.dirNames = before.foldl (RecordCall.namesAfter args) writer.dirNames ∧
      Nested (fun dir path : CString => dir <:+: path) call.writer.dirNames ∧
      ∃ left, behind = runRecords args left
        (call.writer.restoreRecord args call.linkflag call.fileSize call.record) := by
  induction rounds generalizing writer before with
  | zero =>
      unfold runRecords at split
      cases before with
      | nil => cases split
      | cons first before => cases split
  | succ rounds ih =>
      unfold runRecords at split
      by_cases stopped : writer.tcWriterStop = true
      · rw [if_pos stopped] at split
        cases before with
        | nil => cases split
        | cons first before => cases split
      · rw [if_neg stopped] at split
        cases next : writer.nextRecord with
        | none =>
            obtain ⟨blocks, stop, rv, same⟩ := @tarGetdirStep_frame_of_none writer args next
            rw [next, Option.toList_none, List.nil_append] at split
            have names : (writer.tarGetdirStep args).dirNames = writer.dirNames := by
              rw [same]
              rfl
            rw [← names] at nested ⊢
            exact ih _ nested split
        | some first =>
            have names : first.writer.dirNames = writer.dirNames :=
              congrArg (List.map Prod.fst) (nextRecord_dtree next)
            rw [next, Option.toList_some, List.singleton_append,
              tarGetdirStep_of_record next] at split
            rw [← names] at nested ⊢
            cases before with
            | nil =>
                cases split
                exact ⟨rfl, nested, rounds, rfl⟩
            | cons first_ before =>
                rw [List.cons_append] at split
                obtain ⟨same, rest⟩ := List.cons.inj split
                subst same
                obtain ⟨onward, keeps⟩ := restoreRecord_names args first nested
                rw [List.foldl_cons, ← onward]
                exact ih _ keeps rest

/-- Whether the directory above `height` others is still on the stack behind a record. -/
def RecordCall.staysAbove (args : RestoreArgs) (height : Nat) (call : RecordCall) : Bool :=
  decide (height < (call.writer.dtree.dropWhile (call.effect args).pops).length)

/-- A directory stays on the stack as long as the paths contain its name. -/
theorem takeWhile_staysAbove (rounds : Nat) (writer : RestoreWriter) {upper lower : List CString}
    {dir : CString} (names : writer.dirNames = upper ++ dir :: lower)
    (nested : Nested (fun dir path : CString => dir <:+: path) writer.dirNames) :
    (runRecords args rounds writer).takeWhile (RecordCall.staysAbove args lower.length) =
      (runRecords args rounds writer).takeWhile fun call =>
        stays (fun dir path : CString => dir <:+: path) (call.effect args).popUntil dir := by
  induction rounds generalizing writer upper with
  | zero => rfl
  | succ rounds ih =>
      unfold runRecords
      by_cases stopped : writer.tcWriterStop = true
      · rw [if_pos stopped]
        rfl
      · rw [if_neg stopped]
        cases next : writer.nextRecord with
        | none =>
            obtain ⟨blocks, stop, rv, same⟩ := @tarGetdirStep_frame_of_none writer args next
            have kept : (writer.tarGetdirStep args).dirNames = writer.dirNames := by
              rw [same]
              rfl
            rw [Option.toList_none, List.nil_append]
            rw [← kept] at names nested
            exact ih _ names nested
        | some call =>
            have kept : call.writer.dirNames = writer.dirNames :=
              congrArg (List.map Prod.fst) (nextRecord_dtree next)
            rw [← kept] at names nested
            have above : call.staysAbove args lower.length =
                stays (fun dir path : CString => dir <:+: path) (call.effect args).popUntil
                  dir := by
              have length := congrArg List.length
                (map_dropWhile_pops (call.effect args) call.writer.dtree)
              rw [List.length_map] at length
              rw [names] at nested
              apply Bool.eq_iff_iff.mpr
              rw [RecordCall.staysAbove, decide_eq_true_eq, length,
                show call.writer.dtree.map Prod.fst = upper ++ dir :: lower from names]
              exact lt_length_popUntil_iff nested _
            rw [Option.toList_some, List.singleton_append, List.takeWhile_cons, List.takeWhile_cons,
              above]
            cases keeps : stays (fun dir path : CString => dir <:+: path)
                (call.effect args).popUntil dir with
            | false => rfl
            | true =>
                obtain ⟨onward, further⟩ := restoreRecord_names args call nested
                rw [tarGetdirStep_of_record next]
                rw [if_pos rfl, if_pos rfl]
                have upward : (call.writer.restoreRecord args call.linkflag call.fileSize
                    call.record).dirNames = ((call.effect args).pushed.toList ++ upper.filter
                      (stays (fun dir path : CString => dir <:+: path)
                        (call.effect args).popUntil)) ++ dir :: lower := by
                  rw [names] at nested onward
                  rw [onward, RecordCall.namesAfter, ← popUntil_eq_filter nested,
                    popUntil_of_stays nested keeps, List.append_assoc]
                exact congrArg (call :: ·) (ih _ upward further)

/-! ## Entries inside a directory -/

/-- The name of an entry in the archive. Records of other kinds are no entries. -/
def RecordCall.entryName (call : RecordCall) : Option CString :=
  match call.kind with
  | .regularFile _ => some (call.writer.regularName call.record).string
  | .acl => none
  | .other => none
  | _ => some (call.writer.fileName call.record)

/-- What the names inside a directory begin with. A backup names a directory `dir/.`. -/
def namePrefix (dir : CString) : CString :=
  if [slash, 46] <:+ dir then dir.dropLast else dir ++ [slash]

/-- The records behind a directory up to the first entry outside it. -/
def RecordCall.insideRun (dir : RecordCall) (behind : List RecordCall) : List RecordCall :=
  behind.takeWhile fun call => call.entryName.all fun name =>
    dir.entryName.any fun dir => decide (namePrefix dir <+: name)

/-- Nothing inside a directory is made behind the first record for which it does not stay. -/
def MadeBefore (args : RestoreArgs) (staying : RecordCall → Bool) (dir : RecordCall)
    (behind : List RecordCall) : Prop :=
  ∀ call ∈ (dir.insideRun behind).drop ((behind.takeWhile staying).length + 1),
    (call.effect args).made = none

/-- A restored directory is popped when everything inside it has been made. -/
def AppliedLast (args : RestoreArgs) (dir : RecordCall) (behind : List RecordCall) : Prop :=
  (dir.effect args).pushed.isSome → MadeBefore args
    (RecordCall.staysAbove args (dir.writer.dtree.dropWhile (dir.effect args).pops).length) dir
      behind

/-- Nothing inside a restored directory is made behind the first regular file or directory
with a path that does not contain the path of the directory. -/
def NamedLast (args : RestoreArgs) (dir : RecordCall) (behind : List RecordCall) : Prop :=
  ∀ path, (dir.effect args).pushed = some path → MadeBefore args
    (fun call => stays (fun dir path : CString => dir <:+: path) (call.effect args).popUntil path)
      dir behind

/-- The directory at which a restored directory stops popping is one that its path begins
with. -/
def StopsAtPrefix (args : RestoreArgs) (dir : RecordCall) : Prop :=
  ∀ path, (dir.effect args).pushed = some path →
    ∀ around ∈ (dir.writer.dtree.dropWhile (dir.effect args).pops).head?, around.1 <+: path

/-- The innermost directory that the path of a restored directory contains is one that it
begins with. -/
def NamedAtPrefix (args : RestoreArgs) (before : List RecordCall) (dir : RecordCall) : Prop :=
  ∀ path, (dir.effect args).pushed = some path →
    ∀ around ∈ (before.foldl (RecordCall.namesAfter args) []).find?
      (fun around => around <:+: path), around <+: path

variable {before behind : List RecordCall} {dir : RecordCall}

theorem appliedLast_iff {rounds : Nat}
    (split : runRecords args rounds writer = before ++ dir :: behind)
    (nested : Nested (fun dir path : CString => dir <:+: path) writer.dirNames) :
    AppliedLast args dir behind ↔ NamedLast args dir behind := by
  obtain ⟨-, around, left, rest⟩ := runRecords_split rounds writer nested split
  unfold AppliedLast NamedLast
  cases pushed : (dir.effect args).pushed with
  | none => exact iff_of_true nofun nofun
  | some path =>
      obtain ⟨-, further⟩ := restoreRecord_names args dir around
      have names : (dir.writer.restoreRecord args dir.linkflag dir.fileSize dir.record).dirNames =
          [] ++ path :: (dir.writer.dtree.dropWhile (dir.effect args).pops).map Prod.fst := by
        rw [dirNames, restoreRecord_dtree, pushed]
        rfl
      have same := @takeWhile_staysAbove args left _ _ _ path names further
      rw [← rest, List.length_map] at same
      unfold MadeBefore
      rw [same]
      constructor
      · intro last path_ isPath
        cases isPath
        exact last rfl
      · intro last _
        exact last path rfl

theorem stopsAtPrefix_iff {rounds : Nat}
    (split : runRecords args rounds writer = before ++ dir :: behind) (empty : writer.dtree = []) :
    StopsAtPrefix args dir ↔ NamedAtPrefix args before dir := by
  have none_ : writer.dirNames = [] := congrArg (List.map Prod.fst) empty
  have nested : Nested (fun dir path : CString => dir <:+: path) writer.dirNames := by
    rw [none_]
    exact .nil
  obtain ⟨names, around, -⟩ := runRecords_split rounds writer nested split
  rw [none_] at names
  refine forall_congr' fun path => forall_congr' fun pushed => ?_
  have top : ((dir.writer.dtree.dropWhile (dir.effect args).pops).head?).map Prod.fst =
      (before.foldl (RecordCall.namesAfter args) []).find? (fun around => around <:+: path) := by
    rw [← List.head?_map, map_dropWhile_pops, effect_pushed pushed]
    change (popUntil _ _ dir.writer.dirNames).head? = _
    rw [popUntil_eq_filter around, List.head?_filter, names]
    rfl
  rw [← top]
  cases (dir.writer.dtree.dropWhile (dir.effect args).pops).head? with
  | none =>
      constructor
      · intro _ name isName
        cases isName
      · intro _ found isFound
        cases isFound
  | some found =>
      constructor
      · intro begins name isName
        cases isName
        exact begins found rfl
      · intro begins found_ isFound
        cases isFound
        exact begins found.1 rfl

/-! ## Attributes of directories -/

theorem applications_attributes (args : RestoreArgs) (texts : AclTexts) (calls : List RecordCall) :
    ((applications args texts calls).map fun applied => (applied.path, applied.acls)) =
      calls.flatMap fun call => (call.effect args).targets.map fun path =>
        (path, call.writer.acls) := by
  induction calls generalizing texts with
  | nil => rfl
  | cons call calls ih =>
      rw [applications, List.map_append, List.map_map, List.flatMap_cons, ih]
      rfl

/-- Whatever the stream is: a directory that is popped gets its attributes behind what its
round makes, and every restored directory gets them once. All are popped behind the entries
inside them, and none stops popping in the middle of its path, exactly if no entry is made
behind the first regular file or directory with a path that does not contain the path of
the directory around it, and the directories are found at the beginnings of the paths. -/
theorem directoryAttributes_last_iff (args : RestoreArgs) (blocks : List ReadBlock)
    (hardlinkQ : HardlinkQ) (io : RestoreIo) (rounds : Nat) :
    let calls := runRecords args rounds (start args blocks hardlinkQ io)
    (∀ call ∈ calls, call.kind ≠ .acl → (call.effect args).Done call.writer
        (call.writer.restoreRecord args call.linkflag call.fileSize call.record)) ∧
      ((tarGetdir args blocks hardlinkQ io rounds).ops.filterMap RestoreOp.applied).Perm
        (calls.flatMap fun call =>
          (call.effect args).targets.map fun path => (path, call.writer.acls)) ∧
      ((∀ before dir behind, calls = before ++ dir :: behind →
          AppliedLast args dir behind ∧ StopsAtPrefix args dir) ↔
        ∀ before dir behind, calls = before ++ dir :: behind →
          NamedLast args dir behind ∧ NamedAtPrefix args before dir) := by
  intro calls
  refine ⟨fun call _ noAcl => restoreRecord_effect args noAcl, ?_, ?_⟩
  · have assigned :=
      tarGetdirLoop_assigned args rounds (start args blocks hardlinkQ io) ⟨none, none⟩
    rw [applications_attributes] at assigned
    unfold tarGetdir
    rw [tearDown_applied]
    exact assigned
  · refine forall_congr' fun before => forall_congr' fun dir => forall_congr' fun behind =>
      forall_congr' fun split => and_congr ?_ ?_
    · exact appliedLast_iff split .nil
    · exact stopsAtPrefix_iff split rfl

/-- A directory with its name in a backup, a file and a symbolic link. -/
def fileThenLink : List SourceEntry :=
  [.directory [slash, 97, slash, 46] ⟨.directory, 0o755, 2, 5, 0, 0, 4096, 0, 0⟩ none,
    .regularFile (entryOf [102] .regular 3) (.ofContents [1, 2, 3]) [1, 2, 3],
    .symbolicLink (entryOf [108] .symbolicLink 1) (.ofContents [102]) [102]]

theorem fileThenLink_length : (someArchive fileThenLink).length = 2048 := by
  decide +kernel

/-- The directory gets its attributes behind the file, and the link is made behind that. -/
theorem attributes_beforeLink :
    ∃ blocks, bytesOf blocks = someArchive fileThenLink ∧
      (let ops := (tarGetdir restoreArgs blocks [] ⟨[], [], []⟩ 6).ops
      ∃ applied made : Nat, applied < made ∧
        ((ops[applied]?.bind RestoreOp.applied).map Prod.fst = some (some [slash, 97, slash, 46]) ∧
          ops[made]?.bind RestoreOp.created = some [slash, 97, slash, 108])) := by
  refine ⟨[someBlock fileThenLink (by rw [fileThenLink_length]; decide)], ?_, 5, 6, by decide, ?_⟩
  · rw [bytesOf_someBlock, List.append_nil]
  · decide +kernel

end RestoreWriter

end Ndmpd
