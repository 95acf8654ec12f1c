import Ndmpd.Tlm.RestoreFrames

/-!
# What a record does

The operations of a round are, in this order: what the record makes and the attributes that
it applies, the attributes of the directories that it pops, and what it reports. A
directory is pushed behind that. `RecordCall.effect` says which of these there are by the
tests of the code alone, and `restoreRecord_effect` that the round does them.
-/

namespace Ndmpd

open Foundation

namespace RestoreWriter

/-! ## Records -/

/-- What a record is to `tar_getdir`: a section of a file, which may be the first link to
an inode, a link to a file that has been restored, or one of the others. -/
inductive RecordKind where
  | regularFile (hardlink : Option Nat)
  | hardLink (target : Option CString)
  | symbolicLink
  | directory
  | fifo
  | acl
  | other

namespace RecordCall

variable (args : RestoreArgs) (call : RecordCall)

/-- The case of the `switch` that a record comes to. -/
def kind : RecordKind :=
  if call.linkflag = lfMultivol then .other
  else if call.linkflag = lfLink then
    let inode := ((octAtoi (call.record.drop thHlinkInoAt)) % 2 ^ 64).toNat
    let seen := if inode = 0 then none else call.writer.hardlinkQ.hardlinkQGet inode
    match seen with
    | some node => .hardLink node.path
    | none => if call.record.head? = some 0 then .other else .regularFile (some inode)
  else if call.linkflag = lfOldnormal then
    if call.record.head? = some 0 then .other else .regularFile none
  else if call.linkflag = lfNormal ∨ call.linkflag = lfContig then .regularFile none
  else if call.linkflag = lfSymlink then .symbolicLink
  else if call.linkflag = lfDir then .directory
  else if call.linkflag = lfFifo then .fifo
  else if call.linkflag = lfLonglink ∨ call.linkflag = lfLongname then .other
  else if call.linkflag = lfAcl then .acl
  else .other

/-- What the case leaves alone in a record that is no entry and no ACL. -/
structure Bare (call : RecordCall) (next : RestoreWriter) : Prop where
  ops : next.ops = call.writer.ops
  dtree : next.dtree = call.writer.dtree
  acls : next.acls = call.writer.acls

end RecordCall

theorem getHumongusFileHeader_bare {call : RecordCall} (recsize : Int) :
    call.Bare (call.writer.getHumongusFileHeader recsize) := by
  unfold getHumongusFileHeader
  dsimp only
  generalize (if recsize = 0 then (recordSize : Int) else recsize) = size
  obtain ⟨blocks, stop, fault, kept⟩ := inputMem_frame call.writer size
  revert kept
  generalize call.writer.inputMem size = read
  intro kept
  obtain ⟨found, next⟩ := read
  dsimp only at kept
  subst kept
  cases found with
  | none => exact ⟨rfl, rfl, rfl⟩
  | some mem =>
      dsimp only
      split
      · exact ⟨rfl, rfl, rfl⟩
      · exact ⟨rfl, rfl, rfl⟩

/-- A round carries out the case that its record comes to. -/
def RecordCall.Carried (args : RestoreArgs) (call : RecordCall) (next : RestoreWriter) :
    RecordKind → Prop
  | .regularFile hardlink =>
      next = call.writer.restoreRegular args call.fileSize hardlink call.record
  | .hardLink target => next = call.writer.restoreHardLink args target call.record
  | .symbolicLink => next = call.writer.restoreSymlink args call.record
  | .directory => next = call.writer.restoreDirectory args call.record
  | .fifo => next = call.writer.restoreFifo args call.record
  | .acl => next = call.writer.loadAclInfo call.fileSize
  | .other => call.Bare next

theorem restoreLink_kind (args : RestoreArgs) {call : RecordCall}
    (isLink : call.linkflag = lfLink) :
    call.Carried args (call.writer.restoreLink args call.fileSize call.record) call.kind := by
  unfold RecordCall.kind restoreLink
  rw [if_neg (by rw [isLink]; decide), if_pos isLink]
  dsimp only
  generalize (if ((octAtoi (call.record.drop thHlinkInoAt)) % 2 ^ 64).toNat = 0 then none
    else call.writer.hardlinkQ.hardlinkQGet _) = seen
  cases seen with
  | some node => rfl
  | none =>
      dsimp only
      by_cases nul : call.record.head? = some 0
      · rw [if_pos nul, if_pos nul]
        exact ⟨rfl, rfl, rfl⟩
      · rw [if_neg nul, if_neg nul]
        rfl

theorem restoreRecord_kind (args : RestoreArgs) (call : RecordCall) :
    call.Carried args (call.writer.restoreRecord args call.linkflag call.fileSize call.record)
      call.kind := by
  unfold restoreRecord
  by_cases isMultivol : call.linkflag = lfMultivol
  · rw [RecordCall.kind, if_pos isMultivol, if_pos isMultivol]
    exact ⟨rfl, rfl, rfl⟩
  rw [if_neg isMultivol]
  by_cases isLink : call.linkflag = lfLink
  · rw [if_pos isLink]
    exact restoreLink_kind args isLink
  rw [RecordCall.kind, if_neg isMultivol, if_neg isLink, if_neg isLink]
  by_cases isOld : call.linkflag = lfOldnormal
  · rw [if_pos isOld, if_pos isOld]
    by_cases nul : call.record.head? = some 0
    · rw [if_pos nul, if_pos nul]
      exact ⟨rfl, rfl, rfl⟩
    · rw [if_neg nul, if_neg nul]
      rfl
  rw [if_neg isOld, if_neg isOld]
  by_cases isNormal : call.linkflag = lfNormal ∨ call.linkflag = lfContig
  · rw [if_pos isNormal, if_pos isNormal]
    rfl
  rw [if_neg isNormal, if_neg isNormal]
  by_cases isSymlink : call.linkflag = lfSymlink
  · rw [if_pos isSymlink, if_pos isSymlink]
    rfl
  rw [if_neg isSymlink, if_neg isSymlink]
  by_cases isDir : call.linkflag = lfDir
  · rw [if_pos isDir, if_pos isDir]
    rfl
  rw [if_neg isDir, if_neg isDir]
  by_cases isFifo : call.linkflag = lfFifo
  · rw [if_pos isFifo, if_pos isFifo]
    rfl
  rw [if_neg isFifo, if_neg isFifo]
  by_cases isLonglink : call.linkflag = lfLonglink
  · rw [if_pos isLonglink, if_pos (.inl isLonglink)]
    obtain ⟨blocks, stop, fault, same⟩ := getLongName_frame call.writer
      (longNameSize call.fileSize call.writer.lnkEnd) call.writer.longlink call.writer.lnkEnd
    dsimp only
    rw [same]
    exact ⟨rfl, rfl, rfl⟩
  rw [if_neg isLonglink]
  by_cases isLongname : call.linkflag = lfLongname
  · rw [if_pos isLongname, if_pos (.inr isLongname)]
    obtain ⟨blocks, stop, fault, same⟩ := getLongName_frame call.writer
      (longNameSize call.fileSize call.writer.nmEnd) call.writer.longname call.writer.nmEnd
    dsimp only
    rw [same]
    exact ⟨rfl, rfl, rfl⟩
  rw [if_neg isLongname, if_neg (not_or.mpr ⟨isLonglink, isLongname⟩)]
  by_cases isAcl : call.linkflag = lfAcl
  · rw [if_pos isAcl, if_pos isAcl]
    rfl
  rw [if_neg isAcl, if_neg isAcl]
  by_cases isHumongus : call.linkflag = lfHumongus
  · rw [if_pos isHumongus]
    exact getHumongusFileHeader_bare call.fileSize
  rw [if_neg isHumongus]
  exact ⟨rfl, rfl, rfl⟩

/-! ## Effects -/

/-- What a record does: the path that it makes, the path that its attributes are applied
to, the path up to which it pops directories, and the directory that it pushes. -/
structure RecordEffect where
  made : Option CString
  applied : Option (Option CString)
  popUntil : Option CString
  pushed : Option CString

namespace RecordEffect

def nothing : RecordEffect := ⟨none, none, none, none⟩

/-- An entry that is made and gets its attributes at once. -/
def entry (path : Option CString) : RecordEffect := ⟨path, path.map some, none, none⟩

/-- An entry that gets its attributes even when it could not be made. -/
def attempt (path : Option CString) (done : Bool) : RecordEffect :=
  ⟨if done then path else none, path.map some, none, none⟩

variable (effect : RecordEffect)

/-- Whether a directory is popped when it is on top. -/
def pops (dir : CString × TlmAcls) : Bool := effect.popUntil.any fun path => ¬ dir.1 <:+: path

/-- The operations of a round, the directories that are left, and the attributes. -/
structure Done (before after : RestoreWriter) : Prop where
  ops : ∃ first later, after.ops = before.ops ++ (first ++ ((before.dtree.takeWhile effect.pops).map
      fun dir => .setAcl (some dir.1) dir.2) ++ later) ∧
    RestoreOp.Amount first effect.made.toList
      (effect.applied.toList.map fun path => (path, before.acls)) ∧
    RestoreOp.Amount later [] []
  dtree : after.dtree = (effect.pushed.toList.map fun path => (path, before.acls)) ++
    before.dtree.dropWhile effect.pops
  acls : after.acls =
    if effect.pushed.isSome then .zero
    else if effect.applied.isSome then before.acls.afterSet else before.acls

end RecordEffect

namespace RecordCall

variable (args : RestoreArgs) (call : RecordCall)

/-- How an entry that is no section is selected. -/
def entryWanted : Wanted :=
  isFileWanted (call.writer.fileName call.record) args.sels args.exls args.flags call.writer.retry

/-- The path that it is restored to. -/
def entryPath : Option CString :=
  if (call.entryWanted args).found then
    args.newName (call.entryWanted args).pos (call.writer.fileName call.record)
  else none

/-- Whether the next directory or link can be made. -/
def canMake : Bool := (call.writer.io.made.head?.getD none).isNone

/-- Whether a FIFO can be made at its path. -/
def canMakeFifo : Bool :=
  (call.entryPath args).any (args.mknod (Restored.of call.writer.ops).entries)

/-- The path of a link, if it can be made. -/
def hardLinkPath (target : Option CString) : Option CString :=
  let place :=
    if (call.entryWanted args).found then
      some ((call.entryWanted args).pos, call.writer.fileName call.record)
    else if args.dar then rsDarhlNewName args.sels
    else none
  match place with
  | none => none
  | some (pos, name) =>
      match args.newName pos name, target with
      | some path, some _ => if call.canMake then some path else none
      | _, _ => none

/-- The state in which a section comes to `restore_file`. -/
def sectionStart : RestoreWriter :=
  { call.writer with
    longname := call.writer.regularName call.record, retry := (call.wanted args).retry }

/-- Whether a section is to be written. -/
def sectionFound : Bool := (call.wanted args).found && (call.path args).isSome

/-- What a record does, by the tests of its case. -/
def effect : RecordEffect :=
  match call.kind with
  | .regularFile _ =>
      { made := (call.sectionStart args).opensFile args (call.path args) (call.sectionFound args)
        applied :=
          if (call.sectionStart args).closesFile args (call.path args) call.fileSize
            (call.sectionFound args) then some (call.path args) else none
        popUntil := call.path args
        pushed := none }
  | .hardLink target => .entry (call.hardLinkPath args target)
  | .symbolicLink => .entry (if call.canMake then call.entryPath args else none)
  | .directory =>
      match call.entryPath args with
      | none => .nothing
      | some path =>
          if (call.entryWanted args).mchtype = MatchType.parent then .nothing
          else
            -- the directories are popped and pushed by what `create_directory` leaves
            let left := call.writer.createDirectory path
            ⟨if call.canMake then some path else none, none, some left, some left⟩
  | .fifo => .attempt (call.entryPath args) (call.canMakeFifo args)
  | .acl => .nothing
  | .other => .nothing

end RecordCall

/-- A round that makes nothing and changes no attributes. -/
theorem RecordEffect.Done.of_idle {before after : RestoreWriter} {idle : List RestoreOp}
    (ops : after.ops = before.ops ++ idle) (amount : RestoreOp.Amount idle [] [])
    (dtree : after.dtree = before.dtree) (acls : after.acls = before.acls) :
    RecordEffect.nothing.Done before after := by
  have none_ : before.dtree.takeWhile RecordEffect.nothing.pops = [] ∧
      before.dtree.dropWhile RecordEffect.nothing.pops = before.dtree := by
    cases before.dtree with
    | nil => exact ⟨rfl, rfl⟩
    | cons dir rest => exact ⟨rfl, rfl⟩
  refine ⟨⟨idle, [], ?_, amount, .nil⟩, ?_, acls⟩
  · rw [ops, none_.1, List.map_nil, List.append_nil, List.append_nil]
  · rw [dtree, none_.2]
    rfl

theorem RecordEffect.Done.of_bare {before after : RestoreWriter} (ops : after.ops = before.ops)
    (dtree : after.dtree = before.dtree) (acls : after.acls = before.acls) :
    RecordEffect.nothing.Done before after :=
  .of_idle (ops.trans (List.append_nil _).symm) .nil dtree acls

theorem reportRestored_frame (writer : RestoreWriter) (mchtype : MatchType) (name : CString)
    (pos : Nat) :
    ∃ effects, writer.reportRestored mchtype name pos =
      { writer with ops := writer.ops ++ effects } ∧
      RestoreOp.Amount effects [] [] := by
  unfold reportRestored
  split
  · exact ⟨[.entryRestored name pos], rfl, rfl, rfl⟩
  · exact ⟨[], by rw [List.append_nil], .nil⟩

/-- What a record tries to make, and the attributes that it applies at once. -/
theorem RecordEffect.Done.of_attempt {before after : RestoreWriter} {path : CString} {done : Bool}
    {first later : List RestoreOp}
    (ops : after.ops = before.ops ++ (first ++ .setAcl (some path) before.acls :: later))
    (made : RestoreOp.Amount first (if done then some path else none).toList [])
    (reported : RestoreOp.Amount later [] []) (dtree : after.dtree = before.dtree)
    (acls : after.acls = before.acls.afterSet) :
    (RecordEffect.attempt (some path) done).Done before after := by
  have none_ : before.dtree.takeWhile (RecordEffect.attempt (some path) done).pops = [] ∧
      before.dtree.dropWhile (RecordEffect.attempt (some path) done).pops = before.dtree := by
    cases before.dtree with
    | nil => exact ⟨rfl, rfl⟩
    | cons dir rest => exact ⟨rfl, rfl⟩
  refine ⟨⟨first ++ [.setAcl (some path) before.acls], later, ?_, ?_, reported⟩, ?_, acls⟩
  · rw [ops, none_.1, List.map_nil, List.append_nil, List.append_assoc, List.singleton_append]
  · have amount := made.append (show RestoreOp.Amount [.setAcl (some path) before.acls] []
      [(some path, before.acls)] from ⟨rfl, rfl⟩)
    rw [List.append_nil] at amount
    exact amount
  · rw [dtree, none_.2]
    rfl

/-- What is tried to be made, gets its attributes and is perhaps reported. -/
theorem RecordEffect.Done.of_made {before during : RestoreWriter} {path : CString} {done : Bool}
    {first : List RestoreOp} (ops : during.ops = before.ops ++ first)
    (made : RestoreOp.Amount first (if done then some path else none).toList [])
    (dtree : during.dtree = before.dtree) (acls : during.acls = before.acls)
    (mchtype : MatchType) (name : CString) (pos : Nat) :
    (RecordEffect.attempt (some path) done).Done before
      ((during.setOwnAcl (some path)).reportRestored mchtype name pos).resetNames := by
  obtain ⟨later, reports, reported⟩ :=
    reportRestored_frame (during.setOwnAcl (some path)) mchtype name pos
  rw [reports]
  refine .of_attempt ?_ made reported dtree (congrArg TlmAcls.afterSet acls)
  change during.ops ++ [.setAcl (some path) during.acls] ++ later = _
  rw [ops, acls, List.append_assoc, List.append_assoc]
  rfl

/-- A FIFO gets its attributes whatever `mknod(2)` says. -/
theorem restoreFifo_effect (args : RestoreArgs) (call : RecordCall) :
    (RecordEffect.attempt (call.entryPath args) (call.canMakeFifo args)).Done call.writer
      (call.writer.restoreFifo args call.record) := by
  have path : (if (call.entryWanted args).found = true then
      args.newName (call.entryWanted args).pos (call.writer.fileName call.record) else none) =
        call.entryPath args := rfl
  unfold restoreFifo
  dsimp only [fileWanted]
  change (RecordEffect.attempt _ _).Done _ (RestoreWriter.resetNames (match (if
    (call.entryWanted args).found = true then args.newName (call.entryWanted args).pos
      (call.writer.fileName call.record) else none) with | none => _ | some path => _))
  rw [path, RecordCall.canMakeFifo]
  cases call.entryPath args with
  | none => exact .of_bare rfl rfl rfl
  | some path =>
      dsimp only [Option.any_some]
      generalize args.mknod (Restored.of call.writer.ops).entries path = done
      have made : RestoreOp.Amount [.makeFifo path done] (if done then some path else none).toList
          [] := by
        cases done with
        | false => exact ⟨rfl, rfl⟩
        | true => exact ⟨rfl, rfl⟩
      refine @RecordEffect.Done.of_made call.writer _ path done [.makeFifo path done] ?_ made ?_ ?_
        _ _ _
      · rfl
      · rfl
      · rfl

theorem restoreSymlink_effect (args : RestoreArgs) (call : RecordCall) :
    (RecordEffect.entry (if call.canMake then call.entryPath args else none)).Done
      call.writer (call.writer.restoreSymlink args call.record) := by
  have isDone : (call.writer.io.made.head?.getD none).isNone = call.canMake := rfl
  unfold restoreSymlink RecordCall.entryPath RecordCall.entryWanted
  dsimp only [fileWanted, nextMade]
  rw [isDone]
  generalize isFileWanted _ args.sels args.exls args.flags call.writer.retry = wanted
  generalize call.canMake = done
  cases (if wanted.found = true then
    args.newName wanted.pos (call.writer.fileName call.record) else none) with
  | none =>
      rw [ite_self]
      exact .of_bare rfl rfl rfl
  | some path =>
      cases done with
      | false => exact .of_idle rfl ⟨rfl, rfl⟩ rfl rfl
      | true =>
          refine @RecordEffect.Done.of_made call.writer _ path true
            [.symbolicLink path (call.writer.linkName call.record) true] ?_ ⟨rfl, rfl⟩ ?_ ?_ _ _ _
          · rfl
          · rfl
          · rfl

theorem restoreHardLink_effect (args : RestoreArgs) (call : RecordCall) (target : Option CString) :
    (RecordEffect.entry (call.hardLinkPath args target)).Done call.writer
      (call.writer.restoreHardLink args target call.record) := by
  have isDone : (call.writer.io.made.head?.getD none).isNone = call.canMake := rfl
  unfold restoreHardLink RecordCall.hardLinkPath RecordCall.entryWanted
  dsimp only [fileWanted, nextMade]
  rw [isDone]
  generalize isFileWanted _ args.sels args.exls args.flags call.writer.retry = wanted
  generalize call.canMake = done
  cases (if wanted.found = true then some (wanted.pos, call.writer.fileName call.record)
    else if args.dar = true then rsDarhlNewName args.sels else none) with
  | none => exact .of_bare rfl rfl rfl
  | some place =>
      obtain ⟨pos, name⟩ := place
      dsimp only
      cases args.newName pos name with
      | none => exact .of_bare rfl rfl rfl
      | some path =>
          cases target with
          | none => exact .of_bare rfl rfl rfl
          | some old =>
              cases done with
              | false => exact .of_idle rfl ⟨rfl, rfl⟩ rfl rfl
              | true =>
                  have order : call.writer.ops ++ [.hardLink old path true] ++
                      [.setAcl (some path) call.writer.acls] ++ [.entryRestored name pos] =
                        call.writer.ops ++ ([.hardLink old path true] ++
                          .setAcl (some path) call.writer.acls :: [.entryRestored name pos]) := by
                    rw [List.append_assoc, List.append_assoc]
                    rfl
                  exact @RecordEffect.Done.of_attempt _ _ path true _ _ order ⟨rfl, rfl⟩ ⟨rfl, rfl⟩
                    rfl
                    rfl

/-- A directory is made, and pushed when those that it is not inside of have been popped. -/
theorem restoreDirectory_effect (args : RestoreArgs) {call : RecordCall}
    (isDirectory : call.kind = .directory) :
    (call.effect args).Done call.writer (call.writer.restoreDirectory args call.record) := by
  have isDone : (call.writer.io.made.head?.getD none).isNone = call.canMake := rfl
  unfold restoreDirectory RecordCall.effect RecordCall.entryPath RecordCall.entryWanted
  dsimp only [fileWanted, nextMade]
  rw [isDone, isDirectory]
  dsimp only
  generalize isFileWanted _ args.sels args.exls args.flags call.writer.retry = wanted
  generalize call.canMake = done
  cases (if wanted.found = true then
    args.newName wanted.pos (call.writer.fileName call.record) else none) with
  | none => exact .of_bare rfl rfl rfl
  | some path =>
      dsimp only
      split
      · exact .of_bare rfl rfl rfl
      · obtain ⟨reports, reported, same⟩ : ∃ reports, RestoreOp.Amount reports [] [] ∧
            (if done = true then (({ call.writer with
                  retry := wanted.retry,
                  io := { call.writer.io with made := call.writer.io.made.tail } } :
                RestoreWriter).perform (.makeDirectory path done)).reportRestored wanted.mchtype
                  (call.writer.fileName call.record) wanted.pos
              else ({ call.writer with
                  retry := wanted.retry,
                  io := { call.writer.io with made := call.writer.io.made.tail } } :
                RestoreWriter).perform (.makeDirectory path done)) = { call.writer with
              retry := wanted.retry, io := { call.writer.io with made := call.writer.io.made.tail },
              ops := call.writer.ops ++ [.makeDirectory path done] ++ reports } := by
          cases done with
          | false => exact ⟨[], .nil, by rw [List.append_nil]; rfl⟩
          | true =>
              obtain ⟨reports, same, reported⟩ := reportRestored_frame (({ call.writer with
                  retry := wanted.retry,
                  io := { call.writer.io with made := call.writer.io.made.tail } } :
                RestoreWriter).perform (.makeDirectory path true)) wanted.mchtype
                  (call.writer.fileName call.record) wanted.pos
              exact ⟨reports, reported, same⟩
        rw [same]
        refine ⟨⟨.makeDirectory path done :: reports, [], ?_, ?_, .nil⟩, rfl, rfl⟩
        · rw [List.append_nil]
          exact (congrArg (· ++ _) (List.append_assoc _ _ _)).trans (List.append_assoc _ _ _)
        · have made : RestoreOp.Amount [.makeDirectory path done]
              (if done = true then some path else none).toList [] := by
            cases done with
            | false => exact ⟨rfl, rfl⟩
            | true => exact ⟨rfl, rfl⟩
          have amount := made.append reported
          rw [List.append_nil] at amount
          exact amount

theorem finishRegular_frame (args : RestoreArgs) (writer : RestoreWriter) (fileSize : Int)
    (hardlink : Option Nat) (wanted : Wanted) (path : Option CString) :
    (∃ later, (writer.finishRegular args fileSize hardlink wanted path).ops = writer.ops ++ later ∧
        RestoreOp.Amount later [] []) ∧
      (writer.finishRegular args fileSize hardlink wanted path).dtree = writer.dtree ∧
      (writer.finishRegular args fileSize hardlink wanted path).acls = writer.acls := by
  unfold finishRegular
  dsimp only
  split
  · obtain ⟨later, reports, reported⟩ := reportRestored_frame { writer with
      hugeSize := max 0 (writer.hugeSize - fileSize), sizeLeft := 0 } wanted.mchtype
      writer.longname.string wanted.pos
    rw [reports]
    cases hardlink with
    | none => exact ⟨⟨later, rfl, reported⟩, rfl, rfl⟩
    | some inode =>
        dsimp only
        split
        · exact ⟨⟨later, rfl, reported⟩, rfl, rfl⟩
        · exact ⟨⟨later, rfl, reported⟩, rfl, rfl⟩
  · exact ⟨⟨[], (List.append_nil _).symm, .nil⟩, rfl, rfl⟩

theorem afterSection_frame (args : RestoreArgs) (fileSize : Int) (hardlink : Option Nat)
    (wanted : Wanted) (path : Option CString) (writer : RestoreWriter) :
    let pops := fun dir : CString × TlmAcls => path.any fun path => ¬ dir.1 <:+: path
    (∃ later, (afterSection args fileSize hardlink wanted path writer).ops =
        writer.ops ++ ((writer.dtree.takeWhile pops).map fun dir => .setAcl (some dir.1) dir.2) ++
          later ∧ RestoreOp.Amount later [] []) ∧
      (afterSection args fileSize hardlink wanted path writer).dtree = writer.dtree.dropWhile pops ∧
      (afterSection args fileSize hardlink wanted path writer).acls = writer.acls := by
  intro pops
  cases path with
  | none =>
      obtain ⟨⟨later, ops, reported⟩, dtree, acls⟩ :=
        finishRegular_frame args writer fileSize hardlink wanted none
      have none_ : writer.dtree.takeWhile pops = [] ∧
          writer.dtree.dropWhile pops = writer.dtree := by
        cases writer.dtree with
        | nil => exact ⟨rfl, rfl⟩
        | cons dir rest => exact ⟨rfl, rfl⟩
      rw [none_.1, none_.2]
      exact ⟨⟨later, by rw [List.map_nil, List.append_nil]; exact ops, reported⟩, dtree, acls⟩
  | some path =>
      obtain ⟨⟨later, ops, reported⟩, dtree, acls⟩ :=
        finishRegular_frame args (writer.dtreePopUntil path) fileSize hardlink wanted (some path)
      exact ⟨⟨later, ops, reported⟩, dtree, acls⟩

theorem restoreRegular_effect (args : RestoreArgs) {call : RecordCall} {hardlink : Option Nat}
    (isRegular : call.kind = .regularFile hardlink) :
    (call.effect args).Done call.writer
      (call.writer.restoreRegular args call.fileSize hardlink call.record) := by
  obtain ⟨queue, shape⟩ :=
    restoreRegular_queued args call.writer call.fileSize hardlink call.record
  obtain ⟨blocks, stop, io, fp, first, same, amount⟩ :=
    restoreFile_frame args (call.sectionStart args)
    (call.path args) call.fileSize (call.sectionFound args)
  change _ = afterSection args call.fileSize hardlink (call.wanted args) (call.path args)
    { (call.sectionStart args).restoreFile args (call.path args) call.fileSize
      (call.sectionFound args) with hardlinkQ := queue } at shape
  rw [same] at shape
  obtain ⟨⟨later, ops, reported⟩, dtree, acls⟩ := afterSection_frame args call.fileSize hardlink
    (call.wanted args) (call.path args) { call.sectionStart args with
      blocks := blocks, tcWriterStop := stop, io := io, fp := fp, hardlinkQ := queue,
      ops := (call.sectionStart args).ops ++ first,
      acls := if (call.sectionStart args).closesFile args (call.path args) call.fileSize
        (call.sectionFound args) then (call.sectionStart args).acls.afterSet
        else (call.sectionStart args).acls }
  rw [shape, RecordCall.effect, isRegular]
  refine ⟨⟨first, later, ?_, ?_, reported⟩, dtree, ?_⟩
  · rw [← List.append_assoc, ← List.append_assoc]
    exact ops
  · dsimp only
    cases closes : (call.sectionStart args).closesFile args (call.path args) call.fileSize
      (call.sectionFound args) with
    | false =>
        rw [closes] at amount
        exact amount
    | true =>
        rw [closes] at amount
        exact amount
  · refine acls.trans ?_
    dsimp only
    cases (call.sectionStart args).closesFile args (call.path args) call.fileSize
      (call.sectionFound args) with
    | false => rfl
    | true => rfl

theorem restoreRecord_effect (args : RestoreArgs) {call : RecordCall} (noAcl : call.kind ≠ .acl) :
    (call.effect args).Done call.writer
      (call.writer.restoreRecord args call.linkflag call.fileSize call.record) := by
  have carried := restoreRecord_kind args call
  cases isKind : call.kind with
  | regularFile hardlink =>
      rw [isKind] at carried
      rw [show _ = _ from carried]
      exact restoreRegular_effect args isKind
  | hardLink target =>
      rw [isKind] at carried
      rw [show _ = _ from carried, RecordCall.effect, isKind]
      exact restoreHardLink_effect args call target
  | symbolicLink =>
      rw [isKind] at carried
      rw [show _ = _ from carried, RecordCall.effect, isKind]
      exact restoreSymlink_effect args call
  | directory =>
      rw [isKind] at carried
      rw [show _ = _ from carried]
      exact restoreDirectory_effect args isKind
  | fifo =>
      rw [isKind] at carried
      rw [show _ = _ from carried, RecordCall.effect, isKind]
      exact restoreFifo_effect args call
  | acl => exact absurd isKind noAcl
  | other =>
      rw [isKind] at carried
      rw [RecordCall.effect, isKind]
      exact .of_bare carried.ops carried.dtree carried.acls

end RestoreWriter

end Ndmpd
