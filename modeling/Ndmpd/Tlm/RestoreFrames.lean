import Ndmpd.Tlm.RestoreReports

/-!
# What a round leaves alone

A round without a record changes the pool alone, and `restore_file` besides the pool the
file and, when it closes it, the attributes (`restoreFile_frame`).
-/

namespace Ndmpd

open Foundation

/-- The attributes that an operation applies, and where. -/
def RestoreOp.applied : RestoreOp → Option (Option CString × TlmAcls)
  | .setAcl path acls => some (path, acls)
  | _ => none

/-- The path that an operation puts into the file system. -/
def RestoreOp.created : RestoreOp → Option CString
  | .makeDirectory path true => some path
  | .symbolicLink path _ true => some path
  | .hardLink _ path true => some path
  | .makeFifo path true => some path
  | .openFile path true => some path
  | _ => none

/-- Operations that make `made` and apply `applied`. -/
structure RestoreOp.Amount (ops : List RestoreOp) (made : List CString)
    (applied : List (Option CString × TlmAcls)) : Prop where
  made : ops.filterMap RestoreOp.created = made
  applied : ops.filterMap RestoreOp.applied = applied

theorem RestoreOp.Amount.nil : RestoreOp.Amount [] [] [] := ⟨rfl, rfl⟩

theorem RestoreOp.Amount.append {first second : List RestoreOp} {made more : List CString}
    {applied further : List (Option CString × TlmAcls)}
    (before : RestoreOp.Amount first made applied)
    (after : RestoreOp.Amount second more further) :
    RestoreOp.Amount (first ++ second) (made ++ more) (applied ++ further) := by
  constructor
  · rw [List.filterMap_append, before.made, after.made]
  · rw [List.filterMap_append, before.applied, after.applied]

/-- What `set_acl` leaves of the attributes that it has applied. -/
def TlmAcls.afterSet (acls : TlmAcls) : TlmAcls :=
  if acls.aclNonTrivial ∧ acls.attrInfo = none then acls else .zero

namespace RestoreWriter

theorem inputMem_frame (writer : RestoreWriter) (len : Int) :
    ∃ blocks stop fault, (writer.inputMem len).2 =
      { writer with blocks := blocks, tcWriterStop := stop, faulted := fault } :=
  inputMemLoop_frame len.toNat writer [] len.toNat

/-! ## `restore_file` -/

theorem writeRecord_frame (writer : RestoreWriter) (bytes : List UInt8) :
    ∃ io effects, (writer.writeRecord bytes).1 =
        { writer with io := io, ops := writer.ops ++ effects } ∧
      RestoreOp.Amount effects [] [] := by
  unfold writeRecord
  split
  · dsimp only
    split
    · exact ⟨_, [], by rw [List.append_nil], .nil⟩
    · exact ⟨_, [.write _], rfl, rfl, rfl⟩
  · exact ⟨writer.io, [], by rw [List.append_nil], .nil⟩

theorem restoreLoop_frame (rounds : Nat) (writer : RestoreWriter) (size : Int) (wanted : Bool) :
    ∃ blocks stop io effects, restoreLoop rounds writer size wanted =
        { writer with
          blocks := blocks, tcWriterStop := stop, io := io, ops := writer.ops ++ effects } ∧
      RestoreOp.Amount effects [] [] := by
  induction rounds generalizing writer size with
  | zero =>
      exact ⟨writer.blocks, writer.tcWriterStop, writer.io, [], by rw [List.append_nil]; rfl, .nil⟩
  | succ rounds ih =>
      unfold restoreLoop
      obtain ⟨blocks, stop, kept⟩ := getReadBuffer_frame writer size.toNat
      split
      · exact ⟨writer.blocks, writer.tcWriterStop, writer.io, [], by rw [List.append_nil], .nil⟩
      · split
        · next read =>
            rw [read] at kept
            dsimp only at kept
            subst kept
            exact ⟨blocks, stop, writer.io, [], by rw [List.append_nil], .nil⟩
        · next rec error reading read =>
            rw [read] at kept
            dsimp only at kept ⊢
            subst kept
            split
            · exact ⟨blocks, stop, writer.io, [], by rw [List.append_nil], .nil⟩
            · split
              · obtain ⟨io, effects, same, none_⟩ := writeRecord_frame
                  { writer with blocks := blocks, tcWriterStop := stop } (rec.take size.toNat)
                obtain ⟨later, stopped, last, more, whole, quiet⟩ := ih
                  (writeRecord { writer with blocks := blocks, tcWriterStop := stop }
                    (rec.take size.toNat)).1 (size - (writeRecord
                      { writer with blocks := blocks, tcWriterStop := stop }
                        (rec.take size.toNat)).2)
                rw [whole, same]
                exact ⟨later, stopped, last, effects ++ more, by rw [List.append_assoc],
                  none_.append quiet⟩
              · obtain ⟨later, stopped, last, more, whole, quiet⟩ := ih
                  { writer with blocks := blocks, tcWriterStop := stop }
                  (size - (rec.take size.toNat).length)
                exact ⟨later, stopped, last, more, whole, quiet⟩

/-- The state in which `restore_file` comes to its loop, and whether the file is wanted
there. -/
def openedFile (writer : RestoreWriter) (args : RestoreArgs) (realName : Option CString)
    (wanted : Bool) : RestoreWriter × Bool :=
  match realName with
  | none => (writer, false)
  | some path =>
      if writer.fp = .closed ∧ wanted then writer.openWanted args path else (writer, wanted)

/-- The file that `restore_file` opens for a name. -/
def opensFile (writer : RestoreWriter) (args : RestoreArgs) (realName : Option CString)
    (wanted : Bool) : Option CString :=
  if writer.fp = .closed ∧ (writer.openedFile args realName wanted).1.fp = .opened then realName
  else none

/-- Whether `restore_file` closes a file behind its loop, and applies the attributes. -/
def closesFile (writer : RestoreWriter) (args : RestoreArgs) (realName : Option CString)
    (size : Int) (wanted : Bool) : Bool :=
  decide ((writer.openedFile args realName wanted).1.fp ≠ .closed ∧ writer.hugeSize - size ≤ 0)

theorem restoreFile_openedFile (writer : RestoreWriter) (args : RestoreArgs)
    (realName : Option CString) (size : Int) (wanted : Bool) :
    writer.restoreFile args realName size wanted =
      let opened := writer.openedFile args realName wanted
      closeFinished realName (writer.hugeSize - size)
        (restoreLoop (opened.1.available + 1) opened.1 size opened.2) := by
  cases realName with
  | none => rfl
  | some path => rfl

theorem openedFile_shape (writer : RestoreWriter) (args : RestoreArgs) (realName : Option CString)
    (wanted : Bool) :
    ∃ io effects, (writer.openedFile args realName wanted).1 = { writer with
        io := io, fp := (writer.openedFile args realName wanted).1.fp,
        ops := writer.ops ++ effects } ∧
      RestoreOp.Amount effects (writer.opensFile args realName wanted).toList [] := by
  have idle : ∀ wanted_, writer.openedFile args realName wanted = (writer, wanted_) →
      writer.opensFile args realName wanted = none := by
    intro wanted_ same
    unfold opensFile
    rw [same]
    apply if_neg
    rintro ⟨closed, opened⟩
    rw [closed] at opened
    cases opened
  have unopened : ∀ wanted_, writer.openedFile args realName wanted = (writer, wanted_) →
      ∃ io effects, (writer.openedFile args realName wanted).1 = { writer with
          io := io, fp := (writer.openedFile args realName wanted).1.fp,
          ops := writer.ops ++ effects } ∧
        RestoreOp.Amount effects (writer.opensFile args realName wanted).toList [] := by
    intro wanted_ same
    rw [idle wanted_ same, same]
    exact ⟨writer.io, [], by rw [List.append_nil], .nil⟩
  cases realName with
  | none => exact unopened false rfl
  | some path =>
      by_cases opens : writer.fp = .closed ∧ wanted = true
      · have shape : writer.openedFile args (some path) wanted = writer.openWanted args path :=
          if_pos opens
        by_cases takes : replaces args writer.acls path = true
        · obtain ⟨done, isDone⟩ : ∃ done, writer.io.opened.head?.getD true = done := ⟨_, rfl⟩
          have open_ : writer.openWanted args path = ({ writer with
              io := { writer.io with opened := writer.io.opened.tail },
              fp := if done then .opened else .failed,
              ops := writer.ops ++ [.openFile path done] }, done) := by
            rw [← isDone]
            exact if_pos takes
          have opened : writer.opensFile args (some path) wanted =
              if done then some path else none := by
            unfold opensFile
            rw [shape, open_, opens.1]
            cases done with
            | true => rfl
            | false => rfl
          rw [opened, shape, open_]
          cases done with
          | true => exact ⟨_, [.openFile path true], rfl, rfl, rfl⟩
          | false => exact ⟨_, [.openFile path false], rfl, rfl, rfl⟩
        · have none_ : writer.openWanted args path = (writer, false) := if_neg takes
          exact unopened false (shape.trans none_)
      · exact unopened wanted (if_neg opens)

/-- The end of `restore_file` applies the attributes to the file, or leaves them alone. -/
theorem closeFinished_frame (realName : Option CString) (left : Int) (writer : RestoreWriter) :
    ∃ fp effects, closeFinished realName left writer = { writer with
        fp := fp, ops := writer.ops ++ effects,
        acls := if writer.fp ≠ .closed ∧ left ≤ 0 then writer.acls.afterSet else writer.acls } ∧
      RestoreOp.Amount effects []
        (if writer.fp ≠ .closed ∧ left ≤ 0 then [(realName, writer.acls)] else []) := by
  unfold closeFinished
  by_cases ends : writer.fp ≠ .closed ∧ left ≤ 0
  · rw [if_pos ends, if_pos ends, if_pos ends]
    by_cases opened : writer.fp = .opened
    · rw [if_pos opened]
      exact ⟨.closed, [.closeFile, .setAcl realName writer.acls],
        congrArg
          (fun ops => { writer with fp := .closed, acls := writer.acls.afterSet, ops := ops })
          (List.append_assoc _ _ _), rfl, rfl⟩
    · rw [if_neg opened]
      exact ⟨.closed, [.setAcl realName writer.acls], rfl, rfl, rfl⟩
  · rw [if_neg ends, if_neg ends, if_neg ends]
    exact ⟨writer.fp, [], by rw [List.append_nil], .nil⟩

theorem restoreFile_frame (args : RestoreArgs) (writer : RestoreWriter) (realName : Option CString)
    (size : Int) (wanted : Bool) :
    ∃ blocks stop io fp effects, writer.restoreFile args realName size wanted = { writer with
        blocks := blocks, tcWriterStop := stop, io := io, fp := fp, ops := writer.ops ++ effects,
        acls := if writer.closesFile args realName size wanted then writer.acls.afterSet
          else writer.acls } ∧
      RestoreOp.Amount effects (writer.opensFile args realName wanted).toList
        (if writer.closesFile args realName size wanted then [(realName, writer.acls)]
          else []) := by
  obtain ⟨first, opening, same, opens⟩ := openedFile_shape writer args realName wanted
  rw [restoreFile_openedFile]
  unfold closesFile
  dsimp only
  generalize writer.openedFile args realName wanted = opened at same
  obtain ⟨blocks, stop, io, pieces, loop, quiet⟩ :=
    restoreLoop_frame (opened.1.available + 1) opened.1 size opened.2
  obtain ⟨fp, closing, closed, applies⟩ := closeFinished_frame realName (writer.hugeSize - size)
    (restoreLoop (opened.1.available + 1) opened.1 size opened.2)
  rw [closed, loop]
  rw [loop] at applies
  dsimp only at applies ⊢
  generalize opened.1.fp = file at same applies ⊢
  rw [same] at applies ⊢
  have amount := opens.append (quiet.append applies)
  rw [List.nil_append, List.nil_append, List.append_nil] at amount
  have order : writer.ops ++ opening ++ pieces ++ closing =
      writer.ops ++ (opening ++ (pieces ++ closing)) := by
    rw [List.append_assoc, List.append_assoc]
  simp only [decide_eq_true_eq]
  exact ⟨blocks, stop, io, fp, opening ++ (pieces ++ closing), congrArg (fun ops => { writer with
    blocks := blocks, tcWriterStop := stop, io := io, fp := fp, ops := ops,
    acls := if file ≠ FilePointer.closed ∧ writer.hugeSize - size ≤ 0 then writer.acls.afterSet
      else writer.acls }) order, amount⟩

/-! ## Rounds -/

theorem getLongName_frame (writer : RestoreWriter) (recsize : Int) (name : CharArray tlmMaxPathName)
    (bufSpot : Nat) :
    ∃ blocks stop fault, (writer.getLongName recsize name bufSpot).1 =
      { writer with blocks := blocks, tcWriterStop := stop, faulted := fault } := by
  obtain ⟨blocks, stop, fault, kept⟩ := inputMem_frame writer recsize
  unfold getLongName
  revert kept
  generalize writer.inputMem recsize = read
  intro kept
  obtain ⟨found, next⟩ := read
  dsimp only at kept
  subst kept
  cases found with
  | none => exact ⟨blocks, stop, _, rfl⟩
  | some mem => exact ⟨blocks, stop, _, rfl⟩

/-- A round that comes to no record changes the pool. -/
theorem tarGetdirStep_frame_of_none {writer : RestoreWriter} {args : RestoreArgs}
    (none_ : nextRecord writer = none) :
    ∃ blocks stop rv, writer.tarGetdirStep args =
      { writer with blocks := blocks, tcWriterStop := stop, rv := rv } := by
  unfold nextRecord at none_
  unfold tarGetdirStep
  split
  · next multi =>
      rw [if_pos multi] at none_
      cases none_
  · next single =>
      rw [if_neg single] at none_
      obtain ⟨blocks, stop, kept⟩ := getReadBuffer_frame writer 345
      split
      · next stopped read =>
          rw [read] at kept
          dsimp only at kept
          subst kept
          exact ⟨blocks, stop, -1, rfl⟩
      · next record error reading read =>
          rw [read] at none_ kept
          dsimp only at none_ kept
          subst kept
          split
          · exact ⟨blocks, stop, writer.rv, rfl⟩
          · next good =>
              rw [if_neg good] at none_
              split at none_
              · cases none_
              · cases none_

/-- Up to the `switch`, the text that is kept in the attributes stays. -/
theorem nextRecord_frame {writer : RestoreWriter} {call : RecordCall}
    (next : nextRecord writer = some call) :
    ∃ blocks acls aclSpot lastAction multiVolume, call.writer = { writer with
        blocks := blocks, acls := acls, aclSpot := aclSpot, lastAction := lastAction,
        multiVolume := multiVolume } ∧
      acls.aclNonTrivial = writer.acls.aclNonTrivial ∧ acls.attrInfo = writer.acls.attrInfo := by
  unfold nextRecord at next
  split at next
  · cases next
    exact ⟨writer.blocks, writer.acls, writer.aclSpot, 0, false, rfl, rfl, rfl⟩
  · split at next
    · cases next
    · next record error reading read =>
        obtain ⟨blocks, rfl⟩ := getReadBuffer_kept read
        dsimp only at next
        split at next
        · cases next
        · split at next
          · cases next
            exact ⟨blocks, writer.acls, writer.aclSpot, writer.lastAction, writer.multiVolume, rfl,
              rfl, rfl⟩
          · cases next
            refine ⟨blocks, _, 0, _, writer.multiVolume, rfl, ?_⟩
            split
            · exact ⟨rfl, rfl⟩
            · exact ⟨rfl, rfl⟩

/-- The records that a run carries out. -/
def runRecords (args : RestoreArgs) : Nat → RestoreWriter → List RecordCall
  | 0, _ => []
  | rounds + 1, writer =>
      if writer.tcWriterStop then []
      else writer.nextRecord.toList ++ runRecords args rounds (writer.tarGetdirStep args)

end RestoreWriter

end Ndmpd
