import Mathlib.Algebra.Order.Group.Multiset
import Mathlib.Tactic.Abel
import Ndmpd.Tlm.BufferBounds
import Ndmpd.Tlm.RecordEffects

/-!
# Whose ACL an entry gets

One `tlm_acls_t` goes through all records. `load_acl_info` puts a text into it, and
`set_acl` and `dtree_push` clear it, but an entry that is passed over does not. An
`AclTexts` is what the records alone say about the text: the one that was put out for
the entry that is being read, and one that is left over from entries that were passed
over. The text that is applied is the first of them that there is (`applications_text`),
so that entries get their own texts exactly if none is left over for an entry without one
(`ownText_applied_iff`).
-/

namespace Ndmpd

open Foundation

/-- The text that `set_acl` applies. -/
def TlmAcls.text (acls : TlmAcls) : Option (List UInt8) :=
  if acls.aclNonTrivial then acls.attrInfo else none

theorem TlmAcls.text_afterSet (acls : TlmAcls) : acls.afterSet.text = none := by
  unfold afterSet
  split
  · next kept => rw [text, kept.2, ite_self]
  · rfl

theorem TlmAcls.text_congr {first second : TlmAcls}
    (nonTrivial : first.aclNonTrivial = second.aclNonTrivial)
    (attrInfo : first.attrInfo = second.attrInfo) : first.text = second.text := by
  rw [text, text, nonTrivial, attrInfo]

namespace RestoreWriter

/-! ## The texts of a run -/

/-- Whether an entry ends with a record. -/
def RecordCall.ends (call : RecordCall) : Bool :=
  match call.kind with
  | .regularFile _ => decide (call.writer.hugeSize - call.fileSize ≤ 0)
  | .acl => false
  | .other => false
  | _ => true

/-- The text that an `LF_ACL` record holds. -/
def RecordCall.aclText (call : RecordCall) : Option (List UInt8) :=
  (call.writer.loadAclInfo call.fileSize).acls.text

/-- The paths that get the attributes of a record, at once or when they are popped. -/
def RecordEffect.targets (effect : RecordEffect) : List (Option CString) :=
  effect.applied.toList ++ effect.pushed.toList.map some

/-- The text of the entry that is being read, and the one that is left over from entries
in front of it. -/
structure AclTexts where
  own : Option (List UInt8)
  left : Option (List UInt8)
  deriving DecidableEq, Repr

/-- The texts behind a record. An entry that takes the attributes uses up its text, and
one that is passed over leaves it. -/
def AclTexts.after (texts : AclTexts) (args : RestoreArgs) (call : RecordCall) : AclTexts :=
  match call.kind with
  | .acl => ⟨call.aclText, none⟩
  | _ =>
      if (call.effect args).targets ≠ [] then ⟨none, none⟩
      else if call.ends then ⟨none, texts.own.or texts.left⟩
      else texts

/-- Attributes that are applied, with the text that was put out for the entry and the one
that was left over. -/
structure Application where
  path : Option CString
  acls : TlmAcls
  own : Option (List UInt8)
  left : Option (List UInt8)

/-- The attributes that the entries of some records get. -/
def applications (args : RestoreArgs) : AclTexts → List RecordCall → List Application
  | _, [] => []
  | texts, call :: calls =>
      ((call.effect args).targets.map fun path =>
        ⟨path, call.writer.acls, texts.own, texts.left⟩) ++
        applications args (texts.after args call) calls

/-! ## What is applied -/

variable {writer : RestoreWriter} {texts : AclTexts}

/-- The text that the decoder holds is the entry's own, or else the one left over. -/
def AclTexts.Held (texts : AclTexts) (writer : RestoreWriter) : Prop :=
  writer.acls.text = texts.own.or texts.left

theorem nextRecord_text {call : RecordCall} (next : nextRecord writer = some call) :
    call.writer.acls.text = writer.acls.text := by
  obtain ⟨blocks, acls, aclSpot, lastAction, multiVolume, same, nonTrivial, attrInfo⟩ :=
    nextRecord_frame next
  rw [same]
  exact TlmAcls.text_congr nonTrivial attrInfo

/-- An entry that takes the attributes leaves no text, and others leave it alone. -/
theorem RecordEffect.Done.text {effect : RecordEffect} {before after : RestoreWriter}
    (done : effect.Done before after) :
    after.acls.text = if effect.targets ≠ [] then none else before.acls.text := by
  rw [done.acls]
  unfold RecordEffect.targets
  cases effect.pushed with
  | some path =>
      rw [Option.isSome_some, if_pos rfl, if_pos (by simp)]
      rfl
  | none =>
      rw [Option.isSome_none, if_neg Bool.false_ne_true]
      cases effect.applied with
      | some path =>
          rw [Option.isSome_some, if_pos rfl, if_pos (by simp)]
          exact TlmAcls.text_afterSet _
      | none => rfl

theorem AclTexts.Held.after {args : RestoreArgs} {call : RecordCall}
    (held : texts.Held call.writer) :
    (texts.after args call).Held
      (call.writer.restoreRecord args call.linkflag call.fileSize call.record) := by
  by_cases isAcl : call.kind = .acl
  · have carried := restoreRecord_kind args call
    unfold AclTexts.after AclTexts.Held
    rw [isAcl] at carried ⊢
    rw [show _ = _ from carried]
    exact Option.or_none.symm
  · have text := (restoreRecord_effect args isAcl).text
    have shape : texts.after args call =
        if (call.effect args).targets ≠ [] then ⟨none, none⟩
        else if call.ends then ⟨none, texts.own.or texts.left⟩
        else texts := by
      unfold AclTexts.after
      split
      · next isKind => exact absurd isKind isAcl
      · rfl
    unfold AclTexts.Held
    rw [text, shape]
    split
    · rfl
    · split
      · exact held
      · exact held

/-- What is applied is the entry's own text, or else the one left over. -/
theorem applications_text (args : RestoreArgs) (rounds : Nat) (writer : RestoreWriter)
    (texts : AclTexts) (held : texts.Held writer) :
    ∀ applied ∈ applications args texts (runRecords args rounds writer),
      applied.acls.text = applied.own.or applied.left := by
  induction rounds generalizing writer texts with
  | zero => exact fun _ listed => absurd listed List.not_mem_nil
  | succ rounds ih =>
      intro applied listed
      unfold runRecords at listed
      by_cases stopped : writer.tcWriterStop = true
      · rw [if_pos stopped] at listed
        exact absurd listed List.not_mem_nil
      · rw [if_neg stopped] at listed
        cases next : writer.nextRecord with
        | none =>
            obtain ⟨blocks, stop, rv, same⟩ := @tarGetdirStep_frame_of_none writer args next
            rw [next, Option.toList_none, List.nil_append] at listed
            refine ih _ texts ?_ applied listed
            rw [same]
            exact held
        | some call =>
            have before : texts.Held call.writer := (nextRecord_text next).trans held
            rw [next, Option.toList_some, List.singleton_append, applications] at listed
            rcases List.mem_append.mp listed with here | later
            · obtain ⟨path, -, rfl⟩ := List.mem_map.mp here
              exact before
            · refine ih _ _ ?_ applied later
              rw [tarGetdirStep_of_record next]
              exact before.after

/-! ## All that is applied -/

/-- The attributes that have been applied, and those of the directories that are still to
be popped. -/
def assigned (writer : RestoreWriter) : List (Option CString × TlmAcls) :=
  writer.ops.filterMap RestoreOp.applied ++ writer.dtree.map fun dir => (some dir.1, dir.2)

theorem filterMap_applied_setAcl (dirs : List (CString × TlmAcls)) :
    (dirs.map fun dir => RestoreOp.setAcl (some dir.1) dir.2).filterMap RestoreOp.applied =
      dirs.map fun dir => (some dir.1, dir.2) := by
  rw [List.filterMap_map]
  exact congrFun (List.filterMap_eq_map) dirs

theorem RecordEffect.Done.assigned {effect : RecordEffect} {before after : RestoreWriter}
    (done : effect.Done before after) :
    after.assigned.Perm
      (before.assigned ++ effect.targets.map fun path => (path, before.acls)) := by
  obtain ⟨first, later, ops, amount, quiet⟩ := done.ops
  have parts :
      before.dtree = before.dtree.takeWhile effect.pops ++ before.dtree.dropWhile effect.pops :=
    List.takeWhile_append_dropWhile.symm
  have pushed : (effect.pushed.toList.map fun path => (path, before.acls)).map
      (fun dir => (some dir.1, dir.2)) =
        (effect.pushed.toList.map some).map fun path => (path, before.acls) := by
    rw [List.map_map, List.map_map]
    rfl
  unfold RestoreWriter.assigned RecordEffect.targets
  rw [ops, done.dtree, List.map_append, List.map_append, pushed, List.filterMap_append,
    List.filterMap_append, List.filterMap_append,
    amount.applied, filterMap_applied_setAcl, quiet.applied]
  conv_rhs => rw [parts]
  rw [← Multiset.coe_eq_coe]
  simp only [List.map_append, ← Multiset.coe_add, Multiset.coe_nil]
  abel

theorem loadAclInfo_frame (writer : RestoreWriter) (fileSize : Int) :
    (writer.loadAclInfo fileSize).ops = writer.ops ∧
      (writer.loadAclInfo fileSize).dtree = writer.dtree := by
  obtain ⟨blocks, stop, fault, kept⟩ := inputMem_frame writer fileSize
  unfold loadAclInfo
  revert kept
  generalize writer.inputMem fileSize = read
  intro kept
  obtain ⟨found, next⟩ := read
  dsimp only at kept
  subst kept
  cases found with
  | none => exact ⟨rfl, rfl⟩
  | some mem => exact ⟨rfl, rfl⟩

theorem restoreRecord_assigned (args : RestoreArgs) (call : RecordCall) :
    (call.writer.restoreRecord args call.linkflag call.fileSize call.record).assigned.Perm
      (call.writer.assigned ++ (call.effect args).targets.map fun path =>
        (path, call.writer.acls)) := by
  by_cases isAcl : call.kind = .acl
  · have carried := restoreRecord_kind args call
    rw [isAcl] at carried
    obtain ⟨ops, dtree⟩ := loadAclInfo_frame call.writer call.fileSize
    rw [show _ = _ from carried, RestoreWriter.assigned, ops, dtree, RecordCall.effect, isAcl]
    exact .of_eq (List.append_nil _).symm
  · exact (restoreRecord_effect args isAcl).assigned

theorem nextRecord_assigned {call : RecordCall} (next : nextRecord writer = some call) :
    call.writer.assigned = writer.assigned := by
  obtain ⟨blocks, acls, aclSpot, lastAction, multiVolume, same, -⟩ := nextRecord_frame next
  rw [same]
  rfl

/-- In every run, each entry that takes its attributes gets them once. -/
theorem tarGetdirLoop_assigned (args : RestoreArgs) (rounds : Nat) (writer : RestoreWriter)
    (texts : AclTexts) :
    (tarGetdirLoop args rounds writer).assigned.Perm (writer.assigned ++
      (applications args texts (runRecords args rounds writer)).map fun applied =>
        (applied.path, applied.acls)) := by
  induction rounds generalizing writer texts with
  | zero => exact .of_eq (List.append_nil _).symm
  | succ rounds ih =>
      unfold tarGetdirLoop runRecords
      by_cases stopped : writer.tcWriterStop = true
      · rw [if_pos stopped, if_pos stopped]
        exact .of_eq (List.append_nil _).symm
      · rw [if_neg stopped, if_neg stopped]
        cases next : writer.nextRecord with
        | none =>
            obtain ⟨blocks, stop, rv, same⟩ := @tarGetdirStep_frame_of_none writer args next
            rw [Option.toList_none, List.nil_append]
            refine (ih _ texts).trans ?_
            rw [same]
            exact .refl _
        | some call =>
            have round := restoreRecord_assigned args call
            rw [← tarGetdirStep_of_record next, nextRecord_assigned next] at round
            have onward := (ih (writer.tarGetdirStep args) (texts.after args call)).trans
              (round.append_right _)
            rw [Option.toList_some, List.singleton_append, applications, List.map_append,
              List.map_map]
            rw [List.append_assoc] at onward
            exact onward

theorem tearDown_applied (writer : RestoreWriter) :
    writer.tearDown.ops.filterMap RestoreOp.applied = writer.assigned := by
  have kept : ∀ stopped : RestoreWriter, stopped.assigned = writer.assigned →
      (({ (if stopped.fp = .opened then stopped.perform .closeFile else stopped) with
        fp := .closed } : RestoreWriter).dtreePopAll).ops.filterMap RestoreOp.applied =
          writer.assigned := by
    intro stopped same
    rw [← same, assigned, ← filterMap_applied_setAcl]
    by_cases opened : stopped.fp = .opened
    · rw [if_pos opened]
      change (stopped.ops ++ [RestoreOp.closeFile] ++ _).filterMap _ = _
      rw [List.filterMap_append, List.filterMap_append]
      exact congrArg (· ++ _) (List.append_nil _)
    · rw [if_neg opened]
      exact List.filterMap_append
  unfold tearDown
  dsimp only
  split
  · exact kept _ rfl
  · exact kept _ rfl

theorem littleEndianValue_littleEndian (count n : Nat) :
    littleEndianValue (littleEndian count n) = n % 256 ^ count := by
  induction count generalizing n with
  | zero => exact (Nat.mod_one n).symm
  | succ count ih =>
      have low : (UInt8.ofNat n).toNat = n % 256 := UInt8.toNat_ofNat'
      have first : littleEndianValue (littleEndian (count + 1) n) =
          (UInt8.ofNat n).toNat + 256 * littleEndianValue (littleEndian count (n / 256)) := rfl
      rw [first, ih, low, Nat.pow_succ', Nat.mod_mul]

/-- The text of an ACL that the encoder has put out is read back. -/
theorem aclText_encoded {call : RecordCall} {acl : SecAttr} {rest : List UInt8}
    (running : call.writer.tcWriterStop = false) (fresh : call.writer.aclSpot = 0)
    (stream : delivered call.writer.blocks = acl.image ++ acl.attrInfo ++ rest)
    (size : call.fileSize = (acl.image ++ acl.attrInfo).length)
    (ordinary : (acl.image ++ acl.attrInfo).length < 2 ^ 31) :
    call.aclText = some acl.attrInfo := by
  have image : acl.image.length = 16 := by
    rw [SecAttr.image, List.length_append, List.length_append, littleEndian_length,
      littleEndian_length]
    rfl
  have length : littleEndianValue (((acl.image ++ acl.attrInfo).drop 4).take 4) =
      acl.attrInfo.length := by
    have field :
        ((acl.image ++ acl.attrInfo).drop 4).take 4 = littleEndian 4 acl.attrInfo.length := by
      rw [SecAttr.image, List.append_assoc, List.append_assoc]
      exact List.take_left' (littleEndian_length _ _)
    rw [List.length_append] at ordinary
    rw [field, littleEndianValue_littleEndian, Nat.mod_eq_of_lt (by omega)]
  have small : call.fileSize < 2 ^ 31 := by
    omega
  obtain ⟨read, -⟩ := inputMem_delivered running small
  rw [size, Int.toNat_natCast, stream, if_pos (List.prefix_append _ rest).length_le,
    List.take_left] at read
  unfold RecordCall.aclText loadAclInfo
  rw [fresh, size]
  revert read
  generalize call.writer.inputMem _ = result
  obtain ⟨found, next⟩ := result
  rintro rfl
  rw [if_pos rfl]
  dsimp only
  rw [List.take_zero, List.nil_append, length, List.drop_left' image]
  exact congrArg some (List.take_left)

/-- Whatever the stream is: what is applied are the attributes of the entries that take
them, each once, and they come with the texts of these entries exactly if no text is left
over for an entry without one. The text of an entry is the one that the encoder has put
out for it. -/
theorem ownText_applied_iff (args : RestoreArgs) (blocks : List ReadBlock) (hardlinkQ : HardlinkQ)
    (io : RestoreIo) (rounds : Nat) :
    let applied := applications args ⟨none, none⟩
      (runRecords args rounds (start args blocks hardlinkQ io))
    ((tarGetdir args blocks hardlinkQ io rounds).ops.filterMap RestoreOp.applied).Perm
        (applied.map fun application => (application.path, application.acls)) ∧
      ((∀ application ∈ applied, application.acls.text = application.own) ↔
        ∀ application ∈ applied, application.own = none → application.left = none) ∧
      ∀ (call : RecordCall) (acl : SecAttr) (rest : List UInt8),
        call.writer.tcWriterStop = false → call.writer.aclSpot = 0 →
        delivered call.writer.blocks = acl.image ++ acl.attrInfo ++ rest →
        call.fileSize = (acl.image ++ acl.attrInfo).length →
        (acl.image ++ acl.attrInfo).length < 2 ^ 31 → call.aclText = some acl.attrInfo := by
  intro applied
  refine ⟨?_, ?_, fun call acl rest => aclText_encoded⟩
  · have assigned :=
      tarGetdirLoop_assigned args rounds (start args blocks hardlinkQ io) ⟨none, none⟩
    unfold tarGetdir
    rw [tearDown_applied]
    exact assigned
  · have texts := applications_text args rounds (start args blocks hardlinkQ io) ⟨none, none⟩ rfl
    refine forall_congr' fun application => forall_congr' fun listed => ?_
    rw [texts application listed]
    cases application.own with
    | none =>
        rw [Option.none_or]
        exact ⟨fun same _ => same, fun unused => unused rfl⟩
    | some own => exact iff_of_true rfl nofun

/-- A file with an ACL, and a symbolic link behind it. -/
def fileAndLink : List SourceEntry :=
  [.regularFile { entryOf [102] .regular 3 with aclInfo := some ⟨[97, 99, 108, 10], 0⟩ }
      (.ofContents [1, 2, 3]) [1, 2, 3],
    .symbolicLink (entryOf [108] .symbolicLink 1) (.ofContents [102]) [102]]

theorem fileAndLink_length : (someArchive fileAndLink).length = 2560 := by
  decide +kernel

/-- With the link alone selected, it gets the text of the file. -/
theorem leftText_applied :
    ∃ blocks, bytesOf blocks = someArchive fileAndLink ∧
      ∃ applied ∈ (tarGetdir { restoreArgs with sels := [[slash, 97, slash, 108]] } blocks []
          ⟨[], [], []⟩ 6).ops.filterMap RestoreOp.applied,
        applied.1 = some [slash, 97, slash, 108] ∧ applied.2.text = some [97, 99, 108, 10] := by
  refine ⟨[someBlock fileAndLink (by rw [fileAndLink_length]; decide)], ?_, ?_⟩
  · rw [bytesOf_someBlock, List.append_nil]
  · decide +kernel

end RestoreWriter

end Ndmpd
