import Ndmpd.Foundation.Runs
import Ndmpd.Restore.NameMaker
import Ndmpd.Session.Protocol
import Ndmpd.Tlm.RecordEffects
import Ndmpd.Tlm.SelectionOrder

/-!
# The status of every name

For each entry that `tar_getdir` reports, `ndmpd_path_restored_v3` gets the position of the
selection that it matched. It tells the client that a name is recovered when the position
changes, and `send_unrecovered_list_v3` does for the last one; nobody tells it that a
name was not found. The client therefore gets one success for each run of equal positions
(`handled_eq`), which is one status for every name exactly when every name is matched by
an entry that was restored, and the entries that are reported for it stand together
(`oneStatusEach_iff`). What was restored is asked of the operations, not of the reports: a
file that could not be opened is reported all the same.
-/

namespace Ndmpd

open Foundation

/-- A notification LOG_FILE, and the position of its name in the name list. -/
structure Recovered where
  idx : Nat
  name : CString
  error : NdmpError
  deriving DecidableEq, Repr

/-- `nlp_lastidx`, and what has been sent to the client. -/
structure Recovery where
  nlpLastidx : Int
  sent : List Recovered
  deriving DecidableEq, Repr

/-- The error that `ndmpd_api_file_recovered_v3` sends. -/
def recoveredError (error : Int) : NdmpError :=
  if error = 0 then .noErr
  else if error = 2 then .fileNotFoundErr -- ENOENT
  else .permissionErr

/-- `restore_alloc_structs_v3`. -/
def Recovery.start : Recovery := ⟨-1, []⟩

/-- `ndmp_send_recovery_stat_v3`. -/
def ndmpSendRecoveryStatV3 (nlist : List MemNdmpName) (recovery : Recovery) (idx stat : Int) :
    Recovery :=
  if idx < 0 then recovery
  else
    match nlist[idx.toNat]? with
    | none => recovery
    | some ep =>
        { recovery with
          sent := recovery.sent ++ [⟨idx.toNat, ep.opath, recoveredError stat⟩] }

/-- `ndmpd_path_restored_v3`. -/
def ndmpdPathRestoredV3 (nlist : List MemNdmpName) (recovery : Recovery) (idx : Int) :
    Recovery :=
  if idx < 0 ∨ nlist.length ≤ idx then recovery
  else
    let recovery :=
      if recovery.nlpLastidx = -1 then { recovery with nlpLastidx := idx } else recovery
    if recovery.nlpLastidx ≠ idx then
      { ndmpSendRecoveryStatV3 nlist recovery recovery.nlpLastidx 0 with nlpLastidx := idx }
    else recovery

/-- `tlm_entry_restored`, with the callback that `restore_alloc_structs_v3` sets. -/
def tlmEntryRestored (nlist : List MemNdmpName) (recovery : Recovery) (pos : Nat) : Recovery :=
  ndmpdPathRestoredV3 nlist recovery pos

/-- `send_unrecovered_list_v3`. -/
def sendUnrecoveredListV3 (nlist : List MemNdmpName) (recovery : Recovery) : Recovery :=
  if recovery.nlpLastidx ≠ -1 then
    { ndmpSendRecoveryStatV3 nlist recovery recovery.nlpLastidx 0 with nlpLastidx := -1 }
  else recovery

/-- The position that is reported with `tlm_entry_restored`. -/
def RestoreOp.reportedPos : RestoreOp → Option Nat
  | .entryRestored _ pos => some pos
  | _ => none

/-- The reports of `tar_getdir` are handled. -/
def handleReports (nlist : List MemNdmpName) (recovery : Recovery) (ops : List RestoreOp) :
    Recovery :=
  (ops.filterMap RestoreOp.reportedPos).foldl (tlmEntryRestored nlist) recovery

/-- `ndmpd_rs_sar_tar_v3`, where nothing fails before `tar_getdir`: what is restored, and what
the client is told. -/
def ndmpdRsSarTarV3 (nlist : List MemNdmpName) (others : RestoreArgs) (blocks : List ReadBlock)
    (hardlinkQ : HardlinkQ) (io : RestoreIo) (rounds : Nat) : RestoreWriter × Recovery :=
  let (nlist, sels) := setupsels nlist
  let writer := RestoreWriter.tarGetdir { others with sels := sels } blocks hardlinkQ io rounds
  let recovery := handleReports nlist Recovery.start writer.ops
  -- before the reader is stopped, and again at the end
  (writer, sendUnrecoveredListV3 nlist (sendUnrecoveredListV3 nlist recovery))

/-! ## What was restored -/

/-- The name under which an entry is selected. With direct access the other names of a file
are restored as the selection. -/
def RestoreWriter.RecordCall.selectedName (args : RestoreArgs) (call : RestoreWriter.RecordCall) :
    CString :=
  match call.kind with
  | .regularFile _ => (call.writer.regularName call.record).string
  | .hardLink _ =>
      if (call.entryWanted args).found then call.writer.fileName call.record
      else ((RestoreWriter.rsDarhlNewName args.sels).map Prod.snd).getD
        (call.writer.fileName call.record)
  | _ => call.writer.fileName call.record

namespace RestoreRun

/-- The file of the section has been opened, for this section or an earlier one. -/
def Opened (args : RestoreArgs) (run : RestoreRun) (call : RestoreWriter.RecordCall) : Prop :=
  call.writer.fp = .opened ∨
    ∃ path, call.path args = some path ∧ .openFile path true ∈ run.effectsOf args call

instance (args : RestoreArgs) (run : RestoreRun) (call : RestoreWriter.RecordCall) :
    Decidable (run.Opened args call) :=
  decidable_of_iff (call.writer.fp = .opened ∨ (call.path args).any fun path =>
      .openFile path true ∈ run.effectsOf args call) <| by
    unfold Opened
    cases call.path args <;> simp

/-- The entry that a round restores: what it makes, or a selected file of which the last
section has been written like those before it. -/
def restoredName (args : RestoreArgs) (run : RestoreRun) : Option CString := do
  let call ← run.writer.nextRecord
  match call.kind with
  | .acl | .other => none
  | .regularFile _ =>
      if (call.wanted args).found ∧ run.Opened args call ∧ run.Wrote args call ∧
          (run.writer.tarGetdirStep args).hugeSize = 0 then some (call.selectedName args)
      else none
  | _ => if (call.effect args).made.isSome then some (call.selectedName args) else none

/-- The states in front of the rounds of `tar_getdir`. -/
def states (args : RestoreArgs) : Nat → RestoreRun → List RestoreRun
  | 0, _ => []
  | rounds + 1, run =>
      if run.writer.tcWriterStop then [] else run :: states args rounds (run.round args)

/-- The decoder in front of a stream. -/
def start (args : RestoreArgs) (blocks : List ReadBlock) (hardlinkQ : HardlinkQ)
    (io : RestoreIo) : RestoreRun :=
  ⟨.start args blocks hardlinkQ io, none, true, true, false, false⟩

/-- The names of the entries that `tar_getdir` restores. -/
def restoredNames (args : RestoreArgs) (blocks : List ReadBlock) (hardlinkQ : HardlinkQ)
    (io : RestoreIo) (rounds : Nat) : List CString :=
  ((start args blocks hardlinkQ io).states args rounds).filterMap (restoredName args)

theorem round_writer (args : RestoreArgs) (run : RestoreRun) :
    (run.round args).writer = run.writer.tarGetdirStep args := by
  unfold round
  split
  · rfl
  · split
    · rfl
    · rfl

/-- The rounds are those of `tar_getdir`. -/
theorem runRecords_eq (args : RestoreArgs) (rounds : Nat) (run : RestoreRun) :
    RestoreWriter.runRecords args rounds run.writer =
      (run.states args rounds).flatMap fun run => run.writer.nextRecord.toList := by
  induction rounds generalizing run with
  | zero => rfl
  | succ rounds ih =>
      unfold RestoreWriter.runRecords states
      split
      · rfl
      · rw [List.flatMap_cons, ← ih, round_writer]

end RestoreRun

/-- An entry that was restored is the name at the position, or is below it. -/
def Matched (nlist : List MemNdmpName) (flags : RestoreFlags) (restored : List CString)
    (idx : Nat) : Prop :=
  ∃ ep name, nlist[idx]? = some ep ∧ name ∈ restored ∧
    (selectionKind name flags [] ep.opath).exactOrChild = true

/-! ## What is reported -/

/-- The positions in the name list that are reported. -/
def reportedIndices (nlist : List MemNdmpName) (ops : List RestoreOp) : List Nat :=
  (ops.filterMap RestoreOp.reportedPos).filter (· < nlist.length)

/-- Every name gets one status: success if an entry that matched it was restored, and
otherwise that it was not found. -/
def OneStatusEach (nlist : List MemNdmpName) (matched : Nat → Prop) (sent : List Recovered) :
    Prop :=
  ∀ idx ep, nlist[idx]? = some ep →
    (matched idx → sent.filter (·.idx = idx) = [⟨idx, ep.opath, .noErr⟩]) ∧
      (¬ matched idx → sent.filter (·.idx = idx) = [⟨idx, ep.opath, .fileNotFoundErr⟩])

section Reports

variable {nlist : List MemNdmpName}

/-- What the client is told about a name. -/
def notice (nlist : List MemNdmpName) (idx : Nat) : Option Recovered :=
  nlist[idx]?.map fun ep => ⟨idx, ep.opath, .noErr⟩

theorem ndmpSendRecoveryStatV3_eq (nlist : List MemNdmpName) (recovery : Recovery) (idx : Nat) :
    ndmpSendRecoveryStatV3 nlist recovery idx 0 =
      { recovery with sent := recovery.sent ++ (notice nlist idx).toList } := by
  unfold ndmpSendRecoveryStatV3 notice
  rw [if_neg (by omega), Int.toNat_natCast]
  cases nlist[idx]? with
  | none => simp
  | some ep => rfl

theorem tlmEntryRestored_outside {pos : Nat} (outside : nlist.length ≤ pos)
    (recovery : Recovery) : tlmEntryRestored nlist recovery pos = recovery := by
  unfold tlmEntryRestored ndmpdPathRestoredV3
  rw [if_pos (.inr (by omega))]

theorem tlmEntryRestored_first {pos : Nat} (inside : pos < nlist.length)
    (sent : List Recovered) : tlmEntryRestored nlist ⟨-1, sent⟩ pos = ⟨pos, sent⟩ := by
  unfold tlmEntryRestored ndmpdPathRestoredV3
  rw [if_neg (by omega)]
  simp

theorem tlmEntryRestored_next {pos : Nat} (inside : pos < nlist.length) (last : Nat)
    (sent : List Recovered) :
    tlmEntryRestored nlist ⟨last, sent⟩ pos =
      if last ≠ pos then ⟨pos, sent ++ (notice nlist last).toList⟩ else ⟨last, sent⟩ := by
  have begun : (last : Int) ≠ -1 := by omega
  unfold tlmEntryRestored ndmpdPathRestoredV3
  rw [if_neg (by omega)]
  simp only [begun, if_false, ndmpSendRecoveryStatV3_eq, ne_eq, Int.natCast_inj]

theorem sendUnrecoveredListV3_last (nlist : List MemNdmpName) (last : Nat)
    (sent : List Recovered) :
    sendUnrecoveredListV3 nlist ⟨last, sent⟩ = ⟨-1, sent ++ (notice nlist last).toList⟩ := by
  have begun : (last : Int) ≠ -1 := by omega
  unfold sendUnrecoveredListV3
  rw [if_pos begun, ndmpSendRecoveryStatV3_eq]

/-- Reports of positions that are not in the name list are ignored. -/
theorem handled_inside (positions : List Nat) (recovery : Recovery) :
    positions.foldl (tlmEntryRestored nlist) recovery =
      (positions.filter (· < nlist.length)).foldl (tlmEntryRestored nlist) recovery := by
  induction positions generalizing recovery with
  | nil => rfl
  | cons pos positions ih =>
      rw [List.foldl_cons]
      by_cases inside : pos < nlist.length
      · rw [List.filter_cons_of_pos (by simpa using inside), List.foldl_cons, ih]
      · rw [List.filter_cons_of_neg (by simpa using inside),
          tlmEntryRestored_outside (not_lt.mp inside), ih]

/-- From a position on, one notice is sent for each run of equal positions. -/
theorem handled_from (last : Nat) (positions : List Nat)
    (inside : ∀ pos ∈ positions, pos < nlist.length) (sent : List Recovered) :
    sendUnrecoveredListV3 nlist (positions.foldl (tlmEntryRestored nlist) ⟨last, sent⟩) =
      ⟨-1, sent ++ (positions.destutter' (· ≠ ·) last).filterMap (notice nlist)⟩ := by
  induction positions generalizing last sent with
  | nil =>
      rw [List.foldl_nil, sendUnrecoveredListV3_last, List.destutter'_nil]
      cases noticed : notice nlist last <;> simp [noticed]
  | cons pos positions ih =>
      obtain ⟨here, later⟩ := List.forall_mem_cons.mp inside
      rw [List.foldl_cons, tlmEntryRestored_next here]
      by_cases change : last ≠ pos
      · rw [if_pos change, ih pos later, List.destutter'_cons_pos _ change]
        cases noticed : notice nlist last <;> simp [noticed]
      · rw [if_neg change, ih last later, List.destutter'_cons_neg _ change]

/-- The client is told of one success for each run of equal positions. -/
theorem handled_eq (nlist : List MemNdmpName) (ops : List RestoreOp) :
    sendUnrecoveredListV3 nlist (handleReports nlist Recovery.start ops) =
      ⟨-1, ((reportedIndices nlist ops).destutter (· ≠ ·)).filterMap (notice nlist)⟩ := by
  have inside : ∀ pos ∈ reportedIndices nlist ops, pos < nlist.length := by
    intro pos listed
    simpa using (List.mem_filter.mp listed).2
  unfold handleReports
  rw [handled_inside]
  change sendUnrecoveredListV3 nlist ((reportedIndices nlist ops).foldl _ _) = _
  cases positions : reportedIndices nlist ops with
  | nil => rfl
  | cons pos rest =>
      rw [positions] at inside
      obtain ⟨here, later⟩ := List.forall_mem_cons.mp inside
      rw [List.foldl_cons, Recovery.start, tlmEntryRestored_first here, handled_from pos rest later,
        List.destutter_cons', List.nil_append]

/-- As many notices of a name are sent as its position occurs. -/
theorem filter_notices {idx : Nat} {ep : MemNdmpName} (entry : nlist[idx]? = some ep)
    (positions : List Nat) :
    (positions.filterMap (notice nlist)).filter (·.idx = idx) =
      List.replicate (positions.count idx) ⟨idx, ep.opath, .noErr⟩ := by
  induction positions with
  | nil => rfl
  | cons pos positions ih =>
      by_cases same : pos = idx
      · have noticed : notice nlist pos = some ⟨idx, ep.opath, .noErr⟩ := by
          rw [same, notice, entry, Option.map_some]
        rw [List.filterMap_cons_some noticed, List.filter_cons_of_pos (by simp), ih, same,
          List.count_cons_self, List.replicate_succ]
      · rw [List.count_cons_of_ne same, ← ih]
        unfold notice
        cases other : nlist[pos]? with
        | none => rw [List.filterMap_cons_none (by rw [other]; rfl)]
        | some ep' =>
            rw [List.filterMap_cons_some (by rw [other]; rfl),
              List.filter_cons_of_neg (by simpa using same)]

/-- The statuses that the client gets are as they should be exactly if every name is matched
and its notices are one. -/
theorem oneStatusEach_notices (matched : Nat → Prop) (positions : List Nat) :
    OneStatusEach nlist matched (positions.filterMap (notice nlist)) ↔
      ∀ idx < nlist.length, matched idx ∧ positions.count idx = 1 := by
  unfold OneStatusEach
  constructor
  · intro each idx inside
    obtain ⟨success, notFound⟩ := each idx nlist[idx] (List.getElem?_eq_getElem inside)
    rw [filter_notices (List.getElem?_eq_getElem inside)] at success notFound
    by_cases known : matched idx
    · refine ⟨known, ?_⟩
      have lengths := congrArg List.length (success known)
      simpa using lengths
    · have errors := notFound known
      cases count : positions.count idx <;> simp [count, List.replicate_succ] at errors
  · intro each idx ep entry
    obtain ⟨inside, -⟩ := List.getElem?_eq_some_iff.mp entry
    obtain ⟨known, once⟩ := each idx inside
    rw [filter_notices entry, once]
    exact ⟨fun _ => rfl, fun unknown => absurd known unknown⟩

end Reports

/-- The client gets one status for every name exactly if every name is matched by an entry
that was restored, and the entries that are reported for it stand together: it is reported, and
not again once another one has been. -/
theorem oneStatusEach_iff (nlist : List MemNdmpName) (others : RestoreArgs)
    (blocks : List ReadBlock) (hardlinkQ : HardlinkQ) (io : RestoreIo) (rounds : Nat) :
    let names := (setupsels nlist).1
    let restored := RestoreRun.restoredNames { others with sels := (setupsels nlist).2 } blocks
      hardlinkQ io rounds
    let restore := ndmpdRsSarTarV3 nlist others blocks hardlinkQ io rounds
    OneStatusEach names (Matched names others.flags restored) restore.2.sent ↔
      ∀ idx < names.length, Matched names others.flags restored idx ∧
        InOneRun idx (reportedIndices names restore.1.ops) := by
  intro names restored restore
  have told : restore.2.sent = ((reportedIndices names restore.1.ops).destutter
      (· ≠ ·)).filterMap (notice names) := by
    have flushed := handled_eq names restore.1.ops
    exact congrArg (fun recovery => (sendUnrecoveredListV3 names recovery).sent) flushed
  rw [told, oneStatusEach_notices]
  simp only [count_destutter_eq_one_iff]

/-- A restore of `/v/a` and `/v/b` to where they were. -/
def twoNames : List MemNdmpName :=
  [⟨[slash, 118, slash, 97], none, none⟩, ⟨[slash, 118, slash, 98], none, none⟩]

/-- The arguments of a restore in place. -/
def inPlace : RestoreArgs where
  newName _ name := some name
  sels := []
  exls := []
  flags := ⟨true, false, false, false⟩
  dar := false
  existing _ := none
  mknod _ _ := true

/-- The archive has no `/v/b`, and the client hears nothing of it. -/
theorem missingName_untold :
    ¬ ∀ (nlist : List MemNdmpName) (others : RestoreArgs) (blocks : List ReadBlock)
        (hardlinkQ : HardlinkQ) (io : RestoreIo) (rounds : Nat),
      let names := (setupsels nlist).1
      let restored := RestoreRun.restoredNames { others with sels := (setupsels nlist).2 } blocks
        hardlinkQ io rounds
      OneStatusEach names (Matched names others.flags restored)
        (ndmpdRsSarTarV3 nlist others blocks hardlinkQ io rounds).2.sent := by
  intro always
  have each := always twoNames inPlace [fifoBlock [slash, 118, slash, 97]] [] ⟨[], [], []⟩ 2
  have silent : (ndmpdRsSarTarV3 twoNames inPlace [fifoBlock [slash, 118, slash, 97]] []
      ⟨[], [], []⟩ 2).2.sent.filter (·.idx = 1) = [] := by
    decide +kernel
  obtain ⟨success, notFound⟩ := each 1 ⟨[slash, 118, slash, 98], none, none⟩ rfl
  by_cases known : Matched (setupsels twoNames).1 inPlace.flags
      (RestoreRun.restoredNames { inPlace with sels := (setupsels twoNames).2 }
        [fifoBlock [slash, 118, slash, 97]] [] ⟨[], [], []⟩ 2) 1
  · cases silent.symm.trans (success known)
  · cases silent.symm.trans (notFound known)

end Ndmpd
