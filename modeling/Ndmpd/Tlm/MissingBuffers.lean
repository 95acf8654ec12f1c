import Mathlib.Data.List.GetD
import Ndmpd.Tlm.ArchiveTail
import Ndmpd.Tlm.FramedFiles
import Ndmpd.Tlm.RestoreFrames
import Ndmpd.Tlm.SectionRecords

/-!
# Stopping between two buffer requests

When `tc_reader` leaves `TLM_BACKUP_RUN`, `get_write_buffer` returns NULL, and when
`tc_writer` leaves `TLM_RESTORE_RUN`, `get_read_buffer` does. The callers that ask for a
header look at the result. `output_mem` and `input_mem` do not, nor does `restore_file`
for a file that it writes.

An encoder function that is stopped after some grants does what it does otherwise up to
there (`RunsAt`), so it depends on the next request alone whether the NULL record is
written to: it is when the request is for the data behind one of the headers that
`output_mem` follows (`tlmOutputFile_faulted`). In the decoder there is such a point
exactly for the records that announce such data, and for wanted files
(`missingBuffer_untouched_iff`).
-/

namespace Ndmpd

/-! ## Data that is copied from memory -/

/-- Headers whose data comes from `output_mem`. The data of files is read into the
buffers. -/
def TlmTarHdr.copies (header : TlmTarHdr) : Bool :=
  header.thLinkflag = lfAcl ∨ header.thLinkflag = lfHumongus ∨
    header.thLinkflag = lfLongname ∨ header.thLinkflag = lfLonglink

namespace Put

/-- Whether data that follows is copied by `output_mem`, given whether it was so far. -/
def copying : Bool → List Put → Bool
  | mode, [] => mode
  | _, .header tarHdr :: rest => copying tarHdr.copies rest
  | mode, .data _ _ :: rest => copying mode rest

/-- Which grants of a list are requests of `output_mem`. -/
def copied : Bool → List Put → List Bool
  | _, [] => []
  | _, .header tarHdr :: rest => false :: copied tarHdr.copies rest
  | mode, .data _ _ :: rest => mode :: copied mode rest

theorem length_copied (mode : Bool) (puts : List Put) :
    (copied mode puts).length = puts.length := by
  induction puts generalizing mode with
  | nil => rfl
  | cons put rest ih =>
      cases put with
      | header tarHdr => exact congrArg (· + 1) (ih tarHdr.copies)
      | data granted bytes => exact congrArg (· + 1) (ih mode)

theorem copying_append (mode : Bool) (first second : List Put) :
    copying mode (first ++ second) = copying (copying mode first) second := by
  induction first generalizing mode with
  | nil => rfl
  | cons put rest ih =>
      cases put with
      | header tarHdr => exact ih tarHdr.copies
      | data granted bytes => exact ih mode

theorem copied_append (mode : Bool) (first second : List Put) :
    copied mode (first ++ second) = copied mode first ++ copied (copying mode first) second := by
  induction first generalizing mode with
  | nil => rfl
  | cons put rest ih =>
      cases put with
      | header tarHdr => exact congrArg (false :: ·) (ih tarHdr.copies)
      | data granted bytes => exact congrArg (mode :: ·) (ih mode)

end Put

namespace TarStream

open Put

/-! ## Stopping an encoder function -/

/-- The stream with `tc_reader` to leave `TLM_BACKUP_RUN` after some more grants. -/
def stopAfter (stream : TarStream) (grants : Nat) : TarStream :=
  { stream with grantsLeft := some grants }

/-- What a function does to a stopped stream: nothing, as far as the NULL record goes. -/
def Rests (step : TarStream → TarStream) : Prop :=
  ∀ stream : TarStream, stream.granting = false →
    (step stream).granting = false ∧ (step stream).faulted = stream.faulted

/-- What a function does from a stream that is not going to be stopped, and what it does
when the stream is stopped after some grants: the same, if it asks for no more than
these, or else it is stopped, with a fault if the next request is one of `output_mem`.
`before` and `after` say whether data would be copied there. -/
def RunsAt (before after : Bool) (step : TarStream → TarStream) (stream : TarStream) : Prop :=
  ∃ puts, (step stream).puts = stream.puts ++ puts ∧ (step stream).grantsLeft = none ∧
    (step stream).faulted = stream.faulted ∧ copying before puts = after ∧
    (∀ more, step (stream.stopAfter (puts.length + more)) = (step stream).stopAfter more) ∧
    ∀ grants, grants < puts.length → (step (stream.stopAfter grants)).granting = false ∧
      (step (stream.stopAfter grants)).faulted =
        (stream.faulted || (copied before puts).getD grants false)

variable {stream next : TarStream} {before between after : Bool}

theorem RunsAt.grantsLeft {step : TarStream → TarStream} (runs : RunsAt before after step stream) :
    (step stream).grantsLeft = none := by
  obtain ⟨_, _, unlimited, _⟩ := runs
  exact unlimited

/-- A function that asks for nothing. -/
theorem RunsAt.touch {step : TarStream → TarStream} (puts : (step stream).puts = stream.puts)
    (unlimited : (step stream).grantsLeft = none) (faulted : (step stream).faulted = stream.faulted)
    (same : ∀ grants, step (stream.stopAfter grants) = (step stream).stopAfter grants) :
    RunsAt before before step stream := by
  refine ⟨[], ?_, unlimited, faulted, rfl, ?_, ?_⟩
  · rw [puts, List.append_nil]
  · intro more
    rw [List.length_nil, Nat.zero_add]
    exact same more
  · intro grants less
    exact absurd less (Nat.not_lt_zero _)

/-- A function that does nothing. -/
theorem RunsAt.nothing {step : TarStream → TarStream} (same : ∀ stream, step stream = stream)
    (unlimited : stream.grantsLeft = none) : RunsAt before before step stream := by
  refine .touch ?_ ?_ ?_ fun grants => ?_
  · rw [same]
  · rwa [same]
  · rw [same]
  · rw [same, same]

/-- A function that asks for a record and goes on with it. -/
theorem RunsAt.put {step rest : TarStream → TarStream} (put : Put)
    (puts : next.puts = stream.puts ++ [put]) (faulted : next.faulted = stream.faulted)
    (whole : step stream = rest next)
    (later : ∀ grants, step (stream.stopAfter (grants + 1)) = rest (next.stopAfter grants))
    (stopped : (step (stream.stopAfter 0)).granting = false ∧
      (step (stream.stopAfter 0)).faulted =
        (stream.faulted || (copied before [put]).getD 0 false))
    (runs : RunsAt (copying before [put]) after rest next) : RunsAt before after step stream := by
  obtain ⟨more, morePuts, unlimited, moreFaulted, mode, goesOn, stops⟩ := runs
  refine ⟨put :: more, ?_, ?_, ?_, ?_, ?_, ?_⟩
  · rw [whole, morePuts, puts, List.append_assoc]
    rfl
  · rw [whole, unlimited]
  · rw [whole, moreFaulted, faulted]
  · rw [← List.singleton_append, copying_append]
    exact mode
  · intro count
    rw [List.length_cons, Nat.add_right_comm, later, whole]
    exact goesOn count
  · intro grants less
    have split : copied before (put :: more) =
        copied before [put] ++ copied (copying before [put]) more := by
      rw [← List.singleton_append, copied_append]
    have one : (copied before [put]).length = 1 := length_copied before [put]
    rw [split]
    cases grants with
    | zero =>
        rw [List.getD_append _ _ _ _ (by omega)]
        exact stopped
    | succ grants =>
        rw [later, List.getD_append_right _ _ _ _ (by omega), one, Nat.add_sub_cancel, ← faulted]
        exact stops grants (Nat.lt_of_succ_lt_succ less)

/-- One function after the other. -/
theorem RunsAt.comp {first second : TarStream → TarStream}
    (runs : RunsAt before between first stream)
    (runsOn : RunsAt between after second (first stream)) (rests : Rests second) :
    RunsAt before after (fun stream => second (first stream)) stream := by
  obtain ⟨puts, isPuts, unlimited, faulted, mode, goesOn, stops⟩ := runs
  obtain ⟨more, isMore, moreUnlimited, moreFaulted, moreMode, moreGoesOn, moreStops⟩ := runsOn
  refine ⟨puts ++ more, ?_, moreUnlimited, moreFaulted.trans faulted, ?_, ?_, ?_⟩
  · rw [isMore, isPuts, List.append_assoc]
  · rw [copying_append, mode, moreMode]
  · intro count
    dsimp only
    rw [List.length_append, Nat.add_assoc, goesOn, moreGoesOn]
  · intro grants less
    rw [copied_append, mode]
    dsimp only
    by_cases early : grants < puts.length
    · obtain ⟨stopped, fault⟩ := stops grants early
      rw [List.getD_append _ _ _ _ (by rwa [length_copied])]
      exact ⟨(rests _ stopped).1, (rests _ stopped).2.trans fault⟩
    · obtain ⟨later, rfl⟩ := Nat.exists_eq_add_of_le (Nat.le_of_not_lt early)
      rw [goesOn, List.getD_append_right _ _ _ _ (by rw [length_copied]; omega), length_copied,
        Nat.add_sub_cancel_left, ← faulted]
      exact moreStops later (by rw [List.length_append] at less; omega)

/-! ## Requests -/

theorem putHeader_stopped (stopped : stream.granting = false) (tarHdr : TlmTarHdr) :
    stream.putHeader tarHdr = none := by
  rw [putHeader, if_neg (by rw [stopped]; decide)]

theorem putData_stopped (stopped : stream.granting = false) (want : Nat) (zero : Bool)
    (bytes : Nat → List UInt8) : stream.putData want zero bytes = none := by
  rw [putData, if_neg (by rw [stopped]; decide)]

/-- A request for a header goes through in the same way as long as grants are left. -/
theorem putHeader_runs (unlimited : stream.grantsLeft = none) (tarHdr : TlmTarHdr) :
    ∃ next, stream.putHeader tarHdr = some next ∧ next.puts = stream.puts ++ [.header tarHdr] ∧
      next.grantsLeft = none ∧ next.faulted = stream.faulted ∧
      next.fileCount = stream.fileCount ∧
      ∀ grants, (stream.stopAfter (grants + 1)).putHeader tarHdr =
        some (next.stopAfter grants) := by
  rw [putHeader, if_pos (granting_of_unlimited unlimited)]
  exact ⟨_, rfl, rfl, by rw [unlimited]; rfl, rfl, rfl, fun _ => rfl⟩

/-- So does a request for data. -/
theorem putData_runs (unlimited : stream.grantsLeft = none) (want : Nat) (zero : Bool)
    (bytes : Nat → List UInt8) :
    ∃ next, stream.putData want zero bytes = some next ∧
      next.puts = stream.puts ++ [.data (stream.pool.granted want)
        ((bytes (stream.pool.granted want)).take (stream.pool.granted want))] ∧
      next.grantsLeft = none ∧ next.faulted = stream.faulted ∧
      ∀ grants, (stream.stopAfter (grants + 1)).putData want zero bytes =
        some (next.stopAfter grants) := by
  rw [putData, if_pos (granting_of_unlimited unlimited)]
  exact ⟨_, rfl, rfl, by rw [unlimited]; rfl, rfl, fun _ => rfl⟩

/-- `output_mem` does not look at what it gets. -/
theorem outputMemLoop_runs (rounds : Nat) (mem : List UInt8)
    (unlimited : stream.grantsLeft = none) :
    RunsAt true true (fun stream => outputMemLoop rounds stream mem) stream := by
  induction rounds generalizing stream mem with
  | zero => exact .touch rfl unlimited rfl fun _ => rfl
  | succ rounds ih =>
      by_cases empty : mem = []
      · have nothing : ∀ stream, outputMemLoop (rounds + 1) stream mem = stream := by
          intro stream
          rw [outputMemLoop, if_pos empty]
        exact .nothing nothing unlimited
      · obtain ⟨next, put, puts, left, faulted, later⟩ :=
          putData_runs unlimited mem.length false fun actualSize => mem.take actualSize
        refine .put _ puts faulted ?_ (fun grants => ?_) ?_
          (ih (mem.drop (stream.pool.granted mem.length)) left)
        · rw [outputMemLoop, if_neg empty, put]
        · rw [outputMemLoop, if_neg empty, later]
          rfl
        · rw [outputMemLoop, if_neg empty, putData_stopped rfl]
          exact ⟨rfl, (Bool.or_true _).symm⟩

theorem outputMem_runs (mem : List UInt8) (unlimited : stream.grantsLeft = none) :
    RunsAt true true (fun stream => stream.outputMem mem) stream :=
  outputMemLoop_runs mem.length mem unlimited

/-- A header is asked for, and without it what follows is left out. -/
def headed (tarHdr : TarStream → TlmTarHdr) (rest : TarStream → TarStream) (stream : TarStream) :
    TarStream :=
  match stream.putHeader (tarHdr stream) with
  | none => stream
  | some next => rest next

variable {tarHdr : TarStream → TlmTarHdr} {rest : TarStream → TarStream}

theorem headed_rests : Rests (headed tarHdr rest) := by
  intro stream stopped
  rw [headed, putHeader_stopped stopped]
  exact ⟨stopped, rfl⟩

theorem headed_runs (unlimited : stream.grantsLeft = none)
    (same : ∀ grants, tarHdr (stream.stopAfter grants) = tarHdr stream)
    (runs : ∀ next, next.grantsLeft = none → RunsAt (tarHdr stream).copies after rest next) :
    RunsAt before after (headed tarHdr rest) stream := by
  obtain ⟨next, put, puts, left, faulted, _, later⟩ := putHeader_runs unlimited (tarHdr stream)
  refine .put (.header (tarHdr stream)) puts faulted ?_ (fun grants => ?_) ?_ (runs next left)
  · rw [headed, put]
  · rw [headed, same, later]
  · rw [headed, putHeader_stopped rfl]
    exact ⟨rfl, (Bool.or_false _).symm⟩

/-! ## The functions of the backup reader -/

theorem outputAclHeader_headed (acl : SecAttr) (text : acl.attrInfo.head?.getD 0 ≠ 0) :
    ∃ tarHdr : TlmTarHdr, tarHdr.copies = true ∧
      (fun stream => stream.outputAclHeader (some acl)) =
        headed (fun _ => tarHdr) fun next => next.outputMem (acl.image ++ acl.attrInfo) := by
  refine ⟨tlmBuildHeaderChecksum { TlmTarHdr.zero with
    thLinkflag := lfAcl
    thName := .ofString _ "UFSACL".toUTF8.toList
    thSize := octalField _ 11 (acl.image ++ acl.attrInfo).length
    thMode := octalField _ 6 0o444
    thUid := octalField _ 6 0
    thGid := octalField _ 6 0
    thMtime := octalField _ 11 0
    thMagic := .ofString _ tlmMagic }, rfl, ?_⟩
  funext stream
  rw [outputAclHeader, if_neg text]
  rfl

theorem outputAclHeader_runs (aclInfo : Option SecAttr) (unlimited : stream.grantsLeft = none) :
    ∃ after, RunsAt before after (fun stream => stream.outputAclHeader aclInfo) stream := by
  cases aclInfo with
  | none => exact ⟨before, .nothing (fun _ => rfl) unlimited⟩
  | some acl =>
      by_cases empty : acl.attrInfo.head?.getD 0 = 0
      · exact ⟨before, .nothing (fun _ => if_pos empty) unlimited⟩
      · obtain ⟨tarHdr, copies, same⟩ := outputAclHeader_headed acl empty
        rw [same]
        refine ⟨true, headed_runs unlimited (fun _ => rfl) fun next left => ?_⟩
        rw [copies]
        exact outputMem_runs _ left

theorem outputHumongusHeader_headed (fullname : CString) (fileSize : Nat) :
    ∃ (tarHdr : TlmTarHdr) (mem : List UInt8), tarHdr.copies = true ∧
      (fun stream => stream.outputHumongusHeader fullname fileSize) =
        headed (fun _ => tarHdr) fun next => next.outputMem mem :=
  ⟨_, _, by exact rfl, rfl⟩

theorem outputHugeName_rests (fullname : CString) (fileSize : Nat) :
    Rests fun stream => stream.outputHugeName fullname fileSize := by
  intro stream stopped
  dsimp only
  unfold outputHugeName
  split
  · obtain ⟨tarHdr, mem, _, same⟩ := outputHumongusHeader_headed fullname fileSize
    rw [congrFun same stream]
    exact headed_rests stream stopped
  · exact ⟨stopped, rfl⟩

theorem outputHugeName_runs (fullname : CString) (fileSize : Nat)
    (unlimited : stream.grantsLeft = none) :
    ∃ after,
      RunsAt before after (fun stream => stream.outputHugeName fullname fileSize) stream := by
  unfold outputHugeName
  by_cases huge : tlmMaxTarImage < fileSize
  · obtain ⟨tarHdr, mem, copies, same⟩ := outputHumongusHeader_headed fullname fileSize
    refine ⟨true, ?_⟩
    simp only [if_pos huge]
    rw [same]
    apply headed_runs unlimited fun _ => rfl
    intro next left
    rw [copies]
    exact outputMem_runs mem left
  · refine ⟨before, .nothing (fun stream => if_neg huge) unlimited⟩

/-- A long name with its header, which is left out when the header is not granted. -/
def longNamed (owned : TlmTarHdr) (name : CString) : TarStream → TarStream :=
  if tlmNameSize ≤ name.length then
    headed (fun stream => tlmBuildHeaderChecksum { owned with
        thName := .ofString _ (longName stream.fileCount filSuffix)
        thLinkflag := lfLongname
        thSize := octalField _ 11 name.length })
      fun next => { next with fileCount := next.fileCount + 1 }.outputMem name
  else id

/-- A long link target with its header. -/
def longLinked (owned : TlmTarHdr) (link : CString) : TarStream → TarStream :=
  if tlmNameSize ≤ link.length then
    headed (fun stream => tlmBuildHeaderChecksum { owned with
        thLinkname := .ofString _ (longName stream.fileCount slkSuffix)
        thLinkflag := lfLonglink
        thSize := octalField _ 11 link.length })
      fun next => { next with fileCount := next.fileCount + 1 }.outputMem link
  else id

theorem long_rests {long : Prop} [Decidable long] {step : TarStream → TarStream}
    (rests : Rests step) : Rests (if long then step else id) := by
  split
  · exact rests
  · exact fun stream stopped => ⟨stopped, rfl⟩

theorem longNamed_rests (owned : TlmTarHdr) (name : CString) : Rests (longNamed owned name) :=
  long_rests headed_rests

theorem longLinked_rests (owned : TlmTarHdr) (link : CString) : Rests (longLinked owned link) :=
  long_rests headed_rests

/-- The counter of made-up names goes on before the name is copied. -/
theorem counted_runs (mem : List UInt8) (unlimited : stream.grantsLeft = none) :
    RunsAt true true
      (fun next => { next with fileCount := next.fileCount + 1 }.outputMem mem) stream :=
  @outputMem_runs { stream with fileCount := stream.fileCount + 1 } mem unlimited

theorem longNamed_runs (owned : TlmTarHdr) (name : CString) (unlimited : stream.grantsLeft = none) :
    ∃ after, RunsAt before after (longNamed owned name) stream := by
  unfold longNamed
  split
  · exact ⟨true, headed_runs unlimited (fun _ => rfl) fun next left => counted_runs name left⟩
  · exact ⟨before, .nothing (fun _ => rfl) unlimited⟩

theorem longLinked_runs (owned : TlmTarHdr) (link : CString)
    (unlimited : stream.grantsLeft = none) :
    ∃ after, RunsAt before after (longLinked owned link) stream := by
  unfold longLinked
  split
  · exact ⟨true, headed_runs unlimited (fun _ => rfl) fun next left => counted_runs link left⟩
  · exact ⟨before, .nothing (fun _ => rfl) unlimited⟩

/-- No entry is followed by data from memory. -/
theorem copies_entryHeader (owned : TlmTarHdr) (attr : Stat) (link thName thLinkname : CString) :
    (entryHeader owned attr link thName thLinkname).copies = false := by
  have flag : (entryHeader owned attr link thName thLinkname).copies =
      { TlmTarHdr.zero with thLinkflag := linkflagOf attr link }.copies := rfl
  rw [flag]
  unfold linkflagOf
  split
  · rfl
  · rfl
  · split
    · rfl
    · split
      · rfl
      · rfl

theorem putHeader_none {tarHdr : TlmTarHdr} (refused : stream.putHeader tarHdr = none) :
    stream.granting = false := by
  unfold putHeader at refused
  split at refused
  · cases refused
  · next stopped => exact Bool.eq_false_iff.mpr stopped

theorem longNamed_of_some (owned : TlmTarHdr) (name : CString) {named : TarStream}
    (put : (if tlmNameSize ≤ name.length then stream.putLongName owned name else some stream) =
      some named) : longNamed owned name stream = named := by
  unfold longNamed
  split at put
  · next long =>
      obtain ⟨next, granted, rfl⟩ := Option.map_eq_some_iff.mp put
      rw [if_pos long, headed, granted]
  · next short =>
      cases put
      rw [if_neg short]
      rfl

theorem longNamed_of_none (owned : TlmTarHdr) (name : CString)
    (put : (if tlmNameSize ≤ name.length then stream.putLongName owned name else some stream) =
      none) : stream.granting = false ∧ longNamed owned name stream = stream := by
  unfold longNamed
  split at put
  · next long =>
      have refused := Option.map_eq_none_iff.mp put
      rw [if_pos long, headed, refused]
      exact ⟨putHeader_none refused, rfl⟩
  · cases put

theorem longLinked_of_some (owned : TlmTarHdr) (link : CString) {linked : TarStream}
    (put : (if tlmNameSize ≤ link.length then stream.putLongLink owned link else some stream) =
      some linked) : longLinked owned link stream = linked := by
  unfold longLinked
  split at put
  · next long =>
      obtain ⟨next, granted, rfl⟩ := Option.map_eq_some_iff.mp put
      rw [if_pos long, headed, granted]
  · next short =>
      cases put
      rw [if_neg short]
      rfl

theorem longLinked_of_none (owned : TlmTarHdr) (link : CString)
    (put : (if tlmNameSize ≤ link.length then stream.putLongLink owned link else some stream) =
      none) : stream.granting = false ∧ longLinked owned link stream = stream := by
  unfold longLinked
  split at put
  · next long =>
      have refused := Option.map_eq_none_iff.mp put
      rw [if_pos long, headed, refused]
      exact ⟨putHeader_none refused, rfl⟩
  · cases put

theorem longLinked_stopped (owned : TlmTarHdr) (link : CString)
    (stopped : stream.granting = false) : longLinked owned link stream = stream := by
  unfold longLinked
  split
  · rw [headed, putHeader_stopped stopped]
  · rfl

theorem putEntryHeader_stopped (owned : TlmTarHdr) (attr : Stat) (name link : CString)
    (stopped : stream.granting = false) : stream.putEntryHeader owned attr name link = stream := by
  simp only [putEntryHeader, putHeader_stopped stopped]

/-- `output_file_header`, as the long name, the long link target and the entry in turn. -/
theorem outputFileHeader_eq (owners : OwnerNames) (name link : CString) (attr : Stat)
    (sectionNo : Nat) (stream : TarStream) :
    stream.outputFileHeader owners name link attr sectionNo =
      (longLinked (ownedHeader owners attr) link
        (longNamed (ownedHeader owners attr) (sectionName name sectionNo) stream)).putEntryHeader
          (ownedHeader owners attr) attr (sectionName name sectionNo) link := by
  unfold outputFileHeader
  dsimp only
  split
  case h_1 refused =>
    obtain ⟨stopped, same⟩ := longNamed_of_none _ _ refused
    rw [same, longLinked_stopped _ _ stopped, putEntryHeader_stopped _ _ _ _ stopped]
  case h_2 named put =>
    rw [longNamed_of_some _ _ put]
    split
    case h_1 refused =>
      obtain ⟨stopped, same⟩ := longLinked_of_none _ _ refused
      rw [same, putEntryHeader_stopped _ _ _ _ stopped]
    case h_2 linked put => rw [longLinked_of_some _ _ put]

/-- The header of an entry, with made-up names for what is long. -/
def countedHeader (owned : TlmTarHdr) (attr : Stat) (name link : CString) (fileCount : Nat) :
    TlmTarHdr :=
  entryHeader owned attr link
    (if tlmNameSize ≤ name.length then longName fileCount filSuffix else name)
    (if tlmNameSize ≤ link.length then
      longName (if tlmNameSize ≤ name.length then fileCount + 1 else fileCount) slkSuffix
    else link)

/-- The counter after an entry. -/
def nextFileCount (name link : CString) (fileCount : Nat) : Nat :=
  let isLongName := tlmNameSize ≤ name.length
  let isLongLink := tlmNameSize ≤ link.length
  let linkCount := if isLongName then fileCount + 1 else fileCount
  let nextCount := if isLongLink then linkCount + 1 else linkCount
  if (isLongName ∨ isLongLink) ∧ 99999990 < nextCount then 0 else nextCount

theorem fileCount_putHeader {tarHdr : TlmTarHdr} (put : stream.putHeader tarHdr = some next) :
    next.fileCount = stream.fileCount := by
  rw [putHeader, Option.ite_none_right_eq_some] at put
  obtain ⟨_, same⟩ := put
  cases same
  rfl

theorem putEntryHeader_headed (owned : TlmTarHdr) (attr : Stat) (name link : CString) :
    (fun stream => putEntryHeader stream owned attr name link) =
      headed (fun stream => countedHeader owned attr name link stream.fileCount)
        fun next => { next with fileCount := nextFileCount name link next.fileCount } := by
  funext stream
  simp only [putEntryHeader, headed]
  change (match stream.putHeader (countedHeader owned attr name link stream.fileCount) with
    | none => stream
    | some next => { next with fileCount := nextFileCount name link stream.fileCount }) = _
  split
  · rfl
  · next put => rw [fileCount_putHeader put]

theorem outputFileHeader_rests (owners : OwnerNames) (name link : CString) (attr : Stat)
    (sectionNo : Nat) :
    Rests fun stream => stream.outputFileHeader owners name link attr sectionNo := by
  intro stream stopped
  have named :=
    longNamed_rests (ownedHeader owners attr) (sectionName name sectionNo) stream stopped
  have linked := longLinked_rests (ownedHeader owners attr) link _ named.1
  dsimp only
  rw [outputFileHeader_eq, putEntryHeader_stopped _ _ _ _ linked.1]
  exact ⟨linked.1, linked.2.trans named.2⟩

/-- Behind the header of an entry come the data of the file. -/
theorem outputFileHeader_runs (owners : OwnerNames) (name link : CString) (attr : Stat)
    (sectionNo : Nat) (unlimited : stream.grantsLeft = none) :
    RunsAt before false (fun stream => stream.outputFileHeader owners name link attr sectionNo)
      stream := by
  simp only [outputFileHeader_eq]
  obtain ⟨namedMode, named⟩ := @longNamed_runs _ before (ownedHeader owners attr)
    (sectionName name sectionNo) unlimited
  obtain ⟨linkedMode, linked⟩ := @longLinked_runs _ namedMode (ownedHeader owners attr) link
    named.grantsLeft
  have both := named.comp linked (longLinked_rests _ _)
  have headers := putEntryHeader_headed (ownedHeader owners attr) attr
    (sectionName name sectionNo) link
  have entry : RunsAt linkedMode false
      (fun stream => putEntryHeader stream (ownedHeader owners attr) attr
        (sectionName name sectionNo) link)
      (longLinked (ownedHeader owners attr) link
        (longNamed (ownedHeader owners attr) (sectionName name sectionNo) stream)) := by
    rw [headers]
    apply headed_runs linked.grantsLeft fun _ => rfl
    intro next left
    rw [countedHeader, copies_entryHeader]
    exact .touch rfl left rfl fun _ => rfl
  apply both.comp entry
  rw [headers]
  exact headed_rests

/-- `tlm_output_dir`. -/
theorem tlmOutputDir_runs (owners : OwnerNames) (name : CString) (attr : Stat)
    (aclInfo : Option SecAttr) (unlimited : stream.grantsLeft = none) :
    RunsAt before false (fun stream => stream.tlmOutputDir owners name attr aclInfo) stream := by
  obtain ⟨mode, acl⟩ := @outputAclHeader_runs _ before aclInfo unlimited
  exact acl.comp (outputFileHeader_runs owners name [] attr 0 acl.grantsLeft)
    (outputFileHeader_rests _ _ _ _ _)

/-! ## File data -/

section Data

variable {run : FileRun} {putSection : TarStream → Nat → Nat → TarStream} {cursor : DataCursor}

/-- A request for file data, which `tlm_output_file` gives up when it is not granted. -/
theorem putData_then_runs {step rest : TarStream → TarStream} {want : Nat} {zero : Bool}
    {bytes : Nat → List UInt8} (unlimited : stream.grantsLeft = none)
    (granted : ∀ grants next, { stream with grantsLeft := grants }.putData want zero bytes =
      some next → step { stream with grantsLeft := grants } = rest next)
    (refused : (step (stream.stopAfter 0)).granting = false ∧
      (step (stream.stopAfter 0)).faulted = stream.faulted)
    (runs : ∀ next, next.grantsLeft = none → RunsAt false after rest next) :
    RunsAt false after step stream := by
  obtain ⟨next, put, puts, left, faulted, later⟩ := putData_runs unlimited want zero bytes
  have unstopped : stream = { stream with grantsLeft := none } := by
    rw [← unlimited]
  refine .put _ puts faulted ?_ (fun grants => granted _ _ (later grants)) ?_ (runs next left)
  · rw [unstopped]
    exact granted none next (unstopped ▸ put)
  · exact ⟨refused.1, refused.2.trans (Bool.or_false _).symm⟩

theorem openSection_rests
    (headers : ∀ size number, Rests fun stream => putSection stream size number) :
    Rests fun stream => (stream.openSection putSection cursor).1 := by
  intro stream stopped
  dsimp only
  unfold openSection
  split
  · exact headers _ _ stream stopped
  · exact ⟨stopped, rfl⟩

theorem openSection_runs
    (headers : ∀ before size number stream, grantsLeft stream = none →
      RunsAt before false (fun stream => putSection stream size number) stream)
    (opens : before = false ∨ cursor.sectionSize = 0) (unlimited : stream.grantsLeft = none) :
    RunsAt before false (fun stream => (stream.openSection putSection cursor).1) stream := by
  unfold openSection
  split
  · exact headers before _ _ stream unlimited
  · next inside =>
      rw [opens.resolve_right inside]
      exact .nothing (fun _ => rfl) unlimited

/-- The cursor behind the head of a section. -/
def openCursor (cursor : DataCursor) : DataCursor :=
  if cursor.sectionSize = 0 then { cursor with sectionSize := min cursor.fileSize tlmMaxTarImage }
  else cursor

theorem openSection_cursor (stream : TarStream) :
    stream.openSection putSection cursor =
      ((stream.openSection putSection cursor).1, openCursor cursor) := by
  unfold openSection openCursor
  split
  · rfl
  · rfl

/-- What `tlm_output_file` does where it finds the operation aborted. -/
def abortData (run : FileRun) (cursor : DataCursor) (stream : TarStream) : TarStream :=
  if run.abortWithBuffer then
    match stream.putData cursor.sectionSize false fun _ => [] with
    | none => stream
    | some next => { next with tcWriterAbort := true }
  else { stream with tcWriterAbort := true }

/-- A round of the loops of `tlm_output_file` behind the head of a section. -/
def readData (run : FileRun) (cursor : DataCursor)
    (onward : TarStream → DataCursor → TarStream) (stream : TarStream) : TarStream :=
  let readSize := min cursor.sectionSize (stream.pool.granted cursor.sectionSize)
  match run.reads cursor.call cursor.seekSpot readSize with
  | .error =>
      match stream.putData cursor.sectionSize false fun _ => [] with
      | none => stream
      | some next => next
  | .bytes bytes =>
      match stream.putData cursor.sectionSize false fun _ => bytes.take readSize with
      | none => stream
      | some next => onward next (cursor.advance (bytes.take readSize).length)

theorem outputData_zero (filled : cursor.fileSize ≠ 0) (stream : TarStream) :
    (outputData run putSection 0 stream cursor).1 =
      abortData run (openCursor cursor) (stream.openSection putSection cursor).1 := by
  rw [outputData, if_neg filled, openSection_cursor]
  unfold abortData
  generalize (stream.openSection putSection cursor).1 = opened
  dsimp only
  split
  · cases opened.putData (openCursor cursor).sectionSize false fun _ => [] with
    | none => rfl
    | some next => rfl
  · rfl

theorem outputData_succ (filled : cursor.fileSize ≠ 0) (reads : Nat) (stream : TarStream) :
    (outputData run putSection (reads + 1) stream cursor).1 =
      readData run (openCursor cursor)
        (fun next cursor => (outputData run putSection reads next cursor).1)
        (stream.openSection putSection cursor).1 := by
  rw [outputData, if_neg filled, openSection_cursor]
  unfold readData
  generalize (stream.openSection putSection cursor).1 = opened
  generalize openCursor cursor = cursor
  dsimp only
  cases run.reads cursor.call cursor.seekSpot
      (min cursor.sectionSize (opened.pool.granted cursor.sectionSize)) with
  | error =>
      cases opened.putData cursor.sectionSize false fun _ => [] with
      | none => rfl
      | some next => rfl
  | bytes bytes =>
      dsimp only
      cases opened.putData cursor.sectionSize false fun _ => bytes.take
          (min cursor.sectionSize (opened.pool.granted cursor.sectionSize)) with
      | none => rfl
      | some next => rfl

theorem abortData_rests : Rests (abortData run cursor) := by
  intro stream stopped
  unfold abortData
  rw [putData_stopped stopped]
  split
  · exact ⟨stopped, rfl⟩
  · exact ⟨stopped, rfl⟩

theorem readData_rests {onward : TarStream → DataCursor → TarStream} :
    Rests (readData run cursor onward) := by
  intro stream stopped
  unfold readData
  dsimp only
  split
  · rw [putData_stopped stopped]
    exact ⟨stopped, rfl⟩
  · rw [putData_stopped stopped]
    exact ⟨stopped, rfl⟩

theorem abortData_runs (unlimited : stream.grantsLeft = none) :
    RunsAt false false (abortData run cursor) stream := by
  unfold abortData
  split
  · apply putData_then_runs unlimited
    · intro grants next put
      rw [put]
    · rw [putData_stopped rfl]
      exact ⟨rfl, rfl⟩
    · intro next left
      exact .touch rfl left rfl fun _ => rfl
  · exact .touch rfl unlimited rfl fun _ => rfl

theorem readData_runs {onward : TarStream → DataCursor → TarStream}
    (unlimited : stream.grantsLeft = none)
    (runs : ∀ cursor next, grantsLeft next = none →
      RunsAt false false (fun next => onward next cursor) next) :
    RunsAt false false (readData run cursor onward) stream := by
  have stopped := (@readData_rests run cursor onward) (stream.stopAfter 0) rfl
  cases result : run.reads cursor.call cursor.seekSpot
      (min cursor.sectionSize (stream.pool.granted cursor.sectionSize)) with
  | error =>
      refine @putData_then_runs stream false _ id cursor.sectionSize false (fun _ => []) unlimited
        (fun grants next put => ?_) stopped fun next left => .nothing (fun _ => rfl) left
      simp only [readData, result]
      rw [put]
      rfl
  | bytes bytes =>
      refine @putData_then_runs stream false _
        (fun next => onward next (cursor.advance (bytes.take (min cursor.sectionSize
          (stream.pool.granted cursor.sectionSize))).length)) cursor.sectionSize false
        (fun _ => bytes.take (min cursor.sectionSize (stream.pool.granted cursor.sectionSize)))
        unlimited (fun grants next put => ?_) stopped fun next left => runs _ next left
      simp only [readData, result]
      rw [put]

/-- The loops of `tlm_output_file` give up when a request is not granted. -/
theorem outputData_rests
    (headers : ∀ size number, Rests fun stream => putSection stream size number)
    (reads : Nat) : Rests fun stream => (outputData run putSection reads stream cursor).1 := by
  intro stream stopped
  have opened := (@openSection_rests _ cursor headers) stream stopped
  by_cases empty : cursor.fileSize = 0
  · cases reads with
    | zero =>
        dsimp only
        rw [outputData, if_pos empty]
        exact ⟨stopped, rfl⟩
    | succ reads =>
        dsimp only
        rw [outputData, if_pos empty]
        exact ⟨stopped, rfl⟩
  · cases reads with
    | zero =>
        dsimp only
        rw [outputData_zero empty]
        have rested := (@abortData_rests run (openCursor cursor)) _ opened.1
        exact ⟨rested.1, rested.2.trans opened.2⟩
    | succ reads =>
        dsimp only
        rw [outputData_succ empty]
        have rested := (@readData_rests run (openCursor cursor) fun next cursor =>
          (outputData run putSection reads next cursor).1) _ opened.1
        exact ⟨rested.1, rested.2.trans opened.2⟩

theorem outputData_runs
    (headers : ∀ before size number stream, grantsLeft stream = none →
      RunsAt before false (fun stream => putSection stream size number) stream)
    (reads : Nat) (opens : before = false ∨ cursor.sectionSize = 0 ∧ cursor.fileSize ≠ 0)
    (unlimited : stream.grantsLeft = none) :
    RunsAt before false (fun stream => (outputData run putSection reads stream cursor).1)
      stream := by
  by_cases empty : cursor.fileSize = 0
  · rw [opens.resolve_right fun fresh => fresh.2 empty]
    refine .nothing (fun stream => ?_) unlimited
    cases reads with
    | zero => rw [outputData, if_pos empty]
    | succ reads => rw [outputData, if_pos empty]
  · have opened := openSection_runs headers (opens.imp_right And.left) unlimited
    induction reads generalizing stream cursor before with
    | zero =>
        simp only [outputData_zero empty]
        exact opened.comp (abortData_runs opened.grantsLeft) abortData_rests
    | succ reads ih =>
        simp only [outputData_succ empty]
        refine opened.comp (readData_runs opened.grantsLeft fun cursor next left => ?_)
          readData_rests
        by_cases ended : cursor.fileSize = 0
        · refine .nothing (fun stream => ?_) left
          cases reads with
          | zero => rw [outputData, if_pos ended]
          | succ reads => rw [outputData, if_pos ended]
        · exact ih (.inl rfl) left ended (openSection_runs headers (.inl rfl) left)

end Data

/-- The header of a file without data. -/
theorem emptyHeader_rests {empty : Prop} [Decidable empty] (owners : OwnerNames)
    (fullname : CString)
    (attr : Stat) (sectionNo : Nat) :
    Rests fun stream =>
      if empty then stream.outputFileHeader owners fullname [] attr sectionNo else stream := by
  split
  · exact outputFileHeader_rests _ _ _ _ _
  · exact fun stream stopped => ⟨stopped, rfl⟩

theorem outputContents_rests (owners : OwnerNames) (entry : FileEntry) (fullname : CString)
    (run : FileRun) (sectionNo fileSize : Nat) :
    Rests fun stream => (stream.outputContents owners entry fullname run sectionNo fileSize).1 := by
  intro stream stopped
  have empty := @emptyHeader_rests (fileSize = 0) _ owners fullname entry.attr sectionNo stream
    stopped
  have data :=
    @outputData_rests run (entry.putSection owners fullname) ⟨fileSize, 0, sectionNo, 0, 0⟩
    (fun _ _ => outputFileHeader_rests _ _ _ _ _) run.readsBeforeAbort _ empty.1
  exact ⟨data.1, data.2.trans empty.2⟩

/-- Either there is no data, and then the file has one header, or every section has one. -/
theorem outputContents_runs (owners : OwnerNames) (entry : FileEntry) (fullname : CString)
    (run : FileRun) (sectionNo fileSize : Nat) (unlimited : stream.grantsLeft = none) :
    RunsAt before false
      (fun stream => (stream.outputContents owners entry fullname run sectionNo fileSize).1)
      stream := by
  by_cases empty : fileSize = 0
  · have header : RunsAt before false
        (fun stream => if fileSize = 0 then
          stream.outputFileHeader owners fullname [] entry.attr sectionNo else stream) stream := by
      simp only [if_pos empty]
      exact outputFileHeader_runs owners fullname [] entry.attr sectionNo unlimited
    exact header.comp (outputData_runs (fun _ _ _ _ left => outputFileHeader_runs _ _ _ _ _ left)
      run.readsBeforeAbort (.inl rfl) header.grantsLeft)
      (outputData_rests (fun _ _ => outputFileHeader_rests _ _ _ _ _) _)
  · unfold outputContents
    simp only [if_neg empty]
    exact outputData_runs (fun _ _ _ _ left => outputFileHeader_runs _ _ _ _ _ left)
      run.readsBeforeAbort (.inr ⟨rfl, empty⟩) unlimited

/-- `tlm_output_file`, whatever else it returns. -/
theorem tlmOutputFile_runs (owners : OwnerNames) (entry : FileEntry) (run : FileRun)
    (hardlinkQ : HardlinkQ) (unlimited : stream.grantsLeft = none) :
    ∃ after, RunsAt before after (fun stream => (tlmOutputFile owners entry run stream hardlinkQ).1)
      stream := by
  unfold tlmOutputFile
  split
  · exact ⟨before, .nothing (fun _ => rfl) unlimited⟩
  · split
    case h_2 => exact ⟨before, .nothing (fun _ => rfl) unlimited⟩
    case h_1 fullname _ _ _ =>
      dsimp only
      split
      · split
        · exact ⟨before, .nothing (fun _ => rfl) unlimited⟩
        · exact ⟨false, outputFileHeader_runs _ _ _ _ _ unlimited⟩
      · split
        · exact ⟨before, .nothing (fun _ => rfl) unlimited⟩
        · obtain ⟨aclMode, acl⟩ := @outputAclHeader_runs _ before entry.aclInfo unlimited
          split
          · exact ⟨aclMode, acl⟩
          · obtain ⟨hugeMode, huge⟩ := @outputHugeName_runs _ aclMode fullname entry.attr.stSize
              acl.grantsLeft
            have named := acl.comp huge (outputHugeName_rests _ _)
            exact ⟨false, named.comp (outputContents_runs _ _ _ _ _ _ named.grantsLeft)
              (outputContents_rests _ _ _ _ _ _)⟩

/-- A stopped function writes to the NULL record exactly if its next request is one of
`output_mem`. -/
theorem RunsAt.faulted {step : TarStream → TarStream} (runs : RunsAt before after step stream)
    (grants : Nat) :
    (step (stream.stopAfter grants)).faulted =
      (stream.faulted ||
        (copied before (stream.putsSince (step stream))).getD grants false) := by
  obtain ⟨puts, isPuts, _, faulted, _, goesOn, stops⟩ := runs
  rw [putsSince, isPuts, List.drop_left]
  by_cases early : grants < puts.length
  · exact (stops grants early).2
  · obtain ⟨more, rfl⟩ := Nat.exists_eq_add_of_le (Nat.le_of_not_lt early)
    rw [goesOn, List.getD_eq_default _ _ (by rw [length_copied]; omega), Bool.or_false]
    exact faulted

/-- The stream without a stop, and before any fault. -/
def running (stream : TarStream) : TarStream := { stream with grantsLeft := none, faulted := false }

theorem tlmOutputFile_faulted (owners : OwnerNames) (entry : FileEntry) (run : FileRun)
    (hardlinkQ : HardlinkQ) (stream : TarStream) (grants : Nat) :
    (tlmOutputFile owners entry run (stream.running.stopAfter grants) hardlinkQ).1.faulted =
      (copied false (stream.running.putsSince
        (tlmOutputFile owners entry run stream.running hardlinkQ).1)).getD grants false := by
  obtain ⟨mode, runs⟩ := @tlmOutputFile_runs stream.running false owners entry run hardlinkQ rfl
  exact (runs.faulted grants).trans (Bool.false_or _)

theorem tlmOutputDir_faulted (owners : OwnerNames) (name : CString) (attr : Stat)
    (aclInfo : Option SecAttr) (stream : TarStream) (grants : Nat) :
    ((stream.running.stopAfter grants).tlmOutputDir owners name attr aclInfo).faulted =
      (copied false (stream.running.putsSince
        (stream.running.tlmOutputDir owners name attr aclInfo))).getD grants false := by
  have runs := @tlmOutputDir_runs stream.running false owners name attr aclInfo rfl
  exact (runs.faulted grants).trans (Bool.false_or _)

end TarStream

/-! ## The decoder -/

namespace RestoreWriter

/-- Whether `input_mem` copies from the NULL record. `get_read_buffer` does not set the
error then, so the copy depends on what the variable holds. -/
def copiesNull (writer : RestoreWriter) (len : Int) : Bool :=
  ({ writer with faulted := false }.inputMem len).2.faulted

/-- Whether the loop of `restore_file` passes the NULL record to `write(2)`. -/
def loopWritesNull : Nat → RestoreWriter → Int → Bool → Bool
  | 0, _, _, _ => false
  | rounds + 1, writer, size, wanted =>
      if size ≤ 0 ∨ writer.tcWriterStop then false
      else
        match writer.getReadBuffer size.toNat with
        | (none, _) => wanted
        | (some (rec, error), writer) =>
            if error ≠ 0 then false
            else
              let front := rec.take size.toNat
              if wanted then
                let (writer, writeSize) := writer.writeRecord front
                loopWritesNull rounds writer (size - writeSize) wanted
              else loopWritesNull rounds writer (size - front.length) wanted

/-- Whether `restore_file` passes the NULL record to `write(2)`. -/
def writesNull (writer : RestoreWriter) (args : RestoreArgs) (realName : Option CString)
    (size : Int) (wanted : Bool) : Bool :=
  let opened := writer.openedFile args realName wanted
  loopWritesNull (opened.1.available + 1) opened.1 size opened.2

theorem openedFile_wanted (writer : RestoreWriter) (args : RestoreArgs) (realName : Option CString)
    (wanted : Bool) :
    (writer.openedFile args realName wanted).2 = writesSection writer args realName wanted := by
  unfold openedFile writesSection
  cases realName with
  | none => exact (Bool.and_false wanted).symm
  | some path =>
      rw [Option.any_some]
      dsimp only
      by_cases opens : writer.fp = .closed ∧ wanted = true
      · rw [if_pos opens, (openWanted_opens args writer path).1, opens.1, opens.2]
        rfl
      · rw [if_neg opens]
        cases wanted with
        | false => rfl
        | true =>
            have unclosed : writer.fp ≠ .closed := fun closed => opens ⟨closed, rfl⟩
            rw [decide_eq_true unclosed]
            rfl

theorem openedFile_frame (writer : RestoreWriter) (args : RestoreArgs) (realName : Option CString)
    (wanted : Bool) :
    (writer.openedFile args realName wanted).1.blocks = writer.blocks ∧
      (writer.openedFile args realName wanted).1.tcWriterStop = writer.tcWriterStop := by
  unfold openedFile
  cases realName with
  | none => exact ⟨rfl, rfl⟩
  | some path =>
      dsimp only
      split
      · obtain ⟨_, blocks, stop, _⟩ := openWanted_opens args writer path
        exact ⟨blocks, stop⟩
      · exact ⟨rfl, rfl⟩

/-- A missing record is the last one, and only a missing record stops the decoder. -/
theorem getReadBuffer_stop {writer : RestoreWriter} (running : writer.tcWriterStop = false)
    (want : Nat) :
    (writer.getReadBuffer want).2.tcWriterStop = (writer.getReadBuffer want).1.isNone := by
  unfold getReadBuffer
  rw [if_neg (by simp [running])]
  split
  · rfl
  · exact running

/-- The loop passes the NULL record to `write(2)` exactly if it is to write and the decoder
is stopped in it: it ends there. -/
theorem loopWritesNull_eq (rounds : Nat) {writer : RestoreWriter}
    (running : writer.tcWriterStop = false) (size : Int) (wanted : Bool) :
    loopWritesNull rounds writer size wanted =
      (wanted && (restoreLoop rounds writer size wanted).tcWriterStop) := by
  induction rounds generalizing writer size with
  | zero => rw [loopWritesNull, restoreLoop, running, Bool.and_false]
  | succ rounds ih =>
      have stop := getReadBuffer_stop running size.toNat
      rw [loopWritesNull, restoreLoop, running]
      by_cases done : size ≤ 0
      · rw [if_pos (.inl done), if_pos (.inl done), running, Bool.and_false]
      · rw [if_neg (not_or_intro done Bool.false_ne_true),
          if_neg (not_or_intro done Bool.false_ne_true)]
        generalize writer.getReadBuffer size.toNat = read at stop
        obtain ⟨_ | ⟨rec, error⟩, next⟩ := read
        · dsimp only at stop ⊢
          rw [stop]
          exact (Bool.and_true wanted).symm
        · dsimp only at stop ⊢
          by_cases failed : error ≠ 0
          · rw [if_pos failed, if_pos failed, stop]
            exact (Bool.and_false wanted).symm
          · rw [if_neg failed, if_neg failed]
            cases wanted with
            | true =>
                exact ih ((writeRecord_count next (rec.take size.toNat)).2.1.trans stop) _
            | false => exact ih stop _

theorem loopWritesNull_done {size : Int} (done : size ≤ 0) (rounds : Nat) (writer : RestoreWriter)
    (wanted : Bool) : loopWritesNull rounds writer size wanted = false := by
  cases rounds with
  | zero => rfl
  | succ rounds => exact if_pos (.inl done)

/-- The blocks that the decoder still gets when it is stopped somewhere. -/
def Front (given blocks : List ReadBlock) : Prop := bytesOf given <+: bytesOf blocks

/-- A call of `restore_file` passes the NULL record on for some stop exactly if it
writes anything. -/
theorem writesNull_never_iff (writer : RestoreWriter) (args : RestoreArgs)
    (realName : Option CString) (size : Int) (wanted : Bool) :
    (∀ given, Front given writer.blocks →
      { writer with blocks := given, tcWriterStop := false }.writesNull args realName size wanted =
        false) ↔ ¬ (0 < size ∧ writesSection writer args realName wanted = true) := by
  constructor
  · rintro never ⟨positive, writes⟩
    have stopped := never [] (List.nil_prefix)
    obtain ⟨blocks, running⟩ := openedFile_frame { writer with blocks := [], tcWriterStop := false }
      args realName wanted
    have opened :=
      openedFile_wanted { writer with blocks := [], tcWriterStop := false } args realName
      wanted
    have read := getReadBuffer_end running (by rw [blocks]; rfl) size.toNat
    unfold writesNull at stopped
    rw [loopWritesNull, running, if_neg (not_or_intro (Int.not_le.mpr positive) nofun), read,
      opened] at stopped
    exact Bool.eq_false_iff.mp stopped writes
  · intro idle given _
    unfold writesNull
    have opened := openedFile_wanted { writer with blocks := given, tcWriterStop := false } args
      realName wanted
    dsimp only
    by_cases positive : 0 < size
    · have unwanted : writesSection writer args realName wanted = false :=
        Bool.eq_false_iff.mpr fun writes => idle ⟨positive, writes⟩
      have running := (openedFile_frame { writer with blocks := given, tcWriterStop := false }
        args realName wanted).2
      rw [loopWritesNull_eq _ running, opened.trans unwanted]
      rfl
    · exact loopWritesNull_done (Int.not_lt.mp positive) _ _ _

/-- A call of `input_mem` copies from the NULL record for some stop exactly if it asks for
anything. -/
theorem copiesNull_never_iff (writer : RestoreWriter) (len : Int) :
    (∀ given, Front given writer.blocks →
      { writer with blocks := given, tcWriterStop := false }.copiesNull len = false) ↔
        len ≤ 0 := by
  constructor
  · intro never
    have stopped := never [] List.nil_prefix
    by_contra positive
    obtain ⟨count, isCount⟩ : ∃ count, len.toNat = count + 1 :=
      Nat.exists_eq_succ_of_ne_zero (by omega)
    unfold copiesNull inputMem at stopped
    rw [isCount, inputMemLoop, if_neg (Nat.succ_ne_zero _),
      getReadBuffer_end rfl rfl] at stopped
    cases stopped
  · intro none_ given _
    have zero : len.toNat = 0 := Int.toNat_eq_zero.mpr none_
    unfold copiesNull inputMem
    rw [zero]
    rfl

/-- The call of `restore_file` for a record that is the header of a regular file. -/
def RecordCall.section (call : RecordCall) (args : RestoreArgs) :
    RestoreWriter × Option CString × Bool :=
  let longname := call.writer.regularName call.record
  let wanted := isFileWanted longname.string args.sels args.exls args.flags call.writer.retry
  let path := if wanted.found then args.newName wanted.pos longname.string else none
  ({ call.writer with longname := longname, retry := wanted.retry }, path,
    wanted.found && path.isSome)

/-- Whether what reads the data of a record uses the NULL record: `restore_file` for a
regular file, and otherwise `input_mem`. -/
def RecordCall.usesNull (call : RecordCall) (args : RestoreArgs) : Bool :=
  match call.regular with
  | some _ =>
      let (writer, path, wanted) := call.section args
      writer.writesNull args path call.fileSize wanted
  | none => call.writer.copiesNull call.demand

/-- Whether the data of a record is asked for by a function that does not look at what it
gets. -/
def RecordCall.asks (call : RecordCall) (args : RestoreArgs) : Bool :=
  match call.regular with
  | some _ =>
      let (writer, path, wanted) := call.section args
      decide (0 < call.fileSize) && writesSection writer args path wanted
  | none => decide (0 < call.demand)

/-- A record behind which only these blocks still come. -/
def RecordCall.cutTo (call : RecordCall) (given : List ReadBlock) : RecordCall :=
  { call with writer := { call.writer with blocks := given, tcWriterStop := false } }

theorem RecordCall.usesNull_never_iff (call : RecordCall) (args : RestoreArgs) :
    (∀ given, Front given call.writer.blocks → (call.cutTo given).usesNull args = false) ↔
      call.asks args = false := by
  have kind : ∀ given, (call.cutTo given).regular = call.regular := fun _ => rfl
  unfold usesNull asks
  cases regular : call.regular with
  | some hardlink =>
      have files := writesNull_never_iff (call.section args).1 args (call.section args).2.1
        call.fileSize (call.section args).2.2
      simp only [kind, regular]
      rw [Bool.eq_false_iff, Ne, Bool.and_eq_true, decide_eq_true_eq]
      exact files
  | none =>
      have memory := copiesNull_never_iff call.writer call.demand
      simp only [kind, regular]
      rw [decide_eq_false_iff_not]
      refine memory.trans ?_
      omega

end RestoreWriter

open Put TarStream RestoreWriter in
/-- Whether the NULL record is used when the buffers are stopped: in the encoder, exactly
if the request behind the last grant is one of `output_mem`, and in the decoder, for some
stop exactly if a function that does not look at its record asks for the data. -/
theorem missingBuffer_untouched_iff (stream : TarStream) (owners : OwnerNames) (entry : FileEntry)
    (run : FileRun) (hardlinkQ : HardlinkQ) (name : CString) (attr : Stat)
    (aclInfo : Option SecAttr) (call : RecordCall) (args : RestoreArgs) :
    (∀ grants,
      (tlmOutputFile owners entry run (stream.running.stopAfter grants) hardlinkQ).1.faulted =
          false ↔
        (copied false (stream.running.putsSince
          (tlmOutputFile owners entry run stream.running hardlinkQ).1)).getD grants false = false) ∧
    (∀ grants,
      ((stream.running.stopAfter grants).tlmOutputDir owners name attr aclInfo).faulted = false ↔
        (copied false (stream.running.putsSince
          (stream.running.tlmOutputDir owners name attr aclInfo))).getD grants false = false) ∧
    ((∀ given, Front given call.writer.blocks → (call.cutTo given).usesNull args = false) ↔
      call.asks args = false) := by
  refine ⟨fun grants => ?_, fun grants => ?_, call.usesNull_never_iff args⟩
  · rw [tlmOutputFile_faulted]
  · rw [tlmOutputDir_faulted]

/-- A stream that ends behind the header of a long name. -/
def cutLongName : ReadBlock where
  bytes := (tlmBuildHeaderChecksum { TlmTarHdr.zero with
    thLinkflag := lfLongname, thSize := octalField _ 11 1 }).record
  tbErrno := 0
  small := by
    rw [TlmTarHdr.length_record]
    decide

/-- A directory with a name of 100 bytes, stopped between the header of the long name and
the name itself; and a stream that ends at the same place. -/
theorem missingBuffer_used :
    (∃ (stream : TarStream) (name : CString) (attr : Stat),
      stream.faulted = false ∧ stream.granting = true ∧
        (stream.tlmOutputDir ⟨fun _ => none, fun _ => none⟩ name attr none).faulted = true) ∧
    (RestoreWriter.tarGetdir restoreArgs [cutLongName] [] ⟨[], [], []⟩ 1).faulted = true := by
  constructor
  · exact ⟨.initial (show 0 < 1024 by decide) (by decide) (by decide) 0 (some 1),
      List.replicate 100 97, ⟨.directory, 0o755, 2, 5, 0, 0, 4096, 0, 0⟩, rfl, rfl,
      by decide +kernel⟩
  · decide +kernel

end Ndmpd
