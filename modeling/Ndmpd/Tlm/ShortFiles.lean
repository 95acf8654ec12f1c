import Ndmpd.Tlm.ArchiveRoundTrip

/-!
# Files that are shorter than announced

The loops of `tlm_output_file` end when `read(2)` has returned as many bytes as the file
is said to have, or when it fails. A `read(2)` that returns 0 only ends the section: the
file goes on in another one, with a header of its own. So a backup of a file comes to an
end exactly if its bytes add up to its size, or a read fails
(`tlmOutputFile_ends_iff`).

An abort is seen after `readsBeforeAbort` reads. A run without an abort ends when it
makes no difference any more how late that is.
-/

namespace Ndmpd

/-- The bytes that a `read(2)` returns. -/
def ReadResult.count : ReadResult → Nat
  | .error => 0
  | .bytes read => read.length

/-- The bytes that the first calls of `read(2)` return. -/
def returnedBytes (results : Nat → ReadResult) (calls : Nat) : Nat :=
  ((List.range calls).map fun call => (results call).count).sum

theorem returnedBytes_succ (results : Nat → ReadResult) (calls : Nat) :
    returnedBytes results (calls + 1) =
      (results 0).count + returnedBytes (fun call => results (call + 1)) calls := by
  unfold returnedBytes
  rw [List.range_succ_eq_map, List.map_cons, List.sum_cons, List.map_map]
  rfl

namespace TarStream

/-! ## One read -/

/-- The result of the next `read(2)`, in the section that is open or is opened for it. -/
def nextRead (run : FileRun) (putHeader : TarStream → Nat → Nat → TarStream) (stream : TarStream)
    (cursor : DataCursor) : ReadResult :=
  let (stream, cursor) := stream.openSection putHeader cursor
  let readSize := min cursor.sectionSize (stream.pool.granted cursor.sectionSize)
  match run.reads cursor.call cursor.seekSpot readSize with
  | .error => .error
  | .bytes bytes => .bytes (bytes.take readSize)

/-- What the loops have come to after the next `read(2)`, unless they are left there. -/
def dataRound (run : FileRun) (putHeader : TarStream → Nat → Nat → TarStream) (stream : TarStream)
    (cursor : DataCursor) : Option (TarStream × DataCursor) :=
  match nextRead run putHeader stream cursor with
  | .error => none
  | .bytes bytes =>
      let (stream, cursor) := stream.openSection putHeader cursor
      (stream.putData cursor.sectionSize false fun _ => bytes).map fun next =>
        (next, cursor.advance bytes.length)

variable {run : FileRun} {putHeader : TarStream → Nat → Nat → TarStream} {stream : TarStream}
  {cursor : DataCursor}

theorem outputData_of_round (unfinished : cursor.fileSize ≠ 0) {next : TarStream × DataCursor}
    (round : dataRound run putHeader stream cursor = some next) (reads : Nat) :
    outputData run putHeader (reads + 1) stream cursor =
      outputData run putHeader reads next.1 next.2 := by
  unfold dataRound nextRead at round
  conv_lhs => unfold outputData
  rw [if_neg unfinished]
  dsimp only at round ⊢
  revert round
  generalize run.reads _ _ _ = result
  intro round
  cases result with
  | error => cases round
  | bytes raw =>
      obtain ⟨granted, put, rfl⟩ := Option.map_eq_some_iff.mp round
      dsimp only at put ⊢
      rw [put]

theorem outputData_of_left (unfinished : cursor.fileSize ≠ 0)
    (left : dataRound run putHeader stream cursor = none) (reads : Nat) :
    outputData run putHeader (reads + 1) stream cursor =
      outputData run putHeader 1 stream cursor := by
  unfold dataRound nextRead at left
  unfold outputData
  rw [if_neg unfinished, if_neg unfinished]
  dsimp only at left ⊢
  revert left
  generalize run.reads _ _ _ = result
  intro left
  cases result with
  | error => rfl
  | bytes raw =>
      have torn := Option.map_eq_none_iff.mp left
      dsimp only at torn ⊢
      rw [torn]

theorem outputData_of_finished (finished : cursor.fileSize = 0) (reads : Nat) :
    outputData run putHeader reads stream cursor = (stream, cursor, .finished) := by
  cases reads with
  | zero =>
      unfold outputData
      rw [if_pos finished]
  | succ reads =>
      unfold outputData
      rw [if_pos finished]

/-- A round takes the bytes it has read off the size. -/
theorem dataRound_fileSize {next : TarStream × DataCursor}
    (round : dataRound run putHeader stream cursor = some next) :
    next.2.fileSize = cursor.fileSize - (nextRead run putHeader stream cursor).count := by
  have opened : (stream.openSection putHeader cursor).2.fileSize = cursor.fileSize := by
    unfold openSection
    split
    · rfl
    · rfl
  unfold dataRound at round
  split at round
  · cases round
  · next bytes result =>
      obtain ⟨granted, -, rfl⟩ := Option.map_eq_some_iff.mp round
      rw [result]
      exact congrArg (· - bytes.length) opened

/-! ## All reads -/

/-- What the loops have come to after a number of reads, where there is another one. -/
def afterReads (run : FileRun) (putHeader : TarStream → Nat → Nat → TarStream) :
    Nat → TarStream → DataCursor → Option (TarStream × DataCursor)
  | 0, stream, cursor => if cursor.fileSize = 0 then none else some (stream, cursor)
  | calls + 1, stream, cursor =>
      if cursor.fileSize = 0 then none
      else
        (dataRound run putHeader stream cursor).bind fun next =>
          afterReads run putHeader calls next.1 next.2

/-- The calls of `read(2)` have these results. -/
def Returns (run : FileRun) (putHeader : TarStream → Nat → Nat → TarStream) (stream : TarStream)
    (cursor : DataCursor) (results : Nat → ReadResult) : Prop :=
  ∀ calls next, afterReads run putHeader calls stream cursor = some next →
    nextRead run putHeader next.1 next.2 = results calls

/-- The results of the calls of `read(2)`. Behind the last call they say nothing. -/
def readResults (run : FileRun) (putHeader : TarStream → Nat → Nat → TarStream)
    (stream : TarStream) (cursor : DataCursor) (calls : Nat) : ReadResult :=
  match afterReads run putHeader calls stream cursor with
  | none => .error
  | some next => nextRead run putHeader next.1 next.2

/-- Every run has its results. -/
theorem returns_readResults (run : FileRun) (putHeader : TarStream → Nat → Nat → TarStream)
    (stream : TarStream) (cursor : DataCursor) :
    Returns run putHeader stream cursor (readResults run putHeader stream cursor) := by
  intro calls next after
  rw [readResults, after]

variable {results : Nat → ReadResult}

theorem Returns.first (returns : Returns run putHeader stream cursor results)
    (unfinished : cursor.fileSize ≠ 0) : nextRead run putHeader stream cursor = results 0 := by
  apply returns 0 (stream, cursor)
  rw [afterReads, if_neg unfinished]

theorem Returns.rest (returns : Returns run putHeader stream cursor results)
    (unfinished : cursor.fileSize ≠ 0) {next : TarStream × DataCursor}
    (round : dataRound run putHeader stream cursor = some next) :
    Returns run putHeader next.1 next.2 fun call => results (call + 1) := by
  intro calls state after
  apply returns (calls + 1) state
  rw [afterReads, if_neg unfinished, round]
  exact after

/-- Once all bytes have been read or a read has failed, the loops are left. -/
theorem outputData_ends (calls : Nat) (stream : TarStream) (cursor : DataCursor)
    (results : Nat → ReadResult) (returns : Returns run putHeader stream cursor results)
    (reached : results calls = .error ∨ cursor.fileSize ≤ returnedBytes results calls) :
    ∃ outcome, ∀ more, outputData run putHeader (calls + 1 + more) stream cursor = outcome := by
  by_cases finished : cursor.fileSize = 0
  · exact ⟨_, fun more => outputData_of_finished finished _⟩
  induction calls generalizing stream cursor results with
  | zero =>
      cases round : dataRound run putHeader stream cursor with
      | none =>
          refine ⟨outputData run putHeader 1 stream cursor, fun more => ?_⟩
          rw [Nat.zero_add, Nat.add_comm]
          exact outputData_of_left finished round more
      | some next =>
          rcases reached with failed | enough
          · unfold dataRound at round
            rw [returns.first finished, failed] at round
            cases round
          · exact absurd (Nat.le_zero.mp enough) finished
  | succ calls ih =>
      cases round : dataRound run putHeader stream cursor with
      | none =>
          refine ⟨outputData run putHeader 1 stream cursor, fun more => ?_⟩
          rw [Nat.add_right_comm]
          exact outputData_of_left finished round _
      | some next =>
          have size := dataRound_fileSize round
          rw [returns.first finished] at size
          have following : ∃ outcome, ∀ more,
              outputData run putHeader (calls + 1 + more) next.1 next.2 = outcome := by
            by_cases done : next.2.fileSize = 0
            · exact ⟨_, fun more => outputData_of_finished done _⟩
            · apply ih next.1 next.2 _ (returns.rest finished round) _ done
              refine reached.imp id fun enough => ?_
              rw [returnedBytes_succ] at enough
              omega
          obtain ⟨outcome, same⟩ := following
          refine ⟨outcome, fun more => ?_⟩
          rw [Nat.add_right_comm, outputData_of_round finished round]
          exact same more

/-! ## Reading for ever -/

/-- Where every request is granted, that stays so and what has been put stays put. -/
theorem Extends.unlimited {stream next : TarStream} (steps : Extends stream next)
    (always : stream.grantsLeft = none) :
    next.grantsLeft = none ∧ stream.puts.length ≤ next.puts.length := by
  induction steps with
  | refl => exact ⟨always, Nat.le_refl _⟩
  | header put =>
      obtain ⟨running, -, puts⟩ := putHeader_some put
      obtain ⟨granted, again, -, -, grants, -⟩ := putHeader_of_granting running _
      rw [put] at again
      cases again
      rw [grants, always, puts, List.length_append]
      exact ⟨rfl, Nat.le_add_right _ _⟩
  | data put =>
      obtain ⟨running, -, puts⟩ := putData_some put
      obtain ⟨granted, again, -, -, grants, -⟩ := putData_of_granting running _ _ _
      rw [put] at again
      cases again
      rw [grants, always, puts, List.length_append]
      exact ⟨rfl, Nat.le_add_right _ _⟩
  | touch _ puts grants => exact ⟨grants.trans always, by rw [puts]⟩
  | trans _ _ ih₁ ih₂ =>
      obtain ⟨middle, front⟩ := ih₁ always
      obtain ⟨last, back⟩ := ih₂ middle
      exact ⟨last, Nat.le_trans front back⟩

/-- A round whose read does not fail goes on and puts another record. -/
theorem dataRound_some
    (headers : ∀ stream size number, Extends stream (putHeader stream size number))
    (always : stream.grantsLeft = none) (read : nextRead run putHeader stream cursor ≠ .error) :
    ∃ next, dataRound run putHeader stream cursor = some next ∧ next.1.grantsLeft = none ∧
      stream.puts.length + 1 ≤ next.1.puts.length := by
  obtain ⟨opened, before⟩ := (openSection_extends stream headers cursor).unlimited always
  unfold dataRound
  split
  · next failed => exact absurd failed read
  · next bytes result =>
      obtain ⟨granted, put, puts, -, grants, -⟩ :=
        putData_of_granting (granting_of_unlimited opened)
        (stream.openSection putHeader cursor).2.sectionSize false fun _ => bytes
      refine ⟨(granted, (stream.openSection putHeader cursor).2.advance bytes.length),
        congrArg (Option.map _) put, ?_, ?_⟩
      · rw [grants, opened]
        rfl
      · rw [puts, List.length_append]
        exact Nat.add_le_add_right before 1

/-- As long as bytes are missing and no read fails, every read puts another record. -/
theorem outputData_goes_on
    (headers : ∀ stream size number, Extends stream (putHeader stream size number)) (reads : Nat)
    (stream : TarStream) (cursor : DataCursor) (results : Nat → ReadResult)
    (always : stream.grantsLeft = none) (returns : Returns run putHeader stream cursor results)
    (open_ : ∀ calls, results calls ≠ .error ∧ returnedBytes results calls < cursor.fileSize) :
    stream.puts.length + reads ≤ (outputData run putHeader reads stream cursor).1.puts.length := by
  induction reads generalizing stream cursor results with
  | zero => exact ((outputData_extends headers run 0 stream cursor).unlimited always).2
  | succ reads ih =>
      have unfinished : cursor.fileSize ≠ 0 := Nat.ne_of_gt (Nat.lt_of_le_of_lt (Nat.zero_le _)
        (open_ 0).2)
      have first := returns.first unfinished
      obtain ⟨next, round, still, more⟩ := dataRound_some headers always (by
        rw [first]
        exact (open_ 0).1)
      have size := dataRound_fileSize round
      rw [first] at size
      have rest := ih next.1 next.2 _ still (returns.rest unfinished round) fun calls => by
        have later := open_ (calls + 1)
        rw [returnedBytes_succ] at later
        exact ⟨later.1, by omega⟩
      rw [outputData_of_round unfinished round]
      omega

end TarStream

/-! ## Whole files -/

/-- Whether `tlm_output_file` gets to the data of an entry. -/
def FileEntry.readsData (entry : FileEntry) (run : FileRun) (hardlinkQ : HardlinkQ) : Bool :=
  !tlmIsTooLong entry.dir entry.name && (tlmCatPath entry.dir entry.name).isSome &&
    (tlmCatPath entry.chkdir entry.name).isSome && decide (entry.attr.fileType ≠ .symbolicLink) &&
    !entry.hardlinkDone hardlinkQ && run.opened &&
    (decide (entry.attr.stSize ≤ tlmMaxTarImage) || run.nameAllocated)

/-- The stream in front of the data of an entry. An entry without data has its header
there. -/
def FileEntry.dataStart (entry : FileEntry) (owners : OwnerNames) (stream : TarStream) :
    TarStream :=
  let fullname := (tlmCatPath entry.dir entry.name).getD []
  let named := (stream.outputAclHeader entry.aclInfo).outputHugeName fullname entry.attr.stSize
  if entry.attr.stSize = 0 then
    named.outputFileHeader owners fullname [] entry.attr
      (if tlmMaxTarImage < entry.attr.stSize then 1 else 0)
  else named

/-- The loops in front of the first read. -/
def FileEntry.dataCursor (entry : FileEntry) : DataCursor :=
  ⟨entry.attr.stSize, 0, if tlmMaxTarImage < entry.attr.stSize then 1 else 0, 0, 0⟩

/-- The headers of the sections of an entry. -/
def FileEntry.putHeader (entry : FileEntry) (owners : OwnerNames) :
    TarStream → Nat → Nat → TarStream :=
  entry.putSection owners ((tlmCatPath entry.dir entry.name).getD [])

theorem FileEntry.dataStart_extends (entry : FileEntry) (owners : OwnerNames) (stream : TarStream) :
    stream.Extends (entry.dataStart owners stream) := by
  unfold FileEntry.dataStart
  dsimp only
  have named := (stream.outputAclHeader_extends entry.aclInfo).trans
    (TarStream.outputHugeName_extends _ ((tlmCatPath entry.dir entry.name).getD [])
      entry.attr.stSize)
  split
  · exact named.trans (TarStream.outputFileHeader_extends _ _ _ _ _ _)
  · exact named

/-- How late an abort would be makes no difference to a read. -/
theorem outputData_abort (run : FileRun) (putHeader : TarStream → Nat → Nat → TarStream)
    (late reads : Nat) (stream : TarStream) (cursor : DataCursor) :
    TarStream.outputData { run with readsBeforeAbort := late } putHeader reads stream cursor =
      TarStream.outputData run putHeader reads stream cursor := by
  induction reads generalizing stream cursor with
  | zero => rfl
  | succ reads ih =>
      unfold TarStream.outputData
      simp only [ih]

/-- What `tlm_output_file` makes of what its loops have come to. -/
def FileEntry.finish (entry : FileEntry) (stream : TarStream) (hardlinkQ : HardlinkQ)
    (outcome : TarStream × DataCursor × DataExit) : TarStream × HardlinkQ × Int :=
  (outcome.1,
    if outcome.2.2 = .finished ∧ 1 < entry.attr.stNlink ∧ ¬ entry.hardlinkDone hardlinkQ then
      hardlinkQ.hardlinkQAdd entry.attr.stIno stream.pool.bufs.tbsOffset none false
    else hardlinkQ,
    entry.attr.stSize)

theorem tlmOutputFile_of_readsData (owners : OwnerNames) {entry : FileEntry} {run : FileRun}
    (stream : TarStream) {hardlinkQ : HardlinkQ} (data : entry.readsData run hardlinkQ = true)
    (late : Nat) :
    tlmOutputFile owners entry { run with readsBeforeAbort := late } stream hardlinkQ =
      entry.finish stream hardlinkQ (TarStream.outputData run (entry.putHeader owners) late
        (entry.dataStart owners stream) entry.dataCursor) := by
  unfold FileEntry.readsData at data
  simp only [Bool.and_eq_true, Bool.or_eq_true, Bool.not_eq_true', decide_eq_true_eq] at data
  obtain ⟨⟨⟨⟨⟨⟨short, joined⟩, checked⟩, notLink⟩, first⟩, opened⟩, allocated⟩ := data
  obtain ⟨fullname, isFullname⟩ := Option.isSome_iff_exists.mp joined
  obtain ⟨snapname, isSnapname⟩ := Option.isSome_iff_exists.mp checked
  unfold tlmOutputFile FileEntry.finish FileEntry.dataStart FileEntry.dataCursor FileEntry.putHeader
  rw [if_neg (by simp [short]), isFullname, isSnapname]
  dsimp only [Option.getD_some]
  rw [if_neg notLink, if_neg (by simp [opened]), if_neg (by
    rintro ⟨large, unallocated⟩
    rcases allocated with fits | allocated
    · exact absurd large (Nat.not_lt_of_le fits)
    · exact unallocated allocated)]
  simp only [first, Bool.false_eq_true, ↓reduceIte, TarStream.outputContents, outputData_abort]

/-- An entry whose data is not read is done with whenever an abort would come. -/
theorem tlmOutputFile_of_noData (owners : OwnerNames) {entry : FileEntry} {run : FileRun}
    (stream : TarStream) {hardlinkQ : HardlinkQ} (noData : entry.readsData run hardlinkQ = false)
    (late : Nat) :
    tlmOutputFile owners entry { run with readsBeforeAbort := late } stream hardlinkQ =
      tlmOutputFile owners entry { run with readsBeforeAbort := 0 } stream hardlinkQ := by
  unfold tlmOutputFile
  split
  · rfl
  · next long =>
      split
      · next fullname snapname isFullname isSnapname =>
          dsimp only
          split
          · rfl
          · next notLink =>
              split
              · rfl
              · next opened =>
                  split
                  · rfl
                  · next allocated =>
                      have done : entry.hardlinkDone hardlinkQ = true := by
                        by_contra first
                        simp_all [FileEntry.readsData]
                      have nothing (late : Nat) (next : TarStream) (number : Nat) :
                          TarStream.outputData run (entry.putSection owners fullname) late next
                            ⟨0, 0, number, 0, 0⟩ = (next, ⟨0, 0, number, 0, 0⟩, .finished) :=
                        TarStream.outputData_of_finished rfl late
                      simp only [done, ↓reduceIte, TarStream.outputContents, outputData_abort,
                        nothing]
      · rfl

/-- The calls of `read(2)` for the data of an entry have these results. -/
def FileEntry.Returns (entry : FileEntry) (owners : OwnerNames) (run : FileRun)
    (stream : TarStream) (results : Nat → ReadResult) : Prop :=
  TarStream.Returns run (entry.putHeader owners) (entry.dataStart owners stream) entry.dataCursor
    results

/-- The results of the calls of `read(2)` for the data of an entry. -/
def FileEntry.readResults (entry : FileEntry) (owners : OwnerNames) (run : FileRun)
    (stream : TarStream) : Nat → ReadResult :=
  TarStream.readResults run (entry.putHeader owners) (entry.dataStart owners stream)
    entry.dataCursor

theorem FileEntry.returns_readResults (entry : FileEntry) (owners : OwnerNames) (run : FileRun)
    (stream : TarStream) : entry.Returns owners run stream (entry.readResults owners run stream) :=
  TarStream.returns_readResults _ _ _ _

/-- `tlm_output_file` comes to an end if there is no abort: from some time on it makes no
difference when there is one. -/
def FileEntry.Ends (entry : FileEntry) (owners : OwnerNames) (run : FileRun) (stream : TarStream)
    (hardlinkQ : HardlinkQ) : Prop :=
  ∃ limit, ∀ late, limit ≤ late →
    tlmOutputFile owners entry { run with readsBeforeAbort := late } stream hardlinkQ =
      tlmOutputFile owners entry { run with readsBeforeAbort := limit } stream hardlinkQ

theorem FileEntry.ends_of_results {entry : FileEntry} {owners : OwnerNames} {run : FileRun}
    {stream : TarStream} {results : Nat → ReadResult} (hardlinkQ : HardlinkQ)
    (returns : entry.Returns owners run stream results)
    (reached : ∃ calls, results calls = .error ∨ entry.attr.stSize ≤ returnedBytes results calls) :
    entry.Ends owners run stream hardlinkQ := by
  cases data : entry.readsData run hardlinkQ with
  | false =>
      refine ⟨0, fun late _ => tlmOutputFile_of_noData owners stream data late⟩
  | true =>
      obtain ⟨calls, reached⟩ := reached
      obtain ⟨outcome, same⟩ := TarStream.outputData_ends calls _ _ results returns reached
      refine ⟨calls + 1, fun late later => ?_⟩
      obtain ⟨more, rfl⟩ := Nat.exists_eq_add_of_le later
      rw [tlmOutputFile_of_readsData owners stream data,
        tlmOutputFile_of_readsData owners stream data, same more]
      exact congrArg _ (same 0).symm

theorem FileEntry.not_ends {entry : FileEntry} {owners : OwnerNames} {run : FileRun}
    {stream : TarStream} {results : Nat → ReadResult} {hardlinkQ : HardlinkQ}
    (data : entry.readsData run hardlinkQ = true) (always : stream.grantsLeft = none)
    (returns : entry.Returns owners run stream results)
    (open_ : ∀ calls, results calls ≠ .error ∧ returnedBytes results calls < entry.attr.stSize) :
    ¬ entry.Ends owners run stream hardlinkQ := by
  rintro ⟨limit, same⟩
  have puts (late : Nat) : late ≤
      (tlmOutputFile owners entry { run with readsBeforeAbort := late } stream
        hardlinkQ).1.puts.length := by
    rw [tlmOutputFile_of_readsData owners stream data]
    have headers (next : TarStream) (size number : Nat) :
        next.Extends (entry.putHeader owners next size number) := by
      unfold FileEntry.putHeader FileEntry.putSection
      exact TarStream.outputFileHeader_extends _ _ _ _ _ _
    have grown := TarStream.outputData_goes_on headers late _ entry.dataCursor results
      ((entry.dataStart_extends owners stream).unlimited always).1 returns open_
    exact Nat.le_trans (Nat.le_add_left _ _) grown
  obtain ⟨size, isSize⟩ : ∃ size, (tlmOutputFile owners entry
    { run with readsBeforeAbort := limit } stream hardlinkQ).1.puts.length = size := ⟨_, rfl⟩
  have late := puts (limit + (size + 1))
  rw [same _ (Nat.le_add_right limit (size + 1)), isSize] at late
  omega

/-- A backup of a file that is granted every buffer and not aborted comes to an end
exactly if it does not get to the data of the file, a read fails, or the bytes that the
reads return come up to the size of the file. -/
theorem tlmOutputFile_ends_iff (owners : OwnerNames) (entry : FileEntry) (run : FileRun)
    (stream : TarStream) (hardlinkQ : HardlinkQ) (results : Nat → ReadResult)
    (always : stream.grantsLeft = none) (returns : entry.Returns owners run stream results) :
    entry.Ends owners run stream hardlinkQ ↔
      entry.readsData run hardlinkQ = false ∨
        ∃ calls, results calls = .error ∨ entry.attr.stSize ≤ returnedBytes results calls := by
  constructor
  · intro ends
    by_contra neither
    rw [not_or, Bool.not_eq_false] at neither
    refine FileEntry.not_ends neither.1 always returns ?_ ends
    intro calls
    have open_ : ¬ (results calls = .error ∨ entry.attr.stSize ≤ returnedBytes results calls) :=
      fun reached => neither.2 ⟨calls, reached⟩
    rw [not_or, Nat.not_le] at open_
    exact open_
  · rintro (noData | reached)
    · exact ⟨0, fun late _ => tlmOutputFile_of_noData owners stream noData late⟩
    · exact FileEntry.ends_of_results hardlinkQ returns reached

/-! ## A file that has become empty -/

/-- Calls that all have one result whatever they ask for. -/
theorem FileEntry.returns_always {entry : FileEntry} {owners : OwnerNames} {run : FileRun}
    {result : ReadResult} (same : ∀ call seekSpot request, run.reads call seekSpot request = result)
    (short : result.count = 0) (stream : TarStream) :
    entry.Returns owners run stream fun _ => result := by
  intro calls next _
  unfold TarStream.nextRead
  dsimp only
  rw [same]
  cases result with
  | error => rfl
  | bytes read =>
      rw [List.eq_nil_of_length_eq_zero short]
      exact congrArg ReadResult.bytes List.take_nil

/-- A stream with every grant, for blocks of two records. -/
def grantedStream : TarStream := twoRecords

/-- The first read of a file of 3 bytes returns them all. -/
theorem tlmOutputFile_ends_iff_fullRead :
    ∃ results : Nat → ReadResult, results 0 = .bytes [1, 2, 3] ∧
      ((entryOf [102] .regular 3).Ends ⟨fun _ => none, fun _ => none⟩ (.ofContents [1, 2, 3])
          grantedStream [] ↔
        (entryOf [102] .regular 3).readsData (.ofContents [1, 2, 3]) [] = false ∨
          ∃ calls, results calls = .error ∨ 3 ≤ returnedBytes results calls) := by
  refine ⟨(entryOf [102] .regular 3).readResults ⟨fun _ => none, fun _ => none⟩
    (.ofContents [1, 2, 3]) grantedStream, by decide +kernel, ?_⟩
  exact tlmOutputFile_ends_iff _ _ _ _ [] _ rfl (FileEntry.returns_readResults _ _ _ _)

/-- The backup of a file of 3 bytes that has become empty does not come to an end. -/
theorem emptiedFile_runs_on :
    ∃ owners entry run stream,
      stream.grantsLeft = none ∧
      (∀ call seekSpot request, run.reads call seekSpot request = .bytes []) ∧
      ¬ FileEntry.Ends entry owners run stream [] := by
  have nothing (call seekSpot request : Nat) :
      (FileRun.ofContents []).reads call seekSpot request = .bytes [] := by
    simp [FileRun.ofContents]
  refine ⟨⟨fun _ => none, fun _ => none⟩, entryOf [102] .regular 3, FileRun.ofContents [],
    grantedStream, rfl, nothing, ?_⟩
  apply FileEntry.not_ends (by decide) rfl (FileEntry.returns_always nothing rfl _)
  intro calls
  refine ⟨ReadResult.noConfusion, ?_⟩
  have none_ : returnedBytes (fun _ => .bytes []) calls = 0 := by
    unfold returnedBytes
    rw [List.sum_eq_zero]
    intro count listed
    obtain ⟨call, -, rfl⟩ := List.mem_map.mp listed
    rfl
  rw [none_]
  decide

end Ndmpd
