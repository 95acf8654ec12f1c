import Ndmpd.Dates.DumpdatesLines
import Ndmpd.Dates.DumpdatesStore

/-!
# Failures while a date is put

`putdumptime` notices when a file cannot be opened and when there is no memory for a
record. It does not notice when a record cannot be written or the new file cannot be renamed,
and takes a line that cannot be read for the end of the file. Then it returns 0 although
records are lost or the new one is missing. It does all or nothing exactly when a failure is
noticed, when every well-formed record is both read and written in full, or when the file held
the new record before (`allOrNothing_iff`).
-/

namespace Ndmpd

open Foundation

namespace Dumpdates

/-- How the calls turn out that `putdumptime` makes. -/
structure PutIo where
  /-- `ddates_pathname`. -/
  pathname : Bool
  /-- `fopen` of the file, by `putdumptime` and again by `initdumptimes`. -/
  opened : Bool
  reopened : Bool
  /-- `fopen` of a file that is not there, to write it and to read it then. -/
  created : Bool
  createdOpened : Bool
  /-- So many nodes can be allocated. -/
  mallocs : Nat
  /-- So many bytes can be read before an error. -/
  readable : Nat
  /-- `fopen` of `dumpdates.bak`. -/
  bakOpened : Bool
  /-- So many bytes reach `dumpdates.bak` before it is closed. -/
  written : Nat
  renamed : Bool
  deriving DecidableEq, Repr

/-- The arguments of `putdumptime`: a path name that fits `dd_name`, as those of existing
directories do, and a level that fits a `char`. -/
structure PutRequest where
  path : CString
  level : Int
  ddate : Int
  short : path.length < tlmMaxPathName
  char : level.bmod (2 ^ 8) = level

/-- The record that is put. -/
def PutRequest.record (request : PutRequest) : Dumpdates :=
  ⟨request.path, request.level, request.ddate⟩

/-- The record is for the path and level of the request. -/
def PutRequest.Updates (request : PutRequest) (ddp : Dumpdates) : Prop :=
  ddp.ddLevel = request.level ∧ request.path = ddp.ddName

instance (request : PutRequest) (ddp : Dumpdates) : Decidable (request.Updates ddp) :=
  inferInstanceAs (Decidable (_ ∧ _))

section Store

variable (calendar : Calendar) (stale : Nat → Stale) (io : PutIo)

/-- The records of the file that are read. An error of `read(2)` ends the file for
`fgets`. -/
def recordsRead (text : List UInt8) : List Dumpdates :=
  readdumptimes calendar stale (text.take io.readable)

/-- `readdumptimes`, with its result. A node is allocated also for the end of the file. -/
def readdumptimesIo (text : List UInt8) : Int × List Dumpdates :=
  let records := recordsRead calendar stale io text
  if records.length < io.mallocs then (0, records) else (-1, records.take io.mallocs)

/-- `initdumptimes`. -/
def initdumptimesIo (files : DateFiles) : (Int × List Dumpdates) × DateFiles :=
  match files.dumpdates with
  | some text =>
      if ¬ io.reopened then ((-1, []), files) else (readdumptimesIo calendar stale io text, files)
  | none =>
      if ¬ io.created then ((-1, []), files)
      else
        let files := { files with dumpdates := some [] }
        if ¬ io.createdOpened then ((-1, []), files)
        else (readdumptimesIo calendar stale io [], files)

/-- What `putdumptime` reads: the file, or what `initdumptimes` makes of it. -/
def ddheadIo (files : DateFiles) : (Int × List Dumpdates) × DateFiles :=
  match files.dumpdates with
  | some text =>
      if io.opened then (readdumptimesIo calendar stale io text, files)
      else initdumptimesIo calendar stale io files
  | none => initdumptimesIo calendar stale io files

/-- `putdumptime`. -/
def putdumptimeIo (path : CString) (level ddate : Int) (files : DateFiles) : Int × DateFiles :=
  if ¬ io.pathname then (-1, files)
  else
    let ((rv, ddhead), files) := ddheadIo calendar stale io files
    if rv < 0 then (-1, files)
    else if ¬ io.bakOpened then (-1, files)
    else
      let text := writeRecords calendar (updateRecords path level ddate ddhead)
      let files := { files with bak := some (text.take io.written) }
      -- the results of `fputc`, `fclose` and `rename` are dropped
      if io.renamed then (0, { dumpdates := files.bak, bak := none }) else (0, files)

/-! ## All or nothing -/

/-- The file has the line of a record. -/
def HoldsLine (text : List UInt8) (record : Dumpdates) : Prop :=
  dumprecout calendar record ∈ continuedLines newline backslash none [] text

/-- A record that the program makes and can read back. -/
structure WellFormed (record : Dumpdates) : Prop where
  recordable : Recordable calendar record
  storable : Storable record

/-- Either an error is returned and the file is as it was, or the file has the record that is
put and, besides, the well-formed records that it had. -/
def AllOrNothing (request : PutRequest) (text : List UInt8) (result : Int × DateFiles) : Prop :=
  result.1 < 0 ∧ result.2.dumpdates = some text ∨
    result.1 = 0 ∧ ∃ later, result.2.dumpdates = some later ∧
      HoldsLine calendar later request.record ∧
      ∀ record, WellFormed calendar record → HoldsLine calendar text record →
        ¬ request.Updates record → HoldsLine calendar later record

/-- A failure that `putdumptime` looks for. -/
def Noticed (text : List UInt8) : Prop :=
  io.pathname = false ∨ io.opened = false ∧ io.reopened = false ∨
    io.mallocs ≤ (recordsRead calendar stale io text).length ∨ io.bakOpened = false

/-- The lines up to a position of the list reach `dumpdates.bak`. -/
def ReachesBak (request : PutRequest) (records : List Dumpdates) (k : Nat) : Prop :=
  (writeRecords calendar ((updateRecords request.path request.level request.ddate
    records).take (k + 1))).length ≤ io.written

/-- Every well-formed record of the file is read and written in full, and so is the one that
is put. The reading ends in front of the first line that `getline_ndmpd` rejects: one in which
the bytes that `read(2)` delivers end, or one without a newline in the room that its buffer
still has, the lines that it continues counted in. -/
structure NothingLost (request : PutRequest) (text : List UInt8) : Prop where
  others : ∀ record, WellFormed calendar record → HoldsLine calendar text record →
    ¬ request.Updates record →
      ∃ k ddp, (recordsRead calendar stale io text)[k]? = some ddp ∧
        dumprecout calendar ddp = dumprecout calendar record ∧
        ReachesBak calendar io request (recordsRead calendar stale io text) k
  put : ∃ k, ReachesBak calendar io request (recordsRead calendar stale io text) k ∧
    ((∃ ddp, (recordsRead calendar stale io text)[k]? = some ddp ∧ request.Updates ddp) ∨
      k = (recordsRead calendar stale io text).length ∧
        ∀ ddp ∈ recordsRead calendar stale io text, ¬ request.Updates ddp)

end Store

section Puts

variable {calendar : Calendar} {stale : Nat → Stale} {io : PutIo}

/-- An existing file is read if one of the two attempts to open it succeeds. -/
theorem ddheadIo_some (text : List UInt8) (bak : Option (List UInt8)) :
    ddheadIo calendar stale io ⟨some text, bak⟩ =
      (if io.opened = true ∨ io.reopened = true then readdumptimesIo calendar stale io text
        else (-1, []), ⟨some text, bak⟩) := by
  unfold ddheadIo initdumptimesIo
  cases io.opened <;> cases io.reopened <;> rfl

theorem putdumptimeIo_noticed {text : List UInt8} (noticed : Noticed calendar stale io text)
    (request : PutRequest) (bak : Option (List UInt8)) :
    putdumptimeIo calendar stale io request.path request.level request.ddate ⟨some text, bak⟩ =
      (-1, ⟨some text, bak⟩) := by
  unfold putdumptimeIo
  rw [ddheadIo_some]
  dsimp only
  rcases noticed with pathname | ⟨closed, reclosed⟩ | memory | bakClosed
  · simp [pathname]
  · simp [closed, reclosed]
  · have failed : (readdumptimesIo calendar stale io text).1 = -1 := by
      unfold readdumptimesIo
      rw [if_neg (by omega)]
    by_cases opens : io.opened = true ∨ io.reopened = true
    · simp [opens, failed]
    · simp [opens]
  · simp [bakClosed]

theorem putdumptimeIo_unnoticed {text : List UInt8}
    (unnoticed : ¬ Noticed calendar stale io text) (request : PutRequest)
    (bak : Option (List UInt8)) :
    putdumptimeIo calendar stale io request.path request.level request.ddate ⟨some text, bak⟩ =
      (0, if io.renamed then
        ⟨some ((writeRecords calendar (updateRecords request.path request.level request.ddate
          (recordsRead calendar stale io text))).take io.written), none⟩
      else
        ⟨some text, some ((writeRecords calendar (updateRecords request.path request.level
          request.ddate (recordsRead calendar stale io text))).take io.written)⟩) := by
  unfold Noticed at unnoticed
  simp only [not_or, not_and, Bool.not_eq_false, not_le] at unnoticed
  obtain ⟨pathname, opens, memory, bakOpened⟩ := unnoticed
  have opened : io.opened = true ∨ io.reopened = true := by
    cases first : io.opened with
    | true => exact .inl rfl
    | false => exact .inr (opens first)
  have read : readdumptimesIo calendar stale io text = (0, recordsRead calendar stale io text) := by
    unfold readdumptimesIo
    rw [if_pos memory]
  unfold putdumptimeIo
  rw [ddheadIo_some, if_pos opened, read]
  cases renamed : io.renamed <;> simp [pathname, bakOpened]

/-- No call fails, and every number is large enough. -/
structure PutIo.Suffices (io : PutIo) (calendar : Calendar) (stale : Nat → Stale) (path : CString)
    (level ddate : Int) (files : DateFiles) : Prop where
  opens : io.pathname = true ∧ io.opened = true ∧ io.created = true ∧ io.createdOpened = true ∧
    io.bakOpened = true ∧ io.renamed = true
  mallocs : (fileRecords calendar stale files).length < io.mallocs
  readable : (files.dumpdates.getD []).length ≤ io.readable
  written : (writeRecords calendar (updateRecords path level ddate
    (fileRecords calendar stale files))).length ≤ io.written

/-- Without failures the file is updated. -/
theorem putdumptimeIo_eq {path : CString} {level ddate : Int} {files : DateFiles}
    (enough : io.Suffices calendar stale path level ddate files) :
    putdumptimeIo calendar stale io path level ddate files =
      putdumptime calendar stale path level ddate files := by
  obtain ⟨⟨pathname, opened, created, createdOpened, bakOpened, renamed⟩, mallocs, readable,
    written⟩ := enough
  obtain ⟨dumpdates, bak⟩ := files
  have records : recordsRead calendar stale io (dumpdates.getD []) =
      fileRecords calendar stale ⟨dumpdates, bak⟩ := by
    unfold recordsRead
    rw [List.take_of_length_le readable]
    cases dumpdates with
    | none => exact readRecords_nil calendar stale 1
    | some text => rfl
  have head : (ddheadIo calendar stale io ⟨dumpdates, bak⟩) =
      ((0, fileRecords calendar stale ⟨dumpdates, bak⟩), ⟨some (dumpdates.getD []), bak⟩) := by
    have read : readdumptimesIo calendar stale io (dumpdates.getD []) =
        (0, fileRecords calendar stale ⟨dumpdates, bak⟩) := by
      unfold readdumptimesIo
      rw [records, if_pos mallocs]
    cases dumpdates with
    | none =>
        simp only [ddheadIo, initdumptimesIo, created, createdOpened]
        exact congrArg (·, _) read
    | some text =>
        simp only [ddheadIo, opened]
        exact congrArg (·, _) read
  have whole : putdumptime calendar stale path level ddate ⟨dumpdates, bak⟩ =
      (0, ⟨some (writeRecords calendar (updateRecords path level ddate
        (fileRecords calendar stale ⟨dumpdates, bak⟩))), none⟩) := by
    cases dumpdates with
    | none =>
        have nothing : readdumptimes calendar stale [] = [] := readRecords_nil calendar stale 1
        simp [putdumptime, initdumptimes, fileRecords, nothing]
    | some text => rfl
  unfold putdumptimeIo
  rw [whole, head]
  simp [pathname, bakOpened, renamed, List.take_of_length_le written]

/-! ## What is written -/

/-- The lines of the records that are written in full. -/
theorem holdsLine_written (records : List Dumpdates) (count : Nat) (record : Dumpdates) :
    HoldsLine calendar ((writeRecords calendar records).take count) record ↔
      ∃ k ddp, records[k]? = some ddp ∧ dumprecout calendar ddp = dumprecout calendar record ∧
        (writeRecords calendar (records.take (k + 1))).length ≤ count := by
  have isLine : ∀ line ∈ records.map (dumprecout calendar), IsLine newline backslash line := by
    intro line listed
    obtain ⟨ddp, -, rfl⟩ := List.mem_map.mp listed
    exact dumprecout_isLine calendar ddp
  have text (records : List Dumpdates) :
      writeRecords calendar records = (records.map (dumprecout calendar)).flatten :=
    List.flatMap_def
  unfold HoldsLine
  rw [text, mem_continuedLines_take isLine]
  constructor
  · rintro ⟨k, listed, fits⟩
    rw [List.getElem?_map, Option.map_eq_some_iff] at listed
    obtain ⟨ddp, found, printed⟩ := listed
    rw [← List.map_take, ← text] at fits
    exact ⟨k, ddp, found, printed, fits⟩
  · rintro ⟨k, ddp, found, printed, fits⟩
    refine ⟨k, ?_, ?_⟩
    · rw [List.getElem?_map, found, Option.map_some, printed]
    · rwa [← List.map_take, ← text]

theorem PutRequest.stored (request : PutRequest) :
    (⟨request.path.take (tlmMaxPathName - 1), request.level.bmod (2 ^ 8), request.ddate⟩ :
      Dumpdates) = request.record := by
  have name : request.path.take (tlmMaxPathName - 1) = request.path :=
    List.take_of_length_le (Nat.le_sub_one_of_lt request.short)
  rw [name, request.char, PutRequest.record]

/-- The list that is written, by positions. -/
theorem updateRecords_getElem? (request : PutRequest) (records : List Dumpdates) (k : Nat)
    (ddp : Dumpdates) :
    (updateRecords request.path request.level request.ddate records)[k]? = some ddp ↔
      (∃ old, records[k]? = some old ∧
        ddp = if request.Updates old then { old with ddDdate := request.ddate } else old) ∨
      k = records.length ∧ (∀ old ∈ records, ¬ request.Updates old) ∧ ddp = request.record := by
  unfold updateRecords
  rw [request.stored]
  by_cases inside : k < records.length
  · rw [List.getElem?_append_left (by simpa using inside), List.getElem?_map,
      Option.map_eq_some_iff]
    constructor
    · rintro ⟨old, found, same⟩
      exact .inl ⟨old, found, same.symm⟩
    · rintro (⟨old, found, same⟩ | ⟨last, -⟩)
      · exact ⟨old, found, same.symm⟩
      · omega
  · have behind : records[k]? = none := List.getElem?_eq_none (not_lt.mp inside)
    rw [List.getElem?_append_right (by simpa using inside), List.length_map]
    by_cases found : (records.any fun ddp =>
        decide (ddp.ddLevel = request.level ∧ request.path = ddp.ddName)) = true
    · rw [if_pos found, List.getElem?_nil]
      refine iff_of_false (fun nothing => by cases nothing) ?_
      rintro (⟨old, listed, -⟩ | ⟨-, absent, -⟩)
      · cases behind.symm.trans listed
      · obtain ⟨old, listed, hit⟩ := List.any_eq_true.mp found
        exact absent old listed (of_decide_eq_true hit)
    · rw [if_neg found]
      have absent : ∀ old ∈ records, ¬ request.Updates old := by
        intro old listed hit
        exact found (List.any_eq_true.mpr ⟨old, listed, decide_eq_true hit⟩)
      rw [List.getElem?_singleton]
      constructor
      · intro last
        split at last
        · cases last
          exact .inr ⟨by omega, absent, rfl⟩
        · cases last
      · rintro (⟨old, listed, -⟩ | ⟨rfl, -, rfl⟩)
        · cases behind.symm.trans listed
        · rw [Nat.sub_self, if_pos rfl]

/-- Records with one line are for the same path and level. -/
theorem updates_congr {request : PutRequest} {ddp record : Dumpdates}
    (same : dumprecout calendar ddp = dumprecout calendar record) :
    request.Updates ddp ↔ request.Updates record := by
  obtain ⟨names, levels⟩ := dumprecout_key same
  unfold PutRequest.Updates
  rw [names, levels]

theorem PutRequest.updates_record (request : PutRequest) : request.Updates request.record :=
  ⟨rfl, rfl⟩

theorem PutRequest.Updates.updated {request : PutRequest} {ddp : Dumpdates}
    (hit : request.Updates ddp) :
    ({ ddp with ddDdate := request.ddate } : Dumpdates) = request.record := by
  obtain ⟨level, name⟩ := hit
  rw [PutRequest.record, name, ← level]

/-- Another record is written where it was read. -/
theorem written_other {request : PutRequest} {record : Dumpdates}
    (other : ¬ request.Updates record) (records : List Dumpdates) (reaches : Nat → Prop) :
    (∃ k ddp, (updateRecords request.path request.level request.ddate records)[k]? = some ddp ∧
        dumprecout calendar ddp = dumprecout calendar record ∧ reaches k) ↔
      ∃ k ddp, records[k]? = some ddp ∧ dumprecout calendar ddp = dumprecout calendar record ∧
        reaches k := by
  constructor
  · rintro ⟨k, ddp, listed, printed, fits⟩
    have kept := (updates_congr printed).not.mpr other
    rcases (updateRecords_getElem? request records k ddp).mp listed with ⟨old, found, same⟩ | last
    · by_cases hit : request.Updates old
      · rw [if_pos hit, hit.updated] at same
        exact absurd (same ▸ request.updates_record) kept
      · rw [if_neg hit] at same
        exact ⟨k, ddp, same ▸ found, printed, fits⟩
    · exact absurd (last.2.2 ▸ request.updates_record) kept
  · rintro ⟨k, ddp, found, printed, fits⟩
    have kept := (updates_congr printed).not.mpr other
    refine ⟨k, ddp, (updateRecords_getElem? request records k ddp).mpr (.inl ?_), printed, fits⟩
    exact ⟨ddp, found, (if_neg kept).symm⟩

/-- The record that is put is written in the place of the one that it updates, or last. -/
theorem written_put (request : PutRequest) (records : List Dumpdates) (reaches : Nat → Prop) :
    (∃ k ddp, (updateRecords request.path request.level request.ddate records)[k]? = some ddp ∧
        dumprecout calendar ddp = dumprecout calendar request.record ∧ reaches k) ↔
      ∃ k, reaches k ∧ ((∃ ddp, records[k]? = some ddp ∧ request.Updates ddp) ∨
        k = records.length ∧ ∀ ddp ∈ records, ¬ request.Updates ddp) := by
  constructor
  · rintro ⟨k, ddp, listed, printed, fits⟩
    have updates := (updates_congr printed).mpr request.updates_record
    refine ⟨k, fits, ?_⟩
    rcases (updateRecords_getElem? request records k ddp).mp listed with ⟨old, found, same⟩ | last
    · by_cases hit : request.Updates old
      · exact .inl ⟨old, found, hit⟩
      · rw [if_neg hit] at same
        exact absurd (same ▸ updates) hit
    · exact .inr ⟨last.1, last.2.1⟩
  · rintro ⟨k, fits, place⟩
    refine ⟨k, request.record, (updateRecords_getElem? request records k _).mpr ?_, rfl, fits⟩
    rcases place with ⟨old, found, hit⟩ | ⟨last, absent⟩
    · exact .inl ⟨old, found, by rw [if_pos hit, hit.updated]⟩
    · exact .inr ⟨last, absent, rfl⟩

end Puts

/-- A put does all or nothing exactly if it notices a failure, or keeps every well-formed
record and the new file is renamed, or the file held the record that is put before and stays. -/
theorem allOrNothing_iff (calendar : Calendar) (stale : Nat → Stale) (io : PutIo)
    (request : PutRequest) (text : List UInt8) (bak : Option (List UInt8)) :
    AllOrNothing calendar request text
        (putdumptimeIo calendar stale io request.path request.level request.ddate
          ⟨some text, bak⟩) ↔
      Noticed calendar stale io text ∨
        io.renamed = true ∧ NothingLost calendar stale io request text ∨
        io.renamed = false ∧ HoldsLine calendar text request.record := by
  by_cases noticed : Noticed calendar stale io text
  · rw [putdumptimeIo_noticed noticed]
    exact iff_of_true (.inl ⟨Int.negSucc_lt_zero 0, rfl⟩) (.inl noticed)
  rw [putdumptimeIo_unnoticed noticed]
  cases renamed : io.renamed with
  | false =>
      constructor
      · rintro (⟨negative, -⟩ | ⟨-, later, same, put, -⟩)
        · exact absurd negative (lt_irrefl 0)
        · cases same
          exact .inr (.inr ⟨rfl, put⟩)
      · rintro (seen | ⟨renames, -⟩ | ⟨-, held⟩)
        · exact absurd seen noticed
        · cases renames
        · exact .inr ⟨rfl, text, rfl, held, fun record _ holds _ => holds⟩
  | true =>
      constructor
      · rintro (⟨negative, -⟩ | ⟨-, later, same, put, kept⟩)
        · exact absurd negative (lt_irrefl 0)
        · cases same
          refine .inr (.inl ⟨rfl, ?_, ?_⟩)
          · intro record formed held other
            exact (written_other other _ _).mp
              ((holdsLine_written _ _ _).mp (kept record formed held other))
          · exact (written_put request _ _).mp ((holdsLine_written _ _ _).mp put)
      · rintro (seen | ⟨-, others, put⟩ | ⟨renames, -⟩)
        · exact absurd seen noticed
        · refine .inr ⟨rfl, _, rfl, ?_, ?_⟩
          · exact (holdsLine_written _ _ _).mpr ((written_put request _ _).mpr put)
          · intro record formed held other
            exact (holdsLine_written _ _ _).mpr
              ((written_other other _ _).mpr (others record formed held other))
        · cases renames

/-- A disk that is full when the new file is written. -/
def fullDisk (text : List UInt8) : PutIo where
  pathname := true
  opened := true
  reopened := true
  created := true
  createdOpened := true
  mallocs := 3
  readable := text.length
  bakOpened := true
  written := 0
  renamed := true

/-- A level 0 backup of the root. -/
def rootRequest : PutRequest := ⟨[47], 0, 3661, by decide, by decide⟩

/-- The two records of a file are gone, and the new one is not there either. -/
theorem fullDisk_loses :
    ¬ ∀ (calendar : Calendar) (stale : Nat → Stale) (io : PutIo) (request : PutRequest)
        (text : List UInt8) (bak : Option (List UInt8)),
      AllOrNothing calendar request text
        (putdumptimeIo calendar stale io request.path request.level request.ddate
          ⟨some text, bak⟩) := by
  intro always
  have read : recordsRead january noStale (fullDisk (writeRecords january escapedNames))
      (writeRecords january escapedNames) = escapedNames := by
    unfold recordsRead fullDisk
    rw [List.take_length]
    exact readRecords_writeRecords escapedNames_recordable escapedNames_storable 1
  have unnoticed : ¬ Noticed january noStale (fullDisk (writeRecords january escapedNames))
      (writeRecords january escapedNames) := by
    unfold Noticed
    rw [read]
    simp [fullDisk, escapedNames]
  have outcome := always january noStale (fullDisk (writeRecords january escapedNames)) rootRequest
    (writeRecords january escapedNames) none
  rw [putdumptimeIo_unnoticed unnoticed] at outcome
  rcases outcome with ⟨negative, -⟩ | ⟨-, later, same, put, -⟩
  · exact absurd negative (lt_irrefl 0)
  · cases same
    exact absurd put List.not_mem_nil

end Dumpdates

end Ndmpd
