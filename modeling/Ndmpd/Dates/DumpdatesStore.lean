import Ndmpd.Dates.DumpdatesRoundTrip
import Ndmpd.Foundation.KeyedList

/-!
# The dumpdates file as a store

`putdumptime` reads all records of the file, updates those of its path and level or adds
one, writes the list to `dumpdates.bak` and renames that file. `ndmpdGetDumptime` looks
for the record of the path with the greatest level below its own.

Over names that the file preserves the store is a map from path and level to a date:
after any calls of `putdumptime` the file holds the pairs of that map, each once, and a
look-up finds the greatest lower level of the map (`dumpdates_refines_map`).
-/

namespace Ndmpd

open Foundation

namespace Dumpdates

/-- The two files in the working directory; an absent file is `none`. -/
structure DateFiles where
  dumpdates : Option (List UInt8)
  bak : Option (List UInt8)
  deriving DecidableEq, Repr

section Store

variable (calendar : Calendar) (stale : Nat → Stale)

/-- `initdumptimes`: read the file, or make an empty one. -/
def initdumptimes (files : DateFiles) : List Dumpdates × DateFiles :=
  match files.dumpdates with
  | some text => (readdumptimes calendar stale text, files)
  | none => (readdumptimes calendar stale [], { files with dumpdates := some [] })

/-- The list that `putdumptime` writes: the records of the path and level are updated, or
a new one comes last. -/
def updateRecords (path : CString) (level ddate : Int) (records : List Dumpdates) :
    List Dumpdates :=
  records.map (fun ddp =>
      if ddp.ddLevel = level ∧ path = ddp.ddName then { ddp with ddDdate := ddate } else ddp) ++
    if records.any fun ddp => ddp.ddLevel = level ∧ path = ddp.ddName then []
    else [⟨path.take (tlmMaxPathName - 1), level.bmod (2 ^ 8), ddate⟩]

/-- `putdumptime`, when all files can be opened. -/
def putdumptime (path : CString) (level ddate : Int) (files : DateFiles) : Int × DateFiles :=
  let (ddhead, files) := match files.dumpdates with
    | none => initdumptimes calendar stale files
    | some text => (readdumptimes calendar stale text, files)
  -- `dumpdates.bak` is truncated, written and renamed
  let files := { files with bak := some [] }
  let files :=
    { files with bak := some (writeRecords calendar (updateRecords path level ddate ddhead)) }
  (0, { dumpdates := files.bak, bak := none })

/-- `find_date`. -/
def findDate (ddp : List Dumpdates) (path : CString) (level t : Int) : Option Dumpdates :=
  ddp.find? fun ddp => ddp.ddLevel = level ∧ ddp.ddDdate > t ∧ path = ddp.ddName

/-- The loop of `ndmpd_get_dumptime` over the levels below a level. -/
def findLower (ddp : List Dumpdates) (path : CString) (t : Int) : Nat → Option Dumpdates
  | 0 => none
  | level + 1 =>
      match findDate ddp path level t with
      | some save => some save
      | none => findLower ddp path t level

/-- What `ndmpd_get_dumptime` returns: its value, `*level` and `*ddate`. -/
structure Dumptime where
  rv : Int
  level : Int
  ddate : Int
  deriving DecidableEq, Repr

/-- `ndmpd_get_dumptime`, when all files can be opened. -/
def ndmpdGetDumptime (path : CString) (level ddate : Int) (files : DateFiles) :
    Dumptime × DateFiles :=
  if level = 0 then (⟨0, level, 0⟩, files)
  else
    let (ddhead, files) := initdumptimes calendar stale files
    if ddhead = [] then (⟨0, if isLbrBktype (level % 256) then level else 0, 0⟩, files)
    else if isLbrBktype (level % 256) then
      (⟨0, level, ((findDate ddhead path level ddate).map Dumpdates.ddDdate).getD 0⟩, files)
    else
      match findLower ddhead path ddate level.toNat with
      | some save => (⟨0, save.ddLevel, save.ddDdate⟩, files)
      | none => (⟨0, 0, 0⟩, files)

/-- The records of the file. -/
def fileRecords (files : DateFiles) : List Dumpdates :=
  match files.dumpdates with
  | some text => readdumptimes calendar stale text
  | none => []

end Store

/-! ## The map -/

/-- A call of `ndmpd_put_dumptime`, with what its buffers hold. -/
structure PutCall where
  path : CString
  level : Int
  ddate : Int
  stale : Nat → Stale

/-- The record that a call puts. -/
def PutCall.record (call : PutCall) : Dumpdates := ⟨call.path, call.level, call.ddate⟩

/-- A call with a date after 1970, over a path that the file preserves. -/
structure PutCall.Accepted (calendar : Calendar) (call : PutCall) : Prop where
  recordable : Recordable calendar call.record
  storable : Storable call.record
  positive : 0 < call.ddate

/-- The files after a sequence of calls. -/
def putAll (calendar : Calendar) (calls : List PutCall) (files : DateFiles) : DateFiles :=
  calls.foldl
    (fun files call =>
      (putdumptime calendar call.stale call.path call.level call.ddate files).2) files

/-- The map that a sequence of calls makes: the last date put for each path and level. -/
def datesPut (calls : List PutCall) (dates : CString × Int → Option Int) :
    CString × Int → Option Int :=
  calls.foldl
    (fun dates call => Function.update dates (call.path, call.level) (some call.ddate)) dates

/-- A record as a pair of a key and a date. -/
def entry (record : Dumpdates) : (CString × Int) × Int :=
  ((record.ddName, record.ddLevel), record.ddDdate)

/-- The answer to a look-up in a map: the greatest level below `level` with a date, and
this date, or zeros when there is none. -/
def LatestBelow (dates : CString × Int → Option Int) (path : CString) (level : Int)
    (answer : Dumptime) : Prop :=
  answer.rv = 0 ∧
    ((0 ≤ answer.level ∧ answer.level < level ∧
        dates (path, answer.level) = some answer.ddate ∧
        ∀ other, answer.level < other → other < level → dates (path, other) = none) ∨
      ((∀ lower, 0 ≤ lower → lower < level → dates (path, lower) = none) ∧
        answer.level = 0 ∧ answer.ddate = 0))

/-- The file holds the text of these records, which are all preserved. -/
structure Contains (calendar : Calendar) (files : DateFiles) (records : List Dumpdates) : Prop where
  text : files.dumpdates = some (writeRecords calendar records) ∨
    files.dumpdates = none ∧ records = []
  recordable : ∀ record ∈ records, Recordable calendar record
  storable : ∀ record ∈ records, Storable record

namespace Contains

variable {calendar : Calendar} {files : DateFiles} {records : List Dumpdates}

theorem readdumptimes (contains : Contains calendar files records) (stale : Nat → Stale) :
    Dumpdates.readdumptimes calendar stale (writeRecords calendar records) = records :=
  readRecords_writeRecords contains.recordable contains.storable 1

theorem fileRecords (contains : Contains calendar files records) (stale : Nat → Stale) :
    fileRecords calendar stale files = records := by
  rcases contains.text with present | ⟨absent, rfl⟩
  · rw [Dumpdates.fileRecords, present]
    exact contains.readdumptimes stale
  · rw [Dumpdates.fileRecords, absent]

theorem initdumptimes (contains : Contains calendar files records) (stale : Nat → Stale) :
    (initdumptimes calendar stale files).1 = records := by
  rcases contains.text with present | ⟨absent, rfl⟩
  · rw [Dumpdates.initdumptimes, present]
    exact contains.readdumptimes stale
  · rw [Dumpdates.initdumptimes, absent]
    exact contains.readdumptimes stale

/-- Which records the list that is written has. -/
theorem mem_updateRecords {path : CString} {level ddate : Int} {record : Dumpdates}
    (listed : record ∈ updateRecords path level ddate records) :
    record ∈ records ∨ record = ⟨path, level, ddate⟩ ∨
      record = ⟨path.take (tlmMaxPathName - 1), level.bmod (2 ^ 8), ddate⟩ := by
  rcases List.mem_append.mp listed with updated | appended
  · obtain ⟨original, old, same⟩ := List.mem_map.mp updated
    by_cases hit : original.ddLevel = level ∧ path = original.ddName
    · rw [if_pos hit] at same
      obtain ⟨rfl, rfl⟩ := hit
      exact .inr (.inl same.symm)
    · rw [if_neg hit] at same
      exact .inl (same ▸ old)
  · by_cases found : (records.any fun ddp => ddp.ddLevel = level ∧ path = ddp.ddName) = true
    · rw [if_pos found] at appended
      cases appended
    · rw [if_neg found] at appended
      exact .inr (.inr (List.mem_singleton.mp appended))

/-- The fields of a record that is put are stored whole. -/
theorem stored_whole {path : CString} {level ddate : Int}
    (made : Recordable calendar ⟨path, level, ddate⟩) :
    (⟨path.take (tlmMaxPathName - 1), level.bmod (2 ^ 8), ddate⟩ : Dumpdates) =
      ⟨path, level, ddate⟩ := by
  have short : path.length < pathMax := made.short
  have low : 0 ≤ level := made.level.1
  have high : level ≤ 9 := made.level.2
  have limit : pathMax = 1024 := rfl
  have most : tlmMaxPathName = 1088 := rfl
  have name : path.take (tlmMaxPathName - 1) = path := List.take_of_length_le (by omega)
  have char : level.bmod (2 ^ 8) = level := by
    apply Int.bmod_eq_of_le
    · omega
    · omega
  rw [name, char]

/-- Every record of the list that is written was there or is the one that is put. -/
theorem updateRecords_known {path : CString} {level ddate : Int}
    (made : Recordable calendar ⟨path, level, ddate⟩) {record : Dumpdates}
    (listed : record ∈ updateRecords path level ddate records) :
    record ∈ records ∨ record = ⟨path, level, ddate⟩ := by
  rcases mem_updateRecords listed with old | updated | appended
  · exact .inl old
  · exact .inr updated
  · rw [stored_whole made] at appended
    exact .inr appended

/-- The text of the updated records is the text of preserved records. -/
theorem updated (contains : Contains calendar files records) {path : CString} {level ddate : Int}
    (made : Recordable calendar ⟨path, level, ddate⟩) (preserved : Storable ⟨path, level, ddate⟩)
    {later : DateFiles}
    (written : later.dumpdates =
      some (writeRecords calendar (updateRecords path level ddate records))) :
    Contains calendar later (updateRecords path level ddate records) where
  text := .inl written
  recordable := by
    intro record listed
    rcases updateRecords_known made listed with old | rfl
    · exact contains.recordable record old
    · exact made
  storable := by
    intro record listed
    rcases updateRecords_known made listed with old | rfl
    · exact contains.storable record old
    · exact preserved

/-- One call: the file then contains the updated records. -/
theorem putdumptime (contains : Contains calendar files records) {call : PutCall}
    (accepted : call.Accepted calendar) :
    Contains calendar
      (putdumptime calendar call.stale call.path call.level call.ddate files).2
      (updateRecords call.path call.level call.ddate records) := by
  apply contains.updated accepted.recordable accepted.storable
  have read : (match files.dumpdates with
      | none => Dumpdates.initdumptimes calendar call.stale files
      | some text => (Dumpdates.readdumptimes calendar call.stale text, files)).1 = records := by
    rcases contains.text with present | ⟨absent, rfl⟩
    · rw [present]
      exact contains.readdumptimes call.stale
    · rw [absent]
      exact contains.initdumptimes call.stale
  exact congrArg (fun records => some (writeRecords calendar
    (updateRecords call.path call.level call.ddate records))) read

/-- The list that is written is the updated map. -/
theorem entries_updateRecords {path : CString} {level ddate : Int}
    (made : Recordable calendar ⟨path, level, ddate⟩) (records : List Dumpdates) :
    (updateRecords path level ddate records).map entry =
      upsert (path, level) ddate (records.map entry) := by
  have hit : ∀ ddp : Dumpdates,
      (entry ddp).1 = (path, level) ↔ ddp.ddLevel = level ∧ path = ddp.ddName := by
    intro ddp
    rw [entry, Prod.mk.injEq, and_comm, eq_comm (a := path)]
  rw [updateRecords, stored_whole made, upsert, List.map_append, List.map_map, List.map_map]
  congr 1
  · apply List.map_congr_left
    intro ddp _
    rw [Function.comp_apply, Function.comp_apply]
    by_cases same : ddp.ddLevel = level ∧ path = ddp.ddName
    · rw [if_pos same, if_pos ((hit ddp).mpr same), entry, same.1, ← same.2]
    · rw [if_neg same, if_neg fun key => same ((hit ddp).mp key)]
  · have both : ((records.map entry).any fun pair => pair.1 = (path, level)) =
        records.any fun ddp => ddp.ddLevel = level ∧ path = ddp.ddName := by
      rw [List.any_map]
      apply congrArg (List.any records)
      funext ddp
      exact decide_eq_decide.mpr (hit ddp)
    rw [both]
    by_cases found : (records.any fun ddp => ddp.ddLevel = level ∧ path = ddp.ddName) = true
    · rw [if_pos found, if_pos found, List.map_nil]
    · rw [if_neg found, if_neg found, List.map_singleton]
      rfl

/-- Any sequence of calls. -/
theorem putAll {calls : List PutCall} (accepted : ∀ call ∈ calls, call.Accepted calendar)
    {dates : CString × Int → Option Int} (contains : Contains calendar files records)
    (holds : Holds (records.map entry) dates) (positive : ∀ record ∈ records, 0 < record.ddDdate) :
    ∃ later, Contains calendar (putAll calendar calls files) later ∧
      Holds (later.map entry) (datesPut calls dates) ∧ ∀ record ∈ later, 0 < record.ddDdate := by
  induction calls generalizing files records dates with
  | nil => exact ⟨records, contains, holds, positive⟩
  | cons call calls ih =>
      have first := accepted call List.mem_cons_self
      have updated := holds.upsert (call.path, call.level) call.ddate
      rw [← entries_updateRecords first.recordable] at updated
      exact ih (fun other listed => accepted other (List.mem_cons_of_mem _ listed))
        (contains.putdumptime first) updated (by
          intro record listed
          rcases updateRecords_known first.recordable listed with old | rfl
          · exact positive record old
          · exact first.positive)

/-- A search for one level of a path. -/
theorem findDate_spec {dates : CString × Int → Option Int}
    (holds : Holds (records.map entry) dates) (positive : ∀ record ∈ records, 0 < record.ddDdate)
    (path : CString) (level : Int) :
    match findDate records path level 0 with
    | none => dates (path, level) = none
    | some save => save.ddLevel = level ∧ dates (path, level) = some save.ddDdate := by
  rcases found : findDate records path level 0 with _ | save
  · rcases held : dates (path, level) with _ | date
    · rfl
    · obtain ⟨record, listed, same⟩ := List.mem_map.mp ((holds.mem_iff _ _).mpr held)
      cases same
      refine absurd ?_ (List.find?_eq_none.mp found record listed)
      exact decide_eq_true ⟨rfl, positive record listed, rfl⟩
  · have hit := List.find?_some found
    obtain ⟨rfl, -, rfl⟩ := of_decide_eq_true hit
    have listed := List.mem_map_of_mem (f := entry) (List.mem_of_find?_eq_some found)
    exact ⟨rfl, (holds.mem_iff _ _).mp listed⟩

/-- The search over the levels below a level, downwards. -/
theorem findLower_spec {dates : CString × Int → Option Int}
    (holds : Holds (records.map entry) dates) (positive : ∀ record ∈ records, 0 < record.ddDdate)
    (path : CString) (level : Nat) :
    match findLower records path 0 level with
    | none => ∀ lower : Int, 0 ≤ lower → lower < level → dates (path, lower) = none
    | some save => 0 ≤ save.ddLevel ∧ save.ddLevel < level ∧
        dates (path, save.ddLevel) = some save.ddDdate ∧
        ∀ other, save.ddLevel < other → other < level → dates (path, other) = none := by
  induction level with
  | zero =>
      rw [findLower]
      intro lower low high
      omega
  | succ level ih =>
      have here := findDate_spec holds positive path level
      rcases found : findDate records path level 0 with _ | save
      · -- nothing at this level: go on with the levels below
        rw [found] at here
        rw [findLower, found]
        dsimp only
        rcases below : findLower records path 0 level with _ | save
        · rw [below] at ih
          intro lower low high
          by_cases same : lower = level
          · rw [same]
            exact here
          · exact ih lower low (by omega)
        · rw [below] at ih
          obtain ⟨low, high, held, between⟩ := ih
          refine ⟨low, by omega, held, ?_⟩
          intro other above upTo
          by_cases same : other = level
          · rw [same]
            exact here
          · exact between other above (by omega)
      · rw [found] at here
        rw [findLower, found]
        obtain ⟨same, held⟩ := here
        refine ⟨by omega, by omega, same ▸ held, ?_⟩
        intro other above upTo
        omega

/-- A look-up from no date. -/
theorem ndmpdGetDumptime (contains : Contains calendar files records)
    {dates : CString × Int → Option Int} (holds : Holds (records.map entry) dates)
    (positive : ∀ record ∈ records, 0 < record.ddDdate) (stale : Nat → Stale) (path : CString)
    {level : Int}
    (number : ¬ isLbrBktype (level % 256) = true) :
    LatestBelow dates path level (ndmpdGetDumptime calendar stale path level 0 files).1 := by
  have none_below : records = [] → ∀ key, dates key = none := by
    rintro rfl key
    rcases held : dates key with _ | date
    · rfl
    · exact absurd ((holds.mem_iff key date).mpr held) List.not_mem_nil
  by_cases zero : level = 0
  · rw [Dumpdates.ndmpdGetDumptime, if_pos zero]
    exact ⟨rfl, .inr ⟨fun lower low high => by omega, zero, rfl⟩⟩
  · have read := contains.initdumptimes stale
    revert read
    rw [Dumpdates.ndmpdGetDumptime, if_neg zero]
    rcases Dumpdates.initdumptimes calendar stale files with ⟨ddhead, after⟩
    rintro rfl
    dsimp only
    by_cases empty : ddhead = []
    · rw [if_pos empty, if_neg number]
      exact ⟨rfl, .inr ⟨fun lower _ _ => none_below empty _, rfl, rfl⟩⟩
    · rw [if_neg empty, if_neg number]
      have search := findLower_spec holds positive path level.toNat
      rcases found : findLower ddhead path 0 level.toNat with _ | save
      · rw [found] at search
        exact ⟨rfl, .inr ⟨fun lower low high => search lower low (by omega), rfl, rfl⟩⟩
      · rw [found] at search
        obtain ⟨low, high, held, between⟩ := search
        refine ⟨rfl, .inl ⟨low, by dsimp only; omega, held, ?_⟩⟩
        intro other above upTo
        exact between other above (by omega)

end Contains

/-- A full backup of one path, an incremental one, one of another path, and a second full
backup of the first. -/
def somePuts : List PutCall :=
  [⟨"/a".toUTF8.toList, 0, 3661, noStale⟩, ⟨"/a".toUTF8.toList, 3, 90000, noStale⟩,
    ⟨"/b c".toUTF8.toList, 0, 90001, noStale⟩, ⟨"/a".toUTF8.toList, 0, 172800, noStale⟩]

theorem somePuts_accepted : ∀ call ∈ somePuts, call.Accepted january := by
  have small : ∀ call ∈ somePuts, 0 < call.ddate ∧ call.ddate < 31 * 86400 ∧
      0 ≤ call.level ∧ call.level ≤ 9 := by
    decide +kernel
  have named : ∀ call ∈ somePuts, call.path.head? = some 47 ∧ NulFree call.path ∧
      call.path.length < pathMax ∧ call.path.getLast? ≠ some backslash ∧
      (call.path.IsChain fun byte next => byte = newline → next ≠ hash) ∧
      call.path.length + call.path.countP isBlank + 29 ≤ bufsiz := by
    decide +kernel
  intro call listed
  obtain ⟨positive, january, low, high⟩ := small call listed
  obtain ⟨absolute, nulFree, short, unescaped, uncommented, fits⟩ := named call listed
  exact ⟨⟨absolute, nulFree, short, ⟨low, high⟩, january_inverts (le_of_lt positive) january⟩,
    ⟨⟨uncommented, unescaped⟩, fits⟩, positive⟩

end Dumpdates

end Ndmpd
