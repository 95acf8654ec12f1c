import Ndmpd.Backup.ExcludedNames
import Ndmpd.Backup.SplitEnv

/-!
# The parameters of a backup

`ndmp_backup_get_params_v3` reads the environment of a backup into the session's
`ndmp_lbr_params_t`, which is allocated once and lives as long as the session. The file
history flag and the level are set for each backup that is accepted. The update flag is set
behind the look-up of the dump date, which a backup without `LEVEL` does not make, so that
such a backup gets the flag that was left by an earlier one (`ownParams_iff`).
-/

namespace Ndmpd

open Dumpdates Foundation

/-- `ndmp_lbr_params_t`, as far as a backup sets it. -/
structure LbrParams where
  nlpBackupPath : CString
  level : LevelParams
  levelbk : Bool
  fh : Bool
  snap : Bool
  inclmtime : Bool
  nlpExl : List CString
  nlpInc : Option (List CString)
  deriving DecidableEq, Repr

/-- A backup request: its environment, which paths are directories, and the answer of
`ndmpd_get_dumptime`, `none` where that fails. -/
structure BackupRequest where
  env : List Pval
  isDirectory : CString → Bool
  getDumptime : CString → Int → Option Dumptime

namespace BackupParams

/-- `PREFIX`. -/
def prefixName : CString := [80, 82, 69, 70, 73, 88]

/-- `FILESYSTEM`. -/
def filesystemName : CString := [70, 73, 76, 69, 83, 89, 83, 84, 69, 77]

/-- `UPDATE`. -/
def updateName : CString := [85, 80, 68, 65, 84, 69]

/-- `HIST`. -/
def histName : CString := [72, 73, 83, 84]

/-- `FILES`. -/
def filesName : CString := [70, 73, 76, 69, 83]

/-- `LEVEL`. -/
def levelName : CString := [76, 69, 86, 69, 76]

/-- `IS_YORT` of the first character. `strchr` finds the NUL of an empty value too. -/
def isYort (envp : CString) : Bool :=
  envp = [] ∨ envp.head?.any fun byte => byte = 89 ∨ byte = 121 ∨ byte = 84 ∨ byte = 116

section Getters

variable (env : List Pval)

/-- `get_bk_path_v3`; without a path it takes the length of `NULL`. -/
def getBkPathV3 : Option CString :=
  ((getEnv env prefixName).or (getEnv env filesystemName)).map
    (List.rdropWhile fun byte => byte = slash)

/-- `get_update_env_v3`. -/
def getUpdateEnvV3 (nlp : LbrParams) : LbrParams :=
  match getEnv env updateName with
  | none => { nlp with level := { nlp.level with update := true } }
  | some envp => { nlp with level := { nlp.level with update := isYort envp } }

/-- `get_hist_env_v3`. -/
def getHistEnvV3 (nlp : LbrParams) : LbrParams :=
  match getEnv env histName with
  | none => { nlp with fh := false }
  | some envp => { nlp with fh := isYort envp }

/-- `get_inc_env_v3`. -/
def getIncEnvV3 (nlp : LbrParams) : LbrParams :=
  match getEnv env filesName with
  | none => { nlp with nlpInc := none }
  | some envp => { nlp with nlpInc := (splitEnv 44 envp).cpp }

/-- `get_backup_level_v3`, with the answers of `ndmpd_get_dumptime`. -/
def getBackupLevelV3 (getDumptime : Int → Option Dumptime) (nlp : LbrParams) :
    NdmpError × LbrParams :=
  match getEnv env levelName with
  | none =>
      (.noErr, { nlp with
        levelbk := true
        level := { nlp.level with nlpLlevel := 0, nlpLdate := 0, nlpClevel := 0 } })
  | some [digit] =>
      if isDigit 10 digit then
        let level : Int := digitValue digit
        let nlp := { nlp with
          levelbk := true
          level := { nlp.level with nlpLlevel := level, nlpLdate := 0, nlpClevel := level } }
        match getDumptime level with
        | none => (.noMemErr, nlp)
        | some found =>
            (.noErr, getUpdateEnvV3 env { nlp with
              level := { nlp.level with nlpLlevel := found.level, nlpLdate := found.ddate } })
      else (.illegalArgsErr, nlp)
  | some _ => (.illegalArgsErr, nlp)

end Getters

section Session

variable (ndmpIgnoreCtime ndmpIncludeLmtime : Bool)

/-- `ndmp_backup_get_params_v3`; `none` where the daemon crashes. -/
def ndmpBackupGetParamsV3 (request : BackupRequest) (nlp : LbrParams) :
    Option (NdmpError × LbrParams) :=
  match getBkPathV3 request.env with
  | none => none
  | some bkpath =>
      let nlp := { nlp with nlpBackupPath := bkpath }
      -- `is_valid_backup_dir_v3`
      if bkpath.head? = some slash ∧ request.isDirectory bkpath then
        let nlp := { nlp with
          level := { nlp.level with ignctime := ndmpIgnoreCtime }
          inclmtime := ndmpIncludeLmtime }
        let nlp := getHistEnvV3 request.env nlp
        let nlp := { nlp with nlpExl := (getExcEnvV3 request.env).nlpExl }
        let nlp := getIncEnvV3 request.env nlp
        -- `get_snap_env_v3`
        let nlp := { nlp with snap := false }
        some (getBackupLevelV3 request.env (request.getDumptime bkpath) nlp)
      else some (.fileNotFoundErr, nlp)

/-- The parameters of a new session, from `ndmp_lbr_init`. -/
def ndmpLbrInit : LbrParams :=
  ⟨[], ⟨0, 0, 0, 0, false, false⟩, false, false, false, false, [], none⟩

/-- The parameters after the requests of a session. -/
def afterRequests (requests : List BackupRequest) : Option LbrParams :=
  requests.foldlM
    (fun nlp request =>
      (ndmpBackupGetParamsV3 ndmpIgnoreCtime ndmpIncludeLmtime request nlp).map Prod.snd)
    ndmpLbrInit

/-! ## What a backup asks for -/

/-- Is the dump date to be recorded? -/
def wantsUpdate (env : List Pval) : Bool := (getEnv env updateName).all isYort

/-- Is the file history to be sent? -/
def wantsHistory (env : List Pval) : Bool := (getEnv env histName).any isYort

/-- The level that is asked for. -/
def wantsLevel (env : List Pval) : Int :=
  match getEnv env levelName with
  | some [digit] => digitValue digit
  | _ => 0

/-- The parameters are those of an environment. -/
structure OwnParams (env : List Pval) (nlp : LbrParams) : Prop where
  update : nlp.level.update = wantsUpdate env
  level : nlp.level.nlpClevel = wantsLevel env
  history : nlp.fh = wantsHistory env

/-- Each backup of a session that is accepted gets the parameters of its own environment. -/
def EachOwnParams (requests : List BackupRequest) : Prop :=
  ∀ earlier request later, requests = earlier ++ request :: later →
    ∀ before, afterRequests ndmpIgnoreCtime ndmpIncludeLmtime earlier = some before →
      ∀ after, ndmpBackupGetParamsV3 ndmpIgnoreCtime ndmpIncludeLmtime request before =
        some (.noErr, after) → OwnParams request.env after

end Session

/-- The request defines a level. -/
def hasLevel (request : BackupRequest) : Bool := (getEnv request.env levelName).isSome

/-- No level is defined, or a digit for which `ndmpd_get_dumptime` succeeds. -/
def acceptsLevel (env : List Pval) (getDumptime : Int → Option Dumptime) : Bool :=
  match getEnv env levelName with
  | none => true
  | some [digit] => isDigit 10 digit && (getDumptime (digitValue digit : Int)).isSome
  | some _ => false

/-- The request is accepted: its path is a directory and its level is valid. -/
def accepted (request : BackupRequest) : Bool :=
  match getBkPathV3 request.env with
  | none => false
  | some bkpath =>
      (bkpath.head? = some slash ∧ request.isDirectory bkpath) &&
        acceptsLevel request.env (request.getDumptime bkpath)

/-- The update flag that requests leave: what the last one that was accepted with a level
asked for, and not set at first. -/
def flagLeft (requests : List BackupRequest) : Bool :=
  ((requests.filter fun request => accepted request && hasLevel request).getLast?.map
    fun request => wantsUpdate request.env).getD false

/-! ## One request -/

@[simp]
theorem getUpdateEnvV3_update (env : List Pval) (nlp : LbrParams) :
    (getUpdateEnvV3 env nlp).level.update = wantsUpdate env := by
  unfold getUpdateEnvV3 wantsUpdate
  cases getEnv env updateName <;> rfl

@[simp]
theorem getUpdateEnvV3_clevel (env : List Pval) (nlp : LbrParams) :
    (getUpdateEnvV3 env nlp).level.nlpClevel = nlp.level.nlpClevel := by
  unfold getUpdateEnvV3
  split <;> rfl

@[simp]
theorem getUpdateEnvV3_fh (env : List Pval) (nlp : LbrParams) :
    (getUpdateEnvV3 env nlp).fh = nlp.fh := by
  unfold getUpdateEnvV3
  split <;> rfl

@[simp]
theorem getHistEnvV3_fh (env : List Pval) (nlp : LbrParams) :
    (getHistEnvV3 env nlp).fh = wantsHistory env := by
  unfold getHistEnvV3 wantsHistory
  cases getEnv env histName <;> rfl

@[simp]
theorem getHistEnvV3_level (env : List Pval) (nlp : LbrParams) :
    (getHistEnvV3 env nlp).level = nlp.level := by
  unfold getHistEnvV3
  split <;> rfl

@[simp]
theorem getIncEnvV3_fh (env : List Pval) (nlp : LbrParams) :
    (getIncEnvV3 env nlp).fh = nlp.fh := by
  unfold getIncEnvV3
  split <;> rfl

@[simp]
theorem getIncEnvV3_level (env : List Pval) (nlp : LbrParams) :
    (getIncEnvV3 env nlp).level = nlp.level := by
  unfold getIncEnvV3
  split <;> rfl

/-- What `get_backup_level_v3` does with the flags and the level. -/
theorem getBackupLevelV3_spec (env : List Pval) (getDumptime : Int → Option Dumptime)
    (nlp : LbrParams) :
    ((getBackupLevelV3 env getDumptime nlp).1 = .noErr ↔ acceptsLevel env getDumptime = true) ∧
      (getBackupLevelV3 env getDumptime nlp).2.fh = nlp.fh ∧
      ((getBackupLevelV3 env getDumptime nlp).2.level.update =
        if acceptsLevel env getDumptime && (getEnv env levelName).isSome then wantsUpdate env
        else nlp.level.update) ∧
      (acceptsLevel env getDumptime = true →
        (getBackupLevelV3 env getDumptime nlp).2.level.nlpClevel = wantsLevel env) := by
  unfold getBackupLevelV3 acceptsLevel wantsLevel
  split
  case h_1 absent => simp [absent]
  case h_2 digit defined =>
    by_cases isNumber : isDigit 10 digit = true
    · rw [if_pos isNumber]
      dsimp only
      split
      case h_1 failed => simp [isNumber, failed]
      case h_2 found answer => simp [defined, isNumber, answer]
    · simp [isNumber]
  case h_3 value other defined => simp

/-- With the answers of the dumpdates file the level is the one of the timeline of level
backups, which takes the update flag as it comes. -/
theorem getBackupLevelV3_level (calendar : Calendar) (stale : Nat → Stale) (path : CString)
    (files : DateFiles) (env : List Pval) (nlp : LbrParams) :
    (LevelBackups.getBackupLevelV3 calendar stale path (getEnv env levelName) nlp.level files).1 =
      if acceptsLevel env fun level => some (ndmpdGetDumptime calendar stale path level 0 files).1
      then some {
        (getBackupLevelV3 env
          (fun level => some (ndmpdGetDumptime calendar stale path level 0 files).1)
          nlp).2.level with
        update := nlp.level.update }
      else none := by
  unfold getBackupLevelV3 acceptsLevel LevelBackups.getBackupLevelV3
  cases getEnv env levelName with
  | none => rfl
  | some envp =>
      cases envp with
      | nil => rfl
      | cons digit rest =>
          cases rest with
          | cons next rest => rfl
          | nil =>
              by_cases isNumber : isDigit 10 digit = true
              · simp only [isNumber, if_true, Option.isSome_some, Bool.and_self]
                unfold getUpdateEnvV3
                split <;> rfl
              · simp [isNumber]

variable {ndmpIgnoreCtime ndmpIncludeLmtime : Bool} {request : BackupRequest}

/-- A request fails at its path, or reads its level with the file history flag set. -/
theorem ndmpBackupGetParamsV3_cases {nlp after : LbrParams} {err : NdmpError}
    (taken : ndmpBackupGetParamsV3 ndmpIgnoreCtime ndmpIncludeLmtime request nlp =
      some (err, after)) :
    ∃ bkpath, getBkPathV3 request.env = some bkpath ∧
      (¬ (bkpath.head? = some slash ∧ request.isDirectory bkpath = true) ∧
          err = .fileNotFoundErr ∧ after.level = nlp.level ∨
        (bkpath.head? = some slash ∧ request.isDirectory bkpath = true) ∧
          ∃ middle : LbrParams, middle.level.update = nlp.level.update ∧
            middle.fh = wantsHistory request.env ∧
            getBackupLevelV3 request.env (request.getDumptime bkpath) middle = (err, after)) := by
  unfold ndmpBackupGetParamsV3 at taken
  split at taken
  case h_1 => cases taken
  case h_2 bkpath path =>
    refine ⟨bkpath, path, ?_⟩
    dsimp only at taken
    split at taken
    case isTrue directory =>
      refine .inr ⟨directory, _, ?_, ?_, Option.some.inj taken⟩
      · simp
      · simp
    case isFalse other =>
      cases taken
      exact .inl ⟨other, rfl, rfl⟩

/-- What a request leaves. -/
theorem ndmpBackupGetParamsV3_spec {nlp after : LbrParams} {err : NdmpError}
    (taken : ndmpBackupGetParamsV3 ndmpIgnoreCtime ndmpIncludeLmtime request nlp =
      some (err, after)) :
    (err = .noErr ↔ accepted request = true) ∧
      after.level.update =
        (if accepted request && hasLevel request then wantsUpdate request.env
         else nlp.level.update) ∧
      (accepted request = true →
        after.level.nlpClevel = wantsLevel request.env ∧
          after.fh = wantsHistory request.env) := by
  obtain ⟨bkpath, path, ⟨other, rfl, level⟩ | ⟨directory, middle, update, history, read⟩⟩ :=
    ndmpBackupGetParamsV3_cases taken
  · have refused : accepted request = false := by simp [accepted, path, other]
    rw [refused, level]
    simp
  · have valid : accepted request =
        acceptsLevel request.env (request.getDumptime bkpath) := by
      simp [accepted, path, directory]
    obtain ⟨noErr, fh, flag, clevel⟩ :=
      getBackupLevelV3_spec request.env (request.getDumptime bkpath) middle
    rw [read] at noErr fh flag clevel
    rw [valid]
    refine ⟨noErr, ?_, fun accepts => ⟨clevel accepts, fh.trans history⟩⟩
    rw [← update]
    exact flag

/-- A request does not crash the daemon when it names a path. -/
theorem ndmpBackupGetParamsV3_isSome (nlp : LbrParams) :
    (ndmpBackupGetParamsV3 ndmpIgnoreCtime ndmpIncludeLmtime request nlp).isSome =
      (getBkPathV3 request.env).isSome := by
  unfold ndmpBackupGetParamsV3
  split
  case h_1 absent => rw [absent]; rfl
  case h_2 bkpath path =>
    rw [path]
    dsimp only
    split <;> rfl

/-! ## A session -/

theorem flagLeft_append (earlier : List BackupRequest) (request : BackupRequest) :
    flagLeft (earlier ++ [request]) =
      if accepted request && hasLevel request then wantsUpdate request.env
      else flagLeft earlier := by
  unfold flagLeft
  rw [List.filter_append, List.filter_singleton]
  by_cases decides : (accepted request && hasLevel request) = true
  · simp [decides]
  · simp [decides]

theorem afterRequests_append (earlier : List BackupRequest) (request : BackupRequest) :
    afterRequests ndmpIgnoreCtime ndmpIncludeLmtime (earlier ++ [request]) =
      (afterRequests ndmpIgnoreCtime ndmpIncludeLmtime earlier).bind fun nlp =>
        (ndmpBackupGetParamsV3 ndmpIgnoreCtime ndmpIncludeLmtime request nlp).map Prod.snd := by
  unfold afterRequests
  rw [List.foldlM_append]
  apply bind_congr
  intro nlp
  rw [List.foldlM_cons]
  exact bind_pure _

/-- The flag that requests leave. -/
theorem afterRequests_update {requests : List BackupRequest} {nlp : LbrParams}
    (run : afterRequests ndmpIgnoreCtime ndmpIncludeLmtime requests = some nlp) :
    nlp.level.update = flagLeft requests := by
  induction requests using List.reverseRecOn generalizing nlp with
  | nil =>
      cases run
      rfl
  | append_singleton earlier request ih =>
      rw [afterRequests_append] at run
      obtain ⟨before, reached, last⟩ := Option.bind_eq_some_iff.mp run
      obtain ⟨⟨err, after⟩, taken, rfl⟩ := Option.map_eq_some_iff.mp last
      rw [flagLeft_append, ← ih reached]
      exact (ndmpBackupGetParamsV3_spec taken).2.1

/-- A session goes on as long as every request names a path. -/
theorem afterRequests_isSome (requests : List BackupRequest) :
    (afterRequests ndmpIgnoreCtime ndmpIncludeLmtime requests).isSome ↔
      ∀ request ∈ requests, (getBkPathV3 request.env).isSome := by
  induction requests using List.reverseRecOn with
  | nil => exact iff_of_true rfl (fun request listed => by cases listed)
  | append_singleton earlier request ih =>
      rw [afterRequests_append, List.forall_mem_append, ← ih, List.forall_mem_singleton]
      cases afterRequests ndmpIgnoreCtime ndmpIncludeLmtime earlier with
      | none => simp
      | some nlp =>
          rw [Option.bind_some, Option.isSome_map, ndmpBackupGetParamsV3_isSome]
          simp

/-- An accepted request gets the parameters of its own environment exactly when it defines a
level or the flag that it meets is the one it asks for. -/
theorem ownParams_iff {nlp after : LbrParams}
    (taken : ndmpBackupGetParamsV3 ndmpIgnoreCtime ndmpIncludeLmtime request nlp =
      some (.noErr, after)) :
    OwnParams request.env after ↔
      hasLevel request = true ∨ nlp.level.update = wantsUpdate request.env := by
  obtain ⟨noErr, update, others⟩ := ndmpBackupGetParamsV3_spec taken
  have valid := noErr.mp rfl
  obtain ⟨level, history⟩ := others valid
  rw [valid, Bool.true_and] at update
  by_cases defined : hasLevel request = true
  · rw [if_pos defined] at update
    exact iff_of_true ⟨update, level, history⟩ (.inl defined)
  · rw [if_neg defined] at update
    rw [or_iff_right defined, ← update]
    exact ⟨fun own => own.update, fun flag => ⟨flag, level, history⟩⟩

/-- Each accepted backup has the parameters of its own environment exactly when each, as long
as all requests before it name a path, defines a level or asks for the update flag that the
requests before it left: what the last accepted one with a level asked for, and otherwise no
update. -/
theorem eachOwnParams_iff (ndmpIgnoreCtime ndmpIncludeLmtime : Bool)
    (requests : List BackupRequest) :
    EachOwnParams ndmpIgnoreCtime ndmpIncludeLmtime requests ↔
      ∀ earlier request later, requests = earlier ++ request :: later →
        (∀ other ∈ earlier, (getBkPathV3 other.env).isSome) → accepted request = true →
          hasLevel request = true ∨ flagLeft earlier = wantsUpdate request.env := by
  constructor
  · intro each earlier request later split paths valid
    obtain ⟨before, reached⟩ := Option.isSome_iff_exists.mp
      ((@afterRequests_isSome ndmpIgnoreCtime ndmpIncludeLmtime earlier).mpr paths)
    have named : (getBkPathV3 request.env).isSome := by
      cases path : getBkPathV3 request.env with
      | none => simp [accepted, path] at valid
      | some bkpath => rfl
    rw [← ndmpBackupGetParamsV3_isSome before] at named
    obtain ⟨⟨err, after⟩, taken⟩ := Option.isSome_iff_exists.mp named
    have noErr := (ndmpBackupGetParamsV3_spec taken).1.mpr valid
    subst noErr
    rw [← afterRequests_update reached]
    exact (ownParams_iff taken).mp (each earlier request later split before reached after taken)
  · intro meets earlier request later split before reached after taken
    have paths := (afterRequests_isSome earlier).mp (Option.isSome_iff_exists.mpr ⟨before, reached⟩)
    have valid := (ndmpBackupGetParamsV3_spec taken).1.mp rfl
    rw [ownParams_iff taken, afterRequests_update reached]
    exact meets earlier request later split paths valid

/-- A first backup of `/a` without a level does not record its date. -/
theorem firstBackup_noUpdate :
    ¬EachOwnParams false false [⟨[⟨prefixName, [47, 97]⟩], fun _ => true, fun _ _ => none⟩] := by
  intro each
  have own := each [] _ [] rfl ndmpLbrInit rfl _ rfl
  cases own.update

end BackupParams

end Ndmpd
