import Mathlib.Data.List.Destutter
import Ndmpd.Backup.BackupParams
import Ndmpd.Foundation.CappedText
import Ndmpd.Restore.NameMaker

/-!
# The parameters of a restore

`ndmpd_save_nlist_v3` stores `NULL` for an empty destination directory, which V3 allows, and
`get_rs_path_v3` compares the destinations with `strcmp`. The destinations go into an array of
`MULTIPLE_DEST_DIRS` and from there into a text of 255 bytes. A name list is processed as it
should exactly when all destinations are defined and their text fits (`processed_iff`).
-/

namespace Ndmpd

open Foundation

/-- `MULTIPLE_DEST_DIRS`. -/
abbrev multipleDestDirs : Nat := 128

/-- The comma and the blank between destinations. -/
def destSeparator : CString := [44, 32]

/-- What `get_rs_path_v3` leaves: its result, if that was assigned, the destinations in
`nm_dpath_list` and `nlp_restore_path`. -/
structure RsPath where
  rv : Option NdmpError
  nmDpathList : List CString
  restorePath : CString
  deriving DecidableEq, Repr

/-- The first loop of `get_rs_path_v3`, with the last destination that it has listed and
`nm_cnt`; `none` where `strcmp` gets `NULL`. -/
def listDpaths (last : CString) (nmCnt : Nat) : List (Option CString) → Option (List CString)
  | [] => some []
  | none :: _ => none
  | some dpath :: rest =>
      if last ≠ dpath ∧ nmCnt < multipleDestDirs - 1 then
        (listDpaths dpath (nmCnt + 1) rest).map (dpath :: ·)
      else listDpaths last nmCnt rest

/-- The destination that is taken for one of the list. -/
def defaultDpath (backupPath dpath : CString) : CString :=
  if isDefined (some dpath) then dpath else backupPath

/-- The second loop, with `nlp_restore_path` as it is. Every volume exists and can be
written. -/
def joinDpaths (multipleDestRestore : Bool) (backupPath : CString) :
    CString → List CString → CString
  | restorePath, [] => restorePath
  | restorePath, dpath :: rest =>
      let restorePath := appendCapped 255 restorePath (defaultDpath backupPath dpath)
      if ¬ multipleDestRestore then restorePath
      else if rest = [] then restorePath
      else joinDpaths multipleDestRestore backupPath
        (appendCapped 255 restorePath destSeparator) rest

/-- `get_rs_path_v3`. -/
def getRsPathV3 (backupPath : CString) (nlist : List MemNdmpNameV3) : Option RsPath :=
  match listDpaths [] 0 (nlist.map MemNdmpNameV3.nm3Dpath) with
  | none => none
  | some dpaths =>
      some {
        rv := if dpaths = [] then none else some .noErr
        nmDpathList := dpaths
        restorePath := joinDpaths (1 < dpaths.length) backupPath [] dpaths }

/-- The paths of a saved entry. -/
def entryPaths (ep : MemNdmpNameV3) : MemNdmpName := ⟨ep.nm3Opath, ep.nm3Dpath, ep.nm3Newnm⟩

/-- What `ndmp_restore_get_params_v3` leaves: its result, if that was assigned, and the
destinations and the name list if it gets that far. -/
structure RestoreParams where
  rv : Option NdmpError
  rsPath : Option RsPath
  nlist : List MemNdmpName
  deriving DecidableEq, Repr

/-- `ndmp_restore_get_params_v3`, with what the buffer of `fix_nlist_v3` holds; `none` where
the daemon crashes. -/
def ndmpRestoreGetParamsV3 (v4 : Bool) (env : List Pval) (buf : CString)
    (nlist : List MemNdmpNameV3) : Option RestoreParams :=
  match BackupParams.getBkPathV3 env with
  | none => none
  | some backupPath =>
      if nlist = [] then some ⟨some .illegalArgsErr, none, []⟩
      else
        match getRsPathV3 backupPath nlist with
        | none => none
        | some rsPath =>
            some {
              rv := rsPath.rv
              rsPath := some rsPath
              nlist := fixNlistV3 v4 backupPath buf (nlist.map entryPaths) }

/-- The destinations of a name list, the undefined ones empty, each once in a row. -/
def destinations (nlist : List MemNdmpNameV3) : List CString :=
  (nlist.map fun ep => ep.nm3Dpath.getD []).destutter (· ≠ ·)

/-- A saved name list is processed without a crash, the result is assigned, and the
destinations are those of the list, with the backup path for one that is undefined. -/
structure Processed (v4 : Bool) (env : List Pval) (buf : CString)
    (nlist : List MemNdmpNameV3) : Prop where
  safe : (ndmpRestoreGetParamsV3 v4 env buf nlist).isSome
  assigned : ∀ params ∈ ndmpRestoreGetParamsV3 v4 env buf nlist, params.rv.isSome
  listed : ∀ params ∈ ndmpRestoreGetParamsV3 v4 env buf nlist, ∀ rsPath ∈ params.rsPath,
    rsPath.nmDpathList = destinations nlist
  path : ∀ params ∈ ndmpRestoreGetParamsV3 v4 env buf nlist, ∀ rsPath ∈ params.rsPath,
    ∀ backupPath ∈ BackupParams.getBkPathV3 env,
      rsPath.restorePath =
        destSeparator.intercalate ((destinations nlist).map (defaultDpath backupPath))

/-! ## The loops -/

theorem destutter'_eq_cons (last : CString) (dpaths : List CString) :
    dpaths.destutter' (· ≠ ·) last = last :: (dpaths.destutter' (· ≠ ·) last).tail := by
  induction dpaths generalizing last with
  | nil => rfl
  | cons dpath dpaths ih =>
      by_cases other : last ≠ dpath
      · rw [List.destutter'_cons_pos _ other]
        rfl
      · rw [List.destutter'_cons_neg _ other]
        exact ih last

/-- The first loop fails at `NULL`, and lists as many destinations as it has room for. -/
theorem listDpaths_eq (last : CString) {nmCnt : Nat} (room : nmCnt ≤ multipleDestDirs - 1)
    (dpaths : List (Option CString)) :
    listDpaths last nmCnt dpaths =
      if none ∈ dpaths then none
      else some (((dpaths.map fun dpath => dpath.getD []).destutter' (· ≠ ·) last).tail.take
        (multipleDestDirs - 1 - nmCnt)) := by
  induction dpaths generalizing last nmCnt with
  | nil => simp [listDpaths]
  | cons dpath dpaths ih =>
      cases dpath with
      | none => simp [listDpaths]
      | some dpath =>
          have absent : none ∈ some dpath :: dpaths ↔ none ∈ dpaths := by simp
          rw [listDpaths, List.map_cons, Option.getD_some]
          simp only [absent]
          by_cases other : last ≠ dpath
          · rw [List.destutter'_cons_pos _ other, List.tail_cons]
            by_cases free : nmCnt < multipleDestDirs - 1
            · rw [if_pos ⟨other, free⟩, ih dpath free, destutter'_eq_cons dpath,
                show multipleDestDirs - 1 - nmCnt = multipleDestDirs - 1 - (nmCnt + 1) + 1 by omega,
                List.take_succ_cons]
              split <;> rfl
            · have full : multipleDestDirs - 1 - nmCnt = 0 := by omega
              rw [if_neg (fun both => free both.2), ih last room, full]
              simp
          · rw [if_neg (fun both => other both.1), List.destutter'_cons_neg _ other]
            exact ih last room

/-- The second loop puts the front of the joined destinations. -/
theorem joinDpaths_eq (backupPath restorePath : CString) (dpaths : List CString) :
    joinDpaths true backupPath (restorePath.take 255) dpaths =
      (restorePath ++ destSeparator.intercalate (dpaths.map (defaultDpath backupPath))).take
        255 := by
  induction dpaths generalizing restorePath with
  | nil => simp [joinDpaths]
  | cons dpath rest ih =>
      rw [joinDpaths, appendCapped_take]
      cases rest with
      | nil => simp
      | cons next rest =>
          simp only [not_true_eq_false, if_false, reduceCtorEq]
          rw [appendCapped_take, ih, List.map_cons, List.map_cons, List.map_cons,
            List.intercalate_cons_cons]
          simp only [List.append_assoc]

/-- `nlp_restore_path` is the front of the joined destinations. -/
theorem joinDpaths_front (backupPath : CString) (dpaths : List CString) :
    joinDpaths (1 < dpaths.length) backupPath [] dpaths =
      (destSeparator.intercalate (dpaths.map (defaultDpath backupPath))).take 255 := by
  have whole := joinDpaths_eq backupPath [] dpaths
  rw [List.take_nil, List.nil_append] at whole
  cases dpaths with
  | nil => rfl
  | cons dpath rest =>
      cases rest with
      | nil =>
          rw [← whole]
          rfl
      | cons next rest =>
          rw [← whole]
          congr 1

/-! ## The saved name list -/

/-- An accepted list has `NULL` for every destination directory that is empty. -/
theorem copyNames_dpaths {version copies : Nat} {nlist : List NameV3}
    {names : List MemNdmpNameV3} (copied : DataServer.copyNames version nlist copies = .ok names) :
    names.map MemNdmpNameV3.nm3Dpath = nlist.map fun source =>
      if source.destinationDir = [] then none else some source.destinationDir := by
  induction nlist generalizing copies names with
  | nil =>
      cases copied
      rfl
  | cons source nlist ih =>
      cases copies with
      | zero => cases copied
      | succ copies =>
          rw [DataServer.copyNames] at copied
          split at copied
          · cases copied
          · cases rest : DataServer.copyNames version nlist copies with
            | error error =>
                rw [rest] at copied
                cases copied
            | ok others =>
                rw [rest] at copied
                cases copied
                rw [List.map_cons, List.map_cons, ih rest]

theorem copyNames_error {version copies : Nat} {nlist : List NameV3} {error : NdmpError}
    (failed : DataServer.copyNames version nlist copies = .error error) : error ≠ .noErr := by
  induction nlist generalizing copies with
  | nil => cases failed
  | cons source nlist ih =>
      cases copies with
      | zero =>
          cases failed
          simp
      | succ copies =>
          rw [DataServer.copyNames] at failed
          split at failed
          · cases failed
            simp
          · cases rest : DataServer.copyNames version nlist copies with
            | error other =>
                rw [rest] at failed
                cases failed
                exact ih rest
            | ok others =>
                rw [rest] at failed
                cases failed

theorem ndmpdSaveNlistV3_accepted {session : DataServer} {nlist : List NameV3}
    {memory : Allocations} (accepted : (session.ndmpdSaveNlistV3 nlist memory).2 = .noErr) :
    nlist ≠ [] ∧ (session.ndmpdSaveNlistV3 nlist memory).1.ddNlistV3.map MemNdmpNameV3.nm3Dpath =
      nlist.map fun source =>
        if source.destinationDir = [] then none else some source.destinationDir := by
  revert accepted
  unfold DataServer.ndmpdSaveNlistV3
  split
  case isTrue =>
    intro accepted
    cases accepted
  case isFalse nonempty =>
    split
    · intro accepted
      cases accepted
    · split
      · rename_i names copied
        intro _
        exact ⟨nonempty, copyNames_dpaths copied⟩
      · rename_i error failed
        intro accepted
        exact absurd accepted (copyNames_error failed)

/-! ## What is processed -/

variable {v4 : Bool} {env : List Pval} {buf backupPath : CString} {nlist : List MemNdmpNameV3}

/-- A list with an undefined destination crashes the daemon. -/
theorem getRsPathV3_none (undefined : none ∈ nlist.map MemNdmpNameV3.nm3Dpath) :
    getRsPathV3 backupPath nlist = none := by
  unfold getRsPathV3
  rw [listDpaths_eq [] (Nat.zero_le _), if_pos undefined]

/-- A list of defined destinations leaves as many of them as there is room for. -/
theorem getRsPathV3_some (some_ : nlist ≠ [])
    (defined : ∀ ep ∈ nlist, ∃ dpath, ep.nm3Dpath = some dpath ∧ dpath ≠ []) :
    getRsPathV3 backupPath nlist = some {
      rv := some .noErr
      nmDpathList := (destinations nlist).take (multipleDestDirs - 1)
      restorePath := (destSeparator.intercalate
        (((destinations nlist).take (multipleDestDirs - 1)).map (defaultDpath backupPath))).take
          255 } := by
  have present : none ∉ nlist.map MemNdmpNameV3.nm3Dpath := by
    intro absent
    obtain ⟨ep, listed, undefined⟩ := List.mem_map.mp absent
    obtain ⟨dpath, isSome, _⟩ := defined ep listed
    rw [isSome] at undefined
    cases undefined
  have changes : (((nlist.map MemNdmpNameV3.nm3Dpath).map fun dpath => dpath.getD []).destutter'
      (· ≠ ·) []).tail = destinations nlist := by
    unfold destinations
    rw [List.map_map]
    cases nlist with
    | nil => exact absurd rfl some_
    | cons ep rest =>
        obtain ⟨dpath, isSome, nonempty⟩ := defined ep (List.mem_cons_self ..)
        rw [List.map_cons, List.map_cons, Function.comp_apply, isSome, Option.getD_some,
          List.destutter'_cons_pos _ nonempty.symm, List.tail_cons, List.destutter_cons']
        rfl
  have nonempty : (destinations nlist).take (multipleDestDirs - 1) ≠ [] := by
    cases nlist with
    | nil => exact absurd rfl some_
    | cons ep rest =>
        unfold destinations
        rw [List.map_cons, List.destutter_cons', destutter'_eq_cons]
        exact List.cons_ne_nil _ _
  unfold getRsPathV3
  rw [listDpaths_eq [] (Nat.zero_le _), if_neg present, changes, Nat.sub_zero]
  dsimp only
  rw [if_neg nonempty, joinDpaths_front]

/-- Defined destinations are not replaced by the backup path. -/
theorem map_defaultDpath {dpaths : List CString} (defined : ∀ dpath ∈ dpaths, dpath ≠ []) :
    dpaths.map (defaultDpath backupPath) = dpaths := by
  have same (dpath : CString) (listed : dpath ∈ dpaths) :
      defaultDpath backupPath dpath = id dpath := if_pos (by simp [isDefined, defined dpath listed])
  rw [List.map_congr_left same, List.map_id]

theorem destinations_ne_nil
    (defined : ∀ ep ∈ nlist, ∃ dpath, ep.nm3Dpath = some dpath ∧ dpath ≠ []) :
    ∀ dpath ∈ destinations nlist, dpath ≠ [] := by
  intro dpath listed
  obtain ⟨ep, entry, rfl⟩ := List.mem_map.mp ((List.destutter_sublist _ _).subset listed)
  obtain ⟨dpath, isSome, nonempty⟩ := defined ep entry
  rw [isSome]
  exact nonempty

/-- There is room for all destinations exactly when their text fits: the array is longer than
the text. -/
theorem room_iff {dpaths : List CString} (defined : ∀ dpath ∈ dpaths, dpath ≠ []) :
    dpaths.take (multipleDestDirs - 1) = dpaths ∧
        (destSeparator.intercalate (dpaths.take (multipleDestDirs - 1))).take 255 =
          destSeparator.intercalate dpaths ↔
      (destSeparator.intercalate dpaths).length < 256 := by
  constructor
  · rintro ⟨all, path⟩
    rw [all] at path
    exact Nat.lt_succ_iff.mpr (List.take_eq_self_iff _ |>.mp path)
  · intro short
    have text := length_le_length_intercalate destSeparator defined
    have separator : destSeparator.length = 2 := rfl
    rw [separator] at text
    have all : dpaths.take (multipleDestDirs - 1) = dpaths := by
      apply List.take_of_length_le
      change dpaths.length ≤ 127
      omega
    rw [all]
    exact ⟨rfl, List.take_of_length_le (Nat.lt_succ_iff.mp short)⟩

/-- What the daemon makes of a name list with defined destinations. -/
theorem ndmpRestoreGetParamsV3_some (path : BackupParams.getBkPathV3 env = some backupPath)
    (some_ : nlist ≠ [])
    (defined : ∀ ep ∈ nlist, ∃ dpath, ep.nm3Dpath = some dpath ∧ dpath ≠ []) :
    ndmpRestoreGetParamsV3 v4 env buf nlist = some {
      rv := some .noErr
      rsPath := some {
        rv := some .noErr
        nmDpathList := (destinations nlist).take (multipleDestDirs - 1)
        restorePath := (destSeparator.intercalate
          ((destinations nlist).take (multipleDestDirs - 1))).take 255 }
      nlist := fixNlistV3 v4 backupPath buf (nlist.map entryPaths) } := by
  have nonempty (dpath : CString)
    (listed : dpath ∈ (destinations nlist).take (multipleDestDirs - 1)) :
    dpath ≠ [] := destinations_ne_nil defined dpath (List.mem_of_mem_take listed)
  unfold ndmpRestoreGetParamsV3
  rw [path]
  dsimp only
  rw [if_neg some_, getRsPathV3_some some_ defined, map_defaultDpath nonempty]

/-- A saved name list is processed as it should exactly when the environment names a path,
every destination is defined and their text fits. -/
theorem processed_of_saved (some_ : nlist ≠ [])
    (saved : ∀ ep ∈ nlist, ∀ dpath, ep.nm3Dpath = some dpath → dpath ≠ []) :
    Processed v4 env buf nlist ↔ (BackupParams.getBkPathV3 env).isSome ∧
      (∀ ep ∈ nlist, ep.nm3Dpath ≠ none) ∧
        (destSeparator.intercalate (destinations nlist)).length < 256 := by
  cases path : BackupParams.getBkPathV3 env with
  | none =>
      have crash : ndmpRestoreGetParamsV3 v4 env buf nlist = none := by
        simp [ndmpRestoreGetParamsV3, path]
      refine iff_of_false (fun processed => ?_) (by simp)
      have safe := processed.safe
      rw [crash] at safe
      cases safe
  | some backupPath =>
      by_cases undefined : none ∈ nlist.map MemNdmpNameV3.nm3Dpath
      · have crash : ndmpRestoreGetParamsV3 v4 env buf nlist = none := by
          simp [ndmpRestoreGetParamsV3, path, some_, getRsPathV3_none undefined]
        refine iff_of_false (fun processed => ?_) ?_
        · have safe := processed.safe
          rw [crash] at safe
          cases safe
        · rintro ⟨_, defined, _⟩
          obtain ⟨ep, listed, absent⟩ := List.mem_map.mp undefined
          exact defined ep listed absent
      · have present (ep : MemNdmpNameV3) (listed : ep ∈ nlist) : ep.nm3Dpath ≠ none :=
          fun absent => undefined (List.mem_map.mpr ⟨ep, listed, absent⟩)
        have defined (ep : MemNdmpNameV3) (listed : ep ∈ nlist) :
            ∃ dpath, ep.nm3Dpath = some dpath ∧ dpath ≠ [] := by
          obtain ⟨dpath, isSome⟩ := Option.ne_none_iff_exists'.mp (present ep listed)
          exact ⟨dpath, isSome, saved ep listed dpath isSome⟩
        have nonempty := destinations_ne_nil defined
        have made := @ndmpRestoreGetParamsV3_some v4 env buf backupPath nlist path some_ defined
        rw [← room_iff nonempty]
        constructor
        · intro processed
          have listed := processed.listed _ made _ rfl
          have text := processed.path _ made _ rfl _ path
          rw [map_defaultDpath nonempty] at text
          exact ⟨rfl, present, listed, text⟩
        · rintro ⟨_, _, listed, text⟩
          refine ⟨by rw [made]; rfl, ?_, ?_, ?_⟩
          · intro params other
            rw [made, Option.mem_some_iff] at other
            rw [← other]
            rfl
          · intro params other rsPath isPath
            rw [made, Option.mem_some_iff] at other
            rw [← other, Option.mem_some_iff] at isPath
            rw [← isPath]
            exact listed
          · intro params other rsPath isPath otherPath samePath
            rw [made, Option.mem_some_iff] at other
            rw [← other, Option.mem_some_iff] at isPath
            rw [← isPath, map_defaultDpath nonempty]
            exact text

/-- An accepted name list is processed as it should exactly when the environment names a path,
no destination directory is empty, and the text of the destinations that differ from the one
before is shorter than 256 bytes. -/
theorem processed_iff (session : DataServer) (nlist : List NameV3) (memory : Allocations)
    (env : List Pval) (buf : CString)
    (accepted : (session.ndmpdSaveNlistV3 nlist memory).2 = .noErr) :
    Processed (session.nsProtocolVersion = 4) env buf
        (session.ndmpdSaveNlistV3 nlist memory).1.ddNlistV3 ↔
      (BackupParams.getBkPathV3 env).isSome ∧
        (∀ source ∈ nlist, source.destinationDir ≠ []) ∧
          (destSeparator.intercalate
            ((nlist.map NameV3.destinationDir).destutter (· ≠ ·))).length < 256 := by
  obtain ⟨some_, dpaths⟩ := ndmpdSaveNlistV3_accepted accepted
  generalize (session.ndmpdSaveNlistV3 nlist memory).1.ddNlistV3 = names at dpaths ⊢
  have nonempty : names ≠ [] := by
    rintro rfl
    exact some_ (List.map_eq_nil_iff.mp dpaths.symm)
  have saved (ep : MemNdmpNameV3) (listed : ep ∈ names) (dpath : CString)
      (isSome : ep.nm3Dpath = some dpath) : dpath ≠ [] := by
    have member : some dpath ∈ names.map MemNdmpNameV3.nm3Dpath :=
      List.mem_map.mpr ⟨ep, listed, isSome⟩
    rw [dpaths] at member
    obtain ⟨source, _, own⟩ := List.mem_map.mp member
    split at own
    · cases own
    · next defined =>
        cases own
        exact defined
  have defined : (∀ ep ∈ names, ep.nm3Dpath ≠ none) ↔
      ∀ source ∈ nlist, source.destinationDir ≠ [] := by
    have absent : none ∈ names.map MemNdmpNameV3.nm3Dpath ↔ none ∈ nlist.map fun source =>
        if source.destinationDir = [] then none else some source.destinationDir := by rw [dpaths]
    have same := not_congr absent
    simpa [List.mem_map] using same
  have lists : destinations names =
      (nlist.map NameV3.destinationDir).destutter (· ≠ ·) := by
    unfold destinations
    have each : names.map (fun ep => ep.nm3Dpath.getD []) =
        (names.map MemNdmpNameV3.nm3Dpath).map fun dpath => dpath.getD [] := by
      rw [List.map_map]
      rfl
    rw [each, dpaths, List.map_map]
    congr 1
    apply List.map_congr_left
    intro source _
    rw [Function.comp_apply]
    split
    · next empty => exact empty.symm
    · rfl
  rw [processed_of_saved nonempty saved, defined, lists]

/-- A V4 request to restore `/v/a` to `/r` and `/v/b` to `/s`. -/
def toTwoDirectories : List NameV3 :=
  [⟨[97], [slash, 114], [], 0, 0⟩, ⟨[98], [slash, 115], [], 0, 0⟩]

theorem processed_toTwoDirectories :
    Processed true [⟨BackupParams.prefixName, [slash, 118]⟩] []
      ((DataServer.initial 5 4).ndmpdSaveNlistV3 toTwoDirectories ⟨true, 2⟩).1.ddNlistV3 :=
  (processed_iff (DataServer.initial 5 4) toTwoDirectories ⟨true, 2⟩ _ [] rfl).mpr
    ⟨rfl, by simp [toTwoDirectories], by decide⟩

/-- A V3 request to restore `/v/a` to where it was crashes the daemon. -/
theorem noDirectory_crash :
    ((DataServer.initial 5 3).ndmpdSaveNlistV3 [⟨[97], [], [], 0, 0⟩] ⟨true, 1⟩).2 = .noErr ∧
      ¬Processed false [⟨BackupParams.prefixName, [slash, 118]⟩] []
        ((DataServer.initial 5 3).ndmpdSaveNlistV3 [⟨[97], [], [], 0, 0⟩]
          ⟨true, 1⟩).1.ddNlistV3 := by
  refine ⟨rfl, fun processed => ?_⟩
  have safe := processed.safe
  cases safe

end Ndmpd
