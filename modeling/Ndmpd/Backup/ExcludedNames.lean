import Ndmpd.Backup.Traversal
import Ndmpd.Session.DataServer

/-!
# Excluded names

`get_exc_env_v3` counts the variables `EMC_EFILE01` to `EMC_EFILE99` and `EMC_EDIR01` to
`EMC_EDIR99`, and then fills the list that `tlm_is_excluded` reads. The second loop looks up
the `EMC_EFILE` variables only and takes the value of each for both kinds of pattern
(`nlpExl_eq`), so that the values of `EMC_EDIR` are ignored. The list is the client's under a
condition on what the two kinds match (`excludesExactly_iff`).
-/

namespace Ndmpd

/-- `MOD_GETENV`. -/
def getEnv (env : List Pval) (name : CString) : Option CString :=
  (env.find? fun envp => envp.name = name).map Pval.value

/-- The two digits of an index below 100. -/
def twoDigits (idx : Nat) : CString := [48 + (idx / 10).toUInt8, 48 + (idx % 10).toUInt8]

/-- The variable `EMC_EFILE%02d`. -/
def emcEfile (idx : Nat) : CString := [69, 77, 67, 95, 69, 70, 73, 76, 69] ++ twoDigits idx

/-- The variable `EMC_EDIR%02d`. -/
def emcEdir (idx : Nat) : CString := [69, 77, 67, 95, 69, 68, 73, 82] ++ twoDigits idx

/-- What `get_exc_env_v3` leaves: the slots of `nlp_exl`, the strings stored there in front
of the final `NULL`, and whether one of them was too long for `tmpenv`. -/
structure ExcludeList where
  slots : Nat
  nlpExl : List CString
  overrun : Bool
  deriving DecidableEq, Repr

section Loops

variable (env : List Pval)

/-- The first loop of `get_exc_env_v3`. -/
def countExcludes : List Nat → Nat
  | [] => 0
  | idx :: rest =>
      (if (getEnv env (emcEfile idx)).isSome then 1 else 0) +
        (if (getEnv env (emcEdir idx)).isSome then 1 else 0) + countExcludes rest

/-- The second loop. `envp` is not looked up again for the directory. -/
def storeExcludes : List Nat → List CString
  | [] => []
  | idx :: rest =>
      match getEnv env (emcEfile idx) with
      | some envp => (102 :: 95 :: envp) :: (100 :: 95 :: envp) :: storeExcludes rest
      | none => storeExcludes rest

/-- `get_exc_env_v3`, when memory can be allocated. -/
def getExcEnvV3 : ExcludeList :=
  let nlpExl := storeExcludes env (List.range' 1 99)
  { slots := countExcludes env (List.range' 1 99) + 1
    nlpExl := nlpExl
    -- `char tmpenv[1024]`, with the NUL
    overrun := nlpExl.any fun tmpenv => 1024 ≤ tmpenv.length }

/-! ## What the client asks for -/

/-- The values of the variables of one kind that are defined. -/
def emcValues (kind : Nat → CString) : List CString :=
  (List.range' 1 99).filterMap fun idx => getEnv env (kind idx)

/-- A string matches the value of a variable of one kind. -/
def MatchesSome (kind : Nat → CString) (str : CString) : Prop :=
  ∃ idx, 1 ≤ idx ∧ idx ≤ 99 ∧ ∃ patn, getEnv env (kind idx) = some patn ∧ globMatch patn str

/-- Nothing is written behind `tmpenv` or the list, and the list excludes what the client
asks for. -/
structure ExcludesExactly : Prop where
  inside : (getExcEnvV3 env).overrun = false
  slots : (getExcEnvV3 env).nlpExl.length + 1 ≤ (getExcEnvV3 env).slots
  excludes : ∀ dir name : CString, 0 ∉ dir → 0 ∉ name →
    (tlmIsExcluded dir name (getExcEnvV3 env).nlpExl ↔
      MatchesSome env emcEfile name ∨ MatchesSome env emcEdir dir)

end Loops

variable {env : List Pval}

theorem matchesSome_iff {kind : Nat → CString} {str : CString} :
    MatchesSome env kind str ↔ ∃ patn ∈ emcValues env kind, globMatch patn str := by
  simp only [emcValues, List.mem_filterMap, List.mem_range'_1]
  constructor
  · rintro ⟨idx, least, most, patn, value, matched⟩
    exact ⟨patn, ⟨idx, ⟨least, by omega⟩, value⟩, matched⟩
  · rintro ⟨patn, ⟨idx, ⟨least, most⟩, value⟩, matched⟩
    exact ⟨idx, least, by omega, patn, value, matched⟩

theorem countExcludes_eq (indices : List Nat) :
    countExcludes env indices =
      (indices.filterMap fun idx => getEnv env (emcEfile idx)).length +
        (indices.filterMap fun idx => getEnv env (emcEdir idx)).length := by
  induction indices with
  | nil => rfl
  | cons idx rest ih =>
      rw [countExcludes, ih, List.filterMap_cons, List.filterMap_cons]
      cases getEnv env (emcEfile idx) <;> cases getEnv env (emcEdir idx) <;>
        simp <;> omega

/-- Each value of `EMC_EFILE` is stored twice, for names and for directories. -/
theorem storeExcludes_eq (indices : List Nat) :
    storeExcludes env indices =
      (indices.filterMap fun idx => getEnv env (emcEfile idx)).flatMap fun envp =>
        [102 :: 95 :: envp, 100 :: 95 :: envp] := by
  induction indices with
  | nil => rfl
  | cons idx rest ih =>
      rw [storeExcludes, List.filterMap_cons]
      cases getEnv env (emcEfile idx) with
      | none => exact ih
      | some envp => exact congrArg ([102 :: 95 :: envp, 100 :: 95 :: envp] ++ ·) ih

theorem nlpExl_eq : (getExcEnvV3 env).nlpExl =
    (emcValues env emcEfile).flatMap fun envp => [102 :: 95 :: envp, 100 :: 95 :: envp] :=
  storeExcludes_eq _

theorem overrun_iff : (getExcEnvV3 env).overrun = false ↔
    ∀ envp ∈ emcValues env emcEfile, envp.length ≤ 1021 := by
  have any : (getExcEnvV3 env).overrun =
      (getExcEnvV3 env).nlpExl.any fun tmpenv => 1024 ≤ tmpenv.length := rfl
  rw [any, nlpExl_eq, List.any_eq_false]
  simp only [List.mem_flatMap, List.mem_cons, List.not_mem_nil, or_false, decide_eq_true_eq]
  constructor
  · intro short envp value
    have fits := short _ ⟨envp, value, .inl rfl⟩
    simp only [List.length_cons] at fits
    omega
  · rintro short _ ⟨envp, value, rfl | rfl⟩
    all_goals
      have fits := short envp value
      simp only [List.length_cons]
      omega

theorem slots_iff : (getExcEnvV3 env).nlpExl.length + 1 ≤ (getExcEnvV3 env).slots ↔
    (emcValues env emcEfile).length ≤ (emcValues env emcEdir).length := by
  have slots : (getExcEnvV3 env).slots =
      (emcValues env emcEfile).length + (emcValues env emcEdir).length + 1 :=
    congrArg (· + 1) (countExcludes_eq _)
  have stored : (getExcEnvV3 env).nlpExl.length = 2 * (emcValues env emcEfile).length := by
    rw [nlpExl_eq, List.length_flatMap]
    simp [Nat.mul_comm]
  rw [slots, stored]
  omega

/-- An object is excluded where its name or its directory matches an `EMC_EFILE`. -/
theorem tlmIsExcluded_iff (dir name : CString) :
    tlmIsExcluded dir name (getExcEnvV3 env).nlpExl ↔
      MatchesSome env emcEfile name ∨ MatchesSome env emcEfile dir := by
  rw [matchesSome_iff, matchesSome_iff, nlpExl_eq, tlmIsExcluded, List.any_flatMap,
    List.any_eq_true, ← exists_or]
  apply exists_congr
  intro envp
  rw [← and_or_left]
  apply and_congr_right
  intro value
  simp

/-- `get_exc_env_v3` makes the client's list when no value of an `EMC_EFILE` is longer than
1021 bytes, not more of these variables are defined than of the `EMC_EDIR`, and the values of
the `EMC_EFILE` either match every string or the same strings as the values of the
`EMC_EDIR`. -/
theorem excludesExactly_iff (env : List Pval) :
    ExcludesExactly env ↔
      (∀ envp ∈ emcValues env emcEfile, envp.length ≤ 1021) ∧
        (emcValues env emcEfile).length ≤ (emcValues env emcEdir).length ∧
        ((∀ str : CString, 0 ∉ str → MatchesSome env emcEfile str) ∨
          ∀ str : CString, 0 ∉ str →
            (MatchesSome env emcEfile str ↔ MatchesSome env emcEdir str)) := by
  constructor
  · rintro ⟨inside, slots, excludes⟩
    refine ⟨overrun_iff.mp inside, slots_iff.mp slots, ?_⟩
    by_cases all : ∀ str : CString, 0 ∉ str → MatchesSome env emcEfile str
    · exact .inl all
    · simp only [not_forall] at all
      obtain ⟨name, valid, unmatched⟩ := all
      refine .inr fun dir validDir => ?_
      have decided := excludes dir name validDir valid
      rw [tlmIsExcluded_iff, or_iff_right unmatched, or_iff_right unmatched] at decided
      exact decided
  · rintro ⟨short, counts, kinds⟩
    refine ⟨overrun_iff.mpr short, slots_iff.mpr counts, fun dir name validDir valid => ?_⟩
    rw [tlmIsExcluded_iff]
    rcases kinds with all | same
    · exact iff_of_true (.inl (all name valid)) (.inl (all name valid))
    · exact or_congr_right (same dir validDir)

/-- A directory pattern alone is ignored. -/
example : (getExcEnvV3 [⟨emcEdir 1, [116, 109, 112]⟩]).nlpExl = [] := by decide

/-- A name pattern alone is stored twice, behind the slots. -/
theorem oneFile_overflow : ¬ExcludesExactly [⟨emcEfile 1, [97]⟩] := by
  intro exactly
  have counts := slots_iff.mp exactly.slots
  revert counts
  decide +kernel

end Ndmpd
