import Ndmpd.Restore.NameMaker

/-!
# The paths of each entry

`fix_nlist_v3` joins the paths of all entries in one buffer, and `joinpath` does not say when
two paths were too long to be joined. Such an entry gets what the buffer holds, mostly a path
of another entry. Each entry gets its own paths exactly when they can be joined, or when what
it gets is by chance what it should keep (`normalised_iff`).
-/

namespace Ndmpd

section Entries

variable (v4 : Bool) (backupPath : CString)

/-- An entry without trailing slashes. -/
def choppedName (ep : MemNdmpName) : MemNdmpName :=
  { opath := chopslash ep.opath, dpath := ep.dpath.map chopslash, newnm := ep.newnm.map chopslash }

/-- The destination directory of an entry: its own or the backup path. -/
def ownDir (ep : MemNdmpName) : CString :=
  if isDefined ep.dpath then ep.dpath.getD [] else backupPath

/-- The new name of an entry: its own or, in V3, the last component of its original path. -/
def ownName (ep : MemNdmpName) : CString :=
  if v4 then ep.newnm.getD []
  else if isDefined ep.newnm then ep.newnm.getD [] else lastComponent ep.opath

/-- Two paths joined, unless there is none or the joined path would reach `PATH_MAX`. -/
def joinedPath (pp np : CString) : Option CString :=
  if pp ≠ [] ∧ np ≠ [] then tlmCatPath pp np
  else if pp ++ np = [] ∨ pathMax ≤ (pp ++ np).length then none
  else some (pp ++ np)

/-- What an entry should become. A path that is too long leaves what it was to replace. -/
def normalName (ep : MemNdmpName) : MemNdmpName :=
  let ep := choppedName ep
  match joinedPath (ownDir backupPath ep) (ownName v4 ep) with
  | none => ep
  | some dest =>
      { opath := (joinedPath backupPath ep.opath).getD ep.opath
        dpath := some dest
        newnm := none }

/-- Every entry becomes what it should, whatever the entries before it leave in the
buffer. -/
structure Normalised (buf : CString) (nlist : List MemNdmpName) : Prop where
  own : fixNlistV3 v4 backupPath buf nlist = nlist.map (normalName v4 backupPath)
  alone : ∀ ep ∈ nlist, ∀ left other,
    (fixName v4 backupPath left ep).2 = (fixName v4 backupPath other ep).2

/-- The original path behind the backup path stays below `PATH_MAX`, or is kept: there is no
backup path and it fits in the buffer, or it is the destination that the buffer holds. -/
def OriginalFits (opath dest : CString) : Prop :=
  (joinedPath backupPath opath).isSome ∨ backupPath = [] ∧ opath.length < tlmMaxPathName ∨
    backupPath ≠ [] ∧ opath ≠ [] ∧ dest = opath

/-- A destination without a name that reaches `PATH_MAX` but fits in the buffer, while the
original path does not change. -/
def LongKept (ep : MemNdmpName) : Prop :=
  ∃ dest, ep.dpath = some dest ∧ ep.newnm = none ∧ ownName v4 ep = [] ∧
    pathMax ≤ dest.length ∧ dest.length < tlmMaxPathName ∧
    (backupPath = [] ∧ ep.opath.length < tlmMaxPathName ∨
      backupPath ≠ [] ∧ ep.opath ≠ [] ∧ (tlmCatPath backupPath ep.opath).getD dest = ep.opath)

/-- The paths of an entry without trailing slashes can be joined: it has neither a directory
nor a name, or a destination below `PATH_MAX` and an original path that fits, or it is kept
as it is. -/
def Fits (ep : MemNdmpName) : Prop :=
  match joinedPath (ownDir backupPath ep) (ownName v4 ep) with
  | none => ownDir backupPath ep = [] ∧ ownName v4 ep = [] ∨ LongKept v4 backupPath ep
  | some dest => OriginalFits backupPath ep.opath dest

end Entries

variable {v4 : Bool} {backupPath : CString}

theorem joinpath_both {pp np : CString} (both : pp ≠ [] ∧ np ≠ []) (buf : CString) :
    joinpath buf (some pp) (some np) = some ((tlmCatPath pp np).getD buf) := by
  simp [joinpath, isDefined, both]

theorem joinpath_one {pp np : CString} (one : ¬(pp ≠ [] ∧ np ≠ [])) (buf : CString) :
    joinpath buf (some pp) (some np) =
      if pp ++ np = [] then none else some ((pp ++ np).take (tlmMaxPathName - 1)) := by
  unfold joinpath isDefined
  cases pp with
  | nil => cases np <;> simp
  | cons byte pp =>
      cases np with
      | nil => simp
      | cons other np => exact absurd ⟨List.cons_ne_nil _ _, List.cons_ne_nil _ _⟩ one

theorem joinedPath_both {pp np : CString} (both : pp ≠ [] ∧ np ≠ []) :
    joinedPath pp np = tlmCatPath pp np := if_pos both

theorem joinedPath_one {pp np : CString} (one : ¬(pp ≠ [] ∧ np ≠ [])) :
    joinedPath pp np =
      if pp ++ np = [] ∨ pathMax ≤ (pp ++ np).length then none else some (pp ++ np) := if_neg one

/-- `joinpath` does not tell an absent path from an empty one. -/
theorem joinpath_getD (buf : CString) (pp np : Option CString) :
    joinpath buf pp np = joinpath buf (some (pp.getD [])) (some (np.getD [])) := by
  unfold joinpath isDefined
  cases pp <;> cases np <;> simp

theorem fixName_unfold (buf : CString) (ep : MemNdmpName) :
    fixName v4 backupPath buf ep =
      match joinpath buf
        (if isDefined (choppedName ep).dpath then (choppedName ep).dpath else some backupPath)
        (if v4 then (choppedName ep).newnm
          else if isDefined (choppedName ep).newnm then (choppedName ep).newnm
          else some (lastComponent (choppedName ep).opath)) with
      | none => (buf, choppedName ep)
      | some bp =>
          match joinpath bp (some backupPath) (some (choppedName ep).opath) with
          | none => (bp, { choppedName ep with dpath := some bp, newnm := none })
          | some orig => (orig, { opath := orig, dpath := some bp, newnm := none }) := rfl

theorem fixName_eq (buf : CString) (ep : MemNdmpName) :
    (fixName v4 backupPath buf ep).2 =
      match joinpath buf (some (ownDir backupPath (choppedName ep)))
        (some (ownName v4 (choppedName ep))) with
      | none => choppedName ep
      | some dest =>
          { opath := (joinpath dest (some backupPath) (some (choppedName ep).opath)).getD
              (choppedName ep).opath
            dpath := some dest
            newnm := none } := by
  have dir : (if isDefined (choppedName ep).dpath then (choppedName ep).dpath
      else some backupPath).getD [] = ownDir backupPath (choppedName ep) := by
    unfold ownDir
    split <;> rfl
  have name : (if v4 then (choppedName ep).newnm
      else if isDefined (choppedName ep).newnm then (choppedName ep).newnm
      else some (lastComponent (choppedName ep).opath)).getD [] =
        ownName v4 (choppedName ep) := by
    unfold ownName
    split
    · rfl
    · split <;> rfl
  rw [← dir, ← name, ← joinpath_getD]
  rw [fixName_unfold]
  cases joinpath buf _ _ with
  | none => rfl
  | some dest =>
      dsimp only
      cases joinpath dest (some backupPath) (some (choppedName ep).opath) with
      | none => rfl
      | some orig => rfl

/-- A path fits in the buffer with its NUL. -/
theorem take_eq_self {path : CString} :
    path.take (tlmMaxPathName - 1) = path ↔ path.length < tlmMaxPathName := by
  rw [List.take_eq_self_iff]
  exact Nat.le_sub_one_iff_lt (by simp)

theorem take_of_short {path : CString} (short : path.length < pathMax) :
    path.take (tlmMaxPathName - 1) = path :=
  take_eq_self.mpr (Nat.lt_of_lt_of_le short (Nat.le_add_right _ _))

theorem take_ne_nil {path : CString} (nonempty : path ≠ []) :
    path.take (tlmMaxPathName - 1) ≠ [] := by
  rw [Ne, List.take_eq_nil_iff]
  exact not_or.mpr ⟨by simp, nonempty⟩

/-- What becomes of the original path is what it should, when it fits. -/
theorem originalFits_iff (opath dest : CString) :
    (joinpath dest (some backupPath) (some opath)).getD opath =
        (joinedPath backupPath opath).getD opath ↔ OriginalFits backupPath opath dest := by
  unfold OriginalFits
  by_cases both : backupPath ≠ [] ∧ opath ≠ []
  · rw [joinpath_both both, joinedPath_both both, Option.getD_some]
    cases tlmCatPath backupPath opath with
    | none => simp [both]
    | some path => simp
  · rw [joinpath_one both, joinedPath_one both]
    by_cases nothing : backupPath ++ opath = []
    · obtain ⟨rfl, rfl⟩ := List.append_eq_nil_iff.mp nothing
      simp
    · by_cases short : (backupPath ++ opath).length < pathMax
      · rw [if_neg nothing, if_neg (not_or.mpr ⟨nothing, Nat.not_le.mpr short⟩),
          take_of_short short]
        simp
      · rw [if_neg nothing, if_pos (.inr (Nat.not_lt.mp short)), Option.getD_some, Option.getD_none]
        by_cases empty : backupPath = []
        · subst empty
          rw [List.nil_append, take_eq_self]
          simp
        · have absent : opath = [] := by simpa [empty] using both
          subst absent
          rw [List.append_nil]
          exact iff_of_false (take_ne_nil empty) (by simp [empty])

/-- The original path does not change. -/
theorem originalKept_iff (opath dest : CString) :
    (joinpath dest (some backupPath) (some opath)).getD opath = opath ↔
      backupPath = [] ∧ opath.length < tlmMaxPathName ∨
        backupPath ≠ [] ∧ opath ≠ [] ∧ (tlmCatPath backupPath opath).getD dest = opath := by
  by_cases both : backupPath ≠ [] ∧ opath ≠ []
  · rw [joinpath_both both, Option.getD_some]
    simp [both]
  · rw [joinpath_one both]
    by_cases empty : backupPath = []
    · subst empty
      by_cases nothing : opath = []
      · simp [nothing]
      · rw [List.nil_append, if_neg nothing, Option.getD_some, take_eq_self]
        simp
    · have absent : opath = [] := by simpa [empty] using both
      subst absent
      rw [List.append_nil, if_neg empty, Option.getD_some]
      exact iff_of_false (take_ne_nil empty) (by simp [empty])

theorem ownDir_defined {ep : MemNdmpName} {dest : CString} (dpath : ep.dpath = some dest)
    (nonempty : dest ≠ []) : ownDir backupPath ep = dest := by
  simp [ownDir, isDefined, dpath, nonempty]

/-- A destination that reaches `PATH_MAX` without being joined is kept only where it is the
directory of the entry alone. -/
theorem longKept_iff {ep : MemNdmpName}
    (one : ¬(ownDir backupPath ep ≠ [] ∧ ownName v4 ep ≠ []))
    (long : pathMax ≤ (ownDir backupPath ep ++ ownName v4 ep).length) :
    ({ opath := (joinpath ((ownDir backupPath ep ++ ownName v4 ep).take (tlmMaxPathName - 1))
          (some backupPath) (some ep.opath)).getD ep.opath
       dpath := some ((ownDir backupPath ep ++ ownName v4 ep).take (tlmMaxPathName - 1))
       newnm := none } : MemNdmpName) = ep ↔ LongKept v4 backupPath ep := by
  constructor
  · intro kept
    have opath := congrArg MemNdmpName.opath kept
    have dpath := congrArg MemNdmpName.dpath kept
    have newnm := congrArg MemNdmpName.newnm kept
    dsimp only at opath dpath newnm
    have some_ : ownDir backupPath ep ++ ownName v4 ep ≠ [] := by
      intro nothing
      rw [nothing] at long
      cases long
    have dir : ownDir backupPath ep = _ := ownDir_defined dpath.symm (take_ne_nil some_)
    have name : ownName v4 ep = [] := by
      by_contra named
      exact one ⟨dir ▸ take_ne_nil some_, named⟩
    rw [name, List.append_nil] at long opath dpath dir
    have fits := take_eq_self.mp dir.symm
    rw [← dir] at dpath opath
    exact ⟨_, dpath.symm, newnm.symm, name, long, fits, (originalKept_iff ep.opath _).mp opath⟩
  · rintro ⟨dest, dpath, newnm, name, reaches, fits, kept⟩
    have nonempty : dest ≠ [] := by
      rintro rfl
      cases reaches
    rw [ownDir_defined dpath nonempty, name, List.append_nil, take_eq_self.mpr fits,
      (originalKept_iff ep.opath dest).mpr kept]
    cases ep
    simp_all

/-- An entry becomes what it should whatever the buffer holds, when its paths fit. -/
theorem fixName_iff (ep : MemNdmpName) :
    (∀ left, (fixName v4 backupPath left ep).2 = normalName v4 backupPath ep) ↔
      Fits v4 backupPath (choppedName ep) := by
  unfold Fits normalName
  simp only [fixName_eq]
  by_cases both : ownDir backupPath (choppedName ep) ≠ [] ∧ ownName v4 (choppedName ep) ≠ []
  · rw [joinedPath_both both]
    simp only [joinpath_both both]
    cases tlmCatPath (ownDir backupPath (choppedName ep)) (ownName v4 (choppedName ep)) with
    | none =>
        refine iff_of_false (fun same => ?_) ?_
        · have first := congrArg MemNdmpName.dpath (same [])
          have second := congrArg MemNdmpName.dpath (same [slash])
          have equal := first.trans second.symm
          cases equal
        · rintro (⟨empty, _⟩ | ⟨dest, _, _, empty, _⟩)
          · exact both.1 empty
          · exact both.2 empty
    | some dest =>
        dsimp only [Option.getD_some]
        rw [← originalFits_iff]
        constructor
        · intro same
          exact congrArg MemNdmpName.opath (same [])
        · intro opath left
          rw [opath]
  · rw [joinedPath_one both]
    simp only [joinpath_one both]
    by_cases nothing : ownDir backupPath (choppedName ep) ++ ownName v4 (choppedName ep) = []
    · rw [if_pos nothing, if_pos (.inl nothing)]
      exact iff_of_true (fun left => rfl) (.inl (List.append_eq_nil_iff.mp nothing))
    · by_cases short : (ownDir backupPath (choppedName ep) ++ ownName v4 (choppedName ep)).length <
          pathMax
      · rw [if_neg nothing, if_neg (not_or.mpr ⟨nothing, Nat.not_le.mpr short⟩),
          take_of_short short]
        dsimp only
        rw [← originalFits_iff]
        constructor
        · intro same
          exact congrArg MemNdmpName.opath (same [])
        · intro opath left
          rw [opath]
      · rw [if_neg nothing, if_pos (.inr (Nat.not_lt.mp short))]
        dsimp only
        rw [or_iff_right (fun empty => nothing (List.append_eq_nil_iff.mpr empty)),
          ← longKept_iff both (Nat.not_lt.mp short)]
        exact ⟨fun same => same [], fun same _ => same⟩

/-! ## The list -/

/-- Entries that do not depend on the buffer become what they become alone. -/
theorem fixNlistV3_eq_map {nlist : List MemNdmpName} {spec : MemNdmpName → MemNdmpName}
    (own : ∀ ep ∈ nlist, ∀ left, (fixName v4 backupPath left ep).2 = spec ep) (buf : CString) :
    fixNlistV3 v4 backupPath buf nlist = nlist.map spec := by
  induction nlist generalizing buf with
  | nil => rfl
  | cons ep nlist ih =>
      rw [List.map_cons, ← own ep (List.mem_cons_self ..) buf,
        ← ih (fun other listed => own other (List.mem_cons_of_mem ep listed))
          (fixName v4 backupPath buf ep).1]
      rfl

theorem Normalised.own_of_mem {buf : CString} {nlist : List MemNdmpName}
    (normal : Normalised v4 backupPath buf nlist) {ep : MemNdmpName} (listed : ep ∈ nlist)
    (left : CString) : (fixName v4 backupPath left ep).2 = normalName v4 backupPath ep := by
  obtain ⟨own, alone⟩ := normal
  induction nlist generalizing buf with
  | nil => cases listed
  | cons first nlist ih =>
      have heads := List.cons.inj own
      rcases List.mem_cons.mp listed with rfl | listed
      · rw [alone ep (List.mem_cons_self ..) left buf]
        exact heads.1
      · exact ih listed heads.2 fun other member =>
          alone other (List.mem_cons_of_mem first member)

/-- Every entry becomes what it should exactly when the paths of every entry fit. -/
theorem normalised_iff (v4 : Bool) (backupPath buf : CString) (nlist : List MemNdmpName) :
    Normalised v4 backupPath buf nlist ↔
      ∀ ep ∈ nlist, Fits v4 backupPath (choppedName ep) := by
  constructor
  · intro normal ep listed
    exact (fixName_iff ep).mp (normal.own_of_mem listed)
  · intro fits
    have own (ep : MemNdmpName) (listed : ep ∈ nlist) (left : CString) :
        (fixName v4 backupPath left ep).2 = normalName v4 backupPath ep :=
      (fixName_iff ep).mpr (fits ep listed) left
    exact ⟨fixNlistV3_eq_map own buf, fun ep listed left other =>
      (own ep listed left).trans (own ep listed other).symm⟩

/-- The second entry, with a destination that is too long, gets a path of the first. -/
theorem longDestination_mixed :
    ¬Normalised true [slash, 118] [] [⟨[97], some [slash, 114], none⟩,
      ⟨[98], some [slash, 114], some (List.replicate 1021 97)⟩] := by
  intro normal
  have own := normal.own
  revert own
  decide +kernel

end Ndmpd
