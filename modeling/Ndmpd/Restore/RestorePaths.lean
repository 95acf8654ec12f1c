import Mathlib.Data.List.TakeWhile
import Ndmpd.Foundation.Separated
import Ndmpd.Tlm.PathNames

/-!
# Restore paths

`mkrsp` makes the path that an entry is restored to: it skips what the name of the entry
and the selection have in common and puts the rest of the name behind the destination. A
name gets a path exactly when the components of the selection are its first ones
(`mkrspRest_eq`), and when `tlm_cat_path` takes the result, which it measures with a
slash between its parts whether it puts one there or not (`mkrsp_eq`).
-/

namespace Ndmpd

open Foundation

/-- `COMPBNDRY`: the end of a name, or a slash. -/
def compbndry (path : CString) : Bool := path = [] ∨ path.head? = some slash

theorem compbndry_iff (path : CString) : compbndry path = true ↔ AtBoundary slash path :=
  decide_eq_true_iff

/-- The loop of `mkrsp`. `before` is the byte in front of the path. -/
def skipMatch (before : UInt8) : CString → CString → UInt8 × CString × CString
  | byte :: pp, other :: sp =>
      if other = byte then skipMatch byte pp sp else (before, byte :: pp, other :: sp)
  | pp, sp => (before, pp, sp)

/-- What `mkrsp` puts behind the destination. `front` is the byte in front of the path in
memory. -/
def mkrspRest (front : UInt8) (path : CString) (selection : Option CString) : Option CString :=
  let before := (path.takeWhile (· = slash)).getLast?.getD front
  let pp := path.dropWhile (· = slash)
  match selection with
  | none => some pp
  | some selection =>
      let (before, pp, sp) := skipMatch before pp (selection.dropWhile (· = slash))
      if (¬ compbndry pp ∨ ¬ compbndry sp) ∧ (sp ≠ [] ∨ before ≠ slash) then none
      else if pp = [] ∧ sp ≠ [] ∧ sp.dropWhile (· = slash) ≠ [] then none
      else some pp

/-- `mkrsp`. -/
def mkrsp (front : UInt8) (path : CString) (selection np : Option CString) : Option CString :=
  (mkrspRest front path selection).bind fun pp => tlmCatPath (np.getD [slash]) pp

/-! ## Skipping -/

theorem getLast?_getD_cons (byte before : UInt8) (common : CString) :
    (byte :: common).getLast?.getD before = common.getLast?.getD byte := by
  cases common with
  | nil => rfl
  | cons next common =>
      rw [List.getLast?_cons_cons, List.getLast?_eq_some_getLast (List.cons_ne_nil next common)]
      rfl

theorem skipMatch_append (before : UInt8) (sp rest : CString) :
    skipMatch before (sp ++ rest) sp = (sp.getLast?.getD before, rest, []) := by
  induction sp generalizing before with
  | nil =>
      cases rest with
      | nil => rfl
      | cons byte rest => rfl
  | cons byte sp ih =>
      rw [List.cons_append, skipMatch, if_pos rfl, ih, getLast?_getD_cons]

/-- Skipping ends where one of the names ends or where they differ. -/
theorem skipMatch_spec (before : UInt8) (path selection : CString) :
    ∃ common pp sp, path = common ++ pp ∧ selection = common ++ sp ∧
      skipMatch before path selection = (common.getLast?.getD before, pp, sp) ∧
      (pp = [] ∨ sp = [] ∨ pp.head? ≠ sp.head?) := by
  induction selection generalizing before path with
  | nil => exact ⟨[], path, [], rfl, rfl, skipMatch_append before [] path, .inr (.inl rfl)⟩
  | cons other selection ih =>
      cases path with
      | nil => exact ⟨[], [], other :: selection, rfl, rfl, rfl, .inl rfl⟩
      | cons byte path =>
          by_cases same : other = byte
          · subst same
            obtain ⟨common, pp, sp, rfl, rfl, skipped, ended⟩ := ih other path
            refine ⟨other :: common, pp, sp, rfl, rfl, ?_, ended⟩
            rw [skipMatch, if_pos rfl, skipped, getLast?_getD_cons]
          · refine ⟨[], byte :: path, other :: selection, rfl, rfl, ?_, .inr (.inr ?_)⟩
            · rw [skipMatch, if_neg same]
              rfl
            · intro heads
              exact same (Option.some.inj heads).symm

/-! ## Components -/

/-- The components of a path, without the slashes in front of it. -/
def components (path : CString) : List CString :=
  let bare := path.dropWhile (· = slash)
  if bare = [] then [] else bare.splitOn slash

/-- The components, each behind a slash. -/
def slashed (names : List CString) : CString := names.flatMap (slash :: ·)

/-- A selection that is something without its leading slashes and has no slash at its
end. -/
structure Selectable (selection : CString) : Prop where
  nonempty : selection.dropWhile (· = slash) ≠ []
  unslashed : (selection.dropWhile (· = slash)).getLast? ≠ some slash

theorem components_prefix_iff {path selection : CString} (selectable : Selectable selection) :
    components selection <+: components path ↔
      ∃ rest, path.dropWhile (· = slash) = selection.dropWhile (· = slash) ++ rest ∧
        AtBoundary slash rest := by
  unfold components
  dsimp only
  rw [if_neg selectable.nonempty]
  by_cases empty : path.dropWhile (· = slash) = []
  · rw [if_pos empty, empty]
    constructor
    · intro front
      exact absurd (List.prefix_nil.mp front) (List.splitOn_ne_nil _ _)
    · rintro ⟨rest, joined, -⟩
      exact absurd (List.append_eq_nil_iff.mp joined.symm).1 selectable.nonempty
  · rw [if_neg empty]
    exact splitOn_prefix_iff

theorem slashed_components_drop {path selection rest : CString} (selectable : Selectable selection)
    (joined : path.dropWhile (· = slash) = selection.dropWhile (· = slash) ++ rest)
    (boundary : AtBoundary slash rest) :
    slashed ((components path).drop (components selection).length) = rest := by
  have nonempty : path.dropWhile (· = slash) ≠ [] := by
    rw [joined]
    exact List.append_ne_nil_of_left_ne_nil selectable.nonempty rest
  unfold slashed components
  dsimp only
  rw [if_neg nonempty, if_neg selectable.nonempty, joined]
  exact flatMap_drop_splitOn boundary

/-- What is left of a selection ends with something that is no slash. -/
theorem Selectable.rest_nonempty {selection common sp : CString} (selectable : Selectable selection)
    (split : selection.dropWhile (· = slash) = common ++ sp) (more : sp ≠ []) :
    sp.dropWhile (· = slash) ≠ [] := by
  intro slashes
  apply selectable.unslashed
  have last := List.getLast?_eq_some_getLast more
  have isSlash := List.dropWhile_eq_nil_iff.mp slashes _ (List.getLast_mem more)
  rw [of_decide_eq_true isSlash] at last
  rw [split, List.getLast?_append_of_ne_nil _ more]
  exact last

/-- `mkrsp` takes a path exactly when the components of the selection are the first ones
of the path, and then it goes on with the others. -/
theorem mkrspRest_eq (front : UInt8) {path selection : CString}
    (selectable : Selectable selection) :
    mkrspRest front path (some selection) =
      if components selection <+: components path then
        some (slashed ((components path).drop (components selection).length))
      else none := by
  unfold mkrspRest
  dsimp only
  by_cases selected : components selection <+: components path
  · obtain ⟨rest, joined, boundary⟩ := (components_prefix_iff selectable).mp selected
    have bounded : compbndry rest = true := (compbndry_iff rest).mpr boundary
    rw [if_pos selected, slashed_components_drop selectable joined boundary, joined,
      skipMatch_append]
    dsimp only
    rw [bounded, if_neg, if_neg]
    · rintro ⟨-, more, -⟩
      exact more rfl
    · rintro ⟨open_ | open_, -⟩
      · exact open_ rfl
      · exact open_ rfl
  · rw [if_neg selected]
    obtain ⟨common, pp, sp, path_, selection_, skipped, ended⟩ := skipMatch_spec
      ((path.takeWhile (· = slash)).getLast?.getD front) (path.dropWhile (· = slash))
      (selection.dropWhile (· = slash))
    rw [skipped]
    dsimp only
    by_cases whole : sp = []
    · -- the whole selection was skipped, but the path goes on inside a component
      rw [whole, List.append_nil] at selection_
      have inside : ¬ compbndry pp = true := by
        rw [compbndry_iff]
        intro boundary
        exact selected ((components_prefix_iff selectable).mpr
          ⟨pp, by rw [selection_]; exact path_, boundary⟩)
      have last : common.getLast?.getD ((path.takeWhile (· = slash)).getLast?.getD front) ≠
          slash := by
        have nonempty := selectable.nonempty
        have unslashed := selectable.unslashed
        rw [selection_] at nonempty unslashed
        obtain ⟨byte, isLast⟩ : ∃ byte, common.getLast? = some byte :=
          ⟨_, List.getLast?_eq_some_getLast nonempty⟩
        rw [isLast] at unslashed ⊢
        exact fun isSlash => unslashed (congrArg some isSlash)
      rw [if_pos ⟨.inl inside, .inr last⟩]
    · by_cases inside : ¬ compbndry pp = true ∨ ¬ compbndry sp = true
      · rw [if_pos ⟨inside, .inl whole⟩]
      · -- both are at the end of a component, and only the path has ended
        rw [if_neg (fun both => inside both.1)]
        rw [not_or, not_not, not_not, compbndry_iff, compbndry_iff] at inside
        obtain ⟨ppBoundary, spBoundary⟩ := inside
        have spHead : sp.head? = some slash := spBoundary.resolve_left whole
        have spent : pp = [] := by
          rcases ppBoundary with spent | ppHead
          · exact spent
          · rcases ended with spent | spent | differ
            · exact spent
            · exact absurd spent whole
            · exact absurd (ppHead.trans spHead.symm) differ
        rw [if_pos ⟨spent, whole, selectable.rest_nonempty selection_ whole⟩]

/-! ## Joining -/

/-- Components behind a destination. -/
def joined (np : CString) (names : List CString) : CString :=
  np ++ if np.getLast? = some slash then (slashed names).dropWhile (· = slash) else slashed names

theorem tlmCatPath_slashed (np : CString) (names : List CString) :
    tlmCatPath np (slashed names) =
      if np.length + (slashed names).length + 1 < pathMax then some (joined np names)
      else none := by
  by_cases short : np.length + (slashed names).length + 1 < pathMax
  · rw [if_pos short]
    unfold tlmCatPath joined
    rw [if_neg (Nat.not_le_of_lt short)]
    cases names with
    | nil =>
        have empty : slashed [] = [] := rfl
        rw [if_pos (.inr (.inl empty)), if_neg (fun both => by cases both.2), empty,
          List.dropWhile_nil, ite_self]
    | cons name names =>
        have head : (slashed (name :: names)).head? = some slash := rfl
        rw [if_pos (.inr (.inr (.inr head)))]
        by_cases ended : np.getLast? = some slash
        · rw [if_pos ended, if_pos ⟨ended, head⟩]
        · rw [if_neg ended, if_neg (fun both => ended both.1)]
  · rw [if_neg short]
    unfold tlmCatPath
    rw [if_pos (Nat.le_of_not_lt short)]

/-- `mkrsp` returns NULL unless the components of the selection are the first ones of the
path and the lengths of the destination and of the rest, and one more, are below
`PATH_MAX`. Otherwise it returns the rest of the components behind the destination. -/
theorem mkrsp_eq (front : UInt8) {path selection : CString} (selectable : Selectable selection)
    (np : Option CString) :
    mkrsp front path (some selection) np =
      if components selection <+: components path ∧
          (np.getD [slash]).length +
              (slashed ((components path).drop (components selection).length)).length + 1 <
            pathMax then
        some (joined (np.getD [slash]) ((components path).drop (components selection).length))
      else none := by
  unfold mkrsp
  rw [mkrspRest_eq front selectable]
  by_cases selected : components selection <+: components path
  · rw [if_pos selected, Option.bind_some, tlmCatPath_slashed]
    by_cases short : (np.getD [slash]).length +
        (slashed ((components path).drop (components selection).length)).length + 1 < pathMax
    · rw [if_pos short, if_pos ⟨selected, short⟩]
    · rw [if_neg short, if_neg (fun both => short both.2)]
  · rw [if_neg selected, if_neg (fun both => selected both.1), Option.bind_none]

theorem mkrsp_eq_subdirectory :
    mkrsp 0 [slash, 97, slash, 98] (some [slash, 97]) (some [slash, 100]) =
      some [slash, 100, slash, 98] := by
  rw [mkrsp_eq 0 ⟨by decide, by decide⟩]
  decide

/-- A destination with a slash at its end is measured with a second one: a path of 1022
bytes is refused. -/
theorem mkrsp_refused :
    ∃ path selection np, path.head? = some slash ∧ Selectable selection ∧
      ¬ [slash, slash] <:+: selection.dropWhile (· = slash) ∧
      components selection <+: components path ∧
      (joined np ((components path).drop (components selection).length)).length = 1022 ∧
      1022 + 1 < pathMax ∧ mkrsp 0 path (some selection) (some np) = none := by
  refine ⟨[slash, 97, slash, 98], [slash, 97], slash :: List.replicate 1019 120 ++ [slash], rfl,
    ⟨by decide, by decide⟩, by decide, by decide, ?_, by decide, ?_⟩
  · decide +kernel
  · decide +kernel

end Ndmpd
