import Ndmpd.Foundation.FirstMatch
import Ndmpd.Tlm.Selection

/-!
# Selections in another order

`is_file_wanted` stops at the first selection that applies in any way, so that a selection
below a directory hides a later one that is the directory. The order does not matter exactly
when the selections that apply to a name apply to it in one way (`orderFree_iff`).
-/

namespace Ndmpd

open Foundation

section Kinds

variable (name : CString) (exls : List CString) (flags : RestoreFlags) (retry : CString)

/-- How a selection applies to the name of an entry. -/
def selectionKind (selection : CString) : MatchType :=
  matchSelection flags (namep name flags) ((tlmCatPath (namep name flags) [slash]).getD retry)
    selection

/-- How a selection applies, if it does. -/
def applies (selection : CString) : Option MatchType :=
  if selectionKind name flags retry selection = .none then none
  else some (selectionKind name flags retry selection)

/-- The name is excluded. -/
def excluded : Bool := exactFind (namep name flags) exls

/-- In every order the answer and the kind of the match are the same, the match is with a
selection of that kind, and it is exact or a child where the name is, or is below, any of the
selections. -/
structure OrderFree (sels : List CString) : Prop where
  same : ∀ order : List CString, order.Perm sels →
    (isFileWanted name order exls flags retry).found =
        (isFileWanted name sels exls flags retry).found ∧
      (isFileWanted name order exls flags retry).mchtype =
        (isFileWanted name sels exls flags retry).mchtype
  position : ∀ order : List CString, order.Perm sels →
    (isFileWanted name order exls flags retry).mchtype ≠ .none →
      ∃ selection, order[(isFileWanted name order exls flags retry).pos]? = some selection ∧
        selectionKind name flags retry selection =
          (isFileWanted name order exls flags retry).mchtype
  strongest : ∀ order : List CString, order.Perm sels → excluded name exls flags = false →
    (∃ selection ∈ sels, (selectionKind name flags retry selection).exactOrChild) →
      (isFileWanted name order exls flags retry).mchtype.exactOrChild

end Kinds

variable {name : CString} {exls : List CString} {flags : RestoreFlags} {retry : CString}

theorem applies_eq_some {selection : CString} {kind : MatchType} :
    applies name flags retry selection = some kind ↔
      selectionKind name flags retry selection = kind ∧ kind ≠ .none := by
  unfold applies
  split
  case isTrue silent =>
    refine iff_of_false (fun found => by cases found) ?_
    rintro ⟨same, apply_⟩
    exact apply_ (same ▸ silent)
  case isFalse speaks =>
    rw [Option.some.injEq]
    constructor
    · rintro rfl
      exact ⟨rfl, speaks⟩
    · intro kinds
      exact kinds.1

/-- The first selection that applies, by kind. -/
theorem findSelection_kind (pos : Nat) (sels : List CString) :
    (findSelection flags (namep name flags)
        ((tlmCatPath (namep name flags) [slash]).getD retry) pos sels).map Prod.fst =
      sels.findSome? (applies name flags retry) := by
  induction sels generalizing pos with
  | nil => rfl
  | cons selection sels ih =>
      have here : matchSelection flags (namep name flags)
          ((tlmCatPath (namep name flags) [slash]).getD retry) selection =
        selectionKind name flags retry selection := rfl
      rw [findSelection, here, List.findSome?_cons, applies]
      cases selectionKind name flags retry selection with
      | none => exact ih (pos + 1)
      | exact => rfl
      | parent => rfl
      | child => rfl

/-- The first selection that applies is at the position that is returned. -/
theorem findSelection_position (pos : Nat) (sels : List CString) {found : MatchType × Nat}
    (first : findSelection flags (namep name flags)
      ((tlmCatPath (namep name flags) [slash]).getD retry) pos sels = some found) :
    pos ≤ found.2 ∧ ∃ selection, sels[found.2 - pos]? = some selection ∧
      selectionKind name flags retry selection = found.1 := by
  induction sels generalizing pos with
  | nil => cases first
  | cons selection sels ih =>
      have here : matchSelection flags (namep name flags)
          ((tlmCatPath (namep name flags) [slash]).getD retry) selection =
        selectionKind name flags retry selection := rfl
      rw [findSelection, here] at first
      split at first
      · obtain ⟨later, other, listed, kind⟩ := ih (pos + 1) first
        refine ⟨by omega, other, ?_, kind⟩
        rw [← listed, show found.2 - pos = found.2 - (pos + 1) + 1 by omega]
        rfl
      · cases first
        exact ⟨le_refl pos, selection, by rw [Nat.sub_self]; rfl, rfl⟩

/-- What comes first is empty: everything is wanted. -/
theorem isFileWanted_of_empty {sels : List CString} (empty : sels.head?.getD [] = []) :
    isFileWanted name sels exls flags retry = ⟨true, .none, 0, retry⟩ := if_pos empty

section Nonempty

variable {sels : List CString}

theorem isFileWanted_found (nonempty : sels.head?.getD [] ≠ []) :
    (isFileWanted name sels exls flags retry).found =
      ((sels.findSome? (applies name flags retry)).isSome && !excluded name exls flags) := by
  rw [← findSelection_kind 0, Option.isSome_map]
  unfold isFileWanted excluded
  rw [if_neg nonempty]
  dsimp only
  split
  case h_1 silent => simp [silent]
  case h_2 first => split <;> simp_all

theorem isFileWanted_mchtype (nonempty : sels.head?.getD [] ≠ []) :
    (isFileWanted name sels exls flags retry).mchtype =
      if excluded name exls flags then .none
      else (sels.findSome? (applies name flags retry)).getD .none := by
  rw [← findSelection_kind 0]
  unfold isFileWanted excluded
  rw [if_neg nonempty]
  dsimp only
  split
  case h_1 silent => simp [silent]
  case h_2 first => split <;> simp_all

theorem isFileWanted_pos (matched : (isFileWanted name sels exls flags retry).mchtype ≠ .none) :
    ∃ selection, sels[(isFileWanted name sels exls flags retry).pos]? = some selection ∧
      selectionKind name flags retry selection =
        (isFileWanted name sels exls flags retry).mchtype := by
  revert matched
  unfold isFileWanted
  split
  · intro matched
    exact absurd rfl matched
  · dsimp only
    split
    · intro matched
      exact absurd rfl matched
    · rename_i first
      split
      · intro matched
        exact absurd rfl matched
      · intro _
        exact (findSelection_position 0 sels first).2

end Nonempty

theorem applies_ne_none {sels : List CString} {kind : MatchType}
    (found : sels.findSome? (applies name flags retry) = some kind) : kind ≠ .none := by
  obtain ⟨selection, _, kinds⟩ := List.exists_of_findSome?_eq_some found
  exact (applies_eq_some.mp kinds).2

theorem head_ne_nil {sels : List CString} (some_ : sels ≠ []) (nonempty : ∀ s ∈ sels, s ≠ []) :
    sels.head?.getD [] ≠ [] := by
  cases sels with
  | nil => exact absurd rfl some_
  | cons first rest => exact nonempty first (List.mem_cons_self ..)

theorem head_eq_nil {sels : List CString} (empty : ∀ s ∈ sels, s = []) :
    sels.head?.getD [] = [] := by
  cases sels with
  | nil => rfl
  | cons first rest => exact empty first (List.mem_cons_self ..)

/-- Where the selections agree, every order finds what the first selection of all finds. -/
theorem orderFree_of_agree {sels : List CString} (nonempty : ∀ s ∈ sels, s ≠ [])
    (decided : excluded name exls flags = true ∨ Agree (applies name flags retry) sels) :
    OrderFree name exls flags retry sels := by
  by_cases nothing : sels = []
  · subst nothing
    refine ⟨fun order perm => ?_, fun order perm => isFileWanted_pos, ?_⟩
    · rw [List.perm_nil.mp perm]
      exact ⟨rfl, rfl⟩
    · rintro order perm _ ⟨selection, listed, _⟩
      cases listed
  have head (order : List CString) (perm : order.Perm sels) : order.head?.getD [] ≠ [] :=
    head_ne_nil (fun empty => nothing (List.perm_nil.mp (empty ▸ perm.symm)))
      (fun s listed => nonempty s (perm.mem_iff.mp listed))
  refine ⟨fun order perm => ?_, fun order perm => isFileWanted_pos, ?_⟩
  · rw [isFileWanted_found (head order perm), isFileWanted_found (head sels (.refl sels)),
      isFileWanted_mchtype (head order perm), isFileWanted_mchtype (head sels (.refl sels))]
    rcases decided with out | agree
    · simp [out]
    · rw [agree.findSome?_eq perm]
      exact ⟨rfl, rfl⟩
  · rintro order perm kept ⟨selection, listed, kind⟩
    have agree : Agree (applies name flags retry) sels := by
      rcases decided with out | agree
      · rw [kept] at out
        cases out
      · exact agree
    have apply_ : applies name flags retry selection =
        some (selectionKind name flags retry selection) := by
      refine applies_eq_some.mpr ⟨rfl, fun silent => ?_⟩
      rw [silent] at kind
      cases kind
    rw [isFileWanted_mchtype (head order perm), kept, agree.findSome?_eq perm,
      findSome?_of_agree agree listed apply_]
    exact kind

/-- The order of selections that are not empty does not matter only where those that apply
agree. -/
theorem OrderFree.agree {sels : List CString} (nonempty : ∀ s ∈ sels, s ≠ [])
    (free : OrderFree name exls flags retry sels) (kept : excluded name exls flags = false) :
    Agree (applies name flags retry) sels := by
  by_cases nothing : sels = []
  · subst nothing
    exact fun selection listed => by cases listed
  rw [← findSome?_perm_iff]
  intro order perm
  have head := head_ne_nil nothing nonempty
  have headOrder : order.head?.getD [] ≠ [] :=
    head_ne_nil (fun empty => nothing (List.perm_nil.mp (empty ▸ perm.symm)))
      (fun s listed => nonempty s (perm.mem_iff.mp listed))
  have kinds := (free.same order perm).2
  rw [isFileWanted_mchtype head, isFileWanted_mchtype headOrder, kept] at kinds
  have same : (order.findSome? (applies name flags retry)).getD .none =
      (sels.findSome? (applies name flags retry)).getD .none := kinds
  cases first : order.findSome? (applies name flags retry) with
  | none =>
      cases other : sels.findSome? (applies name flags retry) with
      | none => rfl
      | some kind =>
          rw [first, other] at same
          exact absurd same.symm (applies_ne_none other)
  | some kind =>
      cases other : sels.findSome? (applies name flags retry) with
      | none =>
          rw [first, other] at same
          exact absurd same (applies_ne_none first)
      | some otherKind =>
          rw [first, other] at same
          exact congrArg some same

/-- An empty selection among others decides by its place. -/
theorem OrderFree.not_mixed {sels : List CString} (free : OrderFree name exls flags retry sels)
    {empty other : CString} (listed : empty ∈ sels) (isEmpty : empty = [])
    (otherListed : other ∈ sels) : other = [] := by
  by_contra nonempty
  obtain ⟨rest, perm⟩ := exists_perm_cons listed
  obtain ⟨others, permOther⟩ := exists_perm_cons otherListed
  have fromEmpty := free.same _ perm
  have wanted : isFileWanted name (empty :: rest) exls flags retry = ⟨true, .none, 0, retry⟩ :=
    isFileWanted_of_empty isEmpty
  rw [wanted] at fromEmpty
  have fromOther := free.same _ permOther
  have head : (other :: others).head?.getD [] ≠ [] := nonempty
  rw [isFileWanted_found head, isFileWanted_mchtype head, ← fromEmpty.1, ← fromEmpty.2] at fromOther
  obtain ⟨found, kept⟩ := Bool.and_eq_true_iff.mp fromOther.1
  obtain ⟨kind, first⟩ := Option.isSome_iff_exists.mp found
  have stays : excluded name exls flags = false := by simpa using kept
  have silent := fromOther.2
  rw [stays, first] at silent
  exact applies_ne_none first silent

end Ndmpd
