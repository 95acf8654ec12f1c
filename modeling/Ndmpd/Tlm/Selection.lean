import Ndmpd.Tlm.PathNames

/-!
# Selecting what to restore

`is_file_wanted` compares the name of an entry with the selections one after the other
and reports how the first one that applies does: as the entry itself, as a directory
above it, or as something below it.
-/

namespace Ndmpd

/-- The `RSFLG_` flags of a restore. -/
structure RestoreFlags where
  ovrAlways : Bool
  ovrUpdate : Bool
  matchWcard : Bool
  ignoreCase : Bool
  deriving DecidableEq, Repr

/-- The kinds of a match, `PM_NONE` to `PM_CHILD`. -/
inductive MatchType where
  | none
  | exact
  | parent
  | child
  deriving DecidableEq, Repr

/-- `PM_EXACT_OR_CHILD`. -/
def MatchType.exactOrChild (mchtype : MatchType) : Bool :=
  mchtype = .exact ∨ mchtype = .child

/-- `match`: a pattern with `?` and `*` against a string. A `*` that is not the last
character of the pattern tries every place in the string but its end. -/
def globMatch : CString → CString → Bool
  | [], str => str = []
  | 63 :: patn, str =>
      match str with
      | [] => false
      | _ :: str => globMatch patn str
  | 42 :: patn, str =>
      patn = [] ∨ str.tails.any fun rest => rest ≠ [] ∧ globMatch patn rest
  | byte :: patn, str =>
      match str with
      | [] => false
      | other :: str => other = byte ∧ globMatch patn str

/-- `strupr` on ASCII letters. -/
def strupr (str : CString) : CString :=
  str.map fun byte => if 97 ≤ byte ∧ byte ≤ 122 then byte - 32 else byte

/-- `is_parent`. -/
def isParent (parent child : CString) (flags : RestoreFlags) : Bool :=
  if flags.matchWcard then
    match tlmCatPath parent [42] with
    | none => false
    | some patn => globMatch patn child
  else
    match tlmCatPath parent [slash] with
    | none => false
    | some front => front.isPrefixOf child

/-- `exact_find`. -/
def exactFind (name : CString) (list : List CString) : Bool :=
  list.any fun entry => globMatch (entry.dropWhile (· = slash)) name

/-- `*cmp_fp`, on a selection and a name. -/
def cmpFp (flags : RestoreFlags) (selection str : CString) : Bool :=
  if flags.matchWcard then globMatch selection str else selection = str

/-- The comparison of one selection with a name, in the order of `is_file_wanted`.
`retry` is the name with a slash behind it. -/
def matchSelection (flags : RestoreFlags) (name retry selection : CString) : MatchType :=
  let selection := selection.dropWhile (· = slash)
  if cmpFp flags selection name then .exact
  else if cmpFp flags selection retry then .exact
  else if isParent selection name flags then .child
  else if isParent name selection flags then .parent
  else .none

/-- The first selection that applies, and its position. -/
def findSelection (flags : RestoreFlags) (name retry : CString) :
    Nat → List CString → Option (MatchType × Nat)
  | _, [] => none
  | pos, selection :: sels =>
      match matchSelection flags name retry selection with
      | .none => findSelection flags name retry (pos + 1) sels
      | mchtype => some (mchtype, pos)

/-- The results of `is_file_wanted`. -/
structure Wanted where
  found : Bool
  mchtype : MatchType
  pos : Nat
  retry : CString
  deriving DecidableEq, Repr

/-- The name that `is_file_wanted` compares, `namep`. -/
def namep (name : CString) (flags : RestoreFlags) : CString :=
  let bare := name.dropWhile (· = slash)
  if flags.ignoreCase then strupr (bare.take (tlmMaxPathName - 1)) else bare

/-- `is_file_wanted`. The static buffer `retry` keeps its old content when the name is
too long for a slash behind it, and when the first selection is the name itself. -/
def isFileWanted (name : CString) (sels exls : List CString) (flags : RestoreFlags)
    (retry : CString) : Wanted :=
  if sels.head?.getD [] = [] then ⟨true, .none, 0, retry⟩
  else
    let first := sels.head?.getD []
    let bare := namep name flags
    let slashed := (tlmCatPath bare [slash]).getD retry
    let retry := if cmpFp flags (first.dropWhile (· = slash)) bare then retry else slashed
    match findSelection flags bare slashed 0 sels with
    | none => ⟨false, .none, 0, retry⟩
    | some (mchtype, pos) =>
        if exactFind bare exls then ⟨false, .none, 0, retry⟩ else ⟨true, mchtype, pos, retry⟩

/-- Without selections everything is wanted. -/
theorem isFileWanted_all (name : CString) (exls : List CString) (flags : RestoreFlags)
    (retry : CString) : isFileWanted name [] exls flags retry = ⟨true, .none, 0, retry⟩ := by
  rfl

end Ndmpd
