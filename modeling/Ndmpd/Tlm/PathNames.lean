import Ndmpd.Tlm.TarHeader

/-!
# Path names

Path names are C strings of fewer than `PATH_MAX` bytes. `tlm_is_too_long` and
`tlm_cat_path` count differently: the first takes a directory with an empty name for
one byte shorter.
-/

namespace Ndmpd

/-- A C string without its NUL. -/
abbrev CString : Type := List UInt8

/-- The byte of a slash. -/
abbrev slash : UInt8 := 47

/-- `tlm_is_too_long`. -/
def tlmIsTooLong (dir name : CString) : Bool :=
  decide (pathMax ≤ dir.length + if name = [] then 0 else name.length + 1)

/-- `tlm_cat_path`: join a directory and a name with a slash where one is needed. -/
def tlmCatPath (dir name : CString) : Option CString :=
  if pathMax ≤ dir.length + name.length + 1 then none
  else if dir = [] ∨ name = [] ∨ dir.getLast? = some slash ∨ name.head? = some slash then
    if dir.getLast? = some slash ∧ name.head? = some slash then
      some (dir ++ name.dropWhile (· = slash))
    else some (dir ++ name)
  else some (dir ++ slash :: name)

/-- What `tlm_is_too_long` accepts can be joined, unless the name is empty. -/
theorem tlmCatPath_isSome {dir name : CString} (short : tlmIsTooLong dir name = false)
    (nonempty : name ≠ []) : (tlmCatPath dir name).isSome := by
  unfold tlmIsTooLong at short
  rw [if_neg nonempty, decide_eq_false_iff_not] at short
  unfold tlmCatPath
  rw [if_neg (by omega)]
  split
  · split
    · rfl
    · rfl
  · rfl

theorem tlmCatPath_length {dir name path : CString} (joined : tlmCatPath dir name = some path) :
    path.length < pathMax := by
  have skipped := (name.dropWhile_suffix (· = slash)).length_le
  unfold tlmCatPath at joined
  split at joined
  · cases joined
  · split at joined
    · split at joined
      · cases joined
        rw [List.length_append]
        omega
      · cases joined
        rw [List.length_append]
        omega
    · cases joined
      rw [List.length_append, List.length_cons]
      omega

theorem tlmCatPath_nulFree {dir name path : CString} (dirFree : Foundation.NulFree dir)
    (nameFree : Foundation.NulFree name) (joined : tlmCatPath dir name = some path) :
    Foundation.NulFree path := by
  have skipped : Foundation.NulFree (name.dropWhile (· = slash)) :=
    fun listed => nameFree ((name.dropWhile_suffix _).subset listed)
  unfold tlmCatPath at joined
  intro listed
  split at joined
  · cases joined
  · split at joined
    · split at joined
      · cases joined
        rcases List.mem_append.mp listed with inDir | inName
        · exact dirFree inDir
        · exact skipped inName
      · cases joined
        rcases List.mem_append.mp listed with inDir | inName
        · exact dirFree inDir
        · exact nameFree inName
    · cases joined
      rcases List.mem_append.mp listed with inDir | inName
      · exact dirFree inDir
      · rcases List.mem_cons.mp inName with isSlash | inName
        · exact absurd isSlash (by decide)
        · exact nameFree inName

end Ndmpd
