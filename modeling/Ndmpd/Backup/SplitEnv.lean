import Mathlib.Algebra.Ring.Parity
import Mathlib.Data.List.DropRight
import Mathlib.Data.List.ReduceOption
import Ndmpd.Dates.Dumpdates
import Ndmpd.Foundation.Separated

/-!
# Splitting an environment variable

`split_env` first counts the separators that do not follow a backslash, and then cuts at
those that are not escaped. A cut behind a backslash that is escaped itself is not counted,
and gets a slot only where an empty component leaves one. A backslash at the end takes the
NUL for its character, and the loop goes on behind it. Otherwise `split_env` returns
`envComponents` (`splitEnv_iff`).
-/

namespace Ndmpd

open Foundation

/-- `isspace` in the C locale. -/
def isspace (byte : UInt8) : Bool := byte = 32 ∨ 9 ≤ byte ∧ byte ≤ 13

/-- The character that is put for one behind a backslash. -/
def unescaped (byte : UInt8) : UInt8 :=
  if byte = 110 then newline else if byte = 116 then tab else byte

/-- What `split_env` does: whether it reads behind the NUL of its copy, the slots that it
has allocated, the components that it stores there, and what it returns. -/
structure SplitEnv where
  overrun : Bool
  slots : Option Nat
  stored : List CString
  cpp : Option (List CString)
  deriving DecidableEq, Repr

section Split

variable (sep : UInt8)

/-- The separators that the first loop of `split_env` counts, behind a character. -/
def countSeparators : Option UInt8 → CString → Nat
  | _, [] => 0
  | before, byte :: rest =>
      (if byte = sep ∧ before.any (· ≠ backslash) then 1 else 0) + countSeparators (some byte) rest

/-- Store a component that is not empty. -/
def storeComponent (cpp : List CString) (bp : CString) : List CString :=
  if bp = [] then cpp else cpp ++ [bp]

/-- The second loop of `split_env`, with the component that has begun, and whether it goes
on behind the NUL. -/
def splitLoop : CString → List CString → CString → List CString × Bool
  | [], cpp, bp => (storeComponent cpp bp, false)
  | byte :: rest, cpp, bp =>
      if byte = sep then splitLoop rest (storeComponent cpp bp) []
      else if byte = backslash then
        match rest with
        -- the NUL is taken for the character behind the backslash
        | [] => (cpp, true)
        | next :: rest => splitLoop rest cpp (bp ++ [unescaped next])
      else splitLoop rest cpp (bp ++ [byte])

/-- `split_env`, when memory can be allocated. -/
def splitEnv (envp : CString) : SplitEnv :=
  let save := envp.dropWhile isspace
  if save = [] then ⟨false, none, [], none⟩
  else
    let n := 1 + countSeparators sep none save + 1
    let split := splitLoop sep save [] []
    -- `strchr` finds the NUL of the copy for the separator NUL, and goes on behind it
    { overrun := sep = 0 ∨ split.2
      slots := some n
      stored := split.1
      cpp := if split.1 = [] then none else some split.1 }

/-! ## Components -/

/-- The characters of a string, with `none` for a separator that is not escaped. -/
def envSymbols : CString → List (Option UInt8)
  | [] => []
  | byte :: rest =>
      if byte = sep then none :: envSymbols rest
      else if byte = backslash then
        match rest with
        | [] => []
        | next :: rest => some (unescaped next) :: envSymbols rest
      else some byte :: envSymbols rest

/-- The components of a string that are not empty. -/
def envComponents (envp : CString) : List CString :=
  (pieces none (envSymbols sep (envp.dropWhile isspace))).map List.reduceOption

/-- The string ends in a backslash that escapes nothing. -/
def EndsOpen (envp : CString) : Prop := Odd (envp.rtakeWhile fun byte => byte = backslash).length

/-- The cuts behind a backslash that was escaped, which the first loop does not count. -/
def cutsBehindBackslash : Bool → List (Option UInt8) → Nat
  | _, [] => 0
  | behind, none :: rest => (if behind then 1 else 0) + cutsBehindBackslash false rest
  | _, some byte :: rest => cutsBehindBackslash (byte = backslash) rest

/-- The copy is not left, the components and the final `NULL` have slots, and they are what
is returned. -/
structure SplitsExactly (envp : CString) : Prop where
  inside : (splitEnv sep envp).overrun = false
  slots : ∀ slots ∈ (splitEnv sep envp).slots, (splitEnv sep envp).stored.length < slots
  returned : (splitEnv sep envp).cpp =
    if envComponents sep envp = [] then none else some (envComponents sep envp)

end Split

variable {sep : UInt8}

@[simp]
theorem envSymbols_sep (rest : CString) :
    envSymbols sep (sep :: rest) = none :: envSymbols sep rest := by
  rw [envSymbols.eq_def]
  exact if_pos rfl

theorem envSymbols_escape (other : backslash ≠ sep) (next : UInt8) (rest : CString) :
    envSymbols sep (backslash :: next :: rest) = some (unescaped next) :: envSymbols sep rest := by
  rw [envSymbols.eq_def]
  exact (if_neg other).trans (if_pos rfl)

theorem envSymbols_plain {byte : UInt8} (other : byte ≠ sep) (plain : byte ≠ backslash)
    (rest : CString) : envSymbols sep (byte :: rest) = some byte :: envSymbols sep rest := by
  rw [envSymbols.eq_def]
  exact (if_neg other).trans (if_neg plain)

/-! ## The second loop -/

theorem pieces_map_some (bp : CString) :
    (pieces none (bp.map some)).map List.reduceOption = storeComponent [] bp := by
  have absent : none ∉ bp.map some := by simp
  unfold pieces storeComponent
  rw [List.splitOn_eq_singleton absent]
  cases bp with
  | nil => rfl
  | cons byte bp => simp [List.reduceOption]

theorem storeComponent_append (cpp : List CString) (bp : CString) :
    storeComponent cpp bp = cpp ++ storeComponent [] bp := by
  unfold storeComponent
  split
  · exact (List.append_nil cpp).symm
  · rfl

/-- What the second loop stores are the components of what is left, the one that has begun
in front. -/
theorem splitLoop_eq (rest : CString) (cpp : List CString) (bp : CString)
    (closed : (splitLoop sep rest cpp bp).2 = false) :
    (splitLoop sep rest cpp bp).1 =
      cpp ++ (pieces none (bp.map some ++ envSymbols sep rest)).map List.reduceOption := by
  fun_induction splitLoop sep rest cpp bp with
  | case1 cpp bp =>
      rw [envSymbols, List.append_nil, pieces_map_some]
      exact storeComponent_append cpp bp
  | case2 rest cpp bp ih =>
      rw [ih closed, envSymbols_sep, pieces_append_cons, List.map_append, pieces_map_some,
        storeComponent_append cpp bp, List.append_assoc]
      rfl
  | case3 cpp bp other => cases closed
  | case4 cpp bp next rest other ih =>
      rw [ih closed, envSymbols_escape other, List.map_append, List.append_assoc]
      rfl
  | case5 byte rest cpp bp other plain ih =>
      rw [ih closed, envSymbols_plain other plain, List.map_append, List.append_assoc]
      rfl

theorem rtakeWhile_cons (p : UInt8 → Bool) (byte : UInt8) (rest : CString) :
    (byte :: rest).rtakeWhile p =
      if rest.all p then (if p byte then byte :: rest else rest) else rest.rtakeWhile p := by
  unfold List.rtakeWhile
  rw [List.reverse_cons, List.takeWhile_append]
  by_cases whole : rest.all p = true
  · have all : rest.reverse.takeWhile p = rest.reverse :=
      List.takeWhile_eq_self_iff.mpr fun byte member =>
        List.all_eq_true.mp whole byte (List.mem_reverse.mp member)
    rw [if_pos whole, all, if_pos rfl, List.reverse_append, List.reverse_reverse,
      List.takeWhile_cons, List.takeWhile_nil]
    by_cases chosen : p byte = true
    · rw [if_pos chosen, if_pos chosen]
      rfl
    · rw [if_neg chosen, if_neg chosen]
      rfl
  · rw [if_neg whole, if_neg]
    intro same
    apply whole
    have all := List.takeWhile_eq_self_iff.mp
      ((List.takeWhile_prefix p).eq_of_length same)
    exact List.all_eq_true.mpr fun byte member => all byte (List.mem_reverse.mpr member)

/-- The character in front does not matter unless all that follow are backslashes. -/
theorem endsOpen_cons (byte : UInt8) (rest : CString) :
    EndsOpen (byte :: rest) ↔
      if rest.all (· = backslash) then Odd (rest.length + if byte = backslash then 1 else 0)
      else EndsOpen rest := by
  unfold EndsOpen
  rw [rtakeWhile_cons]
  split
  · by_cases escape : byte = backslash
    · simp [escape]
    · simp [escape]
  · rfl

theorem endsOpen_of_all {rest : CString} (all : rest.all (· = backslash) = true) :
    EndsOpen rest ↔ Odd rest.length := by
  unfold EndsOpen
  rw [List.rtakeWhile_eq_self_iff.mpr (List.all_eq_true.mp all)]

theorem endsOpen_cons_of_ne {byte : UInt8} (plain : byte ≠ backslash) (rest : CString) :
    EndsOpen (byte :: rest) ↔ EndsOpen rest := by
  rw [endsOpen_cons]
  split
  case isTrue all => simpa [plain] using (endsOpen_of_all all).symm
  case isFalse => rfl

theorem endsOpen_escape (next : UInt8) (rest : CString) :
    EndsOpen (backslash :: next :: rest) ↔ EndsOpen rest := by
  by_cases escape : next = backslash
  · subst escape
    rw [endsOpen_cons, endsOpen_cons]
    by_cases all : rest.all (· = backslash) = true
    · simp [all, endsOpen_of_all, parity_simps]
    · simp [all]
  · rw [endsOpen_cons, if_neg (by simp [escape]), endsOpen_cons_of_ne escape]

/-- The second loop leaves the copy exactly when a backslash at the end escapes nothing. -/
theorem splitLoop_overrun (other : sep ≠ backslash) (rest : CString) (cpp : List CString)
    (bp : CString) : (splitLoop sep rest cpp bp).2 = true ↔ EndsOpen rest := by
  fun_induction splitLoop sep rest cpp bp with
  | case1 cpp bp => simp [EndsOpen]
  | case2 rest cpp bp ih => rw [ih, endsOpen_cons_of_ne other]
  | case3 cpp bp => simp [EndsOpen, List.rtakeWhile]
  | case4 cpp bp next rest _ ih => rw [ih, endsOpen_escape]
  | case5 byte rest cpp bp _ plain ih => rw [ih, endsOpen_cons_of_ne plain]

/-! ## The first loop -/

theorem unescaped_eq_backslash (byte : UInt8) : unescaped byte = backslash ↔ byte = backslash := by
  unfold unescaped
  split
  case isTrue isN => simp [isN, newline, backslash]
  case isFalse =>
    split
    case isTrue isT => simp [isT, tab, backslash]
    case isFalse => rfl

/-- The first loop counts the cuts that have something else than a backslash in front. -/
theorem countSeparators_add_cutsBehindBackslash (other : sep ≠ backslash) (rest : CString)
    (before : UInt8) :
    countSeparators sep (some before) rest +
        cutsBehindBackslash (before = backslash) (envSymbols sep rest) =
      (envSymbols sep rest).count none := by
  fun_induction envSymbols sep rest generalizing before with
  | case1 => rfl
  | case2 rest ih =>
      have counted := ih sep
      simp only [other, decide_false] at counted
      simp only [countSeparators, cutsBehindBackslash, List.count_cons_self, ← counted]
      by_cases behind : before = backslash
      · simp [behind]
        omega
      · simp [behind]
        omega
  | case3 => simp [countSeparators, cutsBehindBackslash, other.symm]
  | case4 next rest _ ih =>
      have counted := ih next
      simpa [countSeparators, cutsBehindBackslash, other.symm, unescaped_eq_backslash]
        using counted
  | case5 byte rest notSep plain ih =>
      have counted := ih byte
      simpa [countSeparators, cutsBehindBackslash, notSep] using counted

theorem countSeparators_none_of_ne {byte : UInt8} (notSep : byte ≠ sep) (rest : CString)
    (before : UInt8) :
    countSeparators sep none (byte :: rest) = countSeparators sep (some before) (byte :: rest) := by
  simp [countSeparators, notSep]

theorem envSymbols_head_ne {byte : UInt8} (notSep : byte ≠ sep) (rest : CString) :
    (envSymbols sep (byte :: rest)).head? ≠ some none := by
  unfold envSymbols
  rw [if_neg notSep]
  split
  · cases rest <;> simp
  · simp

/-- There are slots for the components exactly when the cuts that are not counted are made up
for by empty components, of which the first loop does count the one in front. -/
theorem length_pieces_le_iff (other : sep ≠ backslash) {save : CString}
    (symbols : envSymbols sep save ≠ []) :
    (pieces none (envSymbols sep save)).length ≤ 1 + countSeparators sep none save ↔
      cutsBehindBackslash false (envSymbols sep save) ≤
        ((envSymbols sep save).splitOn none).tail.count [] := by
  have every := length_pieces_add_count none (envSymbols sep save)
  cases save with
  | nil => exact absurd rfl symbols
  | cons byte rest =>
      by_cases isSep : byte = sep
      · subst isSep
        have counted := countSeparators_add_cutsBehindBackslash other rest byte
        simp only [other, decide_false] at counted
        rw [envSymbols_sep, splitOn_cons_self, List.count_cons_self, List.count_cons_self] at every
        rw [envSymbols_sep, splitOn_cons_self, List.tail_cons]
        have first : countSeparators byte none (byte :: rest) =
            countSeparators byte (some byte) rest := by simp [countSeparators]
        have behind : cutsBehindBackslash false (none :: envSymbols byte rest) =
            cutsBehindBackslash false (envSymbols byte rest) := by simp [cutsBehindBackslash]
        rw [first, behind]
        omega
      · have counted := countSeparators_add_cutsBehindBackslash other (byte :: rest) 0
        rw [← countSeparators_none_of_ne isSep] at counted
        have head := envSymbols_head_ne isSep rest
        cases shape : envSymbols sep (byte :: rest) with
        | nil => exact absurd shape symbols
        | cons symbol behind =>
            rw [shape] at every counted head
            have inside : symbol ≠ none := by simpa using head
            rw [count_splitOn_cons_of_ne inside] at every
            have plain : decide ((0 : UInt8) = backslash) = false := rfl
            rw [plain] at counted
            omega

theorem envSymbols_ne_nil {save : CString} (nonempty : save ≠ []) (closed : ¬EndsOpen save) :
    envSymbols sep save ≠ [] := by
  unfold envSymbols
  split
  · exact absurd rfl nonempty
  · split
    · simp
    · split
      case isTrue escape =>
        subst escape
        split
        · simp [EndsOpen, List.rtakeWhile] at closed
        · simp
      case isFalse => simp

/-- `split_env` does what it should for white space only, and for a separator that is not the
NUL, a string in which the last backslash escapes something, and in which the cuts right
behind an escaped backslash are at most as many as the empty components that are not in
front. -/
theorem splitEnv_iff (other : sep ≠ backslash) (envp : CString) :
    SplitsExactly sep envp ↔
      envp.dropWhile isspace = [] ∨
        sep ≠ 0 ∧ ¬EndsOpen (envp.dropWhile isspace) ∧
          cutsBehindBackslash false (envSymbols sep (envp.dropWhile isspace)) ≤
            ((envSymbols sep (envp.dropWhile isspace)).splitOn none).tail.count [] := by
  by_cases white : envp.dropWhile isspace = []
  · have nothing : splitEnv sep envp = ⟨false, none, [], none⟩ := if_pos white
    refine iff_of_true ⟨?_, ?_, ?_⟩ (.inl white)
    · rw [nothing]
    · simp [nothing]
    · rw [nothing, envComponents, white]
      rfl
  · have inside : (splitEnv sep envp).overrun = false ↔
        sep ≠ 0 ∧ ¬EndsOpen (envp.dropWhile isspace) := by
      rw [← splitLoop_overrun other (envp.dropWhile isspace) [] []]
      simp [splitEnv, white]
    have components : sep ≠ 0 ∧ ¬EndsOpen (envp.dropWhile isspace) →
        (splitEnv sep envp).stored = envComponents sep envp := by
      rintro ⟨_, closed⟩
      rw [← splitLoop_overrun other (envp.dropWhile isspace) [] [], Bool.not_eq_true] at closed
      simpa [splitEnv, white, envComponents] using splitLoop_eq _ _ _ closed
    have slots : (splitEnv sep envp).slots =
        some (1 + countSeparators sep none (envp.dropWhile isspace) + 1) := by
      simp [splitEnv, white]
    have returned : (splitEnv sep envp).cpp =
        if (splitEnv sep envp).stored = [] then none else some (splitEnv sep envp).stored := by
      simp [splitEnv, white]
    have fits (closed : ¬EndsOpen (envp.dropWhile isspace)) :=
      length_pieces_le_iff other (envSymbols_ne_nil white closed)
    constructor
    · intro exactly
      have closed := inside.mp exactly.inside
      have room := exactly.slots _ slots
      rw [components closed, envComponents, List.length_map] at room
      exact .inr ⟨closed.1, closed.2, (fits closed.2).mp (Nat.lt_succ_iff.mp room)⟩
    · rintro (nothing | ⟨nonzero, closed, cuts⟩)
      · exact absurd nothing white
      · have safe := And.intro nonzero closed
        refine ⟨inside.mpr safe, fun slots_ member => ?_, ?_⟩
        · rw [slots, Option.mem_some_iff] at member
          rw [← member, components safe, envComponents, List.length_map]
          exact Nat.lt_succ_iff.mpr ((fits closed).mpr cuts)
        · rw [returned, components safe]

/-- A separator that is escaped does not cut. -/
theorem splitEnv_names : SplitsExactly 44 [32, 97, 92, 44, 98, 44, 99] :=
  (splitEnv_iff (by decide) _).mpr (.inr (by
    simp [EndsOpen]
    decide))

/-- The separator behind an escaped backslash cuts and is not counted, so that the second
component takes the slot of the final `NULL`. -/
example : (splitEnv 44 [97, backslash, backslash, 44, 98]).slots = some 2 ∧
    (splitEnv 44 [97, backslash, backslash, 44, 98]).stored.length = 2 := by decide

/-- The NUL behind a backslash is skipped, and what follows it is read. -/
theorem backslash_overrun : ¬SplitsExactly 44 [97, backslash] := by
  intro exactly
  have inside := exactly.inside
  cases inside

end Ndmpd
