import Ndmpd.Backup.Traversal

/-!
# A walk that nothing disturbs

With a callback that returns 0 and no order to stop, `traverse_level` calls it for what the
tree holds (`traverseLevel_visits`): once for each directory, as the entry `.` that it
lists, and once for each entry that is no directory, in whatever order the directories are
listed. What a directory lists is done with before anything below it.

A path for which `lstat` succeeds fits into `path`. Paths are compared as texts. `Within` says
that a path is another one or lies below it; two entries of one directory have nothing within
both of them (`within_entryPath_unique`).
-/

namespace Ndmpd

open Foundation

/-- A path is another one, or lies below it. -/
def Within (outer dir : CString) : Prop := dir = outer ∨ outer ++ [slash] <+: dir

/-- A path lies below another one. -/
def Below (outer dir : CString) : Prop := outer ++ [slash] <+: dir

/-- What `readdir` can list as the name of an entry. -/
def ProperName (name : CString) : Prop := name ≠ [] ∧ slash ∉ name

/-- A callback that always returns 0; each of its calls is noted. -/
def returnsZero (_looks : Nat) (_dir _ent : CString) (_visit : Visit) : Int × Bool := (0, true)

/-- The calls of the callback among what gets done. -/
def callsIn (log : List Mark) : List (CString × CString) :=
  log.filterMap fun mark =>
    match mark with
    | .directory _ => none
    | .object dir name => some (dir, name)

namespace Listing

/-- The entry of a directory and, should it be a directory, what that lists. -/
inductive Lists : Listing → CString → Visit → Listing → Prop where
  | here {name visit opens inner rest} : Lists (.entry name visit opens inner rest) name visit inner
  | there {name visit opens inner rest other otherVisit otherInner} :
      Lists rest other otherVisit otherInner →
        Lists (.entry name visit opens inner rest) other otherVisit otherInner

/-- The names that a directory lists. -/
def names : Listing → List CString
  | .nil _ => []
  | .entry name _ _ _ rest => name :: names rest

/-- The directories of a tree, with their paths and what they list. -/
inductive Directory : CString → Listing → CString → Listing → Prop where
  | itself {path listing} : Directory path listing path listing
  | inside {path listing name visit inner dir found} :
      Lists listing name visit inner → visit.walked name = true →
        Directory (entryPath path name) inner dir found → Directory path listing dir found

/-- Below a directory every name is a proper one; each directory there can be opened and is
listed to its end, with itself, and no name twice. -/
def Proper : Listing → Prop
  | .nil complete => complete = true
  | .entry name visit opens inner rest =>
      (ProperName name ∧ (visit.walked name = true →
        opens = true ∧ inner.names.Nodup ∧ dotName ∈ inner.names ∧ Proper inner)) ∧ Proper rest

/-- The tree of a directory as `opendir`, `readdir` and `lstat` show it when they succeed. -/
structure IsTree (listing : Listing) : Prop where
  nodup : listing.names.Nodup
  itself : dotName ∈ listing.names
  proper : listing.Proper

/-- The calls of the callback, in order. -/
def calls : CString → Listing → List (CString × CString)
  | _, .nil _ => []
  | path, .entry name visit _ inner rest =>
      if name = dotdotName then calls path rest
      else if visit.walked name then
        calls path rest ++ calls (trimmedPath (entryPath path name)) inner
      else (path, name) :: calls path rest

theorem calls_cons (path name : CString) (visit : Visit) (opens : Bool) (inner rest : Listing) :
    (entry name visit opens inner rest).calls path =
      if name = dotdotName then rest.calls path
      else if visit.walked name then
        rest.calls path ++ inner.calls (trimmedPath (entryPath path name))
      else (path, name) :: rest.calls path := rfl

/-- The entry is one for which the callback is called. -/
def Called (listing : Listing) (name : CString) : Prop :=
  ∃ visit inner, listing.Lists name visit inner ∧ name ≠ dotdotName ∧ visit.walked name = false

/-- The calls visit a tree: each directory once as `.`, each entry that is no directory
once, with the path of its parent, and nothing else; below a directory they come when the
directory's own are done. -/
structure Visits (path : CString) (listing : Listing) (made : List (CString × CString)) : Prop where
  directories : ∀ dir found, Directory path listing dir found → made.count (dir, dotName) = 1
  files : ∀ dir found name visit inner, Directory path listing dir found →
    found.Lists name visit inner → name ≠ dotdotName → visit.stp.isDir = false →
      made.count (dir, name) = 1
  only : ∀ call ∈ made, ∃ found, Directory path listing call.1 found ∧ found.Called call.2
  inOrder : made.Pairwise fun earlier later => ¬ Below later.1 earlier.1

end Listing

/-! ## Paths -/

theorem trimmedPath_entryPath {name : CString} (proper : ProperName name) (path : CString) :
    trimmedPath (entryPath path name) = entryPath path name := by
  obtain ⟨front, last, rfl⟩ := (List.eq_nil_or_concat name).resolve_left proper.1
  have visible : last ≠ slash := by
    rintro rfl
    exact proper.2 (by simp)
  rw [entryPath, List.concat_eq_append, ← List.cons_append, ← List.append_assoc]
  exact List.rdropWhile_concat_neg _ _ _ (by simpa using visible)

theorem Within.length_le {outer dir : CString} (within : Within outer dir) :
    outer.length ≤ dir.length := by
  rcases within with rfl | below
  · exact le_rfl
  · have longer := below.length_le
    rw [List.length_append] at longer
    omega

theorem within_entryPath {path name dir : CString} (within : Within (entryPath path name) dir) :
    Below path dir := by
  have front : path ++ [slash] <+: entryPath path name :=
    ⟨name, by rw [entryPath, List.append_assoc, List.singleton_append]⟩
  rcases within with rfl | below
  · exact front
  · exact front.trans ((List.prefix_append _ _).trans below)

theorem Within.trans {outer dir inner : CString} (within : Within outer dir)
    (further : Within dir inner) : Within outer inner := by
  rcases further with rfl | below
  · exact within
  · right
    rcases within with rfl | lower
    · exact below
    · exact lower.trans ((List.prefix_append _ _).trans below)

/-- What is behind the path of a directory, up to the next slash, is the name of the entry. -/
theorem takeWhile_of_within {path name dir : CString} (proper : ProperName name)
    (within : Within (entryPath path name) dir) :
    (dir.drop (path.length + 1)).takeWhile (· ≠ slash) = name := by
  have run : ∀ byte ∈ name, decide (byte ≠ slash) = true := by
    intro byte listed
    rw [decide_eq_true_eq]
    rintro rfl
    exact proper.2 listed
  have skip : ∀ rest, (path ++ slash :: rest).drop (path.length + 1) = rest := by
    intro rest
    rw [← List.drop_drop, List.drop_left, List.drop_one, List.tail_cons]
  rcases within with rfl | ⟨rest, rfl⟩
  · have whole := @List.takeWhile_append_of_pos _ _ name [] run
    rw [entryPath, skip]
    rwa [List.append_nil, List.takeWhile_nil, List.append_nil] at whole
  · rw [entryPath, List.append_assoc, List.append_assoc, List.cons_append, skip,
      List.takeWhile_append_of_pos run]
    simp

/-- Nothing is within two entries of a directory. -/
theorem within_entryPath_unique {path name other dir : CString} (proper : ProperName name)
    (otherProper : ProperName other) (within : Within (entryPath path name) dir)
    (otherWithin : Within (entryPath path other) dir) : name = other :=
  (takeWhile_of_within proper within).symm.trans (takeWhile_of_within otherProper otherWithin)

/-! ## The calls of a walk -/

section Walk

variable {stop : Nat → Bool} (stopOnError : Bool)

theorem callsIn_append (first second : List Mark) :
    callsIn (first ++ second) = callsIn first ++ callsIn second :=
  List.filterMap_append

/-- A directory that can be opened, with no order to stop. -/
theorem enterDirectory_free (never : ∀ looks, stop looks = false)
    {inside : Progress Mark → Progress Mark} (walk : Progress Mark) :
    enterDirectory stop true inside walk = (0, inside walk.look) := by
  unfold enterDirectory
  rw [never, if_neg Bool.false_ne_true]
  rfl

/-- The calls made from an entry of a listing on. -/
theorem readLoop_calls (never : ∀ looks, stop looks = false) {listing : Listing}
    (proper : listing.Proper) (path : CString) (walk : Progress Mark) :
    callsIn (readLoop stop stopOnError returnsZero path listing false walk).log =
      callsIn walk.log ++ listing.calls path := by
  induction listing generalizing path walk with
  | nil complete =>
      cases proper
      change callsIn (walk.log ++ [Mark.directory path]) = _
      rw [callsIn_append]
      rfl
  | entry name visit opens inner rest inner_ih rest_ih =>
      obtain ⟨⟨properName, opened⟩, restProper⟩ := proper
      have called : callsIn (readLoop stop stopOnError returnsZero path rest false
          (callBack returnsZero path name visit walk).2).log =
            callsIn walk.log ++ ((path, name) :: rest.calls path) := by
        rw [rest_ih restProper]
        change callsIn (walk.log ++ [Mark.object path name]) ++ _ = _
        rw [callsIn_append, List.append_assoc]
        rfl
      rw [readLoop, never, if_neg Bool.false_ne_true, if_neg fun both => Bool.false_ne_true both.2]
      rw [Listing.calls_cons]
      by_cases parent : name = dotdotName
      · rw [if_pos parent, if_pos parent]
        exact rest_ih restProper path walk.look
      rw [if_neg parent, if_neg parent]
      by_cases itself : name = dotName
      · have plain : visit.walked name = false := by simp [Visit.walked, itself]
        rw [if_pos itself, plain, if_neg Bool.false_ne_true]
        exact called
      rw [if_neg itself]
      by_cases isDir : visit.stp.isDir = true
      · have walked : visit.walked name = true := by simp [Visit.walked, parent, itself, isDir]
        obtain ⟨opens_, -, -, innerProper⟩ := opened walked
        rw [if_pos isDir, if_pos walked, opens_]
        dsimp only
        rw [enterDirectory_free never, inner_ih innerProper, ← List.append_assoc]
        exact congrArg (· ++ _) (rest_ih restProper path walk.look)
      · have plain : visit.walked name = false := by simp [Visit.walked, isDir]
        rw [if_neg isDir, plain, if_neg Bool.false_ne_true]
        exact called

end Walk

namespace Listing

/-! ## Every call, and nothing else -/

theorem Lists.names {listing inner : Listing} {name : CString} {visit : Visit}
    (listed : listing.Lists name visit inner) : name ∈ listing.names := by
  induction listed with
  | here => exact List.mem_cons_self
  | there _ ih => exact List.mem_cons_of_mem _ ih

theorem exists_lists {listing : Listing} {name : CString} (listed : name ∈ listing.names) :
    ∃ visit inner, listing.Lists name visit inner := by
  induction listing with
  | nil complete => exact absurd listed List.not_mem_nil
  | entry first visit opens inner rest _ rest_ih =>
      rcases List.mem_cons.mp listed with rfl | later
      · exact ⟨visit, inner, .here⟩
      · obtain ⟨otherVisit, otherInner, found⟩ := rest_ih later
        exact ⟨otherVisit, otherInner, .there found⟩

theorem Proper.of_lists {listing inner : Listing} {name : CString} {visit : Visit}
    (proper : listing.Proper) (listed : listing.Lists name visit inner) :
    ProperName name ∧ (visit.walked name = true → inner.IsTree) := by
  induction listed with
  | here =>
      refine ⟨proper.1.1, fun walked => ?_⟩
      obtain ⟨-, nodup, itself, below⟩ := proper.1.2 walked
      exact ⟨nodup, itself, below⟩
  | there _ ih => exact ih proper.2

/-- The tree below an entry is a tree. -/
theorem Directory.isTree {path dir : CString} {listing found : Listing}
    (directory : Directory path listing dir found) (tree : listing.IsTree) : found.IsTree := by
  induction directory with
  | itself => exact tree
  | inside listed walked _ ih => exact ih ((tree.proper.of_lists listed).2 walked)

theorem lists_cons_iff {name other : CString} {visit otherVisit : Visit} {opens : Bool}
    {inner rest otherInner : Listing} :
    (entry name visit opens inner rest).Lists other otherVisit otherInner ↔
      (other = name ∧ otherVisit = visit ∧ otherInner = inner) ∨
        rest.Lists other otherVisit otherInner := by
  constructor
  · intro listed
    cases listed with
    | here => exact Or.inl ⟨rfl, rfl, rfl⟩
    | there later => exact Or.inr later
  · rintro (⟨rfl, rfl, rfl⟩ | later)
    · exact .here
    · exact .there later

theorem called_cons_iff {name other : CString} {visit : Visit} {opens : Bool}
    {inner rest : Listing} : (entry name visit opens inner rest).Called other ↔
      (other = name ∧ name ≠ dotdotName ∧ visit.walked name = false) ∨ rest.Called other := by
  constructor
  · rintro ⟨otherVisit, otherInner, listed, notParent, plain⟩
    rcases lists_cons_iff.mp listed with ⟨rfl, rfl, rfl⟩ | later
    · exact Or.inl ⟨rfl, notParent, plain⟩
    · exact Or.inr ⟨otherVisit, otherInner, later, notParent, plain⟩
  · rintro (⟨rfl, notParent, plain⟩ | ⟨otherVisit, otherInner, later, notParent, plain⟩)
    · exact ⟨visit, inner, .here, notParent, plain⟩
    · exact ⟨otherVisit, otherInner, .there later, notParent, plain⟩

/-- The call is for an entry that the directory lists, or for something below one. -/
def Reaches (path : CString) (listing : Listing) (call : CString × CString) : Prop :=
  (call.1 = path ∧ listing.Called call.2) ∨
    ∃ name visit inner, listing.Lists name visit inner ∧ visit.walked name = true ∧
      call ∈ inner.calls (entryPath path name)

theorem reaches_cons_iff {name : CString} {visit : Visit} {opens : Bool} {inner rest : Listing}
    {path : CString} {call : CString × CString} :
    (entry name visit opens inner rest).Reaches path call ↔
      (call = (path, name) ∧ name ≠ dotdotName ∧ visit.walked name = false) ∨
        (visit.walked name = true ∧ call ∈ inner.calls (entryPath path name)) ∨
          rest.Reaches path call := by
  unfold Reaches
  rw [called_cons_iff]
  constructor
  · rintro (⟨here, ⟨same, plain⟩ | called⟩ | ⟨other, otherVisit, otherInner, listed, walked, below⟩)
    · exact Or.inl ⟨Prod.ext here same, plain⟩
    · exact Or.inr (Or.inr (Or.inl ⟨here, called⟩))
    · rcases lists_cons_iff.mp listed with ⟨rfl, rfl, rfl⟩ | later
      · exact Or.inr (Or.inl ⟨walked, below⟩)
      · exact Or.inr (Or.inr (Or.inr ⟨other, otherVisit, otherInner, later, walked, below⟩))
  · rintro (⟨rfl, plain⟩ | ⟨walked, below⟩ | ⟨here, called⟩ |
      ⟨other, otherVisit, otherInner, later, walked, below⟩)
    · exact Or.inl ⟨rfl, Or.inl ⟨rfl, plain⟩⟩
    · exact Or.inr ⟨name, visit, inner, .here, walked, below⟩
    · exact Or.inl ⟨here, Or.inr called⟩
    · exact Or.inr ⟨other, otherVisit, otherInner, .there later, walked, below⟩

/-- The calls for what a directory lists, and those for what lies below it. -/
theorem mem_calls {listing : Listing} (proper : listing.Proper) (path : CString)
    (call : CString × CString) : call ∈ listing.calls path ↔ listing.Reaches path call := by
  induction listing with
  | nil complete =>
      refine iff_of_false List.not_mem_nil ?_
      rintro (⟨-, visit, inner, ⟨⟩, -⟩ | ⟨name, visit, inner, ⟨⟩, -⟩)
  | entry name visit opens inner rest _ rest_ih =>
      obtain ⟨⟨properName, -⟩, restProper⟩ := proper
      rw [calls_cons, reaches_cons_iff, ← rest_ih restProper]
      by_cases parent : name = dotdotName
      · have plain : visit.walked name = false := by simp [Visit.walked, parent]
        rw [if_pos parent, plain]
        simp [parent]
      rw [if_neg parent]
      cases visit.walked name with
      | true =>
          rw [if_pos rfl, List.mem_append, trimmedPath_entryPath properName, or_comm]
          simp
      | false =>
          rw [if_neg Bool.false_ne_true, List.mem_cons]
          simp [parent]

/-- A directory that is found behind the first entry is found in the whole listing. -/
theorem Directory.there {path name dir other : CString} {visit : Visit} {opens : Bool}
    {inner rest found : Listing} (directory : Directory path rest dir found)
    (called : found.Called other) :
    ∃ whole, Directory path (entry name visit opens inner rest) dir whole ∧ whole.Called other := by
  cases directory with
  | itself => exact ⟨_, .itself, called_cons_iff.mpr (Or.inr called)⟩
  | inside listed walked below => exact ⟨found, .inside (.there listed) walked below, called⟩

/-- A call is made for something that a directory lists. -/
theorem exists_directory {listing : Listing} (proper : listing.Proper) {path : CString}
    {call : CString × CString} (made : call ∈ listing.calls path) :
    ∃ found, Directory path listing call.1 found ∧ found.Called call.2 := by
  induction listing generalizing path with
  | nil complete => exact absurd made List.not_mem_nil
  | entry name visit opens inner rest inner_ih rest_ih =>
      rw [mem_calls proper, reaches_cons_iff, ← mem_calls proper.2] at made
      rcases made with ⟨rfl, plain⟩ | ⟨walked, below⟩ | later
      · exact ⟨_, .itself, called_cons_iff.mpr (Or.inl ⟨rfl, plain⟩)⟩
      · obtain ⟨found, directory, called⟩ := inner_ih (proper.1.2 walked).2.2.2 below
        exact ⟨found, .inside .here walked directory, called⟩
      · obtain ⟨found, directory, called⟩ := rest_ih proper.2 later
        exact directory.there called

/-- What a directory lists is called. -/
theorem Directory.mem_calls {path dir name : CString} {listing found : Listing}
    (directory : Directory path listing dir found) (proper : listing.Proper)
    (called : found.Called name) : (dir, name) ∈ listing.calls path := by
  induction directory with
  | itself => exact (Listing.mem_calls proper _ _).mpr (Or.inl ⟨rfl, called⟩)
  | inside listed walked _ ih =>
      have inner := ((proper.of_lists listed).2 walked).proper
      exact (Listing.mem_calls proper _ _).mpr (Or.inr ⟨_, _, _, listed, walked, ih inner called⟩)

/-! ## No call twice, and in order -/

theorem Directory.within {path dir : CString} {listing found : Listing}
    (directory : Directory path listing dir found) : Within path dir := by
  induction directory with
  | itself => exact Or.inl rfl
  | inside _ _ _ ih => exact Or.inr (within_entryPath ih)

/-- The calls are made within the path of the directory. -/
theorem within_of_mem {listing : Listing} (proper : listing.Proper) {path : CString}
    {call : CString × CString} (made : call ∈ listing.calls path) : Within path call.1 := by
  obtain ⟨found, directory, -⟩ := exists_directory proper made
  exact directory.within

/-- The path of a directory is not within that of an entry. -/
theorem not_within_entryPath (path name : CString) : ¬ Within (entryPath path name) path := by
  intro within
  have longer := within.length_le
  rw [entryPath, List.length_append, List.length_cons] at longer
  omega

/-- Nothing that is called from the rest of a listing lies within an entry in front. -/
theorem apart {rest : Listing} (proper : rest.Proper) {path name : CString}
    (properName : ProperName name) (fresh : name ∉ rest.names) {call : CString × CString}
    (made : call ∈ rest.calls path) : ¬ Within (entryPath path name) call.1 := by
  intro within
  rcases (mem_calls proper path call).mp made with ⟨here, -⟩ |
    ⟨other, visit, inner, listed, walked, below⟩
  · rw [here] at within
    exact not_within_entryPath path name within
  · obtain ⟨otherProper, tree⟩ := proper.of_lists listed
    have same := within_entryPath_unique properName otherProper within
      (within_of_mem (tree walked).proper below)
    exact fresh (same ▸ listed.names)

/-- No call is made twice. -/
theorem nodup_calls {listing : Listing} (proper : listing.Proper) (nodup : listing.names.Nodup)
    (path : CString) : (listing.calls path).Nodup := by
  induction listing generalizing path with
  | nil complete => exact List.nodup_nil
  | entry name visit opens inner rest inner_ih rest_ih =>
      obtain ⟨fresh, others⟩ := List.nodup_cons.mp nodup
      obtain ⟨⟨properName, opened⟩, restProper⟩ := proper
      have later := rest_ih restProper others path
      rw [calls_cons]
      by_cases parent : name = dotdotName
      · rw [if_pos parent]
        exact later
      rw [if_neg parent]
      cases walked : visit.walked name with
      | true =>
          obtain ⟨-, innerNodup, -, innerProper⟩ := opened walked
          rw [if_pos rfl, trimmedPath_entryPath properName, List.nodup_append]
          refine ⟨later, inner_ih innerProper innerNodup _, ?_⟩
          rintro call made _ below rfl
          exact apart restProper properName fresh made (within_of_mem innerProper below)
      | false =>
          rw [if_neg Bool.false_ne_true, List.nodup_cons]
          refine ⟨fun again => ?_, later⟩
          rcases (mem_calls restProper path _).mp again with ⟨-, visit, inner, listed, -⟩ |
            ⟨other, visit, inner, listed, walked, below⟩
          · exact fresh listed.names
          · exact not_within_entryPath path other
              (within_of_mem ((restProper.of_lists listed).2 walked).proper below)

/-- A directory's own calls come before those below it. -/
theorem calls_inOrder {listing : Listing} (proper : listing.Proper) (nodup : listing.names.Nodup)
    (path : CString) :
    (listing.calls path).Pairwise fun earlier later => ¬ Below later.1 earlier.1 := by
  induction listing generalizing path with
  | nil complete => exact .nil
  | entry name visit opens inner rest inner_ih rest_ih =>
      obtain ⟨fresh, others⟩ := List.nodup_cons.mp nodup
      obtain ⟨⟨properName, opened⟩, restProper⟩ := proper
      have later := rest_ih restProper others path
      rw [calls_cons]
      by_cases parent : name = dotdotName
      · rw [if_pos parent]
        exact later
      rw [if_neg parent]
      cases walked : visit.walked name with
      | true =>
          obtain ⟨-, innerNodup, -, innerProper⟩ := opened walked
          rw [if_pos rfl, trimmedPath_entryPath properName, List.pairwise_append]
          refine ⟨later, inner_ih innerProper innerNodup _, ?_⟩
          intro early made call below under
          exact apart restProper properName fresh made
            ((within_of_mem innerProper below).trans (Or.inr under))
      | false =>
          rw [if_neg Bool.false_ne_true, List.pairwise_cons]
          refine ⟨fun call made under => ?_, later⟩
          have longer := under.length_le
          have within := (within_of_mem restProper made).length_le
          rw [List.length_append, List.length_singleton] at longer
          change call.1.length + 1 ≤ path.length at longer
          omega

/-- The calls visit the tree. -/
theorem IsTree.visits {listing : Listing} (tree : listing.IsTree) (path : CString) :
    Visits path listing (listing.calls path) := by
  have once : ∀ {call : CString × CString}, call ∈ listing.calls path →
      (listing.calls path).count call = 1 :=
    fun made => List.count_eq_one_of_mem (nodup_calls tree.proper tree.nodup path) made
  refine ⟨?_, ?_, fun call made => exists_directory tree.proper made,
    calls_inOrder tree.proper tree.nodup path⟩
  · intro dir found directory
    obtain ⟨visit, inner, listed⟩ := exists_lists (directory.isTree tree).itself
    exact once (directory.mem_calls tree.proper
      ⟨visit, inner, listed, by decide, by simp [Visit.walked]⟩)
  · intro dir found name visit inner directory listed notParent isFile
    exact once (directory.mem_calls tree.proper
      ⟨visit, inner, listed, notParent, by simp [Visit.walked, isFile]⟩)

end Listing

/-! ## The whole walk -/

/-- With no order to stop, `traverse_level` visits the tree and returns 0. -/
theorem traverseLevel_visits {stop : Nat → Bool} (never : ∀ looks, stop looks = false)
    (stopOnError : Bool) (path : CString) {listing : Listing} (tree : listing.IsTree) :
    (traverseLevel stop stopOnError returnsZero path true listing ⟨0, []⟩).1 = 0 ∧
      Listing.Visits (trimmedPath path) listing
        (callsIn (traverseLevel stop stopOnError returnsZero path true listing ⟨0, []⟩).2.log) := by
  unfold traverseLevel
  rw [enterDirectory_free never]
  refine ⟨rfl, ?_⟩
  dsimp only
  rw [readLoop_calls stopOnError never tree.proper]
  exact tree.visits (trimmedPath path)

/-- An entry of the tests below, with an `lstat` that tells only what it is. -/
def plainVisit (isDir : Bool) : Visit := ⟨⟨isDir, 0, 0⟩, true, ⟨0, true⟩⟩

/-- A directory with a directory `d`, which holds a file `f`, and then a file `a`. -/
def smallTree : Listing :=
  .entry dotName (plainVisit true) true (.nil true)
    (.entry [100] (plainVisit true) true
      (.entry [102] (plainVisit false) true (.nil true)
        (.entry dotName (plainVisit true) true (.nil true) (.nil true)))
      (.entry [97] (plainVisit false) true (.nil true) (.nil true)))

theorem smallTree_isTree : smallTree.IsTree where
  nodup := by decide
  itself := by decide
  proper := by
    simp [smallTree, Listing.Proper, ProperName, Visit.walked, plainVisit, Listing.names, slash]

theorem traverseLevel_visits_smallTree :
    Listing.Visits [47, 114] smallTree (callsIn (traverseLevel (fun _ => false) true returnsZero
      [47, 114, 47] true smallTree ⟨0, []⟩).2.log) :=
  (traverseLevel_visits (fun _ => rfl) true [47, 114, 47] smallTree_isTree).2

/-- A directory that holds nothing. -/
def emptyTree : Listing := .entry dotName (plainVisit true) true (.nil true) (.nil true)

theorem emptyTree_isTree : emptyTree.IsTree where
  nodup := by decide
  itself := by decide
  proper := by simp [emptyTree, Listing.Proper, ProperName, Visit.walked, plainVisit, slash]

/-- With the order to stop no call is made and the result is -1; and for the path `/`, of
which nothing is left without the slashes at its end, the call comes with an empty path. -/
theorem traverseLevel_stopped_root :
    (emptyTree.IsTree ∧ traverseLevel (fun _ => true) true returnsZero [47, 114] true emptyTree
        ⟨0, []⟩ = (-1, ⟨1, []⟩)) ∧
      callsIn (traverseLevel (fun _ => false) true returnsZero [47] true emptyTree ⟨0, []⟩).2.log =
        [([], dotName)] := by
  refine ⟨⟨emptyTree_isTree, rfl⟩, ?_⟩
  decide

end Ndmpd
