import Ndmpd.Dates.Dumpdates
import Mathlib.Data.List.Chain

/-!
# The names that can be read from a dumpdates file

Whatever the file holds, a line that `getlineNdmpd` returns has no comment sign behind a
newline, because a comment line is skipped also inside a continued line, and does not
end in a backslash, because such a line would be continued (`ReadsBack.text`). The name
that `getDdname` cuts out of it inherits both (`ReadsBack.getDdname`), and so does the
name of every record that is read (`ReadsBack.getrecord`).
-/

namespace Ndmpd

open Foundation

namespace Dumpdates

/-- What every text and every name read from the file satisfies: no comment sign follows a
newline, and the last byte is not a backslash. -/
structure ReadsBack (text : CString) : Prop where
  uncommented : text.IsChain fun byte next => byte = newline → next ≠ hash
  unescaped : text.getLast? ≠ some backslash

/-- A line with no newline inside. -/
theorem uncommented_of_notMem {line : CString} (noNewline : newline ∉ line.dropLast) :
    line.IsChain fun byte next => byte = newline → next ≠ hash := by
  induction line with
  | nil => exact List.isChain_nil
  | cons byte line ih =>
      rcases line with _ | ⟨next, line⟩
      · exact List.isChain_singleton byte
      · rw [List.dropLast_cons_of_ne_nil (List.cons_ne_nil _ _)] at noNewline
        refine List.isChain_cons_cons.mpr ⟨?_, ?_⟩
        · intro same
          exact absurd (same ▸ List.mem_cons_self) noNewline
        · exact ih fun listed => noNewline (List.mem_cons_of_mem _ listed)

/-- What follows a newline in a joined line is not a comment. -/
theorem uncommented_append {save line : CString}
    (front : save.IsChain fun byte next => byte = newline → next ≠ hash)
    (back : line.IsChain fun byte next => byte = newline → next ≠ hash)
    (visible : line.head? ≠ some hash) :
    (save ++ line).IsChain fun byte next => byte = newline → next ≠ hash := by
  refine List.isChain_append.mpr ⟨front, back, ?_⟩
  rintro byte _ next first _ rfl
  exact visible first

theorem front_head? {short long : CString} (nonempty : short ≠ []) (front : short <+: long) :
    short.head? = long.head? := by
  obtain ⟨rest, rfl⟩ := front
  rw [List.head?_append_of_ne_nil _ nonempty]

/-- A line that was taken and is not a comment, without its newline. -/
theorem fgets_line {llen : Nat} {fp chunk rest : List UInt8}
    (taken : fgets llen fp = some (chunk, rest)) (visible : chunk.head? ≠ some hash)
    (ends : (cstring chunk).getLast? = some newline) :
    newline ∉ (cstring chunk).dropLast ∧ (cstring chunk).dropLast.head? ≠ some hash ∧
      (cstring chunk).dropLast.length + 2 ≤ llen := by
  have string : cstring chunk <+: chunk := List.takeWhile_prefix _
  have nonempty : cstring chunk ≠ [] := by
    intro empty
    rw [empty] at ends
    exact absurd ends (by simp)
  by_cases refused : fp = [] ∨ llen < 2
  · rw [fgets, if_pos refused] at taken
    cases taken
  rw [fgets, if_neg refused, Option.some_inj] at taken
  have chunkEq : chunk = (takeLine (llen - 1) fp).1 := (congrArg Prod.fst taken).symm
  refine ⟨?_, ?_, ?_⟩
  · intro listed
    have inner := newline_notMem_dropLast_takeLine (llen - 1) fp
    rw [← chunkEq] at inner
    obtain ⟨more, whole⟩ := string
    by_cases closed : more = []
    · rw [closed, List.append_nil] at whole
      exact inner (whole ▸ listed)
    · refine inner ?_
      rw [← whole, List.dropLast_append_of_ne_nil closed]
      exact List.mem_append_left _ (List.mem_of_mem_dropLast listed)
  · by_cases empty : (cstring chunk).dropLast = []
    · rw [empty]
      intro head
      cases head
    · rw [front_head? empty ((List.dropLast_prefix _).trans string)]
      exact visible
  · have short := length_takeLine_le (llen - 1) fp
    rw [← chunkEq] at short
    have whole := string.length_le
    have positive := List.length_pos_iff.mpr nonempty
    rw [List.length_dropLast]
    omega

/-- A line that was joined from its continued lines. -/
theorem getlineLoop_readsBack {fp save text rest : List UInt8} {llen : Nat}
    (got : getlineLoop fp save llen = some (text, rest))
    (front : save.IsChain fun byte next => byte = newline → next ≠ hash)
    (joint : save.getLast? ≠ some backslash) :
    ReadsBack text ∧ text.length + 2 ≤ save.length + llen := by
  fun_induction getlineLoop fp save llen with
  | case1 => cases got
  | case2 fp save llen chunk more taken comment ih => exact ih got front joint
  | case3 fp save llen chunk more taken string visible short ih => exact ih got front joint
  | case4 => cases got
  | case5 fp save llen chunk more taken string visible _ ends line empty =>
      cases got
      obtain ⟨-, -, room⟩ := fgets_line taken visible (not_not.mp ends)
      exact ⟨⟨front, joint⟩, by omega⟩
  | case6 fp save llen chunk more taken string visible _ ends line nonempty last =>
      cases got
      obtain ⟨inner, first, room⟩ := fgets_line taken visible (not_not.mp ends)
      refine ⟨⟨?_, ?_⟩, ?_⟩
      · refine uncommented_append front (uncommented_of_notMem ?_) first
        exact fun listed => inner (List.mem_of_mem_dropLast listed)
      · rw [List.getLast?_append_of_ne_nil _ nonempty]
        exact last
      · have room : line.length + 2 ≤ llen := room
        rw [List.length_append]
        omega
  | case7 fp save llen chunk more taken string visible _ ends line nonempty last ih =>
      obtain ⟨inner, first, room⟩ := fgets_line taken visible (not_not.mp ends)
      have joined : (line.dropLast ++ [newline]).IsChain
          fun byte next => byte = newline → next ≠ hash := by
        apply uncommented_of_notMem
        rw [List.dropLast_concat]
        exact fun listed => inner (List.mem_of_mem_dropLast listed)
      have shown : (line.dropLast ++ [newline]).head? ≠ some hash := by
        by_cases single : line.dropLast = []
        · rw [single]
          decide
        · rw [List.head?_append_of_ne_nil _ single,
            front_head? single (List.dropLast_prefix _)]
          exact first
      have whole : (save ++ line.dropLast ++ [newline]).IsChain
          fun byte next => byte = newline → next ≠ hash := by
        rw [List.append_assoc]
        exact uncommented_append front joined shown
      have stop : (save ++ line.dropLast ++ [newline]).getLast? ≠ some backslash := by
        rw [List.getLast?_concat]
        decide
      obtain ⟨back, short⟩ := ih got whole stop
      refine ⟨back, le_trans short ?_⟩
      have positive := List.length_pos_iff.mpr nonempty
      have room : line.length + 2 ≤ llen := room
      rw [List.length_append, List.length_append, List.length_dropLast, List.length_singleton]
      omega

theorem ReadsBack.text {fp text rest : List UInt8} (got : getText fp = some (text, rest)) :
    ReadsBack text ∧ text.length + 2 ≤ bufsiz := by
  fun_induction getText fp with
  | case1 => cases got
  | case2 fp more taken ih => exact ih got
  | case3 fp tbuf more taken _ =>
      cases got
      have joint : ([] : List UInt8).getLast? ≠ some backslash := by
        intro last
        cases last
      have line := getlineLoop_readsBack taken List.isChain_nil joint
      rwa [List.length_nil, Nat.zero_add] at line

/-! ## Names -/

/-- The name begins as the text does, or with an escaped separator. -/
theorem ddnameLoop_head? {text : CString} {first : UInt8}
    (begins : (ddnameLoop text).1.head? = some first) :
    isBlank first = true ∨ text.head? = some first := by
  fun_cases ddnameLoop text with
  | case1 => exact .inr begins
  | case2 byte separates =>
      rw [ddnameLoop, if_pos separates] at begins
      cases begins
  | case3 byte visible =>
      rw [ddnameLoop, if_neg visible] at begins
      exact .inr begins
  | case4 byte next rest separates =>
      rw [ddnameLoop, if_pos separates] at begins
      cases begins
  | case5 byte next rest visible escapes =>
      rw [ddnameLoop, if_neg visible, if_pos escapes] at begins
      cases begins
      exact .inl escapes.2
  | case6 byte next rest visible plain =>
      rw [ddnameLoop, if_neg visible, if_neg plain] at begins
      exact .inr begins

theorem ReadsBack.tail {byte next : UInt8} {rest : CString}
    (back : ReadsBack (byte :: next :: rest)) : ReadsBack (next :: rest) where
  uncommented := (List.isChain_cons_cons.mp back.uncommented).2
  unescaped := by
    have last := back.unescaped
    rwa [List.getLast?_cons_cons] at last

theorem ReadsBack.nil : ReadsBack [] := ⟨List.isChain_nil, nofun⟩

theorem ReadsBack.of_suffix {text rest : CString} (back : ReadsBack text) (ends : rest <:+ text) :
    ReadsBack rest where
  uncommented := back.uncommented.suffix ends
  unescaped := by
    by_cases empty : rest = []
    · rw [empty]
      exact nofun
    · obtain ⟨front, rfl⟩ := ends
      have last := back.unescaped
      rwa [List.getLast?_append_of_ne_nil _ empty] at last

/-- A byte in front of a name that reads back. -/
theorem ReadsBack.cons {byte : UInt8} {name : CString} (back : ReadsBack name)
    (visible : byte = newline → name.head? ≠ some hash) (last : name = [] → byte ≠ backslash) :
    ReadsBack (byte :: name) := by
  rcases name with _ | ⟨next, rest⟩
  · refine ⟨List.isChain_singleton _, ?_⟩
    rw [List.getLast?_singleton, Ne, Option.some_inj]
    exact last rfl
  · refine ⟨List.isChain_cons_cons.mpr ⟨?_, back.uncommented⟩, ?_⟩
    · rintro ends rfl
      exact visible ends rfl
    · rw [List.getLast?_cons_cons]
      exact back.unescaped

theorem ddnameLoop_ne_nil {byte : UInt8} (visible : ¬ isBlank byte = true) (rest : CString) :
    (ddnameLoop (byte :: rest)).1 ≠ [] := by
  rcases rest with _ | ⟨next, rest⟩
  · rw [ddnameLoop, if_neg visible]
    exact List.cons_ne_nil _ _
  · rw [ddnameLoop, if_neg visible]
    by_cases escapes : byte = backslash ∧ isBlank next = true
    · rw [if_pos escapes]
      exact List.cons_ne_nil _ _
    · rw [if_neg escapes]
      exact List.cons_ne_nil _ _

theorem ReadsBack.ddnameLoop {text : CString} (back : ReadsBack text) :
    ReadsBack (ddnameLoop text).1 := by
  fun_induction Dumpdates.ddnameLoop text with
  | case1 => exact ReadsBack.nil
  | case2 => exact ReadsBack.nil
  | case3 => exact back
  | case4 => exact ReadsBack.nil
  | case5 byte next rest visible escapes ih =>
      have behind : ReadsBack rest := back.of_suffix ⟨[byte, next], rfl⟩
      refine (ih behind).cons ?_ ?_
      · rintro rfl
        exact absurd escapes.2 (by decide)
      · rintro - rfl
        exact absurd escapes.2 (by decide)
  | case6 byte next rest visible plain ih =>
      refine (ih back.tail).cons ?_ ?_
      · intro ends first
        rcases ddnameLoop_head? first with separates | same
        · exact absurd separates (by decide)
        · cases same
          exact (List.isChain_cons_cons.mp back.uncommented).1 ends rfl
      · -- the name stops behind a backslash only at a separator, which it would escape
        rintro empty rfl
        refine plain ⟨rfl, ?_⟩
        by_contra shown
        exact ddnameLoop_ne_nil shown rest empty

/-- `get_ddname` gives a name that reads back. -/
theorem ReadsBack.getDdname {text : CString} (back : ReadsBack text) :
    ReadsBack (getDdname text).1 :=
  (back.of_suffix (List.dropWhile_suffix _)).ddnameLoop

theorem length_ddnameLoop_le (text : CString) : (ddnameLoop text).1.length ≤ text.length := by
  fun_induction Dumpdates.ddnameLoop text with
  | case1 => exact Nat.le_refl 0
  | case2 => exact Nat.zero_le _
  | case3 => exact Nat.le_refl 1
  | case4 => exact Nat.zero_le _
  | case5 byte next rest visible escapes ih =>
      simp only [List.length_cons]
      omega
  | case6 byte next rest visible plain ih =>
      simp only [List.length_cons] at ih ⊢
      omega

/-- A node that `makedumpdate` fills in has the name of the text, any other has none. -/
theorem ReadsBack.makedumpdate {calendar : Calendar} {stale : Stale} {text : CString}
    (back : ReadsBack text) (short : text.length + 2 ≤ bufsiz) :
    ReadsBack (makedumpdate calendar stale cleared text).2.ddName := by
  have skipped : (skipBlanks text).length ≤ text.length := (List.dropWhile_suffix _).length_le
  have named : (Dumpdates.getDdname text).1.length ≤ (skipBlanks text).length :=
    length_ddnameLoop_le _
  have whole : (Dumpdates.getDdname text).1.take (tlmMaxPathName - 1) =
      (Dumpdates.getDdname text).1 := by
    apply List.take_of_length_le
    have most : tlmMaxPathName = 1088 := rfl
    have room : bufsiz = 1024 := rfl
    omega
  unfold Dumpdates.makedumpdate
  dsimp only
  split
  · exact ReadsBack.nil
  · split
    · exact ReadsBack.nil
    · rw [whole]
      exact back.getDdname

/-- The name of every record that can be read. -/
theorem ReadsBack.getrecord {calendar : Calendar} {stale : Stale} {fp rest : List UInt8}
    {record : Dumpdates} (got : getrecord calendar stale fp = some (record, rest)) :
    ReadsBack record.ddName := by
  obtain ⟨⟨text, more⟩, line, parsed⟩ := Option.map_eq_some_iff.mp got
  cases parsed
  obtain ⟨back, short⟩ := ReadsBack.text line
  exact back.makedumpdate short

end Dumpdates

end Ndmpd
