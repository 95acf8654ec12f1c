import Ndmpd.Dates.DumpdatesFields
import Ndmpd.Dates.DumpdatesRead

/-!
# Round trip of the dumpdates file

The lines that `dumprecout` prints for a record are joined again by `getlineNdmpd` when
no continued line looks like a comment and the joined line fits the buffer; otherwise the
record and all behind it are lost (`getlineLoop_record`). From the joined line the fields
are read back (`Recordable.makedumpdate`) when the name does not end in a backslash. So a
list of records is read back exactly when each of them is `Storable`
(`readdumptimes_writeRecords_iff`).
-/

namespace Ndmpd

open Foundation

namespace Dumpdates

/-- A name as the joined line of its record holds it: newlines have lost their
backslash. -/
def joinedName (name : CString) : CString :=
  name.flatMap fun byte => if isBlank byte then [backslash, byte] else [byte]

/-- A record that can be read back: its name ends in no backslash and has no comment sign
behind a newline, and the line with its 29 bytes for separators, level, date, newline and
NUL fits the buffer. -/
structure Storable (record : Dumpdates) : Prop where
  readsBack : ReadsBack record.ddName
  fits : record.ddName.length + record.ddName.countP isBlank + 29 ≤ bufsiz

/-- A record as the callers make it, for a path name and a level backup. -/
structure Recordable (calendar : Calendar) (record : Dumpdates) : Prop where
  absolute : record.ddName.head? = some 47
  nulFree : NulFree record.ddName
  short : record.ddName.length < pathMax
  level : 0 ≤ record.ddLevel ∧ record.ddLevel ≤ 9
  date : calendar.Inverts record.ddDdate

/-! ## Joining the lines -/

/-- One line, which may be continued. -/
theorem getlineLoop_line {line : CString} (nulFree : NulFree line) (noNewline : newline ∉ line)
    (nonempty : line ≠ []) (visible : line.head? ≠ some hash) (save rest : List UInt8)
    (llen : Nat) :
    getlineLoop (line ++ newline :: rest) save llen =
      if line.length + 2 ≤ llen then
        if line.getLast? ≠ some backslash then some (save ++ line, rest)
        else getlineLoop rest (save ++ line.dropLast ++ [newline]) (llen - line.length)
      else none := by
  have more : line ++ newline :: rest ≠ [] :=
    List.append_ne_nil_of_right_ne_nil _ (List.cons_ne_nil _ _)
  by_cases fits : line.length + 2 ≤ llen
  · have room : ¬ (line ++ newline :: rest = [] ∨ llen < 2) := by
      rw [not_or]
      exact ⟨more, by omega⟩
    have taken : fgets llen (line ++ newline :: rest) = some (line ++ [newline], rest) := by
      rw [fgets, if_neg room, takeLine_line noNewline rest (by omega)]
    have string : cstring (line ++ [newline]) = line ++ [newline] := by
      apply cstring_of_nulFree
      rw [NulFree, List.mem_append, not_or]
      exact ⟨nulFree, by decide⟩
    have first : (line ++ [newline]).head? = line.head? := List.head?_append_of_ne_nil _ nonempty
    have closed : (line ++ [newline]).getLast? = some newline := List.getLast?_concat
    have filled : line ++ [newline] ≠ [] := List.append_ne_nil_of_left_ne_nil nonempty _
    rw [if_pos fits, getlineLoop]
    split
    · rename_i got
      rw [taken] at got
      cases got
    · rename_i chunk behind got
      rw [taken] at got
      cases got
      rw [string, first, if_neg visible, if_neg filled, closed, if_neg (not_not.mpr rfl),
        List.dropLast_concat, if_neg nonempty]
  · rw [if_neg fits, getlineLoop]
    split
    · rfl
    · rename_i chunk behind got
      by_cases refused : line ++ newline :: rest = [] ∨ llen < 2
      · rw [fgets, if_pos refused] at got
        cases got
      · -- what was taken is the front of the line, which has no newline
        obtain ⟨-, room⟩ := not_or.mp refused
        rw [fgets, if_neg refused, Option.some_inj] at got
        have cut : chunk = line.take (llen - 1) := by
          rw [← takeLine_cut noNewline (newline :: rest) (by omega), got]
        have front : chunk <+: line := cut ▸ List.take_prefix _ _
        have started : chunk ≠ [] := by
          rw [cut]
          intro empty
          rcases List.take_eq_nil_iff.mp empty with none | none
          · omega
          · exact nonempty none
        have string : cstring chunk = chunk :=
          cstring_of_nulFree fun listed => nulFree (front.subset listed)
        have unclosed : chunk.getLast? ≠ some newline := by
          intro closed
          exact noNewline (front.subset (List.mem_of_getLast? closed))
        rw [string, front_head? started front, if_neg visible, if_neg started, if_pos unclosed]

theorem joinedName_append (first second : CString) :
    joinedName (first ++ second) = joinedName first ++ joinedName second :=
  List.flatMap_append

theorem length_joinedName (name : CString) :
    (joinedName name).length = name.length + name.countP isBlank := by
  induction name with
  | nil => rfl
  | cons byte name ih =>
      have split : joinedName (byte :: name) =
          (if isBlank byte then [backslash, byte] else [byte]) ++ joinedName name :=
        List.flatMap_cons
      rw [split, List.length_append, ih, List.length_cons]
      by_cases separates : isBlank byte = true
      · rw [if_pos separates, List.countP_cons_of_pos separates, List.length_cons,
          List.length_singleton]
        omega
      · rw [if_neg separates, List.countP_cons_of_neg separates, List.length_singleton]
        omega

/-- A name without newlines is printed on one line. -/
theorem putDdname_line {name : CString} (noNewline : newline ∉ name) :
    putDdname name = joinedName name := by
  apply List.flatMap_congr
  intro byte listed
  have other : byte ≠ newline := fun same => noNewline (same ▸ listed)
  by_cases separates : isBlank byte = true
  · have blanks : byte = tab ∨ byte = blank := of_decide_eq_true separates
    rw [if_pos separates, if_pos (by tauto)]
  · have visible : ¬ (byte = tab ∨ byte = blank) := fun blanks => separates (decide_eq_true blanks)
    rw [if_neg separates, if_neg (by tauto)]

theorem joinedName_notMem {name : CString} {absent : UInt8} (other : absent ≠ backslash)
    (outside : absent ∉ name) : absent ∉ joinedName name := by
  intro listed
  obtain ⟨byte, inName, inEscape⟩ := List.mem_flatMap.mp listed
  by_cases separates : isBlank byte = true
  · rw [if_pos separates] at inEscape
    rcases List.mem_cons.mp inEscape with escape | same
    · exact other escape
    · exact outside (List.mem_singleton.mp same ▸ inName)
  · rw [if_neg separates] at inEscape
    exact outside (List.mem_singleton.mp inEscape ▸ inName)

/-- A joined name shows a comment sign at its start only if the name does. -/
theorem joinedName_head? {name : CString} (visible : name.head? ≠ some hash) :
    (joinedName name).head? ≠ some hash := by
  rcases name with _ | ⟨byte, name⟩
  · exact nofun
  · have split : joinedName (byte :: name) =
        (if isBlank byte then [backslash, byte] else [byte]) ++ joinedName name :=
      List.flatMap_cons
    rw [split]
    by_cases separates : isBlank byte = true
    · rw [if_pos separates, List.cons_append, List.head?_cons]
      decide
    · rw [if_neg separates, List.cons_append, List.head?_cons]
      exact visible

/-- What `dumprecout` prints behind the name, without the newline. -/
structure RecordTail (tail : CString) : Prop where
  nulFree : NulFree tail
  noNewline : newline ∉ tail
  head : tail.head? = some tab
  last : tail.getLast? ≠ some backslash

/-- The lines of a record are joined when they fit the buffer; otherwise nothing is
read. -/
theorem getlineLoop_record {tail : CString} (closes : RecordTail tail) (rest : List UInt8) :
    ∀ {name : CString}, NulFree name →
      (name.IsChain fun byte next => byte = newline → next ≠ hash) → name.head? ≠ some hash →
      ∀ (save : CString) (llen : Nat),
        getlineLoop (putDdname name ++ (tail ++ newline :: rest)) save llen =
          if (joinedName name ++ tail).length + 2 ≤ llen then
            some (save ++ (joinedName name ++ tail), rest)
          else none := by
  intro name
  have tailNonempty : tail ≠ [] := by
    intro empty
    have head := closes.head
    rw [empty] at head
    cases head
  induction length : name.length using Nat.strong_induction_on generalizing name with
  | _ count ih =>
    intro nulFree uncommented visible save llen
    by_cases inside : newline ∈ name
    · -- the name up to its first newline is a continued line
      obtain ⟨segment, later, rfl, noNewline⟩ := List.eq_append_cons_of_mem inside
      obtain ⟨segmentChain, laterChain, -⟩ := List.isChain_append.mp uncommented
      obtain ⟨segmentFree, laterFree⟩ : NulFree segment ∧ NulFree later := by
        rw [NulFree, List.mem_append, List.mem_cons, not_or, not_or] at nulFree
        exact ⟨nulFree.1, nulFree.2.2⟩
      have laterVisible : later.head? ≠ some hash := by
        rcases later with _ | ⟨next, later⟩
        · exact nofun
        · rw [List.head?_cons, Ne, Option.some_inj]
          exact (List.isChain_cons_cons.mp laterChain).1 rfl
      have shorter : later.length < count := by
        rw [List.length_append, List.length_cons] at length
        omega
      have printed : putDdname (segment ++ newline :: later) =
          joinedName segment ++ backslash :: newline :: putDdname later := by
        rw [← putDdname_line noNewline]
        exact List.flatMap_append
      have joined : joinedName (segment ++ newline :: later) =
          joinedName segment ++ newline :: joinedName later := joinedName_append _ _
      have whole : putDdname (segment ++ newline :: later) ++ (tail ++ newline :: rest) =
          (joinedName segment ++ [backslash]) ++
            newline :: (putDdname later ++ (tail ++ newline :: rest)) := by
        rw [printed]
        simp only [List.append_assoc, List.cons_append, List.nil_append]
      have lineFree : NulFree (joinedName segment ++ [backslash]) := by
        rw [NulFree, List.mem_append, not_or]
        exact ⟨joinedName_notMem (by decide) segmentFree, by decide⟩
      have single : newline ∉ joinedName segment ++ [backslash] := by
        rw [List.mem_append, not_or]
        exact ⟨joinedName_notMem (by decide) noNewline, by decide⟩
      have first : (joinedName segment ++ [backslash]).head? ≠ some hash := by
        rcases segment with _ | ⟨byte, segment⟩
        · decide
        · have started : joinedName (byte :: segment) ≠ [] := by
            rw [← List.length_pos_iff, length_joinedName, List.length_cons]
            omega
          rw [List.head?_append_of_ne_nil _ started]
          exact joinedName_head? visible
      have continued : ¬ (joinedName segment ++ [backslash]).getLast? ≠ some backslash := by
        rw [List.getLast?_concat]
        exact not_not.mpr rfl
      rw [whole, getlineLoop_line lineFree single
        (List.append_ne_nil_of_right_ne_nil _ (List.cons_ne_nil _ _)) first, if_neg continued,
        List.dropLast_concat,
        ih _ shorter rfl laterFree (List.isChain_of_isChain_cons laterChain) laterVisible, joined]
      by_cases fits : (joinedName segment ++ [backslash]).length + 2 ≤ llen
      · rw [if_pos fits]
        refine if_congr ?_ ?_ rfl
        · simp only [List.length_append, List.length_cons, List.length_nil] at fits ⊢
          omega
        · simp only [List.append_assoc, List.cons_append, List.nil_append]
      · rw [if_neg fits, if_neg]
        simp only [List.length_append, List.length_cons, List.length_nil] at fits ⊢
        omega
    · have whole : putDdname name ++ (tail ++ newline :: rest) =
          (joinedName name ++ tail) ++ newline :: rest := by
        rw [putDdname_line inside, List.append_assoc]
      have plain : NulFree (joinedName name ++ tail) := by
        rw [NulFree, List.mem_append, not_or]
        exact ⟨joinedName_notMem (by decide) nulFree, closes.nulFree⟩
      have single : newline ∉ joinedName name ++ tail := by
        rw [List.mem_append, not_or]
        exact ⟨joinedName_notMem (by decide) inside, closes.noNewline⟩
      have first : (joinedName name ++ tail).head? ≠ some hash := by
        by_cases empty : joinedName name = []
        · rw [empty, List.nil_append, closes.head]
          decide
        · rw [List.head?_append_of_ne_nil _ empty]
          exact joinedName_head? visible
      have last : (joinedName name ++ tail).getLast? ≠ some backslash := by
        rw [List.getLast?_append_of_ne_nil _ tailNonempty]
        exact closes.last
      rw [whole, getlineLoop_line plain single
        (List.append_ne_nil_of_right_ne_nil _ tailNonempty) first, if_pos last]

/-! ## Parsing the joined line -/

theorem joinedName_visible {name : CString} (nonempty : name ≠ []) :
    ∃ next more, joinedName name = next :: more ∧ ¬ isBlank next = true := by
  obtain ⟨byte, name, rfl⟩ := List.exists_cons_of_ne_nil nonempty
  have split : joinedName (byte :: name) =
      (if isBlank byte then [backslash, byte] else [byte]) ++ joinedName name :=
    List.flatMap_cons
  by_cases separates : isBlank byte = true
  · rw [if_pos separates] at split
    exact ⟨backslash, byte :: joinedName name, split, by decide⟩
  · rw [if_neg separates] at split
    exact ⟨byte, joinedName name, split, separates⟩

/-- The name is cut out of the joined line when it does not end in a backslash. -/
theorem ddnameLoop_joinedName {name : CString} (unescaped : name.getLast? ≠ some backslash)
    (memory : CString) : ddnameLoop (joinedName name ++ tab :: memory) = (name, memory) := by
  induction name with
  | nil =>
      rcases memory with _ | ⟨next, memory⟩
      · rfl
      · rfl
  | cons byte name ih =>
      have later : name.getLast? ≠ some backslash := by
        rcases name with _ | ⟨next, name⟩
        · exact nofun
        · rwa [List.getLast?_cons_cons] at unescaped
      have split : joinedName (byte :: name) =
          (if isBlank byte then [backslash, byte] else [byte]) ++ joinedName name :=
        List.flatMap_cons
      by_cases separates : isBlank byte = true
      · rw [split, if_pos separates, List.cons_append, List.cons_append, List.singleton_append,
          List.cons_append, ddnameLoop, if_neg (by decide), if_pos ⟨rfl, separates⟩, ih later]
      · have plain : ∀ next more, joinedName name ++ tab :: memory = next :: more →
            ¬ (byte = backslash ∧ isBlank next = true) := by
          rintro next more shape ⟨rfl, blankNext⟩
          have nonempty : name ≠ [] := by
            rintro rfl
            exact unescaped rfl
          obtain ⟨first, others, begins, visible⟩ := joinedName_visible nonempty
          rw [begins, List.cons_append] at shape
          cases shape
          exact visible blankNext
        obtain ⟨next, more, shape⟩ := List.exists_cons_of_ne_nil
          (List.append_ne_nil_of_right_ne_nil (joinedName name) (List.cons_ne_nil tab memory))
        rw [split, if_neg separates, List.singleton_append, List.cons_append, shape, ddnameLoop,
          if_neg separates, if_neg (plain next more shape), ← shape, ih later]

/-- What is printed behind the name of a record. -/
def tailOf (calendar : Calendar) (record : Dumpdates) : CString :=
  tab :: (putDdlevel record.ddLevel ++ tab :: (calendar.localtime record.ddDdate).text)

theorem dumprecout_eq (calendar : Calendar) (record : Dumpdates) :
    dumprecout calendar record =
      putDdname record.ddName ++ (tailOf calendar record ++ [newline]) := by
  simp only [dumprecout, tailOf, ctimeR, List.append_assoc, List.cons_append, List.nil_append]

theorem tailOf_plain (calendar : Calendar) (record : Dumpdates) {byte : UInt8}
    (listed : byte ∈ tailOf calendar record) : byte = tab ∨ Plain byte := by
  rcases List.mem_cons.mp listed with first | listed
  · exact .inl first
  rcases List.mem_append.mp listed with level | listed
  · exact .inr (putDdlevel_plain _ byte level)
  rcases List.mem_cons.mp listed with second | text
  · exact .inl second
  · exact .inr (Tm.plain_text _ byte text)

theorem recordTail_tailOf (calendar : Calendar) (record : Dumpdates) :
    RecordTail (tailOf calendar record) where
  nulFree := by
    intro listed
    rcases tailOf_plain calendar record listed with same | plain
    · exact absurd same (by decide)
    · exact absurd plain (by decide)
  noNewline := by
    intro listed
    rcases tailOf_plain calendar record listed with same | plain
    · exact absurd same (by decide)
    · exact absurd plain (by decide)
  head := rfl
  last := by
    intro last
    rcases tailOf_plain calendar record (List.mem_of_getLast? last) with same | plain
    · exact absurd same (by decide)
    · exact absurd plain (by decide)

section Record

variable {calendar : Calendar} {record : Dumpdates} (made : Recordable calendar record)

include made

theorem Recordable.putDdlevel : putDdlevel record.ddLevel = numeral 10 record.ddLevel.toNat :=
  putDdlevel_number made.level.1 made.level.2

theorem Recordable.length_tail : (tailOf calendar record).length = 27 := by
  obtain ⟨low, high⟩ := made.level
  have upper : (numeral 10 record.ddLevel.toNat).length ≤ 1 :=
    length_numeral_le (by decide) (by decide) (by omega)
  have lower := List.length_pos_iff.mpr (@numeral_ne_nil 10 record.ddLevel.toNat)
  have single : (numeral 10 record.ddLevel.toNat).length = 1 := by omega
  simp only [tailOf, made.putDdlevel, List.length_cons, List.length_append, single,
    made.date.usual.length_text]

/-- A joined line gives its record back. -/
theorem Recordable.makedumpdate (stale : Stale) (storable : Storable record) :
    makedumpdate calendar stale cleared (joinedName record.ddName ++ tailOf calendar record) =
      (0, record) := by
  obtain ⟨low, high⟩ := made.level
  obtain ⟨first, letter, visible⟩ := made.date.usual.text_head?
  have nameStart : skipBlanks (joinedName record.ddName ++ tailOf calendar record) =
      joinedName record.ddName ++ tailOf calendar record := by
    have nonempty : record.ddName ≠ [] := by
      intro empty
      have slash := made.absolute
      rw [empty] at slash
      cases slash
    obtain ⟨next, more, shape, shown⟩ := joinedName_visible nonempty
    rw [shape, List.cons_append]
    exact List.dropWhile_cons_of_neg shown
  have name : getDdname (joinedName record.ddName ++ tailOf calendar record) =
      (record.ddName,
        numeral 10 record.ddLevel.toNat ++ tab :: (calendar.localtime record.ddDdate).text) := by
    rw [getDdname, nameStart, tailOf, made.putDdlevel]
    exact ddnameLoop_joinedName storable.readsBack.unescaped _
  have level := getDdlevel_number (show record.ddLevel.toNat < 128 by omega)
    ((calendar.localtime record.ddDdate).text ++ 0 :: stale.tbuf)
  rw [Int.toNat_of_nonneg low] at level
  have date : getDdate ((calendar.localtime record.ddDdate).text ++ 0 :: stale.tbuf) =
      (calendar.localtime record.ddDdate).text := by
    have nulFree : NulFree (calendar.localtime record.ddDdate).text := by
      intro listed
      exact absurd (Tm.plain_text _ 0 listed) (by decide)
    have shown : skipBlanks ((calendar.localtime record.ddDdate).text ++ 0 :: stale.tbuf) =
        (calendar.localtime record.ddDdate).text ++ 0 :: stale.tbuf := by
      rcases text : (calendar.localtime record.ddDdate).text with _ | ⟨byte, more⟩
      · rw [text] at letter
        cases letter
      · rw [text] at letter
        cases letter
        exact List.dropWhile_cons_of_neg (by rw [visible]; decide)
    rw [getDdate, shown, cstring_append_nul nulFree]
  have whole : record.ddName.take (tlmMaxPathName - 1) = record.ddName := by
    apply List.take_of_length_le
    have short := made.short
    have path : pathMax = 1024 := rfl
    have most : tlmMaxPathName = 1088 := rfl
    omega
  unfold Dumpdates.makedumpdate
  dsimp only
  rw [name]
  dsimp only
  rw [List.append_assoc, List.cons_append, level]
  dsimp only
  rw [if_neg (by omega), date, unctime_text made.date]
  dsimp only
  rw [whole]

/-- The first record of a file, whose name is not mistaken for a comment. -/
theorem Recordable.getrecord (stale : Stale)
    (uncommented : record.ddName.IsChain fun byte next => byte = newline → next ≠ hash)
    (rest : List UInt8) :
    getrecord calendar stale (dumprecout calendar record ++ rest) =
      if record.ddName.length + record.ddName.countP isBlank + 29 ≤ bufsiz then
        some ((Dumpdates.makedumpdate calendar stale cleared
          (joinedName record.ddName ++ tailOf calendar record)).2, rest)
      else none := by
  have visible : record.ddName.head? ≠ some hash := by
    rw [made.absolute]
    decide
  have line := getlineLoop_record (recordTail_tailOf calendar record) rest made.nulFree
    uncommented visible [] bufsiz
  have length : (joinedName record.ddName ++ tailOf calendar record).length + 2 =
      record.ddName.length + record.ddName.countP isBlank + 29 := by
    rw [List.length_append, length_joinedName, made.length_tail]
  have nonempty : joinedName record.ddName ++ tailOf calendar record ≠ [] := by
    rw [← List.length_pos_iff]
    omega
  have shape : dumprecout calendar record ++ rest =
      putDdname record.ddName ++ (tailOf calendar record ++ newline :: rest) := by
    rw [dumprecout_eq]
    simp only [List.append_assoc, List.cons_append, List.nil_append]
  rw [length, ← shape, List.nil_append] at line
  rw [Dumpdates.getrecord, getText]
  split
  · rename_i got
    rw [getlineNdmpd, line] at got
    by_cases fits : record.ddName.length + record.ddName.countP isBlank + 29 ≤ bufsiz
    · rw [if_pos fits] at got
      cases got
    · rw [if_neg fits]
      rfl
  · rename_i text behind got
    rw [getlineNdmpd, line] at got
    by_cases fits : record.ddName.length + record.ddName.countP isBlank + 29 ≤ bufsiz
    · rw [if_pos fits] at got
      cases got
      rw [if_neg nonempty, if_pos fits]
      rfl
    · rw [if_neg fits] at got
      cases got

/-- A record that can be stored is the first one read back. -/
theorem Recordable.getrecord_storable (stale : Stale) (storable : Storable record)
    (rest : List UInt8) :
    Dumpdates.getrecord calendar stale (dumprecout calendar record ++ rest) =
      some (record, rest) := by
  rw [made.getrecord stale storable.readsBack.uncommented, if_pos storable.fits,
    made.makedumpdate stale storable]

/-- A record that is read back from the front of the file can be stored. -/
theorem Recordable.storable_of_getrecord {stale : Stale} {rest behind : List UInt8}
    (got : Dumpdates.getrecord calendar stale (dumprecout calendar record ++ rest) =
      some (record, behind)) : Storable record ∧ behind = rest := by
  have back := ReadsBack.getrecord got
  rw [made.getrecord stale back.uncommented] at got
  by_cases fits : record.ddName.length + record.ddName.countP isBlank + 29 ≤ bufsiz
  · rw [if_pos fits, Option.some_inj] at got
    exact ⟨⟨back, fits⟩, (congrArg Prod.snd got).symm⟩
  · rw [if_neg fits] at got
    cases got

end Record

/-! ## The file -/

theorem getrecord_nil (calendar : Calendar) (stale : Stale) :
    getrecord calendar stale [] = none := by
  rw [getrecord, getText]
  split
  · rfl
  · rename_i text behind got
    rw [getlineNdmpd, getlineLoop] at got
    split at got
    · cases got
    · rename_i taken
      cases taken

theorem readRecords_nil (calendar : Calendar) (stale : Nat → Stale) (recno : Nat) :
    readRecords calendar stale recno [] = [] := by
  rw [readRecords]
  split
  · rfl
  · rename_i got
    rw [getrecord_nil] at got
    cases got

/-- Records that can be stored are read back. -/
theorem readRecords_writeRecords {calendar : Calendar} {stale : Nat → Stale}
    {records : List Dumpdates} (made : ∀ record ∈ records, Recordable calendar record)
    (storable : ∀ record ∈ records, Storable record) (recno : Nat) :
    readRecords calendar stale recno (writeRecords calendar records) = records := by
  induction records generalizing recno with
  | nil => exact readRecords_nil calendar stale recno
  | cons record records ih =>
      have first := (made record List.mem_cons_self).getrecord_storable (stale recno)
        (storable record List.mem_cons_self) (writeRecords calendar records)
      have later := ih (fun other listed => made other (List.mem_cons_of_mem _ listed))
        (fun other listed => storable other (List.mem_cons_of_mem _ listed)) (recno + 1)
      rw [writeRecords, List.flatMap_cons, readRecords]
      split
      · rename_i got
        rw [← writeRecords, first] at got
        cases got
      · rename_i ddwalk rest got
        rw [← writeRecords, first] at got
        cases got
        rw [later]

/-- A list that is read back has only records that can be stored. -/
theorem storable_of_readRecords {calendar : Calendar} {stale : Nat → Stale}
    {records : List Dumpdates} (made : ∀ record ∈ records, Recordable calendar record) {recno : Nat}
    (read : readRecords calendar stale recno (writeRecords calendar records) = records) :
    ∀ record ∈ records, Storable record := by
  induction records generalizing recno with
  | nil => exact nofun
  | cons record records ih =>
      rw [writeRecords, List.flatMap_cons, readRecords] at read
      split at read
      · cases read
      · rename_i ddwalk rest got
        rw [List.cons.injEq] at read
        obtain ⟨rfl, behind⟩ := read
        obtain ⟨first, rfl⟩ := (made ddwalk List.mem_cons_self).storable_of_getrecord got
        have later := ih (fun other listed => made other (List.mem_cons_of_mem _ listed)) behind
        intro other listed
        rcases List.mem_cons.mp listed with rfl | listed
        · exact first
        · exact later other listed

/-- **The dumpdates file round trip.** The text of a list of records is read back as this
list exactly when every record can be stored. -/
theorem readdumptimes_writeRecords_iff (calendar : Calendar) (stale : Nat → Stale)
    (records : List Dumpdates) (made : ∀ record ∈ records, Recordable calendar record) :
    readdumptimes calendar stale (writeRecords calendar records) = records ↔
      ∀ record ∈ records, Storable record := by
  constructor
  · intro read
    exact storable_of_readRecords made read
  · intro storable
    exact readRecords_writeRecords made storable 1

/-- The dates of January 1970 in universal time. -/
def january : Calendar where
  localtime date :=
    { tmSec := date % 60
      tmMin := date / 60 % 60
      tmHour := date / 3600 % 24
      tmMday := date / 86400 + 1
      tmMon := 0
      tmYear := 70
      tmWday := (date / 86400 + 4) % 7
      tmYday := date / 86400
      tmIsdst := 0 }
  mktime broken :=
    (((broken.tmMday - 1) * 24 + broken.tmHour) * 60 + broken.tmMin) * 60 + broken.tmSec

theorem january_inverts {date : Int} (low : 0 ≤ date) (high : date < 31 * 86400) :
    january.Inverts date := by
  refine ⟨⟨?_, ?_, ?_, ?_, ?_, ?_, ?_⟩, ?_⟩
  all_goals
    simp only [january]
    omega

/-- Buffers that hold nothing yet. -/
def noStale : Nat → Stale := fun _ => ⟨[], CharArray.zero 26⟩

/-- Two records whose names have all the bytes that are escaped. -/
def escapedNames : List Dumpdates :=
  [⟨"/export\\home\tof a\n\nuser".toUTF8.toList, 0, 3661⟩, ⟨"/# 1".toUTF8.toList, 9, 90000⟩]

theorem escapedNames_recordable : ∀ record ∈ escapedNames, Recordable january record := by
  intro record listed
  rcases List.mem_cons.mp listed with rfl | listed
  · exact ⟨by decide +kernel, by decide +kernel, by decide +kernel, by decide,
      january_inverts (by decide) (by decide)⟩
  · rw [List.mem_singleton] at listed
    subst listed
    exact ⟨by decide +kernel, by decide +kernel, by decide +kernel, by decide,
      january_inverts (by decide) (by decide)⟩

theorem escapedNames_storable : ∀ record ∈ escapedNames, Storable record := by
  intro record listed
  rcases List.mem_cons.mp listed with rfl | listed
  · exact ⟨⟨by decide +kernel, by decide +kernel⟩, by decide +kernel⟩
  · rw [List.mem_singleton] at listed
    subst listed
    exact ⟨⟨by decide +kernel, by decide +kernel⟩, by decide +kernel⟩

theorem readdumptimes_writeRecords_escapedNames :
    readdumptimes january noStale (writeRecords january escapedNames) = escapedNames :=
  (readdumptimes_writeRecords_iff january noStale escapedNames escapedNames_recordable).mpr
    escapedNames_storable

/-- A path name that ends in a backslash. -/
def backslashName : Dumpdates := ⟨"/a\\".toUTF8.toList, 0, 3661⟩

theorem backslashName_recordable : Recordable january backslashName :=
  ⟨by decide +kernel, by decide +kernel, by decide +kernel, by decide,
    january_inverts (by decide) (by decide)⟩

/-- The record of such a path name is not read back: the backslash escapes the separator
behind the name. -/
theorem backslashName_lost :
    Recordable january backslashName ∧
      readdumptimes january noStale (writeRecords january [backslashName]) ≠ [backslashName] := by
  refine ⟨backslashName_recordable, ?_⟩
  intro read
  have made : ∀ record ∈ [backslashName], Recordable january record := by
    intro record listed
    rw [List.mem_singleton.mp listed]
    exact backslashName_recordable
  have storable := storable_of_readRecords made read backslashName List.mem_cons_self
  exact storable.readsBack.unescaped (by decide +kernel)

end Dumpdates

end Ndmpd
