import Ndmpd.Backup.SplitEnv
import Ndmpd.Dates.DumpdatesStore

/-!
# Appending a date

`append_dumptime` copies the file to its `.bak`, appends the record there and renames the copy.
`filecopy` copies all bytes when no call fails, but nothing ever sets the variable that its
result is taken from, so that a copy is never reported (`filecopy_ne_zero`). A file that is
there is therefore never appended to (`copied_iff`), and for one that is not there the record
goes behind what an older `.bak` holds (`appendDumptime_absent`).
-/

namespace Ndmpd

open Foundation

namespace Dumpdates

/-- The contents of the files at all paths; an absent file is `none`. -/
abbrev Files : Type := CString → Option (List UInt8)

/-- `BUFSIZE`. -/
abbrev bufsize : Nat := 32768

/-- How the calls turn out that `filecopy` makes. -/
structure CopyIo where
  malloc : Bool
  /-- `fopen` of a source that is there, and of the destination. -/
  srcOpened : Bool
  destOpened : Bool
  /-- `stat` of the source, before and after the loop. -/
  statted : Bool
  restatted : Bool
  /-- So many bytes can be read before an error. -/
  readable : Nat
  /-- So many bytes does `fwrite` take before an error, and so many of these reach the
  destination before it is closed. -/
  taken : Nat
  written : Nat
  reached : written ≤ taken

/-- The loop of `filecopy`: the bytes that are not copied and all that were handed to
`fwrite`. -/
def copyLoop (io : CopyIo) (text : List UInt8) (bytesToCopy : Nat) (copied : List UInt8) :
    Nat × List UInt8 :=
  if bytesToCopy = 0 then (0, copied)
  else
    let nbytes := if bufsize < bytesToCopy then bufsize else bytesToCopy
    let buf := (text.drop copied.length).take nbytes
    if buf.length < nbytes ∨ io.readable < copied.length + nbytes then (bytesToCopy, copied)
    else if io.taken < copied.length + nbytes then (bytesToCopy, copied ++ buf)
    else copyLoop io text (bytesToCopy - nbytes) (copied ++ buf)
termination_by bytesToCopy
decreasing_by
  have limit : bufsize = 32768 := rfl
  split
  · omega
  · omega

/-- `filecopy`: its result and the files. -/
def filecopy (io : CopyIo) (dest src : CString) (files : Files) : Int × Files :=
  if ¬ io.malloc then (-1, files)
  else if (files src).isNone ∨ ¬ io.srcOpened then (-2, files)
  else if ¬ io.destOpened then (-3, files)
  else
    let files := Function.update files dest (some [])
    if ¬ io.statted then (-2, files)
    else
      let text := (files src).getD []
      let (bytesToCopy, copied) := copyLoop io text text.length []
      let files := Function.update files dest (some (copied.take io.written))
      if 0 < bytesToCopy then (-4, files)
      else if ¬ io.restatted then (-2, files)
      else
        -- no path through the function sets `file_copied`
        let fileCopied : Int := 0
        if fileCopied = 0 then (-5, files) else (0, files)

/-- How the calls turn out that `append_dumptime` makes, and what its buffer for the path
holds before. -/
structure AppendIo where
  /-- The value of `NDMP_DEBUG_PATH`, and `fs_is_valid_logvol` of it. -/
  debugPath : Option CString
  validLogvol : Bool
  buf : CString
  /-- `fopen` of a file that is there, to see if it can be read. -/
  opened : Bool
  copy : CopyIo
  /-- `fopen` of the `.bak` file. -/
  bakOpened : Bool
  /-- So many bytes of the record reach the `.bak` file before it is closed. -/
  written : Nat
  renamed : Bool

/-- `trim_whitespace`. -/
def trimWhitespace (buf : CString) : CString := (buf.dropWhile isspace).rdropWhile isspace

/-- The end of a path that `strrchr(3)` finds for a slash, or else the path. -/
def lastName (fname : CString) : CString :=
  if slash ∈ fname then slash :: fname.rtakeWhile (· ≠ slash) else fname

/-- `ndmpd_make_bk_dir_path`. The result of `tlm_cat_path` is dropped. -/
def ndmpdMakeBkDirPath (io : AppendIo) (fname : CString) : Option CString :=
  if fname = [] then none
  else
    match io.debugPath with
    | none => none
    | some p =>
        if p = [] ∨ ¬ io.validLogvol then none
        else
          let path := trimWhitespace (p.take (pathMax - 1))
          some ((tlmCatPath path (lastName fname)).getD io.buf)

/-- The path of the `.bak` file, as `snprintf(3)` cuts it off. -/
def bakPath (fpath : CString) : CString := (fpath ++ [46, 98, 97, 107]).take (pathMax - 1)

/-- `append_dumptime`: its result and the files. A `NULL` is treated as an empty string. -/
def appendDumptime (calendar : Calendar) (io : AppendIo) (fname path : CString)
    (level ddate : Int) (files : Files) : Int × Files :=
  if fname = [] ∨ path = [] then (-1, files)
  else
    match ndmpdMakeBkDirPath io fname with
    | none => (-1, files)
    | some fpath =>
        let bakfpath := bakPath fpath
        let (rv, files) :=
          if (files fpath).isSome ∧ io.opened then filecopy io.copy bakfpath fpath files
          else (0, files)
        if rv ≠ 0 then (-1, files)
        else if ¬ io.bakOpened then (-1, files)
        else
          let line := dumprecout calendar
            ⟨path.take (tlmMaxPathName - 1), level.bmod (2 ^ 8), ddate⟩
          let files := Function.update files bakfpath
            (some ((files bakfpath).getD [] ++ line.take io.written))
          -- a file is not changed by giving it the name that it has
          if io.renamed ∧ bakfpath ≠ fpath then
            (0, Function.update (Function.update files fpath (files bakfpath)) bakfpath none)
          else (0, files)

/-! ## Copies -/

/-- A copy is reported exactly when the two files are equal. -/
def ReportsCopy (dest src : CString) (result : Int × Files) : Prop :=
  result.1 = 0 ↔ ∃ text, result.2 src = some text ∧ result.2 dest = some text

/-- The destination becomes equal to the source: all bytes can be read and reach it, or it is
emptied like the source, or is the source itself. Where nothing is opened to be written, it has
been equal before. -/
def CopyIo.Copies (io : CopyIo) (dest src : CString) (files : Files) : Prop :=
  ∃ text, files src = some text ∧
    if io.malloc ∧ io.srcOpened ∧ io.destOpened then
      dest = src ∨ text = [] ∨
        io.statted ∧ text.length ≤ io.readable ∧ text.length ≤ io.written
    else files dest = some text

/-- No copy is ever reported. -/
theorem filecopy_ne_zero (io : CopyIo) (dest src : CString) (files : Files) :
    (filecopy io dest src files).1 ≠ 0 := by
  unfold filecopy
  dsimp only
  split
  · simp
  split
  · simp
  split
  · simp
  split
  · simp
  split
  · simp
  split
  · simp
  · rw [if_pos rfl]
    simp

/-- A chunk is not empty, and is no longer than what is left. -/
theorem nbytes_bounds {bytesToCopy : Nat} (more : ¬ bytesToCopy = 0) :
    0 < (if bufsize < bytesToCopy then bufsize else bytesToCopy) ∧
      (if bufsize < bytesToCopy then bufsize else bytesToCopy) ≤ bytesToCopy := by
  have limit : bufsize = 32768 := rfl
  split
  · exact ⟨by omega, by omega⟩
  · exact ⟨by omega, by omega⟩

/-- With the next chunk a front of a text is a longer one. -/
theorem front_append {text copied : List UInt8} (front : copied = text.take copied.length)
    (nbytes : Nat) : copied ++ (text.drop copied.length).take nbytes =
      text.take (copied.length + nbytes) := by
  rw [List.take_add, ← front]

/-- From the front of a text on, the loop hands over the whole text and all of it reaches the
destination, exactly when there is no error before its end. -/
theorem copyLoop_written (io : CopyIo) (text : List UInt8) (bytesToCopy : Nat)
    (copied : List UInt8) (front : copied = text.take copied.length)
    (total : copied.length + bytesToCopy = text.length) (read : copied.length ≤ io.readable) :
    (copyLoop io text bytesToCopy copied).2.take io.written = text ↔
      text.length ≤ io.readable ∧ text.length ≤ io.written := by
  have reached := io.reached
  fun_induction copyLoop io text bytesToCopy copied with
  | case1 copied =>
      have whole : copied = text := by
        rw [front]
        exact List.take_of_length_le (by omega)
      dsimp only
      rw [whole] at read ⊢
      rw [List.take_eq_self_iff]
      exact ⟨fun fits => ⟨read, fits⟩, fun both => both.2⟩
  | case2 bytesToCopy copied more nbytes buf stops =>
      -- `fread` fails: what is handed over ends before the chunk
      obtain ⟨positive, bound⟩ : 0 < nbytes ∧ nbytes ≤ bytesToCopy := nbytes_bounds more
      have chunk : buf.length = nbytes := by
        rw [List.length_take, List.length_drop]
        omega
      dsimp only
      constructor
      · intro whole
        have length := congrArg List.length whole
        rw [List.length_take] at length
        omega
      · intro both
        omega
  | case3 bytesToCopy copied more nbytes buf goes full =>
      -- `fwrite` fails: not all of what it was handed reaches the destination
      obtain ⟨positive, bound⟩ : 0 < nbytes ∧ nbytes ≤ bytesToCopy := nbytes_bounds more
      dsimp only
      constructor
      · intro whole
        have length := congrArg List.length whole
        rw [List.length_take] at length
        omega
      · intro both
        omega
  | case4 bytesToCopy copied more nbytes buf goes room ih =>
      obtain ⟨positive, bound⟩ : 0 < nbytes ∧ nbytes ≤ bytesToCopy := nbytes_bounds more
      have longer : copied ++ buf = text.take (copied.length + nbytes) :=
        front_append front nbytes
      have length : (copied ++ buf).length = copied.length + nbytes := by
        rw [longer, List.length_take]
        omega
      apply ih
      · rw [length]
        exact longer
      · omega
      · omega

/-! ## Results -/

/-- A copy that is not begun changes nothing. -/
theorem filecopy_unopened {io : CopyIo} {dest src : CString} {files : Files}
    (unopened : ¬ ((files src).isSome ∧ io.malloc ∧ io.srcOpened ∧ io.destOpened)) :
    (filecopy io dest src files).2 = files := by
  unfold filecopy
  split
  · rfl
  · next malloc =>
      split
      · rfl
      · next present =>
          split
          · rfl
          · next destOpened =>
              refine absurd ⟨?_, not_not.mp malloc,
                not_not.mp fun closed => present (.inr closed), not_not.mp destOpened⟩ unopened
              cases found : files src with
              | none => exact absurd (.inl (by rw [found]; rfl)) present
              | some text => rfl

/-- A copy that is begun writes the destination and nothing else. -/
theorem filecopy_opened {io : CopyIo} {dest src : CString} {files : Files}
    (opened : (files src).isSome ∧ io.malloc ∧ io.srcOpened ∧ io.destOpened) {text : List UInt8}
    (source : (Function.update files dest (some []) src).getD [] = text) :
    (filecopy io dest src files).2 = Function.update files dest
      (some (if io.statted then (copyLoop io text text.length []).2.take io.written else [])) := by
  obtain ⟨present, malloc, srcOpened, destOpened⟩ := opened
  have goes : ¬ ((files src).isNone ∨ ¬ io.srcOpened) := by
    rw [not_or, not_not, Option.isNone_iff_eq_none]
    exact ⟨Option.isSome_iff_ne_none.mp present, srcOpened⟩
  unfold filecopy
  rw [if_neg (not_not.mpr malloc), if_neg goes, if_neg (not_not.mpr destOpened)]
  dsimp only
  rw [source]
  by_cases statted : io.statted = true
  · rw [if_neg (not_not.mpr statted), if_pos statted, Function.update_idem]
    split
    · rfl
    · split
      · rfl
      · rfl
  · rw [if_pos statted, if_neg statted]

/-- The destination becomes equal to the source exactly when the calls turn out so. -/
theorem filecopy_equal_iff (io : CopyIo) (dest src : CString) (files : Files) :
    (∃ text, (filecopy io dest src files).2 src = some text ∧
        (filecopy io dest src files).2 dest = some text) ↔ io.Copies dest src files := by
  unfold CopyIo.Copies
  by_cases opened : (files src).isSome ∧ io.malloc ∧ io.srcOpened ∧ io.destOpened
  · obtain ⟨text, source⟩ := Option.isSome_iff_exists.mp opened.1
    rw [source]
    simp only [Option.some.injEq, exists_eq_left', if_pos opened.2]
    by_cases same : dest = src
    · rw [filecopy_opened opened rfl, same]
      simp
    · have unchanged : (Function.update files dest (some []) src).getD [] = text := by
        rw [Function.update_of_ne (Ne.symm same), source]
        rfl
      rw [filecopy_opened opened unchanged, Function.update_of_ne (Ne.symm same), source,
        Function.update_self]
      simp only [Option.some.injEq, exists_eq_left', same, false_or]
      by_cases statted : io.statted = true
      · rw [if_pos statted, copyLoop_written io text text.length [] rfl (Nat.zero_add _)
          (Nat.zero_le _)]
        constructor
        · exact fun whole => .inr ⟨statted, whole⟩
        · rintro (empty | ⟨-, whole⟩)
          · rw [empty]
            exact ⟨Nat.zero_le _, Nat.zero_le _⟩
          · exact whole
      · rw [if_neg statted]
        constructor
        · exact fun empty => .inl empty.symm
        · rintro (empty | ⟨stats, -⟩)
          · exact empty.symm
          · exact absurd stats statted
  · rw [filecopy_unopened opened]
    constructor
    · rintro ⟨text, source, destination⟩
      rw [source] at opened
      exact ⟨text, source, by rwa [if_neg fun opens => opened ⟨rfl, opens⟩]⟩
    · rintro ⟨text, source, destination⟩
      rw [source] at opened
      rw [if_neg fun opens => opened ⟨rfl, opens⟩] at destination
      exact ⟨text, source, destination⟩

/-- `append_dumptime` has succeeded, and the record stands behind what the file held. -/
def Appended (calendar : Calendar) (path : CString) (level ddate : Int) (fpath : CString)
    (text : List UInt8) (result : Int × Files) : Prop :=
  result.1 = 0 ∧
    result.2 fpath = some (text ++ dumprecout calendar ⟨path, level, ddate⟩)

/-- A file that is there is not appended to. -/
theorem appendDumptime_existing (calendar : Calendar) {io : AppendIo} {fname fpath : CString}
    {files : Files} (place : ndmpdMakeBkDirPath io fname = some fpath)
    (present : (files fpath).isSome) (opened : io.opened = true) (path : CString)
    (level ddate : Int) : (appendDumptime calendar io fname path level ddate files).1 = -1 := by
  have copied : (files fpath).isSome = true ∧ io.opened = true := ⟨present, opened⟩
  unfold appendDumptime
  split
  · rfl
  · rw [place]
    dsimp only
    rw [if_pos copied, if_pos (filecopy_ne_zero io.copy (bakPath fpath) fpath files)]

/-- For a file that is not there the record goes behind what is found in an older `.bak`. -/
theorem appendDumptime_absent (calendar : Calendar) {io : AppendIo} {fname fpath : CString}
    {files : Files} (place : ndmpdMakeBkDirPath io fname = some fpath)
    (absent : files fpath = none) (other : bakPath fpath ≠ fpath)
    (succeeds : io.bakOpened = true ∧ io.renamed = true) {path : CString} (level ddate : Int)
    (named : path ≠ []) (written : (dumprecout calendar
      ⟨path.take (tlmMaxPathName - 1), level.bmod (2 ^ 8), ddate⟩).length ≤ io.written) :
    appendDumptime calendar io fname path level ddate files =
      (0, Function.update (Function.update files fpath (some ((files (bakPath fpath)).getD [] ++
        dumprecout calendar ⟨path.take (tlmMaxPathName - 1), level.bmod (2 ^ 8), ddate⟩)))
          (bakPath fpath) none) := by
  have asked : ¬ (fname = [] ∨ path = []) := by
    rintro (unnamed | unnamed)
    · rw [ndmpdMakeBkDirPath, if_pos unnamed] at place
      cases place
    · exact named unnamed
  have skipped : ¬ ((files fpath).isSome = true ∧ io.opened = true) := by
    rw [absent]
    exact fun both => Bool.false_ne_true both.1
  unfold appendDumptime
  rw [if_neg asked, place]
  dsimp only
  rw [if_neg skipped]
  dsimp only
  rw [if_neg (not_not.mpr rfl), if_neg (not_not.mpr succeeds.1), if_pos ⟨succeeds.2, other⟩,
    List.take_of_length_le written, Function.update_self]
  congr 1
  funext place_
  by_cases isBak : place_ = bakPath fpath
  · rw [isBak, Function.update_self, Function.update_self]
  · rw [Function.update_of_ne isBak, Function.update_of_ne isBak]
    by_cases isFile : place_ = fpath
    · rw [isFile, Function.update_self, Function.update_self]
    · rw [Function.update_of_ne isFile, Function.update_of_ne isFile,
        Function.update_of_ne isBak]

/-- No file that is there is ever appended to, and a copy is told right only when there is
none. -/
theorem copied_iff (calendar : Calendar) :
    (∀ (io : AppendIo) (fname fpath path : CString) (level ddate : Int) (files : Files)
        (text : List UInt8), ndmpdMakeBkDirPath io fname = some fpath →
      files fpath = some text → io.opened = true →
        ¬ Appended calendar path level ddate fpath text
          (appendDumptime calendar io fname path level ddate files)) ∧
      ∀ (io : CopyIo) (dest src : CString) (files : Files),
        ReportsCopy dest src (filecopy io dest src files) ↔ ¬ io.Copies dest src files := by
  constructor
  · intro io fname fpath path level ddate files text place present opened appended
    have failed := appendDumptime_existing calendar place
      (Option.isSome_iff_exists.mpr ⟨text, present⟩) opened path level ddate
    have zero := appended.1
    rw [failed] at zero
    exact absurd zero (by decide)
  · intro io dest src files
    have nonzero := filecopy_ne_zero io dest src files
    unfold ReportsCopy
    rw [filecopy_equal_iff]
    constructor
    · exact fun same copied => nonzero (same.mpr copied)
    · intro differs
      constructor
      · exact fun zero => absurd zero nonzero
      · exact fun copied => absurd copied differs

/-! ## A file of one line -/

/-- All calls succeed, for files of up to 100 bytes. -/
def wholeCopy : CopyIo where
  malloc := true
  srcOpened := true
  destOpened := true
  statted := true
  restatted := true
  readable := 100
  taken := 100
  written := 100
  reached := Nat.le_refl 100

/-- All calls succeed, in the working directory `/v`. -/
def wholeAppend : AppendIo where
  debugPath := some [slash, 118]
  validLogvol := true
  buf := []
  opened := true
  copy := wholeCopy
  bakOpened := true
  written := 100
  renamed := true

/-- The file `/v/d`. -/
def oneFile : Files := fun path => if path = [slash, 118, slash, 100] then some [120, 10] else none

theorem wholeAppend_place :
    ndmpdMakeBkDirPath wholeAppend [100] = some [slash, 118, slash, 100] := by
  decide +kernel

theorem copied_iff_oneFile :
    ¬ Appended january [slash] 0 3661 [slash, 118, slash, 100] [120, 10]
        (appendDumptime january wholeAppend [100] [slash] 0 3661 oneFile) ∧
      (ReportsCopy [slash, 98] [slash, 118, slash, 100]
          (filecopy wholeCopy [slash, 98] [slash, 118, slash, 100] oneFile) ↔
        ¬ wholeCopy.Copies [slash, 98] [slash, 118, slash, 100] oneFile) :=
  ⟨(copied_iff january).1 wholeAppend [100] [slash, 118, slash, 100] [slash] 0 3661 oneFile
      [120, 10] wholeAppend_place rfl rfl,
    (copied_iff january).2 wholeCopy [slash, 98] [slash, 118, slash, 100] oneFile⟩

/-- No call of `append_dumptime` fails, for a file with some text and a record with some
line. -/
structure AppendIo.Succeeds (io : AppendIo) (text line : List UInt8) : Prop where
  logvol : io.validLogvol = true
  opens : io.opened = true ∧ io.bakOpened = true ∧ io.renamed = true
  copies : io.copy.malloc = true ∧ io.copy.srcOpened = true ∧ io.copy.destOpened = true ∧
    io.copy.statted = true ∧ io.copy.restatted = true
  readable : text.length ≤ io.copy.readable
  copied : text.length ≤ io.copy.written
  written : line.length ≤ io.written

/-- Nothing is appended to a file of one line, and its complete copy is not reported. -/
theorem oneFile_notAppended :
    (¬ ∀ (calendar : Calendar) (io : AppendIo) (fname fpath path : CString) (level ddate : Int)
        (files : Files) (text : List UInt8), ndmpdMakeBkDirPath io fname = some fpath →
      files fpath = some text → io.Succeeds text (dumprecout calendar ⟨path, level, ddate⟩) →
        Appended calendar path level ddate fpath text
          (appendDumptime calendar io fname path level ddate files)) ∧
      ¬ ∀ (io : CopyIo) (dest src : CString) (files : Files),
        ReportsCopy dest src (filecopy io dest src files) := by
  constructor
  · intro always
    have succeeds : wholeAppend.Succeeds [120, 10] (dumprecout january ⟨[slash], 0, 3661⟩) :=
      ⟨rfl, ⟨rfl, rfl, rfl⟩, ⟨rfl, rfl, rfl, rfl, rfl⟩, by decide, by decide, by decide +kernel⟩
    have appended := always january wholeAppend [100] [slash, 118, slash, 100] [slash] 0 3661
      oneFile [120, 10] wholeAppend_place rfl succeeds
    have failed := @appendDumptime_existing january wholeAppend [100] [slash, 118, slash, 100]
      oneFile wholeAppend_place rfl rfl [slash] 0 3661
    have zero := appended.1
    rw [failed] at zero
    exact absurd zero (by decide)
  · intro always
    have copies : wholeCopy.Copies [slash, 98] [slash, 118, slash, 100] oneFile := by
      refine ⟨[120, 10], rfl, ?_⟩
      rw [if_pos ⟨rfl, rfl, rfl⟩]
      exact .inr (.inr ⟨rfl, by decide, by decide⟩)
    have equal := (filecopy_equal_iff wholeCopy [slash, 98] [slash, 118, slash, 100] oneFile).mpr
      copies
    exact filecopy_ne_zero wholeCopy _ _ oneFile ((always wholeCopy _ _ oneFile).mpr equal)

end Dumpdates

end Ndmpd
