import Ndmpd.Foundation.Lines
import Ndmpd.Foundation.Numeral
import Ndmpd.Tlm.TarHeader
import Ndmpd.Tlm.PathNames

/-!
# The text of the dumpdates file

A record of the file is a path name, a level and a date. `dumprecout` prints it on one
line, with a backslash before each space, tab and newline of the name; `readdumptimes`
reads the records of a file back, one `getlineNdmpd` for each, which joins a line that
ends in a backslash with the next one.

The C library's view of the time zone is a `Calendar`. `Stale` is what the buffers of
`getrecord` and `unctime` still hold past the strings that were read into them.
-/

namespace Ndmpd

open Foundation

/-- `BUFSIZ` of the C library. -/
abbrev bufsiz : Nat := 1024

abbrev tab : UInt8 := 9
abbrev blank : UInt8 := 32
abbrev backslash : UInt8 := 92
abbrev hash : UInt8 := 35

/-- A node of the list of dump dates. -/
structure Dumpdates where
  ddName : CString
  ddLevel : Int
  ddDdate : Int
  deriving DecidableEq, Repr

namespace Dumpdates

/-- A cleared node. -/
def cleared : Dumpdates := ⟨[], 0, 0⟩

/-! ## Calendar dates -/

/-- A broken-down time. -/
structure Tm where
  tmSec : Int
  tmMin : Int
  tmHour : Int
  tmMday : Int
  tmMon : Int
  tmYear : Int
  tmWday : Int
  tmYday : Int
  tmIsdst : Int
  deriving DecidableEq, Repr

/-- The C library's conversions between dates and broken-down times. -/
structure Calendar where
  localtime : Int → Tm
  mktime : Tm → Int

/-- `months`, by three characters each. -/
def months : List CString :=
  ["Jan", "Feb", "Mar", "Apr", "May", "Jun", "Jul", "Aug", "Sep", "Oct", "Nov", "Dec"].map
    fun month => month.toUTF8.toList

/-- The names of the days of a week in the text of a date. -/
def days : List CString :=
  ["Sun", "Mon", "Tue", "Wed", "Thu", "Fri", "Sat"].map fun day => day.toUTF8.toList

/-- A number as `"%d"`. -/
def printInt (value : Int) : CString :=
  if value < 0 then 45 :: numeral 10 value.natAbs else numeral 10 value.natAbs

/-- The text `"Www Mmm dd hh:mm:ss yyyy"` of a broken-down time. -/
def Tm.text (broken : Tm) : CString :=
  days.getD broken.tmWday.toNat [63, 63, 63] ++ blank ::
    (months.getD broken.tmMon.toNat [63, 63, 63] ++
      (padLeft 32 3 (printInt broken.tmMday) ++ blank ::
        (padLeft 48 2 (printInt broken.tmHour) ++ 58 ::
          (padLeft 48 2 (printInt broken.tmMin) ++ 58 ::
            (padLeft 48 2 (printInt broken.tmSec) ++ blank ::
              printInt (1900 + broken.tmYear))))))

/-- `ctime_r`: the text of a date, with its newline. -/
def ctimeR (calendar : Calendar) (date : Int) : CString :=
  (calendar.localtime date).text ++ [newline]

/-- `atoi`: a `long` from the digits behind blanks and a sign, cut to an `int`. -/
def atoi (memory : List UInt8) : Int :=
  let text := memory.dropWhile fun byte => byte = 32 ∨ 9 ≤ byte ∧ byte ≤ 13
  let value : Int := match text with
    | 45 :: digits => -(numeralValue 10 (digits.takeWhile (isDigit 10)) : Int)
    | 43 :: digits => numeralValue 10 (digits.takeWhile (isDigit 10))
    | digits => numeralValue 10 (digits.takeWhile (isDigit 10))
  (max (-2 ^ 63) (min (2 ^ 63 - 1) value)).bmod (2 ^ 32)

/-- `lookup`: the number of a month's name. -/
def lookup (memory : List UInt8) : Option Nat :=
  months.findIdx? fun month => month = memory.take 3

/-- What `dbuf` of `unctime` holds once the text of a date was copied into it. -/
def unctimeBuffer (dbuf : CharArray 26) (str : CString) : CharArray 26 :=
  ((dbuf.write 0 (str.take 24 ++ [0])).write 25 [0]).write 7 [0]

/-- `unctime`: the date that a text in the format of `ctime` stands for. -/
def unctime (calendar : Calendar) (dbuf : CharArray 26) (str : CString) : Option Int :=
  let memory := (unctimeBuffer dbuf str).bytes
  match lookup (memory.drop 4) with
  | none => none
  | some month =>
      some (calendar.mktime
        { tmMon := month
          tmMday := atoi (memory.drop 8)
          tmHour := atoi (memory.drop 11)
          tmMin := atoi (memory.drop 14)
          tmSec := atoi (memory.drop 17)
          tmYear := atoi (memory.drop 20) - 1900
          tmWday := 0
          tmYday := 0
          tmIsdst := -1 })

/-! ## Reading -/

/-- `fgets` into a buffer of `llen` bytes, which is never less than two here. -/
def fgets (llen : Nat) (fp : List UInt8) : Option (List UInt8 × List UInt8) :=
  if fp = [] ∨ llen < 2 then none else some (takeLine (llen - 1) fp)

theorem fgets_consumes {llen : Nat} {fp rest chunk : List UInt8}
    (got : fgets llen fp = some (chunk, rest)) : rest.length < fp.length := by
  by_cases refused : fp = [] ∨ llen < 2
  · rw [fgets, if_pos refused] at got
    cases got
  · obtain ⟨more, room⟩ := not_or.mp refused
    rw [fgets, if_neg refused, Option.some_inj] at got
    have parts := congrArg List.length (takeLine_append (llen - 1) fp)
    have positive : 0 < llen - 1 := by omega
    have nonempty := List.length_pos_iff.mpr (takeLine_ne_nil positive more)
    rw [got, List.length_append] at parts
    rw [got] at nonempty
    dsimp only at parts nonempty
    omega

/-- The loop of `getline_ndmpd`: `save` is the part of the line in front of the
pointer `line`, and `llen` the room from there on. -/
def getlineLoop (fp save : List UInt8) (llen : Nat) : Option (CString × List UInt8) :=
  match _ : fgets llen fp with
  | none => none
  | some (chunk, rest) =>
      let text := cstring chunk
      if chunk.head? = some hash then getlineLoop rest save llen
      else if text = [] then getlineLoop rest save llen
      else if text.getLast? ≠ some newline then none
      else
        let line := text.dropLast
        if line = [] then some (save, rest)
        else if line.getLast? ≠ some backslash then some (save ++ line, rest)
        else getlineLoop rest (save ++ line.dropLast ++ [newline]) (llen - line.length)
termination_by fp.length
decreasing_by all_goals exact fgets_consumes ‹_›

/-- `getline_ndmpd`: a line of the file with the lines that continue it. -/
def getlineNdmpd (fp : List UInt8) (llen : Nat) : Option (CString × List UInt8) :=
  getlineLoop fp [] llen

/-- The separators of the fields. -/
def isBlank (byte : UInt8) : Bool := byte = tab ∨ byte = blank

/-- Skip the separators in front of a field. -/
def skipBlanks (memory : List UInt8) : List UInt8 := memory.dropWhile isBlank

/-- The loop of `get_ddname`: the name and what follows its separator. -/
def ddnameLoop : CString → CString × CString
  | [] => ([], [])
  | [byte] => if isBlank byte then ([], []) else ([byte], [])
  | byte :: next :: rest =>
      if isBlank byte then ([], next :: rest)
      else if byte = backslash ∧ isBlank next then
        (next :: (ddnameLoop rest).1, (ddnameLoop rest).2)
      else (byte :: (ddnameLoop (next :: rest)).1, (ddnameLoop (next :: rest)).2)

/-- `get_ddname`. -/
def getDdname (bpp : CString) : CString × CString := ddnameLoop (skipBlanks bpp)

/-- `IS_LBR_BKTYPE`: one of the letters of `FAID`, in either case. -/
def isLbrBktype (level : Int) : Bool := level ∈ ([70, 65, 73, 68, 102, 97, 105, 100] : List Int)

/-- `get_ddlevel`: the level, as a `char` holds it, and the memory behind it. -/
def getDdlevel (bpp : List UInt8) : Int × List UInt8 :=
  let save := skipBlanks bpp
  let first : Int := (save.headD 0).toNat
  if isLbrBktype first then (if 97 ≤ first then first - 32 else first, save.drop 2)
  else
    let digits := save.takeWhile (isDigit 10)
    ((atoi digits).bmod (2 ^ 8), save.drop (digits.length + 1))

/-- `get_ddate`. -/
def getDdate (bpp : List UInt8) : CString := cstring (skipBlanks bpp)

/-- What the buffers hold past the strings that were read into them. -/
structure Stale where
  tbuf : List UInt8
  dbuf : CharArray 26

/-- `makedumpdate`: parse a line into a node. -/
def makedumpdate (calendar : Calendar) (stale : Stale) (ddp : Dumpdates) (tbuf : CString) :
    Int × Dumpdates :=
  let (nmp, rest) := getDdname tbuf
  let (level, memory) := getDdlevel (rest ++ 0 :: stale.tbuf)
  let ddp := { ddp with ddLevel := level }
  if level < 0 then (-1, ddp)
  else
    match unctime calendar stale.dbuf (getDdate memory) with
    | none => (-1, ddp)
    | some date => (0, { ddp with ddDdate := date, ddName := nmp.take (tlmMaxPathName - 1) })

theorem getlineLoop_consumes {fp save text rest : List UInt8} {llen : Nat}
    (got : getlineLoop fp save llen = some (text, rest)) : rest.length < fp.length := by
  fun_induction getlineLoop fp save llen with
  | case1 => cases got
  | case2 fp save llen chunk more taken comment ih =>
      exact lt_trans (ih got) (fgets_consumes taken)
  | case3 fp save llen chunk more taken string _ short ih =>
      exact lt_trans (ih got) (fgets_consumes taken)
  | case4 => cases got
  | case5 fp save llen chunk more taken =>
      cases got
      exact fgets_consumes taken
  | case6 fp save llen chunk more taken =>
      cases got
      exact fgets_consumes taken
  | case7 fp save llen chunk more taken string _ _ _ line _ _ ih =>
      exact lt_trans (ih got) (fgets_consumes taken)

/-- The first line of the file that is not empty. -/
def getText (fp : List UInt8) : Option (CString × List UInt8) :=
  match _ : getlineNdmpd fp bufsiz with
  | none => none
  | some (tbuf, rest) => if tbuf = [] then getText rest else some (tbuf, rest)
termination_by fp.length
decreasing_by exact getlineLoop_consumes ‹_›

theorem getText_consumes {fp text rest : List UInt8} (got : getText fp = some (text, rest)) :
    rest.length < fp.length := by
  fun_induction getText fp with
  | case1 => cases got
  | case2 fp more taken ih => exact lt_trans (ih got) (getlineLoop_consumes taken)
  | case3 fp tbuf more taken _ =>
      cases got
      exact getlineLoop_consumes taken

/-- `getrecord`: read a line and parse it. A line that cannot be parsed still yields a
node. -/
def getrecord (calendar : Calendar) (stale : Stale) (fp : List UInt8) :
    Option (Dumpdates × List UInt8) :=
  (getText fp).map fun got => ((makedumpdate calendar stale cleared got.1).2, got.2)

theorem getrecord_consumes {calendar : Calendar} {stale : Stale} {fp rest : List UInt8}
    {record : Dumpdates} (got : getrecord calendar stale fp = some (record, rest)) :
    rest.length < fp.length := by
  obtain ⟨⟨text, more⟩, line, parsed⟩ := Option.map_eq_some_iff.mp got
  cases parsed
  exact getText_consumes line

/-- The loop of `readdumptimes` from a record on. -/
def readRecords (calendar : Calendar) (stale : Nat → Stale) (recno : Nat) (fp : List UInt8) :
    List Dumpdates :=
  match _ : getrecord calendar (stale recno) fp with
  | none => []
  | some (ddwalk, rest) => ddwalk :: readRecords calendar stale (recno + 1) rest
termination_by fp.length
decreasing_by exact getrecord_consumes ‹_›

/-- `readdumptimes`: the records of the file. -/
def readdumptimes (calendar : Calendar) (stale : Nat → Stale) (fp : List UInt8) :
    List Dumpdates :=
  readRecords calendar stale 1 fp

/-! ## Writing -/

/-- `put_ddname`. -/
def putDdname (name : CString) : CString :=
  name.flatMap fun byte =>
    if byte = blank ∨ byte = newline ∨ byte = tab then [backslash, byte] else [byte]

/-- `put_ddlevel`. -/
def putDdlevel (level : Int) : CString :=
  if isLbrBktype level then [UInt8.ofNat level.toNat] else printInt level

/-- `dumprecout`: the line of a record. -/
def dumprecout (calendar : Calendar) (ddp : Dumpdates) : List UInt8 :=
  putDdname ddp.ddName ++ [tab] ++ putDdlevel ddp.ddLevel ++ [tab] ++ ctimeR calendar ddp.ddDdate

/-- The text of a list of records. -/
def writeRecords (calendar : Calendar) (records : List Dumpdates) : List UInt8 :=
  records.flatMap (dumprecout calendar)

end Dumpdates

end Ndmpd
