import Ndmpd.Foundation.CharArray
import Ndmpd.Foundation.Numeral
import Ndmpd.Tlm.Buffers

/-!
# Tar headers

A header is a `tlm_tar_hdr_t` at the start of a record of `RECORDSIZE` bytes. The
encoder clears the record and fills in each field once, so that on its side a header
is a structure of character arrays. The decoder gets 512 bytes and reads fields at
their offsets; a field that lacks its NUL is read on into the next field, as in C.

The fields and the checksum that the encoder writes are read back
(`octAtoi_octalField`, `tlmVfyTarChecksum_build`).
-/

namespace Ndmpd

open Foundation

/-- `TLM_NAME_SIZE`, also `NAMSIZ`. -/
abbrev tlmNameSize : Nat := 100

/-- `TLM_MAX_TAR_IMAGE`, the size of the largest file that fits one header. -/
abbrev tlmMaxTarImage : Nat := 0o17777777770

/-- `OCTAL7CHAR`. -/
abbrev octal7Char : Nat := 0o7777777

/-- `PATH_MAX`. -/
abbrev pathMax : Nat := 1024

/-- `TLM_MAX_PATH_NAME`, which is `PATH_MAX` and `TLM_EXTRA_SPACE`. -/
abbrev tlmMaxPathName : Nat := pathMax + 64

/-- `TLM_MAGIC`. -/
def tlmMagic : List UInt8 := "ustar  ".toUTF8.toList

/-- `LONGNAME_PREFIX`. -/
def longnamePrefix : List UInt8 := "././_LoNg_NaMe_".toUTF8.toList

/-! ## Link flags -/

abbrev lfOldnormal : UInt8 := 0
abbrev lfNormal : UInt8 := 48
abbrev lfLink : UInt8 := 49
abbrev lfSymlink : UInt8 := 50
abbrev lfDir : UInt8 := 53
abbrev lfFifo : UInt8 := 54
abbrev lfContig : UInt8 := 55
abbrev lfHumongus : UInt8 := 72
abbrev lfLonglink : UInt8 := 75
abbrev lfLongname : UInt8 := 76
abbrev lfMultivol : UInt8 := 77
abbrev lfVolhdr : UInt8 := 86
abbrev lfAcl : UInt8 := 65

/-! ## Reading octal numbers -/

/-- A value of type `int`, from its low 32 bits. -/
def toInt32 (value : Nat) : Int :=
  if value % 2 ^ 32 < 2 ^ 31 then (value % 2 ^ 32 : Nat) else (value % 2 ^ 32 : Nat) - 2 ^ 32

/-- `oct_atoi`: skip blanks and accumulate octal digits in an `int`. -/
def octAtoi (memory : List UInt8) : Int :=
  toInt32 (((memory.dropWhile (· = 32)).takeWhile (isDigit 8)).foldl
    (fun value byte => (value * 8 + digitValue byte) % 2 ^ 32) 0)

theorem toInt32_of_lt {value : Nat} (small : value < 2 ^ 31) : toInt32 value = value := by
  have low : value % 2 ^ 32 = value := Nat.mod_eq_of_lt (by omega)
  rw [toInt32, low, if_pos small]

theorem foldl_mod (text : List UInt8) (start : Nat) :
    text.foldl (fun value byte => (value * 8 + digitValue byte) % 2 ^ 32) (start % 2 ^ 32) =
      text.foldl (fun value byte => value * 8 + digitValue byte) start % 2 ^ 32 := by
  induction text generalizing start with
  | nil => rfl
  | cons byte text ih =>
      rw [List.foldl_cons, List.foldl_cons, ← ih]
      congr 1
      omega

/-- Blanks, then digits, then something else. -/
theorem octAtoi_digits (blanks : Nat) {text rest : List UInt8} {stop : UInt8}
    (digits : ∀ byte ∈ text, isDigit 8 byte = true) (nonempty : text ≠ [])
    (stops : isDigit 8 stop = false) :
    octAtoi (List.replicate blanks 32 ++ (text ++ stop :: rest)) =
      toInt32 (numeralValue 8 text) := by
  have skipped : (List.replicate blanks (32 : UInt8) ++ (text ++ stop :: rest)).dropWhile
      (· = 32) = text ++ stop :: rest := by
    rw [List.dropWhile_append_of_pos (by simp)]
    obtain ⟨first, others, rfl⟩ := List.exists_cons_of_ne_nil nonempty
    have digit := digits first (by simp)
    have visible : first ≠ 32 := by
      rintro rfl
      exact absurd digit (by decide)
    rw [List.cons_append, List.dropWhile_cons_of_neg (by simpa using visible)]
  rw [octAtoi, skipped, takeWhile_append_stop digits stops]
  have wrapped := foldl_mod text 0
  rw [Nat.zero_mod] at wrapped
  rw [wrapped, numeralValue, toInt32, toInt32, Nat.mod_mod]

/-! ## Writing fields -/

/-- A number as `"%0<precision>o "` into a cleared field. -/
def octalField (size precision value : Nat) : CharArray size :=
  CharArray.ofString size (padLeft 48 precision (numeral 8 value) ++ [32])

/-- A number that fits its field is read back, whatever follows the field. -/
theorem octAtoi_octalField {size precision value : Nat} (wide : precision < size)
    (positive : 0 < precision) (fits : value < 8 ^ (size - 1)) (rest : List UInt8) :
    octAtoi ((octalField size precision value).bytes ++ rest) = toInt32 value := by
  have digits : ∀ byte ∈ padLeft 48 precision (numeral 8 value), isDigit 8 byte = true :=
    fun byte listed => isDigit_of_mem_padLeft (by decide)
      (fun byte listed => isDigit_of_mem_numeral (by decide) (by decide) listed) listed
  have length := length_padLeft 48 precision (numeral 8 value)
  have short : (numeral 8 value).length ≤ size - 1 :=
    length_numeral_le (by decide) (by omega) fits
  have nonempty : padLeft 48 precision (numeral 8 value) ≠ [] := by
    intro empty
    rw [empty, List.length_nil] at length
    omega
  have read := fun stop rest stops =>
    @octAtoi_digits 0 (padLeft 48 precision (numeral 8 value)) rest stop digits nonempty stops
  rw [numeralValue_padLeft, numeralValue_numeral (by decide) (by decide)] at read
  rw [octalField]
  generalize padLeft 48 precision (numeral 8 value) = text at length read ⊢
  by_cases room : text.length + 1 < size
  · -- the blank behind the number is kept
    have whole : (text ++ [32]).length < size := by
      rwa [List.length_append, List.length_singleton]
    have kept := read 32 (List.replicate (size - (text ++ [32]).length) 0 ++ rest) (by decide)
    rw [CharArray.bytes_ofString whole]
    simpa using kept
  · -- the number fills the field up to its NUL
    have full : text.length = size - 1 := by
      omega
    have cut : (text ++ [32]).take (size - 1) = text := by
      rw [← full, List.take_left]
    have one : size - min (size - 1) (text ++ [32]).length = 1 := by
      rw [List.length_append, List.length_singleton]
      omega
    have kept := read 0 rest (by decide)
    simp only [CharArray.ofString, cut, one]
    simpa using kept

/-! ## The header -/

/-- A `tlm_tar_hdr_t`. The device numbers that share their place with `thHlinkIno` are
never used. -/
structure TlmTarHdr where
  thName : CharArray tlmNameSize
  thMode : CharArray 8
  thUid : CharArray 8
  thGid : CharArray 8
  thSize : CharArray 12
  thMtime : CharArray 12
  thChksum : CharArray 8
  thLinkflag : UInt8
  thLinkname : CharArray tlmNameSize
  thMagic : CharArray 8
  thUname : CharArray 32
  thGname : CharArray 32
  thHlinkIno : CharArray 12
  deriving DecidableEq, Repr

namespace TlmTarHdr

/-- A header in a cleared record. -/
def zero : TlmTarHdr where
  thName := .zero _
  thMode := .zero _
  thUid := .zero _
  thGid := .zero _
  thSize := .zero _
  thMtime := .zero _
  thChksum := .zero _
  thLinkflag := 0
  thLinkname := .zero _
  thMagic := .zero _
  thUname := .zero _
  thGname := .zero _
  thHlinkIno := .zero _

/-- The record from the checksum on: the checksum, the link flag and what follows. -/
def fromChksum (header : TlmTarHdr) : List UInt8 :=
  header.thChksum.bytes ++ (header.thLinkflag :: (header.thLinkname.bytes ++
    (header.thMagic.bytes ++ (header.thUname.bytes ++ (header.thGname.bytes ++
      (header.thHlinkIno.bytes ++ List.replicate 171 0))))))

/-- The record that holds the header. -/
def record (header : TlmTarHdr) : List UInt8 :=
  header.thName.bytes ++ (header.thMode.bytes ++ (header.thUid.bytes ++ (header.thGid.bytes ++
    (header.thSize.bytes ++ (header.thMtime.bytes ++ header.fromChksum)))))

@[simp]
theorem length_fromChksum (header : TlmTarHdr) : header.fromChksum.length = 364 := by
  simp only [fromChksum, List.length_append, List.length_cons, List.length_replicate,
    CharArray.length_bytes]
  rfl

@[simp]
theorem length_record (header : TlmTarHdr) : header.record.length = recordSize := by
  simp only [record, List.length_append, CharArray.length_bytes, length_fromChksum]

end TlmTarHdr

/-! ## Reading a record -/

/-- Where the fields of a header start. -/
abbrev thModeAt : Nat := 100
abbrev thUidAt : Nat := 108
abbrev thGidAt : Nat := 116
abbrev thSizeAt : Nat := 124
abbrev thMtimeAt : Nat := 136
abbrev thChksumAt : Nat := 148
abbrev thLinkflagAt : Nat := 156
abbrev thLinknameAt : Nat := 157
abbrev thUnameAt : Nat := 265
abbrev thGnameAt : Nat := 297
abbrev thHlinkInoAt : Nat := 329

/-- The sum of the bytes of a record. -/
def byteSum (record : List UInt8) : Nat := (record.map UInt8.toNat).sum

/-- `tlm_vfy_tar_checksum`: 0 for an empty record, 1 for a good checksum, -1 otherwise. -/
def tlmVfyTarChecksum (record : List UInt8) : Int :=
  let chksum := octAtoi (record.drop thChksumAt)
  let sum := byteSum record
  if sum = 0 then 0
  else
    let blanked := sum - byteSum ((record.drop thChksumAt).take 8) + 32 * 8
    if (blanked : Int) = chksum then 1 else -1

/-- `CHKBLANKS`. -/
def chkblanks : CharArray 8 := ⟨List.replicate 8 32, List.length_replicate⟩

/-- `tlm_build_header_checksum`: sum up the record with blanks in the place of the
checksum, and print the sum over them. The last of the blanks stays. -/
def tlmBuildHeaderChecksum (header : TlmTarHdr) : TlmTarHdr :=
  let sum := byteSum { header with thChksum := chkblanks }.record
  { header with thChksum := chkblanks.write 0 ((padLeft 32 6 (numeral 8 sum)).take 7 ++ [0]) }

namespace TlmTarHdr

variable (header : TlmTarHdr)

theorem drop_mode : header.record.drop thModeAt = header.thMode.bytes ++ (header.thUid.bytes ++
    (header.thGid.bytes ++ (header.thSize.bytes ++
      (header.thMtime.bytes ++ header.fromChksum)))) := by
  rw [record, List.drop_left' (by simp)]

theorem drop_uid : header.record.drop thUidAt = header.thUid.bytes ++
    (header.thGid.bytes ++
      (header.thSize.bytes ++ (header.thMtime.bytes ++ header.fromChksum))) := by
  rw [show thUidAt = thModeAt + 8 from rfl, ← List.drop_drop, drop_mode, List.drop_left' (by simp)]

theorem drop_gid : header.record.drop thGidAt =
    header.thGid.bytes ++ (header.thSize.bytes ++ (header.thMtime.bytes ++ header.fromChksum)) := by
  rw [show thGidAt = thUidAt + 8 from rfl, ← List.drop_drop, drop_uid, List.drop_left' (by simp)]

theorem drop_size : header.record.drop thSizeAt =
    header.thSize.bytes ++ (header.thMtime.bytes ++ header.fromChksum) := by
  rw [show thSizeAt = thGidAt + 8 from rfl, ← List.drop_drop, drop_gid, List.drop_left' (by simp)]

theorem drop_mtime : header.record.drop thMtimeAt =
    header.thMtime.bytes ++ header.fromChksum := by
  rw [show thMtimeAt = thSizeAt + 12 from rfl, ← List.drop_drop, drop_size,
    List.drop_left' (by simp)]

theorem drop_chksum : header.record.drop thChksumAt = header.fromChksum := by
  rw [show thChksumAt = thMtimeAt + 12 from rfl, ← List.drop_drop, drop_mtime,
    List.drop_left' (by simp)]

theorem drop_linkflag : header.record.drop thLinkflagAt = header.thLinkflag ::
    (header.thLinkname.bytes ++ (header.thMagic.bytes ++ (header.thUname.bytes ++
      (header.thGname.bytes ++ (header.thHlinkIno.bytes ++ List.replicate 171 0))))) := by
  rw [show thLinkflagAt = thChksumAt + 8 from rfl, ← List.drop_drop, drop_chksum, fromChksum,
    List.drop_left' (by simp)]

theorem drop_linkname : header.record.drop thLinknameAt = header.thLinkname.bytes ++
    (header.thMagic.bytes ++ (header.thUname.bytes ++
      (header.thGname.bytes ++ (header.thHlinkIno.bytes ++ List.replicate 171 0)))) := by
  rw [show thLinknameAt = thLinkflagAt + 1 from rfl, ← List.drop_drop, drop_linkflag,
    List.drop_one, List.tail_cons]

theorem drop_uname : header.record.drop thUnameAt = header.thUname.bytes ++
    (header.thGname.bytes ++ (header.thHlinkIno.bytes ++ List.replicate 171 0)) := by
  rw [show thUnameAt = thLinknameAt + 100 + 8 from rfl, ← List.drop_drop, ← List.drop_drop,
    drop_linkname, List.drop_left' (by simp), List.drop_left' (by simp)]

theorem drop_gname : header.record.drop thGnameAt =
    header.thGname.bytes ++ (header.thHlinkIno.bytes ++ List.replicate 171 0) := by
  rw [show thGnameAt = thUnameAt + 32 from rfl, ← List.drop_drop, drop_uname,
    List.drop_left' (by simp)]

theorem drop_hlinkIno : header.record.drop thHlinkInoAt =
    header.thHlinkIno.bytes ++ List.replicate 171 0 := by
  rw [show thHlinkInoAt = thGnameAt + 32 from rfl, ← List.drop_drop, drop_gname,
    List.drop_left' (by simp)]

end TlmTarHdr

theorem byteSum_append (first second : List UInt8) :
    byteSum (first ++ second) = byteSum first + byteSum second := by
  simp [byteSum]

theorem byteSum_le (record : List UInt8) : byteSum record ≤ record.length * 255 := by
  induction record with
  | nil => simp [byteSum]
  | cons byte record ih =>
      have small : byte.toNat ≤ 255 := by
        have bound := byte.toNat_lt
        omega
      simp only [byteSum, List.map_cons, List.sum_cons, List.length_cons] at ih ⊢
      omega

/-- The field of a checksum: six characters, a NUL and the last blank. -/
def chksumField (sum : Nat) : List UInt8 := padLeft 32 6 (numeral 8 sum) ++ [0, 32]

theorem length_printedSum {sum : Nat} (small : sum < 8 ^ 6) :
    (padLeft 32 6 (numeral 8 sum)).length = 6 := by
  have short : (numeral 8 sum).length ≤ 6 := length_numeral_le (by decide) (by decide) small
  rw [length_padLeft, Nat.max_eq_left short]

theorem length_chksumField {sum : Nat} (small : sum < 8 ^ 6) : (chksumField sum).length = 8 := by
  rw [chksumField, List.length_append, length_printedSum small]
  rfl

/-- The sum of the other bytes of a record and of the blanks fits into the field. -/
theorem byteSum_small {front back : List UInt8} (frontSize : front.length = thChksumAt)
    (backSize : back.length = 356) : byteSum front + byteSum back + 32 * 8 < 8 ^ 6 := by
  have first := byteSum_le front
  have second := byteSum_le back
  rw [frontSize, show thChksumAt = 148 from rfl] at first
  rw [backSize] at second
  omega

namespace TlmTarHdr

/-- The fields in front of the checksum. -/
def beforeChksum (header : TlmTarHdr) : List UInt8 :=
  header.thName.bytes ++ (header.thMode.bytes ++ (header.thUid.bytes ++ (header.thGid.bytes ++
    (header.thSize.bytes ++ header.thMtime.bytes))))

/-- The rest of the record behind the checksum. -/
def afterChksum (header : TlmTarHdr) : List UInt8 :=
  header.thLinkflag :: (header.thLinkname.bytes ++ (header.thMagic.bytes ++
    (header.thUname.bytes ++ (header.thGname.bytes ++
      (header.thHlinkIno.bytes ++ List.replicate 171 0)))))

theorem record_around (header : TlmTarHdr) (chksum : CharArray 8) :
    { header with thChksum := chksum }.record =
      header.beforeChksum ++ (chksum.bytes ++ header.afterChksum) := by
  simp only [record, fromChksum, beforeChksum, afterChksum, List.append_assoc]

theorem length_beforeChksum (header : TlmTarHdr) : header.beforeChksum.length = thChksumAt := by
  simp only [beforeChksum, List.length_append, CharArray.length_bytes]

theorem length_afterChksum (header : TlmTarHdr) : header.afterChksum.length = 356 := by
  simp only [afterChksum, List.length_append, List.length_cons, List.length_replicate,
    CharArray.length_bytes]

end TlmTarHdr

/-- A record with some checksum in its field is good if that is the sum. -/
theorem tlmVfyTarChecksum_field {front back : List UInt8} (frontSize : front.length = thChksumAt)
    {sum : Nat} (small : sum < 8 ^ 6) :
    tlmVfyTarChecksum (front ++ (chksumField sum ++ back)) =
      if byteSum front + byteSum back + 32 * 8 = sum then 1 else -1 := by
  have field := length_chksumField small
  have dropped : (front ++ (chksumField sum ++ back)).drop thChksumAt = chksumField sum ++ back :=
    List.drop_left' frontSize
  have read : octAtoi (chksumField sum ++ back) = sum := by
    have digits : ∀ byte ∈ numeral 8 sum, isDigit 8 byte = true :=
      fun byte listed => isDigit_of_mem_numeral (by decide) (by decide) listed
    unfold chksumField padLeft
    simp only [List.append_assoc, List.cons_append]
    rw [octAtoi_digits _ digits (numeral_ne_nil sum) (by decide),
      numeralValue_numeral (by decide) (by decide), toInt32_of_lt (by omega)]
  have blank : 32 ≤ byteSum (chksumField sum) := by
    rw [chksumField, byteSum_append]
    exact Nat.le_add_left 32 _
  unfold tlmVfyTarChecksum
  rw [dropped, read, List.take_left' field, byteSum_append, byteSum_append]
  dsimp only
  rw [if_neg (by omega)]
  have cleared : byteSum front + (byteSum (chksumField sum) + byteSum back) -
      byteSum (chksumField sum) + 32 * 8 = byteSum front + byteSum back + 32 * 8 := by
    omega
  rw [cleared]
  exact if_congr Int.ofNat_inj rfl rfl

/-- The printed checksum over the blanks. -/
theorem bytes_chksum {sum : Nat} (small : sum < 8 ^ 6) :
    (chkblanks.write 0 ((padLeft 32 6 (numeral 8 sum)).take 7 ++ [0])).bytes = chksumField sum := by
  have six := length_printedSum small
  rw [List.take_of_length_le (by omega)]
  have seven : (padLeft 32 6 (numeral 8 sum) ++ [0]).length = 7 := by
    rw [List.length_append, six, List.length_singleton]
  rw [CharArray.bytes_write (by omega), seven]
  simp [chkblanks, chksumField]

/-- What `tlm_build_header_checksum` makes of a header. -/
theorem record_buildChecksum (header : TlmTarHdr) :
    (tlmBuildHeaderChecksum header).record = header.beforeChksum ++
      (chksumField (byteSum header.beforeChksum + byteSum header.afterChksum + 32 * 8) ++
        header.afterChksum) := by
  have small := byteSum_small header.length_beforeChksum header.length_afterChksum
  have sum : byteSum { header with thChksum := chkblanks }.record =
      byteSum header.beforeChksum + byteSum header.afterChksum + 32 * 8 := by
    have blanks : byteSum chkblanks.bytes = 32 * 8 := by decide
    rw [header.record_around, byteSum_append, byteSum_append, blanks]
    omega
  unfold tlmBuildHeaderChecksum
  dsimp only
  rw [sum, header.record_around, bytes_chksum small]

/-- The checksum that the encoder builds is good. -/
theorem tlmVfyTarChecksum_build (header : TlmTarHdr) :
    tlmVfyTarChecksum (tlmBuildHeaderChecksum header).record = 1 := by
  have small := byteSum_small header.length_beforeChksum header.length_afterChksum
  rw [record_buildChecksum, tlmVfyTarChecksum_field header.length_beforeChksum small, if_pos rfl]

end Ndmpd
