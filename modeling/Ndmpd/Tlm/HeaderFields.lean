import Ndmpd.Tlm.Framing

/-!
# The numbers of a header

`output_file_header` prints the numbers of an entry in octal, each into a field of its own,
and `tar_getdir` reads them with `oct_atoi` into an `int`. Mode, owner, group and size are
read as they were printed. A date from 2^31 on is printed in full and read as a negative
one, and of an inode number only the low 32 bits are printed, so that two links are read
with one inode when their numbers differ above these (`headerFields_survive_iff`).
-/

namespace Ndmpd

open Foundation

/-! ## The conversion to `int` -/

theorem toInt32_lt (value : Nat) : toInt32 value < 2 ^ 31 := by
  unfold toInt32
  split <;> omega

/-- A number is kept by the conversion when its sign is. -/
theorem toInt32_eq_iff {value : Nat} : toInt32 value = value ↔ value < 2 ^ 31 := by
  refine ⟨?_, toInt32_of_lt⟩
  intro kept
  have bound := toInt32_lt value
  omega

/-- The conversion forgets what is above 32 bits and nothing else, also where its result is
widened to an `unsigned long`. -/
theorem widened_toInt32_inj {first second : Nat} :
    (toInt32 first % 2 ^ 64).toNat = (toInt32 second % 2 ^ 64).toNat ↔
      first % 2 ^ 32 = second % 2 ^ 32 := by
  unfold toInt32
  split <;> split <;> omega

/-! ## What is written -/

/-- The domain of the fields. -/
structure FieldsFit (attr : Stat) : Prop where
  stSize : attr.stSize ≤ tlmMaxTarImage
  stUid : attr.stUid ≤ octal7Char
  stGid : attr.stGid ≤ octal7Char
  stPerm : attr.stPerm ≤ 0o7777
  stMtime_nonneg : 0 ≤ attr.stMtime
  stMtime_le : attr.stMtime ≤ 8 ^ 11 - 1

/-- The owner that `output_file_header` prints. -/
def uidWritten (owners : OwnerNames) (attr : Stat) : Nat :=
  if octal7Char < attr.stUid ∨ (owners.getpwuid attr.stUid).getD [] = [] then uidNobody
  else attr.stUid

/-- The group that `output_file_header` prints. -/
def gidWritten (owners : OwnerNames) (attr : Stat) : Nat :=
  if octal7Char < attr.stGid ∨ (owners.getgrgid attr.stGid).getD [] = [] then uidNobody
  else attr.stGid

/-- A number up to `OCTAL7CHAR`, or `nobody` in its place, fits the field. -/
theorem owner_fits {id : Nat} (fits : id ≤ octal7Char) (unknown : Prop) [Decidable unknown] :
    (if unknown then uidNobody else id) < 2 ^ 21 := by
  have limit : octal7Char = 2 ^ 21 - 1 := rfl
  have nobody : uidNobody = 65534 := rfl
  split <;> omega

/-- The header of an entry, as `output_file_header` fills it in. The names in it are made up
where they do not fit. -/
def IsHeaderOf (owners : OwnerNames) (attr : Stat) (link : CString) (tarHdr : TlmTarHdr) : Prop :=
  ∃ thName thLinkname,
    tarHdr = TarStream.entryHeader (TarStream.ownedHeader owners attr) attr link thName thLinkname

/-- `output_file_header` ends with the header of the entry. -/
theorem TarStream.outputFileHeader_header {stream : TarStream} (forever : stream.grantsLeft = none)
    (owners : OwnerNames) (name : CString) {link : CString} (attr : Stat) (sectionNo : Nat)
    (ordinary : link.length < 2 ^ 31) :
    ∃ puts tarHdr, Emits stream (stream.outputFileHeader owners name link attr sectionNo)
      (puts ++ [.header tarHdr]) ∧ IsHeaderOf owners attr link tarHdr := by
  obtain ⟨names, links, thName, thLinkname, emits, -, -, -⟩ :=
    @outputFileHeader_puts stream forever owners name link attr sectionNo ordinary
  rw [← List.append_assoc] at emits
  exact ⟨names ++ links, _, emits, thName, thLinkname, rfl⟩

/-! ## What is read -/

/-- The numbers that `tar_getdir` reads off a header are those written for an entry. -/
structure Survives (owners : OwnerNames) (attr : Stat) (acls : TlmAcls) : Prop where
  stMode : acls.stMode = attr.stPerm
  stSize : acls.stSize = attr.stSize
  stUid : acls.stUid = uidWritten owners attr
  stGid : acls.stGid = gidWritten owners attr
  stMtime : acls.stMtime = attr.stMtime

namespace IsHeaderOf

variable {owners : OwnerNames} {attr : Stat} {link : CString} {tarHdr : TlmTarHdr}

/-- A field whose number is less than its width is read as it was printed. -/
theorem octAtoi_small {size precision value : Nat} (wide : precision < size)
    (positive : 0 < precision) (fits : value < 8 ^ (size - 1)) (small : value < 2 ^ 31)
    (rest : List UInt8) : octAtoi ((octalField size precision value).bytes ++ rest) = value := by
  rw [octAtoi_octalField wide positive fits, toInt32_of_lt small]

theorem stMode_eq (header : IsHeaderOf owners attr link tarHdr) (fit : FieldsFit attr) :
    octAtoi (tarHdr.record.drop thModeAt) = attr.stPerm := by
  obtain ⟨thName, thLinkname, rfl⟩ := header
  have bound := fit.stPerm
  rw [TlmTarHdr.drop_mode]
  exact octAtoi_small (by decide) (by decide) (by omega) (by omega) _

theorem stUid_eq (header : IsHeaderOf owners attr link tarHdr) (fit : FieldsFit attr) :
    octAtoi (tarHdr.record.drop thUidAt) = uidWritten owners attr := by
  obtain ⟨thName, thLinkname, rfl⟩ := header
  have bound : uidWritten owners attr < 2 ^ 21 := owner_fits fit.stUid _
  rw [TlmTarHdr.drop_uid]
  exact @octAtoi_small 8 6 (uidWritten owners attr) (by decide) (by decide) (by omega) (by omega) _

theorem stGid_eq (header : IsHeaderOf owners attr link tarHdr) (fit : FieldsFit attr) :
    octAtoi (tarHdr.record.drop thGidAt) = gidWritten owners attr := by
  obtain ⟨thName, thLinkname, rfl⟩ := header
  have bound : gidWritten owners attr < 2 ^ 21 := owner_fits fit.stGid _
  rw [TlmTarHdr.drop_gid]
  exact @octAtoi_small 8 6 (gidWritten owners attr) (by decide) (by decide) (by omega) (by omega) _

theorem stSize_eq (header : IsHeaderOf owners attr link tarHdr) (fit : FieldsFit attr) :
    octAtoi (tarHdr.record.drop thSizeAt) = attr.stSize := by
  obtain ⟨thName, thLinkname, rfl⟩ := header
  have limit : tlmMaxTarImage = 2 ^ 31 - 8 := rfl
  have bound := fit.stSize
  exact fileSize_of rfl (by omega)

/-- The date is printed in full. -/
theorem stMtime_eq (header : IsHeaderOf owners attr link tarHdr) (fit : FieldsFit attr) :
    octAtoi (tarHdr.record.drop thMtimeAt) = toInt32 attr.stMtime.toNat := by
  obtain ⟨thName, thLinkname, rfl⟩ := header
  have nonneg := fit.stMtime_nonneg
  have bound := fit.stMtime_le
  have printed : (attr.stMtime % 2 ^ 64).toNat = attr.stMtime.toNat := by
    omega
  rw [TlmTarHdr.drop_mtime, ← printed]
  exact octAtoi_octalField (by decide) (by decide) (by omega) _

/-- All numbers but the date are kept, and the date when it is before 2^31. -/
theorem survives_iff (header : IsHeaderOf owners attr link tarHdr) (fit : FieldsFit attr)
    (acls : TlmAcls) :
    Survives owners attr (RestoreWriter.headerAcls acls tarHdr.record) ↔ attr.stMtime < 2 ^ 31 := by
  have nonneg := fit.stMtime_nonneg
  have date := header.stMtime_eq fit
  have signed : toInt32 attr.stMtime.toNat = attr.stMtime ↔ attr.stMtime < 2 ^ 31 := by
    have kept := @toInt32_eq_iff attr.stMtime.toNat
    rw [Int.toNat_of_nonneg nonneg] at kept
    rw [kept]
    omega
  constructor
  · intro survives
    exact signed.mp (date.symm.trans survives.stMtime)
  · intro early
    exact ⟨header.stMode_eq fit, header.stSize_eq fit, header.stUid_eq fit, header.stGid_eq fit,
      date.trans (signed.mpr early)⟩

/-- Of the inode of a link the low 32 bits are read. -/
theorem inodeRead_eq (header : IsHeaderOf owners attr link tarHdr)
    (isLink : TarStream.linkflagOf attr link = lfLink) :
    tarHdr.inodeRead = (toInt32 attr.stIno % 2 ^ 64).toNat := by
  obtain ⟨thName, thLinkname, rfl⟩ := header
  have field : (TarStream.entryHeader (TarStream.ownedHeader owners attr) attr link thName
      thLinkname).thHlinkIno = octalField _ 11 (attr.stIno % 2 ^ 32) := by
    unfold TarStream.entryHeader tlmBuildHeaderChecksum
    dsimp only
    rw [if_pos isLink]
  have low : toInt32 (attr.stIno % 2 ^ 32) = toInt32 attr.stIno := by
    rw [toInt32, toInt32, Nat.mod_mod]
  rw [TlmTarHdr.inodeRead, TlmTarHdr.drop_hlinkIno, field,
    octAtoi_octalField (by decide) (by decide) (by omega), low]

end IsHeaderOf

/-- The numbers of two entries survive, and their inodes are told apart when both are links,
exactly if the dates are before 2^31 and the inodes differ in their low 32 bits. -/
theorem headerFields_survive_iff {owners : OwnerNames} {first second : Stat}
    {firstLink secondLink : CString} {firstHdr secondHdr : TlmTarHdr}
    (firstHeader : IsHeaderOf owners first firstLink firstHdr)
    (secondHeader : IsHeaderOf owners second secondLink secondHdr) (firstFit : FieldsFit first)
    (secondFit : FieldsFit second) (acls : TlmAcls) :
    (Survives owners first (RestoreWriter.headerAcls acls firstHdr.record) ∧
      Survives owners second (RestoreWriter.headerAcls acls secondHdr.record) ∧
      (TarStream.linkflagOf first firstLink = lfLink →
        TarStream.linkflagOf second secondLink = lfLink → first.stIno ≠ second.stIno →
          firstHdr.inodeRead ≠ secondHdr.inodeRead)) ↔
    (first.stMtime < 2 ^ 31 ∧ second.stMtime < 2 ^ 31 ∧
      (TarStream.linkflagOf first firstLink = lfLink →
        TarStream.linkflagOf second secondLink = lfLink → first.stIno ≠ second.stIno →
          first.stIno % 2 ^ 32 ≠ second.stIno % 2 ^ 32)) := by
  rw [firstHeader.survives_iff firstFit, secondHeader.survives_iff secondFit]
  refine and_congr_right' (and_congr_right' ?_)
  refine forall_congr' fun firstIsLink => forall_congr' fun secondIsLink => ?_
  rw [firstHeader.inodeRead_eq firstIsLink, secondHeader.inodeRead_eq secondIsLink]
  exact forall_congr' fun _ => not_congr widened_toInt32_inj

/-- A file with another link to it, of which the date and the inode vary. -/
def linkedFile (stIno : Nat) (stMtime : Int) : Stat where
  fileType := .regular
  stPerm := 0o644
  stNlink := 2
  stIno := stIno
  stUid := 10
  stGid := 10
  stSize := 5
  stMtime := stMtime
  stCtime := 0

/-- The users and groups of the examples, of whom all are known. -/
def knownOwners : OwnerNames where
  getpwuid _ := some [117]
  getgrgid _ := some [103]

theorem headerFields_survive_iff_twoLinks :
    ∃ firstHdr secondHdr, IsHeaderOf knownOwners (linkedFile 1 7) [] firstHdr ∧
      IsHeaderOf knownOwners (linkedFile 2 8) [] secondHdr ∧
        Survives knownOwners (linkedFile 1 7) (RestoreWriter.headerAcls .zero firstHdr.record) ∧
          firstHdr.inodeRead ≠ secondHdr.inodeRead := by
  have firstFit : FieldsFit (linkedFile 1 7) := by
    constructor <;> decide
  have secondFit : FieldsFit (linkedFile 2 8) := by
    constructor <;> decide
  have first : IsHeaderOf knownOwners (linkedFile 1 7) [] _ := ⟨[97], [], rfl⟩
  have second : IsHeaderOf knownOwners (linkedFile 2 8) [] _ := ⟨[98], [], rfl⟩
  have survive := (headerFields_survive_iff first second firstFit secondFit .zero).mpr
    ⟨by decide, by decide, fun _ _ _ => by decide⟩
  exact ⟨_, _, first, second, survive.1, survive.2.2 rfl rfl (by decide)⟩

/-- A file of the year 2038 gets a date of the year 1901, and two links to files with other
inodes are read as links to one file. -/
theorem headerFields_lost :
    FieldsFit (linkedFile 1 (2 ^ 31)) ∧ FieldsFit (linkedFile (2 ^ 32 + 1) 0) ∧
      ∃ firstHdr secondHdr, IsHeaderOf knownOwners (linkedFile 1 (2 ^ 31)) [] firstHdr ∧
        IsHeaderOf knownOwners (linkedFile (2 ^ 32 + 1) 0) [] secondHdr ∧
          firstHdr.thLinkflag = lfLink ∧ secondHdr.thLinkflag = lfLink ∧
            (RestoreWriter.headerAcls .zero firstHdr.record).stMtime = -2 ^ 31 ∧
              firstHdr.inodeRead = secondHdr.inodeRead := by
  have firstFit : FieldsFit (linkedFile 1 (2 ^ 31)) := by
    constructor <;> decide
  have secondFit : FieldsFit (linkedFile (2 ^ 32 + 1) 0) := by
    constructor <;> decide
  have first : IsHeaderOf knownOwners (linkedFile 1 (2 ^ 31)) [] _ := ⟨[97], [], rfl⟩
  have second : IsHeaderOf knownOwners (linkedFile (2 ^ 32 + 1) 0) [] _ := ⟨[98], [], rfl⟩
  refine ⟨firstFit, secondFit, _, _, first, second, rfl, rfl, ?_, ?_⟩
  · exact (first.stMtime_eq firstFit).trans (by decide)
  · rw [first.inodeRead_eq (by decide), second.inodeRead_eq (by decide)]
    decide

end Ndmpd
