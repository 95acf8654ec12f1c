import Ndmpd.Tlm.ArchiveView

/-!
# Headers and the data behind them

The decoder finds the next header by the size in the one before it. A stream is framed
(`Framed`) if each header is followed by just the records that the decoder takes for it,
and if what it takes has been filled in: of the records behind a header the first
`th_size` bytes, none of them left over from what the block held before.

The data of names, link targets and ACLs is always there (`Filled.covered`). What
`tlm_output_file` puts out of the file itself is framed exactly when every `read(2)`
returns all that it is asked for (`TarStream.ReadsFill`).
-/

namespace Ndmpd

open Foundation

/-! ## Framed streams -/

namespace Put

/-- The grant is for data. -/
def isData : Put → Bool
  | header _ => false
  | data _ _ => true

/-- The bytes of a grant that were filled in. What was not filled in is whatever the
block held before. -/
def cells : Put → List (Option UInt8)
  | header tarHdr => tarHdr.record.map some
  | data granted bytes =>
      bytes.map some ++ List.replicate (granted - bytes.length) none

end Put

namespace TlmTarHdr

/-- The size that the decoder reads off a header. -/
def sizeRead (tarHdr : TlmTarHdr) : Nat := (octAtoi (tarHdr.record.drop thSizeAt)).toNat

/-- The inode that the decoder reads off the header of a link. -/
def inodeRead (tarHdr : TlmTarHdr) : Nat :=
  ((octAtoi (tarHdr.record.drop thHlinkInoAt)) % 2 ^ 64).toNat

end TlmTarHdr

/-- The types of headers that `tar_getdir` takes data for. For a link it does unless it
has restored the inode before, which it does not look up when it is 0. -/
def carriesData (seen : Nat → Bool) (linkflag : UInt8) (inode : Nat) : Bool :=
  if linkflag = lfLink then inode = 0 ∨ ¬ seen inode
  else linkflag ∈ [lfOldnormal, lfNormal, lfContig, lfLonglink, lfLongname, lfAcl, lfHumongus]

/-- The inodes that have been restored behind a header. -/
def noteLink (seen : Nat → Bool) (linkflag : UInt8) (inode : Nat) : Nat → Bool :=
  if linkflag = lfLink then fun other => other = inode || seen other else seen

/-- The data is just the records for a number of bytes, and these bytes have been filled
in from their source. -/
def Covered (source : UInt8 → Prop) (due : Nat) (data : List Put) : Prop :=
  (data.map Put.size).sum = roundToRecords due ∧
    ∀ cell ∈ (data.flatMap Put.cells).take due, ∃ byte, cell = some byte ∧ source byte

/-- Every header is followed by the data that the decoder takes for it, and by no other
data. The source of the data depends on the type of the header. -/
def Framed (source : UInt8 → UInt8 → Prop) : (Nat → Bool) → List Put → Prop
  | _, [] => True
  | seen, .data _ _ :: puts => Framed source seen puts
  | seen, .header tarHdr :: puts =>
      Covered (source tarHdr.thLinkflag)
          (if carriesData seen tarHdr.thLinkflag tarHdr.inodeRead then tarHdr.sizeRead else 0)
          (puts.takeWhile Put.isData) ∧
        Framed source (noteLink seen tarHdr.thLinkflag tarHdr.inodeRead) puts

/-- Nothing more comes, or a header. -/
def Headed (puts : List Put) : Prop := puts.takeWhile Put.isData = []

theorem headed_header (tarHdr : TlmTarHdr) (puts : List Put) : Headed (.header tarHdr :: puts) :=
  rfl

/-! ## Covering -/

namespace Covered

variable {source : UInt8 → Prop} {due granted : Nat} {bytes : List UInt8} {rest : List Put}

theorem nothing : Covered source 0 [] := ⟨rfl, nofun⟩

/-- Where data is due, some has to come. -/
theorem due_eq_zero (covered : Covered source due []) : due = 0 := by
  have above := roundToRecords_ge due
  have size : roundToRecords due = 0 := covered.1.symm
  omega

/-- Where no data is due, none may come. -/
theorem not_zero (positive : 0 < granted) :
    ¬ Covered source 0 (.data granted bytes :: rest) := by
  rintro ⟨size, _⟩
  rw [List.map_cons, List.sum_cons, Put.size] at size
  have none : roundToRecords 0 = 0 := rfl
  omega

/-- A grant that has been filled as far as it is due is followed by what remains due. -/
theorem piece (full : bytes.length = min due granted) (records : 512 ∣ granted)
    (most : granted ≤ roundToRecords due) (read : ∀ byte ∈ bytes, source byte) :
    Covered source due (.data granted bytes :: rest) ↔
      Covered source (due - bytes.length) rest := by
  have size : roundToRecords due = granted + roundToRecords (due - bytes.length) := by
    unfold roundToRecords recordSize at most ⊢
    omega
  have split : ((Put.data granted bytes :: rest).flatMap Put.cells).take due =
      bytes.map some ++ (rest.flatMap Put.cells).take (due - bytes.length) := by
    have length : (Put.data granted bytes).cells.length = granted := by
      rw [Put.cells, List.length_append, List.length_map, List.length_replicate]
      omega
    rw [List.flatMap_cons, List.take_append, length]
    by_cases whole : granted ≤ due
    · rw [List.take_of_length_le (by omega), Put.cells, show granted - bytes.length = 0 by omega,
        show due - bytes.length = due - granted by omega, List.replicate_zero, List.append_nil]
    · have front : (Put.data granted bytes).cells.take due = bytes.map some := by
        rw [Put.cells]
        exact List.take_left' (by rw [List.length_map]; omega)
      rw [front, show due - granted = 0 by omega, show due - bytes.length = 0 by omega]
  unfold Covered
  rw [split, size, List.map_cons, List.sum_cons, Put.size, Nat.add_left_cancel_iff]
  refine and_congr_right fun _ => ?_
  constructor
  · intro all cell listed
    exact all cell (List.mem_append_right _ listed)
  · intro all cell listed
    rcases List.mem_append.mp listed with front | back
    · obtain ⟨byte, given, rfl⟩ := List.mem_map.mp front
      exact ⟨byte, rfl, read byte given⟩
    · exact all cell back

/-- A grant that is not filled as far as it is due leaves a byte of the block's old
content. -/
theorem not_of_short (short : bytes.length < granted) (wanted : bytes.length < due) :
    ¬ Covered source due (.data granted bytes :: rest) := by
  rintro ⟨_, all⟩
  obtain ⟨byte, given, _⟩ := all none (by
    rw [List.flatMap_cons, Put.cells, List.append_assoc, List.take_append, List.length_map]
    refine List.mem_append_right _ ?_
    have one : ∃ more, granted - bytes.length = more + 1 :=
      Nat.exists_eq_add_one.mpr (by omega)
    have left : ∃ more, due - bytes.length = more + 1 := Nat.exists_eq_add_one.mpr (by omega)
    obtain ⟨more, stale⟩ := one
    obtain ⟨less, due⟩ := left
    rw [stale, due, List.replicate_succ, List.cons_append, List.take_succ_cons]
    exact List.mem_cons_self)
  cases given

end Covered

/-- Data that comes in filled pieces covers its length. -/
theorem Filled.covered {source : UInt8 → Prop} {mem : List UInt8} {puts : List Put}
    (filled : Filled mem puts) (read : ∀ byte ∈ mem, source byte) :
    Covered source mem.length puts := by
  induction filled with
  | nil => exact .nothing
  | @cons mem granted puts positive records most rest ih =>
      have after := ih fun byte listed => read byte (List.mem_of_mem_drop listed)
      have front : ∀ byte ∈ mem.take granted, source byte :=
        fun byte listed => read byte (List.mem_of_mem_take listed)
      have length : (mem.take granted).length = min mem.length granted := by
        rw [List.length_take, Nat.min_comm]
      rw [Covered.piece length records most front, length]
      rwa [List.length_drop, show mem.length - granted = mem.length - min mem.length granted by
        omega] at after

theorem Filled.isData {mem : List UInt8} {puts : List Put} (filled : Filled mem puts) :
    ∀ put ∈ puts, put.isData = true := by
  induction filled with
  | nil => exact nofun
  | cons _ _ _ _ ih =>
      intro put listed
      rcases List.mem_cons.mp listed with rfl | listed
      · rfl
      · exact ih put listed

/-! ## Framing -/

namespace Framed

variable {source : UInt8 → UInt8 → Prop} {seen : Nat → Bool} {data rest : List Put}

/-- Data is looked at with its header. -/
theorem data_append (all : ∀ put ∈ data, put.isData = true) :
    Framed source seen (data ++ rest) ↔ Framed source seen rest := by
  induction data with
  | nil => rfl
  | cons put data ih =>
      have more := ih fun other listed => all other (List.mem_cons_of_mem _ listed)
      cases put with
      | header tarHdr => cases all (.header tarHdr) List.mem_cons_self
      | data granted bytes => exact more

/-- A header that carries text, with the text behind it. -/
theorem text_append {tarHdr : TlmTarHdr} {mem : List UInt8}
    (flag : tarHdr.thLinkflag ∈ [lfLonglink, lfLongname, lfAcl, lfHumongus])
    (size : tarHdr.thSize = octalField _ 11 mem.length) (small : mem.length < 2 ^ 31)
    (filled : Filled mem data) (own : ∀ byte ∈ mem, source tarHdr.thLinkflag byte)
    (headed : Headed rest) :
    Framed source seen (.header tarHdr :: data ++ rest) ↔ Framed source seen rest := by
  have carries : carriesData seen tarHdr.thLinkflag tarHdr.inodeRead = true ∧
      noteLink seen tarHdr.thLinkflag tarHdr.inodeRead = seen := by
    simp only [List.mem_cons, List.not_mem_nil, or_false] at flag
    rcases flag with flag | flag | flag | flag <;> rw [flag] <;> exact ⟨rfl, rfl⟩
  have sized : tarHdr.sizeRead = mem.length := by
    rw [TlmTarHdr.sizeRead, fileSize_of size small, Int.toNat_natCast]
  have behind : (data ++ rest).takeWhile Put.isData = data := by
    rw [List.takeWhile_append_of_pos filled.isData, headed, List.append_nil]
  rw [List.cons_append, Framed, carries.1, if_pos rfl, sized, behind, carries.2,
    data_append filled.isData]
  exact and_iff_right (filled.covered own)

end Framed

/-- A name or link target that does not fit is framed by itself. -/
theorem NamePuts.framed {source : UInt8 → UInt8 → Prop} {seen : Nat → Bool} {linkflag : UInt8}
    {text : CString} {puts rest : List Put} (names : NamePuts linkflag text puts)
    (flag : linkflag ∈ [lfLonglink, lfLongname, lfAcl, lfHumongus])
    (small : text.length < 2 ^ 31) (own : ∀ byte, source linkflag byte) (headed : Headed rest) :
    Framed source seen (puts ++ rest) ↔ Framed source seen rest := by
  cases names with
  | short => rfl
  | long _ _ same size filled =>
      subst same
      exact Framed.text_append flag size small filled (fun byte _ => own byte) headed

/-- In front of a name or a header comes no data. -/
theorem NamePuts.headed {linkflag : UInt8} {text : CString} {puts rest : List Put}
    (names : NamePuts linkflag text puts) (headed : Headed rest) : Headed (puts ++ rest) := by
  cases names with
  | short => exact headed
  | long => exact headed_header _ _

theorem HeaderPuts.headed {linkflag : UInt8} {size ino : Nat} {name link : CString}
    {puts rest : List Put} (header : HeaderPuts linkflag size ino name link puts) :
    Headed (puts ++ rest) := by
  cases header with
  | mk names links entry =>
      rw [List.append_assoc]
      refine names.headed ?_
      rw [List.append_assoc]
      exact links.headed (headed_header _ _)

/-! ## The header of an entry -/

/-- The size that the decoder reads where a size has been written. -/
def sizePromised (size : Nat) : Nat := (octAtoi (octalField 12 11 size).bytes).toNat

/-- The inode that the decoder reads where an inode has been written. -/
def inodePrinted (ino : Nat) : Nat := (toInt32 (ino % 2 ^ 32) % 2 ^ 64).toNat

/-- A number ends at a NUL. -/
theorem octAtoi_nul (front rest : List UInt8) : octAtoi (front ++ 0 :: rest) = octAtoi front := by
  have skipped : (front ++ 0 :: rest).dropWhile (· = 32) =
      front.dropWhile (· = 32) ++ 0 :: rest := by
    rw [List.dropWhile_append]
    split
    · rename_i blank
      rw [List.isEmpty_iff.mp blank]
      rfl
    · rfl
  have ended : ∀ text : List UInt8,
      (text ++ 0 :: rest).takeWhile (isDigit 8) = text.takeWhile (isDigit 8) := by
    intro text
    induction text with
    | nil => rfl
    | cons byte text ih =>
        rw [List.cons_append, List.takeWhile_cons, List.takeWhile_cons, ih]
  rw [octAtoi, octAtoi, skipped, ended]

/-- What a field is read as does not depend on what follows it. -/
theorem octAtoi_octalField_append (size precision value : Nat) (positive : 0 < size)
    (rest : List UInt8) :
    octAtoi ((octalField size precision value).bytes ++ rest) =
      octAtoi (octalField size precision value).bytes := by
  obtain ⟨front, zeros, ends⟩ : ∃ front zeros,
      (octalField size precision value).bytes = front ++ 0 :: zeros := by
    unfold octalField CharArray.ofString
    generalize padLeft 48 precision (numeral 8 value) ++ [32] = text
    obtain ⟨count, more⟩ : ∃ count, size - min (size - 1) text.length = count + 1 :=
      Nat.exists_eq_add_one.mpr (by omega)
    refine ⟨text.take (size - 1), List.replicate count 0, ?_⟩
    change text.take (size - 1) ++ List.replicate (size - min (size - 1) text.length) 0 = _
    rw [more, List.replicate_succ]
  rw [ends, List.append_assoc, List.cons_append, octAtoi_nul, octAtoi_nul]

theorem sizePromised_of_lt {size : Nat} (small : size < 2 ^ 31) : sizePromised size = size := by
  have read := @octAtoi_octalField 12 11 size (by decide) (by decide) (by omega) []
  rw [List.append_nil] at read
  rw [sizePromised, read, toInt32_of_lt small, Int.toNat_natCast]

namespace EntryHeader

variable {tarHdr : TlmTarHdr} {linkflag : UInt8} {size ino : Nat} {name link : CString}

theorem sizeRead_eq (header : EntryHeader tarHdr linkflag size ino name link) :
    tarHdr.sizeRead = sizePromised size := by
  rw [TlmTarHdr.sizeRead, tarHdr.drop_size, header.thSize,
    octAtoi_octalField_append _ _ _ (by decide), sizePromised]

/-- Whether the decoder takes data behind the header, and what it notes. -/
theorem carriesData_eq (header : EntryHeader tarHdr linkflag size ino name link)
    (seen : Nat → Bool) :
    carriesData seen tarHdr.thLinkflag tarHdr.inodeRead =
        carriesData seen linkflag (inodePrinted ino) ∧
      noteLink seen tarHdr.thLinkflag tarHdr.inodeRead =
        noteLink seen linkflag (inodePrinted ino) := by
  rw [header.thLinkflag]
  by_cases isLink : linkflag = lfLink
  · subst isLink
    rw [TlmTarHdr.inodeRead, header.inode, inodePrinted]
    exact ⟨rfl, rfl⟩
  · unfold carriesData noteLink
    rw [if_neg isLink, if_neg isLink, if_neg isLink, if_neg isLink]
    exact ⟨rfl, rfl⟩

end EntryHeader

/-- The header of an entry asks for its data. -/
theorem HeaderPuts.framed_iff {source : UInt8 → UInt8 → Prop} {seen : Nat → Bool}
    {linkflag : UInt8} {size ino : Nat} {name link : CString} {puts rest : List Put}
    (header : HeaderPuts linkflag size ino name link puts) (nameSmall : name.length < 2 ^ 31)
    (linkSmall : link.length < 2 ^ 31)
    (own : ∀ flag ∈ [lfLonglink, lfLongname, lfAcl, lfHumongus], ∀ byte, source flag byte) :
    Framed source seen (puts ++ rest) ↔
      Covered (source linkflag)
          (if carriesData seen linkflag (inodePrinted ino) then sizePromised size else 0)
          (rest.takeWhile Put.isData) ∧
        Framed source (noteLink seen linkflag (inodePrinted ino)) rest := by
  cases header with
  | @mk names links tarHdr namePuts linkPuts entry =>
      obtain ⟨carries, notes⟩ := entry.carriesData_eq seen
      have isName : lfLongname ∈ [lfLonglink, lfLongname, lfAcl, lfHumongus] := by decide
      have isLink : lfLonglink ∈ [lfLonglink, lfLongname, lfAcl, lfHumongus] := by decide
      rw [List.append_assoc, List.append_assoc, List.singleton_append,
        namePuts.framed isName nameSmall (own _ isName) (linkPuts.headed (headed_header _ _)),
        linkPuts.framed isLink linkSmall (own _ isLink) (headed_header _ _),
        Framed, carries, notes, entry.sizeRead_eq, entry.thLinkflag]

end Ndmpd
