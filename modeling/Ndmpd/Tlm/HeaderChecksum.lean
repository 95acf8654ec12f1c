import Ndmpd.Tlm.TarHeader

/-!
# The checksum of a header record

`tlm_build_header_checksum` and `tlm_vfy_tar_checksum` on any record of 512 bytes, of which
the field of the checksum are eight. The sum goes over all others, with blanks in the place
of the field, so that a record with its checksum built is good, and is not any more when one
byte outside the field is another (`tlmVfyTarChecksum_sound`). The headers of a backup are the
records among these that are put together of fields (`record_tlmBuildHeaderChecksum`).
-/

namespace Ndmpd

open Foundation

/-- `tlm_build_header_checksum` on a record. -/
def buildRecordChecksum (record : CharArray recordSize) : CharArray recordSize :=
  let blanked := record.write thChksumAt (List.replicate 8 32)
  let sum := byteSum blanked.bytes
  blanked.write thChksumAt ((padLeft 32 6 (numeral 8 sum)).take 7 ++ [0])

/-- A record around the field of its checksum. -/
theorem exists_around (record : CharArray recordSize) : ∃ front field back,
    record.bytes = front ++ (field ++ back) ∧ front.length = thChksumAt ∧ field.length = 8 ∧
      back.length = 356 := by
  have size : record.bytes.length = 512 := record.length_bytes
  refine ⟨record.bytes.take thChksumAt, (record.bytes.drop thChksumAt).take 8,
    (record.bytes.drop thChksumAt).drop 8, ?_, ?_, ?_, ?_⟩
  · rw [List.take_append_drop, List.take_append_drop]
  · rw [List.length_take, size]
    rfl
  · rw [List.length_take, List.length_drop, size]
    rfl
  · rw [List.length_drop, List.length_drop, size]
    rfl

/-- A write over the front of a field. -/
theorem bytes_write_around {record : CharArray recordSize} {front field back bytes : List UInt8}
    {offset : Nat} (around : record.bytes = front ++ (field ++ back))
    (frontSize : front.length = offset) (fits : bytes.length ≤ field.length) :
    (record.write offset bytes).bytes = front ++ (bytes ++ (field.drop bytes.length ++ back)) := by
  have size := record.length_bytes
  rw [around, List.length_append, List.length_append] at size
  rw [CharArray.bytes_write (by omega), around, List.take_left' frontSize, ← List.drop_drop,
    List.drop_left' frontSize, List.drop_append_of_le_length fits]

/-- What `tlm_build_header_checksum` leaves in the record. -/
theorem bytes_buildRecordChecksum {record : CharArray recordSize} {front field back : List UInt8}
    (around : record.bytes = front ++ (field ++ back)) (frontSize : front.length = thChksumAt)
    (fieldSize : field.length = 8) (backSize : back.length = 356) :
    (buildRecordChecksum record).bytes =
      front ++ (chksumField (byteSum front + byteSum back + 32 * 8) ++ back) := by
  have small := byteSum_small frontSize backSize
  have blanks : (record.write thChksumAt (List.replicate 8 32)).bytes =
      front ++ (List.replicate 8 32 ++ back) := by
    rw [bytes_write_around around frontSize (by rw [fieldSize, List.length_replicate]),
      List.length_replicate, ← fieldSize, List.drop_length, List.nil_append]
  have sum : byteSum (record.write thChksumAt (List.replicate 8 32)).bytes =
      byteSum front + byteSum back + 32 * 8 := by
    have eight : byteSum (List.replicate 8 32) = 32 * 8 := by decide
    rw [blanks, byteSum_append, byteSum_append, eight]
    omega
  have six := length_printedSum small
  unfold buildRecordChecksum
  dsimp only
  rw [sum]
  unfold chksumField
  generalize padLeft 32 6 (numeral 8 (byteSum front + byteSum back + 32 * 8)) = digits at six ⊢
  have seven : (digits ++ [(0 : UInt8)]).length = 7 := by
    rw [List.length_append, six, List.length_singleton]
  rw [List.take_of_length_le (by omega),
    bytes_write_around blanks frontSize (by rw [seven, List.length_replicate]; decide), seven]
  simp

/-- Another byte makes another sum. -/
theorem byteSum_set {bytes : List UInt8} {index : Nat} (inside : index < bytes.length)
    {byte : UInt8} (other : bytes[index]? ≠ some byte) :
    byteSum (bytes.set index byte) ≠ byteSum bytes := by
  have whole : byteSum bytes = byteSum (bytes.take index) +
      (bytes[index].toNat + byteSum (bytes.drop (index + 1))) := by
    calc byteSum bytes
      _ = byteSum (bytes.take index ++ bytes[index] :: bytes.drop (index + 1)) := by
        rw [List.getElem_cons_drop, List.take_append_drop]
      _ = _ := byteSum_append _ _
  have changed : byteSum (bytes.set index byte) = byteSum (bytes.take index) +
      (byte.toNat + byteSum (bytes.drop (index + 1))) := by
    rw [List.set_eq_take_append_cons_drop, if_pos inside]
    exact byteSum_append _ _
  intro same
  have values : bytes[index].toNat = byte.toNat := by
    omega
  rw [List.getElem?_eq_getElem inside] at other
  exact other (congrArg some (UInt8.toNat_inj.mp values))

/-- A record sums up to nothing when all of its bytes are zero. -/
theorem byteSum_eq_zero_iff {bytes : List UInt8} :
    byteSum bytes = 0 ↔ bytes = List.replicate bytes.length 0 := by
  induction bytes with
  | nil => exact iff_of_true rfl rfl
  | cons byte bytes ih =>
      have value : byte.toNat = 0 ↔ byte = 0 :=
        show byte.toNat = (0 : UInt8).toNat ↔ byte = 0 from UInt8.toNat_inj
      rw [show byteSum (byte :: bytes) = byte.toNat + byteSum bytes from rfl, Nat.add_eq_zero_iff,
        value, ih, List.length_cons, List.replicate_succ, List.cons.injEq]

/-- The checksum of a record in which another byte has been changed is bad. -/
theorem tlmVfyTarChecksum_changed {front back : List UInt8} (frontSize : front.length = thChksumAt)
    (backSize : back.length = 356) {index : Nat} {byte : UInt8} {field : List UInt8}
    (isField : field = chksumField (byteSum front + byteSum back + 32 * 8))
    (inside : index < recordSize) (outside : index < thChksumAt ∨ thLinkflagAt ≤ index)
    (other : (front ++ (field ++ back))[index]? ≠ some byte) :
    tlmVfyTarChecksum ((front ++ (field ++ back)).set index byte) = -1 := by
  have small := byteSum_small frontSize backSize
  have fieldSize : field.length = 8 := isField ▸ length_chksumField small
  have ends : thLinkflagAt = thChksumAt + 8 := rfl
  have size : recordSize = thChksumAt + 8 + 356 := rfl
  rcases outside with early | late
  · rw [List.set_append_left _ _ (by omega)]
    rw [List.getElem?_append_left (by omega)] at other
    have changed := byteSum_set (by omega) other
    rw [isField, tlmVfyTarChecksum_field (by rw [List.length_set, frontSize]) small, if_neg]
    omega
  · rw [List.set_append_right _ _ (by omega), List.set_append_right _ _ (by omega)]
    rw [List.getElem?_append_right (by omega), List.getElem?_append_right (by omega)] at other
    have changed := byteSum_set (by omega) other
    rw [isField, tlmVfyTarChecksum_field frontSize small, if_neg]
    rw [← isField]
    omega

/-- 0 stands for the empty record only. -/
theorem tlmVfyTarChecksum_eq_zero_iff {bytes : List UInt8} :
    tlmVfyTarChecksum bytes = 0 ↔ bytes = List.replicate bytes.length 0 := by
  rw [← byteSum_eq_zero_iff]
  unfold tlmVfyTarChecksum
  dsimp only
  by_cases empty : byteSum bytes = 0
  · rw [if_pos empty]
    exact iff_of_true rfl empty
  · rw [if_neg empty]
    refine iff_of_false ?_ empty
    split
    · exact Int.one_ne_zero
    · decide

/-- On a header the checksum is built as on its record. -/
theorem record_tlmBuildHeaderChecksum (header : TlmTarHdr) :
    (tlmBuildHeaderChecksum header).record =
      (buildRecordChecksum ⟨header.record, header.length_record⟩).bytes := by
  rw [record_buildChecksum]
  exact (bytes_buildRecordChecksum (header.record_around header.thChksum)
    header.length_beforeChksum header.thChksum.length_bytes header.length_afterChksum).symm

/-! ## Any record -/

/-- A record with its checksum built is good; it is not when a byte outside the checksum is
changed; and the empty record is the only one for which 0 is returned. -/
theorem tlmVfyTarChecksum_sound (record : CharArray recordSize) :
    tlmVfyTarChecksum (buildRecordChecksum record).bytes = 1 ∧
      (∀ index byte, index < recordSize → (index < thChksumAt ∨ thLinkflagAt ≤ index) →
        (buildRecordChecksum record).bytes[index]? ≠ some byte →
          tlmVfyTarChecksum ((buildRecordChecksum record).bytes.set index byte) = -1) ∧
      (tlmVfyTarChecksum record.bytes = 0 ↔ record.bytes = List.replicate recordSize 0) := by
  obtain ⟨front, field, back, around, frontSize, fieldSize, backSize⟩ := exists_around record
  have built := bytes_buildRecordChecksum around frontSize fieldSize backSize
  refine ⟨?_, ?_, ?_⟩
  · rw [built, tlmVfyTarChecksum_field frontSize (byteSum_small frontSize backSize), if_pos rfl]
  · intro index byte inside outside other
    rw [built] at other ⊢
    exact tlmVfyTarChecksum_changed frontSize backSize rfl inside outside other
  · rw [tlmVfyTarChecksum_eq_zero_iff, record.length_bytes]

end Ndmpd
