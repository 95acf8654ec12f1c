import Ndmpd.Session.Base64
import Mathlib.Data.List.TakeWhile

/-!
# The buffers of base 64

The buffers that are allocated have fixed sizes, and neither function looks at how long its
string is. A group of three bytes takes four, so that 765 bytes are encoded inside of the
buffer (`length_encodeWrites`), and the other way 341 digits are decoded inside of theirs
(`decodeWrites_length`). When the last group of digits is not full, the table is searched for a
NUL that it does not have (`searchesInside_iff`). `base64_inside_iff` has the exact conditions.
-/

namespace Ndmpd

open Foundation

namespace Base64

/-! ## Searches of the table -/

/-- How many bytes of the memory `strchr(3)` reads. -/
def strchrReads (memory : List UInt8) (c : UInt8) : Nat :=
  (memory.takeWhile fun byte => byte ≠ 0 ∧ byte ≠ c).length + 1

/-- The characters of `arr_4` that are looked up: none behind one that is not found. -/
def searched (beyond : List UInt8) : List UInt8 → List UInt8
  | [] => []
  | c :: arr4 =>
      if (strchr (b64Data ++ beyond) c).isSome then c :: searched beyond arr4 else [c]

/-- The body of the loop for a full group, with the characters looked up so far. -/
def searchFull (beyond : List UInt8) (state : Option (List UInt8) × List UInt8)
    (arr4 : List UInt8) : Option (List UInt8) × List UInt8 :=
  (decodeFull beyond state.1 arr4,
    if state.1 = none then state.2 else state.2 ++ searched beyond arr4)

/-- What stands behind the loop. -/
def searchRest (beyond : List UInt8) (state : Option (List UInt8) × List UInt8)
    (arr4 : List UInt8) : List UInt8 :=
  if arr4 = [] ∨ state.1 = none then state.2
  else state.2 ++ searched beyond (arr4 ++ List.replicate (4 - arr4.length) 0)

/-- The digits of base 64 that a string begins with. -/
def leadingDigits (encoded : List UInt8) : List UInt8 :=
  (encoded.take (encoded.length % 2 ^ 32)).takeWhile goesOn

/-- The characters that `ndmp_base64_decode` looks up in the table. -/
def decodeSearches (beyond encoded : List UInt8) : List UInt8 :=
  let gathered := gather 4 (searchFull beyond) (some [], []) [] (leadingDigits encoded)
  searchRest beyond gathered.1 gathered.2

/-- Every search reads entries of the table only. -/
def SearchesInside (beyond encoded : List UInt8) : Prop :=
  ∀ c ∈ decodeSearches beyond encoded, strchrReads (b64Data ++ beyond) c ≤ b64Data.length

/-! ## Encoding -/

theorem length_restChars {arr3 : List UInt8} (short : arr3.length < 3) :
    (restChars arr3).length + (if arr3 = [] then 0 else 3 - arr3.length) =
      if arr3 = [] then 0 else 4 := by
  unfold restChars
  by_cases empty : arr3 = []
  · rw [if_pos empty, if_pos empty, if_pos empty, List.length_nil]
  · rw [if_neg empty, if_neg empty, if_neg empty, List.length_map, List.length_take,
      length_encodeGroup]
    omega

/-- Every group of three bytes, full or not, is written as four. -/
theorem length_encodeWrites (text : List UInt8) :
    (encodeWrites text).length = 4 * ((text.length % 2 ^ 32 + 2) / 3) + 1 := by
  obtain ⟨groups, rest, whole, full, short⟩ :=
    exists_groups (show 0 < 3 by decide) (text.take (text.length % 2 ^ 32))
  have taken : (groups.flatten ++ rest).length = text.length % 2 ^ 32 := by
    rw [← whole, List.length_take, Nat.min_eq_left (Nat.mod_le _ _)]
  have fullFour : ∀ chars ∈ groups.map fullChars, chars.length = 4 := by
    intro chars listed
    obtain ⟨group, -, rfl⟩ := List.mem_map.mp listed
    rw [fullChars, List.length_map, length_encodeGroup]
  have four := length_flatten_groups fullFour
  have last := length_restChars short
  rw [List.length_append, length_flatten_groups full] at taken
  rw [List.length_map] at four
  unfold encodeWrites
  dsimp only
  rw [whole, gather_flatten full short, encodeRest_eq, foldl_encodeFull, List.nil_append,
    List.length_append, List.length_append, List.length_append, List.length_replicate, four,
    Nat.add_assoc (4 * groups.length), last, List.length_singleton]
  by_cases empty : rest = []
  · rw [if_pos empty]
    rw [empty, List.length_nil] at taken
    omega
  · have positive := List.length_pos_iff.mpr empty
    rw [if_neg empty]
    omega

/-! ## Decoding -/

/-- The digits are the characters of the table. -/
theorem goesOn_listed : ∀ n : Fin 256, goesOn (UInt8.ofNat n) = true →
    UInt8.ofNat n ∈ b64Data ∧ UInt8.ofNat n ≠ 0 := by
  decide +kernel

theorem mem_b64Data_of_goesOn {c : UInt8} (digit : goesOn c = true) : c ∈ b64Data ∧ c ≠ 0 := by
  have entry := goesOn_listed ⟨c.toNat, c.toNat_lt⟩
  dsimp only at entry
  rw [UInt8.ofNat_toNat] at entry
  exact entry digit

/-- Digits are found. -/
theorem lookups_digits (beyond : List UInt8) {digits : List UInt8}
    (all : ∀ c ∈ digits, goesOn c = true) : ∃ found, lookups beyond digits = some found := by
  induction digits with
  | nil => exact ⟨[], rfl⟩
  | cons c digits ih =>
      obtain ⟨found, others⟩ := ih fun other listed => all other (List.mem_cons_of_mem _ listed)
      obtain ⟨listed, nonzero⟩ := mem_b64Data_of_goesOn (all c List.mem_cons_self)
      have here : strchr (b64Data ++ beyond) c = some ((b64Data ++ cstring beyond).idxOf c) := by
        unfold strchr
        dsimp only
        rw [cstring_b64Data, if_neg nonzero, if_pos (List.mem_append_left _ listed)]
      exact ⟨_, lookups_cons here others⟩

/-- When all characters are found, all of them are looked up. -/
theorem searched_of_lookups {beyond arr4 found : List UInt8}
    (all : lookups beyond arr4 = some found) : searched beyond arr4 = arr4 := by
  induction arr4 generalizing found with
  | nil => rfl
  | cons c arr4 ih =>
      unfold lookups at all
      rw [List.mapM_cons] at all
      obtain ⟨value, here, all⟩ := Option.bind_eq_some_iff.mp all
      obtain ⟨values, others, -⟩ := Option.bind_eq_some_iff.mp all
      obtain ⟨index, present, -⟩ := Option.map_eq_some_iff.mp here
      rw [searched, present, Option.isSome_some, if_pos rfl, ih others]

theorem length_decodeGroup (arr4 : List UInt8) : (decodeGroup arr4).length = 3 := rfl

/-- The loop over full groups of digits. -/
theorem foldl_searchFull (beyond : List UInt8) {groups : List (List UInt8)}
    (all : ∀ c ∈ groups.flatten, goesOn c = true) (ret looked : List UInt8) :
    ∃ behind, groups.foldl (searchFull beyond) (some ret, looked) =
        (some (ret ++ behind), looked ++ groups.flatten) ∧
      groups.foldl (decodeFull beyond) (some ret) = some (ret ++ behind) ∧
        behind.length = 3 * groups.length := by
  induction groups generalizing ret looked with
  | nil => exact ⟨[], by simp, by simp, rfl⟩
  | cons group groups ih =>
      rw [List.flatten_cons] at all
      obtain ⟨found, here⟩ := lookups_digits beyond fun c listed =>
        all c (List.mem_append_left _ listed)
      have decoded : decodeFull beyond (some ret) group = some (ret ++ decodeGroup found) := by
        unfold decodeFull
        rw [here]
      have searchedHere : searchFull beyond (some ret, looked) group =
          (some (ret ++ decodeGroup found), looked ++ group) := by
        unfold searchFull
        dsimp only
        rw [decoded, if_neg (Option.some_ne_none ret), searched_of_lookups here]
      obtain ⟨behind, state, last, length⟩ :=
        ih (fun c listed => all c (List.mem_append_right _ listed)) (ret ++ decodeGroup found)
          (looked ++ group)
      refine ⟨decodeGroup found ++ behind, ?_, ?_, ?_⟩
      · rw [List.foldl_cons, searchedHere, state, List.append_assoc, List.append_assoc,
          List.flatten_cons]
      · rw [List.foldl_cons, decoded, last, List.append_assoc]
      · rw [List.length_append, length_decodeGroup, length, List.length_cons]
        omega

/-- What is written and what is looked up for full groups of digits and a rest. -/
theorem decode_digits (beyond : List UInt8) {encoded : List UInt8} {groups : List (List UInt8)}
    {rest : List UInt8} (digits : leadingDigits encoded = groups.flatten ++ rest)
    (full : ∀ group ∈ groups, group.length = 4) (short : rest.length < 4) :
    (∃ writes, decodeWrites beyond encoded = some writes ∧
      writes.length = 3 * groups.length + (rest.length - 1) + 1) ∧
    decodeSearches beyond encoded = groups.flatten ++
      if rest = [] then [] else rest ++ List.replicate (4 - rest.length) 0 := by
  have all : ∀ c ∈ groups.flatten ++ rest, goesOn c = true := by
    intro c listed
    rw [← digits] at listed
    exact List.mem_takeWhile_imp listed
  obtain ⟨behind, state, last, length⟩ := foldl_searchFull beyond
    (fun c listed => all c (List.mem_append_left _ listed)) [] []
  rw [List.nil_append, List.nil_append] at state
  rw [List.nil_append] at last
  have writes : decodeWrites beyond encoded =
      (decodeRest beyond (some behind) rest).map (· ++ [0]) := by
    change (let gathered := gather 4 (decodeFull beyond) (some []) [] (leadingDigits encoded)
      (decodeRest beyond gathered.1 gathered.2).map (· ++ [0])) = _
    dsimp only
    rw [digits, gather_flatten full short, last]
  have searches : decodeSearches beyond encoded =
      searchRest beyond (some behind, groups.flatten) rest := by
    unfold decodeSearches
    dsimp only
    rw [digits, gather_flatten full short, state]
  rw [writes, searches]
  unfold decodeRest searchRest
  by_cases empty : rest = []
  · rw [if_pos empty, if_pos (.inl empty), if_pos empty, List.append_nil]
    refine ⟨⟨behind ++ [0], rfl, ?_⟩, rfl⟩
    rw [List.length_append, length, empty]
    rfl
  · obtain ⟨front, here⟩ := lookups_digits beyond fun c listed =>
      all c (List.mem_append_right _ listed)
    obtain ⟨zeros, found⟩ := lookups_zeros beyond (4 - rest.length)
    have both := lookups_append here found
    have going : ¬ (rest = [] ∨ some behind = none) := by
      rintro (isEmpty | none)
      · exact empty isEmpty
      · exact Option.some_ne_none behind none
    rw [if_neg empty, if_neg going, if_neg empty, both, searched_of_lookups both]
    refine ⟨⟨_, rfl, ?_⟩, rfl⟩
    rw [List.length_append, List.length_append, List.length_take, length_decodeGroup, length,
      List.length_singleton]
    omega

/-! ## The reads of a search -/

/-- A character of the table is found inside of it. -/
theorem strchrReads_le (beyond : List UInt8) {c : UInt8} (listed : c ∈ b64Data) :
    strchrReads (b64Data ++ beyond) c ≤ b64Data.length := by
  obtain ⟨front, behind, table⟩ := List.append_of_mem listed
  have stops : (c :: (behind ++ beyond)).takeWhile (fun byte => decide (byte ≠ 0 ∧ byte ≠ c)) =
      [] := List.takeWhile_cons_of_neg (by simp)
  have before := (List.takeWhile_sublist (fun byte => decide (byte ≠ 0 ∧ byte ≠ c))
    : (front.takeWhile _).Sublist front).length_le
  unfold strchrReads
  rw [table, List.append_assoc, List.cons_append, List.takeWhile_append, stops, List.length_append,
    List.length_cons]
  split
  · rw [List.append_nil]
    omega
  · omega

/-- A NUL is not. -/
theorem lt_strchrReads_zero (beyond : List UInt8) :
    b64Data.length < strchrReads (b64Data ++ beyond) 0 := by
  have run : ∀ byte ∈ b64Data, decide (byte ≠ 0 ∧ byte ≠ 0) = true := by
    intro byte listed
    rw [decide_eq_true_eq, and_self]
    rintro rfl
    exact b64Data_nulFree listed
  unfold strchrReads
  rw [List.takeWhile_append_of_pos run, List.length_append]
  omega

/-- The searches stay inside of the table exactly when the last group of digits is full. -/
theorem searchesInside_iff (beyond encoded : List UInt8) :
    SearchesInside beyond encoded ↔ 4 ∣ (leadingDigits encoded).length := by
  obtain ⟨groups, rest, digits, full, short⟩ :=
    exists_groups (show 0 < 4 by decide) (leadingDigits encoded)
  have searches := (decode_digits beyond digits full short).2
  have length := congrArg List.length digits
  rw [List.length_append, length_flatten_groups full] at length
  unfold SearchesInside
  rw [searches]
  by_cases empty : rest = []
  · rw [if_pos empty, List.append_nil]
    rw [empty, List.length_nil] at length
    constructor
    · intro _
      exact ⟨groups.length, length⟩
    · intro _ c listed
      rw [empty, List.append_nil] at digits
      rw [← digits] at listed
      exact strchrReads_le beyond (mem_b64Data_of_goesOn (List.mem_takeWhile_imp listed)).1
  · have positive := List.length_pos_iff.mpr empty
    rw [if_neg empty]
    constructor
    · intro inside
      have zero : 0 ∈ groups.flatten ++ (rest ++ List.replicate (4 - rest.length) 0) :=
        List.mem_append_right _ (List.mem_append_right _
          (List.mem_replicate.mpr ⟨by omega, rfl⟩))
      exact absurd (inside 0 zero) (Nat.not_le_of_lt (lt_strchrReads_zero beyond))
    · intro whole
      omega

theorem decodeWrites_length (beyond encoded : List UInt8) :
    ∃ writes, decodeWrites beyond encoded = some writes ∧
      writes.length = 3 * ((leadingDigits encoded).length / 4) +
        ((leadingDigits encoded).length % 4 - 1) + 1 := by
  obtain ⟨groups, rest, digits, full, short⟩ :=
    exists_groups (show 0 < 4 by decide) (leadingDigits encoded)
  obtain ⟨writes, decodes, written⟩ := (decode_digits beyond digits full short).1
  have length := congrArg List.length digits
  rw [List.length_append, length_flatten_groups full] at length
  refine ⟨writes, decodes, ?_⟩
  rw [written]
  omega

end Base64

theorem ndmpBase64Decode_eq {beyond encoded writes : List UInt8} (ret : CharArray ndmpDecLen)
    (decodes : Base64.decodeWrites beyond encoded = some writes) :
    ndmpBase64Decode beyond (some ret) encoded = some (.of ret writes) := by
  unfold ndmpBase64Decode
  rw [Option.bind_some, decodes]
  rfl

/-- Encoding stays inside of its buffer exactly for up to 765 bytes, and decoding inside of its
buffer and of the table exactly for up to 340 digits in full groups. -/
theorem base64_inside_iff (beyond : List UInt8) (encRet : CharArray ndmpEncLen)
    (decRet : CharArray ndmpDecLen) (text encoded : List UInt8) :
    ((∃ returned, ndmpBase64Encode (some encRet) text = some returned ∧
        returned.outside = false) ↔ text.length % 2 ^ 32 ≤ 765) ∧
      (((∃ returned, ndmpBase64Decode beyond (some decRet) encoded = some returned ∧
          returned.outside = false) ∧ Base64.SearchesInside beyond encoded) ↔
        4 ∣ (Base64.leadingDigits encoded).length ∧
          (Base64.leadingDigits encoded).length ≤ 340) := by
  have encLen : ndmpEncLen = 1024 := rfl
  have decLen : ndmpDecLen = 256 := rfl
  constructor
  · have written := Base64.length_encodeWrites text
    constructor
    · rintro ⟨returned, encodes, inside⟩
      rw [← Option.some.inj encodes] at inside
      have fits := of_decide_eq_false inside
      omega
    · intro short
      exact ⟨_, rfl, decide_eq_false (by omega)⟩
  · obtain ⟨writes, decodes, written⟩ := Base64.decodeWrites_length beyond encoded
    rw [ndmpBase64Decode_eq decRet decodes, Base64.searchesInside_iff]
    constructor
    · rintro ⟨⟨returned, same, inside⟩, whole⟩
      rw [← Option.some.inj same] at inside
      have fits := of_decide_eq_false inside
      exact ⟨whole, by omega⟩
    · rintro ⟨whole, short⟩
      exact ⟨⟨_, rfl, decide_eq_false (by omega)⟩, whole⟩

/-- 766 bytes are encoded past the end of the buffer, 342 digits are decoded past the end of
theirs, and the two digits that stand for one byte are searched for past the end of the table. -/
theorem base64_outside :
    (∃ text returned, NulFree text ∧ ndmpBase64Encode (some (.zero _)) text = some returned ∧
      returned.outside = true) ∧
    (∃ encoded returned, NulFree encoded ∧
      ndmpBase64Decode [] (some (.zero _)) encoded = some returned ∧ returned.outside = true) ∧
    ∃ encoded, NulFree encoded ∧ ¬ Base64.SearchesInside [] encoded := by
  have letters : ∀ count, NulFree (List.replicate count 65) := by
    intro count listed
    exact absurd (List.eq_of_mem_replicate listed) (by decide)
  refine ⟨?_, ?_, ?_⟩
  · obtain ⟨text, nulFree, length⟩ : ∃ text, NulFree text ∧ text.length = 766 :=
      ⟨List.replicate 766 65, letters 766, List.length_replicate⟩
    have written := Base64.length_encodeWrites text
    rw [length] at written
    refine ⟨text, .of (.zero _) (Base64.encodeWrites text), nulFree, rfl, ?_⟩
    apply decide_eq_true
    rw [written]
    decide
  · obtain ⟨encoded, nulFree, digits⟩ : ∃ encoded, NulFree encoded ∧
        (Base64.leadingDigits encoded).length = 342 :=
      ⟨List.replicate 342 65, letters 342, by decide +kernel⟩
    obtain ⟨writes, decodes, written⟩ := Base64.decodeWrites_length [] encoded
    rw [digits] at written
    refine ⟨encoded, .of (.zero _) writes, nulFree, ndmpBase64Decode_eq _ decodes, ?_⟩
    apply decide_eq_true
    rw [written]
    decide
  · refine ⟨[81, 81, Base64.pad, Base64.pad], by decide, ?_⟩
    rw [Base64.searchesInside_iff]
    decide +kernel

end Ndmpd
