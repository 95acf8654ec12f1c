import Ndmpd.Tlm.RestoreFrames

/-!
# What the decoder writes into its buffers

The sizes in the headers say how much `get_long_name`, `get_humongus_file_header` and
`load_acl_info` read into `longname`, `longlink`, `hugename` and the `tlm_acls_t`. Only
the first of them compares the size with its buffer, and leaves no room for the NUL.

Every record of a run stays inside the buffers exactly if each long name ends before its
buffer does, each `LF_HUMONGUS` record fits into its buffer with an end for `parse`, and
each ACL fits into the object with its text (`tarGetdir_inside_iff`). Writes to a constant
index, and to the fields that a header fills, are not listed.
-/

namespace Ndmpd

open Foundation

namespace RestoreWriter

/-! ## What `input_mem` copies -/

/-- How many bytes the loop of `input_mem` copies, also when it fails after some. -/
def copiedLoop : Nat → RestoreWriter → Nat → Nat
  | 0, _, _ => 0
  | rounds + 1, writer, toread =>
      if toread = 0 then 0
      else
        match writer.getReadBuffer toread with
        | (none, _) => 0
        | (some (rec, err), writer) =>
            if err ≠ 0 then 0
            else
              let copied := rec.take toread
              copied.length + copiedLoop rounds writer (toread - copied.length)

/-- How many bytes `input_mem` copies. -/
def copied (writer : RestoreWriter) (len : Int) : Nat := copiedLoop len.toNat writer len.toNat

/-- The bytes in front of the first read error. -/
def delivered : List ReadBlock → List UInt8
  | [] => []
  | block :: rest =>
      if block.bytes = [] then delivered rest
      else if block.tbErrno ≠ 0 then []
      else block.bytes ++ delivered rest

variable {writer : RestoreWriter}

theorem delivered_dropWhile (blocks : List ReadBlock) :
    delivered (blocks.dropWhile fun block => block.bytes = []) = delivered blocks := by
  induction blocks with
  | nil => rfl
  | cons block rest ih =>
      by_cases empty : block.bytes = []
      · rw [List.dropWhile_cons_of_pos (by simpa using empty), ih, delivered, if_pos empty]
      · rw [List.dropWhile_cons_of_neg (by simpa using empty)]

theorem delivered_cons {block : ReadBlock} (noError : block.tbErrno = 0) (rest : List ReadBlock) :
    delivered (block :: rest) = block.bytes ++ delivered rest := by
  rw [delivered]
  split
  · next empty => rw [empty, List.nil_append]
  · rw [if_neg (not_not.mpr noError)]

/-- A request finds nothing when nothing is delivered any more, or the front of it. -/
theorem getReadBuffer_delivered (running : writer.tcWriterStop = false) {want : Nat}
    (positive : 0 < want) (ordinary : want < 2 ^ 31) :
    (delivered writer.blocks = [] ∧ ((∃ next, writer.getReadBuffer want = (none, next)) ∨
        ∃ rec error next, error ≠ 0 ∧ writer.getReadBuffer want = (some (rec, error), next))) ∨
      ∃ front blocks, writer.getReadBuffer want =
          (some (front, 0), { writer with blocks := blocks }) ∧
        delivered writer.blocks = front ++ delivered blocks ∧ 0 < front.length := by
  rw [← delivered_dropWhile]
  have first := List.head?_dropWhile_not (fun block : ReadBlock => decide (block.bytes = []))
    writer.blocks
  unfold getReadBuffer
  rw [running, if_neg Bool.false_ne_true]
  revert first
  generalize (writer.blocks.dropWhile fun block => block.bytes = []) = left
  intro first
  cases left with
  | nil => exact .inl ⟨rfl, .inl ⟨_, rfl⟩⟩
  | cons block rest =>
      have nonempty : block.bytes ≠ [] := by simpa using first
      rw [delivered, if_neg nonempty]
      by_cases failed : block.tbErrno ≠ 0
      · rw [if_pos failed]
        exact .inl ⟨rfl, .inr ⟨_, _, _, failed, rfl⟩⟩
      · rw [if_neg failed]
        have small := block.small
        have length := List.length_pos_iff.mpr nonempty
        have above := roundToRecords_ge want
        have below := roundToRecords_lt want
        have size : unsignedMin (roundToRecords want) block.bytes.length =
            min (roundToRecords want) block.bytes.length := by
          rw [unsignedMin, Nat.mod_eq_of_lt (by omega), Nat.mod_eq_of_lt (by omega)]
        refine .inr ⟨block.bytes.take (min (roundToRecords want) block.bytes.length),
          block.rest (min (roundToRecords want) block.bytes.length) :: rest, ?_, ?_, ?_⟩
        · dsimp only
          rw [size, not_not.mp failed]
        · rw [@delivered_cons (block.rest _) (not_not.mp failed), ← List.append_assoc]
          exact congrArg (· ++ delivered rest) (List.take_append_drop _ _).symm
        · rw [List.length_take]
          omega

/-- What `input_mem` makes of the stream. -/
theorem inputMemLoop_delivered (rounds : Nat) (writer : RestoreWriter) (mem : List UInt8)
    (toread : Nat) (running : writer.tcWriterStop = false) (enough : toread ≤ rounds)
    (ordinary : toread < 2 ^ 31) :
    (inputMemLoop rounds writer mem toread).1 =
        (if toread ≤ (delivered writer.blocks).length then
          some (mem ++ (delivered writer.blocks).take toread) else none) ∧
      copiedLoop rounds writer toread = min toread (delivered writer.blocks).length := by
  induction rounds generalizing writer mem toread with
  | zero =>
      obtain rfl := Nat.le_zero.mp enough
      rw [if_pos (Nat.zero_le _), List.take_zero, List.append_nil, Nat.zero_min]
      exact ⟨rfl, rfl⟩
  | succ rounds ih =>
      unfold inputMemLoop copiedLoop
      by_cases done : toread = 0
      · rw [if_pos done, if_pos done, done, if_pos (Nat.zero_le _), List.take_zero, List.append_nil,
          Nat.zero_min]
        exact ⟨rfl, rfl⟩
      · rw [if_neg done, if_neg done]
        rcases getReadBuffer_delivered running (Nat.pos_of_ne_zero done) ordinary with
          ⟨ended, refused⟩ | ⟨front, blocks, read, bytes, nonempty⟩
        · have short : ¬ toread ≤ (delivered writer.blocks).length := by
            rw [ended]
            exact fun most => done (Nat.le_zero.mp most)
          rw [if_neg short, ended, List.length_nil, Nat.min_zero]
          rcases refused with ⟨next, read⟩ | ⟨rec, error, next, failed, read⟩
          · rw [read]
            exact ⟨rfl, rfl⟩
          · rw [read]
            dsimp only
            rw [if_pos failed, if_pos failed]
            exact ⟨rfl, rfl⟩
        · rw [read]
          dsimp only
          rw [if_neg (not_not.mpr rfl), if_neg (not_not.mpr rfl)]
          have length : (front.take toread).length = min toread front.length := List.length_take
          obtain ⟨result, count⟩ := ih { writer with blocks := blocks } (mem ++ front.take toread)
            (toread - (front.take toread).length) running (by omega) (by omega)
          have left : toread - (front.take toread).length = toread - front.length := by omega
          rw [result, count, bytes, left, List.length_append, List.take_append, List.append_assoc]
          dsimp only
          constructor
          · by_cases there : toread ≤ front.length + (delivered blocks).length
            · rw [if_pos there, if_pos (by omega)]
            · rw [if_neg there, if_neg (by omega)]
          · omega

/-- `input_mem` succeeds exactly if all that it asks for is delivered. -/
theorem inputMem_delivered (running : writer.tcWriterStop = false) {len : Int}
    (ordinary : len < 2 ^ 31) :
    (writer.inputMem len).1 =
        (if len.toNat ≤ (delivered writer.blocks).length then
          some ((delivered writer.blocks).take len.toNat) else none) ∧
      writer.copied len = min len.toNat (delivered writer.blocks).length :=
  inputMemLoop_delivered len.toNat writer [] len.toNat running (Nat.le_refl _) (by omega)

/-! ## Accesses -/

/-- The buffers of `tar_getdir` that are filled from the stream. `acls` is the
`tlm_acls_t` from its `acl_info` on. -/
inductive DecoderBuffer where
  | longname
  | longlink
  | hugename
  | acls
  deriving DecidableEq, Repr

/-- An access to the bytes of a buffer from `first` on, up to `past`. -/
structure Access where
  buffer : DecoderBuffer
  first : Nat
  past : Nat
  deriving DecidableEq, Repr

/-- The size of a buffer. `room` is what a `tlm_acls_t` has from its `acl_info` on, which
depends on the size of a `struct stat`. -/
def DecoderBuffer.size (room : Nat) : DecoderBuffer → Nat
  | .acls => room
  | _ => tlmMaxPathName

/-- An access does not leave its buffer. -/
def Access.Inside (room : Nat) (access : Access) : Prop :=
  access.first < access.past → access.past ≤ access.buffer.size room

variable (writer)

/-- `get_long_name`: the data, and the NUL behind it, or where it was to start. -/
def longNameAccesses (buffer : DecoderBuffer) (recsize : Int) (bufSpot : Nat) : List Access :=
  let nul := bufSpot + ((writer.inputMem recsize).1.getD []).length
  [⟨buffer, bufSpot, bufSpot + writer.copied recsize⟩, ⟨buffer, nul, nul + 1⟩]

/-- The NULs that `parse` writes with a blank for a separator: over the blanks behind the
first word. -/
def parseAccess (memory : List UInt8) : Access :=
  match memory with
  | [] => ⟨.hugename, 0, 0⟩
  | byte :: line =>
      let word := line.takeWhile fun byte => byte ≠ 0 ∧ byte ≠ 32
      let blanks := (line.dropWhile fun byte => byte ≠ 0 ∧ byte ≠ 32).takeWhile (· = 32)
      if byte = 0 then ⟨.hugename, 0, 0⟩
      else ⟨.hugename, 1 + word.length, 1 + word.length + blanks.length⟩

/-- `get_humongus_file_header`, with what stands in memory behind `hugename`. -/
def humongusAccesses (behind : List UInt8) (recsize : Int) : List Access :=
  let recsize : Int := if recsize = 0 then recordSize else recsize
  ⟨.hugename, 0, writer.copied recsize⟩ ::
    match (writer.inputMem recsize).1 with
    | none => [⟨.hugename, 0, 1⟩]
    | some mem =>
        if (mem.length : Int) ≠ recsize then [⟨.hugename, 0, 1⟩]
        else
          let name := (CharArray.zero tlmMaxPathName).write 0 mem
          [parseAccess (name.bytes ++ behind),
            ⟨.hugename, 0, ((parseBlank name.string).2.take (tlmMaxPathName - 1)).length + 1⟩]

/-- `attr_len` in the memory from `acl_info` on. -/
def attrLen (memory : List UInt8) : Int := toInt32 (littleEndianValue ((memory.drop 4).take 4))

/-- `load_acl_info`: the data, the pointer to the text, and the text behind the
`sec_attr_t`, whose length goes to `memcpy` as a `size_t`. -/
def aclAccesses (fileSize : Int) : List Access :=
  let acls := if writer.aclSpot = 0 then .zero else writer.acls
  ⟨.acls, writer.aclSpot, writer.aclSpot + writer.copied fileSize⟩ ::
    match (writer.inputMem fileSize).1 with
    | none => []
    | some mem =>
        let memory := acls.aclMemory.take writer.aclSpot ++ mem
        [⟨.acls, 8, 16⟩, ⟨.acls, 16, 16 + (attrLen memory % 2 ^ 64).toNat⟩]

/-- The name of a regular file is copied to `longname`, unless it is there. -/
def nameAccesses (record : List UInt8) : List Access :=
  if writer.hugename.string ≠ [] then
    [⟨.longname, 0, (writer.hugename.string.take (tlmMaxPathName - 1)).length + 1⟩]
  else if writer.longname.string = [] then
    let thName := cstring record
    let name := if thName.head? = some slash then thName else slash :: thName
    [⟨.longname, 0, (name.take (tlmMaxPathName - 1)).length + 1⟩]
  else []

variable {writer}

/-- What a record reads into the buffers. -/
def RecordCall.accesses (call : RecordCall) (behind : List UInt8) : List Access :=
  if call.linkflag = lfLonglink then
    call.writer.longNameAccesses .longlink (longNameSize call.fileSize call.writer.lnkEnd)
      call.writer.lnkEnd
  else if call.linkflag = lfLongname then
    call.writer.longNameAccesses .longname (longNameSize call.fileSize call.writer.nmEnd)
      call.writer.nmEnd
  else if call.linkflag = lfAcl then call.writer.aclAccesses call.fileSize
  else if call.linkflag = lfHumongus then call.writer.humongusAccesses behind call.fileSize
  else if call.regular.isSome then call.writer.nameAccesses call.record
  else []

/-! ## What fits -/

/-- A long name ends before its buffer does, or it does not come. -/
def NameFits (blocks : List ReadBlock) (fileSize : Int) (bufSpot : Nat) : Prop :=
  (fileSize % 2 ^ 32).toNat < tlmMaxPathName - bufSpot ∨
    (delivered blocks).length < tlmMaxPathName - bufSpot

/-- `parse` finds an end of the blanks behind the first word, whatever follows. -/
def ParseEnds (bytes : List UInt8) : Prop :=
  bytes.head? = some 0 ∨
    (bytes.tail.dropWhile fun byte => byte ≠ 0 ∧ byte ≠ 32).dropWhile (· = 32) ≠ []

/-- An `LF_HUMONGUS` record is no longer than its buffer, and when it fills it, `parse`
finds an end in it. -/
def HumongusFits (blocks : List ReadBlock) (fileSize : Int) : Prop :=
  let size := if fileSize = 0 then recordSize else fileSize.toNat
  min size (delivered blocks).length ≤ tlmMaxPathName ∧
    (size = tlmMaxPathName → size ≤ (delivered blocks).length →
      ParseEnds ((delivered blocks).take size))

/-- An ACL fits into the object, and so does its text by the length that is found in the
data. -/
def AclFits (room : Nat) (writer : RestoreWriter) (fileSize : Int) : Prop :=
  let acls := if writer.aclSpot = 0 then .zero else writer.acls
  let bytes := (delivered writer.blocks).take fileSize.toNat
  (bytes ≠ [] → writer.aclSpot + bytes.length ≤ room) ∧
    (fileSize.toNat ≤ (delivered writer.blocks).length → 16 ≤ room ∧
      16 + (attrLen (acls.aclMemory.take writer.aclSpot ++ bytes) % 2 ^ 64).toNat ≤ room)

/-- What a record reads fits into the buffer that is for it. -/
def RecordCall.Fits (room : Nat) (call : RecordCall) : Prop :=
  if call.linkflag = lfLonglink then NameFits call.writer.blocks call.fileSize call.writer.lnkEnd
  else if call.linkflag = lfLongname then
    NameFits call.writer.blocks call.fileSize call.writer.nmEnd
  else if call.linkflag = lfAcl then AclFits room call.writer call.fileSize
  else if call.linkflag = lfHumongus then HumongusFits call.writer.blocks call.fileSize
  else True

/-- The clamp of a long name, where the buffer is filled up to a spot inside it. -/
theorem longNameSize_eq {bufSpot : Nat} (within : bufSpot ≤ tlmMaxPathName) (fileSize : Int) :
    longNameSize fileSize bufSpot =
      (min (fileSize % 2 ^ 32).toNat (tlmMaxPathName - bufSpot) : Nat) := by
  have most : tlmMaxPathName = 1088 := rfl
  have room : (((tlmMaxPathName : Int) - bufSpot) % 2 ^ 32).toNat = tlmMaxPathName - bufSpot := by
    omega
  have low : (fileSize % 2 ^ 32).toNat < 2 ^ 32 := by
    omega
  rw [longNameSize, room, unsignedMin, Nat.mod_eq_of_lt low, Nat.mod_eq_of_lt (by omega),
    toInt32_of_lt (by omega)]

theorem longNameAccesses_inside_iff (running : writer.tcWriterStop = false) {room bufSpot : Nat}
    {buffer : DecoderBuffer} (name : buffer.size room = tlmMaxPathName)
    (within : bufSpot ≤ tlmMaxPathName) (fileSize : Int) :
    (∀ access ∈ writer.longNameAccesses buffer (longNameSize fileSize bufSpot) bufSpot,
      access.Inside room) ↔ NameFits writer.blocks fileSize bufSpot := by
  rw [longNameSize_eq within]
  unfold NameFits
  generalize (fileSize % 2 ^ 32).toNat = asked
  generalize isLeft : tlmMaxPathName - bufSpot = left
  have most : bufSpot + left = tlmMaxPathName := by
    rw [← isLeft]
    exact Nat.add_sub_cancel' within
  have ordinary : ((min asked left : Nat) : Int) < 2 ^ 31 := by
    have small : tlmMaxPathName < 2 ^ 31 := by decide
    omega
  obtain ⟨result, count⟩ := inputMem_delivered running ordinary
  rw [Int.toNat_natCast] at result count
  unfold longNameAccesses
  rw [result, count]
  simp only [List.forall_mem_cons, List.not_mem_nil, false_implies, implies_true, and_true,
    Access.Inside, name, ← most]
  clear result count ordinary most isLeft within name
  by_cases there : min asked left ≤ (delivered writer.blocks).length
  · rw [if_pos there, Option.getD_some, List.length_take]
    omega
  · rw [if_neg there, Option.getD_none, List.length_nil]
    omega

theorem length_takeWhile_add (passes : UInt8 → Bool) (bytes : List UInt8) :
    (bytes.takeWhile passes).length + (bytes.dropWhile passes).length = bytes.length := by
  rw [← List.length_append, List.takeWhile_append_dropWhile]

/-- A run of bytes that ends in a list is not changed by what follows the list. -/
theorem takeWhile_append_of_ends {passes : UInt8 → Bool} {bytes : List UInt8}
    (ends : bytes.dropWhile passes ≠ []) (behind : List UInt8) :
    (bytes ++ behind).takeWhile passes = bytes.takeWhile passes ∧
      (bytes ++ behind).dropWhile passes = bytes.dropWhile passes ++ behind := by
  have parts := length_takeWhile_add passes bytes
  have left := List.length_pos_iff.mpr ends
  rw [List.takeWhile_append, if_neg (by omega), List.dropWhile_append,
    if_neg (by simpa using ends)]
  exact ⟨rfl, rfl⟩

/-- A run of bytes that goes on to the end of a list goes on behind it. -/
theorem takeWhile_append_of_open {passes : UInt8 → Bool} {bytes : List UInt8}
    (goesOn : bytes.dropWhile passes = []) (behind : List UInt8) :
    (bytes ++ behind).takeWhile passes = bytes ++ behind.takeWhile passes ∧
      (bytes ++ behind).dropWhile passes = behind.dropWhile passes := by
  have parts := length_takeWhile_add passes bytes
  rw [goesOn, List.length_nil] at parts
  rw [List.takeWhile_append, if_pos (by omega), List.dropWhile_append, goesOn,
    if_pos List.isEmpty_nil]
  exact ⟨rfl, rfl⟩

/-- The blanks that `parse` overwrites end in the buffer, whatever follows it, exactly if
it finds their end there. -/
theorem parseAccess_inside_iff {bytes : List UInt8} (full : bytes.length = tlmMaxPathName)
    (room : Nat) :
    (∀ behind, (parseAccess (bytes ++ behind)).Inside room) ↔ ParseEnds bytes := by
  cases bytes with
  | nil => cases full
  | cons byte line =>
      rw [List.length_cons] at full
      unfold ParseEnds parseAccess
      simp only [List.cons_append, List.head?_cons, Option.some.injEq, List.tail_cons]
      have stops : (fun byte : UInt8 => decide (byte ≠ 0 ∧ byte ≠ 32)) 32 = false := rfl
      generalize (fun byte : UInt8 => decide (byte ≠ 0 ∧ byte ≠ 32)) = inWord at stops ⊢
      by_cases nul : byte = 0
      · simp only [nul, if_true, Access.Inside, Nat.lt_irrefl, false_implies, implies_true, true_or]
      · simp only [nul, if_false, Access.Inside, DecoderBuffer.size, false_or]
        have parts := length_takeWhile_add inWord line
        have blanks := length_takeWhile_add (· = 32) (line.dropWhile inWord)
        constructor
        · -- one more blank behind the buffer is overwritten as well
          intro inside ended
          have past := inside [32]
          by_cases word : line.dropWhile inWord = []
          · obtain ⟨taken, dropped⟩ := takeWhile_append_of_open word [32]
            have blank : [(32 : UInt8)].dropWhile inWord = [32] :=
              List.dropWhile_cons_of_neg (by rw [stops]; exact Bool.false_ne_true)
            have none_ : [(32 : UInt8)].takeWhile inWord = [] :=
              List.takeWhile_cons_of_neg (by rw [stops]; exact Bool.false_ne_true)
            rw [taken, dropped, blank, none_, List.append_nil] at past
            have one : ([(32 : UInt8)].takeWhile (· = 32)).length = 1 := rfl
            omega
          · obtain ⟨taken, dropped⟩ := takeWhile_append_of_ends word [32]
            obtain ⟨run, -⟩ := takeWhile_append_of_open ended [32]
            rw [taken, dropped, run, List.length_append] at past
            have one : ([(32 : UInt8)].takeWhile (· = 32)).length = 1 := rfl
            omega
        · intro ends behind _
          have word : line.dropWhile inWord ≠ [] := by
            intro ended
            rw [ended] at ends
            exact ends rfl
          obtain ⟨taken, dropped⟩ := takeWhile_append_of_ends word behind
          obtain ⟨run, -⟩ := takeWhile_append_of_ends ends behind
          rw [taken, dropped, run]
          omega

theorem parseEnds_of_nul {bytes : List UInt8} (nul : 0 ∈ bytes) : ParseEnds bytes := by
  cases bytes with
  | nil => exact absurd nul List.not_mem_nil
  | cons byte line =>
      rcases List.mem_cons.mp nul with same | behind
      · exact .inl (by rw [same]; rfl)
      · refine .inr fun ended => ?_
        rw [List.tail_cons, List.dropWhile_eq_nil_iff] at ended
        have stays : (0 : UInt8) ∈ line.dropWhile fun byte => byte ≠ 0 ∧ byte ≠ 32 := by
          rw [← @List.takeWhile_append_dropWhile _ (fun byte => byte ≠ 0 ∧ byte ≠ 32)
            line] at behind
          rcases List.mem_append.mp behind with inWord | there
          · have passes := List.mem_takeWhile_imp inWord
            cases passes
          · exact there
        have blank := ended 0 stays
        cases blank

/-- The copy back to the start of the name buffer leaves room for its NUL. -/
theorem strlcpy_inside {buffer : DecoderBuffer} {room : Nat}
    (name : buffer.size room = tlmMaxPathName)
    (text : List UInt8) :
    Access.Inside room ⟨buffer, 0, (text.take (tlmMaxPathName - 1)).length + 1⟩ := by
  intro _
  have length : (text.take (tlmMaxPathName - 1)).length ≤ tlmMaxPathName - 1 :=
    List.length_take_le _ _
  have positive : 0 < tlmMaxPathName := by decide
  rw [name]
  dsimp only
  omega

/-- What an `LF_HUMONGUS` record leaves in the cleared name buffer, with the memory behind. -/
theorem humongusName_inside_iff {mem : List UInt8} (short : mem.length ≤ tlmMaxPathName)
    (room : Nat) :
    (∀ behind, (parseAccess (((CharArray.zero tlmMaxPathName).write 0 mem).bytes ++
      behind)).Inside room) ↔ (mem.length = tlmMaxPathName → ParseEnds mem) := by
  rw [parseAccess_inside_iff (CharArray.length_bytes _), CharArray.bytes_write (by omega),
    List.take_zero, List.nil_append, Nat.zero_add, CharArray.zero, List.drop_replicate]
  rcases Nat.lt_or_eq_of_le short with shorter | full
  · refine iff_of_true (parseEnds_of_nul (List.mem_append_right _ ?_)) fun full => ?_
    · exact List.mem_replicate.mpr ⟨Nat.sub_ne_zero_of_lt shorter, rfl⟩
    · exact absurd full (Nat.ne_of_lt shorter)
  · rw [full, Nat.sub_self, List.replicate_zero, List.append_nil]
    exact ⟨fun ends _ => ends, fun ends => ends rfl⟩

theorem humongusAccesses_inside_iff (running : writer.tcWriterStop = false) (room : Nat)
    {fileSize : Int} (ordinary : fileSize < 2 ^ 31) :
    (∀ behind, ∀ access ∈ writer.humongusAccesses behind fileSize, access.Inside room) ↔
      HumongusFits writer.blocks fileSize := by
  have asked : (if fileSize = 0 then (recordSize : Int) else fileSize).toNat =
      if fileSize = 0 then recordSize else fileSize.toNat := by
    split <;> rfl
  have cut : (if fileSize = 0 then (recordSize : Int) else fileSize) < 2 ^ 31 := by
    split
    · decide
    · exact ordinary
  unfold humongusAccesses HumongusFits
  rw [← asked]
  generalize (if fileSize = 0 then (recordSize : Int) else fileSize) = recsize at cut
  obtain ⟨result, count⟩ := inputMem_delivered running cut
  dsimp only
  rw [result, count]
  simp only [List.forall_mem_cons, forall_and]
  refine (and_congr_left' ?_).trans (and_congr_right fun within => ?_)
  · simp only [Access.Inside, DecoderBuffer.size]
    constructor
    · intro inside
      have within := inside []
      omega
    · exact fun within _ _ => within
  · have cleared : Access.Inside room ⟨.hugename, 0, 1⟩ :=
      fun _ => show 1 ≤ tlmMaxPathName by decide
    by_cases there : recsize.toNat ≤ (delivered writer.blocks).length
    · rw [Nat.min_eq_left there] at within
      have length : ((delivered writer.blocks).take recsize.toNat).length = recsize.toNat := by
        rw [List.length_take, Nat.min_eq_left there]
      have name := @humongusName_inside_iff ((delivered writer.blocks).take recsize.toNat)
        (by rw [length]; exact within) room
      rw [if_pos there]
      dsimp only
      rw [length] at name ⊢
      by_cases negative : (recsize.toNat : Int) ≠ recsize
      · have none_ : recsize.toNat = 0 := by
          omega
        refine iff_of_true (fun _ => ?_) fun full => ?_
        · rw [if_pos negative]
          simp only [List.forall_mem_cons, List.not_mem_nil, false_implies, implies_true, and_true]
          exact cleared
        · rw [none_] at full
          cases full
      · simp only [if_neg negative, List.forall_mem_cons, List.not_mem_nil, false_implies,
          implies_true, and_true, there, true_implies, forall_and]
        exact (and_iff_left fun _ => strlcpy_inside rfl _).trans name
    · rw [if_neg there]
      refine iff_of_true (fun _ => ?_) fun _ enough => absurd enough there
      simp only [List.forall_mem_cons, List.not_mem_nil, false_implies, implies_true, and_true]
      exact cleared

theorem aclAccesses_inside_iff (running : writer.tcWriterStop = false) (room : Nat) {fileSize : Int}
    (ordinary : fileSize < 2 ^ 31) :
    (∀ access ∈ writer.aclAccesses fileSize, access.Inside room) ↔
      AclFits room writer fileSize := by
  obtain ⟨result, count⟩ := inputMem_delivered running ordinary
  unfold aclAccesses AclFits
  rw [result, count]
  simp only [List.forall_mem_cons, Access.Inside, DecoderBuffer.size]
  rw [← List.length_take]
  apply and_congr
  · rw [← List.length_pos_iff]
    apply imp_congr _ Iff.rfl
    omega
  · by_cases there : fileSize.toNat ≤ (delivered writer.blocks).length
    · rw [if_pos there]
      simp only [List.forall_mem_cons, List.not_mem_nil, false_implies, implies_true, and_true,
        there, true_implies]
      omega
    · rw [if_neg there]
      exact iff_of_true (fun _ listed => absurd listed List.not_mem_nil) fun enough =>
        absurd enough there

theorem nameAccesses_inside (room : Nat) (record : List UInt8) :
    ∀ access ∈ writer.nameAccesses record, access.Inside room := by
  intro access listed
  unfold nameAccesses at listed
  split at listed
  · rw [List.mem_singleton.mp listed]
    exact strlcpy_inside rfl _
  · split at listed
    · rw [List.mem_singleton.mp listed]
      exact strlcpy_inside rfl _
    · exact absurd listed List.not_mem_nil

/-- The spots up to which the long names are filled are in their buffers. -/
structure SpotsWithin (writer : RestoreWriter) : Prop where
  nmEnd : writer.nmEnd ≤ tlmMaxPathName
  lnkEnd : writer.lnkEnd ≤ tlmMaxPathName

/-- A step leaves the spots where they are, or puts them back to the start. -/
structure KeepsSpots (before after : RestoreWriter) : Prop where
  nmEnd : after.nmEnd = before.nmEnd ∨ after.nmEnd = 0
  lnkEnd : after.lnkEnd = before.lnkEnd ∨ after.lnkEnd = 0

theorem KeepsSpots.within {before after : RestoreWriter} (keeps : KeepsSpots before after)
    (spots : before.SpotsWithin) : after.SpotsWithin := by
  constructor
  · rcases keeps.nmEnd with same | reset
    · rw [same]
      exact spots.nmEnd
    · rw [reset]
      exact Nat.zero_le _
  · rcases keeps.lnkEnd with same | reset
    · rw [same]
      exact spots.lnkEnd
    · rw [reset]
      exact Nat.zero_le _

theorem finishRegular_keepsSpots (args : RestoreArgs) (writer : RestoreWriter) (fileSize : Int)
    (hardlink : Option Nat) (wanted : Wanted) (path : Option CString) :
    KeepsSpots writer (writer.finishRegular args fileSize hardlink wanted path) := by
  unfold finishRegular
  dsimp only
  split
  · exact ⟨.inr rfl, .inr rfl⟩
  · exact ⟨.inl rfl, .inl rfl⟩

theorem afterSection_keepsSpots (args : RestoreArgs) (fileSize : Int) (hardlink : Option Nat)
    (wanted : Wanted) (path : Option CString) (writer : RestoreWriter) :
    KeepsSpots writer (afterSection args fileSize hardlink wanted path writer) := by
  cases path with
  | none => exact finishRegular_keepsSpots args writer fileSize hardlink wanted none
  | some path =>
      obtain ⟨nmEnd, lnkEnd⟩ := finishRegular_keepsSpots args (writer.dtreePopUntil path) fileSize
        hardlink wanted (some path)
      exact ⟨nmEnd, lnkEnd⟩

theorem restoreRegular_keepsSpots (args : RestoreArgs) (writer : RestoreWriter) (fileSize : Int)
    (hardlink : Option Nat) (record : List UInt8) :
    KeepsSpots writer (writer.restoreRegular args fileSize hardlink record) := by
  obtain ⟨queue, shape⟩ := restoreRegular_queued args writer fileSize hardlink record
  rw [shape]
  generalize isFileWanted _ args.sels args.exls args.flags writer.retry = wanted
  generalize (if wanted.found = true then args.newName wanted.pos _ else none) = path
  obtain ⟨blocks, stop, io, fp, effects, same, -⟩ := restoreFile_frame args
    { writer with longname := writer.regularName record, retry := wanted.retry } path fileSize
    (wanted.found && path.isSome)
  rw [same]
  exact ⟨(afterSection_keepsSpots args fileSize hardlink wanted path _).nmEnd,
    (afterSection_keepsSpots args fileSize hardlink wanted path _).lnkEnd⟩

/-- A long name is cut so that the spot stays in the buffer. -/
theorem getLongName_within (running : writer.tcWriterStop = false) {bufSpot : Nat}
    (within : bufSpot ≤ tlmMaxPathName) (fileSize : Int) (name : CharArray tlmMaxPathName) :
    (writer.getLongName (longNameSize fileSize bufSpot) name bufSpot).2.2 ≤ tlmMaxPathName ∧
      KeepsSpots writer (writer.getLongName (longNameSize fileSize bufSpot) name bufSpot).1 := by
  rw [longNameSize_eq within]
  have cut : min (fileSize % 2 ^ 32).toNat (tlmMaxPathName - bufSpot) ≤ tlmMaxPathName - bufSpot :=
    Nat.min_le_right _ _
  generalize min (fileSize % 2 ^ 32).toNat (tlmMaxPathName - bufSpot) = size at cut
  have ordinary : (size : Int) < 2 ^ 31 := by
    have small : tlmMaxPathName < 2 ^ 31 := by decide
    omega
  obtain ⟨result, -⟩ := inputMem_delivered running ordinary
  obtain ⟨blocks, stop, fault, kept⟩ := inputMem_frame writer size
  rw [Int.toNat_natCast] at result
  unfold getLongName
  revert result kept
  generalize writer.inputMem size = read
  rintro result kept
  obtain ⟨found, next⟩ := read
  dsimp only at result kept
  subst kept
  cases found with
  | none => exact ⟨within, .inl rfl, .inl rfl⟩
  | some mem =>
      refine ⟨?_, .inl rfl, .inl rfl⟩
      split at result
      · cases result
        dsimp only
        have length := List.length_take_le size (delivered writer.blocks)
        omega
      · cases result

theorem restoreLink_keepsSpots (args : RestoreArgs) (writer : RestoreWriter) (fileSize : Int)
    (record : List UInt8) : KeepsSpots writer (writer.restoreLink args fileSize record) := by
  unfold restoreLink
  dsimp only
  split
  · exact ⟨.inr rfl, .inr rfl⟩
  · split
    · exact ⟨.inl rfl, .inl rfl⟩
    · exact restoreRegular_keepsSpots args writer fileSize _ record

theorem loadAclInfo_keepsSpots (writer : RestoreWriter) (fileSize : Int) :
    KeepsSpots writer (writer.loadAclInfo fileSize) := by
  obtain ⟨blocks, stop, fault, kept⟩ := inputMem_frame writer fileSize
  unfold loadAclInfo
  revert kept
  generalize writer.inputMem fileSize = read
  intro kept
  obtain ⟨found, next⟩ := read
  dsimp only at kept
  subst kept
  cases found with
  | none => exact ⟨.inl rfl, .inl rfl⟩
  | some mem => exact ⟨.inl rfl, .inl rfl⟩

theorem getHumongusFileHeader_keepsSpots (writer : RestoreWriter) (recsize : Int) :
    KeepsSpots writer (writer.getHumongusFileHeader recsize) := by
  unfold getHumongusFileHeader
  dsimp only
  generalize (if recsize = 0 then (recordSize : Int) else recsize) = size
  obtain ⟨blocks, stop, fault, kept⟩ := inputMem_frame writer size
  revert kept
  generalize writer.inputMem size = read
  intro kept
  obtain ⟨found, next⟩ := read
  dsimp only at kept
  subst kept
  cases found with
  | none => exact ⟨.inl rfl, .inl rfl⟩
  | some mem =>
      dsimp only
      split
      · exact ⟨.inl rfl, .inl rfl⟩
      · exact ⟨.inl rfl, .inl rfl⟩

theorem SpotsWithin.ite {condition : Prop} [Decidable condition] {yes no : RestoreWriter}
    (first : yes.SpotsWithin) (second : no.SpotsWithin) :
    (if condition then yes else no).SpotsWithin := by
  split
  · exact first
  · exact second

/-- No record takes a spot out of its buffer. -/
theorem restoreRecord_within (args : RestoreArgs) {call : RecordCall}
    (running : call.writer.tcWriterStop = false) (spots : call.writer.SpotsWithin) :
    (call.writer.restoreRecord args call.linkflag call.fileSize call.record).SpotsWithin := by
  have regular : ∀ hardlink,
      (call.writer.restoreRegular args call.fileSize hardlink call.record).SpotsWithin :=
    fun hardlink => (restoreRegular_keepsSpots args _ _ hardlink _).within spots
  unfold restoreRecord
  apply SpotsWithin.ite
  · exact ⟨spots.nmEnd, spots.lnkEnd⟩
  apply SpotsWithin.ite
  · exact (restoreLink_keepsSpots args _ _ _).within spots
  apply SpotsWithin.ite
  · exact SpotsWithin.ite spots (regular none)
  apply SpotsWithin.ite
  · exact regular none
  -- the entries without data put the spots back
  apply SpotsWithin.ite
  · exact ⟨Nat.zero_le _, Nat.zero_le _⟩
  apply SpotsWithin.ite
  · exact ⟨Nat.zero_le _, Nat.zero_le _⟩
  apply SpotsWithin.ite
  · exact ⟨Nat.zero_le _, Nat.zero_le _⟩
  apply SpotsWithin.ite
  · obtain ⟨spot, keeps⟩ :=
      getLongName_within running spots.lnkEnd call.fileSize call.writer.longlink
    exact ⟨(keeps.within spots).nmEnd, spot⟩
  apply SpotsWithin.ite
  · obtain ⟨spot, keeps⟩ :=
      getLongName_within running spots.nmEnd call.fileSize call.writer.longname
    exact ⟨spot, (keeps.within spots).lnkEnd⟩
  apply SpotsWithin.ite
  · exact (loadAclInfo_keepsSpots _ _).within spots
  apply SpotsWithin.ite
  · exact (getHumongusFileHeader_keepsSpots _ _).within spots
  · exact spots

/-- A record stays inside the buffers, whatever stands in memory behind them, exactly if
what it reads fits. -/
theorem RecordCall.inside_iff {call : RecordCall} (running : call.writer.tcWriterStop = false)
    (spots : call.writer.SpotsWithin) (ordinary : call.fileSize < 2 ^ 31) (room : Nat) :
    (∀ behind, ∀ access ∈ call.accesses behind, access.Inside room) ↔ call.Fits room := by
  unfold RecordCall.accesses RecordCall.Fits
  by_cases isLonglink : call.linkflag = lfLonglink
  · simp only [if_pos isLonglink, forall_const]
    exact longNameAccesses_inside_iff running rfl spots.lnkEnd call.fileSize
  · simp only [if_neg isLonglink]
    by_cases isLongname : call.linkflag = lfLongname
    · simp only [if_pos isLongname, forall_const]
      exact longNameAccesses_inside_iff running rfl spots.nmEnd call.fileSize
    · simp only [if_neg isLongname]
      by_cases isAcl : call.linkflag = lfAcl
      · simp only [if_pos isAcl, forall_const]
        exact aclAccesses_inside_iff running room ordinary
      · simp only [if_neg isAcl]
        by_cases isHumongus : call.linkflag = lfHumongus
        · simp only [if_pos isHumongus]
          exact humongusAccesses_inside_iff running room ordinary
        · simp only [if_neg isHumongus]
          refine iff_of_true (fun _ access listed => ?_) trivial
          split at listed
          · exact nameAccesses_inside room call.record access listed
          · exact absurd listed List.not_mem_nil

/-! ## The run -/

/-- What every round keeps: the spots are in their buffers, and no header is made up with
a size. -/
structure Bounded (writer : RestoreWriter) : Prop where
  spots : writer.SpotsWithin
  sizeLeft : writer.sizeLeft ≤ 0

theorem nextRecord_within {call : RecordCall} (next : nextRecord writer = some call)
    (spots : writer.SpotsWithin) : call.writer.SpotsWithin := by
  obtain ⟨blocks, acls, aclSpot, lastAction, multiVolume, same, -⟩ := nextRecord_frame next
  rw [same]
  exact ⟨spots.nmEnd, spots.lnkEnd⟩

theorem Bounded.step {args : RestoreArgs} (bounded : writer.Bounded)
    (running : writer.tcWriterStop = false) : (writer.tarGetdirStep args).Bounded := by
  cases next : writer.nextRecord with
  | none =>
      obtain ⟨-, sizeLeft, -⟩ := @tarGetdirStep_of_none writer args next
      obtain ⟨blocks, stop, rv, same⟩ := @tarGetdirStep_frame_of_none writer args next
      refine ⟨?_, (Int.le_of_eq sizeLeft).trans bounded.sizeLeft⟩
      rw [same]
      exact ⟨bounded.spots.nmEnd, bounded.spots.lnkEnd⟩
  | some call =>
      obtain ⟨-, sizeLeft, stop, ordinary⟩ := nextRecord_spec next
      rw [tarGetdirStep_of_record next]
      refine ⟨restoreRecord_within args (stop.trans running)
        (nextRecord_within next bounded.spots), ?_⟩
      cases regular : call.regular with
      | none =>
          exact (restoreRecord_of_other args regular (ordinary bounded.sizeLeft)).sizeLeft
            ((Int.le_of_eq sizeLeft).trans bounded.sizeLeft)
      | some hardlink =>
          rw [restoreRecord_of_regular args regular]
          obtain ⟨effects, -, -, -, -, -, none_⟩ :=
            restoreRegular_effects args call.writer call.fileSize hardlink call.record
          exact Int.le_of_eq none_

theorem runRecords_inside_iff (args : RestoreArgs) (room : Nat) (rounds : Nat)
    (writer : RestoreWriter) (bounded : writer.Bounded) :
    (∀ call ∈ runRecords args rounds writer, ∀ behind, ∀ access ∈ call.accesses behind,
        access.Inside room) ↔
      ∀ call ∈ runRecords args rounds writer, call.Fits room := by
  induction rounds generalizing writer with
  | zero =>
      exact iff_of_true (fun _ listed => absurd listed List.not_mem_nil)
        (fun _ listed => absurd listed List.not_mem_nil)
  | succ rounds ih =>
      unfold runRecords
      by_cases stopped : writer.tcWriterStop = true
      · rw [if_pos stopped]
        exact iff_of_true (fun _ listed => absurd listed List.not_mem_nil)
          (fun _ listed => absurd listed List.not_mem_nil)
      · have running := Bool.eq_false_iff.mpr stopped
        rw [if_neg stopped, List.forall_mem_append, List.forall_mem_append]
        apply and_congr
        · cases next : writer.nextRecord with
          | none =>
              exact iff_of_true (fun _ listed => absurd listed List.not_mem_nil)
                (fun _ listed => absurd listed List.not_mem_nil)
          | some call =>
              obtain ⟨-, -, stop, ordinary⟩ := nextRecord_spec next
              rw [Option.toList_some, List.forall_mem_singleton, List.forall_mem_singleton]
              exact RecordCall.inside_iff (stop.trans running)
                (nextRecord_within next bounded.spots) (ordinary bounded.sizeLeft) room
        · exact ih _ (bounded.step running)

/-- Whatever the stream is: `tar_getdir` stays inside its buffers, whatever stands in
memory behind them, exactly if all that its records read fits. -/
theorem tarGetdir_inside_iff (args : RestoreArgs) (blocks : List ReadBlock) (hardlinkQ : HardlinkQ)
    (io : RestoreIo) (rounds room : Nat) :
    (∀ call ∈ runRecords args rounds (start args blocks hardlinkQ io), ∀ behind,
        ∀ access ∈ call.accesses behind, access.Inside room) ↔
      ∀ call ∈ runRecords args rounds (start args blocks hardlinkQ io), call.Fits room := by
  apply runRecords_inside_iff
  exact ⟨⟨Nat.zero_le _, Nat.zero_le _⟩, Int.le_refl 0⟩

/-- A long name that is just as long as its buffer. -/
def fullLongName : ReadBlock where
  bytes := (tlmBuildHeaderChecksum { TlmTarHdr.zero with
    thLinkflag := lfLongname, thSize := octalField _ 11 tlmMaxPathName }).record ++
      List.replicate tlmMaxPathName 97
  tbErrno := 0
  small := by
    rw [List.length_append, TlmTarHdr.length_record, List.length_replicate]
    decide

/-- Its NUL is written behind the buffer. -/
theorem longName_outside :
    ∃ blocks : List ReadBlock, ∀ room,
      ¬ ∀ call ∈ runRecords restoreArgs 1 (start restoreArgs blocks [] ⟨[], [], []⟩), ∀ behind,
        ∀ access ∈ call.accesses behind, access.Inside room := by
  refine ⟨[fullLongName], fun room inside => ?_⟩
  have listed :
      ∃ call ∈ runRecords restoreArgs 1 (start restoreArgs [fullLongName] [] ⟨[], [], []⟩),
      ⟨.longname, tlmMaxPathName, tlmMaxPathName + 1⟩ ∈ call.accesses [] := by
    decide +kernel
  obtain ⟨call, inRun, outside⟩ := listed
  have past : tlmMaxPathName + 1 ≤ tlmMaxPathName :=
    inside call inRun [] _ outside (Nat.lt_succ_self _)
  omega

end RestoreWriter

end Ndmpd
