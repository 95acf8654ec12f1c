import Ndmpd.Tlm.ArchiveRoundTrip
import Ndmpd.Tlm.Framing

/-!
# The frame of a file that is read as it is put out

The header of a section is put out before its data is read. The loops of
`tlm_output_file` keep to what the header promises as long as every `read(2)` returns all
that it is asked for (`ReadsFill`): the records that have been granted for a short read
are not taken back, the end of the file only leaves the inner loop, and an error or an
abort leaves the section as it is. `framed_iff` is the exact condition for any entry.
-/

namespace Ndmpd

open Foundation

/-- A byte that `read(2)` returned, or zero. -/
def FileRun.Returned (run : FileRun) (byte : UInt8) : Prop :=
  byte = 0 ∨ ∃ call seekSpot size bytes, run.reads call seekSpot size = .bytes bytes ∧ byte ∈ bytes

/-- The link flags of headers whose data is a text of the encoder. -/
def textFlags : List UInt8 := [lfLonglink, lfLongname, lfAcl, lfHumongus]

/-- Where the data behind a header comes from: a text from the encoder, the data of an
entry from the file. -/
def FileRun.Source (run : FileRun) (linkflag byte : UInt8) : Prop :=
  linkflag ∈ textFlags ∨ run.Returned byte

namespace TarStream

/-- Until nothing remains of the file, `read(2)` returns as many bytes as it is asked for,
and the decoder takes data for the headers of the sections. An abort that is found as
soon as such a header has been put out that it takes no data for does no harm. -/
def ReadsFill (run : FileRun) (putHeader : TarStream → Nat → Nat → TarStream) (linkflag : UInt8)
    (inode : Nat) : Nat → (Nat → Bool) → TarStream → DataCursor → Prop
  | 0, seen, _, cursor =>
      cursor.fileSize = 0 ∨
        (cursor.sectionSize = 0 ∧ carriesData seen linkflag inode = false ∧
          run.abortWithBuffer = false)
  | reads + 1, seen, stream, cursor =>
      cursor.fileSize = 0 ∨
        (cursor.sectionSize = 0 → carriesData seen linkflag inode = true) ∧
          let (stream, inside) := stream.openSection putHeader cursor
          let readSize := min inside.sectionSize (stream.pool.granted inside.sectionSize)
          ∃ bytes, run.reads inside.call inside.seekSpot readSize = .bytes bytes ∧
            readSize ≤ bytes.length ∧
            ∀ next,
              stream.putData inside.sectionSize false (fun _ => bytes.take readSize) = some next →
                ReadsFill run putHeader linkflag inode reads
                  (if cursor.sectionSize = 0 then noteLink seen linkflag inode else seen) next
                  (inside.advance readSize)

variable {run : FileRun} {putHeader : TarStream → Nat → Nat → TarStream} {linkflag : UInt8}
  {inode reads : Nat}

/-- From a cursor on, the loops put out what is framed exactly if the reads fill. Between
sections they start with a header. -/
def LoopsFramed (run : FileRun) (putHeader : TarStream → Nat → Nat → TarStream) (linkflag : UInt8)
    (inode reads : Nat) : Prop :=
  ∀ (seen : Nat → Bool) (stream : TarStream) (cursor : DataCursor), stream.grantsLeft = none →
    cursor.sectionSize ≤ cursor.fileSize → cursor.sectionSize ≤ tlmMaxTarImage →
      ∃ puts, Emits stream (outputData run putHeader reads stream cursor).1 puts ∧
        (cursor.sectionSize = 0 → Headed puts) ∧
        ((Covered (run.Source linkflag) cursor.sectionSize (puts.takeWhile Put.isData) ∧
            Framed run.Source seen puts) ↔
          ReadsFill run putHeader linkflag inode reads seen stream cursor)

/-- One round inside a section. -/
theorem outputData_round_framed (later : LoopsFramed run putHeader linkflag inode reads)
    (seen : Nat → Bool) {stream opened : TarStream} {cursor inside : DataCursor}
    (unfinished : cursor.fileSize ≠ 0)
    (opens : stream.openSection putHeader cursor = (opened, inside))
    (forever : opened.grantsLeft = none) (positive : 0 < inside.sectionSize)
    (within : inside.sectionSize ≤ inside.fileSize) (image : inside.sectionSize ≤ tlmMaxTarImage) :
    let readSize := min inside.sectionSize (opened.pool.granted inside.sectionSize)
    ∃ puts, Emits opened (outputData run putHeader (reads + 1) stream cursor).1 puts ∧
      (∀ source, ¬ Covered source 0 (puts.takeWhile Put.isData)) ∧
      ((Covered (run.Source linkflag) inside.sectionSize (puts.takeWhile Put.isData) ∧
          Framed run.Source seen puts) ↔
        ∃ bytes, run.reads inside.call inside.seekSpot readSize = .bytes bytes ∧
          readSize ≤ bytes.length ∧
          ∀ next,
            opened.putData inside.sectionSize false (fun _ => bytes.take readSize) = some next →
              ReadsFill run putHeader linkflag inode reads seen
                next (inside.advance readSize)) := by
  intro readSize
  have ordinary : inside.sectionSize < 2 ^ 32 - 512 := by
    have most : tlmMaxTarImage = 0o17777777770 := rfl
    omega
  have granted := opened.pool.granted_pos positive ordinary
  have most := opened.pool.granted_le ordinary
  have records := opened.pool.granted_dvd inside.sectionSize
  rw [outputData, if_neg unfinished, opens]
  dsimp only
  rw [show min inside.sectionSize (opened.pool.granted inside.sectionSize) = readSize from rfl]
  cases read : run.reads inside.call inside.seekSpot readSize with
  | error =>
      obtain ⟨next, put, emits⟩ := putData_emits forever inside.sectionSize false fun _ => []
      dsimp only
      rw [put]
      rw [List.take_nil] at emits
      refine ⟨_, emits, fun _ => Covered.not_zero granted, ?_⟩
      constructor
      · rintro ⟨covered, _⟩
        exact absurd covered (Covered.not_of_short granted positive)
      · rintro ⟨bytes, given, _⟩
        cases given
  | bytes bytes =>
      obtain ⟨next, put, emits⟩ :=
        putData_emits forever inside.sectionSize false fun _ => bytes.take readSize
      have kept : (bytes.take readSize).take (opened.pool.granted inside.sectionSize) =
          bytes.take readSize := by
        refine List.take_of_length_le ?_
        rw [List.length_take]
        omega
      rw [kept] at emits
      dsimp only
      rw [put]
      dsimp only
      by_cases full : readSize ≤ bytes.length
      · have length : (bytes.take readSize).length = readSize := List.length_take_of_le full
        have some_ : readSize ≠ 0 := by
          omega
        have left : (inside.advance readSize).sectionSize = inside.sectionSize - readSize := by
          rw [DataCursor.advance]
          exact if_neg some_
        have size : (inside.advance readSize).fileSize = inside.fileSize - readSize := rfl
        obtain ⟨puts, rest, _, framed⟩ := later seen next (inside.advance readSize)
          emits.forever (by omega) (by omega)
        have read_ : ∀ byte ∈ bytes.take readSize, run.Source linkflag byte := by
          intro byte listed
          exact .inr (.inr ⟨_, _, _, bytes, read, List.mem_of_mem_take listed⟩)
        rw [length]
        refine ⟨_, emits.trans rest, fun _ => Covered.not_zero granted, ?_⟩
        rw [List.singleton_append, List.takeWhile_cons_of_pos rfl,
          Covered.piece length records most read_, length, ← left, Framed, framed]
        constructor
        · intro fills
          refine ⟨bytes, rfl, full, ?_⟩
          intro other same
          rw [put] at same
          cases same
          exact fills
        · rintro ⟨other, same, _, fills⟩
          cases same
          exact fills next put
      · -- what `read(2)` has not filled is not put out again
        have few : (bytes.take readSize).length = bytes.length := by
          rw [List.length_take]
          omega
        have smaller : (inside.advance (bytes.take readSize).length).sectionSize ≤
            inside.sectionSize - (bytes.take readSize).length := by
          rw [DataCursor.advance]
          dsimp only
          split
          · exact Nat.zero_le _
          · exact Nat.le_refl _
        have size : (inside.advance (bytes.take readSize).length).fileSize =
            inside.fileSize - (bytes.take readSize).length := rfl
        obtain ⟨puts, rest, _⟩ := later seen next
          (inside.advance (bytes.take readSize).length) emits.forever (by omega) (by omega)
        refine ⟨_, emits.trans rest, fun _ => Covered.not_zero granted, ?_⟩
        rw [List.singleton_append, List.takeWhile_cons_of_pos rfl]
        constructor
        · rintro ⟨covered, _⟩
          exact absurd covered (Covered.not_of_short (by omega) (by omega))
        · rintro ⟨other, same, enough, _⟩
          cases same
          exact absurd enough full

/-- Where an abort is found inside a section, the section stays as it is. -/
theorem outputData_abort_framed (seen : Nat → Bool) {stream opened : TarStream}
    {cursor inside : DataCursor} (unfinished : cursor.fileSize ≠ 0)
    (opens : stream.openSection putHeader cursor = (opened, inside))
    (forever : opened.grantsLeft = none) (positive : 0 < inside.sectionSize)
    (image : inside.sectionSize ≤ tlmMaxTarImage) :
    ∃ puts, Emits opened (outputData run putHeader 0 stream cursor).1 puts ∧
      ¬ Covered (run.Source linkflag) inside.sectionSize (puts.takeWhile Put.isData) ∧
      Framed run.Source seen puts ∧
      ∀ source, Covered source 0 (puts.takeWhile Put.isData) ↔ run.abortWithBuffer = false := by
  have ordinary : inside.sectionSize < 2 ^ 32 - 512 := by
    have most : tlmMaxTarImage = 0o17777777770 := rfl
    omega
  have granted := opened.pool.granted_pos positive ordinary
  rw [outputData, if_neg unfinished, opens]
  dsimp only
  cases run.abortWithBuffer with
  | true =>
      obtain ⟨next, put, emits⟩ := putData_emits forever inside.sectionSize false fun _ => []
      rw [List.take_nil] at emits
      rw [if_pos rfl, put]
      refine ⟨_, ⟨emits.puts, emits.forever⟩, Covered.not_of_short granted positive, trivial, ?_⟩
      intro source
      constructor
      · intro covered
        exact absurd covered (Covered.not_zero granted)
      · intro without
        cases without
  | false =>
      rw [if_neg Bool.false_ne_true]
      refine ⟨[], ⟨(List.append_nil _).symm, forever⟩, ?_, trivial, ?_⟩
      · intro covered
        exact absurd covered.due_eq_zero (Nat.ne_of_gt positive)
      · exact fun _ => ⟨fun _ => rfl, fun _ => .nothing⟩

/-- A section starts with its header, which promises the size of the section. -/
def PutsHeaders (putHeader : TarStream → Nat → Nat → TarStream) (linkflag : UInt8) (ino : Nat) :
    Prop :=
  ∀ (stream : TarStream) (size number : Nat), stream.grantsLeft = none →
    ∃ name puts, name.length < 2 ^ 31 ∧ Emits stream (putHeader stream size number) puts ∧
      HeaderPuts linkflag size ino name [] puts

/-- The loops put out what is framed exactly if the reads fill. -/
theorem outputData_framed {ino : Nat} (headers : PutsHeaders putHeader linkflag ino) (reads : Nat) :
    LoopsFramed run putHeader linkflag (inodePrinted ino) reads := by
  have most : tlmMaxTarImage = 0o17777777770 := rfl
  -- the header of a new section
  have opening : ∀ (seen : Nat → Bool) (stream : TarStream) (cursor : DataCursor),
      stream.grantsLeft = none → cursor.sectionSize = 0 → ∃ opened puts,
        stream.openSection putHeader cursor =
          (opened, { cursor with sectionSize := min cursor.fileSize tlmMaxTarImage }) ∧
        Emits stream opened puts ∧ ∀ rest, Headed (puts ++ rest) ∧
          ((Covered (run.Source linkflag) cursor.sectionSize
              ((puts ++ rest).takeWhile Put.isData) ∧ Framed run.Source seen (puts ++ rest)) ↔
            Covered (run.Source linkflag)
                (if carriesData seen linkflag (inodePrinted ino) then
                  min cursor.fileSize tlmMaxTarImage else 0) (rest.takeWhile Put.isData) ∧
              Framed run.Source (noteLink seen linkflag (inodePrinted ino)) rest) := by
    intro seen stream cursor forever between
    obtain ⟨name, puts, small, emits, header⟩ :=
      headers stream (min cursor.fileSize tlmMaxTarImage) cursor.sectionNo forever
    refine ⟨_, puts, by rw [openSection, if_pos between], emits, ?_⟩
    intro rest
    have texts : ∀ flag ∈ textFlags, ∀ byte, run.Source flag byte :=
      fun flag listed byte => .inl listed
    refine ⟨header.headed, ?_⟩
    rw [between, header.headed, header.framed_iff small (by decide) texts,
      sizePromised_of_lt (by omega)]
    exact and_iff_right .nothing
  induction reads with
  | zero =>
      intro seen stream cursor forever within image
      by_cases finished : cursor.fileSize = 0
      · refine ⟨[], ?_, fun _ => rfl, ?_⟩
        · rw [outputData, if_pos finished]
          exact .refl forever
        · rw [ReadsFill, show cursor.sectionSize = 0 by omega]
          exact ⟨fun _ => .inl finished, fun _ => ⟨.nothing, trivial⟩⟩
      · by_cases between : cursor.sectionSize = 0
        · obtain ⟨opened, puts, opens, emits, framed⟩ := opening seen stream cursor forever between
          obtain ⟨rest, more, spoilt, fine, bare⟩ := @outputData_abort_framed run putHeader linkflag
            (noteLink seen linkflag (inodePrinted ino)) stream opened cursor _ finished opens
            emits.forever (by dsimp only; omega) (Nat.min_le_right _ _)
          refine ⟨_, emits.trans more, fun _ => (framed rest).1, ?_⟩
          rw [(framed rest).2, ReadsFill]
          cases carriesData seen linkflag (inodePrinted ino) with
          | true =>
              rw [if_pos rfl]
              constructor
              · rintro ⟨covered, _⟩
                exact absurd covered spoilt
              · rintro (none | ⟨_, carries, _⟩)
                · exact absurd none finished
                · cases carries
          | false =>
              rw [if_neg Bool.false_ne_true, bare]
              constructor
              · rintro ⟨withoutBuffer, _⟩
                exact .inr ⟨between, rfl, withoutBuffer⟩
              · rintro (none | ⟨_, _, withoutBuffer⟩)
                · exact absurd none finished
                · exact ⟨withoutBuffer, fine⟩
        · have opens : stream.openSection putHeader cursor = (stream, cursor) := by
            rw [openSection, if_neg between]
          obtain ⟨puts, emits, spoilt, _, _⟩ := @outputData_abort_framed run putHeader linkflag
            seen stream stream cursor cursor finished opens forever (Nat.pos_of_ne_zero between)
              image
          refine ⟨puts, emits, fun none => absurd none between, ?_⟩
          rw [ReadsFill]
          constructor
          · rintro ⟨covered, _⟩
            exact absurd covered spoilt
          · rintro (none | ⟨none, _⟩)
            · exact absurd none finished
            · exact absurd none between
  | succ reads ih =>
      intro seen stream cursor forever within image
      by_cases finished : cursor.fileSize = 0
      · refine ⟨[], ?_, fun _ => rfl, ?_⟩
        · rw [outputData, if_pos finished]
          exact .refl forever
        · rw [ReadsFill, show cursor.sectionSize = 0 by omega]
          exact ⟨fun _ => .inl finished, fun _ => ⟨.nothing, trivial⟩⟩
      · by_cases between : cursor.sectionSize = 0
        · obtain ⟨opened, puts, opens, emits, framed⟩ := opening seen stream cursor forever between
          obtain ⟨rest, more, some_, round⟩ := @outputData_round_framed run putHeader linkflag
            (inodePrinted ino) reads ih (noteLink seen linkflag (inodePrinted ino)) stream opened
            cursor _ finished opens emits.forever (by dsimp only; omega) (Nat.min_le_left _ _)
            (Nat.min_le_right _ _)
          refine ⟨_, emits.trans more, fun _ => (framed rest).1, ?_⟩
          rw [(framed rest).2, ReadsFill, opens, if_pos between]
          cases carriesData seen linkflag (inodePrinted ino) with
          | true =>
              rw [if_pos rfl, round]
              constructor
              · intro fills
                exact .inr ⟨fun _ => rfl, fills⟩
              · rintro (none | ⟨_, fills⟩)
                · exact absurd none finished
                · exact fills
          | false =>
              rw [if_neg Bool.false_ne_true]
              constructor
              · rintro ⟨covered, _⟩
                exact absurd covered (some_ _)
              · rintro (none | ⟨carries, _⟩)
                · exact absurd none finished
                · cases carries between
        · have opens : stream.openSection putHeader cursor = (stream, cursor) := by
            rw [openSection, if_neg between]
          obtain ⟨puts, emits, _, round⟩ := @outputData_round_framed run putHeader linkflag
            (inodePrinted ino) reads ih seen stream stream cursor cursor finished opens forever
            (Nat.pos_of_ne_zero between) within image
          refine ⟨puts, emits, fun none => absurd none between, ?_⟩
          rw [round, ReadsFill, opens, if_neg between]
          constructor
          · intro fills
            exact .inr ⟨fun none => absurd none between, fills⟩
          · rintro (none | ⟨_, fills⟩)
            · exact absurd none finished
            · exact fills

/-! ## An entry -/

/-- What has been put into a stream since an earlier one. -/
def putsSince (stream next : TarStream) : List Put := next.puts.drop stream.puts.length

theorem putsSince_eq {stream next : TarStream} {puts : List Put}
    (emits : Emits stream next puts) : stream.putsSince next = puts := by
  rw [putsSince, emits.puts, List.drop_left]

/-- An ACL is framed by itself. -/
theorem outputAclHeader_framed {stream : TarStream} (forever : stream.grantsLeft = none)
    (run : FileRun) {aclInfo : Option SecAttr}
    (small : ∀ acl ∈ aclInfo, acl.attrInfo.length < 2 ^ 31 - 16) :
    ∃ puts, Emits stream (stream.outputAclHeader aclInfo) puts ∧ ∀ seen rest, Headed rest →
      (Framed run.Source seen (puts ++ rest) ↔ Framed run.Source seen rest) := by
  cases aclInfo with
  | none => exact ⟨[], .refl forever, fun _ _ _ => Iff.rfl⟩
  | some acl =>
      unfold outputAclHeader
      dsimp only
      by_cases empty : acl.attrInfo.head?.getD 0 = 0
      · rw [if_pos empty]
        exact ⟨[], .refl forever, fun _ _ _ => Iff.rfl⟩
      · rw [if_neg empty]
        have length : (acl.image ++ acl.attrInfo).length = 16 + acl.attrInfo.length := by
          rw [List.length_append, SecAttr.image, List.length_append, List.length_append,
            littleEndian_length, littleEndian_length]
          rfl
        have fits := small acl rfl
        generalize header : tlmBuildHeaderChecksum _ = tarHdr
        obtain ⟨next, put, emits⟩ := putHeader_emits forever tarHdr
        rw [put]
        dsimp only
        obtain ⟨puts, text, filled⟩ := @outputMem_emits next (acl.image ++ acl.attrInfo)
          emits.forever (by omega)
        refine ⟨_, emits.trans text, ?_⟩
        intro seen rest headed
        have flag : tarHdr.thLinkflag = lfAcl := by rw [← header]; rfl
        have listed : tarHdr.thLinkflag ∈ textFlags := by rw [flag]; decide
        refine Framed.text_append listed ?_ (by omega) filled (fun _ _ => .inl listed) headed
        rw [← header]
        rfl

/-- The name of a huge file is framed by itself. -/
theorem outputHugeName_framed {stream : TarStream} (forever : stream.grantsLeft = none)
    (run : FileRun) {fullname : CString} (small : fullname.length < 2 ^ 30) (fileSize : Nat) :
    ∃ puts, Emits stream (stream.outputHugeName fullname fileSize) puts ∧ ∀ seen rest,
      Headed rest → Headed (puts ++ rest) ∧
        (Framed run.Source seen (puts ++ rest) ↔ Framed run.Source seen rest) := by
  unfold outputHugeName
  by_cases huge : tlmMaxTarImage < fileSize
  · rw [if_pos huge]
    obtain ⟨tarHdr, puts, emits, header, filled⟩ :=
      outputHumongusHeader_emits forever fileSize small
    refine ⟨_, emits, ?_⟩
    intro seen rest headed
    have listed : tarHdr.thLinkflag ∈ textFlags := by
      rw [header.thLinkflag]
      decide
    refine ⟨headed_header _ _, ?_⟩
    refine Framed.text_append listed ?_ ?_ filled (fun _ _ => .inl listed) headed
    · rw [CharArray.length_bytes]
      exact header.thSize
    · rw [CharArray.length_bytes]
      omega
  · rw [if_neg huge]
    exact ⟨[], .refl forever, fun _ _ headed => ⟨headed, Iff.rfl⟩⟩

end TarStream

namespace FileEntry

variable (entry : FileEntry)

/-- A header without data behind it keeps the frame if the decoder takes no data for it. -/
def LoneHeader (seen : Nat → Bool) (link : CString) : Prop :=
  carriesData seen (TarStream.linkflagOf entry.attr link) (inodePrinted entry.attr.stIno) = true →
    sizePromised entry.attr.stSize = 0

/-- The condition under which an entry keeps the frame. An entry that is left out does. A
link and a file without data to put out have a header only. Of a file with data every
read has to fill its request. -/
def KeepsFrame (owners : OwnerNames) (run : FileRun) (stream : TarStream) (hardlinkQ : HardlinkQ)
    (seen : Nat → Bool) : Prop :=
  if tlmIsTooLong entry.dir entry.name then True
  else
    match tlmCatPath entry.dir entry.name, tlmCatPath entry.chkdir entry.name with
    | some fullname, some _ =>
        if entry.attr.fileType = .symbolicLink then
          0 ≤ (tlmReadlink run).2 → entry.LoneHeader seen (tlmReadlink run).1
        else if ¬ entry.hardlinkDone hardlinkQ ∧ ¬ run.opened then True
        else if tlmMaxTarImage < entry.attr.stSize ∧ ¬ run.nameAllocated then True
        else if entry.hardlinkDone hardlinkQ ∨ entry.attr.stSize = 0 then entry.LoneHeader seen []
        else
          TarStream.ReadsFill run (entry.putSection owners fullname)
            (TarStream.linkflagOf entry.attr []) (inodePrinted entry.attr.stIno)
            run.readsBeforeAbort seen
            ((stream.outputAclHeader entry.aclInfo).outputHugeName fullname entry.attr.stSize)
            ⟨entry.attr.stSize, 0, if tlmMaxTarImage < entry.attr.stSize then 1 else 0, 0, 0⟩
    | _, _ => True

end FileEntry

namespace TarStream

/-- A header without data behind it. -/
theorem loneHeader_framed {entry : FileEntry} {run : FileRun} {name link : CString}
    {puts : List Put}
    (header : HeaderPuts (linkflagOf entry.attr link) entry.attr.stSize entry.attr.stIno name link
      puts)
    (nameSmall : name.length < 2 ^ 31) (linkSmall : link.length < 2 ^ 31) (seen : Nat → Bool) :
    Framed run.Source seen puts ↔ entry.LoneHeader seen link := by
  have texts : ∀ flag ∈ textFlags, ∀ byte, run.Source flag byte :=
    fun flag listed byte => .inl listed
  have framed := @header.framed_iff run.Source seen _ _ _ _ _ _ [] nameSmall linkSmall texts
  rw [List.append_nil] at framed
  rw [framed, FileEntry.LoneHeader]
  constructor
  · rintro ⟨covered, _⟩ carries
    rw [if_pos carries] at covered
    exact covered.due_eq_zero
  · intro empty
    refine ⟨?_, trivial⟩
    by_cases carries :
      carriesData seen (linkflagOf entry.attr link) (inodePrinted entry.attr.stIno) = true
    · rw [if_pos carries, empty carries]
      exact .nothing
    · rw [if_neg carries]
      exact .nothing

theorem sectionName_length (name : CString) (sectionNo : Nat) :
    (sectionName name sectionNo).length < 2 ^ 31 := by
  have most : tlmMaxPathName = 1088 := rfl
  unfold sectionName
  split <;> (rw [List.length_take]; omega)

theorem putsHeaders (owners : OwnerNames) (entry : FileEntry) (fullname : CString) :
    PutsHeaders (entry.putSection owners fullname) (linkflagOf entry.attr []) entry.attr.stIno := by
  intro stream size number forever
  obtain ⟨puts, emits, header⟩ := @putSection_emits entry owners fullname stream forever size number
  exact ⟨_, puts, sectionName_length _ _, emits, header⟩

/-- The headers and data of a file. -/
theorem outputContents_framed {stream : TarStream} (forever : stream.grantsLeft = none)
    (owners : OwnerNames) (entry : FileEntry) (fullname : CString) (run : FileRun)
    (sectionNo fileSize : Nat) (seen : Nat → Bool) :
    ∃ puts,
      Emits stream (stream.outputContents owners entry fullname run sectionNo fileSize).1 puts ∧
        Headed puts ∧
        (Framed run.Source seen puts ↔
          if fileSize = 0 then entry.LoneHeader seen []
          else
            ReadsFill run (entry.putSection owners fullname) (linkflagOf entry.attr [])
              (inodePrinted entry.attr.stIno) run.readsBeforeAbort seen stream
              ⟨fileSize, 0, sectionNo, 0, 0⟩) := by
  by_cases empty : fileSize = 0
  · subst empty
    obtain ⟨puts, -, emits, header⟩ :=
      @outputContents_emits_empty entry owners fullname run stream sectionNo forever
    have headed := @header.headed _ _ _ _ _ _ []
    rw [List.append_nil] at headed
    refine ⟨puts, emits, headed, ?_⟩
    rw [if_pos rfl]
    exact loneHeader_framed header (sectionName_length _ _) (by decide) seen
  · obtain ⟨puts, emits, headed, framed⟩ :=
      @outputData_framed run _ _ _ (putsHeaders owners entry fullname) run.readsBeforeAbort seen
        stream ⟨fileSize, 0, sectionNo, 0, 0⟩ forever (Nat.zero_le _) (Nat.zero_le _)
    refine ⟨puts, ?_, headed rfl, ?_⟩
    · unfold outputContents
      rw [if_neg empty]
      exact emits
    · rw [if_neg empty, ← framed, show puts.takeWhile Put.isData = [] from headed rfl]
      exact (and_iff_right .nothing).symm

end TarStream

theorem tlmReadlink_length (run : FileRun) : (tlmReadlink run).1.length < 2 ^ 31 := by
  have most : tlmMaxPathName = 1088 := rfl
  unfold tlmReadlink
  cases run.readlink with
  | target bytes =>
      dsimp only
      rw [List.length_take]
      omega
  | missing => decide
  | failed => decide

/-- What `tlm_output_file` puts into a stream whose writer keeps taking records is framed
exactly if the entry keeps the frame. -/
theorem tlmOutputFile_framed (owners : OwnerNames) (entry : FileEntry) (run : FileRun)
    {stream : TarStream} (hardlinkQ : HardlinkQ) (seen : Nat → Bool)
    (forever : stream.grantsLeft = none)
    (small : ∀ acl ∈ entry.aclInfo, acl.attrInfo.length < 2 ^ 31 - 16) :
    Framed run.Source seen
        (stream.putsSince (tlmOutputFile owners entry run stream hardlinkQ).1) ↔
      entry.KeepsFrame owners run stream hardlinkQ seen := by
  have nothing : stream.putsSince stream = [] := TarStream.putsSince_eq (.refl forever)
  unfold tlmOutputFile FileEntry.KeepsFrame
  by_cases long : tlmIsTooLong entry.dir entry.name = true
  · rw [if_pos long, if_pos long, nothing]
    exact Iff.rfl
  rw [if_neg long, if_neg long]
  cases joined : tlmCatPath entry.dir entry.name with
  | none =>
      dsimp only
      rw [nothing]
      exact Iff.rfl
  | some fullname =>
  cases checked : tlmCatPath entry.chkdir entry.name with
  | none =>
      dsimp only
      rw [nothing]
      exact Iff.rfl
  | some snapname =>
  dsimp only
  by_cases symlink : entry.attr.fileType = .symbolicLink
  · rw [if_pos symlink, if_pos symlink]
    by_cases failed : (tlmReadlink run).2 < 0
    · rw [if_pos failed, nothing]
      exact ⟨fun _ read => absurd failed (Int.not_lt.mpr read), fun _ => trivial⟩
    · rw [if_neg failed]
      have linkSmall := tlmReadlink_length run
      obtain ⟨puts, emits, header⟩ := TarStream.outputFileHeader_emits forever owners fullname
        entry.attr 0 linkSmall
      rw [TarStream.putsSince_eq emits,
        TarStream.loneHeader_framed header (TarStream.sectionName_length _ _) linkSmall]
      exact ⟨fun lone _ => lone, fun lone => lone (Int.not_lt.mp failed)⟩
  rw [if_neg symlink, if_neg symlink]
  by_cases lost : ¬ entry.hardlinkDone hardlinkQ = true ∧ ¬ run.opened = true
  · rw [if_pos lost, if_pos lost, nothing]
    exact Iff.rfl
  rw [if_neg lost, if_neg lost]
  have short := tlmCatPath_length joined
  have most : pathMax = 1024 := rfl
  obtain ⟨acl, emitsAcl, aclFramed⟩ := TarStream.outputAclHeader_framed forever run small
  by_cases unnamed : tlmMaxTarImage < entry.attr.stSize ∧ ¬ run.nameAllocated = true
  · rw [if_pos unnamed, if_pos unnamed, TarStream.putsSince_eq emitsAcl, iff_true]
    have framed := aclFramed seen [] rfl
    rw [List.append_nil] at framed
    exact framed.mpr trivial
  rw [if_neg unnamed, if_neg unnamed]
  obtain ⟨huge, emitsHuge, hugeFramed⟩ := TarStream.outputHugeName_framed emitsAcl.forever run
    (show fullname.length < 2 ^ 30 by omega) entry.attr.stSize
  obtain ⟨puts, emits, headed, framed⟩ := TarStream.outputContents_framed emitsHuge.forever owners
    entry fullname run (if tlmMaxTarImage < entry.attr.stSize then 1 else 0)
    (if entry.hardlinkDone hardlinkQ then 0 else entry.attr.stSize) seen
  obtain ⟨behind, hugeFramed⟩ := hugeFramed seen puts headed
  dsimp only
  rw [TarStream.putsSince_eq (emitsAcl.trans (emitsHuge.trans emits)), aclFramed seen _ behind,
    hugeFramed, framed]
  cases entry.hardlinkDone hardlinkQ with
  | true => simp
  | false => simp

/-! ## A short read -/

theorem entryOf_acl (name : CString) (fileType : FileType) (size : Nat) :
    ∀ acl ∈ (entryOf name fileType size).aclInfo, acl.attrInfo.length < 2 ^ 31 - 16 := by
  intro acl listed
  cases listed

/-- Every read of a file fills its request when `read(2)` returns the bytes of the file at the
place as far as they go. -/
theorem TarStream.ReadsFill.of_fillsRequests {run : FileRun} {contents : List UInt8}
    (fills : run.FillsRequests contents) {putHeader : TarStream → Nat → Nat → TarStream}
    {linkflag : UInt8} {inode : Nat} (carries : ∀ seen, carriesData seen linkflag inode = true)
    {reads : Nat} {seen : Nat → Bool} {stream : TarStream} {cursor : DataCursor}
    (within : cursor.sectionSize ≤ cursor.fileSize) (image : cursor.sectionSize ≤ tlmMaxTarImage)
    (left : cursor.seekSpot + cursor.fileSize = contents.length)
    (enough : cursor.fileSize ≤ reads) :
    TarStream.ReadsFill run putHeader linkflag inode reads seen stream cursor := by
  induction reads generalizing seen stream cursor with
  | zero => exact .inl (Nat.le_zero.mp enough)
  | succ reads ih =>
      by_cases finished : cursor.fileSize = 0
      · exact .inl finished
      · refine .inr ⟨fun _ => carries seen, ?_⟩
        have most : tlmMaxTarImage = 0o17777777770 := rfl
        have opens : ∃ opened size, stream.openSection putHeader cursor =
            (opened, { cursor with sectionSize := size }) ∧ 0 < size ∧ size ≤ cursor.fileSize ∧
              size ≤ tlmMaxTarImage := by
          unfold TarStream.openSection
          split
          · exact ⟨_, _, rfl, by omega, Nat.min_le_left _ _, Nat.min_le_right _ _⟩
          · exact ⟨_, _, rfl, by omega, within, image⟩
        obtain ⟨opened, size, opens, positive, inside, small⟩ := opens
        rw [opens]
        dsimp only
        have granted := opened.pool.granted_pos positive (by omega)
        generalize opened.pool.granted size = grant at granted
        have read : min size grant ≤
            ((contents.drop cursor.seekSpot).take (min size grant)).length := by
          rw [List.length_take, List.length_drop]
          omega
        refine ⟨_, fills.reads _ _ _ (by omega), read, fun next _ => ih ?_ ?_ ?_ ?_⟩ <;>
          simp only [DataCursor.advance]
        · split <;> omega
        · split <;> omega
        · omega
        · omega

/-- The file `/a/f` of 3 bytes, which one read returns, is framed. -/
theorem tlmOutputFile_framed_fullRead :
    Framed (FileRun.ofContents [1, 2, 3]).Source (fun _ => false)
      (twoRecords.putsSince
        (tlmOutputFile ⟨fun _ => none, fun _ => none⟩ (entryOf [102] .regular 3)
          (.ofContents [1, 2, 3]) twoRecords []).1) := by
  rw [tlmOutputFile_framed _ _ _ _ _ rfl (entryOf_acl _ _ _)]
  have joined : tlmCatPath [slash, 97] [102] = some [slash, 97, slash, 102] := by decide
  unfold FileEntry.KeepsFrame entryOf
  dsimp only
  rw [if_neg (by decide), joined]
  dsimp only
  rw [if_neg (by decide), if_neg (by decide), if_neg (by decide), if_neg (by decide)]
  exact .of_fillsRequests (FileRun.ofContents_fills _) (fun _ => rfl) (Nat.zero_le _)
    (Nat.zero_le _) rfl (Nat.le_refl _)

/-- The first read returns 300 bytes, the others all they are asked for. -/
def shortRead (contents : List UInt8) : FileRun where
  readlink := .failed
  opened := true
  nameAllocated := true
  reads := fun call seekSpot request =>
    .bytes ((contents.drop seekSpot).take (if call = 0 then min 300 request else request))
  readsBeforeAbort := 4
  abortWithBuffer := false

/-- A file of 1000 bytes that are read in two pieces, 300 bytes first, is not framed: more
records are put out than its header promises, and the first of them ends in old bytes of
the block. -/
theorem shortRead_unframed :
    ¬ ∀ (owners : OwnerNames) (entry : FileEntry) (run : FileRun) (stream : TarStream)
        (hardlinkQ : HardlinkQ) (seen : Nat → Bool), stream.grantsLeft = none →
      (∀ acl ∈ entry.aclInfo, acl.attrInfo.length < 2 ^ 31 - 16) →
        Framed run.Source seen
          (stream.putsSince (tlmOutputFile owners entry run stream hardlinkQ).1) := by
  intro framed
  let owners : OwnerNames := ⟨fun _ => none, fun _ => none⟩
  let entry := entryOf [102] .regular 1000
  let fullname := [slash, 97, slash, 102]
  let run := shortRead (List.replicate 1000 1)
  have named : entry.Named fullname := by
    refine ⟨by decide, by decide, by decide, ?_⟩
    intro acl listed
    cases listed
  have put := framed owners entry run twoRecords [] (fun _ => false) rfl (entryOf_acl _ _ _)
  have sized : ¬ tlmMaxTarImage < entry.attr.stSize := by decide
  have undone : entry.hardlinkDone [] = false := by decide
  rw [tlmOutputFile_opened named (by decide) rfl rfl, TarStream.outputHugeName, if_neg sized,
    if_neg sized, undone, if_neg Bool.false_ne_true] at put
  obtain ⟨puts, emits, _, same⟩ := @TarStream.outputContents_framed twoRecords rfl owners entry
    fullname run 0 entry.attr.stSize (fun _ => false)
  rw [if_neg (by decide), ← TarStream.putsSince_eq emits] at same
  rcases same.mp put with none | ⟨_, bytes, read, enough, _⟩
  · cases none
  · -- the request is for at least a record
    let pool := (TarStream.openSection (entry.putSection owners fullname) twoRecords
      ⟨1000, 0, 0, 0, 0⟩).1.pool
    have records : 512 ∣ pool.granted 1000 := pool.granted_dvd 1000
    have granted : 0 < pool.granted 1000 := pool.granted_pos (by decide) (by decide)
    have few : bytes.length ≤ 300 := by
      rw [← ReadResult.bytes.inj read]
      exact le_trans (List.length_take_le _ _) (min_le_left _ _)
    have asked : min 1000 (pool.granted 1000) ≤ bytes.length := enough
    omega

end Ndmpd
