import Ndmpd.Tlm.ArchivePuts
import Ndmpd.Tlm.RestoreReads

/-!
# The decoder's view of an archive

An archive is a sequence of entries. What a decoder has done so far is the entries it
has restored and the file it is writing (`Restored`), and what it will do with the rest
of the stream depends on a few of its variables only (`DecoderView`). `Decodes` relates
two such views when the decoder gets from the one to the other; for each kind of record
there is a lemma that says to which view it leads.
-/

namespace Ndmpd

open Foundation

namespace Restored

theorem of_append (ops more : List RestoreOp) : of (ops ++ more) = more.foldl apply (of ops) :=
  List.foldl_append

@[simp]
theorem of_concat (ops : List RestoreOp) (op : RestoreOp) :
    of (ops ++ [op]) = (of ops).apply op := by
  rw [of_append, List.foldl_cons, List.foldl_nil]

@[simp]
theorem apply_setAcl (restored : Restored) (path : Option CString) (acls : TlmAcls) :
    restored.apply (.setAcl path acls) = restored := rfl

/-- Setting attributes restores nothing. -/
theorem of_append_setAcls (ops : List RestoreOp) (dirs : List (CString × TlmAcls)) :
    of (ops ++ dirs.map fun entry => .setAcl (some entry.1) entry.2) = of ops := by
  rw [of_append]
  induction dirs with
  | nil => rfl
  | cons dir dirs ih => exact ih

/-- Pieces written one after the other are the file. -/
theorem of_append_writes (ops : List RestoreOp) (pieces : List (List UInt8)) {path : CString}
    {contents : List UInt8} {entries : List ArchiveEntry}
    (writing : of ops = ⟨entries, some (path, contents)⟩) :
    of (ops ++ pieces.map .write) = ⟨entries, some (path, contents ++ pieces.flatten)⟩ := by
  induction pieces generalizing ops contents with
  | nil =>
      rw [List.map_nil, List.append_nil, List.flatten_nil, List.append_nil]
      exact writing
  | cons piece pieces ih =>
      have next : of (ops ++ [.write piece]) = ⟨entries, some (path, contents ++ piece)⟩ := by
        rw [of_concat, writing]
        rfl
      have rest := ih (ops ++ [.write piece]) next
      rw [List.append_assoc] at rest
      rw [List.map_cons, List.flatten_cons, ← List.append_assoc]
      exact rest

end Restored

/-- What the decoder's further behaviour depends on: the bytes that are left, the names
it keeps for the next entry, the state of a file in sections and the hard links. A long
name that is not going to be used need not be known. -/
structure DecoderView where
  left : List UInt8
  longname : Option CString
  nmEnd : Nat
  longlink : CString
  lnkEnd : Nat
  hugename : CString
  hugeSize : Int
  fp : FilePointer
  hardlinkQ : HardlinkQ
  restored : Restored

namespace DecoderView

/-- The view with other bytes left. -/
def leaving (view : DecoderView) (left : List UInt8) : DecoderView := { view with left := left }

/-- The view after an operation. -/
def after (view : DecoderView) (op : RestoreOp) : DecoderView :=
  { view with restored := view.restored.apply op }

/-- The view when an entry has used up the names. -/
def unnamed (view : DecoderView) : DecoderView :=
  { view with longname := some [], nmEnd := 0, longlink := [], lnkEnd := 0 }

/-- The view between two entries. -/
def between (left : List UInt8) (hardlinkQ : HardlinkQ)
    (entries : List ArchiveEntry) : DecoderView where
  left := left
  longname := some []
  nmEnd := 0
  longlink := []
  lnkEnd := 0
  hugename := []
  hugeSize := 0
  fp := .closed
  hardlinkQ := hardlinkQ
  restored := ⟨entries, none⟩

end DecoderView

/-- A running decoder in the state of a view, whose operations all succeed. -/
structure Sees (view : DecoderView) (writer : RestoreWriter) : Prop where
  running : writer.tcWriterStop = false
  single : writer.multiVolume = false
  sound : writer.faulted = false
  scripts : writer.io = ⟨[], [], []⟩
  whole : RestoreWriter.Whole writer.blocks
  left : RestoreWriter.bytesOf writer.blocks = view.left
  longname : ∀ name ∈ view.longname, writer.longname.string = name
  nmEnd : writer.nmEnd = view.nmEnd
  longlink : writer.longlink.string = view.longlink
  lnkEnd : writer.lnkEnd = view.lnkEnd
  hugename : writer.hugename.string = view.hugename
  hugeSize : writer.hugeSize = view.hugeSize
  fp : writer.fp = view.fp
  hardlinkQ : writer.hardlinkQ = view.hardlinkQ
  restored : Restored.of writer.ops = view.restored

/-- The decoder gets from one view to another without a fault, with at least one record
for each of the rounds it takes. -/
def Decodes (args : RestoreArgs) (view next : DecoderView) : Prop :=
  ∀ writer, Sees view writer → ∃ rounds last, Sees next last ∧
    512 * rounds + next.left.length ≤ view.left.length ∧
    (∀ more, RestoreWriter.tarGetdirLoop args (rounds + more) writer =
      RestoreWriter.tarGetdirLoop args more last) ∧
    ∀ fewer ≤ rounds, (RestoreWriter.tarGetdirLoop args fewer writer).faulted = false ∧
      512 * (rounds - fewer) + next.left.length ≤
        (RestoreWriter.bytesOf (RestoreWriter.tarGetdirLoop args fewer writer).blocks).length

namespace Decodes

variable {args : RestoreArgs} {view middle next : DecoderView}

theorem refl : Decodes args view view := by
  intro writer sees
  refine ⟨0, writer, sees, by omega, ?_, ?_⟩
  · intro more
    rw [Nat.zero_add]
  · intro fewer none
    rw [Nat.le_zero.mp none]
    refine ⟨sees.sound, ?_⟩
    change 512 * 0 + view.left.length ≤ (RestoreWriter.bytesOf writer.blocks).length
    rw [sees.left]
    omega

theorem trans (first : Decodes args view middle) (second : Decodes args middle next) :
    Decodes args view next := by
  intro writer sees
  obtain ⟨rounds, between, seen, used, run, sound⟩ := first writer sees
  obtain ⟨further, last, done, rest, finish, stillSound⟩ := second between seen
  refine ⟨rounds + further, last, done, by omega, ?_, ?_⟩
  · intro more
    rw [Nat.add_assoc, run, finish]
  · intro fewer within
    by_cases before : fewer ≤ rounds
    · obtain ⟨noFault, unread⟩ := sound fewer before
      exact ⟨noFault, by omega⟩
    · obtain ⟨more, rfl⟩ : ∃ more, fewer = rounds + more := ⟨fewer - rounds, by omega⟩
      obtain ⟨noFault, unread⟩ := stillSound more (by omega)
      rw [run]
      exact ⟨noFault, by omega⟩

/-- One round of the decoder. -/
theorem step (steps : ∀ writer, Sees view writer → Sees next (writer.tarGetdirStep args))
    (shorter : 512 + next.left.length ≤ view.left.length) : Decodes args view next := by
  intro writer sees
  have round : ∀ more, RestoreWriter.tarGetdirLoop args (more + 1) writer =
      RestoreWriter.tarGetdirLoop args more (writer.tarGetdirStep args) := by
    intro more
    rw [RestoreWriter.tarGetdirLoop, if_neg (by rw [sees.running]; decide)]
  refine ⟨1, writer.tarGetdirStep args, steps writer sees, by omega, ?_, ?_⟩
  · intro more
    rw [Nat.add_comm, round]
  · intro fewer within
    rcases Nat.le_one_iff_eq_zero_or_eq_one.mp within with rfl | rfl
    · refine ⟨sees.sound, ?_⟩
      change 512 * 1 + next.left.length ≤ (RestoreWriter.bytesOf writer.blocks).length
      rw [sees.left]
      omega
    · rw [round 0]
      refine ⟨(steps writer sees).sound, ?_⟩
      change 512 * 0 + next.left.length ≤
        (RestoreWriter.bytesOf (writer.tarGetdirStep args).blocks).length
      rw [(steps writer sees).left]
      omega

end Decodes

/-! ## Reading a header -/

/-- The size in a header is read back. -/
theorem fileSize_of {tarHdr : TlmTarHdr} {size : Nat}
    (field : tarHdr.thSize = octalField _ 11 size) (small : size < 2 ^ 31) :
    octAtoi (tarHdr.record.drop thSizeAt) = size := by
  rw [tarHdr.drop_size, field,
    octAtoi_octalField (by decide) (by decide) (show size < 8 ^ 11 by omega), toInt32_of_lt small]

namespace EntryHeader

variable {tarHdr : TlmTarHdr} {linkflag : UInt8} {size ino : Nat} {name link : CString}

theorem cstring_name (header : EntryHeader tarHdr linkflag size ino name link)
    (nulFree : NulFree name) (short : name.length < tlmNameSize) :
    cstring tarHdr.record = name := by
  rw [TlmTarHdr.record, header.thName short]
  exact CharArray.cstring_ofString nulFree short _

theorem cstring_link (header : EntryHeader tarHdr linkflag size ino name link)
    (nulFree : NulFree link) (short : link.length < tlmNameSize) :
    cstring (tarHdr.record.drop thLinknameAt) = link := by
  rw [tarHdr.drop_linkname, header.thLinkname short]
  exact CharArray.cstring_ofString nulFree short _

theorem inode (header : EntryHeader tarHdr lfLink size ino name link) :
    octAtoi (tarHdr.record.drop thHlinkInoAt) = toInt32 (ino % 2 ^ 32) := by
  rw [tarHdr.drop_hlinkIno, header.thHlinkIno rfl,
    octAtoi_octalField (by decide) (by decide) (by omega)]

end EntryHeader

/-- A long name that fits its buffer is read to its end. -/
theorem RestoreWriter.getLongName_eq {writer : RestoreWriter} (name : CharArray tlmMaxPathName)
    {bufSpot : Nat} {text pad rest : List UInt8} (running : writer.tcWriterStop = false)
    (whole : Whole writer.blocks) (stream : bytesOf writer.blocks = text ++ (pad ++ rest))
    (padded : text.length + pad.length = roundToRecords text.length)
    (fits : bufSpot + text.length < tlmMaxPathName) :
    ∃ blocks, writer.getLongName (longNameSize text.length bufSpot) name bufSpot =
        ({ writer with blocks := blocks, faulted := writer.faulted || false },
          (name.write bufSpot text).write (bufSpot + text.length) [0], bufSpot + text.length) ∧
      bytesOf blocks = rest ∧ Whole blocks := by
  have most : tlmMaxPathName = 1088 := rfl
  obtain ⟨blocks, read, bytes, good⟩ := inputMem_eq running whole stream padded (by omega)
  have size : longNameSize text.length bufSpot = text.length := by
    have low : ((text.length : Int) % 2 ^ 32).toNat = text.length := by
      omega
    have room : (((tlmMaxPathName : Int) - bufSpot) % 2 ^ 32).toNat = tlmMaxPathName - bufSpot := by
      omega
    rw [longNameSize, low, room, unsignedMin, Nat.mod_eq_of_lt (by omega),
      Nat.mod_eq_of_lt (by omega), Nat.min_eq_left (by omega), toInt32_of_lt (by omega)]
  refine ⟨blocks, ?_, bytes, good⟩
  unfold getLongName
  rw [size, read]
  dsimp only
  rw [decide_eq_false (show ¬ tlmMaxPathName ≤ bufSpot + text.length by omega)]

namespace Sees

variable {view : DecoderView} {writer : RestoreWriter} {args : RestoreArgs}

/-- A round on a good header carries out what its link flag says. The attributes that it
reads are not part of the view. -/
theorem header (sees : Sees view writer) {tarHdr : TlmTarHdr} {linkflag : UInt8}
    {rest : List UInt8} (checksum : tlmVfyTarChecksum tarHdr.record = 1)
    (flag : tarHdr.thLinkflag = linkflag) (multivol : linkflag ≠ lfMultivol)
    (volhdr : linkflag ≠ lfVolhdr) (left : view.left = tarHdr.record ++ rest) :
    ∃ reading, Sees (view.leaving rest) reading ∧
      writer.tarGetdirStep args = reading.restoreRecord args linkflag
        (octAtoi (tarHdr.record.drop thSizeAt)) tarHdr.record := by
  have length : tarHdr.record.length = 512 := tarHdr.length_record
  obtain ⟨blocks, bytes, whole, step⟩ := RestoreWriter.tarGetdirStep_record args sees.running
    sees.single sees.whole length (sees.left.trans left)
  have read : (tarHdr.record.drop thLinkflagAt).head?.getD 0 = linkflag := by
    rw [tarHdr.drop_linkflag, flag]
    rfl
  have ordinary : ¬ (linkflag = lfMultivol ∨ linkflag = lfVolhdr) := by
    rintro (isMultivol | isVolhdr)
    · exact multivol isMultivol
    · exact volhdr isVolhdr
  rw [step, if_pos checksum, RestoreWriter.acceptRecord]
  dsimp only
  rw [read, if_neg ordinary]
  refine ⟨_, ?_, rfl⟩
  exact { sees with whole := whole, left := bytes }

/-! ## Operations that a view does not show, or shows in one place -/

theorem perform (sees : Sees view writer) (op : RestoreOp) :
    Sees (view.after op) (writer.perform op) := by
  have restored : Restored.of (writer.ops ++ [op]) = view.restored.apply op := by
    rw [Restored.of_concat, sees.restored]
  exact { sees with restored := restored }

theorem setOwnAcl (sees : Sees view writer) (path : Option CString) :
    Sees view (writer.setOwnAcl path) := by
  have restored : Restored.of (writer.ops ++ [.setAcl path writer.acls]) = view.restored := by
    rw [Restored.of_concat, Restored.apply_setAcl, sees.restored]
  exact { sees with restored := restored }

theorem dtreePush (sees : Sees view writer) (path : CString) : Sees view (writer.dtreePush path) :=
  { sees with }

theorem dtreePopUntil (sees : Sees view writer) (path : CString) :
    Sees view (writer.dtreePopUntil path) :=
  { sees with restored := (Restored.of_append_setAcls _ _).trans sees.restored }

/-- An entry has used up the names. -/
theorem resetNames (sees : Sees view writer) :
    Sees view.unnamed writer.resetNames := by
  have cleared : ∀ name ∈ some ([] : CString), (writer.longname.write 0 [0]).string = name := by
    intro name isEmpty
    rw [← Option.some.inj isEmpty]
    exact CharArray.string_write_nul (by decide)
  exact { sees with
    longname := cleared
    nmEnd := rfl
    longlink := CharArray.string_write_nul (by decide)
    lnkEnd := rfl }

/-- The next directory or link can be made. -/
theorem nextMade (sees : Sees view writer) : writer.nextMade = (true, writer) := by
  obtain ⟨_, _, _, scripts, _⟩ := sees
  cases writer
  cases scripts
  rfl

/-- A directory is made with all of its path. -/
theorem createDirectory (sees : Sees view writer) (path : CString) :
    writer.createDirectory path = path := by
  unfold RestoreWriter.createDirectory
  rw [sees.scripts]
  rfl

/-! ## Names that do not fit -/

/-- A name with a header of its own is appended to the long name. -/
theorem longname_step (sees : Sees view writer) {tarHdr : TlmTarHdr} {text pad rest : List UInt8}
    (checksum : tlmVfyTarChecksum tarHdr.record = 1) (flag : tarHdr.thLinkflag = lfLongname)
    (size : tarHdr.thSize = octalField _ 11 text.length)
    (left : view.left = tarHdr.record ++ (text ++ (pad ++ rest)))
    (padded : text.length + pad.length = roundToRecords text.length)
    (nulFree : NulFree text) (fits : view.nmEnd + text.length < tlmMaxPathName) :
    Sees { view with
        left := rest
        longname := if view.nmEnd = 0 then some text else none
        nmEnd := view.nmEnd + text.length }
      (writer.tarGetdirStep args) := by
  have most : tlmMaxPathName = 1088 := rfl
  obtain ⟨reading, seen, step⟩ :=
    @header view writer args sees tarHdr lfLongname _ checksum flag (by decide) (by decide) left
  have nmEnd : reading.nmEnd = view.nmEnd := seen.nmEnd
  obtain ⟨blocks, read, bytes, whole⟩ := @RestoreWriter.getLongName_eq reading reading.longname
    reading.nmEnd text pad rest seen.running seen.whole seen.left padded (by omega)
  have isLongname : reading.restoreRecord args lfLongname text.length tarHdr.record =
      { reading with
        blocks := blocks
        faulted := reading.faulted || false
        longname :=
          (reading.longname.write reading.nmEnd text).write (reading.nmEnd + text.length) [0]
        nmEnd := reading.nmEnd + text.length
        sizeLeft := 0 } := by
    change (let size := RestoreWriter.longNameSize text.length reading.nmEnd
      let named := reading.getLongName size reading.longname reading.nmEnd
      ({ named.1 with longname := named.2.1, nmEnd := named.2.2, sizeLeft := 0 } :
        RestoreWriter)) = _
    dsimp only
    rw [read]
  rw [step, fileSize_of size (by omega), isLongname]
  have stored : ∀ name ∈ (if view.nmEnd = 0 then some text else none),
      ((reading.longname.write reading.nmEnd text).write
        (reading.nmEnd + text.length) [0]).string = name := by
    intro name listed
    by_cases first : view.nmEnd = 0
    · rw [if_pos first] at listed
      rw [nmEnd, first, Nat.zero_add, ← Option.some.inj listed]
      exact CharArray.string_write_terminated nulFree (by omega)
    · rw [if_neg first] at listed
      cases listed
  exact { seen with
    sound := (Bool.or_false _).trans seen.sound
    whole := whole
    left := bytes
    longname := stored
    nmEnd := congrArg (· + text.length) nmEnd }

/-- A link target with a header of its own becomes the long link target. -/
theorem longlink_step (sees : Sees view writer) {tarHdr : TlmTarHdr} {text pad rest : List UInt8}
    (checksum : tlmVfyTarChecksum tarHdr.record = 1) (flag : tarHdr.thLinkflag = lfLonglink)
    (size : tarHdr.thSize = octalField _ 11 text.length)
    (left : view.left = tarHdr.record ++ (text ++ (pad ++ rest)))
    (padded : text.length + pad.length = roundToRecords text.length)
    (nulFree : NulFree text) (first : view.lnkEnd = 0) (fits : text.length < tlmMaxPathName) :
    Sees { view with left := rest, longlink := text, lnkEnd := text.length }
      (writer.tarGetdirStep args) := by
  have most : tlmMaxPathName = 1088 := rfl
  obtain ⟨reading, seen, step⟩ :=
    @header view writer args sees tarHdr lfLonglink _ checksum flag (by decide) (by decide) left
  have lnkEnd : reading.lnkEnd = 0 := seen.lnkEnd.trans first
  obtain ⟨blocks, read, bytes, whole⟩ := @RestoreWriter.getLongName_eq reading reading.longlink 0
    text pad rest seen.running seen.whole seen.left padded (by omega)
  have isLonglink : reading.restoreRecord args lfLonglink text.length tarHdr.record =
      { reading with
        blocks := blocks
        faulted := reading.faulted || false
        longlink := (reading.longlink.write 0 text).write (0 + text.length) [0]
        lnkEnd := 0 + text.length
        sizeLeft := 0 } := by
    change (let size := RestoreWriter.longNameSize text.length reading.lnkEnd
      let linked := reading.getLongName size reading.longlink reading.lnkEnd
      ({ linked.1 with longlink := linked.2.1, lnkEnd := linked.2.2, sizeLeft := 0 } :
        RestoreWriter)) = _
    dsimp only
    rw [lnkEnd, read]
  rw [step, fileSize_of size (by omega), isLonglink, Nat.zero_add]
  exact { seen with
    sound := (Bool.or_false _).trans seen.sound
    whole := whole
    left := bytes
    longlink := CharArray.string_write_terminated nulFree (by omega)
    lnkEnd := rfl }

end Sees

namespace DecoderView

/-- The view behind a name that was put out apart from its header, if it was. -/
def takeName (view : DecoderView) (name : CString) : DecoderView :=
  if tlmNameSize ≤ name.length then
    { view with
      longname := if view.nmEnd = 0 then some name else none
      nmEnd := view.nmEnd + name.length }
  else view

/-- The view behind a link target that was put out apart from its header, if it was. -/
def takeLink (view : DecoderView) (link : CString) : DecoderView :=
  if tlmNameSize ≤ link.length then { view with longlink := link, lnkEnd := link.length }
  else view

/-- The room that a name needs in the buffer of the decoder. -/
def spill (name : CString) : Nat := if tlmNameSize ≤ name.length then name.length else 0

end DecoderView

namespace Decodes

variable {args : RestoreArgs} {view : DecoderView}

theorem name {name : CString} {puts : List Put} {segment rest : List UInt8}
    (names : NamePuts lfLongname name puts) (represents : Represents puts segment)
    (left : view.left = segment ++ rest) (nulFree : NulFree name)
    (fits : view.nmEnd + DecoderView.spill name < tlmMaxPathName) :
    Decodes args view ((view.leaving rest).takeName name) := by
  cases names with
  | short short =>
      cases represents
      have same : (view.leaving rest).takeName name = view := by
        unfold DecoderView.takeName DecoderView.leaving
        rw [if_neg (by omega)]
        cases view
        cases left
        rfl
      rw [same]
      exact .refl
  | @long tarHdr puts long checksum flag size filled =>
      obtain ⟨text, rfl, rest_⟩ := represents.header
      obtain ⟨pad, rfl, padded⟩ := filled.represents rest_
      rw [DecoderView.spill, if_pos long] at fits
      rw [List.append_assoc, List.append_assoc] at left
      have length : tarHdr.record.length = 512 := tarHdr.length_record
      unfold DecoderView.takeName DecoderView.leaving
      rw [if_pos long]
      apply Decodes.step
      · intro writer sees
        exact sees.longname_step checksum flag size left padded nulFree fits
      · rw [left, List.length_append]
        simp only [List.length_append]
        omega

theorem link {link : CString} {puts : List Put} {segment rest : List UInt8}
    (links : NamePuts lfLonglink link puts) (represents : Represents puts segment)
    (left : view.left = segment ++ rest) (nulFree : NulFree link) (first : view.lnkEnd = 0)
    (fits : link.length < tlmMaxPathName) :
    Decodes args view ((view.leaving rest).takeLink link) := by
  cases links with
  | short short =>
      cases represents
      have same : (view.leaving rest).takeLink link = view := by
        unfold DecoderView.takeLink DecoderView.leaving
        rw [if_neg (by omega)]
        cases view
        cases left
        rfl
      rw [same]
      exact .refl
  | @long tarHdr puts long checksum flag size filled =>
      obtain ⟨text, rfl, rest_⟩ := represents.header
      obtain ⟨pad, rfl, padded⟩ := filled.represents rest_
      rw [List.append_assoc, List.append_assoc] at left
      have length : tarHdr.record.length = 512 := tarHdr.length_record
      unfold DecoderView.takeLink DecoderView.leaving
      rw [if_pos long]
      apply Decodes.step
      · intro writer sees
        exact sees.longlink_step checksum flag size left padded nulFree first fits
      · rw [left, List.length_append]
        simp only [List.length_append]
        omega

/-- Before the header of an entry the decoder has taken the names that do not fit. -/
theorem names {linkflag : UInt8} {size ino : Nat} {name link : CString} {puts : List Put}
    {segment rest : List UInt8} (headers : HeaderPuts linkflag size ino name link puts)
    (represents : Represents puts segment) (left : view.left = segment ++ rest)
    (nameFree : NulFree name) (linkFree : NulFree link) (first : view.lnkEnd = 0)
    (nameFits : view.nmEnd + DecoderView.spill name < tlmMaxPathName)
    (linkFits : link.length < tlmMaxPathName) :
    ∃ tarHdr, EntryHeader tarHdr linkflag size ino name link ∧
      Decodes args view
        (((view.leaving (tarHdr.record ++ rest)).takeName name).takeLink link) := by
  obtain @⟨names, links, tarHdr, namePuts, linkPuts, header⟩ := headers
  obtain ⟨front, back, rfl, nameBytes, others⟩ := represents.split
  obtain ⟨middle, last, rfl, linkBytes, headerBytes⟩ := others.split
  obtain ⟨nothing, rfl, none⟩ := headerBytes.header
  cases none
  rw [List.append_nil, List.append_assoc, List.append_assoc] at left
  refine ⟨tarHdr, header, ?_⟩
  apply Decodes.trans (Decodes.name namePuts nameBytes left nameFree nameFits)
  have taken : ∀ left, ((view.leaving left).takeName name).leaving (tarHdr.record ++ rest) =
      (view.leaving (tarHdr.record ++ rest)).takeName name := by
    intro left
    unfold DecoderView.takeName
    split
    · rfl
    · rfl
  rw [← taken (middle ++ (tarHdr.record ++ rest))]
  apply Decodes.link linkPuts linkBytes _ linkFree _ linkFits
  · unfold DecoderView.takeName
    split
    · rfl
    · rfl
  · unfold DecoderView.takeName
    split
    · exact first
    · exact first

end Decodes

end Ndmpd
