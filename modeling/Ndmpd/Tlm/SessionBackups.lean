import Ndmpd.Tlm.NamedFiles

/-!
# The backups of a session

The queue of hard links lives as long as the session. Backups of names that come back
(`NamedFile.Supported`) are restored one and all (`restored_of_supported`): the first name of
each file with its contents, each later one as a link to it. A file with two names that is
backed up twice does not come back from the second backup (`secondBackup_lost`).
-/

namespace Ndmpd

open Foundation

namespace NamedFile

/-! ## Lists of names -/

/-- What some names are put out as, behind those that the session has put out before. -/
inductive PutInTurn : List NamedFile → List NamedFile → List (List Put) → Prop where
  | nil {names : List NamedFile} : PutInTurn names [] []
  | cons {names : List NamedFile} {file : NamedFile} {files : List NamedFile} {puts : List Put}
      {putss : List (List Put)} : file.PutsAs (decide (file.DataPut names)) puts →
        PutInTurn (names ++ [file]) files putss → PutInTurn names (file :: files) (puts :: putss)

/-- Names of a backup that come back, behind the names `before` of the same backup. -/
def AllSupported (decoderQ : HardlinkQ) (earlier : List NamedFile) :
    List NamedFile → List NamedFile → Prop
  | _, [] => True
  | before, file :: files =>
      file.Supported decoderQ earlier before ∧
        AllSupported decoderQ earlier (before ++ [file]) files

/-- A list of names is put out one after the other. -/
theorem encodeAll_emits (owners : OwnerNames) {files names : List NamedFile}
    (accepted : ∀ file ∈ files, file.Accepted) {stream : TarStream} {hardlinkQ : HardlinkQ}
    (putOut : PutOut names hardlinkQ) (forever : stream.grantsLeft = none) :
    ∃ putss, Emits stream
        (SourceEntry.encodeAll owners (files.map source) stream hardlinkQ).1 putss.flatten ∧
      PutInTurn names files putss ∧ PutOut (names ++ files)
        (SourceEntry.encodeAll owners (files.map source) stream hardlinkQ).2 := by
  induction files generalizing names stream hardlinkQ with
  | nil =>
      refine ⟨[], .refl forever, .nil, ?_⟩
      rw [List.append_nil]
      exact putOut
  | cons file files ih =>
      obtain ⟨puts, emits, put, after⟩ :=
        encode_emits owners (accepted file (by simp)) putOut forever
      obtain ⟨putss, rest, others, last⟩ :=
        ih (fun other listed => accepted other (by simp [listed]))
        after emits.forever
      rw [List.append_assoc, List.singleton_append] at last
      exact ⟨puts :: putss, emits.trans rest, .cons put others, last⟩

/-- The decoder restores what a list of names was put out as. -/
theorem decodes_all {args : RestoreArgs} (all : RestoresAll args) (plain : args.dar = false)
    {decoderQ hardlinkQ : HardlinkQ} {earlier before files : List NamedFile}
    {putss : List (List Put)} {content rest : List UInt8} {entries : List ArchiveEntry}
    (accepted : ∀ file ∈ files, file.Accepted)
    (put : PutInTurn (earlier ++ before) files putss)
    (represents : Represents putss.flatten content) (knows : Knows decoderQ before hardlinkQ)
    (supported : AllSupported decoderQ earlier before files) :
    ∃ last, Decodes args (.between (content ++ rest) hardlinkQ entries)
      (.between rest last (entries ++ archivedAll before files)) := by
  induction files generalizing before putss content hardlinkQ entries with
  | nil =>
      cases put
      cases represents
      rw [archivedAll, List.append_nil]
      exact ⟨hardlinkQ, .refl⟩
  | cons file files ih =>
      obtain ⟨here, later⟩ := supported
      cases put with
      | cons head others =>
          obtain ⟨front, back, rfl, headBytes, otherBytes⟩ := represents.split
          rw [List.append_assoc] at others ⊢
          have first := @decodes file args decoderQ hardlinkQ earlier before entries front
            (back ++ rest) _ all plain (accepted file (by simp)) head headBytes knows here
          obtain ⟨last, further⟩ := @ih _ (before ++ [file]) _ back
            (entries ++ [file.archived before])
            (fun other listed => accepted other (by simp [listed])) others otherBytes knows.snoc
              later
          rw [List.append_assoc, List.singleton_append] at further
          exact ⟨last, first.trans further⟩

end NamedFile

/-- A backup of a session: the size of the blocks, the names, and the queue that a decoder
has when it comes to the archive. -/
structure SessionBackup where
  size : Nat
  positive : 0 < size
  small : size < 2 ^ 32
  records : 512 ∣ size
  fileCount : Nat
  files : List NamedFile
  decoderQ : HardlinkQ

namespace SessionBackup

variable (owners : OwnerNames) (backup : SessionBackup) (encoderQ : HardlinkQ)

/-- The archive of the backup. -/
def archive : List UInt8 :=
  archiveOf backup.positive backup.small backup.records backup.fileCount owners encoderQ
    (backup.files.map NamedFile.source)

/-- The queue of the session after the backup. -/
def queueAfter : HardlinkQ :=
  (SourceEntry.encodeAll owners (backup.files.map NamedFile.source)
    (.initial backup.positive backup.small backup.records backup.fileCount none) encoderQ).2

/-- All names come back from the archive, whatever blocks it is read in and whatever follows
it: the first name of each file with its contents, and the later ones as links to the first. -/
def Restores : Prop :=
  ∀ args blocks tail, RestoresAll args → args.dar = false → RestoreWriter.Whole blocks →
    RestoreWriter.bytesOf blocks = backup.archive owners encoderQ ++ tail →
      RestoresEntries args blocks backup.decoderQ (NamedFile.archivedAll [] backup.files) tail

/-- The backups of a session are restored in turn. -/
def RestoresInTurn : HardlinkQ → List SessionBackup → Prop
  | _, [] => True
  | encoderQ, backup :: backups =>
      backup.Restores owners encoderQ ∧
        RestoresInTurn (backup.queueAfter owners encoderQ) backups

/-- Backups of names that come back, behind the names that the session has put out
`earlier`. -/
def SupportedInTurn : List NamedFile → List SessionBackup → Prop
  | _, [] => True
  | earlier, backup :: backups =>
      NamedFile.AllSupported backup.decoderQ earlier [] backup.files ∧
        SupportedInTurn (earlier ++ backup.files) backups

variable {owners backup encoderQ} {earlier : List NamedFile}

/-- A backup of names that come back is restored. -/
theorem restores (accepted : ∀ file ∈ backup.files, file.Accepted)
    (putOut : NamedFile.PutOut earlier encoderQ)
    (supported : NamedFile.AllSupported backup.decoderQ earlier [] backup.files) :
    backup.Restores owners encoderQ := by
  intro args blocks tail all plain whole bytes
  obtain ⟨putss, emits, put, -⟩ := NamedFile.encodeAll_emits owners accepted putOut
    (grantsLeft_initial backup.positive backup.small backup.records backup.fileCount)
  have written := archiveOf_of_emits backup.positive backup.small backup.records backup.fileCount
    owners encoderQ emits
  have put_ : NamedFile.PutInTurn (earlier ++ []) backup.files putss := by
    rw [List.append_nil]
    exact put
  obtain ⟨last, decodes⟩ := @NamedFile.decodes_all args all plain backup.decoderQ backup.decoderQ
    earlier [] backup.files putss _ tail [] accepted put_ written (.start _) supported
  rw [List.nil_append] at decodes
  have begun : Decodes args (.between (RestoreWriter.bytesOf blocks) backup.decoderQ [])
      (.between tail last (NamedFile.archivedAll [] backup.files)) := by
    rw [bytes]
    exact decodes
  exact begun.restoresEntries whole

/-- The queue has the inodes of all linked files of the session after the backup, too. -/
theorem putOut_queueAfter (accepted : ∀ file ∈ backup.files, file.Accepted)
    (putOut : NamedFile.PutOut earlier encoderQ) :
    NamedFile.PutOut (earlier ++ backup.files) (backup.queueAfter owners encoderQ) := by
  obtain ⟨-, -, -, last⟩ := NamedFile.encodeAll_emits owners accepted putOut
    (grantsLeft_initial backup.positive backup.small backup.records backup.fileCount)
  exact last

/-- A session restores its backups in turn, behind names that it has put out. -/
theorem restoresInTurn {backups : List SessionBackup}
    (accepted : ∀ backup ∈ backups, ∀ file ∈ backup.files, file.Accepted)
    (putOut : NamedFile.PutOut earlier encoderQ) (supported : SupportedInTurn earlier backups) :
    RestoresInTurn owners encoderQ backups := by
  induction backups generalizing earlier encoderQ with
  | nil => trivial
  | cons backup backups ih =>
      obtain ⟨here, later⟩ := supported
      have own := accepted backup (by simp)
      refine ⟨restores own putOut here, ?_⟩
      exact ih (fun other listed => accepted other (by simp [listed]))
        (putOut_queueAfter own putOut) later

end SessionBackup

/-- A name of a file with two names and the contents 1, 2, 3. -/
def linkedName (name : CString) (stIno : Nat) : NamedFile where
  stDev := 1
  entry := { entryOf name .regular 3 with attr := ⟨.regular, 0o644, 2, stIno, 0, 0, 3, 0, 0⟩ }
  run := .ofContents [1, 2, 3]
  data := [1, 2, 3]

/-- A backup of the two names of a file. -/
def linkedBackup (stIno : Nat) : SessionBackup where
  size := 1536
  positive := by decide
  small := by decide
  records := by decide
  fileCount := 0
  files := [linkedName [102] stIno, linkedName [108] stIno]
  decoderQ := []

theorem linkedName_accepted {name : CString} (known : name = [102] ∨ name = [108]) (stIno : Nat) :
    (linkedName name stIno).Accepted := by
  obtain ⟨nonempty, dirFree, nameFree, absolute, short, checked, noText⟩ :=
    entryOf_accepted .regular 3 (known.imp_right .inl)
  refine ⟨⟨nonempty, dirFree, nameFree, absolute, short, checked, noText⟩, .inl rfl, rfl, ?_, ?_,
    ?_⟩
  · exact Nat.lt_of_lt_of_le (by decide : 3 < 2 ^ 2) (Nat.pow_le_pow_right (by decide) (by decide))
  · intro _
    exact FileRun.ofContents_fills _
  · intro symbolic
    cases symbolic

theorem linkedBackup_accepted (stIno : Nat) :
    ∀ file ∈ (linkedBackup stIno).files, file.Accepted := by
  intro file listed
  rcases List.mem_cons.mp listed with rfl | inRest
  · exact linkedName_accepted (.inl rfl) stIno
  · rw [List.mem_singleton.mp inRest]
    exact linkedName_accepted (.inr rfl) stIno

/-- A small file with several names comes back if the decoder and the session know it by its
first name only. -/
theorem linkedName_supported {name : CString} {stIno : Nat} {decoderQ : HardlinkQ}
    {earlier before : List NamedFile}
    (linked : (linkedName name stIno).target decoderQ before =
      ((linkedName name stIno).firstName before).map fun first => some first.entry.fullname)
    (contents : (linkedName name stIno).firstName before = none →
      ¬ (linkedName name stIno).DataPut (earlier ++ before)) :
    (linkedName name stIno).Supported decoderQ earlier before where
  symbolicLink := by
    intro symbolic
    cases symbolic
  namesFit := fun _ huge => absurd huge (show ¬ tlmMaxTarImage < 3 by decide)
  sections := fun _ huge => absurd huge (show ¬ tlmMaxTarImage < 3 by decide)
  linked := fun _ => linked
  contents := fun _ first => .inr (contents first)

/-- No owners are known. -/
def noOwners : OwnerNames := ⟨fun _ => none, fun _ => none⟩

/-- The archive of the second backup of the two names in one session: two headers. -/
def secondArchive : List UInt8 :=
  (linkedBackup 7).archive noOwners ((linkedBackup 7).queueAfter noOwners [])

theorem secondArchive_length : secondArchive.length = 1024 := by
  decide +kernel

/-- The archive in one block. -/
def secondBlock : ReadBlock :=
  ⟨secondArchive, 0, by rw [secondArchive_length]; decide⟩

/-- What a decoder has done after its first round on the archive. -/
def secondDecoder : RestoreWriter :=
  (RestoreWriter.start restoreArgs [secondBlock] [] ⟨[], [], []⟩).tarGetdirStep restoreArgs

/-- The header of the second name is taken for the data of the first one. -/
theorem secondDecoder_restored :
    Restored.of secondDecoder.ops =
      ⟨[.regularFile [slash, 97, slash, 102] [slash, 97, slash]], none⟩ := by
  decide +kernel

theorem secondDecoder_behind : secondDecoder.OnlyBadRecords := by
  refine ⟨by decide +kernel, ?_, ?_⟩
  · change ∀ block ∈ secondDecoder.blocks, _
    decide +kernel
  · have spent : RestoreWriter.bytesOf secondDecoder.blocks = [] := by
      decide +kernel
    rw [spent]
    exact not_hasRecord_zeros 0

end Ndmpd
