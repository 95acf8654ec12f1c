import Ndmpd.Foundation.Lexical
import Ndmpd.Restore.RestorePaths
import Ndmpd.Tlm.RestoreOnward

/-!
# Making restore names

`fix_nlist_v3` gives every entry of the name list its destination, and `mknewname` puts
the rest of a name behind the destination of the selection that it matched. Nothing
looks at `..` in a name: one that goes up no further than it has gone down stays below
its destination (`mkrsp_below`), and with it everything that a restore puts
anywhere (`tarGetdir_lands`), while another one leaves it (`tarGetdir_leaves`).
-/

namespace Ndmpd

open Foundation

/-! ## The name list -/

/-- The paths of a `mem_ndmp_name_v3_t`. -/
structure MemNdmpName where
  opath : CString
  dpath : Option CString
  newnm : Option CString
  deriving DecidableEq, Repr

/-- `ISDEFINED`. -/
def isDefined (path : Option CString) : Bool := path.getD [] ≠ []

/-- `chopslash`. -/
def chopslash (path : CString) : CString := (path.reverse.dropWhile (· = slash)).reverse

/-- `joinpath`, with what its buffer held before. A path that is too long leaves that. -/
def joinpath (buf : CString) (pp np : Option CString) : Option CString :=
  if isDefined pp then
    if isDefined np then some ((tlmCatPath (pp.getD []) (np.getD [])).getD buf)
    else some ((pp.getD []).take (tlmMaxPathName - 1))
  else if isDefined np then some ((np.getD []).take (tlmMaxPathName - 1))
  else none

/-- The last component of a path, with the slash in front of it. -/
def lastComponent (path : CString) : CString :=
  if slash ∈ path then slash :: (path.reverse.takeWhile (· ≠ slash)).reverse else path

/-- One round of `fix_nlist_v3`, with its buffer. -/
def fixName (v4 : Bool) (backupPath buf : CString) (ep : MemNdmpName) : CString × MemNdmpName :=
  let ep : MemNdmpName :=
    { opath := chopslash ep.opath, dpath := ep.dpath.map chopslash,
      newnm := ep.newnm.map chopslash }
  let dp := if isDefined ep.dpath then ep.dpath else some backupPath
  let nm :=
    if v4 then ep.newnm
    else if isDefined ep.newnm then ep.newnm
    else some (lastComponent ep.opath)
  match joinpath buf dp nm with
  | none => (buf, ep)
  | some bp =>
      let ep := { ep with dpath := some bp, newnm := none }
      match joinpath bp (some backupPath) (some ep.opath) with
      | none => (bp, ep)
      | some bp => (bp, { ep with opath := bp })

/-- `fix_nlist_v3`. Volumes exist and can be written to whatever they are. -/
def fixNlistV3 (v4 : Bool) (backupPath : CString) : CString → List MemNdmpName → List MemNdmpName
  | _, [] => []
  | buf, ep :: nlist =>
      let (buf, ep) := fixName v4 backupPath buf ep
      ep :: fixNlistV3 v4 backupPath buf nlist

/-- What `setupsels` does to a name: a dot behind its last slash goes. -/
def setupName (ep : MemNdmpName) : MemNdmpName :=
  if [slash, 46] <:+ ep.opath then { ep with opath := ep.opath.dropLast } else ep

/-- `setupsels`: the names as they are then, and the selections. -/
def setupsels (nlist : List MemNdmpName) : List MemNdmpName × List CString :=
  (nlist.map setupName, nlist.map fun ep => (setupName ep).opath)

/-- `mknewname`, where `ndmp_full_restore_path` is off. `front` is the byte in front of
each path in memory. -/
def mknewname (front : CString → UInt8) (nlist : List MemNdmpName) (idx : Nat) (path : CString) :
    Option CString :=
  nlist[idx]?.bind fun ep => mkrsp (front path) path (some ep.opath) ep.dpath

/-! ## Where a path leads -/

/-- The place that a path names from a working directory, its last name first. -/
def resolve (cwd : List CString) (path : CString) : List CString :=
  walk [46] [46, 46] (if path.head? = some slash then [] else cwd) (pieces slash path)

theorem resolve_absolute (cwd : List CString) {path : CString}
    (absolute : path.head? = some slash) :
    resolve cwd path = resolve [] path := by
  unfold resolve
  rw [if_pos absolute, if_pos absolute]

/-- The destination path: the root where there is none. `chopslash` leaves nothing of
it. -/
def destination (dpath : Option CString) : CString :=
  if dpath.getD [] = [] then [slash] else dpath.getD []

theorem tlmCatPath_pieces {dir name path : CString} (joined : tlmCatPath dir name = some path) :
    pieces slash path = pieces slash dir ++ pieces slash name := by
  unfold tlmCatPath at joined
  split at joined
  · cases joined
  split at joined
  · next boundary =>
      split at joined
      · next both =>
          cases joined
          rw [pieces_append (.inr (.inl both.1)), pieces_dropWhile]
          intro byte isSlash
          exact of_decide_eq_true isSlash
      · cases joined
        apply pieces_append
        rcases boundary with empty | empty | last | head
        · exact .inl empty
        · exact .inr (.inr (.inl empty))
        · exact .inr (.inl last)
        · exact .inr (.inr (.inr head))
  · cases joined
    exact pieces_append_cons slash dir name

theorem tlmCatPath_head {dir name path : CString} (joined : tlmCatPath dir name = some path)
    (nonempty : dir ≠ []) : path.head? = dir.head? := by
  obtain ⟨byte, dir, rfl⟩ := List.exists_cons_of_ne_nil nonempty
  unfold tlmCatPath at joined
  split at joined
  · cases joined
  split at joined
  · split at joined
    · cases joined
      rfl
    · cases joined
      rfl
  · cases joined
    rfl

/-- A path behind a directory leads from there where its own names lead. -/
theorem resolve_tlmCatPath (cwd : List CString) {dir name path : CString}
    (joined : tlmCatPath dir name = some path) (nonempty : dir ≠ []) :
    resolve cwd path = walk [46] [46, 46] (resolve cwd dir) (pieces slash name) := by
  unfold resolve
  rw [tlmCatPath_head joined nonempty, tlmCatPath_pieces joined, walk_append]

/-- A rest that goes up no further than it has gone down leads below the destination. -/
theorem mkrsp_below (cwd : List CString) {front : UInt8} {path made rest : CString}
    {selection np : Option CString} (kept : mkrspRest front path selection = some rest)
    (named : mkrsp front path selection np = some made)
    (down : descends [46] [46, 46] 0 (pieces slash rest) = true) :
    resolve cwd (destination np) <:+ resolve cwd made := by
  unfold mkrsp at named
  rw [kept, Option.bind_some] at named
  unfold destination
  by_cases empty : np.getD [] = []
  · rw [if_pos empty]
    exact List.nil_suffix
  · cases np with
    | none => exact absurd rfl empty
    | some np =>
        rw [if_neg empty, resolve_tlmCatPath cwd named empty]
        exact suffix_walk down

/-! ## Restores -/

/-- The paths that an operation puts something at. -/
def RestoreOp.made : RestoreOp → List CString
  | .makeDirectory path _ => [path]
  | .symbolicLink path _ _ => [path]
  | .hardLink _ path _ => [path]
  | .makeFifo path _ => [path]
  | .openFile path _ => [path]
  | _ => []

/-- The path that an operation links to. -/
def RestoreOp.linked : RestoreOp → Option CString
  | .hardLink old _ _ => some old
  | _ => none

/-- The arguments of `tar_getdir` for a name list, other than those the list gives. -/
def partialArgs (front : CString → UInt8) (nlist : List MemNdmpName) (others : RestoreArgs) :
    RestoreArgs :=
  { others with newName := mknewname front (setupsels nlist).1, sels := (setupsels nlist).2 }

/-- The path is made of the destination of a selection and the rest of the name of a record
that matched it, and it is below this destination if the rest goes up no further than it has
gone down. -/
def Lands (front : CString → UInt8) (nlist : List MemNdmpName) (others : RestoreArgs)
    (calls : List RestoreWriter.RecordCall) (cwd : List CString) (path : CString) : Prop :=
  ∃ pos name ep rest, (partialArgs front nlist others).Matches calls pos name ∧
    (setupsels nlist).1[pos]? = some ep ∧
    mkrspRest (front name) name (some ep.opath) = some rest ∧
    tlmCatPath (ep.dpath.getD [slash]) rest = some path ∧
    (descends [46] [46, 46] 0 (pieces slash rest) = true →
      resolve cwd (destination ep.dpath) <:+ resolve cwd path)

theorem lands_of_makes {front : CString → UInt8} {nlist : List MemNdmpName} {others : RestoreArgs}
    {calls : List RestoreWriter.RecordCall} (cwd : List CString) {path : CString}
    (makes : (partialArgs front nlist others).Makes calls path) :
    Lands front nlist others calls cwd path := by
  obtain ⟨pos, name, matched, named⟩ := makes
  obtain ⟨ep, isEntry, made⟩ := Option.bind_eq_some_iff.mp named
  obtain ⟨rest, kept, joined⟩ := Option.bind_eq_some_iff.mp made
  exact ⟨pos, name, ep, rest, matched, isEntry, kept, joined, mkrsp_below cwd kept made⟩

/-- Every path that a restore puts something at lands behind the destination of the
selection that the name of its record matched. What a restore links to does so too, or an
earlier restore has put it there. -/
theorem tarGetdir_lands (v4 : Bool) (backupPath buf : CString) (names : List MemNdmpName)
    (front : CString → UInt8) (others : RestoreArgs) (cwd : List CString)
    (blocks : List ReadBlock) (hardlinkQ : HardlinkQ) (io : RestoreIo) (rounds : Nat) :
    let nlist := fixNlistV3 v4 backupPath buf names
    let args := partialArgs front nlist others
    let calls := RestoreWriter.runRecords args rounds (.start args blocks hardlinkQ io)
    ∀ op ∈ (RestoreWriter.tarGetdir args blocks hardlinkQ io rounds).ops,
      (∀ path ∈ op.made, Lands front nlist others calls cwd path) ∧
      ∀ old, op.linked = some old →
        Lands front nlist others calls cwd old ∨ ∃ node ∈ hardlinkQ, node.path = some old := by
  intro nlist args calls op listed
  have names := RestoreWriter.tarGetdir_names args blocks hardlinkQ io rounds op listed
  have lands {path : CString} (makes : args.Makes calls path) :
      ∀ other ∈ [path], Lands front nlist others calls cwd other := by
    intro other listed
    rw [List.mem_singleton.mp listed]
    exact lands_of_makes cwd makes
  have nowhere : ∀ path ∈ ([] : List CString), Lands front nlist others calls cwd path := by
    intro path made
    cases made
  have unlinked : ∀ old, none = some old →
      Lands front nlist others calls cwd old ∨ ∃ node ∈ hardlinkQ, node.path = some old := by
    intro old links
    cases links
  cases op with
  | makeDirectory path done => exact ⟨lands names, unlinked⟩
  | symbolicLink path target done => exact ⟨lands names, unlinked⟩
  | hardLink old path done =>
      refine ⟨lands names.2, ?_⟩
      intro other links
      cases links
      rcases names.1 with makes | queued
      · exact .inl (lands_of_makes cwd makes)
      · exact .inr queued
  | makeFifo path done => exact ⟨lands names, unlinked⟩
  | openFile path done => exact ⟨lands names, unlinked⟩
  | write bytes => exact ⟨nowhere, unlinked⟩
  | closeFile => exact ⟨nowhere, unlinked⟩
  | setAcl path acls => exact ⟨nowhere, unlinked⟩
  | entryRestored name pos => exact ⟨nowhere, unlinked⟩

/-- A stream of one FIFO. -/
def fifoBlock (name : CString) : ReadBlock where
  bytes := (tlmBuildHeaderChecksum { TlmTarHdr.zero with
    thName := .ofString _ name, thLinkflag := lfFifo }).record
  tbErrno := 0
  small := by
    rw [TlmTarHdr.length_record]
    decide

/-- A request to restore `/a` of the backup of `/v` to `/r`. -/
def oneName : List MemNdmpName := [⟨[slash, 97], some [slash, 114], none⟩]

theorem tarGetdir_lands_fifo :
    let nlist := fixNlistV3 true [slash, 118] [] oneName
    ∃ path, RestoreOp.makeFifo path true ∈
        (RestoreWriter.tarGetdir (partialArgs (fun _ => 0) nlist restoreArgs)
          [fifoBlock [slash, 118, slash, 97, slash, 120]] [] ⟨[], [], []⟩ 1).ops ∧
      Lands (fun _ => 0) nlist restoreArgs
        (RestoreWriter.runRecords (partialArgs (fun _ => 0) nlist restoreArgs) 1
          (.start (partialArgs (fun _ => 0) nlist restoreArgs)
            [fifoBlock [slash, 118, slash, 97, slash, 120]] [] ⟨[], [], []⟩)) [] path := by
  intro nlist
  have listed : RestoreOp.makeFifo [slash, 114, slash, 120] true ∈
      (RestoreWriter.tarGetdir (partialArgs (fun _ => 0) nlist restoreArgs)
        [fifoBlock [slash, 118, slash, 97, slash, 120]] [] ⟨[], [], []⟩ 1).ops := by
    decide +kernel
  exact ⟨_, listed, (tarGetdir_lands true _ _ oneName _ restoreArgs [] _ [] ⟨[], [], []⟩ 1 _
    listed).1 _ (List.mem_singleton_self _)⟩

/-- An entry `/v/a/../../x` that matches the selection `/v/a` is put next to the
destination `/r`. -/
theorem tarGetdir_leaves :
    let nlist := fixNlistV3 true [slash, 118] [] oneName
    ∃ blocks path, RestoreOp.makeFifo path true ∈
        (RestoreWriter.tarGetdir (partialArgs (fun _ => 0) nlist restoreArgs) blocks []
          ⟨[], [], []⟩ 1).ops ∧
      ∀ ep ∈ (setupsels nlist).1, ∀ cwd,
        ¬ resolve cwd (destination ep.dpath) <:+ resolve cwd path := by
  intro nlist
  refine ⟨[fifoBlock [slash, 118, slash, 97, slash, 46, 46, slash, 46, 46, slash, 120]],
    [slash, 114, slash, 46, 46, slash, 46, 46, slash, 120], by decide +kernel, ?_⟩
  intro ep listed cwd below
  have entries : (setupsels nlist).1 = [⟨[slash, 118, slash, 97], some [slash, 114], none⟩] := by
    decide
  rw [entries, List.mem_singleton] at listed
  subst listed
  rw [resolve_absolute cwd rfl, resolve_absolute cwd rfl] at below
  exact absurd below (by decide)

end Ndmpd
