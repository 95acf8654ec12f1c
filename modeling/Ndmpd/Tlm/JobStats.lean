import Ndmpd.Foundation.CircularList
import Ndmpd.Foundation.Transition
import Mathlib.Algebra.Order.Group.Nat
import Mathlib.Algebra.Order.Ring.Int

/-!
# The registry of job statistics

The statistics of the running jobs hang on a circular doubly linked chain. They are looked
up by the name of the job, and a link is taken out and freed when the last of those that
referred to it lets go. `jstat_mtx` is taken for each call.

`tlm_un_ref_job_stats` returns with the mutex taken when the chain is empty. Up to such a
call, and as long as no count passes the largest `int`, the chain is well formed, holds
what has a positive count, and the mutex is free (`reachable_wellKept`).
-/

namespace Ndmpd

open Foundation

/-- `TLM_MAX_BACKUP_JOB_NAME`. -/
abbrev tlmMaxBackupJobName : Nat := 32

/-- A `tlm_chain_link_t` with the name in the `tlm_job_stats_t` that it holds. Both are
allocated and freed together. -/
structure ChainLink where
  tcNext : Nat
  tcPrev : Nat
  tcRefCount : Int
  jsJobName : List UInt8
  deriving DecidableEq, Repr

/-- The memory of the links, `tlm_info`, the mutex, how many links have been made, and the
links that have been freed, as they were. -/
structure Registry where
  memory : Nat → ChainLink
  allocated : Nat → Bool
  tiJobStats : Option Nat
  locked : Bool
  created : Nat
  freed : List ChainLink

namespace Registry

open Foundation.System

variable (registry : Registry)

/-- The chain as the links name each other. -/
def links : Links Nat :=
  ⟨fun link => (registry.memory link).tcNext, fun link => (registry.memory link).tcPrev⟩

/-- The reference counts. -/
def counts (node : Nat) : Int := (registry.memory node).tcRefCount

/-- Change one link. -/
def modify (link : Nat) (change : ChainLink → ChainLink) : Registry :=
  { registry with
    memory := Function.update registry.memory link (change (registry.memory link)) }

def setNext (link next : Nat) : Registry :=
  registry.modify link fun chainLink => { chainLink with tcNext := next }

def setPrev (link prev : Nat) : Registry :=
  registry.modify link fun chainLink => { chainLink with tcPrev := prev }

/-- A reference count, an `int`. -/
def setRefCount (link : Nat) (count : Int) : Registry :=
  registry.modify link fun chainLink => { chainLink with tcRefCount := count.bmod (2 ^ 32) }

/-- `free` for a link and its statistics. -/
def free (link : Nat) : Registry :=
  { registry with
    allocated := Function.update registry.allocated link false
    freed := registry.freed ++ [registry.memory link] }

/-- The loop that looks for a name. A chain that is well formed has been gone through after
as many rounds as links have been made. -/
def findName (name : List UInt8) : Option (Option Nat) :=
  match registry.tiJobStats with
  | none => some none
  | some top =>
      registry.links.search (fun link => (registry.memory link).jsJobName = name) top
        registry.created top

/-- The link and the statistics that `tlm_new_job_stats` makes. -/
def makeLink (name : List UInt8) (newLink : Nat) : Registry :=
  let link : ChainLink := ⟨0, 0, 1, name.take (tlmMaxBackupJobName - 1)⟩
  { registry with
    memory := Function.update registry.memory newLink link
    allocated := Function.update registry.allocated newLink true
    created := registry.created + 1 }

/-- The part of `tlm_new_job_stats` under the mutex. -/
def putOnTop (newLink : Nat) : Registry :=
  let registry :=
    match registry.tiJobStats with
    | none => (registry.setNext newLink newLink).setPrev newLink newLink
    | some nextLink =>
        let prevLink := (registry.memory nextLink).tcPrev
        (((registry.setNext newLink nextLink).setPrev newLink prevLink).setNext
          prevLink newLink).setPrev nextLink newLink
  { registry with tiJobStats := some newLink }

/-- `tlm_new_job_stats`, with what `malloc` returns for the link. It fails too when there
is no memory for the statistics. -/
def tlmNewJobStats (name : List UInt8) (newLink : Option Nat) (jobStats : Bool) :
    Registry × Option Nat :=
  match newLink with
  | none => (registry, none)
  | some newLink =>
      if ¬ jobStats then (registry, none)
      else ((registry.makeLink name newLink).putOnTop newLink, some newLink)

/-- `tlm_ref_job_stats`. The result is `none` for the static `fake_job_stats`. -/
def tlmRefJobStats (name : List UInt8) : Option (Registry × Option Nat) :=
  match registry.findName name with
  | none => none
  | some none => some (registry, none)
  | some (some link) =>
      some (registry.setRefCount link (registry.counts link + 1), some link)

/-- `tlm_un_ref`, with the new top of the chain. -/
def tlmUnRef (oldTop link : Nat) : Option (Registry × Option Nat) :=
  let registry := registry.setRefCount link (registry.counts link - 1)
  if 0 < registry.counts link then some (registry, some oldTop)
  else
    match registry.links.search (fun chainLink => chainLink = link) oldTop registry.created
      oldTop with
    | none => none
    | some none => some (registry, some oldTop)
    | some (some link) =>
        let next := (registry.memory link).tcNext
        let prev := (registry.memory link).tcPrev
        -- there is only this one link in the chain
        let newTop := if next = prev ∧ next = link then none else some next
        some (((registry.setNext prev next).setPrev next prev).free link, newTop)

/-- `tlm_un_ref_job_stats`. -/
def tlmUnRefJobStats (name : List UInt8) : Option Registry :=
  match registry.tiJobStats with
  | none =>
      -- `jstat_mtx` is not released
      some { registry with locked := true }
  | some top =>
      match registry.findName name with
      | none => none
      | some none => some registry
      | some (some link) =>
          (registry.tlmUnRef top link).map fun (registry, newTop) =>
            { registry with tiJobStats := newTop }

/-- The calls, with what `malloc` returns. -/
inductive Call where
  | newJobStats (name : List UInt8) (newLink : Option Nat) (jobStats : Bool)
  | refJobStats (name : List UInt8)
  | unRefJobStats (name : List UInt8)
  deriving DecidableEq, Repr

/-- `malloc` returns memory that is not in use. -/
def Mallocs : Call → Prop
  | .newJobStats _ newLink _ => ∀ link ∈ newLink, registry.allocated link = false
  | _ => True

instance (call : Call) : Decidable (registry.Mallocs call) := by
  cases call with
  | newJobStats name newLink jobStats => exact inferInstanceAs (Decidable (∀ link ∈ newLink, _))
  | refJobStats name => exact instDecidableTrue
  | unRefJobStats name => exact instDecidableTrue

/-- One call. With the mutex taken it does not return. -/
def step (call : Call) : Option Registry :=
  if registry.locked then none
  else if ¬ registry.Mallocs call then none
  else
    match call with
    | .newJobStats name newLink jobStats =>
        some (registry.tlmNewJobStats name newLink jobStats).1
    | .refJobStats name => (registry.tlmRefJobStats name).map Prod.fst
    | .unRefJobStats name => registry.tlmUnRefJobStats name

/-- No job has been started. -/
def empty (memory : Nat → ChainLink) : Registry := ⟨memory, fun _ => false, none, false, 0, []⟩

/-- The registry under any calls. -/
def system : System Registry Call where
  init registry := ∃ memory, registry = empty memory
  step := step

/-! ## The chain -/

/-- The chain is a ring of these links. They are what is allocated, and have positive
counts. -/
structure Chained (nodes : List Nat) : Prop where
  ring : registry.links.Ring nodes
  top : registry.tiJobStats = nodes.head?
  allocated : ∀ link, registry.allocated link = true ↔ link ∈ nodes
  counted : ∀ link ∈ nodes, 0 < registry.counts link

/-- The chain is well formed, what has been freed was at a count of 0, and the mutex is
free. -/
structure WellKept : Prop where
  unlocked : registry.locked = false
  chained : ∃ nodes, registry.Chained nodes
  freed : ∀ link ∈ registry.freed, link.tcRefCount = 0

/-- The largest `int`. -/
abbrev intMax : Int := 2 ^ 31 - 1

/-- A call that the registry can take: no reference is dropped where there is none to drop,
and none is taken that cannot be counted. -/
def Takes : Call → Prop
  | .newJobStats .. => True
  | .refJobStats name => ∀ link, registry.findName name = some (some link) →
      registry.counts link < intMax
  | .unRefJobStats _ => registry.tiJobStats ≠ none

/-- What holds of the registry besides, while it is well kept: the counts are `int`s, and a
search comes back to the top in the rounds it is given. -/
structure Sound (nodes : List Nat) : Prop extends registry.Chained nodes where
  unlocked : registry.locked = false
  freed : ∀ link ∈ registry.freed, link.tcRefCount = 0
  bounded : ∀ link ∈ nodes, registry.counts link ≤ intMax
  created : nodes.length ≤ registry.created

variable {registry} {nodes : List Nat}

theorem Sound.wellKept (sound : registry.Sound nodes) : registry.WellKept :=
  ⟨sound.unlocked, ⟨nodes, sound.toChained⟩, sound.freed⟩

/-- One field of the links, when one of them is changed. -/
theorem modify_field {β : Type} (registry : Registry) (field : ChainLink → β) (link : Nat)
    (change : ChainLink → ChainLink) :
    (fun node => field ((registry.modify link change).memory node)) =
      Function.update (fun node => field (registry.memory node)) link
        (field (change (registry.memory link))) :=
  funext fun node => Function.apply_update (fun _ => field) registry.memory link _ node

theorem links_setNext (registry : Registry) (link next : Nat) :
    (registry.setNext link next).links =
      ⟨Function.update registry.links.next link next, registry.links.prev⟩ := by
  unfold links setNext
  rw [modify_field, modify_field registry ChainLink.tcPrev, Function.update_eq_self]

theorem links_setPrev (registry : Registry) (link prev : Nat) :
    (registry.setPrev link prev).links =
      ⟨registry.links.next, Function.update registry.links.prev link prev⟩ := by
  unfold links setPrev
  rw [modify_field, modify_field registry ChainLink.tcPrev, Function.update_eq_self]

theorem links_setRefCount (registry : Registry) (link : Nat) (count : Int) :
    (registry.setRefCount link count).links = registry.links := by
  unfold links setRefCount
  rw [modify_field, modify_field registry ChainLink.tcPrev, Function.update_eq_self,
    Function.update_eq_self]

theorem links_join (registry : Registry) (first second : Nat) :
    ((registry.setNext first second).setPrev second first).links =
      registry.links.join first second := by
  rw [links_setPrev, links_setNext]
  rfl

@[simp] theorem counts_setNext (registry : Registry) (link next : Nat) :
    (registry.setNext link next).counts = registry.counts := by
  unfold counts setNext
  rw [modify_field, Function.update_eq_self]

@[simp] theorem counts_setPrev (registry : Registry) (link prev : Nat) :
    (registry.setPrev link prev).counts = registry.counts := by
  unfold counts setPrev
  rw [modify_field, Function.update_eq_self]

theorem counts_stored (registry : Registry) (link : Nat) (count : Int) :
    (registry.setRefCount link count).counts =
      Function.update registry.counts link (count.bmod (2 ^ 32)) := by
  unfold counts setRefCount
  rw [modify_field]

/-- A count that is an `int` is what is stored. -/
theorem counts_setRefCount (registry : Registry) (link : Nat) {count : Int} (low : 0 ≤ count)
    (high : count ≤ intMax) : (registry.setRefCount link count).counts =
      Function.update registry.counts link count := by
  have limit : intMax = 2 ^ 31 - 1 := rfl
  rw [counts_stored, Int.bmod_eq_of_le (by omega) (by omega)]

/-! ## The calls -/

/-- A new count for a link leaves the chain as it is. -/
theorem Sound.setRefCount (sound : registry.Sound nodes) {link : Nat} {count : Int}
    (positive : 0 < count) (high : count ≤ intMax) :
    (registry.setRefCount link count).Sound nodes where
  ring := by
    rw [links_setRefCount]
    exact sound.ring
  top := sound.top
  allocated := sound.allocated
  counted := by
    intro node listed
    rw [counts_setRefCount registry link positive.le high]
    by_cases same : node = link
    · subst same
      rwa [Function.update_self]
    · rw [Function.update_of_ne same]
      exact sound.counted node listed
  unlocked := sound.unlocked
  freed := sound.freed
  bounded := by
    intro node listed
    rw [counts_setRefCount registry link positive.le high]
    by_cases same : node = link
    · subst same
      rwa [Function.update_self]
    · rw [Function.update_of_ne same]
      exact sound.bounded node listed
  created := sound.created

/-- The search for a name comes to an end. -/
theorem Sound.findName (sound : registry.Sound nodes) (name : List UInt8) :
    registry.findName name =
      some (nodes.find? fun link => (registry.memory link).jsJobName = name) := by
  have top := sound.top
  unfold Registry.findName
  cases nodes with
  | nil =>
      rw [top]
      rfl
  | cons first rest =>
      rw [top]
      exact sound.ring.search_eq _ sound.created

theorem putOnTop_links (top : registry.tiJobStats = nodes.head?)
    (ring : registry.links.Ring nodes) {newLink : Nat} (fresh : newLink ∉ nodes) :
    (registry.putOnTop newLink).links.Ring (newLink :: nodes) := by
  unfold putOnTop
  cases nodes with
  | nil =>
      rw [top]
      change ((registry.setNext newLink newLink).setPrev newLink newLink).links.Ring _
      rw [links_join]
      exact .single newLink
  | cons first rest =>
      have other : newLink ≠ first := by
        rintro rfl
        exact fresh List.mem_cons_self
      rw [top]
      change ((((registry.setNext newLink first).setPrev newLink _).setNext _ newLink).setPrev
        first newLink).links.Ring _
      have joined := ring.insert fresh
      rw [links_setPrev, links_setNext, links_setPrev, links_setNext]
      dsimp only
      rw [Function.update_comm other]
      exact joined

theorem putOnTop_counts (registry : Registry) (newLink : Nat) :
    (registry.putOnTop newLink).counts = registry.counts := by
  unfold putOnTop
  cases registry.tiJobStats with
  | none =>
      change ((registry.setNext newLink newLink).setPrev newLink newLink).counts = _
      rw [counts_setPrev, counts_setNext]
  | some first =>
      change ((((registry.setNext newLink first).setPrev newLink _).setNext _ newLink).setPrev
        first newLink).counts = _
      rw [counts_setPrev, counts_setNext, counts_setPrev, counts_setNext]

/-- Only the links and the top of the chain are changed. -/
theorem putOnTop_frame (registry : Registry) (newLink : Nat) :
    ∃ memory, registry.putOnTop newLink =
      { registry with memory := memory, tiJobStats := some newLink } := by
  unfold putOnTop
  cases registry.tiJobStats with
  | none => exact ⟨_, rfl⟩
  | some first => exact ⟨_, rfl⟩

/-- A new link comes to the top of the chain. -/
theorem Sound.tlmNewJobStats (sound : registry.Sound nodes) (name : List UInt8) {newLink : Nat}
    (free : registry.allocated newLink = false) :
    (registry.tlmNewJobStats name (some newLink) true).1.Sound (newLink :: nodes) := by
  change ((registry.makeLink name newLink).putOnTop newLink).Sound (newLink :: nodes)
  have fresh : newLink ∉ nodes := by
    intro listed
    rw [(sound.allocated newLink).mpr listed] at free
    cases free
  have others : ∀ node ∈ nodes, (registry.makeLink name newLink).memory node =
      registry.memory node := by
    intro node listed
    apply Function.update_of_ne
    rintro rfl
    exact fresh listed
  have ring : (registry.makeLink name newLink).links.Ring nodes := by
    apply sound.ring.congr
    intro node listed
    exact ⟨congrArg ChainLink.tcNext (others node listed),
      congrArg ChainLink.tcPrev (others node listed)⟩
  have newCount : (registry.makeLink name newLink).counts newLink = 1 := by
    unfold counts makeLink
    dsimp only
    rw [Function.update_self]
  have oldCount : ∀ node ∈ nodes, (registry.makeLink name newLink).counts node =
      registry.counts node := fun node listed => congrArg ChainLink.tcRefCount (others node listed)
  have whole := @putOnTop_links (registry.makeLink name newLink) nodes sound.top ring newLink fresh
  have counts := putOnTop_counts (registry.makeLink name newLink) newLink
  obtain ⟨memory, frame⟩ := putOnTop_frame (registry.makeLink name newLink) newLink
  rw [frame] at whole counts ⊢
  refine ⟨⟨whole, rfl, fun link => ?_, fun node listed => ?_⟩, sound.unlocked, sound.freed,
    fun node listed => ?_, Nat.succ_le_succ sound.created⟩
  · change Function.update registry.allocated newLink true link = true ↔ link ∈ newLink :: nodes
    by_cases same : link = newLink
    · rw [same, Function.update_self]
      exact iff_of_true rfl List.mem_cons_self
    · rw [Function.update_of_ne same, sound.allocated, List.mem_cons]
      exact ⟨Or.inr, fun listed => listed.resolve_left same⟩
  · rw [counts]
    rcases List.mem_cons.mp listed with rfl | old
    · rw [newCount]
      exact Int.one_pos
    · rw [oldCount node old]
      exact sound.counted node old
  · rw [counts]
    rcases List.mem_cons.mp listed with rfl | old
    · rw [newCount]
      decide
    · rw [oldCount node old]
      exact sound.bounded node old

theorem find?_listed {link : Nat} (listed : link ∈ nodes) :
    nodes.find? (fun chainLink => chainLink = link) = some link := by
  cases found : nodes.find? (fun chainLink => chainLink = link) with
  | none => exact absurd (decide_eq_true rfl) (List.find?_eq_none.mp found link listed)
  | some other =>
      have same := List.find?_some found
      rw [of_decide_eq_true same]

/-- `tlm_un_ref` finds the link again that has no references left, and takes it out. -/
theorem tlmUnRef_eq {link top : Nat} {rest : List Nat} (ring : registry.links.Ring (top :: rest))
    (enough : rest.length < registry.created) (listed : link ∈ top :: rest)
    (last : registry.counts link = 1) :
    registry.tlmUnRef top link =
      let next := registry.links.next link
      let prev := registry.links.prev link
      some ((((registry.setRefCount link 0).setNext prev next).setPrev next prev).free link,
        if next = prev ∧ next = link then none else some next) := by
  have same := links_setRefCount registry link 0
  have lowered : (registry.setRefCount link 0).counts link = 0 := by
    rw [counts_setRefCount registry link le_rfl (by decide), Function.update_self]
  have again : registry.links.search (fun chainLink => chainLink = link) top
      (registry.setRefCount link 0).created top = some (some link) :=
    (ring.search_eq _ enough).trans (congrArg some (find?_listed listed))
  have next : ((registry.setRefCount link 0).memory link).tcNext = registry.links.next link :=
    congrFun (congrArg Links.next same) link
  have prev : ((registry.setRefCount link 0).memory link).tcPrev = registry.links.prev link :=
    congrFun (congrArg Links.prev same) link
  unfold tlmUnRef
  rw [last, Int.sub_self]
  dsimp only
  rw [lowered, if_neg (lt_irrefl 0), same, again]
  dsimp only
  rw [next, prev]

/-- A link that has been taken out and freed. -/
theorem Sound.freeLink {before behind : List Nat} {link : Nat}
    (sound : registry.Sound (before ++ link :: behind)) {taken : Registry} {top : Option Nat}
    (ring : taken.links.Ring (behind ++ before)) (isTop : top = (behind ++ before).head?)
    (counts : taken.counts = Function.update registry.counts link 0)
    (frame : taken.allocated = registry.allocated ∧ taken.locked = registry.locked ∧
      taken.freed = registry.freed ∧ taken.created = registry.created) :
    { taken.free link with tiJobStats := top }.Sound (behind ++ before) := by
  obtain ⟨allocated, locked, freed, created⟩ := frame
  have other := (List.perm_middle.nodup_iff).mp sound.ring.nodup
  obtain ⟨notListed, -⟩ := List.nodup_cons.mp other
  have swapped : ∀ node, node ∈ behind ++ before ↔ node ∈ before ++ behind := by
    intro node
    rw [List.mem_append, List.mem_append, or_comm]
  have kept : ∀ node ∈ behind ++ before, taken.counts node = registry.counts node := by
    intro node listed
    rw [counts, Function.update_of_ne]
    rintro rfl
    exact notListed ((swapped node).mp listed)
  have among : ∀ node ∈ behind ++ before, node ∈ before ++ link :: behind := by
    intro node listed
    exact (List.perm_middle.mem_iff).mpr (List.mem_cons_of_mem link ((swapped node).mp listed))
  refine ⟨⟨ring, isTop, fun node => ?_, fun node listed => ?_⟩, ?_, ?_, fun node listed => ?_, ?_⟩
  · change Function.update taken.allocated link false node = true ↔ _
    by_cases same : node = link
    · rw [same, Function.update_self, swapped]
      exact iff_of_false Bool.false_ne_true notListed
    · rw [Function.update_of_ne same, allocated, sound.allocated, List.perm_middle.mem_iff,
        List.mem_cons, swapped]
      exact ⟨fun listed => listed.resolve_left same, Or.inr⟩
  · exact (kept node listed).symm ▸ sound.counted node (among node listed)
  · exact locked.trans sound.unlocked
  · intro gone listed
    change gone ∈ taken.freed ++ [taken.memory link] at listed
    rw [freed] at listed
    rcases List.mem_append.mp listed with early | late
    · exact sound.freed gone early
    · rw [List.mem_singleton.mp late]
      exact (congrFun counts link).trans (Function.update_self _ _ _)
  · exact (kept node listed).symm ▸ sound.bounded node (among node listed)
  · change (behind ++ before).length ≤ taken.created
    have enough := sound.created
    rw [created]
    rw [List.length_append, List.length_cons] at enough
    rw [List.length_append]
    omega

/-- The link that is let go by the last one is taken out of the chain. -/
theorem Sound.tlmUnRef_last {link top : Nat} (sound : registry.Sound nodes)
    (isTop : registry.tiJobStats = some top) (listed : link ∈ nodes)
    (last : registry.counts link = 1) :
    ∃ after newTop rest, registry.tlmUnRef top link = some (after, newTop) ∧
      { after with tiJobStats := newTop }.Sound rest := by
  obtain ⟨others, whole⟩ : ∃ others, nodes = top :: others := by
    have first := sound.top
    rw [isTop] at first
    cases nodes with
    | nil => cases first
    | cons head others =>
        cases first
        exact ⟨others, rfl⟩
  obtain ⟨before, behind, split⟩ := List.append_of_mem listed
  have taken := @tlmUnRef_eq registry link top others (whole ▸ sound.ring)
    (by
      have enough := sound.created
      rwa [whole] at enough) (whole ▸ listed) last
  have counts : (((registry.setRefCount link 0).setNext (registry.links.prev link)
      (registry.links.next link)).setPrev (registry.links.next link)
        (registry.links.prev link)).counts = Function.update registry.counts link 0 := by
    rw [counts_setPrev, counts_setNext, counts_setRefCount registry link le_rfl (by decide)]
  have relinked := links_join (registry.setRefCount link 0) (registry.links.prev link)
    (registry.links.next link)
  rw [links_setRefCount] at relinked
  rw [split] at sound
  have turned : registry.links.Ring ((link :: behind) ++ before) := sound.ring.rotate
  rw [List.cons_append] at turned
  obtain ⟨smaller, newTop⟩ := turned.takeOut
  rw [← relinked] at smaller
  exact ⟨_, _, behind ++ before, taken,
    sound.freeLink smaller newTop counts ⟨rfl, rfl, rfl, rfl⟩⟩

/-- A call of `tlm_un_ref_job_stats` on a chain that holds something. -/
theorem Sound.tlmUnRefJobStats (sound : registry.Sound nodes) (name : List UInt8) {top : Nat}
    (isTop : registry.tiJobStats = some top) :
    ∃ after rest, registry.tlmUnRefJobStats name = some after ∧ after.Sound rest := by
  unfold Registry.tlmUnRefJobStats
  rw [isTop]
  dsimp only
  rw [sound.findName name]
  cases found : nodes.find? fun link => (registry.memory link).jsJobName = name with
  | none => exact ⟨registry, nodes, rfl, sound⟩
  | some link =>
      have listed : link ∈ nodes := List.mem_of_find?_eq_some found
      have positive := sound.counted link listed
      have high := sound.bounded link listed
      dsimp only
      by_cases last : registry.counts link = 1
      · obtain ⟨after, newTop, rest, taken, kept⟩ := sound.tlmUnRef_last isTop listed last
        rw [taken]
        exact ⟨_, rest, rfl, kept⟩
      · have lower : registry.counts link - 1 ≤ intMax := by omega
        have others : 0 < registry.counts link - 1 := by omega
        have stays : registry.tlmUnRef top link =
            some (registry.setRefCount link (registry.counts link - 1), some top) := by
          unfold tlmUnRef
          dsimp only
          rw [counts_setRefCount registry link others.le lower, Function.update_self, if_pos others]
        rw [stays]
        refine ⟨_, nodes, rfl, ?_⟩
        have kept := @Sound.setRefCount registry nodes sound link _ others lower
        rw [← isTop]
        exact kept

/-- A call of `tlm_ref_job_stats` returns, and the count of the link that it finds must not
be the largest one. -/
theorem Sound.tlmRefJobStats (sound : registry.Sound nodes) (name : List UInt8) :
    ∃ after result, registry.tlmRefJobStats name = some (after, result) ∧
      (registry.Takes (.refJobStats name) → after.Sound nodes) ∧
        (after.WellKept → registry.Takes (.refJobStats name)) := by
  have search := sound.findName name
  unfold Registry.tlmRefJobStats
  cases found : nodes.find? fun link => (registry.memory link).jsJobName = name with
  | none =>
      rw [found] at search
      rw [search]
      refine ⟨registry, none, rfl, fun _ => sound, fun _ link isFound => ?_⟩
      rw [search] at isFound
      cases isFound
  | some link =>
      rw [found] at search
      rw [search]
      have listed : link ∈ nodes := List.mem_of_find?_eq_some found
      have positive := sound.counted link listed
      refine ⟨_, some link, rfl, fun takes => ?_, fun wellKept other isFound => ?_⟩
      · have low := takes link search
        exact sound.setRefCount (by omega) (by omega)
      · rw [search] at isFound
        cases isFound
        by_contra full
        have most : registry.counts link = intMax :=
          le_antisymm (sound.bounded link listed) (Int.not_lt.mp full)
        obtain ⟨after, chained⟩ := wellKept.chained
        have counted := chained.counted link
          ((chained.allocated link).mp ((sound.allocated link).mpr listed))
        rw [counts_stored, Function.update_self, most] at counted
        exact absurd counted (by decide)

/-- What a call comes to: it returns, and leaves the registry well kept exactly if the
registry can take it. -/
theorem Sound.step (sound : registry.Sound nodes) {call : Call} (mallocs : registry.Mallocs call) :
    ∃ after, registry.step call = some after ∧
      (registry.Takes call → ∃ rest, after.Sound rest) ∧
        (after.WellKept → registry.Takes call) := by
  unfold Registry.step
  rw [sound.unlocked, if_neg Bool.false_ne_true, if_neg (not_not.mpr mallocs)]
  cases call with
  | newJobStats name newLink jobStats =>
      refine ⟨_, rfl, fun _ => ?_, fun _ => trivial⟩
      cases newLink with
      | none => exact ⟨nodes, sound⟩
      | some newLink =>
          cases jobStats with
          | false => exact ⟨nodes, sound⟩
          | true => exact ⟨_, sound.tlmNewJobStats name (mallocs newLink rfl)⟩
  | refJobStats name =>
      obtain ⟨after, result, returns, takes, wellKept⟩ := sound.tlmRefJobStats name
      exact ⟨after, congrArg (Option.map Prod.fst) returns, fun taken => ⟨nodes, takes taken⟩,
        wellKept⟩
  | unRefJobStats name =>
      cases isTop : registry.tiJobStats with
      | none =>
          refine ⟨{ registry with locked := true }, ?_, fun takes => absurd isTop takes, ?_⟩
          · unfold Registry.tlmUnRefJobStats
            rw [isTop]
          · exact fun wellKept => absurd wellKept.unlocked.symm Bool.false_ne_true
      | some top =>
          obtain ⟨after, rest, returns, kept⟩ := sound.tlmUnRefJobStats name isTop
          exact ⟨after, returns, fun _ => ⟨rest, kept⟩, fun _ none_ =>
            nomatch isTop.symm.trans none_⟩

theorem sound_empty (memory : Nat → ChainLink) : (empty memory).Sound [] where
  ring := ⟨List.nodup_nil, .nil, nofun⟩
  top := rfl
  allocated := fun _ => iff_of_false Bool.false_ne_true List.not_mem_nil
  counted := nofun
  unlocked := rfl
  freed := nofun
  bounded := nofun
  created := le_rfl

theorem reachable_sound (reached : system.ReachableBy Takes registry) :
    ∃ nodes, registry.Sound nodes := by
  refine reached.invariant (fun registry => ∃ nodes, registry.Sound nodes) ?_ ?_
  · rintro _ ⟨memory, rfl⟩
    exact ⟨[], sound_empty memory⟩
  · rintro registry call after ⟨nodes, sound⟩ takes taken
    have mallocs : registry.Mallocs call := by
      by_contra inUse
      change registry.step call = some after at taken
      unfold Registry.step at taken
      rw [sound.unlocked, if_neg Bool.false_ne_true, if_pos inUse] at taken
      cases taken
    obtain ⟨after_, returns, sound, -⟩ := sound.step mallocs
    cases returns.symm.trans taken
    exact sound takes

/-- After any calls that the registry could take, it is well kept; the next call returns,
and leaves it well kept exactly if the registry can take it too. -/
theorem reachable_wellKept (reached : system.ReachableBy Takes registry) :
    registry.WellKept ∧ ∀ call, registry.Mallocs call →
      ∃ after, registry.step call = some after ∧ (after.WellKept ↔ registry.Takes call) := by
  obtain ⟨nodes, sound⟩ := reachable_sound reached
  refine ⟨sound.wellKept, fun call mallocs => ?_⟩
  obtain ⟨after, returns, takes, wellKept⟩ := sound.step mallocs
  refine ⟨after, returns, wellKept, fun taken => ?_⟩
  obtain ⟨rest, kept⟩ := takes taken
  exact kept.wellKept

/-- Memory that holds nothing. -/
def clear : Nat → ChainLink := fun _ => ⟨0, 0, 0, []⟩

/-- The registry when one job has been started. -/
def oneJob : Registry := ((empty clear).makeLink [97] 1).putOnTop 1

/-- One job has been started. -/
theorem reachable_wellKept_oneJob :
    oneJob.WellKept ∧ ∀ call, oneJob.Mallocs call →
      ∃ after, oneJob.step call = some after ∧ (after.WellKept ↔ oneJob.Takes call) :=
  reachable_wellKept (@ReachableBy.step _ _ system Takes _ _ (.newJobStats [97] (some 1) true)
    (.init ⟨clear, rfl⟩) trivial rfl)

/-- Letting go of a job when there is none leaves the mutex taken. -/
theorem unRef_empty :
    system.Reachable { empty clear with locked := true } ∧
      ¬ WellKept { empty clear with locked := true } := by
  constructor
  · exact @ReachableBy.step _ _ system _ _ _ (.unRefJobStats [97]) (.init ⟨clear, rfl⟩) trivial rfl
  · intro wellKept
    exact Bool.false_ne_true wellKept.unlocked.symm

end Registry

end Ndmpd
