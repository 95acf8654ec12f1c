import Mathlib.Algebra.Order.Group.Nat
import Mathlib.Data.List.Basic
import Mathlib.Data.List.Range
import Mathlib.Logic.Function.Basic
import Mathlib.Logic.Function.Iterate
import Ndmpd.Foundation.Transition
import Ndmpd.Session.Protocol

/-!
# Challenges of the MD5 authentication

The daemon forks a child for each connection. The generator behind `random` is copied by
the fork and the parent never draws from it, so the challenges of all connections are the
same, one after the other (`Child.Sound`); before the first one, `ns_challenge` is zero and
is checked against all the same.

A digest that one connection accepts is thus accepted by any other at the same point
(`replay_accepted`). Checks stay apart exactly while a connection that checks has asked for
a challenge before, and for one that no other connection has got (`unreplayable_iff`).
-/

namespace Ndmpd

namespace Authentication

open Foundation.System

abbrev md5ChallengeSize : Nat := 64
abbrev md5PassLimit : Nat := 32

/-! ## Drawing challenges -/

section Randomize

variable {Generator : Type} (random : Generator → UInt32 × Generator)

/-- An `unsigned int` in memory. -/
def wordBytes (word : UInt32) : List UInt8 :=
  [word.toUInt8, (word >>> 8).toUInt8, (word >>> 16).toUInt8, (word >>> 24).toUInt8]

/-- The loop of `randomize` over whole words. -/
def randomizeWords : Nat → Generator → List UInt8 × Generator
  | 0, generator => ([], generator)
  | dwlen + 1, generator =>
      let (word, generator) := random generator
      let (rest, generator) := randomizeWords dwlen generator
      (wordBytes word ++ rest, generator)

/-- Fill `size` bytes from `random`. -/
def randomize (size : Nat) (generator : Generator) : List UInt8 × Generator :=
  let (bytes, generator) := randomizeWords random (size / 4) generator
  if size % 4 = 0 then (bytes, generator)
  else
    let (tmp, generator) := random generator
    (bytes ++ (wordBytes tmp).take (size % 4), generator)

end Randomize

/-! ## The requests -/

/-- The types of authentication of a request. -/
inductive AuthType where
  | none
  | text
  | md5
  | other
  deriving DecidableEq, Repr

/-- The settings of the daemon; the password as `ndmp_base64_decode` gives it. -/
structure AuthConfig where
  cramMd5Username : Option (List UInt8)
  cramMd5Password : Option (List UInt8)
  deriving DecidableEq, Repr

/-- A comparison of digests in `ndmpd_connect_auth_md5`, with the challenges that had been
issued on the connection before it. -/
structure Check where
  issuedBefore : List (List UInt8)
  challenge : List UInt8
  digest : List UInt8
  accepted : Bool
  deriving DecidableEq, Repr

/-- A forked child with its session; `issued` and `checks` are its history. -/
structure Child (Generator : Type) where
  nsChallenge : List UInt8
  generator : Generator
  connAuthorized : Bool
  issued : List (List UInt8)
  checks : List Check

/-- The message whose digest a client sends: 128 bytes. -/
def md5Message (passwd challenge : List UInt8) : List UInt8 :=
  let len := min passwd.length md5PassLimit
  (passwd.take len ++ List.replicate (md5ChallengeSize - 2 * len) 0 ++ challenge ++
    (passwd.take (md5PassLimit - 1) ++ [0])).take 128

section Requests

variable (md5 : List UInt8 → List UInt8) (config : AuthConfig)

def createMd5Digest (passwd challenge : List UInt8) : List UInt8 :=
  md5 (md5Message passwd challenge)

/-- The password the digest is computed with, where `ndmpd_connect_auth_md5` comes to it. -/
def digestPassword (uname authId : List UInt8) : Option (List UInt8) :=
  if uname ≠ authId then none
  else
    match config.cramMd5Password with
    | none => none
    | some passwd => if passwd = [] then none else some passwd

def ndmpdConnectAuthMd5 (uname authId authDigest authChallenge : List UInt8) : NdmpError :=
  match digestPassword config uname authId with
  | none => .notAuthorizedErr
  | some passwd =>
      if createMd5Digest md5 passwd authChallenge ≠ authDigest then .notAuthorizedErr
      else .noErr

namespace Child

variable {Generator : Type} (random : Generator → UInt32 × Generator)

/-- `fork` and `connection_handler`: a session of zeros and the generator of the parent. -/
def forked (generator : Generator) : Child Generator :=
  ⟨List.replicate md5ChallengeSize 0, generator, false, [], []⟩

/-- Only an MD5 request draws a challenge, and the next one replaces it. -/
def ndmpdConfigGetAuthAttrV3 (child : Child Generator) :
    AuthType → NdmpError × Child Generator
  | .text => (.noErr, child)
  | .md5 =>
      let (challenge, generator) := randomize random md5ChallengeSize child.generator
      (.noErr, { child with
        nsChallenge := challenge
        generator := generator
        issued := child.issued ++ [challenge] })
  | .none | .other => (.illegalArgsErr, child)

/-- The MD5 branch of `ndmpd_connect_client_auth_v3`. -/
def ndmpdConnectClientAuthV3 (child : Child Generator) (authId authDigest : List UInt8) :
    NdmpError × Child Generator :=
  match config.cramMd5Username with
  | none | some [] => (.notAuthorizedErr, { child with connAuthorized := false })
  | some uname =>
      let error := ndmpdConnectAuthMd5 md5 config uname authId authDigest child.nsChallenge
      let check : Check := ⟨child.issued, child.nsChallenge, authDigest, error == .noErr⟩
      (error, { child with
        connAuthorized := error == .noErr
        checks := if (digestPassword config uname authId).isSome then child.checks ++ [check]
          else child.checks })

end Child

/-- The parent, and the child of each connection it has accepted. -/
structure Daemon (Generator : Type) where
  generator : Generator
  children : Nat → Option (Child Generator)

inductive Event where
  | accept (connection : Nat)
  | getAuthAttr (connection : Nat) (authType : AuthType)
  | clientAuth (connection : Nat) (authId authDigest : List UInt8)
  deriving DecidableEq, Repr

variable {Generator : Type} (random : Generator → UInt32 × Generator)

/-- A request on a connection. -/
def Daemon.request (daemon : Daemon Generator) (connection : Nat)
    (handler : Child Generator → NdmpError × Child Generator) : Option (Daemon Generator) :=
  match daemon.children connection with
  | none => none
  | some child =>
      some { daemon with
        children := Function.update daemon.children connection (some (handler child).2) }

def Daemon.step (daemon : Daemon Generator) : Event → Option (Daemon Generator)
  | .accept connection =>
      if (daemon.children connection).isNone then
        some { daemon with
          children := Function.update daemon.children connection
            (some (.forked daemon.generator)) }
      else none
  | .getAuthAttr connection authType =>
      daemon.request connection fun child => child.ndmpdConfigGetAuthAttrV3 random authType
  | .clientAuth connection authId authDigest =>
      daemon.request connection fun child =>
        child.ndmpdConnectClientAuthV3 md5 config authId authDigest

/-- `ndmp_run` and the sessions of its children, from any state of the generator. -/
def ndmpRun (seed : Generator) : Foundation.System (Daemon Generator) Event where
  init daemon := daemon = ⟨seed, fun _ => none⟩
  step daemon event := daemon.step md5 config random event

end Requests

/-! ## The challenges of a connection -/

section Sequence

variable {Generator : Type} (random : Generator → UInt32 × Generator) (seed : Generator)

/-- The generator after one challenge. -/
def advance (generator : Generator) : Generator :=
  (randomize random md5ChallengeSize generator).2

/-- The challenge drawn after `index` others. -/
def drawn (index : Nat) : List UInt8 :=
  (randomize random md5ChallengeSize ((advance random)^[index] seed)).1

/-- What `ns_challenge` holds after `count` challenges were drawn. -/
def challengeAfter : Nat → List UInt8
  | 0 => List.replicate md5ChallengeSize 0
  | count + 1 => drawn random seed count

/-- The first `count` challenges. -/
def drawnUpTo (count : Nat) : List (List UInt8) :=
  (List.range count).map (drawn random seed)

@[simp] theorem length_drawnUpTo (count : Nat) : (drawnUpTo random seed count).length = count := by
  rw [drawnUpTo, List.length_map, List.length_range]

theorem drawnUpTo_succ (count : Nat) :
    drawnUpTo random seed (count + 1) =
      drawnUpTo random seed count ++ [drawn random seed count] := by
  rw [drawnUpTo, List.range_succ, List.map_append]
  rfl

theorem mem_drawnUpTo {challenge : List UInt8} {count : Nat} :
    challenge ∈ drawnUpTo random seed count ↔
      ∃ index < count, drawn random seed index = challenge := by
  rw [drawnUpTo, List.mem_map]
  exact exists_congr fun index => and_congr_left' List.mem_range

theorem length_randomizeWords (dwlen : Nat) (generator : Generator) :
    (randomizeWords random dwlen generator).1.length = 4 * dwlen := by
  induction dwlen generalizing generator with
  | zero => rfl
  | succ dwlen ih =>
      rw [randomizeWords, List.length_append, ih]
      simp only [wordBytes, List.length_cons, List.length_nil]
      omega

theorem length_challengeAfter (count : Nat) :
    (challengeAfter random seed count).length = md5ChallengeSize := by
  cases count with
  | zero => exact List.length_replicate
  | succ count => exact length_randomizeWords random 16 _

end Sequence

/-- The last 64 bytes of the message in front of the repeated password are the challenge. -/
theorem md5Message_injective {passwd first second : List UInt8}
    (firstLength : first.length = md5ChallengeSize)
    (secondLength : second.length = md5ChallengeSize)
    (same : md5Message passwd first = md5Message passwd second) : first = second := by
  have challenge (challenge : List UInt8) (length : challenge.length = md5ChallengeSize) :
      ((md5Message passwd challenge).drop (md5ChallengeSize - min passwd.length md5PassLimit)).take
        md5ChallengeSize = challenge := by
    have size : md5ChallengeSize = 64 := rfl
    have limit : md5PassLimit = 32 := rfl
    rw [md5Message, List.drop_take, List.take_take]
    have front : (passwd.take (min passwd.length md5PassLimit) ++
        List.replicate (md5ChallengeSize - 2 * min passwd.length md5PassLimit) (0 : UInt8)).length =
        md5ChallengeSize - min passwd.length md5PassLimit := by
      rw [List.length_append, List.length_take, List.length_replicate]
      omega
    rw [List.append_assoc, List.drop_left' front, List.take_append_of_le_length,
      List.take_of_length_le]
    · rw [length]
      omega
    · rw [length]
      omega
  rw [← challenge first firstLength, ← challenge second secondLength, same]

namespace Child

variable (md5 : List UInt8 → List UInt8) (config : AuthConfig) {Generator : Type}
  (random : Generator → UInt32 × Generator) (seed : Generator)

/-- A comparison was made with the password and with the challenge last drawn. -/
structure CheckSound (count : Nat) (check : Check) : Prop where
  issued : check.issuedBefore = drawnUpTo random seed check.issuedBefore.length
  earlier : check.issuedBefore.length ≤ count
  challenge : check.challenge = challengeAfter random seed check.issuedBefore.length
  accepted : check.accepted = true → ∃ passwd, config.cramMd5Password = some passwd ∧
    createMd5Digest md5 passwd check.challenge = check.digest

/-- The challenges of a connection are the first ones of the generator. -/
structure Sound (child : Child Generator) : Prop where
  generator : child.generator = (advance random)^[child.issued.length] seed
  issued : child.issued = drawnUpTo random seed child.issued.length
  challenge : child.nsChallenge = challengeAfter random seed child.issued.length
  checks : ∀ check ∈ child.checks, CheckSound md5 config random seed child.issued.length check

variable {md5 config random seed}

theorem Sound.forked : Sound md5 config random seed (Child.forked seed) :=
  ⟨rfl, rfl, rfl, nofun⟩

theorem CheckSound.mono {count later : Nat} {check : Check}
    (sound : CheckSound md5 config random seed count check) (behind : count ≤ later) :
    CheckSound md5 config random seed later check :=
  { sound with earlier := sound.earlier.trans behind }

theorem Sound.getAuthAttr {child : Child Generator}
    (sound : Sound md5 config random seed child) (authType : AuthType) :
    Sound md5 config random seed (child.ndmpdConfigGetAuthAttrV3 random authType).2 := by
  cases authType with
  | none | text | other => exact sound
  | md5 =>
      obtain ⟨generator, issued, challenge, checks⟩ := sound
      have shape : (child.ndmpdConfigGetAuthAttrV3 random .md5).2 =
          { child with
            nsChallenge := drawn random seed child.issued.length
            generator := (advance random)^[child.issued.length + 1] seed
            issued := child.issued ++ [drawn random seed child.issued.length] } := by
        rw [Function.iterate_succ_apply', drawn, ← generator]
        rfl
      have length : (child.issued ++ [drawn random seed child.issued.length]).length =
          child.issued.length + 1 := List.length_append
      rw [shape]
      constructor <;> simp only [length]
      · rw [drawnUpTo_succ, ← issued]
      · rfl
      · exact fun check member => (checks check member).mono (Nat.le_succ _)

theorem digestPassword_spec {uname authId passwd : List UInt8}
    (given : digestPassword config uname authId = some passwd) :
    config.cramMd5Password = some passwd := by
  rw [digestPassword] at given
  split at given
  · cases given
  · split at given
    · cases given
    · rename_i set
      split at given <;> cases given
      exact set

theorem Sound.clientAuth {child : Child Generator}
    (sound : Sound md5 config random seed child) (authId authDigest : List UInt8) :
    Sound md5 config random seed
      (child.ndmpdConnectClientAuthV3 md5 config authId authDigest).2 := by
  obtain ⟨generator, issued, challenge, checks⟩ := sound
  rw [ndmpdConnectClientAuthV3]
  split
  · exact ⟨generator, issued, challenge, checks⟩
  · exact ⟨generator, issued, challenge, checks⟩
  · rename_i uname _ _
    refine ⟨generator, issued, challenge, ?_⟩
    cases password : digestPassword config uname authId with
    | none => exact checks
    | some passwd =>
        intro check member
        obtain before | last := List.mem_append.mp member
        · exact checks check before
        · rw [List.mem_singleton.mp last]
          refine ⟨issued, le_rfl, challenge, fun accepted =>
            ⟨passwd, digestPassword_spec password, ?_⟩⟩
          have granted : ndmpdConnectAuthMd5 md5 config uname authId authDigest child.nsChallenge =
            .noErr := beq_iff_eq.mp accepted
          rw [ndmpdConnectAuthMd5, password] at granted
          by_contra different
          simp only [if_pos different] at granted
          cases granted

end Child

section Runs

variable {md5 : List UInt8 → List UInt8} {config : AuthConfig} {Generator : Type}
  {random : Generator → UInt32 × Generator} {seed : Generator} {daemon : Daemon Generator}

theorem Daemon.request_spec {connection : Nat}
    {handler : Child Generator → NdmpError × Child Generator} {next : Daemon Generator}
    (taken : daemon.request connection handler = some next) :
    ∃ child, daemon.children connection = some child ∧
      next = { daemon with
        children := Function.update daemon.children connection (some (handler child).2) } := by
  rw [Daemon.request] at taken
  split at taken
  · cases taken
  · rename_i child present
    cases taken
    exact ⟨child, present, rfl⟩

/-- The parent never draws, so each child starts where the parent started. -/
theorem sound_of_reachable (reached : (ndmpRun md5 config random seed).Reachable daemon) :
    daemon.generator = seed ∧ ∀ connection child, daemon.children connection = some child →
      Child.Sound md5 config random seed child := by
  have changed {daemon : Daemon Generator} {connection : Nat} {child : Child Generator}
      (sound : ∀ connection child, daemon.children connection = some child →
        Child.Sound md5 config random seed child)
      (own : Child.Sound md5 config random seed child) (other : Nat) (sibling : Child Generator)
      (present : Function.update daemon.children connection (some child) other = some sibling) :
      Child.Sound md5 config random seed sibling := by
    rw [Function.update_apply] at present
    split at present
    · cases present
      exact own
    · exact sound other sibling present
  apply reached.invariant fun daemon => daemon.generator = seed ∧
    ∀ connection child, daemon.children connection = some child →
      Child.Sound md5 config random seed child
  · rintro daemon rfl
    exact ⟨rfl, nofun⟩
  · rintro daemon event next ⟨generator, sound⟩ _ taken
    cases event with
    | accept connection =>
        obtain ⟨_, rfl⟩ := of_guarded taken
        refine ⟨generator, changed sound ?_⟩
        rw [generator]
        exact .forked
    | getAuthAttr connection authType =>
        obtain ⟨child, present, rfl⟩ := Daemon.request_spec taken
        exact ⟨generator, changed sound ((sound connection child present).getAuthAttr authType)⟩
    | clientAuth connection authId authDigest =>
        obtain ⟨child, present, rfl⟩ := Daemon.request_spec taken
        exact ⟨generator,
          changed sound ((sound connection child present).clientAuth authId authDigest)⟩

end Runs

/-! ## Replayed digests -/

section Replay

variable (md5 : List UInt8 → List UInt8) (config : AuthConfig) {Generator : Type}
  (random : Generator → UInt32 × Generator) (seed : Generator) (daemon : Daemon Generator)

/-- Each check is made against a challenge that was issued on its connection, and that is
neither issued nor checked on another one; nor does another one accept its digest. -/
def Unreplayable : Prop :=
  ∀ connection child, daemon.children connection = some child → ∀ check ∈ child.checks,
    check.challenge ∈ check.issuedBefore ∧
      ∀ other sibling, other ≠ connection → daemon.children other = some sibling →
        check.challenge ∉ sibling.issued ∧
          ∀ later ∈ sibling.checks, later.challenge ≠ check.challenge ∧
            (check.accepted = true → later.digest = check.digest → later.accepted = false)

/-- A connection that checks has asked for a challenge before, and every other connection
has only been given others. -/
def AskedAhead : Prop :=
  ∀ connection child, daemon.children connection = some child → ∀ check ∈ child.checks,
    0 < check.issuedBefore.length ∧
      ∀ other sibling, other ≠ connection → daemon.children other = some sibling →
        ∀ index < sibling.issued.length,
          drawn random seed index ≠ drawn random seed (check.issuedBefore.length - 1)

/-- MD5 does not give one digest to two messages that are compared. -/
def Md5Injective : Prop :=
  ∀ passwd, config.cramMd5Password = some passwd →
    ∀ connection child, daemon.children connection = some child → ∀ check ∈ child.checks,
    ∀ other sibling, daemon.children other = some sibling → ∀ later ∈ sibling.checks,
      md5 (md5Message passwd check.challenge) = md5 (md5Message passwd later.challenge) →
        md5Message passwd check.challenge = md5Message passwd later.challenge

variable {md5 config random seed daemon}

/-- Checks stay apart exactly where each was asked for, and ahead of all other
connections. -/
theorem unreplayable_iff (reached : (ndmpRun md5 config random seed).Reachable daemon)
    (injective : Md5Injective md5 config daemon) :
    Unreplayable daemon ↔ AskedAhead random seed daemon := by
  obtain ⟨_, sound⟩ := sound_of_reachable reached
  have last {count : Nat} (positive : 0 < count) :
      challengeAfter random seed count = drawn random seed (count - 1) := by
    cases count with
    | zero => cases positive
    | succ count => rfl
  constructor
  · intro unreplayable connection child present check member
    obtain ⟨asked, apart⟩ := unreplayable connection child present check member
    have positive : 0 < check.issuedBefore.length := List.length_pos_of_mem asked
    refine ⟨positive, fun other sibling different there index given same => ?_⟩
    apply (apart other sibling different there).1
    rw [((sound connection child present).checks check member).challenge, last positive, ← same,
      (sound other sibling there).issued, mem_drawnUpTo]
    exact ⟨index, given, rfl⟩
  · intro ahead connection child present check member
    obtain ⟨positive, apart⟩ := ahead connection child present check member
    have own := (sound connection child present).checks check member
    constructor
    · rw [own.challenge, last positive, own.issued, length_drawnUpTo, mem_drawnUpTo]
      exact ⟨_, Nat.sub_lt positive Nat.one_pos, rfl⟩
    intro other sibling different there
    have differs (later : Check) (checked : later ∈ sibling.checks) :
        later.challenge ≠ check.challenge := by
      obtain ⟨laterPositive, _⟩ := ahead other sibling there later checked
      have theirs := (sound other sibling there).checks later checked
      rw [theirs.challenge, own.challenge, last laterPositive, last positive]
      exact apart other sibling different there _
        ((Nat.sub_lt laterPositive Nat.one_pos).trans_le theirs.earlier)
    refine ⟨fun given => ?_, fun later checked => ⟨differs later checked, fun accepted same => ?_⟩⟩
    · rw [own.challenge, last positive, (sound other sibling there).issued, mem_drawnUpTo] at given
      obtain ⟨index, bound, same⟩ := given
      exact apart other sibling different there index bound same
    · by_contra laterAccepted
      rw [Bool.not_eq_false] at laterAccepted
      have theirs := (sound other sibling there).checks later checked
      obtain ⟨passwd, set, computed⟩ := own.accepted accepted
      obtain ⟨_, again, laterComputed⟩ := theirs.accepted laterAccepted
      cases set.symm.trans again
      apply differs later checked
      refine (md5Message_injective ?_ ?_ (injective passwd set connection child present check member
        other sibling there later checked ?_)).symm
      · rw [own.challenge]
        exact length_challengeAfter random seed _
      · rw [theirs.challenge]
        exact length_challengeAfter random seed _
      · exact computed.trans (same.symm.trans laterComputed.symm)

end Replay

/-! ## Logging in -/

section Login

variable (md5 : List UInt8 → List UInt8) (config : AuthConfig) {Generator : Type}
  (random : Generator → UInt32 × Generator) (seed : Generator)

/-- The daemon with one more child, or with another state of one. -/
def Daemon.put (daemon : Daemon Generator) (connection : Nat) (child : Child Generator) :
    Daemon Generator :=
  { daemon with children := Function.update daemon.children connection (some child) }

/-- A connection that has asked for `count` challenges. -/
def asked (count : Nat) : Child Generator :=
  ⟨challengeAfter random seed count, (advance random)^[count] seed, false,
    drawnUpTo random seed count, []⟩

/-- The same connection when it has been given access. -/
def granted (count : Nat) (digest : List UInt8) : Child Generator :=
  { asked random seed count with
    connAuthorized := true
    checks := [⟨drawnUpTo random seed count, challengeAfter random seed count, digest, true⟩] }

variable {md5 config random seed}

theorem Daemon.put_children (daemon : Daemon Generator) (connection other : Nat)
    (child : Child Generator) : (daemon.put connection child).children other =
      if other = connection then some child else daemon.children other :=
  Function.update_apply ..

theorem Daemon.request_put (daemon : Daemon Generator) (connection : Nat)
    (child : Child Generator) (handler : Child Generator → NdmpError × Child Generator) :
    (daemon.put connection child).request connection handler =
      some (daemon.put connection (handler child).2) := by
  have present : (daemon.put connection child).children connection = some child := by
    rw [Daemon.put_children, if_pos rfl]
  rw [Daemon.request, present]
  refine congrArg some ?_
  rw [Daemon.put, Daemon.put]
  exact congrArg (Daemon.mk _) (Function.update_idem ..)

theorem asked_getAuthAttr (count : Nat) :
    ((asked random seed count).ndmpdConfigGetAuthAttrV3 random .md5).2 =
      asked random seed (count + 1) := by
  rw [asked, asked, drawnUpTo_succ, Function.iterate_succ_apply']
  rfl

theorem asked_clientAuth {uname passwd : List UInt8}
    (username : config.cramMd5Username = some uname) (named : uname ≠ [])
    (password : config.cramMd5Password = some passwd) (given : passwd ≠ []) (count : Nat) :
    ((asked random seed count).ndmpdConnectClientAuthV3 md5 config uname
      (createMd5Digest md5 passwd (challengeAfter random seed count))).2 =
      granted random seed count
        (createMd5Digest md5 passwd (challengeAfter random seed count)) := by
  have reached : digestPassword config uname uname = some passwd := by
    rw [digestPassword, if_neg (not_not.mpr rfl), password]
    exact if_neg given
  have accepted : ndmpdConnectAuthMd5 md5 config uname uname
      (createMd5Digest md5 passwd (challengeAfter random seed count))
      (asked random seed count).nsChallenge = .noErr := by
    rw [ndmpdConnectAuthMd5, reached]
    exact if_neg (not_not.mpr rfl)
  rw [Child.ndmpdConnectClientAuthV3, username]
  split
  · rename_i absent
    cases absent
  · rename_i empty
    exact absurd (Option.some.inj empty) named
  · rename_i _ same
    cases same
    simp only [accepted, reached]
    rfl

/-- A new connection that knows the digest for the challenge it will have after `count`
requests is given access with it. -/
theorem login_granted {daemon : Daemon Generator} {uname passwd : List UInt8}
    (reached : (ndmpRun md5 config random seed).Reachable daemon)
    (username : config.cramMd5Username = some uname) (named : uname ≠ [])
    (password : config.cramMd5Password = some passwd) (given : passwd ≠ [])
    {connection : Nat} (fresh : daemon.children connection = none) (count : Nat) :
    (ndmpRun md5 config random seed).Reachable (daemon.put connection (granted random seed count
      (createMd5Digest md5 passwd (challengeAfter random seed count)))) := by
  have waiting : (ndmpRun md5 config random seed).Reachable
      (daemon.put connection (asked random seed count)) := by
    induction count with
    | zero =>
        refine .step reached trivial (a := .accept connection) ?_
        have start := (sound_of_reachable reached).1
        have accepted : daemon.step md5 config random (.accept connection) =
            some (daemon.put connection (.forked daemon.generator)) := by
          rw [Daemon.step, fresh]
          rfl
        rw [start] at accepted
        exact accepted
    | succ count before =>
        refine .step before trivial (a := .getAuthAttr connection .md5) ?_
        exact (Daemon.request_put ..).trans
          (congrArg (some <| daemon.put connection ·) (asked_getAuthAttr count))
  refine .step waiting trivial (a := .clientAuth connection uname
    (createMd5Digest md5 passwd (challengeAfter random seed count))) ?_
  exact (Daemon.request_put ..).trans (congrArg (some <| daemon.put connection ·)
    (asked_clientAuth username named password given count))

/-- Whatever digest a connection has accepted, a new one accepts it too, after as many
requests for a challenge. -/
theorem replay_accepted {daemon : Daemon Generator} {uname passwd : List UInt8}
    (reached : (ndmpRun md5 config random seed).Reachable daemon)
    (username : config.cramMd5Username = some uname) (named : uname ≠ [])
    (password : config.cramMd5Password = some passwd) (given : passwd ≠ [])
    {connection other : Nat} {child : Child Generator}
    (present : daemon.children connection = some child) {check : Check}
    (member : check ∈ child.checks) (accepted : check.accepted = true)
    (fresh : daemon.children other = none) :
    (ndmpRun md5 config random seed).Reachable (daemon.put other
      (granted random seed check.issuedBefore.length check.digest)) := by
  have sound := ((sound_of_reachable reached).2 connection child present).checks check member
  obtain ⟨_, set, computed⟩ := sound.accepted accepted
  cases password.symm.trans set
  rw [← computed, sound.challenge]
  exact login_granted reached username named password given fresh _

end Login

/-! ## Runs of the daemon -/

/-- The additive constants of MD5. -/
def md5Constants : List Nat :=
  [0xd76aa478, 0xe8c7b756, 0x242070db, 0xc1bdceee, 0xf57c0faf, 0x4787c62a,
    0xa8304613, 0xfd469501, 0x698098d8, 0x8b44f7af, 0xffff5bb1, 0x895cd7be,
    0x6b901122, 0xfd987193, 0xa679438e, 0x49b40821, 0xf61e2562, 0xc040b340,
    0x265e5a51, 0xe9b6c7aa, 0xd62f105d, 0x02441453, 0xd8a1e681, 0xe7d3fbc8,
    0x21e1cde6, 0xc33707d6, 0xf4d50d87, 0x455a14ed, 0xa9e3e905, 0xfcefa3f8,
    0x676f02d9, 0x8d2a4c8a, 0xfffa3942, 0x8771f681, 0x6d9d6122, 0xfde5380c,
    0xa4beea44, 0x4bdecfa9, 0xf6bb4b60, 0xbebfbc70, 0x289b7ec6, 0xeaa127fa,
    0xd4ef3085, 0x04881d05, 0xd9d4d039, 0xe6db99e5, 0x1fa27cf8, 0xc4ac5665,
    0xf4292244, 0x432aff97, 0xab9423a7, 0xfc93a039, 0x655b59c3, 0x8f0ccc92,
    0xffeff47d, 0x85845dd1, 0x6fa87e4f, 0xfe2ce6e0, 0xa3014314, 0x4e0811a1,
    0xf7537e82, 0xbd3af235, 0x2ad7d2bb, 0xeb86d391]

/-- The rotations of the four rounds of MD5. -/
def md5Rotations : List Nat :=
  [7, 12, 17, 22, 5, 9, 14, 20, 4, 11, 16, 23, 6, 10, 15, 21]

/-- One of the 64 operations of MD5 on a block of sixteen words. -/
def md5Operation (words : List Nat) : Nat × Nat × Nat × Nat → Nat → Nat × Nat × Nat × Nat
  | (a, b, c, d), index =>
      let negate (word : Nat) : Nat := 2 ^ 32 - 1 - word
      let (mixed, word) :=
        if index < 16 then ((b &&& c) ||| (negate b &&& d), index)
        else if index < 32 then ((d &&& b) ||| (negate d &&& c), (5 * index + 1) % 16)
        else if index < 48 then (b ^^^ c ^^^ d, (3 * index + 5) % 16)
        else (c ^^^ (b ||| negate d), 7 * index % 16)
      let sum := (mixed + a + md5Constants.getD index 0 + words.getD word 0) % 2 ^ 32
      let rotation := md5Rotations.getD (index / 16 * 4 + index % 4) 0
      let rotated := (sum <<< rotation) % 2 ^ 32 ||| sum >>> (32 - rotation)
      (d, (b + rotated) % 2 ^ 32, b, c)

/-- Bytes as a number, the lowest first, and back. -/
def littleEndian : List UInt8 → Nat
  | [] => 0
  | byte :: bytes => byte.toNat + 256 * littleEndian bytes

def littleEndianBytes : Nat → Nat → List UInt8
  | 0, _ => []
  | count + 1, number => .ofNat number :: littleEndianBytes count (number / 256)

/-- MD5, from the system's library. -/
def md5Sum (message : List UInt8) : List UInt8 :=
  let padded := message ++ [0x80] ++ List.replicate ((119 - message.length % 64) % 64) 0 ++
    littleEndianBytes 8 (8 * message.length)
  let block (state : Nat × Nat × Nat × Nat) (index : Nat) : Nat × Nat × Nat × Nat :=
    let words := (List.range 16).map fun word =>
      littleEndian ((padded.drop (64 * index + 4 * word)).take 4)
    let (a, b, c, d) := (List.range 64).foldl (md5Operation words) state
    ((state.1 + a) % 2 ^ 32, (state.2.1 + b) % 2 ^ 32, (state.2.2.1 + c) % 2 ^ 32,
      (state.2.2.2 + d) % 2 ^ 32)
  let (a, b, c, d) := (List.range (padded.length / 64)).foldl block
    (0x67452301, 0xefcdab89, 0x98badcfe, 0x10325476)
  littleEndianBytes 4 a ++ littleEndianBytes 4 b ++ littleEndianBytes 4 c ++
    littleEndianBytes 4 d

/-- `random` with its smallest state. -/
def leastRandom (state : Nat) : UInt32 × Nat :=
  let next := 16807 * state % 2147483647
  (.ofNat next, next)

/-- User `admin` with password `secret`. -/
def adminConfig : AuthConfig where
  cramMd5Username := some [0x61, 0x64, 0x6d, 0x69, 0x6e]
  cramMd5Password := some [0x73, 0x65, 0x63, 0x72, 0x65, 0x74]

/-- The daemon before the first connection. -/
def listening : Daemon Nat := ⟨1, fun _ => none⟩

/-- A connection of `admin` that was given access after one request for a challenge. -/
def adminGranted : Child Nat :=
  granted leastRandom 1 1 (createMd5Digest md5Sum [0x73, 0x65, 0x63, 0x72, 0x65, 0x74]
    (challengeAfter leastRandom 1 1))

theorem listening_login {daemon : Daemon Nat} {connection : Nat}
    (reached : (ndmpRun md5Sum adminConfig leastRandom 1).Reachable daemon)
    (fresh : daemon.children connection = none) :
    (ndmpRun md5Sum adminConfig leastRandom 1).Reachable (daemon.put connection adminGranted) :=
  login_granted reached rfl nofun rfl nofun fresh 1

/-- All checks of such connections are against one challenge. -/
theorem md5Injective_of_admin {daemon : Daemon Nat}
    (admins : ∀ connection child, daemon.children connection = some child →
      child = adminGranted) : Md5Injective md5Sum adminConfig daemon := by
  intro passwd _ connection child present check member other sibling there later checked _
  rw [admins connection child present] at member
  rw [admins other sibling there] at checked
  rw [List.mem_singleton.mp member, List.mem_singleton.mp checked]

/-- Two connections that have asked for one challenge each. -/
def bothGranted : Daemon Nat := (listening.put 0 adminGranted).put 1 adminGranted

theorem bothGranted_reachable :
    (ndmpRun md5Sum adminConfig leastRandom 1).Reachable bothGranted := by
  have first : (ndmpRun md5Sum adminConfig leastRandom 1).Reachable
      (listening.put 0 adminGranted) := listening_login (.init rfl) rfl
  exact listening_login first rfl

theorem bothGranted_injective : Md5Injective md5Sum adminConfig bothGranted := by
  apply md5Injective_of_admin
  intro connection child present
  rw [bothGranted, Daemon.put_children, Daemon.put_children] at present
  split at present
  · cases present
    rfl
  · split at present <;> cases present
    rfl

theorem unreplayable_iff_twoConnections :
    bothGranted.children 0 = some adminGranted ∧ bothGranted.children 1 = some adminGranted ∧
      (Unreplayable bothGranted ↔ AskedAhead leastRandom 1 bothGranted) :=
  ⟨rfl, rfl, unreplayable_iff bothGranted_reachable bothGranted_injective⟩

/-- Two connections that ask for one challenge each are given the same one: what the first
one accepts, the second one accepts too. -/
theorem digest_replayed :
    ¬ ∀ daemon, (ndmpRun md5Sum adminConfig leastRandom 1).Reachable daemon →
      Md5Injective md5Sum adminConfig daemon → Unreplayable daemon := by
  intro unreplayable
  obtain ⟨_, apart⟩ := unreplayable _ bothGranted_reachable bothGranted_injective 0 adminGranted
    rfl _ List.mem_cons_self
  apply (apart 1 adminGranted nofun rfl).1
  exact (mem_drawnUpTo leastRandom 1).mpr ⟨0, Nat.one_pos, rfl⟩

end Authentication

end Ndmpd
