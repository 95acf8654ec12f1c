import Ndmpd.Foundation.CharArray
import Ndmpd.Session.Challenges

/-!
# The message behind an MD5 digest

`create_md5_digest` puts the message together in `buf` of 130 bytes, of which it hashes the
first 128: the password, zeros, the challenge, and the password once more. The second copy
is made by `strlcpy` with `MD5_PASS_LIMIT` for the size of its destination, so that it ends
with a NUL one byte before the limit.

Whatever `buf` held before, all of the bytes that are hashed have been written
(`hashedBytes_eq`). They are laid out as the comment at the function says exactly for the
passwords below the limit (`hashedBytes_laidOut_iff`).
-/

namespace Ndmpd

open Foundation

namespace Authentication

/-- The lines of `create_md5_digest` in front of `MD5Init`, on a `buf` that holds anything.
In the end `p` is 128 bytes behind its start. -/
def md5Buf (memory : CharArray 130) (passwd challenge : List UInt8) : CharArray 130 :=
  let len := min passwd.length md5PassLimit
  let buf := memory.write 0 [0]
  let buf := buf.write 0 (passwd.take len)
  let fill := md5ChallengeSize - 2 * len
  let buf := buf.write len (List.replicate fill 0)
  let buf := buf.write (len + fill) challenge
  -- `strlcpy(p, pwd, MD5_PASS_LIMIT)`
  buf.write (len + fill + md5ChallengeSize) (passwd.take (md5PassLimit - 1) ++ [0])

/-- What `MD5Update` is given. -/
def hashedBytes (memory : CharArray 130) (passwd challenge : List UInt8) : List UInt8 :=
  (md5Buf memory passwd challenge).bytes.take 128

/-- The message that the comment at `create_md5_digest` describes. -/
def documentedMessage (passwd challenge : List UInt8) : List UInt8 :=
  passwd ++ (List.replicate (md5ChallengeSize - 2 * passwd.length) 0 ++ (challenge ++ passwd))

/-- The message is laid out as documented, with a password cut to the limit, and does not
depend on what `buf` held. -/
structure LaidOut (passwd challenge : List UInt8) : Prop where
  layout : ∀ memory, hashedBytes memory passwd challenge =
    documentedMessage (passwd.take md5PassLimit) challenge
  initialized : ∀ memory memory_, hashedBytes memory passwd challenge =
    hashedBytes memory_ passwd challenge

/-- All of the bytes that are hashed have been written. -/
theorem hashedBytes_eq (memory : CharArray 130) (passwd : List UInt8)
    (challenge : CharArray md5ChallengeSize) :
    hashedBytes memory passwd challenge.bytes = md5Message passwd challenge.bytes := by
  have whole : md5ChallengeSize = 64 := rfl
  have limit : md5PassLimit = 32 := rfl
  have size : challenge.bytes.length = md5ChallengeSize := challenge.length_bytes
  unfold hashedBytes md5Buf md5Message
  dsimp only
  generalize isLen : min passwd.length md5PassLimit = len
  have front : (passwd.take len).length = len := by
    rw [List.length_take]
    omega
  have gap : (List.replicate (md5ChallengeSize - 2 * len) (0 : UInt8)).length =
      md5ChallengeSize - 2 * len := List.length_replicate
  have again : (passwd.take (md5PassLimit - 1) ++ [0]).length =
      min (md5PassLimit - 1) passwd.length + 1 := by
    rw [List.length_append, List.length_take, List.length_singleton]
  have first := ((memory.write 0 [0]).holds_nil).write rfl
    (show 0 + (passwd.take len).length ≤ 130 by omega)
  have second := first.write (show len = _ by rw [List.nil_append, front])
    (show len + (List.replicate (md5ChallengeSize - 2 * len) 0).length ≤ 130 by omega)
  have third := second.write
    (show len + (md5ChallengeSize - 2 * len) = _ by
      rw [List.nil_append, List.length_append, front, gap])
    (show len + (md5ChallengeSize - 2 * len) + challenge.bytes.length ≤ 130 by omega)
  have fourth := third.write
    (show len + (md5ChallengeSize - 2 * len) + md5ChallengeSize = _ by
      rw [List.nil_append, List.length_append, List.length_append, front, gap, size])
    (show _ + (passwd.take (md5PassLimit - 1) ++ [0]).length ≤ 130 by omega)
  rw [List.nil_append] at fourth
  apply fourth.take_bytes
  rw [List.length_append, again, List.length_append, size, List.length_append, front, gap]
  omega

variable {passwd : List UInt8}

/-- A password below the limit is repeated as a whole. -/
theorem md5Message_of_short (short : passwd.length < md5PassLimit)
    (challenge : CharArray md5ChallengeSize) :
    md5Message passwd challenge.bytes = documentedMessage passwd challenge.bytes := by
  have whole : md5ChallengeSize = 64 := rfl
  have limit : md5PassLimit = 32 := rfl
  have size : challenge.bytes.length = md5ChallengeSize := challenge.length_bytes
  have len : min passwd.length md5PassLimit = passwd.length := Nat.min_eq_left (by omega)
  have repeated : passwd.take (md5PassLimit - 1) = passwd := List.take_of_length_le (by omega)
  have long : (documentedMessage passwd challenge.bytes).length = 128 := by
    simp only [documentedMessage, List.length_append, List.length_replicate, size]
    omega
  unfold md5Message
  rw [len, repeated, ← long]
  dsimp only
  rw [List.take_length]
  simp only [documentedMessage, ← List.append_assoc]
  exact List.take_left

/-- Of a longer one the last byte is missing. -/
theorem md5Message_of_long (long : md5PassLimit ≤ passwd.length)
    (challenge : CharArray md5ChallengeSize) :
    md5Message passwd challenge.bytes = passwd.take md5PassLimit ++
      (challenge.bytes ++ (passwd.take (md5PassLimit - 1) ++ [0])) := by
  have limit : md5PassLimit = 32 := rfl
  have size : challenge.bytes.length = 64 := challenge.length_bytes
  have len : min passwd.length md5PassLimit = md5PassLimit := Nat.min_eq_right long
  unfold md5Message
  rw [len]
  dsimp only
  rw [show List.replicate (md5ChallengeSize - 2 * md5PassLimit) (0 : UInt8) = [] from rfl,
    List.append_nil, List.append_assoc]
  apply List.take_of_length_le
  simp only [List.length_append, List.length_take, List.length_singleton, size]
  omega

/-- The second copy of a longer password does not end as the first one does. -/
theorem LaidOut.short (string : NulFree passwd) {challenge : CharArray md5ChallengeSize}
    (laidOut : LaidOut passwd challenge.bytes) : passwd.length < md5PassLimit := by
  by_contra long
  have layout := laidOut.layout (.zero 130)
  rw [hashedBytes_eq, md5Message_of_long (Nat.not_lt.mp long), documentedMessage,
    List.length_take, Nat.min_eq_left (Nat.not_lt.mp long)] at layout
  have ends := List.append_cancel_left (List.append_cancel_left layout)
  have nul : (0 : UInt8) ∈ passwd.take md5PassLimit := by
    rw [← ends]
    exact List.mem_append_right _ List.mem_cons_self
  exact string (List.mem_of_mem_take nul)

/-- The message is laid out as documented exactly for a password below the limit. -/
theorem hashedBytes_laidOut_iff (string : NulFree passwd)
    (challenge : CharArray md5ChallengeSize) :
    LaidOut passwd challenge.bytes ↔ passwd.length < md5PassLimit := by
  constructor
  · intro laidOut
    exact laidOut.short string
  · intro short
    constructor
    · intro memory
      rw [hashedBytes_eq, md5Message_of_short short, List.take_of_length_le short.le]
    · intro memory memory_
      rw [hashedBytes_eq, hashedBytes_eq]

/-- A password of one byte. -/
theorem hashedBytes_laidOut_iff_short :
    LaidOut [97] (CharArray.zero 64).bytes ↔ [(97 : UInt8)].length < md5PassLimit :=
  hashedBytes_laidOut_iff (by decide) (.zero 64)

/-- A password of 32 bytes: a NUL stands in the place of its last byte. -/
theorem hashedBytes_cut :
    (∀ memory, hashedBytes memory (List.replicate 32 97) (CharArray.zero 64).bytes =
      List.replicate 32 97 ++ (List.replicate 64 0 ++ (List.replicate 31 97 ++ [0]))) ∧
      ¬ LaidOut (List.replicate 32 97) (CharArray.zero 64).bytes := by
  constructor
  · intro memory
    rw [hashedBytes_eq, md5Message_of_long (Nat.le_refl _)]
    rfl
  · intro laidOut
    exact absurd (laidOut.short (by decide)) (by decide)

end Authentication

end Ndmpd
