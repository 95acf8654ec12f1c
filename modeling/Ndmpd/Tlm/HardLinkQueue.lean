import Ndmpd.Tlm.PathNames

/-!
# The hard link queue

A list of inode numbers that have been seen. On backup a node carries the offset of the
data in the stream, on restore the path of the file. The queue is keyed by the inode
number alone.
-/

namespace Ndmpd

/-- A `struct hardlink_node`. -/
structure HardlinkNode where
  inode : Nat
  offset : Nat
  path : Option CString
  isTmp : Bool
  deriving DecidableEq, Repr

/-- A `struct hardlink_q`. -/
abbrev HardlinkQ : Type := List HardlinkNode

namespace HardlinkQ

/-- `hardlink_q_get`: the first node of the inode. -/
def hardlinkQGet (queue : HardlinkQ) (inode : Nat) : Option HardlinkNode :=
  queue.find? fun node => node.inode = inode

/-- `hardlink_q_add`: a node of an inode that is not yet in the queue goes to its head. -/
def hardlinkQAdd (queue : HardlinkQ) (inode offset : Nat) (path : Option CString)
    (isTmp : Bool) : HardlinkQ :=
  match queue.hardlinkQGet inode with
  | some _ => queue
  | none => ⟨inode, offset, path, isTmp⟩ :: queue

theorem hardlinkQGet_cons (node : HardlinkNode) (queue : HardlinkQ) (inode : Nat) :
    hardlinkQGet (node :: queue) inode =
      if node.inode = inode then some node else queue.hardlinkQGet inode := by
  unfold hardlinkQGet
  by_cases same : node.inode = inode
  · rw [List.find?_cons_of_pos (by simpa using same), if_pos same]
  · rw [List.find?_cons_of_neg (by simpa using same), if_neg same]

/-- A node that is added is found unless its inode was in the queue before. -/
theorem hardlinkQGet_hardlinkQAdd (queue : HardlinkQ) (inode offset : Nat) (path : Option CString)
    (isTmp : Bool) (other : Nat) :
    (queue.hardlinkQAdd inode offset path isTmp).hardlinkQGet other =
      if inode = other then (queue.hardlinkQGet other).or (some ⟨inode, offset, path, isTmp⟩)
      else queue.hardlinkQGet other := by
  unfold hardlinkQAdd
  cases found : queue.hardlinkQGet inode with
  | some node =>
      by_cases same : inode = other
      · rw [if_pos same, ← same, found, Option.some_or]
      · rw [if_neg same]
  | none =>
      dsimp only
      rw [hardlinkQGet_cons]
      by_cases same : inode = other
      · rw [if_pos same, if_pos same, ← same, found, Option.none_or]
      · rw [if_neg same, if_neg same]

/-- A node whose inode is in the queue is not added. -/
theorem hardlinkQAdd_of_some {queue : HardlinkQ} {inode : Nat} {node : HardlinkNode}
    (found : queue.hardlinkQGet inode = some node) (offset : Nat) (path : Option CString)
    (isTmp : Bool) : queue.hardlinkQAdd inode offset path isTmp = queue := by
  unfold hardlinkQAdd
  rw [found]

end HardlinkQ

end Ndmpd
