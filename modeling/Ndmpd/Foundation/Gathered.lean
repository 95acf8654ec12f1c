import Mathlib.Data.List.Induction
import Mathlib.Algebra.Order.Group.Nat

/-!
# Processing a list in groups

A loop gathers items until a group is full, lets go of the group and starts the next one
(`gather`). What is left at the end is a group that is not full. On a list that is written
as full groups and a rest the loop goes from group to group (`gather_flatten`), and every
list can be written so (`exists_groups`).
-/

namespace Foundation

variable {α σ : Type}

/-- Gather items in groups of a size. A full group changes the state. The result is the
state and the group that has not been filled. -/
def gather (size : Nat) (flush : σ → List α → σ) : σ → List α → List α → σ × List α
  | state, group, [] => (state, group)
  | state, group, item :: items =>
      if (group ++ [item]).length = size then
        gather size flush (flush state (group ++ [item])) [] items
      else gather size flush state (group ++ [item]) items

variable {size : Nat} {flush : σ → List α → σ}

/-- Items that do not fill the group are kept. -/
theorem gather_short {state : σ} {group items : List α}
    (short : group.length + items.length < size) :
    gather size flush state group items = (state, group ++ items) := by
  induction items generalizing group with
  | nil => rw [gather, List.append_nil]
  | cons item items ih =>
      rw [List.length_cons] at short
      have kept : (group ++ [item]).length + items.length < size := by
        rw [List.length_append, List.length_singleton]
        omega
      rw [gather, if_neg (by omega), ih kept, List.append_assoc, List.singleton_append]

/-- Items that fill the group let go of it. -/
theorem gather_full {state : σ} {group items rest : List α} (some_item : items ≠ [])
    (full : group.length + items.length = size) :
    gather size flush state group (items ++ rest) =
      gather size flush (flush state (group ++ items)) [] rest := by
  induction items generalizing group with
  | nil => exact absurd rfl some_item
  | cons item items ih =>
      rw [List.length_cons] at full
      have longer : (group ++ [item]).length = group.length + 1 := by
        rw [List.length_append, List.length_singleton]
      rw [List.cons_append, gather]
      by_cases last : items = []
      · subst last
        rw [if_pos (by rw [longer]; exact full), List.nil_append]
      · have more : 0 < items.length := List.length_pos_iff.mpr last
        rw [if_neg (by omega), ih last (by omega), List.append_assoc, List.singleton_append]

/-- The loop goes from group to group. -/
theorem gather_flatten {groups : List (List α)} {rest : List α}
    (full : ∀ group ∈ groups, group.length = size) (short : rest.length < size) (state : σ) :
    gather size flush state [] (groups.flatten ++ rest) = (groups.foldl flush state, rest) := by
  induction groups generalizing state with
  | nil =>
      have kept := @gather_short _ _ size flush state [] rest
      rw [List.length_nil, Nat.zero_add, List.nil_append] at kept
      exact kept short
  | cons group groups ih =>
      have whole : group.length = size := full group List.mem_cons_self
      have some_item : group ≠ [] := List.ne_nil_of_length_pos (by omega)
      have filled := @gather_full _ _ size flush state [] group (groups.flatten ++ rest) some_item
        (by rw [List.length_nil, Nat.zero_add, whole])
      rw [List.nil_append] at filled
      rw [List.flatten_cons, List.append_assoc, filled,
        ih fun other listed => full other (List.mem_cons_of_mem _ listed), List.foldl_cons]

/-- A list in groups. -/
theorem exists_groups (positive : 0 < size) (items : List α) :
    ∃ (groups : List (List α)) (rest : List α), items = groups.flatten ++ rest ∧
      (∀ group ∈ groups, group.length = size) ∧ rest.length < size := by
  induction items using List.reverseRecOn with
  | nil => exact ⟨[], [], rfl, by simp, positive⟩
  | append_singleton items item ih =>
      obtain ⟨groups, rest, rfl, full, short⟩ := ih
      have longer : (rest ++ [item]).length = rest.length + 1 := by
        rw [List.length_append, List.length_singleton]
      by_cases whole : rest.length + 1 = size
      · refine ⟨groups ++ [rest ++ [item]], [], ?_, ?_, positive⟩
        · simp
        · intro group listed
          rcases List.mem_append.mp listed with early | last
          · exact full group early
          · rw [List.mem_singleton.mp last, longer, whole]
      · exact ⟨groups, rest ++ [item], by rw [List.append_assoc], full, by omega⟩

theorem length_flatten_groups {groups : List (List α)}
    (full : ∀ group ∈ groups, group.length = size) :
    groups.flatten.length = size * groups.length := by
  induction groups with
  | nil => rw [List.flatten_nil, List.length_nil, List.length_nil, Nat.mul_zero]
  | cons group groups ih =>
      rw [List.flatten_cons, List.length_append, full group List.mem_cons_self,
        ih fun other listed => full other (List.mem_cons_of_mem _ listed), List.length_cons,
        Nat.mul_succ, Nat.add_comm]

end Foundation
