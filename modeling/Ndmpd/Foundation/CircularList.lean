import Mathlib.Data.List.Chain
import Mathlib.Data.List.Nodup
import Mathlib.Logic.Function.Basic

/-!
# Circular doubly linked lists

Nodes name the one behind them and the one in front of them. They form a ring in a given
order when each one is joined to the next and the last one to the first (`Links.Ring`). A
ring may be taken to start at any of its nodes (`Ring.rotate`); a node is put in front of
the first one, and the first one is taken out, with one or two pairs joined anew
(`Ring.insert`, `Ring.takeOut`). A search that stops when it comes back to where it has
started meets every node once, in order (`search_eq`).
-/

namespace Foundation

/-- For each node, the one behind it and the one in front of it. -/
structure Links (α : Type*) where
  next : α → α
  prev : α → α

namespace Links

variable {α : Type*}

/-- Two nodes name each other. -/
def Joins (links : Links α) (first second : α) : Prop :=
  links.next first = second ∧ links.prev second = first

/-- The nodes form a ring in this order. -/
structure Ring (links : Links α) (nodes : List α) : Prop where
  nodup : nodes.Nodup
  chain : nodes.IsChain links.Joins
  closed : ∀ last ∈ nodes.getLast?, ∀ first ∈ nodes.head?, links.Joins last first

variable {links : Links α} {nodes : List α}

namespace Ring

/-- A ring may be taken to start at another node. -/
theorem rotate {before behind : List α} (ring : links.Ring (before ++ behind)) :
    links.Ring (behind ++ before) := by
  cases before with
  | nil => rwa [List.append_nil]
  | cons first before =>
      cases behind with
      | nil => rwa [List.append_nil] at ring
      | cons second behind =>
          obtain ⟨early, late, across⟩ := List.isChain_append.mp ring.chain
          refine ⟨(List.perm_append_comm.nodup_iff).mp ring.nodup, late.append early ?_, ?_⟩
          · intro last isLast head isHead
            refine ring.closed last ?_ head ?_
            · rwa [List.getLast?_append_of_ne_nil _ (List.cons_ne_nil second behind)]
            · exact isHead
          · intro last isLast head isHead
            rw [List.getLast?_append_of_ne_nil _ (List.cons_ne_nil first before)] at isLast
            exact across last isLast head isHead

/-- Only the links of its nodes matter to a ring. -/
theorem congr {other : Links α} (ring : links.Ring nodes)
    (same : ∀ node ∈ nodes, other.next node = links.next node ∧ other.prev node = links.prev node) :
    other.Ring nodes := by
  have joins : ∀ first ∈ nodes, ∀ second ∈ nodes, links.Joins first second →
      other.Joins first second := by
    intro first isFirst second isSecond joined
    exact ⟨(same first isFirst).1.trans joined.1, (same second isSecond).2.trans joined.2⟩
  refine ⟨ring.nodup, ?_, ?_⟩
  · apply ring.chain.imp_of_mem_imp
    intro first second isFirst isSecond joined
    exact joins first isFirst second isSecond joined
  · intro last isLast first isFirst
    exact joins last (List.mem_of_getLast? isLast) first (List.mem_of_head? isFirst)
      (ring.closed last isLast first isFirst)

/-- The first node names the last one. -/
theorem prev_eq {first last : α} (ring : links.Ring nodes) (isFirst : nodes.head? = some first)
    (isLast : nodes.getLast? = some last) : links.prev first = last :=
  (ring.closed last isLast first isFirst).2

/-- With one node only, the node names itself. -/
theorem next_of_single {node : α} (ring : links.Ring [node]) :
    links.next node = node ∧ links.prev node = node :=
  ring.closed node rfl node rfl

/-- With more nodes, none names itself. -/
theorem next_ne {node second : α} {rest : List α} (ring : links.Ring (node :: second :: rest)) :
    links.next node ≠ node := by
  obtain ⟨joined, -⟩ := List.isChain_cons_cons.mp ring.chain
  rw [joined.1]
  rintro rfl
  exact (List.nodup_cons.mp ring.nodup).1 List.mem_cons_self

end Ring

variable [DecidableEq α]

/-- Make two nodes name each other. -/
def join (links : Links α) (first second : α) : Links α :=
  ⟨Function.update links.next first second, Function.update links.prev second first⟩

theorem joins_join (links : Links α) (first second : α) :
    (links.join first second).Joins first second :=
  ⟨Function.update_self _ _ _, Function.update_self _ _ _⟩

theorem Joins.join {one other first second : α} (joined : links.Joins one other)
    (front : one ≠ first) (back : other ≠ second) :
    (links.join first second).Joins one other := by
  obtain ⟨behind, before⟩ := joined
  constructor
  · exact (Function.update_of_ne front _ _).trans behind
  · exact (Function.update_of_ne back _ _).trans before

/-- A chain stays one when a pair is joined of which the first node is at its end or not in
it, and the second one at its start or not in it. -/
theorem isChain_join {first second : α} (chain : nodes.IsChain links.Joins)
    (front : first ∉ nodes.dropLast) (back : second ∉ nodes.tail) :
    nodes.IsChain (links.join first second).Joins := by
  induction nodes with
  | nil => exact .nil
  | cons node nodes ih =>
      cases nodes with
      | nil => exact .singleton node
      | cons other nodes =>
          obtain ⟨joined, rest⟩ := List.isChain_cons_cons.mp chain
          rw [List.dropLast_cons_cons, List.mem_cons, not_or] at front
          rw [List.tail_cons, List.mem_cons, not_or] at back
          refine .cons_cons (joined.join ?_ ?_) (ih rest front.2 ?_)
          · exact fun same => front.1 same.symm
          · exact fun same => back.1 same.symm
          · exact back.2

namespace Ring

/-- A single node is joined to itself. -/
theorem single (node : α) : (links.join node node).Ring [node] := by
  refine ⟨List.nodup_singleton node, .singleton node, ?_⟩
  intro last isLast first isFirst
  cases isLast
  cases isFirst
  exact links.joins_join node node

/-- A node is put in front of the first one. -/
theorem insert {first node : α} {rest : List α} (ring : links.Ring (first :: rest))
    (fresh : node ∉ first :: rest) :
    ((links.join node first).join (links.prev first) node).Ring (node :: first :: rest) := by
  obtain ⟨last, isLast⟩ : ∃ last, (first :: rest).getLast? = some last :=
    ⟨_, List.getLast?_eq_some_getLast (List.cons_ne_nil first rest)⟩
  have isPrev : links.prev first = last := ring.prev_eq rfl isLast
  obtain ⟨front, whole⟩ : ∃ front, first :: rest = front ++ [last] :=
    ⟨_, (List.dropLast_append_getLast? last isLast).symm⟩
  obtain ⟨notRest, -⟩ := List.nodup_cons.mp ring.nodup
  have inside : (first :: rest).IsChain (links.join node first).Joins := by
    refine isChain_join ring.chain ?_ notRest
    exact fun listed => fresh (List.dropLast_subset _ listed)
  have longer : (node :: first :: rest).IsChain (links.join node first).Joins :=
    .cons_cons (links.joins_join node first) inside
  rw [isPrev]
  refine ⟨List.nodup_cons.mpr ⟨fresh, ring.nodup⟩, isChain_join longer ?_ fresh, ?_⟩
  · have others := ring.nodup
    rw [whole, List.nodup_append] at others
    rw [whole] at fresh ⊢
    rw [← List.cons_append, List.dropLast_concat, List.mem_cons, not_or]
    constructor
    · rintro rfl
      exact fresh (List.mem_append_right _ List.mem_cons_self)
    · intro listed
      exact others.2.2 last listed last List.mem_cons_self rfl
  · intro end_ isEnd head isHead
    rw [List.getLast?_cons_cons, isLast] at isEnd
    cases isEnd
    cases isHead
    exact (links.join node first).joins_join last node

/-- The first of several nodes is taken out. -/
theorem remove {node second : α} {rest : List α} (ring : links.Ring (node :: second :: rest)) :
    (links.join (links.prev node) (links.next node)).Ring (second :: rest) := by
  obtain ⟨last, isLast⟩ : ∃ last, (second :: rest).getLast? = some last :=
    ⟨_, List.getLast?_eq_some_getLast (List.cons_ne_nil second rest)⟩
  have isPrev : links.prev node = last := by
    refine ring.prev_eq rfl ?_
    rw [List.getLast?_cons_cons, isLast]
  obtain ⟨joined, chain⟩ := List.isChain_cons_cons.mp ring.chain
  obtain ⟨-, others⟩ := List.nodup_cons.mp ring.nodup
  obtain ⟨front, whole⟩ : ∃ front, second :: rest = front ++ [last] :=
    ⟨_, (List.dropLast_append_getLast? last isLast).symm⟩
  rw [isPrev, joined.1]
  refine ⟨others, isChain_join chain ?_ (List.nodup_cons.mp others).1, ?_⟩
  · rw [whole, List.nodup_append] at others
    rw [whole, List.dropLast_concat]
    intro listed
    exact others.2.2 last listed last List.mem_cons_self rfl
  · intro end_ isEnd head isHead
    rw [isLast] at isEnd
    cases isEnd
    cases isHead
    exact links.joins_join last second

/-- The first node is taken out, and the one behind it is the first, if there is one. -/
theorem takeOut {node : α} {rest : List α} (ring : links.Ring (node :: rest)) :
    (links.join (links.prev node) (links.next node)).Ring rest ∧
      (if links.next node = links.prev node ∧ links.next node = node then none
        else some (links.next node)) = rest.head? := by
  cases rest with
  | nil =>
      obtain ⟨next, prev⟩ := ring.next_of_single
      rw [if_pos ⟨next.trans prev.symm, next⟩]
      exact ⟨⟨List.nodup_nil, .nil, nofun⟩, rfl⟩
  | cons second rest =>
      obtain ⟨joined, -⟩ := List.isChain_cons_cons.mp ring.chain
      rw [if_neg fun itself => ring.next_ne itself.2]
      exact ⟨ring.remove, congrArg some joined.1⟩

end Ring

/-! ## Searching -/

/-- Go on from a node until one is accepted or the next one is `top`. Without an answer
after a number of rounds there is no result. -/
def search (links : Links α) (accepts : α → Bool) (top : α) : Nat → α → Option (Option α)
  | 0, _ => none
  | rounds + 1, node =>
      if accepts node then some (some node)
      else if links.next node = top then some none
      else search links accepts top rounds (links.next node)

theorem search_chain {accepts : α → Bool} {top : α} (rounds : Nat) {node : α} {rest : List α}
    (enough : rest.length < rounds) (chain : (node :: rest).IsChain links.Joins)
    (closed : ∀ last ∈ (node :: rest).getLast?, links.next last = top) (before : top ∉ rest) :
    links.search accepts top rounds node = some ((node :: rest).find? accepts) := by
  induction rounds generalizing node rest with
  | zero => exact absurd enough (Nat.not_lt_zero _)
  | succ rounds ih =>
      unfold search
      cases accepted : accepts node with
      | true => rw [if_pos rfl, List.find?_cons_of_pos accepted]
      | false =>
          rw [if_neg Bool.false_ne_true, List.find?_cons_of_neg (by rw [accepted]; exact nofun)]
          cases rest with
          | nil => rw [if_pos (closed node rfl), List.find?_nil]
          | cons second rest =>
              obtain ⟨joined, behind⟩ := List.isChain_cons_cons.mp chain
              rw [List.mem_cons, not_or] at before
              rw [joined.1, if_neg (fun same => before.1 same.symm)]
              refine ih (Nat.lt_of_succ_lt_succ enough) behind ?_ before.2
              intro last isLast
              refine closed last ?_
              rwa [List.getLast?_cons_cons]

/-- A search from the first node of a ring finds the first one that is accepted. -/
theorem Ring.search_eq {top : α} {rest : List α} (ring : links.Ring (top :: rest))
    (accepts : α → Bool) {rounds : Nat} (enough : rest.length < rounds) :
    links.search accepts top rounds top = some ((top :: rest).find? accepts) := by
  refine search_chain rounds enough ring.chain ?_ (List.nodup_cons.mp ring.nodup).1
  intro last isLast
  exact (ring.closed last isLast top rfl).1

end Links

end Foundation
