import Mathlib.Logic.Function.Basic

/-!
# Linked lists with an end that may be uninitialised

The last node of a C list has a next pointer that is `NULL`, or one that was
never assigned.  A chain is the list of the nodes together with a flag for the
second case.  An operation that would follow, or compare with `NULL`, a pointer
that was never assigned has no result.
-/

namespace Ossim

/-- A singly linked list. -/
structure Chain (α : Type*) where
  /-- The contents of the nodes, the head first. -/
  nodes : List α
  /-- The pointer after the last node was never assigned. -/
  wild : Bool
  deriving DecidableEq

namespace Chain

variable {α : Type*}

/-- The pointer `NULL`. -/
def null : Chain α := ⟨[], false⟩

/-- A pointer that was never assigned. -/
def unset : Chain α := ⟨[], true⟩

/-- The chain of a node whose next pointer is the given chain. -/
def cons (value : α) (chain : Chain α) : Chain α :=
  { chain with nodes := value :: chain.nodes }

/-- Put a new node in front of the chain, but leave its next pointer unassigned
if the chain is `NULL`. -/
def push (value : α) (chain : Chain α) : Option (Chain α) :=
  match chain.nodes, chain.wild with
  | _ :: _, _ => some (chain.cons value)
  | [], false => some ⟨[value], true⟩
  | [], true => none

/-- The head and its next pointer; the inner `none` stands for `NULL`. -/
def uncons (chain : Chain α) : Option (Option (α × Chain α)) :=
  match chain.nodes, chain.wild with
  | value :: rest, wild => some (some (value, ⟨rest, wild⟩))
  | [], false => some none
  | [], true => none

@[simp] theorem nodes_null : (null : Chain α).nodes = [] := rfl

@[simp] theorem nodes_unset : (unset : Chain α).nodes = [] := rfl

@[simp] theorem nodes_cons (value : α) (chain : Chain α) :
    (chain.cons value).nodes = value :: chain.nodes := rfl

theorem nodes_of_push
    {value : α}
    {chain result : Chain α}
    (pushed : chain.push value = some result) :
    result.nodes = value :: chain.nodes := by
  unfold push at pushed
  split at pushed
  · cases pushed
    rfl
  · rename_i empty _
    cases pushed
    simp [empty]
  · cases pushed

theorem nodes_of_uncons_none
    {chain : Chain α}
    (isNull : chain.uncons = some none) :
    chain.nodes = [] := by
  unfold uncons at isNull
  split at isNull
  · cases isNull
  · assumption
  · cases isNull

theorem eq_null_of_uncons
    {chain : Chain α}
    (isNull : chain.uncons = some none) :
    chain = null := by
  unfold uncons at isNull
  split at isNull
  · cases isNull
  · rename_i nodes wild
    cases chain
    simp only at nodes wild
    rw [nodes, wild, null]
  · cases isNull

theorem nodes_of_uncons_some
    {chain rest : Chain α}
    {value : α}
    (head : chain.uncons = some (some (value, rest))) :
    chain.nodes = value :: rest.nodes := by
  unfold uncons at head
  split at head
  · cases head
    assumption
  · cases head
  · cases head

theorem uncons_of_nodes
    {chain : Chain α}
    {value : α}
    {rest : List α}
    (nodes : chain.nodes = value :: rest) :
    chain.uncons = some (some (value, ⟨rest, chain.wild⟩)) := by
  simp [uncons, nodes]

end Chain
end Ossim
