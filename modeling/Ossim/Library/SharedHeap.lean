import Ossim.Library.LinkedList

/-!
# Lists of several owners in one heap

Several owners keep linked lists in one heap.  The list of an owner consists of the nodes
that it has linked itself.  The pointer after the last of them may hold anything, also the
address of a node that somebody else uses or that is free.  As long as the nodes in use are
on one list each, an owner that changes its own nodes and free ones does not change the
lists of the others.
-/

namespace Ossim
namespace LinkedList

variable {ι α : Type*}

/-- The heads lead through the nodes of their owners.  These nodes are in use, and each of
them is on one list once. -/
structure Owned (heap : Heap α) (live : Nat → Bool) (heads : ι → Option Nat)
    (cells : ι → List (Cell α)) : Prop where
  leads : ∀ owner, ∃ after, Segment heap (heads owner) (cells owner) after
  live : ∀ owner, ∀ cell ∈ cells owner, live cell.1 = true
  distinct : ∀ owner, ((cells owner).map Prod.fst).Nodup
  apart : ∀ owner other, other ≠ owner → ∀ cell ∈ cells owner,
    cell.1 ∉ (cells other).map Prod.fst

namespace Owned

variable {heap heap' : Heap α} {live live' : Nat → Bool} {heads heads' : ι → Option Nat}
  {cells : ι → List (Cell α)}

/-- Lists without nodes. -/
theorem empty (heap : Heap α) (live : Nat → Bool) (heads : ι → Option Nat) :
    Owned heap live heads fun _ => [] where
  leads := fun owner => ⟨heads owner, rfl⟩
  live := by simp
  distinct := fun _ => List.nodup_nil
  apart := by simp

/-- A node that is not in use is on no list. -/
theorem notMem
    (owned : Owned heap live heads cells)
    {addr : Nat}
    (unused : live addr = false)
    (owner : ι) :
    addr ∉ (cells owner).map Prod.fst := by
  intro member
  obtain ⟨cell, isCell, rfl⟩ := List.mem_map.mp member
  rw [owned.live owner cell isCell] at unused
  cases unused

/-- The lists read their own nodes only. -/
theorem congr
    (owned : Owned heap live heads cells)
    (same : ∀ owner, ∀ cell ∈ cells owner,
      heap' cell.1 = heap cell.1 ∧ live' cell.1 = true) :
    Owned heap' live' heads cells where
  leads := by
    intro owner
    obtain ⟨after, segment⟩ := owned.leads owner
    exact ⟨after, segment.congr fun cell member => (same owner cell member).1⟩
  live := fun owner cell member => (same owner cell member).2
  distinct := owned.distinct
  apart := owned.apart

/-- A node on no list is assigned. -/
theorem assign
    (owned : Owned heap live heads cells)
    {addr : Nat}
    (absent : ∀ owner, addr ∉ (cells owner).map Prod.fst)
    (node : Option (Node α)) :
    Owned (Function.update heap addr node) live heads cells := by
  refine owned.congr fun owner cell member => ⟨?_, owned.live owner cell member⟩
  refine Function.update_of_ne ?_ _ _
  rintro rfl
  exact absent owner (List.mem_map_of_mem member)

variable [DecidableEq ι]

/-- An owner changes its list and leaves the nodes of the others. -/
theorem update
    (owned : Owned heap live heads cells)
    (owner : ι)
    {own : List (Cell α)}
    (leads : ∃ after, Segment heap' (heads' owner) own after)
    (sameHeads : ∀ other, other ≠ owner → heads' other = heads other)
    (distinct : (own.map Prod.fst).Nodup)
    (used : ∀ cell ∈ own, live' cell.1 = true)
    (separate : ∀ cell ∈ own, ∀ other, other ≠ owner → cell.1 ∉ (cells other).map Prod.fst)
    (others : ∀ other, other ≠ owner → ∀ cell ∈ cells other,
      heap' cell.1 = heap cell.1 ∧ live' cell.1 = true) :
    Owned heap' live' heads' (Function.update cells owner own) where
  leads := by
    intro other
    by_cases same : other = owner
    · subst same
      rwa [Function.update_self]
    · obtain ⟨after, segment⟩ := owned.leads other
      rw [Function.update_of_ne same, sameHeads other same]
      exact ⟨after, segment.congr fun cell member => (others other same cell member).1⟩
  live := by
    intro other cell member
    by_cases same : other = owner
    · subst same
      rw [Function.update_self] at member
      exact used cell member
    · rw [Function.update_of_ne same] at member
      exact (others other same cell member).2
  distinct := by
    intro other
    by_cases same : other = owner
    · subst same
      rwa [Function.update_self]
    · rw [Function.update_of_ne same]
      exact owned.distinct other
  apart := by
    intro one other different cell member
    by_cases isOwner : one = owner
    · subst isOwner
      rw [Function.update_self] at member
      rw [Function.update_of_ne different]
      exact separate cell member other different
    · rw [Function.update_of_ne isOwner] at member
      by_cases otherIsOwner : other = owner
      · subst otherIsOwner
        rw [Function.update_self]
        intro inOwn
        obtain ⟨ownCell, isOwn, same⟩ := List.mem_map.mp inOwn
        exact separate ownCell isOwn one isOwner (same ▸ List.mem_map_of_mem member)
      · rw [Function.update_of_ne otherIsOwner]
        exact owned.apart one other different cell member

/-- An owner changes the nodes of its list only, and keeps some of them. -/
theorem rearrange
    (owned : Owned heap live heads cells)
    (owner : ι)
    {own : List (Cell α)}
    (leads : ∃ after, Segment heap' (heads' owner) own after)
    (sameHeads : ∀ other, other ≠ owner → heads' other = heads other)
    (distinct : (own.map Prod.fst).Nodup)
    (subset : own.map Prod.fst ⊆ (cells owner).map Prod.fst)
    (used : ∀ addr ∈ own.map Prod.fst, live' addr = live addr)
    (others : ∀ addr, addr ∉ (cells owner).map Prod.fst →
      heap' addr = heap addr ∧ live' addr = live addr) :
    Owned heap' live' heads' (Function.update cells owner own) := by
  have isOld : ∀ cell ∈ own, ∃ old ∈ cells owner, old.1 = cell.1 := fun cell member =>
    List.mem_map.mp (subset (List.mem_map_of_mem member))
  refine owned.update owner leads sameHeads distinct ?_ ?_ ?_
  · intro cell member
    obtain ⟨old, inOld, same⟩ := isOld cell member
    rw [used cell.1 (List.mem_map_of_mem member), ← same]
    exact owned.live owner old inOld
  · intro cell member other different
    obtain ⟨old, inOld, same⟩ := isOld cell member
    rw [← same]
    exact owned.apart owner other different old inOld
  · intro other different cell member
    obtain ⟨sameNode, sameLive⟩ :=
      others cell.1 (owned.apart other owner different.symm cell member)
    exact ⟨sameNode, sameLive.trans (owned.live other cell member)⟩

end Owned

end LinkedList
end Ossim
