import Mathlib.Data.List.Nodup
import Mathlib.Logic.Function.Basic

/-!
# Singly linked lists in a heap

A node has an address, and a pointer is the address of a node or `NULL`.  The
predicate `Segment` relates a pointer to the nodes that it leads to, with their
addresses, up to some other pointer.  An operation on a list is a few
assignments to the heap; each rule says which list the assignments leave.
-/

namespace Ossim
namespace LinkedList

variable {α : Type*}

/-- A node; the pointer `none` is `NULL`. -/
structure Node (α : Type*) where
  value : α
  next : Option Nat

/-- The allocated nodes by their addresses. -/
abbrev Heap (α : Type*) := Nat → Option (Node α)

/-- A node of a list with its address. -/
abbrev Cell (α : Type*) := Nat × α

/-- The first pointer leads to these nodes, and the last of them to the other
pointer. -/
def Segment (heap : Heap α) : Option Nat → List (Cell α) → Option Nat → Prop
  | pointer, [], after => pointer = after
  | pointer, (addr, value) :: cells, after =>
      pointer = some addr ∧ ∃ next, heap addr = some ⟨value, next⟩ ∧
        Segment heap next cells after

/-- The pointer leads to these nodes, and after the last of them to `NULL`. -/
def Linked (heap : Heap α) (pointer : Option Nat) (cells : List (Cell α)) : Prop :=
  Segment heap pointer cells none

/-- The values from a pointer on, for at most as many nodes. -/
def values (heap : Heap α) : Nat → Option Nat → List α
  | 0, _ => []
  | _ + 1, none => []
  | count + 1, some addr =>
      match heap addr with
      | none => []
      | some node => node.value :: values heap count node.next

variable {heap heap' : Heap α} {pointer after next : Option Nat} {addr prev : Nat}
  {value other : α} {cells front back : List (Cell α)}

@[simp] theorem segment_nil : Segment heap pointer [] after ↔ pointer = after := Iff.rfl

@[simp] theorem segment_cons :
    Segment heap pointer ((addr, value) :: cells) after ↔
      pointer = some addr ∧ ∃ next, heap addr = some ⟨value, next⟩ ∧
        Segment heap next cells after :=
  Iff.rfl

/-- Segments compose. -/
theorem segment_append :
    Segment heap pointer (front ++ back) after ↔
      ∃ middle, Segment heap pointer front middle ∧ Segment heap middle back after := by
  induction front generalizing pointer with
  | nil => simp
  | cons cell front inductionHypothesis =>
      obtain ⟨addr, value⟩ := cell
      simp only [List.cons_append, segment_cons, inductionHypothesis]
      constructor
      · rintro ⟨here, next, node, middle, first, second⟩
        exact ⟨middle, ⟨here, next, node, first⟩, second⟩
      · rintro ⟨middle, ⟨here, next, node, first⟩, second⟩
        exact ⟨here, next, node, middle, first, second⟩

namespace Segment

/-- A segment reads its own nodes only. -/
theorem congr
    (segment : Segment heap pointer cells after)
    (same : ∀ cell ∈ cells, heap' cell.1 = heap cell.1) :
    Segment heap' pointer cells after := by
  induction cells generalizing pointer with
  | nil => exact segment
  | cons cell cells inductionHypothesis =>
      obtain ⟨here, next, node, rest⟩ := segment
      refine ⟨here, next, ?_, inductionHypothesis rest fun other member =>
        same other (List.mem_cons_of_mem _ member)⟩
      rw [← node]
      exact same cell (List.mem_cons_self ..)

/-- An assignment to a node of no segment. -/
theorem update
    (segment : Segment heap pointer cells after)
    (absent : addr ∉ cells.map Prod.fst)
    (node : Option (Node α)) :
    Segment (Function.update heap addr node) pointer cells after := by
  apply segment.congr
  intro cell member
  apply Function.update_of_ne
  rintro rfl
  exact absent (List.mem_map_of_mem member)

/-- The nodes of a segment are allocated. -/
theorem isSome_of_mem
    (segment : Segment heap pointer cells after)
    {cell : Cell α}
    (member : cell ∈ cells) :
    (heap cell.1).isSome = true := by
  induction cells generalizing pointer with
  | nil => cases member
  | cons first cells inductionHypothesis =>
      obtain ⟨_, next, node, rest⟩ := segment
      rcases List.mem_cons.mp member with rfl | later
      · rw [node, Option.isSome_some]
      · exact inductionHypothesis rest later

/-- A node that is not allocated is not in the segment. -/
theorem notMem
    (segment : Segment heap pointer cells after)
    (fresh : heap addr = none) :
    addr ∉ cells.map Prod.fst := by
  intro member
  obtain ⟨cell, isCell, rfl⟩ := List.mem_map.mp member
  have allocated := segment.isSome_of_mem isCell
  rw [fresh] at allocated
  cases allocated

/-- The node at a position of the segment, and the segments before and after it. -/
theorem split
    (segment : Segment heap pointer (front ++ (addr, value) :: back) after) :
    Segment heap pointer front (some addr) ∧
      ∃ next, heap addr = some ⟨value, next⟩ ∧ Segment heap next back after := by
  obtain ⟨_, first, rfl, next, node, rest⟩ := segment_append.mp segment
  exact ⟨first, next, node, rest⟩

/-- A node gets another value. -/
theorem setValue
    (segment : Segment heap pointer (front ++ (addr, value) :: back) after)
    (distinct : ((front ++ (addr, value) :: back).map Prod.fst).Nodup)
    (node : heap addr = some ⟨value, next⟩) :
    Segment (Function.update heap addr (some ⟨other, next⟩)) pointer
      (front ++ (addr, other) :: back) after := by
  rw [List.map_append, List.map_cons, List.nodup_middle, List.nodup_cons, List.mem_append,
    not_or] at distinct
  obtain ⟨⟨offFront, offBack⟩, _⟩ := distinct
  obtain ⟨first, _, node', rest⟩ := segment.split
  obtain rfl : _ = next := (Node.mk.inj (Option.some.inj (node'.symm.trans node))).2
  exact segment_append.mpr ⟨some addr, first.update offFront _, rfl, _,
    Function.update_self _ _ _, rest.update offBack _⟩

/-- A node that is unlinked is not among the others. -/
theorem notMem_of_unlinked
    (distinct : ((front ++ (prev, other) :: (addr, value) :: back).map Prod.fst).Nodup) :
    addr ∉ (front ++ (prev, other) :: back).map Prod.fst := by
  rw [List.append_cons, List.map_append, List.map_cons, List.nodup_middle, List.nodup_cons,
    ← List.map_append, List.append_assoc, List.singleton_append] at distinct
  exact distinct.1

/-- A node is unlinked from the one before it. -/
theorem unlink
    (segment : Segment heap pointer (front ++ (prev, other) :: (addr, value) :: back) after)
    (distinct : ((front ++ (prev, other) :: (addr, value) :: back).map Prod.fst).Nodup)
    (node : heap addr = some ⟨value, next⟩) :
    Segment (Function.update heap prev (some ⟨other, next⟩)) pointer
      (front ++ (prev, other) :: back) after := by
  rw [List.map_append, List.map_cons, List.nodup_middle, List.nodup_cons, List.mem_append,
    not_or] at distinct
  obtain ⟨⟨offFront, offBehind⟩, _⟩ := distinct
  obtain ⟨first, _, _, rfl, _, node', rest⟩ := segment.split
  obtain rfl : _ = next := (Node.mk.inj (Option.some.inj (node'.symm.trans node))).2
  refine segment_append.mpr ⟨some prev, first.update offFront _, rfl, _,
    Function.update_self _ _ _, rest.update ?_ _⟩
  exact fun member => offBehind (List.mem_cons_of_mem _ member)

end Segment

namespace Linked

/-- A pointer leads to one list only. -/
theorem unique
    {cells' : List (Cell α)}
    (linked : Linked heap pointer cells)
    (linked' : Linked heap pointer cells') :
    cells = cells' := by
  induction cells generalizing pointer cells' with
  | nil =>
      cases cells' with
      | nil => rfl
      | cons cell cells' =>
          have isNull : pointer = none := linked
          rw [isNull] at linked'
          cases linked'.1
  | cons cell cells inductionHypothesis =>
      obtain ⟨rfl, next, node, rest⟩ := linked
      cases cells' with
      | nil => cases segment_nil.mp linked'
      | cons cell' cells' =>
          obtain ⟨same, next', node', rest'⟩ := linked'
          obtain ⟨addr, value⟩ := cell
          obtain ⟨addr', value'⟩ := cell'
          obtain rfl : addr = addr' := Option.some.inj same
          simp only [node, Option.some.injEq, Node.mk.injEq] at node'
          obtain ⟨rfl, rfl⟩ := node'
          rw [inductionHypothesis rest rest']

/-- A list that ends visits no node twice. -/
theorem nodup
    (linked : Linked heap pointer cells) :
    (cells.map Prod.fst).Nodup := by
  induction cells generalizing pointer with
  | nil => exact List.nodup_nil
  | cons cell cells inductionHypothesis =>
      obtain ⟨here, next, node, rest⟩ := linked
      refine List.nodup_cons.mpr ⟨?_, inductionHypothesis rest⟩
      intro visited
      obtain ⟨other, member, same⟩ := List.mem_map.mp visited
      obtain ⟨front, back, rfl⟩ := List.append_of_mem member
      obtain ⟨middle, _, second⟩ := segment_append.mp rest
      have samePointer : pointer = middle := by rw [here, second.1, same]
      have first : Linked heap pointer (cell :: (front ++ other :: back)) :=
        ⟨here, next, node, rest⟩
      have again : Linked heap pointer (other :: back) := samePointer ▸ second
      -- the list from the second visit on would be the whole list
      have whole := first.unique again
      have lengths := congrArg List.length whole
      simp only [List.length_cons, List.length_append] at lengths
      omega

/-- A new node in front of the list. -/
theorem push
    (linked : Linked heap pointer cells)
    (fresh : heap addr = none)
    (value : α) :
    Linked (Function.update heap addr (some ⟨value, pointer⟩)) (some addr)
      ((addr, value) :: cells) :=
  ⟨rfl, pointer, Function.update_self _ _ _, Segment.update linked (Segment.notMem linked fresh) _⟩

/-- The head of the list is freed. -/
theorem tail
    (linked : Linked heap pointer ((addr, value) :: cells))
    (distinct : (((addr, value) :: cells).map Prod.fst).Nodup)
    (node : heap addr = some ⟨value, next⟩) :
    Linked (Function.update heap addr none) next cells := by
  obtain ⟨_, _, node', rest⟩ := linked
  obtain rfl : _ = next := (Node.mk.inj (Option.some.inj (node'.symm.trans node))).2
  exact Segment.update rest (List.nodup_cons.mp distinct).1 _

/-- A node is unlinked from the one before it, and freed. -/
theorem unlink
    (linked : Linked heap pointer (front ++ (prev, other) :: (addr, value) :: back))
    (distinct : ((front ++ (prev, other) :: (addr, value) :: back).map Prod.fst).Nodup)
    (node : heap addr = some ⟨value, next⟩) :
    Linked (Function.update (Function.update heap addr none) prev (some ⟨other, next⟩)) pointer
      (front ++ (prev, other) :: back) := by
  have absent := Segment.notMem_of_unlinked distinct
  have different : addr ≠ prev := by
    rintro rfl
    exact absent (by simp)
  rw [Function.update_comm different]
  exact Segment.update (Segment.unlink linked distinct node) absent none

end Linked

/-! ## Whole lists -/

/-- The pointer leads through all the allocated nodes, through each of them once. -/
structure IsList (heap : Heap α) (pointer : Option Nat) (count : Nat) (cells : List (Cell α)) :
    Prop where
  linked : Linked heap pointer cells
  distinct : (cells.map Prod.fst).Nodup
  counted : cells.length = count

namespace IsList

variable {count : Nat}

theorem null (heap : Heap α) : IsList heap none 0 [] where
  linked := rfl
  distinct := List.nodup_nil
  counted := rfl

theorem push
    (isList : IsList heap pointer count cells)
    (fresh : heap addr = none)
    (value : α) :
    IsList (Function.update heap addr (some ⟨value, pointer⟩)) (some addr) (count + 1)
      ((addr, value) :: cells) where
  linked := isList.linked.push fresh value
  distinct := List.nodup_cons.mpr ⟨isList.linked.notMem fresh, isList.distinct⟩
  counted := by simp [isList.counted]

theorem setValue
    (isList : IsList heap pointer count (front ++ (addr, value) :: back))
    (node : heap addr = some ⟨value, next⟩)
    (other : α) :
    IsList (Function.update heap addr (some ⟨other, next⟩)) pointer count
      (front ++ (addr, other) :: back) where
  linked := isList.linked.setValue isList.distinct node
  distinct := by simpa using isList.distinct
  counted := by simpa using isList.counted

theorem tail
    (isList : IsList heap pointer count ((addr, value) :: cells))
    (node : heap addr = some ⟨value, next⟩) :
    IsList (Function.update heap addr none) next (count - 1) cells where
  linked := isList.linked.tail isList.distinct node
  distinct := (List.nodup_cons.mp isList.distinct).2
  counted := by simp [← isList.counted]

theorem unlink
    (isList : IsList heap pointer count (front ++ (prev, other) :: (addr, value) :: back))
    (node : heap addr = some ⟨value, next⟩) :
    IsList (Function.update (Function.update heap addr none) prev (some ⟨other, next⟩)) pointer
      (count - 1) (front ++ (prev, other) :: back) where
  linked := isList.linked.unlink isList.distinct node
  distinct := by
    refine List.Nodup.sublist ?_ isList.distinct
    exact (((List.sublist_cons_self _ _).cons_cons _).append_left front).map Prod.fst
  counted := by
    have counted := isList.counted
    simp only [List.length_append, List.length_cons] at counted ⊢
    omega

/-- The values that are read are those of the nodes. -/
theorem values_eq
    (isList : IsList heap pointer count cells) :
    values heap count pointer = cells.map Prod.snd := by
  obtain ⟨linked, distinct, rfl⟩ := isList
  clear distinct
  induction cells generalizing pointer with
  | nil =>
      rw [segment_nil.mp linked]
      rfl
  | cons cell cells inductionHypothesis =>
      obtain ⟨rfl, next, node, rest⟩ := linked
      rw [List.length_cons, values, node]
      exact congrArg _ (inductionHypothesis rest)

end IsList

end LinkedList
end Ossim
