import Ossim.Library.LinkedList
import Ossim.Library.Transition
import Ossim.Memory.Mm

/-!
# The list of the mapped pages

`enlist_pgn_node` and `find_victim_page` over the nodes of `fifo_pgn` and their
pointers.  New pages go to the head of the list and victims leave at its end,
which the loop of `find_victim_page` looks for with two nodes ahead of it.  The
operations refine those on the list of pages in an address space, and together
they are a queue.
-/

namespace Ossim
namespace Memory

open LinkedList Transition

/-- `fifo_pgn`, its nodes of type `struct pgn_t`, and how many nodes there are. -/
structure PageList where
  fifoPgn : Option Nat
  heap : Heap Pgn
  allocated : Nat

namespace PageList

/-- The pointer `NULL`. -/
def null : PageList where
  fifoPgn := none
  heap := fun _ => none
  allocated := 0

/-- The listed pages, the newest first. -/
def pages (list : PageList) : List Pgn :=
  values list.heap list.allocated list.fifoPgn

/-- `enlist_pgn_node` with the node that `malloc` has returned, which is not one
that is in use. -/
def enlistPgnNode (list : PageList) (pgn : Pgn) (pnode : Nat) : Option PageList :=
  match list.heap pnode with
  | some _ => none
  | none =>
      some
        { fifoPgn := some pnode
          heap := Function.update list.heap pnode (some ⟨pgn, list.fifoPgn⟩)
          allocated := list.allocated + 1 }

/-- The loop of `find_victim_page`, for at most as many iterations: the address of
the last node but one, with the number of the page in the last one.  `none`
stands for more iterations, and for a read through `NULL` or a freed pointer. -/
def secondLast (heap : Heap Pgn) : Nat → Nat → Option (Nat × Node Pgn × Nat × Pgn)
  | 0, _ => none
  | count + 1, pg => do
      let node ← heap pg
      let pgNext ← node.next
      let next ← heap pgNext
      match next.next with
      | some _ => secondLast heap count pgNext
      | none => some (pg, node, pgNext, next.value)

/-- `find_victim_page`: the return code, `*retpgn` and the list afterwards. -/
def findVictimPage (list : PageList) : Option (Int × Option Pgn × PageList) :=
  match list.fifoPgn with
  | none => some (-1, none, list)
  | some pg => do
      let node ← list.heap pg
      match node.next with
      | none =>
          some (0, some node.value,
            { fifoPgn := none
              heap := Function.update list.heap pg none
              allocated := list.allocated - 1 })
      | some _ =>
          let (pg, node, last, retpgn) ← secondLast list.heap list.allocated pg
          some (0, some retpgn,
            { list with
              heap := Function.update (Function.update list.heap last none) pg
                (some { node with next := none })
              allocated := list.allocated - 1 })

/-- The pointers lead through all the nodes, and these are the given ones. -/
abbrev WellFormed (list : PageList) (cells : List (Cell Pgn)) : Prop :=
  IsList list.heap list.fifoPgn list.allocated cells

variable {list next : PageList} {cells : List (Cell Pgn)} {pgn : Pgn} {pnode : Nat}

theorem pages_eq
    (wellFormed : WellFormed list cells) :
    list.pages = cells.map Prod.snd :=
  wellFormed.values_eq

/-- A new page becomes the head of the list. -/
theorem wellFormed_enlistPgnNode
    (wellFormed : WellFormed list cells)
    (enlisted : list.enlistPgnNode pgn pnode = some next) :
    WellFormed next ((pnode, pgn) :: cells) := by
  unfold PageList.enlistPgnNode at enlisted
  cases fresh : list.heap pnode with
  | some node => simp [fresh] at enlisted
  | none =>
      simp only [fresh, Option.some.injEq] at enlisted
      subst enlisted
      exact wellFormed.push fresh pgn

/-- A list of two nodes or more starts with a node that has a successor. -/
theorem firstTwo
    {heap : Heap Pgn}
    {pointer : Option Nat}
    {front : List (Cell Pgn)}
    {last : Nat}
    {value retpgn : Pgn}
    (linked : Linked heap pointer (front ++ [(pnode, value), (last, retpgn)])) :
    ∃ pg first pgNext, pointer = some pg ∧ heap pg = some ⟨first, some pgNext⟩ := by
  cases front with
  | nil =>
      obtain ⟨here, _, node, rfl, _⟩ := linked
      exact ⟨pnode, value, last, here, node⟩
  | cons cell front =>
      obtain ⟨here, next, node, rest⟩ := linked
      cases front with
      | nil => exact ⟨cell.1, cell.2, pnode, here, rest.1 ▸ node⟩
      | cons second front => exact ⟨cell.1, cell.2, second.1, here, rest.1 ▸ node⟩

/-- The loop stops at the last node but one. -/
theorem secondLast_of_linked
    {heap : Heap Pgn}
    {front : List (Cell Pgn)}
    {pg last count : Nat}
    {value retpgn : Pgn}
    (linked : Linked heap (some pg) (front ++ [(pnode, value), (last, retpgn)]))
    (enough : front.length < count) :
    secondLast heap count pg = some (pnode, ⟨value, some last⟩, last, retpgn) := by
  induction front generalizing pg count with
  | nil =>
      obtain ⟨count, rfl⟩ : ∃ fewer, count = fewer + 1 := ⟨count - 1, by omega⟩
      obtain ⟨here, _, node, rfl, _, lastNode, rfl⟩ := linked
      cases here
      simp [secondLast, node, lastNode]
  | cons cell front inductionHypothesis =>
      rw [List.length_cons] at enough
      obtain ⟨count, rfl⟩ : ∃ fewer, count = fewer + 1 := ⟨count - 1, by omega⟩
      obtain ⟨here, next, node, rest⟩ := linked
      cases here
      obtain ⟨pgNext, first, after, rfl, nextNode⟩ := firstTwo rest
      have moved := inductionHypothesis rest (show front.length < count by omega)
      simpa [secondLast, node, nextNode] using moved

/-- With one node the list becomes empty. -/
theorem findVictimPage_single
    (wellFormed : WellFormed list [(pnode, pgn)]) :
    ∃ next, list.findVictimPage = some (0, some pgn, next) ∧ WellFormed next [] := by
  obtain ⟨here, _, node, rfl⟩ := wellFormed.linked
  let next : PageList :=
    { fifoPgn := none
      heap := Function.update list.heap pnode none
      allocated := list.allocated - 1 }
  exact ⟨next, by simp [findVictimPage, here, node, next], wellFormed.tail node⟩

/-- With more nodes the last one leaves the list. -/
theorem findVictimPage_more
    {front : List (Cell Pgn)}
    {last : Nat}
    {value : Pgn}
    (wellFormed : WellFormed list (front ++ [(pnode, value), (last, pgn)])) :
    ∃ next, list.findVictimPage = some (0, some pgn, next) ∧
      WellFormed next (front ++ [(pnode, value)]) := by
  have counted := wellFormed.counted
  rw [List.length_append, List.length_cons, List.length_singleton] at counted
  obtain ⟨pg, first, after, here, node⟩ := firstTwo wellFormed.linked
  have linked := wellFormed.linked
  rw [here] at linked
  have found := secondLast_of_linked linked (show front.length < list.allocated by omega)
  let next : PageList :=
    { list with
      heap := Function.update (Function.update list.heap last none) pnode (some ⟨value, none⟩)
      allocated := list.allocated - 1 }
  obtain ⟨_, _, _, rfl, _, lastNode, rfl⟩ := wellFormed.linked.split
  exact ⟨next, by simp [findVictimPage, here, node, found, next], wellFormed.unlink lastNode⟩

/-- `find_victim_page` fails on the empty list only and then changes nothing;
otherwise it takes the oldest page off the list. -/
theorem findVictimPage_cases
    (wellFormed : WellFormed list cells) :
    (cells = [] ∧ list.findVictimPage = some (-1, none, list)) ∨
      ∃ younger oldest next, cells = younger ++ [oldest] ∧
        list.findVictimPage = some (0, some oldest.2, next) ∧ WellFormed next younger := by
  rcases List.eq_nil_or_concat cells with rfl | ⟨younger, oldest, rfl⟩
  · refine .inl ⟨rfl, ?_⟩
    rw [findVictimPage, segment_nil.mp wellFormed.linked]
  · rw [List.concat_eq_append] at wellFormed ⊢
    refine .inr ⟨younger, oldest, ?_⟩
    rcases List.eq_nil_or_concat younger with rfl | ⟨front, second, rfl⟩
    · obtain ⟨next, found, after⟩ := findVictimPage_single wellFormed
      exact ⟨next, rfl, found, after⟩
    · rw [List.concat_eq_append, List.append_assoc, List.singleton_append] at wellFormed
      obtain ⟨next, found, after⟩ := findVictimPage_more wellFormed
      rw [List.concat_eq_append]
      exact ⟨next, rfl, found, after⟩

/-! ## The list of an address space -/

/-- Enlisting a page is the operation on the list of pages. -/
theorem enlistPgnNode_refines
    {mm : Mm}
    (wellFormed : WellFormed list cells)
    (represents : list.pages = mm.fifoPgn)
    (enlisted : list.enlistPgnNode pgn pnode = some next) :
    next.pages = (mm.enlistPgnNode pgn).fifoPgn := by
  rw [pages_eq (wellFormed_enlistPgnNode wellFormed enlisted), List.map_cons, ← pages_eq wellFormed,
    represents, Mm.enlistPgnNode_fifoPgn]

/-- `find_victim_page` finds the victim that the list of pages has, and leaves the
same pages. -/
theorem findVictimPage_refines
    {mm : Mm}
    (wellFormed : WellFormed list cells)
    (represents : list.pages = mm.fifoPgn) :
    ∃ rc retpgn next, list.findVictimPage = some (rc, retpgn, next) ∧
      Memory.findVictimPage mm =
        retpgn.map fun pgn => (pgn, { mm with fifoPgn := next.pages }) := by
  rw [pages_eq wellFormed] at represents
  rcases findVictimPage_cases wellFormed with ⟨rfl, failed⟩ |
    ⟨younger, oldest, next, rfl, found, after⟩
  · exact ⟨-1, none, list, failed, findVictimPage_eq_none_iff.mpr represents.symm⟩
  · refine ⟨0, some oldest.2, next, found, ?_⟩
    rw [Option.map_some, findVictimPage_eq_some_iff]
    refine ⟨next.pages, ?_, rfl⟩
    rw [pages_eq after, ← represents, List.map_append, List.map_singleton]

/-! ## Runs -/

/-- A list, the pages that have been enlisted on it, and those that
`find_victim_page` has returned, each the first one first. -/
structure History where
  list : PageList
  enlisted : List Pgn
  returned : List Pgn

/-- A call on the list; `malloc` chooses the address of a new node. -/
inductive Call
  | enlistPgnNode (pgn : Pgn) (pnode : Nat)
  | findVictimPage

/-- No page has been enlisted. -/
def History.start : History where
  list := null
  enlisted := []
  returned := []

/-- A call with its record. -/
def History.step (history : History) : Call → Option History
  | .enlistPgnNode pgn pnode =>
      (history.list.enlistPgnNode pgn pnode).map fun list =>
        { history with
          list := list
          enlisted := history.enlisted ++ [pgn] }
  | .findVictimPage =>
      history.list.findVictimPage.map fun (_, retpgn, list) =>
        { history with
          list := list
          returned := history.returned ++ retpgn.toList }

/-- The pages that have not been returned are in the list, the newest first. -/
structure Fifo (history : History) : Prop where
  wellFormed : ∃ cells, WellFormed history.list cells
  enlisted : history.enlisted = history.returned ++ history.list.pages.reverse

theorem fifo_start : Fifo History.start :=
  ⟨⟨[], IsList.null _⟩, rfl⟩

/-- Each call keeps the order. -/
theorem Fifo.step
    {history after : History}
    {call : Call}
    (fifo : Fifo history)
    (called : history.step call = some after) :
    Fifo after := by
  obtain ⟨⟨cells, wellFormed⟩, enlisted⟩ := fifo
  cases call with
  | enlistPgnNode pgn pnode =>
      obtain ⟨list, taken, rfl⟩ := Option.map_eq_some_iff.mp called
      have listed := wellFormed_enlistPgnNode wellFormed taken
      refine ⟨⟨_, listed⟩, ?_⟩
      dsimp only
      rw [pages_eq listed, List.map_cons, ← pages_eq wellFormed, List.reverse_cons, enlisted,
        List.append_assoc]
  | findVictimPage =>
      rcases findVictimPage_cases wellFormed with ⟨_, failed⟩ |
        ⟨younger, oldest, next, rfl, found, listed⟩
      · simp only [History.step, failed, Option.map_some, Option.some.injEq] at called
        subst called
        exact ⟨⟨cells, wellFormed⟩, by simpa using enlisted⟩
      · simp only [History.step, found, Option.map_some, Option.some.injEq] at called
        subst called
        refine ⟨⟨younger, listed⟩, ?_⟩
        dsimp only
        rw [enlisted, pages_eq wellFormed, pages_eq listed]
        simp

/-- After every sequence of calls the pages returned so far are, in order, the
first of those enlisted, and the others are in the list in their order.  The next
`find_victim_page` has a result: it returns -1, and then leaves the list as it is,
exactly when every enlisted page has been returned. -/
theorem replacement_fifo
    {history : History}
    (run : Run History.step anyEvent History.start history) :
    history.returned <+: history.enlisted ∧
      history.enlisted = history.returned ++ history.list.pages.reverse ∧
      ∃ rc retpgn next, history.list.findVictimPage = some (rc, retpgn, next) ∧
        (rc = -1 ∨ rc = 0) ∧ (rc = -1 ↔ history.returned = history.enlisted) ∧
        (rc = -1 → retpgn = none ∧ next = history.list) := by
  have fifo := run.invariant Fifo (fun _ _ _ fifo _ called => fifo.step called) fifo_start
  obtain ⟨⟨cells, wellFormed⟩, enlisted⟩ := fifo
  refine ⟨⟨_, enlisted.symm⟩, enlisted, ?_⟩
  have drained : history.returned = history.enlisted ↔ cells = [] := by
    rw [enlisted, List.self_eq_append_right, List.reverse_eq_nil_iff, pages_eq wellFormed,
      List.map_eq_nil_iff]
  rcases findVictimPage_cases wellFormed with ⟨empty, failed⟩ |
    ⟨younger, oldest, next, rfl, found, _⟩
  · exact ⟨-1, none, history.list, failed, .inl rfl, iff_of_true rfl (drained.mpr empty),
      fun _ => ⟨rfl, rfl⟩⟩
  · refine ⟨0, some oldest.2, next, found, .inr rfl, iff_of_false (by decide) ?_, ?_⟩
    · intro same
      simpa using drained.mp same
    · intro failed
      cases failed

/-- Three pages are enlisted, and two of them leave the list in between; the second
victim is found by the loop. -/
theorem replacement_fifo_threePages :
    ∃ history, replay History.step History.start
        [.enlistPgnNode 5 0, .findVictimPage, .enlistPgnNode 7 0, .enlistPgnNode 6 1,
          .enlistPgnNode 5 2, .findVictimPage] = some history ∧
      history.returned = [5, 7] ∧ history.enlisted = [5, 7, 6, 5] ∧
      history.returned <+: history.enlisted ∧
      history.enlisted = history.returned ++ history.list.pages.reverse ∧
      ∃ rc retpgn next, history.list.findVictimPage = some (rc, retpgn, next) ∧
        (rc = -1 ∨ rc = 0) ∧ (rc = -1 ↔ history.returned = history.enlisted) ∧
        (rc = -1 → retpgn = none ∧ next = history.list) := by
  obtain ⟨history, reaches, returned, enlisted⟩ := exists_of_evaluated
    (show (replay History.step History.start
        [.enlistPgnNode 5 0, .findVictimPage, .enlistPgnNode 7 0, .enlistPgnNode 6 1,
          .enlistPgnNode 5 2, .findVictimPage]).map (fun history => decide
      (history.returned = [5, 7] ∧ history.enlisted = [5, 7, 6, 5])) = some true
      by decide +kernel)
  exact ⟨history, reaches, returned, enlisted,
    replacement_fifo (Run.of_replay_any _ reaches)⟩

end PageList

end Memory
end Ossim
