import Ossim.Library.BoundedFifo
import Mathlib.Logic.Function.Basic

/-!
# Process queues

`queue_t` is an array of ten process pointers and the number of slots in use.
The operations are translated over the array, loop by loop.  A well-formed
array is then packaged as a `Queue`, whose operations refine the bounded
duplicate-free FIFO list of the library.  The last section follows a queue
through any sequence of calls.
-/

namespace Ossim
namespace Scheduler

/-- `MAX_QUEUE_SIZE`. -/
def maxQueueSize : Nat := 10

/-- `queue_t`: the slots of `proc[MAX_QUEUE_SIZE]` (`none` is `NULL`) and
`size`. -/
structure QueueT (α : Type*) where
  proc : Nat → Option α
  size : Nat

namespace QueueT

/-- A queue whose `size` has been set to zero. -/
def cleared : QueueT α where
  proc := fun _ => none
  size := 0

/-- `empty`. -/
def empty (q : QueueT α) : Bool :=
  q.size == 0

/-- The processes in the slots in use, in the order of the array. -/
def contents (q : QueueT α) : List α :=
  (List.range q.size).filterMap q.proc

/-- `enqueue` of a process pointer that is not `NULL`. -/
def enqueue [DecidableEq α] (q : QueueT α) (proc : α) : QueueT α :=
  if q.size ≥ maxQueueSize then
    q
  else if (List.range q.size).any fun i => q.proc i = some proc then
    q
  else
    { proc := Function.update q.proc q.size (some proc)
      size := q.size + 1 }

/-- The loop of `dequeue` that moves the first `count` slots one place down. -/
def shiftDown (proc : Nat → Option α) : Nat → Nat → Option α
  | 0 => proc
  | count + 1 =>
      let moved := shiftDown proc count
      Function.update moved count (moved (count + 1))

/-- `dequeue`: the removed pointer and the remaining queue. -/
def dequeue (q : QueueT α) : Option α × QueueT α :=
  if q.empty then
    (none, q)
  else
    (q.proc 0,
      { proc := Function.update (shiftDown q.proc (q.size - 1)) (q.size - 1) none
        size := q.size - 1 })

/-- The slots in use hold pairwise distinct processes, at most ten. -/
structure WellFormed (q : QueueT α) : Prop where
  bounded : q.size ≤ maxQueueSize
  filled : ∀ i, i < q.size → (q.proc i).isSome
  distinct : q.contents.Nodup

@[simp] theorem contents_cleared :
    (cleared : QueueT α).contents = [] := rfl

/-- The cleared queue is well formed. -/
theorem wellFormed_cleared : WellFormed (cleared : QueueT α) where
  bounded := Nat.zero_le _
  filled := by simp [cleared]
  distinct := by simp

/-- With every slot in use filled, `size` is the number of processes. -/
theorem length_contents
    {q : QueueT α}
    (filled : ∀ i, i < q.size → (q.proc i).isSome) :
    q.contents.length = q.size := by
  have general : ∀ count, count ≤ q.size →
      ((List.range count).filterMap q.proc).length = count := by
    intro count
    induction count with
    | zero => simp
    | succ count inductionHypothesis =>
        intro bound
        obtain ⟨proc, present⟩ := Option.isSome_iff_exists.mp (filled count bound)
        rw [List.range_succ, List.filterMap_append, List.length_append,
          inductionHypothesis (by omega)]
        simp [present]
  exact general q.size (Nat.le_refl _)

/-- The duplicate scan of `enqueue` finds exactly the queued processes. -/
theorem scan_eq_true_iff [DecidableEq α] (q : QueueT α) (proc : α) :
    ((List.range q.size).any fun i => q.proc i = some proc) = true ↔
      proc ∈ q.contents := by
  simp [contents]

/-- `enqueue` is a push on the contents. -/
theorem contents_enqueue [DecidableEq α]
    {q : QueueT α}
    (wellFormed : q.WellFormed)
    (proc : α) :
    (q.enqueue proc).contents =
      BoundedFifo.push maxQueueSize q.contents proc := by
  have length := length_contents wellFormed.filled
  unfold enqueue
  split
  case isTrue full =>
    rw [BoundedFifo.push_of_full (by omega)]
  case isFalse room =>
    split
    case isTrue present =>
      rw [scan_eq_true_iff] at present
      rw [BoundedFifo.push_of_mem present]
    case isFalse absent =>
      rw [scan_eq_true_iff] at absent
      rw [BoundedFifo.push_of_room (by omega) absent]
      simp only [contents, List.range_succ, List.filterMap_append]
      congr 1
      · apply List.filterMap_congr
        intro i member
        have different : i ≠ q.size := by
          have := List.mem_range.mp member
          omega
        simp [different]
      · simp

/-- `enqueue` keeps a queue well formed. -/
theorem WellFormed.enqueue [DecidableEq α]
    {q : QueueT α}
    (wellFormed : q.WellFormed)
    (proc : α) :
    (q.enqueue proc).WellFormed where
  bounded := by
    have := wellFormed.bounded
    unfold QueueT.enqueue
    split
    · exact this
    · split
      · exact this
      · simp only
        omega
  filled := by
    unfold QueueT.enqueue
    split
    · exact wellFormed.filled
    · split
      · exact wellFormed.filled
      · intro i bound
        by_cases last : i = q.size
        · simp [last]
        · simp only at bound
          simpa [last] using wellFormed.filled i (by omega)
  distinct := by
    rw [contents_enqueue wellFormed]
    exact BoundedFifo.nodup_push wellFormed.distinct _ _

/-- After the loop of `dequeue` each moved slot holds its successor. -/
theorem shiftDown_apply (proc : Nat → Option α) (count i : Nat) :
    shiftDown proc count i = if i < count then proc (i + 1) else proc i := by
  induction count generalizing i with
  | zero => simp [shiftDown]
  | succ count inductionHypothesis =>
      simp only [shiftDown]
      by_cases last : i = count
      · subst last
        rw [Function.update_self, inductionHypothesis, if_neg (by omega),
          if_pos (by omega)]
      · rw [Function.update_of_ne last, inductionHypothesis]
        have : i < count ↔ i < count + 1 := by omega
        simp [this]

/-- What `dequeue` does to an empty queue. -/
theorem dequeue_of_contents_nil
    {q : QueueT α}
    (wellFormed : q.WellFormed)
    (nothing : q.contents = []) :
    q.dequeue = (none, q) := by
  have length := length_contents wellFormed.filled
  simp only [nothing, List.length_nil] at length
  simp [dequeue, empty, ← length]

/-- What `dequeue` does to a queue that is not empty. -/
theorem dequeue_of_contents_cons
    {q : QueueT α}
    (wellFormed : q.WellFormed)
    {proc : α}
    {rest : List α}
    (contents : q.contents = proc :: rest) :
    q.dequeue.1 = some proc ∧ q.dequeue.2.contents = rest := by
  have length := length_contents wellFormed.filled
  simp only [contents, List.length_cons] at length
  have nonempty : q.empty = false := by simp [empty, ← length]
  have split : q.contents =
      (q.proc 0).toList ++ (List.range (q.size - 1)).filterMap
        fun i => q.proc (i + 1) := by
    rw [QueueT.contents, show q.size = (q.size - 1) + 1 by omega,
      List.range_succ_eq_map]
    cases first : q.proc 0 <;>
      simp [first, List.filterMap_map]
  obtain ⟨head, first⟩ :=
    Option.isSome_iff_exists.mp (wellFormed.filled 0 (by omega))
  rw [contents, first] at split
  simp only [Option.toList_some, List.singleton_append, List.cons.injEq] at split
  refine ⟨by simp [dequeue, nonempty, first, split.1], ?_⟩
  rw [split.2]
  simp only [dequeue, nonempty, Bool.false_eq_true, ite_false, QueueT.contents]
  apply List.filterMap_congr
  intro i member
  have bound := List.mem_range.mp member
  rw [Function.update_of_ne (by omega), shiftDown_apply]
  simp [bound]

/-- `dequeue` keeps a queue well formed. -/
theorem WellFormed.dequeue
    {q : QueueT α}
    (wellFormed : q.WellFormed) :
    q.dequeue.2.WellFormed := by
  cases contents : q.contents with
  | nil =>
      rw [dequeue_of_contents_nil wellFormed contents]
      exact wellFormed
  | cons proc rest =>
      have length := length_contents wellFormed.filled
      simp only [contents, List.length_cons] at length
      have nonempty : q.empty = false := by simp [empty, ← length]
      have bounded := wellFormed.bounded
      refine
        { bounded := ?_
          filled := ?_
          distinct := ?_ }
      · simp only [QueueT.dequeue, nonempty, Bool.false_eq_true, ite_false]
        omega
      · simp only [QueueT.dequeue, nonempty, Bool.false_eq_true, ite_false]
        intro i bound
        rw [Function.update_of_ne (by omega), shiftDown_apply]
        simpa [bound] using wellFormed.filled (i + 1) (by omega)
      · rw [(dequeue_of_contents_cons wellFormed contents).2]
        have distinct := wellFormed.distinct
        rw [contents] at distinct
        exact distinct.of_cons

end QueueT

/-! ## Well-formed queues -/

/-- A queue that its own operations can have built. -/
structure Queue (α : Type*) where
  raw : QueueT α
  wellFormed : raw.WellFormed

namespace Queue

/-- The queue of a `size` set to zero. -/
def cleared : Queue α :=
  ⟨QueueT.cleared, QueueT.wellFormed_cleared⟩

/-- The queued processes, oldest first. -/
def contents (q : Queue α) : List α :=
  q.raw.contents

/-- `empty` on a well-formed queue. -/
def empty (q : Queue α) : Bool :=
  q.raw.empty

/-- `enqueue` on a well-formed queue. -/
def enqueue [DecidableEq α] (q : Queue α) (proc : α) : Queue α :=
  ⟨q.raw.enqueue proc, q.wellFormed.enqueue proc⟩

/-- `dequeue` on a well-formed queue. -/
def dequeue (q : Queue α) : Option α × Queue α :=
  (q.raw.dequeue.1, ⟨q.raw.dequeue.2, q.wellFormed.dequeue⟩)

@[simp] theorem contents_cleared : (cleared : Queue α).contents = [] := rfl

/-- No process stands twice in a queue. -/
theorem nodup_contents (q : Queue α) : q.contents.Nodup :=
  q.wellFormed.distinct

/-- A queue never holds more than `MAX_QUEUE_SIZE` processes. -/
theorem length_contents_le (q : Queue α) :
    q.contents.length ≤ maxQueueSize := by
  have := q.wellFormed.bounded
  rw [contents, QueueT.length_contents q.wellFormed.filled]
  exact this

/-- `empty` tests the contents. -/
@[simp] theorem empty_eq_true_iff (q : Queue α) :
    q.empty = true ↔ q.contents = [] := by
  rw [empty, QueueT.empty, contents, beq_iff_eq,
    ← QueueT.length_contents q.wellFormed.filled, List.length_eq_zero_iff]

@[simp] theorem contents_enqueue [DecidableEq α] (q : Queue α) (proc : α) :
    (q.enqueue proc).contents =
      BoundedFifo.push maxQueueSize q.contents proc :=
  QueueT.contents_enqueue q.wellFormed proc

/-- Dequeuing from an empty queue returns `NULL` and changes nothing. -/
theorem dequeue_of_contents_nil
    {q : Queue α}
    (nothing : q.contents = []) :
    q.dequeue = (none, q) := by
  simp [dequeue, QueueT.dequeue_of_contents_nil q.wellFormed nothing]

/-- Dequeuing returns the oldest process and keeps the others in order. -/
theorem dequeue_of_contents_cons
    {q : Queue α}
    {proc : α}
    {rest : List α}
    (contents : q.contents = proc :: rest) :
    q.dequeue.1 = some proc ∧ q.dequeue.2.contents = rest :=
  QueueT.dequeue_of_contents_cons q.wellFormed contents

end Queue

/-! ## Sequences of calls -/

/-- A call on a process queue. -/
inductive QueueCall (α : Type*)
  | enqueue (proc : α)
  | dequeue

namespace QueueT

section Calls

variable [DecidableEq α]

/-- The queue after a call. -/
def perform (q : QueueT α) : QueueCall α → QueueT α
  | .enqueue proc => q.enqueue proc
  | .dequeue => q.dequeue.2

/-- The queue after a sequence of calls. -/
def after : QueueT α → List (QueueCall α) → QueueT α
  | q, [] => q
  | q, call :: calls => (q.perform call).after calls

/-- The processes a call appends: the one of an `enqueue` that adds a slot. -/
def appendedBy (q : QueueT α) : QueueCall α → List α
  | .enqueue proc => if (q.enqueue proc).size = q.size then [] else [proc]
  | .dequeue => []

/-- The processes a call returns. -/
def returnedBy (q : QueueT α) : QueueCall α → List α
  | .enqueue _ => []
  | .dequeue => q.dequeue.1.toList

/-- The processes a sequence of calls appends, in the order of the calls. -/
def appended : QueueT α → List (QueueCall α) → List α
  | _, [] => []
  | q, call :: calls => q.appendedBy call ++ (q.perform call).appended calls

/-- The processes a sequence of calls returns, in the order of the calls. -/
def returned : QueueT α → List (QueueCall α) → List α
  | _, [] => []
  | q, call :: calls => q.returnedBy call ++ (q.perform call).returned calls

omit [DecidableEq α] in
/-- A queue of size zero is well formed, whatever its slots hold. -/
theorem wellFormed_of_size_eq_zero
    {q : QueueT α}
    (unused : q.size = 0) :
    q.WellFormed where
  bounded := by simp [unused]
  filled := by simp [unused]
  distinct := by simp [contents, unused]

/-- Every call keeps a queue well formed. -/
theorem WellFormed.perform
    {q : QueueT α}
    (wellFormed : q.WellFormed)
    (call : QueueCall α) :
    (q.perform call).WellFormed := by
  cases call with
  | enqueue proc => exact wellFormed.enqueue proc
  | dequeue => exact wellFormed.dequeue

/-- A well-formed queue stays so over any sequence of calls. -/
theorem WellFormed.after
    {q : QueueT α}
    (wellFormed : q.WellFormed)
    (calls : List (QueueCall α)) :
    (q.after calls).WellFormed := by
  induction calls generalizing q with
  | nil => exact wellFormed
  | cons call calls inductionHypothesis =>
      exact inductionHypothesis (wellFormed.perform call)

/-- `enqueue` adds a slot exactly for an absent process and a free slot. -/
theorem enqueue_eq (q : QueueT α) (proc : α) :
    q.enqueue proc =
      if q.size < maxQueueSize ∧ proc ∉ q.contents then
        { proc := Function.update q.proc q.size (some proc)
          size := q.size + 1 }
      else
        q := by
  unfold enqueue
  by_cases full : q.size ≥ maxQueueSize
  · rw [if_pos full, if_neg fun room => absurd room.1 (Nat.not_lt.mpr full)]
  · rw [if_neg full]
    by_cases present : proc ∈ q.contents
    · rw [if_pos ((scan_eq_true_iff q proc).mpr present),
        if_neg fun absent => absent.2 present]
    · rw [if_neg fun found => present ((scan_eq_true_iff q proc).mp found),
        if_pos ⟨Nat.not_le.mp full, present⟩]

/-- A call moves processes only from the front of the contents to its result and
from its argument to the end. -/
theorem WellFormed.contents_perform
    {q : QueueT α}
    (wellFormed : q.WellFormed)
    (call : QueueCall α) :
    q.contents ++ q.appendedBy call =
      q.returnedBy call ++ (q.perform call).contents := by
  cases call with
  | enqueue proc =>
      have length := length_contents wellFormed.filled
      simp only [appendedBy, returnedBy, QueueT.perform, List.nil_append]
      rw [contents_enqueue wellFormed, enqueue_eq]
      split
      case isTrue room =>
        rw [BoundedFifo.push_of_room (by omega) room.2]
        simp
      case isFalse refused =>
        have same : BoundedFifo.push maxQueueSize q.contents proc = q.contents := by
          by_cases present : proc ∈ q.contents
          · exact BoundedFifo.push_of_mem present _
          · exact BoundedFifo.push_of_full
              (by rw [length]; exact Nat.not_lt.mp fun room => refused ⟨room, present⟩) _
        simp [same]
  | dequeue =>
      simp only [appendedBy, returnedBy, QueueT.perform, List.append_nil]
      cases contents : q.contents with
      | nil => simp [dequeue_of_contents_nil wellFormed contents, contents]
      | cons proc rest =>
          obtain ⟨oldest, others⟩ := dequeue_of_contents_cons wellFormed contents
          simp [oldest, others]

/-- First in, first out: what was appended is what was returned, then what the
queue still holds. -/
theorem WellFormed.contents_after
    {q : QueueT α}
    (wellFormed : q.WellFormed)
    (calls : List (QueueCall α)) :
    q.contents ++ q.appended calls =
      q.returned calls ++ (q.after calls).contents := by
  induction calls generalizing q with
  | nil => simp [appended, returned, QueueT.after]
  | cons call calls inductionHypothesis =>
      calc q.contents ++ q.appended (call :: calls)
          = (q.contents ++ q.appendedBy call) ++ (q.perform call).appended calls := by
            rw [appended, List.append_assoc]
        _ = q.returnedBy call ++
              ((q.perform call).contents ++ (q.perform call).appended calls) := by
            rw [wellFormed.contents_perform, List.append_assoc]
        _ = q.returned (call :: calls) ++ (q.after (call :: calls)).contents := by
            rw [inductionHypothesis (wellFormed.perform call), returned,
              List.append_assoc]
            rfl

omit [DecidableEq α] in
/-- With every slot in use filled, the contents stand at their slots. -/
theorem getElem?_contents
    {q : QueueT α}
    (filled : ∀ i, i < q.size → (q.proc i).isSome)
    {i : Nat}
    (used : i < q.size) :
    q.contents[i]? = q.proc i := by
  have general : ∀ count, count ≤ q.size → ∀ k, k < count →
      ((List.range count).filterMap q.proc)[k]? = q.proc k := by
    intro count
    induction count with
    | zero => intro _ k below; exact absurd below (Nat.not_lt_zero k)
    | succ count inductionHypothesis =>
        intro bound k below
        have length : ((List.range count).filterMap q.proc).length = count :=
          length_contents (q := ⟨q.proc, count⟩)
            fun i small => filled i (Nat.lt_of_lt_of_le small (Nat.le_of_succ_le bound))
        rw [List.range_succ, List.filterMap_append]
        by_cases last : k = count
        · subst last
          obtain ⟨proc, present⟩ := Option.isSome_iff_exists.mp (filled k (by omega))
          rw [List.getElem?_append_right (by omega)]
          simp [length, present]
        · rw [List.getElem?_append_left (by omega)]
          exact inductionHypothesis (by omega) k (by omega)
  exact general q.size (Nat.le_refl _) i used

omit [DecidableEq α] in
/-- The slots in use hold different processes. -/
theorem WellFormed.proc_injective
    {q : QueueT α}
    (wellFormed : q.WellFormed)
    {i j : Nat}
    (used : i < q.size)
    (used' : j < q.size)
    (same : q.proc i = q.proc j) :
    i = j := by
  have length := length_contents wellFormed.filled
  have equal : q.contents[i]? = q.contents[j]? := by
    rw [getElem?_contents wellFormed.filled used,
      getElem?_contents wellFormed.filled used', same]
  exact (List.getElem?_inj (by omega) wellFormed.distinct).mp equal

omit [DecidableEq α] in
/-- `dequeue` returns `NULL` exactly on an empty queue. -/
theorem WellFormed.dequeue_eq_none_iff
    {q : QueueT α}
    (wellFormed : q.WellFormed) :
    q.dequeue.1 = none ↔ q.size = 0 := by
  have length := length_contents wellFormed.filled
  cases contents : q.contents with
  | nil => simpa [dequeue_of_contents_nil wellFormed contents, contents] using length.symm
  | cons proc rest =>
      obtain ⟨oldest, _⟩ := dequeue_of_contents_cons wellFormed contents
      rw [contents, List.length_cons] at length
      simp [oldest, ← length]

/-- A queue that starts with size zero is a bounded FIFO without duplicates after
every sequence of calls. -/
theorem enqueue_dequeue_after
    {start : QueueT α}
    (unused : start.size = 0)
    (calls : List (QueueCall α)) :
    let q := start.after calls
    (q.size ≤ maxQueueSize ∧
      (∀ i, i < q.size → (q.proc i).isSome) ∧
      ∀ i j, i < q.size → j < q.size → q.proc i = q.proc j → i = j) ∧
    start.appended calls = start.returned calls ++ q.contents ∧
    (∀ proc, q.enqueue proc =
      if q.size < maxQueueSize ∧ ∀ i, i < q.size → q.proc i ≠ some proc then
        { proc := Function.update q.proc q.size (some proc)
          size := q.size + 1 }
      else
        q) ∧
    (q.dequeue.1 = none ↔ q.size = 0) ∧
    (q.size = 0 → q.dequeue.2 = q) ∧
    (∀ proc rest, q.contents = proc :: rest →
      q.dequeue.1 = some proc ∧ q.dequeue.2.contents = rest) := by
  intro q
  have start_wellFormed := wellFormed_of_size_eq_zero unused
  have wellFormed : q.WellFormed := start_wellFormed.after calls
  have history := start_wellFormed.contents_after calls
  rw [show start.contents = [] by simp [contents, unused], List.nil_append] at history
  refine ⟨⟨wellFormed.bounded, wellFormed.filled, ?_⟩, history, ?_,
    wellFormed.dequeue_eq_none_iff, ?_, ?_⟩
  · intro i j used used' same
    exact wellFormed.proc_injective used used' same
  · intro proc
    have absent : proc ∉ q.contents ↔ ∀ i, i < q.size → q.proc i ≠ some proc := by
      simp [contents]
    rw [enqueue_eq]
    simp only [absent]
  · intro zero
    have nothing : q.contents = [] := by simp [contents, zero]
    rw [dequeue_of_contents_nil wellFormed nothing]
  · intro proc rest contents
    exact dequeue_of_contents_cons wellFormed contents

/-- Slots left over from an earlier use do not count: the second process moves to
the front when the first is returned. -/
theorem enqueue_dequeue_after_leftover :
    let q := ({ proc := fun _ => some 7, size := 0 } : QueueT Nat).after
      [.enqueue 3, .enqueue 4, .enqueue 3, .dequeue]
    q.contents = [4] ∧ q.dequeue.1 = some 4 ∧ q.dequeue.2.contents = [] := by
  intro q
  have unused : ({ proc := fun _ => some 7, size := 0 } : QueueT Nat).size = 0 := rfl
  have fifo := enqueue_dequeue_after unused [.enqueue 3, .enqueue 4, .enqueue 3, .dequeue]
  have contents : q.contents = [4] := by decide
  exact ⟨contents, fifo.2.2.2.2.2 4 [] contents⟩

end Calls

end QueueT

end Scheduler
end Ossim
