import Ossim.Scheduler.Queue
import Mathlib.Data.Nat.Find
import Mathlib.Tactic.Ring

/-!
# The multi-level queue scheduler

One ready queue per priority and one slot counter per priority.  `get_mlq_proc`
sweeps over the priorities with an index that wraps around; its loop is
translated with a bound on the number of iterations, and two sweeps are shown
to be enough.
-/

namespace Ossim
namespace Scheduler

/-- `MAX_PRIO`. -/
def maxPrio : Nat := 140

theorem zero_lt_maxPrio : 0 < maxPrio := by decide

/-- The static variables of the scheduler. -/
structure Sched (P : Type*) where
  mlqReadyQueue : Nat → Queue P
  slot : Nat → Int
  runningList : Queue P

namespace Sched

/-- The slots that `reset_slot` hands out. -/
def fullSlot (prio : Nat) : Int :=
  (maxPrio : Int) - prio

/-- `init_scheduler`. -/
def init : Sched P where
  mlqReadyQueue := fun _ => Queue.cleared
  slot := fullSlot
  runningList := Queue.cleared

/-- `get_slot`, and the read access of `update_slot`. -/
def getSlot (sched : Sched P) (prio : Nat) : Int :=
  sched.slot prio

/-- The write access of `update_slot`. -/
def writeSlot (sched : Sched P) (prio : Nat) (value : Int) : Sched P :=
  { sched with slot := Function.update sched.slot prio value }

/-- `update_slot`: both accesses one after the other. -/
def updateSlot (sched : Sched P) (prio : Nat) (usedTime : Int) : Sched P :=
  sched.writeSlot prio (sched.getSlot prio - usedTime)

/-- The loop of `get_mlq_proc`, for at most `fuel` iterations: the priority
whose queue is dequeued (`none` when all queues are empty) and the slots. -/
def sweep (mlqReadyQueue : Nat → Queue P) :
    (fuel currPrio countEmpty : Nat) → (slot : Nat → Int) →
      Option (Option Nat × (Nat → Int))
  | 0, _, _, _ => none
  | fuel + 1, currPrio, countEmpty, slot =>
      if (mlqReadyQueue currPrio).empty = false then
        if 0 < slot currPrio then
          some (some currPrio, slot)
        else if (currPrio + 1) % maxPrio = 0 then
          sweep mlqReadyQueue fuel 0 0 fullSlot
        else
          sweep mlqReadyQueue fuel ((currPrio + 1) % maxPrio) countEmpty slot
      else if countEmpty + 1 = maxPrio then
        some (none, slot)
      else if (currPrio + 1) % maxPrio = 0 then
        sweep mlqReadyQueue fuel 0 0 fullSlot
      else
        sweep mlqReadyQueue fuel ((currPrio + 1) % maxPrio) (countEmpty + 1) slot

/-- The iterations of two sweeps over the priorities. -/
def twoSweeps : Nat := 2 * maxPrio

/-- `get_mlq_proc` and `get_proc`.  `none` would mean that the loop runs longer
than two sweeps. -/
def getMlqProc (sched : Sched P) : Option (Option P × Sched P) :=
  match sweep sched.mlqReadyQueue twoSweeps 0 0 sched.slot with
  | none => none
  | some (none, slot) => some (none, { sched with slot := slot })
  | some (some prio, slot) =>
      let dequeued := (sched.mlqReadyQueue prio).dequeue
      some (dequeued.1,
        { sched with
          mlqReadyQueue := Function.update sched.mlqReadyQueue prio dequeued.2
          slot := slot })

@[simp] theorem writeSlot_mlqReadyQueue
    (sched : Sched P) (prio : Nat) (value : Int) :
    (sched.writeSlot prio value).mlqReadyQueue = sched.mlqReadyQueue := rfl

variable [DecidableEq P]

/-- The section of `put_proc` and `add_proc` that enlists the process in
`running_list`. -/
def enlistRunning (sched : Sched P) (proc : P) : Sched P :=
  { sched with runningList := sched.runningList.enqueue proc }

/-- `put_mlq_proc` and `add_mlq_proc`, for a process of priority `prio`. -/
def putMlqProc (sched : Sched P) (prio : Nat) (proc : P) : Sched P :=
  { sched with
    mlqReadyQueue := Function.update sched.mlqReadyQueue prio
      ((sched.mlqReadyQueue prio).enqueue proc) }

/-- `put_proc`: both sections one after the other. -/
def putProc (sched : Sched P) (prio : Nat) (proc : P) : Sched P :=
  (sched.enlistRunning proc).putMlqProc prio proc

/-- `add_proc`: the same two sections. -/
def addProc (sched : Sched P) (prio : Nat) (proc : P) : Sched P :=
  (sched.enlistRunning proc).putMlqProc prio proc

@[simp] theorem enlistRunning_mlqReadyQueue (sched : Sched P) (proc : P) :
    (sched.enlistRunning proc).mlqReadyQueue = sched.mlqReadyQueue := rfl

@[simp] theorem putMlqProc_mlqReadyQueue
    (sched : Sched P) (prio : Nat) (proc : P) :
    (sched.putMlqProc prio proc).mlqReadyQueue =
      Function.update sched.mlqReadyQueue prio
        ((sched.mlqReadyQueue prio).enqueue proc) := rfl

@[simp] theorem putProc_mlqReadyQueue
    (sched : Sched P) (prio : Nat) (proc : P) :
    (sched.putProc prio proc).mlqReadyQueue =
      Function.update sched.mlqReadyQueue prio
        ((sched.mlqReadyQueue prio).enqueue proc) := rfl

@[simp] theorem addProc_mlqReadyQueue
    (sched : Sched P) (prio : Nat) (proc : P) :
    (sched.addProc prio proc).mlqReadyQueue =
      Function.update sched.mlqReadyQueue prio
        ((sched.mlqReadyQueue prio).enqueue proc) := rfl

omit [DecidableEq P]

/-! ## What the sweep finds -/

section Sweep

variable {mlqReadyQueue : Nat → Queue P}

/-- A priority that the sweep may serve. -/
def Eligible (mlqReadyQueue : Nat → Queue P) (slot : Nat → Int)
    (prio : Nat) : Prop :=
  (mlqReadyQueue prio).contents ≠ [] ∧ 0 < slot prio

theorem empty_eq_false_iff (prio : Nat) :
    (mlqReadyQueue prio).empty = false ↔
      (mlqReadyQueue prio).contents ≠ [] := by
  rw [← Bool.not_eq_true, Queue.empty_eq_true_iff]

/-- Stepping over a priority that cannot be served, inside a sweep. -/
theorem sweep_skip
    {slot : Nat → Int}
    {currPrio countEmpty : Nat}
    (inside : currPrio + 1 < maxPrio)
    (counted : countEmpty ≤ currPrio)
    (skipped : ¬Eligible mlqReadyQueue slot currPrio)
    (fuel : Nat) :
    ∃ counted' ≤ currPrio + 1,
      ((mlqReadyQueue currPrio).contents = [] → counted' = countEmpty + 1) ∧
      ((mlqReadyQueue currPrio).contents ≠ [] → counted' = countEmpty) ∧
      sweep mlqReadyQueue (fuel + 1) currPrio countEmpty slot =
        sweep mlqReadyQueue fuel (currPrio + 1) counted' slot := by
  have next : (currPrio + 1) % maxPrio = currPrio + 1 :=
    Nat.mod_eq_of_lt inside
  by_cases nothing : (mlqReadyQueue currPrio).contents = []
  · refine ⟨countEmpty + 1, by omega, fun _ => rfl, fun some => absurd nothing some, ?_⟩
    rw [sweep, if_neg (by simp [empty_eq_false_iff, nothing]),
      if_neg (by omega), next, if_neg (by omega)]
  · refine ⟨countEmpty, by omega, fun empty => absurd empty nothing, fun _ => rfl, ?_⟩
    have exhausted : ¬0 < slot currPrio := fun positive =>
      skipped ⟨nothing, positive⟩
    rw [sweep, if_pos ((empty_eq_false_iff currPrio).mpr nothing),
      if_neg exhausted, next, if_neg (by omega)]

/-- A sweep finds the first eligible priority ahead of it. -/
theorem sweep_finds
    {slot : Nat → Int}
    {target : Nat}
    (inRange : target < maxPrio)
    (eligible : Eligible mlqReadyQueue slot target) :
    ∀ (distance currPrio countEmpty fuel : Nat),
      currPrio + distance = target →
      countEmpty ≤ currPrio →
      (∀ prio, currPrio ≤ prio → prio < target →
        ¬Eligible mlqReadyQueue slot prio) →
      distance < fuel →
      sweep mlqReadyQueue fuel currPrio countEmpty slot =
        some (some target, slot) := by
  intro distance
  induction distance with
  | zero =>
      rintro currPrio countEmpty fuel reached counted skipped enough
      obtain ⟨fuel, rfl⟩ : ∃ rest, fuel = rest + 1 := ⟨fuel - 1, by omega⟩
      have here : currPrio = target := by omega
      subst here
      rw [sweep, if_pos ((empty_eq_false_iff currPrio).mpr eligible.1),
        if_pos eligible.2]
  | succ distance inductionHypothesis =>
      rintro currPrio countEmpty fuel reached counted skipped enough
      obtain ⟨fuel, rfl⟩ : ∃ rest, fuel = rest + 1 := ⟨fuel - 1, by omega⟩
      obtain ⟨counted', bound, _, _, moves⟩ :=
        sweep_skip (by omega) counted (skipped currPrio (by omega) (by omega)) fuel
      rw [moves]
      exact inductionHypothesis (currPrio + 1) counted' fuel (by omega) bound
        (fun prio lower => skipped prio (by omega)) (by omega)

/-- A sweep over empty queues only ends with `NULL`. -/
theorem sweep_empty
    {slot : Nat → Int} :
    ∀ (distance currPrio fuel : Nat),
      currPrio + distance + 1 = maxPrio →
      (∀ prio, currPrio ≤ prio → prio < maxPrio →
        (mlqReadyQueue prio).contents = []) →
      distance < fuel →
      sweep mlqReadyQueue fuel currPrio currPrio slot = some (none, slot) := by
  intro distance
  induction distance with
  | zero =>
      rintro currPrio fuel reached nothing enough
      obtain ⟨fuel, rfl⟩ : ∃ rest, fuel = rest + 1 := ⟨fuel - 1, by omega⟩
      have here := nothing currPrio (by omega) (by omega)
      rw [sweep, if_neg (by simp [empty_eq_false_iff, here]),
        if_pos (by omega)]
  | succ distance inductionHypothesis =>
      rintro currPrio fuel reached nothing enough
      obtain ⟨fuel, rfl⟩ : ∃ rest, fuel = rest + 1 := ⟨fuel - 1, by omega⟩
      have here := nothing currPrio (by omega) (by omega)
      obtain ⟨counted', _, counts, _, moves⟩ :=
        sweep_skip (by omega) (Nat.le_refl currPrio)
          (fun eligible : Eligible mlqReadyQueue slot currPrio =>
            eligible.1 here) fuel
      rw [moves, counts here]
      exact inductionHypothesis (currPrio + 1) fuel (by omega)
        (fun prio lower => nothing prio (by omega)) (by omega)

/-- A sweep that can serve no priority but has met a process resets the slots
and starts again. -/
theorem sweep_wraps
    {slot : Nat → Int} :
    ∀ (distance currPrio countEmpty fuel : Nat),
      currPrio + distance + 1 = maxPrio →
      countEmpty ≤ currPrio →
      (∀ prio, currPrio ≤ prio → prio < maxPrio →
        ¬Eligible mlqReadyQueue slot prio) →
      (countEmpty < currPrio ∨
        ∃ prio, currPrio ≤ prio ∧ prio < maxPrio ∧
          (mlqReadyQueue prio).contents ≠ []) →
      sweep mlqReadyQueue (distance + 1 + fuel) currPrio countEmpty slot =
        sweep mlqReadyQueue fuel 0 0 fullSlot := by
  intro distance
  induction distance with
  | zero =>
      rintro currPrio countEmpty fuel reached counted skipped met
      have last : (currPrio + 1) % maxPrio = 0 := by
        rw [show currPrio + 1 = maxPrio by omega, Nat.mod_self]
      rw [show 0 + 1 + fuel = fuel + 1 by omega, sweep]
      by_cases nothing : (mlqReadyQueue currPrio).contents = []
      · have fewer : countEmpty < currPrio := by
          rcases met with fewer | ⟨prio, lower, upper, some⟩
          · exact fewer
          · have here : prio = currPrio := by omega
            exact absurd (here ▸ nothing) some
        rw [if_neg (by simp [empty_eq_false_iff, nothing]),
          if_neg (by omega), if_pos last]
      · have exhausted : ¬0 < slot currPrio := fun positive =>
          skipped currPrio (Nat.le_refl _) (by omega) ⟨nothing, positive⟩
        rw [if_pos ((empty_eq_false_iff currPrio).mpr nothing),
          if_neg exhausted, if_pos last]
  | succ distance inductionHypothesis =>
      rintro currPrio countEmpty fuel reached counted skipped met
      rw [show distance + 1 + 1 + fuel = (distance + 1 + fuel) + 1 by omega]
      obtain ⟨counted', bound, whenEmpty, whenFull, moves⟩ :=
        sweep_skip (by omega) counted
          (skipped currPrio (Nat.le_refl _) (by omega)) (distance + 1 + fuel)
      rw [moves]
      refine inductionHypothesis (currPrio + 1) counted' fuel (by omega) bound
        (fun prio lower => skipped prio (by omega)) ?_
      by_cases nothing : (mlqReadyQueue currPrio).contents = []
      · have := whenEmpty nothing
        rcases met with fewer | ⟨prio, lower, upper, some⟩
        · exact .inl (by omega)
        · have different : prio ≠ currPrio := fun here =>
            some (here ▸ nothing)
          exact .inr ⟨prio, by omega, upper, some⟩
      · have := whenFull nothing
        exact .inl (by omega)

end Sweep

/-! ## What `get_mlq_proc` returns -/

/-- The scheduler after the head of one ready queue has been dequeued. -/
def serve (sched : Sched P) (prio : Nat) : Sched P :=
  { sched with
    mlqReadyQueue := Function.update sched.mlqReadyQueue prio
      (sched.mlqReadyQueue prio).dequeue.2 }

/-- `reset_slot`. -/
def resetSlot (sched : Sched P) : Sched P :=
  { sched with slot := fullSlot }

/-- With every ready queue empty, `get_mlq_proc` returns `NULL` and changes
nothing. -/
theorem getMlqProc_of_empty
    {sched : Sched P}
    (nothing : ∀ prio, prio < maxPrio →
      (sched.mlqReadyQueue prio).contents = []) :
    sched.getMlqProc = some (none, sched) := by
  have swept : sweep sched.mlqReadyQueue twoSweeps 0 0 sched.slot =
      some (none, sched.slot) :=
    sweep_empty (maxPrio - 1) 0 twoSweeps (by decide)
      (fun prio _ => nothing prio) (by decide)
  simp [getMlqProc, swept]

/-- The lowest-numbered eligible queue is served, without touching the slots. -/
theorem getMlqProc_of_eligible
    {sched : Sched P}
    {prio : Nat}
    (inRange : prio < maxPrio)
    (eligible : Eligible sched.mlqReadyQueue sched.slot prio)
    (first : ∀ lower, lower < prio →
      ¬Eligible sched.mlqReadyQueue sched.slot lower) :
    sched.getMlqProc =
      some ((sched.mlqReadyQueue prio).dequeue.1, sched.serve prio) := by
  have swept : sweep sched.mlqReadyQueue twoSweeps 0 0 sched.slot =
      some (some prio, sched.slot) :=
    sweep_finds inRange eligible prio 0 0 twoSweeps (by omega) (Nat.le_refl 0)
      (fun lower _ => first lower) (by simp only [twoSweeps]; omega)
  simp [getMlqProc, swept, serve]

/-- When only exhausted queues hold processes, the slots are reset and the
lowest-numbered queue that is not empty is served. -/
theorem getMlqProc_of_exhausted
    {sched : Sched P}
    {prio : Nat}
    (inRange : prio < maxPrio)
    (occupied : (sched.mlqReadyQueue prio).contents ≠ [])
    (first : ∀ lower, lower < prio →
      (sched.mlqReadyQueue lower).contents = [])
    (exhausted : ∀ other, other < maxPrio →
      ¬Eligible sched.mlqReadyQueue sched.slot other) :
    sched.getMlqProc =
      some ((sched.mlqReadyQueue prio).dequeue.1,
        (sched.resetSlot).serve prio) := by
  have wrapped : sweep sched.mlqReadyQueue twoSweeps 0 0 sched.slot =
      sweep sched.mlqReadyQueue maxPrio 0 0 fullSlot :=
    sweep_wraps (maxPrio - 1) 0 0 maxPrio (by decide) (Nat.le_refl 0)
      (fun other _ => exhausted other)
      (.inr ⟨prio, Nat.zero_le _, inRange, occupied⟩)
  have positive : 0 < fullSlot prio := by
    simp only [fullSlot]
    omega
  have swept : sweep sched.mlqReadyQueue maxPrio 0 0 fullSlot =
      some (some prio, fullSlot) :=
    sweep_finds inRange ⟨occupied, positive⟩ prio 0 0 maxPrio (by omega)
      (Nat.le_refl 0) (fun lower _ below eligible => eligible.1 (first lower below))
      inRange
  simp [getMlqProc, wrapped, swept, serve, resetSlot]

/-! ## Resets -/

/-- Whether the loop of `get_mlq_proc` calls `reset_slot`, by the same tests. -/
def sweepResets (mlqReadyQueue : Nat → Queue P) :
    (fuel currPrio countEmpty : Nat) → (slot : Nat → Int) → Bool
  | 0, _, _, _ => false
  | fuel + 1, currPrio, countEmpty, slot =>
      if (mlqReadyQueue currPrio).empty = false then
        if 0 < slot currPrio then
          false
        else if (currPrio + 1) % maxPrio = 0 then
          true
        else
          sweepResets mlqReadyQueue fuel ((currPrio + 1) % maxPrio) countEmpty slot
      else if countEmpty + 1 = maxPrio then
        false
      else if (currPrio + 1) % maxPrio = 0 then
        true
      else
        sweepResets mlqReadyQueue fuel ((currPrio + 1) % maxPrio) (countEmpty + 1) slot

/-- A call of `get_mlq_proc` in this state calls `reset_slot`. -/
def resets (sched : Sched P) : Bool :=
  sweepResets sched.mlqReadyQueue twoSweeps 0 0 sched.slot

/-- The sweep changes the slots by resets only. -/
theorem sweep_slot
    {mlqReadyQueue : Nat → Queue P}
    {fuel currPrio countEmpty : Nat}
    {slot slot' : Nat → Int}
    {result : Option Nat}
    (swept : sweep mlqReadyQueue fuel currPrio countEmpty slot = some (result, slot')) :
    slot' = if sweepResets mlqReadyQueue fuel currPrio countEmpty slot then fullSlot else slot := by
  induction fuel generalizing currPrio countEmpty slot with
  | zero => cases swept
  | succ fuel inductionHypothesis =>
      -- behind a reset the slots are full, and stay so
      have full : sweep mlqReadyQueue fuel 0 0 fullSlot = some (result, slot') →
          slot' = fullSlot := by
        intro sweptAgain
        have after := inductionHypothesis sweptAgain
        rwa [ite_self] at after
      unfold sweep at swept
      unfold sweepResets
      split at swept
      case isTrue occupied =>
        rw [if_pos occupied]
        split at swept
        case isTrue positive =>
          cases swept
          rw [if_pos positive]
          rfl
        case isFalse exhausted =>
          rw [if_neg exhausted]
          split at swept
          case isTrue wraps =>
            rw [if_pos wraps]
            exact full swept
          case isFalse inside =>
            rw [if_neg inside]
            exact inductionHypothesis swept
      case isFalse nothing =>
        rw [if_neg nothing]
        split at swept
        case isTrue all =>
          cases swept
          rw [if_pos all]
          rfl
        case isFalse notAll =>
          rw [if_neg notAll]
          split at swept
          case isTrue wraps =>
            rw [if_pos wraps]
            exact full swept
          case isFalse inside =>
            rw [if_neg inside]
            exact inductionHypothesis swept

/-- `get_mlq_proc` changes the slots by resets only. -/
theorem getMlqProc_slot
    {sched next : Sched P}
    {result : Option P}
    (fetched : sched.getMlqProc = some (result, next)) :
    next.slot = if sched.resets then fullSlot else sched.slot := by
  unfold getMlqProc at fetched
  split at fetched
  · cases fetched
  · rename_i slot swept
    cases fetched
    exact sweep_slot swept
  · rename_i prio slot swept
    cases fetched
    exact sweep_slot swept

/-! ## The policy -/

/-- `next` is `sched` after `proc` has been dequeued from the ready queue of
one priority, whatever has become of the slots. -/
structure Dequeued
    (sched : Sched P)
    (prio : Nat)
    (proc : P)
    (next : Sched P) : Prop where
  inRange : prio < maxPrio
  head :
    (sched.mlqReadyQueue prio).contents =
      proc :: (next.mlqReadyQueue prio).contents
  others : ∀ other, other ≠ prio →
    next.mlqReadyQueue other = sched.mlqReadyQueue other
  running : next.runningList = sched.runningList

/-- Serving an occupied queue dequeues its head. -/
theorem dequeued_serve
    (sched base : Sched P)
    {prio : Nat}
    (sameQueues : base.mlqReadyQueue = sched.mlqReadyQueue)
    (sameRunning : base.runningList = sched.runningList)
    (inRange : prio < maxPrio)
    (occupied : (sched.mlqReadyQueue prio).contents ≠ []) :
    ∃ proc, (sched.mlqReadyQueue prio).dequeue.1 = some proc ∧
      Dequeued sched prio proc (base.serve prio) := by
  obtain ⟨proc, rest, head⟩ := List.exists_cons_of_ne_nil occupied
  obtain ⟨popped, remaining⟩ := Queue.dequeue_of_contents_cons head
  refine ⟨proc, popped, inRange, ?_, ?_, sameRunning⟩
  · simp [serve, sameQueues, remaining, head]
  · intro other different
    simp [serve, sameQueues, different]

/-- The queue that the policy serves: the first occupied one with a positive
slot, and without such a queue the first occupied one of all, with fresh
slots. -/
inductive Policy (sched : Sched P) : Option P → Sched P → Prop
  | idle
      (nothing : ∀ prio, prio < maxPrio →
        (sched.mlqReadyQueue prio).contents = []) :
      Policy sched none sched
  | positive (prio : Nat) (proc : P) (next : Sched P)
      (dequeued : Dequeued sched prio proc next)
      (positive : 0 < sched.slot prio)
      (first : ∀ lower, lower < prio →
        (sched.mlqReadyQueue lower).contents ≠ [] → sched.slot lower ≤ 0)
      (slots : next.slot = sched.slot) :
      Policy sched (some proc) next
  | refilled (prio : Nat) (proc : P) (next : Sched P)
      (dequeued : Dequeued sched prio proc next)
      (exhausted : ∀ other, other < maxPrio →
        (sched.mlqReadyQueue other).contents ≠ [] → sched.slot other ≤ 0)
      (first : ∀ lower, lower < prio →
        (sched.mlqReadyQueue lower).contents = [])
      (slots : next.slot = fullSlot) :
      Policy sched (some proc) next

/-- The policy finds a process exactly when some ready queue is occupied. -/
theorem Policy.eq_none_iff
    {sched next : Sched P}
    {result : Option P}
    (policy : Policy sched result next) :
    result = none ↔ ∀ prio, prio < maxPrio →
      (sched.mlqReadyQueue prio).contents = [] := by
  cases policy with
  | idle nothing => exact iff_of_true rfl nothing
  | positive prio proc next dequeued _ _ _ =>
      refine iff_of_false (by simp) fun nothing => ?_
      have head := dequeued.head
      rw [nothing prio dequeued.inRange] at head
      exact absurd head (by simp)
  | refilled prio proc next dequeued _ _ _ =>
      refine iff_of_false (by simp) fun nothing => ?_
      have head := dequeued.head
      rw [nothing prio dequeued.inRange] at head
      exact absurd head (by simp)

/-- `get_mlq_proc` always ends within two sweeps, with what the policy says. -/
theorem getMlqProc_serves (sched : Sched P) :
    ∃ result next, sched.getMlqProc = some (result, next) ∧
      Policy sched result next := by
  classical
  by_cases someEligible : ∃ prio, prio < maxPrio ∧
      Eligible sched.mlqReadyQueue sched.slot prio
  · obtain ⟨inRange, eligible⟩ := Nat.find_spec someEligible
    have first : ∀ lower, lower < Nat.find someEligible →
        ¬Eligible sched.mlqReadyQueue sched.slot lower := by
      intro lower below holds
      exact Nat.find_min someEligible below ⟨by omega, holds⟩
    obtain ⟨proc, popped, dequeued⟩ :=
      dequeued_serve sched sched rfl rfl inRange eligible.1
    refine ⟨some proc, _, popped ▸ getMlqProc_of_eligible inRange eligible first,
      Policy.positive _ proc _ dequeued eligible.2 ?_ rfl⟩
    intro lower below occupied
    exact not_lt.mp fun positive => first lower below ⟨occupied, positive⟩
  · have exhausted : ∀ prio, prio < maxPrio →
        ¬Eligible sched.mlqReadyQueue sched.slot prio :=
      fun prio inRange eligible => someEligible ⟨prio, inRange, eligible⟩
    by_cases someOccupied : ∃ prio, prio < maxPrio ∧
        (sched.mlqReadyQueue prio).contents ≠ []
    · obtain ⟨inRange, occupied⟩ := Nat.find_spec someOccupied
      have first : ∀ lower, lower < Nat.find someOccupied →
          (sched.mlqReadyQueue lower).contents = [] := by
        intro lower below
        by_contra holds
        exact Nat.find_min someOccupied below ⟨by omega, holds⟩
      obtain ⟨proc, popped, dequeued⟩ :=
        dequeued_serve sched sched.resetSlot rfl rfl inRange occupied
      refine ⟨some proc, _, popped ▸ getMlqProc_of_exhausted inRange occupied first exhausted,
        Policy.refilled _ proc _ dequeued ?_ first rfl⟩
      intro other inRange occupied
      exact not_lt.mp fun positive => exhausted other inRange ⟨occupied, positive⟩
    · have nothing : ∀ prio, prio < maxPrio →
          (sched.mlqReadyQueue prio).contents = [] := by
        intro prio inRange
        by_contra occupied
        exact someOccupied ⟨prio, inRange, occupied⟩
      exact ⟨none, sched, getMlqProc_of_empty nothing, Policy.idle nothing⟩

/-- `get_mlq_proc` ends within two sweeps and implements the policy, for every
content of the ready queues and every slot table. -/
theorem getMlqProc_policy (sched : Sched P) :
    ∃ result next, sched.getMlqProc = some (result, next) ∧
      Policy sched result next ∧
      (result = none ↔ ∀ prio, prio < maxPrio →
        (sched.mlqReadyQueue prio).contents = []) := by
  obtain ⟨result, next, fetched, policy⟩ := getMlqProc_serves sched
  exact ⟨result, next, fetched, policy, policy.eq_none_iff⟩

/-! ## What a fetch leaves behind -/

/-- The possible results of `get_mlq_proc`. -/
inductive Fetch (sched : Sched P) : Option P → Sched P → Prop
  | idle
      (nothing : ∀ prio, prio < maxPrio →
        (sched.mlqReadyQueue prio).contents = []) :
      Fetch sched none sched
  | served (prio : Nat) (proc : P) (rest : List P) (next : Sched P)
      (inRange : prio < maxPrio)
      (head : (sched.mlqReadyQueue prio).contents = proc :: rest)
      (tail : (next.mlqReadyQueue prio).contents = rest)
      (others : ∀ other, other ≠ prio →
        next.mlqReadyQueue other = sched.mlqReadyQueue other)
      (running : next.runningList = sched.runningList)
      (positive : 0 < next.slot prio)
      (slots : next.slot = sched.slot ∨ next.slot = fullSlot) :
      Fetch sched (some proc) next

/-- Fetching puts nothing into a queue. -/
theorem Fetch.mem
    {sched next : Sched P}
    {result : Option P}
    (fetch : Fetch sched result next)
    {proc : P}
    {level : Nat}
    (present : proc ∈ (next.mlqReadyQueue level).contents) :
    proc ∈ (sched.mlqReadyQueue level).contents := by
  cases fetch with
  | idle nothing => exact present
  | served prio head rest _ inRange contents tail others running positive slots =>
      by_cases same : level = prio
      · subst same
        rw [tail] at present
        simp [contents, present]
      · rwa [others level same] at present

/-- Fetching leaves the running list alone. -/
theorem Fetch.runningList
    {sched next : Sched P}
    {result : Option P}
    (fetch : Fetch sched result next) :
    next.runningList = sched.runningList := by
  cases fetch with
  | idle nothing => rfl
  | served prio proc rest _ inRange head tail others running positive slots =>
      exact running

/-- Whatever the policy serves has a positive slot afterwards. -/
theorem Policy.fetch
    {sched next : Sched P}
    {result : Option P}
    (policy : Policy sched result next) :
    Fetch sched result next := by
  cases policy with
  | idle nothing => exact Fetch.idle nothing
  | positive prio proc next dequeued positive first slots =>
      exact Fetch.served prio proc _ next dequeued.inRange dequeued.head rfl
        dequeued.others dequeued.running (slots ▸ positive) (.inl slots)
  | refilled prio proc next dequeued exhausted first slots =>
      have inRange := dequeued.inRange
      have positive : 0 < next.slot prio := by
        rw [slots, fullSlot]
        omega
      exact Fetch.served prio proc _ next dequeued.inRange dequeued.head rfl
        dequeued.others dequeued.running positive (.inr slots)

/-- `get_mlq_proc` always ends within two sweeps, and what it does is one of the
possible results. -/
theorem getMlqProc_fetch (sched : Sched P) :
    ∃ result next, sched.getMlqProc = some (result, next) ∧
      Fetch sched result next := by
  obtain ⟨result, next, fetched, policy⟩ := getMlqProc_serves sched
  exact ⟨result, next, fetched, policy.fetch⟩

/-- Inversion of `get_mlq_proc`. -/
theorem fetch_of_getMlqProc
    {sched next : Sched P}
    {result : Option P}
    (fetched : sched.getMlqProc = some (result, next)) :
    Fetch sched result next := by
  obtain ⟨result', next', fetched', fetch⟩ := getMlqProc_fetch sched
  rw [fetched] at fetched'
  simp only [Option.some.injEq, Prod.mk.injEq] at fetched'
  obtain ⟨rfl, rfl⟩ := fetched'
  exact fetch

end Sched

end Scheduler
end Ossim
