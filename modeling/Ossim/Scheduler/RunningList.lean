import Ossim.Scheduler.Conservation

/-!
# Which runs of the scheduler keep the running list exact

`add_proc` and `put_proc` enlist a process in `running_list`, and no step of the
scheduler takes it out again: the finish branch of `cpu_routine` frees the
process and leaves its pointer in the list, while `sys_killall` takes the
processes that it frees out of the list.  The list is exact for as long as
nothing has finished and no `add_proc` has met a full list.
-/

namespace Ossim
namespace Scheduler

open Transition

namespace Conservation

variable {C P : Type*} [DecidableEq P]

/-- The running list holds each added and unfinished process once, and nothing
else. -/
def RunningListExact (state : State C P) : Prop :=
  ∀ proc, state.sched.runningList.contents.count proc =
    if state.stage proc = .added then 1 else 0

/-- The steps that keep an exact running list exact: any but the finish branch,
and `add_proc` with fewer than `MAX_QUEUE_SIZE` processes enlisted. -/
def KeepsRunningList (state : State C P) : Event C P → Prop
  | .addProc _ => state.sched.runningList.contents.length < maxQueueSize
  | .finish _ => False
  | _ => True

variable {workload : Workload P} {state next : State C P}

/-- The list never repeats a process, so being exact is about its members. -/
theorem runningListExact_iff_mem :
    RunningListExact state ↔
      ∀ proc, proc ∈ state.sched.runningList.contents ↔ state.stage proc = .added := by
  apply forall_congr'
  intro proc
  have distinct := state.sched.runningList.nodup_contents
  by_cases member : proc ∈ state.sched.runningList.contents
  · simp [List.count_eq_one_of_mem distinct member, member]
  · simp [List.count_eq_zero_of_not_mem member, member]

/-- Two states with the same members and stages are both exact or both not. -/
theorem RunningListExact.congr
    (exact : RunningListExact state)
    (sameList : next.sched.runningList = state.sched.runningList)
    (sameStage : next.stage = state.stage) :
    RunningListExact next := by
  unfold RunningListExact
  rw [sameList, sameStage]
  exact exact

variable [DecidableEq C]

/-- Adding a process enlists it exactly when the list has room. -/
theorem addProc_runningList_iff
    {proc : P}
    (exact : RunningListExact state)
    (taken : step workload state (.addProc proc) = some next) :
    RunningListExact next ↔ KeepsRunningList state (.addProc proc) := by
  simp only [step] at taken
  split at taken <;> cases taken
  rename_i fresh
  rw [runningListExact_iff_mem] at exact ⊢
  have absent : proc ∉ state.sched.runningList.contents := by
    rw [exact proc, fresh]
    simp
  have enlisted : ∀ other,
      other ∈ (state.sched.addProc (workload.prio proc) proc).runningList.contents ↔
        other ∈ state.sched.runningList.contents ∨
          (other = proc ∧ state.sched.runningList.contents.length < maxQueueSize) := by
    intro other
    rw [← BoundedFifo.mem_push, ← Queue.contents_enqueue]
    rfl
  constructor
  · intro exactAfter
    have member := (exactAfter proc).mpr (Function.update_self _ _ _)
    rcases (enlisted proc).mp member with old | ⟨_, room⟩
    · exact absurd old absent
    · exact room
  · intro room other
    rw [enlisted other]
    by_cases same : other = proc
    · subst same
      exact iff_of_true (.inr ⟨rfl, room⟩) (Function.update_self _ _ _)
    · simp [same, exact other]

/-- Putting a process back finds it in an exact list. -/
theorem putProc_runningList
    {cpu : C}
    (placed : state.Placed workload)
    (exact : RunningListExact state)
    (taken : step workload state (.putProc cpu) = some next) :
    RunningListExact next := by
  simp only [step] at taken
  split at taken
  · cases taken
  rename_i proc holds
  cases taken
  have member : proc ∈ state.sched.runningList.contents :=
    (runningListExact_iff_mem.mp exact proc).mpr (placed.heldLive cpu proc holds)
  have unchanged :
      (state.sched.putProc (workload.prio proc) proc).runningList.contents =
        state.sched.runningList.contents := by
    rw [← BoundedFifo.push_of_mem member maxQueueSize, ← Queue.contents_enqueue]
    rfl
  intro other
  rw [unchanged]
  exact exact other

/-- A process that finishes stays in the list. -/
theorem finish_breaks_runningList
    {cpu : C}
    (placed : state.Placed workload)
    (exact : RunningListExact state)
    (taken : step workload state (.finish cpu) = some next) :
    ¬RunningListExact next := by
  simp only [step] at taken
  split at taken
  · cases taken
  split at taken <;> cases taken
  rename_i proc holds finished
  have member : proc ∈ state.sched.runningList.contents :=
    (runningListExact_iff_mem.mp exact proc).mpr (placed.heldLive cpu proc holds)
  intro exactAfter
  have added := (runningListExact_iff_mem.mp exactAfter proc).mp member
  simp at added

/-- Which steps keep an exact list exact. -/
theorem step_runningList_iff
    (event : Event C P)
    (placed : state.Placed workload)
    (exact : RunningListExact state)
    (taken : step workload state event = some next) :
    RunningListExact next ↔ KeepsRunningList state event := by
  cases event with
  | addProc proc => exact addProc_runningList_iff exact taken
  | putProc cpu => exact iff_of_true (putProc_runningList placed exact taken) trivial
  | getProc cpu =>
      obtain ⟨result, fetch, free, after⟩ := fetch_of_getProc taken
      refine iff_of_true (exact.congr fetch.runningList ?_) trivial
      rw [after]
  | finish cpu =>
      exact iff_of_false (finish_breaks_runningList placed exact taken) not_false
  | run cpu =>
      simp only [step] at taken
      split at taken
      · cases taken
      split at taken <;> cases taken
      all_goals exact iff_of_true exact trivial
  | updateSlot prio usedTime =>
      cases taken
      exact iff_of_true exact trivial

/-- In every run of the scheduler the running list stays exact exactly when no
process finishes and no process is added to a full list. -/
theorem runningListExact_iff_keepsRunningList
    (workload : Workload P)
    (events : List (Event C P))
    (last : State C P)
    (reaches : replay (step workload) init events = some last) :
    HoldsAlong (step workload) RunningListExact init events ↔
      PermittedAlong (step workload) KeepsRunningList init events := by
  refine holdsAlong_iff_permittedAlong (State.Placed workload) ?_ events init
    (init_placed workload) ?_ reaches
  · intro state event next placed exact taken
    exact ⟨fun _ => step_placed event placed taken,
      step_runningList_iff event placed exact taken⟩
  · intro proc
    rfl

/-! ## One process that finishes -/

/-- A process of one instruction is added, fetched, run and finished. -/
def oneFinish : List (Event (Fin 1) Nat) :=
  [.addProc 0, .getProc ⟨0, Nat.one_pos⟩, .run ⟨0, Nat.one_pos⟩, .finish ⟨0, Nat.one_pos⟩]

theorem runningListExact_iff_keepsRunningList_oneFinish :
    HoldsAlong (step crowdedWorkload) RunningListExact init oneFinish ↔
      PermittedAlong (step crowdedWorkload) KeepsRunningList init oneFinish :=
  runningListExact_iff_keepsRunningList crowdedWorkload oneFinish _ rfl

/-- The freed process is still in the running list. -/
theorem finished_process_listed :
    ∃ last, replay (step crowdedWorkload) init oneFinish = some last ∧
      last.stage 0 = .finished ∧ 0 ∈ last.sched.runningList.contents ∧
      ¬RunningListExact last := by
  refine ⟨_, rfl, by decide, by decide, fun exact => ?_⟩
  exact absurd (exact 0) (by decide)

end Conservation
end Scheduler
end Ossim
