import Ossim.Library.Transition
import Ossim.Scheduler.Placement
import Mathlib.Data.List.Count

/-!
# Which runs of the scheduler lose no process

Any number of CPUs take the steps of `add_proc`, `get_proc`, `run`, `put_proc`
and the finish branch of `cpu_routine` in any order.  `enqueue` refuses a
process when its ready queue is full, and neither `add_proc` nor `put_proc`
looks at the outcome: a run keeps every process in one place exactly when none
of its steps meets a full queue.
-/

namespace Ossim
namespace Scheduler

open Transition

namespace Conservation

/-- The scheduler, the process each CPU holds in its variable `proc`, and the
program counters. -/
structure State (C P : Type*) where
  sched : Sched P
  held : C → Option P
  pc : P → Nat
  stage : P → Stage

/-- The steps between which the processes are located. -/
inductive Event (C P : Type*)
  | addProc (proc : P)
  | getProc (cpu : C)
  | run (cpu : C)
  | putProc (cpu : C)
  | updateSlot (prio : Nat) (usedTime : Int)
  | finish (cpu : C)

/-- The state after `init_scheduler`. -/
def init : State C P where
  sched := Sched.init
  held := fun _ => none
  pc := fun _ => 0
  stage := fun _ => .new

variable [DecidableEq C] [DecidableEq P]

/-- One step of the scheduler and its CPUs. -/
def step (workload : Workload P) (state : State C P) :
    Event C P → Option (State C P)
  | .addProc proc =>
      if state.stage proc = .new then
        some { state with
          sched := state.sched.addProc (workload.prio proc) proc
          stage := Function.update state.stage proc .added }
      else
        none
  | .getProc cpu =>
      match state.held cpu, state.sched.getMlqProc with
      | none, some (result, sched) =>
          some { state with
            sched := sched
            held := Function.update state.held cpu result }
      | _, _ => none
  | .run cpu =>
      match state.held cpu with
      | none => none
      | some proc =>
          if workload.codeSize proc ≤ state.pc proc then
            some state
          else
            some { state with
              pc := Function.update state.pc proc (state.pc proc + 1) }
  | .putProc cpu =>
      match state.held cpu with
      | none => none
      | some proc =>
          some { state with
            sched := state.sched.putProc (workload.prio proc) proc
            held := Function.update state.held cpu none }
  | .updateSlot prio usedTime =>
      some { state with sched := state.sched.updateSlot prio usedTime }
  | .finish cpu =>
      match state.held cpu with
      | none => none
      | some proc =>
          if state.pc proc = workload.codeSize proc then
            some { state with
              held := Function.update state.held cpu none
              stage := Function.update state.stage proc .finished }
          else
            none

/-- The process has been added and has not finished. -/
def State.Live (state : State C P) (proc : P) : Prop :=
  state.stage proc = .added

/-- A process held by exactly one CPU, or standing exactly once in the ready
queue of its priority and in no other. -/
def Located (workload : Workload P) (state : State C P) (proc : P) : Prop :=
  ((∃! cpu, state.held cpu = some proc) ∧
      ∀ level, proc ∉ (state.sched.mlqReadyQueue level).contents) ∨
    ((∀ cpu, state.held cpu ≠ some proc) ∧
      (state.sched.mlqReadyQueue (workload.prio proc)).contents.count proc = 1 ∧
      ∀ level, level ≠ workload.prio proc →
        proc ∉ (state.sched.mlqReadyQueue level).contents)

/-- Every added and unfinished process is located. -/
def NoProcessLost (workload : Workload P) (state : State C P) : Prop :=
  ∀ proc, state.stage proc = .added → Located workload state proc

/-- The ready queue that receives a process holds fewer than `MAX_QUEUE_SIZE`
processes. -/
def HasRoom (workload : Workload P) (state : State C P) :
    Event C P → Prop
  | .addProc proc =>
      (state.sched.mlqReadyQueue (workload.prio proc)).contents.length <
        maxQueueSize
  | .putProc cpu =>
      ∀ proc, state.held cpu = some proc →
        (state.sched.mlqReadyQueue (workload.prio proc)).contents.length <
          maxQueueSize
  | _ => True

/-- No process is at two places. -/
abbrev State.Placed (workload : Workload P) (state : State C P) : Prop :=
  Scheduler.Placed workload.prio state.held state.sched.mlqReadyQueue state.Live

/-- No process is without a place. -/
abbrev State.Kept (workload : Workload P) (state : State C P) : Prop :=
  Scheduler.Kept workload.prio state.held state.sched.mlqReadyQueue state.Live

variable {workload : Workload P} {state next : State C P}

omit [DecidableEq C] in
/-- Next to `Placed`, having a place is being located. -/
theorem noProcessLost_iff_kept
    (placed : state.Placed workload) :
    NoProcessLost workload state ↔ state.Kept workload := by
  constructor
  · intro located proc alive
    rcases located proc alive with ⟨⟨cpu, holds, _⟩, _⟩ | ⟨_, once, _⟩
    · exact .inl ⟨cpu, holds⟩
    · exact .inr (List.count_pos_iff.mp (by omega))
  · intro kept proc alive
    rcases kept proc alive with ⟨cpu, holds⟩ | queued
    · refine .inl ⟨⟨cpu, holds, fun other holds' => ?_⟩, fun level =>
        placed.notQueued cpu proc level holds⟩
      exact placed.once other cpu proc holds' holds
    · refine .inr ⟨fun cpu holds => ?_, ?_, fun level different member => ?_⟩
      · exact placed.notQueued cpu proc _ holds queued
      · exact List.count_eq_one_of_mem (Queue.nodup_contents _) queued
      · exact different (placed.ownLevel proc level member)

/-- Adding a process places it. -/
theorem addProc_placed
    {proc : P}
    (placed : state.Placed workload)
    (taken : step workload state (.addProc proc) = some next) :
    next.Placed workload := by
  simp only [step] at taken
  split at taken <;> cases taken
  rename_i fresh
  have notLive : ¬state.Live proc := by simp [State.Live, fresh]
  refine placed.enqueue (fun cpu holds => notLive (placed.heldLive cpu proc holds))
    (by simp [State.Live]) ?_
  intro other alive
  have different : other ≠ proc := fun same => notLive (same ▸ alive)
  simpa [State.Live, different] using alive

/-- Adding a process keeps every process exactly when its queue has room. -/
theorem addProc_kept_iff
    {proc : P}
    (placed : state.Placed workload)
    (kept : state.Kept workload)
    (taken : step workload state (.addProc proc) = some next) :
    next.Kept workload ↔ HasRoom workload state (.addProc proc) := by
  simp only [step] at taken
  split at taken <;> cases taken
  rename_i fresh
  have notLive : ¬state.Live proc := by simp [State.Live, fresh]
  have notHeld : ∀ cpu, state.held cpu ≠ some proc := fun cpu holds =>
    notLive (placed.heldLive cpu proc holds)
  have absent : proc ∉
      (state.sched.mlqReadyQueue (workload.prio proc)).contents := fun queued =>
    notLive (placed.queuedLive proc _ queued)
  simp only [HasRoom, ← mem_enqueue_iff_room absent]
  constructor
  · intro keptAfter
    rcases keptAfter proc (by simp [State.Live]) with ⟨cpu, holds⟩ | queued
    · exact absurd holds (notHeld cpu)
    · simpa using queued
  · intro enqueued
    refine Kept.enqueue kept enqueued (fun _ _ _ holds => holds) ?_
    intro other different alive
    simpa [State.Live, different] using alive

omit [DecidableEq P] in
/-- A process that its CPU lets go of is at no place. -/
theorem released_placed
    {cpu : C}
    {proc : P}
    (placed : state.Placed workload)
    (holds : state.held cpu = some proc) :
    Placed workload.prio (Function.update state.held cpu none)
      state.sched.mlqReadyQueue fun other => state.Live other ∧ other ≠ proc := by
  refine placed.release cpu _ ?_
  intro other aliveOther notSame
  exact ⟨aliveOther, fun same => notSame (same ▸ holds)⟩

/-- Putting a process back places it. -/
theorem putProc_placed
    {cpu : C}
    (placed : state.Placed workload)
    (taken : step workload state (.putProc cpu) = some next) :
    next.Placed workload := by
  simp only [step] at taken
  split at taken
  · cases taken
  rename_i proc holds
  cases taken
  have alive : state.Live proc := placed.heldLive cpu proc holds
  have released := released_placed placed holds
  exact released.enqueue
    (fun other stillHolds => (released.heldLive other proc stillHolds).2 rfl) alive
    fun other both => both.1

/-- Putting a process back keeps every process exactly when its queue has
room. -/
theorem putProc_kept_iff
    {cpu : C}
    (placed : state.Placed workload)
    (kept : state.Kept workload)
    (taken : step workload state (.putProc cpu) = some next) :
    next.Kept workload ↔ HasRoom workload state (.putProc cpu) := by
  simp only [step] at taken
  split at taken
  · cases taken
  rename_i proc holds
  cases taken
  have alive : state.Live proc := placed.heldLive cpu proc holds
  have absent : proc ∉
      (state.sched.mlqReadyQueue (workload.prio proc)).contents :=
    placed.notQueued cpu proc _ holds
  have notHeld : ∀ other, Function.update state.held cpu none other ≠ some proc :=
    fun other stillHolds =>
      ((released_placed placed holds).heldLive other proc stillHolds).2 rfl
  have room : HasRoom workload state (.putProc cpu) ↔
      proc ∈ ((state.sched.mlqReadyQueue
        (workload.prio proc)).enqueue proc).contents := by
    rw [mem_enqueue_iff_room absent]
    simp [HasRoom, holds]
  rw [room]
  constructor
  · intro keptAfter
    rcases keptAfter proc alive with ⟨other, stillHolds⟩ | queued
    · exact absurd stillHolds (notHeld other)
    · simpa using queued
  · intro enqueued
    refine Kept.enqueue kept enqueued ?_ fun _ _ aliveOther => aliveOther
    intro holder other different holdsOther
    have elsewhere : holder ≠ cpu := by
      rintro rfl
      rw [holds] at holdsOther
      exact different (Option.some.inj holdsOther).symm
    simpa [elsewhere] using holdsOther

/-- Finishing a process takes it from its CPU. -/
theorem finish_placed
    {cpu : C}
    (placed : state.Placed workload)
    (taken : step workload state (.finish cpu) = some next) :
    next.Placed workload := by
  simp only [step] at taken
  split at taken
  · cases taken
  split at taken <;> cases taken
  rename_i proc holds finished
  refine placed.release cpu _ ?_
  intro other alive notSame
  have different : other ≠ proc := fun same => notSame (same ▸ holds)
  simpa [State.Live, different] using alive

/-- Finishing removes the finished process only. -/
theorem finish_kept
    {cpu : C}
    (kept : state.Kept workload)
    (taken : step workload state (.finish cpu) = some next) :
    next.Kept workload := by
  simp only [step] at taken
  split at taken
  · cases taken
  split at taken <;> cases taken
  rename_i proc holds finished
  refine Kept.release kept cpu fun other alive => ?_
  have different : other ≠ proc := by
    rintro rfl
    simp [State.Live] at alive
  refine ⟨by simpa [State.Live, different] using alive, ?_⟩
  rw [holds]
  exact fun same => different (Option.some.inj same).symm

/-- A CPU fetches with what `get_mlq_proc` returns, and only without a process. -/
theorem fetch_of_getProc
    {cpu : C}
    (taken : step workload state (.getProc cpu) = some next) :
    ∃ result, Sched.Fetch state.sched result next.sched ∧
      state.held cpu = none ∧
      next = { state with
        sched := next.sched
        held := Function.update state.held cpu result } := by
  simp only [step] at taken
  split at taken <;> cases taken
  rename_i result sched free fetched
  exact ⟨result, Sched.fetch_of_getMlqProc fetched, free, rfl⟩

/-- No step brings a process to two places. -/
theorem step_placed
    (event : Event C P)
    (placed : state.Placed workload)
    (taken : step workload state event = some next) :
    next.Placed workload := by
  cases event with
  | addProc proc => exact addProc_placed placed taken
  | putProc cpu => exact putProc_placed placed taken
  | getProc cpu =>
      obtain ⟨result, fetch, free, after⟩ := fetch_of_getProc taken
      rw [after]
      exact placed.fetch fetch free
  | finish cpu => exact finish_placed placed taken
  | run cpu =>
      simp only [step] at taken
      split at taken
      · cases taken
      split at taken <;> cases taken
      all_goals exact placed
  | updateSlot prio usedTime =>
      cases taken
      exact placed

/-- When no process has been lost before, a step loses none exactly when it
meets no full queue. -/
theorem step_kept_iff
    (event : Event C P)
    (placed : state.Placed workload)
    (kept : state.Kept workload)
    (taken : step workload state event = some next) :
    next.Kept workload ↔ HasRoom workload state event := by
  cases event with
  | addProc proc => exact addProc_kept_iff placed kept taken
  | putProc cpu => exact putProc_kept_iff placed kept taken
  | getProc cpu =>
      obtain ⟨result, fetch, free, after⟩ := fetch_of_getProc taken
      rw [after]
      exact iff_of_true (Kept.fetch kept fetch free) trivial
  | finish cpu => exact iff_of_true (finish_kept kept taken) trivial
  | run cpu =>
      simp only [step] at taken
      split at taken
      · cases taken
      split at taken <;> cases taken
      all_goals exact iff_of_true kept trivial
  | updateSlot prio usedTime =>
      cases taken
      exact iff_of_true kept trivial

omit [DecidableEq C] [DecidableEq P] in
/-- No process is at two places when none has been added. -/
theorem init_placed (workload : Workload P) :
    (init : State C P).Placed workload := by
  have noneLive : (init : State C P).Live = fun _ => False := by
    funext proc
    simp [init, State.Live]
  rw [State.Placed, noneLive]
  exact Placed.initial

/-- In every run of the scheduler each added and unfinished process stays
located exactly when no step of the run meets a full ready queue. -/
theorem noProcessLost_iff_hasRoom
    (workload : Workload P)
    (events : List (Event C P))
    (last : State C P)
    (reaches : replay (step workload) init events = some last) :
    HoldsAlong (step workload) (NoProcessLost workload) init events ↔
      PermittedAlong (step workload) (HasRoom workload) init events := by
  refine holdsAlong_iff_permittedAlong
    (fun state => state.Placed workload ∧ state.Kept workload)
    ?_ events init ?_ ?_ reaches
  · rintro state event next ⟨placed, kept⟩ _ taken
    have placedAfter := step_placed event placed taken
    have exact := step_kept_iff event placed kept taken
    refine ⟨fun room => ⟨placedAfter, exact.mpr room⟩, ?_⟩
    rw [noProcessLost_iff_kept placedAfter, exact]
  · exact ⟨init_placed workload, fun proc alive => by simp [init, State.Live] at alive⟩
  · intro proc added
    simp [init] at added

/-! ## Eleven processes of one priority -/

/-- Processes of one instruction that all have the highest priority. -/
def crowdedWorkload : Workload Nat :=
  Workload.uniform 0 1 zero_lt_maxPrio

/-- The loader adds one process more than a ready queue holds. -/
def elevenArrivals : List (Event (Fin 1) Nat) :=
  (List.range 11).map Event.addProc

theorem noProcessLost_iff_hasRoom_elevenArrivals :
    HoldsAlong (step crowdedWorkload) (NoProcessLost crowdedWorkload) init
        elevenArrivals ↔
      PermittedAlong (step crowdedWorkload) (HasRoom crowdedWorkload) init
        elevenArrivals :=
  noProcessLost_iff_hasRoom crowdedWorkload elevenArrivals _ rfl

/-- The eleventh process is added, unfinished and nowhere. -/
theorem eleventh_process_lost :
    ∃ last, replay (step crowdedWorkload) init elevenArrivals = some last ∧
      ¬NoProcessLost crowdedWorkload last := by
  refine ⟨_, rfl, fun located => ?_⟩
  rcases located 10 (by decide) with ⟨⟨cpu, holds, _⟩, _⟩ | ⟨_, once, _⟩
  · exact absurd holds (by simp [init])
  · exact absurd once (by decide)

end Conservation
end Scheduler
end Ossim
