import Ossim.Os.Exclusive

/-!
# No process is abandoned at shutdown

A CPU stops after it has found the ready queues empty and then `done` set.  A
process that another CPU puts back in between is that CPU's own concern: it looks
into the queues again before it can stop.  A process that the loader adds in
between was added in the same slot, and `done` is set in a later one.  So what
the invariant records for every queued process is who put it there, and when.
-/

namespace Ossim
namespace Os

open Scheduler Transition

/-- The process that a step puts into a ready queue. -/
def State.receives (state : State n) : Event n → Option Nat
  | .cpu id =>
      if (state.cpu id).label = .putReady then (state.cpu id).proc else none
  | .loader =>
      match state.loader with
      | .addReady i => some i
      | _ => none
  | _ => none

/-- The step does not find the ready queue full. -/
def HasRoom (config : Config) (state : State n) (event : Event n) : Prop :=
  ∀ proc ∈ state.receives event,
    (state.sched.mlqReadyQueue (config.prio proc)).contents.length < maxQueueSize

instance (config : Config) (state : State n) (event : Event n) :
    Decidable (HasRoom config state event) :=
  inferInstanceAs (Decidable (∀ proc ∈ state.receives event,
    (state.sched.mlqReadyQueue (config.prio proc)).contents.length < maxQueueSize))

/-- The CPU has left the loop of `cpu_routine`. -/
def Label.Left (label : Label) : Prop :=
  label = .detach ∨ label = .stopped

/-- The loader has called `add_proc` for the processes below this one. -/
def LdLabel.handed (config : Config) : LdLabel → Nat
  | .head i | .nextSlot i | .waiting i => i
  | .addRunning i | .addReady i => i + 1
  | .detach | .stopped => config.numProcesses

/-- Positions of the branch that frees a finished process, before it is
freed. -/
def Label.finishing : Label → Bool
  | .updatePrio .finished | .updateRead .finished _ | .updateWrite .finished _ _
  | .free => true
  | _ => false

/-- Until it is freed, a finished process belongs to the CPU. -/
theorem Label.owns_of_finishing
    {label : Label}
    (finishing : label.finishing = true) :
    label.owns = true := by
  cases label
  case updatePrio branch | updateRead branch _ | updateWrite branch _ _ =>
    cases branch <;> simp_all [Label.finishing, Label.owns]
  all_goals simp_all [Label.finishing, Label.owns]

/-- Since this CPU found the queues empty, it has put nothing into them itself,
and the loader has added processes in the current slot only. -/
def State.Overlooked (state : State n) (id : Fin n) : Prop :=
  ∀ proc, state.Queued proc →
    state.history.enqueuedBy proc ≠ some id ∧
      (state.history.enqueuedBy proc = none →
        state.history.enqueuedAt proc = state.entered (.cpu id))

/-- What a CPU at a position knows about the queued processes. -/
def State.Quiet (state : State n) (id : Fin n) : Label → Prop
  | .slotPrio | .slotRead _ => (state.cpu id).proc ≠ none
  | .testDone => state.Overlooked id
  | .recheck => (state.cpu id).proc = none → state.Overlooked id
  | .detach | .stopped =>
      state.done = true ∧ ∀ proc, state.Queued proc →
        state.history.enqueuedBy proc ≠ some id ∧
          state.history.enqueuedBy proc ≠ none
  | _ => True

/-- What the loader at a position knows about the processes that it has added:
all of them in earlier slots, unless it has just added one. -/
def State.Punctual (state : State n) : LdLabel → Prop
  | .nextSlot _ | .stopped => True
  | _ =>
      ∀ proc, state.Queued proc → state.history.enqueuedBy proc = none →
        state.history.enqueuedAt proc < state.entered .loader

/-- What keeps the processes of the loader in earlier slots keeps it
punctual. -/
theorem State.Punctual.imp
    {state next : State n}
    {label : LdLabel}
    (punctual : state.Punctual label)
    (keeps : (∀ proc, state.Queued proc → state.history.enqueuedBy proc = none →
        state.history.enqueuedAt proc < state.entered .loader) →
      ∀ proc, next.Queued proc → next.history.enqueuedBy proc = none →
        next.history.enqueuedAt proc < next.entered .loader) :
    next.Punctual label := by
  cases label
  case nextSlot | stopped => trivial
  all_goals exact keeps punctual

/-- The invariant behind an orderly shutdown. -/
structure Accounted (config : Config) (state : State n) : Prop where
  kept : Kept config.prio state.held state.sched.mlqReadyQueue state.Live
  complete : ∀ proc, state.stage proc = .finished →
    state.pc proc = config.codeSize proc
  finishing : ∀ id proc, (state.cpu id).label.finishing = true →
    (state.cpu id).proc = some proc → state.pc proc = config.codeSize proc
  quiet : ∀ id, state.Quiet id (state.cpu id).label
  punctual : state.Punctual state.loader
  added : ∀ proc, proc < state.loader.handed config →
    state.loader ≠ .addRunning proc → state.loader ≠ .addReady proc →
    state.stage proc ≠ .new
  done : state.done = true ↔ state.loader.next = none
  /-- Once `done` is set, the last process was added in an earlier slot. -/
  settled : state.done = true → ∀ proc, state.Queued proc →
    state.history.enqueuedBy proc = none →
    state.history.enqueuedAt proc < state.timer.time

/-- Every queued process was queued before, or has just arrived. -/
def Arrivals (state next : State n) (arrived : Nat → Prop) : Prop :=
  ∀ proc, next.Queued proc →
    (state.Queued proc ∧
        next.history.enqueuedAt proc = state.history.enqueuedAt proc ∧
        next.history.enqueuedBy proc = state.history.enqueuedBy proc) ∨
      arrived proc

section Arrivals

variable {config : Config} {state next : State n} {id : Fin n}

/-- Putting a process into a queue is an arrival. -/
theorem arrivals_enqueue
    (level proc : Nat)
    (cpu : Option (Fin n))
    (queues : next.sched.mlqReadyQueue =
      Function.update state.sched.mlqReadyQueue level
        ((state.sched.mlqReadyQueue level).enqueue proc))
    (history : next.history =
      state.history.enqueue proc state.timer.time cpu) :
    Arrivals state next fun arrived =>
      next.history.enqueuedAt arrived = state.timer.time ∧
        next.history.enqueuedBy arrived = cpu := by
  rintro other ⟨level', member⟩
  rw [queues] at member
  by_cases same : other = proc
  · subst same
    exact .inr (by simp [history, History.enqueue])
  · rcases mem_of_mem_update_enqueue member with old | ⟨arrived, _⟩
    · exact .inl ⟨⟨level', old⟩, by simp [history, History.enqueue, same]⟩
    · exact absurd arrived same

/-- What a CPU may put into a queue. -/
theorem CpuStep.arrivals (step : CpuStep config state id next) :
    Arrivals state next fun proc => next.history.enqueuedBy proc = some id := by
  cases step with
  | putReady proc label holds =>
      intro other queued
      exact (arrivals_enqueue _ proc _ rfl rfl other queued).imp_right And.right
  | move cpu sched moves =>
      rintro proc ⟨level, member⟩
      rw [show Sched.mlqReadyQueue _ = _ from moves.queues] at member
      exact .inl ⟨⟨level, member⟩, rfl, rfl⟩
  | getProc given result sched label fetch =>
      rintro proc ⟨level, member⟩
      exact .inl ⟨⟨level, fetch.mem member⟩, rfl, rfl⟩
  | _ => exact fun proc queued => .inl ⟨queued, rfl, rfl⟩

/-- What the loader may put into a queue. -/
theorem LdStep.arrivals (step : LdStep config state next) :
    Arrivals state next fun proc =>
      state.loader.next ≠ none ∧
        next.history.enqueuedAt proc = state.timer.time ∧
        next.history.enqueuedBy proc = none := by
  cases step with
  | addReady i label =>
      intro other queued
      refine (arrivals_enqueue _ i _ rfl rfl other queued).imp_right fun arrived => ?_
      exact ⟨by simp [label, LdLabel.next], arrived⟩
  | _ => exact fun proc queued => .inl ⟨queued, rfl, rfl⟩

/-- A CPU stays quiet about the processes of other CPUs, and about those that
the loader adds in the current slot before `done` is set. -/
theorem State.Quiet.arrivals
    {label : Label}
    (quiet : state.Quiet id label)
    (arrivals : Arrivals state next fun proc =>
      next.history.enqueuedBy proc ≠ some id ∧
        (next.history.enqueuedBy proc = none → state.done = false ∧
          (label.phase = .working →
            next.history.enqueuedAt proc = state.entered (.cpu id))))
    (sameCpu : next.cpu id = state.cpu id)
    (stillDone : state.done = true → next.done = true)
    (sameEntered : next.entered (.cpu id) = state.entered (.cpu id)) :
    next.Quiet id label := by
  have overlooked : label.phase = .working → state.Overlooked id →
      next.Overlooked id := by
    intro working overlooked proc queued
    rw [sameEntered]
    rcases arrivals proc queued with ⟨old, sameAt, sameBy⟩ | ⟨notOwn, ifLoader⟩
    · rw [sameAt, sameBy]
      exact overlooked proc old
    · exact ⟨notOwn, fun isLoader => (ifLoader isLoader).2 working⟩
  have left : (state.done = true ∧ ∀ proc, state.Queued proc →
        state.history.enqueuedBy proc ≠ some id ∧
          state.history.enqueuedBy proc ≠ none) →
      next.done = true ∧ ∀ proc, next.Queued proc →
        next.history.enqueuedBy proc ≠ some id ∧
          next.history.enqueuedBy proc ≠ none := by
    rintro ⟨done, others⟩
    refine ⟨stillDone done, fun proc queued => ?_⟩
    rcases arrivals proc queued with ⟨old, _, sameBy⟩ | ⟨notOwn, ifLoader⟩
    · rw [sameBy]
      exact others proc old
    · refine ⟨notOwn, fun isLoader => ?_⟩
      simp [(ifLoader isLoader).1] at done
  cases label
  case testDone => exact overlooked rfl quiet
  case recheck =>
    intro nothing
    rw [sameCpu] at nothing
    exact overlooked rfl (quiet nothing)
  case detach | stopped => exact left quiet
  case slotPrio | slotRead =>
    simp only [State.Quiet, sameCpu]
    exact quiet
  all_goals trivial

end Arrivals

/-- Nothing is unaccounted for when the threads have been created. -/
theorem Accounted.boot (config : Config) (n : Nat) :
    Accounted config (boot n) where
  kept := fun _ => nofun
  complete := fun _ => nofun
  finishing := fun _ _ => nofun
  quiet := fun _ => trivial
  punctual := fun _ => nofun
  added := fun _ => nofun
  done := by simp [Os.boot, LdLabel.next]
  settled := nofun

namespace Accounted

variable {config : Config} {state next : State n} {id : Fin n}

/-! ### The parts of the invariant after a step of a CPU -/

theorem kept_cpuStep
    (accounted : Accounted config state)
    (invariant : Invariant config state)
    (room : HasRoom config state (.cpu id))
    (step : CpuStep config state id next) :
    Kept config.prio next.held next.sched.mlqReadyQueue next.Live := by
  have kept := accounted.kept
  cases step.transfer (invariant.idle id) with
  | keep held queues stage =>
      rw [held, queues, State.live_congr stage]
      exact kept
  | putBack proc label owner held queues stage =>
      have holds : (state.cpu id).proc = some proc := by
        rwa [State.held, Cpu.held_of_owns (by rw [label]; rfl)] at owner
      have absent : proc ∉ (state.sched.mlqReadyQueue (config.prio proc)).contents :=
        invariant.placed.notQueued id proc _ owner
      have enqueued := (mem_enqueue_iff_room absent).mpr
        (room proc (by simp [State.receives, label, holds]))
      rw [held, queues, State.live_congr stage]
      refine kept.enqueue enqueued (fun cpu other different holds' => ?_)
        fun _ _ alive => alive
      have elsewhere : cpu ≠ id := by
        rintro rfl
        exact different (Option.some.inj (holds'.symm.trans owner))
      rwa [Function.update_of_ne elsewhere]
  | finish proc label owner held queues stage =>
      rw [held, queues]
      refine kept.release id fun other alive => ?_
      have different : other ≠ proc := by
        rintro rfl
        simp [State.Live, stage] at alive
      refine ⟨by simpa [State.Live, stage, different] using alive, ?_⟩
      rw [owner]
      exact fun same => different (Option.some.inj same).symm
  | fetch result nothing held fetch stage =>
      rw [held, State.live_congr stage]
      exact kept.fetch fetch nothing

theorem complete_cpuStep
    (accounted : Accounted config state)
    (invariant : Invariant config state)
    (step : CpuStep config state id next)
    (proc : Nat)
    (finished : next.stage proc = .finished) :
    next.pc proc = config.codeSize proc := by
  cases step with
  | free freed label holds =>
      by_cases same : proc = freed
      · subst same
        exact accounted.finishing id proc (by rw [label]; rfl) holds
      · exact accounted.complete proc (by simpa [same] using finished)
  | exec executed label holds =>
      have different : proc ≠ executed := by
        rintro rfl
        have added := invariant.live (by rw [label]; rfl) holds
        simp [added] at finished
      simpa [different] using accounted.complete proc finished
  | _ => exact accounted.complete proc finished

theorem finishing_move
    (accounted : Accounted config state)
    {cpu : Cpu}
    {sched : Sched Nat}
    (moves : Move config state (state.cpu id) cpu sched)
    {proc : Nat}
    (finishing : cpu.label.finishing = true)
    (holds : cpu.proc = some proc) :
    state.pc proc = config.codeSize proc := by
  have before := accounted.finishing id proc
  cases moves
  case loopFinished held label holds' finished =>
    obtain rfl : held = proc := by simpa [holds'] using holds
    exact finished
  case updatePrio branch held label holds' =>
    cases branch with
    | finished => exact before (by rw [label]; rfl) holds
    | preempted => simp [Label.finishing] at finishing
  case updateRead branch prio label =>
    cases branch with
    | finished => exact before (by rw [label]; rfl) holds
    | preempted => simp [Label.finishing] at finishing
  case updateWrite branch prio value label =>
    cases branch with
    | finished => exact before (by rw [label]; rfl) holds
    | preempted => simp [Label.finishing, Branch.afterUpdate] at finishing
  case testDone | recheckNull =>
    rw [Cpu.moved_label] at finishing
    split at finishing <;> simp [Label.finishing] at finishing
  all_goals simp [Label.finishing] at finishing

theorem finishing_cpuStep
    (accounted : Accounted config state)
    (invariant : Invariant config state)
    (step : CpuStep config state id next)
    (other : Fin n)
    (proc : Nat)
    (finishing : (next.cpu other).label.finishing = true)
    (holds : (next.cpu other).proc = some proc) :
    next.pc proc = config.codeSize proc := by
  by_cases same : other = id
  · subst same
    cases step with
    | move cpu sched moves =>
        rw [State.setCpu_cpu_same] at finishing holds
        exact accounted.finishing_move moves finishing holds
    | putReady | free | exec | nextSlot | waiting | detach =>
        simp [Label.finishing] at finishing
    | getProc given result sched label fetch =>
        cases result <;> cases given <;>
          simp [Label.finishing, afterGetProc] at finishing
    | run proc label holds =>
        rw [State.setCpu_cpu_same] at finishing
        split at finishing <;> simp [Label.finishing] at finishing
  · rw [step.cpu_other same] at finishing holds
    have before := accounted.finishing other proc finishing holds
    cases step with
    | exec executed label holds' =>
        have owns : (state.cpu other).label.owns = true :=
          Label.owns_of_finishing finishing
        have different := invariant.different (by rw [label]; rfl) holds' same holds owns
        simpa [different.symm] using before
    | _ => exact before

/-- An idle CPU that finds `done` set has overlooked no process of the loader:
the loader adds its last process in an earlier slot. -/
theorem left_of_overlooked
    (accounted : Accounted config state)
    (invariant : Invariant config state)
    (working : (state.cpu id).label.phase = .working)
    (overlooked : state.Overlooked id)
    (done : state.done = true)
    (proc : Nat)
    (queued : state.Queued proc) :
    state.history.enqueuedBy proc ≠ some id ∧
      state.history.enqueuedBy proc ≠ none := by
  obtain ⟨notOwn, ifLoader⟩ := overlooked proc queued
  refine ⟨notOwn, fun isLoader => ?_⟩
  have earlier := accounted.settled done proc queued isLoader
  have here := ifLoader isLoader
  rw [invariant.entered _ working] at here
  omega

/-- When `get_proc` returns `NULL`, no process is queued. -/
theorem not_queued_of_idle
    {sched : Sched Nat}
    (invariant : Invariant config state)
    (fetch : Sched.Fetch state.sched none sched)
    (proc : Nat) :
    ¬state.Queued proc := by
  rintro ⟨level, member⟩
  have here := invariant.placed.ownLevel proc level member
  cases fetch with
  | idle nothing =>
      rw [here, nothing _ (config.prio_lt proc)] at member
      cases member

theorem quiet_move
    (accounted : Accounted config state)
    (invariant : Invariant config state)
    {cpu : Cpu}
    {sched : Sched Nat}
    (moves : Move config state (state.cpu id) cpu sched) :
    State.Quiet { state.setCpu id cpu with sched := sched } id cpu.label := by
  have quiet := accounted.quiet id
  have sameQueued : ∀ {proc : Nat},
      State.Queued { state.setCpu id cpu with sched := sched } proc →
        state.Queued proc := by
    rintro proc ⟨level, member⟩
    rw [show Sched.mlqReadyQueue _ = _ from moves.queues] at member
    exact ⟨level, member⟩
  have leave : (state.cpu id).label.phase = .working → state.Overlooked id →
      State.Quiet { state.setCpu id cpu with sched := sched } id
        (if state.done then .detach else .nextSlot) := by
    intro working overlooked
    split
    case isTrue done =>
      refine ⟨done, fun proc queued => ?_⟩
      exact accounted.left_of_overlooked invariant working overlooked done proc
        (sameQueued queued)
    case isFalse => trivial
  cases moves
  case testDone label =>
    rw [label] at quiet
    exact leave (by rw [label]; rfl) quiet
  case recheckNull label nothing =>
    rw [label] at quiet
    exact leave (by rw [label]; rfl) (quiet nothing)
  case loopContinue proc label holds unfinished unexpired =>
    intro nothing
    simp [holds] at nothing
  case slotPrio proc label holds =>
    simp [State.Quiet, holds]
  case slotRead prio label =>
    rw [label] at quiet
    intro nothing
    simp only [State.setCpu_cpu_same, Cpu.gotSlot_proc] at nothing
    exact absurd nothing quiet
  case updateWrite branch prio value label =>
    cases branch <;> trivial
  case recheckProc =>
    rw [Cpu.dispatched_label]
    trivial
  all_goals trivial

theorem quiet_cpuStep
    (accounted : Accounted config state)
    (invariant : Invariant config state)
    (step : CpuStep config state id next)
    (other : Fin n) :
    next.Quiet other (next.cpu other).label := by
  by_cases same : other = id
  · subst same
    cases step with
    | move cpu sched moves =>
        have quiet := accounted.quiet_move invariant moves
        rwa [State.setCpu_cpu_same]
    | getProc given result sched label fetch =>
        rw [State.setCpu_cpu_same, Cpu.fetched_label]
        cases result with
        | some proc => simp [afterGetProc, State.Quiet]
        | none =>
            have nothing : ∀ {next : State n}, next.sched = sched →
                next.Overlooked other := by
              rintro next rfl proc ⟨level, member⟩
              exact absurd ⟨level, fetch.mem member⟩
                (not_queued_of_idle invariant fetch proc)
            cases given with
            | none => exact nothing rfl
            | some branch => exact fun _ => nothing rfl
    | run proc label holds =>
        rw [State.setCpu_cpu_same]
        split <;> trivial
    | detach timer label taken =>
        have quiet := accounted.quiet other
        rw [label] at quiet
        rw [State.setCpu_cpu_same]
        exact quiet
    | putReady | free | exec | nextSlot | waiting =>
        rw [State.setCpu_cpu_same]
        trivial
  · rw [step.cpu_other same]
    refine (accounted.quiet other).arrivals (fun proc queued => ?_)
      (step.cpu_other same) (fun done => step.done.trans done)
      (step.entered_other (by simpa using same))
    refine (step.arrivals proc queued).imp_right fun isCpu => ?_
    simp [isCpu, Ne.symm same]

theorem punctual_cpuStep
    (accounted : Accounted config state)
    (step : CpuStep config state id next) :
    next.Punctual next.loader := by
  rw [step.loader]
  refine accounted.punctual.imp fun before proc queued isLoader => ?_
  rw [show next.entered .loader = _ from step.entered_other nofun]
  rcases step.arrivals proc queued with ⟨old, sameAt, sameBy⟩ | isCpu
  · rw [sameAt]
    exact before proc old (sameBy ▸ isLoader)
  · simp [isCpu] at isLoader

theorem settled_cpuStep
    (accounted : Accounted config state)
    (step : CpuStep config state id next)
    (done : next.done = true)
    (proc : Nat)
    (queued : next.Queued proc)
    (isLoader : next.history.enqueuedBy proc = none) :
    next.history.enqueuedAt proc < next.timer.time := by
  rw [step.done] at done
  rw [step.time]
  rcases step.arrivals proc queued with ⟨old, sameAt, sameBy⟩ | isCpu
  · rw [sameAt]
    exact accounted.settled done proc old (sameBy ▸ isLoader)
  · simp [isCpu] at isLoader

/-- A step of a CPU that meets no full queue keeps the processes accounted
for. -/
theorem cpuStep
    (accounted : Accounted config state)
    (invariant : Invariant config state)
    (room : HasRoom config state (.cpu id))
    (step : CpuStep config state id next) :
    Accounted config next where
  kept := accounted.kept_cpuStep invariant room step
  complete := accounted.complete_cpuStep invariant step
  finishing := accounted.finishing_cpuStep invariant step
  quiet := accounted.quiet_cpuStep invariant step
  punctual := accounted.punctual_cpuStep step
  added := by
    rw [step.loader]
    intro proc handed notRunning notReady isNew
    exact accounted.added proc handed notRunning notReady (step.new isNew)
  done := by
    rw [step.done, step.loader]
    exact accounted.done
  settled := accounted.settled_cpuStep step

/-! ### The parts of the invariant after a step of the loader -/

theorem kept_ldStep
    (accounted : Accounted config state)
    (invariant : Invariant config state)
    (room : HasRoom config state .loader)
    (step : LdStep config state next) :
    Kept config.prio next.held next.sched.mlqReadyQueue next.Live := by
  have kept := accounted.kept
  cases step with
  | addReady i label =>
      have absent : i ∉ (state.sched.mlqReadyQueue (config.prio i)).contents := by
        intro member
        have added : state.stage i = .added := invariant.placed.queuedLive i _ member
        simp [invariant.new label] at added
      have enqueued := (mem_enqueue_iff_room absent).mpr
        (room i (by simp [State.receives, label]))
      refine kept.enqueue enqueued (fun _ _ _ holds => holds) fun other different alive => ?_
      simpa [State.Live, different] using alive
  | _ => exact kept

theorem complete_ldStep
    (accounted : Accounted config state)
    (step : LdStep config state next)
    (proc : Nat)
    (finished : next.stage proc = .finished) :
    next.pc proc = config.codeSize proc := by
  cases step with
  | addReady i label =>
      have different : proc ≠ i := by
        rintro rfl
        simp at finished
      exact accounted.complete proc (by simpa [different] using finished)
  | _ => exact accounted.complete proc finished

theorem quiet_ldStep
    (accounted : Accounted config state)
    (invariant : Invariant config state)
    (step : LdStep config state next)
    (id : Fin n) :
    next.Quiet id (next.cpu id).label := by
  rw [step.cpu]
  refine (accounted.quiet id).arrivals (fun proc queued => ?_)
    (congrFun step.cpu id) step.done (step.entered_cpu id)
  refine (step.arrivals proc queued).imp_right ?_
  rintro ⟨active, now, isLoader⟩
  refine ⟨by simp [isLoader], fun _ => ⟨?_, fun working => ?_⟩⟩
  · rw [Bool.eq_false_iff]
    exact fun done => active (accounted.done.mp done)
  · rw [now, invariant.entered _ working]

theorem punctual_ldStep
    (accounted : Accounted config state)
    (invariant : Invariant config state)
    (step : LdStep config state next) :
    next.Punctual next.loader := by
  have before := accounted.punctual
  cases step with
  | finish i label all | arrive i label some due | addRunning i label =>
      rw [label] at before
      exact before
  | early | addReady => trivial
  | nextSlot i timer label taken =>
      obtain ⟨_, rfl⟩ := Timer.State.nextSlotEnter_spec taken
      intro proc queued _
      have now := invariant.synchronized.entered_of_working
        (show state.phaseOf .loader = .working by simp [State.phaseOf, label, LdLabel.phase])
      have past := invariant.past.enqueued proc
      simp only [State.entered, Timer.State.setDevice_device_same] at now ⊢
      omega
  | waiting i timer label taken =>
      obtain rfl := Timer.State.nextSlotReturn_spec taken
      rw [label] at before
      intro proc queued isLoader
      simpa [State.entered] using before proc queued isLoader
  | detach timer label taken => trivial

theorem added_ldStep
    (accounted : Accounted config state)
    (step : LdStep config state next)
    (proc : Nat)
    (handed : proc < next.loader.handed config)
    (notRunning : next.loader ≠ .addRunning proc)
    (notReady : next.loader ≠ .addReady proc) :
    next.stage proc ≠ .new := by
  have before := accounted.added proc
  cases step with
  | finish i label all =>
      simp only [LdLabel.handed] at handed
      exact before (by simp only [label, LdLabel.handed]; omega) (by simp [label])
        (by simp [label])
  | early i label some early =>
      exact before (by simpa [label, LdLabel.handed] using handed) (by simp [label])
        (by simp [label])
  | arrive i label some due =>
      have below : proc < i := by
        simp only [LdLabel.handed] at handed
        have : i ≠ proc := fun same => notRunning (by rw [same])
        omega
      exact before (by simpa [label, LdLabel.handed] using below) (by simp [label])
        (by simp [label])
  | addRunning i label =>
      have different : i ≠ proc := fun same => notReady (by rw [same])
      exact before (by simpa [label, LdLabel.handed] using handed)
        (by simpa [label] using different) (by simp [label])
  | addReady i label =>
      by_cases same : proc = i
      · subst same
        simp
      · simpa [same] using before (by simpa [label, LdLabel.handed] using handed)
          (by simp [label]) (by simpa [label] using Ne.symm same)
  | nextSlot i timer label taken =>
      exact before (by simpa [label, LdLabel.handed] using handed) (by simp [label])
        (by simp [label])
  | waiting i timer label taken =>
      exact before (by simpa [label, LdLabel.handed] using handed) (by simp [label])
        (by simp [label])
  | detach timer label taken =>
      exact before (by simpa [label, LdLabel.handed] using handed) (by simp [label])
        (by simp [label])

theorem done_ldStep
    (accounted : Accounted config state)
    (step : LdStep config state next) :
    next.done = true ↔ next.loader.next = none := by
  have before := accounted.done
  cases step <;> simp_all [LdLabel.next]

theorem settled_ldStep
    (accounted : Accounted config state)
    (invariant : Invariant config state)
    (step : LdStep config state next)
    (done : next.done = true)
    (proc : Nat)
    (queued : next.Queued proc)
    (isLoader : next.history.enqueuedBy proc = none) :
    next.history.enqueuedAt proc < next.timer.time := by
  rw [step.time]
  cases step with
  | finish i label all =>
      have punctual := accounted.punctual
      have now := invariant.synchronized.entered_of_working
        (show state.phaseOf .loader = .working by simp [State.phaseOf, label, LdLabel.phase])
      rw [label] at punctual
      rw [← now]
      exact punctual proc queued isLoader
  | addReady i label =>
      have nothing := accounted.done.mp done
      simp [label, LdLabel.next] at nothing
  | _ => exact accounted.settled done proc queued isLoader

/-- A step of the loader that meets no full queue keeps the processes accounted
for. -/
theorem ldStep
    (accounted : Accounted config state)
    (invariant : Invariant config state)
    (room : HasRoom config state .loader)
    (step : LdStep config state next) :
    Accounted config next where
  kept := accounted.kept_ldStep invariant room step
  complete := accounted.complete_ldStep step
  finishing := by
    rw [step.cpu, step.pc]
    exact accounted.finishing
  quiet := accounted.quiet_ldStep invariant step
  punctual := accounted.punctual_ldStep invariant step
  added := accounted.added_ldStep step
  done := accounted.done_ldStep step
  settled := accounted.settled_ldStep invariant step

/-- Steps of the timer thread and of `main` concern no process. -/
theorem timer
    (accounted : Accounted config state)
    {timer : Timer.State (Device n)}
    (later : state.timer.time ≤ timer.time)
    (entered : ∀ dev, (timer.device dev).entered = state.entered dev) :
    Accounted config { state with timer := timer } where
  kept := accounted.kept
  complete := accounted.complete
  finishing := accounted.finishing
  quiet := fun id => (accounted.quiet id).arrivals
    (fun _ queued => .inl ⟨queued, rfl, rfl⟩) rfl (fun done => done)
    (entered (.cpu id))
  punctual := accounted.punctual.imp fun before proc queued isLoader =>
    Nat.lt_of_lt_of_eq (before proc queued isLoader) (entered .loader).symm
  added := accounted.added
  done := accounted.done
  settled := fun done proc queued isLoader =>
    Nat.lt_of_lt_of_le (accounted.settled done proc queued isLoader) later

/-- Every atomic step that meets no full queue keeps the processes accounted
for. -/
theorem step
    (accounted : Accounted config state)
    (invariant : Invariant config state)
    (event : Event n)
    (room : HasRoom config state event)
    (taken : state.step config event = some next) :
    Accounted config next := by
  cases event with
  | timer =>
      obtain ⟨timer, stepped, rfl⟩ := Option.map_eq_some_iff.mp taken
      obtain ⟨_, later, devices⟩ := Timer.State.timerRoutine_spec stepped
      exact accounted.timer later fun dev => (devices dev).2
  | cpu id =>
      exact accounted.cpuStep invariant room (cpuStep_of_cpuRoutine taken)
  | loader => exact accounted.ldStep invariant room (ldStep_of_ldRoutine taken)
  | main =>
      simp only [State.step, State.mainRoutine] at taken
      split at taken
      · cases taken
        exact accounted.timer (Nat.le_refl _) fun _ => rfl
      · cases taken

/-- In every run that meets no full queue the processes are accounted for. -/
theorem run
    (run : Run (State.step config) (HasRoom config) (Os.boot n) state) :
    Invariant config state ∧ Accounted config state :=
  run.invariant (fun state => Invariant config state ∧ Accounted config state)
    (fun _ event _ both room taken =>
      ⟨both.1.step event taken, both.2.step both.1 event room taken⟩)
    ⟨Invariant.boot config n, Accounted.boot config n⟩

end Accounted

/-- When all CPUs have left the loop of `cpu_routine`, every process that the
loader has handed to `add_proc` has executed its last instruction, provided that
no process has met a full ready queue. -/
theorem handed_processes_complete
    (config : Config)
    (n : Nat)
    (someCpu : 0 < n)
    (state : State n)
    (run : Run (State.step config) (HasRoom config) (boot n) state)
    (left : ∀ id, (state.cpu id).label.Left)
    (proc : Nat)
    (handed : proc < state.loader.handed config) :
    state.pc proc = config.codeSize proc := by
  obtain ⟨invariant, accounted⟩ := Accounted.run run
  have quiet : ∀ id, state.done = true ∧ ∀ proc, state.Queued proc →
      state.history.enqueuedBy proc ≠ some id ∧
        state.history.enqueuedBy proc ≠ none := by
    intro id
    have quiet := accounted.quiet id
    rcases left id with label | label <;> rwa [label] at quiet
  have loader := accounted.done.mp (quiet ⟨0, someCpu⟩).1
  have notNew : state.stage proc ≠ .new := by
    refine accounted.added proc handed ?_ ?_ <;>
    · intro label
      simp [label, LdLabel.next] at loader
  cases stage : state.stage proc with
  | new => exact absurd stage notNew
  | finished => exact accounted.complete proc stage
  | added =>
      -- The process would be owned, or queued by some CPU or the loader.
      rcases accounted.kept proc stage with ⟨id, holds⟩ | member
      · rcases left id with label | label <;>
          simp [State.held, Cpu.held, label, Label.owns] at holds
      · have queued : state.Queued proc := ⟨_, member⟩
        cases putBy : state.history.enqueuedBy proc with
        | none => exact absurd putBy ((quiet ⟨0, someCpu⟩).2 proc queued).2
        | some id => exact absurd putBy ((quiet id).2 proc queued).1

/-- Two processes of two instructions and a time slice of one slot. -/
def migratingConfig : Config where
  toWorkload := Workload.uniform 0 2 zero_lt_maxPrio
  timeSlot := 1
  numProcesses := 2
  startTime := fun _ => 0

/-- A whole simulation with two CPUs.  The second CPU runs the process 0 in the first slot
and the first CPU runs it in the second slot. -/
def migratingSchedule : List (Event 2) :=
  schedule [(.loader, 4), (secondCpu, 8), (firstCpu, 4), (.timer, 10), (.loader, 5),
    (secondCpu, 14), (firstCpu, 9), (.timer, 9), (.loader, 3), (secondCpu, 14), (firstCpu, 9),
    (.timer, 10), (secondCpu, 9), (.timer, 3)]

theorem handed_processes_complete_migrating :
    ∃ state, replay (State.step migratingConfig) (boot 2) migratingSchedule = some state ∧
      (⟨.instruction, 0, 0, 1⟩ ∈ state.history.log ∧
        ⟨.instruction, 1, 0, 0⟩ ∈ state.history.log) ∧
      ∀ proc, proc < 2 → state.pc proc = 2 := by
  obtain ⟨state, reaches, left, handed, migrated⟩ :
      ∃ state, replay (State.step migratingConfig) (boot 2) migratingSchedule = some state ∧
        (∀ id, (state.cpu id).label = .stopped) ∧ state.loader.handed migratingConfig = 2 ∧
        ⟨.instruction, 0, 0, 1⟩ ∈ state.history.log ∧
          ⟨.instruction, 1, 0, 0⟩ ∈ state.history.log :=
    exists_of_evaluated (by decide +kernel)
  refine ⟨state, reaches, migrated, fun proc configured => ?_⟩
  exact handed_processes_complete migratingConfig 2 (by decide) state
    (Run.of_replay migratingSchedule _ (by decide +kernel) reaches)
    (fun id => .inr (left id)) proc (by omega)

end Os
end Ossim
