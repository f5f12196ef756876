import Ossim.Library.Ranking
import Ossim.Os.Slots
import Ossim.Os.Shutdown
import Mathlib.Algebra.Group.Action.Defs
import Mathlib.Algebra.Order.BigOperators.Group.Finset
import Mathlib.Tactic.Ring

/-!
# Every simulation ends

Between two entries of `next_slot` a thread runs through its positions in one
direction only, so the number of slots bounds the number of steps, whatever the
schedule.  A thread that still has something to do can do it, or waits for the timer
thread, which waits for threads that can go on.  So what is left in the end are
threads that have stopped.
-/

namespace Ossim
namespace Os

open Scheduler Transition

/-! ## How many steps are left -/

/-- The steps of a CPU up to its next entry of `next_slot`, at most. -/
def Label.rank : Label → Nat
  | .waiting => 19
  | .loop => 18
  | .putRunning => 17
  | .putReady => 16
  | .updatePrio _ => 15
  | .updateRead _ _ => 14
  | .updateWrite _ _ _ => 13
  | .free => 12
  | .getProc _ => 11
  | .testDone => 10
  | .slotPrio => 9
  | .slotRead _ => 8
  | .recheck => 7
  | .run => 6
  | .exec => 5
  | .nextSlot => 2
  | .detach => 1
  | .stopped => 0

/-- The steps of the loader up to its next entry of `next_slot`, at most. -/
def LdLabel.rank : LdLabel → Nat
  | .waiting _ => 19
  | .head _ => 18
  | .addRunning _ => 17
  | .addReady _ => 16
  | .nextSlot _ => 2
  | .detach => 1
  | .stopped => 0

/-- The steps of a thread that has entered `next_slot` this often, at most. -/
def threadRank (last entered rank : Nat) : Nat :=
  (last + 1 - entered) * 20 + rank

/-- The steps of all threads but `main` up to the slot `last`, at most. -/
def State.rank (last : Nat) (state : State n) : Nat :=
  ∑ id, threadRank last (state.entered (.cpu id)) (state.cpu id).label.rank +
    threadRank last (state.entered .loader) state.loader.rank + state.timer.rank last

/-- `main` has joined the other threads when it takes a step. -/
def Event.isMain : Event n → Bool
  | .main => true
  | _ => false

/-- The most steps of a simulation with `n` CPUs. -/
def maxSteps (config : Config) (n : Nat) : Nat :=
  (n + 1) * ((lastSlot config + 1) * 20 + 18) +
    (lastSlot config * (2 * (n + 1) + 6) + (n + 1 + 2))

theorem rank_boot (last n : Nat) :
    (boot n).rank last =
      (n + 1) * ((last + 1) * 20 + 18) + (last * (2 * (n + 1) + 6) + (n + 1 + 2)) := by
  simp only [State.rank, boot, Timer.State.rank, Timer.boot_devList, Timer.boot_time,
    Timer.boot_routine, Timer.Routine.rank, devices, threadRank, State.entered,
    Timer.boot_device, Timer.TimerId.attached, Cpu.start, Label.rank, LdLabel.rank,
    Finset.sum_const, Finset.card_univ, Fintype.card_fin, List.length_reverse,
    List.length_append, List.length_map, List.length_finRange, List.length_singleton,
    smul_eq_mul, Nat.sub_zero]
  ring

/-- A position of a CPU comes before the next one, except in front of `next_slot`. -/
theorem Move.rank
    {config : Config}
    {state : State n}
    {cpu cpu' : Cpu}
    {sched : Sched Nat}
    (moves : Move config state cpu cpu' sched) :
    cpu'.label.rank < cpu.label.rank := by
  cases moves
  case updateWrite branch prio value label =>
    rw [label]
    cases branch <;> simp [Label.rank, Branch.afterUpdate]
  case testDone label =>
    rw [label]
    cases state.done <;> simp [Label.rank]
  case recheckNull label _ =>
    rw [label]
    cases state.done <;> simp [Label.rank]
  all_goals simp [Label.rank, *]

/-- A CPU goes on to a later position in its slot, or enters `next_slot`. -/
theorem CpuStep.rank
    {config : Config}
    {state next : State n}
    {id : Fin n}
    (step : CpuStep config state id next) :
    ((next.cpu id).label.rank < (state.cpu id).label.rank ∧
        next.entered (.cpu id) = state.entered (.cpu id)) ∨
      ((state.cpu id).label = .nextSlot ∧ (next.cpu id).label = .waiting ∧
        next.entered (.cpu id) = state.entered (.cpu id) + 1) := by
  cases step with
  | move cpu sched moves =>
      refine .inl ⟨?_, rfl⟩
      rw [State.setCpu_cpu_same]
      exact moves.rank
  | putReady proc label holds =>
      refine .inl ⟨?_, rfl⟩
      simp [label, Label.rank]
  | free proc label holds =>
      refine .inl ⟨?_, rfl⟩
      simp [label, Label.rank]
  | getProc given result sched label fetch =>
      refine .inl ⟨?_, rfl⟩
      cases result <;> cases given <;> simp [label, Label.rank, afterGetProc]
  | run proc label holds =>
      refine .inl ⟨?_, rfl⟩
      rw [State.setCpu_cpu_same]
      split <;> simp [label, Label.rank]
  | exec proc label holds =>
      refine .inl ⟨?_, rfl⟩
      simp [label, Label.rank]
  | nextSlot timer label taken =>
      obtain ⟨_, rfl⟩ := Timer.State.nextSlotEnter_spec taken
      refine .inr ⟨label, by simp, ?_⟩
      simp [State.entered]
  | waiting timer label taken =>
      obtain rfl := Timer.State.nextSlotReturn_spec taken
      refine .inl ⟨by simp [label, Label.rank], ?_⟩
      simp [State.entered]
  | detach timer label taken =>
      obtain rfl := Timer.State.detachEvent_spec taken
      refine .inl ⟨by simp [label, Label.rank], ?_⟩
      simp [State.entered]

/-- The loader goes on to a later position in its slot, or enters `next_slot`. -/
theorem LdStep.rank
    {config : Config}
    {state next : State n}
    (step : LdStep config state next) :
    (next.loader.rank < state.loader.rank ∧
        next.entered .loader = state.entered .loader) ∨
      (∃ i, state.loader = .nextSlot i ∧ next.loader = .waiting i ∧
        next.entered .loader = state.entered .loader + 1) := by
  cases step with
  | finish i label | early i label | arrive i label | addRunning i label
  | addReady i label =>
      exact .inl ⟨by simp [label, LdLabel.rank], rfl⟩
  | nextSlot i timer label taken =>
      obtain ⟨_, rfl⟩ := Timer.State.nextSlotEnter_spec taken
      refine .inr ⟨i, label, rfl, ?_⟩
      simp [State.entered]
  | waiting i timer label taken =>
      obtain rfl := Timer.State.nextSlotReturn_spec taken
      refine .inl ⟨by simp [label, LdLabel.rank], ?_⟩
      simp [State.entered]
  | detach timer label taken =>
      obtain rfl := Timer.State.detachEvent_spec taken
      refine .inl ⟨by simp [label, LdLabel.rank], ?_⟩
      simp [State.entered]

/-- Both kinds of steps lower the rank of the thread. -/
theorem threadRank_lt
    {last entered entered' rank rank' : Nat}
    (moves : (rank' < rank ∧ entered' = entered) ∨
      (rank = 2 ∧ rank' = 19 ∧ entered' = entered + 1 ∧ entered ≤ last)) :
    threadRank last entered' rank' < threadRank last entered rank := by
  unfold threadRank
  rcases moves with ⟨less, rfl⟩ | ⟨rfl, rfl, rfl, inTime⟩
  · omega
  · omega

/-- The steps of a device are none of the timer thread. -/
theorem rank_of_ownDevice
    {state next : State n}
    {dev : Device n}
    (last : Nat)
    (changed : next.timer = state.timer ∨
      ∃ timerId, next.timer = state.timer.setDevice dev timerId) :
    next.timer.rank last = state.timer.rank last := by
  rcases changed with same | ⟨timerId, same⟩
  · rw [same]
  · rw [same, Timer.State.rank_setDevice]

section Rank

variable {config : Config} {state next : State n} {id : Fin n} {last : Nat}

theorem rank_cpuStep
    (synchronized : Synchronized state)
    (step : CpuStep config state id next)
    (inTime : state.timer.time ≤ last) :
    next.rank last < state.rank last := by
  have own : threadRank last (next.entered (.cpu id)) (next.cpu id).label.rank <
      threadRank last (state.entered (.cpu id)) (state.cpu id).label.rank := by
    refine threadRank_lt (step.rank.imp_right ?_)
    rintro ⟨label, label', entered⟩
    have now := synchronized.entered_of_working
      (show state.phaseOf (.cpu id) = .working by simp [State.phaseOf, label, Label.phase])
    exact ⟨by rw [label]; rfl, by rw [label']; rfl, entered, now ▸ inTime⟩
  have others : ∀ other, other ≠ id →
      threadRank last (next.entered (.cpu other)) (next.cpu other).label.rank =
        threadRank last (state.entered (.cpu other)) (state.cpu other).label.rank := by
    intro other different
    rw [step.entered_other (by simpa using different), step.cpu_other different]
  have cpus : ∑ id, threadRank last (next.entered (.cpu id)) (next.cpu id).label.rank <
      ∑ id, threadRank last (state.entered (.cpu id)) (state.cpu id).label.rank := by
    refine Finset.sum_lt_sum (fun other _ => ?_) ⟨id, Finset.mem_univ id, own⟩
    by_cases same : other = id
    · subst same
      exact own.le
    · exact (others other same).le
  have loader : next.entered .loader = state.entered .loader := step.entered_other (by simp)
  have timer := rank_of_ownDevice last step.ownDevice
  simp only [State.rank, step.loader, loader, timer]
  omega

theorem rank_ldStep
    (synchronized : Synchronized state)
    (step : LdStep config state next)
    (inTime : state.timer.time ≤ last) :
    next.rank last < state.rank last := by
  have own : threadRank last (next.entered .loader) next.loader.rank <
      threadRank last (state.entered .loader) state.loader.rank := by
    refine threadRank_lt (step.rank.imp_right ?_)
    rintro ⟨i, label, label', entered⟩
    have now := synchronized.entered_of_working
      (show state.phaseOf .loader = .working by simp [State.phaseOf, label, LdLabel.phase])
    exact ⟨by rw [label]; rfl, by rw [label']; rfl, entered, now ▸ inTime⟩
  have timer := rank_of_ownDevice last step.ownDevice
  simp only [State.rank, step.cpu, step.entered_cpu, timer]
  omega

theorem rank_timer
    {timer : Timer.State (Device n)}
    (taken : state.timer.timerRoutine = some timer)
    (inTime : timer.time ≤ last) :
    State.rank last { state with timer := timer } < state.rank last := by
  obtain ⟨_, _, devices⟩ := Timer.State.timerRoutine_spec taken
  have less := Timer.State.rank_timerRoutine taken inTime
  have entered : ∀ dev, State.entered { state with timer := timer } dev =
      state.entered dev := fun dev => (devices dev).2
  simp only [State.rank, entered]
  omega

end Rank

/-- The steps of all threads but `main` are ranked by the slots that are left. -/
theorem ranked (config : Config) (n : Nat) :
    Ranked (State.step config) (Bounded config) (Event.isMain (n := n))
      (State.rank (lastSlot config)) where
  kept := fun _ event _ bounded taken => bounded.step event taken
  paid := by
    intro state event next bounded taken notMain
    have synchronized := bounded.invariant.synchronized
    have after := (bounded.step event taken).time_le
    cases event with
    | timer =>
        obtain ⟨timer, stepped, rfl⟩ := Option.map_eq_some_iff.mp taken
        exact rank_timer stepped after
    | cpu id => exact rank_cpuStep synchronized (cpuStep_of_cpuRoutine taken) bounded.time_le
    | loader => exact rank_ldStep synchronized (ldStep_of_ldRoutine taken) bounded.time_le
    | main => cases notMain
  unpaid := by
    intro state event next bounded taken isMain
    cases event with
    | main =>
        simp only [State.step, State.mainRoutine] at taken
        split at taken
        · cases taken
          exact Nat.le_refl _
        · cases taken
    | timer | cpu | loader => cases isMain

/-! ## No thread is stuck -/

/-- At these positions a CPU reads the PCB of its process, or is about to. -/
def Label.needsProc : Label → Bool
  | .putRunning | .putReady | .updatePrio _ | .updateRead .finished _
  | .updateWrite .finished _ _ | .free | .slotPrio | .run | .exec => true
  | _ => false

/-- No CPU is about to follow a null pointer, and `main` stops the timer when the
threads have stopped. -/
structure Equipped (state : State n) : Prop where
  proc : ∀ id, (state.cpu id).label.needsProc = true → (state.cpu id).proc ≠ none
  stop : state.timer.timerStop = true →
    (∀ id, (state.cpu id).label = .stopped) ∧ state.loader = .stopped

/-- The steps in `Move` leave a process where one is needed. -/
theorem Move.equipped
    {config : Config}
    {state : State n}
    {cpu cpu' : Cpu}
    {sched : Sched Nat}
    (moves : Move config state cpu cpu' sched)
    (equipped : cpu.label.needsProc = true → cpu.proc ≠ none)
    (needs : cpu'.label.needsProc = true) :
    cpu'.proc ≠ none := by
  cases moves
  case updateRead branch prio label =>
    cases branch with
    | finished => exact equipped (by rw [label]; rfl)
    | preempted => cases needs
  case updateWrite branch prio value label =>
    cases branch with
    | finished => exact equipped (by rw [label]; rfl)
    | preempted => cases needs
  case testDone label =>
    cases done : state.done <;> simp [done, Label.needsProc] at needs
  case recheckNull label nothing =>
    cases done : state.done <;> simp [done, Label.needsProc] at needs
  case slotRead => cases needs
  case loopIdle => cases needs
  all_goals simp [*]

/-- A stopped CPU takes no step. -/
theorem CpuStep.not_stopped
    {config : Config}
    {state next : State n}
    {id : Fin n}
    (step : CpuStep config state id next) :
    (state.cpu id).label ≠ .stopped := by
  intro label
  rcases step.rank with ⟨less, _⟩ | ⟨label', _⟩
  · simp [label, Label.rank] at less
  · simp [label] at label'

/-- A stopped loader takes no step. -/
theorem LdStep.not_stopped
    {config : Config}
    {state next : State n}
    (step : LdStep config state next) :
    state.loader ≠ .stopped := by
  intro label
  rcases step.rank with ⟨less, _⟩ | ⟨i, label', _⟩
  · simp [label, LdLabel.rank] at less
  · simp [label] at label'

/-- Only `main` sets `timer_stop`. -/
theorem timerStop_of_ownDevice
    {state next : State n}
    {dev : Device n}
    (changed : next.timer = state.timer ∨
      ∃ timerId, next.timer = state.timer.setDevice dev timerId) :
    next.timer.timerStop = state.timer.timerStop := by
  rcases changed with same | ⟨timerId, same⟩
  · rw [same]
  · rw [same]
    rfl

namespace Equipped

variable {config : Config} {state next : State n} {id : Fin n}

theorem boot (n : Nat) : Equipped (boot n) where
  proc := nofun
  stop := nofun

/-- A step of a CPU. -/
theorem cpuStep
    (equipped : Equipped state)
    (step : CpuStep config state id next) :
    Equipped next where
  proc := by
    intro other
    by_cases same : other = id
    · subst same
      cases step with
      | move cpu sched moves =>
          rw [State.setCpu_cpu_same]
          exact moves.equipped (equipped.proc other)
      | putReady proc label holds =>
          rw [State.setCpu_cpu_same]
          simp [holds]
      | free | nextSlot | waiting | detach =>
          rw [State.setCpu_cpu_same]
          intro needs
          cases needs
      | getProc given result sched label fetch =>
          rw [State.setCpu_cpu_same]
          cases result <;> cases given <;> simp [afterGetProc, Label.needsProc]
      | run proc label holds =>
          rw [State.setCpu_cpu_same]
          split <;> simp [holds]
      | exec proc label holds =>
          rw [State.setCpu_cpu_same]
          intro needs
          cases needs
    · rw [step.cpu_other same]
      exact equipped.proc other
  stop := by
    rw [timerStop_of_ownDevice step.ownDevice]
    intro stop
    exact absurd ((equipped.stop stop).1 id) step.not_stopped

/-- A step of the loader. -/
theorem ldStep
    (equipped : Equipped state)
    (step : LdStep config state next) :
    Equipped next where
  proc := by
    rw [step.cpu]
    exact equipped.proc
  stop := by
    rw [timerStop_of_ownDevice step.ownDevice]
    intro stop
    exact absurd (equipped.stop stop).2 step.not_stopped

/-- Every atomic step. -/
theorem step
    (equipped : Equipped state)
    (event : Event n)
    (taken : state.step config event = some next) :
    Equipped next := by
  cases event with
  | timer =>
      obtain ⟨timer, stepped, rfl⟩ := Option.map_eq_some_iff.mp taken
      have sameStop : timer.timerStop = state.timer.timerStop := by
        simp only [Timer.State.step, Timer.State.timerRoutine] at stepped
        repeat' split at stepped
        all_goals cases stepped
        all_goals rfl
      exact
        { proc := equipped.proc
          stop := fun stop => equipped.stop (sameStop ▸ stop) }
  | cpu id => exact equipped.cpuStep (cpuStep_of_cpuRoutine taken)
  | loader => exact equipped.ldStep (ldStep_of_ldRoutine taken)
  | main =>
      simp only [State.step, State.mainRoutine] at taken
      split at taken
      · rename_i joined
        cases taken
        exact
          { proc := equipped.proc
            stop := fun _ => joined }
      · cases taken

/-- In every reachable state. -/
theorem run
    {permitted : State n → Event n → Prop}
    (run : Run (State.step config) permitted (Os.boot n) state) :
    Equipped state :=
  run.invariant Equipped (fun _ event _ equipped _ taken => equipped.step event taken)
    (boot n)

end Equipped

section Progress

variable {config : Config} {state : State n}

/-- A CPU that works in the current slot can take its next step. -/
theorem cpu_goes
    (synchronized : Synchronized state)
    (equipped : Equipped state)
    {id : Fin n}
    (working : (state.cpu id).label.phase = .working) :
    state.cpuRoutine config id ≠ none := by
  have attached := synchronized.attached (.cpu id)
  have phase : (state.timer.device (.cpu id)).phase = .working :=
    (synchronized.phase _).trans working
  have needs := equipped.proc id
  cases label : (state.cpu id).label <;> cases holds : (state.cpu id).proc <;>
    simp only [State.cpuRoutine, label, holds, ne_eq, reduceCtorEq, not_false_eq_true]
  case waiting.none | waiting.some => simp [label, Label.phase] at working
  case stopped.none | stopped.some => simp [label, Label.phase] at working
  case loop.some proc => split <;> [skip; split] <;> simp
  case getProc.none | getProc.some =>
    obtain ⟨result, sched, fetched, _⟩ := Sched.getMlqProc_fetch state.sched
    simp [fetched]
  case nextSlot.none | nextSlot.some | detach.none | detach.some =>
    simp [Timer.State.step, Timer.State.nextSlotEnter, Timer.State.detachEvent, attached, phase]
  all_goals simp [label, holds, Label.needsProc] at needs

/-- A loader that works in the current slot can take its next step. -/
theorem loader_goes
    (synchronized : Synchronized state)
    (working : state.loader.phase = .working) :
    state.ldRoutine config ≠ none := by
  have attached := synchronized.attached .loader
  have phase : (state.timer.device .loader).phase = .working :=
    (synchronized.phase _).trans working
  cases label : state.loader <;>
    simp only [State.ldRoutine, label, ne_eq, reduceCtorEq, not_false_eq_true]
  case head i => split <;> [skip; split] <;> simp
  case waiting i => simp [label, LdLabel.phase] at working
  case stopped => simp [label, LdLabel.phase] at working
  case nextSlot | detach =>
    simp [Timer.State.step, Timer.State.nextSlotEnter, Timer.State.detachEvent, attached, phase]

/-- A thread that has been released can return from `next_slot`. -/
theorem waiting_goes
    (synchronized : Synchronized state)
    {dev : Device n}
    (waiting : state.phaseOf dev = .waiting)
    (released : (state.timer.device dev).done = false) :
    ∃ event : Event n, event.isMain = false ∧ state.step config event ≠ none := by
  have attached := synchronized.attached dev
  have phase := (synchronized.phase dev).trans waiting
  cases dev with
  | cpu id =>
      refine ⟨.cpu id, rfl, ?_⟩
      have label : (state.cpu id).label = .waiting := by
        cases label : (state.cpu id).label <;>
          simp [State.phaseOf, label, Label.phase] at waiting ⊢
      cases holds : (state.cpu id).proc <;>
        simp [State.step, State.cpuRoutine, label, holds, Timer.State.step,
          Timer.State.nextSlotReturn, attached, phase, released]
  | loader =>
      refine ⟨.loader, rfl, ?_⟩
      cases label : state.loader <;> simp [State.phaseOf, label, LdLabel.phase] at waiting
      simp [State.step, State.ldRoutine, label, Timer.State.step,
        Timer.State.nextSlotReturn, attached, phase, released]

/-- A thread that works in the current slot can go on. -/
theorem working_goes
    (synchronized : Synchronized state)
    (equipped : Equipped state)
    {dev : Device n}
    (working : state.phaseOf dev = .working) :
    ∃ event : Event n, event.isMain = false ∧ state.step config event ≠ none := by
  cases dev with
  | cpu id => exact ⟨.cpu id, rfl, cpu_goes synchronized equipped working⟩
  | loader => exact ⟨.loader, rfl, loader_goes synchronized working⟩

/-- Behind `detach_event` a thread has stopped. -/
theorem stopped_of_detached
    (detached : ∀ dev, state.phaseOf dev = .detached) :
    (∀ id, (state.cpu id).label = .stopped) ∧ state.loader = .stopped := by
  constructor
  · intro id
    have phase := detached (.cpu id)
    cases label : (state.cpu id).label <;> simp [State.phaseOf, label, Label.phase] at phase ⊢
  · have phase := detached .loader
    cases label : state.loader <;> simp [State.phaseOf, label, LdLabel.phase] at phase ⊢

/-- If no thread but `main` can take a step, then all threads have ended. -/
theorem stopped_of_halted
    (bounded : Bounded config state)
    (equipped : Equipped state)
    (halted : Halted (State.step config) Event.isMain state) :
    (∀ id, (state.cpu id).label = .stopped) ∧ state.loader = .stopped ∧
      state.timer.routine = .exited := by
  have synchronized := bounded.invariant.synchronized
  have nobody : ¬∃ event : Event n, event.isMain = false ∧ state.step config event ≠ none := by
    rintro ⟨event, notMain, enabled⟩
    exact enabled (halted event notMain)
  have stuck : state.timer.timerRoutine = none :=
    Option.map_eq_none_iff.mp (halted .timer rfl)
  rcases Timer.State.timerRoutine_blocked stuck with
    exited | ⟨dev, rest, fsh, event, position, notDone, notFinished⟩
  · suffices all : (∀ id, (state.cpu id).label = .stopped) ∧ state.loader = .stopped from
      ⟨all.1, all.2, exited⟩
    rcases bounded.rounds.exited exited with stop | finished
    · exact equipped.stop stop
    · refine stopped_of_detached fun dev => ?_
      rw [← synchronized.phase dev]
      by_contra undetached
      have attached := synchronized.attached dev
      have clear := synchronized.lockstep.undetached attached undetached
      simp [finished dev attached] at clear
  · exfalso
    cases phase : state.phaseOf dev with
    | working => exact nobody (working_goes synchronized equipped phase)
    | waiting => exact nobody (waiting_goes synchronized phase notDone)
    | detached =>
        have set := bounded.rounds.detached dev ((synchronized.phase dev).trans phase)
        simp [notFinished] at set

end Progress

/-- The rank at the start is the number of steps. -/
theorem maxSteps_eq (config : Config) (n : Nat) :
    (boot n).rank (lastSlot config) = maxSteps config n := by
  rw [rank_boot, maxSteps]

/-- In every reachable state the threads can take their steps to the end, of which there
are not more than in a whole simulation, and they are not stuck before: where none but
`main` can go on, all have stopped. -/
theorem threads_stop
    (config : Config)
    (n : Nat)
    (state : State n)
    (run : Run (State.step config) anyEvent (boot n) state) :
    (Halted (State.step config) Event.isMain state →
        (∀ id, (state.cpu id).label = .stopped) ∧ state.loader = .stopped ∧
          state.timer.routine = .exited) ∧
      ∃ events last, (∀ event ∈ events, event.isMain = false) ∧
        events.length ≤ maxSteps config n ∧
        replay (State.step config) state events = some last ∧
        (∀ id, (last.cpu id).label = .stopped) ∧ last.loader = .stopped ∧
          last.timer.routine = .exited := by
  have bounded := Bounded.run run
  have equipped := Equipped.run run
  refine ⟨stopped_of_halted bounded equipped, ?_⟩
  have ranks := ranked config n
  obtain ⟨events, last, paid, reaches, halted⟩ := ranks.exists_halted state bounded
  have short : events.length ≤ maxSteps config n :=
    calc events.length ≤ state.rank (lastSlot config) := ranks.length_le bounded paid reaches
      _ ≤ (boot n).rank (lastSlot config) := ranks.rank_le (Bounded.boot config n) run
      _ = maxSteps config n := maxSteps_eq config n
  have further := run.trans (Run.of_replay_any events reaches)
  exact ⟨events, last, paid, short, reaches,
    stopped_of_halted (Bounded.run further) (Equipped.run further) halted⟩

/-- If no process has met a full ready queue, then all programs have been executed to
their last instruction when the threads have stopped. -/
theorem completed_of_halted
    {config : Config}
    {state : State n}
    (someCpu : 0 < n)
    (run : Run (State.step config) (HasRoom config) (boot n) state)
    (halted : Halted (State.step config) Event.isMain state)
    {proc : Nat}
    (configured : proc < config.numProcesses) :
    state.stage proc = .finished ∧ state.pc proc = config.codeSize proc := by
  obtain ⟨cpus, loader, _⟩ := stopped_of_halted (Bounded.run run) (Equipped.run run) halted
  obtain ⟨invariant, accounted⟩ := Accounted.run run
  have nothingQueued : ∀ id, ∀ proc, state.Queued proc →
      state.history.enqueuedBy proc ≠ some id ∧ state.history.enqueuedBy proc ≠ none := by
    intro id
    have quiet := accounted.quiet id
    rw [cpus id] at quiet
    exact quiet.2
  suffices finished : state.stage proc = .finished from
    ⟨finished, accounted.complete proc finished⟩
  cases stage : state.stage proc with
  | finished => rfl
  | new =>
      refine absurd stage (accounted.added proc ?_ ?_ ?_)
      · rw [loader]
        exact configured
      · simp [loader]
      · simp [loader]
  | added =>
      rcases accounted.kept proc stage with ⟨id, holds⟩ | member
      · simp [State.held, Cpu.held, cpus id, Label.owns] at holds
      · -- Who put it there would have looked into the queues again.
        have queued : state.Queued proc := ⟨_, member⟩
        cases putBy : state.history.enqueuedBy proc with
        | none => exact absurd putBy (nothingQueued ⟨0, someCpu⟩ proc queued).2
        | some id => exact absurd putBy (nothingQueued id proc queued).1

/-- If no process meets a full ready queue, then at the end of every simulation the
programs of all processes have been executed to their last instruction. -/
theorem programs_complete
    (config : Config)
    (n : Nat)
    (someCpu : 0 < n)
    (state : State n)
    (run : Run (State.step config) (HasRoom config) (boot n) state)
    (halted : Halted (State.step config) Event.isMain state)
    (proc : Nat)
    (configured : proc < config.numProcesses) :
    state.stage proc = .finished ∧ state.pc proc = config.codeSize proc :=
  completed_of_halted someCpu run halted configured

/-- The process that a step puts into a ready queue is one of the configuration, and is
in no queue. -/
theorem receives_spec
    {config : Config}
    {state : State n}
    {event : Event n}
    {proc : Nat}
    (bounded : Bounded config state)
    (received : state.receives event = some proc) :
    proc < config.numProcesses ∧ ¬ state.Queued proc := by
  cases event with
  | timer => cases received
  | main => cases received
  | cpu id =>
      simp only [State.receives] at received
      split at received
      · rename_i label
        have owns : (state.cpu id).label.owns = true := by rw [label]; rfl
        refine ⟨?_, bounded.invariant.notQueued owns received⟩
        by_contra outside
        have isNew := bounded.paced.added proc (Nat.not_lt.mp outside)
        have live := bounded.invariant.live owns received
        simp [isNew] at live
      · cases received
  | loader =>
      simp only [State.receives] at received
      split at received
      · rename_i i label
        obtain rfl : i = proc := Option.some.inj received
        obtain ⟨count, loading⟩ := bounded.loading
        have placed := loading.placed
        rw [label] at placed
        refine ⟨placed.1, ?_⟩
        rintro ⟨level, member⟩
        have added : state.stage i = .added :=
          bounded.invariant.placed.queuedLive i level member
        simp [bounded.invariant.new label] at added
      · cases received

/-- A queue holds each process once, so there must be more processes than places for it
to be full. -/
theorem Bounded.hasRoom
    {config : Config}
    {state : State n}
    (bounded : Bounded config state)
    (few : config.numProcesses ≤ maxQueueSize)
    (event : Event n) :
    HasRoom config state event := by
  intro proc received
  obtain ⟨configured, notQueued⟩ := receives_spec bounded received
  have queued : (state.sched.mlqReadyQueue (config.prio proc)).contents.toFinset ⊆
      (Finset.range config.numProcesses).erase proc := by
    intro other member
    have inQueue : state.Queued other := ⟨_, List.mem_toFinset.mp member⟩
    refine Finset.mem_erase.mpr ⟨?_, Finset.mem_range.mpr ?_⟩
    · rintro rfl
      exact notQueued inQueue
    · by_contra outside
      have isNew := bounded.paced.added other (Nat.not_lt.mp outside)
      obtain ⟨level, member⟩ := inQueue
      have added : state.stage other = .added :=
        bounded.invariant.placed.queuedLive other level member
      simp [isNew] at added
  calc (state.sched.mlqReadyQueue (config.prio proc)).contents.length
      = (state.sched.mlqReadyQueue (config.prio proc)).contents.toFinset.card :=
        (List.toFinset_card_of_nodup (Queue.nodup_contents _)).symm
    _ ≤ ((Finset.range config.numProcesses).erase proc).card := Finset.card_le_card queued
    _ < config.numProcesses := by
        rw [Finset.card_erase_of_mem (Finset.mem_range.mpr configured), Finset.card_range]
        omega
    _ ≤ maxQueueSize := few

/-- A simulation of few processes meets no full queue. -/
theorem hasRoom_of_few
    {config : Config}
    {state : State n}
    (few : config.numProcesses ≤ maxQueueSize)
    (run : Run (State.step config) anyEvent (boot n) state) :
    Run (State.step config) (HasRoom config) (boot n) state := by
  induction run with
  | refl => exact Run.refl _
  | tail event ran _ taken inductionHypothesis =>
      exact inductionHypothesis.tail event ((Bounded.run ran).hasRoom few event) taken

/-- With not more processes than a queue has places, every simulation ends with all
programs executed to their last instruction. -/
theorem few_programs_complete
    (config : Config)
    (n : Nat)
    (someCpu : 0 < n)
    (few : config.numProcesses ≤ maxQueueSize)
    (state : State n)
    (run : Run (State.step config) anyEvent (boot n) state) :
    (∀ event, HasRoom config state event) ∧
      (Halted (State.step config) Event.isMain state →
        ∀ proc, proc < config.numProcesses →
          state.stage proc = .finished ∧ state.pc proc = config.codeSize proc) :=
  ⟨fun event => (Bounded.run run).hasRoom few event, fun halted _ configured =>
    completed_of_halted someCpu (hasRoom_of_few few run) halted configured⟩

/-- At the end of the schedule no thread but `main` can take a step. -/
theorem migratingSchedule_stops :
    ∃ state, replay (State.step migratingConfig) (boot 2) migratingSchedule = some state ∧
      Halted (State.step migratingConfig) Event.isMain state := by
  obtain ⟨state, reaches, stuck⟩ := exists_of_evaluated
    (show (replay (State.step migratingConfig) (boot 2) migratingSchedule).map
      (fun state => decide (∀ event ∈ ([.cpu 0, .cpu 1, .loader, .timer] : List (Event 2)),
        (state.step migratingConfig event).isNone = true)) = some true by
      decide +kernel)
  refine ⟨state, reaches, fun event notMain => Option.isNone_iff_eq_none.mp (stuck event ?_)⟩
  cases event with
  | cpu id => match id with | 0 | 1 => simp
  | loader | timer => simp
  | main => cases notMain

theorem threads_stop_migrating :
    ∃ state, replay (State.step migratingConfig) (boot 2) migratingSchedule = some state ∧
      ∀ id, (state.cpu id).label = .stopped := by
  obtain ⟨state, reaches, halted⟩ := migratingSchedule_stops
  have run := Run.of_replay_any migratingSchedule reaches
  exact ⟨state, reaches, ((threads_stop migratingConfig 2 state run).1 halted).1⟩

theorem programs_complete_migrating :
    ∃ state, replay (State.step migratingConfig) (boot 2) migratingSchedule = some state ∧
      ∀ proc, proc < 2 → state.stage proc = .finished ∧ state.pc proc = 2 := by
  obtain ⟨state, reaches, halted⟩ := migratingSchedule_stops
  exact ⟨state, reaches, fun proc configured =>
    programs_complete migratingConfig 2 (by decide) state
      (Run.of_replay migratingSchedule _ (by decide +kernel) reaches) halted proc configured⟩

theorem few_programs_complete_migrating :
    ∃ state, replay (State.step migratingConfig) (boot 2) migratingSchedule = some state ∧
      ∀ proc, proc < 2 → state.stage proc = .finished ∧ state.pc proc = 2 := by
  obtain ⟨state, reaches, halted⟩ := migratingSchedule_stops
  exact ⟨state, reaches,
    (few_programs_complete migratingConfig 2 (by decide) (by decide) state
      (Run.of_replay_any migratingSchedule reaches)).2 halted⟩

end Os
end Ossim
