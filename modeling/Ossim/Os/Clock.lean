import Ossim.Os.Steps
import Ossim.Timer.Lockstep

/-!
# Threads and the barrier

The position of every thread agrees with what the timer knows about its device.
A thread that works in the current slot has therefore entered `next_slot` once
for every past slot, and time stands still until it enters it again.
-/

namespace Ossim
namespace Os

open Scheduler Transition

/-- Where the thread of a device stands in the protocol of the timer. -/
def State.phaseOf (state : State n) : Device n → Timer.Phase
  | .cpu id => (state.cpu id).label.phase
  | .loader => state.loader.phase

/-- The devices are in lockstep and the threads stand where the timer expects
them. -/
structure Synchronized (state : State n) : Prop where
  lockstep : Timer.InLockstep state.timer
  attached : ∀ dev, dev ∈ state.timer.devList
  phase : ∀ dev, (state.timer.device dev).phase = state.phaseOf dev

/-- `main` attaches every thread once. -/
theorem nodup_devices (n : Nat) : (devices n).Nodup := by
  have cpus : ((List.finRange n).map Device.cpu).Nodup :=
    (List.nodup_finRange n).map fun _ _ equal => Device.cpu.inj equal
  rw [devices, List.nodup_append]
  refine ⟨cpus, List.nodup_singleton _, ?_⟩
  intro dev isCpu other isLoader equal
  subst equal
  simp only [List.mem_singleton] at isLoader
  subst isLoader
  simp at isCpu

/-- Every thread is attached. -/
theorem mem_devices (dev : Device n) : dev ∈ devices n := by
  cases dev with
  | cpu id => simp [devices]
  | loader => simp [devices]

theorem Synchronized.boot (n : Nat) : Synchronized (boot n) where
  lockstep := Timer.inLockstep_boot (devices n) (nodup_devices n)
  attached := by
    intro dev
    simpa [Os.boot] using mem_devices dev
  phase := by
    intro dev
    cases dev <;> rfl

namespace Synchronized

variable {state next : State n}

/-- Steps that no device takes towards the timer. -/
theorem congr
    (synchronized : Synchronized state)
    (timer : next.timer = state.timer)
    (phases : ∀ dev, next.phaseOf dev = state.phaseOf dev) :
    Synchronized next where
  lockstep := timer ▸ synchronized.lockstep
  attached := timer ▸ synchronized.attached
  phase := by
    intro dev
    rw [timer, phases]
    exact synchronized.phase dev

/-- A working thread has entered `next_slot` once for every past slot. -/
theorem entered_of_working
    (synchronized : Synchronized state)
    {dev : Device n}
    (working : state.phaseOf dev = .working) :
    state.entered dev = state.timer.time :=
  (synchronized.lockstep.working (synchronized.attached dev)
    ((synchronized.phase dev).trans working)).1

/-- A step of the timer thread. -/
theorem timer
    (synchronized : Synchronized state)
    {timer : Timer.State (Device n)}
    (taken : state.timer.step .timerRoutine = some timer) :
    Synchronized { state with timer := timer } := by
  obtain ⟨devList, _, devices⟩ := Timer.State.timerRoutine_spec taken
  exact
    { lockstep := synchronized.lockstep.step _ taken
      attached := fun dev => by
        rw [devList]
        exact synchronized.attached dev
      phase := fun dev => (devices dev).1.trans (synchronized.phase dev) }

/-- A step of one device. -/
theorem device
    (synchronized : Synchronized state)
    (dev : Device n)
    (timerId : Timer.TimerId)
    (changed : next.timer = state.timer.setDevice dev timerId)
    (lockstep : Timer.InLockstep next.timer)
    (own : next.phaseOf dev = timerId.phase)
    (others : ∀ other, other ≠ dev → next.phaseOf other = state.phaseOf other) :
    Synchronized next where
  lockstep := lockstep
  attached := by
    intro other
    rw [changed]
    exact synchronized.attached other
  phase := by
    intro other
    rw [changed]
    by_cases same : other = dev
    · subst same
      simp [own]
    · rw [Timer.State.setDevice_device_other _ _ same, others other same]
      exact synchronized.phase other

end Synchronized

/-- A step of one CPU changes the phase of no other thread. -/
theorem State.phaseOf_setCpu_other
    (state : State n)
    (id : Fin n)
    (cpu : Cpu)
    {dev : Device n}
    (different : dev ≠ .cpu id) :
    (state.setCpu id cpu).phaseOf dev = state.phaseOf dev := by
  cases dev with
  | loader => rfl
  | cpu other =>
      have elsewhere : other ≠ id := fun same => different (by rw [same])
      simp [State.phaseOf, State.setCpu_cpu_other _ _ elsewhere]

/-- A position with the same phase keeps all phases. -/
theorem State.phaseOf_setCpu
    (state : State n)
    {id : Fin n}
    {cpu : Cpu}
    (samePhase : cpu.label.phase = (state.cpu id).label.phase)
    (dev : Device n) :
    (state.setCpu id cpu).phaseOf dev = state.phaseOf dev := by
  by_cases same : dev = .cpu id
  · subst same
    simpa [State.phaseOf] using samePhase
  · exact state.phaseOf_setCpu_other id cpu same

/-- The steps in `Move` stay within the current slot. -/
theorem Move.phase
    {config : Config}
    {state : State n}
    {cpu cpu' : Cpu}
    {sched : Sched Nat}
    (moves : Move config state cpu cpu' sched) :
    cpu'.label.phase = cpu.label.phase := by
  cases moves
  case updateWrite branch prio value label =>
    rw [label]
    cases branch <;> rfl
  case testDone label =>
    rw [label]
    cases state.done <;> rfl
  case recheckNull label _ =>
    rw [label]
    cases state.done <;> rfl
  all_goals simp [Label.phase, *]

theorem afterGetProc_phase (given : Option Branch) (result : Option Nat) :
    (afterGetProc given result).phase = .working := by
  cases result with
  | some proc => rfl
  | none => cases given <;> rfl

/-- A step of a CPU keeps the threads synchronized. -/
theorem Synchronized.cpuStep
    {config : Config}
    {state next : State n}
    {id : Fin n}
    (synchronized : Synchronized state)
    (step : CpuStep config state id next) :
    Synchronized next := by
  cases step with
  | move cpu sched moves =>
      exact synchronized.congr rfl (state.phaseOf_setCpu moves.phase)
  | putReady proc label holds =>
      exact synchronized.congr rfl (state.phaseOf_setCpu (by simp [label, Label.phase]))
  | free proc label holds =>
      exact synchronized.congr rfl (state.phaseOf_setCpu (by simp [label, Label.phase]))
  | getProc given result sched label fetch =>
      refine synchronized.congr rfl (state.phaseOf_setCpu ?_)
      rw [Cpu.fetched_label, afterGetProc_phase, label]
      rfl
  | run proc label holds =>
      refine synchronized.congr rfl (state.phaseOf_setCpu ?_)
      split <;> simp [label, Label.phase]
  | exec proc label holds =>
      exact synchronized.congr rfl (state.phaseOf_setCpu (by simp [label, Label.phase]))
  | nextSlot timer label taken =>
      obtain ⟨_, changed⟩ := Timer.State.nextSlotEnter_spec taken
      refine synchronized.device (.cpu id) _ changed
        (synchronized.lockstep.step _ taken) ?_ ?_
      · simp [State.phaseOf, Label.phase]
      · exact fun _ different => state.phaseOf_setCpu_other id _ different
  | waiting timer label taken =>
      refine synchronized.device (.cpu id) _ (Timer.State.nextSlotReturn_spec taken)
        (synchronized.lockstep.step _ taken) ?_ ?_
      · simp [State.phaseOf, Label.phase]
      · exact fun _ different => state.phaseOf_setCpu_other id _ different
  | detach timer label taken =>
      refine synchronized.device (.cpu id) _ (Timer.State.detachEvent_spec taken)
        (synchronized.lockstep.step _ taken) ?_ ?_
      · simp [State.phaseOf, Label.phase]
      · exact fun _ different => state.phaseOf_setCpu_other id _ different

/-- A CPU does not change the loader. -/
theorem CpuStep.loader
    {config : Config}
    {state next : State n}
    {id : Fin n}
    (step : CpuStep config state id next) :
    next.loader = state.loader := by
  cases step <;> rfl

/-- Only the loader sets `done`. -/
theorem CpuStep.done
    {config : Config}
    {state next : State n}
    {id : Fin n}
    (step : CpuStep config state id next) :
    next.done = state.done := by
  cases step <;> rfl

/-- A CPU makes no process new again. -/
theorem CpuStep.new
    {config : Config}
    {state next : State n}
    {id : Fin n}
    (step : CpuStep config state id next)
    {proc : Nat}
    (isNew : next.stage proc = .new) :
    state.stage proc = .new := by
  cases step with
  | free finished label holds =>
      by_cases same : proc = finished
      · subst same
        simp at isNew
      · simpa [same] using isNew
  | _ => exact isNew

/-- A CPU changes nothing of the timer but its own device. -/
theorem CpuStep.ownDevice
    {config : Config}
    {state next : State n}
    {id : Fin n}
    (step : CpuStep config state id next) :
    next.timer = state.timer ∨
      ∃ timerId, next.timer = state.timer.setDevice (.cpu id) timerId := by
  cases step
  case nextSlot timer label taken =>
    exact .inr ⟨_, (Timer.State.nextSlotEnter_spec taken).2⟩
  case waiting timer label taken =>
    exact .inr ⟨_, Timer.State.nextSlotReturn_spec taken⟩
  case detach timer label taken =>
    exact .inr ⟨_, Timer.State.detachEvent_spec taken⟩
  all_goals exact .inl rfl

/-- Time passes in the steps of the timer thread only. -/
theorem CpuStep.time
    {config : Config}
    {state next : State n}
    {id : Fin n}
    (step : CpuStep config state id next) :
    next.timer.time = state.timer.time := by
  rcases step.ownDevice with same | ⟨timerId, same⟩
  · rw [same]
  · rw [same, Timer.State.setDevice_time]

/-- A CPU enters `next_slot` for no other thread. -/
theorem CpuStep.entered_other
    {config : Config}
    {state next : State n}
    {id : Fin n}
    {dev : Device n}
    (step : CpuStep config state id next)
    (different : dev ≠ .cpu id) :
    next.entered dev = state.entered dev := by
  rw [State.entered, State.entered]
  rcases step.ownDevice with same | ⟨timerId, same⟩
  · rw [same]
  · rw [same, Timer.State.setDevice_device_other _ _ different]

/-- A step of the loader keeps the threads synchronized. -/
theorem Synchronized.ldStep
    {config : Config}
    {state next : State n}
    (synchronized : Synchronized state)
    (step : LdStep config state next) :
    Synchronized next := by
  have local' : ∀ {next : State n}, next.timer = state.timer →
      next.cpu = state.cpu → next.loader.phase = state.loader.phase →
      Synchronized next := by
    intro next timer cpu loader
    refine synchronized.congr timer fun dev => ?_
    cases dev with
    | cpu id => simp [State.phaseOf, cpu]
    | loader => exact loader
  have cpus : ∀ {next : State n} (dev : Device n), next.cpu = state.cpu →
      dev ≠ .loader → next.phaseOf dev = state.phaseOf dev := by
    intro next dev cpu different
    cases dev with
    | cpu id => simp [State.phaseOf, cpu]
    | loader => exact absurd rfl different
  cases step with
  | finish i label all => exact local' rfl rfl (by simp [label, LdLabel.phase])
  | early i label some early => exact local' rfl rfl (by simp [label, LdLabel.phase])
  | arrive i label some due => exact local' rfl rfl (by simp [label, LdLabel.phase])
  | addRunning i label => exact local' rfl rfl (by simp [label, LdLabel.phase])
  | addReady i label => exact local' rfl rfl (by simp [label, LdLabel.phase])
  | nextSlot i timer label taken =>
      obtain ⟨_, changed⟩ := Timer.State.nextSlotEnter_spec taken
      exact synchronized.device .loader _ changed (synchronized.lockstep.step _ taken)
        rfl fun dev different => cpus dev rfl different
  | waiting i timer label taken =>
      exact synchronized.device .loader _ (Timer.State.nextSlotReturn_spec taken)
        (synchronized.lockstep.step _ taken) rfl fun dev different => cpus dev rfl different
  | detach timer label taken =>
      exact synchronized.device .loader _ (Timer.State.detachEvent_spec taken)
        (synchronized.lockstep.step _ taken) rfl fun dev different => cpus dev rfl different

/-- The loader executes no instruction. -/
theorem LdStep.pc
    {config : Config}
    {state next : State n}
    (step : LdStep config state next) :
    next.pc = state.pc := by
  cases step <;> rfl

/-- `done` stays set. -/
theorem LdStep.done
    {config : Config}
    {state next : State n}
    (step : LdStep config state next)
    (done : state.done = true) :
    next.done = true := by
  cases step <;> first | rfl | exact done

/-- The loader changes nothing of the timer but its own device. -/
theorem LdStep.ownDevice
    {config : Config}
    {state next : State n}
    (step : LdStep config state next) :
    next.timer = state.timer ∨
      ∃ timerId, next.timer = state.timer.setDevice .loader timerId := by
  cases step
  case nextSlot i timer label taken =>
    exact .inr ⟨_, (Timer.State.nextSlotEnter_spec taken).2⟩
  case waiting i timer label taken =>
    exact .inr ⟨_, Timer.State.nextSlotReturn_spec taken⟩
  case detach timer label taken =>
    exact .inr ⟨_, Timer.State.detachEvent_spec taken⟩
  all_goals exact .inl rfl

/-- No time passes in a step of the loader. -/
theorem LdStep.time
    {config : Config}
    {state next : State n}
    (step : LdStep config state next) :
    next.timer.time = state.timer.time := by
  rcases step.ownDevice with same | ⟨timerId, same⟩
  · rw [same]
  · rw [same, Timer.State.setDevice_time]

/-- The loader enters `next_slot` for no CPU. -/
theorem LdStep.entered_cpu
    {config : Config}
    {state next : State n}
    (step : LdStep config state next)
    (id : Fin n) :
    next.entered (.cpu id) = state.entered (.cpu id) := by
  have different : Device.cpu id ≠ .loader := nofun
  rw [State.entered, State.entered]
  rcases step.ownDevice with same | ⟨timerId, same⟩
  · rw [same]
  · rw [same, Timer.State.setDevice_device_other _ _ different]

/-- `stop_timer` keeps the threads synchronized. -/
theorem Synchronized.mainRoutine
    {state next : State n}
    (synchronized : Synchronized state)
    (taken : state.mainRoutine = some next) :
    Synchronized next := by
  simp only [State.mainRoutine] at taken
  split at taken
  · obtain ⟨timer, stepped, rfl⟩ := Option.map_eq_some_iff.mp taken
    have lockstep := synchronized.lockstep.step _ stepped
    cases stepped
    exact
      { lockstep := lockstep
        attached := synchronized.attached
        phase := synchronized.phase }
  · cases taken

end Os
end Ossim
