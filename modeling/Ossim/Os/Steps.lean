import Ossim.Os.Defs
import Ossim.Scheduler.Mlq

/-!
# What a step of a CPU can do

Most steps of `cpu_routine` change the local variables of the CPU and at most
the slots or `running_list`.  `Move` lists them, and `CpuStep` lists these and
the steps that change queues, PCBs or the timer, so that no later proof has to
unfold the step function.
-/

namespace Ossim
namespace Os

open Scheduler

/-- Where a position stands in the protocol of the timer. -/
def Label.phase : Label → Timer.Phase
  | .waiting => .waiting
  | .stopped => .detached
  | _ => .working

/-- Where a position of the loader stands in the protocol of the timer. -/
def LdLabel.phase : LdLabel → Timer.Phase
  | .waiting _ => .waiting
  | .stopped => .detached
  | _ => .working

/-- At these positions the process in `proc` belongs to the CPU: it has been
fetched and neither been put back nor freed. -/
def Label.owns : Label → Bool
  | .updatePrio .preempted => false
  | .updateRead .preempted _ => false
  | .updateWrite .preempted _ _ => false
  | .getProc _ => false
  | .testDone => false
  | .detach => false
  | .stopped => false
  | _ => true

/-- The process that a CPU owns. -/
def Cpu.held (cpu : Cpu) : Option Nat :=
  if cpu.label.owns then cpu.proc else none

/-- Who owns what. -/
def State.held (state : State n) (id : Fin n) : Option Nat :=
  (state.cpu id).held

/-- The process stands in a ready queue. -/
def State.Queued (state : State n) (proc : Nat) : Prop :=
  ∃ level, proc ∈ (state.sched.mlqReadyQueue level).contents

/-- The process has been added and has not finished. -/
def State.Live (state : State n) (proc : Nat) : Prop :=
  state.stage proc = .added

/-- How often a device has entered `next_slot`. -/
def State.entered (state : State n) (dev : Device n) : Nat :=
  (state.timer.device dev).entered

/-- The process whose PCB the next step of a CPU reads. -/
def Cpu.reads (cpu : Cpu) : Option Nat :=
  match cpu.label with
  | .loop | .putRunning | .putReady | .updatePrio _ | .free | .slotPrio
  | .recheck | .run | .exec => cpu.proc
  | _ => none

/-- Steps of a CPU that leave queues, PCBs and the timer as they are: the new
local variables and the new scheduler. -/
inductive Move (config : Config) (state : State n) (cpu : Cpu) :
    Cpu → Sched Nat → Prop
  | loopIdle
      (label : cpu.label = .loop)
      (proc : cpu.proc = none) :
      Move config state cpu (cpu.moved (.getProc none)) state.sched
  | loopFinished (proc : Nat)
      (label : cpu.label = .loop)
      (holds : cpu.proc = some proc)
      (finished : state.pc proc = config.codeSize proc) :
      Move config state cpu (cpu.moved (.updatePrio .finished)) state.sched
  | loopExpired (proc : Nat)
      (label : cpu.label = .loop)
      (holds : cpu.proc = some proc)
      (unfinished : state.pc proc ≠ config.codeSize proc)
      (expired : cpu.timeLeft = 0) :
      Move config state cpu (cpu.moved .putRunning) state.sched
  | loopContinue (proc : Nat)
      (label : cpu.label = .loop)
      (holds : cpu.proc = some proc)
      (unfinished : state.pc proc ≠ config.codeSize proc)
      (unexpired : cpu.timeLeft ≠ 0) :
      Move config state cpu (cpu.moved .recheck) state.sched
  | putRunning (proc : Nat)
      (label : cpu.label = .putRunning)
      (holds : cpu.proc = some proc) :
      Move config state cpu (cpu.moved .putReady)
        (state.sched.enlistRunning proc)
  | updatePrio (branch : Branch) (proc : Nat)
      (label : cpu.label = .updatePrio branch)
      (holds : cpu.proc = some proc) :
      Move config state cpu
        (cpu.moved (.updateRead branch (config.prio proc))) state.sched
  | updateRead (branch : Branch) (prio : Nat)
      (label : cpu.label = .updateRead branch prio) :
      Move config state cpu
        (cpu.moved
          (.updateWrite branch prio (state.sched.getSlot prio - cpu.useTime)))
        state.sched
  | updateWrite (branch : Branch) (prio : Nat) (value : Int)
      (label : cpu.label = .updateWrite branch prio value) :
      Move config state cpu (cpu.moved branch.afterUpdate)
        (state.sched.writeSlot prio value)
  | testDone
      (label : cpu.label = .testDone) :
      Move config state cpu
        (cpu.moved (if state.done then .detach else .nextSlot)) state.sched
  | slotPrio (proc : Nat)
      (label : cpu.label = .slotPrio)
      (holds : cpu.proc = some proc) :
      Move config state cpu
        (cpu.moved (.slotRead (config.prio proc))) state.sched
  | slotRead (prio : Nat)
      (label : cpu.label = .slotRead prio) :
      Move config state cpu
        (cpu.gotSlot (state.sched.getSlot prio)) state.sched
  | recheckNull
      (label : cpu.label = .recheck)
      (proc : cpu.proc = none) :
      Move config state cpu
        (cpu.moved (if state.done then .detach else .nextSlot)) state.sched
  | recheckProc (proc : Nat)
      (label : cpu.label = .recheck)
      (holds : cpu.proc = some proc) :
      Move config state cpu (cpu.dispatched config.timeSlot) state.sched

/-- The possible steps of one CPU. -/
inductive CpuStep (config : Config) (state : State n) (id : Fin n) :
    State n → Prop
  | move (cpu : Cpu) (sched : Sched Nat)
      (moves : Move config state (state.cpu id) cpu sched) :
      CpuStep config state id { state.setCpu id cpu with sched := sched }
  | putReady (proc : Nat)
      (label : (state.cpu id).label = .putReady)
      (holds : (state.cpu id).proc = some proc) :
      CpuStep config state id
        { state.setCpu id ((state.cpu id).moved (.updatePrio .preempted)) with
          sched := state.sched.putMlqProc (config.prio proc) proc
          history := state.history.enqueue proc state.timer.time (some id) }
  | free (proc : Nat)
      (label : (state.cpu id).label = .free)
      (holds : (state.cpu id).proc = some proc) :
      CpuStep config state id
        { state.setCpu id ((state.cpu id).moved (.getProc (some .finished))) with
          stage := Function.update state.stage proc .finished }
  | getProc (given : Option Branch) (result : Option Nat) (sched : Sched Nat)
      (label : (state.cpu id).label = .getProc given)
      (fetch : Sched.Fetch state.sched result sched) :
      CpuStep config state id
        { state.setCpu id ((state.cpu id).fetched given result) with
          sched := sched }
  | run (proc : Nat)
      (label : (state.cpu id).label = .run)
      (holds : (state.cpu id).proc = some proc) :
      CpuStep config state id
        { state.setCpu id
            (if config.codeSize proc ≤ state.pc proc then
              (state.cpu id).afterRun
            else
              (state.cpu id).moved .exec) with
          history := state.history.record ⟨.run, state.timer.time, proc, id⟩ }
  | exec (proc : Nat)
      (label : (state.cpu id).label = .exec)
      (holds : (state.cpu id).proc = some proc) :
      CpuStep config state id
        { state.setCpu id (state.cpu id).afterRun with
          pc := Function.update state.pc proc (state.pc proc + 1)
          history :=
            state.history.record ⟨.instruction, state.timer.time, proc, id⟩ }
  | nextSlot (timer : Timer.State (Device n))
      (label : (state.cpu id).label = .nextSlot)
      (taken : state.timer.step (.nextSlotEnter (.cpu id)) = some timer) :
      CpuStep config state id
        { state.setCpu id ((state.cpu id).moved .waiting) with timer := timer }
  | waiting (timer : Timer.State (Device n))
      (label : (state.cpu id).label = .waiting)
      (taken : state.timer.step (.nextSlotReturn (.cpu id)) = some timer) :
      CpuStep config state id
        { state.setCpu id ((state.cpu id).moved .loop) with timer := timer }
  | detach (timer : Timer.State (Device n))
      (label : (state.cpu id).label = .detach)
      (taken : state.timer.step (.detachEvent (.cpu id)) = some timer) :
      CpuStep config state id
        { state.setCpu id ((state.cpu id).moved .stopped) with timer := timer }

/-- The possible steps of the loader. -/
inductive LdStep (config : Config) (state : State n) : State n → Prop
  | finish (i : Nat)
      (label : state.loader = .head i)
      (all : config.numProcesses ≤ i) :
      LdStep config state { state with loader := .detach, done := true }
  | early (i : Nat)
      (label : state.loader = .head i)
      (some : i < config.numProcesses)
      (early : state.timer.time < config.startTime i) :
      LdStep config state { state with loader := .nextSlot i }
  | arrive (i : Nat)
      (label : state.loader = .head i)
      (some : i < config.numProcesses)
      (due : config.startTime i ≤ state.timer.time) :
      LdStep config state { state with loader := .addRunning i }
  | addRunning (i : Nat)
      (label : state.loader = .addRunning i) :
      LdStep config state
        { state with
          loader := .addReady i
          sched := state.sched.enlistRunning i }
  | addReady (i : Nat)
      (label : state.loader = .addReady i) :
      LdStep config state
        { state with
          loader := .nextSlot (i + 1)
          sched := state.sched.putMlqProc (config.prio i) i
          stage := Function.update state.stage i .added
          history := state.history.enqueue i state.timer.time none }
  | nextSlot (i : Nat) (timer : Timer.State (Device n))
      (label : state.loader = .nextSlot i)
      (taken : state.timer.step (.nextSlotEnter .loader) = some timer) :
      LdStep config state { state with loader := .waiting i, timer := timer }
  | waiting (i : Nat) (timer : Timer.State (Device n))
      (label : state.loader = .waiting i)
      (taken : state.timer.step (.nextSlotReturn .loader) = some timer) :
      LdStep config state { state with loader := .head i, timer := timer }
  | detach (timer : Timer.State (Device n))
      (label : state.loader = .detach)
      (taken : state.timer.step (.detachEvent .loader) = some timer) :
      LdStep config state { state with loader := .stopped, timer := timer }

@[simp] theorem Cpu.moved_label (cpu : Cpu) (label : Label) :
    (cpu.moved label).label = label := rfl

@[simp] theorem Cpu.moved_proc (cpu : Cpu) (label : Label) :
    (cpu.moved label).proc = cpu.proc := rfl

@[simp] theorem Cpu.gotSlot_label (cpu : Cpu) (value : Int) :
    (cpu.gotSlot value).label = .recheck := rfl

@[simp] theorem Cpu.gotSlot_proc (cpu : Cpu) (value : Int) :
    (cpu.gotSlot value).proc = cpu.proc := rfl

@[simp] theorem Cpu.fetched_label
    (cpu : Cpu) (given : Option Branch) (result : Option Nat) :
    (cpu.fetched given result).label = afterGetProc given result := rfl

@[simp] theorem Cpu.fetched_proc
    (cpu : Cpu) (given : Option Branch) (result : Option Nat) :
    (cpu.fetched given result).proc = result := rfl

@[simp] theorem Cpu.dispatched_label (cpu : Cpu) (timeSlot : Int) :
    (cpu.dispatched timeSlot).label = .run := by
  unfold dispatched
  split <;> rfl

@[simp] theorem Cpu.dispatched_proc (cpu : Cpu) (timeSlot : Int) :
    (cpu.dispatched timeSlot).proc = cpu.proc := by
  unfold dispatched
  split <;> rfl

@[simp] theorem Cpu.afterRun_label (cpu : Cpu) :
    cpu.afterRun.label = .nextSlot := rfl

@[simp] theorem Cpu.afterRun_proc (cpu : Cpu) :
    cpu.afterRun.proc = cpu.proc := rfl

theorem Cpu.held_of_owns
    {cpu : Cpu}
    (owns : cpu.label.owns = true) :
    cpu.held = cpu.proc := by
  simp [held, owns]

namespace State

variable (state : State n) (id : Fin n) (cpu : Cpu)

@[simp] theorem setCpu_cpu_same : (state.setCpu id cpu).cpu id = cpu := by
  simp [setCpu]

theorem setCpu_cpu_other
    {id other : Fin n}
    (different : other ≠ id) :
    (state.setCpu id cpu).cpu other = state.cpu other := by
  simp [setCpu, different]

@[simp] theorem setCpu_timer : (state.setCpu id cpu).timer = state.timer := rfl

@[simp] theorem setCpu_sched : (state.setCpu id cpu).sched = state.sched := rfl

@[simp] theorem setCpu_loader : (state.setCpu id cpu).loader = state.loader := rfl

@[simp] theorem setCpu_done : (state.setCpu id cpu).done = state.done := rfl

@[simp] theorem setCpu_pc : (state.setCpu id cpu).pc = state.pc := rfl

@[simp] theorem setCpu_stage : (state.setCpu id cpu).stage = state.stage := rfl

@[simp] theorem setCpu_history :
    (state.setCpu id cpu).history = state.history := rfl

end State

/-- Inversion of `cpu_routine`. -/
theorem cpuStep_of_cpuRoutine
    {config : Config}
    {state next : State n}
    {id : Fin n}
    (taken : state.cpuRoutine config id = some next) :
    CpuStep config state id next := by
  cases label : (state.cpu id).label <;> cases holds : (state.cpu id).proc <;>
    simp only [State.cpuRoutine, label, holds, Option.some.injEq,
      Option.map_eq_some_iff, reduceCtorEq] at taken
  case loop.none =>
    subst taken
    exact .move _ _ (.loopIdle label holds)
  case loop.some proc =>
    split at taken
    case isTrue finished =>
      cases taken
      exact .move _ _ (.loopFinished proc label holds finished)
    case isFalse unfinished =>
      split at taken <;> cases taken
      case isTrue expired =>
        exact .move _ _ (.loopExpired proc label holds unfinished expired)
      case isFalse unexpired =>
        exact .move _ _ (.loopContinue proc label holds unfinished unexpired)
  case putRunning.some proc =>
    subst taken
    exact .move _ _ (.putRunning proc label holds)
  case putReady.some proc =>
    subst taken
    exact .putReady proc label holds
  case updatePrio.some branch proc =>
    subst taken
    exact .move _ _ (.updatePrio branch proc label holds)
  case updateRead.none branch prio | updateRead.some branch prio _ =>
    subst taken
    exact .move _ _ (.updateRead branch prio label)
  case updateWrite.none branch prio value | updateWrite.some branch prio value _ =>
    subst taken
    exact .move _ _ (.updateWrite branch prio value label)
  case free.some proc =>
    subst taken
    exact .free proc label holds
  case getProc.none given | getProc.some given _ =>
    split at taken <;> cases taken
    rename_i result sched fetched
    exact .getProc given result sched label (Sched.fetch_of_getMlqProc fetched)
  case testDone.none | testDone.some _ =>
    subst taken
    exact .move _ _ (.testDone label)
  case slotPrio.some proc =>
    subst taken
    exact .move _ _ (.slotPrio proc label holds)
  case slotRead.none prio | slotRead.some prio _ =>
    subst taken
    exact .move _ _ (.slotRead prio label)
  case recheck.none =>
    subst taken
    exact .move _ _ (.recheckNull label holds)
  case recheck.some proc =>
    subst taken
    exact .move _ _ (.recheckProc proc label holds)
  case run.some proc =>
    subst taken
    exact .run proc label holds
  case exec.some proc =>
    subst taken
    exact .exec proc label holds
  case nextSlot.none | nextSlot.some _ =>
    obtain ⟨timer, stepped, rfl⟩ := taken
    exact .nextSlot timer label stepped
  case waiting.none | waiting.some _ =>
    obtain ⟨timer, stepped, rfl⟩ := taken
    exact .waiting timer label stepped
  case detach.none | detach.some _ =>
    obtain ⟨timer, stepped, rfl⟩ := taken
    exact .detach timer label stepped

/-- A CPU changes no other CPU. -/
theorem CpuStep.cpu_other
    {config : Config}
    {state next : State n}
    {id other : Fin n}
    (step : CpuStep config state id next)
    (different : other ≠ id) :
    next.cpu other = state.cpu other := by
  cases step <;> exact state.setCpu_cpu_other _ different

/-- The loader changes no CPU. -/
theorem LdStep.cpu
    {config : Config}
    {state next : State n}
    (step : LdStep config state next) :
    next.cpu = state.cpu := by
  cases step <;> rfl

/-- Inversion of `ld_routine`. -/
theorem ldStep_of_ldRoutine
    {config : Config}
    {state next : State n}
    (taken : state.ldRoutine config = some next) :
    LdStep config state next := by
  cases label : state.loader <;>
    simp only [State.ldRoutine, label, Option.some.injEq,
      Option.map_eq_some_iff, reduceCtorEq] at taken
  case head i =>
    split at taken
    case isTrue all =>
      cases taken
      exact .finish i label all
    case isFalse some =>
      split at taken <;> cases taken
      case isTrue early =>
        exact .early i label (by omega) early
      case isFalse due =>
        exact .arrive i label (by omega) (by omega)
  case addRunning i =>
    subst taken
    exact .addRunning i label
  case addReady i =>
    subst taken
    exact .addReady i label
  case nextSlot i =>
    obtain ⟨timer, stepped, rfl⟩ := taken
    exact .nextSlot i timer label stepped
  case waiting i =>
    obtain ⟨timer, stepped, rfl⟩ := taken
    exact .waiting i timer label stepped
  case detach =>
    obtain ⟨timer, stepped, rfl⟩ := taken
    exact .detach timer label stepped

end Os
end Ossim
