import Ossim.Os.Steps

/-!
# The printed log

`timer_routine`, `cpu_routine` and `ld_routine` print a line when a slot begins, when a
CPU dispatches, puts back or finishes a process or stops, and when a process is loaded.
The lines of all threads go to one stream.

A reader of the log can draw the chart of the simulation: a process stands on a CPU from
the line that dispatches it up to the line that puts it back or finishes it, and the line
of a slot ends the slot before it.
-/

namespace Ossim
namespace Os

open Scheduler Transition

/-- The lines that the threads print, with what `printf` is given. -/
inductive Line (n : Nat)
  | timeSlot (time : Nat)
  | ldRoutine
  | loaded (proc : Nat)
  | finished (id : Fin n) (proc : Nat)
  | put (id : Fin n) (proc : Nat)
  | dispatched (id : Fin n) (proc : Nat)
  | stopped (id : Fin n)
  deriving DecidableEq

/-- The lines that `cpu_routine` prints in one step.  A line is printed together with the
tests in front of it: the process belongs to the CPU, and `done` is never cleared. -/
def State.cpuPrints (config : Config) (state : State n) (id : Fin n) : List (Line n) :=
  let cpu := state.cpu id
  match cpu.label, cpu.proc with
  | .loop, some proc =>
      if state.pc proc = config.codeSize proc then
        [.finished id proc]
      else if cpu.timeLeft = 0 then
        [.put id proc]
      else
        []
  | .testDone, _ => if state.done then [.stopped id] else []
  | .recheck, none => if state.done then [.stopped id] else []
  | .recheck, some proc => if cpu.timeLeft = 0 then [.dispatched id proc] else []
  | _, _ => []

/-- The lines that `ld_routine` prints in one step of its loop. -/
def State.ldPrints (config : Config) (state : State n) : List (Line n) :=
  match state.loader with
  | .head i =>
      if config.numProcesses ≤ i then
        []
      else if state.timer.time < config.startTime i then
        []
      else
        [.loaded i]
  | _ => []

/-- The lines that `timer_routine` prints in one step of its loop. -/
def State.timerPrints (state : State n) : List (Line n) :=
  match state.timer.routine with
  | .collect [] fsh event => if fsh = event then [] else [.timeSlot (state.timer.time + 1)]
  | _ => []

/-- The lines of one step. -/
def State.prints (config : Config) (state : State n) : Event n → List (Line n)
  | .timer => state.timerPrints
  | .cpu id => state.cpuPrints config id
  | .loader => state.ldPrints config
  | .main => []

/-- The threads together with what they have printed.  The timer and the loader print
their first line before their loops. -/
structure Logged (n : Nat) where
  base : State n
  timerStarted : Bool
  loaderStarted : Bool
  lines : List (Line n)

namespace Logged

/-- The threads have been created. -/
def boot (n : Nat) : Logged n where
  base := Os.boot n
  timerStarted := false
  loaderStarted := false
  lines := []

/-- A step of the threads, with its lines. -/
def goes (config : Config) (logged : Logged n) (event : Event n) : Option (Logged n) :=
  (logged.base.step config event).map fun next =>
    { logged with
      base := next
      lines := logged.lines ++ logged.base.prints config event }

/-- The atomic steps of the simulated system, with their lines. -/
def step (config : Config) (logged : Logged n) : Event n → Option (Logged n)
  | .timer =>
      if logged.timerStarted then
        logged.goes config .timer
      else
        some { logged with
          timerStarted := true
          lines := logged.lines ++ [.timeSlot logged.base.timer.time] }
  | .loader =>
      if logged.loaderStarted then
        logged.goes config .loader
      else
        some { logged with
          loaderStarted := true
          lines := logged.lines ++ [.ldRoutine] }
  | event => logged.goes config event

end Logged

/-! ## Reading the log -/

/-- A chart of the processes on the CPUs: where they stand after the lines that have been
read, and where they stood in the slots that have ended. -/
structure Chart (n : Nat) where
  onCpu : Fin n → Option Nat
  cell : Nat → Fin n → Option Nat

namespace Chart

/-- Nothing has been read. -/
def blank (n : Nat) : Chart n where
  onCpu := fun _ => none
  cell := fun _ _ => none

/-- Read one line. -/
def read (chart : Chart n) : Line n → Chart n
  | .dispatched id proc =>
      { chart with onCpu := Function.update chart.onCpu id (some proc) }
  | .finished id _ | .put id _ =>
      { chart with onCpu := Function.update chart.onCpu id none }
  | .timeSlot (slot + 1) =>
      { chart with cell := Function.update chart.cell slot chart.onCpu }
  | _ => chart

/-- Read a log. -/
def ofLog (lines : List (Line n)) : Chart n :=
  lines.foldl read (blank n)

theorem ofLog_append (lines more : List (Line n)) :
    ofLog (lines ++ more) = more.foldl read (ofLog lines) :=
  List.foldl_append

end Chart

/-! ## Who stands on a CPU -/

/-- The process that the log shows on a CPU. -/
def Cpu.shown (cpu : Cpu) : Option Nat :=
  match cpu.label with
  | .loop | .run | .exec | .nextSlot | .waiting => cpu.proc
  | .recheck => if cpu.timeLeft = 0 then none else cpu.proc
  | _ => none

/-- At these positions a CPU has no time left, because it has no process or one that it
has not dispatched. -/
def Label.resting : Label → Bool
  | .putRunning | .putReady => true
  | .updatePrio .preempted | .updateRead .preempted _ | .updateWrite .preempted _ _ => true
  | .getProc none | .getProc (some .preempted) => true
  | .testDone | .slotPrio | .slotRead _ => true
  | _ => false

/-- A CPU that rests or has no process has no time left. -/
def Cpu.Rested (cpu : Cpu) : Prop :=
  cpu.label.resting = true ∨ cpu.proc = none → cpu.timeLeft = 0

/-- Most steps keep it. -/
theorem Move.rested
    {config : Config}
    {state : State n}
    {cpu cpu' : Cpu}
    {sched : Sched Nat}
    (moves : Move config state cpu cpu' sched)
    (rested : cpu.Rested) :
    cpu'.Rested := by
  cases moves with
  | loopIdle label proc => exact fun _ => rested (.inr proc)
  | loopExpired proc label holds unfinished expired => exact fun _ => expired
  | loopFinished | loopContinue =>
      rintro (resting | nothing)
      · cases resting
      · exact rested (.inr nothing)
  | updatePrio branch _ label | updateRead branch _ label | updateWrite branch _ _ label =>
      rintro (resting | nothing)
      · cases branch with
        | finished => cases resting
        | preempted => exact rested (.inl (by rw [label]; rfl))
      · exact rested (.inr nothing)
  | putRunning _ label | testDone label | slotPrio _ label | slotRead _ label =>
      exact fun _ => rested (.inl (by rw [label]; rfl))
  | recheckNull label proc => exact fun _ => rested (.inr proc)
  | recheckProc proc label holds =>
      rintro (resting | nothing)
      · rw [Cpu.dispatched_label] at resting
        cases resting
      · rw [Cpu.dispatched_proc, holds] at nothing
        cases nothing

/-- Every step of a CPU keeps it. -/
theorem CpuStep.rested
    {config : Config}
    {state next : State n}
    {id : Fin n}
    (step : CpuStep config state id next)
    (rested : ∀ id, (state.cpu id).Rested)
    (other : Fin n) :
    (next.cpu other).Rested := by
  by_cases same : other = id
  case neg =>
    rw [step.cpu_other same]
    exact rested other
  subst same
  have before := rested other
  cases step with
  | move cpu sched moves =>
      rw [State.setCpu_cpu_same]
      exact moves.rested before
  | putReady proc label holds =>
      rw [State.setCpu_cpu_same]
      exact fun _ => before (.inl (by rw [label]; rfl))
  | free proc label holds =>
      rw [State.setCpu_cpu_same]
      rintro (resting | nothing)
      · cases resting
      · exact before (.inr nothing)
  | getProc given result sched label fetch =>
      rw [State.setCpu_cpu_same]
      intro _
      by_cases finished : given = some .finished
      · simp [Cpu.fetched, finished]
      · have resting : (state.cpu other).label.resting = true := by
          rw [label]
          cases given with
          | none => rfl
          | some branch =>
              cases branch with
              | finished => exact absurd rfl finished
              | preempted => rfl
        simpa [Cpu.fetched, finished] using before (.inl resting)
  | run proc label holds =>
      rw [State.setCpu_cpu_same]
      rintro (resting | nothing)
      · split at resting <;> cases resting
      · split at nothing <;> simp [holds] at nothing
  | exec proc label holds =>
      rw [State.setCpu_cpu_same]
      rintro (resting | nothing)
      · cases resting
      · simp [holds] at nothing
  | nextSlot timer label taken | waiting timer label taken | detach timer label taken =>
      rw [State.setCpu_cpu_same]
      rintro (resting | nothing)
      · cases resting
      · exact before (.inr nothing)

/-! ## What the lines of a CPU say -/

section Reading

variable {config : Config} {state next : State n} {id : Fin n}

/-- A CPU prints nothing about the others, and no slot. -/
theorem read_cpuPrints_other
    (chart : Chart n)
    {other : Fin n}
    (different : other ≠ id) :
    ((state.cpuPrints config id).foldl Chart.read chart).onCpu other = chart.onCpu other := by
  simp only [State.cpuPrints]
  split <;> (repeat' split) <;> simp [Chart.read, different]

theorem read_cpuPrints_cell (chart : Chart n) :
    ((state.cpuPrints config id).foldl Chart.read chart).cell = chart.cell := by
  simp only [State.cpuPrints]
  split <;> (repeat' split) <;> simp [Chart.read]

/-- At most positions a CPU prints nothing. -/
theorem cpuPrints_eq_nil
    (loop : (state.cpu id).label ≠ .loop)
    (testDone : (state.cpu id).label ≠ .testDone)
    (recheck : (state.cpu id).label ≠ .recheck) :
    state.cpuPrints config id = [] := by
  simp only [State.cpuPrints]
  split <;> simp_all

/-- The line of a CPU that stops moves no process. -/
theorem read_stopped
    (chart : Chart n)
    (done : Bool) :
    (if done then [Line.stopped id] else []).foldl Chart.read chart = chart := by
  cases done <;> rfl

/-- The log shows on a CPU the process that it has dispatched last. -/
theorem Move.shown
    {cpu' : Cpu}
    {sched : Sched Nat}
    {chart : Chart n}
    (moves : Move config state (state.cpu id) cpu' sched)
    (rested : (state.cpu id).Rested)
    (idle : (state.cpu id).label = .testDone → (state.cpu id).proc = none)
    (agrees : chart.onCpu id = (state.cpu id).shown) :
    ((state.cpuPrints config id).foldl Chart.read chart).onCpu id = cpu'.shown := by
  have silent : (state.cpu id).label ≠ .loop → (state.cpu id).label ≠ .testDone →
      (state.cpu id).label ≠ .recheck → cpu'.shown = (state.cpu id).shown →
      ((state.cpuPrints config id).foldl Chart.read chart).onCpu id = cpu'.shown := by
    intro loop testDone recheck same
    rw [cpuPrints_eq_nil loop testDone recheck, same]
    exact agrees
  cases moves with
  | loopIdle label proc =>
      have prints : state.cpuPrints config id = [] := by simp [State.cpuPrints, label, proc]
      rw [prints, List.foldl_nil, agrees]
      simp [Cpu.shown, label, proc]
  | loopFinished proc label holds finished =>
      have prints : state.cpuPrints config id = [.finished id proc] := by
        simp [State.cpuPrints, label, holds, finished]
      simp [prints, Chart.read, Cpu.shown]
  | loopExpired proc label holds unfinished expired =>
      have prints : state.cpuPrints config id = [.put id proc] := by
        simp [State.cpuPrints, label, holds, unfinished, expired]
      simp [prints, Chart.read, Cpu.shown]
  | loopContinue proc label holds unfinished unexpired =>
      have prints : state.cpuPrints config id = [] := by
        simp [State.cpuPrints, label, holds, unfinished, unexpired]
      rw [prints, List.foldl_nil, agrees]
      simp [Cpu.shown, Cpu.moved, label, unexpired]
  | putRunning proc label holds | updatePrio branch proc label holds
  | updateRead branch prio label | slotPrio proc label holds =>
      refine silent ?_ ?_ ?_ ?_ <;> simp [Cpu.shown, label]
  | updateWrite branch prio value label =>
      refine silent ?_ ?_ ?_ ?_ <;> cases branch <;> simp [Cpu.shown, label, Branch.afterUpdate]
  | testDone label =>
      have prints : state.cpuPrints config id = if state.done then [.stopped id] else [] := by
        simp [State.cpuPrints, label]
      rw [prints, read_stopped, agrees]
      cases state.done <;> simp [Cpu.shown, label, idle label]
  | slotRead prio label =>
      refine silent ?_ ?_ ?_ ?_
      · simp [label]
      · simp [label]
      · simp [label]
      · have noTime : (state.cpu id).timeLeft = 0 := rested (.inl (by rw [label]; rfl))
        simp [Cpu.shown, Cpu.gotSlot, label, noTime]
  | recheckNull label proc =>
      have prints : state.cpuPrints config id = if state.done then [.stopped id] else [] := by
        simp [State.cpuPrints, label, proc]
      rw [prints, read_stopped, agrees]
      cases state.done <;> simp [Cpu.shown, label, proc]
  | recheckProc proc label holds =>
      have shown : ((state.cpu id).dispatched config.timeSlot).shown = some proc := by
        simp [Cpu.shown, holds]
      rw [shown]
      by_cases expired : (state.cpu id).timeLeft = 0
      · have prints : state.cpuPrints config id = [.dispatched id proc] := by
          simp [State.cpuPrints, label, holds, expired]
        simp [prints, Chart.read]
      · have prints : state.cpuPrints config id = [] := by
          simp [State.cpuPrints, label, holds, expired]
        rw [prints, List.foldl_nil, agrees]
        simp [Cpu.shown, label, holds, expired]

/-- So after every step of a CPU. -/
theorem CpuStep.shown
    {chart : Chart n}
    (step : CpuStep config state id next)
    (rested : (state.cpu id).Rested)
    (idle : (state.cpu id).label = .testDone → (state.cpu id).proc = none)
    (agrees : chart.onCpu id = (state.cpu id).shown) :
    ((state.cpuPrints config id).foldl Chart.read chart).onCpu id = (next.cpu id).shown := by
  have silent : (state.cpu id).label ≠ .loop → (state.cpu id).label ≠ .testDone →
      (state.cpu id).label ≠ .recheck → (next.cpu id).shown = (state.cpu id).shown →
      ((state.cpuPrints config id).foldl Chart.read chart).onCpu id = (next.cpu id).shown := by
    intro loop testDone recheck same
    rw [cpuPrints_eq_nil loop testDone recheck, same]
    exact agrees
  cases step with
  | move cpu sched moves =>
      rw [State.setCpu_cpu_same]
      exact moves.shown rested idle agrees
  | getProc given result sched label fetch =>
      refine silent ?_ ?_ ?_ ?_
      · simp [label]
      · simp [label]
      · simp [label]
      · rw [State.setCpu_cpu_same]
        cases result <;> cases given <;> simp [Cpu.shown, label, afterGetProc]
  | run proc label holds =>
      refine silent ?_ ?_ ?_ ?_
      · simp [label]
      · simp [label]
      · simp [label]
      · rw [State.setCpu_cpu_same]
        split <;> simp [Cpu.shown, label]
  | putReady proc label holds | free proc label holds | exec proc label holds
  | nextSlot timer label taken | waiting timer label taken | detach timer label taken =>
      refine silent ?_ ?_ ?_ ?_ <;> simp [Cpu.shown, label]

end Reading

end Os
end Ossim
