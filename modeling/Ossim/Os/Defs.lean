import Ossim.Timer.Defs
import Ossim.Scheduler.Placement
import Mathlib.Data.List.FinRange

/-!
# CPUs, loader and timer

The threads that `main` starts, with a program position for every place at
which one of them can be interrupted between two accesses to shared data: each
section under a mutex is one atomic step, and so is every other access to the
queues, to `slot`, to `done`, to the time and to a PCB.

Processes are numbered in the order of the configuration file.  Programs do not
execute `SYSCALL 101`, so `run` touches nothing but the PCB of its process.
-/

namespace Ossim
namespace Os

open Scheduler

/-- The configuration file and the programs that it names. -/
structure Config extends Workload Nat where
  timeSlot : Int
  numProcesses : Nat
  startTime : Nat → Nat

/-- The threads that are attached to the timer. -/
inductive Device (n : Nat)
  | cpu (id : Fin n)
  | loader
  deriving DecidableEq

/-- The branches of `cpu_routine` in which a CPU gives up its process. -/
inductive Branch
  | finished
  | preempted
  deriving DecidableEq

/-- Positions of `cpu_routine`, each in front of its next access to shared
data. -/
inductive Label
  /-- The test of `proc` at the head of the loop. -/
  | loop
  /-- The two sections of `put_proc`. -/
  | putRunning
  | putReady
  /-- `update_slot(proc->prio, use_time)`: the three accesses. -/
  | updatePrio (branch : Branch)
  | updateRead (branch : Branch) (prio : Nat)
  | updateWrite (branch : Branch) (prio : Nat) (value : Int)
  | free
  /-- `get_proc()`, without a process or in one of the two branches. -/
  | getProc (given : Option Branch)
  /-- The test of `done` of an idle CPU. -/
  | testDone
  /-- `get_slot(proc->prio)`: the two accesses. -/
  | slotPrio
  | slotRead (prio : Nat)
  /-- The tests behind "Recheck process status". -/
  | recheck
  /-- `run(proc)`: the test of the program counter, and the instruction. -/
  | run
  | exec
  /-- `next_slot`: before it, and behind the section that sets `done`. -/
  | nextSlot
  | waiting
  | detach
  | stopped
  deriving DecidableEq

/-- Positions of `ld_routine`, with its variable `i`. -/
inductive LdLabel
  /-- The tests of `i` and of the start time. -/
  | head (i : Nat)
  /-- The two sections of `add_proc`. -/
  | addRunning (i : Nat)
  | addReady (i : Nat)
  | nextSlot (i : Nat)
  | waiting (i : Nat)
  | detach
  | stopped
  deriving DecidableEq

/-- The local variables of `cpu_routine`. -/
structure Cpu where
  label : Label
  proc : Option Nat
  timeLeft : Int
  useTime : Int
  remainingSlot : Int

/-- A call of `run`, or the instruction that a call executes. -/
inductive Action
  | run
  | instruction
  deriving DecidableEq

/-- One entry of the record of what was executed when. -/
structure Entry (n : Nat) where
  action : Action
  time : Nat
  proc : Nat
  cpu : Fin n
  deriving DecidableEq

/-- What the code does not store: the executed actions, the slot in which a
process was last put into a ready queue, and by which CPU (`none` is the
loader). -/
structure History (n : Nat) where
  log : List (Entry n)
  enqueuedAt : Nat → Nat
  enqueuedBy : Nat → Option (Fin n)

/-- The state of all threads and of the data they share. -/
structure State (n : Nat) where
  timer : Timer.State (Device n)
  sched : Sched Nat
  cpu : Fin n → Cpu
  loader : LdLabel
  done : Bool
  pc : Nat → Nat
  stage : Nat → Stage
  history : History n

/-- Atomic steps, by the thread that takes them. -/
inductive Event (n : Nat)
  | timer
  | cpu (id : Fin n)
  | loader
  | main
  deriving DecidableEq

/-! ## Steps of a CPU -/

/-- The position behind `update_slot`. -/
def Branch.afterUpdate : Branch → Label
  | .finished => .free
  | .preempted => .getProc (some .preempted)

/-- The local variables at the start of `cpu_routine`. -/
def Cpu.start : Cpu where
  label := .loop
  proc := none
  timeLeft := 0
  useTime := 0
  remainingSlot := 0

/-- Move a CPU to a position. -/
def Cpu.moved (cpu : Cpu) (label : Label) : Cpu :=
  { cpu with label := label }

/-- Behind the call of `get_slot`. -/
def Cpu.gotSlot (cpu : Cpu) (value : Int) : Cpu :=
  { cpu with
    label := .recheck
    remainingSlot := value }

/-- The position behind `get_proc`. -/
def afterGetProc : Option Branch → Option Nat → Label
  | _, some _ => .slotPrio
  | none, none => .testDone
  | some _, none => .recheck

/-- The assignments around `get_proc`: the branch of a finished process also
clears `time_left` and `use_time`. -/
def Cpu.fetched (cpu : Cpu) (given : Option Branch) (result : Option Nat) : Cpu where
  label := afterGetProc given result
  proc := result
  timeLeft := if given = some .finished then 0 else cpu.timeLeft
  useTime := if given = some .finished then 0 else cpu.useTime
  remainingSlot := cpu.remainingSlot

/-- The value that a dispatch gives to `time_left`. -/
def Cpu.slice (timeSlot : Int) (cpu : Cpu) : Int :=
  if timeSlot < cpu.remainingSlot then timeSlot else cpu.remainingSlot

/-- Up to the call of `run`: a process without time left is dispatched. -/
def Cpu.dispatched (timeSlot : Int) (cpu : Cpu) : Cpu :=
  if cpu.timeLeft = 0 then
    { cpu with
      label := .run
      timeLeft := cpu.slice timeSlot
      useTime := 0 }
  else
    cpu.moved .run

/-- Behind the call of `run`. -/
def Cpu.afterRun (cpu : Cpu) : Cpu :=
  { cpu with
    label := .nextSlot
    timeLeft := cpu.timeLeft - 1
    useTime := cpu.useTime + 1 }

/-- Record an action. -/
def History.record (history : History n) (entry : Entry n) : History n :=
  { history with log := entry :: history.log }

/-- Record that a process is put into a ready queue. -/
def History.enqueue (history : History n)
    (proc time : Nat) (cpu : Option (Fin n)) : History n :=
  { history with
    enqueuedAt := Function.update history.enqueuedAt proc time
    enqueuedBy := Function.update history.enqueuedBy proc cpu }

namespace State

/-- Replace the local variables of one CPU. -/
def setCpu (state : State n) (id : Fin n) (cpu : Cpu) : State n :=
  { state with cpu := Function.update state.cpu id cpu }

/-- Move one CPU to a position. -/
def goto (state : State n) (id : Fin n) (label : Label) : State n :=
  state.setCpu id ((state.cpu id).moved label)

/-- One step of `cpu_routine`.  A step that would dereference `NULL` does not
exist. -/
def cpuRoutine (config : Config) (state : State n) (id : Fin n) :
    Option (State n) :=
  let cpu := state.cpu id
  match cpu.label, cpu.proc with
  | .loop, none => some (state.goto id (.getProc none))
  | .loop, some proc =>
      if state.pc proc = config.codeSize proc then
        some (state.goto id (.updatePrio .finished))
      else if cpu.timeLeft = 0 then
        some (state.goto id .putRunning)
      else
        some (state.goto id .recheck)
  | .putRunning, some proc =>
      some { state.goto id .putReady with
        sched := state.sched.enlistRunning proc }
  | .putReady, some proc =>
      some { state.goto id (.updatePrio .preempted) with
        sched := state.sched.putMlqProc (config.prio proc) proc
        history := state.history.enqueue proc state.timer.time (some id) }
  | .updatePrio branch, some proc =>
      some (state.goto id (.updateRead branch (config.prio proc)))
  | .updateRead branch prio, _ =>
      some (state.goto id
        (.updateWrite branch prio (state.sched.getSlot prio - cpu.useTime)))
  | .updateWrite branch prio value, _ =>
      some { state.goto id branch.afterUpdate with
        sched := state.sched.writeSlot prio value }
  | .free, some proc =>
      some { state.goto id (.getProc (some .finished)) with
        stage := Function.update state.stage proc .finished }
  | .getProc given, _ =>
      match state.sched.getMlqProc with
      | none => none
      | some (result, sched) =>
          some { state.setCpu id (cpu.fetched given result) with sched := sched }
  | .testDone, _ =>
      some (state.goto id (if state.done then .detach else .nextSlot))
  | .slotPrio, some proc =>
      some (state.goto id (.slotRead (config.prio proc)))
  | .slotRead prio, _ =>
      some (state.setCpu id (cpu.gotSlot (state.sched.getSlot prio)))
  | .recheck, none =>
      some (state.goto id (if state.done then .detach else .nextSlot))
  | .recheck, some _ =>
      some (state.setCpu id (cpu.dispatched config.timeSlot))
  | .run, some proc =>
      some { state.setCpu id
          (if config.codeSize proc ≤ state.pc proc then
            cpu.afterRun
          else
            cpu.moved .exec) with
        history := state.history.record ⟨.run, state.timer.time, proc, id⟩ }
  | .exec, some proc =>
      some { state.setCpu id cpu.afterRun with
        pc := Function.update state.pc proc (state.pc proc + 1)
        history :=
          state.history.record ⟨.instruction, state.timer.time, proc, id⟩ }
  | .nextSlot, _ =>
      (state.timer.step (.nextSlotEnter (.cpu id))).map fun timer =>
        { state.goto id .waiting with timer := timer }
  | .waiting, _ =>
      (state.timer.step (.nextSlotReturn (.cpu id))).map fun timer =>
        { state.goto id .loop with timer := timer }
  | .detach, _ =>
      (state.timer.step (.detachEvent (.cpu id))).map fun timer =>
        { state.goto id .stopped with timer := timer }
  | _, _ => none

/-- One step of `ld_routine`. -/
def ldRoutine (config : Config) (state : State n) : Option (State n) :=
  match state.loader with
  | .head i =>
      if config.numProcesses ≤ i then
        some { state with loader := .detach, done := true }
      else if state.timer.time < config.startTime i then
        some { state with loader := .nextSlot i }
      else
        some { state with loader := .addRunning i }
  | .addRunning i =>
      some { state with
        loader := .addReady i
        sched := state.sched.enlistRunning i }
  | .addReady i =>
      some { state with
        loader := .nextSlot (i + 1)
        sched := state.sched.putMlqProc (config.prio i) i
        stage := Function.update state.stage i .added
        history := state.history.enqueue i state.timer.time none }
  | .nextSlot i =>
      (state.timer.step (.nextSlotEnter .loader)).map fun timer =>
        { state with loader := .waiting i, timer := timer }
  | .waiting i =>
      (state.timer.step (.nextSlotReturn .loader)).map fun timer =>
        { state with loader := .head i, timer := timer }
  | .detach =>
      (state.timer.step (.detachEvent .loader)).map fun timer =>
        { state with loader := .stopped, timer := timer }
  | .stopped => none

/-- One step of `main` behind the creation of the threads: `stop_timer` once it
has joined them. -/
def mainRoutine (state : State n) : Option (State n) :=
  if (∀ id, (state.cpu id).label = .stopped) ∧ state.loader = .stopped then
    (state.timer.step .stopTimer).map fun timer => { state with timer := timer }
  else
    none

/-- The atomic steps of the simulated system. -/
def step (config : Config) (state : State n) : Event n → Option (State n)
  | .timer =>
      (state.timer.step .timerRoutine).map fun timer =>
        { state with timer := timer }
  | .cpu id => state.cpuRoutine config id
  | .loader => state.ldRoutine config
  | .main => state.mainRoutine

end State

/-- The devices in the order in which `main` attaches them. -/
def devices (n : Nat) : List (Device n) :=
  (List.finRange n).map Device.cpu ++ [Device.loader]

/-- The state in which `main` has created the threads. -/
def boot (n : Nat) : State n where
  timer := Timer.boot (devices n)
  sched := Sched.init
  cpu := fun _ => Cpu.start
  loader := .head 0
  done := false
  pc := fun _ => 0
  stage := fun _ => .new
  history :=
    { log := []
      enqueuedAt := fun _ => 0
      enqueuedBy := fun _ => none }

end Os
end Ossim
