import Ossim.Os.Shutdown
import Ossim.Os.Loader
import Ossim.Memory.Syscall

/-!
# The simulator

The threads of `main` together with the memory that the programs use.  A call of
`run` fetches the instruction at the program counter and executes it on the memory;
no other step of a thread touches the memory.  An instruction is one atomic step, and
so are the accesses to the queues, the slots, the time and the PCBs before.

The address space of a process comes from `init_mm`, which the loader calls before it
publishes the process, so it stands there from the start.
-/

namespace Ossim
namespace System

open Memory Transition

/-- The functions that `syscall` calls, the entries of `syscall.tbl` and the one for
every other number. -/
inductive Handler
  | sysListsyscall
  | sysMemmap
  | sysKillall
  | sysXxxhandler
  | sysNiSyscall
  deriving DecidableEq

/-- `syscall` -/
def syscall (nr : Nat) : Handler :=
  match nr with
  | 0 => .sysListsyscall
  | 17 => .sysMemmap
  | 101 => .sysKillall
  | 440 => .sysXxxhandler
  | _ => .sysNiSyscall

/-- What an instruction asks of the rest of the system. -/
inductive Request
  | nothing
  | memory (inst : Memory.Inst)
  | memmap (a1 a2 a3 : Nat)
  | killall

/-- `arg_0` to `arg_3` -/
def argument (inst : Os.Loader.Inst) (place : Nat) : BitVec 32 :=
  if isArg : place < 4 then inst.arg ⟨place, isArg⟩ else 0

/-- The `switch` of `run`.  `calc` does nothing, and neither do the system calls that
only print or that do not exist. -/
def request (inst : Os.Loader.Inst) : Request :=
  match inst.opcode with
  | .calc => .nothing
  | .alloc => .memory (.alloc (argument inst 0).toNat (argument inst 1).toNat)
  | .free => .memory (.free (argument inst 0).toNat)
  | .read => .memory (.read (argument inst 0).toNat (argument inst 1).toNat)
  | .write =>
      .memory (.write ((argument inst 0).setWidth 8) (argument inst 1).toNat
        (argument inst 2).toNat)
  | .syscall =>
      match syscall (argument inst 0).toNat with
      | .sysMemmap =>
          .memmap (argument inst 1).toNat (argument inst 2).toNat (argument inst 3).toNat
      | .sysKillall => .killall
      | .sysListsyscall | .sysXxxhandler | .sysNiSyscall => .nothing

/-- The memory after an instruction, and the byte that `libread` prints behind `value=`.
The queues that `SYSCALL 101` searches are not part of this step. -/
def execute (mem : Mem Nat) (proc : Nat) (inst : Os.Loader.Inst) :
    Option (Mem Nat × List Byte) :=
  match request inst with
  | .nothing => some (mem, [])
  | .memory (.read source offset) =>
      (libread mem proc source offset).map fun (_, mem, data) => (mem, data.toList)
  | .memory inst => (run mem proc inst).map fun mem => (mem, [])
  | .memmap a1 a2 a3 => (sysMemmapRegs mem proc a1 a2 a3).map fun mem => (mem, [])
  | .killall => none

/-- The configuration with the programs that `load` has read. -/
structure Setup extends Os.Config where
  text : Nat → List Os.Loader.Inst
  codeSize_eq : ∀ proc, codeSize proc = (text proc).length

/-- The threads, the memory, and the bytes that a process has read so far. -/
structure State (n : Nat) where
  os : Os.State n
  mem : Mem Nat
  output : Nat → List Byte

/-- The process whose instruction a step of a thread executes. -/
def executing (os : Os.State n) : Os.Event n → Option Nat
  | .cpu id => if (os.cpu id).label = .exec then (os.cpu id).proc else none
  | _ => none

/-- A step of a thread, with the instruction that it executes. -/
def step (setup : Setup) (state : State n) (event : Os.Event n) : Option (State n) :=
  match executing state.os event with
  | none => (state.os.step setup.toConfig event).map fun os => { state with os := os }
  | some proc => do
      let inst ← (setup.text proc)[state.os.pc proc]?
      let (mem, printed) ← execute state.mem proc inst
      let os ← state.os.step setup.toConfig event
      some
        { os := os
          mem := mem
          output := Function.update state.output proc (state.output proc ++ printed) }

/-- The state in which `main` has created the threads, with the memory that it has
initialised. -/
def boot (n : Nat) (mem : Mem Nat) : State n where
  os := Os.boot n
  mem := mem
  output := fun _ => []

/-! ## What a step changes -/

variable {setup : Setup} {state next : State n} {event : Os.Event n}

/-- A step that executes no instruction changes the threads only. -/
theorem step_of_not_executing
    (executes : executing state.os event = none)
    (taken : step setup state event = some next) :
    state.os.step setup.toConfig event = some next.os ∧ next.mem = state.mem ∧
      next.output = state.output := by
  simp only [step, executes, Option.map_eq_some_iff] at taken
  obtain ⟨os, stepped, rfl⟩ := taken
  exact ⟨stepped, rfl, rfl⟩

/-- A step that executes an instruction. -/
theorem step_of_executing
    {proc : Nat}
    (executes : executing state.os event = some proc)
    (taken : step setup state event = some next) :
    ∃ inst printed, (setup.text proc)[state.os.pc proc]? = some inst ∧
      execute state.mem proc inst = some (next.mem, printed) ∧
      state.os.step setup.toConfig event = some next.os ∧
      next.output = Function.update state.output proc (state.output proc ++ printed) := by
  simp only [step, executes, Option.bind_eq_bind, Option.bind_eq_some_iff,
    Option.some.injEq] at taken
  obtain ⟨inst, fetched, ⟨mem, printed⟩, executed, os, stepped, rfl⟩ := taken
  exact ⟨inst, printed, fetched, executed, stepped, rfl⟩

/-- The threads of the simulator take the steps that they take without a memory. -/
theorem os_step
    (taken : step setup state event = some next) :
    state.os.step setup.toConfig event = some next.os := by
  cases executes : executing state.os event with
  | none => exact (step_of_not_executing executes taken).1
  | some proc =>
      obtain ⟨_, _, _, _, stepped, _⟩ := step_of_executing executes taken
      exact stepped

/-- So a run of the simulator is a run of its threads. -/
theorem os_run
    (permitted : Os.State n → Os.Event n → Prop)
    {first last : State n}
    (run : Run (step setup) (fun state event => permitted state.os event) first last) :
    Run (Os.State.step setup.toConfig) permitted first.os last.os := by
  induction run with
  | refl => exact Run.refl _
  | tail event _ allowed taken inductionHypothesis =>
      exact inductionHypothesis.tail event allowed (os_step taken)

/-- The instruction of a step is the one that its CPU has fetched. -/
theorem executing_eq_some_iff
    {os : Os.State n}
    {proc : Nat} :
    executing os event = some proc ↔
      ∃ id, event = .cpu id ∧ (os.cpu id).label = .exec ∧ (os.cpu id).proc = some proc := by
  cases event with
  | cpu id =>
      simp only [executing]
      constructor
      · intro executes
        split at executes
        · exact ⟨id, rfl, ‹_›, executes⟩
        · cases executes
      · rintro ⟨_, ⟨⟩, label, holds⟩
        rw [if_pos label, holds]
  | timer | loader | main =>
      constructor
      · exact nofun
      · rintro ⟨_, ⟨⟩, _⟩

/-- The program counter moves in the steps that execute an instruction, and only that
of the process. -/
theorem pc_of_step
    {config : Os.Config}
    {os os' : Os.State n}
    (stepped : os.step config event = some os')
    (proc : Nat) :
    os'.pc proc =
      if executing os event = some proc then os.pc proc + 1 else os.pc proc := by
  cases event with
  | cpu id =>
      cases Os.cpuStep_of_cpuRoutine stepped with
      | exec executed label holds =>
          simp only [executing, label, holds, if_true, Option.some.injEq]
          by_cases same : executed = proc
          · subst same
            simp
          · simp [same, Ne.symm same]
      | move cpu sched moves =>
          have notExec : (os.cpu id).label ≠ .exec := by
            intro label
            cases moves <;> simp_all
          simp [executing, notExec]
      | putReady _ label | free _ label | getProc _ _ _ label | run _ label
      | nextSlot _ label | waiting _ label | detach _ label =>
          simp [executing, label]
  | loader =>
      rw [Os.LdStep.pc (Os.ldStep_of_ldRoutine stepped)]
      simp [executing]
  | timer =>
      obtain ⟨timer, _, rfl⟩ := Option.map_eq_some_iff.mp stepped
      simp [executing]
  | main =>
      simp only [Os.State.step, Os.State.mainRoutine] at stepped
      split at stepped
      · cases stepped
        simp [executing]
      · cases stepped

end System
end Ossim
