import Ossim.System.Simulation
import Ossim.Memory.Defined
import Ossim.Os.Termination

/-!
# The simulator is transparent

Programs that are well behaved on machines of their own, and that fit into the RAM
together, do not notice each other: no instruction has undefined behaviour, every one
reads what it reads alone, and at the end each program has read all bytes that it reads
alone.  None of this depends on the number of CPUs, on the time slices or on the order
in which the threads are scheduled.
-/

namespace Ossim
namespace System

open CInt Memory Transition WriteLog

/-! ## Instructions are defined -/

section Defined

variable {mem : Mem Nat} {proc : Nat} {writes : List ((Nat × Nat) × Byte)}
  {output : List Byte}

/-- An instruction that the machine of its process executes has a result. -/
theorem run_of_access
    {inst : Memory.Inst}
    {after : Machine}
    (valid : Refinement.Valid ⟨mem, writes⟩)
    (permitted : Refinement.Permitted ⟨mem, writes⟩ ⟨proc, inst⟩)
    (taken : (view mem writes output proc).access inst = some after) :
    ∃ mem', run mem proc inst = some mem' := by
  have backed : Refinement.Backed mem := valid.backed
  cases inst with
  | alloc size regIndex =>
      obtain ⟨⟨_, atMost, _⟩, addr, allocated, _⟩ := Machine.access_alloc taken
      have sizeIs : toInt (size : Int) = size := toInt_of_mem (by omega) (by omega)
      have spare := permitted.2.2.2
      rw [sizeIs] at spare allocated
      obtain ⟨⟨val, mem', addr⟩, result⟩ :=
        alloc_of_allocate (backed.paged proc) atMost spare allocated
      refine ⟨mem', ?_⟩
      simp only [run, liballoc, sizeIs, result, Option.bind_eq_bind, Option.bind_some,
        Option.map_some]
  | free regIndex =>
      obtain ⟨_, released, _⟩ := Machine.access_free taken
      obtain ⟨⟨rc, mem'⟩, result⟩ := free_of_release released
      exact ⟨mem', by simp only [run, libfree, result, Option.map_some]⟩
  | read source offset =>
      obtain ⟨addr, _, result⟩ := Refinement.read_of_valid valid permitted
      exact ⟨mem, by simp only [run, result, Option.map_some]⟩
  | write data destination offset =>
      obtain ⟨⟨rc, mem'⟩, result⟩ := libwrite_of_backed data backed permitted
      exact ⟨mem', by simp only [run, result, Option.map_some]⟩

theorem execute_of_exec
    {inst : Os.Loader.Inst}
    {after : Machine}
    (valid : Refinement.Valid ⟨mem, writes⟩)
    (taken : (view mem writes output proc).exec inst = some after)
    (enough : after.pages ≤
      (mem.mm proc).mmap.vmEnd / 256 + mem.mram.freeFpList.nodes.length) :
    ∃ result, execute mem proc inst = some result := by
  unfold execute
  unfold Machine.exec at taken
  cases asked : request inst with
  | nothing => exact ⟨_, rfl⟩
  | memmap a1 a2 a3 =>
      rw [asked] at taken
      cases taken
  | killall =>
      rw [asked] at taken
      cases taken
  | memory inst =>
      rw [asked] at taken
      have permitted := permitted_of_access valid.backed taken enough
      cases inst with
      | read source offset =>
          obtain ⟨addr, _, result⟩ := Refinement.read_of_valid valid permitted
          exact ⟨_, Option.map_eq_some_iff.mpr ⟨_, result, rfl⟩⟩
      | alloc | free | write =>
          obtain ⟨mem', ran⟩ := run_of_access valid permitted taken
          exact ⟨_, Option.map_eq_some_iff.mpr ⟨_, ran, rfl⟩⟩

end Defined

/-! ## Runs -/

variable {setup : Setup} {demand : Nat → Nat} {mem : Mem Nat} {state : State n}

/-- The symbol tables that `init_mm` leaves as they are. -/
def symbolTable (mem : Mem Nat) (proc : Nat) : Fin 30 → Region :=
  (mem.mm proc).symrgtbl

/-- The number of the frames of the RAM. -/
def ramFrames (mem : Mem Nat) : Nat := mem.mram.maxsz / pagingPagesz

/-- Before the first instruction the machines are as they start. -/
theorem simulates_boot
    (setup : Setup)
    (n : Nat)
    (start : Refinement.Start ⟨mem, []⟩) :
    Simulates setup (symbolTable mem) (ramFrames mem) [] (boot n mem) where
  valid := Refinement.valid_of_start start
  machine := by
    intro proc
    obtain ⟨mm, fresh, _, _⟩ := start.area proc
    have sameLayout : (mem.mm proc).layout =
        (initMm { Mm.fresh with symrgtbl := symbolTable mem proc }).layout := by
      rw [Layout.layout_eq_iff, symbolTable]
      have fresh : mem.mm proc = initMm mm := fresh
      rw [fresh]
      exact ⟨rfl, rfl⟩
    show some (Machine.start (symbolTable mem proc)) = some (view mem [] [] proc)
    rw [Machine.start, view, sameLayout]
    rfl
  count := by
    obtain ⟨maxSize, _, ram⟩ := start.ram
    have ram : mem.mram = initMemphy maxSize true := ram
    have unused : Unused mem.mram := ram ▸ unused_initMemphy maxSize true
    have length := unused.length_eq
    have noPages : ∀ proc, (mem.mm proc).mmap.vmEnd / 256 = 0 := by
      intro proc
      obtain ⟨mm, fresh, _, _⟩ := start.area proc
      have fresh : mem.mm proc = initMm mm := fresh
      rw [fresh]
      exact Nat.zero_div 256
    show frameCount setup mem = ramFrames mem
    rw [frameCount, Finset.sum_eq_zero fun proc _ => noPages proc, length,
      List.length_range]
    rfl

/-- The invariants of the threads and of the memory in every reachable state. -/
theorem simulates_run
    {permitted : State n → Os.Event n → Prop}
    (start : Refinement.Start ⟨mem, []⟩)
    (fits : Fits setup (symbolTable mem) demand (ramFrames mem))
    (run : Run (step setup) permitted (boot n mem) state) :
    Os.Bounded setup.toConfig state.os ∧
      ∃ writes, Simulates setup (symbolTable mem) (ramFrames mem) writes state := by
  refine run.invariant
    (fun state => Os.Bounded setup.toConfig state.os ∧
      ∃ writes, Simulates setup (symbolTable mem) (ramFrames mem) writes state)
    (fun _ event _ both _ taken => ?_)
    ⟨Os.Bounded.boot setup.toConfig n, [], simulates_boot setup n start⟩
  obtain ⟨bounded, writes, simulates⟩ := both
  exact ⟨bounded.step event (os_step taken), simulates.step bounded fits taken⟩

/-- If the thread can take its step, then so it can with the memory. -/
theorem step_of_os_step
    {event : Os.Event n}
    {os : Os.State n}
    {writes : List ((Nat × Nat) × Byte)}
    {table : Nat → Fin 30 → Region}
    {frames : Nat}
    (bounded : Os.Bounded setup.toConfig state.os)
    (simulates : Simulates setup table frames writes state)
    (fits : Fits setup table demand frames)
    (stepped : state.os.step setup.toConfig event = some os) :
    ∃ next, step setup state event = some next := by
  cases executes : executing state.os event with
  | none =>
      simp only [step, executes, stepped, Option.map_some]
      exact ⟨_, rfl⟩
  | some proc =>
      obtain ⟨_, inText⟩ := executing_spec bounded executes
      have fetched := List.getElem?_eq_getElem inText
      obtain ⟨after, _, taken, enough⟩ :=
        simulates.machine_exec bounded fits executes fetched
      obtain ⟨⟨mem', printed⟩, executed⟩ := execute_of_exec simulates.valid taken enough
      simp only [step, executes, fetched, executed, stepped, Option.bind_eq_bind,
        Option.bind_some]
      exact ⟨_, rfl⟩

/-- Under every schedule each process has read, and has in its memory, what its own
machine has read and has after the instructions that were executed so far. -/
theorem runs_as_alone
    (setup : Setup)
    (n : Nat)
    (mem : Mem Nat)
    (demand : Nat → Nat)
    (start : Refinement.Start ⟨mem, []⟩)
    (fits : Fits setup (symbolTable mem) demand (ramFrames mem))
    (state : State n)
    (run : Run (step setup) anyEvent (boot n mem) state)
    (proc : Nat) :
    ∃ machine, replay Machine.exec (.start (symbolTable mem proc))
        ((setup.text proc).take (state.os.pc proc)) = some machine ∧
      state.output proc = machine.output ∧
      (state.mem.mm proc).layout = machine.mm ∧
      ∀ addr, addr < machine.mm.mmap.vmEnd →
        state.mem.mram.storage (state.mem.cell proc addr) = machine.bytes addr := by
  obtain ⟨_, writes, simulates⟩ := simulates_run start fits run
  exact ⟨_, simulates.machine proc, rfl, rfl, simulates.valid.stores.held proc⟩

/-- The steps are ranked as those of the threads. -/
theorem ranked (setup : Setup) (n : Nat) :
    Ranked (step setup) (fun state : State n => Os.Bounded setup.toConfig state.os)
      Os.Event.isMain fun state => state.os.rank (Os.lastSlot setup.toConfig) where
  kept := fun _ event _ bounded taken => bounded.step event (os_step taken)
  paid := fun _ _ _ bounded taken notMain =>
    (Os.ranked setup.toConfig n).paid _ _ _ bounded (os_step taken) notMain
  unpaid := fun _ _ _ bounded taken isMain =>
    (Os.ranked setup.toConfig n).unpaid _ _ _ bounded (os_step taken) isMain

/-- Where the simulator cannot go on, its threads cannot either. -/
theorem os_halted
    (start : Refinement.Start ⟨mem, []⟩)
    (fits : Fits setup (symbolTable mem) demand (ramFrames mem))
    (run : Run (step setup) anyEvent (boot n mem) state)
    (halted : Halted (step setup) Os.Event.isMain state) :
    Halted (Os.State.step setup.toConfig) Os.Event.isMain state.os := by
  obtain ⟨bounded, writes, simulates⟩ := simulates_run start fits run
  intro event notMain
  cases stepped : state.os.step setup.toConfig event with
  | none => rfl
  | some os =>
      obtain ⟨next, taken⟩ := step_of_os_step bounded simulates fits stepped
      rw [halted event notMain] at taken
      cases taken

/-- At an end all CPUs have stopped. -/
theorem stopped_of_halted
    (start : Refinement.Start ⟨mem, []⟩)
    (fits : Fits setup (symbolTable mem) demand (ramFrames mem))
    (run : Run (step setup) anyEvent (boot n mem) state)
    (halted : Halted (step setup) Os.Event.isMain state)
    (id : Fin n) :
    (state.os.cpu id).label = .stopped := by
  have osRun : Run (Os.State.step setup.toConfig) anyEvent (Os.boot n) state.os :=
    os_run anyEvent run
  exact (Os.stopped_of_halted (Os.Bounded.run osRun) (Os.Equipped.run osRun)
    (os_halted start fits run halted)).1 id

/-- Where the simulation has ended, each process has read what its machine reads. -/
theorem outputs_of_halted
    (someCpu : 0 < n)
    (few : setup.numProcesses ≤ Scheduler.maxQueueSize)
    (start : Refinement.Start ⟨mem, []⟩)
    (fits : Fits setup (symbolTable mem) demand (ramFrames mem))
    (run : Run (step setup) anyEvent (boot n mem) state)
    (halted : Halted (step setup) Os.Event.isMain state)
    {proc : Nat}
    (configured : proc < setup.numProcesses) :
    ∃ machine, replay Machine.exec (.start (symbolTable mem proc)) (setup.text proc) =
        some machine ∧
      state.output proc = machine.output := by
  obtain ⟨_, writes, simulates⟩ := simulates_run start fits run
  have osRun : Run (Os.State.step setup.toConfig) anyEvent (Os.boot n) state.os :=
    os_run anyEvent run
  obtain ⟨_, whole⟩ := Os.completed_of_halted someCpu (Os.hasRoom_of_few few osRun)
    (os_halted start fits run halted) configured
  have machine := simulates.machine proc
  rw [whole, setup.codeSize_eq, List.take_length] at machine
  exact ⟨_, machine, rfl⟩

/-- Every simulation can be continued to its end. -/
theorem exists_halted
    (run : Run (step setup) anyEvent (boot n mem) state) :
    ∃ events last, replay (step setup) state events = some last ∧
      Halted (step setup) Os.Event.isMain last := by
  have osRun : Run (Os.State.step setup.toConfig) anyEvent (Os.boot n) state.os :=
    os_run anyEvent run
  obtain ⟨events, last, _, reaches, halted⟩ :=
    (ranked setup n).exists_halted state (Os.Bounded.run osRun)
  exact ⟨events, last, reaches, halted⟩

/-- Every simulation of not more programs than a queue has places can be continued to
its end, and where it has ended each program has read the bytes that it reads alone. -/
theorem outputs_as_alone
    (setup : Setup)
    (n : Nat)
    (someCpu : 0 < n)
    (few : setup.numProcesses ≤ Scheduler.maxQueueSize)
    (mem : Mem Nat)
    (demand : Nat → Nat)
    (start : Refinement.Start ⟨mem, []⟩)
    (fits : Fits setup (symbolTable mem) demand (ramFrames mem))
    (state : State n)
    (run : Run (step setup) anyEvent (boot n mem) state) :
    (Halted (step setup) Os.Event.isMain state →
        ∀ proc, proc < setup.numProcesses →
          ∃ machine, replay Machine.exec (.start (symbolTable mem proc)) (setup.text proc) =
              some machine ∧
            state.output proc = machine.output) ∧
      ∃ events last, replay (step setup) state events = some last ∧
        Halted (step setup) Os.Event.isMain last :=
  ⟨fun halted _ configured => outputs_of_halted someCpu few start fits run halted configured,
    exists_halted run⟩

/-! ## Two programs -/

/-- An instruction with up to three arguments. -/
def inst (opcode : Os.Loader.Opcode) (first second third : BitVec 32) :
    Os.Loader.Inst where
  opcode := opcode
  arg := fun place => [first, second, third].getD place.val 0

/-- Two programs that allocate a region and then write and read there. -/
def twoTexts (proc : Nat) : List Os.Loader.Inst :=
  if proc = 0 then
    [inst .alloc 300 0 0, inst .write 7 0 4, inst .read 0 4 0]
  else
    [inst .alloc 100 1 0, inst .write 9 1 4, inst .read 1 4 0]

def twoPrograms : Setup where
  toWorkload := Scheduler.Workload.uniform 0 3 Scheduler.zero_lt_maxPrio
  timeSlot := 2
  numProcesses := 2
  startTime := fun _ => 0
  text := twoTexts
  codeSize_eq := by
    intro proc
    unfold twoTexts
    split <;> rfl

/-- A RAM of four frames. -/
def fourFrames : Mem Nat where
  mram := initMemphy 1024 true
  mswp := fun _ => initMemphy 1024 true
  pcb := fun _ => Pcb.fresh

theorem fourFrames_start : Refinement.Start ⟨fourFrames, []⟩ where
  ram := ⟨1024, by decide, rfl⟩
  area := fun _ => ⟨_, rfl, fun _ => show pagingPagePresent 0 = false by decide, rfl⟩
  nothing := rfl

/-- The first program needs two pages and the second one. -/
theorem twoPrograms_fits :
    Fits twoPrograms (symbolTable fourFrames) (fun proc => 2 - proc)
      (ramFrames fourFrames) where
  behaved := by
    have executed : ∀ proc, proc < 2 → ∀ pc, pc ≤ 3 →
        (replay Machine.exec (.start (symbolTable fourFrames proc))
          ((twoTexts proc).take pc)).map (fun machine => decide (machine.pages ≤ 2 - proc)) =
            some true := by
      decide +kernel
    intro proc configured pc inText
    rw [← twoPrograms.codeSize_eq] at inText
    exact exists_of_evaluated (executed proc configured pc inText)
  enough := by decide +kernel

/-- Alone the programs read 7 and 9. -/
theorem twoPrograms_alone
    {proc : Nat}
    (configured : proc < 2)
    {machine : Machine}
    (replayed : replay Machine.exec (.start (symbolTable fourFrames proc)) (twoTexts proc) =
      some machine) :
    machine.output = [7 + 2 * BitVec.ofNat 8 proc] := by
  have alone : ∀ proc, proc < 2 →
      (replay Machine.exec (.start (symbolTable fourFrames proc)) (twoTexts proc)).map
        Machine.output = some [7 + 2 * BitVec.ofNat 8 proc] := by
    decide +kernel
  have printed := alone proc configured
  rwa [replayed, Option.map_some, Option.some.injEq] at printed

/-- A whole simulation with two CPUs. -/
def twoSchedule (first second : Fin 2) : List (Os.Event 2) :=
  schedule [(.loader, 4), (.cpu first, 8), (.cpu second, 4), (.timer, 6), (.loader, 5),
    (.timer, 1), (.cpu second, 9), (.timer, 1), (.cpu first, 6), (.timer, 7), (.loader, 3),
    (.timer, 1), (.cpu second, 6), (.timer, 1), (.cpu first, 14), (.timer, 8),
    (.cpu second, 14), (.timer, 1), (.cpu first, 9), (.timer, 8), (.cpu second, 9),
    (.timer, 7)]

theorem twoSchedule_stops :
    ∃ state, replay (step twoPrograms) (boot 2 fourFrames) (twoSchedule 0 1) = some state ∧
      Halted (step twoPrograms) Os.Event.isMain state := by
  obtain ⟨state, reaches, stuck⟩ := exists_of_evaluated
    (show (replay (step twoPrograms) (boot 2 fourFrames) (twoSchedule 0 1)).map
      (fun state => decide (∀ event ∈ ([.cpu 0, .cpu 1, .loader, .timer] : List (Os.Event 2)),
        (step twoPrograms state event).isNone = true)) = some true by
      decide +kernel)
  refine ⟨state, reaches, fun event notMain => Option.isNone_iff_eq_none.mp (stuck event ?_)⟩
  cases event with
  | cpu id => match id with | 0 | 1 => simp
  | loader | timer => simp
  | main => cases notMain

theorem runs_as_alone_twoPrograms :
    ∃ state, replay (step twoPrograms) (boot 2 fourFrames) ((twoSchedule 0 1).take 90) =
        some state ∧
      ∃ machine, replay Machine.exec (.start (symbolTable fourFrames 1))
          ((twoTexts 1).take (state.os.pc 1)) = some machine ∧
        state.output 1 = machine.output := by
  obtain ⟨state, reaches⟩ := Option.isSome_iff_exists.mp
    (show (replay (step twoPrograms) (boot 2 fourFrames) ((twoSchedule 0 1).take 90)).isSome = true
      by decide +kernel)
  obtain ⟨machine, replayed, sameOutput, _⟩ := runs_as_alone twoPrograms 2 fourFrames
    (fun proc => 2 - proc) fourFrames_start twoPrograms_fits state
    (Run.of_replay_any _ reaches) 1
  exact ⟨state, reaches, machine, replayed, sameOutput⟩

/-- The programs have read 7 and 9. -/
theorem outputs_as_alone_twoPrograms :
    ∃ state, replay (step twoPrograms) (boot 2 fourFrames) (twoSchedule 0 1) = some state ∧
      ∀ proc, proc < 2 → state.output proc = [7 + 2 * BitVec.ofNat 8 proc] := by
  obtain ⟨state, reaches, halted⟩ := twoSchedule_stops
  refine ⟨state, reaches, fun proc configured => ?_⟩
  obtain ⟨machine, replayed, sameOutput⟩ :=
    (outputs_as_alone twoPrograms 2 (by decide) (by decide) fourFrames
      (fun proc => 2 - proc) fourFrames_start twoPrograms_fits state
      (Run.of_replay_any _ reaches)).1 halted proc configured
  rw [sameOutput, twoPrograms_alone configured replayed]

end System
end Ossim
