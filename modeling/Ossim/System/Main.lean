import Ossim.Os.Printed
import Ossim.Os.ReadConfig
import Ossim.System.Transparency

/-!
# From the files to the outputs

`main` reads the configuration, makes the memory devices and starts the threads, and the
loader reads the programs.  What a call of `load` returns depends on the file only, so the
calls stand here in front of the steps of the threads.

A simulation that is described by a configuration file and a file for each program does
not depend on what the memory held: each process reads the bytes that its program, as it
is written, reads alone.
-/

namespace Ossim
namespace System

open CString Memory Stdio Transition
open Os.Loader (Stop Instruction Lists)
open Os.ReadConfig (Settings Sizes LdProcess Arrival)

/-- The directory of the configuration files, `input/`. -/
def inputDir : CString := ofBytes [105, 110, 112, 117, 116, 47]

/-- The number of the elements of `path`. -/
def pathSize : Nat := 100

/-- What the memory holds before it is assigned: for `read_config`, for each call of
`load`, and the address space and `active_mswp_id` of each process. -/
structure Unassigned where
  config : Os.ReadConfig.Unassigned
  program : Nat → Os.Loader.Unassigned
  mm : Nat → Mm
  activeMswpId : Nat → Int

/-- The threads without their states, and the memory. -/
structure Simulator where
  numCpus : Nat
  setup : Setup
  mem : Mem Nat

/-- `proc->prio = ld_processes.prio[i]`, an assignment to 32 bits. -/
def assignPrio (ldProcess : LdProcess) : Nat := (ldProcess.prio.setWidth 32).toNat

/-- The priorities have a ready queue. -/
def HasQueues (settings : Settings) : Prop :=
  ∀ ldProcess ∈ settings.ldProcesses, assignPrio ldProcess < Scheduler.maxPrio

instance decidableHasQueues (settings : Settings) : Decidable (HasQueues settings) :=
  List.decidableBAll _ settings.ldProcesses

/-- The configuration of the threads, with the programs in the order of the processes. -/
def setupOf (settings : Settings) (texts : List (List Os.Loader.Inst))
    (hasQueues : HasQueues settings) : Setup where
  prio := fun proc => (settings.ldProcesses[proc]?.map assignPrio).getD 0
  codeSize := fun proc => (texts[proc]?.getD []).length
  prio_lt := by
    intro proc
    cases found : settings.ldProcesses[proc]? with
    | none => exact Scheduler.zero_lt_maxPrio
    | some ldProcess => exact hasQueues ldProcess (List.mem_of_getElem? found)
  timeSlot := settings.timeSlot.toInt
  numProcesses := settings.numProcesses.toInt.toNat
  startTime := fun proc =>
    (settings.ldProcesses[proc]?.map fun ldProcess => ldProcess.startTime.toNat).getD 0
  text := fun proc => texts[proc]?.getD []
  codeSize_eq := fun _ => rfl

/-- No device has a negative size. -/
def CanAllocate (sizes : Sizes) : Prop :=
  ∀ size ∈ sizes.memramsz :: sizes.memswpsz, 0 ≤ size.toInt

instance decidableCanAllocate (sizes : Sizes) : Decidable (CanAllocate sizes) :=
  List.decidableBAll _ (sizes.memramsz :: sizes.memswpsz)

/-- `init_memphy`, which allocates the storage. -/
def memphyOf (size : BitVec 32) : Memphy := initMemphy size.toInt.toNat true

/-- The devices of `main`, and the address spaces that `init_mm` makes in `ld_routine`. -/
def memOf (unassigned : Unassigned) (sizes : Sizes) : Mem Nat where
  mram := memphyOf sizes.memramsz
  mswp := fun device => memphyOf (sizes.memswpsz.getD device.val 0)
  pcb := fun proc =>
    { Pcb.fresh with
      mm := initMm (unassigned.mm proc)
      activeMswpId := unassigned.activeMswpId proc }

/-- The calls of `load`, from `i` on. -/
def loadTexts (unassigned : Nat → Os.Loader.Unassigned) (files : CString → Option CString) :
    Nat → BitVec 32 → List LdProcess → Except Stop (List (List Os.Loader.Inst))
  | _, _, [] => .ok []
  | i, availPid, ldProcess :: ldProcesses => do
      let (proc, availPid) ←
        Os.Loader.load (unassigned i) availPid (files ldProcess.path) ldProcess.path
      let texts ← loadTexts unassigned files (i + 1) availPid ldProcesses
      .ok (proc.code.text :: texts)

/-- `main` with the argument `argv[1]`.  A device of negative size and a priority without
a queue are accesses outside of an array. -/
def main (unassigned : Unassigned) (files : CString → Option CString) (argv1 : CString) :
    Except Stop Simulator := do
  let path := inputDir ++ argv1
  if path.length < pathSize then
    let settings ← Os.ReadConfig.readConfig unassigned.config (files path)
    let texts ← loadTexts unassigned.program files 0 1 settings.ldProcesses
    if hasQueues : HasQueues settings then
      if CanAllocate settings.sizes then
        .ok
          { numCpus := settings.numCpus.toInt.toNat
            setup := setupOf settings texts hasQueues
            mem := memOf unassigned settings.sizes }
      else
        .error .overrun
    else
      .error .overrun
  else
    .error .overrun

/-! ## What the files describe -/

/-- The instruction with its operands and nothing else. -/
def written (instruction : Instruction) : Os.Loader.Inst where
  opcode := instruction.opcode
  arg := fun place => instruction.operands.getD place.val 0

/-- A process with its program. -/
structure Process where
  arrival : Arrival
  priority : BitVec 32
  program : List Instruction

/-- A configuration and the programs that it names. -/
structure Description where
  timeSlot : BitVec 32
  numCpus : BitVec 32
  sizes : Option Sizes
  processes : List Process

namespace Description

/-- The configuration without the programs. -/
def config (description : Description) : Os.ReadConfig.Description where
  timeSlot := description.timeSlot
  numCpus := description.numCpus
  sizes := description.sizes
  arrivals := description.processes.map Process.arrival

/-- The files that are written for it. -/
structure WrittenTo (description : Description) (files : CString → Option CString)
    (argv1 : CString) : Prop where
  short : (inputDir ++ argv1).length < pathSize
  config : files (inputDir ++ argv1) = some (Os.ReadConfig.printConfig description.config)
  programs : ∀ process ∈ description.processes,
    files (Os.configPath process.arrival.name) =
      some (Os.Loader.printProgram process.priority process.program)

/-- It can be written and executed: the instructions have all of their operands, the
priorities have queues, and no size is negative. -/
structure Sound (description : Description) : Prop where
  writable : description.config.Writable
  complete : ∀ process ∈ description.processes, ∀ instruction ∈ process.program,
    instruction.Complete fun _ => 0
  countable : ∀ process ∈ description.processes, process.program.length < 2 ^ 32
  hasQueues : HasQueues description.config.settings
  sizes : CanAllocate description.config.settings.sizes

/-- The instructions as they are written. -/
def texts (description : Description) : List (List Os.Loader.Inst) :=
  description.processes.map fun process => process.program.map written

end Description

/-! ## Loading -/

variable {instruction : Instruction} {inst : Os.Loader.Inst}

/-- The operands are the first arguments. -/
theorem argument_of_lists
    (lists : Lists inst instruction)
    {place : Nat}
    (present : place < instruction.operands.length) :
    argument inst place = argument (written instruction) place := by
  unfold argument
  split
  · rename_i isArg
    have operand := List.getElem?_eq_getElem present
    rw [lists.2 ⟨place, isArg⟩ _ operand, written]
    show _ = instruction.operands.getD place 0
    rw [List.getD_eq_getElem?_getD, operand, Option.getD_some]
  · rfl

/-- Only the number of a system call matters to the machine. -/
theorem exec_syscall
    (machine : Machine)
    (isSyscall : inst.opcode = .syscall) :
    machine.exec inst =
      match syscall (argument inst 0).toNat with
      | .sysMemmap | .sysKillall => none
      | _ => some machine := by
  unfold Machine.exec request
  rw [isSyscall]
  cases syscall (argument inst 0).toNat <;> rfl

/-- The arguments that `load` does not assign do not matter. -/
theorem exec_of_lists
    (lists : Lists inst instruction)
    (complete : instruction.Complete fun _ => 0)
    (machine : Machine) :
    machine.exec inst = machine.exec (written instruction) := by
  have same : ∀ place, place < instruction.operands.length →
      argument inst place = argument (written instruction) place := fun _ present =>
    argument_of_lists lists present
  obtain ⟨opcode, operands⟩ := instruction
  have isOpcode : inst.opcode = opcode := lists.1
  cases opcode with
  | syscall =>
      cases operands with
      | nil => cases complete
      | cons number args =>
          rw [exec_syscall machine isOpcode, exec_syscall machine rfl, same 0 (Nat.succ_pos _)]
  | _ =>
      have count : operands.length = _ := complete
      simp only [count] at same
      unfold Machine.exec request
      simp [isOpcode, written, same]

/-- The loaded instructions are the written ones, and as many. -/
def LoadedAs (text : List Os.Loader.Inst) (process : Process) : Prop :=
  List.Forall₂ Lists text process.program

variable {description : Description} {files : CString → Option CString} {argv1 : CString}

theorem loadTexts_of_written
    (unassigned : Nat → Os.Loader.Unassigned)
    (i : Nat)
    (availPid : BitVec 32)
    {processes : List Process}
    (programs : ∀ process ∈ processes, files (Os.configPath process.arrival.name) =
      some (Os.Loader.printProgram process.priority process.program))
    (complete : ∀ process ∈ processes, ∀ instruction ∈ process.program,
      instruction.Complete fun _ => 0)
    (countable : ∀ process ∈ processes, process.program.length < 2 ^ 32) :
    ∃ texts, loadTexts unassigned files i availPid
        (processes.map fun process => process.arrival.ldProcess) = .ok texts ∧
      List.Forall₂ LoadedAs texts processes := by
  induction processes generalizing i availPid with
  | nil => exact ⟨[], rfl, .nil⟩
  | cons process processes inductionHypothesis =>
      obtain ⟨size, text, loaded, _, lists⟩ :=
        Os.Loader.load_of_complete process.priority (complete process List.mem_cons_self)
          (countable process List.mem_cons_self) (unassigned i) availPid
          (Os.configPath process.arrival.name)
      obtain ⟨texts, others, all⟩ := inductionHypothesis (i + 1) (availPid + 1)
        (fun other member => programs other (List.mem_cons_of_mem _ member))
        (fun other member => complete other (List.mem_cons_of_mem _ member))
        (fun other member => countable other (List.mem_cons_of_mem _ member))
      rw [← programs process List.mem_cons_self] at loaded
      refine ⟨text :: texts, ?_, .cons lists all⟩
      have isPath : process.arrival.ldProcess.path = Os.configPath process.arrival.name := rfl
      rw [List.map_cons, loadTexts, isPath, loaded]
      show (loadTexts unassigned files (i + 1) (availPid + 1) _ >>= _) = _
      rw [others]
      rfl

/-- `main` starts what the files describe. -/
theorem main_of_written
    (sound : description.Sound)
    (isWritten : description.WrittenTo files argv1)
    (unassigned : Unassigned) :
    ∃ texts, List.Forall₂ LoadedAs texts description.processes ∧
      main unassigned files argv1 =
        .ok
          { numCpus := description.numCpus.toInt.toNat
            setup := setupOf description.config.settings texts sound.hasQueues
            mem := memOf unassigned description.config.settings.sizes } := by
  obtain ⟨texts, loaded, all⟩ := loadTexts_of_written unassigned.program 0 1
    isWritten.programs sound.complete sound.countable
  have settings := Os.ReadConfig.readConfig_of_writable sound.writable unassigned.config
  have ldProcesses : description.config.settings.ldProcesses =
      description.processes.map fun process => process.arrival.ldProcess :=
    List.map_map
  rw [← ldProcesses] at loaded
  refine ⟨texts, all, ?_⟩
  rw [main, if_pos isWritten.short, isWritten.config, settings]
  show (loadTexts unassigned.program files 0 1 description.config.settings.ldProcesses >>= _) = _
  rw [loaded]
  show (if hasQueues : HasQueues description.config.settings then _ else _) = _
  rw [dif_pos sound.hasQueues, if_pos sound.sizes]
  rfl

/-! ## Executing what was loaded -/

/-- A machine cannot tell the instructions apart. -/
def Alike (inst other : Os.Loader.Inst) : Prop :=
  ∀ machine : Machine, machine.exec inst = machine.exec other

theorem alike_of_lists
    {text : List Os.Loader.Inst}
    {program : List Instruction}
    (lists : List.Forall₂ Lists text program)
    (complete : ∀ instruction ∈ program, instruction.Complete fun _ => 0) :
    List.Forall₂ Alike text (program.map written) := by
  induction lists with
  | nil => exact .nil
  | cons first _ inductionHypothesis =>
      exact .cons (exec_of_lists first (complete _ List.mem_cons_self))
        (inductionHypothesis fun other member =>
          complete other (List.mem_cons_of_mem _ member))

theorem alike_texts
    {texts : List (List Os.Loader.Inst)}
    {processes : List Process}
    (all : List.Forall₂ LoadedAs texts processes)
    (complete : ∀ process ∈ processes, ∀ instruction ∈ process.program,
      instruction.Complete fun _ => 0)
    (proc : Nat) :
    List.Forall₂ Alike (texts[proc]?.getD [])
      ((processes.map fun process => process.program.map written)[proc]?.getD []) := by
  induction all generalizing proc with
  | nil => exact .nil
  | cons first _ inductionHypothesis =>
      cases proc with
      | zero => exact alike_of_lists first (complete _ List.mem_cons_self)
      | succ proc =>
          exact inductionHypothesis (fun other member =>
            complete other (List.mem_cons_of_mem _ member)) proc

/-- The loaded programs need what the written ones need. -/
theorem fits_of_loaded
    {settings : Settings}
    {hasQueues : HasQueues settings}
    {texts others : List (List Os.Loader.Inst)}
    {table : Nat → Fin 30 → Region}
    {demand : Nat → Nat}
    {frames : Nat}
    (alike : ∀ proc : Nat, List.Forall₂ Alike (texts[proc]?.getD []) (others[proc]?.getD []))
    (fits : Fits (setupOf settings others hasQueues) table demand frames) :
    Fits (setupOf settings texts hasQueues) table demand frames where
  behaved := by
    intro proc configured pc inText
    have inOther : pc ≤ ((setupOf settings others hasQueues).text proc).length :=
      (alike proc).length_eq ▸ inText
    obtain ⟨machine, replayed, pages⟩ := fits.behaved proc configured pc inOther
    have same := replay_congr (List.forall₂_take pc (alike proc)) (Machine.start (table proc))
    exact ⟨machine, same.trans replayed, pages⟩
  enough := fits.enough

/-- What `main` relies on: the page tables that `init_mm` leaves as they are have no
present pages, and the lists of pages are empty. -/
def Unassigned.Clean (unassigned : Unassigned) : Prop :=
  ∀ proc, (∀ pgn, pagingPagePresent ((unassigned.mm proc).pgd pgn) = false) ∧
    (unassigned.mm proc).fifoPgn = []

theorem start_of_clean
    {unassigned : Unassigned}
    {sizes : Sizes}
    (clean : unassigned.Clean)
    (numbered : sizes.memramsz.toInt.toNat / pagingPagesz ≤ 2 ^ 13) :
    Refinement.Start ⟨memOf unassigned sizes, []⟩ where
  ram := ⟨_, numbered, rfl⟩
  area := fun proc => ⟨unassigned.mm proc, rfl, clean proc⟩
  nothing := rfl

/-- From the files to the outputs: `main` starts the simulation that is described, with
its CPUs, its devices and its processes with the loaded programs, no schedule keeps it
from its end, and at the end each process has read the bytes that its program, as it is
written, reads alone. -/
theorem main_outputs
    (description : Description)
    (sound : description.Sound)
    (files : CString → Option CString)
    (argv1 : CString)
    (isWritten : description.WrittenTo files argv1)
    (someCpu : 0 < description.numCpus.toInt)
    (few : description.processes.length ≤ Scheduler.maxQueueSize)
    (unassigned : Unassigned)
    (clean : unassigned.Clean)
    (demand : Nat → Nat)
    (frames : Nat)
    (isRam : description.config.settings.sizes.memramsz.toInt.toNat / pagingPagesz = frames)
    (numbered : frames ≤ 2 ^ 13)
    (fits : Fits (setupOf description.config.settings description.texts sound.hasQueues)
      (fun proc => (unassigned.mm proc).symrgtbl) demand frames) :
    ∃ simulator texts, main unassigned files argv1 = .ok simulator ∧
      List.Forall₂ LoadedAs texts description.processes ∧
      simulator.numCpus = description.numCpus.toInt.toNat ∧
      simulator.setup = setupOf description.config.settings texts sound.hasQueues ∧
      simulator.mem = memOf unassigned description.config.settings.sizes ∧
      ∀ state, Run (step simulator.setup) anyEvent (boot simulator.numCpus simulator.mem) state →
        (Halted (step simulator.setup) Os.Event.isMain state →
          ∀ proc text, description.texts[proc]? = some text →
            ∃ machine, replay Machine.exec (.start (unassigned.mm proc).symrgtbl) text =
                some machine ∧
              state.output proc = machine.output) ∧
        ∃ events last, replay (step simulator.setup) state events = some last ∧
          Halted (step simulator.setup) Os.Event.isMain last := by
  obtain ⟨texts, all, started⟩ := main_of_written sound isWritten unassigned
  refine ⟨_, texts, started, all, rfl, rfl, rfl, fun state run => ?_⟩
  have alike := alike_texts all sound.complete
  have start := start_of_clean clean (isRam ▸ numbered)
  have sameFrames : ramFrames (memOf unassigned description.config.settings.sizes) = frames := by
    rw [ramFrames, memOf, memphyOf, initMemphy_maxsz, isRam]
  have loadedFits : Fits (setupOf description.config.settings texts sound.hasQueues)
      (symbolTable (memOf unassigned description.config.settings.sizes)) demand
      (ramFrames (memOf unassigned description.config.settings.sizes)) :=
    sameFrames ▸ fits_of_loaded alike fits
  have count : (setupOf description.config.settings texts sound.hasQueues).numProcesses =
      description.processes.length :=
    (Os.ReadConfig.toInt_ofNat_of_lt sound.writable.countable).trans (List.length_map _)
  have cpus : 0 < description.numCpus.toInt.toNat := by omega
  refine ⟨fun halted proc text found => ?_, exists_halted run⟩
  have configured : proc < description.processes.length := by
    obtain ⟨inTexts, _⟩ := List.getElem?_eq_some_iff.mp found
    rwa [Description.texts, List.length_map] at inTexts
  obtain ⟨machine, replayed, sameOutput⟩ := outputs_of_halted cpus (count ▸ few) start
    loadedFits run halted (count ▸ configured)
  have same := replay_congr (alike proc) (Machine.start (unassigned.mm proc).symrgtbl)
  have isText : (description.processes.map fun process =>
      process.program.map written)[proc]?.getD [] = text :=
    congrArg (Option.getD · []) found
  rw [isText] at same
  exact ⟨machine, same.symm.trans replayed, sameOutput⟩

/-! ## Two files -/

/-- Two CPUs, a RAM of four frames, and two programs that write and read. -/
def twoWritten : Description where
  timeSlot := 2
  numCpus := 2
  sizes := some ⟨1024, [1024, 0, 0, 0], rfl⟩
  processes :=
    [⟨⟨0, ofChars ['w', '0'], 1⟩, 1,
        [⟨.alloc, [300, 0]⟩, ⟨.write, [7, 0, 4]⟩, ⟨.read, [0, 4, 0]⟩]⟩,
      ⟨⟨1, ofChars ['w', '1'], 0⟩, 1,
        [⟨.alloc, [100, 1]⟩, ⟨.write, [9, 1, 4]⟩, ⟨.read, [1, 4, 0]⟩]⟩]

theorem twoWritten_sound : twoWritten.Sound where
  writable :=
    { countable := by decide
      named := by decide
      legacy := fun noSizes => by cases noSizes }
  complete := by decide
  countable := by decide
  hasQueues := by decide
  sizes := by
    intro size member
    have member : size ∈ ([1024, 1024, 0, 0, 0] : List (BitVec 32)) := member
    simp only [List.mem_cons, List.not_mem_nil, or_false] at member
    rcases member with rfl | rfl | rfl | rfl | rfl <;> decide

/-- The configuration and the programs on a disk. -/
def twoFiles (path : CString) : Option CString :=
  if path = inputDir ++ ofChars ['t', 'w', 'o'] then
    some (Os.ReadConfig.printConfig twoWritten.config)
  else
    (twoWritten.processes.find? fun process => Os.configPath process.arrival.name = path).map
      fun process => Os.Loader.printProgram process.priority process.program

theorem twoWritten_writtenTo : twoWritten.WrittenTo twoFiles (ofChars ['t', 'w', 'o']) where
  short := by decide
  config := if_pos rfl
  programs := by decide +kernel

/-- Zeroed memory for the address spaces. -/
def zeroed : Unassigned where
  config := ⟨fun _ => 0, fun _ => 0, fun _ => []⟩
  program := fun _ => ⟨0, 0, [], [], fun _ _ => 0⟩
  mm := fun _ => Mm.fresh
  activeMswpId := fun _ => 0

theorem zeroed_clean : zeroed.Clean :=
  fun _ => ⟨fun _ => show pagingPagePresent 0 = false by decide, rfl⟩

theorem twoWritten_fits :
    Fits (setupOf twoWritten.config.settings twoWritten.texts twoWritten_sound.hasQueues)
      (fun proc => (zeroed.mm proc).symrgtbl) (fun proc => 2 - proc) 4 where
  behaved := by
    have executed : ∀ proc, proc < 2 → ∀ pc, pc ≤ 3 →
        (replay Machine.exec (.start (zeroed.mm proc).symrgtbl)
          ((twoWritten.texts[proc]?.getD []).take pc)).map
            (fun machine => decide (machine.pages ≤ 2 - proc)) = some true := by
      decide +kernel
    have lengths : ∀ proc, proc < 2 → (twoWritten.texts[proc]?.getD []).length = 3 := by
      decide
    intro proc configured pc inText
    have inText : pc ≤ (twoWritten.texts[proc]?.getD []).length := inText
    rw [lengths proc configured] at inText
    exact exists_of_evaluated (executed proc configured pc inText)
  enough := by decide +kernel

/-- The processes read 7 and 9. -/
theorem main_outputs_twoWritten :
    ∃ simulator events last, main zeroed twoFiles (ofChars ['t', 'w', 'o']) = .ok simulator ∧
      replay (step simulator.setup) (boot simulator.numCpus simulator.mem) events = some last ∧
      last.output 0 = [7] ∧ last.output 1 = [9] := by
  obtain ⟨simulator, _, started, _, _, _, _, outcome⟩ := main_outputs twoWritten
    twoWritten_sound twoFiles (ofChars ['t', 'w', 'o']) twoWritten_writtenTo (by decide)
    (by decide) zeroed zeroed_clean
    (fun proc => 2 - proc) 4 (by decide) (by decide) twoWritten_fits
  obtain ⟨_, events, last, reaches, halted⟩ := outcome _ (.refl _)
  have outputs := (outcome last (Run.of_replay_any _ reaches)).1 halted
  have alone : ∀ proc, proc < 2 →
      (replay Machine.exec (.start (zeroed.mm proc).symrgtbl)
        (twoWritten.texts[proc]?.getD [])).map Machine.output =
          some [7 + 2 * BitVec.ofNat 8 proc] := by
    decide +kernel
  have read : ∀ proc, proc < 2 → last.output proc = [7 + 2 * BitVec.ofNat 8 proc] := by
    intro proc configured
    have inTexts : proc < twoWritten.texts.length := configured
    obtain ⟨machine, replayed, sameOutput⟩ :=
      outputs proc _ (List.getElem?_eq_getElem inTexts)
    have printed := alone proc configured
    rw [List.getElem?_eq_getElem inTexts, Option.getD_some, replayed, Option.map_some,
      Option.some.injEq] at printed
    rw [sameOutput, printed]
  exact ⟨simulator, events, last, started, reaches, read 0 (by decide), read 1 (by decide)⟩

end System
end Ossim
