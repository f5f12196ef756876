import Ossim.System.Machine
import Ossim.Os.Slots

/-!
# Every program runs as on a machine of its own

The simulator executes the programs on any number of CPUs, with any interleaving, in
one RAM.  If the programs are well behaved and fit into the RAM, then what each of
them has read, and what its part of the memory holds, is what its own machine has
after the same instructions.  The invariant is the log of the writes, which stands for
all the arrays at once, and the count of the frames.
-/

namespace Ossim
namespace System

open CInt Memory Transition WriteLog

/-- The part of the memory that belongs to a process, with the bytes of a log. -/
def view (mem : Mem Nat) (writes : List ((Nat × Nat) × Byte)) (output : List Byte)
    (proc : Nat) : Machine where
  mm := (mem.mm proc).layout
  bytes := fun addr => lastWritten 0 writes (proc, addr)
  output := output

/-- The frames that are free or mapped by a process of the configuration. -/
def frameCount (setup : Setup) (mem : Mem Nat) : Nat :=
  mem.mram.freeFpList.nodes.length +
    ∑ proc ∈ Finset.range setup.numProcesses, (mem.mm proc).mmap.vmEnd / 256

/-- The arrays of a log are those of the machines. -/
structure Simulates (setup : Setup) (table : Nat → Fin 30 → Region) (frames : Nat)
    (writes : List ((Nat × Nat) × Byte)) (state : State n) : Prop where
  valid : Refinement.Valid ⟨state.mem, writes⟩
  machine : ∀ proc,
    replay Machine.exec (.start (table proc))
        ((setup.text proc).take (state.os.pc proc)) =
      some (view state.mem writes (state.output proc) proc)
  count : frameCount setup state.mem = frames

/-! ## One instruction -/

variable {mem mem' : Mem Nat} {proc : Nat} {writes : List ((Nat × Nat) × Byte)}
  {output : List Byte}

/-- How far an allocation moves the limit. -/
theorem vmEnd_of_allocate
    {mm mm' : Mm}
    {rgid size addr : Int}
    (allocated : Layout.allocate mm rgid size = some (mm', addr)) :
    (growth mm size = none ∧ mm'.mmap.vmEnd = mm.mmap.vmEnd) ∨
      ∃ pages, growth mm size = some pages ∧ mm'.mmap.vmEnd = grownEnd mm pages := by
  simp only [Layout.allocate, Option.bind_eq_bind, Option.bind_eq_some_iff] at allocated
  obtain ⟨found, looked, continued⟩ := allocated
  cases found with
  | some taken =>
      obtain ⟨region, middle⟩ := taken
      simp only [Option.bind_eq_some_iff, Option.some.injEq, Prod.mk.injEq] at continued
      obtain ⟨_, registered, rfl, _⟩ := continued
      obtain ⟨index, _, rfl⟩ := setSymrg_eq_some_iff.mp registered
      have onlyList := (getFreeVmrgArea_cases looked).1
      refine .inl ⟨by simp [growth, looked], ?_⟩
      rw [onlyList]
  | none =>
      simp only [Option.bind_eq_some_iff] at continued
      obtain ⟨newEnd, _, middle, registered, final⟩ := continued
      obtain ⟨index, _, rfl⟩ := setSymrg_eq_some_iff.mp registered
      have sameEnd : mm'.mmap.vmEnd = (Layout.grow mm size).mmap.vmEnd := by
        split at final
        · simp only [Option.bind_eq_some_iff, Option.some.injEq, Prod.mk.injEq] at final
          obtain ⟨⟨rc, enlisted⟩, added, rfl, _⟩ := final
          exact (SamePages.of_enlist added).vmEnd
        · simp only [Option.some.injEq, Prod.mk.injEq] at final
          rw [← final.1]
      rw [sameEnd, Layout.grow]
      cases growing : growth mm size with
      | none => exact .inl ⟨rfl, rfl⟩
      | some pages => exact .inr ⟨pages, rfl, rfl⟩

/-- The pages of a growth are those by which the limit moves. -/
theorem growth_le
    {size : Nat}
    {pages : Int}
    (backed : Refinement.Backed mem)
    (inRange : 1 ≤ size ∧ size ≤ 2 ^ 22)
    (grows : growth (mem.mm proc) (toInt size) = some pages) :
    0 ≤ pages ∧
      grownEnd (mem.mm proc) pages = (mem.mm proc).mmap.vmEnd + pages.toNat * 256 := by
  have sizeIs : toInt (size : Int) = size := toInt_of_mem (by omega) (by omega)
  obtain ⟨pagesIs, _, _⟩ := growth_bounds grows
  obtain ⟨_, aligned, inSpace, sbrk⟩ := backed.paged proc
  have nonneg : 0 ≤ pages := by
    rw [pagesIs, sizeIs]
    exact Int.tdiv_nonneg (by omega) (by decide)
  have atMost : pages ≤ 2 ^ 23 := by
    rw [pagesIs, sizeIs, Int.tdiv_eq_ediv_of_nonneg (by omega)]
    omega
  refine ⟨nonneg, ?_⟩
  have sum : ((mem.mm proc).mmap.sbrk : Int) + pages * 256 =
      (((mem.mm proc).mmap.vmEnd + pages.toNat * 256 : Nat) : Int) := by
    rw [sbrk]
    push_cast
    omega
  rw [grownEnd, sum, toULong_natCast, Nat.mod_eq_of_lt (by omega)]

/-- What an instruction of a process does for all of them: the other address spaces
and arrays are as before, and the frames are taken for the new pages. -/
structure Executed (mem : Mem Nat) (writes : List ((Nat × Nat) × Byte)) (proc : Nat)
    (mem' : Mem Nat) (writes' : List ((Nat × Nat) × Byte)) : Prop where
  valid : Refinement.Valid ⟨mem', writes'⟩
  others : ∀ other, other ≠ proc → mem'.mm other = mem.mm other
  arrays : ∀ other, other ≠ proc → ∀ addr,
    lastWritten 0 writes' (other, addr) = lastWritten 0 writes (other, addr)
  frames : mem'.mram.freeFpList.nodes.length + (mem'.mm proc).mmap.vmEnd / 256 =
    mem.mram.freeFpList.nodes.length + (mem.mm proc).mmap.vmEnd / 256

/-- An instruction that the machine of the process executes is permitted, if there are
frames for the pages that the machine has then. -/
theorem permitted_of_access
    {inst : Memory.Inst}
    {after : Machine}
    (backed : Refinement.Backed mem)
    (taken : (view mem writes output proc).access inst = some after)
    (enough : after.pages ≤
      (mem.mm proc).mmap.vmEnd / 256 + mem.mram.freeFpList.nodes.length) :
    Refinement.Permitted ⟨mem, writes⟩ ⟨proc, inst⟩ := by
  cases inst with
  | alloc size regIndex =>
      obtain ⟨⟨atLeast, atMost, inTable⟩, addr, allocated, _⟩ := Machine.access_alloc taken
      refine ⟨atLeast, atMost, inTable, fun pages growing => ?_⟩
      have growing' : growth (mem.mm proc) (toInt size) = some pages := growing
      have grownTo : after.mm.mmap.vmEnd = grownEnd (mem.mm proc) pages := by
        have onLayout : growth (view mem writes output proc).mm (toInt size) = some pages :=
          (Layout.growth_layout _ _).trans growing'
        rcases vmEnd_of_allocate allocated with ⟨refused, _⟩ | ⟨pages', same, limit⟩
        · rw [onLayout] at refused
          cases refused
        · rw [onLayout] at same
          cases same
          exact limit
      obtain ⟨nonneg, limit⟩ := growth_le backed ⟨atLeast, atMost⟩ growing'
      rw [Machine.pages, grownTo, limit, Nat.add_mul_div_right _ _ (by decide)] at enough
      have spare : pages.toNat ≤ mem.mram.freeFpList.nodes.length := by omega
      show pages ≤ (mem.mram.freeFpList.nodes.length : Int)
      omega
  | free regIndex => exact (Machine.access_free taken).1
  | read source offset =>
      simp only [Machine.access, Option.map_eq_some_iff] at taken
      obtain ⟨addr, found, _⟩ := taken
      exact (Machine.accessed_eq_some_iff.mp found).1
  | write data destination offset =>
      simp only [Machine.access, Option.map_eq_some_iff] at taken
      obtain ⟨addr, found, _⟩ := taken
      exact (Machine.accessed_eq_some_iff.mp found).1

/-- A `WRITE` changes nothing but the contents of the RAM. -/
theorem run_write_frames
    {data : Byte}
    {destination offset : Nat}
    (backed : Refinement.Backed mem)
    (below : Refinement.AccessBelowEnd (mem.mm proc) destination offset)
    (ran : run mem proc (.write data destination offset) = some mem') :
    mem'.mm = mem.mm ∧ mem'.mram.freeFpList = mem.mram.freeFpList := by
  obtain ⟨index, slot, addr, _, inArea, addrIs⟩ := backed.access below
  rcases run_write_cases ran with ⟨_, rfl⟩ | ⟨index', slot', rc, set⟩
  · exact ⟨rfl, rfl⟩
  · obtain rfl : index' = index := Fin.ext (by omega)
    rw [addrIs] at set
    obtain ⟨fpn, middle, mram, page, written, _, rfl⟩ := pgSetval_cases set
    obtain ⟨_, _, online, _⟩ := backed.cell inArea
    rw [pgGetpage_of_present (onlineFrame_eq_some_iff.mp online).1] at page
    cases page
    refine ⟨rfl, ?_⟩
    rw [Mem.mram_setMram, (memphyWrite_cases written).1]

/-- The frames after an instruction. -/
theorem frames_of_run
    {inst : Memory.Inst}
    (valid : Refinement.Valid ⟨mem, writes⟩)
    (permitted : Refinement.Permitted ⟨mem, writes⟩ ⟨proc, inst⟩)
    (ran : run mem proc inst = some mem') :
    mem'.mram.freeFpList.nodes.length + (mem'.mm proc).mmap.vmEnd / 256 =
      mem.mram.freeFpList.nodes.length + (mem.mm proc).mmap.vmEnd / 256 := by
  have backed : Refinement.Backed mem := valid.backed
  cases inst with
  | alloc size regIndex =>
      obtain ⟨atLeast, atMost, _, enough⟩ := permitted
      obtain ⟨middle, mm, rfl, same, rfl | ⟨pages, growing, grows⟩⟩ := run_alloc_pages ran
      · rw [Mem.mm_setMm_self, Mem.mram_setMm, same.vmEnd]
      · have nonneg := (growth_le backed ⟨atLeast, atMost⟩ growing).1
        have spare : pages.toNat ≤ mem.mram.freeFpList.nodes.length :=
          Int.toNat_le.mpr (enough pages growing)
        obtain ⟨_, limit, mapping⟩ := backed.grow nonneg spare grows
        rw [Mem.mm_setMm_self, Mem.mram_setMm, same.vmEnd, limit, mapping.free,
          List.length_drop, Nat.add_mul_div_right _ _ (by decide)]
        omega
  | free regIndex =>
      obtain ⟨mm, rfl, same⟩ := run_free_pages ran
      rw [Mem.mm_setMm_self, Mem.mram_setMm, same.vmEnd]
  | read source offset =>
      obtain ⟨addr, _, read⟩ := Refinement.read_of_valid valid permitted
      simp only [run, read, Option.map_some, Option.some.injEq] at ran
      rw [ran]
  | write data destination offset =>
      obtain ⟨sameMm, sameFree⟩ := run_write_frames backed permitted ran
      rw [sameMm, sameFree]

/-- The log after an instruction holds the arrays of the others as before. -/
theorem record_others
    {inst : Memory.Inst}
    {other : Nat}
    (different : other ≠ proc)
    (addr : Nat) :
    lastWritten 0 (Refinement.record ⟨mem, writes⟩ ⟨proc, inst⟩) (other, addr) =
      lastWritten 0 writes (other, addr) := by
  cases inst with
  | write data destination offset =>
      simp only [Refinement.record]
      cases Refinement.address (mem.mm proc) destination offset with
      | none => rfl
      | some written =>
          rw [Option.elim_some, lastWritten_cons, Function.update_of_ne]
          exact fun same => different (Prod.mk.inj same).1
  | alloc | free | read => rfl

/-- An instruction of the simulator does to the view of its process what the machine
of the process does. -/
theorem view_of_run
    {inst : Memory.Inst}
    {after : Machine}
    (taken : (view mem writes output proc).access inst = some after)
    (ran : run mem proc inst = some mem') :
    after = view mem' (Refinement.record ⟨mem, writes⟩ ⟨proc, inst⟩) after.output proc := by
  cases inst with
  | alloc size regIndex =>
      obtain ⟨_, addr, allocated, shape⟩ := Machine.access_alloc taken
      simp only [run, Option.map_eq_some_iff, liballoc, Option.bind_eq_bind,
        Option.bind_eq_some_iff, Option.some.injEq] at ran
      obtain ⟨_, ⟨⟨rc, last, start⟩, allocated', rfl⟩, rfl⟩ := ran
      obtain ⟨_, _, onLayout⟩ := Layout.alloc_layout allocated'
      have sameMm : after.mm = (last.mm proc).layout := by
        have both := onLayout.symm.trans allocated
        simp only [Option.some.injEq, Prod.mk.injEq] at both
        exact both.1.symm
      rw [shape, sameMm]
      rfl
  | free regIndex =>
      obtain ⟨_, released, shape⟩ := Machine.access_free taken
      simp only [run, Option.map_eq_some_iff, libfree] at ran
      obtain ⟨⟨rc, last⟩, freed, rfl⟩ := ran
      have sameMm : after.mm = (last.mm proc).layout :=
        (Option.some.inj ((Layout.free_layout freed).symm.trans released)).symm
      rw [shape, sameMm]
      rfl
  | read source offset =>
      simp only [Machine.access, Option.map_eq_some_iff] at taken
      obtain ⟨addr, found, rfl⟩ := taken
      have same := run_read_regions ran
      have sameLayout : (mem'.mm proc).layout = (mem.mm proc).layout :=
        Layout.layout_eq_iff.mpr ⟨same.mmap, same.symrgtbl⟩
      simp only [view, sameLayout, Refinement.record]
  | write data destination offset =>
      simp only [Machine.access, Option.map_eq_some_iff] at taken
      obtain ⟨addr, found, rfl⟩ := taken
      have same := run_write_regions ran
      have sameLayout : (mem'.mm proc).layout = (mem.mm proc).layout :=
        Layout.layout_eq_iff.mpr ⟨same.mmap, same.symrgtbl⟩
      have address : Refinement.address (mem.mm proc) destination offset = some addr :=
        (Machine.accessed_eq_some_iff.mp found).2
      have bytes : (fun other => lastWritten 0
          (Refinement.record ⟨mem, writes⟩ ⟨proc, .write data destination offset⟩)
          (proc, other)) =
        Function.update (fun other => lastWritten 0 writes (proc, other)) addr data := by
        funext other
        simp only [Refinement.record, address, Option.elim_some, lastWritten_cons]
        by_cases here : other = addr
        · subst here
          simp
        · rw [Function.update_of_ne here, Function.update_of_ne]
          exact fun same => here (Prod.mk.inj same).2
      simp only [view, sameLayout, bytes]

/-- An instruction of the memory library. -/
theorem executed_of_run
    {inst : Memory.Inst}
    (valid : Refinement.Valid ⟨mem, writes⟩)
    (permitted : Refinement.Permitted ⟨mem, writes⟩ ⟨proc, inst⟩)
    (ran : run mem proc inst = some mem') :
    Executed mem writes proc mem' (Refinement.record ⟨mem, writes⟩ ⟨proc, inst⟩) where
  valid := by
    have taken : Refinement.step ⟨mem, writes⟩ ⟨proc, inst⟩ =
        some ⟨mem', Refinement.record ⟨mem, writes⟩ ⟨proc, inst⟩⟩ := by
      simp only [Refinement.step, Memory.step, ran]
    exact Refinement.valid_step valid permitted taken
  others := fun _ different => run_others ran different
  arrays := fun _ different => record_others different
  frames := frames_of_run valid permitted ran

/-- An instruction of the memory library that prints nothing. -/
theorem executed_silently
    {inst : Memory.Inst}
    {after : Machine}
    (valid : Refinement.Valid ⟨mem, writes⟩)
    (permitted : Refinement.Permitted ⟨mem, writes⟩ ⟨proc, inst⟩)
    (taken : (view mem writes output proc).access inst = some after)
    (ran : run mem proc inst = some mem')
    (notRead : ∀ source offset, inst ≠ .read source offset) :
    ∃ writes', Executed mem writes proc mem' writes' ∧
      after = view mem' writes' (output ++ []) proc := by
  refine ⟨_, executed_of_run valid permitted ran, ?_⟩
  have viewed := view_of_run taken ran
  rw [Machine.access_output taken notRead] at viewed
  rw [List.append_nil]
  exact viewed

/-- What `libread` prints is what the machine of the process reads. -/
theorem read_as_alone
    {source offset : Nat}
    {rc : Int}
    {data : Option Byte}
    {after : Machine}
    (valid : Refinement.Valid ⟨mem, writes⟩)
    (taken : (view mem writes output proc).access (.read source offset) = some after)
    (ran : libread mem proc source offset = some (rc, mem', data)) :
    mem' = mem ∧ after = view mem writes (output ++ data.toList) proc := by
  simp only [Machine.access, Option.map_eq_some_iff] at taken
  obtain ⟨addr, found, rfl⟩ := taken
  obtain ⟨below, addressIs⟩ := Machine.accessed_eq_some_iff.mp found
  obtain ⟨addr', sameAddress, read⟩ := Refinement.read_of_valid valid below
  obtain rfl : addr = addr' := Option.some.inj (addressIs.symm.trans sameAddress)
  rw [read] at ran
  cases ran
  exact ⟨rfl, rfl⟩

/-- An instruction of the simulator, if its process executes it on its own machine and
there are frames for the pages that the machine has then. -/
theorem executed_of_execute
    {inst : Os.Loader.Inst}
    {after : Machine}
    {printed : List Byte}
    (valid : Refinement.Valid ⟨mem, writes⟩)
    (taken : (view mem writes output proc).exec inst = some after)
    (enough : after.pages ≤
      (mem.mm proc).mmap.vmEnd / 256 + mem.mram.freeFpList.nodes.length)
    (executes : execute mem proc inst = some (mem', printed)) :
    ∃ writes', Executed mem writes proc mem' writes' ∧
      after = view mem' writes' (output ++ printed) proc := by
  unfold execute at executes
  unfold Machine.exec at taken
  have untouched : Executed mem writes proc mem writes :=
    { valid := valid
      others := fun _ _ => rfl
      arrays := fun _ _ _ => rfl
      frames := rfl }
  cases asked : request inst with
  | nothing =>
      rw [asked] at executes taken
      cases executes
      cases taken
      exact ⟨writes, untouched, by rw [List.append_nil]⟩
  | memmap a1 a2 a3 =>
      rw [asked] at taken
      cases taken
  | killall =>
      rw [asked] at taken
      cases taken
  | memory inst =>
      rw [asked] at executes taken
      have permitted := permitted_of_access valid.backed taken enough
      cases inst with
      | alloc | free | write =>
          obtain ⟨last, ran, shape⟩ := Option.map_eq_some_iff.mp executes
          cases shape
          exact executed_silently valid permitted taken ran nofun
      | read source offset =>
          obtain ⟨⟨rc, last, data⟩, ran, shape⟩ := Option.map_eq_some_iff.mp executes
          cases shape
          obtain ⟨rfl, viewed⟩ := read_as_alone valid taken ran
          exact ⟨writes, untouched, viewed⟩

/-! ## Runs -/

variable {setup : Setup} {table : Nat → Fin 30 → Region} {demand : Nat → Nat}
  {frames : Nat} {state next : State n} {event : Os.Event n}

/-- The process of an instruction is one of the configuration, and the instruction is
part of its program. -/
theorem executing_spec
    (bounded : Os.Bounded setup.toConfig state.os)
    (executes : executing state.os event = some proc) :
    proc < setup.numProcesses ∧ state.os.pc proc < (setup.text proc).length := by
  obtain ⟨id, _, label, holds⟩ := executing_eq_some_iff.mp executes
  constructor
  · by_contra outside
    have isNew := bounded.paced.added proc (Nat.not_lt.mp outside)
    have added := bounded.invariant.live (by rw [label]; rfl) holds
    rw [isNew] at added
    cases added
  · rw [← setup.codeSize_eq]
    exact (bounded.tallied.at_label label holds).2

namespace Simulates

/-- No process has more pages than it needs. -/
theorem pages_le
    (simulates : Simulates setup table frames writes state)
    (bounded : Os.Bounded setup.toConfig state.os)
    (fits : Fits setup table demand frames)
    (configured : proc < setup.numProcesses) :
    (state.mem.mm proc).mmap.vmEnd / 256 ≤ demand proc := by
  have inText : state.os.pc proc ≤ (setup.text proc).length :=
    setup.codeSize_eq proc ▸ bounded.tallied.pc proc
  obtain ⟨machine, replayed, small⟩ := fits.behaved proc configured _ inText
  obtain rfl := Option.some.inj (replayed.symm.trans (simulates.machine proc))
  exact small

/-- For the pages that a process still needs there are free frames. -/
theorem demand_le
    (simulates : Simulates setup table frames writes state)
    (bounded : Os.Bounded setup.toConfig state.os)
    (fits : Fits setup table demand frames)
    (configured : proc < setup.numProcesses) :
    demand proc ≤
      (state.mem.mm proc).mmap.vmEnd / 256 + state.mem.mram.freeFpList.nodes.length := by
  have member := Finset.mem_range.mpr configured
  have others : ∑ other ∈ (Finset.range setup.numProcesses).erase proc,
      (state.mem.mm other).mmap.vmEnd / 256 ≤
      ∑ other ∈ (Finset.range setup.numProcesses).erase proc, demand other :=
    Finset.sum_le_sum fun other isOther => simulates.pages_le bounded fits
      (Finset.mem_range.mp (Finset.mem_of_mem_erase isOther))
  have used := Finset.add_sum_erase (Finset.range setup.numProcesses)
    (fun other => (state.mem.mm other).mmap.vmEnd / 256) member
  have needed := Finset.add_sum_erase (Finset.range setup.numProcesses) demand member
  have enough := fits.enough
  have count := simulates.count
  rw [frameCount] at count
  omega

/-- The machine of the process executes the instruction, too. -/
theorem machine_exec
    {inst : Os.Loader.Inst}
    (simulates : Simulates setup table frames writes state)
    (bounded : Os.Bounded setup.toConfig state.os)
    (fits : Fits setup table demand frames)
    (executes : executing state.os event = some proc)
    (fetched : (setup.text proc)[state.os.pc proc]? = some inst) :
    ∃ after, replay Machine.exec (.start (table proc))
        ((setup.text proc).take (state.os.pc proc + 1)) = some after ∧
      (view state.mem writes (state.output proc) proc).exec inst = some after ∧
      after.pages ≤
        (state.mem.mm proc).mmap.vmEnd / 256 + state.mem.mram.freeFpList.nodes.length := by
  obtain ⟨configured, inText⟩ := executing_spec bounded executes
  obtain ⟨after, replayed, small⟩ := fits.behaved proc configured _ inText
  have executed := replayed
  rw [Nat.succ_eq_add_one, Machine.replay_take_succ fetched, simulates.machine proc,
    Option.bind_some] at executed
  exact ⟨after, replayed, executed,
    small.trans (simulates.demand_le bounded fits configured)⟩

/-- Every atomic step. -/
theorem step
    (simulates : Simulates setup table frames writes state)
    (bounded : Os.Bounded setup.toConfig state.os)
    (fits : Fits setup table demand frames)
    (taken : step setup state event = some next) :
    ∃ writes', Simulates setup table frames writes' next := by
  have pc := pc_of_step (os_step taken)
  cases executes : executing state.os event with
  | none =>
      obtain ⟨_, sameMem, sameOutput⟩ := step_of_not_executing executes taken
      refine ⟨writes, ?_⟩
      constructor
      · rw [sameMem]
        exact simulates.valid
      · intro proc
        rw [pc proc, executes, if_neg nofun, sameMem, sameOutput]
        exact simulates.machine proc
      · rw [sameMem]
        exact simulates.count
  | some proc =>
      obtain ⟨configured, _⟩ := executing_spec bounded executes
      obtain ⟨inst, printed, fetched, ran, _, output⟩ := step_of_executing executes taken
      obtain ⟨after, replayed, taken', enough⟩ :=
        simulates.machine_exec bounded fits executes fetched
      obtain ⟨writes', executed, viewed⟩ :=
        executed_of_execute simulates.valid taken' enough ran
      refine ⟨writes', executed.valid, fun other => ?_, ?_⟩
      · rw [pc other, executes]
        by_cases same : proc = other
        · subst same
          rw [if_pos rfl, replayed, viewed, output, Function.update_self]
        · have different : other ≠ proc := Ne.symm same
          rw [if_neg (by simpa using same), output, Function.update_of_ne different,
            simulates.machine other]
          simp only [view, executed.others other different, executed.arrays other different]
      · rw [← simulates.count, frameCount, frameCount]
        have member := Finset.mem_range.mpr configured
        have unchanged : ∑ other ∈ (Finset.range setup.numProcesses).erase proc,
            (next.mem.mm other).mmap.vmEnd / 256 =
            ∑ other ∈ (Finset.range setup.numProcesses).erase proc,
              (state.mem.mm other).mmap.vmEnd / 256 :=
          Finset.sum_congr rfl fun other isOther => by
            rw [executed.others other (Finset.ne_of_mem_erase isOther)]
        have now := Finset.add_sum_erase (Finset.range setup.numProcesses)
          (fun other => (next.mem.mm other).mmap.vmEnd / 256) member
        have before := Finset.add_sum_erase (Finset.range setup.numProcesses)
          (fun other => (state.mem.mm other).mmap.vmEnd / 256) member
        have frames := executed.frames
        omega

end Simulates

end System
end Ossim
