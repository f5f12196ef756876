import Ossim.Library.Stuttering
import Ossim.Os.TimeSlice
import Ossim.System.Transparency
import Mathlib.Algebra.BigOperators.Group.Finset.Piecewise

/-!
# Instructions in several steps

`ALLOC`, `FREE` and `WRITE` hold `mmvm_lock` while they work on the memory, and `READ`
holds no lock.  Here the simulator can be interrupted where the lock is taken, and in an
access to a region behind the lookup of the region and behind `pg_getpage`, so a `READ`
sees the memory at three times between which the other CPUs execute any instructions.

If the programs are well behaved and fit into the RAM, nothing is seen of that: every
run of these steps is a run in which an instruction is one step.  What a `READ` looks at
belongs to its process, and no other CPU executes an instruction of this process
meanwhile.
-/

namespace Ossim
namespace System

open CInt Memory Transition

/-- How far a CPU has come in an instruction of the memory library. -/
inductive Position
  | outside
  /-- `mmvm_lock` is held. -/
  | locked
  /-- Behind `get_symrg_byid` and `get_vma_by_num`, with the address. -/
  | located (addr : Int)
  /-- Behind `pg_getpage`, with `phyaddr`. -/
  | online (phyaddr : Nat)
  deriving DecidableEq

/-- How many steps there may be before the last one of an instruction. -/
def Position.left : Position → Nat
  | .outside => 3
  | .locked => 2
  | .located _ => 1
  | .online _ => 0

/-- `__alloc`, `__free` and `__write` take `mmvm_lock`. -/
def takesLock : Memory.Inst → Bool
  | .read _ _ => false
  | .alloc _ _ | .free _ | .write _ _ _ => true

/-- The simulator with the positions of its CPUs and the owner of `mmvm_lock`. -/
structure Fine (n : Nat) where
  base : State n
  position : Fin n → Position
  mmvmLock : Option (Fin n)

namespace Fine

def boot (n : Nat) (mem : Mem Nat) : Fine n where
  base := System.boot n mem
  position := fun _ => .outside
  mmvmLock := none

/-- Move a CPU within an instruction. -/
def moved (fine : Fine n) (id : Fin n) (position : Position) : Fine n :=
  { fine with position := Function.update fine.position id position }

/-- The return from an instruction, with the memory and what was printed.  A lock that
the CPU holds is released. -/
def finish (setup : Setup) (fine : Fine n) (id : Fin n) (proc : Nat) (mem : Mem Nat)
    (printed : List Byte) : Option (Fine n) := do
  let os ← fine.base.os.step setup.toConfig (.cpu id)
  some
    { base :=
        { os := os
          mem := mem
          output := Function.update fine.base.output proc (fine.base.output proc ++ printed) }
      position := Function.update fine.position id .outside
      mmvmLock := if fine.mmvmLock = some id then none else fine.mmvmLock }

/-- `get_symrg_byid` in `__read` and `__write`, which return -1 without a region. -/
def locate (setup : Setup) (fine : Fine n) (id : Fin n) (proc rgid offset : Nat) :
    Option (Fine n) := do
  match ← getSymrgById (fine.base.mem.mm proc) (toInt rgid) with
  | none => fine.finish setup id proc fine.base.mem []
  | some currg => some (fine.moved id (.located (accessAddr currg (toInt offset))))

/-- `pthread_mutex_lock(&mmvm_lock)` -/
def lock (fine : Fine n) (id : Fin n) : Option (Fine n) :=
  if fine.mmvmLock = none then some { fine.moved id .locked with mmvmLock := some id }
  else none

/-- `pg_getpage` in `pg_getval` and `pg_setval`.  After an error `__write` returns, and
`__read` returns a variable that is not assigned. -/
def translate (setup : Setup) (fine : Fine n) (id : Fin n) (proc : Nat) (inst : Memory.Inst)
    (addr : Int) : Option (Fine n) := do
  let (rc, mem, fpn) ← pgGetpage fine.base.mem proc (pagingPgn addr)
  if rc = 0 then
    let fpn ← fpn
    some
      { fine.moved id (.online (pagingPhyaddr fpn (pagingOffst addr))) with
        base := { fine.base with mem := mem } }
  else if takesLock inst then
    fine.finish setup id proc mem []
  else
    none

/-- The access to the RAM. -/
def transfer (setup : Setup) (fine : Fine n) (id : Fin n) (proc : Nat) (inst : Memory.Inst)
    (phyaddr : Nat) : Option (Fine n) :=
  match inst with
  | .read _ _ => do
      let regs ← sysMemmap fine.base.mem proc (.ioRead phyaddr)
      let data ← regs.a3
      fine.finish setup id proc regs.mem [data]
  | .write data _ _ => do
      let regs ← sysMemmap fine.base.mem proc (.ioWrite phyaddr data)
      fine.finish setup id proc regs.mem []
  | .alloc _ _ | .free _ => none

/-- The work under `mmvm_lock`, where `__write` looks its region up and `__alloc` and
`__free` do all they do. -/
def underLock (setup : Setup) (fine : Fine n) (id : Fin n) (proc : Nat)
    (inst : Memory.Inst) : Option (Fine n) :=
  match inst with
  | .write _ destination offset => fine.locate setup id proc destination offset
  | .alloc _ _ | .free _ => do
      let mem ← run fine.base.mem proc inst
      fine.finish setup id proc mem []
  | .read _ _ => none

/-- The next step of an instruction. -/
def instruction (setup : Setup) (fine : Fine n) (id : Fin n) (proc : Nat)
    (inst : Memory.Inst) : Option (Fine n) :=
  match fine.position id with
  | .outside =>
      match inst with
      | .read source offset => fine.locate setup id proc source offset
      | .alloc _ _ | .free _ | .write _ _ _ => fine.lock id
  | .locked => fine.underLock setup id proc inst
  | .located addr => fine.translate setup id proc inst addr
  | .online phyaddr => fine.transfer setup id proc inst phyaddr

/-- The instruction of the memory library that a CPU is about to execute. -/
def fetched (setup : Setup) (state : State n) (id : Fin n) : Option (Nat × Memory.Inst) := do
  let proc ← executing state.os (.cpu id)
  let inst ← (setup.text proc)[state.os.pc proc]?
  match request inst with
  | .memory inst => some (proc, inst)
  | .nothing | .memmap _ _ _ | .killall => none

/-- A step of a thread, which in an instruction of the memory library is a part of it. -/
def step (setup : Setup) (fine : Fine n) (event : Os.Event n) : Option (Fine n) :=
  match event with
  | .cpu id =>
      match fetched setup fine.base id with
      | some (proc, inst) => fine.instruction setup id proc inst
      | none =>
          (System.step setup fine.base (.cpu id)).map fun base => { fine with base := base }
  | .timer | .loader | .main =>
      (System.step setup fine.base event).map fun base => { fine with base := base }

/-! ## What is known at a position -/

/-- The region and the offset of an access. -/
def target : Memory.Inst → Option (Nat × Nat)
  | .read source offset => some (source, offset)
  | .write _ destination offset => some (destination, offset)
  | .alloc _ _ | .free _ => none

/-- The address that the access computes. -/
def Locates (mm : Mm) (inst : Memory.Inst) (addr : Int) : Prop :=
  ∃ rgid offset region, target inst = some (rgid, offset) ∧
    getSymrgById mm (toInt rgid) = some (some region) ∧
      accessAddr region (toInt offset) = addr

/-- A CPU inside an instruction has looked up what is still there. -/
inductive Stands (setup : Setup) (state : State n) (id : Fin n) : Position → Prop
  | outside : Stands setup state id .outside
  | locked {proc : Nat} {inst : Memory.Inst} :
      fetched setup state id = some (proc, inst) → takesLock inst = true →
      Stands setup state id .locked
  | located {proc : Nat} {inst : Memory.Inst} {addr : Int} :
      fetched setup state id = some (proc, inst) →
      Locates (state.mem.mm proc) inst addr →
      Stands setup state id (.located addr)
  | online {proc : Nat} {inst : Memory.Inst} {addr : Int} :
      fetched setup state id = some (proc, inst) →
      Locates (state.mem.mm proc) inst addr →
      pagingPagePresent ((state.mem.mm proc).pgd (pagingPgn addr)) = true →
      Stands setup state id (.online (state.mem.cell proc addr))

/-- The invariant: the coarse state is one of a simulation of well-behaved programs, and
`mmvm_lock` belongs to the only CPU that is inside an instruction that takes it. -/
structure Valid (setup : Setup) (table : Nat → Fin 30 → Region) (frames : Nat)
    (fine : Fine n) : Prop where
  bounded : Os.Bounded setup.toConfig fine.base.os
  simulates : ∃ writes, Simulates setup table frames writes fine.base
  stands : ∀ id, Stands setup fine.base id (fine.position id)
  owner : ∀ id, fine.mmvmLock = some id → fine.position id ≠ .outside
  exclusive : ∀ id proc inst, fine.position id ≠ .outside →
    fetched setup fine.base id = some (proc, inst) → takesLock inst = true →
      fine.mmvmLock = some id

/-- One step of an instruction. -/
inductive Substep (setup : Setup) (fine : Fine n) (id : Fin n) (proc : Nat)
    (inst : Memory.Inst) : Fine n → Prop
  | lock :
      fine.position id = .outside → takesLock inst = true → fine.mmvmLock = none →
      Substep setup fine id proc inst { fine.moved id .locked with mmvmLock := some id }
  | locate {addr : Int} :
      fine.position id = .outside ∧ takesLock inst = false ∨ fine.position id = .locked →
      Locates (fine.base.mem.mm proc) inst addr →
      Substep setup fine id proc inst (fine.moved id (.located addr))
  | translate {addr : Int} :
      fine.position id = .located addr → Locates (fine.base.mem.mm proc) inst addr →
      pagingPagePresent ((fine.base.mem.mm proc).pgd (pagingPgn addr)) = true →
      Substep setup fine id proc inst
        (fine.moved id (.online (fine.base.mem.cell proc addr)))
  | finish {base : State n} :
      System.step setup fine.base (.cpu id) = some base →
      Substep setup fine id proc inst
        { base := base
          position := Function.update fine.position id .outside
          mmvmLock := if fine.mmvmLock = some id then none else fine.mmvmLock }

variable {setup : Setup} {table : Nat → Fin 30 → Region} {demand : Nat → Nat}
  {frames : Nat} {fine : Fine n} {state next : State n} {id : Fin n} {proc : Nat}
  {inst : Memory.Inst} {mem : Mem Nat}

/-! ## Accesses -/

theorem fetched_eq_some_iff :
    fetched setup state id = some (proc, inst) ↔
      executing state.os (.cpu id) = some proc ∧
        ∃ loaded, (setup.text proc)[state.os.pc proc]? = some loaded ∧
          request loaded = .memory inst := by
  simp only [fetched, Option.bind_eq_bind, Option.bind_eq_some_iff]
  constructor
  · rintro ⟨executed, executes, loaded, inText, asked⟩
    split at asked
    · rename_i isRequest
      cases asked
      exact ⟨executes, loaded, inText, isRequest⟩
    · cases asked
    · cases asked
    · cases asked
  · rintro ⟨executes, loaded, inText, isRequest⟩
    refine ⟨proc, executes, loaded, inText, ?_⟩
    rw [isRequest]

theorem locates_unique
    {mm : Mm}
    {addr other : Int}
    (locates : Locates mm inst addr)
    (locatesOther : Locates mm inst other) :
    addr = other := by
  obtain ⟨rgid, offset, region, isTarget, found, rfl⟩ := locates
  obtain ⟨rgid', offset', region', isTarget', found', rfl⟩ := locatesOther
  cases isTarget.symm.trans isTarget'
  cases found.symm.trans found'
  rfl

/-- A permitted access finds its region, its page and its cell. -/
theorem access_of_below
    {rgid offset : Nat}
    (backed : Refinement.Backed mem)
    (below : Refinement.AccessBelowEnd (mem.mm proc) rgid offset) :
    ∃ region, getSymrgById (mem.mm proc) (toInt rgid) = some (some region) ∧
      pagingPagePresent
        ((mem.mm proc).pgd (pagingPgn (accessAddr region (toInt offset)))) = true ∧
      mem.cell proc (accessAddr region (toInt offset)) < mem.mram.maxsz := by
  obtain ⟨index, slot, addr, _, inArea, addrIs⟩ := backed.access below
  obtain ⟨fpn, inRam, online, cellIs⟩ := backed.cell inArea
  have inTable : ¬ (toInt rgid < 0 ∨ toInt rgid > pagingMaxSymtblSz) := by
    rw [slot, pagingMaxSymtblSz]
    have := index.isLt
    omega
  refine ⟨(mem.mm proc).symrgtbl index, ?_, ?_, ?_⟩
  · rw [getSymrgById, if_neg inTable, symrgIndex_eq_some_iff.mpr slot]
  · rw [addrIs]
    exact (onlineFrame_eq_some_iff.mp online).1
  · rw [addrIs, cellIs, pagingPhyaddr_eq]
    omega

theorem below_of_permitted
    {writes : List ((Nat × Nat) × Byte)}
    {rgid offset : Nat}
    (isTarget : target inst = some (rgid, offset))
    (permitted : Refinement.Permitted ⟨mem, writes⟩ ⟨proc, inst⟩) :
    Refinement.AccessBelowEnd (mem.mm proc) rgid offset := by
  cases inst with
  | alloc | free => cases isTarget
  | read | write =>
      cases isTarget
      exact permitted

/-- The steps of a `READ` together. -/
theorem libread_of_located
    {source offset : Nat}
    {region : Region}
    {data : Byte}
    (found : getSymrgById (mem.mm proc) (toInt source) = some (some region))
    (present : pagingPagePresent
      ((mem.mm proc).pgd (pagingPgn (accessAddr region (toInt offset)))) = true)
    (stored : memphyRead mem.mram (mem.cell proc (accessAddr region (toInt offset))) =
      some data) :
    libread mem proc source offset = some (data.toInt, mem, some data) := by
  have got := pgGetval_of_present present stored
  simp only [libread, Memory.read, found, got, Option.bind_eq_bind, Option.bind_some]

/-- The steps of a `WRITE` together. -/
theorem libwrite_of_located
    {destination offset : Nat}
    {region : Region}
    {data : Byte}
    {mram : Memphy}
    (found : getSymrgById (mem.mm proc) (toInt destination) = some (some region))
    (present : pagingPagePresent
      ((mem.mm proc).pgd (pagingPgn (accessAddr region (toInt offset)))) = true)
    (written : memphyWrite mem.mram (mem.cell proc (accessAddr region (toInt offset))) data =
      some mram) :
    libwrite mem proc data destination offset = some (0, mem.setMram mram) := by
  unfold Mem.cell at written
  simp only [libwrite, Memory.write, found, pgSetval, pgGetpage_of_present present, sysMemmap,
    written, Option.bind_eq_bind, Option.bind_some, ne_eq, not_true_eq_false, if_false]

/-- The instruction of a CPU is one that its machine executes. -/
theorem behaved
    (valid : Valid setup table frames fine)
    (fits : Fits setup table demand frames)
    (isFetched : fetched setup fine.base id = some (proc, inst)) :
    ∃ writes, Refinement.Valid ⟨fine.base.mem, writes⟩ ∧
      Refinement.Permitted ⟨fine.base.mem, writes⟩ ⟨proc, inst⟩ ∧
        ∃ mem', run fine.base.mem proc inst = some mem' := by
  obtain ⟨executes, loaded, inText, isRequest⟩ := fetched_eq_some_iff.mp isFetched
  obtain ⟨writes, simulates⟩ := valid.simulates
  obtain ⟨after, _, taken, enough⟩ :=
    simulates.machine_exec valid.bounded fits executes inText
  simp only [Machine.exec, isRequest] at taken
  have permitted := permitted_of_access simulates.valid.backed taken enough
  exact ⟨writes, simulates.valid, permitted, run_of_access simulates.valid permitted taken⟩

/-- The last step of an instruction is the whole instruction of the coarse simulator. -/
theorem finish_of_execute
    {loaded : Os.Loader.Inst}
    {mem' : Mem Nat}
    {printed : List Byte}
    (executes : executing fine.base.os (.cpu id) = some proc)
    (inText : (setup.text proc)[fine.base.os.pc proc]? = some loaded)
    (executed : execute fine.base.mem proc loaded = some (mem', printed)) :
    ∃ next, fine.finish setup id proc mem' printed = some next ∧
      Substep setup fine id proc inst next := by
  obtain ⟨_, isCpu, label, holds⟩ := executing_eq_some_iff.mp executes
  cases isCpu
  have goes : ∃ os, fine.base.os.step setup.toConfig (.cpu id) = some os := by
    simp only [Os.State.step, Os.State.cpuRoutine, label, holds]
    exact ⟨_, rfl⟩
  obtain ⟨os, stepped⟩ := goes
  have taken : System.step setup fine.base (.cpu id) =
      some
        { os := os
          mem := mem'
          output := Function.update fine.base.output proc
            (fine.base.output proc ++ printed) } := by
    simp only [System.step, executes, inText, executed, stepped, Option.bind_eq_bind,
      Option.bind_some]
  refine ⟨_, ?_, Substep.finish taken⟩
  simp only [finish, stepped, Option.bind_eq_bind, Option.bind_some]

/-! ## The steps of an instruction -/

/-- The lookup of the region. -/
theorem locate_goes
    {rgid offset : Nat}
    (backed : Refinement.Backed fine.base.mem)
    (isTarget : target inst = some (rgid, offset))
    (below : Refinement.AccessBelowEnd (fine.base.mem.mm proc) rgid offset)
    (position : fine.position id = .outside ∧ takesLock inst = false ∨
      fine.position id = .locked) :
    ∃ next, fine.locate setup id proc rgid offset = some next ∧
      Substep setup fine id proc inst next := by
  obtain ⟨region, found, _, _⟩ := access_of_below backed below
  refine ⟨_, ?_, Substep.locate position ⟨rgid, offset, region, isTarget, found, rfl⟩⟩
  simp only [locate, found, Option.bind_eq_bind, Option.bind_some]

/-- `ALLOC` and `FREE` under the lock. -/
theorem underLock_goes
    {mem' : Mem Nat}
    (isFetched : fetched setup fine.base id = some (proc, inst))
    (noTarget : target inst = none)
    (ran : run fine.base.mem proc inst = some mem') :
    ∃ next, fine.underLock setup id proc inst = some next ∧
      Substep setup fine id proc inst next := by
  obtain ⟨executes, loaded, inText, isRequest⟩ := fetched_eq_some_iff.mp isFetched
  cases inst with
  | read | write => cases noTarget
  | alloc | free =>
      have executed : execute fine.base.mem proc loaded = some (mem', []) := by
        simp only [execute, isRequest, ran, Option.map_some]
      obtain ⟨next, finished, substep⟩ := finish_of_execute executes inText executed
      refine ⟨next, ?_, substep⟩
      simp only [underLock, ran, Option.bind_eq_bind, Option.bind_some, finished]

/-- `pg_getpage` for a page that is present. -/
theorem translate_goes
    {addr : Int}
    (backed : Refinement.Backed fine.base.mem)
    {rgid offset : Nat}
    (isTarget : target inst = some (rgid, offset))
    (below : Refinement.AccessBelowEnd (fine.base.mem.mm proc) rgid offset)
    (locates : Locates (fine.base.mem.mm proc) inst addr)
    (position : fine.position id = .located addr) :
    ∃ next, fine.translate setup id proc inst addr = some next ∧
      Substep setup fine id proc inst next := by
  obtain ⟨region, found, present, _⟩ := access_of_below backed below
  have addrIs : addr = accessAddr region (toInt offset) :=
    locates_unique locates ⟨rgid, offset, region, isTarget, found, rfl⟩
  rw [← addrIs] at present
  refine ⟨_, ?_, Substep.translate position locates present⟩
  simp only [translate, pgGetpage_of_present present, Option.bind_eq_bind, Option.bind_some,
    if_true]
  rfl

/-- The access to the RAM. -/
theorem transfer_goes
    {addr : Int}
    (backed : Refinement.Backed fine.base.mem)
    (isFetched : fetched setup fine.base id = some (proc, inst))
    {rgid offset : Nat}
    (isTarget : target inst = some (rgid, offset))
    (below : Refinement.AccessBelowEnd (fine.base.mem.mm proc) rgid offset)
    (locates : Locates (fine.base.mem.mm proc) inst addr) :
    ∃ next, fine.transfer setup id proc inst (fine.base.mem.cell proc addr) = some next ∧
      Substep setup fine id proc inst next := by
  obtain ⟨executes, loaded, inText, isRequest⟩ := fetched_eq_some_iff.mp isFetched
  obtain ⟨region, found, present, inBounds⟩ := access_of_below backed below
  have addrIs : addr = accessAddr region (toInt offset) :=
    locates_unique locates ⟨rgid, offset, region, isTarget, found, rfl⟩
  rw [addrIs]
  cases inst with
  | alloc | free => cases isTarget
  | read source offset =>
      cases isTarget
      obtain ⟨data, stored⟩ : ∃ data, memphyRead fine.base.mem.mram
          (fine.base.mem.cell proc (accessAddr region (toInt offset))) = some data :=
        ⟨_, memphyRead_eq_some_iff.mpr ⟨backed.random, inBounds, rfl⟩⟩
      have executed : execute fine.base.mem proc loaded = some (fine.base.mem, [data]) := by
        simp only [execute, isRequest, libread_of_located found present stored,
          Option.map_some, Option.toList_some]
      obtain ⟨next, finished, substep⟩ := finish_of_execute executes inText executed
      refine ⟨next, ?_, substep⟩
      simp only [transfer, sysMemmap, stored, Option.bind_eq_bind, Option.bind_some, finished]
  | write data destination offset =>
      cases isTarget
      obtain ⟨mram, written⟩ : ∃ mram, memphyWrite fine.base.mem.mram
          (fine.base.mem.cell proc (accessAddr region (toInt offset))) data = some mram := by
        rw [memphyWrite, if_pos backed.random, if_pos inBounds]
        exact ⟨_, rfl⟩
      have executed : execute fine.base.mem proc loaded =
          some (fine.base.mem.setMram mram, []) := by
        simp only [execute, isRequest, run, libwrite_of_located found present written,
          Option.map_some]
      obtain ⟨next, finished, substep⟩ := finish_of_execute executes inText executed
      refine ⟨next, ?_, substep⟩
      simp only [transfer, sysMemmap, written, Option.bind_eq_bind, Option.bind_some, finished]

/-- A CPU in front of a lock that is held waits.  Otherwise it takes one of the steps. -/
theorem instruction_cases
    (valid : Valid setup table frames fine)
    (fits : Fits setup table demand frames)
    (isFetched : fetched setup fine.base id = some (proc, inst)) :
    (fine.position id = .outside ∧ fine.mmvmLock ≠ none ∧
        fine.instruction setup id proc inst = none) ∨
      ∃ next, fine.instruction setup id proc inst = some next ∧
        Substep setup fine id proc inst next := by
  obtain ⟨writes, memValid, permitted, mem', ran⟩ := behaved valid fits isFetched
  have backed : Refinement.Backed fine.base.mem := memValid.backed
  have below : ∀ {rgid offset : Nat}, target inst = some (rgid, offset) →
      Refinement.AccessBelowEnd (fine.base.mem.mm proc) rgid offset := fun isTarget =>
    below_of_permitted isTarget permitted
  have stands := valid.stands id
  cases position : fine.position id with
  | outside =>
      cases inst with
      | read source offset =>
          refine .inr ?_
          simp only [instruction, position]
          exact locate_goes backed rfl (below rfl) (.inl ⟨position, rfl⟩)
      | alloc | free | write =>
          by_cases unlocked : fine.mmvmLock = none
          · refine .inr ⟨_, ?_, Substep.lock position rfl unlocked⟩
            simp only [instruction, position, lock, unlocked, if_true]
          · refine .inl ⟨rfl, unlocked, ?_⟩
            simp only [instruction, position, lock, unlocked, if_false]
  | locked =>
      rw [position] at stands
      cases stands with
      | locked isFetched' takes =>
          cases isFetched.symm.trans isFetched'
          refine .inr ?_
          simp only [instruction, position]
          cases inst with
          | read => cases takes
          | write data destination offset =>
              exact locate_goes backed rfl (below rfl) (.inr position)
          | alloc | free => exact underLock_goes isFetched rfl ran
  | located addr =>
      rw [position] at stands
      cases stands with
      | located isFetched' locates =>
          cases isFetched.symm.trans isFetched'
          obtain ⟨rgid, offset, region, isTarget, found⟩ := locates
          refine .inr ?_
          simp only [instruction, position]
          exact translate_goes backed isTarget (below isTarget)
            ⟨rgid, offset, region, isTarget, found⟩ position
  | online phyaddr =>
      rw [position] at stands
      cases stands with
      | online isFetched' locates present =>
          cases isFetched.symm.trans isFetched'
          obtain ⟨rgid, offset, region, isTarget, found⟩ := locates
          refine .inr ?_
          simp only [instruction, position]
          exact transfer_goes backed isFetched isTarget (below isTarget)
            ⟨rgid, offset, region, isTarget, found⟩

/-! ## The invariant -/

/-- Another CPU does not touch the address space of the process. -/
theorem mm_of_step
    {writes : List ((Nat × Nat) × Byte)}
    {event : Os.Event n}
    {executed : Nat}
    (bounded : Os.Bounded setup.toConfig state.os)
    (simulates : Simulates setup table frames writes state)
    (fits : Fits setup table demand frames)
    (executes : executing state.os event = some executed)
    (taken : System.step setup state event = some next)
    (different : proc ≠ executed) :
    next.mem.mm proc = state.mem.mm proc := by
  obtain ⟨loaded, printed, inText, ran, _, _⟩ := step_of_executing executes taken
  obtain ⟨after, _, taken', enough⟩ := simulates.machine_exec bounded fits executes inText
  obtain ⟨writes', whole, _⟩ := executed_of_execute simulates.valid taken' enough ran
  exact whole.others proc different

/-- The instruction of a CPU stays the same, and so does the address space of its
process, while other threads take their steps. -/
theorem fetched_of_step
    {writes : List ((Nat × Nat) × Byte)}
    {event : Os.Event n}
    (bounded : Os.Bounded setup.toConfig state.os)
    (simulates : Simulates setup table frames writes state)
    (fits : Fits setup table demand frames)
    (taken : System.step setup state event = some next)
    (other : event ≠ .cpu id)
    (isFetched : fetched setup state id = some (proc, inst)) :
    fetched setup next id = some (proc, inst) ∧ next.mem.mm proc = state.mem.mm proc := by
  obtain ⟨executes, loaded, inText, isRequest⟩ := fetched_eq_some_iff.mp isFetched
  obtain ⟨_, isCpu, label, holds⟩ := executing_eq_some_iff.mp executes
  cases isCpu
  have stepped := os_step taken
  have sameCpu : next.os.cpu id = state.os.cpu id := by
    cases event with
    | cpu running =>
        have different : id ≠ running := fun same => other (by rw [same])
        exact (Os.cpuStep_of_cpuRoutine stepped).cpu_other different
    | timer | loader | main => rw [Os.State.step_cpu_other stepped (by simp)]
  have notOurs : ∀ executed, executing state.os event = some executed → proc ≠ executed := by
    rintro executed executesOther rfl
    obtain ⟨running, rfl, labelOther, holdsOther⟩ := executing_eq_some_iff.mp executesOther
    have held : state.os.held id = some proc := by
      simp [Os.State.held, Os.Cpu.held, label, Os.Label.owns, holds]
    have heldOther : state.os.held running = some proc := by
      simp [Os.State.held, Os.Cpu.held, labelOther, Os.Label.owns, holdsOther]
    exact other (by rw [bounded.invariant.placed.once _ _ _ held heldOther])
  have samePc : next.os.pc proc = state.os.pc proc := by
    rw [pc_of_step stepped proc, if_neg fun ours => notOurs proc ours rfl]
  refine ⟨fetched_eq_some_iff.mpr ⟨?_, loaded, samePc ▸ inText, isRequest⟩, ?_⟩
  · exact executing_eq_some_iff.mpr ⟨id, rfl, sameCpu ▸ label, sameCpu ▸ holds⟩
  · cases executesOther : executing state.os event with
    | none => rw [(step_of_not_executing executesOther taken).2.1]
    | some executed =>
        exact mm_of_step bounded simulates fits executesOther taken
          (notOurs executed executesOther)

theorem fetched_of_stands
    {position : Position}
    (stands : Stands setup state id position)
    (inside : position ≠ .outside) :
    ∃ proc inst, fetched setup state id = some (proc, inst) := by
  cases stands with
  | outside => exact absurd rfl inside
  | locked isFetched | located isFetched | online isFetched => exact ⟨_, _, isFetched⟩

/-- What a CPU has looked up is still there after a step of another thread. -/
theorem stands_of_step
    {writes : List ((Nat × Nat) × Byte)}
    {event : Os.Event n}
    {position : Position}
    (bounded : Os.Bounded setup.toConfig state.os)
    (simulates : Simulates setup table frames writes state)
    (fits : Fits setup table demand frames)
    (taken : System.step setup state event = some next)
    (other : event ≠ .cpu id)
    (stands : Stands setup state id position) :
    Stands setup next id position := by
  have same : ∀ {proc : Nat} {inst : Memory.Inst},
      fetched setup state id = some (proc, inst) → _ := fun isFetched =>
    fetched_of_step bounded simulates fits taken other isFetched
  cases stands with
  | outside => exact .outside
  | locked isFetched takes => exact .locked (same isFetched).1 takes
  | located isFetched locates =>
      obtain ⟨isFetched', sameMm⟩ := same isFetched
      exact .located isFetched' (sameMm ▸ locates)
  | @online proc inst addr isFetched locates present =>
      obtain ⟨isFetched', sameMm⟩ := same isFetched
      have sameCell : state.mem.cell proc addr = next.mem.cell proc addr := by
        rw [Mem.cell, Mem.cell, sameMm]
      rw [sameCell]
      exact .online isFetched' (sameMm ▸ locates) (sameMm ▸ present)

namespace Valid

theorem boot
    (start : Refinement.Start ⟨mem, []⟩) :
    Valid setup (symbolTable mem) (ramFrames mem) (Fine.boot n mem) where
  bounded := Os.Bounded.boot setup.toConfig n
  simulates := ⟨[], simulates_boot setup n start⟩
  stands := fun _ => .outside
  owner := fun _ owns => by cases owns
  exclusive := fun _ _ _ inside => absurd rfl inside

/-- A CPU that is inside an instruction before a step of another thread holds the lock
behind it, if the instruction takes it. -/
theorem exclusive_of_step
    {event : Os.Event n}
    (valid : Valid setup table frames fine)
    (fits : Fits setup table demand frames)
    (taken : System.step setup fine.base event = some next)
    (other : event ≠ .cpu id)
    (inside : fine.position id ≠ .outside)
    (isFetched : fetched setup next id = some (proc, inst))
    (takes : takesLock inst = true) :
    fine.mmvmLock = some id := by
  obtain ⟨writes, simulates⟩ := valid.simulates
  obtain ⟨proc', inst', before⟩ := fetched_of_stands (valid.stands id) inside
  obtain ⟨after, _⟩ := fetched_of_step valid.bounded simulates fits taken other before
  cases after.symm.trans isFetched
  exact valid.exclusive id _ _ inside before takes

/-- A CPU moves within an instruction, and may take the lock. -/
theorem moved
    {position : Position}
    {mmvmLock : Option (Fin n)}
    (valid : Valid setup table frames fine)
    (stands : Stands setup fine.base id position)
    (inside : position ≠ .outside)
    (lock : mmvmLock = fine.mmvmLock ∨ fine.mmvmLock = none ∧ mmvmLock = some id)
    (owns : ∀ proc inst, fetched setup fine.base id = some (proc, inst) →
      takesLock inst = true → mmvmLock = some id) :
    Valid setup table frames { fine.moved id position with mmvmLock := mmvmLock } where
  bounded := valid.bounded
  simulates := valid.simulates
  stands := by
    intro other
    by_cases same : other = id
    · subst same
      simpa [Fine.moved] using stands
    · simpa [Fine.moved, same] using valid.stands other
  owner := by
    intro other owner
    by_cases same : other = id
    · subst same
      simpa [Fine.moved] using inside
    · have owner : mmvmLock = some other := owner
      have before : fine.mmvmLock = some other := by
        rcases lock with unchanged | ⟨_, ours⟩
        · exact unchanged ▸ owner
        · rw [ours] at owner
          exact absurd (Option.some.inj owner).symm same
      simpa [Fine.moved, same] using valid.owner other before
  exclusive := by
    intro other proc inst otherInside isFetched takes
    by_cases same : other = id
    · subst same
      exact owns proc inst isFetched takes
    · have before : fine.position other ≠ .outside := by
        simpa [Fine.moved, same] using otherInside
      have owner := valid.exclusive other proc inst before isFetched takes
      rcases lock with unchanged | ⟨free, _⟩
      · exact unchanged.trans owner
      · rw [free] at owner
        cases owner

/-- A step that is no part of an instruction of the memory library. -/
theorem coarse
    {event : Os.Event n}
    (valid : Valid setup table frames fine)
    (fits : Fits setup table demand frames)
    (taken : System.step setup fine.base event = some next)
    (quiet : ∀ id, event = .cpu id → fetched setup fine.base id = none) :
    Valid setup table frames { fine with base := next } where
  bounded := valid.bounded.step event (os_step taken)
  simulates := by
    obtain ⟨writes, simulates⟩ := valid.simulates
    exact simulates.step valid.bounded fits taken
  stands := by
    intro id
    obtain ⟨writes, simulates⟩ := valid.simulates
    by_cases ours : event = .cpu id
    · have position : fine.position id = .outside := by
        by_contra inside
        obtain ⟨_, _, isFetched⟩ := fetched_of_stands (valid.stands id) inside
        rw [quiet id ours] at isFetched
        cases isFetched
      show Stands setup next id (fine.position id)
      rw [position]
      exact .outside
    · exact stands_of_step valid.bounded simulates fits taken ours (valid.stands id)
  owner := valid.owner
  exclusive := by
    intro id proc inst inside isFetched takes
    have other : event ≠ .cpu id := by
      intro ours
      obtain ⟨_, _, before⟩ := fetched_of_stands (valid.stands id) inside
      rw [quiet id ours] at before
      cases before
    exact valid.exclusive_of_step fits taken other inside isFetched takes

/-- The end of an instruction. -/
theorem finished
    (valid : Valid setup table frames fine)
    (fits : Fits setup table demand frames)
    (taken : System.step setup fine.base (.cpu id) = some next) :
    Valid setup table frames
      { base := next
        position := Function.update fine.position id .outside
        mmvmLock := if fine.mmvmLock = some id then none else fine.mmvmLock } where
  bounded := valid.bounded.step _ (os_step taken)
  simulates := by
    obtain ⟨writes, simulates⟩ := valid.simulates
    exact simulates.step valid.bounded fits taken
  stands := by
    intro other
    obtain ⟨writes, simulates⟩ := valid.simulates
    by_cases same : other = id
    · subst same
      simpa using Stands.outside
    · have different : Os.Event.cpu id ≠ .cpu other := fun equal =>
        same (Os.Event.cpu.inj equal).symm
      simpa [same] using
        stands_of_step valid.bounded simulates fits taken different (valid.stands other)
  owner := by
    intro other owner
    have still : (if fine.mmvmLock = some id then none else fine.mmvmLock) = some other := owner
    split at still
    · cases still
    · rename_i notOurs
      have same : other ≠ id := by
        rintro rfl
        exact notOurs still
      simpa [same] using valid.owner other still
  exclusive := by
    intro other proc inst inside isFetched takes
    have same : other ≠ id := by
      rintro rfl
      simp at inside
    have different : Os.Event.cpu id ≠ .cpu other := fun equal =>
      same (Os.Event.cpu.inj equal).symm
    have before : fine.position other ≠ .outside := by simpa [same] using inside
    have owner := valid.exclusive_of_step fits taken different before isFetched takes
    have notOurs : fine.mmvmLock ≠ some id := by
      rw [owner]
      exact fun equal => same (Option.some.inj equal)
    exact (if_neg notOurs).trans owner

/-- Every step of an instruction keeps the invariant. -/
theorem substep
    {fine' : Fine n}
    (valid : Valid setup table frames fine)
    (fits : Fits setup table demand frames)
    (isFetched : fetched setup fine.base id = some (proc, inst))
    (taken : Substep setup fine id proc inst fine') :
    Valid setup table frames fine' := by
  cases taken with
  | lock outside takes unlocked =>
      exact valid.moved (.locked isFetched takes) (by simp) (.inr ⟨unlocked, rfl⟩)
        fun _ _ _ _ => rfl
  | locate position locates =>
      refine valid.moved (.located isFetched locates) (by simp) (.inl rfl) ?_
      intro proc' inst' again takes
      cases isFetched.symm.trans again
      rcases position with ⟨_, noLock⟩ | locked
      · rw [takes] at noLock
        cases noLock
      · exact valid.exclusive id _ _ (by simp [locked]) isFetched takes
  | translate position locates present =>
      exact valid.moved (.online isFetched locates present) (by simp) (.inl rfl)
        fun _ _ again takes => valid.exclusive id _ _ (by simp [position]) again takes
  | finish taken => exact valid.finished fits taken

end Valid

/-! ## The refinement -/

/-- A step of a thread is one of an instruction of the memory library, or one of the
coarse simulator. -/
theorem step_cases
    {fine' : Fine n}
    {event : Os.Event n}
    (valid : Valid setup table frames fine)
    (fits : Fits setup table demand frames)
    (taken : fine.step setup event = some fine') :
    (∃ id proc inst, event = .cpu id ∧ fetched setup fine.base id = some (proc, inst) ∧
        Substep setup fine id proc inst fine') ∨
      ∃ base, System.step setup fine.base event = some base ∧
        fine' = { fine with base := base } ∧
          ∀ id, event = .cpu id → fetched setup fine.base id = none := by
  cases event with
  | cpu id =>
      simp only [step] at taken
      cases isFetched : fetched setup fine.base id with
      | some both =>
          obtain ⟨proc, inst⟩ := both
          simp only [isFetched] at taken
          rcases instruction_cases valid fits isFetched with
            ⟨_, _, waits⟩ | ⟨next, goes, substep⟩
          · rw [waits] at taken
            cases taken
          · cases goes.symm.trans taken
            exact .inl ⟨id, proc, inst, rfl, isFetched, substep⟩
      | none =>
          simp only [isFetched] at taken
          obtain ⟨base, stepped, rfl⟩ := Option.map_eq_some_iff.mp taken
          refine .inr ⟨base, stepped, rfl, fun other same => ?_⟩
          cases same
          exact isFetched
  | timer | loader | main =>
      obtain ⟨base, stepped, rfl⟩ := Option.map_eq_some_iff.mp taken
      exact .inr ⟨base, stepped, rfl, by simp⟩

/-- The steps before the last ones of the current instructions. -/
def pending (fine : Fine n) : Nat := ∑ id, (fine.position id).left

/-- A CPU that has finished an instruction is in front of the next one. -/
def cost : Os.Event n → Nat
  | .cpu _ => 3
  | .timer | .loader | .main => 0

theorem pending_lt
    {position : Position}
    {fine' : Fine n}
    (moved : fine'.position = Function.update fine.position id position)
    (closer : position.left < (fine.position id).left) :
    fine'.pending < fine.pending := by
  refine Finset.sum_lt_sum (fun other _ => ?_) ⟨id, Finset.mem_univ id, ?_⟩
  · rw [moved]
    by_cases same : other = id
    · subst same
      rw [Function.update_self]
      exact closer.le
    · rw [Function.update_of_ne same]
  · rw [moved, Function.update_self]
    exact closer

theorem pending_le
    {fine' : Fine n}
    (moved : fine'.position = Function.update fine.position id .outside) :
    fine'.pending ≤ fine.pending + 3 := by
  have added : ∑ other, (fine'.position other).left ≤
      ∑ other, ((fine.position other).left + if other = id then 3 else 0) := by
    refine Finset.sum_le_sum fun other _ => ?_
    rw [moved]
    by_cases same : other = id
    · subst same
      rw [Function.update_self, if_pos rfl]
      exact Nat.le_add_left 3 _
    · rw [Function.update_of_ne same, if_neg same]
      exact Nat.le_refl _
  rw [Finset.sum_add_distrib, Finset.sum_ite_eq' Finset.univ id, if_pos (Finset.mem_univ id)]
    at added
  exact added

/-- The last step of an instruction is the instruction, and the others are invisible. -/
theorem stutters
    (fits : Fits setup table demand frames) :
    Stutters (Fine.step (n := n) setup) (System.step setup) Fine.base
      (Valid setup table frames) pending cost where
  kept := by
    intro fine event fine' valid taken
    rcases step_cases valid fits taken with
      ⟨id, proc, inst, rfl, isFetched, substep⟩ | ⟨base, stepped, rfl, quiet⟩
    · exact valid.substep fits isFetched substep
    · exact valid.coarse fits stepped quiet
  step := by
    intro fine event fine' valid taken
    rcases step_cases valid fits taken with
      ⟨id, proc, inst, rfl, isFetched, substep⟩ | ⟨base, stepped, rfl, quiet⟩
    · cases substep with
      | lock outside takes unlocked =>
          exact .inl ⟨rfl, pending_lt rfl (by rw [outside]; decide)⟩
      | locate position locates =>
          refine .inl ⟨rfl, pending_lt rfl ?_⟩
          rcases position with ⟨outside, _⟩ | locked
          · rw [outside]
            exact show 1 < 3 by decide
          · rw [locked]
            exact show 1 < 2 by decide
      | translate position locates present =>
          exact .inl ⟨rfl, pending_lt rfl (by rw [position]; exact Nat.zero_lt_one)⟩
      | finish stepped => exact .inr ⟨stepped, pending_le rfl⟩
    · exact .inr ⟨stepped, Nat.le_add_right _ _⟩

/-- A thread that can go on in the coarse simulator can go on, or the owner of the lock
can. -/
theorem goes
    {event : Os.Event n}
    (valid : Valid setup table frames fine)
    (fits : Fits setup table demand frames)
    (notMain : event.isMain = false)
    (enabled : System.step setup fine.base event ≠ none) :
    ∃ other : Os.Event n, other.isMain = false ∧ fine.step setup other ≠ none := by
  obtain ⟨base, stepped⟩ := Option.ne_none_iff_exists'.mp enabled
  cases event with
  | cpu id =>
      cases isFetched : fetched setup fine.base id with
      | none =>
          refine ⟨.cpu id, rfl, ?_⟩
          simp only [step, isFetched, stepped, Option.map_some]
          simp
      | some both =>
          obtain ⟨proc, inst⟩ := both
          rcases instruction_cases valid fits isFetched with
            ⟨_, locked, _⟩ | ⟨next, taken, _⟩
          · obtain ⟨owner, owns⟩ := Option.ne_none_iff_exists'.mp locked
            have inside := valid.owner owner owns
            obtain ⟨proc', inst', isFetched'⟩ :=
              fetched_of_stands (valid.stands owner) inside
            refine ⟨.cpu owner, rfl, ?_⟩
            rcases instruction_cases valid fits isFetched' with
              ⟨outside, _⟩ | ⟨next, taken, _⟩
            · exact absurd outside inside
            · simp [step, isFetched', taken]
          · exact ⟨.cpu id, rfl, by simp [step, isFetched, taken]⟩
  | timer | loader =>
      refine ⟨_, notMain, ?_⟩
      simp only [step, stepped, Option.map_some]
      simp
  | main => cases notMain

/-- A CPU that has stopped is in no instruction. -/
theorem outside_of_stopped
    (valid : Valid setup table frames fine)
    (stopped : (fine.base.os.cpu id).label = .stopped) :
    fine.position id = .outside := by
  by_contra inside
  obtain ⟨proc, inst, isFetched⟩ := fetched_of_stands (valid.stands id) inside
  obtain ⟨executes, _⟩ := fetched_eq_some_iff.mp isFetched
  simp [executing, stopped] at executes

/-- `READ` needs no lock.  Whatever happens between the steps of the instructions, a run
is one in which each instruction is one step, every run can be continued to an end, and
where it has ended all CPUs have stopped, `mmvm_lock` is free, and each program has read
the bytes that it reads alone. -/
theorem outputs_as_alone_unlocked
    (setup : Setup)
    (n : Nat)
    (someCpu : 0 < n)
    (few : setup.numProcesses ≤ Scheduler.maxQueueSize)
    (mem : Mem Nat)
    (demand : Nat → Nat)
    (start : Refinement.Start ⟨mem, []⟩)
    (fits : Fits setup (symbolTable mem) demand (ramFrames mem))
    (fine : Fine n)
    (run : Run (Fine.step setup) anyEvent (Fine.boot n mem) fine) :
    Run (System.step setup) anyEvent (System.boot n mem) fine.base ∧
      (Halted (Fine.step setup) Os.Event.isMain fine →
        (∀ id, (fine.base.os.cpu id).label = .stopped ∧ fine.position id = .outside) ∧
          fine.mmvmLock = none ∧
          ∀ proc, proc < setup.numProcesses →
            ∃ machine, replay Machine.exec (.start (symbolTable mem proc)) (setup.text proc) =
                some machine ∧
              fine.base.output proc = machine.output) ∧
      ∃ events last, replay (Fine.step setup) fine events = some last ∧
        Halted (Fine.step setup) Os.Event.isMain last := by
  have refinement := stutters (n := n) fits
  obtain ⟨valid, coarseRun⟩ := refinement.run (Valid.boot start) run
  refine ⟨coarseRun, fun halted => ?_, ?_⟩
  · have coarseHalted : Halted (System.step setup) Os.Event.isMain fine.base :=
      halted.coarse fun event notMain enabled => goes valid fits notMain enabled
    have stopped := stopped_of_halted start fits coarseRun coarseHalted
    have outside := fun id => outside_of_stopped valid (stopped id)
    refine ⟨fun id => ⟨stopped id, outside id⟩, ?_, fun proc configured =>
      outputs_of_halted someCpu few start fits coarseRun coarseHalted configured⟩
    cases locked : fine.mmvmLock with
    | none => rfl
    | some id => exact absurd (outside id) (valid.owner id locked)
  · have atMost : ∀ event : Os.Event n, cost event ≤ 3 := fun event => by
      cases event <;> simp [cost]
    have nothing : ∀ event : Os.Event n, event.isMain = true → cost event = 0 :=
      fun event isMain => by cases event <;> simp_all [cost, Os.Event.isMain]
    have fineRanked := refinement.ranked (System.ranked setup n)
      (fun _ valid => valid.bounded) atMost nothing
    obtain ⟨events, last, _, reaches, halted⟩ := fineRanked.exists_halted fine valid
    exact ⟨events, last, reaches, halted⟩

/-- The two programs read 7 and 9 on two CPUs, whatever happens between the steps. -/
theorem outputs_as_alone_unlocked_twoPrograms :
    ∃ events last, replay (Fine.step twoPrograms) (Fine.boot 2 fourFrames) events =
        some last ∧
      ∀ proc, proc < 2 → last.base.output proc = [7 + 2 * BitVec.ofNat 8 proc] := by
  have outcome := outputs_as_alone_unlocked twoPrograms 2 (by decide) (by decide) fourFrames
    (fun proc => 2 - proc) fourFrames_start twoPrograms_fits
  obtain ⟨_, _, events, last, reaches, halted⟩ := outcome _ (.refl _)
  refine ⟨events, last, reaches, fun proc configured => ?_⟩
  obtain ⟨machine, replayed, sameOutput⟩ :=
    ((outcome last (Run.of_replay_any _ reaches)).2.1 halted).2.2 proc configured
  rw [sameOutput, twoPrograms_alone configured replayed]

end Fine

end System
end Ossim
