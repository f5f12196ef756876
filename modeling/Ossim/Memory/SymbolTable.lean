import Ossim.Memory.Backing

/-!
# The symbol table

`symrgtbl` keeps the region of each of the ids 0 to 29.  `ALLOC` stores a region in the
entry and does not test the id.  `FREE`, `READ` and `WRITE` test it against
`PAGING_MAX_SYMTBL_SZ`, but let the id 30 through, and `FREE` lists the region of the
entry as free and leaves the entry as it is.
-/

namespace Ossim
namespace Memory

open CInt Transition

variable {ι : Type} [DecidableEq ι] {mem mem' : Mem ι} {caller : ι}

/-! ## What a call does to the table -/

/-- The area starts at the same address and the symbol table is the same. -/
structure SameTable (mm mm' : Mm) : Prop where
  vmStart : mm'.mmap.vmStart = mm.mmap.vmStart
  symrgtbl : mm'.symrgtbl = mm.symrgtbl

theorem SameTable.of_enlist
    {mm mm' : Mm}
    {region : Region}
    {rc : Int}
    (enlisted : enlistVmFreergList mm region = some (rc, mm')) :
    SameTable mm mm' := by
  rcases enlistVmFreergList_cases enlisted with ⟨_, rfl⟩ | ⟨_, onlyList, _⟩
  · exact ⟨rfl, rfl⟩
  · rw [onlyList]
    exact ⟨rfl, rfl⟩

theorem EnlistsRest.sameTable
    {mm mm' : Mm}
    {newEnd : Nat}
    (rest : EnlistsRest mm newEnd mm') :
    SameTable mm mm' := by
  rcases rest with ⟨_, code, enlisted⟩ | ⟨_, rfl⟩
  · exact SameTable.of_enlist enlisted
  · exact ⟨rfl, rfl⟩

omit [DecidableEq ι] in
theorem SameRegions.sameTable
    (same : SameRegions caller mem mem') :
    SameTable (mem.mm caller) (mem'.mm caller) where
  vmStart := by rw [same.mmap]
  symrgtbl := same.symrgtbl

theorem Grows.sameTable
    {pages : Int}
    (grows : Grows mem caller pages mem') :
    SameTable (mem.mm caller) (mem'.mm caller) := by
  obtain ⟨vmStart, symrgtbl⟩ := grows.regions.sameTable
  rw [Mem.mm_setMm_self] at vmStart symrgtbl
  exact ⟨vmStart, symrgtbl⟩

/-- An `ALLOC` stores a region in the entry of its id, and nothing else. -/
theorem liballoc_table
    {size regIndex : Nat}
    {rc : Int}
    (allocated : liballoc mem caller size regIndex = some (rc, mem')) :
    rc = 0 ∧ (mem'.mm caller).mmap.vmStart = (mem.mm caller).mmap.vmStart ∧
      ∃ index : Fin 30, toInt regIndex = index.val ∧ ∃ region,
        (mem'.mm caller).symrgtbl = Function.update (mem.mm caller).symrgtbl index region := by
  simp only [liballoc, Option.bind_eq_bind, Option.bind_eq_some_iff, Option.some.injEq,
    Prod.mk.injEq] at allocated
  obtain ⟨⟨code, after, addr⟩, allocated, rfl, rfl⟩ := allocated
  dsimp only
  obtain ⟨rfl, index, slot, ⟨newrg, mm, taken, _, rfl⟩ |
    ⟨newEnd, middle, mm, _, outcome, _, _, rest, rfl⟩⟩ := alloc_cases allocated
  · obtain ⟨onlyList, _⟩ := getFreeVmrgArea_cases taken
    refine ⟨rfl, ?_, index, slot, newrg, ?_⟩
    · rw [Mem.mm_setMm_self, onlyList]
    · rw [Mem.mm_setMm_self, onlyList]
  · obtain ⟨vmStart, symrgtbl⟩ := rest.sameTable
    have same : SameTable (mem.mm caller) (middle.mm caller) := by
      rcases outcome with ⟨_, rfl⟩ | ⟨pages, _, grows⟩
      · exact ⟨rfl, rfl⟩
      · exact grows.sameTable
    refine ⟨rfl, ?_, index, slot,
      ⟨toULong (toInt (mem.mm caller).mmap.sbrk), toULong newEnd⟩, ?_⟩
    · rw [Mem.mm_setMm_self, vmStart, same.vmStart]
    · rw [Mem.mm_setMm_self, symrgtbl, same.symrgtbl]

/-- Only an `ALLOC` changes the symbol table of its process, and only the entry of its
id. -/
theorem runCall_table
    {call : Call}
    (ran : runCall mem caller call = some mem') :
    SameTable (mem.mm caller) (mem'.mm caller) ∨
      ∃ size regIndex, call = .inst (.alloc size regIndex) ∧
        (mem'.mm caller).mmap.vmStart = (mem.mm caller).mmap.vmStart ∧
        ∃ index : Fin 30, toInt regIndex = index.val ∧ ∃ region,
          (mem'.mm caller).symrgtbl = Function.update (mem.mm caller).symrgtbl index region := by
  cases call with
  | memmap a1 a2 a3 =>
      refine .inl ?_
      rcases sysMemmapRegs_cases ran with same | ⟨_, rc, grown⟩
      · rw [same.mm caller]
        exact ⟨rfl, rfl⟩
      · rcases incVmaLimitById_cases grown with ⟨_, _, _, rfl⟩ | ⟨_, pages, mapped, _, ranged, _⟩
        · exact ⟨rfl, rfl⟩
        · exact Grows.sameTable ⟨mapped, ranged⟩
  | inst inst =>
      have ran : run mem caller inst = some mem' := ran
      cases inst with
      | alloc size regIndex =>
          obtain ⟨⟨rc, after⟩, allocated, rfl⟩ := Option.map_eq_some_iff.mp ran
          obtain ⟨_, vmStart, stored⟩ := liballoc_table allocated
          exact .inr ⟨size, regIndex, rfl, vmStart, stored⟩
      | free regIndex =>
          simp only [run, Option.map_eq_some_iff, libfree] at ran
          obtain ⟨⟨rc, after⟩, freed, rfl⟩ := ran
          rcases free_cases freed with ⟨_, rfl⟩ | ⟨index, _, code, mm, enlisted, rfl⟩
          · exact .inl ⟨rfl, rfl⟩
          · rw [Mem.mm_setMm_self]
            exact .inl (SameTable.of_enlist enlisted)
      | read source offset => exact .inl (run_read_regions ran).sameTable
      | write data destination offset => exact .inl (run_write_regions ran).sameTable

/-- Every area starts at 0 in every run of programs. -/
theorem vmStart_of_run
    {first last : Mem ι}
    (start : ∀ proc, ∃ mm, first.mm proc = initMm mm)
    (run : Run callStep anyEvent first last)
    (proc : ι) :
    (last.mm proc).mmap.vmStart = 0 := by
  refine run.invariant (fun mem => ∀ proc, (mem.mm proc).mmap.vmStart = 0) ?_ ?_ proc
  · intro mem event mem' atZero _ taken proc
    by_cases isProc : proc = event.proc
    · subst isProc
      rcases runCall_table taken with same | ⟨_, _, _, vmStart, _⟩
      · rw [same.vmStart, atZero]
      · rw [vmStart, atZero]
    · rw [runCall_others taken isProc, atZero]
  · intro proc
    obtain ⟨mm, initial⟩ := start proc
    rw [initial]
    rfl

namespace SymbolTable

/-! ## Freeing twice -/

/-- The call is not an `ALLOC` of the process to the id. -/
def NoAllocTo (proc : ι) (index : Fin 30) (_ : Mem ι) (event : CallEvent ι) : Prop :=
  event.proc = proc →
    ∀ size regIndex, event.call = .inst (.alloc size regIndex) → toInt regIndex ≠ index.val

variable {proc : ι} {index : Fin 30}

theorem toInt_index (index : Fin 30) : toInt ((index.val : Nat) : Int) = index.val :=
  toInt_of_mem (by omega) (by have := index.isLt; omega)

/-- Other calls leave the entry of an id as it is. -/
theorem entry_runCall
    {event : CallEvent ι}
    (other : NoAllocTo proc index mem event)
    (taken : callStep mem event = some mem') :
    (mem'.mm proc).symrgtbl index = (mem.mm proc).symrgtbl index := by
  by_cases isProc : proc = event.proc
  · subst isProc
    rcases runCall_table taken with
      same | ⟨size, regIndex, called, _, stored, slot, region, updated⟩
    · rw [same.symrgtbl]
    · have different : index ≠ stored := by
        rintro rfl
        exact other rfl size regIndex called slot
      rw [updated, Function.update_of_ne different]
  · rw [runCall_others taken isProc]

/-- A `FREE` lists the region of the entry, unless it ends where it starts or before. -/
theorem libfree_list
    {rc : Int}
    (freed : libfree mem proc index.val = some (rc, mem')) :
    (mem'.mm proc).symrgtbl = (mem.mm proc).symrgtbl ∧
      ((mem'.mm proc).mmap.vmFreergList = (mem.mm proc).mmap.vmFreergList ↔
        ((mem.mm proc).symrgtbl index).rgEnd ≤ ((mem.mm proc).symrgtbl index).rgStart) := by
  have inTable := index.isLt
  rcases free_cases freed with ⟨invalid, _⟩ | ⟨other, slot, code, mm, enlisted, rfl⟩
  · rw [toInt_index] at invalid
    omega
  · rw [toInt_index] at slot
    obtain rfl : index = other := Fin.ext (by omega)
    rw [Mem.mm_setMm_self]
    refine ⟨(SameTable.of_enlist enlisted).symrgtbl, ?_⟩
    rcases enlistVmFreergList_cases enlisted with ⟨empty, rfl⟩ | ⟨bytes, _, listed⟩
    · exact iff_of_true rfl empty
    · refine iff_of_false (fun same => ?_) (by omega)
      rw [same] at listed
      exact absurd (congrArg List.length listed) (by simp)

/-- A second `FREE` of an id, after any calls but an `ALLOC` to the id, leaves the free
list exactly if the region in the entry ends where it starts or before. -/
theorem freeTwice_iff
    {mem freed before after : Mem ι}
    {rc rc' : Int}
    (once : libfree mem proc index.val = some (rc, freed))
    (between : Run callStep (NoAllocTo proc index) freed before)
    (twice : libfree before proc index.val = some (rc', after)) :
    (after.mm proc).mmap.vmFreergList = (before.mm proc).mmap.vmFreergList ↔
      ((mem.mm proc).symrgtbl index).rgEnd ≤ ((mem.mm proc).symrgtbl index).rgStart := by
  have kept := between.invariant
    (fun state => (state.mm proc).symrgtbl index = (mem.mm proc).symrgtbl index)
    (fun state event next same other taken => (entry_runCall other taken).trans same)
    (congrFun (libfree_list once).1 index)
  rw [(libfree_list twice).2, kept]

/-- A region of 300 bytes is freed, another one is allocated, and the first is freed
again. -/
theorem freeTwice_iff_twoFrames :
    ∃ mem rc freed before rc' after,
      callStep twoFrames ⟨0, .inst (.alloc 300 0)⟩ = some mem ∧
      libfree mem 0 0 = some (rc, freed) ∧
      callStep freed ⟨0, .inst (.alloc 200 1)⟩ = some before ∧
      libfree before 0 0 = some (rc', after) ∧
      ((after.mm 0).mmap.vmFreergList = (before.mm 0).mmap.vmFreergList ↔
        ((mem.mm 0).symrgtbl 0).rgEnd ≤ ((mem.mm 0).symrgtbl 0).rgStart) := by
  have evaluated : ((callStep twoFrames ⟨0, .inst (.alloc 300 0)⟩).bind fun mem =>
      (libfree mem 0 0).bind fun freed =>
        (callStep freed.2 ⟨0, .inst (.alloc 200 1)⟩).bind fun before =>
          libfree before 0 0).isSome = true := by decide +kernel
  obtain ⟨⟨rc', after⟩, evaluated⟩ := Option.isSome_iff_exists.mp evaluated
  obtain ⟨mem, allocated, evaluated⟩ := Option.bind_eq_some_iff.mp evaluated
  obtain ⟨⟨rc, freed⟩, once, evaluated⟩ := Option.bind_eq_some_iff.mp evaluated
  obtain ⟨before, other, twice⟩ := Option.bind_eq_some_iff.mp evaluated
  refine ⟨mem, rc, freed, before, rc', after, allocated, once, other, twice, ?_⟩
  have once : libfree mem 0 ((0 : Fin 30).val) = some (rc, freed) := once
  refine freeTwice_iff once ?_ twice
  refine Run.single ⟨0, .inst (.alloc 200 1)⟩ ?_ other
  rintro _ size regIndex same
  cases same
  decide

/-- A region of 300 bytes is freed twice and is then listed twice, and two later
`ALLOC`s get the same bytes. -/
theorem freed_twice :
    ∃ mem freed after last,
      callStep twoFrames ⟨0, .inst (.alloc 300 0)⟩ = some mem ∧
      libfree mem 0 0 = some (0, freed) ∧ libfree freed 0 0 = some (0, after) ∧
      (after.mm 0).mmap.vmFreergList ≠ (freed.mm 0).mmap.vmFreergList ∧
      replay callStep after [⟨0, .inst (.alloc 300 1)⟩, ⟨0, .inst (.alloc 300 2)⟩] = some last ∧
      (last.mm 0).symrgtbl 1 = ⟨0, 299⟩ ∧ (last.mm 0).symrgtbl 2 = ⟨0, 299⟩ := by
  have evaluated : ((callStep twoFrames ⟨0, .inst (.alloc 300 0)⟩).bind fun mem =>
      (libfree mem 0 0).bind fun freed =>
        (libfree freed.2 0 0).bind fun after =>
          (replay callStep after.2
              [⟨0, .inst (.alloc 300 1)⟩, ⟨0, .inst (.alloc 300 2)⟩]).map fun last =>
            decide (freed.1 = 0 ∧ after.1 = 0 ∧
              (after.2.mm 0).mmap.vmFreergList.nodes ≠ (freed.2.mm 0).mmap.vmFreergList.nodes ∧
              (last.mm 0).symrgtbl 1 = ⟨0, 299⟩ ∧ (last.mm 0).symrgtbl 2 = ⟨0, 299⟩)) =
        some true := by decide +kernel
  obtain ⟨mem, allocated, evaluated⟩ := Option.bind_eq_some_iff.mp evaluated
  obtain ⟨⟨rc, freed⟩, once, evaluated⟩ := Option.bind_eq_some_iff.mp evaluated
  obtain ⟨⟨rc', after⟩, twice, evaluated⟩ := Option.bind_eq_some_iff.mp evaluated
  obtain ⟨last, later, held⟩ := Option.map_eq_some_iff.mp evaluated
  obtain ⟨rfl, rfl, different, first, second⟩ := of_decide_eq_true held
  exact ⟨mem, freed, after, last, allocated, once, twice,
    fun same => different (by rw [same]), later, first, second⟩

/-! ## Which entries are touched -/

/-- The index at which `__alloc` stores the region, on either way. -/
def allocTouches (mem : Mem ι) (caller : ι) (rgid size : Int) : List Int :=
  match getFreeVmrgArea (mem.mm caller) size with
  | none => []
  | some (some _) => [rgid]
  | some none =>
      match sysMemmap mem caller (.inc size) with
      | none => []
      | some regs => if regs.rc ≠ 0 then [] else [rgid]

/-- The index that is read behind the test of `get_symrg_byid`, and of `__free`. -/
def checkedTouches (rgid : Int) : List Int :=
  if rgid < 0 ∨ rgid > pagingMaxSymtblSz then [] else [rgid]

/-- The indices of `symrgtbl` that an instruction touches. -/
def touches (mem : Mem ι) (proc : ι) : Inst → List Int
  | .alloc size regIndex => allocTouches mem proc (toInt regIndex) (toInt size)
  | .free regIndex => checkedTouches (toInt regIndex)
  | .read source _ => checkedTouches (toInt source)
  | .write _ destination _ => checkedTouches (toInt destination)

/-- The return value of an instruction, and the memory after it. -/
def returns (mem : Mem ι) (proc : ι) : Inst → Option (Int × Mem ι)
  | .alloc size regIndex => liballoc mem proc size regIndex
  | .free regIndex => libfree mem proc regIndex
  | .read source offset => (libread mem proc source offset).map fun result =>
      (result.1, result.2.1)
  | .write data destination offset => libwrite mem proc data destination offset

/-- The id of an instruction. -/
def rgid : Inst → Nat
  | .alloc _ regIndex => regIndex
  | .free regIndex => regIndex
  | .read source _ => source
  | .write _ destination _ => destination

/-- The calls of `libread` with which `__sys_killall` reads the name, with the offset and
the memory before each of them.  A variable that is not assigned holds anything. -/
inductive NameReads (mem : Mem ι) (caller : ι) (memrg : Nat) : Nat → Mem ι → Prop
  | first : NameReads mem caller memrg 0 mem
  | next {offset : Nat} {before after : Mem ι} {val : Int} {data : Option Byte} :
      NameReads mem caller memrg offset before →
      libread before caller memrg offset = some (val, after, data) →
      data ≠ some (BitVec.ofInt 8 (-1)) →
      NameReads mem caller memrg (offset + 1) after

/-- The instruction touches entries of the table only, and with an id outside the table
it returns -1 and leaves the memory as it is. -/
def IdChecked (mem : Mem ι) (proc : ι) (inst : Inst) : Prop :=
  (∀ index ∈ touches mem proc inst, 0 ≤ index ∧ index < pagingMaxSymtblSz) ∧
    (30 ≤ rgid inst → returns mem proc inst = some (-1, mem))

/-- An `ALLOC` needs an id of the table; the others need one that is not 30. -/
def IdAllowed : Inst → Prop
  | .alloc _ regIndex => regIndex < 30
  | .free regIndex => regIndex ≠ 30
  | .read source _ => source ≠ 30
  | .write _ destination _ => destination ≠ 30

/-- The test that `FREE`, `READ` and `WRITE` make lets the ids 0 to 30 through. -/
theorem checkedTouches_iff
    {id : Nat}
    (word : id < 2 ^ 32) :
    (∀ index ∈ checkedTouches (toInt id), 0 ≤ index ∧ index < pagingMaxSymtblSz) ↔ id ≠ 30 := by
  unfold checkedTouches pagingMaxSymtblSz
  rcases Nat.lt_or_ge id (2 ^ 31) with small | large
  · rw [toInt_of_mem (by omega) (by omega)]
    split
    · exact iff_of_true (by simp) (by omega)
    · simp only [List.mem_singleton, forall_eq]
      omega
  · rw [toInt_of_wrapped (by omega) (by omega), if_pos (by omega)]
    exact iff_of_true (by simp) (by omega)

/-- No entry is found for an id behind the table. -/
theorem getSymrgById_outside
    {mm : Mm}
    {id : Nat}
    (word : id < 2 ^ 32)
    (outside : 30 < id) :
    getSymrgById mm (toInt id) = some none := by
  unfold getSymrgById pagingMaxSymtblSz
  rcases Nat.lt_or_ge id (2 ^ 31) with small | large
  · rw [toInt_of_mem (by omega) (by omega), if_pos (by omega)]
  · rw [toInt_of_wrapped (by omega) (by omega), if_pos (by omega)]

theorem free_outside
    {id : Nat}
    (word : id < 2 ^ 32)
    (outside : 30 < id) :
    libfree mem proc id = some (-1, mem) := by
  simp [libfree, free, getSymrgById_outside word outside]

theorem read_outside
    {id offset : Nat}
    (word : id < 2 ^ 32)
    (outside : 30 < id) :
    libread mem proc id offset = some (-1, mem, none) := by
  simp [libread, read, getSymrgById_outside word outside]

theorem write_outside
    {id offset : Nat}
    {data : Byte}
    (word : id < 2 ^ 32)
    (outside : 30 < id) :
    libwrite mem proc data id offset = some (-1, mem) := by
  simp [libwrite, write, getSymrgById_outside word outside]

/-- An `ALLOC` never returns -1. -/
theorem liballoc_ne
    {size id : Nat} :
    liballoc mem proc size id ≠ some (-1, mem) := by
  intro failed
  exact absurd (liballoc_table failed).1 (by decide)

theorem allocTouches_subset
    {size id : Int} :
    ∀ index ∈ allocTouches mem proc id size, index = id := by
  unfold allocTouches
  intro index touched
  split at touched
  · cases touched
  · exact List.mem_singleton.mp touched
  · split at touched
    · cases touched
    · split at touched
      · cases touched
      · exact List.mem_singleton.mp touched

omit [DecidableEq ι] in
/-- The test and a return of -1 behind it check every id but 30. -/
theorem checked_iff
    {id : Nat}
    {returned : Option (Int × Mem ι)}
    (word : id < 2 ^ 32)
    (refused : 30 < id → returned = some (-1, mem)) :
    ((∀ index ∈ checkedTouches (toInt id), 0 ≤ index ∧ index < pagingMaxSymtblSz) ∧
        (30 ≤ id → returned = some (-1, mem))) ↔ id ≠ 30 := by
  rw [checkedTouches_iff word]
  constructor
  · exact fun checks => checks.1
  · exact fun allowed => ⟨allowed, fun outside => refused (by omega)⟩

/-- An instruction checks its id exactly if the id is allowed. -/
theorem idChecked_of_word
    {inst : Inst}
    (word : rgid inst < 2 ^ 32) :
    IdChecked mem proc inst ↔ IdAllowed inst := by
  cases inst with
  | alloc size regIndex =>
      constructor
      · rintro ⟨_, refused⟩
        by_contra outside
        exact liballoc_ne (refused (Nat.le_of_not_lt outside))
      · intro inTable
        have inTable : regIndex < 30 := inTable
        refine ⟨fun index touched => ?_, fun outside => ?_⟩
        · have touched : index ∈ allocTouches mem proc (toInt regIndex) (toInt size) := touched
          rw [allocTouches_subset index touched, toInt_of_mem (by omega) (by omega),
            pagingMaxSymtblSz]
          omega
        · have outside : 30 ≤ regIndex := outside
          omega
  | free regIndex =>
      have word : regIndex < 2 ^ 32 := word
      exact checked_iff word (free_outside word)
  | read source offset =>
      have word : source < 2 ^ 32 := word
      exact checked_iff word fun outside => by rw [returns, read_outside word outside]; rfl
  | write data destination offset =>
      have word : destination < 2 ^ 32 := word
      exact checked_iff word (write_outside word)

/-- Every operation checks its id exactly if the id is allowed, and so does each of the
calls of `libread` in `__sys_killall`. -/
theorem idChecked_iff_allowed
    (mem : Mem ι)
    (proc : ι) :
    (∀ inst, rgid inst < 2 ^ 32 → (IdChecked mem proc inst ↔ IdAllowed inst)) ∧
      ∀ memrg, memrg < 2 ^ 32 → ∀ offset before, NameReads mem proc memrg offset before →
        (IdChecked before proc (.read memrg offset) ↔ memrg ≠ 30) :=
  ⟨fun _ word => idChecked_of_word word, fun _ word _ _ _ => idChecked_of_word word⟩

/-- The id 31 is refused, and a name may be read from the region 29. -/
theorem idChecked_iff_allowed_twoFrames :
    (IdChecked twoFrames 0 (.read 31 5) ↔ IdAllowed (.read 31 5)) ∧
      (IdChecked twoFrames 0 (.read 29 0) ↔ 29 ≠ 30) :=
  ⟨(idChecked_iff_allowed twoFrames 0).1 (.read 31 5) (by decide),
    (idChecked_iff_allowed twoFrames 0).2 29 (by decide) 0 twoFrames .first⟩

/-- `READ` touches the entry behind the table, and `ALLOC` has no result there. -/
theorem id_unchecked :
    ¬ IdChecked twoFrames 0 (.read 30 0) ∧ ¬ IdChecked twoFrames 0 (.free 30) ∧
      ¬ IdChecked twoFrames 0 (.write 7 30 0) ∧ ¬ IdChecked twoFrames 0 (.alloc 300 30) ∧
        NameReads twoFrames 0 30 0 twoFrames := by
  refine ⟨?read, ?free, ?write, ?alloc, .first⟩
  case read => exact fun checks => absurd (checks.1 30 (by decide)) (by decide)
  case free => exact fun checks => absurd (checks.1 30 (by decide)) (by decide)
  case write => exact fun checks => absurd (checks.1 30 (by decide)) (by decide)
  case alloc => exact fun checks => absurd (checks.1 30 (by decide +kernel)) (by decide)

end SymbolTable

end Memory
end Ossim
