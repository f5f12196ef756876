import Ossim.Memory.Regions

/-!
# What a failed growth leaves behind

`inc_vma_limit` for the number of any area.  It returns -1 when the larger area
does not pass the test for overlaps, and then has changed nothing, or when
`vm_map_ram` fails.  In the second case the limits of the area are set already,
the frames gathered so far have left their free list and the pages evicted for
them are swapped out, and none of this is undone.
-/

namespace Ossim
namespace Memory

open CInt Transition

/-! ## Areas by their numbers -/

/-- The area of `init_mm` has the `vm_id` 1 and no successor. -/
def vmId : Int := 1

/-- `get_vma_by_num`: a number above that of the last area makes the loop read
the `vm_id` of `NULL`. -/
def getVmaByNum (mm : Mm) (vmaid : Int) : Option VmArea :=
  if vmId < vmaid then none else some mm.mmap

/-- `validate_overlap_vm_area`, which skips the area that has the number. -/
def validateOverlapVmAreaById (mm : Mm) (vmaid vmastart vmaend : Int) : Option Int :=
  if vmId ≠ vmaid then validateOverlapVmArea mm vmastart vmaend else some 0

variable {ι : Type} [DecidableEq ι]

/-- `inc_vma_limit` for any number. -/
def incVmaLimitById (mem : Mem ι) (caller : ι) (vmaid incSz : Int) :
    Option (Int × Mem ι) := do
  let incAmt ← pagingPageAlignsz incSz
  let incnumpage := incAmt.tdiv pagingPagesz
  let mm := mem.mm caller
  let curVma ← getVmaByNum mm vmaid
  let rgStart := curVma.sbrk
  let rgEnd := toULong (rgStart + incAmt)
  let oldEnd := toInt curVma.vmEnd
  let overlap ← validateOverlapVmAreaById mm vmaid (toInt rgStart) (toInt rgEnd)
  if overlap < 0 then
    some (-1, mem)
  else
    let mem := mem.setMm caller (mm.setLimits rgEnd rgEnd)
    let (mapped, mem) ← vmMapRam mem caller oldEnd incnumpage
    if mapped < 0 then some (-1, mem) else some (0, mem)

/-- Every caller asks for the area with the number 0. -/
theorem incVmaLimitById_zero (mem : Mem ι) (caller : ι) (incSz : Int) :
    incVmaLimitById mem caller 0 incSz = incVmaLimit mem caller incSz := by
  simp [incVmaLimitById, incVmaLimit, getVmaByNum, validateOverlapVmAreaById, vmId]

/-- The number of pages by which a growth that is not refused grows the area. -/
def growthById (mm : Mm) (vmaid incSz : Int) : Option Int := do
  let incAmt ← pagingPageAlignsz incSz
  let vma ← getVmaByNum mm vmaid
  let rgEnd := toULong (vma.sbrk + incAmt)
  let overlap ← validateOverlapVmAreaById mm vmaid (toInt vma.sbrk) (toInt rgEnd)
  if overlap < 0 then none else some (incAmt.tdiv pagingPagesz)

/-! ## The two ways to fail -/

/-- The number is of an area, and the area grown by the size fails the test for
overlaps. -/
def OverlapRefused (mm : Mm) (vmaid incSz : Int) : Prop :=
  ∃ incAmt ∈ pagingPageAlignsz incSz, ∃ vma ∈ getVmaByNum mm vmaid,
    ∃ overlap ∈ validateOverlapVmAreaById mm vmaid (toInt vma.sbrk)
      (toInt (toULong (vma.sbrk + incAmt))), overlap < 0

/-- The process and the free frames are as before. -/
structure NoTrace (caller : ι) (mem mem' : Mem ι) : Prop where
  sbrk : (mem'.mm caller).mmap.sbrk = (mem.mm caller).mmap.sbrk
  vmEnd : (mem'.mm caller).mmap.vmEnd = (mem.mm caller).mmap.vmEnd
  pgd : (mem'.mm caller).pgd = (mem.mm caller).pgd
  fifoPgn : (mem'.mm caller).fifoPgn = (mem.mm caller).fifoPgn
  ram : mem'.mram.freeFpList = mem.mram.freeFpList
  swap : ∀ device, (mem'.mswp device).freeFpList = (mem.mswp device).freeFpList

variable {mem mem' : Mem ι} {caller : ι}

/-- The number of pages covers the size. -/
theorem growthById_bounds
    {mm : Mm}
    {vmaid incSz pages : Int}
    (grows : growthById mm vmaid incSz = some pages) :
    pages = (incSz + 255).tdiv 256 ∧ -2 ^ 31 ≤ incSz + 256 ∧ incSz + 256 < 2 ^ 31 := by
  simp only [growthById, Option.bind_eq_bind, Option.bind_eq_some_iff] at grows
  obtain ⟨incAmt, aligned, _, _, overlap, _, final⟩ := grows
  obtain ⟨atLeast, below, rfl⟩ := pagingPageAlignsz_eq_some_iff.mp aligned
  split at final
  · cases final
  · simp only [pagingPagesz, Option.some.injEq] at final
    refine ⟨?_, atLeast, below⟩
    rw [← final]
    simp

/-- `__alloc` grows the area with the number 0. -/
theorem growth_eq_growthById
    {mm : Mm}
    {size : Int}
    (missed : getFreeVmrgArea mm size = some none) :
    growth mm size = growthById mm 0 size := by
  simp [growth, growthById, missed, getVmaByNum, validateOverlapVmAreaById, vmId]

/-- `inc_vma_limit` refuses the growth, or sets the limits and asks `vm_map_ram`
for the pages. -/
theorem incVmaLimitById_cases
    {vmaid incSz rc : Int}
    (grown : incVmaLimitById mem caller vmaid incSz = some (rc, mem')) :
    (OverlapRefused (mem.mm caller) vmaid incSz ∧
        growthById (mem.mm caller) vmaid incSz = none ∧ rc = -1 ∧ mem' = mem) ∨
      (¬OverlapRefused (mem.mm caller) vmaid incSz ∧
        ∃ pages mapped, growthById (mem.mm caller) vmaid incSz = some pages ∧
          vmMapRam
            (mem.setMm caller
              ((mem.mm caller).setLimits (grownEnd (mem.mm caller) pages)
                (grownEnd (mem.mm caller) pages)))
            caller (toInt (mem.mm caller).mmap.vmEnd) pages = some (mapped, mem') ∧
          rc = if mapped < 0 then -1 else 0) := by
  simp only [incVmaLimitById, Option.bind_eq_bind, Option.bind_eq_some_iff] at grown
  obtain ⟨incAmt, aligned, vma, found, overlap, validated, continued⟩ := grown
  have area : vma = (mem.mm caller).mmap := by
    unfold getVmaByNum at found
    split at found
    · cases found
    · exact (Option.some.inj found).symm
  split at continued
  · rename_i refused
    simp only [Option.some.injEq, Prod.mk.injEq] at continued
    refine .inl ⟨⟨incAmt, aligned, vma, found, overlap, validated, refused⟩, ?_,
      continued.1.symm, continued.2.symm⟩
    simp [growthById, aligned, found, validated, refused]
  · rename_i accepted
    refine .inr ⟨?_, incAmt.tdiv pagingPagesz, ?_⟩
    · rintro ⟨incAmt', aligned', vma', found', overlap', validated', refused⟩
      obtain rfl := Option.some.inj (aligned.symm.trans aligned')
      obtain rfl := Option.some.inj (found.symm.trans found')
      obtain rfl := Option.some.inj (validated.symm.trans validated')
      exact accepted refused
    · simp only [Option.bind_eq_some_iff] at continued
      obtain ⟨⟨mapped, middle⟩, ranged, final⟩ := continued
      refine ⟨mapped, ?_, ?_, ?_⟩
      · simp [growthById, aligned, found, validated, accepted]
      · have same : middle = mem' := by
          split at final <;> cases final <;> rfl
        obtain ⟨_, _, rfl⟩ := pagingPageAlignsz_eq_some_iff.mp aligned
        have amount : ((incSz + 255).tdiv 256 * 256).tdiv (pagingPagesz : Int) * 256 =
            (incSz + 255).tdiv 256 * 256 := by
          rw [pagingPagesz]
          simp
        subst same area
        simpa only [grownEnd, amount] using ranged
      · split at final
        all_goals
          rename_i code
          cases final
          simp [code]

/-- A growth by at least one byte moves the end of the area. -/
theorem grownEnd_ne_sbrk
    {mm : Mm}
    {vmaid incSz pages : Int}
    (positive : 1 ≤ incSz)
    (grows : growthById mm vmaid incSz = some pages) :
    grownEnd mm pages ≠ mm.mmap.sbrk := by
  obtain ⟨rfl, _, below⟩ := growthById_bounds grows
  have natural : (incSz + 255).tdiv 256 = (incSz + 255) / 256 :=
    Int.tdiv_eq_ediv_of_nonneg (by omega)
  rw [grownEnd, toULong, natural]
  omega

/-- When `inc_vma_limit` returns -1 for a size of at least one byte, it has left
no trace exactly when the test for overlaps has refused the growth. -/
theorem noTrace_iff_overlapRefused
    (mem mem' : Mem ι)
    (caller : ι)
    (vmaid incSz : Int)
    (positive : 1 ≤ incSz)
    (failed : incVmaLimitById mem caller vmaid incSz = some (-1, mem')) :
    NoTrace caller mem mem' ↔ OverlapRefused (mem.mm caller) vmaid incSz := by
  rcases incVmaLimitById_cases failed with
    ⟨refused, _, _, rfl⟩ | ⟨accepted, pages, mapped, grows, ranged, _⟩
  · exact iff_of_true ⟨rfl, rfl, rfl, rfl, rfl, fun _ => rfl⟩ refused
  · refine iff_of_false (fun noTrace => ?_) accepted
    have moved : (mem'.mm caller).mmap.sbrk = grownEnd (mem.mm caller) pages := by
      rw [(vmMapRam_regions ranged).mmap]
      simp [Mm.setLimits]
    exact grownEnd_ne_sbrk positive grows (moved.symm.trans noTrace.sbrk)

/-! ## A RAM of two frames -/

/-- One process, a RAM of two frames and swap devices of four frames. -/
def twoFrames : Mem (Fin 1) where
  mram := initMemphy 512 true
  mswp := fun _ => initMemphy 1024 true
  pcb := fun _ => Pcb.fresh

/-- Three pages are asked for after an `ALLOC` of one byte, which the free region
of `init_mm` serves.  Both frames are taken before the growth fails, and the
limits stay moved. -/
theorem failed_growth_leaves_trace :
    ∃ state after, replay step twoFrames [⟨0, .alloc 1 0⟩] = some state ∧
      incVmaLimitById state 0 1 600 = some (-1, after) ∧
      (after.mm 0).mmap.sbrk = (state.mm 0).mmap.sbrk + 768 ∧
      state.mram.freeFpList.nodes = [0, 1] ∧ after.mram.freeFpList.nodes = [] ∧
      ¬NoTrace 0 state after := by
  obtain ⟨state, reaches, grown⟩ := Option.bind_eq_some_iff.mp
    (show ((replay step twoFrames [⟨0, .alloc 1 0⟩]).bind fun state =>
      (incVmaLimitById state 0 1 600).map fun result => decide (result.1 = -1 ∧
        (result.2.mm 0).mmap.sbrk = (state.mm 0).mmap.sbrk + 768 ∧
        state.mram.freeFpList.nodes = [0, 1] ∧ result.2.mram.freeFpList.nodes = [])) =
          some true by decide +kernel)
  obtain ⟨⟨rc, after⟩, growth, evaluated⟩ := Option.map_eq_some_iff.mp grown
  obtain ⟨rfl, limit, before, taken⟩ := of_decide_eq_true evaluated
  refine ⟨state, after, reaches, growth, limit, before, taken, fun noTrace => ?_⟩
  have unmoved := limit.symm.trans noTrace.sbrk
  exact absurd unmoved (Nat.ne_of_gt (Nat.lt_add_of_pos_right (by decide)))

theorem noTrace_iff_overlapRefused_twoFrames :
    ∃ after, incVmaLimitById twoFrames 0 1 600 = some (-1, after) ∧
      (NoTrace 0 twoFrames after ↔ OverlapRefused (twoFrames.mm 0) 1 600) := by
  obtain ⟨⟨rc, after⟩, growth, evaluated⟩ := Option.map_eq_some_iff.mp
    (show (incVmaLimitById twoFrames 0 1 600).map (fun result => decide (result.1 = -1)) =
      some true by decide +kernel)
  obtain rfl : rc = -1 := of_decide_eq_true evaluated
  exact ⟨after, growth, noTrace_iff_overlapRefused twoFrames after 0 1 600 (by decide) growth⟩

end Memory
end Ossim
