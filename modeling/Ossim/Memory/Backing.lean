import Ossim.Memory.Supply

/-!
# When an allocated region is backed by pages

`__alloc` learns nothing of a failure to map pages: `sys_memmap` drops the
return code of `inc_vma_limit` and returns 0, so the region is registered and
`liballoc` returns 0 all the same.  A region from the free list is handed out
without a look at its pages, and the one that `init_mm` lists has none.
-/

namespace Ossim
namespace Memory

open CInt Transition

/-! ## Mapped pages are present -/

/-- Entries that are present stay so. -/
def KeepsPresent (mm mm' : Mm) : Prop :=
  ∀ pgn, pagingPagePresent (mm.pgd pgn) = true → pagingPagePresent (mm'.pgd pgn) = true

theorem KeepsPresent.mapPage (mm : Mm) (pgn : Pgn) (fpn : Nat) :
    KeepsPresent mm (mm.mapPage pgn fpn) := by
  intro other present
  by_cases same : other = pgn
  · subst same
    simp [Mm.mapPage]
  · simpa [Mm.mapPage, same] using present

variable {ι : Type} [DecidableEq ι] {mem mem' : Mem ι} {caller : ι}

/-- A successful `vm_map_ram` makes its pages present. -/
theorem vmMapRam_present
    {mapstart incpgnum : Int}
    (mapped : vmMapRam mem caller mapstart incpgnum = some (0, mem')) :
    ∀ page, page < incpgnum.toNat →
      pagingPagePresent ((mem'.mm caller).pgd (pagingPgn (mapstart + page * 256))) = true := by
  have outcome := vmMapRam_each (fun _ _ _ => True)
    (fun mappedPages _ state => ∀ page : Nat, page < mappedPages →
      pagingPagePresent ((state.mm caller).pgd (pagingPgn (mapstart + page * 256))) = true)
    ?grab ?switch ?map trivial mapped
  case grab => exact fun _ _ _ _ _ _ _ => trivial
  case switch => exact fun _ _ _ _ page below => absurd below (Nat.not_lt_zero page)
  case map =>
    intro pgit fpn frames state before page below
    rw [Mem.mm_setMm_self]
    rcases Nat.lt_succ_iff_lt_or_eq.mp below with earlier | rfl
    · exact KeepsPresent.mapPage (state.mm caller) _ fpn _ (before page earlier)
    · simp [Mm.mapPage]
  rcases outcome with ⟨_, ended⟩ | ⟨failed, _⟩
  · exact ended
  · exact absurd failed (by decide)

/-- `vm_map_ram` for no page does nothing. -/
theorem vmMapRam_nothing
    {mapstart incpgnum rc : Int}
    (nothing : incpgnum.toNat = 0)
    (mapped : vmMapRam mem caller mapstart incpgnum = some (rc, mem')) :
    mem' = mem := by
  simp only [vmMapRam, vmapPageRange, nothing, allocPagesRange, vmapPages, Option.bind_eq_bind,
    Option.bind_some, lt_self_iff_false, if_false, Mem.setMm_mm, Option.some.injEq,
    Prod.mk.injEq] at mapped
  exact mapped.2.symm

/-! ## The limits of an area -/

/-- The area ends at its break, at the start of a page. -/
structure AreaAligned (mm : Mm) : Prop where
  sbrk : mm.mmap.sbrk = mm.mmap.vmEnd
  aligned : 256 ∣ mm.mmap.vmEnd

theorem AreaAligned.congr
    {mm mm' : Mm}
    (area : AreaAligned mm)
    (sbrk : mm'.mmap.sbrk = mm.mmap.sbrk)
    (vmEnd : mm'.mmap.vmEnd = mm.mmap.vmEnd) :
    AreaAligned mm' where
  sbrk := by rw [sbrk, vmEnd, area.sbrk]
  aligned := vmEnd ▸ area.aligned

/-- A growth by whole pages keeps the area aligned, even when it wraps around. -/
theorem AreaAligned.setLimits
    {mm : Mm}
    (area : AreaAligned mm)
    (pages : Int) :
    AreaAligned (mm.setLimits (grownEnd mm pages) (grownEnd mm pages)) where
  sbrk := rfl
  aligned := by
    have atPage := area.aligned
    rw [← area.sbrk] at atPage
    simp only [Mm.setLimits, grownEnd, toULong]
    omega

theorem AreaAligned.vmMapRam
    {pages mapstart rc : Int}
    (area : AreaAligned (mem.mm caller))
    (mapped : Memory.vmMapRam
      (mem.setMm caller ((mem.mm caller).setLimits (grownEnd (mem.mm caller) pages)
        (grownEnd (mem.mm caller) pages)))
      caller mapstart pages = some (rc, mem')) :
    AreaAligned (mem'.mm caller) := by
  have same := (vmMapRam_regions mapped).mmap
  rw [Mem.mm_setMm_self] at same
  apply (area.setLimits pages).congr
  · rw [same]
  · rw [same]

/-- A call of a process leaves the address spaces of the others alone. -/
theorem runCall_others
    {call : Call}
    (ran : runCall mem caller call = some mem')
    {other : ι}
    (different : other ≠ caller) :
    mem'.mm other = mem.mm other := by
  cases call with
  | inst inst => exact run_others ran different
  | memmap a1 a2 a3 =>
      rcases sysMemmapRegs_cases ran with same | ⟨_, rc, grown⟩
      · exact same.mm other
      · rcases incVmaLimitById_cases grown with ⟨_, _, _, rfl⟩ | ⟨_, pages, mapped, _, ranged, _⟩
        · rfl
        · rw [(vmMapRam_regions ranged).others other different,
            Mem.mm_setMm_of_ne _ _ different]

/-- An instruction of a process keeps its area aligned. -/
theorem areaAligned_run
    {inst : Inst}
    (area : AreaAligned (mem.mm caller))
    (ran : run mem caller inst = some mem') :
    AreaAligned (mem'.mm caller) := by
  cases inst with
  | alloc size regIndex =>
      obtain ⟨middle, mm, rfl, same, outcome⟩ := run_alloc_pages ran
      rw [Mem.mm_setMm_self]
      refine AreaAligned.congr ?_ same.sbrk same.vmEnd
      rcases outcome with rfl | ⟨pages, _, rc, mapped⟩
      · exact area
      · exact area.vmMapRam mapped
  | free regIndex =>
      obtain ⟨mm, rfl, same⟩ := run_free_pages ran
      rw [Mem.mm_setMm_self]
      exact area.congr same.sbrk same.vmEnd
  | read source offset =>
      have same := (run_read_regions ran).mmap
      exact area.congr (by rw [same]) (by rw [same])
  | write data destination offset =>
      have same := (run_write_regions ran).mmap
      exact area.congr (by rw [same]) (by rw [same])

/-- A call of a process keeps its area aligned. -/
theorem areaAligned_runCall
    {call : Call}
    (area : AreaAligned (mem.mm caller))
    (ran : runCall mem caller call = some mem') :
    AreaAligned (mem'.mm caller) := by
  cases call with
  | inst inst => exact areaAligned_run area ran
  | memmap a1 a2 a3 =>
      rcases sysMemmapRegs_cases ran with same | ⟨_, rc, grown⟩
      · rwa [same.mm caller]
      · rcases incVmaLimitById_cases grown with ⟨_, _, _, rfl⟩ | ⟨_, pages, mapped, _, ranged, _⟩
        · exact area
        · exact area.vmMapRam ranged

/-- Every area stays aligned in every run of programs. -/
theorem areaAligned_of_run
    {first last : Mem ι}
    (start : ∀ proc, ∃ mm, first.mm proc = initMm mm)
    (run : Run callStep anyEvent first last)
    (proc : ι) :
    AreaAligned (last.mm proc) := by
  refine run.invariant (fun mem => ∀ proc, AreaAligned (mem.mm proc)) ?_ ?_ proc
  · intro mem event mem' areas _ taken proc
    by_cases isProc : proc = event.proc
    · subst isProc
      exact areaAligned_runCall (areas event.proc) taken
    · rw [runCall_others taken isProc]
      exact areas proc
  · intro proc
    obtain ⟨mm, initial⟩ := start proc
    rw [initial]
    exact ⟨rfl, ⟨0, rfl⟩⟩

/-! ## Backed regions -/

/-- Every page of the bytes from an address on is online or swapped. -/
def Backed (mm : Mm) (addr : Int) (size : Nat) : Prop :=
  ∀ byte, byte < size →
    (onlineFrame (mm.pgd (pagingPgn (addr + byte)))).isSome ∨
      (swapSlot (mm.pgd (pagingPgn (addr + byte)))).isSome

/-- No free region fits, and `inc_vma_limit` returns -1. -/
def Unmappable (mem : Mem ι) (caller : ι) (size : Int) : Prop :=
  getFreeVmrgArea (mem.mm caller) size = some none ∧
    (incVmaLimit mem caller size).map (·.1) = some (-1)

/-- Success means that the region is backed, and failure to map its pages is
reported with the symbol table as it was. -/
structure AllocBacked (mem : Mem ι) (caller : ι) (size regIndex : Nat)
    (rc : Int) (mem' : Mem ι) (addr : Option Int) : Prop where
  backed : rc = 0 → ∀ start ∈ addr, Backed (mem'.mm caller) start size
  reported : Unmappable mem caller (toInt size) →
    rc < 0 ∧ ∀ index ∈ symrgIndex (toInt regIndex),
      (mem'.mm caller).symrgtbl index = (mem.mm caller).symrgtbl index

/-- The condition on the state before an `ALLOC`.  The first free region that
fits, if there is one, has its pages already.  Otherwise the growth passes the
test for overlaps and does not exceed the supply; a size that is negative as an
`int` grows nothing, and the pages have to be there. -/
def WillBeBacked (mem : Mem ι) (caller : ι) (size : Nat) : Prop :=
  (firstFit (toInt size) (mem.mm caller).mmap.vmFreergList.nodes).elim
    (∃ pages ∈ growthById (mem.mm caller) 0 (toInt size),
      pages ≤ available mem caller ∧
        (toInt size < 0 → Backed (mem.mm caller) (toInt (mem.mm caller).mmap.sbrk) size))
    fun hit => Backed (mem.mm caller) (toInt hit.1.rgStart) size

/-- Only the entries of the pages matter. -/
theorem backed_congr
    {mm mm' : Mm}
    (samePgd : mm'.pgd = mm.pgd)
    (addr : Int)
    (size : Nat) :
    Backed mm' addr size ↔ Backed mm addr size := by
  unfold Backed
  rw [samePgd]

/-- The pages that a growth maps back every byte that was asked for. -/
theorem backed_of_pages
    {mm : Mm}
    {start : Int}
    {size pages : Nat}
    (aligned : 256 ∣ start)
    (covers : size ≤ pages * 256)
    (present : ∀ page, page < pages →
      pagingPagePresent (mm.pgd (pagingPgn (start + page * 256))) = true) :
    Backed mm start size := by
  intro byte below
  rw [← present_iff_online_or_swapped, pagingPgn_add aligned]
  exact present (byte / 256) (by omega)

/-- What `inc_vma_limit` returns to the system call. -/
theorem incVmaLimit_eq_zero_iff
    {size rc : Int}
    (grown : incVmaLimit mem caller size = some (rc, mem')) :
    (rc = 0 ∨ rc = -1) ∧
      (rc = 0 ↔ ∃ pages ∈ growthById (mem.mm caller) 0 size,
        pages ≤ available mem caller) := by
  rw [← incVmaLimitById_zero] at grown
  rcases incVmaLimitById_cases grown with
    ⟨_, refused, rfl, _⟩ | ⟨_, pages, mapped, grows, ranged, rfl⟩
  · simp [refused]
  · have sameSupply (mm : Mm) (fifoPgn : mm.fifoPgn = (mem.mm caller).fifoPgn) :
        available (mem.setMm caller mm) caller = available mem caller := by
      simp [available, freeSlots, fifoPgn]
    have outcome := vmMapRam_eq_zero_iff ranged
    rw [sameSupply _ (by simp)] at outcome
    by_cases enough : pages ≤ available mem caller
    · rw [if_pos enough] at outcome
      simp [outcome, grows, enough]
    · rw [if_neg enough] at outcome
      simp [outcome, grows, enough]

/-- A growth for at least one byte that succeeds backs the new bytes. -/
theorem backed_of_growth
    {size : Int}
    (area : AreaAligned (mem.mm caller))
    (grown : incVmaLimit mem caller size = some (0, mem')) :
    Backed (mem'.mm caller) (toInt (mem.mm caller).mmap.sbrk) size.toNat := by
  rw [← incVmaLimitById_zero] at grown
  rcases incVmaLimitById_cases grown with
    ⟨_, _, failed, _⟩ | ⟨_, pages, mapped, grows, ranged, code⟩
  · exact absurd failed (by decide)
  · obtain ⟨rfl, _, below⟩ := growthById_bounds grows
    have outcome := vmMapRam_eq_zero_iff ranged
    have succeeded : mapped = 0 := by
      split at outcome
      · exact outcome
      · rw [outcome] at code
        exact absurd code (by decide)
    subst succeeded
    have atPage := area.aligned
    rw [area.sbrk]
    refine backed_of_pages ?_ ?_ (vmMapRam_present ranged)
    · have wrapped := Int.bmod_emod (x := ((mem.mm caller).mmap.vmEnd : Int)) (m := 2 ^ 32)
      unfold toInt
      omega
    · rcases Int.le_total 0 size with nonneg | negative
      · have natural : (size + 255).tdiv 256 = (size + 255) / 256 :=
          Int.tdiv_eq_ediv_of_nonneg (by omega)
        omega
      · omega

/-- A growth by nothing leaves every page as it was. -/
theorem pgd_of_incVmaLimit
    {size : Int}
    (negative : size < 0)
    (grown : incVmaLimit mem caller size = some (0, mem')) :
    (mem'.mm caller).pgd = (mem.mm caller).pgd := by
  rw [← incVmaLimitById_zero] at grown
  rcases incVmaLimitById_cases grown with ⟨_, _, failed, _⟩ | ⟨_, pages, mapped, grows, ranged, _⟩
  · exact absurd failed (by decide)
  · obtain ⟨rfl, _, _⟩ := growthById_bounds grows
    have nothing : ((size + 255).tdiv 256).toNat = 0 := by
      rcases Int.le_total 0 (size + 255) with nonneg | below
      · rw [Int.tdiv_eq_ediv_of_nonneg nonneg]
        omega
      · have negated := Int.neg_tdiv (a := -(size + 255)) (b := 256)
        have natural : (-(size + 255)).tdiv 256 = -(size + 255) / 256 :=
          Int.tdiv_eq_ediv_of_nonneg (by omega)
        rw [Int.neg_neg] at negated
        omega
    rw [vmMapRam_nothing nothing ranged]
    simp

/-- An `ALLOC` that a free region serves. -/
theorem allocBacked_hit_iff
    {size regIndex : Nat}
    {rc : Int}
    {addr : Option Int}
    {newrg : Region}
    {mm : Mm}
    (hit : getFreeVmrgArea (mem.mm caller) (toInt size) = some (some (newrg, mm)))
    (allocated : alloc mem caller (toInt regIndex) (toInt size) = some (rc, mem', addr)) :
    AllocBacked mem caller size regIndex rc mem' addr ↔ WillBeBacked mem caller size := by
  obtain ⟨onlyList, fits⟩ := getFreeVmrgArea_cases hit
  obtain ⟨rfl, index, _, ⟨_, _, again, rfl, rfl⟩ | ⟨_, _, _, missed, _⟩⟩ := alloc_cases allocated
  · simp only [hit, Option.some.injEq, Prod.mk.injEq] at again
    obtain ⟨rfl, rfl⟩ := again
    have samePgd : mm.pgd = (mem.mm caller).pgd := by rw [onlyList]
    rw [WillBeBacked, fits, Option.elim_some]
    constructor
    · intro allocBacked
      have backed := allocBacked.backed rfl _ rfl
      rw [Mem.mm_setMm_self] at backed
      exact (backed_congr samePgd _ _).mp backed
    · intro backed
      constructor
      · intro _ start found
        rw [← Option.mem_some_iff.mp found, Mem.mm_setMm_self]
        exact (backed_congr samePgd _ _).mpr backed
      · rintro ⟨missed, _⟩
        simp [hit] at missed
  · simp [hit] at missed

/-- An `ALLOC` for which the area has to grow. -/
theorem allocBacked_missed_iff
    {size regIndex : Nat}
    {rc : Int}
    {addr : Option Int}
    (area : AreaAligned (mem.mm caller))
    (word : size < 2 ^ 32)
    (missed : getFreeVmrgArea (mem.mm caller) (toInt size) = some none)
    (allocated : alloc mem caller (toInt regIndex) (toInt size) = some (rc, mem', addr)) :
    AllocBacked mem caller size regIndex rc mem' addr ↔ WillBeBacked mem caller size := by
  obtain ⟨rfl, index, _, code, newEnd, middle, mm, grown, _, rfl, rest, rfl⟩ :=
    alloc_missed missed allocated
  obtain ⟨twoCodes, succeeds⟩ := incVmaLimit_eq_zero_iff grown
  have noFit : firstFit (toInt size) (mem.mm caller).mmap.vmFreergList.nodes = none := by
    unfold getFreeVmrgArea at missed
    split at missed
    · simp at missed
    · assumption
  have samePgd : mm.pgd = (middle.mm caller).pgd := rest.samePages.pgd
  rw [WillBeBacked, noFit, Option.elim_none]
  rcases twoCodes with rfl | rfl
  · obtain ⟨pages, grows, enough⟩ := succeeds.mp rfl
    have backedAfter : Backed mm (toInt (mem.mm caller).mmap.sbrk) size ↔
        (toInt size < 0 → Backed (mem.mm caller) (toInt (mem.mm caller).mmap.sbrk) size) := by
      rw [backed_congr samePgd]
      by_cases negative : toInt size < 0
      · simp [negative, backed_congr (pgd_of_incVmaLimit negative grown)]
      · have small : ((toInt size).toNat : Nat) = size := by
          by_cases wrapped : size < 2 ^ 31
          · rw [toInt_of_mem (by omega) (by omega)]
            rfl
          · have unsigned : toInt (size : Int) = size - 2 ^ 32 :=
              toInt_of_wrapped (by omega) (by omega)
            omega
        have backed := backed_of_growth area grown
        rw [small] at backed
        exact iff_of_true backed fun wrapped => absurd wrapped negative
    constructor
    · intro allocBacked
      have backed := allocBacked.backed rfl _ rfl
      rw [Mem.mm_setMm_self] at backed
      exact ⟨pages, grows, enough, backedAfter.mp backed⟩
    · rintro ⟨_, _, _, backed⟩
      constructor
      · intro _ start found
        rw [← Option.mem_some_iff.mp found, Mem.mm_setMm_self]
        exact backedAfter.mpr backed
      · rintro ⟨_, failed⟩
        simp [grown] at failed
  · refine iff_of_false (fun allocBacked => ?_) ?_
    · have negative := (allocBacked.reported ⟨missed, by simp [grown]⟩).1
      exact absurd negative (by decide)
    · rintro ⟨pages, grows, enough, _⟩
      exact absurd (succeeds.mpr ⟨pages, grows, enough⟩) (by decide)

/-- In every reachable state, an `ALLOC` that returns hands out a backed region,
and reports the failure to map its pages, exactly under the condition. -/
theorem allocBacked_iff_willBeBacked
    {first mem mem' : Mem ι}
    {caller : ι}
    {size regIndex : Nat}
    {rc : Int}
    {addr : Option Int}
    (start : ∀ proc, ∃ mm, first.mm proc = initMm mm)
    (reached : Run callStep anyEvent first mem)
    (word : size < 2 ^ 32)
    (allocated : alloc mem caller (toInt regIndex) (toInt size) = some (rc, mem', addr)) :
    liballoc mem caller size regIndex = some (rc, mem') ∧
      (AllocBacked mem caller size regIndex rc mem' addr ↔ WillBeBacked mem caller size) := by
  refine ⟨by simp [liballoc, allocated], ?_⟩
  cases searched : getFreeVmrgArea (mem.mm caller) (toInt size) with
  | none => simp [alloc, searched] at allocated
  | some found =>
      cases found with
      | some hit => exact allocBacked_hit_iff searched allocated
      | none =>
          exact allocBacked_missed_iff (areaAligned_of_run start reached caller) word searched
            allocated

theorem allocBacked_iff_willBeBacked_twoFrames :
    ∃ after addr, alloc twoFrames 0 (toInt 0) (toInt (300 : Nat)) = some (0, after, addr) ∧
      (AllocBacked twoFrames 0 300 0 0 after addr ↔ WillBeBacked twoFrames 0 300) := by
  obtain ⟨⟨rc, after, addr⟩, allocated, code⟩ := Option.map_eq_some_iff.mp
    (show (alloc twoFrames 0 (toInt (0 : Nat)) (toInt (300 : Nat))).map (·.1) = some 0
      by decide +kernel)
  dsimp only at code
  subst code
  exact ⟨after, addr, allocated, (allocBacked_iff_willBeBacked (fun _ => ⟨_, rfl⟩)
    (Run.refl twoFrames) (by decide) allocated).2⟩

/-- The first `ALLOC` of one byte gets the region that `init_mm` lists, without a
page, and an `ALLOC` of three pages is answered with 0 when the RAM has two
frames. -/
theorem allocated_without_pages :
    (∃ after, alloc twoFrames 0 (toInt (0 : Nat)) (toInt (1 : Nat)) = some (0, after, some 0) ∧
      ¬AllocBacked twoFrames 0 1 0 0 after (some 0)) ∧
    ∃ after, alloc twoFrames 0 (toInt (0 : Nat)) (toInt (600 : Nat)) = some (0, after, some 0) ∧
      Unmappable twoFrames 0 (toInt (600 : Nat)) ∧
      ¬AllocBacked twoFrames 0 600 0 0 after (some 0) := by
  constructor
  · obtain ⟨⟨rc, after, addr⟩, allocated, evaluated⟩ := Option.map_eq_some_iff.mp
      (show (alloc twoFrames 0 (toInt (0 : Nat)) (toInt (1 : Nat))).map (fun result =>
        decide (result.1 = 0 ∧ result.2.2 = some 0 ∧
          pagingPagePresent ((result.2.1.mm 0).pgd (pagingPgn (0 + (0 : Nat)))) = false)) =
            some true by decide +kernel)
    obtain ⟨rfl, rfl, absent⟩ := of_decide_eq_true evaluated
    refine ⟨after, allocated, fun allocBacked => ?_⟩
    have present := allocBacked.backed rfl 0 rfl 0 (by decide)
    rw [← present_iff_online_or_swapped, absent] at present
    exact absurd present (by decide)
  · obtain ⟨⟨rc, after, addr⟩, allocated, evaluated⟩ := Option.map_eq_some_iff.mp
      (show (alloc twoFrames 0 (toInt (0 : Nat)) (toInt (600 : Nat))).map (fun result =>
        decide (result.1 = 0 ∧ result.2.2 = some 0)) = some true by decide +kernel)
    obtain ⟨rfl, rfl⟩ := of_decide_eq_true evaluated
    have unmappable : Unmappable twoFrames 0 (toInt (600 : Nat)) := by
      have noFit : firstFit (toInt (600 : Nat)) (twoFrames.mm 0).mmap.vmFreergList.nodes = none :=
        by decide +kernel
      have terminated : (twoFrames.mm 0).mmap.vmFreergList.wild = false := by decide +kernel
      refine ⟨?_, by decide +kernel⟩
      rw [getFreeVmrgArea, noFit]
      dsimp only
      rw [terminated]
      simp
    exact ⟨after, allocated, unmappable, fun allocBacked =>
      absurd (allocBacked.reported unmappable).1 (by decide)⟩

end Memory
end Ossim
