import Ossim.Memory.Refinement
import Ossim.Memory.Layout

/-!
# Instructions without undefined behaviour

The memory library follows list pointers that may never have been assigned, and adds
signed numbers.  An `ALLOC` or a `FREE` runs into neither if the allocator without
pages does not, and the RAM has a free frame for every new page.  An access below the
limit needs nothing but its page in the RAM.
-/

namespace Ossim
namespace Memory

open CInt

variable {ι : Type} [DecidableEq ι] {mem : Mem ι} {mm mm' : Mm} {proc : ι}

/-! ## Mapping new pages -/

/-- Free frames are gathered one after the other, without an eviction. -/
theorem allocPagesRange_of_spare
    {count : Nat}
    (proc : ι)
    (frmLst : Chain Nat)
    (spare : count ≤ mem.mram.freeFpList.nodes.length) :
    ∃ mem' frames, allocPagesRange proc count mem frmLst = some (0, mem', frames) ∧
      (0 < count → mem.mram.usedFpList.nodes.length + count ≤ frames.nodes.length) := by
  induction count generalizing mem frmLst with
  | zero => exact ⟨mem, frmLst, rfl, fun none => absurd none (Nat.lt_irrefl 0)⟩
  | succ left inductionHypothesis =>
      obtain ⟨fpn, rest, nodes⟩ := List.exists_cons_of_length_pos
        (Nat.lt_of_lt_of_le (Nat.succ_pos left) spare)
      -- The frame goes in front of the list of the used ones.
      have taken : ∃ after : Mem ι, allocPage mem proc frmLst =
            some (0, after, after.mram.usedFpList) ∧
          after.mram.usedFpList.nodes.length = mem.mram.usedFpList.nodes.length + 1 ∧
          left ≤ after.mram.freeFpList.nodes.length := by
        rw [nodes, List.length_cons] at spare
        refine ⟨_, by simp only [allocPage, memphyGetFreefp_of_nodes nodes,
          Option.bind_eq_bind, Option.bind_some]; rfl, ?_, ?_⟩
        · rw [Mem.mram_setMram, Chain.nodes_cons, List.length_cons]
        · exact Nat.le_of_succ_le_succ spare
      obtain ⟨after, grabbed, used, enough⟩ := taken
      obtain ⟨mem', frames, gathered, length⟩ :=
        inductionHypothesis after.mram.usedFpList enough
      refine ⟨mem', frames, ?_, fun _ => ?_⟩
      · simp only [allocPagesRange, grabbed, gathered, Option.bind_eq_bind, Option.bind_some,
          Int.lt_irrefl, if_false]
      · cases left with
        | zero =>
            cases gathered
            omega
        | succ left =>
            have more := length (Nat.succ_pos left)
            omega

/-- There is a frame for every page. -/
theorem vmapPages_of_frames
    {addr : Int}
    {left : Nat}
    (pgit : Nat)
    (frames : Chain Nat)
    (mm : Mm)
    (enough : left ≤ frames.nodes.length)
    (start : 0 ≤ addr)
    (inRange : addr + (pgit + left) * 256 ≤ 2 ^ 31) :
    ∃ mm', vmapPages addr left pgit frames mm = some mm' := by
  induction left generalizing pgit frames mm with
  | zero => exact ⟨mm, rfl⟩
  | succ left inductionHypothesis =>
      obtain ⟨fpn, rest, nodes⟩ := List.exists_cons_of_length_pos
        (Nat.lt_of_lt_of_le (Nat.succ_pos left) enough)
      push_cast at inRange
      have pageAddr : checked (addr + pgit * pagingPagesz) = some (addr + pgit * pagingPagesz) :=
        checked_eq_some_iff.mpr ⟨rfl, by rw [pagingPagesz]; omega, by rw [pagingPagesz]; omega⟩
      obtain ⟨mm', mapped⟩ := inductionHypothesis (pgit + 1) { frames with nodes := rest }
        (mm.mapPage (pagingPgn (addr + pgit * pagingPagesz)) fpn)
        (by rw [nodes, List.length_cons] at enough; exact Nat.le_of_succ_le_succ enough)
        (by push_cast; omega)
      refine ⟨mm', ?_⟩
      simp only [vmapPages, pageAddr, nodes, Option.bind_eq_bind, Option.bind_some]
      exact mapped

theorem vmMapRam_of_spare
    (mem : Mem ι)
    (proc : ι)
    {mapstart incpgnum : Int}
    (spare : incpgnum.toNat ≤ mem.mram.freeFpList.nodes.length)
    (start : 0 ≤ mapstart)
    (inRange : mapstart + incpgnum.toNat * 256 ≤ 2 ^ 31) :
    ∃ mem', vmMapRam mem proc mapstart incpgnum = some (0, mem') := by
  obtain ⟨middle, frames, gathered, length⟩ :=
    allocPagesRange_of_spare proc Chain.null spare
  have enough : incpgnum.toNat ≤ frames.nodes.length := by
    rcases Nat.eq_zero_or_pos incpgnum.toNat with none | positive
    · omega
    · have more := length positive
      omega
  obtain ⟨mm, mapped⟩ := vmapPages_of_frames 0 frames (middle.mm proc) enough start
    (by push_cast; omega)
  refine ⟨middle.setMm proc mm, ?_⟩
  simp only [vmMapRam, gathered, vmapPageRange, mapped, Option.bind_eq_bind, Option.bind_some,
    Int.lt_irrefl, if_false]

/-! ## Growing the area -/

/-- The test for an overlap subtracts one. -/
theorem validateOverlapVmArea_of_inRange
    (mm : Mm)
    (vmastart : Int)
    {vmaend : Int}
    (atLeast : -2 ^ 31 ≤ vmaend - 1)
    (below : vmaend - 1 < 2 ^ 31) :
    ∃ overlap, validateOverlapVmArea mm vmastart vmaend = some overlap := by
  have last : checked (vmaend - 1) = some (vmaend - 1) :=
    checked_eq_some_iff.mpr ⟨rfl, atLeast, below⟩
  simp only [validateOverlapVmArea, last, Option.bind_eq_bind, Option.bind_some]
  split
  · split
    · exact ⟨_, rfl⟩
    · split <;> exact ⟨_, rfl⟩
  · exact ⟨_, rfl⟩

/-- A growth for which there are frames. -/
theorem incVmaLimit_of_spare
    {size : Nat}
    (paged : Paged (mem.mm proc))
    (atMost : size ≤ 2 ^ 22)
    (missed : getFreeVmrgArea (mem.mm proc) size = some none)
    (spare : ∀ pages ∈ growth (mem.mm proc) size,
      pages ≤ mem.mram.freeFpList.nodes.length) :
    ∃ rc mem', incVmaLimit mem proc size = some (rc, mem') := by
  obtain ⟨_, _, inSpace, sbrk⟩ := paged
  obtain ⟨incAmt, aligned⟩ : ∃ incAmt, pagingPageAlignsz size = some incAmt :=
    ⟨_, pagingPageAlignsz_eq_some_iff.mpr ⟨by omega, by omega, rfl⟩⟩
  have amount : 0 ≤ incAmt ∧ incAmt ≤ 2 ^ 23 := by
    obtain ⟨_, _, rfl⟩ := pagingPageAlignsz_eq_some_iff.mp aligned
    rw [Int.tdiv_eq_ediv_of_nonneg (by omega)]
    omega
  have newEnd : toInt (toULong ((mem.mm proc).mmap.sbrk + incAmt)) =
      (mem.mm proc).mmap.sbrk + incAmt := by
    rw [toULong_of_mem (by omega) (by omega), toInt_of_mem (by omega) (by omega)]
  have inRange : -2 ^ 31 ≤ toInt (toULong ((mem.mm proc).mmap.sbrk + incAmt)) - 1 ∧
      toInt (toULong ((mem.mm proc).mmap.sbrk + incAmt)) - 1 < 2 ^ 31 := by
    rw [newEnd]
    omega
  obtain ⟨overlap, validated⟩ := validateOverlapVmArea_of_inRange (mem.mm proc)
    (toInt (mem.mm proc).mmap.sbrk) inRange.1 inRange.2
  simp only [incVmaLimit, aligned, validated, Option.bind_eq_bind, Option.bind_some]
  split
  · exact ⟨_, _, rfl⟩
  · rename_i accepted
    have growing : growth (mem.mm proc) size = some (incAmt.tdiv pagingPagesz) := by
      simp [growth, missed, aligned, validated, accepted]
    have enough := spare _ growing
    have pages : 0 ≤ incAmt.tdiv pagingPagesz ∧ incAmt.tdiv pagingPagesz ≤ 2 ^ 15 := by
      rw [pagingPagesz, Int.tdiv_eq_ediv_of_nonneg amount.1]
      omega
    have oldEnd : toInt (mem.mm proc).mmap.vmEnd = (mem.mm proc).mmap.vmEnd :=
      toInt_of_mem (by omega) (by omega)
    have room : toInt (mem.mm proc).mmap.vmEnd + (incAmt.tdiv pagingPagesz).toNat * 256 ≤
        2 ^ 31 := by
      rw [oldEnd]
      omega
    obtain ⟨mem', mapped⟩ := vmMapRam_of_spare
      (mem.setMm proc ((mem.mm proc).setLimits
        (toULong ((mem.mm proc).mmap.sbrk + incAmt))
        (toULong ((mem.mm proc).mmap.sbrk + incAmt))))
      proc (Int.toNat_le.mpr enough) (by rw [oldEnd]; omega) room
    rw [mapped]
    exact ⟨_, _, rfl⟩

/-! ## The instructions -/

/-- `__alloc`, if the allocator without pages serves the request. -/
theorem alloc_of_allocate
    {rgid : Int}
    {size : Nat}
    {addr : Int}
    (paged : Paged (mem.mm proc))
    (atMost : size ≤ 2 ^ 22)
    (spare : ∀ pages ∈ growth (mem.mm proc) size,
      pages ≤ mem.mram.freeFpList.nodes.length)
    (allocated : Layout.allocate (mem.mm proc).layout rgid size = some (mm', addr)) :
    ∃ result, alloc mem proc rgid size = some result := by
  simp only [Layout.allocate, Layout.getFreeVmrgArea_layout, Option.bind_eq_bind,
    Option.bind_eq_some_iff] at allocated
  obtain ⟨found, looked, continued⟩ := allocated
  obtain ⟨found, searched, rfl⟩ := Option.map_eq_some_iff.mp looked
  cases found with
  | some taken =>
      obtain ⟨newrg, mm⟩ := taken
      simp only [Option.map_some, Prod.map, Option.bind_eq_some_iff] at continued
      obtain ⟨_, registered, _⟩ := continued
      obtain ⟨index, slot, _⟩ := setSymrg_eq_some_iff.mp registered
      have onPages := setSymrg_eq_some_iff.mpr
        (⟨index, slot, rfl⟩ : ∃ index' : Fin 30, rgid = index'.val ∧
          { mm with symrgtbl := Function.update mm.symrgtbl index newrg } =
            { mm with symrgtbl := Function.update mm.symrgtbl index' newrg })
      simp only [alloc, searched, onPages, Option.bind_eq_bind, Option.bind_some]
      exact ⟨_, rfl⟩
  | none =>
      simp only [Option.map_none, Option.bind_eq_some_iff] at continued
      obtain ⟨newEnd, inRange, mm, registered, final⟩ := continued
      obtain ⟨index, slot, rfl⟩ := setSymrg_eq_some_iff.mp registered
      obtain ⟨rc, middle, grown⟩ := incVmaLimit_of_spare paged atMost searched spare
      have limits : Layout.grow (mem.mm proc).layout size = (middle.mm proc).layout := by
        rw [Layout.grow_layout]
        exact (Layout.layout_of_growth (incVmaLimit_cases searched grown)).symm
      let registered : Mm := { middle.mm proc with
        symrgtbl := Function.update (middle.mm proc).symrgtbl index
          ⟨toULong (toInt (mem.mm proc).mmap.sbrk), toULong newEnd⟩ }
      have onPages : setSymrg (middle.mm proc) rgid
          ⟨toULong (toInt (mem.mm proc).mmap.sbrk), toULong newEnd⟩ = some registered :=
        setSymrg_eq_some_iff.mpr ⟨index, slot, rfl⟩
      rw [Layout.layout_mmap] at inRange
      simp only [alloc, searched, sysMemmap, grown, inRange, onPages, Option.bind_eq_bind,
        Option.bind_some, ne_eq, not_true_eq_false, if_false]
      split
      · rename_i rest
        rw [limits] at final
        obtain ⟨enlisted, enlisting⟩ :
            ∃ enlisted, enlistVmFreergList registered.layout
              ⟨toULong newEnd, registered.mmap.vmEnd⟩ = some enlisted := by
          split at final
          · obtain ⟨enlisted, enlisting, _⟩ := Option.bind_eq_some_iff.mp final
            exact ⟨enlisted, enlisting⟩
          · rename_i noRest
            exact absurd rest noRest
        rw [Layout.enlistVmFreergList_layout] at enlisting
        obtain ⟨enlisted', enlisting', _⟩ := Option.map_eq_some_iff.mp enlisting
        rw [enlisting']
        exact ⟨_, rfl⟩
      · exact ⟨_, rfl⟩

/-- `__free`, if the allocator without pages can. -/
theorem free_of_release
    {rgid : Int}
    (released : Layout.release (mem.mm proc).layout rgid = some mm') :
    ∃ result, free mem proc rgid = some result := by
  simp only [Layout.release, Layout.getSymrgById_layout, Option.bind_eq_bind,
    Option.bind_eq_some_iff] at released
  obtain ⟨found, looked, continued⟩ := released
  cases found with
  | none =>
      simp only [free, looked, Option.bind_eq_bind, Option.bind_some]
      exact ⟨_, rfl⟩
  | some rgnode =>
      simp only [Layout.enlistVmFreergList_layout, Option.map_map] at continued
      obtain ⟨enlisted, enlisting, _⟩ := Option.map_eq_some_iff.mp continued
      simp only [free, looked, enlisting, Option.bind_eq_bind, Option.bind_some]
      exact ⟨_, rfl⟩

/-- A `WRITE` below the limit. -/
theorem libwrite_of_backed
    (data : Byte)
    {destination offset : Nat}
    (backed : Refinement.Backed mem)
    (below : Refinement.AccessBelowEnd (mem.mm proc) destination offset) :
    ∃ result, libwrite mem proc data destination offset = some result := by
  obtain ⟨index, slot, addr, _, inArea, addrIs⟩ := backed.access below
  obtain ⟨fpn, inRam, online, cellIs⟩ := backed.cell inArea
  have looked : getSymrgById (mem.mm proc) (toInt destination) =
      some (some ((mem.mm proc).symrgtbl index)) := by
    have inTable : ¬ (toInt destination < 0 ∨ toInt destination > pagingMaxSymtblSz) := by
      rw [slot, pagingMaxSymtblSz]
      have := index.isLt
      omega
    rw [getSymrgById, if_neg inTable, symrgIndex_eq_some_iff.mpr slot]
  have page : pgGetpage mem proc (pagingPgn (addr : Int)) =
      some (0, mem, some (pagingFpn ((mem.mm proc).pgd (pagingPgn (addr : Int))))) :=
    pgGetpage_of_present (onlineFrame_eq_some_iff.mp online).1
  have inBounds : mem.cell proc addr < mem.mram.maxsz := by
    rw [cellIs, pagingPhyaddr_eq]
    omega
  have written : memphyWrite mem.mram (mem.cell proc addr) data =
      some { mem.mram with
        storage := Function.update mem.mram.storage (mem.cell proc addr) data } := by
    rw [memphyWrite, if_pos backed.random, if_pos inBounds]
  unfold Mem.cell at written
  simp only [libwrite, write, looked, addrIs, pgSetval, page, sysMemmap, written,
    Option.bind_eq_bind, Option.bind_some, ne_eq, not_true_eq_false, if_false]
  exact ⟨_, rfl⟩

end Memory
end Ossim
