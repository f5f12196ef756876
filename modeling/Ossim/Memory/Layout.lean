import Ossim.Memory.Backing

/-!
# Address spaces without their pages

The area, its free list and the symbol table are the layout of an address space.
The pages are not part of it: whether `vm_map_ram` finds frames, whom it evicts
and where it fails midway never flows back into the layout.
-/

namespace Ossim
namespace Memory

open CInt

/-- An address space without its pages. -/
def Mm.layout (mm : Mm) : Mm := { mm with pgd := fun _ => 0, fifoPgn := [] }

namespace Layout

/-! ## The allocator without pages -/

/-- The limits after `inc_vma_limit`: they move although `vm_map_ram` may fail. -/
def grow (mm : Mm) (size : Int) : Mm :=
  (growth mm size).elim mm fun pages => mm.setLimits (grownEnd mm pages) (grownEnd mm pages)

/-- `__alloc` on a layout, with the address. -/
def allocate (mm : Mm) (rgid size : Int) : Option (Mm × Int) := do
  match ← getFreeVmrgArea mm size with
  | some (rgnode, mm) =>
      let mm ← setSymrg mm rgid rgnode
      some (mm, toInt rgnode.rgStart)
  | none =>
      let oldSbrk := toInt mm.mmap.sbrk
      let newEnd ← checked (oldSbrk + size)
      let mm ← setSymrg (grow mm size) rgid ⟨toULong oldSbrk, toULong newEnd⟩
      if toULong newEnd < mm.mmap.vmEnd then
        let (_, mm) ← enlistVmFreergList mm ⟨toULong newEnd, mm.mmap.vmEnd⟩
        some (mm, oldSbrk)
      else
        some (mm, oldSbrk)

/-- `__free` on a layout. -/
def release (mm : Mm) (rgid : Int) : Option Mm := do
  match ← getSymrgById mm rgid with
  | none => some mm
  | some rgnode => (enlistVmFreergList mm rgnode).map (·.2)

/-! ## Forgetting the pages -/

variable {ι : Type} [DecidableEq ι] {mm mm' : Mm}

@[simp] theorem layout_mmap (mm : Mm) : mm.layout.mmap = mm.mmap := rfl

@[simp] theorem layout_symrgtbl (mm : Mm) : mm.layout.symrgtbl = mm.symrgtbl := rfl

theorem layout_eq_iff :
    mm.layout = mm'.layout ↔ mm.mmap = mm'.mmap ∧ mm.symrgtbl = mm'.symrgtbl := by
  simp [Mm.layout]

theorem getFreeVmrgArea_layout
    (mm : Mm)
    (size : Int) :
    getFreeVmrgArea mm.layout size =
      (getFreeVmrgArea mm size).map (Option.map (Prod.map id Mm.layout)) := by
  unfold getFreeVmrgArea
  rw [layout_mmap]
  split
  · rfl
  · split <;> rfl

theorem enlistVmFreergList_layout
    (mm : Mm)
    (region : Region) :
    enlistVmFreergList mm.layout region =
      (enlistVmFreergList mm region).map (Prod.map id Mm.layout) := by
  unfold enlistVmFreergList
  rw [layout_mmap]
  split
  · rfl
  · split <;> rfl

theorem getSymrgById_layout
    (mm : Mm)
    (rgid : Int) :
    getSymrgById mm.layout rgid = getSymrgById mm rgid := rfl

theorem growth_layout
    (mm : Mm)
    (size : Int) :
    growth mm.layout size = growth mm size := by
  unfold growth
  rw [getFreeVmrgArea_layout]
  cases getFreeVmrgArea mm size with
  | none => rfl
  | some found => cases found <;> rfl

theorem grow_layout
    (mm : Mm)
    (size : Int) :
    grow mm.layout size = (grow mm size).layout := by
  unfold grow
  rw [growth_layout]
  cases growth mm size <;> rfl

theorem EnlistsRest.layout
    {newEnd : Nat}
    (rest : EnlistsRest mm newEnd mm') :
    EnlistsRest mm.layout newEnd mm'.layout := by
  rcases rest with ⟨remains, rc, enlisted⟩ | ⟨noRest, rfl⟩
  · refine .inl ⟨remains, rc, ?_⟩
    rw [layout_mmap, enlistVmFreergList_layout, enlisted]
    rfl
  · exact .inr ⟨noRest, rfl⟩

/-! ## The allocator refines the one without pages -/

theorem allocate_hit
    {rgid size : Int}
    {index : Fin 30}
    {newrg : Region}
    (taken : getFreeVmrgArea mm size = some (some (newrg, mm')))
    (slot : rgid = index.val) :
    allocate mm rgid size =
      some ({ mm' with symrgtbl := Function.update mm'.symrgtbl index newrg },
        toInt newrg.rgStart) := by
  have registered := setSymrg_eq_some_iff.mpr
    (⟨index, slot, rfl⟩ : ∃ index' : Fin 30, rgid = index'.val ∧
      { mm' with symrgtbl := Function.update mm'.symrgtbl index newrg } =
        { mm' with symrgtbl := Function.update mm'.symrgtbl index' newrg })
  simp only [allocate, taken, registered, Option.bind_eq_bind, Option.bind_some]

theorem allocate_missed
    {rgid size newEnd : Int}
    {index : Fin 30}
    (missed : getFreeVmrgArea mm size = some none)
    (inRange : checked (toInt mm.mmap.sbrk + size) = some newEnd)
    (slot : rgid = index.val)
    (rest : EnlistsRest
      { grow mm size with
        symrgtbl := Function.update (grow mm size).symrgtbl index
          ⟨toULong (toInt mm.mmap.sbrk), toULong newEnd⟩ }
      (toULong newEnd) mm') :
    allocate mm rgid size = some (mm', toInt mm.mmap.sbrk) := by
  have registered := setSymrg_eq_some_iff.mpr
    (⟨index, slot, rfl⟩ : ∃ index' : Fin 30, rgid = index'.val ∧ _ =
      { grow mm size with
        symrgtbl := Function.update (grow mm size).symrgtbl index'
          ⟨toULong (toInt mm.mmap.sbrk), toULong newEnd⟩ })
  simp only [allocate, missed, inRange, registered, Option.bind_eq_bind, Option.bind_some]
  rcases rest with ⟨remains, rc, enlisted⟩ | ⟨noRest, rfl⟩
  · rw [if_pos remains, enlisted, Option.bind_some]
  · rw [if_neg (Nat.not_lt_of_le noRest)]

variable {mem mem' : Mem ι} {caller : ι}

/-- Whatever `vm_map_ram` does, the limits are those that `grow` sets. -/
theorem layout_of_growth
    {size : Int}
    (outcome : (growth (mem.mm caller) size = none ∧ mem' = mem) ∨
      ∃ pages, growth (mem.mm caller) size = some pages ∧ Grows mem caller pages mem') :
    (mem'.mm caller).layout = (grow (mem.mm caller) size).layout := by
  rcases outcome with ⟨refused, rfl⟩ | ⟨pages, growing, grew⟩
  · rw [grow, refused, Option.elim_none]
  · rw [grow, growing, Option.elim_some, layout_eq_iff]
    have regions := grew.regions
    rw [regions.mmap, regions.symrgtbl, Mem.mm_setMm_self]
    exact ⟨rfl, rfl⟩

/-- `__alloc` does to the layout what the allocator without pages does. -/
theorem alloc_layout
    {rgid size rc : Int}
    {addr : Option Int}
    (allocated : alloc mem caller rgid size = some (rc, mem', addr)) :
    ∃ start, addr = some start ∧
      allocate (mem.mm caller).layout rgid size = some ((mem'.mm caller).layout, start) := by
  obtain ⟨_, index, slot, hit | grown⟩ := alloc_cases allocated
  · obtain ⟨newrg, mm, taken, isStart, rfl⟩ := hit
    have takenLayout : getFreeVmrgArea (mem.mm caller).layout size =
        some (some (newrg, mm.layout)) := by
      rw [getFreeVmrgArea_layout, taken]
      rfl
    refine ⟨_, isStart, ?_⟩
    rw [Mem.mm_setMm_self, allocate_hit takenLayout slot]
    rfl
  · obtain ⟨newEnd, middle, mm, missed, outcome, inRange, isStart, rest, rfl⟩ := grown
    have missedLayout : getFreeVmrgArea (mem.mm caller).layout size = some none := by
      rw [getFreeVmrgArea_layout, missed]
      rfl
    have limits : (middle.mm caller).layout = grow (mem.mm caller).layout size := by
      rw [layout_of_growth outcome, grow_layout]
    refine ⟨_, isStart, ?_⟩
    rw [Mem.mm_setMm_self]
    apply allocate_missed missedLayout inRange slot
    rw [← limits]
    exact EnlistsRest.layout rest

theorem free_layout
    {rgid rc : Int}
    (freed : free mem caller rgid = some (rc, mem')) :
    release (mem.mm caller).layout rgid = some (mem'.mm caller).layout := by
  simp only [free, Option.bind_eq_bind, Option.bind_eq_some_iff] at freed
  obtain ⟨found, looked, continued⟩ := freed
  rw [release, getSymrgById_layout, looked, Option.bind_eq_bind, Option.bind_some]
  cases found with
  | none =>
      simp only [Option.some.injEq, Prod.mk.injEq] at continued
      rw [continued.2]
  | some rgnode =>
      simp only [Option.bind_eq_some_iff, Option.some.injEq, Prod.mk.injEq] at continued
      obtain ⟨⟨code, mm⟩, enlisted, _, rfl⟩ := continued
      dsimp only
      rw [enlistVmFreergList_layout, enlisted, Mem.mm_setMm_self]
      rfl

end Layout

end Memory
end Ossim
