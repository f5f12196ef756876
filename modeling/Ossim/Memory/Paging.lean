import Ossim.Memory.Mm
import Mathlib.Data.List.FinRange

/-!
# Mapping pages

The model of `mm.c` and `mm-vm.c`: processes that share a RAM device and four
swap devices grow their areas, take frames and evict their own pages when the
RAM has no free frame left.  `none` stands for undefined behaviour.
-/

namespace Ossim
namespace Memory

open CInt

/-- The fields of `struct pcb_t` that name the memory of a process.
`active_mswp` points to one of the swap devices. -/
structure Pcb where
  mm : Mm
  activeMswp : Fin 4
  activeMswpId : Int

/-- A process before its first instruction, with the first swap device active. -/
def Pcb.fresh : Pcb where
  mm := Mm.fresh
  activeMswp := 0
  activeMswpId := 0

/-- The devices and the processes that share them. -/
structure Mem (ι : Type) where
  mram : Memphy
  mswp : Fin 4 → Memphy
  pcb : ι → Pcb

namespace Mem

variable {ι : Type}

/-- The address space of a process. -/
def mm (mem : Mem ι) (caller : ι) : Mm := (mem.pcb caller).mm

/-- Replace a swap device. -/
def setMswp (mem : Mem ι) (device : Fin 4) (mp : Memphy) : Mem ι :=
  { mem with mswp := Function.update mem.mswp device mp }

/-- Replace the RAM device. -/
def setMram (mem : Mem ι) (mp : Memphy) : Mem ι :=
  { mem with mram := mp }

@[simp] theorem mm_setMswp (mem : Mem ι) (device : Fin 4) (mp : Memphy) :
    (mem.setMswp device mp).mm = mem.mm := rfl

@[simp] theorem pcb_setMswp (mem : Mem ι) (device : Fin 4) (mp : Memphy) :
    (mem.setMswp device mp).pcb = mem.pcb := rfl

@[simp] theorem mram_setMswp (mem : Mem ι) (device : Fin 4) (mp : Memphy) :
    (mem.setMswp device mp).mram = mem.mram := rfl

@[simp] theorem mswp_setMswp_self (mem : Mem ι) (device : Fin 4) (mp : Memphy) :
    (mem.setMswp device mp).mswp device = mp := by
  simp [setMswp]

@[simp] theorem mswp_setMswp_of_ne
    (mem : Mem ι)
    {device other : Fin 4}
    (mp : Memphy)
    (different : other ≠ device) :
    (mem.setMswp device mp).mswp other = mem.mswp other := by
  simp [setMswp, different]

@[simp] theorem setMswp_setMswp (mem : Mem ι) (device : Fin 4) (mp mp' : Memphy) :
    (mem.setMswp device mp).setMswp device mp' = mem.setMswp device mp' := by
  simp [setMswp]

@[simp] theorem mm_setMram (mem : Mem ι) (mp : Memphy) :
    (mem.setMram mp).mm = mem.mm := rfl

@[simp] theorem pcb_setMram (mem : Mem ι) (mp : Memphy) :
    (mem.setMram mp).pcb = mem.pcb := rfl

@[simp] theorem mram_setMram (mem : Mem ι) (mp : Memphy) :
    (mem.setMram mp).mram = mp := rfl

@[simp] theorem mswp_setMram (mem : Mem ι) (mp : Memphy) :
    (mem.setMram mp).mswp = mem.mswp := rfl

variable [DecidableEq ι]

/-- Replace the address space of a process. -/
def setMm (mem : Mem ι) (caller : ι) (mm : Mm) : Mem ι :=
  { mem with pcb := Function.update mem.pcb caller { mem.pcb caller with mm := mm } }

@[simp] theorem mm_setMm_self (mem : Mem ι) (caller : ι) (mm : Mm) :
    (mem.setMm caller mm).mm caller = mm := by
  simp [setMm, Mem.mm]

@[simp] theorem mm_setMm_of_ne
    (mem : Mem ι)
    {caller other : ι}
    (mm : Mm)
    (different : other ≠ caller) :
    (mem.setMm caller mm).mm other = mem.mm other := by
  simp [setMm, Mem.mm, different]

/-- What holds of every address space and of the new one holds of all afterwards. -/
theorem forall_mm_setMm
    {mem : Mem ι}
    {caller : ι}
    {mm : Mm}
    (holds : Mm → Prop)
    (before : ∀ proc, holds (mem.mm proc))
    (new : holds mm)
    (proc : ι) :
    holds ((mem.setMm caller mm).mm proc) := by
  by_cases same : proc = caller
  · subst same
    rwa [mm_setMm_self]
  · rw [mm_setMm_of_ne _ _ same]
    exact before proc

@[simp] theorem mram_setMm (mem : Mem ι) (caller : ι) (mm : Mm) :
    (mem.setMm caller mm).mram = mem.mram := rfl

@[simp] theorem mswp_setMm (mem : Mem ι) (caller : ι) (mm : Mm) :
    (mem.setMm caller mm).mswp = mem.mswp := rfl

@[simp] theorem activeMswp_setMm (mem : Mem ι) (caller other : ι) (mm : Mm) :
    ((mem.setMm caller mm).pcb other).activeMswp = (mem.pcb other).activeMswp := by
  by_cases same : other = caller
  · subst same
    simp [setMm]
  · simp [setMm, same]

@[simp] theorem activeMswpId_setMm (mem : Mem ι) (caller other : ι) (mm : Mm) :
    ((mem.setMm caller mm).pcb other).activeMswpId = (mem.pcb other).activeMswpId := by
  by_cases same : other = caller
  · subst same
    simp [setMm]
  · simp [setMm, same]

@[simp] theorem setMm_setMm (mem : Mem ι) (caller : ι) (mm mm' : Mm) :
    (mem.setMm caller mm).setMm caller mm' = mem.setMm caller mm' := by
  simp [setMm]

/-- Changes of a device move inwards. -/
@[simp] theorem setMswp_setMm (mem : Mem ι) (caller : ι) (mm : Mm) (device : Fin 4)
    (mp : Memphy) :
    (mem.setMm caller mm).setMswp device mp = (mem.setMswp device mp).setMm caller mm := rfl

@[simp] theorem setMram_setMm (mem : Mem ι) (caller : ι) (mm : Mm) (mp : Memphy) :
    (mem.setMm caller mm).setMram mp = (mem.setMram mp).setMm caller mm := rfl

@[simp] theorem setMm_mm (mem : Mem ι) (caller : ι) :
    mem.setMm caller (mem.mm caller) = mem := by
  simp [setMm, mm]

end Mem

/-! ## Mapping frames -/

/-- Map a page to a frame and list it as the newest page. -/
def Mm.mapPage (mm : Mm) (pgn : Pgn) (fpn : Nat) : Mm :=
  (mm.setPte pgn (pteSetFpn (mm.pgd pgn) fpn)).enlistPgnNode pgn

/-- The loop of `vmap_page_range` from the iteration `pgit` on: the number of
iterations left, and the frames after the one of the last iteration.  Running
out of frames is harmless in the last iteration only, since the next one would
read the next pointer of `NULL`. -/
def vmapPages (addr : Int) : Nat → Nat → Chain Nat → Mm → Option Mm
  | 0, _, _, mm => some mm
  | left + 1, pgit, frames, mm => do
      let pageAddr ← checked (addr + pgit * pagingPagesz)
      let pgn := pagingPgn pageAddr
      match frames.nodes, frames.wild with
      | fpn :: rest, _ =>
          vmapPages addr left (pgit + 1) { frames with nodes := rest } (mm.mapPage pgn fpn)
      | [], false => if left = 0 then some mm else none
      | [], true => none

/-- `vmap_page_range`, without the region it returns, which no caller reads. -/
def vmapPageRange (mm : Mm) (addr : Int) (pgnum : Int) (frames : Chain Nat) : Option Mm :=
  vmapPages addr pgnum.toNat 0 frames mm

variable {ι : Type}

/-- Try the devices in order: take a free frame of the first that has one and
copy the victim frame there. -/
def swapOut (mem : Mem ι) (victimFpn : Nat) :
    List (Fin 4) → Option (Option (Fin 4 × Nat × Mem ι))
  | [] => some none
  | device :: others => do
      match ← memphyGetFreefp (mem.mswp device) with
      | some (swpfpn, mp) =>
          let mp ← swapCpPage mem.mram victimFpn mp swpfpn
          some (some (device, swpfpn, mem.setMswp device mp))
      | none => swapOut mem victimFpn others

variable [DecidableEq ι]

/-- The devices in the order in which `alloc_pages_range` tries them: the active
one, then all from the first on. -/
def swapOrder (active : Fin 4) : List (Fin 4) := active :: List.finRange 4

/-- An iteration of the loop of `alloc_pages_range`: the return code, 0 where
the loop goes on, and the frame list.  The node of a free frame ends up in front
of `used_fp_list` and nowhere else, since its next pointer is assigned twice. -/
def allocPage (mem : Mem ι) (caller : ι) (frmLst : Chain Nat) :
    Option (Int × Mem ι × Chain Nat) := do
  match ← memphyGetFreefp mem.mram with
  | some (fpn, mram) =>
      let frmLst := mram.usedFpList.cons fpn
      some (0, mem.setMram { mram with usedFpList := frmLst }, frmLst)
  | none =>
      match findVictimPage (mem.mm caller) with
      | none => some (-1, mem, frmLst)
      | some (victimPgn, mm) =>
          let mem := mem.setMm caller mm
          let victimPte := mm.pgd victimPgn
          let victimFpn := pagingFpn victimPte
          let frmLst ← frmLst.push victimFpn
          match ← swapOut mem victimFpn (swapOrder (mem.pcb caller).activeMswp) with
          | none => some (-3000, mem, frmLst)
          | some (swptyp, swpfpn, mem) =>
              let victimPte := pteSetSwap victimPte swptyp.val swpfpn
              some (0, mem.setMm caller ((mem.mm caller).setPte victimPgn victimPte), frmLst)

/-- `alloc_pages_range`, with the number of iterations left. -/
def allocPagesRange (caller : ι) :
    Nat → Mem ι → Chain Nat → Option (Int × Mem ι × Chain Nat)
  | 0, mem, frmLst => some (0, mem, frmLst)
  | left + 1, mem, frmLst => do
      let (rc, mem, frmLst) ← allocPage mem caller frmLst
      if rc < 0 then some (rc, mem, frmLst) else allocPagesRange caller left mem frmLst

/-- `vm_map_ram`; the bounds of the area are not used. -/
def vmMapRam (mem : Mem ι) (caller : ι) (mapstart : Int) (incpgnum : Int) :
    Option (Int × Mem ι) := do
  let (retAlloc, mem, frmLst) ← allocPagesRange caller incpgnum.toNat mem .null
  if retAlloc < 0 then
    some (-1, mem)
  else
    let mm ← vmapPageRange (mem.mm caller) mapstart incpgnum frmLst
    some (0, mem.setMm caller mm)

/-- `__mm_swap_page` -/
def mmSwapPage (mem : Mem ι) (caller : ι) (vicfpn swpfpn : Nat) : Option (Mem ι) := do
  let active := (mem.pcb caller).activeMswp
  let mp ← swapCpPage mem.mram vicfpn (mem.mswp active) swpfpn
  some (mem.setMswp active mp)

/-! ## Growing an area -/

/-- `PAGING_PAGE_ALIGNSZ(sz)` -/
def pagingPageAlignsz (sz : Int) : Option Int := do
  let rounded ← checked (sz + pagingPagesz)
  some ((rounded - 1).tdiv pagingPagesz * pagingPagesz)

/-- `inc_vma_limit`.  The limits are set before `vm_map_ram` is asked for the
pages, and a failure there leaves them. -/
def incVmaLimit (mem : Mem ι) (caller : ι) (incSz : Int) : Option (Int × Mem ι) := do
  let incAmt ← pagingPageAlignsz incSz
  let incnumpage := incAmt.tdiv pagingPagesz
  let mm := mem.mm caller
  let rgStart := mm.mmap.sbrk
  let rgEnd := toULong (rgStart + incAmt)
  let oldEnd := toInt mm.mmap.vmEnd
  let overlap ← validateOverlapVmArea mm (toInt rgStart) (toInt rgEnd)
  if overlap < 0 then
    some (-1, mem)
  else
    let mem := mem.setMm caller (mm.setLimits rgEnd rgEnd)
    let (mapped, mem) ← vmMapRam mem caller oldEnd incnumpage
    if mapped < 0 then some (-1, mem) else some (0, mem)

end Memory
end Ossim
