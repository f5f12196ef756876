import Ossim.Library.CInt
import Ossim.Memory.Memphy

/-!
# Address spaces

The data of `os-mm.h` that belongs to one process, and the operations on it
that reach no device: the free regions, the symbol table and the list of the
mapped pages.

`init_mm` makes one area, with `vm_id` 1, and nothing adds another.  Every
caller looks up the area with number 0, and `get_vma_by_num` answers with the
first area, so an address space has just this area here.
-/

namespace Ossim
namespace Memory

open CInt

/-- `struct vm_rg_struct`; the next pointers are in the chain of regions. -/
structure Region where
  rgStart : Nat
  rgEnd : Nat
  deriving DecidableEq

/-- `struct vm_area_struct` -/
structure VmArea where
  vmStart : Nat
  vmEnd : Nat
  sbrk : Nat
  vmFreergList : Chain Region

/-- `struct mm_struct`; `fifoPgn` lists the pages the newest first. -/
structure Mm where
  pgd : Pgn → Pte
  mmap : VmArea
  symrgtbl : Fin 30 → Region
  fifoPgn : List Pgn

/-- `PAGING_MAX_SYMTBL_SZ` -/
def pagingMaxSymtblSz : Int := 30

/-- `init_mm` on zeroed memory: `vm_freerg_list`, which it reads and does not assign, is
`NULL` before the call.  The page table, the symbol table and the page list keep what
they held. -/
def initMm (mm : Mm) : Mm :=
  { mm with
    mmap :=
      { vmStart := 0
        vmEnd := 0
        sbrk := 0
        vmFreergList := Chain.null.cons ⟨0, 0⟩ } }

/-- An address space in zeroed memory after `init_mm`. -/
def Mm.fresh : Mm :=
  initMm
    { pgd := fun _ => 0
      mmap := ⟨0, 0, 0, .null⟩
      symrgtbl := fun _ => ⟨0, 0⟩
      fifoPgn := [] }

namespace Mm

/-- Store a page table entry. -/
def setPte (mm : Mm) (pgn : Pgn) (pte : Pte) : Mm :=
  { mm with pgd := Function.update mm.pgd pgn pte }

/-- `enlist_pgn_node` on `fifo_pgn`. -/
def enlistPgnNode (mm : Mm) (pgn : Pgn) : Mm :=
  { mm with fifoPgn := pgn :: mm.fifoPgn }

/-- Set the limits of the area. -/
def setLimits (mm : Mm) (sbrk vmEnd : Nat) : Mm :=
  { mm with mmap := { mm.mmap with sbrk := sbrk, vmEnd := vmEnd } }

end Mm

/-- The entry of the symbol table, for an index inside the array. -/
def symrgIndex (rgid : Int) : Option (Fin 30) :=
  if inTable : 0 ≤ rgid ∧ rgid < 30 then
    some ⟨rgid.toNat, by omega⟩
  else
    none

/-- Assign `rg_start` and `rg_end` of an entry of the symbol table. -/
def setSymrg (mm : Mm) (rgid : Int) (region : Region) : Option Mm :=
  match symrgIndex rgid with
  | none => none
  | some index => some { mm with symrgtbl := Function.update mm.symrgtbl index region }

/-- `get_symrg_byid`, with the entry its callers then read; the inner `none`
stands for `NULL`.  The index `PAGING_MAX_SYMTBL_SZ` passes the test but is not
in the table. -/
def getSymrgById (mm : Mm) (rgid : Int) : Option (Option Region) :=
  if rgid < 0 ∨ rgid > pagingMaxSymtblSz then
    some none
  else
    match symrgIndex rgid with
    | none => none
    | some index => some (some (mm.symrgtbl index))

/-- `enlist_vm_freerg_list` -/
def enlistVmFreergList (mm : Mm) (rgElmt : Region) : Option (Int × Mm) :=
  if rgElmt.rgStart ≥ rgElmt.rgEnd then
    some (-1, mm)
  else
    match mm.mmap.vmFreergList.push rgElmt with
    | none => none
    | some list => some (0, { mm with mmap := { mm.mmap with vmFreergList := list } })

/-- The loop of `get_free_vmrg_area`: the region taken and the nodes left. -/
def firstFit (size : Int) : List Region → Option (Region × List Region)
  | [] => none
  | rgit :: rest =>
      let sizeOfFreeVMReg := toULong (rgit.rgEnd - rgit.rgStart + 1)
      if sizeOfFreeVMReg ≥ toULong size then
        let newrg : Region := ⟨rgit.rgStart, toULong (rgit.rgStart + size - 1)⟩
        let start := toULong (rgit.rgStart + size)
        if start > rgit.rgEnd then
          some (newrg, rest)
        else
          some (newrg, ⟨start, rgit.rgEnd⟩ :: rest)
      else
        match firstFit size rest with
        | none => none
        | some (newrg, left) => some (newrg, rgit :: left)

/-- `get_free_vmrg_area`: the inner `none` stands for the return code -1, which
needs a list that ends in `NULL`. -/
def getFreeVmrgArea (mm : Mm) (size : Int) : Option (Option (Region × Mm)) :=
  match firstFit size mm.mmap.vmFreergList.nodes with
  | some (newrg, nodes) =>
      some (some (newrg, { mm with
        mmap := { mm.mmap with
          vmFreergList := { mm.mmap.vmFreergList with nodes := nodes } } }))
  | none => if mm.mmap.vmFreergList.wild then none else some none

/-- `find_victim_page`: the oldest page leaves the list; `none` stands for the
return code -1. -/
def findVictimPage (mm : Mm) : Option (Pgn × Mm) :=
  match mm.fifoPgn.getLast? with
  | none => none
  | some pgn => some (pgn, { mm with fifoPgn := mm.fifoPgn.dropLast })

/-- `validate_overlap_vm_area`.  The area is compared with itself, since its
`vm_id` is 1 and the number asked for is 0.  The products are unsigned and
their sign is that of the lower half. -/
def validateOverlapVmArea (mm : Mm) (vmastart vmaend : Int) : Option Int :=
  let vma := mm.mmap
  if vma.vmStart ≠ vma.vmEnd then do
    let vmalast ← checked (vmaend - 1)
    if toInt ((vmalast - vma.vmStart) * (vma.vmEnd - 1 - vmastart)) ≥ 0 then
      some (-1)
    else if toInt ((vmastart - vma.vmStart) * (vma.vmEnd - vmaend)) ≥ 0 then
      some (-1)
    else
      some 0
  else
    some 0

/-! ## What the operations change -/

variable {mm mm' : Mm}

@[simp] theorem Mm.setPte_pgd_self (mm : Mm) (pgn : Pgn) (pte : Pte) :
    (mm.setPte pgn pte).pgd pgn = pte := by
  simp [setPte]

@[simp] theorem Mm.setPte_pgd_of_ne
    (mm : Mm)
    {pgn pgn' : Pgn}
    (pte : Pte)
    (other : pgn' ≠ pgn) :
    (mm.setPte pgn pte).pgd pgn' = mm.pgd pgn' := by
  simp [setPte, other]

@[simp] theorem Mm.setPte_mmap (mm : Mm) (pgn : Pgn) (pte : Pte) :
    (mm.setPte pgn pte).mmap = mm.mmap := rfl

@[simp] theorem Mm.setPte_symrgtbl (mm : Mm) (pgn : Pgn) (pte : Pte) :
    (mm.setPte pgn pte).symrgtbl = mm.symrgtbl := rfl

@[simp] theorem Mm.setPte_fifoPgn (mm : Mm) (pgn : Pgn) (pte : Pte) :
    (mm.setPte pgn pte).fifoPgn = mm.fifoPgn := rfl

@[simp] theorem Mm.enlistPgnNode_pgd (mm : Mm) (pgn : Pgn) :
    (mm.enlistPgnNode pgn).pgd = mm.pgd := rfl

@[simp] theorem Mm.enlistPgnNode_mmap (mm : Mm) (pgn : Pgn) :
    (mm.enlistPgnNode pgn).mmap = mm.mmap := rfl

@[simp] theorem Mm.enlistPgnNode_symrgtbl (mm : Mm) (pgn : Pgn) :
    (mm.enlistPgnNode pgn).symrgtbl = mm.symrgtbl := rfl

@[simp] theorem Mm.enlistPgnNode_fifoPgn (mm : Mm) (pgn : Pgn) :
    (mm.enlistPgnNode pgn).fifoPgn = pgn :: mm.fifoPgn := rfl

@[simp] theorem Mm.setLimits_pgd (mm : Mm) (sbrk vmEnd : Nat) :
    (mm.setLimits sbrk vmEnd).pgd = mm.pgd := rfl

@[simp] theorem Mm.setLimits_symrgtbl (mm : Mm) (sbrk vmEnd : Nat) :
    (mm.setLimits sbrk vmEnd).symrgtbl = mm.symrgtbl := rfl

@[simp] theorem Mm.setLimits_fifoPgn (mm : Mm) (sbrk vmEnd : Nat) :
    (mm.setLimits sbrk vmEnd).fifoPgn = mm.fifoPgn := rfl

theorem symrgIndex_eq_some_iff
    {rgid : Int}
    {index : Fin 30} :
    symrgIndex rgid = some index ↔ rgid = index.val := by
  unfold symrgIndex
  split
  · simp only [Option.some.injEq, Fin.ext_iff]
    omega
  · have := index.isLt
    simp only [reduceCtorEq, false_iff]
    omega

theorem setSymrg_eq_some_iff
    {rgid : Int}
    {region : Region} :
    setSymrg mm rgid region = some mm' ↔
      ∃ index : Fin 30, rgid = index.val ∧
        mm' = { mm with symrgtbl := Function.update mm.symrgtbl index region } := by
  unfold setSymrg
  constructor
  · intro assigned
    split at assigned
    · cases assigned
    · rename_i index found
      cases assigned
      exact ⟨index, symrgIndex_eq_some_iff.mp found, rfl⟩
  · rintro ⟨index, found, rfl⟩
    rw [symrgIndex_eq_some_iff.mpr found]

/-- Putting a region on the free list changes nothing but this list. -/
theorem enlistVmFreergList_cases
    {rgElmt : Region}
    {rc : Int}
    (enlisted : enlistVmFreergList mm rgElmt = some (rc, mm')) :
    (rgElmt.rgEnd ≤ rgElmt.rgStart ∧ mm' = mm) ∨
      (rgElmt.rgStart < rgElmt.rgEnd ∧
        mm' = { mm with mmap := { mm.mmap with vmFreergList := mm'.mmap.vmFreergList } } ∧
        mm'.mmap.vmFreergList.nodes = rgElmt :: mm.mmap.vmFreergList.nodes) := by
  unfold enlistVmFreergList at enlisted
  split at enlisted
  · cases enlisted
    exact Or.inl ⟨‹_›, rfl⟩
  · rename_i nonempty
    split at enlisted
    · cases enlisted
    · rename_i list pushed
      cases enlisted
      exact Or.inr ⟨by omega, rfl, Chain.nodes_of_push pushed⟩

/-- Taking a free region changes nothing but the free list. -/
theorem getFreeVmrgArea_cases
    {size : Int}
    {newrg : Region}
    (taken : getFreeVmrgArea mm size = some (some (newrg, mm'))) :
    mm' = { mm with mmap := { mm.mmap with vmFreergList := mm'.mmap.vmFreergList } } ∧
      firstFit size mm.mmap.vmFreergList.nodes =
        some (newrg, mm'.mmap.vmFreergList.nodes) := by
  unfold getFreeVmrgArea at taken
  split at taken
  · rename_i found
    cases taken
    exact ⟨rfl, found⟩
  · split at taken <;> cases taken

/-- The victim is the last of the list, the others stay. -/
theorem findVictimPage_eq_some_iff
    {pgn : Pgn} :
    findVictimPage mm = some (pgn, mm') ↔
      ∃ younger, mm.fifoPgn = younger ++ [pgn] ∧ mm' = { mm with fifoPgn := younger } := by
  unfold findVictimPage
  constructor
  · intro found
    split at found
    · cases found
    · rename_i last
      cases found
      obtain ⟨younger, list⟩ := List.getLast?_eq_some_iff.mp last
      exact ⟨younger, list, by simp [list]⟩
  · rintro ⟨younger, list, rfl⟩
    simp [list]

theorem findVictimPage_eq_none_iff :
    findVictimPage mm = none ↔ mm.fifoPgn = [] := by
  unfold findVictimPage
  split
  · rename_i none
    simpa using List.getLast?_eq_none_iff.mp none
  · rename_i last
    have nonempty : mm.fifoPgn ≠ [] := by
      intro empty
      simp [empty] at last
    simp [nonempty]

end Memory
end Ossim
