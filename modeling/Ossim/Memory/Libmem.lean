import Ossim.Memory.Paging

/-!
# The memory library

The model of `libmem.c` and `sys_mem.c`: the system call, the access to a page,
the four operations of a process on its regions, and the instructions that call
them.  `none` stands for undefined behaviour, that is an access outside an
array or a device, the use of a variable or a pointer that was never assigned,
or an overflow of signed arithmetic.
-/

namespace Ossim
namespace Memory

open CInt

variable {ι : Type} [DecidableEq ι]

/-! ## The system call -/

/-- The operations of `sys_memmap` with their registers. -/
inductive Memop
  | map
  | inc (size : Int)
  | swp (vicfpn swpfpn : Nat)
  | ioRead (addr : Nat)
  | ioWrite (addr : Nat) (value : Byte)

/-- The return code of a system call, the memory after it, and the byte that an
operation leaves in the register `a3`. -/
structure SysResult (ι : Type) where
  rc : Int
  mem : Mem ι
  a3 : Option Byte

/-- `__sys_memmap`: the return code is 0 whatever the operation returned. -/
def sysMemmap (mem : Mem ι) (caller : ι) : Memop → Option (SysResult ι)
  | .map => some ⟨0, mem, none⟩
  | .inc size => do
      let (_, mem) ← incVmaLimit mem caller size
      some ⟨0, mem, none⟩
  | .swp vicfpn swpfpn => do
      let mem ← mmSwapPage mem caller vicfpn swpfpn
      some ⟨0, mem, none⟩
  | .ioRead addr => do
      let value ← memphyRead mem.mram addr
      some ⟨0, mem, some value⟩
  | .ioWrite addr value => do
      let mram ← memphyWrite mem.mram addr value
      some ⟨0, mem.setMram mram, none⟩

/-! ## Access to a page -/

/-- `pg_getpage` for a page that is not present: the return code and the frame
number.  A victim or a swap frame that could not be found is an unassigned
variable, since the return codes are ignored.  The second copy is meant to bring
the page in, but it copies from the RAM to the swap device like the first. -/
def pgSwapIn (mem : Mem ι) (caller : ι) (pgn : Pgn) : Option (Int × Mem ι × Option Nat) := do
  let pte := (mem.mm caller).pgd pgn
  let tgtfpn := pagingPteSwp pte
  match findVictimPage (mem.mm caller) with
  | none => none
  | some (vicpgn, mm) =>
      let mem := mem.setMm caller mm
      let active := (mem.pcb caller).activeMswp
      match ← memphyGetFreefp (mem.mswp active) with
      | none => none
      | some (swpfpn, mp) =>
          let mem := mem.setMswp active mp
          let vicpte := mm.pgd vicpgn
          let vicfpn := pagingFpn vicpte
          let regs ← sysMemmap mem caller (.swp vicfpn swpfpn)
          if regs.rc ≠ 0 then
            some (-1, regs.mem, none)
          else
            let regs ← sysMemmap regs.mem caller (.swp tgtfpn vicfpn)
            if regs.rc ≠ 0 then
              some (-1, regs.mem, none)
            else
              let mem := regs.mem
              let vicpte := pteSetSwap vicpte (mem.pcb caller).activeMswpId swpfpn
              let pte := pagingPteSetPresent (pteSetFpn pte vicfpn)
              let mm := ((mem.mm caller).setPte vicpgn vicpte).setPte pgn pte
              some (0, mem.setMm caller (mm.enlistPgnNode pgn), some (pagingFpn pte))

/-- `pg_getpage`.  The flag `SWAPPED` is not looked at. -/
def pgGetpage (mem : Mem ι) (caller : ι) (pgn : Pgn) : Option (Int × Mem ι × Option Nat) :=
  let pte := (mem.mm caller).pgd pgn
  if pagingPagePresent pte then
    some (0, mem, some (pagingFpn pte))
  else
    pgSwapIn mem caller pgn

/-- `pg_getval`: the return code and the byte stored in `*data`. -/
def pgGetval (mem : Mem ι) (caller : ι) (addr : Int) : Option (Int × Mem ι × Option Byte) := do
  let pgn := pagingPgn addr
  let offst := pagingOffst addr
  let (rc, mem, fpn) ← pgGetpage mem caller pgn
  if rc ≠ 0 then
    some (-1, mem, none)
  else
    let fpn ← fpn
    let regs ← sysMemmap mem caller (.ioRead (pagingPhyaddr fpn offst))
    if regs.rc ≠ 0 then
      some (-1, regs.mem, none)
    else
      some (0, regs.mem, regs.a3)

/-- `pg_setval` -/
def pgSetval (mem : Mem ι) (caller : ι) (addr : Int) (value : Byte) :
    Option (Int × Mem ι) := do
  let pgn := pagingPgn addr
  let offst := pagingOffst addr
  let (rc, mem, fpn) ← pgGetpage mem caller pgn
  if rc ≠ 0 then
    some (-1, mem)
  else
    let fpn ← fpn
    let regs ← sysMemmap mem caller (.ioWrite (pagingPhyaddr fpn offst) value)
    if regs.rc ≠ 0 then
      some (-1, regs.mem)
    else
      some (0, regs.mem)

/-! ## Operations on regions -/

/-- `__alloc`: the return code and the address stored in `*alloc_addr`. -/
def alloc (mem : Mem ι) (caller : ι) (rgid size : Int) :
    Option (Int × Mem ι × Option Int) := do
  match ← getFreeVmrgArea (mem.mm caller) size with
  | some (rgnode, mm) =>
      let mm ← setSymrg mm rgid rgnode
      some (0, mem.setMm caller mm, some (toInt rgnode.rgStart))
  | none =>
      let oldSbrk := toInt (mem.mm caller).mmap.sbrk
      let regs ← sysMemmap mem caller (.inc size)
      if regs.rc ≠ 0 then
        some (-1, regs.mem, none)
      else
        let newEnd ← checked (oldSbrk + size)
        let mm ← setSymrg (regs.mem.mm caller) rgid ⟨toULong oldSbrk, toULong newEnd⟩
        if toULong newEnd < mm.mmap.vmEnd then
          let (_, mm) ← enlistVmFreergList mm ⟨toULong newEnd, mm.mmap.vmEnd⟩
          some (0, regs.mem.setMm caller mm, some oldSbrk)
        else
          some (0, regs.mem.setMm caller mm, some oldSbrk)

/-- `__free` -/
def free (mem : Mem ι) (caller : ι) (rgid : Int) : Option (Int × Mem ι) := do
  match ← getSymrgById (mem.mm caller) rgid with
  | none => some (-1, mem)
  | some rgnode =>
      let (_, mm) ← enlistVmFreergList (mem.mm caller) rgnode
      some (0, mem.setMm caller mm)

/-- The address that an access to a region computes. -/
def accessAddr (region : Region) (offset : Int) : Int :=
  toInt (toULong (region.rgStart + offset))

/-- `__read`: the return value and the byte stored in `*data`. -/
def read (mem : Mem ι) (caller : ι) (rgid offset : Int) :
    Option (Int × Mem ι × Option Byte) := do
  match ← getSymrgById (mem.mm caller) rgid with
  | none => some (-1, mem, none)
  | some currg =>
      let (_, mem, data) ← pgGetval mem caller (accessAddr currg offset)
      let data ← data
      some (data.toInt, mem, some data)

/-- `__write` -/
def write (mem : Mem ι) (caller : ι) (rgid offset : Int) (value : Byte) :
    Option (Int × Mem ι) := do
  match ← getSymrgById (mem.mm caller) rgid with
  | none => some (-1, mem)
  | some currg =>
      let (_, mem) ← pgSetval mem caller (accessAddr currg offset) value
      some (0, mem)

/-! ## Instructions -/

/-- `liballoc` -/
def liballoc (mem : Mem ι) (proc : ι) (size regIndex : Nat) : Option (Int × Mem ι) := do
  let (val, mem, _) ← alloc mem proc (toInt regIndex) (toInt size)
  some (val, mem)

/-- `libfree` -/
def libfree (mem : Mem ι) (proc : ι) (regIndex : Nat) : Option (Int × Mem ι) :=
  free mem proc (toInt regIndex)

/-- `libread`: the return value and the byte, or an unassigned variable, that is
converted into `*destination`. -/
def libread (mem : Mem ι) (proc : ι) (source offset : Nat) :
    Option (Int × Mem ι × Option Byte) :=
  read mem proc (toInt source) (toInt offset)

/-- `libwrite` -/
def libwrite (mem : Mem ι) (proc : ι) (data : Byte) (destination offset : Nat) :
    Option (Int × Mem ι) :=
  write mem proc (toInt destination) (toInt offset) data

/-- The instructions that use the memory; the arguments are of type `uint32_t`. -/
inductive Inst
  | alloc (size regIndex : Nat)
  | free (regIndex : Nat)
  | read (source offset : Nat)
  | write (data : Byte) (destination offset : Nat)

/-- `run`: the memory after an instruction of a process. -/
def run (mem : Mem ι) (proc : ι) : Inst → Option (Mem ι)
  | .alloc size regIndex => (liballoc mem proc size regIndex).map (·.2)
  | .free regIndex => (libfree mem proc regIndex).map (·.2)
  | .read source offset => (libread mem proc source offset).map (·.2.1)
  | .write data destination offset => (libwrite mem proc data destination offset).map (·.2)

/-- An instruction of a process. -/
structure Event (ι : Type) where
  proc : ι
  inst : Inst

/-- The processes execute their instructions in any order. -/
def step (mem : Mem ι) (event : Event ι) : Option (Mem ι) :=
  run mem event.proc event.inst

end Memory
end Ossim
