import Ossim.Memory.Growth

/-!
# System calls of a program

`SYSCALL 17` passes three operands of a program on to `sys_memmap` as its
registers.  Together with the instructions of the memory library these are the
ways in which a program reaches the memory.
-/

namespace Ossim
namespace Memory

open CInt

variable {ι : Type}

/-- `SYSMEM_INC_OP` -/
def sysmemIncOp : Int := 2

/-- `SYSMEM_SWP_OP` -/
def sysmemSwpOp : Int := 3

/-- `SYSMEM_IO_READ` -/
def sysmemIoRead : Int := 4

/-- `SYSMEM_IO_WRITE` -/
def sysmemIoWrite : Int := 5

/-- A number of a frame or a cell in a register; a negative one is outside every
device. -/
def operand (reg : Nat) : Option Nat :=
  if toInt reg < 0 then none else some (toInt reg).toNat

variable [DecidableEq ι]

/-- `__sys_memmap` for any registers.  `SYSMEM_MAP_OP` does nothing, and an
unknown operation is only reported. -/
def sysMemmapRegs (mem : Mem ι) (caller : ι) (a1 a2 a3 : Nat) : Option (Mem ι) :=
  if toInt a1 = sysmemIncOp then
    (incVmaLimitById mem caller (toInt a2) (toInt a3)).map (·.2)
  else if toInt a1 = sysmemSwpOp then do
    mmSwapPage mem caller (← operand a2) (← operand a3)
  else if toInt a1 = sysmemIoRead then do
    let _ ← memphyRead mem.mram (← operand a2)
    some mem
  else if toInt a1 = sysmemIoWrite then do
    let mram ← memphyWrite mem.mram (← operand a2) (BitVec.ofNat 8 a3)
    some (mem.setMram mram)
  else
    some mem

/-- What an instruction of a program asks of the memory. -/
inductive Call
  | inst (inst : Inst)
  | memmap (a1 a2 a3 : Nat)

/-- `run`, for the instructions of the library and for `SYSCALL 17`. -/
def runCall (mem : Mem ι) (proc : ι) : Call → Option (Mem ι)
  | .inst inst => run mem proc inst
  | .memmap a1 a2 a3 => sysMemmapRegs mem proc a1 a2 a3

/-- A call of a process. -/
structure CallEvent (ι : Type) where
  proc : ι
  call : Call

/-- The processes execute their programs in any order. -/
def callStep (mem : Mem ι) (event : CallEvent ι) : Option (Mem ι) :=
  runCall mem event.proc event.call

/-! ## What a system call changes -/

/-- Nothing but the contents of the devices has changed. -/
structure SameButStorage (mem mem' : Mem ι) : Prop where
  pcb : mem'.pcb = mem.pcb
  mram : mem'.mram = { mem.mram with storage := mem'.mram.storage }
  mswp : ∀ device, mem'.mswp device =
    { mem.mswp device with storage := (mem'.mswp device).storage }

variable {mem mem' : Mem ι} {caller : ι}

omit [DecidableEq ι] in
theorem SameButStorage.refl (mem : Mem ι) : SameButStorage mem mem :=
  ⟨rfl, rfl, fun _ => rfl⟩

omit [DecidableEq ι] in
theorem SameButStorage.mm
    (same : SameButStorage mem mem')
    (proc : ι) :
    mem'.mm proc = mem.mm proc := by
  rw [Mem.mm, Mem.mm, same.pcb]

omit [DecidableEq ι] in
/-- Copying a page to a swap device. -/
theorem SameButStorage.setMswp
    {device : Fin 4}
    {mp : Memphy}
    (onlyStorage : mp = { mem.mswp device with storage := mp.storage }) :
    SameButStorage mem (mem.setMswp device mp) where
  pcb := rfl
  mram := rfl
  mswp := by
    intro other
    by_cases same : other = device
    · subst same
      rw [Mem.mswp_setMswp_self]
      exact onlyStorage
    · rw [Mem.mswp_setMswp_of_ne _ _ same]

/-- A system call grows the area, or changes the contents of the devices. -/
theorem sysMemmapRegs_cases
    {a1 a2 a3 : Nat}
    (called : sysMemmapRegs mem caller a1 a2 a3 = some mem') :
    SameButStorage mem mem' ∨
      toInt a1 = sysmemIncOp ∧
        ∃ rc, incVmaLimitById mem caller (toInt a2) (toInt a3) = some (rc, mem') := by
  unfold sysMemmapRegs at called
  split at called
  case isTrue inc =>
    obtain ⟨⟨rc, after⟩, grown, rfl⟩ := Option.map_eq_some_iff.mp called
    exact .inr ⟨inc, rc, grown⟩
  split at called
  case isTrue _ =>
    simp only [mmSwapPage, Option.bind_eq_bind, Option.bind_eq_some_iff,
      Option.some.injEq] at called
    obtain ⟨_, _, _, _, mp, copied, rfl⟩ := called
    exact .inl (SameButStorage.setMswp (swapCpPage_cases copied).1)
  split at called
  case isTrue _ =>
    simp only [Option.bind_eq_bind, Option.bind_eq_some_iff, Option.some.injEq] at called
    obtain ⟨_, _, _, _, rfl⟩ := called
    exact .inl (SameButStorage.refl mem)
  split at called
  case isTrue _ =>
    simp only [Option.bind_eq_bind, Option.bind_eq_some_iff, Option.some.injEq] at called
    obtain ⟨_, _, mram, written, rfl⟩ := called
    exact .inl ⟨rfl, (memphyWrite_cases written).1, fun _ => rfl⟩
  case isFalse _ =>
    cases called
    exact .inl (SameButStorage.refl mem)

end Memory
end Ossim
