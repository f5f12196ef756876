import Ossim.Memory.Syscall

/-!
# The addresses of a call

The lists of all addresses that the functions give to `MEMPHY_read` and
`MEMPHY_write`, in order and up to undefined behaviour.  The lists follow the
functions of the source once more, for the addresses instead of the results.  An
address that is computed from a variable that was never assigned is not known,
and one for which the arithmetic would overflow is beyond the end of every
device.
-/

namespace Ossim
namespace Memory

open CInt

variable {ι : Type}

/-- A device that can be accessed. -/
inductive Device
  | ram
  | swap (device : Fin 4)
  deriving DecidableEq

/-- The device itself. -/
def Mem.device (mem : Mem ι) : Device → Memphy
  | .ram => mem.mram
  | .swap device => mem.mswp device

/-- An address given to `MEMPHY_read` or `MEMPHY_write` for a device. -/
structure Access where
  device : Device
  addr : Option Int
  deriving DecidableEq

/-- The address is one of the device, or the device has no random access, and the
functions return -1 without touching its storage. -/
def Inside (mem : Mem ι) (access : Access) : Prop :=
  (mem.device access.device).rdmflg = false ∨
    ∃ addr ∈ access.addr, 0 ≤ addr ∧ addr < (mem.device access.device).maxsz

/-- All accesses are inside their devices. -/
def AllInside (mem : Mem ι) (list : List Access) : Prop := ∀ access ∈ list, Inside mem access

/-! ## The lists -/

/-- A cell of a frame. -/
def cellAccess (device : Device) (fpn : Option Int) (cellidx : Nat) : Access where
  device := device
  addr := fpn.map fun fpn => fpn * pagingPagesz + cellidx

/-- `__swap_cp_page` -/
def swapCpAccesses (src : Device) (srcfpn : Option Int) (dst : Device) (dstfpn : Option Int) :
    List Access :=
  (List.range pagingPagesz).flatMap fun cellidx =>
    [cellAccess src srcfpn cellidx, cellAccess dst dstfpn cellidx]

/-- The search for a swap device in `alloc_pages_range`. -/
def swapOutAccesses (mswp : Fin 4 → Memphy) (victimFpn : Nat) : List (Fin 4) → List Access
  | [] => []
  | device :: others =>
      match memphyGetFreefp (mswp device) with
      | none => []
      | some none => swapOutAccesses mswp victimFpn others
      | some (some (swpfpn, _)) =>
          swapCpAccesses .ram (some victimFpn) (.swap device) (some swpfpn)

/-- An iteration of the loop of `alloc_pages_range`. -/
def allocPageAccesses (mem : Mem ι) (caller : ι) : List Access :=
  match memphyGetFreefp mem.mram with
  | some none =>
      match findVictimPage (mem.mm caller) with
      | none => []
      | some (victimPgn, mm) =>
          swapOutAccesses mem.mswp (pagingFpn (mm.pgd victimPgn))
            (swapOrder (mem.pcb caller).activeMswp)
  | _ => []

section Caller

variable [DecidableEq ι]

/-- `alloc_pages_range` -/
def allocPagesRangeAccesses (caller : ι) : Nat → Mem ι → Chain Nat → List Access
  | 0, _, _ => []
  | left + 1, mem, frmLst =>
      allocPageAccesses mem caller ++
        match allocPage mem caller frmLst with
        | none => []
        | some (rc, mem, frmLst) =>
            if rc < 0 then [] else allocPagesRangeAccesses caller left mem frmLst

/-- `inc_vma_limit`: mapping the pages accesses no device. -/
def incVmaLimitAccesses (mem : Mem ι) (caller : ι) (vmaid incSz : Int) : List Access :=
  match growthById (mem.mm caller) vmaid incSz with
  | none => []
  | some pages =>
      allocPagesRangeAccesses caller pages.toNat
        (mem.setMm caller ((mem.mm caller).setLimits (grownEnd (mem.mm caller) pages)
          (grownEnd (mem.mm caller) pages)))
        .null

/-- `__alloc` -/
def allocAccesses (mem : Mem ι) (caller : ι) (size : Int) : List Access :=
  match getFreeVmrgArea (mem.mm caller) size with
  | some none => incVmaLimitAccesses mem caller 0 size
  | _ => []

end Caller

/-- The frame of the oldest page; there may be no such page. -/
def victimFpn (mm : Mm) : Option Nat :=
  (findVictimPage mm).map fun victim => pagingFpn (mm.pgd victim.1)

/-- `pg_getpage` for a page that is not present: the copy of the victim, and the
copy that is meant to bring the page in. -/
def pgSwapInAccesses (mem : Mem ι) (caller : ι) (pgn : Pgn) : List Access :=
  let active := (mem.pcb caller).activeMswp
  let tgtfpn := pagingPteSwp ((mem.mm caller).pgd pgn)
  let vicfpn := (victimFpn (mem.mm caller)).map fun vicfpn => (vicfpn : Int)
  let swpfpn := (memphyGetFreefp (mem.mswp active)).join.map fun taken => (taken.1 : Int)
  swapCpAccesses .ram vicfpn (.swap active) swpfpn ++
    swapCpAccesses .ram (some tgtfpn) (.swap active) vicfpn

/-- `pg_getval` and `pg_setval` -/
def pgvalAccesses (mem : Mem ι) (caller : ι) (addr : Int) : List Access :=
  let pte := (mem.mm caller).pgd (pagingPgn addr)
  if pagingPagePresent pte then
    [⟨.ram, some (pagingPhyaddr (pagingFpn pte) (pagingOffst addr))⟩]
  else
    pgSwapInAccesses mem caller (pagingPgn addr) ++
      [⟨.ram, (victimFpn (mem.mm caller)).map fun vicfpn =>
        (pagingPhyaddr (pagingFpn (pagingPteSetPresent (pteSetFpn pte vicfpn)))
          (pagingOffst addr) : Int)⟩]

/-- `__read` and `__write`.  The index that is let through and not in the table
makes them compute with what lies behind it. -/
def regionAccesses (mem : Mem ι) (caller : ι) (rgid offset : Int) : List Access :=
  match getSymrgById (mem.mm caller) rgid with
  | none => [⟨.ram, none⟩]
  | some none => []
  | some (some currg) => pgvalAccesses mem caller (accessAddr currg offset)

variable [DecidableEq ι]

/-- `__sys_memmap` for the registers of a program. -/
def sysMemmapAccesses (mem : Mem ι) (caller : ι) (a1 a2 a3 : Nat) : List Access :=
  if toInt a1 = sysmemIncOp then
    incVmaLimitAccesses mem caller (toInt a2) (toInt a3)
  else if toInt a1 = sysmemSwpOp then
    swapCpAccesses .ram (some (toInt a2)) (.swap (mem.pcb caller).activeMswp) (some (toInt a3))
  else if toInt a1 = sysmemIoRead ∨ toInt a1 = sysmemIoWrite then
    [⟨.ram, some (toInt a2)⟩]
  else
    []

/-- `run` -/
def accesses (mem : Mem ι) (caller : ι) : Call → List Access
  | .inst (.alloc size _) => allocAccesses mem caller (toInt size)
  | .inst (.free _) => []
  | .inst (.read source offset) => regionAccesses mem caller (toInt source) (toInt offset)
  | .inst (.write _ destination offset) =>
      regionAccesses mem caller (toInt destination) (toInt offset)
  | .memmap a1 a2 a3 => sysMemmapAccesses mem caller a1 a2 a3

/-! ## Sizes -/

/-- The devices have the sizes and the modes that they had. -/
def SameSizes (mem mem' : Mem ι) : Prop :=
  ∀ device, (mem'.device device).maxsz = (mem.device device).maxsz ∧
    (mem'.device device).rdmflg = (mem.device device).rdmflg

variable {mem mem' : Mem ι} {caller : ι}

omit [DecidableEq ι] in
theorem SameSizes.refl (mem : Mem ι) : SameSizes mem mem := fun _ => ⟨rfl, rfl⟩

omit [DecidableEq ι] in
theorem SameSizes.trans
    {middle : Mem ι}
    (first : SameSizes mem middle)
    (second : SameSizes middle mem') :
    SameSizes mem mem' :=
  fun device => ⟨(second device).1.trans (first device).1, (second device).2.trans (first device).2⟩

omit [DecidableEq ι] in
theorem Inside.congr
    {access : Access}
    (same : SameSizes mem mem')
    (inside : Inside mem' access) :
    Inside mem access := by
  obtain ⟨maxsz, rdmflg⟩ := same access.device
  unfold Inside at inside
  rwa [maxsz, rdmflg] at inside

omit [DecidableEq ι] in
theorem AllInside.append
    {first second : List Access}
    (left : AllInside mem first)
    (right : AllInside mem second) :
    AllInside mem (first ++ second) := by
  intro access member
  rcases List.mem_append.mp member with inFirst | inSecond
  · exact left access inFirst
  · exact right access inSecond

omit [DecidableEq ι] in
/-- Replacing a swap device by one of the same size. -/
theorem SameSizes.setMswp
    {device : Fin 4}
    {mp : Memphy}
    (maxsz : mp.maxsz = (mem.mswp device).maxsz)
    (rdmflg : mp.rdmflg = (mem.mswp device).rdmflg) :
    SameSizes mem (mem.setMswp device mp) := by
  intro other
  cases other with
  | ram => exact ⟨rfl, rfl⟩
  | swap other =>
      by_cases same : other = device
      · subst same
        simp [Mem.device, maxsz, rdmflg]
      · simp [Mem.device, same]

/-- The address spaces do not matter. -/
theorem SameSizes.setMm
    (same : SameSizes mem mem')
    (caller : ι)
    (mm : Mm) :
    SameSizes mem (mem'.setMm caller mm) := by
  intro device
  cases device with
  | ram => exact same .ram
  | swap device => exact same (.swap device)

theorem Grabs.sameSizes
    {fpn : Nat}
    (grabs : Grabs mem caller fpn mem') :
    SameSizes mem mem' := by
  cases grabs with
  | taken fpn rest _ =>
      intro device
      cases device <;> exact ⟨rfl, rfl⟩
  | evicted victim younger device slot mp _ _ offers _ =>
      apply SameSizes.setMm
      exact SameSizes.setMswp (by rw [offers.keeps]) (by rw [offers.keeps])

/-! ## Calls that have a result -/

omit [DecidableEq ι] in
/-- A copy is inside when every cell of both frames is. -/
theorem allInside_swapCpAccesses
    {src dst : Device}
    {srcfpn dstfpn : Option Int}
    (reads : ∀ cell, cell < 256 → Inside mem (cellAccess src srcfpn cell))
    (writes : ∀ cell, cell < 256 → Inside mem (cellAccess dst dstfpn cell)) :
    AllInside mem (swapCpAccesses src srcfpn dst dstfpn) := by
  intro access member
  obtain ⟨cell, below, here⟩ := List.mem_flatMap.mp member
  have inPage : cell < 256 := by simpa [pagingPagesz] using below
  rcases List.mem_pair.mp here with rfl | rfl
  · exact reads cell inPage
  · exact writes cell inPage

omit [DecidableEq ι] in
theorem inside_cellAccess
    {device : Device}
    {fpn cell : Nat}
    (inside : fpn * pagingPagesz + cell < (mem.device device).maxsz) :
    Inside mem (cellAccess device (some fpn) cell) :=
  Or.inr ⟨((fpn * pagingPagesz + cell : Nat) : Int), by simp [cellAccess], by omega,
    Int.ofNat_lt.mpr inside⟩

omit [DecidableEq ι] in
/-- `__swap_cp_page` has a result only if it stays inside. -/
theorem allInside_of_swapCpPage
    {src dst : Device}
    {mpsrc mpdst mp : Memphy}
    {srcfpn dstfpn : Nat}
    (srcSize : mpsrc.maxsz = (mem.device src).maxsz)
    (dstSize : mpdst.maxsz = (mem.device dst).maxsz)
    (dstMode : mpdst.rdmflg = (mem.device dst).rdmflg)
    (copied : swapCpPage mpsrc srcfpn mpdst dstfpn = some mp) :
    AllInside mem (swapCpAccesses src (some srcfpn) dst (some dstfpn)) := by
  apply allInside_swapCpAccesses
  · intro cell inPage
    exact inside_cellAccess (srcSize ▸ ((swapCpCells_cases copied).2 cell inPage).2)
  · intro cell inPage
    rcases swapCpCells_writes copied inPage with sequential | inBounds
    · exact Or.inl (dstMode ▸ sequential)
    · exact inside_cellAccess (dstSize ▸ inBounds)

omit [DecidableEq ι] in
theorem allInside_of_swapOut
    {victimFpn : Nat}
    {devices : List (Fin 4)}
    {outcome : Option (Fin 4 × Nat × Mem ι)}
    (swapped : swapOut mem victimFpn devices = some outcome) :
    AllInside mem (swapOutAccesses mem.mswp victimFpn devices) := by
  induction devices with
  | nil => simp [AllInside, swapOutAccesses]
  | cons device others inductionHypothesis =>
      simp only [swapOut, Option.bind_eq_bind, Option.bind_eq_some_iff] at swapped
      obtain ⟨offer, asked, continued⟩ := swapped
      rw [swapOutAccesses, asked]
      cases offer with
      | none => exact inductionHypothesis continued
      | some taken =>
          obtain ⟨swpfpn, mp⟩ := taken
          obtain ⟨onlyList, _⟩ := memphyGetFreefp_some asked
          obtain ⟨copy, copied, _⟩ := Option.bind_eq_some_iff.mp continued
          exact allInside_of_swapCpPage rfl (by rw [onlyList]; rfl) (by rw [onlyList]; rfl) copied

theorem allInside_of_allocPage
    {frmLst : Chain Nat}
    {result : Int × Mem ι × Chain Nat}
    (allocated : allocPage mem caller frmLst = some result) :
    AllInside mem (allocPageAccesses mem caller) := by
  simp only [allocPage, Option.bind_eq_bind, Option.bind_eq_some_iff] at allocated
  obtain ⟨offer, asked, continued⟩ := allocated
  rw [allocPageAccesses, asked]
  cases offer with
  | some taken => simp [AllInside]
  | none =>
      cases found : findVictimPage (mem.mm caller) with
      | none => simp [AllInside]
      | some victim =>
          obtain ⟨victimPgn, mm⟩ := victim
          simp only [found, Option.bind_eq_some_iff, Mem.activeMswp_setMm] at continued
          obtain ⟨_, _, outcome, swapped, _⟩ := continued
          -- the search reads the devices, which are those before the victim left the list
          exact fun access member =>
            (allInside_of_swapOut swapped access member).congr (SameSizes.refl mem)

theorem allInside_of_allocPagesRange
    {left : Nat}
    {frmLst : Chain Nat}
    {result : Int × Mem ι × Chain Nat}
    (allocated : allocPagesRange caller left mem frmLst = some result) :
    AllInside mem (allocPagesRangeAccesses caller left mem frmLst) := by
  induction left generalizing mem frmLst with
  | zero => simp [AllInside, allocPagesRangeAccesses]
  | succ left inductionHypothesis =>
      simp only [allocPagesRange, Option.bind_eq_bind, Option.bind_eq_some_iff] at allocated
      obtain ⟨⟨rc, middle, listed⟩, page, continued⟩ := allocated
      rw [allocPagesRangeAccesses]
      refine (allInside_of_allocPage page).append ?_
      rw [page]
      rcases allocPage_cases page with ⟨rfl, fpn, grabs, _⟩ | ⟨failed, _⟩
      · simp only [lt_self_iff_false, if_false] at continued ⊢
        exact fun access member =>
          (inductionHypothesis continued access member).congr grabs.sameSizes
      · simp [AllInside, failed]

theorem allInside_of_incVmaLimit
    {vmaid incSz : Int}
    {result : Int × Mem ι}
    (grown : incVmaLimitById mem caller vmaid incSz = some result) :
    AllInside mem (incVmaLimitAccesses mem caller vmaid incSz) := by
  obtain ⟨rc, after⟩ := result
  rcases incVmaLimitById_cases grown with ⟨_, refused, _⟩ | ⟨_, pages, mapped, grows, ranged, _⟩
  · simp [AllInside, incVmaLimitAccesses, refused]
  · simp only [vmMapRam, Option.bind_eq_bind, Option.bind_eq_some_iff] at ranged
    obtain ⟨_, allocated, _⟩ := ranged
    rw [incVmaLimitAccesses, grows]
    exact fun access member =>
      (allInside_of_allocPagesRange allocated access member).congr (SameSizes.refl mem)

/-- A system call that copies a page has a result only if it stays inside. -/
theorem allInside_of_swp
    {vicfpn swpfpn : Nat}
    {regs : SysResult ι}
    (same : SameSizes mem mem')
    (sameActive : (mem'.pcb caller).activeMswp = (mem.pcb caller).activeMswp)
    (called : sysMemmap mem' caller (.swp vicfpn swpfpn) = some regs) :
    AllInside mem
      (swapCpAccesses .ram (some vicfpn) (.swap (mem.pcb caller).activeMswp) (some swpfpn)) := by
  simp only [sysMemmap, mmSwapPage, Option.bind_eq_bind, Option.bind_eq_some_iff] at called
  obtain ⟨_, ⟨_, copied, _⟩, _⟩ := called
  rw [← sameActive]
  exact allInside_of_swapCpPage (same .ram).1 (same (.swap _)).1 (same (.swap _)).2 copied

omit [DecidableEq ι] in
/-- The frame of the oldest page. -/
theorem victimFpn_of_oldest
    {mm : Mm}
    {younger : List Pgn}
    {victim : Pgn}
    (oldest : mm.fifoPgn = younger ++ [victim]) :
    victimFpn mm = some (pagingFpn (mm.pgd victim)) := by
  have found := findVictimPage_eq_some_iff.mpr ⟨younger, oldest, rfl⟩
  simp [victimFpn, found]

theorem allInside_of_pgSwapIn
    {pgn : Pgn}
    {result : Int × Mem ι × Option Nat}
    (accessed : pgSwapIn mem caller pgn = some result) :
    AllInside mem (pgSwapInAccesses mem caller pgn) ∧
      ∃ vicfpn, victimFpn (mem.mm caller) = some vicfpn := by
  obtain ⟨victim, younger, slot, mp, first, _, _, _, oldest, asked, firstCall, firstCopy,
    secondCall, _⟩ := pgSwapIn_calls accessed
  obtain ⟨onlyList, _⟩ := memphyGetFreefp_some asked
  have found := victimFpn_of_oldest oldest
  -- between the copies the devices keep their sizes
  have listed : SameSizes mem (mem.setMswp (mem.pcb caller).activeMswp mp) :=
    SameSizes.setMswp (by rw [onlyList]) (by rw [onlyList])
  have copied : SameSizes mem (mem.setMswp (mem.pcb caller).activeMswp first) :=
    SameSizes.setMswp (by rw [firstCopy, onlyList]) (by rw [firstCopy, onlyList])
  refine ⟨?_, _, found⟩
  simp only [pgSwapInAccesses, found, asked, Option.join_some, Option.map_some]
  exact (allInside_of_swp (listed.setMm _ _) (by simp) firstCall).append
    (allInside_of_swp (copied.setMm _ _) (by simp) secondCall)

/-- The frame number that the entry of a page brought in decodes to. -/
theorem pagingFpn_pageIn (pte : Pte) {vicfpn : Nat} (narrow : vicfpn < 2 ^ 13) :
    pagingFpn (pagingPteSetPresent (pteSetFpn pte vicfpn)) = vicfpn := by
  rw [pagingPteSetPresent_of_present (by simp), pagingFpn_pteSetFpn, Nat.mod_eq_of_lt narrow]

/-- An access to a byte has a result only if it stays inside. -/
theorem allInside_of_pgGetpage
    {addr rc : Int}
    {fpn : Nat}
    (accessed : pgGetpage mem caller (pagingPgn addr) = some (rc, mem', some fpn))
    (inside : Inside mem' ⟨.ram, some (pagingPhyaddr fpn (pagingOffst addr))⟩) :
    AllInside mem (pgvalAccesses mem caller addr) := by
  obtain ⟨_, ⟨present, rfl, sameFpn⟩ | ⟨absent, vicfpn, pageIn, sameFpn⟩⟩ :=
    pgGetpage_cases accessed
  · rw [pgvalAccesses, if_pos present, ← Option.some.inj sameFpn]
    simpa [AllInside] using inside
  · have swappedIn : pgSwapIn mem caller (pagingPgn addr) = some (rc, mem', some fpn) := by
      simpa [pgGetpage, absent] using accessed
    obtain rfl := Option.some.inj sameFpn
    rw [pgvalAccesses, if_neg (by simp [absent])]
    refine (allInside_of_pgSwapIn swappedIn).1.append ?_
    cases pageIn with
    | replaced victim younger slot mp oldest _ _ =>
        intro access member
        rw [List.mem_singleton.mp member, victimFpn_of_oldest oldest, Option.map_some,
          pagingFpn_pageIn _ (pagingFpn_lt _)]
        exact inside

omit [DecidableEq ι] in
theorem allInside_nil (mem : Mem ι) : AllInside mem [] := by
  simp [AllInside]

omit [DecidableEq ι] in
theorem regionAccesses_of_invalid
    {rgid : Int}
    (offset : Int)
    (invalid : rgid < 0 ∨ rgid > 30) :
    regionAccesses mem caller rgid offset = [] := by
  rw [regionAccesses, getSymrgById, pagingMaxSymtblSz, if_pos invalid]

omit [DecidableEq ι] in
theorem regionAccesses_of_index
    {rgid : Int}
    {index : Fin 30}
    (offset : Int)
    (slot : rgid = index.val) :
    regionAccesses mem caller rgid offset =
      pgvalAccesses mem caller (accessAddr ((mem.mm caller).symrgtbl index) offset) := by
  have valid : ¬(rgid < 0 ∨ rgid > 30) := by omega
  rw [regionAccesses, getSymrgById, pagingMaxSymtblSz, if_neg valid,
    symrgIndex_eq_some_iff.mpr slot]

/-- `ALLOC` has a result only if it stays inside. -/
theorem allInside_of_liballoc
    {size regIndex : Nat}
    {result : Int × Mem ι}
    (allocated : liballoc mem caller size regIndex = some result) :
    AllInside mem (allocAccesses mem caller (toInt size)) := by
  simp only [liballoc, alloc, Option.bind_eq_bind, Option.bind_eq_some_iff] at allocated
  obtain ⟨_, ⟨found, searched, continued⟩, _⟩ := allocated
  rw [allocAccesses, searched]
  cases found with
  | some hit => exact allInside_nil mem
  | none =>
      simp only [sysMemmap, Option.bind_eq_bind, Option.bind_eq_some_iff] at continued
      obtain ⟨_, ⟨_, grown, _⟩, _⟩ := continued
      rw [← incVmaLimitById_zero] at grown
      exact allInside_of_incVmaLimit grown

/-- A system call of a program has a result only if it stays inside. -/
theorem allInside_of_sysMemmapRegs
    {a1 a2 a3 : Nat}
    (called : sysMemmapRegs mem caller a1 a2 a3 = some mem') :
    AllInside mem (sysMemmapAccesses mem caller a1 a2 a3) := by
  have natural {reg number : Nat} (valid : operand reg = some number) :
      toInt reg = number := by
    unfold operand at valid
    split at valid
    · cases valid
    · have value := Option.some.inj valid
      omega
  unfold sysMemmapRegs at called
  unfold sysMemmapAccesses
  split at called
  case isTrue inc =>
    obtain ⟨_, grown, _⟩ := Option.map_eq_some_iff.mp called
    rw [if_pos inc]
    exact allInside_of_incVmaLimit grown
  rename_i notInc
  rw [if_neg notInc]
  split at called
  case isTrue swp =>
    simp only [mmSwapPage, Option.bind_eq_bind, Option.bind_eq_some_iff] at called
    obtain ⟨vicfpn, second, swpfpn, third, _, copied, _⟩ := called
    rw [if_pos swp, natural second, natural third]
    exact allInside_of_swapCpPage rfl rfl rfl copied
  rename_i notSwp
  rw [if_neg notSwp]
  split at called
  case isTrue ioRead =>
    simp only [Option.bind_eq_bind, Option.bind_eq_some_iff] at called
    obtain ⟨addr, second, _, loaded, _⟩ := called
    rw [if_pos (Or.inl ioRead), natural second]
    intro access member
    rw [List.mem_singleton.mp member]
    exact Or.inr ⟨_, rfl, by omega, Int.ofNat_lt.mpr (memphyRead_eq_some_iff.mp loaded).2.1⟩
  rename_i notRead
  split at called
  case isTrue ioWrite =>
    simp only [Option.bind_eq_bind, Option.bind_eq_some_iff] at called
    obtain ⟨addr, second, _, stored, _⟩ := called
    rw [if_pos (Or.inr ioWrite), natural second]
    intro access member
    rw [List.mem_singleton.mp member]
    rcases (memphyWrite_cases stored).2 with ⟨_, inBounds, _⟩ | ⟨sequential, _⟩
    · exact Or.inr ⟨_, rfl, by omega, Int.ofNat_lt.mpr inBounds⟩
    · exact Or.inl sequential
  case isFalse notWrite =>
    rw [if_neg (not_or.mpr ⟨notRead, notWrite⟩)]
    exact allInside_nil mem

/-- Whenever a call has a result, all its accesses are inside: the result `none`
of the model includes every access outside a device. -/
theorem allInside_of_runCall
    {call : Call}
    (called : runCall mem caller call = some mem') :
    AllInside mem (accesses mem caller call) := by
  cases call with
  | memmap a1 a2 a3 => exact allInside_of_sysMemmapRegs called
  | inst inst =>
      have ran : run mem caller inst = some mem' := called
      cases inst with
      | alloc size regIndex =>
          obtain ⟨_, allocated, _⟩ := Option.map_eq_some_iff.mp ran
          exact allInside_of_liballoc allocated
      | free regIndex => exact allInside_nil mem
      | read source offset =>
          rcases run_read_cases ran with ⟨invalid, _⟩ | ⟨index, slot, code, byte, getval⟩
          · rw [accesses, regionAccesses_of_invalid _ invalid]
            exact allInside_nil mem
          · obtain ⟨fpn, _, page, loaded, _⟩ := pgGetval_cases getval
            rw [accesses, regionAccesses_of_index _ slot]
            refine allInside_of_pgGetpage page (Or.inr ⟨_, rfl, ?_, ?_⟩)
            · omega
            · exact Int.ofNat_lt.mpr (memphyRead_eq_some_iff.mp loaded).2.1
      | write data destination offset =>
          rcases run_write_cases ran with ⟨invalid, _⟩ | ⟨index, slot, code, setval⟩
          · rw [accesses, regionAccesses_of_invalid _ invalid]
            exact allInside_nil mem
          · obtain ⟨fpn, middle, mram, page, stored, _, _⟩ := pgSetval_cases setval
            rw [accesses, regionAccesses_of_index _ slot]
            apply allInside_of_pgGetpage page
            rcases (memphyWrite_cases stored).2 with ⟨_, inBounds, _⟩ | ⟨sequential, _⟩
            · exact Or.inr ⟨_, rfl, by omega, Int.ofNat_lt.mpr inBounds⟩
            · exact Or.inl sequential

end Memory
end Ossim
