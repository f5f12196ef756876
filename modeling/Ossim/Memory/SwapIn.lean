import Ossim.Memory.Growth

/-!
# Bringing a page in

`pg_getpage` for a page that is not present.  A victim gives up its RAM frame and
gets a frame of the active swap device; then the page is to be copied from its
swap frame to the RAM frame.  `__mm_swap_page` takes two frame numbers and no
direction, and always copies from the RAM to the swap device.

The function ignores the return codes of `find_victim_page` and of
`MEMPHY_get_freefp`, and goes on with whatever its variables hold.
-/

namespace Ossim
namespace Memory

namespace SwapIn

variable {ι : Type} [DecidableEq ι]

/-- `pg_getpage` from the choice of the victim and of its swap frame on. -/
def replacePage (mem : Mem ι) (caller : ι) (pgn vicpgn : Pgn) (swpfpn : Nat) :
    Option (Int × Mem ι × Option Nat) := do
  let pte := (mem.mm caller).pgd pgn
  let tgtfpn := pagingPteSwp pte
  let vicpte := (mem.mm caller).pgd vicpgn
  let vicfpn := pagingFpn vicpte
  let regs ← sysMemmap mem caller (.swp vicfpn swpfpn)
  if regs.rc ≠ 0 then
    some (-1, regs.mem, none)
  else
    let regs ← sysMemmap regs.mem caller (.swp tgtfpn vicfpn)
    if regs.rc ≠ 0 then
      some (-1, regs.mem, none)
    else
      let mem := regs.mem
      let vicpte := pteSetSwap vicpte (mem.pcb caller).activeMswpId swpfpn
      let pte := pagingPteSetPresent (pteSetFpn pte vicfpn)
      let mm := ((mem.mm caller).setPte vicpgn vicpte).setPte pgn pte
      some (0, mem.setMm caller (mm.enlistPgnNode pgn), some (pagingFpn pte))

variable {mem mem' : Mem ι} {caller : ι} {pgn vicpgn victim : Pgn} {swpfpn : Nat}

/-- The page table after the replacement, with the page in front of the list. -/
def replacedMm (mem : Mem ι) (caller : ι) (pgn vicpgn : Pgn) (swpfpn : Nat) : Mm :=
  ((((mem.mm caller).setPte vicpgn (pteSetSwap ((mem.mm caller).pgd vicpgn)
    (mem.pcb caller).activeMswpId swpfpn)).setPte pgn (pteSetFpn ((mem.mm caller).pgd pgn)
      (pagingFpn ((mem.mm caller).pgd vicpgn))))).enlistPgnNode pgn

/-- Both copies go from the RAM to the active swap device. -/
theorem replacePage_eq (mem : Mem ι) (caller : ι) (pgn vicpgn : Pgn) (swpfpn : Nat) :
    replacePage mem caller pgn vicpgn swpfpn =
      (swapCpPage mem.mram (pagingFpn ((mem.mm caller).pgd vicpgn))
          (mem.mswp (mem.pcb caller).activeMswp) swpfpn).bind fun first =>
        (swapCpPage mem.mram (pagingPteSwp ((mem.mm caller).pgd pgn)) first
            (pagingFpn ((mem.mm caller).pgd vicpgn))).bind fun second =>
          some (0, (mem.setMswp (mem.pcb caller).activeMswp second).setMm caller
              (replacedMm mem caller pgn vicpgn swpfpn),
            some (pagingFpn ((mem.mm caller).pgd vicpgn))) := by
  have mark : pagingPteSetPresent
      (pteSetFpn ((mem.mm caller).pgd pgn) (pagingFpn ((mem.mm caller).pgd vicpgn))) =
      pteSetFpn ((mem.mm caller).pgd pgn) (pagingFpn ((mem.mm caller).pgd vicpgn)) :=
    pagingPteSetPresent_of_present (by simp)
  have narrow := Nat.mod_eq_of_lt (pagingFpn_lt ((mem.mm caller).pgd vicpgn))
  simp only [replacePage, sysMemmap, mmSwapPage, Option.bind_eq_bind, Option.bind_assoc,
    Option.bind_some, ne_eq, not_true_eq_false, if_false, Mem.pcb_setMswp, Mem.mram_setMswp,
    Mem.mswp_setMswp_self, Mem.setMswp_setMswp, Mem.mm_setMswp, mark, pagingFpn_pteSetFpn,
    narrow]
  rfl

/-- `pg_getpage` with a victim and a free frame of the active swap device. -/
theorem pgSwapIn_eq_replacePage
    {younger : List Pgn}
    {rest : List Nat}
    (oldest : (mem.mm caller).fifoPgn = younger ++ [victim])
    (free : (mem.mswp (mem.pcb caller).activeMswp).freeFpList.nodes = swpfpn :: rest) :
    pgSwapIn mem caller pgn =
      replacePage
        ((mem.setMswp (mem.pcb caller).activeMswp
          { mem.mswp (mem.pcb caller).activeMswp with
            freeFpList :=
              ⟨rest, (mem.mswp (mem.pcb caller).activeMswp).freeFpList.wild⟩ }).setMm caller
          { mem.mm caller with fifoPgn := younger })
        caller pgn victim swpfpn := by
  have found := findVictimPage_eq_some_iff.mpr ⟨younger, oldest, rfl⟩
  have taken := memphyGetFreefp_of_nodes free
  simp only [pgSwapIn, found, Option.bind_eq_bind, Mem.activeMswp_setMm, Mem.mswp_setMm, taken,
    Option.bind_some, replacePage, Mem.setMswp_setMm, Mem.mm_setMm_self]

/-! ## What the page-in restores -/

/-- The page `pgn` is not present and its entry names the swap frame `slot`; the
oldest page is online in the frame `fpn`; and the active swap device has the other
frame `spare` to offer. -/
structure Pending (mem : Mem ι) (caller : ι) (pgn : Pgn) (slot fpn spare : Nat) : Prop where
  absent : pagingPagePresent ((mem.mm caller).pgd pgn) = false
  recorded : pagingPteSwp ((mem.mm caller).pgd pgn) = slot
  oldest : ∃ younger victim, (mem.mm caller).fifoPgn = younger ++ [victim] ∧
    onlineFrame ((mem.mm caller).pgd victim) = some fpn
  free : ∃ rest, (mem.mswp (mem.pcb caller).activeMswp).freeFpList.nodes = spare :: rest
  other : spare ≠ slot
  random : mem.mram.rdmflg = true ∧ (mem.mswp (mem.pcb caller).activeMswp).rdmflg = true
  frames : fpn < mem.mram.maxsz / pagingPagesz ∧
    spare < (mem.mswp (mem.pcb caller).activeMswp).maxsz / pagingPagesz

/-- `pg_getpage` returns 0 and the frame of the victim.  This frame holds what the
swap frame of the page held, the free swap frame holds what the RAM frame held, and
the other frames are as before. -/
def Restores (mem : Mem ι) (caller : ι) (pgn : Pgn) (slot fpn spare : Nat) : Prop :=
  ∃ mem' found, pgGetpage mem caller pgn = some (0, mem', some found) ∧ found = fpn ∧
    mem'.mram.frame found = (mem.mswp (mem.pcb caller).activeMswp).frame slot ∧
    (mem'.mswp (mem.pcb caller).activeMswp).frame spare = mem.mram.frame fpn ∧
    (∀ other, other ≠ found → mem'.mram.frame other = mem.mram.frame other) ∧
    ∀ device other, ¬ (device = (mem.pcb caller).activeMswp ∧ other = spare) →
      (mem'.mswp device).frame other = (mem.mswp device).frame other

/-- The RAM has a frame with the number of the swap frame, and the active swap
device one with that of the RAM frame.  The RAM frame holds the page already; and
the second copy changes no byte, that is, the RAM frame with the number of the swap
frame has the bytes that its destination is to have. -/
def Coincides (mem : Mem ι) (caller : ι) (slot fpn spare : Nat) : Prop :=
  slot < mem.mram.maxsz / pagingPagesz ∧
    fpn < (mem.mswp (mem.pcb caller).activeMswp).maxsz / pagingPagesz ∧
    mem.mram.frame fpn = (mem.mswp (mem.pcb caller).activeMswp).frame slot ∧
    mem.mram.frame slot =
      if fpn = spare then mem.mram.frame fpn
      else (mem.mswp (mem.pcb caller).activeMswp).frame fpn

variable {slot fpn spare : Nat}

/-- A copy of the RAM frame `fpn` to the free frame, and then one of the RAM frame `slot`
to the frame with the number `fpn`; these two exist, or the second copy has no result. -/
theorem twoCopies_cases
    {mram mp : Memphy}
    (slot : Nat)
    (ramRandom : mram.rdmflg = true)
    (swapRandom : mp.rdmflg = true)
    (ramFrame : fpn < mram.maxsz / pagingPagesz)
    (swapFrame : spare < mp.maxsz / pagingPagesz) :
    ∃ first, swapCpPage mram fpn mp spare = some first ∧
      ((swapCpPage mram slot first fpn = none ∧
          ¬ (slot < mram.maxsz / pagingPagesz ∧ fpn < mp.maxsz / pagingPagesz)) ∨
        ∃ second, swapCpPage mram slot first fpn = some second ∧
          slot < mram.maxsz / pagingPagesz ∧ fpn < mp.maxsz / pagingPagesz ∧
          second.frame = Function.update (Function.update mp.frame spare (mram.frame fpn)) fpn
            (mram.frame slot)) := by
  obtain ⟨first, firstCopy⟩ : ∃ first, swapCpPage mram fpn mp spare = some first :=
    swapCpPage_of_frames ramRandom swapRandom ramFrame swapFrame
  have keeps := (swapCpPage_cases firstCopy).1
  have firstRandom : first.rdmflg = true := by
    rw [keeps]
    exact swapRandom
  have firstSize : first.maxsz = mp.maxsz := by rw [keeps]
  refine ⟨first, firstCopy, ?_⟩
  rw [← firstSize]
  cases secondCopy : swapCpPage mram slot first fpn with
  | none =>
      refine .inl ⟨rfl, fun inBounds => ?_⟩
      obtain ⟨second, copied⟩ :=
        swapCpPage_of_frames ramRandom firstRandom inBounds.1 inBounds.2
      rw [copied] at secondCopy
      cases secondCopy
  | some second =>
      obtain ⟨slotFrame, targetFrame⟩ := frames_of_swapCpPage firstRandom secondCopy
      refine .inr ⟨second, rfl, slotFrame, targetFrame, ?_⟩
      rw [frame_swapCpPage firstRandom secondCopy, frame_swapCpPage swapRandom firstCopy]

/-- The RAM keeps its contents.  The active swap device gets two frames of the RAM,
the victim's in the free frame and another one in the frame with the number of the
victim's; these exist, or the access has no result. -/
theorem Pending.pgGetpage_cases
    (pending : Pending mem caller pgn slot fpn spare) :
    (pgGetpage mem caller pgn = none ∧
        ¬ (slot < mem.mram.maxsz / pagingPagesz ∧
          fpn < (mem.mswp (mem.pcb caller).activeMswp).maxsz / pagingPagesz)) ∨
      ∃ mem', pgGetpage mem caller pgn = some (0, mem', some fpn) ∧
        slot < mem.mram.maxsz / pagingPagesz ∧
        fpn < (mem.mswp (mem.pcb caller).activeMswp).maxsz / pagingPagesz ∧
        mem'.mram = mem.mram ∧
        (mem'.mswp (mem.pcb caller).activeMswp).frame =
          Function.update
            (Function.update (mem.mswp (mem.pcb caller).activeMswp).frame spare
              (mem.mram.frame fpn)) fpn (mem.mram.frame slot) ∧
        ∀ device, device ≠ (mem.pcb caller).activeMswp → mem'.mswp device = mem.mswp device := by
  obtain ⟨absent, recorded, ⟨younger, victim, oldest, online⟩, ⟨rest, free⟩, _,
    ⟨ramRandom, swapRandom⟩, ramFrame, swapFrame⟩ := pending
  obtain ⟨_, _, decoded⟩ := onlineFrame_eq_some_iff.mp online
  let offered : Memphy :=
    { mem.mswp (mem.pcb caller).activeMswp with
      freeFpList := ⟨rest, (mem.mswp (mem.pcb caller).activeMswp).freeFpList.wild⟩ }
  have offeredRandom : offered.rdmflg = true := swapRandom
  have swapIn : pgGetpage mem caller pgn = pgSwapIn mem caller pgn := by
    simp [pgGetpage, absent]
  rw [swapIn, pgSwapIn_eq_replacePage oldest free, replacePage_eq]
  simp only [Mem.mram_setMm, Mem.mram_setMswp, Mem.mm_setMm_self, Mem.activeMswp_setMm,
    Mem.pcb_setMswp, Mem.mswp_setMm, Mem.mswp_setMswp_self, decoded, recorded]
  obtain ⟨first, firstCopy, ⟨secondCopy, outOfBounds⟩ |
      ⟨second, secondCopy, slotFrame, targetFrame, copied⟩⟩ :=
    twoCopies_cases slot ramRandom offeredRandom ramFrame swapFrame
  · rw [firstCopy, Option.bind_some, secondCopy]
    exact .inl ⟨rfl, outOfBounds⟩
  · rw [firstCopy, Option.bind_some, secondCopy]
    refine .inr ⟨_, rfl, slotFrame, targetFrame, by simp, ?_, ?_⟩
    · simp only [Mem.mswp_setMm, Mem.setMswp_setMm, Mem.setMswp_setMswp, Mem.mswp_setMswp_self]
      exact copied
    · intro device different
      simp [different]

omit [DecidableEq ι] in
/-- The frames of the swap devices are as they should be when one frame of the active
device has changed. -/
theorem swapped_iff_update
    {content : Fin 256 → Byte}
    (sameSwap : ∀ device, device ≠ (mem.pcb caller).activeMswp →
      mem'.mswp device = mem.mswp device) :
    ((mem'.mswp (mem.pcb caller).activeMswp).frame spare = content ∧
        ∀ device other, ¬ (device = (mem.pcb caller).activeMswp ∧ other = spare) →
          (mem'.mswp device).frame other = (mem.mswp device).frame other) ↔
      (mem'.mswp (mem.pcb caller).activeMswp).frame =
        Function.update (mem.mswp (mem.pcb caller).activeMswp).frame spare content := by
  rw [Function.eq_update_iff]
  apply and_congr_right
  intro _
  constructor
  · intro others other different
    exact others _ other fun both => different both.2
  · intro others device other untouched
    by_cases active : device = (mem.pcb caller).activeMswp
    · subst active
      exact others other fun same => untouched ⟨rfl, same⟩
    · rw [sameSwap device active]

/-- Page-in restores the page exactly when the contents of the devices coincide
already. -/
theorem restores_iff_coincides
    (pending : Pending mem caller pgn slot fpn spare) :
    Restores mem caller pgn slot fpn spare ↔ Coincides mem caller slot fpn spare := by
  rcases pending.pgGetpage_cases with ⟨undefined, outOfBounds⟩ |
    ⟨mem', returned, slotFrame, targetFrame, sameRam, swapped, sameSwap⟩
  · constructor
    · rintro ⟨_, _, returned, _⟩
      rw [undefined] at returned
      cases returned
    · rintro ⟨slotFrame, targetFrame, _⟩
      exact absurd ⟨slotFrame, targetFrame⟩ outOfBounds
  · -- the second copy changes nothing exactly if its source has the bytes of its target
    have kept : (mem'.mswp (mem.pcb caller).activeMswp).frame =
          Function.update (mem.mswp (mem.pcb caller).activeMswp).frame spare
            (mem.mram.frame fpn) ↔
        mem.mram.frame slot = if fpn = spare then mem.mram.frame fpn
          else (mem.mswp (mem.pcb caller).activeMswp).frame fpn := by
      rw [swapped, Function.update_eq_self_iff, Function.update_apply]
    rw [← swapped_iff_update sameSwap] at kept
    constructor
    · rintro ⟨_, _, again, rfl, broughtIn, broughtOut, _, others⟩
      rw [returned] at again
      cases again
      rw [sameRam] at broughtIn
      exact ⟨slotFrame, targetFrame, broughtIn, kept.mp ⟨broughtOut, others⟩⟩
    · rintro ⟨_, _, broughtIn, copied⟩
      obtain ⟨broughtOut, others⟩ := kept.mpr copied
      rw [← sameRam] at broughtIn
      exact ⟨mem', fpn, returned, rfl, broughtIn, broughtOut, fun _ _ => by rw [sameRam], others⟩

/-- Page 0 is online in the frame 0 of a RAM of two frames, and page 1 was evicted to
the frame 1 of the swap device. -/
def onePageOut : Mem (Fin 1) where
  mram := { initMemphy 512 true with freeFpList := Chain.null }
  mswp _ :=
    { initMemphy 1024 true with
      storage := fun addr => if addr / 256 = 1 then 7 else 0
      freeFpList := ⟨[2, 3], false⟩ }
  pcb _ :=
    { Pcb.fresh with
      mm :=
        { Mm.fresh with
          pgd := fun pgn =>
            if pgn = 0 then pteSetFpn 0 0
            else if pgn = 1 then BitField.clrbit (pteSetSwap 0 0 1) pagingPtePresentMask
            else 0
          fifoPgn := [0] } }

theorem onePageOut_pending : Pending onePageOut 0 1 1 0 2 where
  absent := by decide
  recorded := by decide
  oldest := ⟨[], 0, rfl, by decide⟩
  free := ⟨[3], rfl⟩
  other := by decide
  random := by decide
  frames := by decide

theorem restores_iff_coincides_onePageOut :
    Restores onePageOut 0 1 1 0 2 ↔ Coincides onePageOut 0 1 0 2 :=
  restores_iff_coincides onePageOut_pending

/-- Page 1 gets the RAM frame 0, which still holds the bytes of page 0. -/
theorem not_restores_onePageOut :
    Pending onePageOut 0 1 1 0 2 ∧ ¬ Restores onePageOut 0 1 1 0 2 ∧
      ∃ mem', pgGetpage onePageOut 0 1 = some (0, mem', some 0) ∧
        mem'.mram.frame 0 = onePageOut.mram.frame 0 ∧
        onePageOut.mram.frame 0 0 = 0 ∧ (onePageOut.mswp 0).frame 1 0 = 7 := by
  have oldByte : onePageOut.mram.frame 0 0 = 0 := by decide
  have newByte : (onePageOut.mswp 0).frame 1 0 = 7 := by decide
  rcases onePageOut_pending.pgGetpage_cases with
    ⟨_, outOfBounds⟩ | ⟨mem', returned, _, _, sameRam, _⟩
  · exact absurd (by decide) outOfBounds
  · refine ⟨onePageOut_pending, ?_, mem', returned, by rw [sameRam], oldByte, newByte⟩
    rintro ⟨_, _, again, rfl, broughtIn, _⟩
    rw [returned] at again
    cases again
    rw [sameRam] at broughtIn
    have sameByte : (0 : Byte) = 7 := oldByte.symm.trans ((congrFun broughtIn 0).trans newByte)
    exact absurd sameByte (by decide)

/-! ## When nothing can be replaced -/

/-- What the variables `vicpgn` and `swpfpn` of `pg_getpage` hold before they are
assigned. -/
structure Locals where
  vicpgn : Int
  swpfpn : Int

/-- An index of `pgd`, as far as it is one. -/
def pgdIndex (pgn : Int) : Option Pgn :=
  if inTable : 0 ≤ pgn ∧ pgn < 16384 then some ⟨pgn.toNat, by omega⟩ else none

/-- `pg_getpage` with the values of its variables: the return codes of
`find_victim_page` and of `MEMPHY_get_freefp` are ignored, and a call that fails
leaves its variable as it is. -/
def pgGetpageFrom (locals : Locals) (mem : Mem ι) (caller : ι) (pgn : Pgn) :
    Option (Int × Mem ι × Option Nat) :=
  let pte := (mem.mm caller).pgd pgn
  if pagingPagePresent pte then
    some (0, mem, some (pagingFpn pte))
  else do
    let (vicpgn, mem) :=
      match findVictimPage (mem.mm caller) with
      | some (vicpgn, mm) => ((vicpgn.val : Int), mem.setMm caller mm)
      | none => (locals.vicpgn, mem)
    let active := (mem.pcb caller).activeMswp
    let (swpfpn, mem) :=
      match ← memphyGetFreefp (mem.mswp active) with
      | some (swpfpn, mp) => ((swpfpn : Int), mem.setMswp active mp)
      | none => (locals.swpfpn, mem)
    let vicpgn ← pgdIndex vicpgn
    -- a negative frame number leads outside the device
    if swpfpn < 0 then none else replacePage mem caller pgn vicpgn swpfpn.toNat

/-- `pg_getval` with the values of these variables. -/
def pgGetvalFrom (locals : Locals) (mem : Mem ι) (caller : ι) (addr : Int) :
    Option (Int × Mem ι × Option Byte) := do
  let (rc, mem, fpn) ← pgGetpageFrom locals mem caller (pagingPgn addr)
  if rc ≠ 0 then
    some (-1, mem, none)
  else
    let fpn ← fpn
    let regs ← sysMemmap mem caller (.ioRead (pagingPhyaddr fpn (pagingOffst addr)))
    if regs.rc ≠ 0 then
      some (-1, regs.mem, none)
    else
      some (0, regs.mem, regs.a3)

/-- `pg_setval` with the values of these variables. -/
def pgSetvalFrom (locals : Locals) (mem : Mem ι) (caller : ι) (addr : Int) (value : Byte) :
    Option (Int × Mem ι) := do
  let (rc, mem, fpn) ← pgGetpageFrom locals mem caller (pagingPgn addr)
  if rc ≠ 0 then
    some (-1, mem)
  else
    let fpn ← fpn
    let regs ← sysMemmap mem caller (.ioWrite (pagingPhyaddr fpn (pagingOffst addr)) value)
    if regs.rc ≠ 0 then
      some (-1, regs.mem)
    else
      some (0, regs.mem)

variable {locals : Locals} {addr : Int} {value : Byte}

theorem pgdIndex_val (pgn : Pgn) : pgdIndex pgn.val = some pgn := by
  have := pgn.isLt
  simp [pgdIndex, this]

/-- Where `pg_getpage` has a result, its variables are assigned before they are
used, so their first values do not matter. -/
theorem pgGetpageFrom_of_pgGetpage
    {result : Int × Mem ι × Option Nat}
    (accessed : pgGetpage mem caller pgn = some result)
    (locals : Locals) :
    pgGetpageFrom locals mem caller pgn = some result := by
  simp only [pgGetpage] at accessed
  simp only [pgGetpageFrom]
  split at accessed
  · rename_i present
    rw [if_pos present, accessed]
  · rename_i absent
    rw [if_neg absent]
    cases found : findVictimPage (mem.mm caller) with
    | none => simp [pgSwapIn, found] at accessed
    | some victim =>
        obtain ⟨vicpgn, mm⟩ := victim
        simp only [pgSwapIn, found, Option.bind_eq_bind, Mem.activeMswp_setMm, Mem.mswp_setMm]
          at accessed
        simp only [Mem.activeMswp_setMm, Mem.mswp_setMm, Option.bind_eq_bind]
        obtain ⟨offer, asked, continued⟩ := Option.bind_eq_some_iff.mp accessed
        rw [asked, Option.bind_some]
        cases offer with
        | none => cases continued
        | some taken =>
            obtain ⟨swpfpn, mp⟩ := taken
            obtain ⟨_, _, rfl⟩ := findVictimPage_eq_some_iff.mp found
            simp only [pgdIndex_val, Option.bind_some, Int.toNat_natCast]
            rw [if_neg (by omega), ← continued]
            simp [replacePage]

theorem pgGetvalFrom_of_pgGetval
    {result : Int × Mem ι × Option Byte}
    (accessed : pgGetval mem caller addr = some result)
    (locals : Locals) :
    pgGetvalFrom locals mem caller addr = some result := by
  simp only [pgGetval, Option.bind_eq_bind] at accessed
  obtain ⟨page, found, continued⟩ := Option.bind_eq_some_iff.mp accessed
  simp only [pgGetvalFrom, pgGetpageFrom_of_pgGetpage found locals, Option.bind_eq_bind,
    Option.bind_some, continued]

theorem pgSetvalFrom_of_pgSetval
    {result : Int × Mem ι}
    (accessed : pgSetval mem caller addr value = some result)
    (locals : Locals) :
    pgSetvalFrom locals mem caller addr value = some result := by
  simp only [pgSetval, Option.bind_eq_bind] at accessed
  obtain ⟨page, found, continued⟩ := Option.bind_eq_some_iff.mp accessed
  simp only [pgSetvalFrom, pgGetpageFrom_of_pgGetpage found locals, Option.bind_eq_bind,
    Option.bind_some, continued]

/-- A replacement returns 0; the page is then present, and the first of the list. -/
theorem replacePage_cases
    {rc : Int}
    {found : Option Nat}
    (replaced : replacePage mem caller pgn vicpgn swpfpn = some (rc, mem', found)) :
    rc = 0 ∧ found.isSome ∧ pagingPagePresent ((mem'.mm caller).pgd pgn) = true ∧
      (mem'.mm caller).fifoPgn = pgn :: (mem.mm caller).fifoPgn := by
  rw [replacePage_eq] at replaced
  obtain ⟨first, _, replaced⟩ := Option.bind_eq_some_iff.mp replaced
  obtain ⟨second, _, replaced⟩ := Option.bind_eq_some_iff.mp replaced
  simp only [Option.some.injEq, Prod.mk.injEq] at replaced
  obtain ⟨rfl, rfl, rfl⟩ := replaced
  refine ⟨rfl, rfl, ?_, ?_⟩
  · rw [Mem.mm_setMm_self, replacedMm, Mm.enlistPgnNode_pgd, Mm.setPte_pgd_self,
      pagingPagePresent_pteSetFpn]
  · rw [Mem.mm_setMm_self, replacedMm, Mm.enlistPgnNode_fifoPgn, Mm.setPte_fifoPgn,
      Mm.setPte_fifoPgn]

/-- An access to a page that is not present does not fail, whatever the variables
hold: it returns 0 and the page is present. -/
theorem pgGetpageFrom_cases
    {rc : Int}
    {found : Option Nat}
    (absent : pagingPagePresent ((mem.mm caller).pgd pgn) = false)
    (accessed : pgGetpageFrom locals mem caller pgn = some (rc, mem', found)) :
    rc = 0 ∧ found.isSome ∧ pagingPagePresent ((mem'.mm caller).pgd pgn) = true := by
  simp only [pgGetpageFrom, absent, Bool.false_eq_true, if_false, Option.bind_eq_bind,
    Option.bind_eq_some_iff, Option.ite_none_left_eq_some] at accessed
  obtain ⟨_, _, vicpgn, _, _, replaced⟩ := accessed
  obtain ⟨code, isSome, present, _⟩ := replacePage_cases replaced
  exact ⟨code, isSome, present⟩

theorem sysMemmap_rc
    {memop : Memop}
    {regs : SysResult ι}
    (called : sysMemmap mem caller memop = some regs) :
    regs.rc = 0 := by
  cases memop <;>
    simp only [sysMemmap, Option.bind_eq_bind, Option.bind_eq_some_iff, Option.some.injEq] at called
  case map =>
    rw [← called]
  all_goals
    obtain ⟨_, _, rfl⟩ := called
    rfl

theorem pgGetvalFrom_cases
    {rc : Int}
    {data : Option Byte}
    (absent : pagingPagePresent ((mem.mm caller).pgd (pagingPgn addr)) = false)
    (accessed : pgGetvalFrom locals mem caller addr = some (rc, mem', data)) :
    rc = 0 := by
  simp only [pgGetvalFrom, Option.bind_eq_bind, Option.bind_eq_some_iff] at accessed
  obtain ⟨⟨code, middle, found⟩, page, continued⟩ := accessed
  obtain ⟨rfl, _, _⟩ := pgGetpageFrom_cases absent page
  simp only [ne_eq, not_true_eq_false, if_false, Option.bind_eq_some_iff] at continued
  obtain ⟨_, _, regs, called, final⟩ := continued
  simp only [sysMemmap_rc called, not_true_eq_false, if_false, Option.some.injEq,
    Prod.mk.injEq] at final
  exact final.1.symm

theorem pgSetvalFrom_cases
    {rc : Int}
    (absent : pagingPagePresent ((mem.mm caller).pgd (pagingPgn addr)) = false)
    (accessed : pgSetvalFrom locals mem caller addr value = some (rc, mem')) :
    rc = 0 := by
  simp only [pgSetvalFrom, Option.bind_eq_bind, Option.bind_eq_some_iff] at accessed
  obtain ⟨⟨code, middle, found⟩, page, continued⟩ := accessed
  obtain ⟨rfl, _, _⟩ := pgGetpageFrom_cases absent page
  simp only [ne_eq, not_true_eq_false, if_false, Option.bind_eq_some_iff] at continued
  obtain ⟨_, _, regs, called, final⟩ := continued
  simp only [sysMemmap_rc called, not_true_eq_false, if_false, Option.some.injEq,
    Prod.mk.injEq] at final
  exact final.1.symm

/-- The caller has no page to evict, or the active swap device no free frame. -/
def Stuck (mem : Mem ι) (caller : ι) : Prop :=
  (mem.mm caller).fifoPgn = [] ∨
    (mem.mswp (mem.pcb caller).activeMswp).freeFpList.nodes = []

/-- The page table and the page list of the caller are as before, and so are the
free lists and the contents of the devices. -/
structure LeavesAll (mem : Mem ι) (caller : ι) (mem' : Mem ι) : Prop where
  pgd : (mem'.mm caller).pgd = (mem.mm caller).pgd
  fifoPgn : (mem'.mm caller).fifoPgn = (mem.mm caller).fifoPgn
  mramFree : mem'.mram.freeFpList = mem.mram.freeFpList
  mswpFree : ∀ device, (mem'.mswp device).freeFpList = (mem.mswp device).freeFpList
  mram : mem'.mram.storage = mem.mram.storage
  mswp : ∀ device, (mem'.mswp device).storage = (mem.mswp device).storage

/-- `pg_getpage` returns an error and leaves all as it is; then `pg_getval` and
`pg_setval` return -1, and leave it too. -/
structure FailsCleanly (locals : Locals) (mem : Mem ι) (caller : ι) (pgn : Pgn) : Prop where
  getpage : ∃ rc mem' found, pgGetpageFrom locals mem caller pgn = some (rc, mem', found) ∧
    rc ≠ 0 ∧ LeavesAll mem caller mem'
  getval : ∀ addr, pagingPgn addr = pgn → ∃ mem',
    pgGetvalFrom locals mem caller addr = some (-1, mem', none) ∧ LeavesAll mem caller mem'
  setval : ∀ addr value, pagingPgn addr = pgn → ∃ mem',
    pgSetvalFrom locals mem caller addr value = some (-1, mem') ∧ LeavesAll mem caller mem'

/-- With nothing to replace no access fails cleanly.  Whatever the variables hold,
`pg_getpage`, `pg_getval` and `pg_setval` do not return an error; and some values
lead outside an array. -/
theorem never_failsCleanly
    (absent : pagingPagePresent ((mem.mm caller).pgd pgn) = false)
    (stuck : Stuck mem caller) :
    (∀ locals, ¬ FailsCleanly locals mem caller pgn) ∧
      (∀ locals rc mem' found,
        pgGetpageFrom locals mem caller pgn = some (rc, mem', found) → rc = 0) ∧
      (∀ locals addr rc mem' data, pagingPgn addr = pgn →
        pgGetvalFrom locals mem caller addr = some (rc, mem', data) → rc = 0) ∧
      (∀ locals addr value rc mem', pagingPgn addr = pgn →
        pgSetvalFrom locals mem caller addr value = some (rc, mem') → rc = 0) ∧
      ∃ locals, pgGetpageFrom locals mem caller pgn = none := by
  refine ⟨?clean, ?getpage, ?getval, ?setval, ?outside⟩
  case clean =>
    rintro locals ⟨⟨rc, mem', found, accessed, failed, _⟩, _, _⟩
    exact failed (pgGetpageFrom_cases absent accessed).1
  case getpage => exact fun locals rc mem' found accessed => (pgGetpageFrom_cases absent accessed).1
  case getval =>
    rintro locals addr rc mem' data rfl accessed
    exact pgGetvalFrom_cases absent accessed
  case setval =>
    rintro locals addr value rc mem' rfl accessed
    exact pgSetvalFrom_cases absent accessed
  case outside =>
    refine ⟨⟨-1, -1⟩, ?_⟩
    simp only [pgGetpageFrom, absent, Bool.false_eq_true, if_false, Option.bind_eq_bind,
      Option.bind_eq_none_iff]
    intro offer asked vicpgn index
    rcases stuck with empty | full
    · rw [findVictimPage_eq_none_iff.mpr empty] at index
      cases offer <;> cases index
    · cases offer with
      | none => exact if_pos (show (-1 : Int) < 0 by decide)
      | some taken =>
          have offered : memphyGetFreefp (mem.mswp (mem.pcb caller).activeMswp) =
              some (some taken) := by
            cases found : findVictimPage (mem.mm caller) <;> simpa [found] using asked
          rw [(memphyGetFreefp_some offered).2] at full
          cases full

/-- A process reads before it has allocated anything. -/
theorem never_failsCleanly_twoFrames :
    (∀ locals, ¬ FailsCleanly locals twoFrames 0 0) ∧
      (∀ locals rc mem' found,
        pgGetpageFrom locals twoFrames 0 0 = some (rc, mem', found) → rc = 0) ∧
      (∀ locals addr rc mem' data, pagingPgn addr = 0 →
        pgGetvalFrom locals twoFrames 0 addr = some (rc, mem', data) → rc = 0) ∧
      (∀ locals addr value rc mem', pagingPgn addr = 0 →
        pgSetvalFrom locals twoFrames 0 addr value = some (rc, mem') → rc = 0) ∧
      ∃ locals, pgGetpageFrom locals twoFrames 0 0 = none :=
  never_failsCleanly (by decide) (.inl rfl)

/-- If the variable happens to hold 0, the access of this process returns 0, takes a
frame of the swap device and lists the page. -/
theorem unassigned_victim :
    (twoFrames.mm 0).fifoPgn = [] ∧ pagingPagePresent ((twoFrames.mm 0).pgd 0) = false ∧
      ¬ FailsCleanly ⟨0, 0⟩ twoFrames 0 0 ∧
      ∃ mem', pgGetpageFrom ⟨0, 0⟩ twoFrames 0 0 = some (0, mem', some 0) ∧
        (mem'.mm 0).fifoPgn = [0] ∧ (mem'.mswp 0).freeFpList.nodes = [1, 2, 3] := by
  obtain ⟨⟨rc, mem', found⟩, accessed, evaluated⟩ := Option.map_eq_some_iff.mp
    (show (pgGetpageFrom ⟨0, 0⟩ twoFrames 0 0).map (fun result =>
      decide (result.1 = 0 ∧ result.2.2 = some 0 ∧ (result.2.1.mm 0).fifoPgn = [0] ∧
        (result.2.1.mswp 0).freeFpList.nodes = [1, 2, 3])) = some true by decide +kernel)
  obtain ⟨rfl, rfl, list, free⟩ := of_decide_eq_true evaluated
  refine ⟨rfl, by decide, ?_, mem', accessed, list, free⟩
  rintro ⟨⟨rc, after, found, again, failed, _⟩, _, _⟩
  rw [accessed] at again
  cases again
  exact failed rfl

end SwapIn
end Memory
end Ossim
