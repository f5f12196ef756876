import Ossim.Library.BitField
import Mathlib.Data.Fin.Basic

/-!
# Addresses and page table entries

The bit layouts of `mm.h`.  A virtual address has an offset in the bits 0 to 7
and a page number in the bits 8 to 21.  A page table entry has the flags
`PRESENT` and `SWAPPED` and holds either a frame number in the bits 0 to 12, or
a swap type in the bits 0 to 4 and a swap offset in the bits 5 to 25.  The two
readings share the low bits: decoding the frame number of a swapped entry
yields a number made of its swap type and swap offset.
-/

namespace Ossim
namespace Memory

open BitField

/-- A page table entry, of type `uint32_t`. -/
abbrev Pte := BitVec 32

/-- A page number; `pgd` has `PAGING_MAX_PGN` entries. -/
abbrev Pgn := Fin 16384

/-- A memory cell; `char` is signed. -/
abbrev Byte := BitVec 8

/-- `PAGING_PAGESZ` -/
def pagingPagesz : Nat := 256

/-! ## Masks -/

/-- `PAGING_PTE_PRESENT_MASK` -/
def pagingPtePresentMask : BitVec 32 := bit 32 31

/-- `PAGING_PTE_SWAPPED_MASK` -/
def pagingPteSwappedMask : BitVec 32 := bit 32 30

/-- `PAGING_PTE_FPN_MASK` -/
def pagingPteFpnMask : BitVec 32 := genmask 32 12 0

/-- `PAGING_PTE_SWPTYP_MASK` -/
def pagingPteSwptypMask : BitVec 32 := genmask 32 4 0

/-- `PAGING_PTE_SWPOFF_MASK` -/
def pagingPteSwpoffMask : BitVec 32 := genmask 32 25 5

/-- `PAGING_OFFST_MASK` -/
def pagingOffstMask : BitVec 32 := genmask 32 7 0

/-- `PAGING_PGN_MASK` -/
def pagingPgnMask : BitVec 32 := genmask 32 21 8

/-! ## Addresses -/

/-- `PAGING_OFFST(addr)` -/
def pagingOffst (addr : Int) : Nat :=
  (getval (BitVec.ofInt 32 addr) pagingOffstMask 0).toNat

theorem pgn_lt (addr : Int) :
    (getval (BitVec.ofInt 32 addr) pagingPgnMask 8).toNat < 16384 := by
  rw [pagingPgnMask, toNat_getval _ (by decide)]
  exact Nat.mod_lt _ (by decide)

/-- `PAGING_PGN(addr)` -/
def pagingPgn (addr : Int) : Pgn :=
  ⟨(getval (BitVec.ofInt 32 addr) pagingPgnMask 8).toNat, pgn_lt addr⟩

/-- `PAGING_PHYADDR(fpn, offst)` -/
def pagingPhyaddr (fpn offst : Nat) : Nat := (fpn <<< 8) + offst

@[simp] theorem pagingOffst_natCast (addr : Nat) :
    pagingOffst (addr : Int) = addr % 256 := by
  rw [pagingOffst, pagingOffstMask, toNat_getval _ (by decide), BitVec.ofInt_natCast,
    BitVec.toNat_ofNat]
  omega

theorem pagingOffst_lt (addr : Int) : pagingOffst addr < 256 := by
  rw [pagingOffst, pagingOffstMask, toNat_getval _ (by decide)]
  exact Nat.mod_lt _ (by decide)

@[simp] theorem pagingPgn_natCast_val (addr : Nat) :
    (pagingPgn (addr : Int)).val = addr / 256 % 16384 := by
  simp only [pagingPgn, pagingPgnMask]
  rw [toNat_getval _ (by decide), BitVec.ofInt_natCast, BitVec.toNat_ofNat]
  omega

theorem pagingPgn_val (addr : Int) :
    ((pagingPgn addr).val : Int) = addr / 256 % 16384 := by
  simp only [pagingPgn, pagingPgnMask]
  rw [toNat_getval _ (by decide), BitVec.toNat_ofInt]
  omega

/-- The page of a byte after the start of a page. -/
theorem pagingPgn_add
    {start : Int}
    (aligned : 256 ∣ start)
    (byte : Nat) :
    pagingPgn (start + byte) = pagingPgn (start + (byte / 256 : Nat) * 256) := by
  apply Fin.ext
  have left := pagingPgn_val (start + byte)
  have right := pagingPgn_val (start + (byte / 256 : Nat) * 256)
  omega

/-- The address of a cell of a page. -/
theorem exists_addr
    (pgn : Pgn)
    {offst : Nat}
    (inPage : offst < 256) :
    ∃ addr : Int, pagingPgn addr = pgn ∧ pagingOffst addr = offst := by
  refine ⟨((pgn.val * 256 + offst : Nat) : Int), ?_, ?_⟩
  · apply Fin.ext
    rw [pagingPgn_natCast_val]
    omega
  · rw [pagingOffst_natCast]
    omega

theorem pagingPhyaddr_eq (fpn offst : Nat) :
    pagingPhyaddr fpn offst = fpn * 256 + offst := by
  rw [pagingPhyaddr, Nat.shiftLeft_eq]

/-- Cells of different frames, or at different offsets, are different. -/
theorem pagingPhyaddr_injective
    {fpn fpn' offst offst' : Nat}
    (inPage : offst < 256)
    (inPage' : offst' < 256)
    (same : pagingPhyaddr fpn offst = pagingPhyaddr fpn' offst') :
    fpn = fpn' ∧ offst = offst' := by
  rw [pagingPhyaddr_eq, pagingPhyaddr_eq] at same
  omega

/-! ## Page table entries -/

/-- `PAGING_PAGE_PRESENT(pte)` -/
def pagingPagePresent (pte : Pte) : Bool := test pte pagingPtePresentMask

/-- The flag `SWAPPED` of an entry. -/
def pagingPageSwapped (pte : Pte) : Bool := test pte pagingPteSwappedMask

/-- `PAGING_PTE_SET_PRESENT(pte)` -/
def pagingPteSetPresent (pte : Pte) : Pte := setbit pte pagingPtePresentMask

/-- `PAGING_FPN(pte)` and `PAGING_PTE_FPN(pte)` -/
def pagingFpn (pte : Pte) : Nat := (getval pte pagingPteFpnMask 0).toNat

/-- `PAGING_PTE_SWP(pte)` -/
def pagingPteSwp (pte : Pte) : Nat := (getval pte pagingPteSwpoffMask 5).toNat

/-- `PAGING_SWPTYP(pte)` -/
def pagingSwptyp (pte : Pte) : Nat := (getval pte pagingPteSwptypMask 0).toNat

/-- `pte_set_swap`: the entry of a swapped page. -/
def pteSetSwap (pte : Pte) (swptyp : Int) (swpoff : Nat) : Pte :=
  let pte := setbit pte pagingPtePresentMask
  let pte := setbit pte pagingPteSwappedMask
  let pte := setval pte (BitVec.ofInt 32 swptyp) pagingPteSwptypMask 0
  setval pte (BitVec.ofNat 32 swpoff) pagingPteSwpoffMask 5

/-- `pte_set_fpn`: the entry of an online page. -/
def pteSetFpn (pte : Pte) (fpn : Nat) : Pte :=
  let pte := setbit pte pagingPtePresentMask
  let pte := clrbit pte pagingPteSwappedMask
  setval pte (BitVec.ofNat 32 fpn) pagingPteFpnMask 0

/-- The RAM frame of an online entry: `PRESENT` set and `SWAPPED` clear. -/
def onlineFrame (pte : Pte) : Option Nat :=
  if pagingPagePresent pte ∧ ¬ pagingPageSwapped pte then some (pagingFpn pte) else none

/-- The swap type and the swap offset of a swapped entry. -/
def swapSlot (pte : Pte) : Option (Nat × Nat) :=
  if pagingPagePresent pte ∧ pagingPageSwapped pte then
    some (pagingSwptyp pte, pagingPteSwp pte)
  else
    none

theorem pagingFpn_lt (pte : Pte) : pagingFpn pte < 2 ^ 13 := by
  rw [pagingFpn, pagingPteFpnMask, toNat_getval _ (by decide)]
  exact Nat.mod_lt _ (by decide)

theorem pagingPagePresent_eq (pte : Pte) :
    pagingPagePresent pte = pte.getLsbD 31 :=
  test_bit pte (by decide)

theorem pagingPageSwapped_eq (pte : Pte) :
    pagingPageSwapped pte = pte.getLsbD 30 :=
  test_bit pte (by decide)

@[simp] theorem pagingPagePresent_pteSetFpn (pte : Pte) (fpn : Nat) :
    pagingPagePresent (pteSetFpn pte fpn) = true := by
  simp only [pagingPagePresent_eq, pteSetFpn, pagingPteFpnMask, pagingPtePresentMask,
    pagingPteSwappedMask]
  rw [getLsbD_setval _ _ (by decide), getLsbD_clrbit _ (by decide),
    getLsbD_setbit _ (by decide)]
  simp

@[simp] theorem pagingPageSwapped_pteSetFpn (pte : Pte) (fpn : Nat) :
    pagingPageSwapped (pteSetFpn pte fpn) = false := by
  simp only [pagingPageSwapped_eq, pteSetFpn, pagingPteFpnMask, pagingPteSwappedMask]
  rw [getLsbD_setval _ _ (by decide), getLsbD_clrbit _ (by decide)]
  simp

@[simp] theorem pagingFpn_pteSetFpn (pte : Pte) (fpn : Nat) :
    pagingFpn (pteSetFpn pte fpn) = fpn % 2 ^ 13 := by
  simp only [pagingFpn, pteSetFpn, pagingPteFpnMask]
  rw [toNat_getval_setval _ _ (by decide), BitVec.toNat_ofNat]
  omega

@[simp] theorem pagingPagePresent_pteSetSwap (pte : Pte) (swptyp : Int) (swpoff : Nat) :
    pagingPagePresent (pteSetSwap pte swptyp swpoff) = true := by
  simp only [pagingPagePresent_eq, pteSetSwap, pagingPteSwptypMask, pagingPteSwpoffMask,
    pagingPtePresentMask, pagingPteSwappedMask]
  rw [getLsbD_setval _ _ (by decide), getLsbD_setval _ _ (by decide),
    getLsbD_setbit _ (by decide), getLsbD_setbit _ (by decide)]
  simp

@[simp] theorem pagingPageSwapped_pteSetSwap (pte : Pte) (swptyp : Int) (swpoff : Nat) :
    pagingPageSwapped (pteSetSwap pte swptyp swpoff) = true := by
  simp only [pagingPageSwapped_eq, pteSetSwap, pagingPteSwptypMask, pagingPteSwpoffMask,
    pagingPteSwappedMask]
  rw [getLsbD_setval _ _ (by decide), getLsbD_setval _ _ (by decide),
    getLsbD_setbit _ (by decide)]
  simp

theorem pagingSwptyp_pteSetSwap (pte : Pte) (swptyp : Int) (swpoff : Nat) :
    pagingSwptyp (pteSetSwap pte swptyp swpoff) = (swptyp % 32).toNat := by
  simp only [pagingSwptyp, pteSetSwap, pagingPteSwptypMask, pagingPteSwpoffMask]
  rw [getval_setval_disjoint _ _ (by decide) (by decide) (by decide),
    toNat_getval_setval _ _ (by decide), BitVec.toNat_ofInt]
  omega

@[simp] theorem pagingPteSwp_pteSetSwap (pte : Pte) (swptyp : Int) (swpoff : Nat) :
    pagingPteSwp (pteSetSwap pte swptyp swpoff) = swpoff % 2 ^ 21 := by
  simp only [pagingPteSwp, pteSetSwap, pagingPteSwpoffMask]
  rw [toNat_getval_setval _ _ (by decide), BitVec.toNat_ofNat]
  omega

/-- The frame number that a swapped entry decodes to. -/
theorem pagingFpn_pteSetSwap (pte : Pte) (swptyp swpoff : Nat) :
    pagingFpn (pteSetSwap pte swptyp swpoff) = 2 ^ 5 * (swpoff % 2 ^ 8) + swptyp % 2 ^ 5 := by
  simp only [pagingFpn, pteSetSwap, pagingPteFpnMask, pagingPteSwptypMask, pagingPteSwpoffMask]
  apply Nat.eq_of_testBit_eq
  intro index
  rw [BitVec.testBit_toNat, getLsbD_getval _ (by decide), getLsbD_setval _ _ (by decide),
    getLsbD_setval _ _ (by decide), BitVec.ofInt_natCast,
    Nat.testBit_two_pow_mul_add _ (Nat.mod_lt _ (by decide)), Nat.testBit_mod_two_pow,
    Nat.testBit_mod_two_pow, BitVec.getLsbD_ofNat, BitVec.getLsbD_ofNat, Nat.zero_add]
  by_cases inTyp : index < 5
  · have inFpn : index ≤ 12 := by omega
    have notInOff : ¬ (5 ≤ index ∧ index ≤ 25) := by omega
    have inTyp' : index ≤ 4 := by omega
    have inWord : index < 32 := by omega
    simp [inFpn, notInOff, inTyp, inTyp', inWord]
  · by_cases inFpn : index ≤ 12
    · have inOff : 5 ≤ index ∧ index ≤ 25 := by omega
      have inField : index - 5 < 8 := by omega
      have inWord : index - 5 < 32 := by omega
      simp [inFpn, inOff, inTyp, inField, inWord]
    · have notInField : ¬ index - 5 < 8 := by omega
      simp [inFpn, inTyp, notInField]

@[simp] theorem onlineFrame_pteSetFpn (pte : Pte) (fpn : Nat) :
    onlineFrame (pteSetFpn pte fpn) = some (fpn % 2 ^ 13) := by
  simp [onlineFrame]

@[simp] theorem swapSlot_pteSetFpn (pte : Pte) (fpn : Nat) :
    swapSlot (pteSetFpn pte fpn) = none := by
  simp [swapSlot]

@[simp] theorem onlineFrame_pteSetSwap (pte : Pte) (swptyp : Int) (swpoff : Nat) :
    onlineFrame (pteSetSwap pte swptyp swpoff) = none := by
  simp [onlineFrame]

/-- The slot that `pte_set_swap` records. -/
theorem swapSlot_pteSetSwap_int (pte : Pte) (swptyp : Int) (swpoff : Nat) :
    swapSlot (pteSetSwap pte swptyp swpoff) =
      some ((swptyp % 32).toNat, swpoff % 2 ^ 21) := by
  simp [swapSlot, pagingSwptyp_pteSetSwap]

@[simp] theorem swapSlot_pteSetSwap (pte : Pte) (swptyp swpoff : Nat) :
    swapSlot (pteSetSwap pte swptyp swpoff) = some (swptyp % 32, swpoff % 2 ^ 21) := by
  rw [swapSlot_pteSetSwap_int]
  congr 2

/-- Setting the flag `PRESENT` of a present entry changes nothing. -/
theorem pagingPteSetPresent_of_present
    {pte : Pte}
    (present : pagingPagePresent pte = true) :
    pagingPteSetPresent pte = pte := by
  apply BitVec.eq_of_getLsbD_eq
  intro index _
  rw [pagingPteSetPresent, pagingPtePresentMask, getLsbD_setbit _ (by decide)]
  by_cases here : index = 31
  · subst here
    simpa [pagingPagePresent_eq] using present
  · simp [here]

theorem onlineFrame_eq_some_iff
    {pte : Pte}
    {fpn : Nat} :
    onlineFrame pte = some fpn ↔
      pagingPagePresent pte = true ∧ pagingPageSwapped pte = false ∧ pagingFpn pte = fpn := by
  simp [onlineFrame, and_assoc]

theorem swapSlot_isSome_iff
    {pte : Pte} :
    (swapSlot pte).isSome ↔ pagingPagePresent pte = true ∧ pagingPageSwapped pte = true := by
  unfold swapSlot
  split
  · rename_i swapped
    simp [swapped]
  · rename_i notSwapped
    simpa using notSwapped

/-- The entry of a swapped page has no RAM frame. -/
theorem not_online_of_swapped
    {pte : Pte}
    (swapped : (swapSlot pte).isSome) :
    onlineFrame pte = none := by
  have flag := (swapSlot_isSome_iff.mp swapped).2
  simp [onlineFrame, flag]

/-- A present entry is that of an online or of a swapped page. -/
theorem present_iff_online_or_swapped (pte : Pte) :
    pagingPagePresent pte = true ↔ (onlineFrame pte).isSome ∨ (swapSlot pte).isSome := by
  rw [swapSlot_isSome_iff, onlineFrame]
  cases pagingPagePresent pte <;> cases pagingPageSwapped pte <;> simp

end Memory
end Ossim
