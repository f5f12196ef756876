import Ossim.Memory.Access
import Ossim.Memory.FrameList

/-!
# The width of frame numbers

A page table entry keeps 13 bits of a frame number.  `PAGING_MEMRAMSZ` is the
size of the largest RAM that they can number, but `read_config` takes any size:
a larger RAM hands out frames that no entry can hold, and their pages share the
bytes of the frames 8192 places below.
-/

namespace Ossim
namespace Memory

open CInt Transition

/-- `MEMPHY_get_freefp` returns the frame, after some calls on the free list of a RAM
of this size. -/
def HandedOut (size fpn : Nat) : Prop :=
  ∃ use mp, Run frameStep anyEvent ⟨initMemphy size true, []⟩ use ∧
    memphyGetFreefp use.mp = some (some (fpn, mp))

/-- The last call of `vmap_page_range` on the address space mapped the page to the
frame: a page of the range, with no later one of the same number. -/
def PageOn (mm : Mm) (pgn : Pgn) (fpn : Nat) : Prop :=
  ∃ before addr pgnum frames pgit,
    vmapPageRange before addr pgnum frames = some mm ∧
      pgit < pgnum.toNat ∧ frames.nodes[pgit]? = some fpn ∧
      pagingPgn (addr + pgit * pagingPagesz) = pgn ∧
      ∀ later, pgit < later → later < pgnum.toNat →
        pagingPgn (addr + later * pagingPagesz) ≠ pgn

/-- An access of `caller` to a page on a handed-out frame is one to the bytes of the
frame, and shares none with a page of any process on another frame. -/
def Addressable {ι : Type} [DecidableEq ι] (caller : ι) (size : Nat) : Prop :=
  ∀ (mem : Mem ι) (pgn : Pgn) (fpn : Nat),
    mem.mram.rdmflg = true → mem.mram.maxsz = size →
    HandedOut size fpn → PageOn (mem.mm caller) pgn fpn →
    (∀ addr, pagingPgn addr = pgn →
      pgGetval mem caller addr =
          some (0, mem, some (mem.mram.storage (fpn * pagingPagesz + pagingOffst addr))) ∧
        ∀ value, pgSetval mem caller addr value =
          some (0, mem.setMram
            { mem.mram with
              storage := Function.update mem.mram.storage
                (fpn * pagingPagesz + pagingOffst addr) value })) ∧
      ∀ other pgn' fpn', HandedOut size fpn' → fpn' ≠ fpn → PageOn (mem.mm other) pgn' fpn' →
        ∀ addr addr', pagingPgn addr = pgn → pagingPgn addr' = pgn' →
          mem.cell caller addr ≠ mem.cell other addr'

/-! ## Frames that are handed out -/

/-- Every frame in use is one of the device. -/
theorem frames_of_run
    {size : Nat}
    {use : FrameUse}
    (run : Run frameStep anyEvent ⟨initMemphy size true, []⟩ use) :
    ∀ fpn ∈ use.mp.freeFpList.nodes ++ use.held, fpn < size / pagingPagesz := by
  refine run.invariant
    (fun use => ∀ fpn ∈ use.mp.freeFpList.nodes ++ use.held, fpn < size / pagingPagesz) ?_ ?_
  · intro use call next inRange _ stepped
    cases call with
    | get =>
        simp only [frameStep] at stepped
        split at stepped
        · cases stepped
        · cases stepped
          exact inRange
        · rename_i fpn mp taken
          cases stepped
          have nodes := (memphyGetFreefp_some taken).2
          intro other member
          apply inRange other
          rw [nodes]
          simp only [List.mem_append, List.mem_cons] at member ⊢
          tauto
    | put fpn =>
        simp only [frameStep] at stepped
        split at stepped
        · rename_i held
          cases stepped
          intro other member
          apply inRange other
          simp only [memphyPutFreefp, Chain.nodes_cons, List.mem_append,
            List.mem_cons] at member ⊢
          rcases member with (rfl | listed) | kept
          · exact Or.inr held
          · exact Or.inl listed
          · exact Or.inr (List.mem_of_mem_erase kept)
        · cases stepped
  · intro fpn member
    simp only [initMemphy, memphyFormat, List.append_nil] at member
    split at member
    · simp at member
    · simpa using member

/-- After as many gets as there are smaller frames, a frame stands first. -/
theorem run_of_gets
    {size fpn : Nat}
    (inRange : fpn < size / pagingPagesz) :
    ∃ use, Run frameStep anyEvent ⟨initMemphy size true, []⟩ use ∧
      use.mp.freeFpList.nodes =
        List.range' fpn (size / pagingPagesz - fpn) := by
  induction fpn with
  | zero =>
      refine ⟨_, Run.refl _, ?_⟩
      have paged : size / pagingPagesz ≠ 0 := by omega
      simp [initMemphy, memphyFormat, paged, List.range_eq_range']
  | succ fpn inductionHypothesis =>
      obtain ⟨use, run, nodes⟩ := inductionHypothesis (by omega)
      have count : size / pagingPagesz - fpn = (size / pagingPagesz - (fpn + 1)) + 1 := by
        omega
      rw [count, List.range'_succ] at nodes
      have taken := memphyGetFreefp_of_nodes nodes
      refine ⟨_, run.tail .get trivial (by rw [frameStep, taken]), rfl⟩

/-- The frames that a RAM hands out are those that it has. -/
theorem handedOut_iff
    {size fpn : Nat} :
    HandedOut size fpn ↔ fpn < size / pagingPagesz := by
  constructor
  · rintro ⟨use, mp, run, taken⟩
    apply frames_of_run run
    rw [(memphyGetFreefp_some taken).2]
    simp
  · intro inRange
    obtain ⟨use, run, nodes⟩ := run_of_gets inRange
    have count : size / pagingPagesz - fpn = (size / pagingPagesz - (fpn + 1)) + 1 := by
      omega
    rw [count, List.range'_succ] at nodes
    exact ⟨use, _, run, memphyGetFreefp_of_nodes nodes⟩

/-! ## Pages that are mapped -/

/-- The loop of `vmap_page_range` leaves the entries of the pages outside its range. -/
theorem pgd_vmapPages_of_ne
    {addr : Int}
    {left pgit : Nat}
    {frames : Chain Nat}
    {mm mm' : Mm}
    {pgn : Pgn}
    (mapped : vmapPages addr left pgit frames mm = some mm')
    (outside : ∀ later, pgit ≤ later → later < pgit + left →
      pagingPgn (addr + later * pagingPagesz) ≠ pgn) :
    mm'.pgd pgn = mm.pgd pgn := by
  induction left generalizing pgit frames mm with
  | zero =>
      cases mapped
      rfl
  | succ left inductionHypothesis =>
      simp only [vmapPages, Option.bind_eq_bind, Option.bind_eq_some_iff,
        checked_eq_some_iff] at mapped
      obtain ⟨pageAddr, ⟨rfl, _, _⟩, mapped⟩ := mapped
      split at mapped
      · rw [inductionHypothesis mapped fun later first last =>
          outside later (by omega) (by omega)]
        have different := outside pgit le_rfl (by omega)
        simp [Mm.mapPage, Mm.setPte, Mm.enlistPgnNode, different.symm]
      · split at mapped
        · cases mapped
          rfl
        · cases mapped
      · cases mapped

/-- The entry that the loop of `vmap_page_range` stores for a page of its range. -/
theorem pgd_vmapPages
    {addr : Int}
    {left pgit index fpn : Nat}
    {frames : Chain Nat}
    {mm mm' : Mm}
    (mapped : vmapPages addr left pgit frames mm = some mm')
    (inRange : index < left)
    (frame : frames.nodes[index]? = some fpn)
    (last : ∀ later, pgit + index < later → later < pgit + left →
      pagingPgn (addr + later * pagingPagesz) ≠
        pagingPgn (addr + (pgit + index : Nat) * pagingPagesz)) :
    ∃ pte, mm'.pgd (pagingPgn (addr + (pgit + index : Nat) * pagingPagesz)) =
      pteSetFpn pte fpn := by
  induction left generalizing pgit index frames mm with
  | zero => omega
  | succ left inductionHypothesis =>
      simp only [vmapPages, Option.bind_eq_bind, Option.bind_eq_some_iff,
        checked_eq_some_iff] at mapped
      obtain ⟨pageAddr, ⟨rfl, _, _⟩, mapped⟩ := mapped
      split at mapped
      · rename_i head rest nodes
        cases index with
        | zero =>
            simp only [nodes, List.getElem?_cons_zero, Option.some.injEq] at frame
            subst frame
            refine ⟨mm.pgd (pagingPgn (addr + pgit * pagingPagesz)), ?_⟩
            rw [Nat.add_zero] at last ⊢
            rw [pgd_vmapPages_of_ne mapped fun later first bound =>
              last later (by omega) (by omega)]
            simp [Mm.mapPage, Mm.setPte, Mm.enlistPgnNode]
        | succ index =>
            rw [nodes, List.getElem?_cons_succ] at frame
            have position : pgit + (index + 1) = pgit + 1 + index := by omega
            rw [position] at last ⊢
            exact inductionHypothesis mapped (by omega) frame
              fun later first bound => last later first (by omega)
      · rename_i nodes _
        simp [nodes] at frame
      · cases mapped

/-- The entry of a page on a frame. -/
theorem PageOn.pte
    {mm : Mm}
    {pgn : Pgn}
    {fpn : Nat}
    (pageOn : PageOn mm pgn fpn) :
    ∃ pte, mm.pgd pgn = pteSetFpn pte fpn := by
  obtain ⟨before, addr, pgnum, frames, pgit, mapped, inRange, frame, rfl, last⟩ := pageOn
  have stored : ∃ pte, mm.pgd (pagingPgn (addr + (0 + pgit : Nat) * pagingPagesz)) =
      pteSetFpn pte fpn :=
    pgd_vmapPages mapped inRange frame (by simpa using last)
  simpa using stored

/-- Every page can be put on a frame. -/
theorem pageOn_mapPage (mm : Mm) (fpn : Nat) :
    PageOn (mm.mapPage (pagingPgn 0) fpn) (pagingPgn 0) fpn := by
  refine ⟨mm, 0, 1, ⟨[fpn], false⟩, 0, ?_, by decide, rfl, by simp, ?_⟩
  · simp [vmapPageRange, vmapPages, checked]
  · intro later first bound
    simp only [Int.toNat_one] at bound
    omega

section Accesses

variable {ι : Type} [DecidableEq ι] {caller : ι} {size : Nat}

omit [DecidableEq ι] in
/-- The cell of an address on a page with a frame. -/
theorem cell_of_pageOn
    {mem : Mem ι}
    {addr : Int}
    {fpn : Nat}
    (pageOn : PageOn (mem.mm caller) (pagingPgn addr) fpn) :
    mem.cell caller addr = fpn % 2 ^ 13 * pagingPagesz + pagingOffst addr := by
  obtain ⟨pte, entry⟩ := pageOn.pte
  rw [Mem.cell, entry, pagingFpn_pteSetFpn, pagingPhyaddr_eq, pagingPagesz]

/-- An address on a page with a frame is accessed at its cell. -/
theorem pgGetval_of_pageOn
    {mem : Mem ι}
    {addr : Int}
    {fpn : Nat}
    (random : mem.mram.rdmflg = true)
    (pageOn : PageOn (mem.mm caller) (pagingPgn addr) fpn)
    (inRange : mem.cell caller addr < mem.mram.maxsz) :
    pgGetval mem caller addr =
        some (0, mem, some (mem.mram.storage (mem.cell caller addr))) ∧
      ∀ value, pgSetval mem caller addr value =
        some (0, mem.setMram
          { mem.mram with
            storage := Function.update mem.mram.storage (mem.cell caller addr) value }) := by
  obtain ⟨pte, entry⟩ := pageOn.pte
  have present : pagingPagePresent ((mem.mm caller).pgd (pagingPgn addr)) = true := by
    rw [entry, pagingPagePresent_pteSetFpn]
  refine ⟨pgGetval_of_present present
    (memphyRead_eq_some_iff.mpr ⟨random, inRange, rfl⟩), ?_⟩
  intro value
  rw [Mem.cell] at inRange ⊢
  simp [pgSetval, pgGetpage_of_present present, sysMemmap, memphyWrite, random, inRange]

/-- With at most 8192 frames no frame number is cut off. -/
theorem addressable_of_narrow
    (narrow : size / pagingPagesz ≤ 8192) :
    Addressable caller size := by
  intro mem pgn fpn random sameSize handedOut pageOn
  have inRange := handedOut_iff.mp handedOut
  refine ⟨?_, ?_⟩
  · rintro addr rfl
    have cell : mem.cell caller addr = fpn * pagingPagesz + pagingOffst addr := by
      rw [cell_of_pageOn pageOn, Nat.mod_eq_of_lt (by omega)]
    have inPage := pagingOffst_lt addr
    have fits : mem.cell caller addr < mem.mram.maxsz := by
      rw [cell, sameSize]
      simp only [pagingPagesz] at inRange ⊢
      omega
    rw [← cell]
    exact pgGetval_of_pageOn random pageOn fits
  · rintro other pgn' fpn' handedOut' different pageOn' addr addr' rfl rfl
    have inRange' := handedOut_iff.mp handedOut'
    have inPage := pagingOffst_lt addr
    have inPage' := pagingOffst_lt addr'
    rw [cell_of_pageOn pageOn, cell_of_pageOn pageOn', Nat.mod_eq_of_lt (by omega),
      Nat.mod_eq_of_lt (by omega)]
    simp only [pagingPagesz]
    omega

/-- A memory whose process has its first page on a frame. -/
def onFrame (caller : ι) (mem : Mem ι) (fpn : Nat) : Mem ι :=
  mem.setMm caller ((mem.mm caller).mapPage (pagingPgn 0) fpn)

/-- With more than 8192 frames, a page on the frame 8192 is one of the frame 0. -/
theorem not_addressable_of_wide
    (caller : ι)
    (wide : 8192 < size / pagingPagesz) :
    ¬ Addressable caller size := by
  intro addressable
  let device : Memphy :=
    { initMemphy size true with
      storage := Function.update (fun _ => 0) (8192 * pagingPagesz) 1 }
  let empty : Mem ι := ⟨device, fun _ => initMemphy 0 true, fun _ => Pcb.fresh⟩
  let mem : Mem ι := onFrame caller empty 8192
  have random : mem.mram.rdmflg = true := initMemphy_rdmflg size true
  have sameSize : mem.mram.maxsz = size := initMemphy_maxsz size true
  have pageOn : PageOn (mem.mm caller) (pagingPgn 0) 8192 := by
    have mapped := pageOn_mapPage (empty.mm caller) 8192
    simpa [mem, onFrame] using mapped
  have cell : mem.cell caller 0 = 0 := by
    rw [cell_of_pageOn pageOn]
    decide
  obtain ⟨claimed, _⟩ := (addressable mem (pagingPgn 0) 8192 random sameSize
    (handedOut_iff.mpr wide) pageOn).1 0 rfl
  have fits : mem.cell caller 0 < mem.mram.maxsz := by
    rw [cell, sameSize]
    by_contra empty
    have zero : size = 0 := by omega
    simp [zero] at wide
  obtain ⟨actual, _⟩ := pgGetval_of_pageOn random pageOn fits
  rw [actual] at claimed
  simp only [Option.some.injEq, Prod.mk.injEq, true_and, cell] at claimed
  have zero : mem.mram.storage 0 = 0 := by
    show Function.update (fun _ => (0 : Byte)) (8192 * pagingPagesz) 1 0 = 0
    rw [Function.update_of_ne (by decide)]
  have one : mem.mram.storage (8192 * pagingPagesz + pagingOffst 0) = 1 := by
    show Function.update (fun _ => (0 : Byte)) (8192 * pagingPagesz) 1
      (8192 * pagingPagesz + pagingOffst 0) = 1
    rw [show 8192 * pagingPagesz + pagingOffst 0 = 8192 * pagingPagesz by decide,
      Function.update_self]
  rw [zero, one] at claimed
  exact absurd claimed (by decide)

/-- Every frame of a RAM is addressable if and only if it has at most 8192 of them. -/
theorem addressable_iff (caller : ι) (size : Nat) :
    Addressable caller size ↔ size / pagingPagesz ≤ 8192 := by
  constructor
  · intro addressable
    by_contra wide
    exact not_addressable_of_wide caller (Nat.not_le.mp wide) addressable
  · exact addressable_of_narrow

end Accesses

/-- A RAM of one page more than `PAGING_MEMRAMSZ`. -/
theorem frame8192_not_addressable :
    ¬ ∀ size : Nat, Addressable () size := by
  intro addressable
  exact not_addressable_of_wide () (by decide) (addressable (2 ^ 21 + 256))

end Memory
end Ossim
