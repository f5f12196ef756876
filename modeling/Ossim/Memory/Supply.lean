import Ossim.Memory.Syscall

/-!
# How many pages can be mapped

`alloc_pages_range` takes the free frames of the RAM, and after them the frames
of the caller's own pages as long as a swap device has a free frame for the
evicted page.  A request is met exactly when it does not exceed this supply,
and every page of a met request has an entry afterwards.
-/

namespace Ossim
namespace Memory

open CInt

variable {ι : Type}

/-- The free frames of all swap devices. -/
def freeSlots (mem : Mem ι) : Nat :=
  ((List.finRange 4).map fun device => (mem.mswp device).freeFpList.nodes.length).sum

/-- The frames that a process can get. -/
def available (mem : Mem ι) (caller : ι) : Nat :=
  mem.mram.freeFpList.nodes.length + min (mem.mm caller).fifoPgn.length (freeSlots mem)

variable {mem mem' : Mem ι} {caller : ι}

theorem freeSlots_eq (mem : Mem ι) :
    freeSlots mem =
      (mem.mswp 0).freeFpList.nodes.length + (mem.mswp 1).freeFpList.nodes.length +
        (mem.mswp 2).freeFpList.nodes.length + (mem.mswp 3).freeFpList.nodes.length := by
  simp [freeSlots, List.finRange_succ]
  omega

/-- A free slot of one device is taken. -/
theorem freeSlots_setMswp
    {device : Fin 4}
    {slot : Nat}
    {mp : Memphy}
    (head : (mem.mswp device).freeFpList.nodes = slot :: mp.freeFpList.nodes) :
    freeSlots (mem.setMswp device mp) + 1 = freeSlots mem := by
  have shorter := congrArg List.length head
  rw [List.length_cons] at shorter
  have one : device = 0 ∨ device = 1 ∨ device = 2 ∨ device = 3 := by omega
  rw [freeSlots_eq, freeSlots_eq]
  rcases one with rfl | rfl | rfl | rfl <;> simp [Mem.setMswp] at shorter ⊢ <;> omega

theorem freeSlots_eq_zero
    (empty : ∀ device, (mem.mswp device).freeFpList.nodes = []) :
    freeSlots mem = 0 := by
  simp [freeSlots, empty]

variable [DecidableEq ι]

/-- Taking a frame uses up one of the supply. -/
theorem Grabs.available
    {fpn : Nat}
    (grabs : Grabs mem caller fpn mem') :
    available mem' caller + 1 = available mem caller := by
  cases grabs with
  | taken fpn rest head =>
      simp [Memory.available, freeSlots, Mem.setMram, Mem.mm, head]
      omega
  | evicted victim younger device slot mp full oldest offers _ =>
      have slots := freeSlots_setMswp offers.head
      have sameSlots (mm : Mm) :
          freeSlots ((mem.setMswp device mp).setMm caller mm) = freeSlots (mem.setMswp device mp) :=
        rfl
      simp [Memory.available, sameSlots, full, oldest]
      omega

omit [DecidableEq ι] in
/-- No device has offered a frame. -/
theorem swapOut_none
    {victimFpn : Nat}
    {devices : List (Fin 4)}
    (swapped : swapOut mem victimFpn devices = some none) :
    ∀ device ∈ devices, (mem.mswp device).freeFpList.nodes = [] := by
  induction devices with
  | nil => simp
  | cons here others inductionHypothesis =>
      simp only [swapOut, Option.bind_eq_bind, Option.bind_eq_some_iff] at swapped
      obtain ⟨offer, asked, continued⟩ := swapped
      cases offer with
      | some taken => simp [Option.bind_eq_some_iff] at continued
      | none =>
          intro device member
          rcases List.mem_cons.mp member with rfl | later
          · exact memphyGetFreefp_none asked
          · exact inductionHypothesis continued device later

/-- The loop of `alloc_pages_range` ends early only when nothing is left. -/
theorem allocPage_failed
    {frmLst frmLst' : Chain Nat}
    {rc : Int}
    (failed : rc < 0)
    (allocated : allocPage mem caller frmLst = some (rc, mem', frmLst')) :
    available mem caller = 0 := by
  simp only [allocPage, Option.bind_eq_bind, Option.bind_eq_some_iff] at allocated
  obtain ⟨offer, asked, continued⟩ := allocated
  cases offer with
  | some taken =>
      simp only [Option.some.injEq, Prod.mk.injEq] at continued
      omega
  | none =>
      have full := memphyGetFreefp_none asked
      cases found : findVictimPage (mem.mm caller) with
      | none => simp [available, full, findVictimPage_eq_none_iff.mp found]
      | some victim =>
          obtain ⟨victimPgn, mm⟩ := victim
          simp only [found, Option.bind_eq_some_iff, Mem.activeMswp_setMm] at continued
          obtain ⟨listed, _, outcome, swapped, final⟩ := continued
          cases outcome with
          | some slot =>
              simp only [Option.some.injEq, Prod.mk.injEq] at final
              omega
          | none =>
              have exhausted := swapOut_none swapped
              have noSlots : freeSlots mem = 0 :=
                freeSlots_eq_zero fun device => exhausted device (by simp [swapOrder])
              simp [available, full, noSlots]

/-- `alloc_pages_range` succeeds exactly when the supply suffices. -/
theorem allocPagesRange_eq_zero_iff
    {left : Nat}
    {frmLst frmLst' : Chain Nat}
    {rc : Int}
    (allocated : allocPagesRange caller left mem frmLst = some (rc, mem', frmLst')) :
    rc = 0 ↔ left ≤ available mem caller := by
  induction left generalizing mem frmLst with
  | zero =>
      simp only [allocPagesRange, Option.some.injEq, Prod.mk.injEq] at allocated
      simp [← allocated.1]
  | succ left inductionHypothesis =>
      simp only [allocPagesRange, Option.bind_eq_bind, Option.bind_eq_some_iff] at allocated
      obtain ⟨⟨code, middle, listed⟩, page, continued⟩ := allocated
      rcases allocPage_cases page with ⟨rfl, fpn, grabs, _⟩ | ⟨failed, _⟩
      · simp only [lt_self_iff_false, if_false] at continued
        rw [inductionHypothesis continued, ← grabs.available]
        omega
      · have nothing := allocPage_failed failed page
        simp only [failed, if_true, Option.some.injEq, Prod.mk.injEq] at continued
        omega

/-- `vm_map_ram` succeeds exactly when the supply suffices. -/
theorem vmMapRam_eq_zero_iff
    {mapstart incpgnum rc : Int}
    (mapped : vmMapRam mem caller mapstart incpgnum = some (rc, mem')) :
    rc = (if incpgnum ≤ available mem caller then 0 else -1) := by
  simp only [vmMapRam, Option.bind_eq_bind, Option.bind_eq_some_iff] at mapped
  obtain ⟨⟨retAlloc, middle, frmLst⟩, allocated, continued⟩ := mapped
  have enough := allocPagesRange_eq_zero_iff allocated
  rcases allocPagesRange_rule (fun _ _ _ => True) (fun _ _ _ _ _ _ _ => trivial) trivial
      ⟨List.nil_prefix, Or.inr List.nil_prefix⟩ allocated with ⟨rfl, _⟩ | ⟨failed, _⟩
  · simp only [lt_self_iff_false, if_false, Option.bind_eq_some_iff, Option.some.injEq,
      Prod.mk.injEq] at continued
    obtain ⟨_, _, rfl, _⟩ := continued
    rw [if_pos (Int.toNat_le.mp (enough.mp rfl))]
  · simp only [failed, if_true, Option.some.injEq, Prod.mk.injEq] at continued
    rw [← continued.1, if_neg]
    intro supply
    have := enough.mpr (Int.toNat_le.mpr supply)
    omega

end Memory
end Ossim
