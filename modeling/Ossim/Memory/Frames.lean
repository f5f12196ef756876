import Ossim.Library.Transition
import Ossim.Memory.Ownership

/-!
# Exclusive frames

Any number of processes share the RAM and the swap devices.  In every
interleaving of their growing areas, which may run out of frames half way, and
of accesses that bring pages in, no RAM frame and no swap slot is held twice or
held and free, and the page lists name online pages only.
-/

namespace Ossim
namespace Memory

open CInt Transition

namespace Frames

variable {ι : Type} [DecidableEq ι]

/-- The operations that change a page table. -/
inductive Event (ι : Type)
  | alloc (proc : ι) (size regIndex : Nat)
  | getpage (proc : ι) (pgn : Pgn)

/-- One operation of a process. -/
def step (mem : Mem ι) : Event ι → Option (Mem ι)
  | .alloc proc size regIndex => run mem proc (.alloc size regIndex)
  | .getpage proc pgn => (pgGetpage mem proc pgn).map (·.2.1)

/-- The sizes and the limits of the areas stay below 2^22; a page is accessed
below the limit, with a victim to evict and a swap frame to evict it to. -/
def Permitted (mem : Mem ι) : Event ι → Prop
  | .alloc proc size _ =>
      1 ≤ size ∧ size ≤ 2 ^ 22 ∧
        ∀ pages ∈ growth (mem.mm proc) (toInt size), grownEnd (mem.mm proc) pages ≤ 2 ^ 22
  | .getpage proc pgn =>
      pgn.val * 256 < (mem.mm proc).mmap.vmEnd ∧ (mem.mm proc).fifoPgn ≠ [] ∧
        (mem.mswp (mem.pcb proc).activeMswp).freeFpList.nodes ≠ []

instance decidablePermitted (mem : Mem ι) (event : Event ι) :
    Decidable (Permitted mem event) :=
  match event with
  | .alloc proc size _ =>
      inferInstanceAs (Decidable (1 ≤ size ∧ size ≤ 2 ^ 22 ∧
        ∀ pages ∈ growth (mem.mm proc) (toInt size), grownEnd (mem.mm proc) pages ≤ 2 ^ 22))
  | .getpage proc pgn =>
      inferInstanceAs (Decidable (pgn.val * 256 < (mem.mm proc).mmap.vmEnd ∧
        (mem.mm proc).fifoPgn ≠ [] ∧
        (mem.mswp (mem.pcb proc).activeMswp).freeFpList.nodes ≠ []))

/-- Before the first operation. -/
structure Start (mem : Mem ι) : Prop where
  ramSize : mem.mram.maxsz / pagingPagesz ≤ 2 ^ 13
  ramUnused : Unused mem.mram
  swapSize : ∀ device, (mem.mswp device).maxsz / pagingPagesz ≤ 2 ^ 21
  swapUnused : ∀ device, Unused (mem.mswp device)
  fresh : ∀ proc, NoPages (mem.mm proc)
  active : ∀ proc, (mem.pcb proc).activeMswpId = (mem.pcb proc).activeMswp.val

/-- No frame and no swap slot is held twice or held and free; the page lists
name online pages, each at most once. -/
structure FramesExclusive (mem : Mem ι) : Prop where
  online : Exclusive (mem.decoded onlineFrame) (fun fpn => fpn ∈ mem.mram.freeFpList.nodes)
  listed : ∀ proc, (mem.mm proc).fifoPgn.Nodup ∧
    ∀ pgn ∈ (mem.mm proc).fifoPgn, (onlineFrame ((mem.mm proc).pgd pgn)).isSome
  swapped : Exclusive (mem.decoded swapSlot) mem.FreeSlot

/-- What the devices keep while an area grows. -/
structure Devices (mem : Mem ι) (frames : List Nat) : Prop where
  ram : RamOwned mem frames
  swap : SwapOwned mem
  smallFree : ∀ fpn ∈ mem.mram.freeFpList.nodes, fpn < 2 ^ 13
  active : ∀ proc, (mem.pcb proc).activeMswpId = (mem.pcb proc).activeMswp.val

/-- The invariant between two operations. -/
structure Valid (mem : Mem ι) : Prop where
  paged : ∀ proc, Paged (mem.mm proc)
  devices : Devices mem []

variable {mem mem' : Mem ι} {frames : List Nat} {proc : ι}

omit [DecidableEq ι] in
theorem valid_of_start
    (start : Start mem) :
    Valid mem where
  paged := fun proc => (start.fresh proc).paged
  devices :=
    { ram := RamOwned.of_noPages start.fresh start.ramUnused.nodup
      swap := SwapOwned.of_noPages start.fresh (fun device => (start.swapUnused device).nodup)
        fun device _ free =>
          Nat.lt_of_lt_of_le ((start.swapUnused device).lt free) (start.swapSize device)
      smallFree := fun _ free => Nat.lt_of_lt_of_le (start.ramUnused.lt free) start.ramSize
      active := start.active }

/-! ## What each operation keeps -/

theorem Devices.quiet
    {mm : Mm}
    (devices : Devices mem frames)
    (samePgd : mm.pgd = (mem.mm proc).pgd) :
    Devices (mem.setMm proc mm) frames where
  ram := devices.ram.congr (Mem.pgd_setMm_congr samePgd) rfl
  swap := devices.swap.congr (Mem.pgd_setMm_congr samePgd) fun _ => rfl
  smallFree := devices.smallFree
  active := by
    intro other
    simpa using devices.active other

theorem Devices.grab
    {fpn bound : Nat}
    (devices : Devices mem frames)
    (maps : MapsUpTo (mem.mm proc) bound)
    (grabs : Grabs mem proc fpn mem') :
    Devices mem' (fpn :: frames) where
  ram := devices.ram.grab maps
    (fun head first => devices.smallFree head (List.mem_of_mem_take first)) grabs
  swap := devices.swap.grab grabs
  smallFree := by
    cases grabs with
    | taken fpn rest head =>
        intro other free
        apply devices.smallFree
        rw [head]
        exact List.mem_cons_of_mem _ free
    | evicted victim younger device slot mp _ _ _ _ => exact devices.smallFree
  active := by
    intro other
    rw [(grabs.activeMswp other).1, (grabs.activeMswp other).2]
    exact devices.active other

theorem Devices.mapPage
    {fpn : Nat}
    {pgn : Pgn}
    (devices : Devices mem (fpn :: frames))
    (absent : pagingPagePresent ((mem.mm proc).pgd pgn) = false) :
    Devices (mem.setMm proc ((mem.mm proc).mapPage pgn fpn)) frames where
  ram := devices.ram.mapPage proc pgn
  swap := devices.swap.mapAbsent absent rfl
  smallFree := devices.smallFree
  active := by
    intro other
    simpa using devices.active other

theorem Devices.giveUp
    (devices : Devices mem frames)
    (givesUp : GivesUp mem proc mem') :
    Devices mem' [] where
  ram := devices.ram.giveUp givesUp
  swap := devices.swap.giveUp givesUp
  smallFree := by
    rw [givesUp.frame.2.1]
    exact devices.smallFree
  active := by
    cases givesUp with
    | noVictim _ _ => exact devices.active
    | noSlot victim younger _ oldest =>
        intro other
        simpa using devices.active other

theorem Devices.pageIn
    {pgn : Pgn}
    {bound vicfpn : Nat}
    (devices : Devices mem [])
    (maps : MapsUpTo (mem.mm proc) bound)
    (absent : pagingPagePresent ((mem.mm proc).pgd pgn) = false)
    (pageIn : PageIn mem proc pgn vicfpn mem') :
    Devices mem' [] where
  ram := devices.ram.pageIn maps absent pageIn
  swap := devices.swap.pageIn maps (devices.active proc) absent pageIn
  smallFree := by
    cases pageIn
    exact devices.smallFree
  active := by
    cases pageIn
    intro other
    simpa using devices.active other

theorem Devices.grows
    {pages : Int}
    (paged : ∀ other, Paged (mem.mm other))
    (devices : Devices mem [])
    (fits : FitsIn (mem.mm proc) pages)
    (grows : Grows mem proc pages mem') :
    Valid mem' := by
  obtain ⟨stillPaged, _, mapped | ⟨_, taken, before, gathered, givesUp⟩⟩ :=
    Grows.rule (fun _ frames state => Devices state frames)
      (fun _ frames state => Devices state frames) paged fits
      (devices.quiet rfl)
      (fun _ _ _ _ _ before maps grabs => before.grab maps grabs)
      (fun _ _ before => before)
      (fun pgn _ _ _ before maps => before.mapPage (maps.beyond pgn (Nat.le_refl _)))
      grows
  · exact ⟨stillPaged, mapped⟩
  · exact ⟨stillPaged, gathered.giveUp givesUp⟩

/-- Every permitted operation keeps the invariant. -/
theorem valid_step
    {event : Event ι}
    (valid : Valid mem)
    (permitted : Permitted mem event)
    (taken : step mem event = some mem') :
    Valid mem' := by
  obtain ⟨paged, devices⟩ := valid
  cases event with
  | alloc proc size regIndex =>
      obtain ⟨_, sizeBound, limit⟩ := permitted
      obtain ⟨middle, mm, rfl, same, outcome⟩ := run_alloc_pages taken
      have grown : Valid middle := by
        rcases outcome with rfl | ⟨pages, growing, grows⟩
        · exact ⟨paged, devices⟩
        · have sizeInt : toInt size = size := toInt_of_mem (by omega) (by omega)
          exact devices.grows paged
            (FitsIn.of_grownEnd (paged proc) (by omega) growing (limit pages growing)) grows
      exact ⟨paged_quiet grown.paged same, grown.devices.quiet same.pgd⟩
  | getpage proc pgn =>
      obtain ⟨inArea, _, _⟩ := permitted
      simp only [step, Option.map_eq_some_iff] at taken
      obtain ⟨⟨rc, after, fpn⟩, accessed, rfl⟩ := taken
      rcases (pgGetpage_cases accessed).2 with
        ⟨_, rfl, _⟩ | ⟨absent, vicfpn, pageIn, _⟩
      · exact ⟨paged, devices⟩
      · exact ⟨paged_pageIn paged absent inArea pageIn,
          devices.pageIn (paged proc).maps absent pageIn⟩

omit [DecidableEq ι] in
theorem framesExclusive_of_valid
    (valid : Valid mem) :
    FramesExclusive mem where
  online := by
    simpa using valid.devices.ram.exclusive
  listed := fun proc => ⟨(valid.paged proc).maps.nodup, (valid.paged proc).maps.online⟩
  swapped := valid.devices.swap.exclusive

/-- In every interleaving the frames and the swap slots are held exclusively. -/
theorem frames_exclusive
    {first last : Mem ι}
    (start : Start first)
    (run : Run step Permitted first last) :
    FramesExclusive last :=
  framesExclusive_of_valid
    (run.invariant Valid (fun _ _ _ valid permitted taken => valid_step valid permitted taken)
      (valid_of_start start))

/-- One process with an area of four pages, none of them present, a RAM of one
frame and swap devices of four frames. -/
def oneFrame : Mem (Fin 1) where
  mram := { initMemphy 256 true with freeFpList := Chain.null.cons 0 }
  mswp := fun _ => initMemphy 1024 true
  pcb := fun _ => { Pcb.fresh with mm := Mm.fresh.setLimits 1024 1024 }

theorem oneFrame_start : Start oneFrame where
  ramSize := by decide
  ramUnused := List.Perm.refl _
  swapSize := fun _ => show (1024 / 256 : Nat) ≤ 2 ^ 21 by decide
  swapUnused := fun _ => unused_initMemphy 1024 true
  fresh := fun _ =>
    ⟨fun _ => show pagingPagePresent 0 = false by decide, rfl,
      show 256 ∣ 1024 by decide, show 1024 ≤ 2 ^ 22 by decide, rfl⟩
  active := fun _ => rfl

/-- The only frame goes from page 4 to page 0 and, when the area grows again, to
page 5. -/
theorem frames_exclusive_oneFrame :
    ∃ last, replay step oneFrame
        [.alloc 0 100 0, .getpage 0 0, .alloc 0 300 1] = some last ∧
      FramesExclusive last := by
  obtain ⟨last, reaches⟩ := Option.isSome_iff_exists.mp
    (show (replay step oneFrame
      [.alloc 0 100 0, .getpage 0 0, .alloc 0 300 1]).isSome = true by decide +kernel)
  exact ⟨last, reaches, frames_exclusive oneFrame_start
    (Run.of_replay _ _ (by decide +kernel) reaches)⟩

end Frames

end Memory
end Ossim
