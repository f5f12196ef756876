import Ossim.Library.Exclusive
import Ossim.Memory.Steps
import Mathlib.Data.List.Nodup
import Mathlib.Data.List.Perm.Basic

/-!
# Who owns a frame

Invariants of the paging structures and what each of them is kept by.  `Paged`
is about one process: its page list names online pages, each once, and no page
beyond the area is present.  `RamOwned` and `SwapOwned` are about all processes:
the frames and the swap slots are held exclusively.  While an area grows the
frames taken and not yet mapped belong to nobody, so `RamOwned` carries them.
-/

namespace Ossim
namespace Memory

open CInt

/-- The page list of a process, and the bound below which it has pages. -/
structure MapsUpTo (mm : Mm) (bound : Nat) : Prop where
  /-- A page is listed at most once. -/
  nodup : mm.fifoPgn.Nodup
  /-- Only online pages are listed. -/
  online : ∀ pgn ∈ mm.fifoPgn, (onlineFrame (mm.pgd pgn)).isSome
  /-- No page from the bound on is present. -/
  beyond : ∀ pgn : Pgn, bound ≤ pgn.val → pagingPagePresent (mm.pgd pgn) = false

/-- The pages of a process between two instructions. -/
structure Paged (mm : Mm) : Prop where
  maps : MapsUpTo mm (mm.mmap.vmEnd / 256)
  aligned : 256 ∣ mm.mmap.vmEnd
  inSpace : mm.mmap.vmEnd ≤ 2 ^ 22
  sbrk : mm.mmap.sbrk = mm.mmap.vmEnd

theorem present_of_online
    {pte : Pte}
    (online : (onlineFrame pte).isSome) :
    pagingPagePresent pte = true := by
  obtain ⟨fpn, decoded⟩ := Option.isSome_iff_exists.mp online
  exact (onlineFrame_eq_some_iff.mp decoded).1

namespace MapsUpTo

variable {mm : Mm} {bound : Nat}

/-- A listed page lies below the bound. -/
theorem lt_bound
    (maps : MapsUpTo mm bound)
    {pgn : Pgn}
    (listed : pgn ∈ mm.fifoPgn) :
    pgn.val < bound := by
  by_contra outside
  have absent := maps.beyond pgn (Nat.le_of_not_lt outside)
  rw [present_of_online (maps.online pgn listed)] at absent
  cases absent

theorem mono
    {larger : Nat}
    (maps : MapsUpTo mm bound)
    (le : bound ≤ larger) :
    MapsUpTo mm larger where
  nodup := maps.nodup
  online := maps.online
  beyond := fun pgn outside => maps.beyond pgn (Nat.le_trans le outside)

theorem congr
    {mm' : Mm}
    (maps : MapsUpTo mm bound)
    (samePgd : mm'.pgd = mm.pgd)
    (sameFifo : mm'.fifoPgn = mm.fifoPgn) :
    MapsUpTo mm' bound where
  nodup := sameFifo ▸ maps.nodup
  online := by
    rw [samePgd, sameFifo]
    exact maps.online
  beyond := by
    rw [samePgd]
    exact maps.beyond

/-- The victim is online and not among the younger pages. -/
theorem victim
    (maps : MapsUpTo mm bound)
    {younger : List Pgn}
    {victim : Pgn}
    (oldest : mm.fifoPgn = younger ++ [victim]) :
    onlineFrame (mm.pgd victim) = some (pagingFpn (mm.pgd victim)) ∧ victim ∉ younger ∧
      younger.Nodup ∧ victim.val < bound := by
  have listed : victim ∈ mm.fifoPgn := by simp [oldest]
  have nodup := maps.nodup
  rw [oldest, List.nodup_append] at nodup
  obtain ⟨fpn, decoded⟩ := Option.isSome_iff_exists.mp (maps.online victim listed)
  refine ⟨?_, ?_, nodup.1, maps.lt_bound listed⟩
  · rw [decoded, (onlineFrame_eq_some_iff.mp decoded).2.2]
  · intro again
    exact nodup.2.2 victim again victim (by simp) rfl

/-- A page that is not present is not the victim. -/
theorem ne_victim
    (maps : MapsUpTo mm bound)
    {younger : List Pgn}
    {victim pgn : Pgn}
    (oldest : mm.fifoPgn = younger ++ [victim])
    (absent : pagingPagePresent (mm.pgd pgn) = false) :
    pgn ≠ victim := by
  rintro rfl
  rw [(onlineFrame_eq_some_iff.mp (maps.victim oldest).1).1] at absent
  cases absent

/-- Taking the oldest page off the list. -/
theorem dropOldest
    (maps : MapsUpTo mm bound)
    {younger : List Pgn}
    {victim : Pgn}
    (oldest : mm.fifoPgn = younger ++ [victim]) :
    MapsUpTo { mm with fifoPgn := younger } bound where
  nodup := (maps.victim oldest).2.2.1
  online := fun pgn listed => maps.online pgn (by simp [oldest, listed])
  beyond := maps.beyond

/-- Giving a present page that is not listed any other present entry. -/
theorem setPte
    (maps : MapsUpTo mm bound)
    {pgn : Pgn}
    (pte : Pte)
    (below : pgn.val < bound)
    (notListed : pgn ∉ mm.fifoPgn) :
    MapsUpTo (mm.setPte pgn pte) bound where
  nodup := maps.nodup
  online := by
    intro other listed
    have different : other ≠ pgn := by
      rintro rfl
      exact notListed listed
    rw [Mm.setPte_pgd_of_ne _ _ different]
    exact maps.online other listed
  beyond := by
    intro other outside
    have different : other ≠ pgn := by
      rintro rfl
      omega
    rw [Mm.setPte_pgd_of_ne _ _ different]
    exact maps.beyond other outside

/-- Listing an online page that is not listed. -/
theorem enlist
    (maps : MapsUpTo mm bound)
    {pgn : Pgn}
    (online : (onlineFrame (mm.pgd pgn)).isSome)
    (notListed : pgn ∉ mm.fifoPgn) :
    MapsUpTo (mm.enlistPgnNode pgn) bound where
  nodup := List.nodup_cons.mpr ⟨notListed, maps.nodup⟩
  online := by
    intro other listed
    rcases List.mem_cons.mp listed with rfl | older
    · exact online
    · exact maps.online other older
  beyond := maps.beyond

/-- Evicting the oldest page. -/
theorem evict
    (maps : MapsUpTo mm bound)
    {younger : List Pgn}
    {victim : Pgn}
    (oldest : mm.fifoPgn = younger ++ [victim])
    (pte : Pte) :
    MapsUpTo ({ mm with fifoPgn := younger }.setPte victim pte) bound :=
  (maps.dropOldest oldest).setPte pte (maps.victim oldest).2.2.2 (maps.victim oldest).2.1

/-- A page that is not present can be mapped. -/
theorem mapAbsent
    (maps : MapsUpTo mm bound)
    {pgn : Pgn}
    (fpn : Nat)
    (below : pgn.val < bound)
    (absent : pagingPagePresent (mm.pgd pgn) = false) :
    MapsUpTo ((mm.setPte pgn (pteSetFpn (mm.pgd pgn) fpn)).enlistPgnNode pgn) bound := by
  have notListed : pgn ∉ mm.fifoPgn := by
    intro listed
    rw [present_of_online (maps.online pgn listed)] at absent
    cases absent
  exact (maps.setPte _ below notListed).enlist (by simp) notListed

/-- Mapping the first page beyond the bound. -/
theorem mapNext
    {pgn : Pgn}
    (maps : MapsUpTo mm pgn.val)
    (fpn : Nat) :
    MapsUpTo (mm.mapPage pgn fpn) (pgn.val + 1) :=
  (maps.mono (Nat.le_succ _)).mapAbsent fpn (Nat.lt_succ_self _)
    (maps.beyond pgn (Nat.le_refl _))

end MapsUpTo

theorem Paged.congr
    {mm mm' : Mm}
    (paged : Paged mm)
    (same : SamePages mm mm') :
    Paged mm' := by
  obtain ⟨pgd, fifoPgn, vmEnd, sbrk⟩ := same
  constructor
  · rw [vmEnd]
    exact paged.maps.congr pgd fifoPgn
  · rw [vmEnd]
    exact paged.aligned
  · rw [vmEnd]
    exact paged.inSpace
  · rw [vmEnd, sbrk]
    exact paged.sbrk

/-! ## Before the first operation -/

/-- The free list of a device holds each of its frames once. -/
def Unused (mp : Memphy) : Prop :=
  mp.freeFpList.nodes.Perm (List.range (mp.maxsz / pagingPagesz))

theorem Unused.nodup
    {mp : Memphy}
    (unused : Unused mp) :
    mp.freeFpList.nodes.Nodup :=
  unused.nodup_iff.mpr List.nodup_range

theorem Unused.lt
    {mp : Memphy}
    (unused : Unused mp)
    {fpn : Nat}
    (free : fpn ∈ mp.freeFpList.nodes) :
    fpn < mp.maxsz / pagingPagesz :=
  List.mem_range.mp (unused.mem_iff.mp free)

/-- A device after `init_memphy`. -/
theorem unused_initMemphy (maxSize : Nat) (randomflg : Bool) :
    Unused (initMemphy maxSize randomflg) := by
  simp only [Unused, initMemphy, memphyFormat]
  split
  · rename_i noFrame
    simp [noFrame]
  · exact List.Perm.refl _

/-- An address space without pages, with limits that `init_mm` or a growth of the
area can leave. -/
structure NoPages (mm : Mm) : Prop where
  absent : ∀ pgn, pagingPagePresent (mm.pgd pgn) = false
  fifoPgn : mm.fifoPgn = []
  aligned : 256 ∣ mm.mmap.vmEnd
  inSpace : mm.mmap.vmEnd ≤ 2 ^ 22
  sbrk : mm.mmap.sbrk = mm.mmap.vmEnd

/-- `init_mm` on memory with an empty page table and an empty page list. -/
theorem noPages_initMm
    {mm : Mm}
    (absent : ∀ pgn, pagingPagePresent (mm.pgd pgn) = false)
    (empty : mm.fifoPgn = []) :
    NoPages (initMm mm) :=
  ⟨absent, empty, by simp [initMm], by simp [initMm], rfl⟩

theorem NoPages.paged
    {mm : Mm}
    (noPages : NoPages mm) :
    Paged mm where
  maps :=
    { nodup := by simp [noPages.fifoPgn]
      online := by simp [noPages.fifoPgn]
      beyond := fun pgn _ => noPages.absent pgn }
  aligned := noPages.aligned
  inSpace := noPages.inSpace
  sbrk := noPages.sbrk

variable {ι : Type} [DecidableEq ι]

/-! ## What a growing area leaves alone -/

/-- Taking a frame changes the address space of no other process, nor the
storage of the RAM, nor the choice of the swap devices. -/
theorem Grabs.frame
    {mem mem' : Mem ι}
    {caller : ι}
    {fpn : Nat}
    (grabs : Grabs mem caller fpn mem') :
    (∀ other, other ≠ caller → mem'.mm other = mem.mm other) ∧
      mem'.mram.storage = mem.mram.storage ∧ mem'.mram.maxsz = mem.mram.maxsz ∧
      mem'.mram.rdmflg = mem.mram.rdmflg ∧
      (mem'.mm caller).mmap = (mem.mm caller).mmap := by
  cases grabs with
  | taken fpn rest _ => exact ⟨fun _ _ => rfl, rfl, rfl, rfl, rfl⟩
  | evicted victim younger device slot mp _ _ _ _ =>
      refine ⟨?_, rfl, rfl, rfl, by simp⟩
      intro other different
      rw [Mem.mm_setMm_of_ne _ _ different, Mem.mm_setMswp]

theorem Grabs.activeMswp
    {mem mem' : Mem ι}
    {caller : ι}
    {fpn : Nat}
    (grabs : Grabs mem caller fpn mem')
    (other : ι) :
    (mem'.pcb other).activeMswp = (mem.pcb other).activeMswp ∧
      (mem'.pcb other).activeMswpId = (mem.pcb other).activeMswpId := by
  cases grabs with
  | taken fpn rest _ => exact ⟨rfl, rfl⟩
  | evicted victim younger device slot mp _ _ _ _ => simp

theorem MapsUpTo.grab
    {mem mem' : Mem ι}
    {caller : ι}
    {fpn bound : Nat}
    (maps : MapsUpTo (mem.mm caller) bound)
    (grabs : Grabs mem caller fpn mem') :
    MapsUpTo (mem'.mm caller) bound := by
  cases grabs with
  | taken fpn rest _ => exact maps
  | evicted victim younger device slot mp _ oldest _ _ =>
      rw [Mem.mm_setMm_self]
      exact maps.evict oldest _

theorem MapsUpTo.giveUp
    {mem mem' : Mem ι}
    {caller : ι}
    {bound : Nat}
    (maps : MapsUpTo (mem.mm caller) bound)
    (givesUp : GivesUp mem caller mem') :
    MapsUpTo (mem'.mm caller) bound := by
  cases givesUp with
  | noVictim _ _ => exact maps
  | noSlot victim younger _ oldest =>
      rw [Mem.mm_setMm_self]
      exact maps.dropOldest oldest

theorem GivesUp.frame
    {mem mem' : Mem ι}
    {caller : ι}
    (givesUp : GivesUp mem caller mem') :
    (∀ other, other ≠ caller → mem'.mm other = mem.mm other) ∧ mem'.mram = mem.mram ∧
      mem'.mswp = mem.mswp ∧ (mem'.mm caller).pgd = (mem.mm caller).pgd ∧
      (mem'.mm caller).mmap = (mem.mm caller).mmap := by
  cases givesUp with
  | noVictim _ _ => exact ⟨fun _ _ => rfl, rfl, rfl, rfl, rfl⟩
  | noSlot victim younger _ oldest =>
      refine ⟨?_, rfl, rfl, by simp, by simp⟩
      intro other different
      rw [Mem.mm_setMm_of_ne _ _ different]

/-- Giving up changes no page table. -/
theorem GivesUp.samePgd
    {mem mem' : Mem ι}
    {caller : ι}
    (givesUp : GivesUp mem caller mem')
    (proc : ι) :
    (mem'.mm proc).pgd = (mem.mm proc).pgd := by
  obtain ⟨untouched, _, _, samePgd, _⟩ := givesUp.frame
  by_cases same : proc = caller
  · rw [same, samePgd]
  · rw [untouched proc same]

/-- The loop gives up only without a free frame. -/
theorem GivesUp.full
    {mem mem' : Mem ι}
    {caller : ι}
    (givesUp : GivesUp mem caller mem') :
    mem.mram.freeFpList.nodes = [] := by
  cases givesUp with
  | noVictim full _ => exact full
  | noSlot victim younger full _ => exact full

/-- A growth stays inside the address space. -/
structure FitsIn (mm : Mm) (pages : Int) : Prop where
  nonneg : 0 ≤ pages
  inSpace : mm.mmap.sbrk + pages * 256 ≤ 2 ^ 22

instance decidableFitsIn (mm : Mm) (pages : Int) : Decidable (FitsIn mm pages) :=
  decidable_of_iff (0 ≤ pages ∧ mm.mmap.sbrk + pages * 256 ≤ 2 ^ 22)
    ⟨fun bounds => ⟨bounds.1, bounds.2⟩, fun fits => ⟨fits.nonneg, fits.inSpace⟩⟩

/-- The limit of a growth inside the address space is computed without wrapping. -/
theorem FitsIn.grownEnd_eq
    {mm : Mm}
    {amount : Nat}
    (fits : FitsIn mm amount)
    (paged : Paged mm) :
    grownEnd mm (amount : Int) = mm.mmap.vmEnd + amount * 256 := by
  have inSpace := fits.inSpace
  have natural : (mm.mmap.sbrk + (amount : Int) * 256) =
      ((mm.mmap.vmEnd + amount * 256 : Nat) : Int) := by
    rw [paged.sbrk]
    push_cast
    rfl
  rw [natural] at inSpace
  rw [grownEnd, natural, toULong_natCast]
  omega

/-- The end of an area is the start of a page, also as an `int`. -/
theorem Paged.toInt_vmEnd
    {mm : Mm}
    (paged : Paged mm) :
    toInt mm.mmap.vmEnd = ((mm.mmap.vmEnd / 256 * 256 : Nat) : Int) := by
  have aligned := paged.aligned
  have inSpace := paged.inSpace
  rw [toInt_of_mem (by omega) (by omega)]
  omega

/-- A state during a growth: the other processes are paged and the limits of the caller
are final. -/
structure Growing (caller : ι) (limit : Nat) (state : Mem ι) : Prop where
  others : ∀ other, other ≠ caller → Paged (state.mm other)
  vmEnd : (state.mm caller).mmap.vmEnd = limit
  sbrk : (state.mm caller).mmap.sbrk = limit

namespace Growing

variable {caller : ι} {limit : Nat} {state next : Mem ι}

omit [DecidableEq ι] in
/-- A step that leaves the other processes and the area of the caller alone. -/
theorem congr
    (growing : Growing caller limit state)
    (untouched : ∀ other, other ≠ caller → next.mm other = state.mm other)
    (sameArea : (next.mm caller).mmap = (state.mm caller).mmap) :
    Growing caller limit next where
  others := by
    intro other different
    rw [untouched other different]
    exact growing.others other different
  vmEnd := by rw [sameArea, growing.vmEnd]
  sbrk := by rw [sameArea, growing.sbrk]

theorem paged
    (growing : Growing caller limit state)
    (aligned : 256 ∣ limit)
    (inSpace : limit ≤ 2 ^ 22)
    (maps : MapsUpTo (state.mm caller) (limit / 256))
    (proc : ι) :
    Paged (state.mm proc) := by
  by_cases same : proc = caller
  · subst same
    rw [← growing.vmEnd] at maps aligned inSpace
    exact ⟨maps, aligned, inSpace, by rw [growing.sbrk, growing.vmEnd]⟩
  · exact growing.others proc same

end Growing

/-- The rule for a growth inside the address space.  Next to an invariant of the
phase that takes frames and one of the phase that maps pages, every process
stays paged. -/
theorem Grows.rule
    {mem mem' : Mem ι}
    {caller : ι}
    {pages : Int}
    (gathering mapping : Nat → List Nat → Mem ι → Prop)
    (paged : ∀ proc, Paged (mem.mm proc))
    (fits : FitsIn (mem.mm caller) pages)
    (start : gathering pages.toNat []
      (mem.setMm caller ((mem.mm caller).setLimits
        ((mem.mm caller).mmap.vmEnd + pages.toNat * 256)
        ((mem.mm caller).mmap.vmEnd + pages.toNat * 256))))
    (grab : ∀ left frames before fpn after, gathering (left + 1) frames before →
      MapsUpTo (before.mm caller) ((mem.mm caller).mmap.vmEnd / 256) →
      Grabs before caller fpn after → gathering left (fpn :: frames) after)
    (switch : ∀ frames before, gathering 0 frames before →
      mapping ((mem.mm caller).mmap.vmEnd / 256) frames before)
    (map : ∀ (pgn : Pgn) fpn frames before, mapping pgn.val (fpn :: frames) before →
      MapsUpTo (before.mm caller) pgn.val →
      mapping (pgn.val + 1) frames
        (before.setMm caller ((before.mm caller).mapPage pgn fpn)))
    (grows : Grows mem caller pages mem') :
    (∀ proc, Paged (mem'.mm proc)) ∧
      (mem'.mm caller).mmap.vmEnd = (mem.mm caller).mmap.vmEnd + pages.toNat * 256 ∧
      (mapping ((mem.mm caller).mmap.vmEnd / 256 + pages.toNat) [] mem' ∨
        ∃ remaining taken before, gathering (remaining + 1) taken before ∧
          GivesUp before caller mem') := by
  obtain ⟨amount, rfl⟩ := Int.eq_ofNat_of_zero_le fits.nonneg
  have newEnd := fits.grownEnd_eq (paged caller)
  have oldEnd := (paged caller).toInt_vmEnd
  have inSpace := fits.inSpace
  obtain ⟨maps, aligned, oldInSpace, sbrk⟩ := paged caller
  rw [Int.toNat_natCast] at start ⊢
  generalize baseIs : (mem.mm caller).mmap.vmEnd / 256 = base at *
  obtain ⟨rc, ranged⟩ := grows
  rw [newEnd, oldEnd] at ranged
  generalize limitIs : (mem.mm caller).mmap.vmEnd + amount * 256 = limit at *
  have top : limit / 256 = base + amount := by omega
  have finish : ∀ state, Growing caller limit state →
      MapsUpTo (state.mm caller) (base + amount) → ∀ proc, Paged (state.mm proc) :=
    fun state growing stateMaps =>
      growing.paged (by omega) (by omega) (by rw [top]; exact stateMaps)
  have outcome := vmMapRam_rule
    (fun left frames state => gathering left frames state ∧
      MapsUpTo (state.mm caller) base ∧ Growing caller limit state)
    (fun next frames state => mapping next frames state ∧
      MapsUpTo (state.mm caller) next ∧ Growing caller limit state)
    ?grab ?switch ?map (by omega) ?start ranged
  case start =>
    refine ⟨start, ?_, ?_, by simp [Mm.setLimits], by simp [Mm.setLimits]⟩
    · rw [Mem.mm_setMm_self]
      exact maps.congr rfl rfl
    · intro other different
      rw [Mem.mm_setMm_of_ne _ _ different]
      exact paged other
  case grab =>
    rintro left frames before fpn after ⟨gathered, beforeMaps, growing⟩ grabs
    obtain ⟨untouched, _, _, _, sameArea⟩ := grabs.frame
    exact ⟨grab _ _ _ _ _ gathered beforeMaps grabs, beforeMaps.grab grabs,
      growing.congr untouched sameArea⟩
  case switch =>
    rintro frames before ⟨gathered, beforeMaps, growing⟩
    exact ⟨switch _ _ gathered, beforeMaps, growing⟩
  case map =>
    rintro pgn fpn frames before ⟨mapped, beforeMaps, growing⟩
    refine ⟨map _ _ _ _ mapped beforeMaps, ?_, growing.congr ?_ ?_⟩
    · rw [Mem.mm_setMm_self]
      exact beforeMaps.mapNext fpn
    · intro other different
      rw [Mem.mm_setMm_of_ne _ _ different]
    · rw [Mem.mm_setMm_self]
      rfl
  rcases outcome with ⟨mapped, afterMaps, growing⟩ |
    ⟨remaining, taken, before, ⟨gathered, beforeMaps, growing⟩, givesUp⟩
  · exact ⟨finish mem' growing afterMaps, growing.vmEnd, Or.inl mapped⟩
  · obtain ⟨untouched, _, _, _, sameArea⟩ := givesUp.frame
    have after := growing.congr untouched sameArea
    exact ⟨finish mem' after ((beforeMaps.giveUp givesUp).mono (by omega)), after.vmEnd,
      Or.inr ⟨remaining, taken, before, gathered, givesUp⟩⟩

/-- A size that does not wrap asks for a natural number of pages, and a limit in
the address space is computed without wrapping. -/
theorem FitsIn.of_grownEnd
    {mm : Mm}
    {size pages : Int}
    (paged : Paged mm)
    (nonneg : 0 ≤ size)
    (grows : growth mm size = some pages)
    (inSpace : grownEnd mm pages ≤ 2 ^ 22) :
    FitsIn mm pages := by
  obtain ⟨rfl, _, below⟩ := growth_bounds grows
  have oldInSpace := paged.inSpace
  have sbrk := paged.sbrk
  have quotient : (size + 255).tdiv 256 = (size + 255) / 256 :=
    Int.tdiv_eq_ediv_of_nonneg (by omega)
  rw [quotient] at inSpace ⊢
  have limit := toULong_of_mem
    (show (0 : Int) ≤ mm.mmap.sbrk + (size + 255) / 256 * 256 by omega)
    (show (mm.mmap.sbrk : Int) + (size + 255) / 256 * 256 < 2 ^ 64 by omega)
  rw [grownEnd] at inSpace
  exact ⟨by omega, by omega⟩

/-- A page that was brought in is online in the frame of the victim. -/
theorem PageIn.online
    {mem mem' : Mem ι}
    {caller : ι}
    {pgn : Pgn}
    {vicfpn : Nat}
    (pageIn : PageIn mem caller pgn vicfpn mem') :
    onlineFrame ((mem'.mm caller).pgd pgn) = some vicfpn := by
  cases pageIn with
  | replaced victim younger slot mp _ _ _ =>
      have narrow := Nat.mod_eq_of_lt (pagingFpn_lt ((mem.mm caller).pgd victim))
      simp only [Mem.mm_setMm_self, Mm.enlistPgnNode_pgd, Mm.setPte_pgd_self,
        onlineFrame_pteSetFpn, narrow]

/-- Changes that are not about pages. -/
theorem paged_quiet
    {mem : Mem ι}
    {caller : ι}
    {mm : Mm}
    (paged : ∀ proc, Paged (mem.mm proc))
    (same : SamePages (mem.mm caller) mm)
    (proc : ι) :
    Paged ((mem.setMm caller mm).mm proc) :=
  Mem.forall_mm_setMm Paged paged ((paged caller).congr same) proc

/-- Bringing in a page of the area. -/
theorem paged_pageIn
    {mem mem' : Mem ι}
    {caller : ι}
    {pgn : Pgn}
    {vicfpn : Nat}
    (paged : ∀ proc, Paged (mem.mm proc))
    (absent : pagingPagePresent ((mem.mm caller).pgd pgn) = false)
    (inArea : pgn.val * 256 < (mem.mm caller).mmap.vmEnd)
    (pageIn : PageIn mem caller pgn vicfpn mem')
    (proc : ι) :
    Paged (mem'.mm proc) := by
  obtain ⟨maps, aligned, inSpace, sbrk⟩ := paged caller
  cases pageIn with
  | replaced victim younger slot mp oldest _ _ =>
      have different : pgn ≠ victim := maps.ne_victim oldest absent
      have evicted := maps.evict oldest
        (pteSetSwap ((mem.mm caller).pgd victim) (mem.pcb caller).activeMswpId slot)
      have mapped := evicted.mapAbsent (pagingFpn ((mem.mm caller).pgd victim))
        (show pgn.val < (mem.mm caller).mmap.vmEnd / 256 by omega)
        (by simpa [Mm.setPte, different] using absent)
      rw [Mm.setPte_pgd_of_ne _ _ different] at mapped
      refine Mem.forall_mm_setMm Paged ?_ ⟨mapped, aligned, inSpace, sbrk⟩ proc
      simpa using paged

/-! ## Page table entries of all processes -/

variable {R : Type}

/-- What the page table entries of all processes hold, under some decoding. -/
def Mem.decoded (mem : Mem ι) (decode : Pte → Option R) (page : ι × Pgn) : Option R :=
  decode ((mem.mm page.1).pgd page.2)

omit [DecidableEq ι] in
theorem Mem.decoded_congr
    {mem mem' : Mem ι}
    (decode : Pte → Option R)
    (samePgd : ∀ proc, (mem'.mm proc).pgd = (mem.mm proc).pgd) :
    mem'.decoded decode = mem.decoded decode := by
  funext page
  rw [decoded, decoded, samePgd]

/-- Storing an entry of a process. -/
theorem Mem.decoded_setMm
    (mem : Mem ι)
    {caller : ι}
    {mm : Mm}
    {pgn : Pgn}
    {pte : Pte}
    (decode : Pte → Option R)
    (stored : mm.pgd = Function.update (mem.mm caller).pgd pgn pte) :
    (mem.setMm caller mm).decoded decode =
      Function.update (mem.decoded decode) (caller, pgn) (decode pte) := by
  funext page
  obtain ⟨proc, other⟩ := page
  by_cases sameProc : proc = caller
  · subst sameProc
    by_cases samePgn : other = pgn
    · subst samePgn
      simp [decoded, stored]
    · have different : (proc, other) ≠ (proc, pgn) := by
        simpa using samePgn
      rw [Function.update_of_ne different]
      simp [decoded, stored, samePgn]
  · have different : (proc, other) ≠ (caller, pgn) := by
      simp [sameProc]
    rw [Function.update_of_ne different, decoded, decoded, Mem.mm_setMm_of_ne _ _ sameProc]

theorem Mem.pgd_setMm_congr
    {mem : Mem ι}
    {caller : ι}
    {mm : Mm}
    (samePgd : mm.pgd = (mem.mm caller).pgd)
    (proc : ι) :
    ((mem.setMm caller mm).mm proc).pgd = (mem.mm proc).pgd := by
  by_cases same : proc = caller
  · subst same
    rw [Mem.mm_setMm_self, samePgd]
  · rw [Mem.mm_setMm_of_ne _ _ same]

theorem Mem.vmEnd_setMm_congr
    {mem : Mem ι}
    {caller : ι}
    {mm : Mm}
    (sameEnd : mm.mmap.vmEnd = (mem.mm caller).mmap.vmEnd)
    (proc : ι) :
    ((mem.setMm caller mm).mm proc).mmap.vmEnd = (mem.mm proc).mmap.vmEnd := by
  by_cases same : proc = caller
  · subst same
    rw [Mem.mm_setMm_self, sameEnd]
  · rw [Mem.mm_setMm_of_ne _ _ same]

/-! ## RAM frames -/

/-- The online pages of all processes hold distinct RAM frames; the free frames
and the given frames, which are taken and not yet mapped, are distinct and held
by no page. -/
structure RamOwned (mem : Mem ι) (frames : List Nat) : Prop where
  exclusive : Exclusive (mem.decoded onlineFrame)
    (fun fpn => fpn ∈ mem.mram.freeFpList.nodes ++ frames)
  nodup : (mem.mram.freeFpList.nodes ++ frames).Nodup
  small : ∀ fpn ∈ frames, fpn < 2 ^ 13

namespace RamOwned

variable {mem mem' : Mem ι} {frames : List Nat} {caller : ι}

omit [DecidableEq ι] in
theorem of_noPages
    (noPages : ∀ proc, NoPages (mem.mm proc))
    (nodup : mem.mram.freeFpList.nodes.Nodup) :
    RamOwned mem [] where
  exclusive := Exclusive.of_none fun page => by
    simp [Mem.decoded, onlineFrame, (noPages page.1).absent]
  nodup := by simpa using nodup
  small := by simp

omit [DecidableEq ι] in
/-- Frames that are taken and not mapped may get lost. -/
theorem forget (owned : RamOwned mem frames) : RamOwned mem [] where
  exclusive := owned.exclusive.mono fun fpn spare => by
    rw [List.append_nil] at spare
    exact List.mem_append_left _ spare
  nodup := by
    rw [List.append_nil]
    exact (List.nodup_append.mp owned.nodup).1
  small := by simp

omit [DecidableEq ι] in
theorem congr
    (owned : RamOwned mem frames)
    (samePgd : ∀ proc, (mem'.mm proc).pgd = (mem.mm proc).pgd)
    (sameFree : mem'.mram.freeFpList = mem.mram.freeFpList) :
    RamOwned mem' frames where
  exclusive := by
    rw [Mem.decoded_congr onlineFrame samePgd, sameFree]
    exact owned.exclusive
  nodup := by
    rw [sameFree]
    exact owned.nodup
  small := owned.small

/-- Taking a frame. -/
theorem grab
    {fpn bound : Nat}
    (owned : RamOwned mem frames)
    (maps : MapsUpTo (mem.mm caller) bound)
    (smallHead : ∀ head ∈ mem.mram.freeFpList.nodes.take 1, head < 2 ^ 13)
    (grabs : Grabs mem caller fpn mem') :
    RamOwned mem' (fpn :: frames) := by
  cases grabs with
  | taken fpn rest head =>
      have reorder : (mem.mram.freeFpList.nodes ++ frames).Perm
          (rest.nodes ++ fpn :: frames) := by
        rw [head]
        exact List.perm_middle.symm
      constructor
      · apply owned.exclusive.mono
        intro other spare
        exact reorder.mem_iff.mpr spare
      · exact reorder.nodup_iff.mp owned.nodup
      · intro other member
        rcases List.mem_cons.mp member with rfl | older
        · exact smallHead other (by simp [head])
        · exact owned.small other older
  | evicted victim younger device slot mp full oldest _ _ =>
      obtain ⟨online, _, _, _⟩ := maps.victim oldest
      have held : mem.decoded onlineFrame (caller, victim) =
          some (pagingFpn ((mem.mm caller).pgd victim)) := online
      have notSpare := owned.exclusive.notSpare _ _ held
      constructor
      · rw [Mem.decoded_setMm (mem.setMswp device mp) onlineFrame rfl,
          onlineFrame_pteSetSwap]
        apply owned.exclusive.release held
        intro other spare
        simp only [Mem.mram_setMm, Mem.mram_setMswp, full, List.nil_append,
          List.mem_cons] at spare ⊢
        exact spare.symm
      · simp only [Mem.mram_setMm, Mem.mram_setMswp, full, List.nil_append] at notSpare ⊢
        have nodup := owned.nodup
        rw [full, List.nil_append] at nodup
        exact List.nodup_cons.mpr ⟨notSpare, nodup⟩
      · intro other member
        rcases List.mem_cons.mp member with rfl | older
        · exact pagingFpn_lt _
        · exact owned.small other older

/-- Mapping a page to a frame that was taken. -/
theorem mapPage
    {fpn : Nat}
    (owned : RamOwned mem (fpn :: frames))
    (caller : ι)
    (pgn : Pgn) :
    RamOwned (mem.setMm caller ((mem.mm caller).mapPage pgn fpn)) frames := by
  obtain ⟨notAgain, nodup⟩ := List.nodup_cons.mp (List.nodup_middle.mp owned.nodup)
  have cut : fpn % 2 ^ 13 = fpn := Nat.mod_eq_of_lt (owned.small fpn (by simp))
  constructor
  · rw [Mem.decoded_setMm mem onlineFrame rfl, onlineFrame_pteSetFpn, cut]
    apply owned.exclusive.assign
    · simp
    · intro other spare
      refine ⟨?_, ?_⟩
      · rw [List.mem_append] at spare ⊢
        exact spare.imp id (List.mem_cons_of_mem _)
      · rintro rfl
        exact notAgain spare
  · exact nodup
  · exact fun other member => owned.small other (List.mem_cons_of_mem _ member)

/-- Giving up keeps the frames of the caller's pages. -/
theorem giveUp
    (owned : RamOwned mem frames)
    (givesUp : GivesUp mem caller mem') :
    RamOwned mem' [] := by
  apply owned.forget.congr givesUp.samePgd
  rw [givesUp.frame.2.1]

/-- Bringing a page in hands the frame of the victim to the page. -/
theorem pageIn
    {pgn : Pgn}
    {bound vicfpn : Nat}
    (owned : RamOwned mem [])
    (maps : MapsUpTo (mem.mm caller) bound)
    (absent : pagingPagePresent ((mem.mm caller).pgd pgn) = false)
    (pageIn : PageIn mem caller pgn vicfpn mem') :
    RamOwned mem' [] := by
  cases pageIn with
  | replaced victim younger slot mp oldest _ _ =>
      obtain ⟨online, _, _, _⟩ := maps.victim oldest
      have held : mem.decoded onlineFrame (caller, victim) =
          some (pagingFpn ((mem.mm caller).pgd victim)) := online
      have different : pgn ≠ victim := maps.ne_victim oldest absent
      -- first the victim gives its frame back, then the page takes it
      have released : RamOwned
          ((mem.setMswp (mem.pcb caller).activeMswp mp).setMm caller
            ({ mem.mm caller with fifoPgn := younger }.setPte victim
              (pteSetSwap ((mem.mm caller).pgd victim) (mem.pcb caller).activeMswpId slot)))
          [pagingFpn ((mem.mm caller).pgd victim)] := by
        constructor
        · rw [Mem.decoded_setMm (mem.setMswp _ mp) onlineFrame rfl,
            onlineFrame_pteSetSwap]
          apply owned.exclusive.release held
          intro other spare
          simpa using spare
        · rw [List.nodup_append_comm]
          exact List.nodup_cons.mpr ⟨by simpa using owned.exclusive.notSpare _ _ held,
            by simpa using owned.nodup⟩
        · intro other member
          rw [List.mem_singleton.mp member]
          exact pagingFpn_lt _
      have mapped := released.mapPage caller pgn
      simpa [Mm.mapPage, Mm.setPte, different] using mapped

end RamOwned

/-! ## Swap slots -/

/-- A swap frame of a device that is on the free list of the device. -/
def Mem.FreeSlot (mem : Mem ι) (slot : Nat × Nat) : Prop :=
  ∃ device : Fin 4, device.val = slot.1 ∧ slot.2 ∈ (mem.mswp device).freeFpList.nodes

/-- The swapped pages of all processes hold distinct swap slots, none of them
free. -/
structure SwapOwned (mem : Mem ι) : Prop where
  exclusive : Exclusive (mem.decoded swapSlot) mem.FreeSlot
  nodup : ∀ device, (mem.mswp device).freeFpList.nodes.Nodup
  small : ∀ device, ∀ slot ∈ (mem.mswp device).freeFpList.nodes, slot < 2 ^ 21

namespace SwapOwned

variable {mem mem' : Mem ι} {caller : ι}

omit [DecidableEq ι] in
theorem of_noPages
    (noPages : ∀ proc, NoPages (mem.mm proc))
    (nodup : ∀ device, (mem.mswp device).freeFpList.nodes.Nodup)
    (small : ∀ device, ∀ slot ∈ (mem.mswp device).freeFpList.nodes, slot < 2 ^ 21) :
    SwapOwned mem where
  exclusive := Exclusive.of_none fun page => by
    simp [Mem.decoded, swapSlot, (noPages page.1).absent]
  nodup := nodup
  small := small

omit [DecidableEq ι] in
theorem congr
    (owned : SwapOwned mem)
    (samePgd : ∀ proc, (mem'.mm proc).pgd = (mem.mm proc).pgd)
    (sameFree : ∀ device, (mem'.mswp device).freeFpList = (mem.mswp device).freeFpList) :
    SwapOwned mem' where
  exclusive := by
    rw [Mem.decoded_congr swapSlot samePgd]
    apply owned.exclusive.mono
    rintro slot ⟨device, index, free⟩
    exact ⟨device, index, sameFree device ▸ free⟩
  nodup := fun device => sameFree device ▸ owned.nodup device
  small := fun device => sameFree device ▸ owned.small device

/-- A page moves to the first free frame of a device. -/
theorem swapOut
    (owned : SwapOwned mem)
    {device : Fin 4}
    {slot : Nat}
    {mp : Memphy}
    {mm : Mm}
    {victim : Pgn}
    {pte : Pte}
    (head : (mem.mswp device).freeFpList.nodes = slot :: mp.freeFpList.nodes)
    (stored : mm.pgd =
      Function.update (mem.mm caller).pgd victim (pteSetSwap pte (device.val : Nat) slot)) :
    SwapOwned ((mem.setMswp device mp).setMm caller mm) := by
  have nodup := owned.nodup device
  have small := owned.small device
  rw [head] at nodup small
  have narrowDevice : device.val % 32 = device.val := by omega
  have narrowSlot : slot % 2 ^ 21 = slot := Nat.mod_eq_of_lt (small slot (by simp))
  have lists : ∀ other, ((mem.setMswp device mp).mswp other).freeFpList.nodes =
      if other = device then mp.freeFpList.nodes else (mem.mswp other).freeFpList.nodes := by
    intro other
    split
    · rename_i same
      rw [same, Mem.mswp_setMswp_self]
    · rename_i different
      rw [Mem.mswp_setMswp_of_ne _ _ different]
  constructor
  · rw [Mem.decoded_setMm (mem.setMswp device mp) swapSlot stored, swapSlot_pteSetSwap,
      narrowDevice, narrowSlot]
    apply owned.exclusive.assign
    · exact ⟨device, rfl, by simp [head]⟩
    · rintro ⟨typ, off⟩ ⟨other, rfl, free⟩
      rw [Mem.mswp_setMm, lists] at free
      split at free
      · rename_i same
        subst same
        refine ⟨⟨other, rfl, by simp [head, free]⟩, ?_⟩
        rintro ⟨⟩
        exact (List.nodup_cons.mp nodup).1 free
      · rename_i different
        refine ⟨⟨other, rfl, free⟩, ?_⟩
        intro same
        exact different (Fin.ext (Prod.mk.inj same).1)
  · intro other
    rw [Mem.mswp_setMm, lists]
    split
    · exact (List.nodup_cons.mp nodup).2
    · exact owned.nodup other
  · intro other
    rw [Mem.mswp_setMm, lists]
    split
    · exact fun member inList => small member (List.mem_cons_of_mem _ inList)
    · exact owned.small other

/-- A page that is not present gets a frame. -/
theorem mapAbsent
    (owned : SwapOwned mem)
    {mm : Mm}
    {pgn : Pgn}
    {pte : Pte}
    {fpn : Nat}
    (absent : pagingPagePresent ((mem.mm caller).pgd pgn) = false)
    (stored : mm.pgd = Function.update (mem.mm caller).pgd pgn (pteSetFpn pte fpn)) :
    SwapOwned (mem.setMm caller mm) := by
  have same : (mem.setMm caller mm).decoded swapSlot = mem.decoded swapSlot := by
    rw [Mem.decoded_setMm mem swapSlot stored, swapSlot_pteSetFpn]
    apply Function.update_eq_self_iff.mpr
    simp [Mem.decoded, swapSlot, absent]
  constructor
  · rw [same]
    exact owned.exclusive
  · exact owned.nodup
  · exact owned.small

theorem grab
    {fpn : Nat}
    (owned : SwapOwned mem)
    (grabs : Grabs mem caller fpn mem') :
    SwapOwned mem' := by
  cases grabs with
  | taken fpn rest _ => exact owned.congr (fun _ => rfl) (fun _ => rfl)
  | evicted victim younger device slot mp _ _ offers _ =>
      exact owned.swapOut offers.head rfl

theorem giveUp
    (owned : SwapOwned mem)
    (givesUp : GivesUp mem caller mem') :
    SwapOwned mem' := by
  apply owned.congr givesUp.samePgd
  intro device
  rw [givesUp.frame.2.2.1]

theorem pageIn
    {pgn : Pgn}
    {bound vicfpn : Nat}
    (owned : SwapOwned mem)
    (maps : MapsUpTo (mem.mm caller) bound)
    (active : (mem.pcb caller).activeMswpId = (mem.pcb caller).activeMswp.val)
    (absent : pagingPagePresent ((mem.mm caller).pgd pgn) = false)
    (pageIn : PageIn mem caller pgn vicfpn mem') :
    SwapOwned mem' := by
  cases pageIn with
  | replaced victim younger slot mp oldest head _ =>
      have different : pgn ≠ victim := maps.ne_victim oldest absent
      have evicts : ({ mem.mm caller with fifoPgn := younger }.setPte victim
          (pteSetSwap ((mem.mm caller).pgd victim) (mem.pcb caller).activeMswpId slot)).pgd =
          Function.update (mem.mm caller).pgd victim
            (pteSetSwap ((mem.mm caller).pgd victim)
              ((mem.pcb caller).activeMswp.val : Nat) slot) := by
        rw [active]
        rfl
      have evicted := owned.swapOut head evicts
      have maps : ((({ mem.mm caller with fifoPgn := younger }.setPte victim
          (pteSetSwap ((mem.mm caller).pgd victim) (mem.pcb caller).activeMswpId slot)).setPte
            pgn (pteSetFpn ((mem.mm caller).pgd pgn)
              (pagingFpn ((mem.mm caller).pgd victim)))).enlistPgnNode pgn).pgd =
          Function.update
            (((mem.setMswp (mem.pcb caller).activeMswp mp).setMm caller
              ({ mem.mm caller with fifoPgn := younger }.setPte victim
                (pteSetSwap ((mem.mm caller).pgd victim) (mem.pcb caller).activeMswpId
                  slot))).mm caller).pgd
            pgn (pteSetFpn ((mem.mm caller).pgd pgn)
              (pagingFpn ((mem.mm caller).pgd victim))) := by
        rw [Mem.mm_setMm_self]
        rfl
      have mapped := evicted.mapAbsent (by simpa [Mm.setPte, different] using absent) maps
      simpa using mapped

end SwapOwned

end Memory
end Ossim
