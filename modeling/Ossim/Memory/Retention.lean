import Ossim.Library.Conserved
import Ossim.Memory.Backing

/-!
# When a frame is lost

Every frame of a device is on its free list or named by an entry of an
unfinished process, until one of these gets rid of its last trace.  A process
that finishes returns none of its frames, since `free_pcb_memph` is never
called; a growth that fails midway keeps the frames gathered so far; an entry of
a page that is mapped again is overwritten; a number that does not fit in its
field of an entry is cut off; and `pg_getpage` records `active_mswp_id`, which
nothing assigns, as the device of the victim.
-/

namespace Ossim
namespace Memory

open CInt Transition

namespace Retention

variable {ι : Type}

/-! ## Frames with a place -/

/-- A frame of a swap device. -/
def Slot (mem : Mem ι) (slot : Nat × Nat) : Prop :=
  ∃ device : Fin 4, device.val = slot.1 ∧ slot.2 < (mem.mswp device).maxsz / pagingPagesz

/-- Every frame has a place: on the free list of its device, in an entry of an
active process, or, for frames of the RAM, among those in hand.  The processes
have at most 16384 pages, each listed at most once and only while online. -/
structure Placed (mem : Mem ι) (active : ι → Prop) (hand : List Nat) : Prop where
  maps : ∀ proc, MapsUpTo (mem.mm proc) 16384
  ram : Conserved (fun fpn => fpn < mem.mram.maxsz / pagingPagesz) (fun page => active page.1)
    (mem.decoded onlineFrame) (fun fpn => fpn ∈ mem.mram.freeFpList.nodes ++ hand)
  swap : Conserved (Slot mem) (fun page => active page.1) (mem.decoded swapSlot) mem.FreeSlot

namespace Placed

variable {mem mem' : Mem ι} {active : ι → Prop} {hand : List Nat} {caller : ι}

/-- Only the page tables, the page lists and the free lists matter. -/
theorem congr
    (placed : Placed mem active hand)
    (maps : ∀ proc, MapsUpTo (mem'.mm proc) 16384)
    (samePgd : ∀ proc, (mem'.mm proc).pgd = (mem.mm proc).pgd)
    (ram : mem'.mram.freeFpList = mem.mram.freeFpList ∧ mem'.mram.maxsz = mem.mram.maxsz)
    (swap : mem'.mswp = mem.mswp) :
    Placed mem' active hand where
  maps := maps
  ram := by
    rw [Mem.decoded_congr onlineFrame samePgd, ram.1, ram.2]
    exact placed.ram
  swap := by
    have sameSlots : Slot mem' = Slot mem := by
      unfold Slot
      rw [swap]
    have sameFree : mem'.FreeSlot = mem.FreeSlot := by
      unfold Mem.FreeSlot
      rw [swap]
    rw [Mem.decoded_congr swapSlot samePgd, sameSlots, sameFree]
    exact placed.swap

variable [DecidableEq ι]

/-- Changes of a process that are not about its pages. -/
theorem quiet
    {mm : Mm}
    (placed : Placed mem active hand)
    (samePgd : mm.pgd = (mem.mm caller).pgd)
    (sameFifo : mm.fifoPgn = (mem.mm caller).fifoPgn) :
    Placed (mem.setMm caller mm) active hand := by
  refine placed.congr ?_ (Mem.pgd_setMm_congr samePgd) ⟨rfl, rfl⟩ rfl
  exact Mem.forall_mm_setMm (MapsUpTo · 16384) placed.maps
    ((placed.maps caller).congr samePgd sameFifo)

/-- The oldest page of a process moves to a free frame of a device, which its new
entry names, and its RAM frame is in hand. -/
theorem evict
    {younger : List Pgn}
    {victim : Pgn}
    {device : Fin 4}
    {slot : Nat}
    {mp : Memphy}
    {swptyp : Int}
    (placed : Placed mem active hand)
    (isActive : active caller)
    (oldest : (mem.mm caller).fifoPgn = younger ++ [victim])
    (head : (mem.mswp device).freeFpList.nodes = slot :: mp.freeFpList.nodes)
    (sameSize : mp.maxsz = (mem.mswp device).maxsz)
    (recorded : swapSlot (pteSetSwap ((mem.mm caller).pgd victim) swptyp slot) =
      some (device.val, slot)) :
    Placed
      ((mem.setMswp device mp).setMm caller
        ({ mem.mm caller with fifoPgn := younger }.setPte victim
          (pteSetSwap ((mem.mm caller).pgd victim) swptyp slot)))
      active (pagingFpn ((mem.mm caller).pgd victim) :: hand) := by
  obtain ⟨online, _, _, _⟩ := (placed.maps caller).victim oldest
  constructor
  case maps =>
    exact Mem.forall_mm_setMm (MapsUpTo · 16384) placed.maps
      ((placed.maps caller).evict oldest _)
  case ram =>
    rw [Mem.decoded_setMm (mem.setMswp device mp) onlineFrame rfl, onlineFrame_pteSetSwap]
    apply placed.ram.exchange isActive
    · intro fpn spare
      left
      simp only [Mem.mram_setMm, Mem.mram_setMswp, List.mem_append, List.mem_cons] at spare ⊢
      exact spare.imp_right Or.inr
    · intro fpn holds
      have victimFpn : some (pagingFpn ((mem.mm caller).pgd victim)) = some fpn :=
        online.symm.trans holds
      left
      simp [Option.some.inj victimFpn]
  case swap =>
    have sizes : Slot ((mem.setMswp device mp).setMm caller
        ({ mem.mm caller with fifoPgn := younger }.setPte victim
          (pteSetSwap ((mem.mm caller).pgd victim) swptyp slot))) = Slot mem := by
      funext ⟨typ, off⟩
      apply propext
      refine exists_congr fun other => and_congr_right fun _ => ?_
      by_cases same : other = device
      · subst same
        simp [sameSize]
      · simp [same]
    rw [Mem.decoded_setMm (mem.setMswp device mp) swapSlot rfl, recorded, sizes]
    apply placed.swap.exchange isActive
    · rintro ⟨typ, off⟩ ⟨other, rfl, free⟩
      by_cases same : other = device
      · subst same
        rw [head] at free
        rcases List.mem_cons.mp free with rfl | later
        · exact Or.inr rfl
        · exact Or.inl ⟨other, rfl, by simpa using later⟩
      · exact Or.inl ⟨other, rfl, by simpa [same] using free⟩
    · intro other holds
      have notSwapped := (onlineFrame_eq_some_iff.mp online).2.1
      have swapped := (swapSlot_isSome_iff.mp (Option.isSome_iff_exists.mpr ⟨other, holds⟩)).2
      dsimp only at swapped
      rw [notSwapped] at swapped
      cases swapped

omit [DecidableEq ι] in
/-- Taking a free frame of the RAM. -/
theorem take
    {fpn : Nat}
    {rest used : Chain Nat}
    (placed : Placed mem active hand)
    (head : mem.mram.freeFpList.nodes = fpn :: rest.nodes) :
    Placed (mem.setMram { mem.mram with freeFpList := rest, usedFpList := used })
      active (fpn :: hand) where
  maps := placed.maps
  ram := by
    apply placed.ram.mono
    intro other spare
    rw [head] at spare
    simp only [Mem.mram_setMram, List.mem_append, List.mem_cons] at spare ⊢
    tauto
  swap := placed.swap

/-- Mapping an absent page to a frame in hand that fits in its field. -/
theorem mapPage
    {fpn : Nat}
    {pgn : Pgn}
    (placed : Placed mem active (fpn :: hand))
    (isActive : active caller)
    (small : fpn < 2 ^ 13)
    (absent : pagingPagePresent ((mem.mm caller).pgd pgn) = false) :
    Placed (mem.setMm caller ((mem.mm caller).mapPage pgn fpn)) active hand := by
  constructor
  case maps =>
    exact Mem.forall_mm_setMm (MapsUpTo · 16384) placed.maps
      ((placed.maps caller).mapAbsent fpn pgn.isLt absent)
  case ram =>
    rw [Mem.decoded_setMm mem onlineFrame rfl, onlineFrame_pteSetFpn, Nat.mod_eq_of_lt small]
    apply placed.ram.exchange isActive
    · intro other spare
      simp only [Mem.mram_setMm, List.mem_append, List.mem_cons, Option.some.injEq] at spare ⊢
      tauto
    · intro other holds
      simp [Mem.decoded, onlineFrame, absent] at holds
  case swap =>
    rw [Mem.decoded_setMm mem swapSlot rfl, swapSlot_pteSetFpn]
    apply placed.swap.exchange isActive
    · exact fun slot free => Or.inl free
    · intro slot holds
      simp [Mem.decoded, swapSlot, absent] at holds

/-- Giving up takes the victim off the page list and does nothing else. -/
theorem giveUp
    (placed : Placed mem active hand)
    (givesUp : GivesUp mem caller mem') :
    Placed mem' active hand := by
  obtain ⟨untouched, sameRam, sameSwap, _⟩ := givesUp.frame
  refine placed.congr ?_ givesUp.samePgd ⟨by rw [sameRam], by rw [sameRam]⟩ sameSwap
  intro proc
  by_cases same : proc = caller
  · subst same
    exact (placed.maps proc).giveUp givesUp
  · rw [untouched proc same]
    exact placed.maps proc

/-- Bringing a page in: the victim leaves, and its frame takes the page. -/
theorem pageIn
    {pgn : Pgn}
    {vicfpn : Nat}
    (placed : Placed mem active [])
    (isActive : active caller)
    (absent : pagingPagePresent ((mem.mm caller).pgd pgn) = false)
    (device : (mem.pcb caller).activeMswpId % 32 = (mem.pcb caller).activeMswp.val)
    (small : ∀ slot ∈ (mem.mswp (mem.pcb caller).activeMswp).freeFpList.nodes.head?, slot < 2 ^ 21)
    (pageIn : PageIn mem caller pgn vicfpn mem') :
    Placed mem' active [] := by
  cases pageIn with
  | replaced victim younger slot mp oldest head sameDevice =>
      have different : pgn ≠ victim := (placed.maps caller).ne_victim oldest absent
      have recorded : swapSlot (pteSetSwap ((mem.mm caller).pgd victim)
          (mem.pcb caller).activeMswpId slot) =
            some ((mem.pcb caller).activeMswp.val, slot) := by
        rw [swapSlot_pteSetSwap_int, device, Int.toNat_natCast,
          Nat.mod_eq_of_lt (small slot (by simp [head]))]
      have evicted := placed.evict isActive oldest head (by rw [sameDevice]) recorded
      have mapped := evicted.mapPage isActive (pagingFpn_lt _)
        (show pagingPagePresent ((Mem.mm _ caller).pgd pgn) = false by
          simpa [different] using absent)
      simpa [Mm.mapPage, different] using mapped

end Placed

/-! ## Growing an area -/

/-- The free frames of the swap devices in the order in which they are taken: the
active device comes first. -/
def slotOrder (mem : Mem ι) (caller : ι) : List Nat :=
  ((mem.pcb caller).activeMswp :: (List.finRange 4).erase (mem.pcb caller).activeMswp).flatMap
    fun device => (mem.mswp device).freeFpList.nodes

/-- The growth gets all its frames, and every one of them can be found in an
entry afterwards: the pages to map are absent and different, and the numbers of
the frames and the slots that are taken fit in their fields. -/
structure Mappable (mem : Mem ι) (caller : ι) (pages : Int) : Prop where
  supply : pages ≤ available mem caller
  once : pages ≤ 16384
  absent : ∀ page, page < pages.toNat →
    pagingPagePresent
      ((mem.mm caller).pgd (pagingPgn (toInt (mem.mm caller).mmap.vmEnd + page * 256))) = false
  frames : ∀ fpn ∈ mem.mram.freeFpList.nodes.take pages.toNat, fpn < 2 ^ 13
  slots : ∀ slot ∈ (slotOrder mem caller).take
    (pages.toNat - mem.mram.freeFpList.nodes.length), slot < 2 ^ 21

variable {mem mem' : Mem ι} {active : ι → Prop} {caller : ι}

/-- The order of the slots does not name a device twice. -/
theorem nodup_devices (first : Fin 4) :
    (first :: (List.finRange 4).erase first).Nodup :=
  List.nodup_cons.mpr
    ⟨(List.nodup_finRange 4).not_mem_erase, (List.nodup_finRange 4).erase first⟩

/-- Looking for a frame on a list of different devices takes the first of all
their frames. -/
theorem flatMap_of_offers
    {devices : List (Fin 4)}
    {device : Fin 4}
    {slot : Nat}
    {mp : Memphy}
    (nodup : devices.Nodup)
    (offers : Offers mem devices device slot mp) :
    devices.flatMap (fun other => (mem.mswp other).freeFpList.nodes) =
      slot :: devices.flatMap
        fun other => ((mem.setMswp device mp).mswp other).freeFpList.nodes := by
  obtain ⟨skipped, others, rfl, exhausted⟩ := offers.first
  rw [List.nodup_append, List.nodup_cons] at nodup
  obtain ⟨_, ⟨notLater, _⟩, apart⟩ := nodup
  have nothing : skipped.flatMap (fun other => (mem.mswp other).freeFpList.nodes) = [] :=
    List.flatMap_eq_nil_iff.mpr exhausted
  have sameSkipped : skipped.flatMap
      (fun other => ((mem.setMswp device mp).mswp other).freeFpList.nodes) = [] := by
    refine List.flatMap_eq_nil_iff.mpr fun other member => ?_
    have different : other ≠ device := apart other member device (by simp)
    rw [Mem.mswp_setMswp_of_ne _ _ different]
    exact exhausted other member
  have sameLater : others.flatMap
      (fun other => ((mem.setMswp device mp).mswp other).freeFpList.nodes) =
        others.flatMap (fun other => (mem.mswp other).freeFpList.nodes) := by
    refine List.flatMap_congr fun other member => ?_
    have different : other ≠ device := by
      rintro rfl
      exact notLater member
    rw [Mem.mswp_setMswp_of_ne _ _ different]
  rw [List.flatMap_append, List.flatMap_append, List.flatMap_cons, List.flatMap_cons, nothing,
    sameSkipped, sameLater, offers.head, Mem.mswp_setMswp_self]
  simp

/-- Trying the active device again after it had nothing to offer is no use. -/
theorem offers_devices
    {first device : Fin 4}
    {slot : Nat}
    {mp : Memphy}
    (offers : Offers mem (swapOrder first) device slot mp) :
    Offers mem (first :: (List.finRange 4).erase first) device slot mp := by
  let hasFree : Fin 4 → Bool := fun other => !(mem.mswp other).freeFpList.nodes.isEmpty
  have sameSearch : (first :: (List.finRange 4).erase first).find? hasFree =
      (swapOrder first).find? hasFree := by
    by_cases atFirst : hasFree first = true
    · simp [swapOrder, atFirst]
    · rw [swapOrder, List.find?_cons_of_neg atFirst, List.find?_cons_of_neg atFirst,
        (List.nodup_finRange 4).erase_eq_filter, List.find?_filter]
      congr 1
      funext other
      by_cases same : other = first
      · simp [same, atFirst]
      · simp [same]
  obtain ⟨⟨skipped, others, order, exhausted⟩, head, keeps⟩ := offers
  have found : (swapOrder first).find? hasFree = some device := by
    refine List.find?_eq_some_iff_append.mpr ⟨by simp [hasFree, head], skipped, others, order, ?_⟩
    intro earlier member
    simp [hasFree, exhausted earlier member]
  rw [← sameSearch] at found
  obtain ⟨_, skipped, others, order, exhausted⟩ := List.find?_eq_some_iff_append.mp found
  refine ⟨⟨skipped, others, order, fun earlier member => ?_⟩, head, keeps⟩
  simpa [hasFree] using exhausted earlier member

/-- While frames are taken for a growth. -/
structure Gathering (mem : Mem ι) (active : ι → Prop) (caller : ι) (mapstart : Int)
    (pages left : Nat) (frames : List Nat) : Prop where
  placed : Placed mem active frames
  absent : ∀ page, page < pages →
    pagingPagePresent ((mem.mm caller).pgd (pagingPgn (mapstart + page * 256))) = false
  small : ∀ fpn ∈ frames, fpn < 2 ^ 13
  frames : ∀ fpn ∈ mem.mram.freeFpList.nodes.take left, fpn < 2 ^ 13
  slots : ∀ slot ∈ (slotOrder mem caller).take (left - mem.mram.freeFpList.nodes.length),
    slot < 2 ^ 21

variable [DecidableEq ι]

/-- Taking a frame, with the slot of the victim in its entry. -/
theorem Gathering.grab
    {mapstart : Int}
    {pages left fpn : Nat}
    {frames : List Nat}
    (gathering : Gathering mem active caller mapstart pages (left + 1) frames)
    (isActive : active caller)
    (grabs : Grabs mem caller fpn mem') :
    Gathering mem' active caller mapstart pages left (fpn :: frames) := by
  obtain ⟨placed, absent, small, freeFrames, freeSlots⟩ := gathering
  cases grabs with
  | taken fpn rest head =>
      rw [head] at freeFrames freeSlots
      constructor
      case placed => exact placed.take head
      case absent => exact absent
      case small =>
        intro other member
        rcases List.mem_cons.mp member with rfl | older
        · exact freeFrames other (by simp)
        · exact small other older
      case frames =>
        intro other member
        exact freeFrames other (by simp [show other ∈ rest.nodes.take left from member])
      case slots =>
        intro slot member
        apply freeSlots
        rw [List.length_cons, Nat.add_sub_add_right]
        exact member
  | evicted victim younger device slot mp full oldest offers _ =>
      have order := flatMap_of_offers (nodup_devices _) (offers_devices offers)
      rw [full, List.length_nil, Nat.sub_zero, slotOrder, order, List.take_succ_cons] at freeSlots
      have recorded : swapSlot (pteSetSwap ((mem.mm caller).pgd victim) device.val slot) =
          some (device.val, slot) := by
        rw [swapSlot_pteSetSwap, Nat.mod_eq_of_lt (show device.val < 32 by omega),
          Nat.mod_eq_of_lt (freeSlots slot (by simp))]
      constructor
      case placed =>
        exact placed.evict isActive oldest offers.head (by rw [offers.keeps]) recorded
      case absent =>
        intro page below
        have different := (placed.maps caller).ne_victim oldest (absent page below)
        simpa [different] using absent page below
      case small =>
        intro other member
        rcases List.mem_cons.mp member with rfl | older
        · exact pagingFpn_lt _
        · exact small other older
      case frames =>
        intro other member
        simp [full] at member
      case slots =>
        intro other member
        apply freeSlots other
        apply List.mem_cons_of_mem
        simpa [full, slotOrder] using member

/-- While pages are mapped to the frames taken. -/
structure Mapping (mem : Mem ι) (active : ι → Prop) (caller : ι) (mapstart : Int)
    (pages page : Nat) (frames : List Nat) : Prop where
  placed : Placed mem active frames
  absent : ∀ later, page ≤ later → later < pages →
    pagingPagePresent ((mem.mm caller).pgd (pagingPgn (mapstart + later * 256))) = false
  small : ∀ fpn ∈ frames, fpn < 2 ^ 13
  count : page + frames.length = pages

/-- Mapping a page leaves the later ones absent, as they are different pages. -/
theorem Mapping.map
    {mapstart : Int}
    {pages page fpn : Nat}
    {frames : List Nat}
    (mapping : Mapping mem active caller mapstart pages page (fpn :: frames))
    (isActive : active caller)
    (once : pages ≤ 16384) :
    Mapping
      (mem.setMm caller
        ((mem.mm caller).mapPage (pagingPgn (mapstart + page * 256)) fpn))
      active caller mapstart pages (page + 1) frames := by
  obtain ⟨placed, absent, small, count⟩ := mapping
  rw [List.length_cons] at count
  constructor
  case placed =>
    exact placed.mapPage isActive (small fpn (by simp)) (absent page (Nat.le_refl _) (by omega))
  case absent =>
    intro later atLeast below
    have different : pagingPgn (mapstart + later * 256) ≠ pagingPgn (mapstart + page * 256) := by
      intro same
      have laterPgn := pagingPgn_val (mapstart + later * 256)
      have herePgn := pagingPgn_val (mapstart + page * 256)
      rw [same] at laterPgn
      omega
    simpa [Mm.mapPage, different] using absent later (by omega) below
  case small => exact fun other member => small other (List.mem_cons_of_mem _ member)
  case count => omega

/-- Without a supply nothing is taken, and nothing is mapped. -/
theorem Placed.vmMapRam_full
    {mapstart incpgnum rc : Int}
    (placed : Placed mem active [])
    (nothing : available mem caller = 0)
    (mapped : vmMapRam mem caller mapstart incpgnum = some (rc, mem')) :
    Placed mem' active [] := by
  have outcome := vmMapRam_each (fun _ frames state => frames = [] ∧ state = mem)
    (fun _ frames state => frames = [] ∧ state = mem) ?grab ?switch ?map ⟨rfl, rfl⟩ mapped
  case grab =>
    rintro left frames before fpn after ⟨rfl, rfl⟩ grabs
    have used := grabs.available
    omega
  case switch =>
    exact fun frames state _ unchanged => unchanged
  case map =>
    rintro page fpn frames state ⟨impossible, _⟩
    cases impossible
  rcases outcome with ⟨_, _, rfl⟩ | ⟨_, _, _, _, ⟨_, rfl⟩, givesUp⟩
  · exact placed
  · exact placed.giveUp givesUp

/-- With enough supply every frame that is taken ends up in an entry. -/
theorem Placed.vmMapRam_all
    {mapstart incpgnum rc : Int}
    (gathering : Gathering mem active caller mapstart incpgnum.toNat incpgnum.toNat [])
    (isActive : active caller)
    (supply : incpgnum ≤ available mem caller)
    (once : incpgnum ≤ 16384)
    (mapped : vmMapRam mem caller mapstart incpgnum = some (rc, mem')) :
    Placed mem' active [] := by
  have code := vmMapRam_eq_zero_iff mapped
  rw [if_pos supply] at code
  have outcome := vmMapRam_each
    (fun left frames state =>
      Gathering state active caller mapstart incpgnum.toNat left frames)
    (fun page frames state =>
      Mapping state active caller mapstart incpgnum.toNat page frames)
    ?grab ?switch ?map gathering mapped
  case grab =>
    exact fun left frames before fpn after gathered grabs => gathered.grab isActive grabs
  case switch =>
    intro frames state length gathered
    exact ⟨gathered.placed, fun later _ => gathered.absent later, gathered.small, by omega⟩
  case map =>
    exact fun page fpn frames state before => before.map isActive (by omega)
  rcases outcome with ⟨_, ended⟩ | ⟨failed, _⟩
  · exact ended.placed
  · omega

/-- A growth keeps every frame in its place if it gets nothing at all, or
everything and the entries can name it. -/
theorem Placed.grows
    {pages : Int}
    (placed : Placed mem active [])
    (isActive : active caller)
    (allowed : available mem caller = 0 ∨ Mappable mem caller pages)
    (grows : Grows mem caller pages mem') :
    Placed mem' active [] := by
  obtain ⟨rc, ranged⟩ := grows
  have limits (mm : Mm) (pgd : mm.pgd = (mem.mm caller).pgd)
      (fifoPgn : mm.fifoPgn = (mem.mm caller).fifoPgn) :
      Placed (mem.setMm caller mm) active [] ∧
        available (mem.setMm caller mm) caller = available mem caller ∧
        slotOrder (mem.setMm caller mm) caller = slotOrder mem caller :=
    ⟨placed.quiet pgd fifoPgn, by simp [available, freeSlots, fifoPgn], by simp [slotOrder]⟩
  obtain ⟨grown, supply, order⟩ := limits ((mem.mm caller).setLimits
    (grownEnd (mem.mm caller) pages) (grownEnd (mem.mm caller) pages)) rfl rfl
  rcases allowed with nothing | mappable
  · exact grown.vmMapRam_full (supply.trans nothing) ranged
  · refine Placed.vmMapRam_all ⟨grown, ?_, by simp, mappable.frames, ?_⟩ isActive
      (supply ▸ mappable.supply) mappable.once ranged
    · simpa [Mm.setLimits] using mappable.absent
    · rw [order]
      exact mappable.slots

/-! ## Accesses -/

omit [DecidableEq ι] in
/-- Writing a cell of the RAM. -/
theorem Placed.memphyWrite
    {mram : Memphy}
    {addr : Nat}
    {value : Byte}
    (placed : Placed mem active [])
    (written : Memory.memphyWrite mem.mram addr value = some mram) :
    Placed (mem.setMram mram) active [] := by
  obtain ⟨onlyStorage, _⟩ := memphyWrite_cases written
  refine placed.congr placed.maps (fun _ => rfl) ?_ rfl
  rw [Mem.mram_setMram, onlyStorage]
  exact ⟨rfl, rfl⟩

/-- The condition on an access to a page: it is present, or the entry of the
victim can name the active device and its first free frame. -/
def Accessible (mem : Mem ι) (caller : ι) (addr : Int) : Prop :=
  pagingPagePresent ((mem.mm caller).pgd (pagingPgn addr)) = true ∨
    ((mem.pcb caller).activeMswpId % 32 = (mem.pcb caller).activeMswp.val ∧
      ∀ slot ∈ (mem.mswp (mem.pcb caller).activeMswp).freeFpList.nodes.head?, slot < 2 ^ 21)

theorem Placed.pgGetpage
    {addr rc : Int}
    {fpn : Option Nat}
    (placed : Placed mem active [])
    (isActive : active caller)
    (accessible : Accessible mem caller addr)
    (accessed : Memory.pgGetpage mem caller (pagingPgn addr) = some (rc, mem', fpn)) :
    Placed mem' active [] := by
  obtain ⟨_, ⟨_, rfl, _⟩ | ⟨absent, vicfpn, pageIn, _⟩⟩ := pgGetpage_cases accessed
  · exact placed
  · rcases accessible with present | ⟨device, small⟩
    · rw [absent] at present
      cases present
    · exact placed.pageIn isActive absent device small pageIn

/-! ## Runs -/

/-- The memory, and which processes have finished. -/
structure State (ι : Type) where
  mem : Mem ι
  finished : ι → Bool

/-- What the CPUs do with the processes: execute an instruction of one, or take
one from the system that is at its end. -/
inductive Event (ι : Type)
  | inst (proc : ι) (inst : Inst)
  | finish (proc : ι)

/-- The memory after an instruction of an unfinished process.  Finishing one is
`free(proc)` and leaves the memory as it is. -/
def step (state : State ι) : Event ι → Option (State ι)
  | .inst proc inst =>
      if state.finished proc then
        none
      else
        (run state.mem proc inst).map fun mem => { state with mem := mem }
  | .finish proc =>
      if state.finished proc then
        none
      else
        some { state with finished := Function.update state.finished proc true }

/-- Every RAM frame is free or mapped by an online entry of an unfinished
process, and every swap frame is free or recorded in a swapped entry of one. -/
structure NoFrameLost (state : State ι) : Prop where
  ram : ∀ fpn, fpn < state.mem.mram.maxsz / pagingPagesz →
    fpn ∈ state.mem.mram.freeFpList.nodes ∨
      ∃ proc pgn, state.finished proc = false ∧
        onlineFrame ((state.mem.mm proc).pgd pgn) = some fpn
  swap : ∀ device : Fin 4, ∀ slot, slot < (state.mem.mswp device).maxsz / pagingPagesz →
    slot ∈ (state.mem.mswp device).freeFpList.nodes ∨
      ∃ proc pgn, state.finished proc = false ∧
        swapSlot ((state.mem.mm proc).pgd pgn) = some (device.val, slot)

/-- The condition on an event and the state before it.  An `ALLOC` that has to
grow the area finds no frame at all, or as many as it needs for pages that are
absent; an access is to a present page, or the entry of the victim can name its
slot; a process that finishes has no page. -/
def Retains (state : State ι) : Event ι → Prop
  | .inst proc (.alloc size _) =>
      ∀ pages ∈ growth (state.mem.mm proc) (toInt size),
        available state.mem proc = 0 ∨ Mappable state.mem proc pages
  | .inst _ (.free _) => True
  | .inst proc (.read source offset) =>
      ∀ index ∈ symrgIndex (toInt source),
        Accessible state.mem proc
          (accessAddr ((state.mem.mm proc).symrgtbl index) (toInt offset))
  | .inst proc (.write _ destination offset) =>
      ∀ index ∈ symrgIndex (toInt destination),
        Accessible state.mem proc
          (accessAddr ((state.mem.mm proc).symrgtbl index) (toInt offset))
  | .finish proc => ∀ pgn, pagingPagePresent ((state.mem.mm proc).pgd pgn) = false

/-- Formatted devices, and page tables and page lists without a page. -/
structure Start (state : State ι) : Prop where
  ram : Unused state.mem.mram
  swap : ∀ device, Unused (state.mem.mswp device)
  absent : ∀ proc pgn, pagingPagePresent ((state.mem.mm proc).pgd pgn) = false
  fifoPgn : ∀ proc, (state.mem.mm proc).fifoPgn = []

instance decidableMappable (mem : Mem ι) (caller : ι) (pages : Int) :
    Decidable (Mappable mem caller pages) :=
  decidable_of_iff
    (pages ≤ available mem caller ∧ pages ≤ 16384 ∧
      (∀ page, page < pages.toNat →
        pagingPagePresent
          ((mem.mm caller).pgd (pagingPgn (toInt (mem.mm caller).mmap.vmEnd + page * 256))) =
            false) ∧
      (∀ fpn ∈ mem.mram.freeFpList.nodes.take pages.toNat, fpn < 2 ^ 13) ∧
      ∀ slot ∈ (slotOrder mem caller).take (pages.toNat - mem.mram.freeFpList.nodes.length),
        slot < 2 ^ 21)
    ⟨fun conditions => ⟨conditions.1, conditions.2.1, conditions.2.2.1, conditions.2.2.2.1,
        conditions.2.2.2.2⟩,
      fun mappable => ⟨mappable.supply, mappable.once, mappable.absent, mappable.frames,
        mappable.slots⟩⟩

instance decidableAccessible (mem : Mem ι) (caller : ι) (addr : Int) :
    Decidable (Accessible mem caller addr) :=
  inferInstanceAs (Decidable (_ ∨ _ ∧ _))

instance decidableRetains (state : State ι) : ∀ event : Event ι, Decidable (Retains state event)
  | .inst proc (.alloc size _) =>
      inferInstanceAs (Decidable (∀ pages ∈ growth (state.mem.mm proc) (toInt size), _ ∨ _))
  | .inst _ (.free _) => isTrue trivial
  | .inst proc (.read source offset) =>
      inferInstanceAs (Decidable (∀ index ∈ symrgIndex (toInt source),
        Accessible state.mem proc
          (accessAddr ((state.mem.mm proc).symrgtbl index) (toInt offset))))
  | .inst proc (.write _ destination offset) =>
      inferInstanceAs (Decidable (∀ index ∈ symrgIndex (toInt destination),
        Accessible state.mem proc
          (accessAddr ((state.mem.mm proc).symrgtbl index) (toInt offset))))
  | .finish proc =>
      inferInstanceAs (Decidable
        (∀ pgn, pagingPagePresent ((state.mem.mm proc).pgd pgn) = false))

/-- The processes that have not finished. -/
def State.unfinished (state : State ι) (proc : ι) : Prop := state.finished proc = false

omit [DecidableEq ι] in
theorem placed_of_start
    {state : State ι}
    (start : Start state) :
    Placed state.mem state.unfinished [] where
  maps := fun proc =>
    { nodup := by simp [start.fifoPgn]
      online := by simp [start.fifoPgn]
      beyond := fun pgn _ => start.absent proc pgn }
  ram := by
    apply Conserved.of_spare
    intro fpn inRam
    rw [List.append_nil]
    exact start.ram.mem_iff.mpr (List.mem_range.mpr inRam)
  swap := by
    apply Conserved.of_spare
    rintro slot ⟨device, index, inDevice⟩
    exact ⟨device, index, (start.swap device).mem_iff.mpr (List.mem_range.mpr inDevice)⟩

omit [DecidableEq ι] in
theorem Placed.noFrameLost
    {state : State ι}
    (placed : Placed state.mem state.unfinished []) :
    NoFrameLost state where
  ram := by
    intro fpn inRam
    rcases placed.ram fpn inRam with free | ⟨⟨proc, pgn⟩, unfinished, holds⟩
    · exact Or.inl (by simpa using free)
    · exact Or.inr ⟨proc, pgn, unfinished, holds⟩
  swap := by
    intro device slot inDevice
    rcases placed.swap (device.val, slot) ⟨device, rfl, inDevice⟩ with
      ⟨other, same, free⟩ | ⟨⟨proc, pgn⟩, unfinished, holds⟩
    · rw [Fin.ext same] at free
      exact Or.inl free
    · exact Or.inr ⟨proc, pgn, unfinished, holds⟩

/-- An instruction under the condition keeps every frame in its place. -/
theorem placed_run
    {state : State ι}
    {proc : ι}
    {inst : Inst}
    (placed : Placed state.mem active [])
    (isActive : active proc)
    (allowed : Retains state (.inst proc inst))
    (ran : run state.mem proc inst = some mem') :
    Placed mem' active [] := by
  cases inst with
  | alloc size regIndex =>
      obtain ⟨middle, mm, rfl, same, unchanged | ⟨pages, grown, grows⟩⟩ := run_alloc_pages ran
      · rw [unchanged] at same ⊢
        exact placed.quiet same.pgd same.fifoPgn
      · exact (placed.grows isActive (allowed pages grown) grows).quiet same.pgd same.fifoPgn
  | free regIndex =>
      obtain ⟨mm, rfl, same⟩ := run_free_pages ran
      exact placed.quiet same.pgd same.fifoPgn
  | read source offset =>
      rcases run_read_cases ran with ⟨_, rfl⟩ | ⟨index, slot, code, byte, getval⟩
      · exact placed
      · obtain ⟨_, _, page, _⟩ := pgGetval_cases getval
        exact placed.pgGetpage isActive (allowed index (symrgIndex_eq_some_iff.mpr slot)) page
  | write data destination offset =>
      rcases run_write_cases ran with ⟨_, rfl⟩ | ⟨index, slot, code, setval⟩
      · exact placed
      · obtain ⟨_, middle, mram, page, written, _, rfl⟩ := pgSetval_cases setval
        exact (placed.pgGetpage isActive (allowed index (symrgIndex_eq_some_iff.mpr slot))
          page).memphyWrite written

/-- An event under the condition keeps every frame in its place. -/
theorem placed_step
    {state next : State ι}
    {event : Event ι}
    (placed : Placed state.mem state.unfinished [])
    (allowed : Retains state event)
    (taken : step state event = some next) :
    Placed next.mem next.unfinished [] := by
  cases event with
  | inst proc inst =>
      simp only [step] at taken
      split at taken
      · cases taken
      · rename_i unfinished
        obtain ⟨mem', ran, rfl⟩ := Option.map_eq_some_iff.mp taken
        exact placed_run placed (show state.finished proc = false by simpa using unfinished)
          allowed ran
  | finish proc =>
      simp only [step] at taken
      split at taken
      · cases taken
      · cases taken
        have retired : ∀ page : ι × Pgn, state.unfinished page.1 →
            (Function.update state.finished proc true) page.1 = false ∨
              pagingPagePresent ((state.mem.mm page.1).pgd page.2) = false := by
          rintro ⟨other, pgn⟩ unfinished
          by_cases same : other = proc
          · subst same
            exact Or.inr (allowed pgn)
          · exact Or.inl (by rw [Function.update_of_ne same]; exact unfinished)
        constructor
        case maps => exact placed.maps
        case ram =>
          apply placed.ram.retire
          intro page unfinished
          exact (retired page unfinished).imp_right fun absent => by
            simp [Mem.decoded, onlineFrame, absent]
        case swap =>
          apply placed.swap.retire
          intro page unfinished
          exact (retired page unfinished).imp_right fun absent => by
            simp [Mem.decoded, swapSlot, absent]

/-- Fresh processes, a RAM of two frames and swap devices of four frames. -/
def twoFrameRam (finished : ι → Bool) : State ι where
  mem :=
    { mram := initMemphy 512 true
      mswp := fun _ => initMemphy 1024 true
      pcb := fun _ => Pcb.fresh }
  finished := finished

omit [DecidableEq ι] in
theorem twoFrameRam_start (finished : ι → Bool) : Start (twoFrameRam finished) where
  ram := unused_initMemphy _ _
  swap := fun _ => unused_initMemphy _ _
  absent := fun _ _ => (by decide : pagingPagePresent 0 = false)
  fifoPgn := fun _ => rfl

end Retention
end Memory
end Ossim
