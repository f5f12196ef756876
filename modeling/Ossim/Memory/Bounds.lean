import Ossim.Memory.Addresses
import Ossim.Memory.Supply

/-!
# When an access leaves its device

No function of the source compares an address with the size of a device, so the
operands of a `SYSCALL 17` reach the devices unchecked, and so does the frame
number of an entry.  An online entry names a frame of the RAM; the entry of a
swapped page does not, but `pg_getpage` looks at the flag `PRESENT` only, and
takes some bits of the swap offset for a frame number.  For an absent page it
copies from the RAM to the swap device where it means to copy back.
-/

namespace Ossim
namespace Memory

open CInt Transition

namespace Bounds

variable {ι : Type}

/-- A number of a frame of the device. -/
def FrameOf (mp : Memphy) (fpn : Int) : Prop := 0 ≤ fpn ∧ fpn < (mp.maxsz / pagingPagesz : Nat)

/-- The free frames are frames of their devices, and online pages are in frames of
the RAM. -/
structure Bounded (mem : Mem ι) : Prop where
  ram : ∀ fpn ∈ mem.mram.freeFpList.nodes, fpn < mem.mram.maxsz / pagingPagesz
  swap : ∀ device, ∀ slot ∈ (mem.mswp device).freeFpList.nodes,
    slot < (mem.mswp device).maxsz / pagingPagesz
  online : ∀ page fpn, mem.decoded onlineFrame page = some fpn →
    fpn < mem.mram.maxsz / pagingPagesz

/-- The page is online, or the bits of its entry name a frame of the RAM all the
same. -/
def Decodes (mem : Mem ι) (pte : Pte) : Prop :=
  (onlineFrame pte).isSome ∨ pagingFpn pte < mem.mram.maxsz / pagingPagesz

/-- The entry of a page that was evicted is read as the frame with 32 times the
low byte of the slot plus the device as its number. -/
theorem decodes_pteSetSwap (mem : Mem ι) (pte : Pte) (swptyp swpoff : Nat) :
    Decodes mem (pteSetSwap pte swptyp swpoff) ↔
      2 ^ 5 * (swpoff % 2 ^ 8) + swptyp % 2 ^ 5 < mem.mram.maxsz / pagingPagesz := by
  rw [Decodes, onlineFrame_pteSetSwap, pagingFpn_pteSetSwap]
  simp

namespace Bounded

variable {mem mem' : Mem ι} {caller : ι}

theorem decodes
    (bounded : Bounded mem)
    {proc : ι}
    {pgn : Pgn}
    (decodes : Decodes mem ((mem.mm proc).pgd pgn)) :
    pagingFpn ((mem.mm proc).pgd pgn) < mem.mram.maxsz / pagingPagesz := by
  rcases decodes with isOnline | named
  · obtain ⟨fpn, online⟩ := Option.isSome_iff_exists.mp isOnline
    rw [(onlineFrame_eq_some_iff.mp online).2.2]
    exact bounded.online (proc, pgn) fpn online
  · exact named

/-- Only the page tables, the free lists and the sizes matter. -/
theorem congr
    (bounded : Bounded mem)
    (samePgd : ∀ proc, (mem'.mm proc).pgd = (mem.mm proc).pgd)
    (ram : mem'.mram.freeFpList = mem.mram.freeFpList ∧ mem'.mram.maxsz = mem.mram.maxsz)
    (swap : ∀ device, (mem'.mswp device).freeFpList = (mem.mswp device).freeFpList ∧
      (mem'.mswp device).maxsz = (mem.mswp device).maxsz) :
    Bounded mem' where
  ram := by
    rw [ram.1, ram.2]
    exact bounded.ram
  swap := by
    intro device
    rw [(swap device).1, (swap device).2]
    exact bounded.swap device
  online := by
    rw [Mem.decoded_congr onlineFrame samePgd, ram.2]
    exact bounded.online

variable [DecidableEq ι]

/-- An entry of a process is stored that is online in a frame of the RAM, or not
online. -/
theorem setPte
    {mm : Mm}
    {pgn : Pgn}
    {pte : Pte}
    (bounded : Bounded mem)
    (stored : mm.pgd = Function.update (mem.mm caller).pgd pgn pte)
    (inRam : ∀ fpn, onlineFrame pte = some fpn → fpn < mem.mram.maxsz / pagingPagesz) :
    Bounded (mem.setMm caller mm) where
  ram := bounded.ram
  swap := bounded.swap
  online := by
    intro page fpn online
    rw [Mem.decoded_setMm mem onlineFrame stored, Function.update_apply] at online
    split at online
    · exact inRam fpn online
    · exact bounded.online page fpn online

/-- Mapping a page to a frame of the RAM. -/
theorem mapPage
    {fpn : Nat}
    (bounded : Bounded mem)
    (inRam : fpn < mem.mram.maxsz / pagingPagesz)
    (caller : ι)
    (pgn : Pgn) :
    Bounded (mem.setMm caller ((mem.mm caller).mapPage pgn fpn)) := by
  apply bounded.setPte rfl
  intro other online
  rw [onlineFrame_pteSetFpn] at online
  obtain rfl := Option.some.inj online
  exact Nat.lt_of_le_of_lt (Nat.mod_le _ _) inRam

omit [DecidableEq ι] in
/-- The first free frame of a swap device is taken. -/
theorem takeSlot
    {device : Fin 4}
    {slot : Nat}
    {mp : Memphy}
    (bounded : Bounded mem)
    (head : (mem.mswp device).freeFpList.nodes = slot :: mp.freeFpList.nodes)
    (sameSize : mp.maxsz = (mem.mswp device).maxsz) :
    Bounded (mem.setMswp device mp) where
  ram := bounded.ram
  swap := by
    intro other inList member
    by_cases same : other = device
    · subst same
      rw [Mem.mswp_setMswp_self] at member ⊢
      rw [sameSize]
      exact bounded.swap other inList (by simp [head, member])
    · rw [Mem.mswp_setMswp_of_ne _ _ same] at member ⊢
      exact bounded.swap other inList member
  online := bounded.online

/-- Taking a frame for a growth. -/
theorem grab
    {fpn : Nat}
    (bounded : Bounded mem)
    (grabs : Grabs mem caller fpn mem') :
    Bounded mem' := by
  cases grabs with
  | taken fpn rest head =>
      refine ⟨fun other member => bounded.ram other ?_, bounded.swap, bounded.online⟩
      rw [head]
      exact List.mem_cons_of_mem _ member
  | evicted victim younger device slot mp _ _ offers _ =>
      have taken := bounded.takeSlot offers.head (by rw [offers.keeps])
      exact taken.setPte rfl (by simp)

theorem giveUp
    (bounded : Bounded mem)
    (givesUp : GivesUp mem caller mem') :
    Bounded mem' := by
  obtain ⟨_, sameRam, sameSwap, _⟩ := givesUp.frame
  apply bounded.congr givesUp.samePgd
  · rw [sameRam]
    exact ⟨rfl, rfl⟩
  · intro device
    rw [sameSwap]
    exact ⟨rfl, rfl⟩

/-- Bringing a page in: it gets the frame that the entry of the victim names. -/
theorem pageIn
    {pgn : Pgn}
    {vicfpn : Nat}
    (bounded : Bounded mem)
    (inRam : vicfpn < mem.mram.maxsz / pagingPagesz)
    (pageIn : PageIn mem caller pgn vicfpn mem') :
    Bounded mem' := by
  cases pageIn with
  | replaced victim younger slot mp _ head sameDevice =>
      have taken := bounded.takeSlot head (by rw [sameDevice])
      let evictedMm := { mem.mm caller with fifoPgn := younger }.setPte victim
        (pteSetSwap ((mem.mm caller).pgd victim) (mem.pcb caller).activeMswpId slot)
      have evicted :
          Bounded ((mem.setMswp (mem.pcb caller).activeMswp mp).setMm caller evictedMm) :=
        taken.setPte rfl (by simp)
      have stored : ((evictedMm.setPte pgn (pteSetFpn ((mem.mm caller).pgd pgn)
          (pagingFpn ((mem.mm caller).pgd victim)))).enlistPgnNode pgn).pgd =
            Function.update
              (((mem.setMswp (mem.pcb caller).activeMswp mp).setMm caller evictedMm).mm caller).pgd
              pgn (pteSetFpn ((mem.mm caller).pgd pgn)
                (pagingFpn ((mem.mm caller).pgd victim))) := by
        rw [Mem.mm_setMm_self]
        rfl
      have mapped := evicted.setPte stored fun fpn online => by
        rw [onlineFrame_pteSetFpn] at online
        obtain rfl := Option.some.inj online
        exact Nat.lt_of_le_of_lt (Nat.mod_le _ _) inRam
      rw [Mem.setMm_setMm] at mapped
      exact mapped

end Bounded

/-! ## Taking frames for a growth -/

/-- The pages of the process that a growth evicts, the newest first: as many as
there are frames missing, if there are so many pages and slots. -/
def victims (mem : Mem ι) (caller : ι) (pages : Nat) : List Pgn :=
  (mem.mm caller).fifoPgn.drop
    ((mem.mm caller).fifoPgn.length -
      min (pages - mem.mram.freeFpList.nodes.length)
        (min (mem.mm caller).fifoPgn.length (freeSlots mem)))

/-- The pages that a growth evicts are different pages, and their entries name
frames of the RAM. -/
structure EvictsInside (mem : Mem ι) (caller : ι) (pages : Int) : Prop where
  nodup : (victims mem caller pages.toNat).Nodup
  decodes : ∀ pgn ∈ victims mem caller pages.toNat, Decodes mem ((mem.mm caller).pgd pgn)

/-- While frames are taken for a growth. -/
structure Gathering (mem : Mem ι) (caller : ι) (left : Nat) (frames : List Nat) : Prop where
  bounded : Bounded mem
  frames : ∀ fpn ∈ frames, fpn < mem.mram.maxsz / pagingPagesz
  nodup : (victims mem caller left).Nodup
  inRam : ∀ pgn ∈ victims mem caller left,
    pagingFpn ((mem.mm caller).pgd pgn) < mem.mram.maxsz / pagingPagesz

variable {mem mem' : Mem ι} {caller : ι}

/-- Each offer of a device is one of the free slots. -/
theorem freeSlots_pos
    {device : Fin 4}
    {slot : Nat}
    {mp : Memphy}
    (asked : memphyGetFreefp (mem.mswp device) = some (some (slot, mp))) :
    0 < freeSlots mem := by
  have used := freeSlots_setMswp (memphyGetFreefp_some asked).2
  omega

/-- The oldest page is among the victims, as soon as a frame is missing and there
is a slot. -/
theorem victims_of_full
    {left : Nat}
    {younger : List Pgn}
    {victim : Pgn}
    (full : mem.mram.freeFpList.nodes = [])
    (oldest : (mem.mm caller).fifoPgn = younger ++ [victim])
    (slots : 0 < freeSlots mem) :
    victims mem caller (left + 1) =
      younger.drop (younger.length - min left (min younger.length (freeSlots mem - 1))) ++
        [victim] := by
  have length : younger.length + 1 - min (left + 1) (min (younger.length + 1) (freeSlots mem)) =
      younger.length - min left (min younger.length (freeSlots mem - 1)) := by
    omega
  rw [victims, full, oldest, List.length_append, List.length_nil, List.length_singleton,
    Nat.sub_zero, length, List.drop_append_of_le_length (Nat.sub_le _ _)]

/-- A free frame of the RAM spares a victim. -/
theorem victims_of_free
    {left fpn : Nat}
    {rest used : Chain Nat}
    (head : mem.mram.freeFpList.nodes = fpn :: rest.nodes) :
    victims (mem.setMram { mem.mram with freeFpList := rest, usedFpList := used }) caller left =
      victims mem caller (left + 1) := by
  simp [victims, freeSlots, Mem.mm, Mem.setMram, head]

variable [DecidableEq ι]

/-- Taking a frame uses up the oldest of the victims, or none. -/
theorem Gathering.grab
    {left fpn : Nat}
    {frames : List Nat}
    (gathering : Gathering mem caller (left + 1) frames)
    (grabs : Grabs mem caller fpn mem') :
    Gathering mem' caller left (fpn :: frames) := by
  obtain ⟨bounded, inHand, nodup, inRam⟩ := gathering
  have kept := bounded.grab grabs
  cases grabs with
  | taken fpn rest head =>
      rw [← victims_of_free head] at nodup inRam
      refine ⟨kept, ?_, nodup, inRam⟩
      intro other member
      rcases List.mem_cons.mp member with rfl | older
      · exact bounded.ram other (by simp [head])
      · exact inHand other older
  | evicted victim younger device slot mp full oldest offers _ =>
      have slots := freeSlots_setMswp offers.head
      have fewer : freeSlots mem - 1 = freeSlots (mem.setMswp device mp) := by omega
      rw [victims_of_full full oldest (by omega), fewer] at nodup inRam
      obtain ⟨stillNodup, _, apart⟩ := List.nodup_append.mp nodup
      have after : victims ((mem.setMswp device mp).setMm caller
          ({ mem.mm caller with fifoPgn := younger }.setPte victim
            (pteSetSwap ((mem.mm caller).pgd victim) device.val slot))) caller left =
          younger.drop (younger.length -
            min left (min younger.length (freeSlots (mem.setMswp device mp)))) := by
        simp [victims, freeSlots, full]
      refine ⟨kept, ?_, after ▸ stillNodup, ?_⟩
      · intro other member
        rcases List.mem_cons.mp member with rfl | older
        · exact inRam victim (by simp)
        · exact inHand other older
      · intro pgn member
        rw [after] at member
        have different : pgn ≠ victim := apart pgn member victim (by simp)
        rw [Mem.mm_setMm_self, Mm.setPte_pgd_of_ne _ _ different]
        exact inRam pgn (List.mem_append_left _ member)

omit [DecidableEq ι] in
/-- Every cell of a frame of a device is inside. -/
theorem allInside_frames
    {src dst : Device}
    {srcfpn dstfpn : Nat}
    (reads : srcfpn < (mem.device src).maxsz / pagingPagesz)
    (writes : dstfpn < (mem.device dst).maxsz / pagingPagesz) :
    AllInside mem (swapCpAccesses src (some srcfpn) dst (some dstfpn)) := by
  simp only [pagingPagesz] at reads writes
  apply allInside_swapCpAccesses
  · intro cell inPage
    apply inside_cellAccess
    simp only [pagingPagesz]
    omega
  · intro cell inPage
    apply inside_cellAccess
    simp only [pagingPagesz]
    omega

omit [DecidableEq ι] in
/-- The copy of a victim, if a device has a free frame for it. -/
theorem allInside_swapOutAccesses
    {victimFpn : Nat}
    (bounded : Bounded mem)
    (inRam : 0 < freeSlots mem → victimFpn < mem.mram.maxsz / pagingPagesz)
    (devices : List (Fin 4)) :
    AllInside mem (swapOutAccesses mem.mswp victimFpn devices) := by
  induction devices with
  | nil => exact allInside_nil mem
  | cons device others inductionHypothesis =>
      rw [swapOutAccesses]
      split
      · exact allInside_nil mem
      · exact inductionHypothesis
      · rename_i swpfpn mp asked
        have head := (memphyGetFreefp_some asked).2
        exact allInside_frames (inRam (freeSlots_pos asked))
          (bounded.swap device swpfpn (by simp [head]))

omit [DecidableEq ι] in
theorem Gathering.allInside_allocPage
    {left : Nat}
    {frames : List Nat}
    (gathering : Gathering mem caller (left + 1) frames) :
    AllInside mem (allocPageAccesses mem caller) := by
  rw [allocPageAccesses]
  split
  · rename_i asked
    have full := memphyGetFreefp_none asked
    split
    · exact allInside_nil mem
    · rename_i victimPgn mm found
      obtain ⟨younger, oldest, rfl⟩ := findVictimPage_eq_some_iff.mp found
      refine allInside_swapOutAccesses gathering.bounded (fun slots => ?_) _
      apply gathering.inRam victimPgn
      rw [victims_of_full full oldest slots]
      simp
  · exact allInside_nil mem

/-- The loop of `alloc_pages_range` stays inside. -/
theorem Gathering.allInside
    {left : Nat}
    {frames : List Nat}
    {frmLst : Chain Nat}
    (gathering : Gathering mem caller left frames) :
    AllInside mem (allocPagesRangeAccesses caller left mem frmLst) := by
  induction left generalizing mem frames frmLst with
  | zero => exact allInside_nil mem
  | succ left inductionHypothesis =>
      rw [allocPagesRangeAccesses]
      refine gathering.allInside_allocPage.append ?_
      split
      · exact allInside_nil mem
      · rename_i rc after listed page
        rcases allocPage_cases page with ⟨rfl, fpn, grabs, _⟩ | ⟨failed, _⟩
        · simp only [lt_self_iff_false, if_false]
          exact fun access member =>
            (inductionHypothesis (gathering.grab grabs) access member).congr grabs.sameSizes
        · rw [if_pos failed]
          exact allInside_nil mem

/-- `vm_map_ram` keeps the frames in their devices. -/
theorem Gathering.vmMapRam
    {mapstart incpgnum rc : Int}
    (gathering : Gathering mem caller incpgnum.toNat [])
    (mapped : Memory.vmMapRam mem caller mapstart incpgnum = some (rc, mem')) :
    Bounded mem' := by
  have outcome := vmMapRam_each (fun left frames state => Gathering state caller left frames)
    (fun _ frames state =>
      Bounded state ∧ ∀ fpn ∈ frames, fpn < state.mram.maxsz / pagingPagesz)
    ?grab ?switch ?map gathering mapped
  case grab => exact fun left frames before fpn after gathered grabs => gathered.grab grabs
  case switch =>
    exact fun frames before _ gathered => ⟨gathered.bounded, gathered.frames⟩
  case map =>
    rintro page fpn frames before ⟨bounded, inRam⟩
    exact ⟨bounded.mapPage (inRam fpn (by simp)) caller _,
      fun other member => inRam other (List.mem_cons_of_mem _ member)⟩
  rcases outcome with ⟨_, bounded, _⟩ | ⟨_, _, _, before, gathered, givesUp⟩
  · exact bounded
  · exact gathered.bounded.giveUp givesUp

/-- A growth starts with nothing taken; the limits of the area do not matter. -/
theorem Bounded.gathering
    {pages : Int}
    (bounded : Bounded mem)
    (evicts : EvictsInside mem caller pages)
    (sbrk vmEnd : Nat) :
    Gathering (mem.setMm caller ((mem.mm caller).setLimits sbrk vmEnd)) caller pages.toNat [] := by
  have sameVictims : victims (mem.setMm caller ((mem.mm caller).setLimits sbrk vmEnd)) caller
      pages.toNat = victims mem caller pages.toNat := by
    simp [victims, freeSlots]
  refine ⟨bounded.congr (Mem.pgd_setMm_congr rfl) ⟨rfl, rfl⟩ (fun _ => ⟨rfl, rfl⟩), by simp,
    sameVictims ▸ evicts.nodup, ?_⟩
  intro pgn member
  rw [sameVictims] at member
  rw [Mem.mm_setMm_self]
  exact bounded.decodes (evicts.decodes pgn member)

/-- `inc_vma_limit` stays inside. -/
theorem Bounded.allInside_incVmaLimit
    {vmaid incSz : Int}
    (bounded : Bounded mem)
    (evicts : ∀ pages ∈ growthById (mem.mm caller) vmaid incSz, EvictsInside mem caller pages) :
    AllInside mem (incVmaLimitAccesses mem caller vmaid incSz) := by
  rw [incVmaLimitAccesses]
  split
  · exact allInside_nil mem
  · rename_i pages grows
    exact fun access member =>
      ((bounded.gathering (evicts pages grows) _ _).allInside access member).congr
        ((SameSizes.refl mem).setMm caller _)

/-! ## Accesses to a page -/

/-- The condition on an access to an absent page: there is a victim whose entry
names a frame of the RAM, its frame number is one of the active swap device too,
the device has a free frame, and the swap offset of the page is the number of a
frame of the RAM. -/
structure SwapsInside (mem : Mem ι) (caller : ι) (pgn : Pgn) : Prop where
  victim : ∃ victim ∈ (mem.mm caller).fifoPgn.getLast?,
    Decodes mem ((mem.mm caller).pgd victim) ∧
      pagingFpn ((mem.mm caller).pgd victim) <
        (mem.mswp (mem.pcb caller).activeMswp).maxsz / pagingPagesz
  free : (mem.mswp (mem.pcb caller).activeMswp).freeFpList.nodes ≠ []
  target : pagingPteSwp ((mem.mm caller).pgd pgn) < mem.mram.maxsz / pagingPagesz

/-- The condition on an access to an address. -/
def Accessible (mem : Mem ι) (caller : ι) (addr : Int) : Prop :=
  if pagingPagePresent ((mem.mm caller).pgd (pagingPgn addr)) = true then
    Decodes mem ((mem.mm caller).pgd (pagingPgn addr))
  else
    SwapsInside mem caller (pagingPgn addr)

omit [DecidableEq ι] in
/-- A cell of a frame of the RAM. -/
theorem inside_phyaddr
    {fpn : Nat}
    (inRam : fpn < mem.mram.maxsz / pagingPagesz)
    (addr : Int) :
    Inside mem ⟨.ram, some (pagingPhyaddr fpn (pagingOffst addr))⟩ := by
  have inPage := pagingOffst_lt addr
  simp only [pagingPagesz] at inRam
  refine Or.inr ⟨_, rfl, by omega, Int.ofNat_lt.mpr ?_⟩
  rw [pagingPhyaddr_eq]
  show _ < mem.mram.maxsz
  omega

omit [DecidableEq ι] in
/-- `pg_getval` and `pg_setval` stay inside. -/
theorem Bounded.allInside_pgval
    {addr : Int}
    (bounded : Bounded mem)
    (accessible : Accessible mem caller addr) :
    AllInside mem (pgvalAccesses mem caller addr) := by
  rw [pgvalAccesses]
  unfold Accessible at accessible
  split at accessible
  · rename_i present
    rw [if_pos present]
    intro access member
    rw [List.mem_singleton.mp member]
    exact inside_phyaddr (bounded.decodes accessible) addr
  · rename_i absent
    rw [if_neg absent]
    obtain ⟨⟨victim, last, decodes, onSwap⟩, free, target⟩ := accessible
    obtain ⟨younger, oldest⟩ := List.getLast?_eq_some_iff.mp last
    obtain ⟨slot, rest, nodes⟩ := List.exists_cons_of_ne_nil free
    have inRam := bounded.decodes decodes
    simp only [pgSwapInAccesses, victimFpn_of_oldest oldest, memphyGetFreefp_of_nodes nodes,
      Option.join_some, Option.map_some]
    refine ((allInside_frames inRam ?_).append (allInside_frames target onSwap)).append ?_
    · exact bounded.swap _ slot (by simp [nodes])
    · intro access member
      rw [List.mem_singleton.mp member, pagingFpn_pageIn _ (pagingFpn_lt _)]
      exact inside_phyaddr inRam addr

/-- An access to a page keeps the frames in their devices. -/
theorem Bounded.pgGetpage
    {addr rc : Int}
    {fpn : Option Nat}
    (bounded : Bounded mem)
    (accessible : Accessible mem caller addr)
    (accessed : Memory.pgGetpage mem caller (pagingPgn addr) = some (rc, mem', fpn)) :
    Bounded mem' := by
  obtain ⟨_, ⟨_, rfl, _⟩ | ⟨absent, vicfpn, pageIn, _⟩⟩ := pgGetpage_cases accessed
  · exact bounded
  · rw [Accessible, if_neg (by simp [absent])] at accessible
    obtain ⟨victim, last, decodes, _⟩ := accessible.victim
    refine bounded.pageIn ?_ pageIn
    cases pageIn with
    | replaced oldestPgn younger slot mp oldest _ _ =>
        rw [oldest, List.getLast?_concat] at last
        obtain rfl := Option.some.inj last
        exact bounded.decodes decodes

omit [DecidableEq ι] in
/-- Changes of the storage and of nothing else. -/
theorem Bounded.sameButStorage
    (bounded : Bounded mem)
    (same : SameButStorage mem mem') :
    Bounded mem' := by
  refine bounded.congr (fun proc => by rw [same.mm proc]) ?_ fun device => ?_
  · rw [same.mram]
    exact ⟨rfl, rfl⟩
  · rw [same.mswp device]
    exact ⟨rfl, rfl⟩

/-! ## Runs -/

/-- The condition on an access to a region. -/
def RegionAccessible (mem : Mem ι) (caller : ι) (rgid offset : Int) : Prop :=
  rgid ≠ pagingMaxSymtblSz ∧
    ∀ index ∈ symrgIndex rgid,
      Accessible mem caller (accessAddr ((mem.mm caller).symrgtbl index) offset)

/-- The condition on a call and the state before it.  A growth evicts different
pages whose entries name frames of the RAM; a `READ` or `WRITE` of a valid region
id is to a page whose entry does, or to one that can be brought in; the operands
of a `SYSCALL 17` that name frames or a cell name ones of the devices. -/
def InBounds (mem : Mem ι) (caller : ι) : Call → Prop
  | .inst (.alloc size _) =>
      ∀ pages ∈ growth (mem.mm caller) (toInt size), EvictsInside mem caller pages
  | .inst (.free _) => True
  | .inst (.read source offset) => RegionAccessible mem caller (toInt source) (toInt offset)
  | .inst (.write _ destination offset) =>
      RegionAccessible mem caller (toInt destination) (toInt offset)
  | .memmap a1 a2 a3 =>
      (toInt a1 = sysmemIncOp →
        ∀ pages ∈ growthById (mem.mm caller) (toInt a2) (toInt a3),
          EvictsInside mem caller pages) ∧
      (toInt a1 = sysmemSwpOp →
        FrameOf mem.mram (toInt a2) ∧
          FrameOf (mem.mswp (mem.pcb caller).activeMswp) (toInt a3)) ∧
      (toInt a1 = sysmemIoRead ∨ toInt a1 = sysmemIoWrite →
        0 ≤ toInt a2 ∧ toInt a2 < mem.mram.maxsz)

omit [DecidableEq ι] in
theorem Bounded.allInside_region
    {rgid offset : Int}
    (bounded : Bounded mem)
    (accessible : RegionAccessible mem caller rgid offset) :
    AllInside mem (regionAccesses mem caller rgid offset) := by
  obtain ⟨inTable, valid⟩ := accessible
  rw [pagingMaxSymtblSz] at inTable
  by_cases invalid : rgid < 0 ∨ rgid > 30
  · rw [regionAccesses_of_invalid _ invalid]
    exact allInside_nil mem
  · have slot : rgid = (⟨rgid.toNat, by omega⟩ : Fin 30).val := by
      dsimp only
      omega
    rw [regionAccesses_of_index offset slot]
    exact bounded.allInside_pgval (valid _ (symrgIndex_eq_some_iff.mpr slot))

/-- `ALLOC` stays inside. -/
theorem Bounded.allInside_alloc
    {size : Int}
    (bounded : Bounded mem)
    (evicts : ∀ pages ∈ growth (mem.mm caller) size, EvictsInside mem caller pages) :
    AllInside mem (allocAccesses mem caller size) := by
  rw [allocAccesses]
  split
  · rename_i missed
    rw [growth_eq_growthById missed] at evicts
    exact bounded.allInside_incVmaLimit evicts
  · exact allInside_nil mem

omit [DecidableEq ι] in
/-- The operands of a copy that are frames of the devices. -/
theorem allInside_operands
    {src dst : Device}
    {srcfpn dstfpn : Int}
    (reads : FrameOf (mem.device src) srcfpn)
    (writes : FrameOf (mem.device dst) dstfpn) :
    AllInside mem (swapCpAccesses src (some srcfpn) dst (some dstfpn)) := by
  obtain ⟨srcNonneg, srcBelow⟩ := reads
  obtain ⟨dstNonneg, dstBelow⟩ := writes
  obtain ⟨src', rfl⟩ := Int.eq_ofNat_of_zero_le srcNonneg
  obtain ⟨dst', rfl⟩ := Int.eq_ofNat_of_zero_le dstNonneg
  exact allInside_frames (by omega) (by omega)

/-- Under the condition all accesses of a call are inside. -/
theorem Bounded.allInside
    {call : Call}
    (bounded : Bounded mem)
    (allowed : InBounds mem caller call) :
    AllInside mem (accesses mem caller call) := by
  cases call with
  | inst inst =>
      cases inst with
      | alloc size regIndex => exact bounded.allInside_alloc allowed
      | free regIndex => exact allInside_nil mem
      | read source offset =>
          have accessible : RegionAccessible mem caller (toInt source) (toInt offset) := allowed
          rw [accesses]
          exact bounded.allInside_region accessible
      | write data destination offset =>
          have accessible : RegionAccessible mem caller (toInt destination) (toInt offset) :=
            allowed
          rw [accesses]
          exact bounded.allInside_region accessible
  | memmap a1 a2 a3 =>
      obtain ⟨inc, swp, io⟩ := allowed
      rw [accesses, sysMemmapAccesses]
      split
      case isTrue isInc => exact bounded.allInside_incVmaLimit (inc isInc)
      split
      case isTrue isSwp => exact allInside_operands (swp isSwp).1 (swp isSwp).2
      split
      case isTrue isIo =>
        intro access member
        rw [List.mem_singleton.mp member]
        exact Or.inr ⟨_, rfl, io isIo⟩
      case isFalse _ => exact allInside_nil mem

/-- A growth under the condition keeps the frames in their devices. -/
theorem Bounded.grows
    {pages : Int}
    (bounded : Bounded mem)
    (evicts : EvictsInside mem caller pages)
    (grows : Grows mem caller pages mem') :
    Bounded mem' := by
  obtain ⟨rc, ranged⟩ := grows
  exact (bounded.gathering evicts _ _).vmMapRam ranged

/-- Changes of a process that are not about its pages. -/
theorem Bounded.quiet
    {mm : Mm}
    (bounded : Bounded mem)
    (same : SamePages (mem.mm caller) mm) :
    Bounded (mem.setMm caller mm) :=
  bounded.congr (Mem.pgd_setMm_congr same.pgd) ⟨rfl, rfl⟩ fun _ => ⟨rfl, rfl⟩

/-- Under the condition an instruction keeps the frames in their devices. -/
theorem Bounded.run
    {inst : Inst}
    (bounded : Bounded mem)
    (allowed : InBounds mem caller (.inst inst))
    (ran : Memory.run mem caller inst = some mem') :
    Bounded mem' := by
  cases inst with
  | alloc size regIndex =>
      obtain ⟨middle, mm, rfl, same, unchanged | ⟨pages, grown, grows⟩⟩ := run_alloc_pages ran
      · rw [unchanged] at same ⊢
        exact bounded.quiet same
      · exact (bounded.grows (allowed pages grown) grows).quiet same
  | free regIndex =>
      obtain ⟨mm, rfl, same⟩ := run_free_pages ran
      exact bounded.quiet same
  | read source offset =>
      rcases run_read_cases ran with ⟨_, rfl⟩ | ⟨index, slot, code, byte, getval⟩
      · exact bounded
      · obtain ⟨_, _, page, _⟩ := pgGetval_cases getval
        exact bounded.pgGetpage (allowed.2 index (symrgIndex_eq_some_iff.mpr slot)) page
  | write data destination offset =>
      rcases run_write_cases ran with ⟨_, rfl⟩ | ⟨index, slot, code, setval⟩
      · exact bounded
      · obtain ⟨_, middle, mram, page, written, _, rfl⟩ := pgSetval_cases setval
        have accessed := bounded.pgGetpage (allowed.2 index (symrgIndex_eq_some_iff.mpr slot)) page
        exact accessed.sameButStorage ⟨rfl, (memphyWrite_cases written).1, fun _ => rfl⟩

/-- Under the condition a call keeps the frames in their devices. -/
theorem Bounded.runCall
    {call : Call}
    (bounded : Bounded mem)
    (allowed : InBounds mem caller call)
    (called : Memory.runCall mem caller call = some mem') :
    Bounded mem' := by
  cases call with
  | inst inst => exact bounded.run allowed called
  | memmap a1 a2 a3 =>
      rcases sysMemmapRegs_cases called with same | ⟨isInc, rc, grown⟩
      · exact bounded.sameButStorage same
      · rcases incVmaLimitById_cases grown with
          ⟨_, _, _, rfl⟩ | ⟨_, pages, mapped, grows, ranged, _⟩
        · exact bounded
        · exact bounded.grows (allowed.1 isInc pages grows) ⟨mapped, ranged⟩

/-- Formatted devices, and page tables without a page. -/
structure Start (mem : Mem ι) : Prop where
  ram : Unused mem.mram
  swap : ∀ device, Unused (mem.mswp device)
  absent : ∀ proc pgn, pagingPagePresent ((mem.mm proc).pgd pgn) = false

omit [DecidableEq ι] in
theorem bounded_of_start (start : Start mem) : Bounded mem where
  ram := fun _ => start.ram.lt
  swap := fun device _ => (start.swap device).lt
  online := by
    intro page fpn online
    simp [Mem.decoded, onlineFrame, start.absent] at online

/-- The condition on the calls of a run. -/
def CallsInBounds (mem : Mem ι) (event : CallEvent ι) : Prop := InBounds mem event.proc event.call

instance decidableInside (mem : Mem ι) (access : Access) : Decidable (Inside mem access) :=
  inferInstanceAs (Decidable (_ ∨ ∃ addr ∈ access.addr, _ ∧ _))

instance decidableDecodes (mem : Mem ι) (pte : Pte) : Decidable (Decodes mem pte) :=
  inferInstanceAs (Decidable (_ ∨ _))

instance decidableEvictsInside (mem : Mem ι) (caller : ι) (pages : Int) :
    Decidable (EvictsInside mem caller pages) :=
  have : Decidable (∀ pgn ∈ victims mem caller pages.toNat,
      Decodes mem ((mem.mm caller).pgd pgn)) := List.decidableBAll _ _
  decidable_of_iff
    ((victims mem caller pages.toNat).Nodup ∧
      ∀ pgn ∈ victims mem caller pages.toNat, Decodes mem ((mem.mm caller).pgd pgn))
    ⟨fun conditions => ⟨conditions.1, conditions.2⟩, fun evicts => ⟨evicts.nodup, evicts.decodes⟩⟩

instance decidableSwapsInside (mem : Mem ι) (caller : ι) (pgn : Pgn) :
    Decidable (SwapsInside mem caller pgn) :=
  have : Decidable (∃ victim ∈ (mem.mm caller).fifoPgn.getLast?,
      Decodes mem ((mem.mm caller).pgd victim) ∧
        pagingFpn ((mem.mm caller).pgd victim) <
          (mem.mswp (mem.pcb caller).activeMswp).maxsz / pagingPagesz) :=
    Option.decidableExistsMem _
  decidable_of_iff
    (_ ∧ (mem.mswp (mem.pcb caller).activeMswp).freeFpList.nodes ≠ [] ∧
      pagingPteSwp ((mem.mm caller).pgd pgn) < mem.mram.maxsz / pagingPagesz)
    ⟨fun conditions => ⟨conditions.1, conditions.2.1, conditions.2.2⟩,
      fun swaps => ⟨swaps.victim, swaps.free, swaps.target⟩⟩

instance decidableAccessible (mem : Mem ι) (caller : ι) (addr : Int) :
    Decidable (Accessible mem caller addr) :=
  inferInstanceAs (Decidable
    (if pagingPagePresent ((mem.mm caller).pgd (pagingPgn addr)) = true then
      Decodes mem ((mem.mm caller).pgd (pagingPgn addr))
    else
      SwapsInside mem caller (pagingPgn addr)))

instance decidableRegionAccessible (mem : Mem ι) (caller : ι) (rgid offset : Int) :
    Decidable (RegionAccessible mem caller rgid offset) :=
  inferInstanceAs (Decidable (_ ∧ ∀ index ∈ symrgIndex rgid, Accessible mem caller _))

instance decidableFrameOf (mp : Memphy) (fpn : Int) : Decidable (FrameOf mp fpn) :=
  inferInstanceAs (Decidable (_ ∧ _))

instance decidableInBounds (mem : Mem ι) (caller : ι) :
    ∀ call : Call, Decidable (InBounds mem caller call)
  | .inst (.alloc size _) =>
      inferInstanceAs (Decidable (∀ pages ∈ growth (mem.mm caller) (toInt size),
        EvictsInside mem caller pages))
  | .inst (.free _) => isTrue trivial
  | .inst (.read source offset) =>
      decidableRegionAccessible mem caller (toInt source) (toInt offset)
  | .inst (.write _ destination offset) =>
      decidableRegionAccessible mem caller (toInt destination) (toInt offset)
  | .memmap a1 a2 a3 =>
      inferInstanceAs (Decidable
        ((toInt a1 = sysmemIncOp →
          ∀ pages ∈ growthById (mem.mm caller) (toInt a2) (toInt a3),
            EvictsInside mem caller pages) ∧
        (toInt a1 = sysmemSwpOp →
          FrameOf mem.mram (toInt a2) ∧
            FrameOf (mem.mswp (mem.pcb caller).activeMswp) (toInt a3)) ∧
        (toInt a1 = sysmemIoRead ∨ toInt a1 = sysmemIoWrite →
          0 ≤ toInt a2 ∧ toInt a2 < mem.mram.maxsz)))

instance decidableCallsInBounds (mem : Mem ι) (event : CallEvent ι) :
    Decidable (CallsInBounds mem event) :=
  decidableInBounds mem event.proc event.call

theorem twoFrames_start : Start twoFrames where
  ram := unused_initMemphy _ _
  swap := fun _ => unused_initMemphy _ _
  absent := fun _ _ => (by decide : pagingPagePresent 0 = false)

end Bounds
end Memory
end Ossim
