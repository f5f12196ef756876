import Ossim.Memory.Libmem

/-!
# What the operations of the memory can do

One inversion lemma for each function of the model, and one induction rule for
the loops that grow an area.  Later proofs use these and unfold nothing.
-/

namespace Ossim
namespace Memory

open CInt

variable {ι : Type}

/-! ## Swap devices -/

/-- The device `device` offers the frame `slot` and is afterwards `mp`; the
earlier devices of the list offer nothing. -/
structure Offers (mem : Mem ι) (devices : List (Fin 4)) (device : Fin 4) (slot : Nat)
    (mp : Memphy) : Prop where
  first : ∃ skipped others, devices = skipped ++ device :: others ∧
    ∀ earlier ∈ skipped, (mem.mswp earlier).freeFpList.nodes = []
  head : (mem.mswp device).freeFpList.nodes = slot :: mp.freeFpList.nodes
  keeps : mp =
    { mem.mswp device with storage := mp.storage, freeFpList := mp.freeFpList }

/-- Every cell of the frame can be read. -/
def Readable (mp : Memphy) (fpn : Nat) : Prop :=
  mp.rdmflg = true ∧ ∀ cell, cell < 256 → fpn * 256 + cell < mp.maxsz

theorem swapOut_some
    {mem mem' : Mem ι}
    {victimFpn slot : Nat}
    {device : Fin 4}
    {devices : List (Fin 4)}
    (swapped : swapOut mem victimFpn devices = some (some (device, slot, mem'))) :
    ∃ mp, Offers mem devices device slot mp ∧ mem' = mem.setMswp device mp ∧
      Readable mem.mram victimFpn := by
  induction devices with
  | nil => cases swapped
  | cons here others inductionHypothesis =>
      simp only [swapOut, Option.bind_eq_bind, Option.bind_eq_some_iff] at swapped
      obtain ⟨offer, asked, continued⟩ := swapped
      cases offer with
      | some taken =>
          obtain ⟨swpfpn, before⟩ := taken
          simp only [Option.bind_eq_some_iff, Option.some.injEq, Prod.mk.injEq] at continued
          obtain ⟨mp, copied, rfl, rfl, rfl⟩ := continued
          obtain ⟨keeps, readable⟩ := swapCpPage_cases copied
          obtain ⟨onlyList, head⟩ := memphyGetFreefp_some asked
          refine ⟨mp, ⟨⟨[], others, rfl, by simp⟩, ?_, ?_⟩, rfl, (readable 0 (by omega)).1,
            fun cell inPage => (readable cell inPage).2⟩
          · rw [head, keeps]
          · rw [keeps, onlyList]
      | none =>
          obtain ⟨mp, ⟨first, head, keeps⟩, moved, readable⟩ := inductionHypothesis continued
          obtain ⟨skipped, later, order, exhausted⟩ := first
          refine ⟨mp, ⟨⟨here :: skipped, later, by simp [order], ?_⟩, head, keeps⟩, moved,
            readable⟩
          intro earlier member
          rcases List.mem_cons.mp member with rfl | member
          · exact memphyGetFreefp_none asked
          · exact exhausted earlier member

/-! ## Taking a frame -/

variable [DecidableEq ι]

/-- A frame is taken for the caller: a free one, or that of its oldest page,
which is copied to a swap device first. -/
inductive Grabs (mem : Mem ι) (caller : ι) : Nat → Mem ι → Prop
  | taken (fpn : Nat) (rest : Chain Nat) :
      mem.mram.freeFpList.nodes = fpn :: rest.nodes →
      Grabs mem caller fpn
        (mem.setMram
          { mem.mram with
            freeFpList := rest
            usedFpList := mem.mram.usedFpList.cons fpn })
  | evicted (victim : Pgn) (younger : List Pgn) (device : Fin 4) (slot : Nat) (mp : Memphy) :
      mem.mram.freeFpList.nodes = [] →
      (mem.mm caller).fifoPgn = younger ++ [victim] →
      Offers mem (swapOrder (mem.pcb caller).activeMswp) device slot mp →
      Readable mem.mram (pagingFpn ((mem.mm caller).pgd victim)) →
      Grabs mem caller (pagingFpn ((mem.mm caller).pgd victim))
        ((mem.setMswp device mp).setMm caller
          ({ mem.mm caller with fifoPgn := younger }.setPte victim
            (pteSetSwap ((mem.mm caller).pgd victim) device.val slot)))

/-- The loop of `alloc_pages_range` ends early: the caller has no page to evict,
or the evicted page found no swap frame and is only taken off the list. -/
inductive GivesUp (mem : Mem ι) (caller : ι) : Mem ι → Prop
  | noVictim :
      mem.mram.freeFpList.nodes = [] →
      (mem.mm caller).fifoPgn = [] →
      GivesUp mem caller mem
  | noSlot (victim : Pgn) (younger : List Pgn) :
      mem.mram.freeFpList.nodes = [] →
      (mem.mm caller).fifoPgn = younger ++ [victim] →
      GivesUp mem caller (mem.setMm caller { mem.mm caller with fifoPgn := younger })

/-- The frames gathered so far stand in front of the frame list, and, as long as
the RAM has a free frame, in front of its used frames too. -/
def Gathered (mem : Mem ι) (frmLst : Chain Nat) (frames : List Nat) : Prop :=
  frames <+: frmLst.nodes ∧
    (mem.mram.freeFpList.nodes = [] ∨ frames <+: mem.mram.usedFpList.nodes)

theorem allocPage_cases
    {mem mem' : Mem ι}
    {caller : ι}
    {frmLst frmLst' : Chain Nat}
    {rc : Int}
    (allocated : allocPage mem caller frmLst = some (rc, mem', frmLst')) :
    (rc = 0 ∧ ∃ fpn, Grabs mem caller fpn mem' ∧
        ∀ frames, Gathered mem frmLst frames → Gathered mem' frmLst' (fpn :: frames)) ∨
      (rc < 0 ∧ GivesUp mem caller mem') := by
  simp only [allocPage, Option.bind_eq_bind, Option.bind_eq_some_iff] at allocated
  obtain ⟨offer, asked, continued⟩ := allocated
  cases offer with
  | some taken =>
      obtain ⟨fpn, mram⟩ := taken
      obtain ⟨onlyList, head⟩ := memphyGetFreefp_some asked
      simp only [Option.some.injEq, Prod.mk.injEq] at continued
      obtain ⟨rfl, rfl, rfl⟩ := continued
      rw [onlyList]
      refine Or.inl ⟨rfl, fpn, .taken fpn mram.freeFpList head, ?_⟩
      rintro frames ⟨_, exhausted | used⟩
      · simp [exhausted] at head
      · have prefixed : fpn :: frames <+: fpn :: mem.mram.usedFpList.nodes :=
          List.cons_prefix_cons.mpr ⟨rfl, used⟩
        exact ⟨prefixed, Or.inr prefixed⟩
  | none =>
      have full := memphyGetFreefp_none asked
      cases found : findVictimPage (mem.mm caller) with
      | none =>
          simp only [found, Option.some.injEq, Prod.mk.injEq] at continued
          obtain ⟨rfl, rfl, rfl⟩ := continued
          exact Or.inr ⟨by decide, .noVictim full (findVictimPage_eq_none_iff.mp found)⟩
      | some victim =>
          obtain ⟨victimPgn, mm⟩ := victim
          obtain ⟨younger, oldest, rfl⟩ := findVictimPage_eq_some_iff.mp found
          simp only [found, Option.bind_eq_some_iff, Mem.activeMswp_setMm] at continued
          obtain ⟨listed, pushed, outcome, swapped, final⟩ := continued
          cases outcome with
          | none =>
              simp only [Option.some.injEq, Prod.mk.injEq] at final
              obtain ⟨rfl, rfl, rfl⟩ := final
              exact Or.inr ⟨by decide, .noSlot victimPgn younger full oldest⟩
          | some slot =>
              obtain ⟨device, swpfpn, after⟩ := slot
              simp only [Option.some.injEq, Prod.mk.injEq] at final
              obtain ⟨rfl, rfl, rfl⟩ := final
              obtain ⟨mp, offers, rfl, readable⟩ := swapOut_some swapped
              refine Or.inl ⟨rfl, pagingFpn ((mem.mm caller).pgd victimPgn), ?_, ?_⟩
              · simp only [Mem.setMswp_setMm, Mem.setMm_setMm, Mem.mm_setMm_self]
                exact Grabs.evicted victimPgn younger device swpfpn mp full oldest
                  ⟨offers.first, offers.head, offers.keeps⟩ readable
              · rintro frames ⟨listedFrames, _⟩
                refine ⟨?_, Or.inl full⟩
                rw [Chain.nodes_of_push pushed]
                exact List.cons_prefix_cons.mpr ⟨rfl, listedFrames⟩

/-- The rule for the loop of `alloc_pages_range`: what every frame taken keeps,
with the number of frames still to take and the frames taken, holds when the
loop ends, or else when it gives up. -/
theorem allocPagesRange_rule
    {caller : ι}
    (holds : Nat → List Nat → Mem ι → Prop)
    (kept : ∀ left frames mem fpn mem', holds (left + 1) frames mem →
      Grabs mem caller fpn mem' → holds left (fpn :: frames) mem')
    {left : Nat}
    {frames : List Nat}
    {mem mem' : Mem ι}
    {frmLst frmLst' : Chain Nat}
    {rc : Int}
    (start : holds left frames mem)
    (gathered : Gathered mem frmLst frames)
    (allocated : allocPagesRange caller left mem frmLst = some (rc, mem', frmLst')) :
    (rc = 0 ∧ ∃ all, all.length = left + frames.length ∧ holds 0 all mem' ∧
        all <+: frmLst'.nodes) ∨
      (rc < 0 ∧ ∃ remaining taken before, holds (remaining + 1) taken before ∧
        GivesUp before caller mem') := by
  induction left generalizing frames mem frmLst with
  | zero =>
      simp only [allocPagesRange, Option.some.injEq, Prod.mk.injEq] at allocated
      obtain ⟨rfl, rfl, rfl⟩ := allocated
      exact Or.inl ⟨rfl, frames, by simp, start, gathered.1⟩
  | succ left inductionHypothesis =>
      simp only [allocPagesRange, Option.bind_eq_bind, Option.bind_eq_some_iff] at allocated
      obtain ⟨⟨code, middle, listed⟩, page, continued⟩ := allocated
      rcases allocPage_cases page with ⟨rfl, fpn, grabs, gathers⟩ | ⟨failed, givesUp⟩
      · simp only [lt_self_iff_false, if_false] at continued
        rcases inductionHypothesis (kept _ _ _ _ _ start grabs) (gathers _ gathered)
          continued with ⟨rfl, all, length, ended, prefixed⟩ | stopped
        · refine Or.inl ⟨rfl, all, ?_, ended, prefixed⟩
          rw [length, List.length_cons]
          omega
        · exact Or.inr stopped
      · simp only [failed, if_true, Option.some.injEq, Prod.mk.injEq] at continued
        obtain ⟨rfl, rfl, rfl⟩ := continued
        exact Or.inr ⟨failed, left, frames, mem, start, givesUp⟩

/-- The rule for the loop of `vmap_page_range`: with a frame for every page, the
pages from the address on are mapped one after the other. -/
theorem vmapPages_each
    {addr : Int}
    (holds : Nat → List Nat → Mm → Prop)
    (kept : ∀ page fpn frames mm, holds page (fpn :: frames) mm →
      holds (page + 1) frames (mm.mapPage (pagingPgn (addr + page * 256)) fpn))
    {left pgit : Nat}
    {frames : List Nat}
    {chain : Chain Nat}
    {mm mm' : Mm}
    (length : frames.length = left)
    (prefixed : frames <+: chain.nodes)
    (start : holds pgit frames mm)
    (mapped : vmapPages addr left pgit chain mm = some mm') :
    holds (pgit + left) [] mm' := by
  induction left generalizing pgit frames chain mm with
  | zero =>
      simp only [vmapPages, Option.some.injEq] at mapped
      subst mapped
      rw [List.length_eq_zero_iff.mp length] at start
      exact start
  | succ left inductionHypothesis =>
      obtain ⟨fpn, frames, rfl⟩ := List.exists_cons_of_length_eq_add_one length
      obtain ⟨others, nodes⟩ := prefixed
      simp only [vmapPages, ← nodes, List.cons_append, Option.bind_eq_bind,
        Option.bind_eq_some_iff, checked_eq_some_iff] at mapped
      obtain ⟨pageAddr, ⟨rfl, _, _⟩, mapped⟩ := mapped
      have next := inductionHypothesis (by simpa using length) ⟨others, rfl⟩
        (kept pgit fpn frames mm start) mapped
      have position : pgit + 1 + left = pgit + (left + 1) := by omega
      exact position ▸ next

/-- The rule for `vm_map_ram`: frames are taken one by one, and then the pages
from the start of the mapping on are mapped to them one by one; the first phase
may give up instead. -/
theorem vmMapRam_each
    {caller : ι}
    {mapstart incpgnum : Int}
    (gathering mapping : Nat → List Nat → Mem ι → Prop)
    (grab : ∀ left frames mem fpn mem', gathering (left + 1) frames mem →
      Grabs mem caller fpn mem' → gathering left (fpn :: frames) mem')
    (switch : ∀ frames mem, frames.length = incpgnum.toNat → gathering 0 frames mem →
      mapping 0 frames mem)
    (map : ∀ page fpn frames mem, mapping page (fpn :: frames) mem →
      mapping (page + 1) frames
        (mem.setMm caller ((mem.mm caller).mapPage (pagingPgn (mapstart + page * 256)) fpn)))
    {mem mem' : Mem ι}
    {rc : Int}
    (start : gathering incpgnum.toNat [] mem)
    (mapped : vmMapRam mem caller mapstart incpgnum = some (rc, mem')) :
    (rc = 0 ∧ mapping incpgnum.toNat [] mem') ∨
      (rc < 0 ∧ ∃ remaining taken before, gathering (remaining + 1) taken before ∧
        GivesUp before caller mem') := by
  simp only [vmMapRam, Option.bind_eq_bind, Option.bind_eq_some_iff] at mapped
  obtain ⟨⟨retAlloc, middle, frmLst⟩, allocated, continued⟩ := mapped
  have nothingTaken : Gathered mem Chain.null [] := ⟨List.nil_prefix, Or.inr List.nil_prefix⟩
  rcases allocPagesRange_rule gathering grab start nothingTaken allocated with
    ⟨rfl, frames, length, gathered, prefixed⟩ | ⟨failed, stopped⟩
  · simp only [lt_self_iff_false, if_false, Option.bind_eq_some_iff, vmapPageRange,
      Option.some.injEq, Prod.mk.injEq] at continued
    obtain ⟨mm, ranged, rfl, rfl⟩ := continued
    rw [List.length_nil, Nat.add_zero] at length
    refine Or.inl ⟨rfl, ?_⟩
    rw [← Nat.zero_add incpgnum.toNat]
    apply vmapPages_each (fun page frames mm => mapping page frames (middle.setMm caller mm))
      ?_ length prefixed ?_ ranged
    · intro page fpn frames mm before
      simpa using map page fpn frames _ before
    · simpa using switch frames middle length gathered
  · simp only [failed, if_true, Option.some.injEq, Prod.mk.injEq] at continued
    obtain ⟨rfl, rfl⟩ := continued
    exact Or.inr ⟨by decide, stopped⟩

/-- The rule for `vm_map_ram` with all pages inside the address space, in terms
of the page numbers. -/
theorem vmMapRam_rule
    {caller : ι}
    {base pages : Nat}
    (gathering mapping : Nat → List Nat → Mem ι → Prop)
    (grab : ∀ left frames mem fpn mem', gathering (left + 1) frames mem →
      Grabs mem caller fpn mem' → gathering left (fpn :: frames) mem')
    (switch : ∀ frames mem, gathering 0 frames mem → mapping base frames mem)
    (map : ∀ (pgn : Pgn) fpn frames mem, mapping pgn.val (fpn :: frames) mem →
      mapping (pgn.val + 1) frames (mem.setMm caller ((mem.mm caller).mapPage pgn fpn)))
    (inSpace : base + pages ≤ 16384)
    {mem mem' : Mem ι}
    {rc : Int}
    (start : gathering pages [] mem)
    (mapped : vmMapRam mem caller ((base * 256 : Nat) : Int) pages = some (rc, mem')) :
    mapping (base + pages) [] mem' ∨
      ∃ remaining taken before, gathering (remaining + 1) taken before ∧
        GivesUp before caller mem' := by
  have outcome := vmMapRam_each gathering
    (fun page frames state => page + frames.length = pages ∧ mapping (base + page) frames state)
    grab ?switch ?map (by simpa using start) mapped
  case switch =>
    intro frames state length gathered
    exact ⟨by simpa using length, by simpa using switch frames state gathered⟩
  case map =>
    rintro page fpn frames state ⟨count, before⟩
    have pgn : (pagingPgn (((base * 256 : Nat) : Int) + page * 256)).val = base + page := by
      have natural : (((base * 256 : Nat) : Int) + page * 256) =
          (((base + page) * 256 : Nat) : Int) := by
        push_cast
        omega
      rw [List.length_cons] at count
      rw [natural, pagingPgn_natCast_val]
      omega
    have here := map (pagingPgn (((base * 256 : Nat) : Int) + page * 256)) fpn frames state
    rw [pgn] at here
    refine ⟨?_, here before⟩
    rw [← count, List.length_cons]
    omega
  rcases outcome with ⟨_, _, mapped⟩ | ⟨_, stopped⟩
  · exact Or.inl (by simpa using mapped)
  · exact Or.inr stopped

/-! ## Growing an area -/

/-- The number of pages by which `__alloc` grows the area: there is no fitting
free region, and the larger area passes the test for overlaps. -/
def growth (mm : Mm) (size : Int) : Option Int := do
  let found ← getFreeVmrgArea mm size
  if found.isSome then
    none
  else
    let incAmt ← pagingPageAlignsz size
    let rgStart := mm.mmap.sbrk
    let rgEnd := toULong (rgStart + incAmt)
    let overlap ← validateOverlapVmArea mm (toInt rgStart) (toInt rgEnd)
    if overlap < 0 then none else some (incAmt.tdiv pagingPagesz)

/-- The end of the area after growing by some pages. -/
def grownEnd (mm : Mm) (pages : Int) : Nat := toULong (mm.mmap.sbrk + pages * 256)

/-- The limits are set and `vm_map_ram` is asked to map the pages, with any
outcome. -/
def Grows (mem : Mem ι) (caller : ι) (pages : Int) (mem' : Mem ι) : Prop :=
  ∃ rc, vmMapRam
    (mem.setMm caller
      ((mem.mm caller).setLimits (grownEnd (mem.mm caller) pages)
        (grownEnd (mem.mm caller) pages)))
    caller (toInt (mem.mm caller).mmap.vmEnd) pages = some (rc, mem')

theorem pagingPageAlignsz_eq_some_iff
    {sz amount : Int} :
    pagingPageAlignsz sz = some amount ↔
      -2 ^ 31 ≤ sz + 256 ∧ sz + 256 < 2 ^ 31 ∧ amount = (sz + 255).tdiv 256 * 256 := by
  simp only [pagingPageAlignsz, pagingPagesz, Option.bind_eq_bind, Option.bind_eq_some_iff,
    checked_eq_some_iff, Option.some.injEq]
  constructor
  · rintro ⟨rounded, ⟨rfl, atLeast, below⟩, rfl⟩
    refine ⟨atLeast, below, ?_⟩
    rw [show sz + ((256 : Nat) : Int) - 1 = sz + 255 by omega]
    rfl
  · rintro ⟨atLeast, below, rfl⟩
    refine ⟨sz + 256, ⟨rfl, atLeast, below⟩, ?_⟩
    rw [show sz + 256 - 1 = sz + 255 by omega]
    rfl

theorem incVmaLimit_cases
    {mem mem' : Mem ι}
    {caller : ι}
    {size rc : Int}
    (missed : getFreeVmrgArea (mem.mm caller) size = some none)
    (grown : incVmaLimit mem caller size = some (rc, mem')) :
    (growth (mem.mm caller) size = none ∧ mem' = mem) ∨
      ∃ pages, growth (mem.mm caller) size = some pages ∧ Grows mem caller pages mem' := by
  simp only [incVmaLimit, Option.bind_eq_bind, Option.bind_eq_some_iff] at grown
  obtain ⟨incAmt, aligned, overlap, validated, continued⟩ := grown
  split at continued
  · rename_i refused
    simp only [Option.some.injEq, Prod.mk.injEq] at continued
    refine Or.inl ⟨?_, continued.2.symm⟩
    simp [growth, missed, aligned, validated, refused]
  · rename_i accepted
    simp only [Option.bind_eq_some_iff] at continued
    obtain ⟨⟨mapped, middle⟩, ranged, final⟩ := continued
    have same : middle = mem' := by
      split at final
      · cases final
        rfl
      · cases final
        rfl
    subst same
    refine Or.inr ⟨incAmt.tdiv pagingPagesz, ?_, mapped, ?_⟩
    · simp [growth, missed, aligned, validated, accepted]
    · obtain ⟨_, _, rfl⟩ := pagingPageAlignsz_eq_some_iff.mp aligned
      have amount : ((size + 255).tdiv 256 * 256).tdiv (pagingPagesz : Int) * 256 =
          (size + 255).tdiv 256 * 256 := by
        rw [pagingPagesz]
        simp
      simpa only [grownEnd, amount] using ranged

/-- The number of pages covers the size. -/
theorem growth_bounds
    {mm : Mm}
    {size pages : Int}
    (grows : growth mm size = some pages) :
    pages = (size + 255).tdiv 256 ∧ -2 ^ 31 ≤ size + 256 ∧ size + 256 < 2 ^ 31 := by
  simp only [growth, Option.bind_eq_bind, Option.bind_eq_some_iff] at grows
  obtain ⟨found, _, continued⟩ := grows
  split at continued
  · cases continued
  · simp only [Option.bind_eq_some_iff] at continued
    obtain ⟨incAmt, aligned, overlap, _, final⟩ := continued
    obtain ⟨atLeast, below, rfl⟩ := pagingPageAlignsz_eq_some_iff.mp aligned
    split at final
    · cases final
    · simp only [pagingPagesz, Option.some.injEq] at final
      refine ⟨?_, atLeast, below⟩
      rw [← final]
      simp

/-! ## Access to a page -/

/-- `pg_getpage` replaces the oldest page of the caller by a page that is not
present.  The victim gets the swap frame, and the page its RAM frame. -/
inductive PageIn (mem : Mem ι) (caller : ι) (pgn : Pgn) : Nat → Mem ι → Prop
  | replaced (victim : Pgn) (younger : List Pgn) (slot : Nat) (mp : Memphy) :
      (mem.mm caller).fifoPgn = younger ++ [victim] →
      (mem.mswp (mem.pcb caller).activeMswp).freeFpList.nodes =
        slot :: mp.freeFpList.nodes →
      mp =
        { mem.mswp (mem.pcb caller).activeMswp with
          storage := mp.storage
          freeFpList := mp.freeFpList } →
      PageIn mem caller pgn (pagingFpn ((mem.mm caller).pgd victim))
        ((mem.setMswp (mem.pcb caller).activeMswp mp).setMm caller
          ((({ mem.mm caller with fifoPgn := younger }.setPte victim
            (pteSetSwap ((mem.mm caller).pgd victim) (mem.pcb caller).activeMswpId slot)).setPte
              pgn (pteSetFpn ((mem.mm caller).pgd pgn)
                (pagingFpn ((mem.mm caller).pgd victim)))).enlistPgnNode pgn))

theorem sysMemmap_swp
    {mem : Mem ι}
    {caller : ι}
    {vicfpn swpfpn : Nat}
    {regs : SysResult ι}
    (called : sysMemmap mem caller (.swp vicfpn swpfpn) = some regs) :
    ∃ mp, regs = ⟨0, mem.setMswp (mem.pcb caller).activeMswp mp, none⟩ ∧
      mp = { mem.mswp (mem.pcb caller).activeMswp with storage := mp.storage } := by
  simp only [sysMemmap, mmSwapPage, Option.bind_eq_bind, Option.bind_eq_some_iff,
    Option.some.injEq] at called
  obtain ⟨_, ⟨mp, copied, rfl⟩, rfl⟩ := called
  exact ⟨mp, rfl, (swapCpPage_cases copied).1⟩

/-- What `pg_getpage` does for a page that is not present.  The oldest page is copied
to a free frame of the active swap device, and a second copy is meant to bring the page
in. -/
theorem pgSwapIn_calls
    {mem mem' : Mem ι}
    {caller : ι}
    {pgn : Pgn}
    {rc : Int}
    {fpn : Option Nat}
    (accessed : pgSwapIn mem caller pgn = some (rc, mem', fpn)) :
    ∃ victim younger slot mp first second firstRegs secondRegs,
      (mem.mm caller).fifoPgn = younger ++ [victim] ∧
      memphyGetFreefp (mem.mswp (mem.pcb caller).activeMswp) = some (some (slot, mp)) ∧
      sysMemmap ((mem.setMswp (mem.pcb caller).activeMswp mp).setMm caller
        { mem.mm caller with fifoPgn := younger }) caller
        (.swp (pagingFpn ((mem.mm caller).pgd victim)) slot) = some firstRegs ∧
      first = { mp with storage := first.storage } ∧
      sysMemmap ((mem.setMswp (mem.pcb caller).activeMswp first).setMm caller
        { mem.mm caller with fifoPgn := younger }) caller
        (.swp (pagingPteSwp ((mem.mm caller).pgd pgn))
          (pagingFpn ((mem.mm caller).pgd victim))) = some secondRegs ∧
      second = { mp with storage := second.storage } ∧
      rc = 0 ∧ fpn = some (pagingFpn ((mem.mm caller).pgd victim)) ∧
      mem' = (mem.setMswp (mem.pcb caller).activeMswp second).setMm caller
        ((({ mem.mm caller with fifoPgn := younger }.setPte victim
          (pteSetSwap ((mem.mm caller).pgd victim) (mem.pcb caller).activeMswpId slot)).setPte
            pgn (pteSetFpn ((mem.mm caller).pgd pgn)
              (pagingFpn ((mem.mm caller).pgd victim)))).enlistPgnNode pgn) := by
  simp only [pgSwapIn] at accessed
  cases found : findVictimPage (mem.mm caller) with
  | none => simp [found] at accessed
  | some victim =>
      obtain ⟨vicpgn, mm⟩ := victim
      obtain ⟨younger, oldest, rfl⟩ := findVictimPage_eq_some_iff.mp found
      simp only [found, Option.bind_eq_bind, Option.bind_eq_some_iff, Mem.activeMswp_setMm,
        Mem.mswp_setMm] at accessed
      obtain ⟨offer, asked, accessed⟩ := accessed
      cases offer with
      | none => cases accessed
      | some taken =>
          obtain ⟨swpfpn, mp⟩ := taken
          simp only [Option.bind_eq_some_iff] at accessed
          obtain ⟨regs, firstCall, accessed⟩ := accessed
          obtain ⟨first, rfl, firstCopy⟩ := sysMemmap_swp firstCall
          simp only [ne_eq, not_true_eq_false, if_false, Option.bind_eq_some_iff] at accessed
          obtain ⟨regs, secondCall, accessed⟩ := accessed
          obtain ⟨second, rfl, secondCopy⟩ := sysMemmap_swp secondCall
          simp only [not_true_eq_false, if_false, Option.some.injEq, Prod.mk.injEq,
            Mem.setMswp_setMm, Mem.pcb_setMswp, Mem.activeMswp_setMm, Mem.activeMswpId_setMm,
            Mem.setMswp_setMswp, Mem.setMm_setMm, Mem.mm_setMm_self, Mem.mswp_setMm,
            Mem.mswp_setMswp_self] at accessed firstCall secondCall firstCopy secondCopy
          obtain ⟨rfl, rfl, rfl⟩ := accessed
          have mark : pagingPteSetPresent
              (pteSetFpn ((mem.mm caller).pgd pgn) (pagingFpn ((mem.mm caller).pgd vicpgn))) =
              pteSetFpn ((mem.mm caller).pgd pgn) (pagingFpn ((mem.mm caller).pgd vicpgn)) :=
            pagingPteSetPresent_of_present (by simp)
          rw [mark]
          have narrow := Nat.mod_eq_of_lt (pagingFpn_lt ((mem.mm caller).pgd vicpgn))
          refine ⟨vicpgn, younger, swpfpn, mp, first, second, _, _, oldest, asked, firstCall,
            firstCopy, secondCall, ?_, rfl, ?_, rfl⟩
          · rw [secondCopy, firstCopy]
          · rw [pagingFpn_pteSetFpn, narrow]

theorem pgSwapIn_cases
    {mem mem' : Mem ι}
    {caller : ι}
    {pgn : Pgn}
    {rc : Int}
    {fpn : Option Nat}
    (accessed : pgSwapIn mem caller pgn = some (rc, mem', fpn)) :
    rc = 0 ∧ ∃ vicfpn, PageIn mem caller pgn vicfpn mem' ∧ fpn = some vicfpn := by
  obtain ⟨victim, younger, slot, mp, _, second, _, _, oldest, asked, _, _, _, copied, code,
    frame, rfl⟩ := pgSwapIn_calls accessed
  obtain ⟨onlyList, head⟩ := memphyGetFreefp_some asked
  refine ⟨code, pagingFpn ((mem.mm caller).pgd victim), ?_, frame⟩
  apply PageIn.replaced victim younger slot second oldest
  · rw [copied]
    exact head
  · rw [copied, onlyList]

/-- `pg_getpage` answers at once for a present page, and otherwise brings the
page in. -/
theorem pgGetpage_cases
    {mem mem' : Mem ι}
    {caller : ι}
    {pgn : Pgn}
    {rc : Int}
    {fpn : Option Nat}
    (accessed : pgGetpage mem caller pgn = some (rc, mem', fpn)) :
    rc = 0 ∧
      ((pagingPagePresent ((mem.mm caller).pgd pgn) = true ∧ mem' = mem ∧
          fpn = some (pagingFpn ((mem.mm caller).pgd pgn))) ∨
        (pagingPagePresent ((mem.mm caller).pgd pgn) = false ∧
          ∃ vicfpn, PageIn mem caller pgn vicfpn mem' ∧ fpn = some vicfpn)) := by
  simp only [pgGetpage] at accessed
  split at accessed
  · rename_i present
    cases accessed
    exact ⟨rfl, Or.inl ⟨present, rfl, rfl⟩⟩
  · rename_i absent
    obtain ⟨code, broughtIn⟩ := pgSwapIn_cases accessed
    exact ⟨code, Or.inr ⟨by simpa using absent, broughtIn⟩⟩

theorem pgGetval_cases
    {mem mem' : Mem ι}
    {caller : ι}
    {addr rc : Int}
    {data : Option Byte}
    (accessed : pgGetval mem caller addr = some (rc, mem', data)) :
    ∃ fpn byte, pgGetpage mem caller (pagingPgn addr) = some (0, mem', some fpn) ∧
      memphyRead mem'.mram (pagingPhyaddr fpn (pagingOffst addr)) = some byte ∧
      rc = 0 ∧ data = some byte := by
  simp only [pgGetval, Option.bind_eq_bind, Option.bind_eq_some_iff] at accessed
  obtain ⟨⟨code, middle, frame⟩, page, continued⟩ := accessed
  obtain ⟨rfl, _⟩ := pgGetpage_cases page
  simp only [ne_eq, not_true_eq_false, if_false, sysMemmap, Option.bind_eq_bind,
    Option.bind_eq_some_iff] at continued
  obtain ⟨fpn, rfl, regs, ⟨byte, read, called⟩, final⟩ := continued
  cases called
  simp only [not_true_eq_false, if_false, Option.some.injEq, Prod.mk.injEq] at final
  obtain ⟨rfl, rfl, rfl⟩ := final
  exact ⟨fpn, byte, page, read, rfl, rfl⟩

theorem pgSetval_cases
    {mem mem' : Mem ι}
    {caller : ι}
    {addr rc : Int}
    {value : Byte}
    (accessed : pgSetval mem caller addr value = some (rc, mem')) :
    ∃ fpn middle mram, pgGetpage mem caller (pagingPgn addr) = some (0, middle, some fpn) ∧
      memphyWrite middle.mram (pagingPhyaddr fpn (pagingOffst addr)) value = some mram ∧
      rc = 0 ∧ mem' = middle.setMram mram := by
  simp only [pgSetval, Option.bind_eq_bind, Option.bind_eq_some_iff] at accessed
  obtain ⟨⟨code, middle, frame⟩, page, continued⟩ := accessed
  obtain ⟨rfl, _⟩ := pgGetpage_cases page
  simp only [ne_eq, not_true_eq_false, if_false, sysMemmap, Option.bind_eq_bind,
    Option.bind_eq_some_iff] at continued
  obtain ⟨fpn, rfl, regs, ⟨mram, written, called⟩, final⟩ := continued
  cases called
  simp only [not_true_eq_false, if_false, Option.some.injEq, Prod.mk.injEq] at final
  obtain ⟨rfl, rfl⟩ := final
  exact ⟨fpn, middle, mram, page, written, rfl, rfl⟩

/-! ## Operations on regions -/

theorem getSymrgById_cases
    {mm : Mm}
    {rgid : Int}
    {found : Option Region}
    (looked : getSymrgById mm rgid = some found) :
    (found = none ∧ (rgid < 0 ∨ rgid > 30)) ∨
      ∃ index : Fin 30, rgid = index.val ∧ found = some (mm.symrgtbl index) := by
  unfold getSymrgById at looked
  split at looked
  · rename_i invalid
    cases looked
    exact Or.inl ⟨rfl, invalid⟩
  · split at looked
    · cases looked
    · rename_i index found
      cases looked
      exact Or.inr ⟨index, symrgIndex_eq_some_iff.mp found, rfl⟩

/-- The rest of a grown area goes on the free list. -/
def EnlistsRest (mm : Mm) (newEnd : Nat) (mm' : Mm) : Prop :=
  (newEnd < mm.mmap.vmEnd ∧ ∃ rc, enlistVmFreergList mm ⟨newEnd, mm.mmap.vmEnd⟩ = some (rc, mm')) ∨
    (mm.mmap.vmEnd ≤ newEnd ∧ mm' = mm)

/-- `__alloc` without a fitting free region: the region is registered at the old
end of the area, whatever `inc_vma_limit` has returned. -/
theorem alloc_missed
    {mem mem' : Mem ι}
    {caller : ι}
    {rgid size rc : Int}
    {addr : Option Int}
    (missed : getFreeVmrgArea (mem.mm caller) size = some none)
    (allocated : alloc mem caller rgid size = some (rc, mem', addr)) :
    rc = 0 ∧ ∃ index : Fin 30, rgid = index.val ∧ ∃ code newEnd middle mm,
      incVmaLimit mem caller size = some (code, middle) ∧
      checked (toInt (mem.mm caller).mmap.sbrk + size) = some newEnd ∧
      addr = some (toInt (mem.mm caller).mmap.sbrk) ∧
      EnlistsRest
        { middle.mm caller with
          symrgtbl := Function.update (middle.mm caller).symrgtbl index
            ⟨toULong (toInt (mem.mm caller).mmap.sbrk), toULong newEnd⟩ }
        (toULong newEnd) mm ∧
      mem' = middle.setMm caller mm := by
  simp only [alloc, missed, Option.bind_eq_bind, Option.bind_some, Option.bind_eq_some_iff,
    sysMemmap] at allocated
  obtain ⟨regs, ⟨⟨code, middle⟩, grown, called⟩, continued⟩ := allocated
  cases called
  simp only [ne_eq, not_true_eq_false, if_false, Option.bind_eq_some_iff,
    setSymrg_eq_some_iff] at continued
  obtain ⟨newEnd, inRange, mm, ⟨index, slot, rfl⟩, continued⟩ := continued
  split at continued
  · rename_i rest
    simp only [Option.bind_eq_some_iff, Option.some.injEq, Prod.mk.injEq] at continued
    obtain ⟨⟨enlisted, mm⟩, enlisting, rfl, rfl, rfl⟩ := continued
    exact ⟨rfl, index, slot, code, newEnd, middle, mm, grown, inRange, rfl,
      Or.inl ⟨rest, enlisted, enlisting⟩, rfl⟩
  · rename_i noRest
    simp only [Option.some.injEq, Prod.mk.injEq] at continued
    obtain ⟨rfl, rfl, rfl⟩ := continued
    exact ⟨rfl, index, slot, code, newEnd, middle, _, grown, inRange, rfl,
      Or.inr ⟨Nat.le_of_not_lt noRest, rfl⟩, rfl⟩

/-- `__alloc` takes a free region or grows the area; a growth that is refused
changes nothing, and the region is registered all the same. -/
theorem alloc_cases
    {mem mem' : Mem ι}
    {caller : ι}
    {rgid size rc : Int}
    {addr : Option Int}
    (allocated : alloc mem caller rgid size = some (rc, mem', addr)) :
    rc = 0 ∧ ∃ index : Fin 30, rgid = index.val ∧
      ((∃ newrg mm, getFreeVmrgArea (mem.mm caller) size = some (some (newrg, mm)) ∧
          addr = some (toInt newrg.rgStart) ∧
          mem' = mem.setMm caller
            { mm with symrgtbl := Function.update mm.symrgtbl index newrg }) ∨
        (∃ newEnd middle mm, getFreeVmrgArea (mem.mm caller) size = some none ∧
          ((growth (mem.mm caller) size = none ∧ middle = mem) ∨
            ∃ pages, growth (mem.mm caller) size = some pages ∧
              Grows mem caller pages middle) ∧
          checked (toInt (mem.mm caller).mmap.sbrk + size) = some newEnd ∧
          addr = some (toInt (mem.mm caller).mmap.sbrk) ∧
          EnlistsRest
            { middle.mm caller with
              symrgtbl := Function.update (middle.mm caller).symrgtbl index
                ⟨toULong (toInt (mem.mm caller).mmap.sbrk), toULong newEnd⟩ }
            (toULong newEnd) mm ∧
          mem' = middle.setMm caller mm)) := by
  cases searched : getFreeVmrgArea (mem.mm caller) size with
  | none => simp [alloc, searched] at allocated
  | some found =>
      cases found with
      | some hit =>
          obtain ⟨newrg, mm⟩ := hit
          simp only [alloc, searched, Option.bind_eq_bind, Option.bind_some,
            Option.bind_eq_some_iff, setSymrg_eq_some_iff, Option.some.injEq,
            Prod.mk.injEq] at allocated
          obtain ⟨_, ⟨index, slot, rfl⟩, rfl, rfl, rfl⟩ := allocated
          exact ⟨rfl, index, slot, Or.inl ⟨newrg, mm, rfl, rfl, rfl⟩⟩
      | none =>
          obtain ⟨code, index, slot, _, newEnd, middle, mm, grown, inRange, at', rest, final⟩ :=
            alloc_missed searched allocated
          exact ⟨code, index, slot, Or.inr ⟨newEnd, middle, mm, rfl,
            incVmaLimit_cases searched grown, inRange, at', rest, final⟩⟩

theorem free_cases
    {mem mem' : Mem ι}
    {caller : ι}
    {rgid rc : Int}
    (freed : free mem caller rgid = some (rc, mem')) :
    ((rgid < 0 ∨ rgid > 30) ∧ mem' = mem) ∨
      ∃ index : Fin 30, rgid = index.val ∧ ∃ code mm,
        enlistVmFreergList (mem.mm caller) ((mem.mm caller).symrgtbl index) = some (code, mm) ∧
        mem' = mem.setMm caller mm := by
  simp only [free, Option.bind_eq_bind, Option.bind_eq_some_iff] at freed
  obtain ⟨found, looked, continued⟩ := freed
  rcases getSymrgById_cases looked with ⟨rfl, invalid⟩ | ⟨index, slot, rfl⟩
  · cases continued
    exact Or.inl ⟨invalid, rfl⟩
  · simp only [Option.bind_eq_some_iff, Option.some.injEq, Prod.mk.injEq] at continued
    obtain ⟨⟨code, mm⟩, enlisted, _, rfl⟩ := continued
    exact Or.inr ⟨index, slot, code, mm, enlisted, rfl⟩

theorem read_cases
    {mem mem' : Mem ι}
    {caller : ι}
    {rgid offset val : Int}
    {data : Option Byte}
    (accessed : read mem caller rgid offset = some (val, mem', data)) :
    ((rgid < 0 ∨ rgid > 30) ∧ mem' = mem) ∨
      ∃ index : Fin 30, rgid = index.val ∧ ∃ code byte,
        pgGetval mem caller (accessAddr ((mem.mm caller).symrgtbl index) offset) =
          some (code, mem', some byte) ∧
        val = byte.toInt ∧ data = some byte := by
  simp only [read, Option.bind_eq_bind, Option.bind_eq_some_iff] at accessed
  obtain ⟨found, looked, continued⟩ := accessed
  rcases getSymrgById_cases looked with ⟨rfl, invalid⟩ | ⟨index, slot, rfl⟩
  · cases continued
    exact Or.inl ⟨invalid, rfl⟩
  · simp only [Option.bind_eq_some_iff, Option.some.injEq, Prod.mk.injEq] at continued
    obtain ⟨⟨code, middle, loaded⟩, getval, byte, rfl, rfl, rfl, rfl⟩ := continued
    exact Or.inr ⟨index, slot, code, byte, getval, rfl, rfl⟩

theorem write_cases
    {mem mem' : Mem ι}
    {caller : ι}
    {rgid offset rc : Int}
    {value : Byte}
    (accessed : write mem caller rgid offset value = some (rc, mem')) :
    ((rgid < 0 ∨ rgid > 30) ∧ mem' = mem) ∨
      ∃ index : Fin 30, rgid = index.val ∧ ∃ code,
        pgSetval mem caller (accessAddr ((mem.mm caller).symrgtbl index) offset) value =
          some (code, mem') := by
  simp only [write, Option.bind_eq_bind, Option.bind_eq_some_iff] at accessed
  obtain ⟨found, looked, continued⟩ := accessed
  rcases getSymrgById_cases looked with ⟨rfl, invalid⟩ | ⟨index, slot, rfl⟩
  · cases continued
    exact Or.inl ⟨invalid, rfl⟩
  · simp only [Option.bind_eq_some_iff, Option.some.injEq, Prod.mk.injEq] at continued
    obtain ⟨⟨code, middle⟩, setval, _, rfl⟩ := continued
    exact Or.inr ⟨index, slot, code, setval⟩

/-! ## Instructions -/

/-- Two address spaces with the same pages and limits. -/
structure SamePages (mm mm' : Mm) : Prop where
  pgd : mm'.pgd = mm.pgd
  fifoPgn : mm'.fifoPgn = mm.fifoPgn
  vmEnd : mm'.mmap.vmEnd = mm.mmap.vmEnd
  sbrk : mm'.mmap.sbrk = mm.mmap.sbrk

theorem SamePages.of_enlist
    {mm mm' : Mm}
    {region : Region}
    {rc : Int}
    (enlisted : enlistVmFreergList mm region = some (rc, mm')) :
    SamePages mm mm' := by
  rcases enlistVmFreergList_cases enlisted with ⟨_, rfl⟩ | ⟨_, onlyList, _⟩
  · exact ⟨rfl, rfl, rfl, rfl⟩
  · rw [onlyList]
    exact ⟨rfl, rfl, rfl, rfl⟩

theorem EnlistsRest.samePages
    {mm mm' : Mm}
    {newEnd : Nat}
    (rest : EnlistsRest mm newEnd mm') :
    SamePages mm mm' := by
  rcases rest with ⟨_, code, enlisted⟩ | ⟨_, rfl⟩
  · exact SamePages.of_enlist enlisted
  · exact ⟨rfl, rfl, rfl, rfl⟩

/-- For the pages an `ALLOC` is a growth of the area, or nothing. -/
theorem run_alloc_pages
    {mem mem' : Mem ι}
    {proc : ι}
    {size regIndex : Nat}
    (ran : run mem proc (.alloc size regIndex) = some mem') :
    ∃ middle mm, mem' = middle.setMm proc mm ∧ SamePages (middle.mm proc) mm ∧
      (middle = mem ∨ ∃ pages, growth (mem.mm proc) (toInt size) = some pages ∧
        Grows mem proc pages middle) := by
  simp only [run, Option.map_eq_some_iff, liballoc, Option.bind_eq_bind,
    Option.bind_eq_some_iff, Option.some.injEq] at ran
  obtain ⟨_, ⟨⟨rc, after, addr⟩, allocated, rfl⟩, rfl⟩ := ran
  obtain ⟨_, index, _, hit | grown⟩ := alloc_cases allocated
  · obtain ⟨newrg, mm, taken, _, rfl⟩ := hit
    obtain ⟨onlyList, _⟩ := getFreeVmrgArea_cases taken
    refine ⟨mem, _, rfl, ?_, Or.inl rfl⟩
    rw [onlyList]
    exact ⟨rfl, rfl, rfl, rfl⟩
  · obtain ⟨newEnd, middle, mm, _, outcome, _, _, rest, rfl⟩ := grown
    refine ⟨middle, mm, rfl, ?_, ?_⟩
    · obtain ⟨pgd, fifoPgn, vmEnd, sbrk⟩ := rest.samePages
      exact ⟨pgd, fifoPgn, vmEnd, sbrk⟩
    · rcases outcome with ⟨_, unchanged⟩ | grows
      · exact Or.inl unchanged
      · exact Or.inr grows

/-- For the pages a `FREE` is nothing. -/
theorem run_free_pages
    {mem mem' : Mem ι}
    {proc : ι}
    {regIndex : Nat}
    (ran : run mem proc (.free regIndex) = some mem') :
    ∃ mm, mem' = mem.setMm proc mm ∧ SamePages (mem.mm proc) mm := by
  simp only [run, Option.map_eq_some_iff, libfree] at ran
  obtain ⟨⟨rc, after⟩, freed, rfl⟩ := ran
  rcases free_cases freed with ⟨_, rfl⟩ | ⟨index, _, code, mm, enlisted, rfl⟩
  · exact ⟨after.mm proc, by simp, ⟨rfl, rfl, rfl, rfl⟩⟩
  · exact ⟨mm, rfl, SamePages.of_enlist enlisted⟩

/-- A `READ` accesses one page, or nothing. -/
theorem run_read_cases
    {mem mem' : Mem ι}
    {proc : ι}
    {source offset : Nat}
    (ran : run mem proc (.read source offset) = some mem') :
    ((toInt source < 0 ∨ toInt source > 30) ∧ mem' = mem) ∨
      ∃ index : Fin 30, toInt source = index.val ∧ ∃ code byte,
      pgGetval mem proc (accessAddr ((mem.mm proc).symrgtbl index) (toInt offset)) =
        some (code, mem', some byte) := by
  simp only [run, Option.map_eq_some_iff, libread] at ran
  obtain ⟨⟨val, after, data⟩, accessed, rfl⟩ := ran
  rcases read_cases accessed with ⟨invalid, rfl⟩ | ⟨index, slot, code, byte, getval, _⟩
  · exact Or.inl ⟨invalid, rfl⟩
  · exact Or.inr ⟨index, slot, code, byte, getval⟩

/-- A `WRITE` accesses one page, or nothing. -/
theorem run_write_cases
    {mem mem' : Mem ι}
    {proc : ι}
    {data : Byte}
    {destination offset : Nat}
    (ran : run mem proc (.write data destination offset) = some mem') :
    ((toInt destination < 0 ∨ toInt destination > 30) ∧ mem' = mem) ∨
      ∃ index : Fin 30, toInt destination = index.val ∧ ∃ code,
      pgSetval mem proc (accessAddr ((mem.mm proc).symrgtbl index) (toInt offset)) data =
        some (code, mem') := by
  simp only [run, Option.map_eq_some_iff, libwrite] at ran
  obtain ⟨⟨rc, after⟩, accessed, rfl⟩ := ran
  rcases write_cases accessed with ⟨invalid, rfl⟩ | ⟨index, slot, code, setval⟩
  · exact Or.inl ⟨invalid, rfl⟩
  · exact Or.inr ⟨index, slot, code, setval⟩

end Memory
end Ossim
