import Ossim.Library.Transition
import Ossim.Library.WriteLog
import Ossim.Memory.Access

/-!
# Paging refines private byte arrays

Any number of processes share the RAM.  As long as it has a free frame for
every page that an `ALLOC` asks for, each process sees an array of its own: a
`READ` returns the byte that the same process wrote last at the same address.
A log of the writes stands for these arrays.
-/

namespace Ossim
namespace Memory

open CInt Transition WriteLog

namespace Refinement

variable {ι : Type} [DecidableEq ι]

/-- The memory, and the bytes written so far by a process at an address, the
newest first. -/
structure State (ι : Type) where
  mem : Mem ι
  writes : List ((ι × Nat) × Byte)

/-- The address of an access: the start of the region plus the offset. -/
def address (mm : Mm) (rgid offset : Nat) : Option Nat :=
  (symrgIndex (toInt rgid)).map fun index =>
    toULong ((mm.symrgtbl index).rgStart + toInt offset)

/-- Add what an instruction writes to the log. -/
def record (state : State ι) (event : Event ι) : List ((ι × Nat) × Byte) :=
  match event.inst with
  | .write data destination offset =>
      (address (state.mem.mm event.proc) destination offset).elim state.writes fun addr =>
        ((event.proc, addr), data) :: state.writes
  | _ => state.writes

/-- An instruction of a process, with its entry in the log. -/
def step (state : State ι) (event : Event ι) : Option (State ι) :=
  match Memory.step state.mem event with
  | none => none
  | some mem => some ⟨mem, record state event⟩

/-- An access below the limit of the area. -/
def AccessBelowEnd (mm : Mm) (rgid offset : Nat) : Prop :=
  rgid < 30 ∧ ∀ addr ∈ address mm rgid offset, addr < mm.mmap.vmEnd

instance decidableAccessBelowEnd (mm : Mm) (rgid offset : Nat) :
    Decidable (AccessBelowEnd mm rgid offset) :=
  inferInstanceAs (Decidable (rgid < 30 ∧ ∀ addr ∈ address mm rgid offset, addr < _))

/-- The RAM has a free frame for every page of an `ALLOC`, and accesses are below
the limit. -/
def Permitted (state : State ι) (event : Event ι) : Prop :=
  match event.inst with
  | .alloc size regIndex =>
      1 ≤ size ∧ size ≤ 2 ^ 22 ∧ regIndex < 30 ∧
        ∀ pages ∈ growth (state.mem.mm event.proc) (toInt size),
          pages ≤ state.mem.mram.freeFpList.nodes.length
  | .free regIndex => regIndex < 30
  | .read source offset => AccessBelowEnd (state.mem.mm event.proc) source offset
  | .write _ destination offset => AccessBelowEnd (state.mem.mm event.proc) destination offset

instance decidablePermitted (state : State ι) : ∀ event, Decidable (Permitted state event)
  | ⟨proc, .alloc size regIndex⟩ =>
      inferInstanceAs (Decidable (1 ≤ size ∧ size ≤ 2 ^ 22 ∧ regIndex < 30 ∧
        ∀ pages ∈ growth (state.mem.mm proc) (toInt size), pages ≤ _))
  | ⟨_, .free regIndex⟩ => inferInstanceAs (Decidable (regIndex < 30))
  | ⟨proc, .read source offset⟩ =>
      inferInstanceAs (Decidable (AccessBelowEnd (state.mem.mm proc) source offset))
  | ⟨proc, .write _ destination offset⟩ =>
      inferInstanceAs (Decidable (AccessBelowEnd (state.mem.mm proc) destination offset))

/-- Before the first instruction: the RAM comes from `init_memphy`, and every
address space from `init_mm`, with an empty page table and an empty page list. -/
structure Start (state : State ι) : Prop where
  ram : ∃ maxSize, maxSize / pagingPagesz ≤ 2 ^ 13 ∧ state.mem.mram = initMemphy maxSize true
  area : ∀ proc, ∃ mm, state.mem.mm proc = initMm mm ∧
    (∀ pgn, pagingPagePresent (mm.pgd pgn) = false) ∧ mm.fifoPgn = []
  nothing : state.writes = []

/-! ## Growing without eviction -/

variable {mem mem' : Mem ι} {proc : ι} {pages : Int}

/-- Frames are taken from the free list, and no page changes. -/
structure Taking (mem : Mem ι) (proc : ι) (pages left : Nat) (frames : List Nat)
    (state : Mem ι) : Prop where
  same : SameRam proc mem state
  pgd : (state.mm proc).pgd = (mem.mm proc).pgd
  owned : RamOwned state frames
  count : frames.length + left = pages
  free : mem.mram.freeFpList.nodes = frames.reverse ++ state.mram.freeFpList.nodes

/-- The pages from the old end of the area up to `next` are mapped to frames that
were free. -/
structure Mapping (mem : Mem ι) (proc : ι) (pages next : Nat) (frames : List Nat)
    (state : Mem ι) : Prop where
  same : SameRam proc mem state
  owned : RamOwned state frames
  free : state.mram.freeFpList.nodes = mem.mram.freeFpList.nodes.drop pages
  fromFree : ∀ fpn ∈ frames, fpn ∈ mem.mram.freeFpList.nodes
  position : (mem.mm proc).mmap.vmEnd / 256 ≤ next
  older : ∀ pgn : Pgn, pgn.val < (mem.mm proc).mmap.vmEnd / 256 →
    (state.mm proc).pgd pgn = (mem.mm proc).pgd pgn
  newer : ∀ pgn : Pgn, (mem.mm proc).mmap.vmEnd / 256 ≤ pgn.val → pgn.val < next →
    ∃ fpn ∈ mem.mram.freeFpList.nodes, onlineFrame ((state.mm proc).pgd pgn) = some fpn

omit [DecidableEq ι] in
/-- As long as frames are asked for, the free list is not empty. -/
theorem Taking.free_ne_nil
    {amount left : Nat}
    {frames : List Nat}
    {state : Mem ι}
    (taking : Taking mem proc amount (left + 1) frames state)
    (enough : amount ≤ mem.mram.freeFpList.nodes.length) :
    state.mram.freeFpList.nodes ≠ [] := by
  intro exhausted
  have count := taking.count
  have lengths := congrArg List.length taking.free
  rw [exhausted, List.append_nil, List.length_reverse] at lengths
  omega

theorem Taking.grab
    {amount left bound fpn : Nat}
    {frames : List Nat}
    {before after : Mem ι}
    (taking : Taking mem proc amount (left + 1) frames before)
    (enough : amount ≤ mem.mram.freeFpList.nodes.length)
    (small : ∀ fpn ∈ mem.mram.freeFpList.nodes, fpn < 2 ^ 13)
    (maps : MapsUpTo (before.mm proc) bound)
    (grabs : Grabs before proc fpn after) :
    Taking mem proc amount left (fpn :: frames) after := by
  have owned := taking.owned.grab maps
    (fun head first => small head (by
      rw [taking.free]
      exact List.mem_append_right _ (List.mem_of_mem_take first))) grabs
  have same := taking.same.trans (SameRam.of_grabs grabs)
  cases grabs with
  | taken fpn rest head =>
      refine ⟨same, taking.pgd, owned, ?_, ?_⟩
      · have count := taking.count
        rw [List.length_cons]
        omega
      · rw [taking.free, head]
        simp
  | evicted victim younger device slot mp full _ _ _ =>
      exact absurd full (taking.free_ne_nil enough)

omit [DecidableEq ι] in
theorem Taking.switch
    {amount : Nat}
    {frames : List Nat}
    {state : Mem ι}
    (taking : Taking mem proc amount 0 frames state) :
    Mapping mem proc amount ((mem.mm proc).mmap.vmEnd / 256) frames state where
  same := taking.same
  owned := taking.owned
  free := by
    have count := taking.count
    rw [taking.free, List.drop_left' (by rw [List.length_reverse]; omega)]
  fromFree := by
    intro fpn member
    rw [taking.free]
    exact List.mem_append_left _ (List.mem_reverse.mpr member)
  position := Nat.le_refl _
  older := fun pgn _ => by rw [taking.pgd]
  newer := fun pgn atLeast below => absurd atLeast (Nat.not_le_of_lt below)

theorem Mapping.map
    {amount fpn : Nat}
    {pgn : Pgn}
    {frames : List Nat}
    {state : Mem ι}
    (mapping : Mapping mem proc amount pgn.val (fpn :: frames) state) :
    Mapping mem proc amount (pgn.val + 1) frames
      (state.setMm proc ((state.mm proc).mapPage pgn fpn)) where
  same := mapping.same.trans (SameRam.setMm proc state _)
  owned := mapping.owned.mapPage proc pgn
  free := mapping.free
  fromFree := fun other member => mapping.fromFree other (List.mem_cons_of_mem _ member)
  position := Nat.le_succ_of_le mapping.position
  older := by
    intro page below
    have different : page ≠ pgn := by
      rintro rfl
      exact Nat.not_le_of_lt below mapping.position
    rw [Mem.mm_setMm_self, Mm.mapPage, Mm.enlistPgnNode_pgd, Mm.setPte_pgd_of_ne _ _ different]
    exact mapping.older page below
  newer := by
    intro page atLeast below
    rw [Mem.mm_setMm_self, Mm.mapPage, Mm.enlistPgnNode_pgd]
    by_cases isPage : page = pgn
    · subst isPage
      have cut : fpn % 2 ^ 13 = fpn := Nat.mod_eq_of_lt (mapping.owned.small fpn (by simp))
      refine ⟨fpn, mapping.fromFree fpn (by simp), ?_⟩
      rw [Mm.setPte_pgd_self, onlineFrame_pteSetFpn, cut]
    · rw [Mm.setPte_pgd_of_ne _ _ isPage]
      refine mapping.newer page atLeast ?_
      have : page.val ≠ pgn.val := fun same => isPage (Fin.ext same)
      omega

/-- A growth for which there are enough free frames takes the first of them. -/
theorem mapping_of_grows
    (paged : ∀ proc, Paged (mem.mm proc))
    (owned : RamOwned mem [])
    (small : ∀ fpn ∈ mem.mram.freeFpList.nodes, fpn < 2 ^ 13)
    (fits : FitsIn (mem.mm proc) pages)
    (enough : pages.toNat ≤ mem.mram.freeFpList.nodes.length)
    (grows : Grows mem proc pages mem') :
    (∀ other, Paged (mem'.mm other)) ∧
      (mem'.mm proc).mmap.vmEnd = (mem.mm proc).mmap.vmEnd + pages.toNat * 256 ∧
      Mapping mem proc pages.toNat ((mem.mm proc).mmap.vmEnd / 256 + pages.toNat) [] mem' := by
  obtain ⟨stillPaged, vmEnd, mapped | ⟨_, _, before, taking, givesUp⟩⟩ :=
    Grows.rule (Taking mem proc pages.toNat) (Mapping mem proc pages.toNat) paged fits
      { same := SameRam.setMm proc mem _
        pgd := by
          rw [Mem.mm_setMm_self]
          rfl
        owned := owned.congr (Mem.pgd_setMm_congr rfl) rfl
        count := Nat.zero_add _
        free := rfl }
      (fun _ _ _ _ _ taking maps grabs => taking.grab enough small maps grabs)
      (fun _ _ taking => taking.switch)
      (fun _ _ _ _ mapping _ => mapping.map)
      grows
  · exact ⟨stillPaged, vmEnd, mapped⟩
  · exact absurd givesUp.full (taking.free_ne_nil enough)

/-! ## The invariant -/

/-- Every page below the limit of its area is in a frame of the RAM, and the free
frames are blank. -/
structure Backed (mem : Mem ι) : Prop where
  paged : ∀ proc, Paged (mem.mm proc)
  owned : RamOwned mem []
  random : mem.mram.rdmflg = true
  small : mem.mram.maxsz / 256 ≤ 2 ^ 13
  online : ∀ proc (pgn : Pgn), pgn.val < (mem.mm proc).mmap.vmEnd / 256 →
    ∃ fpn < mem.mram.maxsz / 256, onlineFrame ((mem.mm proc).pgd pgn) = some fpn
  free : ∀ fpn ∈ mem.mram.freeFpList.nodes, fpn < mem.mram.maxsz / 256
  blank : ∀ fpn ∈ mem.mram.freeFpList.nodes, ∀ offst < 256,
    mem.mram.storage (pagingPhyaddr fpn offst) = 0
  room : ∀ proc, (mem.mm proc).mmap.vmEnd / 256 + mem.mram.freeFpList.nodes.length ≤
    mem.mram.maxsz / 256

/-- The RAM holds the arrays of the log. -/
structure Stores (mem : Mem ι) (writes : List ((ι × Nat) × Byte)) : Prop where
  held : ∀ proc (addr : Nat), addr < (mem.mm proc).mmap.vmEnd →
    mem.mram.storage (mem.cell proc addr) = lastWritten 0 writes (proc, addr)
  unwritten : ∀ proc (addr : Nat), (mem.mm proc).mmap.vmEnd ≤ addr →
    lastWritten 0 writes (proc, addr) = 0

omit [DecidableEq ι] in
/-- The page of an address below the limit. -/
theorem Backed.pgn
    (backed : Backed mem)
    {addr : Nat}
    (below : addr < (mem.mm proc).mmap.vmEnd) :
    (pagingPgn (addr : Int)).val = addr / 256 ∧ addr / 256 < (mem.mm proc).mmap.vmEnd / 256 := by
  obtain ⟨_, aligned, inSpace, _⟩ := backed.paged proc
  rw [pagingPgn_natCast_val]
  omega

omit [DecidableEq ι] in
/-- An address below the limit is decoded to a cell of the frame of its page. -/
theorem Backed.cell
    (backed : Backed mem)
    {addr : Nat}
    (below : addr < (mem.mm proc).mmap.vmEnd) :
    ∃ fpn < mem.mram.maxsz / 256,
      onlineFrame ((mem.mm proc).pgd (pagingPgn (addr : Int))) = some fpn ∧
        mem.cell proc addr = pagingPhyaddr fpn (addr % 256) := by
  obtain ⟨pgnIs, inArea⟩ := backed.pgn below
  obtain ⟨fpn, inRam, online⟩ := backed.online proc _ (pgnIs ▸ inArea)
  refine ⟨fpn, inRam, online, ?_⟩
  rw [Mem.cell, (onlineFrame_eq_some_iff.mp online).2.2, pagingOffst_natCast]

omit [DecidableEq ι] in
/-- The translation of addresses is injective across the processes. -/
theorem Backed.cell_injective
    (backed : Backed mem)
    {other : ι}
    {addr addr' : Nat}
    (below : addr < (mem.mm proc).mmap.vmEnd)
    (below' : addr' < (mem.mm other).mmap.vmEnd)
    (same : mem.cell proc addr = mem.cell other addr') :
    (proc, addr) = (other, addr') := by
  obtain ⟨fpn, _, online, cellIs⟩ := backed.cell below
  obtain ⟨fpn', _, online', cellIs'⟩ := backed.cell below'
  rw [cellIs, cellIs'] at same
  obtain ⟨rfl, sameOffst⟩ := pagingPhyaddr_injective (Nat.mod_lt _ (by decide))
    (Nat.mod_lt _ (by decide)) same
  have samePage := backed.owned.exclusive.injective (proc, _) (other, _) fpn online online'
  have sameProc : proc = other := congrArg Prod.fst samePage
  have samePgn : pagingPgn (addr : Int) = pagingPgn (addr' : Int) := congrArg Prod.snd samePage
  have pgnIs := (backed.pgn below).1
  have pgnIs' := (backed.pgn below').1
  rw [samePgn] at pgnIs
  rw [Prod.mk.injEq]
  exact ⟨sameProc, by omega⟩

/-! ## Steps -/

/-- A growth for which there are enough free frames. -/
theorem Backed.grow
    (backed : Backed mem)
    (nonneg : 0 ≤ pages)
    (enough : pages.toNat ≤ mem.mram.freeFpList.nodes.length)
    (grows : Grows mem proc pages mem') :
    Backed mem' ∧ (mem'.mm proc).mmap.vmEnd = (mem.mm proc).mmap.vmEnd + pages.toNat * 256 ∧
      Mapping mem proc pages.toNat ((mem.mm proc).mmap.vmEnd / 256 + pages.toNat) [] mem' := by
  obtain ⟨paged, owned, random, small, online, free, blank, room⟩ := backed
  obtain ⟨_, aligned, _, sbrk⟩ := paged proc
  have fits : FitsIn (mem.mm proc) pages := by
    have roomHere := room proc
    exact ⟨nonneg, by omega⟩
  obtain ⟨stillPaged, vmEnd, mapping⟩ := mapping_of_grows paged owned
    (fun fpn spare => Nat.lt_of_lt_of_le (free fpn spare) small) fits enough grows
  have fewer : ∀ fpn ∈ mem'.mram.freeFpList.nodes, fpn ∈ mem.mram.freeFpList.nodes := by
    intro fpn spare
    rw [mapping.free] at spare
    exact List.mem_of_mem_drop spare
  have length : mem'.mram.freeFpList.nodes.length =
      mem.mram.freeFpList.nodes.length - pages.toNat := by
    rw [mapping.free, List.length_drop]
  refine ⟨?_, vmEnd, mapping⟩
  constructor
  case paged => exact stillPaged
  case owned => exact mapping.owned
  case random => exact mapping.same.rdmflg.trans random
  case small =>
    rw [mapping.same.maxsz]
    exact small
  case online =>
    intro other pgn below
    rw [mapping.same.maxsz]
    by_cases isCaller : other = proc
    · subst isCaller
      rw [vmEnd, Nat.add_mul_div_right _ _ (by decide)] at below
      by_cases older : pgn.val < (mem.mm other).mmap.vmEnd / 256
      · rw [mapping.older pgn older]
        exact online other pgn older
      · obtain ⟨fpn, spare, mapped⟩ := mapping.newer pgn (Nat.le_of_not_lt older) below
        exact ⟨fpn, free fpn spare, mapped⟩
    · rw [mapping.same.others other isCaller] at below ⊢
      exact online other pgn below
  case free =>
    intro fpn spare
    rw [mapping.same.maxsz]
    exact free fpn (fewer fpn spare)
  case blank =>
    intro fpn spare
    rw [mapping.same.storage]
    exact blank fpn (fewer fpn spare)
  case room =>
    intro other
    rw [length, mapping.same.maxsz]
    by_cases isCaller : other = proc
    · subst isCaller
      have roomHere := room other
      omega
    · have roomHere := room other
      rw [mapping.same.others other isCaller]
      omega

/-- The new pages of a growth are blank. -/
theorem Stores.grow
    {writes : List ((ι × Nat) × Byte)}
    (backed : Backed mem)
    (stores : Stores mem writes)
    (nonneg : 0 ≤ pages)
    (enough : pages.toNat ≤ mem.mram.freeFpList.nodes.length)
    (grows : Grows mem proc pages mem') :
    Stores mem' writes := by
  obtain ⟨backed', vmEnd, mapping⟩ := backed.grow nonneg enough grows
  constructor
  · intro other addr below
    rw [mapping.same.storage]
    by_cases isCaller : other = proc
    · subst isCaller
      obtain ⟨pgnIs, inArea⟩ := backed'.pgn below
      rw [vmEnd, Nat.add_mul_div_right _ _ (by decide)] at inArea
      by_cases older : addr / 256 < (mem.mm other).mmap.vmEnd / 256
      · have sameCell : mem'.cell other addr = mem.cell other addr := by
          rw [Mem.cell, Mem.cell, mapping.older _ (pgnIs.symm ▸ older)]
        rw [sameCell]
        exact stores.held other addr (by omega)
      · obtain ⟨fpn, spare, mapped⟩ := mapping.newer (pagingPgn (addr : Int)) (by omega)
          (by omega)
        rw [Mem.cell, (onlineFrame_eq_some_iff.mp mapped).2.2,
          backed.blank fpn spare _ (pagingOffst_lt _)]
        have aligned := (backed.paged other).aligned
        exact (stores.unwritten other addr (by omega)).symm
    · rw [mapping.same.others other isCaller] at below
      rw [Mem.cell, mapping.same.others other isCaller]
      exact stores.held other addr below
  · intro other addr beyond
    apply stores.unwritten other addr
    by_cases isCaller : other = proc
    · subst isCaller
      omega
    · rw [mapping.same.others other isCaller] at beyond
      exact beyond

/-- Changes that are not about pages. -/
theorem Backed.quiet
    {mm : Mm}
    (backed : Backed mem)
    (same : SamePages (mem.mm proc) mm) :
    Backed (mem.setMm proc mm) := by
  have pgd := Mem.pgd_setMm_congr same.pgd
  have vmEnd := Mem.vmEnd_setMm_congr same.vmEnd
  constructor
  case paged => exact paged_quiet backed.paged same
  case owned => exact backed.owned.congr pgd rfl
  case random => exact backed.random
  case small => exact backed.small
  case online =>
    intro other pgn below
    rw [vmEnd] at below
    rw [pgd]
    exact backed.online other pgn below
  case free => exact backed.free
  case blank => exact backed.blank
  case room =>
    intro other
    rw [vmEnd]
    exact backed.room other

theorem Stores.quiet
    {mm : Mm}
    {writes : List ((ι × Nat) × Byte)}
    (stores : Stores mem writes)
    (same : SamePages (mem.mm proc) mm) :
    Stores (mem.setMm proc mm) writes := by
  have pgd := Mem.pgd_setMm_congr same.pgd
  have vmEnd := Mem.vmEnd_setMm_congr same.vmEnd
  constructor
  · intro other addr below
    rw [vmEnd] at below
    rw [Mem.cell, pgd]
    exact stores.held other addr below
  · intro other addr beyond
    rw [vmEnd] at beyond
    exact stores.unwritten other addr beyond

omit [DecidableEq ι] in
/-- A `WRITE` stores the byte in the cell of its address. -/
theorem Backed.write
    {addr : Nat}
    {data : Byte}
    {mram : Memphy}
    (backed : Backed mem)
    (below : addr < (mem.mm proc).mmap.vmEnd)
    (written : memphyWrite mem.mram (mem.cell proc addr) data = some mram) :
    Backed (mem.setMram mram) ∧
      mram.storage = Function.update mem.mram.storage (mem.cell proc addr) data := by
  obtain ⟨onlyStorage, ⟨_, _, updated⟩ | ⟨sequential, _⟩⟩ := memphyWrite_cases written
  · refine ⟨?_, updated⟩
    have sameFree : mram.freeFpList = mem.mram.freeFpList := by rw [onlyStorage]
    have sameMaxsz : mram.maxsz = mem.mram.maxsz := by rw [onlyStorage]
    have sameRdmflg : mram.rdmflg = mem.mram.rdmflg := by rw [onlyStorage]
    constructor
    case paged => exact backed.paged
    case owned => exact backed.owned.congr (fun _ => rfl) sameFree
    case random => exact sameRdmflg.trans backed.random
    case small =>
      rw [Mem.mram_setMram, sameMaxsz]
      exact backed.small
    case online =>
      rw [Mem.mram_setMram, sameMaxsz]
      exact backed.online
    case free =>
      rw [Mem.mram_setMram, sameMaxsz, sameFree]
      exact backed.free
    case blank =>
      rw [Mem.mram_setMram, sameFree, updated]
      intro fpn spare offst inPage
      obtain ⟨held, _, online, cellIs⟩ := backed.cell below
      have notHit : pagingPhyaddr fpn offst ≠ mem.cell proc addr := by
        intro hit
        rw [cellIs] at hit
        obtain ⟨rfl, _⟩ := pagingPhyaddr_injective inPage (Nat.mod_lt _ (by decide)) hit
        exact backed.owned.exclusive.notSpare (proc, _) fpn online
          (List.mem_append_left _ spare)
      rw [Function.update_of_ne notHit]
      exact backed.blank fpn spare offst inPage
    case room =>
      rw [Mem.mram_setMram, sameMaxsz, sameFree]
      exact backed.room
  · exact absurd (sequential.symm.trans backed.random) (by decide)

/-- Storing a byte updates one array at one address. -/
theorem Stores.write
    {writes : List ((ι × Nat) × Byte)}
    {addr : Nat}
    {data : Byte}
    {mram : Memphy}
    (backed : Backed mem)
    (stores : Stores mem writes)
    (below : addr < (mem.mm proc).mmap.vmEnd)
    (updated : mram.storage = Function.update mem.mram.storage (mem.cell proc addr) data) :
    Stores (mem.setMram mram) (((proc, addr), data) :: writes) := by
  constructor
  · intro other addr' below'
    change mram.storage (mem.cell other addr') = _
    rw [updated, lastWritten_cons]
    by_cases same : (other, addr') = (proc, addr)
    · obtain ⟨rfl, rfl⟩ := Prod.mk.inj same
      rw [Function.update_self, Function.update_self]
    · have different : mem.cell other addr' ≠ mem.cell proc addr :=
        fun hit => same (backed.cell_injective below' below hit)
      rw [Function.update_of_ne different, Function.update_of_ne same]
      exact stores.held other addr' below'
  · intro other addr' beyond
    have different : (other, addr') ≠ (proc, addr) := by
      intro same
      obtain ⟨rfl, rfl⟩ := Prod.mk.inj same
      exact Nat.not_le_of_lt below beyond
    rw [lastWritten_cons, Function.update_of_ne different]
    exact stores.unwritten other addr' beyond

/-! ## Runs -/

/-- The invariant between two instructions. -/
structure Valid (state : State ι) : Prop where
  backed : Backed state.mem
  stores : Stores state.mem state.writes

variable {state next first last : State ι}

omit [DecidableEq ι] in
/-- The conversions of an address below the limit change nothing. -/
theorem Backed.accessAddr_eq
    {region : Region}
    {offset : Int}
    (backed : Backed mem)
    (below : toULong (region.rgStart + offset) < (mem.mm proc).mmap.vmEnd) :
    accessAddr region offset = (toULong (region.rgStart + offset) : Int) := by
  have inSpace := (backed.paged proc).inSpace
  rw [accessAddr, toInt_of_mem (by omega) (by omega)]

theorem valid_of_start
    (start : Start first) :
    Valid first := by
  obtain ⟨⟨maxSize, small, ram⟩, area, nothing⟩ := start
  have noPages : ∀ proc, NoPages (first.mem.mm proc) := by
    intro proc
    obtain ⟨mm, fresh, absent, empty⟩ := area proc
    rw [fresh]
    exact noPages_initMm absent empty
  have vmEnd : ∀ proc, (first.mem.mm proc).mmap.vmEnd = 0 := by
    intro proc
    obtain ⟨mm, fresh, _, _⟩ := area proc
    rw [fresh]
    rfl
  have unused : Unused first.mem.mram := ram ▸ unused_initMemphy maxSize true
  have maxsz : first.mem.mram.maxsz = maxSize := by
    rw [ram, initMemphy_maxsz]
  constructor
  case backed =>
    constructor
    case paged => exact fun proc => (noPages proc).paged
    case owned => exact RamOwned.of_noPages noPages unused.nodup
    case random => rw [ram, initMemphy_rdmflg]
    case small =>
      rw [maxsz]
      exact small
    case online =>
      intro proc pgn below
      rw [vmEnd] at below
      exact absurd below (Nat.not_lt_zero _)
    case free => exact fun fpn spare => unused.lt spare
    case blank =>
      intro fpn _ offst _
      rw [ram, initMemphy_storage]
    case room =>
      intro proc
      have length := unused.length_eq
      rw [List.length_range] at length
      rw [vmEnd, length]
      exact Nat.le_of_eq (Nat.zero_add _)
  case stores =>
    rw [nothing]
    constructor
    · intro proc addr below
      rw [vmEnd] at below
      exact absurd below (Nat.not_lt_zero _)
    · exact fun _ _ _ => rfl

omit [DecidableEq ι] in
theorem address_of_slot
    (mm : Mm)
    {rgid : Nat}
    (offset : Nat)
    {index : Fin 30}
    (slot : toInt rgid = index.val) :
    address mm rgid offset =
      some (toULong ((mm.symrgtbl index).rgStart + toInt offset)) := by
  rw [address, symrgIndex_eq_some_iff.mpr slot, Option.map_some]

omit [DecidableEq ι] in
/-- The entry of the symbol table and the address of a permitted access. -/
theorem Backed.access
    {rgid offset : Nat}
    (backed : Backed mem)
    (below : AccessBelowEnd (mem.mm proc) rgid offset) :
    ∃ index : Fin 30, toInt rgid = index.val ∧ ∃ addr : Nat,
      address (mem.mm proc) rgid offset = some addr ∧ addr < (mem.mm proc).mmap.vmEnd ∧
        accessAddr ((mem.mm proc).symrgtbl index) (toInt offset) = (addr : Int) := by
  obtain ⟨inTable, inArea⟩ := below
  have slot : toInt rgid = ((⟨rgid, inTable⟩ : Fin 30).val : Int) :=
    toInt_of_mem (by omega) (by omega)
  have found := address_of_slot (mem.mm proc) offset slot
  have inAreaHere := inArea _ found
  exact ⟨_, slot, _, found, inAreaHere, backed.accessAddr_eq inAreaHere⟩

/-- A permitted instruction keeps the invariant. -/
theorem valid_step
    {event : Event ι}
    (valid : Valid state)
    (permitted : Permitted state event)
    (taken : step state event = some next) :
    Valid next := by
  obtain ⟨proc, inst⟩ := event
  obtain ⟨backed, stores⟩ := valid
  unfold step at taken
  split at taken
  · cases taken
  rename_i after ran
  simp only [Option.some.injEq] at taken
  subst taken
  cases inst with
  | alloc size regIndex =>
      obtain ⟨atLeast, atMost, _, enough⟩ := permitted
      obtain ⟨middle, mm, rfl, same, rfl | ⟨pages, growing, grows⟩⟩ := run_alloc_pages ran
      · exact ⟨backed.quiet same, stores.quiet same⟩
      · have sizeIs : toInt (size : Int) = size := toInt_of_mem (by omega) (by omega)
        have nonneg : 0 ≤ pages := by
          rw [(growth_bounds growing).1, sizeIs]
          exact Int.tdiv_nonneg (by omega) (by decide)
        have room : pages.toNat ≤ state.mem.mram.freeFpList.nodes.length := by
          have := enough pages growing
          omega
        exact ⟨(backed.grow nonneg room grows).1.quiet same,
          (stores.grow backed nonneg room grows).quiet same⟩
  | free regIndex =>
      obtain ⟨mm, rfl, same⟩ := run_free_pages ran
      exact ⟨backed.quiet same, stores.quiet same⟩
  | read source offset =>
      obtain ⟨index, slot, addr, _, below, addrIs⟩ := backed.access permitted
      rcases run_read_cases ran with ⟨_, rfl⟩ | ⟨index', slot', rc, byte, got⟩
      · exact ⟨backed, stores⟩
      · obtain rfl : index' = index := Fin.ext (by omega)
        obtain ⟨_, _, online, _⟩ := backed.cell below
        rw [addrIs] at got
        have same := (cell_of_pgGetval (onlineFrame_eq_some_iff.mp online).1 got).1
        subst same
        exact ⟨backed, stores⟩
  | write data destination offset =>
      obtain ⟨index, slot, addr, found, below, addrIs⟩ := backed.access permitted
      have recorded : record state ⟨proc, .write data destination offset⟩ =
          ((proc, addr), data) :: state.writes := by
        simp only [record, found, Option.elim_some]
      rcases run_write_cases ran with ⟨invalid, _⟩ | ⟨index', slot', rc, set⟩
      · have := index.isLt
        omega
      · obtain rfl : index' = index := Fin.ext (by omega)
        rw [addrIs] at set
        obtain ⟨fpn, middle, mram, page, written, _, rfl⟩ := pgSetval_cases set
        obtain ⟨_, _, online, _⟩ := backed.cell below
        rw [pgGetpage_of_present (onlineFrame_eq_some_iff.mp online).1] at page
        cases page
        obtain ⟨stillBacked, updated⟩ := backed.write below written
        rw [recorded]
        exact ⟨stillBacked, stores.write backed below updated⟩

/-- A `READ` below the limit returns the byte of the array. -/
theorem read_of_valid
    {source offset : Nat}
    (valid : Valid state)
    (below : AccessBelowEnd (state.mem.mm proc) source offset) :
    ∃ addr, address (state.mem.mm proc) source offset = some addr ∧
      libread state.mem proc source offset =
        some ((lastWritten 0 state.writes (proc, addr)).toInt, state.mem,
          some (lastWritten 0 state.writes (proc, addr))) := by
  obtain ⟨backed, stores⟩ := valid
  obtain ⟨index, slot, addr, found, inArea, addrIs⟩ := backed.access below
  refine ⟨addr, found, ?_⟩
  obtain ⟨fpn, inRam, online, cellIs⟩ := backed.cell inArea
  have stored : memphyRead state.mem.mram (state.mem.cell proc addr) =
      some (lastWritten 0 state.writes (proc, addr)) := by
    rw [memphyRead_eq_some_iff]
    refine ⟨backed.random, ?_, stores.held proc addr inArea⟩
    rw [cellIs, pagingPhyaddr_eq]
    omega
  have got := pgGetval_of_present (onlineFrame_eq_some_iff.mp online).1 stored
  rw [← addrIs] at got
  exact libread_of_pgGetval slot got

/-- Along every interleaving in which no `ALLOC` runs out of free frames and every
access is below the limit, a `READ` returns the byte that the same process wrote
last at the same address, or 0 if there is none. -/
theorem read_returns_lastWritten
    {source offset : Nat}
    (start : Start first)
    (run : Run step Permitted first last)
    (permitted : Permitted last ⟨proc, .read source offset⟩) :
    ∃ addr, address (last.mem.mm proc) source offset = some addr ∧
      libread last.mem proc source offset =
        some ((lastWritten 0 last.writes (proc, addr)).toInt, last.mem,
          some (lastWritten 0 last.writes (proc, addr))) :=
  read_of_valid
    (run.invariant Valid (fun _ _ _ valid permitted taken => valid_step valid permitted taken)
      (valid_of_start start))
    permitted

/-- Two processes and a RAM of four frames. -/
def fourFrames : State (Fin 2) where
  mem :=
    { mram := initMemphy 1024 true
      mswp := fun _ => initMemphy 1024 true
      pcb := fun _ => Pcb.fresh }
  writes := []

theorem fourFrames_start : Start fourFrames where
  ram := ⟨1024, by decide, rfl⟩
  area := fun _ => ⟨_, rfl, fun _ => show pagingPagePresent 0 = false by decide, rfl⟩
  nothing := rfl

/-- Both processes write at the address 256, and the first reads there. -/
theorem read_returns_lastWritten_interleaved :
    ∃ last, replay step fourFrames
        [⟨0, .alloc 300 0⟩, ⟨1, .alloc 400 2⟩, ⟨0, .write (-7) 0 256⟩, ⟨1, .write 9 2 256⟩] =
          some last ∧
      ∃ addr, address (last.mem.mm 0) 0 256 = some addr ∧
        libread last.mem 0 0 256 =
          some ((lastWritten 0 last.writes (0, addr)).toInt, last.mem,
            some (lastWritten 0 last.writes (0, addr))) := by
  obtain ⟨last, reaches, permitted⟩ := exists_of_evaluated
    (show (replay step fourFrames
      [⟨0, .alloc 300 0⟩, ⟨1, .alloc 400 2⟩, ⟨0, .write (-7) 0 256⟩,
        ⟨1, .write 9 2 256⟩]).map
        (fun last => decide (Permitted last ⟨0, .read 0 256⟩)) = some true by decide +kernel)
  exact ⟨last, reaches, read_returns_lastWritten fourFrames_start
    (Run.of_replay _ _ (by decide +kernel) reaches) permitted⟩

end Refinement

end Memory
end Ossim
