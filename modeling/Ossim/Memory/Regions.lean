import Ossim.Library.Blocks
import Ossim.Library.Transition
import Ossim.Memory.Access
import Mathlib.Order.Interval.Set.Basic

/-!
# When live regions overlap

The regions of a process come from its free list, by first fit, and from the
growth of its area.  The growth, and the rest of it that goes on the free list,
use `rg_end` for the first byte after a region.  `get_free_vmrg_area` takes it
for the last byte, so a region that fits a free one exactly, in its sense,
includes one byte more than the free region has.  This byte may belong to a live
region or be given out once more.
-/

namespace Ossim
namespace Memory

open CInt Transition

/-! ## What leaves the regions alone -/

section Frame

variable {ι : Type} {mem mem' : Mem ι} {caller : ι}

/-- The address spaces of the others, and the area and the symbol table of the
caller, are the same. -/
structure SameRegions (caller : ι) (mem mem' : Mem ι) : Prop where
  others : ∀ other, other ≠ caller → mem'.mm other = mem.mm other
  mmap : (mem'.mm caller).mmap = (mem.mm caller).mmap
  symrgtbl : (mem'.mm caller).symrgtbl = (mem.mm caller).symrgtbl

namespace SameRegions

theorem refl (caller : ι) (mem : Mem ι) : SameRegions caller mem mem :=
  ⟨fun _ _ => rfl, rfl, rfl⟩

theorem trans
    {middle : Mem ι}
    (first : SameRegions caller mem middle)
    (second : SameRegions caller middle mem') :
    SameRegions caller mem mem' where
  others := fun other different =>
    (second.others other different).trans (first.others other different)
  mmap := second.mmap.trans first.mmap
  symrgtbl := second.symrgtbl.trans first.symrgtbl

variable [DecidableEq ι]

theorem setMm
    {mm : Mm}
    (mmap : mm.mmap = (mem.mm caller).mmap)
    (symrgtbl : mm.symrgtbl = (mem.mm caller).symrgtbl) :
    SameRegions caller mem (mem.setMm caller mm) where
  others := fun _ different => Mem.mm_setMm_of_ne _ _ different
  mmap := by rw [Mem.mm_setMm_self, mmap]
  symrgtbl := by rw [Mem.mm_setMm_self, symrgtbl]

theorem of_grabs
    {fpn : Nat}
    (grabs : Grabs mem caller fpn mem') :
    SameRegions caller mem mem' := by
  cases grabs with
  | taken fpn rest _ => exact ⟨fun _ _ => rfl, rfl, rfl⟩
  | evicted victim younger device slot mp _ _ _ _ =>
      refine ⟨?_, by simp, by simp⟩
      intro other different
      rw [Mem.mm_setMm_of_ne _ _ different, Mem.mm_setMswp]

theorem of_givesUp
    (givesUp : GivesUp mem caller mem') :
    SameRegions caller mem mem' := by
  cases givesUp with
  | noVictim _ _ => exact refl _ _
  | noSlot victim younger _ _ => exact setMm rfl rfl

theorem of_pageIn
    {pgn : Pgn}
    {vicfpn : Nat}
    (pageIn : PageIn mem caller pgn vicfpn mem') :
    SameRegions caller mem mem' := by
  cases pageIn with
  | replaced victim younger slot mp _ _ _ =>
      refine ⟨?_, by simp, by simp⟩
      intro other different
      rw [Mem.mm_setMm_of_ne _ _ different, Mem.mm_setMswp]

theorem of_pgGetpage
    {pgn : Pgn}
    {rc : Int}
    {fpn : Option Nat}
    (accessed : pgGetpage mem caller pgn = some (rc, mem', fpn)) :
    SameRegions caller mem mem' := by
  rcases (pgGetpage_cases accessed).2 with ⟨_, rfl, _⟩ | ⟨_, vicfpn, pageIn, _⟩
  · exact refl _ _
  · exact of_pageIn pageIn

end SameRegions

variable [DecidableEq ι]

/-- `vm_map_ram` changes no region, whatever its outcome. -/
theorem vmMapRam_regions
    {mapstart incpgnum rc : Int}
    (mapped : vmMapRam mem caller mapstart incpgnum = some (rc, mem')) :
    SameRegions caller mem mem' := by
  have outcome := vmMapRam_each (fun _ _ state => SameRegions caller mem state)
    (fun _ _ state => SameRegions caller mem state) ?grab ?switch ?map
    (SameRegions.refl caller mem) mapped
  case grab => exact fun _ _ _ _ _ before grabs => before.trans (SameRegions.of_grabs grabs)
  case switch => exact fun _ _ _ gathered => gathered
  case map => exact fun _ _ _ _ before => before.trans (SameRegions.setMm rfl rfl)
  rcases outcome with ⟨_, ended⟩ | ⟨_, _, _, before, gathered, givesUp⟩
  · exact ended
  · exact gathered.trans (SameRegions.of_givesUp givesUp)

/-- A growth sets the limits and changes no region. -/
theorem Grows.regions
    {pages : Int}
    (grows : Grows mem caller pages mem') :
    SameRegions caller
      (mem.setMm caller ((mem.mm caller).setLimits (grownEnd (mem.mm caller) pages)
        (grownEnd (mem.mm caller) pages))) mem' := by
  obtain ⟨rc, mapped⟩ := grows
  exact vmMapRam_regions mapped

/-- A `READ` or `WRITE` changes no region. -/
theorem run_read_regions
    {source offset : Nat}
    (ran : run mem caller (.read source offset) = some mem') :
    SameRegions caller mem mem' := by
  rcases run_read_cases ran with ⟨_, rfl⟩ | ⟨index, _, rc, byte, got⟩
  · exact SameRegions.refl _ _
  · obtain ⟨fpn, _, page, _, _, _⟩ := pgGetval_cases got
    exact SameRegions.of_pgGetpage page

theorem run_write_regions
    {data : Byte}
    {destination offset : Nat}
    (ran : run mem caller (.write data destination offset) = some mem') :
    SameRegions caller mem mem' := by
  rcases run_write_cases ran with ⟨_, rfl⟩ | ⟨index, _, rc, set⟩
  · exact SameRegions.refl _ _
  · obtain ⟨fpn, middle, mram, page, _, _, rfl⟩ := pgSetval_cases set
    obtain ⟨others, mmap, symrgtbl⟩ := SameRegions.of_pgGetpage page
    exact ⟨others, mmap, symrgtbl⟩

/-- An instruction changes no address space but that of its process. -/
theorem run_others
    {inst : Inst}
    (ran : run mem caller inst = some mem')
    {other : ι}
    (different : other ≠ caller) :
    mem'.mm other = mem.mm other := by
  cases inst with
  | alloc size regIndex =>
      obtain ⟨middle, mm, rfl, _, rfl | ⟨pages, _, grows⟩⟩ := run_alloc_pages ran
      · rw [Mem.mm_setMm_of_ne _ _ different]
      · rw [Mem.mm_setMm_of_ne _ _ different, grows.regions.others other different,
          Mem.mm_setMm_of_ne _ _ different]
  | free regIndex =>
      obtain ⟨mm, rfl, _⟩ := run_free_pages ran
      rw [Mem.mm_setMm_of_ne _ _ different]
  | read source offset => exact (run_read_regions ran).others other different
  | write data destination offset => exact (run_write_regions ran).others other different

end Frame

namespace Regions

/-! ## Live regions -/

/-- The bytes that an `ALLOC` asked for and where it got them. -/
structure Extent where
  addr : Nat
  size : Nat
  deriving DecidableEq

/-- The bytes `[addr, addr + size)`. -/
def Extent.bytes (extent : Extent) : Set Nat := Set.Ico extent.addr (extent.addr + extent.size)

instance decidableExtentBytes (extent : Extent) (byte : Nat) : Decidable (byte ∈ extent.bytes) :=
  inferInstanceAs (Decidable (byte ∈ Set.Ico _ _))

/-- The bytes of a listed region that are free for certain, without `rg_end`. -/
def core (rgit : Region) : Set Nat := Set.Ico rgit.rgStart rgit.rgEnd

instance decidableCore (rgit : Region) (byte : Nat) : Decidable (byte ∈ core rgit) :=
  inferInstanceAs (Decidable (byte ∈ Set.Ico _ _))

/-- The live regions of a process by their ids. -/
abbrev Live := Fin 30 → Option Extent

/-- The bytes of the region with an id. -/
def Live.bytes (live : Live) (index : Fin 30) : Set Nat := (live index).elim ∅ Extent.bytes

/-- The live regions of one process do not overlap. -/
def Separate (live : Live) : Prop :=
  ∀ index other first second, index ≠ other → live index = some first →
    live other = some second → Disjoint first.bytes second.bytes

/-- The memory, and the live regions of the process under consideration. -/
structure State (ι : Type) where
  mem : Mem ι
  live : Live

/-- What an instruction makes of the live regions, given the symbol table after
it. -/
def record (live : Live) (inst : Inst) (symrgtbl : Fin 30 → Region) : Live :=
  match inst with
  | .alloc size regIndex =>
      (symrgIndex (toInt regIndex)).elim live fun index =>
        Function.update live index (some ⟨(symrgtbl index).rgStart, (toInt size).toNat⟩)
  | .free regIndex =>
      (symrgIndex (toInt regIndex)).elim live fun index => Function.update live index none
  | _ => live

variable {ι : Type} [DecidableEq ι]

/-- An instruction of any process. -/
def step (self : ι) (state : State ι) (event : Event ι) : Option (State ι) :=
  match Memory.step state.mem event with
  | none => none
  | some mem =>
      some ⟨mem,
        if event.proc = self then
          record state.live event.inst (mem.mm self).symrgtbl
        else
          state.live⟩

/-- The process allocates for ids that hold no live region, and frees live ids. -/
def Permitted (self : ι) (state : State ι) (event : Event ι) : Prop :=
  event.proc = self →
    match event.inst with
    | .alloc size regIndex =>
        1 ≤ toInt size ∧ regIndex < 30 ∧
          ∀ index ∈ symrgIndex (toInt regIndex), state.live index = none
    | .free regIndex =>
        regIndex < 30 ∧ ∀ index ∈ symrgIndex (toInt regIndex), (state.live index).isSome
    | _ => True

/-- The region that `get_free_vmrg_area` finds. -/
def fitting (size : Int) (nodes : List Region) : Option Region :=
  nodes.find? fun rgit => toULong (rgit.rgEnd - rgit.rgStart + 1) ≥ toULong size

/-- A byte of the area that is in no live region and not free for certain. -/
def Spare (mm : Mm) (live : Live) (byte : Nat) : Prop :=
  byte < mm.mmap.vmEnd ∧ (∀ rgit ∈ mm.mmap.vmFreergList.nodes, byte ∉ core rgit) ∧
    ∀ index, ∀ extent ∈ live index, byte ∉ extent.bytes

instance decidableSpare (mm : Mm) (live : Live) (byte : Nat) :
    Decidable (Spare mm live byte) :=
  inferInstanceAs (Decidable (byte < mm.mmap.vmEnd ∧
    (∀ rgit ∈ mm.mmap.vmFreergList.nodes, byte ∉ core rgit) ∧
      ∀ index, ∀ extent ∈ live index, byte ∉ extent.bytes))

/-- The condition on an instruction and the state before it.  A free region of
which `rg_end` is used up has a spare byte there, and a growth is not refused. -/
def Safe (self : ι) (state : State ι) (event : Event ι) : Prop :=
  event.proc = self →
    match event.inst with
    | .alloc size _ =>
        let mm := state.mem.mm self
        (fitting (toInt size) mm.mmap.vmFreergList.nodes).elim
          ((growth mm (toInt size)).isSome = true) fun rgit =>
            rgit.rgStart + toInt size = rgit.rgEnd + 1 → Spare mm state.live rgit.rgEnd
    | _ => True

/-- A growth that is asked for succeeds, down to `vm_map_ram`. -/
def MapsRam (self : ι) (state : State ι) (event : Event ι) : Prop :=
  event.proc = self →
    match event.inst with
    | .alloc size _ =>
        (fitting (toInt size) (state.mem.mm self).mmap.vmFreergList.nodes).elim
          ((incVmaLimit state.mem self (toInt size)).map (·.1) = some 0) fun _ => True
    | _ => True

instance decidablePermitted (self : ι) (state : State ι) :
    ∀ event, Decidable (Permitted self state event)
  | ⟨proc, .alloc size regIndex⟩ =>
      inferInstanceAs (Decidable (proc = self → 1 ≤ toInt size ∧ regIndex < 30 ∧
        ∀ index ∈ symrgIndex (toInt regIndex), state.live index = none))
  | ⟨proc, .free regIndex⟩ =>
      inferInstanceAs (Decidable (proc = self → regIndex < 30 ∧
        ∀ index ∈ symrgIndex (toInt regIndex), (state.live index).isSome))
  | ⟨_, .read _ _⟩ => isTrue fun _ => trivial
  | ⟨_, .write _ _ _⟩ => isTrue fun _ => trivial

instance decidableElim
    {α : Type}
    (missed : Prop)
    [Decidable missed]
    (hit : α → Prop)
    [DecidablePred hit] :
    ∀ found : Option α, Decidable (found.elim missed hit)
  | none => inferInstanceAs (Decidable missed)
  | some value => inferInstanceAs (Decidable (hit value))

instance decidableSafe (self : ι) (state : State ι) :
    ∀ event, Decidable (Safe self state event)
  | ⟨proc, .alloc size _⟩ =>
      inferInstanceAs (Decidable (proc = self →
        (fitting (toInt size) (state.mem.mm self).mmap.vmFreergList.nodes).elim
          ((growth (state.mem.mm self) (toInt size)).isSome = true) fun rgit =>
            rgit.rgStart + toInt size = rgit.rgEnd + 1 →
              Spare (state.mem.mm self) state.live rgit.rgEnd))
  | ⟨_, .free _⟩ => isTrue fun _ => trivial
  | ⟨_, .read _ _⟩ => isTrue fun _ => trivial
  | ⟨_, .write _ _ _⟩ => isTrue fun _ => trivial

instance decidableMapsRam (self : ι) (state : State ι) :
    ∀ event, Decidable (MapsRam self state event)
  | ⟨proc, .alloc size _⟩ =>
      inferInstanceAs (Decidable (proc = self →
        (fitting (toInt size) (state.mem.mm self).mmap.vmFreergList.nodes).elim
          ((incVmaLimit state.mem self (toInt size)).map (·.1) = some 0) fun _ => True))
  | ⟨_, .free _⟩ => isTrue fun _ => trivial
  | ⟨_, .read _ _⟩ => isTrue fun _ => trivial
  | ⟨_, .write _ _ _⟩ => isTrue fun _ => trivial

/-- Before the first instruction. -/
structure Start (self : ι) (state : State ι) : Prop where
  area : ∃ mm, state.mem.mm self = initMm mm
  nothing : ∀ index, state.live index = none

/-! ## The free list -/

/-- What is left of a free region when bytes are taken from its start. -/
def leftOver (rgit : Region) (taken : Nat) : List Region :=
  if rgit.rgStart + taken ≤ rgit.rgEnd then [⟨rgit.rgStart + taken, rgit.rgEnd⟩] else []

theorem leftOver_sublist (before after : List Region) (rgit : Region) (taken : Nat) :
    (before ++ leftOver rgit taken ++ after).Sublist
      (before ++ ⟨rgit.rgStart + taken, rgit.rgEnd⟩ :: after) := by
  rw [List.append_assoc]
  apply List.Sublist.append_left
  unfold leftOver
  split
  · exact List.Sublist.refl _
  · exact List.sublist_cons_self _ _

/-- What first fit does to a list of regions inside an area. -/
theorem firstFit_cases
    {size : Int}
    {bound : Nat}
    {nodes left : List Region}
    {newrg : Region}
    (positive : 1 ≤ size)
    (small : size < 2 ^ 31)
    (inArea : bound < 2 ^ 62)
    (ordered : ∀ rgit ∈ nodes, rgit.rgStart ≤ rgit.rgEnd ∧ rgit.rgEnd ≤ bound)
    (fits : firstFit size nodes = some (newrg, left)) :
    ∃ before rgit after, nodes = before ++ rgit :: after ∧ fitting size nodes = some rgit ∧
      (∀ other ∈ before, other.rgEnd + 1 < other.rgStart + size) ∧
      rgit.rgStart + size ≤ rgit.rgEnd + 1 ∧
      newrg = ⟨rgit.rgStart, rgit.rgStart + size.toNat - 1⟩ ∧
      left = before ++ leftOver rgit size.toNat ++ after ∧
      ∀ rest ∈ left, rest.rgStart ≤ rest.rgEnd ∧ rest.rgEnd ≤ bound := by
  induction nodes generalizing left with
  | nil => cases fits
  | cons rgit nodes inductionHypothesis =>
      obtain ⟨start, finish⟩ := ordered rgit (List.mem_cons_self ..)
      have capacity : (toULong (rgit.rgEnd - rgit.rgStart + 1) : Int) =
          rgit.rgEnd - rgit.rgStart + 1 := toULong_of_mem (by omega) (by omega)
      have asked : (toULong size : Int) = size := toULong_of_mem (by omega) (by omega)
      have next : (toULong (rgit.rgStart + size) : Int) = rgit.rgStart + size :=
        toULong_of_mem (by omega) (by omega)
      have final : (toULong (rgit.rgStart + size - 1) : Int) = rgit.rgStart + size - 1 :=
        toULong_of_mem (by omega) (by omega)
      unfold firstFit at fits
      dsimp only at fits
      split at fits
      · rename_i enough
        have found : fitting size (rgit :: nodes) = some rgit := by
          rw [fitting, List.find?_cons_of_pos (by simpa using enough)]
        have newrgIs : (⟨rgit.rgStart, toULong (rgit.rgStart + size - 1)⟩ : Region) =
            ⟨rgit.rgStart, rgit.rgStart + size.toNat - 1⟩ := by
          rw [Region.mk.injEq]
          exact ⟨rfl, by omega⟩
        split at fits
        · cases fits
          refine ⟨[], rgit, nodes, rfl, found, by simp, by omega, newrgIs, ?_, ?_⟩
          · rw [leftOver, if_neg (by omega), List.nil_append, List.nil_append]
          · exact fun rest member => ordered rest (List.mem_cons_of_mem _ member)
        · rename_i remains
          cases fits
          have restIs : toULong (rgit.rgStart + size) = rgit.rgStart + size.toNat := by omega
          refine ⟨[], rgit, nodes, rfl, found, by simp, by omega, newrgIs, ?_, ?_⟩
          · rw [leftOver, if_pos (by omega), restIs, List.nil_append, List.singleton_append]
          · intro rest member
            rcases List.mem_cons.mp member with rfl | older
            · refine ⟨?_, finish⟩
              dsimp only
              omega
            · exact ordered rest (List.mem_cons_of_mem _ older)
      · rename_i tooSmall
        split at fits
        · cases fits
        · rename_i laterrg laterLeft later
          cases fits
          obtain ⟨before, chosen, after, rfl, found, skipped, bounds, newrgIs, leftIs,
            stillOrdered⟩ :=
            inductionHypothesis
              (fun other member => ordered other (List.mem_cons_of_mem _ member)) later
          refine ⟨rgit :: before, chosen, after, rfl, ?_, ?_, bounds, newrgIs, by simp [leftIs], ?_⟩
          · rw [fitting, List.find?_cons_of_neg (by simpa using tooSmall)]
            exact found
          · intro other member
            rcases List.mem_cons.mp member with rfl | later
            · omega
            · exact skipped other later
          · intro rest member
            rcases List.mem_cons.mp member with rfl | older
            · exact ⟨start, finish⟩
            · exact stillOrdered rest older

theorem firstFit_eq_none
    {size : Int}
    {nodes : List Region}
    (missed : firstFit size nodes = none) :
    fitting size nodes = none := by
  induction nodes with
  | nil => rfl
  | cons rgit nodes inductionHypothesis =>
      unfold firstFit at missed
      dsimp only at missed
      split at missed
      · split at missed <;> cases missed
      · rename_i tooSmall
        split at missed
        · rename_i later
          rw [fitting, List.find?_cons_of_neg (by simpa using tooSmall)]
          exact inductionHypothesis later
        · cases missed

theorem getFreeVmrgArea_missed
    {mm : Mm}
    {size : Int}
    (missed : getFreeVmrgArea mm size = some none) :
    fitting size mm.mmap.vmFreergList.nodes = none := by
  unfold getFreeVmrgArea at missed
  split at missed
  · cases missed
  · exact firstFit_eq_none ‹_›

/-! ## The limits -/

/-- A growth that is not refused stays below 2^31: from there on the first test
for an overlap fails. -/
theorem grownEnd_lt
    {mm : Mm}
    {size pages : Int}
    (vmStart : mm.mmap.vmStart = 0)
    (sbrk : mm.mmap.sbrk = mm.mmap.vmEnd)
    (aligned : 256 ∣ mm.mmap.vmEnd)
    (small : mm.mmap.vmEnd < 2 ^ 31)
    (positive : 1 ≤ size)
    (grows : growth mm size = some pages) :
    (grownEnd mm pages : Int) = mm.mmap.vmEnd + pages * 256 ∧ size ≤ pages * 256 ∧
      256 ∣ grownEnd mm pages ∧ grownEnd mm pages < 2 ^ 31 := by
  obtain ⟨count, _, below⟩ := growth_bounds grows
  rw [Int.tdiv_eq_ediv_of_nonneg (by omega)] at count
  have limit : (grownEnd mm pages : Int) = mm.mmap.vmEnd + pages * 256 := by
    rw [grownEnd, sbrk]
    exact toULong_of_mem (by omega) (by omega)
  refine ⟨limit, by omega, by omega, ?_⟩
  simp only [growth, Option.bind_eq_bind, Option.bind_eq_some_iff] at grows
  obtain ⟨found, _, continued⟩ := grows
  split at continued
  · cases continued
  simp only [Option.bind_eq_some_iff] at continued
  obtain ⟨incAmt, amount, overlap, validated, accepted⟩ := continued
  obtain ⟨_, _, rfl⟩ := pagingPageAlignsz_eq_some_iff.mp amount
  rw [Int.tdiv_eq_ediv_of_nonneg (by omega)] at validated
  have newEnd : toULong (mm.mmap.sbrk + (size + 255) / 256 * 256) = grownEnd mm pages := by
    rw [grownEnd, count]
  rw [newEnd] at validated
  by_contra tooLarge
  unfold validateOverlapVmArea at validated
  simp only [vmStart] at validated
  split at validated
  · simp only [Option.bind_eq_bind, Option.bind_eq_some_iff, checked_eq_some_iff] at validated
    obtain ⟨vmalast, ⟨isLast, inRange, _⟩, validated⟩ := validated
    have newWrapped : toInt (grownEnd mm pages) = grownEnd mm pages - 2 ^ 32 :=
      toInt_of_wrapped (by omega) (by omega)
    have oldEnd : toInt mm.mmap.sbrk = mm.mmap.vmEnd := by
      rw [sbrk]
      exact toInt_of_mem (by omega) (by omega)
    have product : (vmalast - (0 : Nat)) * ((mm.mmap.vmEnd : Int) - 1 - mm.mmap.vmEnd) =
        2 ^ 32 + 1 - grownEnd mm pages := by
      have one : (mm.mmap.vmEnd : Int) - 1 - mm.mmap.vmEnd = -1 := by omega
      rw [← isLast, newWrapped, one]
      omega
    rw [oldEnd, product, toInt_of_mem (by omega) (by omega), if_pos (by omega),
      Option.some.injEq] at validated
    rw [← validated] at accepted
    simp at accepted
  · omega

/-! ## The invariant -/

/-- The free regions, without their `rg_end`, and the live regions lie in the area
and do not overlap.  The symbol table knows the live regions, though not always
their last byte. -/
structure Valid (mm : Mm) (live : Live) : Prop where
  vmStart : mm.mmap.vmStart = 0
  sbrk : mm.mmap.sbrk = mm.mmap.vmEnd
  aligned : 256 ∣ mm.mmap.vmEnd
  small : mm.mmap.vmEnd < 2 ^ 31
  ordered : ∀ rgit ∈ mm.mmap.vmFreergList.nodes,
    rgit.rgStart ≤ rgit.rgEnd ∧ rgit.rgEnd ≤ mm.mmap.vmEnd
  inArea : ∀ index, ∀ extent ∈ live index, extent.addr + extent.size ≤ mm.mmap.vmEnd
  table : ∀ index, ∀ extent ∈ live index,
    (mm.symrgtbl index).rgStart = extent.addr ∧
      (mm.symrgtbl index).rgEnd ≤ extent.addr + extent.size
  apart : Apart (mm.mmap.vmFreergList.nodes.map core) live.bytes

variable {mm mm' middle : Mm} {live : Live} {index : Fin 30} {size : Int}

theorem Live.bytes_update (live : Live) (index : Fin 30) (value : Option Extent) :
    Live.bytes (Function.update live index value) =
      Function.update live.bytes index (value.elim ∅ Extent.bytes) := by
  funext other
  by_cases same : other = index
  · subst same
    simp [Live.bytes]
  · simp [Live.bytes, same]

/-- What holds of the other live regions and of the one with the updated id. -/
theorem Live.forall_update
    {value : Option Extent}
    {holds : Fin 30 → Extent → Prop}
    (here : ∀ extent ∈ value, holds index extent)
    (others : ∀ other, other ≠ index → ∀ extent ∈ live other, holds other extent) :
    ∀ other, ∀ extent ∈ Function.update live index value other, holds other extent := by
  intro other extent isLive
  by_cases same : other = index
  · subst same
    rw [Function.update_self] at isLive
    exact here extent isLive
  · rw [Function.update_of_ne same] at isLive
    exact others other same extent isLive

/-- The same for a symbol table that is updated with the live regions. -/
theorem Live.forall_update_table
    {value : Option Extent}
    {symrgtbl : Fin 30 → Region}
    {newrg : Region}
    (holds : Region → Extent → Prop)
    (here : ∀ extent ∈ value, holds newrg extent)
    (others : ∀ other, ∀ extent ∈ live other, holds (symrgtbl other) extent) :
    ∀ other, ∀ extent ∈ Function.update live index value other,
      holds (Function.update symrgtbl index newrg other) extent := by
  apply Live.forall_update
  · rw [Function.update_self]
    exact here
  · intro other different
    rw [Function.update_of_ne different]
    exact others other

/-- The bytes of live regions lie in the area. -/
theorem Valid.bytes_lt
    (valid : Valid mm live)
    {byte : Nat}
    (member : byte ∈ live.bytes index) :
    byte < mm.mmap.vmEnd := by
  unfold Live.bytes at member
  cases found : live index with
  | none => simp [found] at member
  | some extent =>
      rw [found, Option.elim_some] at member
      exact Nat.lt_of_lt_of_le member.2 (valid.inArea index extent found)

theorem Valid.core_lt
    (valid : Valid mm live)
    {rgit : Region}
    (listed : rgit ∈ mm.mmap.vmFreergList.nodes)
    {byte : Nat}
    (member : byte ∈ core rgit) :
    byte < mm.mmap.vmEnd :=
  Nat.lt_of_lt_of_le member.2 (valid.ordered rgit listed).2

/-- The invariant is about the area and the symbol table. -/
theorem Valid.congr
    (valid : Valid mm live)
    (mmap : mm'.mmap = mm.mmap)
    (symrgtbl : mm'.symrgtbl = mm.symrgtbl) :
    Valid mm' live := by
  obtain ⟨vmStart, sbrk, aligned, small, ordered, inArea, table, apart⟩ := valid
  rw [← mmap] at vmStart sbrk aligned small ordered inArea apart
  rw [← symrgtbl] at table
  exact ⟨vmStart, sbrk, aligned, small, ordered, inArea, table, apart⟩

/-- The live regions of the invariant do not overlap. -/
theorem Valid.separate
    (valid : Valid mm live) :
    Separate live := by
  intro index other first second different isFirst isSecond
  have apart := valid.apart.held index other different
  rw [Live.bytes, Live.bytes, isFirst, isSecond] at apart
  exact apart

/-- Putting bytes that nothing else has on the free list. -/
theorem Valid.enlist
    {region : Region}
    {rc : Int}
    (valid : Valid mm live)
    (inArea : region.rgEnd ≤ mm.mmap.vmEnd)
    (apart : Apart (core region :: mm.mmap.vmFreergList.nodes.map core) live.bytes)
    (enlisted : enlistVmFreergList mm region = some (rc, mm')) :
    Valid mm' live := by
  rcases enlistVmFreergList_cases enlisted with ⟨_, rfl⟩ | ⟨nonempty, onlyList, nodes⟩
  · exact valid
  · rw [onlyList]
    constructor
    case vmStart => exact valid.vmStart
    case sbrk => exact valid.sbrk
    case aligned => exact valid.aligned
    case small => exact valid.small
    case ordered =>
      intro rgit listed
      dsimp only at listed ⊢
      rw [nodes] at listed
      rcases List.mem_cons.mp listed with rfl | older
      · exact ⟨Nat.le_of_lt nonempty, inArea⟩
      · exact valid.ordered rgit older
    case inArea => exact valid.inArea
    case table => exact valid.table
    case apart =>
      dsimp only
      rw [nodes]
      exact apart

/-- The front of a free region becomes live.  Only its byte `rg_end` may be taken
without being free for certain, and then it has to be spare. -/
theorem Valid.apart_take
    {before after : List Region}
    {rgit : Region}
    {taken : Nat}
    (valid : Valid mm live)
    (index : Fin 30)
    (nodes : mm.mmap.vmFreergList.nodes = before ++ rgit :: after)
    (bounds : rgit.rgStart + taken ≤ rgit.rgEnd + 1)
    (spare : rgit.rgStart + taken = rgit.rgEnd + 1 → Spare mm live rgit.rgEnd) :
    Apart (before.map core ++ core ⟨rgit.rgStart + taken, rgit.rgEnd⟩ :: after.map core)
      (Function.update live.bytes index (Extent.bytes ⟨rgit.rgStart, taken⟩)) := by
  have apart := valid.apart
  rw [nodes, List.map_append, List.map_cons] at apart
  apply apart.take
  · exact Set.Ico_subset_Ico_left (Nat.le_add_right _ _)
  · refine Set.disjoint_left.mpr fun byte inRest inTaken => ?_
    exact Nat.not_lt_of_le inRest.1 inTaken.2
  · intro byte inTaken notFree
    have atEnd : byte = rgit.rgEnd ∧ rgit.rgStart + taken = rgit.rgEnd + 1 := by
      have notBelow : ¬ byte < rgit.rgEnd := fun below => notFree ⟨inTaken.1, below⟩
      have below : byte < rgit.rgStart + taken := inTaken.2
      omega
    obtain ⟨rfl, full⟩ := atEnd
    obtain ⟨_, offFree, offLive⟩ := spare full
    constructor
    · intro block listed
      rw [← List.map_append] at listed
      obtain ⟨other, member, rfl⟩ := List.mem_map.mp listed
      apply offFree other
      rw [nodes]
      exact (List.sublist_cons_self _ _).append_left before |>.subset member
    · intro other _ inLive
      unfold Live.bytes at inLive
      cases isLive : live other with
      | none => simp [isLive] at inLive
      | some extent =>
          rw [isLive, Option.elim_some] at inLive
          exact offLive other extent isLive inLive

/-- Recording a live region in an area that has not become smaller. -/
theorem Valid.addLive
    {newrg : Region}
    {extent : Extent}
    (valid : Valid mm live)
    (index : Fin 30)
    (limits : middle.mmap.vmStart = 0 ∧ middle.mmap.sbrk = middle.mmap.vmEnd ∧
      256 ∣ middle.mmap.vmEnd ∧ middle.mmap.vmEnd < 2 ^ 31)
    (larger : mm.mmap.vmEnd ≤ middle.mmap.vmEnd)
    (ordered : ∀ rgit ∈ middle.mmap.vmFreergList.nodes,
      rgit.rgStart ≤ rgit.rgEnd ∧ rgit.rgEnd ≤ middle.mmap.vmEnd)
    (symrgtbl : middle.symrgtbl = mm.symrgtbl)
    (inside : extent.addr + extent.size ≤ middle.mmap.vmEnd)
    (known : newrg.rgStart = extent.addr ∧ newrg.rgEnd ≤ extent.addr + extent.size)
    (apart : Apart (middle.mmap.vmFreergList.nodes.map core)
      (Function.update live.bytes index extent.bytes)) :
    Valid { middle with symrgtbl := Function.update middle.symrgtbl index newrg }
      (Function.update live index (some extent)) := by
  obtain ⟨vmStart, sbrk, aligned, small⟩ := limits
  constructor
  case vmStart => exact vmStart
  case sbrk => exact sbrk
  case aligned => exact aligned
  case small => exact small
  case ordered => exact ordered
  case inArea =>
    apply Live.forall_update
    · rintro _ ⟨⟩
      exact inside
    · intro other _ extent isLive
      exact (valid.inArea other extent isLive).trans larger
  case table =>
    dsimp only
    rw [symrgtbl]
    refine Live.forall_update_table (fun region extent =>
      region.rgStart = extent.addr ∧ region.rgEnd ≤ extent.addr + extent.size) ?_ valid.table
    rintro _ ⟨⟩
    exact known
  case apart =>
    rw [Live.bytes_update, Option.elim_some]
    exact apart

/-- Taking a free region.  A byte that is taken beyond the free region is spare. -/
theorem Valid.take
    {newrg : Region}
    (valid : Valid mm live)
    (index : Fin 30)
    (positive : 1 ≤ size)
    (small : size < 2 ^ 31)
    (spare : ∀ rgit ∈ fitting size mm.mmap.vmFreergList.nodes,
      rgit.rgStart + size = rgit.rgEnd + 1 → Spare mm live rgit.rgEnd)
    (taken : getFreeVmrgArea mm size = some (some (newrg, mm'))) :
    Valid { mm' with symrgtbl := Function.update mm'.symrgtbl index newrg }
      (Function.update live index (some ⟨newrg.rgStart, size.toNat⟩)) := by
  obtain ⟨onlyList, fits⟩ := getFreeVmrgArea_cases taken
  obtain ⟨before, rgit, after, nodes, found, _, bounds, rfl, leftIs, ordered⟩ :=
    firstFit_cases positive small (Nat.lt_trans valid.small (by decide)) valid.ordered fits
  have exact_spare := spare rgit found
  obtain ⟨start, finish⟩ := valid.ordered rgit (by simp [nodes])
  have length : (size.toNat : Int) = size := Int.toNat_of_nonneg (by omega)
  have sameArea : mm'.mmap.vmStart = mm.mmap.vmStart ∧ mm'.mmap.sbrk = mm.mmap.sbrk ∧
      mm'.mmap.vmEnd = mm.mmap.vmEnd ∧ mm'.symrgtbl = mm.symrgtbl := by
    rw [onlyList]
    exact ⟨rfl, rfl, rfl, rfl⟩
  obtain ⟨sameStart, sameSbrk, sameEnd, sameTable⟩ := sameArea
  have shrunk : Apart
      (before.map core ++ core ⟨rgit.rgStart + size.toNat, rgit.rgEnd⟩ :: after.map core)
      (Function.update live.bytes index (Extent.bytes ⟨rgit.rgStart, size.toNat⟩)) := by
    refine valid.apart_take index nodes (by omega) fun full => ?_
    exact exact_spare (by omega)
  rw [← List.map_cons, ← List.map_append] at shrunk
  apply valid.addLive index
  case limits =>
    rw [sameStart, sameSbrk, sameEnd]
    exact ⟨valid.vmStart, valid.sbrk, valid.aligned, valid.small⟩
  case larger => exact Nat.le_of_eq sameEnd.symm
  case ordered =>
    rw [sameEnd]
    exact ordered
  case symrgtbl => exact sameTable
  case inside =>
    dsimp only
    rw [sameEnd]
    by_cases full : rgit.rgStart + size = rgit.rgEnd + 1
    · have inside := (exact_spare full).1
      omega
    · omega
  case known => exact ⟨rfl, Nat.sub_le _ _⟩
  case apart =>
    rw [leftIs]
    exact shrunk.sublist ((leftOver_sublist before after rgit _).map core)

/-- Registering a region that starts where the area ended before it grew. -/
theorem Valid.register
    {vmEnd : Nat}
    (valid : Valid mm live)
    (index : Fin 30)
    (size : Int)
    (aligned : 256 ∣ vmEnd)
    (small : vmEnd < 2 ^ 31)
    (covers : mm.mmap.vmEnd + size.toNat ≤ vmEnd)
    (mmap : middle.mmap = (mm.setLimits vmEnd vmEnd).mmap)
    (symrgtbl : middle.symrgtbl = mm.symrgtbl) :
    Valid
      { middle with
        symrgtbl := Function.update middle.symrgtbl index
          ⟨mm.mmap.vmEnd, mm.mmap.vmEnd + size.toNat⟩ }
      (Function.update live index (some ⟨mm.mmap.vmEnd, size.toNat⟩)) := by
  apply valid.addLive index
  case limits =>
    rw [mmap]
    exact ⟨valid.vmStart, rfl, aligned, small⟩
  case larger =>
    rw [mmap]
    exact (Nat.le_add_right _ _).trans covers
  case ordered =>
    intro rgit listed
    rw [mmap] at listed ⊢
    obtain ⟨start, finish⟩ := valid.ordered rgit listed
    exact ⟨start, finish.trans ((Nat.le_add_right _ _).trans covers)⟩
  case symrgtbl => exact symrgtbl
  case inside =>
    rw [mmap]
    exact covers
  case known => exact ⟨rfl, Nat.le_refl _⟩
  case apart =>
    rw [mmap]
    apply valid.apart.assign
    · intro block listed
      obtain ⟨rgit, member, rfl⟩ := List.mem_map.mp listed
      refine Set.disjoint_left.mpr fun byte isFree isNew => ?_
      exact Nat.not_lt_of_le isNew.1 (valid.core_lt member isFree)
    · intro other _
      refine Set.disjoint_left.mpr fun byte isLive isNew => ?_
      exact Nat.not_lt_of_le isNew.1 (valid.bytes_lt isLive)

/-- Growing the area, registering the region and putting the rest on the free
list. -/
theorem Valid.grow
    {pages newEnd : Int}
    (valid : Valid mm live)
    (positive : 1 ≤ size)
    (grows : growth mm size = some pages)
    (mmap : middle.mmap = (mm.setLimits (grownEnd mm pages) (grownEnd mm pages)).mmap)
    (symrgtbl : middle.symrgtbl = mm.symrgtbl)
    (inRange : checked (toInt mm.mmap.sbrk + size) = some newEnd)
    (rest : EnlistsRest
      { middle with
        symrgtbl := Function.update middle.symrgtbl index
          ⟨toULong (toInt mm.mmap.sbrk), toULong newEnd⟩ }
      (toULong newEnd) mm') :
    Valid mm' (Function.update live index (some ⟨mm.mmap.vmEnd, size.toNat⟩)) := by
  obtain ⟨limit, covers, aligned, small⟩ :=
    grownEnd_lt valid.vmStart valid.sbrk valid.aligned valid.small positive grows
  have oldSmall := valid.small
  have oldEnd : toInt mm.mmap.sbrk = mm.mmap.vmEnd := by
    rw [valid.sbrk]
    exact toInt_of_mem (by omega) (by omega)
  obtain ⟨isSum, _, _⟩ := checked_eq_some_iff.mp inRange
  have startIs : toULong (toInt mm.mmap.sbrk) = mm.mmap.vmEnd := by
    rw [oldEnd, toULong_natCast]
    omega
  have endIs : toULong newEnd = mm.mmap.vmEnd + size.toNat := by
    have exact_end := toULong_of_mem (show 0 ≤ newEnd by omega) (by omega)
    omega
  rw [startIs, endIs] at rest
  have registered := valid.register index size aligned small (by omega) mmap symrgtbl
  rcases rest with ⟨remains, rc, enlisted⟩ | ⟨_, rfl⟩
  · apply registered.enlist (Nat.le_refl _) ?_ enlisted
    apply registered.apart.push
    · intro block listed
      obtain ⟨rgit, member, rfl⟩ := List.mem_map.mp listed
      dsimp only at member
      rw [mmap] at member
      refine Set.disjoint_left.mpr fun byte isRest isFree => ?_
      exact Nat.not_lt_of_le (Nat.le_of_add_right_le isRest.1) (valid.core_lt member isFree)
    · intro other
      refine Set.disjoint_left.mpr fun byte isRest isLive => ?_
      rw [Live.bytes_update, Option.elim_some] at isLive
      by_cases same : other = index
      · subst same
        rw [Function.update_self] at isLive
        exact Nat.not_lt_of_le isRest.1 isLive.2
      · rw [Function.update_of_ne same] at isLive
        exact Nat.not_lt_of_le (Nat.le_of_add_right_le isRest.1) (valid.bytes_lt isLive)
  · exact registered

/-- Freeing a live region. -/
theorem Valid.free
    {extent : Extent}
    {rc : Int}
    (valid : Valid mm live)
    (isLive : live index = some extent)
    (enlisted : enlistVmFreergList mm (mm.symrgtbl index) = some (rc, mm')) :
    Valid mm' (Function.update live index none) := by
  obtain ⟨start, finish⟩ := valid.table index extent isLive
  have dropped : Valid mm (Function.update live index none) := by
    have fewer : ∀ other, ∀ still ∈ Function.update live index none other,
        live other = some still := by
      refine Live.forall_update ?_ fun _ _ _ isLive => isLive
      rintro _ ⟨⟩
    constructor
    case vmStart => exact valid.vmStart
    case sbrk => exact valid.sbrk
    case aligned => exact valid.aligned
    case small => exact valid.small
    case ordered => exact valid.ordered
    case inArea =>
      intro other still stillLive
      exact valid.inArea other still (fewer other still stillLive)
    case table =>
      intro other still stillLive
      exact valid.table other still (fewer other still stillLive)
    case apart =>
      rw [Live.bytes_update, Option.elim_none]
      exact valid.apart.drop index
  apply dropped.enlist (Nat.le_trans finish (valid.inArea index extent isLive)) ?_ enlisted
  rw [Live.bytes_update, Option.elim_none]
  apply valid.apart.release
  rw [Live.bytes, isLive, Option.elim_some]
  exact Set.Ico_subset_Ico (Nat.le_of_eq start.symm) finish

/-! ## Runs -/

variable {mem mem' : Mem ι} {self : ι} {state next first last : State ι}

omit [DecidableEq ι] in
theorem valid_of_start
    (start : Start self first) :
    Valid (first.mem.mm self) first.live := by
  obtain ⟨⟨mm, fresh⟩, nothing⟩ := start
  have noBytes : ∀ index, first.live.bytes index = ∅ := by
    intro index
    rw [Live.bytes, nothing, Option.elim_none]
  rw [fresh]
  constructor
  case vmStart => rfl
  case sbrk => rfl
  case aligned => exact Nat.dvd_zero _
  case small => exact Nat.two_pow_pos 31
  case ordered =>
    intro rgit listed
    obtain rfl : rgit = ⟨0, 0⟩ := List.mem_singleton.mp listed
    exact ⟨Nat.le_refl _, Nat.le_refl _⟩
  case inArea =>
    intro index extent isLive
    rw [nothing] at isLive
    cases isLive
  case table =>
    intro index extent isLive
    rw [nothing] at isLive
    cases isLive
  case apart => exact Apart.of_empty _ noBytes

/-- The recorded region is the one in the symbol table. -/
theorem Valid.recorded
    {size regIndex addr : Nat}
    (slot : toInt regIndex = index.val)
    (valid : Valid mm (Function.update live index (some ⟨addr, (toInt size).toNat⟩))) :
    Valid mm (record live (.alloc size regIndex) mm.symrgtbl) := by
  have start : (mm.symrgtbl index).rgStart = addr :=
    (valid.table index _ (Function.update_self ..)).1
  rw [record, symrgIndex_eq_some_iff.mpr slot, Option.elim_some, start]
  exact valid

/-- An `ALLOC` that meets the condition. -/
theorem valid_alloc
    {size regIndex : Nat}
    (valid : Valid (mem.mm self) live)
    (positive : 1 ≤ toInt size)
    (spare : ∀ rgit ∈ fitting (toInt size) (mem.mm self).mmap.vmFreergList.nodes,
      rgit.rgStart + toInt size = rgit.rgEnd + 1 → Spare (mem.mm self) live rgit.rgEnd)
    (accepted : fitting (toInt size) (mem.mm self).mmap.vmFreergList.nodes = none →
      (growth (mem.mm self) (toInt size)).isSome = true)
    (ran : run mem self (.alloc size regIndex) = some mem') :
    Valid (mem'.mm self) (record live (.alloc size regIndex) (mem'.mm self).symrgtbl) := by
  simp only [run, Option.map_eq_some_iff, liballoc, Option.bind_eq_bind,
    Option.bind_eq_some_iff, Option.some.injEq] at ran
  obtain ⟨_, ⟨⟨rc, after, addr⟩, allocated, rfl⟩, rfl⟩ := ran
  obtain ⟨_, index, slot, hit | grown⟩ := alloc_cases allocated
  · obtain ⟨newrg, mm, taken, _, rfl⟩ := hit
    have kept := valid.take index positive (toInt_lt _) spare taken
    rw [Mem.mm_setMm_self]
    exact kept.recorded slot
  · obtain ⟨newEnd, middle, mm, missed, outcome, inRange, _, rest, rfl⟩ := grown
    have grows := accepted (getFreeVmrgArea_missed missed)
    rcases outcome with ⟨refused, _⟩ | ⟨pages, growing, grew⟩
    · rw [refused] at grows
      cases grows
    · have regions := grew.regions
      have kept := valid.grow positive growing
        (by rw [regions.mmap, Mem.mm_setMm_self])
        (by rw [regions.symrgtbl, Mem.mm_setMm_self, Mm.setLimits_symrgtbl]) inRange rest
      rw [Mem.mm_setMm_self]
      exact kept.recorded slot

/-- A `FREE` of a live id puts its region on the free list. -/
theorem run_free_cases
    {proc : ι}
    {regIndex : Nat}
    (inTable : regIndex < 30)
    (isLive : ∀ index ∈ symrgIndex (toInt regIndex), (live index).isSome)
    (ran : run mem proc (.free regIndex) = some mem') :
    ∃ index extent code mm, symrgIndex (toInt regIndex) = some index ∧
      live index = some extent ∧
      enlistVmFreergList (mem.mm proc) ((mem.mm proc).symrgtbl index) = some (code, mm) ∧
      mem' = mem.setMm proc mm := by
  simp only [run, Option.map_eq_some_iff, libfree] at ran
  obtain ⟨⟨rc, after⟩, freed, rfl⟩ := ran
  rcases free_cases freed with ⟨invalid, _⟩ | ⟨index, slot, code, mm, enlisted, rfl⟩
  · have small : toInt (regIndex : Int) = regIndex := toInt_of_mem (by omega) (by omega)
    omega
  · have found := symrgIndex_eq_some_iff.mpr slot
    obtain ⟨extent, held⟩ := Option.isSome_iff_exists.mp (isLive index found)
    exact ⟨index, extent, code, mm, found, held, enlisted, rfl⟩

/-- An instruction of any process that meets the condition. -/
theorem valid_step
    {event : Event ι}
    (valid : Valid (state.mem.mm self) state.live)
    (permitted : Permitted self state event)
    (safe : Safe self state event)
    (taken : step self state event = some next) :
    Valid (next.mem.mm self) next.live := by
  obtain ⟨proc, inst⟩ := event
  unfold step at taken
  split at taken
  · cases taken
  rename_i after ran
  simp only [Option.some.injEq] at taken
  subst taken
  dsimp only
  by_cases isSelf : proc = self
  · subst isSelf
    rw [if_pos rfl]
    have permitted := permitted rfl
    have safe := safe rfl
    cases inst with
    | alloc size regIndex =>
        dsimp only at safe permitted
        refine valid_alloc valid permitted.1 ?_ ?_ ran
        · intro rgit found
          rw [Option.mem_def.mp found, Option.elim_some] at safe
          exact safe
        · intro missed
          rw [missed, Option.elim_none] at safe
          exact safe
    | free regIndex =>
        obtain ⟨index, extent, code, mm, found, held, enlisted, rfl⟩ :=
          run_free_cases permitted.1 permitted.2 ran
        rw [Mem.mm_setMm_self, record, found, Option.elim_some]
        exact valid.free held enlisted
    | read source offset =>
        obtain ⟨_, mmap, symrgtbl⟩ := run_read_regions ran
        exact valid.congr mmap symrgtbl
    | write data destination offset =>
        obtain ⟨_, mmap, symrgtbl⟩ := run_write_regions ran
        exact valid.congr mmap symrgtbl
  · rw [if_neg isSelf, run_others ran (Ne.symm isSelf)]
    exact valid

/-- Along every run whose instructions meet the condition, the live regions of the
process do not overlap. -/
theorem separate_of_safe
    (start : Start self first)
    (run : Run (step self)
      (fun state event => Permitted self state event ∧ Safe self state event) first last) :
    Separate last.live :=
  (run.invariant (fun state => Valid (state.mem.mm self) state.live)
    (fun _ _ _ valid meets taken => valid_step valid meets.1 meets.2 taken)
    (valid_of_start start)).separate

/-- One process and a RAM of eight frames. -/
def eightFrames : State (Fin 1) where
  mem :=
    { mram := initMemphy 2048 true
      mswp := fun _ => initMemphy 1024 true
      pcb := fun _ => Pcb.fresh }
  live := fun _ => none

theorem eightFrames_start : Start 0 eightFrames where
  area := ⟨_, rfl⟩
  nothing := fun _ => rfl

/-- A region of 100 bytes is freed and fits exactly again: its last byte, which is
not listed, is spare. -/
theorem separate_of_safe_exactFit :
    ∃ last, replay (step 0) eightFrames
        [⟨0, .alloc 300 0⟩, ⟨0, .alloc 100 1⟩, ⟨0, .free 1⟩, ⟨0, .alloc 100 2⟩] = some last ∧
      last.live 2 = some ⟨300, 100⟩ ∧
      Separate last.live := by
  obtain ⟨last, reaches, again⟩ := exists_of_evaluated
    (show (replay (step 0) eightFrames
      [⟨0, .alloc 300 0⟩, ⟨0, .alloc 100 1⟩, ⟨0, .free 1⟩, ⟨0, .alloc 100 2⟩]).map
        (fun last => decide (last.live 2 = some ⟨300, 100⟩)) = some true by decide +kernel)
  exact ⟨last, reaches, again, separate_of_safe eightFrames_start
    (Run.of_replay _ _ (by decide +kernel) reaches)⟩

/-- The free region from 300 on ends before the byte 512 and is taken for 213
bytes.  The next growth starts at 512. -/
theorem live_regions_overlap :
    ∃ last, Run (step 0) (fun state event => Permitted 0 state event ∧ MapsRam 0 state event)
        eightFrames last ∧
      last.live 1 = some ⟨300, 213⟩ ∧ last.live 2 = some ⟨512, 300⟩ ∧
      ¬ Separate last.live := by
  obtain ⟨last, reaches, second, third⟩ := exists_of_evaluated
    (show (replay (step 0) eightFrames
      [⟨0, .alloc 300 0⟩, ⟨0, .alloc 213 1⟩, ⟨0, .alloc 300 2⟩]).map
        (fun last => decide
          (last.live 1 = some ⟨300, 213⟩ ∧ last.live 2 = some ⟨512, 300⟩)) = some true
      by decide +kernel)
  refine ⟨last, Run.of_replay _ _ (by decide +kernel) reaches, second, third, ?_⟩
  intro separate
  have shared := separate 1 2 _ _ (by decide) second third
  exact Set.disjoint_left.mp shared (show 512 ∈ Extent.bytes ⟨300, 213⟩ by decide)
    (by decide)

end Regions

end Memory
end Ossim
