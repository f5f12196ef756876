import Ossim.Memory.Regions

/-!
# When the allocator leaks bytes

The bytes of an area belong to a live region or to a listed free region, which
is read with its last byte `rg_end`.  Growth, splitting and exact fits hand every
byte over.  `FREE` does not when `enlist_vm_freerg_list` refuses the region,
which it does with a region of one byte from the free list: there `rg_start` is
`rg_end`.
-/

namespace Ossim
namespace Memory

open CInt Transition

namespace Regions

/-- A byte of a live region, or of a listed region as `get_free_vmrg_area` reads
it. -/
def Covered (mm : Mm) (live : Live) (byte : Nat) : Prop :=
  (∃ rgit ∈ mm.mmap.vmFreergList.nodes, rgit.rgStart ≤ byte ∧ byte ≤ rgit.rgEnd) ∨
    ∃ index, byte ∈ live.bytes index

/-- Every byte of the area is covered. -/
def NoByteLeaked (mm : Mm) (live : Live) : Prop :=
  ∀ byte, byte < mm.mmap.vmEnd → Covered mm live byte

variable {ι : Type} [DecidableEq ι]

/-- An instruction of any process, where the process under consideration
allocates for ids without a live region and frees live ids. -/
def allocStep (self : ι) (state : State ι) (event : Event ι) : Option (State ι) :=
  if Permitted self state event then step self state event else none

/-- The condition on a `FREE` and the state before it: the region goes on the
free list, or each of its bytes in the area is covered without it too. -/
def FreesAll (self : ι) (state : State ι) (event : Event ι) : Prop :=
  event.proc = self →
    match event.inst with
    | .free regIndex =>
        ∀ index ∈ symrgIndex (toInt regIndex),
          ((state.mem.mm self).symrgtbl index).rgStart <
              ((state.mem.mm self).symrgtbl index).rgEnd ∨
            ∀ byte ∈ state.live.bytes index, byte < (state.mem.mm self).mmap.vmEnd →
              Covered (state.mem.mm self) (Function.update state.live index none) byte
    | _ => True

/-- The limits stay below 2^31, and so do the regions; the symbol table knows
every byte of a live region, its last one perhaps only as `rg_end`. -/
structure Accounted (mm : Mm) (live : Live) : Prop where
  vmStart : mm.mmap.vmStart = 0
  sbrk : mm.mmap.sbrk = mm.mmap.vmEnd
  aligned : 256 ∣ mm.mmap.vmEnd
  small : mm.mmap.vmEnd < 2 ^ 31
  ordered : ∀ rgit ∈ mm.mmap.vmFreergList.nodes,
    rgit.rgStart ≤ rgit.rgEnd ∧ rgit.rgEnd ≤ 2 ^ 31 - 1
  table : ∀ index, ∀ extent ∈ live index,
    (mm.symrgtbl index).rgStart = extent.addr ∧
      extent.addr + extent.size ≤ (mm.symrgtbl index).rgEnd + 1 ∧
      (mm.symrgtbl index).rgEnd ≤ 2 ^ 31 - 1

variable {mm mm' middle : Mm} {live : Live} {index : Fin 30} {size : Int} {byte : Nat}

/-- More listed regions and more live regions cover more. -/
theorem Covered.mono
    {live' : Live}
    (covered : Covered mm live byte)
    (listed : ∀ rgit ∈ mm.mmap.vmFreergList.nodes, rgit ∈ mm'.mmap.vmFreergList.nodes)
    (kept : ∀ index, byte ∈ live.bytes index → ∃ other, byte ∈ live'.bytes other) :
    Covered mm' live' byte := by
  rcases covered with ⟨rgit, member, inside⟩ | ⟨index, isLive⟩
  · exact .inl ⟨rgit, listed rgit member, inside⟩
  · exact .inr (kept index isLive)

/-- A new live region leaves the others. -/
theorem Live.bytes_update_of_none
    (fresh : live index = none)
    (extent : Extent)
    {other : Fin 30}
    (isLive : byte ∈ live.bytes other) :
    byte ∈ Live.bytes (Function.update live index (some extent)) other := by
  have different : other ≠ index := by
    rintro rfl
    simp [Live.bytes, fresh] at isLive
  rw [Live.bytes_update, Function.update_of_ne different]
  exact isLive

theorem Live.mem_bytes_update_self
    {extent : Extent}
    (inside : byte ∈ extent.bytes) :
    byte ∈ Live.bytes (Function.update live index (some extent)) index := by
  rw [Live.bytes_update, Function.update_self]
  exact inside

/-- The area and the symbol table say everything. -/
theorem Accounted.congr
    (accounted : Accounted mm live)
    (mmap : mm'.mmap = mm.mmap)
    (symrgtbl : mm'.symrgtbl = mm.symrgtbl) :
    Accounted mm' live := by
  obtain ⟨vmStart, sbrk, aligned, small, ordered, table⟩ := accounted
  rw [← mmap] at vmStart sbrk aligned small ordered
  rw [← symrgtbl] at table
  exact ⟨vmStart, sbrk, aligned, small, ordered, table⟩

theorem NoByteLeaked.congr
    (noLeak : NoByteLeaked mm live)
    (mmap : mm'.mmap = mm.mmap) :
    NoByteLeaked mm' live := by
  unfold NoByteLeaked Covered
  rw [mmap]
  exact noLeak

/-- Putting a region below 2^31 on the free list. -/
theorem Accounted.enlist
    {region : Region}
    {rc : Int}
    (accounted : Accounted mm live)
    (bounded : region.rgEnd ≤ 2 ^ 31 - 1)
    (enlisted : enlistVmFreergList mm region = some (rc, mm')) :
    Accounted mm' live := by
  rcases enlistVmFreergList_cases enlisted with ⟨_, rfl⟩ | ⟨nonempty, onlyList, nodes⟩
  · exact accounted
  · rw [onlyList]
    constructor
    case vmStart => exact accounted.vmStart
    case sbrk => exact accounted.sbrk
    case aligned => exact accounted.aligned
    case small => exact accounted.small
    case ordered =>
      intro rgit listed
      dsimp only at listed ⊢
      rw [nodes] at listed
      rcases List.mem_cons.mp listed with rfl | older
      · exact ⟨Nat.le_of_lt nonempty, bounded⟩
      · exact accounted.ordered rgit older
    case table => exact accounted.table

/-! ## Taking a free region -/

/-- The bytes of the free region go to the live region and to what is left. -/
theorem Covered.take
    {newrg : Region}
    (accounted : Accounted mm live)
    (fresh : live index = none)
    (positive : 1 ≤ size)
    (small : size < 2 ^ 31)
    (taken : getFreeVmrgArea mm size = some (some (newrg, mm')))
    (covered : Covered mm live byte) :
    Covered mm' (Function.update live index (some ⟨newrg.rgStart, size.toNat⟩)) byte := by
  obtain ⟨_, fits⟩ := getFreeVmrgArea_cases taken
  obtain ⟨before, rgit, after, nodes, _, _, bounds, rfl, leftIs, _⟩ :=
    firstFit_cases positive small (by decide) accounted.ordered fits
  rcases covered with ⟨other, listed, atLeast, atMost⟩ | ⟨other, isLive⟩
  · rw [nodes, List.mem_append, List.mem_cons] at listed
    rcases listed with earlier | rfl | later
    · exact .inl ⟨other, by simp [leftIs, earlier], atLeast, atMost⟩
    · by_cases inTaken : byte < other.rgStart + size.toNat
      · exact .inr ⟨index, Live.mem_bytes_update_self ⟨atLeast, inTaken⟩⟩
      · refine .inl ⟨⟨other.rgStart + size.toNat, other.rgEnd⟩, ?_, ?_, atMost⟩
        · rw [leftIs, leftOver, if_pos (by omega)]
          simp
        · exact Nat.le_of_not_lt inTaken
    · exact .inl ⟨other, by simp [leftIs, later], atLeast, atMost⟩
  · exact .inr ⟨other, Live.bytes_update_of_none fresh _ isLive⟩

theorem Accounted.take
    {newrg : Region}
    (accounted : Accounted mm live)
    (index : Fin 30)
    (positive : 1 ≤ size)
    (small : size < 2 ^ 31)
    (taken : getFreeVmrgArea mm size = some (some (newrg, mm'))) :
    Accounted { mm' with symrgtbl := Function.update mm'.symrgtbl index newrg }
      (Function.update live index (some ⟨newrg.rgStart, size.toNat⟩)) := by
  obtain ⟨onlyList, fits⟩ := getFreeVmrgArea_cases taken
  obtain ⟨before, rgit, after, nodes, _, _, bounds, rfl, leftIs, ordered⟩ :=
    firstFit_cases positive small (by decide) accounted.ordered fits
  obtain ⟨start, finish⟩ := accounted.ordered rgit (by simp [nodes])
  have limits : mm'.mmap.vmStart = mm.mmap.vmStart ∧ mm'.mmap.sbrk = mm.mmap.sbrk ∧
      mm'.mmap.vmEnd = mm.mmap.vmEnd ∧ mm'.symrgtbl = mm.symrgtbl := by
    rw [onlyList]
    exact ⟨rfl, rfl, rfl, rfl⟩
  obtain ⟨sameStart, sameSbrk, sameEnd, sameTable⟩ := limits
  constructor
  case vmStart => exact sameStart.trans accounted.vmStart
  case sbrk => exact sameSbrk.trans (accounted.sbrk.trans sameEnd.symm)
  case aligned => exact sameEnd ▸ accounted.aligned
  case small => exact sameEnd ▸ accounted.small
  case ordered => exact ordered
  case table =>
    dsimp only
    rw [sameTable]
    refine Live.forall_update_table (fun region extent =>
      region.rgStart = extent.addr ∧ extent.addr + extent.size ≤ region.rgEnd + 1 ∧
        region.rgEnd ≤ 2 ^ 31 - 1) ?_ accounted.table
    rintro _ ⟨⟩
    dsimp only
    omega

/-! ## Growing the area -/

/-- The area now ends at `vmEnd`, with nothing else changed. -/
structure GrownTo (mm middle : Mm) (vmEnd : Nat) : Prop where
  mmap : middle.mmap = (mm.setLimits vmEnd vmEnd).mmap
  symrgtbl : middle.symrgtbl = mm.symrgtbl
  aligned : 256 ∣ vmEnd
  small : vmEnd < 2 ^ 31
  atLeast : mm.mmap.vmEnd ≤ vmEnd

/-- The rest of a grown area, put on the free list, covers what is not live. -/
theorem NoByteLeaked.grow
    {vmEnd : Nat}
    (noLeak : NoByteLeaked mm live)
    (fresh : live index = none)
    (grown : GrownTo mm middle vmEnd)
    (symrgtbl : Fin 30 → Region)
    (rest : EnlistsRest { middle with symrgtbl := symrgtbl } (mm.mmap.vmEnd + size.toNat) mm') :
    NoByteLeaked mm' (Function.update live index (some ⟨mm.mmap.vmEnd, size.toNat⟩)) := by
  have limits : mm'.mmap.vmEnd = vmEnd := by
    rw [rest.samePages.vmEnd, grown.mmap]
    rfl
  have listed : ∀ rgit ∈ mm.mmap.vmFreergList.nodes, rgit ∈ mm'.mmap.vmFreergList.nodes := by
    intro rgit member
    have same : middle.mmap.vmFreergList = mm.mmap.vmFreergList := by
      rw [grown.mmap]
      rfl
    rcases rest with ⟨_, rc, enlisted⟩ | ⟨_, rfl⟩
    · rcases enlistVmFreergList_cases enlisted with ⟨_, rfl⟩ | ⟨_, _, nodes⟩
      · simpa [same] using member
      · rw [nodes]
        exact List.mem_cons_of_mem _ (by simpa [same] using member)
    · simpa [same] using member
  intro byte below
  rw [limits] at below
  by_cases old : byte < mm.mmap.vmEnd
  · exact (noLeak byte old).mono listed fun other isLive =>
      ⟨other, Live.bytes_update_of_none fresh _ isLive⟩
  by_cases inLive : byte < mm.mmap.vmEnd + size.toNat
  · exact .inr ⟨index, Live.mem_bytes_update_self ⟨Nat.le_of_not_lt old, inLive⟩⟩
  -- the byte lies in the rest, which is not empty
  rcases rest with ⟨remains, rc, enlisted⟩ | ⟨noRest, _⟩
  · rcases enlistVmFreergList_cases enlisted with ⟨empty, _⟩ | ⟨_, _, nodes⟩
    · exact absurd remains (Nat.not_lt_of_le empty)
    · have restEnd : middle.mmap.vmEnd = vmEnd := by
        rw [grown.mmap]
        rfl
      refine .inl ⟨_, by rw [nodes]; exact List.mem_cons_self .., Nat.le_of_not_lt inLive, ?_⟩
      dsimp only
      omega
  · have restEnd : middle.mmap.vmEnd = vmEnd := by
      rw [grown.mmap]
      rfl
    dsimp only at noRest
    omega

theorem Accounted.grow
    {vmEnd : Nat}
    (accounted : Accounted mm live)
    (grown : GrownTo mm middle vmEnd)
    (inRange : mm.mmap.vmEnd + size.toNat ≤ 2 ^ 31 - 1)
    (rest : EnlistsRest
      { middle with
        symrgtbl := Function.update middle.symrgtbl index
          ⟨mm.mmap.vmEnd, mm.mmap.vmEnd + size.toNat⟩ }
      (mm.mmap.vmEnd + size.toNat) mm') :
    Accounted mm' (Function.update live index (some ⟨mm.mmap.vmEnd, size.toNat⟩)) := by
  have small := grown.small
  have registered : Accounted
      { middle with
        symrgtbl := Function.update middle.symrgtbl index
          ⟨mm.mmap.vmEnd, mm.mmap.vmEnd + size.toNat⟩ }
      (Function.update live index (some ⟨mm.mmap.vmEnd, size.toNat⟩)) := by
    constructor
    case vmStart =>
      dsimp only
      rw [grown.mmap]
      exact accounted.vmStart
    case sbrk =>
      dsimp only
      rw [grown.mmap]
      rfl
    case aligned =>
      dsimp only
      rw [grown.mmap]
      exact grown.aligned
    case small =>
      dsimp only
      rw [grown.mmap]
      exact grown.small
    case ordered =>
      dsimp only
      rw [grown.mmap]
      exact accounted.ordered
    case table =>
      dsimp only
      rw [grown.symrgtbl]
      refine Live.forall_update_table (fun region extent =>
        region.rgStart = extent.addr ∧ extent.addr + extent.size ≤ region.rgEnd + 1 ∧
          region.rgEnd ≤ 2 ^ 31 - 1) ?_ accounted.table
      rintro _ ⟨⟩
      exact ⟨rfl, Nat.le_succ _, inRange⟩
  rcases rest with ⟨remains, rc, enlisted⟩ | ⟨_, rfl⟩
  · refine registered.enlist ?_ enlisted
    have restEnd : middle.mmap.vmEnd = vmEnd := by
      rw [grown.mmap]
      rfl
    dsimp only
    omega
  · exact registered

/-- Setting the limits that an area has. -/
theorem mmap_setLimits_self
    (sbrk : mm.mmap.sbrk = mm.mmap.vmEnd) :
    mm.mmap = (mm.setLimits mm.mmap.vmEnd mm.mmap.vmEnd).mmap := by
  obtain ⟨pgd, ⟨vmStart, vmEnd, limit, list⟩, symrgtbl, fifoPgn⟩ := mm
  obtain rfl : limit = vmEnd := sbrk
  rfl

/-- The area after a growth that was refused or performed, down to `vm_map_ram`
with any outcome. -/
theorem Accounted.grownTo
    {mem after : Mem ι}
    {self : ι}
    (accounted : Accounted (mem.mm self) live)
    (positive : 1 ≤ size)
    (outcome : (growth (mem.mm self) size = none ∧ after = mem) ∨
      ∃ pages, growth (mem.mm self) size = some pages ∧ Grows mem self pages after) :
    ∃ vmEnd, GrownTo (mem.mm self) (after.mm self) vmEnd := by
  rcases outcome with ⟨_, rfl⟩ | ⟨pages, growing, grew⟩
  · exact ⟨(after.mm self).mmap.vmEnd, mmap_setLimits_self accounted.sbrk, rfl,
      accounted.aligned, accounted.small, Nat.le_refl _⟩
  · obtain ⟨limit, covers, aligned, small⟩ := grownEnd_lt accounted.vmStart accounted.sbrk
      accounted.aligned accounted.small positive growing
    have regions := grew.regions
    refine ⟨grownEnd (mem.mm self) pages, ?_, ?_, aligned, small, by omega⟩
    · rw [regions.mmap, Mem.mm_setMm_self]
    · rw [regions.symrgtbl, Mem.mm_setMm_self, Mm.setLimits_symrgtbl]

/-! ## Instructions -/

/-- An `ALLOC` for an id without a live region leaks nothing. -/
theorem alloc_leaks_nothing
    {mem mem' : Mem ι}
    {self : ι}
    {size regIndex : Nat}
    (accounted : Accounted (mem.mm self) live)
    (noLeak : NoByteLeaked (mem.mm self) live)
    (positive : 1 ≤ toInt size)
    (fresh : ∀ index ∈ symrgIndex (toInt regIndex), live index = none)
    (ran : run mem self (.alloc size regIndex) = some mem') :
    Accounted (mem'.mm self) (record live (.alloc size regIndex) (mem'.mm self).symrgtbl) ∧
      NoByteLeaked (mem'.mm self)
        (record live (.alloc size regIndex) (mem'.mm self).symrgtbl) := by
  simp only [run, Option.map_eq_some_iff, liballoc, Option.bind_eq_bind,
    Option.bind_eq_some_iff, Option.some.injEq] at ran
  obtain ⟨_, ⟨⟨rc, after, addr⟩, allocated, rfl⟩, rfl⟩ := ran
  obtain ⟨_, index, slot, hit | grown⟩ := alloc_cases allocated
  all_goals
    have found := symrgIndex_eq_some_iff.mpr slot
    have notLive := fresh index found
    rw [record, found, Option.elim_some]
  · obtain ⟨newrg, mm, taken, _, rfl⟩ := hit
    rw [Mem.mm_setMm_self]
    dsimp only
    rw [Function.update_self]
    refine ⟨accounted.take index positive (toInt_lt _) taken, ?_⟩
    intro byte below
    have limit : mm.mmap.vmEnd = (mem.mm self).mmap.vmEnd := by
      rw [(getFreeVmrgArea_cases taken).1]
    have kept :=
      (noLeak byte (limit ▸ below)).take accounted notLive positive (toInt_lt _) taken
    exact kept
  · obtain ⟨newEnd, middle, mm, _, outcome, inRange, _, rest, rfl⟩ := grown
    obtain ⟨vmEnd, grownTo⟩ := accounted.grownTo positive outcome
    have small := accounted.small
    have oldEnd : toInt (mem.mm self).mmap.sbrk = (mem.mm self).mmap.vmEnd := by
      rw [accounted.sbrk]
      exact toInt_of_mem (by omega) (by omega)
    obtain ⟨isSum, _, bounded⟩ := checked_eq_some_iff.mp inRange
    have startIs : toULong (toInt (mem.mm self).mmap.sbrk) = (mem.mm self).mmap.vmEnd := by
      rw [oldEnd, toULong_natCast]
      omega
    have endIs : toULong newEnd = (mem.mm self).mmap.vmEnd + (toInt size).toNat := by
      have natural := toULong_of_mem (show 0 ≤ newEnd by omega) (by omega)
      omega
    rw [startIs, endIs] at rest
    rw [Mem.mm_setMm_self]
    have kept := accounted.grow grownTo (by omega) rest
    have start : (mm.symrgtbl index).rgStart = (mem.mm self).mmap.vmEnd :=
      (kept.table index _ (Function.update_self ..)).1
    rw [start]
    exact ⟨kept, noLeak.grow notLive grownTo _ rest⟩

/-- A `FREE` of a live region leaks nothing exactly under the condition. -/
theorem free_leaks_nothing_iff
    {extent : Extent}
    {rc : Int}
    (accounted : Accounted mm live)
    (noLeak : NoByteLeaked mm live)
    (isLive : live index = some extent)
    (enlisted : enlistVmFreergList mm (mm.symrgtbl index) = some (rc, mm')) :
    Accounted mm' (Function.update live index none) ∧
      (NoByteLeaked mm' (Function.update live index none) ↔
        (mm.symrgtbl index).rgStart < (mm.symrgtbl index).rgEnd ∨
          ∀ byte ∈ live.bytes index, byte < mm.mmap.vmEnd →
            Covered mm (Function.update live index none) byte) := by
  obtain ⟨start, atMost, bounded⟩ := accounted.table index extent isLive
  have bytes : live.bytes index = extent.bytes := by
    rw [Live.bytes, isLive, Option.elim_some]
  have others : ∀ {byte : Nat} (other : Fin 30), byte ∈ live.bytes other → byte ∉ extent.bytes →
      byte ∈ Live.bytes (Function.update live index none) other := by
    intro byte other isIn notIn
    have different : other ≠ index := by
      rintro rfl
      exact notIn (bytes ▸ isIn)
    rw [Live.bytes_update, Function.update_of_ne different]
    exact isIn
  have dropped : Accounted mm (Function.update live index none) := by
    refine ⟨accounted.vmStart, accounted.sbrk, accounted.aligned, accounted.small,
      accounted.ordered, ?_⟩
    refine Live.forall_update ?_ fun other _ => accounted.table other
    rintro _ ⟨⟩
  refine ⟨dropped.enlist bounded enlisted, ?_⟩
  rcases enlistVmFreergList_cases enlisted with ⟨empty, rfl⟩ | ⟨nonempty, onlyList, nodes⟩
  · rw [or_iff_right (Nat.not_lt_of_le empty)]
    constructor
    · exact fun stillNone byte _ below => stillNone byte below
    · intro elsewhere byte below
      by_cases inside : byte ∈ extent.bytes
      · exact elsewhere byte (bytes ▸ inside) below
      · exact (noLeak byte below).mono (fun _ listed => listed) fun other isIn =>
          ⟨other, others other isIn inside⟩
  · refine iff_of_true ?_ (.inl nonempty)
    intro byte below
    have limit : mm'.mmap.vmEnd = mm.mmap.vmEnd := by rw [onlyList]
    by_cases inside : byte ∈ extent.bytes
    · refine .inl ⟨mm.symrgtbl index, by rw [nodes]; exact List.mem_cons_self .., ?_, ?_⟩
      · rw [start]
        exact inside.1
      · have := inside.2
        omega
    · apply (noLeak byte (limit ▸ below)).mono
      · intro rgit listed
        rw [nodes]
        exact List.mem_cons_of_mem _ listed
      · exact fun other isIn => ⟨other, others other isIn inside⟩

/-! ## Runs -/

variable {self : ι} {state next first : State ι}

/-- A step of the process or of another one leaks nothing exactly under the
condition. -/
theorem allocStep_exact
    (event : Event ι)
    (accounted : Accounted (state.mem.mm self) state.live)
    (noLeak : NoByteLeaked (state.mem.mm self) state.live)
    (taken : allocStep self state event = some next) :
    Accounted (next.mem.mm self) next.live ∧
      (NoByteLeaked (next.mem.mm self) next.live ↔ FreesAll self state event) := by
  obtain ⟨proc, inst⟩ := event
  unfold allocStep at taken
  split at taken
  case isFalse _ => cases taken
  case isTrue permitted =>
    unfold step at taken
    split at taken
    · cases taken
    rename_i after ran
    simp only [Option.some.injEq] at taken
    subst taken
    dsimp only
    by_cases isSelf : proc = self
    · subst isSelf
      rw [if_pos rfl]
      have permitted := permitted rfl
      cases inst with
      | alloc size regIndex =>
          obtain ⟨positive, _, fresh⟩ := permitted
          obtain ⟨kept, stillNone⟩ := alloc_leaks_nothing accounted noLeak positive fresh ran
          exact ⟨kept, iff_of_true stillNone fun _ => trivial⟩
      | free regIndex =>
          obtain ⟨index, extent, code, mm, found, held, enlisted, rfl⟩ :=
            run_free_cases permitted.1 permitted.2 ran
          obtain ⟨kept, exact⟩ := free_leaks_nothing_iff accounted noLeak held enlisted
          rw [Mem.mm_setMm_self, record, found, Option.elim_some]
          refine ⟨kept, exact.trans ?_⟩
          simp only [FreesAll, found, Option.mem_some_iff, forall_eq', true_implies]
      | read source offset =>
          obtain ⟨_, mmap, symrgtbl⟩ := run_read_regions ran
          exact ⟨accounted.congr mmap symrgtbl,
            iff_of_true (noLeak.congr mmap) fun _ => trivial⟩
      | write data destination offset =>
          obtain ⟨_, mmap, symrgtbl⟩ := run_write_regions ran
          exact ⟨accounted.congr mmap symrgtbl,
            iff_of_true (noLeak.congr mmap) fun _ => trivial⟩
    · rw [if_neg isSelf, run_others ran (Ne.symm isSelf)]
      exact ⟨accounted, iff_of_true noLeak fun same => absurd same isSelf⟩

omit [DecidableEq ι] in
theorem accounted_of_start
    (start : Start self first) :
    Accounted (first.mem.mm self) first.live := by
  obtain ⟨⟨mm, fresh⟩, nothing⟩ := start
  rw [fresh]
  constructor
  case vmStart => rfl
  case sbrk => rfl
  case aligned => exact Nat.dvd_zero _
  case small => exact Nat.two_pow_pos 31
  case ordered =>
    intro rgit listed
    obtain rfl : rgit = ⟨0, 0⟩ := List.mem_singleton.mp listed
    exact ⟨Nat.le_refl _, Nat.zero_le _⟩
  case table =>
    intro index extent isLive
    rw [nothing] at isLive
    cases isLive

/-- In every run every byte of the area stays covered exactly when every `FREE` of
the process meets the condition. -/
theorem noByteLeaked_iff_freesAll
    (start : Start self first)
    (events : List (Event ι))
    (last : State ι)
    (reaches : replay (allocStep self) first events = some last) :
    HoldsAlong (allocStep self) (fun state => NoByteLeaked (state.mem.mm self) state.live)
        first events ↔
      PermittedAlong (allocStep self) (FreesAll self) first events := by
  refine holdsAlong_iff_permittedAlong (fun state => Accounted (state.mem.mm self) state.live)
    ?_ events first (accounted_of_start start) ?_ reaches
  · intro state event next accounted noLeak taken
    obtain ⟨kept, exact⟩ := allocStep_exact event accounted noLeak taken
    exact ⟨fun _ => kept, exact⟩
  · obtain ⟨⟨mm, fresh⟩, _⟩ := start
    rw [fresh]
    exact fun byte below => absurd below (Nat.not_lt_zero byte)

/-- A region of 300 bytes, and a small one from the rest of its pages that is freed
again. -/
def smallRegion {ι : Type} (proc : ι) (size : Nat) : List (Event ι) :=
  [⟨proc, .alloc 300 0⟩, ⟨proc, .alloc size 1⟩, ⟨proc, .free 1⟩]

theorem noByteLeaked_iff_freesAll_smallRegion :
    ∃ last, replay (allocStep 0) eightFrames (smallRegion 0 100) = some last ∧
      (HoldsAlong (allocStep 0) (fun state => NoByteLeaked (state.mem.mm 0) state.live)
          eightFrames (smallRegion 0 100) ↔
        PermittedAlong (allocStep 0) (FreesAll 0) eightFrames (smallRegion 0 100)) := by
  obtain ⟨last, reaches⟩ := Option.isSome_iff_exists.mp
    (show (replay (allocStep 0) eightFrames (smallRegion 0 100)).isSome = true by decide +kernel)
  exact ⟨last, reaches,
    noByteLeaked_iff_freesAll eightFrames_start (smallRegion 0 100) last reaches⟩

/-- The byte 300 is allocated alone and freed: `rg_start` and `rg_end` are both 300,
and the region is refused by the free list. -/
theorem freed_byte_leaks :
    ∃ last, replay (allocStep 0) eightFrames (smallRegion 0 1) = some last ∧
      PermittedAlong (allocStep 0) (MapsRam 0) eightFrames (smallRegion 0 1) ∧
      ¬NoByteLeaked (last.mem.mm 0) last.live := by
  obtain ⟨last, reaches, inArea, notListed, notLive⟩ := exists_of_evaluated
    (show (replay (allocStep 0) eightFrames (smallRegion 0 1)).map (fun last => decide
      (300 < (last.mem.mm 0).mmap.vmEnd ∧
        (∀ rgit ∈ (last.mem.mm 0).mmap.vmFreergList.nodes,
          ¬(rgit.rgStart ≤ 300 ∧ 300 ≤ rgit.rgEnd)) ∧
        ∀ index, ∀ extent ∈ last.live index, 300 ∉ extent.bytes)) = some true
      by decide +kernel)
  refine ⟨last, reaches, by decide +kernel, fun noLeak => ?_⟩
  rcases noLeak 300 inArea with ⟨rgit, listed, inside⟩ | ⟨index, isLive⟩
  · exact notListed rgit listed inside
  · unfold Live.bytes at isLive
    cases held : last.live index with
    | none => simp [held] at isLive
    | some extent =>
        rw [held, Option.elim_some] at isLive
        exact notLive index extent held isLive

end Regions

end Memory
end Ossim
