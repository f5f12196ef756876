import Ossim.Library.LinkedList
import Ossim.Memory.Mm

/-!
# A new address space in used memory

`init_mm` over the structures as `malloc` returns them, with whatever they held
before.  It assigns the limits of the area, the region node and the pointers
between them.  The page table, the symbol table, the list of the pages and the
pointer that becomes the tail of the free list keep their old contents.  The region
that it lists is `{0, 0}`, which is one byte to the search in the free list and lies
outside of the empty area.
-/

namespace Ossim
namespace Memory

open LinkedList

/-- The fields of `struct vm_area_struct` that are read, besides `vm_next`. -/
structure AreaFields where
  vmId : Nat
  vmStart : Nat
  vmEnd : Nat
  sbrk : Nat
  vmFreergList : Option Nat

/-- `struct mm_struct`, with the page table that `pgd` points to. -/
structure MmStruct where
  pgd : Pgn → Pte
  mmap : Option Nat
  symrgtbl : Fin 30 → Region
  fifoPgn : Option Nat

/-- What can be read as an area, a region node or a page node, by address. -/
structure RawMemory where
  areas : Heap AreaFields
  regions : Heap Region
  pages : Heap Pgn

/-- The blocks that `malloc` returns in `init_mm`: the address and the contents of
the area, the contents of the page table, and the address of the region node. -/
structure Blocks where
  vma0 : Nat
  area : Node AreaFields
  pgd : Pgn → Pte
  firstRg : Nat

namespace RawMemory

/-- `init_vm_rg` with the node that `malloc` has returned. -/
def initVmRg (memory : RawMemory) (rgnode rgStart rgEnd : Nat) : RawMemory :=
  { memory with
    regions := Function.update memory.regions rgnode (some ⟨⟨rgStart, rgEnd⟩, none⟩) }

/-- `enlist_vm_rg_node`: the memory and `*rglist` afterwards. -/
def enlistVmRgNode (memory : RawMemory) (rglist : Option Nat) (rgnode : Nat) :
    RawMemory × Option Nat :=
  let linked := (memory.regions rgnode).map fun node => { node with next := rglist }
  ({ memory with regions := Function.update memory.regions rgnode linked }, some rgnode)

/-- `init_mm`: the memory and `*mm` afterwards. -/
def initMm (memory : RawMemory) (mm : MmStruct) (blocks : Blocks) : RawMemory × MmStruct :=
  let mm := { mm with pgd := blocks.pgd }
  let vma0 := { blocks.area.value with vmId := 1 }
  let vma0 := { vma0 with vmStart := 0 }
  let vma0 := { vma0 with vmEnd := vma0.vmStart }
  let vma0 := { vma0 with sbrk := vma0.vmStart }
  let memory := memory.initVmRg blocks.firstRg vma0.vmStart vma0.vmEnd
  let (memory, vmFreergList) := memory.enlistVmRgNode vma0.vmFreergList blocks.firstRg
  let vma0 := { vma0 with vmFreergList := vmFreergList }
  ({ memory with areas := Function.update memory.areas blocks.vma0 (some ⟨vma0, none⟩) },
    { mm with mmap := some blocks.vma0 })

end RawMemory

/-- The entry is neither present nor swapped. -/
def Unmapped (pte : Pte) : Prop :=
  pagingPagePresent pte = false ∧ pagingPageSwapped pte = false

/-- The region has no byte, as `enlist_vm_freerg_list` tests it. -/
def Region.IsEmpty (region : Region) : Prop := region.rgStart = region.rgEnd

/-- The byte belongs to the region as `get_free_vmrg_area` counts, which takes the
size to be `rg_end - rg_start + 1`. -/
def Region.Counts (region : Region) (byte : Nat) : Prop :=
  region.rgStart ≤ byte ∧ byte ≤ region.rgEnd

/-- The byte lies between the limits of the area. -/
def AreaFields.Contains (area : AreaFields) (byte : Nat) : Prop :=
  area.vmStart ≤ byte ∧ byte < area.vmEnd

/-- The free list is finite and its regions lie inside the area. -/
def FreeInside (memory : RawMemory) (area : AreaFields) : Prop :=
  ∃ cells, Linked memory.regions area.vmFreergList cells ∧
    ∀ cell ∈ cells, ∀ byte, cell.2.Counts byte → area.Contains byte

/-- No region that is handed out from the free list has a byte on a page without a
byte of the area. -/
def PagesInside (memory : RawMemory) (area : AreaFields) : Prop :=
  ∀ cells size newrg left, Linked memory.regions area.vmFreergList cells → 1 ≤ size →
    firstFit size (cells.map Prod.snd) = some (newrg, left) →
      ∀ byte, newrg.Counts byte →
        ∃ inside, area.Contains inside ∧ inside / pagingPagesz = byte / pagingPagesz

/-- The address-space invariant at its start. -/
structure Established (memory : RawMemory) (mm : MmStruct) : Prop where
  ptes : ∀ pgn, Unmapped (mm.pgd pgn)
  pages : mm.fifoPgn = none
  symbols : ∀ rgid, (mm.symrgtbl rgid).IsEmpty
  area : ∃ vma area, Linked memory.areas mm.mmap [(vma, area)] ∧
    (area.vmStart = 0 ∧ area.vmEnd = 0 ∧ area.sbrk = 0) ∧
    FreeInside memory area ∧ PagesInside memory area

/-- The part of it that depends on what the blocks held, with a free list of regions
like the one that `init_mm` makes. -/
structure Cleared (memory : RawMemory) (mm : MmStruct) : Prop where
  ptes : ∀ pgn, Unmapped (mm.pgd pgn)
  pages : mm.fifoPgn = none
  symbols : ∀ rgid, (mm.symrgtbl rgid).IsEmpty
  free : ∃ vma area cells, Linked memory.areas mm.mmap [(vma, area)] ∧
    Linked memory.regions area.vmFreergList cells ∧ ∀ cell ∈ cells, cell.2 = ⟨0, 0⟩

/-- What the blocks have to hold already. -/
structure CleanBlocks (memory : RawMemory) (mm : MmStruct) (blocks : Blocks) : Prop where
  ptes : ∀ pgn, Unmapped (blocks.pgd pgn)
  pages : mm.fifoPgn = none
  symbols : ∀ rgid, (mm.symrgtbl rgid).IsEmpty
  free : ∃ cells, Linked memory.regions blocks.area.value.vmFreergList cells ∧
    blocks.firstRg ∉ cells.map Prod.fst ∧ ∀ cell ∈ cells, cell.2 = ⟨0, 0⟩

section InitMm

variable (memory : RawMemory) (mm : MmStruct) (blocks : Blocks)

/-- The area that `init_mm` makes. -/
def newArea : AreaFields where
  vmId := 1
  vmStart := 0
  vmEnd := 0
  sbrk := 0
  vmFreergList := some blocks.firstRg

/-- What `init_mm` assigns. -/
theorem initMm_eq :
    memory.initMm mm blocks =
      ({ memory with
          areas := Function.update memory.areas blocks.vma0 (some ⟨newArea blocks, none⟩)
          regions := Function.update memory.regions blocks.firstRg
            (some ⟨⟨0, 0⟩, blocks.area.value.vmFreergList⟩) },
        { mm with
          pgd := blocks.pgd
          mmap := some blocks.vma0 }) := by
  simp [RawMemory.initMm, RawMemory.initVmRg, RawMemory.enlistVmRgNode, newArea]

/-- The only area afterwards is the new one. -/
theorem linked_areas
    {vma : Nat}
    {area : AreaFields} :
    Linked (memory.initMm mm blocks).1.areas (memory.initMm mm blocks).2.mmap
        [(vma, area)] ↔
      vma = blocks.vma0 ∧ area = newArea blocks := by
  simp only [initMm_eq, Linked, segment_cons, segment_nil, Option.some.injEq]
  constructor
  · rintro ⟨rfl, next, node, _⟩
    simp only [Function.update_self, Option.some.injEq, Node.mk.injEq] at node
    exact ⟨rfl, node.1.symm⟩
  · rintro ⟨rfl, rfl⟩
    exact ⟨rfl, none, Function.update_self _ _ _, rfl⟩

/-- The free list afterwards is the new node and then the list that the old pointer
leads to, if this does not come back to the node. -/
theorem linked_regions
    {cells : List (Cell Region)} :
    Linked (memory.initMm mm blocks).1.regions (some blocks.firstRg) cells ↔
      ∃ rest, cells = (blocks.firstRg, ⟨0, 0⟩) :: rest ∧
        Linked memory.regions blocks.area.value.vmFreergList rest ∧
        blocks.firstRg ∉ rest.map Prod.fst := by
  simp only [initMm_eq]
  constructor
  · intro linked
    have distinct := linked.nodup
    cases cells with
    | nil => cases segment_nil.mp linked
    | cons cell rest =>
        obtain ⟨here, next, node, behind⟩ := linked
        obtain ⟨addr, value⟩ := cell
        obtain rfl : blocks.firstRg = addr := Option.some.inj here
        simp only [Function.update_self, Option.some.injEq, Node.mk.injEq] at node
        obtain ⟨rfl, rfl⟩ := node
        have absent := (List.nodup_cons.mp distinct).1
        refine ⟨rest, rfl, Segment.congr behind fun cell member => ?_, absent⟩
        have different : cell.1 ≠ blocks.firstRg := fun same =>
          absent (List.mem_map.mpr ⟨cell, member, same⟩)
        rw [Function.update_of_ne different]
  · rintro ⟨rest, rfl, linked, absent⟩
    exact ⟨rfl, _, Function.update_self _ _ _, Segment.update linked absent _⟩

/-- The contents are clear if and only if the blocks were clear already, since `init_mm`
assigns none of them. -/
theorem cleared_iff :
    Cleared (memory.initMm mm blocks).1 (memory.initMm mm blocks).2 ↔
      CleanBlocks memory mm blocks := by
  constructor
  · rintro ⟨ptes, pages, symbols, vma, area, cells, linked, listed, empty⟩
    obtain ⟨rfl, rfl⟩ := (linked_areas memory mm blocks).mp linked
    obtain ⟨rest, rfl, old, absent⟩ := (linked_regions memory mm blocks).mp listed
    simp only [initMm_eq] at ptes pages symbols
    exact ⟨ptes, pages, symbols, rest, old, absent, fun cell member =>
      empty cell (List.mem_cons_of_mem _ member)⟩
  · rintro ⟨ptes, pages, symbols, rest, old, absent, empty⟩
    have listed := (linked_regions memory mm blocks).mpr ⟨rest, rfl, old, absent⟩
    refine ⟨?_, ?_, ?_, blocks.vma0, newArea blocks, _,
      (linked_areas memory mm blocks).mpr ⟨rfl, rfl⟩, listed, ?_⟩
    · simpa only [initMm_eq] using ptes
    · simpa only [initMm_eq] using pages
    · simpa only [initMm_eq] using symbols
    · intro cell member
      rcases List.mem_cons.mp member with rfl | old
      · rfl
      · exact empty cell old

/-- The region that `init_mm` lists has the byte 0, which is behind the end of the area. -/
theorem not_freeInside :
    ¬ FreeInside (memory.initMm mm blocks).1 (newArea blocks) := by
  rintro ⟨cells, listed, inside⟩
  obtain ⟨rest, rfl, _⟩ := (linked_regions memory mm blocks).mp listed
  have contained := inside (blocks.firstRg, ⟨0, 0⟩) (List.mem_cons_self ..) 0 ⟨le_rfl, le_rfl⟩
  exact absurd contained.2 (Nat.lt_irrefl 0)

/-- A request for one byte gets this byte, and the area has no page. -/
theorem not_pagesInside
    {cells : List (Cell Region)}
    (listed : Linked (memory.initMm mm blocks).1.regions (newArea blocks).vmFreergList cells) :
    ¬ PagesInside (memory.initMm mm blocks).1 (newArea blocks) := by
  intro inside
  obtain ⟨rest, rfl, _⟩ := (linked_regions memory mm blocks).mp listed
  have taken : firstFit 1 (((blocks.firstRg, ⟨0, 0⟩) :: rest).map Prod.snd) =
      some (⟨0, 0⟩, rest.map Prod.snd) := by
    rw [List.map_cons, firstFit]
    rfl
  obtain ⟨byte, contained, _⟩ :=
    inside _ 1 ⟨0, 0⟩ _ listed le_rfl taken 0 ⟨le_rfl, le_rfl⟩
  exact absurd contained.2 (Nat.not_lt_zero byte)

/-- `init_mm` never establishes the invariant: whatever the blocks held, the free list
does not lie inside the area. -/
theorem never_established :
    ¬ Established (memory.initMm mm blocks).1 (memory.initMm mm blocks).2 := by
  rintro ⟨_, _, _, vma, area, linked, _, inside, _⟩
  obtain ⟨rfl, rfl⟩ := (linked_areas memory mm blocks).mp linked
  exact not_freeInside memory mm blocks inside

end InitMm

/-! ## Zeroed memory -/

/-- The structures are an address space of the other modules. -/
structure Represents (memory : RawMemory) (raw : MmStruct) (mm : Mm) : Prop where
  pgd : raw.pgd = mm.pgd
  symrgtbl : raw.symrgtbl = mm.symrgtbl
  fifoPgn : ∃ cells, Linked memory.pages raw.fifoPgn cells ∧ cells.map Prod.snd = mm.fifoPgn
  mmap : ∃ vma area cells, Linked memory.areas raw.mmap [(vma, area)] ∧
    Linked memory.regions area.vmFreergList cells ∧
    mm.mmap = ⟨area.vmStart, area.vmEnd, area.sbrk, ⟨cells.map Prod.snd, false⟩⟩

/-- On zeroed memory `init_mm` makes the address space that a process starts with in
the other modules. -/
theorem represents_fresh
    {memory : RawMemory}
    {mm : MmStruct}
    {blocks : Blocks}
    (ptes : blocks.pgd = fun _ => 0)
    (symbols : mm.symrgtbl = fun _ => ⟨0, 0⟩)
    (pages : mm.fifoPgn = none)
    (free : blocks.area.value.vmFreergList = none) :
    Represents (memory.initMm mm blocks).1 (memory.initMm mm blocks).2 Mm.fresh where
  pgd := by rw [initMm_eq, ptes]; rfl
  symrgtbl := by rw [initMm_eq, symbols]; rfl
  fifoPgn := by
    refine ⟨[], ?_, rfl⟩
    rw [initMm_eq]
    exact pages
  mmap := by
    have listed := (linked_regions memory mm blocks).mpr
      ⟨[], rfl, by rw [free]; exact segment_nil.mpr rfl, by simp⟩
    exact ⟨_, _, _, (linked_areas memory mm blocks).mpr ⟨rfl, rfl⟩, listed, rfl⟩

/-- Memory in which no pointer leads anywhere. -/
def blankMemory : RawMemory := ⟨fun _ => none, fun _ => none, fun _ => none⟩

/-- A zeroed `struct mm_struct`. -/
def blankMm : MmStruct := ⟨fun _ => 0, none, fun _ => ⟨0, 0⟩, none⟩

/-- Zeroed blocks. -/
def zeroedBlocks : Blocks where
  vma0 := 64
  area := ⟨⟨0, 0, 0, 0, none⟩, none⟩
  pgd := fun _ => 0
  firstRg := 128

/-- Even zeroed memory does not help. -/
theorem initMm_zeroed :
    ¬ ∀ (memory : RawMemory) (mm : MmStruct) (blocks : Blocks),
      Established (memory.initMm mm blocks).1 (memory.initMm mm blocks).2 := by
  intro established
  obtain ⟨_, _, linked, _, inside, _⟩ := (established blankMemory blankMm zeroedBlocks).area
  obtain ⟨rfl, rfl⟩ := (linked_areas blankMemory blankMm zeroedBlocks).mp linked
  exact not_freeInside blankMemory blankMm zeroedBlocks inside

/-- Zeroed blocks, but for a page table that another process has used before. -/
def usedBlocks : Blocks where
  vma0 := 64
  area := ⟨⟨0, 0, 0, 0, none⟩, none⟩
  pgd := fun _ => pteSetFpn 0 5
  firstRg := 128

/-- The pages of the earlier process are present in the new address space. -/
theorem initMm_usedTable :
    ¬ Cleared (blankMemory.initMm blankMm usedBlocks).1
      (blankMemory.initMm blankMm usedBlocks).2 := by
  intro cleared
  have unmapped := (cleared.ptes 3).1
  rw [initMm_eq] at unmapped
  exact absurd unmapped (by simp [usedBlocks])

end Memory
end Ossim
