import Ossim.Library.LinkedList
import Ossim.Memory.Regions

/-!
# The list of the free regions

`get_free_vmrg_area` over the nodes of `vm_freerg_list` and their pointers.  The
loop goes on with the node before the current one in `prev`, shrinks the first
region that is large enough, and unlinks and frees its node when nothing is left
of it.  The function refines the search in the free list of an address space,
and it splits the bytes of the list without a loss.
-/

namespace Ossim
namespace Memory

open CInt LinkedList

/-- `vm_freerg_list`, its nodes of type `struct vm_rg_struct`, and how many nodes
there are. -/
structure RegionList where
  vmFreergList : Option Nat
  heap : Heap Region
  allocated : Nat

namespace RegionList

/-- The listed regions in order. -/
def regions (list : RegionList) : List Region :=
  values list.heap list.allocated list.vmFreergList

/-- The node `rgit` with nothing left of its region leaves the list. -/
def unlink (list : RegionList) (prev : Option Nat) (rgit : Nat) (rgNext : Option Nat) :
    Option RegionList :=
  match prev with
  | none =>
      some
        { vmFreergList := rgNext
          heap := Function.update list.heap rgit none
          allocated := list.allocated - 1 }
  | some prev => do
      let before ← list.heap prev
      some
        { list with
          heap := Function.update
            (Function.update list.heap prev (some { before with next := rgNext })) rgit none
          allocated := list.allocated - 1 }

/-- The loop of `get_free_vmrg_area`, for at most as many iterations: the return
code, `*newrg` and the list afterwards.  `none` stands for more iterations, and
for a read through a freed pointer. -/
def search (list : RegionList) (size : Int) :
    Nat → Option Nat → Option Nat → Option (Int × Region × RegionList)
  | _, _, none => some (-1, ⟨toULong (-1), toULong (-1)⟩, list)
  | 0, _, some _ => none
  | count + 1, prev, some rgit => do
      let node ← list.heap rgit
      let sizeOfFreeVMReg := toULong (node.value.rgEnd - node.value.rgStart + 1)
      if sizeOfFreeVMReg ≥ toULong size then
        let newrg : Region := ⟨node.value.rgStart, toULong (node.value.rgStart + size - 1)⟩
        let start := toULong (node.value.rgStart + size)
        if start > node.value.rgEnd then
          let list ← list.unlink prev rgit node.next
          some (0, newrg, list)
        else
          some (0, newrg,
            { list with
              heap := Function.update list.heap rgit
                (some ⟨⟨start, node.value.rgEnd⟩, node.next⟩) })
      else
        search list size count (some rgit) node.next

/-- `get_free_vmrg_area`: the return code, `*newrg` if it is assigned, and the list
afterwards. -/
def getFreeVmrgArea (list : RegionList) (size : Int) :
    Option (Int × Option Region × RegionList) :=
  match list.vmFreergList with
  | none => some (-1, none, list)
  | some rgit => do
      let (rc, newrg, list) ← search list size list.allocated none (some rgit)
      some (rc, some newrg, list)

/-- The pointers lead through all the nodes, and these are the given ones. -/
abbrev WellFormed (list : RegionList) (cells : List (Cell Region)) : Prop :=
  IsList list.heap list.vmFreergList list.allocated cells

variable {list : RegionList} {cells : List (Cell Region)} {size : Int}

theorem regions_eq
    (wellFormed : WellFormed list cells) :
    list.regions = cells.map Prod.snd :=
  wellFormed.values_eq

/-- The address of the last of the nodes that have been passed. -/
def lastAddr (passed : List (Cell Region)) : Option Nat := passed.getLast?.map Prod.fst

/-- Unlinking the current node, the head of the list or a later one. -/
theorem wellFormed_unlink
    {passed back : List (Cell Region)}
    {rgit : Nat}
    {region : Region}
    {rgNext : Option Nat}
    (wellFormed : WellFormed list (passed ++ (rgit, region) :: back))
    (node : list.heap rgit = some ⟨region, rgNext⟩) :
    ∃ next, list.unlink (lastAddr passed) rgit rgNext = some next ∧
      WellFormed next (passed ++ back) := by
  rcases List.eq_nil_or_concat passed with rfl | ⟨front, prev, rfl⟩
  · exact ⟨_, rfl, wellFormed.tail node⟩
  · rw [List.concat_eq_append, List.append_assoc, List.singleton_append] at wellFormed
    obtain ⟨_, _, before, rfl, _⟩ := wellFormed.linked.split
    have different : prev.1 ≠ rgit := by
      have distinct := wellFormed.distinct
      rw [List.map_append, List.map_cons, List.map_cons] at distinct
      have behind := (List.nodup_cons.mp (List.nodup_append.mp distinct).2.1).1
      exact fun same => behind (by simp [same])
    let next : RegionList :=
      { list with
        heap := Function.update (Function.update list.heap prev.1 (some ⟨prev.2, rgNext⟩)) rgit none
        allocated := list.allocated - 1 }
    refine ⟨next, ?_, ?_⟩
    · simp [lastAddr, unlink, before, next]
    · rw [List.concat_eq_append, List.append_assoc, List.singleton_append]
      dsimp only [WellFormed, next]
      rw [Function.update_comm different]
      exact wellFormed.unlink node

/-- The loop does to the nodes what first fit does to their regions. -/
theorem search_refines
    {passed rest : List (Cell Region)}
    {pointer : Option Nat}
    {count : Nat}
    (wellFormed : WellFormed list (passed ++ rest))
    (here : Linked list.heap pointer rest)
    (enough : rest.length ≤ count) :
    (firstFit size (rest.map Prod.snd) = none ∧
        ∃ newrg, search list size count (lastAddr passed) pointer = some (-1, newrg, list)) ∨
      ∃ newrg left next, firstFit size (rest.map Prod.snd) = some (newrg, left.map Prod.snd) ∧
        search list size count (lastAddr passed) pointer = some (0, newrg, next) ∧
        WellFormed next (passed ++ left) := by
  induction rest generalizing passed pointer count with
  | nil =>
      rw [segment_nil.mp here]
      exact .inl ⟨rfl, _, by cases count <;> rfl⟩
  | cons cell rest inductionHypothesis =>
      obtain ⟨rgit, region⟩ := cell
      obtain ⟨rfl, rgNext, node, behind⟩ := here
      rw [List.length_cons] at enough
      obtain ⟨count, rfl⟩ : ∃ fewer, count = fewer + 1 := ⟨count - 1, by omega⟩
      let newrg : Region := ⟨region.rgStart, toULong (region.rgStart + size - 1)⟩
      by_cases fits : toULong (region.rgEnd - region.rgStart + 1) ≥ toULong size
      · by_cases used : toULong (region.rgStart + size) > region.rgEnd
        · obtain ⟨next, unlinked, after⟩ := wellFormed_unlink wellFormed node
          refine .inr ⟨newrg, rest, next, ?_, ?_, after⟩
          · simp only [List.map_cons, firstFit, fits, used, if_true, newrg]
          · simp only [search, node, Option.bind_eq_bind, Option.bind_some, fits, used, if_true,
              unlinked, newrg]
        · let next : RegionList :=
            { list with
              heap := Function.update list.heap rgit
                (some ⟨⟨toULong (region.rgStart + size), region.rgEnd⟩, rgNext⟩) }
          refine .inr ⟨newrg, (rgit, ⟨toULong (region.rgStart + size), region.rgEnd⟩) :: rest,
            next, ?_, ?_, wellFormed.setValue node _⟩
          · simp only [List.map_cons, firstFit, fits, used, if_true, if_false, newrg]
          · simp only [search, node, Option.bind_eq_bind, Option.bind_some, fits, used, if_true,
              if_false, newrg, next]
      · -- the region is too small, and its node becomes the one before the next
        have moved : search list size (count + 1) (lastAddr passed) (some rgit) =
            search list size count (lastAddr (passed ++ [(rgit, region)])) rgNext := by
          simp [search, node, fits, lastAddr]
        have tooSmall : firstFit size (((rgit, region) :: rest).map Prod.snd) =
            (firstFit size (rest.map Prod.snd)).map fun found =>
              (found.1, region :: found.2) := by
          simp only [List.map_cons, firstFit, fits, if_false]
          cases firstFit size (rest.map Prod.snd) <;> rfl
        rw [moved, tooSmall]
        have onList : WellFormed list ((passed ++ [(rgit, region)]) ++ rest) := by
          simpa using wellFormed
        rcases inductionHypothesis onList behind (Nat.le_of_succ_le_succ enough) with
          ⟨missed, newrg, failed⟩ | ⟨newrg, left, next, found, taken, after⟩
        · exact .inl ⟨by rw [missed]; rfl, newrg, failed⟩
        · exact .inr ⟨newrg, (rgit, region) :: left, next, by rw [found]; rfl, taken,
            by simpa using after⟩

/-- `get_free_vmrg_area` fails when first fit does, and then changes nothing;
otherwise it hands out the region that first fit takes, and leaves the regions
that first fit leaves. -/
theorem getFreeVmrgArea_cases
    (wellFormed : WellFormed list cells)
    (size : Int) :
    (firstFit size list.regions = none ∧
        ∃ newrg, list.getFreeVmrgArea size = some (-1, newrg, list)) ∨
      ∃ newrg next left, firstFit size list.regions = some (newrg, next.regions) ∧
        list.getFreeVmrgArea size = some (0, some newrg, next) ∧ WellFormed next left := by
  rw [regions_eq wellFormed]
  cases head : list.vmFreergList with
  | none =>
      have empty : cells = [] := by
        cases cells with
        | nil => rfl
        | cons cell cells =>
            have here := wellFormed.linked.1
            rw [head] at here
            cases here
      subst empty
      exact .inl ⟨rfl, none, by rw [getFreeVmrgArea, head]⟩
  | some rgit =>
      have linked := wellFormed.linked
      rw [head] at linked
      have onList : WellFormed list ([] ++ cells) := wellFormed
      rcases search_refines onList linked (Nat.le_of_eq wellFormed.counted) with
        ⟨missed, newrg, failed⟩ | ⟨newrg, left, next, found, taken, after⟩
      · have failed : search list size list.allocated none (some rgit) = some (-1, newrg, list) :=
          failed
        exact .inl ⟨missed, some newrg, by simp [getFreeVmrgArea, head, failed]⟩
      · have taken : search list size list.allocated none (some rgit) = some (0, newrg, next) :=
          taken
        refine .inr ⟨newrg, next, left, ?_, by simp [getFreeVmrgArea, head, taken], after⟩
        rw [found, regions_eq after]
        rfl

/-- On a list that ends in `NULL` the function does what the search in the free
list of an address space does. -/
theorem getFreeVmrgArea_refines
    {mm : Mm}
    (wellFormed : WellFormed list cells)
    (represents : mm.mmap.vmFreergList = ⟨list.regions, false⟩)
    (size : Int) :
    ∃ rc newrg next, list.getFreeVmrgArea size = some (rc, newrg, next) ∧
      Memory.getFreeVmrgArea mm size = some
        (if rc = 0 then
          newrg.map fun newrg => (newrg, { mm with
            mmap := { mm.mmap with vmFreergList := ⟨next.regions, false⟩ } })
        else
          none) := by
  rcases getFreeVmrgArea_cases wellFormed size with ⟨missed, newrg, failed⟩ |
    ⟨newrg, next, left, found, taken, _⟩
  · exact ⟨-1, newrg, list, failed, by simp [Memory.getFreeVmrgArea, represents, missed]⟩
  · exact ⟨0, some newrg, next, taken, by simp [Memory.getFreeVmrgArea, represents, found]⟩

/-! ## Both ends of a region are included -/

/-- The bytes of a region in the sense of `get_free_vmrg_area`. -/
def span (rgit : Region) : Set Nat := Set.Icc rgit.rgStart rgit.rgEnd

/-- The regions have bytes, and share none. -/
structure FreeList (regions : List Region) : Prop where
  ordered : ∀ rgit ∈ regions, rgit.rgStart ≤ rgit.rgEnd
  apart : (regions.map span).Pairwise Disjoint

/-- The number of bytes of a region. -/
def bytes (rgit : Region) : Int := rgit.rgEnd - rgit.rgStart + 1

/-- The first region with enough bytes loses the first ones to the new region, and
leaves the list if none are left.  The other regions stay, and so do the bytes. -/
structure Splits (size : Int) (old : List Region) (newrg : Region) (new : List Region) :
    Prop where
  first : ∃ before rgit after, old = before ++ rgit :: after ∧
    (∀ other ∈ before, bytes other < size) ∧ size ≤ bytes rgit ∧
    newrg = ⟨rgit.rgStart, rgit.rgStart + size.toNat - 1⟩ ∧
    new = before ++ Regions.leftOver rgit size.toNat ++ after
  free : FreeList new
  offList : Disjoint (span newrg) (cover (new.map span))
  noLoss : span newrg ∪ cover (new.map span) = cover (old.map span)

/-- What is left of a region is the rest of its bytes, in one piece or none. -/
theorem leftOver_spans (rgit : Region) (taken : Nat) :
    ((Regions.leftOver rgit taken).map span).Pairwise Disjoint ∧
      cover ((Regions.leftOver rgit taken).map span) =
        span rgit \ Set.Ico rgit.rgStart (rgit.rgStart + taken) := by
  unfold Regions.leftOver
  split
  · refine ⟨List.pairwise_singleton _ _, ?_⟩
    ext byte
    simp only [List.map_singleton, mem_cover, List.mem_singleton, exists_eq_left, span,
      Set.mem_Icc, Set.mem_sdiff, Set.mem_Ico]
    omega
  · refine ⟨List.Pairwise.nil, ?_⟩
    ext byte
    simp only [List.map_nil, mem_cover, List.not_mem_nil, false_and, exists_false, span,
      Set.mem_Icc, Set.mem_sdiff, Set.mem_Ico, false_iff]
    omega

/-- First fit splits the free list. -/
theorem splits_of_firstFit
    {old new : List Region}
    {newrg : Region}
    (positive : 1 ≤ size)
    (small : size < 2 ^ 31)
    (free : FreeList old)
    (bounded : ∀ rgit ∈ old, rgit.rgEnd < 2 ^ 62)
    (fits : firstFit size old = some (newrg, new)) :
    Splits size old newrg new := by
  have inBounds : ∀ rgit ∈ old, rgit.rgStart ≤ rgit.rgEnd ∧ rgit.rgEnd ≤ 2 ^ 62 - 1 :=
    fun rgit listed => ⟨free.ordered rgit listed, Nat.le_sub_one_of_lt (bounded rgit listed)⟩
  obtain ⟨before, rgit, after, rfl, _, skipped, enough, rfl, rfl, ordered⟩ :=
    Regions.firstFit_cases positive small (by decide) inBounds fits
  have natural : (size.toNat : Int) = size := Int.toNat_of_nonneg (by omega)
  have start := free.ordered rgit (by simp)
  have taken : span ⟨rgit.rgStart, rgit.rgStart + size.toNat - 1⟩ =
      Set.Ico rgit.rgStart (rgit.rgStart + size.toNat) := by
    ext byte
    simp only [span, Set.mem_Icc, Set.mem_Ico]
    omega
  have within : Set.Ico rgit.rgStart (rgit.rgStart + size.toNat) ⊆ span rgit := by
    intro byte member
    simp only [span, Set.mem_Icc, Set.mem_Ico] at member ⊢
    omega
  have apart := free.apart
  rw [List.map_append, List.map_cons] at apart
  obtain ⟨parts, remains⟩ := leftOver_spans rgit size.toNat
  obtain ⟨stillApart, sameBytes⟩ := cut apart within parts remains
  rw [← List.map_append, ← List.map_append, ← taken] at stillApart sameBytes
  obtain ⟨offRest, restApart⟩ := List.pairwise_cons.mp stillApart
  constructor
  case first =>
    refine ⟨before, rgit, after, rfl, ?_, ?_, rfl, rfl⟩
    · intro other member
      have := skipped other member
      unfold bytes
      omega
    · unfold bytes
      omega
  case free => exact ⟨fun rest listed => (ordered rest listed).1, restApart⟩
  case offList =>
    refine Set.disjoint_right.mpr fun byte inRest => ?_
    obtain ⟨block, listed, inBlock⟩ := mem_cover.mp inRest
    exact Set.disjoint_right.mp (offRest block listed) inBlock
  case noLoss =>
    rw [sameBytes, List.map_append, List.map_cons]

/-- First fit fails exactly when no region has enough bytes. -/
theorem firstFit_eq_none_iff
    {regions : List Region}
    (positive : 1 ≤ size)
    (small : size < 2 ^ 31)
    (free : FreeList regions)
    (bounded : ∀ rgit ∈ regions, rgit.rgEnd < 2 ^ 62) :
    firstFit size regions = none ↔ ∀ rgit ∈ regions, bytes rgit < size := by
  constructor
  · intro missed rgit listed
    have start := free.ordered rgit listed
    have finish := bounded rgit listed
    have tooSmall := List.find?_eq_none.mp (Regions.firstFit_eq_none missed) rgit listed
    have capacity : (toULong (rgit.rgEnd - rgit.rgStart + 1) : Int) =
        rgit.rgEnd - rgit.rgStart + 1 := toULong_of_mem (by omega) (by omega)
    have asked : (toULong size : Int) = size := toULong_of_mem (by omega) (by omega)
    simp only [ge_iff_le, decide_eq_true_eq, not_le] at tooSmall
    unfold bytes
    omega
  · intro tooSmall
    cases found : firstFit size regions with
    | none => rfl
    | some result =>
        obtain ⟨_, rgit, _, rfl, _, enough, _⟩ :=
          (splits_of_firstFit positive small free bounded found).first
        exact absurd (tooSmall rgit (by simp)) (by omega)

/-- `get_free_vmrg_area` returns -1 and leaves the list as it is exactly when no
region has enough bytes; otherwise it returns 0 and splits the list. -/
theorem getFreeVmrgArea_splits
    (wellFormed : WellFormed list cells)
    (free : FreeList list.regions)
    (bounded : ∀ rgit ∈ list.regions, rgit.rgEnd < 2 ^ 62)
    (size : Int)
    (positive : 1 ≤ size)
    (small : size < 2 ^ 31) :
    ∃ rc newrg next, list.getFreeVmrgArea size = some (rc, newrg, next) ∧
      (rc = -1 ∧ next = list ↔ ∀ rgit ∈ list.regions, bytes rgit < size) ∧
      ((∃ rgit ∈ list.regions, size ≤ bytes rgit) →
        rc = 0 ∧ ∃ region left, newrg = some region ∧ WellFormed next left ∧
          Splits size list.regions region next.regions) := by
  have fails := firstFit_eq_none_iff positive small free bounded
  rcases getFreeVmrgArea_cases wellFormed size with ⟨missed, newrg, failed⟩ |
    ⟨newrg, next, left, found, taken, after⟩
  · have tooSmall := fails.mp missed
    refine ⟨-1, newrg, list, failed, iff_of_true ⟨rfl, rfl⟩ tooSmall, ?_⟩
    rintro ⟨rgit, listed, enough⟩
    exact absurd (tooSmall rgit listed) (by omega)
  · refine ⟨0, some newrg, next, taken, iff_of_false ?_ ?_, ?_⟩
    · rintro ⟨failed, _⟩
      cases failed
    · intro tooSmall
      rw [fails.mpr tooSmall] at found
      cases found
    · exact fun _ => ⟨rfl, newrg, left, rfl, after,
        splits_of_firstFit positive small free bounded found⟩

/-- Three regions of 8, 10 and 20 bytes. -/
def threeRegions : RegionList where
  vmFreergList := some 7
  heap
    | 7 => some ⟨⟨0, 7⟩, some 3⟩
    | 3 => some ⟨⟨20, 29⟩, some 5⟩
    | 5 => some ⟨⟨40, 59⟩, none⟩
    | _ => none
  allocated := 3

/-- The second of the three regions has exactly the 10 bytes, and its node leaves
the list. -/
theorem getFreeVmrgArea_splits_threeRegions :
    ∃ rc newrg next, threeRegions.getFreeVmrgArea 10 = some (rc, newrg, next) ∧
      (rc = -1 ∧ next = threeRegions ↔ ∀ rgit ∈ threeRegions.regions, bytes rgit < 10) ∧
      ((∃ rgit ∈ threeRegions.regions, 10 ≤ bytes rgit) →
        rc = 0 ∧ ∃ region left, newrg = some region ∧ WellFormed next left ∧
          Splits 10 threeRegions.regions region next.regions) := by
  have wellFormed : WellFormed threeRegions [(7, ⟨0, 7⟩), (3, ⟨20, 29⟩), (5, ⟨40, 59⟩)] :=
    ⟨⟨rfl, some 3, rfl, rfl, some 5, rfl, rfl, none, rfl, rfl⟩, by decide, rfl⟩
  have regions : threeRegions.regions = [⟨0, 7⟩, ⟨20, 29⟩, ⟨40, 59⟩] := by decide
  have free : FreeList threeRegions.regions := by
    rw [regions]
    refine ⟨by decide, ?_⟩
    simp only [List.map_cons, List.map_nil, List.pairwise_cons, List.mem_cons, List.not_mem_nil,
      or_false, forall_eq_or_imp, forall_eq, span, Set.disjoint_left, Set.mem_Icc]
    refine ⟨⟨?_, ?_⟩, ?_, by simp, List.Pairwise.nil⟩ <;> intro byte <;> omega
  exact getFreeVmrgArea_splits wellFormed free (by rw [regions]; decide) 10 (by decide) (by decide)

end RegionList

end Memory
end Ossim
