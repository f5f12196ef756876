import Ossim.Library.History
import Ossim.Library.SharedHeap
import Ossim.Memory.Layout
import Ossim.Memory.RegionList
import Mathlib.Data.Fintype.Pi

/-!
# Free lists in reused memory

`malloc` returns memory as it is.  `init_mm` takes over what `vm_freerg_list` held, and
`enlist_vm_freerg_list` does not assign `rg_next` when the list is empty, so the last
pointer of a free list is whatever the memory held before.  Here the free lists of all
processes are nodes in one heap, whose contents may change in any way where no node is
allocated.

A search that gets past the nodes that its process has listed follows such a pointer, into
nodes of other processes perhaps.  As long as this pointer is `NULL` whenever a search
reads it, the addresses of a process depend on its own requests only.
-/

namespace Ossim
namespace Memory

open CInt LinkedList Transition

/-- The nodes of the free lists of all processes. -/
structure RgNodes (ι : Type) where
  /-- What can be read as a node, with its old contents where it is not allocated. -/
  heap : Heap Region
  /-- The nodes that `malloc` has returned and that are not freed. -/
  live : Nat → Bool
  /-- `vm_freerg_list` of each process. -/
  vmFreergList : ι → Option Nat
  /-- How many nodes each process has on its list.  The program has no such number. -/
  listed : ι → Nat

namespace RgNodes

/-- `malloc` of a node at a place that is not allocated.  The contents stay. -/
def malloc {ι : Type} (nodes : RgNodes ι) (rgnode : Nat) : Option (RgNodes ι) :=
  if nodes.live rgnode = false ∧ (nodes.heap rgnode).isSome = true then
    some { nodes with live := Function.update nodes.live rgnode true }
  else
    none

/-- Assign `rg_start` and `rg_end`. -/
def setRegion {ι : Type} (nodes : RgNodes ι) (rgnode : Nat) (region : Region) : RgNodes ι :=
  { nodes with
    heap := Function.update nodes.heap rgnode
      ((nodes.heap rgnode).map fun node => { node with value := region }) }

/-- Assign `rg_next`. -/
def setNext {ι : Type} (nodes : RgNodes ι) (rgnode : Nat) (rgNext : Option Nat) : RgNodes ι :=
  { nodes with
    heap := Function.update nodes.heap rgnode
      ((nodes.heap rgnode).map fun node => { node with next := rgNext }) }

variable {ι : Type} [DecidableEq ι]

/-- The node is the new head of the list, which has one more node than before. -/
def setHead (nodes : RgNodes ι) (caller : ι) (rgnode : Nat) : RgNodes ι :=
  { nodes with
    vmFreergList := Function.update nodes.vmFreergList caller (some rgnode)
    listed := Function.update nodes.listed caller (nodes.listed caller + 1) }

/-- The part of `init_mm` that makes the free list: `init_vm_rg` with the node `first_rg`,
and `enlist_vm_rg_node` with the old contents of `vma0->vm_freerg_list`. -/
def initMm (nodes : RgNodes ι) (caller : ι) (vmFreergList : Option Nat) (firstRg : Nat) :
    Option (RgNodes ι) := do
  let nodes ← nodes.malloc firstRg
  let nodes := (nodes.setRegion firstRg ⟨0, 0⟩).setNext firstRg none
  some ((nodes.setNext firstRg vmFreergList).setHead caller firstRg)

/-- `enlist_vm_freerg_list`: the return code and the nodes.  If the list is empty, then
`rg_next` stays as it is. -/
def enlistVmFreergList (nodes : RgNodes ι) (caller : ι) (rgElmt : Nat) :
    Option (Int × RgNodes ι) := do
  let rgNode := nodes.vmFreergList caller
  let node ← nodes.heap rgElmt
  if node.value.rgStart ≥ node.value.rgEnd then
    some (-1, nodes)
  else
    let nodes := if rgNode.isSome then nodes.setNext rgElmt rgNode else nodes
    some (0, nodes.setHead caller rgElmt)

/-- The node `rgit` with nothing left of its region leaves the list and is freed. -/
def unlink (nodes : RgNodes ι) (caller : ι) (prev : Option Nat) (rgit : Nat)
    (rgNext : Option Nat) : RgNodes ι :=
  let nodes :=
    match prev with
    | none => { nodes with vmFreergList := Function.update nodes.vmFreergList caller rgNext }
    | some prev => nodes.setNext prev rgNext
  { nodes with
    live := Function.update nodes.live rgit false
    listed := Function.update nodes.listed caller (nodes.listed caller - 1) }

/-- The region has enough bytes, as `get_free_vmrg_area` counts. -/
def fits (size : Int) (rgit : Region) : Bool :=
  decide (toULong (rgit.rgEnd - rgit.rgStart + 1) ≥ toULong size)

/-- The loop of `get_free_vmrg_area`, for at most as many iterations: the inner `none`
stands for the return code -1, and `none` for more iterations and for a read of something
that is no node. -/
def search (nodes : RgNodes ι) (caller : ι) (size : Int) :
    Nat → Option Nat → Option Nat → Option (Option (Region × RgNodes ι))
  | _, _, none => some none
  | 0, _, some _ => none
  | count + 1, prev, some rgit => do
      let node ← nodes.heap rgit
      if fits size node.value then
        let newrg : Region := ⟨node.value.rgStart, toULong (node.value.rgStart + size - 1)⟩
        let start := toULong (node.value.rgStart + size)
        let nodes := nodes.setRegion rgit ⟨start, node.value.rgEnd⟩
        if start > node.value.rgEnd then
          some (some (newrg, nodes.unlink caller prev rgit node.next))
        else
          some (some (newrg, nodes))
      else
        search nodes caller size count (some rgit) node.next

/-- `get_free_vmrg_area` -/
def getFreeVmrgArea (nodes : RgNodes ι) (caller : ι) (size : Int) (count : Nat) :
    Option (Option (Region × RgNodes ι)) :=
  nodes.search caller size count none (nodes.vmFreergList caller)

/-- A search over the next nodes of a list finds a region, or the pointer after them is
`NULL`. -/
def endsOnList (heap : Heap Region) (size : Int) : Nat → Option Nat → Bool
  | _, none => true
  | 0, some _ => false
  | left + 1, some rgit =>
      match heap rgit with
      | none => false
      | some node => fits size node.value || endsOnList heap size left node.next

end RgNodes

namespace Leftovers

variable {ι : Type} [DecidableEq ι]

/-! ## Instructions -/

/-- `__alloc`: the nodes, the memory and the address.  A node that it needs is at
`rgnode`, and the search has at most `count` iterations. -/
def alloc (nodes : RgNodes ι) (mem : Mem ι) (caller : ι) (rgid size : Int)
    (rgnode count : Nat) : Option (RgNodes ι × Mem ι × Int) := do
  match ← nodes.getFreeVmrgArea caller size count with
  | some (newrg, nodes) =>
      let mm ← setSymrg (mem.mm caller) rgid newrg
      some (nodes, mem.setMm caller mm, toInt newrg.rgStart)
  | none =>
      let oldSbrk := toInt (mem.mm caller).mmap.sbrk
      let regs ← sysMemmap mem caller (.inc size)
      let newEnd ← checked (oldSbrk + size)
      let mm ← setSymrg (regs.mem.mm caller) rgid ⟨toULong oldSbrk, toULong newEnd⟩
      if toULong newEnd < mm.mmap.vmEnd then
        let nodes ← nodes.malloc rgnode
        let nodes := nodes.setRegion rgnode ⟨toULong newEnd, mm.mmap.vmEnd⟩
        let (_, nodes) ← nodes.enlistVmFreergList caller rgnode
        some (nodes, regs.mem.setMm caller mm, oldSbrk)
      else
        some (nodes, regs.mem.setMm caller mm, oldSbrk)

/-- `__free`, with its node at `rgnode`. -/
def free (nodes : RgNodes ι) (mem : Mem ι) (caller : ι) (rgid : Int) (rgnode : Nat) :
    Option (RgNodes ι) := do
  let nodes ← nodes.malloc rgnode
  match ← getSymrgById (mem.mm caller) rgid with
  | none => some nodes
  | some region =>
      ((nodes.setRegion rgnode region).enlistVmFreergList caller rgnode).map (·.2)

/-! ## Runs of one process among others -/

/-- An instruction that asks for regions. -/
inductive Request
  | alloc (size regIndex : Nat)
  | free (regIndex : Nat)
  deriving DecidableEq

/-- The memory, and what the process under consideration has asked for and got.  The free
lists are those of the nodes; the chains in the address spaces of `mem` are not used. -/
structure State (ι : Type) where
  nodes : RgNodes ι
  mem : Mem ι
  loaded : ι → Bool
  requests : List Request
  addrs : List Int

/-- What happens: a process is loaded, with the old contents of its structures, a loaded
process makes a call, or memory that is no allocated node changes. -/
inductive Event (ι : Type)
  | load (proc : ι) (mm : Mm) (vmFreergList : Option Nat) (firstRg : Nat)
  | call (proc : ι) (call : Call) (rgnode count : Nat)
  | reuse (addr : Nat) (node : Option (Node Region))

/-- The process has made a request. -/
def record (self proc : ι) (state : State ι) (request : Request) (addrs : List Int) :
    State ι :=
  if proc = self then
    { state with
      requests := state.requests ++ [request]
      addrs := state.addrs ++ addrs }
  else
    state

/-- A call of a loaded process. -/
def runCall (self : ι) (state : State ι) (proc : ι) (rgnode count : Nat) :
    Call → Option (State ι)
  | .inst (.alloc size regIndex) => do
      let (nodes, mem, addr) ←
        alloc state.nodes state.mem proc (toInt regIndex) (toInt size) rgnode count
      some (record self proc { state with nodes := nodes, mem := mem } (.alloc size regIndex)
        [addr])
  | .inst (.free regIndex) => do
      let nodes ← free state.nodes state.mem proc (toInt regIndex) rgnode
      some (record self proc { state with nodes := nodes } (.free regIndex) [])
  | call => do
      let mem ← Memory.runCall state.mem proc call
      some { state with mem := mem }

/-- Each event can happen at any time. -/
def step (self : ι) (state : State ι) : Event ι → Option (State ι)
  | .load proc mm vmFreergList firstRg =>
      if state.loaded proc then
        none
      else do
        let nodes ← state.nodes.initMm proc vmFreergList firstRg
        some
          { state with
            nodes := nodes
            mem := state.mem.setMm proc (initMm mm)
            loaded := Function.update state.loaded proc true }
  | .call proc call rgnode count =>
      if state.loaded proc then runCall self state proc rgnode count call else none
  | .reuse addr node =>
      if state.nodes.live addr then
        none
      else
        some
          { state with
            nodes := { state.nodes with heap := Function.update state.nodes.heap addr node } }

/-- The process itself is loaded with this symbol table and makes no system calls, and the
search in a free list that gets to the pointer after the last node finds `NULL` there. -/
def Permitted (self : ι) (symrgtbl : Fin 30 → Region) (state : State ι) : Event ι → Prop
  | .load proc mm _ _ => proc = self → mm.symrgtbl = symrgtbl
  | .call proc (.inst (.alloc size _)) _ _ =>
      RgNodes.endsOnList state.nodes.heap (toInt size) (state.nodes.listed proc)
        (state.nodes.vmFreergList proc) = true
  | .call proc (.memmap _ _ _) _ _ => proc ≠ self
  | _ => True

instance decidablePermitted (self : ι) (symrgtbl : Fin 30 → Region) (state : State ι) :
    ∀ event, Decidable (Permitted self symrgtbl state event)
  | .load proc mm _ _ => inferInstanceAs (Decidable (proc = self → mm.symrgtbl = symrgtbl))
  | .call _ (.inst (.alloc _ _)) _ _ => inferInstanceAs (Decidable (_ = true))
  | .call proc (.memmap _ _ _) _ _ => inferInstanceAs (Decidable (proc ≠ self))
  | .call _ (.inst (.free _)) _ _ => isTrue trivial
  | .call _ (.inst (.read _ _)) _ _ => isTrue trivial
  | .call _ (.inst (.write _ _ _)) _ _ => isTrue trivial
  | .reuse _ _ => isTrue trivial

/-- No process has been loaded.  The memory may hold anything. -/
structure Start (state : State ι) : Prop where
  loaded : ∀ proc, state.loaded proc = false
  listed : ∀ proc, state.nodes.listed proc = 0
  requests : state.requests = []
  addrs : state.addrs = []

/-- The regions that a process has on its free list, read from the memory. -/
def FreeList (state : State ι) (proc : ι) (regions : List Region) : Prop :=
  ∃ cells after, Segment state.nodes.heap (state.nodes.vmFreergList proc) cells after ∧
    cells.length = state.nodes.listed proc ∧ cells.map Prod.snd = regions

end Leftovers

/-! ## The lists of the processes -/

namespace RgNodes

variable {ι : Type} {nodes nodes' : RgNodes ι} {cells : ι → List (Cell Region)}
  {caller : ι} {rgnode : Nat} {region : Region}

/-- Each process has these nodes on its list. -/
structure Holds (nodes : RgNodes ι) (cells : ι → List (Cell Region)) : Prop where
  owned : Owned nodes.heap nodes.live nodes.vmFreergList cells
  counted : ∀ proc, (cells proc).length = nodes.listed proc

/-- An allocated node is on no list yet. -/
structure Spare (nodes : RgNodes ι) (cells : ι → List (Cell Region)) (rgnode : Nat)
    (node : Node Region) : Prop where
  holds : nodes.Holds cells
  live : nodes.live rgnode = true
  absent : ∀ proc, rgnode ∉ (cells proc).map Prod.fst
  node : nodes.heap rgnode = some node

/-- `malloc` returns a node that is on no list. -/
theorem Holds.malloc
    (holds : nodes.Holds cells)
    (allocated : nodes.malloc rgnode = some nodes') :
    ∃ node, nodes'.Spare cells rgnode node := by
  unfold RgNodes.malloc at allocated
  split at allocated
  case isTrue unused =>
    obtain rfl := Option.some.inj allocated
    obtain ⟨node, isNode⟩ := Option.isSome_iff_exists.mp unused.2
    refine ⟨node, ⟨?_, holds.counted⟩, Function.update_self .., holds.owned.notMem unused.1,
      isNode⟩
    refine holds.owned.congr fun proc cell member => ⟨rfl, ?_⟩
    have live := holds.owned.live proc cell member
    have different : cell.1 ≠ rgnode := fun same =>
      holds.owned.notMem unused.1 proc (same ▸ List.mem_map_of_mem member)
    exact (Function.update_of_ne different _ _).trans live
  case isFalse => cases allocated

theorem Spare.setRegion
    {node : Node Region}
    (spare : nodes.Spare cells rgnode node)
    (region : Region) :
    (nodes.setRegion rgnode region).Spare cells rgnode ⟨region, node.next⟩ where
  holds := ⟨spare.holds.owned.assign spare.absent _, spare.holds.counted⟩
  live := spare.live
  absent := spare.absent
  node := by simp [RgNodes.setRegion, spare.node]

theorem Spare.setNext
    {node : Node Region}
    (spare : nodes.Spare cells rgnode node)
    (rgNext : Option Nat) :
    (nodes.setNext rgnode rgNext).Spare cells rgnode ⟨node.value, rgNext⟩ where
  holds := ⟨spare.holds.owned.assign spare.absent _, spare.holds.counted⟩
  live := spare.live
  absent := spare.absent
  node := by simp [RgNodes.setNext, spare.node]

variable [DecidableEq ι]

/-- The node in front of the list. -/
def pushed (cells : ι → List (Cell Region)) (caller : ι) (rgnode : Nat) (region : Region) :
    ι → List (Cell Region) :=
  Function.update cells caller ((rgnode, region) :: cells caller)

/-- A node whose pointer leads to the list becomes its head. -/
theorem Spare.setHead
    {node : Node Region}
    (spare : nodes.Spare cells rgnode node)
    (leads : ∃ after, Segment nodes.heap node.next (cells caller) after) :
    (nodes.setHead caller rgnode).Holds (pushed cells caller rgnode node.value) where
  owned := by
    obtain ⟨after, segment⟩ := leads
    have owned := spare.holds.owned
    refine owned.update caller ⟨after, ?_⟩ ?_ ?_ ?_ ?_ ?_
    · exact ⟨Function.update_self .., node.next, spare.node, segment⟩
    · exact fun other different => Function.update_of_ne different _ _
    · exact List.nodup_cons.mpr ⟨spare.absent caller, owned.distinct caller⟩
    · intro cell member
      rcases List.mem_cons.mp member with rfl | old
      · exact spare.live
      · exact owned.live caller cell old
    · intro cell member other different
      rcases List.mem_cons.mp member with rfl | old
      · exact spare.absent other
      · exact owned.apart caller other different cell old
    · exact fun other _ cell member => ⟨rfl, owned.live other cell member⟩
  counted := by
    intro proc
    by_cases same : proc = caller
    · subst same
      simp [pushed, RgNodes.setHead, spare.holds.counted]
    · simp [pushed, RgNodes.setHead, same, spare.holds.counted]

/-- `init_mm` gives a process that has no list the region `{0, 0}`, whatever the area
held. -/
theorem Holds.initMm
    {vmFreergList : Option Nat}
    (holds : nodes.Holds cells)
    (new : cells caller = [])
    (initialised : nodes.initMm caller vmFreergList rgnode = some nodes') :
    nodes'.Holds (Function.update cells caller [(rgnode, ⟨0, 0⟩)]) := by
  simp only [RgNodes.initMm, Option.bind_eq_bind, Option.bind_eq_some_iff,
    Option.some.injEq] at initialised
  obtain ⟨fresh, allocated, rfl⟩ := initialised
  obtain ⟨node, spare⟩ := holds.malloc allocated
  have linked := ((spare.setRegion ⟨0, 0⟩).setNext none).setNext vmFreergList
  have isHead : (RgNodes.setHead _ caller rgnode).Holds _ :=
    linked.setHead (by rw [new]; exact ⟨vmFreergList, rfl⟩)
  rwa [pushed, new] at isHead

/-- `enlist_vm_freerg_list` refuses a region without bytes, or puts the node in front. -/
theorem Spare.enlist
    {node : Node Region}
    {rc : Int}
    (spare : nodes.Spare cells rgnode node)
    (enlisted : nodes.enlistVmFreergList caller rgnode = some (rc, nodes')) :
    (node.value.rgEnd ≤ node.value.rgStart ∧ nodes'.Holds cells) ∨
      (node.value.rgStart < node.value.rgEnd ∧
        nodes'.Holds (pushed cells caller rgnode node.value)) := by
  simp only [enlistVmFreergList, spare.node, Option.bind_eq_bind, Option.bind_some] at enlisted
  split at enlisted
  case isTrue noBytes =>
    cases enlisted
    exact .inl ⟨noBytes, spare.holds⟩
  case isFalse bytes =>
    cases enlisted
    refine .inr ⟨Nat.lt_of_not_le bytes, ?_⟩
    obtain ⟨after, segment⟩ := spare.holds.owned.leads caller
    split
    case isTrue _ =>
      have linked := spare.setNext (nodes.vmFreergList caller)
      refine linked.setHead ⟨after, ?_⟩
      exact Segment.update segment (spare.absent caller) _
    case isFalse isEmpty =>
      -- the list is empty, and `rg_next` is what it was
      have isNull := Option.not_isSome_iff_eq_none.mp isEmpty
      refine spare.setHead ⟨node.next, ?_⟩
      cases own : cells caller with
      | nil => rfl
      | cons cell rest =>
          rw [own, isNull] at segment
          cases segment.1

/-- The caller changes the region of a node of its list. -/
theorem Holds.setRegion
    {passed rest : List (Cell Region)}
    {next : Option Nat}
    {old : Region}
    (holds : nodes.Holds cells)
    (own : cells caller = passed ++ (rgnode, old) :: rest)
    (node : nodes.heap rgnode = some ⟨old, next⟩)
    (region : Region) :
    (nodes.setRegion rgnode region).Holds
      (Function.update cells caller (passed ++ (rgnode, region) :: rest)) where
  owned := by
    obtain ⟨after, segment⟩ := holds.owned.leads caller
    have distinct := holds.owned.distinct caller
    rw [own] at segment distinct
    have sameAddrs : (passed ++ (rgnode, region) :: rest).map Prod.fst =
        (cells caller).map Prod.fst := by simp [own]
    refine holds.owned.rearrange caller ⟨after, ?_⟩ (fun _ _ => rfl) ?_
      (fun _ member => sameAddrs ▸ member) (fun _ _ => rfl) ?_
    · dsimp only [RgNodes.setRegion]
      rw [node, Option.map_some]
      exact segment.setValue distinct node
    · rw [sameAddrs]
      exact holds.owned.distinct caller
    · intro addr absent
      refine ⟨Function.update_of_ne ?_ _ _, rfl⟩
      rintro rfl
      exact absent (by simp [own])
  counted := by
    intro proc
    have counted := holds.counted proc
    by_cases same : proc = caller
    · subst same
      rw [own] at counted
      simpa [RgNodes.setRegion] using counted
    · rwa [Function.update_of_ne same]

/-- The caller takes a node off its list and frees it. -/
theorem Holds.unlink
    {passed rest : List (Cell Region)}
    {next : Option Nat}
    (holds : nodes.Holds cells)
    (own : cells caller = passed ++ (rgnode, region) :: rest)
    (node : nodes.heap rgnode = some ⟨region, next⟩) :
    (nodes.unlink caller (RegionList.lastAddr passed) rgnode next).Holds
      (Function.update cells caller (passed ++ rest)) where
  owned := by
    obtain ⟨after, segment⟩ := holds.owned.leads caller
    have distinct := holds.owned.distinct caller
    rw [own] at segment distinct
    have offList : rgnode ∉ (passed ++ rest).map Prod.fst := by
      rw [List.map_append, List.map_cons, List.nodup_middle, List.nodup_cons,
        ← List.map_append] at distinct
      exact distinct.1
    have stillLive : ∀ addr, addr ≠ rgnode →
        Function.update nodes.live rgnode false addr = nodes.live addr :=
      fun _ different => Function.update_of_ne different _ _
    have isOwn : ∀ addr, addr ∉ (cells caller).map Prod.fst → addr ≠ rgnode := by
      rintro addr absent rfl
      exact absent (by simp [own])
    have shorter : ((passed ++ rest).map Prod.fst).Sublist ((cells caller).map Prod.fst) := by
      rw [own]
      exact (((List.sublist_cons_self _ _).append_left passed).map Prod.fst)
    have remaining : ((passed ++ rest).map Prod.fst).Nodup :=
      (holds.owned.distinct caller).sublist shorter
    have used : ∀ addr ∈ (passed ++ rest).map Prod.fst,
        Function.update nodes.live rgnode false addr = nodes.live addr := by
      intro addr member
      exact stillLive addr fun same => offList (same ▸ member)
    rcases List.eq_nil_or_concat passed with rfl | ⟨front, prev, rfl⟩
    · obtain ⟨_, _, node', behind⟩ := segment
      obtain rfl : _ = next := (Node.mk.inj (Option.some.inj (node'.symm.trans node))).2
      refine holds.owned.rearrange caller ⟨after, ?_⟩
        (fun other different => Function.update_of_ne different _ _) remaining shorter.subset used
        fun addr absent => ⟨rfl, stillLive addr (isOwn addr absent)⟩
      simpa [RgNodes.unlink, RegionList.lastAddr] using behind
    · rw [List.concat_eq_append] at *
      rw [List.append_assoc, List.singleton_append] at segment distinct
      obtain ⟨_, _, before, _⟩ := segment.split
      refine holds.owned.rearrange caller ⟨after, ?_⟩
        (fun other different => ?_) remaining shorter.subset ?_ ?_
      · have unlinked := segment.unlink distinct node
        simpa [RgNodes.unlink, RegionList.lastAddr, RgNodes.setNext, before] using unlinked
      · simp [RgNodes.unlink, RegionList.lastAddr, RgNodes.setNext]
      · simpa [RgNodes.unlink, RegionList.lastAddr, RgNodes.setNext] using used
      · intro addr absent
        have notPrev : addr ≠ prev.1 := by
          rintro rfl
          exact absent (by simp [own])
        simp [RgNodes.unlink, RegionList.lastAddr, RgNodes.setNext, notPrev, isOwn addr absent]
  counted := by
    intro proc
    have counted := holds.counted proc
    by_cases same : proc = caller
    · subst same
      rw [own] at counted
      cases prev : RegionList.lastAddr passed <;>
        simp [RgNodes.unlink, RgNodes.setNext, ← counted]
    · cases prev : RegionList.lastAddr passed <;>
        simpa [RgNodes.unlink, RgNodes.setNext, same] using counted

/-- A search that ends on the list does to it what first fit does to its regions. -/
theorem search_cases
    {size : Int}
    {passed rest : List (Cell Region)}
    {link : Option Nat}
    {count : Nat}
    {result : Option (Region × RgNodes ι)}
    (holds : nodes.Holds cells)
    (own : cells caller = passed ++ rest)
    (here : ∃ after, Segment nodes.heap link rest after)
    (ends : endsOnList nodes.heap size rest.length link = true)
    (searched : nodes.search caller size count (RegionList.lastAddr passed) link =
      some result) :
    (result = none ∧ firstFit size (rest.map Prod.snd) = none) ∨
      ∃ newrg left after, result = some (newrg, after) ∧
        firstFit size (rest.map Prod.snd) = some (newrg, left.map Prod.snd) ∧
        after.Holds (Function.update cells caller (passed ++ left)) := by
  induction rest generalizing passed link count with
  | nil =>
      cases link with
      | some _ => cases ends
      | none =>
          have missed : result = none := by
            cases count <;> exact (Option.some.inj searched).symm
          exact .inl ⟨missed, rfl⟩
  | cons cell rest inductionHypothesis =>
      obtain ⟨rgit, region⟩ := cell
      obtain ⟨after, rfl, rgNext, node, behind⟩ := here
      cases count with
      | zero => cases searched
      | succ count =>
      simp only [search, node, Option.bind_eq_bind, Option.bind_some] at searched
      simp only [List.length_cons, endsOnList, node, Bool.or_eq_true] at ends
      let start := toULong (region.rgStart + size)
      have changed := holds.setRegion own node ⟨start, region.rgEnd⟩
      by_cases enough : fits size region = true
      · have isFit := of_decide_eq_true enough
        simp only [enough, if_true] at searched
        by_cases used : start > region.rgEnd
        · have reduced : (nodes.setRegion rgit ⟨start, region.rgEnd⟩).heap rgit =
              some ⟨⟨start, region.rgEnd⟩, rgNext⟩ := by
            simp [RgNodes.setRegion, node]
          have unlinked := changed.unlink (Function.update_self ..) reduced
          rw [Function.update_idem] at unlinked
          simp only [start, used, if_true, Option.some.injEq] at searched
          refine .inr ⟨_, rest, _, searched.symm, ?_, unlinked⟩
          simp only [List.map_cons, firstFit, isFit, if_true]
          exact if_pos used
        · simp only [start, used, if_false, Option.some.injEq] at searched
          refine .inr ⟨_, (rgit, ⟨start, region.rgEnd⟩) :: rest, _, searched.symm, ?_, changed⟩
          simp only [List.map_cons, firstFit, isFit, if_true]
          exact if_neg used
      · -- the region is too small, and its node becomes the one before the next
        have tooSmall : firstFit size (((rgit, region) :: rest).map Prod.snd) =
            (firstFit size (rest.map Prod.snd)).map fun found =>
              (found.1, region :: found.2) := by
          have noFit := of_decide_eq_false (Bool.eq_false_iff.mpr enough)
          simp only [List.map_cons, firstFit, noFit, if_false]
          cases firstFit size (rest.map Prod.snd) <;> rfl
        simp only [enough, Bool.false_eq_true, if_false] at searched
        have isPrev : some rgit = RegionList.lastAddr (passed ++ [(rgit, region)]) := by
          simp [RegionList.lastAddr]
        rw [isPrev] at searched
        have onList : cells caller = (passed ++ [(rgit, region)]) ++ rest := by
          simpa using own
        rw [tooSmall]
        rcases inductionHypothesis onList ⟨after, behind⟩
            (ends.resolve_left enough) searched with
          ⟨failed, missed⟩ | ⟨newrg, left, next, taken, found, afterwards⟩
        · exact .inl ⟨failed, by rw [missed]; rfl⟩
        · exact .inr ⟨newrg, (rgit, region) :: left, next, taken, by rw [found]; rfl,
            by simpa using afterwards⟩

/-- `get_free_vmrg_area` fails when first fit does; otherwise it hands out the region that
first fit takes, and leaves the regions that first fit leaves. -/
theorem Holds.getFreeVmrgArea
    {size : Int}
    {count : Nat}
    {result : Option (Region × RgNodes ι)}
    (holds : nodes.Holds cells)
    (ends : endsOnList nodes.heap size (nodes.listed caller) (nodes.vmFreergList caller) = true)
    (searched : nodes.getFreeVmrgArea caller size count = some result) :
    (result = none ∧ firstFit size ((cells caller).map Prod.snd) = none) ∨
      ∃ newrg left after, result = some (newrg, after) ∧
        firstFit size ((cells caller).map Prod.snd) = some (newrg, left.map Prod.snd) ∧
        after.Holds (Function.update cells caller left) :=
  search_cases holds (show cells caller = [] ++ cells caller from rfl) (holds.owned.leads caller)
    (by rwa [holds.counted caller]) searched

end RgNodes

namespace Leftovers

/-! ## What a process sees -/

/-- An address space without its pages, with the regions on the free list. -/
def listing (mm : Mm) (regions : List Region) : Mm :=
  { mm with mmap := { mm.mmap with vmFreergList := ⟨regions, false⟩ } }.layout

/-- The layout with a free list that ends in `NULL`. -/
def settled (mm : Mm) : Mm := listing mm mm.mmap.vmFreergList.nodes

/-- What a process sees of its address space: the layout and the addresses that its
`ALLOC`s have yielded. -/
structure View where
  mm : Mm
  addrs : List Int

/-- What a process sees when it has been loaded. -/
def loadedView (symrgtbl : Fin 30 → Region) : View where
  mm := listing (initMm { Mm.fresh with symrgtbl := symrgtbl }) [⟨0, 0⟩]
  addrs := []

/-- A request, to the allocator without pages. -/
def act (view : View) : Request → Option View
  | .alloc size regIndex =>
      (Layout.allocate view.mm (toInt regIndex) (toInt size)).map fun (mm, addr) =>
        ⟨settled mm, view.addrs ++ [addr]⟩
  | .free regIndex =>
      (Layout.release view.mm (toInt regIndex)).map fun mm => ⟨settled mm, view.addrs⟩

variable {mm : Mm} {regions left : List Region} {region newrg : Region} {size : Int}

/-- The pages do not matter. -/
theorem listing_congr
    {mm' : Mm}
    (mmap : mm'.mmap = mm.mmap)
    (symrgtbl : mm'.symrgtbl = mm.symrgtbl) :
    listing mm' regions = listing mm regions := by
  rw [listing, listing, Layout.layout_eq_iff, mmap, symrgtbl]
  exact ⟨rfl, rfl⟩

theorem getFreeVmrgArea_listing
    (fits : firstFit size regions = some (newrg, left)) :
    getFreeVmrgArea (listing mm regions) size = some (some (newrg, listing mm left)) := by
  simp [getFreeVmrgArea, listing, fits, Mm.layout]

theorem getFreeVmrgArea_listing_none
    (missed : firstFit size regions = none) :
    getFreeVmrgArea (listing mm regions) size = some none := by
  simp [getFreeVmrgArea, listing, missed, Mm.layout]

/-- The free list after `enlist_vm_freerg_list`. -/
def enlisted (regions : List Region) (region : Region) : List Region :=
  if region.rgStart < region.rgEnd then region :: regions else regions

theorem enlistVmFreergList_listing (mm : Mm) (regions : List Region) (region : Region) :
    ∃ rc after, enlistVmFreergList (listing mm regions) region = some (rc, after) ∧
      settled after = listing mm (enlisted regions region) := by
  unfold enlistVmFreergList enlisted
  by_cases bytes : region.rgStart < region.rgEnd
  · rw [if_neg (Nat.not_le_of_lt bytes), if_pos bytes]
    cases regions with
    | nil => exact ⟨_, _, rfl, rfl⟩
    | cons first rest => exact ⟨_, _, rfl, rfl⟩
  · rw [if_pos (Nat.le_of_not_lt bytes), if_neg bytes]
    exact ⟨_, _, rfl, rfl⟩

variable {ι : Type} [DecidableEq ι] {nodes nodes' : RgNodes ι} {mem mem' : Mem ι}
  {caller : ι} {cells : ι → List (Cell Region)} {rgnode count : Nat} {rgid : Int}

/-- Whatever `vm_map_ram` does, the limits are those that `grow` sets. -/
theorem listing_of_growth
    {regs : SysResult ι}
    (missed : firstFit size regions = none)
    (called : sysMemmap mem caller (.inc size) = some regs) :
    Layout.grow (listing (mem.mm caller) regions) size =
        listing (regs.mem.mm caller) regions ∧
      ∀ other, other ≠ caller → regs.mem.mm other = mem.mm other := by
  simp only [sysMemmap, Option.bind_eq_bind, Option.bind_eq_some_iff, Option.some.injEq] at called
  obtain ⟨⟨rc, after⟩, grown, rfl⟩ := called
  have pages : growth (listing (mem.mm caller) regions) size =
      growthById (mem.mm caller) 0 size := by
    rw [growth_eq_growthById (getFreeVmrgArea_listing_none missed)]
    simp [growthById, getVmaByNum, vmId, validateOverlapVmAreaById, validateOverlapVmArea,
      listing, Mm.layout]
  rw [← incVmaLimitById_zero] at grown
  rw [Layout.grow, pages]
  rcases incVmaLimitById_cases grown with
    ⟨_, refused, _, rfl⟩ | ⟨_, count, _, grows, ranged, _⟩
  · rw [refused]
    exact ⟨rfl, fun _ _ => rfl⟩
  · have same := vmMapRam_regions ranged
    rw [grows, Option.elim_some]
    refine ⟨?_, fun other different => ?_⟩
    · rw [listing_congr same.mmap same.symrgtbl, Mem.mm_setMm_self]
      rfl
    · rw [same.others other different, Mem.mm_setMm_of_ne _ _ different]

/-- A call that leaves the layout of its process alone leaves the layout of every process
alone. -/
theorem listing_of_call
    {call : Call}
    (ran : Memory.runCall mem caller call = some mem')
    (kept : listing (mem'.mm caller) regions = listing (mem.mm caller) regions)
    (self : ι) :
    listing (mem'.mm self) regions = listing (mem.mm self) regions := by
  by_cases isCaller : self = caller
  · rw [isCaller, kept]
  · rw [runCall_others ran isCaller]

/-- A node that `malloc` returns is put on the list as the allocator without pages puts the
region. -/
theorem put_simulates
    {fresh : RgNodes ι}
    {rc : Int}
    (holds : nodes.Holds cells)
    (allocated : nodes.malloc rgnode = some fresh)
    (put : (fresh.setRegion rgnode region).enlistVmFreergList caller rgnode =
      some (rc, nodes')) :
    ∃ own, nodes'.Holds (Function.update cells caller own) ∧
      own.map Prod.snd = enlisted ((cells caller).map Prod.snd) region := by
  obtain ⟨node, spare⟩ := holds.malloc allocated
  rcases (spare.setRegion region).enlist put with ⟨noBytes, same⟩ | ⟨bytes, pushed⟩
  · refine ⟨cells caller, by rwa [Function.update_eq_self], ?_⟩
    rw [enlisted, if_neg (Nat.not_lt_of_le noBytes)]
  · refine ⟨_, pushed, ?_⟩
    rw [enlisted, if_pos bytes, List.map_cons]

/-- `__alloc` does to the layout of its caller what the allocator without pages does, and
leaves the others alone. -/
theorem alloc_simulates
    {addr : Int}
    (holds : nodes.Holds cells)
    (ends : RgNodes.endsOnList nodes.heap size (nodes.listed caller)
      (nodes.vmFreergList caller) = true)
    (allocated : alloc nodes mem caller rgid size rgnode count = some (nodes', mem', addr)) :
    ∃ own after, nodes'.Holds (Function.update cells caller own) ∧
      Layout.allocate (listing (mem.mm caller) ((cells caller).map Prod.snd)) rgid size =
        some (after, addr) ∧
      settled after = listing (mem'.mm caller) (own.map Prod.snd) ∧
      ∀ other, other ≠ caller → mem'.mm other = mem.mm other := by
  simp only [alloc, Option.bind_eq_bind, Option.bind_eq_some_iff] at allocated
  obtain ⟨result, searched, continued⟩ := allocated
  rcases holds.getFreeVmrgArea ends searched with
    ⟨rfl, missed⟩ | ⟨newrg, left, middle, rfl, found, holds⟩
  · simp only [Option.bind_eq_some_iff, setSymrg_eq_some_iff] at continued
    obtain ⟨regs, called, newEnd, inRange, mm, ⟨index, slot, rfl⟩, continued⟩ := continued
    obtain ⟨limits, others⟩ := listing_of_growth missed called
    have byAllocator : ∀ after, _ →
        Layout.allocate (listing (mem.mm caller) ((cells caller).map Prod.snd)) rgid size =
          some (after, toInt (mem.mm caller).mmap.sbrk) :=
      fun _ => Layout.allocate_missed (getFreeVmrgArea_listing_none missed) inRange slot
    rw [limits] at byAllocator
    split at continued
    · rename_i remains
      simp only [Option.bind_eq_some_iff, Option.some.injEq, Prod.mk.injEq] at continued
      obtain ⟨fresh, allocated, ⟨rc, put⟩, enlisting, rfl, rfl, rfl⟩ := continued
      obtain ⟨own, held, values⟩ := put_simulates holds allocated enlisting
      obtain ⟨code, after, listed, isSettled⟩ := enlistVmFreergList_listing
        { regs.mem.mm caller with
          symrgtbl := Function.update (regs.mem.mm caller).symrgtbl index
            ⟨toULong (toInt (mem.mm caller).mmap.sbrk), toULong newEnd⟩ }
        ((cells caller).map Prod.snd) ⟨toULong newEnd, (regs.mem.mm caller).mmap.vmEnd⟩
      refine ⟨own, after, held, byAllocator after (.inl ⟨remains, code, listed⟩), ?_, ?_⟩
      · rw [isSettled, values, Mem.mm_setMm_self]
      · intro other different
        rw [Mem.mm_setMm_of_ne _ _ different, others other different]
    · rename_i noRest
      simp only [Option.some.injEq, Prod.mk.injEq] at continued
      obtain ⟨rfl, rfl, rfl⟩ := continued
      refine ⟨cells caller, _, by rwa [Function.update_eq_self],
        byAllocator _ (.inr ⟨Nat.le_of_not_lt noRest, rfl⟩), ?_, ?_⟩
      · rw [Mem.mm_setMm_self]
        rfl
      · intro other different
        rw [Mem.mm_setMm_of_ne _ _ different, others other different]
  · simp only [Option.bind_eq_some_iff, setSymrg_eq_some_iff, Option.some.injEq,
      Prod.mk.injEq] at continued
    obtain ⟨mm, ⟨index, slot, rfl⟩, rfl, rfl, rfl⟩ := continued
    refine ⟨left, _, holds, Layout.allocate_hit (getFreeVmrgArea_listing found) slot, ?_,
      fun other different => Mem.mm_setMm_of_ne _ _ different⟩
    rw [Mem.mm_setMm_self]
    rfl

/-- `__free` does to the layout of its caller what the allocator without pages does. -/
theorem free_simulates
    (holds : nodes.Holds cells)
    (freed : free nodes mem caller rgid rgnode = some nodes') :
    ∃ own after, nodes'.Holds (Function.update cells caller own) ∧
      Layout.release (listing (mem.mm caller) ((cells caller).map Prod.snd)) rgid =
        some after ∧
      settled after = listing (mem.mm caller) (own.map Prod.snd) := by
  simp only [free, Option.bind_eq_bind, Option.bind_eq_some_iff] at freed
  obtain ⟨fresh, allocated, found, looked, continued⟩ := freed
  have sameEntry : getSymrgById (listing (mem.mm caller) ((cells caller).map Prod.snd)) rgid =
      some found := looked
  rw [Layout.release, sameEntry]
  cases found with
  | none =>
      obtain rfl := Option.some.inj continued
      obtain ⟨_, spare⟩ := holds.malloc allocated
      exact ⟨cells caller, _, by rw [Function.update_eq_self]; exact spare.holds, rfl, rfl⟩
  | some region =>
      obtain ⟨⟨rc, after⟩, put, rfl⟩ := Option.map_eq_some_iff.mp continued
      obtain ⟨own, held, values⟩ := put_simulates holds allocated put
      obtain ⟨code, listed, enlisting, isSettled⟩ :=
        enlistVmFreergList_listing (mem.mm caller) ((cells caller).map Prod.snd) region
      refine ⟨own, listed, held, ?_, by rw [isSettled, values]⟩
      simp [enlisting]

/-! ## Runs -/

/-- Each process that has been loaded has nodes on its list, and the process sees the view.
Before it is loaded, the view is what it will see then. -/
structure ShowsAs (proc : ι) (symrgtbl : Fin 30 → Region) (state : State ι) (view : View)
    (cells : ι → List (Cell Region)) : Prop where
  holds : state.nodes.Holds cells
  new : ∀ other, state.loaded other = false → cells other = []
  before : state.loaded proc = false →
    state.requests = [] ∧ state.addrs = [] ∧ view = loadedView symrgtbl
  sees : state.loaded proc = true →
    view = ⟨listing (state.mem.mm proc) ((cells proc).map Prod.snd), state.addrs⟩

/-- The process sees the view. -/
def Shows (self : ι) (symrgtbl : Fin 30 → Region) (state : State ι) (view : View) : Prop :=
  ∃ cells, ShowsAs self symrgtbl state view cells

variable {self proc : ι} {symrgtbl : Fin 30 → Region} {state next : State ι} {view : View}

/-- The records of the process. -/
@[simp] theorem record_self (request : Request) (addrs : List Int) :
    record self self state request addrs =
      { state with
        requests := state.requests ++ [request]
        addrs := state.addrs ++ addrs } :=
  if_pos rfl

theorem record_of_ne
    (different : proc ≠ self)
    (request : Request)
    (addrs : List Int) :
    record self proc state request addrs = state :=
  if_neg different

/-- The list of a loaded process is no list of one that is not loaded. -/
theorem ShowsAs.new_update
    {own : List (Cell Region)}
    (shown : ShowsAs self symrgtbl state view cells)
    (loaded : state.loaded proc = true)
    {other : ι}
    (isNew : state.loaded other = false) :
    Function.update cells proc own other = [] := by
  have different : other ≠ proc := by
    rintro rfl
    cases loaded.symm.trans isNew
  rw [Function.update_of_ne different]
  exact shown.new other isNew

/-- A change of the list and of the address space of another process. -/
theorem ShowsAs.other
    {own : List (Cell Region)}
    (shown : ShowsAs self symrgtbl state view cells)
    (holds : nodes.Holds (Function.update cells proc own))
    (loaded : state.loaded proc = true)
    (different : proc ≠ self)
    (same : mem.mm self = state.mem.mm self) :
    ShowsAs self symrgtbl { state with nodes := nodes, mem := mem } view
      (Function.update cells proc own) where
  holds := holds
  new := fun _ isNew => shown.new_update loaded isNew
  before := shown.before
  sees := by
    intro isLoaded
    rw [Function.update_of_ne (Ne.symm different), same]
    exact shown.sees isLoaded

/-- A request of the process, which the allocator without pages grants in the same way. -/
theorem ShowsAs.request
    {own : List (Cell Region)}
    {request : Request}
    {addrs : List Int}
    (shown : ShowsAs self symrgtbl state view cells)
    (holds : nodes.Holds (Function.update cells self own))
    (loaded : state.loaded self = true)
    (acts : act view request =
      some ⟨listing (mem.mm self) (own.map Prod.snd), view.addrs ++ addrs⟩) :
    Records act (Shows self symrgtbl) State.requests view state
      (record self self { state with nodes := nodes, mem := mem } request addrs) := by
  rw [record_self]
  refine .inr ⟨request, _, rfl, acts, Function.update cells self own, holds,
    fun _ isNew => shown.new_update loaded isNew, ?_, ?_⟩
  · intro notLoaded
    cases loaded.symm.trans notLoaded
  · intro _
    rw [shown.sees loaded, Function.update_self]

/-- A call of a loaded process is recorded. -/
theorem records_call
    {call : Call}
    (shown : ShowsAs self symrgtbl state view cells)
    (loaded : state.loaded proc = true)
    (permitted : Permitted self symrgtbl state (.call proc call rgnode count))
    (called : runCall self state proc rgnode count call = some next) :
    Records act (Shows self symrgtbl) State.requests view state next := by
  -- a call that is no request leaves the lists and the layout of the process alone
  have quiet : ∀ {after : Mem ι}, listing (after.mm self) ((cells self).map Prod.snd) =
      listing (state.mem.mm self) ((cells self).map Prod.snd) →
      Records act (Shows self symrgtbl) State.requests view state { state with mem := after } :=
    fun same => .inl ⟨rfl, cells, shown.holds, shown.new, shown.before, fun isLoaded => by
      rw [shown.sees isLoaded, same]⟩
  cases call with
  | memmap a1 a2 a3 =>
      simp only [runCall, Option.bind_eq_bind, Option.bind_eq_some_iff, Option.some.injEq]
        at called
      obtain ⟨after, ran, rfl⟩ := called
      exact quiet (congrArg (listing · _) (runCall_others ran (Ne.symm permitted)))
  | inst inst =>
      cases inst with
      | alloc size regIndex =>
          simp only [runCall, Option.bind_eq_bind, Option.bind_eq_some_iff, Option.some.injEq]
            at called
          obtain ⟨⟨nodes, mem, addr⟩, allocated, rfl⟩ := called
          obtain ⟨own, after, holds, granted, isSettled, others⟩ :=
            alloc_simulates shown.holds permitted allocated
          by_cases isSelf : proc = self
          · subst isSelf
            refine shown.request holds loaded ?_
            rw [act, shown.sees loaded, granted, Option.map_some]
            dsimp only
            rw [isSettled]
          · rw [record_of_ne isSelf]
            exact .inl ⟨rfl, _, shown.other holds loaded isSelf
              (others self (Ne.symm isSelf))⟩
      | free regIndex =>
          simp only [runCall, Option.bind_eq_bind, Option.bind_eq_some_iff, Option.some.injEq]
            at called
          obtain ⟨nodes, freed, rfl⟩ := called
          obtain ⟨own, after, holds, granted, isSettled⟩ := free_simulates shown.holds freed
          by_cases isSelf : proc = self
          · subst isSelf
            refine shown.request holds loaded ?_
            rw [act, shown.sees loaded, granted, Option.map_some, isSettled, List.append_nil]
          · rw [record_of_ne isSelf]
            exact .inl ⟨rfl, _, shown.other holds loaded isSelf rfl⟩
      | read source offset =>
          simp only [runCall, Option.bind_eq_bind, Option.bind_eq_some_iff, Option.some.injEq]
            at called
          obtain ⟨after, ran, rfl⟩ := called
          have reads : run state.mem proc (.read source offset) = some after := ran
          have same := run_read_regions reads
          exact quiet (listing_of_call ran (listing_congr same.mmap same.symrgtbl) self)
      | write data destination offset =>
          simp only [runCall, Option.bind_eq_bind, Option.bind_eq_some_iff, Option.some.injEq]
            at called
          obtain ⟨after, ran, rfl⟩ := called
          have writes : run state.mem proc (.write data destination offset) = some after := ran
          have same := run_write_regions writes
          exact quiet (listing_of_call ran (listing_congr same.mmap same.symrgtbl) self)

/-- A process that is not loaded after a load is not the one that was loaded. -/
theorem new_of_load
    {loaded : ι → Bool}
    {other : ι}
    (stillNew : Function.update loaded proc true other = false) :
    other ≠ proc ∧ loaded other = false := by
  have different : other ≠ proc := by
    rintro rfl
    rw [Function.update_self] at stillNew
    cases stillNew
  rw [Function.update_of_ne different] at stillNew
  exact ⟨different, stillNew⟩

/-- What a process sees changes by its requests only. -/
theorem recording (self : ι) (symrgtbl : Fin 30 → Region) :
    Recording (step self) (Permitted self symrgtbl) act (Shows self symrgtbl)
      State.requests := by
  rintro state event next view ⟨cells, shown⟩ permitted taken
  cases event with
  | load proc mm vmFreergList firstRg =>
      simp only [step] at taken
      split at taken
      · cases taken
      rename_i notLoaded
      have isNew := Bool.eq_false_iff.mpr notLoaded
      simp only [Option.bind_eq_bind, Option.bind_eq_some_iff, Option.some.injEq] at taken
      obtain ⟨nodes, initialised, rfl⟩ := taken
      have holds := shown.holds.initMm (shown.new proc isNew) initialised
      refine .inl ⟨rfl, _, holds, ?_, ?_, ?_⟩
      · intro other stillNew
        obtain ⟨notProc, wasNew⟩ := new_of_load stillNew
        rw [Function.update_of_ne notProc]
        exact shown.new other wasNew
      · intro stillNew
        exact shown.before (new_of_load stillNew).2
      · intro isLoaded
        by_cases isSelf : proc = self
        · subst isSelf
          obtain ⟨_, noAddrs, isView⟩ := shown.before isNew
          dsimp only
          rw [isView, noAddrs, Function.update_self, Mem.mm_setMm_self, loadedView]
          have table : mm.symrgtbl = symrgtbl := permitted rfl
          congr 1
          exact listing_congr rfl table.symm
        · have notProc := Ne.symm isSelf
          dsimp only at isLoaded ⊢
          rw [Function.update_of_ne notProc] at isLoaded ⊢
          rw [Mem.mm_setMm_of_ne _ _ notProc]
          exact shown.sees isLoaded
  | call proc call rgnode count =>
      simp only [step] at taken
      split at taken
      case isTrue loaded => exact records_call shown loaded permitted taken
      case isFalse => cases taken
  | reuse addr node =>
      simp only [step] at taken
      split at taken
      · cases taken
      rename_i notLive
      obtain rfl := Option.some.inj taken
      have absent := shown.holds.owned.notMem (Bool.eq_false_iff.mpr notLive)
      exact .inl ⟨rfl, cells, ⟨shown.holds.owned.assign absent node, shown.holds.counted⟩,
        shown.new, shown.before, shown.sees⟩

omit [DecidableEq ι] in
/-- At the start no process has a list, whatever the memory holds. -/
theorem Start.shows
    (start : Start state) :
    Shows self symrgtbl state (loadedView symrgtbl) := by
  refine ⟨fun _ => [], ⟨Owned.empty _ _ _, fun proc => (start.listed proc).symm⟩,
    fun _ _ => rfl, fun _ => ⟨start.requests, start.addrs, rfl⟩, fun loaded => ?_⟩
  cases (start.loaded self).symm.trans loaded

omit [DecidableEq ι] in
/-- What is seen of a loaded process. -/
theorem Shows.sees
    (shows : Shows self symrgtbl state view)
    (loaded : state.loaded self = true) :
    ∃ regions, FreeList state self regions ∧
      view = ⟨listing (state.mem.mm self) regions, state.addrs⟩ := by
  obtain ⟨cells, shown⟩ := shows
  obtain ⟨after, segment⟩ := shown.holds.owned.leads self
  exact ⟨_, ⟨cells self, after, segment, shown.holds.counted self, rfl⟩, shown.sees loaded⟩

/-- Two processes that are not loaded, a RAM of some size, and zeroed memory. -/
def zeroed (ram : Nat) : State (Fin 2) where
  nodes :=
    { heap := fun _ => some ⟨⟨0, 0⟩, none⟩
      live := fun _ => false
      vmFreergList := fun _ => none
      listed := fun _ => 0 }
  mem :=
    { mram := initMemphy ram true
      mswp := fun _ => initMemphy 1024 true
      pcb := fun _ => Pcb.fresh }
  loaded := fun _ => false
  requests := []
  addrs := []

theorem zeroed_start (ram : Nat) : Start (zeroed ram) :=
  ⟨fun _ => rfl, fun _ => rfl, rfl, rfl⟩

/-- The two processes. -/
def procA : Fin 2 := ⟨0, Nat.zero_lt_two⟩

def procB : Fin 2 := ⟨1, Nat.one_lt_two⟩

/-- A process is loaded into zeroed memory. -/
def loads (proc : Fin 2) (firstRg : Nat) : Event (Fin 2) := .load proc Mm.fresh none firstRg

/-- A process executes `ALLOC`. -/
def allocs (proc : Fin 2) (size regIndex rgnode : Nat) : Event (Fin 2) :=
  .call proc (.inst (.alloc size regIndex)) rgnode 5

/-- A process executes `FREE`. -/
def frees (proc : Fin 2) (regIndex rgnode : Nat) : Event (Fin 2) :=
  .call proc (.inst (.free regIndex)) rgnode 5

/-- The process A alone. -/
def alone : List (Event (Fin 2)) :=
  [loads procA 20, allocs procA 1 0 21, allocs procA 300 1 21, allocs procA 300 2 22]

/-- The process B has both frames of the RAM, and the node of the process A is in memory
that was used for something else. -/
def crowded : List (Event (Fin 2)) :=
  [loads procB 10, allocs procB 300 0 11, .reuse 21 (some ⟨⟨7, 900⟩, none⟩), loads procA 20,
    allocs procA 1 0 21, allocs procA 300 1 21, frees procB 0 12, allocs procA 300 2 22]

/-- The process B lists two nodes and takes the first of them, at 13, off again.  Then
`malloc` returns this node to the process A, whose list is empty. -/
def interleaved : List (Event (Fin 2)) :=
  [loads procA 20, allocs procA 1 0 21, loads procB 10, allocs procB 600 0 11, frees procB 0 12,
    allocs procB 200 1 14, frees procB 1 13, allocs procB 200 2 14, allocs procA 300 1 13,
    allocs procA 300 2 22]

/-- The process B alone, and one more request. -/
def aloneAgain : List (Event (Fin 2)) :=
  [loads procB 10, allocs procB 600 0 11, frees procB 0 12, allocs procB 200 1 14, frees procB 1 13,
    allocs procB 200 2 14, allocs procB 300 3 15]

/-- Both processes, and the same request. -/
def interleavedAgain : List (Event (Fin 2)) :=
  interleaved ++ [allocs procB 300 3 15]

/-- That region is missing in the list of the process B, all of whose own searches end on
its list: the condition has to be about the searches of the others too. -/
theorem layout_ne_of_other_search :
    ∃ last last' : State (Fin 2),
      replay (step procB) (zeroed 2048) aloneAgain = some last ∧
      replay (step procB) (zeroed 2048) interleavedAgain = some last' ∧
      last.requests = last'.requests ∧ last.addrs = [0, 0, 0, 200] ∧
      last'.addrs = [0, 0, 0, 768] := by
  obtain ⟨last, reaches, requests, addrs⟩ := exists_of_evaluated
    (show (replay (step procB) (zeroed 2048) aloneAgain).map (fun last =>
      decide (last.requests = [.alloc 600 0, .free 0, .alloc 200 1, .free 1, .alloc 200 2,
        .alloc 300 3] ∧ last.addrs = [0, 0, 0, 200])) = some true by decide +kernel)
  obtain ⟨last', reaches', requests', addrs'⟩ := exists_of_evaluated
    (show (replay (step procB) (zeroed 2048) interleavedAgain).map (fun last =>
      decide (last.requests = [.alloc 600 0, .free 0, .alloc 200 1, .free 1, .alloc 200 2,
        .alloc 300 3] ∧ last.addrs = [0, 0, 0, 768])) = some true by decide +kernel)
  exact ⟨last, last', reaches, reaches', requests.trans requests'.symm, addrs, addrs'⟩

end Leftovers

end Memory
end Ossim
