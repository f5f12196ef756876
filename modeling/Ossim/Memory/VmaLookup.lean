import Ossim.Memory.InitMm
import Ossim.Memory.Syscall

/-!
# Looking up an area in a list of any length

The loop of `get_vma_by_num` tests its pointer, moves it on and then reads the number of
the area behind the new pointer without a second test.  A number beyond the last area makes
it read through `NULL`.  The numbers are compared as `int`, so an area whose number
does not fit may be passed over.
-/

namespace Ossim
namespace Memory
namespace VmaLookup

open CInt LinkedList

/-- How far a call has come.  A read through `NULL`, or through a pointer to no area, is
undefined behaviour. -/
inductive Outcome where
  | running
  | invalidRead
  | returned (pvma : Option Nat)
  deriving DecidableEq

/-- The loop of `get_vma_by_num`, for a number of tests of its condition. -/
def getVmaLoop (areas : Heap AreaFields) (vmaid : Int) : Nat → Option Nat → Int → Outcome
  | 0, _, _ => .running
  | tests + 1, pvma, vmait =>
      if vmait < vmaid then
        match pvma with
        | none => .returned none
        | some addr =>
            match areas addr with
            | none => .invalidRead
            | some node =>
                -- the new pointer is not tested before its area is read
                match node.next.bind areas with
                | none => .invalidRead
                | some following =>
                    getVmaLoop areas vmaid tests node.next (toInt following.value.vmId)
      else
        .returned pvma

/-- `get_vma_by_num`, for a number of tests of the condition of its loop. -/
def getVmaByNum (areas : Heap AreaFields) (mmap : Option Nat) (vmaid : Int) (tests : Nat) :
    Outcome :=
  if mmap = none then
    .returned none
  else
    match mmap.bind areas with
    | none => .invalidRead
    | some node => getVmaLoop areas vmaid tests mmap (toInt node.value.vmId)

/-- The first area with at least the number. -/
def firstAtLeast (vmaid : Int) (cells : List (Cell AreaFields)) : Option (Cell AreaFields) :=
  cells.find? fun cell => vmaid ≤ cell.2.vmId

/-- The call comes to its end without an invalid read, and returns the first area with at
least the number. -/
def LooksUp
    (areas : Heap AreaFields)
    (mmap : Option Nat)
    (cells : List (Cell AreaFields))
    (vmaid : Int) : Prop :=
  ∃ tests, getVmaByNum areas mmap vmaid tests =
    .returned ((firstAtLeast vmaid cells).map Prod.fst)

/-- What the loop makes of the areas from its pointer on. -/
def scan (vmaid : Int) : List (Cell AreaFields) → Outcome
  | [] => .invalidRead
  | cell :: cells => if toInt cell.2.vmId < vmaid then scan vmaid cells else .returned cell.1

variable {areas : Heap AreaFields} {pvma mmap : Option Nat} {vmaid : Int}
  {cell : Cell AreaFields} {cells : List (Cell AreaFields)}

/-! ## The loop and the list -/

/-- With one test for each area the loop has come to its end, and with fewer it has or is
still running. -/
theorem getVmaLoop_cases
    (linked : Linked areas pvma (cell :: cells))
    (tests : Nat) :
    getVmaLoop areas vmaid tests pvma (toInt cell.2.vmId) = scan vmaid (cell :: cells) ∨
      tests ≤ cells.length ∧
        getVmaLoop areas vmaid tests pvma (toInt cell.2.vmId) = .running := by
  induction cells generalizing tests pvma cell with
  | nil =>
      obtain ⟨rfl, next, node, rest⟩ := linked
      obtain rfl : next = none := rest
      cases tests with
      | zero => exact .inr ⟨Nat.le_refl 0, rfl⟩
      | succ tests =>
          refine .inl ?_
          simp only [getVmaLoop, scan, node, Option.bind_none]
  | cons second cells inductionHypothesis =>
      obtain ⟨rfl, next, node, rest⟩ := linked
      obtain ⟨here, after, secondNode, _⟩ := id rest
      cases tests with
      | zero => exact .inr ⟨Nat.zero_le _, rfl⟩
      | succ tests =>
          have follows : next.bind areas = some ⟨second.2, after⟩ := by
            rw [here]
            exact secondNode
          rw [getVmaLoop, scan]
          split
          · simp only [node, follows]
            rcases inductionHypothesis rest tests with ended | ⟨few, running⟩
            · exact .inl ended
            · exact .inr ⟨Nat.succ_le_succ few, running⟩
          · exact .inl rfl

/-- The same for the call. -/
theorem getVmaByNum_cases
    (linked : Linked areas mmap (cell :: cells))
    (tests : Nat) :
    getVmaByNum areas mmap vmaid tests = scan vmaid (cell :: cells) ∨
      tests ≤ cells.length ∧ getVmaByNum areas mmap vmaid tests = .running := by
  obtain ⟨here, next, node, _⟩ := id linked
  have opened : getVmaByNum areas mmap vmaid tests =
      getVmaLoop areas vmaid tests mmap (toInt cell.2.vmId) := by
    simp [getVmaByNum, here, node]
  rw [opened]
  exact getVmaLoop_cases linked tests

/-- The call ends. -/
theorem getVmaByNum_ends (linked : Linked areas mmap (cell :: cells)) :
    getVmaByNum areas mmap vmaid (cells.length + 1) = scan vmaid (cell :: cells) := by
  rcases getVmaByNum_cases linked (cells.length + 1) with ended | ⟨few, _⟩
  · exact ended
  · exact absurd few (Nat.not_succ_le_self _)

/-- The call looks up the area if and only if the scan finds it. -/
theorem looksUp_iff_scan (linked : Linked areas mmap (cell :: cells)) :
    LooksUp areas mmap (cell :: cells) vmaid ↔
      scan vmaid (cell :: cells) =
        .returned ((firstAtLeast vmaid (cell :: cells)).map Prod.fst) := by
  constructor
  · rintro ⟨tests, looked⟩
    rcases getVmaByNum_cases linked tests with ended | ⟨_, running⟩
    · rw [← ended, looked]
    · cases running.symm.trans looked
  · intro found
    exact ⟨cells.length + 1, (getVmaByNum_ends linked).trans found⟩

/-! ## The scan and the first area -/

/-- A conversion to `int` makes no number larger. -/
theorem toInt_le (value : Nat) : toInt value ≤ value := by
  rw [toInt, Int.bmod_def]
  split <;> omega

theorem mem_of_firstAtLeast
    {first : Cell AreaFields}
    (isFirst : firstAtLeast vmaid cells = some first) :
    first ∈ cells ∧ vmaid ≤ first.2.vmId := by
  rw [firstAtLeast] at isFirst
  have atLeast := List.find?_some isFirst
  simp only [decide_eq_true_eq] at atLeast
  exact ⟨List.mem_of_find?_eq_some isFirst, atLeast⟩

/-- The scan returns an area of the list. -/
theorem mem_of_scan
    {found : Option Nat}
    (returned : scan vmaid cells = .returned found) :
    ∃ addr ∈ cells.map Prod.fst, found = some addr := by
  induction cells with
  | nil => cases returned
  | cons cell cells inductionHypothesis =>
      rw [scan] at returned
      split at returned
      · obtain ⟨addr, member, isFound⟩ := inductionHypothesis returned
        exact ⟨addr, List.mem_cons_of_mem _ member, isFound⟩
      · cases returned
        exact ⟨cell.1, List.mem_cons_self .., rfl⟩

/-- The scan finds the first area with at least the number if there is one and its number
is still one of these as an `int`. -/
theorem scan_eq_iff (distinct : (cells.map Prod.fst).Nodup) :
    scan vmaid cells = .returned ((firstAtLeast vmaid cells).map Prod.fst) ↔
      ∃ first ∈ firstAtLeast vmaid cells, vmaid ≤ toInt first.2.vmId := by
  induction cells with
  | nil => simp [scan, firstAtLeast]
  | cons cell cells inductionHypothesis =>
      obtain ⟨absent, distinct⟩ := List.nodup_cons.mp distinct
      have bounded := toInt_le cell.2.vmId
      by_cases passed : toInt cell.2.vmId < vmaid
      · rw [scan, if_pos passed]
        by_cases enough : vmaid ≤ cell.2.vmId
        · -- passed over as an `int`: no later area has the same address
          have isFirst : firstAtLeast vmaid (cell :: cells) = some cell := by
            simp [firstAtLeast, enough]
          rw [isFirst]
          constructor
          · intro returned
            obtain ⟨addr, member, same⟩ := mem_of_scan returned
            obtain rfl : cell.1 = addr := Option.some.inj same
            exact absurd member absent
          · rintro ⟨_, ⟨⟩, isInt⟩
            omega
        · have skipped : firstAtLeast vmaid (cell :: cells) = firstAtLeast vmaid cells := by
            simp [firstAtLeast, enough]
          rw [skipped]
          exact inductionHypothesis distinct
      · have isFirst : firstAtLeast vmaid (cell :: cells) = some cell := by
          have enough : vmaid ≤ cell.2.vmId := by omega
          simp [firstAtLeast, enough]
        rw [scan, if_neg passed, isFirst]
        constructor
        · intro _
          exact ⟨cell, rfl, by omega⟩
        · intro _
          rfl

/-- Beyond all areas the scan ends with an invalid read. -/
theorem scan_of_beyond
    (beyond : ∀ cell ∈ cells, (cell.2.vmId : Int) < vmaid) :
    scan vmaid cells = .invalidRead := by
  induction cells with
  | nil => rfl
  | cons cell cells inductionHypothesis =>
      have passed : toInt cell.2.vmId < vmaid :=
        Int.lt_of_le_of_lt (toInt_le _) (beyond cell (List.mem_cons_self ..))
      rw [scan, if_pos passed]
      exact inductionHypothesis fun other member => beyond other (List.mem_cons_of_mem _ member)

theorem looksUp_nil (linked : Linked areas mmap []) :
    LooksUp areas mmap [] vmaid := by
  obtain rfl : mmap = none := linked
  exact ⟨0, rfl⟩

/-- On a list with an area the call is right if and only if it stops at the first area with
at least the number. -/
theorem looksUp_cons_iff (linked : Linked areas mmap (cell :: cells)) :
    LooksUp areas mmap (cell :: cells) vmaid ↔
      ∃ first ∈ firstAtLeast vmaid (cell :: cells), vmaid ≤ toInt first.2.vmId :=
  (looksUp_iff_scan linked).trans (scan_eq_iff linked.nodup)

/-! ## The call -/

/-- The call is right on the empty list, and where an area has at least the number and the
first such area has it as an `int`. -/
theorem looksUp_iff (linked : Linked areas mmap cells) :
    LooksUp areas mmap cells vmaid ↔
      cells = [] ∨ ∃ first ∈ firstAtLeast vmaid cells, vmaid ≤ toInt first.2.vmId := by
  cases cells with
  | nil => exact iff_of_true (looksUp_nil linked) (.inl rfl)
  | cons cell cells =>
      rw [looksUp_cons_iff linked]
      simp

/-- The area of a new address space has the number 1. -/
theorem looksUp_iff_initMm :
    LooksUp (blankMemory.initMm blankMm usedBlocks).1.areas (some 64)
      [(64, newArea usedBlocks)] 1 :=
  (looksUp_iff ((linked_areas blankMemory blankMm usedBlocks).mpr ⟨rfl, rfl⟩)).mpr
    (.inr ⟨_, rfl, by decide⟩)

/-- The number 2 is beyond the area of a new address space, and the call does not return
`NULL`. -/
theorem looksUp_beyond :
    ¬ ∀ (areas : Heap AreaFields) (mmap : Option Nat) (cells : List (Cell AreaFields))
      (vmaid : Int), Linked areas mmap cells →
      cells.Pairwise (fun earlier later => earlier.2.vmId < later.2.vmId) →
      0 ≤ vmaid → vmaid < 2 ^ 31 → LooksUp areas mmap cells vmaid := by
  intro looksUp
  have linked := (linked_areas blankMemory blankMm usedBlocks).mpr ⟨rfl, rfl⟩
  have two := looksUp _ _ _ 2 linked (List.pairwise_singleton _ _) (by decide) (by decide)
  obtain ⟨first, isFirst, _⟩ := (looksUp_cons_iff linked).mp two
  cases isFirst

/-- Where all numbers are `int`s the call is right if and only if some area has at least
the number, or there is no area. -/
theorem looksUp_iff_of_ints
    (linked : Linked areas mmap cells)
    (ints : ∀ cell ∈ cells, cell.2.vmId < 2 ^ 31) :
    LooksUp areas mmap cells vmaid ↔
      cells = [] ∨ ∃ cell ∈ cells, vmaid ≤ cell.2.vmId := by
  cases cells with
  | nil => exact iff_of_true (looksUp_nil linked) (.inl rfl)
  | cons cell cells =>
      rw [looksUp_cons_iff linked]
      simp only [reduceCtorEq, false_or]
      constructor
      · rintro ⟨first, isFirst, isInt⟩
        exact ⟨first, (mem_of_firstAtLeast isFirst).1, isInt.trans (toInt_le _)⟩
      · rintro ⟨other, member, enough⟩
        have found : (firstAtLeast vmaid (cell :: cells)).isSome := by
          rw [firstAtLeast, List.find?_isSome]
          exact ⟨other, member, decide_eq_true enough⟩
        obtain ⟨first, isFirst⟩ := Option.isSome_iff_exists.mp found
        obtain ⟨listed, atLeast⟩ := mem_of_firstAtLeast isFirst
        have isInt := ints first listed
        refine ⟨first, isFirst, ?_⟩
        rw [toInt_of_mem (by omega) (by omega)]
        exact atLeast

/-- A number beyond all areas is looked up with a read through `NULL`. -/
theorem getVmaByNum_of_beyond
    (linked : Linked areas mmap (cell :: cells))
    (beyond : ∀ other ∈ cell :: cells, (other.2.vmId : Int) < vmaid) :
    getVmaByNum areas mmap vmaid (cells.length + 1) = .invalidRead :=
  (getVmaByNum_ends linked).trans (scan_of_beyond beyond)

/-! ## The one area of a process -/

/-- On the list that `init_mm` makes, the call is the function on one area of the other
modules. -/
theorem getVmaByNum_initMm
    (memory : RawMemory)
    (raw : MmStruct)
    (blocks : Blocks)
    (mm : Mm)
    (vmaid : Int) :
    getVmaByNum (memory.initMm raw blocks).1.areas (memory.initMm raw blocks).2.mmap vmaid 1 =
      match Memory.getVmaByNum mm vmaid with
      | none => .invalidRead
      | some _ => .returned (some blocks.vma0) := by
  have linked := (linked_areas memory raw blocks).mpr ⟨rfl, rfl⟩
  have ends : getVmaByNum (memory.initMm raw blocks).1.areas (memory.initMm raw blocks).2.mmap
      vmaid 1 = scan vmaid [(blocks.vma0, newArea blocks)] :=
    getVmaByNum_ends linked
  have one : toInt (1 : Nat) = vmId := by decide
  have number : toInt (newArea blocks).vmId = vmId := one
  rw [ends, scan, number, Memory.getVmaByNum]
  split <;> rfl

/-- `SYSCALL 17` with `SYSMEM_INC_OP` and a number above 1 in the second operand is
undefined behaviour, whatever the third one is. -/
theorem sysMemmapRegs_beyond
    {ι : Type}
    [DecidableEq ι]
    (mem : Mem ι)
    (caller : ι)
    {a1 a2 : Nat}
    (isIncOp : toInt a1 = sysmemIncOp)
    (beyond : vmId < toInt a2)
    (a3 : Nat) :
    sysMemmapRegs mem caller a1 a2 a3 = none := by
  have missing : Memory.getVmaByNum (mem.mm caller) (toInt a2) = none := if_pos beyond
  simp [sysMemmapRegs, isIncOp, incVmaLimitById, missing]

end VmaLookup
end Memory
end Ossim
