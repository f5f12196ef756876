import Mathlib.Tactic.Ring
import Ossim.Memory.Overlap
import Ossim.Memory.SymbolTable

/-!
# When the size of an allocation wraps around

`ALLOC` takes a size of type `uint32_t`, `__alloc` and `inc_vma_limit` take it as an
`int`, the limits of the area are `unsigned long`, and a page number has 14 bits.  No
function compares the new limit with the size of the address space, the refusal of a
growth is not reported, and the region is registered in any case.
-/

namespace Ossim
namespace Memory

open CInt Transition

namespace Sizes

variable {ι : Type} [DecidableEq ι] {mem mem' : Mem ι} {caller : ι}

/-! ## Which growths are refused -/

/-- A size rounded up to whole pages. -/
def rounded (size : Nat) : Nat := (size + 255) / 256 * 256

/-- The larger area ends inside the address space of 22 bits.  Unless the area is empty
or nothing is asked for, the product of the old limit and the increment, modulo 2^32, is
one of 1 to 2^31; for other products the growth is refused as an overlap. -/
def Fits (mm : Mm) (size : Nat) : Prop :=
  mm.mmap.sbrk + rounded size ≤ 2 ^ 22 ∧
    (mm.mmap.sbrk = 0 ∨ rounded size = 0 ∨
      1 ≤ mm.mmap.sbrk * rounded size % 2 ^ 32 ∧ mm.mmap.sbrk * rounded size % 2 ^ 32 ≤ 2 ^ 31)

theorem le_rounded (size : Nat) : size ≤ rounded size := by
  unfold rounded
  omega

theorem rounded_eq_mul (size : Nat) : rounded size / 256 * 256 = rounded size := by
  unfold rounded
  omega

/-- The first product of the area and its own growth is negative. -/
theorem not_across
    {sbrk amount : Nat}
    (bytes : 2 ≤ sbrk)
    (inSpace : sbrk + amount ≤ 2 ^ 22) :
    ¬ 0 ≤ toInt (Overlap.Vma.across ⟨1, 0, sbrk⟩ sbrk (sbrk + amount)) := by
  have negated : Overlap.Vma.across ⟨1, 0, sbrk⟩ sbrk (sbrk + amount) =
      -((sbrk : Int) + amount - 1) := by
    simp only [Overlap.Vma.across]
    push_cast
    ring
  rw [toInt_nonneg_iff, negated]
  omega

/-- The second product is minus the product of the old limit and the increment. -/
theorem within_iff
    {sbrk amount : Nat} :
    0 ≤ toInt (Overlap.Vma.within ⟨1, 0, sbrk⟩ sbrk (sbrk + amount)) ↔
      ¬ (1 ≤ sbrk * amount % 2 ^ 32 ∧ sbrk * amount % 2 ^ 32 ≤ 2 ^ 31) := by
  have negated : Overlap.Vma.within ⟨1, 0, sbrk⟩ sbrk (sbrk + amount) =
      -((sbrk * amount : Nat) : Int) := by
    simp only [Overlap.Vma.within]
    push_cast
    ring
  rw [toInt_nonneg_iff, negated]
  generalize sbrk * amount = product
  omega

/-- The overlap test for a growth inside the address space. -/
theorem validateOverlapVmArea_grow
    {mm : Mm}
    {amount : Nat}
    (atZero : mm.mmap.vmStart = 0)
    (area : AreaAligned mm)
    (inSpace : mm.mmap.sbrk + amount ≤ 2 ^ 22) :
    validateOverlapVmArea mm (toInt mm.mmap.sbrk)
        (toInt (toULong (mm.mmap.sbrk + (amount : Int)))) =
      some (if mm.mmap.sbrk = 0 ∨ 1 ≤ mm.mmap.sbrk * amount % 2 ^ 32 ∧
        mm.mmap.sbrk * amount % 2 ^ 32 ≤ 2 ^ 31 then 0 else -1) := by
  have aligned := area.aligned
  rw [← area.sbrk] at aligned
  have old : toInt mm.mmap.sbrk = mm.mmap.sbrk := toInt_of_mem (by omega) (by omega)
  have unsigned : (toULong (mm.mmap.sbrk + (amount : Int)) : Int) = mm.mmap.sbrk + amount :=
    toULong_of_mem (by omega) (by omega)
  have new : toInt (toULong (mm.mmap.sbrk + (amount : Int))) = mm.mmap.sbrk + amount := by
    rw [unsigned]
    exact toInt_of_mem (by omega) (by omega)
  have inRange : checked ((mm.mmap.sbrk : Int) + amount - 1) =
      some ((mm.mmap.sbrk : Int) + amount - 1) :=
    checked_eq_some_iff.mpr ⟨rfl, by omega, by omega⟩
  rw [old, new, Overlap.validateOverlapVmArea_mm, Overlap.validateOverlapVmArea_eq inRange, atZero,
    ← area.sbrk]
  by_cases empty : mm.mmap.sbrk = 0
  · simp [Overlap.compared, empty]
  · have different : (1 : Nat) ≠ toULong 0 := by decide
    have listed : Overlap.compared 0 [⟨1, 0, mm.mmap.sbrk⟩] = [⟨1, 0, mm.mmap.sbrk⟩] := by
      simp [Overlap.compared, different, Ne.symm empty]
    simp only [listed, List.mem_singleton, exists_eq_left, not_across (by omega) inSpace, false_or,
      within_iff, empty, ite_not]

/-- A growth inside the address space is by the rounded size, or refused. -/
theorem growth_grow
    {mm : Mm}
    {size : Nat}
    (missed : getFreeVmrgArea mm (toInt size) = some none)
    (atZero : mm.mmap.vmStart = 0)
    (area : AreaAligned mm)
    (inSpace : mm.mmap.sbrk + rounded size ≤ 2 ^ 22) :
    growth mm (toInt size) =
      if mm.mmap.sbrk = 0 ∨ 1 ≤ mm.mmap.sbrk * rounded size % 2 ^ 32 ∧
        mm.mmap.sbrk * rounded size % 2 ^ 32 ≤ 2 ^ 31 then
        some ((rounded size / 256 : Nat) : Int)
      else
        none := by
  have covers := le_rounded size
  have signed : toInt size = size := toInt_of_mem (by omega) (by omega)
  have amount : pagingPageAlignsz (size : Int) = some ((rounded size : Nat) : Int) := by
    refine pagingPageAlignsz_eq_some_iff.mpr ⟨by omega, by omega, ?_⟩
    rw [Int.tdiv_eq_ediv_of_nonneg (by omega), rounded]
    push_cast
    rfl
  have pages :
      ((rounded size : Nat) : Int).tdiv (pagingPagesz : Int) = (rounded size / 256 : Nat) := by
    rw [Int.tdiv_eq_ediv_of_nonneg (by omega), pagingPagesz]
    rfl
  rw [signed] at missed ⊢
  simp only [growth, missed, amount, Option.bind_eq_bind, Option.bind_some, Option.isSome_none,
    Bool.false_eq_true, if_false, validateOverlapVmArea_grow atZero area inSpace, pages]
  split <;> rfl

/-! ## The limits after an allocation -/

/-- `__alloc` without a fitting free region registers the region from the old limit on,
and the limits are those after the growth, whether the pages are mapped or not; a
refused growth leaves them. -/
theorem alloc_limits
    {rgid size rc : Int}
    {addr : Option Int}
    (missed : getFreeVmrgArea (mem.mm caller) size = some none)
    (allocated : alloc mem caller rgid size = some (rc, mem', addr)) :
    rc = 0 ∧ ∃ index : Fin 30, rgid = index.val ∧
      (mem'.mm caller).symrgtbl = Function.update (mem.mm caller).symrgtbl index
        ⟨toULong (toInt (mem.mm caller).mmap.sbrk),
          toULong (toInt (mem.mm caller).mmap.sbrk + size)⟩ ∧
      (mem'.mm caller).mmap.vmEnd =
        (growth (mem.mm caller) size).elim (mem.mm caller).mmap.vmEnd
          (grownEnd (mem.mm caller)) := by
  obtain ⟨rfl, index, slot, code, newEnd, middle, mm, grown, inRange, _, rest, rfl⟩ :=
    alloc_missed missed allocated
  obtain ⟨rfl, _, _⟩ := checked_eq_some_iff.mp inRange
  refine ⟨rfl, index, slot, ?_, ?_⟩
  · rw [Mem.mm_setMm_self, rest.sameTable.symrgtbl]
    have same : (middle.mm caller).symrgtbl = (mem.mm caller).symrgtbl := by
      rcases incVmaLimit_cases missed grown with ⟨_, rfl⟩ | ⟨pages, _, grows⟩
      · rfl
      · rw [grows.regions.symrgtbl, Mem.mm_setMm_self, Mm.setLimits_symrgtbl]
    rw [same]
  · rw [Mem.mm_setMm_self, rest.samePages.vmEnd]
    rcases incVmaLimit_cases missed grown with ⟨refused, rfl⟩ | ⟨pages, accepted, grows⟩
    · rw [refused, Option.elim_none]
    · rw [accepted, Option.elim_some, grows.regions.mmap, Mem.mm_setMm_self]
      rfl

/-- The new limit is at a page and leaves room for the size, inside the address space.
The new region and every region that ended below the old limit end below the new one,
and the page numbers from the old limit on are not wrapped around. -/
structure Sized (mm : Mm) (size : Nat) (rgid : Int) (mm' : Mm) : Prop where
  aligned : 256 ∣ mm'.mmap.vmEnd
  covers : mm.mmap.sbrk + size ≤ mm'.mmap.vmEnd
  inSpace : mm'.mmap.vmEnd ≤ 2 ^ 22
  below : ∀ index : Fin 30, rgid = index.val ∨ (mm.symrgtbl index).rgEnd ≤ mm.mmap.vmEnd →
    (mm'.symrgtbl index).rgEnd ≤ mm'.mmap.vmEnd
  pages : ∀ page, page < (mm'.mmap.vmEnd - mm.mmap.vmEnd) / 256 →
    (pagingPgn (toInt mm.mmap.vmEnd + page * 256)).val = mm.mmap.vmEnd / 256 + page

/-- The call fails and leaves the limits and the symbol table, or the size does not
wrap around. -/
def NeverWraps (mm : Mm) (size : Nat) (rgid rc : Int) (mm' : Mm) : Prop :=
  (rc ≠ 0 ∧ mm'.mmap.sbrk = mm.mmap.sbrk ∧ mm'.mmap.vmEnd = mm.mmap.vmEnd ∧
      mm'.symrgtbl = mm.symrgtbl) ∨
    Sized mm size rgid mm'

/-- The limit after a growth that fits. -/
theorem limit_of_fits
    {mm : Mm}
    {size : Nat}
    (missed : getFreeVmrgArea mm (toInt size) = some none)
    (atZero : mm.mmap.vmStart = 0)
    (area : AreaAligned mm)
    (fits : Fits mm size) :
    (growth mm (toInt size)).elim mm.mmap.vmEnd (grownEnd mm) = mm.mmap.sbrk + rounded size := by
  obtain ⟨inSpace, notRefused⟩ := fits
  rw [growth_grow missed atZero area inSpace]
  split
  · have whole := rounded_eq_mul size
    rw [Option.elim_some, grownEnd,
      show ((mm.mmap.sbrk : Int) + (rounded size / 256 : Nat) * 256) =
        ((mm.mmap.sbrk + rounded size : Nat) : Int) by omega, toULong_natCast]
    omega
  · rename_i refused
    have nothing : rounded size = 0 := by
      rcases notRefused with empty | nothing | kept
      · exact absurd (.inl empty) refused
      · exact nothing
      · exact absurd (.inr kept) refused
    rw [Option.elim_none, nothing, area.sbrk, Nat.add_zero]

/-- A size that the new limit leaves room for, inside the address space, fits. -/
theorem fits_of_limit
    {mm : Mm}
    {size newEnd : Nat}
    (missed : getFreeVmrgArea mm (toInt size) = some none)
    (atZero : mm.mmap.vmStart = 0)
    (area : AreaAligned mm)
    (limit : newEnd = (growth mm (toInt size)).elim mm.mmap.vmEnd (grownEnd mm))
    (covers : mm.mmap.sbrk + size ≤ newEnd)
    (inSpace : newEnd ≤ 2 ^ 22) :
    Fits mm size := by
  have aligned := area.aligned
  rw [← area.sbrk] at aligned
  cases grows : growth mm (toInt size) with
  | none =>
      rw [grows, Option.elim_none, ← area.sbrk] at limit
      have nothing : rounded size = 0 := by
        unfold rounded
        omega
      exact ⟨by omega, .inr (.inl nothing)⟩
  | some pages =>
      have signed : toInt size = size := toInt_of_mem (by omega) (by omega)
      rw [grows, Option.elim_some, grownEnd, (growth_bounds grows).1, signed,
        Int.tdiv_eq_ediv_of_nonneg (by omega)] at limit
      have inSpace : mm.mmap.sbrk + rounded size ≤ 2 ^ 22 := by
        unfold rounded
        unfold toULong at limit
        omega
      rw [growth_grow missed atZero area inSpace] at grows
      refine ⟨inSpace, ?_⟩
      split at grows
      · rename_i accepted
        exact accepted.imp_right .inr
      · cases grows

/-- The new region and those that ended below the old limit end below the new one. -/
theorem below_of_limit
    {mm mm' : Mm}
    {size : Nat}
    {index other : Fin 30}
    (area : AreaAligned mm)
    (registered : mm'.symrgtbl = Function.update mm.symrgtbl index
      ⟨toULong (toInt mm.mmap.sbrk), toULong (toInt mm.mmap.sbrk + toInt size)⟩)
    (limit : mm'.mmap.vmEnd = mm.mmap.sbrk + rounded size)
    (inSpace : mm.mmap.sbrk + rounded size ≤ 2 ^ 22)
    (below : index = other ∨ (mm.symrgtbl other).rgEnd ≤ mm.mmap.vmEnd) :
    (mm'.symrgtbl other).rgEnd ≤ mm'.mmap.vmEnd := by
  have covers := le_rounded size
  rw [registered, limit]
  by_cases new : other = index
  · subst new
    have signed : toInt size = size := toInt_of_mem (by omega) (by omega)
    have old : toInt mm.mmap.sbrk = mm.mmap.sbrk := toInt_of_mem (by omega) (by omega)
    rw [Function.update_self, signed, old,
      show ((mm.mmap.sbrk : Int) + size) = ((mm.mmap.sbrk + size : Nat) : Int) by omega]
    simp only [toULong_natCast]
    omega
  · have oldBelow := below.resolve_left (Ne.symm new)
    rw [← area.sbrk] at oldBelow
    rw [Function.update_of_ne new]
    omega

/-- The page numbers of an area inside the address space are not wrapped around. -/
theorem pagingPgn_of_limit
    {mm : Mm}
    {newEnd page : Nat}
    (area : AreaAligned mm)
    (inSpace : newEnd ≤ 2 ^ 22)
    (added : page < (newEnd - mm.mmap.vmEnd) / 256) :
    (pagingPgn (toInt mm.mmap.vmEnd + page * 256)).val = mm.mmap.vmEnd / 256 + page := by
  have aligned := area.aligned
  rw [toInt_of_mem (by omega) (by omega),
    show ((mm.mmap.vmEnd : Int) + page * 256) = ((mm.mmap.vmEnd + page * 256 : Nat) : Int) by omega,
    pagingPgn_natCast_val]
  omega

/-- In every reachable state, an `ALLOC` that a growth of the area serves keeps its size
exactly if it fits. -/
theorem neverWraps_iff_fits
    {first mem mem' : Mem ι}
    {caller : ι}
    {size regIndex : Nat}
    {rc : Int}
    (start : ∀ proc, ∃ mm, first.mm proc = initMm mm)
    (reached : Run callStep anyEvent first mem)
    (missed : getFreeVmrgArea (mem.mm caller) (toInt size) = some none)
    (allocated : liballoc mem caller size regIndex = some (rc, mem')) :
    NeverWraps (mem.mm caller) size (toInt regIndex) rc (mem'.mm caller) ↔
      Fits (mem.mm caller) size := by
  have area := areaAligned_of_run start reached caller
  have atZero := vmStart_of_run start reached caller
  simp only [liballoc, Option.bind_eq_bind, Option.bind_eq_some_iff, Option.some.injEq,
    Prod.mk.injEq] at allocated
  obtain ⟨⟨code, after, addr⟩, allocated, rfl, rfl⟩ := allocated
  dsimp only
  obtain ⟨rfl, index, slot, registered, limit⟩ := alloc_limits missed allocated
  constructor
  · rintro (⟨failed, _⟩ | ⟨_, covers, inSpace, _, _⟩)
    · exact absurd rfl failed
    · exact fits_of_limit missed atZero area limit covers inSpace
  · intro fits
    rw [limit_of_fits missed atZero area fits] at limit
    obtain ⟨inSpace, _⟩ := fits
    have aligned := area.aligned
    rw [← area.sbrk] at aligned
    have covers := le_rounded size
    have whole := rounded_eq_mul size
    refine .inr ⟨by omega, by omega, by omega, ?below, ?pages⟩
    case below =>
      intro other below
      refine below_of_limit area registered limit inSpace (below.imp_left fun same => ?_)
      exact Fin.ext (by omega)
    case pages =>
      intro page added
      exact pagingPgn_of_limit area (by omega) added

theorem missed_of_isSome
    {mm : Mm}
    {size : Int}
    (searched : (getFreeVmrgArea mm size).map Option.isSome = some false) :
    getFreeVmrgArea mm size = some none := by
  obtain ⟨found, result, missed⟩ := Option.map_eq_some_iff.mp searched
  rw [result, Option.isSome_eq_false_iff, Option.isNone_iff_eq_none] at *
  rw [missed]

/-- The first `ALLOC` of a process asks for 300 bytes. -/
theorem neverWraps_iff_fits_twoFrames :
    ∃ after, liballoc twoFrames 0 300 0 = some (0, after) ∧
      (NeverWraps (twoFrames.mm 0) 300 (toInt (0 : Nat)) 0 (after.mm 0) ↔
        Fits (twoFrames.mm 0) 300) := by
  obtain ⟨⟨rc, after⟩, allocated, rfl⟩ := Option.map_eq_some_iff.mp
    (show (liballoc twoFrames 0 300 0).map (·.1) = some 0 by decide +kernel)
  exact ⟨after, allocated, neverWraps_iff_fits (fun _ => ⟨_, rfl⟩) (Run.refl twoFrames)
    (missed_of_isSome (by decide +kernel)) allocated⟩

/-- The first `ALLOC` of a process asks for 2^32 - 1 bytes, and the region reaches
above the area.  And 64 KiB are refused after 64 KiB, although there is room, but the
region is registered. -/
theorem sizes_wrap :
    (∃ after, liballoc twoFrames 0 4294967295 0 = some (0, after) ∧
      ¬ NeverWraps (twoFrames.mm 0) 4294967295 (toInt (0 : Nat)) 0 (after.mm 0)) ∧
      ∃ before after, replay callStep twoFrames [⟨0, .inst (.alloc 65536 0)⟩] = some before ∧
        getFreeVmrgArea (before.mm 0) (toInt (65536 : Nat)) = some none ∧
        liballoc before 0 65536 1 = some (0, after) ∧
        ¬ NeverWraps (before.mm 0) 65536 (toInt (1 : Nat)) 0 (after.mm 0) := by
  constructor
  · obtain ⟨⟨rc, after⟩, allocated, evaluated⟩ := Option.map_eq_some_iff.mp
      (show (liballoc twoFrames 0 4294967295 0).map (fun result =>
        decide (result.1 = 0 ∧ (result.2.mm 0).mmap.vmEnd = 0)) = some true by decide +kernel)
    obtain ⟨rfl, limit⟩ := of_decide_eq_true evaluated
    refine ⟨after, allocated, ?_⟩
    rintro (⟨failed, _⟩ | ⟨_, covers, _, _, _⟩)
    · exact failed rfl
    · rw [limit] at covers
      omega
  · obtain ⟨before, reaches, missed, evaluated⟩ := exists_of_evaluated
      (show (replay callStep twoFrames [⟨0, .inst (.alloc 65536 0)⟩]).map (fun before =>
        decide ((getFreeVmrgArea (before.mm 0) (toInt (65536 : Nat))).map Option.isSome =
            some false ∧
          (liballoc before 0 65536 1).map (fun result => decide (result.1 = 0 ∧
            (result.2.mm 0).mmap.vmEnd = 65536 ∧ (before.mm 0).mmap.sbrk = 65536)) =
              some true)) = some true by decide +kernel)
    obtain ⟨⟨rc, after⟩, allocated, evaluated⟩ := Option.map_eq_some_iff.mp evaluated
    obtain ⟨rfl, limit, old⟩ := of_decide_eq_true evaluated
    refine ⟨before, after, reaches, missed_of_isSome missed, allocated, ?_⟩
    rintro (⟨failed, _⟩ | ⟨_, covers, _, _, _⟩)
    · exact failed rfl
    · rw [limit, old] at covers
      omega

end Sizes
end Memory
end Ossim
