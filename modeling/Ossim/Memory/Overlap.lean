import Mathlib.Algebra.Order.Ring.Abs
import Ossim.Memory.Growth

/-!
# The test for overlaps

`validate_overlap_vm_area` over a list of areas.  An area is compared with the
planned one by the signs of two products of unsigned differences, of which only
the lower half is looked at.  As integers the products have the right signs; the
test is exact where their lower halves have these signs too.
-/

namespace Ossim
namespace Memory

open CInt

namespace Overlap

/-- The fields of `struct vm_area_struct` that are compared. -/
structure Vma where
  vmId : Nat
  vmStart : Nat
  vmEnd : Nat
  deriving DecidableEq

/-- `validate_overlap_vm_area`, for the areas from the current one on. -/
def validateOverlapVmArea (vmaid vmastart vmaend : Int) : List Vma → Option Int
  | [] => some 0
  | vma :: vmNext =>
      if vma.vmId ≠ toULong vmaid ∧ vma.vmStart ≠ vma.vmEnd then do
        let vmalast ← checked (vmaend - 1)
        if toInt (toULong (toULong (vmalast - vma.vmStart) *
            toULong (vma.vmEnd - 1 - vmastart))) ≥ 0 then
          some (-1)
        else if toInt (toULong (toULong (vmastart - vma.vmStart) *
            toULong (vma.vmEnd - vmaend))) ≥ 0 then
          some (-1)
        else
          validateOverlapVmArea vmaid vmastart vmaend vmNext
      else
        validateOverlapVmArea vmaid vmastart vmaend vmNext

/-- An address space asks about its only area, which has the `vm_id` 1, with the
number 0. -/
theorem validateOverlapVmArea_mm (mm : Mm) (vmastart vmaend : Int) :
    Memory.validateOverlapVmArea mm vmastart vmaend =
      validateOverlapVmArea 0 vmastart vmaend [⟨1, mm.mmap.vmStart, mm.mmap.vmEnd⟩] := by
  have different : (1 : Nat) ≠ toULong 0 := by decide
  simp only [Memory.validateOverlapVmArea, validateOverlapVmArea, toInt_toULong_mul, different,
    ne_eq, not_false_eq_true, true_and]

/-- The planned area and another one have a byte in common. -/
def Vma.Shares (vma : Vma) (vmastart vmaend : Int) : Prop :=
  ∃ byte : Int, (vma.vmStart ≤ byte ∧ byte < vma.vmEnd) ∧ vmastart ≤ byte ∧ byte < vmaend

/-- The first product. -/
def Vma.across (vma : Vma) (vmastart vmaend : Int) : Int :=
  (vmaend - 1 - vma.vmStart) * (vma.vmEnd - 1 - vmastart)

/-- The second product. -/
def Vma.within (vma : Vma) (vmastart vmaend : Int) : Int :=
  (vmastart - vma.vmStart) * (vma.vmEnd - vmaend)

/-- The areas that are compared: those with another number that have bytes. -/
def compared (vmaid : Int) (areas : List Vma) : List Vma :=
  areas.filter fun vma => vma.vmId ≠ toULong vmaid ∧ vma.vmStart ≠ vma.vmEnd

variable {vma : Vma} {areas : List Vma} {vmaid vmastart vmaend : Int}

/-- The test finds an area one of whose products has a lower half that is not
negative. -/
theorem validateOverlapVmArea_eq
    (inRange : checked (vmaend - 1) = some (vmaend - 1)) :
    validateOverlapVmArea vmaid vmastart vmaend areas =
      some (if ∃ vma ∈ compared vmaid areas, 0 ≤ toInt (vma.across vmastart vmaend) ∨
        0 ≤ toInt (vma.within vmastart vmaend) then -1 else 0) := by
  induction areas with
  | nil => simp [validateOverlapVmArea, compared]
  | cons vma areas inductionHypothesis =>
      rw [validateOverlapVmArea, inductionHypothesis]
      by_cases other : vma.vmId ≠ toULong vmaid ∧ vma.vmStart ≠ vma.vmEnd
      · have listed : compared vmaid (vma :: areas) = vma :: compared vmaid areas := by
          simp [compared, other]
        rw [if_pos other, inRange, Option.bind_eq_bind, Option.bind_some, toInt_toULong_mul,
          toInt_toULong_mul, listed,
          show (vmaend - 1 - vma.vmStart) * (vma.vmEnd - 1 - vmastart) =
            vma.across vmastart vmaend from rfl,
          show (vmastart - vma.vmStart) * (vma.vmEnd - vmaend) =
            vma.within vmastart vmaend from rfl]
        simp only [List.mem_cons, exists_eq_or_imp, ge_iff_le]
        by_cases across : 0 ≤ toInt (vma.across vmastart vmaend)
        · simp [across]
        · by_cases within : 0 ≤ toInt (vma.within vmastart vmaend)
          · simp [within]
          · simp [across, within]
      · have skipped : compared vmaid (vma :: areas) = compared vmaid areas := by
          simp only [compared, List.filter_cons, decide_eq_true_eq, other, if_false]
        rw [if_neg other, skipped]

/-- The areas overlap exactly when the first product is not negative, and the
second one is negative otherwise. -/
theorem Vma.shares_iff
    (bytes : vma.vmStart < vma.vmEnd)
    (planned : vmastart < vmaend) :
    (vma.Shares vmastart vmaend ↔ 0 ≤ vma.across vmastart vmaend) ∧
      (¬ vma.Shares vmastart vmaend → vma.within vmastart vmaend < 0) := by
  have shares : vma.Shares vmastart vmaend ↔ vma.vmStart < vmaend ∧ vmastart < vma.vmEnd := by
    constructor
    · rintro ⟨byte, inArea, inPlanned⟩
      omega
    · rintro ⟨before, behind⟩
      exact ⟨max vma.vmStart vmastart, by omega, by omega⟩
  rw [shares, Vma.across, Vma.within]
  refine ⟨⟨fun overlap => mul_nonneg (by omega) (by omega), fun positive => ?_⟩, fun apart => ?_⟩
  · by_contra apart
    rcases (by omega : vmaend ≤ vma.vmStart ∨ (vma.vmEnd : Int) ≤ vmastart) with below | above
    · exact absurd positive (not_le.mpr (mul_neg_of_neg_of_pos (by omega) (by omega)))
    · exact absurd positive (not_le.mpr (mul_neg_of_pos_of_neg (by omega) (by omega)))
  · rcases (by omega : vmaend ≤ vma.vmStart ∨ (vma.vmEnd : Int) ≤ vmastart) with below | above
    · exact mul_neg_of_neg_of_pos (by omega) (by omega)
    · exact mul_neg_of_pos_of_neg (by omega) (by omega)

/-- The result is -1 if another area with bytes overlaps, and 0 otherwise. -/
def Exact (areas : List Vma) (vmaid vmastart vmaend : Int) : Prop :=
  ∃ rc, validateOverlapVmArea vmaid vmastart vmaend areas = some rc ∧
    (rc = -1 ↔ ∃ vma ∈ areas, vma.vmId ≠ toULong vmaid ∧ vma.vmStart < vma.vmEnd ∧
      vma.Shares vmastart vmaend) ∧
    (rc ≠ -1 → rc = 0)

/-- The lower half of a product is negative. -/
def NegativeHalf (product : Int) : Prop := 2 ^ 31 ≤ product % 2 ^ 32

/-- Where the first products are all negative, as for areas that do not overlap, the
lower halves of all products are negative; where one is not, some product has a lower
half that is not negative. -/
def SignsKept (areas : List Vma) (vmaid vmastart vmaend : Int) : Prop :=
  ((∀ vma ∈ compared vmaid areas, vma.across vmastart vmaend < 0) →
      ∀ vma ∈ compared vmaid areas, NegativeHalf (vma.across vmastart vmaend) ∧
        NegativeHalf (vma.within vmastart vmaend)) ∧
    ((∃ vma ∈ compared vmaid areas, 0 ≤ vma.across vmastart vmaend) →
      ∃ vma ∈ compared vmaid areas, ¬ NegativeHalf (vma.across vmastart vmaend) ∨
        ¬ NegativeHalf (vma.within vmastart vmaend))

theorem not_negativeHalf_iff
    {product : Int} :
    ¬ NegativeHalf product ↔ 0 ≤ toInt product := by
  rw [toInt_nonneg_iff, NegativeHalf]
  omega

theorem mem_compared
    (ordered : ∀ vma ∈ areas, vma.vmStart ≤ vma.vmEnd ∧ vma.vmEnd ≤ 2 ^ 22) :
    vma ∈ compared vmaid areas ↔
      vma ∈ areas ∧ vma.vmId ≠ toULong vmaid ∧ vma.vmStart < vma.vmEnd := by
  simp only [compared, List.mem_filter, decide_eq_true_eq, and_congr_right_iff]
  intro listed _
  have := ordered vma listed
  omega

/-- An area overlaps exactly when a compared one has a first product that is not
negative. -/
theorem shares_iff_across
    (ordered : ∀ vma ∈ areas, vma.vmStart ≤ vma.vmEnd ∧ vma.vmEnd ≤ 2 ^ 22)
    (planned : vmastart < vmaend) :
    (∃ vma ∈ areas, vma.vmId ≠ toULong vmaid ∧ vma.vmStart < vma.vmEnd ∧
        vma.Shares vmastart vmaend) ↔
      ∃ vma ∈ compared vmaid areas, 0 ≤ vma.across vmastart vmaend := by
  constructor
  · rintro ⟨vma, listed, other, bytes, shares⟩
    exact ⟨vma, (mem_compared ordered).mpr ⟨listed, other, bytes⟩,
      (Vma.shares_iff bytes planned).1.mp shares⟩
  · rintro ⟨vma, listed, positive⟩
    obtain ⟨listed, other, bytes⟩ := (mem_compared ordered).mp listed
    exact ⟨vma, listed, other, bytes, (Vma.shares_iff bytes planned).1.mpr positive⟩

/-- The test is exact when a lower half that is not negative shows an overlap, and an
overlap shows in some lower half. -/
theorem exact_iff_halves
    (ordered : ∀ vma ∈ areas, vma.vmStart ≤ vma.vmEnd ∧ vma.vmEnd ≤ 2 ^ 22)
    (planned : vmastart < vmaend)
    (inRange : checked (vmaend - 1) = some (vmaend - 1)) :
    Exact areas vmaid vmastart vmaend ↔
      ((∃ vma ∈ compared vmaid areas, ¬ NegativeHalf (vma.across vmastart vmaend) ∨
          ¬ NegativeHalf (vma.within vmastart vmaend)) ↔
        ∃ vma ∈ compared vmaid areas, 0 ≤ vma.across vmastart vmaend) := by
  rw [Exact, validateOverlapVmArea_eq inRange, shares_iff_across ordered planned]
  simp only [Option.some.injEq, exists_eq_left', not_negativeHalf_iff]
  split <;> rename_i positive <;> simp [positive]

/-- The test for overlaps is exact exactly when the lower halves keep the signs. -/
theorem exact_iff_signsKept
    (ordered : ∀ vma ∈ areas, vma.vmStart ≤ vma.vmEnd ∧ vma.vmEnd ≤ 2 ^ 22)
    (start : 0 ≤ vmastart)
    (planned : vmastart < vmaend)
    (inSpace : vmaend ≤ 2 ^ 22) :
    Exact areas vmaid vmastart vmaend ↔ SignsKept areas vmaid vmastart vmaend := by
  have inRange : checked (vmaend - 1) = some (vmaend - 1) :=
    checked_eq_some_iff.mpr ⟨rfl, by omega, by omega⟩
  have kept : (∀ vma ∈ compared vmaid areas, NegativeHalf (vma.across vmastart vmaend) ∧
        NegativeHalf (vma.within vmastart vmaend)) ↔
      ¬ ∃ vma ∈ compared vmaid areas, ¬ NegativeHalf (vma.across vmastart vmaend) ∨
        ¬ NegativeHalf (vma.within vmastart vmaend) := by
    simp only [not_exists, not_and, not_or, not_not]
  have apart : (∀ vma ∈ compared vmaid areas, vma.across vmastart vmaend < 0) ↔
      ¬ ∃ vma ∈ compared vmaid areas, 0 ≤ vma.across vmastart vmaend := by
    simp only [not_exists, not_and, not_le]
  rw [exact_iff_halves ordered planned inRange, SignsKept, kept, apart]
  constructor
  · exact fun same => ⟨fun apart refused => apart (same.mp refused), same.mpr⟩
  · rintro ⟨accepts, refuses⟩
    exact ⟨fun refused => by_contra fun apart => accepts apart refused, refuses⟩

/-- Areas and a planned area within 46341 bytes keep the signs. -/
theorem signsKept_of_near
    {base : Int}
    (planned : vmastart < vmaend)
    (near : base ≤ vmastart ∧ vmaend ≤ base + 46341)
    (areasNear : ∀ vma ∈ compared vmaid areas,
      vma.vmStart < vma.vmEnd ∧ base ≤ vma.vmStart ∧ vma.vmEnd ≤ base + 46341) :
    SignsKept areas vmaid vmastart vmaend := by
  have small : ∀ left right : Int, |left| ≤ 46340 → |right| ≤ 46340 →
      (NegativeHalf (left * right) ↔ left * right < 0) := by
    intro left right leftSmall rightSmall
    have bound : |left * right| ≤ 46340 * 46340 := by
      rw [abs_mul]
      exact mul_le_mul leftSmall rightSmall (abs_nonneg _) (by decide)
    rw [abs_le] at bound
    unfold NegativeHalf
    omega
  have across : ∀ vma ∈ compared vmaid areas,
      (NegativeHalf (vma.across vmastart vmaend) ↔ vma.across vmastart vmaend < 0) := by
    intro vma listed
    obtain ⟨bytes, atLeast, atMost⟩ := areasNear vma listed
    exact small _ _ (abs_le.mpr (by omega)) (abs_le.mpr (by omega))
  have within : ∀ vma ∈ compared vmaid areas,
      (NegativeHalf (vma.within vmastart vmaend) ↔ vma.within vmastart vmaend < 0) := by
    intro vma listed
    obtain ⟨bytes, atLeast, atMost⟩ := areasNear vma listed
    exact small _ _ (abs_le.mpr (by omega)) (abs_le.mpr (by omega))
  constructor
  · intro apart vma listed
    have notShared := (Vma.shares_iff (areasNear vma listed).1 planned).1.not.mpr
      (not_le.mpr (apart vma listed))
    exact ⟨(across vma listed).mpr (apart vma listed), (within vma listed).mpr
      ((Vma.shares_iff (areasNear vma listed).1 planned).2 notShared)⟩
  · rintro ⟨vma, listed, positive⟩
    exact ⟨vma, listed, .inl ((across vma listed).not.mpr (not_lt.mpr positive))⟩

/-- A heap of 64 KiB is to grow by 4 KiB. -/
theorem exact_iff_signsKept_heap :
    Exact [⟨1, 0, 65536⟩] 0 65536 69632 ↔ SignsKept [⟨1, 0, 65536⟩] 0 65536 69632 :=
  exact_iff_signsKept (by decide) (by decide) (by decide) (by decide)

/-- A heap of 64 KiB, which has the `vm_id` 1, cannot grow by 64 KiB: the second product
is -2^32. -/
theorem not_exact_heap : ¬ Exact [⟨1, 0, 65536⟩] 0 65536 131072 := by
  rintro ⟨rc, returned, overlapping, _⟩
  have refused : validateOverlapVmArea 0 65536 131072 [⟨1, 0, 65536⟩] = some (-1) := by decide
  rw [refused] at returned
  obtain rfl := Option.some.inj returned
  obtain ⟨vma, listed, _, _, byte, inArea, inPlanned⟩ := overlapping.mp rfl
  rw [List.mem_singleton.mp listed] at inArea
  dsimp only at inArea
  omega

end Overlap
end Memory
end Ossim
