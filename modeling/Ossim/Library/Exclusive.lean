import Mathlib.Logic.Function.Basic

/-!
# Exclusive holdings

Holders hold at most one resource each, no two hold the same, and nobody holds
a resource that is spare.  Resources move between holders and the spare ones by
three operations, and each of them keeps the holdings exclusive.
-/

namespace Ossim

variable {H R : Type*}

/-- No two holders hold the same resource, and none holds a spare one. -/
structure Exclusive (holding : H → Option R) (spare : R → Prop) : Prop where
  injective : ∀ holder other resource,
    holding holder = some resource → holding other = some resource → holder = other
  notSpare : ∀ holder resource, holding holder = some resource → ¬ spare resource

namespace Exclusive

variable {holding : H → Option R} {spare spare' : R → Prop}

/-- Nobody holds anything. -/
theorem of_none
    (nothing : ∀ holder, holding holder = none) :
    Exclusive holding spare where
  injective := by
    intro holder other resource holds
    rw [nothing] at holds
    cases holds
  notSpare := by
    intro holder resource holds
    rw [nothing] at holds
    cases holds

/-- Spare resources may get lost. -/
theorem mono
    (exclusive : Exclusive holding spare)
    (fewer : ∀ resource, spare' resource → spare resource) :
    Exclusive holding spare' where
  injective := exclusive.injective
  notSpare := fun holder resource holds isSpare =>
    exclusive.notSpare holder resource holds (fewer resource isSpare)

variable [DecidableEq H]

/-- A holder takes a spare resource in place of what it held. -/
theorem assign
    (exclusive : Exclusive holding spare)
    (holder : H)
    {resource : R}
    (isSpare : spare resource)
    (fewer : ∀ other, spare' other → spare other ∧ other ≠ resource) :
    Exclusive (Function.update holding holder (some resource)) spare' where
  injective := by
    intro first second shared firstHolds secondHolds
    by_cases firstIs : first = holder
    · by_cases secondIs : second = holder
      · rw [firstIs, secondIs]
      · rw [firstIs, Function.update_self, Option.some.injEq] at firstHolds
        rw [Function.update_of_ne secondIs, ← firstHolds] at secondHolds
        exact absurd isSpare (exclusive.notSpare _ _ secondHolds)
    · rw [Function.update_of_ne firstIs] at firstHolds
      by_cases secondIs : second = holder
      · rw [secondIs, Function.update_self, Option.some.injEq] at secondHolds
        rw [← secondHolds] at firstHolds
        exact absurd isSpare (exclusive.notSpare _ _ firstHolds)
      · rw [Function.update_of_ne secondIs] at secondHolds
        exact exclusive.injective _ _ _ firstHolds secondHolds
  notSpare := by
    intro first shared firstHolds stillSpare
    by_cases firstIs : first = holder
    · rw [firstIs, Function.update_self, Option.some.injEq] at firstHolds
      exact (fewer shared stillSpare).2 firstHolds.symm
    · rw [Function.update_of_ne firstIs] at firstHolds
      exact exclusive.notSpare _ _ firstHolds (fewer shared stillSpare).1

/-- A holder returns its resource. -/
theorem release
    (exclusive : Exclusive holding spare)
    {holder : H}
    {resource : R}
    (holds : holding holder = some resource)
    (more : ∀ other, spare' other → spare other ∨ other = resource) :
    Exclusive (Function.update holding holder none) spare' where
  injective := by
    intro first second shared firstHolds secondHolds
    have firstIsNot : first ≠ holder := by
      rintro rfl
      simp at firstHolds
    have secondIsNot : second ≠ holder := by
      rintro rfl
      simp at secondHolds
    rw [Function.update_of_ne firstIsNot] at firstHolds
    rw [Function.update_of_ne secondIsNot] at secondHolds
    exact exclusive.injective _ _ _ firstHolds secondHolds
  notSpare := by
    intro first shared firstHolds nowSpare
    have firstIsNot : first ≠ holder := by
      rintro rfl
      simp at firstHolds
    rw [Function.update_of_ne firstIsNot] at firstHolds
    rcases more shared nowSpare with wasSpare | rfl
    · exact exclusive.notSpare _ _ firstHolds wasSpare
    · exact firstIsNot (exclusive.injective _ _ _ firstHolds holds)

end Exclusive
end Ossim
