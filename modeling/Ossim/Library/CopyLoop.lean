import Mathlib.Logic.Function.Basic

/-!
# Copy loops

A copy loop reads one location of a store at a time and writes what it finds to another.
Later iterations read what earlier ones have left, and sources and targets may overlap.
The loop copies the store as it was before as long as no location is read after it was
written.
-/

namespace Ossim
namespace CopyLoop

variable {L V : Type*} [DecidableEq L]

/-- The store after the first iterations of a copy loop. -/
def copyCells (store : L → V) (source target : Nat → L) : Nat → L → V
  | 0 => store
  | count + 1 =>
      let before := copyCells store source target count
      Function.update before (target count) (before (source count))

variable {store : L → V} {source target : Nat → L}

theorem copyCells_succ (count : Nat) :
    copyCells store source target (count + 1) =
      Function.update (copyCells store source target count) (target count)
        (copyCells store source target count (source count)) := rfl

/-- A location that is no target keeps its value. -/
theorem copyCells_of_ne
    {count : Nat}
    {location : L}
    (noTarget : ∀ index, index < count → location ≠ target index) :
    copyCells store source target count location = store location := by
  induction count with
  | zero => rfl
  | succ count inductionHypothesis =>
      rw [copyCells_succ, Function.update_of_ne (noTarget count (Nat.lt_succ_self count))]
      apply inductionHypothesis
      intro index below
      exact noTarget index (Nat.lt_succ_of_lt below)

/-- The targets hold what the sources held before the loop. -/
theorem copyCells_target
    {count : Nat}
    (unread : ∀ first second, first < second → second < count →
      source second ≠ target first)
    (distinct : ∀ first second, first < second → second < count →
      target first ≠ target second)
    {index : Nat}
    (below : index < count) :
    copyCells store source target count (target index) = store (source index) := by
  induction count with
  | zero => exact absurd below (Nat.not_lt_zero index)
  | succ count inductionHypothesis =>
      rw [copyCells_succ]
      rcases Nat.lt_succ_iff_lt_or_eq.mp below with earlier | rfl
      · rw [Function.update_of_ne (distinct index count earlier (Nat.lt_succ_self count))]
        apply inductionHypothesis _ _ earlier
        · intro first second ordered inLoop
          exact unread first second ordered (Nat.lt_succ_of_lt inLoop)
        · intro first second ordered inLoop
          exact distinct first second ordered (Nat.lt_succ_of_lt inLoop)
      · rw [Function.update_self]
        apply copyCells_of_ne
        intro first inLoop
        exact unread first index inLoop (Nat.lt_succ_self index)

end CopyLoop
end Ossim
