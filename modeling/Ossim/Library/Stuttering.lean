import Ossim.Library.Ranking
import Mathlib.Algebra.Order.Ring.Nat

/-!
# Stuttering refinement

A fine system takes several steps where a coarse one takes a single step.  A map `base`
forgets how far these have come.  Every fine step is a step of the coarse system with the
same event, or it changes nothing there and lowers the number of the steps that are
pending.

What holds after every coarse run then holds after every fine one, a rank of the coarse
system gives a rank of the fine one, and where the fine system has come to its end so has
the coarse one.
-/

namespace Ossim
namespace Transition

variable {σ τ ε : Type*}

/-- `fine` refines `coarse` along `base`, from the states of an invariant.  A coarse step
makes at most `cost` new steps pending. -/
structure Stutters
    (fine : τ → ε → Option τ)
    (coarse : σ → ε → Option σ)
    (base : τ → σ)
    (holds : τ → Prop)
    (pending : τ → Nat)
    (cost : ε → Nat) : Prop where
  kept : ∀ state event next, holds state → fine state event = some next → holds next
  step : ∀ state event next, holds state → fine state event = some next →
    (base next = base state ∧ pending next < pending state) ∨
      (coarse (base state) event = some (base next) ∧
        pending next ≤ pending state + cost event)

namespace Stutters

variable {fine : τ → ε → Option τ} {coarse : σ → ε → Option σ} {base : τ → σ}
  {holds : τ → Prop} {pending : τ → Nat} {cost : ε → Nat} {free : ε → Bool}

/-- Fine runs are coarse runs. -/
theorem run
    (stutters : Stutters fine coarse base holds pending cost)
    {first last : τ}
    (valid : holds first)
    (fineRun : Run fine anyEvent first last) :
    holds last ∧ Run coarse anyEvent (base first) (base last) := by
  induction fineRun with
  | refl => exact ⟨valid, Run.refl _⟩
  | tail event _ _ taken inductionHypothesis =>
      obtain ⟨middle, coarseRun⟩ := inductionHypothesis
      refine ⟨stutters.kept _ _ _ middle taken, ?_⟩
      rcases stutters.step _ _ _ middle taken with ⟨same, _⟩ | ⟨coarseTaken, _⟩
      · rw [same]
        exact coarseRun
      · exact coarseRun.tail event trivial coarseTaken

/-- A coarse step pays for the steps that it makes pending. -/
theorem ranked
    (stutters : Stutters fine coarse base holds pending cost)
    {coarseHolds : σ → Prop}
    {rank : σ → Nat}
    (coarseRanked : Ranked coarse coarseHolds free rank)
    (refines : ∀ state, holds state → coarseHolds (base state))
    {most : Nat}
    (atMost : ∀ event, cost event ≤ most)
    (nothing : ∀ event, free event = true → cost event = 0) :
    Ranked fine holds free fun state => (most + 1) * rank (base state) + pending state where
  kept := stutters.kept
  paid := by
    intro state event next valid taken notFree
    rcases stutters.step _ _ _ valid taken with ⟨same, less⟩ | ⟨coarseTaken, added⟩
    · rw [same]
      omega
    · have less := coarseRanked.paid _ _ _ (refines _ valid) coarseTaken notFree
      have bound := atMost event
      have paid : (most + 1) * (rank (base next) + 1) ≤ (most + 1) * rank (base state) :=
        Nat.mul_le_mul_left _ less
      rw [Nat.mul_succ] at paid
      omega
  unpaid := by
    intro state event next valid taken isFree
    rcases stutters.step _ _ _ valid taken with ⟨same, less⟩ | ⟨coarseTaken, added⟩
    · rw [same]
      omega
    · have least := coarseRanked.unpaid _ _ _ (refines _ valid) coarseTaken isFree
      have paid : (most + 1) * rank (base next) ≤ (most + 1) * rank (base state) :=
        Nat.mul_le_mul_left _ least
      rw [nothing event isFree] at added
      omega

end Stutters

/-- If the fine system can go on wherever the coarse one can, then both have come to the
end together. -/
theorem Halted.coarse
    {fine : τ → ε → Option τ}
    {coarse : σ → ε → Option σ}
    {base : τ → σ}
    {free : ε → Bool}
    {state : τ}
    (goes : ∀ event, free event = false → coarse (base state) event ≠ none →
      ∃ other, free other = false ∧ fine state other ≠ none)
    (halted : Halted fine free state) :
    Halted coarse free (base state) := by
  intro event notFree
  by_contra enabled
  obtain ⟨other, otherNotFree, otherEnabled⟩ := goes event notFree enabled
  exact otherEnabled (halted other otherNotFree)

end Transition
end Ossim
