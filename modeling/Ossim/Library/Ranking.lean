import Ossim.Library.Transition
import Mathlib.Data.List.Count

/-!
# Ranked step functions

A rank is a number that every event lowers, except the events of a set that are
free: these must not raise it.  The rank of a state bounds the events that are
still to come in every schedule, and a schedule can always be continued to a
state in which only free events are left.
-/

namespace Ossim
namespace Transition

variable {σ ε : Type*}

/-- `rank` decreases in every step that is not free, from the states of an
invariant. -/
structure Ranked
    (step : σ → ε → Option σ)
    (holds : σ → Prop)
    (free : ε → Bool)
    (rank : σ → Nat) : Prop where
  kept : ∀ state event next, holds state → step state event = some next → holds next
  paid : ∀ state event next, holds state → step state event = some next →
    free event = false → rank next < rank state
  unpaid : ∀ state event next, holds state → step state event = some next →
    free event = true → rank next ≤ rank state

/-- Only free events are left. -/
def Halted (step : σ → ε → Option σ) (free : ε → Bool) (state : σ) : Prop :=
  ∀ event, free event = false → step state event = none

/-- The number of events of a schedule that are not free. -/
def paidCount (free : ε → Bool) (events : List ε) : Nat :=
  events.countP fun event => !free event

@[simp] theorem paidCount_nil (free : ε → Bool) : paidCount free [] = 0 := rfl

theorem paidCount_cons_free
    {free : ε → Bool}
    {event : ε}
    (isFree : free event = true)
    (events : List ε) :
    paidCount free (event :: events) = paidCount free events := by
  simp [paidCount, isFree]

theorem paidCount_cons_paid
    {free : ε → Bool}
    {event : ε}
    (notFree : free event = false)
    (events : List ε) :
    paidCount free (event :: events) = paidCount free events + 1 := by
  simp [paidCount, notFree]

namespace Ranked

variable {step : σ → ε → Option σ} {holds : σ → Prop} {free : ε → Bool} {rank : σ → Nat}

/-- The invariant holds after every schedule. -/
theorem holds_replay
    (ranked : Ranked step holds free rank)
    {events : List ε}
    {first last : σ}
    (valid : holds first)
    (reaches : replay step first events = some last) :
    holds last := by
  induction events generalizing first with
  | nil =>
      obtain rfl := Option.some.inj reaches
      exact valid
  | cons event events inductionHypothesis =>
      cases taken : step first event with
      | none => simp [replay, taken] at reaches
      | some next =>
          simp only [replay, taken] at reaches
          exact inductionHypothesis (ranked.kept _ _ _ valid taken) reaches

/-- The rank pays for every event that is not free. -/
theorem paidCount_le
    (ranked : Ranked step holds free rank)
    {events : List ε}
    {first last : σ}
    (valid : holds first)
    (reaches : replay step first events = some last) :
    paidCount free events + rank last ≤ rank first := by
  induction events generalizing first with
  | nil =>
      obtain rfl := Option.some.inj reaches
      simp
  | cons event events inductionHypothesis =>
      cases taken : step first event with
      | none => simp [replay, taken] at reaches
      | some next =>
          simp only [replay, taken] at reaches
          have rest := inductionHypothesis (ranked.kept _ _ _ valid taken) reaches
          cases isFree : free event with
          | true =>
              have least := ranked.unpaid _ _ _ valid taken isFree
              rw [paidCount_cons_free isFree]
              omega
          | false =>
              have less := ranked.paid _ _ _ valid taken isFree
              rw [paidCount_cons_paid isFree]
              omega

/-- The rank never grows along a run. -/
theorem rank_le
    {permitted : σ → ε → Prop}
    {first last : σ}
    (ranked : Ranked step holds free rank)
    (valid : holds first)
    (run : Run step permitted first last) :
    rank last ≤ rank first := by
  refine (run.invariant (fun state => holds state ∧ rank state ≤ rank first) ?_
    ⟨valid, Nat.le_refl _⟩).2
  rintro state event next ⟨validState, below⟩ _ taken
  refine ⟨ranked.kept _ _ _ validState taken, ?_⟩
  cases isFree : free event with
  | true => exact Nat.le_trans (ranked.unpaid _ _ _ validState taken isFree) below
  | false =>
      exact Nat.le_trans (Nat.le_of_lt (ranked.paid _ _ _ validState taken isFree)) below

/-- A schedule without free events is not longer than the rank. -/
theorem length_le
    (ranked : Ranked step holds free rank)
    {events : List ε}
    {first last : σ}
    (valid : holds first)
    (paid : ∀ event ∈ events, free event = false)
    (reaches : replay step first events = some last) :
    events.length ≤ rank first := by
  have all : paidCount free events = events.length :=
    List.countP_eq_length.mpr fun event member => by rw [paid event member, Bool.not_false]
  have bound := ranked.paidCount_le valid reaches
  omega

/-- From every state of the invariant a schedule without free events leads to a
state in which only free events are left. -/
theorem exists_halted
    (ranked : Ranked step holds free rank)
    (first : σ)
    (valid : holds first) :
    ∃ events last, (∀ event ∈ events, free event = false) ∧
      replay step first events = some last ∧ Halted step free last := by
  induction bound : rank first using Nat.strongRecOn generalizing first with
  | ind bound inductionHypothesis =>
      by_cases halted : Halted step free first
      · exact ⟨[], first, nofun, rfl, halted⟩
      · simp only [Halted, not_forall] at halted
        obtain ⟨event, notFree, enabled⟩ := halted
        obtain ⟨next, taken⟩ := Option.ne_none_iff_exists'.mp enabled
        have less := ranked.paid _ _ _ valid taken notFree
        obtain ⟨events, last, paid, reaches, halted⟩ :=
          inductionHypothesis (rank next) (bound ▸ less) next
            (ranked.kept _ _ _ valid taken) rfl
        refine ⟨event :: events, last, ?_, ?_, halted⟩
        · intro other member
          rcases List.mem_cons.mp member with rfl | later
          · exact notFree
          · exact paid other later
        · simp [replay, taken, reaches]

end Ranked

end Transition
end Ossim
