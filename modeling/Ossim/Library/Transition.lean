import Mathlib.Logic.Relation
import Mathlib.Data.List.Forall2

/-!
# Runs of guarded step functions

A system is a step function `σ → ε → Option σ`: `step state event` is the state
after the event, or `none` when the event cannot occur there.  All
nondeterminism is in the choice of events, so a finite schedule can be replayed
by evaluation, and every fact about all runs is an induction over the events.

The predicate `permitted` restricts the events a run may use, state by state.
-/

namespace Ossim
namespace Transition

variable {σ ε : Type*}

/-- Runs of `step` in which every event is permitted where it occurs. -/
inductive Run
    (step : σ → ε → Option σ)
    (permitted : σ → ε → Prop) : σ → σ → Prop
  | refl (state : σ) : Run step permitted state state
  | tail {first middle last : σ} (event : ε) :
      Run step permitted first middle →
      permitted middle event →
      step middle event = some last →
      Run step permitted first last

/-- The permission that excludes no event. -/
def anyEvent : σ → ε → Prop := fun _ _ => True

namespace Run

variable {step : σ → ε → Option σ} {permitted : σ → ε → Prop}

/-- Runs compose. -/
theorem trans
    {first middle last : σ}
    (before : Run step permitted first middle)
    (after : Run step permitted middle last) :
    Run step permitted first last := by
  induction after with
  | refl => exact before
  | tail event _ allowed taken inductionHypothesis =>
      exact inductionHypothesis.tail event allowed taken

/-- One permitted event is a run. -/
theorem single
    {first last : σ}
    (event : ε)
    (allowed : permitted first event)
    (taken : step first event = some last) :
    Run step permitted first last :=
  (Run.refl first).tail event allowed taken

/-- Weakening the permission keeps every run. -/
theorem mono
    {wider : σ → ε → Prop}
    (weaker : ∀ state event, permitted state event → wider state event)
    {first last : σ}
    (run : Run step permitted first last) :
    Run step wider first last := by
  induction run with
  | refl => exact Run.refl _
  | tail event _ allowed taken inductionHypothesis =>
      exact inductionHypothesis.tail event (weaker _ _ allowed) taken

/-- The invariant rule: what holds at the start and is kept by every permitted
event holds at the end of every run. -/
theorem invariant
    (holds : σ → Prop)
    (kept : ∀ state event next, holds state → permitted state event →
      step state event = some next → holds next)
    {first last : σ}
    (run : Run step permitted first last)
    (start : holds first) : holds last := by
  induction run with
  | refl => exact start
  | tail event _ allowed taken inductionHypothesis =>
      exact kept _ _ _ inductionHypothesis allowed taken

end Run

/-! ## Replaying a schedule -/

/-- Perform a list of events in order; `none` if one of them cannot occur. -/
def replay (step : σ → ε → Option σ) : σ → List ε → Option σ
  | state, [] => some state
  | state, event :: events =>
      match step state event with
      | none => none
      | some next => replay step next events

/-- Schedules of events that do the same, one after the other, do the same. -/
theorem replay_congr
    {step : σ → ε → Option σ}
    {events others : List ε}
    (same : List.Forall₂ (fun event other => ∀ state, step state event = step state other)
      events others)
    (state : σ) :
    replay step state events = replay step state others := by
  induction same generalizing state with
  | nil => rfl
  | cons first _ inductionHypothesis =>
      simp only [replay, first state, inductionHypothesis]

/-- A schedule that performs each event several times in a row. -/
def schedule (turns : List (ε × Nat)) : List ε :=
  turns.flatMap fun turn => List.replicate turn.2 turn.1

/-- Every event of a schedule is permitted where the replay performs it. -/
def PermittedAlong
    (step : σ → ε → Option σ)
    (permitted : σ → ε → Prop) : σ → List ε → Prop
  | _, [] => True
  | state, event :: events =>
      permitted state event ∧
        match step state event with
        | none => False
        | some next => PermittedAlong step permitted next events

instance decidablePermittedAlong
    (step : σ → ε → Option σ)
    (permitted : σ → ε → Prop)
    [decidable : ∀ state event, Decidable (permitted state event)] :
    ∀ (events : List ε) (state : σ), Decidable (PermittedAlong step permitted state events)
  | [], _ => isTrue trivial
  | event :: events, state =>
      have : Decidable
          (match step state event with
          | none => False
          | some next => PermittedAlong step permitted next events) :=
        match step state event with
        | none => isFalse id
        | some next => decidablePermittedAlong step permitted events next
      inferInstanceAs (Decidable (permitted state event ∧ _))

/-- A predicate holds in every state that the replay of a schedule passes. -/
def HoldsAlong
    (step : σ → ε → Option σ)
    (holds : σ → Prop) : σ → List ε → Prop
  | state, [] => holds state
  | state, event :: events =>
      holds state ∧
        match step state event with
        | none => True
        | some next => HoldsAlong step holds next events

/-- What an invariant of the permitted events implies holds along every
permitted schedule. -/
theorem PermittedAlong.holdsAlong
    {step : σ → ε → Option σ}
    {permitted : σ → ε → Prop}
    (invariant : σ → Prop)
    {holds : σ → Prop}
    (enough : ∀ state, invariant state → holds state)
    (keeps : ∀ state event next, invariant state → permitted state event →
      step state event = some next → invariant next) :
    ∀ (events : List ε) (first : σ), invariant first →
      PermittedAlong step permitted first events →
      HoldsAlong step holds first events
  | [], _, valid, _ => enough _ valid
  | event :: events, first, valid, allowed => by
      simp only [PermittedAlong, HoldsAlong] at allowed ⊢
      refine ⟨enough first valid, ?_⟩
      cases taken : step first event with
      | none => trivial
      | some next =>
          simp only [taken] at allowed
          have kept := keeps first event next valid allowed.1 taken
          exact PermittedAlong.holdsAlong invariant enough keeps events next kept allowed.2

/-- If, next to an invariant, an event keeps a predicate exactly when it is
permitted, then the predicate holds along a schedule exactly when every event
of the schedule is permitted. -/
theorem holdsAlong_iff_permittedAlong
    {step : σ → ε → Option σ}
    {permitted : σ → ε → Prop}
    (invariant : σ → Prop)
    {holds : σ → Prop}
    (exact : ∀ state event next, invariant state → holds state →
      step state event = some next →
      (permitted state event → invariant next) ∧
        (holds next ↔ permitted state event))
    {last : σ} :
    ∀ (events : List ε) (first : σ), invariant first → holds first →
      replay step first events = some last →
      (HoldsAlong step holds first events ↔
        PermittedAlong step permitted first events)
  | [], _, _, start, _ => by simp [HoldsAlong, PermittedAlong, start]
  | event :: events, first, valid, start, reaches => by
      cases taken : step first event with
      | none => simp [replay, taken] at reaches
      | some next =>
          simp only [replay, taken] at reaches
          obtain ⟨kept, iff⟩ := exact first event next valid start taken
          simp only [HoldsAlong, PermittedAlong, taken, start, true_and]
          constructor
          · intro along
            have here : holds next := by
              cases events with
              | nil => exact along
              | cons _ _ => exact along.1
            have allowed := iff.mp here
            exact ⟨allowed,
              (holdsAlong_iff_permittedAlong invariant exact events next (kept allowed)
                here reaches).mp along⟩
          · rintro ⟨allowed, along⟩
            exact (holdsAlong_iff_permittedAlong invariant exact events next (kept allowed)
              (iff.mpr allowed) reaches).mpr along

/-- A schedule whose replay reaches `last` with permitted events is a run. -/
theorem Run.of_replay
    {step : σ → ε → Option σ}
    {permitted : σ → ε → Prop}
    {last : σ} :
    ∀ (events : List ε) (first : σ),
      PermittedAlong step permitted first events →
      replay step first events = some last →
      Run step permitted first last
  | [], first, _, reaches => by
      simp only [replay, Option.some.injEq] at reaches
      subst reaches
      exact Run.refl first
  | event :: events, first, allowed, reaches => by
      simp only [replay, PermittedAlong] at reaches allowed
      cases taken : step first event with
      | none =>
          simp [taken] at reaches
      | some next =>
          simp only [taken] at reaches allowed
          have rest := Run.of_replay events next allowed.2 reaches
          exact (Run.single event allowed.1 taken).trans rest

/-- Without a restriction every successful replay is a run. -/
theorem Run.of_replay_any
    {step : σ → ε → Option σ}
    {first last : σ}
    (events : List ε)
    (reaches : replay step first events = some last) :
    Run step anyEvent first last := by
  induction events generalizing first with
  | nil =>
      simp only [replay, Option.some.injEq] at reaches
      subst reaches
      exact Run.refl first
  | cons event events inductionHypothesis =>
      cases taken : step first event with
      | none => simp [replay, taken] at reaches
      | some next =>
          simp only [replay, taken] at reaches
          exact (Run.single event trivial taken).trans
            (inductionHypothesis reaches)

/-- A schedule evaluated together with a predicate on its last state. -/
theorem exists_of_evaluated
    {step : σ → ε → Option σ}
    {first : σ}
    {events : List ε}
    {holds : σ → Prop}
    [DecidablePred holds]
    (evaluated : (replay step first events).map (fun last => decide (holds last)) = some true) :
    ∃ last, replay step first events = some last ∧ holds last := by
  obtain ⟨last, reaches, held⟩ := Option.map_eq_some_iff.mp evaluated
  exact ⟨last, reaches, of_decide_eq_true held⟩

/-- A schedule and one more event, evaluated together with a predicate on the
states before and after this event. -/
theorem exists_of_evaluated_step
    {step : σ → ε → Option σ}
    {first : σ}
    {events : List ε}
    {event : ε}
    {holds : σ → σ → Prop}
    [DecidableRel holds]
    (evaluated : ((replay step first events).bind fun state =>
      (step state event).map fun next => decide (holds state next)) = some true) :
    ∃ state next, replay step first events = some state ∧ step state event = some next ∧
      holds state next := by
  obtain ⟨state, reaches, stepped⟩ := Option.bind_eq_some_iff.mp evaluated
  obtain ⟨next, taken, held⟩ := Option.map_eq_some_iff.mp stepped
  exact ⟨state, next, reaches, taken, of_decide_eq_true held⟩

end Transition
end Ossim
