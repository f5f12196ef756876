import Ossim.Library.Transition

/-!
# Views determined by a history

A system records some of its steps as actions.  What it shows of a state, a view, changes
only by these actions, as a function `act` of the view says.  Then the recorded history
determines the view, whatever else happens in the system and in whatever order.  Two
systems of different kinds with equal histories show equal views.

A state may show a view without being a function of it, so `shows` is a relation, and an
invariant of the system can be a part of it.
-/

namespace Ossim
namespace Transition

variable {σ τ ε α : Type*}

/-- A schedule and one more event. -/
theorem replay_append_singleton
    {step : σ → ε → Option σ}
    (events : List ε)
    (event : ε)
    (first : σ) :
    replay step first (events ++ [event]) =
      (replay step first events).bind fun last => step last event := by
  induction events generalizing first with
  | nil =>
      rw [List.nil_append, replay, replay, Option.bind_some]
      cases step first event <;> rfl
  | cons earlier events inductionHypothesis =>
      rw [List.cons_append, replay, replay]
      cases step first earlier with
      | none => rfl
      | some next => exact inductionHypothesis next

/-- From a state that shows the view, a step appends an action to the history and acts on
the view, or leaves both. -/
def Records
    (act : τ → α → Option τ)
    (shows : σ → τ → Prop)
    (history : σ → List α)
    (view : τ)
    (state next : σ) : Prop :=
  (history next = history state ∧ shows next view) ∨
    ∃ action after, history next = history state ++ [action] ∧
      act view action = some after ∧ shows next after

/-- A system whose permitted steps are recorded. -/
def Recording
    (step : σ → ε → Option σ)
    (permitted : σ → ε → Prop)
    (act : τ → α → Option τ)
    (shows : σ → τ → Prop)
    (history : σ → List α) : Prop :=
  ∀ state event next view, shows state view → permitted state event →
    step state event = some next → Records act shows history view state next

variable
  {step : σ → ε → Option σ}
  {permitted : σ → ε → Prop}
  {act : τ → α → Option τ}
  {shows : σ → τ → Prop}
  {history : σ → List α}

/-- Acting along the history gives a view that is shown. -/
theorem Run.replay_history
    {first last : σ}
    {view : τ}
    (recording : Recording step permitted act shows history)
    (run : Run step permitted first last)
    (start : shows first view)
    (nothing : history first = []) :
    ∃ after, replay act view (history last) = some after ∧ shows last after := by
  induction run with
  | refl => exact ⟨view, by rw [nothing, replay], start⟩
  | tail event _ allowed taken inductionHypothesis =>
      obtain ⟨middle, acted, shown⟩ := inductionHypothesis
      rcases recording _ _ _ _ shown allowed taken with
        ⟨same, still⟩ | ⟨action, after, longer, acts, shownAfter⟩
      · exact ⟨middle, by rw [same, acted], still⟩
      · refine ⟨after, ?_, shownAfter⟩
        rw [longer, replay_append_singleton, acted, Option.bind_some, acts]

/-- Runs of two systems from a common view with equal histories end with a common view. -/
theorem Run.view_eq_of_history_eq
    {σ' ε' : Type*}
    {step' : σ' → ε' → Option σ'}
    {permitted' : σ' → ε' → Prop}
    {shows' : σ' → τ → Prop}
    {history' : σ' → List α}
    {first last : σ}
    {first' last' : σ'}
    {view : τ}
    (recording : Recording step permitted act shows history)
    (recording' : Recording step' permitted' act shows' history')
    (run : Run step permitted first last)
    (run' : Run step' permitted' first' last')
    (nothing : history first = [])
    (nothing' : history' first' = [])
    (start : shows first view)
    (start' : shows' first' view)
    (same : history last = history' last') :
    ∃ after, shows last after ∧ shows' last' after := by
  obtain ⟨after, acted, shown⟩ := run.replay_history recording start nothing
  obtain ⟨after', acted', shown'⟩ := run'.replay_history recording' start' nothing'
  rw [same, acted'] at acted
  obtain rfl := Option.some.inj acted
  exact ⟨after', shown, shown'⟩

end Transition
end Ossim
