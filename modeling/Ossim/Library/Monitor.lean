import Mathlib.Logic.Basic

/-!
# Mutexes with condition variables

A monitor is a mutex together with a condition variable.  Locking blocks while
the mutex is locked, a wait unlocks it and falls asleep in one step, and a
sleeping thread needs a wake-up and the mutex to go on.  A signal wakes one
sleeper and is lost if there is none; a sleeper may also wake up without a
signal.

`Guarded` relates the owner to the threads inside their sections.  `Sleeps` says
that a thread is the only one that ever sleeps, and for which reason it may.
-/

namespace Ossim

variable {τ : Type*}

/-- The thread that has locked the mutex, and the threads that sleep, the one that
has slept the longest first. -/
structure Monitor (τ : Type*) where
  owner : Option τ
  sleepers : List τ
  deriving DecidableEq

namespace Monitor

/-- A mutex and a condition variable after their initialization. -/
def init : Monitor τ := ⟨none, []⟩

/-- Lock the mutex. -/
def lock (monitor : Monitor τ) (thread : τ) : Option (Monitor τ) :=
  if monitor.owner.isNone then some { monitor with owner := some thread } else none

/-- Unlock the mutex. -/
def unlock (monitor : Monitor τ) : Monitor τ := { monitor with owner := none }

/-- Unlock the mutex and fall asleep. -/
def wait (monitor : Monitor τ) (thread : τ) : Monitor τ :=
  ⟨none, monitor.sleepers ++ [thread]⟩

/-- Wake a sleeper. -/
def signal (monitor : Monitor τ) : Monitor τ :=
  { monitor with sleepers := monitor.sleepers.tail }

/-- A sleeper wakes up without a signal. -/
def wakeUp [DecidableEq τ] (monitor : Monitor τ) (thread : τ) : Option (Monitor τ) :=
  if thread ∈ monitor.sleepers then
    some { monitor with sleepers := monitor.sleepers.erase thread }
  else
    none

/-- The end of a wait: a thread that is awake locks the mutex again. -/
def resume [DecidableEq τ] (monitor : Monitor τ) (thread : τ) : Option (Monitor τ) :=
  if thread ∈ monitor.sleepers then none else monitor.lock thread

/-! ## What the operations change -/

variable {monitor monitor' : Monitor τ} {thread : τ}

@[simp] theorem unlock_sleepers (monitor : Monitor τ) :
    monitor.unlock.sleepers = monitor.sleepers := rfl

@[simp] theorem signal_owner (monitor : Monitor τ) :
    monitor.signal.owner = monitor.owner := rfl

theorem lock_eq_some_iff :
    monitor.lock thread = some monitor' ↔
      monitor.owner = none ∧ monitor' = { monitor with owner := some thread } := by
  unfold lock
  split
  · rename_i free
    simp [Option.isNone_iff_eq_none.mp free, eq_comm]
  · rename_i locked
    simp [Option.isNone_iff_eq_none.not.mp locked]

theorem resume_eq_some_iff
    [DecidableEq τ] :
    monitor.resume thread = some monitor' ↔
      thread ∉ monitor.sleepers ∧ monitor.owner = none ∧
        monitor' = { monitor with owner := some thread } := by
  unfold resume
  split
  · simp [*]
  · simp [*, lock_eq_some_iff]

theorem wakeUp_eq_some_iff
    [DecidableEq τ] :
    monitor.wakeUp thread = some monitor' ↔
      thread ∈ monitor.sleepers ∧
        monitor' = { monitor with sleepers := monitor.sleepers.erase thread } := by
  unfold wakeUp
  split <;> simp [*, eq_comm]

theorem owner_of_wakeUp
    [DecidableEq τ]
    (woken : monitor.wakeUp thread = some monitor') :
    monitor'.owner = monitor.owner := by
  rw [(wakeUp_eq_some_iff.mp woken).2]

/-! ## The owner -/

/-- The mutex is locked by the thread inside a section, if there is one. -/
def Guarded (monitor : Monitor τ) (inside : τ → Prop) : Prop :=
  ∀ thread, monitor.owner = some thread ↔ inside thread

variable {inside inside' : τ → Prop}

theorem Guarded.exclusive
    (guarded : monitor.Guarded inside)
    {first second : τ}
    (firstInside : inside first)
    (secondInside : inside second) :
    first = second := by
  apply Option.some.inj
  rw [← (guarded first).mpr firstInside, (guarded second).mpr secondInside]

/-- Entering a section that the mutex guards. -/
theorem Guarded.enter
    (guarded : monitor.Guarded inside)
    (free : monitor.owner = none)
    (owner : monitor'.owner = some thread)
    (entered : ∀ other, inside' other ↔ other = thread ∨ inside other) :
    monitor'.Guarded inside' := by
  intro other
  have outside : ¬inside other := by
    intro isInside
    have locked := (guarded other).mpr isInside
    rw [free] at locked
    cases locked
  rw [owner, entered, Option.some.injEq, eq_comm, or_iff_left outside]

/-- Leaving a section that the mutex guards. -/
theorem Guarded.leave
    (guarded : monitor.Guarded inside)
    (isInside : inside thread)
    (owner : monitor'.owner = none)
    (left : ∀ other, inside' other ↔ other ≠ thread ∧ inside other) :
    monitor'.Guarded inside' := by
  intro other
  rw [owner, left]
  constructor
  · intro locked
    cases locked
  · rintro ⟨different, otherInside⟩
    exact absurd (guarded.exclusive otherInside isInside) different

theorem Guarded.congr
    (guarded : monitor.Guarded inside)
    (owner : monitor'.owner = monitor.owner)
    (same : ∀ other, inside' other ↔ inside other) :
    monitor'.Guarded inside' := by
  intro other
  rw [owner, same]
  exact guarded other

/-- A thread can lock the mutex, or another one is inside. -/
theorem Guarded.lock_or_inside
    (guarded : monitor.Guarded inside)
    (thread : τ) :
    (monitor.lock thread).isSome = true ∨ ∃ other, inside other := by
  cases locked : monitor.owner with
  | none =>
      left
      rw [lock_eq_some_iff.mpr ⟨locked, rfl⟩]
      rfl
  | some other => exact .inr ⟨other, (guarded other).mp locked⟩

/-! ## The sleepers -/

/-- Nobody sleeps but the one thread, and it for a reason. -/
def Sleeps (monitor : Monitor τ) (thread : τ) (reason : Prop) : Prop :=
  monitor.sleepers = [] ∨ monitor.sleepers = [thread] ∧ reason

variable {reason reason' : Prop}

theorem Sleeps.mono
    (sleeps : monitor.Sleeps thread reason)
    (same : monitor'.sleepers = monitor.sleepers)
    (still : reason → reason') :
    monitor'.Sleeps thread reason' := by
  rw [Sleeps, same]
  exact sleeps.imp_right fun ⟨asleep, because⟩ => ⟨asleep, still because⟩

/-- After a signal nobody sleeps. -/
theorem Sleeps.signal
    (sleeps : monitor.Sleeps thread reason) :
    monitor.signal.sleepers = [] := by
  rcases sleeps with awake | ⟨asleep, _⟩
  · rw [Monitor.signal, awake, List.tail_nil]
  · rw [Monitor.signal, asleep, List.tail_cons]

theorem Sleeps.awake
    (sleeps : monitor.Sleeps thread reason)
    (noReason : ¬reason) :
    monitor.sleepers = [] :=
  sleeps.resolve_right fun asleep => noReason asleep.2

/-- A thread that was awake falls asleep. -/
theorem Sleeps.wait
    (sleeps : monitor.Sleeps thread reason)
    (noReason : ¬reason)
    (because : reason') :
    (monitor.wait thread).Sleeps thread reason' := by
  refine .inr ⟨?_, because⟩
  rw [Monitor.wait, sleeps.awake noReason, List.nil_append]

theorem Sleeps.wakeUp
    [DecidableEq τ]
    {other : τ}
    (sleeps : monitor.Sleeps thread reason)
    (woken : monitor.wakeUp other = some monitor') :
    monitor'.sleepers = [] := by
  obtain ⟨asleep, rfl⟩ := wakeUp_eq_some_iff.mp woken
  rcases sleeps with awake | ⟨only, _⟩
  · rw [awake] at asleep
    cases asleep
  · rw [only, List.mem_singleton] at asleep
    simp [only, asleep]

/-- The thread can end its wait, or it sleeps for its reason, or another one is
inside. -/
theorem Sleeps.resume_or
    [DecidableEq τ]
    (sleeps : monitor.Sleeps thread reason)
    (guarded : monitor.Guarded inside) :
    (monitor.resume thread).isSome = true ∨ reason ∨ ∃ other, inside other := by
  rcases sleeps with awake | ⟨_, because⟩
  · rw [resume, awake, if_neg List.not_mem_nil]
    exact (guarded.lock_or_inside thread).imp_right .inr
  · exact .inr (.inl because)

end Monitor

end Ossim
