import Ossim.Library.Transition
import Ossim.Timer.Handshake

/-!
# The timer never deadlocks

The loops of the timer are about one device at a time, and the handshake with this
device shows that one of the two threads can go on.
-/

namespace Ossim
namespace Timer

open Transition

namespace Threads

/-! ## The loops of the timer -/

/-- The position of the timer thread as far as one device is concerned. -/
def Routine.pcAt [DecidableEq δ] (routine : Routine δ) (dev : δ) : TimerPc :=
  match routine with
  | .collecting pc temp _ _ _ => if temp = dev then .collecting pc else .away
  | .releasing pc temp _ => if temp = dev then .releasing pc else .away
  | _ => .away

/-- Some thread can take a step, without a wake-up out of nothing. -/
def CanStep [DecidableEq δ] (state : State δ) : Prop :=
  ∃ event, event.OfThread ∧ (state.step event).isSome = true

section PcAt

variable [DecidableEq δ] {temp dev : δ} {next : List δ}

@[simp] theorem Routine.pcAt_collecting_self (pc : CollectPc) (fsh event : Nat) :
    (Routine.collecting pc temp next fsh event).pcAt temp = .collecting pc := if_pos rfl

theorem Routine.pcAt_collecting_of_ne
    (pc : CollectPc)
    (fsh event : Nat)
    (different : dev ≠ temp) :
    (Routine.collecting pc temp next fsh event).pcAt dev = .away :=
  if_neg different.symm

@[simp] theorem Routine.pcAt_releasing_self (pc : ReleasePc) :
    (Routine.releasing pc temp next).pcAt temp = .releasing pc := if_pos rfl

theorem Routine.pcAt_releasing_of_ne
    (pc : ReleasePc)
    (different : dev ≠ temp) :
    (Routine.releasing pc temp next).pcAt dev = .away :=
  if_neg different.symm

end PcAt

/-- Where the first loop stands: the two counters are equal only if each device
passed so far has detached. -/
def Counted (devList : List δ) (finished : δ → Bool) (temp : List δ) (fsh event : Nat) : Prop :=
  ∃ passed, devList = passed ++ temp ∧ fsh ≤ event ∧
    (fsh = event → ∀ dev ∈ passed, finished dev = true)

/-- What the position of the timer thread says about the device list. -/
def Routine.Looping (devList : List δ) (finished : δ → Bool) : Routine δ → Prop
  | .check => True
  | .collect temp fsh event => Counted devList finished temp fsh event
  | .collecting .unlock _ next fsh event => Counted devList finished next fsh event
  | .collecting _ temp next fsh event => Counted devList finished (temp :: next) fsh event
  | .release temp => temp ⊆ devList
  | .releasing _ temp next => temp :: next ⊆ devList
  | .exited => ∀ dev ∈ devList, finished dev = true

/-- The invariant of the timer thread and its devices. -/
structure Coordinated [DecidableEq δ] (state : State δ) : Prop where
  handshake : ∀ dev,
    Handshake (state.routine.pcAt dev) (state.device dev) (state.timerId dev)
  looping : state.routine.Looping state.devList fun dev => (state.timerId dev).fsh
  stopped : state.timerStop = true → ∀ dev ∈ state.devList, state.device dev = .detached

theorem Counted.mono
    {devList temp : List δ}
    {finished finished' : δ → Bool}
    {fsh event : Nat}
    (counted : Counted devList finished temp fsh event)
    (still : ∀ dev, finished dev = true → finished' dev = true) :
    Counted devList finished' temp fsh event := by
  obtain ⟨passed, list, atMost, all⟩ := counted
  exact ⟨passed, list, atMost, fun equal dev member => still dev (all equal dev member)⟩

/-- The device in turn is counted. -/
theorem Counted.count
    {devList next : List δ}
    {finished : δ → Bool}
    {dev : δ}
    {fsh event : Nat}
    (counted : Counted devList finished (dev :: next) fsh event) :
    Counted devList finished next (if finished dev then fsh + 1 else fsh) (event + 1) := by
  obtain ⟨passed, list, atMost, all⟩ := counted
  refine ⟨passed ++ [dev], by simpa using list, ?_, ?_⟩
  · split <;> omega
  · intro equal other member
    split at equal
    case isTrue isFinished =>
      rcases List.mem_append.mp member with earlier | this
      · exact all (by omega) other earlier
      · rw [List.mem_singleton.mp this]
        exact isFinished
    case isFalse _ => omega

/-- Flags that stay set keep what the position says. -/
theorem Routine.Looping.mono
    {routine : Routine δ}
    {devList : List δ}
    {finished finished' : δ → Bool}
    (looping : routine.Looping devList finished)
    (still : ∀ dev, finished dev = true → finished' dev = true) :
    routine.Looping devList finished' := by
  cases routine with
  | check => trivial
  | collect temp fsh event => exact Counted.mono looping still
  | collecting pc temp next fsh event => cases pc <;> exact Counted.mono looping still
  | release temp => exact looping
  | releasing pc temp next => exact looping
  | exited => exact fun dev member => still dev (looping dev member)

theorem deviceStep_fsh
    {id id' : TimerId}
    {pc pc' : DevicePc}
    (taken : deviceStep id pc = some (pc', id'))
    (isFinished : id.fsh = true) :
    id'.fsh = true := by
  cases pc with
  | working | detached => cases taken
  | eventLock | timerLock | asleep | detachLock =>
      simp only [deviceStep, Option.map_eq_some_iff] at taken
      obtain ⟨_, _, moved⟩ := taken
      cases moved
      exact isFinished
  | testDone =>
      simp only [deviceStep, Option.some.injEq, Prod.mk.injEq] at taken
      rw [← taken.2]
      exact isFinished
  | setFsh =>
      cases taken
      rfl
  | _ =>
      cases taken
      exact isFinished

/-- Before its end the first loop has the device in turn before it. -/
theorem Routine.looping_collecting
    {devList next : List δ}
    {finished : δ → Bool}
    {pc : CollectPc}
    {temp : δ}
    {fsh event : Nat}
    (notUnlock : pc ≠ .unlock) :
    (Routine.collecting pc temp next fsh event).Looping devList finished ↔
      Counted devList finished (temp :: next) fsh event := by
  cases pc with
  | unlock => exact absurd rfl notUnlock
  | _ => rfl

theorem collectStep_cases
    {id id' : TimerId}
    {pc pc' : CollectPc}
    (taken : collectStep id pc = some (pc', id')) :
    id'.fsh = id.fsh ∧ pc' ≠ .unlock := by
  cases pc with
  | lock | asleep =>
      simp only [collectStep, Option.map_eq_some_iff] at taken
      obtain ⟨_, _, moved⟩ := taken
      cases moved
      simp
  | test =>
      simp only [collectStep, Option.some.injEq, Prod.mk.injEq] at taken
      obtain ⟨rfl, rfl⟩ := taken
      split <;> simp
  | wait =>
      cases taken
      simp
  | count | unlock => cases taken

theorem releaseStep_fsh
    {id id' : TimerId}
    {pc pc' : ReleasePc}
    (taken : releaseStep id pc = some (pc', id')) :
    id'.fsh = id.fsh := by
  cases pc with
  | lock =>
      simp only [releaseStep, Option.map_eq_some_iff] at taken
      obtain ⟨_, _, moved⟩ := taken
      cases moved
      rfl
  | clear | signal =>
      cases taken
      rfl
  | unlock => cases taken

namespace Coordinated

variable [DecidableEq δ] {state next : State δ}

/-- The timer thread goes on in the middle of a section, or enters or leaves one. -/
theorem timer_moves
    {routine : Routine δ}
    {temp : δ}
    {id : TimerId}
    (coordinated : Coordinated state)
    (here : Handshake (routine.pcAt temp) (state.device temp) id)
    (elsewhere : ∀ dev, dev ≠ temp → routine.pcAt dev = state.routine.pcAt dev)
    (fsh : id.fsh = (state.timerId temp).fsh)
    (looping : routine.Looping state.devList fun dev => (state.timerId dev).fsh) :
    Coordinated { state.setTimerId temp id with routine := routine } where
  handshake := by
    intro dev
    by_cases same : dev = temp
    · subst same
      simpa [State.setTimerId] using here
    · simpa [State.setTimerId, same, elsewhere dev same] using coordinated.handshake dev
  looping := by
    apply looping.mono
    intro dev isFinished
    by_cases same : dev = temp
    · subst same
      simpa [State.setTimerId, fsh] using isFinished
    · simpa [State.setTimerId, same] using isFinished
  stopped := coordinated.stopped

/-- The timer thread goes on without looking at a `timer_id_t`. -/
theorem timer_goes
    {routine : Routine δ}
    (time : Nat)
    (coordinated : Coordinated state)
    (here : ∀ dev, Handshake (routine.pcAt dev) (state.device dev) (state.timerId dev))
    (looping : routine.Looping state.devList fun dev => (state.timerId dev).fsh) :
    Coordinated { state with time := time, routine := routine } :=
  ⟨here, looping, coordinated.stopped⟩

/-- Between two sections the timer thread is away from every device, and now it
comes to the section of one. -/
theorem timer_enters
    {routine : Routine δ}
    (temp : δ)
    (coordinated : Coordinated state)
    (away : ∀ dev, state.routine.pcAt dev = .away)
    (here : ∀ id, Handshake .away (state.device temp) id →
      Handshake (routine.pcAt temp) (state.device temp) id)
    (elsewhere : ∀ dev, dev ≠ temp → routine.pcAt dev = .away)
    (looping : routine.Looping state.devList fun dev => (state.timerId dev).fsh) :
    Coordinated { state with routine := routine } := by
  refine coordinated.timer_goes state.time (fun dev => ?_) looping
  have handshake := coordinated.handshake dev
  rw [away dev] at handshake
  by_cases same : dev = temp
  · subst same
    exact here _ handshake
  · rw [elsewhere dev same]
    exact handshake

theorem timer_checks
    (coordinated : Coordinated state)
    (here : state.routine = .check)
    (taken : state.timerRoutine = some next) :
    Coordinated next := by
  have handshake := coordinated.handshake
  rw [here] at handshake
  rw [State.timerRoutine, here] at taken
  dsimp only at taken
  split at taken
  case isTrue isStopped =>
    cases taken
    refine coordinated.timer_goes state.time handshake fun dev member => ?_
    have detached := coordinated.stopped isStopped dev member
    exact (handshake dev).finished.mpr (detached ▸ trivial)
  case isFalse _ =>
    cases taken
    exact coordinated.timer_goes state.time handshake
      ⟨[], rfl, Nat.le_refl _, fun _ dev member => absurd member List.not_mem_nil⟩

/-- The head of the first loop.  The loop ends in the exit of the thread only when it
has counted every device as finished. -/
theorem timer_collects
    {temp : List δ}
    {fsh event : Nat}
    (coordinated : Coordinated state)
    (here : state.routine = .collect temp fsh event)
    (taken : state.timerRoutine = some next) :
    Coordinated next := by
  have looping := coordinated.looping
  rw [here] at looping
  cases temp with
  | nil =>
      have handshake := coordinated.handshake
      rw [here] at handshake
      rw [State.timerRoutine, here] at taken
      dsimp only at taken
      obtain ⟨passed, list, _, all⟩ := looping
      split at taken
      case isTrue equal =>
        cases taken
        refine coordinated.timer_goes state.time handshake fun dev member => ?_
        rw [list, List.append_nil] at member
        exact all equal dev member
      case isFalse _ =>
        cases taken
        exact coordinated.timer_goes (state.time + 1) handshake (List.Subset.refl _)
  | cons temp rest =>
      rw [State.timerRoutine, here] at taken
      cases taken
      refine coordinated.timer_enters temp (fun dev => here ▸ rfl) ?_
        (fun dev different => Routine.pcAt_collecting_of_ne _ _ _ different) looping
      intro id handshake
      rw [Routine.pcAt_collecting_self]
      exact { handshake with }

/-- A statement of the section of a device in the first loop. -/
theorem timer_collecting
    {pc : CollectPc}
    {temp : δ}
    {rest : List δ}
    {fsh event : Nat}
    (coordinated : Coordinated state)
    (at' : state.routine = .collecting pc temp rest fsh event)
    (taken : state.timerRoutine = some next) :
    Coordinated next := by
  have looping := coordinated.looping
  rw [at'] at looping
  have here := coordinated.handshake temp
  rw [at', Routine.pcAt_collecting_self] at here
  have elsewhere : ∀ dev, dev ≠ temp → state.routine.pcAt dev = .away := fun dev different =>
    at' ▸ Routine.pcAt_collecting_of_ne _ _ _ different
  by_cases counts : pc = .count
  · subst counts
    rw [State.timerRoutine, at'] at taken
    cases taken
    refine coordinated.timer_goes state.time (fun dev => ?_) (Counted.count looping)
    by_cases same : dev = temp
    · subst same
      rw [Routine.pcAt_collecting_self]
      exact { here with }
    · rw [Routine.pcAt_collecting_of_ne _ _ _ same, ← elsewhere dev same]
      exact coordinated.handshake dev
  by_cases unlocks : pc = .unlock
  · subst unlocks
    rw [State.timerRoutine, at'] at taken
    cases taken
    exact coordinated.timer_moves here.collect_unlock
      (fun dev different => (elsewhere dev different).symm) rfl looping
  · rw [State.timerRoutine, at'] at taken
    simp only [Option.map_eq_some_iff] at taken
    obtain ⟨⟨pc', id'⟩, stepped, rfl⟩ := taken
    obtain ⟨sameFsh, notUnlock⟩ := collectStep_cases stepped
    refine coordinated.timer_moves ?_ ?_ sameFsh ?_
    · rw [Routine.pcAt_collecting_self]
      exact here.collect_step stepped
    · intro dev different
      rw [elsewhere dev different, Routine.pcAt_collecting_of_ne _ _ _ different]
    · rw [Routine.looping_collecting notUnlock]
      rw [Routine.looping_collecting unlocks] at looping
      exact looping

/-- The head of the second loop. -/
theorem timer_releases
    {temp : List δ}
    (coordinated : Coordinated state)
    (here : state.routine = .release temp)
    (taken : state.timerRoutine = some next) :
    Coordinated next := by
  have looping := coordinated.looping
  rw [here] at looping
  cases temp with
  | nil =>
      have handshake := coordinated.handshake
      rw [here] at handshake
      rw [State.timerRoutine, here] at taken
      cases taken
      exact coordinated.timer_goes state.time handshake trivial
  | cons temp rest =>
      rw [State.timerRoutine, here] at taken
      cases taken
      refine coordinated.timer_enters temp (fun dev => here ▸ rfl) ?_
        (fun dev different => Routine.pcAt_releasing_of_ne _ different) looping
      intro id handshake
      rw [Routine.pcAt_releasing_self]
      exact { handshake with }

/-- A statement of the section of a device in the second loop. -/
theorem timer_releasing
    {pc : ReleasePc}
    {temp : δ}
    {rest : List δ}
    (coordinated : Coordinated state)
    (at' : state.routine = .releasing pc temp rest)
    (taken : state.timerRoutine = some next) :
    Coordinated next := by
  have looping := coordinated.looping
  rw [at'] at looping
  have here := coordinated.handshake temp
  rw [at', Routine.pcAt_releasing_self] at here
  have elsewhere : ∀ dev, dev ≠ temp → state.routine.pcAt dev = .away := fun dev different =>
    at' ▸ Routine.pcAt_releasing_of_ne _ different
  by_cases unlocks : pc = .unlock
  · subst unlocks
    rw [State.timerRoutine, at'] at taken
    cases taken
    exact coordinated.timer_moves here.release_unlock
      (fun dev different => (elsewhere dev different).symm) rfl
      (List.subset_of_cons_subset looping)
  · rw [State.timerRoutine, at'] at taken
    simp only [Option.map_eq_some_iff] at taken
    obtain ⟨⟨pc', id'⟩, stepped, rfl⟩ := taken
    refine coordinated.timer_moves ?_ ?_ (releaseStep_fsh stepped) looping
    · rw [Routine.pcAt_releasing_self]
      exact here.release_step stepped
    · intro dev different
      rw [elsewhere dev different, Routine.pcAt_releasing_of_ne _ different]

/-- Each statement of the timer thread keeps the invariant. -/
theorem timerRoutine
    (coordinated : Coordinated state)
    (taken : state.timerRoutine = some next) :
    Coordinated next := by
  cases here : state.routine with
  | check => exact coordinated.timer_checks here taken
  | collect temp fsh event => exact coordinated.timer_collects here taken
  | collecting pc temp rest fsh event => exact coordinated.timer_collecting here taken
  | release temp => exact coordinated.timer_releases here taken
  | releasing pc temp rest => exact coordinated.timer_releasing here taken
  | exited =>
      rw [State.timerRoutine, here] at taken
      cases taken

/-- A device goes on, or one of the two threads wakes up.  Once the timer has been
stopped only wake-ups are left. -/
theorem device_moves
    {dev : δ}
    {pc : DevicePc}
    {id : TimerId}
    (coordinated : Coordinated state)
    (here : Handshake (state.routine.pcAt dev) pc id)
    (fsh : (state.timerId dev).fsh = true → id.fsh = true)
    (stopped : dev ∈ state.devList → state.device dev = .detached → pc = .detached) :
    Coordinated ((state.setTimerId dev id).setDevice dev pc) where
  handshake := by
    intro other
    by_cases same : other = dev
    · subst same
      simpa [State.setTimerId, State.setDevice] using here
    · simpa [State.setTimerId, State.setDevice, same] using coordinated.handshake other
  looping := by
    apply coordinated.looping.mono
    intro other isFinished
    by_cases same : other = dev
    · subst same
      simpa [State.setTimerId, State.setDevice] using fsh isFinished
    · simpa [State.setTimerId, State.setDevice, same] using isFinished
  stopped := by
    intro isStopped other member
    have detached := coordinated.stopped isStopped other member
    by_cases same : other = dev
    · subst same
      simpa [State.setTimerId, State.setDevice] using stopped member detached
    · simpa [State.setTimerId, State.setDevice, same] using detached

/-- Each statement of a device keeps the invariant. -/
theorem deviceRoutine
    {dev : δ}
    (coordinated : Coordinated state)
    (taken : state.deviceRoutine dev = some next) :
    Coordinated next := by
  unfold State.deviceRoutine at taken
  split at taken
  case isFalse _ => cases taken
  case isTrue member =>
    obtain ⟨⟨pc, id⟩, stepped, rfl⟩ := Option.map_eq_some_iff.mp taken
    apply coordinated.device_moves ((coordinated.handshake dev).device_step stepped)
      (deviceStep_fsh stepped)
    intro _ detached
    rw [detached] at stepped
    cases stepped

theorem call
    {dev : δ}
    {pc : DevicePc}
    (coordinated : Coordinated state)
    (isCall : pc = .eventLock ∨ pc = .detachLock)
    (taken : state.call dev pc = some next) :
    Coordinated next := by
  unfold State.call at taken
  split at taken
  case isFalse _ => cases taken
  case isTrue called =>
    cases taken
    have handshake := coordinated.handshake dev
    rw [called.2] at handshake
    have moved := coordinated.device_moves (handshake.call isCall) (fun isFinished => isFinished)
      fun _ detached => by simp [called.2] at detached
    simpa [State.setTimerId, State.setDevice] using moved

/-- Each step of a thread keeps the invariant, and so does a wake-up without a
signal. -/
theorem step
    {event : Event δ}
    (coordinated : Coordinated state)
    (taken : state.step event = some next) :
    Coordinated next := by
  cases event with
  | timerRoutine => exact coordinated.timerRoutine taken
  | device dev => exact coordinated.deviceRoutine taken
  | nextSlot dev => exact coordinated.call (.inl rfl) taken
  | detachEvent dev => exact coordinated.call (.inr rfl) taken
  | wakeTimer dev =>
      obtain ⟨event, woken, rfl⟩ := Option.map_eq_some_iff.mp taken
      have moved := coordinated.device_moves ((coordinated.handshake dev).wake_timer woken)
        (fun isFinished => isFinished) fun _ detached => detached
      simpa [State.setTimerId, State.setDevice] using moved
  | wakeDevice dev =>
      obtain ⟨timer, woken, rfl⟩ := Option.map_eq_some_iff.mp taken
      have moved := coordinated.device_moves ((coordinated.handshake dev).wake_device woken)
        (fun isFinished => isFinished) fun _ detached => detached
      simpa [State.setTimerId, State.setDevice] using moved
  | stopTimer =>
      simp only [State.step] at taken
      split at taken
      case isTrue detached =>
        cases taken
        exact ⟨coordinated.handshake, coordinated.looping, fun _ => detached⟩
      case isFalse _ => cases taken

theorem boot
    (devices : List δ) :
    Coordinated (boot devices) where
  handshake := by
    intro dev
    constructor
    case eventGuarded => exact guarded_init not_false not_false
    case timerGuarded => exact guarded_init not_false not_false
    case timerSleeps => exact .inl rfl
    case deviceSleeps => exact .inl rfl
    case timerWaits => exact False.elim
    case deviceWaits => exact False.elim
    case finished => simp [Threads.boot, TimerId.attached, DevicePc.Finished]
  looping := trivial
  stopped := by simp [Threads.boot]

/-! ## Progress -/

theorem canStep_of_timer
    (enabled : state.timerRoutine.isSome = true) :
    CanStep state :=
  ⟨.timerRoutine, trivial, enabled⟩

/-- A device whose next statement does not block can take a step. -/
theorem canStep_of_device
    {dev : δ}
    (member : dev ∈ state.devList)
    (enabled : (deviceStep (state.timerId dev) (state.device dev)).isSome = true) :
    CanStep state := by
  refine ⟨.device dev, trivial, ?_⟩
  rw [State.step, State.deviceRoutine, if_pos member, Option.isSome_map]
  exact enabled

theorem canStep_of_working
    {dev : δ}
    (member : dev ∈ state.devList)
    (working : state.device dev = .working) :
    CanStep state := by
  refine ⟨.nextSlot dev, trivial, ?_⟩
  rw [State.step, State.call, if_pos ⟨member, working⟩, Option.isSome_some]

/-- While the timer sleeps in the wait for a device, this device can take a step. -/
theorem canStep_of_asleep
    {dev : δ}
    (coordinated : Coordinated state)
    (member : dev ∈ state.devList)
    (waits : state.routine.pcAt dev = .collecting .asleep)
    (because : (state.timerId dev).done = false ∧ (state.timerId dev).fsh = false ∨
      (state.device dev).Signals) :
    CanStep state := by
  have handshake := coordinated.handshake dev
  rw [waits] at handshake
  rcases because with ⟨notDone, unfinished⟩ | signals
  · by_cases working : state.device dev = .working
    · exact canStep_of_working member working
    have undetached : state.device dev ≠ .detached := by
      intro detached
      have isFinished := handshake.finished.mpr (detached ▸ trivial)
      rw [unfinished] at isFinished
      cases isFinished
    rcases handshake.device_enabled working undetached with enabled | inEvent | inTimer | asleep
    · exact canStep_of_device member enabled
    · exact inEvent.elim
    · exact inTimer.elim
    · rw [notDone] at asleep
      cases asleep.2
  · exact canStep_of_device member (deviceStep_isSome_of_inside _ (.inl signals.inEvent))

/-- The timer thread can take a step, or the device that it is about. -/
theorem canStep_of_collecting
    {pc : CollectPc}
    {temp : δ}
    {rest : List δ}
    {fsh event : Nat}
    (coordinated : Coordinated state)
    (here : state.routine = .collecting pc temp rest fsh event) :
    CanStep state := by
  have handshake := coordinated.handshake temp
  have looping := coordinated.looping
  have waits : state.routine.pcAt temp = .collecting pc := by
    rw [here, Routine.pcAt_collecting_self]
  rw [waits] at handshake
  have member : pc ≠ .unlock → temp ∈ state.devList := by
    intro notUnlock
    rw [here, Routine.looping_collecting notUnlock] at looping
    obtain ⟨passed, list, _⟩ := looping
    simp [list]
  cases pc with
  | lock =>
      rcases handshake.eventGuarded.lock_or_inside .timer with free | ⟨party, isInside⟩
      · exact canStep_of_timer (by simpa [State.timerRoutine, here, collectStep] using free)
      · cases party with
        | timer => exact isInside.elim
        | device =>
            exact canStep_of_device (member (by simp))
              (deviceStep_isSome_of_inside _ (.inl isInside))
  | asleep =>
      rcases handshake.timerSleeps.resume_or handshake.eventGuarded with
        awake | ⟨_, because⟩ | ⟨party, isInside⟩
      · exact canStep_of_timer (by simpa [State.timerRoutine, here, collectStep] using awake)
      · exact canStep_of_asleep coordinated (member (by simp)) waits because
      · cases party with
        | timer => exact isInside.elim
        | device =>
            exact canStep_of_device (member (by simp))
              (deviceStep_isSome_of_inside _ (.inl isInside))
  | test | wait | count | unlock =>
      exact canStep_of_timer (by simp [State.timerRoutine, here, collectStep])

theorem canStep_of_releasing
    {pc : ReleasePc}
    {temp : δ}
    {rest : List δ}
    (coordinated : Coordinated state)
    (here : state.routine = .releasing pc temp rest) :
    CanStep state := by
  have handshake := coordinated.handshake temp
  have looping := coordinated.looping
  rw [here] at looping
  rw [here, Routine.pcAt_releasing_self] at handshake
  cases pc with
  | lock =>
      rcases handshake.timerGuarded.lock_or_inside .timer with free | ⟨party, isInside⟩
      · exact canStep_of_timer (by simpa [State.timerRoutine, here, releaseStep] using free)
      · cases party with
        | timer => exact isInside.elim
        | device =>
            exact canStep_of_device (looping (List.mem_cons_self ..))
              (deviceStep_isSome_of_inside _ (.inr isInside))
  | clear | signal | unlock =>
      exact canStep_of_timer (by simp [State.timerRoutine, here, releaseStep])

/-- Unless every device has detached, some thread can take a step. -/
theorem canStep
    {dev : δ}
    (coordinated : Coordinated state)
    (member : dev ∈ state.devList)
    (undetached : state.device dev ≠ .detached) :
    CanStep state := by
  cases here : state.routine with
  | check =>
      apply canStep_of_timer
      rw [State.timerRoutine, here]
      dsimp only
      split <;> rfl
  | collect temp fsh event =>
      apply canStep_of_timer
      cases temp with
      | nil =>
          rw [State.timerRoutine, here]
          dsimp only
          split <;> rfl
      | cons temp rest => rw [State.timerRoutine, here, Option.isSome_some]
  | collecting pc temp rest fsh event => exact canStep_of_collecting coordinated here
  | release temp =>
      apply canStep_of_timer
      cases temp <;> rw [State.timerRoutine, here, Option.isSome_some]
  | releasing pc temp rest => exact canStep_of_releasing coordinated here
  | exited =>
      -- the timer has counted every device as finished, and a finished one does not block
      have looping := coordinated.looping
      rw [here] at looping
      have isFinished := (coordinated.handshake dev).finished.mp (looping dev member)
      exact canStep_of_device member (deviceStep_isSome_of_finished _ isFinished undetached)

end Coordinated

/-- In every reachable state with a device that has not detached, the timer thread or
one of the devices can take a step. -/
theorem timer_never_deadlocks
    [DecidableEq δ]
    (devices : List δ)
    {state : State δ}
    (run : Run State.step anyEvent (boot devices) state)
    {dev : δ}
    (member : dev ∈ state.devList)
    (undetached : state.device dev ≠ .detached) :
    CanStep state :=
  (run.invariant Coordinated (fun _ _ _ coordinated _ taken => coordinated.step taken)
    (Coordinated.boot devices)).canStep member undetached

/-- Two devices after some statements of the one, of the timer, and one wake-up of
the timer without a signal. -/
def sleeping (first second : δ) : List (Event δ) :=
  .nextSlot first :: List.replicate 7 (.device first) ++ List.replicate 5 .timerRoutine ++
    .wakeTimer second :: List.replicate 3 .timerRoutine

/-- The timer sleeps until the device 1 signals it, and the device 0 until the timer
signals it. -/
theorem timer_never_deadlocks_sleeping :
    ∃ state : State (Fin 2), replay State.step (boot [0, 1]) (sleeping 0 1) = some state ∧
      (state.timerId 1).event.sleepers = [.timer] ∧
      (state.timerId 0).timer.sleepers = [.device] ∧
      CanStep state := by
  obtain ⟨state, reaches, timerSleeps, deviceSleeps, member, undetached⟩ := exists_of_evaluated
    (show (replay State.step (boot [(0 : Fin 2), 1]) (sleeping 0 1)).map (fun state => decide
      ((state.timerId 1).event.sleepers = [.timer] ∧
        (state.timerId 0).timer.sleepers = [.device] ∧
        0 ∈ state.devList ∧ state.device 0 ≠ .detached)) = some true by decide +kernel)
  exact ⟨state, reaches, timerSleeps, deviceSleeps,
    timer_never_deadlocks [0, 1] (Run.of_replay_any _ reaches) member undetached⟩

end Threads

end Timer
end Ossim
