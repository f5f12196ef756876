import Ossim.Timer.Defs
import Mathlib.Data.List.Nodup

/-!
# The barrier keeps time and devices in lockstep

One invariant per device says where its counters stand relative to `_time`.  It
depends on the position of the timer thread only through two facts: whether the
device has been seen in the collecting loop, and whether its release is still
due.  Each atomic step keeps it, so it holds in every reachable state.
-/

namespace Ossim
namespace Timer

open Transition

/-- The device has not detached. -/
def TimerId.Undetached (timerId : TimerId) : Prop :=
  timerId.phase ≠ .detached

/-- The releasing loop has not reached the device yet. -/
def Routine.AwaitsRelease (dev : δ) : Routine δ → Prop
  | .release temp => dev ∈ temp
  | _ => False

/-- The collecting loop has passed the device. -/
def Routine.Collected (dev : δ) : Routine δ → Prop
  | .collect temp _ _ => dev ∉ temp
  | _ => False

@[simp] theorem Routine.awaitsRelease_check (dev : δ) :
    ¬Routine.AwaitsRelease dev .check := id

@[simp] theorem Routine.awaitsRelease_exited (dev : δ) :
    ¬Routine.AwaitsRelease dev .exited := id

@[simp] theorem Routine.awaitsRelease_collect
    (dev : δ) (temp : List δ) (fsh event : Nat) :
    ¬Routine.AwaitsRelease dev (.collect temp fsh event) := id

@[simp] theorem Routine.awaitsRelease_release (dev : δ) (temp : List δ) :
    Routine.AwaitsRelease dev (.release temp) ↔ dev ∈ temp := Iff.rfl

@[simp] theorem Routine.collected_check (dev : δ) :
    ¬Routine.Collected dev .check := id

@[simp] theorem Routine.collected_exited (dev : δ) :
    ¬Routine.Collected dev .exited := id

@[simp] theorem Routine.collected_release (dev : δ) (temp : List δ) :
    ¬Routine.Collected dev (.release temp) := id

@[simp] theorem Routine.collected_collect
    (dev : δ) (temp : List δ) (fsh event : Nat) :
    Routine.Collected dev (.collect temp fsh event) ↔ dev ∉ temp := Iff.rfl

/-- Where the counters of one undetached device stand. -/
structure InStep (time : Nat) (routine : Routine δ) (dev : δ)
    (timerId : TimerId) : Prop where
  /-- Only `detach_event` sets `fsh`. -/
  unfinished : timerId.fsh = false
  /-- Outside `next_slot` the flag is clear and every entry has returned. -/
  working : timerId.phase = .working →
    timerId.done = false ∧ timerId.entered = timerId.returned
  /-- Inside `next_slot` exactly one entry has not returned. -/
  waiting : timerId.phase = .waiting →
    timerId.entered = timerId.returned + 1
  /-- A device that the timer has seen, or still has to release, is done. -/
  held : routine.Collected dev ∨ routine.AwaitsRelease dev →
    timerId.done = true
  /-- A device due for release finished the slot before the current one. -/
  unreleased : routine.AwaitsRelease dev → timerId.entered = time
  /-- Any other device has finished the current slot exactly when it is done. -/
  current : ¬routine.AwaitsRelease dev →
    timerId.entered = time + if timerId.done then 1 else 0

/-- The invariant of the timer and all its devices. -/
structure InLockstep (state : State δ) : Prop where
  /-- Every container occurs once in `dev_list`. -/
  distinct : state.devList.Nodup
  /-- So no device is released twice. -/
  releasedOnce : ∀ temp, state.routine = .release temp → temp.Nodup
  /-- Every attached device is in step until it detaches. -/
  inStep : ∀ dev ∈ state.devList, (state.device dev).Undetached →
    InStep state.time state.routine dev (state.device dev)

/-- Devices attached before the start are in step with time zero. -/
theorem inLockstep_boot
    (devices : List δ)
    (distinct : devices.Nodup) :
    InLockstep (boot devices) where
  distinct := by simpa [List.nodup_reverse] using distinct
  releasedOnce := by
    intro temp equal
    simp at equal
  inStep := by
    intro dev _ _
    constructor <;> simp [TimerId.attached]

/-- A step that changes only the timer's position keeps every device in step if
it promises no device more than the device already keeps. -/
theorem InLockstep.move
    {state : State δ}
    (invariant : InLockstep state)
    (routine : Routine δ)
    (releasedOnce : ∀ temp, routine = .release temp → temp.Nodup)
    (seen : ∀ dev ∈ state.devList, (state.device dev).Undetached →
      routine.Collected dev → (state.device dev).done = true)
    (sameRelease : ∀ dev,
      routine.AwaitsRelease dev ↔ state.routine.AwaitsRelease dev) :
    InLockstep { state with routine := routine } where
  distinct := invariant.distinct
  releasedOnce := releasedOnce
  inStep := by
    intro dev member undetached
    have before := invariant.inStep dev member undetached
    exact
      { unfinished := before.unfinished
        working := before.working
        waiting := before.waiting
        held := by
          rintro (collected | awaits)
          · exact seen dev member undetached collected
          · exact before.held (.inr ((sameRelease dev).mp awaits))
        unreleased := fun awaits =>
          before.unreleased ((sameRelease dev).mp awaits)
        current := fun notDue =>
          before.current fun awaits => notDue ((sameRelease dev).mpr awaits) }

/-- A device that works in the current slot has entered and left `next_slot`
once for every past slot. -/
theorem InLockstep.working
    {state : State δ}
    (invariant : InLockstep state)
    {dev : δ}
    (member : dev ∈ state.devList)
    (working : (state.device dev).phase = .working) :
    (state.device dev).entered = state.time ∧
      (state.device dev).returned = state.time := by
  have inStep := invariant.inStep dev member (by
    simp [TimerId.Undetached, working])
  obtain ⟨clear, balanced⟩ := inStep.working working
  have notDue : ¬state.routine.AwaitsRelease dev := by
    intro awaits
    simpa [clear] using inStep.held (.inr awaits)
  have entered : (state.device dev).entered = state.time := by
    simpa [clear] using inStep.current notDue
  exact ⟨entered, balanced ▸ entered⟩

/-- A device inside `next_slot` has entered it for the current slot or, when
its release is due or done, for the previous one. -/
theorem InLockstep.waiting
    {state : State δ}
    (invariant : InLockstep state)
    {dev : δ}
    (member : dev ∈ state.devList)
    (waiting : (state.device dev).phase = .waiting) :
    (state.device dev).entered = (state.device dev).returned + 1 ∧
      state.time ≤ (state.device dev).entered ∧
      (state.device dev).entered ≤ state.time + 1 := by
  have inStep := invariant.inStep dev member (by
    simp [TimerId.Undetached, waiting])
  refine ⟨inStep.waiting waiting, ?_⟩
  by_cases due : state.routine.AwaitsRelease dev
  · have entered := inStep.unreleased due
    omega
  · have entered := inStep.current due
    split at entered <;> omega

/-- The current slot ends.  Every undetached device has been seen, so all of them are
one slot ahead. -/
theorem InLockstep.nextTime
    {state : State δ}
    {fsh event : Nat}
    (invariant : InLockstep state)
    (position : state.routine = .collect [] fsh event) :
    InLockstep { state with
      time := state.time + 1
      routine := .release state.devList } where
  distinct := invariant.distinct
  releasedOnce := by
    rintro temp equal
    cases equal
    exact invariant.distinct
  inStep := by
    intro dev member undetached
    have before := invariant.inStep dev member undetached
    have done := before.held (.inl (by simp [position]))
    have entered := before.current (by simp [position])
    exact
      { unfinished := before.unfinished
        working := before.working
        waiting := before.waiting
        held := fun _ => done
        unreleased := fun _ => by simpa [done] using entered
        current := fun notDue => absurd member notDue }

variable [DecidableEq δ]

/-- A device is released: it comes level with the current slot. -/
theorem InLockstep.release
    {state : State δ}
    {dev : δ}
    {rest : List δ}
    (invariant : InLockstep state)
    (position : state.routine = .release (dev :: rest)) :
    InLockstep { state.setDevice dev { state.device dev with done := false } with
      routine := .release rest } := by
  have releasedOnce := invariant.releasedOnce _ position
  have released : dev ∉ rest ∧ rest.Nodup := by simpa using releasedOnce
  refine
    { distinct := invariant.distinct
      releasedOnce := ?_
      inStep := ?_ }
  · rintro temp equal
    cases equal
    exact released.2
  · intro other member undetached
    by_cases same : other = dev
    · subst same
      simp only [State.setDevice_device_same] at undetached ⊢
      have before := invariant.inStep other member undetached
      have due : state.routine.AwaitsRelease other := by simp [position]
      have entered := before.unreleased due
      have done := before.held (.inr due)
      exact
        { unfinished := before.unfinished
          working := fun working => by
            simpa [done] using before.working working
          waiting := before.waiting
          held := by simp [released.1]
          unreleased := by simp [released.1]
          current := by simpa using fun _ => entered }
    · simp only [State.setDevice_device_other _ _ same] at undetached ⊢
      have before := invariant.inStep other member undetached
      have unchanged : state.routine.AwaitsRelease other ↔ other ∈ rest := by
        simp [position, same]
      exact
        { unfinished := before.unfinished
          working := before.working
          waiting := before.waiting
          held := by
            rintro (collected | awaits)
            · exact collected.elim
            · exact before.held (.inr (unchanged.mpr awaits))
          unreleased := fun awaits => before.unreleased (unchanged.mpr awaits)
          current := fun notDue =>
            before.current fun awaits => notDue (unchanged.mp awaits) }

/-- The timer thread keeps the lockstep. -/
theorem InLockstep.timerRoutine
    {state next : State δ}
    (invariant : InLockstep state)
    (taken : state.timerRoutine = some next) :
    InLockstep next := by
  unfold State.timerRoutine at taken
  split at taken
  case h_1 position =>
    split at taken <;> cases taken
    · exact invariant.move .exited (by simp) (by simp) (by simp [position])
    · refine invariant.move _ (by simp) ?_ (by simp [position])
      intro dev member _ collected
      exact absurd member collected
  case h_2 dev rest fsh event position =>
    split at taken <;> cases taken
    rename_i ready
    refine invariant.move _ (by simp) ?_ (by simp [position])
    intro other member undetached collected
    have before := invariant.inStep other member undetached
    by_cases same : other = dev
    · subst same
      simpa [before.unfinished] using ready
    · refine before.held (.inl ?_)
      rw [position]
      simpa [same] using collected
  case h_3 fsh event position =>
    split at taken <;> cases taken
    · exact invariant.move .exited (by simp) (by simp) (by simp [position])
    · exact invariant.nextTime position
  case h_4 dev rest position =>
    cases taken
    exact invariant.release position
  case h_5 position =>
    cases taken
    exact invariant.move .check (by simp) (by simp) (by simp [position])
  case h_6 position =>
    cases taken

/-- A step of one device keeps the lockstep if it keeps that device in step. -/
theorem InLockstep.setDevice
    {state : State δ}
    (invariant : InLockstep state)
    (dev : δ)
    (timerId : TimerId)
    (inStep : dev ∈ state.devList → timerId.Undetached →
      InStep state.time state.routine dev timerId) :
    InLockstep (state.setDevice dev timerId) where
  distinct := invariant.distinct
  releasedOnce := invariant.releasedOnce
  inStep := by
    intro other member undetached
    by_cases same : other = dev
    · subst same
      simpa using inStep member (by simpa using undetached)
    · rw [State.setDevice_device_other _ _ same] at undetached ⊢
      exact invariant.inStep other member undetached

/-- Setting `done` keeps the lockstep: the device is not due for release, so it
has not finished the current slot before. -/
theorem InLockstep.nextSlotEnter
    {state next : State δ}
    (invariant : InLockstep state)
    (dev : δ)
    (taken : state.nextSlotEnter dev = some next) :
    InLockstep next := by
  simp only [State.nextSlotEnter] at taken
  split at taken <;> cases taken
  rename_i enabled
  refine invariant.setDevice dev _ fun member _ => ?_
  have before := invariant.inStep dev member (by
    simp [TimerId.Undetached, enabled.2])
  obtain ⟨clear, balanced⟩ := before.working enabled.2
  have notDue : ¬state.routine.AwaitsRelease dev := by
    intro awaits
    simpa [clear] using before.held (.inr awaits)
  have entered := before.current notDue
  exact
    { unfinished := before.unfinished
      working := by simp
      waiting := by simpa using balanced
      held := by simp
      unreleased := fun awaits => absurd awaits notDue
      current := by simpa [clear] using fun _ => entered }

/-- Returning from `next_slot` keeps the lockstep. -/
theorem InLockstep.nextSlotReturn
    {state next : State δ}
    (invariant : InLockstep state)
    (dev : δ)
    (taken : state.nextSlotReturn dev = some next) :
    InLockstep next := by
  simp only [State.nextSlotReturn] at taken
  split at taken <;> cases taken
  rename_i enabled
  obtain ⟨_, waiting, clear⟩ := enabled
  refine invariant.setDevice dev _ fun member _ => ?_
  have before := invariant.inStep dev member (by
    simp [TimerId.Undetached, waiting])
  exact
    { unfinished := before.unfinished
      working := fun _ => ⟨clear, before.waiting waiting⟩
      waiting := by simp
      held := before.held
      unreleased := before.unreleased
      current := before.current }

/-- Detaching keeps the other devices in step. -/
theorem InLockstep.detachEvent
    {state next : State δ}
    (invariant : InLockstep state)
    (dev : δ)
    (taken : state.detachEvent dev = some next) :
    InLockstep next := by
  simp only [State.detachEvent] at taken
  split at taken <;> cases taken
  refine invariant.setDevice dev _ fun _ undetached => ?_
  exact absurd rfl undetached

/-- No step attaches or forgets a device. -/
theorem State.step_devList
    {state next : State δ}
    {event : Event δ}
    (taken : state.step event = some next) :
    next.devList = state.devList := by
  cases event with
  | timerRoutine =>
      simp only [State.step, State.timerRoutine] at taken
      repeat' split at taken
      all_goals cases taken
      all_goals rfl
  | nextSlotEnter dev =>
      simp only [State.step, State.nextSlotEnter] at taken
      split at taken <;> cases taken
      rfl
  | nextSlotReturn dev =>
      simp only [State.step, State.nextSlotReturn] at taken
      split at taken <;> cases taken
      rfl
  | detachEvent dev =>
      simp only [State.step, State.detachEvent] at taken
      split at taken <;> cases taken
      rfl
  | stopTimer =>
      cases taken
      rfl

/-- The devices of every reachable state are those attached at the start. -/
theorem devList_run
    {devices : List δ}
    {permitted : State δ → Event δ → Prop}
    {state : State δ}
    (run : Run State.step permitted (boot devices) state) :
    state.devList = devices.reverse :=
  run.invariant (fun state => state.devList = devices.reverse)
    (fun _ _ _ kept _ taken => (State.step_devList taken).trans kept)
    (boot_devList devices)

/-- Every atomic step keeps the lockstep. -/
theorem InLockstep.step
    {state next : State δ}
    (invariant : InLockstep state)
    (event : Event δ)
    (taken : state.step event = some next) :
    InLockstep next := by
  cases event with
  | timerRoutine => exact invariant.timerRoutine taken
  | nextSlotEnter dev => exact invariant.nextSlotEnter dev taken
  | nextSlotReturn dev => exact invariant.nextSlotReturn dev taken
  | detachEvent dev => exact invariant.detachEvent dev taken
  | stopTimer =>
      cases taken
      exact
        { distinct := invariant.distinct
          releasedOnce := invariant.releasedOnce
          inStep := invariant.inStep }

/-- The lockstep holds in every reachable state. -/
theorem inLockstep_run
    {devices : List δ}
    (distinct : devices.Nodup)
    {permitted : State δ → Event δ → Prop}
    {state : State δ}
    (run : Run State.step permitted (boot devices) state) :
    InLockstep state :=
  run.invariant InLockstep
    (fun _ event _ invariant _ taken => invariant.step event taken)
    (inLockstep_boot devices distinct)

/-- Time never passes a device that still works in the current slot, and no
device runs ahead of time. -/
theorem timer_lockstep
    (devices : List δ)
    (distinct : devices.Nodup)
    (state : State δ)
    (run : Run State.step anyEvent (boot devices) state)
    (dev : δ)
    (attached : dev ∈ devices)
    (undetached : (state.device dev).Undetached) :
    (state.device dev).returned ≤ state.time ∧
      state.time ≤ (state.device dev).entered ∧
      (state.device dev).entered ≤ state.time + 1 ∧
      (state.device dev).entered ≤ (state.device dev).returned + 1 := by
  have invariant := inLockstep_run distinct run
  have member : dev ∈ state.devList := by
    simpa [devList_run run] using attached
  cases phase : (state.device dev).phase with
  | working =>
      have := invariant.working member phase
      omega
  | waiting =>
      have := invariant.waiting member phase
      omega
  | detached => exact absurd phase undetached

/-- A schedule of two devices: the first has been released into slot one and
has finished it already, while the second still waits for its release. -/
def releasingSchedule : List (Event Nat) :=
  [.nextSlotEnter 0, .nextSlotEnter 1, .timerRoutine, .timerRoutine,
    .timerRoutine, .timerRoutine, .timerRoutine, .nextSlotReturn 1,
    .nextSlotEnter 1]

theorem timer_lockstep_releasing :
    ∃ state, replay State.step (boot [0, 1]) releasingSchedule = some state ∧
      state.time = 1 ∧
      (state.device 0).returned ≤ state.time ∧
      state.time ≤ (state.device 0).entered ∧
      (state.device 0).entered ≤ state.time + 1 ∧
      (state.device 0).entered ≤ (state.device 0).returned + 1 := by
  refine ⟨_, rfl, rfl, ?_⟩
  exact timer_lockstep [0, 1] (by decide) _
    (Run.of_replay_any releasingSchedule rfl) 0 (by decide)
    (show Phase.waiting ≠ Phase.detached by decide)

end Timer
end Ossim
