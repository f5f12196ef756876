import Ossim.Library.Transition
import Mathlib.Logic.Function.Basic

/-!
# The timer and its devices

`timer_routine` advances the global time once every attached device has either
finished its work in the current slot or detached.  Each section under one of
the two mutexes of a device is one atomic step here, and a condition wait is the
guard of the step behind it.  Devices are the CPUs and the loader; what they do
between two calls of `next_slot` is not restricted.
-/

namespace Ossim
namespace Timer

/-- Where a device stands: working in the current slot, inside `next_slot`
behind the section that sets `done`, or behind `detach_event`. -/
inductive Phase
  | working
  | waiting
  | detached
  deriving DecidableEq

/-- The `timer_id_t` of one device, together with its position and the number
of times `next_slot` has set `done` and has returned. -/
structure TimerId where
  done : Bool
  fsh : Bool
  phase : Phase
  entered : Nat
  returned : Nat
  deriving DecidableEq

/-- The container that `attach_event` allocates. -/
def TimerId.attached : TimerId where
  done := false
  fsh := false
  phase := .working
  entered := 0
  returned := 0

/-- Position of `timer_routine`: the test of `timer_stop`, the loop that waits
for the devices (with its two counters), the loop that lets them continue, and
the end of the thread. -/
inductive Routine (δ : Type*)
  | check
  | collect (temp : List δ) (fsh event : Nat)
  | release (temp : List δ)
  | exited

/-- Shared state of the timer thread and its devices. -/
structure State (δ : Type*) where
  devList : List δ
  device : δ → TimerId
  time : Nat
  timerStop : Bool
  routine : Routine δ

/-- `attach_event` before `start_timer`: the new device becomes the head of
`dev_list`. -/
def attachEvent (devList : List δ) (dev : δ) : List δ :=
  dev :: devList

/-- `start_timer`, with the devices attached so far. -/
def startTimer (devList : List δ) : State δ where
  devList := devList
  device := fun _ => TimerId.attached
  time := 0
  timerStop := false
  routine := .check

/-- The state in which the devices of a list have been attached one after the
other and the timer has just been started. -/
def boot (devices : List δ) : State δ :=
  startTimer (devices.foldl attachEvent [])

/-- Atomic steps: one of the timer thread, the two sections of `next_slot`,
`detach_event`, and the assignment of `stop_timer`. -/
inductive Event (δ : Type*)
  | timerRoutine
  | nextSlotEnter (dev : δ)
  | nextSlotReturn (dev : δ)
  | detachEvent (dev : δ)
  | stopTimer

namespace State

variable [DecidableEq δ]

/-- Replace the record of one device. -/
def setDevice (state : State δ) (dev : δ) (timerId : TimerId) : State δ :=
  { state with device := Function.update state.device dev timerId }

/-- One step of `timer_routine`. -/
def timerRoutine (state : State δ) : Option (State δ) :=
  match state.routine with
  | .check =>
      if state.timerStop then
        some { state with routine := .exited }
      else
        some { state with routine := .collect state.devList 0 0 }
  | .collect (dev :: rest) fsh event =>
      -- `pthread_cond_wait` returns to a test of the same condition.
      if (state.device dev).done || (state.device dev).fsh then
        some { state with
          routine := .collect rest
            (if (state.device dev).fsh then fsh + 1 else fsh) (event + 1) }
      else
        none
  | .collect [] fsh event =>
      if fsh = event then
        some { state with routine := .exited }
      else
        some { state with
          time := state.time + 1
          routine := .release state.devList }
  | .release (dev :: rest) =>
      some { state.setDevice dev { state.device dev with done := false } with
        routine := .release rest }
  | .release [] => some { state with routine := .check }
  | .exited => none

/-- The section of `next_slot` that sets `done`. -/
def nextSlotEnter (state : State δ) (dev : δ) : Option (State δ) :=
  let timerId := state.device dev
  if dev ∈ state.devList ∧ timerId.phase = .working then
    some (state.setDevice dev { timerId with
      done := true
      phase := .waiting
      entered := timerId.entered + 1 })
  else
    none

/-- The section of `next_slot` that waits until `done` is cleared. -/
def nextSlotReturn (state : State δ) (dev : δ) : Option (State δ) :=
  let timerId := state.device dev
  if dev ∈ state.devList ∧ timerId.phase = .waiting ∧ timerId.done = false then
    some (state.setDevice dev { timerId with
      phase := .working
      returned := timerId.returned + 1 })
  else
    none

/-- `detach_event`. -/
def detachEvent (state : State δ) (dev : δ) : Option (State δ) :=
  let timerId := state.device dev
  if dev ∈ state.devList ∧ timerId.phase = .working then
    some (state.setDevice dev { timerId with
      fsh := true
      phase := .detached })
  else
    none

/-- The atomic steps of the timer and its devices. -/
def step (state : State δ) : Event δ → Option (State δ)
  | .timerRoutine => state.timerRoutine
  | .nextSlotEnter dev => state.nextSlotEnter dev
  | .nextSlotReturn dev => state.nextSlotReturn dev
  | .detachEvent dev => state.detachEvent dev
  | .stopTimer => some { state with timerStop := true }

@[simp] theorem setDevice_device_same
    (state : State δ) (dev : δ) (timerId : TimerId) :
    (state.setDevice dev timerId).device dev = timerId := by
  simp [setDevice]

theorem setDevice_device_other
    (state : State δ) {dev other : δ} (timerId : TimerId)
    (different : other ≠ dev) :
    (state.setDevice dev timerId).device other = state.device other := by
  simp [setDevice, different]

@[simp] theorem setDevice_devList
    (state : State δ) (dev : δ) (timerId : TimerId) :
    (state.setDevice dev timerId).devList = state.devList := rfl

@[simp] theorem setDevice_time
    (state : State δ) (dev : δ) (timerId : TimerId) :
    (state.setDevice dev timerId).time = state.time := rfl

@[simp] theorem setDevice_routine
    (state : State δ) (dev : δ) (timerId : TimerId) :
    (state.setDevice dev timerId).routine = state.routine := rfl

/-- The timer thread changes neither the position nor the counters of a device,
and time does not run backwards. -/
theorem timerRoutine_spec
    {state next : State δ}
    (taken : state.timerRoutine = some next) :
    next.devList = state.devList ∧ state.time ≤ next.time ∧
      ∀ dev, (next.device dev).phase = (state.device dev).phase ∧
        (next.device dev).entered = (state.device dev).entered := by
  unfold timerRoutine at taken
  split at taken
  case h_1 =>
    split at taken <;> cases taken <;> simp
  case h_2 =>
    split at taken <;> cases taken
    simp
  case h_3 =>
    split at taken <;> cases taken <;> simp
  case h_4 dev rest _ =>
    cases taken
    refine ⟨rfl, Nat.le_refl _, fun other => ?_⟩
    by_cases same : other = dev
    · subst same
      simp
    · simp [setDevice_device_other _ _ same]
  case h_5 =>
    cases taken
    simp
  case h_6 =>
    cases taken

/-- What the section of `next_slot` that sets `done` changes. -/
theorem nextSlotEnter_spec
    {state next : State δ}
    {dev : δ}
    (taken : state.nextSlotEnter dev = some next) :
    (state.device dev).phase = .working ∧
      next = state.setDevice dev { state.device dev with
        done := true
        phase := .waiting
        entered := (state.device dev).entered + 1 } := by
  simp only [nextSlotEnter] at taken
  split at taken <;> cases taken
  rename_i enabled
  exact ⟨enabled.2, rfl⟩

/-- What the return from `next_slot` changes. -/
theorem nextSlotReturn_spec
    {state next : State δ}
    {dev : δ}
    (taken : state.nextSlotReturn dev = some next) :
    next = state.setDevice dev { state.device dev with
      phase := .working
      returned := (state.device dev).returned + 1 } := by
  simp only [nextSlotReturn] at taken
  split at taken <;> cases taken
  rfl

/-- What `detach_event` changes. -/
theorem detachEvent_spec
    {state next : State δ}
    {dev : δ}
    (taken : state.detachEvent dev = some next) :
    next = state.setDevice dev { state.device dev with
      fsh := true
      phase := .detached } := by
  simp only [detachEvent] at taken
  split at taken <;> cases taken
  rfl

end State

/-- `dev_list` holds the devices in the reverse order of their attachment. -/
@[simp] theorem boot_devList (devices : List δ) :
    (boot devices).devList = devices.reverse := by
  have general : ∀ (rest built : List δ),
      rest.foldl attachEvent built = rest.reverse ++ built := by
    intro rest
    induction rest with
    | nil => intro built; rfl
    | cons dev rest inductionHypothesis =>
        intro built
        simp [inductionHypothesis, attachEvent]
  simp [boot, startTimer, general]

@[simp] theorem boot_device (devices : List δ) (dev : δ) :
    (boot devices).device dev = TimerId.attached := rfl

@[simp] theorem boot_time (devices : List δ) : (boot devices).time = 0 := rfl

@[simp] theorem boot_routine (devices : List δ) :
    (boot devices).routine = .check := rfl

end Timer
end Ossim
