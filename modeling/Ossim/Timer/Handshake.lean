import Ossim.Timer.Threads

/-!
# The handshake of the timer and one device

The timer thread and a device share two mutexes and two condition variables.  What
holds between them depends on their positions and the `timer_id_t` only.  Each
statement of either thread keeps it, and it shows that a thread sleeps only while
the other one still has to signal it.
-/

namespace Ossim
namespace Timer

namespace Threads

/-- Where the timer thread stands as far as one device is concerned. -/
inductive TimerPc
  | away
  | collecting (pc : CollectPc)
  | releasing (pc : ReleasePc)

/-- Inside the section under `event_lock`. -/
def TimerPc.InEvent : TimerPc → Prop
  | .collecting .test | .collecting .wait | .collecting .count | .collecting .unlock => True
  | _ => False

/-- Inside the section under `timer_lock`. -/
def TimerPc.InTimer : TimerPc → Prop
  | .releasing .clear | .releasing .signal | .releasing .unlock => True
  | _ => False

/-- Behind the test that found neither flag set. -/
def TimerPc.Waits : TimerPc → Prop
  | .collecting .wait => True
  | _ => False

/-- In the wait for `event_cond`. -/
def TimerPc.Asleep : TimerPc → Prop
  | .collecting .asleep => True
  | _ => False

/-- About to signal `timer_cond`. -/
def TimerPc.Signals : TimerPc → Prop
  | .releasing .signal => True
  | _ => False

/-- Inside a section under `event_lock`. -/
def DevicePc.InEvent : DevicePc → Prop
  | .setDone | .eventSignal | .eventUnlock | .setFsh | .detachSignal | .detachUnlock => True
  | _ => False

/-- Inside the section under `timer_lock`. -/
def DevicePc.InTimer : DevicePc → Prop
  | .testDone | .timerWait | .timerUnlock => True
  | _ => False

/-- Behind the test that found `done` set. -/
def DevicePc.Waits : DevicePc → Prop
  | .timerWait => True
  | _ => False

/-- In the wait for `timer_cond`. -/
def DevicePc.Asleep : DevicePc → Prop
  | .asleep => True
  | _ => False

/-- About to signal `event_cond`. -/
def DevicePc.Signals : DevicePc → Prop
  | .eventSignal | .detachSignal => True
  | _ => False

/-- Behind the assignment of `fsh`. -/
def DevicePc.Finished : DevicePc → Prop
  | .detachSignal | .detachUnlock | .detached => True
  | _ => False

/-- Which of the two threads is inside. -/
def inside (timer device : Prop) : Party → Prop
  | .timer => timer
  | .device => device

/-- What holds between the timer and one device. -/
structure Handshake (timer : TimerPc) (device : DevicePc) (id : TimerId) : Prop where
  eventGuarded : id.event.Guarded (inside timer.InEvent device.InEvent)
  timerGuarded : id.timer.Guarded (inside timer.InTimer device.InTimer)
  /-- The timer sleeps while neither flag is set, or a signal is due. -/
  timerSleeps : id.event.Sleeps .timer
    (timer.Asleep ∧ (id.done = false ∧ id.fsh = false ∨ device.Signals))
  /-- The device sleeps while `done` is set, or a signal is due. -/
  deviceSleeps : id.timer.Sleeps .device (device.Asleep ∧ (id.done = true ∨ timer.Signals))
  timerWaits : timer.Waits → id.done = false ∧ id.fsh = false
  deviceWaits : device.Waits → id.done = true
  finished : id.fsh = true ↔ device.Finished

section TwoParties

variable {monitor monitor' : Monitor Party} {timer timer' device device' : Prop}

theorem timer_enters
    (guarded : monitor.Guarded (inside timer device))
    (free : monitor.owner = none)
    (owner : monitor'.owner = some .timer)
    (entered : timer') :
    monitor'.Guarded (inside timer' device) := by
  refine guarded.enter free owner fun party => ?_
  cases party with
  | timer => simp [inside, entered]
  | device => simp [inside]

theorem device_enters
    (guarded : monitor.Guarded (inside timer device))
    (free : monitor.owner = none)
    (owner : monitor'.owner = some .device)
    (entered : device') :
    monitor'.Guarded (inside timer device') := by
  refine guarded.enter free owner fun party => ?_
  cases party with
  | timer => simp [inside]
  | device => simp [inside, entered]

theorem timer_leaves
    (guarded : monitor.Guarded (inside timer device))
    (isInside : timer)
    (owner : monitor'.owner = none)
    (left : ¬timer') :
    monitor'.Guarded (inside timer' device) := by
  have insideTimer : inside timer device .timer := isInside
  refine guarded.leave insideTimer owner fun party => ?_
  cases party with
  | timer => simp [inside, left]
  | device => simp [inside]

theorem device_leaves
    (guarded : monitor.Guarded (inside timer device))
    (isInside : device)
    (owner : monitor'.owner = none)
    (left : ¬device') :
    monitor'.Guarded (inside timer device') := by
  have insideDevice : inside timer device .device := isInside
  refine guarded.leave insideDevice owner fun party => ?_
  cases party with
  | timer => simp [inside]
  | device => simp [inside, left]

theorem guarded_init
    (timerOutside : ¬timer)
    (deviceOutside : ¬device) :
    Monitor.init.Guarded (inside timer device) := by
  intro party
  cases party with
  | timer => simp [Monitor.init, inside, timerOutside]
  | device => simp [Monitor.init, inside, deviceOutside]

/-- The two threads are never inside together. -/
theorem not_both_inside
    (guarded : monitor.Guarded (inside timer device))
    (timerInside : timer) :
    ¬device := by
  intro deviceInside
  have insideTimer : inside timer device .timer := timerInside
  have insideDevice : inside timer device .device := deviceInside
  have same := guarded.exclusive insideTimer insideDevice
  cases same

end TwoParties

theorem TimerPc.Waits.inEvent
    {timer : TimerPc}
    (waits : timer.Waits) :
    timer.InEvent := by
  unfold TimerPc.Waits at waits
  split at waits
  · trivial
  · cases waits

theorem TimerPc.Signals.inTimer
    {timer : TimerPc}
    (signals : timer.Signals) :
    timer.InTimer := by
  unfold TimerPc.Signals at signals
  split at signals
  · trivial
  · cases signals

theorem DevicePc.Signals.inEvent
    {device : DevicePc}
    (signals : device.Signals) :
    device.InEvent := by
  unfold DevicePc.Signals at signals
  split at signals
  · trivial
  · trivial
  · cases signals

theorem DevicePc.Waits.inTimer
    {device : DevicePc}
    (waits : device.Waits) :
    device.InTimer := by
  unfold DevicePc.Waits at waits
  split at waits
  · trivial
  · cases waits

namespace Handshake

variable {timer : TimerPc} {device device' : DevicePc} {id id' : TimerId}

/-- Each statement of a device keeps the handshake. -/
theorem device_step
    (handshake : Handshake timer device id)
    (taken : deviceStep id device = some (device', id')) :
    Handshake timer device' id' := by
  cases device with
  | working | detached => cases taken
  | eventLock | detachLock =>
      simp only [deviceStep, Option.map_eq_some_iff, Monitor.lock_eq_some_iff] at taken
      obtain ⟨event, ⟨free, rfl⟩, moved⟩ := taken
      cases moved
      exact { handshake with
        eventGuarded := device_enters handshake.eventGuarded free rfl trivial }
  | setDone =>
      cases taken
      have timerOutside : ¬timer.InEvent := fun isInside =>
        not_both_inside handshake.eventGuarded isInside trivial
      exact { handshake with
        timerSleeps := handshake.timerSleeps.mono rfl fun because => ⟨because.1, .inr trivial⟩
        deviceSleeps := handshake.deviceSleeps.mono rfl fun because => because.1.elim
        timerWaits := fun waits => absurd waits.inEvent timerOutside
        deviceWaits := False.elim }
  | setFsh =>
      cases taken
      have timerOutside : ¬timer.InEvent := fun isInside =>
        not_both_inside handshake.eventGuarded isInside trivial
      exact { handshake with
        timerSleeps := handshake.timerSleeps.mono rfl fun because => ⟨because.1, .inr trivial⟩
        timerWaits := fun waits => absurd waits.inEvent timerOutside
        finished := iff_of_true rfl trivial }
  | eventSignal | detachSignal =>
      cases taken
      exact { handshake with
        timerSleeps := .inl handshake.timerSleeps.signal }
  | eventUnlock | detachUnlock =>
      cases taken
      exact { handshake with
        eventGuarded := device_leaves handshake.eventGuarded trivial rfl not_false }
  | timerLock =>
      simp only [deviceStep, Option.map_eq_some_iff, Monitor.lock_eq_some_iff] at taken
      obtain ⟨_, ⟨free, rfl⟩, moved⟩ := taken
      cases moved
      exact { handshake with
        timerGuarded := device_enters handshake.timerGuarded free rfl trivial }
  | testDone =>
      simp only [deviceStep, Option.some.injEq, Prod.mk.injEq] at taken
      obtain ⟨rfl, rfl⟩ := taken
      split
      case isTrue isDone =>
        exact { handshake with
          deviceWaits := fun _ => isDone }
      case isFalse _ => exact { handshake with }
  | timerWait =>
      cases taken
      exact { handshake with
        timerGuarded := device_leaves handshake.timerGuarded trivial rfl not_false
        deviceSleeps := handshake.deviceSleeps.wait And.left
          ⟨trivial, .inl (handshake.deviceWaits trivial)⟩
        deviceWaits := False.elim }
  | asleep =>
      simp only [deviceStep, Option.map_eq_some_iff, Monitor.resume_eq_some_iff] at taken
      obtain ⟨_, ⟨awake, free, rfl⟩, moved⟩ := taken
      cases moved
      exact { handshake with
        timerGuarded := device_enters handshake.timerGuarded free rfl trivial
        deviceSleeps := .inl (handshake.deviceSleeps.resolve_right fun ⟨asleep, _⟩ =>
          awake (asleep ▸ List.mem_singleton_self _)) }
  | timerUnlock =>
      cases taken
      exact { handshake with
        timerGuarded := device_leaves handshake.timerGuarded trivial rfl not_false }

/-- Each statement of the first loop keeps the handshake. -/
theorem collect_step
    {pc pc' : CollectPc}
    (handshake : Handshake (.collecting pc) device id)
    (taken : collectStep id pc = some (pc', id')) :
    Handshake (.collecting pc') device id' := by
  cases pc with
  | lock =>
      simp only [collectStep, Option.map_eq_some_iff, Monitor.lock_eq_some_iff] at taken
      obtain ⟨_, ⟨free, rfl⟩, moved⟩ := taken
      cases moved
      exact { handshake with
        eventGuarded := timer_enters handshake.eventGuarded free rfl trivial }
  | test =>
      simp only [collectStep, Option.some.injEq, Prod.mk.injEq] at taken
      obtain ⟨rfl, rfl⟩ := taken
      split
      case isTrue neither =>
        exact { handshake with
          timerWaits := fun _ => by simpa using neither }
      case isFalse _ => exact { handshake with }
  | wait =>
      cases taken
      exact { handshake with
        eventGuarded := timer_leaves handshake.eventGuarded trivial rfl not_false
        timerSleeps := handshake.timerSleeps.wait And.left
          ⟨trivial, .inl (handshake.timerWaits trivial)⟩
        timerWaits := False.elim }
  | asleep =>
      simp only [collectStep, Option.map_eq_some_iff, Monitor.resume_eq_some_iff] at taken
      obtain ⟨_, ⟨awake, free, rfl⟩, moved⟩ := taken
      cases moved
      exact { handshake with
        eventGuarded := timer_enters handshake.eventGuarded free rfl trivial
        timerSleeps := .inl (handshake.timerSleeps.resolve_right fun ⟨asleep, _⟩ =>
          awake (asleep ▸ List.mem_singleton_self _)) }
  | count | unlock => cases taken

/-- Each statement of the second loop keeps the handshake. -/
theorem release_step
    {pc pc' : ReleasePc}
    (handshake : Handshake (.releasing pc) device id)
    (taken : releaseStep id pc = some (pc', id')) :
    Handshake (.releasing pc') device id' := by
  cases pc with
  | lock =>
      simp only [releaseStep, Option.map_eq_some_iff, Monitor.lock_eq_some_iff] at taken
      obtain ⟨_, ⟨free, rfl⟩, moved⟩ := taken
      cases moved
      exact { handshake with
        timerGuarded := timer_enters handshake.timerGuarded free rfl trivial }
  | clear =>
      cases taken
      have deviceOutside : ¬device.InTimer := not_both_inside handshake.timerGuarded trivial
      exact { handshake with
        timerSleeps := handshake.timerSleeps.mono rfl fun because => because.1.elim
        deviceSleeps := handshake.deviceSleeps.mono rfl fun because => ⟨because.1, .inr trivial⟩
        timerWaits := False.elim
        deviceWaits := fun waits => absurd waits.inTimer deviceOutside }
  | signal =>
      cases taken
      exact { handshake with
        deviceSleeps := .inl handshake.deviceSleeps.signal }
  | unlock => cases taken

/-- The end of the section of the first loop. -/
theorem collect_unlock
    (handshake : Handshake (.collecting .unlock) device id) :
    Handshake .away device { id with event := id.event.unlock } :=
  { handshake with
    eventGuarded := timer_leaves handshake.eventGuarded trivial rfl not_false }

/-- The end of the section of the second loop. -/
theorem release_unlock
    (handshake : Handshake (.releasing .unlock) device id) :
    Handshake .away device { id with timer := id.timer.unlock } :=
  { handshake with
    timerGuarded := timer_leaves handshake.timerGuarded trivial rfl not_false }

/-- A thread may wake up without a signal. -/
theorem wake_timer
    {event : Monitor Party}
    (handshake : Handshake timer device id)
    (woken : id.event.wakeUp .timer = some event) :
    Handshake timer device { id with event := event } :=
  { handshake with
    eventGuarded := handshake.eventGuarded.congr (Monitor.owner_of_wakeUp woken) fun _ => .rfl
    timerSleeps := .inl (handshake.timerSleeps.wakeUp woken) }

theorem wake_device
    {timerMonitor : Monitor Party}
    (handshake : Handshake timer device id)
    (woken : id.timer.wakeUp .device = some timerMonitor) :
    Handshake timer device { id with timer := timerMonitor } :=
  { handshake with
    timerGuarded := handshake.timerGuarded.congr (Monitor.owner_of_wakeUp woken) fun _ => .rfl
    deviceSleeps := .inl (handshake.deviceSleeps.wakeUp woken) }

/-- A device that is working calls a function. -/
theorem call
    (handshake : Handshake timer .working id)
    (isCall : device = .eventLock ∨ device = .detachLock) :
    Handshake timer device id := by
  rcases isCall with rfl | rfl
  · exact { handshake with }
  · exact { handshake with }

end Handshake

/-! ## Who can go on -/

section DeviceStep

variable {device : DevicePc} (id : TimerId)

/-- Inside its sections a device does not block. -/
theorem deviceStep_isSome_of_inside
    (isInside : device.InEvent ∨ device.InTimer) :
    (deviceStep id device).isSome = true := by
  cases device with
  | setDone | eventSignal | eventUnlock | setFsh | detachSignal | detachUnlock => rfl
  | testDone | timerWait | timerUnlock => rfl
  | _ => exact isInside.elim False.elim False.elim

/-- Neither does it behind the assignment of `fsh`. -/
theorem deviceStep_isSome_of_finished
    (isFinished : device.Finished)
    (undetached : device ≠ .detached) :
    (deviceStep id device).isSome = true := by
  cases device with
  | detachSignal | detachUnlock => rfl
  | detached => exact absurd rfl undetached
  | _ => exact isFinished.elim

end DeviceStep

namespace Handshake

variable {timer : TimerPc} {device : DevicePc} {id : TimerId}

/-- A device inside a call goes on, unless the timer is inside or still has to clear
`done`. -/
theorem device_enabled
    (handshake : Handshake timer device id)
    (inCall : device ≠ .working)
    (undetached : device ≠ .detached) :
    (deviceStep id device).isSome = true ∨ timer.InEvent ∨ timer.InTimer ∨
      device.Asleep ∧ id.done = true := by
  cases device with
  | working => exact absurd rfl inCall
  | detached => exact absurd rfl undetached
  | eventLock | detachLock =>
      rcases handshake.eventGuarded.lock_or_inside .device with free | ⟨party, isInside⟩
      · exact .inl (by simpa [deviceStep] using free)
      · cases party with
        | timer => exact .inr (.inl isInside)
        | device => exact isInside.elim
  | timerLock =>
      rcases handshake.timerGuarded.lock_or_inside .device with free | ⟨party, isInside⟩
      · exact .inl (by simpa [deviceStep] using free)
      · cases party with
        | timer => exact .inr (.inr (.inl isInside))
        | device => exact isInside.elim
  | asleep =>
      rcases handshake.deviceSleeps.resume_or handshake.timerGuarded with
        awake | ⟨_, isDone | signals⟩ | ⟨party, isInside⟩
      · exact .inl (by simpa [deviceStep] using awake)
      · exact .inr (.inr (.inr ⟨trivial, isDone⟩))
      · exact .inr (.inr (.inl signals.inTimer))
      · cases party with
        | timer => exact .inr (.inr (.inl isInside))
        | device => exact isInside.elim
  | _ => exact .inl (deviceStep_isSome_of_inside id (by simp [DevicePc.InEvent, DevicePc.InTimer]))

end Handshake

end Threads

end Timer
end Ossim
