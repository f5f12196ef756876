import Ossim.Library.Monitor
import Ossim.Timer.Defs

/-!
# The timer and its devices as threads

The model of `timer.c` at the level of its locks.  Every call of the thread
library and every access to `done` and `fsh` is a step of its own, and the two
mutexes and condition variables of a `timer_id_t` are explicit.  A signal that
nobody waits for is lost, and a wait may end without a signal.

Only the timer thread and the device that owns it use a `timer_id_t`.
-/

namespace Ossim
namespace Timer

namespace Threads

/-- The two threads that use a `timer_id_t`. -/
inductive Party
  | timer
  | device
  deriving DecidableEq

/-- `struct timer_id_t`, each mutex with its condition variable. -/
structure TimerId where
  done : Bool
  fsh : Bool
  event : Monitor Party
  timer : Monitor Party

/-- The container that `attach_event` allocates. -/
def TimerId.attached : TimerId where
  done := false
  fsh := false
  event := .init
  timer := .init

/-- Where a device stands: working, at the statements of `next_slot`, at those of
`detach_event`, or behind it. -/
inductive DevicePc
  | working
  | eventLock
  | setDone
  | eventSignal
  | eventUnlock
  | timerLock
  | testDone
  | timerWait
  | asleep
  | timerUnlock
  | detachLock
  | setFsh
  | detachSignal
  | detachUnlock
  | detached
  deriving DecidableEq

/-- The statements for one device in the loop that waits for all of them. -/
inductive CollectPc
  | lock
  | test
  | wait
  | asleep
  | count
  | unlock

/-- The statements for one device in the loop that lets them continue. -/
inductive ReleasePc
  | lock
  | clear
  | signal
  | unlock

/-- Position of `timer_routine`, with the rest of the list and the counters of the
first loop. -/
inductive Routine (δ : Type*)
  | check
  | collect (temp : List δ) (fsh event : Nat)
  | collecting (pc : CollectPc) (temp : δ) (next : List δ) (fsh event : Nat)
  | release (temp : List δ)
  | releasing (pc : ReleasePc) (temp : δ) (next : List δ)
  | exited

/-- Shared state of the timer thread and its devices. -/
structure State (δ : Type*) where
  devList : List δ
  timerId : δ → TimerId
  device : δ → DevicePc
  time : Nat
  timerStop : Bool
  routine : Routine δ

/-- The devices of a list have been attached one after the other, and the timer has
just been started. -/
def boot (devices : List δ) : State δ where
  devList := devices.foldl attachEvent []
  timerId := fun _ => .attached
  device := fun _ => .working
  time := 0
  timerStop := false
  routine := .check

/-- What can happen next: a statement of the timer thread or of a device inside a
call, a call of a device that is working, a wake-up without a signal, and the
assignment of `stop_timer`. -/
inductive Event (δ : Type*)
  | timerRoutine
  | device (dev : δ)
  | nextSlot (dev : δ)
  | detachEvent (dev : δ)
  | wakeTimer (dev : δ)
  | wakeDevice (dev : δ)
  | stopTimer

/-- A step that a thread takes by itself. -/
def Event.OfThread : Event δ → Prop
  | .timerRoutine | .device _ | .nextSlot _ | .detachEvent _ => True
  | .wakeTimer _ | .wakeDevice _ | .stopTimer => False

/-- The statements of `next_slot` and `detach_event`. -/
def deviceStep (id : TimerId) : DevicePc → Option (DevicePc × TimerId)
  | .working => none
  | .eventLock => (id.event.lock .device).map fun event => (.setDone, { id with event := event })
  | .setDone => some (.eventSignal, { id with done := true })
  | .eventSignal => some (.eventUnlock, { id with event := id.event.signal })
  | .eventUnlock => some (.timerLock, { id with event := id.event.unlock })
  | .timerLock => (id.timer.lock .device).map fun timer => (.testDone, { id with timer := timer })
  | .testDone => some (if id.done then .timerWait else .timerUnlock, id)
  | .timerWait => some (.asleep, { id with timer := id.timer.wait .device })
  | .asleep => (id.timer.resume .device).map fun timer => (.testDone, { id with timer := timer })
  | .timerUnlock => some (.working, { id with timer := id.timer.unlock })
  | .detachLock => (id.event.lock .device).map fun event => (.setFsh, { id with event := event })
  | .setFsh => some (.detachSignal, { id with fsh := true })
  | .detachSignal => some (.detachUnlock, { id with event := id.event.signal })
  | .detachUnlock => some (.detached, { id with event := id.event.unlock })
  | .detached => none

/-- The statements of the first loop on the `timer_id_t` of a device. -/
def collectStep (id : TimerId) : CollectPc → Option (CollectPc × TimerId)
  | .lock => (id.event.lock .timer).map fun event => (.test, { id with event := event })
  | .test => some (if !id.done && !id.fsh then .wait else .count, id)
  | .wait => some (.asleep, { id with event := id.event.wait .timer })
  | .asleep => (id.event.resume .timer).map fun event => (.test, { id with event := event })
  | .count | .unlock => none

/-- The statements of the second loop. -/
def releaseStep (id : TimerId) : ReleasePc → Option (ReleasePc × TimerId)
  | .lock => (id.timer.lock .timer).map fun timer => (.clear, { id with timer := timer })
  | .clear => some (.signal, { id with done := false })
  | .signal => some (.unlock, { id with timer := id.timer.signal })
  | .unlock => none

namespace State

variable [DecidableEq δ]

/-- Replace the `timer_id_t` of one device. -/
def setTimerId (state : State δ) (dev : δ) (id : TimerId) : State δ :=
  { state with timerId := Function.update state.timerId dev id }

/-- Move a device to another statement. -/
def setDevice (state : State δ) (dev : δ) (pc : DevicePc) : State δ :=
  { state with device := Function.update state.device dev pc }

/-- One step of `timer_routine`. -/
def timerRoutine (state : State δ) : Option (State δ) :=
  match state.routine with
  | .check =>
      if state.timerStop then
        some { state with routine := .exited }
      else
        some { state with routine := .collect state.devList 0 0 }
  | .collect (temp :: next) fsh event =>
      some { state with routine := .collecting .lock temp next fsh event }
  | .collecting .count temp next fsh event =>
      some { state with
        routine := .collecting .unlock temp next
          (if (state.timerId temp).fsh then fsh + 1 else fsh) (event + 1) }
  | .collecting .unlock temp next fsh event =>
      let id := state.timerId temp
      some { state.setTimerId temp { id with event := id.event.unlock } with
        routine := .collect next fsh event }
  | .collecting pc temp next fsh event =>
      (collectStep (state.timerId temp) pc).map fun (pc, id) =>
        { state.setTimerId temp id with routine := .collecting pc temp next fsh event }
  | .collect [] fsh event =>
      if fsh = event then
        some { state with routine := .exited }
      else
        some { state with
          time := state.time + 1
          routine := .release state.devList }
  | .release (temp :: next) => some { state with routine := .releasing .lock temp next }
  | .releasing .unlock temp next =>
      let id := state.timerId temp
      some { state.setTimerId temp { id with timer := id.timer.unlock } with
        routine := .release next }
  | .releasing pc temp next =>
      (releaseStep (state.timerId temp) pc).map fun (pc, id) =>
        { state.setTimerId temp id with routine := .releasing pc temp next }
  | .release [] => some { state with routine := .check }
  | .exited => none

/-- One step of a device inside a call. -/
def deviceRoutine (state : State δ) (dev : δ) : Option (State δ) :=
  if dev ∈ state.devList then
    (deviceStep (state.timerId dev) (state.device dev)).map fun (pc, id) =>
      (state.setTimerId dev id).setDevice dev pc
  else
    none

/-- A device that is working calls `next_slot` or `detach_event`. -/
def call (state : State δ) (dev : δ) (pc : DevicePc) : Option (State δ) :=
  if dev ∈ state.devList ∧ state.device dev = .working then
    some (state.setDevice dev pc)
  else
    none

/-- The steps of the threads.  The main thread calls `stop_timer` when it has joined
the threads of all devices. -/
def step (state : State δ) : Event δ → Option (State δ)
  | .timerRoutine => state.timerRoutine
  | .device dev => state.deviceRoutine dev
  | .nextSlot dev => state.call dev .eventLock
  | .detachEvent dev => state.call dev .detachLock
  | .wakeTimer dev =>
      let id := state.timerId dev
      (id.event.wakeUp .timer).map fun event => state.setTimerId dev { id with event := event }
  | .wakeDevice dev =>
      let id := state.timerId dev
      (id.timer.wakeUp .device).map fun timer => state.setTimerId dev { id with timer := timer }
  | .stopTimer =>
      if ∀ dev ∈ state.devList, state.device dev = .detached then
        some { state with timerStop := true }
      else
        none

end State

end Threads

end Timer
end Ossim
