import Ossim.Os.Clock

/-!
# Processes are owned exclusively

`put_proc` publishes a process while its CPU still reads the PCB.  What keeps
the other CPUs from finishing the process meanwhile is the barrier: a CPU that
fetches the process in the same slot has to wait for the next slot before it can
find it finished, and the next slot does not begin before the first CPU has
entered `next_slot`.  The invariant says this with the slot in which a process
was last put into a queue and the slots in which it has run.
-/

namespace Ossim
namespace Os

open Scheduler Transition

namespace History

/-- The process has not run in slot `time` or later. -/
def RunBefore (history : History n) (proc time : Nat) : Prop :=
  ∀ entry ∈ history.log, entry.proc = proc → entry.time < time

/-- How often an action of a process has been recorded in one slot. -/
def count (history : History n) (action : Action) (time proc : Nat) : Nat :=
  history.log.countP fun entry =>
    entry.action = action ∧ entry.time = time ∧ entry.proc = proc

/-- What is known of every process, wherever it stands. -/
structure Past (history : History n) (stage : Nat → Stage) (queued : Nat → Prop)
    (time : Nat) : Prop where
  logged : ∀ entry ∈ history.log, entry.time ≤ time
  enqueued : ∀ proc, history.enqueuedAt proc ≤ time
  queued : ∀ proc, queued proc → history.RunBefore proc time
  /-- No process finishes in the slot in which it was put into a queue. -/
  finished : ∀ proc, stage proc = .finished → history.enqueuedAt proc < time
  new : ∀ proc, stage proc = .new → ∀ entry ∈ history.log, entry.proc ≠ proc

variable {history : History n} {stage stage' : Nat → Stage}
  {queued queued' : Nat → Prop} {time : Nat}

theorem RunBefore.mono
    {proc later : Nat}
    (before : history.RunBefore proc time)
    (notBefore : time ≤ later) :
    history.RunBefore proc later := by
  intro entry member same
  exact Nat.lt_of_lt_of_le (before entry member same) notBefore

theorem RunBefore.record
    {proc : Nat}
    (before : history.RunBefore proc time)
    {entry : Entry n}
    (different : entry.proc ≠ proc) :
    (history.record entry).RunBefore proc time := by
  intro other member same
  rcases List.mem_cons.mp member with rfl | old
  · exact absurd same different
  · exact before other old same

/-- Recording an action counts it. -/
theorem count_record
    (entry : Entry n)
    (action : Action)
    (slot proc : Nat) :
    (history.record entry).count action slot proc =
      history.count action slot proc +
        if entry.action = action ∧ entry.time = slot ∧ entry.proc = proc then 1
        else 0 := by
  simp [count, record, List.countP_cons]

/-- What has not been recorded has the count zero. -/
theorem count_eq_zero
    {action : Action}
    {slot proc : Nat}
    (absent : ∀ entry ∈ history.log, entry.proc = proc →
      entry.action = action → entry.time ≠ slot) :
    history.count action slot proc = 0 := by
  rw [count, List.countP_eq_zero]
  intro entry member matches'
  simp only [decide_eq_true_eq] at matches'
  exact absent entry member matches'.2.2 matches'.1 matches'.2.1

/-- An entry that has not been recorded before is recorded once. -/
theorem count_record_le_one
    {entry : Entry n}
    {action : Action}
    {slot proc : Nat}
    (once : history.count action slot proc ≤ 1)
    (absent : ∀ earlier ∈ history.log, earlier.proc = entry.proc →
      earlier.action = entry.action → earlier.time ≠ entry.time) :
    (history.record entry).count action slot proc ≤ 1 := by
  rw [count_record]
  split
  case isTrue matches' =>
    obtain ⟨rfl, rfl, rfl⟩ := matches'
    rw [count_eq_zero absent]
  case isFalse => exact once

namespace Past

/-- The past stays the past when time passes. -/
theorem mono
    (past : history.Past stage queued time)
    {later : Nat}
    (notBefore : time ≤ later) :
    history.Past stage queued later where
  logged := fun entry member => (past.logged entry member).trans notBefore
  enqueued := fun proc => (past.enqueued proc).trans notBefore
  queued := fun proc isQueued => (past.queued proc isQueued).mono notBefore
  finished := fun proc finished =>
    Nat.lt_of_lt_of_le (past.finished proc finished) notBefore
  new := past.new

/-- Processes may leave the queues. -/
theorem fewer
    (past : history.Past stage queued time)
    (remain : ∀ proc, queued' proc → queued proc) :
    history.Past stage queued' time where
  logged := past.logged
  enqueued := past.enqueued
  queued := fun proc isQueued => past.queued proc (remain proc isQueued)
  finished := past.finished
  new := past.new

/-- A process that is not queued may run. -/
theorem record
    (past : history.Past stage queued time)
    {entry : Entry n}
    (now : entry.time = time)
    (notQueued : ¬queued entry.proc)
    (added : stage entry.proc = .added) :
    (history.record entry).Past stage queued time where
  logged := by
    intro other member
    rcases List.mem_cons.mp member with rfl | old
    · exact now.le
    · exact past.logged other old
  enqueued := past.enqueued
  queued := by
    intro proc isQueued
    refine (past.queued proc isQueued).record fun same => ?_
    exact notQueued (same ▸ isQueued)
  finished := past.finished
  new := by
    intro proc isNew other member
    rcases List.mem_cons.mp member with rfl | old
    · rintro rfl
      simp [added] at isNew
    · exact past.new proc isNew other old

/-- A process that has not run in the current slot may be put into a queue. -/
theorem enqueue
    (past : history.Past stage queued time)
    {proc : Nat}
    (cpu : Option (Fin n))
    (before : history.RunBefore proc time)
    (more : ∀ other, queued' other → queued other ∨ other = proc)
    (added : stage' proc = .added)
    (others : ∀ other, other ≠ proc → stage' other = stage other) :
    (history.enqueue proc time cpu).Past stage' queued' time where
  logged := past.logged
  enqueued := by
    intro other
    by_cases same : other = proc
    · subst same
      simp [History.enqueue]
    · simpa [History.enqueue, same] using past.enqueued other
  queued := by
    intro other isQueued
    rcases more other isQueued with old | rfl
    · exact past.queued other old
    · exact before
  finished := by
    intro other finished
    by_cases same : other = proc
    · subst same
      simp [added] at finished
    · rw [others other same] at finished
      simpa [History.enqueue, same] using past.finished other finished
  new := by
    intro other isNew
    by_cases same : other = proc
    · subst same
      simp [added] at isNew
    · rw [others other same] at isNew
      exact past.new other isNew

/-- A process that was put into a queue in an earlier slot may finish. -/
theorem finish
    (past : history.Past stage queued time)
    {proc : Nat}
    (earlier : history.enqueuedAt proc < time) :
    history.Past (Function.update stage proc .finished) queued time where
  logged := past.logged
  enqueued := past.enqueued
  queued := past.queued
  finished := by
    intro other finished
    by_cases same : other = proc
    · exact same ▸ earlier
    · rw [Function.update_of_ne same] at finished
      exact past.finished other finished
  new := by
    intro other isNew
    by_cases same : other = proc
    · subst same
      simp at isNew
    · rw [Function.update_of_ne same] at isNew
      exact past.new other isNew

end Past

end History

/-- What a CPU at a position may rely on for the process in `proc`, in terms of
the slots that the CPU has entered. -/
def Label.Timely (history : History n) (entered proc : Nat) : Label → Prop
  -- Owned since an earlier slot, and not run in the current one.
  | .loop | .putRunning | .putReady | .free | .waiting
  | .updatePrio .finished | .updateRead .finished _ | .updateWrite .finished _ _ =>
      history.RunBefore proc entered ∧ history.enqueuedAt proc < entered
  | .slotPrio | .slotRead _ | .recheck | .run =>
      history.RunBefore proc entered
  | .exec =>
      ∀ entry ∈ history.log, entry.proc = proc →
        entry.action = .instruction → entry.time < entered
  -- Put back in the current slot, but still to be read.
  | .updatePrio .preempted => history.enqueuedAt proc = entered
  | .testDone => False
  | _ => True

/-- The position of a CPU and the past of its process agree. -/
def Cpu.Timely (history : History n) (entered : Nat) (cpu : Cpu) : Prop :=
  ∀ proc, cpu.proc = some proc → cpu.label.Timely history entered proc

/-- An action of another process does not concern an owner. -/
theorem Label.Timely.record
    {history : History n}
    {entered proc : Nat}
    {label : Label}
    (timely : label.Timely history entered proc)
    {entry : Entry n}
    (different : label.owns = true → entry.proc ≠ proc) :
    label.Timely (history.record entry) entered proc := by
  cases label
  case exec =>
    intro other member same
    rcases List.mem_cons.mp member with rfl | old
    · exact absurd same (different rfl)
    · exact timely other old same
  case loop | putRunning | putReady | free | waiting =>
    exact ⟨timely.1.record (different rfl), timely.2⟩
  case updatePrio branch | updateRead branch _ | updateWrite branch _ _ =>
    cases branch with
    | finished => exact ⟨timely.1.record (different rfl), timely.2⟩
    | preempted => exact timely
  case slotPrio | slotRead | recheck | run =>
    exact History.RunBefore.record timely (different rfl)
  all_goals exact timely

/-- Putting another process into a queue does not concern an owner, and a CPU
that has put the process back relies on the slot only. -/
theorem Label.Timely.enqueue
    {history : History n}
    {entered proc : Nat}
    {label : Label}
    (timely : label.Timely history entered proc)
    {other time : Nat}
    (cpu : Option (Fin n))
    (different : label.owns = true → proc ≠ other)
    (current : label.phase = .working → entered = time) :
    label.Timely (history.enqueue other time cpu) entered proc := by
  have sameLog : ∀ {slot : Nat}, history.RunBefore proc slot →
      (history.enqueue other time cpu).RunBefore proc slot := id
  have earlier : label.owns = true → history.enqueuedAt proc < entered →
      (history.enqueue other time cpu).enqueuedAt proc < entered := by
    intro owns earlier
    simpa [History.enqueue, different owns] using earlier
  cases label
  case loop | putRunning | putReady | free | waiting =>
    exact ⟨sameLog timely.1, earlier rfl timely.2⟩
  case updatePrio branch =>
    cases branch with
    | finished => exact ⟨sameLog timely.1, earlier rfl timely.2⟩
    | preempted =>
        by_cases same : proc = other
        · subst same
          simp [Label.Timely, History.enqueue, current rfl]
        · simpa [Label.Timely, History.enqueue, same] using timely
  case updateRead branch _ | updateWrite branch _ _ =>
    cases branch with
    | finished => exact ⟨sameLog timely.1, earlier rfl timely.2⟩
    | preempted => exact timely
  all_goals exact timely

/-- The process that the loader adds next. -/
def LdLabel.next : LdLabel → Option Nat
  | .head i | .addRunning i | .addReady i | .nextSlot i | .waiting i => some i
  | .detach | .stopped => none

/-- The invariant behind exclusive ownership. -/
structure Invariant (config : Config) (state : State n) : Prop where
  synchronized : Synchronized state
  placed : Placed config.prio state.held state.sched.mlqReadyQueue state.Live
  timely : ∀ id, (state.cpu id).Timely state.history (state.entered (.cpu id))
  past : state.history.Past state.stage state.Queued state.timer.time
  arriving : ∀ i, state.loader.next = some i → ∀ proc, i ≤ proc →
    state.stage proc = .new
  once : ∀ action time proc, state.history.count action time proc ≤ 1

/-- The invariant holds when the threads have been created. -/
theorem Invariant.boot (config : Config) (n : Nat) :
    Invariant config (boot n) where
  synchronized := Synchronized.boot n
  placed := by
    have nothingHeld : (Os.boot n).held = fun _ => none := by
      funext id
      rfl
    have noneLive : (Os.boot n).Live = fun _ => False := by
      funext proc
      simp [State.Live, Os.boot]
    rw [nothingHeld, noneLive]
    exact Placed.initial
  timely := by
    intro id proc holds
    cases holds
  past :=
    { logged := nofun
      enqueued := fun _ => Nat.le_refl 0
      queued := fun _ _ => nofun
      finished := nofun
      new := fun _ _ => nofun }
  arriving := fun _ _ _ _ => rfl
  once := fun _ _ _ => Nat.zero_le 1

/-- A CPU changes only what it owns itself. -/
theorem CpuStep.held
    {config : Config}
    {state next : State n}
    {id : Fin n}
    (step : CpuStep config state id next) :
    next.held = Function.update state.held id (next.cpu id).held := by
  funext other
  by_cases same : other = id
  · subst same
    simp [State.held]
  · simp [State.held, step.cpu_other same, same]

/-- The steps in `Move` change no owner.  An idle CPU must not have a process
in its variable, since it owns the variable again when it goes on. -/
theorem Move.held
    {config : Config}
    {state : State n}
    {cpu cpu' : Cpu}
    {sched : Sched Nat}
    (moves : Move config state cpu cpu' sched)
    (idle : cpu.label = .testDone → cpu.proc = none) :
    cpu'.held = cpu.held := by
  cases moves
  case updatePrio branch proc label holds =>
    cases branch <;> simp [Cpu.held, label, Label.owns]
  case updateRead branch prio label =>
    cases branch <;> simp [Cpu.held, label, Label.owns]
  case updateWrite branch prio value label =>
    cases branch <;> simp [Cpu.held, label, Label.owns, Branch.afterUpdate]
  case testDone label =>
    simp [Cpu.held, idle label]
  case recheckNull label empty =>
    simp [Cpu.held, empty]
  all_goals simp [Cpu.held, Label.owns, *]

/-- The steps in `Move` leave the queues alone. -/
theorem Move.queues
    {config : Config}
    {state : State n}
    {cpu cpu' : Cpu}
    {sched : Sched Nat}
    (moves : Move config state cpu cpu' sched) :
    sched.mlqReadyQueue = state.sched.mlqReadyQueue := by
  cases moves <;> rfl

/-- The steps in `Move` need no more of the past than they find. -/
theorem Move.timely
    {config : Config}
    {state : State n}
    {cpu cpu' : Cpu}
    {sched : Sched Nat}
    {history : History n}
    {entered : Nat}
    (moves : Move config state cpu cpu' sched)
    (timely : cpu.Timely history entered) :
    cpu'.Timely history entered := by
  intro proc holds
  cases moves
  case loopIdle => trivial
  case loopFinished _ label _ _ =>
    simpa [label, Label.Timely] using timely proc holds
  case loopExpired _ label _ _ _ =>
    simpa [label, Label.Timely] using timely proc holds
  case loopContinue _ label _ _ _ =>
    have kept := timely proc holds
    rw [label] at kept
    exact kept.1
  case putRunning _ label _ =>
    simpa [label, Label.Timely] using timely proc holds
  case updatePrio branch _ label _ =>
    cases branch with
    | finished => simpa [label, Label.Timely] using timely proc holds
    | preempted => trivial
  case updateRead branch _ label =>
    cases branch with
    | finished => simpa [label, Label.Timely] using timely proc holds
    | preempted => trivial
  case updateWrite branch _ _ label =>
    cases branch with
    | finished =>
        simpa [label, Label.Timely, Branch.afterUpdate] using timely proc holds
    | preempted => trivial
  case testDone label =>
    have nothing := timely proc holds
    rw [label] at nothing
    exact nothing.elim
  case slotPrio _ label _ =>
    simpa [label, Label.Timely] using timely proc holds
  case slotRead _ label =>
    simpa [label, Label.Timely] using timely proc holds
  case recheckNull label empty =>
    simp [empty] at holds
  case recheckProc _ label _ =>
    rw [Cpu.dispatched_proc] at holds
    simpa [label, Label.Timely] using timely proc holds

theorem State.live_congr
    {state next : State n}
    (stage : next.stage = state.stage) :
    next.Live = state.Live := by
  funext proc
  simp [State.Live, stage]

/-- What a step of a CPU does to the owners and the queues. -/
inductive Transfer (config : Config) (state next : State n) (id : Fin n) : Prop
  | keep
      (held : next.held = state.held)
      (queues : next.sched.mlqReadyQueue = state.sched.mlqReadyQueue)
      (stage : next.stage = state.stage)
  | putBack (proc : Nat)
      (label : (state.cpu id).label = .putReady)
      (owner : state.held id = some proc)
      (held : next.held = Function.update state.held id none)
      (queues : next.sched.mlqReadyQueue =
        Function.update state.sched.mlqReadyQueue (config.prio proc)
          ((state.sched.mlqReadyQueue (config.prio proc)).enqueue proc))
      (stage : next.stage = state.stage)
  | finish (proc : Nat)
      (label : (state.cpu id).label = .free)
      (owner : state.held id = some proc)
      (held : next.held = Function.update state.held id none)
      (queues : next.sched.mlqReadyQueue = state.sched.mlqReadyQueue)
      (stage : next.stage = Function.update state.stage proc .finished)
  | fetch (result : Option Nat)
      (nothing : state.held id = none)
      (held : next.held = Function.update state.held id result)
      (fetch : Sched.Fetch state.sched result next.sched)
      (stage : next.stage = state.stage)

/-- Every step of a CPU keeps, puts back, finishes or fetches a process. -/
theorem CpuStep.transfer
    {config : Config}
    {state next : State n}
    {id : Fin n}
    (step : CpuStep config state id next)
    (idle : (state.cpu id).label = .testDone → (state.cpu id).proc = none) :
    Transfer config state next id := by
  have held := step.held
  have unchanged : (next.cpu id).held = state.held id → next.held = state.held := by
    intro same
    rw [held, same, Function.update_eq_self]
  cases step with
  | move cpu sched moves =>
      exact .keep (unchanged (by simpa [State.held] using moves.held idle))
        moves.queues rfl
  | putReady proc label holds =>
      refine .putBack proc label ?_ (held.trans ?_) rfl rfl
      · simp [State.held, Cpu.held, label, holds, Label.owns]
      · simp [Cpu.held, Label.owns]
  | free proc label holds =>
      refine .finish proc label ?_ (held.trans ?_) rfl rfl
      · simp [State.held, Cpu.held, label, holds, Label.owns]
      · simp [Cpu.held, Label.owns]
  | getProc given result sched label fetch =>
      refine .fetch result ?_ (held.trans ?_) fetch rfl
      · simp [State.held, Cpu.held, label, Label.owns]
      · cases result <;> cases given <;>
          simp [Cpu.held, afterGetProc, Label.owns]
  | run proc label holds =>
      refine .keep (unchanged ?_) rfl rfl
      simp only [State.held, State.setCpu_cpu_same]
      split <;> simp [Cpu.held, label, Label.owns]
  | exec proc label holds =>
      exact .keep (unchanged (by simp [State.held, Cpu.held, label, Label.owns])) rfl rfl
  | nextSlot timer label taken =>
      exact .keep (unchanged (by simp [State.held, Cpu.held, label, Label.owns])) rfl rfl
  | waiting timer label taken =>
      exact .keep (unchanged (by simp [State.held, Cpu.held, label, Label.owns])) rfl rfl
  | detach timer label taken =>
      exact .keep (unchanged (by simp [State.held, Cpu.held, label, Label.owns])) rfl rfl

namespace Invariant

variable {config : Config} {state next : State n} {id : Fin n} {proc : Nat}

/-- An owned process is added. -/
theorem live
    (invariant : Invariant config state)
    (owns : (state.cpu id).label.owns = true)
    (holds : (state.cpu id).proc = some proc) :
    state.stage proc = .added :=
  invariant.placed.heldLive id proc ((Cpu.held_of_owns owns).trans holds)

/-- An owned process is not queued. -/
theorem notQueued
    (invariant : Invariant config state)
    (owns : (state.cpu id).label.owns = true)
    (holds : (state.cpu id).proc = some proc) :
    ¬state.Queued proc := by
  rintro ⟨level, member⟩
  exact invariant.placed.notQueued id proc level
    ((Cpu.held_of_owns owns).trans holds) member

/-- Two owners own two processes. -/
theorem different
    (invariant : Invariant config state)
    (owns : (state.cpu id).label.owns = true)
    (holds : (state.cpu id).proc = some proc)
    {other : Fin n}
    (elsewhere : other ≠ id)
    {proc' : Nat}
    (holds' : (state.cpu other).proc = some proc')
    (owns' : (state.cpu other).label.owns = true) :
    proc ≠ proc' := by
  rintro rfl
  exact elsewhere (invariant.placed.once other id proc
    ((Cpu.held_of_owns owns').trans holds') ((Cpu.held_of_owns owns).trans holds))

/-- A CPU that works in the current slot has entered `next_slot` once for every
past slot. -/
theorem entered
    (invariant : Invariant config state)
    (id : Fin n)
    (working : (state.cpu id).label.phase = .working) :
    state.entered (.cpu id) = state.timer.time :=
  invariant.synchronized.entered_of_working working

/-- A CPU has no process when it tests `done`. -/
theorem idle
    (invariant : Invariant config state)
    (id : Fin n)
    (label : (state.cpu id).label = .testDone) :
    (state.cpu id).proc = none := by
  cases holds : (state.cpu id).proc with
  | none => rfl
  | some proc =>
      have nothing := invariant.timely id proc holds
      rw [label] at nothing
      exact nothing.elim

/-! ### The parts of the invariant after a step of a CPU -/

theorem placed_cpuStep
    (invariant : Invariant config state)
    (step : CpuStep config state id next) :
    Placed config.prio next.held next.sched.mlqReadyQueue next.Live := by
  have placed := invariant.placed
  cases step.transfer (invariant.idle id) with
  | keep held queues stage =>
      rw [held, queues, State.live_congr stage]
      exact placed
  | putBack proc label owner held queues stage =>
      have before := placed.release id
        (fun other => state.Live other ∧ other ≠ proc)
        fun other alive notHeld => ⟨alive, fun same => notHeld (same ▸ owner)⟩
      rw [held, queues, State.live_congr stage]
      refine before.enqueue (fun other holds => ?_) ?_ fun _ both => both.1
      · exact (before.heldLive other proc holds).2 rfl
      · exact placed.heldLive id proc owner
  | finish proc label owner held queues stage =>
      rw [held, queues]
      refine placed.release id _ fun other alive notHeld => ?_
      have different : other ≠ proc := fun same => notHeld (same ▸ owner)
      simpa [State.Live, stage, different] using alive
  | fetch result nothing held fetch stage =>
      rw [held, State.live_congr stage]
      exact placed.fetch fetch nothing

/-- The past of the process of the CPU that takes the step. -/
theorem timely_self
    (invariant : Invariant config state)
    (step : CpuStep config state id next) :
    (next.cpu id).Timely next.history (next.entered (.cpu id)) := by
  have timely := invariant.timely id
  intro held holdsNow
  cases step with
  | move cpu sched moves =>
      rw [State.setCpu_cpu_same] at holdsNow ⊢
      exact moves.timely timely held holdsNow
  | putReady proc label holds =>
      rw [State.setCpu_cpu_same] at holdsNow ⊢
      have same : held = proc := by simpa [holds] using holdsNow.symm
      subst same
      have now := invariant.entered id (by rw [label]; rfl)
      show Function.update state.history.enqueuedAt held state.timer.time held =
        state.entered (.cpu id)
      rw [Function.update_self, now]
  | free proc label holds =>
      rw [State.setCpu_cpu_same]
      trivial
  | getProc given result sched label fetch =>
      rw [State.setCpu_cpu_same] at holdsNow ⊢
      have fetched : result = some held := holdsNow
      subst fetched
      cases fetch with
      | served level _ rest _ inRange head tail others running positive slots =>
          have queued : state.Queued held := ⟨level, by simp [head]⟩
          have now := invariant.entered id (by rw [label]; rfl)
          have before := invariant.past.queued held queued
          rw [← now] at before
          exact before
  | run proc label holds =>
      rw [State.setCpu_cpu_same] at holdsNow ⊢
      by_cases finished : config.codeSize proc ≤ state.pc proc
      · rw [if_pos finished]
        trivial
      · rw [if_neg finished] at holdsNow ⊢
        have same : held = proc := by simpa [holds] using holdsNow.symm
        subst same
        have before := timely held holds
        rw [label] at before
        intro entry member sameProc instruction
        rcases List.mem_cons.mp member with rfl | old
        · cases instruction
        · exact before entry old sameProc
  | exec proc label holds =>
      rw [State.setCpu_cpu_same]
      trivial
  | nextSlot timer label taken =>
      rw [State.setCpu_cpu_same]
      obtain ⟨_, rfl⟩ := Timer.State.nextSlotEnter_spec taken
      have now := invariant.entered id (by rw [label]; rfl)
      have later : (state.timer.device (.cpu id)).entered + 1 =
          state.timer.time + 1 := congrArg (· + 1) now
      refine ⟨fun entry member _ => ?_, ?_⟩
      · have := invariant.past.logged entry member
        simp only [State.entered, Timer.State.setDevice_device_same]
        omega
      · have := invariant.past.enqueued held
        simp only [State.entered, Timer.State.setDevice_device_same, State.setCpu_history]
        omega
  | waiting timer label taken =>
      rw [State.setCpu_cpu_same] at holdsNow ⊢
      obtain rfl := Timer.State.nextSlotReturn_spec taken
      have before := timely held holdsNow
      rw [label] at before
      simpa [State.entered, Label.Timely] using before
  | detach timer label taken =>
      rw [State.setCpu_cpu_same]
      trivial

/-- The past of the processes of the other CPUs. -/
theorem timely_other
    (invariant : Invariant config state)
    (step : CpuStep config state id next)
    {other : Fin n}
    (elsewhere : other ≠ id) :
    (state.cpu other).Timely next.history (state.entered (.cpu other)) := by
  intro held holds'
  have before := invariant.timely other held holds'
  cases step with
  | putReady proc label holds =>
      refine before.enqueue (some id) (fun owns => ?_) (invariant.entered _)
      exact (invariant.different (by rw [label]; rfl) holds elsewhere holds' owns).symm
  | run proc label holds =>
      exact before.record
        (invariant.different (by rw [label]; rfl) holds elsewhere holds')
  | exec proc label holds =>
      exact before.record
        (invariant.different (by rw [label]; rfl) holds elsewhere holds')
  | _ => exact before

theorem timely_cpuStep
    (invariant : Invariant config state)
    (step : CpuStep config state id next)
    (other : Fin n) :
    (next.cpu other).Timely next.history (next.entered (.cpu other)) := by
  by_cases same : other = id
  · subst same
    exact invariant.timely_self step
  · rw [step.cpu_other same, step.entered_other (by simpa using same)]
    exact invariant.timely_other step same

theorem past_cpuStep
    (invariant : Invariant config state)
    (step : CpuStep config state id next) :
    next.history.Past next.stage next.Queued next.timer.time := by
  have past := invariant.past
  rw [step.time]
  cases step with
  | move cpu sched moves =>
      refine past.fewer fun proc queued => ?_
      simpa [State.Queued, moves.queues] using queued
  | putReady proc label holds =>
      have before := invariant.timely id proc holds
      have now := invariant.entered id (by rw [label]; rfl)
      rw [label, now] at before
      refine past.enqueue (some id) before.1 ?_
        (invariant.live (by rw [label]; rfl) holds) fun _ _ => rfl
      rintro other ⟨level, member⟩
      rcases mem_of_mem_update_enqueue member with old | ⟨same, _⟩
      · exact .inl ⟨level, old⟩
      · exact .inr same
  | free proc label holds =>
      have before := invariant.timely id proc holds
      have now := invariant.entered id (by rw [label]; rfl)
      rw [label, now] at before
      exact past.finish before.2
  | getProc given result sched label fetch =>
      exact past.fewer fun proc ⟨level, member⟩ => ⟨level, fetch.mem member⟩
  | run proc label holds =>
      exact past.record rfl (invariant.notQueued (by rw [label]; rfl) holds)
        (invariant.live (by rw [label]; rfl) holds)
  | exec proc label holds =>
      exact past.record rfl (invariant.notQueued (by rw [label]; rfl) holds)
        (invariant.live (by rw [label]; rfl) holds)
  | _ => exact past

theorem arriving_cpuStep
    (invariant : Invariant config state)
    (step : CpuStep config state id next) :
    ∀ i, next.loader.next = some i → ∀ proc, i ≤ proc → next.stage proc = .new := by
  intro i label' proc notBefore
  cases step with
  | free finished label holds =>
      have isNew := invariant.arriving i label' proc notBefore
      have different : proc ≠ finished := by
        rintro rfl
        simp [invariant.live (by rw [label]; rfl) holds] at isNew
      simpa [different] using isNew
  | _ => exact invariant.arriving i label' proc notBefore

theorem once_cpuStep
    (invariant : Invariant config state)
    (step : CpuStep config state id next)
    (action : Action)
    (time proc : Nat) :
    next.history.count action time proc ≤ 1 := by
  have once := invariant.once action time proc
  cases step with
  | run held label holds =>
      have before := invariant.timely id held holds
      rw [label, invariant.entered id (by rw [label]; rfl)] at before
      exact History.count_record_le_one once fun entry member same _ =>
        (before entry member same).ne
  | exec held label holds =>
      have before := invariant.timely id held holds
      rw [label, invariant.entered id (by rw [label]; rfl)] at before
      exact History.count_record_le_one once fun entry member same instruction =>
        (before entry member same instruction).ne
  | _ => exact once

/-- A step of a CPU keeps the invariant. -/
theorem cpuStep
    (invariant : Invariant config state)
    (step : CpuStep config state id next) :
    Invariant config next where
  synchronized := invariant.synchronized.cpuStep step
  placed := invariant.placed_cpuStep step
  timely := invariant.timely_cpuStep step
  past := invariant.past_cpuStep step
  arriving := invariant.arriving_cpuStep step
  once := invariant.once_cpuStep step

/-! ### The parts of the invariant after a step of the loader -/

/-- The process that the loader is about to add is new. -/
theorem new
    (invariant : Invariant config state)
    {i : Nat}
    (label : state.loader = .addReady i) :
    state.stage i = .new :=
  invariant.arriving i (by rw [label]; rfl) i (Nat.le_refl i)

theorem placed_ldStep
    (invariant : Invariant config state)
    (step : LdStep config state next) :
    Placed config.prio next.held next.sched.mlqReadyQueue next.Live := by
  have placed := invariant.placed
  cases step with
  | addReady i label =>
      have isNew := invariant.new label
      refine placed.enqueue (fun id holds => ?_) (by simp [State.Live])
        fun other alive => ?_
      · have added : state.stage i = .added := placed.heldLive id i holds
        simp [isNew] at added
      · have different : other ≠ i := by
          rintro rfl
          have added : state.stage other = .added := alive
          simp [isNew] at added
        simpa [State.Live, different] using alive
  | _ => exact placed

theorem timely_ldStep
    (invariant : Invariant config state)
    (step : LdStep config state next)
    (id : Fin n) :
    (next.cpu id).Timely next.history (next.entered (.cpu id)) := by
  rw [step.cpu, step.entered_cpu]
  intro proc holds
  have before := invariant.timely id proc holds
  cases step with
  | addReady i label =>
      refine before.enqueue none (fun owns => ?_) (invariant.entered _)
      rintro rfl
      have added := invariant.live owns holds
      simp [invariant.new label] at added
  | _ => exact before

theorem past_ldStep
    (invariant : Invariant config state)
    (step : LdStep config state next) :
    next.history.Past next.stage next.Queued next.timer.time := by
  have past := invariant.past
  rw [step.time]
  cases step with
  | addReady i label =>
      refine past.enqueue none (fun entry member same => ?_) ?_ (by simp)
        fun other different => by simp [different]
      · exact absurd same (past.new i (invariant.new label) entry member)
      · rintro other ⟨level, member⟩
        rcases mem_of_mem_update_enqueue member with old | ⟨same, _⟩
        · exact .inl ⟨level, old⟩
        · exact .inr same
  | _ => exact past

theorem arriving_ldStep
    (invariant : Invariant config state)
    (step : LdStep config state next) :
    ∀ i, next.loader.next = some i → ∀ proc, i ≤ proc → next.stage proc = .new := by
  intro i label' proc notBefore
  have isNew := invariant.arriving
  cases step with
  | finish => cases label'
  | detach => cases label'
  | addReady added label =>
      obtain rfl : added + 1 = i := Option.some.inj label'
      have different : proc ≠ added := by omega
      simpa [different] using isNew added (by rw [label]; rfl) proc (by omega)
  | early j label | arrive j label | addRunning j label | nextSlot j _ label
  | waiting j _ label =>
      exact isNew i (by rw [label]; exact label') proc notBefore

/-- A step of the loader keeps the invariant. -/
theorem ldStep
    (invariant : Invariant config state)
    (step : LdStep config state next) :
    Invariant config next where
  synchronized := invariant.synchronized.ldStep step
  placed := invariant.placed_ldStep step
  timely := invariant.timely_ldStep step
  past := invariant.past_ldStep step
  arriving := invariant.arriving_ldStep step
  once := by
    have once := invariant.once
    cases step <;> exact once

/-- A step of the timer thread keeps the invariant. -/
theorem timer
    (invariant : Invariant config state)
    {timer : Timer.State (Device n)}
    (taken : state.timer.step .timerRoutine = some timer) :
    Invariant config { state with timer := timer } where
  synchronized := invariant.synchronized.timer taken
  placed := invariant.placed
  timely := by
    intro id
    have same := ((Timer.State.timerRoutine_spec taken).2.2 (.cpu id)).2
    have timely := invariant.timely id
    rw [State.entered, ← same] at timely
    exact timely
  past := invariant.past.mono (Timer.State.timerRoutine_spec taken).2.1
  arriving := invariant.arriving
  once := invariant.once

/-- `stop_timer` keeps the invariant. -/
theorem mainRoutine
    (invariant : Invariant config state)
    (taken : state.mainRoutine = some next) :
    Invariant config next := by
  have synchronized := invariant.synchronized.mainRoutine taken
  simp only [State.mainRoutine] at taken
  split at taken
  · cases taken
    exact
      { synchronized := synchronized
        placed := invariant.placed
        timely := invariant.timely
        past := invariant.past
        arriving := invariant.arriving
        once := invariant.once }
  · cases taken

/-- Every atomic step keeps the invariant. -/
theorem step
    (invariant : Invariant config state)
    (event : Event n)
    (taken : state.step config event = some next) :
    Invariant config next := by
  cases event with
  | timer =>
      obtain ⟨timer, stepped, rfl⟩ := Option.map_eq_some_iff.mp taken
      exact invariant.timer stepped
  | cpu id => exact invariant.cpuStep (cpuStep_of_cpuRoutine taken)
  | loader => exact invariant.ldStep (ldStep_of_ldRoutine taken)
  | main => exact invariant.mainRoutine taken

/-- The invariant holds in every reachable state. -/
theorem run
    {permitted : State n → Event n → Prop}
    (run : Run (State.step config) permitted (Os.boot n) state) :
    Invariant config state :=
  run.invariant (Invariant config)
    (fun _ event _ invariant _ taken => invariant.step event taken)
    (Invariant.boot config n)

/-- The process whose PCB a CPU is about to read has not been freed. -/
theorem notFreed
    (invariant : Invariant config state)
    (reads : (state.cpu id).reads = some proc) :
    state.stage proc ≠ .finished := by
  have holds : (state.cpu id).proc = some proc := by
    unfold Cpu.reads at reads
    split at reads <;> first | exact reads | cases reads
  have added : (state.cpu id).label.owns = true → state.stage proc ≠ .finished := by
    intro owns finished
    simp [invariant.live owns holds] at finished
  cases label : (state.cpu id).label
  case updatePrio branch =>
    cases branch with
    | finished => exact added (by rw [label]; rfl)
    | preempted =>
        -- The CPU has put the process back in the current slot.
        intro finished
        have earlier := invariant.past.finished proc finished
        have now := invariant.timely id proc holds
        rw [label, invariant.entered id (by rw [label]; rfl)] at now
        exact earlier.ne now
  case loop | putRunning | putReady | free | slotPrio | recheck | run | exec =>
    exact added (by rw [label]; rfl)
  all_goals simp [Cpu.reads, label] at reads

end Invariant

/-- `run` is called at most once for a process and a slot, by whichever CPU, it
executes at most one instruction, and no CPU reads the PCB of a process that has
been freed. -/
structure ExclusivelyOwned (state : State n) : Prop where
  oneRun : ∀ time proc, state.history.count .run time proc ≤ 1
  oneInstruction : ∀ time proc, state.history.count .instruction time proc ≤ 1
  notFreed : ∀ id proc, (state.cpu id).reads = some proc →
    state.stage proc ≠ .finished

/-- Processes are owned exclusively in every reachable state. -/
theorem exclusively_owned
    (config : Config)
    (n : Nat)
    (state : State n)
    (run : Run (State.step config) anyEvent (boot n) state) :
    ExclusivelyOwned state := by
  have invariant := Invariant.run run
  exact
    { oneRun := invariant.once .run
      oneInstruction := invariant.once .instruction
      notFreed := fun _ _ => invariant.notFreed }

/-- One process of two instructions and a time slice of one slot. -/
def handoverConfig : Config where
  toWorkload := Workload.uniform 0 2 zero_lt_maxPrio
  timeSlot := 1
  numProcesses := 1
  startTime := fun _ => 0

/-- Steps of the first and of the second of two CPUs. -/
def firstCpu : Event 2 := .cpu ⟨0, Nat.zero_lt_two⟩

def secondCpu : Event 2 := .cpu ⟨1, Nat.one_lt_two⟩

/-- The first CPU runs the process for one slot and puts it back; the second CPU
fetches it before the first has read the priority for `update_slot`. -/
def handoverSchedule : List (Event 2) :=
  List.replicate 4 .loader ++ List.replicate 8 firstCpu ++
    List.replicate 4 secondCpu ++ List.replicate 9 .timer ++
    List.replicate 4 firstCpu ++ List.replicate 3 secondCpu

set_option maxRecDepth 20000 in
theorem exclusively_owned_handover :
    ∃ state, replay (State.step handoverConfig) (boot 2) handoverSchedule =
        some state ∧
      (state.cpu 0).reads = some 0 ∧ (state.cpu 1).held = some 0 ∧
      ExclusivelyOwned state := by
  obtain ⟨state, reaches, reads, owns⟩ : ∃ state,
      replay (State.step handoverConfig) (boot 2) handoverSchedule = some state ∧
        (state.cpu 0).reads = some 0 ∧ (state.cpu 1).held = some 0 :=
    ⟨_, rfl, rfl, rfl⟩
  refine ⟨state, reaches, reads, owns, ?_⟩
  exact exclusively_owned handoverConfig 2 state
    (Run.of_replay_any handoverSchedule reaches)

end Os
end Ossim
