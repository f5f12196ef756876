import Ossim.Library.Stuttering
import Ossim.Os.Log
import Ossim.Os.Termination

/-!
# The chart of the log and the run

Under every schedule the chart that is read off the log shows, in each slot that has
ended, which CPU has called `run` for which process.  The line of a slot is printed when
every CPU waits or has stopped, and until then a CPU has printed all that the chart needs
to know about its slot.

So at the end of a simulation a program of `k` instructions fills `k` cells.
-/

namespace Ossim
namespace Os

open Scheduler Transition

/-! ## The calls of `run` of a CPU -/

/-- The process for which a CPU has called `run` in its current slot, or in the one that
it has finished. -/
def Cpu.ran (cpu : Cpu) : Option Nat :=
  match cpu.label with
  | .exec | .nextSlot | .waiting => cpu.proc
  | _ => none

theorem Cpu.ran_eq_shown_of_waiting
    {cpu : Cpu}
    (label : cpu.label = .waiting) :
    cpu.ran = cpu.shown := by
  simp [Cpu.ran, Cpu.shown, label]

/-- A CPU that waits has entered `next_slot` for the slot that it has finished. -/
def Label.ahead : Label → Nat
  | .waiting => 1
  | _ => 0

/-- From the current slot of a CPU on, the record has the call of `run` that the CPU has
made in it, and nothing else. -/
def Recorded (history : History n) (id : Fin n) (entered : Nat) (cpu : Cpu) : Prop :=
  ∀ slot proc, entered ≤ slot + cpu.label.ahead →
    (⟨.run, slot, proc, id⟩ ∈ history.log ↔
      slot + cpu.label.ahead = entered ∧ cpu.ran = some proc)

section Recorded

variable {config : Config} {state next : State n} {id : Fin n}

theorem Recorded.congr
    {history history' : History n}
    {entered : Nat}
    {cpu cpu' : Cpu}
    (recorded : Recorded history id entered cpu)
    (log : ∀ slot proc,
      ⟨.run, slot, proc, id⟩ ∈ history'.log ↔ ⟨.run, slot, proc, id⟩ ∈ history.log)
    (ahead : cpu'.label.ahead = cpu.label.ahead)
    (ran : cpu'.ran = cpu.ran) :
    Recorded history' id entered cpu' := by
  intro slot proc current
  rw [log, ahead, ran]
  rw [ahead] at current
  exact recorded slot proc current

/-- The steps in `Move` are no calls of `run`. -/
theorem Move.ran
    {cpu cpu' : Cpu}
    {sched : Sched Nat}
    (moves : Move config state cpu cpu' sched)
    (idle : cpu.label = .testDone → cpu.proc = none) :
    cpu'.label.ahead = cpu.label.ahead ∧ cpu'.ran = cpu.ran := by
  cases moves with
  | testDone label =>
      have nothing := idle label
      cases state.done <;> simp [Cpu.ran, Label.ahead, label, nothing]
  | recheckNull label proc =>
      cases state.done <;> simp [Cpu.ran, Label.ahead, label, proc]
  | updateWrite branch prio value label =>
      cases branch <;> simp [Cpu.ran, Label.ahead, label, Branch.afterUpdate]
  | slotRead prio label => simp [Cpu.ran, Label.ahead, label]
  | recheckProc proc label holds => simp [Cpu.ran, Label.ahead, label]
  | loopIdle label | loopFinished _ label | loopExpired _ label | loopContinue _ label
  | putRunning _ label | updatePrio _ _ label | updateRead _ _ label | slotPrio _ label =>
      simp [Cpu.ran, Label.ahead, label]

/-- What a CPU records. -/
theorem CpuStep.log (step : CpuStep config state id next) :
    next.history.log = state.history.log ∨
      ∃ action proc, next.history.log =
        ⟨action, state.timer.time, proc, id⟩ :: state.history.log := by
  cases step with
  | run proc label holds => exact .inr ⟨.run, proc, rfl⟩
  | exec proc label holds => exact .inr ⟨.instruction, proc, rfl⟩
  | _ => exact .inl rfl

/-- A CPU records nothing about the past, and nothing about other CPUs. -/
theorem CpuStep.mem_log
    (step : CpuStep config state id next)
    {entry : Entry n}
    (unrelated : entry.cpu ≠ id ∨ entry.time < state.timer.time) :
    entry ∈ next.history.log ↔ entry ∈ state.history.log := by
  rcases step.log with same | ⟨action, proc, added⟩
  · rw [same]
  · rw [added, List.mem_cons, or_iff_right]
    rintro rfl
    rcases unrelated with elsewhere | earlier
    · exact elsewhere rfl
    · exact Nat.lt_irrefl _ earlier

/-- A call of `run` in the current slot. -/
theorem Recorded.called
    {history : History n}
    {slot proc : Nat}
    {cpu cpu' : Cpu}
    (recorded : Recorded history id slot cpu)
    (ahead : cpu.label.ahead = 0)
    (ran : cpu.ran = none)
    (ahead' : cpu'.label.ahead = 0)
    (ran' : cpu'.ran = some proc) :
    Recorded (history.record ⟨.run, slot, proc, id⟩) id slot cpu' := by
  intro later other current
  have nothing : ⟨.run, later, other, id⟩ ∉ history.log := by
    intro member
    rw [ahead'] at current
    have called := (recorded later other (by rwa [ahead])).mp member
    rw [ran] at called
    cases called.2
  rw [ahead', ran', History.record, List.mem_cons, or_iff_left nothing]
  simp [eq_comm]

/-- A CPU that enters `next_slot` has finished its slot. -/
theorem Recorded.enters
    {history : History n}
    {entered : Nat}
    {cpu cpu' : Cpu}
    (recorded : Recorded history id entered cpu)
    (ahead : cpu.label.ahead = 0)
    (ahead' : cpu'.label.ahead = 1)
    (ran : cpu'.ran = cpu.ran) :
    Recorded history id (entered + 1) cpu' := by
  intro slot proc current
  rw [ahead'] at current
  have before := recorded slot proc (by rw [ahead]; exact Nat.le_of_succ_le_succ current)
  rw [ahead] at before
  rw [ahead', ran, Nat.add_right_cancel_iff]
  exact before

/-- When it returns, the finished slot is in the past. -/
theorem Recorded.returns
    {history : History n}
    {entered : Nat}
    {cpu cpu' : Cpu}
    (recorded : Recorded history id entered cpu)
    (ahead : cpu.label.ahead = 1)
    (ahead' : cpu'.label.ahead = 0)
    (ran : cpu'.ran = none) :
    Recorded history id entered cpu' := by
  intro slot proc current
  rw [ahead'] at current
  have later : entered ≤ slot := current
  refine (recorded slot proc (by omega)).trans ?_
  rw [ahead, ran]
  constructor
  · rintro ⟨same, _⟩
    omega
  · rintro ⟨_, nothing⟩
    cases nothing

/-- The record of a CPU after its own step. -/
theorem recorded_self
    (invariant : Invariant config state)
    (recorded : Recorded state.history id (state.entered (.cpu id)) (state.cpu id))
    (step : CpuStep config state id next) :
    Recorded next.history id (next.entered (.cpu id)) (next.cpu id) := by
  cases step with
  | move cpu sched moves =>
      rw [State.setCpu_cpu_same]
      obtain ⟨ahead, ran⟩ := moves.ran (invariant.idle id)
      exact recorded.congr (fun _ _ => Iff.rfl) ahead ran
  | putReady proc label holds | free proc label holds =>
      rw [State.setCpu_cpu_same]
      refine recorded.congr (fun _ _ => Iff.rfl) ?_ ?_ <;> simp [Cpu.ran, Label.ahead, label]
  | getProc given result sched label fetch =>
      rw [State.setCpu_cpu_same]
      refine recorded.congr (fun _ _ => Iff.rfl) ?_ ?_ <;>
        cases given <;> cases result <;> simp [Cpu.ran, Label.ahead, label, afterGetProc]
  | run proc label holds =>
      have now : state.entered (.cpu id) = state.timer.time :=
        invariant.entered id (by rw [label]; rfl)
      rw [now] at recorded
      rw [State.setCpu_cpu_same]
      show Recorded _ id (state.entered (.cpu id)) _
      rw [now]
      refine recorded.called ?_ ?_ ?_ ?_
      · simp [Label.ahead, label]
      · simp [Cpu.ran, label]
      · split <;> rfl
      · split <;> simp [Cpu.ran, holds]
  | exec proc label holds =>
      rw [State.setCpu_cpu_same]
      refine recorded.congr (fun slot other => ?_) ?_ ?_
      · simp [History.record]
      · simp [Label.ahead, label]
      · simp [Cpu.ran, label]
  | nextSlot timer label taken =>
      rw [State.setCpu_cpu_same]
      obtain ⟨_, rfl⟩ := Timer.State.nextSlotEnter_spec taken
      have enters : Recorded state.history id (state.entered (.cpu id) + 1)
          ((state.cpu id).moved .waiting) :=
        recorded.enters (by simp [Label.ahead, label]) rfl (by simp [Cpu.ran, label])
      simpa [State.entered] using enters
  | waiting timer label taken =>
      rw [State.setCpu_cpu_same]
      obtain rfl := Timer.State.nextSlotReturn_spec taken
      have returns : Recorded state.history id (state.entered (.cpu id))
          ((state.cpu id).moved .loop) :=
        recorded.returns (by simp [Label.ahead, label]) rfl rfl
      simpa [State.entered] using returns
  | detach timer label taken =>
      rw [State.setCpu_cpu_same]
      obtain rfl := Timer.State.detachEvent_spec taken
      have stays : Recorded state.history id (state.entered (.cpu id))
          ((state.cpu id).moved .stopped) :=
        recorded.congr (fun _ _ => Iff.rfl) (by simp [Label.ahead, label])
          (by simp [Cpu.ran, label])
      simpa [State.entered] using stays

/-- A CPU that does not wait has entered `next_slot` for no slot but the past ones. -/
theorem within_self
    (invariant : Invariant config state)
    (invariant' : Invariant config next)
    (within : state.entered (.cpu id) ≤ state.timer.time + (state.cpu id).label.ahead)
    (step : CpuStep config state id next) :
    next.entered (.cpu id) ≤ next.timer.time + (next.cpu id).label.ahead := by
  cases step with
  | move cpu sched moves =>
      rw [State.setCpu_cpu_same, (moves.ran (invariant.idle id)).1]
      exact within
  | nextSlot timer label taken =>
      obtain ⟨_, rfl⟩ := Timer.State.nextSlotEnter_spec taken
      simpa [State.entered, label, Label.ahead] using within
  | waiting timer label taken =>
      have now := invariant'.entered id (by rw [State.setCpu_cpu_same]; rfl)
      exact Nat.le_add_right_of_le (Nat.le_of_eq now)
  | detach timer label taken =>
      obtain rfl := Timer.State.detachEvent_spec taken
      simpa [State.entered, label, Label.ahead] using within
  | getProc _ _ _ label | putReady _ label | free _ label | run _ label | exec _ label =>
      rw [label] at within
      exact Nat.le_add_right_of_le within

end Recorded

/-! ## The chart and the run -/

/-- The line of a slot is printed when the slot begins. -/
theorem timerPrints_spec
    {state : State n}
    {timer : Timer.State (Device n)}
    (taken : state.timer.step .timerRoutine = some timer) :
    (timer.time = state.timer.time ∧ state.timerPrints = []) ∨
      (timer.time = state.timer.time + 1 ∧
        state.timerPrints = [.timeSlot (state.timer.time + 1)]) := by
  simp only [Timer.State.step, Timer.State.timerRoutine] at taken
  simp only [State.timerPrints]
  split at taken
  case h_3 fsh event position =>
    rw [position]
    split at taken <;> cases taken
    case isTrue finished => simp [finished]
    case isFalse unfinished => simp [unfinished]
  all_goals
    rename_i position
    rw [position]
    try split at taken
    all_goals cases taken <;> simp

/-- What the log tells in a reachable state. -/
structure Charted (config : Config) (logged : Logged n) : Prop where
  bounded : Bounded config logged.base
  rested : ∀ id, (logged.base.cpu id).Rested
  recorded : ∀ id, Recorded logged.base.history id (logged.base.entered (.cpu id))
    (logged.base.cpu id)
  within : ∀ id, logged.base.entered (.cpu id) ≤
    logged.base.timer.time + (logged.base.cpu id).label.ahead
  shown : ∀ id, (Chart.ofLog logged.lines).onCpu id = (logged.base.cpu id).shown
  past : ∀ slot id proc, slot < logged.base.timer.time →
    ((Chart.ofLog logged.lines).cell slot id = some proc ↔
      ⟨.run, slot, proc, id⟩ ∈ logged.base.history.log)
  future : ∀ slot id, logged.base.timer.time ≤ slot →
    (Chart.ofLog logged.lines).cell slot id = none
  /-- The first slot does not end before its line is printed. -/
  early : logged.timerStarted = false → logged.base.timer.time = 0

namespace Charted

variable {config : Config} {logged : Logged n}

theorem boot (config : Config) (n : Nat) : Charted config (Logged.boot n) where
  bounded := Bounded.boot config n
  rested := fun _ _ => rfl
  recorded := fun id slot proc _ => by
    constructor
    · intro member
      cases member
    · rintro ⟨_, ran⟩
      cases ran
  within := fun _ => Nat.le_refl 0
  shown := fun _ => rfl
  past := fun _ _ _ early => absurd early (Nat.not_lt_zero _)
  future := fun _ _ _ => rfl
  early := fun _ => rfl

/-- The first lines of the timer and of the loader say nothing about processes. -/
theorem print
    (charted : Charted config logged)
    {timerStarted loaderStarted : Bool}
    {line : Line n}
    (silent : (Chart.ofLog logged.lines).read line = Chart.ofLog logged.lines)
    (early : timerStarted = false → logged.timerStarted = false) :
    Charted config
      { logged with
        timerStarted := timerStarted
        loaderStarted := loaderStarted
        lines := logged.lines ++ [line] } where
  bounded := charted.bounded
  rested := charted.rested
  recorded := charted.recorded
  within := charted.within
  shown := by
    rw [Chart.ofLog_append, List.foldl_cons, List.foldl_nil, silent]
    exact charted.shown
  past := by
    rw [Chart.ofLog_append, List.foldl_cons, List.foldl_nil, silent]
    exact charted.past
  future := by
    rw [Chart.ofLog_append, List.foldl_cons, List.foldl_nil, silent]
    exact charted.future
  early := fun unprinted => charted.early (early unprinted)

/-- A step of a CPU. -/
theorem cpuStep
    (charted : Charted config logged)
    {id : Fin n}
    {next : State n}
    (taken : logged.base.step config (.cpu id) = some next)
    (step : CpuStep config logged.base id next) :
    Charted config
      { logged with
        base := next
        lines := logged.lines ++ logged.base.cpuPrints config id } where
  bounded := charted.bounded.step _ taken
  rested := step.rested charted.rested
  recorded := by
    intro other
    by_cases same : other = id
    · subst same
      exact recorded_self charted.bounded.invariant (charted.recorded other) step
    · show Recorded next.history other (next.entered (.cpu other)) (next.cpu other)
      rw [step.cpu_other same, step.entered_other (by simpa using same)]
      exact (charted.recorded other).congr
        (fun slot proc => step.mem_log (.inl same)) rfl rfl
  within := by
    intro other
    by_cases same : other = id
    · subst same
      exact within_self charted.bounded.invariant (charted.bounded.step _ taken).invariant
        (charted.within other) step
    · show next.entered (.cpu other) ≤ next.timer.time + (next.cpu other).label.ahead
      rw [step.time, step.cpu_other same, step.entered_other (by simpa using same)]
      exact charted.within other
  shown := by
    intro other
    show (Chart.ofLog (logged.lines ++ logged.base.cpuPrints config id)).onCpu other = _
    rw [Chart.ofLog_append]
    by_cases same : other = id
    · subst same
      exact step.shown (charted.rested other) (charted.bounded.invariant.idle other)
        (charted.shown other)
    · rw [read_cpuPrints_other _ same, step.cpu_other same]
      exact charted.shown other
  past := by
    intro slot other proc past
    have before : slot < logged.base.timer.time := by
      rw [← step.time]
      exact past
    rw [Chart.ofLog_append, read_cpuPrints_cell, step.mem_log (.inr before)]
    exact charted.past slot other proc before
  future := by
    rw [Chart.ofLog_append, read_cpuPrints_cell]
    intro slot other future
    exact charted.future slot other (by rw [← step.time]; exact future)
  early := fun unprinted => by
    show next.timer.time = 0
    rw [step.time]
    exact charted.early unprinted

/-- A step that no CPU takes and in which no slot ends. -/
theorem quiet
    (charted : Charted config logged)
    {next : State n}
    (bounded : Bounded config next)
    (cpu : next.cpu = logged.base.cpu)
    (log : next.history.log = logged.base.history.log)
    (entered : ∀ id, next.entered (.cpu id) = logged.base.entered (.cpu id))
    (time : next.timer.time = logged.base.timer.time)
    {lines : List (Line n)}
    (silent : lines.foldl Chart.read (Chart.ofLog logged.lines) = Chart.ofLog logged.lines) :
    Charted config { logged with base := next, lines := logged.lines ++ lines } where
  bounded := bounded
  rested := by
    rw [cpu]
    exact charted.rested
  recorded := by
    intro id
    show Recorded next.history id (next.entered (.cpu id)) (next.cpu id)
    rw [cpu, entered]
    exact (charted.recorded id).congr (fun _ _ => by rw [log]) rfl rfl
  within := by
    intro id
    show next.entered (.cpu id) ≤ next.timer.time + (next.cpu id).label.ahead
    rw [cpu, entered, time]
    exact charted.within id
  shown := by
    rw [Chart.ofLog_append, silent, cpu]
    exact charted.shown
  past := by
    rw [Chart.ofLog_append, silent, log, time]
    exact charted.past
  future := by
    rw [Chart.ofLog_append, silent, time]
    exact charted.future
  early := by
    rw [time]
    exact charted.early

/-- At the end of a slot every CPU has finished it or has stopped before, and the log
shows the process for which it has called `run`. -/
theorem shown_iff_mem_log
    (charted : Charted config logged)
    {timer : Timer.State (Device n)}
    (taken : logged.base.timer.step .timerRoutine = some timer)
    (passes : timer.time ≠ logged.base.timer.time)
    (id : Fin n)
    (proc : Nat) :
    (logged.base.cpu id).shown = some proc ↔
      ⟨.run, logged.base.timer.time, proc, id⟩ ∈ logged.base.history.log := by
  obtain ⟨_, _, finished⟩ := charted.bounded.rounds.slot_ends taken passes
  have synchronized := charted.bounded.invariant.synchronized
  have recorded := charted.recorded id logged.base.timer.time proc (charted.within id)
  have phase := synchronized.phase (.cpu id)
  rw [recorded]
  by_cases detached : (logged.base.timer.device (.cpu id)).phase = .detached
  · rw [detached] at phase
    have label : (logged.base.cpu id).label = .stopped := by
      cases label : (logged.base.cpu id).label <;>
        simp [State.phaseOf, label, Label.phase] at phase ⊢
    simp [Cpu.shown, Cpu.ran, label]
  · obtain ⟨waiting, ahead⟩ := finished (.cpu id) (synchronized.attached _) detached
    rw [waiting] at phase
    have label : (logged.base.cpu id).label = .waiting := by
      cases label : (logged.base.cpu id).label <;>
        simp [State.phaseOf, label, Label.phase] at phase ⊢
    have own : logged.base.timer.time + (logged.base.cpu id).label.ahead =
        logged.base.entered (.cpu id) := by
      rw [label]
      exact ahead.symm
    rw [Cpu.ran_eq_shown_of_waiting label]
    exact (and_iff_right own).symm

/-- The end of a slot. -/
theorem slotEnds
    (charted : Charted config logged)
    {timer : Timer.State (Device n)}
    (taken : logged.base.timer.step .timerRoutine = some timer)
    (passes : timer.time = logged.base.timer.time + 1)
    (started : logged.timerStarted = true) :
    Charted config
      { logged with
        base := { logged.base with timer := timer }
        lines := logged.lines ++ [.timeSlot (logged.base.timer.time + 1)] } := by
  have stepped : logged.base.step config .timer = some { logged.base with timer := timer } := by
    rw [State.step, taken, Option.map_some]
  obtain ⟨_, _, devices⟩ := Timer.State.timerRoutine_spec taken
  have entered : ∀ id, State.entered { logged.base with timer := timer } (.cpu id) =
      logged.base.entered (.cpu id) := fun id => (devices (.cpu id)).2
  exact
    { bounded := charted.bounded.step _ stepped
      rested := charted.rested
      recorded := fun id => by
        show Recorded logged.base.history id
          (State.entered { logged.base with timer := timer } (.cpu id)) _
        rw [entered]
        exact charted.recorded id
      within := fun id => by
        show State.entered { logged.base with timer := timer } (.cpu id) ≤
          timer.time + (logged.base.cpu id).label.ahead
        rw [entered, passes]
        have within := charted.within id
        omega
      shown := by
        rw [Chart.ofLog_append]
        exact charted.shown
      past := by
        intro slot id proc past
        rw [Chart.ofLog_append]
        show Function.update (Chart.ofLog logged.lines).cell logged.base.timer.time
          (Chart.ofLog logged.lines).onCpu slot id = some proc ↔ _
        by_cases now : slot = logged.base.timer.time
        · subst now
          rw [Function.update_self, charted.shown]
          exact charted.shown_iff_mem_log taken (by omega) id proc
        · rw [Function.update_of_ne now]
          have before : slot < timer.time := past
          exact charted.past slot id proc (by omega)
      future := by
        intro slot id future
        have later : timer.time ≤ slot := future
        rw [Chart.ofLog_append]
        show Function.update (Chart.ofLog logged.lines).cell logged.base.timer.time
          (Chart.ofLog logged.lines).onCpu slot id = none
        rw [Function.update_of_ne (by omega)]
        exact charted.future slot id (by omega)
      early := fun unprinted => by
        rw [started] at unprinted
        cases unprinted }

/-- A step of the loop of the timer thread. -/
theorem timer
    (charted : Charted config logged)
    (started : logged.timerStarted = true)
    {timer : Timer.State (Device n)}
    (taken : logged.base.timer.step .timerRoutine = some timer) :
    Charted config
      { logged with
        base := { logged.base with timer := timer }
        lines := logged.lines ++ logged.base.timerPrints } := by
  have stepped : logged.base.step config .timer = some { logged.base with timer := timer } := by
    rw [State.step, taken, Option.map_some]
  rcases timerPrints_spec taken with ⟨same, prints⟩ | ⟨passes, prints⟩
  · rw [prints]
    obtain ⟨_, _, devices⟩ := Timer.State.timerRoutine_spec taken
    exact charted.quiet (charted.bounded.step _ stepped) rfl rfl
      (fun id => (devices (.cpu id)).2) same rfl
  · rw [prints]
    exact charted.slotEnds taken passes started

/-- A step of the loop of the loader. -/
theorem ldStep
    (charted : Charted config logged)
    {next : State n}
    (taken : logged.base.step config .loader = some next)
    (step : LdStep config logged.base next) :
    Charted config
      { logged with
        base := next
        lines := logged.lines ++ logged.base.ldPrints config } := by
  have log : next.history.log = logged.base.history.log := by cases step <;> rfl
  have silent : ∀ chart : Chart n,
      (logged.base.ldPrints config).foldl Chart.read chart = chart := by
    intro chart
    simp only [State.ldPrints]
    split <;> (repeat' split) <;> rfl
  exact charted.quiet (charted.bounded.step _ taken) step.cpu log
    (fun id => step.entered_cpu id) step.time (silent _)

/-- Every atomic step. -/
theorem step
    (charted : Charted config logged)
    (event : Event n)
    {next : Logged n}
    (taken : logged.step config event = some next) :
    Charted config next := by
  cases event with
  | timer =>
      simp only [Logged.step] at taken
      split at taken
      case isTrue started =>
        obtain ⟨base, stepped, rfl⟩ := Option.map_eq_some_iff.mp taken
        obtain ⟨timer, ticked, rfl⟩ := Option.map_eq_some_iff.mp stepped
        exact charted.timer started ticked
      case isFalse unprinted =>
        cases taken
        have first := charted.early (by simpa using unprinted)
        refine charted.print ?_ nofun
        rw [first]
        rfl
  | cpu id =>
      obtain ⟨base, stepped, rfl⟩ := Option.map_eq_some_iff.mp taken
      exact charted.cpuStep stepped (cpuStep_of_cpuRoutine stepped)
  | loader =>
      simp only [Logged.step] at taken
      split at taken
      · obtain ⟨base, stepped, rfl⟩ := Option.map_eq_some_iff.mp taken
        exact charted.ldStep stepped (ldStep_of_ldRoutine stepped)
      · cases taken
        exact charted.print rfl id
  | main =>
      obtain ⟨base, stepped, rfl⟩ := Option.map_eq_some_iff.mp taken
      have bounded := charted.bounded.step _ stepped
      simp only [State.step, State.mainRoutine] at stepped
      split at stepped
      · cases stepped
        exact charted.quiet bounded rfl rfl (fun _ => rfl) rfl rfl
      · cases stepped

end Charted

/-- A line is printed, or the threads take a step. -/
theorem Logged.stutters (config : Config) (n : Nat) :
    Stutters (Logged.step config) (State.step config) Logged.base (Charted (n := n) config)
      (fun logged => (!logged.timerStarted).toNat + (!logged.loaderStarted).toNat)
      (fun _ => 0) where
  kept := fun _ event _ charted taken => charted.step event taken
  step := by
    intro logged event next charted taken
    have goes : ∀ event, logged.goes config event = some next →
        (next.base = logged.base ∧
          (!next.timerStarted).toNat + (!next.loaderStarted).toNat <
            (!logged.timerStarted).toNat + (!logged.loaderStarted).toNat) ∨
        (logged.base.step config event = some next.base ∧
          (!next.timerStarted).toNat + (!next.loaderStarted).toNat ≤
            (!logged.timerStarted).toNat + (!logged.loaderStarted).toNat + 0) := by
      intro event taken
      obtain ⟨base, stepped, rfl⟩ := Option.map_eq_some_iff.mp taken
      exact .inr ⟨stepped, Nat.le_refl _⟩
    cases event with
    | timer =>
        simp only [Logged.step] at taken
        split at taken
        · exact goes .timer taken
        · cases taken
          left
          simp_all
    | loader =>
        simp only [Logged.step] at taken
        split at taken
        · exact goes .loader taken
        · cases taken
          left
          simp_all
    | cpu id => exact goes (.cpu id) taken
    | main => exact goes .main taken

/-- Behind their first lines the threads are not held up by the log. -/
theorem Logged.goes_on
    {config : Config}
    {logged : Logged n}
    {event : Event n}
    (enabled : logged.base.step config event ≠ none) :
    logged.step config event ≠ none := by
  have goes : logged.goes config event ≠ none := by
    simpa [Logged.goes] using enabled
  cases event with
  | timer =>
      simp only [Logged.step]
      split
      · exact goes
      · exact nofun
  | loader =>
      simp only [Logged.step]
      split
      · exact goes
      · exact nofun
  | cpu id => exact goes
  | main => exact goes

/-- Where nothing is left to do, the threads have ended. -/
theorem Logged.halted_base
    {config : Config}
    {logged : Logged n}
    (halted : Halted (Logged.step config) Event.isMain logged) :
    Halted (State.step config) Event.isMain logged.base :=
  halted.coarse fun event notMain enabled => ⟨event, notMain, Logged.goes_on enabled⟩

/-- When the threads have ended, all calls of `run` are in slots that have ended. -/
theorem Charted.at_end
    {config : Config}
    {logged : Logged n}
    (charted : Charted config logged)
    (stopped : ∀ id, (logged.base.cpu id).label = .stopped)
    (slot : Nat)
    (id : Fin n)
    (proc : Nat) :
    (Chart.ofLog logged.lines).cell slot id = some proc ↔
      ⟨.run, slot, proc, id⟩ ∈ logged.base.history.log := by
  rcases Nat.lt_or_ge slot logged.base.timer.time with past | future
  · exact charted.past slot id proc past
  · have within := charted.within id
    have recorded := charted.recorded id slot proc
    rw [charted.future slot id future]
    rw [stopped id] at within recorded
    have nothing : (logged.base.cpu id).ran = none := by simp [Cpu.ran, stopped id]
    rw [nothing] at recorded
    simpa using recorded (within.trans future)

/-- In every reachable state the chart that is read off the log shows, for each slot that
has ended and each CPU, the process for which the CPU has called `run` in the slot.  When
the threads have ended it shows all calls of `run`. -/
theorem chart_of_log
    (config : Config)
    (n : Nat)
    (logged : Logged n)
    (run : Run (Logged.step config) anyEvent (Logged.boot n) logged) :
    Run (State.step config) anyEvent (boot n) logged.base ∧
      (∀ slot id proc, slot < logged.base.timer.time →
        ((Chart.ofLog logged.lines).cell slot id = some proc ↔
          ⟨.run, slot, proc, id⟩ ∈ logged.base.history.log)) ∧
      (Halted (Logged.step config) Event.isMain logged → ∀ slot id proc,
        ((Chart.ofLog logged.lines).cell slot id = some proc ↔
          ⟨.run, slot, proc, id⟩ ∈ logged.base.history.log)) := by
  obtain ⟨charted, baseRun⟩ := (Logged.stutters config n).run (Charted.boot config n) run
  refine ⟨baseRun, charted.past, fun halted => ?_⟩
  have ended := stopped_of_halted charted.bounded (Equipped.run baseRun)
    (Logged.halted_base halted)
  exact charted.at_end ended.1

/-! ## How many cells a program fills -/

/-- Some CPU stands between the test of `run` and the instruction. -/
def State.Executing (state : State n) (proc : Nat) : Prop :=
  ∃ id, (state.cpu id).label = .exec ∧ (state.cpu id).proc = some proc

/-- For a program with instructions there is one call of `run` for each executed
instruction, and one for the instruction that is being executed. -/
def Matched (config : Config) (state : State n) : Prop :=
  ∀ proc, 0 < config.codeSize proc →
    state.history.runs proc = state.pc proc ∨ state.Executing proc

section Matched

variable {config : Config} {state next : State n} {id : Fin n}

/-- The other CPUs go on with their instructions. -/
theorem State.Executing.mono
    {proc : Nat}
    (executing : state.Executing proc)
    (step : CpuStep config state id next)
    (other : (state.cpu id).label = .exec → (state.cpu id).proc ≠ some proc) :
    next.Executing proc := by
  obtain ⟨executor, label, holds⟩ := executing
  have different : executor ≠ id := by
    rintro rfl
    exact other label holds
  refine ⟨executor, ?_, ?_⟩
  · rw [step.cpu_other different]
    exact label
  · rw [step.cpu_other different]
    exact holds

theorem Matched.cpuStep
    (matched : Matched config state)
    (tallied : Tallied config state)
    (step : CpuStep config state id next) :
    Matched config next := by
  intro proc instructions
  have quiet : (state.cpu id).label ≠ .exec →
      next.history.runs proc = state.history.runs proc → next.pc proc = state.pc proc →
      next.history.runs proc = next.pc proc ∨ next.Executing proc := by
    intro label runs pc
    rw [runs, pc]
    exact (matched proc instructions).imp_right fun executing =>
      executing.mono step fun isExec => absurd isExec label
  cases kind : step with
  | run called label holds =>
      by_cases same : proc = called
      · subst same
        obtain ⟨ran, position⟩ := tallied.at_label label holds
        have below : ¬config.codeSize proc ≤ state.pc proc := by omega
        exact .inr ⟨id, by simp [below], by simp [below, holds]⟩
      · refine quiet (by simp [label]) ?_ rfl
        exact History.runs_record_of_ne (Ne.symm same)
  | exec executed label holds =>
      by_cases same : proc = executed
      · subst same
        obtain ⟨ran, below⟩ := tallied.at_label label holds
        left
        show (state.history.record ⟨.instruction, state.timer.time, proc, id⟩).runs proc =
          Function.update state.pc proc (state.pc proc + 1) proc
        rw [History.runs_record_instruction rfl, ran, Function.update_self]
      · show (state.history.record ⟨.instruction, state.timer.time, executed, id⟩).runs proc =
          Function.update state.pc executed (state.pc executed + 1) proc ∨ _
        rw [History.runs_record_instruction rfl, Function.update_of_ne same]
        refine (matched proc instructions).imp_right fun executing => executing.mono step ?_
        intro _ same'
        rw [holds] at same'
        exact same (Option.some.inj same').symm
  | move cpu sched moves =>
      refine quiet ?_ rfl rfl
      cases moves <;> simp [*]
  | putReady _ label | free _ label | getProc _ _ _ label | nextSlot _ label
  | waiting _ label | detach _ label =>
      exact quiet (by simp [label]) rfl rfl

/-- In every reachable state. -/
theorem Matched.run
    (run : Run (State.step config) anyEvent (boot n) state) :
    Matched config state := by
  suffices both : Bounded config state ∧ Matched config state from both.2
  refine run.invariant (fun state => Bounded config state ∧ Matched config state)
    (fun state event next both _ taken => ⟨both.1.step event taken, ?_⟩)
    ⟨Bounded.boot config n, fun _ _ => .inl rfl⟩
  obtain ⟨bounded, matched⟩ := both
  have keep : next.cpu = state.cpu → next.history.log = state.history.log →
      next.pc = state.pc → Matched config next := by
    intro cpu log pc proc instructions
    have before := matched proc instructions
    simp only [History.runs, History.dispatches, State.Executing] at before ⊢
    rw [cpu, log, pc]
    exact before
  cases event with
  | cpu id => exact matched.cpuStep bounded.tallied (cpuStep_of_cpuRoutine taken)
  | loader =>
      have step := ldStep_of_ldRoutine taken
      refine keep step.cpu ?_ step.pc
      cases step <;> rfl
  | timer =>
      obtain ⟨timer, ticked, rfl⟩ := Option.map_eq_some_iff.mp taken
      exact keep rfl rfl rfl
  | main =>
      simp only [State.step, State.mainRoutine] at taken
      split at taken <;> cases taken
      exact keep rfl rfl rfl

end Matched

namespace Chart

/-- The cells in front of a slot that show a process. -/
def cells (chart : Chart n) (last proc : Nat) : Finset (Nat × Fin n) :=
  (Finset.range last ×ˢ Finset.univ).filter fun place =>
    chart.cell place.1 place.2 = some proc

end Chart

/-- A process has as many calls of `run` as places in the record. -/
theorem History.card_places
    {history : History n}
    (once : ∀ time proc, history.count .run time proc ≤ 1)
    (proc : Nat)
    {places : Finset (Nat × Fin n)}
    (listed : ∀ slot id, (slot, id) ∈ places ↔ ⟨.run, slot, proc, id⟩ ∈ history.log) :
    places.card = history.runs proc := by
  let calls := history.log.filter fun entry => entry.action = .run ∧ entry.proc = proc
  have distinct : (calls.map fun entry => (entry.time, entry.cpu)).Nodup := by
    -- Two calls of one process are in two slots.
    suffices slots : (calls.map Entry.time).Nodup by
      refine List.Nodup.of_map Prod.fst ?_
      rwa [List.map_map]
    rw [List.nodup_iff_count_le_one]
    intro slot
    refine Nat.le_trans (Nat.le_of_eq ?_) (once slot proc)
    rw [List.count, List.countP_map, List.countP_filter, History.count]
    refine List.countP_congr fun entry _ => ?_
    simp only [Function.comp_apply, decide_eq_true_eq, Bool.and_eq_true, beq_iff_eq]
    tauto
  have same : places = (calls.map fun entry => (entry.time, entry.cpu)).toFinset := by
    ext ⟨slot, id⟩
    rw [listed, List.mem_toFinset, List.mem_map]
    constructor
    · intro member
      exact ⟨⟨.run, slot, proc, id⟩, List.mem_filter.mpr ⟨member, by simp⟩, rfl⟩
    · rintro ⟨⟨action, time, other, cpu⟩, member, equal⟩
      obtain ⟨logged, isRun⟩ := List.mem_filter.mp member
      simp only [decide_eq_true_eq, Prod.mk.injEq] at isRun equal
      obtain ⟨rfl, rfl⟩ := isRun
      obtain ⟨rfl, rfl⟩ := equal
      exact logged
  rw [same, List.toFinset_card_of_nodup distinct, List.length_map, History.runs,
    History.dispatches, List.count, List.countP_map, List.countP_filter,
    List.countP_eq_length_filter.symm]
  refine List.countP_congr fun entry _ => ?_
  simp only [Function.comp_apply, decide_eq_true_eq, Bool.and_eq_true, beq_iff_eq]
  tauto

/-- With not more processes than a queue has places, every simulation ends with a log
whose chart shows a program of `k` instructions in `k` cells. -/
theorem chart_complete
    (config : Config)
    (n : Nat)
    (someCpu : 0 < n)
    (few : config.numProcesses ≤ maxQueueSize)
    (logged : Logged n)
    (run : Run (Logged.step config) anyEvent (Logged.boot n) logged) :
    (Halted (Logged.step config) Event.isMain logged →
        ∀ proc, proc < config.numProcesses → 0 < config.codeSize proc →
          ((Chart.ofLog logged.lines).cells logged.base.timer.time proc).card =
            config.codeSize proc) ∧
      ∃ events last, replay (Logged.step config) logged events = some last ∧
        Halted (Logged.step config) Event.isMain last := by
  have refinement := Logged.stutters config n
  obtain ⟨charted, baseRun⟩ := refinement.run (Charted.boot config n) run
  constructor
  · intro halted proc configured instructions
    have baseHalted := Logged.halted_base halted
    have ended := stopped_of_halted charted.bounded (Equipped.run baseRun) baseHalted
    obtain ⟨_, complete⟩ :=
      completed_of_halted someCpu (hasRoom_of_few few baseRun) baseHalted configured
    rcases Matched.run baseRun proc instructions with matched | ⟨id, label, _⟩
    · rw [← complete, ← matched]
      refine History.card_places (charted.bounded.invariant.once .run) proc fun slot id => ?_
      have shown := charted.at_end ended.1 slot id proc
      rw [← shown, Chart.cells, Finset.mem_filter, Finset.mem_product]
      constructor
      · rintro ⟨_, cell⟩
        exact cell
      · intro cell
        refine ⟨⟨Finset.mem_range.mpr ?_, Finset.mem_univ id⟩, cell⟩
        by_contra future
        rw [charted.future slot id (Nat.not_lt.mp future)] at cell
        cases cell
    · rw [ended.1 id] at label
      cases label
  · have ranked := refinement.ranked (ranked config n) (fun _ charted => charted.bounded)
      (fun _ => Nat.le_refl 0) (fun _ _ => rfl)
    obtain ⟨events, last, _, reaches, halted⟩ := ranked.exists_halted logged charted
    exact ⟨events, last, reaches, halted⟩

/-- The configuration of `input/sched_0`. -/
def sched0 : Config where
  prio := fun proc => if proc = 0 then 4 else 0
  prio_lt := fun proc => by split <;> decide
  codeSize := fun proc => if proc = 0 then 15 else 7
  timeSlot := 2
  numProcesses := 2
  startTime := fun proc => if proc = 0 then 0 else 4

/-- Its only CPU. -/
def sched0Cpu : Fin 1 := Fin.last 0

/-- `output/sched_0.output`. -/
def sched0Output : List (Line 1) :=
  [.timeSlot 0, .ldRoutine, .loaded 0,
    .timeSlot 1, .dispatched sched0Cpu 0,
    .timeSlot 2, .timeSlot 3, .put sched0Cpu 0, .dispatched sched0Cpu 0,
    .timeSlot 4, .loaded 1, .timeSlot 5, .put sched0Cpu 0, .dispatched sched0Cpu 1,
    .timeSlot 6, .timeSlot 7, .put sched0Cpu 1, .dispatched sched0Cpu 1,
    .timeSlot 8, .timeSlot 9, .put sched0Cpu 1, .dispatched sched0Cpu 1,
    .timeSlot 10, .timeSlot 11, .put sched0Cpu 1, .dispatched sched0Cpu 1,
    .timeSlot 12, .finished sched0Cpu 1, .dispatched sched0Cpu 0,
    .timeSlot 13, .timeSlot 14, .put sched0Cpu 0, .dispatched sched0Cpu 0,
    .timeSlot 15, .timeSlot 16, .put sched0Cpu 0, .dispatched sched0Cpu 0,
    .timeSlot 17, .timeSlot 18, .put sched0Cpu 0, .dispatched sched0Cpu 0,
    .timeSlot 19, .timeSlot 20, .put sched0Cpu 0, .dispatched sched0Cpu 0,
    .timeSlot 21, .timeSlot 22, .put sched0Cpu 0, .dispatched sched0Cpu 0,
    .timeSlot 23, .finished sched0Cpu 0, .stopped sched0Cpu]

/-- Slots in pairs: a process is put back and dispatched, and goes on. -/
def sched0Pairs (count : Nat) : List (Event 1 × Nat) :=
  (List.replicate count
    [(.cpu sched0Cpu, 14), (.timer, 7), (.cpu sched0Cpu, 6), (.timer, 7)]).flatten

/-- A schedule that prints it. -/
def sched0Schedule : List (Event 1) :=
  schedule (List.flatten
    [[(.timer, 1), (.cpu sched0Cpu, 4), (.loader, 5), (.timer, 5), (.loader, 3), (.timer, 1),
        (.cpu sched0Cpu, 9), (.timer, 6), (.loader, 3), (.timer, 1),
        (.cpu sched0Cpu, 6), (.timer, 6), (.loader, 3), (.timer, 1),
        (.cpu sched0Cpu, 14), (.timer, 6), (.loader, 5), (.timer, 1),
        (.cpu sched0Cpu, 6), (.timer, 6), (.loader, 3), (.timer, 1)],
      sched0Pairs 3,
      [(.cpu sched0Cpu, 14), (.timer, 7), (.cpu sched0Cpu, 13), (.timer, 7),
        (.cpu sched0Cpu, 6), (.timer, 7)],
      sched0Pairs 4,
      [(.cpu sched0Cpu, 14), (.timer, 7), (.cpu sched0Cpu, 9), (.timer, 5)]])

/-- The threads end with this log. -/
theorem sched0Schedule_prints :
    ∃ logged, replay (Logged.step sched0) (Logged.boot 1) sched0Schedule = some logged ∧
      logged.lines = sched0Output ∧ Halted (Logged.step sched0) Event.isMain logged := by
  obtain ⟨logged, reaches, printed, stuck⟩ := exists_of_evaluated
    (show (replay (Logged.step sched0) (Logged.boot 1) sched0Schedule).map
      (fun logged => decide (logged.lines = sched0Output ∧
        ∀ event ∈ ([.cpu sched0Cpu, .loader, .timer] : List (Event 1)),
          (logged.step sched0 event).isNone = true)) = some true by
      decide +kernel)
  refine ⟨logged, reaches, printed, fun event notMain =>
    Option.isNone_iff_eq_none.mp (stuck event ?_)⟩
  cases event with
  | cpu id => simp [Subsingleton.elim id sched0Cpu]
  | loader | timer => simp
  | main => cases notMain

/-- The whole log of the repository's first example tells all calls of `run`. -/
theorem chart_of_log_sched0 :
    ∃ logged, replay (Logged.step sched0) (Logged.boot 1) sched0Schedule = some logged ∧
      ∀ slot id proc, (Chart.ofLog sched0Output).cell slot id = some proc ↔
        ⟨.run, slot, proc, id⟩ ∈ logged.base.history.log := by
  obtain ⟨logged, reaches, printed, halted⟩ := sched0Schedule_prints
  have run := Run.of_replay_any sched0Schedule reaches
  have shown := (chart_of_log sched0 1 logged run).2.2 halted
  rw [printed] at shown
  exact ⟨logged, reaches, shown⟩

/-- It shows 15 calls for the first process and 7 for the second. -/
theorem chart_complete_sched0 :
    ∃ last, ((Chart.ofLog sched0Output).cells last 0).card = 15 ∧
      ((Chart.ofLog sched0Output).cells last 1).card = 7 := by
  obtain ⟨logged, reaches, printed, halted⟩ := sched0Schedule_prints
  have run := Run.of_replay_any sched0Schedule reaches
  have complete := (chart_complete sched0 1 (by decide) (by decide) logged run).1 halted
  rw [printed] at complete
  exact ⟨logged.base.timer.time, complete 0 (by decide) (by decide),
    complete 1 (by decide) (by decide)⟩

end Os
end Ossim
