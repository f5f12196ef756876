import Ossim.Os.Tally
import Ossim.Os.Arrival
import Ossim.Timer.Rounds
import Mathlib.Algebra.Order.BigOperators.Group.Finset
import Mathlib.Data.Finset.Card

/-!
# How long a simulation lasts

A slot ends only if some thread has not detached.  If that is the loader, it has
processes left, so the slot is not behind its last arrival.  If it is a CPU, it has
called `run` in the slot or has found `done` clear, so again the loader is not
through.  Hence every slot behind the last arrival has a call of `run`, and there are
not more of these than instructions.
-/

namespace Ossim
namespace Os

open Scheduler Transition

/-- The slots of the calls of `run`, the last call first. -/
def History.busySlots (history : History n) : List Nat :=
  (history.log.filter fun entry => entry.action = .run).map Entry.time

/-- The slot in which the loader sets `done`. -/
def loadEnd (config : Config) : Nat :=
  readyTime config.startTime config.numProcesses

/-- The most calls of `run` for all processes: one for each instruction, and one for
a process without instructions. -/
def maxRuns (config : Config) : Nat :=
  ∑ proc ∈ Finset.range config.numProcesses, max 1 (config.codeSize proc)

/-- The last slot that a simulation can reach. -/
def lastSlot (config : Config) : Nat :=
  loadEnd config + 1 + maxRuns config

/-- The slot has a call of `run` or is not behind the last arrival. -/
def Used (config : Config) (history : History n) (slot : Nat) : Prop :=
  slot ∈ history.busySlots ∨ slot ≤ loadEnd config

/-- What a CPU that has entered `next_slot` this often knows at a position about the
slot that it works in, or has finished. -/
def Label.Used (config : Config) (history : History n) (entered : Nat) : Label → Prop
  | .exec | .nextSlot => Os.Used config history entered
  | .waiting => ∀ slot, slot + 1 = entered → Os.Used config history slot
  | _ => True

/-- How far the loader is in time. -/
def LdLabel.InTime (config : Config) (entered : Nat) : LdLabel → Prop
  | .nextSlot _ => entered + 1 ≤ loadEnd config
  | .detach | .stopped => True
  | _ => entered ≤ loadEnd config

/-- Every past slot was used. -/
structure Paced (config : Config) (state : State n) : Prop where
  loader : state.loader.InTime config (state.entered .loader)
  /-- Behind its loop the loader has set `done`. -/
  done : state.loader.next = none → state.done = true
  cpu : ∀ id, (state.cpu id).label.Used config state.history (state.entered (.cpu id))
  past : ∀ slot, slot < state.timer.time → Used config state.history slot
  /-- The loader adds the processes of the configuration only. -/
  added : ∀ proc, config.numProcesses ≤ proc → state.stage proc = .new
  logged : ∀ entry ∈ state.history.log, entry.proc < config.numProcesses

section Used

variable {config : Config} {history : History n} {slot entered : Nat}

/-- Recording an action forgets no call of `run`. -/
theorem Used.record
    (used : Used config history slot)
    (entry : Entry n) :
    Used config (history.record entry) slot := by
  refine used.imp_left fun busy => ?_
  rw [History.busySlots, History.record, List.filter_cons]
  split
  · exact List.mem_cons_of_mem _ busy
  · exact busy

/-- The slot of a call of `run` is used. -/
theorem used_record_run
    (proc : Nat)
    (id : Fin n) :
    Used config (history.record ⟨.run, slot, proc, id⟩) slot := by
  left
  simp [History.busySlots, History.record]

theorem Label.Used.imp
    {history' : History n}
    {label : Label}
    (used : label.Used config history entered)
    (more : ∀ slot, Os.Used config history slot → Os.Used config history' slot) :
    label.Used config history' entered := by
  cases label
  case exec | nextSlot => exact more _ used
  case waiting => exact fun slot before => more slot (used slot before)
  all_goals trivial

end Used

/-- Each process is loaded no later than the last one. -/
theorem loadTime_lt_loadEnd
    {config : Config}
    {i : Nat}
    (some : i < config.numProcesses) :
    loadTime config.startTime i < loadEnd config := by
  obtain ⟨last, count⟩ : ∃ last, config.numProcesses = last + 1 :=
    Nat.exists_eq_succ_of_ne_zero (by omega)
  rw [loadEnd, count, readyTime]
  exact Nat.lt_succ_of_le (loadTime_le _ (by omega))

/-- Nothing is recorded in the steps in `Move`, and a CPU that has nothing to run goes
to `next_slot` before `done` is set only. -/
theorem Move.used
    {config : Config}
    {state : State n}
    {cpu cpu' : Cpu}
    {sched : Sched Nat}
    {entered : Nat}
    (moves : Move config state cpu cpu' sched)
    (early : state.done = false → entered ≤ loadEnd config) :
    cpu'.label.Used config state.history entered := by
  have nothingToRun : (if state.done then Label.detach else .nextSlot).Used config
      state.history entered := by
    cases done : state.done with
    | true => trivial
    | false => exact .inr (early done)
  cases moves
  case testDone => exact nothingToRun
  case recheckNull => exact nothingToRun
  case updateWrite branch _ _ _ => cases branch <;> trivial
  case recheckProc =>
    rw [Cpu.dispatched_label]
    trivial
  all_goals trivial

namespace Paced

variable {config : Config} {state next : State n} {id : Fin n}

theorem boot (config : Config) (n : Nat) : Paced config (boot n) where
  loader := Nat.zero_le _
  done := nofun
  cpu := fun _ => trivial
  past := fun _ early => absurd early (Nat.not_lt_zero _)
  added := fun _ _ => rfl
  logged := nofun

/-- Before `done` is set the slot is not behind the last arrival. -/
theorem time_le
    (paced : Paced config state)
    (invariant : Invariant config state)
    (early : state.done = false) :
    state.timer.time ≤ loadEnd config := by
  have inTime := paced.loader
  have unfinished : state.loader.next ≠ none := fun left => by
    simp [paced.done left] at early
  have phase := invariant.synchronized.phase .loader
  have attached := invariant.synchronized.attached .loader
  have working : state.loader.phase = .working →
      state.entered .loader = state.timer.time :=
    fun working => invariant.synchronized.entered_of_working working
  cases label : state.loader with
  | waiting i =>
      have waiting : (state.timer.device .loader).phase = .waiting := by
        rw [phase, State.phaseOf, label]
        rfl
      have ahead := (invariant.synchronized.lockstep.waiting attached waiting).2.1
      rw [label] at inTime
      exact ahead.trans inTime
  | nextSlot i =>
      rw [label] at inTime
      have now := working (by rw [label]; rfl)
      have bound : state.entered .loader + 1 ≤ loadEnd config := inTime
      omega
  | head i | addRunning i | addReady i =>
      rw [label] at inTime
      rw [← working (by rw [label]; rfl)]
      exact inTime
  | detach => simp [label, LdLabel.next] at unfinished
  | stopped => simp [label, LdLabel.next] at unfinished

/-- What a CPU knows about its slot after its own step. -/
theorem cpu_self
    (paced : Paced config state)
    (invariant : Invariant config state)
    (step : CpuStep config state id next) :
    (next.cpu id).label.Used config next.history (next.entered (.cpu id)) := by
  have used := paced.cpu id
  have now := invariant.entered id
  cases step with
  | move cpu sched moves =>
      rw [State.setCpu_cpu_same]
      by_cases working : (state.cpu id).label.phase = .working
      · refine moves.used fun early => ?_
        exact Nat.le_trans (Nat.le_of_eq (now working)) (paced.time_le invariant early)
      · refine absurd ?_ working
        cases moves <;> simp_all [Label.phase]
  | putReady | free =>
      rw [State.setCpu_cpu_same]
      trivial
  | getProc given result sched label fetch =>
      rw [State.setCpu_cpu_same, Cpu.fetched_label]
      cases result <;> cases given <;> trivial
  | run proc label holds =>
      rw [State.setCpu_cpu_same]
      have slot : state.entered (.cpu id) = state.timer.time := now (by rw [label]; rfl)
      have busy : Used config
          (state.history.record ⟨.run, state.timer.time, proc, id⟩)
          (state.entered (.cpu id)) := by
        rw [slot]
        exact used_record_run proc id
      split
      · exact busy
      · exact busy
  | exec proc label holds =>
      rw [State.setCpu_cpu_same]
      rw [label] at used
      exact Used.record used _
  | nextSlot timer label taken =>
      rw [State.setCpu_cpu_same]
      obtain ⟨_, rfl⟩ := Timer.State.nextSlotEnter_spec taken
      rw [label] at used
      intro slot before
      have same : slot = state.entered (.cpu id) := by
        simpa [State.entered] using before
      rw [same]
      exact used
  | waiting timer label taken =>
      rw [State.setCpu_cpu_same]
      trivial
  | detach timer label taken =>
      rw [State.setCpu_cpu_same]
      trivial

/-- What is recorded in a step of a CPU. -/
theorem logged_cpuStep
    (paced : Paced config state)
    (invariant : Invariant config state)
    (step : CpuStep config state id next) :
    ∀ entry ∈ next.history.log, entry.proc < config.numProcesses := by
  have recorded : ∀ (action : Action) (proc : Nat), (state.cpu id).label.owns = true →
      (state.cpu id).proc = some proc →
      ∀ entry ∈ (state.history.record ⟨action, state.timer.time, proc, id⟩).log,
        entry.proc < config.numProcesses := by
    intro action proc owns holds entry member
    rcases List.mem_cons.mp member with rfl | old
    · by_contra outside
      have isNew := paced.added proc (Nat.not_lt.mp outside)
      simp [invariant.live owns holds] at isNew
    · exact paced.logged entry old
  cases step with
  | run proc label holds => exact recorded .run proc (by rw [label]; rfl) holds
  | exec proc label holds => exact recorded .instruction proc (by rw [label]; rfl) holds
  | _ => exact paced.logged

/-- No step of a CPU forgets a call of `run`. -/
theorem used_cpuStep
    (step : CpuStep config state id next)
    (slot : Nat)
    (used : Used config state.history slot) :
    Used config next.history slot := by
  cases step with
  | run | exec => exact used.record _
  | _ => exact used

/-- A step of a CPU. -/
theorem cpuStep
    (paced : Paced config state)
    (invariant : Invariant config state)
    (step : CpuStep config state id next) :
    Paced config next where
  loader := by
    have entered : next.entered .loader = state.entered .loader := step.entered_other nofun
    rw [step.loader, entered]
    exact paced.loader
  done := by
    rw [step.loader, step.done]
    exact paced.done
  cpu := by
    intro other
    by_cases same : other = id
    · subst same
      exact paced.cpu_self invariant step
    · rw [step.cpu_other same, step.entered_other (by simpa using same)]
      exact (paced.cpu other).imp (used_cpuStep step)
  past := by
    rw [step.time]
    exact fun slot early => used_cpuStep step slot (paced.past slot early)
  added := by
    intro proc outside
    have isNew := paced.added proc outside
    cases step with
    | free finished label holds =>
        have different : proc ≠ finished := by
          rintro rfl
          simp [invariant.live (by rw [label]; rfl) holds] at isNew
        simpa [different] using isNew
    | _ => exact isNew
  logged := paced.logged_cpuStep invariant step

/-- The loader stays in time. -/
theorem inTime_ldStep
    (paced : Paced config state)
    {count : Nat}
    (loading : Loading config state count)
    (step : LdStep config state next) :
    next.loader.InTime config (next.entered .loader) := by
  have inTime := paced.loader
  have placed := loading.placed
  cases step with
  | finish => trivial
  | detach => trivial
  | early i label some early =>
      -- The slot is before the one in which the process is loaded.
      have now := loading.time (by rw [label]; rfl)
      rw [label] at placed
      have due := loadTime_eq config.startTime i
      have last := loadTime_lt_loadEnd some
      show state.entered .loader + 1 ≤ loadEnd config
      omega
  | arrive i label some due =>
      rw [label] at inTime
      exact inTime
  | addRunning i label =>
      rw [label] at inTime
      exact inTime
  | addReady i label =>
      rw [label] at placed
      obtain ⟨bounded, _, slot⟩ := placed
      have last := loadTime_lt_loadEnd bounded
      show state.entered .loader + 1 ≤ loadEnd config
      omega
  | nextSlot i timer label taken =>
      rw [label] at inTime
      obtain ⟨_, rfl⟩ := Timer.State.nextSlotEnter_spec taken
      show (Timer.State.setDevice _ _ _ |>.device Device.loader).entered ≤ loadEnd config
      rw [Timer.State.setDevice_device_same]
      exact inTime
  | waiting i timer label taken =>
      rw [label] at inTime
      obtain rfl := Timer.State.nextSlotReturn_spec taken
      show (Timer.State.setDevice _ _ _ |>.device Device.loader).entered ≤ loadEnd config
      rw [Timer.State.setDevice_device_same]
      exact inTime

/-- A step of the loader. -/
theorem ldStep
    (paced : Paced config state)
    {count : Nat}
    (loading : Loading config state count)
    (step : LdStep config state next) :
    Paced config next where
  loader := paced.inTime_ldStep loading step
  done := by
    intro left
    cases step with
    | finish => rfl
    | detach timer label taken => exact paced.done (by rw [label]; rfl)
    | early | arrive | addRunning | addReady | nextSlot | waiting => cases left
  cpu := by
    intro id
    have used := paced.cpu id
    rw [step.cpu, step.entered_cpu]
    cases step <;> exact used
  past := by
    rw [step.time]
    cases step <;> exact paced.past
  added := by
    intro proc outside
    have isNew := paced.added proc outside
    cases step with
    | addReady i label =>
        have placed := loading.placed
        rw [label] at placed
        have different : proc ≠ i := by
          have bounded := placed.1
          omega
        simpa [different] using isNew
    | _ => exact isNew
  logged := by cases step <;> exact paced.logged

/-- A step of the timer thread: the slot that ends was used by the loader or by a
CPU. -/
theorem timer
    (paced : Paced config state)
    (invariant : Invariant config state)
    (rounds : Timer.Rounds state.timer)
    {timer : Timer.State (Device n)}
    (taken : state.timer.step .timerRoutine = some timer) :
    Paced config { state with timer := timer } := by
  obtain ⟨_, later, devices⟩ := Timer.State.timerRoutine_spec taken
  have entered : ∀ dev, (timer.device dev).entered = state.entered dev :=
    fun dev => (devices dev).2
  refine
    { loader := ?_
      done := paced.done
      cpu := fun id => ?_
      past := ?_
      added := paced.added
      logged := paced.logged }
  · show state.loader.InTime config (timer.device .loader).entered
    rw [entered]
    exact paced.loader
  · show (state.cpu id).label.Used config state.history (timer.device (.cpu id)).entered
    rw [entered]
    exact paced.cpu id
  · intro slot early
    by_cases before : slot < state.timer.time
    · exact paced.past slot before
    · have passes : timer.time ≠ state.timer.time := by
        intro same
        have := same ▸ early
        omega
      obtain ⟨advanced, ⟨dev, attached, undetached⟩, finished⟩ :=
        rounds.slot_ends taken passes
      have slotNow : slot = state.timer.time := by
        have : slot < timer.time := early
        omega
      obtain ⟨waiting, counted⟩ := finished dev attached undetached
      have phase := (invariant.synchronized.phase dev).symm.trans waiting
      subst slotNow
      cases dev with
      | cpu id =>
          have used := paced.cpu id
          have label : (state.cpu id).label = .waiting := by
            cases label : (state.cpu id).label <;>
              simp [State.phaseOf, label, Label.phase] at phase ⊢
          rw [label] at used
          exact used _ counted.symm
      | loader =>
          have inTime := paced.loader
          cases label : state.loader <;> simp [State.phaseOf, label, LdLabel.phase] at phase
          rw [label] at inTime
          have bound : (state.timer.device .loader).entered ≤ loadEnd config := inTime
          exact .inr (by omega)

end Paced

/-- The invariants on which the length of a simulation rests. -/
structure Bounded (config : Config) (state : State n) : Prop where
  invariant : Invariant config state
  loading : ∃ count, Loading config state count
  rounds : Timer.Rounds state.timer
  tallied : Tallied config state
  paced : Paced config state

namespace Bounded

variable {config : Config} {state next : State n}

theorem boot (config : Config) (n : Nat) : Bounded config (boot n) where
  invariant := Invariant.boot config n
  loading := ⟨0, Loading.boot config n⟩
  rounds := Timer.Rounds.boot (nodup_devices n)
  tallied := Tallied.boot config n
  paced := Paced.boot config n

/-- The timer knows of every step of a thread. -/
theorem rounds_step
    (rounds : Timer.Rounds state.timer)
    (event : Event n)
    (taken : state.step config event = some next) :
    Timer.Rounds next.timer := by
  cases event with
  | timer =>
      obtain ⟨timer, stepped, rfl⟩ := Option.map_eq_some_iff.mp taken
      exact rounds.step _ stepped
  | cpu id =>
      cases cpuStep_of_cpuRoutine taken with
      | nextSlot _ _ stepped | waiting _ _ stepped | detach _ _ stepped =>
          exact rounds.step _ stepped
      | _ => exact rounds
  | loader =>
      cases ldStep_of_ldRoutine taken with
      | nextSlot _ _ _ stepped | waiting _ _ _ stepped | detach _ _ stepped =>
          exact rounds.step _ stepped
      | _ => exact rounds
  | main =>
      simp only [State.step, State.mainRoutine] at taken
      split at taken
      · obtain ⟨timer, stepped, rfl⟩ := Option.map_eq_some_iff.mp taken
        exact rounds.step _ stepped
      · cases taken

/-- Every atomic step. -/
theorem step
    (bounded : Bounded config state)
    (event : Event n)
    (taken : state.step config event = some next) :
    Bounded config next where
  invariant := bounded.invariant.step event taken
  loading := by
    obtain ⟨count, loading⟩ := bounded.loading
    obtain ⟨count', loading', _⟩ := loading.step event taken
    exact ⟨count', loading'⟩
  rounds := rounds_step bounded.rounds event taken
  tallied := bounded.tallied.step bounded.invariant event taken
  paced := by
    have paced := bounded.paced
    obtain ⟨count, loading⟩ := bounded.loading
    cases event with
    | timer =>
        obtain ⟨timer, stepped, rfl⟩ := Option.map_eq_some_iff.mp taken
        exact paced.timer bounded.invariant bounded.rounds stepped
    | cpu id => exact paced.cpuStep bounded.invariant (cpuStep_of_cpuRoutine taken)
    | loader => exact paced.ldStep loading (ldStep_of_ldRoutine taken)
    | main =>
        simp only [State.step, State.mainRoutine] at taken
        split at taken
        · cases taken
          exact
            { loader := paced.loader
              done := paced.done
              cpu := paced.cpu
              past := paced.past
              added := paced.added
              logged := paced.logged }
        · cases taken

/-- The invariants hold in every reachable state. -/
theorem run
    {permitted : State n → Event n → Prop}
    (run : Run (State.step config) permitted (Os.boot n) state) :
    Bounded config state :=
  run.invariant (Bounded config) (fun _ event _ bounded _ taken => bounded.step event taken)
    (boot config n)

/-- There are not more calls of `run` than instructions and empty processes. -/
theorem dispatches_le (bounded : Bounded config state) :
    state.history.dispatches.length ≤ maxRuns config := by
  have inRange : ∀ proc ∈ (state.history.dispatches : Multiset Nat),
      proc ∈ Finset.range config.numProcesses := by
    intro proc member
    obtain ⟨entry, logged, rfl⟩ := List.mem_map.mp (Multiset.mem_coe.mp member)
    exact Finset.mem_range.mpr
      (bounded.paced.logged entry (List.mem_of_mem_filter logged))
  rw [← Multiset.coe_card, ← Multiset.sum_count_eq_card inRange]
  exact Finset.sum_le_sum fun proc _ => by
    rw [Multiset.coe_count]
    exact bounded.tallied.runs proc

/-- The past slots are those of the loader and those of the calls of `run`. -/
theorem time_le (bounded : Bounded config state) :
    state.timer.time ≤ lastSlot config := by
  have covered : Finset.range state.timer.time ⊆
      Finset.range (loadEnd config + 1) ∪ state.history.busySlots.toFinset := by
    intro slot past
    rcases bounded.paced.past slot (Finset.mem_range.mp past) with busy | early
    · exact Finset.mem_union_right _ (List.mem_toFinset.mpr busy)
    · exact Finset.mem_union_left _ (Finset.mem_range.mpr (Nat.lt_succ_of_le early))
  calc state.timer.time
      = (Finset.range state.timer.time).card := (Finset.card_range _).symm
    _ ≤ (Finset.range (loadEnd config + 1) ∪ state.history.busySlots.toFinset).card :=
        Finset.card_le_card covered
    _ ≤ (Finset.range (loadEnd config + 1)).card + state.history.busySlots.toFinset.card :=
        Finset.card_union_le _ _
    _ ≤ loadEnd config + 1 + state.history.busySlots.length := by
        rw [Finset.card_range]
        exact Nat.add_le_add_left (List.toFinset_card_le _) _
    _ = loadEnd config + 1 + state.history.dispatches.length := by
        simp [History.busySlots, History.dispatches]
    _ ≤ lastSlot config := Nat.add_le_add_left bounded.dispatches_le _

end Bounded

end Os
end Ossim
