import Ossim.Os.Clock

/-!
# The slots in which processes are loaded

`ld_routine` reads the time without a lock, but only while it works in the
current slot, and then the number of slots that have passed is the number of its
own calls of `next_slot`.  Its position therefore bounds the time from both sides,
and it calls `add_proc` for every process in the first slot that is neither before
the start time nor in the slot of an earlier process.
-/

namespace Ossim
namespace Os

open Scheduler Transition

/-- The slot in which process `i` is loaded. -/
def loadTime (startTime : Nat → Nat) : Nat → Nat
  | 0 => startTime 0
  | i + 1 => max (startTime (i + 1)) (loadTime startTime i + 1)

/-- The first slot in which the loader can be ready for process `i`. -/
def readyTime (startTime : Nat → Nat) : Nat → Nat
  | 0 => 0
  | i + 1 => loadTime startTime i + 1

/-- The call of `add_proc` that an event begins, with its process and slot. -/
def addCall (state : State n) : Event n → List (Nat × Nat)
  | .loader =>
      match state.loader with
      | .addRunning i => [(i, state.timer.time)]
      | _ => []
  | _ => []

/-- The calls of `add_proc` along a schedule, the first one first. -/
def addCalls (config : Config) : State n → List (Event n) → List (Nat × Nat)
  | _, [] => []
  | state, event :: events =>
      match state.step config event with
      | none => []
      | some next => addCall state event ++ addCalls config next events

/-- The calls that load the first processes on time. -/
def callsOnTime (startTime : Nat → Nat) (count : Nat) : List (Nat × Nat) :=
  (List.range count).map fun i => (i, loadTime startTime i)

/-- What the position of the loader says about the number of its calls of `next_slot`
and of `add_proc`. -/
def InSlot (config : Config) (entered count : Nat) : LdLabel → Prop
  | .head i | .waiting i =>
      i ≤ config.numProcesses ∧ count = i ∧
        readyTime config.startTime i ≤ entered ∧ entered ≤ loadTime config.startTime i
  | .addRunning i =>
      i < config.numProcesses ∧ count = i ∧ entered = loadTime config.startTime i
  | .addReady i =>
      i < config.numProcesses ∧ count = i + 1 ∧ entered = loadTime config.startTime i
  | .nextSlot i =>
      i ≤ config.numProcesses ∧ count = i ∧
        readyTime config.startTime i ≤ entered + 1 ∧
        entered + 1 ≤ loadTime config.startTime i
  | .detach | .stopped => count = config.numProcesses

/-- The threads are synchronized, and the calls of `add_proc` so far were on time. -/
structure Loading (config : Config) (state : State n) (count : Nat) : Prop where
  synchronized : Synchronized state
  placed : InSlot config (state.entered .loader) count state.loader
  done : state.done = true → state.loader = .detach ∨ state.loader = .stopped

section LoadTime

variable (startTime : Nat → Nat)

theorem loadTime_eq (i : Nat) :
    loadTime startTime i = max (startTime i) (readyTime startTime i) := by
  cases i with
  | zero => simp [loadTime, readyTime]
  | succ i => rfl

/-- Two processes are never loaded in one slot. -/
theorem loadTime_lt_succ (i : Nat) :
    loadTime startTime i < loadTime startTime (i + 1) := by
  rw [loadTime]
  omega

/-- Later processes are loaded later. -/
theorem loadTime_le
    {i j : Nat}
    (ordered : i ≤ j) :
    loadTime startTime i ≤ loadTime startTime j := by
  induction ordered with
  | refl => exact Nat.le_refl _
  | step _ inductionHypothesis =>
      exact Nat.le_trans inductionHypothesis (Nat.le_of_lt (loadTime_lt_succ startTime _))

theorem callsOnTime_succ (count : Nat) :
    callsOnTime startTime (count + 1) =
      callsOnTime startTime count ++ [(count, loadTime startTime count)] := by
  rw [callsOnTime, List.range_succ, List.map_append]
  rfl

end LoadTime

namespace Loading

variable {config : Config} {state next : State n} {count : Nat}

theorem boot (config : Config) (n : Nat) :
    Loading config (Os.boot n) 0 where
  synchronized := Synchronized.boot n
  placed := by
    have start : (Os.boot n).entered .loader = 0 := by
      rw [(Synchronized.boot n).entered_of_working rfl]
      rfl
    rw [start]
    exact ⟨Nat.zero_le _, rfl, Nat.le_refl _, Nat.zero_le _⟩
  done := nofun

/-- Steps of other threads do not move the loader. -/
theorem others
    (loading : Loading config state count)
    (synchronized : Synchronized next)
    (loader : next.loader = state.loader)
    (entered : next.entered .loader = state.entered .loader)
    (done : next.done = state.done) :
    Loading config next count where
  synchronized := synchronized
  placed := by
    rw [loader, entered]
    exact loading.placed
  done := by
    rw [loader, done]
    exact loading.done

/-- The slot of a loader that is not inside `next_slot`. -/
theorem time
    (loading : Loading config state count)
    (working : state.loader.phase = .working) :
    state.entered .loader = state.timer.time :=
  loading.synchronized.entered_of_working working

/-- The loader leaves its loop before it sets `done`. -/
theorem done_ldStep
    (loading : Loading config state count)
    (step : LdStep config state next) :
    next.done = true → next.loader = .detach ∨ next.loader = .stopped := by
  intro done
  cases step with
  | finish i label all => exact .inl rfl
  | detach timer label taken => exact .inr rfl
  | early i label | arrive i label | addRunning i label | addReady i label
  | nextSlot i timer label | waiting i timer label =>
      have left := loading.done done
      simp [label] at left

/-- A step of the loader: it begins the call for process `count`, in its slot, or
begins none. -/
theorem ldStep
    (loading : Loading config state count)
    (step : LdStep config state next) :
    ∃ count', Loading config next count' ∧
      callsOnTime config.startTime count' =
        callsOnTime config.startTime count ++ addCall state .loader := by
  have synchronized := loading.synchronized.ldStep step
  have placed := loading.placed
  have done := loading.done_ldStep step
  cases step with
  | finish i label all =>
      rw [label] at placed
      obtain ⟨bounded, counted, _⟩ := placed
      have last : count = config.numProcesses := by omega
      exact ⟨count, ⟨synchronized, last, done⟩, by simp [addCall, label]⟩
  | early i label some early =>
      rw [← loading.time (by rw [label]; rfl)] at early
      rw [label] at placed
      obtain ⟨bounded, counted, ready, _⟩ := placed
      have due := loadTime_eq config.startTime i
      have next : InSlot config (state.entered .loader) count (.nextSlot i) :=
        ⟨bounded, counted, by omega, by omega⟩
      exact ⟨count, ⟨synchronized, next, done⟩, by simp [addCall, label]⟩
  | arrive i label some due =>
      rw [← loading.time (by rw [label]; rfl)] at due
      rw [label] at placed
      obtain ⟨_, counted, ready, inTime⟩ := placed
      have exactly := loadTime_eq config.startTime i
      have next : InSlot config (state.entered .loader) count (.addRunning i) :=
        ⟨some, counted, by omega⟩
      exact ⟨count, ⟨synchronized, next, done⟩, by simp [addCall, label]⟩
  | addRunning i label =>
      have now := loading.time (by rw [label]; rfl)
      rw [label] at placed
      obtain ⟨bounded, rfl, slot⟩ := placed
      have next : InSlot config (state.entered .loader) (count + 1) (.addReady count) :=
        ⟨bounded, rfl, slot⟩
      refine ⟨count + 1, ⟨synchronized, next, done⟩, ?_⟩
      rw [callsOnTime_succ, ← slot, now]
      simp [addCall, label]
  | addReady i label =>
      rw [label] at placed
      obtain ⟨bounded, rfl, slot⟩ := placed
      have later := loadTime_lt_succ config.startTime i
      have next : InSlot config (state.entered .loader) (i + 1) (.nextSlot (i + 1)) :=
        ⟨bounded, rfl, by rw [slot]; exact Nat.le_refl _, by omega⟩
      exact ⟨i + 1, ⟨synchronized, next, done⟩, by simp [addCall, label]⟩
  | nextSlot i timer label taken =>
      rw [label] at placed
      obtain ⟨bounded, counted, ready, inTime⟩ := placed
      obtain ⟨_, changed⟩ := Timer.State.nextSlotEnter_spec taken
      have entered : (timer.device .loader).entered = state.entered .loader + 1 := by
        rw [changed]
        simp [State.entered]
      have next : InSlot config ((timer.device .loader).entered) count (.waiting i) := by
        rw [entered]
        exact ⟨bounded, counted, ready, inTime⟩
      exact ⟨count, ⟨synchronized, next, done⟩, by simp [addCall, label]⟩
  | waiting i timer label taken =>
      rw [label] at placed
      have entered : (timer.device .loader).entered = state.entered .loader := by
        rw [Timer.State.nextSlotReturn_spec taken]
        simp [State.entered]
      have next : InSlot config ((timer.device .loader).entered) count (.head i) := by
        rw [entered]
        exact placed
      exact ⟨count, ⟨synchronized, next, done⟩, by simp [addCall, label]⟩
  | detach timer label taken =>
      rw [label] at placed
      exact ⟨count, ⟨synchronized, placed, done⟩, by simp [addCall, label]⟩

/-- A step of any thread. -/
theorem step
    (loading : Loading config state count)
    (event : Event n)
    (taken : state.step config event = some next) :
    ∃ count', Loading config next count' ∧
      callsOnTime config.startTime count' =
        callsOnTime config.startTime count ++ addCall state event := by
  cases event with
  | timer =>
      obtain ⟨timer, stepped, rfl⟩ := Option.map_eq_some_iff.mp taken
      obtain ⟨_, _, devices⟩ := Timer.State.timerRoutine_spec stepped
      exact ⟨count, loading.others (loading.synchronized.timer stepped) rfl (devices _).2 rfl,
        by simp [addCall]⟩
  | cpu id =>
      have step := cpuStep_of_cpuRoutine taken
      exact ⟨count, loading.others (loading.synchronized.cpuStep step) step.loader
        (step.entered_other nofun) step.done, by simp [addCall]⟩
  | loader => exact loading.ldStep (ldStep_of_ldRoutine taken)
  | main =>
      have synchronized := loading.synchronized.mainRoutine taken
      simp only [State.step, State.mainRoutine] at taken
      split at taken
      · cases taken
        exact ⟨count, loading.others synchronized rfl rfl rfl, by simp [addCall]⟩
      · cases taken

/-- A whole schedule. -/
theorem run
    {events : List (Event n)}
    {last : State n}
    (loading : Loading config state count)
    (reaches : replay (State.step config) state events = some last) :
    ∃ count', Loading config last count' ∧
      callsOnTime config.startTime count' =
        callsOnTime config.startTime count ++ addCalls config state events := by
  induction events generalizing state count with
  | nil =>
      simp only [replay, Option.some.injEq] at reaches
      subst reaches
      exact ⟨count, loading, by simp [addCalls]⟩
  | cons event events inductionHypothesis =>
      cases taken : state.step config event with
      | none => simp [replay, taken] at reaches
      | some next =>
          simp only [replay, taken] at reaches
          obtain ⟨middle, loading', first⟩ := loading.step event taken
          obtain ⟨final, loaded, rest⟩ := inductionHypothesis loading' reaches
          refine ⟨final, loaded, ?_⟩
          rw [rest, first, addCalls, taken, List.append_assoc]

/-- No call is late: the loader is never behind the slot of the next process. -/
theorem not_late
    (loading : Loading config state count)
    {i : Nat}
    (some : i < config.numProcesses)
    (past : loadTime config.startTime i < state.timer.time) :
    i < count := by
  have placed := loading.placed
  by_contra notYet
  have monotone := loadTime_le config.startTime (Nat.not_lt.mp notYet)
  cases label : state.loader with
  | waiting j =>
      rw [label] at placed
      obtain ⟨_, rfl, _, inTime⟩ := placed
      have phase := (loading.synchronized.phase .loader).trans
        (show state.phaseOf .loader = .waiting by simp [State.phaseOf, label, LdLabel.phase])
      have ahead := (loading.synchronized.lockstep.waiting
        (loading.synchronized.attached .loader) phase).2.1
      have entered : (state.timer.device .loader).entered = state.entered .loader := rfl
      omega
  | detach =>
      rw [label] at placed
      have all : count = config.numProcesses := placed
      omega
  | stopped =>
      rw [label] at placed
      have all : count = config.numProcesses := placed
      omega
  | head j =>
      have now := loading.time (by rw [label]; rfl)
      rw [label] at placed
      obtain ⟨_, rfl, _, inTime⟩ := placed
      omega
  | addRunning j =>
      have now := loading.time (by rw [label]; rfl)
      rw [label] at placed
      obtain ⟨_, rfl, slot⟩ := placed
      omega
  | addReady j =>
      have now := loading.time (by rw [label]; rfl)
      rw [label] at placed
      obtain ⟨_, rfl, slot⟩ := placed
      have later := loadTime_lt_succ config.startTime j
      omega
  | nextSlot j =>
      have now := loading.time (by rw [label]; rfl)
      rw [label] at placed
      obtain ⟨_, rfl, _, inTime⟩ := placed
      omega

end Loading

/-- In every interleaving of any number of CPUs with the loader and the timer,
`add_proc` is called for the processes in the order of the configuration, for
process `i` in the slot `loadTime i`, in which the whole call takes place; no slot
passes without its call, and `done` is not set before all calls. -/
theorem processes_added_on_time
    (config : Config)
    (n : Nat)
    (events : List (Event n))
    (state : State n)
    (reaches : replay (State.step config) (boot n) events = some state) :
    ∃ count, count ≤ config.numProcesses ∧
      addCalls config (boot n) events = callsOnTime config.startTime count ∧
      (∀ i, i < config.numProcesses → loadTime config.startTime i < state.timer.time →
        i < count) ∧
      (∀ i, state.loader = .addRunning i ∨ state.loader = .addReady i →
        state.timer.time = loadTime config.startTime i) ∧
      (state.done = true → count = config.numProcesses) := by
  obtain ⟨count, loading, calls⟩ := (Loading.boot config n).run reaches
  have placed := loading.placed
  refine ⟨count, ?_, ?_, fun i some past => loading.not_late some past, ?_, ?_⟩
  · cases label : state.loader <;> rw [label] at placed
    case detach | stopped => exact Nat.le_of_eq placed
    case addReady => exact placed.2.1 ▸ placed.1
    case addRunning => exact placed.2.1 ▸ Nat.le_of_lt placed.1
    all_goals exact placed.2.1 ▸ placed.1
  · rw [calls]
    rfl
  · rintro i (label | label)
    · rw [← loading.time (by rw [label]; rfl)]
      rw [label] at placed
      exact placed.2.2
    · rw [← loading.time (by rw [label]; rfl)]
      rw [label] at placed
      exact placed.2.2
  · intro done
    rcases loading.done done with label | label <;> rwa [label] at placed

/-- Two processes, the first of which arrives later. -/
def unsortedConfig : Config where
  toWorkload := Workload.uniform 0 1 zero_lt_maxPrio
  timeSlot := 1
  numProcesses := 2
  startTime := fun i => if i = 0 then 1 else 0

/-- A whole simulation with one CPU.  The loader waits for the slot 1, one more after the
first process, and one after the second. -/
def unsortedSchedule : List (Event 1) :=
  schedule [(.loader, 2), (.cpu 0, 4), (.timer, 8), (.loader, 5), (.cpu 0, 9), (.timer, 7),
    (.loader, 5), (.cpu 0, 13), (.timer, 7), (.loader, 3), (.cpu 0, 9), (.timer, 3)]

theorem processes_added_on_time_unsorted :
    addCalls unsortedConfig (boot 1) unsortedSchedule = [(0, 1), (1, 2)] := by
  obtain ⟨state, reaches, done⟩ :
      ∃ state, replay (State.step unsortedConfig) (boot 1) unsortedSchedule = some state ∧
        state.done = true :=
    exists_of_evaluated (by decide +kernel)
  obtain ⟨count, _, calls, _, _, all⟩ :=
    processes_added_on_time unsortedConfig 1 unsortedSchedule state reaches
  rw [calls, all done]
  rfl

end Os
end Ossim
