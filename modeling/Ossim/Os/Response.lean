import Ossim.Os.Slots
import Ossim.Os.Shutdown
import Mathlib.Order.Interval.Finset.Nat

/-!
# No slot is wasted while a process is ready

A CPU that calls `run` in no slot has found the ready queues empty in it.  Whatever
is queued at the end of the slot was put there later, by another CPU that cannot
have been idle, or by the loader in the same slot.  So while a process that was
loaded earlier is unfinished, `run` is called in every slot, and since there are not
more calls than instructions, every process finishes in bounded time.
-/

namespace Ossim
namespace Os

open Scheduler Transition

namespace State

/-- What is queued was put there neither by the CPU nor by the loader before the
slot. -/
def LaterOnly (state : State n) (id : Fin n) (slot : Nat) : Prop :=
  ∀ proc, state.Queued proc →
    state.history.enqueuedBy proc ≠ some id ∧
      (state.history.enqueuedBy proc = none → slot ≤ state.history.enqueuedAt proc)

/-- In the slot the CPU has run its process, or it has none and has found the queues
empty. -/
def Settled (state : State n) (id : Fin n) (slot : Nat) : Prop :=
  slot ∈ state.history.busySlots ∨
    ((state.cpu id).proc = none ∧ state.LaterOnly id slot)

/-- Where a CPU is through with its slot. -/
def Resting (state : State n) (id : Fin n) : Label → Prop
  | .exec => state.entered (.cpu id) ∈ state.history.busySlots
  | .nextSlot => state.Settled id (state.entered (.cpu id))
  | .waiting => ∀ slot, slot + 1 = state.entered (.cpu id) → state.Settled id slot
  | _ => True

end State

/-- Every past slot in which a process waited or ran has a call of `run`. -/
structure Conserving (config : Config) (state : State n) : Prop where
  resting : ∀ id, state.Resting id (state.cpu id).label
  /-- A process that only the loader has queued was queued when it was loaded. -/
  loaded : ∀ proc, state.stage proc ≠ .new → state.history.enqueuedBy proc = none →
    state.history.enqueuedAt proc = loadTime config.startTime proc
  busy : ∀ slot proc, slot < state.timer.time → state.stage proc = .added →
    loadTime config.startTime proc < slot → slot ∈ state.history.busySlots

section Frame

variable {config : Config} {state next : State n} {id : Fin n} {slot : Nat}

/-- Recording an action forgets no slot. -/
theorem History.mem_busySlots_record
    {history : History n}
    (busy : slot ∈ history.busySlots)
    (entry : Entry n) :
    slot ∈ (history.record entry).busySlots := by
  rw [busySlots, record, List.filter_cons]
  split
  · exact List.mem_cons_of_mem _ busy
  · exact busy

/-- No step of a CPU forgets a slot. -/
theorem CpuStep.mem_busySlots
    (step : CpuStep config state id next)
    (busy : slot ∈ state.history.busySlots) :
    slot ∈ next.history.busySlots := by
  cases step with
  | run | exec => exact History.mem_busySlots_record busy _
  | _ => exact busy

/-- What others put into the queues does not concern a CPU that is through. -/
theorem State.LaterOnly.arrivals
    (laterOnly : state.LaterOnly id slot)
    (arrivals : Arrivals state next fun proc =>
      next.history.enqueuedBy proc ≠ some id ∧
        (next.history.enqueuedBy proc = none → slot ≤ next.history.enqueuedAt proc)) :
    next.LaterOnly id slot := by
  intro proc queued
  rcases arrivals proc queued with ⟨old, sameAt, sameBy⟩ | arrived
  · rw [sameAt, sameBy]
    exact laterOnly proc old
  · exact arrived

theorem State.Settled.arrivals
    (settled : state.Settled id slot)
    (sameProc : (next.cpu id).proc = (state.cpu id).proc)
    (still : slot ∈ state.history.busySlots → slot ∈ next.history.busySlots)
    (arrivals : Arrivals state next fun proc =>
      next.history.enqueuedBy proc ≠ some id ∧
        (next.history.enqueuedBy proc = none → slot ≤ next.history.enqueuedAt proc)) :
    next.Settled id slot := by
  rcases settled with busy | ⟨nothing, laterOnly⟩
  · exact .inl (still busy)
  · exact .inr ⟨sameProc.trans nothing, laterOnly.arrivals arrivals⟩

/-- Steps of other threads leave a CPU resting. -/
theorem State.Resting.arrivals
    {label : Label}
    (resting : state.Resting id label)
    (sameCpu : next.cpu id = state.cpu id)
    (sameEntered : next.entered (.cpu id) = state.entered (.cpu id))
    (still : ∀ slot, slot ∈ state.history.busySlots → slot ∈ next.history.busySlots)
    (arrivals : ∀ slot, slot ≤ state.timer.time →
      Arrivals state next fun proc =>
        next.history.enqueuedBy proc ≠ some id ∧
          (next.history.enqueuedBy proc = none → slot ≤ next.history.enqueuedAt proc))
    (inTime : ∀ slot, label = .nextSlot ∧ slot = state.entered (.cpu id) ∨
      label = .waiting ∧ slot + 1 = state.entered (.cpu id) → slot ≤ state.timer.time) :
    next.Resting id label := by
  have sameProc : (next.cpu id).proc = (state.cpu id).proc := by rw [sameCpu]
  cases label
  case exec =>
    show next.entered (.cpu id) ∈ _
    rw [sameEntered]
    exact still _ resting
  case nextSlot =>
    show next.Settled id (next.entered (.cpu id))
    rw [sameEntered]
    exact State.Settled.arrivals resting sameProc (still _)
      (arrivals _ (inTime _ (.inl ⟨rfl, rfl⟩)))
  case waiting =>
    intro slot before
    rw [sameEntered] at before
    exact (resting slot before).arrivals sameProc (still _)
      (arrivals slot (inTime slot (.inr ⟨rfl, before⟩)))
  all_goals trivial

end Frame

namespace Conserving

variable {config : Config} {state next : State n} {id : Fin n}

theorem boot (config : Config) (n : Nat) : Conserving config (boot n) where
  resting := fun _ => trivial
  loaded := fun _ added => absurd rfl added
  busy := fun _ _ early => absurd early (Nat.not_lt_zero _)

/-- The slot that a CPU is through with is not behind the current one. -/
theorem slot_le
    (invariant : Invariant config state)
    (id : Fin n)
    (slot : Nat)
    (through : (state.cpu id).label = .nextSlot ∧ slot = state.entered (.cpu id) ∨
      (state.cpu id).label = .waiting ∧ slot + 1 = state.entered (.cpu id)) :
    slot ≤ state.timer.time := by
  rcases through with ⟨label, rfl⟩ | ⟨label, before⟩
  · exact (invariant.entered id (by rw [label]; rfl)).le
  · have waiting : (state.timer.device (.cpu id)).phase = .waiting := by
      rw [invariant.synchronized.phase, State.phaseOf, label]
      rfl
    have atMost := (invariant.synchronized.lockstep.waiting
      (invariant.synchronized.attached (.cpu id)) waiting).2.2
    have counted : state.entered (.cpu id) ≤ state.timer.time + 1 := atMost
    omega

/-- A CPU without a process that goes to `next_slot` has found the queues empty. -/
theorem settled_of_overlooked
    {slot : Nat}
    (overlooked : state.Overlooked id)
    (now : slot = state.entered (.cpu id))
    (nothing : (next.cpu id).proc = none)
    (sched : next.sched.mlqReadyQueue = state.sched.mlqReadyQueue)
    (history : next.history = state.history) :
    next.Settled id slot := by
  refine .inr ⟨nothing, fun proc queued => ?_⟩
  rw [State.Queued, sched] at queued
  rw [history]
  obtain ⟨notOwn, ifLoader⟩ := overlooked proc queued
  exact ⟨notOwn, fun isLoader => now.trans_le (ifLoader isLoader).ge⟩

/-- A CPU rests after its own step. -/
theorem resting_self
    (conserving : Conserving config state)
    (invariant : Invariant config state)
    (accounted : Accounted config state)
    (step : CpuStep config state id next) :
    next.Resting id (next.cpu id).label := by
  have resting := conserving.resting id
  have quiet := accounted.quiet id
  cases step with
  | move cpu sched moves =>
      have queues : sched.mlqReadyQueue = state.sched.mlqReadyQueue := moves.queues
      rw [State.setCpu_cpu_same]
      cases moves
      case testDone label =>
        rw [label] at quiet
        cases done : state.done with
        | true => trivial
        | false =>
            exact settled_of_overlooked quiet rfl (by simp [invariant.idle id label]) rfl rfl
      case recheckNull label nothing =>
        rw [label] at quiet
        cases done : state.done with
        | true => trivial
        | false => exact settled_of_overlooked (quiet nothing) rfl (by simp [nothing]) rfl rfl
      case updateWrite branch _ _ _ => cases branch <;> trivial
      case recheckProc =>
        rw [Cpu.dispatched_label]
        trivial
      all_goals trivial
  | putReady | free | waiting | detach =>
      rw [State.setCpu_cpu_same]
      trivial
  | getProc given result sched label fetch =>
      rw [State.setCpu_cpu_same, Cpu.fetched_label]
      cases result <;> cases given <;> trivial
  | run proc label holds =>
      have now := invariant.entered id (by rw [label]; rfl)
      have busy : state.entered (.cpu id) ∈
          (state.history.record ⟨.run, state.timer.time, proc, id⟩).busySlots := by
        rw [now]
        simp [History.busySlots, History.record]
      rw [State.setCpu_cpu_same]
      split
      · exact .inl busy
      · exact busy
  | exec proc label holds =>
      rw [label] at resting
      rw [State.setCpu_cpu_same]
      exact .inl (History.mem_busySlots_record resting _)
  | nextSlot timer label taken =>
      obtain ⟨_, rfl⟩ := Timer.State.nextSlotEnter_spec taken
      rw [label] at resting
      rw [State.setCpu_cpu_same]
      intro slot before
      have same : slot = state.entered (.cpu id) := by
        simpa [State.entered] using before
      subst same
      refine State.Settled.arrivals resting (by simp) (fun busy => busy) fun proc queued => ?_
      exact .inl ⟨queued, rfl, rfl⟩

/-- A step of a CPU. -/
theorem cpuStep
    (conserving : Conserving config state)
    (invariant : Invariant config state)
    (accounted : Accounted config state)
    (step : CpuStep config state id next) :
    Conserving config next where
  resting := by
    intro other
    by_cases same : other = id
    · subst same
      exact conserving.resting_self invariant accounted step
    · rw [step.cpu_other same]
      refine (conserving.resting other).arrivals (step.cpu_other same)
        (step.entered_other (by simpa using same)) (fun _ => step.mem_busySlots)
        (fun slot _ proc queued => ?_) (slot_le invariant other)
      refine (step.arrivals proc queued).imp_right fun isCpu => ?_
      simp [isCpu, Ne.symm same]
  loaded := by
    intro proc added isLoader
    cases step with
    | putReady put label holds =>
        by_cases same : proc = put
        · subst same
          simp [History.enqueue] at isLoader
        · simp only [History.enqueue, Function.update_of_ne same] at isLoader ⊢
          exact conserving.loaded proc added isLoader
    | free finished label holds =>
        refine conserving.loaded proc (fun isNew => ?_) isLoader
        have live := invariant.live (by rw [label]; rfl) holds
        by_cases same : proc = finished
        · subst same
          simp [live] at isNew
        · exact added (by simpa [same] using isNew)
    | move | getProc | run | exec | nextSlot | waiting | detach =>
        exact conserving.loaded proc added isLoader
  busy := by
    intro slot proc past added later
    rw [step.time] at past
    refine step.mem_busySlots (conserving.busy slot proc past ?_ later)
    cases step with
    | free finished label holds =>
        by_cases same : proc = finished
        · subst same
          simp at added
        · simpa [same] using added
    | _ => exact added

/-- A step of the loader. -/
theorem ldStep
    (conserving : Conserving config state)
    (invariant : Invariant config state)
    {count : Nat}
    (loading : Loading config state count)
    (step : LdStep config state next) :
    Conserving config next where
  resting := by
    intro id
    rw [step.cpu]
    refine (conserving.resting id).arrivals (congrFun step.cpu id) (step.entered_cpu id)
      (fun slot busy => ?_) (fun slot inTime proc queued => ?_) (slot_le invariant id)
    · cases step <;> exact busy
    · refine (step.arrivals proc queued).imp_right ?_
      rintro ⟨_, now, isLoader⟩
      exact ⟨by simp [isLoader], fun _ => by rw [now]; exact inTime⟩
  loaded := by
    intro proc added isLoader
    cases step with
    | addReady i label =>
        by_cases same : proc = i
        · subst same
          have now := loading.time (by rw [label]; rfl)
          have placed := loading.placed
          rw [label] at placed
          simp only [History.enqueue, Function.update_self]
          rw [← now]
          exact placed.2.2
        · simp only [History.enqueue, Function.update_of_ne same] at isLoader added ⊢
          exact conserving.loaded proc added isLoader
    | _ => exact conserving.loaded proc added isLoader
  busy := by
    intro slot proc past added later
    rw [step.time] at past
    cases step with
    | addReady i label =>
        by_cases same : proc = i
        · -- The process is added in the slot `loadTime i`, which is not past.
          subst same
          have now := loading.time (by rw [label]; rfl)
          have placed := loading.placed
          rw [label] at placed
          have slotNow := placed.2.2
          omega
        · exact conserving.busy slot proc past (by simpa [same] using added) later
    | _ => exact conserving.busy slot proc past added later

/-- A thread that has not detached waits at the end of the slot, any other has
stopped. -/
theorem stands_of_slot_end
    (invariant : Invariant config state)
    (rounds : Timer.Rounds state.timer)
    {timer : Timer.State (Device n)}
    (taken : state.timer.timerRoutine = some timer)
    (passes : timer.time ≠ state.timer.time)
    (id : Fin n) :
    (state.cpu id).label = .stopped ∨
      ((state.cpu id).label = .waiting ∧
        state.entered (.cpu id) = state.timer.time + 1) := by
  obtain ⟨_, _, finished⟩ := rounds.slot_ends taken passes
  have attached := invariant.synchronized.attached (.cpu id)
  have phase := invariant.synchronized.phase (.cpu id)
  by_cases detached : (state.timer.device (.cpu id)).phase = .detached
  · left
    rw [detached] at phase
    cases label : (state.cpu id).label <;> simp [State.phaseOf, label, Label.phase] at phase ⊢
  · right
    obtain ⟨waiting, counted⟩ := finished _ attached detached
    refine ⟨?_, counted⟩
    rw [waiting] at phase
    cases label : (state.cpu id).label <;> simp [State.phaseOf, label, Label.phase] at phase ⊢

/-- A slot in which an earlier process has been ready or running ends with a call of
`run` recorded. -/
theorem busy_of_slot_end
    (someCpu : 0 < n)
    (conserving : Conserving config state)
    (accounted : Accounted config state)
    (stands : ∀ id, (state.cpu id).label = .stopped ∨
      ((state.cpu id).label = .waiting ∧
        state.entered (.cpu id) = state.timer.time + 1))
    {proc : Nat}
    (added : state.stage proc = .added)
    (earlier : loadTime config.startTime proc < state.timer.time) :
    state.timer.time ∈ state.history.busySlots := by
  by_contra idle
  have stopped : ∀ id, (state.cpu id).label = .stopped → state.Queued proc →
      state.history.enqueuedBy proc ≠ some id ∧
        state.history.enqueuedBy proc ≠ none := by
    intro id label queued
    have quiet := accounted.quiet id
    rw [label] at quiet
    exact quiet.2 proc queued
  have waiting : ∀ id, (state.cpu id).label = .waiting ∧
        state.entered (.cpu id) = state.timer.time + 1 →
      (state.cpu id).proc = none ∧ state.LaterOnly id state.timer.time := by
    rintro id ⟨label, entered⟩
    have resting := conserving.resting id
    rw [label] at resting
    exact (resting _ entered.symm).resolve_left idle
  rcases accounted.kept proc added with ⟨id, holds⟩ | member
  · rcases stands id with label | stands
    · simp [State.held, Cpu.held, label, Label.owns] at holds
    · have nothing := (waiting id stands).1
      simp [State.held, Cpu.held, nothing] at holds
  · have queued : state.Queued proc := ⟨_, member⟩
    cases putBy : state.history.enqueuedBy proc with
    | some id =>
        rcases stands id with label | stands
        · exact (stopped id label queued).1 putBy
        · exact ((waiting id stands).2 proc queued).1 putBy
    | none =>
        rcases stands ⟨0, someCpu⟩ with label | stands
        · exact (stopped _ label queued).2 putBy
        · have notBefore := ((waiting _ stands).2 proc queued).2 putBy
          have slot := conserving.loaded proc (by simp [added]) putBy
          omega

/-- A step of the timer thread. -/
theorem timer
    (someCpu : 0 < n)
    (conserving : Conserving config state)
    (invariant : Invariant config state)
    (accounted : Accounted config state)
    (rounds : Timer.Rounds state.timer)
    {timer : Timer.State (Device n)}
    (taken : state.timer.step .timerRoutine = some timer) :
    Conserving config { state with timer := timer } := by
  obtain ⟨_, later, devices⟩ := Timer.State.timerRoutine_spec taken
  have entered : ∀ dev, State.entered { state with timer := timer } dev =
      state.entered dev := fun dev => (devices dev).2
  refine
    { resting := fun id => ?_
      loaded := conserving.loaded
      busy := fun slot proc past added earlier => ?_ }
  · exact (conserving.resting id).arrivals rfl (entered _) (fun _ busy => busy)
      (fun _ _ proc queued => .inl ⟨queued, rfl, rfl⟩) (slot_le invariant id)
  · by_cases before : slot < state.timer.time
    · exact conserving.busy slot proc before added earlier
    · have inTime : slot < timer.time := past
      have passes : timer.time ≠ state.timer.time := by omega
      have advanced := (rounds.slot_ends taken passes).1
      obtain rfl : slot = state.timer.time := by omega
      exact conserving.busy_of_slot_end someCpu accounted
        (stands_of_slot_end invariant rounds taken passes) added earlier

/-- Every atomic step that meets no full queue. -/
theorem step
    (someCpu : 0 < n)
    (conserving : Conserving config state)
    (bounded : Bounded config state)
    (accounted : Accounted config state)
    (event : Event n)
    (taken : state.step config event = some next) :
    Conserving config next := by
  cases event with
  | timer =>
      obtain ⟨timer, stepped, rfl⟩ := Option.map_eq_some_iff.mp taken
      exact conserving.timer someCpu bounded.invariant accounted bounded.rounds stepped
  | cpu id =>
      exact conserving.cpuStep bounded.invariant accounted (cpuStep_of_cpuRoutine taken)
  | loader =>
      obtain ⟨count, loading⟩ := bounded.loading
      exact conserving.ldStep bounded.invariant loading (ldStep_of_ldRoutine taken)
  | main =>
      simp only [State.step, State.mainRoutine] at taken
      split at taken
      · cases taken
        exact
          { resting := fun id => (conserving.resting id).arrivals rfl rfl
              (fun _ busy => busy) (fun _ _ proc queued => .inl ⟨queued, rfl, rfl⟩)
              (slot_le bounded.invariant id)
            loaded := conserving.loaded
            busy := conserving.busy }
      · cases taken

/-- In every run that meets no full queue. -/
theorem run
    (someCpu : 0 < n)
    (run : Run (State.step config) (HasRoom config) (Os.boot n) state) :
    Bounded config state ∧ Accounted config state ∧ Conserving config state :=
  run.invariant
    (fun state => Bounded config state ∧ Accounted config state ∧ Conserving config state)
    (fun _ event _ all room taken =>
      ⟨all.1.step event taken, all.2.1.step all.1.invariant event room taken,
        all.2.2.step someCpu all.1 all.2.1 event taken⟩)
    ⟨Bounded.boot config n, Accounted.boot config n, boot config n⟩

end Conserving

/-- Behind the slots that the whole workload needs, an unfinished process has not been
loaded before. -/
theorem Conserving.time_le
    {config : Config}
    {state : State n}
    (conserving : Conserving config state)
    (bounded : Bounded config state)
    {proc : Nat}
    (added : state.stage proc = .added) :
    state.timer.time ≤ loadTime config.startTime proc + 1 + maxRuns config := by
  have covered : Finset.Ico (loadTime config.startTime proc + 1) state.timer.time ⊆
      state.history.busySlots.toFinset := by
    intro slot between
    obtain ⟨later, past⟩ := Finset.mem_Ico.mp between
    exact List.mem_toFinset.mpr (conserving.busy slot proc past added later)
  have counted : state.timer.time - (loadTime config.startTime proc + 1) ≤
      maxRuns config := by
    calc state.timer.time - (loadTime config.startTime proc + 1)
        = (Finset.Ico (loadTime config.startTime proc + 1) state.timer.time).card :=
          (Nat.card_Ico _ _).symm
      _ ≤ state.history.busySlots.toFinset.card := Finset.card_le_card covered
      _ ≤ state.history.busySlots.length := List.toFinset_card_le _
      _ = state.history.dispatches.length := by
          simp [History.busySlots, History.dispatches]
      _ ≤ maxRuns config := bounded.dispatches_le
  omega

/-- The loader has added a process whose slot is past. -/
theorem not_new_of_late
    {config : Config}
    {state : State n}
    (accounted : Accounted config state)
    {count : Nat}
    (loading : Loading config state count)
    {proc : Nat}
    (configured : proc < config.numProcesses)
    (past : loadTime config.startTime proc < state.timer.time) :
    state.stage proc ≠ .new := by
  have called := loading.not_late configured past
  have placed := loading.placed
  have added := accounted.added proc
  cases label : state.loader with
  | head i | nextSlot i | waiting i =>
      rw [label] at placed added
      have counted := placed.2.1
      exact added (by simp only [LdLabel.handed]; omega) (by simp) (by simp)
  | addRunning i =>
      rw [label] at placed added
      have counted := placed.2.1
      exact added (by simp only [LdLabel.handed]; omega) (by simp; omega) (by simp)
  | addReady i =>
      -- The process that is being added is the one of the current slot.
      have now := loading.time (by rw [label]; rfl)
      rw [label] at placed added
      obtain ⟨_, counted, slot⟩ := placed
      have different : i ≠ proc := by
        rintro rfl
        omega
      exact added (by simp only [LdLabel.handed]; omega) (by simp) (by simpa using different)
  | detach | stopped =>
      rw [label] at added
      exact added (by simpa [LdLabel.handed] using configured) (by simp) (by simp)

/-- While a process that was loaded in an earlier slot is unfinished, some CPU calls
`run` in every slot: no interleaving leaves all CPUs idle in it. -/
theorem work_conserving
    (config : Config)
    (n : Nat)
    (someCpu : 0 < n)
    (state : State n)
    (run : Run (State.step config) (HasRoom config) (boot n) state)
    (proc slot : Nat)
    (unfinished : state.stage proc = .added)
    (loaded : loadTime config.startTime proc < slot)
    (past : slot < state.timer.time) :
    ∃ entry ∈ state.history.log, entry.action = .run ∧ entry.time = slot := by
  obtain ⟨_, _, conserving⟩ := Conserving.run someCpu run
  have busy := conserving.busy slot proc past unfinished loaded
  obtain ⟨entry, member, time⟩ := List.mem_map.mp busy
  obtain ⟨logged, isRun⟩ := List.mem_filter.mp member
  exact ⟨entry, logged, by simpa using isRun, time⟩

/-- No process starves: whatever the priorities and the schedule, `maxRuns config + 2`
slots after it was loaded a process has executed its last instruction. -/
theorem response_time
    (config : Config)
    (n : Nat)
    (someCpu : 0 < n)
    (state : State n)
    (run : Run (State.step config) (HasRoom config) (boot n) state)
    (proc : Nat)
    (configured : proc < config.numProcesses)
    (later : loadTime config.startTime proc + maxRuns config + 2 ≤ state.timer.time) :
    state.stage proc = .finished ∧ state.pc proc = config.codeSize proc := by
  obtain ⟨bounded, accounted, conserving⟩ := Conserving.run someCpu run
  suffices finished : state.stage proc = .finished from
    ⟨finished, accounted.complete proc finished⟩
  cases stage : state.stage proc with
  | finished => rfl
  | added =>
      have atMost := conserving.time_le bounded stage
      omega
  | new =>
      obtain ⟨count, loading⟩ := bounded.loading
      exact absurd stage (not_new_of_late accounted loading configured (by omega))

/-- Two processes of one instruction, four slots apart. -/
def sparseConfig : Config where
  toWorkload := Workload.uniform 0 1 zero_lt_maxPrio
  timeSlot := 1
  numProcesses := 2
  startTime := fun i => 4 * i

/-- A slot in which the only CPU finds nothing to run. -/
def idleSlot : List (Event 1) :=
  schedule [(.loader, 3), (.timer, 1), (.cpu (Fin.last 0), 5), (.timer, 6)]

/-- The first process is executed, and two slots pass. -/
def sparseSchedule : List (Event 1) :=
  schedule [(.loader, 4), (.cpu (Fin.last 0), 8), (.timer, 5), (.loader, 3), (.timer, 1),
    (.cpu (Fin.last 0), 9), (.timer, 6)] ++ idleSlot ++ idleSlot

theorem response_time_sparse :
    ∃ state, replay (State.step sparseConfig) (boot 1) sparseSchedule = some state ∧
      state.stage 0 = .finished ∧ state.pc 0 = 1 := by
  obtain ⟨state, reaches, time⟩ := exists_of_evaluated
    (show (replay (State.step sparseConfig) (boot 1) sparseSchedule).map
      (fun state => decide (state.timer.time = 4)) = some true by decide +kernel)
  refine ⟨state, reaches, ?_⟩
  exact response_time sparseConfig 1 (by decide) state
    (Run.of_replay sparseSchedule _ (by decide +kernel) reaches) 0 (by decide)
    (Nat.le_of_eq time.symm)

/-- One process of three instructions. -/
def longConfig : Config where
  toWorkload := Workload.uniform 0 3 zero_lt_maxPrio
  timeSlot := 3
  numProcesses := 1
  startTime := fun _ => 0

/-- The process runs in two slots. -/
def longSchedule : List (Event 1) :=
  schedule [(.loader, 4), (.cpu (Fin.last 0), 8), (.timer, 5), (.loader, 3), (.timer, 1),
    (.cpu (Fin.last 0), 6), (.timer, 5)]

theorem work_conserving_long :
    ∃ state, replay (State.step longConfig) (boot 1) longSchedule = some state ∧
      ∃ entry ∈ state.history.log, entry.action = .run ∧ entry.time = 1 := by
  obtain ⟨state, reaches, time, stage⟩ := exists_of_evaluated
    (show (replay (State.step longConfig) (boot 1) longSchedule).map
      (fun state => decide (state.timer.time = 2 ∧ state.stage 0 = .added)) = some true by
      decide +kernel)
  refine ⟨state, reaches, ?_⟩
  exact work_conserving longConfig 1 (by decide) state
    (Run.of_replay longSchedule _ (by decide +kernel) reaches) 0 1 stage (by decide)
    (by omega)

end Os
end Ossim
