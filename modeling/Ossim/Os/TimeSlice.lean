import Ossim.Os.Exclusive

/-!
# Time slices

`get_mlq_proc` serves a priority only while its slot is positive, but the CPU
reads the slot again with `get_slot`, and another CPU may have used it up in
between.  A dispatch grants between one slot and `time_slot` slots exactly when
`get_slot` still finds a positive slot.
-/

namespace Ossim
namespace Os

open Scheduler Transition

/-- The CPU is about to dispatch the process in `proc`. -/
def Cpu.Dispatching (cpu : Cpu) : Prop :=
  cpu.label = .recheck ∧ cpu.proc ≠ none ∧ cpu.timeLeft = 0

/-- Every dispatch grants a slice between one and `time_slot`, and no process
executes more than `time_slot` instructions between its dispatch and the end of
its time on the CPU: `use_time` is cleared by the dispatch and counts the calls
of `run`. -/
structure SliceGranted (config : Config) (state : State n) : Prop where
  dispatch : ∀ id, (state.cpu id).Dispatching →
    1 ≤ (state.cpu id).slice config.timeSlot ∧
      (state.cpu id).slice config.timeSlot ≤ config.timeSlot
  used : ∀ id, (state.cpu id).useTime ≤ config.timeSlot

/-- The priority whose slot a step reads in `get_slot`. -/
def State.asks (state : State n) : Event n → Option Nat
  | .cpu id =>
      match (state.cpu id).label with
      | .slotRead prio => some prio
      | _ => none
  | _ => none

/-- When the step reads a slot in `get_slot`, the slot is still positive. -/
def SlotLeft (state : State n) (event : Event n) : Prop :=
  ∀ prio ∈ state.asks event, 0 < state.sched.getSlot prio

instance (state : State n) (event : Event n) : Decidable (SlotLeft state event) :=
  inferInstanceAs (Decidable (∀ prio ∈ state.asks event, 0 < state.sched.getSlot prio))

/-- What a position says about the time that is left. -/
def Cpu.OnTime (cpu : Cpu) : Label → Prop
  | .putRunning | .putReady
  | .updatePrio .preempted | .updateRead .preempted _ | .updateWrite .preempted _ _
  | .getProc none | .getProc (some .preempted) => cpu.timeLeft = 0
  | .slotPrio | .slotRead _ => cpu.timeLeft = 0 ∧ cpu.proc ≠ none
  | .recheck => cpu.timeLeft = 0 → cpu.proc ≠ none → 1 ≤ cpu.remainingSlot
  | .run | .exec => 1 ≤ cpu.timeLeft
  | _ => True

/-- The slots used since the last dispatch and the slots left make up at most
`time_slot`. -/
structure Cpu.Budgeted (timeSlot : Int) (cpu : Cpu) : Prop where
  left : 0 ≤ cpu.timeLeft
  sum : cpu.useTime + cpu.timeLeft ≤ timeSlot
  vacant : cpu.proc = none → cpu.timeLeft = 0
  onTime : cpu.OnTime cpu.label

section Budgeted

variable {config : Config} {state next : State n} {id : Fin n} {cpu cpu' : Cpu}
  {timeSlot : Int}

/-- The slice is the smaller of `time_slot` and the slots of the priority. -/
theorem Cpu.slice_eq_min (timeSlot : Int) (cpu : Cpu) :
    cpu.slice timeSlot = min timeSlot cpu.remainingSlot := by
  unfold slice
  split <;> omega

/-- Nothing is left and nothing used at the start. -/
theorem Cpu.Budgeted.start (positive : 1 ≤ timeSlot) :
    Cpu.start.Budgeted timeSlot where
  left := Int.le_refl 0
  sum := by
    show (0 : Int) + 0 ≤ timeSlot
    omega
  vacant := fun _ => rfl
  onTime := trivial

/-- Moving to a position that asks for nothing new keeps the budget. -/
theorem Cpu.Budgeted.moved
    (budgeted : cpu.Budgeted timeSlot)
    {label : Label}
    (onTime : cpu.OnTime label) :
    (cpu.moved label).Budgeted timeSlot where
  left := budgeted.left
  sum := budgeted.sum
  vacant := budgeted.vacant
  onTime := by
    cases label
    case updatePrio branch | updateRead branch _ | updateWrite branch _ _ =>
      cases branch <;> exact onTime
    case getProc given =>
      cases given with
      | none => exact onTime
      | some branch => cases branch <;> exact onTime
    all_goals exact onTime

/-- A dispatch with a positive slot keeps the budget. -/
theorem Cpu.Budgeted.dispatched
    (budgeted : cpu.Budgeted timeSlot)
    (positive : 1 ≤ timeSlot)
    (label : cpu.label = .recheck)
    (occupied : cpu.proc ≠ none) :
    (cpu.dispatched timeSlot).Budgeted timeSlot := by
  unfold Cpu.dispatched
  split
  case isTrue expired =>
    have onTime := budgeted.onTime
    rw [label] at onTime
    have remaining := onTime expired occupied
    have slice := cpu.slice_eq_min timeSlot
    exact
      { left := by simp only; omega
        sum := by simp only; omega
        vacant := fun nothing => absurd nothing occupied
        onTime := by
          show 1 ≤ cpu.slice timeSlot
          omega }
  case isFalse unexpired =>
    refine budgeted.moved ?_
    have left := budgeted.left
    show 1 ≤ cpu.timeLeft
    omega

/-- A call of `run` moves one slot from the time left to the time used. -/
theorem Cpu.Budgeted.afterRun
    (budgeted : cpu.Budgeted timeSlot)
    (someLeft : 1 ≤ cpu.timeLeft)
    (occupied : cpu.proc ≠ none) :
    cpu.afterRun.Budgeted timeSlot where
  left := by
    show 0 ≤ cpu.timeLeft - 1
    omega
  sum := by
    have sum := budgeted.sum
    show cpu.useTime + 1 + (cpu.timeLeft - 1) ≤ timeSlot
    omega
  vacant := fun nothing => absurd nothing occupied
  onTime := trivial

/-- After `get_proc` no time is left. -/
theorem Cpu.Budgeted.fetched
    (budgeted : cpu.Budgeted timeSlot)
    (positive : 1 ≤ timeSlot)
    {given : Option Branch}
    (label : cpu.label = .getProc given)
    (result : Option Nat) :
    (cpu.fetched given result).Budgeted timeSlot := by
  have onTime := budgeted.onTime
  have sum := budgeted.sum
  rw [label] at onTime
  have nothingLeft : (cpu.fetched given result).timeLeft = 0 := by
    simp only [Cpu.fetched]
    split
    · rfl
    · rename_i notFinished
      match given with
      | none => exact onTime
      | some .preempted => exact onTime
      | some .finished => exact absurd rfl notFinished
  have used : (cpu.fetched given result).useTime ≤ timeSlot := by
    have left := budgeted.left
    simp only [Cpu.fetched]
    split <;> omega
  exact
    { left := by omega
      sum := by omega
      vacant := fun _ => nothingLeft
      onTime := by
        cases result with
        | some proc => exact ⟨nothingLeft, by simp⟩
        | none =>
            cases given with
            | none => trivial
            | some branch => exact fun _ notNull => absurd rfl notNull }

/-- With a positive slot in `get_slot` the steps in `Move` keep the budget. -/
theorem Move.budgeted
    (moves : Move config state cpu cpu' sched)
    (positive : 1 ≤ config.timeSlot)
    (budgeted : cpu.Budgeted config.timeSlot)
    (slotLeft : ∀ prio, cpu.label = .slotRead prio → 0 < state.sched.getSlot prio) :
    cpu'.Budgeted config.timeSlot := by
  have onTime := budgeted.onTime
  cases moves
  case loopIdle label nothing =>
    exact budgeted.moved (budgeted.vacant nothing)
  case loopFinished => exact budgeted.moved trivial
  case loopExpired expired => exact budgeted.moved expired
  case loopContinue unexpired =>
    exact budgeted.moved fun expired => absurd expired unexpired
  case putRunning label _ =>
    rw [label] at onTime
    exact budgeted.moved onTime
  case updatePrio branch proc label holds =>
    rw [label] at onTime
    cases branch <;> exact budgeted.moved onTime
  case updateRead branch prio label =>
    rw [label] at onTime
    cases branch <;> exact budgeted.moved onTime
  case updateWrite branch prio value label =>
    rw [label] at onTime
    cases branch <;> exact budgeted.moved onTime
  case testDone =>
    apply budgeted.moved
    split <;> trivial
  case slotPrio label _ =>
    rw [label] at onTime
    exact budgeted.moved onTime
  case slotRead prio label =>
    rw [label] at onTime
    exact
      { left := budgeted.left
        sum := budgeted.sum
        vacant := budgeted.vacant
        onTime := fun _ _ => slotLeft prio label }
  case recheckNull =>
    apply budgeted.moved
    split <;> trivial
  case recheckProc proc label holds =>
    exact budgeted.dispatched positive label (by simp [holds])

/-- With a positive slot in `get_slot` a CPU stays within its budget. -/
theorem CpuStep.budgeted
    (step : CpuStep config state id next)
    (positive : 1 ≤ config.timeSlot)
    (budgeted : (state.cpu id).Budgeted config.timeSlot)
    (slotLeft : SlotLeft state (.cpu id)) :
    (next.cpu id).Budgeted config.timeSlot := by
  have onTime := budgeted.onTime
  cases step with
  | move cpu sched moves =>
      rw [State.setCpu_cpu_same]
      refine moves.budgeted positive budgeted fun prio label => ?_
      exact slotLeft prio (by simp [State.asks, label])
  | putReady proc label holds =>
      rw [label] at onTime
      rw [State.setCpu_cpu_same]
      exact budgeted.moved onTime
  | free proc label holds =>
      rw [State.setCpu_cpu_same]
      exact budgeted.moved trivial
  | getProc given result sched label fetch =>
      rw [State.setCpu_cpu_same]
      exact budgeted.fetched positive label result
  | run proc label holds =>
      rw [label] at onTime
      rw [State.setCpu_cpu_same]
      split
      · exact budgeted.afterRun onTime (by simp [holds])
      · exact budgeted.moved onTime
  | exec proc label holds =>
      rw [label] at onTime
      rw [State.setCpu_cpu_same]
      exact budgeted.afterRun onTime (by simp [holds])
  | nextSlot | waiting | detach =>
      rw [State.setCpu_cpu_same]
      exact budgeted.moved trivial

/-- No step of another thread touches the budget of a CPU. -/
theorem State.step_cpu_other
    {event : Event n}
    (taken : state.step config event = some next)
    (other : ∀ id, event ≠ .cpu id) :
    next.cpu = state.cpu := by
  cases event with
  | cpu id => exact absurd rfl (other id)
  | loader => exact (ldStep_of_ldRoutine taken).cpu
  | timer =>
      obtain ⟨timer, _, rfl⟩ := Option.map_eq_some_iff.mp taken
      rfl
  | main =>
      simp only [State.step, State.mainRoutine] at taken
      split at taken
      · cases taken
        rfl
      · cases taken

/-- Every CPU stays within its budget as long as `get_slot` finds positive
slots. -/
theorem budgeted_step
    {event : Event n}
    (positive : 1 ≤ config.timeSlot)
    (budgeted : ∀ id, (state.cpu id).Budgeted config.timeSlot)
    (slotLeft : SlotLeft state event)
    (taken : state.step config event = some next)
    (id : Fin n) :
    (next.cpu id).Budgeted config.timeSlot := by
  by_cases own : event = .cpu id
  · subst own
    exact (cpuStep_of_cpuRoutine taken).budgeted positive (budgeted id) slotLeft
  · cases event with
    | cpu other =>
        have different : id ≠ other := fun same => own (by rw [same])
        rw [(cpuStep_of_cpuRoutine taken).cpu_other different]
        exact budgeted id
    | timer | loader | main =>
        rw [State.step_cpu_other taken nofun]
        exact budgeted id

/-- Within the budget every dispatch grants a real slice. -/
theorem sliceGranted_of_budgeted
    (positive : 1 ≤ config.timeSlot)
    (budgeted : ∀ id, (state.cpu id).Budgeted config.timeSlot) :
    SliceGranted config state where
  dispatch := by
    rintro id ⟨label, occupied, expired⟩
    have onTime := (budgeted id).onTime
    rw [label] at onTime
    have remaining := onTime expired occupied
    have slice := (state.cpu id).slice_eq_min config.timeSlot
    omega
  used := by
    intro id
    have left := (budgeted id).left
    have sum := (budgeted id).sum
    omega

/-- A `get_slot` that finds no slot leads to a dispatch without a slice. -/
theorem not_sliceGranted_of_exhausted
    {event : Event n}
    (budgeted : ∀ id, (state.cpu id).Budgeted config.timeSlot)
    (exhausted : ¬SlotLeft state event)
    (taken : state.step config event = some next) :
    ¬SliceGranted config next := by
  simp only [SlotLeft, not_forall] at exhausted
  obtain ⟨prio, asks, empty⟩ := exhausted
  cases event with
  | timer | loader | main => simp [State.asks] at asks
  | cpu id =>
      have label : (state.cpu id).label = .slotRead prio := by
        simp only [State.asks] at asks
        split at asks <;> simp_all
      have onTime := (budgeted id).onTime
      rw [label] at onTime
      simp only [State.step, State.cpuRoutine, label, Option.some.injEq] at taken
      subst taken
      intro granted
      have dispatch := granted.dispatch id
      simp only [State.setCpu_cpu_same, Cpu.slice_eq_min] at dispatch
      have least := (dispatch ⟨rfl, onTime.2, onTime.1⟩).1
      have remaining : ((state.cpu id).gotSlot
        (state.sched.getSlot prio)).remainingSlot ≤ 0 := not_lt.mp empty
      omega

end Budgeted

/-- Along every schedule, each dispatch grants between one and `time_slot`
slots exactly when each `get_slot` still finds a positive slot. -/
theorem sliceGranted_iff_slotLeft
    (config : Config)
    (positive : 1 ≤ config.timeSlot)
    (n : Nat)
    (events : List (Event n))
    (last : State n)
    (reaches : replay (State.step config) (boot n) events = some last) :
    HoldsAlong (State.step config) (SliceGranted config) (boot n) events ↔
      PermittedAlong (State.step config) SlotLeft (boot n) events := by
  have atStart : ∀ id, ((boot n).cpu id).Budgeted config.timeSlot :=
    fun _ => Cpu.Budgeted.start positive
  refine holdsAlong_iff_permittedAlong
    (fun state => ∀ id, (state.cpu id).Budgeted config.timeSlot) ?_ events (boot n)
    atStart (sliceGranted_of_budgeted positive atStart) reaches
  intro state event next budgeted _ taken
  refine ⟨fun slotLeft => budgeted_step positive budgeted slotLeft taken, ?_⟩
  constructor
  · intro granted
    by_contra exhausted
    exact not_sliceGranted_of_exhausted budgeted exhausted taken granted
  · intro slotLeft
    exact sliceGranted_of_budgeted positive
      (budgeted_step positive budgeted slotLeft taken)

set_option maxRecDepth 20000 in
theorem sliceGranted_iff_slotLeft_handover :
    HoldsAlong (State.step handoverConfig) (SliceGranted handoverConfig) (boot 2)
      handoverSchedule := by
  obtain ⟨last, reaches⟩ : ∃ last,
      replay (State.step handoverConfig) (boot 2) handoverSchedule = some last :=
    ⟨_, rfl⟩
  exact (sliceGranted_iff_slotLeft handoverConfig (by decide) 2 handoverSchedule last
    reaches).mpr (by decide +kernel)

/-! ## What uses the slot up -/

/-- The priority whose slot a CPU has seen in `get_proc` and is about to read
again. -/
def Cpu.awaits (config : Config) (cpu : Cpu) : Option Nat :=
  match cpu.label with
  | .slotPrio => cpu.proc.map config.prio
  | .slotRead prio => some prio
  | _ => none

/-- The step is not an `update_slot` that uses up the slot of a priority while
another CPU stands between `get_proc` and `get_slot` with that priority. -/
def NotExhausting (config : Config) (state : State n) : Event n → Prop
  | .cpu id =>
      ∀ branch prio value, (state.cpu id).label = .updateWrite branch prio value →
        value ≤ 0 → ∀ other, (state.cpu other).awaits config ≠ some prio
  | _ => True

/-- The slots that the CPUs are about to read are positive. -/
def SlotsLeft (config : Config) (state : State n) : Prop :=
  ∀ id prio, (state.cpu id).awaits config = some prio →
    prio < maxPrio ∧ 0 < state.sched.getSlot prio

section Exhausting

variable {config : Config} {state next : State n} {id : Fin n}

/-- A step that exhausts no awaited slot leaves the awaited slots positive. -/
theorem CpuStep.slotsLeft_other
    (step : CpuStep config state id next)
    (notExhausting : NotExhausting config state (.cpu id))
    (slotsLeft : SlotsLeft config state)
    (other : Fin n)
    (prio : Nat)
    (awaits : (state.cpu other).awaits config = some prio) :
    prio < maxPrio ∧ 0 < next.sched.getSlot prio := by
  have before := slotsLeft other prio awaits
  cases step with
  | move cpu sched moves =>
      cases moves
      case updateWrite branch updated value label =>
        refine ⟨before.1, ?_⟩
        by_cases same : prio = updated
        · subst same
          by_contra exhausted
          refine notExhausting branch prio value label ?_ other awaits
          simpa [Sched.getSlot, Sched.writeSlot] using exhausted
        · simpa [Sched.getSlot, Sched.writeSlot, same] using before.2
      all_goals exact before
  | getProc given result sched label fetch =>
      refine ⟨before.1, ?_⟩
      cases fetch with
      | idle nothing => exact before.2
      | served level proc rest _ inRange head tail others running positive slots =>
          rcases slots with unchanged | full
          · simpa [Sched.getSlot, unchanged] using before.2
          · have inRange := before.1
            simp only [Sched.getSlot, full, Sched.fullSlot]
            omega
  | _ => exact before

/-- The slot that a CPU has seen in `get_proc` is positive when it gets there. -/
theorem CpuStep.slotsLeft_self
    (step : CpuStep config state id next)
    (invariant : Invariant config state)
    (slotsLeft : SlotsLeft config state)
    (prio : Nat)
    (awaits : (next.cpu id).awaits config = some prio) :
    prio < maxPrio ∧ 0 < next.sched.getSlot prio := by
  have before := slotsLeft id prio
  cases step with
  | move cpu sched moves =>
      rw [State.setCpu_cpu_same] at awaits
      cases moves
      case slotPrio proc label holds =>
        exact before (by simpa [Cpu.awaits, label, holds] using awaits)
      case updateWrite branch _ _ _ =>
        cases branch <;> simp [Cpu.awaits, Branch.afterUpdate] at awaits
      case testDone | recheckNull =>
        cases done : state.done <;> simp [Cpu.awaits, done] at awaits
      all_goals simp [Cpu.awaits] at awaits
  | getProc given result sched label fetch =>
      rw [State.setCpu_cpu_same] at awaits
      cases fetch with
      | idle nothing =>
          cases given <;> simp [Cpu.awaits, afterGetProc] at awaits
      | served level proc rest _ inRange head tail others running positive slots =>
          have own := invariant.placed.ownLevel proc level (by simp [head])
          have here : config.prio proc = prio := by
            simpa [Cpu.awaits, afterGetProc] using awaits
          rw [← here, ← own]
          exact ⟨inRange, positive⟩
  | run proc label holds =>
      rw [State.setCpu_cpu_same] at awaits
      split at awaits <;> simp [Cpu.awaits] at awaits
  | putReady | free | exec | nextSlot | waiting | detach =>
      rw [State.setCpu_cpu_same] at awaits
      simp [Cpu.awaits] at awaits

/-- Only the CPUs write slots. -/
theorem slotsLeft_step
    {event : Event n}
    (invariant : Invariant config state)
    (notExhausting : NotExhausting config state event)
    (slotsLeft : SlotsLeft config state)
    (taken : state.step config event = some next) :
    SlotsLeft config next := by
  intro id prio awaits
  cases event with
  | cpu stepping =>
      have step := cpuStep_of_cpuRoutine taken
      by_cases same : id = stepping
      · subst same
        exact step.slotsLeft_self invariant slotsLeft prio awaits
      · rw [step.cpu_other same] at awaits
        exact step.slotsLeft_other notExhausting slotsLeft id prio awaits
  | loader =>
      have step := ldStep_of_ldRoutine taken
      rw [step.cpu] at awaits
      have before := slotsLeft id prio awaits
      cases step <;> exact before
  | timer =>
      obtain ⟨timer, _, rfl⟩ := Option.map_eq_some_iff.mp taken
      exact slotsLeft id prio awaits
  | main =>
      simp only [State.step, State.mainRoutine] at taken
      split at taken
      · cases taken
        exact slotsLeft id prio awaits
      · cases taken

end Exhausting

/-- Every dispatch grants a real slice if no `update_slot` uses up a slot
between the `get_proc` and the `get_slot` of another CPU. -/
theorem sliceGranted_of_notExhausting
    (config : Config)
    (positive : 1 ≤ config.timeSlot)
    (n : Nat)
    (events : List (Event n))
    (notExhausting :
      PermittedAlong (State.step config) (NotExhausting config) (boot n) events) :
    HoldsAlong (State.step config) (SliceGranted config) (boot n) events := by
  refine PermittedAlong.holdsAlong
    (fun state => Invariant config state ∧ SlotsLeft config state ∧
      ∀ id, (state.cpu id).Budgeted config.timeSlot)
    (fun state valid => sliceGranted_of_budgeted positive valid.2.2) ?_ events (boot n)
    ⟨Invariant.boot config n, fun _ _ => nofun, fun _ => Cpu.Budgeted.start positive⟩
    notExhausting
  rintro state event next ⟨invariant, slotsLeft, budgeted⟩ allowed taken
  refine ⟨invariant.step event taken,
    slotsLeft_step invariant allowed slotsLeft taken,
    budgeted_step positive budgeted (fun prio asks => ?_) taken⟩
  cases event with
  | timer | loader | main => cases asks
  | cpu id =>
      refine (slotsLeft id prio ?_).2
      simp only [State.asks] at asks
      split at asks <;> simp_all [Cpu.awaits]

/-! ## Two CPUs at an exhausted priority -/

/-- Positions in the middle of `put_proc` and of `update_slot`. -/
def Label.inside : Label → Bool
  | .putReady | .updateWrite _ _ _ => true
  | _ => false

/-- No step interrupts the `put_proc` or the `update_slot` of another CPU, so
that these are atomic, as `get_proc` and `get_slot` are anyway. -/
def Coarse (state : State n) (event : Event n) : Prop :=
  ∀ id, (state.cpu id).label.inside = true → event = .cpu id

instance (state : State n) (event : Event n) : Decidable (Coarse state event) :=
  inferInstanceAs (Decidable (∀ id, (state.cpu id).label.inside = true → event = .cpu id))

/-- Two processes of the lowest priority, which has a single slot. -/
def lowestConfig : Config where
  toWorkload := Workload.uniform 139 10 (by decide)
  timeSlot := 1
  numProcesses := 2
  startTime := fun _ => 0

/-- In the third slot the first CPU puts its process back, uses up the slot of
the priority and fetches the process again, which resets the slots; before it
calls `get_slot`, the second CPU puts its process back and uses up the slot. -/
def exhaustingSchedule : List (Event 2) :=
  List.replicate 4 .loader ++ List.replicate 8 firstCpu ++
    List.replicate 4 secondCpu ++ List.replicate 9 .timer ++
    List.replicate 5 .loader ++ List.replicate 9 secondCpu ++
    List.replicate 14 firstCpu ++ List.replicate 9 .timer ++
    List.replicate 8 firstCpu ++ List.replicate 7 secondCpu ++
    List.replicate 2 firstCpu

set_option maxRecDepth 20000 in
/-- The process is about to be dispatched with a slice of zero slots. -/
theorem slice_of_exhausted_priority :
    PermittedAlong (State.step lowestConfig) Coarse (boot 2) exhaustingSchedule ∧
      ∃ last, replay (State.step lowestConfig) (boot 2) exhaustingSchedule = some last ∧
        ¬SliceGranted lowestConfig last := by
  refine ⟨by decide +kernel, ?_⟩
  obtain ⟨last, reaches, label, occupied, expired, remaining⟩ :
      ∃ last, replay (State.step lowestConfig) (boot 2) exhaustingSchedule = some last ∧
        (last.cpu 0).label = .recheck ∧ (last.cpu 0).proc = some 0 ∧
        (last.cpu 0).timeLeft = 0 ∧ (last.cpu 0).remainingSlot = 0 :=
    ⟨_, rfl, rfl, rfl, rfl, rfl⟩
  refine ⟨last, reaches, fun granted => ?_⟩
  have dispatch := granted.dispatch 0 ⟨label, by simp [occupied], expired⟩
  rw [Cpu.slice_eq_min, remaining] at dispatch
  omega

end Os
end Ossim
