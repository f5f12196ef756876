import Ossim.Os.TimeSlice

/-!
# Slot accounting on one CPU

A CPU keeps the time units of its process in `use_time` and subtracts them from
the slot of the priority when it gives the process up.  With one CPU no unit is
subtracted twice, too late for a reset, or not at all: the slots are the full ones
less the units used since the last reset, up to what the CPU still owes, and at
each call of `get_mlq_proc` it owes nothing.
-/

namespace Ossim
namespace Os

open Scheduler Transition

namespace Accounting

/-- The threads with one CPU, and the time units that processes of a priority have
used since the last `reset_slot`. -/
structure State where
  os : Os.State 1
  used : Nat → Nat

/-- The units after a step: a call of `run` uses one, and `reset_slot` starts
again. -/
def charge (config : Config) (os : Os.State 1) (used : Nat → Nat) : Event 1 → Nat → Nat
  | .cpu id =>
      match (os.cpu id).label with
      | .getProc _ => if os.sched.resets then fun _ => 0 else used
      | .run =>
          (os.cpu id).proc.elim used fun proc =>
            Function.update used (config.prio proc) (used (config.prio proc) + 1)
      | _ => used
  | _ => used

/-- A step of a thread, with the units. -/
def step (config : Config) (state : State) (event : Event 1) : Option State :=
  (state.os.step config event).map fun os =>
    ⟨os, charge config state.os state.used event⟩

/-- The state in which `main` has created the threads. -/
def boot : State := ⟨Os.boot 1, fun _ => 0⟩

/-- Units of the process in `proc` that `update_slot` has not subtracted yet. -/
def owed (cpu : Cpu) : Int :=
  match cpu.label with
  | .loop | .putRunning | .putReady | .updatePrio _ | .updateRead _ _ | .updateWrite _ _ _
  | .run | .nextSlot | .waiting => cpu.useTime
  | .recheck => if cpu.timeLeft = 0 then 0 else cpu.useTime
  | .exec => cpu.useTime + 1
  | .free | .getProc _ | .testDone | .slotPrio | .slotRead _ | .detach | .stopped => 0

/-- The units that a CPU owes to a priority. -/
def owedTo (config : Config) (cpu : Cpu) (prio : Nat) : Int :=
  cpu.proc.elim 0 fun proc => if config.prio proc = prio then owed cpu else 0

/-- The slot covers the units used and the time left. -/
def Covers (config : Config) (slot : Nat → Int) (cpu : Cpu) : Prop :=
  ∀ proc ∈ cpu.proc, cpu.useTime + cpu.timeLeft ≤ slot (config.prio proc)

/-- What a position says about the slot of the process. -/
def Stands (config : Config) (slot : Nat → Int) (cpu : Cpu) : Label → Prop
  | .loop | .putRunning | .putReady | .updatePrio _ | .run | .exec | .nextSlot | .waiting =>
      Covers config slot cpu
  | .updateRead _ prio => Covers config slot cpu ∧ cpu.proc.map config.prio = some prio
  | .updateWrite _ prio value =>
      Covers config slot cpu ∧ cpu.proc.map config.prio = some prio ∧
        value = slot prio - cpu.useTime
  | .testDone => cpu.proc = none
  | .slotPrio => ∀ proc ∈ cpu.proc, 0 < slot (config.prio proc)
  | .slotRead prio => cpu.proc.map config.prio = some prio ∧ 0 < slot prio
  | .recheck =>
      (cpu.timeLeft = 0 → ∀ proc ∈ cpu.proc, cpu.remainingSlot = slot (config.prio proc)) ∧
        (cpu.timeLeft ≠ 0 → Covers config slot cpu)
  | .free | .getProc _ | .detach | .stopped => True

/-- The slots are the full ones less the units used, up to those still owed. -/
structure Balanced (config : Config) (slot : Nat → Int) (used : Nat → Nat) (cpu : Cpu) :
    Prop where
  table : ∀ prio, prio < maxPrio →
    slot prio = Sched.fullSlot prio - used prio + owedTo config cpu prio
  slotNonneg : ∀ prio, prio < maxPrio → 0 ≤ slot prio
  useTimeNonneg : 0 ≤ cpu.useTime
  stands : Stands config slot cpu cpu.label

variable {config : Config} {slot slot' : Nat → Int} {used : Nat → Nat} {cpu cpu' : Cpu}

/-- Moving to a position with the same debt. -/
theorem Balanced.moved
    (balanced : Balanced config slot used cpu)
    {label : Label}
    (same : ∀ prio, owedTo config (cpu.moved label) prio = owedTo config cpu prio)
    (stands : Stands config slot (cpu.moved label) label) :
    Balanced config slot used (cpu.moved label) where
  table := by
    intro prio inRange
    rw [same]
    exact balanced.table prio inRange
  slotNonneg := balanced.slotNonneg
  useTimeNonneg := balanced.useTimeNonneg
  stands := stands

/-- Without a process nothing is owed. -/
theorem owedTo_of_idle
    (nothing : cpu.proc = none)
    (prio : Nat) :
    owedTo config cpu prio = 0 := by
  rw [owedTo, nothing, Option.elim_none]

theorem owedTo_of_paid
    (paid : owed cpu = 0)
    (prio : Nat) :
    owedTo config cpu prio = 0 := by
  rw [owedTo, paid]
  cases cpu.proc with
  | none => rfl
  | some proc => exact ite_self 0

theorem owedTo_of_holds
    {proc : Nat}
    (holds : cpu.proc = some proc)
    (prio : Nat) :
    owedTo config cpu prio = if config.prio proc = prio then owed cpu else 0 := by
  rw [owedTo, holds, Option.elim_some]

theorem owedTo_congr
    (proc : cpu'.proc = cpu.proc)
    (same : owed cpu' = owed cpu)
    (prio : Nat) :
    owedTo config cpu' prio = owedTo config cpu prio := by
  rw [owedTo, owedTo, proc, same]

/-- An idle CPU may move anywhere. -/
theorem Balanced.moved_idle
    (balanced : Balanced config slot used cpu)
    {label : Label}
    (nothing : cpu.proc = none)
    (stands : Stands config slot (cpu.moved label) label) :
    Balanced config slot used (cpu.moved label) := by
  have stillNothing : (cpu.moved label).proc = none := nothing
  refine balanced.moved (fun prio => ?_) stands
  rw [owedTo_of_idle nothing, owedTo_of_idle stillNothing]

theorem covers_of_idle
    (nothing : cpu.proc = none) :
    Covers config slot cpu := by
  intro proc holds
  rw [nothing] at holds
  cases holds

theorem covers_of_holds
    {proc : Nat}
    (holds : cpu.proc = some proc) :
    Covers config slot cpu ↔ cpu.useTime + cpu.timeLeft ≤ slot (config.prio proc) := by
  simp [Covers, holds]

section Steps

variable {state next : Os.State 1} {sched : Sched Nat} {id : Fin 1}

/-- `update_slot` pays what is owed. -/
theorem Balanced.pay
    {branch : Branch}
    {prio : Nat}
    {value : Int}
    (balanced : Balanced config slot used cpu)
    (label : cpu.label = .updateWrite branch prio value)
    (left : 0 ≤ cpu.timeLeft) :
    Balanced config (Function.update slot prio value) used (cpu.moved branch.afterUpdate) := by
  have stands := balanced.stands
  rw [label] at stands
  obtain ⟨covers, level, rfl⟩ := stands
  obtain ⟨proc, holds, rfl⟩ := Option.map_eq_some_iff.mp level
  rw [covers_of_holds holds] at covers
  have paid : owed (cpu.moved branch.afterUpdate) = 0 := by
    cases branch <;> rfl
  have owes : owed cpu = cpu.useTime := by
    rw [owed, label]
  constructor
  case table =>
    intro prio inRange
    have table := balanced.table prio inRange
    rw [owedTo_of_holds holds, owes] at table
    rw [owedTo_of_paid paid]
    by_cases same : config.prio proc = prio
    · subst same
      rw [if_pos rfl] at table
      rw [Function.update_self]
      omega
    · rw [if_neg same] at table
      rw [Function.update_of_ne (Ne.symm same)]
      exact table
  case slotNonneg =>
    intro prio inRange
    by_cases same : prio = config.prio proc
    · subst same
      rw [Function.update_self]
      omega
    · rw [Function.update_of_ne same]
      exact balanced.slotNonneg prio inRange
  case useTimeNonneg => exact balanced.useTimeNonneg
  case stands => cases branch <;> trivial

/-- A dispatch starts with nothing used and takes at most the slot. -/
theorem Balanced.dispatched
    {proc : Nat}
    (balanced : Balanced config slot used cpu)
    (label : cpu.label = .recheck)
    (holds : cpu.proc = some proc)
    (timeSlot : Int) :
    Balanced config slot used (cpu.dispatched timeSlot) := by
  have stands := balanced.stands
  rw [label] at stands
  unfold Cpu.dispatched
  split
  case isTrue expired =>
    have read := stands.1 expired proc holds
    have slice := cpu.slice_eq_min timeSlot
    constructor
    case table =>
      intro prio inRange
      have table := balanced.table prio inRange
      have nothingOwed : owedTo config cpu prio = 0 :=
        owedTo_of_paid (by simp [owed, label, expired]) prio
      rw [nothingOwed] at table
      rw [owedTo_of_paid rfl]
      exact table
    case slotNonneg => exact balanced.slotNonneg
    case useTimeNonneg => exact Int.le_refl 0
    case stands =>
      intro other holdsOther
      rw [read] at slice
      obtain rfl : proc = other := Option.some.inj (holds.symm.trans holdsOther)
      dsimp only
      omega
  case isFalse unexpired =>
    refine balanced.moved (owedTo_congr rfl ?_) (stands.2 unexpired)
    simp [owed, Cpu.moved, label, unexpired]

/-- A slot that is read when the time is over becomes the next slice. -/
theorem Balanced.gotSlot
    {sched : Sched Nat}
    {prio : Nat}
    (balanced : Balanced config sched.slot used cpu)
    (label : cpu.label = .slotRead prio)
    (expired : cpu.timeLeft = 0) :
    Balanced config sched.slot used (cpu.gotSlot (sched.getSlot prio)) := by
  have stands := balanced.stands
  rw [label] at stands
  obtain ⟨level, positive⟩ := stands
  constructor
  case table =>
    intro prio' inRange
    have table := balanced.table prio' inRange
    have before : owed cpu = 0 := by rw [owed, label]
    have after : owed (cpu.gotSlot (sched.getSlot prio)) = 0 := if_pos expired
    rw [owedTo_of_paid before] at table
    rw [owedTo_of_paid after]
    exact table
  case slotNonneg => exact balanced.slotNonneg
  case useTimeNonneg => exact balanced.useTimeNonneg
  case stands =>
    refine ⟨fun _ proc holds => ?_, fun unexpired => absurd expired unexpired⟩
    have holds : cpu.proc = some proc := holds
    rw [holds, Option.map_some, Option.some.injEq] at level
    rw [level]
    rfl

/-- The steps in `Move` keep the balance. -/
theorem Move.balanced
    (moves : Move config state cpu cpu' sched)
    (budgeted : cpu.Budgeted config.timeSlot)
    (balanced : Balanced config state.sched.slot used cpu) :
    Balanced config sched.slot used cpu' := by
  have stands := balanced.stands
  have onTime := budgeted.onTime
  cases moves
  case loopIdle label nothing =>
    exact balanced.moved_idle nothing trivial
  case loopFinished proc label holds finished =>
    rw [label] at stands
    exact balanced.moved (owedTo_congr rfl (by simp [owed, Cpu.moved, label])) stands
  case loopExpired proc label holds unfinished expired =>
    rw [label] at stands
    exact balanced.moved (owedTo_congr rfl (by simp [owed, Cpu.moved, label])) stands
  case loopContinue proc label holds unfinished unexpired =>
    rw [label] at stands
    exact balanced.moved (owedTo_congr rfl (by simp [owed, Cpu.moved, label, unexpired]))
      ⟨fun expired => absurd expired unexpired, fun _ => stands⟩
  case putRunning proc label holds =>
    rw [label] at stands
    exact balanced.moved (owedTo_congr rfl (by simp [owed, Cpu.moved, label])) stands
  case updatePrio branch proc label holds =>
    rw [label] at stands
    exact balanced.moved (owedTo_congr rfl (by simp [owed, Cpu.moved, label]))
      ⟨stands, by simp [Cpu.moved, holds]⟩
  case updateRead branch prio label =>
    rw [label] at stands
    exact balanced.moved (owedTo_congr rfl (by simp [owed, Cpu.moved, label]))
      ⟨stands.1, stands.2, rfl⟩
  case updateWrite branch prio value label => exact balanced.pay label budgeted.left
  case testDone label =>
    rw [label] at stands
    refine balanced.moved_idle stands ?_
    split
    · trivial
    · exact covers_of_idle stands
  case slotPrio proc label holds =>
    rw [label] at stands
    exact balanced.moved (owedTo_congr rfl (by simp [owed, Cpu.moved, label]))
      ⟨by simp [Cpu.moved, holds], stands proc holds⟩
  case slotRead read label =>
    rw [label] at onTime
    exact balanced.gotSlot label onTime.1
  case recheckNull label nothing =>
    refine balanced.moved_idle nothing ?_
    split
    · trivial
    · exact covers_of_idle nothing
  case recheckProc proc label holds => exact balanced.dispatched label holds config.timeSlot

/-- A call of `run` uses a unit and owes it. -/
theorem Balanced.charged
    {proc : Nat}
    (balanced : Balanced config slot used cpu)
    (label : cpu.label = .run)
    (holds : cpu.proc = some proc)
    (sameProc : cpu'.proc = cpu.proc)
    (owes : owed cpu' = cpu.useTime + 1)
    (useTimeNonneg : 0 ≤ cpu'.useTime)
    (stands : Stands config slot cpu' cpu'.label) :
    Balanced config slot
      (Function.update used (config.prio proc) (used (config.prio proc) + 1)) cpu' where
  table := by
    intro prio inRange
    have table := balanced.table prio inRange
    have owedBefore : owed cpu = cpu.useTime := by rw [owed, label]
    rw [owedTo_of_holds holds, owedBefore] at table
    rw [owedTo_of_holds (sameProc.trans holds), owes]
    by_cases same : config.prio proc = prio
    · subst same
      rw [if_pos rfl] at table ⊢
      rw [Function.update_self]
      omega
    · rw [if_neg same] at table ⊢
      rw [Function.update_of_ne (Ne.symm same)]
      exact table
  slotNonneg := balanced.slotNonneg
  useTimeNonneg := useTimeNonneg
  stands := stands

/-- A unit goes from the time left to the units owed. -/
theorem Covers.afterRun
    (covers : Covers config slot cpu) :
    Covers config slot cpu.afterRun := by
  intro proc holds
  have covered := covers proc holds
  dsimp only [Cpu.afterRun]
  omega

/-- An instruction has been charged by the call of `run` before it. -/
theorem Balanced.executed
    (balanced : Balanced config slot used cpu)
    (label : cpu.label = .exec) :
    Balanced config slot used cpu.afterRun where
  table := by
    intro prio inRange
    have same : owed cpu.afterRun = owed cpu := by
      simp [owed, label, Cpu.afterRun]
    rw [owedTo_congr cpu.afterRun_proc same]
    exact balanced.table prio inRange
  slotNonneg := balanced.slotNonneg
  useTimeNonneg := Int.add_nonneg balanced.useTimeNonneg (by decide)
  stands := by
    have stands := balanced.stands
    rw [label] at stands
    exact Covers.afterRun stands

/-- The slots after a call of `get_mlq_proc`. -/
theorem slot_of_getProc
    {given : Option Branch}
    (label : (state.cpu id).label = .getProc given)
    (taken : state.cpuRoutine config id = some next) :
    next.sched.slot = if state.sched.resets then Sched.fullSlot else state.sched.slot := by
  simp only [State.cpuRoutine, label] at taken
  split at taken
  · cases taken
  · rename_i fetched
    cases taken
    exact Sched.getMlqProc_slot fetched

/-- A call of `get_mlq_proc` finds nothing owed, and leaves a positive slot for the
process that it returns. -/
theorem Balanced.fetched
    {given : Option Branch}
    {result : Option Nat}
    (balanced : Balanced config state.sched.slot used cpu)
    (label : cpu.label = .getProc given)
    (ownLevel : ∀ proc level, proc ∈ (state.sched.mlqReadyQueue level).contents →
      level = config.prio proc)
    (fetch : Sched.Fetch state.sched result sched)
    (slots : sched.slot = if state.sched.resets then Sched.fullSlot else state.sched.slot) :
    Balanced config sched.slot (if state.sched.resets then fun _ => 0 else used)
      (cpu.fetched given result) := by
  have paid : owed cpu = 0 := by rw [owed, label]
  have paidAfter : ∀ prio, owedTo config (cpu.fetched given result) prio = 0 := by
    intro prio
    cases result with
    | none => exact owedTo_of_idle rfl prio
    | some proc => exact owedTo_of_paid rfl prio
  constructor
  case table =>
    intro prio inRange
    have table := balanced.table prio inRange
    rw [owedTo_of_paid paid] at table
    rw [paidAfter, slots]
    split
    · simp
    · exact table
  case slotNonneg =>
    intro prio inRange
    rw [slots]
    split
    · rw [Sched.fullSlot]
      omega
    · exact balanced.slotNonneg prio inRange
  case useTimeNonneg =>
    have useTimeNonneg := balanced.useTimeNonneg
    simp only [Cpu.fetched]
    split <;> omega
  case stands =>
    cases fetch with
    | idle _ =>
        cases given with
        | none => rfl
        | some branch =>
            have idle : (cpu.fetched (some branch) none).proc = none := rfl
            refine ⟨fun _ proc holds => ?_, fun _ => covers_of_idle idle⟩
            rw [idle] at holds
            cases holds
    | served level proc rest _ inRange head tail others running positive _ =>
        intro other holds
        have own := ownLevel proc level (by simp [head])
        obtain rfl : proc = other := Option.some.inj holds
        rw [← own]
        exact positive

/-- A step of the CPU keeps the balance. -/
theorem balanced_cpuRoutine
    (taken : state.cpuRoutine config id = some next)
    (ownLevel : ∀ proc level, proc ∈ (state.sched.mlqReadyQueue level).contents →
      level = config.prio proc)
    (budgeted : (state.cpu id).Budgeted config.timeSlot)
    (balanced : Balanced config state.sched.slot used (state.cpu id)) :
    Balanced config next.sched.slot (charge config state used (.cpu id)) (next.cpu id) := by
  have stands := balanced.stands
  have useTimeNonneg := balanced.useTimeNonneg
  have stepped := cpuStep_of_cpuRoutine taken
  cases stepped with
  | move cpu sched moves =>
      have uncharged : charge config state used (.cpu id) = used := by
        cases moves <;> simp [charge, *]
      rw [uncharged, State.setCpu_cpu_same]
      exact Move.balanced moves budgeted balanced
  | putReady proc label holds =>
      rw [label] at stands
      rw [State.setCpu_cpu_same, charge, label]
      exact balanced.moved (owedTo_congr rfl (by simp [owed, Cpu.moved, label])) stands
  | free proc label holds =>
      rw [State.setCpu_cpu_same, charge, label]
      exact balanced.moved (owedTo_congr rfl (by simp [owed, Cpu.moved, label])) trivial
  | getProc given result sched label fetch =>
      rw [State.setCpu_cpu_same, charge, label]
      exact balanced.fetched label ownLevel fetch (slot_of_getProc label taken)
  | run proc label holds =>
      rw [label] at stands
      rw [State.setCpu_cpu_same, charge, label, holds]
      dsimp only [Option.elim_some]
      split
      case isTrue ended =>
        exact balanced.charged label holds rfl rfl (Int.add_nonneg useTimeNonneg (by decide))
          (Covers.afterRun stands)
      case isFalse unended => exact balanced.charged label holds rfl rfl useTimeNonneg stands
  | exec proc label holds =>
      rw [State.setCpu_cpu_same, charge, label]
      exact balanced.executed label
  | nextSlot timer label _ =>
      rw [label] at stands
      rw [State.setCpu_cpu_same, charge, label]
      exact balanced.moved (owedTo_congr rfl (by simp [owed, Cpu.moved, label])) stands
  | waiting timer label _ =>
      rw [label] at stands
      rw [State.setCpu_cpu_same, charge, label]
      exact balanced.moved (owedTo_congr rfl (by simp [owed, Cpu.moved, label])) stands
  | detach timer label _ =>
      rw [State.setCpu_cpu_same, charge, label]
      exact balanced.moved (owedTo_congr rfl (by simp [owed, Cpu.moved, label])) trivial

/-- No other thread touches the slots. -/
theorem slot_of_other
    {event : Event 1}
    (taken : state.step config event = some next)
    (other : ∀ id, event ≠ .cpu id) :
    next.sched.slot = state.sched.slot := by
  cases event with
  | cpu id => exact absurd rfl (other id)
  | loader =>
      have stepped := ldStep_of_ldRoutine taken
      cases stepped <;> rfl
  | timer =>
      obtain ⟨timer, _, rfl⟩ := Option.map_eq_some_iff.mp taken
      rfl
  | main =>
      simp only [State.step, State.mainRoutine] at taken
      split at taken
      · cases taken
        rfl
      · cases taken

end Steps

/-! ## Runs -/

/-- The invariant of the threads, the budget of the CPU, and the balance. -/
structure Accounted (config : Config) (state : State) : Prop where
  invariant : Invariant config state.os
  budgeted : ∀ id, (state.os.cpu id).Budgeted config.timeSlot
  balanced : ∀ id, Balanced config state.os.sched.slot state.used (state.os.cpu id)

/-- On one CPU `get_slot` finds a positive slot. -/
theorem Accounted.slotLeft
    {state : State}
    (accounted : Accounted config state)
    (event : Event 1) :
    SlotLeft state.os event := by
  intro prio asks
  unfold State.asks at asks
  cases event with
  | cpu id =>
      have stands := (accounted.balanced id).stands
      dsimp only at asks
      split at asks
      case h_1 read label =>
        rw [label] at stands
        rw [← Option.mem_some_iff.mp asks]
        exact stands.2
      case h_2 => cases asks
  | _ => cases asks

theorem Accounted.step
    {state next : State}
    {event : Event 1}
    (positive : 1 ≤ config.timeSlot)
    (accounted : Accounted config state)
    (taken : step config state event = some next) :
    Accounted config next := by
  obtain ⟨os, stepped, rfl⟩ := Option.map_eq_some_iff.mp taken
  refine ⟨accounted.invariant.step event stepped,
    budgeted_step positive accounted.budgeted (accounted.slotLeft event) stepped, ?_⟩
  intro id
  by_cases own : event = .cpu id
  · subst own
    exact balanced_cpuRoutine stepped accounted.invariant.placed.ownLevel
      (accounted.budgeted id) (accounted.balanced id)
  · have other : ∀ cpu, event ≠ .cpu cpu := by
      intro cpu same
      exact own (by rw [same, Subsingleton.elim cpu id])
    have uncharged : charge config state.os state.used event = state.used := by
      cases event with
      | cpu cpu => exact absurd rfl (other cpu)
      | _ => rfl
    dsimp only
    rw [uncharged, slot_of_other stepped other, State.step_cpu_other stepped other]
    exact accounted.balanced id

theorem accounted_boot
    (positive : 1 ≤ config.timeSlot) :
    Accounted config boot where
  invariant := Invariant.boot config 1
  budgeted := fun _ => Cpu.Budgeted.start positive
  balanced := by
    intro id
    constructor
    case table =>
      intro prio _
      rw [owedTo_of_idle rfl]
      simp [boot, Os.boot, Sched.init]
    case slotNonneg =>
      intro prio inRange
      show 0 ≤ Sched.fullSlot prio
      rw [Sched.fullSlot]
      omega
    case useTimeNonneg => exact Int.le_refl 0
    case stands => exact covers_of_idle rfl

/-- What is owed for a process is covered by its slot. -/
theorem Balanced.owed_le
    {proc : Nat}
    (balanced : Balanced config slot used cpu)
    (budgeted : cpu.Budgeted config.timeSlot)
    (holds : cpu.proc = some proc) :
    owed cpu ≤ slot (config.prio proc) := by
  have nonneg := balanced.slotNonneg _ (config.prio_lt proc)
  have left := budgeted.left
  have stands := balanced.stands
  have onTime := budgeted.onTime
  cases label : cpu.label with
  | loop | putRunning | putReady | updatePrio branch | run | nextSlot | waiting =>
      rw [label] at stands
      have covers := (covers_of_holds holds).mp stands
      rw [owed, label]
      dsimp only
      omega
  | updateRead branch prio | updateWrite branch prio value =>
      rw [label] at stands
      have covers := (covers_of_holds holds).mp stands.1
      rw [owed, label]
      dsimp only
      omega
  | recheck =>
      rw [label] at stands
      rw [owed, label]
      dsimp only
      split
      case isTrue _ => exact nonneg
      case isFalse unexpired =>
        have covers := (covers_of_holds holds).mp (stands.2 unexpired)
        omega
  | exec =>
      rw [label] at stands onTime
      have covers := (covers_of_holds holds).mp stands
      have someLeft : 1 ≤ cpu.timeLeft := onTime
      rw [owed, label]
      dsimp only
      omega
  | _ =>
      rw [owed, label]
      exact nonneg

/-- No priority has used more than its units. -/
theorem Balanced.used_le
    (balanced : Balanced config slot used cpu)
    (budgeted : cpu.Budgeted config.timeSlot)
    {prio : Nat}
    (inRange : prio < maxPrio) :
    (used prio : Int) ≤ maxPrio - prio := by
  have table := balanced.table prio inRange
  have nonneg := balanced.slotNonneg prio inRange
  rw [Sched.fullSlot] at table
  cases holds : cpu.proc with
  | none =>
      rw [owedTo_of_idle holds] at table
      omega
  | some proc =>
      rw [owedTo_of_holds holds] at table
      split at table
      case isTrue same =>
        have covered := balanced.owed_le budgeted holds
        rw [same] at covered
        omega
      case isFalse _ => omega

/-- In every run with one CPU, at each call of `get_mlq_proc` the slot of a priority
is `MAX_PRIO - prio` less the units used since the last `reset_slot`; and at no time
has a priority used more than these. -/
theorem slot_accounting
    (config : Config)
    (positive : 1 ≤ config.timeSlot)
    {last : State}
    (run : Run (step config) anyEvent boot last)
    {prio : Nat}
    (inRange : prio < maxPrio) :
    (∀ given, (last.os.cpu 0).label = .getProc given →
      last.os.sched.getSlot prio = (maxPrio - prio : Int) - last.used prio ∧
        0 ≤ last.os.sched.getSlot prio ∧
        last.os.sched.getSlot prio ≤ maxPrio - prio) ∧
      (last.used prio : Int) ≤ maxPrio - prio := by
  have accounted : Accounted config last :=
    run.invariant (Accounted config)
      (fun _ _ _ accounted _ taken => accounted.step positive taken) (accounted_boot positive)
  have balanced := accounted.balanced 0
  refine ⟨fun given label => ?_, balanced.used_le (accounted.budgeted 0) inRange⟩
  have table := balanced.table prio inRange
  have nonneg := balanced.slotNonneg prio inRange
  have paid : owed (last.os.cpu 0) = 0 := by rw [owed, label]
  rw [owedTo_of_paid paid, Sched.fullSlot] at table
  rw [Sched.getSlot]
  exact ⟨by omega, nonneg, by omega⟩

/-- One process of three instructions, whose priority has two units. -/
def twoUnits : Config where
  toWorkload := Workload.uniform 138 3 (by decide)
  timeSlot := 2
  numProcesses := 1
  startTime := fun _ => 0

/-- The process runs for two slots and is put back. -/
def expiring (cpu : Fin 1) : List (Event 1) :=
  List.replicate 4 .loader ++ List.replicate 8 (.cpu cpu) ++
    List.replicate 7 .timer ++ List.replicate 3 .loader ++
    List.replicate 6 (.cpu cpu) ++ List.replicate 7 .timer ++
    List.replicate 7 (.cpu cpu)

theorem slot_accounting_twoUnits :
    ∃ last, replay (step twoUnits) boot (expiring 0) = some last ∧
      (last.os.cpu 0).label = .getProc (some .preempted) ∧ last.used 138 = 2 ∧
      last.os.sched.getSlot 138 = 0 := by
  obtain ⟨last, reaches, label, used⟩ := exists_of_evaluated
    (show (replay (step twoUnits) boot (expiring 0)).map (fun last => decide
      ((last.os.cpu 0).label = .getProc (some .preempted) ∧ last.used 138 = 2)) = some true
      by decide +kernel)
  have accounted := (slot_accounting twoUnits (by decide) (Run.of_replay_any _ reaches)
    (show 138 < maxPrio by decide)).1 _ label
  refine ⟨last, reaches, label, used, ?_⟩
  rw [accounted.1, used]
  rfl

end Accounting

end Os
end Ossim
