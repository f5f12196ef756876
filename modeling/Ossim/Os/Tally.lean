import Ossim.Os.Exclusive
import Mathlib.Data.List.Count

/-!
# Calls of `run` and executed instructions

Every call of `run` executes the next instruction of its process, except the one
call of a process without instructions.  The position of the CPU that owns a process
tells how the number of calls and the program counter are related, so that the
instructions are executed one after the other up to the last one, and the program
counter never stands behind the end of the program when an instruction is fetched.
-/

namespace Ossim
namespace Os

open Scheduler Transition

/-- The processes for which `run` has been called, the last call first. -/
def History.dispatches (history : History n) : List Nat :=
  (history.log.filter fun entry => entry.action = .run).map Entry.proc

/-- How often `run` has been called for a process. -/
def History.runs (history : History n) (proc : Nat) : Nat :=
  history.dispatches.count proc

/-- A process that has run up to its program counter and is not finished, or has not
run at all. -/
def Unfinished (size pc runs : Nat) : Prop :=
  runs = pc ∧ (pc < size ∨ pc = 0)

/-- How the calls of `run` for the process in `proc` and its program counter are
related at a position. -/
def Label.Tallied (size pc runs : Nat) : Label → Prop
  -- Behind a call of `run`, which has done nothing if there are no instructions.
  | .loop | .nextSlot | .waiting =>
      (runs = pc ∧ pc ≤ size) ∨ (runs = 1 ∧ pc = 0 ∧ size = 0)
  | .putRunning | .putReady => runs = pc ∧ pc < size
  | .slotPrio | .slotRead _ | .recheck | .run => Unfinished size pc runs
  | .exec => runs = pc + 1 ∧ pc < size
  | _ => True

/-- The calls of `run` and the program counters of all processes. -/
structure Tallied (config : Config) (state : State n) : Prop where
  owned : ∀ id proc, (state.cpu id).proc = some proc →
    (state.cpu id).label.Tallied (config.codeSize proc) (state.pc proc)
      (state.history.runs proc)
  queued : ∀ proc, state.Queued proc →
    Unfinished (config.codeSize proc) (state.pc proc) (state.history.runs proc)
  runs : ∀ proc, state.history.runs proc ≤ max 1 (config.codeSize proc)
  pc : ∀ proc, state.pc proc ≤ config.codeSize proc
  new : ∀ proc, state.stage proc = .new →
    state.pc proc = 0 ∧ state.history.runs proc = 0

section Record

variable {history : History n} {entry : Entry n} {proc : Nat}

theorem History.runs_record_run
    (isRun : entry.action = .run)
    (same : entry.proc = proc) :
    (history.record entry).runs proc = history.runs proc + 1 := by
  simp [History.runs, History.dispatches, History.record, isRun, same]

theorem History.runs_record_instruction
    (instruction : entry.action = .instruction) :
    (history.record entry).runs proc = history.runs proc := by
  simp [History.runs, History.dispatches, History.record, instruction]

theorem History.runs_record_of_ne (different : entry.proc ≠ proc) :
    (history.record entry).runs proc = history.runs proc := by
  cases action : entry.action with
  | run => simp [History.runs, History.dispatches, History.record, action, different]
  | instruction => exact History.runs_record_instruction action

@[simp] theorem History.runs_enqueue (added time : Nat) (cpu : Option (Fin n)) :
    (history.enqueue added time cpu).runs proc = history.runs proc := rfl

end Record

/-- Where a CPU owns nothing, nothing is required. -/
theorem Label.tallied_of_not_owns
    {label : Label}
    (free : label.owns = false)
    (size pc runs : Nat) :
    label.Tallied size pc runs := by
  cases label <;> trivial

/-- The steps in `Move` keep the relation. -/
theorem Move.tallied
    {config : Config}
    {state : State n}
    {cpu cpu' : Cpu}
    {sched : Sched Nat}
    (moves : Move config state cpu cpu' sched)
    (idle : cpu.label = .testDone → cpu.proc = none)
    {proc runs : Nat}
    (holds : cpu.proc = some proc)
    (before : cpu.label.Tallied (config.codeSize proc) (state.pc proc) runs) :
    cpu'.label.Tallied (config.codeSize proc) (state.pc proc) runs := by
  cases moves
  case loopIdle => trivial
  case loopFinished => trivial
  case loopExpired other label holds' unfinished expired =>
    obtain rfl : other = proc := by simpa [holds'] using holds
    rw [label] at before
    rcases before with ⟨ran, atMost⟩ | ⟨_, start, empty⟩
    · exact ⟨ran, by omega⟩
    · omega
  case loopContinue other label holds' unfinished unexpired =>
    obtain rfl : other = proc := by simpa [holds'] using holds
    rw [label] at before
    rcases before with ⟨ran, atMost⟩ | ⟨_, start, empty⟩
    · exact ⟨ran, .inl (by omega)⟩
    · omega
  case putRunning label _ =>
    rw [label] at before
    exact before
  case updatePrio branch _ _ _ => trivial
  case updateRead branch _ _ => trivial
  case updateWrite branch _ _ _ => cases branch <;> trivial
  case testDone label => simp [idle label] at holds
  case slotPrio label _ =>
    rw [label] at before
    exact before
  case slotRead label =>
    rw [label] at before
    exact before
  case recheckNull label nothing => simp [nothing] at holds
  case recheckProc label _ =>
    rw [label] at before
    rw [Cpu.dispatched_label]
    exact before

namespace Tallied

variable {config : Config} {state next : State n} {id : Fin n}

theorem boot (config : Config) (n : Nat) : Tallied config (boot n) where
  owned := nofun
  queued := fun _ => nofun
  runs := fun _ => Nat.zero_le _
  pc := fun _ => Nat.zero_le _
  new := fun _ _ => ⟨rfl, rfl⟩

/-- What is known at the position of a CPU about its process. -/
theorem at_label
    (tallied : Tallied config state)
    {label : Label}
    (stands : (state.cpu id).label = label)
    {proc : Nat}
    (holds : (state.cpu id).proc = some proc) :
    label.Tallied (config.codeSize proc) (state.pc proc) (state.history.runs proc) :=
  stands ▸ tallied.owned id proc holds

/-- Steps that change at most the program counter and the calls of one process, that
the CPU owns before and after. -/
theorem change
    (tallied : Tallied config state)
    (invariant : Invariant config state)
    {proc : Nat}
    (owns : (state.cpu id).label.owns = true)
    (holds : (state.cpu id).proc = some proc)
    (others : ∀ other, other ≠ id → next.cpu other = state.cpu other)
    (queues : next.sched.mlqReadyQueue = state.sched.mlqReadyQueue)
    (stage : next.stage = state.stage)
    (sameProc : (next.cpu id).proc = some proc)
    (unchanged : ∀ other, other ≠ proc → next.pc other = state.pc other ∧
      next.history.runs other = state.history.runs other)
    (own : (next.cpu id).label.Tallied (config.codeSize proc) (next.pc proc)
      (next.history.runs proc))
    (runs : next.history.runs proc ≤ max 1 (config.codeSize proc))
    (pc : next.pc proc ≤ config.codeSize proc) :
    Tallied config next where
  owned := by
    intro other held holds'
    by_cases same : other = id
    · subst same
      obtain rfl : proc = held := Option.some.inj (sameProc.symm.trans holds')
      exact own
    · rw [others other same] at holds' ⊢
      by_cases owner : (state.cpu other).label.owns = true
      · have different := invariant.different owns holds same holds' owner
        rw [(unchanged held different.symm).1, (unchanged held different.symm).2]
        exact tallied.owned other held holds'
      · exact Label.tallied_of_not_owns (by simpa using owner) _ _ _
  queued := by
    rintro other ⟨level, member⟩
    rw [queues] at member
    have different : other ≠ proc := by
      rintro rfl
      exact invariant.notQueued owns holds ⟨level, member⟩
    rw [(unchanged other different).1, (unchanged other different).2]
    exact tallied.queued other ⟨level, member⟩
  runs := by
    intro other
    by_cases same : other = proc
    · exact same ▸ runs
    · rw [(unchanged other same).2]
      exact tallied.runs other
  pc := by
    intro other
    by_cases same : other = proc
    · exact same ▸ pc
    · rw [(unchanged other same).1]
      exact tallied.pc other
  new := by
    intro other isNew
    rw [stage] at isNew
    have different : other ≠ proc := by
      rintro rfl
      simp [invariant.live owns holds] at isNew
    rw [(unchanged other different).1, (unchanged other different).2]
    exact tallied.new other isNew

/-- Steps that execute nothing. -/
theorem keep
    (tallied : Tallied config state)
    (pc : next.pc = state.pc)
    (runs : next.history.runs = state.history.runs)
    (owned : ∀ id proc, (next.cpu id).proc = some proc →
      (next.cpu id).label.Tallied (config.codeSize proc) (state.pc proc)
        (state.history.runs proc))
    (queued : ∀ proc, next.Queued proc →
      Unfinished (config.codeSize proc) (state.pc proc) (state.history.runs proc))
    (new : ∀ proc, next.stage proc = .new → state.stage proc = .new) :
    Tallied config next where
  owned := by
    rw [pc, runs]
    exact owned
  queued := by
    rw [pc, runs]
    exact queued
  runs := by
    rw [runs]
    exact tallied.runs
  pc := by
    rw [pc]
    exact tallied.pc
  new := by
    rw [pc, runs]
    exact fun proc isNew => tallied.new proc (new proc isNew)

/-- What holds for the CPU that takes a step, and for all others, holds for each. -/
theorem owned_cpuStep
    (tallied : Tallied config state)
    (step : CpuStep config state id next)
    (own : ∀ proc, (next.cpu id).proc = some proc →
      (next.cpu id).label.Tallied (config.codeSize proc) (state.pc proc)
        (state.history.runs proc))
    (other : Fin n)
    (proc : Nat)
    (holds : (next.cpu other).proc = some proc) :
    (next.cpu other).label.Tallied (config.codeSize proc) (state.pc proc)
      (state.history.runs proc) := by
  by_cases same : other = id
  · subst same
    exact own proc holds
  · rw [step.cpu_other same] at holds ⊢
    exact tallied.owned other proc holds

/-- A call of `run`. -/
theorem run
    (tallied : Tallied config state)
    (invariant : Invariant config state)
    {proc : Nat}
    (label : (state.cpu id).label = .run)
    (holds : (state.cpu id).proc = some proc) :
    Tallied config { state.setCpu id
        (if config.codeSize proc ≤ state.pc proc then
          (state.cpu id).afterRun
        else
          (state.cpu id).moved .exec) with
      history := state.history.record ⟨.run, state.timer.time, proc, id⟩ } := by
  obtain ⟨ran, position⟩ := tallied.at_label label holds
  have counted : (state.history.record ⟨.run, state.timer.time, proc, id⟩).runs proc =
      state.pc proc + 1 := by
    rw [History.runs_record_run rfl rfl, ran]
  refine tallied.change invariant (by rw [label]; rfl) holds
    (fun other different => state.setCpu_cpu_other _ different) rfl rfl ?_ ?_ ?_ ?_
    (tallied.pc proc)
  · rw [State.setCpu_cpu_same]
    split
    · exact holds
    · exact holds
  · exact fun other different => ⟨rfl, History.runs_record_of_ne different.symm⟩
  · rw [State.setCpu_cpu_same, counted]
    have atMost := tallied.pc proc
    simp only [State.setCpu_pc]
    split
    · -- Only a process without instructions is called behind its end.
      exact .inr (by omega)
    · exact ⟨rfl, by omega⟩
  · rw [counted]
    omega

/-- The instruction of a call of `run`. -/
theorem exec
    (tallied : Tallied config state)
    (invariant : Invariant config state)
    {proc : Nat}
    (label : (state.cpu id).label = .exec)
    (holds : (state.cpu id).proc = some proc) :
    Tallied config { state.setCpu id (state.cpu id).afterRun with
      pc := Function.update state.pc proc (state.pc proc + 1)
      history :=
        state.history.record ⟨.instruction, state.timer.time, proc, id⟩ } := by
  obtain ⟨ran, below⟩ := tallied.at_label label holds
  have counted :
      (state.history.record ⟨.instruction, state.timer.time, proc, id⟩).runs proc =
        state.pc proc + 1 := by
    rw [History.runs_record_instruction rfl, ran]
  refine tallied.change invariant (by rw [label]; rfl) holds
    (fun other different => state.setCpu_cpu_other _ different) rfl rfl ?_ ?_ ?_ ?_ ?_
  · rw [State.setCpu_cpu_same]
    exact holds
  · exact fun other different =>
      ⟨Function.update_of_ne different _ _, History.runs_record_instruction rfl⟩
  · rw [State.setCpu_cpu_same, counted]
    simp only [Function.update_self]
    exact .inl ⟨rfl, below⟩
  · rw [counted]
    omega
  · simp only [Function.update_self]
    exact below

/-- A step of a CPU. -/
theorem cpuStep
    (tallied : Tallied config state)
    (invariant : Invariant config state)
    (step : CpuStep config state id next) :
    Tallied config next := by
  have owned := tallied.owned_cpuStep step
  cases step with
  | run proc label holds => exact tallied.run invariant label holds
  | exec proc label holds => exact tallied.exec invariant label holds
  | move cpu sched moves =>
      refine tallied.keep rfl rfl (owned fun proc holds => ?_) (fun proc queued => ?_)
        fun _ isNew => isNew
      · rw [State.setCpu_cpu_same] at holds ⊢
        have sameProc : cpu.proc = (state.cpu id).proc := by cases moves <;> simp
        rw [sameProc] at holds
        exact moves.tallied (invariant.idle id) holds (tallied.owned id proc holds)
      · refine tallied.queued proc ?_
        simpa [State.Queued, moves.queues] using queued
  | putReady proc label holds =>
      refine tallied.keep rfl rfl (owned fun other holds' => ?_) (fun other queued => ?_)
        fun _ isNew => isNew
      · rw [State.setCpu_cpu_same]
        trivial
      · obtain ⟨level, member⟩ := queued
        rcases mem_of_mem_update_enqueue member with old | ⟨rfl, _⟩
        · exact tallied.queued other ⟨level, old⟩
        · obtain ⟨ran, below⟩ := tallied.at_label label holds
          exact ⟨ran, .inl below⟩
  | free proc label holds =>
      refine tallied.keep rfl rfl (owned fun other holds' => ?_) tallied.queued
        fun other isNew => ?_
      · rw [State.setCpu_cpu_same]
        trivial
      · by_cases same : other = proc
        · subst same
          simp at isNew
        · simpa [same] using isNew
  | getProc given result sched label fetch =>
      refine tallied.keep rfl rfl (owned fun proc holds => ?_) (fun proc queued => ?_)
        fun _ isNew => isNew
      · rw [State.setCpu_cpu_same] at holds ⊢
        obtain rfl : result = some proc := holds
        cases fetch with
        | served level _ rest _ inRange head tail others running positive slots =>
            have before := tallied.queued proc ⟨level, by simp [head]⟩
            cases given <;> exact before
      · obtain ⟨level, member⟩ := queued
        exact tallied.queued proc ⟨level, fetch.mem member⟩
  | nextSlot timer label taken =>
      refine tallied.keep rfl rfl (owned fun proc holds => ?_) tallied.queued fun _ isNew => isNew
      rw [State.setCpu_cpu_same] at holds ⊢
      exact tallied.at_label label holds
  | waiting timer label taken =>
      refine tallied.keep rfl rfl (owned fun proc holds => ?_) tallied.queued fun _ isNew => isNew
      rw [State.setCpu_cpu_same] at holds ⊢
      exact tallied.at_label label holds
  | detach timer label taken =>
      refine tallied.keep rfl rfl (owned fun proc holds => ?_) tallied.queued fun _ isNew => isNew
      rw [State.setCpu_cpu_same]
      trivial

/-- A step of the loader. -/
theorem ldStep
    (tallied : Tallied config state)
    (invariant : Invariant config state)
    (step : LdStep config state next) :
    Tallied config next := by
  cases step with
  | addReady i label =>
      obtain ⟨start, none⟩ := tallied.new i (invariant.new label)
      refine tallied.keep rfl rfl tallied.owned (fun proc queued => ?_) fun proc isNew => ?_
      · obtain ⟨level, member⟩ := queued
        rcases mem_of_mem_update_enqueue member with old | ⟨rfl, _⟩
        · exact tallied.queued proc ⟨level, old⟩
        · exact ⟨none.trans start.symm, .inr start⟩
      · by_cases same : proc = i
        · subst same
          simp at isNew
        · simpa [same] using isNew
  | _ => exact tallied.keep rfl rfl tallied.owned tallied.queued fun _ isNew => isNew

/-- Every atomic step. -/
theorem step
    (tallied : Tallied config state)
    (invariant : Invariant config state)
    (event : Event n)
    (taken : state.step config event = some next) :
    Tallied config next := by
  cases event with
  | timer =>
      obtain ⟨timer, _, rfl⟩ := Option.map_eq_some_iff.mp taken
      exact tallied.keep rfl rfl tallied.owned tallied.queued fun _ isNew => isNew
  | cpu id => exact tallied.cpuStep invariant (cpuStep_of_cpuRoutine taken)
  | loader => exact tallied.ldStep invariant (ldStep_of_ldRoutine taken)
  | main =>
      simp only [State.step, State.mainRoutine] at taken
      split at taken
      · cases taken
        exact tallied.keep rfl rfl tallied.owned tallied.queued fun _ isNew => isNew
      · cases taken

end Tallied

end Os
end Ossim
