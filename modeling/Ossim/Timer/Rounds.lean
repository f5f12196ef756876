import Ossim.Timer.Lockstep
import Mathlib.Data.List.Count

/-!
# Why a slot ends

The two counters of the collecting loop count the devices that the loop has passed
and, among these, the detached ones.  So the loop ends the timer thread exactly when
every device has detached, and otherwise it ends a slot that some device has
finished.  A device that the loop has passed waits for its release and cannot
detach in between, which keeps the counters right.
-/

namespace Ossim
namespace Timer

variable {δ : Type*}

/-- What the position of the collecting loop says about the flags `fsh`. -/
def Routine.Tallied (devList : List δ) (finished : δ → Bool) : Routine δ → Prop
  | .collect temp fsh event =>
      ∃ passed, devList = passed ++ temp ∧ event = passed.length ∧
        fsh = passed.countP finished
  | _ => True

/-- The flags, the counters and the end of the timer thread. -/
structure Rounds (state : State δ) : Prop where
  lockstep : InLockstep state
  detached : ∀ dev, (state.device dev).phase = .detached → (state.device dev).fsh = true
  tallied : state.routine.Tallied state.devList fun dev => (state.device dev).fsh
  exited : state.routine = .exited → state.timerStop = true ∨
    ∀ dev ∈ state.devList, (state.device dev).fsh = true

theorem Rounds.boot
    {devices : List δ}
    (distinct : devices.Nodup) :
    Rounds (boot devices) where
  lockstep := inLockstep_boot devices distinct
  detached := nofun
  tallied := trivial
  exited := nofun

/-- An undetached device has not set `fsh`. -/
theorem InLockstep.undetached
    {state : State δ}
    (lockstep : InLockstep state)
    {dev : δ}
    (member : dev ∈ state.devList)
    (unfinished : (state.device dev).phase ≠ .detached) :
    (state.device dev).fsh = false :=
  (lockstep.inStep dev member unfinished).unfinished

/-- A device that the collecting loop has passed is not at work. -/
theorem InLockstep.notWorking
    {state : State δ}
    (lockstep : InLockstep state)
    {dev : δ}
    (member : dev ∈ state.devList)
    (collected : state.routine.Collected dev) :
    (state.device dev).phase ≠ .working := by
  intro working
  have inStep := lockstep.inStep dev member (by simp [TimerId.Undetached, working])
  have done := inStep.held (.inl collected)
  simp [(inStep.working working).1] at done

namespace Rounds

variable [DecidableEq δ] {state next : State δ}

/-- A step of the timer thread. -/
theorem timerRoutine
    (rounds : Rounds state)
    (taken : state.timerRoutine = some next) :
    Rounds next := by
  have lockstep := rounds.lockstep.timerRoutine taken
  unfold State.timerRoutine at taken
  split at taken
  case h_1 position =>
    split at taken <;> cases taken
    case isTrue stop =>
      exact
        { lockstep := lockstep
          detached := rounds.detached
          tallied := trivial
          exited := fun _ => .inl stop }
    case isFalse =>
      exact
        { lockstep := lockstep
          detached := rounds.detached
          tallied := ⟨[], rfl, rfl, rfl⟩
          exited := nofun }
  case h_2 dev rest fsh event position =>
    split at taken <;> cases taken
    have tallied := rounds.tallied
    rw [position] at tallied
    obtain ⟨passed, list, rfl, rfl⟩ := tallied
    refine
      { lockstep := lockstep
        detached := rounds.detached
        tallied := ⟨passed ++ [dev], by simp [list], by simp, ?_⟩
        exited := nofun }
    simp only [List.countP_append, List.countP_singleton]
    split <;> rfl
  case h_3 fsh event position =>
    have tallied := rounds.tallied
    rw [position] at tallied
    obtain ⟨passed, list, rfl, rfl⟩ := tallied
    rw [List.append_nil] at list
    split at taken <;> cases taken
    case isTrue equal =>
      refine
        { lockstep := lockstep
          detached := rounds.detached
          tallied := trivial
          exited := fun _ => .inr ?_ }
      rw [list]
      exact List.countP_eq_length.mp equal
    case isFalse =>
      exact
        { lockstep := lockstep
          detached := rounds.detached
          tallied := trivial
          exited := nofun }
  case h_4 dev rest position =>
    cases taken
    have sameFlag : ∀ other, ((state.setDevice dev
        { state.device dev with done := false }).device other).phase =
          (state.device other).phase ∧
        ((state.setDevice dev { state.device dev with done := false }).device other).fsh =
          (state.device other).fsh := by
      intro other
      by_cases same : other = dev
      · subst same
        simp
      · simp [State.setDevice_device_other _ _ same]
    exact
      { lockstep := lockstep
        detached := fun other phase =>
          (sameFlag other).2.trans (rounds.detached other ((sameFlag other).1 ▸ phase))
        tallied := trivial
        exited := nofun }
  case h_5 =>
    cases taken
    exact
      { lockstep := lockstep
        detached := rounds.detached
        tallied := trivial
        exited := nofun }
  case h_6 => cases taken

/-- A step of a device that changes no flag of a device that the loop has passed. -/
theorem setDevice
    (rounds : Rounds state)
    (dev : δ)
    (timerId : TimerId)
    (lockstep : InLockstep (state.setDevice dev timerId))
    (detached : timerId.phase = .detached → timerId.fsh = true)
    (stays : (state.device dev).fsh = true → timerId.fsh = true)
    (sameFlag : dev ∈ state.devList → state.routine.Collected dev →
      timerId.fsh = (state.device dev).fsh) :
    Rounds (state.setDevice dev timerId) where
  lockstep := lockstep
  detached := by
    intro other phase
    by_cases same : other = dev
    · subst same
      rw [State.setDevice_device_same] at phase ⊢
      exact detached phase
    · rw [State.setDevice_device_other _ _ same] at phase ⊢
      exact rounds.detached other phase
  tallied := by
    have tallied := rounds.tallied
    rw [State.setDevice_routine, State.setDevice_devList]
    cases position : state.routine with
    | collect temp fsh event =>
        rw [position] at tallied
        obtain ⟨passed, list, length, rfl⟩ := tallied
        refine ⟨passed, list, length, List.countP_congr fun other member => ?_⟩
        by_cases same : other = dev
        · subst same
          have listed : other ∈ state.devList := by simp [list, member]
          have collected : state.routine.Collected other := by
            have distinct := rounds.lockstep.distinct
            rw [list] at distinct
            rw [position]
            exact List.disjoint_of_nodup_append distinct member
          simp [sameFlag listed collected]
        · rw [State.setDevice_device_other _ _ same]
    | check | release temp | exited => trivial
  exited := by
    intro position
    refine (rounds.exited position).imp_right fun all other member => ?_
    by_cases same : other = dev
    · subst same
      rw [State.setDevice_device_same]
      exact stays (all other member)
    · rw [State.setDevice_device_other _ _ same]
      exact all other member

/-- Every atomic step keeps the flags and counters right. -/
theorem step
    (rounds : Rounds state)
    (event : Event δ)
    (taken : state.step event = some next) :
    Rounds next := by
  have lockstep := rounds.lockstep.step event taken
  cases event with
  | timerRoutine => exact rounds.timerRoutine taken
  | nextSlotEnter dev =>
      obtain ⟨_, rfl⟩ := State.nextSlotEnter_spec taken
      exact rounds.setDevice dev _ lockstep nofun id fun _ _ => rfl
  | nextSlotReturn dev =>
      obtain rfl := State.nextSlotReturn_spec taken
      exact rounds.setDevice dev _ lockstep nofun id fun _ _ => rfl
  | detachEvent dev =>
      have working : (state.device dev).phase = .working := by
        simp only [State.step, State.detachEvent] at taken
        split at taken
        · rename_i enabled
          exact enabled.2
        · cases taken
      obtain rfl := State.detachEvent_spec taken
      exact rounds.setDevice dev _ lockstep (fun _ => rfl) (fun _ => rfl)
        fun member collected => absurd working (rounds.lockstep.notWorking member collected)
  | stopTimer =>
      cases taken
      exact
        { lockstep := lockstep
          detached := rounds.detached
          tallied := rounds.tallied
          exited := fun _ => .inl rfl }

/-- A slot ends when some device has not detached, and then every such device has
finished the slot. -/
theorem slot_ends
    (rounds : Rounds state)
    (taken : state.timerRoutine = some next)
    (passes : next.time ≠ state.time) :
    next.time = state.time + 1 ∧
      (∃ dev ∈ state.devList, (state.device dev).phase ≠ .detached) ∧
      ∀ dev ∈ state.devList, (state.device dev).phase ≠ .detached →
        (state.device dev).phase = .waiting ∧
          (state.device dev).entered = state.time + 1 := by
  have tallied := rounds.tallied
  unfold State.timerRoutine at taken
  split at taken
  case h_3 fsh event position =>
    rw [position] at tallied
    obtain ⟨passed, list, rfl, rfl⟩ := tallied
    rw [List.append_nil] at list
    split at taken <;> cases taken
    case isTrue => simp at passes
    case isFalse unequal =>
      refine ⟨rfl, ?_, fun dev member undetached => ?_⟩
      · by_contra none
        refine unequal ?_
        rw [← list, List.countP_eq_length]
        intro dev member
        refine rounds.detached dev ?_
        by_contra undetached
        exact none ⟨dev, member, undetached⟩
      · have collected : state.routine.Collected dev := by simp [position]
        have inStep := rounds.lockstep.inStep dev member undetached
        have done := inStep.held (.inl collected)
        have entered := inStep.current (by simp [position])
        refine ⟨?_, by simpa [done] using entered⟩
        cases phase : (state.device dev).phase with
        | waiting => rfl
        | working => exact absurd phase (rounds.lockstep.notWorking member collected)
        | detached => exact absurd phase undetached
  case h_1 => split at taken <;> cases taken <;> simp at passes
  case h_2 => split at taken <;> cases taken; simp at passes
  case h_4 =>
    cases taken
    simp at passes
  case h_5 =>
    cases taken
    simp at passes
  case h_6 => cases taken

end Rounds

/-! ## How many steps the timer thread takes -/

/-- The steps of the timer thread up to the end of the current slot, at most. -/
def Routine.rank (devices : Nat) : Routine δ → Nat
  | .exited => 0
  | .collect temp _ _ => temp.length + 1
  | .check => devices + 2
  | .release temp => temp.length + devices + 3

/-- The steps of the timer thread up to the slot `last`, at most. -/
def State.rank (last : Nat) (state : State δ) : Nat :=
  (last - state.time) * (2 * state.devList.length + 6) +
    state.routine.rank state.devList.length

namespace State

variable [DecidableEq δ] {state next : State δ}

/-- Every step of the timer thread up to the slot `last` is paid for. -/
theorem rank_timerRoutine
    {last : Nat}
    (taken : state.timerRoutine = some next)
    (inTime : next.time ≤ last) :
    next.rank last < state.rank last := by
  unfold timerRoutine at taken
  split at taken
  case h_1 position =>
    split at taken <;> cases taken <;> simp [State.rank, position, Routine.rank]
  case h_2 dev rest fsh event position =>
    split at taken <;> cases taken
    simp [State.rank, position, Routine.rank]
  case h_3 fsh event position =>
    split at taken <;> cases taken
    case isTrue => simp [State.rank, position, Routine.rank]
    case isFalse =>
      obtain ⟨left, split⟩ : ∃ left, last - state.time = left + 1 :=
        ⟨last - (state.time + 1), by simp only at inTime; omega⟩
      have fewer : last - (state.time + 1) = left := by omega
      simp only [State.rank, position, Routine.rank, split, fewer, Nat.add_mul]
      simp only [List.length_nil]
      omega
  case h_4 dev rest position =>
    cases taken
    simp [State.rank, position, Routine.rank]
  case h_5 position =>
    cases taken
    simp [State.rank, position, Routine.rank]
  case h_6 => cases taken

/-- The steps of the devices are none of the timer thread. -/
@[simp] theorem rank_setDevice
    (state : State δ)
    (last : Nat)
    (dev : δ)
    (timerId : TimerId) :
    (state.setDevice dev timerId).rank last = state.rank last := rfl

/-- The timer thread has ended or is blocked by a device that has neither finished the
slot nor detached. -/
theorem timerRoutine_blocked
    (stuck : state.timerRoutine = none) :
    state.routine = .exited ∨
      ∃ dev rest fsh event, state.routine = .collect (dev :: rest) fsh event ∧
        (state.device dev).done = false ∧ (state.device dev).fsh = false := by
  unfold State.timerRoutine at stuck
  split at stuck
  case h_2 dev rest fsh event position =>
    split at stuck <;> cases stuck
    rename_i notReady
    refine .inr ⟨dev, rest, fsh, event, position, ?_⟩
    simpa using notReady
  case h_6 position => exact .inl position
  case h_1 => split at stuck <;> cases stuck
  case h_3 => split at stuck <;> cases stuck
  case h_4 => cases stuck
  case h_5 => cases stuck

end State

end Timer
end Ossim
