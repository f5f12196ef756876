import Ossim.Library.CString
import Ossim.Library.HeapUse
import Ossim.Scheduler.RunningList

/-!
# The PCBs that `sys_killall` frees

`sys_killall` goes through the ready queues and then through `running_list`, and frees
each process of the given name that it meets.  A ready process stands in both, and a
process that a CPU holds stands in `running_list`.
-/

namespace Ossim
namespace Scheduler

open CString Transition

namespace Killall

variable {C P : Type*}

/-- The character `/`. -/
def slash : CChar := ⟨47, by decide⟩

/-- The file name in a path, as both loops of `__sys_killall` compute it. -/
def pname (path : CString) : CString :=
  match strrchr slash path with
  | some found => found.tail
  | none => path

section Loops

variable [DecidableEq P]

/-- The PCBs and the name that `__sys_killall` has read.  The memory of a PCB that is
freed holds anything, and what it holds may depend on all that was done before. -/
structure Target (P : Type*) where
  path : P → CString
  stale : List (HeapUse P) → P → CString
  procName : CString

/-- What `proc->path` is after these uses. -/
def Target.readPath (target : Target P) (uses : List (HeapUse P)) (proc : P) : CString :=
  if .free proc ∈ uses then target.stale uses proc else target.path proc

/-- The loop over a queue, for at most `fuel` iterations: `tmp_queue` after it, and what
was done with the PCBs. -/
def filterLoop (target : Target P) :
    Nat → Queue P → Queue P → List (HeapUse P) → Option (Queue P × List (HeapUse P))
  | 0, _, _, _ => none
  | fuel + 1, queue, tmpQueue, uses =>
      if queue.empty then
        some (tmpQueue, uses)
      else
        match queue.dequeue with
        -- `proc->path` of a null pointer
        | (none, _) => none
        | (some proc, queue) =>
            let name := pname (target.readPath uses proc)
            if strcmp name target.procName ≠ 0 then
              filterLoop target fuel queue (tmpQueue.enqueue proc) (uses ++ [.read proc])
            else
              filterLoop target fuel queue tmpQueue (uses ++ [.read proc, .free proc])

/-- The section that replaces a queue by its `tmp_queue`, unless it is empty.  It stands
once for the ready queues and once for `running_list`. -/
def filterQueue (target : Target P) (queue : Queue P) (uses : List (HeapUse P)) :
    Option (Queue P × List (HeapUse P)) :=
  if queue.empty then
    some (queue, uses)
  else
    filterLoop target (maxQueueSize + 1) queue Queue.cleared uses

/-- The loop over the first `count` priorities. -/
def filterReady (target : Target P) (mlqReadyQueue : Nat → Queue P) :
    Nat → Option ((Nat → Queue P) × List (HeapUse P))
  | 0 => some (mlqReadyQueue, [])
  | prio + 1 => do
      let (queues, uses) ← filterReady target mlqReadyQueue prio
      let (queue, uses) ← filterQueue target (queues prio) uses
      some (Function.update queues prio queue, uses)

/-- `__sys_killall` after it has read the name.  The caller's pointers to the queues are
those that `add_proc` has stored. -/
def sysKillall (target : Target P) (sched : Sched P) :
    Option (Sched P × List (HeapUse P)) := do
  let (queues, uses) ← filterReady target sched.mlqReadyQueue maxPrio
  let (runlist, uses) ← filterQueue target sched.runningList uses
  some ({ sched with mlqReadyQueue := queues, runningList := runlist }, uses)

/-- The process has the given name. -/
def Target.Matches (target : Target P) (proc : P) : Prop :=
  pname (target.path proc) = target.procName

variable {target : Target P}

/-- One iteration reads the process, and frees it if the name that it finds matches. -/
theorem filtered_one (target : Target P) (uses : List (HeapUse P)) (proc : P) :
    HeapUse.Filtered target.Matches [proc] uses
      (if strcmp (pname (target.readPath uses proc)) target.procName ≠ 0 then [.read proc]
        else [.read proc, .free proc]) := by
  split
  · rename_i differs
    apply HeapUse.Filtered.kept
    intro live
    rwa [Target.readPath, if_neg live, Ne, strcmp_eq_zero_iff] at differs
  · rename_i equal
    apply HeapUse.Filtered.freed
    intro live
    rw [Target.readPath, if_neg live, not_not, strcmp_eq_zero_iff] at equal
    exact equal

/-- The loop ends at the empty queue. -/
theorem filterLoop_of_nil
    {queue : Queue P}
    (contents : queue.contents = [])
    (tmpQueue : Queue P)
    (uses : List (HeapUse P))
    (fuel : Nat) :
    filterLoop target (fuel + 1) queue tmpQueue uses = some (tmpQueue, uses) := by
  rw [filterLoop, if_pos ((Queue.empty_eq_true_iff queue).mpr contents)]

/-- An iteration of the loop takes the head of the queue. -/
theorem filterLoop_of_cons
    {queue : Queue P}
    {proc : P}
    {procs : List P}
    (contents : queue.contents = proc :: procs)
    (tmpQueue : Queue P)
    (uses : List (HeapUse P))
    (fuel : Nat) :
    filterLoop target (fuel + 1) queue tmpQueue uses =
      if strcmp (pname (target.readPath uses proc)) target.procName ≠ 0 then
        filterLoop target fuel queue.dequeue.2 (tmpQueue.enqueue proc) (uses ++ [.read proc])
      else
        filterLoop target fuel queue.dequeue.2 tmpQueue (uses ++ [.read proc, .free proc]) := by
  obtain ⟨head, _⟩ := Queue.dequeue_of_contents_cons contents
  have nonempty : ¬ queue.empty = true := by
    rw [Queue.empty_eq_true_iff, contents]
    exact List.cons_ne_nil _ _
  have dequeued : queue.dequeue = (some proc, queue.dequeue.2) := Prod.ext head rfl
  rw [filterLoop, if_neg nonempty, dequeued]

/-- The loop over a queue is a pass over its processes. -/
theorem filterLoop_spec
    (procs : List P) :
    ∀ (queue tmpQueue : Queue P) (uses : List (HeapUse P)) (fuel : Nat),
      queue.contents = procs → procs.length < fuel →
      ∃ tmpQueue' more,
        filterLoop target fuel queue tmpQueue uses = some (tmpQueue', uses ++ more) ∧
          HeapUse.Filtered target.Matches procs uses more := by
  induction procs with
  | nil =>
      rintro queue tmpQueue uses fuel contents enough
      obtain ⟨fuel, rfl⟩ : ∃ rest, fuel = rest + 1 := ⟨fuel - 1, by omega⟩
      refine ⟨tmpQueue, [], ?_, .nil⟩
      rw [filterLoop_of_nil contents, List.append_nil]
  | cons proc procs inductionHypothesis =>
      rintro queue tmpQueue uses fuel contents enough
      obtain ⟨fuel, rfl⟩ : ∃ rest, fuel = rest + 1 := ⟨fuel - 1, by omega⟩
      obtain ⟨_, tail⟩ := Queue.dequeue_of_contents_cons contents
      have one := filtered_one target uses proc
      rw [filterLoop_of_cons contents]
      split
      · rename_i differs
        rw [if_pos differs] at one
        obtain ⟨tmpQueue', more, runs, filtered⟩ :=
          inductionHypothesis queue.dequeue.2 (tmpQueue.enqueue proc) (uses ++ [.read proc])
            fuel tail (Nat.lt_of_succ_lt_succ enough)
        exact ⟨tmpQueue', _, by rw [runs, List.append_assoc], one.append filtered⟩
      · rename_i equal
        rw [if_neg equal] at one
        obtain ⟨tmpQueue', more, runs, filtered⟩ :=
          inductionHypothesis queue.dequeue.2 tmpQueue (uses ++ [.read proc, .free proc])
            fuel tail (Nat.lt_of_succ_lt_succ enough)
        exact ⟨tmpQueue', _, by rw [runs, List.append_assoc], one.append filtered⟩

/-- The section for one queue is a pass over its processes. -/
theorem filterQueue_spec (target : Target P) (queue : Queue P) (uses : List (HeapUse P)) :
    ∃ queue' more, filterQueue target queue uses = some (queue', uses ++ more) ∧
      HeapUse.Filtered target.Matches queue.contents uses more := by
  unfold filterQueue
  split
  · rename_i nothing
    rw [Queue.empty_eq_true_iff] at nothing
    rw [nothing]
    exact ⟨queue, [], by rw [List.append_nil], .nil⟩
  · exact filterLoop_spec queue.contents queue Queue.cleared uses _ rfl
      (Nat.lt_succ_of_le queue.length_contents_le)

/-- The processes in the first `count` ready queues. -/
def readyProcs (mlqReadyQueue : Nat → Queue P) (count : Nat) : List P :=
  (List.range count).flatMap fun prio => (mlqReadyQueue prio).contents

omit [DecidableEq P] in
theorem readyProcs_succ (mlqReadyQueue : Nat → Queue P) (prio : Nat) :
    readyProcs mlqReadyQueue (prio + 1) =
      readyProcs mlqReadyQueue prio ++ (mlqReadyQueue prio).contents := by
  simp [readyProcs, List.range_succ]

/-- The loop over the priorities is a pass over the ready processes, and leaves the
queues ahead of it alone. -/
theorem filterReady_spec (target : Target P) (mlqReadyQueue : Nat → Queue P) (count : Nat) :
    ∃ queues uses, filterReady target mlqReadyQueue count = some (queues, uses) ∧
      (∀ prio, count ≤ prio → queues prio = mlqReadyQueue prio) ∧
        HeapUse.Filtered target.Matches (readyProcs mlqReadyQueue count) [] uses := by
  induction count with
  | zero => exact ⟨mlqReadyQueue, [], rfl, fun _ _ => rfl, .nil⟩
  | succ prio inductionHypothesis =>
      obtain ⟨queues, uses, runs, ahead, filtered⟩ := inductionHypothesis
      obtain ⟨queue, more, replaced, here⟩ := filterQueue_spec target (queues prio) uses
      refine ⟨Function.update queues prio queue, uses ++ more, ?_, ?_, ?_⟩
      · simp [filterReady, runs, replaced]
      · intro later bound
        rw [Function.update_of_ne (by omega)]
        exact ahead later (by omega)
      · rw [ahead prio (Nat.le_refl prio)] at here
        rw [readyProcs_succ]
        exact filtered.append here

/-- The uses of a pass over the ready processes, and of a second one over
`running_list`. -/
structure TwoPasses (target : Target P) (sched : Sched P) (first second : List (HeapUse P)) :
    Prop where
  ready : HeapUse.Filtered target.Matches (readyProcs sched.mlqReadyQueue maxPrio) [] first
  running : HeapUse.Filtered target.Matches sched.runningList.contents first second

/-- `sys_killall` returns after these two passes. -/
theorem sysKillall_spec (target : Target P) (sched : Sched P) :
    ∃ sched' ready running, sysKillall target sched = some (sched', ready ++ running) ∧
      TwoPasses target sched ready running := by
  obtain ⟨queues, ready, runs, _, first⟩ :=
    filterReady_spec target sched.mlqReadyQueue maxPrio
  obtain ⟨runlist, running, replaced, second⟩ :=
    filterQueue_spec target sched.runningList ready
  refine ⟨{ sched with mlqReadyQueue := queues, runningList := runlist }, ready, running, ?_,
    first, second⟩
  simp [sysKillall, runs, replaced]

end Loops

/-! ## When nothing in use is freed -/

open Conservation

variable [DecidableEq P]

/-- No PCB is freed twice, read after it was freed, or freed while a CPU holds it. -/
structure KillsSafely (held : C → Option P) (uses : List (HeapUse P)) : Prop where
  freesOnce : HeapUse.FreesOnce uses
  readsLive : HeapUse.ReadsLive uses
  notHeld : ∀ cpu proc, held cpu = some proc → .free proc ∉ uses

/-- `running_list` holds the unfinished processes, each of these that no CPU holds stands
in the ready queue of its priority, and no other process stands in a ready queue. -/
structure Listed (workload : Workload P) (state : State C P) : Prop where
  runningList : RunningListExact state
  ready : ∀ proc, state.Live proc → (∀ cpu, state.held cpu ≠ some proc) →
    proc ∈ (state.sched.mlqReadyQueue (workload.prio proc)).contents
  queuedLive : ∀ proc level, proc ∈ (state.sched.mlqReadyQueue level).contents →
    state.Live proc

variable {workload : Workload P} {state : State C P} {target : Target P} {proc : P}
  {ready running : List (HeapUse P)}

/-- The scheduler is in such a state after every run in which no process is added to a
full list or queue, or put back to a full queue, and none finishes. -/
theorem listed_of_run
    [DecidableEq C]
    (run : Run (step workload)
      (fun state event => HasRoom workload state event ∧ KeepsRunningList state event)
      init state) :
    Listed workload state := by
  have reached : state.Placed workload ∧ state.Kept workload ∧ RunningListExact state := by
    refine run.invariant (fun state =>
      state.Placed workload ∧ state.Kept workload ∧ RunningListExact state) ?step ?start
    case start =>
      refine ⟨init_placed workload, ?_, fun _ => rfl⟩
      intro proc live
      simp [init, State.Live] at live
    case step =>
      rintro state event next ⟨placed, kept, exact⟩ ⟨room, keeps⟩ taken
      exact ⟨step_placed event placed taken, (step_kept_iff event placed kept taken).mpr room,
        (step_runningList_iff event placed exact taken).mpr keeps⟩
  obtain ⟨placed, kept, exact⟩ := reached
  refine ⟨exact, ?_, placed.queuedLive⟩
  intro proc live notHeld
  rcases kept proc live with ⟨cpu, holds⟩ | queued
  · exact absurd holds (notHeld cpu)
  · exact queued

omit [DecidableEq P] in
/-- The first pass meets every process of a ready queue. -/
theorem mem_readyProcs_iff {mlqReadyQueue : Nat → Queue P} :
    proc ∈ readyProcs mlqReadyQueue maxPrio ↔
      ∃ prio < maxPrio, proc ∈ (mlqReadyQueue prio).contents := by
  simp [readyProcs]

namespace Listed

/-- The second pass meets every unfinished process. -/
theorem mem_runningList (listed : Listed workload state) :
    proc ∈ state.sched.runningList.contents ↔ state.Live proc :=
  runningListExact_iff_mem.mp listed.runningList proc

/-- A ready process of the name is freed in the first pass and read in the second. -/
theorem not_readsLive
    (listed : Listed workload state)
    (matching : target.Matches proc)
    (queued : proc ∈ readyProcs state.sched.mlqReadyQueue maxPrio)
    (passes : TwoPasses target state.sched ready running) :
    ¬ HeapUse.ReadsLive (ready ++ running) := by
  intro live
  obtain ⟨level, _, member⟩ := mem_readyProcs_iff.mp queued
  have isRead : .read proc ∈ running :=
    (passes.running.read_mem proc).mpr
      (listed.mem_runningList.mpr (listed.queuedLive proc level member))
  exact live.not_free isRead
    ((passes.ready.free_mem proc List.not_mem_nil).mpr ⟨queued, matching⟩)

/-- An unfinished process of the name that stands in no ready queue is held, and is freed
in the second pass. -/
theorem held_and_freed
    (listed : Listed workload state)
    (unfinished : state.Live proc)
    (matching : target.Matches proc)
    (notQueued : proc ∉ readyProcs state.sched.mlqReadyQueue maxPrio)
    (passes : TwoPasses target state.sched ready running) :
    (∃ cpu, state.held cpu = some proc) ∧ .free proc ∈ ready ++ running := by
  constructor
  · by_contra notHeld
    apply notQueued
    rw [mem_readyProcs_iff]
    exact ⟨workload.prio proc, workload.prio_lt proc,
      listed.ready proc unfinished fun cpu holds => notHeld ⟨cpu, holds⟩⟩
  · have live : .free proc ∉ ready := fun freed =>
      notQueued ((passes.ready.free_mem proc List.not_mem_nil).mp freed).1
    apply List.mem_append_right
    exact (passes.running.free_mem proc live).mpr ⟨listed.mem_runningList.mpr unfinished, matching⟩

/-- No process is freed when no unfinished process has the name. -/
theorem free_not_mem
    (listed : Listed workload state)
    (none : ∀ proc, state.Live proc → ¬ target.Matches proc)
    (passes : TwoPasses target state.sched ready running)
    (proc : P) :
    .free proc ∉ ready ++ running := by
  have both := passes.ready.append (passes.running : HeapUse.Filtered _ _ ([] ++ ready) _)
  refine both.free_not_mem ?_ proc
  intro other member
  rcases List.mem_append.mp member with queued | enlisted
  · obtain ⟨level, _, inLevel⟩ := mem_readyProcs_iff.mp queued
    exact none other (listed.queuedLive other level inLevel)
  · exact none other (listed.mem_runningList.mp enlisted)

end Listed

/-- `sys_killall` frees safely exactly if it finds no unfinished process of the name. -/
theorem killsSafely_iff_noMatch
    (workload : Workload P)
    (state : State C P)
    (target : Target P)
    (listed : Listed workload state) :
    ∃ sched uses, sysKillall target state.sched = some (sched, uses) ∧
      (KillsSafely state.held uses ↔ ∀ proc, state.Live proc → ¬ target.Matches proc) := by
  obtain ⟨sched, ready, running, runs, passes⟩ := sysKillall_spec target state.sched
  refine ⟨sched, ready ++ running, runs, ?_, ?_⟩
  · intro safe proc unfinished matching
    by_cases queued : proc ∈ readyProcs state.sched.mlqReadyQueue maxPrio
    · exact listed.not_readsLive matching queued passes safe.readsLive
    · obtain ⟨⟨cpu, holds⟩, freed⟩ :=
        listed.held_and_freed unfinished matching queued passes
      exact safe.notHeld cpu proc holds freed
  · intro none
    have nothing := listed.free_not_mem none passes
    exact ⟨.of_none nothing, .of_none nothing, fun _ proc _ => nothing proc⟩

/-! ## A caller and a ready process -/

/-- The file names `sc2` and `P0`, in the directory of the programs. -/
def programPath (proc : Nat) : CString :=
  ofBytes ([105, 110, 112, 117, 116, 47, 112, 114, 111, 99, 47] ++
    if proc = 0 then [115, 99, 50] else [80, 48])

/-- Processes of these paths, whose memory is left as it is by `free`. -/
def programs (procName : List (BitVec 8)) : Target Nat where
  path := programPath
  stale := fun _ => programPath
  procName := ofBytes procName

/-- Two processes are added, and the first is fetched and runs. -/
def callerAndReady : List (Event (Fin 1) Nat) :=
  [.addProc 0, .addProc 1, .getProc ⟨0, Nat.one_pos⟩]

/-- The two processes are listed, and the first is held by the CPU. -/
theorem listed_callerAndReady :
    ∃ state, replay (step crowdedWorkload) init callerAndReady = some state ∧
      Listed crowdedWorkload state ∧ state.held 0 = some 0 := by
  refine ⟨_, rfl, listed_of_run (Run.of_replay callerAndReady init ?_ rfl), by decide +kernel⟩
  refine ⟨⟨?_, ?_⟩, ⟨?_, ?_⟩, ⟨trivial, trivial⟩, trivial⟩
  all_goals
    simp only [HasRoom, KeepsRunningList]
    decide

/-- A process named `X` is not found, so `sys_killall` frees nothing. -/
theorem killsSafely_iff_noMatch_callerAndReady :
    ∃ state, replay (step crowdedWorkload) init callerAndReady = some state ∧
      ∃ sched uses, sysKillall (programs [88]) state.sched = some (sched, uses) ∧
        (KillsSafely state.held uses ↔
          ∀ proc, state.Live proc → ¬ (programs [88]).Matches proc) := by
  obtain ⟨state, reaches, listed, _⟩ := listed_callerAndReady
  exact ⟨state, reaches, killsSafely_iff_noMatch crowdedWorkload state (programs [88]) listed⟩

/-- The ready process `P0` is freed, read and freed again, and the caller `sc2` is freed
while it is held. -/
theorem killed_twice_and_held :
    ∃ state, replay (step crowdedWorkload) init callerAndReady = some state ∧
      Listed crowdedWorkload state ∧ state.held 0 = some 0 ∧
      (∃ sched uses, sysKillall (programs [80, 48]) state.sched = some (sched, uses) ∧
        uses = [.read 1, .free 1, .read 0, .read 1, .free 1] ∧
        ¬ KillsSafely state.held uses) ∧
      ∃ sched uses, sysKillall (programs [115, 99, 50]) state.sched = some (sched, uses) ∧
        uses = [.read 1, .read 0, .free 0, .read 1] ∧ ¬ KillsSafely state.held uses := by
  obtain ⟨state, reaches, listed, holds⟩ := listed_callerAndReady
  have evaluated : (replay (step crowdedWorkload) init callerAndReady).map (fun state =>
      ((sysKillall (programs [80, 48]) state.sched).map (·.2),
        (sysKillall (programs [115, 99, 50]) state.sched).map (·.2))) =
      some (some [.read 1, .free 1, .read 0, .read 1, .free 1],
        some [.read 1, .read 0, .free 0, .read 1]) := by decide +kernel
  rw [reaches, Option.map_some, Option.some.injEq, Prod.mk.injEq, Option.map_eq_some_iff,
    Option.map_eq_some_iff] at evaluated
  obtain ⟨⟨⟨sched, _⟩, ready, rfl⟩, ⟨sched', _⟩, caller, rfl⟩ := evaluated
  refine ⟨state, reaches, listed, holds, ⟨sched, _, ready, rfl, ?_⟩, sched', _, caller, rfl, ?_⟩
  · intro safe
    exact absurd (safe.freesOnce 1) (by decide)
  · intro safe
    exact safe.notHeld 0 0 holds (by decide)

end Killall
end Scheduler
end Ossim
