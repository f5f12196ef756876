import Ossim.Scheduler.Mlq

/-!
# Where processes stand

A process that the scheduler manages is held by a CPU or stands in a ready
queue.  `Placed` says that no process is at two of these places and that every
queue holds processes of its own priority only; `Kept` says that no managed
process is without a place.  The operations of the scheduler keep `Placed`
unconditionally.  They keep `Kept` as long as the queue that receives a process
has room for it.
-/

namespace Ossim
namespace Scheduler

/-- What the configuration and the program files say about the processes. -/
structure Workload (P : Type*) where
  prio : P → Nat
  codeSize : P → Nat
  prio_lt : ∀ proc, prio proc < maxPrio

/-- Processes of one priority and one length. -/
def Workload.uniform (prio codeSize : Nat) (inRange : prio < maxPrio) :
    Workload P where
  prio := fun _ => prio
  codeSize := fun _ => codeSize
  prio_lt := fun _ => inRange

/-- Life of a process: before `add_proc`, managed by the scheduler, and freed by
the CPU that finished it. -/
inductive Stage
  | new
  | added
  | finished
  deriving DecidableEq

variable {C P : Type*} {prio : P → Nat} {held : C → Option P}
  {queue : Nat → Queue P} {live : P → Prop}

/-- Every process stands at one place at most, and only managed processes do. -/
structure Placed (prio : P → Nat) (held : C → Option P)
    (queue : Nat → Queue P) (live : P → Prop) : Prop where
  once : ∀ cpu other proc, held cpu = some proc → held other = some proc →
    cpu = other
  notQueued : ∀ cpu proc level, held cpu = some proc →
    proc ∉ (queue level).contents
  ownLevel : ∀ proc level, proc ∈ (queue level).contents → level = prio proc
  heldLive : ∀ cpu proc, held cpu = some proc → live proc
  queuedLive : ∀ proc level, proc ∈ (queue level).contents → live proc

/-- Every managed process has a place. -/
def Kept (prio : P → Nat) (held : C → Option P)
    (queue : Nat → Queue P) (live : P → Prop) : Prop :=
  ∀ proc, live proc →
    (∃ cpu, held cpu = some proc) ∨ proc ∈ (queue (prio proc)).contents

/-- Nothing is placed when no process has been added. -/
theorem Placed.initial :
    Placed prio (fun _ : C => none) (fun _ => Queue.cleared) fun _ : P => False where
  once := by simp
  notQueued := by simp
  ownLevel := by simp
  heldLive := by simp
  queuedLive := by simp

/-- Removing processes from the queues. -/
theorem Placed.mono
    {queue' : Nat → Queue P}
    (placed : Placed prio held queue live)
    (remains : ∀ proc level, proc ∈ (queue' level).contents →
      proc ∈ (queue level).contents) :
    Placed prio held queue' live where
  once := placed.once
  notQueued := fun cpu proc level holds member =>
    placed.notQueued cpu proc level holds (remains proc level member)
  ownLevel := fun proc level member =>
    placed.ownLevel proc level (remains proc level member)
  heldLive := placed.heldLive
  queuedLive := fun proc level member =>
    placed.queuedLive proc level (remains proc level member)

section Hold

variable [DecidableEq C]

/-- After one CPU has got something, a CPU holds what it has got or what it has held
before. -/
theorem holds_of_update
    {cpu other : C}
    {result : Option P}
    {proc : P}
    (holds : Function.update held cpu result other = some proc) :
    (other = cpu ∧ result = some proc) ∨ (other ≠ cpu ∧ held other = some proc) := by
  by_cases same : other = cpu
  · subst same
    rw [Function.update_self] at holds
    exact .inl ⟨rfl, holds⟩
  · rw [Function.update_of_ne same] at holds
    exact .inr ⟨same, holds⟩

/-- A CPU takes a managed process that has no place. -/
theorem Placed.hold
    {proc : P}
    (placed : Placed prio held queue live)
    (cpu : C)
    (alive : live proc)
    (notHeld : ∀ other, held other ≠ some proc)
    (notQueued : ∀ level, proc ∉ (queue level).contents) :
    Placed prio (Function.update held cpu (some proc)) queue live := by
  constructor
  case once =>
    intro first second held' holdsFirst holdsSecond
    rcases holds_of_update holdsFirst with ⟨rfl, ⟨⟩⟩ | ⟨_, old⟩
    · rcases holds_of_update holdsSecond with ⟨rfl, _⟩ | ⟨_, old⟩
      · rfl
      · exact absurd old (notHeld second)
    · rcases holds_of_update holdsSecond with ⟨rfl, ⟨⟩⟩ | ⟨_, old'⟩
      · exact absurd old (notHeld first)
      · exact placed.once first second held' old old'
  case notQueued =>
    intro other held' level holds
    rcases holds_of_update holds with ⟨rfl, ⟨⟩⟩ | ⟨_, old⟩
    · exact notQueued level
    · exact placed.notQueued other held' level old
  case ownLevel => exact placed.ownLevel
  case heldLive =>
    intro other held' holds
    rcases holds_of_update holds with ⟨rfl, ⟨⟩⟩ | ⟨_, old⟩
    · exact alive
    · exact placed.heldLive other held' old
  case queuedLive => exact placed.queuedLive

end Hold

section Fetch

variable [DecidableEq C] {sched next : Sched P} {result : Option P}

/-- Fetching moves the head of one queue to the CPU. -/
theorem Placed.fetch
    (placed : Placed prio held sched.mlqReadyQueue live)
    (fetched : Sched.Fetch sched result next)
    {cpu : C}
    (free : held cpu = none) :
    Placed prio (Function.update held cpu result) next.mlqReadyQueue live := by
  have remains : ∀ proc level, proc ∈ (next.mlqReadyQueue level).contents →
      proc ∈ (sched.mlqReadyQueue level).contents :=
    fun _ _ => fetched.mem
  cases fetched with
  | idle nothing =>
      have unchanged : Function.update held cpu none = held := by
        rw [← free, Function.update_eq_self]
      rw [unchanged]
      exact placed
  | served level proc rest _ inRange head tail others running positive slots =>
      have headMember : proc ∈ (sched.mlqReadyQueue level).contents := by
        simp [head]
      have removed : ∀ at', proc ∉ (next.mlqReadyQueue at').contents := by
        intro at' member
        have here : at' = level :=
          (placed.ownLevel proc at' (remains proc at' member)).trans
            (placed.ownLevel proc level headMember).symm
        subst here
        have distinct := (sched.mlqReadyQueue at').nodup_contents
        rw [head] at distinct
        rw [tail] at member
        exact (List.nodup_cons.mp distinct).1 member
      have notHeld : ∀ other, held other ≠ some proc := fun other holds =>
        placed.notQueued other proc level holds headMember
      exact (placed.mono remains).hold cpu (placed.queuedLive proc level headMember)
        notHeld removed

/-- Fetching loses no process. -/
theorem Kept.fetch
    (kept : Kept prio held sched.mlqReadyQueue live)
    (fetched : Sched.Fetch sched result next)
    {cpu : C}
    (free : held cpu = none) :
    Kept prio (Function.update held cpu result) next.mlqReadyQueue live := by
  have stillHeld : ∀ {proc : P}, (∃ other, held other = some proc) →
      ∃ other, Function.update held cpu result other = some proc := by
    rintro proc ⟨other, holds⟩
    have different : other ≠ cpu := by
      rintro rfl
      simp [free] at holds
    exact ⟨other, by rw [Function.update_of_ne different]; exact holds⟩
  intro proc alive
  rcases kept proc alive with holds | queued
  · exact .inl (stillHeld holds)
  · cases fetched with
    | idle nothing => exact .inr queued
    | served level head rest _ inRange headEq tail others running positive slots =>
        by_cases same : prio proc = level
        · rw [same, headEq, List.mem_cons] at queued
          rcases queued with rfl | later
          · exact .inl ⟨cpu, by simp⟩
          · exact .inr (by rw [same, tail]; exact later)
        · exact .inr (by rw [others _ same]; exact queued)

end Fetch

section Release

variable [DecidableEq C]

/-- Letting go of a process that then has no place keeps the others placed. -/
theorem Placed.release
    (placed : Placed prio held queue live)
    (cpu : C)
    (live' : P → Prop)
    (remain : ∀ proc, live proc → held cpu ≠ some proc → live' proc) :
    Placed prio (Function.update held cpu none) queue live' := by
  have holder : ∀ other proc, Function.update held cpu none other = some proc →
      other ≠ cpu ∧ held other = some proc := by
    intro other proc holds
    rcases holds_of_update holds with ⟨_, ⟨⟩⟩ | old
    exact old
  exact
    { once := fun first second proc holdsFirst holdsSecond =>
        placed.once first second proc (holder _ _ holdsFirst).2
          (holder _ _ holdsSecond).2
      notQueued := fun other proc level holds =>
        placed.notQueued other proc level (holder _ _ holds).2
      ownLevel := placed.ownLevel
      heldLive := by
        intro other proc holds
        obtain ⟨different, old⟩ := holder other proc holds
        refine remain proc (placed.heldLive other proc old) fun same => ?_
        exact different (placed.once other cpu proc old same)
      queuedLive := by
        intro proc level member
        refine remain proc (placed.queuedLive proc level member) fun holds => ?_
        exact placed.notQueued cpu proc level holds member }

/-- Letting go of a process that is no longer managed loses no other. -/
theorem Kept.release
    (kept : Kept prio held queue live)
    (cpu : C)
    {live' : P → Prop}
    (remain : ∀ proc, live' proc → live proc ∧ held cpu ≠ some proc) :
    Kept prio (Function.update held cpu none) queue live' := by
  intro proc alive
  obtain ⟨aliveBefore, notReleased⟩ := remain proc alive
  rcases kept proc aliveBefore with ⟨other, holds⟩ | queued
  · have different : other ≠ cpu := by
      rintro rfl
      exact notReleased holds
    exact .inl ⟨other, by rwa [Function.update_of_ne different]⟩
  · exact .inr queued

end Release

section Enqueue

variable [DecidableEq P]

/-- A queue receives nothing but the process that is put into it. -/
theorem mem_of_mem_update_enqueue
    {proc other : P}
    {level at' : Nat}
    (present : other ∈ ((Function.update queue at'
      ((queue at').enqueue proc)) level).contents) :
    other ∈ (queue level).contents ∨ (other = proc ∧ level = at') := by
  by_cases same : level = at'
  · subst same
    rw [Function.update_self, Queue.contents_enqueue, BoundedFifo.mem_push] at present
    rcases present with old | ⟨rfl, _⟩
    · exact .inl old
    · exact .inr ⟨rfl, rfl⟩
  · rw [Function.update_of_ne same] at present
    exact .inl present

/-- A process without a place may be put into the queue of its priority. -/
theorem Placed.enqueue
    (placed : Placed prio held queue live)
    {proc : P}
    (notHeld : ∀ cpu, held cpu ≠ some proc)
    {live' : P → Prop}
    (alive : live' proc)
    (remain : ∀ other, live other → live' other) :
    Placed prio held
      (Function.update queue (prio proc) ((queue (prio proc)).enqueue proc))
      live' := by
  exact
    { once := placed.once
      notQueued := by
        intro cpu other level holds present
        rcases mem_of_mem_update_enqueue present with old | ⟨rfl, _⟩
        · exact placed.notQueued cpu other level holds old
        · exact notHeld cpu holds
      ownLevel := by
        intro other level present
        rcases mem_of_mem_update_enqueue present with old | ⟨rfl, here⟩
        · exact placed.ownLevel other level old
        · exact here
      heldLive := fun cpu other holds =>
        remain other (placed.heldLive cpu other holds)
      queuedLive := by
        intro other level present
        rcases mem_of_mem_update_enqueue present with old | ⟨rfl, _⟩
        · exact remain other (placed.queuedLive other level old)
        · exact alive }

/-- A queue keeps its processes when another one is put into it. -/
theorem mem_update_enqueue
    {other : P}
    {level : Nat}
    (present : other ∈ (queue level).contents)
    (proc : P)
    (at' : Nat) :
    other ∈ ((Function.update queue at'
      ((queue at').enqueue proc)) level).contents := by
  by_cases same : level = at'
  · subst same
    rw [Function.update_self, Queue.contents_enqueue, BoundedFifo.mem_push]
    exact .inl present
  · rwa [Function.update_of_ne same]

/-- Putting a process into its queue keeps every process, if it arrives there
and no CPU lets go of another one. -/
theorem Kept.enqueue
    (kept : Kept prio held queue live)
    {proc : P}
    {held' : C → Option P}
    {live' : P → Prop}
    (enqueued : proc ∈ ((queue (prio proc)).enqueue proc).contents)
    (stillHeld : ∀ cpu other, other ≠ proc → held cpu = some other →
      held' cpu = some other)
    (remain : ∀ other, other ≠ proc → live' other → live other) :
    Kept prio held'
      (Function.update queue (prio proc) ((queue (prio proc)).enqueue proc))
      live' := by
  intro other alive
  by_cases same : other = proc
  · subst same
    exact .inr (by simpa using enqueued)
  · rcases kept other (remain other same alive) with ⟨cpu, holds⟩ | queued
    · exact .inl ⟨cpu, stillHeld cpu other same holds⟩
    · exact .inr (mem_update_enqueue queued proc _)

/-- A process is in the queue it has been put into exactly when there was room. -/
theorem mem_enqueue_iff_room
    {proc : P}
    (absent : proc ∉ (queue (prio proc)).contents) :
    proc ∈ ((queue (prio proc)).enqueue proc).contents ↔
      (queue (prio proc)).contents.length < maxQueueSize := by
  rw [Queue.contents_enqueue, BoundedFifo.mem_push]
  simp [absent]

end Enqueue

end Scheduler
end Ossim
