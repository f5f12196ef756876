import Ossim.Memory.Isolation
import Ossim.Memory.NameLoop
import Ossim.Os.Loader
import Ossim.Scheduler.Killall
import Mathlib.Data.List.Flatten

/-!
# Killing by name

`__sys_killall` from the name in the memory of the caller to the queues.  The file
name of a process is compared as `load` has kept it: `snprintf` is given the size of a
pointer, so of the path `input/proc/n` only five characters of `n` are left.  A process
that is freed by way of its ready queue is read again by way of `running_list`.
-/

namespace Ossim
namespace Scheduler
namespace Killall

open CString

variable {P : Type*} [DecidableEq P]

/-! ## What is left in the queues -/

section Contents

variable {target : Target P} {selected : P → Bool} {uses uses' : List (HeapUse P)}
  {queue queue' tmpQueue : Queue P}

/-- Whatever is done in the meantime, a process is found to have the name exactly if it
is selected. -/
def ReadsAs (target : Target P) (uses : List (HeapUse P)) (selected : P → Bool) (proc : P) :
    Prop :=
  ∀ more, .free proc ∉ more →
    (pname (target.readPath (uses ++ more) proc) = target.procName ↔ selected proc = true)

theorem ReadsAs.more
    {proc : P}
    (readsAs : ReadsAs target uses selected proc)
    (more : List (HeapUse P))
    (others : .free proc ∉ more) :
    ReadsAs target (uses ++ more) selected proc := by
  intro later notFreed
  rw [List.append_assoc]
  exact readsAs (more ++ later) (by simp [others, notFreed])

/-- The loop over a queue keeps the processes that are not selected, in order. -/
theorem contents_filterLoop
    (procs : List P) :
    ∀ (queue tmpQueue : Queue P) (uses : List (HeapUse P)) (fuel : Nat),
      queue.contents = procs → (tmpQueue.contents ++ procs).Nodup →
      tmpQueue.contents.length + procs.length ≤ maxQueueSize →
      (∀ proc ∈ procs, ReadsAs target uses selected proc) →
      filterLoop target fuel queue tmpQueue uses = some (queue', uses') →
      queue'.contents = tmpQueue.contents ++ procs.filter fun proc => !selected proc := by
  induction procs with
  | nil =>
      intro queue tmpQueue uses fuel contents _ _ _ looped
      cases fuel with
      | zero => cases looped
      | succ fuel =>
          rw [filterLoop_of_nil contents] at looped
          cases looped
          simp
  | cons proc procs inductionHypothesis =>
      intro queue tmpQueue uses fuel contents distinct room readsAs looped
      cases fuel with
      | zero => cases looped
      | succ fuel =>
          obtain ⟨_, tail⟩ := Queue.dequeue_of_contents_cons contents
          rw [filterLoop_of_cons contents] at looped
          have found := readsAs proc (List.mem_cons_self ..) [] List.not_mem_nil
          rw [List.append_nil] at found
          have absent : proc ∉ tmpQueue.contents ∧ proc ∉ procs := by
            rw [List.nodup_append, List.nodup_cons] at distinct
            exact ⟨fun member => distinct.2.2 proc member proc (List.mem_cons_self ..) rfl,
              distinct.2.1.1⟩
          have others : ∀ other ∈ procs, ∀ use : List (HeapUse P),
              use = [.read proc] ∨ use = [.read proc, .free proc] →
              ReadsAs target (uses ++ use) selected other := by
            intro other member use isUse
            refine (readsAs other (List.mem_cons_of_mem _ member)).more use ?_
            have different : other ≠ proc := fun same => absent.2 (same ▸ member)
            rcases isUse with rfl | rfl <;> simp [different]
          simp only [List.length_cons] at room
          split at looped
          · rename_i differs
            rw [Ne, strcmp_eq_zero_iff, found] at differs
            have pushed : (tmpQueue.enqueue proc).contents = tmpQueue.contents ++ [proc] := by
              rw [Queue.contents_enqueue, BoundedFifo.push_of_room (by omega) absent.1]
            have kept := inductionHypothesis queue.dequeue.2 (tmpQueue.enqueue proc) _ fuel tail
              (by rw [pushed, List.append_assoc]; exact distinct)
              (by rw [pushed, List.length_append]; simp only [List.length_singleton]; omega)
              (fun other member => others other member _ (Or.inl rfl)) looped
            rw [kept, pushed, List.filter_cons_of_pos (by simp [differs]), List.append_assoc]
            rfl
          · rename_i equal
            rw [not_not, strcmp_eq_zero_iff, found] at equal
            have kept := inductionHypothesis queue.dequeue.2 tmpQueue _ fuel tail
              (distinct.sublist (List.Sublist.append_left (List.sublist_cons_self _ _) _))
              (by omega)
              (fun other member => others other member _ (Or.inr rfl)) looped
            rw [kept, List.filter_cons_of_neg (by simp [equal])]

/-- The section for one queue keeps the processes that are not selected, in order. -/
theorem contents_filterQueue
    (readsAs : ∀ proc ∈ queue.contents, ReadsAs target uses selected proc)
    (replaced : filterQueue target queue uses = some (queue', uses')) :
    queue'.contents = queue.contents.filter fun proc => !selected proc := by
  unfold filterQueue at replaced
  split at replaced
  · rename_i nothing
    cases replaced
    rw [Queue.empty_eq_true_iff] at nothing
    rw [nothing, List.filter_nil]
  · have kept : queue'.contents =
        Queue.cleared.contents ++ queue.contents.filter fun proc => !selected proc :=
      contents_filterLoop queue.contents queue Queue.cleared uses _ rfl
        (by simpa using queue.nodup_contents) (by simpa using queue.length_contents_le)
        readsAs replaced
    simpa using kept

/-- Each ready queue is replaced after a pass over those of the higher priorities. -/
theorem filterReady_queue
    {mlqReadyQueue queues : Nat → Queue P}
    {count prio : Nat}
    (runs : filterReady target mlqReadyQueue count = some (queues, uses))
    (inRange : prio < count) :
    ∃ before after,
      HeapUse.Filtered target.Matches (readyProcs mlqReadyQueue prio) [] before ∧
        filterQueue target (mlqReadyQueue prio) before = some (queues prio, after) := by
  induction count generalizing queues uses with
  | zero => omega
  | succ count inductionHypothesis =>
      simp only [filterReady, Option.bind_eq_bind, Option.bind_eq_some_iff] at runs
      obtain ⟨⟨queues', uses'⟩, earlier, ⟨queue, after⟩, replaced, same⟩ := runs
      cases same
      obtain ⟨_, _, again, ahead, filtered⟩ := filterReady_spec target mlqReadyQueue count
      rw [earlier] at again
      cases again
      by_cases last : prio = count
      · subst last
        rw [Function.update_self]
        dsimp only at replaced
        rw [ahead prio le_rfl] at replaced
        exact ⟨uses', after, filtered, replaced⟩
      · rw [Function.update_of_ne last]
        exact inductionHypothesis earlier (by omega)

/-- The queues in the order in which `__sys_killall` goes through them: the ready
queues, and `running_list` behind them. -/
def visited (sched : Sched P) : Nat → Queue P :=
  fun index => if index < maxPrio then sched.mlqReadyQueue index else sched.runningList

/-- The processes that `__sys_killall` meets, in order. -/
def listed (sched : Sched P) : List P :=
  readyProcs (visited sched) (maxPrio + 1)

omit [DecidableEq P] in
theorem readyProcs_visited
    (sched : Sched P)
    {count : Nat}
    (inRange : count ≤ maxPrio) :
    readyProcs (visited sched) count = readyProcs sched.mlqReadyQueue count := by
  unfold readyProcs
  apply List.flatMap_congr
  intro prio member
  have below := List.mem_range.mp member
  rw [visited, if_pos (by omega)]

omit [DecidableEq P] in
theorem listed_eq (sched : Sched P) :
    listed sched =
      readyProcs sched.mlqReadyQueue maxPrio ++ sched.runningList.contents := by
  rw [listed, readyProcs_succ, readyProcs_visited sched le_rfl, visited, if_neg (by omega)]

/-- Each queue is replaced after a pass over those in front of it. -/
theorem sysKillall_queue
    {sched sched' : Sched P}
    (runs : sysKillall target sched = some (sched', uses))
    {index : Nat}
    (inRange : index < maxPrio + 1) :
    ∃ before after,
      HeapUse.Filtered target.Matches (readyProcs (visited sched) index) [] before ∧
        filterQueue target (visited sched index) before =
          some (visited sched' index, after) := by
  simp only [sysKillall, Option.bind_eq_bind, Option.bind_eq_some_iff] at runs
  obtain ⟨⟨queues, before⟩, ready, ⟨runlist, after⟩, replaced, same⟩ := runs
  cases same
  rw [readyProcs_visited sched (Nat.le_of_lt_succ inRange)]
  rcases Nat.lt_succ_iff_lt_or_eq.mp inRange with isReady | rfl
  · simpa [visited, isReady] using filterReady_queue ready isReady
  · obtain ⟨_, _, again, _, filtered⟩ :=
      filterReady_spec target sched.mlqReadyQueue maxPrio
    rw [ready] at again
    cases again
    exact ⟨before, after, filtered, by simpa [visited] using replaced⟩

end Contents

section Twice

variable {queues : Nat → Queue P} {count : Nat} {proc : P}

omit [DecidableEq P] in
theorem mem_readyProcs :
    proc ∈ readyProcs queues count ↔ ∃ index < count, proc ∈ (queues index).contents := by
  simp [readyProcs]

/-- A process that is met once is not met in an earlier queue. -/
theorem notMem_of_count_le
    {index : Nat}
    (once : (readyProcs queues count).count proc ≤ 1)
    (inRange : index < count)
    (member : proc ∈ (queues index).contents) :
    proc ∉ readyProcs queues index := by
  intro earlier
  have both : 2 ≤ (readyProcs queues (index + 1)).count proc := by
    rw [readyProcs_succ, List.count_append]
    have first := List.count_pos_iff.mpr earlier
    have second := List.count_pos_iff.mpr member
    omega
  have sublist : (readyProcs queues (index + 1)).Sublist (readyProcs queues count) := by
    rw [readyProcs, readyProcs]
    exact List.Sublist.flatMap (List.range_sublist.mpr inRange) _
  have bound := sublist.count_le proc
  omega

/-- A process that is met more than once is met in a queue behind an earlier one. -/
theorem exists_twice
    (twice : 1 < (readyProcs queues count).count proc) :
    ∃ index < count, proc ∈ (queues index).contents ∧ proc ∈ readyProcs queues index := by
  induction count with
  | zero => simp [readyProcs] at twice
  | succ count inductionHypothesis =>
      by_cases again : 1 < (readyProcs queues count).count proc
      · obtain ⟨index, inRange, both⟩ := inductionHypothesis again
        exact ⟨index, by omega, both⟩
      · rw [readyProcs_succ, List.count_append] at twice
        have single := List.nodup_iff_count_le_one.mp (queues count).nodup_contents proc
        exact ⟨count, by omega, List.count_pos_iff.mp (by omega),
          List.count_pos_iff.mp (by omega)⟩

end Twice

end Killall
end Scheduler

/-! ## The name of a process -/

namespace Os

open CString Memory Scheduler Scheduler.Killall

/-- The directory of the programs, `input/proc`. -/
def procDir : CString :=
  ofBytes [105, 110, 112, 117, 116, 47, 112, 114, 111, 99]

/-- The path that `read_config` makes of a file name. -/
def configPath (name : CString) : CString := procDir ++ slash :: name

variable {P : Type} [DecidableEq P]

/-- Processes that were loaded from the files of these names. -/
def loaded (names : P → CString) (stale : List (HeapUse P) → P → CString)
    (procName : CString) : Target P where
  path := fun proc => loadPath (configPath (names proc))
  stale := stale
  procName := procName

/-- `__sys_killall`: the name is read, in as many iterations as `proc_name` has elements,
and then the queues are rebuilt. -/
def sysKillallByName (garbage : Nat → Byte) (mem : Mem P) (caller : P) (memrg : Nat)
    (names : P → CString) (stale : List (HeapUse P) → P → CString) (sched : Sched P) :
    Option (Sched P × List (HeapUse P)) := do
  let (stores, _) ← readName garbage caller memrg procNameSize 0 mem
  sysKillall (loaded names stale (ofBytes (stores.map Prod.snd))) sched

/-- The processes of other names are left, in their order. -/
structure KillsExactly (names : P → CString) (string : CString) (sched sched' : Sched P) :
    Prop where
  ready : ∀ prio, prio < maxPrio → (sched'.mlqReadyQueue prio).contents =
    (sched.mlqReadyQueue prio).contents.filter fun proc => names proc ≠ string
  running : sched'.runningList.contents =
    sched.runningList.contents.filter fun proc => names proc ≠ string

/-- Whatever the memory of freed processes holds, the processes of the name are killed
and no other ones. -/
def KillsByName (garbage : Nat → Byte) (mem : Mem P) (caller : P) (memrg : Nat)
    (names : P → CString) (string : CString) (sched : Sched P) : Prop :=
  ∀ stale, ∃ sched' uses,
    sysKillallByName garbage mem caller memrg names stale sched = some (sched', uses) ∧
      KillsExactly names string sched sched'

/-- The last slash of a path to a name without one. -/
theorem strrchr_append
    {name : CString}
    (dir : CString)
    (noSlash : slash ∉ name) :
    strrchr slash (dir ++ slash :: name) = some (slash :: name) := by
  have behind : strrchr slash name = none := by
    induction name with
    | nil => rfl
    | cons char rest inductionHypothesis =>
        simp only [List.mem_cons, not_or] at noSlash
        rw [strrchr, inductionHypothesis noSlash.2, if_neg (Ne.symm noSlash.1)]
  induction dir with
  | nil => rw [List.nil_append, strrchr, behind, if_pos rfl]
  | cons char rest inductionHypothesis =>
      rw [List.cons_append, strrchr, inductionHypothesis]

/-- Five characters of the file name are kept. -/
theorem pname_loadPath
    {name : CString}
    (noSlash : slash ∉ name) :
    pname (loadPath (configPath name)) = name.take 5 := by
  have kept : loadPath (configPath name) = procDir ++ slash :: name.take 5 := rfl
  rw [kept, pname, strrchr_append _ fun member => noSlash (List.mem_of_mem_take member)]
  rfl

section Kills

variable {names : P → CString} {string : CString} {sched sched' : Sched P}
  {stale : List (HeapUse P) → P → CString}

omit [DecidableEq P] in
theorem loaded_matches_iff
    (noSlash : ∀ proc, slash ∉ names proc)
    (proc : P) :
    (loaded names stale string).Matches proc ↔ (names proc).take 5 = string := by
  rw [Target.Matches, loaded, pname_loadPath (noSlash proc)]

omit [DecidableEq P] in
/-- The property of all queues together. -/
theorem killsExactly_iff :
    KillsExactly names string sched sched' ↔
      ∀ index, index < maxPrio + 1 → (visited sched' index).contents =
        (visited sched index).contents.filter fun proc => names proc ≠ string := by
  constructor
  · rintro ⟨ready, running⟩ index inRange
    rcases Nat.lt_succ_iff_lt_or_eq.mp inRange with isReady | rfl
    · simpa [visited, isReady] using ready index isReady
    · simpa [visited] using running
  · intro every
    refine ⟨fun prio inRange => ?_, ?_⟩
    · have queue := every prio (Nat.lt_succ_of_lt inRange)
      rwa [visited, visited, if_pos inRange, if_pos inRange] at queue
    · have queue := every maxPrio (Nat.lt_succ_self _)
      rwa [visited, visited, if_neg (Nat.lt_irrefl _), if_neg (Nat.lt_irrefl _)] at queue

/-- If the memory of a freed process is left as it is, the processes are selected by the
kept names. -/
theorem readsAs_untouched
    (noSlash : ∀ proc, slash ∉ names proc)
    (uses : List (HeapUse P))
    (proc : P) :
    ReadsAs (loaded names (fun _ proc => loadPath (configPath (names proc))) string) uses
      (fun proc => (names proc).take 5 = string) proc := by
  intro more _
  have path : (loaded names (fun _ proc => loadPath (configPath (names proc))) string).readPath
      (uses ++ more) proc = loadPath (configPath (names proc)) := by
    rw [Target.readPath]
    split <;> rfl
  rw [path, pname_loadPath (noSlash proc), loaded, decide_eq_true_iff]

/-- If the memory of a freed process holds another name, it is not selected again. -/
theorem readsAs_overwritten
    (noSlash : ∀ proc, slash ∉ names proc)
    {other : CString}
    (different : pname other ≠ string)
    (uses : List (HeapUse P))
    (proc : P) :
    ReadsAs (loaded names (fun _ _ => other) string) uses
      (fun proc => .free proc ∉ uses ∧ (names proc).take 5 = string) proc := by
  intro more notFreed
  rw [decide_eq_true_iff]
  by_cases freed : .free proc ∈ uses
  · have path : (loaded names (fun _ _ => other) string).readPath (uses ++ more) proc =
        other := by
      rw [Target.readPath, if_pos (List.mem_append_left _ freed)]
      rfl
    rw [path]
    exact iff_of_false different fun both => both.1 freed
  · have path : (loaded names (fun _ _ => other) string).readPath (uses ++ more) proc =
        loadPath (configPath (names proc)) := by
      rw [Target.readPath, if_neg (by simp [freed, notFreed])]
      rfl
    rw [path, pname_loadPath (noSlash proc)]
    exact ⟨fun same => ⟨freed, same⟩, fun both => both.2⟩

/-- What is compared is right for every process that is met, and none that is killed is
met twice. -/
structure Distinguished (names : P → CString) (string : CString) (sched : Sched P) : Prop where
  kept : ∀ proc ∈ listed sched, ((names proc).take 5 = string ↔ names proc = string)
  once : ∀ proc, names proc = string → (listed sched).count proc ≤ 1

/-- The kept names tell the processes of the name apart. -/
theorem kept_of_kills
    (noSlash : ∀ proc, slash ∉ names proc)
    (kills : ∀ stale, ∃ sched' uses,
      sysKillall (loaded names stale string) sched = some (sched', uses) ∧
        KillsExactly names string sched sched')
    {proc : P}
    (met : proc ∈ listed sched) :
    (names proc).take 5 = string ↔ names proc = string := by
  obtain ⟨sched', uses, runs, exactly⟩ := kills fun _ proc => loadPath (configPath (names proc))
  obtain ⟨index, inRange, member⟩ := mem_readyProcs.mp met
  obtain ⟨before, after, _, replaced⟩ := sysKillall_queue runs inRange
  have found := contents_filterQueue (fun proc _ => readsAs_untouched noSlash before proc) replaced
  have wanted := killsExactly_iff.mp exactly index inRange
  have both := congrArg (proc ∈ ·) (found.symm.trans wanted)
  simpa [member, not_iff_not] using both

/-- A process of the name that is met twice is left the second time, if the freed memory
holds another name. -/
theorem once_of_kills
    (noSlash : ∀ proc, slash ∉ names proc)
    (kills : ∀ stale, ∃ sched' uses,
      sysKillall (loaded names stale string) sched = some (sched', uses) ∧
        KillsExactly names string sched sched')
    {proc : P}
    (isNamed : names proc = string) :
    (listed sched).count proc ≤ 1 := by
  by_contra twice
  obtain ⟨index, inRange, member, earlier⟩ := exists_twice (Nat.not_le.mp twice)
  obtain ⟨other, different⟩ : ∃ other : CString, pname other ≠ string := by
    cases string with
    | nil => exact ⟨[⟨88, by decide⟩], by decide⟩
    | cons char rest => exact ⟨[], by simp [pname, strrchr]⟩
  obtain ⟨sched', uses, runs, exactly⟩ := kills fun _ _ => other
  obtain ⟨before, after, filtered, replaced⟩ := sysKillall_queue runs inRange
  have met : proc ∈ listed sched := mem_readyProcs.mpr ⟨index, inRange, member⟩
  have freed : .free proc ∈ before :=
    (filtered.free_mem proc List.not_mem_nil).mpr
      ⟨earlier, (loaded_matches_iff noSlash proc).mpr
        ((kept_of_kills noSlash kills met).mpr isNamed)⟩
  have found := contents_filterQueue
    (fun proc _ => readsAs_overwritten noSlash different before proc) replaced
  have wanted := killsExactly_iff.mp exactly index inRange
  have both := congrArg (proc ∈ ·) (found.symm.trans wanted)
  simp [member, freed, isNamed] at both

theorem Distinguished.kills
    (distinguished : Distinguished names string sched)
    (noSlash : ∀ proc, slash ∉ names proc)
    (stale : List (HeapUse P) → P → CString) :
    ∃ sched' uses, sysKillall (loaded names stale string) sched = some (sched', uses) ∧
      KillsExactly names string sched sched' := by
  obtain ⟨sched', ready, running, runs, _⟩ := sysKillall_spec (loaded names stale string) sched
  refine ⟨sched', _, runs, killsExactly_iff.mpr ?_⟩
  intro index inRange
  obtain ⟨before, after, filtered, replaced⟩ := sysKillall_queue runs inRange
  have readsAs : ∀ proc ∈ (visited sched index).contents,
      ReadsAs (loaded names stale string) before (fun proc => names proc = string) proc := by
    intro proc member more notFreed
    have met : proc ∈ listed sched := mem_readyProcs.mpr ⟨index, inRange, member⟩
    -- no process of the name was met before, so none that is read has been freed
    have live : .free proc ∉ before := by
      intro freed
      obtain ⟨earlier, matching⟩ := (filtered.free_mem proc List.not_mem_nil).mp freed
      have isNamed := (distinguished.kept proc met).mp
        ((loaded_matches_iff noSlash proc).mp matching)
      exact notMem_of_count_le (distinguished.once proc isNamed) inRange member earlier
    rw [Target.readPath, if_neg (by simp [live, notFreed]), decide_eq_true_iff,
      ← distinguished.kept proc met]
    exact loaded_matches_iff noSlash proc
  simpa using contents_filterQueue readsAs replaced

/-- The passes over the queues kill exactly the processes of the name, for every content
of freed memory. -/
theorem killsExactly_sysKillall_iff
    (noSlash : ∀ proc, slash ∉ names proc) :
    (∀ stale, ∃ sched' uses, sysKillall (loaded names stale string) sched = some (sched', uses) ∧
        KillsExactly names string sched sched') ↔
      Distinguished names string sched := by
  constructor
  · intro kills
    exact ⟨fun _ met => kept_of_kills noSlash kills met,
      fun _ isNamed => once_of_kills noSlash kills isNamed⟩
  · intro distinguished stale
    exact distinguished.kills noSlash stale

end Kills

/-- A stored string is read into `proc_name`. -/
theorem killsByName_of_stored
    {garbage : Nat → Byte}
    {mem : Mem P}
    {caller : P}
    {memrg : Nat}
    {names : P → CString}
    {string : CString}
    {sched : Sched P}
    (short : string.length ≤ 99)
    (stored : StoredName garbage mem caller memrg 0 string) :
    KillsByName garbage mem caller memrg names string sched ↔
      ∀ stale, ∃ sched' uses,
        sysKillall (loaded names stale string) sched = some (sched', uses) ∧
          KillsExactly names string sched sched' := by
  obtain ⟨stores, after, reads, contents⟩ : ∃ stores after,
      readName garbage caller memrg procNameSize 0 mem = some (stores, after) ∧
        ofBytes (stores.map Prod.snd) = string :=
    readName_of_storedName rfl stored (Nat.lt_succ_of_le short)
  have called : ∀ stale, sysKillallByName garbage mem caller memrg names stale sched =
      sysKillall (loaded names stale string) sched := by
    intro stale
    simp [sysKillallByName, reads, contents]
  simp only [KillsByName, called]

/-- `killall` kills exactly the named processes, for a string that is stored in the
region of the caller, if and only if every process that it meets has this name exactly
when the first five characters of its name are the string, and it meets no process of the
name twice. -/
theorem killsByName_iff
    (garbage : Nat → Byte)
    (mem : Mem P)
    (caller : P)
    (memrg : Nat)
    (names : P → CString)
    (string : CString)
    (sched : Sched P)
    (noSlash : ∀ proc, slash ∉ names proc)
    (short : string.length ≤ 99)
    (stored : StoredName garbage mem caller memrg 0 string) :
    KillsByName garbage mem caller memrg names string sched ↔
      Distinguished names string sched := by
  rw [killsByName_of_stored short stored]
  exact killsExactly_sysKillall_iff noSlash

/-- The names `sc2` and `worker`. -/
def twoNames (proc : Fin 2) : CString :=
  ofBytes (if proc.val = 0 then [115, 99, 50] else [119, 111, 114, 107, 101, 114])

/-- Process 0 runs and process 1 is ready. -/
def oneReady : Sched (Fin 2) :=
  ((Sched.init.enlistRunning ⟨0, by decide⟩).enlistRunning ⟨1, by decide⟩).putMlqProc 0
    ⟨1, by decide⟩

/-- Process 0 allocates a region and stores the name of a process and the byte -1 in it. -/
def storing (proc : Fin 2) : List (Memory.Event (Fin 2)) :=
  ⟨⟨0, by decide⟩, .alloc 300 0⟩ ::
    (((twoNames proc).map Subtype.val ++ [nameEnd]).zipIdx.map fun store =>
      ⟨⟨0, by decide⟩, .write store.1 0 store.2⟩)

/-- The lists that `__sys_killall` goes through. -/
theorem listed_oneReady : listed oneReady = [1, 0, 1] := by
  rw [listed_eq]
  decide +kernel

/-- The caller kills itself: it is in `running_list` only, and the other process stays. -/
theorem killsByName_iff_caller :
    ∃ mem, Transition.replay Memory.step Isolation.twoFrames (storing 0) = some mem ∧
      KillsByName (fun _ => 0) mem 0 0 twoNames (twoNames 0) oneReady := by
  obtain ⟨mem, reaches, stored⟩ :
      ∃ mem, Transition.replay Memory.step Isolation.twoFrames (storing 0) = some mem ∧
        StoredName (fun _ => 0) mem 0 0 0 (twoNames 0) :=
    Transition.exists_of_evaluated (by decide +kernel)
  refine ⟨mem, reaches, (killsByName_iff _ mem 0 0 twoNames (twoNames 0) oneReady (by decide)
    (by decide) stored).mpr ⟨?_, ?_⟩⟩
  · rw [listed_oneReady]
    decide
  · rw [listed_oneReady]
    decide

/-- The ready process `worker` is not found under its name. -/
theorem worker_not_killed :
    ∃ mem, Transition.replay Memory.step Isolation.twoFrames (storing 1) = some mem ∧
      StoredName (fun _ => 0) mem 0 0 0 (twoNames 1) ∧
      ¬ KillsByName (fun _ => 0) mem 0 0 twoNames (twoNames 1) oneReady := by
  obtain ⟨mem, reaches, stored⟩ :
      ∃ mem, Transition.replay Memory.step Isolation.twoFrames (storing 1) = some mem ∧
        StoredName (fun _ => 0) mem 0 0 0 (twoNames 1) :=
    Transition.exists_of_evaluated (by decide +kernel)
  refine ⟨mem, reaches, stored, fun kills => ?_⟩
  rw [killsByName_of_stored (by decide) stored,
    killsExactly_sysKillall_iff (by decide)] at kills
  have kept := kills.kept 1 (by rw [listed_oneReady]; decide)
  revert kept
  decide

end Os
end Ossim
