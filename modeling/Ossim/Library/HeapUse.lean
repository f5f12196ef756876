import Mathlib.Data.List.Count
import Mathlib.Data.List.Pairwise

/-!
# Uses of heap objects

A program reads objects of the heap and frees them.  A pass over a list of objects reads
each of them and frees those that a test selects.  The test reads the object, so what it
says of an object that is already freed is not known.
-/

namespace Ossim

/-- What is done with an object. -/
inductive HeapUse (α : Type*)
  | read (object : α)
  | free (object : α)
  deriving DecidableEq

namespace HeapUse

variable {α : Type*}

/-- No object is freed more than once. -/
def FreesOnce [DecidableEq α] (uses : List (HeapUse α)) : Prop :=
  ∀ object, uses.count (.free object) ≤ 1

/-- No object is read after it was freed. -/
def ReadsLive (uses : List (HeapUse α)) : Prop :=
  uses.Pairwise fun earlier later => ∀ object, earlier = .free object → later ≠ .read object

/-- The uses of a pass over some objects: all are read, and of those that were not freed
before, the selected ones are freed. -/
structure Filtered (selected : α → Prop) (objects : List α)
    (before uses : List (HeapUse α)) : Prop where
  read_mem : ∀ object, .read object ∈ uses ↔ object ∈ objects
  free_mem : ∀ object, .free object ∉ before →
    (.free object ∈ uses ↔ object ∈ objects ∧ selected object)

variable {selected : α → Prop} {objects later : List α} {before uses uses' : List (HeapUse α)}
  {object : α}

/-- Nothing is freed, so nothing is freed twice. -/
theorem FreesOnce.of_none [DecidableEq α]
    (nothing : ∀ object, .free object ∉ uses) :
    FreesOnce uses := by
  intro object
  rw [List.count_eq_zero_of_not_mem (nothing object)]
  exact Nat.zero_le 1

/-- Nothing is freed, so nothing is read later. -/
theorem ReadsLive.of_none
    (nothing : ∀ object, .free object ∉ uses) :
    ReadsLive uses := by
  apply List.pairwise_of_forall_mem_list
  rintro earlier member _ _ object rfl
  exact absurd member (nothing object)

/-- An object that is freed in front of a read is read after it was freed. -/
theorem ReadsLive.not_free
    (live : ReadsLive (uses ++ uses'))
    (isRead : .read object ∈ uses') :
    .free object ∉ uses := by
  intro freed
  exact (List.pairwise_append.mp live).2.2 _ freed _ isRead object rfl rfl

namespace Filtered

/-- A pass over nothing. -/
theorem nil : Filtered selected [] before [] where
  read_mem := by simp
  free_mem := by simp

/-- An object that the test does not select is only read. -/
theorem kept
    (passed : .free object ∉ before → ¬ selected object) :
    Filtered selected [object] before [.read object] where
  read_mem := by simp
  free_mem := by
    intro other live
    refine iff_of_false (by simp) ?_
    rintro ⟨member, isSelected⟩
    obtain rfl := List.mem_singleton.mp member
    exact passed live isSelected

/-- An object that the test selects is read and freed. -/
theorem freed
    (failed : .free object ∉ before → selected object) :
    Filtered selected [object] before [.read object, .free object] where
  read_mem := by simp
  free_mem := by
    intro other live
    simp only [List.mem_cons, reduceCtorEq, HeapUse.free.injEq, List.not_mem_nil, or_false,
      false_or]
    constructor
    · rintro rfl
      exact ⟨rfl, failed live⟩
    · exact fun both => both.1

/-- One pass after the other. -/
theorem append
    (first : Filtered selected objects before uses)
    (second : Filtered selected later (before ++ uses) uses') :
    Filtered selected (objects ++ later) before (uses ++ uses') where
  read_mem := by
    intro object
    rw [List.mem_append, List.mem_append, first.read_mem, second.read_mem]
  free_mem := by
    intro object live
    have here := first.free_mem object live
    rw [List.mem_append, List.mem_append]
    by_cases already : .free object ∈ uses
    · exact iff_of_true (.inl already) ⟨.inl (here.mp already).1, (here.mp already).2⟩
    · have there := second.free_mem object (by simp [live, already])
      rw [there, or_and_right, here]

/-- A pass that selects nothing frees nothing. -/
theorem free_not_mem
    (filtered : Filtered selected objects [] uses)
    (none : ∀ object ∈ objects, ¬ selected object)
    (object : α) :
    .free object ∉ uses := by
  intro freed
  obtain ⟨member, isSelected⟩ := (filtered.free_mem object (List.not_mem_nil)).mp freed
  exact none object member isSelected

end Filtered
end HeapUse
end Ossim
