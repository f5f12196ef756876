import Mathlib.Data.Set.Lattice
import Mathlib.Order.CompletePartialOrder

/-!
# Blocks that do not overlap

An allocator keeps a list of free blocks and gives each holder at most one
block.  Blocks are sets, and no two of them may share an element.
-/

namespace Ossim

variable {B H : Type*}

/-- The free blocks and the blocks of the holders are disjoint from each other. -/
structure Apart (free : List (Set B)) (live : H → Set B) : Prop where
  listed : free.Pairwise Disjoint
  held : ∀ holder other, holder ≠ other → Disjoint (live holder) (live other)
  cross : ∀ block ∈ free, ∀ holder, Disjoint block (live holder)

/-- The elements of the blocks of a list. -/
def cover (blocks : List (Set B)) : Set B := {element | ∃ block ∈ blocks, element ∈ block}

theorem mem_cover {blocks : List (Set B)} {element : B} :
    element ∈ cover blocks ↔ ∃ block ∈ blocks, element ∈ block := Iff.rfl

theorem cover_append (first second : List (Set B)) :
    cover (first ++ second) = cover first ∪ cover second := by
  ext element
  simp only [mem_cover, List.mem_append, Set.mem_union]
  constructor
  · rintro ⟨block, early | late, inBlock⟩
    · exact .inl ⟨block, early, inBlock⟩
    · exact .inr ⟨block, late, inBlock⟩
  · rintro (⟨block, early, inBlock⟩ | ⟨block, late, inBlock⟩)
    · exact ⟨block, .inl early, inBlock⟩
    · exact ⟨block, .inr late, inBlock⟩

theorem cover_cons (block : Set B) (blocks : List (Set B)) :
    cover (block :: blocks) = block ∪ cover blocks := by
  ext element
  simp [mem_cover]

/-- A block is cut into a part that is taken and parts that stay in its place: all
parts and the other blocks are disjoint, and no element is lost or gained. -/
theorem cut
    {before after rests : List (Set B)}
    {block taken : Set B}
    (apart : (before ++ block :: after).Pairwise Disjoint)
    (within : taken ⊆ block)
    (parts : rests.Pairwise Disjoint)
    (remains : cover rests = block \ taken) :
    (taken :: (before ++ rests ++ after)).Pairwise Disjoint ∧
      taken ∪ cover (before ++ rests ++ after) = cover (before ++ block :: after) := by
  obtain ⟨beforeApart, middleApart, acrossApart⟩ := List.pairwise_append.mp apart
  obtain ⟨blockApart, afterApart⟩ := List.pairwise_cons.mp middleApart
  have inBlock : ∀ rest ∈ rests, rest ⊆ block \ taken := fun rest member element isIn =>
    remains ▸ ⟨rest, member, isIn⟩
  constructor
  · refine List.pairwise_cons.mpr ⟨?_, ?_⟩
    · intro other member
      rcases List.mem_append.mp member with first | late
      · rcases List.mem_append.mp first with early | part
        · exact ((acrossApart other early block (by simp)).mono_right within).symm
        · exact Set.disjoint_right.mpr fun element isIn => (inBlock other part isIn).2
      · exact (blockApart other late).mono_left within
    · refine List.pairwise_append.mpr ⟨List.pairwise_append.mpr ⟨beforeApart, parts, ?_⟩,
        afterApart, ?_⟩
      · intro other early rest part
        exact (acrossApart other early block (by simp)).mono_right
          ((inBlock rest part).trans Set.sdiff_subset)
      · intro other member last late
        rcases List.mem_append.mp member with early | part
        · exact acrossApart other early last (by simp [late])
        · exact (blockApart last late).mono_left ((inBlock other part).trans Set.sdiff_subset)
  · rw [cover_append, cover_append, cover_append, cover_cons, remains, Set.union_assoc,
      Set.union_left_comm taken, ← Set.union_assoc taken, Set.union_sdiff_cancel within]

namespace Apart

variable {free : List (Set B)} {live : H → Set B}

/-- Nobody holds anything and one block is free. -/
theorem of_empty
    (block : Set B)
    (nothing : ∀ holder, live holder = ∅) :
    Apart [block] live where
  listed := List.pairwise_singleton _ _
  held := by
    intro holder other _
    rw [nothing]
    exact Set.empty_disjoint _
  cross := by
    intro other _ holder
    rw [nothing]
    exact Set.disjoint_empty _

/-- Free blocks may get lost. -/
theorem sublist
    {fewer : List (Set B)}
    (apart : Apart free live)
    (sub : fewer.Sublist free) :
    Apart fewer live where
  listed := apart.listed.sublist sub
  held := apart.held
  cross := fun block member => apart.cross block (sub.subset member)

/-- A new free block. -/
theorem push
    {block : Set B}
    (apart : Apart free live)
    (offFree : ∀ other ∈ free, Disjoint block other)
    (offLive : ∀ holder, Disjoint block (live holder)) :
    Apart (block :: free) live where
  listed := List.pairwise_cons.mpr ⟨offFree, apart.listed⟩
  held := apart.held
  cross := by
    intro other member holder
    rcases List.mem_cons.mp member with rfl | older
    · exact offLive holder
    · exact apart.cross other older holder

variable [DecidableEq H]

/-- A holder exchanges its block for another. -/
theorem assign
    {block : Set B}
    (apart : Apart free live)
    (holder : H)
    (offFree : ∀ other ∈ free, Disjoint other block)
    (offLive : ∀ other, other ≠ holder → Disjoint (live other) block) :
    Apart free (Function.update live holder block) where
  listed := apart.listed
  held := by
    intro first second different
    by_cases firstIs : first = holder
    · subst firstIs
      rw [Function.update_self, Function.update_of_ne different.symm]
      exact (offLive second different.symm).symm
    · rw [Function.update_of_ne firstIs]
      by_cases secondIs : second = holder
      · subst secondIs
        rw [Function.update_self]
        exact offLive first different
      · rw [Function.update_of_ne secondIs]
        exact apart.held first second different
  cross := by
    intro other member first
    by_cases firstIs : first = holder
    · subst firstIs
      rw [Function.update_self]
      exact offFree other member
    · rw [Function.update_of_ne firstIs]
      exact apart.cross other member first

/-- A holder gives its block up. -/
theorem drop
    (apart : Apart free live)
    (holder : H) :
    Apart free (Function.update live holder ∅) :=
  apart.assign holder (fun _ _ => Set.disjoint_empty _) (fun _ _ => Set.disjoint_empty _)

/-- A holder gives its block up, and some of it becomes a free block. -/
theorem release
    {holder : H}
    {block : Set B}
    (apart : Apart free live)
    (within : block ⊆ live holder) :
    Apart (block :: free) (Function.update live holder ∅) := by
  apply (apart.drop holder).push
  · intro other member
    exact (apart.cross other member holder).symm.mono_left within
  · intro other
    by_cases isHolder : other = holder
    · subst isHolder
      rw [Function.update_self]
      exact Set.disjoint_empty _
    · rw [Function.update_of_ne isHolder]
      exact (apart.held holder other (Ne.symm isHolder)).mono_left within

omit [DecidableEq H] in
/-- A free block shrinks. -/
theorem shrink
    {before after : List (Set B)}
    {block rest : Set B}
    (apart : Apart (before ++ block :: after) live)
    (within : rest ⊆ block) :
    Apart (before ++ rest :: after) live := by
  obtain ⟨listed, held, cross⟩ := apart
  obtain ⟨beforeApart, middleApart, acrossApart⟩ := List.pairwise_append.mp listed
  obtain ⟨blockApart, afterApart⟩ := List.pairwise_cons.mp middleApart
  constructor
  · refine List.pairwise_append.mpr ⟨beforeApart, List.pairwise_cons.mpr ⟨?_, afterApart⟩, ?_⟩
    · intro other late
      exact (blockApart other late).mono_left within
    · intro other early second member
      rcases List.mem_cons.mp member with rfl | late
      · exact (acrossApart other early block (List.mem_cons_self ..)).mono_right within
      · exact acrossApart other early second (List.mem_cons_of_mem _ late)
  · exact held
  · intro other member first
    rcases List.mem_append.mp member with early | member
    · exact cross other (List.mem_append_left _ early) first
    · rcases List.mem_cons.mp member with rfl | late
      · exact (cross block (by simp) first).mono_left within
      · exact cross other (List.mem_append_right _ (List.mem_cons_of_mem _ late)) first

/-- A free block shrinks, and a holder takes some of its elements and elements
that no other block has. -/
theorem take
    {before after : List (Set B)}
    {block rest taken : Set B}
    {holder : H}
    (apart : Apart (before ++ block :: after) live)
    (within : rest ⊆ block)
    (separate : Disjoint rest taken)
    (spare : ∀ element ∈ taken, element ∉ block →
      (∀ other ∈ before ++ after, element ∉ other) ∧
        ∀ other, other ≠ holder → element ∉ live other) :
    Apart (before ++ rest :: after) (Function.update live holder taken) := by
  have cross := apart.cross
  obtain ⟨_, middleApart, acrossApart⟩ := List.pairwise_append.mp apart.listed
  obtain ⟨blockApart, _⟩ := List.pairwise_cons.mp middleApart
  have offBlock : ∀ other ∈ before ++ after, Disjoint other block := by
    intro other member
    rcases List.mem_append.mp member with early | late
    · exact acrossApart other early block (List.mem_cons_self ..)
    · exact (blockApart other late).symm
  -- the elements taken are those of the block, and no others see the extra ones
  have offTaken : ∀ other ∈ before ++ after, Disjoint other taken := by
    intro other member
    refine Set.disjoint_right.mpr fun element isTaken isOther => ?_
    by_cases inBlock : element ∈ block
    · exact Set.disjoint_left.mp (offBlock other member) isOther inBlock
    · exact (spare element isTaken inBlock).1 other member isOther
  apply (apart.shrink within).assign holder
  · intro other member
    rcases List.mem_append.mp member with early | member
    · exact offTaken other (List.mem_append_left _ early)
    · rcases List.mem_cons.mp member with rfl | late
      · exact separate
      · exact offTaken other (List.mem_append_right _ late)
  · intro other different
    refine Set.disjoint_right.mpr fun element isTaken isOther => ?_
    by_cases inBlock : element ∈ block
    · exact Set.disjoint_left.mp (cross block (by simp) other) inBlock isOther
    · exact (spare element isTaken inBlock).2 other different isOther

end Apart
end Ossim
