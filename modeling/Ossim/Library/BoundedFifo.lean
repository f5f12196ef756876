import Mathlib.Data.List.Nodup

/-!
# Bounded duplicate-free FIFO lists

A push is refused when the list is full or already holds the item.  Lists without
duplicates stay so.
-/

namespace Ossim
namespace BoundedFifo

variable {α : Type*} [DecidableEq α]

/-- Append an item unless the list is full or holds it already. -/
def push (capacity : Nat) (items : List α) (item : α) : List α :=
  if capacity ≤ items.length then items
  else if item ∈ items then items
  else items ++ [item]

theorem push_of_full
    {capacity : Nat}
    {items : List α}
    (full : capacity ≤ items.length)
    (item : α) :
    push capacity items item = items := by
  simp [push, full]

theorem push_of_mem
    {items : List α}
    {item : α}
    (present : item ∈ items)
    (capacity : Nat) :
    push capacity items item = items := by
  simp [push, present]

theorem push_of_room
    {capacity : Nat}
    {items : List α}
    {item : α}
    (room : items.length < capacity)
    (absent : item ∉ items) :
    push capacity items item = items ++ [item] := by
  simp [push, Nat.not_le.mpr room, absent]

/-- A push adds at most the pushed item. -/
theorem mem_push
    {capacity : Nat}
    {items : List α}
    {item other : α} :
    other ∈ push capacity items item ↔
      other ∈ items ∨ (other = item ∧ items.length < capacity) := by
  by_cases full : capacity ≤ items.length
  · simp [push_of_full full, Nat.not_lt.mpr full]
  · have room : items.length < capacity := Nat.not_le.mp full
    by_cases present : item ∈ items
    · rw [push_of_mem present]
      constructor
      · exact Or.inl
      · rintro (member | ⟨rfl, _⟩)
        · exact member
        · exact present
    · simp [push_of_room room present, room]

/-- Pushing keeps a list free of duplicates. -/
theorem nodup_push
    {items : List α}
    (distinct : items.Nodup)
    (capacity : Nat)
    (item : α) :
    (push capacity items item).Nodup := by
  unfold push
  split
  · exact distinct
  · split
    · exact distinct
    · rename_i absent
      rw [← List.concat_eq_append]
      exact distinct.concat absent

end BoundedFifo
end Ossim
