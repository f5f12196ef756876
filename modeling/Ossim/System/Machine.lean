import Ossim.System.Defs
import Ossim.Memory.Refinement
import Ossim.Library.History
import Ossim.Memory.Layout
import Mathlib.Algebra.Order.BigOperators.Group.Finset

/-!
# The machine of one program

What the simulator offers to a program, stated without the other programs: the
program is executed alone, one instruction after the other, by a machine with an
array of bytes and an allocator without pages.  There are no CPUs, no slots, no
frames, and no time.  The machine has no step for what a program must not do, so a
program that it executes to the end is a well-behaved one.
-/

namespace Ossim
namespace System

open CInt Memory Transition

/-- An allocator, an array of bytes, and the bytes that have been read. -/
structure Machine where
  mm : Mm
  bytes : Nat → Byte
  output : List Byte

namespace Machine

/-- Before the first instruction, with the contents of the symbol table. -/
def start (symrgtbl : Fin 30 → Region) : Machine where
  mm := (initMm { Mm.fresh with symrgtbl := symrgtbl }).layout
  bytes := fun _ => 0
  output := []

/-- The address of an access, which must be below the limit. -/
def accessed (machine : Machine) (rgid offset : Nat) : Option Nat :=
  if Refinement.AccessBelowEnd machine.mm rgid offset then
    Refinement.address machine.mm rgid offset
  else
    none

/-- An instruction of the memory library. -/
def access (machine : Machine) : Memory.Inst → Option Machine
  | .alloc size regIndex =>
      if 1 ≤ size ∧ size ≤ 2 ^ 22 ∧ regIndex < 30 then
        (Layout.allocate machine.mm (toInt regIndex) (toInt size)).map fun (mm, _) =>
          { machine with mm := mm }
      else
        none
  | .free regIndex =>
      if regIndex < 30 then
        (Layout.release machine.mm (toInt regIndex)).map fun mm => { machine with mm := mm }
      else
        none
  | .read source offset =>
      (machine.accessed source offset).map fun addr =>
        { machine with output := machine.output ++ [machine.bytes addr] }
  | .write data destination offset =>
      (machine.accessed destination offset).map fun addr =>
        { machine with bytes := Function.update machine.bytes addr data }

/-- An instruction.  `SYSCALL 17` and `SYSCALL 101` reach beyond the process. -/
def exec (machine : Machine) (inst : Os.Loader.Inst) : Option Machine :=
  match request inst with
  | .nothing => some machine
  | .memory inst => machine.access inst
  | .memmap _ _ _ => none
  | .killall => none

/-- The pages of the area. -/
def pages (machine : Machine) : Nat := machine.mm.mmap.vmEnd / 256

variable {machine after : Machine}

theorem accessed_eq_some_iff
    {rgid offset addr : Nat} :
    machine.accessed rgid offset = some addr ↔
      Refinement.AccessBelowEnd machine.mm rgid offset ∧
        Refinement.address machine.mm rgid offset = some addr := by
  unfold accessed
  split
  · rename_i below
    exact ⟨fun found => ⟨below, found⟩, And.right⟩
  · rename_i beyond
    exact ⟨nofun, fun both => absurd both.1 beyond⟩

/-- Where an instruction is executed alone, it has an allocator to its own. -/
theorem access_alloc
    {size regIndex : Nat}
    (taken : machine.access (.alloc size regIndex) = some after) :
    (1 ≤ size ∧ size ≤ 2 ^ 22 ∧ regIndex < 30) ∧
      ∃ addr, Layout.allocate machine.mm (toInt regIndex) (toInt size) =
          some (after.mm, addr) ∧
        after = { machine with mm := after.mm } := by
  simp only [access] at taken
  split at taken
  · rename_i allowed
    obtain ⟨⟨mm, addr⟩, allocated, rfl⟩ := Option.map_eq_some_iff.mp taken
    exact ⟨allowed, addr, allocated, rfl⟩
  · cases taken

theorem access_free
    {regIndex : Nat}
    (taken : machine.access (.free regIndex) = some after) :
    regIndex < 30 ∧ Layout.release machine.mm (toInt regIndex) = some after.mm ∧
      after = { machine with mm := after.mm } := by
  simp only [access] at taken
  split at taken
  · rename_i allowed
    obtain ⟨mm, released, rfl⟩ := Option.map_eq_some_iff.mp taken
    exact ⟨allowed, released, rfl⟩
  · cases taken

/-- Only a `READ` adds to the output. -/
theorem access_output
    {inst : Memory.Inst}
    (taken : machine.access inst = some after)
    (notRead : ∀ source offset, inst ≠ .read source offset) :
    after.output = machine.output := by
  cases inst with
  | alloc size regIndex =>
      obtain ⟨_, _, _, shape⟩ := access_alloc taken
      rw [shape]
  | free regIndex =>
      obtain ⟨_, _, shape⟩ := access_free taken
      rw [shape]
  | write data destination offset =>
      obtain ⟨_, _, rfl⟩ := Option.map_eq_some_iff.mp taken
      rfl
  | read source offset => exact absurd rfl (notRead source offset)

/-- The instructions that come before another one are executed before. -/
theorem replay_take_succ
    {text : List Os.Loader.Inst}
    {pc : Nat}
    {inst : Os.Loader.Inst}
    (fetched : text[pc]? = some inst) :
    replay exec machine (text.take (pc + 1)) =
      (replay exec machine (text.take pc)).bind fun middle => middle.exec inst := by
  have longer : text.take (pc + 1) = text.take pc ++ [inst] := by
    rw [List.take_add_one, fetched]
    rfl
  rw [longer, replay_append_singleton]

end Machine

/-- The programs of the configuration are executed to the end on machines of their
own, and need no more pages together than there are frames. -/
structure Fits (setup : Setup) (table : Nat → Fin 30 → Region) (demand : Nat → Nat)
    (frames : Nat) : Prop where
  behaved : ∀ proc, proc < setup.numProcesses → ∀ pc, pc ≤ (setup.text proc).length →
    ∃ machine, replay Machine.exec (.start (table proc)) ((setup.text proc).take pc) =
        some machine ∧
      machine.pages ≤ demand proc
  enough : ∑ proc ∈ Finset.range setup.numProcesses, demand proc ≤ frames

end System
end Ossim
