import Ossim.Library.CopyLoop
import Ossim.Memory.Memphy

/-!
# Copying a page in place

The loop of `__swap_cp_page` goes through the device interface cell by cell, and the two
device pointers may be the same.  Here it runs on the devices behind the pointers, so that
a read sees what earlier iterations have written.  For two different pointers it is the
function on two devices that the rest of the memory model uses.
-/

namespace Ossim
namespace Memory
namespace PageCopy

open CopyLoop

variable {ι : Type}

/-- All bytes of all devices, by device and address. -/
def contents (devices : ι → Memphy) (cell : ι × Nat) : Byte :=
  (devices cell.1).storage cell.2

/-- A cell of a frame. -/
def frameCell (mp : ι) (fpn cellidx : Nat) : ι × Nat := (mp, fpn * pagingPagesz + cellidx)

/-- The devices are as before in all but their storage. -/
def SameButStorage (devices devices' : ι → Memphy) : Prop :=
  ∀ mp, devices' mp = { devices mp with storage := (devices' mp).storage }

/-- One frame of the destination is a copy of one frame of the source as it was, and
nothing else has changed. -/
structure CopiesOnePage
    (mpsrc : ι)
    (srcfpn : Nat)
    (mpdst : ι)
    (dstfpn : Nat)
    (devices devices' : ι → Memphy) : Prop where
  copied : (devices' mpdst).frame dstfpn = (devices mpsrc).frame srcfpn
  kept : ∀ mp addr, ¬ (mp = mpdst ∧ addr / pagingPagesz = dstfpn) →
    (devices' mp).storage addr = (devices mp).storage addr
  sameButStorage : SameButStorage devices devices'

variable {mpsrc mpdst : ι} {srcfpn dstfpn : Nat} {devices devices' devices'' : ι → Memphy}

theorem SameButStorage.maxsz
    (same : SameButStorage devices devices')
    (mp : ι) :
    (devices' mp).maxsz = (devices mp).maxsz := by
  rw [same mp]

theorem SameButStorage.rdmflg
    (same : SameButStorage devices devices')
    (mp : ι) :
    (devices' mp).rdmflg = (devices mp).rdmflg := by
  rw [same mp]

theorem SameButStorage.trans
    (first : SameButStorage devices devices')
    (second : SameButStorage devices' devices'') :
    SameButStorage devices devices'' := by
  intro mp
  rw [second mp, first mp]

/-- Cells at different places of two frames, or of one frame, are different. -/
theorem frameCell_ne
    {mp mp' : ι}
    {fpn fpn' first second : Nat}
    (ordered : first < second)
    (inFrame : second < pagingPagesz) :
    frameCell mp fpn second ≠ frameCell mp' fpn' first := by
  intro same
  have addresses : fpn * pagingPagesz + second = fpn' * pagingPagesz + first :=
    congrArg Prod.snd same
  simp only [pagingPagesz] at addresses inFrame
  omega

/-! ## The loop -/

variable [DecidableEq ι]

/-- The body of the loop of `__swap_cp_page`. -/
def swapCpCell
    (mpsrc : ι)
    (srcfpn : Nat)
    (mpdst : ι)
    (dstfpn cellidx : Nat)
    (devices : ι → Memphy) :
    Option (ι → Memphy) := do
  let addrsrc := srcfpn * pagingPagesz + cellidx
  let addrdst := dstfpn * pagingPagesz + cellidx
  let data ← memphyRead (devices mpsrc) addrsrc
  let mp ← memphyWrite (devices mpdst) addrdst data
  some (Function.update devices mpdst mp)

/-- The first iterations of the loop of `__swap_cp_page`. -/
def swapCpCells
    (mpsrc : ι)
    (srcfpn : Nat)
    (mpdst : ι)
    (dstfpn : Nat)
    (devices : ι → Memphy) :
    Nat → Option (ι → Memphy)
  | 0 => some devices
  | cellidx + 1 => do
      let devices ← swapCpCells mpsrc srcfpn mpdst dstfpn devices cellidx
      swapCpCell mpsrc srcfpn mpdst dstfpn cellidx devices

/-- `__swap_cp_page`: the devices afterwards. -/
def swapCpPage
    (mpsrc : ι)
    (srcfpn : Nat)
    (mpdst : ι)
    (dstfpn : Nat)
    (devices : ι → Memphy) :
    Option (ι → Memphy) :=
  swapCpCells mpsrc srcfpn mpdst dstfpn devices pagingPagesz

/-- An iteration copies one byte between devices with random access. -/
theorem swapCpCell_refines
    {cellidx : Nat}
    (sourceRandom : (devices mpsrc).rdmflg = true)
    (targetRandom : (devices mpdst).rdmflg = true)
    (inSource : srcfpn * pagingPagesz + cellidx < (devices mpsrc).maxsz)
    (inTarget : dstfpn * pagingPagesz + cellidx < (devices mpdst).maxsz) :
    ∃ devices', swapCpCell mpsrc srcfpn mpdst dstfpn cellidx devices = some devices' ∧
      SameButStorage devices devices' ∧
      contents devices' =
        Function.update (contents devices) (frameCell mpdst dstfpn cellidx)
          (contents devices (frameCell mpsrc srcfpn cellidx)) := by
  refine ⟨Function.update devices mpdst { devices mpdst with
    storage := Function.update (devices mpdst).storage (dstfpn * pagingPagesz + cellidx)
      ((devices mpsrc).storage (srcfpn * pagingPagesz + cellidx)) }, ?_, ?_, ?_⟩
  · simp [swapCpCell, memphyRead, memphyWrite, sourceRandom, targetRandom, inSource, inTarget]
  · intro mp
    by_cases written : mp = mpdst
    · subst written
      rw [Function.update_self]
    · rw [Function.update_of_ne written]
  · funext cell
    obtain ⟨mp, addr⟩ := cell
    simp only [contents, frameCell, Function.update_apply, Prod.mk.injEq]
    by_cases written : mp = mpdst
    · subst written
      simp only [if_true, true_and, Function.update_apply]
    · simp only [written, if_false, false_and]

/-- The loop is a copy loop over the bytes of all devices. -/
theorem swapCpCells_refines
    {count : Nat}
    (sourceRandom : (devices mpsrc).rdmflg = true)
    (targetRandom : (devices mpdst).rdmflg = true)
    (inSource : srcfpn * pagingPagesz + count ≤ (devices mpsrc).maxsz)
    (inTarget : dstfpn * pagingPagesz + count ≤ (devices mpdst).maxsz) :
    ∃ devices', swapCpCells mpsrc srcfpn mpdst dstfpn devices count = some devices' ∧
      SameButStorage devices devices' ∧
      contents devices' =
        copyCells (contents devices) (frameCell mpsrc srcfpn) (frameCell mpdst dstfpn)
          count := by
  induction count with
  | zero => exact ⟨devices, rfl, fun _ => rfl, rfl⟩
  | succ count inductionHypothesis =>
      obtain ⟨before, earlier, sameBefore, bytesBefore⟩ :=
        inductionHypothesis (by omega) (by omega)
      have cellInSource : srcfpn * pagingPagesz + count < (before mpsrc).maxsz := by
        rw [sameBefore.maxsz]
        omega
      have cellInTarget : dstfpn * pagingPagesz + count < (before mpdst).maxsz := by
        rw [sameBefore.maxsz]
        omega
      obtain ⟨after, step, sameAfter, bytesAfter⟩ :=
        swapCpCell_refines ((sameBefore.rdmflg mpsrc).trans sourceRandom)
          ((sameBefore.rdmflg mpdst).trans targetRandom) cellInSource cellInTarget
      refine ⟨after, ?_, sameBefore.trans sameAfter, ?_⟩
      · rw [swapCpCells, earlier]
        exact step
      · rw [bytesAfter, bytesBefore, copyCells_succ]

/-- A page is copied between any two frames of devices with random access, also within
one device or onto itself, and nothing else changes. -/
theorem swapCpPage_copiesOnePage
    (devices : ι → Memphy)
    (mpsrc mpdst : ι)
    (srcfpn dstfpn : Nat)
    (sourceRandom : (devices mpsrc).rdmflg = true)
    (targetRandom : (devices mpdst).rdmflg = true)
    (inSource : (srcfpn + 1) * pagingPagesz ≤ (devices mpsrc).maxsz)
    (inTarget : (dstfpn + 1) * pagingPagesz ≤ (devices mpdst).maxsz) :
    ∃ devices', swapCpPage mpsrc srcfpn mpdst dstfpn devices = some devices' ∧
      CopiesOnePage mpsrc srcfpn mpdst dstfpn devices devices' := by
  rw [Nat.succ_mul] at inSource inTarget
  obtain ⟨devices', copied, same, bytes⟩ :=
    swapCpCells_refines sourceRandom targetRandom inSource inTarget
  refine ⟨devices', copied, ?_, ?_, same⟩
  · funext cell
    have unread : ∀ first second, first < second → second < pagingPagesz →
        frameCell mpsrc srcfpn second ≠ frameCell mpdst dstfpn first :=
      fun _ _ ordered inFrame => frameCell_ne ordered inFrame
    have distinct : ∀ first second, first < second → second < pagingPagesz →
        frameCell mpdst dstfpn first ≠ frameCell mpdst dstfpn second :=
      fun _ _ ordered inFrame => (frameCell_ne ordered inFrame).symm
    have target : contents devices' (frameCell mpdst dstfpn cell) =
        contents devices (frameCell mpsrc srcfpn cell) := by
      rw [bytes]
      exact copyCells_target unread distinct cell.isLt
    exact target
  · intro mp addr outside
    have untouched : contents devices' (mp, addr) = contents devices (mp, addr) := by
      rw [bytes]
      apply copyCells_of_ne
      intro index inFrame isTarget
      obtain ⟨isDevice, isAddress⟩ := Prod.mk.inj isTarget
      apply outside
      refine ⟨isDevice, ?_⟩
      simp only [pagingPagesz] at isAddress inFrame ⊢
      omega
    exact untouched

/-- Frame 0 of a device of two frames is copied to its frame 1. -/
theorem swapCpPage_copiesOnePage_sameDevice :
    ∃ devices', swapCpPage () 0 () 1 (fun _ => initMemphy 512 true) = some devices' ∧
      CopiesOnePage () 0 () 1 (fun _ => initMemphy 512 true) devices' :=
  swapCpPage_copiesOnePage (fun _ => initMemphy 512 true) () () 0 1
    (by decide) (by decide) (by decide) (by decide)

/-- For two different devices the loop is that of the model of one source and one
destination. -/
theorem swapCpCells_of_ne
    (different : mpsrc ≠ mpdst)
    (count : Nat) :
    swapCpCells mpsrc srcfpn mpdst dstfpn devices count =
      (Memory.swapCpCells (devices mpsrc) srcfpn (devices mpdst) dstfpn count).map
        (Function.update devices mpdst) := by
  induction count with
  | zero => simp [swapCpCells, Memory.swapCpCells]
  | succ count inductionHypothesis =>
      rw [swapCpCells, inductionHypothesis, Memory.swapCpCells]
      cases Memory.swapCpCells (devices mpsrc) srcfpn (devices mpdst) dstfpn count with
      | none => rfl
      | some before =>
          have source : Function.update devices mpdst before mpsrc = devices mpsrc :=
            Function.update_of_ne different before devices
          have target : Function.update devices mpdst before mpdst = before :=
            Function.update_self mpdst before devices
          simp only [Option.map_some, Option.bind_eq_bind, Option.bind_some, swapCpCell,
            source, target]
          cases memphyRead (devices mpsrc) (srcfpn * pagingPagesz + count) with
          | none => rfl
          | some data =>
              cases written : memphyWrite before (dstfpn * pagingPagesz + count) data with
              | none => simp [written]
              | some after => simp [written, Function.update_idem]

/-- `__swap_cp_page` on two different devices. -/
theorem swapCpPage_of_ne (different : mpsrc ≠ mpdst) :
    swapCpPage mpsrc srcfpn mpdst dstfpn devices =
      (Memory.swapCpPage (devices mpsrc) srcfpn (devices mpdst) dstfpn).map
        (Function.update devices mpdst) :=
  swapCpCells_of_ne different pagingPagesz

end PageCopy
end Memory
end Ossim
