import Ossim.Library.Chain
import Ossim.Memory.Pte
import Mathlib.Logic.Function.Basic

/-!
# Physical memory devices

The model of `mm-memphy.c`.  An access outside the storage is undefined
behaviour and has no result.  A device without random access ignores every
write; reading it leaves the caller's variable unassigned, and no caller looks
at the return code, so such a read has no result either.
-/

namespace Ossim
namespace Memory

/-- `struct memphy_struct` -/
structure Memphy where
  storage : Nat → Byte
  maxsz : Nat
  rdmflg : Bool
  freeFpList : Chain Nat
  usedFpList : Chain Nat

/-- `MEMPHY_read` -/
def memphyRead (mp : Memphy) (addr : Nat) : Option Byte :=
  if mp.rdmflg ∧ addr < mp.maxsz then some (mp.storage addr) else none

/-- `MEMPHY_write` -/
def memphyWrite (mp : Memphy) (addr : Nat) (data : Byte) : Option Memphy :=
  if mp.rdmflg then
    if addr < mp.maxsz then
      some { mp with storage := Function.update mp.storage addr data }
    else
      none
  else
    some mp

/-- `MEMPHY_format`: the frames are listed in order.  The next pointer of the
first node is assigned only by a second one, and the list pointer only if there
is a frame. -/
def memphyFormat (mp : Memphy) (pagesz : Nat) : Memphy :=
  let numfp := mp.maxsz / pagesz
  if numfp = 0 then
    mp
  else
    { mp with freeFpList := ⟨List.range numfp, numfp = 1⟩ }

/-- `init_memphy` on a structure that holds no valid pointer. -/
def initMemphy (maxSize : Nat) (randomflg : Bool) : Memphy :=
  memphyFormat
    { storage := fun _ => 0
      maxsz := maxSize
      rdmflg := randomflg
      freeFpList := .unset
      usedFpList := .unset }
    pagingPagesz

/-- `MEMPHY_get_freefp`: the inner `none` stands for the return code -1. -/
def memphyGetFreefp (mp : Memphy) : Option (Option (Nat × Memphy)) :=
  match mp.freeFpList.uncons with
  | none => none
  | some none => some none
  | some (some (fpn, rest)) => some (some (fpn, { mp with freeFpList := rest }))

/-- The first iterations of the loop of `__swap_cp_page`. -/
def swapCpCells (mpsrc : Memphy) (srcfpn : Nat) (mpdst : Memphy) (dstfpn : Nat) :
    Nat → Option Memphy
  | 0 => some mpdst
  | cellidx + 1 => do
      let mpdst ← swapCpCells mpsrc srcfpn mpdst dstfpn cellidx
      let data ← memphyRead mpsrc (srcfpn * pagingPagesz + cellidx)
      memphyWrite mpdst (dstfpn * pagingPagesz + cellidx) data

/-- `__swap_cp_page`, for two different devices: the destination afterwards. -/
def swapCpPage (mpsrc : Memphy) (srcfpn : Nat) (mpdst : Memphy) (dstfpn : Nat) :
    Option Memphy :=
  swapCpCells mpsrc srcfpn mpdst dstfpn pagingPagesz

variable {mp mp' : Memphy}

/-- Formatting a device sets nothing but its free list. -/
theorem memphyFormat_eq (mp : Memphy) (pagesz : Nat) :
    memphyFormat mp pagesz =
      { mp with freeFpList := (memphyFormat mp pagesz).freeFpList } := by
  simp only [memphyFormat]
  split <;> rfl

@[simp] theorem initMemphy_storage (maxSize : Nat) (randomflg : Bool) (addr : Nat) :
    (initMemphy maxSize randomflg).storage addr = 0 := by
  rw [initMemphy, memphyFormat_eq]

@[simp] theorem initMemphy_maxsz (maxSize : Nat) (randomflg : Bool) :
    (initMemphy maxSize randomflg).maxsz = maxSize := by
  rw [initMemphy, memphyFormat_eq]

@[simp] theorem initMemphy_rdmflg (maxSize : Nat) (randomflg : Bool) :
    (initMemphy maxSize randomflg).rdmflg = randomflg := by
  rw [initMemphy, memphyFormat_eq]

theorem memphyRead_eq_some_iff
    {addr : Nat}
    {data : Byte} :
    memphyRead mp addr = some data ↔
      mp.rdmflg = true ∧ addr < mp.maxsz ∧ mp.storage addr = data := by
  unfold memphyRead
  split
  · rename_i readable
    simp [readable]
  · rename_i unreadable
    simp only [reduceCtorEq, false_iff]
    rintro ⟨random, inBounds, _⟩
    exact unreadable ⟨random, inBounds⟩

/-- A write changes nothing but the storage. -/
theorem memphyWrite_cases
    {addr : Nat}
    {data : Byte}
    (written : memphyWrite mp addr data = some mp') :
    mp' = { mp with storage := mp'.storage } ∧
      (mp.rdmflg = true ∧ addr < mp.maxsz ∧
          mp'.storage = Function.update mp.storage addr data ∨
        mp.rdmflg = false ∧ mp'.storage = mp.storage) := by
  unfold memphyWrite at written
  split at written
  · rename_i random
    split at written
    · rename_i inBounds
      cases written
      exact ⟨rfl, Or.inl ⟨random, inBounds, rfl⟩⟩
    · cases written
  · rename_i sequential
    cases written
    exact ⟨rfl, Or.inr ⟨by simpa using sequential, rfl⟩⟩

theorem memphyGetFreefp_none
    (empty : memphyGetFreefp mp = some none) :
    mp.freeFpList.nodes = [] := by
  unfold memphyGetFreefp at empty
  split at empty
  · cases empty
  · exact Chain.nodes_of_uncons_none ‹_›
  · cases empty

theorem memphyGetFreefp_some
    {fpn : Nat}
    (taken : memphyGetFreefp mp = some (some (fpn, mp'))) :
    mp' = { mp with freeFpList := mp'.freeFpList } ∧
      mp.freeFpList.nodes = fpn :: mp'.freeFpList.nodes := by
  unfold memphyGetFreefp at taken
  split at taken
  · cases taken
  · cases taken
  · rename_i head
    cases taken
    exact ⟨rfl, Chain.nodes_of_uncons_some head⟩

/-- A device with a free frame offers it. -/
theorem memphyGetFreefp_of_nodes
    {fpn : Nat}
    {rest : List Nat}
    (nodes : mp.freeFpList.nodes = fpn :: rest) :
    memphyGetFreefp mp =
      some (some (fpn, { mp with freeFpList := ⟨rest, mp.freeFpList.wild⟩ })) := by
  rw [memphyGetFreefp, Chain.uncons_of_nodes nodes]

/-- Copying a page changes nothing but the storage of the destination. -/
theorem swapCpCells_cases
    {mpsrc mpdst : Memphy}
    {srcfpn dstfpn cells : Nat}
    (copied : swapCpCells mpsrc srcfpn mpdst dstfpn cells = some mp') :
    mp' = { mpdst with storage := mp'.storage } ∧
      ∀ cell, cell < cells →
        mpsrc.rdmflg = true ∧ srcfpn * pagingPagesz + cell < mpsrc.maxsz := by
  induction cells generalizing mp' with
  | zero =>
      cases copied
      exact ⟨rfl, by simp⟩
  | succ cells inductionHypothesis =>
      simp only [swapCpCells, Option.bind_eq_bind, Option.bind_eq_some_iff] at copied
      obtain ⟨before, earlier, data, read, written⟩ := copied
      obtain ⟨onlyStorage, readable⟩ := inductionHypothesis earlier
      obtain ⟨random, inBounds, _⟩ := memphyRead_eq_some_iff.mp read
      refine ⟨?_, ?_⟩
      · rw [(memphyWrite_cases written).1, onlyStorage]
      · intro cell below
        rcases Nat.lt_succ_iff_lt_or_eq.mp below with old | rfl
        · exact readable cell old
        · exact ⟨random, inBounds⟩

/-- Every cell that is copied is one of the destination, unless this has no random
access. -/
theorem swapCpCells_writes
    {mpsrc mpdst : Memphy}
    {srcfpn dstfpn cells cell : Nat}
    (copied : swapCpCells mpsrc srcfpn mpdst dstfpn cells = some mp')
    (below : cell < cells) :
    mpdst.rdmflg = false ∨ dstfpn * pagingPagesz + cell < mpdst.maxsz := by
  induction cells generalizing mp' with
  | zero => omega
  | succ cells inductionHypothesis =>
      simp only [swapCpCells, Option.bind_eq_bind, Option.bind_eq_some_iff] at copied
      obtain ⟨before, earlier, data, _, written⟩ := copied
      rcases Nat.lt_succ_iff_lt_or_eq.mp below with old | rfl
      · exact inductionHypothesis earlier old
      · obtain ⟨onlyStorage, _⟩ := swapCpCells_cases earlier
        rw [onlyStorage] at written
        rcases (memphyWrite_cases written).2 with ⟨_, inBounds, _⟩ | ⟨sequential, _⟩
        · exact Or.inr inBounds
        · exact Or.inl sequential

theorem swapCpPage_cases
    {mpsrc mpdst : Memphy}
    {srcfpn dstfpn : Nat}
    (copied : swapCpPage mpsrc srcfpn mpdst dstfpn = some mp') :
    mp' = { mpdst with storage := mp'.storage } ∧
      ∀ cell, cell < 256 →
        mpsrc.rdmflg = true ∧ srcfpn * 256 + cell < mpsrc.maxsz :=
  swapCpCells_cases copied

/-! ## The contents of frames -/

/-- The bytes of a frame. -/
def Memphy.frame (mp : Memphy) (fpn : Nat) : Fin 256 → Byte :=
  fun cell => mp.storage (fpn * pagingPagesz + cell)

/-- The first cells of the destination frame hold those of the source frame, and
the others are as before. -/
theorem swapCpCells_storage
    {mpsrc mpdst : Memphy}
    {srcfpn dstfpn cells : Nat}
    (random : mpdst.rdmflg = true)
    (copied : swapCpCells mpsrc srcfpn mpdst dstfpn cells = some mp')
    (addr : Nat) :
    mp'.storage addr =
      if dstfpn * pagingPagesz ≤ addr ∧ addr < dstfpn * pagingPagesz + cells then
        mpsrc.storage (srcfpn * pagingPagesz + (addr - dstfpn * pagingPagesz))
      else
        mpdst.storage addr := by
  induction cells generalizing mp' with
  | zero =>
      cases copied
      rw [if_neg (by omega)]
  | succ cells inductionHypothesis =>
      simp only [swapCpCells, Option.bind_eq_bind, Option.bind_eq_some_iff] at copied
      obtain ⟨before, earlier, data, read, written⟩ := copied
      obtain ⟨_, _, rfl⟩ := memphyRead_eq_some_iff.mp read
      have stored : mp'.storage = Function.update before.storage
          (dstfpn * pagingPagesz + cells) (mpsrc.storage (srcfpn * pagingPagesz + cells)) := by
        rcases (memphyWrite_cases written).2 with ⟨_, _, stored⟩ | ⟨sequential, _⟩
        · exact stored
        · rw [(swapCpCells_cases earlier).1] at sequential
          exact absurd (random.symm.trans sequential) (by decide)
      rw [stored, Function.update_apply, inductionHypothesis earlier]
      by_cases last : addr = dstfpn * pagingPagesz + cells
      · rw [if_pos last, if_pos (by omega), last, Nat.add_sub_cancel_left]
      · rw [if_neg last]
        exact if_congr (by omega) rfl rfl

/-- Copying a page replaces one frame of the destination. -/
theorem frame_swapCpPage
    {mpsrc mpdst : Memphy}
    {srcfpn dstfpn : Nat}
    (random : mpdst.rdmflg = true)
    (copied : swapCpPage mpsrc srcfpn mpdst dstfpn = some mp') :
    mp'.frame = Function.update mpdst.frame dstfpn (mpsrc.frame srcfpn) := by
  funext fpn cell
  have inFrame := cell.isLt
  have stored := swapCpCells_storage random copied (fpn * pagingPagesz + cell)
  rw [Memphy.frame, stored, pagingPagesz]
  by_cases same : fpn = dstfpn
  · subst same
    rw [if_pos (by omega), Nat.add_sub_cancel_left, Function.update_self]
    rfl
  · rw [if_neg (by omega), Function.update_of_ne same]
    rfl

/-- A page is copied between two frames of devices with random access. -/
theorem swapCpPage_of_frames
    {mpsrc mpdst : Memphy}
    {srcfpn dstfpn : Nat}
    (sourceRandom : mpsrc.rdmflg = true)
    (random : mpdst.rdmflg = true)
    (source : srcfpn < mpsrc.maxsz / pagingPagesz)
    (destination : dstfpn < mpdst.maxsz / pagingPagesz) :
    ∃ mp', swapCpPage mpsrc srcfpn mpdst dstfpn = some mp' := by
  have first : ∀ cells, cells ≤ pagingPagesz →
      ∃ mp', swapCpCells mpsrc srcfpn mpdst dstfpn cells = some mp' := by
    intro cells inFrame
    induction cells with
    | zero => exact ⟨mpdst, rfl⟩
    | succ cells inductionHypothesis =>
        obtain ⟨before, earlier⟩ := inductionHypothesis (Nat.le_of_succ_le inFrame)
        simp only [pagingPagesz] at source destination inFrame
        have read : memphyRead mpsrc (srcfpn * pagingPagesz + cells) =
            some (mpsrc.storage (srcfpn * pagingPagesz + cells)) :=
          memphyRead_eq_some_iff.mpr ⟨sourceRandom, by rw [pagingPagesz]; omega, rfl⟩
        have fits : dstfpn * pagingPagesz + cells < mpdst.maxsz := by
          rw [pagingPagesz]
          omega
        have onlyStorage := (swapCpCells_cases earlier).1
        have sameFlag : before.rdmflg = true := by rw [onlyStorage, random]
        have sameSize : before.maxsz = mpdst.maxsz := by rw [onlyStorage]
        simp [swapCpCells, earlier, read, memphyWrite, sameFlag, sameSize, fits]
  exact first pagingPagesz le_rfl

/-- A page that is copied between devices with random access is copied from and to
their frames. -/
theorem frames_of_swapCpPage
    {mpsrc mpdst : Memphy}
    {srcfpn dstfpn : Nat}
    (random : mpdst.rdmflg = true)
    (copied : swapCpPage mpsrc srcfpn mpdst dstfpn = some mp') :
    srcfpn < mpsrc.maxsz / pagingPagesz ∧ dstfpn < mpdst.maxsz / pagingPagesz := by
  obtain ⟨_, inSource⟩ := (swapCpPage_cases copied).2 255 (by decide)
  have inDestination : mpdst.rdmflg = false ∨ dstfpn * pagingPagesz + 255 < mpdst.maxsz :=
    swapCpCells_writes copied (by decide)
  rw [random] at inDestination
  simp only [pagingPagesz, Bool.true_eq_false, false_or] at inDestination ⊢
  omega

end Memory
end Ossim
