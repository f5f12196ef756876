import Ossim.Library.Transition
import Ossim.Memory.Memphy
import Mathlib.Data.List.Perm.Basic
import Mathlib.Data.List.Nodup

/-!
# The frames a device hands out

`init_memphy` over a structure with any content, and the calls of
`MEMPHY_get_freefp` and `MEMPHY_put_freefp` that follow.  `MEMPHY_format` leaves
the free list as it was when the device is smaller than a page, and assigns the
next pointer of the first node only if there is a second one.
-/

namespace Ossim
namespace Memory

open Transition

/-- The loop of `MEMPHY_format` from the iteration `iter + 1` on: the list that
begins with the node `fst` of the frame `iter`, whose next pointer is `next` so
far. -/
def formatLoop (iter : Nat) (next : Chain Nat) : Nat → Chain Nat
  | 0 => next.cons iter
  | remaining + 1 => (formatLoop (iter + 1) Chain.null remaining).cons iter

/-- `MEMPHY_format` with its return code; `fresh` is what the next pointer of the
first node holds when `malloc` returns it. -/
def memphyFormatOver (mp : Memphy) (pagesz : Nat) (fresh : Chain Nat) : Int × Memphy :=
  match mp.maxsz / pagesz with
  | 0 => (-1, mp)
  | rest + 1 => (0, { mp with freeFpList := formatLoop 0 fresh rest })

/-- `init_memphy` on a structure with the content `prior`; the return code of
`MEMPHY_format` is ignored. -/
def initMemphyOver (prior : Memphy) (fresh : Chain Nat) (maxSize : Nat) (randomflg : Bool) :
    Memphy :=
  { (memphyFormatOver { prior with storage := fun _ => 0, maxsz := maxSize }
      pagingPagesz fresh).2 with
    rdmflg := randomflg }

/-- `MEMPHY_put_freefp` -/
def memphyPutFreefp (mp : Memphy) (fpn : Nat) : Memphy :=
  { mp with freeFpList := mp.freeFpList.cons fpn }

/-- A device and the frames that were taken from it and not put back. -/
structure FrameUse where
  mp : Memphy
  held : List Nat

/-- A call on the free list of a device. -/
inductive FrameCall
  | get
  | put (fpn : Nat)

/-- A call; only a held frame is put back. -/
def frameStep (use : FrameUse) : FrameCall → Option FrameUse
  | .get =>
      match memphyGetFreefp use.mp with
      | none => none
      | some none => some use
      | some (some (fpn, mp)) => some ⟨mp, fpn :: use.held⟩
  | .put fpn =>
      if fpn ∈ use.held then
        some ⟨memphyPutFreefp use.mp fpn, use.held.erase fpn⟩
      else
        none

/-- The next `MEMPHY_get_freefp` has a result; it succeeds exactly while fewer than
`n` frames are held, and then with a frame below `n` that is not held. -/
def GetExact (n : Nat) (use : FrameUse) : Prop :=
  match memphyGetFreefp use.mp with
  | none => False
  | some none => n ≤ use.held.length
  | some (some (fpn, _)) => use.held.length < n ∧ fpn < n ∧ fpn ∉ use.held

/-- The free and the held frames together are the frames below `n`. -/
structure FramesSplit (n : Nat) (use : FrameUse) : Prop where
  ended : use.mp.freeFpList.wild = false
  frames : (use.mp.freeFpList.nodes ++ use.held).Perm (List.range n)

/-! ## Formatting -/

/-- The loop lists the frames from `iter` on. -/
theorem nodes_formatLoop (iter : Nat) (next : Chain Nat) (remaining : Nat) :
    (formatLoop iter next (remaining + 1)).nodes = List.range' iter (remaining + 2) := by
  induction remaining generalizing iter next with
  | zero => rfl
  | succ remaining inductionHypothesis =>
      rw [formatLoop, Chain.nodes_cons, inductionHypothesis, ← List.range'_succ]

/-- After an iteration the last node of the list ends it. -/
theorem wild_formatLoop (iter : Nat) (next : Chain Nat) (remaining : Nat) :
    (formatLoop iter next (remaining + 1)).wild = false := by
  induction remaining generalizing iter next with
  | zero => rfl
  | succ remaining inductionHypothesis =>
      rw [formatLoop]
      exact inductionHypothesis (iter + 1) Chain.null

/-- The free list after `init_memphy`. -/
theorem freeFpList_initMemphyOver
    (prior : Memphy)
    (fresh : Chain Nat)
    (maxSize : Nat)
    (randomflg : Bool) :
    (initMemphyOver prior fresh maxSize randomflg).freeFpList =
      match maxSize / pagingPagesz with
      | 0 => prior.freeFpList
      | 1 => fresh.cons 0
      | rest + 2 => ⟨List.range (rest + 2), false⟩ := by
  simp only [initMemphyOver, memphyFormatOver]
  split
  · rename_i small
    simp [small]
  · rename_i rest paged
    rw [paged]
    cases rest with
    | zero => rfl
    | succ rest =>
        have nodes := nodes_formatLoop 0 fresh rest
        have wild := wild_formatLoop 0 fresh rest
        rw [← List.range_eq_range'] at nodes
        cases list : formatLoop 0 fresh (rest + 1)
        simp only [list] at nodes wild
        rw [nodes, wild]

/-- Without a valid pointer in the structure or in the first node, this is the
`init_memphy` of the other modules. -/
theorem initMemphyOver_unset
    (prior : Memphy)
    (noFree : prior.freeFpList = .unset)
    (noUsed : prior.usedFpList = .unset)
    (maxSize : Nat)
    (randomflg : Bool) :
    initMemphyOver prior .unset maxSize randomflg = initMemphy maxSize randomflg := by
  have lists : (initMemphyOver prior .unset maxSize randomflg).freeFpList =
      (initMemphy maxSize randomflg).freeFpList := by
    rw [freeFpList_initMemphyOver, initMemphy, memphyFormat]
    split <;> rename_i frames
    · simp [frames, noFree]
    · simp [frames, Chain.cons, Chain.unset]
    · simp [frames]
  have others : initMemphyOver prior .unset maxSize randomflg =
      { initMemphy maxSize randomflg with
        freeFpList := (initMemphyOver prior .unset maxSize randomflg).freeFpList } := by
    rw [initMemphy, memphyFormat_eq, initMemphyOver, memphyFormatOver]
    split <;> simp [noUsed]
  rw [others, lists]

/-! ## Calls on the free list -/

section Calls

variable {n : Nat} {use next : FrameUse}

/-- While the frames are split, the next get is as it should be. -/
theorem FramesSplit.getExact
    (framesSplit : FramesSplit n use) :
    GetExact n use := by
  have frames := framesSplit.frames
  have ended := framesSplit.ended
  unfold GetExact
  cases nodes : use.mp.freeFpList.nodes with
  | nil =>
      have empty : memphyGetFreefp use.mp = some none := by
        simp [memphyGetFreefp, Chain.uncons, nodes, ended]
      rw [nodes, List.nil_append] at frames
      rw [empty]
      simpa using frames.length_eq.ge
  | cons fpn rest =>
      rw [memphyGetFreefp_of_nodes nodes]
      rw [nodes] at frames
      have length := frames.length_eq
      have distinct := frames.nodup_iff.mpr List.nodup_range
      have below : fpn ∈ List.range n := frames.subset (by simp)
      simp only [List.cons_append, List.length_cons, List.length_append,
        List.length_range] at length
      simp only [List.cons_append, List.nodup_cons, List.mem_append, not_or] at distinct
      exact ⟨by omega, List.mem_range.mp below, distinct.1.2⟩

/-- Where no frame is left to hand out, only the pointer `NULL` makes the next get as
it should be. -/
theorem GetExact.list_null
    (handsOut : GetExact n use)
    (used : n ≤ use.held.length) :
    use.mp.freeFpList = Chain.null := by
  unfold GetExact at handsOut
  split at handsOut
  · exact handsOut.elim
  · rename_i empty
    unfold memphyGetFreefp at empty
    split at empty
    · cases empty
    · exact Chain.eq_null_of_uncons ‹_›
    · cases empty
  · exact absurd handsOut.1 (Nat.not_lt.mpr used)

/-- Taking a frame and putting a held one back keep the frames split. -/
theorem FramesSplit.step
    (framesSplit : FramesSplit n use)
    {call : FrameCall}
    (stepped : frameStep use call = some next) :
    FramesSplit n next := by
  cases call with
  | get =>
      simp only [frameStep] at stepped
      split at stepped
      · cases stepped
      · cases stepped
        exact framesSplit
      · rename_i fpn mp taken
        cases stepped
        cases nodes : use.mp.freeFpList.nodes with
        | nil =>
            have empty : use.mp.freeFpList.nodes = fpn :: mp.freeFpList.nodes :=
              (memphyGetFreefp_some taken).2
            rw [nodes] at empty
            cases empty
        | cons head rest =>
            rw [memphyGetFreefp_of_nodes nodes] at taken
            cases taken
            refine ⟨framesSplit.ended, List.Perm.trans List.perm_middle ?_⟩
            have frames := framesSplit.frames
            rwa [nodes] at frames
  | put fpn =>
      simp only [frameStep] at stepped
      split at stepped
      · rename_i held
        cases stepped
        refine ⟨framesSplit.ended, ?_⟩
        have moved : (use.mp.freeFpList.nodes ++ fpn :: use.held.erase fpn).Perm
            (use.mp.freeFpList.nodes ++ use.held) :=
          (List.perm_cons_erase held).symm.append_left _
        exact (List.perm_middle.symm.trans moved).trans framesSplit.frames
      · cases stepped

/-- Whatever the structure and the memory of the first node held, a device hands out
exactly its frames over every sequence of calls if and only if it has two pages or
more, or one and that memory was zero, or none and the old list pointer was `NULL`. -/
theorem handsOutExactly_iff
    (prior : Memphy)
    (fresh : Chain Nat)
    (maxSize : Nat)
    (randomflg : Bool) :
    (∀ use, Run frameStep anyEvent ⟨initMemphyOver prior fresh maxSize randomflg, []⟩ use →
        GetExact (maxSize / pagingPagesz) use) ↔
      2 ≤ maxSize / pagingPagesz ∨
        (maxSize / pagingPagesz = 1 ∧ fresh = Chain.null) ∨
        (maxSize / pagingPagesz = 0 ∧ prior.freeFpList = Chain.null) := by
  have list := freeFpList_initMemphyOver prior fresh maxSize randomflg
  constructor
  · intro handsOut
    cases frames : maxSize / pagingPagesz with
    | zero =>
        simp only [frames] at list handsOut
        refine Or.inr (Or.inr ⟨rfl, ?_⟩)
        rw [← list]
        exact (handsOut _ (Run.refl _)).list_null (Nat.zero_le _)
    | succ rest =>
        cases rest with
        | succ rest => exact Or.inl (by omega)
        | zero =>
            simp only [frames] at list handsOut
            refine Or.inr (Or.inl ⟨rfl, ?_⟩)
            have taken : frameStep ⟨initMemphyOver prior fresh maxSize randomflg, []⟩ .get =
                some ⟨{ initMemphyOver prior fresh maxSize randomflg with
                  freeFpList := fresh }, [0]⟩ := by
              simp [frameStep, memphyGetFreefp, list, Chain.cons, Chain.uncons]
            exact (handsOut _ (Run.single .get trivial taken)).list_null le_rfl
  · intro sound use run
    refine FramesSplit.getExact (run.invariant (FramesSplit (maxSize / pagingPagesz))
      (fun _ _ _ framesSplit _ stepped => framesSplit.step stepped) ?_)
    rcases sound with many | ⟨one, unlinked⟩ | ⟨none, cleared⟩
    · obtain ⟨rest, frames⟩ := Nat.exists_eq_add_of_le' many
      rw [frames] at list ⊢
      exact ⟨by rw [list], by simp [list]⟩
    · subst unlinked
      rw [one] at list ⊢
      exact ⟨by rw [list]; rfl, by rw [list]; rfl⟩
    · rw [none] at list ⊢
      rw [cleared] at list
      exact ⟨by rw [list]; rfl, by rw [list]; rfl⟩

/-- A device without a page hands out the frame 7 of a list that its structure
happened to point to. -/
theorem get_of_leftoverList :
    ¬ ∀ use, Run frameStep anyEvent
      ⟨initMemphyOver
        { storage := fun _ => 0
          maxsz := 4096
          rdmflg := true
          freeFpList := ⟨[7], false⟩
          usedFpList := .null } .null 0 true, []⟩ use →
      GetExact (0 / pagingPagesz) use := by
  intro handsOut
  have first := handsOut _ (Run.refl _)
  exact absurd first.1 (by decide)

end Calls

end Memory
end Ossim
