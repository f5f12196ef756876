import Ossim.Memory.FrameList
import Ossim.Memory.Mm
import Mathlib.Data.List.FinRange

/-!
# Releasing a process

`free_pcb_memph` walks over the whole page table and puts a frame back for every
entry: to the RAM for the entries that are not present, to the active swap
device for the present ones, whether they are online or swapped.
-/

namespace Ossim
namespace Memory

/-- The loop of `free_pcb_memph` over the page numbers still to visit. -/
def freePcbLoop (pgd : Pgn → Pte) : List Pgn → Memphy → Memphy → Memphy × Memphy
  | [], mram, activeMswp => (mram, activeMswp)
  | pagenum :: pagenums, mram, activeMswp =>
      let pte := pgd pagenum
      if !pagingPagePresent pte then
        freePcbLoop pgd pagenums (memphyPutFreefp mram (pagingFpn pte)) activeMswp
      else
        freePcbLoop pgd pagenums mram (memphyPutFreefp activeMswp (pagingPteSwp pte))

/-- `free_pcb_memph`: the RAM and the active swap device afterwards. -/
def freePcbMemph (mm : Mm) (mram activeMswp : Memphy) : Memphy × Memphy :=
  freePcbLoop mm.pgd (List.finRange 16384) mram activeMswp

/-- A page table of entries that are zero, online, or swapped to the device
`active`, in which no frame and no swap offset stands twice. -/
structure Mapped (active : Nat) (pgd : Pgn → Pte) : Prop where
  kinds : ∀ pgn, pgd pgn = 0 ∨ (onlineFrame (pgd pgn)).isSome ∨
    ∃ swpoff, swapSlot (pgd pgn) = some (active, swpoff)
  frames : ∀ pgn pgn' fpn, onlineFrame (pgd pgn) = some fpn →
    onlineFrame (pgd pgn') = some fpn → pgn = pgn'
  offsets : ∀ pgn pgn' swpoff, swapSlot (pgd pgn) = some (active, swpoff) →
    swapSlot (pgd pgn') = some (active, swpoff) → pgn = pgn'

/-- The free list gained the given frames, each once. -/
def Gains (before after : Chain Nat) (frames : Nat → Prop) : Prop :=
  ∃ added : List Nat, after = ⟨added ++ before.nodes, before.wild⟩ ∧ added.Nodup ∧
    ∀ fpn, fpn ∈ added ↔ frames fpn

/-- The RAM gains the frames of the online pages and the active swap device those of
the swapped pages. -/
def ReturnsExactly (active : Nat) (mm : Mm) (mram activeMswp : Memphy) : Prop :=
  Gains mram.freeFpList (freePcbMemph mm mram activeMswp).1.freeFpList
      (fun fpn => ∃ pgn, onlineFrame (mm.pgd pgn) = some fpn) ∧
    Gains activeMswp.freeFpList (freePcbMemph mm mram activeMswp).2.freeFpList
      (fun fpn => ∃ pgn, swapSlot (mm.pgd pgn) = some (active, fpn))

/-- The frames that the loop puts to the RAM, the first one last. -/
def ramFrames (pgd : Pgn → Pte) (pagenums : List Pgn) : List Nat :=
  ((pagenums.filter fun pgn => !pagingPagePresent (pgd pgn)).map
    fun pgn => pagingFpn (pgd pgn)).reverse

/-- The frames that the loop puts to the active swap device, the first one last. -/
def swapFrames (pgd : Pgn → Pte) (pagenums : List Pgn) : List Nat :=
  ((pagenums.filter fun pgn => pagingPagePresent (pgd pgn)).map
    fun pgn => pagingPteSwp (pgd pgn)).reverse

section Loop

variable {active : Nat} {pgd : Pgn → Pte}

/-- What the loop does to the two free lists. -/
theorem freePcbLoop_eq
    (pgd : Pgn → Pte)
    (pagenums : List Pgn)
    (mram activeMswp : Memphy) :
    freePcbLoop pgd pagenums mram activeMswp =
      ({ mram with
          freeFpList := ⟨ramFrames pgd pagenums ++ mram.freeFpList.nodes,
            mram.freeFpList.wild⟩ },
        { activeMswp with
          freeFpList := ⟨swapFrames pgd pagenums ++ activeMswp.freeFpList.nodes,
            activeMswp.freeFpList.wild⟩ }) := by
  induction pagenums generalizing mram activeMswp with
  | nil => rfl
  | cons pagenum pagenums inductionHypothesis =>
      simp only [freePcbLoop]
      cases present : pagingPagePresent (pgd pagenum) with
      | false =>
          rw [if_pos (by simp), inductionHypothesis]
          simp [ramFrames, swapFrames, present, memphyPutFreefp, Chain.cons]
      | true =>
          rw [if_neg (by simp), inductionHypothesis]
          simp [ramFrames, swapFrames, present, memphyPutFreefp, Chain.cons]

/-- The free list of a device gained the frames that were put in front of it. -/
theorem gains_iff
    {before : Chain Nat}
    {added : List Nat}
    {frames : Nat → Prop} :
    Gains before ⟨added ++ before.nodes, before.wild⟩ frames ↔
      added.Nodup ∧ ∀ fpn, fpn ∈ added ↔ frames fpn := by
  constructor
  · rintro ⟨others, same, distinct, exactly⟩
    simp only [Chain.mk.injEq, List.append_cancel_right_eq, and_true] at same
    rw [same]
    exact ⟨distinct, exactly⟩
  · rintro ⟨distinct, exactly⟩
    exact ⟨added, rfl, distinct, exactly⟩

@[simp] theorem mem_ramFrames
    {fpn : Nat} :
    fpn ∈ ramFrames pgd (List.finRange 16384) ↔
      ∃ pgn, pagingPagePresent (pgd pgn) = false ∧ pagingFpn (pgd pgn) = fpn := by
  simp [ramFrames]

@[simp] theorem mem_swapFrames
    {fpn : Nat} :
    fpn ∈ swapFrames pgd (List.finRange 16384) ↔
      ∃ pgn, pagingPagePresent (pgd pgn) = true ∧ pagingPteSwp (pgd pgn) = fpn := by
  simp [swapFrames]

/-- Two present pages that free the same swap frame are one page, if no swap frame
is freed twice. -/
theorem eq_of_nodup_swapFrames
    (distinct : (swapFrames pgd (List.finRange 16384)).Nodup)
    {pgn pgn' : Pgn}
    (present : pagingPagePresent (pgd pgn) = true)
    (present' : pagingPagePresent (pgd pgn') = true)
    (same : pagingPteSwp (pgd pgn) = pagingPteSwp (pgd pgn')) :
    pgn = pgn' := by
  rw [swapFrames, List.nodup_reverse] at distinct
  exact List.inj_on_of_nodup_map distinct (by simp [present]) (by simp [present']) same

/-- What is put back, in terms of the frames. -/
theorem returnsExactly_iff
    (mm : Mm)
    (mram activeMswp : Memphy) :
    ReturnsExactly active mm mram activeMswp ↔
      ((ramFrames mm.pgd (List.finRange 16384)).Nodup ∧
        ∀ fpn, fpn ∈ ramFrames mm.pgd (List.finRange 16384) ↔
          ∃ pgn, onlineFrame (mm.pgd pgn) = some fpn) ∧
      ((swapFrames mm.pgd (List.finRange 16384)).Nodup ∧
        ∀ fpn, fpn ∈ swapFrames mm.pgd (List.finRange 16384) ↔
          ∃ pgn, swapSlot (mm.pgd pgn) = some (active, fpn)) := by
  rw [ReturnsExactly, freePcbMemph, freePcbLoop_eq, gains_iff, gains_iff]

end Loop

theorem swapSlot_eq_some_iff
    {pte : Pte}
    {swptyp swpoff : Nat} :
    swapSlot pte = some (swptyp, swpoff) ↔
      pagingPagePresent pte = true ∧ pagingPageSwapped pte = true ∧
        pagingSwptyp pte = swptyp ∧ pagingPteSwp pte = swpoff := by
  simp [swapSlot, and_assoc]

/-- An online page would free its bits 5 to 25 as the frame of a swapped page. -/
theorem not_online_of_returned
    {active : Nat}
    {pgd : Pgn → Pte}
    (distinct : (swapFrames pgd (List.finRange 16384)).Nodup)
    (swap : ∀ fpn, fpn ∈ swapFrames pgd (List.finRange 16384) ↔
      ∃ pgn, swapSlot (pgd pgn) = some (active, fpn))
    (pgn : Pgn) :
    onlineFrame (pgd pgn) = none := by
  rw [Option.eq_none_iff_forall_ne_some]
  intro fpn online
  obtain ⟨present, notSwapped, _⟩ := onlineFrame_eq_some_iff.mp online
  obtain ⟨other, slot⟩ := (swap _).mp (mem_swapFrames.mpr ⟨pgn, present, rfl⟩)
  obtain ⟨present', swapped, _, same⟩ := swapSlot_eq_some_iff.mp slot
  have one : other = pgn := eq_of_nodup_swapFrames distinct present' present same
  rw [one, notSwapped] at swapped
  cases swapped

/-- A swapped page of a mapped table is on the active device. -/
theorem Mapped.slot
    {active : Nat}
    {pgd : Pgn → Pte}
    (mapped : Mapped active pgd)
    {pgn : Pgn}
    (swapped : (swapSlot (pgd pgn)).isSome) :
    swapSlot (pgd pgn) = some (active, pagingPteSwp (pgd pgn)) := by
  rcases mapped.kinds pgn with zero | online | ⟨swpoff, slot⟩
  · have present := (swapSlot_isSome_iff.mp swapped).1
    rw [zero] at present
    exact absurd present (by decide)
  · rw [not_online_of_swapped swapped] at online
    cases online
  · rw [slot, (swapSlot_eq_some_iff.mp slot).2.2.2]

/-- Releasing a process returns exactly its frames if and only if every page of its
page table is swapped. -/
theorem returnsExactly_iff_swapped
    {active : Nat}
    {mm : Mm}
    (mapped : Mapped active mm.pgd)
    (mram activeMswp : Memphy) :
    ReturnsExactly active mm mram activeMswp ↔
      ∀ pgn, (swapSlot (mm.pgd pgn)).isSome := by
  rw [returnsExactly_iff]
  constructor
  · rintro ⟨⟨_, ram⟩, ⟨distinct, swap⟩⟩ pgn
    have noneOnline := not_online_of_returned distinct swap
    rcases mapped.kinds pgn with zero | online | ⟨swpoff, slot⟩
    · have absent : pagingPagePresent (mm.pgd pgn) = false := by
        rw [zero]
        decide
      obtain ⟨other, online⟩ := (ram _).mp (mem_ramFrames.mpr ⟨pgn, absent, rfl⟩)
      rw [noneOnline other] at online
      cases online
    · rw [noneOnline pgn] at online
      cases online
    · rw [slot]
      rfl
  · intro allSwapped
    have present : ∀ pgn, pagingPagePresent (mm.pgd pgn) = true := fun pgn =>
      (swapSlot_isSome_iff.mp (allSwapped pgn)).1
    have slot : ∀ pgn, swapSlot (mm.pgd pgn) = some (active, pagingPteSwp (mm.pgd pgn)) :=
      fun pgn => mapped.slot (allSwapped pgn)
    have noneOnline : ∀ pgn, onlineFrame (mm.pgd pgn) = none := fun pgn =>
      not_online_of_swapped (allSwapped pgn)
    refine ⟨⟨?_, ?_⟩, ?_, ?_⟩
    · simp [ramFrames, present]
    · intro fpn
      simp [present, noneOnline]
    · rw [swapFrames, List.nodup_reverse]
      refine List.Nodup.map_on ?_ ((List.nodup_finRange _).filter _)
      intro pgn _ pgn' _ same
      exact mapped.offsets pgn pgn' _ (slot pgn) (by rw [same]; exact slot pgn')
    · intro fpn
      simp [present, slot]

/-- A page table whose pages are swapped to the offsets of their numbers. -/
def swappedTable : Pgn → Pte :=
  fun pgn => pteSetSwap 0 0 pgn.val

/-- The swap frames of a table with every page on the active device go back to it. -/
theorem returnsExactly_iff_swapped_full :
    ReturnsExactly 0 { Mm.fresh with pgd := swappedTable } (initMemphy 512 true)
      (initMemphy 0 true) := by
  have slot : ∀ pgn, swapSlot (swappedTable pgn) = some (0, pgn.val) := by
    intro pgn
    have small : pgn.val % 2 ^ 21 = pgn.val := Nat.mod_eq_of_lt (by omega)
    rw [swappedTable, swapSlot_pteSetSwap_int, small]
    rfl
  have mapped : Mapped 0 swappedTable := by
    refine ⟨fun pgn => Or.inr (Or.inr ⟨pgn.val, slot pgn⟩), ?_, ?_⟩
    · intro pgn _ fpn online
      rw [not_online_of_swapped (by rw [slot]; rfl)] at online
      cases online
    · intro pgn pgn' swpoff first second
      rw [slot] at first second
      simp only [Option.some.injEq, Prod.mk.injEq, true_and] at first second
      exact Fin.ext (first.trans second.symm)
  have mapped' : Mapped 0 ({ Mm.fresh with pgd := swappedTable } : Mm).pgd := mapped
  exact (returnsExactly_iff_swapped mapped' _ _).mpr fun pgn => by simp [slot]

/-- With page 0 online in frame 5 and nothing else mapped, frame 0 is put to the
RAM. -/
theorem release_of_onePage :
    Mapped 0 (Function.update (fun _ => 0) 0 (pteSetFpn 0 5)) ∧
      ¬ ReturnsExactly 0
        { Mm.fresh with pgd := Function.update (fun _ => 0) 0 (pteSetFpn 0 5) }
        (initMemphy 4096 true) (initMemphy 4096 true) := by
  have entry : ∀ pgn : Pgn,
      Function.update (fun _ => (0 : Pte)) 0 (pteSetFpn 0 5) pgn =
        if pgn = 0 then pteSetFpn 0 5 else 0 := by
    intro pgn
    rw [Function.update_apply]
  have online : ∀ pgn : Pgn,
      onlineFrame (Function.update (fun _ => (0 : Pte)) 0 (pteSetFpn 0 5) pgn) =
        if pgn = 0 then some 5 else none := by
    intro pgn
    rw [entry]
    split <;> decide
  have slot : ∀ pgn : Pgn,
      swapSlot (Function.update (fun _ => (0 : Pte)) 0 (pteSetFpn 0 5) pgn) = none := by
    intro pgn
    rw [entry]
    split <;> decide
  refine ⟨⟨?_, ?_, ?_⟩, ?_⟩
  · intro pgn
    by_cases first : pgn = 0
    · exact Or.inr (Or.inl (by rw [online, if_pos first]; rfl))
    · exact Or.inl (by rw [entry, if_neg first])
  · intro pgn pgn' fpn first second
    rw [online] at first second
    split at first
    · split at second
      · rename_i here here'
        rw [here, here']
      · cases second
    · cases first
  · intro pgn pgn' swpoff first
    rw [slot] at first
    cases first
  · intro returns
    obtain ⟨⟨_, ram⟩, _⟩ := (returnsExactly_iff _ _ _).mp returns
    obtain ⟨pgn, taken⟩ := (ram 0).mp (mem_ramFrames.mpr ⟨1, by decide, by decide⟩)
    simp only [online] at taken
    split at taken
    · cases taken
    · cases taken

end Memory
end Ossim
