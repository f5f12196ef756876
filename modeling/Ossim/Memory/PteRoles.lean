import Ossim.Memory.Pte

/-!
# Role changes of a page table entry

The page of an entry goes online and is swapped out any number of times.  Each setter
leaves the bits outside its own fields as they are, so an entry has bits of earlier roles
in it.  It is decoded as the last call has set it all the same.
-/

namespace Ossim
namespace Memory
namespace PteRoles

open BitField

/-- The calls that set an entry, with values that fit in the fields. -/
inductive PteCall where
  | setFpn (fpn : Fin (2 ^ 13))
  | setSwap (swptyp : Fin (2 ^ 5)) (swpoff : Fin (2 ^ 21))

/-- The entry after a call. -/
def PteCall.perform (pte : Pte) : PteCall → Pte
  | .setFpn fpn => pteSetFpn pte fpn
  | .setSwap swptyp swpoff => pteSetSwap pte (swptyp.val : Int) swpoff

/-- The entry after a sequence of calls. -/
def after (pte : Pte) (calls : List PteCall) : Pte := calls.foldl PteCall.perform pte

/-- The entry is decoded as a call has set it. -/
structure Decodes (pte : Pte) (call : PteCall) : Prop where
  swapped : pagingPageSwapped pte = true ↔ ∃ swptyp swpoff, call = .setSwap swptyp swpoff
  online : ∀ fpn, call = .setFpn fpn → pagingFpn pte = fpn
  swap : ∀ swptyp swpoff, call = .setSwap swptyp swpoff →
    pagingSwptyp pte = swptyp ∧ pagingPteSwp pte = swpoff

/-- No setter has a field in the bits 26 to 29. -/
theorem getLsbD_perform
    (pte : Pte)
    (call : PteCall)
    {index : Nat}
    (atLeast : 26 ≤ index)
    (atMost : index ≤ 29) :
    (call.perform pte).getLsbD index = pte.getLsbD index := by
  have notPresent : index ≠ 31 := by omega
  have notSwapped : index ≠ 30 := by omega
  cases call with
  | setFpn fpn =>
      rw [PteCall.perform, pteSetFpn, pagingPteFpnMask, getLsbD_setval _ _ (by decide),
        if_neg (by omega), pagingPteSwappedMask, getLsbD_clrbit _ (by decide),
        pagingPtePresentMask, getLsbD_setbit _ (by decide)]
      simp [notPresent, notSwapped]
  | setSwap swptyp swpoff =>
      rw [PteCall.perform, pteSetSwap, pagingPteSwpoffMask, getLsbD_setval _ _ (by decide),
        if_neg (by omega), pagingPteSwptypMask, getLsbD_setval _ _ (by decide),
        if_neg (by omega), pagingPteSwappedMask, getLsbD_setbit _ (by decide),
        pagingPtePresentMask, getLsbD_setbit _ (by decide)]
      simp [notPresent, notSwapped]

/-- A call decides the role of the entry, whatever came before. -/
theorem decodes_perform
    (pte : Pte)
    (call : PteCall) :
    Decodes (call.perform pte) call := by
  cases call with
  | setFpn fpn =>
      refine ⟨?_, ?_, ?_⟩
      · simp [PteCall.perform]
      · rintro _ ⟨⟩
        rw [PteCall.perform, pagingFpn_pteSetFpn, Nat.mod_eq_of_lt fpn.isLt]
      · rintro _ _ ⟨⟩
  | setSwap swptyp swpoff =>
      refine ⟨?_, ?_, ?_⟩
      · simp [PteCall.perform]
      · rintro _ ⟨⟩
      · rintro _ _ ⟨⟩
        have typFits := swptyp.isLt
        constructor
        · rw [PteCall.perform, pagingSwptyp_pteSetSwap]
          omega
        · rw [PteCall.perform, pagingPteSwp_pteSetSwap, Nat.mod_eq_of_lt swpoff.isLt]

/-- A sequence of calls keeps the bits 26 to 29. -/
theorem getLsbD_after
    (pte : Pte)
    (calls : List PteCall)
    {index : Nat}
    (atLeast : 26 ≤ index)
    (atMost : index ≤ 29) :
    (after pte calls).getLsbD index = pte.getLsbD index := by
  induction calls generalizing pte with
  | nil => rfl
  | cons call calls inductionHypothesis =>
      rw [after, List.foldl_cons]
      exact (inductionHypothesis _).trans (getLsbD_perform pte call atLeast atMost)

/-- After any sequence of calls the entry is decoded as the last one has set it, and its
bits 26 to 29 have never changed. -/
theorem decodes_last
    (pte : Pte)
    (calls : List PteCall)
    (nonempty : calls ≠ []) :
    Decodes (after pte calls) (calls.getLast nonempty) ∧
      ∀ first, first <+: calls → ∀ index, 26 ≤ index → index ≤ 29 →
        (after pte first).getLsbD index = pte.getLsbD index := by
  refine ⟨?_, fun first _ index atLeast atMost => getLsbD_after pte first atLeast atMost⟩
  obtain ⟨earlier, last, rfl⟩ : ∃ earlier last, calls = earlier ++ [last] :=
    ⟨_, _, (List.dropLast_concat_getLast nonempty).symm⟩
  rw [List.getLast_concat, after, List.foldl_append]
  exact decodes_perform _ last

/-- A page is swapped out to slot 300 of device 3 and comes back to frame 7. -/
theorem decodes_last_comesBack :
    pagingFpn (after 0xffffffff [.setSwap 3 300, .setFpn 7]) = 7 := by
  have decodes := (decodes_last 0xffffffff [.setSwap 3 300, .setFpn 7] (by decide)).1
  exact decodes.online 7 rfl

end PteRoles
end Memory
end Ossim
