import Mathlib.Data.Nat.Bitwise

/-!
# Bit fields of machine words

A field of a word is a run of its bits, given by a mask and the number of its
lowest bit.  The definitions are the usual mask and shift operations.  The
lemmas describe them one bit at a time, so facts about several fields, disjoint
or overlapping, follow by comparing bits.
-/

namespace Ossim
namespace BitField

variable {w : Nat}

/-- The mask of a single bit. -/
def bit (w nr : Nat) : BitVec w := 1#w <<< nr

/-- Set the bits of the mask. -/
def setbit (word mask : BitVec w) : BitVec w := word ||| mask

/-- Clear the bits of the mask. -/
def clrbit (word mask : BitVec w) : BitVec w := word &&& ~~~mask

/-- Some bit of the mask is set. -/
def test (word mask : BitVec w) : Bool := word &&& mask != 0

/-- The mask with the bits `lo` to `hi` set. -/
def genmask (w hi lo : Nat) : BitVec w :=
  (BitVec.allOnes w <<< lo) &&& (BitVec.allOnes w >>> (w - hi - 1))

/-- Store `value` in the field. -/
def setval (word value mask : BitVec w) (offst : Nat) : BitVec w :=
  (word &&& ~~~mask) ||| ((value <<< offst) &&& mask)

/-- The content of the field. -/
def getval (word mask : BitVec w) (offst : Nat) : BitVec w :=
  (word &&& mask) >>> offst

@[simp] theorem getLsbD_bit
    {nr index : Nat}
    (inWord : nr < w) :
    (bit w nr).getLsbD index = decide (index = nr) := by
  simp only [bit, BitVec.getLsbD_shiftLeft, BitVec.getLsbD_one]
  rw [Bool.eq_iff_iff]
  simp only [Bool.and_eq_true, Bool.not_eq_true', decide_eq_true_eq, decide_eq_false_iff_not]
  omega

theorem getLsbD_setbit
    (word : BitVec w)
    {nr index : Nat}
    (inWord : nr < w) :
    (setbit word (bit w nr)).getLsbD index = (word.getLsbD index || decide (index = nr)) := by
  rw [setbit, BitVec.getLsbD_or, getLsbD_bit inWord]

theorem getLsbD_clrbit
    (word : BitVec w)
    {nr index : Nat}
    (inWord : nr < w) :
    (clrbit word (bit w nr)).getLsbD index = (word.getLsbD index && !decide (index = nr)) := by
  simp only [clrbit, BitVec.getLsbD_and, BitVec.getLsbD_not, getLsbD_bit inWord]
  by_cases inside : index < w
  · simp [inside]
  · simp [BitVec.getLsbD_of_ge word index (by omega)]

/-- Testing a single bit. -/
theorem test_bit
    (word : BitVec w)
    {nr : Nat}
    (inWord : nr < w) :
    test word (bit w nr) = word.getLsbD nr := by
  rw [test, Bool.eq_iff_iff, bne_iff_ne, ne_eq]
  constructor
  · intro nonzero
    by_contra clear
    apply nonzero
    apply BitVec.eq_of_getLsbD_eq
    intro index _
    rw [BitVec.getLsbD_and, getLsbD_bit inWord]
    by_cases here : index = nr
    · subst here
      simp [clear]
    · simp [here]
  · intro set zero
    have bits := congrArg (fun value => value.getLsbD nr) zero
    simp [getLsbD_bit inWord, set] at bits

@[simp] theorem getLsbD_genmask
    {hi lo bit : Nat}
    (inWord : hi < w) :
    (genmask w hi lo).getLsbD bit = decide (lo ≤ bit ∧ bit ≤ hi) := by
  simp only [genmask, BitVec.getLsbD_and, BitVec.getLsbD_shiftLeft,
    BitVec.getLsbD_ushiftRight, BitVec.getLsbD_allOnes]
  rw [Bool.eq_iff_iff]
  simp only [Bool.and_eq_true, Bool.not_eq_true', decide_eq_true_eq, decide_eq_false_iff_not]
  omega

theorem getLsbD_getval
    (word : BitVec w)
    {hi lo bit : Nat}
    (inWord : hi < w) :
    (getval word (genmask w hi lo) lo).getLsbD bit =
      (decide (lo + bit ≤ hi) && word.getLsbD (lo + bit)) := by
  simp only [getval, BitVec.getLsbD_ushiftRight, BitVec.getLsbD_and, getLsbD_genmask inWord]
  rw [Bool.and_comm]
  simp

theorem getLsbD_setval
    (word value : BitVec w)
    {hi lo bit : Nat}
    (inWord : hi < w) :
    (setval word value (genmask w hi lo) lo).getLsbD bit =
      if lo ≤ bit ∧ bit ≤ hi then value.getLsbD (bit - lo) else word.getLsbD bit := by
  simp only [setval, BitVec.getLsbD_or, BitVec.getLsbD_and, BitVec.getLsbD_not,
    BitVec.getLsbD_shiftLeft, getLsbD_genmask inWord]
  by_cases inField : lo ≤ bit ∧ bit ≤ hi
  · have inside : bit < w := by omega
    have notBelow : ¬ bit < lo := by omega
    simp [inField, inside, notBelow]
  · by_cases inside : bit < w
    · simp [inField, inside]
    · simp [inField, BitVec.getLsbD_of_ge word bit (by omega)]

/-- A field read as a number. -/
theorem toNat_getval
    (word : BitVec w)
    {hi lo : Nat}
    (inWord : hi < w) :
    (getval word (genmask w hi lo) lo).toNat = word.toNat / 2 ^ lo % 2 ^ (hi + 1 - lo) := by
  apply Nat.eq_of_testBit_eq
  intro bit
  rw [BitVec.testBit_toNat, getLsbD_getval word inWord, Nat.testBit_mod_two_pow,
    Nat.testBit_div_two_pow, BitVec.testBit_toNat]
  rw [Nat.add_comm bit lo]
  congr 1
  rw [decide_eq_decide]
  omega

/-- A stored field reads back as the value it received, cut to its width. -/
theorem toNat_getval_setval
    (word value : BitVec w)
    {hi lo : Nat}
    (inWord : hi < w) :
    (getval (setval word value (genmask w hi lo) lo) (genmask w hi lo) lo).toNat =
      value.toNat % 2 ^ (hi + 1 - lo) := by
  apply Nat.eq_of_testBit_eq
  intro bit
  rw [BitVec.testBit_toNat, getLsbD_getval _ inWord, getLsbD_setval _ _ inWord,
    Nat.testBit_mod_two_pow, BitVec.testBit_toNat]
  by_cases inField : lo + bit ≤ hi
  · have narrow : bit < hi + 1 - lo := by omega
    simp [inField, narrow]
  · have wide : ¬ bit < hi + 1 - lo := by omega
    simp [inField, wide]

/-- Storing a field leaves a disjoint field as it was. -/
theorem getval_setval_disjoint
    (word value : BitVec w)
    {hi lo hi' lo' : Nat}
    (inWord : hi < w)
    (inWord' : hi' < w)
    (disjoint : hi < lo' ∨ hi' < lo) :
    getval (setval word value (genmask w hi lo) lo) (genmask w hi' lo') lo' =
      getval word (genmask w hi' lo') lo' := by
  apply BitVec.eq_of_getLsbD_eq
  intro bit _
  rw [getLsbD_getval _ inWord', getLsbD_getval _ inWord', getLsbD_setval _ _ inWord]
  by_cases inField : lo' + bit ≤ hi'
  · have outside : ¬ (lo ≤ lo' + bit ∧ lo' + bit ≤ hi) := by omega
    simp [outside]
  · simp [inField]

end BitField
end Ossim
