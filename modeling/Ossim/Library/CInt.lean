import Mathlib.Data.Int.Init
import Mathlib.Tactic.NormNum

/-!
# C integers

Values of the C types `int` and `unsigned long` are mathematical integers here.
A conversion reduces its argument to the range of the target type, unsigned
arithmetic is integer arithmetic followed by such a conversion, and signed
arithmetic is checked: a signed result outside `int` is undefined behaviour and
has no value.
-/

namespace Ossim
namespace CInt

/-- Conversion to `int`. -/
def toInt (value : Int) : Int := value.bmod (2 ^ 32)

/-- Conversion to `unsigned long`. -/
def toULong (value : Int) : Nat := (value % 2 ^ 64).toNat

/-- The result of signed arithmetic, if it is an `int`. -/
def checked (value : Int) : Option Int :=
  if -2 ^ 31 ≤ value ∧ value < 2 ^ 31 then some value else none

theorem toInt_of_mem
    {value : Int}
    (atLeast : -2 ^ 31 ≤ value)
    (below : value < 2 ^ 31) :
    toInt value = value := by
  unfold toInt
  apply Int.bmod_eq_of_le
  · norm_num
    omega
  · norm_num
    omega

theorem toInt_lt (value : Int) : toInt value < 2 ^ 31 :=
  Int.bmod_lt (Nat.two_pow_pos 32)

/-- An `unsigned` value from 2^31 on becomes negative. -/
theorem toInt_of_wrapped
    {value : Int}
    (atLeast : 2 ^ 31 ≤ value)
    (below : value < 2 ^ 32) :
    toInt value = value - 2 ^ 32 := by
  have shifted : toInt (value - 2 ^ 32) = toInt value := Int.sub_bmod_right value (2 ^ 32)
  rw [← shifted, toInt_of_mem (by omega) (by omega)]

/-- A conversion to `int` keeps the lower half, with its highest bit as the sign. -/
theorem toInt_nonneg_iff
    {value : Int} :
    0 ≤ toInt value ↔ value % 2 ^ 32 < 2 ^ 31 := by
  rw [toInt, Int.bmod_def]
  split <;> norm_num at * <;> omega

theorem toInt_emod (value : Int) : toInt (value % 2 ^ 64) = toInt value := by
  rw [toInt, toInt, Int.bmod_def, Int.bmod_def]
  norm_num

theorem toULong_of_mem
    {value : Int}
    (atLeast : 0 ≤ value)
    (below : value < 2 ^ 64) :
    (toULong value : Int) = value := by
  unfold toULong
  rw [Int.emod_eq_of_lt atLeast below, Int.toNat_of_nonneg atLeast]

@[simp] theorem toULong_natCast (value : Nat) :
    toULong (value : Int) = value % 2 ^ 64 := by
  unfold toULong
  omega

/-- Only the lower half of an unsigned product is converted. -/
theorem toInt_toULong_mul (left right : Int) :
    toInt (toULong (toULong left * toULong right)) = toInt (left * right) := by
  have reduced (value : Int) : (toULong value : Int) = value % 2 ^ 64 := by
    unfold toULong
    omega
  rw [reduced, reduced, reduced, ← Int.mul_emod, toInt_emod]

theorem checked_eq_some_iff
    {value result : Int} :
    checked value = some result ↔
      value = result ∧ -2 ^ 31 ≤ value ∧ value < 2 ^ 31 := by
  unfold checked
  split
  · rename_i inRange
    constructor
    · intro same
      exact ⟨Option.some.inj same, inRange⟩
    · rintro ⟨rfl, _⟩
      rfl
  · rename_i outOfRange
    constructor
    · intro same
      cases same
    · rintro ⟨_, inRange⟩
      exact absurd inRange outOfRange

end CInt
end Ossim
