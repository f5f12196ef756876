/-!
# C strings

A string is the list of its characters without the terminating zero.  No character is
zero, so every suffix of a string is a string, and strings are compared up to the end of
both.
-/

namespace Ossim

/-- A character other than the terminating zero. -/
abbrev CChar := { byte : BitVec 8 // byte ≠ 0 }

/-- The characters in front of the terminating zero. -/
abbrev CString := List CChar

namespace CString

/-- The string at the start of an array. -/
def ofBytes : List (BitVec 8) → CString
  | [] => []
  | byte :: bytes => if nonzero : byte ≠ 0 then ⟨byte, nonzero⟩ :: ofBytes bytes else []

/-- `strcmp`: the difference of the first two characters that differ, as `unsigned char`. -/
def strcmp : CString → CString → Int
  | [], [] => 0
  | char :: _, [] => char.val.toNat
  | [], other :: _ => -other.val.toNat
  | char :: rest, other :: rest' =>
      if char = other then strcmp rest rest'
      else (char.val.toNat : Int) - other.val.toNat

/-- `strrchr`: the string from the last occurrence of a character on. -/
def strrchr (char : CChar) : CString → Option CString
  | [] => none
  | first :: rest =>
      match strrchr char rest with
      | some found => some found
      | none => if first = char then some (first :: rest) else none

/-- The code of a character is not zero. -/
theorem toNat_ne_zero (char : CChar) : char.val.toNat ≠ 0 := by
  intro isZero
  exact char.property (BitVec.eq_of_toNat_eq isZero)

/-- Different characters have different codes. -/
theorem toNat_sub_ne_zero
    {char other : CChar}
    (different : char ≠ other) :
    (char.val.toNat : Int) - other.val.toNat ≠ 0 := by
  intro same
  apply different
  apply Subtype.ext
  apply BitVec.eq_of_toNat_eq
  omega

/-- `strcmp` compares for equality. -/
theorem strcmp_eq_zero_iff (string other : CString) :
    strcmp string other = 0 ↔ string = other := by
  induction string generalizing other with
  | nil =>
      cases other with
      | nil => simp [strcmp]
      | cons char rest => simpa [strcmp] using toNat_ne_zero char
  | cons char rest inductionHypothesis =>
      cases other with
      | nil => simpa [strcmp] using toNat_ne_zero char
      | cons char' rest' =>
          by_cases same : char = char'
          · rw [strcmp, if_pos same, inductionHypothesis, List.cons.injEq]
            simp [same]
          · rw [strcmp, if_neg same, List.cons.injEq]
            exact iff_of_false (toNat_sub_ne_zero same) fun both => same both.1

end CString
end Ossim
