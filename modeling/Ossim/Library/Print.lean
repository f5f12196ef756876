import Ossim.Library.Stdio

/-!
# Writing text for `stdio`

Numbers in decimal notation and words, separated by blanks, as a program or an editor
writes them.  The conversions of `fscanf` read them back, since a number ends where
its digits end, and a word at the next white space.
-/

namespace Ossim
namespace Stdio

open CString

def blank : CChar := ⟨32, by decide⟩

/-- The last decimal digit of a number. -/
def digit (value : Nat) : CChar :=
  ⟨BitVec.ofNat 8 (48 + value % 10), by
    intro isZero
    have code : (48 + value % 10) % 2 ^ 8 = 0 := congrArg BitVec.toNat isZero
    omega⟩

/-- A number in decimal notation. -/
def printNat (value : Nat) : CString := ofChars (Nat.toDigits 10 value)

/-! ## Digits -/

theorem toNat_digit (value : Nat) : (digit value).val.toNat = 48 + value % 10 := by
  simp only [digit, BitVec.toNat_ofNat]
  omega

theorem isDigit_digit (value : Nat) : isDigit (digit value) = true := by
  simp only [isDigit, toNat_digit, Bool.and_eq_true, decide_eq_true_eq]
  omega

theorem ofChars_digitChar
    {value : Nat}
    (small : value < 10) :
    ofChars [value.digitChar] = [digit value] := by
  have all : ∀ value, value < 10 → ofChars [Nat.digitChar value] = [digit value] := by decide
  exact all value small

theorem ofChars_append
    {chars : List Char}
    (nonzero : ∀ char ∈ chars, BitVec.ofNat 8 char.toNat ≠ 0)
    (more : List Char) :
    ofChars (chars ++ more) = ofChars chars ++ ofChars more := by
  induction chars with
  | nil => rfl
  | cons char chars inductionHypothesis =>
      have isNonzero := nonzero char List.mem_cons_self
      have rest := inductionHypothesis fun char member =>
        nonzero char (List.mem_cons_of_mem _ member)
      simp only [ofChars, List.cons_append, List.map_cons, ofBytes, isNonzero, ne_eq,
        not_false_eq_true, dif_pos, List.cons.injEq, true_and]
      exact rest

theorem printNat_of_lt
    {value : Nat}
    (small : value < 10) :
    printNat value = [digit value] := by
  rw [printNat, Nat.toDigits_of_lt_base small, ofChars_digitChar small]

/-- A longer number ends with its last digit. -/
theorem printNat_of_le
    {value : Nat}
    (large : 10 ≤ value) :
    printNat value = printNat (value / 10) ++ [digit value] := by
  have nonzero : ∀ char ∈ Nat.toDigits 10 (value / 10), BitVec.ofNat 8 char.toNat ≠ 0 := by
    intro char member isZero
    have isDigit := Nat.isDigit_of_mem_toDigits (by decide) (by decide) member
    have code : char.toNat % 2 ^ 8 = 0 := congrArg BitVec.toNat isZero
    simp only [Char.isDigit, Bool.and_eq_true, decide_eq_true_eq, ge_iff_le,
      UInt32.le_iff_toNat_le] at isDigit
    have atLeast : 48 ≤ char.toNat := isDigit.1
    have atMost : char.toNat ≤ 57 := isDigit.2
    omega
  have last : digit (value % 10) = digit value := by
    apply Subtype.ext
    apply BitVec.eq_of_toNat_eq
    rw [toNat_digit, toNat_digit, Nat.mod_mod]
  rw [printNat, Nat.toDigits_of_base_le (by decide) large, ofChars_append nonzero,
    ofChars_digitChar (Nat.mod_lt _ (by decide)), last]
  rfl

theorem isDigit_of_mem_printNat
    {value : Nat}
    {char : CChar}
    (member : char ∈ printNat value) :
    isDigit char = true := by
  induction value using Nat.strongRecOn with
  | ind value inductionHypothesis =>
      rcases Nat.lt_or_ge value 10 with small | large
      · rw [printNat_of_lt small, List.mem_singleton] at member
        rw [member]
        exact isDigit_digit value
      · rw [printNat_of_le large, List.mem_append, List.mem_singleton] at member
        rcases member with front | rfl
        · exact inductionHypothesis (value / 10) (by omega) front
        · exact isDigit_digit value

theorem printNat_ne_nil (value : Nat) : printNat value ≠ [] := by
  rcases Nat.lt_or_ge value 10 with small | large
  · simp [printNat_of_lt small]
  · simp [printNat_of_le large]

/-- The digits have the value that was printed. -/
theorem decimal_printNat (value : Nat) : decimal (printNat value) = value := by
  induction value using Nat.strongRecOn with
  | ind value inductionHypothesis =>
      rcases Nat.lt_or_ge value 10 with small | large
      · rw [printNat_of_lt small]
        simp only [decimal, List.foldl_cons, List.foldl_nil, toNat_digit]
        omega
      · have front : decimal (printNat (value / 10)) = value / 10 :=
          inductionHypothesis (value / 10) (by omega)
        rw [decimal] at front
        rw [printNat_of_le large, decimal, List.foldl_append, front]
        simp only [List.foldl_cons, List.foldl_nil, toNat_digit]
        omega

theorem length_printNat_le
    {value count : Nat}
    (small : value < 10 ^ (count + 1)) :
    (printNat value).length ≤ count + 1 := by
  induction count generalizing value with
  | zero =>
      rw [printNat_of_lt (by simpa using small)]
      exact Nat.le_refl 1
  | succ count inductionHypothesis =>
      rcases Nat.lt_or_ge value 10 with single | large
      · rw [printNat_of_lt single, List.length_singleton]
        omega
      · have front : value / 10 < 10 ^ (count + 1) := by
          rw [Nat.div_lt_iff_lt_mul (by decide), ← Nat.pow_succ]
          exact small
        rw [printNat_of_le large, List.length_append, List.length_singleton]
        exact Nat.succ_le_succ (inductionHypothesis front)

/-- A printed number is a word that is this number. -/
theorem integer_printNat (value : Nat) : integer (printNat value) = some (value : Int) := by
  have digits : ∀ char ∈ printNat value, isDigit char = true := fun _ member =>
    isDigit_of_mem_printNat member
  have unsigned : scanSign (printNat value) = (false, printNat value) := by
    cases printed : printNat value with
    | nil => exact absurd printed (printNat_ne_nil value)
    | cons char rest =>
        have isDigit := digits char (by simp [printed])
        have notMinus : char ≠ minus := by
          rintro rfl
          exact absurd isDigit (by decide)
        have notPlus : char ≠ plus := by
          rintro rfl
          exact absurd isDigit (by decide)
        rw [scanSign, if_neg notMinus, if_neg notPlus]
  simp only [integer, unsigned, decimal_printNat, signed]
  rw [if_pos ⟨printNat_ne_nil value, List.all_eq_true.mpr digits⟩]
  rfl

/-- Values of 32 bits are numerals. -/
theorem numeral_printNat
    {least : Int}
    (value : BitVec 32)
    (fits : least ≤ 0) :
    numeral least (printNat value.toNat) = some value := by
  have inRange : least ≤ (value.toNat : Int) ∧ (value.toNat : Int) < 2 ^ 32 :=
    ⟨by omega, by have := value.isLt; omega⟩
  simp only [numeral, integer_printNat, Option.bind_eq_bind, Option.bind_some, if_pos inRange]
  simp

/-! ## Words -/

/-- A word stands between white space. -/
def IsWord (word : CString) : Prop :=
  word ≠ [] ∧ ∀ char ∈ word, isSpace char = false

instance decidableIsWord (word : CString) : Decidable (IsWord word) :=
  decidable_of_iff ((!word.isEmpty && word.all (!isSpace ·)) = true) (by simp [IsWord])

/-- The text is empty or starts with white space. -/
def StartsBlank (text : CString) : Prop :=
  ∀ char, text.head? = some char → isSpace char = true

theorem isWord_printNat (value : Nat) : IsWord (printNat value) := by
  refine ⟨printNat_ne_nil value, fun char member => ?_⟩
  have isDigit := isDigit_of_mem_printNat member
  cases space : isSpace char with
  | false => rfl
  | true =>
      rw [isDigit_of_isSpace space] at isDigit
      cases isDigit

theorem startsBlank_cons
    {char : CChar}
    (space : isSpace char = true)
    (rest : CString) :
    StartsBlank (char :: rest) := by
  intro first head
  cases head
  exact space

theorem skipSpace_of_word
    {word : CString}
    (isWord : IsWord word)
    (rest : CString) :
    skipSpace (word ++ rest) = word ++ rest := by
  obtain ⟨char, more, rfl⟩ := List.exists_cons_of_ne_nil isWord.1
  have letter := isWord.2 char List.mem_cons_self
  rw [List.cons_append, skipSpace, List.dropWhile_cons_of_neg (by simp [letter])]

/-- The next word is read as it was written. -/
theorem scanString_of_word
    {word rest : CString}
    (isWord : IsWord word)
    (ends : StartsBlank rest) :
    scanString (word ++ rest) = some (word, rest) :=
  scanString_eq_some_iff.mpr ⟨skipSpace_of_word isWord rest, isWord.1, isWord.2, ends⟩

theorem scanString_of_blank
    {char : CChar}
    (space : isSpace char = true)
    (text : CString) :
    scanString (char :: text) = scanString text :=
  scanString_congr (by rw [skipSpace, skipSpace, List.dropWhile_cons_of_pos space])

/-- Numbers, each behind a blank. -/
def printNumerals (values : List (BitVec 32)) : CString :=
  values.flatMap fun value => blank :: printNat value.toNat

/-- Numerals are read as they were printed. -/
theorem takeNumerals_printNumerals
    {least : Int}
    (fits : least ≤ 0)
    (values : List (BitVec 32))
    {rest : CString}
    (ends : StartsBlank rest) :
    takeNumerals least values.length (printNumerals values ++ rest) = some (values, rest) := by
  induction values with
  | nil => rfl
  | cons value values inductionHypothesis =>
      have behind : StartsBlank (printNumerals values ++ rest) := by
        cases values with
        | nil => exact ends
        | cons => exact startsBlank_cons (by decide) _
      have found : scanString (printNumerals (value :: values) ++ rest) =
          some (printNat value.toNat, printNumerals values ++ rest) := by
        simp only [printNumerals, List.flatMap_cons, List.cons_append, List.append_assoc]
        rw [scanString_of_blank (by decide)]
        exact scanString_of_word (isWord_printNat _) behind
      exact takeNumerals_succ_eq_some.mpr ⟨_, _, value, values, found,
        numeral_printNat value fits, inductionHypothesis, rfl⟩

/-- So are the numerals of a line, if the line may have as many. -/
theorem lineNumerals_printNumerals
    {least : Int}
    (fits : least ≤ 0)
    {values : List (BitVec 32)}
    {count : Nat}
    (atMost : values.length ≤ count) :
    lineNumerals least count (printNumerals values) = some values := by
  induction values generalizing count with
  | nil => cases count <;> rfl
  | cons value values inductionHypothesis =>
      cases count with
      | zero => cases atMost
      | succ count =>
          have behind : StartsBlank (printNumerals values) := by
            cases values with
            | nil => exact nofun
            | cons => exact startsBlank_cons (by decide) _
          have found : scanString (printNumerals (value :: values)) =
              some (printNat value.toNat, printNumerals values) := by
            simp only [printNumerals, List.flatMap_cons, List.cons_append]
            rw [scanString_of_blank (by decide)]
            exact scanString_of_word (isWord_printNat _) behind
          simp only [lineNumerals, found, numeral_printNat value fits,
            inductionHypothesis (Nat.le_of_succ_le_succ atMost), Option.bind_eq_bind,
            Option.bind_some]

/-! ## Lines -/

theorem newline_notMem_printNumerals (values : List (BitVec 32)) :
    newline ∉ printNumerals values := by
  intro member
  obtain ⟨value, _, inPrinted⟩ := List.mem_flatMap.mp member
  rcases List.mem_cons.mp inPrinted with isBlank | inNumber
  · exact absurd isBlank (by decide)
  · exact absurd (isDigit_of_mem_printNat inNumber) (by decide)

theorem length_printNumerals_le (values : List (BitVec 32)) :
    (printNumerals values).length ≤ 11 * values.length := by
  induction values with
  | nil => exact Nat.le_refl 0
  | cons value values inductionHypothesis =>
      have number : (printNat value.toNat).length ≤ 10 :=
        length_printNat_le (by have := value.isLt; omega)
      rw [printNumerals, List.flatMap_cons, List.length_append, List.length_cons,
        List.length_cons]
      rw [printNumerals] at inductionHypothesis
      omega

/-- A line in front of a text whose lines are shorter than a bound. -/
theorem lines_append
    {bound : Nat}
    {line text : CString}
    (noNewline : newline ∉ line)
    (short : line.length < bound)
    (others : ∀ rest, rest <:+ text → (rest.takeWhile (· ≠ newline)).length < bound) :
    ∀ rest, rest <:+ line ++ newline :: text →
      (rest.takeWhile (· ≠ newline)).length < bound := by
  induction line with
  | nil =>
      intro rest behind
      rcases List.suffix_cons_iff.mp behind with rfl | inText
      · simpa using short
      · exact others rest inText
  | cons char line inductionHypothesis =>
      intro rest behind
      rcases List.suffix_cons_iff.mp behind with rfl | inLine
      · have whole : ∀ other ∈ char :: line, decide (other ≠ newline) = true := by
          intro other member
          rw [decide_eq_true_eq]
          rintro rfl
          exact noNewline member
        show (((char :: line) ++ newline :: text).takeWhile (· ≠ newline)).length < bound
        rw [List.takeWhile_append_of_pos whole]
        simpa using short
      · exact inductionHypothesis (fun member => noNewline (List.mem_cons_of_mem _ member))
          (Nat.lt_of_succ_lt short) rest inLine

/-! ## Numbers of a width -/

/-- `%2d`: a number behind blanks, up to a width. -/
def printPadded (width value : Nat) : CString :=
  List.replicate (width - (printNat value).length) blank ++ printNat value

/-- A number behind white space, and the text behind its digits. -/
def readNat (text : CString) : Option (Nat × CString) :=
  let digits := skipSpace text
  if digits.takeWhile isDigit = [] then
    none
  else
    some (decimal (digits.takeWhile isDigit), digits.dropWhile isDigit)

/-- A number in front of a text that does not start with a digit is read as it was
printed. -/
theorem readNat_printPadded
    (width value : Nat)
    {rest : CString}
    (ends : ∀ char, rest.head? = some char → isDigit char = false) :
    readNat (printPadded width value ++ rest) = some (value, rest) := by
  have digits : ∀ char ∈ printNat value, isDigit char = true := fun _ member =>
    isDigit_of_mem_printNat member
  have blanks : ∀ char ∈ List.replicate (width - (printNat value).length) blank,
      isSpace char = true := by
    intro char member
    rw [List.eq_of_mem_replicate member]
    decide
  have skipped : skipSpace (printPadded width value ++ rest) = printNat value ++ rest := by
    rw [printPadded, List.append_assoc, skipSpace, List.dropWhile_append_of_pos blanks]
    exact skipSpace_of_word (isWord_printNat value) rest
  have nothing : rest.takeWhile isDigit = [] ∧ rest.dropWhile isDigit = rest := by
    cases rest with
    | nil => exact ⟨rfl, rfl⟩
    | cons char rest =>
        have notDigit := ends char rfl
        simp [notDigit]
  have taken : (printNat value ++ rest).takeWhile isDigit = printNat value := by
    rw [List.takeWhile_append_of_pos digits, nothing.1, List.append_nil]
  have dropped : (printNat value ++ rest).dropWhile isDigit = rest := by
    rw [List.dropWhile_append_of_pos digits, nothing.2]
  simp only [readNat, skipped, taken, dropped, printNat_ne_nil, if_false, decimal_printNat]

theorem readNat_printNat
    (value : Nat)
    {rest : CString}
    (ends : ∀ char, rest.head? = some char → isDigit char = false) :
    readNat (printNat value ++ rest) = some (value, rest) := by
  have padded : printNat value = printPadded 0 value := by simp [printPadded]
  rw [padded]
  exact readNat_printPadded 0 value ends

end Stdio
end Ossim
