import Ossim.Library.CString
import Mathlib.Data.List.DropRight
import Mathlib.Tactic.NormNum

/-!
# Reading text with `stdio`

The functions that read a stream, as functions of the text that is left of it.  A text has
no zero character, so whatever is stored of it is a string.

A number is converted as the C library with a `long` of 64 bits converts it: first to
64 bits, with the nearest value where the number does not fit, and then to the 32 bits of
the object that it is stored in.
-/

namespace Ossim
namespace Stdio

open CString

/-- The string of these characters. -/
def ofChars (chars : List Char) : CString :=
  ofBytes (chars.map fun char => BitVec.ofNat 8 char.toNat)

/-- `isspace`: the blank, and tab, newline, vertical tab, form feed and return. -/
def isSpace (char : CChar) : Bool :=
  char.val.toNat = 32 || (9 ≤ char.val.toNat && char.val.toNat ≤ 13)

/-- `isdigit` -/
def isDigit (char : CChar) : Bool :=
  48 ≤ char.val.toNat && char.val.toNat ≤ 57

def plus : CChar := ⟨43, by decide⟩

def minus : CChar := ⟨45, by decide⟩

def newline : CChar := ⟨10, by decide⟩

/-! ## Conversions -/

/-- White space of a format. -/
def skipSpace (text : CString) : CString := text.dropWhile isSpace

/-- `%s`: the next word and the text behind it, and nothing at the end of the text. -/
def scanString (text : CString) : Option (CString × CString) :=
  match skipSpace text with
  | [] => none
  | char :: rest =>
      some ((char :: rest).takeWhile (!isSpace ·), (char :: rest).dropWhile (!isSpace ·))

/-- The sign of a number, which may be missing. -/
def scanSign : CString → Bool × CString
  | [] => (false, [])
  | char :: rest =>
      if char = minus then (true, rest)
      else if char = plus then (false, rest)
      else (false, char :: rest)

/-- The value of decimal digits. -/
def decimal (digits : CString) : Nat :=
  digits.foldl (fun value digit => 10 * value + (digit.val.toNat - 48)) 0

def signed (negative : Bool) (value : Nat) : Int :=
  if negative then -value else value

/-- `%u` and `%d` match the same text.  A sign without digits is read, and nothing is
converted. -/
def scanInteger (text : CString) : Option Int × CString :=
  let (negative, digits) := scanSign (skipSpace text)
  if digits.takeWhile isDigit = [] then (none, digits)
  else
    (some (signed negative (decimal (digits.takeWhile isDigit))), digits.dropWhile isDigit)

/-- `%u`: `strtoul`, stored in 32 bits. -/
def toUnsigned (value : Int) : BitVec 32 :=
  if value.natAbs < 2 ^ 64 then BitVec.ofInt 32 value else BitVec.allOnes 32

/-- `%d`: `strtol`, stored in 32 bits. -/
def toSigned (value : Int) : BitVec 32 :=
  BitVec.ofInt 32 (max (-2 ^ 63) (min value (2 ^ 63 - 1)))

/-- `%lu`: `strtoul`, stored in 64 bits. -/
def toUnsignedLong (value : Int) : BitVec 64 :=
  if value.natAbs < 2 ^ 64 then BitVec.ofInt 64 value else BitVec.allOnes 64

/-- The parts of a format. -/
inductive Directive where
  | white
  | integer (convert : Int → BitVec 32)

def percentU : Directive := .integer toUnsigned

def percentD : Directive := .integer toSigned

/-- The conversions of a format. -/
def conversions : List Directive → Nat
  | [] => 0
  | .white :: format => conversions format
  | .integer _ :: format => conversions format + 1

/-- `fscanf` and `sscanf`: the values that are stored and the text that is left.  The first
conversion that fails is the last one. -/
def scanf : List Directive → CString → List (BitVec 32) × CString
  | [], text => ([], text)
  | .white :: format, text => scanf format (skipSpace text)
  | .integer convert :: format, text =>
      match scanInteger text with
      | (none, rest) => ([], rest)
      | (some value, rest) =>
          (convert value :: (scanf format rest).1, (scanf format rest).2)

/-- The characters up to the newline, and at most this many. -/
def takeLine : Nat → CString → CString × CString
  | 0, text => ([], text)
  | _ + 1, [] => ([], [])
  | count + 1, char :: rest =>
      if char = newline then ([newline], rest)
      else (char :: (takeLine count rest).1, (takeLine count rest).2)

/-- `fgets` into an array of this size.  At the end of the text the array is kept. -/
def fgets (size : Nat) (buf text : CString) : CString × CString :=
  if text = [] then (buf, []) else takeLine (size - 1) text

/-! ## Words -/

/-- A word that is a decimal number with an optional sign. -/
def integer (word : CString) : Option Int :=
  let (negative, digits) := scanSign word
  if digits ≠ [] ∧ digits.all isDigit then some (signed negative (decimal digits)) else none

/-- A word that is a number from this one on that 32 bits can hold. -/
def numeral (least : Int) (word : CString) : Option (BitVec 32) := do
  let value ← integer word
  if least ≤ value ∧ value < 2 ^ 32 then some (BitVec.ofInt 32 value) else none

/-- The numbers at the start of the text, so many of them. -/
def takeNumerals (least : Int) : Nat → CString → Option (List (BitVec 32) × CString)
  | 0, text => some ([], text)
  | count + 1, text => do
      let (word, rest) ← scanString text
      let value ← numeral least word
      let (values, rest) ← takeNumerals least count rest
      some (value :: values, rest)

/-- The numbers of a line that holds nothing else, and at most so many of them. -/
def lineNumerals (least : Int) : Nat → CString → Option (List (BitVec 32))
  | 0, line => if skipSpace line = [] then some [] else none
  | count + 1, line =>
      match scanString line with
      | none => some []
      | some (word, rest) => do
          let value ← numeral least word
          let values ← lineNumerals least count rest
          some (value :: values)

/-! ### Characters -/

theorem isDigit_of_isSpace
    {char : CChar}
    (space : isSpace char = true) :
    isDigit char = false := by
  simp only [isSpace, Bool.or_eq_true, Bool.and_eq_true, decide_eq_true_eq] at space
  simp only [isDigit, Bool.and_eq_false_iff, decide_eq_false_iff_not]
  omega

/-! ### White space -/

theorem skipSpace_skipSpace (text : CString) :
    skipSpace (skipSpace text) = skipSpace text :=
  List.dropWhile_idempotent _ text

theorem isSpace_of_skipSpace
    {text rest : CString}
    {char : CChar}
    (skipped : skipSpace text = char :: rest) :
    isSpace char = false := by
  have head := List.head?_dropWhile_not isSpace text
  rw [skipSpace] at skipped
  simpa [skipped] using head

/-- The next word depends on the text behind the spaces. -/
theorem scanString_congr
    {text other : CString}
    (same : skipSpace text = skipSpace other) :
    scanString text = scanString other := by
  rw [scanString, scanString, same]

theorem scanString_eq_none
    {text : CString}
    (ended : scanString text = none) :
    skipSpace text = [] := by
  rw [scanString] at ended
  split at ended
  · assumption
  · cases ended

/-! ### Words -/

section Word

variable {text word rest : CString}

/-- Behind the spaces stands the word, and behind it a space or the end of the text. -/
theorem scanString_eq_some_iff :
    scanString text = some (word, rest) ↔
      skipSpace text = word ++ rest ∧ word ≠ [] ∧ (∀ char ∈ word, isSpace char = false) ∧
        ∀ char, rest.head? = some char → isSpace char = true := by
  constructor
  · intro found
    rw [scanString] at found
    split at found
    · cases found
    · rename_i first more skipped
      cases found
      refine ⟨skipped.trans List.takeWhile_append_dropWhile.symm, ?_, ?_, ?_⟩
      · simp [isSpace_of_skipSpace skipped]
      · intro char member
        simpa using List.mem_takeWhile_imp member
      · intro char next
        have head := List.head?_dropWhile_not (!isSpace ·) (first :: more)
        rw [next] at head
        simpa using head
  · rintro ⟨skipped, nonempty, letters, spaces⟩
    obtain ⟨first, more, rfl⟩ := List.exists_cons_of_ne_nil nonempty
    have behind : rest.takeWhile (!isSpace ·) = [] ∧ rest.dropWhile (!isSpace ·) = rest := by
      cases rest with
      | nil => exact ⟨rfl, rfl⟩
      | cons char rest => simp [spaces char rfl]
    have inWord : ∀ char ∈ first :: more, (!isSpace char) = true := fun char member => by
      rw [letters char member]
      rfl
    rw [scanString, skipped]
    simp only [List.cons_append]
    rw [← List.cons_append, List.takeWhile_append_of_pos inWord,
      List.dropWhile_append_of_pos inWord, behind.1, behind.2, List.append_nil]

theorem skipSpace_of_scanString
    (found : scanString text = some (word, rest)) :
    skipSpace text = word ++ rest :=
  (scanString_eq_some_iff.mp found).1

theorem scanString_ne_nil
    (found : scanString text = some (word, rest)) :
    word ≠ [] :=
  (scanString_eq_some_iff.mp found).2.1

theorem isSpace_head_of_scanString
    (found : scanString text = some (word, rest))
    {char : CChar}
    (next : rest.head? = some char) :
    isSpace char = true :=
  (scanString_eq_some_iff.mp found).2.2.2 char next

theorem scanSign_append
    (nonempty : word ≠ []) :
    scanSign (word ++ rest) = ((scanSign word).1, (scanSign word).2 ++ rest) := by
  cases word with
  | nil => exact absurd rfl nonempty
  | cons char word =>
      simp only [List.cons_append, scanSign]
      split
      · rfl
      · split <;> rfl

/-- A word that is a number is converted as a whole. -/
theorem scanInteger_of_integer
    {value : Int}
    (found : scanString text = some (word, rest))
    (isInteger : integer word = some value) :
    scanInteger text = (some value, rest) := by
  have skipped := skipSpace_of_scanString found
  have sign : scanSign (word ++ rest) = ((scanSign word).1, (scanSign word).2 ++ rest) :=
    scanSign_append (scanString_ne_nil found)
  simp only [integer, Option.ite_none_right_eq_some, Option.some.injEq] at isInteger
  obtain ⟨⟨nonempty, digits⟩, rfl⟩ := isInteger
  have behind : rest.takeWhile isDigit = [] ∧ rest.dropWhile isDigit = rest := by
    cases rest with
    | nil => exact ⟨rfl, rfl⟩
    | cons char rest =>
        have notDigit := isDigit_of_isSpace (isSpace_head_of_scanString found rfl)
        simp [notDigit]
  have all : ∀ char ∈ (scanSign word).2, isDigit char = true := List.all_eq_true.mp digits
  have taken : ((scanSign word).2 ++ rest).takeWhile isDigit = (scanSign word).2 := by
    rw [List.takeWhile_append_of_pos all, behind.1, List.append_nil]
  have dropped : ((scanSign word).2 ++ rest).dropWhile isDigit = rest := by
    rw [List.dropWhile_append_of_pos all, behind.2]
  simp only [scanInteger, skipped, sign, taken, dropped, if_neg nonempty]

end Word

/-! ### Numbers -/

theorem numeral_eq_some
    {least : Int}
    {word : CString}
    {value : BitVec 32}
    (isNumeral : numeral least word = some value) :
    ∃ number, integer word = some number ∧ least ≤ number ∧ number < 2 ^ 32 ∧
      BitVec.ofInt 32 number = value := by
  simp only [numeral, Option.bind_eq_bind, Option.bind_eq_some_iff,
    Option.ite_none_right_eq_some, Option.some.injEq] at isNumeral
  obtain ⟨number, isInteger, inRange, stored⟩ := isNumeral
  exact ⟨number, isInteger, inRange.1, inRange.2, stored⟩

theorem takeNumerals_succ_eq_some
    {least : Int}
    {count : Nat}
    {text rest : CString}
    {values : List (BitVec 32)} :
    takeNumerals least (count + 1) text = some (values, rest) ↔
      ∃ word behind value more, scanString text = some (word, behind) ∧
        numeral least word = some value ∧
        takeNumerals least count behind = some (more, rest) ∧ value :: more = values := by
  simp only [takeNumerals, Option.bind_eq_bind, Option.bind_eq_some_iff, Prod.exists,
    Option.some.injEq, Prod.mk.injEq]
  constructor
  · rintro ⟨word, behind, found, value, isNumeral, more, _, taken, rfl, rfl⟩
    exact ⟨word, behind, value, more, found, isNumeral, taken, rfl⟩
  · rintro ⟨word, behind, value, more, found, isNumeral, taken, rfl⟩
    exact ⟨word, behind, found, value, isNumeral, more, rest, taken, rfl, rfl⟩

theorem length_takeNumerals
    {least : Int}
    {count : Nat}
    {text rest : CString}
    {values : List (BitVec 32)}
    (taken : takeNumerals least count text = some (values, rest)) :
    values.length = count := by
  induction count generalizing text values with
  | zero =>
      cases taken
      rfl
  | succ count inductionHypothesis =>
      obtain ⟨_, _, _, more, _, _, takenMore, rfl⟩ := takeNumerals_succ_eq_some.mp taken
      rw [List.length_cons, inductionHypothesis takenMore]

theorem length_lineNumerals
    {least : Int}
    {count : Nat}
    {line : CString}
    {values : List (BitVec 32)}
    (isLine : lineNumerals least count line = some values) :
    values.length ≤ count := by
  induction count generalizing line values with
  | zero =>
      simp only [lineNumerals, Option.ite_none_right_eq_some, Option.some.injEq] at isLine
      rw [← isLine.2, List.length_nil]
  | succ count inductionHypothesis =>
      rw [lineNumerals] at isLine
      split at isLine
      · cases isLine
        exact Nat.zero_le _
      · simp only [Option.bind_eq_bind, Option.bind_eq_some_iff, Option.some.injEq] at isLine
        obtain ⟨value, _, more, isRest, rfl⟩ := isLine
        exact Nat.succ_le_succ (inductionHypothesis isRest)

theorem length_scanf (format : List Directive) (text : CString) :
    (scanf format text).1.length ≤ conversions format := by
  induction format generalizing text with
  | nil => exact Nat.le_refl _
  | cons directive format inductionHypothesis =>
      cases directive with
      | white => exact inductionHypothesis _
      | integer convert =>
          rw [scanf]
          split
          · exact Nat.zero_le _
          · exact Nat.succ_le_succ (inductionHypothesis _)

/-- The conversions of a format that store these numbers as they are. -/
def Keeps (least : Int) (format : List Directive) : Prop :=
  ∀ convert, Directive.integer convert ∈ format → ∀ number : Int, least ≤ number →
    number < 2 ^ 32 → convert number = BitVec.ofInt 32 number

theorem toUnsigned_eq
    {number : Int}
    (least : -2 ^ 31 ≤ number)
    (greatest : number < 2 ^ 32) :
    toUnsigned number = BitVec.ofInt 32 number := by
  rw [toUnsigned, if_pos]
  omega

theorem toSigned_eq
    {number : Int}
    (least : -2 ^ 31 ≤ number)
    (greatest : number < 2 ^ 32) :
    toSigned number = BitVec.ofInt 32 number := by
  have inLong : max (-2 ^ 63) (min number (2 ^ 63 - 1)) = number := by omega
  rw [toSigned, inLong]

/-- A format reads the numbers that the text starts with. -/
theorem scanf_of_takeNumerals
    {least : Int}
    {format : List Directive}
    (keeps : Keeps least format)
    {text other rest : CString}
    {values : List (BitVec 32)}
    (same : skipSpace text = skipSpace other)
    (taken : takeNumerals least (conversions format) other = some (values, rest)) :
    (scanf format text).1 = values ∧ skipSpace (scanf format text).2 = skipSpace rest := by
  induction format generalizing text other values with
  | nil =>
      cases taken
      exact ⟨rfl, same⟩
  | cons directive format inductionHypothesis =>
      have keepsRest : Keeps least format := fun convert member =>
        keeps convert (List.mem_cons_of_mem _ member)
      cases directive with
      | white =>
          have skipped : skipSpace (skipSpace text) = skipSpace other :=
            (skipSpace_skipSpace text).trans same
          exact inductionHypothesis keepsRest skipped taken
      | integer convert =>
          obtain ⟨word, behind, value, more, found, isNumeral, takenMore, rfl⟩ :=
            takeNumerals_succ_eq_some.mp taken
          obtain ⟨number, isInteger, low, high, rfl⟩ := numeral_eq_some isNumeral
          rw [← scanString_congr same] at found
          have stored := keeps convert List.mem_cons_self number low high
          have others := inductionHypothesis keepsRest rfl takenMore
          rw [scanf, scanInteger_of_integer found isInteger]
          exact ⟨congrArg₂ List.cons stored others.1, others.2⟩

/-! ### Lines -/

/-- The characters of numbers. -/
def isNumeric (char : CChar) : Bool := isDigit char || char = plus || char = minus

theorem isNumeric_of_integer
    {word : CString}
    {number : Int}
    (isInteger : integer word = some number)
    {char : CChar}
    (member : char ∈ word) :
    isNumeric char = true := by
  simp only [integer, Option.ite_none_right_eq_some] at isInteger
  have digits : ∀ digit ∈ (scanSign word).2, isDigit digit = true :=
    List.all_eq_true.mp isInteger.1.2
  cases word with
  | nil => cases member
  | cons first word =>
      simp only [scanSign] at digits
      simp only [isNumeric, Bool.or_eq_true, decide_eq_true_eq]
      split at digits
      · rename_i isMinus
        rcases List.mem_cons.mp member with rfl | behind
        · exact Or.inr isMinus
        · exact Or.inl (Or.inl (digits char behind))
      · split at digits
        · rename_i isPlus
          rcases List.mem_cons.mp member with rfl | behind
          · exact Or.inl (Or.inr isPlus)
          · exact Or.inl (Or.inl (digits char behind))
        · exact Or.inl (Or.inl (digits char member))

theorem mem_of_notSpace
    {text : CString}
    {char : CChar}
    (member : char ∈ text)
    (notSpace : isSpace char = false) :
    char ∈ skipSpace text := by
  have split := List.takeWhile_append_dropWhile (p := isSpace) (l := text)
  rw [← split] at member
  rcases List.mem_append.mp member with before | behind
  · simp [List.mem_takeWhile_imp before] at notSpace
  · exact behind

/-- A line of numbers holds spaces and the characters of numbers. -/
theorem isNumeric_of_lineNumerals
    {least : Int}
    {count : Nat}
    {line : CString}
    {values : List (BitVec 32)}
    (isLine : lineNumerals least count line = some values)
    {char : CChar}
    (member : char ∈ line)
    (notSpace : isSpace char = false) :
    isNumeric char = true := by
  have behind := mem_of_notSpace member notSpace
  induction count generalizing line values with
  | zero =>
      simp only [lineNumerals, Option.ite_none_right_eq_some] at isLine
      rw [isLine.1] at behind
      cases behind
  | succ count inductionHypothesis =>
      rw [lineNumerals] at isLine
      split at isLine
      · rename_i ended
        rw [scanString_eq_none ended] at behind
        cases behind
      · rename_i word rest found
        simp only [Option.bind_eq_bind, Option.bind_eq_some_iff] at isLine
        obtain ⟨value, isNumeral, more, isRest, _⟩ := isLine
        obtain ⟨number, isInteger, _⟩ := numeral_eq_some isNumeral
        rw [skipSpace_of_scanString found] at behind
        rcases List.mem_append.mp behind with inWord | inRest
        · exact isNumeric_of_integer isInteger inWord
        · exact inductionHypothesis isRest inRest (mem_of_notSpace inRest notSpace)

/-- What `takeLine` leaves of a line is spaces, or something else of the line comes next. -/
theorem skipSpace_takeLine (count : Nat) (text : CString) :
    skipSpace (takeLine count text).2 = skipSpace (text.dropWhile (· ≠ newline)) ∨
      ∃ char rest, skipSpace (takeLine count text).2 = char :: rest ∧
        char ∈ text.takeWhile (· ≠ newline) := by
  induction text generalizing count with
  | nil => cases count <;> exact Or.inl rfl
  | cons first text inductionHypothesis =>
      by_cases ends : first = newline
      · subst ends
        cases count <;> exact Or.inl rfl
      · rw [List.dropWhile_cons_of_pos (by simpa using ends),
          List.takeWhile_cons_of_pos (by simpa using ends)]
        cases count with
        | zero =>
            rw [takeLine]
            by_cases space : isSpace first = true
            · rw [skipSpace, List.dropWhile_cons_of_pos space]
              rcases inductionHypothesis 0 with blank | ⟨char, rest, next, member⟩
              · exact Or.inl blank
              · exact Or.inr ⟨char, rest, next, List.mem_cons_of_mem _ member⟩
            · rw [skipSpace, List.dropWhile_cons_of_neg space]
              exact Or.inr ⟨first, text, rfl, List.mem_cons_self⟩
        | succ count =>
            rw [takeLine, if_neg ends]
            rcases inductionHypothesis count with blank | ⟨char, rest, next, member⟩
            · exact Or.inl blank
            · exact Or.inr ⟨char, rest, next, List.mem_cons_of_mem _ member⟩

/-- A line that is short enough is taken with the newline behind it. -/
theorem takeLine_of_short
    {count : Nat}
    {text : CString}
    (short : (text.takeWhile (· ≠ newline)).length < count) :
    ∃ ending, (takeLine count text).1 = text.takeWhile (· ≠ newline) ++ ending ∧
      (∀ char ∈ ending, isSpace char = true) ∧
      skipSpace (takeLine count text).2 = skipSpace (text.dropWhile (· ≠ newline)) := by
  induction text generalizing count with
  | nil => cases count <;> exact ⟨[], rfl, by simp, rfl⟩
  | cons char text inductionHypothesis =>
      cases count with
      | zero => cases short
      | succ count =>
          by_cases ends : char = newline
          · subst ends
            exact ⟨[newline], rfl, List.forall_mem_singleton.mpr (by decide), rfl⟩
          · rw [List.takeWhile_cons_of_pos (by simpa using ends)] at short ⊢
            rw [List.dropWhile_cons_of_pos (by simpa using ends), takeLine, if_neg ends]
            obtain ⟨ending, line, spaces, rest⟩ :=
              inductionHypothesis (Nat.lt_of_succ_lt_succ short)
            exact ⟨ending, by rw [line, List.cons_append], spaces, rest⟩

theorem skipSpace_of_spaces
    {text : CString}
    (spaces : ∀ char ∈ text, isSpace char = true) :
    skipSpace text = [] :=
  List.dropWhile_eq_nil_iff.mpr spaces

theorem scanString_append
    {line word rest ending : CString}
    (found : scanString line = some (word, rest))
    (spaces : ∀ char ∈ ending, isSpace char = true) :
    scanString (line ++ ending) = some (word, rest ++ ending) := by
  obtain ⟨skipped, nonempty, letters, behind⟩ := scanString_eq_some_iff.mp found
  refine scanString_eq_some_iff.mpr ⟨?_, nonempty, letters, fun char next => ?_⟩
  · rw [skipSpace] at skipped ⊢
    rw [List.dropWhile_append, skipped, List.append_assoc, if_neg (by simp [nonempty])]
  · cases rest with
    | nil => exact spaces char (List.mem_of_mem_head? next)
    | cons first rest => exact behind char next

/-- The numbers of a line are converted, with spaces behind it. -/
theorem scanf_of_lineNumerals
    {least : Int}
    {format : List Directive}
    (keeps : Keeps least format)
    {text line ending : CString}
    {values : List (BitVec 32)}
    (same : skipSpace text = skipSpace (line ++ ending))
    (spaces : ∀ char ∈ ending, isSpace char = true)
    (isLine : lineNumerals least (conversions format) line = some values) :
    (scanf format text).1 = values := by
  induction format generalizing text line values with
  | nil =>
      simp only [conversions, lineNumerals, Option.ite_none_right_eq_some,
        Option.some.injEq] at isLine
      rw [scanf, isLine.2]
  | cons directive format inductionHypothesis =>
      have keepsRest : Keeps least format := fun convert member =>
        keeps convert (List.mem_cons_of_mem _ member)
      cases directive with
      | white => exact inductionHypothesis keepsRest ((skipSpace_skipSpace text).trans same) isLine
      | integer convert =>
          rw [conversions, lineNumerals] at isLine
          split at isLine
          · rename_i ended
            cases isLine
            have blank : skipSpace text = [] := by
              rw [same, skipSpace, List.dropWhile_append_of_pos
                (List.dropWhile_eq_nil_iff.mp (scanString_eq_none ended))]
              exact skipSpace_of_spaces spaces
            simp [scanf, scanInteger, blank, scanSign]
          · rename_i word rest found
            simp only [Option.bind_eq_bind, Option.bind_eq_some_iff, Option.some.injEq] at isLine
            obtain ⟨value, isNumeral, more, isRest, rfl⟩ := isLine
            obtain ⟨number, isInteger, low, high, rfl⟩ := numeral_eq_some isNumeral
            have foundAll := scanString_append found spaces
            rw [← scanString_congr same] at foundAll
            rw [scanf, scanInteger_of_integer foundAll isInteger]
            exact congrArg₂ List.cons (keeps convert List.mem_cons_self number low high)
              (inductionHypothesis keepsRest rfl isRest)

/-! ### What is left of a text -/

theorem suffix_of_scanString
    {text word rest : CString}
    (found : scanString text = some (word, rest)) :
    rest <:+ text := by
  have behind : rest <:+ skipSpace text := by
    rw [skipSpace_of_scanString found]
    exact List.suffix_append word rest
  exact behind.trans (List.dropWhile_suffix _)

theorem suffix_of_takeNumerals
    {least : Int}
    {count : Nat}
    {text rest : CString}
    {values : List (BitVec 32)}
    (taken : takeNumerals least count text = some (values, rest)) :
    rest <:+ text := by
  induction count generalizing text values with
  | zero =>
      cases taken
      exact List.suffix_rfl
  | succ count inductionHypothesis =>
      obtain ⟨_, _, _, _, found, _, takenMore, _⟩ := takeNumerals_succ_eq_some.mp taken
      exact (inductionHypothesis takenMore).trans (suffix_of_scanString found)

theorem scanSign_suffix (text : CString) : (scanSign text).2 <:+ text := by
  cases text with
  | nil => exact List.suffix_rfl
  | cons char rest =>
      rw [scanSign]
      split_ifs
      · exact List.suffix_cons char rest
      · exact List.suffix_cons char rest
      · exact List.suffix_rfl

theorem scanInteger_suffix (text : CString) : (scanInteger text).2 <:+ text := by
  have behind : (scanSign (skipSpace text)).2 <:+ text :=
    (scanSign_suffix _).trans (List.dropWhile_suffix _)
  simp only [scanInteger]
  split_ifs
  · exact behind
  · exact (List.dropWhile_suffix _).trans behind

theorem scanf_suffix (format : List Directive) (text : CString) :
    (scanf format text).2 <:+ text := by
  induction format generalizing text with
  | nil => exact List.suffix_rfl
  | cons directive format inductionHypothesis =>
      cases directive with
      | white => exact (inductionHypothesis _).trans (List.dropWhile_suffix _)
      | integer convert =>
          have behind := scanInteger_suffix text
          rw [scanf]
          split <;> rename_i scanned <;> rw [scanned] at behind
          · exact behind
          · exact (inductionHypothesis _).trans behind

end Stdio
end Ossim
