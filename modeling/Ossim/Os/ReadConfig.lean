import Ossim.Library.Print
import Ossim.Os.Loader
import Ossim.Os.KillByName

/-!
# The configuration file

`read_config` reads three numbers, a line with the sizes of the memory devices, and a line
for each process.  The line with the sizes may be missing: a second line that does not
start with five numbers is taken for the first process, and the sizes are the default
ones.

Conversions that fail assign nothing.  The numbers of the first line and the sizes are
static objects and keep their zero; the arrays of `ld_processes` and the word on the stack
keep what the memory holds, which is a parameter here.
-/

namespace Ossim
namespace Os
namespace ReadConfig

open CString Stdio Loader

/-- What is stored for a process in the arrays of `ld_processes`. -/
structure LdProcess where
  startTime : BitVec 64
  path : CString
  prio : BitVec 64
  deriving DecidableEq

/-- `memramsz`, and `memswpsz` with its `PAGING_MAX_MMSWP` elements. -/
structure Sizes where
  memramsz : BitVec 32
  memswpsz : List (BitVec 32)
  length_memswpsz : memswpsz.length = 4
  deriving DecidableEq

/-- The objects that `read_config` assigns. -/
structure Settings where
  timeSlot : BitVec 32
  numCpus : BitVec 32
  numProcesses : BitVec 32
  sizes : Sizes
  ldProcesses : List LdProcess
  deriving DecidableEq

/-- What the memory holds before it is assigned: the arrays that `malloc` returns, and the
array `proc` in each iteration. -/
structure Unassigned where
  startTime : Nat → BitVec 64
  prio : Nat → BitVec 64
  proc : Nat → CString

/-- The number of the elements of `ld_processes.path[i]` and of `proc`. -/
def pathSize : Nat := 100

/-- `char buffer[256]` -/
def bufferSize : Nat := 256

def headerFormat : List Directive :=
  [percentD, .white, percentD, .white, percentD, .white]

def sizesFormat : List Directive :=
  [percentD, .white, percentD, .white, percentD, .white, percentD, .white, percentD]

/-- Static objects. -/
def Sizes.zero : Sizes := ⟨0, [0, 0, 0, 0], rfl⟩

/-- "back compatible with legacy OS simulatiom config file" -/
def Sizes.legacy : Sizes := ⟨0x100000, [0x1000000, 0, 0, 0], rfl⟩

/-- The sizes, and the text that is left, which is all of it if the line is none of
sizes.  At the end of the file nothing is assigned. -/
def readSizes (file : CString) : Sizes × CString :=
  if file = [] then (.zero, file)
  else
    let (buffer, rest) := fgets bufferSize [] file
    match (scanf sizesFormat buffer).1 with
    | [memramsz, size0, size1, size2, size3] =>
        (⟨memramsz, [size0, size1, size2, size3], rfl⟩, skipSpace rest)
    | _ => (.legacy, file)

/-- `fscanf(file, "%lu %s %lu\n", ...)`: what is stored, and the text that is left. -/
def scanProcess (file : CString) :
    (Option (BitVec 64) × Option CString × Option (BitVec 64)) × CString :=
  match scanInteger file with
  | (none, rest) => ((none, none, none), rest)
  | (some startTime, rest) =>
      match scanString (skipSpace rest) with
      | none => ((some (toUnsignedLong startTime), none, none), [])
      | some (proc, rest) =>
          match scanInteger (skipSpace rest) with
          | (none, rest) => ((some (toUnsignedLong startTime), some proc, none), rest)
          | (some prio, rest) =>
              ((some (toUnsignedLong startTime), some proc, some (toUnsignedLong prio)),
                skipSpace rest)

/-- An iteration of the loop.  A word that has a place in `path` has one in `proc`. -/
def readProcess (unassigned : Unassigned) (i : Nat) (file : CString) :
    Except Stop (LdProcess × CString) :=
  let ((startTime, proc, prio), rest) := scanProcess file
  let path := configPath (proc.getD (unassigned.proc i))
  if path.length < pathSize then
    .ok
      ({ startTime := startTime.getD (unassigned.startTime i)
         path := path
         prio := prio.getD (unassigned.prio i) },
        rest)
  else
    .error .overrun

/-- The iterations from `i` on, so many of them. -/
def readProcesses (unassigned : Unassigned) :
    Nat → Nat → CString → Except Stop (List LdProcess)
  | 0, _, _ => .ok []
  | count + 1, i, file => do
      let (ldProcess, file) ← readProcess unassigned i file
      let ldProcesses ← readProcesses unassigned count (i + 1) file
      .ok (ldProcess :: ldProcesses)

/-- `read_config`, with the file that `fopen` returns. -/
def readConfig (unassigned : Unassigned) (file : Option CString) : Except Stop Settings := do
  match file with
  | none => .error .exit
  | some file =>
      let (header, file) := scanf headerFormat file
      let numProcesses := header[2]?.getD 0
      let (sizes, file) := readSizes file
      let ldProcesses ← readProcesses unassigned numProcesses.toInt.toNat 0 file
      .ok
        { timeSlot := header[0]?.getD 0
          numCpus := header[1]?.getD 0
          numProcesses := numProcesses
          sizes := sizes
          ldProcesses := ldProcesses }

/-! ## The file of a configuration -/

/-- A process as it is written: its start time, the name of its file and its priority. -/
structure Arrival where
  startTime : BitVec 64
  name : CString
  prio : BitVec 64
  deriving DecidableEq

/-- What is written in a configuration file, with or without the sizes. -/
structure Description where
  timeSlot : BitVec 32
  numCpus : BitVec 32
  sizes : Option Sizes
  arrivals : List Arrival
  deriving DecidableEq

/-- Numbers on a line of their own. -/
def printLine (values : List (BitVec 32)) : CString :=
  (printNumerals values).tail ++ [newline]

def printSizes (sizes : Sizes) : CString := printLine (sizes.memramsz :: sizes.memswpsz)

def printArrival (arrival : Arrival) : CString :=
  printNat arrival.startTime.toNat ++ blank :: arrival.name ++
    blank :: printNat arrival.prio.toNat ++ [newline]

def printConfig (description : Description) : CString :=
  printLine [description.timeSlot, description.numCpus,
      BitVec.ofNat 32 description.arrivals.length] ++
    (description.sizes.map printSizes).getD [] ++
      description.arrivals.flatMap printArrival

/-- The name fits in `path` with the directory. -/
def Arrival.Named (arrival : Arrival) : Prop :=
  IsWord arrival.name ∧ arrival.name.length ≤ 88

instance decidableNamed (arrival : Arrival) : Decidable arrival.Named :=
  inferInstanceAs (Decidable (IsWord arrival.name ∧ arrival.name.length ≤ 88))

/-- What can be written.  Without the sizes, the name of the first process must not look
like another size. -/
structure Description.Writable (description : Description) : Prop where
  countable : description.arrivals.length < 2 ^ 31
  named : ∀ arrival ∈ description.arrivals, arrival.Named
  legacy : description.sizes = none → ∃ first rest, description.arrivals = first :: rest ∧
    ∀ char, first.name.head? = some char → isNumeric char = false

/-- What `read_config` has to make of a process. -/
def Arrival.ldProcess (arrival : Arrival) : LdProcess where
  startTime := arrival.startTime
  path := configPath arrival.name
  prio := arrival.prio

def Description.settings (description : Description) : Settings where
  timeSlot := description.timeSlot
  numCpus := description.numCpus
  numProcesses := BitVec.ofNat 32 description.arrivals.length
  sizes := description.sizes.getD .legacy
  ldProcesses := description.arrivals.map Arrival.ldProcess

variable {arrival : Arrival} {sizes : Sizes} {file rest : CString} {unassigned : Unassigned}

/-! ## Lines -/

theorem printLine_cons
    (value : BitVec 32)
    (values : List (BitVec 32)) :
    printLine (value :: values) =
      printNat value.toNat ++ (printNumerals values ++ [newline]) := by
  rw [printLine, printNumerals, List.flatMap_cons, List.cons_append, List.tail_cons,
    List.append_assoc]
  rfl

theorem skipSpace_printLine
    (value : BitVec 32)
    (values : List (BitVec 32))
    (rest : CString) :
    skipSpace (printLine (value :: values) ++ rest) = printLine (value :: values) ++ rest := by
  rw [printLine_cons, List.append_assoc]
  exact skipSpace_of_word (isWord_printNat _) _

/-- With a blank in front of the first number, the line is read as the same numbers. -/
theorem skipSpace_printNumerals
    (value : BitVec 32)
    (values : List (BitVec 32))
    (rest : CString) :
    skipSpace (printNumerals (value :: values) ++ rest) =
      (printNumerals (value :: values)).tail ++ rest := by
  have noBlank : (printNumerals (value :: values)).tail ++ rest =
      printNat value.toNat ++ (printNumerals values ++ rest) := by
    rw [printNumerals, List.flatMap_cons, List.cons_append, List.tail_cons, List.append_assoc]
    rfl
  have skipped : skipSpace (printNumerals (value :: values) ++ rest) =
      skipSpace ((printNumerals (value :: values)).tail ++ rest) := by
    rw [skipSpace, skipSpace]
    exact List.dropWhile_cons_of_pos (by decide)
  rw [skipped, noBlank]
  exact skipSpace_of_word (isWord_printNat _) _

theorem skipSpace_newline (rest : CString) : skipSpace (newline :: rest) = skipSpace rest :=
  List.dropWhile_cons_of_pos (by decide)

theorem keeps_percentD
    {format : List Directive}
    (integers : ∀ convert, Directive.integer convert ∈ format → convert = toSigned) :
    Keeps 0 format := by
  intro convert member number least greatest
  rw [integers convert member]
  exact toSigned_eq (by omega) greatest

/-- White space at the end of a format is skipped if nothing has failed before. -/
theorem scanf_append_white
    {format : List Directive}
    {text : CString}
    (all : (scanf format text).1.length = conversions format) :
    scanf (format ++ [.white]) text =
      ((scanf format text).1, skipSpace (scanf format text).2) := by
  induction format generalizing text with
  | nil => rfl
  | cons directive format inductionHypothesis =>
      cases directive with
      | white => exact inductionHypothesis all
      | integer convert =>
          simp only [List.cons_append, scanf] at all ⊢
          split at all
          · cases all
          · rename_i value rest converted
            have others := inductionHypothesis (Nat.succ.inj all)
            simp only [others]

theorem scanf_headerFormat
    (first second third : BitVec 32)
    (rest : CString) :
    scanf headerFormat (printLine [first, second, third] ++ rest) =
      ([first, second, third], skipSpace rest) := by
  have format : headerFormat =
      [percentD, .white, percentD, .white, percentD] ++ [.white] := rfl
  have keeps : Keeps 0 [percentD, .white, percentD, .white, percentD] :=
    keeps_percentD (by simp [percentD])
  have taken := takeNumerals_printNumerals (Int.le_refl 0) [first, second, third]
    (startsBlank_cons (show isSpace newline = true by decide) rest)
  have same : skipSpace (printLine [first, second, third] ++ rest) =
      skipSpace (printNumerals [first, second, third] ++ newline :: rest) := by
    rw [skipSpace_printLine, skipSpace_printNumerals, printLine, List.append_assoc,
      List.singleton_append]
  obtain ⟨values, behind⟩ := scanf_of_takeNumerals keeps same taken
  rw [format, scanf_append_white (by rw [values]; rfl), values, behind, skipSpace_newline]

/-! ## The sizes -/

theorem readSizes_printSizes
    (sizes : Sizes)
    (rest : CString) :
    readSizes (printSizes sizes ++ rest) = (sizes, skipSpace rest) := by
  obtain ⟨memramsz, memswpsz, length⟩ := sizes
  let line := (printNumerals (memramsz :: memswpsz)).tail
  have text : printSizes ⟨memramsz, memswpsz, length⟩ ++ rest = line ++ newline :: rest := by
    rw [printSizes, printLine, List.append_assoc, List.singleton_append]
  have inLine : ∀ char ∈ line, decide (char ≠ newline) = true := by
    intro char member
    rw [decide_eq_true_eq]
    rintro rfl
    exact newline_notMem_printNumerals _ (List.mem_of_mem_tail member)
  have taken : (line ++ newline :: rest).takeWhile (· ≠ newline) = line := by
    rw [List.takeWhile_append_of_pos inLine]
    simp
  have behind : (line ++ newline :: rest).dropWhile (· ≠ newline) = newline :: rest := by
    rw [List.dropWhile_append_of_pos inLine]
    simp
  have short : ((line ++ newline :: rest).takeWhile (· ≠ newline)).length <
      bufferSize - 1 := by
    have atMost := length_printNumerals_le (memramsz :: memswpsz)
    have noBlank : line.length ≤ (printNumerals (memramsz :: memswpsz)).length := by
      simp [line]
    rw [List.length_cons, length] at atMost
    rw [taken, bufferSize]
    omega
  obtain ⟨ending, buffer, spaces, left⟩ := takeLine_of_short short
  have isLine : lineNumerals 0 (conversions sizesFormat) (printNumerals (memramsz :: memswpsz)) =
      some (memramsz :: memswpsz) :=
    lineNumerals_printNumerals (Int.le_refl 0) (by rw [List.length_cons, length]; decide)
  have keeps : Keeps 0 sizesFormat := keeps_percentD (by simp [sizesFormat, percentD])
  have same : skipSpace (line ++ ending) =
      skipSpace (printNumerals (memramsz :: memswpsz) ++ ending) := by
    rw [← skipSpace_skipSpace (printNumerals _ ++ ending), skipSpace_printNumerals]
  have values := scanf_of_lineNumerals keeps same spaces isLine
  have nonempty : line ++ newline :: rest ≠ [] := by simp
  rw [text, readSizes, if_neg nonempty, fgets, if_neg nonempty]
  simp only [buffer, taken, values, left, behind, skipSpace_newline]
  match memswpsz, length with
  | [_, _, _, _], _ => rfl

/-! ## The processes -/

/-- The line without the newline. -/
theorem printArrival_append
    (arrival : Arrival)
    (rest : CString) :
    printArrival arrival ++ rest = printNat arrival.startTime.toNat ++
      (blank :: (arrival.name ++ (blank :: (printNat arrival.prio.toNat ++
        newline :: rest)))) := by
  simp [printArrival]

theorem skipSpace_printArrival
    (arrival : Arrival)
    (rest : CString) :
    skipSpace (printArrival arrival ++ rest) = printArrival arrival ++ rest := by
  rw [printArrival_append]
  exact skipSpace_of_word (isWord_printNat _) _

theorem scanInteger_printNat
    (value : Nat)
    {rest : CString}
    (ends : StartsBlank rest) :
    scanInteger (printNat value ++ rest) = (some (value : Int), rest) :=
  scanInteger_of_integer (scanString_of_word (isWord_printNat value) ends)
    (integer_printNat value)

theorem toUnsignedLong_toNat (value : BitVec 64) : toUnsignedLong value.toNat = value := by
  have inLong : (value.toNat : Int).natAbs < 2 ^ 64 := value.isLt
  rw [toUnsignedLong, if_pos inLong]
  rw [BitVec.ofInt_natCast, BitVec.ofNat_toNat, BitVec.setWidth_eq]

theorem skipSpace_blank_word
    {word : CString}
    (isWord : IsWord word)
    (rest : CString) :
    skipSpace (blank :: (word ++ rest)) = word ++ rest := by
  rw [skipSpace, List.dropWhile_cons_of_pos (by decide)]
  exact skipSpace_of_word isWord rest

theorem scanProcess_printArrival
    (named : arrival.Named)
    (rest : CString) :
    scanProcess (printArrival arrival ++ rest) =
      ((some arrival.startTime, some arrival.name, some arrival.prio), skipSpace rest) := by
  have startsBlank : ∀ text, StartsBlank (blank :: text) := startsBlank_cons (by decide)
  have startTime := scanInteger_printNat arrival.startTime.toNat (startsBlank
    (arrival.name ++ (blank :: (printNat arrival.prio.toNat ++ newline :: rest))))
  have name := scanString_of_word named.1 (startsBlank
    (printNat arrival.prio.toNat ++ newline :: rest))
  have prio := scanInteger_printNat arrival.prio.toNat
    (startsBlank_cons (show isSpace newline = true by decide) rest)
  rw [printArrival_append]
  simp only [scanProcess, startTime, skipSpace_blank_word named.1, name,
    skipSpace_blank_word (isWord_printNat _), prio, toUnsignedLong_toNat, skipSpace_newline]

theorem readProcess_printArrival
    (unassigned : Unassigned)
    (i : Nat)
    (named : arrival.Named)
    (rest : CString) :
    readProcess unassigned i (printArrival arrival ++ rest) =
      .ok (arrival.ldProcess, skipSpace rest) := by
  have fits : (configPath arrival.name).length < pathSize := by
    have directory : procDir.length = 10 := by decide
    have short := named.2
    rw [configPath, List.length_append, List.length_cons, directory, pathSize]
    omega
  simp only [readProcess, scanProcess_printArrival named, Option.getD_some, if_pos fits]
  rfl

theorem readProcesses_printArrivals
    (unassigned : Unassigned)
    (i : Nat)
    {arrivals : List Arrival}
    (named : ∀ arrival ∈ arrivals, arrival.Named) :
    readProcesses unassigned arrivals.length i (skipSpace (arrivals.flatMap printArrival)) =
      .ok (arrivals.map Arrival.ldProcess) := by
  induction arrivals generalizing i with
  | nil => rfl
  | cons arrival arrivals inductionHypothesis =>
      have first := readProcess_printArrival unassigned i (named arrival List.mem_cons_self)
        (arrivals.flatMap printArrival)
      have others := inductionHypothesis (i + 1) fun other member =>
        named other (List.mem_cons_of_mem _ member)
      rw [List.flatMap_cons, skipSpace_printArrival, List.length_cons, readProcesses, first]
      show (readProcesses unassigned arrivals.length (i + 1)
        (skipSpace (arrivals.flatMap printArrival)) >>= _) = _
      rw [others]
      rfl

/-! ## A configuration without sizes -/

/-- No number starts with a letter. -/
theorem scanInteger_of_letter
    {char : CChar}
    (notSpace : isSpace char = false)
    (notNumeric : isNumeric char = false)
    (rest : CString) :
    scanInteger (char :: rest) = (none, char :: rest) := by
  simp only [isNumeric, Bool.or_eq_false_iff, decide_eq_false_iff_not] at notNumeric
  obtain ⟨⟨notDigit, notPlus⟩, notMinus⟩ := notNumeric
  have skipped : skipSpace (char :: rest) = char :: rest :=
    List.dropWhile_cons_of_neg (by simp [notSpace])
  have noDigits : (char :: rest).takeWhile isDigit = [] :=
    List.takeWhile_cons_of_neg (by simp [notDigit])
  simp only [scanInteger, skipped, scanSign, if_neg notMinus, if_neg notPlus, noDigits, if_true]

/-- The first process is not taken for the sizes. -/
theorem readSizes_printArrival
    (named : arrival.Named)
    (notNumeric : ∀ char, arrival.name.head? = some char → isNumeric char = false)
    (rest : CString) :
    readSizes (printArrival arrival ++ rest) = (.legacy, printArrival arrival ++ rest) := by
  let line := printNat arrival.startTime.toNat ++
    (blank :: (arrival.name ++ (blank :: printNat arrival.prio.toNat)))
  have text : printArrival arrival ++ rest = line ++ newline :: rest := by
    simp [printArrival, line]
  have noNewline : newline ∉ line := by
    simp only [line, List.mem_append, List.mem_cons, not_or]
    have notDigit : ∀ value, newline ∉ printNat value := fun value member =>
      absurd (isDigit_of_mem_printNat member) (by decide)
    refine ⟨notDigit _, by decide, fun member => ?_, by decide, notDigit _⟩
    exact absurd (named.1.2 newline member) (by decide)
  have inLine : ∀ char ∈ line, decide (char ≠ newline) = true := by
    intro char member
    rw [decide_eq_true_eq]
    rintro rfl
    exact noNewline member
  have taken : (line ++ newline :: rest).takeWhile (· ≠ newline) = line := by
    rw [List.takeWhile_append_of_pos inLine]
    simp
  have short : ((line ++ newline :: rest).takeWhile (· ≠ newline)).length <
      bufferSize - 1 := by
    have startTime : (printNat arrival.startTime.toNat).length ≤ 20 :=
      length_printNat_le (by have := arrival.startTime.isLt; omega)
    have prio : (printNat arrival.prio.toNat).length ≤ 20 :=
      length_printNat_le (by have := arrival.prio.isLt; omega)
    have name := named.2
    rw [taken, bufferSize]
    simp only [line, List.length_append, List.length_cons]
    omega
  obtain ⟨ending, buffer, _, _⟩ := takeLine_of_short short
  have startTime := scanInteger_printNat arrival.startTime.toNat
    (startsBlank_cons (show isSpace blank = true by decide)
      (arrival.name ++ (blank :: printNat arrival.prio.toNat) ++ ending))
  obtain ⟨char, name, isName⟩ := List.exists_cons_of_ne_nil named.1.1
  have letter := scanInteger_of_letter (named.1.2 char (by simp [isName]))
    (notNumeric char (by simp [isName]))
    (name ++ (blank :: printNat arrival.prio.toNat) ++ ending)
  have values : (scanf sizesFormat (line ++ ending)).1 =
      [toSigned arrival.startTime.toNat] := by
    have rest : line ++ ending = printNat arrival.startTime.toNat ++
        (blank :: (arrival.name ++ (blank :: printNat arrival.prio.toNat) ++ ending)) := by
      simp [line]
    have skipped : skipSpace
        (blank :: (arrival.name ++ (blank :: printNat arrival.prio.toNat) ++ ending)) =
        char :: (name ++ (blank :: printNat arrival.prio.toNat) ++ ending) := by
      rw [List.append_assoc, skipSpace_blank_word named.1, isName]
      simp
    simp only [sizesFormat, percentD, scanf, rest, startTime, skipped, letter]
  have nonempty : line ++ newline :: rest ≠ [] := by simp
  rw [text, readSizes, if_neg nonempty, fgets, if_neg nonempty]
  simp only [buffer, taken, values]

/-! ## The whole file -/

theorem toInt_ofNat_of_lt
    {count : Nat}
    (countable : count < 2 ^ 31) :
    (BitVec.ofNat 32 count).toInt.toNat = count := by
  have stored : (BitVec.ofNat 32 count).toNat = count := by
    rw [BitVec.toNat_ofNat, Nat.mod_eq_of_lt (by omega)]
  rw [BitVec.toInt_eq_toNat_of_lt (by omega), stored, Int.toNat_natCast]

/-- What `read_config` makes of the file of a configuration. -/
theorem readConfig_of_writable
    {description : Description}
    (writable : description.Writable)
    (unassigned : Unassigned) :
    readConfig unassigned (some (printConfig description)) = .ok description.settings := by
  obtain ⟨timeSlot, numCpus, sizes, arrivals⟩ := description
  obtain ⟨countable, named, legacy⟩ := writable
  have count : (BitVec.ofNat 32 arrivals.length).toInt.toNat = arrivals.length :=
    toInt_ofNat_of_lt countable
  have lines : readSizes (skipSpace ((sizes.map printSizes).getD [] ++
      arrivals.flatMap printArrival)) =
      (sizes.getD .legacy, skipSpace (arrivals.flatMap printArrival)) := by
    cases sizes with
    | some sizes =>
        rw [Option.map_some, Option.getD_some, printSizes, skipSpace_printLine]
        exact readSizes_printSizes sizes _
    | none =>
        obtain ⟨first, others, isFirst, notNumeric⟩ := legacy rfl
        have isFirst : arrivals = first :: others := isFirst
        rw [isFirst, Option.map_none, Option.getD_none, List.nil_append, List.flatMap_cons,
          skipSpace_printArrival]
        exact readSizes_printArrival (named first (by simp [isFirst])) notNumeric _
  have processes := readProcesses_printArrivals unassigned 0 named
  simp only [readConfig, printConfig, List.append_assoc, scanf_headerFormat, lines,
    List.getElem?_cons_zero, List.getElem?_cons_succ, Option.getD_some, count]
  show (readProcesses unassigned arrivals.length 0
    (skipSpace (arrivals.flatMap printArrival)) >>= _) = _
  rw [processes]
  rfl

/-- `read_config` reads what was written, whatever the memory held.  Without the sizes it
reads the same as if the default ones were written. -/
theorem readConfig_printConfig
    (description : Description)
    (writable : description.Writable)
    (unassigned : Unassigned) :
    readConfig unassigned (some (printConfig description)) = .ok description.settings ∧
      (description.sizes = none →
        readConfig unassigned (some (printConfig { description with sizes := some .legacy })) =
          readConfig unassigned (some (printConfig description))) := by
  have read := readConfig_of_writable writable unassigned
  refine ⟨read, fun isLegacy => ?_⟩
  have explicit : ({ description with sizes := some .legacy } : Description).Writable :=
    { countable := writable.countable
      named := writable.named
      legacy := fun noSizes => by cases noSizes }
  rw [readConfig_of_writable explicit unassigned, read, Description.settings,
    Description.settings, isLegacy]
  rfl

/-- The configuration `sched_0`, which has no sizes. -/
def sched0 : Description where
  timeSlot := 2
  numCpus := 1
  sizes := none
  arrivals := [⟨0, ofChars ['s', '0'], 4⟩, ⟨4, ofChars ['s', '1'], 0⟩]

example : printConfig sched0 = ofChars
    ['2', ' ', '1', ' ', '2', '\n', '0', ' ', 's', '0', ' ', '4', '\n',
      '4', ' ', 's', '1', ' ', '0', '\n'] := by
  decide

/-- A name that goes on like the sizes is read as three of them. -/
example :
    readSizes (printArrival ⟨0, ofChars ['1', '-', '2', '-', '3'], 4⟩) =
      (⟨0, [1, -2, -3, 4], rfl⟩, []) := by
  decide

theorem sched0_writable : sched0.Writable where
  countable := by decide
  named := by decide
  legacy := by
    intro _
    refine ⟨_, _, rfl, fun char head => ?_⟩
    cases head
    decide

theorem readConfig_printConfig_sched0 :
    readConfig ⟨fun _ => 0, fun _ => 0, fun _ => []⟩ (some (printConfig sched0)) =
      .ok sched0.settings ∧
    sched0.settings.sizes.memramsz = 0x100000 :=
  ⟨(readConfig_printConfig sched0 sched0_writable _).1, rfl⟩

end ReadConfig
end Os
end Ossim
