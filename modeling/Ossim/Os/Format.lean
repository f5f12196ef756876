import Ossim.Os.Loader

/-!
# What the loader accepts

The documented form of a program is stated without reference to `load`: two numbers, and
then as many instructions as the second one says, each of them an opcode word and all of
its operands.  How many arguments a system call needs is a parameter, so the results hold
for every reading of the form.

The loader rejects a file when a word that it takes for an opcode is none.  It has no
other check, so a file that is not in the form is loaded unless such a word comes.
-/

namespace Ossim
namespace Os
namespace Loader

open CString Stdio

/-- An instruction as it is written. -/
structure Instruction where
  opcode : Opcode
  operands : List (BitVec 32)
  deriving DecidableEq

/-- An operand is written with or without a sign. -/
def leastOperand : Int := -2 ^ 31

section Documented

variable (arity : BitVec 32 → Nat)

/-- A system call has its number and its arguments on one line, and nothing else. -/
def takeLineOperands (text : CString) : Option (List (BitVec 32) × CString) :=
  match lineNumerals leastOperand 4 (text.takeWhile (· ≠ newline)) with
  | some (number :: args) =>
      if arity number ≤ args.length then
        some (number :: args, text.dropWhile (· ≠ newline))
      else none
  | _ => none

/-- All operands that the opcode needs. -/
def takeOperands (opcode : Opcode) (text : CString) :
    Option (List (BitVec 32) × CString) :=
  match opcode with
  | .calc => takeNumerals leastOperand 0 text
  | .alloc => takeNumerals leastOperand 2 text
  | .free => takeNumerals leastOperand 1 text
  | .read | .write => takeNumerals leastOperand 3 text
  | .syscall => takeLineOperands arity text

/-- An opcode word followed by its operands. -/
def takeInstruction (text : CString) : Option (Instruction × CString) := do
  let (word, rest) ← scanString text
  let opcode ← getOpcode word
  let (operands, rest) ← takeOperands arity opcode rest
  some ({ opcode := opcode, operands := operands }, rest)

/-- The instructions at the start of the text, so many of them. -/
def takeInstructions : Nat → CString → Option (List Instruction)
  | 0, _ => some []
  | count + 1, text => do
      let (instruction, rest) ← takeInstruction arity text
      let instructions ← takeInstructions count rest
      some (instruction :: instructions)

/-- The priority and the instructions of a file in the documented form. -/
def documented (file : CString) : Option (BitVec 32 × List Instruction) := do
  let (header, rest) ← takeNumerals 0 2 file
  match header with
  | [priority, size] =>
      let instructions ← takeInstructions arity size.toNat rest
      some (priority, instructions)
  | _ => none

example :
    documented (fun _ => 1) (ofChars ['2', ' ', '2', '\n', 'f', 'r', 'e', 'e', ' ', '-', '1',
      '\n', 's', 'y', 's', 'c', 'a', 'l', 'l', ' ', '9', ' ', '1', ' ', '\n']) =
    some (2, [⟨.free, [0xffffffff]⟩, ⟨.syscall, [9, 1]⟩]) := by
  decide

/-- The stored instruction has the opcode and the operands that are written. -/
def Lists (inst : Inst) (instruction : Instruction) : Prop :=
  inst.opcode = instruction.opcode ∧
    ∀ (j : Fin 4) (value : BitVec 32),
      instruction.operands[j.val]? = some value → inst.arg j = value

/-- Whatever the memory holds, `load` returns a process for the files of the documented
form only, with their instructions in order, and exits for all others. -/
structure LoadsExactly (file : CString) : Prop where
  lists : ∀ unassigned availPid path proc next,
    load unassigned availPid (some file) path = .ok (proc, next) →
      ∃ instructions, documented arity file = some (proc.priority, instructions) ∧
        proc.code.size.toNat = instructions.length ∧
        List.Forall₂ Lists proc.code.text instructions
  rejects : ∀ unassigned availPid path,
    load unassigned availPid (some file) path = .error .exit → documented arity file = none
  inBounds : ∀ unassigned availPid path,
    load unassigned availPid (some file) path ≠ .error .overrun

end Documented

/-! ## The condition -/

/-- The text that the conversions of an instruction leave. -/
def behindOperands (opcode : Opcode) (text : CString) : CString :=
  (scanOperands opcode { opcode := [], buf := [], file := text }).2.file

/-- Of the words that stand where `load` looks for so many opcodes, one fits in the array
and is no opcode, and the ones in front of it are opcodes. -/
inductive NoOpcode : Nat → CString → Prop
  | here {count : Nat} {text word rest : CString} :
      scanString text = some (word, rest) → word.length < opcodeSize →
      getOpcode word = none → NoOpcode (count + 1) text
  | behind {count : Nat} {text word rest : CString} {opcode : Opcode} :
      scanString text = some (word, rest) → getOpcode word = some opcode →
      NoOpcode count (behindOperands opcode rest) → NoOpcode (count + 1) text

/-- The part of a line that fits in `buf` holds the operands, and only spaces stand behind
it unless this is the last instruction. -/
def LineRead (count : Nat) (operands : List (BitVec 32)) (text rest : CString) : Prop :=
  operands <+: (scanf syscallFormat (takeLine (bufSize - 1) text).1).1 ∧
    (count = 0 ∨ skipSpace (takeLine (bufSize - 1) text).2 = skipSpace rest)

/-- So many instructions have no line that is too long for `buf`. -/
def WithinBuf (arity : BitVec 32 → Nat) : Nat → CString → Prop
  | 0, _ => True
  | count + 1, text =>
      ∀ word behind opcode operands rest,
        scanString text = some (word, behind) → getOpcode word = some opcode →
        takeOperands arity opcode behind = some (operands, rest) →
        (opcode = .syscall → LineRead count operands behind rest) ∧
          WithinBuf arity count rest

/-- A file in the documented form has no line that is too long, and any other file has the
two numbers and a word in the place of an opcode that is none. -/
def Regular (arity : BitVec 32 → Nat) (file : CString) : Prop :=
  match documented arity file with
  | some (_, instructions) =>
      WithinBuf arity instructions.length (scanf headerFormat file).2
  | none =>
      ∃ priority size, (scanf headerFormat file).1 = [priority, size] ∧
        NoOpcode size.toNat (scanf headerFormat file).2

/-! ## One instruction -/

theorem getOpcode_eq_some_iff (word : CString) (opcode : Opcode) :
    getOpcode word = some opcode ↔ word = opcode.opt := by
  simp only [getOpcode, strcmp_eq_zero_iff]
  constructor
  · intro found
    split_ifs at found with isCalc isAlloc isFree isRead isWrite isSyscall <;>
      cases found <;> assumption
  · rintro rfl
    cases opcode <;> decide

/-- No opcode starts with a character of a number. -/
theorem getOpcode_of_isNumeric
    {char : CChar}
    (numeric : isNumeric char = true)
    (word : CString) :
    getOpcode (char :: word) = none := by
  rw [Option.eq_none_iff_forall_ne_some]
  intro opcode isOpcode
  rw [getOpcode_eq_some_iff] at isOpcode
  have letter : opcode.opt.head?.any isNumeric = false := by
    cases opcode <;> decide
  rw [← isOpcode] at letter
  cases numeric.symm.trans letter

theorem length_lt_opcodeSize
    {word : CString}
    {opcode : Opcode}
    (isOpcode : getOpcode word = some opcode) :
    word.length < opcodeSize := by
  rw [getOpcode_eq_some_iff] at isOpcode
  subst isOpcode
  cases opcode <;> decide

/-- The text that is left does not depend on the arrays. -/
theorem file_scanOperands (opcode : Opcode) (reader : Reader) :
    (scanOperands opcode reader).2.file = behindOperands opcode reader.file := by
  cases opcode with
  | syscall =>
      simp only [behindOperands, scanOperands, Reader.scanLine, fgets]
      split <;> rfl
  | _ => rfl

theorem opcode_scanOperands (opcode : Opcode) (reader : Reader) :
    (scanOperands opcode reader).2.opcode = reader.opcode := by
  cases opcode <;> rfl

theorem ok_bind {ε α β : Type} (value : α) (next : α → Except ε β) :
    (Except.ok value >>= next) = next value := rfl

theorem error_bind {ε α β : Type} (error : ε) (next : α → Except ε β) :
    (Except.error error >>= next) = Except.error error := rfl

section ReadInst

variable {reader : Reader} {word rest : CString}

theorem readInst_of_opcode
    {opcode : Opcode}
    (found : scanString reader.file = some (word, rest))
    (isOpcode : getOpcode word = some opcode) :
    readInst reader =
      let read := scanOperands opcode { reader with opcode := word, file := rest }
      .ok ((opcode, read.1), read.2) := by
  have scanned : scanOpcode reader = .ok { reader with opcode := word, file := rest } := by
    rw [scanOpcode, found]
    exact if_pos (length_lt_opcodeSize isOpcode)
  rw [readInst, scanned, ok_bind]
  simp only [isOpcode]

theorem readInst_of_noOpcode
    (found : scanString reader.file = some (word, rest))
    (noOpcode : getOpcode word = none) :
    readInst reader =
      if word.length < opcodeSize then .error .exit else .error .overrun := by
  rw [readInst, scanOpcode, found]
  dsimp only
  split
  · rw [ok_bind]
    simp only [noOpcode]
  · rw [error_bind]

/-- At the end of the file the opcode of the instruction before is taken again. -/
theorem readInst_of_end
    {opcode : Opcode}
    (ended : scanString reader.file = none)
    (isOpcode : getOpcode reader.opcode = some opcode) :
    readInst reader =
      let read := scanOperands opcode { reader with file := [] }
      .ok ((opcode, read.1), read.2) := by
  rw [readInst, scanOpcode, ended]
  dsimp only
  rw [ok_bind]
  simp only [isOpcode]

end ReadInst

/-! ## Files that are rejected -/

section ReadText

variable {arg : Nat → Fin 4 → BitVec 32} {count i : Nat} {reader : Reader}

theorem readText_of_ok
    {opcode : Opcode}
    {values : List (BitVec 32)}
    {next : Reader}
    (read : readInst reader = .ok ((opcode, values), next)) :
    readText arg (count + 1) i reader =
      (readText arg count (i + 1) next).map
        ({ opcode := opcode, arg := assign values (arg i) } :: ·) := by
  rw [readText, read, ok_bind]
  dsimp only
  cases readText arg count (i + 1) next <;> rfl

theorem readText_of_error
    {stop : Stop}
    (read : readInst reader = .error stop) :
    readText arg (count + 1) i reader = .error stop := by
  rw [readText, read, error_bind]

theorem map_eq_error_iff
    {ε α β : Type}
    (result : Except ε α)
    (update : α → β)
    (error : ε) :
    result.map update = .error error ↔ result = .error error := by
  cases result <;> simp [Except.map]

theorem readText_of_noOpcode
    (noOpcode : NoOpcode count reader.file) :
    readText arg count i reader = .error .exit := by
  generalize text : reader.file = file at noOpcode
  induction noOpcode generalizing i reader with
  | here found short unknown =>
      subst text
      have stopped := readInst_of_noOpcode found unknown
      rw [if_pos short] at stopped
      exact readText_of_error stopped
  | @behind count text word rest opcode found isOpcode _ inductionHypothesis =>
      subst text
      rw [readText_of_ok (readInst_of_opcode found isOpcode), map_eq_error_iff]
      exact inductionHypothesis (file_scanOperands opcode _)

/-- Once an opcode has been read, only a word that is no opcode makes `load` exit. -/
theorem noOpcode_of_readText
    (known : (getOpcode reader.opcode).isSome)
    (exits : readText arg count i reader = .error .exit) :
    NoOpcode count reader.file := by
  induction count generalizing i reader with
  | zero => cases exits
  | succ count inductionHypothesis =>
      cases found : scanString reader.file with
      | none =>
          obtain ⟨opcode, isOpcode⟩ := Option.isSome_iff_exists.mp known
          rw [readText_of_ok (readInst_of_end found isOpcode), map_eq_error_iff] at exits
          have next := inductionHypothesis (by rw [opcode_scanOperands, isOpcode]; rfl) exits
          have ended : behindOperands opcode [] = [] := by cases opcode <;> rfl
          rw [file_scanOperands, ended] at next
          cases next with
          | here found | behind found => cases found
      | some scanned =>
          obtain ⟨word, rest⟩ := scanned
          cases isOpcode : getOpcode word with
          | none =>
              have stopped := readInst_of_noOpcode found isOpcode
              split_ifs at stopped with short
              · exact .here found short isOpcode
              · rw [readText_of_error stopped] at exits
                cases exits
          | some opcode =>
              rw [readText_of_ok (readInst_of_opcode found isOpcode), map_eq_error_iff] at exits
              have next := inductionHypothesis (by rw [opcode_scanOperands, isOpcode]; rfl) exits
              rw [file_scanOperands] at next
              exact .behind found isOpcode next

end ReadText

/-! ## Files in the documented form -/

theorem keeps_unsigned
    {least : Int}
    {format : List Directive}
    (fits : leastOperand ≤ least)
    (unsigned : ∀ convert, Directive.integer convert ∈ format → convert = toUnsigned) :
    Keeps least format := by
  intro convert member number low high
  rw [unsigned convert member]
  exact toUnsigned_eq (Int.le_trans fits low) high

section Form

variable {arity : BitVec 32 → Nat} {text rest : CString} {operands : List (BitVec 32)}

theorem takeInstruction_eq_some_iff {instruction : Instruction} :
    takeInstruction arity text = some (instruction, rest) ↔
      ∃ word behind, scanString text = some (word, behind) ∧
        getOpcode word = some instruction.opcode ∧
        takeOperands arity instruction.opcode behind = some (instruction.operands, rest) := by
  simp only [takeInstruction, Option.bind_eq_bind, Option.bind_eq_some_iff, Prod.exists,
    Option.some.injEq, Prod.mk.injEq]
  constructor
  · rintro ⟨word, behind, found, opcode, isOpcode, operands, _, taken, rfl, rfl⟩
    exact ⟨word, behind, found, isOpcode, taken⟩
  · rintro ⟨word, behind, found, isOpcode, taken⟩
    exact ⟨word, behind, found, _, isOpcode, _, rest, taken, rfl, rfl⟩

theorem takeInstructions_succ_eq_some_iff
    {count : Nat}
    {instructions : List Instruction} :
    takeInstructions arity (count + 1) text = some instructions ↔
      ∃ instruction rest more, takeInstruction arity text = some (instruction, rest) ∧
        takeInstructions arity count rest = some more ∧ instruction :: more = instructions := by
  simp only [takeInstructions, Option.bind_eq_bind, Option.bind_eq_some_iff, Prod.exists,
    Option.some.injEq]
  constructor
  · rintro ⟨instruction, rest, taken, more, takenMore, rfl⟩
    exact ⟨instruction, rest, more, taken, takenMore, rfl⟩
  · rintro ⟨instruction, rest, more, taken, takenMore, rfl⟩
    exact ⟨instruction, rest, taken, more, takenMore, rfl⟩

theorem length_takeInstructions
    {count : Nat}
    {instructions : List Instruction}
    (taken : takeInstructions arity count text = some instructions) :
    instructions.length = count := by
  induction count generalizing text instructions with
  | zero =>
      cases taken
      rfl
  | succ count inductionHypothesis =>
      obtain ⟨_, _, more, _, takenMore, rfl⟩ := takeInstructions_succ_eq_some_iff.mp taken
      rw [List.length_cons, inductionHypothesis takenMore]

theorem takeLineOperands_eq_some
    (taken : takeLineOperands arity text = some (operands, rest)) :
    lineNumerals leastOperand 4 (text.takeWhile (· ≠ newline)) = some operands ∧
      operands ≠ [] ∧ text.dropWhile (· ≠ newline) = rest := by
  rw [takeLineOperands] at taken
  split at taken
  · rename_i isLine
    simp only [Option.ite_none_right_eq_some, Option.some.injEq, Prod.mk.injEq] at taken
    obtain ⟨_, rfl, rfl⟩ := taken
    exact ⟨isLine, List.cons_ne_nil _ _, rfl⟩
  · cases taken

theorem length_takeOperands
    {opcode : Opcode}
    (taken : takeOperands arity opcode text = some (operands, rest)) :
    operands.length ≤ 4 := by
  cases opcode with
  | syscall => exact length_lineNumerals (takeLineOperands_eq_some taken).1
  | _ =>
      have length := length_takeNumerals taken
      omega

/-- An array that is long enough is read as the line. -/
theorem scanLine_eq
    {reader : Reader}
    (taken : takeLineOperands arity reader.file = some (operands, rest))
    (format : List Directive) :
    (reader.scanLine format).1 = (scanf format (takeLine (bufSize - 1) reader.file).1).1 ∧
      (reader.scanLine format).2.file = (takeLine (bufSize - 1) reader.file).2 := by
  have nonempty : reader.file ≠ [] := by
    intro ended
    obtain ⟨isLine, written, _⟩ := takeLineOperands_eq_some taken
    rw [ended] at isLine
    cases isLine
    exact written rfl
  simp only [Reader.scanLine, fgets, if_neg nonempty, and_self]

/-- The operands of every opcode but `syscall` are read as they are written. -/
theorem scanOperands_iff
    {opcode : Opcode}
    (reader : Reader)
    (count : Nat)
    (taken : takeOperands arity opcode reader.file = some (operands, rest)) :
    (operands <+: (scanOperands opcode reader).1 ∧
        (count = 0 ∨ skipSpace (scanOperands opcode reader).2.file = skipSpace rest)) ↔
      (opcode = .syscall → LineRead count operands reader.file rest) := by
  have whole : ∀ format : List Directive,
      (∀ convert, Directive.integer convert ∈ format → convert = toUnsigned) →
      takeNumerals leastOperand (conversions format) reader.file = some (operands, rest) →
      operands <+: (reader.scan format).1 ∧
        (count = 0 ∨ skipSpace (reader.scan format).2.file = skipSpace rest) := by
    intro format unsigned takenNumerals
    have read := scanf_of_takeNumerals (keeps_unsigned (Int.le_refl _) unsigned) rfl takenNumerals
    exact ⟨⟨[], (List.append_nil operands).trans read.1.symm⟩, Or.inr read.2⟩
  cases opcode with
  | syscall =>
      obtain ⟨values, file⟩ := scanLine_eq taken syscallFormat
      simp only [scanOperands, values, file, LineRead, true_implies]
  | «calc» =>
      exact iff_of_true (whole [] (by simp) taken) (fun isSyscall => by cases isSyscall)
  | alloc =>
      exact iff_of_true (whole allocFormat (by simp [allocFormat, percentU]) taken)
        (fun isSyscall => by cases isSyscall)
  | free =>
      exact iff_of_true (whole freeFormat (by simp [freeFormat, percentU]) taken)
        (fun isSyscall => by cases isSyscall)
  | read | write =>
      exact iff_of_true (whole accessFormat (by simp [accessFormat, percentU]) taken)
        (fun isSyscall => by cases isSyscall)

theorem lists_of_starts
    {opcode : Opcode}
    {values : List (BitVec 32)}
    (starts : operands <+: values)
    (arg : Fin 4 → BitVec 32) :
    Lists { opcode := opcode, arg := assign values arg }
      { opcode := opcode, operands := operands } := by
  refine ⟨rfl, fun j value written => ?_⟩
  obtain ⟨inRange, rfl⟩ := List.getElem?_eq_some_iff.mp written
  have read := List.prefix_iff_getElem?.mp starts j.val inRange
  simp only [assign, read, Option.getD_some]

/-- If the memory does not matter, every operand has been read. -/
theorem starts_of_lists
    {opcode : Opcode}
    {values : List (BitVec 32)}
    (few : operands.length ≤ 4)
    (lists : ∀ arg, Lists { opcode := opcode, arg := assign values arg }
      { opcode := opcode, operands := operands }) :
    operands <+: values := by
  rw [List.prefix_iff_getElem?]
  intro j inRange
  have written : operands[j]? = some operands[j] :=
    List.getElem?_eq_getElem inRange
  have stored := fun other => (lists fun _ => other).2 ⟨j, by omega⟩ _ written
  cases read : values[j]? with
  | some value => simpa [assign, read] using stored 0
  | none =>
      -- two contents of the memory give two values
      have zero := stored 0
      have one := stored 1
      simp only [assign, read, Option.getD_none] at zero one
      rw [← zero] at one
      cases one

end Form

theorem map_eq_ok_iff
    {ε α β : Type}
    (result : Except ε α)
    (update : α → β)
    (value : β) :
    result.map update = .ok value ↔ ∃ before, result = .ok before ∧ update before = value := by
  cases result <;> simp [Except.map]

section Documented

variable {arity : BitVec 32 → Nat} {count i : Nat} {text : CString} {reader : Reader}
  {instructions : List Instruction}

/-- Instructions in the documented form are listed. -/
theorem readText_of_takeInstructions
    (arg : Nat → Fin 4 → BitVec 32)
    (taken : takeInstructions arity count text = some instructions)
    (within : WithinBuf arity count text)
    (same : count = 0 ∨ skipSpace reader.file = skipSpace text) :
    ∃ insts, readText arg count i reader = .ok insts ∧
      List.Forall₂ Lists insts instructions := by
  induction count generalizing i text reader instructions with
  | zero =>
      cases taken
      exact ⟨[], rfl, .nil⟩
  | succ count inductionHypothesis =>
      obtain ⟨instruction, rest, more, takenOne, takenMore, rfl⟩ :=
        takeInstructions_succ_eq_some_iff.mp taken
      obtain ⟨word, behind, found, isOpcode, takenOperands⟩ :=
        takeInstruction_eq_some_iff.mp takenOne
      have next := within word behind _ _ rest found isOpcode takenOperands
      rw [← scanString_congr (same.resolve_left (Nat.succ_ne_zero count))] at found
      have operands := (scanOperands_iff { reader with opcode := word, file := behind } count
        takenOperands).mpr next.1
      obtain ⟨insts, read, lists⟩ := inductionHypothesis (i := i + 1) takenMore next.2 operands.2
      refine ⟨_, ?_, .cons (lists_of_starts operands.1 (arg i)) lists⟩
      rw [readText_of_ok (readInst_of_opcode found isOpcode), read]
      rfl

/-- What is left of a line is read as a word that is no opcode. -/
theorem skipSpace_of_readInst
    {opcode : Opcode}
    {operands : List (BitVec 32)}
    {rest : CString}
    {result : (Opcode × List (BitVec 32)) × Reader}
    (taken : takeOperands arity opcode reader.file = some (operands, rest))
    (reads : readInst (scanOperands opcode reader).2 = .ok result) :
    skipSpace (scanOperands opcode reader).2.file = skipSpace rest := by
  by_cases isSyscall : opcode = .syscall
  · subst isSyscall
    obtain ⟨isLine, _, rfl⟩ := takeLineOperands_eq_some taken
    have file := (scanLine_eq taken syscallFormat).2
    rw [scanOperands] at reads ⊢
    rcases skipSpace_takeLine (bufSize - 1) reader.file with blank | ⟨char, left, next, member⟩
    · rw [file, blank]
    · have notSpace := isSpace_of_skipSpace next
      have numeric := isNumeric_of_lineNumerals isLine member notSpace
      have found : scanString (reader.scanLine syscallFormat).2.file =
          some (char :: left.takeWhile (!isSpace ·), left.dropWhile (!isSpace ·)) := by
        rw [file, scanString, next]
        simp [notSpace]
      rw [readInst_of_noOpcode found (getOpcode_of_isNumeric numeric _)] at reads
      split_ifs at reads
  · have operands := (scanOperands_iff reader 1 taken).mpr fun same => absurd same isSyscall
    exact operands.2.resolve_left Nat.one_ne_zero

/-- The first instruction is listed, and the other ones are read from there on. -/
theorem lists_of_readText
    {arg : Nat → Fin 4 → BitVec 32}
    {opcode : Opcode}
    {values : List (BitVec 32)}
    {next : Reader}
    {instruction : Instruction}
    (read : readInst reader = .ok ((opcode, values), next))
    (reads : ∃ insts, readText arg (count + 1) i reader = .ok insts ∧
      List.Forall₂ Lists insts (instruction :: instructions)) :
    ∃ insts, readText arg count (i + 1) next = .ok insts ∧
      Lists { opcode := opcode, arg := assign values (arg i) } instruction ∧
      List.Forall₂ Lists insts instructions := by
  obtain ⟨insts, readAll, lists⟩ := reads
  rw [readText_of_ok read, map_eq_ok_iff] at readAll
  obtain ⟨insts, readMore, rfl⟩ := readAll
  exact ⟨insts, readMore, List.forall₂_cons.mp lists⟩

/-- Instructions that are listed whatever the memory holds are read whole. -/
theorem withinBuf_of_readText
    (taken : takeInstructions arity count text = some instructions)
    (same : skipSpace reader.file = skipSpace text)
    (reads : ∀ arg, ∃ insts, readText arg count i reader = .ok insts ∧
      List.Forall₂ Lists insts instructions) :
    WithinBuf arity count text := by
  induction count generalizing i text reader instructions with
  | zero => trivial
  | succ count inductionHypothesis =>
      intro word behind opcode operands rest found isOpcode takenOperands
      obtain ⟨instruction, rest', more, takenOne, takenMore, rfl⟩ :=
        takeInstructions_succ_eq_some_iff.mp taken
      have whole : takeInstruction arity text = some (⟨opcode, operands⟩, rest) :=
        takeInstruction_eq_some_iff.mpr ⟨word, behind, found, isOpcode, takenOperands⟩
      cases takenOne.symm.trans whole
      rw [← scanString_congr same] at found
      obtain ⟨start, rfl, read⟩ : ∃ start : Reader, start.file = behind ∧ readInst reader =
          .ok ((opcode, (scanOperands opcode start).1), (scanOperands opcode start).2) :=
        ⟨{ reader with opcode := word, file := behind }, rfl, readInst_of_opcode found isOpcode⟩
      have later := fun arg => lists_of_readText read (reads arg)
      have lists : ∀ arg, Lists { opcode := opcode, arg := assign _ arg }
          { opcode := opcode, operands := operands } := fun arg =>
        (later fun _ => arg).choose_spec.2.1
      have starts : operands <+: (scanOperands opcode start).1 :=
        starts_of_lists (length_takeOperands takenOperands) lists
      have blank : count = 0 ∨
          skipSpace (scanOperands opcode start).2.file = skipSpace rest := by
        cases count with
        | zero => exact Or.inl rfl
        | succ count =>
            obtain ⟨insts, readMore, _⟩ := later fun _ _ => 0
            cases next : readInst (scanOperands opcode start).2 with
            | error stop =>
                rw [readText_of_error next] at readMore
                cases readMore
            | ok result => exact Or.inr (skipSpace_of_readInst takenOperands next)
      refine ⟨(scanOperands_iff start count takenOperands).mp ⟨starts, blank⟩, ?_⟩
      rcases blank with rfl | blank
      · trivial
      · exact inductionHypothesis takenMore blank fun arg =>
          (later arg).imp fun _ both => ⟨both.1, both.2.2⟩

end Documented

/-! ## The file -/

theorem takeInstructions_congr
    {arity : BitVec 32 → Nat}
    {text other : CString}
    (same : skipSpace text = skipSpace other)
    (count : Nat) :
    takeInstructions arity count text = takeInstructions arity count other := by
  cases count with
  | zero => rfl
  | succ count =>
      rw [takeInstructions, takeInstructions, takeInstruction, takeInstruction,
        scanString_congr same]

section File

variable {arity : BitVec 32 → Nat} {file : CString} {priority size : BitVec 32}

/-- The instructions of the form are those behind the header that `load` reads. -/
theorem documented_eq_some
    {instructions : List Instruction}
    (isForm : documented arity file = some (priority, instructions)) :
    ∃ size, (scanf headerFormat file).1 = [priority, size] ∧
      takeInstructions arity size.toNat (scanf headerFormat file).2 = some instructions := by
  simp only [documented, Option.bind_eq_bind, Option.bind_eq_some_iff, Prod.exists] at isForm
  obtain ⟨header, rest, takenHeader, behind⟩ := isForm
  have keeps : Keeps 0 headerFormat :=
    keeps_unsigned (by decide) (by simp [headerFormat, percentU])
  obtain ⟨read, same⟩ := scanf_of_takeNumerals keeps rfl takenHeader
  split at behind
  · rename_i priority' size
    simp only [Option.bind_eq_some_iff, Option.some.injEq, Prod.mk.injEq] at behind
    obtain ⟨_, taken, rfl, rfl⟩ := behind
    exact ⟨size, read, by rw [takeInstructions_congr same, taken]⟩
  · cases behind

/-- The arrays and the text in front of the loop. -/
def Unassigned.reader (unassigned : Unassigned) (file : CString) : Reader where
  opcode := unassigned.opcode
  buf := unassigned.buf
  file := (scanf headerFormat file).2

/-- The process of a file with this header. -/
def loadedProc (priority size availPid : BitVec 32) (path : CString) (text : List Inst) :
    Pcb where
  pid := availPid
  priority := priority
  path := loadPath path
  code := { text := text, size := size }
  pc := 0
  bp := pageSize

theorem load_of_header
    (header : (scanf headerFormat file).1 = [priority, size])
    (unassigned : Unassigned)
    (availPid : BitVec 32)
    (path : CString) :
    load unassigned availPid (some file) path =
      (readText unassigned.arg size.toNat 0 (unassigned.reader file)).map fun text =>
        (loadedProc priority size availPid path text, availPid + 1) := by
  simp only [load, header, Unassigned.reader, List.getElem?_cons_succ, List.getElem?_cons_zero,
    Option.getD_some]
  cases readText unassigned.arg size.toNat 0 _ <;> rfl

/-- Without two numbers the size is what the memory holds, and it may be zero. -/
theorem header_of_loadsExactly
    (exactly : LoadsExactly arity file)
    (notForm : documented arity file = none) :
    ∃ priority size, (scanf headerFormat file).1 = [priority, size] := by
  have length : (scanf headerFormat file).1.length ≤ 2 := length_scanf headerFormat file
  let unassigned : Unassigned :=
    { priority := 0, size := 0, opcode := [], buf := [], arg := fun _ _ => 0 }
  have result := exactly.lists unassigned 0 []
  match header : (scanf headerFormat file).1 with
  | [priority, size] => exact ⟨priority, size, rfl⟩
  | _ :: _ :: _ :: _ => simp [header] at length
  | [] | [_] =>
      simp [load, header, unassigned, readText, ok_bind, notForm] at result

/-- A file in the form is loaded whatever the memory holds. -/
theorem readText_of_loadsExactly
    {instructions : List Instruction}
    (header : (scanf headerFormat file).1 = [priority, size])
    (isForm : documented arity file = some (priority, instructions))
    (exactly : LoadsExactly arity file)
    (unassigned : Unassigned) :
    ∃ insts, readText unassigned.arg size.toNat 0 (unassigned.reader file) = .ok insts ∧
      List.Forall₂ Lists insts instructions := by
  have loaded := load_of_header header unassigned 0 []
  cases read : readText unassigned.arg size.toNat 0 (unassigned.reader file) with
  | ok text =>
      rw [read] at loaded
      obtain ⟨_, same, _, lists⟩ := exactly.lists _ _ _ _ _ loaded
      cases isForm.symm.trans same
      exact ⟨text, rfl, lists⟩
  | error stop =>
      rw [read] at loaded
      cases stop with
      | exit =>
          have notForm := exactly.rejects _ _ _ loaded
          cases isForm.symm.trans notForm
      | overrun => exact absurd loaded (exactly.inBounds _ _ _)

theorem loadsExactly_iff_withinBuf
    {instructions : List Instruction}
    (isForm : documented arity file = some (priority, instructions)) :
    LoadsExactly arity file ↔
      WithinBuf arity instructions.length (scanf headerFormat file).2 := by
  obtain ⟨size, header, taken⟩ := documented_eq_some isForm
  rw [length_takeInstructions taken]
  constructor
  · intro exactly
    let reader : Reader := { opcode := [], buf := [], file := (scanf headerFormat file).2 }
    have reads : ∀ arg, ∃ insts, readText arg size.toNat 0 reader = .ok insts ∧
        List.Forall₂ Lists insts instructions := fun arg =>
      readText_of_loadsExactly header isForm exactly
        { priority := 0, size := 0, opcode := [], buf := [], arg := arg }
    exact withinBuf_of_readText taken rfl reads
  · intro within
    have loaded : ∀ unassigned availPid path, ∃ insts,
        load unassigned availPid (some file) path =
          .ok (loadedProc priority size availPid path insts, availPid + 1) ∧
        List.Forall₂ Lists insts instructions := by
      intro unassigned availPid path
      have same : size.toNat = 0 ∨ skipSpace (unassigned.reader file).file =
          skipSpace (scanf headerFormat file).2 := Or.inr rfl
      obtain ⟨insts, read, lists⟩ :=
        readText_of_takeInstructions (i := 0) unassigned.arg taken within same
      exact ⟨insts, by rw [load_of_header header, read]; rfl, lists⟩
    refine ⟨?_, ?_, ?_⟩
    · intro unassigned availPid path proc next returned
      obtain ⟨insts, result, lists⟩ := loaded unassigned availPid path
      cases result.symm.trans returned
      exact ⟨instructions, isForm, (length_takeInstructions taken).symm, lists⟩
    · intro unassigned availPid path exits
      obtain ⟨_, result, _⟩ := loaded unassigned availPid path
      cases result.symm.trans exits
    · intro unassigned availPid path overruns
      obtain ⟨_, result, _⟩ := loaded unassigned availPid path
      cases result.symm.trans overruns

theorem loadsExactly_iff_noOpcode
    (notForm : documented arity file = none) :
    LoadsExactly arity file ↔
      ∃ priority size, (scanf headerFormat file).1 = [priority, size] ∧
        NoOpcode size.toNat (scanf headerFormat file).2 := by
  constructor
  · intro exactly
    obtain ⟨priority, size, header⟩ := header_of_loadsExactly exactly notForm
    refine ⟨priority, size, header, ?_⟩
    -- the stack may hold an opcode, as it does after the file before
    let unassigned : Unassigned :=
      { priority := 0, size := 0, opcode := Opcode.calc.opt, buf := [], arg := fun _ _ => 0 }
    have known : (getOpcode (unassigned.reader file).opcode).isSome :=
      Option.isSome_iff_exists.mpr ⟨.calc, (getOpcode_eq_some_iff _ _).mpr rfl⟩
    have loaded := load_of_header header unassigned 0 []
    cases read : readText unassigned.arg size.toNat 0 (unassigned.reader file) with
    | ok text =>
        rw [read] at loaded
        obtain ⟨_, isForm, _⟩ := exactly.lists _ _ _ _ _ loaded
        cases notForm.symm.trans isForm
    | error stop =>
        rw [read] at loaded
        cases stop with
        | exit => exact noOpcode_of_readText known read
        | overrun => exact absurd loaded (exactly.inBounds _ _ _)
  · rintro ⟨priority, size, header, noOpcode⟩
    have loaded : ∀ unassigned availPid path,
        load unassigned availPid (some file) path = .error .exit := by
      intro unassigned availPid path
      have exits : readText unassigned.arg size.toNat 0 (unassigned.reader file) =
          .error .exit := readText_of_noOpcode noOpcode
      rw [load_of_header header, exits]
      rfl
    refine ⟨?_, fun _ _ _ _ => notForm, ?_⟩
    · intro unassigned availPid path proc next returned
      cases (loaded unassigned availPid path).symm.trans returned
    · intro unassigned availPid path overruns
      cases (loaded unassigned availPid path).symm.trans overruns

end File

/-- A file in the documented form is loaded as it is written if no line of a system call is
too long for `buf`.  Any other file is rejected if and only if a word that is no opcode, and
fits in its array, stands in the place of an opcode. -/
theorem loadsExactly_iff (arity : BitVec 32 → Nat) (file : CString) :
    LoadsExactly arity file ↔ Regular arity file := by
  cases isForm : documented arity file with
  | some form =>
      rw [Regular, isForm]
      exact loadsExactly_iff_withinBuf isForm
  | none =>
      rw [Regular, isForm]
      exact loadsExactly_iff_noOpcode isForm

/-! ## Short lines -/

/-- Every line, with its newline, fits in `buf`. -/
def ShortLines (file : CString) : Prop :=
  ∀ text, text <:+ file → (text.takeWhile (· ≠ newline)).length < bufSize - 1

section Short

variable {arity : BitVec 32 → Nat} {text rest : CString} {operands : List (BitVec 32)}

theorem lineRead_of_short
    (count : Nat)
    (taken : takeLineOperands arity text = some (operands, rest))
    (short : (text.takeWhile (· ≠ newline)).length < bufSize - 1) :
    LineRead count operands text rest := by
  obtain ⟨isLine, _, rfl⟩ := takeLineOperands_eq_some taken
  obtain ⟨ending, line, spaces, blank⟩ := takeLine_of_short short
  have keeps : Keeps leastOperand syscallFormat := by
    intro convert member number low high
    have isSigned : convert = toSigned := by simpa [syscallFormat, percentD] using member
    rw [isSigned, toSigned_eq low high]
  have read : (scanf syscallFormat (takeLine (bufSize - 1) text).1).1 = operands := by
    rw [line]
    exact scanf_of_lineNumerals keeps rfl spaces isLine
  exact ⟨⟨[], (List.append_nil operands).trans read.symm⟩, Or.inr blank⟩

theorem suffix_of_takeOperands
    {opcode : Opcode}
    (taken : takeOperands arity opcode text = some (operands, rest)) :
    rest <:+ text := by
  cases opcode with
  | syscall =>
      rw [← (takeLineOperands_eq_some taken).2.2]
      exact List.dropWhile_suffix _
  | _ => exact suffix_of_takeNumerals taken

theorem withinBuf_of_shortLines
    {count : Nat}
    (short : ShortLines text) :
    WithinBuf arity count text := by
  induction count generalizing text with
  | zero => trivial
  | succ count inductionHypothesis =>
      intro word behind opcode operands rest found isOpcode taken
      have behindText := suffix_of_scanString found
      refine ⟨?_, inductionHypothesis fun later suffix => ?_⟩
      · rintro rfl
        exact lineRead_of_short count taken (short behind behindText)
      · exact short later (suffix.trans ((suffix_of_takeOperands taken).trans behindText))

/-- The lines that the samples have are loaded as they are written. -/
theorem loadsExactly_of_shortLines
    {file : CString}
    (isForm : (documented arity file).isSome)
    (short : ShortLines file) :
    LoadsExactly arity file := by
  obtain ⟨form, isForm⟩ := Option.isSome_iff_exists.mp isForm
  rw [loadsExactly_iff_withinBuf isForm]
  exact withinBuf_of_shortLines fun text suffix =>
    short text (suffix.trans (scanf_suffix headerFormat file))

end Short

/-- Two instructions are declared, and there is one. -/
def truncated : CString :=
  ofChars ['1', ' ', '2', '\n', 'c', 'a', 'l', 'c', '\n']

/-- The opcode that was read last is taken again. -/
theorem truncated_loaded : ¬ ∃ arity, LoadsExactly arity truncated := by
  rintro ⟨arity, exactly⟩
  have notForm : documented arity truncated = none := by rfl
  let unassigned : Unassigned :=
    { priority := 0, size := 0, opcode := [], buf := [], arg := fun _ _ => 0 }
  obtain ⟨_, isForm, _⟩ := exactly.lists unassigned 1 [] _ _ rfl
  cases notForm.symm.trans isForm

end Loader
end Os
end Ossim
