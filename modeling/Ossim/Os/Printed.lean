import Ossim.Library.Print
import Ossim.Os.Format

/-!
# Every program can be loaded

A program is a priority and a list of instructions with their operands.  Its file has a
header, and a line for each instruction, as the files in `input/proc` have them.  Such a
file is in the documented form and has no long lines, so `load` returns the program,
whatever the memory held before.
-/

namespace Ossim
namespace Os
namespace Loader

open CString Stdio

/-- An instruction on a line of its own. -/
def printInstruction (instruction : Instruction) : CString :=
  instruction.opcode.opt ++ printNumerals instruction.operands ++ [newline]

/-- The header with the number of the instructions, and their lines. -/
def printProgram (priority : BitVec 32) (instructions : List Instruction) : CString :=
  printNat priority.toNat ++ blank :: printNat instructions.length ++
    newline :: instructions.flatMap printInstruction

/-- The instruction has the operands that `load` reads for its opcode.  A system call has
its number and up to three arguments, at least as many as it needs. -/
def Instruction.Complete (arity : BitVec 32 → Nat) (instruction : Instruction) : Prop :=
  match instruction.opcode, instruction.operands with
  | .calc, operands => operands.length = 0
  | .free, operands => operands.length = 1
  | .alloc, operands => operands.length = 2
  | .read, operands | .write, operands => operands.length = 3
  | .syscall, [] => False
  | .syscall, number :: args => arity number ≤ args.length ∧ args.length ≤ 3

instance decidableComplete (arity : BitVec 32 → Nat) :
    ∀ instruction, Decidable (Instruction.Complete arity instruction)
  | ⟨.calc, operands⟩ => inferInstanceAs (Decidable (operands.length = 0))
  | ⟨.free, operands⟩ => inferInstanceAs (Decidable (operands.length = 1))
  | ⟨.alloc, operands⟩ => inferInstanceAs (Decidable (operands.length = 2))
  | ⟨.read, operands⟩ | ⟨.write, operands⟩ =>
      inferInstanceAs (Decidable (operands.length = 3))
  | ⟨.syscall, []⟩ => inferInstanceAs (Decidable False)
  | ⟨.syscall, number :: args⟩ =>
      inferInstanceAs (Decidable (arity number ≤ args.length ∧ args.length ≤ 3))

variable {arity : BitVec 32 → Nat} {instruction : Instruction} {rest : CString}

/-! ## One instruction -/

theorem isWord_opt (opcode : Opcode) : IsWord opcode.opt := by
  cases opcode <;> decide

theorem length_operands_le (complete : instruction.Complete arity) :
    instruction.operands.length ≤ 4 := by
  obtain ⟨opcode, operands⟩ := instruction
  cases opcode with
  | syscall =>
      cases operands with
      | nil => cases complete
      | cons number args => exact Nat.succ_le_succ complete.2
  | _ =>
      have count : operands.length = _ := complete
      simp [count]

/-- Behind the opcode the operands are read as they were printed. -/
theorem takeOperands_of_complete
    (complete : instruction.Complete arity)
    (rest : CString) :
    takeOperands arity instruction.opcode
        (printNumerals instruction.operands ++ newline :: rest) =
      some (instruction.operands, newline :: rest) := by
  obtain ⟨opcode, operands⟩ := instruction
  have numerals := takeNumerals_printNumerals (show leastOperand ≤ 0 by decide) operands
    (startsBlank_cons (show isSpace newline = true by decide) rest)
  cases opcode with
  | syscall =>
      have all : ∀ char ∈ printNumerals operands, decide (char ≠ newline) = true := by
        intro char member
        rw [decide_eq_true_eq]
        rintro rfl
        exact newline_notMem_printNumerals operands member
      have line : (printNumerals operands ++ newline :: rest).takeWhile (· ≠ newline) =
          printNumerals operands := by
        rw [List.takeWhile_append_of_pos all]
        simp
      have behind : (printNumerals operands ++ newline :: rest).dropWhile (· ≠ newline) =
          newline :: rest := by
        rw [List.dropWhile_append_of_pos all]
        simp
      have read := lineNumerals_printNumerals (show leastOperand ≤ 0 by decide)
        (length_operands_le complete)
      cases operands with
      | nil => cases complete
      | cons number args =>
          show takeLineOperands arity _ = _
          rw [takeLineOperands, line, behind, read]
          exact if_pos complete.1
  | _ =>
      have count : operands.length = _ := complete
      rw [count] at numerals
      exact numerals

theorem takeInstruction_of_complete
    (complete : instruction.Complete arity)
    (rest : CString) :
    takeInstruction arity (printInstruction instruction ++ rest) =
      some (instruction, newline :: rest) := by
  have ends : StartsBlank (printNumerals instruction.operands ++ newline :: rest) := by
    cases instruction.operands with
    | nil => exact startsBlank_cons (by decide) _
    | cons => exact startsBlank_cons (by decide) _
  have text : printInstruction instruction ++ rest = instruction.opcode.opt ++
      (printNumerals instruction.operands ++ newline :: rest) := by
    simp [printInstruction]
  refine takeInstruction_eq_some_iff.mpr ⟨instruction.opcode.opt, _, ?_,
    (getOpcode_eq_some_iff _ _).mpr rfl, takeOperands_of_complete complete rest⟩
  rw [text]
  exact scanString_of_word (isWord_opt _) ends

/-! ## The file -/

theorem takeInstructions_of_complete
    {instructions : List Instruction}
    (complete : ∀ instruction ∈ instructions, instruction.Complete arity) :
    takeInstructions arity instructions.length (instructions.flatMap printInstruction) =
      some instructions := by
  induction instructions with
  | nil => rfl
  | cons instruction instructions inductionHypothesis =>
      have more := inductionHypothesis fun other member =>
        complete other (List.mem_cons_of_mem _ member)
      have behind : skipSpace (newline :: instructions.flatMap printInstruction) =
          skipSpace (instructions.flatMap printInstruction) := by
        rw [skipSpace, skipSpace, List.dropWhile_cons_of_pos (by decide)]
      rw [← takeInstructions_congr behind] at more
      exact takeInstructions_succ_eq_some_iff.mpr ⟨instruction, _, instructions,
        takeInstruction_of_complete (complete instruction List.mem_cons_self) _, more, rfl⟩

/-- The file of a program is in the documented form. -/
theorem documented_printProgram
    (priority : BitVec 32)
    {instructions : List Instruction}
    (complete : ∀ instruction ∈ instructions, instruction.Complete arity)
    (countable : instructions.length < 2 ^ 32) :
    documented arity (printProgram priority instructions) = some (priority, instructions) := by
  have size : (BitVec.ofNat 32 instructions.length).toNat = instructions.length := by
    rw [BitVec.toNat_ofNat, Nat.mod_eq_of_lt countable]
  have header : takeNumerals 0 2 (printProgram priority instructions) =
      some ([priority, BitVec.ofNat 32 instructions.length],
        newline :: instructions.flatMap printInstruction) := by
    have printed : printProgram priority instructions = printNat priority.toNat ++
        (blank :: (printNat (BitVec.ofNat 32 instructions.length).toNat ++
          newline :: instructions.flatMap printInstruction)) := by
      simp [printProgram, size]
    rw [printed]
    refine takeNumerals_succ_eq_some.mpr ⟨_, _, priority, _,
      scanString_of_word (isWord_printNat _) (startsBlank_cons (by decide) _),
      numeral_printNat priority (by decide), ?_, rfl⟩
    refine takeNumerals_succ_eq_some.mpr ⟨_, _, BitVec.ofNat 32 instructions.length, [],
      ?_, numeral_printNat _ (by decide), rfl, rfl⟩
    rw [scanString_of_blank (by decide)]
    exact scanString_of_word (isWord_printNat _) (startsBlank_cons (by decide) _)
  have behind : skipSpace (newline :: instructions.flatMap printInstruction) =
      skipSpace (instructions.flatMap printInstruction) := by
    rw [skipSpace, skipSpace, List.dropWhile_cons_of_pos (by decide)]
  have taken : takeInstructions arity (BitVec.ofNat 32 instructions.length).toNat
      (newline :: instructions.flatMap printInstruction) = some instructions := by
    rw [takeInstructions_congr behind, size]
    exact takeInstructions_of_complete complete
  simp only [documented, header, Option.bind_eq_bind, Option.bind_some, taken]

/-- An instruction line has at most 7 characters and 4 numbers. -/
theorem shortLines_instructions
    {instructions : List Instruction}
    (complete : ∀ instruction ∈ instructions, instruction.Complete arity) :
    ShortLines (instructions.flatMap printInstruction) := by
  induction instructions with
  | nil =>
      intro text behind
      rw [List.suffix_nil.mp behind]
      decide
  | cons instruction instructions inductionHypothesis =>
      have others := inductionHypothesis fun other member =>
        complete other (List.mem_cons_of_mem _ member)
      have atMost := length_operands_le (complete instruction List.mem_cons_self)
      have numerals := length_printNumerals_le instruction.operands
      have opcode : instruction.opcode.opt.length ≤ 7 := by
        cases instruction.opcode <;> decide
      have noNewline : newline ∉ instruction.opcode.opt ++
          printNumerals instruction.operands := by
        intro member
        rcases List.mem_append.mp member with inWord | inNumbers
        · have letter := (isWord_opt instruction.opcode).2 newline inWord
          cases letter
        · exact newline_notMem_printNumerals _ inNumbers
      have short : (instruction.opcode.opt ++
          printNumerals instruction.operands).length < bufSize - 1 := by
        rw [List.length_append, bufSize]
        omega
      have lines := lines_append noNewline short others
      rw [List.flatMap_cons, printInstruction, List.append_assoc, List.singleton_append]
      exact lines

theorem shortLines_printProgram
    (priority : BitVec 32)
    {instructions : List Instruction}
    (complete : ∀ instruction ∈ instructions, instruction.Complete arity)
    (countable : instructions.length < 2 ^ 32) :
    ShortLines (printProgram priority instructions) := by
  have first : (printNat priority.toNat).length ≤ 10 :=
    length_printNat_le (by have := priority.isLt; omega)
  have second : (printNat instructions.length).length ≤ 10 := length_printNat_le (by omega)
  have noNewline : newline ∉ printNat priority.toNat ++
      blank :: printNat instructions.length := by
    intro member
    rcases List.mem_append.mp member with inFirst | behind
    · exact absurd (isDigit_of_mem_printNat inFirst) (by decide)
    · rcases List.mem_cons.mp behind with isBlank | inSecond
      · exact absurd isBlank (by decide)
      · exact absurd (isDigit_of_mem_printNat inSecond) (by decide)
  refine lines_append noNewline ?_ (shortLines_instructions complete)
  rw [List.length_append, List.length_cons, bufSize]
  omega

/-- What `load` makes of the file of a program. -/
theorem load_of_complete
    (priority : BitVec 32)
    {instructions : List Instruction}
    (complete : ∀ instruction ∈ instructions, instruction.Complete arity)
    (countable : instructions.length < 2 ^ 32)
    (unassigned : Unassigned)
    (availPid : BitVec 32)
    (path : CString) :
    ∃ size text, load unassigned availPid (some (printProgram priority instructions)) path =
        .ok (loadedProc priority size availPid path text, availPid + 1) ∧
      size.toNat = instructions.length ∧ List.Forall₂ Lists text instructions := by
  have isForm := documented_printProgram priority complete countable
  have exactly : LoadsExactly arity (printProgram priority instructions) :=
    loadsExactly_of_shortLines (by rw [isForm]; rfl)
      (shortLines_printProgram priority complete countable)
  obtain ⟨size, header, taken⟩ := documented_eq_some isForm
  obtain ⟨text, read, lists⟩ := readText_of_loadsExactly header isForm exactly unassigned
  have loaded := load_of_header header unassigned availPid path
  rw [read] at loaded
  exact ⟨size, text, loaded, (length_takeInstructions taken).symm, lists⟩

/-- Every program is read back from its file: whatever the memory held, `load` returns its
priority, its size and its instructions with their operands. -/
theorem load_printProgram
    (arity : BitVec 32 → Nat)
    (priority : BitVec 32)
    (instructions : List Instruction)
    (complete : ∀ instruction ∈ instructions, instruction.Complete arity)
    (countable : instructions.length < 2 ^ 32)
    (unassigned : Unassigned)
    (availPid : BitVec 32)
    (path : CString) :
    ∃ proc, load unassigned availPid (some (printProgram priority instructions)) path =
        .ok (proc, availPid + 1) ∧
      proc.pid = availPid ∧ proc.priority = priority ∧ proc.path = loadPath path ∧
      proc.pc = 0 ∧ proc.bp = pageSize ∧ proc.code.size.toNat = instructions.length ∧
      List.Forall₂ Lists proc.code.text instructions := by
  obtain ⟨size, text, loaded, length, lists⟩ :=
    load_of_complete priority complete countable unassigned availPid path
  exact ⟨_, loaded, rfl, rfl, rfl, rfl, rfl, length, lists⟩

/-- A program that asks for the list of the system calls. -/
def listsyscallProgram : List Instruction := [⟨.calc, []⟩, ⟨.syscall, [0]⟩]

example : printProgram 20 listsyscallProgram =
    ofChars ['2', '0', ' ', '2', '\n', 'c', 'a', 'l', 'c', '\n',
      's', 'y', 's', 'c', 'a', 'l', 'l', ' ', '0', '\n'] := by
  decide

theorem load_printProgram_listsyscall :
    ∃ proc, load ⟨0, 0, [], [], fun _ _ => 0⟩ 1 (some (printProgram 20 listsyscallProgram))
        [] = .ok (proc, 2) ∧
      proc.priority = 20 ∧ proc.code.size.toNat = 2 ∧
      List.Forall₂ Lists proc.code.text listsyscallProgram := by
  obtain ⟨proc, loaded, _, priority, _, _, _, size, lists⟩ :=
    load_printProgram (fun _ => 0) 20 listsyscallProgram (by decide) (by decide)
      ⟨0, 0, [], [], fun _ _ => 0⟩ 1 []
  exact ⟨proc, loaded, priority, size, lists⟩

end Loader
end Os
end Ossim
