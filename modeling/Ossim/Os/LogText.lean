import Ossim.Library.Print
import Ossim.Os.Chart

/-!
# The text of the log

The lines as they are printed, and a reader that takes them from the text again.  A line
starts with words that tell its kind, a number ends where its digits end, and the path of
a program is a word.
-/

namespace Ossim
namespace Os

open Stdio CString

namespace Line

def timeSlotText : CString := ofChars ['T', 'i', 'm', 'e', ' ', 's', 'l', 'o', 't', ' ']

def ldRoutineText : CString :=
  ofChars ['l', 'd', '_', 'r', 'o', 'u', 't', 'i', 'n', 'e', '\n']

def loadedText : CString :=
  ofChars ['\t', 'L', 'o', 'a', 'd', 'e', 'd', ' ', 'a', ' ', 'p', 'r', 'o', 'c', 'e', 's', 's',
    ' ', 'a', 't', ' ']

def commaText : CString := ofChars [',']

def pidText : CString := ofChars [' ', 'P', 'I', 'D', ':', ' ']

def prioText : CString := ofChars [' ', 'P', 'R', 'I', 'O', ':', ' ']

def cpuText : CString := ofChars ['\t', 'C', 'P', 'U', ' ']

def processedText : CString :=
  ofChars [':', ' ', 'P', 'r', 'o', 'c', 'e', 's', 's', 'e', 'd', ' ']

def finishedText : CString :=
  ofChars [' ', 'h', 'a', 's', ' ', 'f', 'i', 'n', 'i', 's', 'h', 'e', 'd', '\n']

def putText : CString :=
  ofChars [':', ' ', 'P', 'u', 't', ' ', 'p', 'r', 'o', 'c', 'e', 's', 's', ' ']

def runQueueText : CString :=
  ofChars [' ', 't', 'o', ' ', 'r', 'u', 'n', ' ', 'q', 'u', 'e', 'u', 'e', '\n']

def dispatchedText : CString :=
  ofChars [':', ' ', 'D', 'i', 's', 'p', 'a', 't', 'c', 'h', 'e', 'd', ' ',
    'p', 'r', 'o', 'c', 'e', 's', 's', ' ']

def stoppedText : CString := ofChars [' ', 's', 't', 'o', 'p', 'p', 'e', 'd', '\n']

/-- `proc->pid`: `load` numbers the processes from 1 on. -/
def pid (proc : Nat) : Nat := proc + 1

theorem pid_sub_one (proc : Nat) : pid proc - 1 = proc := rfl

/-- What a CPU prints behind its number. -/
def cpuLine (id : Fin n) (text : CString) : CString :=
  cpuText ++ printNat id ++ text

/-- The text of a line. -/
def text (path : Nat → CString) (prio : Nat → Nat) : Line n → CString
  | .timeSlot time => timeSlotText ++ printPadded 3 time ++ [newline]
  | .ldRoutine => ldRoutineText
  | .loaded proc =>
      loadedText ++ path proc ++ commaText ++ pidText ++ printNat (pid proc) ++ prioText ++
        printNat (prio proc) ++ [newline]
  | .finished id proc =>
      cpuLine id (processedText ++ printPadded 2 (pid proc) ++ finishedText)
  | .put id proc => cpuLine id (putText ++ printPadded 2 (pid proc) ++ runQueueText)
  | .dispatched id proc => cpuLine id (dispatchedText ++ printPadded 2 (pid proc) ++ [newline])
  | .stopped id => cpuLine id stoppedText

end Line

/-- The text of a log. -/
def printLog (path : Nat → CString) (prio : Nat → Nat) (lines : List (Line n)) : CString :=
  lines.flatMap (Line.text path prio)

/-! ## Reading the text -/

namespace Line

/-- A process and the words behind it. -/
def readProc (ending : CString) (line : Nat → Line n) (text : CString) :
    Option (Line n × CString) := do
  let (pid, rest) ← readNat text
  let rest ← rest.dropPrefix? ending
  some (line (pid - 1), rest)

/-- The line of a loaded process.  Its path is skipped. -/
def readLoaded (text : CString) : Option (Line n × CString) := do
  let rest ← (text.dropWhile (!isSpace ·)).dropPrefix? pidText
  let (pid, rest) ← readNat rest
  let rest ← rest.dropPrefix? prioText
  let (_, rest) ← readNat rest
  let rest ← rest.dropPrefix? [newline]
  some (.loaded (pid - 1), rest)

/-- What a CPU prints behind its number. -/
def readCpu (id : Fin n) (text : CString) : Option (Line n × CString) :=
  match text.dropPrefix? processedText, text.dropPrefix? putText,
    text.dropPrefix? dispatchedText with
  | some rest, _, _ => readProc finishedText (.finished id) rest
  | none, some rest, _ => readProc runQueueText (.put id) rest
  | none, none, some rest => readProc [newline] (.dispatched id) rest
  | none, none, none => (text.dropPrefix? stoppedText).map fun rest => (.stopped id, rest)

/-- The next line and the text behind it. -/
def read (n : Nat) (text : CString) : Option (Line n × CString) :=
  match text.dropPrefix? timeSlotText, text.dropPrefix? ldRoutineText,
    text.dropPrefix? loadedText with
  | some rest, _, _ => do
      let (time, rest) ← readNat rest
      let rest ← rest.dropPrefix? [newline]
      some (.timeSlot time, rest)
  | none, some rest, _ => some (.ldRoutine, rest)
  | none, none, some rest => readLoaded rest
  | none, none, none => do
      let rest ← text.dropPrefix? cpuText
      let (id, rest) ← readNat rest
      if isCpu : id < n then readCpu ⟨id, isCpu⟩ rest else none

end Line

/-- At most so many lines. -/
def readLines (n : Nat) : Nat → CString → Option (List (Line n))
  | _, [] => some []
  | 0, _ :: _ => none
  | count + 1, char :: text => do
      let (line, rest) ← Line.read n (char :: text)
      let lines ← readLines n count rest
      some (line :: lines)

/-- Read a log: no line is empty. -/
def readLog (n : Nat) (text : CString) : Option (List (Line n)) :=
  readLines n text.length text

/-! ## Round trip -/

namespace Line

theorem dropPrefix?_append (words rest : CString) :
    (words ++ rest).dropPrefix? words = some rest :=
  List.dropPrefix?_append_of_beq rest (beq_self_eq_true words)

/-- A process is read as it was printed. -/
theorem readProc_printPadded
    (line : Nat → Line n)
    (width proc : Nat)
    {ending : CString}
    (ends : ∀ rest : CString, ∀ char, (ending ++ rest).head? = some char →
      isDigit char = false)
    (rest : CString) :
    readProc ending line (printPadded width (pid proc) ++ (ending ++ rest)) =
      some (line proc, rest) := by
  simp only [readProc, readNat_printPadded width (pid proc) (ends rest),
    dropPrefix?_append, Option.bind_eq_bind, Option.bind_some, pid_sub_one]

/-- So is the line of a loaded process. -/
theorem readLoaded_text
    {path : CString}
    (word : ∀ char ∈ path, isSpace char = false)
    (proc prio : Nat)
    (rest : CString) :
    readLoaded (n := n)
      (path ++ (commaText ++ (pidText ++ (printNat (pid proc) ++ (prioText ++
        (printNat prio ++ ([newline] ++ rest))))))) =
      some (.loaded proc, rest) := by
  have letters : ∀ char ∈ path ++ commaText, (!isSpace char) = true := by
    intro char member
    rcases List.mem_append.mp member with inPath | isComma
    · simp [word char inPath]
    · have isWord : IsWord commaText := by decide
      simp [isWord.2 char isComma]
  have skipped : ∀ behind : CString,
      (path ++ (commaText ++ (pidText ++ behind))).dropWhile (!isSpace ·) = pidText ++ behind := by
    intro behind
    rw [← List.append_assoc, List.dropWhile_append_of_pos letters]
    rfl
  have number : ∀ behind : CString, readNat (printNat (pid proc) ++ (prioText ++ behind)) =
      some (pid proc, prioText ++ behind) := fun behind =>
    readNat_printNat _ fun char head => by cases head; rfl
  have level : readNat (printNat prio ++ ([newline] ++ rest)) = some (prio, [newline] ++ rest) :=
    readNat_printNat _ fun char head => by cases head; rfl
  simp only [readLoaded, skipped, number, level, dropPrefix?_append, Option.bind_eq_bind,
    Option.bind_some, pid_sub_one]

/-- What a CPU prints behind its number is told apart by its first words. -/
theorem readCpu_processed (id : Fin n) (rest : CString) :
    readCpu id (processedText ++ rest) = readProc finishedText (.finished id) rest := by
  rw [readCpu, dropPrefix?_append]

theorem readCpu_put (id : Fin n) (rest : CString) :
    readCpu id (putText ++ rest) = readProc runQueueText (.put id) rest := by
  have other : (putText ++ rest).dropPrefix? processedText = none := rfl
  rw [readCpu, other, dropPrefix?_append]

theorem readCpu_dispatched (id : Fin n) (rest : CString) :
    readCpu id (dispatchedText ++ rest) = readProc [newline] (.dispatched id) rest := by
  have notProcessed : (dispatchedText ++ rest).dropPrefix? processedText = none := rfl
  have notPut : (dispatchedText ++ rest).dropPrefix? putText = none := rfl
  rw [readCpu, notProcessed, notPut, dropPrefix?_append]

theorem readCpu_stopped (id : Fin n) (rest : CString) :
    readCpu id (stoppedText ++ rest) = some (.stopped id, rest) := by
  have notProcessed : (stoppedText ++ rest).dropPrefix? processedText = none := rfl
  have notPut : (stoppedText ++ rest).dropPrefix? putText = none := rfl
  have notDispatched : (stoppedText ++ rest).dropPrefix? dispatchedText = none := rfl
  rw [readCpu, notProcessed, notPut, notDispatched, dropPrefix?_append]
  rfl

/-- The line of a CPU. -/
theorem read_cpuLine
    (id : Fin n)
    (words rest : CString)
    (ends : ∀ char, (words ++ rest).head? = some char → isDigit char = false) :
    read n (cpuLine id words ++ rest) = readCpu id (words ++ rest) := by
  have number := readNat_printNat id.val ends
  have notTimeSlot : ∀ behind : CString, (cpuText ++ behind).dropPrefix? timeSlotText = none :=
    fun _ => rfl
  have notLdRoutine : ∀ behind : CString,
      (cpuText ++ behind).dropPrefix? ldRoutineText = none := fun _ => rfl
  have notLoaded : ∀ behind : CString, (cpuText ++ behind).dropPrefix? loadedText = none :=
    fun _ => rfl
  simp only [read, cpuLine, List.append_assoc, notTimeSlot, notLdRoutine, notLoaded,
    dropPrefix?_append, number, Option.bind_eq_bind, Option.bind_some, id.isLt, dif_pos,
    Fin.eta]

/-- Every line is read as it was printed. -/
theorem read_text
    {path : Nat → CString}
    (words : ∀ proc, ∀ char ∈ path proc, isSpace char = false)
    (prio : Nat → Nat)
    (line : Line n)
    (rest : CString) :
    read n (line.text path prio ++ rest) = some (line, rest) := by
  cases line with
  | timeSlot time =>
      have number : readNat (printPadded 3 time ++ ([newline] ++ rest)) =
          some (time, [newline] ++ rest) :=
        readNat_printPadded 3 time fun char head => by cases head; rfl
      simp only [read, text, List.append_assoc, dropPrefix?_append, number,
        Option.bind_eq_bind, Option.bind_some]
  | ldRoutine =>
      have notTimeSlot : (ldRoutineText ++ rest).dropPrefix? timeSlotText = none := rfl
      simp only [read, text, notTimeSlot, dropPrefix?_append]
  | loaded proc =>
      have notTimeSlot : ∀ behind : CString,
          (loadedText ++ behind).dropPrefix? timeSlotText = none := fun _ => rfl
      have notLdRoutine : ∀ behind : CString,
          (loadedText ++ behind).dropPrefix? ldRoutineText = none := fun _ => rfl
      simp only [read, text, List.append_assoc, notTimeSlot, notLdRoutine, dropPrefix?_append]
      exact readLoaded_text (words proc) proc (prio proc) rest
  | finished id proc =>
      rw [text, read_cpuLine id _ rest fun char head => by cases head; rfl]
      simp only [List.append_assoc, readCpu_processed]
      exact readProc_printPadded _ 2 proc (fun rest char head => by cases head; rfl) rest
  | put id proc =>
      rw [text, read_cpuLine id _ rest fun char head => by cases head; rfl]
      simp only [List.append_assoc, readCpu_put]
      exact readProc_printPadded _ 2 proc (fun rest char head => by cases head; rfl) rest
  | dispatched id proc =>
      rw [text, read_cpuLine id _ rest fun char head => by cases head; rfl]
      simp only [List.append_assoc, readCpu_dispatched]
      exact readProc_printPadded _ 2 proc (fun rest char head => by cases head; rfl) rest
  | stopped id =>
      rw [text, read_cpuLine id _ rest fun char head => by cases head; rfl]
      exact readCpu_stopped id rest

/-- No line is empty. -/
theorem text_ne_nil
    (path : Nat → CString)
    (prio : Nat → Nat)
    (line : Line n) :
    line.text path prio ≠ [] := by
  cases line <;> exact nofun

end Line

theorem readLines_printLog
    {path : Nat → CString}
    (words : ∀ proc, ∀ char ∈ path proc, isSpace char = false)
    (prio : Nat → Nat)
    (lines : List (Line n))
    {count : Nat}
    (enough : lines.length ≤ count) :
    readLines n count (printLog path prio lines) = some lines := by
  induction lines generalizing count with
  | nil => cases count <;> rfl
  | cons line lines inductionHypothesis =>
      cases count with
      | zero => cases enough
      | succ count =>
          have first := Line.read_text words prio line (printLog path prio lines)
          have others := inductionHypothesis (Nat.le_of_succ_le_succ enough)
          have split : printLog path prio (line :: lines) =
              line.text path prio ++ printLog path prio lines := rfl
          rw [split]
          cases whole : line.text path prio ++ printLog path prio lines with
          | nil => exact absurd (List.append_eq_nil_iff.mp whole).1 (line.text_ne_nil path prio)
          | cons char text =>
              rw [whole] at first
              simp only [readLines, first, others, Option.bind_eq_bind, Option.bind_some]

/-- A log has at least as many characters as lines. -/
theorem length_le_printLog
    (path : Nat → CString)
    (prio : Nat → Nat)
    (lines : List (Line n)) :
    lines.length ≤ (printLog path prio lines).length := by
  induction lines with
  | nil => exact Nat.le_refl 0
  | cons line lines inductionHypothesis =>
      have first := List.length_pos_of_ne_nil (line.text_ne_nil path prio)
      rw [printLog, List.flatMap_cons, List.length_append, List.length_cons]
      rw [printLog] at inductionHypothesis
      omega

/-- The paths of the programs in `input/sched_0`, behind the directory of the programs. -/
def sched0Path (proc : Nat) : CString :=
  ofChars ['i', 'n', 'p', 'u', 't', '/', 'p', 'r', 'o', 'c', '/'] ++
    if proc = 0 then ofChars ['s', '0'] else ofChars ['s', '1']

/-- Three lines of `output/sched_0.output`. -/
example :
    printLog sched0Path sched0.prio
        [.timeSlot 4, .loaded 1, .put sched0Cpu 0] =
      ofChars
        ['T', 'i', 'm', 'e', ' ', 's', 'l', 'o', 't', ' ', ' ', ' ', '4', '\n',
          '\t', 'L', 'o', 'a', 'd', 'e', 'd', ' ', 'a', ' ', 'p', 'r', 'o', 'c', 'e', 's', 's',
          ' ', 'a', 't', ' ', 'i', 'n', 'p', 'u', 't', '/', 'p', 'r', 'o', 'c', '/', 's', '1',
          ',', ' ', 'P', 'I', 'D', ':', ' ', '2', ' ', 'P', 'R', 'I', 'O', ':', ' ', '0', '\n',
          '\t', 'C', 'P', 'U', ' ', '0', ':', ' ', 'P', 'u', 't', ' ',
          'p', 'r', 'o', 'c', 'e', 's', 's', ' ', ' ', '1', ' ', 't', 'o', ' ', 'r', 'u', 'n', ' ',
          'q', 'u', 'e', 'u', 'e', '\n'] := by
  decide +kernel

theorem isWord_sched0Path (proc : Nat) : IsWord (sched0Path proc) := by
  by_cases first : proc = 0
  · simp only [sched0Path, first, if_true]
    decide
  · simp only [sched0Path, first, if_false]
    decide

end Os
end Ossim
