import Ossim.Library.Stdio

/-!
# The program loader

`load` reads the opcodes of a program word by word, and the operands with one call of
`fscanf`, or of `fgets` and `sscanf`, for an instruction.  It checks that every opcode is
known and ignores how many values were converted, so an array or a field that is not
assigned keeps what the memory holds.  That content is a parameter here.
-/

namespace Ossim
namespace Os

open CString Stdio

/-- `sizeof(path)` of a pointer. -/
def sizeofPath : Nat := 8

/-- `load`: `snprintf(proc->path, 2 * sizeof(path) + 1, "%s", path)`, which keeps a
place for the terminating zero. -/
def loadPath (path : CString) : CString := path.take (2 * sizeofPath + 1 - 1)

namespace Loader

/-- `enum ins_opcode_t` -/
inductive Opcode where
  | calc
  | alloc
  | free
  | read
  | write
  | syscall
  deriving DecidableEq

/-- `struct inst_t`, with the arguments `arg_0` to `arg_3`. -/
structure Inst where
  opcode : Opcode
  arg : Fin 4 → BitVec 32

/-- `struct code_seg_t` -/
structure CodeSeg where
  text : List Inst
  size : BitVec 32

/-- The fields of `struct pcb_t` that `load` assigns. -/
structure Pcb where
  pid : BitVec 32
  priority : BitVec 32
  path : CString
  code : CodeSeg
  pc : BitVec 32
  bp : BitVec 32

/-- `PAGE_SIZE` of `common.h`. -/
def pageSize : BitVec 32 := 1 <<< 10

/-- `OPT_CALC` to `OPT_SYSCALL` -/
def Opcode.opt : Opcode → CString
  | .calc => ofChars ['c', 'a', 'l', 'c']
  | .alloc => ofChars ['a', 'l', 'l', 'o', 'c']
  | .free => ofChars ['f', 'r', 'e', 'e']
  | .read => ofChars ['r', 'e', 'a', 'd']
  | .write => ofChars ['w', 'r', 'i', 't', 'e']
  | .syscall => ofChars ['s', 'y', 's', 'c', 'a', 'l', 'l']

/-- `get_opcode`, which exits when the word is no opcode. -/
def getOpcode (opt : CString) : Option Opcode :=
  if strcmp opt Opcode.calc.opt = 0 then some .calc
  else if strcmp opt Opcode.alloc.opt = 0 then some .alloc
  else if strcmp opt Opcode.free.opt = 0 then some .free
  else if strcmp opt Opcode.read.opt = 0 then some .read
  else if strcmp opt Opcode.write.opt = 0 then some .write
  else if strcmp opt Opcode.syscall.opt = 0 then some .syscall
  else none

/-- What the memory holds before it is assigned: two fields, the two arrays on the stack,
and the arguments of each instruction. -/
structure Unassigned where
  priority : BitVec 32
  size : BitVec 32
  opcode : CString
  buf : CString
  arg : Nat → Fin 4 → BitVec 32

/-- `load` ends without a process: it exits, or a word overruns the array `opcode` and the
behaviour is undefined. -/
inductive Stop where
  | exit
  | overrun
  deriving DecidableEq

/-- `char opcode[10]` -/
def opcodeSize : Nat := 10

/-- `char buf[200]` -/
def bufSize : Nat := 200

/-- The two arrays, and the text that is left of the file. -/
structure Reader where
  opcode : CString
  buf : CString
  file : CString

/-- `fscanf(file, "%s", opcode)`.  At the end of the file the array is kept. -/
def scanOpcode (reader : Reader) : Except Stop Reader :=
  match scanString reader.file with
  | none => .ok { reader with file := [] }
  | some (word, rest) =>
      if word.length < opcodeSize then .ok { reader with opcode := word, file := rest }
      else .error .overrun

/-- The formats of `fscanf` for the header and for the operands. -/
def headerFormat : List Directive := [percentU, .white, percentU]

def allocFormat : List Directive := [percentU, .white, percentU, .white]

def freeFormat : List Directive := [percentU, .white]

def accessFormat : List Directive :=
  [percentU, .white, percentU, .white, percentU, .white]

/-- The format of `sscanf`. -/
def syscallFormat : List Directive := [percentD, percentD, percentD, percentD]

/-- A call of `fscanf`. -/
def Reader.scan (reader : Reader) (format : List Directive) : List (BitVec 32) × Reader :=
  ((scanf format reader.file).1, { reader with file := (scanf format reader.file).2 })

/-- A call of `fgets` and one of `sscanf` on the line. -/
def Reader.scanLine (reader : Reader) (format : List Directive) :
    List (BitVec 32) × Reader :=
  let (buf, rest) := fgets bufSize reader.buf reader.file
  ((scanf format buf).1, { reader with buf := buf, file := rest })

/-- The `switch` of `load`: the values that are stored in the arguments, from `arg_0` on. -/
def scanOperands (opcode : Opcode) (reader : Reader) : List (BitVec 32) × Reader :=
  match opcode with
  | .calc => ([], reader)
  | .alloc => reader.scan allocFormat
  | .free => reader.scan freeFormat
  | .read | .write => reader.scan accessFormat
  | .syscall => reader.scanLine syscallFormat

/-- One iteration of the loop. -/
def readInst (reader : Reader) :
    Except Stop ((Opcode × List (BitVec 32)) × Reader) := do
  let reader ← scanOpcode reader
  match getOpcode reader.opcode with
  | none => .error .exit
  | some opcode =>
      let (values, reader) := scanOperands opcode reader
      .ok ((opcode, values), reader)

/-- The arguments after the first ones are assigned. -/
def assign (values : List (BitVec 32)) (arg : Fin 4 → BitVec 32) (j : Fin 4) : BitVec 32 :=
  values[j.val]?.getD (arg j)

/-- The iterations from `i` on, so many of them. -/
def readText (arg : Nat → Fin 4 → BitVec 32) :
    Nat → Nat → Reader → Except Stop (List Inst)
  | 0, _, _ => .ok []
  | count + 1, i, reader => do
      let ((opcode, values), reader) ← readInst reader
      let text ← readText arg count (i + 1) reader
      .ok ({ opcode := opcode, arg := assign values (arg i) } :: text)

/-- `load`, with the counter `avail_pid` and the file that `fopen` returns. -/
def load (unassigned : Unassigned) (availPid : BitVec 32) (file : Option CString)
    (path : CString) : Except Stop (Pcb × BitVec 32) := do
  match file with
  | none => .error .exit
  | some file =>
      let (header, rest) := scanf headerFormat file
      let size := header[1]?.getD unassigned.size
      let reader : Reader := { opcode := unassigned.opcode, buf := unassigned.buf, file := rest }
      let text ← readText unassigned.arg size.toNat 0 reader
      let proc : Pcb := {
        pid := availPid
        priority := header[0]?.getD unassigned.priority
        path := loadPath path
        code := { text := text, size := size }
        pc := 0
        bp := pageSize }
      .ok (proc, availPid + 1)

end Loader
end Os
end Ossim
