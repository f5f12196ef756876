import Ossim.Library.CString
import Ossim.Memory.SymbolTable

/-!
# Reading the name of a process

The loop of `__sys_killall` that reads the name byte by byte from a region of the
caller and stores it in `proc_name[100]`.  It ends at a byte -1 only: neither the
length of the array nor the result of `libread` is looked at.  For an id that is
refused, `libread` converts a variable that was never assigned; `garbage` says what
it holds at each call.
-/

namespace Ossim
namespace Memory

open CInt CString Transition

variable {ι : Type} [DecidableEq ι]

/-- The byte that ends the name. -/
def nameEnd : Byte := BitVec.ofInt 8 (-1)

/-- The number of elements of `proc_name`. -/
def procNameSize : Nat := 100

/-- The loop of `__sys_killall` that reads the name, from the offset `i` on and for at
most `fuel` iterations: the stores to `proc_name` with their indices, and the memory
afterwards. -/
def readName (garbage : Nat → Byte) (caller : ι) (memrg : Nat) :
    Nat → Nat → Mem ι → Option (List (Nat × Byte) × Mem ι)
  | 0, _, _ => none
  | fuel + 1, i, mem => do
      let (_, mem, data) ← libread mem caller memrg i
      let data := data.getD (garbage i)
      if data = nameEnd then
        some ([(i, 0)], mem)
      else
        let (stores, mem) ← readName garbage caller memrg fuel (i + 1) mem
        some ((i, data) :: stores, mem)

/-- The loop ends, and stores to elements of `proc_name` only. -/
def NameBounded (garbage : Nat → Byte) (mem : Mem ι) (caller : ι) (memrg : Nat) : Prop :=
  ∃ fuel stores after, readName garbage caller memrg fuel 0 mem = some (stores, after) ∧
    ∀ store ∈ stores, store.1 < procNameSize

/-- The memory after the bytes of the region in front of an offset have been read. -/
def readUpTo (mem : Mem ι) (caller : ι) (memrg : Nat) : Nat → Option (Mem ι)
  | 0 => some mem
  | offset + 1 =>
      (readUpTo mem caller memrg offset).bind fun before =>
        (libread before caller memrg offset).map (·.2.1)

/-- The byte of the region at an offset, read after those in front of it. -/
def nameByte (garbage : Nat → Byte) (mem : Mem ι) (caller : ι) (memrg offset : Nat) :
    Option Byte :=
  (readUpTo mem caller memrg offset).bind fun before =>
    (libread before caller memrg offset).map fun read => read.2.2.getD (garbage offset)

/-- The region holds the string from the offset on, and then the byte -1. -/
def StoredName (garbage : Nat → Byte) (mem : Mem ι) (caller : ι) (memrg : Nat) :
    Nat → CString → Prop
  | offset, [] => nameByte garbage mem caller memrg offset = some nameEnd
  | offset, char :: rest =>
      char.val ≠ nameEnd ∧ nameByte garbage mem caller memrg offset = some char.val ∧
        StoredName garbage mem caller memrg (offset + 1) rest

instance decidableStoredName (garbage : Nat → Byte) (mem : Mem ι) (caller : ι) (memrg : Nat) :
    ∀ (offset : Nat) (string : CString),
      Decidable (StoredName garbage mem caller memrg offset string)
  | offset, [] =>
      inferInstanceAs (Decidable (nameByte garbage mem caller memrg offset = some nameEnd))
  | offset, char :: rest =>
      have : Decidable (StoredName garbage mem caller memrg (offset + 1) rest) :=
        decidableStoredName garbage mem caller memrg (offset + 1) rest
      inferInstanceAs (Decidable (char.val ≠ nameEnd ∧
        nameByte garbage mem caller memrg offset = some char.val ∧
          StoredName garbage mem caller memrg (offset + 1) rest))

variable {garbage : Nat → Byte} {mem before after : Mem ι} {caller : ι} {memrg offset : Nat}

theorem readUpTo_succ
    (reached : readUpTo mem caller memrg offset = some before) :
    readUpTo mem caller memrg (offset + 1) =
      (libread before caller memrg offset).map (·.2.1) := by
  rw [readUpTo, reached, Option.bind_some]

theorem nameByte_eq
    (reached : readUpTo mem caller memrg offset = some before) :
    nameByte garbage mem caller memrg offset =
      (libread before caller memrg offset).map fun read => read.2.2.getD (garbage offset) := by
  rw [nameByte, reached, Option.bind_some]

/-- Bytes in front of one that is read have been read. -/
theorem readUpTo_of_le
    {later : Nat}
    (ordered : offset ≤ later)
    (reached : readUpTo mem caller memrg later = some after) :
    ∃ before, readUpTo mem caller memrg offset = some before := by
  induction later generalizing after with
  | zero =>
      obtain rfl : offset = 0 := Nat.le_zero.mp ordered
      exact ⟨after, reached⟩
  | succ later inductionHypothesis =>
      rcases Nat.le_succ_iff.mp ordered with inFront | rfl
      · obtain ⟨middle, reached, _⟩ := Option.bind_eq_some_iff.mp reached
        exact inductionHypothesis inFront reached
      · exact ⟨after, reached⟩

/-- One iteration: the byte of the region at the offset is stored, and the loop goes on
behind it unless this byte ends the name. -/
theorem readName_succ
    (reached : readUpTo mem caller memrg offset = some before)
    (fuel : Nat) :
    readName garbage caller memrg (fuel + 1) offset before =
      (nameByte garbage mem caller memrg offset).bind fun data =>
        (readUpTo mem caller memrg (offset + 1)).bind fun after =>
          if data = nameEnd then
            some ([(offset, 0)], after)
          else
            (readName garbage caller memrg fuel (offset + 1) after).map fun rest =>
              ((offset, data) :: rest.1, rest.2) := by
  rw [readName, nameByte_eq reached, readUpTo_succ reached]
  cases read : libread before caller memrg offset with
  | none => rfl
  | some result =>
      obtain ⟨val, next, data⟩ := result
      simp only [Option.bind_eq_bind, Option.bind_some, Option.map_some]
      split
      · rfl
      · cases readName garbage caller memrg fuel (offset + 1) next <;> rfl

/-- If the loop ends, then at a byte -1, and it has stored at this offset. -/
theorem nameEnd_of_readName
    {fuel : Nat}
    {stores : List (Nat × Byte)}
    (reached : readUpTo mem caller memrg offset = some before)
    (ended : readName garbage caller memrg fuel offset before = some (stores, after)) :
    ∃ last, nameByte garbage mem caller memrg last = some nameEnd ∧ (last, 0) ∈ stores := by
  induction fuel generalizing offset before stores with
  | zero => cases ended
  | succ fuel inductionHypothesis =>
      rw [readName_succ reached] at ended
      obtain ⟨data, byte, ended⟩ := Option.bind_eq_some_iff.mp ended
      obtain ⟨next, reached', ended⟩ := Option.bind_eq_some_iff.mp ended
      split at ended
      · rename_i isEnd
        cases ended
        exact ⟨offset, by rw [byte, isEnd], List.mem_singleton.mpr rfl⟩
      · obtain ⟨⟨rest, final⟩, continued, same⟩ := Option.map_eq_some_iff.mp ended
        cases same
        obtain ⟨last, isEnd, stored⟩ := inductionHypothesis reached' continued
        exact ⟨last, isEnd, List.mem_cons_of_mem _ stored⟩

/-- The loop ends no later than at a byte -1. -/
theorem readName_of_nameEnd
    {fuel last : Nat}
    (reached : readUpTo mem caller memrg offset = some before)
    (isEnd : nameByte garbage mem caller memrg last = some nameEnd)
    (ordered : offset ≤ last)
    (enough : last < offset + fuel) :
    ∃ stores after, readName garbage caller memrg fuel offset before = some (stores, after) ∧
      ∀ store ∈ stores, store.1 ≤ last := by
  induction fuel generalizing offset before with
  | zero => omega
  | succ fuel inductionHypothesis =>
      -- the byte at the offset is read, since the later one is
      obtain ⟨atLast, reachedLast, read⟩ := Option.bind_eq_some_iff.mp isEnd
      obtain ⟨behind, reachedBehind⟩ :
          ∃ behind, readUpTo mem caller memrg (last + 1) = some behind := by
        obtain ⟨result, read, _⟩ := Option.map_eq_some_iff.mp read
        exact ⟨result.2.1, by rw [readUpTo_succ reachedLast, read]; rfl⟩
      obtain ⟨next, reached'⟩ :=
        readUpTo_of_le (Nat.succ_le_succ ordered) reachedBehind
      obtain ⟨data, byte⟩ : ∃ data, nameByte garbage mem caller memrg offset = some data := by
        have stepped := reached'
        rw [readUpTo_succ reached] at stepped
        obtain ⟨result, read, _⟩ := Option.map_eq_some_iff.mp stepped
        exact ⟨_, by rw [nameByte_eq reached, read]; rfl⟩
      rw [readName_succ reached, byte, reached', Option.bind_some, Option.bind_some]
      split
      · exact ⟨_, _, rfl, by simpa using ordered⟩
      · rename_i notEnd
        have different : offset ≠ last := by
          rintro rfl
          rw [isEnd] at byte
          exact notEnd (Option.some.inj byte).symm
        obtain ⟨stores, final, continued, bounded⟩ :=
          inductionHypothesis reached' (by omega) (by omega)
        refine ⟨(offset, data) :: stores, final, by rw [continued]; rfl, ?_⟩
        intro store member
        rcases List.mem_cons.mp member with rfl | later
        · exact ordered
        · exact bounded store later

/-- Reading the name is bounded if and only if reading the region from its start meets
a byte -1 at one of the first hundred offsets. -/
theorem nameBounded_iff_nameByte :
    NameBounded garbage mem caller memrg ↔
      ∃ offset, offset < procNameSize ∧
        nameByte garbage mem caller memrg offset = some nameEnd := by
  have start : readUpTo mem caller memrg 0 = some mem := rfl
  constructor
  · rintro ⟨fuel, stores, after, ended, bounded⟩
    obtain ⟨last, isEnd, stored⟩ := nameEnd_of_readName start ended
    exact ⟨last, bounded _ stored, isEnd⟩
  · rintro ⟨last, inArray, isEnd⟩
    obtain ⟨stores, after, ended, bounded⟩ : ∃ stores after,
        readName garbage caller memrg procNameSize 0 mem = some (stores, after) ∧
          ∀ store ∈ stores, store.1 ≤ last :=
      readName_of_nameEnd start isEnd (Nat.zero_le _) (by omega)
    exact ⟨procNameSize, stores, after, ended, fun store member =>
      Nat.lt_of_le_of_lt (bounded store member) inArray⟩

/-- A stored string of at most 99 characters becomes the contents of `proc_name`. -/
theorem readName_of_storedName
    {fuel : Nat}
    {string : CString}
    (reached : readUpTo mem caller memrg offset = some before)
    (stored : StoredName garbage mem caller memrg offset string)
    (enough : string.length < fuel) :
    ∃ stores after, readName garbage caller memrg fuel offset before = some (stores, after) ∧
      ofBytes (stores.map Prod.snd) = string := by
  induction string generalizing fuel offset before with
  | nil =>
      obtain ⟨fuel, rfl⟩ : ∃ rest, fuel = rest + 1 := ⟨fuel - 1, by omega⟩
      have byte : nameByte garbage mem caller memrg offset = some nameEnd := stored
      obtain ⟨result, read, isEnd⟩ := Option.map_eq_some_iff.mp
        ((nameByte_eq reached).symm.trans byte)
      refine ⟨[(offset, 0)], result.2.1, ?_, rfl⟩
      rw [readName_succ reached, byte, readUpTo_succ reached, read]
      simp
  | cons char rest inductionHypothesis =>
      obtain ⟨fuel, rfl⟩ : ∃ rest, fuel = rest + 1 := ⟨fuel - 1, by simp at enough; omega⟩
      obtain ⟨notEnd, byte, behind⟩ := stored
      obtain ⟨result, read, _⟩ := Option.map_eq_some_iff.mp
        ((nameByte_eq reached).symm.trans byte)
      have reached' : readUpTo mem caller memrg (offset + 1) = some result.2.1 := by
        rw [readUpTo_succ reached, read]
        rfl
      obtain ⟨stores, after, continued, string⟩ :=
        inductionHypothesis reached' behind (by simpa using enough)
      refine ⟨(offset, char.val) :: stores, after, ?_, ?_⟩
      · rw [readName_succ reached, byte, reached', Option.bind_some, Option.bind_some,
          if_neg notEnd, continued]
        rfl
      · rw [List.map_cons, ofBytes, dif_pos char.property, string]

/-! ## The bytes of a region -/

/-- For an id that is refused, every byte is that of the unassigned variable. -/
theorem nameByte_of_refused
    (refused : toInt memrg < 0 ∨ pagingMaxSymtblSz < toInt memrg)
    (offset : Nat) :
    nameByte garbage mem caller memrg offset = some (garbage offset) := by
  have read : ∀ offset, libread mem caller memrg offset = some (-1, mem, none) := by
    intro offset
    have unknown : getSymrgById (mem.mm caller) (toInt memrg) = some none := by
      rw [getSymrgById, if_pos refused]
    simp [libread, Memory.read, unknown]
  have unchanged : readUpTo mem caller memrg offset = some mem := by
    induction offset with
    | zero => rfl
    | succ offset inductionHypothesis =>
        rw [readUpTo_succ inductionHypothesis, read]
        rfl
  rw [nameByte_eq unchanged, read]
  rfl

/-- The address that is read at an offset of a region. -/
def nameAddr (mem : Mem ι) (caller : ι) (index : Fin 30) (offset : Nat) : Int :=
  accessAddr ((mem.mm caller).symrgtbl index) (toInt offset)

/-- While the pages of a region are present, its bytes are those of the RAM. -/
theorem nameByte_of_present
    {index : Fin 30}
    (slot : toInt memrg = index.val)
    (random : mem.mram.rdmflg = true)
    (present : ∀ earlier, earlier ≤ offset →
      pagingPagePresent ((mem.mm caller).pgd (pagingPgn (nameAddr mem caller index earlier))) =
          true ∧
        mem.cell caller (nameAddr mem caller index earlier) < mem.mram.maxsz) :
    nameByte garbage mem caller memrg offset =
      some (mem.mram.storage (mem.cell caller (nameAddr mem caller index offset))) := by
  have read : ∀ earlier, earlier ≤ offset → libread mem caller memrg earlier =
      some ((mem.mram.storage (mem.cell caller (nameAddr mem caller index earlier))).toInt, mem,
        some (mem.mram.storage (mem.cell caller (nameAddr mem caller index earlier)))) := by
    intro earlier ordered
    obtain ⟨inRam, inRange⟩ := present earlier ordered
    exact libread_of_pgGetval slot (pgGetval_of_present inRam
      (memphyRead_eq_some_iff.mpr ⟨random, inRange, rfl⟩))
  have unchanged : ∀ earlier, earlier ≤ offset →
      readUpTo mem caller memrg earlier = some mem := by
    intro earlier ordered
    induction earlier with
    | zero => rfl
    | succ earlier inductionHypothesis =>
        rw [readUpTo_succ (inductionHypothesis (by omega)), read earlier (by omega)]
        rfl
  rw [nameByte_eq (unchanged offset le_rfl), read offset le_rfl]
  rfl

/-- The pages of the first hundred bytes of a region are present, and the bytes are in
the RAM. -/
def NamePresent (mem : Mem ι) (caller : ι) (index : Fin 30) : Prop :=
  ∀ offset, offset < procNameSize →
    pagingPagePresent ((mem.mm caller).pgd (pagingPgn (nameAddr mem caller index offset))) =
        true ∧
      mem.cell caller (nameAddr mem caller index offset) < mem.mram.maxsz

/-- Reading the name is bounded if and only if a byte -1 is met at one of the first
hundred offsets: of the bytes that are read in general, of the values of the unassigned
variable for an id that is refused, and of the bytes in the RAM while the pages of the
region are present. -/
theorem nameBounded_iff
    (garbage : Nat → Byte)
    (mem : Mem ι)
    (caller : ι)
    (memrg : Nat) :
    (NameBounded garbage mem caller memrg ↔
      ∃ offset, offset < procNameSize ∧
        nameByte garbage mem caller memrg offset = some nameEnd) ∧
    (toInt memrg < 0 ∨ pagingMaxSymtblSz < toInt memrg →
      (NameBounded garbage mem caller memrg ↔
        ∃ offset, offset < procNameSize ∧ garbage offset = nameEnd)) ∧
    ∀ index : Fin 30, toInt memrg = index.val → mem.mram.rdmflg = true →
      NamePresent mem caller index →
      (NameBounded garbage mem caller memrg ↔
        ∃ offset, offset < procNameSize ∧
          mem.mram.storage (mem.cell caller (nameAddr mem caller index offset)) = nameEnd) := by
  refine ⟨nameBounded_iff_nameByte, ?_, ?_⟩
  · intro refused
    rw [nameBounded_iff_nameByte]
    simp only [nameByte_of_refused refused, Option.some.injEq]
  · intro index slot random present
    rw [nameBounded_iff_nameByte]
    apply exists_congr
    intro offset
    apply and_congr_right
    intro inArray
    rw [nameByte_of_present slot random fun earlier ordered =>
      present earlier (Nat.lt_of_le_of_lt ordered inArray), Option.some.injEq]

/-- For the id 31 the loop is bounded if the variable happens to hold -1, and not if it
holds 0. -/
theorem nameBounded_iff_refusedId :
    NameBounded (fun _ => nameEnd) twoFrames 0 31 ∧
      ¬ NameBounded (fun _ => 0) twoFrames 0 31 := by
  constructor
  · exact ((nameBounded_iff _ twoFrames 0 31).2.1 (by decide)).mpr ⟨0, by decide, rfl⟩
  · intro bounded
    obtain ⟨_, _, isEnd⟩ := ((nameBounded_iff _ twoFrames 0 31).2.1 (by decide)).mp bounded
    exact absurd isEnd (by decide)

/-- The id 0. -/
def firstRegion : Fin 30 := ⟨0, by decide⟩

/-- A fresh region of 300 zeros has no byte -1 among its first hundred. -/
theorem name_of_zeros :
    ∃ mem, replay step twoFrames [⟨0, .alloc 300 0⟩] = some mem ∧
      ∀ garbage, ¬ NameBounded garbage mem 0 0 := by
  obtain ⟨mem, reaches, random, zeros⟩ :
      ∃ mem, replay step twoFrames [⟨0, .alloc 300 0⟩] = some mem ∧
        mem.mram.rdmflg = true ∧ ∀ offset, offset < procNameSize →
          (pagingPagePresent
              ((mem.mm 0).pgd (pagingPgn (nameAddr mem 0 firstRegion offset))) = true ∧
            mem.cell 0 (nameAddr mem 0 firstRegion offset) < mem.mram.maxsz) ∧
          mem.mram.storage (mem.cell 0 (nameAddr mem 0 firstRegion offset)) = 0 :=
    exists_of_evaluated (by decide +kernel)
  refine ⟨mem, reaches, fun garbage bounded => ?_⟩
  obtain ⟨offset, inArray, isEnd⟩ := nameBounded_iff_nameByte.mp bounded
  have slot : toInt (0 : Nat) = (firstRegion.val : Int) := by decide
  have byte : nameByte garbage mem 0 0 offset = _ :=
    nameByte_of_present slot random fun earlier ordered =>
      (zeros earlier (Nat.lt_of_le_of_lt ordered inArray)).1
  rw [byte, (zeros offset inArray).2, Option.some.injEq] at isEnd
  exact absurd isEnd (by decide)

end Memory
end Ossim
