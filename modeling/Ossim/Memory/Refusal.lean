import Ossim.Memory.SymbolTable

/-!
# Accesses to regions that are not allocated

`READ` and `WRITE` compute an address from the entry of the id and the offset.  Whether
the id holds a region and how long this is does not matter.  `libwrite` returns 0 for
every id of the table, and `libread` the byte that it has found.
-/

namespace Ossim
namespace Memory

open CInt Transition

namespace Refusal

variable {ι : Type} [DecidableEq ι]

/-- The memory, and the sizes with which the live regions of the processes were
allocated. -/
structure State (ι : Type) where
  mem : Mem ι
  sizes : ι → Fin 30 → Option Nat

/-- What a call makes of the live regions. -/
def record (sizes : ι → Fin 30 → Option Nat) (event : CallEvent ι) : ι → Fin 30 → Option Nat :=
  match event.call with
  | .inst (.alloc size regIndex) =>
      (symrgIndex (toInt regIndex)).elim sizes fun index =>
        Function.update sizes event.proc
          (Function.update (sizes event.proc) index (some size))
  | .inst (.free regIndex) =>
      (symrgIndex (toInt regIndex)).elim sizes fun index =>
        Function.update sizes event.proc (Function.update (sizes event.proc) index none)
  | _ => sizes

/-- One call. -/
def step (state : State ι) (event : CallEvent ι) : Option (State ι) :=
  (callStep state.mem event).map fun mem => ⟨mem, record state.sizes event⟩

/-- The id holds no live region, or one that ends before the offset. -/
def Invalid (state : State ι) (proc : ι) (index : Fin 30) (offset : Nat) : Prop :=
  ∀ size ∈ state.sizes proc index, size ≤ offset

/-- The page table, the page list and the symbol table of the process and the contents
of the devices are as before. -/
structure Untouched (mem : Mem ι) (proc : ι) (mem' : Mem ι) : Prop where
  pgd : (mem'.mm proc).pgd = (mem.mm proc).pgd
  fifoPgn : (mem'.mm proc).fifoPgn = (mem.mm proc).fifoPgn
  symrgtbl : (mem'.mm proc).symrgtbl = (mem.mm proc).symrgtbl
  mram : mem'.mram.storage = mem.mram.storage
  mswp : ∀ device, (mem'.mswp device).storage = (mem.mswp device).storage

/-- `libread` returns -1 and touches nothing. -/
def RefusesRead (mem : Mem ι) (proc : ι) (index : Fin 30) (offset : Nat) : Prop :=
  ∃ mem' data, libread mem proc index.val offset = some (-1, mem', data) ∧
    Untouched mem proc mem'

/-- `libwrite` returns -1 and touches nothing. -/
def RefusesWrite (mem : Mem ι) (proc : ι) (index : Fin 30) (offset : Nat) (data : Byte) : Prop :=
  ∃ mem', libwrite mem proc data index.val offset = some (-1, mem') ∧ Untouched mem proc mem'

variable {mem mem' : Mem ι} {proc : ι} {index : Fin 30} {offset : Nat} {data : Byte}

/-- The address of an access. -/
def address (mem : Mem ι) (proc : ι) (index : Fin 30) (offset : Nat) : Int :=
  accessAddr ((mem.mm proc).symrgtbl index) (toInt offset)

/-- `libwrite` does not fail for an id of the table. -/
theorem libwrite_returns
    {rc : Int}
    (written : libwrite mem proc data index.val offset = some (rc, mem')) :
    rc = 0 := by
  have inTable := index.isLt
  have looked : getSymrgById (mem.mm proc) (toInt index.val) =
      some (some ((mem.mm proc).symrgtbl index)) := by
    have valid : ¬ (toInt index.val < 0 ∨ toInt index.val > pagingMaxSymtblSz) := by
      rw [SymbolTable.toInt_index, pagingMaxSymtblSz]
      omega
    rw [getSymrgById, if_neg valid, symrgIndex_eq_some_iff.mpr (SymbolTable.toInt_index index)]
  simp only [libwrite, write, looked, Option.bind_eq_bind, Option.bind_some,
    Option.bind_eq_some_iff, Option.some.injEq, Prod.mk.injEq] at written
  obtain ⟨_, _, rfl, _⟩ := written
  rfl

/-- `libread` refuses an access exactly if the page is present and the byte is the one
that reads as -1. -/
theorem refusesRead_iff :
    RefusesRead mem proc index offset ↔
      pagingPagePresent ((mem.mm proc).pgd (pagingPgn (address mem proc index offset))) = true ∧
        memphyRead mem.mram (mem.cell proc (address mem proc index offset)) =
          some (BitVec.ofInt 8 (-1)) := by
  constructor
  · rintro ⟨mem', data, accessed, untouched⟩
    rcases read_cases accessed with ⟨invalid, _⟩ | ⟨other, slot, code, byte, got, val, _⟩
    · have inTable := index.isLt
      rw [SymbolTable.toInt_index] at invalid
      omega
    · rw [SymbolTable.toInt_index] at slot
      obtain rfl : index = other := Fin.ext (by omega)
      have present : pagingPagePresent
          ((mem.mm proc).pgd (pagingPgn (address mem proc index offset))) = true := by
        obtain ⟨fpn, _, page, _⟩ := pgGetval_cases got
        rcases (pgGetpage_cases page).2 with ⟨present, _⟩ | ⟨absent, _, pageIn, _⟩
        · exact present
        · have online := (onlineFrame_eq_some_iff.mp pageIn.online).1
          rw [untouched.pgd, absent] at online
          cases online
      obtain ⟨_, stored⟩ := cell_of_pgGetval present got
      refine ⟨present, ?_⟩
      rw [show byte = BitVec.ofInt 8 (-1) from BitVec.eq_of_toInt_eq (by rw [← val]; decide)]
        at stored
      exact stored
  · rintro ⟨present, stored⟩
    have accessed := libread_of_pgGetval (SymbolTable.toInt_index index)
      (pgGetval_of_present present stored)
    exact ⟨mem, _, accessed, ⟨rfl, rfl, rfl, rfl, fun _ => rfl⟩⟩

/-- No access to an id of the table is refused by both `libread` and `libwrite`.
`libwrite` refuses none, and `libread` takes the byte -1 of a present page for a
refusal. -/
theorem never_refused
    (mem : Mem ι)
    (proc : ι)
    (index : Fin 30)
    (offset : Nat) :
    (∀ data, ¬ (RefusesRead mem proc index offset ∧ RefusesWrite mem proc index offset data)) ∧
      (∀ data, ¬ RefusesWrite mem proc index offset data) ∧
      (RefusesRead mem proc index offset ↔
        pagingPagePresent ((mem.mm proc).pgd (pagingPgn (address mem proc index offset))) = true ∧
          memphyRead mem.mram (mem.cell proc (address mem proc index offset)) =
            some (BitVec.ofInt 8 (-1))) := by
  have accepts : ∀ data, ¬ RefusesWrite mem proc index offset data := by
    rintro data ⟨mem', written, _⟩
    exact absurd (libwrite_returns written) (by decide)
  exact ⟨fun data refused => accepts data refused.2, accepts, refusesRead_iff⟩

instance decidableInvalid (state : State ι) (proc : ι) (index : Fin 30) (offset : Nat) :
    Decidable (Invalid state proc index offset) :=
  inferInstanceAs (Decidable (∀ size ∈ state.sizes proc index, size ≤ offset))

/-- After an `ALLOC` of 300 bytes, a `WRITE` to the region 3, which was never allocated,
returns 0 and overwrites a byte of the region 0; so does a `WRITE` behind region 0. -/
theorem invalid_accepted :
    ∃ state, replay step ⟨twoFrames, fun _ _ => none⟩ [⟨0, .inst (.alloc 300 0)⟩] = some state ∧
      Invalid state 0 3 20 ∧ Invalid state 0 0 400 ∧
      (∃ mem', libwrite state.mem 0 102 3 20 = some (0, mem') ∧
        state.mem.mram.storage 276 = 0 ∧ mem'.mram.storage 276 = 102) ∧
      ¬ (RefusesRead state.mem 0 3 20 ∧ RefusesWrite state.mem 0 3 20 102) ∧
        ¬ (RefusesRead state.mem 0 0 400 ∧ RefusesWrite state.mem 0 0 400 102) := by
  obtain ⟨state, reaches, never, behind, evaluated⟩ := exists_of_evaluated
    (show (replay step ⟨twoFrames, fun _ _ => none⟩ [⟨0, .inst (.alloc 300 0)⟩]).map
      (fun state => decide (Invalid state 0 3 20 ∧ Invalid state 0 0 400 ∧
        (libwrite state.mem 0 102 3 20).map (fun result =>
          decide (result.1 = 0 ∧ state.mem.mram.storage 276 = 0 ∧
            result.2.mram.storage 276 = 102)) = some true)) = some true by decide +kernel)
  obtain ⟨⟨rc, mem'⟩, written, evaluated⟩ := Option.map_eq_some_iff.mp evaluated
  obtain ⟨rfl, old, new⟩ := of_decide_eq_true evaluated
  refine ⟨state, reaches, never, behind, ⟨mem', written, old, new⟩, ?_, ?_⟩
  · rintro ⟨_, _, refused, _⟩
    exact absurd (libwrite_returns refused) (by decide)
  · rintro ⟨_, _, refused, _⟩
    exact absurd (libwrite_returns refused) (by decide)

end Refusal

end Memory
end Ossim
