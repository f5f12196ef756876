import Ossim.Memory.Ownership

/-!
# What a process reads

A byte of a present page is read from the RAM without changing anything.  Most
operations of a process leave the contents of the RAM and the address spaces of
the other processes alone; `SameRam` says so.
-/

namespace Ossim
namespace Memory

open CInt

variable {ι : Type} {mem mem' : Mem ι} {caller : ι}

/-- The cell that an address of a present page is decoded to. -/
def Mem.cell (mem : Mem ι) (proc : ι) (addr : Int) : Nat :=
  pagingPhyaddr (pagingFpn ((mem.mm proc).pgd (pagingPgn addr))) (pagingOffst addr)

/-- The page of an access to a region lies in the area. -/
def AccessInArea (mm : Mm) (rgid offset : Nat) : Prop :=
  ∀ index ∈ symrgIndex (toInt rgid),
    (pagingPgn (accessAddr (mm.symrgtbl index) (toInt offset))).val * 256 < mm.mmap.vmEnd

instance decidableAccessInArea (mm : Mm) (rgid offset : Nat) :
    Decidable (AccessInArea mm rgid offset) :=
  inferInstanceAs (Decidable (∀ index ∈ symrgIndex (toInt rgid), _ < _))

section Reading

variable [DecidableEq ι]

theorem pgGetpage_of_present
    {pgn : Pgn}
    (present : pagingPagePresent ((mem.mm caller).pgd pgn) = true) :
    pgGetpage mem caller pgn =
      some (0, mem, some (pagingFpn ((mem.mm caller).pgd pgn))) := by
  simp [pgGetpage, present]

/-- Reading a present page reads the cell. -/
theorem pgGetval_of_present
    {addr : Int}
    {byte : Byte}
    (present : pagingPagePresent ((mem.mm caller).pgd (pagingPgn addr)) = true)
    (stored : memphyRead mem.mram (mem.cell caller addr) = some byte) :
    pgGetval mem caller addr = some (0, mem, some byte) := by
  unfold Mem.cell at stored
  simp [pgGetval, pgGetpage_of_present present, sysMemmap, stored]

/-- What a read of a present page returns is in the cell. -/
theorem cell_of_pgGetval
    {addr rc : Int}
    {byte : Byte}
    (present : pagingPagePresent ((mem.mm caller).pgd (pagingPgn addr)) = true)
    (got : pgGetval mem caller addr = some (rc, mem', some byte)) :
    mem' = mem ∧ memphyRead mem.mram (mem.cell caller addr) = some byte := by
  obtain ⟨fpn, found, page, stored, _, same⟩ := pgGetval_cases got
  rw [pgGetpage_of_present present] at page
  cases page
  cases same
  exact ⟨rfl, stored⟩

/-- An access to a valid region reads one byte. -/
theorem libread_of_pgGetval
    {source offset : Nat}
    {index : Fin 30}
    {rc : Int}
    {byte : Byte}
    (slot : toInt source = index.val)
    (got : pgGetval mem caller
      (accessAddr ((mem.mm caller).symrgtbl index) (toInt offset)) =
        some (rc, mem', some byte)) :
    libread mem caller source offset = some (byte.toInt, mem', some byte) := by
  have looked : getSymrgById (mem.mm caller) (toInt source) =
      some (some ((mem.mm caller).symrgtbl index)) := by
    have inTable : ¬ (toInt source < 0 ∨ toInt source > pagingMaxSymtblSz) := by
      rw [pagingMaxSymtblSz]
      omega
    rw [getSymrgById, if_neg inTable, symrgIndex_eq_some_iff.mpr slot]
  simp [libread, Memory.read, looked, got]

end Reading

/-- The address spaces of the others and the contents of the RAM are the same. -/
structure SameRam (caller : ι) (mem mem' : Mem ι) : Prop where
  others : ∀ other, other ≠ caller → mem'.mm other = mem.mm other
  storage : mem'.mram.storage = mem.mram.storage
  maxsz : mem'.mram.maxsz = mem.mram.maxsz
  rdmflg : mem'.mram.rdmflg = mem.mram.rdmflg

namespace SameRam

theorem refl (caller : ι) (mem : Mem ι) : SameRam caller mem mem :=
  ⟨fun _ _ => rfl, rfl, rfl, rfl⟩

theorem trans
    {middle : Mem ι}
    (first : SameRam caller mem middle)
    (second : SameRam caller middle mem') :
    SameRam caller mem mem' where
  others := fun other different =>
    (second.others other different).trans (first.others other different)
  storage := second.storage.trans first.storage
  maxsz := second.maxsz.trans first.maxsz
  rdmflg := second.rdmflg.trans first.rdmflg

theorem read
    (same : SameRam caller mem mem')
    (addr : Nat) :
    memphyRead mem'.mram addr = memphyRead mem.mram addr := by
  rw [memphyRead, memphyRead, same.storage, same.maxsz, same.rdmflg]

variable [DecidableEq ι]

theorem setMm (caller : ι) (mem : Mem ι) (mm : Mm) :
    SameRam caller mem (mem.setMm caller mm) where
  others := fun _ different => Mem.mm_setMm_of_ne _ _ different
  storage := rfl
  maxsz := rfl
  rdmflg := rfl

theorem of_grabs
    {fpn : Nat}
    (grabs : Grabs mem caller fpn mem') :
    SameRam caller mem mem' := by
  obtain ⟨others, storage, maxsz, rdmflg, _⟩ := grabs.frame
  exact ⟨others, storage, maxsz, rdmflg⟩

theorem of_givesUp
    (givesUp : GivesUp mem caller mem') :
    SameRam caller mem mem' := by
  obtain ⟨others, sameRam, _⟩ := givesUp.frame
  exact ⟨others, by rw [sameRam], by rw [sameRam], by rw [sameRam]⟩

/-- Bringing a page in copies from the RAM twice and never to it. -/
theorem of_pageIn
    {pgn : Pgn}
    {vicfpn : Nat}
    (pageIn : PageIn mem caller pgn vicfpn mem') :
    SameRam caller mem mem' := by
  cases pageIn with
  | replaced victim younger slot mp _ _ _ =>
      have moved := setMm caller (mem.setMswp (mem.pcb caller).activeMswp mp)
      exact ⟨fun other different => (moved _).others other different, rfl, rfl, rfl⟩

theorem of_grows
    {pages : Int}
    (paged : ∀ proc, Paged (mem.mm proc))
    (fits : FitsIn (mem.mm caller) pages)
    (grows : Grows mem caller pages mem') :
    SameRam caller mem mem' := by
  obtain ⟨_, _, mapped | ⟨_, _, before, gathered, givesUp⟩⟩ :=
    Grows.rule (fun _ _ state => SameRam caller mem state)
      (fun _ _ state => SameRam caller mem state) paged fits
      (setMm caller mem _)
      (fun _ _ _ _ _ gathered _ grabs => gathered.trans (of_grabs grabs))
      (fun _ _ gathered => gathered)
      (fun _ _ _ before mapped _ => mapped.trans (setMm caller before _))
      grows
  · exact mapped
  · exact gathered.trans (of_givesUp givesUp)

end SameRam

end Memory
end Ossim
