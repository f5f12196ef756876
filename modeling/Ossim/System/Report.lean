import Ossim.System.Transparency
import Mathlib.Data.List.FinRange

/-!
# The report behind a `READ` or a `WRITE`

`libread` and `libwrite` print the page table of the process, the frames of its pages and
the bytes of the RAM that are not zero.  The report is about the RAM of all processes,
and it is made from page table entries that `init_mm` has not written.

For programs that fit into the RAM a reader finds in it all that the process has stored:
the pages of its area with their frames, no frame of another process, and in these frames
the bytes that the program would have in its memory alone.
-/

namespace Ossim
namespace System

open CInt Memory Transition

/-- `print_pgtbl(proc, 0, -1)`: the offset and the entry of each page up to the limit.  An
area of the whole space has the limit 2^22, whose page number is 0. -/
def printPgtbl (mm : Mm) : List (Nat × Pte) :=
  ((List.finRange 16384).filter fun pgit =>
    pgit.val < (pagingPgn (mm.mmap.vmEnd : Int)).val).map fun pgit =>
      (pgit.val * 4, mm.pgd pgit)

/-- The lines `Page Number: %d -> Frame Number: %d`. -/
def printPages (mm : Mm) : List (Nat × Nat) :=
  ((List.finRange 16384).filter fun pgn => pagingPagePresent (mm.pgd pgn)).map fun pgn =>
    (pgn.val, pagingFpn (mm.pgd pgn))

/-- `MEMPHY_dump`: the address and the value of each byte that is not zero. -/
def memphyDump (mp : Memphy) : List (Nat × Int) :=
  ((List.range mp.maxsz).filter fun addr => mp.storage addr ≠ 0).map fun addr =>
    (addr, (mp.storage addr).toInt)

/-- What `libread` and `libwrite` print of the memory. -/
structure Report where
  pgtbl : List (Nat × Pte)
  pages : List (Nat × Nat)
  dump : List (Nat × Int)

/-- The report about a process. -/
def report (mem : Mem Nat) (proc : Nat) : Report where
  pgtbl := printPgtbl (mem.mm proc)
  pages := printPages (mem.mm proc)
  dump := memphyDump mem.mram

@[simp] theorem report_pgtbl (mem : Mem Nat) (proc : Nat) :
    (report mem proc).pgtbl = printPgtbl (mem.mm proc) := by
  rw [report]

@[simp] theorem report_pages (mem : Mem Nat) (proc : Nat) :
    (report mem proc).pages = printPages (mem.mm proc) := by
  rw [report]

@[simp] theorem report_dump (mem : Mem Nat) (proc : Nat) :
    (report mem proc).dump = memphyDump mem.mram := by
  rw [report]

namespace Report

/-- The byte in the RAM: what is not in the dump is zero. -/
def ramByte (report : Report) (addr : Nat) : Int :=
  ((report.dump.find? fun line => line.1 = addr).map Prod.snd).getD 0

/-- The byte of the process at an address, read off the report. -/
def byte (report : Report) (addr : Nat) : Option Int :=
  (report.pages.find? fun line => line.1 = addr / 256).map fun line =>
    report.ramByte (line.2 * 256 + addr % 256)

end Report

/-! ## Reading a report -/

/-- The only entry that fits is found. -/
theorem find?_eq_some_of_unique
    {α : Type*}
    {entries : List α}
    {fits : α → Bool}
    {entry : α}
    (member : entry ∈ entries)
    (isFit : fits entry = true)
    (unique : ∀ other ∈ entries, fits other = true → other = entry) :
    entries.find? fits = some entry := by
  cases found : entries.find? fits with
  | none => exact absurd isFit (List.find?_eq_none.mp found entry member)
  | some other =>
      rw [unique other (List.mem_of_find?_eq_some found) (List.find?_some found)]

/-- The dump shows every byte of the RAM. -/
theorem ramByte_report
    {mem : Mem Nat}
    (proc : Nat)
    {addr : Nat}
    (inRam : addr < mem.mram.maxsz) :
    (report mem proc).ramByte addr = (mem.mram.storage addr).toInt := by
  by_cases zero : mem.mram.storage addr = 0
  · have missing : (memphyDump mem.mram).find? (fun line => line.1 = addr) = none := by
      rw [List.find?_eq_none]
      intro line member
      obtain ⟨shown, listed, rfl⟩ := List.mem_map.mp member
      obtain ⟨_, nonzero⟩ := List.mem_filter.mp listed
      simp only [decide_eq_true_eq] at nonzero ⊢
      rintro rfl
      exact nonzero zero
    simp [Report.ramByte, missing, zero]
  · have found : (memphyDump mem.mram).find? (fun line => line.1 = addr) =
        some (addr, (mem.mram.storage addr).toInt) := by
      refine find?_eq_some_of_unique ?_ (by simp) ?_
      · exact List.mem_map.mpr ⟨addr, List.mem_filter.mpr ⟨List.mem_range.mpr inRam, by
          simpa using zero⟩, rfl⟩
      · intro line member same
        obtain ⟨shown, _, rfl⟩ := List.mem_map.mp member
        simp only [decide_eq_true_eq] at same
        rw [same]
    simp [Report.ramByte, found]

section Backed

variable {mem : Mem Nat} {proc : Nat}

/-- A page is present if and only if it lies in the area. -/
theorem present_iff
    (backed : Refinement.Backed mem)
    (pgn : Pgn) :
    pagingPagePresent ((mem.mm proc).pgd pgn) = true ↔
      pgn.val < (mem.mm proc).mmap.vmEnd / 256 := by
  constructor
  · intro present
    by_contra outside
    have absent := (backed.paged proc).maps.beyond pgn (Nat.not_lt.mp outside)
    rw [present] at absent
    cases absent
  · intro inArea
    obtain ⟨fpn, _, online⟩ := backed.online proc pgn inArea
    exact (onlineFrame_eq_some_iff.mp online).1

/-- The limit is not the end of the space. -/
theorem pgn_vmEnd (backed : Refinement.Backed mem) :
    (pagingPgn ((mem.mm proc).mmap.vmEnd : Int)).val = (mem.mm proc).mmap.vmEnd / 256 := by
  have small := backed.small
  have room := backed.room proc
  rw [pagingPgn_natCast_val]
  exact Nat.mod_eq_of_lt (by omega)

/-- The lines about the pages are those of the area. -/
theorem printPages_eq (backed : Refinement.Backed mem) :
    printPages (mem.mm proc) =
      ((List.finRange 16384).filter fun pgn =>
        pgn.val < (mem.mm proc).mmap.vmEnd / 256).map fun pgn =>
          (pgn.val, pagingFpn ((mem.mm proc).pgd pgn)) := by
  rw [printPages]
  refine congrArg _ (List.filter_congr fun pgn _ => ?_)
  rw [Bool.eq_iff_iff, decide_eq_true_eq]
  exact present_iff backed pgn

/-- The numbers below a limit in order. -/
theorem filter_range_lt
    {limit bound : Nat}
    (inRange : limit ≤ bound) :
    (List.range bound).filter (· < limit) = List.range limit := by
  obtain ⟨more, rfl⟩ := Nat.exists_eq_add_of_le inRange
  have below : (List.range limit).filter (· < limit) = List.range limit :=
    List.filter_eq_self.mpr fun number member => by simpa using member
  have beyond : ((List.range more).map (limit + ·)).filter (· < limit) = [] := by
    rw [List.filter_eq_nil_iff]
    intro number member
    obtain ⟨offset, _, rfl⟩ := List.mem_map.mp member
    simp
  rw [List.range_add, List.filter_append, below, beyond, List.append_nil]

/-- The pages below a limit in order. -/
theorem map_val_filter_lt
    {limit count : Nat}
    (inSpace : limit ≤ count) :
    ((List.finRange count).filter fun pgn => pgn.val < limit).map Fin.val =
      List.range limit := by
  have numbers : (List.finRange count).map Fin.val = List.range count :=
    List.map_coe_finRange_eq_range
  rw [← filter_range_lt inSpace, ← numbers, List.filter_map]
  rfl

theorem pages_of_report (backed : Refinement.Backed mem) :
    (report mem proc).pages.map Prod.fst = List.range ((mem.mm proc).mmap.vmEnd / 256) := by
  have small := backed.small
  have room := backed.room proc
  have inSpace : (mem.mm proc).mmap.vmEnd / 256 ≤ 16384 := by omega
  rw [report_pages, printPages_eq backed, List.map_map, ← map_val_filter_lt inSpace]
  exact List.map_congr_left fun _ _ => rfl

/-- The lines about the pages say what the printed entries say. -/
theorem pages_eq_pgtbl (backed : Refinement.Backed mem) :
    (report mem proc).pages.map (fun line => (line.1 * 4, line.2)) =
      (report mem proc).pgtbl.map fun entry => (entry.1, pagingFpn entry.2) := by
  rw [report_pages, report_pgtbl, printPages_eq backed, printPgtbl, pgn_vmEnd backed,
    List.map_map, List.map_map]
  exact List.map_congr_left fun _ _ => rfl

/-- A line about a page is the page with its frame. -/
theorem onlineFrame_of_mem_pages
    (backed : Refinement.Backed mem)
    {line : Nat × Nat}
    (member : line ∈ (report mem proc).pages) :
    ∃ pgn : Pgn, line.1 = pgn.val ∧ onlineFrame ((mem.mm proc).pgd pgn) = some line.2 := by
  rw [report_pages, printPages] at member
  obtain ⟨pgn, listed, rfl⟩ := List.mem_map.mp member
  obtain ⟨_, present⟩ := List.mem_filter.mp listed
  obtain ⟨fpn, _, online⟩ := backed.online proc pgn ((present_iff backed pgn).mp present)
  refine ⟨pgn, rfl, ?_⟩
  rw [online, (onlineFrame_eq_some_iff.mp online).2.2]

/-- A process has the frames of its lines to itself. -/
theorem pages_disjoint
    (backed : Refinement.Backed mem)
    {other : Nat}
    (different : other ≠ proc)
    {line line' : Nat × Nat}
    (member : line ∈ (report mem proc).pages)
    (member' : line' ∈ (report mem other).pages) :
    line.2 ≠ line'.2 := by
  intro same
  obtain ⟨pgn, _, online⟩ := onlineFrame_of_mem_pages backed member
  obtain ⟨pgn', _, online'⟩ := onlineFrame_of_mem_pages backed member'
  rw [← same] at online'
  have holder := backed.owned.exclusive.injective (proc, pgn) (other, pgn') line.2 online online'
  exact different (Prod.mk.inj holder).1.symm

/-- A reader finds the byte of the process in the frame of its page. -/
theorem byte_report
    (backed : Refinement.Backed mem)
    {addr : Nat}
    (below : addr < (mem.mm proc).mmap.vmEnd) :
    (report mem proc).byte addr = some (mem.mram.storage (mem.cell proc addr)).toInt := by
  obtain ⟨fpn, inRam, online, cell⟩ := backed.cell below
  obtain ⟨number, inArea⟩ := backed.pgn below
  obtain ⟨present, _, frame⟩ := onlineFrame_eq_some_iff.mp online
  have found : (printPages (mem.mm proc)).find? (fun line => line.1 = addr / 256) =
      some (addr / 256, fpn) := by
    refine find?_eq_some_of_unique ?_ (by simp) ?_
    · refine List.mem_map.mpr ⟨pagingPgn (addr : Int), ?_, by rw [number, frame]⟩
      exact List.mem_filter.mpr ⟨List.mem_finRange _, present⟩
    · intro line member same
      obtain ⟨pgn, _, rfl⟩ := List.mem_map.mp member
      simp only [decide_eq_true_eq] at same
      have samePgn : pgn = pagingPgn (addr : Int) := Fin.ext (same.trans number.symm)
      rw [samePgn, number, frame]
  have inside : fpn * 256 + addr % 256 < mem.mram.maxsz := by omega
  rw [Report.byte, report_pages, found, Option.map_some, ramByte_report proc inside, cell,
    pagingPhyaddr_eq]

end Backed

/-- Whatever the schedule was, a reader of the report about a process finds the pages of
its area in order, in the table and in the lines below it, with frames that no report about
another process names, and at each address the byte that the program has alone. -/
theorem report_as_alone
    (setup : Setup)
    (n : Nat)
    (mem : Mem Nat)
    (demand : Nat → Nat)
    (start : Refinement.Start ⟨mem, []⟩)
    (fits : Fits setup (symbolTable mem) demand (ramFrames mem))
    (state : State n)
    (run : Run (step setup) anyEvent (boot n mem) state)
    (proc : Nat) :
    ∃ machine, replay Machine.exec (.start (symbolTable mem proc))
        ((setup.text proc).take (state.os.pc proc)) = some machine ∧
      (report state.mem proc).pages.map Prod.fst = List.range machine.pages ∧
      (report state.mem proc).pages.map (fun line => (line.1 * 4, line.2)) =
        (report state.mem proc).pgtbl.map (fun entry => (entry.1, pagingFpn entry.2)) ∧
      (∀ other, other ≠ proc → ∀ line ∈ (report state.mem proc).pages,
        ∀ line' ∈ (report state.mem other).pages, line.2 ≠ line'.2) ∧
      ∀ addr, addr < machine.mm.mmap.vmEnd →
        (report state.mem proc).byte addr = some (machine.bytes addr).toInt := by
  obtain ⟨_, writes, simulates⟩ := simulates_run start fits run
  have backed := simulates.valid.backed
  refine ⟨_, simulates.machine proc, pages_of_report backed, pages_eq_pgtbl backed,
    fun other different line member line' member' =>
      pages_disjoint backed different member member', fun addr below => ?_⟩
  rw [byte_report backed below, simulates.valid.stores.held proc addr below]
  rfl

/-- The frames of the two processes differ, and the dump shows the 7 that the first one
has written. -/
theorem report_as_alone_twoPrograms :
    ∃ state, replay (step twoPrograms) (boot 2 fourFrames) (twoSchedule 0 1) = some state ∧
      (∀ line ∈ (report state.mem 0).pages, ∀ line' ∈ (report state.mem 1).pages,
        line.2 ≠ line'.2) ∧
      (report state.mem 0).byte 4 = some 7 := by
  obtain ⟨state, reaches, finished⟩ :
      ∃ state, replay (step twoPrograms) (boot 2 fourFrames) (twoSchedule 0 1) = some state ∧
        state.os.pc 0 = 3 :=
    exists_of_evaluated (by decide +kernel)
  obtain ⟨machine, replayed, _, _, apart, bytes⟩ := report_as_alone twoPrograms 2 fourFrames
    (fun proc => 2 - proc) fourFrames_start twoPrograms_fits state
    (Run.of_replay_any _ reaches) 0
  have alone : (replay Machine.exec (.start (symbolTable fourFrames 0)) ((twoTexts 0).take 3)).map
      (fun machine => decide (4 < machine.mm.mmap.vmEnd ∧ machine.bytes 4 = 7)) = some true := by
    decide +kernel
  obtain ⟨again, executed, below, written⟩ := exists_of_evaluated alone
  rw [finished] at replayed
  obtain rfl : machine = again := Option.some.inj (replayed.symm.trans executed)
  refine ⟨state, reaches, apart 1 (by decide), ?_⟩
  rw [bytes 4 below, written]
  rfl

end System
end Ossim
