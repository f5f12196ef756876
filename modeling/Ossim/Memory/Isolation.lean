import Ossim.Library.Transition
import Ossim.Memory.Access

/-!
# When the processes are isolated

Any number of processes share the RAM and the swap devices and execute their
instructions in any order.  Only a `WRITE` changes a cell of the RAM.  The cell
is one of a frame of the writing process, unless the page has been evicted: the
entry of an evicted page still counts as present, and its swap type and swap
offset are taken for a frame number, which may be that of another process.
-/

namespace Ossim
namespace Memory

open CInt Transition

namespace Isolation

variable {ι : Type} [DecidableEq ι]

/-- A process reads the byte from a page that is in RAM. -/
def ReadsInRam (mem : Mem ι) (proc : ι) (addr : Int) (byte : Byte) : Prop :=
  (onlineFrame ((mem.mm proc).pgd (pagingPgn addr))).isSome ∧
    pgGetval mem proc addr = some (0, mem, some byte)

/-- What the other processes read from their pages in RAM is as before. -/
def Isolated (mem : Mem ι) (event : Event ι) (mem' : Mem ι) : Prop :=
  ∀ other, other ≠ event.proc → ∀ addr byte,
    ReadsInRam mem other addr byte → ReadsInRam mem' other addr byte

/-- If the entry of the page is that of a swapped page, then the cell it is
decoded to belongs to no page of another process, or has the value already. -/
def WritesOwn (mem : Mem ι) (proc : ι) (data : Byte) (rgid offset : Nat) : Prop :=
  ∀ index ∈ symrgIndex (toInt rgid),
    let addr := accessAddr ((mem.mm proc).symrgtbl index) (toInt offset)
    (swapSlot ((mem.mm proc).pgd (pagingPgn addr))).isSome →
      mem.mram.storage (mem.cell proc addr) = data ∨
        ∀ other, other ≠ proc → ∀ pgn,
          onlineFrame ((mem.mm other).pgd pgn) ≠
            some (pagingFpn ((mem.mm proc).pgd (pagingPgn addr)))

/-- The condition on an instruction and the state before it. -/
def Keeps (mem : Mem ι) (event : Event ι) : Prop :=
  match event.inst with
  | .alloc size _ =>
      ∀ pages ∈ growth (mem.mm event.proc) (toInt size),
        FitsIn (mem.mm event.proc) pages ∧
          ∀ fpn ∈ mem.mram.freeFpList.nodes.take pages.toNat, fpn < 2 ^ 13
  | .free _ => True
  | .read source offset => AccessInArea (mem.mm event.proc) source offset
  | .write data destination offset =>
      AccessInArea (mem.mm event.proc) destination offset ∧
        WritesOwn mem event.proc data destination offset

instance decidableWritesOwn
    (mem : Mem (Fin n))
    (proc : Fin n)
    (data : Byte)
    (rgid offset : Nat) :
    Decidable (WritesOwn mem proc data rgid offset) :=
  inferInstanceAs (Decidable (∀ index ∈ symrgIndex (toInt rgid),
    (swapSlot ((mem.mm proc).pgd
        (pagingPgn (accessAddr ((mem.mm proc).symrgtbl index) (toInt offset))))).isSome →
      _ = data ∨ ∀ other : Fin n, other ≠ proc → ∀ _ : Pgn, _ ≠ _))

instance decidableKeeps (mem : Mem (Fin n)) : ∀ event, Decidable (Keeps mem event)
  | ⟨proc, .alloc size _⟩ =>
      inferInstanceAs (Decidable (∀ pages ∈ growth (mem.mm proc) (toInt size),
        FitsIn (mem.mm proc) pages ∧
          ∀ fpn ∈ mem.mram.freeFpList.nodes.take pages.toNat, fpn < 2 ^ 13))
  | ⟨_, .free _⟩ => isTrue trivial
  | ⟨proc, .read source offset⟩ =>
      inferInstanceAs (Decidable (AccessInArea (mem.mm proc) source offset))
  | ⟨proc, .write data destination offset⟩ =>
      inferInstanceAs (Decidable (AccessInArea (mem.mm proc) destination offset ∧
        WritesOwn mem proc data destination offset))

/-- Before the first instruction. -/
structure Start (mem : Mem ι) : Prop where
  fresh : ∀ proc, NoPages (mem.mm proc)
  ram : mem.mram.freeFpList.nodes.Nodup

/-- The invariant between two instructions. -/
structure Valid (mem : Mem ι) : Prop where
  paged : ∀ proc, Paged (mem.mm proc)
  ram : RamOwned mem []

variable {mem mem' : Mem ι} {proc : ι}

omit [DecidableEq ι] in
theorem valid_of_start
    (start : Start mem) :
    Valid mem where
  paged := fun proc => (start.fresh proc).paged
  ram := RamOwned.of_noPages start.fresh start.ram

/-- Reading from a page in RAM is reading a cell of its frame. -/
theorem readsInRam_iff
    {addr : Int}
    {byte : Byte} :
    ReadsInRam mem proc addr byte ↔
      (onlineFrame ((mem.mm proc).pgd (pagingPgn addr))).isSome ∧
        memphyRead mem.mram (mem.cell proc addr) = some byte := by
  constructor
  · rintro ⟨online, got⟩
    exact ⟨online, (cell_of_pgGetval (present_of_online online) got).2⟩
  · rintro ⟨online, stored⟩
    exact ⟨online, pgGetval_of_present (present_of_online online) stored⟩

/-- Leaving the RAM and the others alone isolates. -/
theorem isolated_of_sameRam
    {event : Event ι}
    (same : SameRam event.proc mem mem') :
    Isolated mem event mem' := by
  intro other different addr byte reads
  rw [readsInRam_iff] at reads ⊢
  rw [Mem.cell, same.others other different, same.read]
  exact reads

/-! ## Growing an area -/

/-- The free frames that are still taken have numbers that an entry can hold. -/
def TakesSmall (left : Nat) (mram : Memphy) : Prop :=
  ∀ fpn ∈ mram.freeFpList.nodes.take left, fpn < 2 ^ 13

theorem TakesSmall.head
    {left head : Nat}
    {mram : Memphy}
    (small : TakesSmall (left + 1) mram)
    (first : head ∈ mram.freeFpList.nodes.take 1) :
    head < 2 ^ 13 :=
  small head ((List.take_prefix_take_left (Nat.le_add_left 1 left)).mem first)

theorem TakesSmall.grab
    {before after : Mem ι}
    {left fpn : Nat}
    (small : TakesSmall (left + 1) before.mram)
    (grabs : Grabs before proc fpn after) :
    TakesSmall left after.mram := by
  cases grabs with
  | taken fpn rest head =>
      intro other free
      apply small
      rw [head, List.take_succ_cons]
      exact List.mem_cons_of_mem _ free
  | evicted victim younger device slot mp full _ _ _ =>
      simp [TakesSmall, full]

theorem grows_valid
    {pages : Int}
    (valid : Valid mem)
    (fits : FitsIn (mem.mm proc) pages)
    (small : ∀ fpn ∈ mem.mram.freeFpList.nodes.take pages.toNat, fpn < 2 ^ 13)
    (grows : Grows mem proc pages mem') :
    Valid mem' := by
  obtain ⟨paged, ram⟩ := valid
  have grab : ∀ left frames before fpn after,
      RamOwned before frames ∧ TakesSmall (left + 1) before.mram →
      MapsUpTo (before.mm proc) ((mem.mm proc).mmap.vmEnd / 256) →
      Grabs before proc fpn after →
      RamOwned after (fpn :: frames) ∧ TakesSmall left after.mram := by
    rintro left frames before fpn after ⟨owned, small⟩ maps grabs
    exact ⟨owned.grab maps (fun _ => small.head) grabs, small.grab grabs⟩
  obtain ⟨stillPaged, _, mapped | ⟨_, taken, before, ⟨owned, _⟩, givesUp⟩⟩ :=
    Grows.rule (fun left frames state => RamOwned state frames ∧ TakesSmall left state.mram)
      (fun _ frames state => RamOwned state frames) paged fits
      ⟨ram.congr (Mem.pgd_setMm_congr rfl) rfl, small⟩
      grab
      (fun _ _ before => before.1)
      (fun pgn _ _ _ before _ => before.mapPage proc pgn)
      grows
  · exact ⟨stillPaged, mapped⟩
  · exact ⟨stillPaged, owned.giveUp givesUp⟩

theorem quiet_valid
    {mm : Mm}
    (valid : Valid mem)
    (same : SamePages (mem.mm proc) mm) :
    Valid (mem.setMm proc mm) where
  paged := paged_quiet valid.paged same
  ram := valid.ram.congr (Mem.pgd_setMm_congr same.pgd) rfl

/-! ## Access to a page -/

/-- An access to a page of the area keeps the invariant and changes nothing for
the others.  Afterwards the page is present. -/
theorem getpage_valid
    {pgn : Pgn}
    {fpn : Nat}
    (valid : Valid mem)
    (inArea : pgn.val * 256 < (mem.mm proc).mmap.vmEnd)
    (page : pgGetpage mem proc pgn = some (0, mem', some fpn)) :
    Valid mem' ∧ SameRam proc mem mem' ∧
      ((onlineFrame ((mem'.mm proc).pgd pgn) = some fpn) ∨
        (mem' = mem ∧ (swapSlot ((mem.mm proc).pgd pgn)).isSome ∧
          fpn = pagingFpn ((mem.mm proc).pgd pgn))) := by
  rcases (pgGetpage_cases page).2 with ⟨present, rfl, found⟩ | ⟨absent, vicfpn, pageIn, found⟩
  · cases found
    refine ⟨valid, SameRam.refl _ _, ?_⟩
    cases swapped : pagingPageSwapped ((mem'.mm proc).pgd pgn) with
    | true => exact Or.inr ⟨rfl, swapSlot_isSome_iff.mpr ⟨present, swapped⟩, rfl⟩
    | false => exact Or.inl (onlineFrame_eq_some_iff.mpr ⟨present, swapped, rfl⟩)
  · cases found
    exact ⟨⟨paged_pageIn valid.paged absent inArea pageIn,
      valid.ram.pageIn (valid.paged proc).maps absent pageIn⟩, SameRam.of_pageIn pageIn,
      Or.inl pageIn.online⟩

/-- Storing a byte in a cell that no page of another process is mapped to, or
that has the value already. -/
theorem write_isolated
    (event : Event ι)
    {fpn offst : Nat}
    {data : Byte}
    {mram : Memphy}
    (inPage : offst < 256)
    (written : memphyWrite mem.mram (pagingPhyaddr fpn offst) data = some mram)
    (own : mem.mram.storage (pagingPhyaddr fpn offst) = data ∨
      ∀ other, other ≠ event.proc → ∀ pgn,
        onlineFrame ((mem.mm other).pgd pgn) ≠ some fpn) :
    Isolated mem event (mem.setMram mram) := by
  intro other different addr byte reads
  rw [readsInRam_iff] at reads ⊢
  obtain ⟨online, stored⟩ := reads
  refine ⟨online, ?_⟩
  obtain ⟨frame, decoded⟩ := Option.isSome_iff_exists.mp online
  obtain ⟨onlyStorage, outcome⟩ := memphyWrite_cases written
  rw [memphyRead_eq_some_iff] at stored ⊢
  obtain ⟨random, inBounds, value⟩ := stored
  refine ⟨by rw [Mem.mram_setMram, onlyStorage]; exact random,
    by rw [Mem.mram_setMram, onlyStorage]; exact inBounds, ?_⟩
  change mram.storage (mem.cell other addr) = byte
  rcases outcome with ⟨_, _, updated⟩ | ⟨_, unchanged⟩
  · rw [updated]
    by_cases hit : mem.cell other addr = pagingPhyaddr fpn offst
    · rw [hit, Function.update_self]
      rcases own with same | noOther
      · rw [← value, hit, same]
      · have frames := (pagingPhyaddr_injective (pagingOffst_lt addr) inPage hit).1
        rw [(onlineFrame_eq_some_iff.mp decoded).2.2] at frames
        rw [frames] at decoded
        exact absurd decoded (noOther other different _)
    · rw [Function.update_of_ne hit, value]
  · rw [unchanged, value]

/-- An instruction that meets the condition keeps the invariant and isolates. -/
theorem step_keeps
    {event : Event ι}
    (valid : Valid mem)
    (keeps : Keeps mem event)
    (taken : step mem event = some mem') :
    Valid mem' ∧ Isolated mem event mem' := by
  obtain ⟨proc, inst⟩ := event
  cases inst with
  | alloc size regIndex =>
      obtain ⟨middle, mm, rfl, same, rfl | ⟨pages, growing, grows⟩⟩ := run_alloc_pages taken
      · exact ⟨quiet_valid valid same, isolated_of_sameRam (SameRam.setMm proc middle mm)⟩
      · obtain ⟨fits, small⟩ := keeps pages growing
        refine ⟨quiet_valid (grows_valid valid fits small grows) same, ?_⟩
        apply isolated_of_sameRam
        exact (SameRam.of_grows valid.paged fits grows).trans (SameRam.setMm proc middle mm)
  | free regIndex =>
      obtain ⟨mm, rfl, same⟩ := run_free_pages taken
      exact ⟨quiet_valid valid same, isolated_of_sameRam (SameRam.setMm proc mem mm)⟩
  | read source offset =>
      rcases run_read_cases taken with ⟨_, rfl⟩ | ⟨index, slot, rc, byte, got⟩
      · exact ⟨valid, isolated_of_sameRam (SameRam.refl _ _)⟩
      · obtain ⟨fpn, _, page, _, _, _⟩ := pgGetval_cases got
        have inArea := keeps index (symrgIndex_eq_some_iff.mpr slot)
        obtain ⟨stillValid, sameRam, _⟩ := getpage_valid valid inArea page
        exact ⟨stillValid, isolated_of_sameRam sameRam⟩
  | write data destination offset =>
      rcases run_write_cases taken with ⟨_, rfl⟩ | ⟨index, slot, rc, set⟩
      · exact ⟨valid, isolated_of_sameRam (SameRam.refl _ _)⟩
      · obtain ⟨fpn, middle, mram, page, written, _, rfl⟩ := pgSetval_cases set
        obtain ⟨areaKept, writesOwn⟩ := keeps
        have inArea := areaKept index (symrgIndex_eq_some_iff.mpr slot)
        obtain ⟨stillValid, sameRam, found⟩ := getpage_valid valid inArea page
        have own : middle.mram.storage
              (pagingPhyaddr fpn (pagingOffst (accessAddr ((mem.mm proc).symrgtbl index)
                (toInt offset)))) = data ∨
            ∀ other, other ≠ proc → ∀ pgn,
              onlineFrame ((middle.mm other).pgd pgn) ≠ some fpn := by
          rcases found with online | ⟨rfl, swapped, rfl⟩
          · refine Or.inr ?_
            intro other different pgn otherOnline
            have same := stillValid.ram.exclusive.injective (other, pgn) (proc, _) fpn
              otherOnline online
            exact different (congrArg Prod.fst same)
          · exact writesOwn index (symrgIndex_eq_some_iff.mpr slot) swapped
        refine ⟨⟨stillValid.paged, stillValid.ram.congr (fun _ => rfl) ?_⟩, ?_⟩
        · rw [Mem.mram_setMram, (memphyWrite_cases written).1]
        · have first : Isolated mem ⟨proc, .write data destination offset⟩ middle :=
            isolated_of_sameRam sameRam
          have second := write_isolated ⟨proc, .write data destination offset⟩
            (pagingOffst_lt _) written own
          intro other different addr byte reads
          exact second other different addr byte (first other different addr byte reads)

/-- For a `WRITE` the condition on the page is needed: a `WRITE` that fails it
changes what another process reads. -/
theorem writesOwn_of_isolated
    {data : Byte}
    {destination offset : Nat}
    (random : mem.mram.rdmflg = true)
    (taken : step mem ⟨proc, .write data destination offset⟩ = some mem')
    (isolated : Isolated mem ⟨proc, .write data destination offset⟩ mem') :
    WritesOwn mem proc data destination offset := by
  intro index found addr swapped
  have slot := symrgIndex_eq_some_iff.mp found
  have present := (swapSlot_isSome_iff.mp swapped).1
  rw [or_iff_not_imp_left]
  intro changes other different pgn online
  rcases run_write_cases taken with ⟨invalid, _⟩ | ⟨index', slot', rc, set⟩
  · have := index.isLt
    omega
  · have sameIndex : index' = index := by
      rw [Fin.ext_iff]
      omega
    subst sameIndex
    obtain ⟨fpn, middle, mram, page, written, _, rfl⟩ := pgSetval_cases set
    rw [pgGetpage_of_present present] at page
    cases page
    obtain ⟨_, ⟨_, inBounds, updated⟩ | ⟨sequential, _⟩⟩ := memphyWrite_cases written
    · -- the other process reads the cell that is written
      obtain ⟨victim, pgnIs, offstIs⟩ := exists_addr pgn (pagingOffst_lt addr)
      have cellIs : mem.cell other victim = mem.cell proc addr := by
        rw [Mem.cell, Mem.cell, pgnIs, offstIs, (onlineFrame_eq_some_iff.mp online).2.2]
      have reads : ReadsInRam mem other victim (mem.mram.storage (mem.cell proc addr)) := by
        rw [readsInRam_iff, pgnIs, online, cellIs, memphyRead_eq_some_iff]
        exact ⟨rfl, random, inBounds, rfl⟩
      have stillReads := (readsInRam_iff.mp (isolated other different victim _ reads)).2
      have stored : mram.storage (mem.cell other victim) =
          mem.mram.storage (mem.cell proc addr) :=
        (memphyRead_eq_some_iff.mp stillReads).2.2
      rw [updated, cellIs] at stored
      change Function.update mem.mram.storage (mem.cell proc addr) data _ = _ at stored
      rw [Function.update_self] at stored
      exact changes stored.symm
    · rw [random] at sequential
      cases sequential

/-- Along every run whose instructions meet the condition, each instruction
leaves what the other processes read from their pages in RAM as it was. -/
theorem isolated_of_keeps
    {first : Mem ι}
    {event : Event ι}
    (start : Start first)
    (run : Run step Keeps first mem)
    (keeps : Keeps mem event)
    (taken : step mem event = some mem') :
    Isolated mem event mem' := by
  have valid : Valid mem :=
    run.invariant Valid (fun _ _ _ valid keeps taken => (step_keeps valid keeps taken).1)
      (valid_of_start start)
  exact (step_keeps valid keeps taken).2

/-- Two processes, a RAM of two frames and swap devices of four frames. -/
def twoFrames : Mem (Fin 2) where
  mram := initMemphy 512 true
  mswp := fun _ => initMemphy 1024 true
  pcb := fun _ => Pcb.fresh

theorem twoFrames_start : Start twoFrames where
  fresh := fun _ => noPages_initMm (fun _ => show pagingPagePresent 0 = false by decide) rfl
  ram := show [0, 1].Nodup by decide

/-- Each process gets a frame, and then the second evicts its page to swap frame
0 of device 0. -/
def evicting : List (Event (Fin 2)) :=
  [⟨0, .alloc 256 0⟩, ⟨1, .alloc 256 0⟩, ⟨1, .alloc 256 1⟩]

/-- The second process writes to the page it still has in RAM. -/
theorem isolated_of_keeps_evicting :
    ∃ mem mem', replay step twoFrames evicting = some mem ∧
      step mem ⟨1, .write 7 1 0⟩ = some mem' ∧ Isolated mem ⟨1, .write 7 1 0⟩ mem' := by
  obtain ⟨mem, mem', reaches, taken, keeps⟩ :=
    exists_of_evaluated_step (show ((replay step twoFrames evicting).bind fun mem =>
      (step mem ⟨1, .write 7 1 0⟩).map fun _ => decide (Keeps mem ⟨1, .write 7 1 0⟩)) =
        some true by decide +kernel)
  exact ⟨mem, mem', reaches, taken, isolated_of_keeps twoFrames_start
    (Run.of_replay _ _ (by decide +kernel) reaches) keeps taken⟩

/-- The second process writes to its evicted page.  The entry is decoded to frame
0, which holds the page of the first process: what the first process reads from
its region changes from 0 to 7. -/
theorem write_reaches_other_process :
    ∃ mem mem', replay step twoFrames evicting = some mem ∧
      step mem ⟨1, .write 7 0 0⟩ = some mem' ∧
      (libread mem 0 0 0).map (·.1) = some 0 ∧ (libread mem' 0 0 0).map (·.1) = some 7 ∧
      ¬ Isolated mem ⟨1, .write 7 0 0⟩ mem' := by
  obtain ⟨mem, mem', reaches, taken, before, after, online, stored, changed⟩ :=
    exists_of_evaluated_step (show ((replay step twoFrames evicting).bind fun mem =>
      (step mem ⟨1, .write 7 0 0⟩).map fun mem' => decide
        ((libread mem 0 0 0).map (·.1) = some 0 ∧ (libread mem' 0 0 0).map (·.1) = some 7 ∧
          (onlineFrame ((mem.mm 0).pgd (pagingPgn 0))).isSome ∧
          memphyRead mem.mram (mem.cell 0 0) = some 0 ∧
          memphyRead mem'.mram (mem'.cell 0 0) ≠ some 0)) = some true by decide +kernel)
  refine ⟨mem, mem', reaches, taken, before, after, ?_⟩
  intro isolated
  have still := isolated 0 (show (0 : Fin 2) ≠ 1 by decide) 0 0
    (readsInRam_iff.mpr ⟨online, stored⟩)
  exact changed (readsInRam_iff.mp still).2

end Isolation

end Memory
end Ossim
