import Ossim.Library.Transition
import Ossim.Memory.Access

/-!
# When eviction is transparent

An `ALLOC` that runs out of frames evicts pages of its process.  Nothing brings
an evicted page back: its entry still counts as present, and a later access goes
to the frame number that the swap type and the swap offset are decoded to.  The
access finds the evicted byte exactly as long as that cell of the RAM has it.
-/

namespace Ossim
namespace Memory

open CInt Transition

namespace Eviction

variable {ι : Type} [DecidableEq ι]

/-- The memory, and the bytes that the evicted pages held just before an `ALLOC`
evicted them, up to a `WRITE` to their address. -/
structure State (ι : Type) where
  mem : Mem ι
  evicted : ι → Pgn → Nat → Option Byte

/-- An `ALLOC` of a process is recorded: the pages that were online before and
are swapped after it. -/
def recordEvicted (state : State ι) (proc : ι) (after : Mem ι) : ι → Pgn → Nat → Option Byte :=
  fun other pgn offst =>
    if other = proc ∧ (onlineFrame ((state.mem.mm proc).pgd pgn)).isSome ∧
        (swapSlot ((after.mm proc).pgd pgn)).isSome then
      memphyRead state.mem.mram
        (pagingPhyaddr (pagingFpn ((state.mem.mm proc).pgd pgn)) offst)
    else
      state.evicted other pgn offst

/-- A `WRITE` of a process to a region is recorded. -/
def recordWritten (state : State ι) (proc : ι) (rgid offset : Nat) :
    ι → Pgn → Nat → Option Byte :=
  (symrgIndex (toInt rgid)).elim state.evicted fun index other pgn offst =>
    let addr := accessAddr ((state.mem.mm proc).symrgtbl index) (toInt offset)
    if other = proc ∧ pgn = pagingPgn addr ∧ offst = pagingOffst addr then
      none
    else
      state.evicted other pgn offst

/-- One instruction. -/
def step (state : State ι) (event : Event ι) : Option (State ι) :=
  match Memory.step state.mem event with
  | none => none
  | some after =>
      match event.inst with
      | .alloc _ _ => some ⟨after, recordEvicted state event.proc after⟩
      | .write _ destination offset =>
          some ⟨after, recordWritten state event.proc destination offset⟩
      | _ => some ⟨after, state.evicted⟩

/-- Reading an evicted byte returns it. -/
def Transparent (state : State ι) : Prop :=
  ∀ proc addr byte,
    state.evicted proc (pagingPgn addr) (pagingOffst addr) = some byte →
      pgGetval state.mem proc addr = some (0, state.mem, some byte)

/-! ## The condition on an instruction -/

/-- The swap devices in the order in which they are tried. -/
def swapDevices (active : Fin 4) : List (Fin 4) :=
  active :: (List.finRange 4).filter (· ≠ active)

/-- The free swap frames in the order in which evicted pages get them. -/
def swapSlots (mem : Mem ι) (proc : ι) : List (Fin 4 × Nat) :=
  (swapDevices (mem.pcb proc).activeMswp).flatMap fun device =>
    (mem.mswp device).freeFpList.nodes.map fun slot => (device, slot)

/-- The pages that a growth evicts, with their swap frames: the oldest pages, as
many as free frames are missing. -/
def evictions (mem : Mem ι) (proc : ι) (pages : Nat) : List (Pgn × Fin 4 × Nat) :=
  ((mem.mm proc).fifoPgn.reverse.zip (swapSlots mem proc)).take
    (pages - mem.mram.freeFpList.nodes.length)

/-- Two entries are decoded to frames with the same bytes. -/
def SameBytes (mram : Memphy) (pte pte' : Pte) : Prop :=
  ∀ offst, offst < 256 →
    memphyRead mram (pagingPhyaddr (pagingFpn pte') offst) =
      memphyRead mram (pagingPhyaddr (pagingFpn pte) offst)

/-- The new entry of every page that is evicted is decoded to a frame with the
bytes of the page. -/
def EvictsFaithfully (mem : Mem ι) (proc : ι) (pages : Nat) : Prop :=
  ∀ eviction ∈ evictions mem proc pages,
    SameBytes mem.mram ((mem.mm proc).pgd eviction.1)
      (pteSetSwap ((mem.mm proc).pgd eviction.1) eviction.2.1.val eviction.2.2)

/-- The frame in which an access to a page ends: the one its entry is decoded to
or, for a page that is not present, the one of the victim. -/
def targetFrame (mm : Mm) (pgn : Pgn) : Option Nat :=
  if pagingPagePresent (mm.pgd pgn) then
    some (pagingFpn (mm.pgd pgn))
  else
    mm.fifoPgn.getLast?.map fun victim => pagingFpn (mm.pgd victim)

/-- The cell of an access is not one to which another evicted byte is decoded, or
has the value already. -/
def SparesEvicted (state : State ι) (proc : ι) (data : Byte) (addr : Int) : Prop :=
  ∀ fpn ∈ targetFrame (state.mem.mm proc) (pagingPgn addr), ∀ other,
    ∀ pgn : Pgn, pgn.val < (state.mem.mm other).mmap.vmEnd / 256 →
      (state.evicted other pgn (pagingOffst addr)).isSome →
        ¬ (other = proc ∧ pgn = pagingPgn addr) →
          pagingFpn ((state.mem.mm other).pgd pgn) = fpn →
            state.mem.mram.storage (pagingPhyaddr fpn (pagingOffst addr)) = data

/-- The condition on an instruction and the state before it. -/
def Faithful (state : State ι) (event : Event ι) : Prop :=
  match event.inst with
  | .alloc size _ =>
      ∀ pages ∈ growth (state.mem.mm event.proc) (toInt size),
        FitsIn (state.mem.mm event.proc) pages ∧
          EvictsFaithfully state.mem event.proc pages.toNat
  | .free _ => True
  | .read source offset => AccessInArea (state.mem.mm event.proc) source offset
  | .write data destination offset =>
      AccessInArea (state.mem.mm event.proc) destination offset ∧
        ∀ index ∈ symrgIndex (toInt destination),
          SparesEvicted state event.proc data
            (accessAddr ((state.mem.mm event.proc).symrgtbl index) (toInt offset))

instance decidableSameBytes (mram : Memphy) (pte pte' : Pte) :
    Decidable (SameBytes mram pte pte') :=
  Nat.decidableBallLT 256 fun offst _ =>
    memphyRead mram (pagingPhyaddr (pagingFpn pte') offst) =
      memphyRead mram (pagingPhyaddr (pagingFpn pte) offst)

instance decidableEvictsFaithfully (mem : Mem ι) (proc : ι) (pages : Nat) :
    Decidable (EvictsFaithfully mem proc pages) :=
  inferInstanceAs (Decidable (∀ eviction ∈ evictions mem proc pages, SameBytes _ _ _))

instance decidableSparesEvicted
    (state : State (Fin n))
    (proc : Fin n)
    (data : Byte)
    (addr : Int) :
    Decidable (SparesEvicted state proc data addr) :=
  decidable_of_iff
    (∀ fpn ∈ targetFrame (state.mem.mm proc) (pagingPgn addr), ∀ other : Fin n,
      ∀ page, page < (state.mem.mm other).mmap.vmEnd / 256 → ∀ inTable : page < 16384,
        (state.evicted other ⟨page, inTable⟩ (pagingOffst addr)).isSome →
          ¬ (other = proc ∧ ⟨page, inTable⟩ = pagingPgn addr) →
            pagingFpn ((state.mem.mm other).pgd ⟨page, inTable⟩) = fpn →
              state.mem.mram.storage (pagingPhyaddr fpn (pagingOffst addr)) = data)
    ⟨fun spares fpn target other pgn below => spares fpn target other pgn.val below pgn.isLt,
      fun spares fpn target other page below inTable =>
        spares fpn target other ⟨page, inTable⟩ below⟩

instance decidableFaithful (state : State (Fin n)) : ∀ event, Decidable (Faithful state event)
  | ⟨proc, .alloc size _⟩ =>
      inferInstanceAs (Decidable (∀ pages ∈ growth (state.mem.mm proc) (toInt size),
        FitsIn (state.mem.mm proc) pages ∧ EvictsFaithfully state.mem proc pages.toNat))
  | ⟨_, .free _⟩ => isTrue trivial
  | ⟨proc, .read source offset⟩ =>
      inferInstanceAs (Decidable (AccessInArea (state.mem.mm proc) source offset))
  | ⟨proc, .write data destination offset⟩ =>
      inferInstanceAs (Decidable (AccessInArea (state.mem.mm proc) destination offset ∧
        ∀ index ∈ symrgIndex (toInt destination), SparesEvicted state proc data
          (accessAddr ((state.mem.mm proc).symrgtbl index) (toInt offset))))

/-- Before the first instruction. -/
structure Start (state : State ι) : Prop where
  fresh : ∀ proc, NoPages (state.mem.mm proc)
  nothing : ∀ proc pgn offst, state.evicted proc pgn offst = none

/-- The invariant between two instructions. -/
structure Valid (state : State ι) : Prop where
  paged : ∀ proc, Paged (state.mem.mm proc)
  kept : ∀ proc pgn offst byte, offst < 256 → state.evicted proc pgn offst = some byte →
    (swapSlot ((state.mem.mm proc).pgd pgn)).isSome ∧
      memphyRead state.mem.mram
        (pagingPhyaddr (pagingFpn ((state.mem.mm proc).pgd pgn)) offst) = some byte

variable {mem mem' : Mem ι} {state next : State ι} {proc : ι}

omit [DecidableEq ι] in
theorem valid_of_start
    (start : Start state) :
    Valid state where
  paged := fun proc => (start.fresh proc).paged
  kept := by
    intro proc pgn offst byte _ recorded
    rw [start.nothing] at recorded
    cases recorded

theorem transparent_of_valid
    (valid : Valid state) :
    Transparent state := by
  intro proc addr byte recorded
  obtain ⟨swapped, stored⟩ := valid.kept proc _ _ byte (pagingOffst_lt addr) recorded
  exact pgGetval_of_present (swapSlot_isSome_iff.mp swapped).1 stored

/-! ## Which frames the evicted pages get -/

omit [DecidableEq ι] in
/-- The first device that offers a frame, among devices tried once each. -/
theorem swapDevices_of_offers
    {active device : Fin 4}
    {slot : Nat}
    {mp : Memphy}
    (offers : Offers mem (swapOrder active) device slot mp) :
    ∃ skipped others, swapDevices active = skipped ++ device :: others ∧
      device ∉ others ∧ ∀ earlier ∈ skipped, (mem.mswp earlier).freeFpList.nodes = [] := by
  obtain ⟨skipped, others, order, exhausted⟩ := offers.first
  cases skipped with
  | nil =>
      obtain ⟨rfl, _⟩ := List.cons.inj order
      exact ⟨[], _, rfl, by simp, by simp⟩
  | cons first skipped =>
      obtain ⟨rfl, rest⟩ := List.cons.inj order
      have different : device ≠ active := by
        rintro rfl
        have empty := exhausted device (by simp)
        rw [offers.head] at empty
        cases empty
      have distinct : device ∉ others := by
        have nodup := List.nodup_finRange 4
        rw [rest] at nodup
        exact (List.nodup_cons.mp (List.nodup_append.mp nodup).2.1).1
      refine ⟨active :: skipped.filter (· ≠ active), others.filter (· ≠ active), ?_, ?_, ?_⟩
      · simp [swapDevices, rest, different]
      · intro member
        exact distinct (List.mem_of_mem_filter member)
      · intro earlier member
        rcases List.mem_cons.mp member with rfl | member
        · exact exhausted earlier (by simp)
        · exact exhausted earlier (List.mem_cons_of_mem _ (List.mem_of_mem_filter member))

@[simp] theorem swapSlots_setMm (mem : Mem ι) (caller : ι) (mm : Mm) (proc : ι) :
    swapSlots (mem.setMm caller mm) proc = swapSlots mem proc := by
  simp [swapSlots]

omit [DecidableEq ι] in
/-- An evicted page gets the first of the free swap frames. -/
theorem swapSlots_of_offers
    {device : Fin 4}
    {slot : Nat}
    {mp : Memphy}
    (offers : Offers mem (swapOrder (mem.pcb proc).activeMswp) device slot mp) :
    swapSlots mem proc =
      (device, slot) :: swapSlots (mem.setMswp device mp) proc := by
  obtain ⟨skipped, others, order, notLater, exhausted⟩ := swapDevices_of_offers offers
  have notEarlier : device ∉ skipped := by
    intro member
    have empty := exhausted device member
    rw [offers.head] at empty
    cases empty
  have nothing : ∀ slots : Fin 4 → List (Fin 4 × Nat),
      (∀ earlier ∈ skipped, slots earlier = []) → skipped.flatMap slots = [] :=
    fun slots empty => List.flatMap_eq_nil_iff.mpr empty
  rw [swapSlots, swapSlots, Mem.pcb_setMswp, order,
    List.flatMap_append, List.flatMap_append, List.flatMap_cons, List.flatMap_cons]
  rw [nothing _ fun earlier member => by rw [exhausted earlier member, List.map_nil]]
  rw [nothing _ fun earlier member => by
    have different : earlier ≠ device := by
      rintro rfl
      exact notEarlier member
    rw [Mem.mswp_setMswp_of_ne _ _ different, exhausted earlier member, List.map_nil]]
  rw [offers.head, Mem.mswp_setMswp_self]
  have later : others.flatMap (fun device => (mem.mswp device).freeFpList.nodes.map
        fun slot => (device, slot)) =
      others.flatMap (fun other => ((mem.setMswp device mp).mswp other).freeFpList.nodes.map
        fun slot => (other, slot)) := by
    apply List.flatMap_congr
    intro other member
    have different : other ≠ device := by
      rintro rfl
      exact notLater member
    rw [Mem.mswp_setMswp_of_ne _ _ different]
  rw [later]
  rfl

/-- Taking a frame takes the first of the evictions that are still to come. -/
theorem evictions_of_grabs
    {fpn left : Nat}
    (grabs : Grabs mem proc fpn mem') :
    (mem'.mm proc = mem.mm proc ∧ evictions mem proc (left + 1) = evictions mem' proc left) ∨
      ∃ victim younger, ∃ device : Fin 4, ∃ slot,
        (mem.mm proc).fifoPgn = younger ++ [victim] ∧
        mem'.mm proc = { mem.mm proc with fifoPgn := younger }.setPte victim
          (pteSetSwap ((mem.mm proc).pgd victim) device.val slot) ∧
        evictions mem proc (left + 1) = (victim, device, slot) :: evictions mem' proc left := by
  cases grabs with
  | taken fpn rest head =>
      refine Or.inl ⟨rfl, ?_⟩
      simp only [evictions, head, List.length_cons, Mem.mram_setMram, Mem.mm_setMram,
        Nat.add_sub_add_right]
      rfl
  | evicted victim younger device slot mp full oldest offers _ =>
      refine Or.inr ⟨victim, younger, device, slot, oldest, by simp, ?_⟩
      simp only [evictions, oldest, List.reverse_append, List.reverse_singleton,
        List.singleton_append, full, List.length_nil, Nat.sub_zero, Mem.mram_setMm,
        Mem.mram_setMswp, Mem.mm_setMm_self, Mm.setPte_fifoPgn, swapSlots_setMm]
      rw [swapSlots_of_offers offers, List.zip_cons_cons, List.take_succ_cons]

/-! ## What a growth does to the entries -/

/-- An entry is as before, or its online page has been evicted to a frame with
the same bytes, or it was not present and its page is online. -/
def Rewritten (mram : Memphy) (pte pte' : Pte) : Prop :=
  pte' = pte ∨
    ((onlineFrame pte).isSome ∧ (swapSlot pte').isSome ∧ SameBytes mram pte pte') ∨
    (pagingPagePresent pte = false ∧ (onlineFrame pte').isSome)

/-- The entry of an evicted page is not touched again. -/
theorem Rewritten.eq_of_swapped
    {mram : Memphy}
    {pte pte' : Pte}
    (rewritten : Rewritten mram pte pte')
    (swapped : (swapSlot pte).isSome) :
    pte' = pte := by
  rcases rewritten with same | ⟨online, _⟩ | ⟨absent, _⟩
  · exact same
  · rw [not_online_of_swapped swapped] at online
    cases online
  · rw [(swapSlot_isSome_iff.mp swapped).1] at absent
    cases absent

theorem Rewritten.sameBytes
    {mram : Memphy}
    {pte pte' : Pte}
    (rewritten : Rewritten mram pte pte')
    (swapped : (swapSlot pte').isSome) :
    SameBytes mram pte pte' := by
  rcases rewritten with rfl | ⟨_, _, same⟩ | ⟨_, online⟩
  · exact fun _ _ => rfl
  · exact same
  · rw [not_online_of_swapped swapped] at online
    cases online

/-- A page that is not present can be mapped. -/
theorem Rewritten.mapAbsent
    {mram : Memphy}
    {pte pte' : Pte}
    (rewritten : Rewritten mram pte pte')
    (absent : pagingPagePresent pte' = false)
    (fpn : Nat) :
    Rewritten mram pte (pteSetFpn pte' fpn) := by
  rcases rewritten with rfl | ⟨_, swapped, _⟩ | ⟨_, online⟩
  · exact Or.inr (Or.inr ⟨absent, by simp⟩)
  · rw [(swapSlot_isSome_iff.mp swapped).1] at absent
    cases absent
  · rw [present_of_online online] at absent
    cases absent

/-- Every entry of the process is as at the start of the growth, or rewritten. -/
def AllRewritten (mem : Mem ι) (proc : ι) (state : Mem ι) : Prop :=
  ∀ pgn, Rewritten mem.mram ((mem.mm proc).pgd pgn) ((state.mm proc).pgd pgn)

/-- A state of a growth in front of so many frames: listed pages have the entries they had
at the start, and the evictions to come are faithful. -/
structure Evicting (mem : Mem ι) (proc : ι) (left : Nat) (state : Mem ι) : Prop where
  entries : AllRewritten mem proc state
  listed : ∀ pgn ∈ (state.mm proc).fifoPgn, (state.mm proc).pgd pgn = (mem.mm proc).pgd pgn
  coming : ∀ eviction ∈ evictions state proc left,
    SameBytes mem.mram ((mem.mm proc).pgd eviction.1)
      (pteSetSwap ((mem.mm proc).pgd eviction.1) eviction.2.1.val eviction.2.2)

/-- Taking a frame rewrites the entry of the victim only. -/
theorem Evicting.grab
    {before after : Mem ι}
    {left fpn bound : Nat}
    (evicting : Evicting mem proc (left + 1) before)
    (maps : MapsUpTo (before.mm proc) bound)
    (grabs : Grabs before proc fpn after) :
    Evicting mem proc left after := by
  rcases evictions_of_grabs grabs with ⟨same, rest⟩ |
    ⟨victim, younger, device, slot, oldest, same, rest⟩
  · refine ⟨?_, ?_, ?_⟩
    · intro page
      rw [same]
      exact evicting.entries page
    · rw [same]
      exact evicting.listed
    · rw [← rest]
      exact evicting.coming
  · obtain ⟨online, notYounger, _, _⟩ := maps.victim oldest
    have original : (before.mm proc).pgd victim = (mem.mm proc).pgd victim :=
      evicting.listed victim (by simp [oldest])
    have coming := evicting.coming
    rw [rest] at coming
    refine ⟨?_, ?_, fun eviction member => coming eviction (List.mem_cons_of_mem _ member)⟩
    · intro page
      rw [same]
      by_cases isVictim : page = victim
      · subst isVictim
        rw [Mm.setPte_pgd_self, original]
        rw [original] at online
        exact Or.inr (Or.inl ⟨by rw [online]; rfl, by simp,
          coming (page, device, slot) (by simp)⟩)
      · rw [Mm.setPte_pgd_of_ne _ _ isVictim]
        exact evicting.entries page
    · intro page member
      rw [same] at member ⊢
      have different : page ≠ victim := by
        rintro rfl
        exact notYounger member
      rw [Mm.setPte_pgd_of_ne _ _ different]
      exact evicting.listed page (by simp only [oldest]; exact List.mem_append_left _ member)

/-- Mapping the next page rewrites an entry that is not present. -/
theorem AllRewritten.mapPage
    {before : Mem ι}
    {pgn : Pgn}
    (entries : AllRewritten mem proc before)
    (maps : MapsUpTo (before.mm proc) pgn.val)
    (fpn : Nat) :
    AllRewritten mem proc (before.setMm proc ((before.mm proc).mapPage pgn fpn)) := by
  intro other
  rw [Mem.mm_setMm_self, Mm.mapPage, Mm.enlistPgnNode_pgd]
  by_cases isPage : other = pgn
  · subst isPage
    rw [Mm.setPte_pgd_self]
    exact (entries other).mapAbsent (maps.beyond other (Nat.le_refl _)) fpn
  · rw [Mm.setPte_pgd_of_ne _ _ isPage]
    exact entries other

/-- A growth whose evictions are faithful. -/
theorem grows_rewritten
    {pages : Int}
    (paged : ∀ other, Paged (mem.mm other))
    (fits : FitsIn (mem.mm proc) pages)
    (faithful : EvictsFaithfully mem proc pages.toNat)
    (grows : Grows mem proc pages mem')
    (pgn : Pgn) :
    Rewritten mem.mram ((mem.mm proc).pgd pgn) ((mem'.mm proc).pgd pgn) := by
  have start : ∀ limit, Evicting mem proc pages.toNat
      (mem.setMm proc ((mem.mm proc).setLimits limit limit)) := by
    intro limit
    refine ⟨?_, ?_, ?_⟩
    · intro page
      rw [Mem.mm_setMm_self]
      exact Or.inl rfl
    · intro page _
      rw [Mem.mm_setMm_self]
      rfl
    · intro eviction member
      exact faithful eviction (by simpa [evictions] using member)
  obtain ⟨_, _, mapped | ⟨_, _, before, evicting, givesUp⟩⟩ :=
    Grows.rule (fun left _ state => Evicting mem proc left state)
      (fun _ _ state => AllRewritten mem proc state) paged fits (start _)
      (fun _ _ _ _ _ evicting maps grabs => evicting.grab maps grabs)
      (fun _ _ evicting => evicting.entries)
      (fun _ fpn _ _ entries maps => entries.mapPage maps fpn) grows
  · exact mapped pgn
  · rw [givesUp.frame.2.2.2.1]
    exact evicting.entries pgn

/-! ## Runs -/

/-- Bringing a page in changes the entry of no evicted page. -/
theorem pageIn_untouched
    {pgn : Pgn}
    {vicfpn bound : Nat}
    (maps : MapsUpTo (mem.mm proc) bound)
    (absent : pagingPagePresent ((mem.mm proc).pgd pgn) = false)
    (pageIn : PageIn mem proc pgn vicfpn mem')
    {other : ι}
    {page : Pgn}
    (swapped : (swapSlot ((mem.mm other).pgd page)).isSome) :
    (mem'.mm other).pgd page = (mem.mm other).pgd page := by
  by_cases isCaller : other = proc
  · subst isCaller
    cases pageIn with
    | replaced victim younger slot mp oldest _ _ =>
        have notVictim : page ≠ victim := by
          rintro rfl
          have online := (maps.victim oldest).1
          rw [not_online_of_swapped swapped] at online
          cases online
        have notPage : page ≠ pgn := by
          rintro rfl
          rw [(swapSlot_isSome_iff.mp swapped).1] at absent
          cases absent
        simp [notVictim, notPage]
  · rw [(SameRam.of_pageIn pageIn).others other isCaller]

/-- An access to a page of the area leaves the evicted bytes where they are. -/
theorem getpage_valid
    {pgn : Pgn}
    {fpn : Nat}
    (valid : Valid state)
    (inArea : pgn.val * 256 < (state.mem.mm proc).mmap.vmEnd)
    (accessed : pgGetpage state.mem proc pgn = some (0, mem', some fpn)) :
    Valid ⟨mem', state.evicted⟩ ∧ targetFrame (state.mem.mm proc) pgn = some fpn ∧
      SameRam proc state.mem mem' ∧
      ∀ other page, (swapSlot ((state.mem.mm other).pgd page)).isSome →
        (mem'.mm other).pgd page = (state.mem.mm other).pgd page := by
  obtain ⟨paged, kept⟩ := valid
  rcases (pgGetpage_cases accessed).2 with
    ⟨present, rfl, found⟩ | ⟨absent, vicfpn, pageIn, found⟩
  · cases found
    exact ⟨⟨paged, kept⟩, by simp [targetFrame, present], SameRam.refl _ _, fun _ _ _ => rfl⟩
  · have sameRam := SameRam.of_pageIn pageIn
    have untouched : ∀ other page, (swapSlot ((state.mem.mm other).pgd page)).isSome →
        (mem'.mm other).pgd page = (state.mem.mm other).pgd page :=
      fun _ _ swapped => pageIn_untouched (paged proc).maps absent pageIn swapped
    refine ⟨⟨paged_pageIn paged absent inArea pageIn, ?_⟩, ?_, sameRam, untouched⟩
    · intro other page offst byte inPage recorded
      obtain ⟨swapped, stored⟩ := kept other page offst byte inPage recorded
      change (swapSlot ((mem'.mm other).pgd page)).isSome ∧ _
      rw [untouched other page swapped, sameRam.read]
      exact ⟨swapped, stored⟩
    · cases found
      cases pageIn with
      | replaced victim younger slot mp oldest _ _ =>
          simp [targetFrame, absent, oldest]

theorem quiet_valid
    {mm : Mm}
    (valid : Valid state)
    (same : SamePages (state.mem.mm proc) mm) :
    Valid ⟨state.mem.setMm proc mm, state.evicted⟩ where
  paged := paged_quiet valid.paged same
  kept := by
    intro other page offst byte inPage recorded
    change (swapSlot (((state.mem.setMm proc mm).mm other).pgd page)).isSome ∧ _
    rw [Mem.pgd_setMm_congr same.pgd]
    exact valid.kept other page offst byte inPage recorded

/-- Recording an `ALLOC` whose evictions are faithful. -/
theorem grows_valid
    {pages : Int}
    (valid : Valid state)
    (fits : FitsIn (state.mem.mm proc) pages)
    (faithful : EvictsFaithfully state.mem proc pages.toNat)
    (grows : Grows state.mem proc pages mem') :
    Valid ⟨mem', recordEvicted state proc mem'⟩ := by
  obtain ⟨paged, kept⟩ := valid
  have sameRam := SameRam.of_grows paged fits grows
  have rewritten := grows_rewritten paged fits faithful grows
  have stillPaged : ∀ other, Paged (mem'.mm other) :=
    (Grows.rule (fun _ _ _ => True) (fun _ _ _ => True) paged fits trivial
      (fun _ _ _ _ _ _ _ _ => trivial) (fun _ _ _ => trivial)
      (fun _ _ _ _ _ _ => trivial) grows).1
  refine ⟨stillPaged, ?_⟩
  intro other page offst byte inPage recorded
  dsimp only at recorded ⊢
  rw [sameRam.read]
  unfold recordEvicted at recorded
  split at recorded
  · -- evicted just now
    rename_i evicted
    obtain ⟨rfl, _, swapped⟩ := evicted
    refine ⟨swapped, ?_⟩
    rw [← recorded]
    exact (rewritten page).sameBytes swapped offst inPage
  · obtain ⟨swapped, stored⟩ := kept other page offst byte inPage recorded
    by_cases isCaller : other = proc
    · subst isCaller
      rw [(rewritten page).eq_of_swapped swapped]
      exact ⟨swapped, stored⟩
    · rw [sameRam.others other isCaller]
      exact ⟨swapped, stored⟩

/-- Without a growth an `ALLOC` records nothing. -/
theorem recordEvicted_of_samePgd
    (samePgd : (mem'.mm proc).pgd = (state.mem.mm proc).pgd) :
    recordEvicted state proc mem' = state.evicted := by
  funext other page offst
  unfold recordEvicted
  split
  · rename_i evicted
    obtain ⟨_, online, swapped⟩ := evicted
    rw [samePgd] at swapped
    rw [not_online_of_swapped swapped] at online
    cases online
  · rfl

/-- What recording a `WRITE` leaves. -/
theorem recordWritten_apply
    {rgid offset : Nat}
    {index : Fin 30}
    (slot : toInt rgid = index.val)
    (other : ι)
    (page : Pgn)
    (offst : Nat) :
    recordWritten state proc rgid offset other page offst =
      if other = proc ∧
          page = pagingPgn (accessAddr ((state.mem.mm proc).symrgtbl index) (toInt offset)) ∧
          offst = pagingOffst (accessAddr ((state.mem.mm proc).symrgtbl index) (toInt offset)) then
        none
      else
        state.evicted other page offst := by
  rw [recordWritten, symrgIndex_eq_some_iff.mpr slot, Option.elim_some]

/-- Recording a `WRITE` that spares the other evicted bytes. -/
theorem write_valid
    {fpn rgid offset : Nat}
    {index : Fin 30}
    {addr : Int}
    {data : Byte}
    {middle : Mem ι}
    {mram : Memphy}
    (slot : toInt rgid = index.val)
    (isAddr : addr = accessAddr ((state.mem.mm proc).symrgtbl index) (toInt offset))
    (valid : Valid state)
    (middleValid : Valid ⟨middle, state.evicted⟩)
    (target : targetFrame (state.mem.mm proc) (pagingPgn addr) = some fpn)
    (sameRam : SameRam proc state.mem middle)
    (untouched : ∀ other page, (swapSlot ((state.mem.mm other).pgd page)).isSome →
      (middle.mm other).pgd page = (state.mem.mm other).pgd page)
    (spares : SparesEvicted state proc data addr)
    (written : memphyWrite middle.mram (pagingPhyaddr fpn (pagingOffst addr)) data =
      some mram) :
    Valid ⟨middle.setMram mram, recordWritten state proc rgid offset⟩ := by
  refine ⟨middleValid.paged, ?_⟩
  intro other page offst byte inPage recorded
  dsimp only at recorded ⊢
  rw [recordWritten_apply slot, ← isAddr] at recorded
  rw [Mem.mm_setMram, Mem.mram_setMram]
  split at recorded
  · cases recorded
  · rename_i elsewhere
    obtain ⟨swapped, stored⟩ := middleValid.kept other page offst byte inPage recorded
    refine ⟨swapped, ?_⟩
    obtain ⟨random, inBounds, value⟩ := memphyRead_eq_some_iff.mp stored
    obtain ⟨onlyStorage, ⟨_, _, updated⟩ | ⟨sequential, _⟩⟩ := memphyWrite_cases written
    · rw [memphyRead_eq_some_iff, onlyStorage]
      refine ⟨random, inBounds, ?_⟩
      change mram.storage (pagingPhyaddr (pagingFpn ((middle.mm other).pgd page)) offst) = byte
      rw [updated]
      by_cases hit : pagingPhyaddr (pagingFpn ((middle.mm other).pgd page)) offst =
          pagingPhyaddr fpn (pagingOffst addr)
      · -- another evicted byte is decoded to the written cell, which has the value
        obtain ⟨sameFrame, rfl⟩ := pagingPhyaddr_injective inPage (pagingOffst_lt addr) hit
        obtain ⟨wasSwapped, _⟩ := valid.kept other page _ byte inPage recorded
        have below : page.val < (state.mem.mm other).mmap.vmEnd / 256 := by
          by_contra outside
          have absent := (valid.paged other).maps.beyond page (Nat.le_of_not_lt outside)
          rw [(swapSlot_isSome_iff.mp wasSwapped).1] at absent
          cases absent
        rw [untouched other page wasSwapped] at sameFrame
        have has := spares fpn target other page below (by rw [recorded]; rfl)
          (fun same => elsewhere ⟨same.1, same.2, rfl⟩) sameFrame
        rw [hit, Function.update_self, ← value]
        change data = middle.mram.storage _
        rw [hit, sameRam.storage, has]
      · rw [Function.update_of_ne hit]
        exact value
    · exact absurd (sequential.symm.trans random) (by decide)

/-- An instruction that meets the condition keeps the invariant. -/
theorem valid_step
    {event : Event ι}
    (valid : Valid state)
    (faithful : Faithful state event)
    (taken : step state event = some next) :
    Valid next := by
  obtain ⟨proc, inst⟩ := event
  unfold step at taken
  split at taken
  · cases taken
  rename_i after ran
  cases inst with
  | alloc size regIndex =>
      cases taken
      obtain ⟨middle, mm, rfl, same, rfl | ⟨pages, growing, grows⟩⟩ := run_alloc_pages ran
      · have nothing := recordEvicted_of_samePgd (Mem.pgd_setMm_congr same.pgd proc)
        rw [nothing]
        exact quiet_valid valid same
      · obtain ⟨fits, evicts⟩ := faithful pages growing
        have grown := grows_valid valid fits evicts grows
        have recorded : recordEvicted state proc (middle.setMm proc mm) =
            recordEvicted state proc middle := by
          funext other page offst
          rw [recordEvicted, recordEvicted, Mem.pgd_setMm_congr same.pgd]
        rw [recorded]
        exact quiet_valid grown same
  | free regIndex =>
      cases taken
      obtain ⟨mm, rfl, same⟩ := run_free_pages ran
      exact quiet_valid valid same
  | read source offset =>
      cases taken
      rcases run_read_cases ran with ⟨_, rfl⟩ | ⟨index, slot, rc, byte, got⟩
      · exact valid
      · obtain ⟨fpn, _, accessed, _, _, _⟩ := pgGetval_cases got
        have inArea := faithful index (symrgIndex_eq_some_iff.mpr slot)
        exact (getpage_valid valid inArea accessed).1
  | write data destination offset =>
      simp only [Option.some.injEq] at taken
      subst taken
      rcases run_write_cases ran with ⟨invalid, rfl⟩ | ⟨index, slot, rc, set⟩
      · have noIndex : symrgIndex (toInt destination) = none := by
          unfold symrgIndex
          rw [dif_neg]
          omega
        have nothing : recordWritten state proc destination offset = state.evicted := by
          rw [recordWritten, noIndex, Option.elim_none]
        rw [nothing]
        exact valid
      · obtain ⟨fpn, middle, mram, accessed, written, _, rfl⟩ := pgSetval_cases set
        obtain ⟨areaKept, spares⟩ := faithful
        have inArea := areaKept index (symrgIndex_eq_some_iff.mpr slot)
        obtain ⟨middleValid, target, sameRam, untouched⟩ :=
          getpage_valid valid inArea accessed
        exact write_valid slot rfl valid middleValid target sameRam untouched
          (spares index (symrgIndex_eq_some_iff.mpr slot)) written

/-- Along every run whose instructions meet the condition, reading an evicted
byte returns what it was just before the eviction. -/
theorem eviction_transparent
    {first last : State ι}
    (start : Start first)
    (run : Run step Faithful first last) :
    Transparent last :=
  transparent_of_valid
    (run.invariant Valid (fun _ _ _ valid faithful taken => valid_step valid faithful taken)
      (valid_of_start start))

/-- One process, a RAM of two frames and swap devices of four frames. -/
def twoFrames : State (Fin 1) where
  mem :=
    { mram := initMemphy 512 true
      mswp := fun _ => initMemphy 1024 true
      pcb := fun _ => Pcb.fresh }
  evicted := fun _ _ _ => none

theorem twoFrames_start : Start twoFrames where
  fresh := fun _ => noPages_initMm (fun _ => show pagingPagePresent 0 = false by decide) rfl
  nothing := fun _ _ _ => rfl

/-- Page 0 is in frame 0 and is evicted to swap frame 0 of device 0, whose entry is
decoded to frame 0.  The byte written before is still read. -/
theorem eviction_transparent_sameFrame :
    ∃ last, replay step twoFrames
        [⟨0, .alloc 256 0⟩, ⟨0, .write 7 0 3⟩, ⟨0, .alloc 256 1⟩, ⟨0, .alloc 256 2⟩] =
          some last ∧
      last.evicted 0 0 3 = some 7 ∧ Transparent last := by
  obtain ⟨last, reaches, recorded⟩ := exists_of_evaluated
    (show (replay step twoFrames
      [⟨0, .alloc 256 0⟩, ⟨0, .write 7 0 3⟩, ⟨0, .alloc 256 1⟩, ⟨0, .alloc 256 2⟩]).map
        (fun last => decide (last.evicted 0 0 3 = some 7)) = some true by decide +kernel)
  exact ⟨last, reaches, recorded, eviction_transparent twoFrames_start
    (Run.of_replay _ _ (by decide +kernel) reaches)⟩

/-- Page 0 is in frame 1 and page 1 in frame 0 when page 0 is evicted to swap frame
0 of device 0: its byte 7 is read from frame 0 as 0. -/
theorem evicted_byte_lost :
    ∃ last, replay step twoFrames
        [⟨0, .alloc 512 0⟩, ⟨0, .write 7 0 0⟩, ⟨0, .alloc 256 1⟩] = some last ∧
      last.evicted 0 0 0 = some 7 ∧ (libread last.mem 0 0 0).map (·.1) = some 0 ∧
      ¬ Transparent last := by
  obtain ⟨last, reaches, recorded, returned, present, stored⟩ := exists_of_evaluated
    (show (replay step twoFrames
      [⟨0, .alloc 512 0⟩, ⟨0, .write 7 0 0⟩, ⟨0, .alloc 256 1⟩]).map
        (fun last => decide (last.evicted 0 0 0 = some 7 ∧
          (libread last.mem 0 0 0).map (·.1) = some 0 ∧
          pagingPagePresent ((last.mem.mm 0).pgd (pagingPgn 0)) = true ∧
          memphyRead last.mem.mram (last.mem.cell 0 0) ≠ some 7)) = some true
      by decide +kernel)
  refine ⟨last, reaches, recorded, returned, ?_⟩
  intro transparent
  exact stored (cell_of_pgGetval present (transparent 0 0 7 recorded)).2

end Eviction

end Memory
end Ossim
