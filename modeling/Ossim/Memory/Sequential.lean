import Ossim.Memory.Memphy

/-!
# Sequential and random access

The accesses of `mm-memphy.c` with their return codes and the cursor of a
sequential device.  The mode check of `MEMPHY_seq_read` and `MEMPHY_seq_write`
lets only a random-access device pass, and these functions are called for the
others only: no access to a sequential device is ever served.
-/

namespace Ossim
namespace Memory

/-- `struct memphy_struct` with the field `cursor`. -/
structure CursorDevice extends Memphy where
  cursor : Nat

/-- A call of `MEMPHY_read` or `MEMPHY_write`. -/
inductive MemphyCall
  | read (addr : Nat)
  | write (addr : Nat) (data : Byte)
  deriving DecidableEq

/-- The address of an access. -/
def MemphyCall.addr : MemphyCall → Nat
  | .read addr => addr
  | .write addr _ => addr

/-- The return code of an access and the byte it assigns to `*value`, if any. -/
structure Reply where
  code : Int
  value : Option Byte
  deriving DecidableEq

/-- The loop of `MEMPHY_mv_csr`: the cursor at its end. -/
def mvCsrLoop (maxsz offset numstep cursor : Nat) : Nat :=
  if numstep < offset ∧ numstep < maxsz then
    mvCsrLoop maxsz offset (numstep + 1) ((cursor + 1) % maxsz)
  else
    cursor
termination_by maxsz - numstep

namespace CursorDevice

/-- `MEMPHY_mv_csr` -/
def mvCsr (mp : CursorDevice) (offset : Nat) : CursorDevice :=
  { mp with cursor := mvCsrLoop mp.maxsz offset 0 0 }

/-- `MEMPHY_seq_read`; outside the storage the access is undefined behaviour. -/
def seqRead (mp : CursorDevice) (addr : Nat) : Option (Reply × CursorDevice) :=
  if !mp.rdmflg then
    some (⟨-1, none⟩, mp)
  else
    let mp := mp.mvCsr addr
    if addr < mp.maxsz then
      some (⟨0, some (mp.storage addr)⟩, mp)
    else
      none

/-- `MEMPHY_read` -/
def read (mp : CursorDevice) (addr : Nat) : Option (Reply × CursorDevice) :=
  if mp.rdmflg then
    if addr < mp.maxsz then
      some (⟨0, some (mp.storage addr)⟩, mp)
    else
      none
  else
    mp.seqRead addr

/-- `MEMPHY_seq_write` -/
def seqWrite (mp : CursorDevice) (addr : Nat) (value : Byte) : Option (Reply × CursorDevice) :=
  if !mp.rdmflg then
    some (⟨-1, none⟩, mp)
  else
    let mp := mp.mvCsr addr
    if addr < mp.maxsz then
      some (⟨0, none⟩, { mp with storage := Function.update mp.storage addr value })
    else
      none

/-- `MEMPHY_write` -/
def write (mp : CursorDevice) (addr : Nat) (data : Byte) : Option (Reply × CursorDevice) :=
  if mp.rdmflg then
    if addr < mp.maxsz then
      some (⟨0, none⟩, { mp with storage := Function.update mp.storage addr data })
    else
      none
  else
    mp.seqWrite addr data

/-- One access. -/
def access (mp : CursorDevice) : MemphyCall → Option (Reply × CursorDevice)
  | .read addr => mp.read addr
  | .write addr data => mp.write addr data

/-- A sequence of accesses: their replies and the device at the end. -/
def serve : CursorDevice → List MemphyCall → Option (List Reply × CursorDevice)
  | mp, [] => some ([], mp)
  | mp, access :: accesses => do
      let (reply, mp) ← mp.access access
      let (replies, mp) ← mp.serve accesses
      some (reply :: replies, mp)

/-- A device after `init_memphy`, with the cursor anywhere. -/
def initial (maxSize : Nat) (randomflg : Bool) (cursor : Nat) : CursorDevice :=
  { initMemphy maxSize randomflg with cursor := cursor }

/-- What the caller of a sequence of accesses can tell: the replies and the
storage at the end. -/
def observed (served : Option (List Reply × CursorDevice)) : Option (List Reply × (Nat → Byte)) :=
  served.map fun (replies, mp) => (replies, mp.storage)

variable {mp : CursorDevice}

/-! ## The cursor -/

/-- A step of the loop of `MEMPHY_mv_csr` keeps the cursor at the number of the
steps made. -/
theorem mvCsrLoop_of_lt
    {maxsz offset numstep : Nat}
    (inRange : offset < maxsz)
    (before : numstep ≤ offset) :
    mvCsrLoop maxsz offset numstep numstep = offset := by
  induction steps : offset - numstep generalizing numstep with
  | zero =>
      have arrived : numstep = offset := by omega
      subst arrived
      rw [mvCsrLoop, if_neg (by omega)]
  | succ steps inductionHypothesis =>
      have wrapped : (numstep + 1) % maxsz = numstep + 1 := Nat.mod_eq_of_lt (by omega)
      rw [mvCsrLoop, if_pos (by omega), wrapped]
      exact inductionHypothesis (by omega) (by omega)

/-- `MEMPHY_mv_csr` moves the cursor to an address of the device, wherever it
stood. -/
theorem mvCsr_of_lt
    {offset : Nat}
    (inRange : offset < mp.maxsz) :
    mp.mvCsr offset = { mp with cursor := offset } := by
  rw [mvCsr, mvCsrLoop_of_lt inRange (Nat.zero_le offset)]

/-- Past the mode check the sequential read is the direct one. -/
theorem seqRead_of_random
    (random : mp.rdmflg = true)
    {addr : Nat}
    (inRange : addr < mp.maxsz) :
    mp.seqRead addr = some (⟨0, some (mp.storage addr)⟩, { mp with cursor := addr }) := by
  simp [seqRead, random, mvCsr_of_lt inRange, inRange]

/-- Past the mode check the sequential write is the direct one. -/
theorem seqWrite_of_random
    (random : mp.rdmflg = true)
    {addr : Nat}
    (inRange : addr < mp.maxsz)
    (value : Byte) :
    mp.seqWrite addr value =
      some (⟨0, none⟩,
        { mp with
          storage := Function.update mp.storage addr value
          cursor := addr }) := by
  simp [seqWrite, random, mvCsr_of_lt inRange, inRange]

/-! ## Accesses of the two modes -/

/-- The device without its return codes is the one of the other modules. -/
theorem read_memphy
    (mp : CursorDevice)
    (addr : Nat) :
    ((mp.read addr).bind fun served => served.1.value) = memphyRead mp.toMemphy addr := by
  unfold read memphyRead seqRead
  cases random : mp.rdmflg with
  | true => by_cases inRange : addr < mp.maxsz <;> simp [inRange]
  | false => simp

theorem write_memphy
    (mp : CursorDevice)
    (addr : Nat)
    (data : Byte) :
    (mp.write addr data).map (fun served => served.2.toMemphy) =
      memphyWrite mp.toMemphy addr data := by
  unfold write memphyWrite seqWrite
  cases random : mp.rdmflg with
  | true => by_cases inRange : addr < mp.maxsz <;> simp [inRange]
  | false => simp

/-- A sequential device refuses every access and stays as it is. -/
theorem access_sequential
    (sequential : mp.rdmflg = false)
    (access : MemphyCall) :
    mp.access access = some (⟨-1, none⟩, mp) := by
  cases access with
  | read addr => simp [CursorDevice.access, read, seqRead, sequential]
  | write addr data => simp [CursorDevice.access, write, seqWrite, sequential]

/-- A random-access device serves every access in range, and stays one of its
size. -/
theorem access_random
    (random : mp.rdmflg = true)
    {access : MemphyCall}
    (inRange : access.addr < mp.maxsz) :
    ∃ reply next, mp.access access = some (reply, next) ∧ reply.code = 0 ∧
      next.rdmflg = true ∧ next.maxsz = mp.maxsz := by
  cases access with
  | read addr =>
      have below : addr < mp.maxsz := inRange
      exact ⟨⟨0, some (mp.storage addr)⟩, mp, by simp [CursorDevice.access, read, random, below],
        rfl, random, rfl⟩
  | write addr data =>
      have below : addr < mp.maxsz := inRange
      exact ⟨⟨0, none⟩, { mp with storage := Function.update mp.storage addr data },
        by simp [CursorDevice.access, write, random, below], rfl, random, rfl⟩

/-- A sequential device answers a whole sequence with failures. -/
theorem serve_sequential
    (sequential : mp.rdmflg = false)
    (accesses : List MemphyCall) :
    mp.serve accesses = some (List.replicate accesses.length ⟨-1, none⟩, mp) := by
  induction accesses with
  | nil => rfl
  | cons access accesses inductionHypothesis =>
      simp [serve, access_sequential sequential access, inductionHypothesis,
        List.replicate_succ]

/-- A random-access device answers a whole sequence in range with successes. -/
theorem serve_random
    (random : mp.rdmflg = true)
    {accesses : List MemphyCall}
    (inRange : ∀ access ∈ accesses, access.addr < mp.maxsz) :
    ∃ replies last, mp.serve accesses = some (replies, last) ∧
      replies.length = accesses.length ∧ ∀ reply ∈ replies, reply.code = 0 := by
  induction accesses generalizing mp with
  | nil => exact ⟨[], mp, rfl, rfl, by simp⟩
  | cons access accesses inductionHypothesis =>
      obtain ⟨reply, next, first, success, stillRandom, sameSize⟩ :=
        access_random random (inRange access (List.mem_cons_self ..))
      have inRange' : ∀ access ∈ accesses, access.addr < next.maxsz := by
        intro other member
        rw [sameSize]
        exact inRange other (List.mem_cons_of_mem _ member)
      obtain ⟨replies, last, others, length, successes⟩ :=
        inductionHypothesis stillRandom inRange'
      refine ⟨reply :: replies, last, ?_, by simp [length], ?_⟩
      · simp [serve, first, others]
      · intro given member
        rcases List.mem_cons.mp member with rfl | later
        · exact success
        · exact successes given later

/-- A device initialised as sequential agrees with one initialised for random
access exactly while nothing is accessed. -/
theorem sequential_agrees_iff
    (maxSize cursor cursor' : Nat)
    (accesses : List MemphyCall)
    (inRange : ∀ access ∈ accesses, access.addr < maxSize) :
    observed ((initial maxSize false cursor).serve accesses) =
        observed ((initial maxSize true cursor').serve accesses) ↔
      accesses = [] := by
  have sequential : (initial maxSize false cursor).rdmflg = false := initMemphy_rdmflg _ _
  have random : (initial maxSize true cursor').rdmflg = true := initMemphy_rdmflg _ _
  have size : (initial maxSize true cursor').maxsz = maxSize := initMemphy_maxsz _ _
  have inRange' : ∀ access ∈ accesses, access.addr < (initial maxSize true cursor').maxsz := by
    rwa [size]
  constructor
  · intro agree
    obtain ⟨replies, last, served, length, successes⟩ :=
      serve_random random inRange'
    rw [serve_sequential sequential, served] at agree
    simp only [observed, Option.map_some, Option.some.injEq, Prod.mk.injEq] at agree
    cases accesses with
    | nil => rfl
    | cons access accesses =>
        have failed : (⟨-1, none⟩ : Reply) ∈ replies := by
          rw [← agree.1]
          exact List.mem_replicate.mpr ⟨by simp, rfl⟩
        exact absurd (successes _ failed) (by decide)
  · rintro rfl
    have zero : ∀ randomflg cursor, (initial maxSize randomflg cursor).storage = fun _ => 0 := by
      intro randomflg cursor
      funext addr
      exact initMemphy_storage maxSize randomflg addr
    simp [observed, serve, zero]

/-- Two devices of sixteen bytes tell a write and a read apart. -/
theorem sequential_agrees_iff_written :
    observed ((initial 16 false 5).serve [.write 3 65, .read 3]) ≠
      observed ((initial 16 true 0).serve [.write 3 65, .read 3]) := by
  intro agree
  have idle := (sequential_agrees_iff 16 5 0 [.write 3 65, .read 3]
    (by simp [MemphyCall.addr])).mp agree
  cases idle

/-- The byte written to a sequential device is refused and cannot be read back. -/
theorem sequential_write_refused :
    ¬ ∀ (maxSize cursor cursor' : Nat) (accesses : List MemphyCall),
      (∀ access ∈ accesses, access.addr < maxSize) →
      observed ((initial maxSize false cursor).serve accesses) =
        observed ((initial maxSize true cursor').serve accesses) := by
  intro agree
  have replies := congrArg (Option.map Prod.fst)
    (agree 16 0 0 [.write 3 65, .read 3] (by simp [MemphyCall.addr]))
  revert replies
  decide

end CursorDevice

end Memory
end Ossim
