import Mathlib.Logic.Function.Basic

/-!
# Write logs

A log lists writes to addresses, the newest first.  It stands for the memory in
which every address holds what was last written there, or a default.
-/

namespace Ossim
namespace WriteLog

variable {A V : Type*} [DecidableEq A]

/-- The value most recently written at an address, or the default. -/
def lastWritten (default : V) (writes : List (A × V)) (addr : A) : V :=
  ((writes.find? fun write => write.1 = addr).map (·.2)).getD default

@[simp] theorem lastWritten_nil (default : V) (addr : A) :
    lastWritten default [] addr = default := rfl

/-- A write updates one address. -/
theorem lastWritten_cons
    (default : V)
    (writes : List (A × V))
    (addr : A)
    (value : V) :
    lastWritten default ((addr, value) :: writes) =
      Function.update (lastWritten default writes) addr value := by
  funext other
  by_cases same : other = addr
  · subst same
    simp [lastWritten]
  · have different : ¬ addr = other := fun isAddr => same isAddr.symm
    simp [lastWritten, same, different]

end WriteLog
end Ossim
