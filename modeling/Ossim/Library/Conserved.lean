import Mathlib.Logic.Function.Basic

/-!
# Conserved resources

Every resource is spare or held by an active holder, who holds at most one.  A
holder may exchange what it holds as long as both the old and the spare
resources find a place, and a holder may become inactive once it holds nothing.
-/

namespace Ossim

variable {H R : Type*}

/-- Every resource is spare or held by an active holder. -/
def Conserved (all : R → Prop) (active : H → Prop) (holding : H → Option R)
    (spare : R → Prop) : Prop :=
  ∀ resource, all resource →
    spare resource ∨ ∃ holder, active holder ∧ holding holder = some resource

namespace Conserved

variable {all spare spare' : R → Prop} {active active' : H → Prop} {holding : H → Option R}

/-- All resources are spare. -/
theorem of_spare
    (allSpare : ∀ resource, all resource → spare resource) :
    Conserved all active holding spare :=
  fun resource inAll => Or.inl (allSpare resource inAll)

/-- More resources are spare. -/
theorem mono
    (conserved : Conserved all active holding spare)
    (more : ∀ resource, spare resource → spare' resource) :
    Conserved all active holding spare' :=
  fun resource inAll => (conserved resource inAll).imp_left (more resource)

/-- Holders without a resource become inactive. -/
theorem retire
    (conserved : Conserved all active holding spare)
    (nothing : ∀ holder, active holder → active' holder ∨ holding holder = none) :
    Conserved all active' holding spare := by
  intro resource inAll
  apply (conserved resource inAll).imp_right
  rintro ⟨holder, isActive, holds⟩
  refine ⟨holder, (nothing holder isActive).resolve_right fun empty => ?_, holds⟩
  rw [empty] at holds
  cases holds

/-- An active holder takes `value` in place of what it held.  Each spare resource
stays spare or is the one that is taken, and so does the one given away. -/
theorem exchange
    [DecidableEq H]
    (conserved : Conserved all active holding spare)
    {holder : H}
    {value : Option R}
    (isActive : active holder)
    (spares : ∀ resource, spare resource → spare' resource ∨ value = some resource)
    (returned : ∀ resource, holding holder = some resource →
      spare' resource ∨ value = some resource) :
    Conserved all active (Function.update holding holder value) spare' := by
  have placed : ∀ resource, spare' resource ∨ value = some resource →
      spare' resource ∨
        ∃ other, active other ∧ Function.update holding holder value other = some resource := by
    intro resource place
    apply place.imp_right
    intro taken
    exact ⟨holder, isActive, by rw [Function.update_self, taken]⟩
  intro resource inAll
  rcases conserved resource inAll with isSpare | ⟨other, otherActive, holds⟩
  · exact placed resource (spares resource isSpare)
  · by_cases same : other = holder
    · subst same
      exact placed resource (returned resource holds)
    · exact Or.inr ⟨other, otherActive, by rwa [Function.update_of_ne same]⟩

end Conserved
end Ossim
