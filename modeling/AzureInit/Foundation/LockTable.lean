import Mathlib.Logic.Function.Basic

/-! Shared and exclusive locks of several domains, each held until it is given up:
whoever holds a domain exclusively is the only holder of it. -/

set_option autoImplicit false

namespace AzureInit.Foundation

inductive LockMode where
  | shared
  | exclusive
  deriving DecidableEq, Repr

/-- Whether a lock can be had next to one that somebody else holds. -/
def LockMode.compatible : LockMode → Option LockMode → Bool
  | _, none => true
  | .shared, some .shared => true
  | _, _ => false

/-- The locks that one holder has, by domain. -/
abbrev Locks (Domain : Type) : Type := Domain → Option LockMode

def noLocks {Domain : Type} : Locks Domain := fun _ => none

/-- No one shares a domain with a holder that has it exclusively. -/
def LocksExclude {Holder Domain : Type} (table : Holder → Locks Domain) : Prop :=
  ∀ holder other : Holder, holder ≠ other → ∀ domain : Domain,
    table holder domain = some .exclusive → table other domain = none

section

variable {Holder Domain : Type} {table : Holder → Locks Domain}

theorem locksExclude_noLocks : LocksExclude fun _ : Holder => (noLocks : Locks Domain) :=
  fun _ _ _ _ _ => rfl

variable [DecidableEq Holder]

/-- A lock that is compatible with all others keeps them apart. -/
theorem LocksExclude.acquire [DecidableEq Domain] (exclude : LocksExclude table) {holder : Holder}
    {domain : Domain} {mode : LockMode}
    (granted : ∀ other, other ≠ holder → mode.compatible (table other domain) = true) :
    LocksExclude (Function.update table holder
      (Function.update (table holder) domain (some mode))) := by
  intro first second different asked exclusively
  by_cases isFirst : first = holder
  · subst isFirst
    rw [Function.update_of_ne different.symm]
    rw [Function.update_self] at exclusively
    by_cases here : asked = domain
    · subst here
      rw [Function.update_self] at exclusively
      have free := granted second different.symm
      rw [Option.some.inj exclusively] at free
      cases held : table second asked with
      | none => rfl
      | some mode => rw [held] at free; cases mode <;> cases free
    · rw [Function.update_of_ne here] at exclusively
      exact exclude first second different asked exclusively
  · rw [Function.update_of_ne isFirst] at exclusively
    by_cases isSecond : second = holder
    · subst isSecond
      rw [Function.update_self]
      by_cases here : asked = domain
      · subst here
        have free := granted first different
        rw [exclusively] at free
        cases mode <;> cases free
      · rw [Function.update_of_ne here]
        exact exclude first second different asked exclusively
    · rw [Function.update_of_ne isSecond]
      exact exclude first second different asked exclusively

/-- Giving locks up keeps the others apart. -/
theorem LocksExclude.release (exclude : LocksExclude table) {holder : Holder}
    {left : Locks Domain} (fewer : ∀ domain, left domain = none ∨ left domain = table holder domain) :
    LocksExclude (Function.update table holder left) := by
  intro first second different asked exclusively
  by_cases isFirst : first = holder
  · subst isFirst
    rw [Function.update_of_ne different.symm]
    rw [Function.update_self] at exclusively
    cases fewer asked with
    | inl none => rw [none] at exclusively; cases exclusively
    | inr same => exact exclude first second different asked (same ▸ exclusively)
  · rw [Function.update_of_ne isFirst] at exclusively
    by_cases isSecond : second = holder
    · subst isSecond
      rw [Function.update_self]
      cases fewer asked with
      | inl none => exact none
      | inr same => rw [same]; exact exclude first second different asked exclusively
    · rw [Function.update_of_ne isSecond]
      exact exclude first second different asked exclusively

end

end AzureInit.Foundation
