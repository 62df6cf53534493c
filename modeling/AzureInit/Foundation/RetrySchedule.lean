import Mathlib.Data.Nat.Find

/-! Attempts that are made again behind a pause, until one is decisive or a deadline passes. -/

set_option autoImplicit false

namespace AzureInit.Foundation.Retry

section Opens

variable (latency : Nat → Nat) (pause : Nat)

/-- When an attempt begins, counted from the first one, if all before it are made again. -/
def opens (clock first : Nat) : Nat → Nat
  | 0 => clock
  | count + 1 => opens clock first count + latency (first + count) + pause

theorem opens_append (clock first front count : Nat) :
    opens latency pause (opens latency pause clock first front) (first + front) count =
      opens latency pause clock first (front + count) := by
  induction count with
  | zero => rfl
  | succ count ih =>
      rw [opens, ih, Nat.add_assoc first]
      rfl

theorem opens_add (clock shift first count : Nat) :
    opens latency pause (clock + shift) first count =
      opens latency pause clock first count + shift := by
  induction count with
  | zero => rfl
  | succ count ih =>
      rw [opens, ih, opens]
      omega

theorem clock_le_opens (clock first count : Nat) :
    clock + count * pause ≤ opens latency pause clock first count := by
  induction count with
  | zero => rw [opens, Nat.zero_mul, Nat.add_zero]
  | succ count ih =>
      rw [opens, Nat.add_mul, Nat.one_mul]
      omega

/-- An attempt is behind the ends of the pauses before it. -/
theorem opens_le_of_lt (clock first : Nat) {count other : Nat} (less : count < other) :
    opens latency pause clock first count + latency (first + count) + pause ≤
      opens latency pause clock first other := by
  obtain ⟨behind, rfl⟩ := Nat.exists_eq_add_of_lt less
  have shape : count + behind + 1 = (count + 1) + behind := by omega
  rw [shape, ← opens_append]
  exact Nat.le_trans (Nat.le_add_right _ _) (clock_le_opens latency pause _ _ behind)

end Opens

/-- The attempt that decides: the first that is not made again, answered in time. -/
structure Decided (latency : Nat → Nat) (pause : Nat) (Retried : Nat → Prop)
    (clock first deadline count : Nat) : Prop where
  earlier : ∀ before < count, Retried (first + before)
  decisive : ¬ Retried (first + count)
  inTime : opens latency pause clock first count + latency (first + count) ≤ deadline

section Facts

variable {latency : Nat → Nat} {pause : Nat} {Retried : Nat → Prop}
  {clock first deadline count other : Nat}

theorem Decided.unique (decided : Decided latency pause Retried clock first deadline count)
    (again : Decided latency pause Retried clock first deadline other) : count = other := by
  rcases Nat.lt_trichotomy count other with before | same | behind
  · exact absurd (again.earlier count before) decided.decisive
  · exact same
  · exact absurd (decided.earlier other behind) again.decisive

theorem decided_zero_iff : Decided latency pause Retried clock first deadline 0 ↔
    ¬ Retried first ∧ clock + latency first ≤ deadline := by
  constructor
  · intro decided
    exact ⟨decided.decisive, decided.inTime⟩
  · intro stops
    exact ⟨nofun, stops.1, stops.2⟩

theorem decided_append_iff (front : Nat) :
    Decided latency pause Retried clock first deadline (front + count) ↔
      (∀ before < front, Retried (first + before)) ∧
      Decided latency pause Retried (opens latency pause clock first front) (first + front) deadline
        count := by
  constructor
  · intro decided
    obtain ⟨earlier, decisive, inTime⟩ := decided
    refine ⟨fun before less => earlier before (by omega), ?_, ?_, ?_⟩
    · intro before less
      rw [Nat.add_assoc]
      exact earlier (front + before) (by omega)
    · rwa [Nat.add_assoc]
    · rwa [opens_append, Nat.add_assoc]
  · intro split
    obtain ⟨retried, earlier, decisive, inTime⟩ := split
    rw [Nat.add_assoc] at decisive
    rw [opens_append, Nat.add_assoc] at inTime
    refine ⟨fun before less => ?_, decisive, inTime⟩
    rcases Nat.lt_or_ge before front with within | behind
    · exact retried before within
    · obtain ⟨rest, rfl⟩ := Nat.exists_eq_add_of_le behind
      rw [← Nat.add_assoc]
      exact earlier rest (by omega)

theorem decided_succ_iff : Decided latency pause Retried clock first deadline (count + 1) ↔
    Retried first ∧ Decided latency pause Retried (clock + latency first + pause) (first + 1)
      deadline count := by
  rw [Nat.add_comm, decided_append_iff]
  simp only [Nat.lt_one_iff, forall_eq, Nat.add_zero]
  rfl

theorem decided_add_iff (shift : Nat) :
    Decided latency pause Retried (clock + shift) first (deadline + shift) count ↔
      Decided latency pause Retried clock first deadline count := by
  constructor
  · intro decided
    have inTime := decided.inTime
    rw [opens_add] at inTime
    exact ⟨decided.earlier, decided.decisive, by omega⟩
  · intro decided
    have inTime := decided.inTime
    refine ⟨decided.earlier, decided.decisive, ?_⟩
    rw [opens_add]
    omega

/-- An attempt that begins behind the deadline is none that decides. -/
theorem not_decided_of_late (late : deadline < clock) :
    ¬ Decided latency pause Retried clock first deadline count := by
  intro decided
  have inTime := decided.inTime
  have behind := clock_le_opens latency pause clock first count
  omega

/-- Where fewer attempts are made again, one decides that is not later. -/
theorem Decided.exists_of_imp {Rarer : Nat → Prop} (rarer : ∀ number, Rarer number → Retried number)
    (decided : Decided latency pause Retried clock first deadline count) :
    ∃ front ≤ count, Decided latency pause Rarer clock first deadline front := by
  classical
  have some : ∃ front, ¬ Rarer (first + front) :=
    ⟨count, fun again => decided.decisive (rarer _ again)⟩
  have front : Nat.find some ≤ count :=
    Nat.find_min' some fun again => decided.decisive (rarer _ again)
  refine ⟨Nat.find some, front, fun before less => not_not.mp (Nat.find_min some less),
    Nat.find_spec some, ?_⟩
  have inTime := decided.inTime
  rcases Nat.lt_or_eq_of_le front with less | same
  · have opened := opens_le_of_lt latency pause clock first less
    omega
  · rwa [same]

end Facts

end AzureInit.Foundation.Retry
