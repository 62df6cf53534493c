import Mathlib.Tactic

/-! When a computation that can fail returns a result, with a state or without one. -/

set_option autoImplicit false

namespace AzureInit.Foundation.Fallible

variable {ε σ α β : Type}

theorem bind_eq_ok_iff {first : Except ε α} {next : α → Except ε β} {result : β} :
    (first >>= next) = .ok result ↔ ∃ value, first = .ok value ∧ next value = .ok result := by
  cases first <;> simp [bind, Except.bind]

theorem bind_eq_error_iff {first : Except ε α} {next : α → Except ε β} {error : ε} :
    (first >>= next) = .error error ↔
      first = .error error ∨ ∃ value, first = .ok value ∧ next value = .error error := by
  cases first <;> simp [bind, Except.bind]

theorem map_eq_ok_iff {first : Except ε α} {change : α → β} {result : β} :
    first.map change = .ok result ↔ ∃ value, first = .ok value ∧ change value = result := by
  cases first <;> simp [Except.map]

/-- A list is mapped when each of its values is. -/
theorem mapM_eq_ok_iff {values : List α} {change : α → Except ε β} {results : List β} :
    values.mapM change = .ok results ↔
      List.Forall₂ (fun value result => change value = .ok result) values results := by
  induction values generalizing results with
  | nil => cases results <;> simp [pure, Except.pure]
  | cons value values ih =>
      rw [List.mapM_cons, bind_eq_ok_iff]
      constructor
      · intro mapped
        obtain ⟨result, changed, rest⟩ := mapped
        obtain ⟨others, changedOthers, built⟩ := bind_eq_ok_iff.mp rest
        cases built
        exact .cons changed (ih.mp changedOthers)
      · intro changed
        cases changed with
        | @cons _ result _ others first rest =>
            exact ⟨result, first, bind_eq_ok_iff.mpr ⟨others, ih.mpr rest, rfl⟩⟩

theorem run_bind_eq_ok_iff {first : StateT σ (Except ε) α} {next : α → StateT σ (Except ε) β}
    {state : σ} {result : β × σ} :
    (first >>= next).run state = .ok result ↔
      ∃ value middle, first.run state = .ok (value, middle) ∧
        (next value).run middle = .ok result := by
  rw [StateT.run_bind, bind_eq_ok_iff, Prod.exists]

theorem run_lift_eq_ok_iff {given : Except ε α} {state after : σ} {value : α} :
    (liftM given : StateT σ (Except ε) α).run state = .ok (value, after) ↔
      given = .ok value ∧ after = state := by
  have run : (liftM given : StateT σ (Except ε) α).run state = given >>= fun value =>
      pure (value, state) := rfl
  rw [run]
  cases given <;> simp [Except.bind, bind, pure, Except.pure, eq_comm]

theorem run_pure_eq_ok_iff {given value : α} {state after : σ} :
    (pure given : StateT σ (Except ε) α).run state = .ok (value, after) ↔
      value = given ∧ after = state := by
  have run : (pure given : StateT σ (Except ε) α).run state = .ok (given, state) := rfl
  rw [run]
  simp [eq_comm]

theorem run_get_eq_ok_iff {state after value : σ} :
    (get : StateT σ (Except ε) σ).run state = .ok (value, after) ↔
      value = state ∧ after = state := by
  have run : (get : StateT σ (Except ε) σ).run state = .ok (state, state) := rfl
  rw [run]
  simp [eq_comm]

end AzureInit.Foundation.Fallible
