import AzureInit.Foundation.ProgramRefinement

/-! Alternatives that are tried in their order until one of them succeeds. -/

set_option autoImplicit false

namespace AzureInit.Foundation

variable {Request : Type} {Reply : Request → Type} {Alternative ε α : Type}

namespace Program

/-- The value of the first alternative that succeeds; the errors are dropped. -/
def findOk (attempt : Alternative → ExceptT ε (Program Request Reply) α) :
    List Alternative → Program Request Reply (Option α)
  | [] => pure none
  | alternative :: rest => do
      match ← (attempt alternative).run with
      | .ok value => pure (some value)
      | .error _ => findOk attempt rest

/-- The first success, or an error of the caller's own. -/
def findOkOr (attempt : Alternative → ExceptT ε (Program Request Reply) α)
    (alternatives : List Alternative) {ε' : Type} (error : ε') :
    ExceptT ε' (Program Request Reply) α :=
  ExceptT.mk do
    match ← findOk attempt alternatives with
    | some value => pure (.ok value)
    | none => pure (.error error)

end Program

namespace Event

open Program (findOk findOkOr)

variable {attempt : Alternative → ExceptT ε (Program Request Reply) α}

/-- What has been tried in vain, with the log of each failure. -/
inductive FailedInTurn (attempt : Alternative → ExceptT ε (Program Request Reply) α) :
    List Alternative → List (Event Reply) → Prop where
  | nil : FailedInTurn attempt [] []
  | cons {alternative : Alternative} {rest : List Alternative} {error : ε}
      {first log : List (Event Reply)} :
      Logged (attempt alternative).run (.error error) first → FailedInTurn attempt rest log →
      FailedInTurn attempt (alternative :: rest) (first ++ log)

theorem logged_findOk_cons_iff {alternative : Alternative} {rest : List Alternative}
    {found : Option α} {log : List (Event Reply)} :
    Logged (findOk attempt (alternative :: rest)) found log ↔
      (∃ value, Logged (attempt alternative).run (.ok value) log ∧ found = some value) ∨
      (∃ error first second, Logged (attempt alternative).run (.error error) first ∧
        Logged (findOk attempt rest) found second ∧ log = first ++ second) := by
  rw [findOk, logged_bind_iff]
  constructor
  · intro split
    obtain ⟨outcome, first, second, tried, continued, rfl⟩ := split
    cases outcome with
    | ok value =>
        obtain ⟨rfl, rfl⟩ := logged_pure_iff.mp continued
        exact .inl ⟨value, by rwa [List.append_nil], rfl⟩
    | error error => exact .inr ⟨error, first, second, tried, continued, rfl⟩
  · intro split
    rcases split with succeeded | failed
    · obtain ⟨value, tried, rfl⟩ := succeeded
      exact ⟨_, _, [], tried, logged_pure_iff.mpr ⟨rfl, rfl⟩, (List.append_nil _).symm⟩
    · obtain ⟨error, first, second, tried, continued, rfl⟩ := failed
      exact ⟨_, first, second, tried, continued, rfl⟩

/-- An alternative is found behind those that fail in turn. -/
theorem logged_findOk_some_iff {alternatives : List Alternative} {value : α}
    {log : List (Event Reply)} :
    Logged (findOk attempt alternatives) (some value) log ↔
      ∃ failed alternative untried earlier last,
        alternatives = failed ++ alternative :: untried ∧ FailedInTurn attempt failed earlier ∧
        Logged (attempt alternative).run (.ok value) last ∧ log = earlier ++ last := by
  induction alternatives generalizing log with
  | nil => simp [findOk]
  | cons alternative rest ih =>
      rw [logged_findOk_cons_iff]
      constructor
      · intro split
        rcases split with succeeded | failed
        · obtain ⟨found, tried, same⟩ := succeeded
          cases same
          exact ⟨[], alternative, rest, [], log, rfl, .nil, tried, rfl⟩
        · obtain ⟨error, first, second, tried, continued, rfl⟩ := failed
          obtain ⟨failed, chosen, untried, earlier, last, rfl, inVain, succeeded, rfl⟩ :=
            ih.mp continued
          exact ⟨alternative :: failed, chosen, untried, first ++ earlier, last, rfl,
            .cons tried inVain, succeeded, (List.append_assoc _ _ _).symm⟩
      · intro found
        obtain ⟨failed, chosen, untried, earlier, last, split, inVain, succeeded, rfl⟩ := found
        cases inVain with
        | nil =>
            cases split
            exact .inl ⟨value, succeeded, rfl⟩
        | cons tried others =>
            cases split
            exact .inr ⟨_, _, _, tried, ih.mpr ⟨_, chosen, untried, _, last, rfl, others,
              succeeded, rfl⟩, List.append_assoc _ _ _⟩

/-- Nothing is found exactly when all alternatives fail in turn. -/
theorem logged_findOk_none_iff {alternatives : List Alternative} {log : List (Event Reply)} :
    Logged (findOk attempt alternatives) none log ↔ FailedInTurn attempt alternatives log := by
  induction alternatives generalizing log with
  | nil =>
      simp only [findOk, logged_pure_iff, true_and]
      constructor
      · rintro rfl
        exact .nil
      · intro inVain
        cases inVain
        rfl
  | cons alternative rest ih =>
      rw [logged_findOk_cons_iff]
      constructor
      · intro split
        rcases split with succeeded | failed
        · obtain ⟨value, -, same⟩ := succeeded
          cases same
        · obtain ⟨error, first, second, tried, continued, rfl⟩ := failed
          exact .cons tried (ih.mp continued)
      · intro inVain
        cases inVain with
        | cons tried others => exact .inr ⟨_, _, _, tried, ih.mpr others, rfl⟩

theorem logged_findOkOr_iff {alternatives : List Alternative} {ε' : Type} {error : ε'}
    {result : Except ε' α} {log : List (Event Reply)} :
    Logged (findOkOr attempt alternatives error).run result log ↔
      (∃ value, Logged (findOk attempt alternatives) (some value) log ∧ result = .ok value) ∨
      (FailedInTurn attempt alternatives log ∧ result = .error error) := by
  rw [← logged_findOk_none_iff]
  unfold findOkOr
  rw [ExceptT.run_mk, logged_bind_iff]
  constructor
  · intro split
    obtain ⟨found, first, second, searched, continued, rfl⟩ := split
    cases found with
    | some value =>
        obtain ⟨rfl, rfl⟩ := logged_pure_iff.mp continued
        exact .inl ⟨value, by rwa [List.append_nil], rfl⟩
    | none =>
        obtain ⟨rfl, rfl⟩ := logged_pure_iff.mp continued
        exact .inr ⟨by rwa [List.append_nil], rfl⟩
  · intro split
    rcases split with found | missing
    · obtain ⟨value, searched, rfl⟩ := found
      exact ⟨_, _, [], searched, logged_pure_iff.mpr ⟨rfl, rfl⟩, (List.append_nil _).symm⟩
    · obtain ⟨searched, rfl⟩ := missing
      exact ⟨_, _, [], searched, logged_pure_iff.mpr ⟨rfl, rfl⟩, (List.append_nil _).symm⟩

/-- What succeeds in turn ends with the success of one alternative. -/
theorem exists_logged_of_findOkOr {alternatives : List Alternative} {ε' : Type} {error : ε'}
    {value : α} {log : List (Event Reply)}
    (logged : Logged (findOkOr attempt alternatives error).run (.ok value) log) :
    ∃ alternative ∈ alternatives, ∃ earlier last,
      Logged (attempt alternative).run (.ok value) last ∧ log = earlier ++ last := by
  rcases logged_findOkOr_iff.mp logged with found | missing
  · obtain ⟨found, searched, same⟩ := found
    cases same
    obtain ⟨failed, alternative, untried, earlier, last, rfl, -, succeeded, rfl⟩ :=
      logged_findOk_some_iff.mp searched
    exact ⟨alternative, by simp, earlier, last, succeeded, rfl⟩
  · cases missing.2

theorem error_of_findOkOr {alternatives : List Alternative} {ε' : Type} {error other : ε'}
    {log : List (Event Reply)}
    (logged : Logged (findOkOr attempt alternatives error).run (.error other) log) :
    other = error := by
  rcases logged_findOkOr_iff.mp logged with found | missing
  · obtain ⟨value, -, same⟩ := found
    cases same
  · cases missing.2
    rfl

end Event

end AzureInit.Foundation
