import AzureInit.Foundation.Protocols

/-! What holds at every moment of an execution, so that it also holds where the execution
is cut off. -/

set_option autoImplicit false

namespace AzureInit.Foundation

variable {Request : Type} {Reply : Request → Type} {α β ε State : Type}
variable {step : (request : Request) → State → Reply request → State → Prop}

/-- The first step of an execution, in front of the others. -/
theorem Program.Reaches.head {request : Request} {next : Reply request → Program Request Reply α}
    {rest : Program Request Reply α} {reply : Reply request} {before middle now : State}
    (stepped : step request before reply middle)
    (reached : Program.Reaches step (next reply) middle rest now) :
    Program.Reaches step (.call request next) before rest now := by
  induction reached with
  | start => exact .call .start stepped
  | call _ later ih => exact .call ih later

/-- An execution that is not cut off comes to its end. -/
theorem Program.Runs.reaches {program : Program Request Reply α} {result : α}
    {before after : State} (execution : Program.Runs step program before result after) :
    Program.Reaches step program before (.done result) after := by
  induction execution with
  | done => exact .start
  | call stepped _ ih => exact .head stepped ih

/-- An execution of a sequence is on its way through the first part, or has it behind. -/
theorem Program.Reaches.bind_cases {program : Program Request Reply α}
    {continuation : α → Program Request Reply β} {rest : Program Request Reply β}
    {before now : State}
    (reached : Program.Reaches step (program >>= continuation) before rest now) :
    (∃ remaining, Program.Reaches step program before remaining now ∧
      rest = remaining >>= continuation) ∨
    ∃ value middle, Program.Runs step program before value middle ∧
      Program.Reaches step (continuation value) middle rest now := by
  induction reached with
  | start => exact .inl ⟨program, .start, rfl⟩
  | @call request next middle after reply _ stepped ih =>
      rcases ih with within | behind
      · obtain ⟨remaining, reached, same⟩ := within
        cases remaining with
        | done value =>
            refine .inr ⟨value, middle, reached.runs .done, ?_⟩
            rw [show continuation value = .call request next from same.symm]
            exact .call .start stepped
        | call asked following =>
            cases same
            exact .inl ⟨following reply, .call reached stepped, rfl⟩
      · obtain ⟨value, between, executed, reached⟩ := behind
        exact .inr ⟨value, between, executed, .call reached stepped⟩

/-- Every execution passes through safe states only, and ends in the postcondition. -/
def Keeps (step : (request : Request) → State → Reply request → State → Prop)
    (safe : State → Prop) : Program Request Reply α → State → (α → State → Prop) → Prop
  | .done result, state, good => safe state ∧ good result state
  | .call request next, state, good =>
      safe state ∧ ∀ reply after, step request state reply after →
        Keeps step safe (next reply) after good

namespace Keeps

variable {safe : State → Prop} {state : State}

theorem safe_start {program : Program Request Reply α} {good : α → State → Prop}
    (keeps : Keeps step safe program state good) : safe state := by
  cases program with
  | done result => exact keeps.1
  | call request next => exact keeps.1

theorem imp {program : Program Request Reply α} {good better : α → State → Prop}
    (keeps : Keeps step safe program state good)
    (weaker : ∀ value after, safe after → good value after → better value after) :
    Keeps step safe program state better := by
  induction program generalizing state with
  | done result => exact ⟨keeps.1, weaker _ _ keeps.1 keeps.2⟩
  | call request next ih =>
      exact ⟨keeps.1, fun reply after stepped => ih reply (keeps.2 reply after stepped)⟩

theorem bind {program : Program Request Reply α} {continuation : α → Program Request Reply β}
    {between : α → State → Prop} {good : β → State → Prop}
    (first : Keeps step safe program state between)
    (rest : ∀ value middle, safe middle → between value middle →
      Keeps step safe (continuation value) middle good) :
    Keeps step safe (program >>= continuation) state good := by
  induction program generalizing state with
  | done result => exact rest result state first.1 first.2
  | call request next ih =>
      exact ⟨first.1, fun reply after stepped => ih reply (first.2 reply after stepped)⟩

/-- A request whose answers lead to safe states. -/
theorem ask {request : Request} (good : Reply request → State → Prop) (start : safe state)
    (answers : ∀ reply after, step request state reply after → safe after ∧ good reply after) :
    Keeps step safe (Program.ask request) state good :=
  ⟨start, fun reply after stepped => answers reply after stepped⟩

/-- A fallible sequence; an error ends it. -/
theorem exceptBind {program : ExceptT ε (Program Request Reply) α}
    {continuation : α → ExceptT ε (Program Request Reply) β}
    {between : α → State → Prop} {good : β → State → Prop} {bad : ε → State → Prop}
    (first : Keeps step safe program.run state (eitherWay between bad))
    (rest : ∀ value middle, safe middle → between value middle →
      Keeps step safe (continuation value).run middle (eitherWay good bad)) :
    Keeps step safe (program >>= continuation).run state (eitherWay good bad) := by
  rw [ExceptT.run_bind]
  refine first.bind fun outcome middle stillSafe reached => ?_
  cases outcome with
  | ok value => exact rest value middle stillSafe reached
  | error error => exact ⟨stillSafe, reached⟩

/-- Wherever the execution is cut off, the state is safe. -/
theorem reaches {program rest : Program Request Reply α} {good : α → State → Prop}
    {before now : State} (keeps : Keeps step safe program before good)
    (reached : Program.Reaches step program before rest now) : safe now := by
  have further : Keeps step safe rest now good := by
    induction reached with
    | start => exact keeps
    | call _ stepped ih => exact ih.2 _ _ stepped
  exact further.safe_start

/-- What an execution that is not cut off ends in. -/
theorem runs {program : Program Request Reply α} {good : α → State → Prop} {result : α}
    {before after : State} (keeps : Keeps step safe program before good)
    (execution : Program.Runs step program before result after) :
    safe after ∧ good result after := by
  induction execution with
  | done => exact keeps
  | call stepped _ ih => exact ih (keeps.2 _ _ stepped)

end Keeps

end AzureInit.Foundation
