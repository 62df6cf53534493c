import Mathlib.Tactic

/-! Sequential programs as trees of requests to an environment. One program
has two readings: `Runs` follows any relation between requests and replies, so
that failing and timed environments are covered, and `run` executes a program
against a deterministic handler. -/

set_option autoImplicit false

namespace AzureInit.Foundation

/-- A program that issues requests and continues with their replies. -/
inductive Program (Request : Type) (Reply : Request → Type) (α : Type) : Type where
  | done (result : α)
  | call (request : Request) (next : Reply request → Program Request Reply α)

namespace Program

variable {Request : Type} {Reply : Request → Type} {α β ε State : Type}

def bind : Program Request Reply α → (α → Program Request Reply β) → Program Request Reply β
  | .done result, continuation => continuation result
  | .call request next, continuation =>
      .call request (fun reply => (next reply).bind continuation)

instance : Monad (Program Request Reply) where
  pure := .done
  bind := bind

/-- A single request, returning its reply. -/
def ask (request : Request) : Program Request Reply (Reply request) :=
  .call request .done

@[simp] theorem done_bind (result : α) (continuation : α → Program Request Reply β) :
    (Program.done result : Program Request Reply α) >>= continuation = continuation result :=
  rfl

@[simp] theorem call_bind (request : Request) (next : Reply request → Program Request Reply α)
    (continuation : α → Program Request Reply β) :
    Program.call request next >>= continuation =
      .call request (fun reply => next reply >>= continuation) :=
  rfl

private theorem bind_done (program : Program Request Reply α) :
    program >>= Program.done = program := by
  induction program with
  | done result => rfl
  | call request next ih =>
      rw [call_bind]
      congr 1
      funext reply
      exact ih reply

private theorem bind_assoc' {γ : Type} (program : Program Request Reply α)
    (first : α → Program Request Reply β) (second : β → Program Request Reply γ) :
    program >>= first >>= second = program >>= fun value => first value >>= second := by
  induction program with
  | done result => rfl
  | call request next ih =>
      simp only [call_bind]
      congr 1
      funext reply
      exact ih reply

instance : LawfulMonad (Program Request Reply) :=
  LawfulMonad.mk' _ bind_done (fun _ _ => rfl) bind_assoc'

/-! ## Relational execution -/

/-- A complete execution under a relation from a request and a state to a reply
and the next state. -/
inductive Runs (step : (request : Request) → State → Reply request → State → Prop) :
    Program Request Reply α → State → α → State → Prop where
  | done {result : α} {state : State} : Runs step (.done result) state result state
  | call {request : Request} {next : Reply request → Program Request Reply α}
      {before middle after : State} {reply : Reply request} {result : α} :
      step request before reply middle → Runs step (next reply) middle result after →
      Runs step (.call request next) before result after

section Relational

variable {step : (request : Request) → State → Reply request → State → Prop}

@[simp] theorem runs_done_iff {value result : α} {before after : State} :
    Runs step (.done value) before result after ↔ result = value ∧ after = before := by
  constructor
  · intro execution
    cases execution
    exact ⟨rfl, rfl⟩
  · rintro ⟨rfl, rfl⟩
    exact .done

@[simp] theorem runs_pure_iff {value result : α} {before after : State} :
    Runs step (pure value) before result after ↔ result = value ∧ after = before :=
  runs_done_iff

theorem runs_call_iff {request : Request} {next : Reply request → Program Request Reply α}
    {before after : State} {result : α} :
    Runs step (.call request next) before result after ↔
      ∃ reply middle, step request before reply middle ∧
        Runs step (next reply) middle result after := by
  constructor
  · intro execution
    cases execution with
    | call stepped rest => exact ⟨_, _, stepped, rest⟩
  · rintro ⟨reply, middle, stepped, rest⟩
    exact .call stepped rest

@[simp] theorem runs_ask_iff {request : Request} {before after : State} {reply : Reply request} :
    Runs step (ask request) before reply after ↔ step request before reply after := by
  simp only [ask, runs_call_iff, runs_done_iff]
  constructor
  · rintro ⟨_, _, stepped, rfl, rfl⟩
    exact stepped
  · intro stepped
    exact ⟨_, _, stepped, rfl, rfl⟩

/-- Executions of a sequence are executions of its parts in order. -/
theorem runs_bind_iff {program : Program Request Reply α}
    {continuation : α → Program Request Reply β} {before after : State} {result : β} :
    Runs step (program >>= continuation) before result after ↔
      ∃ value middle, Runs step program before value middle ∧
        Runs step (continuation value) middle result after := by
  induction program generalizing before with
  | done value => simp
  | call request next ih =>
      simp only [call_bind, runs_call_iff, ih]
      constructor
      · rintro ⟨reply, first, stepped, value, middle, head, tail⟩
        exact ⟨value, middle, ⟨reply, first, stepped, head⟩, tail⟩
      · rintro ⟨value, middle, ⟨reply, first, stepped, head⟩, tail⟩
        exact ⟨reply, first, stepped, value, middle, head, tail⟩

end Relational

/-! ## Fallible sequences -/

section Fallible

variable {step : (request : Request) → State → Reply request → State → Prop}

/-- A fallible sequence succeeds in its first part and continues, or stops there. -/
theorem runs_except_bind_iff {program : ExceptT ε (Program Request Reply) α}
    {continuation : α → ExceptT ε (Program Request Reply) β} {before after : State}
    {result : Except ε β} :
    Runs step (program >>= continuation).run before result after ↔
      (∃ value middle, Runs step program.run before (.ok value) middle ∧
        Runs step (continuation value).run middle result after) ∨
      (∃ error, Runs step program.run before (.error error) after ∧ result = .error error) := by
  rw [ExceptT.run_bind, runs_bind_iff]
  constructor
  · rintro ⟨value, middle, first, rest⟩
    cases value with
    | ok value => exact .inl ⟨value, middle, first, rest⟩
    | error error =>
        obtain ⟨rfl, rfl⟩ := runs_pure_iff.mp rest
        exact .inr ⟨error, first, rfl⟩
  · rintro (⟨value, middle, first, rest⟩ | ⟨error, first, rfl⟩)
    · exact ⟨.ok value, middle, first, rest⟩
    · exact ⟨.error error, after, first, runs_pure_iff.mpr ⟨rfl, rfl⟩⟩

/-- A fallible sequence that succeeds has succeeded in its parts. -/
theorem runs_except_bind_ok_iff {program : ExceptT ε (Program Request Reply) α}
    {continuation : α → ExceptT ε (Program Request Reply) β} {before after : State}
    {result : β} :
    Runs step (program >>= continuation).run before (.ok result) after ↔
      ∃ value middle, Runs step program.run before (.ok value) middle ∧
        Runs step (continuation value).run middle (.ok result) after := by
  rw [runs_except_bind_iff]
  constructor
  · intro split
    rcases split with succeeded | failed
    · exact succeeded
    · obtain ⟨error, -, same⟩ := failed
      cases same
  · exact .inl

@[simp] theorem runs_except_pure_iff {value : α} {before after : State} {result : Except ε α} :
    Runs step (pure value : ExceptT ε (Program Request Reply) α).run before result after ↔
      result = .ok value ∧ after = before :=
  runs_done_iff

@[simp] theorem runs_except_throw_iff {error : ε} {before after : State} {result : Except ε α} :
    Runs step (throw error : ExceptT ε (Program Request Reply) α).run before result after ↔
      result = .error error ∧ after = before :=
  runs_done_iff

end Fallible

/-! ## Execution against a handler -/

/-- Execution against a handler that answers each request from the state. -/
def run (handler : (request : Request) → State → Reply request × State) :
    Program Request Reply α → State → α × State
  | .done result, state => (result, state)
  | .call request next, state =>
      (next (handler request state).1).run handler (handler request state).2

/-- The handler's execution is the only one its graph allows. -/
theorem runs_handler_iff {handler : (request : Request) → State → Reply request × State}
    {program : Program Request Reply α} {before after : State} {result : α} :
    Runs (fun request before reply after => handler request before = (reply, after))
      program before result after ↔ program.run handler before = (result, after) := by
  induction program generalizing before with
  | done value =>
      simp only [runs_done_iff, run, Prod.mk.injEq]
      constructor <;> rintro ⟨rfl, rfl⟩ <;> exact ⟨rfl, rfl⟩
  | call request next ih =>
      simp only [runs_call_iff, ih, run]
      constructor
      · rintro ⟨reply, middle, answered, rest⟩
        rw [answered]
        exact rest
      · intro rest
        exact ⟨_, _, rfl, rest⟩

/-- A handler whose answers a relation admits runs within that relation. -/
theorem runs_run {step : (request : Request) → State → Reply request → State → Prop}
    {handler : (request : Request) → State → Reply request × State}
    (admitted : ∀ request state,
      step request state (handler request state).1 (handler request state).2)
    (program : Program Request Reply α) (state : State) :
    Runs step program state (program.run handler state).1 (program.run handler state).2 := by
  induction program generalizing state with
  | done result => exact .done
  | call request next ih => exact .call (admitted request state) (ih _ _)

end Program

end AzureInit.Foundation
