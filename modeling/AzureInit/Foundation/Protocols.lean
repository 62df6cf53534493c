import AzureInit.Foundation.Postconditions

/-! Programs on their way: executions that have come as far as a remaining
program, the requests a program may make, and protocols that tell in which order
it makes them. -/

set_option autoImplicit false

namespace AzureInit.Foundation

variable {Request : Type} {Reply : Request → Type} {α β ε State Stage : Type}

namespace Program

variable {step : (request : Request) → State → Reply request → State → Prop}

/-- An execution that has come as far as a remaining program. -/
inductive Reaches (step : (request : Request) → State → Reply request → State → Prop)
    (program : Program Request Reply α) (before : State) :
    Program Request Reply α → State → Prop where
  | start : Reaches step program before program before
  | call {request : Request} {next : Reply request → Program Request Reply α}
      {middle after : State} {reply : Reply request} :
      Reaches step program before (.call request next) middle →
      step request middle reply after → Reaches step program before (next reply) after

/-- What remains, when it has run as well, completes the execution. -/
theorem Reaches.runs {program rest : Program Request Reply α} {before middle after : State}
    {result : α} (reached : Reaches step program before rest middle)
    (execution : Runs step rest middle result after) : Runs step program before result after := by
  induction reached generalizing after with
  | start => exact execution
  | call _ stepped ih => exact ih (.call stepped execution)

/-! ## The requests of a program -/

/-- Every request of the program is a permitted one, whatever it is answered. -/
def Uses (permitted : Request → Prop) : Program Request Reply α → Prop
  | .done _ => True
  | .call request next => permitted request ∧ ∀ reply, (next reply).Uses permitted

variable {permitted : Request → Prop}

@[simp] theorem uses_pure (value : α) :
    (pure value : Program Request Reply α).Uses permitted := trivial

@[simp] theorem uses_ask_iff {request : Request} :
    (ask request : Program Request Reply (Reply request)).Uses permitted ↔ permitted request :=
  ⟨fun uses => uses.1, fun allowed => ⟨allowed, fun _ => trivial⟩⟩

theorem Uses.bind {program : Program Request Reply α}
    {continuation : α → Program Request Reply β} (first : program.Uses permitted)
    (rest : ∀ value, (continuation value).Uses permitted) :
    (program >>= continuation).Uses permitted := by
  induction program with
  | done value => exact rest value
  | call request next ih => exact ⟨first.1, fun reply => ih reply (first.2 reply)⟩

end Program

/-- A fallible program, through the requests of its parts. -/
theorem usesExcept_bind {permitted : Request → Prop}
    {program : ExceptT ε (Program Request Reply) α}
    {continuation : α → ExceptT ε (Program Request Reply) β}
    (first : program.run.Uses permitted)
    (rest : ∀ value, (continuation value).run.Uses permitted) :
    (program >>= continuation).run.Uses permitted := by
  rw [ExceptT.run_bind]
  apply first.bind
  intro outcome
  cases outcome with
  | ok value => exact rest value
  | error error => exact Program.uses_pure _

/-! ## Protocols -/

/-- The stages that a program passes through: where each request leads, and the
answers that it may be given. -/
structure Protocol (Request : Type) (Reply : Request → Type) (Stage : Type) where
  answers : (request : Request) → Reply request → Prop
  advance : Stage → (request : Request) → Reply request → Option Stage

namespace Protocol

variable (protocol : Protocol Request Reply Stage)

/-- From the stage on, every request is one that the protocol has a place for, and
the program ends in the postcondition. -/
def Obeyed : Program Request Reply α → Stage → (α → Stage → Prop) → Prop
  | .done result, stage, good => good result stage
  | .call request next, stage, good =>
      ∀ reply, protocol.answers request reply →
        ∃ later, protocol.advance stage request reply = some later ∧
          Obeyed (next reply) later good

variable {protocol}

theorem Obeyed.imp {program : Program Request Reply α} {stage : Stage}
    {good better : α → Stage → Prop} (obeyed : protocol.Obeyed program stage good)
    (weaker : ∀ value later, good value later → better value later) :
    protocol.Obeyed program stage better := by
  induction program generalizing stage with
  | done value => exact weaker value stage obeyed
  | call request next ih =>
      intro reply answered
      obtain ⟨later, advanced, rest⟩ := obeyed reply answered
      exact ⟨later, advanced, ih reply rest⟩

theorem Obeyed.bind {program : Program Request Reply α}
    {continuation : α → Program Request Reply β} {stage : Stage}
    {between : α → Stage → Prop} {good : β → Stage → Prop}
    (first : protocol.Obeyed program stage between)
    (rest : ∀ value later, between value later →
      protocol.Obeyed (continuation value) later good) :
    protocol.Obeyed (program >>= continuation) stage good := by
  induction program generalizing stage with
  | done value => exact rest value stage first
  | call request next ih =>
      intro reply answered
      obtain ⟨later, advanced, onward⟩ := first reply answered
      exact ⟨later, advanced, ih reply onward⟩

/-- A fallible program, with one postcondition for its value and one for its error. -/
theorem Obeyed.exceptBind {program : ExceptT ε (Program Request Reply) α}
    {continuation : α → ExceptT ε (Program Request Reply) β} {stage : Stage}
    {between : α → Stage → Prop} {stopped bad : ε → Stage → Prop} {good : β → Stage → Prop}
    (first : protocol.Obeyed program.run stage (eitherWay between stopped))
    (stop : ∀ error later, stopped error later → bad error later)
    (rest : ∀ value later, between value later →
      protocol.Obeyed (continuation value).run later (eitherWay good bad)) :
    protocol.Obeyed (program >>= continuation).run stage (eitherWay good bad) := by
  rw [ExceptT.run_bind]
  apply first.bind
  intro outcome later reached
  cases outcome with
  | ok value => exact rest value later reached
  | error error => exact stop error later reached

/-- A fallible program with one postcondition on the stage it ends in. -/
theorem Obeyed.exceptBindStage {program : ExceptT ε (Program Request Reply) α}
    {continuation : α → ExceptT ε (Program Request Reply) β} {stage : Stage}
    {between : α → Stage → Prop} {stopped : ε → Stage → Prop} {final : Stage → Prop}
    (first : protocol.Obeyed program.run stage (eitherWay between stopped))
    (stop : ∀ error later, stopped error later → final later)
    (rest : ∀ value later, between value later →
      protocol.Obeyed (continuation value).run later fun _ last => final last) :
    protocol.Obeyed (program >>= continuation).run stage fun _ later => final later := by
  rw [ExceptT.run_bind]
  apply first.bind
  intro outcome later reached
  cases outcome with
  | ok value => exact rest value later reached
  | error error => exact stop error later reached

/-- Requests that a stage has a place for and that do not lead out of it. -/
theorem obeyed_of_uses {permitted : Request → Prop} {stage : Stage}
    (stays : ∀ request reply, permitted request →
      protocol.advance stage request reply = some stage)
    {program : Program Request Reply α} (uses : program.Uses permitted) :
    protocol.Obeyed program stage fun _ later => later = stage := by
  induction program with
  | done value => rfl
  | call request next ih =>
      intro reply _
      exact ⟨stage, stays request reply uses.1, ih reply (uses.2 reply)⟩

/-- What the steps of a protocol preserve, an execution that obeys it preserves. -/
theorem Obeyed.invariant {step : (request : Request) → State → Reply request → State → Prop}
    {Invariant : Stage → State → Prop} {program : Program Request Reply α} {stage : Stage}
    {good : α → Stage → Prop} {before after : State} {result : α}
    (obeyed : protocol.Obeyed program stage good)
    (execution : Program.Runs step program before result after)
    (answered : ∀ request before reply after,
      step request before reply after → protocol.answers request reply)
    (preserved : ∀ stage request before reply after later,
      step request before reply after → protocol.advance stage request reply = some later →
        Invariant stage before → Invariant later after)
    (initial : Invariant stage before) :
    ∃ later, good result later ∧ Invariant later after := by
  induction execution generalizing stage with
  | done => exact ⟨stage, obeyed, initial⟩
  | call stepped _ ih =>
      obtain ⟨later, advanced, rest⟩ := obeyed _ (answered _ _ _ _ stepped)
      exact ih rest (preserved _ _ _ _ _ _ stepped advanced initial)

end Protocol

end AzureInit.Foundation
