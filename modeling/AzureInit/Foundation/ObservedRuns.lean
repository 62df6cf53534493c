import AzureInit.Foundation.CrashSafety
import AzureInit.Foundation.ProgramRefinement

/-! Executions against an environment with a state, together with the log of what was asked
and answered. -/

set_option autoImplicit false

namespace AzureInit.Foundation

variable {Request State : Type} {Reply : Request → Type} {α : Type}
variable {step : (request : Request) → State → Reply request → State → Prop}

/-- A step of the environment that is written down. -/
def Observed (step : (request : Request) → State → Reply request → State → Prop)
    (request : Request) (before : State × List (Event Reply)) (reply : Reply request)
    (after : State × List (Event Reply)) : Prop :=
  step request before.1 reply after.1 ∧ Event.Recorded request before.2 reply after.2

/-- Without the log it is an execution like any other. -/
theorem runs_of_observed {program : Program Request Reply α} {result : α}
    {before after : State × List (Event Reply)}
    (execution : program.Runs (Observed step) before result after) :
    program.Runs step before.1 result after.1 := by
  induction execution with
  | done => exact .done
  | call stepped _ ih => exact .call stepped.1 ih

/-- Without the states the log is one of the program's. -/
theorem logged_of_observed {program : Program Request Reply α} {result : α}
    {before after : State × List (Event Reply)}
    (execution : program.Runs (Observed step) before result after) :
    ∃ log, after.2 = before.2 ++ log ∧ Event.Logged program result log := by
  refine Event.runs_recorded_iff.mp ?_
  induction execution with
  | done => exact .done
  | call stepped _ ih => exact .call stepped.2 ih

theorem reaches_of_observed {program rest : Program Request Reply α}
    {before now : State × List (Event Reply)}
    (reached : Program.Reaches (Observed step) program before rest now) :
    Program.Reaches step program before.1 rest now.1 := by
  induction reached with
  | start => exact .start
  | call _ stepped ih => exact .call ih stepped.1

/-- What is written down stays. -/
theorem prefix_of_observed {program rest : Program Request Reply α}
    {before now : State × List (Event Reply)}
    (reached : Program.Reaches (Observed step) program before rest now) :
    before.2 <+: now.2 := by
  induction reached with
  | start => exact List.prefix_rfl
  | call _ stepped ih =>
      rw [stepped.2]
      exact ih.trans (List.prefix_append _ _)

/-- A handler whose answers are written down. -/
def observing (handler : (request : Request) → State → Reply request × State)
    (request : Request) (now : State × List (Event Reply)) :
    Reply request × State × List (Event Reply) :=
  ((handler request now.1).1, (handler request now.1).2,
    now.2 ++ [⟨request, (handler request now.1).1⟩])

theorem observed_observing {handler : (request : Request) → State → Reply request × State}
    (admitted : ∀ request state,
      step request state (handler request state).1 (handler request state).2)
    (request : Request) (now : State × List (Event Reply)) :
    Observed step request now (observing handler request now).1
      (observing handler request now).2 :=
  ⟨admitted request now.1, rfl⟩

end AzureInit.Foundation
