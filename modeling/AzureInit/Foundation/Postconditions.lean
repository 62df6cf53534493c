import AzureInit.Foundation.EffectProgram

/-! Postconditions of programs that issue requests. They hold of every execution
under a step relation; a fallible program has one for its value and one for its
error. -/

set_option autoImplicit false

namespace AzureInit.Foundation

variable {Request : Type} {Reply : Request → Type} {α β ε ε' State : Type}
variable {step : (request : Request) → State → Reply request → State → Prop}

/-- Every execution of the program ends in the postcondition. -/
def Post (step : (request : Request) → State → Reply request → State → Prop)
    (program : Program Request Reply α) (before : State) (good : α → State → Prop) : Prop :=
  ∀ result after, Program.Runs step program before result after → good result after

theorem Post.imp {program : Program Request Reply α} {before : State}
    {good better : α → State → Prop} (holds : Post step program before good)
    (weaker : ∀ value after, good value after → better value after) :
    Post step program before better :=
  fun result after execution => weaker result after (holds result after execution)

@[simp] theorem post_pure_iff {value : α} {before : State} {good : α → State → Prop} :
    Post step (pure value) before good ↔ good value before := by
  simp only [Post, Program.runs_pure_iff]
  constructor
  · intro holds
    exact holds _ _ ⟨rfl, rfl⟩
  · rintro holds _ _ ⟨rfl, rfl⟩
    exact holds

@[simp] theorem post_bind_iff {program : Program Request Reply α}
    {continuation : α → Program Request Reply β} {before : State} {good : β → State → Prop} :
    Post step (program >>= continuation) before good ↔
      Post step program before fun value middle => Post step (continuation value) middle good := by
  simp only [Post, Program.runs_bind_iff]
  constructor
  · intro holds value middle first result after rest
    exact holds result after ⟨value, middle, first, rest⟩
  · rintro holds result after ⟨value, middle, first, rest⟩
    exact holds value middle first result after rest

theorem post_ask_iff {request : Request} {before : State}
    {good : Reply request → State → Prop} :
    Post step (Program.ask request) before good ↔
      ∀ reply after, step request before reply after → good reply after := by
  simp only [Post, Program.runs_ask_iff]

/-- One postcondition from one for the value and one for the error. -/
def eitherWay (good : α → State → Prop) (bad : ε → State → Prop) :
    Except ε α → State → Prop
  | .ok value, after => good value after
  | .error error, after => bad error after

@[simp] theorem eitherWay_ok {good : α → State → Prop} {bad : ε → State → Prop} {value : α} :
    eitherWay good bad (.ok value) = good value := rfl

@[simp] theorem eitherWay_error {good : α → State → Prop} {bad : ε → State → Prop} {error : ε} :
    eitherWay good bad (.error error : Except ε α) = bad error := rfl

/-- Every execution of a fallible program ends in the postcondition of its result. -/
def Ensures (step : (request : Request) → State → Reply request → State → Prop)
    (program : ExceptT ε (Program Request Reply) α) (before : State)
    (good : α → State → Prop) (bad : ε → State → Prop) : Prop :=
  Post step program.run before (eitherWay good bad)

section Fallible

variable {program : ExceptT ε (Program Request Reply) α} {before : State}
  {good : α → State → Prop} {bad : ε → State → Prop}

theorem Ensures.value {after : State} {value : α} (holds : Ensures step program before good bad)
    (execution : Program.Runs step program.run before (.ok value) after) : good value after :=
  holds _ _ execution

theorem Ensures.error {after : State} {error : ε} (holds : Ensures step program before good bad)
    (execution : Program.Runs step program.run before (.error error) after) : bad error after :=
  holds _ _ execution

theorem Ensures.imp {better : α → State → Prop} {worse : ε → State → Prop}
    (holds : Ensures step program before good bad)
    (onValue : ∀ value after, good value after → better value after)
    (onError : ∀ error after, bad error after → worse error after) :
    Ensures step program before better worse := by
  refine Post.imp holds fun result after => ?_
  cases result with
  | ok value => exact onValue value after
  | error error => exact onError error after

@[simp] theorem ensures_pure_iff {value : α} :
    Ensures step (pure value : ExceptT ε (Program Request Reply) α) before good bad ↔
      good value before :=
  post_pure_iff

@[simp] theorem ensures_throw_iff {error : ε} :
    Ensures step (throw error : ExceptT ε (Program Request Reply) α) before good bad ↔
      bad error before :=
  post_pure_iff

@[simp] theorem ensures_bind_iff {continuation : α → ExceptT ε (Program Request Reply) β}
    {good : β → State → Prop} :
    Ensures step (program >>= continuation) before good bad ↔
      Ensures step program before
        (fun value middle => Ensures step (continuation value) middle good bad) bad := by
  rw [Ensures, ExceptT.run_bind, post_bind_iff, Ensures]
  constructor
  · intro holds
    refine Post.imp holds fun result middle => ?_
    cases result with
    | ok value => exact id
    | error error => exact post_pure_iff.mp
  · intro holds
    refine Post.imp holds fun result middle => ?_
    cases result with
    | ok value => exact id
    | error error => exact fun failed => post_pure_iff.mpr failed

/-- A sequence, through what holds between its parts. -/
theorem Ensures.bind {continuation : α → ExceptT ε (Program Request Reply) β}
    {between : α → State → Prop} {stopped : ε → State → Prop} {good : β → State → Prop}
    (first : Ensures step program before between stopped)
    (stop : ∀ error after, stopped error after → bad error after)
    (rest : ∀ value middle, between value middle →
      Ensures step (continuation value) middle good bad) :
    Ensures step (program >>= continuation) before good bad :=
  ensures_bind_iff.mpr (first.imp rest stop)

theorem ensures_mk_iff {plain : Program Request Reply (Except ε α)} :
    Ensures step (ExceptT.mk plain) before good bad ↔
      Post step plain before (eitherWay good bad) :=
  Iff.rfl

end Fallible

end AzureInit.Foundation
