import AzureInit.Foundation.EffectProgram

/-! Programs whose requests are programs themselves, and the log of the requests
of an execution with their replies. -/

set_option autoImplicit false

namespace AzureInit.Foundation

namespace Program

variable {Request Lower : Type} {Reply : Request → Type} {Answer : Lower → Type}
  {α β State : Type}

/-- The program with every request replaced by the program that performs it. -/
def interpret (perform : (request : Request) → Program Lower Answer (Reply request)) :
    Program Request Reply α → Program Lower Answer α
  | .done result => .done result
  | .call request next => perform request >>= fun reply => (next reply).interpret perform

section Interpret

variable {perform : (request : Request) → Program Lower Answer (Reply request)}

@[simp] theorem interpret_done (result : α) :
    (Program.done result : Program Request Reply α).interpret perform = .done result :=
  rfl

theorem interpret_call (request : Request) (next : Reply request → Program Request Reply α) :
    (Program.call request next).interpret perform =
      perform request >>= fun reply => (next reply).interpret perform :=
  rfl

/-- The interpreted program runs as the program does whose steps are the runs of what
performs its requests. -/
theorem runs_interpret_iff {step : (request : Lower) → State → Answer request → State → Prop}
    {program : Program Request Reply α} {before after : State} {result : α} :
    Runs step (program.interpret perform) before result after ↔
      Runs (fun request before reply after => Runs step (perform request) before reply after)
        program before result after := by
  induction program generalizing before with
  | done value => simp
  | call request next ih =>
      rw [interpret_call, runs_bind_iff, runs_call_iff]
      constructor
      · intro split
        obtain ⟨reply, middle, performed, rest⟩ := split
        exact ⟨reply, middle, performed, (ih reply).mp rest⟩
      · intro split
        obtain ⟨reply, middle, performed, rest⟩ := split
        exact ⟨reply, middle, performed, (ih reply).mpr rest⟩

end Interpret

end Program

/-! ## Logs -/

/-- A request with the reply that it was given. -/
structure Event {Request : Type} (Reply : Request → Type) where
  request : Request
  reply : Reply request

namespace Event

variable {Request : Type} {Reply : Request → Type} {α β ε : Type}

/-- Any reply may be given; it is written down behind the earlier ones. -/
def Recorded (request : Request) (before : List (Event Reply)) (reply : Reply request)
    (after : List (Event Reply)) : Prop :=
  after = before ++ [⟨request, reply⟩]

/-- A handler's replies, written down behind the earlier ones. -/
def recording (handler : (request : Request) → List (Event Reply) → Reply request)
    (request : Request) (log : List (Event Reply)) : Reply request × List (Event Reply) :=
  (handler request log, log ++ [⟨request, handler request log⟩])

theorem recorded_recording (handler : (request : Request) → List (Event Reply) → Reply request)
    (request : Request) (log : List (Event Reply)) :
    Recorded request log (recording handler request log).1 (recording handler request log).2 :=
  rfl

/-- What stands in the log stays there and does not matter. -/
private theorem exists_log {program : Program Request Reply α}
    {before after : List (Event Reply)} {result : α}
    (execution : program.Runs Recorded before result after) (start : List (Event Reply)) :
    ∃ log, after = before ++ log ∧ program.Runs Recorded start result (start ++ log) := by
  induction execution generalizing start with
  | done =>
      refine ⟨[], by simp, ?_⟩
      rw [List.append_nil]
      exact .done
  | @call request next before middle after reply result stepped rest ih =>
      obtain ⟨log, extended, moved⟩ := ih (start ++ [⟨request, reply⟩])
      refine ⟨⟨request, reply⟩ :: log, ?_, ?_⟩
      · rw [extended, stepped, List.append_assoc, List.singleton_append]
      · rw [List.append_assoc] at moved
        exact .call rfl moved

/-- An execution with the requests and replies that it consists of. -/
def Logged (program : Program Request Reply α) (result : α) (log : List (Event Reply)) : Prop :=
  program.Runs Recorded [] result log

theorem runs_recorded_iff {program : Program Request Reply α}
    {before after : List (Event Reply)} {result : α} :
    program.Runs Recorded before result after ↔
      ∃ log, after = before ++ log ∧ Logged program result log := by
  constructor
  · intro execution
    exact exists_log execution []
  · intro extended
    obtain ⟨log, rfl, execution⟩ := extended
    obtain ⟨same, rfl, moved⟩ := exists_log execution before
    exact moved

@[simp] theorem logged_pure_iff {value result : α} {log : List (Event Reply)} :
    Logged (pure value : Program Request Reply α) result log ↔ result = value ∧ log = [] :=
  Program.runs_pure_iff

@[simp] theorem logged_ask_iff {request : Request} {reply : Reply request}
    {log : List (Event Reply)} :
    Logged (Program.ask request) reply log ↔ log = [⟨request, reply⟩] :=
  Program.runs_ask_iff

theorem logged_bind_iff {program : Program Request Reply α}
    {continuation : α → Program Request Reply β} {result : β} {log : List (Event Reply)} :
    Logged (program >>= continuation) result log ↔
      ∃ value first second, Logged program value first ∧
        Logged (continuation value) result second ∧ log = first ++ second := by
  unfold Logged
  rw [Program.runs_bind_iff]
  constructor
  · intro split
    obtain ⟨value, first, executed, rest⟩ := split
    obtain ⟨second, rfl, continued⟩ := runs_recorded_iff.mp rest
    exact ⟨value, first, second, executed, continued, rfl⟩
  · intro split
    obtain ⟨value, first, second, executed, continued, rfl⟩ := split
    exact ⟨value, first, executed, runs_recorded_iff.mpr ⟨second, rfl, continued⟩⟩

theorem logged_call_iff {request : Request} {next : Reply request → Program Request Reply α}
    {result : α} {log : List (Event Reply)} :
    Logged (.call request next) result log ↔
      ∃ reply rest, Logged (next reply) result rest ∧ log = ⟨request, reply⟩ :: rest := by
  have asked : Program.call request next = Program.ask request >>= next := rfl
  rw [asked, logged_bind_iff]
  constructor
  · intro split
    obtain ⟨reply, first, rest, sent, continued, rfl⟩ := split
    rw [logged_ask_iff] at sent
    exact ⟨reply, rest, continued, by rw [sent, List.singleton_append]⟩
  · intro split
    obtain ⟨reply, rest, continued, rfl⟩ := split
    exact ⟨reply, [⟨request, reply⟩], rest, logged_ask_iff.mpr rfl, continued, rfl⟩

/-- A log tells the result. -/
theorem Logged.unique {program : Program Request Reply α} {result other : α}
    {log : List (Event Reply)} (logged : Logged program result log)
    (also : Logged program other log) : result = other := by
  induction program generalizing log with
  | done value => rw [(logged_pure_iff.mp logged).1, (logged_pure_iff.mp also).1]
  | call request next ih =>
      obtain ⟨reply, rest, continued, rfl⟩ := logged_call_iff.mp logged
      obtain ⟨replyToo, restToo, continuedToo, same⟩ := logged_call_iff.mp also
      cases same
      exact ih reply continued continuedToo

theorem logged_map_iff {program : Program Request Reply α} {transform : α → β} {result : β}
    {log : List (Event Reply)} :
    Logged (transform <$> program) result log ↔
      ∃ value, Logged program value log ∧ result = transform value := by
  rw [← bind_pure_comp, logged_bind_iff]
  constructor
  · intro split
    obtain ⟨value, first, second, executed, continued, rfl⟩ := split
    obtain ⟨rfl, rfl⟩ := logged_pure_iff.mp continued
    exact ⟨value, by rwa [List.append_nil], rfl⟩
  · intro mapped
    obtain ⟨value, executed, rfl⟩ := mapped
    exact ⟨value, log, [], executed, logged_pure_iff.mpr ⟨rfl, rfl⟩, (List.append_nil log).symm⟩

@[simp] theorem logged_except_pure_iff {value : α} {result : Except ε α}
    {log : List (Event Reply)} :
    Logged (pure value : ExceptT ε (Program Request Reply) α).run result log ↔
      result = .ok value ∧ log = [] :=
  logged_pure_iff

@[simp] theorem logged_throw_iff {error : ε} {result : Except ε α} {log : List (Event Reply)} :
    Logged (throw error : ExceptT ε (Program Request Reply) α).run result log ↔
      result = .error error ∧ log = [] :=
  logged_pure_iff

/-- A fallible sequence succeeds in its first part and goes on, or ends there. -/
theorem logged_except_bind_iff {program : ExceptT ε (Program Request Reply) α}
    {continuation : α → ExceptT ε (Program Request Reply) β} {result : Except ε β}
    {log : List (Event Reply)} :
    Logged (program >>= continuation).run result log ↔
      (∃ value first second, Logged program.run (.ok value) first ∧
        Logged (continuation value).run result second ∧ log = first ++ second) ∨
      (∃ error, Logged program.run (.error error) log ∧ result = .error error) := by
  unfold Logged
  rw [Program.runs_except_bind_iff]
  refine or_congr_left ?_
  constructor
  · intro split
    obtain ⟨value, first, executed, rest⟩ := split
    obtain ⟨second, rfl, continued⟩ := runs_recorded_iff.mp rest
    exact ⟨value, first, second, executed, continued, rfl⟩
  · intro split
    obtain ⟨value, first, second, executed, continued, rfl⟩ := split
    exact ⟨value, first, executed, runs_recorded_iff.mpr ⟨second, rfl, continued⟩⟩

/-- A fallible sequence that succeeds has succeeded in its parts. -/
theorem logged_except_bind_ok_iff {program : ExceptT ε (Program Request Reply) α}
    {continuation : α → ExceptT ε (Program Request Reply) β} {result : β}
    {log : List (Event Reply)} :
    Logged (program >>= continuation).run (.ok result) log ↔
      ∃ value first second, Logged program.run (.ok value) first ∧
        Logged (continuation value).run (.ok result) second ∧ log = first ++ second := by
  rw [logged_except_bind_iff]
  constructor
  · intro split
    rcases split with continued | stopped
    · exact continued
    · obtain ⟨error, -, same⟩ := stopped
      cases same
  · exact .inl

/-- A sequence that succeeds, behind a part that leaves one event when it does. -/
theorem logged_single_bind_ok_iff {program : ExceptT ε (Program Request Reply) α}
    {event : α → Event Reply}
    (single : ∀ {value log}, Logged program.run (.ok value) log ↔ log = [event value])
    {continuation : α → ExceptT ε (Program Request Reply) β} {result : β}
    {log : List (Event Reply)} :
    Logged (program >>= continuation).run (.ok result) log ↔
      ∃ value rest, log = event value :: rest ∧
        Logged (continuation value).run (.ok result) rest := by
  rw [logged_except_bind_ok_iff]
  constructor
  · intro split
    obtain ⟨value, first, rest, asked, continued, rfl⟩ := split
    exact ⟨value, rest, by rw [single.mp asked, List.singleton_append], continued⟩
  · intro split
    obtain ⟨value, rest, rfl, continued⟩ := split
    exact ⟨value, [event value], rest, single.mpr rfl, continued, rfl⟩

/-- A fallible sequence that fails has failed in its first part or behind it. -/
theorem logged_except_bind_error_iff {program : ExceptT ε (Program Request Reply) α}
    {continuation : α → ExceptT ε (Program Request Reply) β} {error : ε}
    {log : List (Event Reply)} :
    Logged (program >>= continuation).run (.error error) log ↔
      (∃ value first second, Logged program.run (.ok value) first ∧
        Logged (continuation value).run (.error error) second ∧ log = first ++ second) ∨
      Logged program.run (.error error) log := by
  rw [logged_except_bind_iff]
  refine or_congr_right ?_
  constructor
  · intro stopped
    obtain ⟨other, failed, same⟩ := stopped
    cases same
    exact failed
  · intro failed
    exact ⟨error, failed, rfl⟩

@[simp] theorem logged_lift_iff {program : Program Request Reply α} {result : Except ε α}
    {log : List (Event Reply)} :
    Logged (ExceptT.lift program : ExceptT ε (Program Request Reply) α).run result log ↔
      ∃ value, Logged program value log ∧ result = .ok value := by
  unfold ExceptT.lift
  rw [ExceptT.run_mk, logged_map_iff]

end Event

end AzureInit.Foundation
