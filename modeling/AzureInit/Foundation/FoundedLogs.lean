import AzureInit.Foundation.Protocols
import AzureInit.Foundation.Fallback

/-! What has happened before a request is made: logs in which every request has its
ground in the events in front of it. -/

set_option autoImplicit false

namespace AzureInit.Foundation

namespace Program

variable {Request : Type} {Reply : Request → Type} {α β : Type}

/-- Every result of the program is a good one, whatever its requests are answered. -/
def Yields (good : α → Prop) : Program Request Reply α → Prop
  | .done result => good result
  | .call _ next => ∀ reply, (next reply).Yields good

theorem Yields.bind {between : α → Prop} {good : β → Prop} {program : Program Request Reply α}
    {continuation : α → Program Request Reply β} (first : program.Yields between)
    (rest : ∀ value, between value → (continuation value).Yields good) :
    (program >>= continuation).Yields good := by
  induction program with
  | done value => exact rest value first
  | call request next ih => exact fun reply => ih reply (first reply)

theorem yields_of_forall {good : α → Prop} (program : Program Request Reply α)
    (every : ∀ value, good value) : program.Yields good := by
  induction program with
  | done value => exact every value
  | call request next ih => exact fun reply => ih reply

theorem Uses.imp {permitted allowed : Request → Prop} {program : Program Request Reply α}
    (uses : program.Uses permitted) (weaker : ∀ request, permitted request → allowed request) :
    program.Uses allowed := by
  induction program with
  | done => trivial
  | call request next ih => exact ⟨weaker _ uses.1, fun reply => ih reply (uses.2 reply)⟩

/-- A sequence, through the results of its first part. -/
theorem Uses.bindYields {permitted : Request → Prop} {good : α → Prop}
    {program : Program Request Reply α} {continuation : α → Program Request Reply β}
    (first : program.Uses permitted) (yields : program.Yields good)
    (rest : ∀ value, good value → (continuation value).Uses permitted) :
    (program >>= continuation).Uses permitted := by
  induction program with
  | done value => exact rest value yields
  | call request next ih => exact ⟨first.1, fun reply => ih reply (first.2 reply) (yields reply)⟩

variable {ε Alternative : Type}

/-- The errors of a fallible sequence are those of its parts. -/
theorem yieldsError_bind {bad : ε → Prop} {program : ExceptT ε (Program Request Reply) α}
    {continuation : α → ExceptT ε (Program Request Reply) β}
    (first : program.run.Yields fun outcome => ∀ error, outcome = .error error → bad error)
    (rest : ∀ value,
      (continuation value).run.Yields fun outcome => ∀ error, outcome = .error error → bad error) :
    (program >>= continuation).run.Yields
      fun outcome => ∀ error, outcome = .error error → bad error := by
  rw [ExceptT.run_bind]
  refine first.bind fun outcome errors => ?_
  cases outcome with
  | ok value => exact rest value
  | error error =>
      intro other same
      cases same
      exact errors error rfl

/-- What cannot fail has no errors. -/
theorem yieldsError_lift {bad : ε → Prop} (program : Program Request Reply α) :
    (ExceptT.lift program : ExceptT ε (Program Request Reply) α).run.Yields
      fun outcome => ∀ error, outcome = .error error → bad error := by
  unfold ExceptT.lift
  rw [ExceptT.run_mk, ← bind_pure_comp]
  exact (yields_of_forall program fun _ => trivial).bind fun _ _ error same => nomatch same

theorem uses_findOk {permitted : Request → Prop}
    {attempt : Alternative → ExceptT ε (Program Request Reply) α}
    (each : ∀ alternative, (attempt alternative).run.Uses permitted)
    (alternatives : List Alternative) : (findOk attempt alternatives).Uses permitted := by
  induction alternatives with
  | nil => trivial
  | cons alternative rest ih =>
      refine (each alternative).bind fun outcome => ?_
      cases outcome with
      | ok value => exact uses_pure _
      | error error => exact ih

theorem uses_findOkOr {permitted : Request → Prop} {ε' : Type} {error : ε'}
    {attempt : Alternative → ExceptT ε (Program Request Reply) α}
    (each : ∀ alternative, (attempt alternative).run.Uses permitted)
    (alternatives : List Alternative) :
    (findOkOr attempt alternatives error).run.Uses permitted :=
  (uses_findOk each alternatives).bind fun found => by cases found <;> exact uses_pure _

/-! ## Answers that do not matter -/

/-- Whatever such a request is answered, the program goes on in the same way. -/
def Ignores (ignored : Request → Prop) : Program Request Reply α → Prop
  | .done _ => True
  | .call request next =>
      (ignored request → ∀ reply other, next reply = next other) ∧
        ∀ reply, (next reply).Ignores ignored

theorem ignores_pure {ignored : Request → Prop} (value : α) :
    (pure value : Program Request Reply α).Ignores ignored := trivial

theorem Ignores.bind {ignored : Request → Prop} {program : Program Request Reply α}
    {continuation : α → Program Request Reply β} (first : program.Ignores ignored)
    (rest : ∀ value, (continuation value).Ignores ignored) :
    (program >>= continuation).Ignores ignored := by
  induction program with
  | done value => exact rest value
  | call request next ih =>
      refine ⟨fun allowed reply other => ?_, fun reply => ih reply (first.2 reply)⟩
      show next reply >>= continuation = next other >>= continuation
      rw [first.1 allowed reply other]

/-- A request whose answer is thrown away. -/
theorem ignores_call {ignored : Request → Prop} {program : Program Request Reply α}
    (request : Request) (ignores : program.Ignores ignored) :
    (Program.call request fun _ => program).Ignores ignored :=
  ⟨fun _ _ _ => rfl, fun _ => ignores⟩

/-- What is never asked for is never gone by. -/
theorem Uses.ignores {permitted ignored : Request → Prop} {program : Program Request Reply α}
    (uses : program.Uses permitted) (apart : ∀ request, permitted request → ¬ ignored request) :
    program.Ignores ignored := by
  induction program with
  | done => trivial
  | call request next ih =>
      exact ⟨fun allowed => (apart request uses.1 allowed).elim, fun reply => ih reply (uses.2 reply)⟩

end Program

namespace Event

variable {Request : Type} {Reply : Request → Type} {α β ε : Type}

/-- Behind the earlier events, every request of the log has its ground when it is made. -/
def Founded (ground : Request → List (Event Reply) → Prop) :
    (earlier log : List (Event Reply)) → Prop
  | _, [] => True
  | earlier, event :: log =>
      ground event.request earlier ∧ Founded ground (earlier ++ [event]) log

variable {ground : Request → List (Event Reply) → Prop} {earlier log : List (Event Reply)}

@[simp] theorem founded_nil : Founded ground earlier [] := trivial

theorem founded_append_iff {first second : List (Event Reply)} :
    Founded ground earlier (first ++ second) ↔
      Founded ground earlier first ∧ Founded ground (earlier ++ first) second := by
  induction first generalizing earlier with
  | nil => simp
  | cons event first ih =>
      simp only [List.cons_append, Founded, ih, List.append_assoc, List.nil_append,
        and_assoc]

/-- The ground of a request that stands anywhere in a founded log. -/
theorem Founded.at {before after : List (Event Reply)} {event : Event Reply}
    (founded : Founded ground earlier (before ++ event :: after)) :
    ground event.request (earlier ++ before) :=
  (founded_append_iff.mp founded).2.1

private theorem permitted_of_runs {permitted : Request → Prop} {program : Program Request Reply α}
    {result : α} {before after : List (Event Reply)} (execution : program.Runs Recorded before result after)
    (uses : program.Uses permitted) (held : ∀ event ∈ before, permitted event.request) :
    ∀ event ∈ after, permitted event.request := by
  induction execution with
  | done => exact held
  | call stepped _ ih =>
      refine ih (uses.2 _) ?_
      rw [stepped]
      intro event member
      rcases List.mem_append.mp member with old | new
      · exact held event old
      · rw [List.mem_singleton.mp new]
        exact uses.1

/-- The requests in the log of a program are those that it uses. -/
theorem mem_uses {permitted : Request → Prop} {program : Program Request Reply α} {result : α}
    (uses : program.Uses permitted) (logged : Logged program result log) :
    ∀ event ∈ log, permitted event.request :=
  permitted_of_runs logged uses fun _ member => nomatch member

private theorem good_of_runs {good : α → Prop} {program : Program Request Reply α} {result : α}
    {before after : List (Event Reply)} (execution : program.Runs Recorded before result after)
    (yields : program.Yields good) : good result := by
  induction execution with
  | done => exact yields
  | call _ _ ih => exact ih (yields _)

theorem good_of_logged {good : α → Prop} {program : Program Request Reply α} {result : α}
    (yields : program.Yields good) (logged : Logged program result log) : good result :=
  good_of_runs logged yields

/-- Grounds that hold of all the requests a program uses, whatever it has asked so far. -/
theorem founded_of_uses {permitted : Request → Prop} {program : Program Request Reply α}
    {result : α} (uses : program.Uses permitted) (logged : Logged program result log)
    (grounded : ∀ request later, permitted request → ground request (earlier ++ later)) :
    Founded ground earlier log := by
  have used := mem_uses uses logged
  clear logged
  have general : ∀ passed, Founded ground (earlier ++ passed) log := by
    induction log with
    | nil => exact fun _ => trivial
    | cons event log ih =>
        intro passed
        refine ⟨grounded _ _ (used event List.mem_cons_self), ?_⟩
        rw [List.append_assoc]
        exact ih (fun other member => used other (List.mem_cons_of_mem _ member)) _
  simpa using general []

/-- A fallible sequence is founded when its first part is, and its second part is behind
every success of the first. -/
theorem founded_bind {program : ExceptT ε (Program Request Reply) α}
    {continuation : α → ExceptT ε (Program Request Reply) β} {result : Except ε β}
    (logged : Logged (program >>= continuation).run result log)
    (first : ∀ outcome log, Logged program.run outcome log → Founded ground earlier log)
    (rest : ∀ value result before log, Logged program.run (.ok value) before →
      Logged (continuation value).run result log → Founded ground (earlier ++ before) log) :
    Founded ground earlier log := by
  rcases logged_except_bind_iff.mp logged with continued | stopped
  · obtain ⟨value, before, after, begun, ended, rfl⟩ := continued
    exact founded_append_iff.mpr ⟨first _ _ begun, rest _ _ _ _ begun ended⟩
  · obtain ⟨error, failed, rfl⟩ := stopped
    exact first _ _ failed

/-- Alternatives in turn are founded when each of them is, wherever it is tried. -/
theorem founded_findOkOr {Alternative ε' : Type}
    {attempt : Alternative → ExceptT ε (Program Request Reply) α}
    {alternatives : List Alternative} {error : ε'} {result : Except ε' α}
    (logged : Logged (Program.findOkOr attempt alternatives error).run result log)
    (each : ∀ alternative outcome passed log, Logged (attempt alternative).run outcome log →
      Founded ground (earlier ++ passed) log) :
    Founded ground earlier log := by
  have inVain : ∀ {failed passed log}, FailedInTurn attempt failed log →
      Founded ground (earlier ++ passed) log := by
    intro failed passed log failures
    induction failures generalizing passed with
    | nil => trivial
    | cons tried _ ih =>
        refine founded_append_iff.mpr ⟨each _ _ _ _ tried, ?_⟩
        rw [List.append_assoc]
        exact ih
  rcases logged_findOkOr_iff.mp logged with found | missing
  · obtain ⟨value, searched, -⟩ := found
    obtain ⟨failed, chosen, untried, before, last, -, failures, succeeded, rfl⟩ :=
      logged_findOk_some_iff.mp searched
    have begun : Founded ground (earlier ++ []) _ := inVain failures
    rw [List.append_nil] at begun
    exact founded_append_iff.mpr ⟨begun, each _ _ _ _ succeeded⟩
  · obtain ⟨failures, -⟩ := missing
    have begun : Founded ground (earlier ++ []) _ := inVain failures
    rwa [List.append_nil] at begun

/-- With another answer that does not matter, the execution is the same. -/
theorem logged_of_ignores {ignored : Request → Prop} {program : Program Request Reply α}
    {result : α} {before after : List (Event Reply)} {request : Request} {reply : Reply request}
    (ignores : program.Ignores ignored) (allowed : ignored request)
    (logged : Logged program result (before ++ ⟨request, reply⟩ :: after)) (other : Reply request) :
    Logged program result (before ++ ⟨request, other⟩ :: after) := by
  induction program generalizing before with
  | done value =>
      have none := (logged_pure_iff.mp logged).2
      simp at none
  | call asked next ih =>
      obtain ⟨answer, rest, continued, split⟩ := logged_call_iff.mp logged
      cases before with
      | nil =>
          cases split
          refine logged_call_iff.mpr ⟨other, after, ?_, rfl⟩
          rwa [ignores.1 allowed other reply]
      | cons event before =>
          obtain ⟨rfl, rfl⟩ := List.cons_eq_cons.mp split
          exact logged_call_iff.mpr ⟨answer, _, ih answer (ignores.2 answer) continued, rfl⟩

/-! ## Executions that are cut off -/

/-- Whatever is asked, there is something to answer. -/
theorem exists_runs [∀ request, Nonempty (Reply request)] (program : Program Request Reply α)
    (log : List (Event Reply)) :
    ∃ result more, program.Runs Recorded log result (log ++ more) := by
  induction program generalizing log with
  | done value =>
      refine ⟨value, [], ?_⟩
      rw [List.append_nil]
      exact .done
  | call request next ih =>
      obtain ⟨reply⟩ : Nonempty (Reply request) := inferInstance
      obtain ⟨result, more, execution⟩ := ih reply (log ++ [⟨request, reply⟩])
      rw [List.append_assoc] at execution
      exact ⟨result, _, .call rfl execution⟩

/-- An execution that is cut off could have gone on to an end. -/
theorem exists_logged_of_reaches [∀ request, Nonempty (Reply request)]
    {program rest : Program Request Reply α}
    (reached : Program.Reaches Recorded program [] rest log) :
    ∃ result more, Logged program result (log ++ more) := by
  obtain ⟨result, more, execution⟩ := exists_runs rest log
  exact ⟨result, more, reached.runs execution⟩

/-- So its log is founded when those of the whole executions are. -/
theorem founded_of_reaches [∀ request, Nonempty (Reply request)]
    {program rest : Program Request Reply α}
    (reached : Program.Reaches Recorded program [] rest log)
    (founded : ∀ result log, Logged program result log → Founded ground [] log) :
    Founded ground [] log := by
  obtain ⟨result, more, logged⟩ := exists_logged_of_reaches reached
  exact (founded_append_iff.mp (founded _ _ logged)).1

end Event

end AzureInit.Foundation
