import AzureInit.Imds.Query

/-! The time that a query takes, and when its attempts begin. -/

set_option autoImplicit false

namespace AzureInit.Imds

open Foundation

/-- When an attempt behind this one begins. -/
def Attempt.next {imds : ImdsConfig} (attempt : Attempt imds.requestTimeout) : Nat :=
  match attempt.exchange.reply.verdict with
  | .accepted body => attempt.start + attempt.exchange.latency + body.latency
  | _ => attempt.start + attempt.exchange.latency + imds.retryInterval

/-- Attempts of which the first begins at a time, and the others one behind the other. -/
def StartFrom (imds : ImdsConfig) : Nat → List (Attempt imds.requestTimeout) → Prop
  | _, [] => True
  | clock, attempt :: rest => attempt.start = clock ∧ StartFrom imds attempt.next rest

theorem startFrom_append {imds : ImdsConfig} {clock : Nat}
    {earlier later : List (Attempt imds.requestTimeout)} {last : Attempt imds.requestTimeout} :
    StartFrom imds clock (earlier ++ [last] ++ later) ↔
      StartFrom imds clock (earlier ++ [last]) ∧ StartFrom imds last.next later := by
  induction earlier generalizing clock with
  | nil => simp [StartFrom]
  | cons attempt earlier ih =>
      simp only [List.cons_append, StartFrom, ih, and_assoc]

theorem StartFrom.isChain {imds : ImdsConfig} {clock : Nat}
    {attempts : List (Attempt imds.requestTimeout)} (starts : StartFrom imds clock attempts) :
    attempts.IsChain fun attempt following => following.start = attempt.next := by
  induction attempts generalizing clock with
  | nil => exact .nil
  | cons attempt rest ih =>
      cases rest with
      | nil => exact .singleton _
      | cons following rest => exact .cons_cons starts.2.1 (ih starts.2)

/-! ## One request -/

section Request

variable (imds : ImdsConfig) (server : Nat → Exchange imds.requestTimeout)

/-- What a request leaves: all its attempts but the last one were repeated. -/
structure Requested (began retryFor : Nat) (run : Run imds.requestTimeout)
    (result : Except Error (Body × Nat)) (after : Run imds.requestTimeout)
    (earlier : List (Attempt imds.requestTimeout)) (last : Attempt imds.requestTimeout) :
    Prop where
  attempts : after.attempts = run.attempts ++ (earlier ++ [last])
  served : ∀ attempt ∈ earlier ++ [last], attempt.exchange ∈ Set.range server
  starts : StartFrom imds run.clock (earlier ++ [last])
  retried : ∀ attempt ∈ earlier, attempt.exchange.reply.verdict = .retry
  inTime : after.clock ≤ began + retryFor
  spaced : run.clock + earlier.length * imds.retryInterval ≤ after.clock
  accepted : ∀ body remaining, result = .ok (body, remaining) →
    last.exchange.reply.verdict = .accepted body ∧
      last.start + last.exchange.latency = after.clock ∧
      remaining = retryFor - (after.clock - began + imds.retryInterval)

theorem Requested.single {began retryFor clock : Nat} {run : Run imds.requestTimeout}
    {result : Except Error (Body × Nat)} {last : Attempt imds.requestTimeout}
    (served : last.exchange ∈ Set.range server) (start : last.start = run.clock)
    (later : run.clock ≤ clock)
    (inTime : clock ≤ began + retryFor)
    (accepted : ∀ body remaining, result = .ok (body, remaining) →
      last.exchange.reply.verdict = .accepted body ∧ last.start + last.exchange.latency = clock ∧
        remaining = retryFor - (clock - began + imds.retryInterval)) :
    Requested imds server began retryFor run result
      { clock, attempts := run.attempts ++ [last] } [] last where
  attempts := rfl
  served := by simpa using served
  starts := ⟨start, trivial⟩
  retried _ member := nomatch member
  inTime := inTime
  spaced := by simpa using later
  accepted := accepted

private theorem requested_of_inTime {began retryFor : Nat} {run : Run imds.requestTimeout}
    (inTime : run.clock ≤ began + retryFor) :
    ∃ earlier last, Requested imds server began retryFor run (request imds server began retryFor run).1
      (request imds server began retryFor run).2 earlier last := by
  fun_induction request imds server began retryFor run with
  | case1 run exchange arrived sent late =>
      exact ⟨[], _, .single imds server ⟨_, rfl⟩ rfl inTime (Nat.le_refl _) (by simp)⟩
  | case2 run exchange arrived sent onTime body accepted =>
      refine ⟨[], _, .single imds server ⟨_, rfl⟩ rfl (Nat.le_add_right _ _) (Nat.le_of_not_lt onTime) ?_⟩
      intro other remaining same
      cases same
      exact ⟨accepted, rfl, rfl⟩
  | case3 run exchange arrived sent onTime status fatal =>
      exact ⟨[], _, .single imds server ⟨_, rfl⟩ rfl (Nat.le_add_right _ _) (Nat.le_of_not_lt onTime) (by simp)⟩
  | case4 run exchange arrived sent onTime retry late =>
      exact ⟨[], _, .single imds server ⟨_, rfl⟩ rfl inTime (Nat.le_refl _) (by simp)⟩
  | case5 run exchange arrived sent onTime retry pause ih =>
      obtain ⟨earlier, last, requested⟩ := ih (Nat.le_of_not_lt pause)
      refine ⟨{ start := run.clock, exchange } :: earlier, last, ?_, ?_, ⟨rfl, ?_⟩, ?_,
        requested.inTime, ?_, requested.accepted⟩
      · rw [requested.attempts]
        simp [sent, Run.waitUntil]
      · exact List.forall_mem_cons.mpr ⟨⟨_, rfl⟩, requested.served⟩
      · have next : ({ start := run.clock, exchange } : Attempt imds.requestTimeout).next =
            arrived + imds.retryInterval := by
          simp only [Attempt.next, retry]
          rfl
        rw [next]
        exact requested.starts
      · exact List.forall_mem_cons.mpr ⟨retry, requested.retried⟩
      · have spaced := requested.spaced
        change run.clock + exchange.latency + imds.retryInterval + _ ≤ _ at spaced
        rw [List.length_cons, Nat.add_mul, Nat.one_mul]
        omega

theorem exists_requested {retryFor : Nat} {run after : Run imds.requestTimeout}
    {result : Except Error (Body × Nat)}
    (requested : request imds server run.clock retryFor run = (result, after)) :
    ∃ earlier last, Requested imds server run.clock retryFor run result after earlier last := by
  have left := requested_of_inTime imds server (Nat.le_add_right run.clock retryFor)
  rw [requested] at left
  exact left

end Request

/-! ## The whole query -/

section Query

variable (imds : ImdsConfig) (server : Nat → Exchange imds.requestTimeout)
  {α : Type} (fromStr : Text → Option α)

/-- A body that is not used. -/
def Body.isRejected {α : Type} (fromStr : Text → Option α) (body : Body) : Bool :=
  (body.text.bind fromStr).isNone

/-- How much longer than a pause a body is read that is not used. -/
def Attempt.uncharged {α : Type} {imds : ImdsConfig} (fromStr : Text → Option α)
    (attempt : Attempt imds.requestTimeout) : Nat :=
  match attempt.exchange.reply.verdict with
  | .accepted body => if body.isRejected fromStr then body.latency - imds.retryInterval else 0
  | _ => 0

theorem latency_le_of_accepted {requestTimeout : Nat} {exchange : Exchange requestTimeout}
    {body : Body} (accepted : exchange.reply.verdict = .accepted body) :
    exchange.latency + body.latency ≤ requestTimeout := by
  have bounded := exchange.bounded
  cases reply : exchange.reply with
  | failed =>
      rw [reply] at accepted
      cases accepted
  | response status other =>
      rw [reply] at accepted bounded
      unfold Reply.verdict at accepted
      simp only at accepted
      split_ifs at accepted
      cases accepted
      exact bounded

theorem uncharged_of_retried {earlier : List (Attempt imds.requestTimeout)}
    (retried : ∀ attempt ∈ earlier, attempt.exchange.reply.verdict = .retry) :
    (earlier.map (Attempt.uncharged fromStr)).sum = 0 := by
  rw [List.sum_eq_zero_iff]
  intro time member
  obtain ⟨attempt, inEarlier, rfl⟩ := List.mem_map.mp member
  simp only [Attempt.uncharged, retried attempt inEarlier]

/-- What the rest of a query adds to a run. -/
structure Queried (totalTimeout : Nat) (run after : Run imds.requestTimeout)
    (added : List (Attempt imds.requestTimeout)) : Prop where
  attempts : after.attempts = run.attempts ++ added
  served : ∀ attempt ∈ added, attempt.exchange ∈ Set.range server
  starts : StartFrom imds run.clock added
  stopped : totalTimeout = 0 → added = [] ∧ after = run
  tried : totalTimeout ≠ 0 → added ≠ []
  count : added.length * imds.retryInterval ≤ totalTimeout + imds.retryInterval
  elapsed : after.clock ≤ run.clock + totalTimeout + imds.requestTimeout +
    (added.dropLast.map (Attempt.uncharged fromStr)).sum

/-- A query whose last request ended with an error. -/
theorem Queried.of_error {totalTimeout : Nat} {run after : Run imds.requestTimeout}
    {error : Error} {earlier : List (Attempt imds.requestTimeout)}
    {last : Attempt imds.requestTimeout} (given : totalTimeout ≠ 0)
    (requested : Requested imds server run.clock totalTimeout run (.error error) after earlier last) :
    Queried imds server fromStr totalTimeout run after (earlier ++ [last]) := by
  have spaced := requested.spaced
  have inTime := requested.inTime
  refine ⟨requested.attempts, requested.served, requested.starts, fun none => absurd none given,
    fun _ => List.concat_ne_nil _ _, ?_, ?_⟩
  · rw [List.length_append, List.length_singleton, Nat.add_mul, Nat.one_mul]
    omega
  · omega

section Read

variable {totalTimeout remaining : Nat} {run after : Run imds.requestTimeout} {body : Body}
  {earlier : List (Attempt imds.requestTimeout)} {last : Attempt imds.requestTimeout}

/-- A query that ends with a body that it has read. -/
theorem Queried.of_used (given : totalTimeout ≠ 0)
    (requested : Requested imds server run.clock totalTimeout run (.ok (body, remaining)) after
      earlier last) :
    Queried imds server fromStr totalTimeout run (after.waitUntil (after.clock + body.latency))
      (earlier ++ [last]) := by
  obtain ⟨accepted, -, -⟩ := requested.accepted body remaining rfl
  have bounded := latency_le_of_accepted accepted
  have spaced := requested.spaced
  have inTime := requested.inTime
  refine ⟨requested.attempts, requested.served, requested.starts,
    fun none => absurd none given, fun _ => List.concat_ne_nil _ _, ?_, ?_⟩
  · rw [List.length_append, List.length_singleton, Nat.add_mul, Nat.one_mul]
    omega
  · simp only [Run.waitUntil]
    omega

/-- A query that goes on behind a body. -/
theorem Queried.of_rejected {final : Run imds.requestTimeout}
    {added : List (Attempt imds.requestTimeout)} (given : totalTimeout ≠ 0)
    (requested : Requested imds server run.clock totalTimeout run (.ok (body, remaining)) after
      earlier last)
    (rejected : body.isRejected fromStr = true)
    (rest : Queried imds server fromStr remaining (after.waitUntil (after.clock + body.latency))
      final added) :
    Queried imds server fromStr totalTimeout run final (earlier ++ [last] ++ added) := by
  obtain ⟨accepted, arrived, charged⟩ := requested.accepted body remaining rfl
  have bounded := latency_le_of_accepted accepted
  have spaced := requested.spaced
  have inTime := requested.inTime
  have readClock : (after.waitUntil (after.clock + body.latency)).clock =
      after.clock + body.latency := rfl
  have next : last.next = after.clock + body.latency := by
    simp only [Attempt.next, accepted]
    rw [arrived]
  refine ⟨?_, ?_, ?_, fun none => absurd none given, fun _ => by simp, ?_, ?_⟩
  · rw [rest.attempts, ← List.append_assoc]
    exact congrArg (· ++ added) requested.attempts
  · exact List.forall_mem_append.mpr ⟨requested.served, rest.served⟩
  · rw [startFrom_append, next]
    exact ⟨requested.starts, rest.starts⟩
  · have count := rest.count
    rw [List.length_append, List.length_append, List.length_singleton, Nat.add_mul, Nat.add_mul,
      Nat.one_mul]
    by_cases spent : remaining = 0
    · rw [(rest.stopped spent).1, List.length_nil, Nat.zero_mul]
      omega
    · omega
  · have elapsed := rest.elapsed
    have uncharged : last.uncharged fromStr = body.latency - imds.retryInterval := by
      simp only [Attempt.uncharged, accepted, rejected, if_true]
    by_cases spent : remaining = 0
    · obtain ⟨rfl, rfl⟩ := rest.stopped spent
      omega
    · rw [List.dropLast_append_of_ne_nil (rest.tried spent), List.map_append, List.map_append,
        List.sum_append, List.sum_append, uncharged_of_retried imds fromStr requested.retried,
        List.map_singleton, List.sum_singleton, uncharged]
      omega

end Read

theorem exists_queried (totalTimeout : Nat) (run : Run imds.requestTimeout) :
    ∃ added, Queried imds server fromStr totalTimeout run
      (queryWith imds server fromStr totalTimeout run).2 added := by
  fun_induction queryWith imds server fromStr totalTimeout run with
  | case1 run => exact ⟨[], by simp, by simp, trivial, fun _ => ⟨rfl, rfl⟩, fun given => absurd rfl given,
      by simp, by simp⟩
  | case2 totalTimeout run given error after requested =>
      obtain ⟨earlier, last, left⟩ := exists_requested imds server requested
      exact ⟨_, .of_error imds server fromStr given left⟩
  | case3 totalTimeout run given body remaining after requested read metadata used =>
      obtain ⟨earlier, last, left⟩ := exists_requested imds server requested
      exact ⟨_, .of_used imds server fromStr given left⟩
  | case4 totalTimeout run given body remaining after requested read unused ih =>
      obtain ⟨earlier, last, left⟩ := exists_requested imds server requested
      obtain ⟨added, rest⟩ := ih
      have rejected : body.isRejected fromStr = true := by rw [Body.isRejected, unused]; rfl
      exact ⟨_, .of_rejected imds server fromStr given left rejected rest⟩

theorem exists_queried_query : ∃ added,
    (query imds server fromStr).2.attempts = added ∧
      Queried imds server fromStr imds.totalRetryTimeout .start (query imds server fromStr).2
        added := by
  obtain ⟨added, queried⟩ := exists_queried imds server fromStr imds.totalRetryTimeout .start
  exact ⟨added, queried.attempts, queried⟩

/-- The bodies that are read and not used are read within a time. -/
def RejectedWithin {α : Type} {requestTimeout : Nat} (fromStr : Text → Option α) (limit : Nat)
    (attempts : List (Attempt requestTimeout)) : Prop :=
  ∀ attempt ∈ attempts, ∀ body, attempt.exchange.reply.verdict = .accepted body →
    body.isRejected fromStr = true → body.latency ≤ limit

theorem uncharged_eq_zero {attempts : List (Attempt imds.requestTimeout)}
    (within : RejectedWithin fromStr imds.retryInterval attempts) :
    (attempts.map (Attempt.uncharged fromStr)).sum = 0 := by
  rw [List.sum_eq_zero_iff]
  intro time member
  obtain ⟨attempt, inAttempts, rfl⟩ := List.mem_map.mp member
  unfold Attempt.uncharged
  split
  · rename_i body accepted
    split
    · rename_i rejected
      exact Nat.sub_eq_zero_of_le (within attempt inAttempts body accepted rejected)
    · rfl
  · rfl

/-- A query takes no longer than it is charged for, one request, and what it is not charged for. -/
theorem clock_query_le_uncharged :
    (query imds server fromStr).2.clock ≤ imds.totalRetryTimeout + imds.requestTimeout +
      ((query imds server fromStr).2.attempts.dropLast.map (Attempt.uncharged fromStr)).sum := by
  obtain ⟨added, attempts, queried⟩ := exists_queried_query imds server fromStr
  have elapsed := queried.elapsed
  have began : (Run.start : Run imds.requestTimeout).clock = 0 := rfl
  rw [attempts]
  rw [began] at elapsed
  omega

theorem clock_query_le (within : RejectedWithin fromStr imds.retryInterval
    (query imds server fromStr).2.attempts.dropLast) :
    (query imds server fromStr).2.clock ≤ imds.totalRetryTimeout + imds.requestTimeout := by
  have elapsed := clock_query_le_uncharged imds server fromStr
  rwa [uncharged_eq_zero imds fromStr within, Nat.add_zero] at elapsed

/-! ## Bodies that cannot be read -/

/-- A server that answers at once with a body whose reading fails after a time. -/
def stalling {requestTimeout : Nat} (limit : Nat) (fits : limit ≤ requestTimeout) :
    Nat → Exchange requestTimeout := fun _ =>
  { latency := 0
    reply := .response 200 { latency := limit, text := none }
    bounded := by simpa [Reply.bodyLatency] using fits }

theorem request_stalling {limit retryFor : Nat} (fits : limit ≤ imds.requestTimeout)
    (run : Run imds.requestTimeout) :
    request imds (stalling limit fits) run.clock retryFor run =
      (.ok ({ latency := limit, text := none }, retryFor - imds.retryInterval),
        { clock := run.clock
          attempts := run.attempts ++ [{ start := run.clock, exchange := stalling limit fits 0 }] }) := by
  unfold request
  simp [stalling, Reply.verdict, isErrorStatus, Run.waitUntil]

/-- Every such body takes its time, and a pause from the budget. -/
theorem queryWith_stalling {limit : Nat} (fits : limit ≤ imds.requestTimeout) (rounds : Nat)
    (run : Run imds.requestTimeout) :
    (queryWith imds (stalling limit fits) fromStr (rounds * imds.retryInterval) run).2.clock =
      run.clock + rounds * limit := by
  have positive := imds.intervalPositive
  induction rounds generalizing run with
  | zero =>
      unfold queryWith
      simp
  | succ rounds ih =>
      have given : (rounds + 1) * imds.retryInterval ≠ 0 := by
        rw [Nat.add_mul]
        omega
      have left : (rounds + 1) * imds.retryInterval - imds.retryInterval =
          rounds * imds.retryInterval := by
        rw [Nat.add_mul]
        omega
      unfold queryWith
      rw [dif_neg given]
      split
      · rename_i requested
        rw [request_stalling imds fits] at requested
        cases requested
      · rename_i requested
        rw [request_stalling imds fits, left] at requested
        cases requested
        simp only [Option.bind_none]
        rw [ih]
        simp only [Run.waitUntil]
        rw [Nat.add_mul]
        omega

theorem rejectedWithin_of_server {limit : Nat}
    (within : ∀ number body, (server number).reply.verdict = .accepted body →
      body.isRejected fromStr = true → body.latency ≤ limit) :
    RejectedWithin fromStr limit (query imds server fromStr).2.attempts.dropLast := by
  obtain ⟨added, attempts, queried⟩ := exists_queried_query imds server fromStr
  intro attempt member body accepted rejected
  replace member := List.mem_of_mem_dropLast member
  rw [attempts] at member
  obtain ⟨number, served⟩ := queried.served attempt member
  rw [← served] at accepted
  exact within number body accepted rejected

theorem latency_of_stalling {requestTimeout limit number : Nat} (fits : limit ≤ requestTimeout)
    {body : Body} (accepted : (stalling limit fits number).reply.verdict = .accepted body) :
    body.latency = limit := by
  cases accepted
  rfl

end Query

/-- The same settings with another total timeout. -/
def ImdsConfig.withTotal (imds : ImdsConfig) (totalRetryTimeout : Nat) : ImdsConfig :=
  { imds with totalRetryTimeout }

/-- A query ends within its total timeout and one request, but for the time in which it reads
bodies that it does not use, beyond a pause each. So it does if each such body that is followed
by another attempt is read within a pause, and no longer limit on these bodies is enough. -/
theorem query_keeps_budget {α : Type} (fromStr : Text → Option α) :
    (∀ (imds : ImdsConfig) (server : Nat → Exchange imds.requestTimeout),
      (query imds server fromStr).2.clock ≤ imds.totalRetryTimeout + imds.requestTimeout +
        ((query imds server fromStr).2.attempts.dropLast.map (Attempt.uncharged fromStr)).sum) ∧
    (∀ (imds : ImdsConfig) (server : Nat → Exchange imds.requestTimeout),
      RejectedWithin fromStr imds.retryInterval (query imds server fromStr).2.attempts.dropLast →
        (query imds server fromStr).2.clock ≤ imds.totalRetryTimeout + imds.requestTimeout) ∧
    ∀ (imds : ImdsConfig) (limit : Nat), limit ≤ imds.requestTimeout →
      ((∀ (total : Nat) (server : Nat → Exchange (imds.withTotal total).requestTimeout),
        (∀ number body, (server number).reply.verdict = .accepted body →
          body.isRejected fromStr = true → body.latency ≤ limit) →
        (query (imds.withTotal total) server fromStr).2.clock ≤ total + imds.requestTimeout) ↔
      limit ≤ imds.retryInterval) := by
  refine ⟨fun imds server => clock_query_le_uncharged imds server fromStr,
    fun imds server => clock_query_le imds server fromStr, ?_⟩
  intro imds limit fits
  constructor
  · intro bounded
    by_contra long
    have slow := bounded ((imds.requestTimeout + 1) * imds.retryInterval) (stalling limit fits)
      fun number body accepted _ => Nat.le_of_eq (latency_of_stalling fits accepted)
    have clock : (query (imds.withTotal ((imds.requestTimeout + 1) * imds.retryInterval))
        (stalling limit fits) fromStr).2.clock = 0 + (imds.requestTimeout + 1) * limit :=
      queryWith_stalling (imds.withTotal ((imds.requestTimeout + 1) * imds.retryInterval)) fromStr
        fits (imds.requestTimeout + 1) .start
    rw [clock] at slow
    have longer : (imds.requestTimeout + 1) * (imds.retryInterval + 1) ≤
        (imds.requestTimeout + 1) * limit := Nat.mul_le_mul_left _ (by omega)
    rw [Nat.mul_add, Nat.mul_one] at longer
    omega
  · intro short total server within
    apply clock_query_le (imds.withTotal total) server fromStr
    apply rejectedWithin_of_server
    intro number body accepted rejected
    exact Nat.le_trans (within number body accepted rejected) short

/-- The default settings, and bodies that stop until each request times out. -/
theorem stalled_query_exceeds_budget :
    ¬ (query .default (stalling 60 (Nat.le_refl 60)) (fun _ : Text => some ())).2.clock ≤
      ImdsConfig.default.totalRetryTimeout + ImdsConfig.default.requestTimeout := by
  have clock : (query .default (stalling 60 (Nat.le_refl 60)) (fun _ : Text => some ())).2.clock =
      0 + 150 * 60 :=
    queryWith_stalling .default _ (Nat.le_refl 60) 150 .start
  rw [clock]
  decide

theorem query_keeps_budget_shortBodies :
    (query .default (stalling 2 (by decide)) (fun _ : Text => some ())).2.clock ≤ 300 + 60 := by
  apply (query_keeps_budget _).2.1 .default
  apply rejectedWithin_of_server
  intro number body accepted _
  exact Nat.le_of_eq (latency_of_stalling (by decide) accepted)

/-! ## Pauses -/

/-- Two relations hold in a chain alike if they agree on its neighbours. -/
theorem isChain_iff_of_isChain {α : Type} {neighbours left right : α → α → Prop} {values : List α}
    (chain : values.IsChain neighbours)
    (agree : ∀ first second, neighbours first second → (left first second ↔ right first second)) :
    values.IsChain left ↔ values.IsChain right := by
  induction chain with
  | nil => simp
  | singleton => simp
  | cons_cons step _ ih =>
      rw [List.isChain_cons_cons, List.isChain_cons_cons, agree _ _ step, ih]

theorem interval_le_next_iff {imds : ImdsConfig} (attempt : Attempt imds.requestTimeout) :
    attempt.start + imds.retryInterval ≤ attempt.next ↔
      ∀ body, attempt.exchange.reply.verdict = .accepted body →
        imds.retryInterval ≤ attempt.exchange.latency + body.latency := by
  unfold Attempt.next
  split
  · rename_i body accepted
    rw [accepted]
    simp only [Verdict.accepted.injEq, forall_eq']
    omega
  · rename_i others
    constructor
    · intro _ body accepted
      exact absurd accepted (others body)
    · intro _
      omega

/-- A query makes an attempt for each pause that its total timeout has room for, and one
more. Two attempts stand as far apart as a pause exactly if each exchange with a body that
is followed by another attempt takes as long as a pause. -/
theorem query_is_paced_iff {α : Type} (imds : ImdsConfig)
    (server : Nat → Exchange imds.requestTimeout) (fromStr : Text → Option α) :
    (query imds server fromStr).2.attempts.length ≤
      imds.totalRetryTimeout / imds.retryInterval + 1 ∧
    ((query imds server fromStr).2.attempts.IsChain
      (fun attempt following => attempt.start + imds.retryInterval ≤ following.start) ↔
    (query imds server fromStr).2.attempts.IsChain fun attempt _ =>
      ∀ body, attempt.exchange.reply.verdict = .accepted body →
        imds.retryInterval ≤ attempt.exchange.latency + body.latency) := by
  obtain ⟨added, attempts, queried⟩ := exists_queried_query imds server fromStr
  rw [attempts]
  constructor
  · rw [← Nat.add_div_right _ imds.intervalPositive, Nat.le_div_iff_mul_le imds.intervalPositive]
    exact queried.count
  · apply isChain_iff_of_isChain queried.starts.isChain
    intro attempt following step
    rw [step]
    exact interval_le_next_iff attempt

/-- A settings file with room for two pauses, and bodies that fail at once. -/
theorem malformed_bodies_are_not_paced :
    ¬ (query { ImdsConfig.default with totalRetryTimeout := 4 } (stalling 0 (by decide))
      (fun _ : Text => some ())).2.attempts.IsChain
        (fun attempt following => attempt.start + 2 ≤ following.start) := by
  decide +kernel

end AzureInit.Imds
