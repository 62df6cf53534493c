import AzureInit.Foundation.RetrySchedule
import AzureInit.Imds.QueryBudget

/-! Which attempt decides a request, and what it comes to. -/

set_option autoImplicit false

namespace AzureInit.Imds

open Foundation

section Request

variable (imds : ImdsConfig) (server : Nat → Exchange imds.requestTimeout)

def latency (number : Nat) : Nat := (server number).latency

/-- The loop makes the attempt again. -/
def Retried (number : Nat) : Prop := (server number).reply.verdict = .retry

/-- The attempt behind a number of others that decides a request. -/
abbrev Decided (clock first deadline count : Nat) : Prop :=
  Retry.Decided (latency imds server) imds.retryInterval (Retried imds server) clock first deadline
    count

/-- What a request answers with the verdict on the attempt that decides it. -/
def Verdict.answer (remaining : Nat) : Verdict → Except Error (Body × Nat)
  | .accepted body => .ok (body, remaining)
  | .fatal status => .error (.status status)
  | .retry => .error .timeout

/-- The attempt of a number, if all before it are made again. -/
def attemptAt (clock first count : Nat) : Attempt imds.requestTimeout :=
  { start := Retry.opens (latency imds server) imds.retryInterval clock first count
    exchange := server (first + count) }

/-- The run behind an attempt that is made again. -/
def again (run : Run imds.requestTimeout) : Run imds.requestTimeout where
  clock := run.clock + latency imds server run.attempts.length + imds.retryInterval
  attempts := run.attempts ++ [attemptAt imds server run.clock run.attempts.length 0]

@[simp] theorem length_again (run : Run imds.requestTimeout) :
    (again imds server run).attempts.length = run.attempts.length + 1 :=
  List.length_append

theorem opens_again (run : Run imds.requestTimeout) (count : Nat) :
    Retry.opens (latency imds server) imds.retryInterval (again imds server run).clock
        (run.attempts.length + 1) count =
      Retry.opens (latency imds server) imds.retryInterval run.clock run.attempts.length
        (count + 1) := by
  rw [Nat.add_comm count]
  exact Retry.opens_append _ _ run.clock run.attempts.length 1 count

theorem attemptAt_again (run : Run imds.requestTimeout) (count : Nat) :
    attemptAt imds server (again imds server run).clock (run.attempts.length + 1) count =
      attemptAt imds server run.clock run.attempts.length (count + 1) := by
  have number : run.attempts.length + 1 + count = run.attempts.length + (count + 1) := by omega
  unfold attemptAt
  rw [opens_again, number]

/-- The attempts up to a number. -/
def attemptsUpTo (clock first count : Nat) : List (Attempt imds.requestTimeout) :=
  (List.range (count + 1)).map (attemptAt imds server clock first)

theorem attempts_again (run : Run imds.requestTimeout) (count : Nat) :
    (again imds server run).attempts ++
        attemptsUpTo imds server (again imds server run).clock (run.attempts.length + 1) count =
      run.attempts ++ attemptsUpTo imds server run.clock run.attempts.length (count + 1) := by
  have shifted : attemptAt imds server (again imds server run).clock (run.attempts.length + 1) =
      attemptAt imds server run.clock run.attempts.length ∘ Nat.succ :=
    funext fun count => attemptAt_again imds server run count
  rw [attemptsUpTo, attemptsUpTo, shifted, @List.range_succ_eq_map (count + 1), List.map_cons,
    List.map_map, again, List.append_assoc, List.singleton_append]

variable {imds server} {began retryFor count : Nat} {run : Run imds.requestTimeout}

/-- An attempt that is made again, and the rest of the request behind it. -/
theorem request_of_retried (retried : Retried imds server run.attempts.length)
    (inTime : run.clock + latency imds server run.attempts.length + imds.retryInterval ≤
      began + retryFor) :
    request imds server began retryFor run =
      request imds server began retryFor (again imds server run) := by
  unfold Retried at retried
  unfold latency at inTime
  rw [request, if_neg (by omega)]
  split
  · rename_i accepted
    cases retried.symm.trans accepted
  · rename_i fatal
    cases retried.symm.trans fatal
  · rw [if_neg (by omega)]
    rfl

/-- The first attempt decides. -/
theorem request_of_decisive (decisive : ¬ Retried imds server run.attempts.length)
    (inTime : run.clock + latency imds server run.attempts.length ≤ began + retryFor) :
    request imds server began retryFor run =
      ((server run.attempts.length).reply.verdict.answer
        (retryFor - (run.clock + latency imds server run.attempts.length - began +
          imds.retryInterval)),
        { clock := run.clock + latency imds server run.attempts.length
          attempts := run.attempts ++ [attemptAt imds server run.clock run.attempts.length 0] }) := by
  unfold latency at inTime ⊢
  rw [request, if_neg (by omega)]
  split
  · rename_i accepted
    rw [accepted]
    rfl
  · rename_i fatal
    rw [fatal]
    rfl
  · rename_i retry
    exact absurd retry decisive

/-- A request answers with the attempt that decides it, when the reply arrives. -/
theorem request_of_decided
    (decided : Decided imds server run.clock run.attempts.length (began + retryFor) count) :
    request imds server began retryFor run =
      ((server (run.attempts.length + count)).reply.verdict.answer
        (retryFor - (Retry.opens (latency imds server) imds.retryInterval run.clock
          run.attempts.length count + latency imds server (run.attempts.length + count) - began +
            imds.retryInterval)),
        { clock := Retry.opens (latency imds server) imds.retryInterval run.clock
            run.attempts.length count + latency imds server (run.attempts.length + count)
          attempts := run.attempts ++
            attemptsUpTo imds server run.clock run.attempts.length count }) := by
  induction count generalizing run with
  | zero =>
      obtain ⟨decisive, inTime⟩ := Retry.decided_zero_iff.mp decided
      exact request_of_decisive decisive inTime
  | succ count ih =>
      obtain ⟨retried, rest⟩ := Retry.decided_succ_iff.mp decided
      have inTime : run.clock + latency imds server run.attempts.length + imds.retryInterval ≤
          began + retryFor := by
        by_contra late
        exact Retry.not_decided_of_late (Nat.lt_of_not_le late) rest
      have number : run.attempts.length + 1 + count = run.attempts.length + (count + 1) := by omega
      rw [← length_again imds server run] at rest
      rw [request_of_retried retried inTime, ih rest, length_again, attempts_again, opens_again,
        number]

/-- A request that no attempt decides uses up its time. -/
theorem request_of_undecided (inTime : run.clock ≤ began + retryFor)
    (undecided : ∀ count,
      ¬ Decided imds server run.clock run.attempts.length (began + retryFor) count) :
    (request imds server began retryFor run).1 = .error .timeout ∧
      (request imds server began retryFor run).2.clock = began + retryFor := by
  fun_induction request imds server began retryFor run with
  | case1 run exchange arrived sent late => exact ⟨rfl, rfl⟩
  | case2 run exchange arrived sent onTime body accepted =>
      refine absurd (Retry.decided_zero_iff.mpr ⟨?_, Nat.le_of_not_lt onTime⟩) (undecided 0)
      intro retried
      cases accepted.symm.trans retried
  | case3 run exchange arrived sent onTime status fatal =>
      refine absurd (Retry.decided_zero_iff.mpr ⟨?_, Nat.le_of_not_lt onTime⟩) (undecided 0)
      intro retried
      cases fatal.symm.trans retried
  | case4 run exchange arrived sent onTime retry late => exact ⟨rfl, rfl⟩
  | case5 run exchange arrived sent onTime retry pause ih =>
      refine ih (Nat.le_of_not_lt pause) fun count decided => undecided (count + 1) ?_
      have length : (sent.waitUntil (arrived + imds.retryInterval)).attempts.length =
          run.attempts.length + 1 := List.length_append
      rw [length] at decided
      exact Retry.decided_succ_iff.mpr ⟨retry, decided⟩

/-- A request on a clock that begins with it. -/
theorem decided_request_iff {clock first total : Nat} :
    Decided imds server clock first (clock + total) count ↔ Decided imds server 0 first total count := by
  have shifted := @Retry.decided_add_iff (latency imds server) imds.retryInterval
    (Retried imds server) 0 first total count clock
  rwa [Nat.zero_add, Nat.add_comm total] at shifted

/-- What a request comes to: an attempt decides it, or none does. -/
theorem request_cases {result : Except Error (Body × Nat)} {after : Run imds.requestTimeout}
    (requested : request imds server run.clock retryFor run = (result, after)) :
    (∃ count, Decided imds server 0 run.attempts.length retryFor count ∧
      after.attempts.length = run.attempts.length + (count + 1) ∧
      result = (server (run.attempts.length + count)).reply.verdict.answer (retryFor -
        Retry.opens (latency imds server) imds.retryInterval 0 run.attempts.length (count + 1))) ∨
    ((∀ count, ¬ Decided imds server 0 run.attempts.length retryFor count) ∧
      result = .error .timeout) := by
  by_cases some : ∃ count, Decided imds server 0 run.attempts.length retryFor count
  · obtain ⟨count, decided⟩ := some
    have answered := request_of_decided (decided_request_iff.mpr decided)
    rw [requested] at answered
    obtain ⟨rfl, rfl⟩ := Prod.mk.inj answered
    refine .inl ⟨count, decided, ?_, ?_⟩
    · simp [attemptsUpTo]
    · have shifted := Retry.opens_add (latency imds server) imds.retryInterval 0 run.clock
        run.attempts.length count
      rw [Nat.zero_add] at shifted
      rw [shifted, Retry.opens]
      congr 2
      omega
  · have none := not_exists.mp some
    have ended := request_of_undecided (Nat.le_add_right run.clock retryFor) fun count decided =>
      none count (decided_request_iff.mp decided)
    rw [requested] at ended
    exact .inr ⟨none, ended.1⟩

/-- A body that a request answers with comes from the attempt that decides it. -/
theorem decided_of_accepted {body : Body} {remaining : Nat} {after : Run imds.requestTimeout}
    (requested : request imds server run.clock retryFor run = (.ok (body, remaining), after)) :
    ∃ count, Decided imds server 0 run.attempts.length retryFor count ∧
      after.attempts.length = run.attempts.length + (count + 1) ∧
      remaining = retryFor -
        Retry.opens (latency imds server) imds.retryInterval 0 run.attempts.length (count + 1) ∧
      (server (run.attempts.length + count)).reply.verdict = .accepted body := by
  rcases request_cases requested with decided | undecided
  · obtain ⟨count, decided, length, answered⟩ := decided
    refine ⟨count, decided, length, ?_⟩
    cases verdict : (server (run.attempts.length + count)).reply.verdict with
    | accepted other =>
        rw [verdict] at answered
        cases answered
        exact ⟨rfl, rfl⟩
    | fatal status =>
        rw [verdict] at answered
        cases answered
    | retry => exact absurd verdict decided.decisive
  · cases undecided.2

end Request

end AzureInit.Imds
