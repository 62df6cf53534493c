import AzureInit.Imds.RequestDecision

/-! What a query comes to. Each attempt that does not decide it is charged with its latency
and a pause, and the reading of bodies is free. -/

set_option autoImplicit false

namespace AzureInit.Imds

open Foundation

variable {α : Type} (fromStr : Text → Option α)

/-- What a verdict makes of a query, if it ends it. -/
def Verdict.result : Verdict → Option (Except Error α)
  | .accepted body => (body.text.bind fromStr).map .ok
  | .fatal status => some (.error (.status status))
  | .retry => none

section Query

variable (imds : ImdsConfig) (server : Nat → Exchange imds.requestTimeout)

/-- The query goes on behind the attempt. -/
def Passed (number : Nat) : Prop := (server number).reply.verdict.result fromStr = none

/-- A request begins with the attempt. -/
def Opening (first : Nat) : Nat → Prop
  | 0 => True
  | before + 1 => ¬ Retried imds server (first + before)

/-- The attempt that decides what is left of a query. A request is made only with some time
left, but its own attempts go on to the very end of it. -/
structure Decides (first total count : Nat) : Prop where
  decided : Retry.Decided (latency imds server) imds.retryInterval (Passed fromStr imds server) 0
    first total count
  timeLeft : Opening imds server first count →
    Retry.opens (latency imds server) imds.retryInterval 0 first count < total

/-- What is left of a query comes to a result. -/
def ComesTo (first total : Nat) (result : Except Error α) : Prop :=
  (∃ count, Decides fromStr imds server first total count ∧
    (server (first + count)).reply.verdict.result fromStr = some result) ∨
  (∀ count, ¬ Decides fromStr imds server first total count) ∧ result = .error .timeout

variable {fromStr imds server} {first total : Nat} {result : Except Error α}

theorem passed_of_retried {number : Nat} (retried : Retried imds server number) :
    Passed fromStr imds server number := by
  unfold Passed
  rw [retried]
  rfl

theorem not_decides_of_spent {count : Nat} : ¬ Decides fromStr imds server first 0 count := by
  intro decides
  have positive := imds.intervalPositive
  cases count with
  | zero => exact absurd (decides.timeLeft trivial) (Nat.not_lt_zero _)
  | succ count =>
      have inTime := decides.decided.inTime
      have opened := Retry.clock_le_opens (latency imds server) imds.retryInterval 0 first (count + 1)
      rw [Nat.add_mul, Nat.one_mul] at opened
      omega

/-- A query that is not decided within a request is not decided at all. -/
theorem not_decides_of_undecided (undecided : ∀ count, ¬ Decided imds server 0 first total count)
    (count : Nat) : ¬ Decides fromStr imds server first total count := by
  intro decides
  obtain ⟨front, -, decided⟩ := decides.decided.exists_of_imp fun number => passed_of_retried
  exact undecided front decided

/-- The attempt that decides a request decides the query if the query ends with it. -/
theorem decides_of_decided {count : Nat} (given : total ≠ 0)
    (decided : Decided imds server 0 first total count)
    (ends : ¬ Passed fromStr imds server (first + count)) :
    Decides fromStr imds server first total count := by
  refine ⟨⟨fun before less => passed_of_retried (decided.earlier before less), ends, decided.inTime⟩,
    fun opening => ?_⟩
  cases count with
  | zero => exact Nat.pos_of_ne_zero given
  | succ before => exact absurd (decided.earlier before (Nat.lt_succ_self before)) opening

theorem comesTo_of_decided {count : Nat} (given : total ≠ 0)
    (decided : Decided imds server 0 first total count)
    (ends : (server (first + count)).reply.verdict.result fromStr = some result) :
    ComesTo fromStr imds server first total result := by
  refine .inl ⟨count, decides_of_decided given decided fun passed => ?_, ends⟩
  rw [Passed, ends] at passed
  cases passed

theorem comesTo_timeout (undecided : ∀ count, ¬ Decided imds server 0 first total count) :
    ComesTo fromStr imds server first total (.error .timeout) :=
  .inr ⟨not_decides_of_undecided undecided, rfl⟩

/-- An attempt behind a body opens a request if it does so for the query behind the body. -/
theorem opening_behind_iff {front : Nat} (decisive : ¬ Retried imds server (first + front))
    (count : Nat) :
    Opening imds server first (front + 1 + count) ↔
      Opening imds server (first + (front + 1)) count := by
  cases count with
  | zero => exact iff_of_true decisive trivial
  | succ count =>
      have number : first + (front + 1) + count = first + (front + 1 + count) := by omega
      simp only [Opening]
      rw [number]
      exact Iff.rfl

/-- Behind a body that is not used, the query goes on with the time that is left of it. -/
theorem decides_behind_iff {front count spent : Nat}
    (opened : spent = Retry.opens (latency imds server) imds.retryInterval 0 first (front + 1))
    (decided : Decided imds server 0 first total front)
    (passed : Passed fromStr imds server (first + front)) :
    Decides fromStr imds server first total (front + 1 + count) ↔
      Decides fromStr imds server (first + (front + 1)) (total - spent) count := by
  have allPassed : ∀ before < front + 1, Passed fromStr imds server (first + before) := by
    intro before less
    rcases Nat.lt_succ_iff_lt_or_eq.mp less with earlier | rfl
    · exact passed_of_retried (decided.earlier before earlier)
    · exact passed
  have shifted := Retry.opens_append (latency imds server) imds.retryInterval 0 first (front + 1) count
  rw [← opened, ← Nat.zero_add spent, Retry.opens_add] at shifted
  rcases Nat.lt_or_ge total spent with late | inTime
  · have none : total - spent = 0 := Nat.sub_eq_zero_of_le (Nat.le_of_lt late)
    rw [none]
    refine iff_of_false (fun decides => ?_) not_decides_of_spent
    have behind := ((Retry.decided_append_iff (front + 1)).mp decides.decided).2
    rw [← opened] at behind
    exact Retry.not_decided_of_late late behind
  · have decidedBehind : Retry.Decided (latency imds server) imds.retryInterval
        (Passed fromStr imds server) 0 first total (front + 1 + count) ↔
        Retry.Decided (latency imds server) imds.retryInterval (Passed fromStr imds server) 0
          (first + (front + 1)) (total - spent) count := by
      have moved := @Retry.decided_add_iff (latency imds server) imds.retryInterval
        (Passed fromStr imds server) 0 (first + (front + 1)) (total - spent) count spent
      rw [Nat.sub_add_cancel inTime, Nat.zero_add] at moved
      rw [Retry.decided_append_iff, ← opened, ← moved]
      exact and_iff_right allPassed
    have opening := opening_behind_iff decided.decisive count
    constructor
    · intro decides
      refine ⟨decidedBehind.mp decides.decided, fun opens => ?_⟩
      have less := decides.timeLeft (opening.mpr opens)
      omega
    · intro decides
      refine ⟨decidedBehind.mpr decides.decided, fun opens => ?_⟩
      have less := decides.timeLeft (opening.mp opens)
      omega

/-- A query comes to what the rest of it comes to behind a body that is not used. -/
theorem comesTo_behind {front spent : Nat}
    (opened : spent = Retry.opens (latency imds server) imds.retryInterval 0 first (front + 1))
    (decided : Decided imds server 0 first total front)
    (passed : Passed fromStr imds server (first + front))
    (rest : ComesTo fromStr imds server (first + (front + 1)) (total - spent) result) :
    ComesTo fromStr imds server first total result := by
  rcases rest with found | undecided
  · obtain ⟨count, decides, ends⟩ := found
    rw [Nat.add_assoc] at ends
    exact .inl ⟨front + 1 + count, (decides_behind_iff opened decided passed).mpr decides, ends⟩
  · refine .inr ⟨fun count decides => ?_, undecided.2⟩
    rcases Nat.lt_or_ge front count with behind | before
    · obtain ⟨rest, rfl⟩ := Nat.exists_eq_add_of_lt behind
      have shape : front + rest + 1 = front + 1 + rest := by omega
      rw [shape] at decides
      exact undecided.1 rest ((decides_behind_iff opened decided passed).mp decides)
    · rcases Nat.lt_or_eq_of_le before with less | rfl
      · have ends := decides.decided.decisive
        exact ends (passed_of_retried (decided.earlier count less))
      · exact decides.decided.decisive passed

theorem comesTo_queryWith (totalTimeout : Nat) (run : Run imds.requestTimeout) :
    ComesTo fromStr imds server run.attempts.length totalTimeout
      (queryWith imds server fromStr totalTimeout run).1 := by
  fun_induction queryWith imds server fromStr totalTimeout run with
  | case1 run => exact .inr ⟨fun count => not_decides_of_spent, rfl⟩
  | case2 totalTimeout run given error after requested =>
      rcases request_cases requested with decided | undecided
      · obtain ⟨count, decided, -, answered⟩ := decided
        refine comesTo_of_decided given decided ?_
        cases verdict : (server (run.attempts.length + count)).reply.verdict with
        | accepted body =>
            rw [verdict] at answered
            cases answered
        | fatal status =>
            rw [verdict] at answered
            cases answered
            rfl
        | retry => exact absurd verdict decided.decisive
      · obtain ⟨undecided, timeout⟩ := undecided
        cases timeout
        exact comesTo_timeout undecided
  | case3 totalTimeout run given body remaining after requested read metadata used =>
      obtain ⟨count, decided, -, -, verdict⟩ := decided_of_accepted requested
      refine comesTo_of_decided given decided ?_
      rw [verdict, Verdict.result, used]
      rfl
  | case4 totalTimeout run given body remaining after requested read unused ih =>
      obtain ⟨count, decided, length, left, verdict⟩ := decided_of_accepted requested
      refine comesTo_behind rfl decided ?_ ?_
      · unfold Passed
        rw [verdict, Verdict.result, unused]
        rfl
      · rw [← length, ← left]
        exact ih

/-- One attempt at most decides, so that there is one result. -/
theorem ComesTo.unique {other : Except Error α} (comes : ComesTo fromStr imds server first total result)
    (also : ComesTo fromStr imds server first total other) : result = other := by
  rcases comes with decided | undecided
  · obtain ⟨count, decides, ends⟩ := decided
    rcases also with again | never
    · obtain ⟨same, decidesToo, endsToo⟩ := again
      cases decides.decided.unique decidesToo.decided
      exact Option.some.inj (ends.symm.trans endsToo)
    · exact absurd decides (never.1 count)
  · rcases also with again | never
    · obtain ⟨count, decides, -⟩ := again
      exact absurd decides (undecided.1 count)
    · rw [undecided.2, never.2]

end Query

/-- The first attempt that is not gone past decides a query, if its reply comes while the
latencies of the attempts before it, with a pause for each, have left enough of the total
timeout; if there is none, the query times out. -/
theorem query_outcome_iff (imds : ImdsConfig) (server : Nat → Exchange imds.requestTimeout)
    (result : Except Error α) :
    (query imds server fromStr).1 = result ↔
      ComesTo fromStr imds server 0 imds.totalRetryTimeout result := by
  have comes : ComesTo fromStr imds server 0 imds.totalRetryTimeout
      (query imds server fromStr).1 := comesTo_queryWith imds.totalRetryTimeout .start
  constructor
  · rintro rfl
    exact comes
  · exact comes.unique

end AzureInit.Imds
