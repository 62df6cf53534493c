import AzureInit.Foundation.Utf8Text

/-! The query for the instance metadata: HTTP requests that are repeated under a budget of
time, in a loop that repeats them for bodies that cannot be used. Times are numbers of ticks. -/

set_option autoImplicit false

namespace AzureInit.Imds

open Foundation

/-- The settings of the query. A loop without a pause between its attempts need not end. -/
structure ImdsConfig where
  requestTimeout : Nat
  retryInterval : Nat
  totalRetryTimeout : Nat
  intervalPositive : 0 < retryInterval

def ImdsConfig.default : ImdsConfig where
  requestTimeout := 60
  retryInterval := 2
  totalRetryTimeout := 300
  intervalPositive := by decide

def retryCodes : List Nat := [400, 404, 410, 429, 500, 503]

/-- Whether `error_for_status` makes an error of a status. -/
def isErrorStatus (status : Nat) : Bool := 400 ≤ status && status < 600

/-- A body with the time that it takes to read; `none` where reading fails. -/
structure Body where
  latency : Nat
  text : Option Text
  deriving DecidableEq, Repr

inductive Reply where
  | failed
  | response (status : Nat) (body : Body)
  deriving DecidableEq, Repr

def Reply.bodyLatency : Reply → Nat
  | .failed => 0
  | .response _ body => body.latency

/-- What the server does with an attempt, within the timeout of a request. -/
structure Exchange (requestTimeout : Nat) where
  latency : Nat
  reply : Reply
  bounded : latency + reply.bodyLatency ≤ requestTimeout
  deriving DecidableEq, Repr

/-- What the loop over the attempts makes of a reply. -/
inductive Verdict where
  | accepted (body : Body)
  | fatal (status : Nat)
  | retry
  deriving DecidableEq, Repr

def Reply.verdict : Reply → Verdict
  | .failed => .retry
  | .response status body =>
      if isErrorStatus status then
        if retryCodes.contains status then .retry else .fatal status
      else .accepted body

structure Attempt (requestTimeout : Nat) where
  start : Nat
  exchange : Exchange requestTimeout
  deriving DecidableEq, Repr

/-- The time, and the attempts up to it in their order. -/
structure Run (requestTimeout : Nat) where
  clock : Nat
  attempts : List (Attempt requestTimeout)
  deriving DecidableEq, Repr

def Run.start {requestTimeout : Nat} : Run requestTimeout := { clock := 0, attempts := [] }

def Run.waitUntil {requestTimeout : Nat} (run : Run requestTimeout) (clock : Nat) :
    Run requestTimeout :=
  { run with clock }

inductive Error where
  | timeout
  | status (status : Nat)
  deriving DecidableEq, Repr

section Query

variable (imds : ImdsConfig) (server : Nat → Exchange imds.requestTimeout)

/-- The loop of a request that began at a time: a body with the time that remains, or an
error. A pause that ends with the budget is followed by another attempt. -/
def request (began retryFor : Nat) (run : Run imds.requestTimeout) :
    Except Error (Body × Nat) × Run imds.requestTimeout :=
  let exchange := server run.attempts.length
  let arrived := run.clock + exchange.latency
  let sent : Run imds.requestTimeout :=
    { run with attempts := run.attempts ++ [{ start := run.clock, exchange }] }
  if began + retryFor < arrived then (.error .timeout, sent.waitUntil (began + retryFor))
  else
    match exchange.reply.verdict with
    | .accepted body =>
        (.ok (body, retryFor - (arrived - began + imds.retryInterval)), sent.waitUntil arrived)
    | .fatal status => (.error (.status status), sent.waitUntil arrived)
    | .retry =>
        if began + retryFor < arrived + imds.retryInterval then
          (.error .timeout, sent.waitUntil (began + retryFor))
        else request began retryFor (sent.waitUntil (arrived + imds.retryInterval))
termination_by began + retryFor + 1 - run.clock
decreasing_by
  have positive := imds.intervalPositive
  simp only [Run.waitUntil]
  omega

theorem remaining_lt {began retryFor remaining : Nat} {run after : Run imds.requestTimeout}
    {body : Body} (given : retryFor ≠ 0)
    (requested : request imds server began retryFor run = (.ok (body, remaining), after)) :
    remaining < retryFor := by
  have positive := imds.intervalPositive
  fun_induction request imds server began retryFor run with
  | case1 => cases requested
  | case2 =>
      cases requested
      omega
  | case3 => cases requested
  | case4 => cases requested
  | case5 run exchange arrived sent inTime retry pause ih => exact ih requested

variable {α : Type} (fromStr : Text → Option α)

/-- The loop of the query with some time left. Reading a body is not counted. -/
def queryWith (totalTimeout : Nat) (run : Run imds.requestTimeout) :
    Except Error α × Run imds.requestTimeout :=
  if _given : totalTimeout = 0 then (.error .timeout, run)
  else
    match _requested : request imds server run.clock totalTimeout run with
    | (.error error, after) => (.error error, after)
    | (.ok (body, remaining), after) =>
        let read := after.waitUntil (after.clock + body.latency)
        match body.text.bind fromStr with
        | some metadata => (.ok metadata, read)
        | none => queryWith remaining read
termination_by totalTimeout
decreasing_by exact remaining_lt imds server _given _requested

def query : Except Error α × Run imds.requestTimeout :=
  queryWith imds server fromStr imds.totalRetryTimeout .start

end Query

end AzureInit.Imds
