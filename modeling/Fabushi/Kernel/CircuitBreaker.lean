import Fabushi.Library.MachineInt
import Fabushi.Library.Result
import Fabushi.Library.Runs

/-!
# The circuit breaker

`resilience.rs`: failures open the circuit for a while, then a few requests are let
through to probe it. A result does not say which request it belongs to, so the success of
a request from before the opening closes the circuit like that of a probe.
-/

namespace Fabushi.Kernel

open MachineInt Result

inductive ResilienceError where
  | invalidCircuitPolicy
  deriving DecidableEq, Repr

structure CircuitPolicy where
  failureThreshold : UInt32
  openDurationMs : Int64
  halfOpenMaxRequests : UInt32
  valid : failureThreshold ≠ 0 ∧ 0 < openDurationMs.toInt ∧ halfOpenMaxRequests ≠ 0

def CircuitPolicy.new (failureThreshold : UInt32) (openDurationMs : Int64)
    (halfOpenMaxRequests : UInt32) : Except ResilienceError CircuitPolicy :=
  if valid : failureThreshold ≠ 0 ∧ 0 < openDurationMs.toInt ∧ halfOpenMaxRequests ≠ 0 then
    .ok { failureThreshold, openDurationMs, halfOpenMaxRequests, valid }
  else .error .invalidCircuitPolicy

def CircuitPolicy.default : CircuitPolicy where
  failureThreshold := 3
  openDurationMs := 30000
  halfOpenMaxRequests := 1
  valid := by decide

inductive CircuitState where
  | closed
  | opened
  | halfOpen
  deriving DecidableEq, Repr

inductive CircuitDecision where
  | allow
  | reject (retryAtMs : Int64)
  deriving DecidableEq

structure CircuitBreaker where
  policy : CircuitPolicy
  state : CircuitState := .closed
  consecutiveFailures : UInt32 := 0
  openedAtMs : Option Int64 := none
  halfOpenInFlight : UInt32 := 0

namespace CircuitBreaker

variable (breaker : CircuitBreaker)

def acquire (nowMs : Int64) : CircuitDecision × CircuitBreaker :=
  match breaker.state with
  | .closed => (.allow, breaker)
  | .opened =>
      let openedAt := breaker.openedAtMs.getD nowMs
      let retryAt := saturatingAdd openedAt breaker.policy.openDurationMs
      if nowMs.toInt < retryAt.toInt then (.reject retryAt, breaker)
      else (.allow, { breaker with state := .halfOpen, halfOpenInFlight := 1 })
  | .halfOpen =>
      if breaker.policy.halfOpenMaxRequests ≤ breaker.halfOpenInFlight then
        (.reject (saturatingAdd nowMs 1), breaker)
      else
        (.allow, { breaker with
          halfOpenInFlight := saturatingU32 (breaker.halfOpenInFlight.toNat + 1) })

def recordSuccess : CircuitBreaker :=
  { breaker with
    state := .closed, consecutiveFailures := 0, openedAtMs := none, halfOpenInFlight := 0 }

def openAt (nowMs : Int64) : CircuitBreaker :=
  { breaker with state := .opened, openedAtMs := some nowMs, halfOpenInFlight := 0 }

def recordFailure (nowMs : Int64) : CircuitBreaker :=
  if breaker.state = .halfOpen then breaker.openAt nowMs
  else
    let failures := saturatingU32 (breaker.consecutiveFailures.toNat + 1)
    let counted := { breaker with consecutiveFailures := failures }
    if breaker.policy.failureThreshold ≤ failures then counted.openAt nowMs else counted

def FailureOpens : Prop :=
  breaker.state = .halfOpen ∨
    breaker.policy.failureThreshold ≤ saturatingU32 (breaker.consecutiveFailures.toNat + 1)

instance : Decidable breaker.FailureOpens :=
  inferInstanceAs (Decidable (_ ∨ _))

end CircuitBreaker

/-! ## Requests in flight -/

structure Ticket where
  period : Option ℕ
  answered : Bool := false
  deriving DecidableEq, Repr

structure Opening where
  time : Int64
  periods : ℕ
  deriving DecidableEq

structure Traffic where
  breaker : CircuitBreaker
  now : Int64
  tickets : List Ticket := []
  periods : ℕ := 0
  opening : Option Opening := none

inductive Call where
  | acquire (nowMs : Int64)
  | success (ticket : ℕ)
  | failure (ticket : ℕ) (nowMs : Int64)
  deriving DecidableEq

namespace Traffic

def allowed (traffic : Traffic) (nowMs : Int64) (breaker : CircuitBreaker) : Traffic :=
  let periods := if traffic.breaker.state = .opened then traffic.periods + 1 else traffic.periods
  let ticket := { period := if breaker.state = .halfOpen then some periods else none }
  { traffic with breaker, now := nowMs, periods, tickets := traffic.tickets ++ [ticket] }

def answer (traffic : Traffic) (ticket : ℕ) : Traffic :=
  { traffic with tickets := traffic.tickets.modify ticket fun ticket ↦
      { ticket with answered := true } }

def inFlight (traffic : Traffic) (ticket : ℕ) : Bool :=
  traffic.tickets[ticket]?.any fun ticket ↦ !ticket.answered

/-- A call of a client; a result that belongs to no request in flight does not occur. -/
def next (traffic : Traffic) : Call → Traffic
  | .acquire nowMs =>
      match traffic.breaker.acquire nowMs with
      | (.allow, breaker) => traffic.allowed nowMs breaker
      | (.reject _, breaker) => { traffic with breaker, now := nowMs }
  | .success ticket =>
      if traffic.inFlight ticket then
        { traffic.answer ticket with breaker := traffic.breaker.recordSuccess }
      else traffic
  | .failure ticket nowMs =>
      if traffic.inFlight ticket then
        { traffic.answer ticket with
          breaker := traffic.breaker.recordFailure nowMs
          now := nowMs
          opening := if traffic.breaker.FailureOpens then
              some { time := nowMs, periods := traffic.periods }
            else traffic.opening }
      else traffic

def Timely (traffic : Traffic) : Call → Prop
  | .acquire nowMs => traffic.now.toInt ≤ nowMs.toInt
  | .success _ => True
  | .failure _ nowMs => traffic.now.toInt ≤ nowMs.toInt

instance (traffic : Traffic) (call : Call) : Decidable (traffic.Timely call) := by
  unfold Timely
  cases call <;> infer_instance

def outstanding (traffic : Traffic) : ℕ :=
  traffic.tickets.countP fun ticket ↦ !ticket.answered && ticket.period == some traffic.periods

/-! ## What a call has to do -/

def KeepsOpen (traffic : Traffic) : Call → Prop
  | .acquire nowMs => (traffic.breaker.acquire nowMs).1 = .allow →
      ∀ opening ∈ traffic.opening,
        opening.time.toInt + traffic.breaker.policy.openDurationMs.toInt ≤ nowMs.toInt
  | _ => True

/-- The circuit closes on the success of a request allowed in a half-open period after the
last opening. -/
def ClosesOnProbe (traffic : Traffic) (call : Call) : Prop :=
  traffic.breaker.state ≠ .closed → (traffic.next call).breaker.state = .closed →
    ∃ i ticket period, call = .success i ∧ traffic.tickets[i]? = some ticket ∧
      ticket.period = some period ∧ ∀ opening ∈ traffic.opening, opening.periods < period

structure Protects (traffic : Traffic) (call : Call) : Prop where
  keepsOpen : traffic.KeepsOpen call
  closesOnProbe : traffic.ClosesOnProbe call
  fewProbes : (traffic.next call).outstanding ≤
    traffic.breaker.policy.halfOpenMaxRequests.toNat

/-- While the circuit is not closed, a success belongs to a request of the current half-open
period; and no request is made at the last instant of the clock before an opening that
lasts beyond it has run out. -/
def Punctual (traffic : Traffic) : Call → Prop
  | .acquire nowMs => traffic.breaker.state = .opened → nowMs.toInt = 2 ^ 63 - 1 →
      ∀ openedAt ∈ traffic.breaker.openedAtMs,
        openedAt.toInt + traffic.breaker.policy.openDurationMs.toInt ≤ nowMs.toInt
  | .success ticket => traffic.inFlight ticket = true → traffic.breaker.state ≠ .closed →
      traffic.breaker.state = .halfOpen ∧
        (traffic.tickets[ticket]?.bind Ticket.period) = some traffic.periods
  | .failure _ _ => True

instance (traffic : Traffic) (call : Call) : Decidable (traffic.Punctual call) := by
  unfold Punctual
  cases call <;> infer_instance

end Traffic

end Fabushi.Kernel
