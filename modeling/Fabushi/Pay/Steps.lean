import Fabushi.Pay.Accounting

/-!
# The steps of the payment engine

The public operations as one call type, and `Step`, which says once what a call can
do: fail without a trace, answer from what is stored, or make one of five changes.
An error that reports a broken engine has its cause recorded in `Broken`.
-/

namespace Fabushi.Pay

open Effects MachineInt Result

inductive PayCall where
  | createPayment (request : CreatePaymentIntent)
  | markRequiresAction (paymentId : String) (nowMs : Int64)
  | markProcessing (paymentId : String) (nowMs : Int64)
  | fail (paymentId : String) (nowMs : Int64)
  | cancel (paymentId : String) (nowMs : Int64)
  | succeed (paymentId : String) (outcome : ProviderOutcome)
  | refund (request : RefundRequest)
  | releaseSettlement (request : SettlementRelease)
  deriving DecidableEq, Repr

def PayCall.isTransition : PayCall → Bool
  | .markRequiresAction .. | .markProcessing .. | .fail .. | .cancel .. => true
  | _ => false

inductive PayReply where
  | payment (payment : PaymentIntent)
  | mutation (mutation : PaymentMutation)
  | entry (entry : PaymentLedgerEntry)
  deriving DecidableEq, Repr

def PayError.isInternal : PayError → Bool
  | .notEnoughLedgerLines | .zeroLedgerLine | .unbalancedLedger .. | .refundAccountingInvariant
  | .corruptIdempotencyIndex _ => true
  | _ => false

namespace PayEngine

variable (sha256 : List UInt8 → List UInt8)

def exec : PayCall → PayM PayReply
  | .createPayment request => .payment <$> createPayment sha256 request
  | .markRequiresAction paymentId nowMs => .payment <$> markRequiresAction paymentId nowMs
  | .markProcessing paymentId nowMs => .payment <$> markProcessing paymentId nowMs
  | .fail paymentId nowMs => .payment <$> fail paymentId nowMs
  | .cancel paymentId nowMs => .payment <$> cancel paymentId nowMs
  | .succeed paymentId outcome => .mutation <$> succeed sha256 paymentId outcome
  | .refund request => .mutation <$> refund sha256 request
  | .releaseSettlement request => .entry <$> releaseSettlement sha256 request

structure Refundable (engine : PayEngine) (request : RefundRequest) (payment : PaymentIntent) :
    Prop where
  stored : engine.payments[request.paymentId]? = some payment
  pos : 0 < request.amount.toInt
  status : isRefundable payment.status
  le : request.amount.toInt ≤ payment.refundableAmount.toInt

structure Releasable (engine : PayEngine) (request : SettlementRelease) (payment : PaymentIntent) :
    Prop where
  stored : engine.payments[request.paymentId]? = some payment
  status : isRefundable payment.status
  pos : 0 < payment.pendingDeveloperAmount.toInt

def withPayment (engine : PayEngine) (id : String) (payment : PaymentIntent) : PayEngine :=
  { engine with payments := engine.payments.insert id payment }

def withRecord (engine : PayEngine) (key : String) (record : MutationRecord) : PayEngine :=
  { engine with mutationResults := engine.mutationResults.insert key record }

def withIndex (engine : PayEngine) (key id : String) : PayEngine :=
  { engine with paymentByIdempotency := engine.paymentByIdempotency.insert key id }

inductive Broken (engine : PayEngine) (e : PayError) : Prop
  | index {key id : String} (hindex : engine.paymentByIdempotency[key]? = some id)
      (habsent : engine.payments[id]? = none)
  | capture {id key : String} {payment : PaymentIntent} {nowMs : Int64}
      (hstored : engine.payments[id]? = some payment)
      (herror : balancedEntry sha256 "payment" payment.paymentId key nowMs
        (captureLines payment) = .error e)
  | guard {request : RefundRequest} {payment : PaymentIntent}
      (hrefund : engine.Refundable request payment)
      (hless : payment.releasedDeveloperAmount <
        (refundSplit payment request.amount).availableDebit)
  | refund {request : RefundRequest} {payment : PaymentIntent}
      (hrefund : engine.Refundable request payment)
      (herror : balancedEntry sha256 "refund" payment.paymentId request.idempotencyKey
        request.occurredAtMs (refundLines payment request.amount
          (refundSplit payment request.amount)) = .error e)
  | release {request : SettlementRelease} {payment : PaymentIntent}
      (hrelease : engine.Releasable request payment)
      (herror : balancedEntry sha256 "settlement-release" payment.paymentId
        request.idempotencyKey request.occurredAtMs
          (releaseLines payment payment.pendingDeveloperAmount) = .error e)

def movedPayment (payment : PaymentIntent) (next : PaymentStatus) (nowMs : Int64) :
    PaymentIntent :=
  { payment with status := next, updatedAtMs := nowMs }

def capturedPayment (payment : PaymentIntent) (outcome : ProviderOutcome) : PaymentIntent :=
  { payment with
    status := .succeeded
    providerReference := some outcome.providerReference
    updatedAtMs := outcome.occurredAtMs }

inductive Step (engine : PayEngine) : PayCall → Except PayError PayReply → PayEngine → Prop
  | failed {call : PayCall} {e : PayError} (hcause : e.isInternal → Broken sha256 engine e) :
      Step engine call (.error e) engine
  | existing {request : CreatePaymentIntent} {payment : PaymentIntent} :
      Step engine (.createPayment request) (.ok (.payment payment)) engine
  | created {request : CreatePaymentIntent} (hvalid : request.validate = .ok ())
      (hfresh : engine.paymentByIdempotency[request.idempotencyKey]? = none) :
      Step engine (.createPayment request) (.ok (.payment (request.toPayment sha256)))
        ((engine.withIndex request.idempotencyKey (request.toPayment sha256).paymentId).withPayment
          (request.toPayment sha256).paymentId (request.toPayment sha256))
  | moved {call : PayCall} {id : String} {payment : PaymentIntent} {next : PaymentStatus}
      {nowMs : Int64} (hcall : call.isTransition)
      (hstored : engine.payments[id]? = some payment)
      (hallowed : transitionAllowed payment.status next) :
      Step engine call (.ok (.payment (movedPayment payment next nowMs)))
        (engine.withPayment id (movedPayment payment next nowMs))
  | repeated {id : String} {outcome : ProviderOutcome} {payment : PaymentIntent} :
      Step engine (.succeed id outcome) (.ok (.mutation { payment, ledgerEntry := none })) engine
  | captured {id : String} {outcome : ProviderOutcome} {payment : PaymentIntent}
      {entry : PaymentLedgerEntry} (hstored : engine.payments[id]? = some payment)
      (hfirst : payment.status.hasSucceeded = false)
      (hentry : balancedEntry sha256 "payment" payment.paymentId outcome.providerReference
        outcome.occurredAtMs (captureLines payment) = .ok entry) :
      Step engine (.succeed id outcome)
        (.ok (.mutation { payment := capturedPayment payment outcome, ledgerEntry := some entry }))
        (engine.withPayment payment.paymentId (capturedPayment payment outcome))
  | refundReplayed {request : RefundRequest} {payment : PaymentIntent} {record : MutationRecord}
      (hrecord : engine.mutationResults[request.idempotencyKey]? = some record)
      (hoperation : record.operation = .refund) (hpayment : record.paymentId = request.paymentId) :
      Step engine (.refund request)
        (.ok (.mutation { payment, ledgerEntry := some record.entry })) engine
  | refunded {request : RefundRequest} {payment : PaymentIntent} {entry : PaymentLedgerEntry}
      (hkey : Text.isBlank request.idempotencyKey = false)
      (hfresh : engine.mutationResults[request.idempotencyKey]? = none)
      (hrefund : engine.Refundable request payment)
      (hentry : balancedEntry sha256 "refund" payment.paymentId request.idempotencyKey
        request.occurredAtMs (refundLines payment request.amount
          (refundSplit payment request.amount)) = .ok entry) :
      Step engine (.refund request)
        (.ok (.mutation
          { payment := refundedPayment payment (refundSplit payment request.amount)
              request.occurredAtMs
            ledgerEntry := some entry }))
        ((engine.withPayment payment.paymentId (refundedPayment payment
          (refundSplit payment request.amount) request.occurredAtMs)).withRecord
            request.idempotencyKey
            { operation := .refund, paymentId := payment.paymentId, entry })
  | releaseReplayed {request : SettlementRelease} {record : MutationRecord}
      (hrecord : engine.mutationResults[request.idempotencyKey]? = some record)
      (hoperation : record.operation = .settlementRelease)
      (hpayment : record.paymentId = request.paymentId) :
      Step engine (.releaseSettlement request) (.ok (.entry record.entry)) engine
  | released {request : SettlementRelease} {payment : PaymentIntent} {entry : PaymentLedgerEntry}
      (hkey : Text.isBlank request.idempotencyKey = false)
      (hfresh : engine.mutationResults[request.idempotencyKey]? = none)
      (hrelease : engine.Releasable request payment)
      (hentry : balancedEntry sha256 "settlement-release" payment.paymentId
        request.idempotencyKey request.occurredAtMs
          (releaseLines payment payment.pendingDeveloperAmount) = .ok entry) :
      Step engine (.releaseSettlement request) (.ok (.entry entry))
        ((engine.withPayment payment.paymentId (releasedPayment payment
          payment.pendingDeveloperAmount request.occurredAtMs)).withRecord request.idempotencyKey
            { operation := .settlementRelease, paymentId := payment.paymentId, entry })

variable {sha256} {engine engine' : PayEngine}

theorem validate_error {request : CreatePaymentIntent} {e : PayError}
    (h : request.validate = .error e) : e.isInternal = false := by
  simp only [CreatePaymentIntent.validate, bind_eq_error, ensure_eq_error] at h
  rcases h with ⟨-, rfl⟩ | ⟨_, -, ⟨-, rfl⟩ | ⟨_, -, -, rfl⟩⟩
  all_goals rfl

theorem createPayment_step {request : CreatePaymentIntent} {r : Except PayError PaymentIntent}
    (h : Yields (createPayment sha256 request) engine r engine') :
    Step sha256 engine (.createPayment request) (r.map .payment) engine' := by
  simp only [createPayment, yields_orThrow_bind, yields_get_bind] at h
  rcases h with ⟨_, hvalid, h⟩ | ⟨e, herror, rfl, rfl⟩
  · cases hindex : engine.paymentByIdempotency[request.idempotencyKey]? with
    | none =>
        simp only [hindex, insertPayment, yields_modify_bind, yields_pure] at h
        obtain ⟨rfl, rfl⟩ := h
        exact .created hvalid hindex
    | some id =>
        simp only [hindex, yields_orThrow_bind, yields_pure, okOr_eq_error, ensure_eq_error] at h
        rcases h with ⟨payment, -, ⟨_, -, rfl, rfl⟩ | ⟨e, ⟨-, rfl⟩, rfl, rfl⟩⟩ |
          ⟨e, ⟨habsent, rfl⟩, rfl, rfl⟩
        · exact .existing
        · exact .failed (by simp [PayError.isInternal])
        · exact .failed fun _ ↦ .index hindex habsent
  · refine .failed ?_
    simp [validate_error herror]

theorem transition_step {call : PayCall} {id : String} {next : PaymentStatus} {nowMs : Int64}
    {r : Except PayError PaymentIntent} (hcall : call.isTransition)
    (h : Yields (transition id next nowMs) engine r engine') :
    Step sha256 engine call (r.map .payment) engine' := by
  simp only [transition, payment, yields_get_bind, yields_orThrow_bind, yields_modify_bind,
    yields_pure, okOr_eq_ok, okOr_eq_error, ensure_eq_ok, ensure_eq_error] at h
  rcases h with ⟨payment, hstored, ⟨_, hallowed, rfl, rfl⟩ | ⟨e, ⟨-, rfl⟩, rfl, rfl⟩⟩ |
    ⟨e, ⟨-, rfl⟩, rfl, rfl⟩
  · exact .moved hcall hstored hallowed
  · exact .failed (by simp [PayError.isInternal])
  · exact .failed (by simp [PayError.isInternal])

theorem succeed_step {id : String} {outcome : ProviderOutcome}
    {r : Except PayError PaymentMutation} (h : Yields (succeed sha256 id outcome) engine r engine') :
    Step sha256 engine (.succeed id outcome) (r.map .mutation) engine' := by
  simp only [succeed, payment, yields_get_bind, yields_orThrow_bind, okOr_eq_ok,
    okOr_eq_error] at h
  rcases h with ⟨payment, hstored, h⟩ | ⟨e, ⟨-, rfl⟩, rfl, rfl⟩
  · by_cases hdone : payment.status.hasSucceeded
    · simp only [hdone, if_true, yields_orThrow_bind, yields_pure, ensure_eq_error] at h
      rcases h with ⟨_, -, rfl, rfl⟩ | ⟨e, ⟨-, rfl⟩, rfl, rfl⟩
      · exact .repeated
      · exact .failed (by simp [PayError.isInternal])
    · simp only [hdone, Bool.false_eq_true, if_false, insertPayment, yields_orThrow_bind,
        yields_modify_bind, yields_pure, ensure_eq_error] at h
      rcases h with ⟨_, -, ⟨_, -, ⟨entry, hentry, rfl, rfl⟩ | ⟨e, herror, rfl, rfl⟩⟩ |
        ⟨e, ⟨-, rfl⟩, rfl, rfl⟩⟩ | ⟨e, ⟨-, rfl⟩, rfl, rfl⟩
      · exact .captured hstored (by simpa using hdone) hentry
      · exact .failed fun _ ↦ .capture hstored herror
      · exact .failed (by simp [PayError.isInternal])
      · exact .failed (by simp [PayError.isInternal])
  · exact .failed (by simp [PayError.isInternal])

theorem replayMutation_cases {key id : String} {operation : Operation}
    {r : Except PayError (Option PaymentLedgerEntry)}
    (h : engine.replayMutation key operation id = r) :
    (engine.mutationResults[key]? = none ∧ r = .ok none) ∨
      ∃ record, engine.mutationResults[key]? = some record ∧
        (record.operation = operation ∧ record.paymentId = id ∧ r = .ok (some record.entry) ∨
          (record.operation ≠ operation ∨ record.paymentId ≠ id) ∧
            r = .error (.idempotencyConflict key)) := by
  rw [replayMutation] at h
  split at h
  · rename_i habsent
    exact .inl ⟨habsent, h.symm⟩
  · rename_i record hrecord
    split at h
    · rename_i hother
      exact .inr ⟨record, hrecord, .inr ⟨hother, h.symm⟩⟩
    · rename_i hsame
      push Not at hsame
      exact .inr ⟨record, hrecord, .inl ⟨hsame.1, hsame.2, h.symm⟩⟩

theorem pos_of_not_le_zero {a : Int64} (h : ¬ a ≤ 0) : 0 < a.toInt := by
  rw [Int64.le_iff_toInt_le, Int64.toInt_zero] at h
  omega

theorem refundNew_step {request : RefundRequest} {r : Except PayError PaymentMutation}
    (hkey : Text.isBlank request.idempotencyKey = false)
    (hfresh : engine.mutationResults[request.idempotencyKey]? = none)
    (h : Yields (refundNew sha256 request) engine r engine') :
    Step sha256 engine (.refund request) (r.map .mutation) engine' := by
  simp only [refundNew, payment, insertPayment, recordMutation, yields_get_bind,
    yields_orThrow_bind, yields_modify_bind, yields_pure, okOr_eq_ok, okOr_eq_error, ensure_eq_ok,
    ensure_eq_error] at h
  rcases h with ⟨_, hpos, h⟩ | ⟨e, ⟨-, rfl⟩, rfl, rfl⟩
  · rcases h with ⟨payment, hstored, h⟩ | ⟨e, ⟨-, rfl⟩, rfl, rfl⟩
    · rcases h with ⟨_, hstatus, h⟩ | ⟨e, ⟨-, rfl⟩, rfl, rfl⟩
      · rcases h with ⟨_, hle, h⟩ | ⟨e, ⟨-, rfl⟩, rfl, rfl⟩
        · have hrefund : engine.Refundable request payment := by
            refine ⟨hstored, pos_of_not_le_zero hpos, hstatus, ?_⟩
            rw [Int64.lt_iff_toInt_lt] at hle
            omega
          rcases h with ⟨_, -, ⟨entry, hentry, rfl, rfl⟩ | ⟨e, herror, rfl, rfl⟩⟩ |
            ⟨e, ⟨hless, rfl⟩, rfl, rfl⟩
          · exact .refunded hkey hfresh hrefund hentry
          · exact .failed fun _ ↦ .refund hrefund herror
          · exact .failed fun _ ↦ .guard hrefund (by simpa using hless)
        · exact .failed (by simp [PayError.isInternal])
      · exact .failed (by simp [PayError.isInternal])
    · exact .failed (by simp [PayError.isInternal])
  · exact .failed (by simp [PayError.isInternal])

theorem refund_step {request : RefundRequest} {r : Except PayError PaymentMutation}
    (h : Yields (refund sha256 request) engine r engine') :
    Step sha256 engine (.refund request) (r.map .mutation) engine' := by
  simp only [refund, ensureKey, yields_orThrow_bind, yields_get_bind, ensure_eq_ok,
    ensure_eq_error] at h
  rcases h with ⟨_, hkey, h⟩ | ⟨e, ⟨-, rfl⟩, rfl, rfl⟩
  · rcases h with ⟨found, hreplay, h⟩ | ⟨e, hreplay, rfl, rfl⟩
    · rcases replayMutation_cases hreplay with ⟨hfresh, hnone⟩ |
        ⟨record, hrecord, ⟨hoperation, hpayment, hsome⟩ | ⟨-, hconflict⟩⟩
      · cases hnone
        exact refundNew_step (by simpa using hkey) hfresh h
      · cases hsome
        simp only [payment, yields_orThrow_bind, yields_pure, okOr_eq_error] at h
        rcases h with ⟨payment, -, rfl, rfl⟩ | ⟨e, ⟨-, rfl⟩, rfl, rfl⟩
        · exact .refundReplayed hrecord hoperation hpayment
        · exact .failed (by simp [PayError.isInternal])
      · cases hconflict
    · rcases replayMutation_cases hreplay with ⟨-, hnone⟩ |
        ⟨record, -, ⟨-, -, hsome⟩ | ⟨-, hconflict⟩⟩
      · cases hnone
      · cases hsome
      · cases hconflict
        exact .failed (by simp [PayError.isInternal])
  · exact .failed (by simp [PayError.isInternal])

theorem releaseNew_step {request : SettlementRelease} {r : Except PayError PaymentLedgerEntry}
    (hkey : Text.isBlank request.idempotencyKey = false)
    (hfresh : engine.mutationResults[request.idempotencyKey]? = none)
    (h : Yields (releaseNew sha256 request) engine r engine') :
    Step sha256 engine (.releaseSettlement request) (r.map .entry) engine' := by
  simp only [releaseNew, payment, insertPayment, recordMutation, yields_get_bind,
    yields_orThrow_bind, yields_modify_bind, yields_pure, okOr_eq_ok, okOr_eq_error, ensure_eq_ok,
    ensure_eq_error] at h
  rcases h with ⟨payment, hstored, h⟩ | ⟨e, ⟨-, rfl⟩, rfl, rfl⟩
  · rcases h with ⟨_, hstatus, h⟩ | ⟨e, ⟨-, rfl⟩, rfl, rfl⟩
    · rcases h with ⟨_, hpos, h⟩ | ⟨e, ⟨-, rfl⟩, rfl, rfl⟩
      · have hrelease : engine.Releasable request payment :=
          ⟨hstored, hstatus, pos_of_not_le_zero hpos⟩
        rcases h with ⟨entry, hentry, rfl, rfl⟩ | ⟨e, herror, rfl, rfl⟩
        · exact .released hkey hfresh hrelease hentry
        · exact .failed fun _ ↦ .release hrelease herror
      · exact .failed (by simp [PayError.isInternal])
    · exact .failed (by simp [PayError.isInternal])
  · exact .failed (by simp [PayError.isInternal])

theorem releaseSettlement_step {request : SettlementRelease}
    {r : Except PayError PaymentLedgerEntry}
    (h : Yields (releaseSettlement sha256 request) engine r engine') :
    Step sha256 engine (.releaseSettlement request) (r.map .entry) engine' := by
  simp only [releaseSettlement, ensureKey, yields_orThrow_bind, yields_get_bind, ensure_eq_ok,
    ensure_eq_error] at h
  rcases h with ⟨_, hkey, h⟩ | ⟨e, ⟨-, rfl⟩, rfl, rfl⟩
  · rcases h with ⟨found, hreplay, h⟩ | ⟨e, hreplay, rfl, rfl⟩
    · rcases replayMutation_cases hreplay with ⟨hfresh, hnone⟩ |
        ⟨record, hrecord, ⟨hoperation, hpayment, hsome⟩ | ⟨-, hconflict⟩⟩
      · cases hnone
        exact releaseNew_step (by simpa using hkey) hfresh h
      · cases hsome
        simp only [yields_pure] at h
        obtain ⟨rfl, rfl⟩ := h
        exact .releaseReplayed hrecord hoperation hpayment
      · cases hconflict
    · rcases replayMutation_cases hreplay with ⟨-, hnone⟩ |
        ⟨record, -, ⟨-, -, hsome⟩ | ⟨-, hconflict⟩⟩
      · cases hnone
      · cases hsome
      · cases hconflict
        exact .failed (by simp [PayError.isInternal])
  · exact .failed (by simp [PayError.isInternal])

theorem exec_step (engine : PayEngine) (call : PayCall) :
    Step sha256 engine call (result (exec sha256 call) engine)
      (after (exec sha256 call) engine) := by
  have h := yields_self (exec sha256 call) engine
  cases call with
  | createPayment request =>
      obtain ⟨r, hr, hmap⟩ := yields_map.mp h
      rw [hmap]
      exact createPayment_step hr
  | markRequiresAction | markProcessing | fail | cancel =>
      obtain ⟨r, hr, hmap⟩ := yields_map.mp h
      rw [hmap]
      exact transition_step rfl hr
  | succeed id outcome =>
      obtain ⟨r, hr, hmap⟩ := yields_map.mp h
      rw [hmap]
      exact succeed_step hr
  | refund request =>
      obtain ⟨r, hr, hmap⟩ := yields_map.mp h
      rw [hmap]
      exact refund_step hr
  | releaseSettlement request =>
      obtain ⟨r, hr, hmap⟩ := yields_map.mp h
      rw [hmap]
      exact releaseSettlement_step hr

theorem Step.of_error {call : PayCall} {e : PayError}
    (h : Step sha256 engine call (.error e) engine') :
    engine' = engine ∧ (e.isInternal → Broken sha256 engine e) := by
  cases h with
  | failed hcause => exact ⟨rfl, hcause⟩

end PayEngine

end Fabushi.Pay
