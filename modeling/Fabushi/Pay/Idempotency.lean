import Fabushi.Pay.Runs

/-!
# Idempotency keys of refunds and releases

One key space serves both operations on all payments. The record of a key keeps the
operation, the payment and the entry, not the amount, so a refund that repeats a key
with another amount is answered with the entry of the first amount.
-/

namespace Fabushi.Pay

open Effects MachineInt Result

namespace PayCall

def mutation : PayCall → Option (String × Operation × String)
  | .refund request => some (request.idempotencyKey, .refund, request.paymentId)
  | .releaseSettlement request =>
      some (request.idempotencyKey, .settlementRelease, request.paymentId)
  | _ => none

def key (call : PayCall) : Option String :=
  call.mutation.map Prod.fst

/-- Two calls ask for the same mutation, at whatever time. -/
def SameRequest : PayCall → PayCall → Prop
  | .refund first, .refund second => first.idempotencyKey = second.idempotencyKey ∧
      first.paymentId = second.paymentId ∧ first.amount = second.amount
  | .releaseSettlement first, .releaseSettlement second =>
      first.idempotencyKey = second.idempotencyKey ∧ first.paymentId = second.paymentId
  | _, _ => False

def Produces : PayCall → PaymentLedgerEntry → Prop
  | .refund request, entry => entry.referenceType = "refund" ∧
      entry.referenceId = request.paymentId ∧
      ∃ currency, line (providerAccount currency) currency request.amount ∈ entry.lines
  | .releaseSettlement request, entry => entry.referenceType = "settlement-release" ∧
      entry.referenceId = request.paymentId
  | _, _ => True

theorem SameRequest.produces {first second : PayCall}
    {entry : PaymentLedgerEntry} (h : first.SameRequest second) (hproduces : first.Produces entry) :
    second.Produces entry := by
  cases first <;> cases second <;> simp_all [PayCall.SameRequest, PayCall.Produces]

end PayCall

def PayReply.ledgerEntry : PayReply → Option PaymentLedgerEntry
  | .payment _ => none
  | .mutation reply => reply.ledgerEntry
  | .entry reply => some reply

namespace PayRun

variable (sha256 : List UInt8 → List UInt8)

structure OneRequest (run : PayRun) (call : PayCall) : Prop where
  produced : ∀ reply, call.key.isSome → run.reply sha256 call = .ok reply →
    ∃ posting ∈ (run.next sha256 call).posted, reply.ledgerEntry = some posting.entry ∧
      posting.call.SameRequest call ∧ call.Produces posting.entry
  conflict : ∀ posting ∈ run.posted, ∀ key, posting.call.key = some key → call.key = some key →
    ¬ posting.call.SameRequest call →
      run.reply sha256 call = .error (.idempotencyConflict key) ∧ run.next sha256 call = run
  once : ∀ key, ((run.next sha256 call).posted.filter
    fun posting ↦ posting.call.key = some key).length ≤ 1

def AmountKept (run : PayRun) (call : PayCall) : Prop :=
  ∀ request, call = .refund request → ∀ posting ∈ run.posted, ∀ first,
    posting.call = .refund first → first.idempotencyKey = request.idempotencyKey →
      first.paymentId = request.paymentId → first.amount = request.amount

end PayRun

namespace PayEngine

variable {sha256 : List UInt8 → List UInt8} {engine engine' : PayEngine} {record : MutationRecord}

theorem refund_recorded {request : RefundRequest} {r : Except PayError PaymentMutation}
    (h : Yields (refund sha256 request) engine r engine')
    (hkey : Text.isBlank request.idempotencyKey = false)
    (hrecord : engine.mutationResults[request.idempotencyKey]? = some record) :
    (record.operation = .refund ∧ record.paymentId = request.paymentId ∧
      ∀ key, r ≠ .error (.idempotencyConflict key)) ∨
    (record.operation ≠ .refund ∨ record.paymentId ≠ request.paymentId) ∧
      r = .error (.idempotencyConflict request.idempotencyKey) := by
  simp only [refund, ensureKey, yields_orThrow_bind, yields_get_bind, ensure_eq_ok,
    ensure_eq_error, hkey] at h
  rcases h with ⟨_, -, ⟨found, hreplay, h⟩ | ⟨e, hreplay, rfl, rfl⟩⟩ | ⟨e, ⟨hblank, -⟩, -⟩
  · rcases replayMutation_cases hreplay with ⟨hfresh, -⟩ |
      ⟨other, hother, ⟨hoperation, hpayment, hsome⟩ | ⟨-, hconflict⟩⟩
    · rw [hrecord] at hfresh
      cases hfresh
    · rw [hrecord] at hother
      cases hother
      cases hsome
      simp only [payment, yields_orThrow_bind, yields_pure, okOr_eq_error] at h
      refine .inl ⟨hoperation, hpayment, ?_⟩
      rcases h with ⟨payment, -, rfl, rfl⟩ | ⟨e, ⟨-, rfl⟩, rfl, rfl⟩ <;> simp
    · cases hconflict
  · rcases replayMutation_cases hreplay with ⟨-, hnone⟩ |
      ⟨other, hother, ⟨-, -, hsome⟩ | ⟨hdiffers, hconflict⟩⟩
    · cases hnone
    · cases hsome
    · rw [hrecord] at hother
      cases hother
      cases hconflict
      exact .inr ⟨hdiffers, rfl⟩
  · simp at hblank

theorem releaseSettlement_recorded {request : SettlementRelease}
    {r : Except PayError PaymentLedgerEntry}
    (h : Yields (releaseSettlement sha256 request) engine r engine')
    (hkey : Text.isBlank request.idempotencyKey = false)
    (hrecord : engine.mutationResults[request.idempotencyKey]? = some record)
    (hother : record.operation ≠ .settlementRelease ∨ record.paymentId ≠ request.paymentId) :
    r = .error (.idempotencyConflict request.idempotencyKey) := by
  have hreplay : engine.replayMutation request.idempotencyKey .settlementRelease
      request.paymentId = .error (.idempotencyConflict request.idempotencyKey) := by
    rw [replayMutation, hrecord]
    exact if_pos hother
  simp only [releaseSettlement, ensureKey, yields_orThrow_bind, yields_get_bind, ensure_eq_ok,
    ensure_eq_error, hkey, hreplay] at h
  rcases h with ⟨_, -, ⟨found, hfound, -⟩ | ⟨e, he, rfl, rfl⟩⟩ | ⟨e, ⟨hblank, -⟩, -⟩
  · cases hfound
  · cases he
    rfl
  · simp at hblank

end PayEngine

/-! ## What the records say -/

variable {sha256 : List UInt8 → List UInt8}

theorem balancedEntry_lines {referenceType referenceId eventKey : String} {createdAtMs : Int64}
    {lines : List PaymentLedgerLine} {entry : PaymentLedgerEntry}
    (h : balancedEntry sha256 referenceType referenceId eventKey createdAtMs lines = .ok entry) :
    entry.lines = lines.filter fun line ↦ line.amount ≠ 0 := by
  simp only [balancedEntry, bind_eq_ok] at h
  obtain ⟨_, -, hentry⟩ := h
  cases hentry
  rfl

structure PayRun.Recorded (run : PayRun) : Prop where
  ids : ∀ (id : String) (payment : PaymentIntent), run.engine.payments[id]? = some payment →
    payment.paymentId = id
  posting : ∀ posting ∈ run.posted, ∀ key operation id,
    posting.call.mutation = some (key, operation, id) → Text.isBlank key = false ∧
      run.engine.mutationResults[key]? =
        some { operation, paymentId := id, entry := posting.entry } ∧
      posting.call.Produces posting.entry
  record : ∀ (key : String) record, run.engine.mutationResults[key]? = some record →
    ∃ posting ∈ run.posted, posting.call.mutation = some (key, record.operation, record.paymentId) ∧
      posting.entry = record.entry
  once : ∀ key, (run.posted.filter fun posting ↦ posting.call.key = some key).length ≤ 1

namespace PayRun.Recorded

variable {run run' : PayRun} {id : String} {payment : PaymentIntent}

theorem key_eq_some {call : PayCall} {key : String} :
    call.key = some key ↔ ∃ operation id, call.mutation = some (key, operation, id) := by
  simp [PayCall.key]

theorem unrecorded (h : run.Recorded)
    (hids : ∀ (id : String) (payment : PaymentIntent),
      run'.engine.payments[id]? = some payment → payment.paymentId = id)
    (hresults : run'.engine.mutationResults = run.engine.mutationResults)
    {postings : List Posting} (hposted : run'.posted = run.posted ++ postings)
    (hkeyless : ∀ posting ∈ postings, posting.call.mutation = none) : run'.Recorded := by
  have hfilter : ∀ key, (postings.filter fun posting ↦ posting.call.key = some key) = [] := by
    intro key
    rw [List.filter_eq_nil_iff]
    intro posting hposting
    simp [PayCall.key, hkeyless posting hposting]
  refine ⟨hids, ?_, ?_, ?_⟩
  · intro posting hmem key operation other hmutation
    rw [hposted, List.mem_append] at hmem
    rcases hmem with hmem | hmem
    · rw [hresults]
      exact h.posting posting hmem key operation other hmutation
    · rw [hkeyless posting hmem] at hmutation
      cases hmutation
  · intro key record hrecord
    rw [hresults] at hrecord
    obtain ⟨posting, hmem, hposting⟩ := h.record key record hrecord
    exact ⟨posting, by rw [hposted]; exact List.mem_append_left _ hmem, hposting⟩
  · intro key
    rw [hposted, List.filter_append, hfilter, List.append_nil]
    exact h.once key

theorem recorded (h : run.Recorded)
    (hids : ∀ (id : String) (payment : PaymentIntent),
      run'.engine.payments[id]? = some payment → payment.paymentId = id)
    {call : PayCall} {entry : PaymentLedgerEntry} {key : String} {operation : Operation}
    (hmutation : call.mutation = some (key, operation, id))
    (hkey : Text.isBlank key = false) (hfresh : run.engine.mutationResults[key]? = none)
    (hproduces : call.Produces entry)
    (hresults : run'.engine.mutationResults =
      run.engine.mutationResults.insert key { operation, paymentId := id, entry })
    (hposted : run'.posted = run.posted ++ [⟨call, entry⟩]) : run'.Recorded := by
  have hnone : (run.posted.filter fun posting ↦ posting.call.key = some key) = [] := by
    rw [List.filter_eq_nil_iff]
    intro posting hmem hsame
    obtain ⟨operation, id, hmutation⟩ := key_eq_some.mp (of_decide_eq_true hsame)
    rw [(h.posting posting hmem key operation id hmutation).2.1] at hfresh
    cases hfresh
  refine ⟨hids, ?_, ?_, ?_⟩
  · intro posting hmem key' operation' other hmutation'
    rw [hposted, List.mem_append, List.mem_singleton] at hmem
    rcases hmem with hmem | rfl
    · obtain ⟨hblank, hrecord, hproduced⟩ := h.posting posting hmem key' operation' other hmutation'
      refine ⟨hblank, ?_, hproduced⟩
      rw [hresults, BTreeMap.get_insert_ne, hrecord]
      rintro rfl
      rw [hfresh] at hrecord
      cases hrecord
    · rw [hmutation] at hmutation'
      cases hmutation'
      exact ⟨hkey, by rw [hresults, BTreeMap.get_insert_self], hproduces⟩
  · intro key' record hrecord
    rw [hresults] at hrecord
    rw [hposted]
    rcases BTreeMap.get_insert_cases hrecord with ⟨rfl, rfl⟩ | hold
    · exact ⟨⟨call, entry⟩, by simp, hmutation, rfl⟩
    · obtain ⟨posting, hmem, hposting⟩ := h.record key' record hold
      exact ⟨posting, List.mem_append_left _ hmem, hposting⟩
  · intro key'
    rw [hposted, List.filter_append, List.length_append]
    by_cases hsame : key' = key
    · rw [hsame, hnone, List.length_nil, Nat.zero_add]
      exact List.length_filter_le _ _
    · have hother : ([⟨call, entry⟩] : List Posting).filter
          (fun posting ↦ posting.call.key = some key') = [] := by
        simp [PayCall.key, hmutation, Ne.symm hsame]
      rw [hother]
      exact h.once key'

theorem ids_insert (h : run.Recorded) (hid : payment.paymentId = id) :
    ∀ (other : String) (p : PaymentIntent),
      (run.engine.payments.insert id payment)[other]? = some p → p.paymentId = other := by
  intro other p hp
  rcases BTreeMap.get_insert_cases hp with ⟨rfl, rfl⟩ | hold
  · exact hid
  · exact h.ids other p hold

theorem step (h : run.Recorded) (call : PayCall) : (run.next sha256 call).Recorded := by
  have hstep := run.step sha256 call
  have hposted : (run.next sha256 call).posted = run.posted ++
      (newlyPosted run.engine call (run.reply sha256 call)).toList.map (Posting.mk call) := rfl
  generalize run.next sha256 call = run' at hstep hposted ⊢
  obtain ⟨engine', posted'⟩ := run'
  simp only at hposted hstep
  generalize run.reply sha256 call = reply at hstep hposted
  have hquiet : ∀ {postings : List Posting}, posted' = run.posted ++ postings → postings = [] →
      PayRun.Recorded ⟨run.engine, posted'⟩ := by
    intro postings hpostings hnil
    exact h.unrecorded h.ids rfl hpostings (by simp [hnil])
  cases hstep with
  | failed hcause => exact hquiet hposted (by cases call <;> rfl)
  | existing => exact hquiet hposted rfl
  | created hvalid hfresh =>
      exact h.unrecorded (h.ids_insert rfl) rfl hposted (by simp [PayCall.mutation])
  | @moved _ id payment next nowMs hcall hstored hallowed =>
      have hid : (PayEngine.movedPayment payment next nowMs).paymentId = id :=
        h.ids id payment hstored
      refine h.unrecorded (h.ids_insert hid) rfl hposted ?_
      cases call <;> simp [newlyPosted]
  | repeated => exact hquiet hposted rfl
  | captured hstored hfirst hentry =>
      exact h.unrecorded (h.ids_insert rfl) rfl hposted (by simp [newlyPosted, PayCall.mutation])
  | refundReplayed hrecord hoperation hpayment =>
      exact hquiet hposted (by simp [newlyPosted, hrecord])
  | @refunded request payment entry hkey hfresh hrefund hentry =>
      have hid := h.ids _ _ hrefund.stored
      obtain ⟨-, htype, href, -⟩ := balancedEntry_ok hentry
      have hproduces : (PayCall.refund request).Produces entry := by
        refine ⟨htype, href.trans hid, payment.amount.currency, ?_⟩
        rw [balancedEntry_lines hentry, List.mem_filter]
        exact ⟨by simp [PayEngine.refundLines], decide_eq_true (ne_zero_of_pos hrefund.pos)⟩
      refine h.recorded (h.ids_insert rfl) rfl hkey hfresh hproduces ?_ ?_
      · rw [← hid]
        rfl
      · simpa [newlyPosted, hfresh] using hposted
  | releaseReplayed hrecord hoperation hpayment =>
      exact hquiet hposted (by simp [newlyPosted, hrecord])
  | @released request payment entry hkey hfresh hrelease hentry =>
      have hid := h.ids _ _ hrelease.stored
      obtain ⟨-, htype, href, -⟩ := balancedEntry_ok hentry
      have hproduces : (PayCall.releaseSettlement request).Produces entry :=
        ⟨htype, href.trans hid⟩
      refine h.recorded (h.ids_insert rfl) rfl hkey hfresh hproduces ?_ ?_
      · rw [← hid]
        rfl
      · simpa [newlyPosted, hfresh] using hposted

end PayRun.Recorded

theorem recorded_run (calls : List PayCall) :
    (Runs.run (PayRun.next sha256) {} calls).Recorded := by
  refine Runs.invariant (fun run call hrun ↦ hrun.step call) ?_ calls
  refine ⟨?_, ?_, ?_, ?_⟩
  · intro id payment h
    simp at h
  · intro posting h
    cases h
  · intro key record h
    simp at h
  · intro key
    simp

/-! ## One key, one request -/

namespace PayRun

variable {run : PayRun}

theorem Recorded.ok_cases (h : run.Recorded) {call : PayCall} {reply : PayReply}
    (hkey : call.key.isSome) (hreply : run.reply sha256 call = .ok reply) :
    (∃ entry, reply.ledgerEntry = some entry ∧ ⟨call, entry⟩ ∈ (run.next sha256 call).posted) ∨
      ∃ posting ∈ run.posted, reply.ledgerEntry = some posting.entry ∧
        posting.call.mutation = call.mutation := by
  have hstep := run.step sha256 call
  have hposted : (run.next sha256 call).posted = run.posted ++
      (newlyPosted run.engine call (run.reply sha256 call)).toList.map (Posting.mk call) := rfl
  rw [hreply] at hstep hposted
  generalize (run.next sha256 call).posted = posted' at hposted ⊢
  generalize (run.next sha256 call).engine = engine' at hstep
  cases hstep with
  | existing | created | repeated | captured => simp [PayCall.key, PayCall.mutation] at hkey
  | moved hcall hstored hallowed =>
      cases call <;> simp_all [PayCall.isTransition, PayCall.key, PayCall.mutation]
  | refundReplayed hrecord hoperation hpayment =>
      obtain ⟨posting, hmem, hmutation, hentry⟩ := h.record _ _ hrecord
      refine .inr ⟨posting, hmem, by rw [hentry]; rfl, ?_⟩
      rw [hmutation, hoperation, hpayment]
      rfl
  | refunded hkey hfresh hrefund hentry =>
      refine .inl ⟨_, rfl, ?_⟩
      simp [hposted, newlyPosted, hfresh]
  | releaseReplayed hrecord hoperation hpayment =>
      obtain ⟨posting, hmem, hmutation, hentry⟩ := h.record _ _ hrecord
      refine .inr ⟨posting, hmem, by rw [hentry]; rfl, ?_⟩
      rw [hmutation, hoperation, hpayment]
      rfl
  | released hkey hfresh hrelease hentry =>
      refine .inl ⟨_, rfl, ?_⟩
      simp [hposted, newlyPosted, hfresh]

theorem next_of_error {call : PayCall} {e : PayError} (h : run.reply sha256 call = .error e) :
    run.next sha256 call = run := by
  have hstep := run.step sha256 call
  rw [h] at hstep
  have hengine := hstep.of_error.1
  have hposted : (run.next sha256 call).posted = run.posted ++
      (newlyPosted run.engine call (run.reply sha256 call)).toList.map (Posting.mk call) := rfl
  rw [h] at hposted
  have hnone : newlyPosted run.engine call (.error e) = none := by
    cases call <;> rfl
  rw [hnone, Option.toList_none, List.map_nil, List.append_nil] at hposted
  generalize run.next sha256 call = run' at hengine hposted
  obtain ⟨engine', posted'⟩ := run'
  simp only at hengine hposted
  rw [hengine, hposted]

theorem reply_refund_recorded {request : RefundRequest} {record : MutationRecord}
    (hkey : Text.isBlank request.idempotencyKey = false)
    (hrecord : run.engine.mutationResults[request.idempotencyKey]? = some record) :
    (record.operation = .refund ∧ record.paymentId = request.paymentId ∧
      ∀ key, run.reply sha256 (.refund request) ≠ .error (.idempotencyConflict key)) ∨
    (record.operation ≠ .refund ∨ record.paymentId ≠ request.paymentId) ∧
      run.reply sha256 (.refund request) =
        .error (.idempotencyConflict request.idempotencyKey) := by
  have hyields := yields_self (PayEngine.exec sha256 (.refund request)) run.engine
  obtain ⟨r, hr, hmap⟩ := yields_map.mp hyields
  rw [PayRun.reply, hmap]
  rcases PayEngine.refund_recorded hr hkey hrecord with ⟨hoperation, hpayment, hne⟩ |
    ⟨hother, hconflict⟩
  · refine .inl ⟨hoperation, hpayment, ?_⟩
    intro key
    cases r with
    | ok mutation => simp [Except.map]
    | error e =>
        have he := hne key
        simpa [Except.map] using he
  · refine .inr ⟨hother, ?_⟩
    rw [hconflict]
    rfl

theorem reply_release_recorded {request : SettlementRelease} {record : MutationRecord}
    (hkey : Text.isBlank request.idempotencyKey = false)
    (hrecord : run.engine.mutationResults[request.idempotencyKey]? = some record)
    (hother : record.operation ≠ .settlementRelease ∨ record.paymentId ≠ request.paymentId) :
    run.reply sha256 (.releaseSettlement request) =
      .error (.idempotencyConflict request.idempotencyKey) := by
  have hyields := yields_self (PayEngine.exec sha256 (.releaseSettlement request)) run.engine
  obtain ⟨r, hr, hmap⟩ := yields_map.mp hyields
  rw [PayRun.reply, hmap, PayEngine.releaseSettlement_recorded hr hkey hrecord hother]
  rfl

theorem sameRequest_of_mutation {first second : PayCall} (hkey : second.key.isSome)
    (h : first.mutation = second.mutation)
    (hamount : ∀ a b, first = .refund a → second = .refund b → a.amount = b.amount) :
    first.SameRequest second := by
  cases second with
  | refund b =>
      cases first with
      | refund a =>
          simp only [PayCall.mutation, Option.some.injEq, Prod.mk.injEq] at h
          exact ⟨h.1, h.2.2, hamount a b rfl rfl⟩
      | _ => simp [PayCall.mutation] at h
  | releaseSettlement b =>
      cases first with
      | releaseSettlement a =>
          simp only [PayCall.mutation, Option.some.injEq, Prod.mk.injEq] at h
          exact ⟨h.1, h.2.2⟩
      | _ => simp [PayCall.mutation] at h
  | _ => simp [PayCall.key, PayCall.mutation] at hkey

theorem AmountKept.sameRequest {call : PayCall} (h : run.AmountKept call) {posting : Posting}
    (hmem : posting ∈ run.posted) (hkey : call.key.isSome)
    (hmutation : posting.call.mutation = call.mutation) : posting.call.SameRequest call := by
  refine sameRequest_of_mutation hkey hmutation ?_
  intro first request hfirst hrequest
  simp only [hfirst, hrequest, PayCall.mutation, Option.some.injEq, Prod.mk.injEq] at hmutation
  exact h request hrequest posting hmem first hfirst hmutation.1 hmutation.2.2

theorem Recorded.conflict (h : run.Recorded) {call : PayCall} (hkept : run.AmountKept call)
    {posting : Posting} (hmem : posting ∈ run.posted) {key : String}
    (hposting : posting.call.key = some key) (hkey : call.key = some key)
    (hother : ¬ posting.call.SameRequest call) :
    run.reply sha256 call = .error (.idempotencyConflict key) := by
  obtain ⟨operation, id, hmutation⟩ := Recorded.key_eq_some.mp hposting
  obtain ⟨hblank, hrecord, -⟩ := h.posting posting hmem key operation id hmutation
  have hdiffers : posting.call.mutation ≠ call.mutation :=
    fun heq ↦ hother (hkept.sameRequest hmem (by simp [hkey]) heq)
  cases call with
  | refund request =>
      simp only [PayCall.key, PayCall.mutation, Option.map_some, Option.some.injEq] at hkey
      subst hkey
      rcases reply_refund_recorded hblank hrecord with ⟨rfl, rfl, -⟩ | ⟨-, hconflict⟩
      · exact absurd hmutation hdiffers
      · exact hconflict
  | releaseSettlement request =>
      simp only [PayCall.key, PayCall.mutation, Option.map_some, Option.some.injEq] at hkey
      subst hkey
      refine reply_release_recorded hblank hrecord ?_
      by_contra hsame
      push Not at hsame
      obtain ⟨rfl, rfl⟩ := hsame
      exact hdiffers hmutation
  | _ => simp [PayCall.key, PayCall.mutation] at hkey

theorem Recorded.oneRequest_iff (h : run.Recorded) (call : PayCall) :
    run.OneRequest sha256 call ↔ run.AmountKept call := by
  have hnext : (run.next sha256 call).Recorded := h.step call
  constructor
  · rintro hone request rfl posting hmem first hfirst hkey hpayment
    by_contra hamount
    have hmutation : posting.call.mutation =
        some (request.idempotencyKey, .refund, request.paymentId) := by
      rw [hfirst, ← hkey, ← hpayment]
      rfl
    obtain ⟨hblank, hrecord, -⟩ := h.posting posting hmem _ _ _ hmutation
    have hother : ¬ posting.call.SameRequest (.refund request) := by
      rw [hfirst]
      exact fun hsame ↦ hamount hsame.2.2
    have hconflict := (hone.conflict posting hmem request.idempotencyKey
      (by simp [PayCall.key, hmutation]) rfl hother).1
    have hrecorded : _ ∨ _ ∧ run.reply sha256 (.refund request) = _ :=
      reply_refund_recorded hblank hrecord
    rcases hrecorded with ⟨-, -, hne⟩ | ⟨hwrong, -⟩
    · exact hne _ hconflict
    · simp at hwrong
  · intro hkept
    refine ⟨?_, ?_, hnext.once⟩
    · intro reply hkey hreply
      rcases h.ok_cases hkey hreply with ⟨entry, hentry, hmem⟩ | ⟨posting, hmem, hentry, hmutation⟩
      · obtain ⟨key, hsome⟩ := Option.isSome_iff_exists.mp hkey
        obtain ⟨operation, id, hmutation⟩ := Recorded.key_eq_some.mp hsome
        refine ⟨_, hmem, hentry, ?_, (hnext.posting _ hmem key operation id hmutation).2.2⟩
        exact sameRequest_of_mutation hkey rfl (by rintro a b rfl hb; cases hb; rfl)
      · have hsame := hkept.sameRequest hmem hkey hmutation
        obtain ⟨key, hsome⟩ := Option.isSome_iff_exists.mp hkey
        obtain ⟨operation, id, hcall⟩ := Recorded.key_eq_some.mp hsome
        have hproduces := (h.posting posting hmem key operation id (hmutation.trans hcall)).2.2
        exact ⟨posting, List.mem_append_left _ hmem, hentry, hsame, hsame.produces hproduces⟩
    · intro posting hmem key hposting hkey hother
      have hconflict : run.reply sha256 call = .error (.idempotencyConflict key) :=
        h.conflict hkept hmem hposting hkey hother
      exact ⟨hconflict, next_of_error hconflict⟩

end PayRun

/-- In every run, keys mean one request at every call exactly when no refund repeats the
key of an earlier refund of its payment with another amount. -/
theorem keys_mean_one_request (sha256 : List UInt8 → List UInt8) (calls : List PayCall) :
    (∀ run call, Runs.Takes (PayRun.next sha256) {} calls run call → run.OneRequest sha256 call) ↔
      ∀ run call, Runs.Takes (PayRun.next sha256) {} calls run call → run.AmountKept call := by
  have hiff : ∀ run call, Runs.Takes (PayRun.next sha256) {} calls run call →
      (run.OneRequest sha256 call ↔ run.AmountKept call) := by
    rintro run call ⟨before, rest, -, rfl⟩
    exact (recorded_run before).oneRequest_iff call
  exact ⟨fun h run call htakes ↦ (hiff run call htakes).mp (h run call htakes),
    fun h run call htakes ↦ (hiff run call htakes).mpr (h run call htakes)⟩

def sampleRefund (amount occurredAtMs : Int64) : RefundRequest :=
  { idempotencyKey := "r-1", paymentId := sampleId, amount, occurredAtMs }

def refundedCalls : List PayCall :=
  [.createPayment sampleRequest,
    .succeed sampleId { providerReference := "p-1", occurredAtMs := 2 },
    .refund (sampleRefund 100 3)]

/-- A refund of 200 under the key of a refund of 100 returns the entry of 100. -/
theorem refund_key_with_other_amount :
    ¬ ∀ run call, Runs.Takes (PayRun.next Sha256.digest) {}
      (refundedCalls ++ [.refund (sampleRefund 200 4)]) run call →
        run.OneRequest Sha256.digest call := by
  intro h
  have hone := h _ _ ⟨refundedCalls, [], rfl, rfl⟩
  have hposted : ∃ posting ∈ (Runs.run (PayRun.next Sha256.digest) {} refundedCalls).posted,
      posting.call = .refund (sampleRefund 100 3) := by
    decide +kernel
  obtain ⟨posting, hmem, hcall⟩ := hposted
  have hreply := (hone.conflict posting hmem "r-1" (by rw [hcall]; rfl) rfl (by
    rw [hcall]
    rintro ⟨-, -, hamount⟩
    exact absurd hamount (by decide))).1
  revert hreply
  decide +kernel

end Fabushi.Pay
