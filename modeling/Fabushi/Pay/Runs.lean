import Fabushi.Pay.Steps
import Fabushi.Library.Runs
import Fabushi.Library.Sha256

/-!
# Runs of the payment engine

A run keeps, beside the engine, the ledger entries its calls posted: an entry
counts when its call made it, not when a later call returns it again. The
invariant ties the counters of every payment to the lines of its entries.
-/

namespace Fabushi.Pay

open Effects MachineInt Result

variable (sha256 : List UInt8 → List UInt8)

structure Posting where
  call : PayCall
  entry : PaymentLedgerEntry
  deriving DecidableEq

structure PayRun where
  engine : PayEngine := {}
  posted : List Posting := []

def newlyPosted (engine : PayEngine) : PayCall → Except PayError PayReply →
    Option PaymentLedgerEntry
  | .succeed .., .ok (.mutation mutation) => mutation.ledgerEntry
  | .refund request, .ok (.mutation mutation) =>
      if engine.mutationResults[request.idempotencyKey]?.isSome then none
      else mutation.ledgerEntry
  | .releaseSettlement request, .ok (.entry entry) =>
      if engine.mutationResults[request.idempotencyKey]?.isSome then none else some entry
  | _, _ => none

namespace PayRun

def reply (run : PayRun) (call : PayCall) : Except PayError PayReply :=
  result (PayEngine.exec sha256 call) run.engine

def next (run : PayRun) (call : PayCall) : PayRun where
  engine := after (PayEngine.exec sha256 call) run.engine
  posted := run.posted ++
    (newlyPosted run.engine call (run.reply sha256 call)).toList.map (Posting.mk call)

theorem step (run : PayRun) (call : PayCall) :
    PayEngine.Step sha256 run.engine call (run.reply sha256 call) (run.next sha256 call).engine :=
  PayEngine.exec_step run.engine call

def linesOf (run : PayRun) (paymentId : String) : List PaymentLedgerLine :=
  (run.posted.filter fun posting ↦ posting.entry.referenceId = paymentId).flatMap
    fun posting ↦ posting.entry.lines

end PayRun

def creates (calls : List PayCall) : List CreatePaymentIntent :=
  calls.filterMap fun
    | .createPayment request => some request
    | _ => none

/-- The digest separates the payments of a run, whose strings fit into memory. -/
structure CollisionFree (requests : List CreatePaymentIntent) : Prop where
  length_lt : ∀ request ∈ requests, ∀ part ∈ request.idParts, Text.len part < 2 ^ 64
  separates : ∀ a ∈ requests, ∀ b ∈ requests,
    sha256 (Bytes.lengthPrefixed a.idParts) = sha256 (Bytes.lengthPrefixed b.idParts) →
      Bytes.lengthPrefixed a.idParts = Bytes.lengthPrefixed b.idParts

variable {sha256}

theorem CollisionFree.key_eq {requests : List CreatePaymentIntent}
    (h : CollisionFree sha256 requests) {a b : CreatePaymentIntent} (ha : a ∈ requests)
    (hb : b ∈ requests)
    (hid : (a.toPayment sha256).paymentId = (b.toPayment sha256).paymentId) :
    a.idempotencyKey = b.idempotencyKey := by
  have hdigest := h.separates a ha b hb (Bytes.encodeHex_injective hid)
  have hparts := Bytes.lengthPrefixed_injective (h.length_lt a ha) (h.length_lt b hb) hdigest
  simp only [CreatePaymentIntent.idParts, List.cons.injEq] at hparts
  exact hparts.2.1

/-! ## The invariant -/

structure PaymentIntent.StatusFits (payment : PaymentIntent) : Prop where
  refunded_iff : payment.status = .refunded ↔ payment.refundedAmount = payment.amount.amount
  partially_iff : payment.status = .partiallyRefunded ↔
    0 < payment.refundedAmount.toInt ∧
      payment.refundedAmount.toInt < payment.amount.amount.toInt
  untouched : payment.status.hasSucceeded = false →
    payment.refundedAmount = 0 ∧ payment.releasedDeveloperAmount = 0

namespace PaymentIntent

open PayEngine

variable {payment : PaymentIntent}

theorem StatusFits.of_untouched (hpos : 0 < payment.amount.amount.toInt)
    (hrefunded : payment.refundedAmount = 0) (hreleased : payment.releasedDeveloperAmount = 0)
    (hstatus : payment.status ≠ .refunded ∧ payment.status ≠ .partiallyRefunded) :
    payment.StatusFits := by
  refine ⟨?_, ?_, fun _ ↦ ⟨hrefunded, hreleased⟩⟩
  · refine iff_of_false hstatus.1 ?_
    rw [hrefunded]
    exact (ne_zero_of_pos hpos).symm
  · refine iff_of_false hstatus.2 ?_
    rw [hrefunded]
    exact fun h ↦ absurd h.1 (by decide)

theorem transitionAllowed_cases {status next : PaymentStatus} (h : transitionAllowed status next) :
    status.hasSucceeded = false ∧ next.hasSucceeded = false := by
  cases status <;> cases next <;> first | exact ⟨rfl, rfl⟩ | cases h

theorem ne_of_not_succeeded {status : PaymentStatus} (h : status.hasSucceeded = false) :
    status ≠ .refunded ∧ status ≠ .partiallyRefunded := by
  cases status <;> simp_all [PaymentStatus.hasSucceeded]

theorem hasSucceeded_of_isRefundable {status : PaymentStatus} (h : isRefundable status) :
    status.hasSucceeded := by
  cases status <;> simp_all [PaymentStatus.hasSucceeded, isRefundable]

theorem StatusFits.refunded {amount : Int64} (h : payment.Valid) (hpos : 0 < amount.toInt)
    (hle : payment.refundedAmount.toInt + amount.toInt ≤ payment.amount.amount.toInt)
    (occurredAtMs : Int64) :
    (refundedPayment payment (refundSplit payment amount) occurredAtMs).StatusFits ∧
      (refundedPayment payment (refundSplit payment amount) occurredAtMs).status.hasSucceeded := by
  have hnew := (h.splitExact hpos hle).1.newRefunded
  have hold := h.refunded_nonneg
  by_cases hfull : (refundSplit payment amount).newRefunded = payment.amount.amount
  · have hstatus : (refundedPayment payment (refundSplit payment amount) occurredAtMs).status =
        .refunded := if_pos hfull
    refine ⟨⟨iff_of_true hstatus hfull, ?_, ?_⟩, by rw [hstatus]; rfl⟩
    · rw [hstatus]
      refine iff_of_false (by simp) ?_
      rintro ⟨-, hlt⟩
      change (refundSplit payment amount).newRefunded.toInt < payment.amount.amount.toInt at hlt
      rw [hfull] at hlt
      exact lt_irrefl _ hlt
    · rw [hstatus]
      simp [PaymentStatus.hasSucceeded]
  · have hstatus : (refundedPayment payment (refundSplit payment amount) occurredAtMs).status =
        .partiallyRefunded := if_neg hfull
    have hne : (refundSplit payment amount).newRefunded.toInt ≠ payment.amount.amount.toInt :=
      fun heq ↦ hfull (Int64.toInt_inj.mp heq)
    refine ⟨⟨?_, ?_, ?_⟩, by rw [hstatus]; rfl⟩
    · rw [hstatus]
      exact iff_of_false (by simp) hfull
    · refine iff_of_true hstatus ⟨?_, ?_⟩
      · change 0 < (refundSplit payment amount).newRefunded.toInt
        omega
      · change (refundSplit payment amount).newRefunded.toInt < payment.amount.amount.toInt
        omega
    · rw [hstatus]
      simp [PaymentStatus.hasSucceeded]

end PaymentIntent

def PaymentIntent.booked (payment : PaymentIntent) (account : PaymentIntent.Account) : ℤ :=
  if payment.status.hasSucceeded then payment.balance account else 0

structure Accounted (sha256 : List UInt8 → List UInt8) (requests : List CreatePaymentIntent)
    (run : PayRun) (id : String) (payment : PaymentIntent) : Prop where
  id_eq : payment.paymentId = id
  valid : payment.Valid
  status : payment.StatusFits
  booked : ∀ account,
    accountSum (payment.accountId account) (run.linesOf id) = payment.booked account
  indexed : run.engine.paymentByIdempotency[payment.idempotencyKey]? = some id
  origin : ∃ request ∈ requests, (request.toPayment sha256).paymentId = id ∧
    request.idempotencyKey = payment.idempotencyKey

structure Sound (sha256 : List UInt8 → List UInt8) (requests : List CreatePaymentIntent)
    (run : PayRun) : Prop where
  payment : ∀ id payment, run.engine.payments[id]? = some payment →
    Accounted sha256 requests run id payment
  index : ∀ (key id : String), run.engine.paymentByIdempotency[key]? = some id →
    ∃ payment, run.engine.payments[id]? = some payment
  posted : ∀ posting ∈ run.posted, posting.entry.validate = .ok () ∧
    ∃ payment, run.engine.payments[posting.entry.referenceId]? = some payment

/-! ## One step -/

namespace Sound

variable {requests : List CreatePaymentIntent} {run run' : PayRun} {id : String}
  {payment payment' : PaymentIntent}

theorem linesOf_absent (h : Sound sha256 requests run) (habsent : run.engine.payments[id]? = none) :
    run.linesOf id = [] := by
  have hnone : (run.posted.filter fun posting ↦ posting.entry.referenceId = id) = [] := by
    rw [List.filter_eq_nil_iff]
    intro posting hposting hid
    obtain ⟨-, payment, hstored⟩ := h.posted posting hposting
    rw [of_decide_eq_true hid, habsent] at hstored
    cases hstored
  rw [PayRun.linesOf, hnone, List.flatMap_nil]

theorem update (h : Sound sha256 requests run)
    (hstored : run.engine.payments[id]? = some payment)
    (hvalid : payment'.Valid) (hstatus : payment'.StatusFits)
    (hid : payment'.paymentId = payment.paymentId)
    (hkey : payment'.idempotencyKey = payment.idempotencyKey)
    (haccounts : payment'.accountId = payment.accountId)
    (hpayments : run'.engine.payments = run.engine.payments.insert id payment')
    (hindex : run'.engine.paymentByIdempotency = run.engine.paymentByIdempotency)
    {postings : List Posting} (hposted : run'.posted = run.posted ++ postings)
    (hentries : ∀ posting ∈ postings, posting.entry.validate = .ok () ∧
      posting.entry.referenceId = id)
    (hsums : ∀ account, payment.booked account + accountSum (payment.accountId account)
      (postings.flatMap fun posting ↦ posting.entry.lines) = payment'.booked account) :
    Sound sha256 requests run' := by
  have hlines : ∀ other, run'.linesOf other = run.linesOf other ++
      if other = id then postings.flatMap fun posting ↦ posting.entry.lines else [] := by
    intro other
    rw [PayRun.linesOf, hposted, List.filter_append, List.flatMap_append]
    congr 1
    by_cases hother : other = id
    · rw [if_pos hother, List.filter_eq_self.mpr]
      intro posting hposting
      simp [hother, (hentries posting hposting).2]
    · rw [if_neg hother, List.filter_eq_nil_iff.mpr, List.flatMap_nil]
      intro posting hposting
      simp [(hentries posting hposting).2, Ne.symm hother]
  have haccounted := h.payment id payment hstored
  constructor
  · intro other p hp
    rw [hpayments, BTreeMap.get_insert] at hp
    split at hp
    · rename_i hother
      subst hother
      obtain rfl := Option.some.inj hp
      refine ⟨hid.trans haccounted.id_eq, hvalid, hstatus, ?_, ?_, ?_⟩
      · intro account
        rw [hlines, if_pos rfl, haccounts]
        rw [← hsums, ← haccounted.booked]
        exact lineSum_append _ _ _
      · rw [hindex, hkey]
        exact haccounted.indexed
      · rw [hkey]
        exact haccounted.origin
    · rename_i hne
      have hother := h.payment other p hp
      refine ⟨hother.id_eq, hother.valid, hother.status, ?_, ?_, hother.origin⟩
      · intro account
        rw [hlines, if_neg (Ne.symm hne), List.append_nil]
        exact hother.booked account
      · rw [hindex]
        exact hother.indexed
  · intro key other hkey'
    rw [hindex] at hkey'
    obtain ⟨p, hp⟩ := h.index key other hkey'
    rw [hpayments, BTreeMap.get_insert]
    split
    · exact ⟨payment', rfl⟩
    · exact ⟨p, hp⟩
  · intro posting hmem
    rw [hposted, List.mem_append] at hmem
    rw [hpayments]
    rcases hmem with hmem | hmem
    · obtain ⟨hok, p, hp⟩ := h.posted posting hmem
      refine ⟨hok, ?_⟩
      rw [BTreeMap.get_insert]
      split
      · exact ⟨payment', rfl⟩
      · exact ⟨p, hp⟩
    · obtain ⟨hok, href⟩ := hentries posting hmem
      refine ⟨hok, payment', ?_⟩
      rw [href, BTreeMap.get_insert_self]

theorem fresh (h : Sound sha256 requests run) (hfree : CollisionFree sha256 requests)
    {request : CreatePaymentIntent} (hrequest : request ∈ requests)
    (hfresh : run.engine.paymentByIdempotency[request.idempotencyKey]? = none) :
    run.engine.payments[(request.toPayment sha256).paymentId]? = none := by
  cases hstored : run.engine.payments[(request.toPayment sha256).paymentId]? with
  | none => rfl
  | some payment =>
      have haccounted := h.payment _ payment hstored
      obtain ⟨other, hother, hid, hkey⟩ := haccounted.origin
      have hindexed := haccounted.indexed
      rw [← hkey, hfree.key_eq hother hrequest hid, hfresh] at hindexed
      cases hindexed

theorem create (h : Sound sha256 requests run) (hfree : CollisionFree sha256 requests)
    {request : CreatePaymentIntent} (hrequest : request ∈ requests)
    (hvalid : request.validate = .ok ())
    (hfresh : run.engine.paymentByIdempotency[request.idempotencyKey]? = none) :
    Sound sha256 requests
      { run with
        engine := (run.engine.withIndex request.idempotencyKey
          (request.toPayment sha256).paymentId).withPayment (request.toPayment sha256).paymentId
            (request.toPayment sha256) } := by
  set id := (request.toPayment sha256).paymentId with hid
  have habsent := h.fresh hfree hrequest hfresh
  simp only [CreatePaymentIntent.validate, bind_eq_ok, ensure_eq_ok] at hvalid
  obtain ⟨_, -, _, hamount, hbps⟩ := hvalid
  have hpos : 0 < request.amount.amount.toInt := PayEngine.pos_of_not_le_zero hamount
  have hbpsLe : request.platformFeeBps.toNat ≤ 10000 := by
    rw [UInt16.lt_iff_toNat_lt] at hbps
    exact Nat.not_lt.mp hbps
  have hnew : (request.toPayment sha256).Valid := by
    refine ⟨hpos, hbpsLe, le_refl _, hpos.le, le_refl _, ?_⟩
    change 0 ≤ Proportion.rest request.platformFeeBps.toNat 10000 request.amount.amount.toInt -
      Proportion.rest request.platformFeeBps.toNat 10000 0
    rw [Proportion.rest_zero, sub_zero]
    exact Proportion.rest_nonneg (by norm_num) (by exact_mod_cast hbpsLe) hpos.le
  have hstatus : (request.toPayment sha256).StatusFits :=
    .of_untouched hpos rfl rfl ⟨by simp [CreatePaymentIntent.toPayment],
      by simp [CreatePaymentIntent.toPayment]⟩
  constructor
  · intro other p hp
    simp only [PayEngine.withPayment, PayEngine.withIndex, BTreeMap.get_insert] at hp ⊢
    split at hp
    · rename_i hother
      subst hother
      obtain rfl := Option.some.inj hp
      refine ⟨rfl, hnew, hstatus, ?_, ?_, ?_⟩
      · intro account
        change accountSum _ (run.linesOf id) = 0
        rw [h.linesOf_absent habsent]
        rfl
      · exact BTreeMap.get_insert_self _ _ _
      · exact ⟨request, hrequest, rfl, rfl⟩
    · have hother := h.payment other p hp
      refine ⟨hother.id_eq, hother.valid, hother.status, hother.booked, ?_, hother.origin⟩
      change (run.engine.paymentByIdempotency.insert request.idempotencyKey id)[_]? = _
      rw [BTreeMap.get_insert_ne]
      · exact hother.indexed
      · intro hkey
        have hindexed := hother.indexed
        rw [← hkey, hfresh] at hindexed
        cases hindexed
  · intro key other hkey
    simp only [PayEngine.withPayment, PayEngine.withIndex, BTreeMap.get_insert] at hkey ⊢
    by_cases hother : id = other
    · exact ⟨_, if_pos hother⟩
    · rw [if_neg hother]
      split at hkey
      · exact absurd (Option.some.inj hkey) hother
      · exact h.index key other hkey
  · intro posting hmem
    obtain ⟨hok, p, hp⟩ := h.posted posting hmem
    refine ⟨hok, ?_⟩
    simp only [PayEngine.withPayment, PayEngine.withIndex, BTreeMap.get_insert]
    split
    · exact ⟨_, rfl⟩
    · exact ⟨p, hp⟩

end Sound

namespace PayEngine

theorem Refundable.le_amount {engine : PayEngine} {request : RefundRequest}
    {payment : PaymentIntent} (h : engine.Refundable request payment) (hvalid : payment.Valid) :
    payment.refundedAmount.toInt + request.amount.toInt ≤ payment.amount.amount.toInt := by
  have hle := h.le
  rw [hvalid.toInt_refundableAmount] at hle
  omega

end PayEngine

theorem Sound.step {requests : List CreatePaymentIntent} {run : PayRun}
    (h : Sound sha256 requests run) (hfree : CollisionFree sha256 requests) {call : PayCall}
    (hcall : ∀ request, call = .createPayment request → request ∈ requests) :
    Sound sha256 requests (run.next sha256 call) := by
  have hstep : PayEngine.Step sha256 run.engine call _ _ := PayEngine.exec_step run.engine call
  rw [PayRun.next, PayRun.reply]
  generalize after (PayEngine.exec sha256 call) run.engine = engine' at hstep ⊢
  generalize result (PayEngine.exec sha256 call) run.engine = reply at hstep ⊢
  have hsame : ∀ postings : List Posting, postings = [] →
      Sound sha256 requests { engine := run.engine, posted := run.posted ++ postings } := by
    rintro postings rfl
    rw [List.append_nil]
    exact h
  cases hstep with
  | failed hcause => exact hsame _ (by cases call <;> rfl)
  | existing => exact hsame _ rfl
  | created hvalid hfresh =>
      have hcreate := h.create hfree (hcall _ rfl) hvalid hfresh
      simpa [newlyPosted] using hcreate
  | @moved _ id payment next nowMs hcall hstored hallowed =>
      have haccounted := h.payment _ _ hstored
      obtain ⟨hbefore, hafter⟩ := PaymentIntent.transitionAllowed_cases hallowed
      obtain ⟨hrefunded, hreleased⟩ := haccounted.status.untouched hbefore
      have hvalid : (PayEngine.movedPayment payment next nowMs).Valid :=
        ⟨haccounted.valid.amount_pos, haccounted.valid.bps_le, haccounted.valid.refunded_nonneg,
          haccounted.valid.refunded_le, haccounted.valid.released_nonneg,
          haccounted.valid.released_le⟩
      have hnone : newlyPosted run.engine call
          (.ok (.payment (PayEngine.movedPayment payment next nowMs))) = none := by
        cases call <;> rfl
      refine h.update hstored hvalid ?_ rfl rfl rfl rfl rfl rfl ?_ ?_
      · exact .of_untouched haccounted.valid.amount_pos hrefunded hreleased
          (PaymentIntent.ne_of_not_succeeded hafter)
      · simp [hnone]
      · intro account
        simp only [hnone, Option.toList_none, List.map_nil, List.flatMap_nil]
        simp [PaymentIntent.booked, PayEngine.movedPayment, hbefore, hafter, accountSum]
  | repeated => exact hsame _ rfl
  | @captured id outcome payment entry hstored hfirst hentry =>
      have haccounted := h.payment _ _ hstored
      obtain ⟨hrefunded, hreleased⟩ := haccounted.status.untouched hfirst
      obtain ⟨hok, -, href, hsums⟩ := balancedEntry_ok hentry
      have hvalid : (PayEngine.capturedPayment payment outcome).Valid :=
        ⟨haccounted.valid.amount_pos, haccounted.valid.bps_le, haccounted.valid.refunded_nonneg,
          haccounted.valid.refunded_le, haccounted.valid.released_nonneg,
          haccounted.valid.released_le⟩
      refine h.update hstored hvalid ?_ rfl rfl rfl ?_ rfl rfl ?_ ?_
      · exact .of_untouched haccounted.valid.amount_pos hrefunded hreleased (by
          simp [PayEngine.capturedPayment])
      · rw [← haccounted.id_eq]
        rfl
      · simp [newlyPosted, hok, href, haccounted.id_eq]
      · intro account
        simp only [newlyPosted, Option.toList_some, List.map_cons, List.map_nil,
          List.flatMap_cons, List.flatMap_nil, List.append_nil, hsums,
          haccounted.valid.capture_sums hrefunded hreleased]
        simp [PaymentIntent.booked, hfirst]
        rfl
  | refundReplayed hrecord hoperation hpayment =>
      exact hsame _ (by simp [newlyPosted, hrecord])
  | @refunded request payment entry hkey hfresh hrefund hentry =>
      have haccounted := h.payment _ _ hrefund.stored
      have hle := hrefund.le_amount haccounted.valid
      obtain ⟨hstatus, hafter⟩ := PaymentIntent.StatusFits.refunded haccounted.valid hrefund.pos
        hle request.occurredAtMs
      obtain ⟨hok, -, href, hsums⟩ := balancedEntry_ok hentry
      refine h.update hrefund.stored
        (haccounted.valid.refunded hrefund.pos hle request.occurredAtMs) hstatus rfl rfl rfl
        ?_ rfl rfl ?_ ?_
      · rw [← haccounted.id_eq]
        rfl
      · simp [newlyPosted, hfresh, hok, href, haccounted.id_eq]
      · intro account
        simp only [newlyPosted, hfresh, Option.isSome_none, Bool.false_eq_true, if_false,
          Option.toList_some, List.map_cons, List.map_nil, List.flatMap_cons, List.flatMap_nil,
          List.append_nil, hsums]
        rw [PaymentIntent.booked, PaymentIntent.booked, if_pos hafter,
          if_pos (PaymentIntent.hasSucceeded_of_isRefundable hrefund.status)]
        exact haccounted.valid.refund_sums hrefund.pos hle request.occurredAtMs account
  | releaseReplayed hrecord hoperation hpayment =>
      exact hsame _ (by simp [newlyPosted, hrecord])
  | @released request payment entry hkey hfresh hrelease hentry =>
      have haccounted := h.payment _ _ hrelease.stored
      have hsucceeded := PaymentIntent.hasSucceeded_of_isRefundable hrelease.status
      obtain ⟨hok, -, href, hsums⟩ := balancedEntry_ok hentry
      refine h.update hrelease.stored
        (haccounted.valid.released hrelease.pos request.occurredAtMs).1 ?_ rfl rfl rfl
        ?_ rfl rfl ?_ ?_
      · refine ⟨haccounted.status.refunded_iff, haccounted.status.partially_iff, ?_⟩
        intro hnot
        exact absurd hsucceeded (by simpa [PayEngine.releasedPayment] using hnot)
      · rw [← haccounted.id_eq]
        rfl
      · simp [newlyPosted, hfresh, hok, href, haccounted.id_eq]
      · intro account
        simp only [newlyPosted, hfresh, Option.isSome_none, Bool.false_eq_true, if_false,
          Option.toList_some, List.map_cons, List.map_nil, List.flatMap_cons, List.flatMap_nil,
          List.append_nil, hsums]
        rw [PaymentIntent.booked, PaymentIntent.booked, if_pos hsucceeded]
        refine (haccounted.valid.release_sums hrelease.pos request.occurredAtMs account).trans ?_
        exact (if_pos hsucceeded).symm

theorem Sound.not_broken {requests : List CreatePaymentIntent} {run : PayRun}
    (h : Sound sha256 requests run) (e : PayError) : ¬ PayEngine.Broken sha256 run.engine e := by
  rintro (⟨hindex, habsent⟩ | ⟨hstored, herror⟩ | ⟨hrefund, hless⟩ | ⟨hrefund, herror⟩ |
    ⟨hrelease, herror⟩)
  · obtain ⟨payment, hstored⟩ := h.index _ _ hindex
    rw [habsent] at hstored
    cases hstored
  · obtain ⟨entry, hok⟩ := (h.payment _ _ hstored).valid.capture_isOk sha256 _ _
    rw [hok] at herror
    cases herror
  · have hvalid := (h.payment _ _ hrefund.stored).valid
    have hle := (hvalid.splitBounds hrefund.pos (hrefund.le_amount hvalid)).available_le
    rw [Int64.lt_iff_toInt_lt] at hless
    omega
  · have hvalid := (h.payment _ _ hrefund.stored).valid
    obtain ⟨entry, hok⟩ := hvalid.refund_isOk hrefund.pos (hrefund.le_amount hvalid) sha256 _ _
    rw [hok] at herror
    cases herror
  · obtain ⟨entry, hok⟩ := PaymentIntent.release_isOk hrelease.pos sha256 _ _
    rw [hok] at herror
    cases herror

theorem Sound.reply_public {requests : List CreatePaymentIntent} {run : PayRun}
    (h : Sound sha256 requests run) {call : PayCall} {e : PayError}
    (hreply : run.reply sha256 call = .error e) : e.isInternal = false := by
  have hstep := run.step sha256 call
  rw [hreply] at hstep
  cases hinternal : e.isInternal with
  | false => rfl
  | true => exact absurd (hstep.of_error.2 hinternal) (h.not_broken e)

theorem mem_creates {calls : List PayCall} {request : CreatePaymentIntent}
    (h : .createPayment request ∈ calls) : request ∈ creates calls :=
  List.mem_filterMap.mpr ⟨_, h, rfl⟩

theorem sound_run {calls : List PayCall} (hfree : CollisionFree sha256 (creates calls)) :
    Sound sha256 (creates calls) (Runs.run (PayRun.next sha256) {} calls) := by
  have hempty : Sound sha256 (creates calls) {} := by
    refine ⟨?_, ?_, ?_⟩
    · intro id payment h
      simp at h
    · intro key id h
      simp at h
    · intro posting h
      cases h
  have hcalls : Runs.Along (PayRun.next sha256)
      (fun _ call ↦ ∀ request, call = .createPayment request → request ∈ creates calls) {} calls := by
    refine Runs.along_of_forall_mem _ ?_ _
    rintro call hcall - request rfl
    exact mem_creates hcall
  exact Runs.invariant_along (fun run call hrun hcall ↦ hrun.step hfree hcall) hempty hcalls

/-! ## The accounting invariant -/

structure PayRun.Agrees (run : PayRun) (id : String) (payment : PaymentIntent) : Prop where
  provider : accountSum (providerAccount payment.amount.currency) (run.linesOf id) =
    if payment.status.hasSucceeded then
      -(payment.amount.amount.toInt - payment.refundedAmount.toInt) else 0
  platform : accountSum platformRevenue (run.linesOf id) =
    if payment.status.hasSucceeded then
      (payment.feeFor payment.amount.amount).toInt -
        (payment.feeFor payment.refundedAmount).toInt else 0
  pending : accountSum (developerPending payment.developerId) (run.linesOf id) =
    if payment.status.hasSucceeded then payment.pendingDeveloperAmount.toInt else 0
  available : accountSum (developerAvailable payment.developerId) (run.linesOf id) =
    payment.releasedDeveloperAmount.toInt
  nonneg : 0 ≤ accountSum platformRevenue (run.linesOf id) ∧
    0 ≤ accountSum (developerPending payment.developerId) (run.linesOf id) ∧
    0 ≤ accountSum (developerAvailable payment.developerId) (run.linesOf id)
  refunded_nonneg : 0 ≤ payment.refundedAmount.toInt
  refunded_le : payment.refundedAmount.toInt ≤ payment.amount.amount.toInt
  refunded_iff : payment.status = .refunded ↔ payment.refundedAmount = payment.amount.amount
  partially_iff : payment.status = .partiallyRefunded ↔
    0 < payment.refundedAmount.toInt ∧ payment.refundedAmount.toInt < payment.amount.amount.toInt

structure PaymentIntent.Exact (payment : PaymentIntent) : Prop where
  accessors : ∀ x ∈ payment.accessorResults, InRange x
  refund : ∀ amount : Int64, 0 < amount → amount ≤ payment.refundableAmount →
    ∀ x ∈ payment.refundResults amount, InRange x
  release : 0 < payment.pendingDeveloperAmount → ∀ x ∈ payment.releaseResults, InRange x

theorem PaymentIntent.Valid.exact {payment : PaymentIntent} (h : payment.Valid) :
    payment.Exact := by
  refine ⟨h.accessors_exact, ?_, ?_⟩
  · intro amount hpos hle
    rw [Int64.lt_iff_toInt_lt, Int64.toInt_zero] at hpos
    rw [Int64.le_iff_toInt_le, h.toInt_refundableAmount] at hle
    exact (h.splitExact hpos (by omega)).2
  · intro hpos
    rw [Int64.lt_iff_toInt_lt, Int64.toInt_zero] at hpos
    exact (h.released hpos 0).2

theorem Accounted.agrees {requests : List CreatePaymentIntent} {run : PayRun} {id : String}
    {payment : PaymentIntent} (h : Accounted sha256 requests run id payment) :
    run.Agrees id payment := by
  have hbooked := h.booked
  have hvalid := h.valid
  have hfee := hvalid.toInt_feeFor hvalid.refunded_nonneg
  have hfeeAll := hvalid.toInt_feeFor hvalid.amount_pos.le
  have hfeeMono := hvalid.fee_mono hvalid.refunded_le
  have hpending := hvalid.toInt_pendingDeveloperAmount
  have hreleasedLe := hvalid.released_le
  have hplatform : accountSum platformRevenue (run.linesOf id) = _ := hbooked .platform
  have hpend : accountSum (developerPending payment.developerId) (run.linesOf id) = _ :=
    hbooked .pending
  have havailable : accountSum (developerAvailable payment.developerId) (run.linesOf id) =
      payment.releasedDeveloperAmount.toInt := by
    refine (hbooked .available).trans ?_
    rw [PaymentIntent.booked]
    split
    · rfl
    · rename_i hnot
      rw [(h.status.untouched (by simpa using hnot)).2]
      rfl
  refine ⟨hbooked .provider, hplatform, hpend, havailable, ⟨?_, ?_, ?_⟩, hvalid.refunded_nonneg,
    hvalid.refunded_le, h.status.refunded_iff, h.status.partially_iff⟩
  · rw [hplatform, PaymentIntent.booked]
    split
    · rw [PaymentIntent.balance, hfee, hfeeAll]
      omega
    · exact le_refl _
  · rw [hpend, PaymentIntent.booked]
    split
    · rw [PaymentIntent.balance]
      omega
    · exact le_refl _
  · rw [havailable]
    exact hvalid.released_nonneg

structure PayRun.WellAccounted (sha256 : List UInt8 → List UInt8) (run : PayRun) : Prop where
  balanced : ∀ posting ∈ run.posted, ∀ currency, currencySum currency posting.entry.lines = 0
  agrees : ∀ id payment, run.engine.payments[id]? = some payment → run.Agrees id payment
  exact : ∀ (id : String) (payment : PaymentIntent), run.engine.payments[id]? = some payment →
    payment.Exact
  no_guard : ∀ call, run.reply sha256 call ≠ .error .refundAccountingInvariant
  no_unbalanced : ∀ call currency amount,
    run.reply sha256 call ≠ .error (.unbalancedLedger currency amount)
  error_unchanged : ∀ call e, run.reply sha256 call = .error e →
    (run.next sha256 call).engine = run.engine

theorem well_accounted (sha256 : List UInt8 → List UInt8) (calls : List PayCall)
    (hfree : CollisionFree sha256 (creates calls)) :
    (Runs.run (PayRun.next sha256) {} calls).WellAccounted sha256 := by
  have hsound := sound_run hfree
  refine ⟨?_, ?_, ?_, ?_, ?_, ?_⟩
  · intro posting hposting
    exact (PaymentLedgerEntry.validate_eq_ok.mp (hsound.posted posting hposting).1).2.2
  · intro id payment hstored
    exact (hsound.payment id payment hstored).agrees
  · intro id payment hstored
    exact (hsound.payment id payment hstored).valid.exact
  · intro call hreply
    cases hsound.reply_public hreply
  · intro call currency amount hreply
    cases hsound.reply_public hreply
  · intro call e hreply
    have hstep := PayRun.step sha256 (Runs.run (PayRun.next sha256) {} calls) call
    rw [hreply] at hstep
    exact hstep.of_error.1

/-! A payment of 1000 with a fee of 15 %, refunded twice around a release. -/

def sampleRequest : CreatePaymentIntent where
  idempotencyKey := "order-1"
  userId := "u1"
  miniAppId := "app"
  developerId := "dev"
  sku := "lamp"
  productKind := .digitalDurable
  rail := .webProvider
  amount := { currency := "CNY", amount := 1000 }
  platformFeeBps := 1500
  createdAtMs := 1

def sampleId : String :=
  (sampleRequest.toPayment Sha256.digest).paymentId

def sampleCalls : List PayCall :=
  [.createPayment sampleRequest,
    .succeed sampleId { providerReference := "p-1", occurredAtMs := 2 },
    .refund { idempotencyKey := "r-1", paymentId := sampleId, amount := 333, occurredAtMs := 3 },
    .releaseSettlement { idempotencyKey := "s-1", paymentId := sampleId, occurredAtMs := 4 },
    .refund { idempotencyKey := "r-2", paymentId := sampleId, amount := 667, occurredAtMs := 5 }]

theorem sample_collisionFree : CollisionFree Sha256.digest [sampleRequest] := by
  refine ⟨?_, ?_⟩
  · intro request hrequest
    obtain rfl := List.mem_singleton.mp hrequest
    decide +kernel
  · intro a ha b hb _
    rw [List.mem_singleton.mp ha, List.mem_singleton.mp hb]

theorem well_accounted_refunded :
    (Runs.run (PayRun.next Sha256.digest) {} sampleCalls).posted.length = 4 ∧
      (Runs.run (PayRun.next Sha256.digest) {} sampleCalls).WellAccounted Sha256.digest := by
  refine ⟨by decide +kernel, ?_⟩
  exact well_accounted Sha256.digest sampleCalls sample_collisionFree

/-- A payment that is only created has a fee and a pending amount but no lines. -/
theorem created_without_lines :
    ¬ ∀ payment, (Runs.run (PayRun.next Sha256.digest) {}
        [.createPayment sampleRequest]).engine.payments[sampleId]? = some payment →
      accountSum platformRevenue ((Runs.run (PayRun.next Sha256.digest) {}
        [.createPayment sampleRequest]).linesOf sampleId) =
          (payment.feeFor payment.amount.amount).toInt -
            (payment.feeFor payment.refundedAmount).toInt ∧
      accountSum (developerPending payment.developerId) ((Runs.run (PayRun.next Sha256.digest) {}
        [.createPayment sampleRequest]).linesOf sampleId) =
          payment.pendingDeveloperAmount.toInt := by
  intro h
  have hstored : (Runs.run (PayRun.next Sha256.digest) {}
      [.createPayment sampleRequest]).engine.payments[sampleId]? =
        some (sampleRequest.toPayment Sha256.digest) := by
    decide +kernel
  have hsum := (h _ hstored).1
  revert hsum
  decide +kernel

end Fabushi.Pay
