import Fabushi.Worker.CaptureRuns

/-!
# Payments are captured once

Success events, credit confirmations, failures and cancellations in any order: a
payment is captured at most once, its status says so, and the user's credits are never
overdrawn.
-/

namespace Fabushi.Worker

open Interleaving Result

/-! ## The calls -/

def PaymentCall.Captures : PaymentCall → Prop
  | .event _ input _ => input.eventType = .paymentSucceeded ∨ input.eventType = .paymentFailed ∨
      input.eventType = .paymentCancelled
  | .credits .. => True
  | _ => False

def PaymentOp.Captures : PaymentOp → Prop
  | .paymentById _ | .paymentCaptured _ | .walletBalance _ | .postSuccess .. | .endPayment .. => True
  | _ => False

section

variable {κ : Type} {call : κ}

theorem only_required {value : Option String} {field : String} {next : String → PaymentProg}
    (hnext : ∀ v, Only PaymentOp.Captures (tagged call (next v))) :
    Only PaymentOp.Captures (tagged call (required value field next)) := by
  cases value with
  | none => trivial
  | some v =>
      simp only [required]
      split
      · exact hnext v
      · trivial

theorem only_postSuccess {p : PaymentRow} {provider reference : String} {user : Bool}
    {next : PaymentProg} (hnext : Only PaymentOp.Captures (tagged call next)) :
    Only PaymentOp.Captures (tagged call (postSuccess p provider reference user next)) := by
  unfold postSuccess
  split
  · split
    · exact hnext
    · trivial
  split
  · trivial
  refine ⟨trivial, fun batch ↦ ?_⟩
  cases batch with
  | error e => trivial
  | ok _ => exact hnext

theorem only_answerConfirmed (p : PaymentRow) :
    Only PaymentOp.Captures (tagged call (answerConfirmed p)) := by
  refine ⟨trivial, fun found ↦ ?_⟩
  cases found with
  | none => trivial
  | some updated =>
      change Only _ (tagged call (if _ then _ else _))
      split
      · refine ⟨trivial, fun balance ↦ ?_⟩
        change Only _ (tagged call (if _ then _ else _))
        split <;> trivial
      · trivial

theorem only_confirmCredits (userId paymentId : String) :
    Only PaymentOp.Captures (tagged call (confirmCredits userId paymentId)) := by
  refine ⟨trivial, fun found ↦ ?_⟩
  cases found with
  | none => trivial
  | some p =>
      change Only _ (tagged call (if _ then _ else if _ then _ else if _ then _ else
        if _ then _ else _))
      split
      · trivial
      split
      · trivial
      split
      · trivial
      split
      · trivial
      exact only_postSuccess (only_answerConfirmed p)

theorem only_paymentSucceededEvent (provider : String) (input : ProviderEvent) :
    Only PaymentOp.Captures (tagged call (paymentSucceededEvent provider input)) := by
  refine only_required fun paymentId ↦ only_required fun reference ↦ ⟨trivial, fun found ↦ ?_⟩
  cases found with
  | none => trivial
  | some p =>
      change Only _ (tagged call (if _ then _ else _))
      split
      · trivial
      · exact only_postSuccess trivial

theorem only_paymentEndedEvent (status : PaymentStatus) (input : ProviderEvent) :
    Only PaymentOp.Captures (tagged call (paymentEndedEvent status input)) := by
  refine only_required fun paymentId ↦ ⟨trivial, fun batch ↦ ?_⟩
  cases batch <;> trivial

end

theorem only_servePayment (call : PaymentCall) (h : call.Captures) :
    Only PaymentOp.Captures (servePayment call) := by
  cases call with
  | event provider input newId =>
      simp only [servePayment, PaymentCall.handle, processNormalizedEvent]
      rcases h with h | h | h
      · rw [h]
        exact only_paymentSucceededEvent provider input
      · rw [h]
        exact only_paymentEndedEvent .failed input
      · rw [h]
        exact only_paymentEndedEvent .cancelled input
  | credits userId paymentId => exact only_confirmCredits userId paymentId
  | settlement input releaseId now => exact h.elim
  | purchase c => exact h.elim
  | reconciliation input reconciliationId provider now => exact h.elim
  | reserve reconciliationId now => exact h.elim

/-! ## Balances -/

namespace PaymentRow

theorem captureLines_on (p : PaymentRow) (provider : String) (user : Bool) (hpos : 0 < p.amount)
    (accountId currency : String) :
    -(if p.sourceAccount provider user = accountId then p.amount else 0) ≤
      Table.total (Journal.lineOn accountId currency) (p.captureLines provider user) := by
  have hpart : ∀ entryId tag account amount, 0 ≤ Table.total (Journal.lineOn accountId currency)
      (p.lineIfPositive entryId tag account 1 amount) := by
    intro entryId tag account amount
    refine Table.total_nonneg fun l hl ↦ ?_
    obtain ⟨hamount, rfl⟩ := (p.mem_lineIfPositive entryId tag account 1 amount).mp hl
    rw [lineOn_line]
    by_cases hon : account = accountId ∧ p.currency = currency
    · rw [if_pos hon]
      omega
    · rw [if_neg hon]
  simp only [captureLines, Table.total_append, Table.total_cons, Table.total_nil, add_zero]
  have hdeveloper := hpart (.capture p.paymentId) "developer" p.pendingAccount
    (saturate (p.amount - p.platformFee p.amount))
  have hplatform := hpart (.capture p.paymentId) "platform" p.platformAccount
    (p.platformFee p.amount)
  have hsource : -(if p.sourceAccount provider user = accountId then p.amount else 0) ≤
      Journal.lineOn accountId currency (p.line (.capture p.paymentId) "source"
        (p.sourceAccount provider user) (-p.amount)) := by
    rw [lineOn_line]
    by_cases haccount : p.sourceAccount provider user = accountId
    · by_cases hcurrency : p.currency = currency
      · simp [haccount, hcurrency]
      · simp only [haccount, hcurrency, if_true, and_false, if_false]
        omega
    · simp [haccount]
  omega

end PaymentRow

namespace PaymentDb

structure Covered (db : PaymentDb) : Prop where
  orders : ∀ o ∈ db.orders, ∃ p ∈ db.payments, p.paymentId = o.orderId
  balances : ∀ p ∈ db.payments, 0 ≤ db.journal.walletBalance p.userAccount

theorem Covered.congr {db db' : PaymentDb} (h : db.Covered)
    (hintents : db'.payments.map (·.intent) = db.payments.map (·.intent))
    (horders : db'.orders.map (·.orderId) = db.orders.map (·.orderId))
    (hbalances : ∀ accountId, db'.journal.walletBalance accountId =
      db.journal.walletBalance accountId) : db'.Covered := by
  constructor
  · intro o' ho'
    have hmem : o'.orderId ∈ db.orders.map (·.orderId) := horders ▸ List.mem_map_of_mem ho'
    obtain ⟨o, ho, hid⟩ := List.mem_map.mp hmem
    obtain ⟨p, hp, hpid⟩ := h.orders o ho
    obtain ⟨q, hq, hintent⟩ := mem_of_intents hintents hp
    exact ⟨q, hq, (paymentId_of_intent hintent).trans (hpid.trans hid)⟩
  · intro q hq
    obtain ⟨p, hp, hintent⟩ := mem_of_intents hintents.symm hq
    have haccount : q.userAccount = p.userAccount := by
      have hfield : q.intent.userAccount = p.intent.userAccount := by rw [hintent]
      exact hfield
    rw [hbalances, haccount]
    exact h.balances p hp

theorem CaptureStep.covered {db db' : PaymentDb} {p q : PaymentRow} {provider reference : String}
    {user : Bool} (hsound : db.Sound) (hcovered : db.Covered) (hq : q ∈ db.payments)
    (hintent : q.intent = p.intent)
    (hstep : CaptureStep p provider reference user db q db') : db'.Covered := by
  have hid := paymentId_of_intent hintent
  cases hstep with
  | idle hopened hstatus hwhy =>
      exact hcovered.congr rfl rfl fun account ↦ hopened.walletBalance_eq hsound.journal.wf account
  | again hopened hstatus hgrants =>
      refine hcovered.congr rfl (map_updateOrders (fun o ↦ o.orderId) fun _ _ ↦ rfl) ?_
      exact fun account ↦ hopened.walletBalance_eq hsound.journal.wf account
  | @captured j hopened hstatus hpaid hkey hadds entitlements hgrants =>
      have hintents : (Table.update (fun r ↦ r.paymentId = p.paymentId && isOpenPayment r.status)
          (succeeded reference) db.payments).map (·.intent) = db.payments.map (·.intent) := by
        rw [Table.map_update]
        exact fun _ ↦ rfl
      have hpos : 0 < p.amount := by
        have hfield : q.intent.amount = p.intent.amount := by rw [hintent]
        have hamount : q.amount = p.amount := hfield
        exact hamount ▸ (hsound.valid q hq).positive
      constructor
      · intro o ho
        rcases List.mem_append.mp ho with ho | ho
        · obtain ⟨r, hr, hrid⟩ := hcovered.orders o ho
          obtain ⟨r', hr', hintent'⟩ := mem_of_intents hintents hr
          exact ⟨r', hr', (paymentId_of_intent hintent').trans hrid⟩
        · obtain rfl := List.mem_singleton.mp ho
          obtain ⟨r', hr', hintent'⟩ := mem_of_intents hintents hq
          exact ⟨r', hr', (paymentId_of_intent hintent').trans hid⟩
      · intro r' hr'
        obtain ⟨r, hr, hrintent⟩ := mem_of_intents hintents.symm hr'
        have haccount : r'.userAccount = r.userAccount := by
          have hfield : r'.intent.userAccount = r.intent.userAccount := by rw [hrintent]
          exact hfield
        have hbefore := hcovered.balances r hr
        -- the balance moves by the lines of the capture on it
        have hwf := (hopened.inOrder hsound.journal).wf
        have hwf' : (j.add ⟨.capture p.paymentId, "payment", p.paymentId, .posted⟩
            (p.captureLines provider user)).WellFormed :=
          hwf.append (fun e he ↦ (hadds.unused e he).1) hadds.own hadds.accounts
        have hafter := hwf'.walletBalance_eq r.userAccount
        have hcurrency : (j.add ⟨.capture p.paymentId, "payment", p.paymentId, .posted⟩
          (p.captureLines provider user)).currencyOf r.userAccount = j.currencyOf r.userAccount := rfl
        rw [hcurrency, hwf.posted_add hadds, ← hwf.walletBalance_eq,
          hopened.walletBalance_eq hsound.journal.wf, if_pos rfl] at hafter
        have hlines := p.captureLines_on provider user hpos r.userAccount
          (j.currencyOf r.userAccount)
        change 0 ≤ (j.add _ _).walletBalance r'.userAccount
        rw [haccount, hafter]
        by_cases hsource : p.sourceAccount provider user = r.userAccount
        · rw [if_pos hsource] at hlines
          have huser : user = true := by
            by_contra hnot
            rw [Bool.not_eq_true] at hnot
            subst hnot
            have hhead : Headed "user:" r.userAccount :=
              ((headed_append "user:" r.userId).append _).append _
            exact (p.headed_source provider false).ne hhead (by decide +kernel) hsource
          have hcover := hpaid huser
          rw [hsource] at hcover
          omega
        · rw [if_neg hsource] at hlines
          omega

theorem extends_covered : Extends Covered fun _ op ↦ op.Captures := by
  intro db op hsound hcovered _ hsupports hop
  cases op with
  | postSuccess row provider reference debitUser =>
      simp only [PaymentOp.exec]
      rcases atomically_cases (PaymentDb.postSuccess row provider reference debitUser) db with
        ⟨db', _, hrun, heq⟩ | ⟨_, -, heq⟩
      · rw [heq]
        obtain ⟨q, hq, hintent, -⟩ := hsupports
        exact (postSuccess_step hsound hq hintent hrun).covered hsound hcovered hq hintent
      · rw [heq]
        exact hcovered
  | endPayment paymentId status reference =>
      simp only [PaymentOp.exec]
      rcases atomically_cases (PaymentDb.endPayment paymentId status reference) db with
        ⟨db', _, hrun, heq⟩ | ⟨_, -, heq⟩
      · rw [heq]
        have hended : isCaptured status = false := by
          rcases hsupports with rfl | rfl <;> rfl
        have hintents := (endPayment_sound hsound hended hrun).2.intents
        have horders : db'.orders = db.orders := by
          obtain ⟨db₁, hupdate, hrun⟩ := bind_eq_ok.mp hrun
          obtain ⟨_, -, hrun⟩ := bind_eq_ok.mp hrun
          obtain rfl := congrArg Prod.fst (Except.ok.inj hrun)
          obtain ⟨rfl, -⟩ := updatePayments_eq_ok hupdate
          rfl
        refine hcovered.congr hintents (by rw [horders]) fun account ↦ ?_
        rw [endPayment_journal hrun]
      · rw [heq]
        exact hcovered
  | paymentById paymentId => exact hcovered
  | paymentCaptured paymentId => exact hcovered
  | walletBalance accountId => exact hcovered
  | _ => exact hop.elim

/-- Each payment has at most one capture, it balances, and the status says whether it is there;
credits are not overdrawn and entitlements are granted for captured payments only. -/
structure CapturedOnce (db : PaymentDb) : Prop where
  one_entry : ∀ p ∈ db.payments, ∀ e ∈ db.journal.entries, ∀ e' ∈ db.journal.entries,
    e.referenceType = "payment" → e.referenceId = p.paymentId →
    e'.referenceType = "payment" → e'.referenceId = p.paymentId → e = e'
  balanced : ∀ p ∈ db.payments, ∀ e ∈ db.journal.entries, e.referenceType = "payment" →
    e.referenceId = p.paymentId → e.state = .posted →
    Journal.isBalanced (db.journal.linesOf e.entryId) = true
  captured_iff : ∀ p ∈ db.payments,
    (p.status = .succeeded ∨ p.status = .partiallyRefunded ∨ p.status = .refunded) ↔
      ∃ e ∈ db.journal.entries, e.referenceType = "payment" ∧ e.referenceId = p.paymentId ∧
        e.state = .posted
  covered : ∀ p ∈ db.payments, p.rail = .credits → 0 ≤ db.journal.walletBalance p.userAccount
  granted : ∀ g ∈ db.entitlements, g.status = .active →
    ∃ p ∈ db.payments, p.paymentId = g.orderId ∧
      ∃ e ∈ db.journal.entries, e.referenceType = "payment" ∧ e.referenceId = p.paymentId ∧
        e.state = .posted

theorem Sound.isPosted_capture_iff {db : PaymentDb} (h : db.Sound) {paymentId : String} :
    db.journal.isPosted (.capture paymentId) = true ↔ ∃ e ∈ db.journal.entries,
      e.referenceType = "payment" ∧ e.referenceId = paymentId ∧ e.state = .posted := by
  rw [Journal.isPosted_iff]
  constructor
  · rintro ⟨e, he, hid, hstate⟩
    have hnamed := h.journal.named e he
    rw [JournalEntryRow.Named, hid] at hnamed
    exact ⟨e, he, hnamed.1, hnamed.2.1, hstate⟩
  · rintro ⟨e, he, htype, hreference, hstate⟩
    exact ⟨e, he, hreference ▸ (h.journal.named e he).of_payment htype, hstate⟩

theorem isCaptured_iff {s : PaymentStatus} :
    isCaptured s = true ↔ s = .succeeded ∨ s = .partiallyRefunded ∨ s = .refunded := by
  cases s <;> simp [isCaptured]

theorem Sound.capturedOnce {db : PaymentDb} (h : db.Sound) (hcovered : db.Covered) :
    db.CapturedOnce where
  one_entry p _ e he e' he' htype hreference htype' hreference' :=
    Table.eq_of_key_eq h.journal.references he he'
      (Prod.ext (htype.trans htype'.symm) (hreference.trans hreference'.symm))
  balanced _ _ e he _ _ hstate := h.journal.balanced e he hstate
  captured_iff p hp := by
    rw [← isCaptured_iff, h.captured p hp]
    exact h.isPosted_capture_iff
  covered p hp _ := hcovered.balances p hp
  granted g hg _ := by
    obtain ⟨o, ho, hid⟩ := hasOrder_iff.mp (h.granted g hg)
    obtain ⟨p, hp, hpid⟩ := hcovered.orders o ho
    have hhas : db.hasOrder p.paymentId = true := hasOrder_iff.mpr ⟨o, ho, hpid.symm⟩
    rw [h.ordered p hp] at hhas
    exact ⟨p, hp, hpid.trans hid, h.isPosted_capture_iff.mp hhas⟩

end PaymentDb

/-- A payment that has failed or was cancelled at some point has no posted capture later. -/
def NeverCapturedAfterEnd (db : PaymentDb) (events : List (Event PaymentCall)) : Prop :=
  ∀ before after, events = before ++ after →
    ∀ p ∈ (paymentWorld db before).db.payments, p.status = .failed ∨ p.status = .cancelled →
      ∀ e ∈ (paymentWorld db events).db.journal.entries, e.referenceType = "payment" →
        e.referenceId = p.paymentId → e.state ≠ .posted

/-- Success events, confirmations of credits, failures and cancellations of any payments, in any
interleaving, capture each payment at most once. -/
theorem payments_captured_once (db : PaymentDb) (events : List (Event PaymentCall))
    (hdb : db.Opening) (hbalances : ∀ p ∈ db.payments, 0 ≤ db.journal.walletBalance p.userAccount)
    (hcalls : ∀ e ∈ events, Starts PaymentCall.Captures e) :
    (paymentWorld db events).db.CapturedOnce ∧ NeverCapturedAfterEnd db events := by
  have hmeets : MeetsAlong (fun _ op ↦ op.Captures) db events :=
    along_only _ _ only_servePayment (by simp) hcalls
  have hrun : PaymentRun db events := by
    refine hmeets.imp fun w e hadmits i op next he hp ↦ ?_
    have hop := hadmits i op next he hp
    cases op <;> trivial
  have hcovered : db.Covered := ⟨by simp [hdb.empty.1], hbalances⟩
  have hsafe := hrun.safe PaymentDb.extends_covered hdb.sound hcovered hmeets
  refine ⟨hsafe.inv.1.capturedOnce hsafe.inv.2, ?_⟩
  rintro before after rfl p hp hended e he htype hreference hstate
  have hevolves := hrun.evolves PaymentDb.extends_covered hdb.sound hcovered hmeets
  obtain ⟨q, hq, hintent, hleads⟩ := hevolves.keeps.known p hp
  have hposted := hsafe.inv.1.isPosted_capture_iff.mpr ⟨e, he, htype, hreference, hstate⟩
  rw [← PaymentDb.paymentId_of_intent hintent, ← hsafe.inv.1.captured q hq] at hposted
  -- an ended payment keeps its status
  rcases hleads with hopen | ⟨hcaptured, -⟩ | hsame
  · rcases hended with hs | hs <;> rw [hs] at hopen <;> cases hopen
  · rcases hended with hs | hs <;> rw [hs] at hcaptured <;> cases hcaptured
  · rw [← hsame] at hposted
    rcases hended with hs | hs <;> rw [hs] at hposted <;> cases hposted

theorem payments_captured_once_demo :
    (paymentWorld demoPaymentDb demoCapture).db.CapturedOnce ∧
      NeverCapturedAfterEnd demoPaymentDb demoCapture :=
  payments_captured_once demoPaymentDb demoCapture demoPaymentDb_opening (by decide +kernel) (by
    intro e he
    simp only [demoCapture, List.mem_cons, List.not_mem_nil, or_false] at he
    rcases he with rfl | rfl | rfl
    · exact .inl rfl
    · trivial
    · trivial)

end Fabushi.Worker
