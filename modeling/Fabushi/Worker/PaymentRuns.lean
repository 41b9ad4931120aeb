import Fabushi.Worker.ReconciliationBooks

/-!
# Payments along interleaved calls

Every handler of the payment tables keeps the books at each of its batches, whatever
the others have done since its reads. The contract leaves room for a further invariant
and for a condition on the batches, so that the walk through the handlers is made once.
-/

namespace Fabushi.Worker

open Interleaving Result

/-! ## Every operation -/

def ReconciliationRow.terms (r : ReconciliationRow) : ReconciliationRow :=
  { r with
    refundAmount := 0
    netReceipts := 0
    platformFeeAmount := 0
    reserveAmount := 0
    reserveReleasedAt := none
    developerPayableAmount := 0
    status := .reconciled }

def PaymentRow.Refundable (p : PaymentRow) (amount : ℤ) : Prop :=
  (p.status = .succeeded ∨ p.status = .partiallyRefunded) ∧ 0 < amount ∧
    amount ≤ p.amount - p.refundedAmount

namespace PaymentDb

def Reconciles (db : PaymentDb) (r : ReconciliationRow) : Prop :=
  ∃ r' ∈ db.reconciliations, r'.terms = r.terms

structure Evolves (db db' : PaymentDb) : Prop where
  keeps : db.Keeps db'
  reconciled : ∀ r ∈ db.reconciliations, db'.Reconciles r

theorem Evolves.refl (db : PaymentDb) : db.Evolves db :=
  ⟨.refl db, fun r hr ↦ ⟨r, hr, rfl⟩⟩

theorem Evolves.reconciles {db db' : PaymentDb} (h : db.Evolves db') {r : ReconciliationRow}
    (hr : db.Reconciles r) : db'.Reconciles r := by
  obtain ⟨r', hr', hterms⟩ := hr
  obtain ⟨r'', hr'', hterms'⟩ := h.reconciled r' hr'
  exact ⟨r'', hr'', hterms'.trans hterms⟩

theorem Evolves.trans {db₁ db₂ db₃ : PaymentDb} (h : db₁.Evolves db₂) (h' : db₂.Evolves db₃) :
    db₁.Evolves db₃ :=
  ⟨h.keeps.trans h'.keeps, fun r hr ↦ h'.reconciles (h.reconciled r hr)⟩

def FreshIds (db : PaymentDb) : PaymentOp → Prop
  | .applyRefund _ _ _ _ refundId _ | .applyReconciledRefund _ _ _ _ _ refundId _ =>
      db.NewId refundId
  | .releaseSettlement _ _ releaseId _ => db.NewId releaseId
  | .purchase c => db.NewId c.orderId ∧ db.NewId c.entryId ∧ db.NewId c.entitlementId
  | .reconcile _ _ reconciliationId _ _ => db.NewId reconciliationId
  | _ => True

instance (db : PaymentDb) (op : PaymentOp) : Decidable (db.FreshIds op) :=
  match op with
  | .applyRefund .. | .applyReconciledRefund .. | .releaseSettlement .. | .reconcile .. =>
      inferInstanceAs (Decidable (db.NewId _))
  | .purchase .. => inferInstanceAs (Decidable (_ ∧ _ ∧ _))
  | .paymentById .. | .paymentCaptured .. | .walletBalance .. | .postSuccess .. | .endPayment ..
  | .reconciledRefundRow .. | .openDispute .. | .closeDispute .. | .orderByIdempotency ..
  | .orderPurchased .. | .entitlementForOrder .. | .reconciliationByKey .. | .dueReserve ..
  | .releaseReserve .. | .markReserveReleased .. => isTrue trivial

def Supports (db : PaymentDb) : PaymentOp → Prop
  | .postSuccess row _ _ _ => db.Known row
  | .endPayment _ status _ => status = .failed ∨ status = .cancelled
  | .applyRefund row _ _ _ _ amount => db.Known row ∧ row.Valid ∧ row.Refundable amount ∧
      row.availableDebit amount ≤ row.releasedDeveloperAmount
  | .applyReconciledRefund row r _ _ _ _ amount => db.Known row ∧ row.Valid ∧
      row.Refundable amount ∧ db.Reconciles r ∧ r.paymentId = row.paymentId
  | .releaseSettlement row _ _ amount => db.Known row ∧ row.Valid ∧ 0 < amount
  | .reconcile row input _ _ _ => db.Known row ∧ row.Valid ∧ input.refusalFor row = none
  | .releaseReserve row _ => db.Reconciles row ∧ 0 < row.reserveAmount
  | _ => True

theorem Keeps.evolves {db db' : PaymentDb} (h : db.Keeps db')
    (hsame : db'.reconciliations = db.reconciliations) : db.Evolves db' :=
  ⟨h, fun r hr ↦ ⟨r, hsame ▸ hr, rfl⟩⟩

theorem reconciles_update {db db' : PaymentDb} {selects : ReconciliationRow → Bool}
    {set : ReconciliationRow → ReconciliationRow}
    (h : db'.reconciliations = Table.update selects set db.reconciliations)
    (hset : ∀ r, (set r).terms = r.terms) :
    ∀ r ∈ db.reconciliations, db'.Reconciles r := by
  intro r hr
  refine ⟨if selects r then set r else r, h ▸ Table.mem_update.mpr ⟨r, hr, rfl⟩, ?_⟩
  split
  · exact hset r
  · rfl

@[simp] theorem takeBack_reconciliations (db : PaymentDb) (p : PaymentRow) (full : Bool) :
    (db.takeBack p full).reconciliations = db.reconciliations := by
  cases full <;> rfl

section

variable {db db' : PaymentDb} {p : PaymentRow}

theorem CaptureStep.reconciliations {provider reference : String} {user : Bool} {q : PaymentRow}
    (h : CaptureStep p provider reference user db q db') :
    db'.reconciliations = db.reconciliations := by
  cases h <;> rfl

theorem PurchaseStep.reconciliations {c : Purchase} (h : PurchaseStep c db db') :
    db'.reconciliations = db.reconciliations := by
  cases h <;> rfl

theorem RefundStep.reconciliations {provider reference eventId refundId : String} {amount : ℤ}
    (h : RefundStep p provider reference eventId refundId amount db db') :
    db'.reconciliations = db.reconciliations := by
  cases h <;> exact takeBack_reconciliations _ _ _

theorem ReleaseStep.reconciliations {key releaseId : String} {amount : ℤ}
    (h : ReleaseStep p key releaseId amount db db') :
    db'.reconciliations = db.reconciliations := by
  cases h <;> rfl

theorem ReconciledRefundStep.reconciles {r : ReconciliationRow}
    {provider reference eventId refundId : String} {amount : ℤ}
    (h : ReconciledRefundStep p r provider reference eventId refundId amount db db') :
    ∀ s ∈ db.reconciliations, db'.Reconciles s := by
  cases h with
  | ignored hopened hused =>
      exact fun s hs ↦ ⟨s, (takeBack_reconciliations _ _ _).symm ▸ hs, rfl⟩
  | drafted hopened hunused hunbalanced hadds =>
      exact fun s hs ↦ ⟨s, (takeBack_reconciliations _ _ _).symm ▸ hs, rfl⟩
  | booked hopened hunused hbalanced hadds hchecks hcheck =>
      exact reconciles_update (takeBack_reconciliations _ _ _) fun _ ↦ rfl

theorem endPayment_reconciliations {paymentId : String} {status : PaymentStatus}
    {reference : Option String} (h : db.endPayment paymentId status reference = .ok (db', ())) :
    db'.reconciliations = db.reconciliations := by
  obtain ⟨db₁, hupdate, h⟩ := bind_eq_ok.mp h
  obtain ⟨_, -, h⟩ := bind_eq_ok.mp h
  obtain rfl := congrArg Prod.fst (Except.ok.inj h)
  obtain ⟨rfl, -⟩ := updatePayments_eq_ok hupdate
  rfl

theorem releaseReserve_reconciles {r : ReconciliationRow} {now : ℤ}
    (h : db.releaseReserve r now = .ok (db', ())) :
    ∀ s ∈ db.reconciliations, db'.Reconciles s := by
  obtain ⟨j, -, h⟩ := bind_eq_ok.mp h
  obtain ⟨db₁, hreconciled, h⟩ := bind_eq_ok.mp h
  obtain rfl := congrArg Prod.fst (Except.ok.inj h)
  obtain ⟨rows, hrows, hreconciled⟩ := bind_eq_ok.mp hreconciled
  obtain rfl := Except.ok.inj hreconciled
  obtain ⟨rfl, -⟩ := updateChecked_eq_ok hrows
  exact reconciles_update rfl fun _ ↦ rfl

theorem ReconcileStep.reconciles {input : ReconcileRequest} {reconciliationId : String}
    {split : Bool} {now : ℤ} (h : ReconcileStep p input reconciliationId split now db db') :
    ∀ r ∈ db.reconciliations, db'.Reconciles r := by
  intro r hr
  let db₀ := { db with
    reconciliations := db.reconciliations ++ [reconciliationRow p input reconciliationId now] }
  have hrows : ∀ s ∈ db₀.reconciliations, db'.Reconciles s :=
    reconciles_update h.reconciliations fun _ ↦ rfl
  exact hrows r (List.mem_append_left _ hr)

end

end PaymentDb

theorem PaymentRow.Refundable.captured {p : PaymentRow} {amount : ℤ} (h : p.Refundable amount) :
    isCaptured p.status = true := by
  rcases h.1 with hstatus | hstatus
  · rw [hstatus]
    rfl
  · rw [hstatus]
    rfl

namespace PaymentDb

theorem exec_atomically {db : PaymentDb} (h : db.Sound)
    {batch : PaymentDb → Except SqlError (PaymentDb × Unit)}
    (hok : ∀ db', batch db = .ok (db', ()) → db'.Sound ∧ db.Evolves db') :
    (atomically batch db).1.Sound ∧ db.Evolves (atomically batch db).1 := by
  rcases atomically_cases batch db with ⟨db', _, hrun, heq⟩ | ⟨e, -, heq⟩
  · rw [heq]
    exact hok db' hrun
  · rw [heq]
    exact ⟨h, .refl db⟩

theorem exec_sound {op : PaymentOp} {db : PaymentDb} (h : db.Sound) (hfresh : db.FreshIds op)
    (hsupports : db.Supports op) : (op.exec db).1.Sound ∧ db.Evolves (op.exec db).1 := by
  cases op with
  | postSuccess row provider reference debitUser =>
      refine exec_atomically h fun db' hrun ↦ ?_
      obtain ⟨q, hq, hintent, -⟩ := hsupports
      have hstep := postSuccess_step h hq hintent hrun
      obtain ⟨hsound, hkeeps⟩ := hstep.sound h hq hintent
      exact ⟨hsound, hkeeps.evolves hstep.reconciliations⟩
  | endPayment paymentId status reference =>
      refine exec_atomically h fun db' hrun ↦ ?_
      have hended : isCaptured status = false := by
        rcases hsupports with rfl | rfl <;> rfl
      obtain ⟨hsound, hkeeps⟩ := endPayment_sound h hended hrun
      exact ⟨hsound, hkeeps.evolves (endPayment_reconciliations hrun)⟩
  | applyRefund row provider reference eventId refundId amount =>
      refine exec_atomically h fun db' hrun ↦ ?_
      obtain ⟨hknown, hvalid, hrefundable, -⟩ := hsupports
      obtain ⟨hsound, hkeeps⟩ :=
        applyRefund_sound h hfresh hknown hrefundable.captured hrefundable.2.1 hrun
      have hstep := applyRefund_step h hfresh hvalid hrefundable.2.1 hrefundable.2.2 hrun
      exact ⟨hsound, hkeeps.evolves hstep.reconciliations⟩
  | applyReconciledRefund row r provider reference eventId refundId amount =>
      refine exec_atomically h fun db' hrun ↦ ?_
      obtain ⟨hknown, -, hrefundable, -⟩ := hsupports
      obtain ⟨hsound, hkeeps⟩ :=
        applyReconciledRefund_sound h hfresh hknown hrefundable.captured hrefundable.2.1 hrun
      exact ⟨hsound, hkeeps, (applyReconciledRefund_step h hfresh hrefundable.2.1 hrun).reconciles⟩
  | releaseSettlement row key releaseId amount =>
      refine exec_atomically h fun db' hrun ↦ ?_
      obtain ⟨hsound, hkeeps⟩ := releaseSettlement_sound h hfresh hsupports.2.2 hrun
      have hstep := releaseSettlement_step h hfresh hsupports.2.2 hrun
      exact ⟨hsound, hkeeps.evolves hstep.reconciliations⟩
  | purchase c =>
      refine exec_atomically h fun db' hrun ↦ ?_
      have hstep := purchase_step h hfresh.1 hfresh.2.1 hfresh.2.2 hrun
      obtain ⟨hsound, hkeeps⟩ := hstep.sound h hfresh.1
      exact ⟨hsound, hkeeps.evolves hstep.reconciliations⟩
  | reconcile row input reconciliationId split now =>
      refine exec_atomically h fun db' hrun ↦ ?_
      obtain ⟨hsound, hkeeps⟩ := reconcile_sound h hrun
      exact ⟨hsound, hkeeps, (reconcile_step h hrun).reconciles⟩
  | releaseReserve row now =>
      refine exec_atomically h fun db' hrun ↦ ?_
      obtain ⟨hsound, hkeeps⟩ := releaseReserve_sound h hsupports.2 hrun
      exact ⟨hsound, hkeeps, releaseReserve_reconciles hrun⟩
  | openDispute row =>
      exact And.imp_right (Keeps.evolves · rfl) (h.congr rfl rfl rfl rfl)
  | closeDispute provider reference status =>
      exact And.imp_right (Keeps.evolves · rfl) (h.congr rfl rfl rfl rfl)
  | markReserveReleased reconciliationId now =>
      obtain ⟨hsound, hkeeps⟩ : (db.markReserveReleased reconciliationId now).Sound ∧
        db.Keeps (db.markReserveReleased reconciliationId now) := h.congr rfl rfl rfl rfl
      exact ⟨hsound, hkeeps, reconciles_update rfl fun _ ↦ rfl⟩
  | paymentById paymentId => exact ⟨h, .refl db⟩
  | paymentCaptured paymentId => exact ⟨h, .refl db⟩
  | walletBalance accountId => exact ⟨h, .refl db⟩
  | reconciledRefundRow paymentId => exact ⟨h, .refl db⟩
  | orderByIdempotency userId key => exact ⟨h, .refl db⟩
  | orderPurchased c => exact ⟨h, .refl db⟩
  | entitlementForOrder orderId => exact ⟨h, .refl db⟩
  | reconciliationByKey key => exact ⟨h, .refl db⟩
  | dueReserve reconciliationId now => exact ⟨h, .refl db⟩

end PaymentDb

/-! ## What each operation books -/

namespace PaymentDb

def Books : PaymentOp → EntryId → Prop
  | .postSuccess row _ _ _, id => id = .capture row.paymentId
  | .applyRefund _ _ _ _ refundId _, id | .applyReconciledRefund _ _ _ _ _ refundId _, id =>
      id = .refund refundId
  | .releaseSettlement _ _ releaseId _, id => id = .settlement releaseId
  | .purchase c, id => id = .order c.entryId
  | .reconcile _ _ reconciliationId _ _, id => id = .developerAdjustment reconciliationId ∨
      id = .reserve reconciliationId ∨ id = .reconciliation reconciliationId
  | .releaseReserve row _, id => id = .reserveRelease row.reconciliationId
  | _, _ => False

@[simp] theorem takeBack_journal (db : PaymentDb) (p : PaymentRow) (full : Bool) :
    (db.takeBack p full).journal = db.journal := by
  cases full <;> rfl

section

variable {db db' : PaymentDb} {p : PaymentRow}

theorem CaptureStep.grows {provider reference : String} {user : Bool} {q : PaymentRow}
    (h : CaptureStep p provider reference user db q db') :
    db.journal.Grows (Books (.postSuccess p provider reference user)) db'.journal := by
  cases h with
  | idle hopened hstatus hwhy => exact hopened.grows
  | again hopened hstatus hgrants => exact hopened.grows
  | captured hopened hstatus hcovered hkey hadds hgrants =>
      exact hopened.grows.trans (.add hadds rfl)

theorem PurchaseStep.grows {c : Purchase} (h : PurchaseStep c db db') :
    db.journal.Grows (Books (.purchase c)) db'.journal := by
  cases h with
  | refused hopened hnone => exact hopened.grows
  | bought hopened hnone hcovered hadds => exact hopened.grows.trans (.add hadds rfl)
  | again hopened ho hfinds hgrants => exact hopened.grows
  | charged hopened ho hfinds hunbooked hadds hgrants => exact hopened.grows.trans (.add hadds rfl)

theorem RefundStep.grows {provider reference eventId refundId : String} {amount : ℤ}
    (h : RefundStep p provider reference eventId refundId amount db db') :
    db.journal.Grows (Books (.applyRefund p provider reference eventId refundId amount))
      db'.journal := by
  cases h with
  | ignored hopened hused =>
      rw [takeBack_journal]
      exact hopened.grows
  | booked hopened hunused hadds hcheck =>
      rw [takeBack_journal]
      exact hopened.grows.trans (.add hadds rfl)

theorem ReconciledRefundStep.grows {r : ReconciliationRow}
    {provider reference eventId refundId : String} {amount : ℤ}
    (h : ReconciledRefundStep p r provider reference eventId refundId amount db db') :
    db.journal.Grows (Books (.applyReconciledRefund p r provider reference eventId refundId amount))
      db'.journal := by
  cases h with
  | ignored hopened hused =>
      rw [takeBack_journal]
      exact hopened.grows
  | drafted hopened hunused hunbalanced hadds =>
      rw [takeBack_journal]
      exact hopened.grows.trans (.add hadds rfl)
  | booked hopened hunused hbalanced hadds hchecks hcheck =>
      rw [takeBack_journal]
      exact hopened.grows.trans (.add hadds rfl)

theorem ReleaseStep.grows {key releaseId : String} {amount : ℤ}
    (h : ReleaseStep p key releaseId amount db db') :
    db.journal.Grows (Books (.releaseSettlement p key releaseId amount)) db'.journal := by
  cases h with
  | ignored hopened => exact hopened.grows
  | booked hopened hunused hadds hcheck => exact hopened.grows.trans (.add hadds rfl)

theorem endPayment_journal {paymentId : String} {status : PaymentStatus}
    {reference : Option String} (h : db.endPayment paymentId status reference = .ok (db', ())) :
    db'.journal = db.journal := by
  obtain ⟨db₁, hupdate, h⟩ := bind_eq_ok.mp h
  obtain ⟨_, -, h⟩ := bind_eq_ok.mp h
  obtain rfl := congrArg Prod.fst (Except.ok.inj h)
  obtain ⟨rfl, -⟩ := updatePayments_eq_ok hupdate
  rfl

theorem releaseReserve_grows (hsound : db.Sound) {r : ReconciliationRow} {now : ℤ}
    (hpos : 0 < r.reserveAmount) (h : db.releaseReserve r now = .ok (db', ())) :
    db.journal.Grows (Books (.releaseReserve r now)) db'.journal := by
  obtain ⟨j, hbook, h⟩ := bind_eq_ok.mp h
  obtain ⟨db₁, hreconciled, h⟩ := bind_eq_ok.mp h
  obtain rfl := congrArg Prod.fst (Except.ok.inj h)
  obtain ⟨rows, -, hreconciled⟩ := bind_eq_ok.mp hreconciled
  obtain rfl := Except.ok.inj hreconciled
  have hopened := ((Journal.Opened.refl (j := db.journal)).account r.reservedAccount "developer"
    (r.developerId ++ ":reserved") r.currency).account r.availableAccount "developer"
    (r.developerId ++ ":available") r.currency
  have hposted : ∀ e ∈ db.journal.entries, e.entryId = .reserveRelease r.reconciliationId →
      e.state = .posted :=
    fun e he hid ↦ ((hsound.journal.named e he).reserveRelease_posted hid).2
  rcases (hopened.inOrder hsound.journal).wf.book_cases
    (Journal.isDraft_of_posted fun e he ↦ hposted e (hopened.entries_eq ▸ he))
    (r.releaseLines_ok hpos).1 hbook with ⟨rfl, -⟩ | ⟨-, hadds, rfl⟩
  · exact hopened.grows
  · exact hopened.grows.trans (.add hadds rfl)

theorem ReconcileStep.grows {input : ReconcileRequest} {reconciliationId : String} {split : Bool}
    {now : ℤ} (h : ReconcileStep p input reconciliationId split now db db') :
    db.journal.Grows (Books (.reconcile p input reconciliationId split now)) db'.journal := by
  obtain ⟨j, hopened, hadjustment, hreserve, hpayable, hjournal, -⟩ := h
  let own := Books (.reconcile p input reconciliationId split now)
  have h₁ : j.Grows own (withAdjustment p input reconciliationId j) :=
    .addIf hadjustment (.inl rfl)
  have h₂ : (withAdjustment p input reconciliationId j).Grows own
      (withReserve p input reconciliationId j) := .addIf hreserve (.inr (.inl rfl))
  have h₃ : (withReserve p input reconciliationId j).Grows own
      (withPayable p input reconciliationId split j) := .addIf hpayable (.inr (.inr rfl))
  rw [hjournal]
  exact hopened.grows.trans (h₁.trans (h₂.trans h₃))

end

theorem exec_grows {op : PaymentOp} {db : PaymentDb} (h : db.Sound) (hfresh : db.FreshIds op)
    (hsupports : db.Supports op) : db.journal.Grows (Books op) (op.exec db).1.journal := by
  have hbatch : ∀ batch : PaymentDb → Except SqlError (PaymentDb × Unit),
      (∀ db', batch db = .ok (db', ()) → db.journal.Grows (Books op) db'.journal) →
      db.journal.Grows (Books op) (atomically batch db).1.journal := by
    intro batch hok
    rcases atomically_cases batch db with ⟨db', _, hrun, heq⟩ | ⟨e, -, heq⟩
    · rw [heq]
      exact hok db' hrun
    · rw [heq]
      exact .refl _
  cases op with
  | postSuccess row provider reference debitUser =>
      refine hbatch _ fun db' hrun ↦ ?_
      obtain ⟨q, hq, hintent, -⟩ := hsupports
      exact (postSuccess_step h hq hintent hrun).grows
  | endPayment paymentId status reference =>
      refine hbatch _ fun db' hrun ↦ ?_
      rw [endPayment_journal hrun]
      exact .refl _
  | applyRefund row provider reference eventId refundId amount =>
      refine hbatch _ fun db' hrun ↦ ?_
      obtain ⟨-, hvalid, ⟨-, hpos, hle⟩, -⟩ := hsupports
      exact (applyRefund_step h hfresh hvalid hpos hle hrun).grows
  | applyReconciledRefund row r provider reference eventId refundId amount =>
      refine hbatch _ fun db' hrun ↦ ?_
      obtain ⟨-, -, hrefundable, -⟩ := hsupports
      exact (applyReconciledRefund_step h hfresh hrefundable.2.1 hrun).grows
  | releaseSettlement row key releaseId amount =>
      refine hbatch _ fun db' hrun ↦ ?_
      exact (releaseSettlement_step h hfresh hsupports.2.2 hrun).grows
  | purchase c =>
      refine hbatch _ fun db' hrun ↦ ?_
      exact (purchase_step h hfresh.1 hfresh.2.1 hfresh.2.2 hrun).grows
  | reconcile row input reconciliationId split now =>
      refine hbatch _ fun db' hrun ↦ ?_
      exact (reconcile_step h hrun).grows
  | releaseReserve row now =>
      refine hbatch _ fun db' hrun ↦ ?_
      exact releaseReserve_grows h hsupports.2 hrun
  | openDispute row => exact .refl _
  | closeDispute provider reference status => exact .refl _
  | markReserveReleased reconciliationId now => exact .refl _
  | paymentById paymentId => exact .refl _
  | paymentCaptured paymentId => exact .refl _
  | walletBalance accountId => exact .refl _
  | reconciledRefundRow paymentId => exact .refl _
  | orderByIdempotency userId key => exact .refl _
  | orderPurchased c => exact .refl _
  | entitlementForOrder orderId => exact .refl _
  | reconciliationByKey key => exact .refl _
  | dueReserve reconciliationId now => exact .refl _

end PaymentDb

/-! ## The contract -/

abbrev AnsweredPaymentProg := Prog PaymentOp PaymentOp.Answer (PaymentCall × PaymentReply)

def PaymentReply.isPurchased : PaymentReply → Bool
  | .purchased .. => true
  | _ => false

namespace PaymentDb

/-- A success event is acknowledged for a payment that is captured already, or after its batch. -/
def Acknowledges (db : PaymentDb) (op : PaymentOp) (db' : PaymentDb) (provider : String)
    (input : ProviderEvent) (answer : Option String) : Prop :=
  ∃ paymentId, input.paymentId = some paymentId ∧ answer = some paymentId ∧
    ((op = .paymentById paymentId ∧
        ∃ q ∈ db.payments, q.paymentId = paymentId ∧ isCaptured q.status = true) ∨
      ∃ row reference, op = .postSuccess row provider reference false ∧
        row.paymentId = paymentId ∧ db.postSuccess row provider reference false = .ok (db', ()))

def Honest (db : PaymentDb) (op : PaymentOp) (db' : PaymentDb) :
    PaymentCall → PaymentReply → Prop
  | .event provider input _, .accepted answer =>
      input.eventType = .paymentSucceeded → db.Acknowledges op db' provider input answer
  | .purchase c, reply =>
      reply.isPurchased = false → { c.order with status := .fulfilled } ∉ db'.orders
  | _, _ => True

def Answers (db : PaymentDb) (op : PaymentOp) (db' : PaymentDb) : AnsweredPaymentProg → Prop
  | .ret (call, reply) => db.Honest op db' call reply
  | .call .. => True

end PaymentDb

/-- The further invariant is kept by every operation that meets the condition. -/
def Extends (I : PaymentDb → Prop) (A : PaymentDb → PaymentOp → Prop) : Prop :=
  ∀ db op, db.Sound → I db → db.FreshIds op → db.Supports op → A db op → I (op.exec db).1

/-- The contract of all handlers, with a further invariant and a condition on operations. -/
def paymentContract (I : PaymentDb → Prop) (A : PaymentDb → PaymentOp → Prop) :
    Contract PaymentOp PaymentOp.Answer (PaymentCall × PaymentReply) PaymentDb where
  inv db := db.Sound ∧ I db
  guarantee := PaymentDb.Evolves
  admits db op := db.FreshIds op ∧ A db op
  shows db op db' rest := db.Supports op ∧ db.Answers op db' rest
  refl := .refl
  trans _ _ _ := .trans

abbrev SafePayment (I : PaymentDb → Prop) (A : PaymentDb → PaymentOp → Prop) :
    AnsweredPaymentProg → PaymentDb → Prop :=
  Safe PaymentOp.exec (paymentContract I A)

section

variable {I : PaymentDb → Prop} {A : PaymentDb → PaymentOp → Prop}

variable (I A) in
def GoesOn (db : PaymentDb) (op : PaymentOp) (db' : PaymentDb) (p : AnsweredPaymentProg) : Prop :=
  db.Answers op db' p ∧ SafePayment I A p db'

variable (hI : Extends I A)

include hI

theorem safePayment_call {op : PaymentOp} {next : op.Answer → AnsweredPaymentProg} {db : PaymentDb}
    (hsupports : ∀ db', db.Evolves db' → db'.Supports op)
    (hnext : ∀ db' : PaymentDb, db.Evolves db' → db'.Sound → db'.FreshIds op →
      GoesOn I A db' op (op.exec db').1 (next (op.exec db').2)) :
    SafePayment I A (.call op next) db := by
  intro db' hevolves hinv hadmits
  have hop := hsupports db' hevolves
  obtain ⟨hsound, hevolves'⟩ := PaymentDb.exec_sound hinv.1 hadmits.1 hop
  obtain ⟨hanswers, hsafe⟩ := hnext db' hevolves hinv.1 hadmits.1
  exact ⟨⟨hsound, hI db' op hinv.1 hinv.2 hadmits.1 hop hadmits.2⟩, hevolves', ⟨hop, hanswers⟩,
    hsafe⟩

/-! ## Provider events -/

section Event

variable (provider : String) (input : ProviderEvent) (newId : String)

omit hI in
theorem safe_required (value : Option String) (field : String) {next : String → PaymentProg}
    (hnext : ∀ v, value = some v → ∀ db,
      SafePayment I A (tagged (.event provider input newId) (next v)) db) (db : PaymentDb) :
    SafePayment I A (tagged (.event provider input newId) (required value field next)) db := by
  cases value with
  | none => trivial
  | some v =>
      simp only [required]
      split
      · exact hnext v rfl db
      · trivial

theorem safe_readPayment (paymentId message : String) {next : PaymentRow → PaymentProg}
    (hnext : ∀ (p : PaymentRow) (db : PaymentDb), db.Sound → p ∈ db.payments →
      p.paymentId = paymentId → GoesOn I A db (.paymentById paymentId) db
        (tagged (.event provider input newId) (next p))) (db : PaymentDb) :
    SafePayment I A (tagged (.event provider input newId)
      (readPayment paymentId message next)) db := by
  refine safePayment_call hI (fun _ _ ↦ trivial) ?_
  intro db _ hsound _
  simp only [PaymentOp.exec]
  cases hfind : db.paymentById paymentId with
  | none => exact ⟨trivial, trivial⟩
  | some p =>
      refine hnext p db hsound (List.mem_of_find?_eq_some hfind) ?_
      simpa using List.find?_some hfind

omit hI in
theorem goesOn_thenBatch {batch : Except SqlError Unit} {next : PaymentProg} {db : PaymentDb}
    {op : PaymentOp} {db' : PaymentDb}
    (hnext : batch = .ok () → GoesOn I A db op db' (tagged (.event provider input newId) next)) :
    GoesOn I A db op db' (tagged (.event provider input newId) (thenBatch batch next)) := by
  cases batch with
  | error e => exact ⟨trivial, trivial⟩
  | ok _ => exact hnext rfl

theorem safe_paymentSucceededEvent (db : PaymentDb) :
    SafePayment I A (tagged (.event provider input newId)
      (paymentSucceededEvent provider input)) db := by
  refine safe_required provider input newId _ _ (fun paymentId hid db ↦ ?_) db
  refine safe_required provider input newId _ _ (fun reference _ db ↦ ?_) db
  refine safe_readPayment hI provider input newId _ _ (fun p db hsound hp hpid ↦ ?_) db
  split
  · exact ⟨trivial, trivial⟩
  unfold postSuccess
  split
  · rename_i hcaptured
    split
    · exact ⟨fun _ ↦ ⟨paymentId, hid, rfl, .inl ⟨rfl, p, hp, hpid, hcaptured⟩⟩, trivial⟩
    · exact ⟨trivial, trivial⟩
  split
  · exact ⟨trivial, trivial⟩
  have hknown := PaymentDb.known_of_mem hp
  refine ⟨trivial, safePayment_call hI (fun _ h ↦ h.keeps.known_of_known hknown) ?_⟩
  intro db' _ _ _
  simp only [PaymentOp.exec]
  rcases atomically_cases (PaymentDb.postSuccess p provider reference false) db' with
    ⟨db'', _, hrun, heq⟩ | ⟨e, -, heq⟩
  · rw [heq]
    exact ⟨fun _ ↦ ⟨paymentId, hid, rfl, .inr ⟨p, reference, rfl, hpid, hrun⟩⟩, trivial⟩
  · rw [heq]
    exact ⟨trivial, trivial⟩

theorem safe_paymentEndedEvent (hother : input.eventType ≠ .paymentSucceeded)
    {status : PaymentStatus} (hstatus : status = .failed ∨ status = .cancelled) (db : PaymentDb) :
    SafePayment I A (tagged (.event provider input newId) (paymentEndedEvent status input)) db := by
  refine safe_required provider input newId _ _ (fun paymentId _ db ↦ ?_) db
  refine safePayment_call hI (fun _ _ ↦ hstatus) ?_
  intro db _ _ _
  refine goesOn_thenBatch provider input newId fun _ ↦ ?_
  exact ⟨fun htype ↦ absurd htype hother, trivial⟩

omit hI in
theorem mem_of_reconciledRefundRow {db : PaymentDb} {paymentId : String} {r : ReconciliationRow}
    (h : db.reconciledRefundRow paymentId = some r) :
    r ∈ db.reconciliations ∧ r.paymentId = paymentId := by
  have hmem : ∀ s ∈ db.reconciledRefundRow paymentId, s ∈ db.reconciliations.filter fun r ↦
      r.paymentId = paymentId && r.status = .released := by
    unfold PaymentDb.reconciledRefundRow
    refine List.foldlRecOn (motive := fun latest : Option ReconciliationRow ↦ ∀ s ∈ latest, s ∈
      db.reconciliations.filter fun r ↦ r.paymentId = paymentId && r.status = .released) _ _
      (fun _ hs ↦ absurd hs.symm (Option.some_ne_none _)) fun latest hlatest row hrow s hs ↦ ?_
    cases latest with
    | none => exact Option.some.inj hs ▸ hrow
    | some old =>
        dsimp only at hs
        split at hs
        · exact Option.some.inj hs ▸ hrow
        · exact hlatest s hs
  obtain ⟨hr, hsel⟩ := List.mem_filter.mp (hmem r h)
  simp only [Bool.and_eq_true, decide_eq_true_eq] at hsel
  exact ⟨hr, hsel.1⟩

theorem goesOn_applyRefund {p : PaymentRow} {db : PaymentDb} (hsound : db.Sound)
    (hp : p ∈ db.payments) (reference eventId refundId : String) (amount : ℤ) {next : PaymentProg}
    (hnext : ∀ db op db', GoesOn I A db op db' (tagged (.event provider input newId) next))
    (op : PaymentOp) : GoesOn I A db op db (tagged (.event provider input newId)
      (applyRefund p provider reference eventId refundId amount next)) := by
  have hvalid := hsound.valid p hp
  have hknown := PaymentDb.known_of_mem hp
  unfold applyRefund
  split
  · exact ⟨trivial, trivial⟩
  rename_i hamount
  split
  · exact ⟨trivial, trivial⟩
  rename_i hstatus
  have hrefundable : p.Refundable amount := by
    have hmax := hvalid.bounded
    have hnonneg := hvalid.refunded_nonneg
    have hle := hvalid.refunded_le
    rw [saturate_eq (by omega) (by omega)] at hamount
    refine ⟨?_, by omega, by omega⟩
    simpa [or_iff_not_imp_left] using hstatus
  refine ⟨trivial, safePayment_call hI (fun _ _ ↦ trivial) ?_⟩
  intro db₁ hevolves _ _
  have hknown₁ := hevolves.keeps.known_of_known hknown
  simp only [PaymentOp.exec]
  cases hfind : db₁.reconciledRefundRow p.paymentId with
  | none =>
      change GoesOn I A db₁ _ db₁ (tagged _ (if _ then _ else _))
      split
      · exact ⟨trivial, trivial⟩
      rename_i hdebit
      refine ⟨trivial, safePayment_call hI (fun _ h ↦ ⟨h.keeps.known_of_known hknown₁, hvalid,
        hrefundable, not_lt.mp hdebit⟩) ?_⟩
      intro db₂ _ _ _
      exact goesOn_thenBatch provider input newId fun _ ↦ hnext _ _ _
  | some r =>
      obtain ⟨hr, hrid⟩ := mem_of_reconciledRefundRow hfind
      refine ⟨trivial, safePayment_call hI (fun _ h ↦ ⟨h.keeps.known_of_known hknown₁, hvalid,
        hrefundable, h.reconciled r hr, hrid⟩) ?_⟩
      intro db₂ _ _ _
      exact goesOn_thenBatch provider input newId fun _ ↦ hnext _ _ _

theorem safe_refundSucceededEvent (hother : input.eventType ≠ .paymentSucceeded)
    (db : PaymentDb) : SafePayment I A (tagged (.event provider input newId)
      (refundSucceededEvent provider input newId)) db := by
  refine safe_required provider input newId _ _ (fun paymentId _ db ↦ ?_) db
  refine safe_required provider input newId _ _ (fun reference _ db ↦ ?_) db
  cases input.amount with
  | none => trivial
  | some amount =>
      refine safe_readPayment hI provider input newId _ _ (fun p db hsound hp _ ↦ ?_) db
      refine goesOn_applyRefund hI provider input newId hsound hp _ _ _ _ (fun _ _ _ ↦ ?_) _
      exact ⟨fun htype ↦ absurd htype hother, trivial⟩

theorem safe_chargebackOpenedEvent (hother : input.eventType ≠ .paymentSucceeded)
    (db : PaymentDb) : SafePayment I A (tagged (.event provider input newId)
      (chargebackOpenedEvent provider input newId)) db := by
  refine safe_required provider input newId _ _ (fun paymentId _ db ↦ ?_) db
  refine safe_required provider input newId _ _ (fun reference _ db ↦ ?_) db
  cases input.amount with
  | none => trivial
  | some amount =>
      refine safe_readPayment hI provider input newId _ _ (fun p db hsound hp _ ↦ ?_) db
      split
      · exact ⟨trivial, trivial⟩
      refine ⟨trivial, safePayment_call hI (fun _ _ ↦ trivial) fun _ _ _ _ ↦ ?_⟩
      exact ⟨fun htype ↦ absurd htype hother, trivial⟩

theorem safe_chargebackWonEvent (hother : input.eventType ≠ .paymentSucceeded) (db : PaymentDb) :
    SafePayment I A (tagged (.event provider input newId)
      (chargebackWonEvent provider input)) db := by
  refine safe_required provider input newId _ _ (fun reference _ db ↦ ?_) db
  refine safePayment_call hI (fun _ _ ↦ trivial) fun _ _ _ _ ↦ ?_
  exact ⟨fun htype ↦ absurd htype hother, trivial⟩

theorem safe_chargebackLostEvent (hother : input.eventType ≠ .paymentSucceeded) (db : PaymentDb) :
    SafePayment I A (tagged (.event provider input newId)
      (chargebackLostEvent provider input newId)) db := by
  refine safe_required provider input newId _ _ (fun paymentId _ db ↦ ?_) db
  refine safe_required provider input newId _ _ (fun reference _ db ↦ ?_) db
  refine safe_readPayment hI provider input newId _ _ (fun p db hsound hp _ ↦ ?_) db
  refine goesOn_applyRefund hI provider input newId hsound hp _ _ _ _ (fun _ _ _ ↦ ?_) _
  refine ⟨trivial, safePayment_call hI (fun _ _ ↦ trivial) fun _ _ _ _ ↦ ?_⟩
  exact ⟨fun htype ↦ absurd htype hother, trivial⟩

theorem safe_processNormalizedEvent (db : PaymentDb) :
    SafePayment I A (tagged (.event provider input newId)
      (processNormalizedEvent provider input newId)) db := by
  unfold processNormalizedEvent
  cases htype : input.eventType with
  | paymentSucceeded => exact safe_paymentSucceededEvent hI provider input newId db
  | paymentFailed =>
      exact safe_paymentEndedEvent hI provider input newId (by simp [htype]) (.inl rfl) db
  | paymentCancelled =>
      exact safe_paymentEndedEvent hI provider input newId (by simp [htype]) (.inr rfl) db
  | refundSucceeded => exact safe_refundSucceededEvent hI provider input newId (by simp [htype]) db
  | chargebackOpened =>
      exact safe_chargebackOpenedEvent hI provider input newId (by simp [htype]) db
  | chargebackWon => exact safe_chargebackWonEvent hI provider input newId (by simp [htype]) db
  | chargebackLost => exact safe_chargebackLostEvent hI provider input newId (by simp [htype]) db

end Event

/-! ## Credits and settlement -/

omit hI in
theorem mem_of_paymentById {db : PaymentDb} {paymentId : String} {p : PaymentRow}
    (h : db.paymentById paymentId = some p) : p ∈ db.payments :=
  List.mem_of_find?_eq_some h

theorem safe_answerConfirmed (p : PaymentRow) (userId paymentId : String) (db : PaymentDb) :
    SafePayment I A (tagged (.credits userId paymentId) (answerConfirmed p)) db := by
  refine safePayment_call hI (fun _ _ ↦ trivial) ?_
  intro db _ _ _
  simp only [PaymentOp.exec]
  cases db.paymentById p.paymentId with
  | none => exact ⟨trivial, trivial⟩
  | some updated =>
      change GoesOn I A db _ db (tagged _ (if _ then _ else _))
      split
      · refine ⟨trivial, safePayment_call hI (fun _ _ ↦ trivial) fun db _ _ _ ↦ ?_⟩
        change GoesOn I A db _ db (tagged _ (if _ then _ else _))
        split
        · exact ⟨trivial, trivial⟩
        · exact ⟨trivial, trivial⟩
      · exact ⟨trivial, trivial⟩

theorem safe_confirmCredits (userId paymentId : String) (db : PaymentDb) :
    SafePayment I A (tagged (.credits userId paymentId) (confirmCredits userId paymentId)) db := by
  refine safePayment_call hI (fun _ _ ↦ trivial) ?_
  intro db _ _ _
  simp only [PaymentOp.exec]
  cases hfind : db.paymentById paymentId with
  | none => exact ⟨trivial, trivial⟩
  | some p =>
      have hknown := PaymentDb.known_of_mem (mem_of_paymentById hfind)
      change GoesOn I A db _ db (tagged _ (if _ then _ else if _ then _ else if _ then _ else
        if _ then _ else _))
      split
      · exact ⟨trivial, trivial⟩
      split
      · exact ⟨trivial, trivial⟩
      split
      · exact ⟨trivial, trivial⟩
      split
      · exact ⟨trivial, trivial⟩
      rename_i hcaptured hopen
      rw [postSuccess, if_neg hcaptured, if_neg hopen]
      refine ⟨trivial, safePayment_call hI (fun _ h ↦ h.keeps.known_of_known hknown) ?_⟩
      intro db _ _ _
      cases (PaymentOp.exec (.postSuccess p "credits" ("credits:" ++ p.paymentId) true) db).2 with
      | error e => exact ⟨trivial, trivial⟩
      | ok _ => exact ⟨trivial, safe_answerConfirmed hI p userId paymentId _⟩

theorem safe_settle (input : SettlementRequest) (releaseId : String) (now : ℤ) (db : PaymentDb) :
    SafePayment I A (tagged (.settlement input releaseId now) (settle input releaseId now)) db := by
  refine safePayment_call hI (fun _ _ ↦ trivial) ?_
  intro db _ hsound _
  simp only [PaymentOp.exec]
  cases hfind : db.paymentById input.paymentId with
  | none => exact ⟨trivial, trivial⟩
  | some p =>
      have hp := mem_of_paymentById hfind
      change GoesOn I A db _ db (tagged _ (if _ then _ else if _ then _ else if _ then _ else _))
      split
      · exact ⟨trivial, trivial⟩
      split
      · exact ⟨trivial, trivial⟩
      split
      · exact ⟨trivial, trivial⟩
      rename_i hamount
      refine ⟨trivial, safePayment_call hI (fun _ h ↦ ⟨h.keeps.known p hp, hsound.valid p hp,
        not_le.mp hamount⟩) ?_⟩
      intro db _ _ _
      cases (PaymentOp.exec (.releaseSettlement p input.idempotencyKey releaseId
        (p.releaseAmount input.reserve)) db).2 with
      | error e => exact ⟨trivial, trivial⟩
      | ok _ => exact ⟨trivial, trivial⟩

theorem safe_adminReleaseSettlement (input : SettlementRequest) (releaseId : String) (now : ℤ)
    (db : PaymentDb) : SafePayment I A (tagged (.settlement input releaseId now)
      (adminReleaseSettlement input releaseId now)) db := by
  unfold adminReleaseSettlement
  split
  · trivial
  refine safePayment_call hI (fun _ _ ↦ trivial) ?_
  intro db _ _ _
  change GoesOn I A db _ db (tagged _ (if _ then _ else if _ then _ else if _ then _ else _))
  split
  · exact ⟨trivial, trivial⟩
  split
  · exact ⟨trivial, trivial⟩
  split
  · exact ⟨trivial, trivial⟩
  exact ⟨trivial, safe_settle hI input releaseId now db⟩

/-! ## Purchases -/

omit hI in
theorem absent_of_found {db : PaymentDb} (hsound : db.Sound) {c : Purchase} {o : OrderRow}
    (hfind : db.orderByIdempotency c.userId c.idempotencyKey = some o)
    (hne : o ≠ { c.order with status := .fulfilled }) :
    { c.order with status := .fulfilled } ∉ db.orders := by
  intro hmem
  obtain ⟨ho, huser, hkey⟩ := PaymentDb.finds_of_find hfind
  refine hne (Table.eq_of_key_eq hsound.orderKeys ho hmem ?_)
  exact Prod.ext huser hkey

omit hI in
theorem absent_of_none {db : PaymentDb} {c : Purchase}
    (hfind : db.orderByIdempotency c.userId c.idempotencyKey = none) :
    { c.order with status := .fulfilled } ∉ db.orders :=
  fun hmem ↦ PaymentDb.none_of_find hfind _ hmem ⟨rfl, rfl⟩

theorem safe_answerPurchased (c : Purchase) (o : OrderRow) (db : PaymentDb) :
    SafePayment I A (tagged (.purchase c) (answerPurchased o)) db := by
  refine safePayment_call hI (fun _ _ ↦ trivial) fun _ _ _ _ ↦ ⟨fun hnot ↦ ?_, trivial⟩
  cases hnot

theorem safe_afterPurchase (c : Purchase) (db : PaymentDb) :
    SafePayment I A (tagged (.purchase c) (PaymentOp.run (.orderPurchased c) >>= fun found ↦
      match found with
      | none => pure (.refused 402 "insufficient_balance" "insufficient Mahayana bean balance")
      | some o =>
          if o.pluginId ≠ c.price.pluginId || o.sku ≠ c.price.sku then
            pure (.refused 409 "idempotency_conflict"
              "idempotency key was already used for a different product")
          else if o.status ≠ .fulfilled then
            pure (.refused 500 "ledger_invariant_violation"
              "order could not be posted as a balanced journal entry")
          else answerPurchased o)) db := by
  refine safePayment_call hI (fun _ _ ↦ trivial) ?_
  intro db _ hsound _
  simp only [PaymentOp.exec]
  cases hfind : db.orderByIdempotency c.userId c.idempotencyKey with
  | none => exact ⟨fun _ ↦ absent_of_none hfind, trivial⟩
  | some o =>
      change GoesOn I A db _ db (tagged _ (if _ then _ else if _ then _ else _))
      split
      · rename_i hdiffers
        refine ⟨fun _ ↦ absent_of_found hsound hfind ?_, trivial⟩
        rintro rfl
        simp [Purchase.order] at hdiffers
      split
      · rename_i hstatus
        refine ⟨fun _ ↦ absent_of_found hsound hfind ?_, trivial⟩
        rintro rfl
        exact hstatus rfl
      · exact ⟨trivial, safe_answerPurchased hI c o db⟩

theorem safe_buy (c : Purchase) (db : PaymentDb) :
    SafePayment I A (tagged (.purchase c) (buy c)) db := by
  refine safePayment_call hI (fun _ _ ↦ trivial) ?_
  intro db _ _ hfresh
  simp only [PaymentOp.exec]
  rcases atomically_cases (PaymentDb.purchase c) db with ⟨db', _, hrun, heq⟩ | ⟨e, -, heq⟩
  · rw [heq]
    exact ⟨trivial, safe_afterPurchase hI c db'⟩
  · rw [heq]
    exact ⟨fun _ hmem ↦ hfresh.1.2.2.1 _ hmem rfl, trivial⟩

theorem safe_commercePurchase (c : Purchase) (db : PaymentDb) :
    SafePayment I A (tagged (.purchase c) (commercePurchase c)) db := by
  refine safePayment_call hI (fun _ _ ↦ trivial) ?_
  intro db _ hsound _
  simp only [PaymentOp.exec]
  cases hfind : db.orderByIdempotency c.userId c.idempotencyKey with
  | none => exact ⟨trivial, safe_buy hI c db⟩
  | some existing =>
      change GoesOn I A db _ db (tagged _ (if _ then _ else if _ then _ else _))
      split
      · rename_i hdiffers
        refine ⟨fun _ ↦ absent_of_found hsound hfind ?_, trivial⟩
        rintro rfl
        simp [OrderRow.differs, Purchase.order] at hdiffers
      split
      · exact ⟨trivial, safe_answerPurchased hI c existing db⟩
      · exact ⟨trivial, safe_buy hI c db⟩

/-! ## Reconciliations and reserves -/

theorem goesOn_reconcilePayment (input : ReconcileRequest) {p : PaymentRow}
    (reconciliationId : String) (provider : Bool) (now : ℤ) {db : PaymentDb} (hsound : db.Sound)
    (hp : p ∈ db.payments) (op : PaymentOp) : GoesOn I A db op db
      (tagged (.reconciliation input reconciliationId provider now)
        (reconcilePayment input p reconciliationId provider now)) := by
  unfold reconcilePayment
  split
  · exact ⟨trivial, trivial⟩
  rename_i hrefusal
  split
  · exact ⟨trivial, trivial⟩
  rename_i split _
  refine ⟨trivial, safePayment_call hI (fun _ h ↦ ⟨h.keeps.known p hp, hsound.valid p hp,
    hrefusal⟩) ?_⟩
  intro db _ _ _
  cases (PaymentOp.exec (.reconcile p input reconciliationId split now) db).2 with
  | error e => exact ⟨trivial, trivial⟩
  | ok _ => exact ⟨trivial, trivial⟩

theorem safe_adminReconcileSettlement (input : ReconcileRequest) (reconciliationId : String)
    (provider : Bool) (now : ℤ) (db : PaymentDb) :
    SafePayment I A (tagged (.reconciliation input reconciliationId provider now)
      (adminReconcileSettlement input reconciliationId provider now)) db := by
  unfold adminReconcileSettlement
  split
  · trivial
  refine safePayment_call hI (fun _ _ ↦ trivial) ?_
  intro db _ _ _
  simp only [PaymentOp.exec]
  cases db.reconciliationByKey input.idempotencyKey with
  | some existing => exact ⟨trivial, trivial⟩
  | none =>
      refine ⟨trivial, safePayment_call hI (fun _ _ ↦ trivial) ?_⟩
      intro db _ hsound _
      simp only [PaymentOp.exec]
      cases hfind : db.paymentById input.paymentId with
      | none => exact ⟨trivial, trivial⟩
      | some p =>
          exact goesOn_reconcilePayment hI input reconciliationId provider now hsound
            (mem_of_paymentById hfind) _

theorem safe_adminReleaseReserve (reconciliationId : String) (now : ℤ) (db : PaymentDb) :
    SafePayment I A (tagged (.reserve reconciliationId now)
      (adminReleaseReserve reconciliationId now)) db := by
  refine safePayment_call hI (fun _ _ ↦ trivial) ?_
  intro db _ _ _
  simp only [PaymentOp.exec]
  cases hfind : db.dueReserve reconciliationId now with
  | none => exact ⟨trivial, trivial⟩
  | some r =>
      have hr : r ∈ db.reconciliations := List.mem_of_find?_eq_some hfind
      change GoesOn I A db _ db (tagged _ (if _ then _ else _))
      split
      · refine ⟨trivial, safePayment_call hI (fun _ _ ↦ trivial) fun _ _ _ _ ↦ ?_⟩
        exact ⟨trivial, trivial⟩
      rename_i hpos
      refine ⟨trivial, safePayment_call hI (fun _ h ↦ ⟨h.reconciled r hr, not_le.mp hpos⟩) ?_⟩
      intro db _ _ _
      cases (PaymentOp.exec (.releaseReserve r now) db).2 with
      | error e => exact ⟨trivial, trivial⟩
      | ok _ => exact ⟨trivial, trivial⟩

/-! ## Every call -/

def servePayment (call : PaymentCall) : AnsweredPaymentProg :=
  tagged call call.handle

attribute [local irreducible] Safe in
theorem safe_servePayment (call : PaymentCall) (db : PaymentDb) :
    SafePayment I A (servePayment call) db := by
  cases call with
  | event provider input newId => exact safe_processNormalizedEvent hI provider input newId db
  | credits userId paymentId => exact safe_confirmCredits hI userId paymentId db
  | settlement input releaseId now => exact safe_adminReleaseSettlement hI input releaseId now db
  | purchase c => exact safe_commercePurchase hI c db
  | reconciliation input reconciliationId provider now =>
      exact safe_adminReconcileSettlement hI input reconciliationId provider now db
  | reserve reconciliationId now => exact safe_adminReleaseReserve hI reconciliationId now db

end

/-! ## Runs -/

/-- Payments that nothing has been booked for yet; a payment that is created later is one that
nobody has looked at before. -/
structure PaymentDb.Opening (db : PaymentDb) : Prop where
  journal : db.journal.InOrder JournalEntryRow.Named
  others : ∀ e ∈ db.journal.entries, ∃ id, e.entryId = .other id
  ids : (db.payments.map (·.paymentId)).Nodup
  keys : (db.payments.map fun p ↦ (p.userId, p.idempotencyKey)).Nodup
  valid : ∀ p ∈ db.payments, p.Valid
  uncaptured : ∀ p ∈ db.payments, isCaptured p.status = false ∧ p.refundedAmount = 0 ∧
    p.releasedDeveloperAmount = 0
  empty : db.orders = [] ∧ db.entitlements = [] ∧ db.refunds = [] ∧ db.releases = [] ∧
    db.reconciliations = []

theorem PaymentDb.Opening.unposted {db : PaymentDb} (h : db.Opening) {entryId : EntryId}
    (hother : ∀ id, entryId ≠ .other id) : db.journal.isPosted entryId = false := by
  refine Journal.isPosted_unused fun e he heq ↦ ?_
  obtain ⟨id, hid⟩ := h.others e he
  exact hother id (heq.symm.trans hid)

theorem PaymentDb.Opening.sound {db : PaymentDb} (h : db.Opening) : db.Sound := by
  obtain ⟨horders, hentitlements, -⟩ := h.empty
  have hcapture : ∀ p : PaymentRow, db.journal.isPosted (.capture p.paymentId) = false :=
    fun p ↦ h.unposted fun id heq ↦ by cases heq
  refine ⟨h.journal, h.ids, h.keys, h.valid, by simp [horders], by simp [horders], ?_, ?_,
    by simp [horders], by simp [hentitlements], ?_, by simp [horders]⟩
  · intro p hp
    rw [hcapture p]
    exact (h.uncaptured p hp).1
  · intro p _
    rw [hcapture p]
    simp [PaymentDb.hasOrder, horders]
  · intro e he htype
    obtain ⟨id, hid, -⟩ := (h.journal.named e he).of_order htype
    obtain ⟨id', hid'⟩ := h.others e he
    cases hid.symm.trans hid'

abbrev PaymentWorld := World PaymentOp PaymentOp.Answer (PaymentCall × PaymentReply) PaymentDb

def paymentStep : PaymentWorld → Event PaymentCall → PaymentWorld :=
  World.next PaymentOp.exec servePayment

def paymentWorld (db : PaymentDb) (events : List (Event PaymentCall)) : PaymentWorld :=
  Runs.run paymentStep { db } events

/-- A run in which generated identifiers are new. -/
def PaymentRun (db : PaymentDb) (events : List (Event PaymentCall)) : Prop :=
  Runs.Along paymentStep (Admits PaymentDb.FreshIds) { db } events

instance (db : PaymentDb) (events : List (Event PaymentCall)) : Decidable (PaymentRun db events) :=
  inferInstanceAs (Decidable (Runs.Along _ _ _ _))

/-- A run whose operations meet the condition as well. -/
def MeetsAlong (A : PaymentDb → PaymentOp → Prop) (db : PaymentDb)
    (events : List (Event PaymentCall)) : Prop :=
  Runs.Along paymentStep (Admits A) { db } events

instance (A : PaymentDb → PaymentOp → Prop) [∀ db op, Decidable (A db op)] (db : PaymentDb)
    (events : List (Event PaymentCall)) : Decidable (MeetsAlong A db events) :=
  inferInstanceAs (Decidable (Runs.Along _ _ _ _))

section

variable {I : PaymentDb → Prop} {A : PaymentDb → PaymentOp → Prop} {db : PaymentDb}
  {events : List (Event PaymentCall)}

theorem PaymentRun.admitted (hrun : PaymentRun db events) (hmeets : MeetsAlong A db events) :
    Runs.Along paymentStep (Admits (paymentContract I A).admits) { db } events :=
  (hrun.and hmeets).imp fun _ _ hboth i op next he hp ↦ ⟨hboth.1 i op next he hp,
    hboth.2 i op next he hp⟩

theorem PaymentRun.takes (hI : Extends I A) (hdb : db.Sound) (hinv : I db)
    (hrun : PaymentRun db events) (hmeets : MeetsAlong A db events) {w : PaymentWorld}
    {e : Event PaymentCall} (htakes : Runs.Takes paymentStep { db } events w e) :
    WorldSafe PaymentOp.exec (paymentContract I A) w ∧ Admits (paymentContract I A).admits w e :=
  worldSafe_takes (fun call db _ ↦ safe_servePayment hI call db) ⟨hdb, hinv⟩
    (hrun.admitted hmeets) htakes

theorem PaymentRun.safe (hI : Extends I A) (hdb : db.Sound) (hinv : I db)
    (hrun : PaymentRun db events) (hmeets : MeetsAlong A db events) :
    WorldSafe PaymentOp.exec (paymentContract I A) (paymentWorld db events) :=
  worldSafe_run (fun call db _ ↦ safe_servePayment hI call db) ⟨hdb, hinv⟩ (hrun.admitted hmeets)

theorem PaymentRun.evolves (hI : Extends I A) (hdb : db.Sound) (hinv : I db)
    {before after : List (Event PaymentCall)} (hrun : PaymentRun db (before ++ after))
    (hmeets : MeetsAlong A db (before ++ after)) :
    (paymentWorld db before).db.Evolves (paymentWorld db (before ++ after)).db := by
  have hadmitted := (Runs.along_append paymentStep _ before after).mp
    (hrun.admitted (I := I) hmeets)
  have hsafe : WorldSafe PaymentOp.exec (paymentContract I A) (paymentWorld db before) :=
    worldSafe_run (fun call db _ ↦ safe_servePayment hI call db) ⟨hdb, hinv⟩ hadmitted.1
  have hguarantee := hsafe.guarantee_run (fun call db _ ↦ safe_servePayment hI call db) hadmitted.2
  have hsplit : paymentWorld db (before ++ after) =
      Runs.run paymentStep (paymentWorld db before) after := Runs.run_append paymentStep _ _ _
  rw [hsplit]
  exact hguarantee

theorem meetsAlong_true : MeetsAlong (fun _ _ ↦ True) db events :=
  Runs.along_of_forall_mem _ (fun _ _ _ _ _ _ _ _ ↦ trivial) _

theorem extends_true : Extends (fun _ ↦ True) fun _ _ ↦ True :=
  fun _ _ _ _ _ _ _ ↦ trivial

end

end Fabushi.Worker
