import Fabushi.Worker.PaymentBooks

/-!
# Captures and purchases

The two batches that create orders. A capture books its payment together with its
order or changes nothing that counts; a purchase books the order it has created, or
acts on the order it finds under its key.
-/

namespace Fabushi.Worker.PaymentDb

open Result

/-! ## Captures -/

def succeeded (reference : String) (q : PaymentRow) : PaymentRow :=
  { q with status := .succeeded, providerReference := some reference }

def GrantsAtMost (db : PaymentDb) (g : EntitlementRow) (entitlements : List EntitlementRow) : Prop :=
  entitlements = db.entitlements ∨ entitlements = db.entitlements ++ [g]

/-- What the batch of a capture does; `q` is the row of the payment that stands there now. -/
inductive CaptureStep (p : PaymentRow) (provider reference : String) (user : Bool)
    (db : PaymentDb) (q : PaymentRow) : PaymentDb → Prop
  /-- The payment has ended, or its order could not be created. -/
  | idle {j : Journal} (hopened : db.journal.Opened j) (hstatus : isCaptured q.status = false)
      (hwhy : isOpenPayment q.status = true →
        (user = true ∧ db.journal.walletBalance (p.sourceAccount provider user) < p.amount) ∨
          ∃ o ∈ db.orders, o.buyerUserId = p.userId ∧ o.idempotencyKey = p.idempotencyKey) :
      CaptureStep p provider reference user db q { db with journal := j }
  /-- It was captured before. -/
  | again {j : Journal} (hopened : db.journal.Opened j) (hstatus : isCaptured q.status = true)
      {fulfils : Bool} {entitlements : List EntitlementRow}
      (hgrants : db.GrantsAtMost p.entitlement entitlements) :
      CaptureStep p provider reference user db q
        { ({ db with journal := j }.updateOrders (fun o ↦ o.orderId = p.paymentId && fulfils)
          .fulfilled) with entitlements }
  /-- It is captured now. -/
  | captured {j : Journal} (hopened : db.journal.Opened j) (hstatus : isOpenPayment q.status = true)
      (hcovered : user = true →
        p.amount ≤ db.journal.walletBalance (p.sourceAccount provider user))
      (hkey : ∀ o ∈ db.orders, ¬ (o.buyerUserId = p.userId ∧ o.idempotencyKey = p.idempotencyKey))
      (hadds : j.Adds ⟨.capture p.paymentId, "payment", p.paymentId, .posted⟩
        (p.captureLines provider user))
      {entitlements : List EntitlementRow} (hgrants : db.GrantsAtMost p.entitlement entitlements) :
      CaptureStep p provider reference user db q
        { db with
          journal := j.add ⟨.capture p.paymentId, "payment", p.paymentId, .posted⟩
            (p.captureLines provider user)
          payments := Table.update (fun r ↦ r.paymentId = p.paymentId && isOpenPayment r.status)
            (succeeded reference) db.payments
          orders := db.orders ++ [{ p.order with status := .fulfilled }]
          entitlements }

theorem insertEntitlement_eq_ok {db db' : PaymentDb} {g : EntitlementRow}
    (h : db.insertEntitlement g = .ok db') :
    ∃ entitlements, db' = { db with entitlements } ∧ db.GrantsAtMost g entitlements ∧
      ((∃ old ∈ db.entitlements, old.conflicts g = true) ∨ g ∈ entitlements) := by
  unfold insertEntitlement at h
  split at h
  · rename_i hconflict
    obtain ⟨old, hold, hc⟩ := List.any_eq_true.mp hconflict
    exact ⟨db.entitlements, (Except.ok.inj h).symm, .inl rfl, .inl ⟨old, hold, hc⟩⟩
  · obtain ⟨_, -, h⟩ := bind_eq_ok.mp h
    exact ⟨_, (Except.ok.inj h).symm, .inr rfl, .inr (by simp)⟩

theorem succeed_eq_ok {db db' : PaymentDb} {p : PaymentRow} {reference : String}
    (h : db.succeed p reference = .ok db') :
    ∃ (fulfils : Bool) (payments : List PaymentRow) (entitlements : List EntitlementRow),
      payments = Table.update (fun q ↦ q.paymentId = p.paymentId && isOpenPayment q.status &&
        db.journal.isPosted (.capture p.paymentId)) (succeeded reference) db.payments ∧
      fulfils = payments.any (fun q ↦ q.paymentId = p.paymentId && q.status = .succeeded) ∧
      (fulfils = false → entitlements = db.entitlements) ∧
      db.GrantsAtMost p.entitlement entitlements ∧
      (∀ q ∈ db.payments, q.paymentId = p.paymentId → isOpenPayment q.status = true →
        db.journal.isPosted (.capture p.paymentId) = true → (succeeded reference q).check = true) ∧
      db' = { ({ db with payments }.updateOrders (fun o ↦ o.orderId = p.paymentId && fulfils)
        .fulfilled) with entitlements } := by
  obtain ⟨db₁, hupdate, h⟩ := bind_eq_ok.mp h
  obtain ⟨_, -, h⟩ := bind_eq_ok.mp h
  obtain ⟨rfl, hcheck⟩ := updatePayments_eq_ok hupdate
  have hcheck' : ∀ q ∈ db.payments, q.paymentId = p.paymentId → isOpenPayment q.status = true →
      db.journal.isPosted (.capture p.paymentId) = true → (succeeded reference q).check = true :=
    fun q hq hid hopen hposted ↦ hcheck q hq (by simp [hid, hopen, hposted])
  simp only at h
  split at h
  · rename_i hfulfils
    obtain ⟨entitlements, rfl, hgrants, -⟩ := insertEntitlement_eq_ok h
    refine ⟨true, _, entitlements, rfl, hfulfils.symm, fun hf ↦ (by cases hf), hgrants, hcheck',
      ?_⟩
    rw [hfulfils]
    rfl
  · rename_i hfulfils
    rw [Bool.not_eq_true] at hfulfils
    refine ⟨false, _, db.entitlements, rfl, hfulfils.symm, fun _ ↦ rfl, .inl rfl, hcheck', ?_⟩
    rw [← Except.ok.inj h, hfulfils]
    rfl

theorem insertOrder_eq_ok {db db' : PaymentDb} {o : OrderRow} (h : db.insertOrder o = .ok db') :
    (db' = db ∧ ∃ old ∈ db.orders, old.buyerUserId = o.buyerUserId ∧
        old.idempotencyKey = o.idempotencyKey) ∨
      ((∀ old ∈ db.orders, ¬ (old.buyerUserId = o.buyerUserId ∧
          old.idempotencyKey = o.idempotencyKey)) ∧
        db.hasOrder o.orderId = false ∧ 0 < o.amount ∧
        db' = { db with orders := db.orders ++ [o] }) := by
  unfold insertOrder at h
  split at h
  · rename_i hconflict
    refine .inl ⟨(Except.ok.inj h).symm, ?_⟩
    simpa using hconflict
  · rename_i hconflict
    obtain ⟨_, hid, h⟩ := bind_eq_ok.mp h
    obtain ⟨_, hamount, h⟩ := bind_eq_ok.mp h
    refine .inr ⟨?_, by simpa using hid, ensure_eq_ok.mp hamount, (Except.ok.inj h).symm⟩
    simpa using hconflict

theorem orderOfPayment_eq_ok {db db' : PaymentDb} {p : PaymentRow} {provider : String}
    {user : Bool} (h : db.orderOfPayment p provider user = .ok db') :
    (db' = db ∧
      ((db.payments.any fun q ↦ q.paymentId = p.paymentId && isOpenPayment q.status) = true →
        (user = true ∧ db.journal.walletBalance (p.sourceAccount provider user) < p.amount) ∨
          ∃ o ∈ db.orders, o.buyerUserId = p.userId ∧ o.idempotencyKey = p.idempotencyKey)) ∨
      ((db.payments.any fun q ↦ q.paymentId = p.paymentId && isOpenPayment q.status) = true ∧
        (user = true → p.amount ≤ db.journal.walletBalance (p.sourceAccount provider user)) ∧
        (∀ o ∈ db.orders, ¬ (o.buyerUserId = p.userId ∧ o.idempotencyKey = p.idempotencyKey)) ∧
        db' = { db with orders := db.orders ++ [p.order] }) := by
  unfold orderOfPayment at h
  split at h
  · rename_i hguard
    simp only [Bool.and_eq_true, Bool.or_eq_true, Bool.not_eq_true', decide_eq_true_eq] at hguard
    rcases insertOrder_eq_ok h with ⟨rfl, hconflict⟩ | ⟨hkey, -, -, rfl⟩
    · exact .inl ⟨rfl, fun _ ↦ .inr hconflict⟩
    · refine .inr ⟨hguard.1, fun huser ↦ ?_, hkey, rfl⟩
      rcases hguard.2 with hnot | hcovered
      · cases huser.symm.trans hnot
      · exact hcovered
  · rename_i hguard
    refine .inl ⟨(Except.ok.inj h).symm, fun hopen ↦ .inl ?_⟩
    simp only [hopen, Bool.true_and, Bool.or_eq_true, Bool.not_eq_true', decide_eq_true_eq,
      not_or, Bool.not_eq_false, not_le] at hguard
    exact hguard

section Capture

variable {db db' : PaymentDb} {p q : PaymentRow} {provider reference : String} {user : Bool}

theorem any_open (h : db.Sound) (hq : q ∈ db.payments) (hid : q.paymentId = p.paymentId) :
    (db.payments.any fun r ↦ r.paymentId = p.paymentId && isOpenPayment r.status) =
      isOpenPayment q.status := by
  rw [Bool.eq_iff_iff, List.any_eq_true]
  simp only [Bool.and_eq_true, decide_eq_true_eq]
  constructor
  · rintro ⟨r, hr, hrid, hopen⟩
    rwa [← Table.eq_of_key_eq h.ids hr hq (hrid.trans hid.symm)]
  · exact fun hopen ↦ ⟨q, hq, hid, hopen⟩

theorem update_eq_self {α : Type} {selects : α → Bool} {set : α → α} {rows : List α}
    (h : ∀ row ∈ rows, selects row = false) : Table.update selects set rows = rows := by
  rw [Table.update]
  refine (List.map_congr_left ?_).trans (List.map_id _)
  intro row hrow
  rw [h row hrow]
  rfl

theorem captureLines_of_intent (hintent : q.intent = p.intent) (provider : String) (user : Bool) :
    p.captureLines provider user = q.captureLines provider user := by
  have hlines : p.intent.captureLines provider user = q.intent.captureLines provider user := by
    rw [hintent]
  exact hlines

theorem Sound.capture_unused (h : db.Sound) (hq : q ∈ db.payments)
    (hstatus : isCaptured q.status = false) :
    db.journal.EntryUnused (.capture q.paymentId) "payment" q.paymentId := by
  have hposted : db.journal.isPosted (.capture q.paymentId) = false :=
    (h.captured q hq).symm.trans hstatus
  have hnone : ∀ e ∈ db.journal.entries, e.entryId ≠ .capture q.paymentId := by
    intro e he heq
    have hstate := (h.journal.named e he).capture_posted heq
    rw [Journal.isPosted_iff.mpr ⟨e, he, heq, hstate⟩] at hposted
    cases hposted
  intro e he
  refine ⟨hnone e he, ?_⟩
  rintro ⟨htype, hreference⟩
  exact hnone e he (hreference ▸ (h.journal.named e he).of_payment htype)

theorem isCaptured_of_open {s : PaymentStatus} (h : isOpenPayment s = true) :
    isCaptured s = false := by
  cases s <;> simp_all [isOpenPayment, isCaptured]

theorem postSuccess_step (h : db.Sound) (hq : q ∈ db.payments) (hintent : q.intent = p.intent)
    (hrun : db.postSuccess p provider reference user = .ok (db', ())) :
    CaptureStep p provider reference user db q db' := by
  obtain ⟨db₁, horder, hrun⟩ := bind_eq_ok.mp hrun
  obtain ⟨j, hbook, hrun⟩ := bind_eq_ok.mp hrun
  obtain ⟨db₂, hsucceed, hrun⟩ := bind_eq_ok.mp hrun
  obtain rfl := congrArg Prod.fst (Except.ok.inj hrun)
  have hid := paymentId_of_intent hintent
  have hopened := p.opened_platform (p.opened_pending (p.opened_source
    (.refl (j := db.journal)) provider user))
  have hamount : q.amount = p.amount := by
    have hfield : q.intent.amount = p.intent.amount := by rw [hintent]
    exact hfield
  have hpos : 0 < p.amount := hamount ▸ (h.valid q hq).positive
  have hclosed : Journal.isDraft (p.openPlatform (p.openPending (p.openSource provider user
      db.journal))) (.capture p.paymentId) = false :=
    Journal.isDraft_of_posted (hopened.entries_eq ▸ fun e he heq ↦
      (h.journal.named e he).capture_posted heq)
  have hbalance := hopened.walletBalance_eq h.journal.wf (p.sourceAccount provider user)
  have hwf := (hopened.inOrder h.journal).wf
  have hlines := p.captureLines_ok provider user hpos
  have hother : ∀ r ∈ db.payments, r.paymentId = p.paymentId → r = q :=
    fun r hr hrid ↦ Table.eq_of_key_eq h.ids hr hq (hrid.trans hid.symm)
  rcases orderOfPayment_eq_ok horder with ⟨rfl, hwhy⟩ | ⟨hopen, hcovered, hkey, rfl⟩
  · -- no order is created, so nothing is booked
    have hguard : ({ db with journal := p.openPlatform (p.openPending (p.openSource provider user
        db.journal)) } : PaymentDb).hasOrder p.paymentId = isCaptured q.status :=
      hid ▸ (h.ordered q hq).trans (h.captured q hq).symm
    have hj : j = p.openPlatform (p.openPending (p.openSource provider user db.journal)) := by
      rcases hwf.book_cases hclosed hlines hbook with ⟨hsame, -⟩ | ⟨htrue, hadds, -⟩
      · exact hsame
      · have hposted := (h.captured q hq).symm.trans (hguard.symm.trans htrue)
        obtain ⟨e, he, heq, -⟩ := Journal.isPosted_iff.mp hposted
        exact absurd (hid ▸ heq) (hadds.unused e (hopened.entries_eq ▸ he)).1
    subst hj
    obtain ⟨fulfils, payments, entitlements, rfl, hfulfils, hsame, hgrants, -, rfl⟩ :=
      succeed_eq_ok hsucceed
    have hposted : (p.openPlatform (p.openPending (p.openSource provider user
        db.journal))).isPosted (.capture p.paymentId) = isCaptured q.status := by
      rw [hopened.isPosted_eq, ← hid]
      exact (h.captured q hq).symm
    have hpayments : Table.update (fun r ↦ r.paymentId = p.paymentId && isOpenPayment r.status &&
        (p.openPlatform (p.openPending (p.openSource provider user
          db.journal))).isPosted (.capture p.paymentId)) (succeeded reference) db.payments =
        db.payments := by
      refine update_eq_self fun r hr ↦ ?_
      rw [hposted]
      by_cases hrid : r.paymentId = p.paymentId
      · rw [hother r hr hrid]
        cases hs : q.status <;> simp [isOpenPayment, isCaptured]
      · simp [hrid]
    simp only [hpayments] at hfulfils ⊢
    by_cases hcaptured : isCaptured q.status = true
    · exact .again hopened hcaptured hgrants
    · rw [Bool.not_eq_true] at hcaptured
      have hnot : fulfils = false := by
        rw [hfulfils, Bool.eq_false_iff]
        intro hany
        obtain ⟨r, hr, hsel⟩ := List.any_eq_true.mp hany
        simp only [Bool.and_eq_true, decide_eq_true_eq] at hsel
        rw [← hother r hr hsel.1, hsel.2] at hcaptured
        cases hcaptured
      obtain rfl := hsame hnot
      have horders : Table.update (fun o ↦ decide (o.orderId = p.paymentId) && fulfils)
          (fun o ↦ { o with status := .fulfilled }) db.orders = db.orders :=
        update_eq_self fun o _ ↦ by simp [hnot]
      simp only [updateOrders, horders]
      refine .idle hopened hcaptured fun hq' ↦ ?_
      have hwhy' := hwhy ((any_open h hq hid).trans hq')
      rw [hbalance] at hwhy'
      exact hwhy'
  · -- the order is created and the capture is booked
    rw [any_open h hq hid] at hopen
    have hcaptured := isCaptured_of_open hopen
    have hunused := h.capture_unused hq hcaptured
    rw [hid] at hunused
    have hguard : ({ db with
        journal := p.openPlatform (p.openPending (p.openSource provider user db.journal))
        orders := db.orders ++ [p.order] } : PaymentDb).hasOrder p.paymentId = true :=
      hasOrder_iff.mpr ⟨p.order, by simp, rfl⟩
    have hbooked : Journal.booked (.capture p.paymentId) "payment" p.paymentId
        (p.captureLines provider user) = ⟨.capture p.paymentId, "payment", p.paymentId, .posted⟩ := by
      rw [Journal.booked, captureLines_of_intent hintent provider user,
        (h.valid q hq).captureLines_balanced provider user]
      rfl
    rcases hwf.book_cases hclosed hlines hbook with ⟨-, hnot⟩ | ⟨-, hadds, rfl⟩
    · exact absurd (fun e he ↦ hunused e (hopened.entries_eq ▸ he)) (hnot hguard)
    rw [hbooked] at hadds hsucceed
    obtain ⟨fulfils, payments, entitlements, rfl, hfulfils, -, hgrants, -, rfl⟩ :=
      succeed_eq_ok hsucceed
    have hposted : ((p.openPlatform (p.openPending (p.openSource provider user db.journal))).add
        ⟨.capture p.paymentId, "payment", p.paymentId, .posted⟩
        (p.captureLines provider user)).isPosted (.capture p.paymentId) = true := by
      simp [Journal.isPosted_add]
    simp only [hposted, Bool.and_true] at hfulfils ⊢
    have htrue : fulfils = true := by
      rw [hfulfils, List.any_eq_true]
      refine ⟨succeeded reference q, Table.mem_update.mpr ⟨q, hq, ?_⟩, ?_⟩
      · simp [hid, hopen]
      · simp [succeeded, hid]
    have hnone : ∀ o ∈ db.orders, o.orderId ≠ p.paymentId := by
      intro o ho heq
      have hhas : db.hasOrder q.paymentId = true := hasOrder_iff.mpr ⟨o, ho, heq.trans hid.symm⟩
      rw [h.ordered q hq, ← h.captured q hq, hcaptured] at hhas
      cases hhas
    have horders : Table.update (fun o ↦ decide (o.orderId = p.paymentId) && fulfils)
        (fun o ↦ { o with status := .fulfilled }) (db.orders ++ [p.order]) =
        db.orders ++ [{ p.order with status := .fulfilled }] := by
      rw [Table.update, List.map_append]
      congr 1
      · refine (List.map_congr_left fun o ho ↦ ?_).trans (List.map_id _)
        simp [hnone o ho]
      · simp [PaymentRow.order, htrue]
    simp only [updateOrders, horders]
    refine .captured hopened hopen (fun huser ↦ ?_) hkey hadds hgrants
    rw [← hbalance]
    exact hcovered huser

theorem GrantsAtMost.granted {g : EntitlementRow} {entitlements : List EntitlementRow}
    (h : db.GrantsAtMost g entitlements) {e : EntitlementRow} (he : e ∈ entitlements) :
    e ∈ db.entitlements ∨ e = g := by
  rcases h with rfl | rfl
  · exact .inl he
  · simpa using he

theorem GrantsAtMost.kept {g : EntitlementRow} {entitlements : List EntitlementRow}
    (h : db.GrantsAtMost g entitlements) {e : EntitlementRow} (he : e ∈ db.entitlements) :
    e ∈ entitlements := by
  rcases h with rfl | rfl
  · exact he
  · exact List.mem_append_left _ he

theorem Sound.hasOrder_of_captured (h : db.Sound) (hq : q ∈ db.payments)
    (hstatus : isCaptured q.status = true) : db.hasOrder q.paymentId = true :=
  (h.ordered q hq).trans ((h.captured q hq).symm.trans hstatus)

theorem CaptureStep.sound (h : db.Sound) (hq : q ∈ db.payments) (hintent : q.intent = p.intent)
    (hstep : CaptureStep p provider reference user db q db') : db'.Sound ∧ db.Keeps db' := by
  have hid := paymentId_of_intent hintent
  cases hstep with
  | idle hopened hstatus hwhy =>
      exact h.withJournal (hopened.inOrder h.journal) hopened.grows
  | again hopened hstatus hgrants =>
      obtain ⟨hsound, hkeeps⟩ := h.withJournal (hopened.inOrder h.journal) hopened.grows
      refine And.imp_right hkeeps.trans (hsound.touch ?_ ?_ fun g hg _ ↦ hgrants.kept hg)
      · intro o _ hbean
        have hne : o.orderId ≠ p.paymentId := fun heq ↦ hbean q hq (hid.trans heq.symm)
        simp [hne]
      · intro g hg
        rcases hgrants.granted hg with hg | rfl
        · exact h.granted g hg
        · have hhas := h.hasOrder_of_captured hq hstatus
          rw [hid] at hhas
          exact hhas
  | @captured j hopened hstatus hcovered hkey hadds entitlements hgrants =>
      have hcaptured := isCaptured_of_open hstatus
      have hvalid : (p.captureLines provider user) = q.captureLines provider user :=
        captureLines_of_intent hintent provider user
      have hgrows : db.journal.Grows (fun id ↦ id = .capture p.paymentId)
          (j.add ⟨.capture p.paymentId, "payment", p.paymentId, .posted⟩
            (p.captureLines provider user)) :=
        hopened.grows.trans (.add hadds rfl)
      have hjournal : (j.add ⟨.capture p.paymentId, "payment", p.paymentId, .posted⟩
          (p.captureLines provider user)).InOrder JournalEntryRow.Named :=
        (hopened.inOrder h.journal).add hadds
          (fun _ ↦ hvalid ▸ (h.valid q hq).captureLines_balanced provider user) ⟨rfl, rfl, rfl⟩
      have hpost : (j.add ⟨.capture p.paymentId, "payment", p.paymentId, .posted⟩
          (p.captureLines provider user)).isPosted (.capture p.paymentId) = true := by
        simp [Journal.isPosted_add]
      have hother : ∀ r ∈ db.payments, r.paymentId = p.paymentId → r = q :=
        fun r hr hrid ↦ Table.eq_of_key_eq h.ids hr hq (hrid.trans hid.symm)
      have hnone : ∀ o ∈ db.orders, o.orderId ≠ p.paymentId := by
        intro o ho heq
        have hhas : db.hasOrder q.paymentId = true := hasOrder_iff.mpr ⟨o, ho, heq.trans hid.symm⟩
        rw [h.ordered q hq, ← h.captured q hq, hcaptured] at hhas
        cases hhas
      have hintents : (Table.update (fun r ↦ r.paymentId = p.paymentId && isOpenPayment r.status)
          (succeeded reference) db.payments).map (·.intent) = db.payments.map (·.intent) := by
        rw [Table.map_update]
        exact fun _ ↦ rfl
      -- each payment is either the captured one or as it was
      have hrows : ∀ r' ∈ Table.update (fun r ↦ r.paymentId = p.paymentId && isOpenPayment r.status)
          (succeeded reference) db.payments, r' = succeeded reference q ∨
            r' ∈ db.payments ∧ r'.paymentId ≠ p.paymentId := by
        intro r' hr'
        obtain ⟨r, hr, rfl⟩ := Table.mem_update.mp hr'
        by_cases hrid : r.paymentId = p.paymentId
        · obtain rfl := hother r hr hrid
          simp [hrid, hstatus]
        · simp [hrid, hr]
      have hhas : ∀ id, db.hasOrder id = true → ({ db with orders := db.orders ++
          [{ p.order with status := .fulfilled }] } : PaymentDb).hasOrder id = true := by
        intro id hhas
        obtain ⟨o, ho, hoid⟩ := hasOrder_iff.mp hhas
        exact hasOrder_iff.mpr ⟨o, List.mem_append_left _ ho, hoid⟩
      refine ⟨⟨hjournal, ?_, ?_, ?_, ?_, ?_, ?_, ?_, ?_, ?_, ?_, ?_⟩, hintents, ?_, ?_, ?_⟩
      · rw [map_of_intents hintents _ fun _ ↦ rfl]
        exact h.ids
      · rw [map_of_intents hintents _ fun _ ↦ rfl]
        exact h.keys
      · intro r' hr'
        rcases hrows r' hr' with rfl | ⟨hr, -⟩
        · exact ⟨(h.valid q hq).positive, (h.valid q hq).bounded, (h.valid q hq).bps_nonneg,
            (h.valid q hq).bps_le, (h.valid q hq).refunded_nonneg, (h.valid q hq).refunded_le,
            (h.valid q hq).released_nonneg⟩
        · exact h.valid r' hr
      · exact Table.nodup_append_row h.orderIds hnone
      · refine Table.nodup_append_row h.orderKeys fun o ho heq ↦ ?_
        exact hkey o ho (Prod.ext_iff.mp heq)
      · intro r' hr'
        rcases hrows r' hr' with rfl | ⟨hr, hne⟩
        · rw [show (succeeded reference q).paymentId = p.paymentId from hid, hpost]
          rfl
        · rw [hgrows.isPosted_eq (by simpa using hne)]
          exact h.captured r' hr
      · intro r' hr'
        rcases hrows r' hr' with rfl | ⟨hr, hne⟩
        · rw [show (succeeded reference q).paymentId = p.paymentId from hid, hpost]
          exact hasOrder_iff.mpr ⟨_, List.mem_append_right _ (List.mem_singleton.mpr rfl), rfl⟩
        · rw [hgrows.isPosted_eq (by simpa using hne), ← h.ordered r' hr]
          simp [hasOrder, PaymentRow.order, Ne.symm hne]
      · intro o ho r' hr' heq
        rcases List.mem_append.mp ho with ho | ho
        · rcases hrows r' hr' with rfl | ⟨hr, -⟩
          · exact h.orderOf o ho q hq heq
          · exact h.orderOf o ho r' hr heq
        · obtain rfl := List.mem_singleton.mp ho
          rcases hrows r' hr' with rfl | ⟨-, hne⟩
          · have hfields : p.intent.userId = q.intent.userId ∧
                p.intent.idempotencyKey = q.intent.idempotencyKey := by
              rw [hintent]
              exact ⟨rfl, rfl⟩
            exact hfields
          · exact absurd heq hne
      · intro g hg
        rcases hgrants.granted hg with hg | rfl
        · exact hhas _ (h.granted g hg)
        · exact hasOrder_iff.mpr ⟨_, List.mem_append_right _ (List.mem_singleton.mpr rfl), rfl⟩
      · intro e he htype
        rcases hgrows.mem_or_own he with he | hown
        · exact hhas _ (h.entries e he htype)
        · obtain ⟨id, heid, -⟩ := (hjournal.named e he).of_order htype
          cases heid.symm.trans hown
      · intro o ho hbean
        have hbean' : db.Bean o.orderId := by
          refine (bean_congr ?_).mp hbean
          exact hintents
        rcases List.mem_append.mp ho with ho | ho
        · exact (h.bought o ho hbean').grow hgrows fun g hg _ _ ↦ hgrants.kept hg
        · obtain rfl := List.mem_singleton.mp ho
          exact absurd hid (hbean' q hq)
      · intro r hr
        by_cases hrid : r.paymentId = p.paymentId
        · obtain rfl := hother r hr hrid
          exact ⟨succeeded reference r, Table.mem_update.mpr ⟨r, hr, by simp [hrid, hstatus]⟩, rfl,
            .inl hstatus⟩
        · exact ⟨r, Table.mem_update.mpr ⟨r, hr, by simp [hrid]⟩, rfl, .refl _⟩
      · exact fun id hposted ↦ hgrows.isPosted_of_isPosted hposted
      · exact fun o ho _ _ ↦ List.mem_append_left _ ho

end Capture

/-! ## Purchases -/

def orderEntry (c : Purchase) (orderId : String) : JournalEntryRow :=
  ⟨.order c.entryId, "order", orderId, .posted⟩

def Purchase.finds (c : Purchase) (o : OrderRow) : Prop :=
  o.buyerUserId = c.userId ∧ o.idempotencyKey = c.idempotencyKey

def pendingOrder (orderId : String) (fulfils : Bool) (o : OrderRow) : Bool :=
  o.orderId = orderId && o.status = .pending && fulfils

inductive PurchaseStep (c : Purchase) (db : PaymentDb) : PaymentDb → Prop
  | refused {j : Journal} (hopened : db.journal.Opened j)
      (hnone : ∀ o ∈ db.orders, ¬ Purchase.finds c o) : PurchaseStep c db { db with journal := j }
  /-- The order is created, and covered. -/
  | bought {j : Journal} (hopened : db.journal.Opened j)
      (hnone : ∀ o ∈ db.orders, ¬ Purchase.finds c o)
      (hcovered : c.price.amount ≤ db.journal.walletBalance c.userAccount)
      (hadds : j.Adds (orderEntry c c.orderId) (c.lines (.order c.entryId))) :
      PurchaseStep c db { db with
        journal := j.add (orderEntry c c.orderId) (c.lines (.order c.entryId))
        orders := db.orders ++ [{ c.order with status := .fulfilled }]
        entitlements := db.entitlements ++ [c.entitlement c.order] }
  /-- The order was booked before. -/
  | again {j : Journal} (hopened : db.journal.Opened j) {o : OrderRow} (ho : o ∈ db.orders)
      (hfinds : Purchase.finds c o) {fulfils : Bool} {entitlements : List EntitlementRow}
      (hgrants : db.GrantsAtMost (c.entitlement o) entitlements) :
      PurchaseStep c db { ({ db with journal := j }.updateOrders
        (pendingOrder o.orderId fulfils) .fulfilled) with entitlements }
  /-- An order that was there is booked now, whether it is covered or not. -/
  | charged {j : Journal} (hopened : db.journal.Opened j) {o : OrderRow} (ho : o ∈ db.orders)
      (hfinds : Purchase.finds c o)
      (hunbooked : ∀ e ∈ db.journal.entries, ¬ (e.referenceType = "order" ∧
        e.referenceId = o.orderId))
      (hadds : j.Adds (orderEntry c o.orderId) (c.lines (.order c.entryId))) {fulfils : Bool}
      {entitlements : List EntitlementRow}
      (hgrants : db.GrantsAtMost (c.entitlement o) entitlements) :
      PurchaseStep c db { ({ db with
        journal := j.add (orderEntry c o.orderId) (c.lines (.order c.entryId)) }.updateOrders
          (pendingOrder o.orderId fulfils) .fulfilled) with entitlements }

section Purchase

variable {db db' : PaymentDb} {c : Purchase}

theorem orderPosted_iff {j : Journal} {orderId : String} :
    orderPosted j orderId = true ↔ ∃ e ∈ j.entries, e.referenceType = "order" ∧
      e.referenceId = orderId ∧ e.state = .posted := by
  simp [orderPosted, and_assoc]

theorem bookOrder_cases {j j' : Journal} (hj : j.InOrder JournalEntryRow.Named) {o : OrderRow}
    (hnew : ∀ e ∈ j.entries, e.entryId ≠ .order c.entryId) (h : bookOrder c o j = .ok j') :
    (j' = j ∧ orderPosted j o.orderId = true) ∨
      ((∀ e ∈ j.entries, ¬ (e.referenceType = "order" ∧ e.referenceId = o.orderId)) ∧
        j.Adds (orderEntry c o.orderId) (c.lines (.order c.entryId)) ∧
        j' = j.add (orderEntry c o.orderId) (c.lines (.order c.entryId))) := by
  obtain ⟨hlines, hbalanced⟩ := c.lines_ok (.order c.entryId)
  have hposted : ∀ e ∈ j.entries, e.referenceType = "order" → e.state = .posted := by
    intro e he htype
    obtain ⟨_, -, hstate⟩ := (hj.named e he).of_order htype
    exact hstate
  have hold : ∀ e ∈ j.entries, (decide (e.referenceType = "order") &&
      decide (e.referenceId = o.orderId) && decide (e.state = .draft)) = false := by
    intro e he
    by_cases htype : e.referenceType = "order"
    · simp [hposted e he htype]
    · simp [htype]
  by_cases hbooked : ∃ e ∈ j.entries, e.referenceType = "order" ∧ e.referenceId = o.orderId
  · obtain ⟨e, he, htype, hreference⟩ := hbooked
    have hignored : j.draftEntry (.order c.entryId) "order" o.orderId = j := by
      simp only [Journal.draftEntry, Table.insertOrIgnore]
      rw [if_pos]
      exact List.any_eq_true.mpr ⟨e, he, by simp [JournalEntryRow.conflicts, htype, hreference]⟩
    have hnone : draftOfOrder j o.orderId = none := by
      rw [draftOfOrder, List.find?_eq_none]
      intro e' he'
      simp [hold e' he']
    simp only [bookOrder, hignored, hnone] at h
    refine .inl ⟨(Except.ok.inj h).symm, orderPosted_iff.mpr ⟨e, he, htype, hreference, ?_⟩⟩
    exact hposted e he htype
  · have hfree : ∀ e ∈ j.entries, ¬ (e.referenceType = "order" ∧ e.referenceId = o.orderId) :=
      fun e he hboth ↦ hbooked ⟨e, he, hboth⟩
    have hunused : j.EntryUnused (.order c.entryId) "order" o.orderId :=
      fun e he ↦ ⟨hnew e he, hfree e he⟩
    have hdrafted : (j.draftEntry (.order c.entryId) "order" o.orderId).entries =
        j.entries ++ [⟨.order c.entryId, "order", o.orderId, .draft⟩] := by
      simp only [Journal.draftEntry, Table.insertOrIgnore]
      rw [if_neg]
      simpa [JournalEntryRow.conflicts, Journal.EntryUnused] using hunused
    have hfound : draftOfOrder (j.draftEntry (.order c.entryId) "order" o.orderId) o.orderId =
        some ⟨.order c.entryId, "order", o.orderId, .draft⟩ := by
      rw [draftOfOrder, hdrafted, List.find?_append, List.find?_eq_none.mpr]
      · simp
      · intro e he
        simp [hold e he]
    simp only [bookOrder, hfound] at h
    have hbook : j.book true (.order c.entryId) "order" o.orderId (c.lines (.order c.entryId)) =
        .ok j' := h
    have hentry : Journal.booked (.order c.entryId) "order" o.orderId
        (c.lines (.order c.entryId)) = orderEntry c o.orderId := by
      rw [Journal.booked, hbalanced]
      rfl
    rcases hj.wf.book_cases (Journal.isDraft_of_unused hnew) hlines hbook with
      ⟨-, hnot⟩ | ⟨-, hadds, rfl⟩
    · exact absurd hunused (hnot rfl)
    · rw [hentry] at hadds ⊢
      exact .inr ⟨hfree, hadds, rfl⟩

theorem find_order_append (horders : db'.orders = db.orders ++ [c.order])
    (hnone : ∀ o ∈ db.orders, ¬ Purchase.finds c o) :
    db'.orderByIdempotency c.userId c.idempotencyKey = some c.order := by
  rw [orderByIdempotency, horders, List.find?_append, List.find?_eq_none.mpr]
  · simp [Purchase.order]
  · intro o ho
    simpa [Purchase.finds] using hnone o ho

theorem finds_of_find {o : OrderRow} (h : db.orderByIdempotency c.userId c.idempotencyKey = some o) :
    o ∈ db.orders ∧ Purchase.finds c o := by
  refine ⟨List.mem_of_find?_eq_some h, ?_⟩
  simpa [Purchase.finds] using List.find?_some h

theorem none_of_find (h : db.orderByIdempotency c.userId c.idempotencyKey = none) :
    ∀ o ∈ db.orders, ¬ Purchase.finds c o := by
  intro o ho
  simpa [Purchase.finds] using List.find?_eq_none.mp h o ho

theorem fulfilOrder_found (h : db.Sound) {j : Journal} (hopened : db.journal.Opened j)
    (hentry : db.NewId c.entryId) {o : OrderRow} (ho : o ∈ db.orders) (hfinds : Purchase.finds c o)
    (hrun : { db with journal := j }.fulfilOrder c o = .ok db') : PurchaseStep c db db' := by
  obtain ⟨j', hbook, hrun⟩ := bind_eq_ok.mp hrun
  obtain ⟨db₁, hgrant, hrun⟩ := bind_eq_ok.mp hrun
  obtain rfl := Except.ok.inj hrun
  have hnew : ∀ e ∈ j.entries, e.entryId ≠ .order c.entryId :=
    hopened.entries_eq ▸ hentry.unused rfl
  have hgrants : ∃ entitlements, db₁ = { db with journal := j', entitlements } ∧
      db.GrantsAtMost (c.entitlement o) entitlements := by
    unfold grantOrder at hgrant
    split at hgrant
    · obtain ⟨entitlements, rfl, hgrants, -⟩ := insertEntitlement_eq_ok hgrant
      exact ⟨entitlements, rfl, hgrants⟩
    · exact ⟨db.entitlements, (Except.ok.inj hgrant).symm, .inl rfl⟩
  obtain ⟨entitlements, rfl, hgrants⟩ := hgrants
  rcases bookOrder_cases (hopened.inOrder h.journal) hnew hbook with
    ⟨rfl, -⟩ | ⟨hunbooked, hadds, rfl⟩
  · exact .again hopened ho hfinds hgrants
  · exact .charged hopened ho hfinds (hopened.entries_eq ▸ hunbooked) hadds hgrants

theorem fulfilOrder_created (h : db.Sound) {j : Journal} (hopened : db.journal.Opened j)
    (horder : db.NewId c.orderId) (hentry : db.NewId c.entryId) (hgrant : db.NewId c.entitlementId)
    (hnone : ∀ o ∈ db.orders, ¬ Purchase.finds c o)
    (hcovered : c.price.amount ≤ db.journal.walletBalance c.userAccount)
    (hrun : { db with journal := j, orders := db.orders ++ [c.order] }.fulfilOrder c c.order =
      .ok db') : PurchaseStep c db db' := by
  obtain ⟨j', hbook, hrun⟩ := bind_eq_ok.mp hrun
  obtain ⟨db₁, hinsert, hrun⟩ := bind_eq_ok.mp hrun
  obtain rfl := Except.ok.inj hrun
  have hnew : ∀ e ∈ j.entries, e.entryId ≠ .order c.entryId :=
    hopened.entries_eq ▸ hentry.unused rfl
  have hfree : ∀ id, db.hasOrder id = true → id ≠ c.orderId := by
    rintro id hhas rfl
    obtain ⟨o, ho, hid⟩ := hasOrder_iff.mp hhas
    exact horder.2.2.1 o ho hid
  rcases bookOrder_cases (hopened.inOrder h.journal) hnew hbook with
    ⟨-, hposted⟩ | ⟨-, hadds, rfl⟩
  · obtain ⟨e, he, htype, hreference, -⟩ := orderPosted_iff.mp hposted
    rw [hopened.entries_eq] at he
    exact absurd hreference (hfree _ (h.entries e he htype))
  have hposted : orderPosted (j.add (orderEntry c c.order.orderId) (c.lines (.order c.entryId)))
      c.order.orderId = true :=
    orderPosted_iff.mpr ⟨_, List.mem_append_right _ (List.mem_singleton.mpr rfl), rfl, rfl, rfl⟩
  rw [grantOrder, if_pos hposted] at hinsert
  have hgranted : db₁ = { db with
      journal := j.add (orderEntry c c.order.orderId) (c.lines (.order c.entryId))
      orders := db.orders ++ [c.order]
      entitlements := db.entitlements ++ [c.entitlement c.order] } := by
    unfold insertEntitlement at hinsert
    rw [if_neg] at hinsert
    · obtain ⟨_, -, hinsert⟩ := bind_eq_ok.mp hinsert
      exact (Except.ok.inj hinsert).symm
    · simp only [List.any_eq_true, not_exists, not_and, Bool.not_eq_true]
      intro g hg
      have hid : g.entitlementId ≠ c.entitlementId := hgrant.2.2.2.1 g hg
      have hof : g.orderId ≠ c.orderId := hfree _ (h.granted g hg)
      simp [EntitlementRow.conflicts, Purchase.entitlement, Purchase.order, hid, hof]
  obtain rfl := hgranted
  have hactive : ((db.entitlements ++ [c.entitlement c.order]).any fun e ↦
      decide (e.orderId = c.order.orderId) && decide (e.status = .active)) = true := by
    simp [Purchase.entitlement]
  have horders : Table.update (fun o ↦ decide (o.orderId = c.order.orderId) &&
      decide (o.status = .pending) && true) (fun o ↦ { o with status := .fulfilled })
      (db.orders ++ [c.order]) = db.orders ++ [{ c.order with status := .fulfilled }] := by
    rw [Table.update, List.map_append]
    congr 1
    · refine (List.map_congr_left fun o ho ↦ ?_).trans (List.map_id _)
      have hne : o.orderId ≠ c.order.orderId := horder.2.2.1 o ho
      simp [hne]
    · simp [Purchase.order]
  simp only [hactive, updateOrders, horders]
  exact .bought hopened hnone hcovered hadds

theorem createOrder_eq_ok (h : db.createOrder c = .ok db') :
    db' = db ∨ ((∀ o ∈ db.orders, ¬ Purchase.finds c o) ∧
      c.price.amount ≤ db.journal.walletBalance c.userAccount ∧
      db' = { db with orders := db.orders ++ [c.order] }) := by
  unfold createOrder at h
  split at h
  · rename_i hcovered
    rcases insertOrder_eq_ok h with ⟨rfl, -⟩ | ⟨hnone, -, -, rfl⟩
    · exact .inl rfl
    · exact .inr ⟨hnone, hcovered, rfl⟩
  · exact .inl (Except.ok.inj h).symm

theorem purchase_step (h : db.Sound) (horder : db.NewId c.orderId) (hentry : db.NewId c.entryId)
    (hgrant : db.NewId c.entitlementId) (hrun : db.purchase c = .ok (db', ())) :
    PurchaseStep c db db' := by
  obtain ⟨db₁, hcreate, hrun⟩ := bind_eq_ok.mp hrun
  obtain ⟨db₂, hfulfil, hrun⟩ := bind_eq_ok.mp hrun
  obtain rfl := congrArg Prod.fst (Except.ok.inj hrun)
  have hopened := ((Journal.Opened.refl (j := db.journal)).account c.userAccount "user" c.userId
    c.price.currency).account c.platformAccount "platform" "digital-content" c.price.currency
  have hbalance := hopened.walletBalance_eq h.journal.wf c.userAccount
  rcases createOrder_eq_ok hcreate with rfl | ⟨hnone, hcovered, rfl⟩
  · unfold fulfilFound at hfulfil
    split at hfulfil
    · rename_i o hfind
      obtain ⟨ho, hfinds⟩ := finds_of_find hfind
      exact fulfilOrder_found h hopened hentry ho hfinds hfulfil
    · rename_i hfind
      obtain rfl := Except.ok.inj hfulfil
      exact .refused hopened (none_of_find hfind)
  · rw [fulfilFound, find_order_append rfl hnone] at hfulfil
    exact fulfilOrder_created h hopened horder hentry hgrant hnone (hbalance ▸ hcovered) hfulfil

theorem Sound.not_pending (h : db.Sound) {orderId : String} {fulfils : Bool} :
    ∀ o ∈ db.orders, db.Bean o.orderId → pendingOrder orderId fulfils o = false := by
  intro o ho hbean
  simp [pendingOrder, (h.bought o ho hbean).fulfilled]

theorem PurchaseStep.sound (h : db.Sound) (horder : db.NewId c.orderId)
    (hstep : PurchaseStep c db db') : db'.Sound ∧ db.Keeps db' := by
  cases hstep with
  | refused hopened hnone => exact h.withJournal (hopened.inOrder h.journal) hopened.grows
  | again hopened ho hfinds hgrants =>
      obtain ⟨hsound, hkeeps⟩ := h.withJournal (hopened.inOrder h.journal) hopened.grows
      refine And.imp_right hkeeps.trans (hsound.touch hsound.not_pending ?_
        fun g hg _ ↦ hgrants.kept hg)
      intro g hg
      rcases hgrants.granted hg with hg | rfl
      · exact h.granted g hg
      · exact hasOrder_iff.mpr ⟨_, ho, rfl⟩
  | @charged j hopened o ho hfinds hunbooked hadds fulfils entitlements hgrants =>
      have hgrows : db.journal.Grows (fun id ↦ id = .order c.entryId)
          (j.add (orderEntry c o.orderId) (c.lines (.order c.entryId))) :=
        hopened.grows.trans (.add hadds rfl)
      have hjournal : (j.add (orderEntry c o.orderId) (c.lines (.order c.entryId))).InOrder
          JournalEntryRow.Named :=
        (hopened.inOrder h.journal).add hadds (fun _ ↦ (c.lines_ok _).2) ⟨rfl, rfl⟩
      have hbooked : Sound { db with
          journal := j.add (orderEntry c o.orderId) (c.lines (.order c.entryId)) } := by
        refine h.settle_entries hjournal hgrows (fun _ heq ↦ by cases heq) ?_ rfl h.valid
          (fun q hq ↦ ⟨q, hq, rfl, rfl⟩) rfl rfl
        intro e he htype
        rcases List.mem_append.mp he with he | he
        · exact h.entries e (hopened.entries_eq ▸ he) htype
        · rw [List.mem_singleton.mp he]
          exact hasOrder_iff.mpr ⟨o, ho, rfl⟩
      have hkeeps : db.Keeps { db with
          journal := j.add (orderEntry c o.orderId) (c.lines (.order c.entryId)) } :=
        ⟨rfl, fun _ hp ↦ known_of_mem hp, fun _ ↦ hgrows.isPosted_of_isPosted, fun _ ho _ _ ↦ ho⟩
      refine And.imp_right hkeeps.trans (hbooked.touch hbooked.not_pending ?_
        fun g hg _ ↦ hgrants.kept hg)
      intro g hg
      rcases hgrants.granted hg with hg | rfl
      · exact h.granted g hg
      · exact hasOrder_iff.mpr ⟨o, ho, rfl⟩
  | @bought j hopened hnone hcovered hadds =>
      have hgrows : db.journal.Grows (fun id ↦ id = .order c.entryId)
          (j.add (orderEntry c c.orderId) (c.lines (.order c.entryId))) :=
        hopened.grows.trans (.add hadds rfl)
      have hjournal : (j.add (orderEntry c c.orderId) (c.lines (.order c.entryId))).InOrder
          JournalEntryRow.Named :=
        (hopened.inOrder h.journal).add hadds (fun _ ↦ (c.lines_ok _).2) ⟨rfl, rfl⟩
      have hcapture : ∀ id, (j.add (orderEntry c c.orderId) (c.lines (.order c.entryId))).isPosted
          (.capture id) = db.journal.isPosted (.capture id) :=
        fun id ↦ hgrows.isPosted_eq (by simp)
      have hhas : ∀ id, ({ db with orders := db.orders ++
          [{ c.order with status := .fulfilled }] } : PaymentDb).hasOrder id =
          (db.hasOrder id || decide (c.orderId = id)) := by
        intro id
        simp [hasOrder, Purchase.order]
      refine ⟨⟨hjournal, h.ids, h.keys, h.valid, ?_, ?_, ?_, ?_, ?_, ?_, ?_, ?_⟩, rfl,
        fun _ hp ↦ known_of_mem hp, fun _ ↦ hgrows.isPosted_of_isPosted,
        fun _ ho _ _ ↦ List.mem_append_left _ ho⟩
      · exact Table.nodup_append_row h.orderIds horder.2.2.1
      · exact Table.nodup_append_row h.orderKeys fun o ho heq ↦ hnone o ho (Prod.ext_iff.mp heq)
      · exact fun p hp ↦ (h.captured p hp).trans (hcapture p.paymentId).symm
      · intro p hp
        have hne : c.orderId ≠ p.paymentId := Ne.symm (horder.2.1 p hp)
        refine (hhas p.paymentId).trans ?_
        rw [hcapture, h.ordered p hp]
        simp [hne]
      · intro o ho p hp heq
        rcases List.mem_append.mp ho with ho | ho
        · exact h.orderOf o ho p hp heq
        · rw [List.mem_singleton.mp ho] at heq
          exact absurd heq (horder.2.1 p hp)
      · intro g hg
        refine (hhas g.orderId).trans ?_
        rcases List.mem_append.mp hg with hg | hg
        · simp [h.granted g hg]
        · simp [List.mem_singleton.mp hg, Purchase.entitlement, Purchase.order]
      · intro e he htype
        refine (hhas e.referenceId).trans ?_
        rcases List.mem_append.mp he with he | he
        · simp [h.entries e (hopened.entries_eq ▸ he) htype]
        · simp [List.mem_singleton.mp he, orderEntry]
      · intro o ho hbean
        rcases List.mem_append.mp ho with ho | ho
        · exact (h.bought o ho hbean).grow hgrows fun g hg _ _ ↦ List.mem_append_left _ hg
        · obtain rfl := List.mem_singleton.mp ho
          refine ⟨rfl, ⟨_, List.mem_append_right _ (List.mem_singleton.mpr rfl), rfl, rfl, rfl, ?_⟩,
            _, List.mem_append_right _ (List.mem_singleton.mpr rfl), rfl, rfl⟩
          exact (hopened.inOrder h.journal).wf.linesOf_add hadds

end Purchase

end Fabushi.Worker.PaymentDb
