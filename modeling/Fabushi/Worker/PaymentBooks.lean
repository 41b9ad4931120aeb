import Fabushi.Worker.PaymentAmounts

/-!
# The payment tables agree with the journal

A payment is captured exactly if its entry is posted, and then it has its order. An
order without a payment was bought: it is fulfilled, granted and booked. Every batch
keeps this, on whatever row its handler has read before.
-/

namespace Fabushi.Worker

open Result

/-! ## Names of entries -/

def EntryId.record : EntryId → String
  | .capture id | .refund id | .settlement id | .reconciliation id | .reserve id
  | .developerAdjustment id | .reserveRelease id | .order id | .payout id | .payoutPaid id
  | .payoutReversal id | .other id => id

def paymentReferenceTypes : List String :=
  ["payment", "payment_refund", "settlement_release", "settlement_original_order_split",
    "settlement_reserve", "settlement_reconciliation", "settlement_reserve_release", "order"]

/-- An entry refers to the record in its name; some are never left as drafts. -/
def JournalEntryRow.Named (e : JournalEntryRow) : Prop :=
  match e.entryId with
  | .capture id => e.referenceType = "payment" ∧ e.referenceId = id ∧ e.state = .posted
  | .refund id => e.referenceType = "payment_refund" ∧ e.referenceId = id
  | .settlement id => e.referenceType = "settlement_release" ∧ e.referenceId = id
  | .reconciliation id => (e.referenceType = "settlement_release" ∨
      e.referenceType = "settlement_original_order_split") ∧
      e.referenceId = "reconciliation-release:" ++ id
  | .reserve id => e.referenceType = "settlement_reserve" ∧ e.referenceId = id
  | .developerAdjustment id => e.referenceType = "settlement_reconciliation" ∧ e.referenceId = id
  | .reserveRelease id => e.referenceType = "settlement_reserve_release" ∧
      e.referenceId = "reserve-release:" ++ id ∧ e.state = .posted
  | .order _ => e.referenceType = "order" ∧ e.state = .posted
  | _ => e.referenceType ∉ paymentReferenceTypes

namespace JournalEntryRow.Named

variable {e : JournalEntryRow}

theorem of_payment (h : e.Named) (htype : e.referenceType = "payment") :
    e.entryId = .capture e.referenceId := by
  unfold Named at h
  cases hid : e.entryId <;> simp_all [paymentReferenceTypes]

theorem of_order (h : e.Named) (htype : e.referenceType = "order") :
    ∃ id, e.entryId = .order id ∧ e.state = .posted := by
  unfold Named at h
  cases hid : e.entryId <;> simp_all [paymentReferenceTypes]

theorem capture_posted (h : e.Named) {id : String} (hid : e.entryId = .capture id) :
    e.state = .posted := by
  unfold Named at h
  rw [hid] at h
  exact h.2.2

theorem reserveRelease_posted (h : e.Named) {id : String} (hid : e.entryId = .reserveRelease id) :
    e.referenceId = "reserve-release:" ++ id ∧ e.state = .posted := by
  unfold Named at h
  rw [hid] at h
  exact h.2

end JournalEntryRow.Named

namespace Journal

theorem isDraft_of_posted {j : Journal} {entryId : EntryId}
    (h : ∀ e ∈ j.entries, e.entryId = entryId → e.state = .posted) : j.isDraft entryId = false := by
  rw [Bool.eq_false_iff]
  intro hdraft
  obtain ⟨e, he, hid, hstate⟩ := isDraft_iff.mp hdraft
  cases hstate.symm.trans (h e he hid)

theorem isDraft_of_unused {j : Journal} {entryId : EntryId}
    (h : ∀ e ∈ j.entries, e.entryId ≠ entryId) : j.isDraft entryId = false :=
  isDraft_of_posted fun e he hid ↦ absurd hid (h e he)

end Journal

/-! ## Payments as their handlers know them -/

namespace PaymentRow

def intent (p : PaymentRow) : PaymentRow :=
  { p with
    status := .created
    providerReference := none
    refundedAmount := 0
    releasedDeveloperAmount := 0 }

section Opened

variable {j j' : Journal} (p : PaymentRow)

theorem opened_source (h : j.Opened j') (provider : String) (user : Bool) :
    j.Opened (p.openSource provider user j') := by
  unfold openSource
  split
  · exact h.account _ _ _ _
  · exact h.account _ _ _ _

theorem opened_pending (h : j.Opened j') : j.Opened (p.openPending j') :=
  h.account _ _ _ _

theorem opened_available (h : j.Opened j') : j.Opened (p.openAvailable j') :=
  h.account _ _ _ _

theorem opened_reserved (h : j.Opened j') : j.Opened (p.openReserved j') :=
  h.account _ _ _ _

theorem opened_platform (h : j.Opened j') : j.Opened (p.openPlatform j') :=
  h.account _ _ _ _

theorem opened_reconciliation (split : Bool) : j.Opened (p.openReconciliation split j) := by
  have hopened := (((p.opened_platform (p.opened_reserved (p.opened_available (p.opened_pending
    (.refl (j := j)))))).account p.providerCostAccount "platform" "provider-cost"
    p.currency).account p.taxAccount "platform" "tax-liability" p.currency).account
    p.chargebackAccount "platform" "chargeback-cost" p.currency
  unfold openReconciliation
  split
  · exact hopened.account _ _ _ _
  · exact hopened

end Opened

end PaymentRow

/-- An open payment may become anything, a captured one stays captured, an ended one ended. -/
def PaymentStatus.Leads (s s' : PaymentStatus) : Prop :=
  isOpenPayment s = true ∨ (isCaptured s = true ∧ isCaptured s' = true) ∨ s = s'

namespace PaymentStatus.Leads

theorem refl (s : PaymentStatus) : s.Leads s :=
  .inr (.inr rfl)

theorem trans {s s' s'' : PaymentStatus} (h : s.Leads s') (h' : s'.Leads s'') : s.Leads s'' := by
  rcases h with hopen | ⟨hs, hs'⟩ | rfl
  · exact .inl hopen
  · rcases h' with hopen | ⟨-, hs''⟩ | rfl
    · cases s' <;> simp_all [isOpenPayment, isCaptured]
    · exact .inr (.inl ⟨hs, hs''⟩)
    · exact .inr (.inl ⟨hs, hs'⟩)
  · exact h'

theorem captured {s s' : PaymentStatus} (h : s.Leads s') (hs : isCaptured s = true) :
    isCaptured s' = true := by
  rcases h with hopen | ⟨-, hs'⟩ | rfl
  · cases s <;> simp_all [isOpenPayment, isCaptured]
  · exact hs'
  · exact hs

end PaymentStatus.Leads

namespace PaymentDb

def Known (db : PaymentDb) (p : PaymentRow) : Prop :=
  ∃ q ∈ db.payments, q.intent = p.intent ∧ p.status.Leads q.status

theorem known_of_mem {db : PaymentDb} {p : PaymentRow} (h : p ∈ db.payments) : db.Known p :=
  ⟨p, h, rfl, .refl _⟩

def Bean (db : PaymentDb) (orderId : String) : Prop :=
  ∀ p ∈ db.payments, p.paymentId ≠ orderId

structure Keeps (db db' : PaymentDb) : Prop where
  intents : db'.payments.map (·.intent) = db.payments.map (·.intent)
  known : ∀ p ∈ db.payments, db'.Known p
  posted : ∀ entryId, db.journal.isPosted entryId = true → db'.journal.isPosted entryId = true
  orders : ∀ o ∈ db.orders, o.status = .fulfilled → db.Bean o.orderId → o ∈ db'.orders

theorem mem_of_intents {ps qs : List PaymentRow} (h : qs.map (·.intent) = ps.map (·.intent))
    {p : PaymentRow} (hp : p ∈ ps) : ∃ q ∈ qs, q.intent = p.intent := by
  have hmem : p.intent ∈ qs.map (·.intent) := h ▸ List.mem_map_of_mem hp
  exact List.mem_map.mp hmem

theorem paymentId_of_intent {p q : PaymentRow} (h : q.intent = p.intent) :
    q.paymentId = p.paymentId := by
  have hid : q.intent.paymentId = p.intent.paymentId := by rw [h]
  exact hid

theorem map_of_intents {ps qs : List PaymentRow} (h : qs.map (·.intent) = ps.map (·.intent))
    {κ : Type} (key : PaymentRow → κ) (hkey : ∀ p, key p.intent = key p) :
    qs.map key = ps.map key := by
  have hcomp : ∀ rows : List PaymentRow, rows.map key = (rows.map (·.intent)).map key := by
    intro rows
    simp [Function.comp_def, hkey]
  rw [hcomp, h, ← hcomp]

theorem bean_congr {db db' : PaymentDb}
    (h : db'.payments.map (·.intent) = db.payments.map (·.intent)) {orderId : String} :
    db'.Bean orderId ↔ db.Bean orderId := by
  constructor
  · intro hbean p hp heq
    obtain ⟨q, hq, hintent⟩ := mem_of_intents h hp
    exact hbean q hq ((paymentId_of_intent hintent).trans heq)
  · intro hbean q hq heq
    obtain ⟨p, hp, hintent⟩ := mem_of_intents h.symm hq
    exact hbean p hp ((paymentId_of_intent hintent).trans heq)

namespace Keeps

theorem refl (db : PaymentDb) : db.Keeps db where
  intents := rfl
  known _ hp := known_of_mem hp
  posted _ h := h
  orders _ ho _ _ := ho

theorem known_of_known {db db' : PaymentDb} (h : db.Keeps db') {p : PaymentRow}
    (hknown : db.Known p) : db'.Known p := by
  obtain ⟨q, hq, hintent, hleads⟩ := hknown
  obtain ⟨r, hr, hintent', hleads'⟩ := h.known q hq
  exact ⟨r, hr, hintent'.trans hintent, hleads.trans hleads'⟩

theorem trans {db₁ db₂ db₃ : PaymentDb} (h : db₁.Keeps db₂) (h' : db₂.Keeps db₃) :
    db₁.Keeps db₃ where
  intents := h'.intents.trans h.intents
  known p hp := h'.known_of_known (h.known p hp)
  posted id hid := h'.posted id (h.posted id hid)
  orders o ho hstatus hbean :=
    h'.orders o (h.orders o ho hstatus hbean) hstatus ((bean_congr h.intents).mpr hbean)

end Keeps

/-! ## The invariant -/

def orderLines (o : OrderRow) (entryId : EntryId) : List JournalLineRow :=
  [⟨entryId, "user", "user:" ++ o.buyerUserId ++ ":" ++ o.currency, o.currency, -o.amount⟩,
    ⟨entryId, "platform", "platform:content:" ++ o.currency, o.currency, o.amount⟩]

structure Bought (db : PaymentDb) (o : OrderRow) : Prop where
  fulfilled : o.status = .fulfilled
  booked : ∃ e ∈ db.journal.entries, e.referenceType = "order" ∧ e.referenceId = o.orderId ∧
    e.state = .posted ∧ db.journal.linesOf e.entryId = orderLines o e.entryId
  granted : ∃ g ∈ db.entitlements, g.orderId = o.orderId ∧ g.status = .active

structure Sound (db : PaymentDb) : Prop where
  journal : db.journal.InOrder JournalEntryRow.Named
  ids : (db.payments.map (·.paymentId)).Nodup
  keys : (db.payments.map fun p ↦ (p.userId, p.idempotencyKey)).Nodup
  valid : ∀ p ∈ db.payments, p.Valid
  orderIds : (db.orders.map (·.orderId)).Nodup
  orderKeys : (db.orders.map fun o ↦ (o.buyerUserId, o.idempotencyKey)).Nodup
  captured : ∀ p ∈ db.payments, isCaptured p.status = db.journal.isPosted (.capture p.paymentId)
  ordered : ∀ p ∈ db.payments, db.hasOrder p.paymentId = db.journal.isPosted (.capture p.paymentId)
  orderOf : ∀ o ∈ db.orders, ∀ p ∈ db.payments, p.paymentId = o.orderId →
    o.buyerUserId = p.userId ∧ o.idempotencyKey = p.idempotencyKey
  granted : ∀ g ∈ db.entitlements, db.hasOrder g.orderId = true
  entries : ∀ e ∈ db.journal.entries, e.referenceType = "order" → db.hasOrder e.referenceId = true
  bought : ∀ o ∈ db.orders, db.Bean o.orderId → db.Bought o

theorem hasOrder_iff {db : PaymentDb} {orderId : String} :
    db.hasOrder orderId = true ↔ ∃ o ∈ db.orders, o.orderId = orderId := by
  simp [hasOrder]

def Foreign : EntryId → Prop
  | .capture _ | .order _ => False
  | _ => True

theorem Bought.grow {db db' : PaymentDb} {o : OrderRow} (h : db.Bought o) {own : EntryId → Prop}
    (hgrows : db.journal.Grows own db'.journal)
    (hgranted : ∀ g ∈ db.entitlements, g.orderId = o.orderId → g.status = .active →
      g ∈ db'.entitlements) : db'.Bought o := by
  obtain ⟨e, he, htype, hreference, hposted, hlines⟩ := h.booked
  obtain ⟨g, hg, horder, hactive⟩ := h.granted
  refine ⟨h.fulfilled, ⟨e, hgrows.mem_of_mem he, htype, hreference, hposted, ?_⟩,
    g, hgranted g hg horder hactive, horder, hactive⟩
  rw [hgrows.linesOf_eq he, hlines]

theorem Sound.settle_entries {db db' : PaymentDb} (h : db.Sound)
    (hjournal : db'.journal.InOrder JournalEntryRow.Named) {own : EntryId → Prop}
    (hgrows : db.journal.Grows own db'.journal) (hown : ∀ id, ¬ own (.capture id))
    (hentries : ∀ e ∈ db'.journal.entries, e.referenceType = "order" →
      db.hasOrder e.referenceId = true)
    (hintents : db'.payments.map (·.intent) = db.payments.map (·.intent))
    (hvalid : ∀ q ∈ db'.payments, q.Valid)
    (hstatus : ∀ q ∈ db'.payments, ∃ p ∈ db.payments, q.intent = p.intent ∧
      isCaptured q.status = isCaptured p.status)
    (horders : db'.orders = db.orders) (hgranted : db'.entitlements = db.entitlements) :
    db'.Sound := by
  have hcapture : ∀ id, db'.journal.isPosted (.capture id) = db.journal.isPosted (.capture id) :=
    fun id ↦ hgrows.isPosted_eq (hown id)
  have hhas : ∀ id, db'.hasOrder id = db.hasOrder id := by
    intro id
    rw [hasOrder, horders, hasOrder]
  refine ⟨hjournal, ?_, ?_, hvalid, horders ▸ h.orderIds, horders ▸ h.orderKeys, ?_, ?_, ?_, ?_, ?_,
    ?_⟩
  · rw [map_of_intents hintents _ fun _ ↦ rfl]
    exact h.ids
  · rw [map_of_intents hintents _ fun _ ↦ rfl]
    exact h.keys
  · intro q hq
    obtain ⟨p, hp, hintent, hsame⟩ := hstatus q hq
    rw [hsame, hcapture, paymentId_of_intent hintent]
    exact h.captured p hp
  · intro q hq
    obtain ⟨p, hp, hintent, -⟩ := hstatus q hq
    rw [hhas, hcapture, paymentId_of_intent hintent]
    exact h.ordered p hp
  · intro o ho q hq heq
    obtain ⟨p, hp, hintent, -⟩ := hstatus q hq
    have hfields : q.intent.userId = p.intent.userId ∧
        q.intent.idempotencyKey = p.intent.idempotencyKey := by
      rw [hintent]
      exact ⟨rfl, rfl⟩
    have hof := h.orderOf o (horders ▸ ho) p hp ((paymentId_of_intent hintent).symm.trans heq)
    exact ⟨hof.1.trans hfields.1.symm, hof.2.trans hfields.2.symm⟩
  · intro g hg
    rw [hhas]
    exact h.granted g (hgranted ▸ hg)
  · intro e he htype
    rw [hhas]
    exact hentries e he htype
  · intro o ho hbean
    refine (h.bought o (horders ▸ ho) ((bean_congr hintents).mp hbean)).grow hgrows ?_
    intro g hg _ _
    rw [hgranted]
    exact hg

theorem Sound.settle {db db' : PaymentDb} (h : db.Sound)
    (hjournal : db'.journal.InOrder JournalEntryRow.Named)
    (hgrows : db.journal.Grows Foreign db'.journal)
    (hintents : db'.payments.map (·.intent) = db.payments.map (·.intent))
    (hvalid : ∀ q ∈ db'.payments, q.Valid)
    (hstatus : ∀ q ∈ db'.payments, ∃ p ∈ db.payments, q.intent = p.intent ∧
      isCaptured q.status = isCaptured p.status)
    (horders : db'.orders = db.orders) (hgranted : db'.entitlements = db.entitlements) :
    db'.Sound := by
  refine h.settle_entries hjournal hgrows (fun _ hcapture ↦ hcapture) ?_ hintents hvalid hstatus
    horders hgranted
  intro e he htype
  rcases hgrows.mem_or_own he with he | hown
  · exact h.entries e he htype
  · obtain ⟨id, hid, -⟩ := (hjournal.named e he).of_order htype
    rw [hid] at hown
    exact hown.elim

/-! ## Statements -/

theorem valid_of_check {p q : PaymentRow} (h : p.Valid) (hintent : q.intent = p.intent)
    (hcheck : q.check = true) : q.Valid := by
  have hfields : q.intent.amount = p.intent.amount ∧
      q.intent.platformFeeBps = p.intent.platformFeeBps := by
    rw [hintent]
    exact ⟨rfl, rfl⟩
  have hamount : q.amount = p.amount := hfields.1
  have hbps : q.platformFeeBps = p.platformFeeBps := hfields.2
  simp only [PaymentRow.check, Bool.and_eq_true, decide_eq_true_eq] at hcheck
  exact ⟨hamount ▸ h.positive, hamount ▸ h.bounded, hbps ▸ h.bps_nonneg, hbps ▸ h.bps_le,
    hcheck.1.1, hcheck.2, hcheck.1.2⟩

theorem updatePayments_eq_ok {db db' : PaymentDb} {selects : PaymentRow → Bool}
    {set : PaymentRow → PaymentRow} (h : db.updatePayments selects set = .ok db') :
    db' = { db with payments := Table.update selects set db.payments } ∧
      ∀ q ∈ db.payments, selects q = true → (set q).check = true := by
  obtain ⟨payments, hupdate, hdb⟩ := bind_eq_ok.mp h
  obtain ⟨rfl, hcheck⟩ := updateChecked_eq_ok hupdate
  exact ⟨(Except.ok.inj hdb).symm, hcheck⟩

theorem Sound.update {db : PaymentDb} (h : db.Sound) {j : Journal}
    (hjournal : j.InOrder JournalEntryRow.Named) (hgrows : db.journal.Grows Foreign j)
    {selects : PaymentRow → Bool} {set : PaymentRow → PaymentRow}
    (hcheck : ∀ q ∈ db.payments, selects q = true → (set q).check = true)
    (hintent : ∀ q, (set q).intent = q.intent)
    (hcaptured : ∀ q ∈ db.payments, selects q = true →
      isCaptured (set q).status = isCaptured q.status ∧ q.status.Leads (set q).status) :
    Sound { db with journal := j, payments := Table.update selects set db.payments } ∧
      db.Keeps { db with journal := j, payments := Table.update selects set db.payments } := by
  have hintents : (Table.update selects set db.payments).map (·.intent) =
      db.payments.map (·.intent) := Table.map_update hintent db.payments
  constructor
  · refine h.settle hjournal hgrows hintents ?_ ?_ rfl rfl
    · intro q' hq'
      obtain ⟨q, hq, rfl⟩ := Table.mem_update.mp hq'
      split
      · rename_i hsel
        exact valid_of_check (h.valid q hq) (hintent q) (hcheck q hq hsel)
      · exact h.valid q hq
    · intro q' hq'
      obtain ⟨q, hq, rfl⟩ := Table.mem_update.mp hq'
      refine ⟨q, hq, ?_⟩
      split
      · rename_i hsel
        exact ⟨hintent q, (hcaptured q hq hsel).1⟩
      · exact ⟨rfl, rfl⟩
  · refine ⟨hintents, ?_, fun id ↦ hgrows.isPosted_of_isPosted, fun o ho _ _ ↦ ho⟩
    intro q hq
    refine ⟨if selects q then set q else q, Table.mem_update.mpr ⟨q, hq, rfl⟩, ?_⟩
    split
    · rename_i hsel
      exact ⟨hintent q, (hcaptured q hq hsel).2⟩
    · exact ⟨rfl, .refl _⟩

theorem Sound.withJournal {db : PaymentDb} (h : db.Sound) {j : Journal}
    (hjournal : j.InOrder JournalEntryRow.Named) (hgrows : db.journal.Grows Foreign j) :
    Sound { db with journal := j } ∧ db.Keeps { db with journal := j } :=
  ⟨h.settle hjournal hgrows rfl h.valid (fun q hq ↦ ⟨q, hq, rfl, rfl⟩) rfl rfl,
    ⟨rfl, fun _ hp ↦ known_of_mem hp, fun _ ↦ hgrows.isPosted_of_isPosted, fun _ ho _ _ ↦ ho⟩⟩

theorem map_updateOrders {κ : Type} (key : OrderRow → κ)
    (hkey : ∀ (o : OrderRow) (status : OrderStatus), key { o with status } = key o)
    {db : PaymentDb} {selects : OrderRow → Bool} {status : OrderStatus} :
    (db.updateOrders selects status).orders.map key = db.orders.map key := by
  rw [updateOrders, Table.map_update]
  exact fun o ↦ hkey o status

theorem Sound.touch {db : PaymentDb} (h : db.Sound) {selects : OrderRow → Bool}
    {status : OrderStatus} {entitlements : List EntitlementRow}
    (hselects : ∀ o ∈ db.orders, db.Bean o.orderId → selects o = false)
    (hgranted : ∀ g ∈ entitlements, db.hasOrder g.orderId = true)
    (hkept : ∀ g ∈ db.entitlements, db.Bean g.orderId → g ∈ entitlements) :
    Sound { db.updateOrders selects status with entitlements } ∧
      db.Keeps { db.updateOrders selects status with entitlements } := by
  have hhas : ∀ id, (db.updateOrders selects status).hasOrder id = db.hasOrder id := by
    intro id
    rw [Bool.eq_iff_iff, hasOrder_iff, hasOrder_iff]
    constructor
    · rintro ⟨o', ho', hid⟩
      obtain ⟨o, ho, rfl⟩ := Table.mem_update.mp ho'
      refine ⟨o, ho, ?_⟩
      split at hid <;> exact hid
    · rintro ⟨o, ho, hid⟩
      refine ⟨_, Table.mem_update.mpr ⟨o, ho, rfl⟩, ?_⟩
      split <;> exact hid
  have hbean : ∀ o ∈ db.orders, db.Bean o.orderId → o ∈ (db.updateOrders selects status).orders := by
    intro o ho hb
    refine Table.mem_update.mpr ⟨o, ho, ?_⟩
    rw [hselects o ho hb]
    rfl
  refine ⟨⟨h.journal, h.ids, h.keys, h.valid, ?_, ?_, h.captured, ?_, ?_, ?_, ?_, ?_⟩,
    rfl, fun _ hp ↦ known_of_mem hp, fun _ hp ↦ hp, fun o ho _ hb ↦ hbean o ho hb⟩
  · exact (map_updateOrders (fun o ↦ o.orderId) fun _ _ ↦ rfl).symm ▸ h.orderIds
  · exact (map_updateOrders (fun o ↦ (o.buyerUserId, o.idempotencyKey)) fun _ _ ↦ rfl).symm ▸
      h.orderKeys
  · intro p hp
    exact (hhas p.paymentId).trans (h.ordered p hp)
  · intro o' ho' p hp heq
    obtain ⟨o, ho, rfl⟩ := Table.mem_update.mp ho'
    have hof := h.orderOf o ho p hp
    by_cases hsel : selects o = true
    · rw [if_pos hsel] at heq ⊢
      exact hof heq
    · rw [if_neg hsel] at heq ⊢
      exact hof heq
  · intro g hg
    exact (hhas g.orderId).trans (hgranted g hg)
  · intro e he htype
    exact (hhas e.referenceId).trans (h.entries e he htype)
  · intro o' ho' hb
    obtain ⟨o, ho, rfl⟩ := Table.mem_update.mp ho'
    have hb' : db.Bean o.orderId := by
      split at hb <;> exact hb
    rw [hselects o ho hb']
    have hsame : db.journal.Grows Foreign db.journal := .refl _
    have hown : db.Bought o := h.bought o ho hb'
    refine hown.grow hsame ?_
    intro g hg horder _
    exact hkept g hg (horder ▸ hb')

theorem Sound.takeBack {db : PaymentDb} (h : db.Sound) {p : PaymentRow} (hknown : db.Known p)
    (full : Bool) : (db.takeBack p full).Sound ∧ db.Keeps (db.takeBack p full) := by
  cases full with
  | false => exact ⟨h, .refl db⟩
  | true =>
      obtain ⟨q, hq, hintent, -⟩ := hknown
      have hnot : ∀ id, db.Bean id → id ≠ p.paymentId := by
        rintro id hbean rfl
        exact hbean q hq (paymentId_of_intent hintent)
      refine h.touch ?_ ?_ ?_
      · intro o _ hbean
        simpa using hnot o.orderId hbean
      · intro g' hg'
        obtain ⟨g, hg, rfl⟩ := Table.mem_update.mp hg'
        have hg₀ := h.granted g hg
        split <;> exact hg₀
      · intro g hg hbean
        refine Table.mem_update.mpr ⟨g, hg, ?_⟩
        rw [if_neg]
        simp [hnot g.orderId hbean]

theorem Sound.congr {db db' : PaymentDb} (h : db.Sound) (hjournal : db'.journal = db.journal)
    (hpayments : db'.payments = db.payments) (horders : db'.orders = db.orders)
    (hentitlements : db'.entitlements = db.entitlements) : db'.Sound ∧ db.Keeps db' := by
  refine ⟨h.settle (hjournal ▸ h.journal) (hjournal ▸ .refl _) (by rw [hpayments])
    (hpayments ▸ h.valid) ?_ horders hentitlements, ⟨by rw [hpayments], ?_, ?_, ?_⟩⟩
  · intro q hq
    exact ⟨q, hpayments ▸ hq, rfl, rfl⟩
  · exact fun p hp ↦ known_of_mem (hpayments ▸ hp)
  · exact fun id hid ↦ hjournal ▸ hid
  · exact fun o ho _ _ ↦ horders ▸ ho

/-! ## Generated identifiers -/

def NewId (db : PaymentDb) (id : String) : Prop :=
  (∀ e ∈ db.journal.entries, e.entryId.record ≠ id ∧ e.referenceId ≠ id) ∧
    (∀ p ∈ db.payments, p.paymentId ≠ id) ∧ (∀ o ∈ db.orders, o.orderId ≠ id) ∧
    (∀ g ∈ db.entitlements, g.entitlementId ≠ id) ∧ (∀ r ∈ db.refunds, r.refundId ≠ id) ∧
    (∀ r ∈ db.releases, r.releaseId ≠ id) ∧ ∀ r ∈ db.reconciliations, r.reconciliationId ≠ id

instance (db : PaymentDb) (id : String) : Decidable (db.NewId id) :=
  inferInstanceAs (Decidable (_ ∧ _ ∧ _ ∧ _ ∧ _ ∧ _ ∧ _))

theorem NewId.unused {db : PaymentDb} {id : String} (h : db.NewId id) {entryId : EntryId}
    (hrecord : entryId.record = id) : ∀ e ∈ db.journal.entries, e.entryId ≠ entryId := by
  intro e he heq
  exact (h.1 e he).1 (heq ▸ hrecord)

/-! ## Refunds and releases -/

theorem captured_refunded {s : PaymentStatus} (hs : isCaptured s = true) (full : Bool) :
    isCaptured (if full then .refunded else .partiallyRefunded) = isCaptured s ∧
      s.Leads (if full then .refunded else .partiallyRefunded) := by
  have hnew : isCaptured (if full then .refunded else .partiallyRefunded) = true := by
    cases full <;> rfl
  exact ⟨hnew.trans hs.symm, .inr (.inl ⟨hs, hnew⟩)⟩

theorem Known.captured {db : PaymentDb} (h : db.Sound) {p : PaymentRow} (hknown : db.Known p)
    (hcaptured : isCaptured p.status = true) {q : PaymentRow} (hq : q ∈ db.payments)
    (hid : q.paymentId = p.paymentId) : isCaptured q.status = true := by
  obtain ⟨r, hr, hintent, hleads⟩ := hknown
  have heq : q = r := Table.eq_of_key_eq h.ids hq hr (hid.trans (paymentId_of_intent hintent).symm)
  rw [heq]
  exact hleads.captured hcaptured

theorem Sound.book {db : PaymentDb} (h : db.Sound) {j j' : Journal} (hopened : db.journal.Opened j)
    {guard : Bool} {entryId : EntryId} {referenceType referenceId : String}
    {lines : List JournalLineRow} (hlines : Journal.EntryLines entryId lines)
    (hbook : j.book guard entryId referenceType referenceId lines = .ok j')
    (hforeign : Foreign entryId)
    (hclosed : ∀ e ∈ db.journal.entries, e.entryId = entryId → e.state = .posted)
    (hnames : guard = true → (Journal.booked entryId referenceType referenceId lines).Named) :
    j'.InOrder JournalEntryRow.Named ∧ db.journal.Grows Foreign j' := by
  have hdraft : j.isDraft entryId = false :=
    Journal.isDraft_of_posted (hopened.entries_eq ▸ hclosed)
  obtain ⟨hjournal, hgrows⟩ := (hopened.inOrder h.journal).book hdraft hlines hnames hbook
  refine ⟨hjournal, hopened.grows.trans (hgrows.mono ?_)⟩
  rintro id ⟨-, rfl⟩
  exact hforeign

theorem NewId.closed {db : PaymentDb} {id : String} (h : db.NewId id) {entryId : EntryId}
    (hrecord : entryId.record = id) :
    ∀ e ∈ db.journal.entries, e.entryId = entryId → e.state = .posted :=
  fun e he heq ↦ absurd heq (h.unused hrecord e he)

theorem applyRefund_sound {db db' : PaymentDb} (h : db.Sound) {p : PaymentRow}
    {provider reference eventId refundId : String} {amount : ℤ} (hnew : db.NewId refundId)
    (hknown : db.Known p) (hcaptured : isCaptured p.status = true) (hpos : 0 < amount)
    (hrun : db.applyRefund p provider reference eventId refundId amount = .ok (db', ())) :
    db'.Sound ∧ db.Keeps db' := by
  obtain ⟨j, hbook, hrun⟩ := bind_eq_ok.mp hrun
  obtain ⟨db₁, hupdate, hrun⟩ := bind_eq_ok.mp hrun
  obtain rfl := congrArg Prod.fst (Except.ok.inj hrun)
  obtain ⟨rfl, hcheck⟩ := updatePayments_eq_ok hupdate
  have hopened := p.opened_platform (p.opened_available (p.opened_pending (p.opened_source
    (.refl (j := db.journal)) provider (p.rail = .credits))))
  obtain ⟨hjournal, hgrows⟩ := h.book hopened
    (p.refundLines_ok provider refundId amount hpos) hbook trivial (hnew.closed rfl)
    fun _ ↦ ⟨rfl, rfl⟩
  obtain ⟨hsound₀, hkeeps₀⟩ : (db.insertRefund p reference eventId refundId amount).Sound ∧
      db.Keeps (db.insertRefund p reference eventId refundId amount) := h.congr rfl rfl rfl rfl
  obtain ⟨hsound₁, hkeeps₁⟩ := hsound₀.update hjournal hgrows hcheck (fun _ ↦ rfl) (by
    intro q hq hsel
    simp only [Bool.and_eq_true, decide_eq_true_eq] at hsel
    exact captured_refunded (hknown.captured h hcaptured hq hsel.1) _)
  have hkeeps := hkeeps₀.trans hkeeps₁
  obtain ⟨hsound₂, hkeeps₂⟩ := hsound₁.takeBack (hkeeps.known_of_known hknown)
    (p.newRefunded amount = p.amount)
  exact ⟨hsound₂, hkeeps.trans hkeeps₂⟩

theorem applyReconciledRefund_sound {db db' : PaymentDb} (h : db.Sound) {p : PaymentRow}
    {r : ReconciliationRow} {provider reference eventId refundId : String} {amount : ℤ}
    (hnew : db.NewId refundId) (hknown : db.Known p) (hcaptured : isCaptured p.status = true)
    (hpos : 0 < amount)
    (hrun : db.applyReconciledRefund p r provider reference eventId refundId amount =
      .ok (db', ())) : db'.Sound ∧ db.Keeps db' := by
  obtain ⟨j, hbook, hrun⟩ := bind_eq_ok.mp hrun
  obtain ⟨db₁, hreconciled, hrun⟩ := bind_eq_ok.mp hrun
  obtain ⟨rows, -, hrows⟩ := bind_eq_ok.mp hreconciled
  obtain rfl := Except.ok.inj hrows
  obtain ⟨db₂, hupdate, hrun⟩ := bind_eq_ok.mp hrun
  obtain rfl := congrArg Prod.fst (Except.ok.inj hrun)
  obtain ⟨rfl, hcheck⟩ := updatePayments_eq_ok hupdate
  have hopened := (p.opened_platform (p.opened_reserved (p.opened_available (p.opened_source
    (.refl (j := db.journal)) provider (p.rail = .credits))))).account p.refundLossAccount
    "platform" "refund-loss" p.currency
  obtain ⟨hjournal, hgrows⟩ := h.book hopened
    (p.reconciledRefundLines_ok r provider refundId amount hpos) hbook trivial (hnew.closed rfl)
    fun _ ↦ ⟨rfl, rfl⟩
  let db₀ := { db.insertRefund p reference eventId refundId amount with reconciliations := rows }
  obtain ⟨hsound₀, hkeeps₀⟩ : db₀.Sound ∧ db.Keeps db₀ := h.congr rfl rfl rfl rfl
  obtain ⟨hsound₁, hkeeps₁⟩ := hsound₀.update hjournal hgrows hcheck (fun _ ↦ rfl) (by
    intro q hq hsel
    simp only [Bool.and_eq_true, decide_eq_true_eq] at hsel
    exact captured_refunded (hknown.captured h hcaptured hq hsel.1) _)
  have hkeeps := hkeeps₀.trans hkeeps₁
  obtain ⟨hsound₂, hkeeps₂⟩ := hsound₁.takeBack (hkeeps.known_of_known hknown)
    (p.newRefunded amount = p.amount)
  exact ⟨hsound₂, hkeeps.trans hkeeps₂⟩

theorem releaseSettlement_sound {db db' : PaymentDb} (h : db.Sound) {p : PaymentRow}
    {key releaseId : String} {amount : ℤ} (hnew : db.NewId releaseId) (hpos : 0 < amount)
    (hrun : db.releaseSettlement p key releaseId amount = .ok (db', ())) :
    db'.Sound ∧ db.Keeps db' := by
  obtain ⟨j, hbook, hrun⟩ := bind_eq_ok.mp hrun
  obtain ⟨db₁, hupdate, hrun⟩ := bind_eq_ok.mp hrun
  obtain rfl := congrArg Prod.fst (Except.ok.inj hrun)
  obtain ⟨rfl, hcheck⟩ := updatePayments_eq_ok hupdate
  have hopened := p.opened_available (p.opened_pending (.refl (j := db.journal)))
  obtain ⟨hjournal, hgrows⟩ := h.book hopened (p.releaseLines_ok releaseId hpos).1 hbook
    trivial (hnew.closed rfl) fun _ ↦ ⟨rfl, rfl⟩
  let releases := Table.insertOrIgnore ReleaseRow.conflicts ⟨releaseId, p.paymentId, key, amount⟩
    db.releases
  let db₀ := { db with releases }
  obtain ⟨hsound₀, hkeeps₀⟩ : db₀.Sound ∧ db.Keeps db₀ := h.congr rfl rfl rfl rfl
  obtain ⟨hsound₁, hkeeps₁⟩ := hsound₀.update hjournal hgrows hcheck (fun _ ↦ rfl)
    fun q _ _ ↦ ⟨rfl, .refl _⟩
  exact ⟨hsound₁, hkeeps₀.trans hkeeps₁⟩

theorem endPayment_sound {db db' : PaymentDb} (h : db.Sound) {paymentId : String}
    {status : PaymentStatus} {reference : Option String} (hended : isCaptured status = false)
    (hrun : db.endPayment paymentId status reference = .ok (db', ())) :
    db'.Sound ∧ db.Keeps db' := by
  obtain ⟨db₁, hupdate, hrun⟩ := bind_eq_ok.mp hrun
  obtain ⟨_, -, hrun⟩ := bind_eq_ok.mp hrun
  obtain rfl := congrArg Prod.fst (Except.ok.inj hrun)
  obtain ⟨rfl, hcheck⟩ := updatePayments_eq_ok hupdate
  refine h.update h.journal (.refl _) hcheck (fun _ ↦ rfl) ?_
  intro q _ hsel
  simp only [Bool.and_eq_true, decide_eq_true_eq] at hsel
  refine ⟨?_, .inl hsel.2⟩
  rw [hended]
  cases hq : q.status <;> simp_all [isOpenPayment, isCaptured]

/-! ## Reconciliations and reserves -/

theorem releaseReserve_sound {db db' : PaymentDb} (h : db.Sound) {r : ReconciliationRow} {now : ℤ}
    (hpos : 0 < r.reserveAmount) (hrun : db.releaseReserve r now = .ok (db', ())) :
    db'.Sound ∧ db.Keeps db' := by
  obtain ⟨j, hbook, hrun⟩ := bind_eq_ok.mp hrun
  obtain ⟨db₁, hreconciled, hrun⟩ := bind_eq_ok.mp hrun
  obtain rfl := congrArg Prod.fst (Except.ok.inj hrun)
  obtain ⟨rows, -, hrows⟩ := bind_eq_ok.mp hreconciled
  obtain rfl := Except.ok.inj hrows
  have hopened := ((Journal.Opened.refl (j := db.journal)).account r.reservedAccount "developer"
    (r.developerId ++ ":reserved") r.currency).account r.availableAccount "developer"
    (r.developerId ++ ":available") r.currency
  obtain ⟨hlines, hbalanced⟩ := r.releaseLines_ok hpos
  obtain ⟨hjournal, hgrows⟩ := h.book hopened hlines hbook trivial
    (fun e he hid ↦ ((h.journal.named e he).reserveRelease_posted hid).2)
    fun _ ↦ ⟨rfl, rfl, by simp [Journal.booked, hbalanced]⟩
  obtain ⟨hsound, hkeeps⟩ := h.withJournal hjournal hgrows
  exact And.imp_right hkeeps.trans (hsound.congr rfl rfl rfl rfl)

theorem bookNew_sound {db db' : PaymentDb} (h : db.Sound) {entryId : EntryId}
    {referenceType referenceId : String} {lines : List JournalLineRow}
    (hlines : Journal.EntryLines entryId lines) (hforeign : Foreign entryId)
    (hnames : (Journal.booked entryId referenceType referenceId lines).Named)
    (hrun : db.bookNew entryId referenceType referenceId lines = .ok db') :
    db'.Sound ∧ db.Keeps db' := by
  obtain ⟨_, hunused, hrun⟩ := bind_eq_ok.mp hrun
  obtain ⟨j, hbook, hrun⟩ := bind_eq_ok.mp hrun
  obtain rfl := Except.ok.inj hrun
  have hclosed : ∀ e ∈ db.journal.entries, e.entryId = entryId → e.state = .posted := by
    intro e he hid
    have hnone := ensure_eq_ok.mp hunused
    simp only [List.any_eq_true, not_exists, not_and, Bool.not_eq_true] at hnone
    have hconflict := hnone e he
    simp [JournalEntryRow.conflicts, hid] at hconflict
  obtain ⟨hjournal, hgrows⟩ := h.book .refl hlines hbook hforeign hclosed fun _ ↦ hnames
  exact h.withJournal hjournal hgrows

theorem named_payable (reconciliationId : String) (split : Bool) (lines : List JournalLineRow) :
    (Journal.booked (.reconciliation reconciliationId)
      (if split then "settlement_original_order_split" else "settlement_release")
      ("reconciliation-release:" ++ reconciliationId) lines).Named := by
  cases split with
  | true => exact ⟨.inr rfl, rfl⟩
  | false => exact ⟨.inl rfl, rfl⟩

theorem reconcile_sound {db db' : PaymentDb} (h : db.Sound) {p : PaymentRow}
    {input : ReconcileRequest} {reconciliationId : String} {split : Bool} {now : ℤ}
    (hrun : db.reconcile p input reconciliationId split now = .ok (db', ())) :
    db'.Sound ∧ db.Keeps db' := by
  obtain ⟨db₁, hinsert, hrun⟩ := bind_eq_ok.mp hrun
  obtain ⟨db₂, hadjust, hrun⟩ := bind_eq_ok.mp hrun
  obtain ⟨db₃, hreserve, hrun⟩ := bind_eq_ok.mp hrun
  obtain ⟨db₄, hpayable, hrun⟩ := bind_eq_ok.mp hrun
  obtain ⟨db₅, hupdate, hrun⟩ := bind_eq_ok.mp hrun
  obtain rfl := congrArg Prod.fst (Except.ok.inj hrun)
  have hopened := p.opened_reconciliation (j := db.journal) split
  obtain ⟨hsound₀, hkeeps₀⟩ := h.withJournal (hopened.inOrder h.journal) hopened.grows
  have h₁ : db₁.Sound ∧ db.Keeps db₁ := by
    obtain ⟨_, -, hinsert⟩ := bind_eq_ok.mp hinsert
    obtain ⟨_, -, hinsert⟩ := bind_eq_ok.mp hinsert
    obtain rfl := Except.ok.inj hinsert
    exact And.imp_right hkeeps₀.trans (hsound₀.congr rfl rfl rfl rfl)
  have h₂ : db₂.Sound ∧ db.Keeps db₂ := by
    unfold bookAdjustment at hadjust
    split at hadjust
    · obtain ⟨hsound, hkeeps⟩ := bookNew_sound h₁.1 (p.adjustmentLines_ok reconciliationId input)
        trivial ⟨rfl, rfl⟩ hadjust
      exact ⟨hsound, h₁.2.trans hkeeps⟩
    · exact Except.ok.inj hadjust ▸ h₁
  have h₃ : db₃.Sound ∧ db.Keeps db₃ := by
    unfold bookReserve at hreserve
    split at hreserve
    · rename_i hpos
      obtain ⟨hsound, hkeeps⟩ := bookNew_sound h₂.1 (p.reserveLines_ok reconciliationId hpos).1
        trivial ⟨rfl, rfl⟩ hreserve
      exact ⟨hsound, h₂.2.trans hkeeps⟩
    · exact Except.ok.inj hreserve ▸ h₂
  have h₄ : db₄.Sound ∧ db.Keeps db₄ := by
    simp only [bookPayable] at hpayable
    by_cases hpos : 0 < input.developerPayable p
    · rw [if_pos hpos] at hpayable
      obtain ⟨db', hrelease, hpayable⟩ := bind_eq_ok.mp hpayable
      obtain ⟨_, -, hrelease⟩ := bind_eq_ok.mp hrelease
      obtain ⟨_, -, hrelease⟩ := bind_eq_ok.mp hrelease
      obtain rfl := Except.ok.inj hrelease
      let row : ReleaseRow := ⟨"reconciliation-release:" ++ reconciliationId, p.paymentId,
        "release:" ++ input.idempotencyKey, input.developerPayable p⟩
      let db₀ := { db₃ with releases := db₃.releases ++ [row] }
      have h₀ : db₀.Sound ∧ db₃.Keeps db₀ := h₃.1.congr rfl rfl rfl rfl
      obtain ⟨hsound, hkeeps⟩ := bookNew_sound h₀.1
        (p.payableLines_ok reconciliationId split hpos).1 trivial
        (named_payable reconciliationId split _) hpayable
      exact ⟨hsound, h₃.2.trans (h₀.2.trans hkeeps)⟩
    · rw [if_neg hpos] at hpayable
      exact Except.ok.inj hpayable ▸ h₃
  obtain ⟨rfl, hcheck⟩ := updatePayments_eq_ok hupdate
  obtain ⟨hsound₅, hkeeps₅⟩ := h₄.1.update h₄.1.journal (.refl _) hcheck (fun _ ↦ rfl)
    fun q _ _ ↦ ⟨rfl, .refl _⟩
  exact And.imp_right (h₄.2.trans hkeeps₅).trans (hsound₅.congr rfl rfl rfl rfl)

end PaymentDb

end Fabushi.Worker
