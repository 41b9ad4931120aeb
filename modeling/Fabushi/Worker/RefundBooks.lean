import Fabushi.Worker.CaptureBooks

/-!
# Refunds and releases, case by case

What the batches of refunds and releases do to the tables. Each either finds its key in
use and books nothing, or books one entry and moves the amounts of its payment.
-/

namespace Fabushi.Worker

open Result

def PaymentRow.refundRow (p : PaymentRow) (reference eventId refundId : String) (amount : ℤ) :
    RefundRow where
  refundId
  paymentId := p.paymentId
  idempotencyKey := eventId
  providerRefundId := reference
  currency := p.currency
  amount

/-- The refund is of all that was left. -/
def PaymentRow.isFull (p : PaymentRow) (amount : ℤ) : Bool :=
  p.newRefunded amount = p.amount

def PaymentRow.refund (p : PaymentRow) (amount : ℤ) (q : PaymentRow) : PaymentRow :=
  { q with
    refundedAmount := p.newRefunded amount
    releasedDeveloperAmount := q.releasedDeveloperAmount - p.availableDebit amount
    status := if p.isFull amount then .refunded else .partiallyRefunded }

def ReconciliationRow.refundPayment (r : ReconciliationRow) (p : PaymentRow) (amount : ℤ)
    (q : PaymentRow) : PaymentRow :=
  { q with
    refundedAmount := p.newRefunded amount
    releasedDeveloperAmount := r.newAfterPlatform p amount
    status := if p.isFull amount then .refunded else .partiallyRefunded }

namespace PaymentDb

def refundEntry (refundId : String) (state : EntryState) : JournalEntryRow :=
  ⟨.refund refundId, "payment_refund", refundId, state⟩

inductive RefundStep (p : PaymentRow) (provider reference eventId refundId : String) (amount : ℤ)
    (db : PaymentDb) : PaymentDb → Prop
  /-- The event or the reference was used before; a full refund still takes the order back. -/
  | ignored {j : Journal} (hopened : db.journal.Opened j)
      (hused : ∃ old ∈ db.refunds, old.conflicts (p.refundRow reference eventId refundId amount)) :
      RefundStep p provider reference eventId refundId amount db
        ({ db with journal := j }.takeBack p (p.isFull amount))
  | booked {j : Journal} (hopened : db.journal.Opened j)
      (hunused : ∀ old ∈ db.refunds,
        old.conflicts (p.refundRow reference eventId refundId amount) = false)
      (hadds : j.Adds (refundEntry refundId .posted) (p.refundLines provider refundId amount))
      (hcheck : ∀ q ∈ db.payments, q.paymentId = p.paymentId → (p.refund amount q).check = true) :
      RefundStep p provider reference eventId refundId amount db
        ({ db with
          journal := j.add (refundEntry refundId .posted) (p.refundLines provider refundId amount)
          refunds := db.refunds ++ [p.refundRow reference eventId refundId amount]
          payments := Table.update (fun q ↦ q.paymentId = p.paymentId) (p.refund amount)
            db.payments }.takeBack p (p.isFull amount))

inductive ReconciledRefundStep (p : PaymentRow) (r : ReconciliationRow)
    (provider reference eventId refundId : String) (amount : ℤ) (db : PaymentDb) : PaymentDb → Prop
  | ignored {j : Journal} (hopened : db.journal.Opened j)
      (hused : ∃ old ∈ db.refunds, old.conflicts (p.refundRow reference eventId refundId amount)) :
      ReconciledRefundStep p r provider reference eventId refundId amount db
        ({ db with journal := j }.takeBack p (p.isFull amount))
  /-- The lines do not balance and the entry stays a draft. -/
  | drafted {j : Journal} (hopened : db.journal.Opened j)
      (hunused : ∀ old ∈ db.refunds,
        old.conflicts (p.refundRow reference eventId refundId amount) = false)
      (hunbalanced : Journal.isBalanced (r.refundLines p amount provider refundId) = false)
      (hadds : j.Adds (refundEntry refundId .draft) (r.refundLines p amount provider refundId)) :
      ReconciledRefundStep p r provider reference eventId refundId amount db
        ({ db with
          journal := j.add (refundEntry refundId .draft) (r.refundLines p amount provider refundId)
          refunds := db.refunds ++ [p.refundRow reference eventId refundId amount]
          }.takeBack p (p.isFull amount))
  | booked {j : Journal} (hopened : db.journal.Opened j)
      (hunused : ∀ old ∈ db.refunds,
        old.conflicts (p.refundRow reference eventId refundId amount) = false)
      (hbalanced : Journal.isBalanced (r.refundLines p amount provider refundId) = true)
      (hadds : j.Adds (refundEntry refundId .posted) (r.refundLines p amount provider refundId))
      (hchecks : ∀ q ∈ db.reconciliations, q.reconciliationId = r.reconciliationId →
        (r.refunded p amount q).check = true)
      (hcheck : ∀ q ∈ db.payments, q.paymentId = p.paymentId →
        (r.refundPayment p amount q).check = true) :
      ReconciledRefundStep p r provider reference eventId refundId amount db
        ({ db with
          journal := j.add (refundEntry refundId .posted) (r.refundLines p amount provider refundId)
          refunds := db.refunds ++ [p.refundRow reference eventId refundId amount]
          reconciliations := Table.update (fun q ↦ q.reconciliationId = r.reconciliationId)
            (r.refunded p amount) db.reconciliations
          payments := Table.update (fun q ↦ q.paymentId = p.paymentId) (r.refundPayment p amount)
            db.payments }.takeBack p (p.isFull amount))

def release (amount : ℤ) (q : PaymentRow) : PaymentRow :=
  { q with releasedDeveloperAmount := q.releasedDeveloperAmount + amount }

def releaseEntry (releaseId : String) : JournalEntryRow :=
  ⟨.settlement releaseId, "settlement_release", releaseId, .posted⟩

inductive ReleaseStep (p : PaymentRow) (key releaseId : String) (amount : ℤ) (db : PaymentDb) :
    PaymentDb → Prop
  | ignored {j : Journal} (hopened : db.journal.Opened j) :
      ReleaseStep p key releaseId amount db { db with journal := j }
  | booked {j : Journal} (hopened : db.journal.Opened j)
      (hunused : ∀ old ∈ db.releases,
        old.conflicts ⟨releaseId, p.paymentId, key, amount⟩ = false)
      (hadds : j.Adds (releaseEntry releaseId) (p.releaseLines releaseId amount))
      (hcheck : ∀ q ∈ db.payments, q.paymentId = p.paymentId → (release amount q).check = true) :
      ReleaseStep p key releaseId amount db
        { db with
          journal := j.add (releaseEntry releaseId) (p.releaseLines releaseId amount)
          releases := db.releases ++ [⟨releaseId, p.paymentId, key, amount⟩]
          payments := Table.update (fun q ↦ q.paymentId = p.paymentId) (release amount)
            db.payments }

section

variable {db db' : PaymentDb} {p : PaymentRow} {r : ReconciliationRow}
  {provider reference eventId refundId : String} {amount : ℤ}

theorem book_new (h : db.Sound) {j j' : Journal} (hopened : db.journal.Opened j) {id : String}
    (hnew : db.NewId id) {guard : Bool} {entryId : EntryId} (hrecord : entryId.record = id)
    {referenceType : String} {lines : List JournalLineRow}
    (hlines : Journal.EntryLines entryId lines)
    (hbook : j.book guard entryId referenceType id lines = .ok j') :
    (guard = false ∧ j' = j ∧ j'.isPosted entryId = false) ∨
      (guard = true ∧ j.Adds (Journal.booked entryId referenceType id lines) lines ∧
        j' = j.add (Journal.booked entryId referenceType id lines) lines ∧
        j'.isPosted entryId = Journal.isBalanced lines) := by
  have hunused : ∀ e ∈ j.entries, e.entryId ≠ entryId :=
    hopened.entries_eq ▸ hnew.unused hrecord
  have hfree : j.EntryUnused entryId referenceType id := by
    intro e he
    refine ⟨hunused e he, fun hboth ↦ ?_⟩
    exact (hnew.1 e (hopened.entries_eq ▸ he)).2 hboth.2
  have hwf := (hopened.inOrder h.journal).wf
  rcases hwf.book_cases (Journal.isDraft_of_unused hunused) hlines hbook with
    ⟨rfl, hused⟩ | ⟨hguard, hadds, rfl⟩
  · refine .inl ⟨?_, rfl, Journal.isPosted_unused hunused⟩
    rw [Bool.eq_false_iff]
    exact fun hguard ↦ hused hguard hfree
  · refine .inr ⟨hguard, hadds, rfl, ?_⟩
    rw [Journal.isPosted_add, Journal.isPosted_unused hunused]
    by_cases hbalanced : Journal.isBalanced lines = true <;> simp [Journal.booked, hbalanced]

theorem hasRefund_eq (hnew : db.NewId refundId) {refunds : List RefundRow}
    (h : refunds = db.refunds) : ({ db with refunds } : PaymentDb).hasRefund refundId = false := by
  subst h
  simpa [hasRefund] using hnew.2.2.2.2.1

theorem insertRefund_cases (h : db.Sound) (hnew : db.NewId refundId) {j j' : Journal}
    (hopened : db.journal.Opened j) {lines : List JournalLineRow}
    (hlines : Journal.EntryLines (.refund refundId) lines)
    (hbook : j.book (({ db with journal := j }.insertRefund p reference eventId refundId
      amount).hasRefund refundId) (.refund refundId) "payment_refund" refundId lines = .ok j') :
    ((∃ old ∈ db.refunds, old.conflicts (p.refundRow reference eventId refundId amount)) ∧
      ({ db with journal := j }.insertRefund p reference eventId refundId amount) =
        { db with journal := j } ∧ j' = j ∧ j'.isPosted (.refund refundId) = false) ∨
      ((∀ old ∈ db.refunds,
          old.conflicts (p.refundRow reference eventId refundId amount) = false) ∧
        ({ db with journal := j }.insertRefund p reference eventId refundId amount) =
          { db with
            journal := j
            refunds := db.refunds ++ [p.refundRow reference eventId refundId amount] } ∧
        j.Adds (Journal.booked (.refund refundId) "payment_refund" refundId lines) lines ∧
        j' = j.add (Journal.booked (.refund refundId) "payment_refund" refundId lines) lines ∧
        j'.isPosted (.refund refundId) = Journal.isBalanced lines) := by
  have hrows : ({ db with journal := j }.insertRefund p reference eventId refundId amount) =
      { db with
        journal := j
        refunds := Table.insertOrIgnore RefundRow.conflicts
          (p.refundRow reference eventId refundId amount) db.refunds } := rfl
  rcases Table.insertOrIgnore_cases RefundRow.conflicts
    (p.refundRow reference eventId refundId amount) db.refunds with
    ⟨hused, hsame⟩ | ⟨hunused, happended⟩
  · rw [hrows, hsame] at hbook ⊢
    rcases book_new h hopened hnew rfl hlines hbook with ⟨-, hj, hposted⟩ | ⟨hguard, -⟩
    · exact .inl ⟨hused, rfl, hj, hposted⟩
    · rw [show ({ db with journal := j } : PaymentDb).hasRefund refundId = false from
        hasRefund_eq hnew rfl] at hguard
      cases hguard
  · rw [hrows, happended] at hbook ⊢
    rcases book_new h hopened hnew rfl hlines hbook with ⟨hguard, -⟩ | ⟨-, hadds, hj, hposted⟩
    · simp [hasRefund, PaymentRow.refundRow] at hguard
    · exact .inr ⟨hunused, rfl, hadds, hj, hposted⟩

theorem update_none {α : Type} {selects : α → Bool} {set : α → α} {rows : List α} :
    Table.update (fun row ↦ selects row && false) set rows = rows :=
  update_eq_self fun _ _ ↦ Bool.and_false _

theorem applyRefund_step (h : db.Sound) (hnew : db.NewId refundId) (hvalid : p.Valid)
    (hpos : 0 < amount) (hle : amount ≤ p.amount - p.refundedAmount)
    (hrun : db.applyRefund p provider reference eventId refundId amount = .ok (db', ())) :
    RefundStep p provider reference eventId refundId amount db db' := by
  obtain ⟨j, hbook, hrun⟩ := bind_eq_ok.mp hrun
  obtain ⟨db₁, hupdate, hrun⟩ := bind_eq_ok.mp hrun
  obtain rfl := congrArg Prod.fst (Except.ok.inj hrun)
  obtain ⟨rfl, hcheck⟩ := updatePayments_eq_ok hupdate
  have hopened := p.opened_platform (p.opened_available (p.opened_pending (p.opened_source
    (.refl (j := db.journal)) provider (p.rail = .credits))))
  have hbalanced := hvalid.refundLines_balanced provider refundId hpos hle
  rcases insertRefund_cases h hnew hopened (p.refundLines_ok provider refundId amount hpos) hbook
    with ⟨hused, hsame, rfl, hposted⟩ | ⟨hunused, hsame, hadds, rfl, hposted⟩
  · simp only [hsame, hposted, update_none]
    exact .ignored hopened hused
  · have hentry : Journal.booked (.refund refundId) "payment_refund" refundId
        (p.refundLines provider refundId amount) = refundEntry refundId .posted := by
      rw [Journal.booked, hbalanced]
      rfl
    rw [hbalanced] at hposted
    simp only [hposted, Bool.and_true] at hcheck ⊢
    rw [hentry] at hadds
    rw [hsame, hentry]
    refine .booked hopened hunused hadds fun q hq hid ↦ ?_
    rw [hsame] at hcheck
    exact hcheck q hq (by simpa using hid)

theorem applyReconciledRefund_step (h : db.Sound) (hnew : db.NewId refundId) (hpos : 0 < amount)
    (hrun : db.applyReconciledRefund p r provider reference eventId refundId amount =
      .ok (db', ())) :
    ReconciledRefundStep p r provider reference eventId refundId amount db db' := by
  obtain ⟨j, hbook, hrun⟩ := bind_eq_ok.mp hrun
  obtain ⟨db₁, hreconciled, hrun⟩ := bind_eq_ok.mp hrun
  obtain ⟨rows, hrows, hreconciled⟩ := bind_eq_ok.mp hreconciled
  obtain rfl := Except.ok.inj hreconciled
  obtain ⟨rfl, hchecks⟩ := updateChecked_eq_ok hrows
  obtain ⟨db₂, hupdate, hrun⟩ := bind_eq_ok.mp hrun
  obtain rfl := congrArg Prod.fst (Except.ok.inj hrun)
  obtain ⟨rfl, hcheck⟩ := updatePayments_eq_ok hupdate
  have hopened := (p.opened_platform (p.opened_reserved (p.opened_available (p.opened_source
    (.refl (j := db.journal)) provider (p.rail = .credits))))).account p.refundLossAccount
    "platform" "refund-loss" p.currency
  have hlines := p.reconciledRefundLines_ok r provider refundId amount hpos
  rcases insertRefund_cases h hnew hopened hlines hbook
    with ⟨hused, hsame, rfl, hposted⟩ | ⟨hunused, hsame, hadds, rfl, hposted⟩
  · simp only [hsame, hposted, update_none]
    exact .ignored hopened hused
  · cases hbalanced : Journal.isBalanced (r.refundLines p amount provider refundId) with
    | false =>
        have hentry : Journal.booked (.refund refundId) "payment_refund" refundId
            (r.refundLines p amount provider refundId) = refundEntry refundId .draft := by
          rw [Journal.booked, hbalanced]
          rfl
        rw [hbalanced] at hposted
        simp only [hposted, update_none]
        rw [hentry] at hadds
        rw [hsame, hentry]
        exact .drafted hopened hunused hbalanced hadds
    | true =>
        have hentry : Journal.booked (.refund refundId) "payment_refund" refundId
            (r.refundLines p amount provider refundId) = refundEntry refundId .posted := by
          rw [Journal.booked, hbalanced]
          rfl
        rw [hbalanced] at hposted
        simp only [hposted, Bool.and_true] at hcheck hchecks ⊢
        rw [hentry] at hadds
        rw [hsame] at hcheck hchecks ⊢
        rw [hentry]
        refine .booked hopened hunused hbalanced hadds ?_ ?_
        · exact fun q hq hid ↦ hchecks q hq (by simpa using hid)
        · exact fun q hq hid ↦ hcheck q hq (by simpa using hid)

theorem releaseSettlement_step (h : db.Sound) {key releaseId : String} (hnew : db.NewId releaseId)
    (hpos : 0 < amount) (hrun : db.releaseSettlement p key releaseId amount = .ok (db', ())) :
    ReleaseStep p key releaseId amount db db' := by
  obtain ⟨j, hbook, hrun⟩ := bind_eq_ok.mp hrun
  obtain ⟨db₁, hupdate, hrun⟩ := bind_eq_ok.mp hrun
  obtain rfl := congrArg Prod.fst (Except.ok.inj hrun)
  obtain ⟨rfl, hcheck⟩ := updatePayments_eq_ok hupdate
  have hopened := p.opened_available (p.opened_pending (.refl (j := db.journal)))
  obtain ⟨hlines, hbalanced⟩ := p.releaseLines_ok releaseId hpos
  rcases Table.insertOrIgnore_cases ReleaseRow.conflicts ⟨releaseId, p.paymentId, key, amount⟩
    db.releases with ⟨-, hsame⟩ | ⟨hunused, happended⟩
  · rcases book_new h hopened hnew rfl hlines hbook with ⟨-, rfl, hposted⟩ | ⟨hguard, -⟩
    · simp only [hsame, hposted, update_none]
      exact .ignored hopened
    · have hnone : db.releases.any (fun r ↦ decide (r.releaseId = releaseId)) = false := by
        simpa using hnew.2.2.2.2.2.1
      simp only [hasRelease, hsame, hnone] at hguard
      cases hguard
  · rcases book_new h hopened hnew rfl hlines hbook with ⟨hguard, -⟩ | ⟨-, hadds, rfl, hposted⟩
    · simp [hasRelease, happended] at hguard
    · have hentry : Journal.booked (.settlement releaseId) "settlement_release" releaseId
          (p.releaseLines releaseId amount) = releaseEntry releaseId := by
        rw [Journal.booked, hbalanced]
        rfl
      rw [hbalanced] at hposted
      simp only [hposted, Bool.and_true] at hcheck ⊢
      rw [hentry] at hadds
      rw [hentry, happended]
      exact .booked hopened hunused hadds fun q hq hid ↦ hcheck q hq (by simpa using hid)

end

end PaymentDb

end Fabushi.Worker
