import Fabushi.Worker.CaptureRuns

/-!
# Refunds and releases along runs

The amounts of a payment are the sums of what was posted for it as long as each refund
is booked on the refunded amount it was computed from. A refund writes the new total it
has computed from the row it has read, and takes the order back without looking whether
anything was booked.
-/

namespace Fabushi.Worker

open Interleaving Result

namespace Journal

def postedOn (j : Journal) (entryId : EntryId) (tag : String) : ℤ :=
  if j.isPosted entryId then
    Table.total (fun l ↦ if l.tag = tag then l.amount else 0) (j.linesOf entryId)
  else 0

theorem Grows.linesOf_eq_of_not_own {own : EntryId → Prop} {j j' : Journal} (h : Grows own j j')
    (hwf : j'.WellFormed) {entryId : EntryId} (hown : ¬ own entryId) :
    j'.linesOf entryId = j.linesOf entryId := by
  obtain ⟨lines, hlines, hfresh⟩ := h.lines
  rw [linesOf, hlines, List.filter_append, linesOf, List.append_right_eq_self,
    List.filter_eq_nil_iff]
  intro l hl heq
  obtain ⟨e, he, hid⟩ := hwf.lineEntry l (hlines ▸ List.mem_append_right _ hl)
  have hentry : e.entryId = entryId := hid.trans (decide_eq_true_eq.mp heq)
  rcases h.mem_or_own he with hold | hnew
  · exact hfresh l hl e hold hid
  · exact hown (hentry ▸ hnew)

theorem Grows.postedOn_eq {own : EntryId → Prop} {j j' : Journal} (h : Grows own j j')
    (hwf : j'.WellFormed) {entryId : EntryId} (hown : ¬ own entryId) (tag : String) :
    j'.postedOn entryId tag = j.postedOn entryId tag := by
  rw [postedOn, h.isPosted_eq hown, h.linesOf_eq_of_not_own hwf hown, postedOn]

theorem WellFormed.postedOn_add {j : Journal} (hwf : j.WellFormed) {entry : JournalEntryRow}
    {lines : List JournalLineRow} (hadds : j.Adds entry lines) (hposted : entry.state = .posted)
    (tag : String) : (j.add entry lines).postedOn entry.entryId tag =
      Table.total (fun l ↦ if l.tag = tag then l.amount else 0) lines := by
  rw [postedOn, if_pos, hwf.linesOf_add hadds]
  simp [isPosted_add, hposted]

end Journal

namespace PaymentRow

/-! ## Lines of one tag -/

theorem total_lineIfPositive_tag (p : PaymentRow) (entryId : EntryId)
    (tag account : String) (sign value : ℤ) (t : String) :
    Table.total (fun l ↦ if l.tag = t then l.amount else 0)
      (p.lineIfPositive entryId tag account sign value) =
        if tag = t then if 0 < value then sign * value else 0 else 0 := by
  unfold lineIfPositive
  by_cases hvalue : 0 < value
  · simp [hvalue, line]
  · simp [hvalue]

theorem total_refundLines_source (p : PaymentRow) (provider refundId : String) (amount : ℤ) :
    Table.total (fun l ↦ if l.tag = "source" then l.amount else 0)
      (p.refundLines provider refundId amount) = amount := by
  simp only [refundLines, Table.total_append, Table.total_cons, Table.total_nil,
    total_lineIfPositive_tag]
  simp [line]

theorem total_refundLines_available (p : PaymentRow) (provider refundId : String) {amount : ℤ}
    (hdebit : 0 ≤ p.availableDebit amount) :
    Table.total (fun l ↦ if l.tag = "available" then l.amount else 0)
      (p.refundLines provider refundId amount) = -p.availableDebit amount := by
  simp only [refundLines, Table.total_append, Table.total_cons, Table.total_nil,
    total_lineIfPositive_tag]
  simp only [line, String.reduceEq, if_false, if_true]
  split <;> omega

end PaymentRow

namespace PaymentDb

def refundTotal (db : PaymentDb) (tag paymentId : String) : ℤ :=
  Table.total (fun r ↦ if r.paymentId = paymentId then
    db.journal.postedOn (.refund r.refundId) tag else 0) db.refunds

def releaseTotal (db : PaymentDb) (paymentId : String) : ℤ :=
  Table.total (fun r ↦ if r.paymentId = paymentId then
    db.journal.postedOn (.settlement r.releaseId) "available" else 0) db.releases

def Unreconciled (db : PaymentDb) (paymentId : String) : Prop :=
  ∀ r ∈ db.reconciliations, r.paymentId ≠ paymentId

instance (db : PaymentDb) (paymentId : String) : Decidable (db.Unreconciled paymentId) :=
  inferInstanceAs (Decidable (∀ r ∈ db.reconciliations, r.paymentId ≠ paymentId))

def TakenBack (db : PaymentDb) (paymentId : String) : Prop :=
  (∃ o ∈ db.orders, o.orderId = paymentId ∧ o.status = .refunded) ∨
    ∃ g ∈ db.entitlements, g.orderId = paymentId ∧ g.status = .revoked

/-- The payment's amounts are the sums of what is posted for it; what a refund takes from the
available account is a negative line. -/
structure Agrees (db : PaymentDb) (p : PaymentRow) : Prop where
  refunded : db.refundTotal "source" p.paymentId = p.refundedAmount
  released : p.releasedDeveloperAmount =
    db.releaseTotal p.paymentId + db.refundTotal "available" p.paymentId
  status : p.status = .refunded ↔ p.refundedAmount = p.amount
  taken : db.TakenBack p.paymentId → p.refundedAmount = p.amount

/-- The refund is booked on the refunded amount it was computed from. A refund whose event or
reference was used before books nothing, and may be a full one only if nothing is left. -/
def FreshRefund (db : PaymentDb) : PaymentOp → Prop
  | .applyRefund row _ reference eventId _ amount => ∀ q ∈ db.payments,
      q.paymentId = row.paymentId → db.Unreconciled row.paymentId →
      if ∃ old ∈ db.refunds, old.idempotencyKey = eventId ∨ old.providerRefundId = reference then
        row.isFull amount = true → q.refundedAmount = q.amount
      else q.refundedAmount = row.refundedAmount
  | _ => True

instance (db : PaymentDb) (op : PaymentOp) : Decidable (db.FreshRefund op) := by
  unfold FreshRefund
  split <;> infer_instance

/-! ## What a step changes for a payment -/

structure Leaves (paymentId : String) (db db' : PaymentDb) : Prop where
  refunds : ∀ tag, db'.refundTotal tag paymentId = db.refundTotal tag paymentId
  releases : db'.releaseTotal paymentId = db.releaseTotal paymentId

theorem Agrees.leave {db db' : PaymentDb} {p p' : PaymentRow} (h : db.Agrees p)
    (hintent : p'.intent = p.intent) (hrefunded : p'.refundedAmount = p.refundedAmount)
    (hreleased : p'.releasedDeveloperAmount = p.releasedDeveloperAmount)
    (hstatus : p'.status = .refunded ↔ p.status = .refunded)
    (hleaves : Leaves p.paymentId db db')
    (htaken : db'.TakenBack p.paymentId → db.TakenBack p.paymentId ∨ p.refundedAmount = p.amount) :
    db'.Agrees p' := by
  have hid := paymentId_of_intent hintent
  have hamount : p'.amount = p.amount := by
    have hfield : p'.intent.amount = p.intent.amount := by rw [hintent]
    exact hfield
  constructor
  · rw [hid, hleaves.refunds, hrefunded]
    exact h.refunded
  · rw [hid, hleaves.refunds, hleaves.releases, hreleased]
    exact h.released
  · rw [hstatus, hrefunded, hamount]
    exact h.status
  · rw [hid, hrefunded, hamount]
    exact fun hback ↦ (htaken hback).elim h.taken id

section

variable {db db' : PaymentDb} {own : EntryId → Prop}

theorem refundTotal_append (hgrows : db.journal.Grows own db'.journal)
    (hwf : db'.journal.WellFormed) (hown : ∀ r ∈ db.refunds, ¬ own (.refund r.refundId))
    {new : List RefundRow} (hrefunds : db'.refunds = db.refunds ++ new) (tag paymentId : String) :
    db'.refundTotal tag paymentId = db.refundTotal tag paymentId +
      Table.total (fun r ↦ if r.paymentId = paymentId then
        db'.journal.postedOn (.refund r.refundId) tag else 0) new := by
  rw [refundTotal, hrefunds, Table.total_append, refundTotal]
  congr 1
  refine Table.total_congr fun r hr ↦ ?_
  rw [hgrows.postedOn_eq hwf (hown r hr)]

theorem refundTotal_booked (hgrows : db.journal.Grows own db'.journal)
    (hwf : db'.journal.WellFormed) (hown : ∀ r ∈ db.refunds, ¬ own (.refund r.refundId))
    {row : RefundRow} (hrefunds : db'.refunds = db.refunds ++ [row]) {tag : String} {x : ℤ}
    (hposted : db'.journal.postedOn (.refund row.refundId) tag = x) :
    db'.refundTotal tag row.paymentId = db.refundTotal tag row.paymentId + x := by
  rw [refundTotal_append hgrows hwf hown hrefunds, Table.total_cons, Table.total_nil,
    if_pos rfl, hposted, add_zero]

theorem releaseTotal_append (hgrows : db.journal.Grows own db'.journal)
    (hwf : db'.journal.WellFormed) (hown : ∀ r ∈ db.releases, ¬ own (.settlement r.releaseId))
    {new : List ReleaseRow} (hreleases : db'.releases = db.releases ++ new) (paymentId : String) :
    db'.releaseTotal paymentId = db.releaseTotal paymentId +
      Table.total (fun r ↦ if r.paymentId = paymentId then
        db'.journal.postedOn (.settlement r.releaseId) "available" else 0) new := by
  rw [releaseTotal, hreleases, Table.total_append, releaseTotal]
  congr 1
  refine Table.total_congr fun r hr ↦ ?_
  rw [hgrows.postedOn_eq hwf (hown r hr)]

theorem leaves_of_grows (hgrows : db.journal.Grows own db'.journal)
    (hwf : db'.journal.WellFormed) (hrefund : ∀ r ∈ db.refunds, ¬ own (.refund r.refundId))
    (hrelease : ∀ r ∈ db.releases, ¬ own (.settlement r.releaseId)) {paymentId : String}
    {refunds : List RefundRow} (hrefunds : db'.refunds = db.refunds ++ refunds)
    (hothers : ∀ r ∈ refunds, r.paymentId ≠ paymentId)
    {releases : List ReleaseRow} (hreleases : db'.releases = db.releases ++ releases)
    (hothers' : ∀ r ∈ releases, r.paymentId ≠ paymentId) : Leaves paymentId db db' := by
  refine ⟨fun tag ↦ ?_, ?_⟩
  · rw [refundTotal_append hgrows hwf hrefund hrefunds, Table.total_eq_zero, add_zero]
    intro r hr
    rw [if_neg (hothers r hr)]
  · rw [releaseTotal_append hgrows hwf hrelease hreleases, Table.total_eq_zero, add_zero]
    intro r hr
    rw [if_neg (hothers' r hr)]

end

/-! ## Orders and entitlements -/

theorem takenBack_takeBack {db : PaymentDb} {p : PaymentRow} {full : Bool} {paymentId : String}
    (h : (db.takeBack p full).TakenBack paymentId) :
    db.TakenBack paymentId ∨ (full = true ∧ paymentId = p.paymentId) := by
  cases full with
  | false => exact .inl h
  | true =>
      by_cases hid : paymentId = p.paymentId
      · exact .inr ⟨rfl, hid⟩
      · refine .inl ?_
        rcases h with ⟨o', ho', horder, hstatus⟩ | ⟨g', hg', horder, hstatus⟩
        · obtain ⟨o, ho, rfl⟩ := Table.mem_update.mp ho'
          by_cases hsel : decide (o.orderId = p.paymentId) = true
          · rw [if_pos hsel] at horder
            exact absurd (horder.symm.trans (by simpa using hsel)) hid
          · rw [if_neg hsel] at horder hstatus
            exact .inl ⟨o, ho, horder, hstatus⟩
        · obtain ⟨g, hg, rfl⟩ := Table.mem_update.mp hg'
          by_cases hsel : (decide (g.orderId = p.paymentId) && decide (g.status = .active)) = true
          · rw [if_pos hsel] at horder
            simp only [Bool.and_eq_true, decide_eq_true_eq] at hsel
            exact absurd (horder.symm.trans hsel.1) hid
          · rw [if_neg hsel] at horder hstatus
            exact .inr ⟨g, hg, horder, hstatus⟩

theorem takenBack_fulfilled {db db' : PaymentDb}
    (horders : ∀ o' ∈ db'.orders, o'.status = .refunded → o' ∈ db.orders)
    (hgranted : ∀ g' ∈ db'.entitlements, g'.status = .revoked → g' ∈ db.entitlements)
    {paymentId : String} (h : db'.TakenBack paymentId) : db.TakenBack paymentId := by
  rcases h with ⟨o, ho, horder, hstatus⟩ | ⟨g, hg, horder, hstatus⟩
  · exact .inl ⟨o, horders o ho hstatus, horder, hstatus⟩
  · exact .inr ⟨g, hgranted g hg hstatus, horder, hstatus⟩

theorem GrantsAtMost.revoked {db : PaymentDb} {g : EntitlementRow}
    {entitlements : List EntitlementRow} (h : db.GrantsAtMost g entitlements)
    (hactive : g.status = .active) :
    ∀ g' ∈ entitlements, g'.status = .revoked → g' ∈ db.entitlements := by
  intro g' hg' hrevoked
  rcases h.granted hg' with hold | rfl
  · exact hold
  · cases hactive.symm.trans hrevoked

theorem refunded_of_fulfil {selects : OrderRow → Bool} {orders : List OrderRow} :
    ∀ o' ∈ Table.update selects (fun o ↦ { o with status := .fulfilled }) orders,
      o'.status = .refunded → o' ∈ orders := by
  intro o' ho' hstatus
  obtain ⟨o, ho, rfl⟩ := Table.mem_update.mp ho'
  split at hstatus
  · cases hstatus
  · rename_i hsel
    rw [if_neg hsel]
    exact ho

theorem CaptureStep.takenBack {db db' : PaymentDb} {p q : PaymentRow} {provider reference : String}
    {user : Bool} (h : CaptureStep p provider reference user db q db') {paymentId : String}
    (htaken : db'.TakenBack paymentId) : db.TakenBack paymentId := by
  cases h with
  | idle hopened hstatus hwhy => exact htaken
  | again hopened hstatus hgrants =>
      exact takenBack_fulfilled refunded_of_fulfil (hgrants.revoked rfl) htaken
  | captured hopened hstatus hcovered hkey hadds hgrants =>
      refine takenBack_fulfilled ?_ (hgrants.revoked rfl) htaken
      intro o ho hrefunded
      rcases List.mem_append.mp ho with ho | ho
      · exact ho
      · rw [List.mem_singleton.mp ho] at hrefunded
        cases hrefunded

theorem PurchaseStep.takenBack {db db' : PaymentDb} {c : Purchase} (h : PurchaseStep c db db')
    {paymentId : String} (htaken : db'.TakenBack paymentId) : db.TakenBack paymentId := by
  cases h with
  | refused hopened hnone => exact htaken
  | bought hopened hnone hcovered hadds =>
      refine takenBack_fulfilled ?_ ?_ htaken
      · intro o ho hrefunded
        rcases List.mem_append.mp ho with ho | ho
        · exact ho
        · rw [List.mem_singleton.mp ho] at hrefunded
          cases hrefunded
      · intro g hg hrevoked
        rcases List.mem_append.mp hg with hg | hg
        · exact hg
        · rw [List.mem_singleton.mp hg] at hrevoked
          cases hrevoked
  | again hopened ho hfinds hgrants =>
      exact takenBack_fulfilled refunded_of_fulfil (hgrants.revoked rfl) htaken
  | charged hopened ho hfinds hunbooked hadds hgrants =>
      exact takenBack_fulfilled refunded_of_fulfil (hgrants.revoked rfl) htaken

/-! ## The invariant -/

def Agreeing (db : PaymentDb) : Prop :=
  ∀ p ∈ db.payments, db.Unreconciled p.paymentId → db.Agrees p

@[simp] theorem takeBack_payments (db : PaymentDb) (p : PaymentRow) (full : Bool) :
    (db.takeBack p full).payments = db.payments := by
  cases full <;> rfl

@[simp] theorem takeBack_refunds (db : PaymentDb) (p : PaymentRow) (full : Bool) :
    (db.takeBack p full).refunds = db.refunds := by
  cases full <;> rfl

@[simp] theorem takeBack_releases (db : PaymentDb) (p : PaymentRow) (full : Bool) :
    (db.takeBack p full).releases = db.releases := by
  cases full <;> rfl

theorem Unreconciled.of_evolves {db db' : PaymentDb} (hevolves : db.Evolves db')
    {paymentId : String} (h : db'.Unreconciled paymentId) : db.Unreconciled paymentId := by
  intro r hr heq
  obtain ⟨r', hr', hterms⟩ := hevolves.reconciled r hr
  have hid : r'.paymentId = r.paymentId := by
    have hfield : r'.terms.paymentId = r.terms.paymentId := by rw [hterms]
    exact hfield
  exact h r' hr' (hid.trans heq)

theorem agreeing_of_leaves {db db' : PaymentDb} (h : db.Agreeing) (hevolves : db.Evolves db')
    (hrow : ∀ p' ∈ db'.payments, db'.Unreconciled p'.paymentId →
      db'.Agrees p' ∨ ∃ p ∈ db.payments, p'.intent = p.intent ∧
        p'.refundedAmount = p.refundedAmount ∧
        p'.releasedDeveloperAmount = p.releasedDeveloperAmount ∧
        (p'.status = .refunded ↔ p.status = .refunded) ∧ Leaves p.paymentId db db' ∧
        (db'.TakenBack p.paymentId → db.TakenBack p.paymentId ∨ p.refundedAmount = p.amount)) :
    db'.Agreeing := by
  intro p' hp' hnone
  rcases hrow p' hp' hnone with
    hagrees | ⟨p, hp, hintent, hrefunded, hreleased, hstatus, hleaves, htaken⟩
  · exact hagrees
  · refine (h p hp ?_).leave hintent hrefunded hreleased hstatus hleaves htaken
    rw [← paymentId_of_intent hintent]
    exact hnone.of_evolves hevolves

/-! ## The refund -/

section Refund

variable {db db' : PaymentDb} {p : PaymentRow} {provider reference eventId refundId : String}
  {amount : ℤ}

theorem RefundStep.agreeing (hsound : db.Sound) (hagree : db.Agreeing) (hnew : db.NewId refundId)
    (hknown : db.Known p) (hvalid : p.Valid) (hpos : 0 < amount)
    (hle : amount ≤ p.amount - p.refundedAmount)
    (hfresh : db.FreshRefund (.applyRefund p provider reference eventId refundId amount))
    (hsound' : db'.Sound) (hevolves : db.Evolves db')
    (hstep : RefundStep p provider reference eventId refundId amount db db') : db'.Agreeing := by
  have hgrows := hstep.grows
  have hrefund : ∀ r ∈ db.refunds, ¬ Books (.applyRefund p provider reference eventId refundId
      amount) (.refund r.refundId) := by
    intro r hr heq
    exact hnew.2.2.2.2.1 r hr (EntryId.refund.inj heq)
  have hrelease : ∀ r ∈ db.releases, ¬ Books (.applyRefund p provider reference eventId refundId
      amount) (.settlement r.releaseId) := by
    intro r hr heq
    exact EntryId.noConfusion heq
  have hconflict : ∀ old ∈ db.refunds,
      old.conflicts (p.refundRow reference eventId refundId amount) = true ↔
        old.idempotencyKey = eventId ∨ old.providerRefundId = reference := by
    intro old hold
    have hid : old.refundId ≠ refundId := hnew.2.2.2.2.1 old hold
    change (decide (old.refundId = refundId) || decide (old.idempotencyKey = eventId) ||
      decide (old.providerRefundId = reference)) = true ↔ _
    simp [hid]
  refine agreeing_of_leaves hagree hevolves fun p' hp' hnone ↦ ?_
  have hnone₀ := hnone.of_evolves hevolves
  cases hstep with
  | ignored hopened hused =>
      rw [takeBack_payments] at hp'
      obtain ⟨old, hold, hc⟩ := hused
      rw [hconflict old hold] at hc
      refine .inr ⟨p', hp', rfl, rfl, rfl, .rfl, leaves_of_grows hgrows hsound'.journal.wf hrefund
        hrelease ((takeBack_refunds _ _ _).trans (List.append_nil _).symm) (by simp)
        ((takeBack_releases _ _ _).trans (List.append_nil _).symm) (by simp), ?_⟩
      intro htaken
      rcases takenBack_takeBack htaken with hback | ⟨hfull, hid⟩
      · exact .inl hback
      · have hleft := hfresh p' hp' hid (hid ▸ hnone₀)
        rw [if_pos ⟨old, hold, hc⟩] at hleft
        exact .inr (hleft hfull)
  | @booked j hopened hunused hadds hcheck =>
      rw [takeBack_payments] at hp'
      obtain ⟨q, hq, rfl⟩ := Table.mem_update.mp hp'
      by_cases hid : q.paymentId = p.paymentId
      · -- the refunded payment: its sums have grown by the lines of the refund
        left
        rw [if_pos (by simpa using hid)] at hnone ⊢
        have hnone₀ : db.Unreconciled q.paymentId := hnone.of_evolves hevolves
        have hq₀ := hagree q hq hnone₀
        have hcurrent := hfresh q hq hid (hid ▸ hnone₀)
        rw [if_neg] at hcurrent
        swap
        · rintro ⟨old, hold, hc⟩
          rw [← hconflict old hold, hunused old hold] at hc
          cases hc
        obtain ⟨r, hr, hintent, -⟩ := hknown
        obtain rfl := Table.eq_of_key_eq hsound.ids hq hr
          (hid.trans (paymentId_of_intent hintent).symm)
        have hamount : q.amount = p.amount := by
          have hfield : q.intent.amount = p.intent.amount := by rw [hintent]
          exact hfield
        have hnewRefunded := hvalid.newRefunded_eq hpos hle
        have hdebit := hvalid.availableDebit_nonneg hpos hle
        have hwf := (hopened.inOrder hsound.journal).wf
        have htotal : ∀ tag, refundTotal _ tag p.paymentId = db.refundTotal tag p.paymentId +
            Table.total (fun l ↦ if l.tag = tag then l.amount else 0)
              (p.refundLines provider refundId amount) := fun tag ↦
          refundTotal_booked hgrows hsound'.journal.wf hrefund (takeBack_refunds _ _ _)
            (by rw [takeBack_journal]; exact hwf.postedOn_add hadds rfl tag)
        have hreleases : releaseTotal _ p.paymentId = _ :=
          releaseTotal_append hgrows hsound'.journal.wf hrelease
            ((takeBack_releases _ _ _).trans (List.append_nil _).symm) p.paymentId
        have hsource := htotal "source"
        have havailable := htotal "available"
        rw [p.total_refundLines_source] at hsource
        rw [p.total_refundLines_available _ _ hdebit] at havailable
        have hrefunded := hid ▸ hq₀.refunded
        have hreleased := hid ▸ hq₀.released
        have hid' : (p.refund amount q).paymentId = p.paymentId := hid
        have hstatus : (p.refund amount q).status = .refunded ↔ p.newRefunded amount = p.amount := by
          simp only [PaymentRow.refund, PaymentRow.isFull, decide_eq_true_eq]
          split <;> simp_all
        refine ⟨?_, ?_, ?_, ?_⟩
        · rw [hid', hsource, hrefunded, hcurrent]
          exact hnewRefunded.symm
        · rw [hid', havailable, hreleases]
          simp only [PaymentRow.refund, Table.total_nil]
          omega
        · rw [hstatus]
          change _ ↔ p.newRefunded amount = q.amount
          rw [hamount]
        · intro htaken
          change p.newRefunded amount = q.amount
          rcases takenBack_takeBack htaken with hback | ⟨hfull, -⟩
          · have hall := hq₀.taken hback
            omega
          · rw [hamount]
            exact of_decide_eq_true hfull
      · rw [if_neg (by simpa using hid)] at hnone ⊢
        refine .inr ⟨q, hq, rfl, rfl, rfl, .rfl, leaves_of_grows hgrows hsound'.journal.wf hrefund
          hrelease (takeBack_refunds _ _ _) ?_
          ((takeBack_releases _ _ _).trans (List.append_nil _).symm) (by simp), ?_⟩
        · intro r hr
          rw [List.mem_singleton.mp hr]
          exact fun heq ↦ hid heq.symm
        · intro htaken
          rcases takenBack_takeBack htaken with hback | ⟨-, heq⟩
          · exact .inl hback
          · exact absurd heq hid

end Refund

/-! ## The other operations -/

section Others

variable {db db' : PaymentDb} {op : PaymentOp}

/-- An operation that books no refund and no release of old rows, inserts rows of other payments
only and moves no amounts. -/
theorem agreeing_of_quiet (hagree : db.Agreeing) (hevolves : db.Evolves db') (hsound' : db'.Sound)
    (hgrows : db.journal.Grows (Books op) db'.journal)
    (hrefund : ∀ r ∈ db.refunds, ¬ Books op (.refund r.refundId))
    (hrelease : ∀ r ∈ db.releases, ¬ Books op (.settlement r.releaseId))
    {refunds : List RefundRow} (hrefunds : db'.refunds = db.refunds ++ refunds)
    {releases : List ReleaseRow} (hreleases : db'.releases = db.releases ++ releases)
    (hrow : ∀ p' ∈ db'.payments, db'.Unreconciled p'.paymentId → ∃ p ∈ db.payments,
      p'.intent = p.intent ∧ p'.refundedAmount = p.refundedAmount ∧
        p'.releasedDeveloperAmount = p.releasedDeveloperAmount ∧
        (p'.status = .refunded ↔ p.status = .refunded) ∧
        (∀ r ∈ refunds, r.paymentId ≠ p.paymentId) ∧ (∀ r ∈ releases, r.paymentId ≠ p.paymentId) ∧
        (db'.TakenBack p.paymentId → db.TakenBack p.paymentId)) : db'.Agreeing := by
  refine agreeing_of_leaves hagree hevolves fun p' hp' hnone ↦ .inr ?_
  obtain ⟨p, hp, hintent, hrefunded, hreleased, hstatus, hothers, hothers', htaken⟩ :=
    hrow p' hp' hnone
  exact ⟨p, hp, hintent, hrefunded, hreleased, hstatus, leaves_of_grows hgrows hsound'.journal.wf
    hrefund hrelease hrefunds hothers hreleases hothers', fun hback ↦ .inl (htaken hback)⟩

theorem CaptureStep.agreeing {p q : PaymentRow} {provider reference : String} {user : Bool}
    (hagree : db.Agreeing) (hevolves : db.Evolves db') (hsound' : db'.Sound)
    (hstep : CaptureStep p provider reference user db q db') : db'.Agreeing := by
  have hrefunds : db'.refunds = db.refunds ++ [] := by
    cases hstep <;> simp [updateOrders]
  have hreleases : db'.releases = db.releases ++ [] := by
    cases hstep <;> simp [updateOrders]
  refine agreeing_of_quiet hagree hevolves hsound' hstep.grows ?_ ?_ hrefunds hreleases ?_
  · exact fun r _ heq ↦ EntryId.noConfusion heq
  · exact fun r _ heq ↦ EntryId.noConfusion heq
  · intro p' hp' _
    have htaken : db'.TakenBack p'.paymentId → db.TakenBack p'.paymentId := hstep.takenBack
    cases hstep with
    | idle hopened hstatus hwhy =>
        exact ⟨p', hp', rfl, rfl, rfl, .rfl, by simp, by simp, htaken⟩
    | again hopened hstatus hgrants =>
        exact ⟨p', hp', rfl, rfl, rfl, .rfl, by simp, by simp, htaken⟩
    | captured hopened hstatus hcovered hkey hadds hgrants =>
        obtain ⟨r, hr, rfl⟩ := Table.mem_update.mp hp'
        by_cases hsel : (decide (r.paymentId = p.paymentId) && isOpenPayment r.status) = true
        · rw [if_pos hsel] at htaken ⊢
          simp only [Bool.and_eq_true] at hsel
          refine ⟨r, hr, rfl, rfl, rfl, ?_, by simp, by simp, htaken⟩
          have hopen : r.status ≠ .refunded := by
            intro heq
            rw [heq] at hsel
            cases hsel.2
          simp [succeeded, hopen]
        · rw [if_neg hsel] at htaken ⊢
          exact ⟨r, hr, rfl, rfl, rfl, .rfl, by simp, by simp, htaken⟩

theorem PurchaseStep.agreeing {c : Purchase} (hagree : db.Agreeing) (hevolves : db.Evolves db')
    (hsound' : db'.Sound) (hstep : PurchaseStep c db db') : db'.Agreeing := by
  have hrefunds : db'.refunds = db.refunds ++ [] := by
    cases hstep <;> simp [updateOrders]
  have hreleases : db'.releases = db.releases ++ [] := by
    cases hstep <;> simp [updateOrders]
  have hpayments : db'.payments = db.payments := by
    cases hstep <;> rfl
  refine agreeing_of_quiet hagree hevolves hsound' hstep.grows ?_ ?_ hrefunds hreleases ?_
  · exact fun r _ heq ↦ EntryId.noConfusion heq
  · exact fun r _ heq ↦ EntryId.noConfusion heq
  · exact fun p' hp' _ ↦ ⟨p', hpayments ▸ hp', rfl, rfl, rfl, .rfl, by simp, by simp,
      hstep.takenBack⟩

theorem endPayment_agreeing {paymentId : String} {status : PaymentStatus}
    {reference : Option String} (hagree : db.Agreeing) (hevolves : db.Evolves db')
    (hsound' : db'.Sound) (hended : status = .failed ∨ status = .cancelled)
    (hrun : db.endPayment paymentId status reference = .ok (db', ())) : db'.Agreeing := by
  have hjournal := endPayment_journal hrun
  obtain ⟨db₁, hupdate, hrun⟩ := bind_eq_ok.mp hrun
  obtain ⟨_, -, hrun⟩ := bind_eq_ok.mp hrun
  obtain rfl := congrArg Prod.fst (Except.ok.inj hrun)
  obtain ⟨rfl, -⟩ := updatePayments_eq_ok hupdate
  refine @agreeing_of_quiet _ _ (.endPayment paymentId status reference) hagree hevolves hsound'
    (.refl _) (fun _ _ ↦ id) (fun _ _ ↦ id) [] (List.append_nil _).symm [] (List.append_nil _).symm
    ?_
  intro p' hp' _
  obtain ⟨r, hr, rfl⟩ := Table.mem_update.mp hp'
  by_cases hsel : (decide (r.paymentId = paymentId) && isOpenPayment r.status) = true
  · rw [if_pos hsel]
    simp only [Bool.and_eq_true] at hsel
    refine ⟨r, hr, rfl, rfl, rfl, ?_, by simp, by simp, id⟩
    have hopen : r.status ≠ .refunded := by
      intro heq
      rw [heq] at hsel
      cases hsel.2
    rcases hended with rfl | rfl <;> simp [hopen]
  · rw [if_neg hsel]
    exact ⟨r, hr, rfl, rfl, rfl, .rfl, by simp, by simp, id⟩

theorem ReleaseStep.agreeing {p : PaymentRow} {key releaseId : String} {amount : ℤ}
    (hsound : db.Sound) (hagree : db.Agreeing) (hnew : db.NewId releaseId)
    (hevolves : db.Evolves db') (hsound' : db'.Sound)
    (hstep : ReleaseStep p key releaseId amount db db') : db'.Agreeing := by
  have hgrows := hstep.grows
  have hrefund : ∀ r ∈ db.refunds, ¬ Books (.releaseSettlement p key releaseId amount)
      (.refund r.refundId) := fun r _ heq ↦ EntryId.noConfusion heq
  have hrelease : ∀ r ∈ db.releases, ¬ Books (.releaseSettlement p key releaseId amount)
      (.settlement r.releaseId) := by
    intro r hr heq
    exact hnew.2.2.2.2.2.1 r hr (EntryId.settlement.inj heq)
  refine agreeing_of_leaves hagree hevolves fun p' hp' hnone ↦ ?_
  cases hstep with
  | ignored hopened =>
      exact .inr ⟨p', hp', rfl, rfl, rfl, .rfl, leaves_of_grows hgrows hsound'.journal.wf hrefund
        hrelease (List.append_nil _).symm (by simp) (List.append_nil _).symm (by simp), .inl⟩
  | @booked j hopened hunused hadds hcheck =>
      obtain ⟨q, hq, rfl⟩ := Table.mem_update.mp hp'
      by_cases hid : q.paymentId = p.paymentId
      · left
        rw [if_pos (by simpa using hid)] at hnone ⊢
        have hq₀ := hagree q hq (hnone.of_evolves hevolves)
        have hwf := (hopened.inOrder hsound.journal).wf
        have hposted := hwf.postedOn_add hadds rfl "available"
        have hreleases : releaseTotal _ p.paymentId = _ :=
          releaseTotal_append hgrows hsound'.journal.wf hrelease rfl p.paymentId
        have hrefunds : ∀ tag, refundTotal _ tag p.paymentId = _ := fun tag ↦
          refundTotal_append hgrows hsound'.journal.wf hrefund (List.append_nil _).symm tag
            p.paymentId
        have hid' : (release amount q).paymentId = p.paymentId := hid
        have hreleased := hid ▸ hq₀.released
        have hrefunded := hid ▸ hq₀.refunded
        have hlines : Table.total (fun l ↦ if l.tag = "available" then l.amount else 0)
            (p.releaseLines releaseId amount) = amount := by
          simp [PaymentRow.releaseLines, PaymentRow.line]
        simp only [releaseEntry, hlines] at hposted
        simp only [Table.total_cons, Table.total_nil, if_true, releaseEntry, hposted,
          add_zero] at hreleases hrefunds
        refine ⟨?_, ?_, hq₀.status, fun htaken ↦ hq₀.taken htaken⟩
        · rw [hid']
          exact (hrefunds "source").trans hrefunded
        · rw [hid']
          change q.releasedDeveloperAmount + amount = _
          have havailable := hrefunds "available"
          simp only [releaseEntry] at hreleases havailable ⊢
          rw [hreleases, havailable]
          omega
      · rw [if_neg (by simpa using hid)] at hnone ⊢
        refine .inr ⟨q, hq, rfl, rfl, rfl, .rfl, leaves_of_grows hgrows hsound'.journal.wf hrefund
          hrelease (List.append_nil _).symm (by simp) rfl ?_, .inl⟩
        intro r hr
        rw [List.mem_singleton.mp hr]
        exact fun heq ↦ hid heq.symm

theorem Reconciles.ne {r : ReconciliationRow} (h : db.Reconciles r) {paymentId : String}
    (hnone : db.Unreconciled paymentId) : r.paymentId ≠ paymentId := by
  obtain ⟨r', hr', hterms⟩ := h
  have hid : r'.paymentId = r.paymentId := by
    have hfield : r'.terms.paymentId = r.terms.paymentId := by rw [hterms]
    exact hfield
  exact fun heq ↦ hnone r' hr' (hid.trans heq)

theorem ReconciledRefundStep.agreeing {p : PaymentRow} {r : ReconciliationRow}
    {provider reference eventId refundId : String} {amount : ℤ} (hagree : db.Agreeing)
    (hnew : db.NewId refundId) (hreconciles : db.Reconciles r) (hrid : r.paymentId = p.paymentId)
    (hevolves : db.Evolves db') (hsound' : db'.Sound)
    (hstep : ReconciledRefundStep p r provider reference eventId refundId amount db db') :
    db'.Agreeing := by
  have hne : ∀ paymentId, db'.Unreconciled paymentId → paymentId ≠ p.paymentId := by
    rintro paymentId hnone rfl
    exact (hevolves.reconciles hreconciles).ne hnone hrid
  have htaken : ∀ paymentId, db'.Unreconciled paymentId → db'.TakenBack paymentId →
      db.TakenBack paymentId := by
    intro paymentId hnone hback
    have hid := hne paymentId hnone
    cases hstep <;> exact (takenBack_takeBack hback).resolve_right fun hboth ↦ hid hboth.2
  have hrefunds : ∃ refunds, db'.refunds = db.refunds ++ refunds ∧
      ∀ x ∈ refunds, x.paymentId = p.paymentId := by
    cases hstep with
    | ignored hopened hused => exact ⟨[], by simp, by simp⟩
    | drafted hopened hunused hunbalanced hadds =>
        exact ⟨_, takeBack_refunds _ _ _, by simp [PaymentRow.refundRow]⟩
    | booked hopened hunused hbalanced hadds hchecks hcheck =>
        exact ⟨_, takeBack_refunds _ _ _, by simp [PaymentRow.refundRow]⟩
  have hreleases : db'.releases = db.releases ++ [] := by
    cases hstep <;> simp
  have hrows : ∀ p' ∈ db'.payments, p'.paymentId ≠ p.paymentId → p' ∈ db.payments := by
    intro p' hp' hid
    cases hstep with
    | ignored hopened hused => simpa using hp'
    | drafted hopened hunused hunbalanced hadds => simpa using hp'
    | booked hopened hunused hbalanced hadds hchecks hcheck =>
        rw [takeBack_payments] at hp'
        obtain ⟨q, hq, rfl⟩ := Table.mem_update.mp hp'
        by_cases hsel : decide (q.paymentId = p.paymentId) = true
        · rw [if_pos hsel] at hid
          exact absurd (of_decide_eq_true hsel) hid
        · rw [if_neg hsel]
          exact hq
  obtain ⟨refunds, hrefunds, hown⟩ := hrefunds
  refine agreeing_of_quiet hagree hevolves hsound' hstep.grows ?_ ?_ hrefunds hreleases ?_
  · intro x hx heq
    exact hnew.2.2.2.2.1 x hx (EntryId.refund.inj heq)
  · exact fun x _ heq ↦ EntryId.noConfusion heq
  · intro p' hp' hnone
    have hid := hne p'.paymentId hnone
    exact ⟨p', hrows p' hp' hid, rfl, rfl, rfl, .rfl, fun x hx heq ↦ hid (heq.symm.trans (hown x hx)),
      by simp, htaken p'.paymentId hnone⟩

theorem ReconcileStep.agreeing {p : PaymentRow} {input : ReconcileRequest}
    {reconciliationId : String} {split : Bool} {now : ℤ} (hagree : db.Agreeing)
    (hevolves : db.Evolves db') (hsound' : db'.Sound)
    (hstep : ReconcileStep p input reconciliationId split now db db') : db'.Agreeing := by
  have hgrows := hstep.grows
  have hrows := hstep.reconciliations
  obtain ⟨j, -, -, -, -, -, hpayments, -, ⟨releases, hreleases, hown⟩, hrefunds, horders,
    hentitlements⟩ := hstep
  have hne : ∀ paymentId, db'.Unreconciled paymentId → paymentId ≠ p.paymentId := by
    rintro paymentId hnone rfl
    have hmem : reconciliationRow p input reconciliationId now ∈
        db.reconciliations ++ [reconciliationRow p input reconciliationId now] := by simp
    refine hnone _ (hrows ▸ Table.mem_update.mpr ⟨_, hmem, rfl⟩) ?_
    split <;> rfl
  refine agreeing_of_quiet hagree hevolves hsound' hgrows ?_ ?_
    (hrefunds.trans (List.append_nil _).symm) hreleases ?_
  · rintro x - (heq | heq | heq) <;> exact EntryId.noConfusion heq
  · rintro x - (heq | heq | heq) <;> exact EntryId.noConfusion heq
  · intro p' hp' hnone
    have hid := hne p'.paymentId hnone
    rw [hpayments] at hp'
    obtain ⟨q, hq, rfl⟩ := Table.mem_update.mp hp'
    by_cases hsel : decide (q.paymentId = p.paymentId) = true
    · rw [if_pos hsel] at hid
      exact absurd (by simpa using hsel) hid
    · rw [if_neg hsel] at hid ⊢
      refine ⟨q, hq, rfl, rfl, rfl, .rfl, by simp, fun x hx heq ↦ hid (heq.symm.trans (hown x hx)),
        ?_⟩
      rw [TakenBack, horders, hentitlements]
      exact id

theorem releaseReserve_agreeing {r : ReconciliationRow} {now : ℤ} (hsound : db.Sound)
    (hagree : db.Agreeing) (hpos : 0 < r.reserveAmount) (hevolves : db.Evolves db')
    (hsound' : db'.Sound) (hrun : db.releaseReserve r now = .ok (db', ())) : db'.Agreeing := by
  have hgrows := releaseReserve_grows hsound hpos hrun
  obtain ⟨j, -, hrun⟩ := bind_eq_ok.mp hrun
  obtain ⟨db₁, hreconciled, hrun⟩ := bind_eq_ok.mp hrun
  obtain rfl := congrArg Prod.fst (Except.ok.inj hrun)
  obtain ⟨rows, -, hreconciled⟩ := bind_eq_ok.mp hreconciled
  obtain rfl := Except.ok.inj hreconciled
  have hreleases : ∃ new, db.reserveReleases r = db.releases ++ new ∧
      ∀ x ∈ new, ∃ q ∈ db.reconciliations, x.paymentId = q.paymentId := by
    unfold reserveReleases
    split
    · rename_i q hfind
      have hq := List.mem_of_find?_eq_some hfind
      rcases Table.insertOrIgnore_cases ReleaseRow.conflicts q.releaseRow db.releases with
        ⟨-, hsame⟩ | ⟨-, happended⟩
      · exact ⟨[], by rw [hsame, List.append_nil], by simp⟩
      · refine ⟨[q.releaseRow], happended, fun x hx ↦ ⟨q, hq, ?_⟩⟩
        rw [List.mem_singleton.mp hx]
        rfl
    · exact ⟨[], by rw [List.append_nil], by simp⟩
  obtain ⟨new, hnew, hown⟩ := hreleases
  refine agreeing_of_quiet hagree hevolves hsound' hgrows ?_ ?_ (List.append_nil _).symm hnew ?_
  · exact fun x _ heq ↦ EntryId.noConfusion heq
  · exact fun x _ heq ↦ EntryId.noConfusion heq
  · intro p' hp' hnone
    refine ⟨p', hp', rfl, rfl, rfl, .rfl, by simp, fun x hx heq ↦ ?_, id⟩
    obtain ⟨q, hq, hid⟩ := hown x hx
    exact hnone.of_evolves hevolves q hq (hid.symm.trans heq)

end Others

theorem extends_agreeing : Extends Agreeing FreshRefund := by
  intro db op hsound hagree hfresh hsupports hmeets
  obtain ⟨hsound', hevolves⟩ := exec_sound hsound hfresh hsupports
  have hbatch : ∀ batch : PaymentDb → Except SqlError (PaymentDb × Unit),
      (op.exec db).1 = (atomically batch db).1 →
      (∀ db', db'.Sound → db.Evolves db' → batch db = .ok (db', ()) → db'.Agreeing) →
      (op.exec db).1.Agreeing := by
    intro batch hexec hok
    rcases atomically_cases batch db with ⟨db', _, hrun, heq⟩ | ⟨e, -, heq⟩
    · rw [hexec, heq] at hsound' hevolves ⊢
      exact hok db' hsound' hevolves hrun
    · rw [hexec, heq]
      exact hagree
  cases op with
  | postSuccess row provider reference debitUser =>
      refine hbatch _ rfl fun db' hsound' hevolves hrun ↦ ?_
      obtain ⟨q, hq, hintent, -⟩ := hsupports
      exact (postSuccess_step hsound hq hintent hrun).agreeing hagree hevolves hsound'
  | endPayment paymentId status reference =>
      refine hbatch _ rfl fun db' hsound' hevolves hrun ↦ ?_
      exact endPayment_agreeing hagree hevolves hsound' hsupports hrun
  | applyRefund row provider reference eventId refundId amount =>
      refine hbatch _ rfl fun db' hsound' hevolves hrun ↦ ?_
      obtain ⟨hknown, hvalid, ⟨-, hpos, hle⟩, -⟩ := hsupports
      exact (applyRefund_step hsound hfresh hvalid hpos hle hrun).agreeing hsound hagree hfresh
        hknown hvalid hpos hle hmeets hsound' hevolves
  | applyReconciledRefund row r provider reference eventId refundId amount =>
      refine hbatch _ rfl fun db' hsound' hevolves hrun ↦ ?_
      obtain ⟨-, -, hrefundable, hreconciles, hrid⟩ := hsupports
      exact (applyReconciledRefund_step hsound hfresh hrefundable.2.1 hrun).agreeing hagree hfresh
        hreconciles hrid hevolves hsound'
  | releaseSettlement row key releaseId amount =>
      refine hbatch _ rfl fun db' hsound' hevolves hrun ↦ ?_
      exact (releaseSettlement_step hsound hfresh hsupports.2.2 hrun).agreeing hsound hagree hfresh
        hevolves hsound'
  | purchase c =>
      refine hbatch _ rfl fun db' hsound' hevolves hrun ↦ ?_
      exact (purchase_step hsound hfresh.1 hfresh.2.1 hfresh.2.2 hrun).agreeing hagree hevolves
        hsound'
  | reconcile row input reconciliationId split now =>
      refine hbatch _ rfl fun db' hsound' hevolves hrun ↦ ?_
      exact (reconcile_step hsound hrun).agreeing hagree hevolves hsound'
  | releaseReserve row now =>
      refine hbatch _ rfl fun db' hsound' hevolves hrun ↦ ?_
      exact releaseReserve_agreeing hsound hagree hsupports.2 hevolves hsound' hrun
  | markReserveReleased reconciliationId now =>
      refine @agreeing_of_quiet _ _ (.markReserveReleased reconciliationId now) hagree hevolves
        hsound' (.refl _) (fun _ _ ↦ id) (fun _ _ ↦ id) [] (List.append_nil _).symm []
        (List.append_nil _).symm ?_
      exact fun p' hp' _ ↦ ⟨p', hp', rfl, rfl, rfl, .rfl, by simp, by simp, id⟩
  | openDispute row =>
      intro p hp hnone
      obtain ⟨hrefunded, hreleased, hstatus, htaken⟩ := hagree p hp hnone
      exact ⟨hrefunded, hreleased, hstatus, htaken⟩
  | closeDispute provider reference status =>
      intro p hp hnone
      obtain ⟨hrefunded, hreleased, hstatus, htaken⟩ := hagree p hp hnone
      exact ⟨hrefunded, hreleased, hstatus, htaken⟩
  | paymentById paymentId => exact hagree
  | paymentCaptured paymentId => exact hagree
  | walletBalance accountId => exact hagree
  | reconciledRefundRow paymentId => exact hagree
  | orderByIdempotency userId key => exact hagree
  | orderPurchased c => exact hagree
  | entitlementForOrder orderId => exact hagree
  | reconciliationByKey key => exact hagree
  | dueReserve reconciliationId now => exact hagree

end PaymentDb

/-! ## Runs -/

/-- The posted refunds and releases of the payment account for its amounts, its status and what
was taken back. -/
structure PaymentDb.Accounted (db : PaymentDb) (p : PaymentRow) : Prop where
  refunded : db.refundTotal "source" p.paymentId = p.refundedAmount
  within : p.refundedAmount ≤ p.amount
  released : p.releasedDeveloperAmount =
    db.releaseTotal p.paymentId + db.refundTotal "available" p.paymentId
  nonneg : 0 ≤ p.releasedDeveloperAmount
  status : p.status = .refunded ↔ p.refundedAmount = p.amount
  revoked : ∀ g ∈ db.entitlements, g.orderId = p.paymentId → g.status = .revoked →
    db.refundTotal "source" p.paymentId = p.amount
  ordered : ∀ o ∈ db.orders, o.orderId = p.paymentId → o.status = .refunded →
    db.refundTotal "source" p.paymentId = p.amount

theorem PaymentDb.Opening.agreeing {db : PaymentDb} (h : db.Opening) : db.Agreeing := by
  obtain ⟨horders, hentitlements, hrefunds, hreleases, -⟩ := h.empty
  intro p hp _
  obtain ⟨huncaptured, hrefunded, hreleased⟩ := h.uncaptured p hp
  have hpos := (h.valid p hp).positive
  refine ⟨?_, ?_, ?_, ?_⟩
  · simp [PaymentDb.refundTotal, hrefunds, hrefunded]
  · simp [PaymentDb.refundTotal, PaymentDb.releaseTotal, hrefunds, hreleases, hreleased]
  · constructor
    · intro hstatus
      rw [hstatus] at huncaptured
      cases huncaptured
    · intro hall
      omega
  · simp [PaymentDb.TakenBack, horders, hentitlements]

/-- In every run whose refunds are booked on the amounts they were computed from, the posted
refunds and releases of every payment without a reconciliation account for its row. -/
theorem refunds_accounted (db : PaymentDb) (events : List (Event PaymentCall)) (hdb : db.Opening)
    (hrun : PaymentRun db events) (hfresh : MeetsAlong PaymentDb.FreshRefund db events) :
    ∀ p ∈ (paymentWorld db events).db.payments,
      (paymentWorld db events).db.Unreconciled p.paymentId →
        (paymentWorld db events).db.Accounted p := by
  intro p hp hnone
  have hsafe := hrun.safe PaymentDb.extends_agreeing hdb.sound hdb.agreeing hfresh
  have hvalid := hsafe.inv.1.valid p hp
  have hagrees := hsafe.inv.2 p hp hnone
  refine ⟨hagrees.refunded, hvalid.refunded_le, hagrees.released, hvalid.released_nonneg,
    hagrees.status, ?_, ?_⟩
  · intro g hg horder hstatus
    rw [hagrees.refunded]
    exact hagrees.taken (.inr ⟨g, hg, horder, hstatus⟩)
  · intro o ho horder hstatus
    rw [hagrees.refunded]
    exact hagrees.taken (.inl ⟨o, ho, horder, hstatus⟩)

def demoRefund (eventId reference refundId : String) (amount : Int64) : PaymentCall :=
  .event "stripe" ⟨eventId, .refundSucceeded, some "p", none, some reference, none, some amount⟩
    refundId

def demoRefunded : List (Event PaymentCall) :=
  demoCapture ++ [.start (demoRefund "e1" "r1" "x1" 30), .step 1, .step 1, .step 1,
    .start (demoRefund "e2" "r2" "x2" 50), .step 2, .step 2, .step 2]

theorem refunds_accounted_demo :
    (∀ p ∈ (paymentWorld demoPaymentDb demoRefunded).db.payments,
      (paymentWorld demoPaymentDb demoRefunded).db.Unreconciled p.paymentId →
        (paymentWorld demoPaymentDb demoRefunded).db.Accounted p) ∧
      (paymentWorld demoPaymentDb demoRefunded).db.payments.map (·.refundedAmount) = [80] :=
  ⟨refunds_accounted demoPaymentDb demoRefunded demoPaymentDb_opening (by decide +kernel)
    (by decide +kernel), by decide +kernel⟩

def demoRefundRaced : List (Event PaymentCall) :=
  demoCapture ++ [.start (demoRefund "e1" "r1" "x1" 30), .step 1, .step 1,
    .start (demoRefund "e2" "r2" "x2" 50), .step 2, .step 2, .step 1, .step 2]

/-- Eighty are given back, and fifty are written down. -/
theorem stale_refund_forgets :
    ¬ ∀ db events, db.Opening → PaymentRun db events →
      ∀ p ∈ (paymentWorld db events).db.payments,
        (paymentWorld db events).db.Unreconciled p.paymentId →
          (paymentWorld db events).db.Accounted p := by
  intro h
  have haccounted := h demoPaymentDb demoRefundRaced demoPaymentDb_opening (by decide +kernel)
    ⟨"p", "k", "u", "app", "d", "product", "price", "cap", "sku", .webProvider, "USD", 100, 3000,
      .partiallyRefunded, some "ref", 50, 0, 0⟩ (by decide +kernel) (by decide +kernel)
  exact absurd haccounted.refunded (by decide +kernel)

end Fabushi.Worker
