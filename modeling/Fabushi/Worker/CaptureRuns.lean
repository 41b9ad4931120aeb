import Fabushi.Worker.PaymentRuns

/-!
# Captures along runs

A success event that is acknowledged has captured its payment, unless the payment was
ended in between or its order could not be created: then the batch does nothing and is
acknowledged all the same.
-/

namespace Fabushi.Worker

open Interleaving Result

/-! ## Acknowledged success events -/

namespace PaymentDb

def Captured (db : PaymentDb) (paymentId : String) : Prop :=
  db.journal.isPosted (.capture paymentId) = true ∧
    ∃ q ∈ db.payments, q.paymentId = paymentId ∧ isCaptured q.status = true

def Capturable (db : PaymentDb) : PaymentOp → Prop
  | .postSuccess row _ _ false => ∃ q ∈ db.payments, q.paymentId = row.paymentId ∧
      (isCaptured q.status = true ∨ isOpenPayment q.status = true ∧
        ∀ o ∈ db.orders, ¬ (o.buyerUserId = q.userId ∧ o.idempotencyKey = q.idempotencyKey))
  | _ => True

instance (db : PaymentDb) (op : PaymentOp) : Decidable (db.Capturable op) := by
  unfold Capturable
  split <;> infer_instance

theorem Sound.captured_of_mem {db : PaymentDb} (h : db.Sound) {q : PaymentRow}
    (hq : q ∈ db.payments) (hstatus : isCaptured q.status = true) : db.Captured q.paymentId :=
  ⟨(h.captured q hq).symm.trans hstatus, q, hq, rfl, hstatus⟩

theorem CaptureStep.captured_iff {db db' : PaymentDb} {p q : PaymentRow}
    {provider reference : String} (h : db.Sound) (hq : q ∈ db.payments)
    (hintent : q.intent = p.intent) (hstep : CaptureStep p provider reference false db q db') :
    db'.Captured p.paymentId ↔ db.Capturable (.postSuccess p provider reference false) := by
  have hid := paymentId_of_intent hintent
  have hkeys : q.userId = p.userId ∧ q.idempotencyKey = p.idempotencyKey := by
    have hfields : q.intent.userId = p.intent.userId ∧
        q.intent.idempotencyKey = p.intent.idempotencyKey := by
      rw [hintent]
      exact ⟨rfl, rfl⟩
    exact hfields
  have hsound := (hstep.sound h hq hintent).1
  have hunique : ∀ r ∈ db.payments, r.paymentId = p.paymentId → r = q :=
    fun r hr hrid ↦ Table.eq_of_key_eq h.ids hr hq (hrid.trans hid.symm)
  cases hstep with
  | idle hopened hstatus hwhy =>
      refine iff_of_false ?_ ?_
      · rintro ⟨-, r, hr, hrid, hcaptured⟩
        rw [hunique r hr hrid, hstatus] at hcaptured
        cases hcaptured
      · rintro ⟨r, hr, hrid, hr'⟩
        obtain rfl := hunique r hr hrid
        rcases hr' with hcaptured | ⟨hopen, hnone⟩
        · cases hcaptured.symm.trans hstatus
        · rcases hwhy hopen with ⟨huser, -⟩ | ⟨o, ho, hbuyer, hkey⟩
          · cases huser
          · exact hnone o ho ⟨hbuyer.trans hkeys.1.symm, hkey.trans hkeys.2.symm⟩
  | again hopened hstatus hgrants =>
      refine iff_of_true ?_ ⟨q, hq, hid, .inl hstatus⟩
      rw [← hid]
      exact hsound.captured_of_mem hq hstatus
  | captured hopened hstatus hcovered hkey hadds hgrants =>
      refine iff_of_true ?_ ⟨q, hq, hid, .inr ⟨hstatus, fun o ho hboth ↦ hkey o ho ?_⟩⟩
      · have hmem : succeeded reference q ∈ Table.update (fun r ↦ r.paymentId = p.paymentId &&
            isOpenPayment r.status) (succeeded reference) db.payments :=
          Table.mem_update.mpr ⟨q, hq, by simp [hid, hstatus]⟩
        have hcaptured := hsound.captured_of_mem hmem rfl
        rwa [show (succeeded reference q).paymentId = p.paymentId from hid] at hcaptured
      · exact ⟨hboth.1.trans hkeys.1, hboth.2.trans hkeys.2⟩

end PaymentDb

def demoPaymentDb : PaymentDb where
  journal :=
    { accounts := [⟨"user:u:BEAN", "user", "u", "BEAN"⟩, ⟨"grants:BEAN", "platform", "grants", "BEAN"⟩]
      entries := [⟨.other "g", "grant", "g", .posted⟩]
      lines := [⟨.other "g", "user", "user:u:BEAN", "BEAN", 100⟩,
        ⟨.other "g", "grants", "grants:BEAN", "BEAN", -100⟩] }
  payments := [⟨"p", "k", "u", "app", "d", "product", "price", "cap", "sku", .webProvider, "USD", 100,
    3000, .created, none, 0, 0, 0⟩]

theorem demoPaymentDb_opening : demoPaymentDb.Opening where
  journal :=
    { wf := ⟨by decide +kernel, by decide +kernel, by decide +kernel⟩
      references := by decide +kernel
      balanced := by decide +kernel
      named := by
        intro e he
        obtain rfl : e = ⟨.other "g", "grant", "g", .posted⟩ := by simpa [demoPaymentDb] using he
        change "grant" ∉ paymentReferenceTypes
        decide +kernel }
  others := by
    intro e he
    obtain rfl : e = ⟨.other "g", "grant", "g", .posted⟩ := by simpa [demoPaymentDb] using he
    exact ⟨"g", rfl⟩
  ids := by decide +kernel
  keys := by decide +kernel
  valid := by
    intro p hp
    obtain rfl := List.mem_singleton.mp hp
    exact ⟨by decide, by decide, by decide, by decide, by decide, by decide, by decide⟩
  uncaptured := by decide +kernel
  empty := ⟨rfl, rfl, rfl, rfl, rfl⟩

def demoSuccess : PaymentCall :=
  .event "stripe" ⟨"e", .paymentSucceeded, some "p", some "ref", none, none, none⟩ ""

def demoCapture : List (Event PaymentCall) :=
  [.start demoSuccess, .step 0, .step 0]

def demoPurchase : Purchase where
  userId := "u"
  idempotencyKey := "k"
  price := { productId := "beans", priceId := "b", pluginId := "shop", sku := "s", capability := "c",
             currency := "BEAN", amount := 10 }
  orderId := "o"
  entryId := "i"
  entitlementId := "h"

def demoDropped : List (Event PaymentCall) :=
  [.start (.purchase demoPurchase), .step 0, .step 0, .step 0, .step 0, .start demoSuccess, .step 1,
    .step 1]

end Fabushi.Worker
