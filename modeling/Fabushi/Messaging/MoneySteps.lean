import Fabushi.Messaging.CommerceInvariant

/-!
# Which steps move money

From the commerce steps and their invariant: which steps create a paid order,
which refund one, and which account a debit falls on.
-/

namespace Fabushi.Messaging

open Std

def Command.payer : Command → Option ActorId
  | .checkoutInvoice _ _ buyerId _ _ => some buyerId
  | .refundOrder _ sellerId _ _ => some sellerId
  | _ => none

def Command.invoice : Command → Option Invoice
  | .createInvoice invoice => some invoice
  | _ => none

def Command.orderId : Command → Option String
  | .checkoutInvoice _ orderId _ _ _ => some orderId
  | .refundOrder orderId _ _ _ => some orderId
  | _ => none

theorem walletAccountId_injective : Function.Injective walletAccountId := by
  rintro ⟨a⟩ ⟨b⟩ h
  obtain rfl := (String.append_right_inj _).mp (congrArg Id.value h)
  rfl

theorem WalletLedger.Appended.source_of_debit
    {ledger ledger' : WalletLedger} {entry : LedgerEntry} (h : ledger.Appended ledger' entry)
    (hpos : 0 < entry.amount.amountMinor.toInt) {a : WalletAccountId} {c : String}
    (hdebit : ledger'.stored a c < ledger.stored a c) : entry.fromAccountId = some a := by
  by_contra hne
  have hout : entry.posting.outgoing a c = 0 := if_neg fun hsource ↦ hne hsource.1
  have hin : 0 ≤ entry.posting.incoming a c := by
    unfold DoubleEntry.Posting.incoming
    split
    · exact hpos.le
    · exact le_rfl
  rw [h.stored, hout] at hdebit
  omega

namespace Commerce

variable {s s' : Commerce} {command : Command}

def PaidAt (s : Commerce) (id : String) : Prop :=
  ∃ order, s.orders[id]? = some order ∧ order.status = .paid

/-! ## Paid and refunded orders -/

theorem Step.paid_inv (hs : s.Sound) (h : s.Step command s') (hcommand : IsServiceCommand command)
    {id : String} {order : PaymentOrder} (hnot : ¬ s.PaidAt id)
    (horder : s'.orders[id]? = some order) (hpaid : order.status = .paid) :
    ∃ invoiceId buyerId customer createdAtMs invoice amountMinor entry,
      command = .checkoutInvoice invoiceId id buyerId customer createdAtMs ∧
      s.orders[id]? = none ∧ s.invoices[invoiceId]? = some invoice ∧
      invoice.checkedTotalMinor = some amountMinor ∧
      order = paidOrder invoice id buyerId customer createdAtMs amountMinor entry ∧
      s.wallet.Moved s'.wallet (checkoutRequestId id) entry
        (IsPayment invoice buyerId amountMinor) := by
  cases h with
  | idle => exact absurd ⟨order, horder, hpaid⟩ hnot
  | invoiced => exact absurd ⟨order, horder, hpaid⟩ hnot
  | ordered => exact hcommand.elim
  | reaffirmed stored =>
      rw [hs.order_insert_eq stored] at horder
      exact absurd ⟨order, horder, hpaid⟩ hnot
  | paid invoice_eq new total moved =>
      rcases BTreeMap.get_insert_cases horder with ⟨rfl, rfl⟩ | hold
      · exact ⟨_, _, _, _, _, _, _, rfl, new, invoice_eq, total, rfl, moved⟩
      · exact absurd ⟨order, hold, hpaid⟩ hnot
  | refunded _ _ _ _ _ moved =>
      rcases BTreeMap.get_insert_cases horder with ⟨rfl, rfl⟩ | hold
      · cases hpaid
      · exact absurd ⟨order, hold, hpaid⟩ hnot
  | settled => exact absurd ⟨order, horder, hpaid⟩ hnot

theorem Step.refunded_inv (hs : s.Sound) (h : s.Step command s')
    (hcommand : IsServiceCommand command) {id : String} {order : PaymentOrder}
    (horder : s.orders[id]? = some order) (hpaid : order.status = .paid) (hnot : ¬ s'.PaidAt id) :
    ∃ sellerId requestId refundedAtMs invoice original entry,
      command = .refundOrder id sellerId requestId refundedAtMs ∧
      s.invoices[order.invoiceId]? = some invoice ∧ invoice.sellerId = sellerId ∧
      s.PaidBy id order original ∧
      s'.orders[id]? = some (refundedOrder order refundedAtMs) ∧
      s.wallet.Moved s'.wallet requestId entry (IsReversal s.wallet original.id) := by
  cases h with
  | idle => exact absurd ⟨order, horder, hpaid⟩ hnot
  | invoiced => exact absurd ⟨order, horder, hpaid⟩ hnot
  | ordered => exact hcommand.elim
  | reaffirmed stored =>
      rw [hs.order_insert_eq stored] at hnot
      exact absurd ⟨order, horder, hpaid⟩ hnot
  | @paid _ orderId _ _ _ _ _ _ _ _ new =>
      have hne : orderId ≠ id := by
        rintro rfl
        rw [new] at horder
        cases horder
      have hkept := horder
      rw [← BTreeMap.get_insert_ne _ _ hne] at hkept
      exact absurd ⟨order, hkept, hpaid⟩ hnot
  | @refunded orderId _ _ _ _ order' _ _ _ order_eq invoice_eq seller status payment moved =>
      have hid := hs.order_id orderId order' order_eq
      by_cases hsame : orderId = id
      · subst hsame
        obtain rfl : order' = order := Option.some.inj (order_eq.symm.trans horder)
        obtain ⟨original, hpaidBy⟩ := hs.order_paid orderId order' order_eq
        obtain rfl := Option.some.inj (payment.symm.trans hpaidBy.recorded)
        refine ⟨_, _, _, _, original, _, rfl, invoice_eq, seller, hpaidBy, ?_, moved⟩
        simp only [hid]
        exact BTreeMap.get_insert_self _ _ _
      · have hkept := horder
        rw [← BTreeMap.get_insert_ne _ _ (hid.symm ▸ hsame)] at hkept
        exact absurd ⟨order, hkept, hpaid⟩ hnot
  | settled => exact absurd ⟨order, horder, hpaid⟩ hnot

theorem Step.refunded_stays (hs : s.Sound) (h : s.Step command s')
    (hcommand : IsServiceCommand command) {id : String} {order : PaymentOrder}
    (horder : s.orders[id]? = some order) (hrefunded : order.status = .refunded) :
    s'.orders[id]? = some order := by
  cases h with
  | idle => exact horder
  | invoiced => exact horder
  | ordered => exact hcommand.elim
  | reaffirmed stored =>
      rw [hs.order_insert_eq stored]
      exact horder
  | @paid _ orderId _ _ _ _ _ _ _ _ new =>
      have hne : orderId ≠ id := by
        rintro rfl
        rw [new] at horder
        cases horder
      exact (BTreeMap.get_insert_ne _ _ hne).trans horder
  | @refunded orderId _ _ _ _ order' _ _ _ order_eq _ _ status =>
      have hid := hs.order_id orderId order' order_eq
      have hne : order'.id ≠ id := by
        rintro rfl
        rw [hid] at horder
        obtain rfl := Option.some.inj (order_eq.symm.trans horder)
        rw [hrefunded] at status
        cases status
      exact (BTreeMap.get_insert_ne _ _ hne).trans horder
  | settled => exact horder

theorem Step.stored_inv (hs : s.Sound) (h : s.Step command s') {a : WalletAccountId} {c : String}
    (hne : s'.wallet.stored a c ≠ s.wallet.stored a c) :
    (∃ requestId ownerId amount reference settledAtMs,
      command = .creditWalletSettlement requestId ownerId amount reference settledAtMs) ∨
    ∃ id, command.orderId = some id ∧
      ((s.orders[id]? = none ∧ s'.PaidAt id) ∨ (s.PaidAt id ∧ ¬ s'.PaidAt id)) := by
  cases h with
  | idle => exact absurd rfl hne
  | invoiced => exact absurd rfl hne
  | ordered => exact absurd rfl hne
  | reaffirmed => exact absurd rfl hne
  | paid _ new =>
      exact Or.inr ⟨_, rfl, Or.inl ⟨new, _, BTreeMap.get_insert_self _ _ _, rfl⟩⟩
  | @refunded orderId _ _ _ _ order _ _ _ order_eq _ _ status =>
      refine Or.inr ⟨orderId, rfl, Or.inr ⟨⟨order, order_eq, status⟩, ?_⟩⟩
      rintro ⟨order', horder', hpaid⟩
      simp only [hs.order_id orderId order order_eq] at horder'
      rw [BTreeMap.get_insert_self] at horder'
      cases horder'
      cases hpaid
  | settled => exact Or.inl ⟨_, _, _, _, _, rfl⟩

/-! ## Who is debited -/

def SellersKept (s : Commerce) : Prop :=
  ∀ (id : String) (order : PaymentOrder) (invoice : Invoice) (entry : LedgerEntry),
    s.orders[id]? = some order → order.status = .paid →
    s.invoices[order.invoiceId]? = some invoice → s.PaidBy id order entry →
    entry.kind = .transfer → entry.toAccountId = some (walletAccountId invoice.sellerId)

/-- An invoice that a paid order refers to is replaced by one of the same seller only. -/
def KeepsSeller (s : Commerce) (command : Command) : Prop :=
  ∀ invoice ∈ command.invoice, ∀ stored ∈ s.invoices[invoice.id]?,
    (∃ order ∈ s.orders.toList, order.2.status = .paid ∧ order.2.invoiceId = invoice.id) →
      stored.sellerId = invoice.sellerId

instance (s : Commerce) (command : Command) : Decidable (s.KeepsSeller command) :=
  inferInstanceAs (Decidable (∀ invoice ∈ command.invoice, ∀ stored ∈ s.invoices[invoice.id]?, _))

theorem Sound.paidBy_of_paidBy (hs : s.Sound) {id : String} {order : PaymentOrder}
    {entry : LedgerEntry} (horder : s.orders[id]? = some order)
    (hmono : ∀ (id : String) (e : LedgerEntry), s.wallet.entries[id]? = some e →
      s'.wallet.entries[id]? = some e)
    (h : s'.PaidBy id order entry) : s.PaidBy id order entry := by
  obtain ⟨entry', hpaid⟩ := hs.order_paid id order horder
  have hid : entry.id = entry'.id := Option.some.inj (h.recorded.symm.trans hpaid.recorded)
  have hget := h.stored
  rw [hid, hmono _ _ hpaid.stored] at hget
  exact Option.some.inj hget ▸ hpaid

theorem SellersKept.invoiced (hs : s.Sound) (hk : s.SellersKept) {invoice : Invoice}
    (hkeep : s.KeepsSeller (.createInvoice invoice)) :
    SellersKept { s with invoices := s.invoices.insert invoice.id invoice } := by
  intro id order invoice' entry horder hpaid hinvoice hpaidBy hkind
  have hpaidBy' : s.PaidBy id order entry :=
    ⟨hpaidBy.recorded, hpaidBy.stored, hpaidBy.request, hpaidBy.transfer⟩
  rcases BTreeMap.get_insert_cases hinvoice with ⟨hid, rfl⟩ | hold
  · -- the replaced invoice named the same seller
    have hmem := hs.order_invoice id order horder
    rw [ExtTreeMap.mem_iff_isSome_getElem?, Option.isSome_iff_exists] at hmem
    obtain ⟨stored, hstored⟩ := hmem
    have hreferred : ∃ p ∈ s.orders.toList, p.2.status = .paid ∧ p.2.invoiceId = invoice'.id :=
      ⟨(id, order), ExtTreeMap.mem_toList_iff_getElem?_eq_some.mpr horder, hpaid, hid⟩
    rw [← hkeep invoice' rfl stored (hid ▸ hstored) hreferred]
    exact hk id order stored entry horder hpaid hstored hpaidBy' hkind
  · exact hk id order invoice' entry horder hpaid hold hpaidBy' hkind

theorem SellersKept.paid (hs : s.Sound) (hk : s.SellersKept) {invoiceId orderId : String}
    {buyerId : ActorId} {customer : Option CustomerInfo} {createdAtMs amountMinor : Int64}
    {invoice : Invoice} {wallet : WalletLedger} {entry : LedgerEntry}
    (hinvoice : s.invoices[invoiceId]? = some invoice) (hnew : s.orders[orderId]? = none)
    (moved : s.wallet.Moved wallet (checkoutRequestId orderId) entry
      (IsPayment invoice buyerId amountMinor)) :
    SellersKept { s with
      wallet
      orders := s.orders.insert orderId
        (paidOrder invoice orderId buyerId customer createdAtMs amountMinor entry) } := by
  intro id order invoice' entry' horder hpaid hinvoice' hpaidBy hkind
  rcases BTreeMap.get_insert_cases horder with ⟨rfl, rfl⟩ | hold
  · obtain rfl : invoice = invoice' := by
      have hlookup : s.invoices[invoice.id]? = some invoice' := hinvoice'
      rw [(hs.invoice invoiceId invoice hinvoice).1, hinvoice] at hlookup
      exact Option.some.inj hlookup
    rcases moved.get_cases hs.wallet hpaidBy.stored with hbefore | ⟨_, rfl, hposted, _⟩
    · have hmem := hs.mem_orders_of_transfer hbefore hkind hpaidBy.request
      exact absurd hmem (BTreeMap.get_eq_none_iff.mp hnew)
    · exact hposted.2.2.1
  · refine hk id order invoice' entry' hold hpaid hinvoice' ?_ hkind
    exact hs.paidBy_of_paidBy hold (fun _ _ ↦ moved.get_of_get hs.wallet) hpaidBy

theorem SellersKept.refunded (hs : s.Sound) (hk : s.SellersKept)
    {requestId : String} {refundedAtMs : Int64} {order : PaymentOrder} {wallet : WalletLedger}
    {entry : LedgerEntry} {posted : LedgerEntry → Prop}
    (moved : s.wallet.Moved wallet requestId entry posted) :
    SellersKept { s with
      wallet
      orders := s.orders.insert order.id (refundedOrder order refundedAtMs) } := by
  intro id stored invoice entry' hstored hpaid hinvoice hpaidBy hkind
  rcases BTreeMap.get_insert_cases hstored with ⟨rfl, rfl⟩ | hold
  · cases hpaid
  · refine hk id stored invoice entry' hold hpaid hinvoice ?_ hkind
    exact hs.paidBy_of_paidBy hold (fun _ _ ↦ moved.get_of_get hs.wallet) hpaidBy

theorem SellersKept.step (hs : s.Sound) (hk : s.SellersKept) (h : s.Step command s')
    (hcommand : IsServiceCommand command) (hkeep : s.KeepsSeller command) : s'.SellersKept := by
  cases h with
  | idle => exact hk
  | invoiced => exact hk.invoiced hs hkeep
  | ordered => exact hcommand.elim
  | reaffirmed stored =>
      rw [hs.order_insert_eq stored]
      exact hk
  | paid invoice_eq new _ moved => exact hk.paid hs invoice_eq new moved
  | refunded _ _ _ _ _ moved => exact hk.refunded hs moved
  | settled moved =>
      intro id order invoice entry horder hpaid hinvoice hpaidBy hkind
      refine hk id order invoice entry horder hpaid hinvoice ?_ hkind
      exact hs.paidBy_of_paidBy horder (fun _ _ ↦ moved.get_of_get hs.wallet) hpaidBy

theorem posted_of_debit (hs : s.Sound) {wallet : WalletLedger} {requestId : String}
    {entry : LedgerEntry} {posted : LedgerEntry → Prop}
    (moved : s.wallet.Moved wallet requestId entry posted) {a : WalletAccountId} {c : String}
    (hdebit : wallet.stored a c < s.wallet.stored a c) :
    posted entry ∧ entry.fromAccountId = some a := by
  rcases moved.cases hs.wallet with ⟨_, hunmoved, _⟩ | ⟨_, happended, hposted, _, _, hpos, _⟩
  · exact absurd (hunmoved.stored a c) hdebit.ne
  · exact ⟨hposted, happended.source_of_debit hpos hdebit⟩

theorem Step.payer_of_debit (hs : s.Sound) (hk : s.SellersKept) (h : s.Step command s')
    {a : WalletAccountId} {c : String} (hdebit : s'.wallet.stored a c < s.wallet.stored a c) :
    ∃ actorId, command.payer = some actorId ∧ a = walletAccountId actorId := by
  cases h with
  | idle => exact absurd rfl hdebit.ne
  | invoiced => exact absurd rfl hdebit.ne
  | ordered => exact absurd rfl hdebit.ne
  | reaffirmed => exact absurd rfl hdebit.ne
  | paid _ _ _ moved =>
      obtain ⟨⟨_, hfrom, _⟩, hsource⟩ := posted_of_debit hs moved hdebit
      exact ⟨_, rfl, (Option.some.inj (hfrom.symm.trans hsource)).symm⟩
  | @refunded orderId _ _ _ _ order invoice _ _ order_eq invoice_eq seller status payment moved =>
      obtain ⟨⟨_, original, horiginal, hkind, hfrom, _⟩, hsource⟩ := posted_of_debit hs moved hdebit
      obtain ⟨entry, hpaidBy⟩ := hs.order_paid orderId order order_eq
      obtain rfl := Option.some.inj (payment.symm.trans hpaidBy.recorded)
      obtain rfl := Option.some.inj (horiginal.symm.trans hpaidBy.stored)
      have hto := hk orderId order invoice original order_eq status invoice_eq hpaidBy hkind
      refine ⟨_, rfl, ?_⟩
      rw [hfrom, hto, seller] at hsource
      exact (Option.some.inj hsource).symm
  | settled moved =>
      obtain ⟨⟨_, hfrom, _⟩, hsource⟩ := posted_of_debit hs moved hdebit
      rw [hfrom] at hsource
      cases hsource

end Commerce

end Fabushi.Messaging
