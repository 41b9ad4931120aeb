import Fabushi.Messaging.EngineRuns

/-!
# Invoices, orders and their payments

The invariant that ties the three parts of the commerce state together: every
order refers to a stored invoice and to the ledger entry of its own checkout, and
every transfer in the ledger is the payment of a stored order. It is kept by every
step except `upsertOrder`, which no client command is projected to.
-/

namespace Fabushi.Messaging

open Std

/-! ## The ledger after a movement -/

namespace WalletLedger

variable {ledger ledger' : WalletLedger} {requestId : String} {entry : LedgerEntry}
  {posted : LedgerEntry → Prop}

structure Appended (ledger ledger' : WalletLedger) (entry : LedgerEntry) : Prop where
  fresh : ledger.entries[entry.id]? = none
  entries : ledger'.entries = ledger.entries.insert entry.id entry
  stored : ∀ a c, ledger'.stored a c = ledger.stored a c +
    (entry.posting.incoming a c - entry.posting.outgoing a c)

structure Unmoved (ledger ledger' : WalletLedger) : Prop where
  entries : ledger'.entries = ledger.entries
  requestEntries : ledger'.requestEntries = ledger.requestEntries
  stored : ∀ a c, ledger'.stored a c = ledger.stored a c

theorem Moved.cases (hw : ledger.WellFormed) (h : Moved ledger ledger' requestId entry posted) :
    (requestId ∈ ledger.requestEntries ∧ Unmoved ledger ledger' ∧
      ledger.entryForRequest requestId = some entry) ∨
    (requestId ∉ ledger.requestEntries ∧ Appended ledger ledger' entry ∧ posted entry ∧
      entry.requestId = requestId ∧
      (∀ a, entry.fromAccountId = some a → entry.toAccountId ≠ some a) ∧
      0 < entry.amount.amountMinor.toInt ∧
      ledger'.requestEntries = ledger.requestEntries.insert requestId entry.id) := by
  by_cases hknown : ledger.entryForRequest requestId = none
  · obtain ⟨hrequest, hid, hposted, hpos, hne, hentries, hindex, hstored⟩ := h.fresh hknown
    refine Or.inr ⟨?_, ⟨?_, hentries, hstored⟩, hposted, hrequest, hne, hpos, hindex⟩
    · exact BTreeMap.get_eq_none_iff.mp (hw.requestEntries_of_none hknown)
    · rw [hid]
      exact hw.get_nextEntryId
  · obtain ⟨hentries, hindex, hstored, hentry⟩ := h.replay hknown
    refine Or.inl ⟨?_, ⟨hentries, hindex, hstored⟩, hentry⟩
    by_contra hnot
    have hnone := BTreeMap.get_eq_none_iff.mpr hnot
    simp [entryForRequest, hnone] at hknown

theorem Moved.get_of_get (hw : ledger.WellFormed) (h : Moved ledger ledger' requestId entry posted)
    {id : String} {e : LedgerEntry} (hget : ledger.entries[id]? = some e) :
    ledger'.entries[id]? = some e := by
  rcases h.cases hw with ⟨_, hunmoved, _⟩ | ⟨_, happended, _⟩
  · rw [hunmoved.entries, hget]
  · have hne : entry.id ≠ id := by
      rintro rfl
      rw [happended.fresh] at hget
      cases hget
    rw [happended.entries, BTreeMap.get_insert_ne _ _ hne, hget]

theorem Moved.get_cases (hw : ledger.WellFormed) (h : Moved ledger ledger' requestId entry posted)
    {id : String} {e : LedgerEntry} (hget : ledger'.entries[id]? = some e) :
    ledger.entries[id]? = some e ∨
      (id = entry.id ∧ e = entry ∧ posted entry ∧ requestId ∉ ledger.requestEntries) := by
  rcases h.cases hw with ⟨_, hunmoved, _⟩ | ⟨hnew, happended, hposted, _⟩
  · left
    rw [← hunmoved.entries, hget]
  · rw [happended.entries] at hget
    rcases BTreeMap.get_insert_cases hget with ⟨rfl, rfl⟩ | hget
    · exact Or.inr ⟨rfl, rfl, hposted, hnew⟩
    · exact Or.inl hget

theorem Moved.entry_get (hw : ledger.WellFormed) (h : Moved ledger ledger' requestId entry posted) :
    ledger'.entries[entry.id]? = some entry ∧ entry.requestId = requestId := by
  rcases h.cases hw with ⟨_, hunmoved, hentry⟩ | ⟨_, happended, _, hrequest, _⟩
  · rw [hunmoved.entries]
    exact hw.entry_of_request hentry
  · refine ⟨?_, hrequest⟩
    rw [happended.entries, BTreeMap.get_insert_self]

end WalletLedger

/-! ## The invariant -/

def checkoutRequestId (orderId : String) : String :=
  "checkout:" ++ orderId

theorem checkoutRequestId_injective : Function.Injective checkoutRequestId := by
  intro a b h
  exact (String.append_right_inj _).mp h

namespace Commerce

structure PaidBy (s : Commerce) (id : String) (order : PaymentOrder) (entry : LedgerEntry) :
    Prop where
  recorded : order.providerPaymentId = some entry.id
  stored : s.wallet.entries[entry.id]? = some entry
  request : entry.requestId = checkoutRequestId id
  transfer : entry.kind = .transfer →
    entry.fromAccountId = some (walletAccountId order.buyerId) ∧ entry.amount = order.amount

structure Sound (s : Commerce) : Prop where
  wallet : s.wallet.WellFormed
  invoice : ∀ (id : String) (invoice : Invoice), s.invoices[id]? = some invoice →
    invoice.id = id ∧ invoice.isValid = true
  order_id : ∀ (id : String) (order : PaymentOrder), s.orders[id]? = some order → order.id = id
  order_status : ∀ (id : String) (order : PaymentOrder), s.orders[id]? = some order →
    order.status = .paid ∨ order.status = .refunded
  order_invoice : ∀ (id : String) (order : PaymentOrder), s.orders[id]? = some order →
    order.invoiceId ∈ s.invoices
  order_paid : ∀ (id : String) (order : PaymentOrder), s.orders[id]? = some order →
    ∃ entry, s.PaidBy id order entry
  transfer_order : ∀ (id : String) (entry : LedgerEntry), s.wallet.entries[id]? = some entry →
    entry.kind = .transfer → ∃ orderId ∈ s.orders, entry.requestId = checkoutRequestId orderId

theorem sound_empty : Sound {} where
  wallet := WalletLedger.wellFormed_empty
  invoice := by simp
  order_id := by simp
  order_status := by simp
  order_invoice := by simp
  order_paid := by simp
  transfer_order := by simp

variable {s s' : Commerce} {command : Command}

theorem PaidBy.mono {id : String} {order order' : PaymentOrder} {entry : LedgerEntry}
    (h : s.PaidBy id order entry)
    (hmono : ∀ (id : String) (e : LedgerEntry), s.wallet.entries[id]? = some e →
      s'.wallet.entries[id]? = some e)
    (hpayment : order'.providerPaymentId = order.providerPaymentId)
    (hbuyer : order'.buyerId = order.buyerId) (hamount : order'.amount = order.amount) :
    s'.PaidBy id order' entry where
  recorded := hpayment.trans h.recorded
  stored := hmono _ _ h.stored
  request := h.request
  transfer := by
    rw [hbuyer, hamount]
    exact h.transfer

theorem Sound.order_insert_eq (hs : s.Sound) {id : String} {order : PaymentOrder}
    (h : s.orders[id]? = some order) : s.orders.insert order.id order = s.orders := by
  rw [hs.order_id id order h]
  exact BTreeMap.insert_of_get h

theorem Sound.invoiced (hs : s.Sound) {invoice : Invoice} (hvalid : invoice.isValid = true) :
    Sound { s with invoices := s.invoices.insert invoice.id invoice } where
  wallet := hs.wallet
  invoice := by
    intro id stored h
    rcases BTreeMap.get_insert_cases h with ⟨rfl, rfl⟩ | h
    · exact ⟨rfl, hvalid⟩
    · exact hs.invoice id stored h
  order_id := hs.order_id
  order_status := hs.order_status
  order_invoice := by
    intro id order h
    exact ExtTreeMap.mem_insert.mpr (Or.inr (hs.order_invoice id order h))
  order_paid := by
    intro id order h
    obtain ⟨entry, hpaid⟩ := hs.order_paid id order h
    exact ⟨entry, hpaid.mono (fun _ _ hget ↦ hget) rfl rfl rfl⟩
  transfer_order := hs.transfer_order

theorem Sound.mem_orders_of_transfer (hs : s.Sound) {id orderId : String} {entry : LedgerEntry}
    (hget : s.wallet.entries[id]? = some entry) (hkind : entry.kind = .transfer)
    (hrequest : entry.requestId = checkoutRequestId orderId) : orderId ∈ s.orders := by
  obtain ⟨orderId', hmem, hrequest'⟩ := hs.transfer_order id entry hget hkind
  obtain rfl := checkoutRequestId_injective (hrequest.symm.trans hrequest')
  exact hmem

theorem Sound.paid (hs : s.Sound) {invoiceId orderId : String} {buyerId : ActorId}
    {customer : Option CustomerInfo} {createdAtMs amountMinor : Int64} {invoice : Invoice}
    {wallet : WalletLedger} {entry : LedgerEntry} (hinvoice : s.invoices[invoiceId]? = some invoice)
    (hnew : s.orders[orderId]? = none)
    (moved : s.wallet.Moved wallet (checkoutRequestId orderId) entry
      (IsPayment invoice buyerId amountMinor)) :
    Sound { s with
      wallet
      orders := s.orders.insert orderId
        (paidOrder invoice orderId buyerId customer createdAtMs amountMinor entry) } where
  wallet := hs.wallet.moved moved
  invoice := hs.invoice
  order_id := by
    intro id order h
    rcases BTreeMap.get_insert_cases h with ⟨rfl, rfl⟩ | h
    · rfl
    · exact hs.order_id id order h
  order_status := by
    intro id order h
    rcases BTreeMap.get_insert_cases h with ⟨rfl, rfl⟩ | h
    · exact Or.inl rfl
    · exact hs.order_status id order h
  order_invoice := by
    intro id order h
    rcases BTreeMap.get_insert_cases h with ⟨rfl, rfl⟩ | h
    · have hid : invoice.id = invoiceId := (hs.invoice invoiceId invoice hinvoice).1
      change invoice.id ∈ s.invoices
      rw [hid, ExtTreeMap.mem_iff_isSome_getElem?, hinvoice]
      rfl
    · exact hs.order_invoice id order h
  order_paid := by
    intro id order h
    rcases BTreeMap.get_insert_cases h with ⟨rfl, rfl⟩ | h
    · obtain ⟨hget, hrequest⟩ := moved.entry_get hs.wallet
      refine ⟨entry, rfl, hget, hrequest, ?_⟩
      intro hkind
      rcases moved.get_cases hs.wallet hget with hold | ⟨_, _, hposted, _⟩
      · -- a transfer that was there before belongs to an order that was there before
        have hmem := hs.mem_orders_of_transfer hold hkind hrequest
        exact absurd hmem (BTreeMap.get_eq_none_iff.mp hnew)
      · obtain ⟨_, hfrom, _, hamount⟩ := hposted
        have hvalid := (hs.invoice invoiceId invoice hinvoice).2
        refine ⟨hfrom, hamount.trans ?_⟩
        change _ = Money.new invoice.currency amountMinor
        rw [Invoice.money_currency hvalid, normalizeCurrency_eq_self (Invoice.isAsciiUppercase_currency hvalid)]
    · obtain ⟨entry', hpaid⟩ := hs.order_paid id order h
      exact ⟨entry', hpaid.mono (fun _ _ ↦ moved.get_of_get hs.wallet) rfl rfl rfl⟩
  transfer_order := by
    intro id e hget hkind
    rcases moved.get_cases hs.wallet hget with hold | ⟨_, rfl, _, _⟩
    · obtain ⟨orderId', hmem, hrequest⟩ := hs.transfer_order id e hold hkind
      exact ⟨orderId', ExtTreeMap.mem_insert.mpr (Or.inr hmem), hrequest⟩
    · exact ⟨orderId, ExtTreeMap.mem_insert_self, (moved.entry_get hs.wallet).2⟩

theorem Sound.refunded (hs : s.Sound) {orderId requestId originalEntryId : String}
    {refundedAtMs : Int64} {order : PaymentOrder} {wallet : WalletLedger} {entry : LedgerEntry}
    (horder : s.orders[orderId]? = some order)
    (moved : s.wallet.Moved wallet requestId entry (IsReversal s.wallet originalEntryId)) :
    Sound { s with
      wallet
      orders := s.orders.insert order.id (refundedOrder order refundedAtMs) } where
  wallet := hs.wallet.moved moved
  invoice := hs.invoice
  order_id := by
    intro id stored h
    rcases BTreeMap.get_insert_cases h with ⟨rfl, rfl⟩ | h
    · rfl
    · exact hs.order_id id stored h
  order_status := by
    intro id stored h
    rcases BTreeMap.get_insert_cases h with ⟨rfl, rfl⟩ | h
    · exact Or.inr rfl
    · exact hs.order_status id stored h
  order_invoice := by
    intro id stored h
    rcases BTreeMap.get_insert_cases h with ⟨rfl, rfl⟩ | h
    · exact hs.order_invoice orderId order horder
    · exact hs.order_invoice id stored h
  order_paid := by
    intro id stored h
    rcases BTreeMap.get_insert_cases h with ⟨rfl, rfl⟩ | h
    · rw [hs.order_id orderId order horder]
      obtain ⟨entry', hpaid⟩ := hs.order_paid orderId order horder
      exact ⟨entry', hpaid.mono (fun _ _ ↦ moved.get_of_get hs.wallet) rfl rfl rfl⟩
    · obtain ⟨entry', hpaid⟩ := hs.order_paid id stored h
      exact ⟨entry', hpaid.mono (fun _ _ ↦ moved.get_of_get hs.wallet) rfl rfl rfl⟩
  transfer_order := by
    intro id e hget hkind
    rcases moved.get_cases hs.wallet hget with hold | ⟨_, rfl, hposted, _⟩
    · obtain ⟨orderId', hmem, hrequest⟩ := hs.transfer_order id e hold hkind
      exact ⟨orderId', ExtTreeMap.mem_insert.mpr (Or.inr hmem), hrequest⟩
    · rw [hposted.1] at hkind
      cases hkind

theorem Sound.settled (hs : s.Sound) {requestId : String} {ownerId : ActorId} {amount : Money}
    {wallet : WalletLedger} {entry : LedgerEntry}
    (moved : s.wallet.Moved wallet requestId entry (IsSettlement ownerId amount)) :
    Sound { s with wallet } where
  wallet := hs.wallet.moved moved
  invoice := hs.invoice
  order_id := hs.order_id
  order_status := hs.order_status
  order_invoice := hs.order_invoice
  order_paid := by
    intro id order h
    obtain ⟨entry', hpaid⟩ := hs.order_paid id order h
    exact ⟨entry', hpaid.mono (fun _ _ ↦ moved.get_of_get hs.wallet) rfl rfl rfl⟩
  transfer_order := by
    intro id e hget hkind
    rcases moved.get_cases hs.wallet hget with hold | ⟨_, rfl, hposted, _⟩
    · exact hs.transfer_order id e hold hkind
    · rw [hposted.1] at hkind
      cases hkind

def IsServiceCommand : Command → Prop
  | .upsertOrder _ => False
  | _ => True

theorem Sound.step (hs : s.Sound) (h : s.Step command s') (hcommand : IsServiceCommand command) :
    s'.Sound := by
  cases h with
  | idle => exact hs
  | invoiced valid => exact hs.invoiced valid
  | ordered => exact hcommand.elim
  | reaffirmed stored =>
      rw [hs.order_insert_eq stored]
      exact hs
  | paid invoice_eq new _ moved => exact hs.paid invoice_eq new moved
  | refunded order_eq _ _ _ _ moved => exact hs.refunded order_eq moved
  | settled moved => exact hs.settled moved

end Commerce

end Fabushi.Messaging
