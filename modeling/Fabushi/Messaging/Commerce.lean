import Fabushi.Messaging.EngineFrame
import Fabushi.Messaging.LedgerInvariant
import Fabushi.Library.Runs

/-!
# The commerce view of the engine

Invoices, orders and the wallet are written by five commands only. `Commerce.Step`
says once what a command can do to them; every statement about money in this
development is derived from it.
-/

namespace Fabushi.Messaging

open Result Std

structure Commerce where
  invoices : BTreeMap String Invoice := ∅
  orders : BTreeMap String PaymentOrder := ∅
  wallet : WalletLedger := {}

def MessagingState.commerce (state : MessagingState) : Commerce where
  invoices := state.invoices
  orders := state.orders
  wallet := state.wallet

/-! ## Opening the accounts of a movement -/

namespace WalletLedger

/-- Accounts may have been opened; nothing else happened. -/
structure Opened (ledger ledger' : WalletLedger) : Prop where
  entries : ledger'.entries = ledger.entries
  requestEntries : ledger'.requestEntries = ledger.requestEntries
  stored : ∀ a c, ledger'.stored a c = ledger.stored a c
  wellFormed : ledger.WellFormed → ledger'.WellFormed

variable {ledger ledger₁ ledger' ledger'' : WalletLedger} {requestId : String}
  {entry : LedgerEntry} {posted : LedgerEntry → Prop}

theorem Opened.refl : Opened ledger ledger where
  entries := rfl
  requestEntries := rfl
  stored := fun _ _ ↦ rfl
  wellFormed := id

theorem Opened.trans (h : Opened ledger ledger') (h' : Opened ledger' ledger'') :
    Opened ledger ledger'' where
  entries := h'.entries.trans h.entries
  requestEntries := h'.requestEntries.trans h.requestEntries
  stored := fun a c ↦ (h'.stored a c).trans (h.stored a c)
  wellFormed := h'.wellFormed ∘ h.wellFormed

theorem opened_of_ensureWalletAccount {accountId : WalletAccountId} {ownerId : ActorId}
    {nowMs : Int64} (h : ensureWalletAccount ledger accountId ownerId nowMs = .ok ledger') :
    Opened ledger ledger' := by
  unfold ensureWalletAccount at h
  split at h
  · cases h
    exact Opened.refl
  · refine ⟨?_, ?_, stored_createAccount h, fun hw ↦ hw.createAccount h⟩
    · rw [(createAccount_ok h).2]
    · rw [(createAccount_ok h).2]

theorem Opened.entryForRequest (h : Opened ledger ledger') (requestId : String) :
    ledger'.entryForRequest requestId = ledger.entryForRequest requestId := by
  rw [WalletLedger.entryForRequest, WalletLedger.entryForRequest, h.entries, h.requestEntries]

def Moved (ledger ledger' : WalletLedger) (requestId : String) (entry : LedgerEntry)
    (posted : LedgerEntry → Prop) : Prop :=
  ∃ ledger₁, Opened ledger ledger₁ ∧ Answered ledger₁ ledger' requestId entry posted

theorem WellFormed.moved (hw : ledger.WellFormed)
    (h : Moved ledger ledger' requestId entry posted) : ledger'.WellFormed := by
  obtain ⟨ledger₁, hopened, hanswered⟩ := h
  exact (hopened.wellFormed hw).answered hanswered

theorem Moved.replay (h : Moved ledger ledger' requestId entry posted)
    (hknown : ledger.entryForRequest requestId ≠ none) :
    ledger'.entries = ledger.entries ∧ ledger'.requestEntries = ledger.requestEntries ∧
      (∀ a c, ledger'.stored a c = ledger.stored a c) ∧
      ledger.entryForRequest requestId = some entry := by
  obtain ⟨ledger₁, hopened, ⟨rfl, hentry⟩ | ⟨hposted, rfl, _⟩⟩ := h
  · rw [hopened.entryForRequest] at hentry
    exact ⟨hopened.entries, hopened.requestEntries, hopened.stored, hentry⟩
  · exact absurd (hopened.entryForRequest _ ▸ hposted.fresh) hknown

theorem Moved.fresh (h : Moved ledger ledger' requestId entry posted)
    (hnew : ledger.entryForRequest requestId = none) :
    entry.requestId = requestId ∧ entry.id = ledger.nextEntryId ∧ posted entry ∧
      0 < entry.amount.amountMinor.toInt ∧
      (∀ a, entry.fromAccountId = some a → entry.toAccountId ≠ some a) ∧
      ledger'.entries = ledger.entries.insert entry.id entry ∧
      ledger'.requestEntries = ledger.requestEntries.insert requestId entry.id ∧
      ∀ a c, ledger'.stored a c = ledger.stored a c +
        (entry.posting.incoming a c - entry.posting.outgoing a c) := by
  obtain ⟨ledger₁, hopened, ⟨rfl, hentry⟩ | ⟨hp, rfl, hposted⟩⟩ := h
  · rw [hopened.entryForRequest, hnew] at hentry
    simp at hentry
  · refine ⟨rfl, ?_, hposted, hp.amount_pos, hp.source_ne, ?_, ?_, ?_⟩
    · rw [hp.id_eq, nextEntryId, nextEntryId, hopened.entries]
    · rw [hp.entries, hopened.entries]
    · rw [hp.requestEntries, hopened.requestEntries]
    · intro a c
      rw [hp.stored, hopened.stored]

end WalletLedger

/-! ## The steps -/

namespace Commerce

def paidOrder (invoice : Invoice) (orderId : String) (buyerId : ActorId)
    (customer : Option CustomerInfo) (createdAtMs amountMinor : Int64) (entry : LedgerEntry) :
    PaymentOrder :=
  { id := orderId, invoiceId := invoice.id, buyerId, status := .paid
    amount := Money.new invoice.currency amountMinor, customer
    providerPaymentId := some entry.id
    providerReceiptUrl := some ("fabushi://payments/receipts/" ++ entry.id)
    createdAtMs, updatedAtMs := createdAtMs }

def refundedOrder (order : PaymentOrder) (refundedAtMs : Int64) : PaymentOrder :=
  { order with status := .refunded, updatedAtMs := refundedAtMs }

def IsPayment (invoice : Invoice) (buyerId : ActorId) (amountMinor : Int64)
    (entry : LedgerEntry) : Prop :=
  entry.kind = .transfer ∧ entry.fromAccountId = some (walletAccountId buyerId) ∧
    entry.toAccountId = some (walletAccountId invoice.sellerId) ∧
    entry.amount = ⟨normalizeCurrency (Money.new invoice.currency amountMinor).currency, amountMinor⟩

def IsReversal (ledger : WalletLedger) (originalEntryId : String) (entry : LedgerEntry) : Prop :=
  entry.kind = .refund ∧ ∃ original, ledger.entries[originalEntryId]? = some original ∧
    original.kind = .transfer ∧ entry.fromAccountId = original.toAccountId ∧
    entry.toAccountId = original.fromAccountId ∧
    entry.amount = ⟨normalizeCurrency original.amount.currency, original.amount.amountMinor⟩

def IsSettlement (ownerId : ActorId) (amount : Money) (entry : LedgerEntry) : Prop :=
  entry.kind = .credit ∧ entry.fromAccountId = none ∧
    entry.toAccountId = some (walletAccountId ownerId) ∧
    entry.amount = ⟨normalizeCurrency amount.currency, amount.amountMinor⟩

/-- Everything a command can do to invoices, orders and the wallet. -/
inductive Step (s : Commerce) : Command → Commerce → Prop
  | idle (command : Command) : Step s command s
  | invoiced {invoice : Invoice} (valid : invoice.isValid = true) :
      Step s (.createInvoice invoice)
        { s with invoices := s.invoices.insert invoice.id invoice }
  | ordered {order : PaymentOrder} (known : order.invoiceId ∈ s.invoices) :
      Step s (.upsertOrder order) { s with orders := s.orders.insert order.id order }
  | reaffirmed {command : Command} {orderId : String} {order : PaymentOrder}
      (stored : s.orders[orderId]? = some order) :
      Step s command { s with orders := s.orders.insert order.id order }
  | paid {invoiceId orderId : String} {buyerId : ActorId} {customer : Option CustomerInfo}
      {createdAtMs amountMinor : Int64} {invoice : Invoice} {wallet : WalletLedger}
      {entry : LedgerEntry}
      (invoice_eq : s.invoices[invoiceId]? = some invoice)
      (new : s.orders[orderId]? = none)
      (total : invoice.checkedTotalMinor = some amountMinor)
      (moved : s.wallet.Moved wallet ("checkout:" ++ orderId) entry
        (IsPayment invoice buyerId amountMinor)) :
      Step s (.checkoutInvoice invoiceId orderId buyerId customer createdAtMs)
        { s with
          wallet
          orders := s.orders.insert orderId
            (paidOrder invoice orderId buyerId customer createdAtMs amountMinor entry) }
  | refunded {orderId requestId originalEntryId : String} {sellerId : ActorId}
      {refundedAtMs : Int64} {order : PaymentOrder} {invoice : Invoice} {wallet : WalletLedger}
      {entry : LedgerEntry}
      (order_eq : s.orders[orderId]? = some order)
      (invoice_eq : s.invoices[order.invoiceId]? = some invoice)
      (seller : invoice.sellerId = sellerId)
      (status : order.status = .paid)
      (payment : order.providerPaymentId = some originalEntryId)
      (moved : s.wallet.Moved wallet requestId entry (IsReversal s.wallet originalEntryId)) :
      Step s (.refundOrder orderId sellerId requestId refundedAtMs)
        { s with
          wallet
          orders := s.orders.insert order.id (refundedOrder order refundedAtMs) }
  | settled {requestId : String} {ownerId : ActorId} {amount : Money}
      {reference : Option String} {settledAtMs : Int64} {wallet : WalletLedger}
      {entry : LedgerEntry}
      (moved : s.wallet.Moved wallet requestId entry (IsSettlement ownerId amount)) :
      Step s (.creditWalletSettlement requestId ownerId amount reference settledAtMs)
        { s with wallet }

end Commerce

/-! ## Every command takes one of these steps -/

def EventTag.isCommerce : EventTag → Bool
  | .invoiceCreated | .orderUpserted | .walletChanged => true
  | _ => false

theorem liftError_eq_ok {ε α : Type} {wrap : ε → EngineError} {x : Except ε α} {a : α} :
    liftError wrap x = .ok a ↔ x = .ok a := by
  cases x <;> simp [liftError, Except.mapError]

namespace MessagingState

variable {state : MessagingState} {command : Command} {events : List Event}

theorem commerce_apply {event : Event} (h : event.tag.isCommerce = false) :
    (state.apply event).commerce = state.commerce := by
  cases event
  case invoiceCreated => cases h
  case orderUpserted => cases h
  case walletChanged => cases h
  all_goals rfl

theorem commerce_applyAll (h : ∀ event ∈ events, event.tag.isCommerce = false) :
    (state.applyAll events).commerce = state.commerce := by
  induction events generalizing state with
  | nil => rfl
  | cons event events ih =>
      calc
        (state.applyAll (event :: events)).commerce
            = ((state.apply event).applyAll events).commerce := rfl
        _ = (state.apply event).commerce := ih fun e he ↦ h e (by simp [he])
        _ = state.commerce := commerce_apply (h event (by simp))

theorem commerce_of_eventTags (htags : command.eventTags.any EventTag.isCommerce = false)
    (h : state.decide command = .ok events) :
    (state.applyAll events).commerce = state.commerce := by
  apply commerce_applyAll
  intro event hevent
  have hmem := ensures_iff.mp (state.decide_eventTags command) events h event hevent
  simpa using List.any_eq_false.mp htags _ hmem

theorem step_createInvoice {invoice : Invoice} (h : state.decideCreateInvoice invoice = .ok events) :
    Commerce.Step state.commerce (.createInvoice invoice) (state.applyAll events).commerce := by
  simp only [decideCreateInvoice, bind_eq_ok, ensure_eq_ok] at h
  obtain ⟨_, hvalid, _, _, _, _, hevents⟩ := h
  cases hevents
  exact .invoiced hvalid

theorem step_upsertOrder {order : PaymentOrder} (h : state.decideUpsertOrder order = .ok events) :
    Commerce.Step state.commerce (.upsertOrder order) (state.applyAll events).commerce := by
  simp only [decideUpsertOrder, bind_eq_ok, ensure_eq_ok] at h
  obtain ⟨_, hknown, _, _, hevents⟩ := h
  cases hevents
  exact .ordered (ExtTreeMap.mem_iff_contains.mpr hknown)

theorem moved_of_checkoutWallet {invoice : Invoice} {orderId : String} {buyerId : ActorId}
    {amountMinor createdAtMs : Int64} {wallet : WalletLedger} {entry : LedgerEntry}
    (h : state.checkoutWallet invoice orderId buyerId amountMinor createdAtMs =
      .ok (wallet, entry)) :
    state.wallet.Moved wallet ("checkout:" ++ orderId) entry
      (Commerce.IsPayment invoice buyerId amountMinor) := by
  simp only [checkoutWallet, bind_eq_ok, liftError_eq_ok] at h
  obtain ⟨wallet₁, hbuyer, wallet₂, hseller, hrest⟩ := h
  cases htransfer : wallet₂.transfer ("checkout:" ++ orderId) (walletAccountId buyerId)
      (walletAccountId invoice.sellerId) (Money.new invoice.currency amountMinor)
      (some invoice.id) createdAtMs with
  | mk wallet₃ result =>
      simp only [htransfer] at hrest
      obtain ⟨entry', rfl, hpair⟩ := hrest
      cases hpair
      exact ⟨wallet₂,
        (WalletLedger.opened_of_ensureWalletAccount hbuyer).trans
          (WalletLedger.opened_of_ensureWalletAccount hseller),
        WalletLedger.transfer_ok htransfer⟩

theorem step_checkoutInvoice {invoiceId orderId : String} {buyerId : ActorId}
    {customer : Option CustomerInfo} {createdAtMs : Int64}
    (h : state.decideCheckoutInvoice invoiceId orderId buyerId customer createdAtMs = .ok events) :
    Commerce.Step state.commerce (.checkoutInvoice invoiceId orderId buyerId customer createdAtMs)
      (state.applyAll events).commerce := by
  simp only [decideCheckoutInvoice, bind_eq_ok, ensure_eq_ok, okOr_eq_ok] at h
  obtain ⟨invoice, hinvoice, _, _, _, _, h⟩ := h
  split at h
  · rename_i existing hexisting
    obtain ⟨_, _, hevents⟩ := bind_eq_ok.mp h
    cases hevents
    exact .reaffirmed hexisting
  · rename_i hnew
    simp only [bind_eq_ok, okOr_eq_ok] at h
    obtain ⟨amountMinor, htotal, _, _, ⟨wallet, entry⟩, hwallet, hevents⟩ := h
    cases hevents
    exact .paid hinvoice hnew htotal (moved_of_checkoutWallet hwallet)

theorem step_refundOrder {orderId requestId : String} {sellerId : ActorId} {refundedAtMs : Int64}
    (h : state.decideRefundOrder orderId sellerId requestId refundedAtMs = .ok events) :
    Commerce.Step state.commerce (.refundOrder orderId sellerId requestId refundedAtMs)
      (state.applyAll events).commerce := by
  simp only [decideRefundOrder, bind_eq_ok, ensure_eq_ok, okOr_eq_ok] at h
  obtain ⟨order, horder, invoice, hinvoice, _, hseller, h⟩ := h
  split at h
  · cases h
    exact .reaffirmed horder
  · simp only [bind_eq_ok, ensure_eq_ok, okOr_eq_ok, liftError_eq_ok] at h
    obtain ⟨_, hstatus, originalEntryId, hpayment, h⟩ := h
    cases hrefund : state.wallet.refundTransfer requestId originalEntryId refundedAtMs with
    | mk wallet result =>
        simp only [hrefund] at h
        obtain ⟨entry, rfl, hevents⟩ := h
        cases hevents
        change Commerce.Step state.commerce _ { state.commerce with
          wallet
          orders := state.commerce.orders.insert order.id
            (Commerce.refundedOrder order refundedAtMs) }
        exact .refunded horder hinvoice hseller hstatus hpayment
          ⟨state.wallet, .refl, WalletLedger.refundTransfer_ok hrefund⟩

theorem moved_of_creditWalletSettlement {requestId : String} {ownerId : ActorId} {amount : Money}
    {reference : Option String} {settledAtMs : Int64}
    (h : state.decideCreditWalletSettlement requestId ownerId amount reference settledAtMs =
      .ok events) :
    ∃ wallet entry, events = [.walletChanged wallet entry] ∧
      state.wallet.Moved wallet requestId entry (Commerce.IsSettlement ownerId amount) := by
  simp only [decideCreditWalletSettlement, bind_eq_ok, liftError_eq_ok] at h
  obtain ⟨_, _, wallet₁, hopened, h⟩ := h
  cases hcredit : wallet₁.credit requestId (walletAccountId ownerId) amount reference
      settledAtMs with
  | mk wallet result =>
      simp only [hcredit] at h
      obtain ⟨entry, rfl, hevents⟩ := h
      cases hevents
      exact ⟨wallet, entry, rfl, wallet₁, WalletLedger.opened_of_ensureWalletAccount hopened,
        WalletLedger.credit_ok hcredit⟩

theorem step_creditWalletSettlement {requestId : String} {ownerId : ActorId} {amount : Money}
    {reference : Option String} {settledAtMs : Int64}
    (h : state.decideCreditWalletSettlement requestId ownerId amount reference settledAtMs =
      .ok events) :
    Commerce.Step state.commerce
      (.creditWalletSettlement requestId ownerId amount reference settledAtMs)
      (state.applyAll events).commerce := by
  obtain ⟨wallet, entry, rfl, moved⟩ := moved_of_creditWalletSettlement h
  exact .settled moved

/-- The engine refines the commerce steps: whatever the command and however it is
answered, invoices, orders and the wallet take one of them. -/
theorem execute_step (state : MessagingState) (command : Command) :
    Commerce.Step state.commerce command (state.execute command).1.commerce := by
  unfold execute
  split
  · exact .idle command
  · rename_i events h
    cases command
    case createInvoice => exact step_createInvoice h
    case upsertOrder => exact step_upsertOrder h
    case checkoutInvoice => exact step_checkoutInvoice h
    case refundOrder => exact step_refundOrder h
    case creditWalletSettlement => exact step_creditWalletSettlement h
    -- the remaining commands are answered with events that do not touch commerce
    all_goals
      have hsame := commerce_of_eventTags rfl h
      rw [hsame]
      exact .idle _

end MessagingState

end Fabushi.Messaging
