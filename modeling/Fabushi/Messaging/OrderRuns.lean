import Fabushi.Messaging.ServiceRuns

/-!
# Orders and the ledger along a run

The ledger answers a request it knows with the old entry. A checkout derives its
request from the order's name while a refund takes one from the client, so what a
run guarantees about paid and refunded orders depends on which requests are
already in the index when a checkout or a refund arrives.
-/

namespace Fabushi.Messaging

open Std

def Command.checkoutOrder : Command → Option String
  | .checkoutInvoice _ orderId _ _ _ => some orderId
  | _ => none

def Command.refund : Command → Option (String × ActorId × String)
  | .refundOrder orderId sellerId requestId _ => some (orderId, sellerId, requestId)
  | _ => none

structure WalletLedger.Transferred (ledger ledger' : WalletLedger) (kind : LedgerEntryKind)
    (source target : WalletAccountId) (amount : Money) (entry : LedgerEntry) : Prop where
  kind_eq : entry.kind = kind
  source_eq : entry.fromAccountId = some source
  target_eq : entry.toAccountId = some target
  amount_eq : entry.amount = amount
  distinct : source ≠ target
  fresh : ledger.entries[entry.id]? = none
  entries : ledger'.entries = ledger.entries.insert entry.id entry
  stored : ∀ a c, ledger'.stored a c = ledger.stored a c +
    (if a = target ∧ c = amount.currency then amount.amountMinor.toInt else 0) -
    (if a = source ∧ c = amount.currency then amount.amountMinor.toInt else 0)

theorem WalletLedger.Appended.transferred {ledger ledger' : WalletLedger} {entry : LedgerEntry}
    {kind : LedgerEntryKind} {source target : WalletAccountId} {amount : Money}
    (h : ledger.Appended ledger' entry) (hkind : entry.kind = kind)
    (hsource : entry.fromAccountId = some source) (htarget : entry.toAccountId = some target)
    (hamount : entry.amount = amount)
    (hne : ∀ a, entry.fromAccountId = some a → entry.toAccountId ≠ some a) :
    ledger.Transferred ledger' kind source target amount entry where
  kind_eq := hkind
  source_eq := hsource
  target_eq := htarget
  amount_eq := hamount
  distinct := by
    rintro rfl
    exact hne source hsource htarget
  fresh := h.fresh
  entries := h.entries
  stored := by
    intro a c
    have hin : entry.posting.incoming a c =
        if a = target ∧ c = amount.currency then amount.amountMinor.toInt else 0 := by
      simp [DoubleEntry.Posting.incoming, LedgerEntry.posting, htarget, hamount, eq_comm]
    have hout : entry.posting.outgoing a c =
        if a = source ∧ c = amount.currency then amount.amountMinor.toInt else 0 := by
      simp [DoubleEntry.Posting.outgoing, LedgerEntry.posting, hsource, hamount, eq_comm]
    rw [h.stored, hin, hout]
    ring

theorem WalletLedger.Transferred.balances {ledger ledger' : WalletLedger} {entry : LedgerEntry}
    {kind : LedgerEntryKind} {source target : WalletAccountId} {amount : Money}
    (h : ledger.Transferred ledger' kind source target amount entry) :
    ledger'.stored target amount.currency =
        ledger.stored target amount.currency + amount.amountMinor.toInt ∧
      ledger'.stored source amount.currency =
        ledger.stored source amount.currency - amount.amountMinor.toInt := by
  constructor
  · rw [h.stored, if_pos ⟨rfl, rfl⟩, if_neg fun heq ↦ h.distinct heq.1.symm]
    ring
  · rw [h.stored, if_neg fun heq ↦ h.distinct heq.1, if_pos ⟨rfl, rfl⟩]
    ring

namespace Commerce

variable {s s' : Commerce} {command : Command}

def FreshCheckout (s : Commerce) (command : Command) : Prop :=
  ∀ orderId ∈ command.checkoutOrder, orderId ∉ s.orders →
    checkoutRequestId orderId ∉ s.wallet.requestEntries

instance (s : Commerce) (command : Command) : Decidable (s.FreshCheckout command) :=
  inferInstanceAs (Decidable (∀ orderId ∈ command.checkoutOrder, _))

def FreshRefund (s : Commerce) (command : Command) : Prop :=
  ∀ refund ∈ command.refund, ∀ order ∈ s.orders[refund.1]?, order.status = .paid →
    ∀ invoice ∈ s.invoices[order.invoiceId]?, invoice.sellerId = refund.2.1 →
      refund.2.2 ∉ s.wallet.requestEntries

instance (s : Commerce) (command : Command) : Decidable (s.FreshRefund command) :=
  inferInstanceAs (Decidable (∀ refund ∈ command.refund, ∀ order ∈ s.orders[refund.1]?, _))

theorem Step.transferred_of_paid (hs : s.Sound) (h : s.Step command s')
    (hcommand : IsServiceCommand command) (hfresh : s.FreshCheckout command) {id : String}
    {order : PaymentOrder} (hnot : ¬ s.PaidAt id) (horder : s'.orders[id]? = some order)
    (hpaid : order.status = .paid) :
    ∃ invoice amountMinor entry, s.invoices[order.invoiceId]? = some invoice ∧
      invoice.checkedTotalMinor = some amountMinor ∧ order.providerPaymentId = some entry.id ∧
      s.wallet.Transferred s'.wallet .transfer (walletAccountId order.buyerId)
        (walletAccountId invoice.sellerId) ⟨invoice.currency, amountMinor⟩ entry := by
  obtain ⟨invoiceId, buyerId, customer, createdAtMs, invoice, amountMinor, entry, rfl, hnew, hinvoice,
    htotal, rfl, moved⟩ := h.paid_inv hs hcommand hnot horder hpaid
  obtain ⟨hid, hvalid⟩ := hs.invoice invoiceId invoice hinvoice
  have hunused := hfresh id rfl (BTreeMap.get_eq_none_iff.mp hnew)
  rcases moved.cases hs.wallet with ⟨hused, _⟩ | ⟨_, happended, hposted, _, hne, _⟩
  · exact absurd hused hunused
  · obtain ⟨hkind, hfrom, hto, hamount⟩ := hposted
    refine ⟨invoice, amountMinor, entry, ?_, htotal, rfl, ?_⟩
    · change s.invoices[invoice.id]? = some invoice
      rw [hid, hinvoice]
    · refine happended.transferred hkind hfrom hto ?_ hne
      rw [hamount, Invoice.money_currency hvalid,
        normalizeCurrency_eq_self (Invoice.isAsciiUppercase_currency hvalid)]

theorem Step.transferred_of_refunded (hs : s.Sound) (hk : s.SellersKept) (h : s.Step command s')
    (hcommand : IsServiceCommand command) (hfresh : s.FreshRefund command) {id : String}
    {order : PaymentOrder} (horder : s.orders[id]? = some order) (hpaid : order.status = .paid)
    (hnot : ¬ s'.PaidAt id) :
    ∃ invoice entry, s.invoices[order.invoiceId]? = some invoice ∧
      s.wallet.Transferred s'.wallet .refund (walletAccountId invoice.sellerId)
        (walletAccountId order.buyerId) order.amount entry := by
  obtain ⟨sellerId, requestId, refundedAtMs, invoice, original, entry, rfl, hinvoice, hseller,
    hpaidBy, _, moved⟩ := h.refunded_inv hs hcommand horder hpaid hnot
  have hunused := hfresh _ rfl order horder hpaid invoice hinvoice hseller
  rcases moved.cases hs.wallet with ⟨hused, _⟩ | ⟨_, happended, hposted, _, hne, _⟩
  · exact absurd hused hunused
  · obtain ⟨hkind, original', horiginal, htransfer, hfrom, hto, hamount⟩ := hposted
    obtain rfl := Option.some.inj (horiginal.symm.trans hpaidBy.stored)
    obtain ⟨hbuyer, horderAmount⟩ := hpaidBy.transfer htransfer
    have hpaidTo := hk id order invoice original' horder hpaid hinvoice hpaidBy htransfer
    refine ⟨invoice, entry, hinvoice, ?_⟩
    refine happended.transferred hkind (hfrom.trans hpaidTo) (hto.trans hbuyer) ?_ hne
    rw [hamount, hs.wallet.currency_eq _ _ horiginal, ← horderAmount]

theorem Sound.payment_injective (hs : s.Sound) {id id' entryId : String}
    {order order' : PaymentOrder} (horder : s.orders[id]? = some order)
    (horder' : s.orders[id']? = some order') (hpayment : order.providerPaymentId = some entryId)
    (hpayment' : order'.providerPaymentId = some entryId) : id = id' := by
  obtain ⟨entry, hpaid⟩ := hs.order_paid id order horder
  obtain ⟨entry', hpaid'⟩ := hs.order_paid id' order' horder'
  have hid : entry.id = entryId := Option.some.inj (hpaid.recorded.symm.trans hpayment)
  have hid' : entry'.id = entryId := Option.some.inj (hpaid'.recorded.symm.trans hpayment')
  have hsame : entry = entry' := by
    have hget := hpaid.stored
    rw [hid, ← hid', hpaid'.stored] at hget
    exact (Option.some.inj hget).symm
  subst hsame
  exact checkoutRequestId_injective (hpaid.request.symm.trans hpaid'.request)

end Commerce

namespace MessagingService

variable {S B : Type} [MessagingStateStore S] [BlobStore B] {env : ServiceEnv} {store : S}
  {blobStore : Option B} {inputs : List ServiceInput} {s : MessagingService S B}
  {input : ServiceInput}

/-- In every run whose checkouts of new orders find their requests unused, a step
that makes an order paid moves exactly the invoice's total from the buyer to the
seller by one fresh transfer, and no entry is the payment of two orders. -/
theorem paid_order_transferred (env : ServiceEnv) (store : S) (blobStore : Option B)
    (inputs : List ServiceInput)
    (hrun : Admits env store blobStore Commerce.FreshCheckout inputs)
    (s : MessagingService S B) (input : ServiceInput)
    (ht : Takes env store blobStore inputs s input) :
    (∀ (id : String) (order : PaymentOrder), (next env s input).engine.orders[id]? = some order →
      order.status = .paid →
      (∀ before : PaymentOrder, s.engine.orders[id]? = some before → before.status ≠ .paid) →
      ∃ invoice amountMinor entry, s.engine.invoices[order.invoiceId]? = some invoice ∧
        invoice.checkedTotalMinor = some amountMinor ∧ order.providerPaymentId = some entry.id ∧
        s.engine.wallet.Transferred (next env s input).engine.wallet .transfer
          (walletAccountId order.buyerId) (walletAccountId invoice.sellerId)
          ⟨invoice.currency, amountMinor⟩ entry) ∧
    ∀ (id id' entryId : String) (order order' : PaymentOrder),
      (next env s input).engine.orders[id]? = some order →
      (next env s input).engine.orders[id']? = some order' →
      order.providerPaymentId = some entryId → order'.providerPaymentId = some entryId →
      id = id' := by
  constructor
  · intro id order horder hpaid hbefore
    have hnot : ¬ s.commerce.PaidAt id := by
      rintro ⟨before, hget, hstatus⟩
      exact hbefore before hget hstatus
    rcases next_commerce env s input with hsame | ⟨command, hcommand, _, hstep⟩
    · have horders : (next env s input).engine.orders = s.engine.orders :=
        congrArg Commerce.orders hsame
      rw [horders] at horder
      exact absurd hpaid (hbefore order horder)
    · exact hstep.transferred_of_paid ht.sound (isServiceCommand_of_command hcommand)
        (hrun.takes ht command hcommand) hnot horder hpaid
  · intro id id' entryId order order' horder horder' hpayment hpayment'
    exact (sound_next ht.sound input).payment_injective horder horder' hpayment hpayment'

open Market in
theorem paid_order_transferred_checkout :
    ∃ (order : PaymentOrder) (invoice : Invoice) (amountMinor : Int64) (entry : LedgerEntry),
      (reached [deposit] opening).engine.invoices[order.invoiceId]? = some invoice ∧
      invoice.checkedTotalMinor = some amountMinor ∧ order.providerPaymentId = some entry.id ∧
      (reached [deposit] opening).engine.wallet.Transferred
        (next (world [deposit]) (reached [deposit] opening) (checkout "order")).engine.wallet
        .transfer (walletAccountId order.buyerId) (walletAccountId invoice.sellerId)
        ⟨invoice.currency, amountMinor⟩ entry := by
  obtain ⟨hpaid, hnew⟩ : (next (world [deposit]) (reached [deposit] opening)
        (checkout "order")).engine.orders["order"]?.any (fun order ↦ order.status = .paid) ∧
      (reached [deposit] opening).engine.orders["order"]? = none := by decide +kernel
  obtain ⟨order, horder, hstatus⟩ := (Option.any_eq_true _ _).mp hpaid
  have hexact := paid_order_transferred (world [deposit]) ({} : MemoryStateStore)
    (none : Option Empty) (opening ++ [checkout "order"]) (by decide +kernel)
    (reached [deposit] opening) (checkout "order") ⟨opening, [], rfl, rfl⟩
  exact ⟨order, hexact.1 "order" order horder (of_decide_eq_true hstatus) (by simp [hnew])⟩

open Market in
/-- A refund under the request of a checkout that is still to come: the checkout
then creates a paid order without moving anything. -/
theorem paid_order_unpaid :
    ¬ ∀ (inputs : List ServiceInput) (s : MessagingService MemoryStateStore Empty)
      (input : ServiceInput), Takes (world [deposit]) {} none inputs s input →
      ∀ (id : String) (order : PaymentOrder),
        (next (world [deposit]) s input).engine.orders[id]? = some order → order.status = .paid →
        (∀ before : PaymentOrder, s.engine.orders[id]? = some before → before.status ≠ .paid) →
        ∃ invoice amountMinor entry, s.engine.invoices[order.invoiceId]? = some invoice ∧
          invoice.checkedTotalMinor = some amountMinor ∧ order.providerPaymentId = some entry.id ∧
          s.engine.wallet.Transferred (next (world [deposit]) s input).engine.wallet .transfer
            (walletAccountId order.buyerId) (walletAccountId invoice.sellerId)
            ⟨invoice.currency, amountMinor⟩ entry := by
  intro hclaim
  let before := opening ++ [checkout "a", refund seller "a" "checkout:b"]
  obtain ⟨hpaid, hnew, hsize⟩ : (next (world [deposit]) (reached [deposit] before)
        (checkout "b")).engine.orders["b"]?.any (fun order ↦ order.status = .paid) ∧
      (reached [deposit] before).engine.orders["b"]? = none ∧
      (next (world [deposit]) (reached [deposit] before) (checkout "b")).engine.wallet.entries.size =
        (reached [deposit] before).engine.wallet.entries.size := by
    decide +kernel
  obtain ⟨order, horder, hstatus⟩ := (Option.any_eq_true _ _).mp hpaid
  obtain ⟨_, _, _, _, _, _, htransferred⟩ := hclaim (before ++ [checkout "b"])
    (reached [deposit] before) (checkout "b") ⟨before, [], rfl, rfl⟩ "b" order horder
    (of_decide_eq_true hstatus) (by simp [hnew])
  rw [htransferred.entries, BTreeMap.size_insert_of_none htransferred.fresh] at hsize
  omega

/-! ## Refunds -/

def namedOrder (env : ServiceEnv) (input : ServiceInput) : Option String :=
  (input.command env).bind Command.orderId

def Refunds (env : ServiceEnv) (s : MessagingService S B) (input : ServiceInput) (id : String) :
    Prop :=
  s.commerce.PaidAt id ∧
    ∃ order, (next env s input).engine.orders[id]? = some order ∧ order.status = .refunded

theorem refunds_of_orders {id : String} {order order' : PaymentOrder}
    (horder : s.engine.orders[id]? = some order) (hpaid : order.status = .paid)
    (horder' : (next env s input).engine.orders[id]? = some order')
    (hrefunded : order'.status = .refunded) : Refunds env s input id :=
  ⟨⟨order, horder, hpaid⟩, order', horder', hrefunded⟩

theorem not_paidAt_of_refunded {s : Commerce} {id : String} {order : PaymentOrder}
    (horder : s.orders[id]? = some order) (hrefunded : order.status = .refunded) :
    ¬ s.PaidAt id := by
  rintro ⟨order', horder', hpaid⟩
  obtain rfl := Option.some.inj (horder.symm.trans horder')
  rw [hrefunded] at hpaid
  cases hpaid

theorem Takes.stored_inv (ht : Takes env store blobStore inputs s input) {a : WalletAccountId}
    {c : String} (hne : (next env s input).engine.wallet.stored a c ≠ s.engine.wallet.stored a c) :
    (∃ event, input.settlement env = some event) ∨
      ∃ id, namedOrder env input = some id ∧
        ((s.engine.orders[id]? = none ∧ (next env s input).commerce.PaidAt id) ∨
          Refunds env s input id) := by
  rcases next_commerce env s input with hsame | ⟨command, hcommand, _, hstep⟩
  · exact absurd (stored_of_sameCommerce hsame a c) hne
  · rcases hstep.stored_inv ht.sound hne with ⟨_, _, _, _, _, rfl⟩ | ⟨id, hid, hchange⟩
    · left
      cases input with
      | handle request serverTimeMs =>
          obtain ⟨_, _, client⟩ := request
          cases client <;> cases hcommand
      | settle verifier signed serverTimeMs =>
          obtain ⟨event, hevent, _⟩ := Option.map_eq_some_iff.mp hcommand
          exact ⟨event, hevent⟩
    · have hnamed : namedOrder env input = some id := by
        rw [namedOrder, hcommand]
        exact hid
      rcases hchange with hnew | ⟨⟨order, horder, hpaid⟩, hnot⟩
      · exact Or.inr ⟨id, hnamed, Or.inl hnew⟩
      · obtain ⟨_, _, refundedAtMs, _, _, _, _, _, _, _, hrefunded, _⟩ := hstep.refunded_inv ht.sound
          (isServiceCommand_of_command hcommand) horder hpaid hnot
        exact Or.inr ⟨id, hnamed, Or.inr ⟨⟨order, horder, hpaid⟩, _, hrefunded, rfl⟩⟩

theorem namedOrder_of_settlement {event : SettlementEvent}
    (h : input.settlement env = some event) : namedOrder env input = none := by
  cases input with
  | handle => cases h
  | settle verifier signed serverTimeMs =>
      change (verifier.verify env.settlement signed serverTimeMs).toOption = some event at h
      simp only [namedOrder, ServiceInput.command, h]
      rfl

theorem Takes.stored_of_paid (ht : Takes env store blobStore inputs s input) {id : String}
    (hbefore : s.commerce.PaidAt id) (hafter : (next env s input).commerce.PaidAt id)
    (hnamed : namedOrder env input = some id) (a : WalletAccountId) (c : String) :
    (next env s input).engine.wallet.stored a c = s.engine.wallet.stored a c := by
  by_contra hne
  rcases ht.stored_inv hne with ⟨event, hevent⟩ | ⟨id', hnamed', ⟨hnew, _⟩ | ⟨_, order, horder, hstatus⟩⟩
  · rw [namedOrder_of_settlement hevent] at hnamed
    cases hnamed
  · obtain rfl := Option.some.inj (hnamed.symm.trans hnamed')
    obtain ⟨order, horder, _⟩ := hbefore
    have hnone : s.commerce.orders[id]? = none := hnew
    rw [hnone] at horder
    cases horder
  · obtain rfl := Option.some.inj (hnamed.symm.trans hnamed')
    exact not_paidAt_of_refunded horder hstatus hafter

theorem refunded_run {id : String} {order : PaymentOrder} (hs : s.commerce.Sound)
    (horder : s.commerce.orders[id]? = some order) (hrefunded : order.status = .refunded)
    (inputs : List ServiceInput) :
    (Runs.run (next env) s inputs).commerce.orders[id]? = some order := by
  refine (Runs.invariant
    (I := fun s : MessagingService S B ↦ s.commerce.Sound ∧ s.commerce.orders[id]? = some order)
    ?_ ⟨hs, horder⟩ inputs).2
  rintro t input ⟨htSound, htOrder⟩
  refine ⟨sound_next htSound input, ?_⟩
  rcases next_commerce env t input with hsame | ⟨command, hcommand, _, hstep⟩
  · rw [hsame]
    exact htOrder
  · exact hstep.refunded_stays htSound (isServiceCommand_of_command hcommand) htOrder hrefunded

/-- In every run that keeps the sellers of paid invoices and whose refunds of paid
orders find their requests unused: the refund of an order gives the buyer exactly
the order's amount and takes it from the seller, happens at most once, and an order
that stays paid moves no balance. -/
theorem refund_exact (env : ServiceEnv) (store : S) (blobStore : Option B)
    (inputs : List ServiceInput)
    (hrun : Admits env store blobStore
      (fun s command ↦ s.KeepsSeller command ∧ s.FreshRefund command) inputs) :
    (∀ (s : MessagingService S B) (input : ServiceInput),
      Takes env store blobStore inputs s input →
      (∀ (id : String) (order : PaymentOrder), s.engine.orders[id]? = some order →
        Refunds env s input id →
        ∃ invoice, s.engine.invoices[order.invoiceId]? = some invoice ∧
          (next env s input).engine.wallet.stored (walletAccountId order.buyerId)
              order.amount.currency =
            s.engine.wallet.stored (walletAccountId order.buyerId) order.amount.currency +
              order.amount.amountMinor.toInt ∧
          (next env s input).engine.wallet.stored (walletAccountId invoice.sellerId)
              order.amount.currency =
            s.engine.wallet.stored (walletAccountId invoice.sellerId) order.amount.currency -
              order.amount.amountMinor.toInt) ∧
      (∀ id : String, s.commerce.PaidAt id → (next env s input).commerce.PaidAt id →
        namedOrder env input = some id → ∀ (a : WalletAccountId) (c : String),
          (next env s input).engine.wallet.stored a c = s.engine.wallet.stored a c) ∧
      ∀ (a : WalletAccountId) (c : String),
        (next env s input).engine.wallet.stored a c ≠ s.engine.wallet.stored a c →
        (∃ event, input.settlement env = some event) ∨
          ∃ id, namedOrder env input = some id ∧
            ((s.engine.orders[id]? = none ∧ (next env s input).commerce.PaidAt id) ∨
              Refunds env s input id)) ∧
    ∀ (front middle back : List ServiceInput) (first second : ServiceInput),
      inputs = front ++ first :: (middle ++ second :: back) → ∀ id : String,
      Refunds env (Runs.run (next env) (empty store blobStore) front) first id →
      ¬ Refunds env (Runs.run (next env) (empty store blobStore) (front ++ first :: middle))
        second id := by
  constructor
  · intro s input ht
    refine ⟨?_, fun id ↦ ht.stored_of_paid, fun a c ↦ ht.stored_inv⟩
    rintro id order horder ⟨⟨order', horder', hpaid⟩, after, hafter, hrefunded⟩
    obtain rfl := Option.some.inj (horder'.symm.trans horder)
    have hsellers : Admits env store blobStore Commerce.KeepsSeller inputs :=
      hrun.imp fun _ _ h command hcommand ↦ (h command hcommand).1
    have hnot := not_paidAt_of_refunded (s := (next env s input).commerce) hafter hrefunded
    rcases next_commerce env s input with hsame | ⟨command, hcommand, _, hstep⟩
    · rw [hsame] at hnot
      exact absurd ⟨order', horder', hpaid⟩ hnot
    · obtain ⟨invoice, entry, hinvoice, htransferred⟩ := hstep.transferred_of_refunded ht.sound
        (ht.sellersKept hsellers) (isServiceCommand_of_command hcommand)
        (hrun.takes ht command hcommand).2 horder' hpaid hnot
      exact ⟨invoice, hinvoice, htransferred.balances⟩
  · rintro front middle back first second rfl id ⟨_, order, horder, hrefunded⟩ ⟨hpaid, _⟩
    rw [Runs.run_append, Runs.run_cons] at hpaid
    refine not_paidAt_of_refunded ?_ hrefunded hpaid
    exact refunded_run (sound_next (sound_run front) first) horder hrefunded middle

open Market in
theorem refund_exact_refund :
    ∃ (order : PaymentOrder) (invoice : Invoice),
      (reached [deposit] sold).engine.invoices[order.invoiceId]? =
        some invoice ∧
      (next (world [deposit]) (reached [deposit] sold)
          (refund seller "order" "r")).engine.wallet.stored (walletAccountId order.buyerId)
          order.amount.currency =
        (reached [deposit] sold).engine.wallet.stored
          (walletAccountId order.buyerId) order.amount.currency + order.amount.amountMinor.toInt := by
  obtain ⟨hpaid, hrefunded⟩ : (reached [deposit] sold).engine.orders["order"]?.any
        (fun order ↦ order.status = .paid) ∧
      (next (world [deposit]) (reached [deposit] sold)
        (refund seller "order" "r")).engine.orders["order"]?.any
          (fun order ↦ order.status = .refunded) := by decide +kernel
  obtain ⟨order, horder, hstatus⟩ := (Option.any_eq_true _ _).mp hpaid
  obtain ⟨order', horder', hstatus'⟩ := (Option.any_eq_true _ _).mp hrefunded
  have hexact := refund_exact (world [deposit]) ({} : MemoryStateStore) (none : Option Empty)
    (sold ++ [refund seller "order" "r"]) (by decide +kernel)
  obtain ⟨invoice, hinvoice, hbuyer, _⟩ := (hexact.1 (reached [deposit] sold)
    (refund seller "order" "r") ⟨sold, [], rfl, rfl⟩).1 "order" order horder
    (refunds_of_orders horder (of_decide_eq_true hstatus) horder' (of_decide_eq_true hstatus'))
  exact ⟨order, invoice, hinvoice, hbuyer⟩

open Market in
/-- A refund under the request of an earlier settlement marks the order refunded
without giving anything back. -/
theorem refund_unpaid :
    ¬ ∀ (inputs : List ServiceInput) (s : MessagingService MemoryStateStore Empty)
      (input : ServiceInput), Takes (world [deposit]) {} none inputs s input →
      ∀ (id : String) (order : PaymentOrder), s.engine.orders[id]? = some order →
        Refunds (world [deposit]) s input id →
        (next (world [deposit]) s input).engine.wallet.stored (walletAccountId order.buyerId)
            order.amount.currency =
          s.engine.wallet.stored (walletAccountId order.buyerId) order.amount.currency +
            order.amount.amountMinor.toInt := by
  intro hclaim
  have hpaid : (reached [deposit] sold).engine.orders["order"]?.any
      (fun order ↦ order.status = .paid ∧
        (next (world [deposit]) (reached [deposit] sold)
            (refund seller "order" "settlement:bank:e1")).engine.wallet.stored
            (walletAccountId order.buyerId) order.amount.currency ≠
          (reached [deposit] sold).engine.wallet.stored
            (walletAccountId order.buyerId) order.amount.currency +
              order.amount.amountMinor.toInt) := by decide +kernel
  have hrefunded : (next (world [deposit]) (reached [deposit] sold)
      (refund seller "order" "settlement:bank:e1")).engine.orders["order"]?.any
      (fun order ↦ order.status = .refunded) := by decide +kernel
  obtain ⟨order, horder, hstatus⟩ := (Option.any_eq_true _ _).mp hpaid
  obtain ⟨order', horder', hstatus'⟩ := (Option.any_eq_true _ _).mp hrefunded
  obtain ⟨hstatus, hne⟩ := of_decide_eq_true hstatus
  exact hne (hclaim (sold ++ [refund seller "order" "settlement:bank:e1"])
    (reached [deposit] sold) (refund seller "order" "settlement:bank:e1")
    ⟨sold, [], rfl, rfl⟩ "order" order horder
    (refunds_of_orders horder hstatus horder' (of_decide_eq_true hstatus')))

end MessagingService

end Fabushi.Messaging
