import Fabushi.Worker.CaptureRuns

/-!
# Purchases along runs

A bean purchase debits once, covered, and for an entitlement, unless it finds the order
of a payment under its key: that order it books as if it were its own.
-/

namespace Fabushi.Worker

open Interleaving Result

namespace PaymentDb

instance (db : PaymentDb) (orderId : String) : Decidable (db.Bean orderId) :=
  inferInstanceAs (Decidable (∀ p ∈ db.payments, p.paymentId ≠ orderId))

def KeyApart (db : PaymentDb) : PaymentOp → Prop
  | .purchase c => ∀ o ∈ db.orders, o.buyerUserId = c.userId →
      o.idempotencyKey = c.idempotencyKey → db.Bean o.orderId
  | _ => True

instance (db : PaymentDb) (op : PaymentOp) : Decidable (db.KeyApart op) := by
  unfold KeyApart
  split <;> infer_instance

def Apart (db : PaymentDb) : Prop :=
  ∀ e ∈ db.journal.entries, e.referenceType = "order" → db.Bean e.referenceId

/-- Every posted order entry debits the price of its order, is the only one for it, and leaves it
fulfilled with an active entitlement. -/
def OrdersBooked (db : PaymentDb) : Prop :=
  ∀ e ∈ db.journal.entries, e.referenceType = "order" → e.state = .posted →
    ∃ o ∈ db.orders, o.orderId = e.referenceId ∧
      db.journal.linesOf e.entryId = orderLines o e.entryId ∧ o.status = .fulfilled ∧
      (∃ g ∈ db.entitlements, g.orderId = o.orderId ∧ g.status = .active) ∧
      ∀ e' ∈ db.journal.entries, e'.referenceType = "order" → e'.referenceId = e.referenceId →
        e' = e

/-- Between the two states every new order entry is covered by the balance before. -/
def OrdersCovered (db db' : PaymentDb) : Prop :=
  ∀ e ∈ db'.journal.entries, e.referenceType = "order" → e.state = .posted →
    e ∉ db.journal.entries →
    ∃ o ∈ db'.orders, o.orderId = e.referenceId ∧
      o.amount ≤ db.journal.walletBalance ("user:" ++ o.buyerUserId ++ ":" ++ o.currency)

theorem PurchaseStep.apart {db db' : PaymentDb} {c : Purchase} (h : db.Sound)
    (hapart : db.KeyApart (.purchase c)) (hstep : PurchaseStep c db db') :
    db.journal.Opened db'.journal ∨
      (c.price.amount ≤ db.journal.walletBalance c.userAccount ∧
        { c.order with status := .fulfilled } ∈ db'.orders ∧
        ∃ j, db.journal.Opened j ∧
          db'.journal = j.add (orderEntry c c.orderId) (c.lines (.order c.entryId))) := by
  cases hstep with
  | refused hopened hnone => exact .inl hopened
  | bought hopened hnone hcovered hadds =>
      exact .inr ⟨hcovered, List.mem_append_right _ (List.mem_singleton.mpr rfl), _, hopened, rfl⟩
  | again hopened ho hfinds hgrants => exact .inl hopened
  | @charged j hopened o ho hfinds hunbooked hadds fulfils entitlements hgrants =>
      -- a bean order has been booked when it was created
      have hbean : db.Bean o.orderId := hapart o ho hfinds.1 hfinds.2
      obtain ⟨e, he, htype, hreference, -⟩ := (h.bought o ho hbean).booked
      exact absurd ⟨htype, hreference⟩ (hunbooked e he)

theorem books_order {op : PaymentOp} {id : String} (h : Books op (.order id)) :
    ∃ c, op = .purchase c := by
  cases op <;> simp_all [Books]

theorem order_entry_old {op : PaymentOp} {db : PaymentDb} (hsound : db.Sound)
    (hfresh : db.FreshIds op) (hsupports : db.Supports op) (hop : ∀ c, op ≠ .purchase c)
    {e : JournalEntryRow} (he : e ∈ (op.exec db).1.journal.entries)
    (htype : e.referenceType = "order") : e ∈ db.journal.entries := by
  refine ((exec_grows hsound hfresh hsupports).mem_or_own he).resolve_right fun hown ↦ ?_
  have hsound' := (exec_sound hsound hfresh hsupports).1
  obtain ⟨id, hid, -⟩ := (hsound'.journal.named e he).of_order htype
  rw [hid] at hown
  obtain ⟨c, hc⟩ := books_order hown
  exact hop c hc

theorem purchase_entry {c : Purchase} {db : PaymentDb} (hsound : db.Sound)
    (hfresh : db.FreshIds (.purchase c)) (hkey : db.KeyApart (.purchase c)) {e : JournalEntryRow}
    (he : e ∈ (PaymentOp.exec (.purchase c) db).1.journal.entries) :
    e ∈ db.journal.entries ∨ (e = orderEntry c c.orderId ∧
      c.price.amount ≤ db.journal.walletBalance c.userAccount ∧
      { c.order with status := .fulfilled } ∈ (PaymentOp.exec (.purchase c) db).1.orders) := by
  simp only [PaymentOp.exec] at he ⊢
  rcases atomically_cases (PaymentDb.purchase c) db with ⟨db', _, hrun, heq⟩ | ⟨_, -, heq⟩
  · rw [heq] at he ⊢
    have hstep := purchase_step hsound hfresh.1 hfresh.2.1 hfresh.2.2 hrun
    rcases hstep.apart hsound hkey with hopened | ⟨hcovered, horder, j, hopened, hjournal⟩
    · exact .inl (hopened.entries_eq ▸ he)
    · rw [show db'.journal = _ from hjournal] at he
      rcases List.mem_append.mp he with he | he
      · exact .inl (hopened.entries_eq ▸ he)
      · exact .inr ⟨List.mem_singleton.mp he, hcovered, horder⟩
  · rw [heq] at he
    exact .inl he

theorem extends_apart : Extends Apart KeyApart := by
  intro db op hsound hapart hfresh hsupports hkey e he htype
  have hevolves := (exec_sound hsound hfresh hsupports).2
  refine (bean_congr hevolves.keeps.intents).mpr ?_
  by_cases hop : ∃ c, op = .purchase c
  · obtain ⟨c, rfl⟩ := hop
    rcases purchase_entry hsound hfresh hkey he with hold | ⟨rfl, -⟩
    · exact hapart e hold htype
    · exact hfresh.1.2.1
  · exact hapart e (order_entry_old hsound hfresh hsupports (fun c hc ↦ hop ⟨c, hc⟩) he htype) htype

theorem exec_ordersCovered {op : PaymentOp} {db : PaymentDb} (hsound : db.Sound)
    (hfresh : db.FreshIds op) (hsupports : db.Supports op) (hkey : db.KeyApart op) :
    db.OrdersCovered (op.exec db).1 := by
  intro e he htype _ hnew
  by_cases hop : ∃ c, op = .purchase c
  · obtain ⟨c, rfl⟩ := hop
    rcases purchase_entry hsound hfresh hkey he with hold | ⟨rfl, hcovered, horder⟩
    · exact absurd hold hnew
    · exact ⟨_, horder, rfl, hcovered⟩
  · exact absurd (order_entry_old hsound hfresh hsupports (fun c hc ↦ hop ⟨c, hc⟩) he htype) hnew

theorem Sound.ordersBooked {db : PaymentDb} (h : db.Sound) (hapart : db.Apart) :
    db.OrdersBooked := by
  intro e he htype _
  obtain ⟨o, ho, hid⟩ := hasOrder_iff.mp (h.entries e he htype)
  have hbean : db.Bean o.orderId := hid ▸ hapart e he htype
  obtain ⟨hfulfilled, ⟨e', he', htype', hreference, -, hlines⟩, hgranted⟩ := h.bought o ho hbean
  have honly : ∀ e'' ∈ db.journal.entries, e''.referenceType = "order" →
      e''.referenceId = e.referenceId → e'' = e := fun e'' he'' ht hr ↦
    Table.eq_of_key_eq h.journal.references he'' he (Prod.ext (ht.trans htype.symm) hr)
  obtain rfl := honly e' he' htype' (hreference.trans hid)
  exact ⟨o, ho, hid, hlines, hfulfilled, hgranted, honly⟩

theorem purchase_moves {c : Purchase} {db : PaymentDb} (hsound : db.Sound)
    (hfresh : db.FreshIds (.purchase c)) (hkey : db.KeyApart (.purchase c))
    (hmoves : (PaymentOp.exec (.purchase c) db).1.journal.walletBalance c.userAccount ≠
      db.journal.walletBalance c.userAccount) :
    { c.order with status := .fulfilled } ∈ (PaymentOp.exec (.purchase c) db).1.orders := by
  simp only [PaymentOp.exec] at hmoves ⊢
  rcases atomically_cases (PaymentDb.purchase c) db with ⟨db', _, hrun, heq⟩ | ⟨_, -, heq⟩
  · rw [heq] at hmoves ⊢
    have hstep := purchase_step hsound hfresh.1 hfresh.2.1 hfresh.2.2 hrun
    rcases hstep.apart hsound hkey with hopened | ⟨-, horder, -⟩
    · exact absurd (hopened.walletBalance_eq hsound.journal.wf c.userAccount) hmoves
    · exact horder
  · rw [heq] at hmoves
    exact absurd rfl hmoves

end PaymentDb

/-- A call whose batch has moved its buyer's balance is answered with success. -/
def OnlySuccessDebits (db : PaymentDb) (events : List (Event PaymentCall)) : Prop :=
  ∀ before e between e' after, events = before ++ e :: between ++ e' :: after →
    ∀ c rest, (paymentWorld db before).Performs PaymentOp.exec e (.purchase c) rest →
    (paymentWorld db (before ++ [e])).db.journal.walletBalance c.userAccount ≠
      (paymentWorld db before).db.journal.walletBalance c.userAccount →
    ∀ op reply, (paymentWorld db (before ++ e :: between)).ends PaymentOp.exec e' =
      some (op, (.purchase c, reply)) → reply.isPurchased = true

/-- In every run whose purchases meet no order of a payment under their key, bean purchases debit
once, covered and for an entitlement, and only calls that succeed debit. -/
theorem purchases_debit_once_covered_and_granted (db : PaymentDb)
    (events : List (Event PaymentCall)) (hdb : db.Opening) (hrun : PaymentRun db events)
    (hkeys : MeetsAlong PaymentDb.KeyApart db events) :
    (paymentWorld db events).db.OrdersBooked ∧
      (∀ w e, Runs.Takes paymentStep { db } events w e →
        w.db.OrdersCovered (paymentStep w e).db) ∧ OnlySuccessDebits db events := by
  have hapart : db.Apart := by
    intro e he htype
    obtain ⟨id, hid, -⟩ := (hdb.journal.named e he).of_order htype
    obtain ⟨id', hid'⟩ := hdb.others e he
    cases hid.symm.trans hid'
  refine ⟨?_, ?_, ?_⟩
  · have hsafe := hrun.safe PaymentDb.extends_apart hdb.sound hapart hkeys
    exact hsafe.inv.1.ordersBooked hsafe.inv.2
  · intro w e htakes
    obtain ⟨hsafe, hadmits⟩ := hrun.takes PaymentDb.extends_apart hdb.sound hapart hkeys htakes
    have hcases : (paymentStep w e).db = w.db ∨ ∃ op rest, w.Performs PaymentOp.exec e op rest ∧
      (paymentStep w e).db = (op.exec w.db).1 := w.next_db_cases e
    rcases hcases with hsame | ⟨op, rest, hop, hnext⟩
    · rw [hsame]
      exact fun e' he' _ _ hnew ↦ absurd he' hnew
    · obtain ⟨i, next, rfl, hp, -⟩ := id hop
      obtain ⟨hfresh, hkey⟩ := hadmits i op next rfl hp
      have hsupports := (hsafe.performs hop hadmits).2.1
      rw [hnext]
      exact PaymentDb.exec_ordersCovered hsafe.inv.1 hfresh hsupports hkey
  · rintro before e between e' after rfl c rest hperforms hmoves op reply hends
    have htakes : Runs.Takes paymentStep { db } (before ++ e :: between ++ e' :: after)
        (paymentWorld db before) e := ⟨before, between ++ e' :: after, by simp, rfl⟩
    have htakes' : Runs.Takes paymentStep { db } (before ++ e :: between ++ e' :: after)
        (paymentWorld db (before ++ e :: between)) e' := ⟨before ++ e :: between, after, rfl, rfl⟩
    obtain ⟨hsafe, hadmits⟩ := hrun.takes PaymentDb.extends_apart hdb.sound hapart hkeys htakes
    obtain ⟨hsafe', hadmits'⟩ := hrun.takes PaymentDb.extends_apart hdb.sound hapart hkeys htakes'
    -- the batch leaves the order of the call fulfilled
    obtain ⟨i, next, rfl, hp, -⟩ := id hperforms
    obtain ⟨hfresh, hkey⟩ := hadmits i _ next rfl hp
    have hnext : (paymentWorld db (before ++ [.step i])).db =
        (PaymentOp.exec (.purchase c) (paymentWorld db before).db).1 := by
      have hsplit : paymentWorld db (before ++ [.step i]) =
          paymentStep (paymentWorld db before) (.step i) := Runs.run_append paymentStep _ _ _
      have hdb' : (paymentStep (paymentWorld db before) (.step i)).db = _ := hperforms.db_next
      rw [hsplit, hdb']
    have horder : { c.order with status := .fulfilled } ∈
        (paymentWorld db (before ++ [.step i])).db.orders := by
      rw [hnext] at hmoves ⊢
      exact PaymentDb.purchase_moves hsafe.inv.1 hfresh hkey hmoves
    -- and there it stays
    have hevolves : (paymentWorld db (before ++ [.step i])).db.Evolves
        (paymentWorld db (before ++ .step i :: between)).db := by
      have hsplit : before ++ .step i :: between = (before ++ [.step i]) ++ between := by simp
      rw [hsplit] at hrun hkeys ⊢
      exact PaymentRun.evolves PaymentDb.extends_apart hdb.sound hapart
        ((Runs.along_append _ _ _ _).mp hrun).1 ((Runs.along_append _ _ _ _).mp hkeys).1
    have hbean : (paymentWorld db (before ++ [.step i])).db.Bean c.orderId := by
      rw [hnext]
      refine (PaymentDb.bean_congr ?_).mpr hfresh.1.2.1
      exact (PaymentDb.exec_sound hsafe.inv.1 hfresh trivial).2.keeps.intents
    have hstays := hevolves.keeps.orders _ horder rfl hbean
    obtain ⟨hevolves', -, hhonest⟩ := hsafe'.performs (World.ends_eq_some.mp hends) hadmits'
    by_contra hfailed
    refine hhonest (by simpa using hfailed) (hevolves'.keeps.orders _ hstays rfl ?_)
    exact (PaymentDb.bean_congr hevolves.keeps.intents).mpr hbean

def demoBought : List (Event PaymentCall) :=
  [.start (.purchase demoPurchase), .step 0, .step 0, .step 0, .step 0]

theorem purchases_debit_once_covered_and_granted_demo :
    (paymentWorld demoPaymentDb demoBought).db.OrdersBooked ∧
      (paymentWorld demoPaymentDb demoBought).db.journal.walletBalance "user:u:BEAN" = 90 :=
  ⟨(purchases_debit_once_covered_and_granted demoPaymentDb demoBought demoPaymentDb_opening
    (by decide +kernel) (by decide +kernel)).1, by decide +kernel⟩

def demoCharged : List (Event PaymentCall) :=
  [.start (.purchase demoPurchase), .step 0, .start demoSuccess, .step 1, .step 1, .step 0, .step 0]

/-- The purchase debits beans for the order of the payment, and is then refused. -/
theorem purchase_charged_for_payment :
    ¬ ∀ (db : PaymentDb) (events : List (Event PaymentCall)), db.Opening → PaymentRun db events →
      (paymentWorld db events).db.OrdersBooked ∧
        (∀ w e, Runs.Takes paymentStep { db } events w e →
          w.db.OrdersCovered (paymentStep w e).db) ∧ OnlySuccessDebits db events := by
  intro h
  obtain ⟨hbooked, -⟩ := h demoPaymentDb demoCharged demoPaymentDb_opening (by decide +kernel)
  obtain ⟨o, ho, -, hlines, -⟩ := hbooked ⟨.order "i", "order", "p", .posted⟩ (by decide +kernel)
    rfl rfl
  revert o
  decide +kernel

end Fabushi.Worker
