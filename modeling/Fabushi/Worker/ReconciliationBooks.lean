import Fabushi.Worker.RefundBooks

/-!
# Reconciliations, step by step

The batch of a reconciliation books up to three entries, each under its own condition,
and moves the payment's developer amount as a whole.
-/

namespace Fabushi.Worker

open Result

namespace Journal

def addIf (j : Journal) (condition : Prop) [Decidable condition] (entry : JournalEntryRow)
    (lines : List JournalLineRow) : Journal :=
  if condition then j.add entry lines else j

theorem Grows.addIf {own : EntryId → Prop} {j : Journal} {condition : Prop} [Decidable condition]
    {entry : JournalEntryRow} {lines : List JournalLineRow}
    (hadds : condition → j.Adds entry lines) (hown : own entry.entryId) :
    Grows own j (j.addIf condition entry lines) := by
  unfold Journal.addIf
  split
  · rename_i hcondition
    exact .add (hadds hcondition) hown
  · exact .refl j

theorem WellFormed.addIf {j : Journal} (hwf : j.WellFormed) {condition : Prop}
    [Decidable condition] {entry : JournalEntryRow} {lines : List JournalLineRow}
    (hadds : condition → j.Adds entry lines) : (j.addIf condition entry lines).WellFormed := by
  unfold Journal.addIf
  split
  · rename_i hcondition
    have hadds' := hadds hcondition
    exact hwf.append (fun e he ↦ (hadds'.unused e he).1) hadds'.own hadds'.accounts
  · exact hwf

end Journal

namespace PaymentDb

section

variable {db db' : PaymentDb}

theorem bookNew_adds (hwf : db.journal.WellFormed) {entryId : EntryId} {referenceType referenceId : String}
    {lines : List JournalLineRow} (hlines : Journal.EntryLines entryId lines)
    (h : db.bookNew entryId referenceType referenceId lines = .ok db') :
    db.journal.Adds (Journal.booked entryId referenceType referenceId lines) lines ∧
      db' = { db with
        journal := db.journal.add (Journal.booked entryId referenceType referenceId lines) lines } := by
  obtain ⟨_, hunused, h⟩ := bind_eq_ok.mp h
  obtain ⟨j, hbook, h⟩ := bind_eq_ok.mp h
  obtain rfl := Except.ok.inj h
  have hfree : db.journal.EntryUnused entryId referenceType referenceId := by
    intro e he
    have hnone := ensure_eq_ok.mp hunused
    simp only [List.any_eq_true, not_exists, not_and, Bool.not_eq_true] at hnone
    simpa [JournalEntryRow.conflicts] using hnone e he
  rcases hwf.book_cases (Journal.isDraft_of_unused fun e he ↦ (hfree e he).1) hlines
    hbook with ⟨-, hused⟩ | ⟨-, hadds, rfl⟩
  · exact absurd hfree (hused rfl)
  · exact ⟨hadds, rfl⟩

theorem bookNew_addIf (hwf : db.journal.WellFormed) {condition : Prop} [Decidable condition]
    {entryId : EntryId} {referenceType referenceId : String} {lines : List JournalLineRow}
    (hlines : condition → Journal.EntryLines entryId lines)
    (h : (if condition then db.bookNew entryId referenceType referenceId lines else .ok db) =
      .ok db') :
    (condition → db.journal.Adds (Journal.booked entryId referenceType referenceId lines) lines) ∧
      db' = { db with
        journal := db.journal.addIf condition
          (Journal.booked entryId referenceType referenceId lines) lines } := by
  by_cases hcondition : condition
  · rw [if_pos hcondition] at h
    obtain ⟨hadds, rfl⟩ := bookNew_adds hwf (hlines hcondition) h
    refine ⟨fun _ ↦ hadds, ?_⟩
    rw [Journal.addIf, if_pos hcondition]
  · rw [if_neg hcondition] at h
    refine ⟨fun hc ↦ absurd hc hcondition, ?_⟩
    rw [Journal.addIf, if_neg hcondition]
    exact (Except.ok.inj h).symm

end

def adjustmentEntry (p : PaymentRow) (input : ReconcileRequest) (reconciliationId : String) :
    JournalEntryRow :=
  Journal.booked (.developerAdjustment reconciliationId) "settlement_reconciliation"
    reconciliationId (p.adjustmentLines input reconciliationId)

def reserveEntry (p : PaymentRow) (input : ReconcileRequest) (reconciliationId : String) :
    JournalEntryRow :=
  Journal.booked (.reserve reconciliationId) "settlement_reserve" reconciliationId
    (p.reserveLines reconciliationId (input.reserveAmount p))

def payableEntry (p : PaymentRow) (input : ReconcileRequest) (reconciliationId : String)
    (split : Bool) : JournalEntryRow :=
  Journal.booked (.reconciliation reconciliationId)
    (if split then "settlement_original_order_split" else "settlement_release")
    ("reconciliation-release:" ++ reconciliationId)
    (p.payableLines reconciliationId split (input.developerPayable p))

def withAdjustment (p : PaymentRow) (input : ReconcileRequest) (reconciliationId : String)
    (j : Journal) : Journal :=
  j.addIf (0 < input.deductions) (adjustmentEntry p input reconciliationId)
    (p.adjustmentLines input reconciliationId)

def withReserve (p : PaymentRow) (input : ReconcileRequest) (reconciliationId : String)
    (j : Journal) : Journal :=
  (withAdjustment p input reconciliationId j).addIf (0 < input.reserveAmount p)
    (reserveEntry p input reconciliationId)
    (p.reserveLines reconciliationId (input.reserveAmount p))

def withPayable (p : PaymentRow) (input : ReconcileRequest) (reconciliationId : String)
    (split : Bool) (j : Journal) : Journal :=
  (withReserve p input reconciliationId j).addIf (0 < input.developerPayable p)
    (payableEntry p input reconciliationId split)
    (p.payableLines reconciliationId split (input.developerPayable p))

/-- What the batch of `admin_reconcile_settlement` does. -/
def ReconcileStep (p : PaymentRow) (input : ReconcileRequest) (reconciliationId : String)
    (split : Bool) (now : ℤ) (db db' : PaymentDb) : Prop :=
  ∃ j, db.journal.Opened j ∧
    (0 < input.deductions → j.Adds (adjustmentEntry p input reconciliationId)
      (p.adjustmentLines input reconciliationId)) ∧
    (0 < input.reserveAmount p → (withAdjustment p input reconciliationId j).Adds
      (reserveEntry p input reconciliationId)
      (p.reserveLines reconciliationId (input.reserveAmount p))) ∧
    (0 < input.developerPayable p → (withReserve p input reconciliationId j).Adds
      (payableEntry p input reconciliationId split)
      (p.payableLines reconciliationId split (input.developerPayable p))) ∧
    db'.journal = withPayable p input reconciliationId split j ∧
    db'.payments = Table.update (fun q ↦ q.paymentId = p.paymentId)
      (fun q ↦ { q with releasedDeveloperAmount := input.developerBeforeReserve p }) db.payments ∧
    db'.reconciliations = Table.update (fun r ↦ r.reconciliationId = reconciliationId)
      (fun r ↦ { r with status := .released })
      (db.reconciliations ++ [reconciliationRow p input reconciliationId now]) ∧
    (∃ new, db'.releases = db.releases ++ new ∧ ∀ r ∈ new, r.paymentId = p.paymentId) ∧
    db'.refunds = db.refunds ∧ db'.orders = db.orders ∧ db'.entitlements = db.entitlements

theorem ReconcileStep.reconciliations {db db' : PaymentDb} {p : PaymentRow}
    {input : ReconcileRequest} {reconciliationId : String} {split : Bool} {now : ℤ}
    (h : ReconcileStep p input reconciliationId split now db db') :
    db'.reconciliations = Table.update (fun r ↦ r.reconciliationId = reconciliationId)
      (fun r ↦ { r with status := .released })
      (db.reconciliations ++ [reconciliationRow p input reconciliationId now]) := by
  obtain ⟨j, -, -, -, -, -, -, hrows, -⟩ := h
  exact hrows

theorem bookPayable_addIf {db db' : PaymentDb} (hwf : db.journal.WellFormed) {p : PaymentRow}
    {input : ReconcileRequest} {reconciliationId : String} {split : Bool}
    (h : db.bookPayable p input reconciliationId split = .ok db') :
    (0 < input.developerPayable p → db.journal.Adds (payableEntry p input reconciliationId split)
      (p.payableLines reconciliationId split (input.developerPayable p))) ∧
      ∃ new, (∀ r ∈ new, r.paymentId = p.paymentId) ∧ db' = { db with
        journal := db.journal.addIf (0 < input.developerPayable p)
          (payableEntry p input reconciliationId split)
          (p.payableLines reconciliationId split (input.developerPayable p))
        releases := db.releases ++ new } := by
  simp only [bookPayable] at h
  by_cases hpos : 0 < input.developerPayable p
  · rw [if_pos hpos] at h
    obtain ⟨db₁, hrelease, h⟩ := bind_eq_ok.mp h
    obtain ⟨_, -, hrelease⟩ := bind_eq_ok.mp hrelease
    obtain ⟨_, -, hrelease⟩ := bind_eq_ok.mp hrelease
    obtain rfl := Except.ok.inj hrelease
    have hlines := (p.payableLines_ok reconciliationId split hpos).1
    obtain ⟨hadds, rfl⟩ := bookNew_adds (by exact hwf) hlines h
    refine ⟨fun _ ↦ hadds, [⟨"reconciliation-release:" ++ reconciliationId, p.paymentId,
      "release:" ++ input.idempotencyKey, input.developerPayable p⟩], by simp, ?_⟩
    rw [Journal.addIf, if_pos hpos]
    rfl
  · rw [if_neg hpos] at h
    refine ⟨fun hc ↦ absurd hc hpos, [], by simp, ?_⟩
    rw [Journal.addIf, if_neg hpos, List.append_nil]
    exact (Except.ok.inj h).symm

theorem reconcile_step {db db' : PaymentDb} (hsound : db.Sound) {p : PaymentRow}
    {input : ReconcileRequest} {reconciliationId : String} {split : Bool} {now : ℤ}
    (h : db.reconcile p input reconciliationId split now = .ok (db', ())) :
    ReconcileStep p input reconciliationId split now db db' := by
  obtain ⟨db₁, hinsert, h⟩ := bind_eq_ok.mp h
  obtain ⟨db₂, hadjust, h⟩ := bind_eq_ok.mp h
  obtain ⟨db₃, hreserve, h⟩ := bind_eq_ok.mp h
  obtain ⟨db₄, hpayable, h⟩ := bind_eq_ok.mp h
  obtain ⟨db₅, hupdate, h⟩ := bind_eq_ok.mp h
  obtain rfl := congrArg Prod.fst (Except.ok.inj h)
  obtain ⟨rfl, -⟩ := updatePayments_eq_ok hupdate
  obtain ⟨_, -, hinsert⟩ := bind_eq_ok.mp hinsert
  obtain ⟨_, -, hinsert⟩ := bind_eq_ok.mp hinsert
  obtain rfl := Except.ok.inj hinsert
  have hopened := p.opened_reconciliation (j := db.journal) split
  have hwf₁ : (p.openReconciliation split db.journal).WellFormed :=
    (hopened.inOrder hsound.journal).wf
  obtain ⟨hadds₁, rfl⟩ := bookNew_addIf hwf₁ (fun _ ↦ p.adjustmentLines_ok reconciliationId input)
    hadjust
  have hwf₂ := hwf₁.addIf hadds₁
  obtain ⟨hadds₂, rfl⟩ := bookNew_addIf hwf₂
    (fun hpos ↦ (p.reserveLines_ok reconciliationId hpos).1) hreserve
  have hwf₃ := hwf₂.addIf hadds₂
  obtain ⟨hadds₃, releases, hreleases, rfl⟩ := bookPayable_addIf hwf₃ hpayable
  exact ⟨_, hopened, hadds₁, hadds₂, hadds₃, rfl, rfl, rfl, ⟨releases, rfl, hreleases⟩, rfl, rfl,
    rfl⟩

end PaymentDb

end Fabushi.Worker
