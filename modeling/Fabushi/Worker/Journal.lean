import Fabushi.Library.Text
import Fabushi.Worker.Sql

/-!
# Wallet accounts and the journal

The tables `wallet_accounts`, `journal_entries` and `journal_lines`, the statements
that write them and the balances read from them. A batch drafts an entry, adds its
lines and posts it if they balance.
-/

namespace Fabushi.Worker

open Result

/-- Entries are named after the record they book: `payout:{id}`, `payout:{id}:paid`,
`refund:{id}` and so on. The identifiers inside are generated ones, so the names of
different entries differ. -/
inductive EntryId where
  | capture (paymentId : String)
  | refund (refundId : String)
  | settlement (releaseId : String)
  | reconciliation (reconciliationId : String)
  | reserve (reconciliationId : String)
  | developerAdjustment (reconciliationId : String)
  | reserveRelease (reconciliationId : String)
  | order (entryId : String)
  | payout (payoutId : String)
  | payoutPaid (payoutId : String)
  | payoutReversal (payoutId : String)
  | other (entryId : String)
  deriving DecidableEq, Repr

inductive EntryState where
  | draft | posted | void
  deriving DecidableEq, Repr

structure WalletAccountRow where
  accountId : String
  ownerType : String
  ownerId : String
  currency : String
  deriving DecidableEq, Repr

structure JournalEntryRow where
  entryId : EntryId
  referenceType : String
  referenceId : String
  state : EntryState
  deriving DecidableEq, Repr

structure JournalLineRow where
  entryId : EntryId
  tag : String
  accountId : String
  currency : String
  amount : ℤ
  deriving DecidableEq, Repr

structure Journal where
  accounts : List WalletAccountRow := []
  entries : List JournalEntryRow := []
  lines : List JournalLineRow := []
  deriving DecidableEq, Repr

def WalletAccountRow.conflicts (old new : WalletAccountRow) : Bool :=
  old.accountId = new.accountId ||
    (old.ownerType = new.ownerType && old.ownerId = new.ownerId && old.currency = new.currency)

def JournalEntryRow.conflicts (old new : JournalEntryRow) : Bool :=
  old.entryId = new.entryId ||
    (old.referenceType = new.referenceType && old.referenceId = new.referenceId)

def JournalLineRow.conflicts (old new : JournalLineRow) : Bool :=
  old.entryId = new.entryId && (old.tag = new.tag || old.accountId = new.accountId)

namespace Journal

/-! ## Reads -/

def isDraft (j : Journal) (entryId : EntryId) : Bool :=
  j.entries.any fun e ↦ e.entryId = entryId && e.state = .draft

def isPosted (j : Journal) (entryId : EntryId) : Bool :=
  j.entries.any fun e ↦ e.entryId = entryId && e.state = .posted

def hasAccount (j : Journal) (accountId : String) : Bool :=
  j.accounts.any fun a ↦ a.accountId = accountId

def linesOf (j : Journal) (entryId : EntryId) : List JournalLineRow :=
  j.lines.filter fun l ↦ l.entryId = entryId

def postedAmount (j : Journal) (accountId currency : String) : ℤ :=
  Table.total (fun l ↦ if l.accountId = accountId && l.currency = currency && j.isPosted l.entryId
    then l.amount else 0) j.lines

def walletBalance (j : Journal) (accountId : String) : ℤ :=
  match j.accounts.find? fun a ↦ a.accountId = accountId with
  | some a => j.postedAmount accountId a.currency
  | none => 0

/-! ## Statements -/

def walletAccount (accountId ownerType ownerId currency : String) (j : Journal) : Journal :=
  let row : WalletAccountRow := { accountId, ownerType, ownerId, currency }
  { j with accounts := Table.insertOrIgnore WalletAccountRow.conflicts row j.accounts }

def draftEntry (entryId : EntryId) (referenceType referenceId : String) (j : Journal) : Journal :=
  let row : JournalEntryRow := { entryId, referenceType, referenceId, state := .draft }
  { j with entries := Table.insertOrIgnore JournalEntryRow.conflicts row j.entries }

def journalLine (j : Journal) (line : JournalLineRow) : Except SqlError Journal :=
  if line.amount ≠ 0 && j.isDraft line.entryId &&
      !(j.lines.any fun old ↦ old.conflicts line) then do
    ensure (j.hasAccount line.accountId) (.foreignKey "journal_lines")
    return { j with lines := j.lines ++ [line] }
  else .ok j

/-- Two lines at least, and no currency whose amounts do not cancel. -/
def isBalanced (lines : List JournalLineRow) : Bool :=
  2 ≤ lines.length && lines.all fun l ↦
    Table.total (fun l' ↦ if l'.currency = l.currency then l'.amount else 0) lines = 0

def postBalancedEntry (entryId : EntryId) (j : Journal) : Journal :=
  let selects (e : JournalEntryRow) : Bool :=
    e.entryId = entryId && e.state = .draft && isBalanced (j.linesOf entryId)
  { j with entries := Table.update selects (fun e ↦ { e with state := .posted }) j.entries }

def postLines (entryId : EntryId) (lines : List JournalLineRow) (j : Journal) :
    Except SqlError Journal := do
  let j ← lines.foldlM journalLine j
  return j.postBalancedEntry entryId

/-! ## What the statements do -/

structure WellFormed (j : Journal) : Prop where
  entryIds : (j.entries.map (·.entryId)).Nodup
  lineEntry : ∀ l ∈ j.lines, ∃ e ∈ j.entries, e.entryId = l.entryId
  lineAccount : ∀ l ∈ j.lines, j.hasAccount l.accountId = true

theorem isDraft_iff {j : Journal} {entryId : EntryId} :
    j.isDraft entryId = true ↔ ∃ e ∈ j.entries, e.entryId = entryId ∧ e.state = .draft := by
  simp [isDraft]

theorem isPosted_iff {j : Journal} {entryId : EntryId} :
    j.isPosted entryId = true ↔ ∃ e ∈ j.entries, e.entryId = entryId ∧ e.state = .posted := by
  simp [isPosted]

theorem hasAccount_iff {j : Journal} {accountId : String} :
    j.hasAccount accountId = true ↔ ∃ a ∈ j.accounts, a.accountId = accountId := by
  simp [hasAccount]

theorem postLines_not_draft {j : Journal} {entryId : EntryId} {lines : List JournalLineRow}
    (hdraft : j.isDraft entryId = false) (hid : ∀ l ∈ lines, l.entryId = entryId) :
    j.postLines entryId lines = .ok j := by
  have hlines : lines.foldlM journalLine j = .ok j := by
    induction lines with
    | nil => rfl
    | cons l lines ih =>
        have hline : j.journalLine l = .ok j := by
          simp [journalLine, hid l List.mem_cons_self, hdraft]
        rw [List.foldlM_cons, hline]
        exact ih fun l hl ↦ hid l (List.mem_cons_of_mem _ hl)
  have hpost : j.postBalancedEntry entryId = j := by
    have hsame : Table.update
        (fun e ↦ e.entryId = entryId && e.state = .draft && isBalanced (j.linesOf entryId))
        (fun e ↦ { e with state := .posted }) j.entries = j.entries := by
      refine (List.map_congr_left ?_).trans (List.map_id _)
      intro e he
      have hnot : ¬ (e.entryId = entryId ∧ e.state = .draft) := by
        intro h
        rw [isDraft_iff.mpr ⟨e, he, h⟩] at hdraft
        cases hdraft
      rw [if_neg]
      · rfl
      · simpa using fun h₁ h₂ ↦ absurd ⟨h₁, h₂⟩ hnot
    rw [postBalancedEntry, hsame]
  rw [postLines, hlines]
  exact congrArg Except.ok hpost

theorem insertLines_eq_ok {j j' : Journal} {entryId : EntryId} {lines : List JournalLineRow}
    (hdraft : j.isDraft entryId = true) (hid : ∀ l ∈ lines, l.entryId = entryId)
    (hnew : ∀ l ∈ lines, ∀ old ∈ j.lines, old.conflicts l = false)
    (hpair : lines.Pairwise fun l l' ↦ l.conflicts l' = false)
    (h : lines.foldlM journalLine j = .ok j') :
    j' = { j with lines := j.lines ++ lines.filter fun l ↦ l.amount ≠ 0 } ∧
      ∀ l ∈ lines, l.amount ≠ 0 → j.hasAccount l.accountId = true := by
  induction lines generalizing j with
  | nil =>
      rw [← Except.ok.inj h]
      simp
  | cons l lines ih =>
      rw [List.foldlM_cons] at h
      obtain ⟨j₁, hl, h⟩ := bind_eq_ok.mp h
      rw [List.pairwise_cons] at hpair
      have hno : (j.lines.any fun old ↦ old.conflicts l) = false := by
        simpa using hnew l List.mem_cons_self
      rw [journalLine, hid l List.mem_cons_self, hdraft, hno] at hl
      by_cases hzero : l.amount = 0
      · simp only [hzero, ne_eq, not_true, decide_false, Bool.false_and, Bool.false_eq_true,
          if_false] at hl
        obtain rfl := Except.ok.inj hl
        obtain ⟨rfl, haccounts⟩ := ih hdraft (fun l hl ↦ hid l (List.mem_cons_of_mem _ hl))
          (fun l hl ↦ hnew l (List.mem_cons_of_mem _ hl)) hpair.2 h
        refine ⟨by simp [hzero], ?_⟩
        intro l' hl' hne
        rcases List.mem_cons.mp hl' with rfl | hl'
        · exact absurd hzero hne
        · exact haccounts l' hl' hne
      · simp only [ne_eq, hzero, not_false_eq_true, decide_true, Bool.not_false, Bool.and_self,
          if_true] at hl
        obtain ⟨_, haccount, hl⟩ := bind_eq_ok.mp hl
        obtain rfl := Except.ok.inj hl
        have hnew' : ∀ l' ∈ lines, ∀ old ∈ j.lines ++ [l], old.conflicts l' = false := by
          intro l' hl' old hold
          rcases List.mem_append.mp hold with hold | hold
          · exact hnew l' (List.mem_cons_of_mem _ hl') old hold
          · rw [List.mem_singleton.mp hold]
            exact hpair.1 l' hl'
        have hdraft' : { j with lines := j.lines ++ [l] }.isDraft entryId = true := hdraft
        obtain ⟨rfl, haccounts⟩ := ih hdraft' (fun l hl ↦ hid l (List.mem_cons_of_mem _ hl)) hnew'
          hpair.2 h
        refine ⟨by simp [hzero], ?_⟩
        intro l' hl' hne
        rcases List.mem_cons.mp hl' with rfl | hl'
        · exact ensure_eq_ok.mp haccount
        · exact haccounts l' hl' hne

@[simp] theorem walletAccount_entries (accountId ownerType ownerId currency : String)
    (j : Journal) : (j.walletAccount accountId ownerType ownerId currency).entries = j.entries := rfl

@[simp] theorem walletAccount_lines (accountId ownerType ownerId currency : String) (j : Journal) :
    (j.walletAccount accountId ownerType ownerId currency).lines = j.lines := rfl

@[simp] theorem isPosted_walletAccount (accountId ownerType ownerId currency : String)
    (j : Journal) (entryId : EntryId) :
    (j.walletAccount accountId ownerType ownerId currency).isPosted entryId =
      j.isPosted entryId := rfl

theorem hasAccount_walletAccount {j : Journal} {account : String} (h : j.hasAccount account = true)
    (accountId ownerType ownerId currency : String) :
    (j.walletAccount accountId ownerType ownerId currency).hasAccount account = true := by
  obtain ⟨a, ha, heq⟩ := hasAccount_iff.mp h
  exact hasAccount_iff.mpr ⟨a, Table.mem_insertOrIgnore_of_mem ha, heq⟩

theorem WellFormed.walletAccount {j : Journal} (h : j.WellFormed)
    (accountId ownerType ownerId currency : String) :
    (j.walletAccount accountId ownerType ownerId currency).WellFormed where
  entryIds := h.entryIds
  lineEntry := h.lineEntry
  lineAccount l hl := hasAccount_walletAccount (h.lineAccount l hl) _ _ _ _

theorem WellFormed.walletBalance_walletAccount {j : Journal} (h : j.WellFormed)
    (accountId ownerType ownerId currency account : String) :
    (j.walletAccount accountId ownerType ownerId currency).walletBalance account =
      j.walletBalance account := by
  rcases Table.insertOrIgnore_cases WalletAccountRow.conflicts
    { accountId, ownerType, ownerId, currency } j.accounts with ⟨-, hsame⟩ | ⟨-, happend⟩
  · simp only [Journal.walletAccount, hsame]
  · simp only [walletBalance, Journal.walletAccount, happend, List.find?_append]
    cases hfind : j.accounts.find? fun a ↦ decide (a.accountId = account) with
    | some a => rfl
    | none =>
        by_cases heq : accountId = account
        · subst heq
          simp only [decide_true, List.find?_cons_of_pos, Option.none_or]
          refine Table.total_eq_zero ?_
          intro l hl
          rw [if_neg]
          intro hsel
          simp only [Bool.and_eq_true, decide_eq_true_eq] at hsel
          obtain ⟨a, ha, hid⟩ := hasAccount_iff.mp (h.lineAccount l hl)
          have hnone := List.find?_eq_none.mp hfind a ha
          simp [hid, hsel.1.1] at hnone
        · simp [heq]

theorem draftEntry_ignored {j : Journal} {entryId : EntryId} {referenceType referenceId : String}
    (h : ∃ e ∈ j.entries, e.entryId = entryId) :
    j.draftEntry entryId referenceType referenceId = j := by
  obtain ⟨e, he, hid⟩ := h
  simp only [draftEntry, Table.insertOrIgnore]
  rw [if_pos]
  exact List.any_eq_true.mpr ⟨e, he, by simp [JournalEntryRow.conflicts, hid]⟩

def EntryUnused (j : Journal) (entryId : EntryId) (referenceType referenceId : String) : Prop :=
  ∀ e ∈ j.entries, e.entryId ≠ entryId ∧
    ¬ (e.referenceType = referenceType ∧ e.referenceId = referenceId)

def booked (entryId : EntryId) (referenceType referenceId : String)
    (lines : List JournalLineRow) : JournalEntryRow where
  entryId
  referenceType
  referenceId
  state := if isBalanced lines then .posted else .draft

theorem WellFormed.postLines_new {j j' : Journal} (hwf : j.WellFormed) {entryId : EntryId}
    {referenceType referenceId : String} {lines : List JournalLineRow}
    (hunused : j.EntryUnused entryId referenceType referenceId)
    (hid : ∀ l ∈ lines, l.entryId = entryId)
    (hpair : lines.Pairwise fun l l' ↦ l.conflicts l' = false)
    (h : (j.draftEntry entryId referenceType referenceId).postLines entryId lines = .ok j') :
    j' = { j with
        entries := j.entries ++ [booked entryId referenceType referenceId
          (lines.filter fun l ↦ l.amount ≠ 0)]
        lines := j.lines ++ lines.filter fun l ↦ l.amount ≠ 0 } ∧
      ∀ l ∈ lines, l.amount ≠ 0 → j.hasAccount l.accountId = true := by
  have hold : ∀ l ∈ j.lines, l.entryId ≠ entryId := by
    intro l hl heq
    obtain ⟨e, he, hentry⟩ := hwf.lineEntry l hl
    exact (hunused e he).1 (hentry.trans heq)
  have hdrafted : j.draftEntry entryId referenceType referenceId =
      { j with entries := j.entries ++ [⟨entryId, referenceType, referenceId, .draft⟩] } := by
    simp only [draftEntry, Table.insertOrIgnore]
    rw [if_neg]
    simpa [JournalEntryRow.conflicts, EntryUnused] using hunused
  have hdraft : (j.draftEntry entryId referenceType referenceId).isDraft entryId = true := by
    rw [hdrafted, isDraft_iff]
    exact ⟨_, List.mem_append_right _ (List.mem_singleton.mpr rfl), rfl, rfl⟩
  obtain ⟨j₁, hlines, hpost⟩ := bind_eq_ok.mp h
  obtain ⟨rfl, haccounts⟩ := insertLines_eq_ok hdraft hid (by
    intro l hl old hold'
    simp [JournalLineRow.conflicts, hid l hl, hold old hold']) hpair hlines
  refine ⟨?_, haccounts⟩
  obtain rfl := Except.ok.inj hpost
  have hlinesOf : ({ j.draftEntry entryId referenceType referenceId with
      lines := j.lines ++ lines.filter fun l ↦ l.amount ≠ 0 } : Journal).linesOf entryId =
      lines.filter fun l ↦ l.amount ≠ 0 := by
    simp only [linesOf, List.filter_append]
    rw [List.filter_eq_nil_iff.mpr, List.nil_append, List.filter_eq_self]
    · intro l hl
      simpa using hid l (List.mem_filter.mp hl).1
    · intro l hl
      simpa using hold l hl
  have hentries : (j.draftEntry entryId referenceType referenceId).entries =
      j.entries ++ [⟨entryId, referenceType, referenceId, .draft⟩] := by
    rw [hdrafted]
  simp only [postBalancedEntry]
  refine congrArg₂ (fun entries lines ↦ ({ j with entries, lines } : Journal)) ?_ rfl
  rw [show (j.draftEntry entryId referenceType referenceId).lines = j.lines from rfl, hlinesOf,
    hentries, Table.update, List.map_append]
  congr 1
  · refine (List.map_congr_left ?_).trans (List.map_id _)
    intro e he
    simp [(hunused e he).1]
  · simp only [List.map_singleton, decide_true, Bool.true_and, booked]
    split <;> simp_all

theorem WellFormed.append {j : Journal} (hwf : j.WellFormed) {entry : JournalEntryRow}
    {lines : List JournalLineRow} (hnew : ∀ e ∈ j.entries, e.entryId ≠ entry.entryId)
    (hid : ∀ l ∈ lines, l.entryId = entry.entryId)
    (haccounts : ∀ l ∈ lines, j.hasAccount l.accountId = true) :
    WellFormed { j with entries := j.entries ++ [entry], lines := j.lines ++ lines } where
  entryIds := Table.nodup_append_row hwf.entryIds hnew
  lineEntry l hl := by
    rcases List.mem_append.mp hl with hl | hl
    · obtain ⟨e, he, heq⟩ := hwf.lineEntry l hl
      exact ⟨e, List.mem_append_left _ he, heq⟩
    · exact ⟨entry, List.mem_append_right _ (List.mem_singleton.mpr rfl), (hid l hl).symm⟩
  lineAccount l hl := by
    rcases List.mem_append.mp hl with hl | hl
    · exact hwf.lineAccount l hl
    · exact haccounts l hl

theorem isBalanced_pair {l₁ l₂ : JournalLineRow} (hcurrency : l₁.currency = l₂.currency)
    (hsum : l₁.amount + l₂.amount = 0) : isBalanced [l₁, l₂] = true := by
  simp [isBalanced, hcurrency, hsum]

theorem WellFormed.postPair_new {j j' : Journal} (hwf : j.WellFormed) {entryId : EntryId}
    {referenceType referenceId : String} {l₁ l₂ : JournalLineRow}
    (hunused : j.EntryUnused entryId referenceType referenceId)
    (hid₁ : l₁.entryId = entryId) (hid₂ : l₂.entryId = entryId) (htag : l₁.tag ≠ l₂.tag)
    (haccount : l₁.accountId ≠ l₂.accountId) (hcurrency : l₁.currency = l₂.currency)
    (hne : l₁.amount ≠ 0) (hsum : l₁.amount + l₂.amount = 0)
    (h : (j.draftEntry entryId referenceType referenceId).postLines entryId [l₁, l₂] = .ok j') :
    j' = { j with
        entries := j.entries ++ [⟨entryId, referenceType, referenceId, .posted⟩]
        lines := j.lines ++ [l₁, l₂] } ∧ j'.WellFormed := by
  have hid : ∀ l ∈ [l₁, l₂], l.entryId = entryId := by
    simp [hid₁, hid₂]
  have hne₂ : l₂.amount ≠ 0 := by omega
  obtain ⟨rfl, haccounts⟩ := hwf.postLines_new hunused hid
    (by simp [JournalLineRow.conflicts, htag, haccount]) h
  have hfilter : [l₁, l₂].filter (fun l ↦ decide (l.amount ≠ 0)) = [l₁, l₂] := by
    simp [hne, hne₂]
  simp only [hfilter, booked, isBalanced_pair hcurrency hsum, if_true]
  refine ⟨trivial, hwf.append (fun e he ↦ (hunused e he).1) hid ?_⟩
  intro l hl
  refine haccounts l hl ?_
  rcases List.mem_pair.mp hl with rfl | rfl
  · exact hne
  · exact hne₂

section Append

variable (j : Journal) (entry : JournalEntryRow) (lines : List JournalLineRow)

theorem isPosted_append (entryId : EntryId) :
    ({ j with entries := j.entries ++ [entry], lines := j.lines ++ lines } : Journal).isPosted
      entryId = (j.isPosted entryId || (entry.entryId = entryId && entry.state = .posted)) := by
  simp [isPosted]

theorem linesOf_append (entryId : EntryId) :
    ({ j with entries := j.entries ++ [entry], lines := j.lines ++ lines } : Journal).linesOf
      entryId = j.linesOf entryId ++ lines.filter fun l ↦ l.entryId = entryId := by
  simp [linesOf]

end Append

theorem WellFormed.linesOf_unused {j : Journal} (hwf : j.WellFormed) {entryId : EntryId}
    (h : ∀ e ∈ j.entries, e.entryId ≠ entryId) : j.linesOf entryId = [] := by
  rw [linesOf, List.filter_eq_nil_iff]
  intro l hl heq
  obtain ⟨e, he, hentry⟩ := hwf.lineEntry l hl
  exact h e he (hentry.trans (decide_eq_true_eq.mp heq))

end Journal

end Fabushi.Worker
