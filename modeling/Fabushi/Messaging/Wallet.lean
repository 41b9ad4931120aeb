import Fabushi.Messaging.Payment
import Fabushi.Library.DoubleEntry

/-!
# The wallet ledger

`wallet.rs`: accounts with one balance per currency, the entries, and the index
from request identifiers to entries that makes every operation idempotent. An
operation that takes `&mut self` returns the ledger it leaves behind also when
it fails, because a failing operation may already have written to it.
-/

namespace Fabushi.Messaging

open MachineInt Result Std

def normalizeCurrency (currency : String) : String :=
  Text.toAsciiUppercase (Text.trim currency)

structure WalletAccount where
  id : WalletAccountId
  ownerId : ActorId
  balancesMinor : BTreeMap String Int64 := ∅
  frozen : Bool := false
  createdAtMs : Int64
  updatedAtMs : Int64
  deriving DecidableEq

def WalletAccount.balance (account : WalletAccount) (currency : String) : Int64 :=
  account.balancesMinor[normalizeCurrency currency]?.getD 0

inductive LedgerEntryKind where
  | credit | transfer | refund | adjustment
  deriving DecidableEq, Repr

structure LedgerEntry where
  id : String
  requestId : String
  kind : LedgerEntryKind
  fromAccountId : Option WalletAccountId
  toAccountId : Option WalletAccountId
  amount : Money
  reference : Option String
  createdAtMs : Int64
  deriving DecidableEq, Repr

structure WalletLedger where
  accounts : BTreeMap WalletAccountId WalletAccount := ∅
  entries : BTreeMap String LedgerEntry := ∅
  requestEntries : BTreeMap String String := ∅
  deriving DecidableEq

inductive WalletError where
  | invalidAccountId
  | duplicateAccount (id : WalletAccountId)
  | accountNotFound (id : WalletAccountId)
  | accountFrozen (id : WalletAccountId)
  | invalidAmount
  | sameAccountTransfer
  | balanceOverflow
  | insufficientFunds (accountId : WalletAccountId) (currency : String)
      (availableMinor requiredMinor : Int64)
  | entryNotFound (id : String)
  | notRefundable (id : String)
  deriving DecidableEq, Repr

def validateAmount (amount : Money) : Except WalletError Unit :=
  ensure (¬ (Text.len (Text.trim amount.currency) < 3 ∨ amount.amountMinor ≤ 0)) .invalidAmount

def ledgerEntryId (n : ℕ) : String :=
  "ledger:" ++ toString n

namespace WalletLedger

def createAccount (ledger : WalletLedger) (id : WalletAccountId) (ownerId : ActorId)
    (nowMs : Int64) : Except WalletError WalletLedger := do
  ensure (¬ Text.isBlank id.value) .invalidAccountId
  ensure (¬ ledger.accounts.contains id) (.duplicateAccount id)
  return { ledger with
    accounts := ledger.accounts.insert id
      { id, ownerId, createdAtMs := nowMs, updatedAtMs := nowMs } }

def entryForRequest (ledger : WalletLedger) (requestId : String) : Option LedgerEntry :=
  ledger.requestEntries[requestId]?.bind fun entryId ↦ ledger.entries[entryId]?

def insertEntry (ledger : WalletLedger) (entry : LedgerEntry) : WalletLedger :=
  { ledger with
    requestEntries := ledger.requestEntries.insert entry.requestId entry.id
    entries := ledger.entries.insert entry.id entry }

/-- The source adds one to the number of entries with saturation, which cannot
take effect at a size a map in memory can have. -/
def nextEntryId (ledger : WalletLedger) : String :=
  ledgerEntryId (ledger.entries.size + 1)

/-- The block shared by the three balance updates: the balance starts at zero
when absent, and that default stays behind when the arithmetic overflows. -/
def adjustBalance (ledger : WalletLedger) (accountId : WalletAccountId) (currency : String)
    (op : Int64 → Option Int64) (nowMs : Int64) : WalletLedger × Except WalletError Unit :=
  match ledger.accounts[accountId]? with
  | none => (ledger, .error (.accountNotFound accountId))
  | some account =>
      let balance := account.balancesMinor[currency]?.getD 0
      match op balance with
      | none =>
          let account := { account with
            balancesMinor := account.balancesMinor.insert currency balance }
          ({ ledger with accounts := ledger.accounts.insert accountId account },
            .error .balanceOverflow)
      | some updated =>
          let account := { account with
            balancesMinor := account.balancesMinor.insert currency updated
            updatedAtMs := nowMs }
          ({ ledger with accounts := ledger.accounts.insert accountId account }, .ok ())

def checkCredit (ledger : WalletLedger) (accountId : WalletAccountId) (amount : Money) :
    Except WalletError Unit := do
  validateAmount amount
  let account ← okOr ledger.accounts[accountId]? (.accountNotFound accountId)
  ensure (¬ account.frozen) (.accountFrozen accountId)

def credit (ledger : WalletLedger) (requestId : String) (accountId : WalletAccountId)
    (amount : Money) (reference : Option String) (nowMs : Int64) :
    WalletLedger × Except WalletError LedgerEntry :=
  match ledger.entryForRequest requestId with
  | some existing => (ledger, .ok existing)
  | none =>
      match ledger.checkCredit accountId amount with
      | .error error => (ledger, .error error)
      | .ok () =>
          let currency := normalizeCurrency amount.currency
          match ledger.adjustBalance accountId currency
              (fun balance ↦ checkedAdd balance amount.amountMinor) nowMs with
          | (ledger, .error error) => (ledger, .error error)
          | (ledger, .ok ()) =>
              let entry :=
                { id := ledger.nextEntryId, requestId, kind := .credit, fromAccountId := none
                  toAccountId := some accountId
                  amount := { currency, amountMinor := amount.amountMinor }
                  reference, createdAtMs := nowMs }
              (ledger.insertEntry entry, .ok entry)

def checkTransfer (ledger : WalletLedger) (fromAccountId toAccountId : WalletAccountId)
    (amount : Money) : Except WalletError Unit := do
  validateAmount amount
  ensure (fromAccountId ≠ toAccountId) .sameAccountTransfer
  let currency := normalizeCurrency amount.currency
  let source ← okOr ledger.accounts[fromAccountId]? (.accountNotFound fromAccountId)
  let debitBalance := source.balance currency
  ensure (¬ source.frozen) (.accountFrozen fromAccountId)
  let target ← okOr ledger.accounts[toAccountId]? (.accountNotFound toAccountId)
  ensure (¬ target.frozen) (.accountFrozen toAccountId)
  ensure (¬ debitBalance < amount.amountMinor)
    (.insufficientFunds fromAccountId currency debitBalance amount.amountMinor)

def transfer (ledger : WalletLedger) (requestId : String)
    (fromAccountId toAccountId : WalletAccountId) (amount : Money) (reference : Option String)
    (nowMs : Int64) : WalletLedger × Except WalletError LedgerEntry :=
  match ledger.entryForRequest requestId with
  | some existing => (ledger, .ok existing)
  | none =>
      match ledger.checkTransfer fromAccountId toAccountId amount with
      | .error error => (ledger, .error error)
      | .ok () =>
          let currency := normalizeCurrency amount.currency
          match ledger.adjustBalance fromAccountId currency
              (fun balance ↦ checkedSub balance amount.amountMinor) nowMs with
          | (ledger, .error error) => (ledger, .error error)
          | (ledger, .ok ()) =>
              match ledger.adjustBalance toAccountId currency
                  (fun balance ↦ checkedAdd balance amount.amountMinor) nowMs with
              | (ledger, .error error) => (ledger, .error error)
              | (ledger, .ok ()) =>
                  let entry :=
                    { id := ledger.nextEntryId, requestId, kind := .transfer
                      fromAccountId := some fromAccountId, toAccountId := some toAccountId
                      amount := { currency, amountMinor := amount.amountMinor }
                      reference, createdAtMs := nowMs }
                  (ledger.insertEntry entry, .ok entry)

def refundable (ledger : WalletLedger) (originalEntryId : String) :
    Except WalletError (LedgerEntry × WalletAccountId × WalletAccountId) := do
  let original ← okOr ledger.entries[originalEntryId]? (.entryNotFound originalEntryId)
  ensure (original.kind = .transfer) (.notRefundable originalEntryId)
  let originalFrom ← okOr original.fromAccountId (.notRefundable originalEntryId)
  let originalTo ← okOr original.toAccountId (.notRefundable originalEntryId)
  return (original, originalFrom, originalTo)

def refundTransfer (ledger : WalletLedger) (requestId originalEntryId : String)
    (nowMs : Int64) : WalletLedger × Except WalletError LedgerEntry :=
  match ledger.entryForRequest requestId with
  | some existing => (ledger, .ok existing)
  | none =>
      match ledger.refundable originalEntryId with
      | .error error => (ledger, .error error)
      | .ok (original, originalFrom, originalTo) =>
          match ledger.transfer requestId originalTo originalFrom original.amount
              (some ("refund:" ++ originalEntryId)) nowMs with
          | (ledger, .error error) => (ledger, .error error)
          | (ledger, .ok entry) =>
              let entry := { entry with kind := .refund }
              ({ ledger with entries := ledger.entries.insert entry.id entry }, .ok entry)

end WalletLedger

/-! ## What a posting does to the stored balances -/

def LedgerEntry.posting (entry : LedgerEntry) :
    DoubleEntry.Posting WalletAccountId String where
  source := entry.fromAccountId
  target := entry.toAccountId
  currency := entry.amount.currency
  amount := entry.amount.amountMinor.toInt

def WalletAccount.stored (account : WalletAccount) (currency : String) : ℤ :=
  (account.balancesMinor[currency]?.getD 0).toInt

def WalletLedger.stored (ledger : WalletLedger) (accountId : WalletAccountId)
    (currency : String) : ℤ :=
  match ledger.accounts[accountId]? with
  | none => 0
  | some account => account.stored currency

@[simp] theorem normalizeCurrency_idem (currency : String) :
    normalizeCurrency (normalizeCurrency currency) = normalizeCurrency currency := by
  rw [normalizeCurrency, normalizeCurrency, Text.trim_toAsciiUppercase, Text.toAsciiUppercase_idem,
    Text.trim_trim]

theorem normalizeCurrency_eq_self {currency : String}
    (h : ∀ c ∈ currency.toList, Text.isAsciiUppercase c = true) :
    normalizeCurrency currency = currency := by
  rw [normalizeCurrency, Text.trim_eq_self fun c hc ↦ Text.isWhitespace_of_isAsciiUppercase (h c hc)]
  exact Text.toAsciiUppercase_eq_self h

theorem ledgerEntryId_injective : Function.Injective ledgerEntryId := by
  intro m n h
  exact Nat.repr_injective ((String.append_right_inj _).mp h)

namespace WalletLedger

variable {ledger ledger' : WalletLedger} {accountId : WalletAccountId} {currency : String}
  {op : Int64 → Option Int64} {nowMs : Int64}

theorem stored_of_account {account : WalletAccount}
    (h : ledger.accounts[accountId]? = some account) :
    ledger.stored accountId currency = account.stored currency := by
  rw [WalletLedger.stored, h]

theorem stored_insertAccount (ledger : WalletLedger) (accountId a : WalletAccountId)
    (account : WalletAccount) (c : String) :
    WalletLedger.stored { ledger with accounts := ledger.accounts.insert accountId account } a c =
      if accountId = a then account.stored c else ledger.stored a c := by
  by_cases h : accountId = a
  · simp [WalletLedger.stored, h]
  · simp [WalletLedger.stored, BTreeMap.get_insert, h]

/-- A balance update writes one balance of one existing account and nothing else. -/
structure Adjusted (ledger ledger' : WalletLedger) (accountId : WalletAccountId)
    (currency : String) (delta : ℤ) : Prop where
  entries : ledger'.entries = ledger.entries
  requestEntries : ledger'.requestEntries = ledger.requestEntries
  exists_account : accountId ∈ ledger.accounts
  mem_accounts : ∀ a, a ∈ ledger'.accounts ↔ a ∈ ledger.accounts
  stored : ∀ a c, ledger'.stored a c =
    ledger.stored a c + if a = accountId ∧ c = currency then delta else 0

theorem adjusted_of_adjustBalance {delta : ℤ}
    (hop : ∀ b b', op b = some b' → b'.toInt = b.toInt + delta)
    (h : ledger.adjustBalance accountId currency op nowMs = (ledger', .ok ())) :
    Adjusted ledger ledger' accountId currency delta := by
  unfold adjustBalance at h
  split at h
  · simp at h
  · rename_i account haccount
    simp only at h
    split at h
    · simp at h
    · rename_i updated hupdated
      obtain ⟨rfl, -⟩ := Prod.mk.inj h
      have hmem : accountId ∈ ledger.accounts := by
        rw [ExtTreeMap.mem_iff_isSome_getElem?, haccount]
        rfl
      refine ⟨rfl, rfl, hmem, ?_, ?_⟩
      · intro a
        simp only [ExtTreeMap.mem_insert, Std.compare_eq_iff_eq]
        refine ⟨?_, Or.inr⟩
        rintro (rfl | ha)
        · exact hmem
        · exact ha
      · intro a c
        rw [stored_insertAccount]
        by_cases ha : accountId = a
        · subst ha
          rw [if_pos rfl, stored_of_account haccount]
          simp only [WalletAccount.stored, BTreeMap.get_insert, true_and]
          by_cases hc : currency = c
          · subst hc
            simpa using hop _ _ hupdated
          · simp [hc, Ne.symm hc]
        · simp [ha, Ne.symm ha]

/-- Everything a fresh posting of `entry` does to a ledger. -/
structure Posted (ledger ledger' : WalletLedger) (entry : LedgerEntry) : Prop where
  fresh : ledger.entryForRequest entry.requestId = none
  id_eq : entry.id = ledger.nextEntryId
  amount_pos : 0 < entry.amount.amountMinor.toInt
  currency_eq : normalizeCurrency entry.amount.currency = entry.amount.currency
  credit_iff : entry.kind = .credit ↔ entry.fromAccountId = none
  exists_target : ∃ a ∈ ledger.accounts, entry.toAccountId = some a
  source_mem : ∀ a, entry.fromAccountId = some a → a ∈ ledger.accounts
  source_ne : ∀ a, entry.fromAccountId = some a → entry.toAccountId ≠ some a
  funded : ∀ a, entry.fromAccountId = some a →
    entry.amount.amountMinor.toInt ≤ ledger.stored a entry.amount.currency
  mem_accounts : ∀ a, a ∈ ledger'.accounts ↔ a ∈ ledger.accounts
  stored : ∀ a c, ledger'.stored a c = ledger.stored a c +
    (entry.posting.incoming a c - entry.posting.outgoing a c)
  entries : ledger'.entries = ledger.entries.insert entry.id entry
  requestEntries : ledger'.requestEntries = ledger.requestEntries.insert entry.requestId entry.id

/-- The two ways an idempotent operation succeeds: the request was posted before,
or a fresh entry is posted now. -/
def Answered (ledger ledger' : WalletLedger) (requestId : String) (entry : LedgerEntry)
    (posted : LedgerEntry → Prop) : Prop :=
  (ledger' = ledger ∧ ledger.entryForRequest requestId = some entry) ∨
    (Posted ledger ledger' entry ∧ entry.requestId = requestId ∧ posted entry)

variable {requestId : String} {entry : LedgerEntry} {amount : Money} {reference : Option String}

theorem validateAmount_ok (h : validateAmount amount = .ok ()) : 0 < amount.amountMinor.toInt := by
  simp only [validateAmount, ensure_eq_ok, not_or, Int64.not_le] at h
  simpa using Int64.lt_iff_toInt_lt.mp h.2

theorem checkCredit_ok (h : ledger.checkCredit accountId amount = .ok ()) :
    0 < amount.amountMinor.toInt := by
  simp only [checkCredit, bind_eq_ok] at h
  obtain ⟨_, hamount, _⟩ := h
  exact validateAmount_ok hamount

theorem adjusted_checkedAdd {amountMinor : Int64}
    (h : ledger.adjustBalance accountId currency (fun b ↦ checkedAdd b amountMinor) nowMs =
      (ledger', .ok ())) :
    Adjusted ledger ledger' accountId currency amountMinor.toInt :=
  adjusted_of_adjustBalance (fun _ _ hb ↦ checkedAdd_eq_some.mp hb) h

theorem adjusted_checkedSub {amountMinor : Int64}
    (h : ledger.adjustBalance accountId currency (fun b ↦ checkedSub b amountMinor) nowMs =
      (ledger', .ok ())) :
    Adjusted ledger ledger' accountId currency (-amountMinor.toInt) :=
  adjusted_of_adjustBalance (fun _ _ hb ↦ by rw [checkedSub_eq_some.mp hb]; ring) h

@[simp] theorem stored_insertEntry (a : WalletAccountId) (c : String) :
    (ledger.insertEntry entry).stored a c = ledger.stored a c := rfl

theorem credit_ok (h : ledger.credit requestId accountId amount reference nowMs =
      (ledger', .ok entry)) :
    Answered ledger ledger' requestId entry fun entry ↦
      entry.kind = .credit ∧ entry.fromAccountId = none ∧ entry.toAccountId = some accountId ∧
        entry.amount = ⟨normalizeCurrency amount.currency, amount.amountMinor⟩ := by
  unfold credit at h
  split at h
  · rename_i existing hexisting
    obtain ⟨rfl, hentry⟩ := Prod.mk.inj h
    cases hentry
    exact Or.inl ⟨rfl, hexisting⟩
  · rename_i hfresh
    split at h
    · simp at h
    · rename_i hcheck
      simp only at h
      split at h
      · simp at h
      · rename_i ledger₁ hadjust
        obtain ⟨rfl, hentry⟩ := Prod.mk.inj h
        cases hentry
        have hadj := adjusted_checkedAdd hadjust
        have hpos := checkCredit_ok hcheck
        refine Or.inr ⟨?_, rfl, rfl, rfl, rfl, rfl⟩
        exact
          { fresh := hfresh
            id_eq := by simp only [nextEntryId, hadj.entries]
            amount_pos := hpos
            currency_eq := normalizeCurrency_idem _
            credit_iff := by simp
            exists_target := ⟨accountId, hadj.exists_account, rfl⟩
            source_mem := by simp
            source_ne := by simp
            funded := by simp
            mem_accounts := hadj.mem_accounts
            stored := by
              intro a c
              have hstored := hadj.stored a c
              rw [stored_insertEntry, hstored]
              simp [LedgerEntry.posting, DoubleEntry.Posting.incoming,
                DoubleEntry.Posting.outgoing, eq_comm]
            entries := by simp only [insertEntry, hadj.entries]
            requestEntries := by simp only [insertEntry, hadj.requestEntries] }

variable {fromAccountId toAccountId : WalletAccountId}

theorem checkTransfer_ok (h : ledger.checkTransfer fromAccountId toAccountId amount = .ok ()) :
    0 < amount.amountMinor.toInt ∧ fromAccountId ≠ toAccountId ∧
      amount.amountMinor.toInt ≤
        ledger.stored fromAccountId (normalizeCurrency amount.currency) := by
  simp only [checkTransfer, bind_eq_ok, ensure_eq_ok, okOr_eq_ok] at h
  obtain ⟨_, hamount, _, hne, source, hsource, _, _, _, _, _, _, hfunds⟩ := h
  refine ⟨validateAmount_ok hamount, hne, ?_⟩
  rw [stored_of_account hsource]
  simpa [WalletAccount.balance, WalletAccount.stored, Int64.lt_iff_toInt_lt] using hfunds

theorem transfer_ok (h : ledger.transfer requestId fromAccountId toAccountId amount reference nowMs =
      (ledger', .ok entry)) :
    Answered ledger ledger' requestId entry fun entry ↦
      entry.kind = .transfer ∧ entry.fromAccountId = some fromAccountId ∧
        entry.toAccountId = some toAccountId ∧
        entry.amount = ⟨normalizeCurrency amount.currency, amount.amountMinor⟩ := by
  unfold transfer at h
  split at h
  · rename_i existing hexisting
    obtain ⟨rfl, hentry⟩ := Prod.mk.inj h
    cases hentry
    exact Or.inl ⟨rfl, hexisting⟩
  · rename_i hfresh
    split at h
    · simp at h
    · rename_i hcheck
      simp only at h
      split at h
      · simp at h
      · rename_i ledger₁ hdebit
        split at h
        · simp at h
        · rename_i ledger₂ hcredit
          obtain ⟨rfl, hentry⟩ := Prod.mk.inj h
          cases hentry
          have hfrom := adjusted_checkedSub hdebit
          have hto := adjusted_checkedAdd hcredit
          have hentries : ledger₂.entries = ledger.entries := hto.entries.trans hfrom.entries
          have hindex : ledger₂.requestEntries = ledger.requestEntries :=
            hto.requestEntries.trans hfrom.requestEntries
          obtain ⟨hpos, hne, hfunds⟩ := checkTransfer_ok hcheck
          refine Or.inr ⟨?_, rfl, rfl, rfl, rfl, rfl⟩
          exact
            { fresh := hfresh
              id_eq := by simp only [nextEntryId, hentries]
              amount_pos := hpos
              currency_eq := normalizeCurrency_idem _
              credit_iff := by simp
              exists_target :=
                ⟨toAccountId, (hfrom.mem_accounts _).mp hto.exists_account, rfl⟩
              source_mem := by
                rintro a ⟨⟩
                exact hfrom.exists_account
              source_ne := by
                rintro a ⟨⟩ heq
                exact hne (Option.some.inj heq).symm
              funded := by
                rintro a ⟨⟩
                exact hfunds
              mem_accounts := fun a ↦ (hto.mem_accounts a).trans (hfrom.mem_accounts a)
              stored := by
                intro a c
                have hdebited := hfrom.stored a c
                have hcredited := hto.stored a c
                rw [stored_insertEntry, hcredited, hdebited]
                simp only [LedgerEntry.posting, DoubleEntry.Posting.incoming,
                  DoubleEntry.Posting.outgoing, Option.some.injEq, @eq_comm _ a, @eq_comm _ c]
                split_ifs <;> ring
              entries := by simp only [insertEntry, hentries]
              requestEntries := by simp only [insertEntry, hindex] }

theorem refundable_ok {originalEntryId : String} {original : LedgerEntry}
    (h : ledger.refundable originalEntryId = .ok (original, fromAccountId, toAccountId)) :
    ledger.entries[originalEntryId]? = some original ∧ original.kind = .transfer ∧
      original.fromAccountId = some fromAccountId ∧ original.toAccountId = some toAccountId := by
  simp only [refundable, bind_eq_ok, ensure_eq_ok, okOr_eq_ok] at h
  obtain ⟨original', hentry, _, hkind, source, hsource, target, htarget, hresult⟩ := h
  cases hresult
  exact ⟨hentry, hkind, hsource, htarget⟩

/-- A posted entry may be relabelled in place as long as its label does not
change which side of the books it is on. -/
theorem Posted.relabel (kind : LedgerEntryKind) (h : Posted ledger ledger' entry)
    (hkind : kind = .credit ↔ entry.kind = .credit) :
    Posted ledger
      { ledger' with entries := ledger'.entries.insert entry.id { entry with kind } }
      { entry with kind } where
  fresh := h.fresh
  id_eq := h.id_eq
  amount_pos := h.amount_pos
  currency_eq := h.currency_eq
  credit_iff := hkind.trans h.credit_iff
  exists_target := h.exists_target
  source_mem := h.source_mem
  source_ne := h.source_ne
  funded := h.funded
  mem_accounts := h.mem_accounts
  stored := h.stored
  entries := by
    apply ExtTreeMap.ext_getElem?
    intro a
    rw [h.entries, BTreeMap.get_insert, BTreeMap.get_insert, BTreeMap.get_insert]
    split_ifs <;> rfl
  requestEntries := h.requestEntries

theorem refundTransfer_ok {originalEntryId : String}
    (h : ledger.refundTransfer requestId originalEntryId nowMs = (ledger', .ok entry)) :
    Answered ledger ledger' requestId entry fun entry ↦
      entry.kind = .refund ∧ ∃ original, ledger.entries[originalEntryId]? = some original ∧
        original.kind = .transfer ∧ entry.fromAccountId = original.toAccountId ∧
        entry.toAccountId = original.fromAccountId ∧
        entry.amount =
          ⟨normalizeCurrency original.amount.currency, original.amount.amountMinor⟩ := by
  unfold refundTransfer at h
  split at h
  · rename_i existing hexisting
    obtain ⟨rfl, hentry⟩ := Prod.mk.inj h
    cases hentry
    exact Or.inl ⟨rfl, hexisting⟩
  · rename_i hfresh
    split at h
    · simp at h
    · rename_i original originalFrom originalTo hrefundable
      obtain ⟨horiginal, hkind, hfrom, hto⟩ := refundable_ok hrefundable
      split at h
      · simp at h
      · rename_i ledger₁ transferred htransfer
        obtain ⟨rfl, hentry⟩ := Prod.mk.inj h
        cases hentry
        -- the request is fresh here, so the inner transfer cannot have been a replay
        rcases transfer_ok htransfer with ⟨_, hreplay⟩ | ⟨hposted, hrequest, hrest⟩
        · simp [hfresh] at hreplay
        · obtain ⟨htkind, htfrom, htto, htamount⟩ := hrest
          have hrelabel := hposted.relabel .refund (by simp [htkind])
          exact Or.inr ⟨hrelabel, hrequest, rfl, original, horiginal, hkind,
            htfrom.trans hto.symm, htto.trans hfrom.symm, htamount⟩

end WalletLedger

end Fabushi.Messaging
