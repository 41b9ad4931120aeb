import Fabushi.Messaging.Wallet

/-!
# What a failing wallet operation leaves behind

A credit, a transfer or a refund makes most of its checks before it writes. The
one check made after a write is the overflow of the balance a transfer pays
into: the source has been debited by then, and the operation fails without
giving the money back.
-/

namespace Fabushi.Messaging

open MachineInt Result Std

inductive WalletCall where
  | credit (requestId : String) (accountId : WalletAccountId) (amount : Money)
      (reference : Option String) (nowMs : Int64)
  | transfer (requestId : String) (fromAccountId toAccountId : WalletAccountId) (amount : Money)
      (reference : Option String) (nowMs : Int64)
  | refundTransfer (requestId originalEntryId : String) (nowMs : Int64)

namespace WalletLedger

def call (ledger : WalletLedger) : WalletCall → WalletLedger × Except WalletError LedgerEntry
  | .credit requestId accountId amount reference nowMs =>
      ledger.credit requestId accountId amount reference nowMs
  | .transfer requestId fromAccountId toAccountId amount reference nowMs =>
      ledger.transfer requestId fromAccountId toAccountId amount reference nowMs
  | .refundTransfer requestId originalEntryId nowMs =>
      ledger.refundTransfer requestId originalEntryId nowMs

structure SameBooks (ledger ledger' : WalletLedger) : Prop where
  balances : ∀ id : WalletAccountId, ledger'.accounts[id]?.map WalletAccount.balancesMinor =
    ledger.accounts[id]?.map WalletAccount.balancesMinor
  entries : ledger'.entries = ledger.entries
  requestEntries : ledger'.requestEntries = ledger.requestEntries
  nextEntryId : ledger'.nextEntryId = ledger.nextEntryId

theorem SameBooks.refl (ledger : WalletLedger) : SameBooks ledger ledger :=
  ⟨fun _ ↦ rfl, rfl, rfl, rfl⟩

theorem SameBooks.stored {ledger ledger' : WalletLedger} (h : SameBooks ledger ledger')
    (a : WalletAccountId) (c : String) : ledger'.stored a c = ledger.stored a c := by
  have hbalances := h.balances a
  unfold WalletLedger.stored
  cases h' : ledger'.accounts[a]? <;> cases h₀ : ledger.accounts[a]? <;>
    simp_all [WalletAccount.stored]

def TransferOverflows (ledger : WalletLedger) (requestId : String)
    (fromAccountId toAccountId : WalletAccountId) (amount : Money) : Prop :=
  ledger.entryForRequest requestId = none ∧
    ledger.checkTransfer fromAccountId toAccountId amount = .ok () ∧
      Int64.maxValue.toInt <
        ledger.stored toAccountId (normalizeCurrency amount.currency) + amount.amountMinor.toInt

def CallOverflows (ledger : WalletLedger) : WalletCall → Prop
  | .credit .. => False
  | .transfer requestId fromAccountId toAccountId amount _ _ =>
      ledger.TransferOverflows requestId fromAccountId toAccountId amount
  | .refundTransfer requestId originalEntryId _ =>
      ∃ original originalFrom originalTo,
        ledger.refundable originalEntryId = .ok (original, originalFrom, originalTo) ∧
          ledger.TransferOverflows requestId originalTo originalFrom original.amount

variable {ledger : WalletLedger} {requestId : String} {amount : Money} {reference : Option String}
  {accountId fromAccountId toAccountId : WalletAccountId} {account : WalletAccount}
  {currency : String} {op : Int64 → Option Int64} {nowMs : Int64}

/-- A refused update finds a balance that is there already, so that the default
it writes for an absent one never stays behind. -/
theorem adjustBalance_refused (haccount : ledger.accounts[accountId]? = some account)
    (hop : op (account.balancesMinor[currency]?.getD 0) = none) (hzero : op 0 ≠ none) :
    ledger.adjustBalance accountId currency op nowMs = (ledger, .error .balanceOverflow) := by
  have hkeep : account.balancesMinor.insert currency
      (account.balancesMinor[currency]?.getD 0) = account.balancesMinor := by
    cases hbalance : account.balancesMinor[currency]? with
    | none =>
      rw [hbalance] at hop
      exact absurd hop hzero
    | some balance => exact BTreeMap.insert_of_get hbalance
  simp only [adjustBalance, haccount, hop, hkeep, BTreeMap.insert_of_get haccount]

theorem adjustBalance_accepted {updated : Int64}
    (haccount : ledger.accounts[accountId]? = some account)
    (hop : op (account.balancesMinor[currency]?.getD 0) = some updated) :
    ∃ ledger', ledger.adjustBalance accountId currency op nowMs = (ledger', .ok ()) := by
  simp only [adjustBalance, haccount, hop]
  exact ⟨_, rfl⟩

theorem checkedAdd_zero_ne_none (b : Int64) : checkedAdd 0 b ≠ none := by
  have h : checkedAdd 0 b = some b := by simp [checkedAdd_eq_some]
  rw [h]
  simp

theorem checkedAdd_eq_none_of_pos {a b : Int64} (hb : 0 < b.toInt) :
    checkedAdd a b = none ↔ Int64.maxValue.toInt < a.toInt + b.toInt := by
  have ha := inRange_toInt a
  have hmax : Int64.maxValue.toInt = 2 ^ 63 - 1 := by decide
  rw [checkedAdd, tryFrom_eq_none, hmax]
  unfold InRange at *
  omega

theorem checkCredit_account (h : ledger.checkCredit accountId amount = .ok ()) :
    ∃ account, ledger.accounts[accountId]? = some account := by
  simp only [checkCredit, bind_eq_ok, okOr_eq_ok] at h
  obtain ⟨_, _, account, haccount, _⟩ := h
  exact ⟨account, haccount⟩

theorem credit_refused_keeps {error : WalletError}
    (h : (ledger.credit requestId accountId amount reference nowMs).2 = .error error) :
    (ledger.credit requestId accountId amount reference nowMs).1 = ledger := by
  unfold credit at h ⊢
  cases hfresh : ledger.entryForRequest requestId with
  | some existing => simp [hfresh] at h
  | none =>
    cases hcheck : ledger.checkCredit accountId amount with
    | error refusal => rfl
    | ok _ =>
      obtain ⟨account, haccount⟩ := checkCredit_account hcheck
      cases hop : checkedAdd
          (account.balancesMinor[normalizeCurrency amount.currency]?.getD 0)
          amount.amountMinor with
      | none =>
        have hadjust := @adjustBalance_refused ledger accountId account
          (normalizeCurrency amount.currency) (fun b ↦ checkedAdd b amount.amountMinor) nowMs
          haccount hop (checkedAdd_zero_ne_none _)
        simp only [hadjust]
      | some updated =>
        obtain ⟨ledger', hadjust⟩ := @adjustBalance_accepted ledger accountId account
          (normalizeCurrency amount.currency) (fun b ↦ checkedAdd b amount.amountMinor) nowMs
          updated haccount hop
        simp [hfresh, hcheck, hadjust] at h

theorem checkTransfer_accounts
    (h : ledger.checkTransfer fromAccountId toAccountId amount = .ok ()) :
    (∃ source, ledger.accounts[fromAccountId]? = some source) ∧
      ∃ target, ledger.accounts[toAccountId]? = some target := by
  simp only [checkTransfer, bind_eq_ok, okOr_eq_ok] at h
  obtain ⟨_, _, _, _, source, hsource, _, _, target, htarget, _⟩ := h
  exact ⟨⟨source, hsource⟩, target, htarget⟩

theorem transfer_debits (hcheck : ledger.checkTransfer fromAccountId toAccountId amount = .ok ()) :
    ∃ debited, ledger.adjustBalance fromAccountId (normalizeCurrency amount.currency)
      (fun balance ↦ checkedSub balance amount.amountMinor) nowMs = (debited, .ok ()) := by
  obtain ⟨⟨source, hsource⟩, -⟩ := checkTransfer_accounts hcheck
  obtain ⟨hpos, -, hfunds⟩ := checkTransfer_ok hcheck
  rw [stored_of_account hsource, WalletAccount.stored] at hfunds
  have hrange := @inRange_of_le _
    (source.balancesMinor[normalizeCurrency amount.currency]?.getD 0) (sub_nonneg.mpr hfunds)
    (by omega)
  exact adjustBalance_accepted hsource (checkedSub_eq_some.mpr (toInt_ofInt hrange))

theorem transfer_of_check (hfresh : ledger.entryForRequest requestId = none)
    (hcheck : ledger.checkTransfer fromAccountId toAccountId amount = .ok ()) :
    (Int64.maxValue.toInt < ledger.stored toAccountId (normalizeCurrency amount.currency) +
        amount.amountMinor.toInt ∧
      ∃ debited, ledger.transfer requestId fromAccountId toAccountId amount reference nowMs =
          (debited, .error .balanceOverflow) ∧
        Adjusted ledger debited fromAccountId (normalizeCurrency amount.currency)
          (-amount.amountMinor.toInt)) ∨
    (ledger.stored toAccountId (normalizeCurrency amount.currency) + amount.amountMinor.toInt ≤
        Int64.maxValue.toInt ∧
      ∃ ledger' entry, ledger.transfer requestId fromAccountId toAccountId amount reference nowMs =
        (ledger', .ok entry)) := by
  obtain ⟨hpos, hne, -⟩ := checkTransfer_ok hcheck
  obtain ⟨debited, hdebit⟩ := @transfer_debits _ _ _ _ nowMs hcheck
  have hadjusted := adjusted_checkedSub hdebit
  -- the debit is of another account, so the target still has the balance the condition names
  have hstored := hadjusted.stored toAccountId (normalizeCurrency amount.currency)
  simp only [Ne.symm hne, false_and, if_false, add_zero] at hstored
  obtain ⟨target, htarget⟩ : ∃ target, debited.accounts[toAccountId]? = some target := by
    obtain ⟨-, target, htarget⟩ := checkTransfer_accounts hcheck
    have hmem := (hadjusted.mem_accounts toAccountId).mpr
      (ExtTreeMap.mem_iff_isSome_getElem?.mpr (by rw [htarget]; rfl))
    exact Option.isSome_iff_exists.mp (ExtTreeMap.mem_iff_isSome_getElem?.mp hmem)
  rw [stored_of_account htarget, WalletAccount.stored] at hstored
  rw [← hstored]
  unfold transfer
  cases hop : checkedAdd (target.balancesMinor[normalizeCurrency amount.currency]?.getD 0)
      amount.amountMinor with
  | none =>
    have hcredit := @adjustBalance_refused debited toAccountId target
      (normalizeCurrency amount.currency) (fun b ↦ checkedAdd b amount.amountMinor) nowMs
      htarget hop (checkedAdd_zero_ne_none _)
    refine Or.inl ⟨(checkedAdd_eq_none_of_pos hpos).mp hop, debited, ?_, hadjusted⟩
    simp only [hfresh, hcheck, hdebit, hcredit]
  | some updated =>
    obtain ⟨credited, hcredit⟩ := @adjustBalance_accepted debited toAccountId target
      (normalizeCurrency amount.currency) (fun b ↦ checkedAdd b amount.amountMinor) nowMs
      updated htarget hop
    refine Or.inr ⟨?_, ?_⟩
    · rw [← Int.not_lt, ← checkedAdd_eq_none_of_pos hpos, hop]
      simp
    · simp only [hfresh, hcheck, hdebit, hcredit]
      exact ⟨_, _, rfl⟩

theorem transfer_error {error : WalletError}
    (h : (ledger.transfer requestId fromAccountId toAccountId amount reference nowMs).2 =
      .error error) :
    (¬ ledger.TransferOverflows requestId fromAccountId toAccountId amount ∧
      (ledger.transfer requestId fromAccountId toAccountId amount reference nowMs).1 = ledger) ∨
    (ledger.TransferOverflows requestId fromAccountId toAccountId amount ∧
      ¬ SameBooks ledger
        (ledger.transfer requestId fromAccountId toAccountId amount reference nowMs).1) := by
  cases hfresh : ledger.entryForRequest requestId with
  | some existing => simp [transfer, hfresh] at h
  | none =>
    cases hcheck : ledger.checkTransfer fromAccountId toAccountId amount with
    | error refusal =>
      refine Or.inl ⟨?_, by simp only [transfer, hfresh, hcheck]⟩
      rintro ⟨-, hok, -⟩
      simp [hcheck] at hok
    | ok _ =>
      rcases @transfer_of_check _ _ _ reference _ _ nowMs hfresh hcheck with
        ⟨hover, debited, hresult, hadjusted⟩ | ⟨-, ledger', entry, hresult⟩
      · refine Or.inr ⟨⟨hfresh, hcheck, hover⟩, fun hsame ↦ ?_⟩
        rw [hresult] at hsame
        have hstored := hadjusted.stored fromAccountId (normalizeCurrency amount.currency)
        rw [hsame.stored] at hstored
        have hpos := (checkTransfer_ok hcheck).1
        simp only [and_self, if_true] at hstored
        omega
      · simp [hresult] at h

theorem transfer_fails (h : ledger.TransferOverflows requestId fromAccountId toAccountId amount) :
    (ledger.transfer requestId fromAccountId toAccountId amount reference nowMs).2 =
      .error .balanceOverflow := by
  obtain ⟨hfresh, hcheck, hover⟩ := h
  rcases @transfer_of_check _ _ _ reference _ _ nowMs hfresh hcheck with
    ⟨-, debited, hresult, -⟩ | ⟨hle, -⟩
  · rw [hresult]
  · exact absurd hover (Int.not_lt.mpr hle)

section Refund

variable {originalEntryId : String} {original : LedgerEntry} {originalFrom originalTo : WalletAccountId}

theorem refundTransfer_of_error {error : WalletError}
    (hfresh : ledger.entryForRequest requestId = none)
    (h : ledger.refundable originalEntryId = .ok (original, originalFrom, originalTo))
    (herror : (ledger.transfer requestId originalTo originalFrom original.amount
      (some ("refund:" ++ originalEntryId)) nowMs).2 = .error error) :
    ledger.refundTransfer requestId originalEntryId nowMs =
      ((ledger.transfer requestId originalTo originalFrom original.amount
        (some ("refund:" ++ originalEntryId)) nowMs).1, .error error) := by
  rcases htransfer : ledger.transfer requestId originalTo originalFrom original.amount
    (some ("refund:" ++ originalEntryId)) nowMs with ⟨ledger', result⟩
  rw [htransfer] at herror
  cases herror
  simp only [refundTransfer, hfresh, h, htransfer]

theorem refundTransfer_of_ok {entry : LedgerEntry}
    (hfresh : ledger.entryForRequest requestId = none)
    (h : ledger.refundable originalEntryId = .ok (original, originalFrom, originalTo))
    (hok : (ledger.transfer requestId originalTo originalFrom original.amount
      (some ("refund:" ++ originalEntryId)) nowMs).2 = .ok entry) :
    (ledger.refundTransfer requestId originalEntryId nowMs).2 =
      .ok { entry with kind := .refund } := by
  rcases htransfer : ledger.transfer requestId originalTo originalFrom original.amount
    (some ("refund:" ++ originalEntryId)) nowMs with ⟨ledger', result⟩
  rw [htransfer] at hok
  cases hok
  simp only [refundTransfer, hfresh, h, htransfer]

end Refund

/-- A call that fails changes nothing, except the one whose payment overflows
the balance it is paid into. -/
theorem failed_call_keeps_books_iff (ledger : WalletLedger) (c : WalletCall) :
    ((∃ error, (ledger.call c).2 = .error error) → SameBooks ledger (ledger.call c).1) ↔
      ¬ ledger.CallOverflows c := by
  cases c with
  | credit requestId accountId amount reference nowMs =>
    refine iff_of_true (fun ⟨error, h⟩ ↦ ?_) not_false
    rw [call, credit_refused_keeps h]
    exact SameBooks.refl ledger
  | transfer requestId fromAccountId toAccountId amount reference nowMs =>
    constructor
    · intro hkept hover
      have herror := @transfer_fails _ _ _ reference _ _ nowMs hover
      rcases transfer_error herror with ⟨hnot, -⟩ | ⟨-, hchanged⟩
      · exact hnot hover
      · exact hchanged (hkept ⟨_, herror⟩)
    · rintro hnot ⟨error, herror⟩
      rcases transfer_error herror with ⟨-, hsame⟩ | ⟨hover, -⟩
      · rw [call, hsame]
        exact SameBooks.refl ledger
      · exact absurd hover hnot
  | refundTransfer requestId originalEntryId nowMs =>
    constructor
    · rintro hkept ⟨original, originalFrom, originalTo, hrefundable, hover⟩
      have herror := @transfer_fails _ _ _ (some ("refund:" ++ originalEntryId)) _ _ nowMs hover
      have hresult := refundTransfer_of_error hover.1 hrefundable herror
      have hsame := hkept ⟨_, by rw [call, hresult]⟩
      rw [call, hresult] at hsame
      rcases transfer_error herror with ⟨hnot, -⟩ | ⟨-, hchanged⟩
      · exact hnot hover
      · exact hchanged hsame
    · rintro hnot ⟨error, herror⟩
      rw [call] at herror ⊢
      cases hfresh : ledger.entryForRequest requestId with
      | some existing => simp [refundTransfer, hfresh] at herror
      | none =>
        cases hrefundable : ledger.refundable originalEntryId with
        | error refusal =>
          simp only [refundTransfer, hfresh, hrefundable]
          exact SameBooks.refl ledger
        | ok found =>
          obtain ⟨original, originalFrom, originalTo⟩ := found
          cases htransfer : (ledger.transfer requestId originalTo originalFrom original.amount
              (some ("refund:" ++ originalEntryId)) nowMs).2 with
          | ok entry => simp [refundTransfer_of_ok hfresh hrefundable htransfer] at herror
          | error failure =>
            rw [refundTransfer_of_error hfresh hrefundable htransfer]
            rcases transfer_error htransfer with ⟨-, hsame⟩ | ⟨hover, -⟩
            · rw [hsame]
              exact SameBooks.refl ledger
            · exact absurd ⟨original, originalFrom, originalTo, hrefundable, hover⟩ hnot

def fullTarget : WalletLedger :=
  let opened := do
    let ledger ← createAccount {} ⟨"a"⟩ ⟨"o"⟩ 0
    ledger.createAccount ⟨"b"⟩ ⟨"o"⟩ 0
  let ledger := opened.toOption.getD {}
  let ledger := (ledger.credit "r1" ⟨"b"⟩ ⟨"USD", Int64.maxValue⟩ none 0).1
  (ledger.credit "r2" ⟨"a"⟩ ⟨"USD", 1⟩ none 0).1

/-- The transfer of that unit fails, and the unit is gone. -/
theorem fullTarget_loses_a_unit :
    (fullTarget.call (.transfer "r3" ⟨"a"⟩ ⟨"b"⟩ ⟨"USD", 1⟩ none 0)).2 =
        .error .balanceOverflow ∧
      ¬ SameBooks fullTarget
        (fullTarget.call (.transfer "r3" ⟨"a"⟩ ⟨"b"⟩ ⟨"USD", 1⟩ none 0)).1 := by
  refine ⟨by decide +kernel, fun h ↦ ?_⟩
  have hstored := h.stored ⟨"a"⟩ "USD"
  revert hstored
  decide +kernel

end WalletLedger

end Fabushi.Messaging
