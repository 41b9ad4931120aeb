import Fabushi.Messaging.Wallet

/-!
# The invariant of the wallet ledger

A ledger is well formed when its balances are those of its books, its entries
are numbered without gaps and its request index is a bijection onto them. Every
operation that succeeds keeps a well-formed ledger well formed, because it is
either a replay or a posting.
-/

namespace Fabushi.Messaging

open Std

namespace WalletLedger

def books (ledger : WalletLedger) : List (DoubleEntry.Posting WalletAccountId String) :=
  ledger.entries.toList.map fun p ↦ p.2.posting

def incoming (ledger : WalletLedger) (accountId : WalletAccountId) (currency : String) : ℤ :=
  BTreeMap.sum ledger.entries fun _ entry ↦
    if entry.toAccountId = some accountId ∧ entry.amount.currency = currency then
      entry.amount.amountMinor.toInt
    else 0

def outgoing (ledger : WalletLedger) (accountId : WalletAccountId) (currency : String) : ℤ :=
  BTreeMap.sum ledger.entries fun _ entry ↦
    if entry.fromAccountId = some accountId ∧ entry.amount.currency = currency then
      entry.amount.amountMinor.toInt
    else 0

def credited (ledger : WalletLedger) (currency : String) : ℤ :=
  BTreeMap.sum ledger.entries fun _ entry ↦
    if entry.kind = .credit ∧ entry.amount.currency = currency then
      entry.amount.amountMinor.toInt
    else 0

def totalStored (ledger : WalletLedger) (currency : String) : ℤ :=
  BTreeMap.sum ledger.accounts fun _ account ↦ account.stored currency

def accountIds (ledger : WalletLedger) : Finset WalletAccountId :=
  ledger.accounts.keys.toFinset

structure WellFormed (ledger : WalletLedger) : Prop where
  mem_entries : ∀ id : String, id ∈ ledger.entries ↔
    ∃ k, 1 ≤ k ∧ k ≤ ledger.entries.size ∧ id = ledgerEntryId k
  entry_id : ∀ (id : String) (entry : LedgerEntry), ledger.entries[id]? = some entry → entry.id = id
  indexed : ∀ (id : String) (entry : LedgerEntry), ledger.entries[id]? = some entry →
    ledger.requestEntries[entry.requestId]? = some id
  index_sound : ∀ requestId id : String, ledger.requestEntries[requestId]? = some id →
    ∃ entry : LedgerEntry, ledger.entries[id]? = some entry ∧ entry.requestId = requestId
  currency_eq : ∀ (id : String) (entry : LedgerEntry), ledger.entries[id]? = some entry →
    normalizeCurrency entry.amount.currency = entry.amount.currency
  credit_iff : ∀ (id : String) (entry : LedgerEntry), ledger.entries[id]? = some entry →
    (entry.kind = .credit ↔ entry.fromAccountId = none)
  within : ∀ (id : String) (entry : LedgerEntry), ledger.entries[id]? = some entry →
    entry.posting.Within ledger.accountIds
  stored_eq : ∀ a c, ledger.stored a c = DoubleEntry.balance ledger.books a c
  stored_nonneg : ∀ a c, 0 ≤ ledger.stored a c

theorem mem_accountIds {ledger : WalletLedger} {a : WalletAccountId} :
    a ∈ ledger.accountIds ↔ a ∈ ledger.accounts := by
  simp [accountIds]

theorem wellFormed_empty : WellFormed {} where
  mem_entries := by
    intro id
    constructor
    · intro h
      simp at h
    · rintro ⟨k, hpos, hle, _⟩
      have hsize : k ≤ (∅ : BTreeMap String LedgerEntry).size := hle
      rw [ExtTreeMap.size_empty] at hsize
      omega
  entry_id := by simp
  indexed := by simp
  index_sound := by simp
  currency_eq := by simp
  credit_iff := by simp
  within := by simp
  stored_eq := by
    intro a c
    have hlist : (∅ : BTreeMap String LedgerEntry).toList = [] :=
      ExtTreeMap.toList_eq_nil_iff.mpr rfl
    simp [WalletLedger.stored, books, hlist, DoubleEntry.balance]
  stored_nonneg := by simp [WalletLedger.stored]

variable {ledger ledger' : WalletLedger} {entry : LedgerEntry} {requestId : String}

/-! ## Postings preserve the invariant -/

theorem WellFormed.requestEntries_of_none (hw : ledger.WellFormed)
    (h : ledger.entryForRequest requestId = none) : ledger.requestEntries[requestId]? = none := by
  cases hid : ledger.requestEntries[requestId]? with
  | none => rfl
  | some id =>
      obtain ⟨entry, hentry, _⟩ := hw.index_sound requestId id hid
      simp [entryForRequest, hid, hentry] at h

theorem WellFormed.entry_of_request (hw : ledger.WellFormed)
    (h : ledger.entryForRequest requestId = some entry) :
    ledger.entries[entry.id]? = some entry ∧ entry.requestId = requestId := by
  simp only [entryForRequest, Option.bind_eq_some_iff] at h
  obtain ⟨id, hid, hentry⟩ := h
  obtain ⟨entry', hentry', hrequest⟩ := hw.index_sound requestId id hid
  obtain rfl : entry = entry' := Option.some.inj (hentry.symm.trans hentry')
  rw [hw.entry_id id entry hentry]
  exact ⟨hentry, hrequest⟩

theorem WellFormed.get_nextEntryId (hw : ledger.WellFormed) :
    ledger.entries[ledger.nextEntryId]? = none := by
  rw [BTreeMap.get_eq_none_iff, hw.mem_entries]
  rintro ⟨k, _, hle, hk⟩
  have := ledgerEntryId_injective hk
  omega

theorem WellFormed.get_posted (hw : ledger.WellFormed) (hp : Posted ledger ledger' entry) :
    ledger.entries[entry.id]? = none := by
  rw [hp.id_eq]
  exact hw.get_nextEntryId

theorem Posted.get_cases (hp : Posted ledger ledger' entry) {id : String} {e : LedgerEntry}
    (h : ledger'.entries[id]? = some e) :
    (id = entry.id ∧ e = entry) ∨ ledger.entries[id]? = some e := by
  rw [hp.entries] at h
  exact BTreeMap.get_insert_cases h

theorem Posted.size (hw : ledger.WellFormed) (hp : Posted ledger ledger' entry) :
    ledger'.entries.size = ledger.entries.size + 1 := by
  rw [hp.entries, BTreeMap.size_insert_of_none (hw.get_posted hp)]

theorem Posted.books_perm (hw : ledger.WellFormed) (hp : Posted ledger ledger' entry) :
    ledger'.books.Perm (entry.posting :: ledger.books) := by
  rw [books, hp.entries]
  exact (BTreeMap.toList_insert_perm_of_none (hw.get_posted hp) entry).map fun p ↦ p.2.posting

theorem Posted.accountIds (hp : Posted ledger ledger' entry) :
    ledger'.accountIds = ledger.accountIds := by
  ext a
  rw [mem_accountIds, mem_accountIds, hp.mem_accounts]

theorem Posted.within (hp : Posted ledger ledger' entry) :
    entry.posting.Within ledger'.accountIds := by
  rw [hp.accountIds]
  obtain ⟨t, ht, hto⟩ := hp.exists_target
  exact ⟨⟨t, mem_accountIds.mpr ht, hto⟩, fun a ha ↦ mem_accountIds.mpr (hp.source_mem a ha)⟩

theorem Posted.stored_nonneg (hw : ledger.WellFormed) (hp : Posted ledger ledger' entry)
    (a : WalletAccountId) (c : String) : 0 ≤ ledger'.stored a c := by
  rw [hp.stored]
  have hbefore := hw.stored_nonneg a c
  have hpos := hp.amount_pos
  have hin : 0 ≤ entry.posting.incoming a c := by
    unfold DoubleEntry.Posting.incoming
    split
    · exact hpos.le
    · exact le_rfl
  unfold DoubleEntry.Posting.outgoing
  split
  · rename_i hout
    -- the only account that loses money was checked to have enough of it
    have hfunded := hp.funded a hout.1
    obtain rfl : entry.amount.currency = c := hout.2
    have : entry.posting.amount = entry.amount.amountMinor.toInt := rfl
    omega
  · omega

theorem WellFormed.posted (hw : ledger.WellFormed) (hp : Posted ledger ledger' entry) :
    ledger'.WellFormed where
  mem_entries := by
    intro id
    rw [hp.entries, ExtTreeMap.mem_insert, Std.compare_eq_iff_eq, hw.mem_entries,
      ← hp.entries, hp.size hw]
    have hid : entry.id = ledgerEntryId (ledger.entries.size + 1) := hp.id_eq
    constructor
    · rintro (rfl | ⟨k, hk, hle, rfl⟩)
      · exact ⟨ledger.entries.size + 1, by omega, le_rfl, hid⟩
      · exact ⟨k, hk, by omega, rfl⟩
    · rintro ⟨k, hk, hle, rfl⟩
      by_cases hlast : k = ledger.entries.size + 1
      · exact Or.inl (hlast ▸ hid)
      · exact Or.inr ⟨k, hk, by omega, rfl⟩
  entry_id := by
    intro id e he
    rcases hp.get_cases he with ⟨rfl, rfl⟩ | hold
    · rfl
    · exact hw.entry_id id e hold
  indexed := by
    intro id e he
    rw [hp.requestEntries, BTreeMap.get_insert]
    rcases hp.get_cases he with ⟨rfl, rfl⟩ | hold
    · rw [if_pos rfl]
    · have hindexed := hw.indexed id e hold
      rw [if_neg, hindexed]
      intro hrequest
      rw [← hrequest, hw.requestEntries_of_none hp.fresh] at hindexed
      simp at hindexed
  index_sound := by
    intro r id hr
    rw [hp.requestEntries, BTreeMap.get_insert] at hr
    rw [hp.entries]
    split at hr
    · rename_i hrequest
      obtain rfl := Option.some.inj hr
      exact ⟨entry, BTreeMap.get_insert_self _ _ _, hrequest⟩
    · obtain ⟨e, he, hrequest⟩ := hw.index_sound r id hr
      refine ⟨e, ?_, hrequest⟩
      rw [BTreeMap.get_insert_ne _ _ ?_, he]
      rintro rfl
      rw [hw.get_posted hp] at he
      simp at he
  currency_eq := by
    intro id e he
    rcases hp.get_cases he with ⟨rfl, rfl⟩ | hold
    · exact hp.currency_eq
    · exact hw.currency_eq id e hold
  credit_iff := by
    intro id e he
    rcases hp.get_cases he with ⟨rfl, rfl⟩ | hold
    · exact hp.credit_iff
    · exact hw.credit_iff id e hold
  within := by
    intro id e he
    rcases hp.get_cases he with ⟨rfl, rfl⟩ | hold
    · exact hp.within
    · rw [hp.accountIds]
      exact hw.within id e hold
  stored_eq := by
    intro a c
    rw [hp.stored, hw.stored_eq, DoubleEntry.balance_perm (hp.books_perm hw),
      DoubleEntry.balance_cons]
  stored_nonneg := hp.stored_nonneg hw

theorem WellFormed.answered {posted : LedgerEntry → Prop} (hw : ledger.WellFormed)
    (h : Answered ledger ledger' requestId entry posted) : ledger'.WellFormed := by
  rcases h with ⟨rfl, _⟩ | ⟨hp, _⟩
  · exact hw
  · exact hw.posted hp

/-! ## Opening an account -/

theorem createAccount_ok {id : WalletAccountId} {ownerId : ActorId} {nowMs : Int64}
    (h : ledger.createAccount id ownerId nowMs = .ok ledger') :
    id ∉ ledger.accounts ∧ ledger' = { ledger with
      accounts := ledger.accounts.insert id
        { id, ownerId, createdAtMs := nowMs, updatedAtMs := nowMs } } := by
  simp only [createAccount, Result.bind_eq_ok, Result.ensure_eq_ok] at h
  obtain ⟨_, _, _, hnew, hresult⟩ := h
  refine ⟨by simpa using hnew, ?_⟩
  cases hresult
  rfl

theorem stored_createAccount {id : WalletAccountId} {ownerId : ActorId} {nowMs : Int64}
    (h : ledger.createAccount id ownerId nowMs = .ok ledger') (a : WalletAccountId)
    (c : String) : ledger'.stored a c = ledger.stored a c := by
  obtain ⟨hnew, rfl⟩ := createAccount_ok h
  rw [stored_insertAccount]
  split
  · rename_i ha
    subst ha
    have hnone : ledger.accounts[id]? = none := BTreeMap.get_eq_none_iff.mpr hnew
    simp [WalletAccount.stored, WalletLedger.stored, hnone]
  · rfl

theorem WellFormed.createAccount (hw : ledger.WellFormed) {id : WalletAccountId}
    {ownerId : ActorId} {nowMs : Int64}
    (h : ledger.createAccount id ownerId nowMs = .ok ledger') : ledger'.WellFormed := by
  have hstored := stored_createAccount h
  obtain ⟨_, rfl⟩ := createAccount_ok h
  exact
    { mem_entries := hw.mem_entries
      entry_id := hw.entry_id
      indexed := hw.indexed
      index_sound := hw.index_sound
      currency_eq := hw.currency_eq
      credit_iff := hw.credit_iff
      within := by
        intro entryId e he
        obtain ⟨⟨t, ht, hto⟩, hsource⟩ := hw.within entryId e he
        have hmono : ∀ a ∈ ledger.accountIds, a ∈ accountIds { ledger with
            accounts := ledger.accounts.insert id
              { id, ownerId, createdAtMs := nowMs, updatedAtMs := nowMs } } := by
          intro a ha
          rw [mem_accountIds] at ha ⊢
          exact ExtTreeMap.mem_insert.mpr (Or.inr ha)
        exact ⟨⟨t, hmono t ht, hto⟩, fun a ha ↦ hmono a (hsource a ha)⟩
      stored_eq := by
        intro a c
        rw [hstored]
        exact hw.stored_eq a c
      stored_nonneg := by
        intro a c
        rw [hstored]
        exact hw.stored_nonneg a c }

/-! ## What the invariant says about the totals -/

theorem balance_books (a : WalletAccountId) (c : String) :
    DoubleEntry.balance ledger.books a c = ledger.incoming a c - ledger.outgoing a c := by
  simp [DoubleEntry.balance, books, incoming, outgoing, BTreeMap.sum, Function.comp_def,
    LedgerEntry.posting, DoubleEntry.Posting.incoming, DoubleEntry.Posting.outgoing]

theorem WellFormed.issued_books (hw : ledger.WellFormed) (c : String) :
    DoubleEntry.issued ledger.books c = ledger.credited c := by
  have hsum : DoubleEntry.issued ledger.books c =
      BTreeMap.sum ledger.entries fun _ entry ↦ entry.posting.issued c := by
    simp [DoubleEntry.issued, books, BTreeMap.sum, Function.comp_def]
  rw [hsum]
  apply BTreeMap.sum_congr
  intro id e he
  exact if_congr (and_congr_left' (hw.credit_iff id e he).symm) rfl rfl

theorem totalStored_eq_sum (c : String) :
    ledger.totalStored c = ∑ a ∈ ledger.accountIds, ledger.stored a c := by
  rw [totalStored, BTreeMap.sum_eq_finset_sum]
  apply Finset.sum_congr rfl
  intro a _
  cases h : ledger.accounts[a]? with
  | none => simp [WalletLedger.stored, h]
  | some account => simp [WalletLedger.stored, h]

theorem WellFormed.totalStored_eq_credited (hw : ledger.WellFormed) (c : String) :
    ledger.totalStored c = ledger.credited c := by
  have hwithin : ∀ p ∈ ledger.books, p.Within ledger.accountIds := by
    intro p hp
    obtain ⟨⟨id, e⟩, hmem, rfl⟩ := List.mem_map.mp hp
    exact hw.within id e (ExtTreeMap.mem_toList_iff_getElem?_eq_some.mp hmem)
  calc
    ledger.totalStored c = ∑ a ∈ ledger.accountIds, ledger.stored a c := totalStored_eq_sum c
    _ = ∑ a ∈ ledger.accountIds, DoubleEntry.balance ledger.books a c :=
        Finset.sum_congr rfl fun a _ ↦ hw.stored_eq a c
    _ = DoubleEntry.issued ledger.books c := DoubleEntry.sum_balance hwithin c
    _ = ledger.credited c := hw.issued_books c

theorem WellFormed.existsUnique_request (hw : ledger.WellFormed) {id : String}
    (hid : id ∈ ledger.entries) : ∃! requestId : String, ledger.requestEntries[requestId]? = some id := by
  obtain ⟨e, he⟩ := Option.isSome_iff_exists.mp (ExtTreeMap.mem_iff_isSome_getElem?.mp hid)
  refine ⟨e.requestId, hw.indexed id e he, ?_⟩
  intro r hr
  obtain ⟨e', he', hrequest⟩ := hw.index_sound r id hr
  rw [← hrequest, Option.some.inj (he.symm.trans he')]

end WalletLedger

end Fabushi.Messaging
