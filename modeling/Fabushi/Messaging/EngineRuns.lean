import Fabushi.Messaging.Commerce

/-!
# Runs of the engine

A run feeds the engine any finite sequence of commands, accepted or refused. The
wallet of every state it reaches is well formed.
-/

namespace Fabushi.Messaging

open Std

namespace MessagingState

def next (state : MessagingState) (command : Command) : MessagingState :=
  (state.execute command).1

def afterCommands (commands : List Command) : MessagingState :=
  Runs.run next {} commands

end MessagingState

theorem Commerce.Step.wellFormed {s s' : Commerce} {command : Command} (h : s.Step command s')
    (hw : s.wallet.WellFormed) : s'.wallet.WellFormed := by
  cases h with
  | idle => exact hw
  | invoiced => exact hw
  | ordered => exact hw
  | reaffirmed => exact hw
  | paid _ _ _ moved => exact hw.moved moved
  | refunded _ _ _ _ _ moved => exact hw.moved moved
  | settled moved => exact hw.moved moved

theorem MessagingState.wellFormed_afterCommands (commands : List Command) :
    (afterCommands commands).wallet.WellFormed := by
  refine Runs.invariant (I := fun state : MessagingState ↦ state.wallet.WellFormed) ?_ ?_ commands
  · intro state command hw
    exact (state.execute_step command).wellFormed hw
  · exact WalletLedger.wellFormed_empty

/-- The books of a reachable wallet balance: per account and currency the stored
balance is what came in minus what went out and is never negative, the entries
are numbered without gaps, the request index is a bijection onto them, and per
currency the balances add up to the credits. -/
theorem wallet_balanced_of_commands (commands : List Command) :
    let ledger := (MessagingState.afterCommands commands).wallet
    (∀ (a : WalletAccountId) (c : String),
      ledger.stored a c = ledger.incoming a c - ledger.outgoing a c ∧ 0 ≤ ledger.stored a c) ∧
    (∀ id : String, id ∈ ledger.entries ↔
      ∃ k, 1 ≤ k ∧ k ≤ ledger.entries.size ∧ id = ledgerEntryId k) ∧
    (∀ (id : String) (entry : LedgerEntry), ledger.entries[id]? = some entry →
      entry.id = id ∧ ledger.requestEntries[entry.requestId]? = some id) ∧
    (∀ requestId id : String, ledger.requestEntries[requestId]? = some id → id ∈ ledger.entries) ∧
    (∀ id : String, id ∈ ledger.entries →
      ∃! requestId : String, ledger.requestEntries[requestId]? = some id) ∧
    ∀ c : String, ledger.totalStored c = ledger.credited c := by
  intro ledger
  have hw : ledger.WellFormed := MessagingState.wellFormed_afterCommands commands
  refine ⟨fun a c ↦ ⟨?_, hw.stored_nonneg a c⟩, hw.mem_entries, ?_, ?_, ?_, ?_⟩
  · rw [hw.stored_eq, WalletLedger.balance_books]
  · intro id entry hentry
    exact ⟨hw.entry_id id entry hentry, hw.indexed id entry hentry⟩
  · intro requestId id hindex
    obtain ⟨entry, hentry, _⟩ := hw.index_sound requestId id hindex
    rw [ExtTreeMap.mem_iff_isSome_getElem?, hentry]
    rfl
  · intro id hid
    exact hw.existsUnique_request hid
  · exact hw.totalStored_eq_credited

end Fabushi.Messaging
