import Fabushi.Messaging.OrderRuns

/-!
# Settlements along a run

A settlement is credited under a key joined from its provider and its event with
colons. The key lives in the request index of the ledger, which refunds write to
under names their clients choose. What a settlement does therefore depends on who
has used its key before.
-/

namespace Fabushi.Messaging

open Effects MachineInt Result Std

def Command.requestId : Command → Option String
  | .checkoutInvoice _ orderId _ _ _ => some (checkoutRequestId orderId)
  | .refundOrder _ _ requestId _ => some requestId
  | .creditWalletSettlement requestId _ _ _ _ => some requestId
  | _ => none

/-! ## The request index -/

namespace WalletLedger

variable {ledger ledger' : WalletLedger} {requestId k : String} {entry : LedgerEntry}
  {posted : LedgerEntry → Prop}

theorem Moved.mem_requestEntries (hw : ledger.WellFormed)
    (h : Moved ledger ledger' requestId entry posted) :
    k ∈ ledger'.requestEntries ↔ k = requestId ∨ k ∈ ledger.requestEntries := by
  rcases h.cases hw with ⟨hused, hunmoved, _⟩ | ⟨_, _, _, _, _, _, hindex⟩
  · rw [hunmoved.requestEntries]
    refine ⟨Or.inr, ?_⟩
    rintro (rfl | hk)
    · exact hused
    · exact hk
  · rw [hindex, ExtTreeMap.mem_insert, Std.compare_eq_iff_eq, eq_comm]

end WalletLedger

namespace Commerce

variable {s s' : Commerce} {command : Command} {k : String}

theorem Step.requestEntries_inv (hs : s.Sound) (h : s.Step command s')
    (hk : k ∈ s'.wallet.requestEntries) :
    k ∈ s.wallet.requestEntries ∨ command.requestId = some k := by
  cases h with
  | idle => exact Or.inl hk
  | invoiced => exact Or.inl hk
  | ordered => exact Or.inl hk
  | reaffirmed => exact Or.inl hk
  | paid _ _ _ moved =>
      rcases (moved.mem_requestEntries hs.wallet).mp hk with rfl | hold
      · exact Or.inr rfl
      · exact Or.inl hold
  | refunded _ _ _ _ _ moved =>
      rcases (moved.mem_requestEntries hs.wallet).mp hk with rfl | hold
      · exact Or.inr rfl
      · exact Or.inl hold
  | settled moved =>
      rcases (moved.mem_requestEntries hs.wallet).mp hk with rfl | hold
      · exact Or.inr rfl
      · exact Or.inl hold

theorem Step.requestEntries_mono (hs : s.Sound) (h : s.Step command s')
    (hk : k ∈ s.wallet.requestEntries) : k ∈ s'.wallet.requestEntries := by
  cases h with
  | idle => exact hk
  | invoiced => exact hk
  | ordered => exact hk
  | reaffirmed => exact hk
  | paid _ _ _ moved => exact (moved.mem_requestEntries hs.wallet).mpr (Or.inr hk)
  | refunded _ _ _ _ _ moved => exact (moved.mem_requestEntries hs.wallet).mpr (Or.inr hk)
  | settled moved => exact (moved.mem_requestEntries hs.wallet).mpr (Or.inr hk)

end Commerce

/-! ## Refusals -/

namespace WalletLedger

variable {ledger : WalletLedger} {ownerId : ActorId} {amount : Money} {requestId : String}
  {reference : Option String} {nowMs : Int64}

theorem exists_ensureWalletAccount (ledger : WalletLedger) (ownerId : ActorId) (nowMs : Int64) :
    ∃ ledger' account, ensureWalletAccount ledger (walletAccountId ownerId) ownerId nowMs = .ok ledger' ∧
      ledger'.accounts[walletAccountId ownerId]? = some account ∧
      (account.frozen = true → ledger.accounts[walletAccountId ownerId]? = some account) := by
  have hblank : Text.isBlank (walletAccountId ownerId).value = false := by
    refine Text.isBlank_eq_false (c := 'w') ?_ (by decide)
    simp [walletAccountId, String.toList_append]
  unfold ensureWalletAccount
  split
  · rename_i hmem
    rw [ExtTreeMap.contains_eq_isSome_getElem?, Option.isSome_iff_exists] at hmem
    obtain ⟨account, haccount⟩ := hmem
    exact ⟨ledger, account, rfl, haccount, fun _ ↦ haccount⟩
  · rename_i hnew
    obtain ⟨ledger', hcreate⟩ :
        ∃ ledger', ledger.createAccount (walletAccountId ownerId) ownerId nowMs = .ok ledger' := by
      simp only [createAccount, bind_eq_ok, ensure_eq_ok]
      exact ⟨_, (), by simp [hblank], (), hnew, rfl⟩
    obtain ⟨_, rfl⟩ := createAccount_ok hcreate
    exact ⟨_, _, hcreate, BTreeMap.get_insert_self _ _ _, by simp⟩

theorem credit_error {accountId : WalletAccountId} {account : WalletAccount} {error : WalletError}
    (haccount : ledger.accounts[accountId]? = some account) (hfrozen : account.frozen = false)
    (hamount : validateAmount amount = .ok ())
    (h : (ledger.credit requestId accountId amount reference nowMs).2 = .error error) :
    2 ^ 63 ≤ ledger.stored accountId (normalizeCurrency amount.currency) +
      amount.amountMinor.toInt := by
  have hcheck : ledger.checkCredit accountId amount = .ok () := by
    simp [checkCredit, hamount, haccount, okOr, hfrozen, ensure, bind, Except.bind]
  have hpos := validateAmount_ok hamount
  unfold credit at h
  split at h
  · cases h
  · rw [hcheck] at h
    simp only [adjustBalance, haccount] at h
    rw [stored_of_account haccount, WalletAccount.stored]
    cases hop : checkedAdd (account.balancesMinor[normalizeCurrency amount.currency]?.getD 0)
        amount.amountMinor with
    | some updated =>
        simp only [hop] at h
        cases h
    | none =>
        have hout := tryFrom_eq_none.mp hop
        have hrange := inRange_toInt
          (account.balancesMinor[normalizeCurrency amount.currency]?.getD 0)
        unfold InRange at hout hrange
        omega
end WalletLedger

theorem MessagingState.creditWalletSettlement_error {state : MessagingState} {requestId : String}
    {ownerId : ActorId} {amount : Money} {reference : Option String} {settledAtMs : Int64}
    {error : EngineError} (hamount : validateAmount amount = .ok ())
    (h : state.decideCreditWalletSettlement requestId ownerId amount reference settledAtMs =
      .error error) :
    state.actors[ownerId]? = none ∨
    (∃ account, state.wallet.accounts[walletAccountId ownerId]? = some account ∧
      account.frozen = true) ∨
    2 ^ 63 ≤ state.wallet.stored (walletAccountId ownerId) (normalizeCurrency amount.currency) +
      amount.amountMinor.toInt := by
  obtain ⟨wallet, account, hensure, haccount, hfrozen⟩ :=
    WalletLedger.exists_ensureWalletAccount state.wallet ownerId settledAtMs
  cases hactor : state.actors[ownerId]? with
  | none => exact Or.inl rfl
  | some actor =>
      right
      by_cases hopen : account.frozen = true
      · exact Or.inl ⟨account, hfrozen hopen, hopen⟩
      · right
        rw [← (WalletLedger.opened_of_ensureWalletAccount hensure).stored]
        cases hcredit : (wallet.credit requestId (walletAccountId ownerId) amount reference
            settledAtMs).2 with
        | error walletError =>
            exact WalletLedger.credit_error haccount (by simpa using hopen) hamount hcredit
        | ok entry =>
            simp [decideCreditWalletSettlement, requireActor, hactor, okOr, hensure, liftError,
              Except.mapError, bind, Except.bind, hcredit, pure, Except.pure] at h

/-! ## Accepted settlements -/

namespace SettlementEvent

def pair (event : SettlementEvent) : String × String :=
  (event.providerId, event.eventId)

theorem idempotencyKey_of_pair {event event' : SettlementEvent} (h : event.pair = event'.pair) :
    event.idempotencyKey = event'.idempotencyKey := by
  obtain ⟨hprovider, hevent⟩ := Prod.mk.inj h
  rw [idempotencyKey, idempotencyKey, hprovider, hevent]

theorem idempotencyKey_ne_checkoutRequestId (event : SettlementEvent) (orderId : String) :
    event.idempotencyKey ≠ checkoutRequestId orderId := by
  intro h
  have hhead := congrArg (fun s ↦ s.toList.head?) h
  simp [idempotencyKey, checkoutRequestId, String.toList_append] at hhead

theorem normalizeCurrency_of_validate {event : SettlementEvent} (h : event.validate = .ok ()) :
    normalizeCurrency event.amount.currency = event.amount.currency := by
  simp only [validate, ensure_eq_ok, not_or, not_not] at h
  exact normalizeCurrency_eq_self (Money.isAsciiUppercase_currency h.2.2.2.2.1)

theorem validateAmount_of_validate {event : SettlementEvent} (h : event.validate = .ok ()) :
    validateAmount event.amount = .ok () := by
  simp only [validate, ensure_eq_ok, not_or, not_not] at h
  obtain ⟨_, _, _, _, hvalid, hpos, _⟩ := h
  have htrim : Text.trim event.amount.currency = event.amount.currency :=
    Text.trim_eq_self fun c hc ↦
      Text.isWhitespace_of_isAsciiUppercase (Money.isAsciiUppercase_currency hvalid c hc)
  have hlen : Text.len event.amount.currency = 3 := by
    simp only [Money.isValid, Bool.and_eq_true, beq_iff_eq] at hvalid
    exact hvalid.1.1
  rw [validateAmount, ensure_eq_ok, htrim, hlen]
  rintro (hshort | hneg)
  · omega
  · exact hpos hneg

end SettlementEvent

namespace MessagingService

variable {S B : Type} {env : ServiceEnv} {store : S} {blobStore : Option B}
  {s : MessagingService S B} {input : ServiceInput} {event : SettlementEvent}

def Accepts (env : ServiceEnv) (s : MessagingService S B) (input : ServiceInput)
    (event : SettlementEvent) : Prop :=
  input.settlement env = some event ∧
    ∃ command ∈ input.command env, ∃ events, (s.engine.execute command).2 = .ok events

theorem settlement_inv (h : input.settlement env = some event) :
    ∃ verifier signed serverTimeMs, input = .settle verifier signed serverTimeMs ∧
      verifier.verify env.settlement signed serverTimeMs = .ok event := by
  cases input with
  | handle => cases h
  | settle verifier signed serverTimeMs =>
      refine ⟨verifier, signed, serverTimeMs, rfl, ?_⟩
      change (verifier.verify env.settlement signed serverTimeMs).toOption = some event at h
      cases hverify : verifier.verify env.settlement signed serverTimeMs with
      | error error =>
          rw [hverify] at h
          cases h
      | ok event' =>
          rw [hverify] at h
          cases h
          rfl

theorem command_of_verify {verifier : SettlementVerifier} {signed : SignedSettlement}
    {serverTimeMs : Int64} (h : verifier.verify env.settlement signed serverTimeMs = .ok event) :
    ServiceInput.command env (.settle verifier signed serverTimeMs) =
      some (settlementCommand event serverTimeMs) := by
  simp [ServiceInput.command, h, Except.toOption]

theorem command_of_settlement {verifier : SettlementVerifier} {signed : SignedSettlement}
    {serverTimeMs : Int64}
    (h : ServiceInput.settlement env (.settle verifier signed serverTimeMs) = some event) :
    ServiceInput.command env (.settle verifier signed serverTimeMs) =
      some (settlementCommand event serverTimeMs) := by
  obtain ⟨_, _, _, heq, hverify⟩ := settlement_inv h
  cases heq
  exact command_of_verify hverify

theorem accepts_of_isOk {verifier : SettlementVerifier} {signed : SignedSettlement}
    {serverTimeMs : Int64}
    (h : ServiceInput.settlement env (.settle verifier signed serverTimeMs) = some event)
    (hok : (s.engine.execute (settlementCommand event serverTimeMs)).2.isOk = true) :
    Accepts env s (.settle verifier signed serverTimeMs) event := by
  refine ⟨h, _, command_of_settlement h, ?_⟩
  cases hexecute : (s.engine.execute (settlementCommand event serverTimeMs)).2 with
  | ok events => exact ⟨events, rfl⟩
  | error error =>
      rw [hexecute] at hok
      cases hok

theorem validate_of_settlement (h : input.settlement env = some event) :
    event.validate = .ok () := by
  obtain ⟨verifier, signed, serverTimeMs, rfl, hverify⟩ := settlement_inv h
  simp only [SettlementVerifier.verify, bind_eq_ok] at hverify
  obtain ⟨_, _, _, _, _, _, _, _, _, _, event', _, _, hvalid, hpure⟩ := hverify
  cases hpure
  exact hvalid

theorem refused_inv (hevent : input.settlement env = some event)
    (h : ¬ Accepts env s input event) :
    s.engine.actors[event.actorId]? = none ∨
    (∃ account, s.engine.wallet.accounts[walletAccountId event.actorId]? = some account ∧
      account.frozen = true) ∨
    2 ^ 63 ≤ s.engine.wallet.stored (walletAccountId event.actorId) event.amount.currency +
      event.amount.amountMinor.toInt := by
  have hvalid := validate_of_settlement hevent
  obtain ⟨verifier, signed, serverTimeMs, rfl, hverify⟩ := settlement_inv hevent
  cases hdecide : s.engine.decide (settlementCommand event serverTimeMs) with
  | ok events =>
      refine absurd ⟨hevent, _, command_of_verify hverify, events, ?_⟩ h
      rw [MessagingState.execute, hdecide]
  | error error =>
      rw [← SettlementEvent.normalizeCurrency_of_validate hvalid]
      exact MessagingState.creditWalletSettlement_error
        (SettlementEvent.validateAmount_of_validate hvalid) hdecide

variable [MessagingStateStore S]

theorem accepts_of_result {verifier : SettlementVerifier} {signed : SignedSettlement}
    {serverTimeMs : Int64} {entry : LedgerEntry}
    (hverify : verifier.verify env.settlement signed serverTimeMs = .ok event)
    (h : result (applySignedSettlement env verifier signed serverTimeMs) s = .ok entry) :
    Accepts env s (.settle verifier signed serverTimeMs) event := by
  refine ⟨by simp [ServiceInput.settlement, hverify, Except.toOption], _,
    command_of_verify hverify, ?_⟩
  cases hexecute : (s.engine.execute (settlementCommand event serverTimeMs)).2 with
  | ok events => exact ⟨events, rfl⟩
  | error error =>
      have hresult : result (executeCommand (settlementCommand event serverTimeMs)) s =
          .error (.engine error) := by
        simp [executeCommand, hexecute, Except.mapError]
      rw [applySignedSettlement, hverify] at h
      have hfailed : result (creditWalletFromSettlement event.idempotencyKey event.actorId
          event.amount (some event.providerReference) serverTimeMs) s = .error (.engine error) :=
        result_bind_error hresult
      cases hfailed.symm.trans h

variable [BlobStore B]

theorem Accepts.moved (h : Accepts env s input event) :
    ∃ entry, s.engine.wallet.Moved (next env s input).engine.wallet event.idempotencyKey entry
      (Commerce.IsSettlement event.actorId event.amount) := by
  obtain ⟨hevent, command, hcommand, events, hexecute⟩ := h
  obtain ⟨verifier, signed, serverTimeMs, rfl, hverify⟩ := settlement_inv hevent
  obtain rfl := Option.some.inj ((command_of_verify hverify).symm.trans hcommand)
  have hnext : (next env s (.settle verifier signed serverTimeMs)).engine.wallet =
      (s.engine.execute (settlementCommand event serverTimeMs)).1.wallet :=
    congrArg Commerce.wallet (commerce_applySignedSettlement hverify s)
  rw [hnext]
  simp only [MessagingState.execute] at hexecute ⊢
  cases hdecide : s.engine.decide (settlementCommand event serverTimeMs) with
  | error error =>
      rw [hdecide] at hexecute
      cases hexecute
  | ok events' =>
      obtain ⟨wallet, entry, rfl, moved⟩ := MessagingState.moved_of_creditWalletSettlement hdecide
      exact ⟨entry, moved⟩

theorem sameCommerce_of_not_accepts (hevent : input.settlement env = some event)
    (h : ¬ Accepts env s input event) : SameCommerce s (next env s input) := by
  obtain ⟨verifier, signed, serverTimeMs, rfl, hverify⟩ := settlement_inv hevent
  rw [SameCommerce, next, commerce_applySignedSettlement hverify, MessagingState.execute]
  cases hdecide : s.engine.decide (settlementCommand event serverTimeMs) with
  | error error => rfl
  | ok events =>
      refine absurd ⟨hevent, _, command_of_verify hverify, events, ?_⟩ h
      rw [MessagingState.execute, hdecide]

/-! ## Who uses a key -/

def SettledBefore (env : ServiceEnv) (store : S) (blobStore : Option B)
    (front : List ServiceInput) (pair : String × String) : Prop :=
  ∃ xs input ys event, front = xs ++ input :: ys ∧
    Accepts env (Runs.run (next env) (empty store blobStore) xs) input event ∧ event.pair = pair

/-- The inputs that may put `k` into the request index. -/
def Occupied (env : ServiceEnv) (store : S) (blobStore : Option B) (front : List ServiceInput)
    (k : String) : Prop :=
  (∃ orderId, k = checkoutRequestId orderId) ∨
  (∃ input ∈ front, ∃ refund ∈ (input.command env).bind Command.refund, refund.2.2 = k) ∨
  ∃ xs input ys event, front = xs ++ input :: ys ∧
    Accepts env (Runs.run (next env) (empty store blobStore) xs) input event ∧
    event.idempotencyKey = k

theorem Occupied.append {front : List ServiceInput} {k : String}
    (h : Occupied env store blobStore front k) (back : List ServiceInput) :
    Occupied env store blobStore (front ++ back) k := by
  rcases h with hcheckout | ⟨input, hinput, hrefund⟩ | ⟨xs, input, ys, event, rfl, haccepts, hkey⟩
  · exact Or.inl hcheckout
  · exact Or.inr (Or.inl ⟨input, List.mem_append_left back hinput, hrefund⟩)
  · exact Or.inr (Or.inr ⟨xs, input, ys ++ back, event, by simp, haccepts, hkey⟩)

theorem requestId_of_handle {request : ClientEnvelope} {serverTimeMs : Int64} {command : Command}
    {k : String} (hcommand : ServiceInput.command env (.handle request serverTimeMs) = some command)
    (hrequest : command.requestId = some k) :
    (∃ orderId, k = checkoutRequestId orderId) ∨
      ∃ refund ∈ (ServiceInput.command env (.handle request serverTimeMs)).bind Command.refund,
        refund.2.2 = k := by
  obtain ⟨_, _, client⟩ := request
  cases client
  case createInvoice =>
    cases hcommand
    cases hrequest
  case checkoutInvoice =>
    cases hcommand
    cases hrequest
    exact Or.inl ⟨_, rfl⟩
  case refundOrder =>
    cases hcommand
    cases hrequest
    exact Or.inr ⟨_, rfl, rfl⟩
  all_goals cases hcommand

theorem occupied_of_mem (front : List ServiceInput) {k : String}
    (hk : k ∈ (Runs.run (next env) (empty store blobStore) front).commerce.wallet.requestEntries) :
    Occupied env store blobStore front k := by
  induction front using List.reverseRecOn with
  | nil => simp [empty, commerce, MessagingState.commerce] at hk
  | append_singleton front input ih =>
      rw [Runs.run_append] at hk
      change k ∈ (next env (Runs.run (next env) (empty store blobStore) front)
        input).commerce.wallet.requestEntries at hk
      rcases next_commerce env (Runs.run (next env) (empty store blobStore) front) input with
        hsame | ⟨command, hcommand, _, hstep⟩
      · rw [hsame] at hk
        exact (ih hk).append [input]
      · rcases hstep.requestEntries_inv (sound_run front) hk with hold | hrequest
        · exact (ih hold).append [input]
        · cases input with
          | handle request serverTimeMs =>
              rcases requestId_of_handle hcommand hrequest with hcheckout | hrefund
              · exact Or.inl hcheckout
              · exact Or.inr (Or.inl ⟨_, by simp, hrefund⟩)
          | settle verifier signed serverTimeMs =>
              obtain ⟨event, hverified, rfl⟩ := Option.map_eq_some_iff.mp hcommand
              have hevent : ServiceInput.settlement env (.settle verifier signed serverTimeMs) =
                some event := hverified
              by_cases haccepts : Accepts env (Runs.run (next env) (empty store blobStore) front)
                  (.settle verifier signed serverTimeMs) event
              · exact Or.inr (Or.inr ⟨front, _, [], event, rfl, haccepts, Option.some.inj hrequest⟩)
              · rw [sameCommerce_of_not_accepts hevent haccepts] at hk
                exact (ih hk).append _

theorem requestEntries_run {k : String} (hs : s.commerce.Sound)
    (hk : k ∈ s.commerce.wallet.requestEntries) (inputs : List ServiceInput) :
    k ∈ (Runs.run (next env) s inputs).commerce.wallet.requestEntries := by
  refine (Runs.invariant (I := fun s : MessagingService S B ↦
    s.commerce.Sound ∧ k ∈ s.commerce.wallet.requestEntries) ?_ ⟨hs, hk⟩ inputs).2
  rintro t input ⟨htSound, htk⟩
  refine ⟨sound_next htSound input, ?_⟩
  rcases next_commerce env t input with hsame | ⟨command, _, _, hstep⟩
  · rw [hsame]
    exact htk
  · exact hstep.requestEntries_mono htSound htk

theorem mem_of_settledBefore {front : List ServiceInput} {pair : String × String}
    (h : SettledBefore env store blobStore front pair) (hpair : event.pair = pair) :
    event.idempotencyKey ∈
      (Runs.run (next env) (empty store blobStore) front).commerce.wallet.requestEntries := by
  obtain ⟨xs, input, ys, event', rfl, haccepts, rfl⟩ := h
  obtain ⟨entry, moved⟩ := haccepts.moved
  rw [Runs.run_append, Runs.run_cons, SettlementEvent.idempotencyKey_of_pair hpair]
  refine requestEntries_run (sound_next (sound_run xs) input) ?_ ys
  exact (moved.mem_requestEntries (sound_run xs).wallet).mpr (Or.inl rfl)

/-- The earlier input leaves the key of the later input's event alone: it delivers no
other event with the same key, and refunds under another request. -/
def KeyFree (env : ServiceEnv) (earlier later : ServiceInput) : Prop :=
  ∀ event ∈ later.settlement env,
    (∀ event' ∈ earlier.settlement env, event'.idempotencyKey = event.idempotencyKey →
      event'.pair = event.pair) ∧
    ∀ refund ∈ (earlier.command env).bind Command.refund, refund.2.2 ≠ event.idempotencyKey

instance (env : ServiceEnv) (earlier later : ServiceInput) :
    Decidable (KeyFree env earlier later) :=
  inferInstanceAs (Decidable (∀ event ∈ later.settlement env, _))

theorem settledBefore_of_mem {front : List ServiceInput}
    (hfree : ∀ earlier ∈ front, KeyFree env earlier input)
    (hevent : input.settlement env = some event)
    (hk : event.idempotencyKey ∈
      (Runs.run (next env) (empty store blobStore) front).commerce.wallet.requestEntries) :
    SettledBefore env store blobStore front event.pair := by
  rcases occupied_of_mem front hk with ⟨orderId, hcheckout⟩ | ⟨earlier, hmem, refund, hrefund, hkey⟩ |
    ⟨xs, earlier, ys, event', rfl, haccepts, hkey⟩
  · exact absurd hcheckout (event.idempotencyKey_ne_checkoutRequestId orderId)
  · exact absurd hkey ((hfree earlier hmem event hevent).2 refund hrefund)
  · have hpair := (hfree earlier (by simp) event hevent).1 event' haccepts.1 hkey
    exact ⟨xs, earlier, ys, event', rfl, haccepts, hpair⟩

theorem credited_of_accepts {front : List ServiceInput}
    (hfree : ∀ earlier ∈ front, KeyFree env earlier input)
    (haccepts : Accepts env (Runs.run (next env) (empty store blobStore) front) input event)
    (hfirst : ¬ SettledBefore env store blobStore front event.pair) (a : WalletAccountId)
    (c : String) :
    (next env (Runs.run (next env) (empty store blobStore) front) input).engine.wallet.stored a c =
      (Runs.run (next env) (empty store blobStore) front).engine.wallet.stored a c +
        if a = walletAccountId event.actorId ∧ c = event.amount.currency then
          event.amount.amountMinor.toInt else 0 := by
  obtain ⟨entry, moved⟩ := haccepts.moved
  rcases moved.cases (sound_run front).wallet with ⟨hused, _⟩ | ⟨_, happended, hposted, _⟩
  · exact absurd (settledBefore_of_mem hfree haccepts.1 hused) hfirst
  · obtain ⟨_, hfrom, hto, hamount⟩ := hposted
    have hcurrency := SettlementEvent.normalizeCurrency_of_validate (validate_of_settlement haccepts.1)
    have hin : entry.posting.incoming a c =
        if a = walletAccountId event.actorId ∧ c = event.amount.currency then
          event.amount.amountMinor.toInt else 0 := by
      simp [DoubleEntry.Posting.incoming, LedgerEntry.posting, hto, hamount, hcurrency, eq_comm]
    have hout : entry.posting.outgoing a c = 0 := by
      simp [DoubleEntry.Posting.outgoing, LedgerEntry.posting, hfrom]
    rw [happended.stored, hin, hout, sub_zero]
    rfl

theorem stored_of_settledBefore {front : List ServiceInput}
    (hevent : input.settlement env = some event)
    (hbefore : SettledBefore env store blobStore front event.pair) (a : WalletAccountId)
    (c : String) :
    (next env (Runs.run (next env) (empty store blobStore) front) input).engine.wallet.stored a c =
      (Runs.run (next env) (empty store blobStore) front).engine.wallet.stored a c := by
  by_cases haccepts : Accepts env (Runs.run (next env) (empty store blobStore) front) input event
  · obtain ⟨entry, moved⟩ := haccepts.moved
    rcases moved.cases (sound_run front).wallet with ⟨_, hunmoved, _⟩ | ⟨hunused, _⟩
    · exact hunmoved.stored a c
    · exact absurd (mem_of_settledBefore hbefore rfl) hunused
  · exact stored_of_sameCommerce (sameCommerce_of_not_accepts hevent haccepts) a c

/-- In every run in which no earlier input uses the key of a later settlement event
(no other event with the same joined key, no refund under it), an accepted event
that was not accepted before credits its actor exactly its amount, a replay credits
nothing, and a verified event is refused only for an unknown actor, a frozen account
or an overflow of the balance. -/
theorem settlement_exact (env : ServiceEnv) (store : S) (blobStore : Option B)
    (inputs : List ServiceInput) (hfree : inputs.Pairwise (KeyFree env))
    (front back : List ServiceInput) (input : ServiceInput)
    (hinputs : inputs = front ++ input :: back) (event : SettlementEvent)
    (hevent : input.settlement env = some event) (s : MessagingService S B)
    (hs : s = Runs.run (next env) (empty store blobStore) front) :
    (Accepts env s input event → ¬ SettledBefore env store blobStore front event.pair →
      ∀ (a : WalletAccountId) (c : String), (next env s input).engine.wallet.stored a c =
        s.engine.wallet.stored a c +
          if a = walletAccountId event.actorId ∧ c = event.amount.currency then
            event.amount.amountMinor.toInt else 0) ∧
    (SettledBefore env store blobStore front event.pair →
      ∀ (a : WalletAccountId) (c : String),
        (next env s input).engine.wallet.stored a c = s.engine.wallet.stored a c) ∧
    (¬ Accepts env s input event →
      (∀ (a : WalletAccountId) (c : String),
        (next env s input).engine.wallet.stored a c = s.engine.wallet.stored a c) ∧
      (s.engine.actors[event.actorId]? = none ∨
        (∃ account, s.engine.wallet.accounts[walletAccountId event.actorId]? = some account ∧
          account.frozen = true) ∨
        2 ^ 63 ≤ s.engine.wallet.stored (walletAccountId event.actorId) event.amount.currency +
          event.amount.amountMinor.toInt)) ∧
    ∀ verifier signed serverTimeMs entry, input = .settle verifier signed serverTimeMs →
      result (applySignedSettlement env verifier signed serverTimeMs) s = .ok entry →
      Accepts env s input event := by
  subst hinputs hs
  have hfront : ∀ earlier ∈ front, KeyFree env earlier input := fun earlier hmem ↦
    (List.pairwise_append.mp hfree).2.2 earlier hmem input List.mem_cons_self
  refine ⟨credited_of_accepts hfront, stored_of_settledBefore hevent, ?_, ?_⟩
  · intro hrefused
    exact ⟨stored_of_sameCommerce (sameCommerce_of_not_accepts hevent hrefused),
      refused_inv hevent hrefused⟩
  · rintro verifier signed serverTimeMs entry rfl hresult
    obtain ⟨_, _, _, heq, hverify⟩ := settlement_inv hevent
    cases heq
    exact accepts_of_result hverify hresult

open Market in
theorem settlement_exact_deposit :
    (next (world [deposit]) (reached [deposit] [profile buyer])
        (settle deposit)).engine.wallet.stored (walletAccountId buyer) "USD" =
      (reached [deposit] [profile buyer]).engine.wallet.stored (walletAccountId buyer) "USD" +
        500 := by
  have hevent : (settle deposit).settlement (world [deposit]) = some deposit.event := by
    decide +kernel
  have hok : ((reached [deposit] [profile buyer]).engine.execute
      (settlementCommand deposit.event 1000)).2.isOk = true := by decide +kernel
  have hbefore : ∀ input ∈ [profile buyer], input.settlement (world [deposit]) = none := by
    decide +kernel
  have hexact := settlement_exact (world [deposit]) ({} : MemoryStateStore) (none : Option Empty)
    [profile buyer, settle deposit] (by decide +kernel) [profile buyer] [] (settle deposit) rfl
    deposit.event hevent (reached [deposit] [profile buyer]) rfl
  have hfirst : ¬ SettledBefore (world [deposit]) ({} : MemoryStateStore) (none : Option Empty)
      [profile buyer] deposit.event.pair := by
    rintro ⟨xs, input, ys, event, hfront, haccepts, _⟩
    have hnone := hbefore input (by simp [hfront])
    rw [haccepts.1] at hnone
    cases hnone
  have hstored := hexact.1 (accepts_of_isOk hevent hok) hfirst (walletAccountId buyer) "USD"
  rw [if_pos ⟨rfl, rfl⟩] at hstored
  exact hstored

end MessagingService

namespace Market

def outer : Delivery where
  signed :=
    { timestampMs := 1000
      payloadBase64 :=
        "eyJwcm92aWRlcklkIjoiYmFuazphIiwiZXZlbnRJZCI6ImIiLCJhY3RvcklkIjoiYnV5ZXIiLCJhbW91bnQi" ++
        "OnsiY3VycmVuY3kiOiJVU0QiLCJhbW91bnRNaW5vciI6NTAwfSwicHJvdmlkZXJSZWZlcmVuY2UiOiJyMSIs" ++
        "Im9jY3VycmVkQXRNcyI6MX0"
      signatureHex := "d44e8f14960f64efa505bcc5fd92cdb72df92b2cb87ccb3b0dcf2f6da6423a80" }
  json :=
    "\x7b\"providerId\":\"bank:a\",\"eventId\":\"b\",\"actorId\":\"buyer\",\"amount\":" ++
    "\x7b\"currency\":\"USD\",\"amountMinor\":500\x7d,\"providerReference\":\"r1\"," ++
    "\"occurredAtMs\":1\x7d"
  event :=
    { providerId := "bank:a", eventId := "b", actorId := buyer, amount := ⟨"USD", 500⟩
      providerReference := "r1", occurredAtMs := 1 }

def inner : Delivery where
  signed :=
    { timestampMs := 1000
      payloadBase64 :=
        "eyJwcm92aWRlcklkIjoiYmFuayIsImV2ZW50SWQiOiJhOmIiLCJhY3RvcklkIjoiYnV5ZXIiLCJhbW91bnQi" ++
        "OnsiY3VycmVuY3kiOiJVU0QiLCJhbW91bnRNaW5vciI6NTAwfSwicHJvdmlkZXJSZWZlcmVuY2UiOiJyMiIs" ++
        "Im9jY3VycmVkQXRNcyI6MX0"
      signatureHex := "b56b6007a689bc89512695bd6dd004994d0d736c697e85aec28847948a24dc04" }
  json :=
    "\x7b\"providerId\":\"bank\",\"eventId\":\"a:b\",\"actorId\":\"buyer\",\"amount\":" ++
    "\x7b\"currency\":\"USD\",\"amountMinor\":500\x7d,\"providerReference\":\"r2\"," ++
    "\"occurredAtMs\":1\x7d"
  event :=
    { providerId := "bank", eventId := "a:b", actorId := buyer, amount := ⟨"USD", 500⟩
      providerReference := "r2", occurredAtMs := 1 }

end Market

open Market in
/-- Two events whose names join to the same key: the second is answered with the
entry of the first and credits nothing. -/
theorem MessagingService.settlement_suppressed :
    ¬ ∀ (front : List ServiceInput) (input : ServiceInput) (event : SettlementEvent)
      (s : MessagingService MemoryStateStore Empty),
      s = Runs.run (next (world [outer, inner])) (empty {} none) front →
      Accepts (world [outer, inner]) s input event →
      ¬ SettledBefore (world [outer, inner]) ({} : MemoryStateStore) (none : Option Empty) front
        event.pair →
      (next (world [outer, inner]) s input).engine.wallet.stored
          (walletAccountId event.actorId) event.amount.currency =
        s.engine.wallet.stored (walletAccountId event.actorId) event.amount.currency +
          event.amount.amountMinor.toInt := by
  intro hclaim
  have hevent : (settle inner).settlement (world [outer, inner]) = some inner.event := by
    decide +kernel
  have hother : ∀ input ∈ [profile buyer, settle outer],
      ∀ event ∈ input.settlement (world [outer, inner]), event.pair ≠ inner.event.pair := by
    decide +kernel
  obtain ⟨hok, hsame⟩ : ((reached [outer, inner] [profile buyer, settle outer]).engine.execute
        (settlementCommand inner.event 1000)).2.isOk = true ∧
      (next (world [outer, inner]) (reached [outer, inner] [profile buyer, settle outer])
          (settle inner)).engine.wallet.stored (walletAccountId inner.event.actorId)
          inner.event.amount.currency ≠
        (reached [outer, inner] [profile buyer, settle outer]).engine.wallet.stored
          (walletAccountId inner.event.actorId) inner.event.amount.currency +
            inner.event.amount.amountMinor.toInt := by
    decide +kernel
  refine hsame (hclaim [profile buyer, settle outer] (settle inner) inner.event
    (reached [outer, inner] [profile buyer, settle outer]) rfl (accepts_of_isOk hevent hok) ?_)
  rintro ⟨xs, input, ys, event, hfront, haccepts, hpair⟩
  exact hother input (by simp [hfront]) event haccepts.1 hpair

end Fabushi.Messaging
