import Fabushi.Messaging.ServiceFrame
import Fabushi.Messaging.MoneySteps
import Fabushi.Messaging.Store

/-!
# Runs of the service and who they debit

A run of the service feeds it client requests and signed settlements in any
order, starting from the empty state. Its invariants are those of the commerce
steps its inputs can cause.
-/

namespace Fabushi.Messaging

open Effects Std

inductive ServiceInput where
  | handle (request : ClientEnvelope) (serverTimeMs : Int64)
  | settle (verifier : SettlementVerifier) (signed : SignedSettlement) (serverTimeMs : Int64)

namespace ServiceInput

def actorId : ServiceInput → Option ActorId
  | .handle request _ => some request.context.actorId
  | .settle .. => none

def settlement (env : ServiceEnv) : ServiceInput → Option SettlementEvent
  | .handle .. => none
  | .settle verifier signed serverTimeMs =>
      (verifier.verify env.settlement signed serverTimeMs).toOption

def command (env : ServiceEnv) : ServiceInput → Option Command
  | .handle request serverTimeMs =>
      request.command.commerceCommand request.context.actorId serverTimeMs
  | .settle verifier signed serverTimeMs =>
      (verifier.verify env.settlement signed serverTimeMs).toOption.map fun event ↦
        MessagingService.settlementCommand event serverTimeMs

/-- Every command the input causes meets `P` at the commerce state it arrives in. -/
def Meets {S B : Type} (env : ServiceEnv) (P : Commerce → Command → Prop)
    (s : MessagingService S B) (input : ServiceInput) : Prop :=
  ∀ command ∈ input.command env, P s.commerce command

instance {S B : Type} {env : ServiceEnv} {P : Commerce → Command → Prop}
    [∀ s command, Decidable (P s command)] (s : MessagingService S B) (input : ServiceInput) :
    Decidable (input.Meets env P s) :=
  inferInstanceAs (Decidable (∀ command ∈ input.command env, P s.commerce command))

end ServiceInput

variable {S B : Type}

namespace MessagingService

def empty (store : S) (blobStore : Option B) : MessagingService S B :=
  { store, blobStore }

theorem sound_start {store : S} {blobStore : Option B} :
    (empty store blobStore).commerce.Sound :=
  Commerce.sound_empty

theorem sellersKept_start {store : S} {blobStore : Option B} :
    (empty store blobStore).commerce.SellersKept := by
  intro id order invoice entry horder
  simp [empty, commerce, MessagingState.commerce] at horder

variable [MessagingStateStore S] [BlobStore B]

def next (env : ServiceEnv) (s : MessagingService S B) : ServiceInput → MessagingService S B
  | .handle request serverTimeMs => after (handle env request serverTimeMs) s
  | .settle verifier signed serverTimeMs =>
      after (applySignedSettlement env verifier signed serverTimeMs) s

/-- The service takes `input` from state `s` somewhere in a run from the empty state. -/
def Takes (env : ServiceEnv) (store : S) (blobStore : Option B) (inputs : List ServiceInput)
    (s : MessagingService S B) (input : ServiceInput) : Prop :=
  Runs.Takes (next env) (empty store blobStore) inputs s input

def Admits (env : ServiceEnv) (store : S) (blobStore : Option B)
    (P : Commerce → Command → Prop) (inputs : List ServiceInput) : Prop :=
  Runs.Along (next env) (ServiceInput.Meets env P) (empty store blobStore) inputs

instance (env : ServiceEnv) (store : S) (blobStore : Option B) (P : Commerce → Command → Prop)
    [∀ s command, Decidable (P s command)] (inputs : List ServiceInput) :
    Decidable (Admits env store blobStore P inputs) :=
  inferInstanceAs (Decidable (Runs.Along _ _ _ _))

def Owns (input : ServiceInput) (command : Command) : Prop :=
  ∀ actorId, input.actorId = some actorId → ActsFor actorId command

theorem next_commerce (env : ServiceEnv) (s : MessagingService S B) (input : ServiceInput) :
    SameCommerce s (next env s input) ∨
      ∃ command, input.command env = some command ∧ Owns input command ∧
        CommerceStep command s (next env s input) := by
  cases input with
  | handle request serverTimeMs =>
      rcases handle_commerce env request serverTimeMs s with hsame | ⟨command, hcommand, hacts, hstep⟩
      · exact Or.inl hsame
      · refine Or.inr ⟨command, hcommand, ?_, hstep⟩
        rintro _ ⟨⟩
        exact hacts
  | settle verifier signed serverTimeMs =>
      cases hverify : verifier.verify env.settlement signed serverTimeMs with
      | error error =>
          left
          rw [next, after_applySignedSettlement_of_error hverify]
          rfl
      | ok event =>
          refine Or.inr ⟨settlementCommand event serverTimeMs, ?_, ?_, ?_⟩
          · simp [ServiceInput.command, hverify, Except.toOption]
          · rintro _ ⟨⟩
          · rw [CommerceStep, next, commerce_applySignedSettlement hverify]
            exact s.engine.execute_step _

theorem isServiceCommand_of_command {env : ServiceEnv} {input : ServiceInput} {command : Command}
    (h : input.command env = some command) : Commerce.IsServiceCommand command := by
  cases input with
  | handle request serverTimeMs =>
      obtain ⟨_, _, client⟩ := request
      cases client
      case createInvoice => cases h; trivial
      case checkoutInvoice => cases h; trivial
      case refundOrder => cases h; trivial
      all_goals cases h
  | settle verifier signed serverTimeMs =>
      obtain ⟨event, _, rfl⟩ := Option.map_eq_some_iff.mp h
      trivial

variable {env : ServiceEnv} {store : S} {blobStore : Option B} {inputs : List ServiceInput}
  {s : MessagingService S B} {input : ServiceInput}

theorem sound_next (hs : s.commerce.Sound) (input : ServiceInput) :
    (next env s input).commerce.Sound := by
  rcases next_commerce env s input with hsame | ⟨command, hcommand, _, hstep⟩
  · rw [hsame]
    exact hs
  · exact hs.step hstep (isServiceCommand_of_command hcommand)

theorem sound_run (inputs : List ServiceInput) :
    (Runs.run (next env) (empty store blobStore) inputs).commerce.Sound :=
  Runs.invariant (I := fun s : MessagingService S B ↦ s.commerce.Sound)
    (fun _ input hs ↦ sound_next hs input) sound_start inputs

theorem Takes.sound (ht : Takes env store blobStore inputs s input) : s.commerce.Sound := by
  obtain ⟨xs, ys, rfl, rfl⟩ := ht
  exact sound_run xs

theorem sellersKept_next (hs : s.commerce.Sound) (hk : s.commerce.SellersKept)
    (hkeep : input.Meets env Commerce.KeepsSeller s) :
    (next env s input).commerce.SellersKept := by
  rcases next_commerce env s input with hsame | ⟨command, hcommand, _, hstep⟩
  · rw [hsame]
    exact hk
  · exact hk.step hs hstep (isServiceCommand_of_command hcommand) (hkeep command hcommand)

/-- In a run that never replaces an invoice with a paid order by another seller's,
the stored invoices name the sellers that were paid. -/
theorem Takes.sellersKept (ht : Takes env store blobStore inputs s input)
    (hrun : Admits env store blobStore Commerce.KeepsSeller inputs) :
    s.commerce.SellersKept := by
  have hinv := Runs.invariant_takes
    (I := fun s : MessagingService S B ↦ s.commerce.Sound ∧ s.commerce.SellersKept)
    (fun _ input hI hmeets ↦ ⟨sound_next hI.1 input, sellersKept_next hI.1 hI.2 hmeets⟩)
    ⟨sound_start, sellersKept_start⟩ hrun ht
  exact hinv.2

/-- In every run that never replaces an invoice with a paid order by another
seller's, a step that lowers the balance of an actor's account is a request
authenticated as that actor. -/
theorem debit_authenticated (env : ServiceEnv) (store : S) (blobStore : Option B)
    (inputs : List ServiceInput)
    (hrun : Admits env store blobStore Commerce.KeepsSeller inputs)
    (s : MessagingService S B) (input : ServiceInput)
    (ht : Takes env store blobStore inputs s input) (actorId : ActorId) (currency : String)
    (hdebit : (next env s input).engine.wallet.stored (walletAccountId actorId) currency <
      s.engine.wallet.stored (walletAccountId actorId) currency) :
    ∃ request serverTimeMs, input = .handle request serverTimeMs ∧
      request.context.actorId = actorId := by
  rcases next_commerce env s input with hsame | ⟨command, hcommand, howns, hstep⟩
  · exact absurd (stored_of_sameCommerce hsame _ _) hdebit.ne
  · obtain ⟨payer, hpayer, haccount⟩ := hstep.payer_of_debit ht.sound (ht.sellersKept hrun) hdebit
    obtain rfl := walletAccountId_injective haccount
    cases input with
    | handle request serverTimeMs =>
        refine ⟨request, serverTimeMs, rfl, ?_⟩
        have hacts := howns _ rfl
        cases command <;> cases hpayer
        · exact hacts.symm
        · exact hacts.symm
    | settle verifier signed serverTimeMs =>
        obtain ⟨event, _, rfl⟩ := Option.map_eq_some_iff.mp hcommand
        cases hpayer

end MessagingService

/-! ## A small market

Three actors, one of which has a deposit. The codec knows the signed deliveries it
is given: their genuine MACs under the verifier's secret, their payloads and events. -/

namespace Market

def seller : ActorId := ⟨"seller"⟩
def buyer : ActorId := ⟨"buyer"⟩
def rival : ActorId := ⟨"rival"⟩

structure Delivery where
  signed : SignedSettlement
  json : String
  event : SettlementEvent

def codec (deliveries : List Delivery) : SettlementCodec where
  verifyMac _ bytes signature := deliveries.any fun delivery ↦
    SettlementVerifier.signedBytes delivery.signed == bytes &&
      (decodeHex delivery.signed.signatureHex).toOption == some signature
  decodeBase64Url bytes :=
    (deliveries.find? fun delivery ↦ Text.bytes delivery.signed.payloadBase64 == bytes).map
      fun delivery ↦ Text.bytes delivery.json
  parseEvent bytes :=
    match deliveries.find? fun delivery ↦ Text.bytes delivery.json == bytes with
    | some delivery => .ok delivery.event
    | none => .error "expected value"

def world (deliveries : List Delivery) : ServiceEnv where
  sha256 _ := []
  decodeBase64 _ := .ok []
  tokenize _ := ∅
  settlement := codec deliveries

def verifier : SettlementVerifier where
  secret := Text.bytes "0123456789abcdef0123456789abcdef"
  clockSkewMs := 300000
  secret_long := by decide +kernel
  clockSkew_pos := by decide
  clockSkew_le := by decide

def deposit : Delivery where
  signed :=
    { timestampMs := 1000
      payloadBase64 :=
        "eyJwcm92aWRlcklkIjoiYmFuayIsImV2ZW50SWQiOiJlMSIsImFjdG9ySWQiOiJidXllciIsImFtb3VudCI6" ++
        "eyJjdXJyZW5jeSI6IlVTRCIsImFtb3VudE1pbm9yIjo1MDB9LCJwcm92aWRlclJlZmVyZW5jZSI6InIxIiwi" ++
        "b2NjdXJyZWRBdE1zIjoxfQ"
      signatureHex := "a4b9907bd581e61e208cb722812f8639cbd22745de0358e25a38e7484c50a43b" }
  json :=
    "\x7b\"providerId\":\"bank\",\"eventId\":\"e1\",\"actorId\":\"buyer\",\"amount\":" ++
    "\x7b\"currency\":\"USD\",\"amountMinor\":500\x7d,\"providerReference\":\"r1\"," ++
    "\"occurredAtMs\":1\x7d"
  event :=
    { providerId := "bank", eventId := "e1", actorId := buyer, amount := ⟨"USD", 500⟩
      providerReference := "r1", occurredAtMs := 1 }

def settle (delivery : Delivery) : ServiceInput :=
  .settle verifier delivery.signed 1000

def request (actorId : ActorId) (command : ClientCommand) : ServiceInput :=
  .handle
    { protocolVersion
      context := { requestId := "1", deviceId := "d", actorId, sessionId := "s", sentAtMs := 1000 }
      command } 1000

def profile (actorId : ActorId) : ServiceInput :=
  request actorId (.upsertProfile { id := actorId, kind := .human, displayName := actorId.value })

def room : Conversation :=
  { id := ⟨"room"⟩, kind := .group, title := "room", participants := [⟨seller, .owner, 1, none⟩]
    createdAtMs := 1, updatedAtMs := 1 }

def invoice (sellerId : ActorId) : Invoice :=
  { id := "inv", conversationId := room.id, sellerId, title := "tea", description := "tea"
    kind := .oneTime, currency := "USD", prices := [⟨"tea", ⟨"USD", 500⟩⟩], payload := "p"
    providerId := "wallet", createdAtMs := 1 }

def opening : List ServiceInput :=
  [profile seller, profile buyer, profile rival, request seller (.createConversation room),
    settle deposit, request seller (.createInvoice (invoice seller))]

def checkout (orderId : String) : ServiceInput :=
  request buyer (.checkoutInvoice "inv" orderId none)

def refund (sellerId : ActorId) (orderId requestId : String) : ServiceInput :=
  request sellerId (.refundOrder orderId requestId)

def sold : List ServiceInput :=
  opening ++ [checkout "order"]

def replaced : List ServiceInput :=
  sold ++ [request rival (.createInvoice (invoice rival))]

instance : BlobStore Empty where
  beginUpload store := store.elim
  appendChunk store := store.elim
  finishUpload store := store.elim
  delete store := store.elim

def reached (deliveries : List Delivery) (inputs : List ServiceInput) :
    MessagingService MemoryStateStore Empty :=
  Runs.run (MessagingService.next (world deliveries)) (MessagingService.empty {} none) inputs

end Market

open Market in
theorem MessagingService.debit_authenticated_checkout :
    ∃ request serverTimeMs, checkout "order" = .handle request serverTimeMs ∧
      request.context.actorId = buyer :=
  debit_authenticated (world [deposit]) ({} : MemoryStateStore) (none : Option Empty)
    (opening ++ [checkout "order"]) (by decide +kernel) (reached [deposit] opening)
    (checkout "order") ⟨opening, [], rfl, rfl⟩ buyer "USD" (by decide +kernel)

open Market in
/-- A rival who replaces the seller's invoice refunds its order from the seller's
account. -/
theorem MessagingService.debit_by_rival :
    ¬ ∀ (inputs : List ServiceInput) (s : MessagingService MemoryStateStore Empty)
      (input : ServiceInput), Takes (world [deposit]) {} none inputs s input →
      ∀ (actorId : ActorId) (currency : String),
        (next (world [deposit]) s input).engine.wallet.stored (walletAccountId actorId) currency <
          s.engine.wallet.stored (walletAccountId actorId) currency →
        ∃ request serverTimeMs, input = .handle request serverTimeMs ∧
          request.context.actorId = actorId := by
  intro hclaim
  obtain ⟨_, _, hrequest, hactor⟩ := hclaim (replaced ++ [refund rival "order" "r"])
    (reached [deposit] replaced) (refund rival "order" "r") ⟨replaced, [], rfl, rfl⟩ seller "USD"
    (by decide +kernel)
  cases hrequest
  exact absurd hactor (by decide)

end Fabushi.Messaging
