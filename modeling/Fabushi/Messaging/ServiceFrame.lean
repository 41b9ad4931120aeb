import Fabushi.Messaging.ServiceEffects

/-!
# What a request can do to the commerce state

A request authenticates, deletes expired messages, executes the projected engine
commands, and journals. Only the projected command of an invoice, a checkout or a
refund reaches invoices, orders and the wallet, and then by one commerce step in
which the acting identity is the authenticated one.
-/

namespace Fabushi.Messaging

open Effects Result Std

variable {S B : Type} {α β : Type}

namespace MessagingService

def commerce (service : MessagingService S B) : Commerce :=
  service.engine.commerce

def SameCommerce (s s' : MessagingService S B) : Prop :=
  s'.commerce = s.commerce

def CommerceStep (command : Command) (s s' : MessagingService S B) : Prop :=
  s.commerce.Step command s'.commerce

/-- A computation that leaves the commerce state alone. -/
abbrev Quiet (m : ServiceM S B α) : Prop :=
  Changes SameCommerce m

theorem sameCommerce_refl (s : MessagingService S B) : SameCommerce s s := rfl

theorem stored_of_sameCommerce {s s' : MessagingService S B} (h : SameCommerce s s')
    (a : WalletAccountId) (c : String) :
    s'.engine.wallet.stored a c = s.engine.wallet.stored a c := by
  have hwallet : s'.engine.wallet = s.engine.wallet := congrArg Commerce.wallet h
  rw [hwallet]

theorem quiet_pure (a : α) : Quiet (pure a : ServiceM S B α) :=
  changes_pure sameCommerce_refl a

theorem quiet_orThrow {δ : Type} (wrap : δ → MessagingServiceError) (x : Except δ α) :
    Quiet (orThrow wrap x : ServiceM S B α) :=
  changes_orThrow sameCommerce_refl wrap x

theorem quiet_bind {m : ServiceM S B α} {f : α → ServiceM S B β} (hm : Quiet m)
    (hf : ∀ a, Quiet (f a)) : Quiet (m >>= f) :=
  changes_bind (R := SameCommerce) (fun _ _ h ↦ h) (fun _ _ _ h h' ↦ Eq.trans h' h) hm hf

theorem quiet_get_bind {f : MessagingService S B → ServiceM S B β} (hf : ∀ s, Quiet (f s)) :
    Quiet (get >>= f) :=
  quiet_bind (changes_get sameCommerce_refl) hf

theorem quiet_of_idle {m : ServiceM S B α} (h : Idle m) : Quiet m :=
  fun s ↦ congrArg MessagingState.commerce (h s)

theorem commerceStep_of_quiet_bind {command : Command} {m : ServiceM S B α}
    {f : α → ServiceM S B β} (hm : Quiet m) (hf : ∀ a, Changes (CommerceStep command) (f a)) :
    Changes (CommerceStep command) (m >>= f) := by
  refine changes_bind ?_ ?_ hm hf
  · intro s t h
    rw [CommerceStep, h]
    exact .idle command
  · intro s t u h h'
    rw [CommerceStep, ← h]
    exact h'

theorem commerceStep_bind_quiet {command : Command} {m : ServiceM S B α}
    {f : α → ServiceM S B β} (hm : Changes (CommerceStep command) m) (hf : ∀ a, Quiet (f a)) :
    Changes (CommerceStep command) (m >>= f) := by
  refine changes_bind (fun _ _ h ↦ h) ?_ hm hf
  intro s t u h h'
  rw [CommerceStep, h']
  exact h

theorem commerceStep_of_quiet {command : Command} {m : ServiceM S B α} (hm : Quiet m) :
    Changes (CommerceStep command) m := by
  intro s
  rw [CommerceStep, hm s]
  exact .idle command

/-! ## Executing commands -/

theorem commerceStep_executeCommand (command : Command) :
    Changes (CommerceStep command) (executeCommand command : ServiceM S B (List Event)) := by
  intro s
  rw [CommerceStep, after_executeCommand]
  exact s.engine.execute_step command

def isQuiet (command : Command) : Bool :=
  !command.eventTags.any EventTag.isCommerce

theorem quiet_executeCommand {command : Command} (h : isQuiet command = true) :
    Quiet (executeCommand command : ServiceM S B (List Event)) := by
  intro s
  rw [SameCommerce, after_executeCommand, commerce, commerce, MessagingState.execute]
  split
  · rfl
  · rename_i events hevents
    exact MessagingState.commerce_of_eventTags (by simpa [isQuiet] using h) hevents

theorem quiet_executeAll {commands : List Command} (h : ∀ c ∈ commands, isQuiet c = true) :
    Quiet (executeAll commands : ServiceM S B (List Event)) := by
  induction commands with
  | nil => exact quiet_pure []
  | cons command commands ih =>
      refine quiet_bind (quiet_executeCommand (h command (by simp))) fun events ↦ ?_
      refine quiet_bind (ih fun c hc ↦ h c (by simp [hc])) fun rest ↦ ?_
      exact quiet_pure (events ++ rest)

theorem commerceStep_executeAll_singleton (command : Command) :
    Changes (CommerceStep command) (executeAll [command] : ServiceM S B (List Event)) := by
  refine commerceStep_bind_quiet (commerceStep_executeCommand command) fun events ↦ ?_
  exact quiet_bind (quiet_pure []) fun rest ↦ quiet_pure (events ++ rest)

/-! ## The work around a command -/

variable [MessagingStateStore S]

theorem quiet_executeAll_publish {commands : List Command} (actorId : ActorId)
    (serverTimeMs : Int64) (h : ∀ c ∈ commands, isQuiet c = true) :
    Quiet (do
      let events ← executeAll commands
      discard (publish actorId events [] serverTimeMs) : ServiceM S B Unit) := by
  refine quiet_bind (quiet_executeAll h) fun events ↦ ?_
  exact quiet_bind (quiet_of_idle (idle_publish _ _ _ _)) fun _ ↦ quiet_pure ()

theorem quiet_settleExpiredMessages (initiator : ActorId) (serverTimeMs : Int64) :
    Quiet (settleExpiredMessages initiator serverTimeMs : ServiceM S B Unit) := by
  refine quiet_get_bind fun service ↦ ?_
  have hquiet : ∀ c ∈ expiredMessages service.engine serverTimeMs, isQuiet c = true := by
    intro c hc
    simp only [expiredMessages, List.mem_filterMap] at hc
    obtain ⟨⟨conversationId, messages⟩, _, hcommand⟩ := hc
    split at hcommand
    · cases hcommand
    · cases hcommand
      rfl
  dsimp only
  split
  · exact quiet_pure ()
  · exact quiet_executeAll_publish _ _ hquiet

theorem quiet_markDirectMessagesDelivered (actorId : ActorId) (serverTimeMs : Int64) :
    Quiet (markDirectMessagesDelivered actorId serverTimeMs : ServiceM S B Unit) := by
  refine quiet_get_bind fun service ↦ ?_
  have hquiet : ∀ c ∈ undeliveredMessages service.engine actorId, isQuiet c = true := by
    intro c hc
    simp only [undeliveredMessages, List.mem_flatMap, List.mem_map] at hc
    obtain ⟨_, _, _, _, rfl⟩ := hc
    rfl
  dsimp only
  split
  · exact quiet_pure ()
  · exact quiet_executeAll_publish _ _ hquiet

/-! ## Requests -/

end MessagingService

def ClientCommand.commerceCommand (actorId : ActorId) (nowMs : Int64) :
    ClientCommand → Option Command
  | .createInvoice invoice => some (.createInvoice invoice)
  | .checkoutInvoice invoiceId orderId customer =>
      some (.checkoutInvoice invoiceId orderId actorId customer nowMs)
  | .refundOrder orderId requestId => some (.refundOrder orderId actorId requestId nowMs)
  | _ => none

theorem MessagingState.isQuiet_projectCommand {sha256 : List UInt8 → List UInt8}
    {state : MessagingState} {actorId : ActorId} {nowMs : Int64} {command : ClientCommand}
    (h : command.commerceCommand actorId nowMs = none) :
    ∀ c ∈ state.projectCommand sha256 actorId nowMs command,
      MessagingService.isQuiet c = true := by
  intro c hc
  cases command
  case createInvoice => cases h
  case checkoutInvoice => cases h
  case refundOrder => cases h
  case updateConversation conversation =>
    simp only [projectCommand] at hc
    split at hc
    · obtain rfl := List.mem_singleton.mp hc
      rfl
    · obtain rfl := List.mem_singleton.mp hc
      rfl
  case sendMessage =>
    simp only [projectCommand, projectSendMessage, List.mem_cons, List.not_mem_nil,
      or_false] at hc
    rcases hc with rfl | rfl <;> rfl
  case markRead =>
    simp only [projectCommand, projectMarkRead, List.mem_cons] at hc
    rcases hc with rfl | hc
    · rfl
    · split at hc
      · obtain rfl := List.mem_singleton.mp hc
        rfl
      · cases hc
  all_goals
    -- the other commands project to one engine command or to none
    first
    | cases hc; done
    | (obtain rfl := List.mem_singleton.mp hc; rfl)

namespace MessagingService

variable [MessagingStateStore S]

theorem quiet_handleProjected {env : ServiceEnv} {actorId : ActorId} {command : ClientCommand}
    {serverTimeMs : Int64} (h : command.commerceCommand actorId serverTimeMs = none) :
    Quiet (handleProjected env actorId command serverTimeMs :
      ServiceM S B (List ServerEnvelope)) := by
  refine quiet_get_bind fun service ↦ ?_
  refine quiet_bind (quiet_orThrow _ _) fun replay ↦ ?_
  cases replay with
  | some replay => exact quiet_pure replay
  | none =>
      refine quiet_bind (quiet_executeAll (MessagingState.isQuiet_projectCommand h)) fun events ↦ ?_
      exact quiet_of_idle (idle_publishProjected _ _ _)

theorem commerceStep_handleProjected {env : ServiceEnv} {actorId : ActorId}
    {command : ClientCommand} {serverTimeMs : Int64} {engineCommand : Command}
    (h : ∀ state : MessagingState,
      state.projectCommand env.sha256 actorId serverTimeMs command = [engineCommand]) :
    Changes (CommerceStep engineCommand)
      (handleProjected env actorId command serverTimeMs : ServiceM S B (List ServerEnvelope)) := by
  refine commerceStep_of_quiet_bind (changes_get sameCommerce_refl) fun service ↦ ?_
  refine commerceStep_of_quiet_bind (quiet_orThrow _ _) fun replay ↦ ?_
  cases replay with
  | some replay => exact commerceStep_of_quiet (quiet_pure replay)
  | none =>
      dsimp only
      rw [h service.engine]
      refine commerceStep_bind_quiet (commerceStep_executeAll_singleton engineCommand) fun events ↦ ?_
      exact quiet_of_idle (idle_publishProjected _ _ _)

/-! ## Settlements -/

def settlementCommand (event : SettlementEvent) (serverTimeMs : Int64) : Command :=
  .creditWalletSettlement event.idempotencyKey event.actorId event.amount
    (some event.providerReference) serverTimeMs

theorem commerce_creditWalletFromSettlement (requestId : String) (ownerId : ActorId)
    (amount : Money) (reference : Option String) (serverTimeMs : Int64)
    (s : MessagingService S B) :
    (after (creditWalletFromSettlement requestId ownerId amount reference serverTimeMs) s).commerce =
      (s.engine.execute (.creditWalletSettlement requestId ownerId amount reference
        serverTimeMs)).1.commerce := by
  have hquiet : ∀ events : List Event, Quiet (do
      let entry ← orThrow id (settledEntry events)
      advanceCursor events.length
      persist serverTimeMs
      return entry : ServiceM S B LedgerEntry) := by
    intro events
    refine quiet_bind (quiet_orThrow _ _) fun entry ↦ ?_
    refine quiet_bind (quiet_of_idle (idle_advanceCursor _)) fun _ ↦ ?_
    exact quiet_bind (quiet_of_idle (idle_persist _)) fun _ ↦ quiet_pure entry
  have hexecute := after_executeCommand (.creditWalletSettlement requestId ownerId amount reference
    serverTimeMs) s
  rw [creditWalletFromSettlement]
  cases h : result (executeCommand (.creditWalletSettlement requestId ownerId amount reference
      serverTimeMs)) s with
  | ok events =>
      rw [after_bind_ok h, hquiet events _, hexecute]
      rfl
  | error e =>
      rw [after_bind_error h, hexecute]
      rfl

theorem commerce_applySignedSettlement {env : ServiceEnv} {verifier : SettlementVerifier}
    {signed : SignedSettlement} {serverTimeMs : Int64} {event : SettlementEvent}
    (h : verifier.verify env.settlement signed serverTimeMs = .ok event)
    (s : MessagingService S B) :
    (after (applySignedSettlement env verifier signed serverTimeMs) s).commerce =
      (s.engine.execute (settlementCommand event serverTimeMs)).1.commerce := by
  rw [applySignedSettlement, h]
  exact commerce_creditWalletFromSettlement _ _ _ _ _ s

theorem after_applySignedSettlement_of_error {env : ServiceEnv} {verifier : SettlementVerifier}
    {signed : SignedSettlement} {serverTimeMs : Int64} {error : SettlementError}
    (h : verifier.verify env.settlement signed serverTimeMs = .error error)
    (s : MessagingService S B) :
    after (applySignedSettlement env verifier signed serverTimeMs) s = s := by
  rw [applySignedSettlement, h]
  rfl

/-! ## Client commands -/

variable [BlobStore B]

theorem quiet_handleCommand {env : ServiceEnv} {actorId : ActorId} {command : ClientCommand}
    {serverTimeMs : Int64} (h : command.commerceCommand actorId serverTimeMs = none) :
    Quiet (handleCommand env actorId serverTimeMs command :
      ServiceM S B (List ServerEnvelope)) := by
  cases command
  case beginBlobUpload =>
    exact quiet_of_idle (idle_bind (idle_withBlobStore _) fun _ ↦ idle_singleServiceEvent _ _ _)
  case appendBlobChunk =>
    refine quiet_bind (quiet_orThrow _ _) fun _ ↦ ?_
    exact quiet_of_idle (idle_bind (idle_withBlobStore _) fun _ ↦ idle_singleServiceEvent _ _ _)
  case finishBlobUpload =>
    exact quiet_of_idle (idle_bind (idle_withBlobStore _) fun _ ↦ idle_singleServiceEvent _ _ _)
  case deleteBlob =>
    exact quiet_of_idle (idle_bind (idle_withBlobStore _) fun _ ↦ idle_singleServiceEvent _ _ _)
  case walletStatus => exact quiet_get_bind fun _ ↦ quiet_pure _
  case sync =>
    refine quiet_bind (quiet_markDirectMessagesDelivered _ _) fun _ ↦ ?_
    exact quiet_get_bind fun _ ↦ quiet_orThrow _ _
  case search => exact quiet_get_bind fun _ ↦ quiet_pure _
  case listCommunityMembers => exact quiet_get_bind fun _ ↦ quiet_orThrow _ _
  case listCommunityAuditLog => exact quiet_get_bind fun _ ↦ quiet_orThrow _ _
  case startTyping => exact quiet_of_idle (idle_typingEvent _ _ _ _)
  case stopTyping => exact quiet_of_idle (idle_typingEvent _ _ _ _)
  all_goals exact quiet_handleProjected h

theorem commerceStep_handleCommand {env : ServiceEnv} {actorId : ActorId}
    {command : ClientCommand} {serverTimeMs : Int64} {engineCommand : Command}
    (h : command.commerceCommand actorId serverTimeMs = some engineCommand) :
    Changes (CommerceStep engineCommand)
      (handleCommand env actorId serverTimeMs command : ServiceM S B (List ServerEnvelope)) := by
  cases command
  case createInvoice =>
    cases h
    exact commerceStep_handleProjected fun _ ↦ rfl
  case checkoutInvoice =>
    cases h
    exact commerceStep_handleProjected fun _ ↦ rfl
  case refundOrder =>
    cases h
    exact commerceStep_handleProjected fun _ ↦ rfl
  all_goals cases h

def ActsFor (actorId : ActorId) : Command → Prop
  | .createInvoice invoice => invoice.sellerId = actorId
  | .checkoutInvoice _ _ buyerId _ _ => buyerId = actorId
  | .refundOrder _ sellerId _ _ => sellerId = actorId
  | _ => False

theorem actsFor_of_authorized {state : MessagingState} {actorId : ActorId}
    {command : ClientCommand} {nowMs : Int64} {engineCommand : Command}
    (hauthorized : state.validateCommandAuthorization actorId command = .ok ())
    (h : command.commerceCommand actorId nowMs = some engineCommand) :
    ActsFor actorId engineCommand := by
  cases command
  case createInvoice invoice =>
    cases h
    simpa [MessagingState.validateCommandAuthorization, ActsFor] using hauthorized
  case checkoutInvoice =>
    cases h
    rfl
  case refundOrder =>
    cases h
    rfl
  all_goals cases h

/-- A request leaves the commerce state alone, or takes it along one step whose
acting identity is the authenticated one. -/
theorem handle_commerce (env : ServiceEnv) (request : ClientEnvelope) (serverTimeMs : Int64)
    (s : MessagingService S B) :
    SameCommerce s (after (handle env request serverTimeMs) s) ∨
      ∃ command, request.command.commerceCommand request.context.actorId serverTimeMs =
          some command ∧ ActsFor request.context.actorId command ∧
        CommerceStep command s (after (handle env request serverTimeMs) s) := by
  by_cases hversion : request.protocolVersion ≠ protocolVersion
  · left
    rw [handle, if_pos hversion]
    rfl
  · rw [handle, if_neg hversion, after_get_bind]
    cases hauthorized : s.engine.validateCommandAuthorization request.context.actorId
        request.command with
    | error e =>
        left
        rfl
    | ok _ =>
        cases hcommand : request.command.commerceCommand request.context.actorId
            serverTimeMs with
        | none =>
            left
            refine quiet_bind (quiet_orThrow _ _) (fun _ ↦ ?_) s
            refine quiet_bind (quiet_settleExpiredMessages _ _) fun _ ↦ ?_
            exact quiet_handleCommand hcommand
        | some command =>
            right
            refine ⟨command, rfl, actsFor_of_authorized hauthorized hcommand, ?_⟩
            refine commerceStep_of_quiet_bind (quiet_orThrow _ _) (fun _ ↦ ?_) s
            refine commerceStep_of_quiet_bind (quiet_settleExpiredMessages _ _) fun _ ↦ ?_
            exact commerceStep_handleCommand hcommand

end MessagingService

end Fabushi.Messaging
