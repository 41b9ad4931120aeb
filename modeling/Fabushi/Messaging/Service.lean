import Fabushi.Messaging.Authorization
import Fabushi.Library.Effects

/-!
# The messaging service

`MessagingService` holds the engine, a state store, an optional blob store and
the event cursor. Its methods work on the live engine: a failure in the middle of
a request, or in persisting it, does not undo what was executed before.
-/

namespace Fabushi.Messaging

open Effects MachineInt Result Std

structure MessagingService (S B : Type) where
  engine : MessagingState := {}
  store : S
  blobStore : Option B := none
  cursor : UInt64 := 0

/-- The library functions the service calls: SHA-256, the standard base64 decoder,
the term splitter of the search index and the codec of signed settlements. -/
structure ServiceEnv where
  sha256 : List UInt8 → List UInt8
  decodeBase64 : String → Except String (List UInt8)
  tokenize : String → BTreeSet String
  settlement : SettlementCodec

variable {S B : Type} [MessagingStateStore S] [BlobStore B]

abbrev ServiceM (S B : Type) := Eff MessagingServiceError (MessagingService S B)

namespace MessagingService

def typingTtlMs : Int64 := 5000

def load (store : S) : Except MessagingServiceError (MessagingService S B) := do
  let snapshot ← (MessagingStateStore.load store).mapError .store
  return match snapshot with
    | some snapshot => { engine := snapshot.state, store, cursor := snapshot.cursor }
    | none => { store }

def envelope (cursor : UInt64) (serverTimeMs : Int64) (event : ServerEvent) : ServerEnvelope where
  cursor := some (toString cursor.toNat)
  serverTimeMs := serverTimeMs
  event := event

/-! ## Steps on the live service -/

def executeCommand (command : Command) : ServiceM S B (List Event) := do
  let service ← get
  let (engine, decision) := service.engine.execute command
  modify fun service ↦ { service with engine }
  orThrow .engine decision

def executeAll : List Command → ServiceM S B (List Event)
  | [] => return []
  | command :: commands => do
      let events ← executeCommand command
      let rest ← executeAll commands
      return events ++ rest

def advanceCursor (count : ℕ) : ServiceM S B PUnit :=
  modify fun service ↦ { service with cursor := saturatingU64 service.cursor count }

def persistWithEvents (nowMs : Int64) (events : List JournalEntry) : ServiceM S B Unit := do
  let service ← get
  let snapshot : MessagingSnapshot :=
    { cursor := service.cursor, savedAtMs := nowMs, state := service.engine }
  let (store, saved) := MessagingStateStore.saveWithEvents service.store snapshot events
  modify fun service ↦ { service with store }
  orThrow .store saved

def persist (nowMs : Int64) : ServiceM S B Unit := do
  let service ← get
  let snapshot : MessagingSnapshot :=
    { cursor := service.cursor, savedAtMs := nowMs, state := service.engine }
  let (store, saved) := MessagingStateStore.save service.store snapshot
  modify fun service ↦ { service with store }
  orThrow .store saved

def journal (actorId : ActorId) (responses : List ServerEnvelope) (serverTimeMs : Int64) :
    ServiceM S B Unit := do
  let service ← get
  persistWithEvents serverTimeMs (service.engine.journalEntries actorId responses)

def publish (actorId : ActorId) (events : List Event)
    (invocations : List BotInvocation) (serverTimeMs : Int64) :
    ServiceM S B (List ServerEnvelope) := do
  advanceCursor events.length
  let service ← get
  let projected := events.filterMap (service.engine.projectEvent actorId serverTimeMs)
  let responses := (projected ++ invocations.map ServerEvent.botInvocationRequested).map
    (envelope service.cursor serverTimeMs)
  journal actorId responses serverTimeMs
  return responses

def singleServiceEvent (actorId : ActorId) (event : ServerEvent) (serverTimeMs : Int64) :
    ServiceM S B (List ServerEnvelope) := do
  advanceCursor 1
  let service ← get
  let response := envelope service.cursor serverTimeMs event
  journal actorId [response] serverTimeMs
  return [response]

/-! ## Work done before a request is served -/

def expiredMessages (state : MessagingState) (serverTimeMs : Int64) : List Command :=
  state.messages.toList.filterMap fun (conversationId, messages) ↦
    let expired := messages.values.filter fun message ↦
      !message.deleted && message.isExpiredAt serverTimeMs
    if expired.isEmpty then none
    else some (.deleteMessages conversationId (expired.map fun message ↦ message.id))

def settleExpiredMessages (initiator : ActorId) (serverTimeMs : Int64) : ServiceM S B Unit := do
  let service ← get
  let commands := expiredMessages service.engine serverTimeMs
  if commands.isEmpty then return ()
  else
    let events ← executeAll commands
    discard (publish initiator events [] serverTimeMs)

def undeliveredMessages (state : MessagingState) (actorId : ActorId) : List Command :=
  let conversations := state.conversations.values.filter fun conversation ↦
    conversation.kind.hasReceipts && conversation.hasParticipant actorId
  conversations.flatMap fun conversation ↦
    let messages :=
      (state.messages[conversation.id]?.map fun messages ↦ messages.values).getD []
    (messages.filter fun message ↦
      message.senderId ≠ actorId && message.deliveryState = .sent).map fun message ↦
        .setDeliveryState conversation.id message.id .delivered

def markDirectMessagesDelivered (actorId : ActorId) (serverTimeMs : Int64) :
    ServiceM S B Unit := do
  let service ← get
  let commands := undeliveredMessages service.engine actorId
  if commands.isEmpty then return ()
  else
    let events ← executeAll commands
    discard (publish actorId events [] serverTimeMs)

/-! ## Reads -/

def isLiveTyping (serverTimeMs : Int64) : ServerEvent → Bool
  | .typingChanged _ _ _ (some expiresAtMs) => serverTimeMs < expiresAtMs
  | _ => true

def syncEnvelope (service : MessagingService S B) (actorId : ActorId) (limit : UInt32)
    (serverTimeMs : Int64) : ServerEnvelope :=
  envelope service.cursor serverTimeMs
    (.syncBatch (service.engine.syncBatch actorId limit serverTimeMs service.cursor))

/-- Answer from the journal where it reaches back far enough, else with a snapshot. -/
def syncResponse (service : MessagingService S B) (actorId : ActorId) (cursor : Option String)
    (limit : UInt32) (serverTimeMs : Int64) :
    Except MessagingServiceError (List ServerEnvelope) := do
  let snapshot := [service.syncEnvelope actorId limit serverTimeMs]
  match cursor.bind Text.parseU64 with
  | none => return snapshot
  | some requested =>
      if service.cursor < requested then return snapshot
      else
        let slice ← (MessagingStateStore.loadEventJournalAfter service.store requested
          (max limit.toNat 1)).mapError .store
        match slice with
        | none => return snapshot
        | some slice =>
            if requested < slice.floorCursor ∨
                (slice.entries.isEmpty ∧ requested < slice.currentCursor) then return snapshot
            else
              let entries := slice.entries.filter fun entry ↦
                entry.audience.any (· = actorId) && isLiveTyping serverTimeMs entry.envelope.event
              let checkpoint := envelope slice.checkpointCursor serverTimeMs (.syncBatch
                { nextCursor := some (toString slice.checkpointCursor.toNat) })
              return entries.map (fun entry ↦ service.engine.projectJournalEnvelopeForActor actorId
                entry.envelope serverTimeMs) ++ [checkpoint]

def communityMembersPage (service : MessagingService S B) (actorId : ActorId)
    (conversationId : ConversationId) (cursor : Option String) (limit : UInt32)
    (serverTimeMs : Int64) : Except MessagingServiceError (List ServerEnvelope) := do
  let community ← service.engine.authorizedCommunity actorId conversationId
  let (members, nextCursor) := community.memberPage cursor limit.toNat
  return [envelope service.cursor serverTimeMs
    (.communityMembersPage conversationId members nextCursor)]

def communityAuditPage (service : MessagingService S B) (actorId : ActorId)
    (conversationId : ConversationId) (cursor : Option String) (limit : UInt32)
    (serverTimeMs : Int64) : Except MessagingServiceError (List ServerEnvelope) := do
  let community ← service.engine.authorizedCommunity actorId conversationId
  ensure (community.hasMemberWith actorId fun member ↦
      member.status = .owner || member.status = .administrator)
    (denied "community audit log requires owner/admin access")
  let (entries, nextCursor) := community.auditPage cursor limit.toNat
  return [envelope service.cursor serverTimeMs
    (.communityAuditLogPage conversationId entries nextCursor)]

/-- A resent message is answered from the stored one; an expired one only with
its deletion. -/
def idempotentSendReplay (env : ServiceEnv) (service : MessagingService S B) (actorId : ActorId)
    (command : ClientCommand) (serverTimeMs : Int64) :
    Except MessagingServiceError (Option (List ServerEnvelope)) :=
  match command with
  | .sendMessage conversationId clientMessageId content replyToMessageId threadRootMessageId
      scheduledAtMs silent protectedContent =>
      let stored := (service.engine.findMessage conversationId
        (stableMessageId env.sha256 actorId clientMessageId)).or
        (service.engine.findMessage conversationId (legacyMessageId clientMessageId))
      match stored with
      | none => .ok none
      | some existing =>
          if existing.deleted && existing.isExpiredAt serverTimeMs then
            .ok (some [envelope service.cursor serverTimeMs
              (.messagesDeleted conversationId [existing.id])])
          else if existing.senderId ≠ actorId || !existing.content.same content ||
              existing.replyToMessageId ≠ replyToMessageId ||
              existing.threadRootMessageId ≠ threadRootMessageId ||
              existing.scheduledAtMs ≠ scheduledAtMs || existing.silent != silent ||
              existing.protectedContent != protectedContent then
            .error (.idempotencyConflict clientMessageId.value)
          else
            .ok (some [envelope service.cursor serverTimeMs (.messageChanged existing)])
  | _ => .ok none

/-! ## Requests -/

def typingEvent (actorId : ActorId) (conversationId : ConversationId) (action : Option String)
    (serverTimeMs : Int64) : ServiceM S B (List ServerEnvelope) := do
  let service ← get
  let conversation ← orThrow id (okOr service.engine.conversations[conversationId]?
    (denied "typing conversation does not exist"))
  orThrow id (ensure (conversation.hasParticipant actorId)
    (denied "typing requires conversation membership"))
  singleServiceEvent actorId (.typingChanged conversationId actorId action
    (some (saturatingAdd serverTimeMs typingTtlMs))) serverTimeMs

def withBlobStore {α : Type} (operation : B → B × Except BlobStoreError α) : ServiceM S B α := do
  let service ← get
  match service.blobStore with
  | none => throw .blobStoreUnavailable
  | some blobStore =>
      let (blobStore, outcome) := operation blobStore
      modify fun service ↦ { service with blobStore := some blobStore }
      orThrow .blob outcome

def handleProjected (env : ServiceEnv) (actorId : ActorId) (command : ClientCommand)
    (serverTimeMs : Int64) : ServiceM S B (List ServerEnvelope) := do
  let service ← get
  match ← orThrow id (service.idempotentSendReplay env actorId command serverTimeMs) with
  | some replay => return replay
  | none =>
      let commands := service.engine.projectCommand env.sha256 actorId serverTimeMs command
      let events ← executeAll commands
      if events.isEmpty then return []
      else
        let service ← get
        let invocations := events.flatMap fun event ↦ match event with
          | .messageQueued message => service.engine.botInvocationsForMessage message
          | _ => []
        publish actorId events invocations serverTimeMs

def handleCommand (env : ServiceEnv) (actorId : ActorId) (serverTimeMs : Int64)
    (command : ClientCommand) : ServiceM S B (List ServerEnvelope) :=
  match command with
  | .beginBlobUpload metadata => do
      let status ← withBlobStore fun store ↦ BlobStore.beginUpload store metadata
      singleServiceEvent actorId (.blobUploadChanged status) serverTimeMs
  | .appendBlobChunk blobId offset dataBase64 => do
      let bytes ← orThrow .invalidBlobBase64 (env.decodeBase64 dataBase64)
      let status ← withBlobStore fun store ↦ BlobStore.appendChunk store blobId offset bytes
      singleServiceEvent actorId (.blobUploadChanged status) serverTimeMs
  | .finishBlobUpload blobId => do
      let metadata ← withBlobStore fun store ↦ BlobStore.finishUpload store blobId
      singleServiceEvent actorId (.blobReady metadata) serverTimeMs
  | .deleteBlob blobId => do
      withBlobStore fun store ↦ BlobStore.delete store blobId
      singleServiceEvent actorId (.blobDeleted blobId) serverTimeMs
  | .walletStatus => do
      let service ← get
      return [envelope service.cursor serverTimeMs (service.engine.walletStatus actorId)]
  | .sync cursor limit => do
      markDirectMessagesDelivered actorId serverTimeMs
      let service ← get
      orThrow id (service.syncResponse actorId cursor limit serverTimeMs)
  | .search query => do
      let service ← get
      let results := (service.engine.searchIndex actorId).search env.tokenize query
      return [envelope service.cursor serverTimeMs (.searchResults query results)]
  | .listCommunityMembers conversationId cursor limit => do
      let service ← get
      orThrow id (service.communityMembersPage actorId conversationId cursor limit serverTimeMs)
  | .listCommunityAuditLog conversationId cursor limit => do
      let service ← get
      orThrow id (service.communityAuditPage actorId conversationId cursor limit serverTimeMs)
  | .startTyping conversationId action =>
      typingEvent actorId conversationId (some action) serverTimeMs
  | .stopTyping conversationId => typingEvent actorId conversationId none serverTimeMs
  | command => handleProjected env actorId command serverTimeMs

def handle (env : ServiceEnv) (request : ClientEnvelope) (serverTimeMs : Int64) :
    ServiceM S B (List ServerEnvelope) := do
  if request.protocolVersion ≠ protocolVersion then
    throw (.protocolVersion protocolVersion request.protocolVersion)
  else
    let service ← get
    orThrow id (service.engine.validateCommandAuthorization request.context.actorId
      request.command)
    settleExpiredMessages request.context.actorId serverTimeMs
    handleCommand env request.context.actorId serverTimeMs request.command

def settledEntry (events : List Event) : Except MessagingServiceError LedgerEntry :=
  okOr (events.findSome? fun event ↦ match event with
    | .walletChanged _ entry => some entry
    | _ => none) (.invariant "wallet settlement produced no ledger entry")

def creditWalletFromSettlement (requestId : String) (ownerId : ActorId) (amount : Money)
    (reference : Option String) (serverTimeMs : Int64) : ServiceM S B LedgerEntry := do
  let events ← executeCommand
    (.creditWalletSettlement requestId ownerId amount reference serverTimeMs)
  let entry ← orThrow id (settledEntry events)
  advanceCursor events.length
  persist serverTimeMs
  return entry

def applySignedSettlement (env : ServiceEnv) (verifier : SettlementVerifier)
    (signed : SignedSettlement) (serverTimeMs : Int64) : ServiceM S B LedgerEntry := do
  let event ← orThrow .settlement (verifier.verify env.settlement signed serverTimeMs)
  creditWalletFromSettlement event.idempotencyKey event.actorId event.amount
    (some event.providerReference) serverTimeMs

end MessagingService

end Fabushi.Messaging
