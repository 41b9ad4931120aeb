import Fabushi.Messaging.Command

/-!
# Deciding commands

`MessagingEngine::decide`: every command is checked against the state and, when
accepted, answered with the events it causes. Deciding never writes; the state
changes only when the events are applied.
-/

namespace Fabushi.Messaging

open MachineInt Result Std

abbrev Decision := Except EngineError (List Event)

def liftError {ε α : Type} (wrap : ε → EngineError) (x : Except ε α) : Except EngineError α :=
  x.mapError wrap

/-! ## Shared checks -/

inductive CommunityAdminAction where
  | changeInfo | inviteMembers | banMembers | manageTopics | addAdmins
  deriving DecidableEq, Repr

def CommunityAdminAction.allowedBy (rights : AdminRights) : CommunityAdminAction → Bool
  | .changeInfo => rights.changeInfo
  | .inviteMembers => rights.inviteMembers
  | .banMembers => rights.banMembers
  | .manageTopics => rights.manageTopics
  | .addAdmins => rights.addAdmins

def requireCommunityAdmin (community : CommunityState) (actorId : ActorId)
    (action : CommunityAdminAction) : Except EngineError Unit :=
  ensure (community.hasMemberWith actorId fun member ↦
    member.status = .owner ||
      (member.status = .administrator && action.allowedBy member.adminRights))
    .communityPermissionDenied

def communityHasAccess (community : CommunityState) (actorId : ActorId) : Bool :=
  community.isActiveMember actorId || community.isSubscriber actorId

def appendCommunityAudit (community : CommunityState) (actorId : ActorId)
    (action : CommunityAuditAction) (targetActorId : Option ActorId) (targetId reason : Option String)
    (createdAtMs : Int64) : CommunityState :=
  let id := "audit:" ++ actorId.value ++ ":" ++ toString createdAtMs.toInt ++ ":" ++
    toString community.adminLog.length ++ ":" ++ targetId.getD "community"
  community.appendAudit { id, actorId, action, targetActorId, targetId, reason, createdAtMs }

def walletAccountId (actorId : ActorId) : WalletAccountId :=
  ⟨"wallet:" ++ actorId.value⟩

def ensureWalletAccount (wallet : WalletLedger) (accountId : WalletAccountId) (ownerId : ActorId)
    (nowMs : Int64) : Except WalletError WalletLedger :=
  if wallet.accounts.contains accountId then .ok wallet
  else wallet.createAccount accountId ownerId nowMs

def participantForCommunityMember (member : CommunityMember) : Option Participant :=
  let participant := fun role ↦ some
    { actorId := member.actorId, role, joinedAtMs := member.joinedAtMs
      mutedUntilMs := member.restrictions.untilMs : Participant }
  match member.status with
  | .owner => participant .owner
  | .administrator => participant .admin
  | .member => participant .member
  | .restricted => participant .restricted
  | .left | .banned => none

def ParticipantRole.memberStatus : ParticipantRole → MemberStatus
  | .owner => .owner
  | .admin => .administrator
  | .member => .member
  | .restricted => .restricted

def checkClientMessageId (id : ClientMessageId) : Except EngineError Unit :=
  ensure (¬ (Text.isBlank id.value ∨ 200 < Text.len id.value)) .invalidClientMessageId

namespace MessagingState

def requireActor (state : MessagingState) (id : ActorId) : Except EngineError Actor :=
  okOr state.actors[id]? (.actorNotFound id)

def requireConversation (state : MessagingState) (id : ConversationId) :
    Except EngineError Conversation :=
  okOr state.conversations[id]? (.conversationNotFound id)

def requireCommunity (state : MessagingState) (id : ConversationId) :
    Except EngineError CommunityState :=
  okOr state.communities[id]? (.communityNotFound id)

def findMessage (state : MessagingState) (conversationId : ConversationId)
    (messageId : MessageId) : Option Message :=
  state.messages[conversationId]?.bind fun messages ↦ messages[messageId]?

def requireMessage (state : MessagingState) (conversationId : ConversationId)
    (messageId : MessageId) : Except EngineError Message :=
  okOr (state.findMessage conversationId messageId) (.messageNotFound conversationId messageId)

def isConversationOwner (state : MessagingState) (conversationId : ConversationId)
    (actorId : ActorId) : Bool :=
  state.conversations[conversationId]?.any fun conversation ↦ conversation.isOwnedBy actorId

def isCommunityConversation (state : MessagingState) (conversationId : ConversationId) : Bool :=
  state.conversations[conversationId]?.any fun conversation ↦ conversation.kind.isCommunity

/-! ## Actors, conversations and folders -/

def decideUpsertActor (actor : Actor) : Decision := do
  ensure (¬ (¬ ActorId.isValid actor.id ∨ Text.isBlank actor.displayName)) .invalidActor
  return [.actorUpserted actor]

def decideSetPresence (state : MessagingState) (actorId : ActorId) (presence : Presence) :
    Decision := do
  let _ ← state.requireActor actorId
  return [.presenceUpdated actorId presence]

def decideUpsertConversation (state : MessagingState) (conversation : Conversation) :
    Decision := do
  ensure (¬ (¬ ConversationId.isValid conversation.id ∨ Text.isBlank conversation.title))
    .invalidConversation
  ensure (¬ state.conversations[conversation.id]?.any fun existing ↦
      existing.kind.isCommunity && (conversation.ownerId ≠ existing.ownerId ||
        conversation.participants ≠ existing.participants ||
        conversation.topics ≠ existing.topics)) .invalidConversationParticipant
  conversation.participants.forM fun participant ↦
    discard (state.requireActor participant.actorId)
  ensure (¬ (conversation.kind = .secret ∧ conversation.participants.length ≠ 2))
    .invalidSecretConversation
  return [.conversationUpserted conversation]

def decideUpdateConversationInfo (state : MessagingState) (conversationId : ConversationId)
    (title : String) (description : Option String) : Decision := do
  let _ ← state.requireConversation conversationId
  ensure (¬ (Text.isBlank title ∨ 200 < Text.len (Text.trim title))) .invalidConversationParticipant
  return [.conversationInfoUpdated conversationId (Text.trim title)
    ((description.map Text.trim).filter fun value ↦ value != "")]

def decideSetConversationParticipant (state : MessagingState) (conversationId : ConversationId)
    (participant : Participant) : Decision := do
  let conversation ← state.requireConversation conversationId
  let _ ← state.requireActor participant.actorId
  ensure (¬ (conversation.isOwnedBy participant.actorId ∧ participant.role ≠ .owner))
    .invalidConversationParticipant
  if conversation.kind.isCommunity then
    let community ← state.requireCommunity conversationId
    let member := community.members[participant.actorId]?.getD
      { actorId := participant.actorId, status := .member, joinedAtMs := participant.joinedAtMs }
    let member := { member with
      status := participant.role.memberStatus
      joinedAtMs := participant.joinedAtMs }
    let community := { community with
      members := community.members.insert participant.actorId member }
    return [.communityChanged community,
      .conversationParticipantUpserted conversationId participant]
  else
    return [.conversationParticipantUpserted conversationId participant]

def decideRemoveConversationParticipant (state : MessagingState)
    (conversationId : ConversationId) (actorId : ActorId) : Decision := do
  let conversation ← state.requireConversation conversationId
  ensure (¬ conversation.isOwnedBy actorId) .invalidConversationParticipant
  if conversation.kind.isCommunity then
    let community ← state.requireCommunity conversationId
    let members := match community.members[actorId]? with
      | some member => community.members.insert actorId { member with status := .left }
      | none => community.members
    let community := { community with
      members
      subscribers := community.subscribers.erase actorId }
    return [.communityChanged community, .conversationParticipantRemoved conversationId actorId]
  else
    return [.conversationParticipantRemoved conversationId actorId]

def decideArchiveConversation (state : MessagingState) (conversationId : ConversationId)
    (archived : Bool) : Decision := do
  let _ ← state.requireConversation conversationId
  return [.conversationArchived conversationId archived]

def decidePinConversation (state : MessagingState) (conversationId : ConversationId)
    (pinned : Bool) : Decision := do
  let _ ← state.requireConversation conversationId
  return [.conversationPinned conversationId pinned]

def decideSetMarkedUnread (state : MessagingState) (conversationId : ConversationId)
    (actorId : ActorId) (markedUnread : Bool) : Decision := do
  let _ ← state.requireConversation conversationId
  let _ ← state.requireActor actorId
  return [.conversationMarkedUnread conversationId actorId markedUnread]

def decideSetDraft (state : MessagingState) (draft : ConversationDraft) : Decision := do
  let _ ← state.requireConversation draft.conversationId
  let _ ← state.requireActor draft.actorId
  return [.draftChanged draft]

def decideSetConversationNotifications (state : MessagingState)
    (conversationId : ConversationId) (settings : NotificationSettings) : Decision := do
  let _ ← state.requireConversation conversationId
  return [.conversationNotificationsUpdated conversationId settings]

def decideSetConversationMessageRetention (state : MessagingState)
    (conversationId : ConversationId) (retentionSeconds : Option UInt32)
    (expectedRevision : UInt64) : Decision := do
  let conversation ← state.requireConversation conversationId
  let policy ← liftError .messageRetention (retentionPolicy conversation.messageRetentionSeconds)
  let current : ConversationMessageRetention :=
    { policy, revision := conversation.retentionRevision }
  let retention ← liftError .messageRetention (current.change retentionSeconds expectedRevision)
  return [.conversationMessageRetentionUpdated conversationId retention]

/-! ## Messages -/

def checkConversationPermissions (conversation : Conversation) (conversationId : ConversationId)
    (senderId : ActorId) (content : MessageContent) : Except EngineError Unit := do
  ensure (conversation.hasParticipant senderId ∨ conversation.isOwnedBy senderId)
    (.senderNotParticipant conversationId senderId)
  ensure conversation.permissions.canSendMessages (.messageSendPermissionDenied conversationId)
  ensure (¬ (content.usesMedia ∧ ¬ conversation.permissions.canSendMedia))
    (.mediaSendPermissionDenied conversationId)
  ensure (¬ (content.isPoll ∧ ¬ conversation.permissions.canSendPolls))
    (.pollSendPermissionDenied conversationId)

def checkMemberRestrictions (state : MessagingState) (conversationId : ConversationId)
    (senderId : ActorId) (content : MessageContent) : Except EngineError Unit :=
  match state.communities[conversationId]?.bind fun community ↦ community.members[senderId]? with
  | none => .ok ()
  | some member => do
      ensure (¬ (member.status.isGone ∨
          (member.status = .restricted ∧ member.restrictions.sendMessages)))
        (.communitySendRestricted conversationId)
      ensure (¬ (content.usesMedia ∧ member.status = .restricted ∧ member.restrictions.sendMedia))
        (.communityMediaRestricted conversationId)
      ensure (¬ (content.isPoll ∧ member.status = .restricted ∧ member.restrictions.sendPolls))
        (.communityPollRestricted conversationId)

def canPostToChannel (state : MessagingState) (conversation : Conversation)
    (conversationId : ConversationId) (senderId : ActorId) : Bool :=
  conversation.isOwnedBy senderId ||
    (conversation.participants.any fun participant ↦ participant.actorId = senderId &&
      (participant.role = .owner || participant.role = .admin)) ||
    state.communities[conversationId]?.any fun community ↦
      community.hasMemberWith senderId fun member ↦
        member.status = .administrator && member.adminRights.postMessages

def checkTopicOpen (community : CommunityState) (conversationId : ConversationId)
    (threadRootMessageId : Option MessageId) : Except EngineError Unit :=
  match threadRootMessageId.bind topicIdFromRoot with
  | none => .ok ()
  | some topicId => do
      let topic ← okOr community.topics[topicId]? (.forumTopicNotFound conversationId topicId)
      ensure (¬ (topic.closed ∨ topic.hidden)) (.forumTopicClosed conversationId topicId)

def latestMessage (messages : List Message) : Option Message :=
  messages.foldl (fun latest message ↦
    match latest with
    | none => some message
    | some best =>
        let order := (compare best.createdAtMs message.createdAtMs).then
          (compare best.id message.id)
        if order.isLE then some message else some best) none

def latestMessageOf (state : MessagingState) (conversationId : ConversationId)
    (senderId : ActorId) (createdAtMs : Int64) : Option Message :=
  let messages := (state.messages[conversationId]?.map fun messages ↦ messages.values).getD []
  latestMessage <| messages.filter fun message ↦
    message.senderId = senderId && !message.deleted && message.isDueAt createdAtMs

def checkSlowMode (state : MessagingState) (community : CommunityState)
    (conversationId : ConversationId) (senderId : ActorId) (createdAtMs : Int64) :
    Except EngineError Unit :=
  match community.slowModeSeconds with
  | none => .ok ()
  | some seconds =>
      if community.canModerate senderId then .ok ()
      else match state.latestMessageOf conversationId senderId createdAtMs with
        | none => .ok ()
        | some message =>
            let retryAt := saturatingAdd message.createdAtMs
              (saturatingMul (Int64.ofNat seconds.toNat) 1000)
            ensure (¬ createdAtMs < retryAt) (.slowModeActive conversationId retryAt)

def checkCommunityRules (state : MessagingState) (conversationId : ConversationId)
    (senderId : ActorId) (threadRootMessageId : Option MessageId) (createdAtMs : Int64) :
    Except EngineError Unit :=
  match state.communities[conversationId]? with
  | none => .ok ()
  | some community => do
      checkTopicOpen community conversationId threadRootMessageId
      state.checkSlowMode community conversationId senderId createdAtMs

def checkSecrecy (conversation : Conversation) (conversationId : ConversationId)
    (senderId : ActorId) (content : MessageContent) : Except EngineError Unit := do
  ensure (¬ (conversation.kind = .secret ∧ ¬ content.isSecret ∧ ¬ content.isService))
    .secretPlaintextRejected
  ensure (¬ (conversation.kind ≠ .secret ∧ content.isSecret))
    .secretContentOutsideSecretConversation
  match content with
  | .secret envelope =>
      ensure (¬ (envelope.conversationId ≠ conversationId ∨ envelope.senderId ≠ senderId ∨
          ¬ conversation.hasParticipant envelope.senderId ∨
          ¬ conversation.hasParticipant envelope.recipientId ∨
          envelope.senderId = envelope.recipientId)) .secretEnvelopeMismatch
  | _ => .ok ()

def checkMessageIsNew (state : MessagingState) (conversationId : ConversationId)
    (messageId : MessageId) : Except EngineError Unit :=
  ensure (state.findMessage conversationId messageId = none)
    (.duplicateMessage conversationId messageId)

def decideQueueMessage (state : MessagingState) (conversationId : ConversationId)
    (localMessageId : MessageId) (clientMessageId : ClientMessageId) (senderId : ActorId)
    (content : MessageContent) (replyToMessageId threadRootMessageId : Option MessageId)
    (createdAtMs : Int64) (scheduledAtMs : Option Int64) (silent protectedContent : Bool) :
    Decision := do
  let conversation ← state.requireConversation conversationId
  let _ ← state.requireActor senderId
  checkConversationPermissions conversation conversationId senderId content
  state.checkMemberRestrictions conversationId senderId content
  ensure (¬ (conversation.kind = .channel ∧
      ¬ state.canPostToChannel conversation conversationId senderId))
    (.communitySendRestricted conversationId)
  state.checkCommunityRules conversationId senderId threadRootMessageId createdAtMs
  checkSecrecy conversation conversationId senderId content
  checkClientMessageId clientMessageId
  state.checkMessageIsNew conversationId localMessageId
  let expiresAtMs ← liftError .messageRetention
    (messageExpiry conversation.messageRetentionSeconds (scheduledAtMs.getD createdAtMs))
  let message : Message :=
    { id := localMessageId, conversationId, senderId, content, replyToMessageId
      threadRootMessageId, forwardOrigin := none, replyMarkup := none, reactions := []
      deliveryState := .pending clientMessageId, createdAtMs, editedAtMs := none, scheduledAtMs
      expiresAtMs, silent, protectedContent := protectedContent || content.isSecret
      pinned := false, deleted := false }
  return [.messageQueued message]

def decideForwardMessage (state : MessagingState) (sourceConversationId : ConversationId)
    (messageId : MessageId) (destinationConversationId : ConversationId)
    (localMessageId : MessageId) (clientMessageId : ClientMessageId) (senderId : ActorId)
    (createdAtMs : Int64) : Decision := do
  let destination ← state.requireConversation destinationConversationId
  let _ ← state.requireActor senderId
  checkClientMessageId clientMessageId
  state.checkMessageIsNew destinationConversationId localMessageId
  let original ← state.requireMessage sourceConversationId messageId
  ensure (¬ original.deleted) (.messageNotFound sourceConversationId messageId)
  ensure (¬ original.protectedContent) .protectedContent
  let forwardOrigin :=
    original.forwardOrigin.getD (original.conversationId.value ++ ":" ++ original.id.value)
  let expiresAtMs ← liftError .messageRetention
    (messageExpiry destination.messageRetentionSeconds createdAtMs)
  let message : Message :=
    { id := localMessageId, conversationId := destinationConversationId, senderId
      content := original.content, replyToMessageId := none, threadRootMessageId := none
      forwardOrigin := some forwardOrigin, replyMarkup := original.replyMarkup, reactions := []
      deliveryState := .pending clientMessageId, createdAtMs, editedAtMs := none
      scheduledAtMs := none, expiresAtMs, silent := false
      protectedContent := original.protectedContent, pinned := false, deleted := false }
  return [.messageQueued message]

def decideAcknowledgeMessage (state : MessagingState) (conversationId : ConversationId)
    (localMessageId serverMessageId : MessageId) (acceptedAtMs : Int64) : Decision := do
  let _ ← state.requireMessage conversationId localMessageId
  ensure (¬ (localMessageId ≠ serverMessageId ∧
      (state.findMessage conversationId serverMessageId).isSome))
    (.duplicateMessage conversationId serverMessageId)
  return [.messageAcknowledged conversationId localMessageId serverMessageId acceptedAtMs]

def decideSetDeliveryState (state : MessagingState) (conversationId : ConversationId)
    (messageId : MessageId) (deliveryState : DeliveryState) : Decision := do
  let _ ← state.requireMessage conversationId messageId
  return [.deliveryStateUpdated conversationId messageId deliveryState]

def decideEditMessage (state : MessagingState) (conversationId : ConversationId)
    (messageId : MessageId) (content : MessageContent) (editedAtMs : Int64) : Decision := do
  let _ ← state.requireMessage conversationId messageId
  return [.messageEdited conversationId messageId content editedAtMs]

def decideDeleteMessages (state : MessagingState) (conversationId : ConversationId)
    (messageIds : List MessageId) : Decision := do
  let unique : BTreeSet MessageId := ExtTreeSet.ofList messageIds compare
  ensure (¬ unique.isEmpty) .emptyMessageList
  unique.toList.forM fun id ↦ discard (state.requireMessage conversationId id)
  return [.messagesDeleted conversationId unique.toList]

def decideMarkRead (state : MessagingState) (conversationId : ConversationId)
    (actorId : ActorId) (messageId : MessageId) : Decision := do
  let _ ← state.requireActor actorId
  let conversation ← state.requireConversation conversationId
  let hasAccess : Bool := match state.communities[conversationId]? with
    | some community => communityHasAccess community actorId || conversation.isOwnedBy actorId
    | none => conversation.isOwnedBy actorId || conversation.hasParticipant actorId
  ensure hasAccess (.communityAccessDenied conversationId actorId)
  let _ ← state.requireMessage conversationId messageId
  return [.conversationRead conversationId actorId messageId]

def checkTopicAccess (state : MessagingState) (community : CommunityState)
    (conversationId : ConversationId) (actorId : ActorId) : Except EngineError Unit :=
  ensure (¬ (¬ communityHasAccess community actorId ∧
      ¬ state.isConversationOwner conversationId actorId))
    (.communityAccessDenied conversationId actorId)

def decideMarkTopicRead (state : MessagingState) (conversationId : ConversationId)
    (topicId : String) (actorId : ActorId) (messageId : MessageId) : Decision := do
  let _ ← state.requireActor actorId
  let community ← state.requireCommunity conversationId
  state.checkTopicAccess community conversationId actorId
  let topic ← okOr community.topics[topicId]? (.forumTopicNotFound conversationId topicId)
  let message ← state.requireMessage conversationId messageId
  ensure ((message.threadRootMessageId.any fun root ↦ topicIdFromRoot root = some topicId) ∨
    topic.lastMessageId = some messageId.value) (.topicMessageMismatch topicId)
  return [.topicReadChanged conversationId topicId actorId messageId]

def decideSetTopicDraft (state : MessagingState) (draft : TopicDraft) : Decision := do
  let _ ← state.requireActor draft.actorId
  let community ← state.requireCommunity draft.conversationId
  state.checkTopicAccess community draft.conversationId draft.actorId
  ensure (¬ (Text.isBlank draft.topicId ∨ ¬ community.topics.contains draft.topicId))
    (.forumTopicNotFound draft.conversationId draft.topicId)
  return [.topicDraftChanged draft]

def decideSetReaction (state : MessagingState) (conversationId : ConversationId)
    (messageId : MessageId) (reaction : ReactionSummary) : Decision := do
  let _ ← state.requireMessage conversationId messageId
  ensure (¬ Text.isBlank reaction.reaction) .invalidClientMessageId
  return [.reactionUpdated conversationId messageId reaction]

def decidePinMessage (state : MessagingState) (conversationId : ConversationId)
    (messageId : MessageId) (pinned : Bool) : Decision := do
  let _ ← state.requireMessage conversationId messageId
  return [.messagePinned conversationId messageId pinned]

def decideVotePoll (state : MessagingState) (conversationId : ConversationId)
    (messageId : MessageId) (actorId : ActorId) (optionIds : List String) : Decision := do
  let _ ← state.requireActor actorId
  let message ← state.requireMessage conversationId messageId
  match message.content with
  | .poll _ options _ multipleAnswers _ =>
      let selected : BTreeSet String := ExtTreeSet.ofList optionIds compare
      ensure (¬ ((¬ multipleAnswers ∧ 1 < selected.size) ∨
          selected.toList.any fun id ↦ !(options.any fun option ↦ option.id = id)))
        .invalidPollVote
      return [.pollVoteChanged conversationId messageId actorId selected.toList]
  | _ => throw .invalidPollVote

/-! ## Invoices, orders and the wallet -/

def decideCreateInvoice (state : MessagingState) (invoice : Invoice) : Decision := do
  ensure invoice.isValid .invalidInvoice
  let _ ← state.requireActor invoice.sellerId
  let _ ← state.requireConversation invoice.conversationId
  return [.invoiceCreated invoice]

def decideUpsertOrder (state : MessagingState) (order : PaymentOrder) : Decision := do
  ensure (state.invoices.contains order.invoiceId) (.invoiceNotFound order.invoiceId)
  let _ ← state.requireActor order.buyerId
  return [.orderUpserted order]

def checkoutWallet (state : MessagingState) (invoice : Invoice) (orderId : String)
    (buyerId : ActorId) (amountMinor createdAtMs : Int64) :
    Except EngineError (WalletLedger × LedgerEntry) := do
  let buyerAccount := walletAccountId buyerId
  let sellerAccount := walletAccountId invoice.sellerId
  let wallet ← liftError .wallet
    (ensureWalletAccount state.wallet buyerAccount buyerId createdAtMs)
  let wallet ← liftError .wallet
    (ensureWalletAccount wallet sellerAccount invoice.sellerId createdAtMs)
  let (wallet, result) := wallet.transfer ("checkout:" ++ orderId) buyerAccount sellerAccount
    (Money.new invoice.currency amountMinor) (some invoice.id) createdAtMs
  let entry ← liftError .wallet result
  return (wallet, entry)

def decideCheckoutInvoice (state : MessagingState) (invoiceId orderId : String)
    (buyerId : ActorId) (customer : Option CustomerInfo) (createdAtMs : Int64) : Decision := do
  let invoice ← okOr state.invoices[invoiceId]? (.invoiceNotFound invoiceId)
  let _ ← state.requireActor buyerId
  ensure (¬ invoice.isExpiredAt createdAtMs) (.invoiceExpired invoiceId)
  match state.orders[orderId]? with
  | some existing =>
      ensure (existing.invoiceId = invoice.id ∧ existing.buyerId = buyerId) (.orderConflict orderId)
      return [.orderUpserted existing]
  | none =>
      let amountMinor ← okOr invoice.checkedTotalMinor .invalidInvoice
      ensure (¬ amountMinor ≤ 0) .invalidInvoice
      let (wallet, entry) ← state.checkoutWallet invoice orderId buyerId amountMinor createdAtMs
      let order : PaymentOrder :=
        { id := orderId, invoiceId := invoice.id, buyerId, status := .paid
          amount := Money.new invoice.currency amountMinor, customer
          providerPaymentId := some entry.id
          providerReceiptUrl := some ("fabushi://payments/receipts/" ++ entry.id)
          createdAtMs, updatedAtMs := createdAtMs }
      return [.walletChanged wallet entry, .orderUpserted order]

def decideRefundOrder (state : MessagingState) (orderId : String) (sellerId : ActorId)
    (requestId : String) (refundedAtMs : Int64) : Decision := do
  let order ← okOr state.orders[orderId]? (.orderNotFound orderId)
  let invoice ← okOr state.invoices[order.invoiceId]? (.invoiceNotFound order.invoiceId)
  ensure (invoice.sellerId = sellerId) (.refundForbidden orderId)
  if order.status = .refunded then
    return [.orderUpserted order]
  else
    ensure (order.status = .paid) (.orderNotRefundable orderId)
    let originalEntryId ← okOr order.providerPaymentId (.orderNotRefundable order.id)
    let (wallet, result) := state.wallet.refundTransfer requestId originalEntryId refundedAtMs
    let entry ← liftError .wallet result
    return [.walletChanged wallet entry,
      .orderUpserted { order with status := .refunded, updatedAtMs := refundedAtMs }]

def decideCreditWalletSettlement (state : MessagingState) (requestId : String)
    (ownerId : ActorId) (amount : Money) (reference : Option String) (settledAtMs : Int64) :
    Decision := do
  let _ ← state.requireActor ownerId
  let accountId := walletAccountId ownerId
  let wallet ← liftError .wallet (ensureWalletAccount state.wallet accountId ownerId settledAtMs)
  let (wallet, result) := wallet.credit requestId accountId amount reference settledAtMs
  let entry ← liftError .wallet result
  return [.walletChanged wallet entry]

/-! ## Stories -/

def requireStory (state : MessagingState) (id : StoryId) : Except EngineError Story :=
  okOr state.stories[id]? (.storyNotFound id)

def decidePublishStory (state : MessagingState) (actorId : ActorId) (story : Story) :
    Decision := do
  let _ ← state.requireActor actorId
  ensure (¬ (story.ownerId ≠ actorId ∨ Text.isBlank story.id.value ∨
    Text.isBlank story.media.id ∨ story.expiresAtMs ≤ story.createdAtMs)) .invalidStory
  return [.storyChanged story]

def decideDeleteStory (state : MessagingState) (actorId : ActorId) (storyId : StoryId) :
    Decision := do
  let story ← state.requireStory storyId
  ensure (story.ownerId = actorId) (.storyPermissionDenied storyId)
  return [.storyDeleted storyId]

def decideViewStory (state : MessagingState) (actorId : ActorId) (storyId : StoryId)
    (viewedAtMs : Int64) : Decision := do
  let _ ← state.requireActor actorId
  let story ← state.requireStory storyId
  ensure (story.isVisibleTo actorId false false) (.storyPermissionDenied storyId)
  let story ← liftError .story (story.recordView actorId viewedAtMs)
  return [.storyChanged story]

def decideReactStory (state : MessagingState) (actorId : ActorId) (storyId : StoryId)
    (reaction : Option String) : Decision := do
  let story ← state.requireStory storyId
  ensure (story.isVisibleTo actorId false false) (.storyPermissionDenied storyId)
  let story ← liftError .story (story.react actorId reaction)
  return [.storyChanged story]

/-! ## Communities -/

def seedMember (requestedMembers : BTreeMap ActorId CommunityMember) (participant : Participant) :
    CommunityMember :=
  let requested := requestedMembers[participant.actorId]?
  let requestedRights := (requested.map fun member ↦ member.adminRights).getD {}
  let adminRights := match participant.role with
    | .owner =>
        { changeInfo := true, postMessages := true, editMessages := true, deleteMessages := true
          banMembers := true, inviteMembers := true, pinMessages := true, manageTopics := true
          manageCalls := true, addAdmins := true, remainAnonymous := true }
    | .admin | .restricted => requestedRights
    | .member => {}
  { actorId := participant.actorId, status := participant.role.memberStatus
    adminTitle := requested.bind fun member ↦ member.adminTitle
    adminRights
    restrictions := (requested.map fun member ↦ member.restrictions).getD {}
    joinedAtMs := participant.joinedAtMs
    invitedBy := requested.bind fun member ↦ member.invitedBy }

def decideUpdateCommunity (state : MessagingState) (actorId : ActorId)
    (community : CommunityState) : Decision := do
  let conversation ← state.requireConversation community.conversationId
  ensure conversation.kind.isCommunity .communityPermissionDenied
  match state.communities[community.conversationId]? with
  | some existing =>
      requireCommunityAdmin existing actorId .changeInfo
      -- everything but the metadata is owned by the server
      return [.communityChanged { community with
        members := existing.members, inviteLinks := existing.inviteLinks
        pendingJoinRequests := existing.pendingJoinRequests, topics := existing.topics
        bannedWords := existing.bannedWords, slowModeSeconds := existing.slowModeSeconds
        subscribers := existing.subscribers, adminLog := existing.adminLog }]
  | none =>
      ensure (conversation.isOwnedBy actorId ∨ conversation.participants.any fun participant ↦
        participant.actorId = actorId && participant.role = .owner) .communityPermissionDenied
      let members := conversation.participants.foldl (fun members participant ↦
        members.insert participant.actorId (seedMember community.members participant)) ∅
      return [.communityChanged { community with
        members, inviteLinks := ∅, pendingJoinRequests := ∅, topics := ∅, bannedWords := ∅
        subscribers := ∅, adminLog := [] }]

def decideSubscribeChannel (state : MessagingState) (actorId : ActorId)
    (conversationId : ConversationId) (subscribedAtMs : Int64) : Decision := do
  let _ ← state.requireActor actorId
  let conversation ← state.requireConversation conversationId
  ensure (conversation.kind = .channel) .communityPermissionDenied
  let community ← state.requireCommunity conversationId
  ensure (¬ (¬ community.isPublic ∧ ¬ community.isSubscriber actorId ∧
    ¬ community.members.contains actorId)) .communityPermissionDenied
  let subscribed ← liftError .community (community.subscribeChannel actorId subscribedAtMs)
  return [.communityChanged <|
    if community.isSubscriber actorId then subscribed
    else appendCommunityAudit subscribed actorId .subscriptionAdded (some actorId) none none
      subscribedAtMs]

def decideUnsubscribeChannel (state : MessagingState) (actorId : ActorId)
    (conversationId : ConversationId) (unsubscribedAtMs : Int64) : Decision := do
  let _ ← state.requireActor actorId
  let conversation ← state.requireConversation conversationId
  ensure (conversation.kind = .channel) .communityPermissionDenied
  ensure (¬ conversation.isOwnedBy actorId) (.community .ownerCannotUnsubscribe)
  let community ← state.requireCommunity conversationId
  let unsubscribed ← liftError .community (community.unsubscribeChannel actorId)
  return [.communityChanged <|
    if community.isSubscriber actorId then
      appendCommunityAudit unsubscribed actorId .subscriptionRemoved (some actorId) none none
        unsubscribedAtMs
    else unsubscribed]

def decideSetCommunitySlowMode (state : MessagingState) (actorId : ActorId)
    (conversationId : ConversationId) (seconds : Option UInt32) (changedAtMs : Int64) :
    Decision := do
  let conversation ← state.requireConversation conversationId
  ensure conversation.kind.isCommunity .communityPermissionDenied
  ensure (¬ seconds.any fun seconds ↦ 86400 < seconds) .communityPermissionDenied
  let community ← state.requireCommunity conversationId
  requireCommunityAdmin community actorId .changeInfo
  return [.communityChanged <| appendCommunityAudit { community with slowModeSeconds := seconds }
    actorId .slowModeChanged none (some "slowMode") none changedAtMs]

def participantEvent (state : MessagingState) (community : CommunityState)
    (conversationId : ConversationId) (actorId : ActorId) : List Event :=
  if state.isCommunityConversation conversationId then
    match community.members[actorId]?.bind participantForCommunityMember with
    | some participant => [.conversationParticipantUpserted conversationId participant]
    | none => [.conversationParticipantRemoved conversationId actorId]
  else []

def changeMember (community : CommunityState) (actorId : ActorId) (member : CommunityMember)
    (reason : Option String) (changedAtMs : Int64) : CommunityState :=
  let updated := community.upsertMember member
  let updated := if member.status.isGone then
      { updated with subscribers := updated.subscribers.erase member.actorId }
    else updated
  appendCommunityAudit updated actorId .memberChanged (some member.actorId)
    (some ("member:" ++ member.actorId.value)) reason changedAtMs

def decideModerateCommunityMember (state : MessagingState) (actorId : ActorId)
    (conversationId : ConversationId) (member : CommunityMember) (reason : Option String)
    (decidedAtMs : Int64) : Decision := do
  let _ ← state.requireActor member.actorId
  let community ← state.requireCommunity conversationId
  requireCommunityAdmin community actorId .banMembers
  ensure (¬ (member.actorId = actorId ∨ community.isOwner member.actorId ∨
      member.status = .owner ∨ member.status = .administrator ∨
      community.hasMemberWith member.actorId fun existing ↦ existing.status = .administrator))
    .communityPermissionDenied
  let community := changeMember community actorId member reason decidedAtMs
  return .communityChanged community ::
    state.participantEvent community conversationId member.actorId

/-- The right a membership change needs: touching owners or administrators, or
making one, needs `addAdmins`. -/
def memberChangeAction (targetIsPrivileged : Bool) (status : MemberStatus) :
    CommunityAdminAction :=
  if targetIsPrivileged then .addAdmins
  else match status with
    | .owner | .administrator => .addAdmins
    | .restricted | .left | .banned => .banMembers
    | .member => .inviteMembers

def decideSetCommunityMember (state : MessagingState) (actorId : ActorId)
    (conversationId : ConversationId) (member : CommunityMember) : Decision := do
  let _ ← state.requireActor member.actorId
  let community ← state.requireCommunity conversationId
  let targetIsOwner := community.isOwner member.actorId
  let targetIsAdministrator := community.hasMemberWith member.actorId fun existing ↦
    existing.status = .administrator
  ensure (¬ ((targetIsOwner ∨ member.status = .owner) ∧ ¬ community.isOwner actorId))
    .communityPermissionDenied
  requireCommunityAdmin community actorId
    (memberChangeAction (targetIsOwner || targetIsAdministrator) member.status)
  let community := changeMember community actorId member none member.joinedAtMs
  return .communityChanged community ::
    state.participantEvent community conversationId member.actorId

def decideCreateInviteLink (state : MessagingState) (actorId : ActorId) (invite : InviteLink) :
    Decision := do
  let community ← state.requireCommunity invite.conversationId
  requireCommunityAdmin community actorId .inviteMembers
  ensure (¬ (invite.creatorId ≠ actorId ∨ Text.isBlank invite.id ∨ Text.isBlank invite.token ∨
    invite.revoked)) .communityPermissionDenied
  return [.communityChanged <| appendCommunityAudit
    { community with inviteLinks := community.inviteLinks.insert invite.id invite }
    actorId .inviteCreated none (some ("invite:" ++ invite.id)) none invite.createdAtMs]

def decideRevokeInviteLink (state : MessagingState) (actorId : ActorId)
    (conversationId : ConversationId) (inviteId : String) (revokedAtMs : Int64) : Decision := do
  let community ← state.requireCommunity conversationId
  requireCommunityAdmin community actorId .inviteMembers
  let community ← liftError .community (community.revokeInvite inviteId)
  return [.communityChanged <| appendCommunityAudit community actorId .inviteRevoked none
    (some ("invite:" ++ inviteId)) none revokedAtMs]

def decideRequestCommunityJoin (state : MessagingState) (actorId : ActorId)
    (request : JoinRequest) : Decision := do
  ensure (request.actorId = actorId) .communityPermissionDenied
  let _ ← state.requireActor actorId
  let conversation ← state.requireConversation request.conversationId
  ensure conversation.kind.isCommunity .communityPermissionDenied
  let community ← state.requireCommunity request.conversationId
  ensure (¬ community.hasMemberWith actorId fun member ↦ member.status = .banned)
    .communityPermissionDenied
  ensure community.isPublic .communityPermissionDenied
  return [.communityChanged <| appendCommunityAudit (community.requestJoin request) actorId
    .memberChanged (some request.actorId) (some "join-request") none request.requestedAtMs]

def decideRespondCommunityJoin (state : MessagingState) (actorId : ActorId)
    (conversationId : ConversationId) (requesterId : ActorId) (approved : Bool)
    (decidedAtMs : Int64) : Decision := do
  let community ← state.requireCommunity conversationId
  requireCommunityAdmin community actorId .inviteMembers
  if approved then
    let community ← liftError .community (community.approveJoin requesterId actorId decidedAtMs)
    let community := appendCommunityAudit community actorId .joinApproved (some requesterId) none
      none decidedAtMs
    let joined := if state.isCommunityConversation conversationId then
        community.members[requesterId]?.bind participantForCommunityMember
      else none
    return .communityChanged community :: (joined.map fun participant ↦
      Event.conversationParticipantUpserted conversationId participant).toList
  else
    let _ ← okOr community.pendingJoinRequests[requesterId]?
      (.community (.joinRequestNotFound requesterId))
    let community := { community with
      pendingJoinRequests := community.pendingJoinRequests.erase requesterId }
    return [.communityChanged <| appendCommunityAudit community actorId .joinRejected
      (some requesterId) none none decidedAtMs]

def decideUpsertForumTopic (state : MessagingState) (actorId : ActorId)
    (topic : ForumTopicState) : Decision := do
  let community ← state.requireCommunity topic.conversationId
  requireCommunityAdmin community actorId .manageTopics
  ensure (¬ (Text.isBlank topic.id ∨ Text.isBlank topic.title ∨
    128 < Text.len (Text.trim topic.title) ∨ topic.conversationId ≠ community.conversationId))
    .communityPermissionDenied
  return [.communityChanged <| appendCommunityAudit
    { community with topics := community.topics.insert topic.id topic }
    actorId .topicUpserted none (some ("topic:" ++ topic.id)) none topic.createdAtMs]

def decideDeleteForumTopic (state : MessagingState) (actorId : ActorId)
    (conversationId : ConversationId) (topicId : String) : Decision := do
  let community ← state.requireCommunity conversationId
  requireCommunityAdmin community actorId .manageTopics
  return [.communityChanged <| appendCommunityAudit
    { community with topics := community.topics.erase topicId }
    actorId .topicDeleted none (some ("topic:" ++ topicId)) none 0]

/-! ## Bots and mini apps -/

def decideRegisterBot (state : MessagingState) (actorId : ActorId) (profile : BotProfile) :
    Decision := do
  let actor ← state.requireActor actorId
  ensure (¬ (profile.actorId ≠ actorId ∨ ¬ (actor.kind = .bot ∨ actor.kind = .assistant)))
    .botPermissionDenied
  let registry ← liftError .bot (state.bots.register profile)
  return [.botRegistryChanged registry (some profile) none]

def decideBeginBotInvocation (state : MessagingState) (actorId : ActorId)
    (invocation : BotInvocation) (createdAtMs : Int64) : Decision := do
  ensure (invocation.senderId = actorId) .botPermissionDenied
  let _ ← state.requireActor actorId
  let _ ← state.requireConversation invocation.conversationId
  let (registry, execution) ← liftError .bot (state.bots.beginExecution invocation createdAtMs)
  return [.botRegistryChanged registry registry.bots[execution.botId]? (some execution)]

def decideFinishBotExecution (state : MessagingState) (actorId : ActorId) (executionId : String)
    (success : Bool) (finishedAtMs : Int64) (error : Option String) : Decision := do
  let execution ← okOr state.bots.executions[executionId]? (.botExecutionNotFound executionId)
  ensure (execution.botId = actorId) .botPermissionDenied
  let registry ← liftError .bot
    (state.bots.finishExecution executionId success finishedAtMs error)
  let execution := registry.executions[executionId]?
  let profile := execution.bind fun execution ↦ registry.bots[execution.botId]?
  return [.botRegistryChanged registry profile execution]

def decideGrantMiniApp (state : MessagingState) (grant : MiniAppGrant) : Decision := do
  ensure (state.miniApps.contains grant.miniAppId) (.miniAppNotFound grant.miniAppId)
  let _ ← state.requireActor grant.actorId
  return [.miniAppGrantUpdated grant]

def decideOpenMiniApp (state : MessagingState) (session : MiniAppSession) : Decision := do
  ensure (state.miniApps.contains session.miniAppId) (.miniAppNotFound session.miniAppId)
  let grant := state.miniAppGrants[(⟨session.miniAppId, session.actorId⟩ : MiniAppGrantKey)]?
  let ungranted := session.grantedPermissions.find? fun permission ↦
    !(grant.any fun grant ↦ grant.permissions.contains permission)
  match ungranted with
  | some permission => throw (.miniAppPermissionDenied permission)
  | none => return [.miniAppOpened session]

def decideMiniAppCall (state : MessagingState) (sessionId requestId : String)
    (request : MiniAppRequest) : Decision := do
  let session ← okOr state.miniAppSessions[sessionId]? (.miniAppSessionNotFound sessionId)
  match request.requiredPermission with
  | some permission =>
      ensure (session.grantedPermissions.contains permission) (.miniAppPermissionDenied permission)
  | none => pure ()
  ensure request.isAnsweredLocally .miniAppHostActionRequired
  return [.miniAppResponded sessionId requestId .ok]

/-! ## The dispatcher -/

protected def decide (state : MessagingState) : Command → Decision
  | .upsertActor actor => decideUpsertActor actor
  | .setPresence actorId presence => state.decideSetPresence actorId presence
  | .upsertConversation conversation => state.decideUpsertConversation conversation
  | .updateConversationInfo conversationId title description =>
      state.decideUpdateConversationInfo conversationId title description
  | .setConversationParticipant conversationId participant =>
      state.decideSetConversationParticipant conversationId participant
  | .removeConversationParticipant conversationId actorId =>
      state.decideRemoveConversationParticipant conversationId actorId
  | .archiveConversation conversationId archived =>
      state.decideArchiveConversation conversationId archived
  | .pinConversation conversationId pinned => state.decidePinConversation conversationId pinned
  | .setMarkedUnread conversationId actorId markedUnread =>
      state.decideSetMarkedUnread conversationId actorId markedUnread
  | .setDraft draft => state.decideSetDraft draft
  | .setConversationNotifications conversationId settings =>
      state.decideSetConversationNotifications conversationId settings
  | .setConversationMessageRetention conversationId retentionSeconds expectedRevision =>
      state.decideSetConversationMessageRetention conversationId retentionSeconds expectedRevision
  | .upsertFolder folder => .ok [.folderUpserted folder]
  | .deleteFolder folderId => .ok [.folderDeleted folderId]
  | .queueMessage conversationId localMessageId clientMessageId senderId content replyToMessageId
      threadRootMessageId createdAtMs scheduledAtMs silent protectedContent =>
      state.decideQueueMessage conversationId localMessageId clientMessageId senderId content
        replyToMessageId threadRootMessageId createdAtMs scheduledAtMs silent protectedContent
  | .forwardMessage sourceConversationId messageId destinationConversationId localMessageId
      clientMessageId senderId createdAtMs =>
      state.decideForwardMessage sourceConversationId messageId destinationConversationId
        localMessageId clientMessageId senderId createdAtMs
  | .acknowledgeMessage conversationId localMessageId serverMessageId acceptedAtMs =>
      state.decideAcknowledgeMessage conversationId localMessageId serverMessageId acceptedAtMs
  | .setDeliveryState conversationId messageId deliveryState =>
      state.decideSetDeliveryState conversationId messageId deliveryState
  | .editMessage conversationId messageId content editedAtMs =>
      state.decideEditMessage conversationId messageId content editedAtMs
  | .deleteMessages conversationId messageIds =>
      state.decideDeleteMessages conversationId messageIds
  | .markRead conversationId actorId messageId =>
      state.decideMarkRead conversationId actorId messageId
  | .markTopicRead conversationId topicId actorId messageId =>
      state.decideMarkTopicRead conversationId topicId actorId messageId
  | .setTopicDraft draft => state.decideSetTopicDraft draft
  | .setReaction conversationId messageId reaction =>
      state.decideSetReaction conversationId messageId reaction
  | .pinMessage conversationId messageId pinned =>
      state.decidePinMessage conversationId messageId pinned
  | .votePoll conversationId messageId actorId optionIds =>
      state.decideVotePoll conversationId messageId actorId optionIds
  | .createInvoice invoice => state.decideCreateInvoice invoice
  | .upsertOrder order => state.decideUpsertOrder order
  | .checkoutInvoice invoiceId orderId buyerId customer createdAtMs =>
      state.decideCheckoutInvoice invoiceId orderId buyerId customer createdAtMs
  | .refundOrder orderId sellerId requestId refundedAtMs =>
      state.decideRefundOrder orderId sellerId requestId refundedAtMs
  | .creditWalletSettlement requestId ownerId amount reference settledAtMs =>
      state.decideCreditWalletSettlement requestId ownerId amount reference settledAtMs
  | .publishStory actorId story => state.decidePublishStory actorId story
  | .deleteStory actorId storyId => state.decideDeleteStory actorId storyId
  | .viewStory actorId storyId viewedAtMs => state.decideViewStory actorId storyId viewedAtMs
  | .reactStory actorId storyId reaction => state.decideReactStory actorId storyId reaction
  | .updateCommunity actorId community => state.decideUpdateCommunity actorId community
  | .subscribeChannel actorId conversationId subscribedAtMs =>
      state.decideSubscribeChannel actorId conversationId subscribedAtMs
  | .unsubscribeChannel actorId conversationId unsubscribedAtMs =>
      state.decideUnsubscribeChannel actorId conversationId unsubscribedAtMs
  | .setCommunitySlowMode actorId conversationId seconds changedAtMs =>
      state.decideSetCommunitySlowMode actorId conversationId seconds changedAtMs
  | .moderateCommunityMember actorId conversationId member reason decidedAtMs =>
      state.decideModerateCommunityMember actorId conversationId member reason decidedAtMs
  | .setCommunityMember actorId conversationId member =>
      state.decideSetCommunityMember actorId conversationId member
  | .createInviteLink actorId invite => state.decideCreateInviteLink actorId invite
  | .revokeInviteLink actorId conversationId inviteId revokedAtMs =>
      state.decideRevokeInviteLink actorId conversationId inviteId revokedAtMs
  | .requestCommunityJoin actorId request => state.decideRequestCommunityJoin actorId request
  | .respondCommunityJoin actorId conversationId requesterId approved decidedAtMs =>
      state.decideRespondCommunityJoin actorId conversationId requesterId approved decidedAtMs
  | .upsertForumTopic actorId topic => state.decideUpsertForumTopic actorId topic
  | .deleteForumTopic actorId conversationId topicId =>
      state.decideDeleteForumTopic actorId conversationId topicId
  | .registerBot actorId profile => state.decideRegisterBot actorId profile
  | .beginBotInvocation actorId invocation createdAtMs =>
      state.decideBeginBotInvocation actorId invocation createdAtMs
  | .finishBotExecution actorId executionId success finishedAtMs error =>
      state.decideFinishBotExecution actorId executionId success finishedAtMs error
  | .installMiniApp manifest => .ok [.miniAppInstalled manifest]
  | .grantMiniApp grant => state.decideGrantMiniApp grant
  | .openMiniApp session => state.decideOpenMiniApp session
  | .miniAppCall sessionId requestId request =>
      state.decideMiniAppCall sessionId requestId request

end MessagingState

end Fabushi.Messaging
