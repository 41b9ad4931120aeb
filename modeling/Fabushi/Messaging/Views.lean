import Fabushi.Messaging.Engine
import Fabushi.Messaging.Protocol

/-!
# What an actor is shown

The read side of `service.rs`: which conversations an actor can see, how
conversations, communities and messages are projected for an actor, who an event
is journalled for, and the snapshot a client synchronises with.
-/

namespace Fabushi.Messaging

open MachineInt Result Std

namespace MessagingState

/-! ## Visibility -/

def actorCanSeeConversation (state : MessagingState) (actorId : ActorId)
    (conversation : Conversation) : Bool :=
  match state.communities[conversation.id]? with
  | some community =>
      conversation.isOwnedBy actorId || community.isActiveMember actorId ||
        (conversation.kind = .channel && community.isSubscriber actorId)
  | none => conversation.isOwnedBy actorId || conversation.hasParticipant actorId

def visibleConversations (state : MessagingState) (actorId : ActorId) : List Conversation :=
  state.conversations.values.filter fun conversation ↦
    state.actorCanSeeConversation actorId conversation

def orderedMessages (state : MessagingState) (conversationId : ConversationId) : List Message :=
  let messages := (state.messages[conversationId]?.map fun messages ↦ messages.values).getD []
  messages.mergeSort fun left right ↦
    ((compare left.createdAtMs right.createdAtMs).then (compare left.id right.id)).isLE

def countUnread (messages : List Message) (cursor : Option MessageId) (p : Message → Bool) :
    UInt32 :=
  let readIndex := cursor.bind fun messageId ↦
    messages.findIdx? fun message ↦ message.id = messageId
  let unread := messages.zipIdx.filter fun (message, index) ↦
    (readIndex.all fun readIndex ↦ readIndex < index) && p message
  saturatingU32 unread.length

def readCursor (state : MessagingState) (conversationId : ConversationId) (actorId : ActorId) :
    Option MessageId :=
  state.readCursors[conversationId]?.bind fun cursors ↦ cursors[actorId]?

def topicReadCursor (state : MessagingState) (conversationId : ConversationId)
    (actorId : ActorId) (topicId : String) : Option MessageId :=
  (state.topicReadCursors[conversationId]?.bind fun byActor ↦ byActor[actorId]?).bind
    fun byTopic ↦ byTopic[topicId]?

def topicUnreadCount (state : MessagingState) (actorId : ActorId)
    (conversationId : ConversationId) (topicId : String) (serverTimeMs : Int64) : UInt32 :=
  countUnread (state.orderedMessages conversationId)
    (state.topicReadCursor conversationId actorId topicId) fun message ↦
      (message.threadRootMessageId.any fun root ↦ topicIdFromRoot root = some topicId) &&
        message.isDueAt serverTimeMs && !message.deleted && message.senderId ≠ actorId

/-! ## Projections -/

def projectConversationForActor (state : MessagingState) (actorId : ActorId)
    (conversation : Conversation) (serverTimeMs : Int64) : Conversation :=
  let lastRead := state.readCursor conversation.id actorId
  { conversation with
    lastReadMessageId := lastRead.map fun messageId ↦ messageId.value
    unreadCount := countUnread (state.orderedMessages conversation.id) lastRead fun message ↦
      message.isDueAt serverTimeMs && !message.deleted && message.senderId ≠ actorId
    markedUnread := state.markedUnreadByActor[conversation.id]?.any fun actors ↦
      actors.contains actorId
    topics :=
      match state.communities[conversation.id]? with
      | none => conversation.topics
      | some community => community.topics.values.map fun topic ↦
          { id := topic.id, title := topic.title, icon := topic.icon
            createdBy := topic.creatorId, closed := topic.closed, hidden := topic.hidden
            unreadCount :=
              state.topicUnreadCount actorId conversation.id topic.id serverTimeMs } }

/-- Invite tokens are bearer credentials: they are blanked for everyone who may
not invite. -/
def projectCommunityForActor (state : MessagingState) (actorId : ActorId)
    (community : CommunityState) (serverTimeMs : Int64) : CommunityState :=
  let isAdmin := community.hasMemberWith actorId fun member ↦
    member.status = .owner || member.status = .administrator
  let canInvite := community.canManageInvites actorId
  { community with
    pendingJoinRequests := if isAdmin && canInvite then community.pendingJoinRequests else ∅
    adminLog := if isAdmin then community.adminLog else []
    inviteLinks :=
      if canInvite then community.inviteLinks
      else community.inviteLinks.map fun _ invite ↦ { invite with token := "" }
    topics := community.topics.map fun _ topic ↦ { topic with
      unreadCount :=
        state.topicUnreadCount actorId community.conversationId topic.id serverTimeMs } }

def projectMessageForActor (state : MessagingState) (actorId : ActorId) (message : Message) :
    Message :=
  match message.content with
  | .poll question options anonymous multipleAnswers quiz =>
      let byActor := state.pollVotes[message.conversationId]?.bind fun messages ↦
        messages[message.id]?
      let selected := byActor.bind fun actors ↦ actors[actorId]?
      let options := options.map fun option ↦
        { option with chosen := selected.any fun ids ↦ ids.contains option.id }
      { message with content := .poll question options anonymous multipleAnswers quiz }
  | _ => message

/-! ## Synchronisation and search -/

def visibleActorIds (state : MessagingState) (actorId : ActorId)
    (conversations : List Conversation) : BTreeSet ActorId :=
  let ids := conversations.flatMap fun conversation ↦
    let participants := conversation.participants.filterMap fun participant ↦
      if state.actorCanSeeConversation participant.actorId conversation then
        some participant.actorId
      else none
    let community := match state.communities[conversation.id]? with
      | none => []
      | some community =>
          ((community.members.values.filter fun member ↦ !member.status.isGone).map
            fun member ↦ member.actorId) ++ community.subscribers.keys
    participants ++ community
  ExtTreeSet.ofList (ids ++ [actorId]) compare

def syncBatch (state : MessagingState) (actorId : ActorId) (limit : UInt32)
    (serverTimeMs : Int64) (cursor : UInt64) : SyncBatch :=
  let maxItems := max limit.toNat 1
  let visible : BTreeSet ConversationId := ExtTreeSet.ofList
    ((state.visibleConversations actorId).map fun conversation ↦ conversation.id) compare
  let conversations := visible.toList.filterMap fun id ↦ state.conversations[id]?
  let actorIds := state.visibleActorIds actorId conversations
  { actors := actorIds.toList.filterMap fun id ↦ state.actors[id]?
    conversations := conversations.map fun conversation ↦
      state.projectConversationForActor actorId conversation serverTimeMs
    messages :=
      let messages := visible.toList.flatMap fun id ↦
        (state.messages[id]?.map fun messages ↦ messages.values).getD []
      let kept := messages.filter fun message ↦
        !(message.deleted && message.isExpiredAt serverTimeMs)
      (kept.take maxItems).map (state.projectMessageForActor actorId)
    folders := (state.folders.values.filter fun folder ↦
      folder.conversationIds.any fun id ↦ visible.contains id).take maxItems
    drafts := visible.toList.filterMap fun id ↦
      state.drafts[id]?.bind fun byActor ↦ byActor[actorId]?
    topicDrafts := visible.toList.flatMap fun id ↦
      ((state.topicDrafts[id]?.bind fun byActor ↦ byActor[actorId]?).map
        fun byTopic ↦ byTopic.values).getD []
    invoices := (state.invoices.values.filter fun invoice ↦
      visible.contains invoice.conversationId).take maxItems
    orders := (state.orders.values.filter fun order ↦ order.buyerId = actorId ||
      state.invoices[order.invoiceId]?.any fun invoice ↦ invoice.sellerId = actorId).take maxItems
    stories := (state.stories.values.filter fun story ↦
      (story.pinnedToProfile || serverTimeMs < story.expiresAtMs) &&
        story.isVisibleTo actorId false false).take maxItems
    communities := ((visible.toList.filterMap fun id ↦ state.communities[id]?).take maxItems).map
      fun community ↦ state.projectCommunityForActor actorId community serverTimeMs
    bots := (state.bots.bots.values.filter fun profile ↦
      actorIds.contains profile.actorId).take maxItems
    botExecutions := (state.bots.executions.values.filter fun execution ↦
      execution.botId = actorId || actorIds.contains execution.botId).take maxItems
    miniApps := state.miniApps.values.take maxItems
    nextCursor := some (toString cursor.toNat) }

def searchIndex (state : MessagingState) (actorId : ActorId) : SearchIndex :=
  let conversations := state.conversations.values.filter fun conversation ↦
    state.actorCanSeeConversation actorId conversation ||
      (state.communities[conversation.id]?.bind fun community ↦ community.publicUsername).isSome
  let visible : BTreeSet ConversationId := ExtTreeSet.ofList
    (conversations.map fun conversation ↦ conversation.id) compare
  let messages := (visible.toList.flatMap fun id ↦
    (state.messages[id]?.map fun messages ↦ messages.values).getD []).filter
      fun message ↦ !message.deleted
  let listed := state.conversations.values.filter fun conversation ↦
    visible.contains conversation.id
  let index := state.actors.values.foldl SearchIndex.indexActor {}
  let index := listed.foldl SearchIndex.indexConversation index
  messages.foldl SearchIndex.indexMessage index

def walletStatus (state : MessagingState) (actorId : ActorId) : ServerEvent :=
  let accountId := walletAccountId actorId
  let entries := state.wallet.entries.values.filter fun entry ↦
    entry.fromAccountId = some accountId || entry.toAccountId = some accountId
  .walletStatus state.wallet.accounts[accountId]?
    ((entries.mergeSort fun left right ↦ right.createdAtMs ≤ left.createdAtMs).take 50)

/-! ## Journal audiences -/

def conversationAudience (conversation : Conversation) : List ActorId :=
  (conversation.participants.map fun participant ↦ participant.actorId) ++
    conversation.ownerId.toList

def conversationIdAudience (state : MessagingState) (conversationId : ConversationId) :
    List ActorId :=
  match state.conversations[conversationId]? with
  | none => []
  | some conversation =>
      match state.communities[conversationId]? with
      | none => conversationAudience conversation
      | some community =>
          let isChannel : Bool := conversation.kind = .channel
          let participants := conversation.participants.filter fun participant ↦
            conversation.isOwnedBy participant.actorId ||
              community.isActiveMember participant.actorId ||
              (isChannel && community.isSubscriber participant.actorId)
          let members := community.members.values.filter fun member ↦ !member.status.isGone
          (participants.map fun participant ↦ participant.actorId) ++
            (members.map fun member ↦ member.actorId) ++
            (if isChannel then community.subscribers.keys else []) ++
            conversation.ownerId.toList

def contactsAudience (state : MessagingState) (actorId : ActorId) : List ActorId :=
  actorId :: ((state.conversations.values.filter fun conversation ↦
    conversation.hasParticipant actorId).flatMap conversationAudience)

/-- Who an event is journalled for. Private state is kept to its owner, and the
deletion of expired messages never includes the actor whose request triggered it. -/
def eventAudience (state : MessagingState) (initiator : ActorId) (event : ServerEvent) :
    List ActorId :=
  let audience := match event with
    | .actorChanged actor => initiator :: state.contactsAudience actor.id
    | .presenceChanged actorId _ => initiator :: state.contactsAudience actorId
    | .conversationChanged conversation => initiator :: conversationAudience conversation
    | .conversationParticipantChanged conversation removedActorId =>
        initiator :: conversationAudience conversation ++ removedActorId.toList
    | .markedUnreadChanged _ actorId _ => [actorId]
    | .draftChanged draft => [draft.actorId]
    | .topicDraftChanged draft => [draft.actorId]
    | .messageAdded message | .messageChanged message =>
        initiator :: state.conversationIdAudience message.conversationId
    | .messagesDeleted conversationId _ => state.conversationIdAudience conversationId
    | .conversationMessageRetentionChanged conversationId _ _ | .readChanged conversationId _ _
    | .typingChanged conversationId _ _ _ =>
        initiator :: state.conversationIdAudience conversationId
    | .topicReadChanged _ _ actorId _ => [actorId]
    | .invoiceChanged invoice => initiator :: state.conversationIdAudience invoice.conversationId
    | .orderChanged order =>
        [initiator, order.buyerId] ++
          (state.invoices[order.invoiceId]?.map fun invoice ↦ invoice.sellerId).toList
    | .storyChanged story => [initiator, story.ownerId]
    | .communityChanged community =>
        initiator :: state.conversationIdAudience community.conversationId
    | .botChanged profile execution =>
        initiator :: ((profile.map fun profile ↦ profile.actorId).toList ++
          (execution.map fun execution ↦ execution.botId).toList)
    | .botInvocationRequested invocation =>
        [initiator, invocation.senderId, invocation.botId] ++
          state.conversationIdAudience invocation.conversationId
    | .miniAppOpened session => [initiator, session.actorId]
    | .miniAppResult sessionId _ _ =>
        initiator :: (state.miniAppSessions[sessionId]?.map fun session ↦ session.actorId).toList
    | _ => [initiator]
  (ExtTreeSet.ofList audience compare).toList

def publicJournalEnvelope (envelope : ServerEnvelope) : ServerEnvelope :=
  match envelope.event with
  | .communityChanged community =>
      { envelope with
        event := .communityChanged { community with
          adminLog := []
          pendingJoinRequests := ∅
          topics := community.topics.map fun _ topic ↦ { topic with unreadCount := 0 }
          inviteLinks := community.inviteLinks.map fun _ invite ↦ { invite with token := "" } } }
  | _ => envelope

/-- The journalled form of a response: communities are taken from the state, not
from the initiator's projection. -/
def journalEnvelope (state : MessagingState) (response : ServerEnvelope) : ServerEnvelope :=
  match response.event with
  | .communityChanged community =>
      let canonical := state.communities[community.conversationId]?.getD community
      publicJournalEnvelope { response with event := .communityChanged canonical }
  | _ => publicJournalEnvelope response

def isSyncBatch : ServerEvent → Bool
  | .syncBatch _ => true
  | _ => false

def journalEntries (state : MessagingState) (initiator : ActorId)
    (responses : List ServerEnvelope) : List JournalEntry :=
  (responses.filter fun response ↦ !isSyncBatch response.event).map fun response ↦
    { envelope := state.journalEnvelope response
      audience := state.eventAudience initiator response.event }

def projectJournalEnvelopeForActor (state : MessagingState) (actorId : ActorId)
    (envelope : ServerEnvelope) (serverTimeMs : Int64) : ServerEnvelope :=
  match envelope.event with
  | .communityChanged community =>
      { envelope with
        event := .communityChanged
          (state.projectCommunityForActor actorId community serverTimeMs) }
  | _ => publicJournalEnvelope envelope

/-! ## From engine events to server events -/

def conversationChanged (state : MessagingState) (actorId : ActorId)
    (conversationId : ConversationId) (serverTimeMs : Int64) : Option ServerEvent :=
  state.conversations[conversationId]?.map fun conversation ↦
    .conversationChanged (state.projectConversationForActor actorId conversation serverTimeMs)

def participantChanged (state : MessagingState) (actorId : ActorId)
    (conversationId : ConversationId) (removed : Option ActorId) (serverTimeMs : Int64) :
    Option ServerEvent :=
  state.conversations[conversationId]?.map fun conversation ↦
    .conversationParticipantChanged
      (state.projectConversationForActor actorId conversation serverTimeMs) removed

def messageChanged (state : MessagingState) (conversationId : ConversationId)
    (messageId : MessageId) : Option ServerEvent :=
  (state.findMessage conversationId messageId).map .messageChanged

def projectEvent (state : MessagingState) (actorId : ActorId) (serverTimeMs : Int64) :
    Event → Option ServerEvent
  | .actorUpserted actor => some (.actorChanged actor)
  | .presenceUpdated actorId presence => some (.presenceChanged actorId presence)
  | .conversationUpserted conversation => some (.conversationChanged
      (state.projectConversationForActor actorId conversation serverTimeMs))
  | .conversationInfoUpdated conversationId _ _ | .conversationArchived conversationId _
  | .conversationPinned conversationId _ | .conversationNotificationsUpdated conversationId _ =>
      state.conversationChanged actorId conversationId serverTimeMs
  | .conversationParticipantUpserted conversationId _ =>
      state.participantChanged actorId conversationId none serverTimeMs
  | .conversationParticipantRemoved conversationId removed =>
      state.participantChanged actorId conversationId (some removed) serverTimeMs
  | .conversationMessageRetentionUpdated conversationId retention =>
      some (.conversationMessageRetentionChanged conversationId
        (retention.policy.map fun policy ↦ policy.seconds) retention.revision)
  | .conversationMarkedUnread conversationId actorId markedUnread =>
      some (.markedUnreadChanged conversationId actorId markedUnread)
  | .draftChanged draft => some (.draftChanged draft)
  | .folderUpserted folder => some (.folderChanged folder)
  | .folderDeleted folderId => some (.folderDeleted folderId)
  | .messageQueued message => some (.messageAdded message)
  | .messageAcknowledged conversationId _ messageId _
  | .deliveryStateUpdated conversationId messageId _ | .messageEdited conversationId messageId _ _
  | .reactionUpdated conversationId messageId _ | .messagePinned conversationId messageId _
  | .pollVoteChanged conversationId messageId _ _ => state.messageChanged conversationId messageId
  | .messagesDeleted conversationId messageIds =>
      some (.messagesDeleted conversationId messageIds)
  | .conversationRead conversationId actorId messageId =>
      some (.readChanged conversationId actorId messageId)
  | .topicReadChanged conversationId topicId actorId messageId =>
      some (.topicReadChanged conversationId topicId actorId messageId)
  | .topicDraftChanged draft => some (.topicDraftChanged draft)
  | .invoiceCreated invoice => some (.invoiceChanged invoice)
  | .orderUpserted order => some (.orderChanged order)
  | .walletChanged .. => none
  | .storyChanged story => some (.storyChanged story)
  | .storyDeleted storyId => some (.storyDeleted storyId)
  | .communityChanged community => some (.communityChanged
      (state.projectCommunityForActor actorId community serverTimeMs))
  | .botRegistryChanged _ profile execution => some (.botChanged profile execution)
  | .miniAppInstalled manifest => some (.miniAppChanged manifest)
  | .miniAppGrantUpdated _ => none
  | .miniAppOpened session => some (.miniAppOpened session)
  | .miniAppResponded sessionId requestId response =>
      some (.miniAppResult sessionId requestId response)

/-! ## Bots addressed by a message -/

def sanitizeInvocationComponent (value : String) : String :=
  String.ofList ((value.toList.map fun c ↦
    if Text.isAsciiAlphanumeric c || c == '-' || c == '_' || c == ':' then c else '_').take 160)

def botCommandOf (text : String) : Option String :=
  match (Text.trim text).toList with
  | '/' :: rest =>
      let word := (rest.dropWhile Text.isWhitespace).takeWhile fun c ↦ !Text.isWhitespace c
      let command := word.dropWhile fun c ↦ c == '@'
      if command.isEmpty then none else some (String.ofList command)
  | _ => none

def botInvocationsForMessage (state : MessagingState) (message : Message) :
    List BotInvocation :=
  match state.actors[message.senderId]?, message.content,
      state.conversations[message.conversationId]? with
  | some sender, .text text, some conversation =>
      if sender.kind = .bot ∨ sender.kind = .assistant ∨ sender.kind = .service then []
      else conversation.participants.filterMap fun participant ↦
        match state.actors[participant.actorId]? with
        | none => none
        | some actor =>
            if participant.actorId = message.senderId ∨
                ¬ (actor.kind = .bot ∨ actor.kind = .assistant) then none
            else some
              { id := "invoke:auto:" ++ sanitizeInvocationComponent message.id.value ++ ":" ++
                  sanitizeInvocationComponent actor.id.value
                botId := actor.id, senderId := message.senderId
                conversationId := message.conversationId
                command := botCommandOf text.text, text
                replyToMessageId := message.replyToMessageId.map fun id ↦ id.value
                metadata := (((∅ : BTreeMap String String).insert "source"
                  "messaging-service").insert "messageId" message.id.value)
                createdAtMs := message.createdAtMs }
  | _, _, _ => []

end MessagingState

end Fabushi.Messaging
