import Fabushi.Messaging.Decide

/-!
# Applying events

`MessagingEngine::apply` folds one event into the state, and `execute` decides a
command and applies what was decided. A command that is refused leaves the state
as it was.
-/

namespace Fabushi.Messaging

open Std

def voterCount (votes : BTreeMap ActorId (BTreeSet String)) (optionId : String) : UInt32 :=
  MachineInt.saturatingU32 (votes.values.filter fun selected ↦ selected.contains optionId).length

def MessageContent.recount (votes : BTreeMap ActorId (BTreeSet String)) :
    MessageContent → MessageContent
  | .poll question options anonymous multipleAnswers quiz =>
      let options := options.map fun option ↦
        { option with voterCount := voterCount votes option.id, chosen := false }
      .poll question options anonymous multipleAnswers quiz
  | content => content

namespace MessagingState

def updateConversation (state : MessagingState) (id : ConversationId)
    (f : Conversation → Conversation) : MessagingState :=
  { state with conversations := BTreeMap.update state.conversations id f }

def updateMessage (state : MessagingState) (conversationId : ConversationId)
    (messageId : MessageId) (f : Message → Message) : MessagingState :=
  { state with
    messages := BTreeMap.update state.messages conversationId fun messages ↦
      BTreeMap.update messages messageId f }

def clearMarkedUnread (marked : BTreeMap ConversationId (BTreeSet ActorId))
    (conversationId : ConversationId) (actorId : ActorId) :
    BTreeMap ConversationId (BTreeSet ActorId) :=
  match marked[conversationId]? with
  | none => marked
  | some actors =>
      let actors := actors.erase actorId
      if actors.isEmpty then marked.erase conversationId else marked.insert conversationId actors

def applyParticipantUpserted (participant : Participant) (conversation : Conversation) :
    Conversation :=
  let participants := conversation.participants
  { conversation with
    participants :=
      match participants.findIdx? fun item ↦ item.actorId = participant.actorId with
      | some index => participants.set index participant
      | none => participants ++ [participant] }

def applyParticipantRemoved (state : MessagingState) (conversationId : ConversationId)
    (actorId : ActorId) : MessagingState :=
  { state with
    conversations := BTreeMap.update state.conversations conversationId fun conversation ↦
      { conversation with
        participants := conversation.participants.filter fun participant ↦
          participant.actorId ≠ actorId }
    readCursors := BTreeMap.update state.readCursors conversationId fun cursors ↦
      cursors.erase actorId
    drafts := BTreeMap.update state.drafts conversationId fun drafts ↦ drafts.erase actorId
    topicReadCursors := BTreeMap.update state.topicReadCursors conversationId fun cursors ↦
      cursors.erase actorId
    topicDrafts := BTreeMap.update state.topicDrafts conversationId fun drafts ↦
      drafts.erase actorId
    markedUnreadByActor := BTreeMap.update state.markedUnreadByActor conversationId fun marked ↦
      marked.erase actorId }

def applyMarkedUnread (state : MessagingState) (conversationId : ConversationId)
    (actorId : ActorId) (markedUnread : Bool) : MessagingState :=
  let actors := state.markedUnreadByActor[conversationId]?.getD ∅
  let actors := if markedUnread then actors.insert actorId else actors.erase actorId
  { state with
    markedUnreadByActor :=
      if actors.isEmpty then state.markedUnreadByActor.erase conversationId
      else state.markedUnreadByActor.insert conversationId actors
    conversations := BTreeMap.update state.conversations conversationId fun conversation ↦
      { conversation with markedUnread } }

def changeDraft (drafts : BTreeMap ConversationId (BTreeMap ActorId ConversationDraft))
    (draft : ConversationDraft) : BTreeMap ConversationId (BTreeMap ActorId ConversationDraft) :=
  if Text.isBlank draft.text ∧ draft.replyToMessageId = none then
    match drafts[draft.conversationId]? with
    | none => drafts
    | some byActor =>
        let byActor := byActor.erase draft.actorId
        if byActor.isEmpty then drafts.erase draft.conversationId
        else drafts.insert draft.conversationId byActor
  else
    BTreeMap.upsert drafts draft.conversationId ∅ fun byActor ↦
      byActor.insert draft.actorId draft

def changeTopicDraft
    (drafts : BTreeMap ConversationId (BTreeMap ActorId (BTreeMap String TopicDraft)))
    (draft : TopicDraft) :
    BTreeMap ConversationId (BTreeMap ActorId (BTreeMap String TopicDraft)) :=
  if Text.isBlank draft.text ∧ draft.replyToMessageId = none then
    match drafts[draft.conversationId]? with
    | none => drafts
    | some byActor =>
        let byActor := match byActor[draft.actorId]? with
          | none => byActor
          | some byTopic =>
              let byTopic := byTopic.erase draft.topicId
              if byTopic.isEmpty then byActor.erase draft.actorId
              else byActor.insert draft.actorId byTopic
        if byActor.isEmpty then drafts.erase draft.conversationId
        else drafts.insert draft.conversationId byActor
  else
    BTreeMap.upsert drafts draft.conversationId ∅ fun byActor ↦
      BTreeMap.upsert byActor draft.actorId ∅ fun byTopic ↦ byTopic.insert draft.topicId draft

def applyMessageQueued (state : MessagingState) (message : Message) : MessagingState :=
  { state with
    conversations := BTreeMap.update state.conversations message.conversationId
      fun conversation ↦ { conversation with
        lastMessageId := some message.id.value
        updatedAtMs := message.createdAtMs }
    messages := BTreeMap.upsert state.messages message.conversationId ∅ fun messages ↦
      messages.insert message.id message
    communities :=
      match message.threadRootMessageId.bind topicIdFromRoot with
      | none => state.communities
      | some topicId =>
          BTreeMap.update state.communities message.conversationId fun community ↦
            { community with
              topics := BTreeMap.update community.topics topicId fun topic ↦
                { topic with lastMessageId := some message.id.value } } }

def applyMessageAcknowledged (state : MessagingState) (conversationId : ConversationId)
    (localMessageId serverMessageId : MessageId) (acceptedAtMs : Int64) : MessagingState :=
  { state with
    messages := BTreeMap.update state.messages conversationId fun messages ↦
      match messages[localMessageId]? with
      | none => messages
      | some message =>
          (messages.erase localMessageId).insert serverMessageId { message with
            id := serverMessageId
            deliveryState := .sent
            createdAtMs := acceptedAtMs }
    conversations := BTreeMap.update state.conversations conversationId fun conversation ↦
      if conversation.lastMessageId = some localMessageId.value then
        { conversation with lastMessageId := some serverMessageId.value }
      else conversation }

def applyMessagesDeleted (state : MessagingState) (conversationId : ConversationId)
    (messageIds : List MessageId) : MessagingState :=
  { state with
    messages := BTreeMap.update state.messages conversationId fun messages ↦
      messageIds.foldl (fun messages id ↦
        BTreeMap.update messages id fun message ↦ { message with deleted := true }) messages }

def applyConversationRead (state : MessagingState) (conversationId : ConversationId)
    (actorId : ActorId) (messageId : MessageId) : MessagingState :=
  { state with
    readCursors := BTreeMap.upsert state.readCursors conversationId ∅ fun cursors ↦
      cursors.insert actorId messageId
    markedUnreadByActor := clearMarkedUnread state.markedUnreadByActor conversationId actorId
    -- these fields of the conversation are kept for older readers
    conversations := BTreeMap.update state.conversations conversationId fun conversation ↦
      { conversation with
        lastReadMessageId := some messageId.value
        unreadCount := 0
        markedUnread := false } }

def applyMessagePinned (state : MessagingState) (conversationId : ConversationId)
    (messageId : MessageId) (pinned : Bool) : MessagingState :=
  (state.updateMessage conversationId messageId fun message ↦
    { message with pinned }).updateConversation conversationId fun conversation ↦
      let others := conversation.pinnedMessageIds.filter fun id ↦ id ≠ messageId.value
      { conversation with
        pinnedMessageIds := if pinned then others ++ [messageId.value] else others }

def applyPollVoteChanged (state : MessagingState) (conversationId : ConversationId)
    (messageId : MessageId) (actorId : ActorId) (optionIds : List String) : MessagingState :=
  let selected : BTreeSet String := ExtTreeSet.ofList optionIds compare
  let byMessage := state.pollVotes[conversationId]?.getD ∅
  let byActor := byMessage[messageId]?.getD ∅
  let byActor := if selected.isEmpty then byActor.erase actorId else byActor.insert actorId selected
  let state := { state with
    pollVotes := state.pollVotes.insert conversationId (byMessage.insert messageId byActor) }
  state.updateMessage conversationId messageId fun message ↦
    { message with content := message.content.recount byActor }

def apply (state : MessagingState) : Event → MessagingState
  | .actorUpserted actor => { state with actors := state.actors.insert actor.id actor }
  | .presenceUpdated actorId presence =>
      { state with
        actors := BTreeMap.update state.actors actorId fun actor ↦ { actor with presence } }
  | .conversationUpserted conversation =>
      { state with conversations := state.conversations.insert conversation.id conversation }
  | .conversationInfoUpdated conversationId title description =>
      state.updateConversation conversationId fun conversation ↦
        { conversation with title, description }
  | .conversationParticipantUpserted conversationId participant =>
      state.updateConversation conversationId (applyParticipantUpserted participant)
  | .conversationParticipantRemoved conversationId actorId =>
      state.applyParticipantRemoved conversationId actorId
  | .conversationArchived conversationId archived =>
      state.updateConversation conversationId fun conversation ↦ { conversation with archived }
  | .conversationPinned conversationId pinned =>
      state.updateConversation conversationId fun conversation ↦ { conversation with pinned }
  | .conversationMarkedUnread conversationId actorId markedUnread =>
      state.applyMarkedUnread conversationId actorId markedUnread
  | .draftChanged draft => { state with drafts := changeDraft state.drafts draft }
  | .conversationNotificationsUpdated conversationId settings =>
      state.updateConversation conversationId fun conversation ↦
        { conversation with notificationSettings := settings }
  | .conversationMessageRetentionUpdated conversationId retention =>
      state.updateConversation conversationId fun conversation ↦
        { conversation with
          messageRetentionSeconds := retention.policy.map fun policy ↦ policy.seconds
          retentionRevision := retention.revision }
  | .folderUpserted folder => { state with folders := state.folders.insert folder.id folder }
  | .folderDeleted folderId =>
      { state with
        folders := state.folders.erase folderId
        conversations := state.conversations.map fun _ conversation ↦
          { conversation with
            folderIds := conversation.folderIds.filter fun id ↦ id ≠ folderId } }
  | .messageQueued message => state.applyMessageQueued message
  | .messageAcknowledged conversationId localMessageId serverMessageId acceptedAtMs =>
      state.applyMessageAcknowledged conversationId localMessageId serverMessageId acceptedAtMs
  | .deliveryStateUpdated conversationId messageId deliveryState =>
      state.updateMessage conversationId messageId fun message ↦ { message with deliveryState }
  | .messageEdited conversationId messageId content editedAtMs =>
      state.updateMessage conversationId messageId fun message ↦
        { message with content, editedAtMs := some editedAtMs }
  | .messagesDeleted conversationId messageIds =>
      state.applyMessagesDeleted conversationId messageIds
  | .conversationRead conversationId actorId messageId =>
      state.applyConversationRead conversationId actorId messageId
  | .topicReadChanged conversationId topicId actorId messageId =>
      { state with
        topicReadCursors := BTreeMap.upsert state.topicReadCursors conversationId ∅ fun byActor ↦
          BTreeMap.upsert byActor actorId ∅ fun byTopic ↦ byTopic.insert topicId messageId }
  | .topicDraftChanged draft =>
      { state with topicDrafts := changeTopicDraft state.topicDrafts draft }
  | .reactionUpdated conversationId messageId reaction =>
      state.updateMessage conversationId messageId fun message ↦
        let others := message.reactions.filter fun item ↦ item.reaction ≠ reaction.reaction
        { message with
          reactions := if 0 < reaction.count then others ++ [reaction] else others }
  | .messagePinned conversationId messageId pinned =>
      state.applyMessagePinned conversationId messageId pinned
  | .pollVoteChanged conversationId messageId actorId optionIds =>
      state.applyPollVoteChanged conversationId messageId actorId optionIds
  | .invoiceCreated invoice => { state with invoices := state.invoices.insert invoice.id invoice }
  | .orderUpserted order => { state with orders := state.orders.insert order.id order }
  | .walletChanged wallet _ => { state with wallet }
  | .storyChanged story => { state with stories := state.stories.insert story.id story }
  | .storyDeleted storyId => { state with stories := state.stories.erase storyId }
  | .communityChanged community =>
      { state with
        communities := state.communities.insert community.conversationId community }
  | .botRegistryChanged registry _ _ => { state with bots := registry }
  | .miniAppInstalled manifest =>
      { state with miniApps := state.miniApps.insert manifest.id manifest }
  | .miniAppGrantUpdated grant =>
      { state with
        miniAppGrants := state.miniAppGrants.insert ⟨grant.miniAppId, grant.actorId⟩ grant }
  | .miniAppOpened session =>
      { state with miniAppSessions := state.miniAppSessions.insert session.id session }
  | .miniAppResponded .. => state

def applyAll (state : MessagingState) (events : List Event) : MessagingState :=
  events.foldl apply state

def execute (state : MessagingState) (command : Command) : MessagingState × Decision :=
  match state.decide command with
  | .error error => (state, .error error)
  | .ok events => (state.applyAll events, .ok events)

def completePaidOrder (state : MessagingState) (orderId : String) (updatedAtMs : Int64) :
    MessagingState × Decision :=
  match state.orders[orderId]? with
  | none => (state, .error (.orderNotFound orderId))
  | some order => state.execute (.upsertOrder { order with status := .paid, updatedAtMs })

end MessagingState

end Fabushi.Messaging
