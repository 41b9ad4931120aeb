import Fabushi.Messaging.Community
import Fabushi.Messaging.Surfaces
import Fabushi.Messaging.Wallet

/-!
# Commands, events and the state of the messaging engine

The alphabet of `engine.rs`: what a client may ask for, what the engine records
as having happened, and the state that the events are folded into.
-/

namespace Fabushi.Messaging

inductive Command where
  | upsertActor (actor : Actor)
  | setPresence (actorId : ActorId) (presence : Presence)
  | upsertConversation (conversation : Conversation)
  | updateConversationInfo (conversationId : ConversationId) (title : String)
      (description : Option String)
  | setConversationParticipant (conversationId : ConversationId) (participant : Participant)
  | removeConversationParticipant (conversationId : ConversationId) (actorId : ActorId)
  | archiveConversation (conversationId : ConversationId) (archived : Bool)
  | pinConversation (conversationId : ConversationId) (pinned : Bool)
  | setMarkedUnread (conversationId : ConversationId) (actorId : ActorId) (markedUnread : Bool)
  | setDraft (draft : ConversationDraft)
  | setConversationNotifications (conversationId : ConversationId)
      (settings : NotificationSettings)
  | setConversationMessageRetention (conversationId : ConversationId)
      (retentionSeconds : Option UInt32) (expectedRevision : UInt64)
  | upsertFolder (folder : ConversationFolder)
  | deleteFolder (folderId : String)
  | queueMessage (conversationId : ConversationId) (localMessageId : MessageId)
      (clientMessageId : ClientMessageId) (senderId : ActorId) (content : MessageContent)
      (replyToMessageId threadRootMessageId : Option MessageId) (createdAtMs : Int64)
      (scheduledAtMs : Option Int64) (silent protectedContent : Bool)
  | forwardMessage (sourceConversationId : ConversationId) (messageId : MessageId)
      (destinationConversationId : ConversationId) (localMessageId : MessageId)
      (clientMessageId : ClientMessageId) (senderId : ActorId) (createdAtMs : Int64)
  | acknowledgeMessage (conversationId : ConversationId)
      (localMessageId serverMessageId : MessageId) (acceptedAtMs : Int64)
  | setDeliveryState (conversationId : ConversationId) (messageId : MessageId)
      (state : DeliveryState)
  | editMessage (conversationId : ConversationId) (messageId : MessageId)
      (content : MessageContent) (editedAtMs : Int64)
  | deleteMessages (conversationId : ConversationId) (messageIds : List MessageId)
  | markRead (conversationId : ConversationId) (actorId : ActorId) (messageId : MessageId)
  | markTopicRead (conversationId : ConversationId) (topicId : String) (actorId : ActorId)
      (messageId : MessageId)
  | setTopicDraft (draft : TopicDraft)
  | setReaction (conversationId : ConversationId) (messageId : MessageId)
      (reaction : ReactionSummary)
  | pinMessage (conversationId : ConversationId) (messageId : MessageId) (pinned : Bool)
  | votePoll (conversationId : ConversationId) (messageId : MessageId) (actorId : ActorId)
      (optionIds : List String)
  | createInvoice (invoice : Invoice)
  | upsertOrder (order : PaymentOrder)
  | checkoutInvoice (invoiceId orderId : String) (buyerId : ActorId)
      (customer : Option CustomerInfo) (createdAtMs : Int64)
  | refundOrder (orderId : String) (sellerId : ActorId) (requestId : String)
      (refundedAtMs : Int64)
  | creditWalletSettlement (requestId : String) (ownerId : ActorId) (amount : Money)
      (reference : Option String) (settledAtMs : Int64)
  | publishStory (actorId : ActorId) (story : Story)
  | deleteStory (actorId : ActorId) (storyId : StoryId)
  | viewStory (actorId : ActorId) (storyId : StoryId) (viewedAtMs : Int64)
  | reactStory (actorId : ActorId) (storyId : StoryId) (reaction : Option String)
  | updateCommunity (actorId : ActorId) (community : CommunityState)
  | subscribeChannel (actorId : ActorId) (conversationId : ConversationId)
      (subscribedAtMs : Int64)
  | unsubscribeChannel (actorId : ActorId) (conversationId : ConversationId)
      (unsubscribedAtMs : Int64)
  | setCommunitySlowMode (actorId : ActorId) (conversationId : ConversationId)
      (seconds : Option UInt32) (changedAtMs : Int64)
  | moderateCommunityMember (actorId : ActorId) (conversationId : ConversationId)
      (member : CommunityMember) (reason : Option String) (decidedAtMs : Int64)
  | setCommunityMember (actorId : ActorId) (conversationId : ConversationId)
      (member : CommunityMember)
  | createInviteLink (actorId : ActorId) (invite : InviteLink)
  | revokeInviteLink (actorId : ActorId) (conversationId : ConversationId) (inviteId : String)
      (revokedAtMs : Int64)
  | requestCommunityJoin (actorId : ActorId) (request : JoinRequest)
  | respondCommunityJoin (actorId : ActorId) (conversationId : ConversationId)
      (requesterId : ActorId) (approved : Bool) (decidedAtMs : Int64)
  | upsertForumTopic (actorId : ActorId) (topic : ForumTopicState)
  | deleteForumTopic (actorId : ActorId) (conversationId : ConversationId) (topicId : String)
  | registerBot (actorId : ActorId) (profile : BotProfile)
  | beginBotInvocation (actorId : ActorId) (invocation : BotInvocation) (createdAtMs : Int64)
  | finishBotExecution (actorId : ActorId) (executionId : String) (success : Bool)
      (finishedAtMs : Int64) (error : Option String)
  | installMiniApp (manifest : MiniAppManifest)
  | grantMiniApp (grant : MiniAppGrant)
  | openMiniApp (session : MiniAppSession)
  | miniAppCall (sessionId requestId : String) (request : MiniAppRequest)

inductive Event where
  | actorUpserted (actor : Actor)
  | presenceUpdated (actorId : ActorId) (presence : Presence)
  | conversationUpserted (conversation : Conversation)
  | conversationInfoUpdated (conversationId : ConversationId) (title : String)
      (description : Option String)
  | conversationParticipantUpserted (conversationId : ConversationId)
      (participant : Participant)
  | conversationParticipantRemoved (conversationId : ConversationId) (actorId : ActorId)
  | conversationArchived (conversationId : ConversationId) (archived : Bool)
  | conversationPinned (conversationId : ConversationId) (pinned : Bool)
  | conversationMarkedUnread (conversationId : ConversationId) (actorId : ActorId)
      (markedUnread : Bool)
  | draftChanged (draft : ConversationDraft)
  | conversationNotificationsUpdated (conversationId : ConversationId)
      (settings : NotificationSettings)
  | conversationMessageRetentionUpdated (conversationId : ConversationId)
      (retention : ConversationMessageRetention)
  | folderUpserted (folder : ConversationFolder)
  | folderDeleted (folderId : String)
  | messageQueued (message : Message)
  | messageAcknowledged (conversationId : ConversationId)
      (localMessageId serverMessageId : MessageId) (acceptedAtMs : Int64)
  | deliveryStateUpdated (conversationId : ConversationId) (messageId : MessageId)
      (state : DeliveryState)
  | messageEdited (conversationId : ConversationId) (messageId : MessageId)
      (content : MessageContent) (editedAtMs : Int64)
  | messagesDeleted (conversationId : ConversationId) (messageIds : List MessageId)
  | conversationRead (conversationId : ConversationId) (actorId : ActorId)
      (messageId : MessageId)
  | topicReadChanged (conversationId : ConversationId) (topicId : String) (actorId : ActorId)
      (messageId : MessageId)
  | topicDraftChanged (draft : TopicDraft)
  | reactionUpdated (conversationId : ConversationId) (messageId : MessageId)
      (reaction : ReactionSummary)
  | messagePinned (conversationId : ConversationId) (messageId : MessageId) (pinned : Bool)
  | pollVoteChanged (conversationId : ConversationId) (messageId : MessageId)
      (actorId : ActorId) (optionIds : List String)
  | invoiceCreated (invoice : Invoice)
  | orderUpserted (order : PaymentOrder)
  | walletChanged (wallet : WalletLedger) (entry : LedgerEntry)
  | storyChanged (story : Story)
  | storyDeleted (storyId : StoryId)
  | communityChanged (community : CommunityState)
  | botRegistryChanged (registry : BotRegistry) (profile : Option BotProfile)
      (execution : Option BotExecution)
  | miniAppInstalled (manifest : MiniAppManifest)
  | miniAppGrantUpdated (grant : MiniAppGrant)
  | miniAppOpened (session : MiniAppSession)
  | miniAppResponded (sessionId requestId : String) (response : MiniAppResponse)

structure MessagingState where
  actors : BTreeMap ActorId Actor := ∅
  conversations : BTreeMap ConversationId Conversation := ∅
  folders : BTreeMap String ConversationFolder := ∅
  messages : BTreeMap ConversationId (BTreeMap MessageId Message) := ∅
  readCursors : BTreeMap ConversationId (BTreeMap ActorId MessageId) := ∅
  topicReadCursors :
    BTreeMap ConversationId (BTreeMap ActorId (BTreeMap String MessageId)) := ∅
  pollVotes :
    BTreeMap ConversationId (BTreeMap MessageId (BTreeMap ActorId (BTreeSet String))) := ∅
  markedUnreadByActor : BTreeMap ConversationId (BTreeSet ActorId) := ∅
  drafts : BTreeMap ConversationId (BTreeMap ActorId ConversationDraft) := ∅
  topicDrafts : BTreeMap ConversationId (BTreeMap ActorId (BTreeMap String TopicDraft)) := ∅
  invoices : BTreeMap String Invoice := ∅
  orders : BTreeMap String PaymentOrder := ∅
  wallet : WalletLedger := {}
  stories : BTreeMap StoryId Story := ∅
  communities : BTreeMap ConversationId CommunityState := ∅
  bots : BotRegistry := {}
  miniApps : BTreeMap String MiniAppManifest := ∅
  miniAppGrants : BTreeMap MiniAppGrantKey MiniAppGrant := ∅
  miniAppSessions : BTreeMap String MiniAppSession := ∅

/-- Bot failures carry the error itself; the source keeps its rendered text, and
reports a missing execution with a text of its own. -/
inductive EngineError where
  | invalidActor
  | actorNotFound (id : ActorId)
  | invalidConversation
  | conversationNotFound (id : ConversationId)
  | invalidConversationParticipant
  | messageNotFound (conversationId : ConversationId) (messageId : MessageId)
  | duplicateMessage (conversationId : ConversationId) (messageId : MessageId)
  | invalidClientMessageId
  | emptyMessageList
  | invalidPollVote
  | protectedContent
  | senderNotParticipant (conversationId : ConversationId) (actorId : ActorId)
  | messageSendPermissionDenied (id : ConversationId)
  | mediaSendPermissionDenied (id : ConversationId)
  | pollSendPermissionDenied (id : ConversationId)
  | messageRetention (error : MessageRetentionError)
  | invalidSecretConversation
  | secretPlaintextRejected
  | secretContentOutsideSecretConversation
  | secretEnvelopeMismatch
  | invalidStory
  | storyNotFound (id : StoryId)
  | storyPermissionDenied (id : StoryId)
  | story (error : StoryError)
  | communityNotFound (id : ConversationId)
  | communityPermissionDenied
  | communitySendRestricted (id : ConversationId)
  | communityMediaRestricted (id : ConversationId)
  | communityPollRestricted (id : ConversationId)
  | communityAccessDenied (conversationId : ConversationId) (actorId : ActorId)
  | slowModeActive (conversationId : ConversationId) (retryAtMs : Int64)
  | forumTopicNotFound (conversationId : ConversationId) (topicId : String)
  | forumTopicClosed (conversationId : ConversationId) (topicId : String)
  | topicMessageMismatch (topicId : String)
  | community (error : CommunityError)
  | botPermissionDenied
  | bot (error : BotError)
  | botExecutionNotFound (id : String)
  | invalidInvoice
  | invoiceNotFound (id : String)
  | orderNotFound (id : String)
  | invoiceExpired (id : String)
  | orderConflict (id : String)
  | refundForbidden (id : String)
  | orderNotRefundable (id : String)
  | wallet (error : WalletError)
  | miniAppNotFound (id : String)
  | miniAppSessionNotFound (id : String)
  | miniAppPermissionDenied (permission : MiniAppPermission)
  | miniAppHostActionRequired

end Fabushi.Messaging
