import Fabushi.Messaging.Command
import Fabushi.Messaging.Search

/-!
# The client protocol

`protocol.rs` together with the values that the two stores behind the service
exchange with it: snapshots, journal entries and blob metadata.
-/

namespace Fabushi.Messaging

def protocolVersion : UInt16 := 2

structure RequestContext where
  requestId : String
  deviceId : String
  actorId : ActorId
  sessionId : String
  sentAtMs : Int64

structure BlobMetadata where
  id : BlobId
  fileName : String
  mimeType : String
  sizeBytes : UInt64
  contentHash : Option String
  createdAtMs : Int64

structure BlobUploadStatus where
  id : BlobId
  sizeBytes : UInt64
  uploadedBytes : UInt64
  complete : Bool

inductive ClientCommand where
  | sync (cursor : Option String) (limit : UInt32)
  | search (query : SearchQuery)
  | upsertProfile (actor : Actor)
  | setPresence (presence : Presence)
  | createConversation (conversation : Conversation)
  | updateConversation (conversation : Conversation)
  | updateConversationInfo (conversationId : ConversationId) (title : String)
      (description : Option String)
  | setConversationParticipant (conversationId : ConversationId) (participant : Participant)
  | removeConversationParticipant (conversationId : ConversationId) (actorId : ActorId)
  | archiveConversation (conversationId : ConversationId) (archived : Bool)
  | pinConversation (conversationId : ConversationId) (pinned : Bool)
  | setMarkedUnread (conversationId : ConversationId) (markedUnread : Bool)
  | setDraft (conversationId : ConversationId) (text : String)
      (replyToMessageId : Option MessageId)
  | setConversationNotifications (conversationId : ConversationId)
      (settings : NotificationSettings)
  | setConversationMessageRetention (conversationId : ConversationId)
      (retentionSeconds : Option UInt32) (expectedRevision : UInt64)
  | upsertFolder (folder : ConversationFolder)
  | deleteFolder (folderId : String)
  | sendMessage (conversationId : ConversationId) (clientMessageId : ClientMessageId)
      (content : MessageContent) (replyToMessageId threadRootMessageId : Option MessageId)
      (scheduledAtMs : Option Int64) (silent protectedContent : Bool)
  | forwardMessage (sourceConversationId : ConversationId) (messageId : MessageId)
      (destinationConversationId : ConversationId) (clientMessageId : ClientMessageId)
  | beginBlobUpload (metadata : BlobMetadata)
  | appendBlobChunk (blobId : BlobId) (offset : UInt64) (dataBase64 : String)
  | finishBlobUpload (blobId : BlobId)
  | deleteBlob (blobId : BlobId)
  | editMessage (conversationId : ConversationId) (messageId : MessageId)
      (content : MessageContent)
  | deleteMessages (conversationId : ConversationId) (messageIds : List MessageId)
      (forEveryone : Bool)
  | markRead (conversationId : ConversationId) (messageId : MessageId)
  | markTopicRead (conversationId : ConversationId) (topicId : String) (messageId : MessageId)
  | setTopicDraft (conversationId : ConversationId) (topicId text : String)
      (replyToMessageId : Option MessageId)
  | setReaction (conversationId : ConversationId) (messageId : MessageId)
      (reaction : ReactionSummary)
  | pinMessage (conversationId : ConversationId) (messageId : MessageId) (pinned : Bool)
  | votePoll (conversationId : ConversationId) (messageId : MessageId) (optionIds : List String)
  | startTyping (conversationId : ConversationId) (action : String)
  | stopTyping (conversationId : ConversationId)
  | createInvoice (invoice : Invoice)
  | checkoutInvoice (invoiceId orderId : String) (customer : Option CustomerInfo)
  | refundOrder (orderId requestId : String)
  | walletStatus
  | publishStory (story : Story)
  | deleteStory (storyId : StoryId)
  | viewStory (storyId : StoryId)
  | reactStory (storyId : StoryId) (reaction : Option String)
  | updateCommunity (community : CommunityState)
  | subscribeChannel (conversationId : ConversationId)
  | unsubscribeChannel (conversationId : ConversationId)
  | listCommunityMembers (conversationId : ConversationId) (cursor : Option String)
      (limit : UInt32)
  | listCommunityAuditLog (conversationId : ConversationId) (cursor : Option String)
      (limit : UInt32)
  | setCommunitySlowMode (conversationId : ConversationId) (seconds : Option UInt32)
  | moderateCommunityMember (conversationId : ConversationId) (member : CommunityMember)
      (reason : Option String)
  | setCommunityMember (conversationId : ConversationId) (member : CommunityMember)
  | createInviteLink (invite : InviteLink)
  | revokeInviteLink (conversationId : ConversationId) (inviteId : String)
  | requestCommunityJoin (request : JoinRequest)
  | respondCommunityJoin (conversationId : ConversationId) (requesterId : ActorId)
      (approved : Bool)
  | upsertForumTopic (topic : ForumTopicState)
  | deleteForumTopic (conversationId : ConversationId) (topicId : String)
  | registerBot (profile : BotProfile)
  | invokeBot (invocation : BotInvocation)
  | finishBotExecution (executionId : String) (success : Bool) (error : Option String)
  | installMiniApp (manifest : MiniAppManifest)
  | grantMiniApp (grant : MiniAppGrant)
  | openMiniApp (session : MiniAppSession)
  | miniAppCall (sessionId requestId : String) (request : MiniAppRequest)

structure ClientEnvelope where
  protocolVersion : UInt16
  context : RequestContext
  command : ClientCommand

structure SyncBatch where
  actors : List Actor := []
  conversations : List Conversation := []
  messages : List Message := []
  folders : List ConversationFolder := []
  drafts : List ConversationDraft := []
  topicDrafts : List TopicDraft := []
  invoices : List Invoice := []
  orders : List PaymentOrder := []
  stories : List Story := []
  communities : List CommunityState := []
  bots : List BotProfile := []
  botExecutions : List BotExecution := []
  miniApps : List MiniAppManifest := []
  nextCursor : Option String

inductive ServerEvent where
  | syncBatch (batch : SyncBatch)
  | searchResults (query : SearchQuery) (results : List SearchResult)
  | actorChanged (actor : Actor)
  | presenceChanged (actorId : ActorId) (presence : Presence)
  | conversationChanged (conversation : Conversation)
  | conversationMessageRetentionChanged (conversationId : ConversationId)
      (retentionSeconds : Option UInt32) (revision : UInt64)
  | conversationParticipantChanged (conversation : Conversation)
      (removedActorId : Option ActorId)
  | markedUnreadChanged (conversationId : ConversationId) (actorId : ActorId)
      (markedUnread : Bool)
  | draftChanged (draft : ConversationDraft)
  | topicDraftChanged (draft : TopicDraft)
  | folderChanged (folder : ConversationFolder)
  | folderDeleted (folderId : String)
  | messageAdded (message : Message)
  | messageChanged (message : Message)
  | blobUploadChanged (status : BlobUploadStatus)
  | blobReady (metadata : BlobMetadata)
  | blobDeleted (blobId : BlobId)
  | messagesDeleted (conversationId : ConversationId) (messageIds : List MessageId)
  | readChanged (conversationId : ConversationId) (actorId : ActorId) (messageId : MessageId)
  | topicReadChanged (conversationId : ConversationId) (topicId : String) (actorId : ActorId)
      (messageId : MessageId)
  | typingChanged (conversationId : ConversationId) (actorId : ActorId)
      (action : Option String) (expiresAtMs : Option Int64)
  | invoiceChanged (invoice : Invoice)
  | orderChanged (order : PaymentOrder)
  | walletStatus (account : Option WalletAccount) (recentEntries : List LedgerEntry)
  | storyChanged (story : Story)
  | storyDeleted (storyId : StoryId)
  | communityChanged (community : CommunityState)
  | communityMembersPage (conversationId : ConversationId) (members : List CommunityMember)
      (nextCursor : Option String)
  | communityAuditLogPage (conversationId : ConversationId) (entries : List CommunityAuditEntry)
      (nextCursor : Option String)
  | botChanged (profile : Option BotProfile) (execution : Option BotExecution)
  | botInvocationRequested (invocation : BotInvocation)
  | miniAppChanged (manifest : MiniAppManifest)
  | miniAppOpened (session : MiniAppSession)
  | miniAppResult (sessionId requestId : String) (response : MiniAppResponse)
  | error (requestId : Option String) (code message : String) (retryable : Bool)

structure ServerEnvelope where
  protocolVersion : UInt16 := Messaging.protocolVersion
  cursor : Option String
  serverTimeMs : Int64
  event : ServerEvent

/-! ## The stores behind the service -/

structure MessagingSnapshot where
  schemaVersion : UInt32 := 1
  cursor : UInt64
  savedAtMs : Int64
  state : MessagingState

structure JournalEntry where
  envelope : ServerEnvelope
  audience : List ActorId

structure EventJournalSlice where
  floorCursor : UInt64
  currentCursor : UInt64
  checkpointCursor : UInt64
  hasMore : Bool
  entries : List JournalEntry

inductive StoreError where
  | failed (message : String)
  | invalidCursor
  | missingEventCursor
  | unsupportedSchema (expected actual : UInt32)
  | unsupportedSqliteSchema (expected actual : UInt32)

/-- A state store; a failing save may leave the store changed. -/
class MessagingStateStore (S : Type) where
  load : S → Except StoreError (Option MessagingSnapshot)
  save : S → MessagingSnapshot → S × Except StoreError Unit
  saveWithEvents : S → MessagingSnapshot → List JournalEntry → S × Except StoreError Unit
  loadEventJournalAfter : S → UInt64 → ℕ → Except StoreError (Option EventJournalSlice)

inductive BlobStoreError where
  | invalidBlobId (value : String)
  | invalidFileName
  | invalidMimeType
  | alreadyExists (id : BlobId)
  | notFound (id : BlobId)
  | missingMetadata (path : String)
  | emptyChunk
  | sizeOverflow
  | unexpectedOffset (id : BlobId) (expected actual : UInt64)
  | uploadTooLarge (id : BlobId) (expected actual : UInt64)
  | incompleteUpload (id : BlobId) (expected actual : UInt64)
  | invalidContentHash (value : String)
  | integrityMismatch (expected actual : String)
  | failed (message : String)

/-- The blob operations the service delegates. -/
class BlobStore (B : Type) where
  beginUpload : B → BlobMetadata → B × Except BlobStoreError BlobUploadStatus
  appendChunk : B → BlobId → UInt64 → List UInt8 → B × Except BlobStoreError BlobUploadStatus
  finishUpload : B → BlobId → B × Except BlobStoreError BlobMetadata
  delete : B → BlobId → B × Except BlobStoreError Unit

end Fabushi.Messaging
