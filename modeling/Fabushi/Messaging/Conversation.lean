import Fabushi.Messaging.Identity

/-!
# Conversations, messages and message retention

The records of `conversation.rs`, `message.rs` and `retention.rs`. Binary
floating-point fields are kept as their bit patterns; `F64.same` is the IEEE
comparison that the derived `PartialEq` of the source performs on them.
-/

namespace Fabushi.Messaging

open MachineInt Result

/-! ## Conversations -/

inductive ConversationKind where
  | direct | group | channel | savedMessages | secret
  deriving DecidableEq, Repr

def ConversationKind.isCommunity : ConversationKind → Bool
  | .group | .channel => true
  | _ => false

def ConversationKind.hasReceipts : ConversationKind → Bool
  | .direct | .secret => true
  | _ => false

inductive HistoryVisibility where
  | newMembersOnly | allMembers
  deriving DecidableEq, Repr

structure NotificationSettings where
  mutedUntilMs : Option Int64 := none
  sound : Option String := none
  showPreview : Bool := true
  notifyMentions : Bool := true
  deriving DecidableEq, Repr

structure ConversationPermissions where
  canSendMessages : Bool := true
  canSendMedia : Bool := true
  canSendPolls : Bool := true
  canAddMembers : Bool := true
  canPinMessages : Bool := true
  canManageTopics : Bool := true
  canManageCalls : Bool := true
  deriving DecidableEq, Repr

structure Topic where
  id : String
  title : String
  icon : Option String
  createdBy : ActorId
  closed : Bool
  hidden : Bool
  unreadCount : UInt32 := 0
  deriving DecidableEq, Repr

structure Conversation where
  id : ConversationId
  kind : ConversationKind
  title : String
  description : Option String := none
  avatarUrl : Option String := none
  participants : List Participant
  ownerId : Option ActorId := none
  lastMessageId : Option String := none
  lastReadMessageId : Option String := none
  unreadCount : UInt32 := 0
  mentionCount : UInt32 := 0
  pinnedMessageIds : List String := []
  notificationSettings : NotificationSettings := {}
  messageRetentionSeconds : Option UInt32 := none
  retentionRevision : UInt64 := 0
  permissions : ConversationPermissions := {}
  historyVisibility : HistoryVisibility := .allMembers
  topics : List Topic := []
  folderIds : List String := []
  archived : Bool := false
  pinned : Bool := false
  markedUnread : Bool := false
  createdAtMs : Int64
  updatedAtMs : Int64
  deriving DecidableEq, Repr

def Conversation.hasParticipant (conversation : Conversation) (actorId : ActorId) : Bool :=
  conversation.participants.any fun participant ↦ participant.actorId = actorId

def Conversation.isOwnedBy (conversation : Conversation) (actorId : ActorId) : Bool :=
  conversation.ownerId = some actorId

structure ConversationDraft where
  conversationId : ConversationId
  actorId : ActorId
  text : String
  replyToMessageId : Option String
  updatedAtMs : Int64
  deriving DecidableEq, Repr

structure TopicDraft where
  conversationId : ConversationId
  topicId : String
  actorId : ActorId
  text : String
  replyToMessageId : Option String
  updatedAtMs : Int64
  deriving DecidableEq, Repr

structure ConversationFolder where
  id : String
  title : String
  icon : Option String
  conversationIds : List ConversationId
  includeContacts : Bool
  includeBots : Bool
  includeGroups : Bool
  includeChannels : Bool
  excludeMuted : Bool
  excludeRead : Bool
  excludeArchived : Bool
  deriving DecidableEq, Repr

/-! ## Messages -/

/-- A binary64 value as its bit pattern. -/
structure F64 where
  bits : UInt64
  deriving DecidableEq, Repr

def F64.isNaN (x : F64) : Bool :=
  (x.bits &&& 0x7FF0000000000000 == 0x7FF0000000000000) &&
    (x.bits &&& 0x000FFFFFFFFFFFFF != 0)

def F64.isZero (x : F64) : Bool :=
  x.bits &&& 0x7FFFFFFFFFFFFFFF == 0

def F64.same (x y : F64) : Bool :=
  !x.isNaN && !y.isNaN && (x.bits == y.bits || (x.isZero && y.isZero))

inductive TextEntityKind where
  | mention
  | mentionActor (actorId : ActorId)
  | hashtag | url | email | phoneNumber | botCommand | bold | italic | underline
  | strikethrough | spoiler | code
  | pre (language : Option String)
  | textUrl (url : String)
  | customEmoji (id : String)
  deriving DecidableEq, Repr

structure TextEntity where
  offsetUtf16 : UInt32
  lengthUtf16 : UInt32
  kind : TextEntityKind
  deriving DecidableEq, Repr

structure FormattedText where
  text : String
  entities : List TextEntity := []
  deriving DecidableEq, Repr

structure MediaRef where
  id : String
  fileName : Option String := none
  mimeType : Option String := none
  sizeBytes : Option UInt64 := none
  width : Option UInt32 := none
  height : Option UInt32 := none
  durationMs : Option UInt64 := none
  thumbnailId : Option String := none
  localPath : Option String := none
  remoteUrl : Option String := none
  contentHash : Option String := none
  deriving DecidableEq, Repr

structure PollOption where
  id : String
  text : String
  voterCount : UInt32
  chosen : Bool
  correct : Option Bool
  deriving DecidableEq, Repr

inductive InlineButtonAction where
  | callback (data : String)
  | url (url : String)
  | miniApp (miniAppId : String) (startParameter : Option String)
  | pay (invoiceId : String)
  | switchInline (query : String)
  deriving DecidableEq, Repr

structure InlineButton where
  text : String
  action : InlineButtonAction
  deriving DecidableEq, Repr

structure ReplyMarkup where
  rows : List (List InlineButton)
  deriving DecidableEq, Repr

structure EncryptedSecretMessage where
  version : UInt16
  algorithm : String
  conversationId : ConversationId
  epoch : UInt64
  senderId : ActorId
  recipientId : ActorId
  counter : UInt64
  nonceBase64 : String
  ciphertextBase64 : String
  deriving DecidableEq, Repr

inductive MessageContent where
  | text (text : FormattedText)
  | photo (media : MediaRef) (caption : FormattedText) (spoiler : Bool)
  | video (media : MediaRef) (caption : FormattedText) (spoiler streaming : Bool)
  | animation (media : MediaRef) (caption : FormattedText)
  | audio (media : MediaRef) (caption : FormattedText) (title performer : Option String)
  | voice (media : MediaRef) (caption : FormattedText) (waveform : List UInt8)
  | videoNote (media : MediaRef)
  | document (media : MediaRef) (caption : FormattedText)
  | sticker (media : MediaRef) (emoji setId : Option String)
  | contact (actorId : Option ActorId) (displayName : String) (phoneNumber : Option String)
  | location (latitude longitude : F64) (liveUntilMs : Option Int64)
  | venue (latitude longitude : F64) (title address : String)
  | poll (question : FormattedText) (options : List PollOption)
      (anonymous multipleAnswers quiz : Bool)
  | dice (emoji : String) (value : UInt8)
  | story (storyId : String)
  | invoice (invoiceId : String)
  | miniApp (miniAppId title : String) (startParameter : Option String)
  | secret (envelope : EncryptedSecretMessage)
  | service (action : String) (text : Option String)
  deriving DecidableEq, Repr

namespace MessageContent

def same : MessageContent → MessageContent → Bool
  | .location lat lon live, .location lat' lon' live' =>
      lat.same lat' && lon.same lon' && live = live'
  | .venue lat lon title address, .venue lat' lon' title' address' =>
      lat.same lat' && lon.same lon' && title = title' && address = address'
  | a, b => a = b

def usesMedia : MessageContent → Bool
  | .photo .. | .video .. | .animation .. | .audio .. | .voice .. | .videoNote ..
  | .document .. | .sticker .. => true
  | _ => false

def isPoll : MessageContent → Bool
  | .poll .. => true
  | _ => false

def isSecret : MessageContent → Bool
  | .secret .. => true
  | _ => false

def isService : MessageContent → Bool
  | .service .. => true
  | _ => false

end MessageContent

inductive DeliveryState where
  | pending (clientMessageId : ClientMessageId)
  | sent | delivered | read
  | failed (code : String) (retryable : Bool)
  deriving DecidableEq, Repr

structure ReactionSummary where
  reaction : String
  count : UInt32
  chosenByMe : Bool
  recentActorIds : List ActorId
  deriving DecidableEq, Repr

structure Message where
  id : MessageId
  conversationId : ConversationId
  senderId : ActorId
  content : MessageContent
  replyToMessageId : Option MessageId
  threadRootMessageId : Option MessageId
  forwardOrigin : Option String
  replyMarkup : Option ReplyMarkup
  reactions : List ReactionSummary
  deliveryState : DeliveryState
  createdAtMs : Int64
  editedAtMs : Option Int64
  scheduledAtMs : Option Int64
  expiresAtMs : Option Int64
  silent : Bool
  protectedContent : Bool
  pinned : Bool
  deleted : Bool
  deriving DecidableEq, Repr

def Message.isExpiredAt (message : Message) (now : Int64) : Bool :=
  message.expiresAtMs.any fun expiresAtMs ↦ expiresAtMs ≤ now

def Message.isDueAt (message : Message) (now : Int64) : Bool :=
  message.scheduledAtMs.all fun scheduled ↦ scheduled ≤ now

/-- Forum topics are addressed by thread roots of the form `topic:<id>`. -/
def topicIdFromRoot (root : MessageId) : Option String :=
  (Text.stripPrefix "topic:" root.value).filter fun id ↦ id != ""

/-! ## Message retention -/

inductive MessageRetentionError where
  | zeroSeconds
  | expiryOverflow
  | staleRevision (expected actual : UInt64)
  | revisionOverflow
  deriving DecidableEq, Repr

structure MessageRetentionPolicy where
  seconds : UInt32
  positive : seconds ≠ 0
  deriving DecidableEq, Repr

namespace MessageRetentionPolicy

def new (seconds : UInt32) : Except MessageRetentionError MessageRetentionPolicy :=
  if h : seconds ≠ 0 then .ok ⟨seconds, h⟩ else .error .zeroSeconds

/-- Expiry fails closed when the deadline leaves the timestamp range. -/
def expiresAtMs (policy : MessageRetentionPolicy) (serverTimeMs : Int64) :
    Except MessageRetentionError Int64 := do
  let ttlMs ← okOr (checkedMul (Int64.ofNat policy.seconds.toNat) 1000) .expiryOverflow
  okOr (checkedAdd serverTimeMs ttlMs) .expiryOverflow

end MessageRetentionPolicy

def nextRetentionRevision (actualRevision expectedRevision : UInt64) :
    Except MessageRetentionError UInt64 := do
  ensure (actualRevision = expectedRevision) (.staleRevision expectedRevision actualRevision)
  ensure (actualRevision.toNat + 1 < 2 ^ 64) .revisionOverflow
  return actualRevision + 1

structure ConversationMessageRetention where
  policy : Option MessageRetentionPolicy
  revision : UInt64
  deriving DecidableEq, Repr

def retentionPolicy (seconds : Option UInt32) :
    Except MessageRetentionError (Option MessageRetentionPolicy) :=
  match seconds with
  | none => .ok none
  | some seconds => (MessageRetentionPolicy.new seconds).map some

def ConversationMessageRetention.change (current : ConversationMessageRetention)
    (seconds : Option UInt32) (expectedRevision : UInt64) :
    Except MessageRetentionError ConversationMessageRetention := do
  let policy ← retentionPolicy seconds
  let revision ← nextRetentionRevision current.revision expectedRevision
  return { policy, revision }

def messageExpiry (retentionSeconds : Option UInt32) (baseMs : Int64) :
    Except MessageRetentionError (Option Int64) :=
  match retentionSeconds with
  | none => .ok none
  | some seconds => do
      let policy ← MessageRetentionPolicy.new seconds
      let expiresAtMs ← policy.expiresAtMs baseMs
      return some expiresAtMs

end Fabushi.Messaging
