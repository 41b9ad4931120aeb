import Fabushi.Library.OrderedMap
import Fabushi.Library.Text

/-!
# Chats and messages of the native client

The data of `domain.rs`. The engine moves the contents of messages and drafts without
looking into them, so messages are generic in their content.
-/

namespace Fabushi.TelegramCore

open Std

inductive IdKind where
  | user | chat | message
  deriving DecidableEq, Repr

/-- An integer newtype; keys are ordered as their integers are. -/
structure Id (kind : IdKind) where
  value : Int64
  deriving DecidableEq, Repr

instance {kind : IdKind} : Ord (Id kind) := ⟨fun a b ↦ compare a.value b.value⟩

instance {kind : IdKind} : TransOrd (Id kind) where
  eq_swap := OrientedOrd.eq_swap (α := Int64)
  isLE_trans := TransOrd.isLE_trans (α := Int64)

instance {kind : IdKind} : LawfulEqOrd (Id kind) where
  compare_self := ReflOrd.compare_self (α := Int64)
  eq_of_compare {a b} h := by
    cases a
    cases b
    exact congrArg _ (LawfulEqOrd.eq_of_compare (α := Int64) h)

abbrev UserId := Id .user
abbrev ChatId := Id .chat
abbrev MessageId := Id .message

abbrev ChatFolderId := Int32

abbrev ClientRequestId := String

def ClientRequestId.isValid (id : ClientRequestId) : Bool :=
  !Text.isBlank id && Text.len id ≤ 128

/-- The key `(ChatId, MessageId)` of the message map. -/
structure MessageKey where
  chatId : ChatId
  messageId : MessageId
  deriving DecidableEq, Repr

instance : Ord MessageKey :=
  ⟨compareLex (compareOn MessageKey.chatId) (compareOn MessageKey.messageId)⟩

instance : TransOrd MessageKey :=
  inferInstanceAs (TransCmp (compareLex _ _))

instance : LawfulEqOrd MessageKey where
  compare_self {a} := by
    have hchat : compare a.chatId a.chatId = .eq := ReflOrd.compare_self
    have hmessage : compare a.messageId a.messageId = .eq := ReflOrd.compare_self
    exact Ordering.then_eq_eq.mpr ⟨hchat, hmessage⟩
  eq_of_compare {a b} h := by
    obtain ⟨hchat, hmessage⟩ := Ordering.then_eq_eq.mp h
    have hchatId : a.chatId = b.chatId := LawfulEqOrd.eq_of_compare hchat
    have hmessageId : a.messageId = b.messageId := LawfulEqOrd.eq_of_compare hmessage
    cases a
    cases b
    simp_all

inductive ChatKind where
  | privateChat | basicGroup | supergroup | channel | secret | savedMessages
  deriving DecidableEq, Repr

structure NotificationSettings where
  muteUntilUnixMs : Option Int64 := none
  soundId : Option String := none
  showPreview : Bool := true
  deriving DecidableEq, Repr

structure ChatDraft (Formatted : Type) where
  content : Formatted
  replyToMessageId : Option MessageId
  updatedAtUnixMs : Int64
  deriving DecidableEq, Repr

structure Chat (Formatted : Type) where
  id : ChatId
  kind : ChatKind
  title : String
  lastMessageId : Option MessageId := none
  lastReadInboxMessageId : Option MessageId := none
  lastReadOutboxMessageId : Option MessageId := none
  unreadCount : UInt32 := 0
  pinnedMessageId : Option MessageId := none
  notificationSettings : NotificationSettings := {}
  isArchived : Bool := false
  isMarkedUnread : Bool := false
  draft : Option (ChatDraft Formatted) := none
  folderIds : List ChatFolderId := []
  deriving DecidableEq, Repr

structure ChatFolder where
  id : ChatFolderId
  title : String
  iconName : Option String
  includedChatIds : List ChatId
  excludedChatIds : List ChatId
  includeContacts : Bool
  includeNonContacts : Bool
  includeGroups : Bool
  includeChannels : Bool
  includeBots : Bool
  excludeMuted : Bool
  excludeRead : Bool
  excludeArchived : Bool
  deriving DecidableEq, Repr

inductive TypingActionKind where
  | typing | recordingVoice | recordingVideoNote | uploadingPhoto | uploadingVideo
  | uploadingDocument | choosingSticker | choosingLocation | watchingAnimation
  | speakingInGroupCall
  deriving DecidableEq, Repr

structure TypingAction where
  userId : UserId
  kind : TypingActionKind
  progressPercent : Option UInt8
  expiresAtUnixMs : Int64
  deriving DecidableEq, Repr

inductive DeliveryState where
  | pending (clientRequestId : ClientRequestId)
  | sent
  | failed (code : String) (retryable : Bool)
  deriving DecidableEq, Repr

structure ReactionCount where
  reaction : String
  totalCount : UInt32
  chosenByMe : Bool
  deriving DecidableEq, Repr

structure Message (Content : Type) where
  id : MessageId
  chatId : ChatId
  senderUserId : UserId
  dateUnixMs : Int64
  editDateUnixMs : Option Int64
  content : Content
  replyToMessageId : Option MessageId
  messageThreadId : Option MessageId
  deliveryState : DeliveryState
  reactions : List ReactionCount
  isOutgoing : Bool
  isPinned : Bool
  isDeleted : Bool
  deriving DecidableEq, Repr

def Message.key {Content : Type} (message : Message Content) : MessageKey :=
  { chatId := message.chatId, messageId := message.id }

def Message.pendingRequest {Content : Type} (message : Message Content) :
    Option ClientRequestId :=
  match message.isDeleted, message.deliveryState with
  | false, .pending clientRequestId => some clientRequestId
  | _, _ => none

theorem Message.pendingRequest_eq_some {Content : Type} {message : Message Content}
    {clientRequestId : ClientRequestId} :
    message.pendingRequest = some clientRequestId ↔
      message.isDeleted = false ∧ message.deliveryState = .pending clientRequestId := by
  unfold Message.pendingRequest
  split <;> simp_all

end Fabushi.TelegramCore
