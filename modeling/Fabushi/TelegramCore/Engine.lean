import Fabushi.Library.Result
import Fabushi.TelegramCore.Domain

/-!
# The state machine of the native client

`engine.rs`: a command is decided against the state, the events it is decided to are
applied. Nothing is changed by a command that is refused.
-/

namespace Fabushi.TelegramCore

open Result Std

variable {Content Formatted : Type}

inductive Command (Content Formatted : Type) where
  | upsertChat (chat : Chat Formatted)
  | upsertChatFolder (folder : ChatFolder)
  | deleteChatFolder (folderId : ChatFolderId)
  | setChatDraft (chatId : ChatId) (draft : Option (ChatDraft Formatted))
  | setChatMarkedUnread (chatId : ChatId) (markedUnread : Bool)
  | setTypingActions (chatId : ChatId) (actions : List TypingAction)
  | upsertRemoteMessage (message : Message Content)
  | setMessageReaction (chatId : ChatId) (messageId : MessageId) (reaction : ReactionCount)
  | queueMessage (chatId : ChatId) (localMessageId : MessageId) (senderUserId : UserId)
      (clientRequestId : ClientRequestId) (dateUnixMs : Int64) (content : Content)
      (replyToMessageId messageThreadId : Option MessageId)
  | acknowledgeMessage (clientRequestId : ClientRequestId) (serverMessageId : MessageId)
      (dateUnixMs : Int64)
  | failMessage (clientRequestId : ClientRequestId) (code : String) (retryable : Bool)
  | editMessage (chatId : ChatId) (messageId : MessageId) (content : Content)
      (editDateUnixMs : Int64)
  | deleteMessages (chatId : ChatId) (messageIds : List MessageId)
  | setChatRead (chatId : ChatId) (lastReadInboxMessageId : MessageId) (unreadCount : UInt32)
  | setPinnedMessage (chatId : ChatId) (messageId : Option MessageId)

inductive Event (Content Formatted : Type) where
  | chatUpserted (chat : Chat Formatted)
  | chatFolderUpserted (folder : ChatFolder)
  | chatFolderDeleted (folderId : ChatFolderId)
  | chatDraftUpdated (chatId : ChatId) (draft : Option (ChatDraft Formatted))
  | chatMarkedUnreadUpdated (chatId : ChatId) (markedUnread : Bool)
  | typingActionsUpdated (chatId : ChatId) (actions : List TypingAction)
  | remoteMessageUpserted (message : Message Content)
  | messageReactionUpdated (chatId : ChatId) (messageId : MessageId) (reaction : ReactionCount)
  | messageQueued (message : Message Content)
  | messageAcknowledged (chatId : ChatId) (localMessageId serverMessageId : MessageId)
      (dateUnixMs : Int64)
  | messageFailed (chatId : ChatId) (messageId : MessageId) (code : String) (retryable : Bool)
  | messageEdited (chatId : ChatId) (messageId : MessageId) (content : Content)
      (editDateUnixMs : Int64)
  | messagesDeleted (chatId : ChatId) (messageIds : List MessageId)
  | chatReadUpdated (chatId : ChatId) (lastReadInboxMessageId : MessageId)
      (unreadCount : UInt32)
  | pinnedMessageUpdated (chatId : ChatId) (messageId : Option MessageId)

structure TelegramState (Content Formatted : Type) where
  chats : BTreeMap ChatId (Chat Formatted) := ∅
  chatFolders : BTreeMap ChatFolderId ChatFolder := ∅
  messages : BTreeMap MessageKey (Message Content) := ∅
  pendingRequests : BTreeMap ClientRequestId MessageKey := ∅
  typingActions : BTreeMap ChatId (List TypingAction) := ∅

inductive EngineError where
  | chatNotFound (chatId : ChatId)
  | messageNotFound (chatId : ChatId) (messageId : MessageId)
  | duplicateMessage (chatId : ChatId) (messageId : MessageId)
  | invalidClientRequestId
  | duplicateClientRequest (clientRequestId : ClientRequestId)
  | pendingRequestNotFound (clientRequestId : ClientRequestId)
  | duplicateServerMessage (chatId : ChatId) (messageId : MessageId)
  | emptyMessageList
  | chatFolderNotFound (folderId : ChatFolderId)
  | invalidRemoteMessageState
  | invalidReaction
  deriving DecidableEq, Repr

namespace TelegramState

variable (state : TelegramState Content Formatted)

def requireChat (chatId : ChatId) : Except EngineError (Chat Formatted) :=
  okOr state.chats[chatId]? (.chatNotFound chatId)

def requireMessage (chatId : ChatId) (messageId : MessageId) :
    Except EngineError (Message Content) :=
  okOr state.messages[MessageKey.mk chatId messageId]? (.messageNotFound chatId messageId)

def uniqueIds (messageIds : List MessageId) : List MessageId :=
  (ExtTreeSet.ofList messageIds compare).toList

def decide (command : Command Content Formatted) :
    Except EngineError (List (Event Content Formatted)) :=
  match command with
  | .upsertChat chat => return [.chatUpserted chat]
  | .upsertChatFolder folder => return [.chatFolderUpserted folder]
  | .deleteChatFolder folderId => do
      ensure (state.chatFolders.contains folderId) (.chatFolderNotFound folderId)
      return [.chatFolderDeleted folderId]
  | .setChatDraft chatId draft => do
      let _ ← state.requireChat chatId
      return [.chatDraftUpdated chatId draft]
  | .setChatMarkedUnread chatId markedUnread => do
      let _ ← state.requireChat chatId
      return [.chatMarkedUnreadUpdated chatId markedUnread]
  | .setTypingActions chatId actions => do
      let _ ← state.requireChat chatId
      return [.typingActionsUpdated chatId actions]
  | .upsertRemoteMessage message => do
      let _ ← state.requireChat message.chatId
      ensure (message.deliveryState = .sent) .invalidRemoteMessageState
      return [.remoteMessageUpserted message]
  | .setMessageReaction chatId messageId reaction => do
      let _ ← state.requireMessage chatId messageId
      ensure (!Text.isBlank reaction.reaction) .invalidReaction
      return [.messageReactionUpdated chatId messageId reaction]
  | .queueMessage chatId localMessageId senderUserId clientRequestId dateUnixMs content
      replyToMessageId messageThreadId => do
      let _ ← state.requireChat chatId
      ensure (!state.messages.contains ⟨chatId, localMessageId⟩)
        (.duplicateMessage chatId localMessageId)
      ensure (ClientRequestId.isValid clientRequestId) .invalidClientRequestId
      ensure (!state.pendingRequests.contains clientRequestId)
        (.duplicateClientRequest clientRequestId)
      return [.messageQueued
        { id := localMessageId, chatId, senderUserId, dateUnixMs, editDateUnixMs := none,
          content, replyToMessageId, messageThreadId,
          deliveryState := .pending clientRequestId, reactions := [], isOutgoing := true,
          isPinned := false, isDeleted := false }]
  | .acknowledgeMessage clientRequestId serverMessageId dateUnixMs => do
      let key ← okOr state.pendingRequests[clientRequestId]?
        (.pendingRequestNotFound clientRequestId)
      ensure (serverMessageId = key.messageId ∨
          !state.messages.contains ⟨key.chatId, serverMessageId⟩)
        (.duplicateServerMessage key.chatId serverMessageId)
      return [.messageAcknowledged key.chatId key.messageId serverMessageId dateUnixMs]
  | .failMessage clientRequestId code retryable => do
      let key ← okOr state.pendingRequests[clientRequestId]?
        (.pendingRequestNotFound clientRequestId)
      return [.messageFailed key.chatId key.messageId code retryable]
  | .editMessage chatId messageId content editDateUnixMs => do
      let _ ← state.requireMessage chatId messageId
      return [.messageEdited chatId messageId content editDateUnixMs]
  | .deleteMessages chatId messageIds => do
      let _ ← state.requireChat chatId
      let unique := uniqueIds messageIds
      ensure (unique ≠ []) .emptyMessageList
      unique.forM fun messageId ↦ do
        let _ ← state.requireMessage chatId messageId
      return [.messagesDeleted chatId unique]
  | .setChatRead chatId lastReadInboxMessageId unreadCount => do
      let chat ← state.requireChat chatId
      -- a position that does not move forward is no news, unless the count changed
      if (chat.lastReadInboxMessageId.any fun current ↦
          lastReadInboxMessageId.value ≤ current.value) && chat.unreadCount == unreadCount then
        return []
      else
        return [.chatReadUpdated chatId lastReadInboxMessageId unreadCount]
  | .setPinnedMessage chatId messageId => do
      let chat ← state.requireChat chatId
      messageId.forM fun messageId ↦ do
        let _ ← state.requireMessage chatId messageId
      if chat.pinnedMessageId = messageId then
        return []
      else
        return [.pinnedMessageUpdated chatId messageId]

def updateChat (chatId : ChatId) (f : Chat Formatted → Chat Formatted) :
    TelegramState Content Formatted :=
  { state with chats := BTreeMap.update state.chats chatId f }

def updateMessage (chatId : ChatId) (messageId : MessageId)
    (f : Message Content → Message Content) : TelegramState Content Formatted :=
  { state with messages := BTreeMap.update state.messages ⟨chatId, messageId⟩ f }

def removePending (message : Message Content) : TelegramState Content Formatted :=
  match message.deliveryState with
  | .pending clientRequestId =>
      { state with pendingRequests := state.pendingRequests.erase clientRequestId }
  | _ => state

def deleteMessage (chatId : ChatId) (messageId : MessageId) : TelegramState Content Formatted :=
  match state.messages[MessageKey.mk chatId messageId]? with
  | some message =>
      { state with
        messages := state.messages.insert ⟨chatId, messageId⟩ { message with isDeleted := true }
        }.removePending message
  | none => state

def Reactions.put (reaction : ReactionCount) (reactions : List ReactionCount) :
    List ReactionCount :=
  let others := reactions.filter fun existing ↦ existing.reaction ≠ reaction.reaction
  if 0 < reaction.totalCount then others ++ [reaction] else others

def apply (event : Event Content Formatted) : TelegramState Content Formatted :=
  match event with
  | .chatUpserted chat => { state with chats := state.chats.insert chat.id chat }
  | .chatFolderUpserted folder =>
      { state with chatFolders := state.chatFolders.insert folder.id folder }
  | .chatFolderDeleted folderId =>
      { state with
        chatFolders := state.chatFolders.erase folderId
        chats := state.chats.map fun _ chat ↦
          { chat with folderIds := chat.folderIds.filter fun id ↦ id ≠ folderId } }
  | .chatDraftUpdated chatId draft => state.updateChat chatId fun chat ↦ { chat with draft }
  | .chatMarkedUnreadUpdated chatId markedUnread =>
      state.updateChat chatId fun chat ↦ { chat with isMarkedUnread := markedUnread }
  | .typingActionsUpdated chatId actions =>
      if actions = [] then
        { state with typingActions := state.typingActions.erase chatId }
      else
        { state with typingActions := state.typingActions.insert chatId actions }
  | .remoteMessageUpserted message =>
      let state := state.updateChat message.chatId fun chat ↦
        { chat with lastMessageId := some message.id }
      { state with messages := state.messages.insert message.key message }
  | .messageReactionUpdated chatId messageId reaction =>
      state.updateMessage chatId messageId fun message ↦
        { message with reactions := Reactions.put reaction message.reactions }
  | .messageQueued message =>
      let state := match message.deliveryState with
        | .pending clientRequestId =>
            { state with
              pendingRequests := state.pendingRequests.insert clientRequestId message.key }
        | _ => state
      let state := state.updateChat message.chatId fun chat ↦
        { chat with lastMessageId := some message.id }
      { state with messages := state.messages.insert message.key message }
  | .messageAcknowledged chatId localMessageId serverMessageId dateUnixMs =>
      match state.messages[MessageKey.mk chatId localMessageId]? with
      | some message =>
          let state := { state with messages := state.messages.erase ⟨chatId, localMessageId⟩ }
          let state := state.removePending message
          let message := { message with
            id := serverMessageId, dateUnixMs, deliveryState := .sent }
          let state := { state with
            messages := state.messages.insert ⟨chatId, serverMessageId⟩ message }
          state.updateChat chatId fun chat ↦
            if chat.lastMessageId = some localMessageId then
              { chat with lastMessageId := some serverMessageId }
            else chat
      | none => state
  | .messageFailed chatId messageId code retryable =>
      match state.messages[MessageKey.mk chatId messageId]? with
      | some message =>
          let state := state.removePending message
          { state with
            messages := state.messages.insert ⟨chatId, messageId⟩
              { message with deliveryState := .failed code retryable } }
      | none => state
  | .messageEdited chatId messageId content editDateUnixMs =>
      state.updateMessage chatId messageId fun message ↦
        { message with content, editDateUnixMs := some editDateUnixMs }
  | .messagesDeleted chatId messageIds =>
      messageIds.foldl (fun state messageId ↦ state.deleteMessage chatId messageId) state
  | .chatReadUpdated chatId lastReadInboxMessageId unreadCount =>
      state.updateChat chatId fun chat ↦
        let forward := chat.lastReadInboxMessageId.all fun current ↦
          current.value ≤ lastReadInboxMessageId.value
        { chat with
          lastReadInboxMessageId :=
            if forward then some lastReadInboxMessageId else chat.lastReadInboxMessageId
          unreadCount }
  | .pinnedMessageUpdated chatId messageId =>
      match state.chats[chatId]? with
      | some chat =>
          let state := match chat.pinnedMessageId with
            | some previous =>
                state.updateMessage chatId previous fun message ↦
                  { message with isPinned := false }
            | none => state
          let state := { state with
            chats := state.chats.insert chatId { chat with pinnedMessageId := messageId } }
          match messageId with
          | some messageId =>
              state.updateMessage chatId messageId fun message ↦ { message with isPinned := true }
          | none => state
      | none => state

def execute (command : Command Content Formatted) :
    Except EngineError (List (Event Content Formatted) × TelegramState Content Formatted) := do
  let events ← state.decide command
  return (events, events.foldl apply state)

def next (command : Command Content Formatted) : TelegramState Content Formatted :=
  match state.execute command with
  | .ok (_, state') => state'
  | .error _ => state

end TelegramState

end Fabushi.TelegramCore
