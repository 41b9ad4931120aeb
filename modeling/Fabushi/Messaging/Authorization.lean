import Fabushi.Messaging.Views
import Fabushi.Library.Bytes

/-!
# Who may send which command

`validate_command_authorization` and `project_command` of `service.rs`: the
first decides from the stored state whether the authenticated actor may send a
client command at all, the second turns it into engine commands in which every
acting identity is the authenticated one.
-/

namespace Fabushi.Messaging

open Result Std

inductive MessagingServiceError where
  | protocolVersion (expected actual : UInt16)
  | engine (error : EngineError)
  | store (error : StoreError)
  | blob (error : BlobStoreError)
  | blobStoreUnavailable
  | invalidBlobBase64 (message : String)
  | invariant (message : String)
  | unauthorizedCommand (reason : String)
  | idempotencyConflict (clientMessageId : String)
  | settlement (error : SettlementError)

abbrev Authorization := Except MessagingServiceError Unit

def denied (reason : String) : MessagingServiceError :=
  .unauthorizedCommand reason

def ParticipantRole.isPrivileged : ParticipantRole → Bool
  | .owner | .admin => true
  | _ => false

namespace MessagingState

def findParticipant (conversation : Conversation) (actorId : ActorId) : Option Participant :=
  conversation.participants.find? fun participant ↦ participant.actorId = actorId

def authorizedCommunity (state : MessagingState) (actorId : ActorId)
    (conversationId : ConversationId) : Except MessagingServiceError CommunityState := do
  let reason := "community operation requires membership or channel subscription"
  let community ← okOr state.communities[conversationId]? (denied reason)
  ensure (community.isActiveMember actorId ∨ community.isSubscriber actorId ∨
    state.isConversationOwner conversationId actorId) (denied reason)
  return community

def authorizeConversationState (state : MessagingState) (actorId : ActorId)
    (conversationId : ConversationId) : Authorization := do
  let existing ← okOr state.conversations[conversationId]?
    (denied "conversation state target does not exist")
  ensure (existing.hasParticipant actorId ∨ existing.isOwnedBy actorId ∨
      state.communities[conversationId]?.any fun community ↦ community.isSubscriber actorId)
    (denied "conversation state update requires membership")

/-- The management commands, with the participant they touch. -/
inductive Management where
  | info
  | setParticipant (participant : Participant)
  | removeParticipant (actorId : ActorId)

def authorizeCommunityManagement (community : CommunityState) (actorId : ActorId)
    (management : Management) : Authorization := do
  let caller ← okOr community.members[actorId]? (denied "community management requires membership")
  let callerIsOwner : Bool := caller.status = .owner
  ensure (callerIsOwner ∨ (caller.status = .administrator ∧ caller.adminRights.addAdmins))
    (denied "community management requires admin rights")
  match management with
  | .info => .ok ()
  | .setParticipant participant => do
      let target := community.members[participant.actorId]?
      ensure (¬ ((target.any fun member ↦ member.status = .owner) ∨ participant.role = .owner))
        (denied "community owner cannot be changed")
      ensure (¬ (¬ callerIsOwner ∧ target.any fun member ↦ member.status = .administrator))
        (denied "admins cannot manage other administrators")
  | .removeParticipant target =>
      ensure (¬ ((community.hasMemberWith target fun member ↦
          member.status = .owner || member.status = .administrator) ∧ ¬ callerIsOwner))
        (denied "admins cannot remove owner/admin members")

def authorizeConversationManagement (conversation : Conversation) (actorId : ActorId)
    (management : Management) : Authorization := do
  let caller ← okOr (findParticipant conversation actorId)
    (denied "conversation management requires membership")
  ensure caller.role.isPrivileged (denied "conversation management requires owner/admin role")
  match management with
  | .info => .ok ()
  | .setParticipant participant => do
      let target := findParticipant conversation participant.actorId
      ensure (¬ (participant.role = .owner ∧ ¬ conversation.isOwnedBy participant.actorId))
        (denied "conversation owner cannot be reassigned through participant management")
      ensure (¬ (caller.role = .admin ∧ (participant.role.isPrivileged ∨
          target.any fun target ↦ target.role.isPrivileged)))
        (denied "admins cannot manage owner/admin roles")
  | .removeParticipant target => do
      ensure (¬ conversation.isOwnedBy target) (denied "conversation owner cannot be removed")
      ensure (¬ (caller.role = .admin ∧
          (findParticipant conversation target).any fun target ↦ target.role.isPrivileged))
        (denied "admins cannot remove owner/admin participants")

/-- The community decides where there is one, the conversation otherwise. -/
def authorizeManagement (state : MessagingState) (actorId : ActorId)
    (conversationId : ConversationId) (management : Management) : Authorization :=
  match state.communities[conversationId]? with
  | some community => authorizeCommunityManagement community actorId management
  | none => do
      let existing ← okOr state.conversations[conversationId]?
        (denied "conversation management target does not exist")
      authorizeConversationManagement existing actorId management

def authorizeConversationUpdate (state : MessagingState) (actorId : ActorId)
    (conversation : Conversation) : Authorization :=
  match state.communities[conversation.id]? with
  | some community => do
      let member ← okOr community.members[actorId]? (denied "community update requires membership")
      ensure (member.status = .owner ∨
          (member.status = .administrator ∧ member.adminRights.changeInfo))
        (denied "community update requires change_info permission")
  | none => do
      let existing ← okOr state.conversations[conversation.id]?
        (denied "conversation update target does not exist")
      let caller ← okOr (findParticipant existing actorId)
        (denied "conversation update requires membership")
      ensure caller.role.isPrivileged (denied "conversation update requires owner/admin role")

def validateCommandAuthorization (state : MessagingState) (actorId : ActorId) :
    ClientCommand → Authorization
  | .upsertProfile actor =>
      ensure (actor.id = actorId) (denied "profile actor id does not match authenticated actor")
  | .createConversation conversation =>
      ensure (¬ (¬ conversation.hasParticipant actorId ∨
          conversation.ownerId.any fun owner ↦ owner ≠ actorId))
        (denied "conversation creator must be an owner/participant")
  | .setMarkedUnread conversationId _ | .setDraft conversationId _ _ =>
      state.authorizeConversationState actorId conversationId
  | .markTopicRead conversationId _ _ | .setTopicDraft conversationId _ _ _
  | .listCommunityMembers conversationId _ _ | .listCommunityAuditLog conversationId _ _ =>
      discard (state.authorizedCommunity actorId conversationId)
  | .updateConversationInfo conversationId _ _
  | .setConversationMessageRetention conversationId _ _ =>
      state.authorizeManagement actorId conversationId .info
  | .setConversationParticipant conversationId participant =>
      state.authorizeManagement actorId conversationId (.setParticipant participant)
  | .removeConversationParticipant conversationId target =>
      state.authorizeManagement actorId conversationId (.removeParticipant target)
  | .updateConversation conversation => state.authorizeConversationUpdate actorId conversation
  | .createInvoice invoice =>
      ensure (invoice.sellerId = actorId)
        (denied "invoice seller id does not match authenticated actor")
  | .grantMiniApp grant =>
      ensure (grant.actorId = actorId)
        (denied "Mini App grant actor does not match authenticated actor")
  | .openMiniApp session =>
      ensure (session.actorId = actorId)
        (denied "Mini App session actor does not match authenticated actor")
  | _ => .ok ()

end MessagingState

/-! ## From client commands to engine commands -/

def stableMessageId (sha256 : List UInt8 → List UInt8) (actorId : ActorId)
    (clientMessageId : ClientMessageId) : MessageId :=
  let input := Text.bytes actorId.value ++ [0] ++ Text.bytes clientMessageId.value
  ⟨"msg:" ++ Bytes.encodeHex (sha256 input)⟩

def legacyMessageId (clientMessageId : ClientMessageId) : MessageId :=
  ⟨"local:" ++ clientMessageId.value⟩

namespace MessagingState

variable (sha256 : List UInt8 → List UInt8)

def projectMarkRead (state : MessagingState) (actorId : ActorId)
    (conversationId : ConversationId) (messageId : MessageId) : List Command :=
  let shouldMarkMessageRead :=
    (state.conversations[conversationId]?.any fun conversation ↦
      conversation.kind.hasReceipts) &&
    (state.findMessage conversationId messageId).any fun message ↦ message.senderId ≠ actorId
  .markRead conversationId actorId messageId ::
    if shouldMarkMessageRead then [.setDeliveryState conversationId messageId .read] else []

def projectSendMessage (actorId : ActorId) (nowMs : Int64) (conversationId : ConversationId)
    (clientMessageId : ClientMessageId) (content : MessageContent)
    (replyToMessageId threadRootMessageId : Option MessageId) (scheduledAtMs : Option Int64)
    (silent protectedContent : Bool) : List Command :=
  let messageId := stableMessageId sha256 actorId clientMessageId
  [.queueMessage conversationId messageId clientMessageId actorId content replyToMessageId
      threadRootMessageId nowMs scheduledAtMs silent protectedContent,
    .acknowledgeMessage conversationId messageId messageId nowMs]

def projectCommand (state : MessagingState) (actorId : ActorId) (nowMs : Int64) :
    ClientCommand → List Command
  | .upsertProfile actor => [.upsertActor actor]
  | .setPresence presence => [.setPresence actorId presence]
  | .createConversation conversation => [.upsertConversation conversation]
  | .updateConversation conversation =>
      if state.communities.contains conversation.id then
        [.updateConversationInfo conversation.id conversation.title conversation.description]
      else [.upsertConversation conversation]
  | .updateConversationInfo conversationId title description =>
      [.updateConversationInfo conversationId title description]
  | .setConversationParticipant conversationId participant =>
      [.setConversationParticipant conversationId participant]
  | .removeConversationParticipant conversationId target =>
      [.removeConversationParticipant conversationId target]
  | .archiveConversation conversationId archived => [.archiveConversation conversationId archived]
  | .pinConversation conversationId pinned => [.pinConversation conversationId pinned]
  | .setMarkedUnread conversationId markedUnread =>
      [.setMarkedUnread conversationId actorId markedUnread]
  | .setDraft conversationId text replyToMessageId =>
      [.setDraft { conversationId, actorId, text
                   replyToMessageId := replyToMessageId.map fun id ↦ id.value
                   updatedAtMs := nowMs }]
  | .setConversationNotifications conversationId settings =>
      [.setConversationNotifications conversationId settings]
  | .setConversationMessageRetention conversationId retentionSeconds expectedRevision =>
      [.setConversationMessageRetention conversationId retentionSeconds expectedRevision]
  | .upsertFolder folder => [.upsertFolder folder]
  | .deleteFolder folderId => [.deleteFolder folderId]
  | .sendMessage conversationId clientMessageId content replyToMessageId threadRootMessageId
      scheduledAtMs silent protectedContent =>
      projectSendMessage sha256 actorId nowMs conversationId clientMessageId content
        replyToMessageId threadRootMessageId scheduledAtMs silent protectedContent
  | .forwardMessage sourceConversationId messageId destinationConversationId clientMessageId =>
      [.forwardMessage sourceConversationId messageId destinationConversationId
        (legacyMessageId clientMessageId) clientMessageId actorId nowMs]
  | .editMessage conversationId messageId content =>
      [.editMessage conversationId messageId content nowMs]
  | .deleteMessages conversationId messageIds _ => [.deleteMessages conversationId messageIds]
  | .markRead conversationId messageId =>
      state.projectMarkRead actorId conversationId messageId
  | .markTopicRead conversationId topicId messageId =>
      [.markTopicRead conversationId topicId actorId messageId]
  | .setTopicDraft conversationId topicId text replyToMessageId =>
      [.setTopicDraft { conversationId, topicId, actorId, text
                        replyToMessageId := replyToMessageId.map fun id ↦ id.value
                        updatedAtMs := nowMs }]
  | .setReaction conversationId messageId reaction =>
      [.setReaction conversationId messageId reaction]
  | .pinMessage conversationId messageId pinned => [.pinMessage conversationId messageId pinned]
  | .votePoll conversationId messageId optionIds =>
      [.votePoll conversationId messageId actorId optionIds]
  | .createInvoice invoice => [.createInvoice invoice]
  | .checkoutInvoice invoiceId orderId customer =>
      [.checkoutInvoice invoiceId orderId actorId customer nowMs]
  | .refundOrder orderId requestId => [.refundOrder orderId actorId requestId nowMs]
  | .publishStory story => [.publishStory actorId story]
  | .deleteStory storyId => [.deleteStory actorId storyId]
  | .viewStory storyId => [.viewStory actorId storyId nowMs]
  | .reactStory storyId reaction => [.reactStory actorId storyId reaction]
  | .updateCommunity community => [.updateCommunity actorId community]
  | .subscribeChannel conversationId => [.subscribeChannel actorId conversationId nowMs]
  | .unsubscribeChannel conversationId => [.unsubscribeChannel actorId conversationId nowMs]
  | .setCommunitySlowMode conversationId seconds =>
      [.setCommunitySlowMode actorId conversationId seconds nowMs]
  | .moderateCommunityMember conversationId member reason =>
      [.moderateCommunityMember actorId conversationId member reason nowMs]
  | .setCommunityMember conversationId member =>
      [.setCommunityMember actorId conversationId member]
  | .createInviteLink invite => [.createInviteLink actorId invite]
  | .revokeInviteLink conversationId inviteId =>
      [.revokeInviteLink actorId conversationId inviteId nowMs]
  | .requestCommunityJoin request => [.requestCommunityJoin actorId request]
  | .respondCommunityJoin conversationId requesterId approved =>
      [.respondCommunityJoin actorId conversationId requesterId approved nowMs]
  | .upsertForumTopic topic => [.upsertForumTopic actorId topic]
  | .deleteForumTopic conversationId topicId => [.deleteForumTopic actorId conversationId topicId]
  | .registerBot profile => [.registerBot actorId profile]
  | .invokeBot invocation => [.beginBotInvocation actorId invocation nowMs]
  | .finishBotExecution executionId success error =>
      [.finishBotExecution actorId executionId success nowMs error]
  | .installMiniApp manifest => [.installMiniApp manifest]
  | .grantMiniApp grant => [.grantMiniApp grant]
  | .openMiniApp session => [.openMiniApp session]
  | .miniAppCall sessionId requestId request => [.miniAppCall sessionId requestId request]
  | .sync .. | .search .. | .listCommunityMembers .. | .listCommunityAuditLog ..
  | .startTyping .. | .stopTyping .. | .walletStatus | .beginBlobUpload ..
  | .appendBlobChunk .. | .finishBlobUpload .. | .deleteBlob .. => []

end MessagingState

end Fabushi.Messaging
