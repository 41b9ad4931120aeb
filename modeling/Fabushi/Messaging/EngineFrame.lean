import Fabushi.Messaging.Engine

/-!
# Which command can cause which event

`Command.eventTags` lists the kinds of events a command may be answered with.
`decide_eventTags` proves the list right for every command; it reduces a question
about all commands to the few that can write the component in question.
-/

namespace Fabushi.Messaging

open Result

inductive EventTag where
  | actorUpserted | presenceUpdated | conversationUpserted | conversationInfoUpdated
  | conversationParticipantUpserted | conversationParticipantRemoved | conversationArchived
  | conversationPinned | conversationMarkedUnread | draftChanged
  | conversationNotificationsUpdated | conversationMessageRetentionUpdated | folderUpserted
  | folderDeleted | messageQueued | messageAcknowledged | deliveryStateUpdated | messageEdited
  | messagesDeleted | conversationRead | topicReadChanged | topicDraftChanged | reactionUpdated
  | messagePinned | pollVoteChanged | invoiceCreated | orderUpserted | walletChanged
  | storyChanged | storyDeleted | communityChanged | botRegistryChanged | miniAppInstalled
  | miniAppGrantUpdated | miniAppOpened | miniAppResponded
  deriving DecidableEq, Repr

def Event.tag : Event → EventTag
  | .actorUpserted .. => .actorUpserted
  | .presenceUpdated .. => .presenceUpdated
  | .conversationUpserted .. => .conversationUpserted
  | .conversationInfoUpdated .. => .conversationInfoUpdated
  | .conversationParticipantUpserted .. => .conversationParticipantUpserted
  | .conversationParticipantRemoved .. => .conversationParticipantRemoved
  | .conversationArchived .. => .conversationArchived
  | .conversationPinned .. => .conversationPinned
  | .conversationMarkedUnread .. => .conversationMarkedUnread
  | .draftChanged .. => .draftChanged
  | .conversationNotificationsUpdated .. => .conversationNotificationsUpdated
  | .conversationMessageRetentionUpdated .. => .conversationMessageRetentionUpdated
  | .folderUpserted .. => .folderUpserted
  | .folderDeleted .. => .folderDeleted
  | .messageQueued .. => .messageQueued
  | .messageAcknowledged .. => .messageAcknowledged
  | .deliveryStateUpdated .. => .deliveryStateUpdated
  | .messageEdited .. => .messageEdited
  | .messagesDeleted .. => .messagesDeleted
  | .conversationRead .. => .conversationRead
  | .topicReadChanged .. => .topicReadChanged
  | .topicDraftChanged .. => .topicDraftChanged
  | .reactionUpdated .. => .reactionUpdated
  | .messagePinned .. => .messagePinned
  | .pollVoteChanged .. => .pollVoteChanged
  | .invoiceCreated .. => .invoiceCreated
  | .orderUpserted .. => .orderUpserted
  | .walletChanged .. => .walletChanged
  | .storyChanged .. => .storyChanged
  | .storyDeleted .. => .storyDeleted
  | .communityChanged .. => .communityChanged
  | .botRegistryChanged .. => .botRegistryChanged
  | .miniAppInstalled .. => .miniAppInstalled
  | .miniAppGrantUpdated .. => .miniAppGrantUpdated
  | .miniAppOpened .. => .miniAppOpened
  | .miniAppResponded .. => .miniAppResponded

def Command.eventTags : Command → List EventTag
  | .upsertActor .. => [.actorUpserted]
  | .setPresence .. => [.presenceUpdated]
  | .upsertConversation .. => [.conversationUpserted]
  | .updateConversationInfo .. => [.conversationInfoUpdated]
  | .setConversationParticipant .. => [.communityChanged, .conversationParticipantUpserted]
  | .removeConversationParticipant .. => [.communityChanged, .conversationParticipantRemoved]
  | .archiveConversation .. => [.conversationArchived]
  | .pinConversation .. => [.conversationPinned]
  | .setMarkedUnread .. => [.conversationMarkedUnread]
  | .setDraft .. => [.draftChanged]
  | .setConversationNotifications .. => [.conversationNotificationsUpdated]
  | .setConversationMessageRetention .. => [.conversationMessageRetentionUpdated]
  | .upsertFolder .. => [.folderUpserted]
  | .deleteFolder .. => [.folderDeleted]
  | .queueMessage .. | .forwardMessage .. => [.messageQueued]
  | .acknowledgeMessage .. => [.messageAcknowledged]
  | .setDeliveryState .. => [.deliveryStateUpdated]
  | .editMessage .. => [.messageEdited]
  | .deleteMessages .. => [.messagesDeleted]
  | .markRead .. => [.conversationRead]
  | .markTopicRead .. => [.topicReadChanged]
  | .setTopicDraft .. => [.topicDraftChanged]
  | .setReaction .. => [.reactionUpdated]
  | .pinMessage .. => [.messagePinned]
  | .votePoll .. => [.pollVoteChanged]
  | .createInvoice .. => [.invoiceCreated]
  | .upsertOrder .. => [.orderUpserted]
  | .checkoutInvoice .. | .refundOrder .. => [.walletChanged, .orderUpserted]
  | .creditWalletSettlement .. => [.walletChanged]
  | .publishStory .. | .viewStory .. | .reactStory .. => [.storyChanged]
  | .deleteStory .. => [.storyDeleted]
  | .updateCommunity .. | .subscribeChannel .. | .unsubscribeChannel ..
  | .setCommunitySlowMode .. | .createInviteLink .. | .revokeInviteLink ..
  | .requestCommunityJoin .. | .upsertForumTopic .. | .deleteForumTopic .. => [.communityChanged]
  | .moderateCommunityMember .. | .setCommunityMember .. =>
      [.communityChanged, .conversationParticipantUpserted, .conversationParticipantRemoved]
  | .respondCommunityJoin .. => [.communityChanged, .conversationParticipantUpserted]
  | .registerBot .. | .beginBotInvocation .. | .finishBotExecution .. => [.botRegistryChanged]
  | .installMiniApp .. => [.miniAppInstalled]
  | .grantMiniApp .. => [.miniAppGrantUpdated]
  | .openMiniApp .. => [.miniAppOpened]
  | .miniAppCall .. => [.miniAppResponded]

def Decision.Within (tags : List EventTag) (decision : Decision) : Prop :=
  Ensures (fun events ↦ ∀ event ∈ events, event.tag ∈ tags) decision

namespace Decision

variable {tags : List EventTag}

theorem within_pure {events : List Event} :
    Within tags (pure events) ↔ ∀ event ∈ events, event.tag ∈ tags := Iff.rfl

theorem within_throw {error : EngineError} : Within tags (throw error) := trivial

theorem within_bind {α : Type} {x : Except EngineError α} {f : α → Decision}
    (h : ∀ a, Within tags (f a)) : Within tags (x >>= f) :=
  ensures_bind_iff.mpr fun a _ ↦ h a

theorem within_one {event : Event} (h : event.tag ∈ tags) : Within tags (pure [event]) := by
  simpa [within_pure] using h

theorem within_two {event event' : Event} (h : event.tag ∈ tags) (h' : event'.tag ∈ tags) :
    Within tags (pure [event, event']) := by
  simpa [within_pure] using ⟨h, h'⟩

end Decision

open Decision

namespace MessagingState

variable (state : MessagingState)

theorem participantEvent_tags (community : CommunityState) (conversationId : ConversationId)
    (actorId : ActorId) : ∀ event ∈ state.participantEvent community conversationId actorId,
      event.tag = .conversationParticipantUpserted ∨
        event.tag = .conversationParticipantRemoved := by
  unfold participantEvent
  split
  · split <;> simp [Event.tag]
  · simp

theorem decide_eventTags (command : Command) : Within command.eventTags (state.decide command) := by
  cases command
  case setConversationParticipant =>
    refine within_bind fun _ ↦ within_bind fun _ ↦ within_bind fun _ ↦ ?_
    split
    · exact within_bind fun _ ↦ within_two (.head _) (.tail _ (.head _))
    · exact within_one (.tail _ (.head _))
  case removeConversationParticipant =>
    refine within_bind fun _ ↦ within_bind fun _ ↦ ?_
    split
    · exact within_bind fun _ ↦ within_two (.head _) (.tail _ (.head _))
    · exact within_one (.tail _ (.head _))
  case votePoll =>
    refine within_bind fun _ ↦ within_bind fun _ ↦ ?_
    split
    · exact within_bind fun _ ↦ within_one (.head _)
    · exact within_throw
  case checkoutInvoice =>
    refine within_bind fun _ ↦ within_bind fun _ ↦ within_bind fun _ ↦ ?_
    split
    · exact within_bind fun _ ↦ within_one (.tail _ (.head _))
    · exact within_bind fun _ ↦ within_bind fun _ ↦ within_bind fun _ ↦
        within_two (.head _) (.tail _ (.head _))
  case refundOrder =>
    refine within_bind fun _ ↦ within_bind fun _ ↦ within_bind fun _ ↦ ?_
    split
    · exact within_one (.tail _ (.head _))
    · exact within_bind fun _ ↦ within_bind fun _ ↦ within_bind fun _ ↦
        within_two (.head _) (.tail _ (.head _))
  case updateCommunity =>
    refine within_bind fun _ ↦ within_bind fun _ ↦ ?_
    split <;> exact within_bind fun _ ↦ within_one (.head _)
  case moderateCommunityMember =>
    refine within_bind fun _ ↦ within_bind fun _ ↦ within_bind fun _ ↦ within_bind fun _ ↦ ?_
    rw [within_pure]
    simp only [List.mem_cons, forall_eq_or_imp]
    refine ⟨.head _, fun event hevent ↦ ?_⟩
    rcases state.participantEvent_tags _ _ _ event hevent with h | h <;>
      simp [h, Command.eventTags]
  case setCommunityMember =>
    refine within_bind fun _ ↦ within_bind fun _ ↦ within_bind fun _ ↦ within_bind fun _ ↦ ?_
    rw [within_pure]
    simp only [List.mem_cons, forall_eq_or_imp]
    refine ⟨.head _, fun event hevent ↦ ?_⟩
    rcases state.participantEvent_tags _ _ _ event hevent with h | h <;>
      simp [h, Command.eventTags]
  case respondCommunityJoin =>
    refine within_bind fun _ ↦ within_bind fun _ ↦ ?_
    split
    · refine within_bind fun _ ↦ ?_
      rw [within_pure]
      simp only [List.mem_cons, forall_eq_or_imp, Option.mem_toList, Option.map_eq_some_iff]
      refine ⟨.head _, ?_⟩
      rintro event ⟨participant, _, rfl⟩
      exact .tail _ (.head _)
    · exact within_bind fun _ ↦ within_one (.head _)
  case openMiniApp =>
    refine within_bind fun _ ↦ ?_
    simp only
    split
    · exact within_throw
    · exact within_one (.head _)
  case miniAppCall =>
    refine within_bind fun _ ↦ ?_
    split <;> repeat refine within_bind fun _ ↦ ?_
    all_goals exact within_one (.head _)
  -- every other command is a chain of checks that ends in a single event
  all_goals
    repeat refine within_bind fun _ ↦ ?_
    exact within_one (.head _)

end MessagingState

end Fabushi.Messaging
