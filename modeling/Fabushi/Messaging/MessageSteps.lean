import Fabushi.Messaging.EngineRuns

/-!
# What an event does to the messages

Nine kinds of events write messages. All but one of them rewrite a stored message
in place and keep its sender, its deadline and its deletion; `MessageQueued` is
the only one that adds a message, and the decision behind it has checked that the
identifier is free.
-/

namespace Fabushi.Messaging

open Result Std

def Event.messageConversation : Event → Option ConversationId
  | .messageQueued message => some message.conversationId
  | .messageAcknowledged conversationId .. | .deliveryStateUpdated conversationId ..
  | .messageEdited conversationId .. | .messagesDeleted conversationId ..
  | .reactionUpdated conversationId .. | .messagePinned conversationId ..
  | .pollVoteChanged conversationId .. => some conversationId
  | _ => none

/-- The service acknowledges a message under the identifier it was queued with. -/
def Event.InPlace : Event → Prop
  | .messageAcknowledged _ localMessageId serverMessageId _ => localMessageId = serverMessageId
  | _ => True

def Event.newContent : Event → Option MessageContent
  | .messageEdited _ _ content _ => some content
  | _ => none

def Event.acceptedAtMs : Event → Option Int64
  | .messageAcknowledged _ _ _ acceptedAtMs => some acceptedAtMs
  | _ => none

structure Message.Keeps (old new : Message) : Prop where
  senderId : new.senderId = old.senderId
  scheduledAtMs : new.scheduledAtMs = old.scheduledAtMs
  expiresAtMs : new.expiresAtMs = old.expiresAtMs
  deleted : old.deleted = true → new.deleted = true

theorem Message.Keeps.refl (message : Message) : message.Keeps message :=
  ⟨rfl, rfl, rfl, fun h ↦ h⟩

theorem Message.Keeps.trans {a b c : Message} (hab : a.Keeps b) (hbc : b.Keeps c) : a.Keeps c :=
  ⟨hbc.senderId.trans hab.senderId, hbc.scheduledAtMs.trans hab.scheduledAtMs,
    hbc.expiresAtMs.trans hab.expiresAtMs, fun h ↦ hbc.deleted (hab.deleted h)⟩

def MessageContent.SameSecrecy (old new : MessageContent) : Prop :=
  new.isSecret = old.isSecret ∧ new.isService = old.isService

theorem MessageContent.sameSecrecy_recount (votes : BTreeMap ActorId (BTreeSet String))
    (content : MessageContent) : content.SameSecrecy (content.recount votes) := by
  cases content <;> exact ⟨rfl, rfl⟩

namespace MessagingState

variable {state : MessagingState}

/-! ## Looking up a message after a write -/

theorem findMessage_updateMessage (state : MessagingState) (conversationId k : ConversationId)
    (messageId id : MessageId) (f : Message → Message) :
    (state.updateMessage conversationId messageId f).findMessage k id =
      if conversationId = k ∧ messageId = id then (state.findMessage k id).map f
      else state.findMessage k id := by
  unfold findMessage updateMessage
  rw [BTreeMap.get_update]
  by_cases hk : conversationId = k
  · subst hk
    cases hmessages : state.messages[conversationId]? with
    | none => simp
    | some messages =>
        simp only [if_true, Option.map_some, Option.bind_some, true_and]
        rw [BTreeMap.get_update]
        split
        · rename_i hid
          rw [hid]
        · rfl
  · rw [if_neg hk, if_neg fun h ↦ hk h.1]

theorem findMessage_of_messages {state' : MessagingState} (h : state'.messages = state.messages)
    (k : ConversationId) (id : MessageId) : state'.findMessage k id = state.findMessage k id := by
  unfold findMessage
  rw [h]

theorem findMessage_applyMessageQueued (state : MessagingState) (message : Message)
    (k : ConversationId) (id : MessageId) :
    (state.applyMessageQueued message).findMessage k id =
      if message.conversationId = k ∧ message.id = id then some message
      else state.findMessage k id := by
  unfold findMessage applyMessageQueued
  rw [BTreeMap.get_upsert]
  by_cases hk : message.conversationId = k
  · subst hk
    simp only [if_true, Option.bind_some, true_and]
    rw [BTreeMap.get_insert]
    split
    · rfl
    · cases state.messages[message.conversationId]? with
      | none => simp
      | some messages => rfl
  · rw [if_neg hk, if_neg fun h ↦ hk h.1]

theorem findMessage_applyMessageAcknowledged (state : MessagingState)
    (conversationId k : ConversationId) (messageId id : MessageId) (acceptedAtMs : Int64) :
    (state.applyMessageAcknowledged conversationId messageId messageId acceptedAtMs).findMessage
        k id =
      if conversationId = k ∧ messageId = id then
        (state.findMessage k id).map fun message ↦ { message with
          id := messageId
          deliveryState := .sent
          createdAtMs := acceptedAtMs }
      else state.findMessage k id := by
  unfold findMessage applyMessageAcknowledged
  rw [BTreeMap.get_update]
  by_cases hk : conversationId = k
  · subst hk
    cases hmessages : state.messages[conversationId]? with
    | none => simp
    | some messages =>
        simp only [if_true, Option.map_some, Option.bind_some, true_and]
        by_cases hid : messageId = id
        · subst hid
          cases hmessage : messages[messageId]? with
          | none => simp [hmessage]
          | some message => simp
        · cases hmessage : messages[messageId]? with
          | none => simp [hid]
          | some message =>
              simp only [hid, if_false]
              rw [BTreeMap.get_insert_ne _ _ hid, BTreeMap.get_erase, if_neg hid]
  · rw [if_neg hk, if_neg fun h ↦ hk h.1]

theorem get_foldl_delete (messageIds : List MessageId) (messages : BTreeMap MessageId Message)
    (id : MessageId) :
    (messageIds.foldl (fun messages id ↦
        BTreeMap.update messages id fun message ↦ { message with deleted := true }) messages)[id]? =
      if id ∈ messageIds then messages[id]?.map fun message ↦ { message with deleted := true }
      else messages[id]? := by
  induction messageIds generalizing messages with
  | nil => simp
  | cons first rest ih =>
      rw [List.foldl_cons, ih, BTreeMap.get_update]
      by_cases hfirst : first = id
      · subst hfirst
        cases messages[first]? <;> simp
      · simp [hfirst, Ne.symm hfirst]

theorem findMessage_applyMessagesDeleted (state : MessagingState)
    (conversationId k : ConversationId) (messageIds : List MessageId) (id : MessageId) :
    (state.applyMessagesDeleted conversationId messageIds).findMessage k id =
      if conversationId = k ∧ id ∈ messageIds then
        (state.findMessage k id).map fun message ↦ { message with deleted := true }
      else state.findMessage k id := by
  unfold findMessage applyMessagesDeleted
  rw [BTreeMap.get_update]
  by_cases hk : conversationId = k
  · subst hk
    cases hmessages : state.messages[conversationId]? with
    | none => simp
    | some messages =>
        simp only [if_true, Option.map_some, Option.bind_some, true_and]
        exact get_foldl_delete messageIds messages id
  · rw [if_neg hk, if_neg fun h ↦ hk h.1]

/-! ## One event -/

inductive MessageStep (event : Event) (k : ConversationId) (id : MessageId) :
    Option Message → Option Message → Prop where
  | same (message : Option Message) : MessageStep event k id message message
  | rewritten {old new : Message} (hconversation : event.messageConversation = some k)
      (hid : old.id = id → new.id = id)
      (hkeeps : old.Keeps new) (hthere : new.conversationId = old.conversationId)
      (hcreated : new.createdAtMs = old.createdAtMs ∨ event.acceptedAtMs = some new.createdAtMs)
      (hcontent : old.content.SameSecrecy new.content ∨ event.newContent = some new.content) :
      MessageStep event k id (some old) (some new)
  | queued {old : Option Message} {message : Message} (hevent : event = .messageQueued message)
      (hconversation : message.conversationId = k) (hid : message.id = id) :
      MessageStep event k id old (some message)

theorem messageStep_map {event : Event} {k : ConversationId} {id : MessageId}
    {f : Message → Message} {p : Prop} [Decidable p] (message : Option Message)
    (hconversation : p → event.messageConversation = some k)
    (hid : ∀ m : Message, p → m.id = id → (f m).id = id)
    (hkeeps : ∀ m : Message, m.Keeps (f m))
    (hthere : ∀ m : Message, (f m).conversationId = m.conversationId)
    (hcreated : ∀ m : Message, (f m).createdAtMs = m.createdAtMs ∨
      event.acceptedAtMs = some (f m).createdAtMs)
    (hcontent : ∀ m : Message, m.content.SameSecrecy (f m).content ∨
      event.newContent = some (f m).content) :
    MessageStep event k id message (if p then message.map f else message) := by
  split
  · rename_i hp
    cases message with
    | none => exact .same none
    | some m =>
        exact .rewritten (hconversation hp) (hid m hp) (hkeeps m) (hthere m) (hcreated m)
          (hcontent m)
  · exact .same message

theorem messageStep_apply (state : MessagingState) {event : Event} (hplace : event.InPlace)
    (k : ConversationId) (id : MessageId) :
    MessageStep event k id (state.findMessage k id) ((state.apply event).findMessage k id) := by
  cases event
  case messageQueued message =>
    rw [apply, findMessage_applyMessageQueued]
    split
    · rename_i h
      exact .queued rfl h.1 h.2
    · exact .same _
  case messageAcknowledged conversationId localMessageId serverMessageId acceptedAtMs =>
    obtain rfl : localMessageId = serverMessageId := hplace
    rw [apply, findMessage_applyMessageAcknowledged]
    exact messageStep_map _ (fun h ↦ congrArg some h.1) (fun _ h _ ↦ h.2)
      (fun _ ↦ ⟨rfl, rfl, rfl, fun h ↦ h⟩) (fun _ ↦ rfl) (fun _ ↦ .inr rfl)
      (fun _ ↦ .inl ⟨rfl, rfl⟩)
  case deliveryStateUpdated conversationId messageId deliveryState =>
    rw [apply, findMessage_updateMessage]
    exact messageStep_map _ (fun h ↦ congrArg some h.1) (fun _ _ h ↦ h)
      (fun _ ↦ ⟨rfl, rfl, rfl, fun h ↦ h⟩) (fun _ ↦ rfl) (fun _ ↦ .inl rfl)
      (fun _ ↦ .inl ⟨rfl, rfl⟩)
  case messageEdited conversationId messageId content editedAtMs =>
    rw [apply, findMessage_updateMessage]
    exact messageStep_map _ (fun h ↦ congrArg some h.1) (fun _ _ h ↦ h)
      (fun _ ↦ ⟨rfl, rfl, rfl, fun h ↦ h⟩) (fun _ ↦ rfl) (fun _ ↦ .inl rfl)
      (fun _ ↦ .inr rfl)
  case messagesDeleted conversationId messageIds =>
    rw [apply, findMessage_applyMessagesDeleted]
    exact messageStep_map _ (fun h ↦ congrArg some h.1) (fun _ _ h ↦ h)
      (fun _ ↦ ⟨rfl, rfl, rfl, fun _ ↦ rfl⟩) (fun _ ↦ rfl) (fun _ ↦ .inl rfl)
      (fun _ ↦ .inl ⟨rfl, rfl⟩)
  case reactionUpdated conversationId messageId reaction =>
    rw [apply, findMessage_updateMessage]
    exact messageStep_map _ (fun h ↦ congrArg some h.1) (fun _ _ h ↦ h)
      (fun _ ↦ ⟨rfl, rfl, rfl, fun h ↦ h⟩) (fun _ ↦ rfl) (fun _ ↦ .inl rfl)
      (fun _ ↦ .inl ⟨rfl, rfl⟩)
  case messagePinned conversationId messageId pinned =>
    have hfind : (state.applyMessagePinned conversationId messageId pinned).findMessage k id =
        (state.updateMessage conversationId messageId fun message ↦
          { message with pinned }).findMessage k id := findMessage_of_messages rfl k id
    rw [apply, hfind, findMessage_updateMessage]
    exact messageStep_map _ (fun h ↦ congrArg some h.1) (fun _ _ h ↦ h)
      (fun _ ↦ ⟨rfl, rfl, rfl, fun h ↦ h⟩) (fun _ ↦ rfl) (fun _ ↦ .inl rfl)
      (fun _ ↦ .inl ⟨rfl, rfl⟩)
  case pollVoteChanged conversationId messageId actorId optionIds =>
    rw [apply, applyPollVoteChanged, findMessage_updateMessage]
    change MessageStep _ _ _ _ (if _ then (state.findMessage k id).map _ else state.findMessage k id)
    exact messageStep_map _ (fun h ↦ congrArg some h.1) (fun _ _ h ↦ h)
      (fun _ ↦ ⟨rfl, rfl, rfl, fun h ↦ h⟩) (fun _ ↦ rfl) (fun _ ↦ .inl rfl)
      (fun message ↦ .inl (message.content.sameSecrecy_recount _))
  all_goals exact .same _

/-! ## One command -/

end MessagingState

def Command.messageConversation : Command → Option ConversationId
  | .queueMessage conversationId .. | .acknowledgeMessage conversationId ..
  | .setDeliveryState conversationId .. | .editMessage conversationId ..
  | .deleteMessages conversationId .. | .setReaction conversationId ..
  | .pinMessage conversationId .. | .votePoll conversationId .. => some conversationId
  | .forwardMessage _ _ destinationConversationId .. => some destinationConversationId
  | _ => none

def Command.InPlace : Command → Prop
  | .acknowledgeMessage _ localMessageId serverMessageId _ => localMessageId = serverMessageId
  | _ => True

def Command.newContent : Command → Option MessageContent
  | .editMessage _ _ content _ => some content
  | _ => none

def Command.acceptedAtMs : Command → Option Int64
  | .acknowledgeMessage _ _ _ acceptedAtMs => some acceptedAtMs
  | _ => none

def Command.queuedAtMs : Command → Option Int64
  | .queueMessage _ _ _ _ _ _ _ createdAtMs _ _ _ => some createdAtMs
  | .forwardMessage _ _ _ _ _ _ createdAtMs => some createdAtMs
  | _ => none

def Command.isForward : Command → Bool
  | .forwardMessage .. => true
  | _ => false

def EventTag.isMessage : EventTag → Bool
  | .messageQueued | .messageAcknowledged | .deliveryStateUpdated | .messageEdited
  | .messagesDeleted | .reactionUpdated | .messagePinned | .pollVoteChanged => true
  | _ => false

theorem Event.messageConversation_of_tag {event : Event} (h : event.tag.isMessage = false) :
    event.messageConversation = none := by
  cases event <;> first | rfl | cases h

theorem Event.inPlace_of_tag {event : Event} (h : event.tag.isMessage = false) :
    event.InPlace := by
  cases event
  case messageAcknowledged => cases h
  all_goals trivial

theorem Command.eventTags_of_messageConversation {command : Command}
    (h : command.messageConversation = none) :
    command.eventTags.any EventTag.isMessage = false := by
  cases command <;> first | rfl | cases h

namespace MessagingState

variable {state : MessagingState}

structure Queues (state : MessagingState) (command : Command) (message : Message) : Prop where
  fresh : state.findMessage message.conversationId message.id = none
  undeleted : message.deleted = false
  created : command.queuedAtMs = some message.createdAtMs
  deadline : ∃ conversation, state.conversations[message.conversationId]? = some conversation ∧
    messageExpiry conversation.messageRetentionSeconds
      (message.scheduledAtMs.getD message.createdAtMs) = .ok message.expiresAtMs
  secrecy : command.isForward = false → ∀ conversation,
    state.conversations[message.conversationId]? = some conversation →
      (conversation.kind = .secret → message.content.isSecret = true ∨
        message.content.isService = true) ∧
      (message.content.isSecret = true → conversation.kind = .secret)

structure Writes (state : MessagingState) (command : Command) (event : Event) : Prop where
  conversation : event.messageConversation = command.messageConversation
  inPlace : command.InPlace → event.InPlace
  content : event.newContent = command.newContent
  accepted : event.acceptedAtMs = command.acceptedAtMs
  queues : ∀ message, event = .messageQueued message → state.Queues command message

theorem secrecy_of_check {conversation : Conversation} {conversationId : ConversationId}
    {senderId : ActorId} {content : MessageContent} {u : Unit}
    (h : checkSecrecy conversation conversationId senderId content = .ok u) :
    (conversation.kind = .secret → content.isSecret = true ∨ content.isService = true) ∧
      (content.isSecret = true → conversation.kind = .secret) := by
  obtain ⟨_, hsealed, h⟩ := bind_eq_ok.mp h
  obtain ⟨_, hunsealed, -⟩ := bind_eq_ok.mp h
  rw [ensure_eq_ok] at hsealed hunsealed
  constructor
  · intro hkind
    by_contra hno
    rw [not_or] at hno
    exact hsealed ⟨hkind, hno⟩
  · intro hsecret
    by_contra hkind
    exact hunsealed ⟨hkind, hsecret⟩

section Decisions

variable {conversationId : ConversationId} {localMessageId : MessageId}
  {clientMessageId : ClientMessageId} {senderId : ActorId} {content : MessageContent}
  {replyToMessageId threadRootMessageId : Option MessageId} {createdAtMs : Int64}
  {scheduledAtMs : Option Int64} {silent protectedContent : Bool} {events : List Event}

theorem writes_queueMessage
    (h : state.decide (.queueMessage conversationId localMessageId clientMessageId senderId content
      replyToMessageId threadRootMessageId createdAtMs scheduledAtMs silent protectedContent) =
        .ok events) :
    ∃ event, events = [event] ∧ state.Writes (.queueMessage conversationId localMessageId
      clientMessageId senderId content replyToMessageId threadRootMessageId createdAtMs
      scheduledAtMs silent protectedContent) event := by
  obtain ⟨conversation, hconversation, h⟩ := bind_eq_ok.mp h
  obtain ⟨_, -, h⟩ := bind_eq_ok.mp h
  obtain ⟨_, -, h⟩ := bind_eq_ok.mp h
  obtain ⟨_, -, h⟩ := bind_eq_ok.mp h
  obtain ⟨_, -, h⟩ := bind_eq_ok.mp h
  obtain ⟨_, -, h⟩ := bind_eq_ok.mp h
  obtain ⟨_, hsecrecy, h⟩ := bind_eq_ok.mp h
  obtain ⟨_, -, h⟩ := bind_eq_ok.mp h
  obtain ⟨_, hfresh, h⟩ := bind_eq_ok.mp h
  obtain ⟨expiresAtMs, hexpiry, h⟩ := bind_eq_ok.mp h
  have hfound := okOr_eq_ok.mp hconversation
  refine ⟨_, (Except.ok.inj h).symm, rfl, fun _ ↦ trivial, rfl, rfl, ?_⟩
  rintro _ ⟨⟩
  refine ⟨ensure_eq_ok.mp hfresh, rfl, rfl, ⟨conversation, hfound, liftError_eq_ok.mp hexpiry⟩, ?_⟩
  intro _ conversation' hconversation'
  obtain rfl := Option.some.inj (hfound.symm.trans hconversation')
  exact secrecy_of_check hsecrecy

theorem writes_forwardMessage {sourceConversationId destinationConversationId : ConversationId}
    {messageId : MessageId}
    (h : state.decide (.forwardMessage sourceConversationId messageId destinationConversationId
      localMessageId clientMessageId senderId createdAtMs) = .ok events) :
    ∃ event, events = [event] ∧ state.Writes (.forwardMessage sourceConversationId messageId
      destinationConversationId localMessageId clientMessageId senderId createdAtMs) event := by
  obtain ⟨destination, hdestination, h⟩ := bind_eq_ok.mp h
  obtain ⟨_, -, h⟩ := bind_eq_ok.mp h
  obtain ⟨_, -, h⟩ := bind_eq_ok.mp h
  obtain ⟨_, hfresh, h⟩ := bind_eq_ok.mp h
  obtain ⟨original, -, h⟩ := bind_eq_ok.mp h
  obtain ⟨_, -, h⟩ := bind_eq_ok.mp h
  obtain ⟨_, -, h⟩ := bind_eq_ok.mp h
  obtain ⟨expiresAtMs, hexpiry, h⟩ := bind_eq_ok.mp h
  refine ⟨_, (Except.ok.inj h).symm, rfl, fun _ ↦ trivial, rfl, rfl, ?_⟩
  rintro _ ⟨⟩
  exact ⟨ensure_eq_ok.mp hfresh, rfl, rfl, ⟨destination, okOr_eq_ok.mp hdestination,
    liftError_eq_ok.mp hexpiry⟩, fun h ↦ Bool.noConfusion h⟩

theorem writes_of_ne {command : Command} {event : Event}
    (hconversation : event.messageConversation = command.messageConversation)
    (hplace : command.InPlace → event.InPlace) (hcontent : event.newContent = command.newContent)
    (haccepted : event.acceptedAtMs = command.acceptedAtMs)
    (hqueued : event.tag ≠ .messageQueued) : state.Writes command event := by
  refine ⟨hconversation, hplace, hcontent, haccepted, ?_⟩
  rintro _ rfl
  exact absurd rfl hqueued

theorem writes_of_messageConversation {command : Command} {k : ConversationId}
    (hk : command.messageConversation = some k) (h : state.decide command = .ok events) :
    ∃ event, events = [event] ∧ state.Writes command event := by
  cases command
  case queueMessage => exact writes_queueMessage h
  case forwardMessage => exact writes_forwardMessage h
  case acknowledgeMessage =>
    obtain ⟨_, -, h⟩ := bind_eq_ok.mp h
    obtain ⟨_, -, h⟩ := bind_eq_ok.mp h
    exact ⟨_, (Except.ok.inj h).symm, writes_of_ne rfl (fun h ↦ h) rfl rfl nofun⟩
  case setDeliveryState =>
    obtain ⟨_, -, h⟩ := bind_eq_ok.mp h
    exact ⟨_, (Except.ok.inj h).symm, writes_of_ne rfl (fun _ ↦ trivial) rfl rfl nofun⟩
  case editMessage =>
    obtain ⟨_, -, h⟩ := bind_eq_ok.mp h
    exact ⟨_, (Except.ok.inj h).symm, writes_of_ne rfl (fun _ ↦ trivial) rfl rfl nofun⟩
  case deleteMessages =>
    obtain ⟨_, -, h⟩ := bind_eq_ok.mp h
    obtain ⟨_, -, h⟩ := bind_eq_ok.mp h
    exact ⟨_, (Except.ok.inj h).symm, writes_of_ne rfl (fun _ ↦ trivial) rfl rfl nofun⟩
  case setReaction =>
    obtain ⟨_, -, h⟩ := bind_eq_ok.mp h
    obtain ⟨_, -, h⟩ := bind_eq_ok.mp h
    exact ⟨_, (Except.ok.inj h).symm, writes_of_ne rfl (fun _ ↦ trivial) rfl rfl nofun⟩
  case pinMessage =>
    obtain ⟨_, -, h⟩ := bind_eq_ok.mp h
    exact ⟨_, (Except.ok.inj h).symm, writes_of_ne rfl (fun _ ↦ trivial) rfl rfl nofun⟩
  case votePoll =>
    obtain ⟨_, -, h⟩ := bind_eq_ok.mp h
    obtain ⟨message, -, h⟩ := bind_eq_ok.mp h
    split at h
    · obtain ⟨_, -, h⟩ := bind_eq_ok.mp h
      exact ⟨_, (Except.ok.inj h).symm, writes_of_ne rfl (fun _ ↦ trivial) rfl rfl nofun⟩
    · cases h
  all_goals cases hk

end Decisions

inductive NextMessage (state : MessagingState) (command : Command) (k : ConversationId)
    (id : MessageId) : Option Message → Option Message → Prop where
  | same (message : Option Message) : NextMessage state command k id message message
  | rewritten {old new : Message} (hconversation : command.messageConversation = some k)
      (hid : old.id = id → new.id = id)
      (hkeeps : old.Keeps new) (hthere : new.conversationId = old.conversationId)
      (hcreated : new.createdAtMs = old.createdAtMs ∨ command.acceptedAtMs = some new.createdAtMs)
      (hcontent : old.content.SameSecrecy new.content ∨ command.newContent = some new.content) :
      NextMessage state command k id (some old) (some new)
  | queued {message : Message} (hcommand : command.messageConversation = some k)
      (hconversation : message.conversationId = k) (hid : message.id = id)
      (hqueues : state.Queues command message) : NextMessage state command k id none (some message)

theorem findMessage_apply_of_tag {event : Event} (h : event.tag.isMessage = false)
    (state : MessagingState) (k : ConversationId) (id : MessageId) :
    (state.apply event).findMessage k id = state.findMessage k id := by
  have hnone := Event.messageConversation_of_tag h
  have hstep := messageStep_apply state (Event.inPlace_of_tag h) k id
  generalize (state.apply event).findMessage k id = new at hstep ⊢
  generalize state.findMessage k id = old at hstep ⊢
  cases hstep with
  | same => rfl
  | rewritten hconversation => cases hnone.symm.trans hconversation
  | queued hevent =>
      subst hevent
      cases hnone

theorem findMessage_applyAll_of_tags {events : List Event}
    (h : ∀ event ∈ events, event.tag.isMessage = false) (state : MessagingState)
    (k : ConversationId) (id : MessageId) :
    (state.applyAll events).findMessage k id = state.findMessage k id := by
  induction events generalizing state with
  | nil => rfl
  | cons event events ih =>
      rw [applyAll, List.foldl_cons]
      refine (ih (fun e he ↦ h e (List.mem_cons_of_mem _ he)) _).trans ?_
      exact findMessage_apply_of_tag (h event List.mem_cons_self) state k id

theorem nextMessage (state : MessagingState) {command : Command} (hplace : command.InPlace)
    (k : ConversationId) (id : MessageId) :
    NextMessage state command k id (state.findMessage k id)
      ((state.next command).findMessage k id) := by
  unfold next execute
  cases hdecide : state.decide command with
  | error e => exact .same _
  | ok events =>
      dsimp only
      cases htarget : command.messageConversation with
      | none =>
          rw [findMessage_applyAll_of_tags]
          · exact .same _
          · intro event hevent
            have hwithin := state.decide_eventTags command
            rw [hdecide] at hwithin
            have htags := Command.eventTags_of_messageConversation htarget
            simpa using List.any_eq_false.mp htags _ (hwithin event hevent)
      | some target =>
          obtain ⟨event, rfl, hwrites⟩ := writes_of_messageConversation htarget hdecide
          have hsame := hwrites.conversation
          change NextMessage _ _ _ _ _ ((state.apply event).findMessage k id)
          generalize hnew : (state.apply event).findMessage k id = new
          have hstep := messageStep_apply state (hwrites.inPlace hplace) k id
          rw [hnew] at hstep
          cases hold : state.findMessage k id with
          | none =>
              rw [hold] at hstep
              cases hstep with
              | same => exact .same _
              | queued hevent hconversation hid =>
                  subst hevent
                  refine .queued ?_ hconversation hid (hwrites.queues _ rfl)
                  rw [← hsame, ← hconversation]
                  rfl
          | some old =>
              rw [hold] at hstep
              cases hstep with
              | same => exact .same _
              | rewritten hconversation hid hkeeps hthere hcreated hcontent =>
                  rw [hsame] at hconversation
                  rw [hwrites.content] at hcontent
                  rw [hwrites.accepted] at hcreated
                  exact .rewritten hconversation hid hkeeps hthere hcreated hcontent
              | queued hevent hconversation hid =>
                  have hfresh := (hwrites.queues _ hevent).fresh
                  rw [hconversation, hid, hold] at hfresh
                  cases hfresh

end MessagingState

end Fabushi.Messaging
