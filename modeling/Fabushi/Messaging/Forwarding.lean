import Fabushi.Messaging.EngineRuns

/-!
# Forwarding and the right to send

`QueueMessage` checks the sender's membership, the permissions of the
conversation, the standing of the member, channel posting, the topic, slow mode
and secrecy. `ForwardMessage` writes into the same message store and checks none
of these. What it would take to respect them is `MaySend`.
-/

namespace Fabushi.Messaging

open MachineInt Result Std

def EngineError.isSendingRule : EngineError → Bool
  | .senderNotParticipant .. | .messageSendPermissionDenied .. | .mediaSendPermissionDenied ..
  | .pollSendPermissionDenied .. | .communitySendRestricted .. | .communityMediaRestricted ..
  | .communityPollRestricted .. | .forumTopicNotFound .. | .forumTopicClosed ..
  | .slowModeActive .. | .secretPlaintextRejected | .secretContentOutsideSecretConversation
  | .secretEnvelopeMismatch => true
  | _ => false

abbrev EngineError.IsSendingRule (error : EngineError) : Prop :=
  error.isSendingRule = true

attribute [local simp] EngineError.isSendingRule

structure CommunityMember.MaySend (member : CommunityMember) (content : MessageContent) : Prop where
  present : ¬ member.status.isGone = true
  messages : ¬ (member.status = .restricted ∧ member.restrictions.sendMessages = true)
  media : content.usesMedia = true →
    ¬ (member.status = .restricted ∧ member.restrictions.sendMedia = true)
  polls : content.isPoll = true →
    ¬ (member.status = .restricted ∧ member.restrictions.sendPolls = true)

def MessagingState.Paced (state : MessagingState) (conversationId : ConversationId)
    (senderId : ActorId) (atMs : Int64) (community : CommunityState) : Prop :=
  ∀ seconds ∈ community.slowModeSeconds, community.canModerate senderId = false →
    ∀ latest ∈ state.latestMessageOf conversationId senderId atMs,
      saturatingAdd latest.createdAtMs (saturatingMul (Int64.ofNat seconds.toNat) 1000) ≤ atMs

structure EncryptedSecretMessage.Fits (envelope : EncryptedSecretMessage)
    (conversation : Conversation) (conversationId : ConversationId) (senderId : ActorId) : Prop where
  conversationId_eq : envelope.conversationId = conversationId
  senderId_eq : envelope.senderId = senderId
  sender : conversation.hasParticipant envelope.senderId = true
  recipient : conversation.hasParticipant envelope.recipientId = true
  distinct : envelope.senderId ≠ envelope.recipientId

structure MessagingState.MaySend (state : MessagingState) (conversation : Conversation)
    (conversationId : ConversationId) (senderId : ActorId) (content : MessageContent)
    (atMs : Int64) : Prop where
  member : conversation.hasParticipant senderId = true ∨ conversation.isOwnedBy senderId = true
  messages : conversation.permissions.canSendMessages = true
  media : content.usesMedia = true → conversation.permissions.canSendMedia = true
  polls : content.isPoll = true → conversation.permissions.canSendPolls = true
  standing : ∀ community ∈ state.communities[conversationId]?,
    ∀ member ∈ community.members[senderId]?, member.MaySend content
  channel : conversation.kind = .channel →
    state.canPostToChannel conversation conversationId senderId = true
  paced : ∀ community ∈ state.communities[conversationId]?,
    state.Paced conversationId senderId atMs community
  sealed : conversation.kind = .secret → content.isSecret = true ∨ content.isService = true
  unsealed : content.isSecret = true → conversation.kind = .secret
  envelope : ∀ envelope, content = .secret envelope →
    envelope.Fits conversation conversationId senderId

namespace MessagingState

variable {state : MessagingState} {conversation : Conversation} {conversationId : ConversationId}
  {senderId : ActorId} {content : MessageContent} {atMs : Int64}

/-! ## The checks of the send path -/

theorem avoids_checkConversationPermissions :
    Avoids EngineError.IsSendingRule
        (checkConversationPermissions conversation conversationId senderId content) ↔
      (conversation.hasParticipant senderId = true ∨ conversation.isOwnedBy senderId = true) ∧
        conversation.permissions.canSendMessages = true ∧
        (content.usesMedia = true → conversation.permissions.canSendMedia = true) ∧
        (content.isPoll = true → conversation.permissions.canSendPolls = true) := by
  simp only [checkConversationPermissions, avoids_bind, avoids_ensure, ensure_eq_ok,
    EngineError.IsSendingRule, EngineError.isSendingRule, forall_const]
  constructor
  · rintro ⟨hmember, hrest⟩
    obtain ⟨hmessages, hrest⟩ := hrest hmember
    obtain ⟨hmedia, hrest⟩ := hrest hmessages
    have hpolls := hrest hmedia
    refine ⟨hmember, hmessages, fun huses ↦ ?_, fun hpoll ↦ ?_⟩
    · exact not_not.mp fun hno ↦ hmedia ⟨huses, hno⟩
    · exact not_not.mp fun hno ↦ hpolls ⟨hpoll, hno⟩
  · rintro ⟨hmember, hmessages, hmedia, hpolls⟩
    refine ⟨hmember, fun _ ↦ ⟨hmessages, fun _ ↦ ⟨?_, fun _ ↦ ?_⟩⟩⟩
    · exact fun ⟨huses, hno⟩ ↦ hno (hmedia huses)
    · exact fun ⟨hpoll, hno⟩ ↦ hno (hpolls hpoll)

theorem failsOnly_checkConversationPermissions : FailsOnly EngineError.IsSendingRule
    (checkConversationPermissions conversation conversationId senderId content) := by
  refine failsOnly_bind (failsOnly_ensure rfl) fun _ ↦ ?_
  refine failsOnly_bind (failsOnly_ensure rfl) fun _ ↦ ?_
  refine failsOnly_bind (failsOnly_ensure rfl) fun _ ↦ ?_
  exact failsOnly_ensure rfl

theorem avoids_checkMemberRestrictions :
    Avoids EngineError.IsSendingRule
        (state.checkMemberRestrictions conversationId senderId content) ↔
      ∀ community ∈ state.communities[conversationId]?,
        ∀ member ∈ community.members[senderId]?, member.MaySend content := by
  unfold checkMemberRestrictions
  cases hfound : state.communities[conversationId]?.bind fun community ↦
      community.members[senderId]? with
  | none =>
      refine iff_of_true avoids_ok fun community hcommunity member hmember ↦ ?_
      rw [Option.mem_def] at hcommunity hmember
      rw [hcommunity, Option.bind_some, hmember] at hfound
      cases hfound
  | some member =>
      obtain ⟨community, hcommunity, hmember⟩ := Option.bind_eq_some_iff.mp hfound
      simp only [avoids_bind, avoids_ensure, ensure_eq_ok, EngineError.IsSendingRule,
        EngineError.isSendingRule, forall_const, hcommunity, Option.mem_def, Option.some.injEq,
        forall_eq', hmember]
      constructor
      · rintro ⟨hsend, hrest⟩
        obtain ⟨hmedia, hrest⟩ := hrest hsend
        have hpolls := hrest hmedia
        exact ⟨fun hgone ↦ hsend (.inl hgone), fun hmessages ↦ hsend (.inr hmessages),
          fun huses hno ↦ hmedia ⟨huses, hno⟩, fun hpoll hno ↦ hpolls ⟨hpoll, hno⟩⟩
      · rintro ⟨hpresent, hmessages, hmedia, hpolls⟩
        refine ⟨?_, fun _ ↦ ⟨?_, fun _ ↦ ?_⟩⟩
        · exact fun hno ↦ hno.elim hpresent hmessages
        · exact fun hno ↦ hmedia hno.1 hno.2
        · exact fun hno ↦ hpolls hno.1 hno.2

theorem failsOnly_checkMemberRestrictions : FailsOnly EngineError.IsSendingRule
    (state.checkMemberRestrictions conversationId senderId content) := by
  unfold checkMemberRestrictions
  split
  · exact failsOnly_ok
  · refine failsOnly_bind (failsOnly_ensure rfl) fun _ ↦ ?_
    refine failsOnly_bind (failsOnly_ensure rfl) fun _ ↦ ?_
    exact failsOnly_ensure rfl

theorem avoids_checkSlowMode {community : CommunityState} :
    Avoids EngineError.IsSendingRule
        (state.checkSlowMode community conversationId senderId atMs) ↔
      state.Paced conversationId senderId atMs community := by
  unfold checkSlowMode Paced
  cases community.slowModeSeconds with
  | none => simp [avoids_ok]
  | some seconds =>
      by_cases hmoderates : community.canModerate senderId = true
      · simp [hmoderates, avoids_ok]
      · cases state.latestMessageOf conversationId senderId atMs with
        | none => simp [hmoderates, avoids_ok]
        | some latest =>
            simp only [hmoderates, Bool.false_eq_true, if_false, avoids_ensure,
              EngineError.IsSendingRule, EngineError.isSendingRule, forall_const, Option.mem_def,
              Option.some.injEq, forall_eq', Int64.not_lt]

theorem avoids_checkCommunityRules :
    Avoids EngineError.IsSendingRule
        (state.checkCommunityRules conversationId senderId none atMs) ↔
      ∀ community ∈ state.communities[conversationId]?,
        state.Paced conversationId senderId atMs community := by
  unfold checkCommunityRules
  cases state.communities[conversationId]? with
  | none => simp [avoids_ok]
  | some community =>
      simp only [Option.mem_def, Option.some.injEq, forall_eq']
      exact avoids_checkSlowMode

theorem failsOnly_checkCommunityRules {threadRootMessageId : Option MessageId} :
    FailsOnly EngineError.IsSendingRule
      (state.checkCommunityRules conversationId senderId threadRootMessageId atMs) := by
  have htopic : ∀ community : CommunityState, FailsOnly EngineError.IsSendingRule
      (checkTopicOpen community conversationId threadRootMessageId) := by
    intro community
    unfold checkTopicOpen
    split
    · exact failsOnly_ok
    · exact failsOnly_bind (failsOnly_okOr rfl) fun _ ↦ failsOnly_ensure rfl
  unfold checkCommunityRules
  split
  · exact failsOnly_ok
  · refine failsOnly_bind (htopic _) fun _ ↦ ?_
    unfold checkSlowMode
    split
    · exact failsOnly_ok
    · split
      · exact failsOnly_ok
      · split
        · exact failsOnly_ok
        · exact failsOnly_ensure rfl

theorem avoids_envelope : Avoids EngineError.IsSendingRule (match content with
    | .secret envelope =>
        ensure (¬ (envelope.conversationId ≠ conversationId ∨ envelope.senderId ≠ senderId ∨
          ¬ conversation.hasParticipant envelope.senderId ∨
          ¬ conversation.hasParticipant envelope.recipientId ∨
          envelope.senderId = envelope.recipientId)) EngineError.secretEnvelopeMismatch
    | _ => .ok ()) ↔ ∀ envelope, content = .secret envelope →
      envelope.Fits conversation conversationId senderId := by
  cases content with
  | secret envelope =>
      simp only [avoids_ensure, EngineError.IsSendingRule, EngineError.isSendingRule,
        forall_const, not_or, not_not, MessageContent.secret.injEq, forall_eq']
      constructor
      · rintro ⟨hid, hsender, hfrom, hto, hdistinct⟩
        exact ⟨hid, hsender, hfrom, hto, hdistinct⟩
      · rintro ⟨hid, hsender, hfrom, hto, hdistinct⟩
        exact ⟨hid, hsender, hfrom, hto, hdistinct⟩
  | _ => simp [avoids_ok]

theorem avoids_checkSecrecy :
    Avoids EngineError.IsSendingRule
        (checkSecrecy conversation conversationId senderId content) ↔
      (conversation.kind = .secret → content.isSecret = true ∨ content.isService = true) ∧
        (content.isSecret = true → conversation.kind = .secret) ∧
        ∀ envelope, content = .secret envelope →
          envelope.Fits conversation conversationId senderId := by
  unfold checkSecrecy
  simp only [avoids_bind, avoids_ensure, ensure_eq_ok, EngineError.IsSendingRule,
    EngineError.isSendingRule, forall_const]
  constructor
  · rintro ⟨hsealed, hrest⟩
    obtain ⟨hunsealed, hrest⟩ := hrest hsealed
    refine ⟨fun hkind ↦ ?_, fun hsecret ↦ ?_, avoids_envelope.mp (hrest hunsealed)⟩
    · by_contra hno
      rw [not_or] at hno
      exact hsealed ⟨hkind, hno⟩
    · by_contra hkind
      exact hunsealed ⟨hkind, hsecret⟩
  · rintro ⟨hsealed, hunsealed, henvelope⟩
    refine ⟨?_, fun _ ↦ ⟨?_, fun _ ↦ avoids_envelope.mpr henvelope⟩⟩
    · rintro ⟨hkind, hplain, hservice⟩
      exact (hsealed hkind).elim hplain hservice
    · rintro ⟨hkind, hsecret⟩
      exact hkind (hunsealed hsecret)

theorem failsOnly_checkSecrecy : FailsOnly EngineError.IsSendingRule
    (checkSecrecy conversation conversationId senderId content) := by
  refine failsOnly_bind (failsOnly_ensure rfl) fun _ ↦ ?_
  refine failsOnly_bind (failsOnly_ensure rfl) fun _ ↦ ?_
  split
  · exact failsOnly_ensure rfl
  · exact failsOnly_ok

theorem avoids_liftRetention {α : Type} (x : Except MessageRetentionError α) :
    Avoids EngineError.IsSendingRule (liftError .messageRetention x) := by
  cases x with
  | ok a => exact avoids_ok
  | error e => exact avoids_error.mpr Bool.noConfusion

theorem avoids_decideQueueMessage {sender : Actor}
    (hconversation : state.conversations[conversationId]? = some conversation)
    (hsender : state.actors[senderId]? = some sender) (localMessageId : MessageId)
    (clientMessageId : ClientMessageId) (replyToMessageId : Option MessageId)
    (scheduledAtMs : Option Int64) (silent protectedContent : Bool) :
    Avoids EngineError.IsSendingRule (state.decideQueueMessage conversationId localMessageId
        clientMessageId senderId content replyToMessageId none atMs scheduledAtMs silent
        protectedContent) ↔
      state.MaySend conversation conversationId senderId content atMs := by
  have hfound : state.requireConversation conversationId = .ok conversation :=
    okOr_eq_ok.mpr hconversation
  have hactor : state.requireActor senderId = .ok sender := okOr_eq_ok.mpr hsender
  rw [decideQueueMessage, hfound, hactor]
  change Avoids _ (checkConversationPermissions _ _ _ _ >>= _) ↔ _
  constructor
  · intro h
    obtain ⟨hpermissions, _, -, h⟩ := failsOnly_checkConversationPermissions.of_bind h
    obtain ⟨hrestrictions, _, -, h⟩ := failsOnly_checkMemberRestrictions.of_bind h
    obtain ⟨hchannel, _, -, h⟩ := (failsOnly_ensure (P := EngineError.IsSendingRule) rfl).of_bind h
    obtain ⟨hrules, _, -, h⟩ := failsOnly_checkCommunityRules.of_bind h
    obtain ⟨hsecrecy, -⟩ := failsOnly_checkSecrecy.of_bind h
    obtain ⟨hmember, hmessages, hmedia, hpolls⟩ :=
      avoids_checkConversationPermissions.mp hpermissions
    obtain ⟨hsealed, hunsealed, henvelope⟩ := avoids_checkSecrecy.mp hsecrecy
    refine ⟨hmember, hmessages, hmedia, hpolls, avoids_checkMemberRestrictions.mp hrestrictions,
      fun hkind ↦ ?_, avoids_checkCommunityRules.mp hrules, hsealed, hunsealed, henvelope⟩
    exact not_not.mp fun hno ↦ avoids_ensure.mp hchannel rfl ⟨hkind, hno⟩
  · intro h
    refine avoids_bind.mpr ⟨avoids_checkConversationPermissions.mpr
      ⟨h.member, h.messages, h.media, h.polls⟩, fun _ _ ↦ ?_⟩
    refine avoids_bind.mpr ⟨avoids_checkMemberRestrictions.mpr h.standing, fun _ _ ↦ ?_⟩
    refine avoids_bind.mpr ⟨avoids_ensure.mpr fun _ hno ↦ hno.2 (h.channel hno.1), fun _ _ ↦ ?_⟩
    refine avoids_bind.mpr ⟨avoids_checkCommunityRules.mpr h.paced, fun _ _ ↦ ?_⟩
    refine avoids_bind.mpr ⟨avoids_checkSecrecy.mpr ⟨h.sealed, h.unsealed, h.envelope⟩,
      fun _ _ ↦ ?_⟩
    -- what is left to check is no sending rule
    refine avoids_bind.mpr ⟨avoids_ensure.mpr Bool.noConfusion, fun _ _ ↦ ?_⟩
    refine avoids_bind.mpr ⟨avoids_ensure.mpr Bool.noConfusion, fun _ _ ↦ ?_⟩
    exact avoids_bind.mpr ⟨avoids_liftRetention _, fun _ _ ↦ avoids_pure⟩

theorem exists_of_forward {sourceConversationId destinationConversationId : ConversationId}
    {messageId localMessageId : MessageId} {clientMessageId : ClientMessageId} {events : List Event}
    (h : state.decide (.forwardMessage sourceConversationId messageId destinationConversationId
      localMessageId clientMessageId senderId atMs) = .ok events) :
    ∃ original destination sender,
      state.findMessage sourceConversationId messageId = some original ∧
        state.conversations[destinationConversationId]? = some destination ∧
        state.actors[senderId]? = some sender := by
  obtain ⟨destination, hdestination, h⟩ := bind_eq_ok.mp h
  obtain ⟨sender, hsender, h⟩ := bind_eq_ok.mp h
  obtain ⟨_, -, h⟩ := bind_eq_ok.mp h
  obtain ⟨_, -, h⟩ := bind_eq_ok.mp h
  obtain ⟨original, horiginal, -⟩ := bind_eq_ok.mp h
  exact ⟨original, destination, sender, okOr_eq_ok.mp horiginal, okOr_eq_ok.mp hdestination,
    okOr_eq_ok.mp hsender⟩

end MessagingState

open MessagingState in
/-- A message that was forwarded could have been sent, as far as the sending rules
go, exactly when its sender may send its content into the destination. -/
theorem forward_respects_rights_iff (state : MessagingState)
    (sourceConversationId destinationConversationId : ConversationId)
    (messageId localMessageId : MessageId) (clientMessageId : ClientMessageId)
    (senderId : ActorId) (atMs : Int64) (events : List Event)
    (hforward : state.decide (.forwardMessage sourceConversationId messageId
      destinationConversationId localMessageId clientMessageId senderId atMs) = .ok events) :
    ∃ original destination,
      state.findMessage sourceConversationId messageId = some original ∧
        state.conversations[destinationConversationId]? = some destination ∧
        ∀ (replyToMessageId : Option MessageId) (silent protectedContent : Bool),
          Avoids EngineError.IsSendingRule (state.decide (.queueMessage destinationConversationId
              localMessageId clientMessageId senderId original.content replyToMessageId none atMs
              none silent protectedContent)) ↔
            state.MaySend destination destinationConversationId senderId original.content
              atMs := by
  obtain ⟨original, destination, sender, horiginal, hdestination, hsender⟩ :=
    exists_of_forward hforward
  refine ⟨original, destination, horiginal, hdestination, fun replyTo silent protected' ↦ ?_⟩
  exact avoids_decideQueueMessage hdestination hsender _ _ _ _ _ _

namespace Lounge

/-! A room of one, and a stranger. -/

def host : ActorId := ⟨"host"⟩
def stranger : ActorId := ⟨"stranger"⟩

def actor (id : ActorId) : Command :=
  .upsertActor { id, kind := .human, displayName := id.value }

def room : Conversation :=
  { id := ⟨"room"⟩, kind := .direct, title := "room", participants := [⟨host, .owner, 1, none⟩]
    createdAtMs := 1, updatedAtMs := 1 }

def hello : MessageContent :=
  .text { text := "hello" }

def opened : List Command :=
  [actor host, actor stranger, .upsertConversation room,
    .queueMessage room.id ⟨"m"⟩ ⟨"c"⟩ host hello none none 1 none false false]

end Lounge

open Lounge MessagingState in
theorem forward_respects_rights_host :
    ∃ original destination,
      (afterCommands opened).findMessage room.id ⟨"m"⟩ = some original ∧
        (afterCommands opened).conversations[room.id]? = some destination ∧
        ∀ (replyToMessageId : Option MessageId) (silent protectedContent : Bool),
          Avoids EngineError.IsSendingRule ((afterCommands opened).decide (.queueMessage room.id
              ⟨"n"⟩ ⟨"d"⟩ host original.content replyToMessageId none 2 none silent
              protectedContent)) ↔
            (afterCommands opened).MaySend destination room.id host original.content 2 := by
  cases h : (afterCommands opened).decide (.forwardMessage room.id ⟨"m"⟩ room.id ⟨"n"⟩ ⟨"d"⟩
      host 2) with
  | ok events => exact forward_respects_rights_iff _ _ _ _ _ _ _ _ _ h
  | error e =>
      have hok : ((afterCommands opened).decide (.forwardMessage room.id ⟨"m"⟩ room.id ⟨"n"⟩ ⟨"d"⟩
        host 2)).isOk = true := by decide +kernel
      rw [h] at hok
      cases hok

open Lounge MessagingState in
/-- A stranger forwards into a room it may not send to. -/
theorem forward_by_stranger :
    ¬ ∀ (commands : List Command) (sourceConversationId destinationConversationId : ConversationId)
      (messageId localMessageId : MessageId) (clientMessageId : ClientMessageId)
      (senderId : ActorId) (atMs : Int64) (original : Message),
      ((afterCommands commands).decide (.forwardMessage sourceConversationId messageId
        destinationConversationId localMessageId clientMessageId senderId atMs)).isOk = true →
      (afterCommands commands).findMessage sourceConversationId messageId = some original →
      Avoids EngineError.IsSendingRule ((afterCommands commands).decide (.queueMessage
        destinationConversationId localMessageId clientMessageId senderId original.content none
        none atMs none false false)) := by
  intro h
  have hforward : ((afterCommands opened).decide (.forwardMessage room.id ⟨"m"⟩ room.id ⟨"n"⟩ ⟨"d"⟩
    stranger 2)).isOk = true := by decide +kernel
  have houtside : ((afterCommands opened).conversations[room.id]?.any fun conversation ↦
      conversation.hasParticipant stranger || conversation.isOwnedBy stranger) = false := by
    decide +kernel
  cases hevents : (afterCommands opened).decide (.forwardMessage room.id ⟨"m"⟩ room.id ⟨"n"⟩ ⟨"d"⟩
      stranger 2) with
  | error e =>
      rw [hevents] at hforward
      cases hforward
  | ok events =>
      obtain ⟨original, destination, sender, horiginal, hdestination, hsender⟩ :=
        exists_of_forward hevents
      have hmay := (avoids_decideQueueMessage hdestination hsender _ _ _ _ _ _).mp
        (h opened room.id room.id ⟨"m"⟩ ⟨"n"⟩ ⟨"d"⟩ stranger 2 original hforward horiginal)
      rw [hdestination, Option.any_some, Bool.or_eq_false_iff] at houtside
      rcases hmay.member with hmember | howner
      · exact Bool.noConfusion (houtside.1.symm.trans hmember)
      · exact Bool.noConfusion (houtside.2.symm.trans howner)

end Fabushi.Messaging
