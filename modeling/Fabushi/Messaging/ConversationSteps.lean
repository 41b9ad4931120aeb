import Fabushi.Messaging.EngineRuns

/-!
# What a command does to the conversations

No conversation disappears. A conversation is replaced as a whole by
`UpsertConversation` only, and its retention is otherwise written by
`SetConversationMessageRetention` only; every other event keeps its kind and its
retention.
-/

namespace Fabushi.Messaging

open Result Std

/-- What every rewriting of a conversation but the two above keeps. -/
structure Conversation.Keeps (old new : Conversation) : Prop where
  id : new.id = old.id
  kind : new.kind = old.kind
  seconds : new.messageRetentionSeconds = old.messageRetentionSeconds
  revision : new.retentionRevision = old.retentionRevision

theorem Conversation.Keeps.refl (conversation : Conversation) : conversation.Keeps conversation :=
  ⟨rfl, rfl, rfl, rfl⟩

theorem Conversation.Keeps.trans {a b c : Conversation} (hab : a.Keeps b) (hbc : b.Keeps c) :
    a.Keeps c :=
  ⟨hbc.id.trans hab.id, hbc.kind.trans hab.kind, hbc.seconds.trans hab.seconds,
    hbc.revision.trans hab.revision⟩

def KeptConversation (old new : Option Conversation) : Prop :=
  (old = none ∧ new = none) ∨ ∃ a b, old = some a ∧ new = some b ∧ a.Keeps b

theorem KeptConversation.refl (old : Option Conversation) : KeptConversation old old := by
  cases old with
  | none => exact .inl ⟨rfl, rfl⟩
  | some a => exact .inr ⟨a, a, rfl, rfl, .refl a⟩

theorem KeptConversation.trans {a b c : Option Conversation} (hab : KeptConversation a b)
    (hbc : KeptConversation b c) : KeptConversation a c := by
  rcases hab with ⟨rfl, rfl⟩ | ⟨x, y, rfl, rfl, hxy⟩
  · exact hbc
  · rcases hbc with ⟨h, -⟩ | ⟨y', z, hy, rfl, hyz⟩
    · cases h
    · obtain rfl := Option.some.inj hy
      exact .inr ⟨x, z, rfl, rfl, hxy.trans hyz⟩

theorem keptConversation_map {f : Conversation → Conversation}
    (hf : ∀ c : Conversation, c.Keeps (f c)) {p : Prop} [Decidable p] (old : Option Conversation) :
    KeptConversation old (if p then old.map f else old) := by
  split
  · cases old with
    | none => exact .refl none
    | some a => exact .inr ⟨a, f a, rfl, rfl, hf a⟩
  · exact .refl old

def EventTag.replacesConversation : EventTag → Bool
  | .conversationUpserted | .conversationMessageRetentionUpdated => true
  | _ => false

namespace MessagingState

variable {state : MessagingState}

theorem get_updateConversation (state : MessagingState) (id k : ConversationId)
    (f : Conversation → Conversation) :
    (BTreeMap.update state.conversations id f)[k]? =
      if id = k then state.conversations[k]?.map f else state.conversations[k]? := by
  rw [BTreeMap.get_update]
  split
  · rename_i hk
    rw [hk]
  · rfl

theorem kept_updateConversation {id k : ConversationId} {f : Conversation → Conversation}
    (hf : ∀ c : Conversation, c.Keeps (f c)) :
    KeptConversation state.conversations[k]? (BTreeMap.update state.conversations id f)[k]? := by
  rw [get_updateConversation]
  exact keptConversation_map hf _

theorem kept_apply (state : MessagingState) {event : Event}
    (h : event.tag.replacesConversation = false) (k : ConversationId) :
    KeptConversation state.conversations[k]? (state.apply event).conversations[k]? := by
  cases event
  case conversationUpserted => cases h
  case conversationMessageRetentionUpdated => cases h
  case conversationInfoUpdated => exact kept_updateConversation fun _ ↦ ⟨rfl, rfl, rfl, rfl⟩
  case conversationParticipantUpserted => exact kept_updateConversation fun _ ↦ ⟨rfl, rfl, rfl, rfl⟩
  case conversationParticipantRemoved => exact kept_updateConversation fun _ ↦ ⟨rfl, rfl, rfl, rfl⟩
  case conversationArchived => exact kept_updateConversation fun _ ↦ ⟨rfl, rfl, rfl, rfl⟩
  case conversationPinned => exact kept_updateConversation fun _ ↦ ⟨rfl, rfl, rfl, rfl⟩
  case conversationMarkedUnread => exact kept_updateConversation fun _ ↦ ⟨rfl, rfl, rfl, rfl⟩
  case conversationNotificationsUpdated => exact kept_updateConversation fun _ ↦ ⟨rfl, rfl, rfl, rfl⟩
  case folderDeleted =>
    change KeptConversation _ (state.conversations.map _)[k]?
    rw [ExtTreeMap.getElem?_map]
    cases state.conversations[k]? with
    | none => exact .inl ⟨rfl, rfl⟩
    | some conversation => exact .inr ⟨_, _, rfl, rfl, rfl, rfl, rfl, rfl⟩
  case messageQueued => exact kept_updateConversation fun _ ↦ ⟨rfl, rfl, rfl, rfl⟩
  case messageAcknowledged =>
    refine kept_updateConversation fun conversation ↦ ?_
    split
    · exact ⟨rfl, rfl, rfl, rfl⟩
    · exact .refl conversation
  case conversationRead => exact kept_updateConversation fun _ ↦ ⟨rfl, rfl, rfl, rfl⟩
  case messagePinned => exact kept_updateConversation fun _ ↦ ⟨rfl, rfl, rfl, rfl⟩
  all_goals exact .refl _

theorem kept_applyAll {events : List Event}
    (h : ∀ event ∈ events, event.tag.replacesConversation = false) (state : MessagingState)
    (k : ConversationId) :
    KeptConversation state.conversations[k]? (state.applyAll events).conversations[k]? := by
  induction events generalizing state with
  | nil => exact .refl _
  | cons event events ih =>
      rw [applyAll, List.foldl_cons]
      exact (kept_apply state (h event List.mem_cons_self) k).trans
        (ih (fun e he ↦ h e (List.mem_cons_of_mem _ he)) _)

inductive NextConversation (command : Command) (k : ConversationId) :
    Option Conversation → Option Conversation → Prop where
  | kept {old new : Option Conversation} (hkept : KeptConversation old new) :
      NextConversation command k old new
  | retained {old : Conversation} {seconds : Option UInt32} {expected : UInt64}
      (hcommand : command = .setConversationMessageRetention k seconds expected)
      (hexpected : expected = old.retentionRevision) (hseconds : seconds ≠ some 0)
      (hroom : old.retentionRevision.toNat + 1 < 2 ^ 64) :
      NextConversation command k (some old) (some { old with
        messageRetentionSeconds := seconds
        retentionRevision := old.retentionRevision + 1 })
  | upserted {old : Option Conversation} {conversation : Conversation}
      (hcommand : command = .upsertConversation conversation) (hid : conversation.id = k) :
      NextConversation command k old (some conversation)

theorem change_eq_ok {current retention : ConversationMessageRetention} {seconds : Option UInt32}
    {expected : UInt64} (h : current.change seconds expected = .ok retention) :
    expected = current.revision ∧ seconds ≠ some 0 ∧ current.revision.toNat + 1 < 2 ^ 64 ∧
      (retention.policy.map fun policy ↦ policy.seconds) = seconds ∧
      retention.revision = current.revision + 1 := by
  obtain ⟨policy, hpolicy, h⟩ := bind_eq_ok.mp h
  obtain ⟨revision, hrevision, h⟩ := bind_eq_ok.mp h
  obtain rfl := Except.ok.inj h
  obtain ⟨_, hactual, hrevision⟩ := bind_eq_ok.mp hrevision
  obtain ⟨_, hroom, hrevision⟩ := bind_eq_ok.mp hrevision
  have hseconds : seconds ≠ some 0 ∧ (policy.map fun policy ↦ policy.seconds) = seconds := by
    cases seconds with
    | none =>
        obtain rfl := Except.ok.inj hpolicy
        exact ⟨nofun, rfl⟩
    | some n =>
        by_cases hn : n ≠ 0
        · rw [retentionPolicy, MessageRetentionPolicy.new, dif_pos hn] at hpolicy
          obtain rfl := Except.ok.inj hpolicy
          exact ⟨fun heq ↦ hn (Option.some.inj heq), rfl⟩
        · rw [retentionPolicy, MessageRetentionPolicy.new, dif_neg hn] at hpolicy
          cases hpolicy
  exact ⟨(ensure_eq_ok.mp hactual).symm, hseconds.1, ensure_eq_ok.mp hroom, hseconds.2,
    (Except.ok.inj hrevision).symm⟩

theorem nextConversation_retention {conversationId : ConversationId} {seconds : Option UInt32}
    {expected : UInt64} {events : List Event}
    (h : state.decide (.setConversationMessageRetention conversationId seconds expected) =
      .ok events) (k : ConversationId) :
    NextConversation (.setConversationMessageRetention conversationId seconds expected) k
      state.conversations[k]? (state.applyAll events).conversations[k]? := by
  obtain ⟨conversation, hconversation, h⟩ := bind_eq_ok.mp h
  obtain ⟨policy, -, h⟩ := bind_eq_ok.mp h
  obtain ⟨retention, hchange, h⟩ := bind_eq_ok.mp h
  obtain rfl := Except.ok.inj h
  have hfound := okOr_eq_ok.mp hconversation
  change NextConversation _ _ _ (BTreeMap.update state.conversations conversationId _)[k]?
  rw [get_updateConversation]
  split
  · rename_i hk
    subst hk
    rw [hfound]
    have hchange' : ConversationMessageRetention.change
        { policy, revision := conversation.retentionRevision } seconds expected = .ok retention := by
      revert hchange
      unfold liftError
      cases ConversationMessageRetention.change _ seconds expected with
      | error e => exact fun h ↦ by cases h
      | ok r => exact fun h ↦ congrArg Except.ok (Except.ok.inj h)
    obtain ⟨hexpected, hseconds, hroom, hstored, hrevision⟩ := change_eq_ok hchange'
    rw [Option.map_some, hstored, hrevision]
    exact .retained rfl hexpected hseconds hroom
  · exact .kept (.refl _)

theorem nextConversation_upsert {conversation : Conversation} {events : List Event}
    (h : state.decide (.upsertConversation conversation) = .ok events) (k : ConversationId) :
    NextConversation (.upsertConversation conversation) k state.conversations[k]?
      (state.applyAll events).conversations[k]? := by
  obtain ⟨_, -, h⟩ := bind_eq_ok.mp h
  obtain ⟨_, -, h⟩ := bind_eq_ok.mp h
  obtain ⟨_, -, h⟩ := bind_eq_ok.mp h
  obtain ⟨_, -, h⟩ := bind_eq_ok.mp h
  obtain rfl := Except.ok.inj h
  change NextConversation _ _ _ (state.conversations.insert conversation.id conversation)[k]?
  rw [BTreeMap.get_insert]
  split
  · rename_i hid
    exact .upserted rfl hid
  · exact .kept (.refl _)

theorem kept_conversation_next (state : MessagingState) {command : Command}
    (htags : command.eventTags.any EventTag.replacesConversation = false) (k : ConversationId) :
    KeptConversation state.conversations[k]? (state.next command).conversations[k]? := by
  unfold next execute
  cases hdecide : state.decide command with
  | error e => exact .refl _
  | ok events =>
      refine kept_applyAll (fun event hevent ↦ ?_) state k
      have hwithin := state.decide_eventTags command
      rw [hdecide] at hwithin
      simpa using List.any_eq_false.mp htags _ (hwithin event hevent)

theorem nextConversation (state : MessagingState) (command : Command) (k : ConversationId) :
    NextConversation command k state.conversations[k]? (state.next command).conversations[k]? := by
  by_cases htags : command.eventTags.any EventTag.replacesConversation = false
  · exact .kept (kept_conversation_next state htags k)
  · unfold next execute
    cases hdecide : state.decide command with
    | error e => exact .kept (.refl _)
    | ok events =>
        cases command
        case setConversationMessageRetention => exact nextConversation_retention hdecide k
        case upsertConversation => exact nextConversation_upsert hdecide k
        all_goals exact absurd rfl htags

end MessagingState

end Fabushi.Messaging
