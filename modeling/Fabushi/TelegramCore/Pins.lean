import Fabushi.TelegramCore.PendingRequests

/-!
# The pinned message of a chat

A pin is stored twice, as an id on the chat and as a mark on the message. An
acknowledgement moves a message to its server id and takes the chat's last message
with it, but not the pin: a pinned message that is acknowledged under another id
leaves its chat with a pin that leads nowhere.
-/

namespace Fabushi.TelegramCore

open Result Std

variable {Content Formatted : Type}

def Command.Upserts : Command Content Formatted → Prop
  | .upsertChat _ => True
  | .upsertRemoteMessage _ => True
  | _ => False

instance (command : Command Content Formatted) : Decidable command.Upserts := by
  unfold Command.Upserts
  cases command <;> infer_instance

namespace TelegramState

def pinOf (state : TelegramState Content Formatted) (chatId : ChatId) :
    Option (Option MessageId) :=
  state.chats[chatId]?.map Chat.pinnedMessageId

def marked (state : TelegramState Content Formatted) (k : MessageKey) : Bool :=
  state.messages[k]?.any Message.isPinned

/-- Each chat names exactly the message that carries the mark, and so at most one does. -/
def PinsAgree (state : TelegramState Content Formatted) : Prop :=
  ∀ (chatId : ChatId) (chat : Chat Formatted), state.chats[chatId]? = some chat →
    ∀ messageId : MessageId, chat.pinnedMessageId = some messageId ↔
      ∃ message, state.messages[MessageKey.mk chatId messageId]? = some message ∧
        message.isPinned = true

def MovesPin (state : TelegramState Content Formatted) : Command Content Formatted → Prop
  | .acknowledgeMessage clientRequestId serverMessageId _ =>
      ∃ key ∈ state.pendingRequests[clientRequestId]?,
        (state.chats[key.chatId]?).isSome = true ∧ state.marked key = true ∧
          serverMessageId ≠ key.messageId ∧
            (state.messages[MessageKey.mk key.chatId serverMessageId]?).isNone = true
  | _ => False

instance (state : TelegramState Content Formatted) (command : Command Content Formatted) :
    Decidable (state.MovesPin command) := by
  unfold MovesPin
  cases command <;> infer_instance

section Frames

variable {state state' : TelegramState Content Formatted}

theorem marked_eq_true {k : MessageKey} : state.marked k = true ↔
    ∃ message, state.messages[k]? = some message ∧ message.isPinned = true := by
  simp only [marked, Option.any_eq_true]

theorem pinsAgree_iff : state.PinsAgree ↔ ∀ chatId pin, state.pinOf chatId = some pin →
    ∀ messageId, pin = some messageId ↔ state.marked ⟨chatId, messageId⟩ = true := by
  constructor
  · intro h chatId pin hpin messageId
    obtain ⟨chat, hchat, rfl⟩ := Option.map_eq_some_iff.mp hpin
    rw [marked_eq_true]
    exact h chatId chat hchat messageId
  · intro h chatId chat hchat messageId
    rw [← marked_eq_true]
    apply h chatId chat.pinnedMessageId
    rw [pinOf, hchat]
    rfl

theorem PinsAgree.frame (hagree : state.PinsAgree)
    (hpins : ∀ chatId, state'.pinOf chatId = state.pinOf chatId)
    (hmarks : ∀ k, state'.marked k = state.marked k) : state'.PinsAgree := by
  rw [pinsAgree_iff] at hagree ⊢
  simpa only [hpins, hmarks] using hagree

theorem pinOf_update {chatId : ChatId} {f : Chat Formatted → Chat Formatted}
    (hchats : state'.chats = BTreeMap.update state.chats chatId f)
    (hf : ∀ chat, (f chat).pinnedMessageId = chat.pinnedMessageId) (other : ChatId) :
    state'.pinOf other = state.pinOf other := by
  unfold pinOf
  rw [hchats, BTreeMap.get_update]
  split
  · rename_i hchat
    rw [← hchat, Option.map_map]
    exact Option.map_congr fun chat _ ↦ hf chat
  · rfl

theorem marked_update {k : MessageKey} {f : Message Content → Message Content}
    (hmessages : state'.messages = BTreeMap.update state.messages k f)
    (hf : ∀ message, (f message).isPinned = message.isPinned) (other : MessageKey) :
    state'.marked other = state.marked other := by
  unfold marked
  rw [hmessages, BTreeMap.get_update]
  split
  · rename_i hk
    rw [← hk, Option.any_map]
    exact congrArg (state.messages[k]?).any (funext hf)
  · rfl

theorem marked_setPinned (chatId : ChatId) (messageId : MessageId) (isPinned : Bool)
    (k : MessageKey) :
    (state.updateMessage chatId messageId fun message ↦ { message with isPinned }).marked k =
      if k = ⟨chatId, messageId⟩ then state.messages[k]?.isSome && isPinned
      else state.marked k := by
  unfold marked updateMessage
  rw [BTreeMap.get_update]
  by_cases hk : k = ⟨chatId, messageId⟩
  · subst hk
    cases hget : state.messages[MessageKey.mk chatId messageId]? with
    | none => simp
    | some message => simp
  · rw [if_neg (Ne.symm hk), if_neg hk]

theorem deleteMessage_chats (chatId : ChatId) (messageId : MessageId) :
    (state.deleteMessage chatId messageId).chats = state.chats := by
  unfold deleteMessage
  split
  · unfold removePending
    split <;> rfl
  · rfl

variable (state) in
theorem deleteAll_pins (chatId : ChatId) (messageIds : List MessageId) :
    (∀ other, (state.deleteAll chatId messageIds).pinOf other = state.pinOf other) ∧
      ∀ k, (state.deleteAll chatId messageIds).marked k = state.marked k := by
  induction messageIds generalizing state with
  | nil => exact ⟨fun _ ↦ rfl, fun _ ↦ rfl⟩
  | cons messageId messageIds ih =>
      obtain ⟨hpins, hmarks⟩ := ih (state.deleteMessage chatId messageId)
      refine ⟨fun other ↦ (hpins other).trans ?_, fun k ↦ (hmarks k).trans ?_⟩
      · rw [pinOf, deleteMessage_chats]
        rfl
      · rw [marked, deleteMessage_messages, marked]
        split
        · rw [Option.any_map]
        · rfl

theorem removePending_chats (message : Message Content) :
    (state.removePending message).chats = state.chats := by
  unfold removePending
  split <;> rfl

end Frames

/-! ## What each event does to pins and marks -/

section Events

variable {state : TelegramState Content Formatted}

theorem PinsAgree.messageQueued (hagree : state.PinsAgree) {message : Message Content}
    (hfree : state.messages[message.key]? = none) (hunpinned : message.isPinned = false) :
    (state.apply (.messageQueued message)).PinsAgree := by
  have hchats : (state.apply (.messageQueued message)).chats =
      BTreeMap.update state.chats message.chatId fun chat ↦
        { chat with lastMessageId := some message.id } := by
    simp only [TelegramState.apply, updateChat]
    split <;> rfl
  have hmessages : (state.apply (.messageQueued message)).messages =
      state.messages.insert message.key message := by
    simp only [TelegramState.apply, updateChat]
    split <;> rfl
  apply hagree.frame
  · exact pinOf_update hchats fun _ ↦ rfl
  · intro k
    rw [marked, hmessages, BTreeMap.get_insert, marked]
    split
    · rename_i hk
      rw [← hk, hfree]
      simpa using hunpinned
    · rfl

theorem PinsAgree.messageFailed (hagree : state.PinsAgree) (chatId : ChatId) (messageId : MessageId) (code : String)
    (retryable : Bool) :
    (state.apply (.messageFailed chatId messageId code retryable)).PinsAgree := by
  simp only [TelegramState.apply]
  cases hget : state.messages[MessageKey.mk chatId messageId]? with
  | none => exact hagree
  | some message =>
      apply hagree.frame
      · intro other
        simp only [pinOf, removePending_chats]
      · intro k
        simp only [marked, removePending_messages, BTreeMap.get_insert]
        split
        · rename_i hk
          rw [← hk, hget]
          rfl
        · rfl

theorem marked_messageAcknowledged {chatId : ChatId} {localMessageId serverMessageId : MessageId}
    {dateUnixMs : Int64} {message : Message Content}
    (hget : state.messages[MessageKey.mk chatId localMessageId]? = some message) (k : MessageKey) :
    (state.apply
      (.messageAcknowledged chatId localMessageId serverMessageId dateUnixMs)).marked k =
      if k = ⟨chatId, serverMessageId⟩ then message.isPinned
      else if k = ⟨chatId, localMessageId⟩ then false else state.marked k := by
  simp only [TelegramState.apply, hget, marked, updateChat, removePending_messages,
    BTreeMap.get_insert, BTreeMap.get_erase]
  by_cases hserver : k = ⟨chatId, serverMessageId⟩
  · simp [hserver]
  · rw [if_neg (Ne.symm hserver), if_neg hserver]
    by_cases hlocal : k = ⟨chatId, localMessageId⟩
    · simp [hlocal]
    · rw [if_neg (Ne.symm hlocal), if_neg hlocal]

theorem pinOf_messageAcknowledged (chatId : ChatId) (localMessageId serverMessageId : MessageId)
    (dateUnixMs : Int64) (other : ChatId) :
    (state.apply
      (.messageAcknowledged chatId localMessageId serverMessageId dateUnixMs)).pinOf other =
      state.pinOf other := by
  cases hget : state.messages[MessageKey.mk chatId localMessageId]? with
  | none => simp only [TelegramState.apply, hget]
  | some message =>
      have hchats : (state.apply
          (.messageAcknowledged chatId localMessageId serverMessageId dateUnixMs)).chats =
          BTreeMap.update state.chats chatId fun chat ↦
            if chat.lastMessageId = some localMessageId then
              { chat with lastMessageId := some serverMessageId }
            else chat := by
        simp only [TelegramState.apply, hget, updateChat, removePending_chats]
      refine pinOf_update hchats (fun chat ↦ ?_) other
      split <;> rfl

theorem PinsAgree.messageAcknowledged_iff (hagree : state.PinsAgree) {chatId : ChatId}
    {localMessageId serverMessageId : MessageId} (dateUnixMs : Int64)
    (hfree : serverMessageId = localMessageId ∨
      state.messages[MessageKey.mk chatId serverMessageId]? = none) :
    (state.apply
      (.messageAcknowledged chatId localMessageId serverMessageId dateUnixMs)).PinsAgree ↔
      ¬ ((state.chats[chatId]?).isSome = true ∧ state.marked ⟨chatId, localMessageId⟩ = true ∧
        serverMessageId ≠ localMessageId) := by
  cases hget : state.messages[MessageKey.mk chatId localMessageId]? with
  | none =>
      simp only [TelegramState.apply, hget]
      refine iff_of_true hagree ?_
      rintro ⟨-, hmarked, -⟩
      simp [marked, hget] at hmarked
  | some message =>
      have hmark : state.marked ⟨chatId, localMessageId⟩ = message.isPinned := by
        simp [marked, hget]
      rw [pinsAgree_iff] at hagree
      constructor
      · rintro hafter ⟨hchat, hmarked, hne⟩
        obtain ⟨chat, hchat⟩ := Option.isSome_iff_exists.mp hchat
        have hpin : state.pinOf chatId = some chat.pinnedMessageId := by
          rw [pinOf, hchat]
          rfl
        rw [pinsAgree_iff] at hafter
        have hnamed := (hagree chatId _ hpin localMessageId).mpr hmarked
        have hmoved := (hafter chatId _
          ((pinOf_messageAcknowledged ..).trans hpin) localMessageId).mp hnamed
        rw [marked_messageAcknowledged hget, if_neg (by simpa using Ne.symm hne),
          if_pos rfl] at hmoved
        cases hmoved
      · intro hstays
        rw [pinsAgree_iff]
        intro other pin hpin messageId
        rw [pinOf_messageAcknowledged] at hpin
        rw [hagree other pin hpin messageId, marked_messageAcknowledged hget]
        have hknown : chatId = other → (state.chats[chatId]?).isSome = true := by
          rintro rfl
          obtain ⟨chat, hchat, -⟩ := Option.map_eq_some_iff.mp hpin
          rw [hchat]
          rfl
        by_cases hsame : serverMessageId = localMessageId
        · subst hsame
          split
          · rename_i hk
            rw [hk, hmark]
          · rfl
        · have hempty := hfree.resolve_left hsame
          have hunmarked : chatId = other → message.isPinned = false := by
            intro hchat
            rw [← hmark]
            by_contra hmarked
            exact hstays ⟨hknown hchat, by simpa using hmarked, hsame⟩
          split
          · rename_i hk
            obtain ⟨rfl, rfl⟩ := MessageKey.mk.inj hk
            rw [marked, hempty, hunmarked rfl]
            rfl
          · split
            · rename_i hk
              obtain ⟨rfl, rfl⟩ := MessageKey.mk.inj hk
              rw [hmark, hunmarked rfl]
            · rfl

def unpin (state : TelegramState Content Formatted) (chatId : ChatId) (chat : Chat Formatted) :
    TelegramState Content Formatted :=
  match chat.pinnedMessageId with
  | some previous => state.updateMessage chatId previous fun message ↦
      { message with isPinned := false }
  | none => state

theorem marked_unpin (hagree : state.PinsAgree) {chatId : ChatId} {chat : Chat Formatted}
    (hchat : state.chats[chatId]? = some chat) (k : MessageKey) :
    (state.unpin chatId chat).marked k =
      if k.chatId = chatId then false else state.marked k := by
  obtain ⟨other, messageId⟩ := k
  have hnamed : ∀ m, chat.pinnedMessageId = some m ↔ state.marked ⟨chatId, m⟩ = true := by
    intro m
    rw [marked_eq_true]
    exact hagree chatId chat hchat m
  unfold unpin
  cases hprevious : chat.pinnedMessageId with
  | none =>
      dsimp only
      split
      · rename_i hother
        rw [hother, ← Bool.not_eq_true, ← hnamed, hprevious]
        simp
      · rfl
  | some previous =>
      dsimp only
      rw [marked_setPinned]
      by_cases hother : other = chatId
      · subst hother
        rw [if_pos rfl]
        split
        · exact Bool.and_false _
        · rename_i hne
          rw [← Bool.not_eq_true, ← hnamed, hprevious, Option.some.injEq]
          rintro rfl
          exact hne rfl
      · rw [if_neg hother, if_neg]
        intro hk
        exact hother (congrArg MessageKey.chatId hk)

theorem isSome_unpin (chatId : ChatId) (chat : Chat Formatted) (k : MessageKey) :
    ((state.unpin chatId chat).messages[k]?).isSome = (state.messages[k]?).isSome := by
  unfold unpin
  split
  · rw [updateMessage, BTreeMap.get_update]
    split
    · rename_i hk
      rw [← hk, Option.isSome_map]
    · rfl
  · rfl

theorem apply_pinnedMessageUpdated {chatId : ChatId} {chat : Chat Formatted}
    (hchat : state.chats[chatId]? = some chat) (messageId : Option MessageId) :
    state.apply (.pinnedMessageUpdated chatId messageId) =
      let named := { state.unpin chatId chat with
        chats := state.chats.insert chatId { chat with pinnedMessageId := messageId } }
      match messageId with
      | some messageId => named.updateMessage chatId messageId fun message ↦
          { message with isPinned := true }
      | none => named := by
  simp only [TelegramState.apply, hchat, unpin]
  cases chat.pinnedMessageId <;> rfl

theorem PinsAgree.pinnedMessageUpdated (hagree : state.PinsAgree) {chatId : ChatId}
    {chat : Chat Formatted} (hchat : state.chats[chatId]? = some chat)
    {messageId : Option MessageId}
    (hstored : ∀ m ∈ messageId, (state.messages[MessageKey.mk chatId m]?).isSome = true) :
    (state.apply (.pinnedMessageUpdated chatId messageId)).PinsAgree := by
  have hpins : ∀ other, (state.apply (.pinnedMessageUpdated chatId messageId)).pinOf other =
      if chatId = other then some messageId else state.pinOf other := by
    intro other
    have hchats : (state.apply (.pinnedMessageUpdated chatId messageId)).chats =
        state.chats.insert chatId { chat with pinnedMessageId := messageId } := by
      rw [apply_pinnedMessageUpdated hchat]
      cases messageId <;> rfl
    rw [pinOf, hchats, BTreeMap.get_insert]
    split <;> rfl
  have hmarks : ∀ k : MessageKey,
      (state.apply (.pinnedMessageUpdated chatId messageId)).marked k =
        if k.chatId = chatId then Decidable.decide (messageId = some k.messageId) else state.marked k := by
    rintro ⟨other, m⟩
    rw [apply_pinnedMessageUpdated hchat]
    cases messageId with
    | none =>
        refine (marked_unpin hagree hchat ⟨other, m⟩).trans ?_
        simp
    | some messageId =>
        dsimp only
        rw [marked_setPinned]
        split
        · rename_i hk
          obtain ⟨rfl, rfl⟩ := MessageKey.mk.inj hk
          have hsome : ((state.unpin other chat).messages[(⟨other, m⟩ : MessageKey)]?).isSome =
              (state.messages[(⟨other, m⟩ : MessageKey)]?).isSome := isSome_unpin other chat _
          rw [hstored m rfl] at hsome
          simp [hsome]
        · rename_i hk
          refine (marked_unpin hagree hchat ⟨other, m⟩).trans ?_
          split
          · rename_i hother
            have hne : messageId ≠ m := by
              rintro rfl
              exact hk (congrArg (fun chatId ↦ MessageKey.mk chatId messageId) hother)
            simp [hne]
          · rfl
  rw [pinsAgree_iff] at hagree ⊢
  intro other pin hpin m
  rw [hpins] at hpin
  rw [hmarks]
  by_cases hother : chatId = other
  · rw [if_pos hother] at hpin
    rw [if_pos hother.symm, ← Option.some.inj hpin, decide_eq_true_iff]
  · rw [if_neg hother] at hpin
    rw [if_neg (Ne.symm hother)]
    exact hagree other pin hpin m

end Events

/-! ## Commands and runs -/

section Commands

variable {state : TelegramState Content Formatted} {command : Command Content Formatted}

theorem pinsAgree_next_of (hagree : state.PinsAgree)
    (haccepted : ∀ events, state.decide command = .ok events →
      (events.foldl TelegramState.apply state).PinsAgree) : (state.next command).PinsAgree := by
  unfold TelegramState.next TelegramState.execute
  cases hdecide : state.decide command with
  | error e => exact hagree
  | ok events => exact haccepted events hdecide

theorem PinsAgree.next (hagree : state.PinsAgree) (hupserts : ¬ command.Upserts)
    (hacknowledges : ∀ clientRequestId serverMessageId dateUnixMs,
      command ≠ .acknowledgeMessage clientRequestId serverMessageId dateUnixMs) :
    (state.next command).PinsAgree := by
  refine pinsAgree_next_of hagree fun events hdecide ↦ ?_
  cases command with
  | upsertChat chat => exact absurd trivial hupserts
  | upsertRemoteMessage message => exact absurd trivial hupserts
  | acknowledgeMessage clientRequestId serverMessageId dateUnixMs =>
      exact absurd rfl (hacknowledges clientRequestId serverMessageId dateUnixMs)
  | upsertChatFolder folder =>
      rw [← Except.ok.inj hdecide]
      exact hagree
  | deleteChatFolder folderId =>
      simp only [TelegramState.decide, bind_eq_ok] at hdecide
      obtain ⟨-, -, hevents⟩ := hdecide
      rw [← Except.ok.inj hevents]
      refine hagree.frame (fun chatId ↦ ?_) fun _ ↦ rfl
      simp [pinOf, TelegramState.apply, Function.comp_def]
  | setChatDraft chatId draft =>
      simp only [TelegramState.decide, bind_eq_ok] at hdecide
      obtain ⟨-, -, hevents⟩ := hdecide
      rw [← Except.ok.inj hevents]
      exact hagree.frame (pinOf_update rfl fun _ ↦ rfl) fun _ ↦ rfl
  | setChatMarkedUnread chatId markedUnread =>
      simp only [TelegramState.decide, bind_eq_ok] at hdecide
      obtain ⟨-, -, hevents⟩ := hdecide
      rw [← Except.ok.inj hevents]
      exact hagree.frame (pinOf_update rfl fun _ ↦ rfl) fun _ ↦ rfl
  | setTypingActions chatId actions =>
      simp only [TelegramState.decide, bind_eq_ok] at hdecide
      obtain ⟨-, -, hevents⟩ := hdecide
      rw [← Except.ok.inj hevents]
      simp only [List.foldl_cons, List.foldl_nil, TelegramState.apply]
      split <;> exact hagree
  | setMessageReaction chatId messageId reaction =>
      simp only [TelegramState.decide, bind_eq_ok] at hdecide
      obtain ⟨-, -, -, -, hevents⟩ := hdecide
      rw [← Except.ok.inj hevents]
      exact hagree.frame (fun _ ↦ rfl) (marked_update rfl fun _ ↦ rfl)
  | queueMessage chatId localMessageId senderUserId clientRequestId dateUnixMs content
      replyToMessageId messageThreadId =>
      simp only [TelegramState.decide, bind_eq_ok, ensure_eq_ok] at hdecide
      obtain ⟨-, -, -, hfree, -, -, -, -, hevents⟩ := hdecide
      rw [← Except.ok.inj hevents]
      exact hagree.messageQueued (get_of_not_contains hfree) rfl
  | failMessage clientRequestId code retryable =>
      simp only [TelegramState.decide, bind_eq_ok] at hdecide
      obtain ⟨key, -, hevents⟩ := hdecide
      rw [← Except.ok.inj hevents]
      exact hagree.messageFailed key.chatId key.messageId code retryable
  | editMessage chatId messageId content editDateUnixMs =>
      simp only [TelegramState.decide, bind_eq_ok] at hdecide
      obtain ⟨-, -, hevents⟩ := hdecide
      rw [← Except.ok.inj hevents]
      exact hagree.frame (fun _ ↦ rfl) (marked_update rfl fun _ ↦ rfl)
  | deleteMessages chatId messageIds =>
      simp only [TelegramState.decide, bind_eq_ok] at hdecide
      obtain ⟨-, -, -, -, -, -, hevents⟩ := hdecide
      rw [← Except.ok.inj hevents]
      obtain ⟨hpins, hmarks⟩ := deleteAll_pins state chatId (uniqueIds messageIds)
      exact hagree.frame hpins hmarks
  | setChatRead chatId lastReadInboxMessageId unreadCount =>
      simp only [TelegramState.decide, bind_eq_ok] at hdecide
      obtain ⟨chat, -, hevents⟩ := hdecide
      split at hevents
      · rw [← Except.ok.inj hevents]
        exact hagree
      · rw [← Except.ok.inj hevents]
        exact hagree.frame (pinOf_update rfl fun _ ↦ rfl) fun _ ↦ rfl
  | setPinnedMessage chatId messageId =>
      simp only [TelegramState.decide, bind_eq_ok, requireChat, okOr_eq_ok] at hdecide
      obtain ⟨chat, hchat, _, hstored, hevents⟩ := hdecide
      split at hevents
      · rw [← Except.ok.inj hevents]
        exact hagree
      · rw [← Except.ok.inj hevents]
        refine hagree.pinnedMessageUpdated hchat ?_
        rintro m rfl
        cases hget : state.messages[MessageKey.mk chatId m]? with
        | none => simp [requireMessage, hget, okOr] at hstored
        | some message => rfl

theorem PinsAgree.next_acknowledgeMessage (hagree : state.PinsAgree)
    (clientRequestId : ClientRequestId) (serverMessageId : MessageId) (dateUnixMs : Int64) :
    (state.next (.acknowledgeMessage clientRequestId serverMessageId dateUnixMs)).PinsAgree ↔
      ¬ state.MovesPin (.acknowledgeMessage clientRequestId serverMessageId dateUnixMs) := by
  unfold TelegramState.next TelegramState.execute
  cases hdecide : state.decide
      (.acknowledgeMessage clientRequestId serverMessageId dateUnixMs) with
  | error e =>
      refine iff_of_true hagree ?_
      rintro ⟨key, hkey, -, -, -, hempty⟩
      -- such an acknowledgement is accepted
      have hfree : (!state.messages.contains ⟨key.chatId, serverMessageId⟩) = true := by
        rw [ExtTreeMap.contains_eq_isSome_getElem?, Option.not_isSome]
        exact hempty
      simp only [TelegramState.decide, Option.mem_def.mp hkey, okOr, bind, Except.bind,
        ensure, hfree, or_true, if_true] at hdecide
      cases hdecide
  | ok events =>
      simp only [TelegramState.decide, bind_eq_ok, okOr_eq_ok, ensure_eq_ok] at hdecide
      obtain ⟨key, hkey, -, hfree, hevents⟩ := hdecide
      rw [← Except.ok.inj hevents]
      have hfree := hfree.imp_right get_of_not_contains
      refine (hagree.messageAcknowledged_iff dateUnixMs hfree).trans (not_congr ?_)
      constructor
      · rintro ⟨hchat, hmarked, hne⟩
        refine ⟨key, hkey, hchat, hmarked, hne, ?_⟩
        rw [hfree.resolve_left hne]
        rfl
      · rintro ⟨key', hkey', hchat, hmarked, hne, -⟩
        obtain rfl := Option.some.inj (hkey.symm.trans hkey')
        exact ⟨hchat, hmarked, hne⟩

def KeepsPins (state : TelegramState Content Formatted) (command : Command Content Formatted) :
    Prop :=
  ¬ command.Upserts ∧ ¬ state.MovesPin command

instance (state : TelegramState Content Formatted) (command : Command Content Formatted) :
    Decidable (state.KeepsPins command) :=
  inferInstanceAs (Decidable (_ ∧ _))

theorem PinsAgree.next_of_keepsPins (hagree : state.PinsAgree) (hkeeps : state.KeepsPins command) :
    (state.next command).PinsAgree := by
  cases command with
  | acknowledgeMessage clientRequestId serverMessageId dateUnixMs =>
      exact (hagree.next_acknowledgeMessage ..).mpr hkeeps.2
  | _ =>
      apply hagree.next hkeeps.1
      intro _ _ _ h
      cases h

theorem PinsAgree.run (hagree : state.PinsAgree) (commands : List (Command Content Formatted))
    (hkeeps : Runs.Along TelegramState.next KeepsPins state commands) :
    (Runs.run TelegramState.next state commands).PinsAgree :=
  Runs.invariant_along (fun _ _ hagree hkeeps ↦ hagree.next_of_keepsPins hkeeps) hagree hkeeps

/-- Where every chat names exactly the message that carries the mark, a command that is no
upsert keeps it so exactly when it does not acknowledge a pinned message of a known chat
under another id. -/
theorem pinsAgree_next_iff (state : TelegramState Content Formatted)
    (command : Command Content Formatted) (hagree : state.PinsAgree)
    (hupserts : ¬ command.Upserts) :
    (state.next command).PinsAgree ↔ ¬ state.MovesPin command := by
  cases command with
  | acknowledgeMessage clientRequestId serverMessageId dateUnixMs =>
      exact hagree.next_acknowledgeMessage clientRequestId serverMessageId dateUnixMs
  | _ =>
      refine iff_of_true (hagree.next hupserts ?_) id
      intro _ _ _ h
      cases h

end Commands

/-! ## A pin that leads nowhere -/

section Demo

theorem pinsAgree_single (chat : Chat Formatted) (hpin : chat.pinnedMessageId = none) :
    ({ chats := (∅ : BTreeMap ChatId (Chat Formatted)).insert chat.id chat } :
      TelegramState Content Formatted).PinsAgree := by
  intro chatId chat' hchat messageId
  have hnone : chat'.pinnedMessageId = none := by
    dsimp only at hchat
    rcases BTreeMap.get_insert_cases hchat with ⟨-, rfl⟩ | hother
    · exact hpin
    · simp at hother
  simp [hnone]

def demoStart : TelegramState String String :=
  { chats := (∅ : BTreeMap ChatId (Chat String)).insert ⟨1⟩
      { id := ⟨1⟩, kind := .privateChat, title := "chat" } }

def demoPinned : TelegramState String String :=
  Runs.run TelegramState.next demoStart [demoQueue ⟨1⟩, .setPinnedMessage ⟨1⟩ (some ⟨1⟩)]

theorem demoPinned_agrees : demoPinned.PinsAgree := by
  have hstart : demoStart.PinsAgree :=
    pinsAgree_single { id := ⟨1⟩, kind := .privateChat, title := "chat" } rfl
  apply hstart.run
  decide +kernel

/-- Acknowledged under id 5, the message leaves its chat with a pin on id 1. -/
theorem pin_left_behind :
    ¬ ∀ (state : TelegramState String String) (command : Command String String),
      state.PinsAgree → ¬ command.Upserts → (state.next command).PinsAgree := by
  intro h
  have hafter := pinsAgree_iff.mp
    (h demoPinned (.acknowledgeMessage "r" ⟨5⟩ 3) demoPinned_agrees (by decide +kernel))
  have hmarked := (hafter ⟨1⟩ (some ⟨1⟩) (by decide +kernel) ⟨1⟩).mp rfl
  revert hmarked
  decide +kernel

theorem pinsAgree_next_iff_demo :
    (demoPinned.next (.failMessage "r" "timeout" true)).PinsAgree :=
  (pinsAgree_next_iff demoPinned (.failMessage "r" "timeout" true) demoPinned_agrees
    (by decide +kernel)).mpr (by decide +kernel)

end Demo

end TelegramState

end Fabushi.TelegramCore
