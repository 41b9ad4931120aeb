import Fabushi.Library.Runs
import Fabushi.Library.SecondaryIndex
import Fabushi.TelegramCore.Engine

/-!
# The index of pending requests

A message that waits for its answer is found through its request. The index is kept by
five events on their own, so each has its rule here. Two commands get it out of step:
a remote message that takes the place of a pending one leaves its request behind, and a
second deletion of a message drops the request of a later message with the same id.
-/

namespace Fabushi.TelegramCore

open Result SecondaryIndex Std

variable {Content Formatted : Type}

namespace TelegramState

/-! ## The snapshot -/

/-- What serde writes: the message map is written as the list of its values. -/
structure Snapshot (Content Formatted : Type) where
  chats : BTreeMap ChatId (Chat Formatted)
  chatFolders : BTreeMap ChatFolderId ChatFolder
  messages : List (Message Content)
  pendingRequests : BTreeMap ClientRequestId MessageKey
  typingActions : BTreeMap ChatId (List TypingAction)

def serialize (state : TelegramState Content Formatted) : Snapshot Content Formatted :=
  { chats := state.chats
    chatFolders := state.chatFolders
    messages := state.messages.values
    pendingRequests := state.pendingRequests
    typingActions := state.typingActions }

/-- The message map is collected again from the chat and the id of each message. -/
def deserialize (snapshot : Snapshot Content Formatted) : TelegramState Content Formatted :=
  { chats := snapshot.chats
    chatFolders := snapshot.chatFolders
    messages := snapshot.messages.foldl (fun messages (message : Message Content) ↦
      messages.insert message.key message) ∅
    pendingRequests := snapshot.pendingRequests
    typingActions := snapshot.typingActions }

def Keyed (messages : BTreeMap MessageKey (Message Content)) : Prop :=
  ∀ (k : MessageKey) (message : Message Content), messages[k]? = some message → message.key = k

theorem Keyed.insert {messages : BTreeMap MessageKey (Message Content)} (h : Keyed messages)
    {k : MessageKey} {message : Message Content} (hkey : message.key = k) :
    Keyed (messages.insert k message) := by
  intro k' message' hget
  rw [BTreeMap.get_insert] at hget
  split at hget
  · rename_i hk
    rw [← Option.some.inj hget, hkey, hk]
  · exact h k' message' hget

theorem Keyed.erase {messages : BTreeMap MessageKey (Message Content)} (h : Keyed messages)
    (k : MessageKey) : Keyed (messages.erase k) := by
  intro k' message' hget
  rw [BTreeMap.get_erase] at hget
  split at hget
  · cases hget
  · exact h k' message' hget

theorem Keyed.update {messages : BTreeMap MessageKey (Message Content)} (h : Keyed messages)
    {f : Message Content → Message Content} (hkey : ∀ message, (f message).key = message.key)
    (k : MessageKey) : Keyed (BTreeMap.update messages k f) := by
  intro k' message hget
  rw [BTreeMap.get_update] at hget
  split at hget
  · rename_i hk
    obtain ⟨old, hold, rfl⟩ := Option.map_eq_some_iff.mp hget
    rw [hkey, h _ old hold, hk]
  · exact h k' message hget

theorem get_collect {messages : List (Message Content)}
    (hkeys : (messages.map Message.key).Nodup) (start : BTreeMap MessageKey (Message Content))
    (k : MessageKey) :
    (messages.foldl (fun acc message ↦ acc.insert message.key message) start)[k]? =
      ((messages.find? fun message ↦ message.key = k).or start[k]?) := by
  induction messages generalizing start with
  | nil => rfl
  | cons message messages ih =>
      rw [List.map_cons, List.nodup_cons] at hkeys
      rw [List.foldl_cons, ih hkeys.2, BTreeMap.get_insert]
      by_cases hk : message.key = k
      · have hnone : messages.find? (fun message ↦ message.key = k) = none := by
          rw [List.find?_eq_none]
          intro other hother heq
          apply hkeys.1
          rw [hk, ← of_decide_eq_true heq]
          exact List.mem_map_of_mem hother
        simp [hk, hnone]
      · simp [hk]

theorem Keyed.deserialize_serialize {state : TelegramState Content Formatted}
    (h : Keyed state.messages) : deserialize state.serialize = state := by
  have hkeys : (state.messages.values.map Message.key).Nodup := by
    have hmap : state.messages.values.map Message.key = state.messages.toList.map Prod.fst := by
      rw [BTreeMap.values_eq, List.map_map]
      apply List.map_congr_left
      rintro ⟨k, message⟩ hmem
      exact h k message (ExtTreeMap.mem_toList_iff_getElem?_eq_some.mp hmem)
    rw [hmap, ExtTreeMap.map_fst_toList_eq_keys]
    refine (ExtTreeMap.distinct_keys (t := state.messages)).imp ?_
    rintro a b hab rfl
    exact hab ReflCmp.compare_self
  have hmessages : state.serialize.messages.foldl (fun messages (message : Message Content) ↦
      messages.insert message.key message) ∅ = state.messages := by
    apply ExtTreeMap.ext_getElem?
    intro k
    refine (get_collect hkeys ∅ k).trans ?_
    cases hget : state.messages[k]? with
    | none =>
        have hnone : state.messages.values.find? (fun message ↦ message.key = k) = none := by
          rw [List.find?_eq_none]
          intro message hmem heq
          obtain ⟨k', hk'⟩ := BTreeMap.mem_values.mp hmem
          rw [← (h k' message hk').symm.trans (of_decide_eq_true heq), hk'] at hget
          cases hget
        simp [hnone]
    | some message =>
        have hsome : state.messages.values.find? (fun message ↦ message.key = k) =
            some message := by
          cases hfind : state.messages.values.find? (fun message ↦ message.key = k) with
          | none =>
              rw [List.find?_eq_none] at hfind
              have hmem := BTreeMap.mem_values.mpr ⟨k, hget⟩
              exact absurd (decide_eq_true (h k message hget)) (hfind message hmem)
          | some found =>
              obtain ⟨k', hk'⟩ := BTreeMap.mem_values.mp (List.mem_of_find?_eq_some hfind)
              have hkey : found.key = k := by simpa using List.find?_some hfind
              rw [← h k' found hk', hkey] at hk'
              rw [← hk', hget]
        rw [hsome]
        rfl
  unfold deserialize
  rw [hmessages]
  rfl

/-! ## The invariant -/

structure Consistent (state : TelegramState Content Formatted) : Prop where
  keyed : Keyed state.messages
  indexed : Indexes Message.pendingRequest state.pendingRequests state.messages

def withdrawnRequest (message : Message Content) : Option ClientRequestId :=
  match message.isDeleted, message.deliveryState with
  | true, .pending clientRequestId => some clientRequestId
  | _, _ => none

/-- Where a deleted message is among the deleted ones again, its request is nobody's any
more, or that of a message deleted along with it. -/
def Withdrawn (state : TelegramState Content Formatted) (chatId : ChatId)
    (messageIds : List MessageId) : Prop :=
  ∀ messageId ∈ messageIds,
    ∀ r ∈ state.messages[MessageKey.mk chatId messageId]?.bind withdrawnRequest,
      ∀ k ∈ state.pendingRequests[r]?, k.chatId = chatId ∧ k.messageId ∈ messageIds

/-- No accepted remote message takes the place of a pending one, and no message is deleted
again while its request belongs to a later message. -/
def Orderly (state : TelegramState Content Formatted) :
    Command Content Formatted → Prop
  | .upsertRemoteMessage message => message.deliveryState = .sent →
      state.messages[message.key]?.bind Message.pendingRequest = none
  | .deleteMessages chatId messageIds =>
      (∀ messageId ∈ messageIds,
        (state.messages[MessageKey.mk chatId messageId]?).isSome = true) →
      state.Withdrawn chatId messageIds
  | _ => True

instance (state : TelegramState Content Formatted) (chatId : ChatId)
    (messageIds : List MessageId) : Decidable (state.Withdrawn chatId messageIds) := by
  unfold Withdrawn
  infer_instance

instance (state : TelegramState Content Formatted) (command : Command Content Formatted) :
    Decidable (state.Orderly command) :=
  match command with
  | .upsertRemoteMessage message =>
      inferInstanceAs (Decidable (message.deliveryState = .sent → _ = _))
  | .deleteMessages .. => inferInstanceAs (Decidable ((∀ messageId ∈ _, _ = true) → _))
  | .upsertChat .. | .upsertChatFolder .. | .deleteChatFolder .. | .setChatDraft ..
  | .setChatMarkedUnread .. | .setTypingActions .. | .setMessageReaction .. | .queueMessage ..
  | .acknowledgeMessage .. | .failMessage .. | .editMessage .. | .setChatRead ..
  | .setPinnedMessage .. => isTrue trivial

def Finds (state : TelegramState Content Formatted) : Event Content Formatted → Prop
  | .remoteMessageUpserted message =>
      message.pendingRequest = none ∧
        carried Message.pendingRequest state.messages message.key = none
  | .messageQueued message =>
      ∃ r : ClientRequestId, message.deliveryState = .pending r ∧ message.isDeleted = false ∧
        state.messages[message.key]? = none ∧ state.pendingRequests[r]? = none
  | .messageAcknowledged chatId localMessageId serverMessageId _ =>
      (∃ r : ClientRequestId, state.pendingRequests[r]? =
          some (MessageKey.mk chatId localMessageId)) ∧
        (serverMessageId = localMessageId ∨
          state.messages[MessageKey.mk chatId serverMessageId]? = none)
  | .messageFailed chatId messageId _ _ =>
      ∃ r : ClientRequestId, state.pendingRequests[r]? = some (MessageKey.mk chatId messageId)
  | .messagesDeleted chatId messageIds => state.Withdrawn chatId messageIds
  | _ => True

/-! ## What an event does to the invariant -/

section Events

variable {state : TelegramState Content Formatted}

theorem Consistent.frame {state' : TelegramState Content Formatted} (h : state.Consistent)
    (hmessages : state'.messages = state.messages)
    (hpending : state'.pendingRequests = state.pendingRequests) : state'.Consistent := by
  refine ⟨?_, ?_⟩
  · intro k message hget
    rw [hmessages] at hget
    exact h.keyed k message hget
  · rw [hmessages, hpending]
    exact h.indexed

theorem Consistent.updateMessage (h : state.Consistent) (chatId : ChatId) (messageId : MessageId)
    {f : Message Content → Message Content} (hkey : ∀ message, (f message).key = message.key)
    (hrequest : ∀ message, (f message).pendingRequest = message.pendingRequest) :
    (state.updateMessage chatId messageId f).Consistent := by
  exact ⟨h.keyed.update hkey _,
    h.indexed.keep (carried_update hrequest (MessageKey.mk chatId messageId))⟩

theorem Consistent.setPinned (h : state.Consistent) (chatId : ChatId) (messageId : MessageId)
    (isPinned : Bool) : (state.updateMessage chatId messageId fun message ↦
      { message with isPinned }).Consistent :=
  h.updateMessage chatId messageId (fun _ ↦ rfl) fun _ ↦ rfl

theorem removePending_messages (message : Message Content) :
    (state.removePending message).messages = state.messages := by
  unfold removePending
  split <;> rfl

theorem Consistent.settle (h : state.Consistent) {k : MessageKey} {old : Message Content}
    {r : ClientRequestId} (hold : state.messages[k]? = some old)
    (hrequest : old.pendingRequest = some r)
    {messages : BTreeMap MessageKey (Message Content)} (hkeyed : Keyed messages)
    (hcarried : ∀ k', carried Message.pendingRequest messages k' =
      if k = k' then none else carried Message.pendingRequest state.messages k') :
    (({ state with messages } : TelegramState Content Formatted).removePending old).Consistent := by
  have hpending := (Message.pendingRequest_eq_some.mp hrequest).2
  have hentry : carried Message.pendingRequest state.messages k = some r := by
    rw [carried, hold]
    exact hrequest
  rw [removePending, hpending]
  exact ⟨hkeyed, h.indexed.release hentry hcarried⟩

theorem Consistent.pending (h : state.Consistent) {k : MessageKey} {r : ClientRequestId}
    (hentry : state.pendingRequests[r]? = some k) :
    ∃ message, state.messages[k]? = some message ∧ message.pendingRequest = some r := by
  have hcarried := (h.indexed r k).mp hentry
  exact Option.bind_eq_some_iff.mp hcarried

theorem Consistent.remoteMessageUpserted (h : state.Consistent) {message : Message Content}
    (hfinds : state.Finds (.remoteMessageUpserted message)) :
    (state.apply (.remoteMessageUpserted message)).Consistent := by
  obtain ⟨hsent, hfree⟩ := hfinds
  refine ⟨h.keyed.insert rfl, h.indexed.keep ?_⟩
  intro k
  refine (carried_insert message.key k message).trans ?_
  split
  · rename_i hk
    rw [hsent, ← hk, hfree]
  · rfl

theorem Consistent.messageQueued (h : state.Consistent) {message : Message Content}
    (hfinds : state.Finds (.messageQueued message)) :
    (state.apply (.messageQueued message)).Consistent := by
  obtain ⟨r, hpending, hdeleted, hfree, hfresh⟩ := hfinds
  have hrequest : message.pendingRequest = some r :=
    Message.pendingRequest_eq_some.mpr ⟨hdeleted, hpending⟩
  have hcarried : carried Message.pendingRequest state.messages message.key = none := by
    rw [carried, hfree]
    rfl
  simp only [TelegramState.apply, hpending]
  refine ⟨h.keyed.insert rfl, h.indexed.enter hfresh hcarried ?_⟩
  intro k
  exact (carried_insert message.key k message).trans (by rw [hrequest]; rfl)

theorem Consistent.messageFailed (h : state.Consistent) {chatId : ChatId} {messageId : MessageId}
    {code : String} {retryable : Bool}
    (hfinds : state.Finds (.messageFailed chatId messageId code retryable)) :
    (state.apply (.messageFailed chatId messageId code retryable)).Consistent := by
  obtain ⟨r, hentry⟩ := hfinds
  obtain ⟨old, hold, hrequest⟩ := h.pending hentry
  simp only [TelegramState.apply, hold]
  let failed := { old with deliveryState := .failed code retryable }
  have hnone : failed.pendingRequest = none := by
    unfold Message.pendingRequest
    split <;> simp_all [failed]
  have hkeyed : Keyed (state.messages.insert ⟨chatId, messageId⟩ failed) :=
    h.keyed.insert (h.keyed _ old hold)
  have hsettled := h.settle hold hrequest hkeyed fun k' ↦
    (carried_insert _ k' failed).trans (by rw [hnone])
  have hpending := (Message.pendingRequest_eq_some.mp hrequest).2
  simpa only [removePending, hpending] using hsettled

theorem Consistent.messageAcknowledged (h : state.Consistent) {chatId : ChatId}
    {localMessageId serverMessageId : MessageId} {dateUnixMs : Int64}
    (hfinds : state.Finds
      (.messageAcknowledged chatId localMessageId serverMessageId dateUnixMs)) :
    (state.apply
      (.messageAcknowledged chatId localMessageId serverMessageId dateUnixMs)).Consistent := by
  obtain ⟨⟨r, hentry⟩, hfree⟩ := hfinds
  obtain ⟨old, hold, hrequest⟩ := h.pending hentry
  have hpending := (Message.pendingRequest_eq_some.mp hrequest).2
  let sent := { old with id := serverMessageId, dateUnixMs, deliveryState := .sent }
  have hkey : sent.key = MessageKey.mk chatId serverMessageId := by
    have hchat : old.chatId = chatId := congrArg MessageKey.chatId (h.keyed _ old hold)
    rw [← hchat]
    rfl
  have hnone : sent.pendingRequest = none := by
    unfold Message.pendingRequest
    split <;> simp_all [sent]
  have hkeyed : Keyed ((state.messages.erase (MessageKey.mk chatId localMessageId)).insert
      (MessageKey.mk chatId serverMessageId) sent) := (h.keyed.erase _).insert hkey
  have hsettled := h.settle hold hrequest hkeyed fun k' ↦ by
    rw [carried_insert, carried_erase, hnone]
    by_cases hlocal : MessageKey.mk chatId localMessageId = k'
    · rw [if_pos hlocal]
      exact ite_self _
    · rw [if_neg hlocal]
      split
      · rename_i hserver
        rcases hfree with rfl | hfree
        · exact absurd hserver hlocal
        · rw [← hserver, carried, hfree]
          rfl
      · rfl
  simp only [TelegramState.apply, hold]
  refine hsettled.frame ?_ ?_
  · simp only [TelegramState.updateChat, removePending, hpending]
    rfl
  · simp only [TelegramState.updateChat, removePending, hpending]

/-! ## Deletions -/

def deleteAll (state : TelegramState Content Formatted) (chatId : ChatId)
    (messageIds : List MessageId) : TelegramState Content Formatted :=
  messageIds.foldl (fun state messageId ↦ state.deleteMessage chatId messageId) state

def among (chatId : ChatId) (messageIds : List MessageId) (k : MessageKey) : Prop :=
  k.chatId = chatId ∧ k.messageId ∈ messageIds

theorem among_cons {chatId : ChatId} {messageId : MessageId} {messageIds : List MessageId}
    {k : MessageKey} : among chatId (messageId :: messageIds) k ↔
      k = ⟨chatId, messageId⟩ ∨ among chatId messageIds k := by
  obtain ⟨chatId', messageId'⟩ := k
  simp only [among, List.mem_cons, MessageKey.mk.injEq]
  tauto

theorem deleteMessage_messages (chatId : ChatId) (messageId : MessageId) (k : MessageKey) :
    (state.deleteMessage chatId messageId).messages[k]? =
      if k = ⟨chatId, messageId⟩ then
        state.messages[k]?.map fun message ↦ { message with isDeleted := true }
      else state.messages[k]? := by
  unfold deleteMessage
  by_cases hk : k = ⟨chatId, messageId⟩
  · subst hk
    cases hget : state.messages[MessageKey.mk chatId messageId]? with
    | none => simp [hget]
    | some message => simp [removePending_messages]
  · cases hget : state.messages[MessageKey.mk chatId messageId]? with
    | none => simp [hk]
    | some message =>
        simp only [removePending_messages, if_neg hk]
        exact BTreeMap.get_insert_ne _ _ (Ne.symm hk)

variable (state) in
theorem deleteAll_messages (chatId : ChatId) (messageIds : List MessageId) (k : MessageKey) :
    (among chatId messageIds k → (state.deleteAll chatId messageIds).messages[k]? =
      state.messages[k]?.map fun message ↦ { message with isDeleted := true }) ∧
    (¬ among chatId messageIds k →
      (state.deleteAll chatId messageIds).messages[k]? = state.messages[k]?) := by
  induction messageIds generalizing state with
  | nil => exact ⟨fun h ↦ (List.not_mem_nil h.2).elim, fun _ ↦ rfl⟩
  | cons messageId messageIds ih =>
      obtain ⟨hin, hout⟩ := @ih (state.deleteMessage chatId messageId)
      rw [deleteMessage_messages] at hin hout
      rw [among_cons]
      refine ⟨?_, ?_⟩
      · rintro (rfl | hlater)
        · rw [if_pos rfl] at hin hout
          by_cases hlater : among chatId messageIds ⟨chatId, messageId⟩
          · refine (hin hlater).trans ?_
            rw [Option.map_map]
            rfl
          · exact hout hlater
        · refine (hin hlater).trans ?_
          split
          · rw [Option.map_map]
            rfl
          · rfl
      · intro hnot
        obtain ⟨hne, hlater⟩ := not_or.mp hnot
        rw [if_neg hne] at hout
        exact hout hlater

def Names (state : TelegramState Content Formatted) (r : ClientRequestId)
    (k : MessageKey) : Prop :=
  ∃ message, state.messages[k]? = some message ∧ message.deliveryState = .pending r

theorem names_deleteMessage {chatId : ChatId} {messageId : MessageId} {r : ClientRequestId}
    {k : MessageKey} : (state.deleteMessage chatId messageId).Names r k ↔ state.Names r k := by
  unfold Names
  rw [deleteMessage_messages]
  split
  · constructor
    · rintro ⟨message, hget, hstate⟩
      obtain ⟨old, hold, rfl⟩ := Option.map_eq_some_iff.mp hget
      exact ⟨old, hold, hstate⟩
    · rintro ⟨message, hget, hstate⟩
      exact ⟨_, Option.map_eq_some_iff.mpr ⟨message, hget, rfl⟩, hstate⟩
  · rfl

variable (state) in
theorem deleteMessage_pending (chatId : ChatId) (messageId : MessageId) (r : ClientRequestId) :
    (state.Names r ⟨chatId, messageId⟩ →
      (state.deleteMessage chatId messageId).pendingRequests[r]? = none) ∧
    (¬ state.Names r ⟨chatId, messageId⟩ →
      (state.deleteMessage chatId messageId).pendingRequests[r]? =
        state.pendingRequests[r]?) := by
  unfold deleteMessage Names
  cases hget : state.messages[MessageKey.mk chatId messageId]? with
  | none => simp
  | some message =>
      simp only [Option.some.injEq, exists_eq_left']
      unfold removePending
      split
      · rename_i r' hstate
        rw [hstate, BTreeMap.get_erase]
        simp only [DeliveryState.pending.injEq]
        exact ⟨fun h ↦ if_pos h, fun h ↦ if_neg h⟩
      · rename_i hother
        exact ⟨fun h ↦ (hother r h).elim, fun _ ↦ rfl⟩

variable (state) in
theorem deleteAll_pending (chatId : ChatId) (messageIds : List MessageId) (r : ClientRequestId) :
    ((∃ messageId ∈ messageIds, state.Names r ⟨chatId, messageId⟩) →
      (state.deleteAll chatId messageIds).pendingRequests[r]? = none) ∧
    ((¬ ∃ messageId ∈ messageIds, state.Names r ⟨chatId, messageId⟩) →
      (state.deleteAll chatId messageIds).pendingRequests[r]? = state.pendingRequests[r]?) := by
  induction messageIds generalizing state with
  | nil => exact ⟨fun ⟨_, hmem, _⟩ ↦ (List.not_mem_nil hmem).elim, fun _ ↦ rfl⟩
  | cons messageId messageIds ih =>
      obtain ⟨hin, hout⟩ := @ih (state.deleteMessage chatId messageId)
      obtain ⟨hnames, hnot⟩ := deleteMessage_pending state chatId messageId r
      simp only [names_deleteMessage] at hin hout
      simp only [List.exists_mem_cons_iff]
      refine ⟨?_, ?_⟩
      · rintro (hhead | hlater)
        · by_cases hlater : ∃ messageId ∈ messageIds, state.Names r ⟨chatId, messageId⟩
          · exact hin hlater
          · exact (hout hlater).trans (hnames hhead)
        · exact hin hlater
      · intro hnone
        obtain ⟨hhead, hlater⟩ := not_or.mp hnone
        exact (hout hlater).trans (hnot hhead)

theorem Consistent.messagesDeleted (h : state.Consistent) {chatId : ChatId}
    {messageIds : List MessageId} (hfinds : state.Finds (.messagesDeleted chatId messageIds)) :
    (state.deleteAll chatId messageIds).Consistent := by
  have hlive : ∀ k r, carried Message.pendingRequest
      (state.deleteAll chatId messageIds).messages k = some r ↔
        ¬ among chatId messageIds k ∧ carried Message.pendingRequest state.messages k = some r := by
    intro k r
    obtain ⟨hin, hout⟩ := deleteAll_messages state chatId messageIds k
    by_cases hk : among chatId messageIds k
    · rw [carried, hin hk, Option.bind_map]
      simp only [hk, not_true_eq_false, false_and, iff_false]
      intro hsome
      obtain ⟨message, -, hrequest⟩ := Option.bind_eq_some_iff.mp hsome
      cases hrequest
    · rw [carried, hout hk]
      simp only [hk, not_false_eq_true, true_and]
      rfl
  refine ⟨?_, ?_⟩
  · intro k message hget
    obtain ⟨hin, hout⟩ := deleteAll_messages state chatId messageIds k
    by_cases hk : among chatId messageIds k
    · rw [hin hk] at hget
      obtain ⟨old, hold, rfl⟩ := Option.map_eq_some_iff.mp hget
      exact h.keyed k old hold
    · rw [hout hk] at hget
      exact h.keyed k message hget
  · intro r k
    obtain ⟨hdropped, hkept⟩ := deleteAll_pending state chatId messageIds r
    rw [hlive k r]
    by_cases hnames : ∃ messageId ∈ messageIds, state.Names r ⟨chatId, messageId⟩
    · rw [hdropped hnames]
      simp only [reduceCtorEq, false_iff, not_and]
      -- a pending message outside the list cannot have a request that the list names
      intro hk hcarried
      have hentry := (h.indexed r k).mpr hcarried
      obtain ⟨messageId, hmem, message, hget, hstate⟩ := hnames
      cases hdeleted : message.isDeleted with
      | false =>
          have hown : carried Message.pendingRequest state.messages ⟨chatId, messageId⟩ =
              some r := by
            rw [carried, hget]
            exact Message.pendingRequest_eq_some.mpr ⟨hdeleted, hstate⟩
          rw [(h.indexed r _).mpr hown] at hentry
          exact hk (Option.some.inj hentry ▸ ⟨rfl, hmem⟩)
      | true =>
          apply hk
          apply hfinds messageId hmem r ?_ k hentry
          rw [hget]
          simp [withdrawnRequest, hdeleted, hstate]
    · rw [hkept hnames, h.indexed r k]
      refine ⟨fun hcarried ↦ ⟨?_, hcarried⟩, And.right⟩
      intro hk
      obtain ⟨message, hget, hrequest⟩ := Option.bind_eq_some_iff.mp hcarried
      obtain ⟨rfl, hmem⟩ := hk
      exact hnames ⟨k.messageId, hmem, message, hget,
        (Message.pendingRequest_eq_some.mp hrequest).2⟩

theorem Consistent.apply (h : state.Consistent) {event : Event Content Formatted}
    (hfinds : state.Finds event) : (state.apply event).Consistent := by
  cases event with
  | remoteMessageUpserted message => exact h.remoteMessageUpserted hfinds
  | messageQueued message => exact h.messageQueued hfinds
  | messageAcknowledged chatId localMessageId serverMessageId dateUnixMs =>
      exact h.messageAcknowledged hfinds
  | messageFailed chatId messageId code retryable => exact h.messageFailed hfinds
  | messagesDeleted chatId messageIds => exact h.messagesDeleted hfinds
  | messageReactionUpdated chatId messageId reaction =>
      exact h.updateMessage chatId messageId (fun _ ↦ rfl) fun _ ↦ rfl
  | messageEdited chatId messageId content editDateUnixMs =>
      exact h.updateMessage chatId messageId (fun _ ↦ rfl) fun _ ↦ rfl
  | typingActionsUpdated chatId actions =>
      simp only [TelegramState.apply]
      split <;> exact h.frame rfl rfl
  | pinnedMessageUpdated chatId messageId =>
      simp only [TelegramState.apply]
      split
      · rename_i chat _
        cases hprevious : chat.pinnedMessageId with
        | none =>
            cases messageId with
            | none => exact h.frame rfl rfl
            | some messageId =>
                apply Consistent.setPinned
                exact h.frame rfl rfl
        | some previous =>
            have hunpinned := h.setPinned chatId previous false
            cases messageId with
            | none => exact hunpinned.frame rfl rfl
            | some messageId =>
                apply Consistent.setPinned
                exact hunpinned.frame rfl rfl
      · exact h
  | _ => exact h.frame rfl rfl

theorem Keyed.updateMessage (h : Keyed state.messages) (chatId : ChatId) (messageId : MessageId)
    {f : Message Content → Message Content} (hkey : ∀ message, (f message).key = message.key) :
    Keyed (state.updateMessage chatId messageId f).messages :=
  h.update hkey _

theorem Keyed.apply (h : Keyed state.messages) (event : Event Content Formatted) :
    Keyed (state.apply event).messages := by
  cases event with
  | remoteMessageUpserted message => exact h.insert rfl
  | messageQueued message =>
      simp only [TelegramState.apply]
      split <;> exact h.insert rfl
  | messageReactionUpdated chatId messageId reaction =>
      exact h.updateMessage chatId messageId fun _ ↦ rfl
  | messageEdited chatId messageId content editDateUnixMs =>
      exact h.updateMessage chatId messageId fun _ ↦ rfl
  | messageAcknowledged chatId localMessageId serverMessageId dateUnixMs =>
      simp only [TelegramState.apply]
      split
      · rename_i old hold
        simp only [TelegramState.updateChat, removePending_messages]
        apply (h.erase _).insert
        have hchat : old.chatId = chatId := congrArg MessageKey.chatId (h _ old hold)
        rw [← hchat]
        rfl
      · exact h
  | messageFailed chatId messageId code retryable =>
      simp only [TelegramState.apply]
      split
      · rename_i old hold
        simp only [removePending_messages]
        exact h.insert (h _ old hold)
      · exact h
  | messagesDeleted chatId messageIds =>
      intro k message hget
      obtain ⟨hin, hout⟩ := deleteAll_messages state chatId messageIds k
      by_cases hamong : among chatId messageIds k
      · obtain ⟨old, hold, rfl⟩ := Option.map_eq_some_iff.mp ((hin hamong).symm.trans hget)
        exact h k old hold
      · exact h k message ((hout hamong).symm.trans hget)
  | typingActionsUpdated chatId actions =>
      simp only [TelegramState.apply]
      split <;> exact h
  | pinnedMessageUpdated chatId messageId =>
      simp only [TelegramState.apply]
      split
      · rename_i chat _
        cases hprevious : chat.pinnedMessageId with
        | none =>
            cases messageId with
            | none => exact h
            | some messageId =>
                apply Keyed.updateMessage
                · exact h
                · exact fun _ ↦ rfl
        | some previous =>
            have hunpinned : Keyed (state.updateMessage chatId previous fun message ↦
                { message with isPinned := false }).messages :=
              h.updateMessage chatId previous fun _ ↦ rfl
            cases messageId with
            | none => exact hunpinned
            | some messageId =>
                apply Keyed.updateMessage
                · exact hunpinned
                · exact fun _ ↦ rfl
      · exact h
  | _ => exact h

end Events

/-! ## Commands and runs -/

section Commands

variable {state : TelegramState Content Formatted} {command : Command Content Formatted}
  {events : List (Event Content Formatted)}

theorem get_of_not_contains {κ α : Type} [Ord κ] [TransOrd κ] {m : BTreeMap κ α} {k : κ}
    (h : (!m.contains k) = true) : m[k]? = none := by
  apply BTreeMap.get_eq_none_iff.mpr
  intro hmem
  rw [ExtTreeMap.mem_iff_contains.mp hmem] at h
  cases h

theorem mem_uniqueIds {messageIds : List MessageId} {messageId : MessageId} :
    messageId ∈ uniqueIds messageIds ↔ messageId ∈ messageIds := by
  simp [uniqueIds]

theorem isSome_of_forM {chatId : ChatId} {messageIds : List MessageId} {u : PUnit}
    (h : (messageIds.forM fun messageId ↦ do
      let _ ← state.requireMessage chatId messageId
      pure PUnit.unit) = .ok u) :
    ∀ messageId ∈ messageIds,
      (state.messages[MessageKey.mk chatId messageId]?).isSome = true := by
  induction messageIds with
  | nil => simp
  | cons messageId messageIds ih =>
      simp only [List.forM, bind_eq_ok] at h
      obtain ⟨-, ⟨message, hget, -⟩, hrest⟩ := h
      intro other hother
      rcases List.mem_cons.mp hother with rfl | hother
      · rw [requireMessage, okOr_eq_ok] at hget
        rw [hget]
        rfl
      · exact ih hrest other hother

theorem finds_of_decide (hdecide : state.decide command = .ok events)
    (horderly : state.Orderly command) :
    events = [] ∨ ∃ event, events = [event] ∧ state.Finds event := by
  cases command with
  | upsertChat chat => exact .inr ⟨_, (Except.ok.inj hdecide).symm, trivial⟩
  | upsertChatFolder folder => exact .inr ⟨_, (Except.ok.inj hdecide).symm, trivial⟩
  | deleteChatFolder folderId =>
      simp only [TelegramState.decide, bind_eq_ok] at hdecide
      obtain ⟨-, -, hevents⟩ := hdecide
      exact .inr ⟨_, (Except.ok.inj hevents).symm, trivial⟩
  | setChatDraft chatId draft =>
      simp only [TelegramState.decide, bind_eq_ok] at hdecide
      obtain ⟨-, -, hevents⟩ := hdecide
      exact .inr ⟨_, (Except.ok.inj hevents).symm, trivial⟩
  | setChatMarkedUnread chatId markedUnread =>
      simp only [TelegramState.decide, bind_eq_ok] at hdecide
      obtain ⟨-, -, hevents⟩ := hdecide
      exact .inr ⟨_, (Except.ok.inj hevents).symm, trivial⟩
  | setTypingActions chatId actions =>
      simp only [TelegramState.decide, bind_eq_ok] at hdecide
      obtain ⟨-, -, hevents⟩ := hdecide
      exact .inr ⟨_, (Except.ok.inj hevents).symm, trivial⟩
  | upsertRemoteMessage message =>
      simp only [TelegramState.decide, bind_eq_ok, ensure_eq_ok] at hdecide
      obtain ⟨-, -, -, hsent, hevents⟩ := hdecide
      refine .inr ⟨_, (Except.ok.inj hevents).symm, ?_, horderly hsent⟩
      unfold Message.pendingRequest
      split <;> simp_all
  | setMessageReaction chatId messageId reaction =>
      simp only [TelegramState.decide, bind_eq_ok] at hdecide
      obtain ⟨-, -, -, -, hevents⟩ := hdecide
      exact .inr ⟨_, (Except.ok.inj hevents).symm, trivial⟩
  | queueMessage chatId localMessageId senderUserId clientRequestId dateUnixMs content
      replyToMessageId messageThreadId =>
      simp only [TelegramState.decide, bind_eq_ok, ensure_eq_ok] at hdecide
      obtain ⟨-, -, -, hfree, -, -, -, hfresh, hevents⟩ := hdecide
      refine .inr ⟨_, (Except.ok.inj hevents).symm, clientRequestId, rfl, rfl, ?_, ?_⟩
      · exact get_of_not_contains hfree
      · exact get_of_not_contains hfresh
  | acknowledgeMessage clientRequestId serverMessageId dateUnixMs =>
      simp only [TelegramState.decide, bind_eq_ok, okOr_eq_ok, ensure_eq_ok] at hdecide
      obtain ⟨key, hkey, -, hfree, hevents⟩ := hdecide
      refine .inr ⟨_, (Except.ok.inj hevents).symm, ⟨clientRequestId, hkey⟩, ?_⟩
      exact hfree.imp_right get_of_not_contains
  | failMessage clientRequestId code retryable =>
      simp only [TelegramState.decide, bind_eq_ok, okOr_eq_ok] at hdecide
      obtain ⟨key, hkey, hevents⟩ := hdecide
      exact .inr ⟨_, (Except.ok.inj hevents).symm, clientRequestId, hkey⟩
  | editMessage chatId messageId content editDateUnixMs =>
      simp only [TelegramState.decide, bind_eq_ok] at hdecide
      obtain ⟨-, -, hevents⟩ := hdecide
      exact .inr ⟨_, (Except.ok.inj hevents).symm, trivial⟩
  | deleteMessages chatId messageIds =>
      simp only [TelegramState.decide, bind_eq_ok] at hdecide
      obtain ⟨-, -, -, -, _, hstored, hevents⟩ := hdecide
      refine .inr ⟨_, (Except.ok.inj hevents).symm, ?_⟩
      have hwithdrawn := horderly fun messageId hmem ↦
        isSome_of_forM hstored messageId (mem_uniqueIds.mpr hmem)
      intro messageId hmem r hr k hk
      obtain ⟨hchat, hlisted⟩ := hwithdrawn messageId (mem_uniqueIds.mp hmem) r hr k hk
      exact ⟨hchat, mem_uniqueIds.mpr hlisted⟩
  | setChatRead chatId lastReadInboxMessageId unreadCount =>
      simp only [TelegramState.decide, bind_eq_ok] at hdecide
      obtain ⟨chat, -, hevents⟩ := hdecide
      split at hevents
      · exact .inl (Except.ok.inj hevents).symm
      · exact .inr ⟨_, (Except.ok.inj hevents).symm, trivial⟩
  | setPinnedMessage chatId messageId =>
      simp only [TelegramState.decide, bind_eq_ok] at hdecide
      obtain ⟨chat, -, -, -, hevents⟩ := hdecide
      split at hevents
      · exact .inl (Except.ok.inj hevents).symm
      · exact .inr ⟨_, (Except.ok.inj hevents).symm, trivial⟩

theorem Consistent.next (h : state.Consistent) (horderly : state.Orderly command) :
    (state.next command).Consistent := by
  unfold TelegramState.next TelegramState.execute
  cases hdecide : state.decide command with
  | error e => exact h
  | ok events =>
      rcases finds_of_decide hdecide horderly with rfl | ⟨event, rfl, hfinds⟩
      · exact h
      · exact h.apply hfinds

end Commands

theorem consistent_empty : ({} : TelegramState Content Formatted).Consistent := by
  refine ⟨?_, indexes_empty⟩
  intro k message hget
  simp at hget

/-- Along orderly commands the index leads to the pending messages and to nothing else,
every message lies under its key, and a snapshot brings the state back. -/
theorem pendingRequests_agree (commands : List (Command Content Formatted))
    (horderly : Runs.Along TelegramState.next Orderly {} commands) :
    let state := Runs.run TelegramState.next {} commands
    (∀ (r : ClientRequestId) (k : MessageKey), state.pendingRequests[r]? = some k ↔
      ∃ message, state.messages[k]? = some message ∧ message.isDeleted = false ∧
        message.deliveryState = .pending r) ∧
    (∀ (k : MessageKey) (message : Message Content),
      state.messages[k]? = some message → k = ⟨message.chatId, message.id⟩) ∧
    deserialize state.serialize = state := by
  intro state
  have h : state.Consistent := Runs.invariant_along (fun _ _ h horderly ↦ h.next horderly)
    consistent_empty horderly
  refine ⟨?_, fun k message hget ↦ (h.keyed k message hget).symm,
    h.keyed.deserialize_serialize⟩
  intro r k
  refine (h.indexed r k).trans (Option.bind_eq_some_iff.trans ?_)
  exact exists_congr fun message ↦ and_congr_right fun _ ↦ Message.pendingRequest_eq_some

/-! ## Runs that get out of step -/

section Demo

def demoChat : Command String String :=
  .upsertChat { id := ⟨1⟩, kind := .privateChat, title := "chat" }

def demoQueue (messageId : MessageId) : Command String String :=
  .queueMessage ⟨1⟩ messageId ⟨7⟩ "r" 0 "text" none none

def demoRemote (messageId : MessageId) : Command String String :=
  .upsertRemoteMessage
    { id := messageId, chatId := ⟨1⟩, senderUserId := ⟨8⟩, dateUnixMs := 0
      editDateUnixMs := none, content := "remote", replyToMessageId := none
      messageThreadId := none, deliveryState := .sent, reactions := [], isOutgoing := false
      isPinned := false, isDeleted := false }

/-- A remote message with the local id of a pending one leaves the request behind. -/
theorem pendingRequests_left_behind :
    ¬ ∀ (commands : List (Command String String)) (r : ClientRequestId) (k : MessageKey),
      let state := Runs.run TelegramState.next {} commands
      state.pendingRequests[r]? = some k ↔
        ∃ message, state.messages[k]? = some message ∧ message.isDeleted = false ∧
          message.deliveryState = .pending r := by
  intro h
  have hback := (h [demoChat, demoQueue ⟨1⟩, demoRemote ⟨1⟩] "r" ⟨⟨1⟩, ⟨1⟩⟩).mp
    (by decide +kernel)
  obtain ⟨message, hget, -, hpending⟩ := hback
  have hsent : ∀ message ∈ (Runs.run TelegramState.next {}
      [demoChat, demoQueue ⟨1⟩, demoRemote ⟨1⟩]).messages[MessageKey.mk ⟨1⟩ ⟨1⟩]?,
        message.deliveryState = .sent := by
    decide +kernel
  rw [hsent message hget] at hpending
  cases hpending

theorem pendingRequests_agree_demo :
    let commands : List (Command String String) :=
      [demoChat, demoQueue ⟨1⟩, .acknowledgeMessage "r" ⟨5⟩ 3, demoQueue ⟨1⟩,
        .deleteMessages ⟨1⟩ [⟨1⟩, ⟨5⟩]]
    let state := Runs.run TelegramState.next {} commands
    (∀ (r : ClientRequestId) (k : MessageKey), state.pendingRequests[r]? = some k ↔
      ∃ message, state.messages[k]? = some message ∧ message.isDeleted = false ∧
        message.deliveryState = .pending r) ∧
    (∀ (k : MessageKey) (message : Message String),
      state.messages[k]? = some message → k = ⟨message.chatId, message.id⟩) ∧
    deserialize state.serialize = state :=
  pendingRequests_agree _ (by decide +kernel)

end Demo

end TelegramState

end Fabushi.TelegramCore
