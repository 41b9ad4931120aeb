import Fabushi.Messaging.RetentionRuns

/-!
# The counters of polls

A poll carries a counter for each of its options, and the votes are recorded beside
the messages. A vote recounts every option from the record. The other ways in which
a poll gets into the store, sending, editing and forwarding, take the counters as
they come.
-/

namespace Fabushi.Messaging

open Effects MachineInt Result Std

variable {S B : Type}

/-! ## Votes -/

def voters (votes : BTreeMap ActorId (BTreeSet String)) (optionId : String) : List ActorId :=
  (votes.toList.filter fun vote ↦ vote.2.contains optionId).map Prod.fst

section Voters

variable {votes votes' : BTreeMap ActorId (BTreeSet String)} {optionId : String}

theorem mem_voters {a : ActorId} :
    a ∈ voters votes optionId ↔
      ∃ selected, votes[a]? = some selected ∧ selected.contains optionId = true := by
  unfold voters
  rw [List.mem_map]
  constructor
  · rintro ⟨⟨a, selected⟩, hvote, rfl⟩
    obtain ⟨hmem, hselected⟩ := List.mem_filter.mp hvote
    exact ⟨selected, ExtTreeMap.mem_toList_iff_getElem?_eq_some.mp hmem, hselected⟩
  · rintro ⟨selected, hvote, hselected⟩
    refine ⟨(a, selected), List.mem_filter.mpr ⟨?_, hselected⟩, rfl⟩
    exact ExtTreeMap.mem_toList_iff_getElem?_eq_some.mpr hvote

theorem voterCount_eq (votes : BTreeMap ActorId (BTreeSet String)) (optionId : String) :
    voterCount votes optionId = saturatingU32 (voters votes optionId).length := by
  unfold voterCount voters
  rw [BTreeMap.values_eq, List.filter_map, List.length_map, List.length_map]
  rfl

theorem nodup_voters (votes : BTreeMap ActorId (BTreeSet String)) (optionId : String) :
    (voters votes optionId).Nodup := by
  have hkeys : (votes.toList.map Prod.fst).Nodup := by
    rw [List.Nodup, List.pairwise_map]
    refine (ExtTreeMap.distinct_keys_toList (t := votes)).imp ?_
    rintro a b hab heq
    rw [heq] at hab
    exact hab ReflCmp.compare_self
  exact hkeys.sublist (List.filter_sublist.map _)

theorem length_voters_le
    (h : ∀ a ∈ voters votes' optionId, a ∈ voters votes optionId) :
    (voters votes' optionId).length ≤ (voters votes optionId).length :=
  ((nodup_voters votes' optionId).subperm h).length_le

theorem length_voters_le_succ {b : ActorId}
    (h : ∀ a ∈ voters votes' optionId, a = b ∨ a ∈ voters votes optionId) :
    (voters votes' optionId).length ≤ (voters votes optionId).length + 1 := by
  have hsubset : voters votes' optionId ⊆ b :: voters votes optionId :=
    fun a ha ↦ List.mem_cons.mpr (h a ha)
  exact ((nodup_voters votes' optionId).subperm hsubset).length_le

end Voters

def castVote (votes : BTreeMap ActorId (BTreeSet String)) (actorId : ActorId)
    (optionIds : List String) : BTreeMap ActorId (BTreeSet String) :=
  let selected : BTreeSet String := ExtTreeSet.ofList optionIds compare
  if selected.isEmpty then votes.erase actorId else votes.insert actorId selected

theorem mem_voters_castVote {votes : BTreeMap ActorId (BTreeSet String)} {actorId a : ActorId}
    {optionIds : List String} {optionId : String}
    (h : a ∈ voters (castVote votes actorId optionIds) optionId) :
    (a = actorId ∧ optionId ∈ optionIds) ∨ a ∈ voters votes optionId := by
  obtain ⟨selected, hvote, hselected⟩ := mem_voters.mp h
  unfold castVote at hvote
  dsimp only at hvote
  split at hvote
  · rw [BTreeMap.get_erase] at hvote
    split at hvote
    · cases hvote
    · exact .inr (mem_voters.mpr ⟨selected, hvote, hselected⟩)
  · rw [BTreeMap.get_insert] at hvote
    split at hvote
    · rename_i hactor
      obtain rfl := Option.some.inj hvote
      exact .inl ⟨hactor.symm, by simpa using hselected⟩
    · exact .inr (mem_voters.mpr ⟨selected, hvote, hselected⟩)

/-! ## Counters -/

def MessageContent.Counts (votes : BTreeMap ActorId (BTreeSet String)) : MessageContent → Prop
  | .poll _ options _ _ _ =>
      ∀ option ∈ options, option.voterCount.toNat = (voters votes option.id).length
  | _ => True

instance (votes : BTreeMap ActorId (BTreeSet String)) (content : MessageContent) :
    Decidable (content.Counts votes) := by
  cases content <;> unfold MessageContent.Counts <;> infer_instance

theorem length_filter_eq_sum {β : Type} (p : β → Bool) (ys : List β) :
    (ys.filter p).length = (ys.map fun y ↦ bif p y then 1 else 0).sum := by
  induction ys with
  | nil => rfl
  | cons y ys ih =>
      cases hp : p y
      · simp [hp, ih]
      · simp [hp, ih, add_comm]

theorem sum_length_filter_comm {α β : Type} (r : α → β → Bool) (xs : List α) (ys : List β) :
    (xs.map fun x ↦ (ys.filter fun y ↦ r x y).length).sum =
      (ys.map fun y ↦ (xs.filter fun x ↦ r x y).length).sum := by
  induction xs with
  | nil => simp
  | cons x xs ih =>
      have hcons : ∀ y, ((x :: xs).filter fun x ↦ r x y).length =
          (bif r x y then 1 else 0) + (xs.filter fun x ↦ r x y).length := by
        intro y
        cases hr : r x y
        · simp [hr]
        · simp [hr, add_comm]
      rw [List.map_cons, List.sum_cons, ih, length_filter_eq_sum]
      simp only [hcons, List.sum_map_add]

/-- The counters of a poll add up to the number of choices in all votes together. -/
def MessageContent.Totals (votes : BTreeMap ActorId (BTreeSet String)) : MessageContent → Prop
  | .poll _ options _ _ _ =>
      (options.map fun option ↦ option.voterCount.toNat).sum =
        (votes.toList.map fun vote ↦
          (options.filter fun option ↦ vote.2.contains option.id).length).sum
  | _ => True

theorem MessageContent.Counts.totals {votes : BTreeMap ActorId (BTreeSet String)}
    {content : MessageContent} (h : content.Counts votes) : content.Totals votes := by
  cases content
  case poll question options anonymous multipleAnswers quiz =>
    have hoptions : options.map (fun option ↦ option.voterCount.toNat) =
        options.map fun option ↦ (votes.toList.filter fun vote ↦
          vote.2.contains option.id).length := by
      apply List.map_congr_left
      intro option hoption
      rw [h option hoption, voters, List.length_map]
    change (options.map fun option ↦ option.voterCount.toNat).sum = _
    rw [hoptions]
    exact sum_length_filter_comm (fun option vote ↦ vote.2.contains option.id) options
      votes.toList
  all_goals trivial

def FitsCounters (votes : BTreeMap ActorId (BTreeSet String)) (actorId : ActorId)
    (optionIds : List String) : Prop :=
  ∀ optionId ∈ optionIds, actorId ∈ voters votes optionId ∨
    (voters votes optionId).length + 1 < 2 ^ 32

instance (votes : BTreeMap ActorId (BTreeSet String)) (actorId : ActorId)
    (optionIds : List String) : Decidable (FitsCounters votes actorId optionIds) := by
  unfold FitsCounters
  infer_instance

theorem MessageContent.Counts.recount {votes : BTreeMap ActorId (BTreeSet String)}
    {content : MessageContent} (h : content.Counts votes) {actorId : ActorId}
    {optionIds : List String} (hfits : FitsCounters votes actorId optionIds) :
    (content.recount (castVote votes actorId optionIds)).Counts
      (castVote votes actorId optionIds) := by
  cases content
  case poll question options anonymous multipleAnswers quiz =>
    intro counted hcounted
    obtain ⟨option, hoption, rfl⟩ := List.mem_map.mp hcounted
    dsimp only
    rw [voterCount_eq]
    apply toNat_saturatingU32
    have hbefore : (voters votes option.id).length < 2 ^ 32 := by
      rw [← h option hoption]
      exact option.voterCount.toNat_lt
    by_cases hselected : option.id ∈ optionIds
    · rcases hfits option.id hselected with hvoter | hroom
      · refine Nat.lt_of_le_of_lt (length_voters_le fun a ha ↦ ?_) hbefore
        rcases mem_voters_castVote ha with ⟨rfl, -⟩ | ha
        · exact hvoter
        · exact ha
      · refine Nat.lt_of_le_of_lt (length_voters_le_succ (b := actorId) fun a ha ↦ ?_) hroom
        rcases mem_voters_castVote ha with ⟨rfl, -⟩ | ha
        · exact .inl rfl
        · exact .inr ha
    · refine Nat.lt_of_le_of_lt (length_voters_le fun a ha ↦ ?_) hbefore
      rcases mem_voters_castVote ha with ⟨-, hmem⟩ | ha
      · exact absurd hmem hselected
      · exact ha
  all_goals trivial

/-! ## Commands -/

def EventTag.isContent : EventTag → Bool
  | .messageQueued | .messageEdited | .pollVoteChanged => true
  | _ => false

namespace MessagingState

variable {state : MessagingState}

def votesOf (state : MessagingState) (k : ConversationId) (id : MessageId) :
    BTreeMap ActorId (BTreeSet String) :=
  (state.pollVotes[k]?.bind fun byMessage ↦ byMessage[id]?).getD ∅

structure Tallied (state : MessagingState) : Prop where
  counted : ∀ k id message, state.findMessage k id = some message →
    message.content.Counts (state.votesOf k id)
  stored : ∀ k id, state.findMessage k id = none → state.votesOf k id = ∅

theorem tallied_empty : Tallied {} := by
  constructor
  · intro k id message h
    simp [findMessage] at h
  · intro k id _
    simp [votesOf]

theorem Tallied.of_same {state' : MessagingState} (htallied : state.Tallied)
    (hcontent : ∀ k id, (state'.findMessage k id).map Message.content =
      (state.findMessage k id).map Message.content)
    (hvotes : state'.pollVotes = state.pollVotes) : state'.Tallied := by
  have hsame : ∀ k id, state'.votesOf k id = state.votesOf k id := by
    intro k id
    rw [votesOf, hvotes]
    rfl
  constructor
  · intro k id message hmessage
    have hold := hcontent k id
    rw [hmessage] at hold
    obtain ⟨old, hfound, hcontents⟩ := Option.map_eq_some_iff.mp hold.symm
    rw [hsame, ← hcontents]
    exact htallied.counted k id old hfound
  · intro k id hnone
    rw [hsame]
    apply htallied.stored
    have hold := hcontent k id
    rwa [hnone, Option.map_none, eq_comm, Option.map_eq_none_iff] at hold

theorem map_content_ite {p : Prop} [Decidable p] (message : Option Message)
    {f : Message → Message} (hf : ∀ m, (f m).content = m.content) :
    (if p then message.map f else message).map Message.content =
      message.map Message.content := by
  split
  · rw [Option.map_map]
    exact Option.map_congr fun m _ ↦ hf m
  · rfl

theorem map_content_apply {event : Event} (hplace : event.InPlace)
    (htag : event.tag.isContent = false) (k : ConversationId) (id : MessageId) :
    ((state.apply event).findMessage k id).map Message.content =
      (state.findMessage k id).map Message.content := by
  cases event
  case messageAcknowledged conversationId localMessageId serverMessageId acceptedAtMs =>
    obtain rfl : localMessageId = serverMessageId := hplace
    rw [apply, findMessage_applyMessageAcknowledged]
    exact map_content_ite _ fun _ ↦ rfl
  case deliveryStateUpdated =>
    rw [apply, findMessage_updateMessage]
    exact map_content_ite _ fun _ ↦ rfl
  case messagesDeleted =>
    rw [apply, findMessage_applyMessagesDeleted]
    exact map_content_ite _ fun _ ↦ rfl
  case reactionUpdated =>
    rw [apply, findMessage_updateMessage]
    exact map_content_ite _ fun _ ↦ rfl
  case messagePinned conversationId messageId pinned =>
    have hfind : (state.applyMessagePinned conversationId messageId pinned).findMessage k id =
        (state.updateMessage conversationId messageId fun message ↦
          { message with pinned }).findMessage k id := findMessage_of_messages rfl k id
    rw [apply, hfind, findMessage_updateMessage]
    exact map_content_ite _ fun _ ↦ rfl
  case messageQueued | messageEdited | pollVoteChanged => cases htag
  all_goals rfl

theorem pollVotes_apply {event : Event} (htag : event.tag.isContent = false) :
    (state.apply event).pollVotes = state.pollVotes := by
  cases event
  case pollVoteChanged => cases htag
  all_goals rfl

theorem Tallied.apply_of_tag (htallied : state.Tallied) {event : Event} (hplace : event.InPlace)
    (htag : event.tag.isContent = false) : (state.apply event).Tallied :=
  htallied.of_same (map_content_apply hplace htag) (pollVotes_apply htag)

theorem Tallied.applyAll_of_tags (htallied : state.Tallied) {events : List Event}
    (hplace : ∀ event ∈ events, event.InPlace)
    (htags : ∀ event ∈ events, event.tag.isContent = false) :
    (state.applyAll events).Tallied := by
  induction events generalizing state with
  | nil => exact htallied
  | cons event events ih =>
      rw [applyAll, List.foldl_cons]
      apply ih
      · exact htallied.apply_of_tag (hplace event List.mem_cons_self) (htags event List.mem_cons_self)
      · exact fun e he ↦ hplace e (List.mem_cons_of_mem _ he)
      · exact fun e he ↦ htags e (List.mem_cons_of_mem _ he)

/-! ## The three events that write content -/

theorem Tallied.messageQueued (htallied : state.Tallied) {message : Message}
    (hfresh : state.findMessage message.conversationId message.id = none)
    (hcounts : message.content.Counts ∅) : (state.apply (.messageQueued message)).Tallied := by
  have hvotes : ∀ k id, (state.apply (.messageQueued message)).votesOf k id =
      state.votesOf k id := fun _ _ ↦ rfl
  constructor
  · intro k id m hm
    rw [apply, findMessage_applyMessageQueued] at hm
    rw [hvotes]
    split at hm
    · rename_i hplace
      obtain ⟨rfl, rfl⟩ := hplace
      obtain rfl := Option.some.inj hm
      rw [htallied.stored _ _ hfresh]
      exact hcounts
    · exact htallied.counted k id m hm
  · intro k id hnone
    rw [apply, findMessage_applyMessageQueued] at hnone
    rw [hvotes]
    split at hnone
    · cases hnone
    · exact htallied.stored k id hnone

theorem Tallied.messageEdited (htallied : state.Tallied) {conversationId : ConversationId}
    {messageId : MessageId} {content : MessageContent} {editedAtMs : Int64}
    (hcounts : content.Counts (state.votesOf conversationId messageId)) :
    (state.apply (.messageEdited conversationId messageId content editedAtMs)).Tallied := by
  have hvotes : ∀ k id, (state.apply (.messageEdited conversationId messageId content
      editedAtMs)).votesOf k id = state.votesOf k id := fun _ _ ↦ rfl
  constructor
  · intro k id m hm
    rw [apply, findMessage_updateMessage] at hm
    rw [hvotes]
    split at hm
    · rename_i hplace
      obtain ⟨rfl, rfl⟩ := hplace
      obtain ⟨old, -, rfl⟩ := Option.map_eq_some_iff.mp hm
      exact hcounts
    · exact htallied.counted k id m hm
  · intro k id hnone
    rw [apply, findMessage_updateMessage] at hnone
    rw [hvotes]
    split at hnone
    · exact htallied.stored k id (Option.map_eq_none_iff.mp hnone)
    · exact htallied.stored k id hnone

theorem votesOf_eq (state : MessagingState) (k : ConversationId) (id : MessageId) :
    state.votesOf k id = (state.pollVotes[k]?.getD ∅)[id]?.getD ∅ := by
  unfold votesOf
  cases state.pollVotes[k]? with
  | none => simp
  | some byMessage => rfl

theorem votesOf_pollVoteChanged (state : MessagingState) (conversationId : ConversationId)
    (messageId : MessageId) (actorId : ActorId) (optionIds : List String) (k : ConversationId)
    (id : MessageId) :
    (state.applyPollVoteChanged conversationId messageId actorId optionIds).votesOf k id =
      if conversationId = k ∧ messageId = id then
        castVote (state.votesOf conversationId messageId) actorId optionIds
      else state.votesOf k id := by
  rw [votesOf_eq, votesOf_eq, votesOf_eq]
  change ((state.pollVotes.insert conversationId _)[k]?.getD ∅)[id]?.getD ∅ = _
  rw [BTreeMap.get_insert]
  by_cases hk : conversationId = k
  · subst hk
    simp only [if_true, true_and, Option.getD_some]
    rw [BTreeMap.get_insert]
    split
    · rfl
    · rfl
  · rw [if_neg hk, if_neg fun h ↦ hk h.1]

theorem Tallied.pollVoteChanged (htallied : state.Tallied) {conversationId : ConversationId}
    {messageId : MessageId} {actorId : ActorId} {optionIds : List String}
    (hstored : (state.findMessage conversationId messageId).isSome = true)
    (hfits : FitsCounters (state.votesOf conversationId messageId) actorId optionIds) :
    (state.apply (.pollVoteChanged conversationId messageId actorId optionIds)).Tallied := by
  have hrecount : (state.applyPollVoteChanged conversationId messageId actorId
      optionIds).messages = (state.updateMessage conversationId messageId fun message ↦
        { message with content := message.content.recount (castVote
          (state.votesOf conversationId messageId) actorId optionIds) }).messages := by
    rw [votesOf_eq]
    rfl
  constructor
  · intro k id m hm
    rw [apply, findMessage_of_messages hrecount, findMessage_updateMessage] at hm
    rw [apply, votesOf_pollVoteChanged]
    split at hm
    · rename_i hplace
      rw [if_pos hplace]
      obtain ⟨rfl, rfl⟩ := hplace
      obtain ⟨old, hold, rfl⟩ := Option.map_eq_some_iff.mp hm
      exact (htallied.counted _ _ old hold).recount hfits
    · rename_i hplace
      rw [if_neg hplace]
      exact htallied.counted k id m hm
  · intro k id hnone
    rw [apply, findMessage_of_messages hrecount, findMessage_updateMessage] at hnone
    rw [apply, votesOf_pollVoteChanged]
    split at hnone
    · rename_i hplace
      obtain ⟨rfl, rfl⟩ := hplace
      rw [Option.map_eq_none_iff.mp hnone] at hstored
      cases hstored
    · rename_i hplace
      rw [if_neg hplace]
      exact htallied.stored k id hnone

end MessagingState

def Command.KeepsCounts (state : MessagingState) : Command → Prop
  | .queueMessage _ _ _ _ content .. => content.Counts ∅
  | .forwardMessage sourceConversationId messageId .. =>
      ∀ original ∈ state.findMessage sourceConversationId messageId, original.content.Counts ∅
  | .editMessage conversationId messageId content _ =>
      content.Counts (state.votesOf conversationId messageId)
  | .votePoll conversationId messageId actorId optionIds =>
      FitsCounters (state.votesOf conversationId messageId) actorId optionIds
  | _ => True

instance (state : MessagingState) (command : Command) :
    Decidable (command.KeepsCounts state) := by
  cases command <;> unfold Command.KeepsCounts <;> infer_instance

namespace MessagingState

variable {state : MessagingState}

theorem Tallied.votePoll (htallied : state.Tallied) {conversationId : ConversationId}
    {messageId : MessageId} {actorId : ActorId} {optionIds : List String} {events : List Event}
    (hfits : FitsCounters (state.votesOf conversationId messageId) actorId optionIds)
    (hdecide : state.decide (.votePoll conversationId messageId actorId optionIds) = .ok events) :
    (state.applyAll events).Tallied := by
  obtain ⟨_, -, h⟩ := bind_eq_ok.mp hdecide
  obtain ⟨message, hmessage, h⟩ := bind_eq_ok.mp h
  split at h
  · obtain ⟨_, -, h⟩ := bind_eq_ok.mp h
    obtain rfl := Except.ok.inj h
    apply htallied.pollVoteChanged
    · rw [okOr_eq_ok.mp hmessage]
      rfl
    · intro optionId hmem
      apply hfits
      rw [ExtTreeSet.mem_toList] at hmem
      simpa using hmem
  · cases h

theorem Tallied.queueMessage (htallied : state.Tallied) {conversationId : ConversationId}
    {localMessageId : MessageId} {clientMessageId : ClientMessageId} {senderId : ActorId}
    {content : MessageContent} {replyToMessageId threadRootMessageId : Option MessageId}
    {createdAtMs : Int64} {scheduledAtMs : Option Int64} {silent protectedContent : Bool}
    {events : List Event} (hcounts : content.Counts ∅)
    (hdecide : state.decide (.queueMessage conversationId localMessageId clientMessageId senderId
      content replyToMessageId threadRootMessageId createdAtMs scheduledAtMs silent
      protectedContent) = .ok events) : (state.applyAll events).Tallied := by
  obtain ⟨_, -, h⟩ := bind_eq_ok.mp hdecide
  obtain ⟨_, -, h⟩ := bind_eq_ok.mp h
  obtain ⟨_, -, h⟩ := bind_eq_ok.mp h
  obtain ⟨_, -, h⟩ := bind_eq_ok.mp h
  obtain ⟨_, -, h⟩ := bind_eq_ok.mp h
  obtain ⟨_, -, h⟩ := bind_eq_ok.mp h
  obtain ⟨_, -, h⟩ := bind_eq_ok.mp h
  obtain ⟨_, -, h⟩ := bind_eq_ok.mp h
  obtain ⟨_, hfresh, h⟩ := bind_eq_ok.mp h
  obtain ⟨_, -, h⟩ := bind_eq_ok.mp h
  obtain rfl := Except.ok.inj h
  exact htallied.messageQueued (ensure_eq_ok.mp hfresh) hcounts

theorem Tallied.forwardMessage (htallied : state.Tallied)
    {sourceConversationId destinationConversationId : ConversationId}
    {messageId localMessageId : MessageId} {clientMessageId : ClientMessageId} {senderId : ActorId}
    {createdAtMs : Int64} {events : List Event}
    (hcounts : ∀ original ∈ state.findMessage sourceConversationId messageId,
      original.content.Counts ∅)
    (hdecide : state.decide (.forwardMessage sourceConversationId messageId
      destinationConversationId localMessageId clientMessageId senderId createdAtMs) =
        .ok events) : (state.applyAll events).Tallied := by
  obtain ⟨_, -, h⟩ := bind_eq_ok.mp hdecide
  obtain ⟨_, -, h⟩ := bind_eq_ok.mp h
  obtain ⟨_, -, h⟩ := bind_eq_ok.mp h
  obtain ⟨_, hfresh, h⟩ := bind_eq_ok.mp h
  obtain ⟨original, horiginal, h⟩ := bind_eq_ok.mp h
  obtain ⟨_, -, h⟩ := bind_eq_ok.mp h
  obtain ⟨_, -, h⟩ := bind_eq_ok.mp h
  obtain ⟨_, -, h⟩ := bind_eq_ok.mp h
  obtain rfl := Except.ok.inj h
  refine htallied.messageQueued (ensure_eq_ok.mp hfresh) ?_
  exact hcounts original (okOr_eq_ok.mp horiginal)

theorem Tallied.next_of_tags (htallied : state.Tallied) {c : Command} (hplace : c.InPlace)
    (htags : c.eventTags.any EventTag.isContent = false) : (state.next c).Tallied := by
  unfold MessagingState.next execute
  cases hdecide : state.decide c with
  | error e => exact htallied
  | ok events =>
      have hwithin := state.decide_eventTags c
      rw [hdecide] at hwithin
      apply htallied.applyAll_of_tags
      · intro event hevent
        cases htarget : c.messageConversation with
        | none =>
            apply Event.inPlace_of_tag
            have htags := Command.eventTags_of_messageConversation htarget
            simpa using List.any_eq_false.mp htags _ (hwithin event hevent)
        | some target =>
            obtain ⟨only, rfl, hwrites⟩ := writes_of_messageConversation htarget hdecide
            obtain rfl := List.mem_singleton.mp hevent
            exact hwrites.inPlace hplace
      · intro event hevent
        simpa using List.any_eq_false.mp htags _ (hwithin event hevent)

theorem Tallied.next (htallied : state.Tallied) {c : Command} (hplace : c.InPlace)
    (hkeeps : (state.decide c).isOk = true → c.KeepsCounts state) : (state.next c).Tallied := by
  by_cases htags : c.eventTags.any EventTag.isContent = false
  · exact htallied.next_of_tags hplace htags
  · unfold MessagingState.next execute
    cases hdecide : state.decide c with
    | error e => exact htallied
    | ok events =>
        rw [hdecide] at hkeeps
        have hcounts := hkeeps rfl
        cases c
        case queueMessage => exact htallied.queueMessage hcounts hdecide
        case forwardMessage => exact htallied.forwardMessage hcounts hdecide
        case editMessage =>
          obtain ⟨_, -, h⟩ := bind_eq_ok.mp hdecide
          obtain rfl := Except.ok.inj h
          exact htallied.messageEdited hcounts
        case votePoll => exact htallied.votePoll hcounts hdecide
        all_goals exact absurd rfl htags

theorem Tallied.run (htallied : state.Tallied) {commands : List Command}
    (hplace : ∀ c ∈ commands, c.InPlace) (hkeeps : ∀ c ∈ commands, ∀ state, c.KeepsCounts state) :
    (Runs.run MessagingState.next state commands).Tallied := by
  induction commands generalizing state with
  | nil => exact htallied
  | cons c commands ih =>
      have hnext := htallied.next (hplace c List.mem_cons_self)
        fun _ ↦ hkeeps c List.mem_cons_self state
      exact ih hnext (fun c' hc' ↦ hplace c' (List.mem_cons_of_mem _ hc'))
        fun c' hc' ↦ hkeeps c' (List.mem_cons_of_mem _ hc')

/-! ## Requests -/

variable {env : ServiceEnv} {actorId : ActorId} {serverTimeMs : Int64} {command : ClientCommand}
  {commands : List Command}

theorem Work.plain_tail (h : state.Work env actorId serverTimeMs command commands)
    {first : Command} {rest : List Command} (hcommands : commands = first :: rest) :
    ∀ c ∈ rest, ∀ state, c.KeepsCounts state := by
  cases h with
  | delivered =>
      intro c hc state
      have hmem := List.mem_cons_of_mem first hc
      rw [← hcommands] at hmem
      obtain ⟨_, -, -, -, _, rfl⟩ := undelivered_cases hmem
      trivial
  | projected =>
      rcases projected_cases state env.sha256 actorId serverTimeMs command with
        ⟨only, honly⟩ | hnone | ⟨_, _, _, _, _, _, _, _, rfl⟩ | ⟨_, _, rfl⟩
      · obtain ⟨-, rfl⟩ := List.cons.inj (honly.symm.trans hcommands)
        exact List.forall_mem_nil _
      · cases hnone.symm.trans hcommands
      · obtain ⟨-, rfl⟩ := List.cons.inj hcommands
        intro c hc state
        obtain rfl := List.mem_singleton.mp hc
        trivial
      · obtain ⟨-, rfl⟩ := List.cons.inj hcommands
        intro c hc state
        split at hc
        · obtain rfl := List.mem_singleton.mp hc
          trivial
        · cases hc

/-- What a request must not do for the tallies to stay right: an accepted command of it
brings counters of its own, or a vote overflows one. -/
def KeepsTallies (env : ServiceEnv) (state : MessagingState) (actorId : ActorId)
    (serverTimeMs : Int64) (command : ClientCommand) : Prop :=
  ∀ c ∈ projectCommand env.sha256 (state.settled serverTimeMs) actorId serverTimeMs command,
    ((state.settled serverTimeMs).decide c).isOk = true → c.KeepsCounts (state.settled serverTimeMs)

instance (env : ServiceEnv) (state : MessagingState) (actorId : ActorId) (serverTimeMs : Int64)
    (command : ClientCommand) :
    Decidable (KeepsTallies env state actorId serverTimeMs command) := by
  unfold KeepsTallies
  infer_instance

theorem Tallied.settling (htallied : state.Tallied) {front back : List Command}
    (hexpired : MessagingService.expiredMessages state serverTimeMs = front ++ back) :
    (Runs.run MessagingState.next state front).Tallied := by
  have hdelete : ∀ c ∈ front, ∃ conversationId messageIds,
      c = .deleteMessages conversationId messageIds := by
    intro c hc
    have hmem : c ∈ MessagingService.expiredMessages state serverTimeMs := by
      rw [hexpired]
      exact List.mem_append_left _ hc
    obtain ⟨_, _, -, rfl⟩ := expired_cases hmem
    exact ⟨_, _, rfl⟩
  apply htallied.run
  · intro c hc
    obtain ⟨_, _, rfl⟩ := hdelete c hc
    trivial
  · intro c hc state
    obtain ⟨_, _, rfl⟩ := hdelete c hc
    trivial

theorem Tallied.served {after : MessagingState} (htallied : state.Tallied)
    (h : Served env actorId serverTimeMs command state after)
    (hkeeps : (state.validateCommandAuthorization actorId command).isOk = true →
      state.KeepsTallies env actorId serverTimeMs command) : after.Tallied := by
  cases h with
  | refused => exact htallied
  | settling front back hexpired => exact htallied.settling hexpired
  | @working hauthorized commands hwork front back hcommands haccepted =>
      have hsettled : (state.settled serverTimeMs).Tallied :=
        htallied.settling (List.append_nil _).symm
      cases front with
      | nil => exact hsettled
      | cons first rest =>
          have hplain := hwork.plain_tail hcommands
          have hroutine := hwork.routine
          rw [hcommands] at hroutine
          rw [Runs.run_cons]
          apply Tallied.run
          · apply hsettled.next (hroutine first (by simp)).inPlace
            intro hok
            cases hwork with
            | projected =>
                refine hkeeps (by rw [hauthorized]; rfl) first ?_ hok
                rw [hcommands]
                exact List.mem_cons_self
            | delivered =>
                have hmem : first ∈ first :: rest ++ back := List.mem_cons_self
                rw [← hcommands] at hmem
                obtain ⟨_, -, -, -, _, rfl⟩ := undelivered_cases hmem
                trivial
          · intro c hc
            exact (hroutine c (by simp [hc])).inPlace
          · intro c hc
            exact hplain c (List.mem_append_left _ hc)

end MessagingState

/-! ## Runs of the service -/

namespace MessagingService

open MessagingState

/-- No accepted command of the input brings counters of its own, and a vote leaves room
in the counters. -/
def CountsVotes (env : ServiceEnv) (s : MessagingService S B) : ServiceInput → Prop
  | .settle .. => True
  | .handle request serverTimeMs => request.protocolVersion = protocolVersion →
      (s.engine.validateCommandAuthorization request.context.actorId request.command).isOk = true →
        s.engine.KeepsTallies env request.context.actorId serverTimeMs request.command

instance (env : ServiceEnv) (s : MessagingService S B) (input : ServiceInput) :
    Decidable (s.CountsVotes env input) :=
  match input with
  | .settle .. => inferInstanceAs (Decidable True)
  | .handle .. => inferInstanceAs (Decidable (_ → _ → KeepsTallies ..))

variable [MessagingStateStore S] [BlobStore B] {env : ServiceEnv} {store : S}
  {blobStore : Option B} {inputs : List ServiceInput} {s : MessagingService S B}
  {input : ServiceInput}

theorem tallied_next (htallied : s.engine.Tallied) (hcounts : s.CountsVotes env input) :
    (next env s input).engine.Tallied := by
  cases input with
  | handle request serverTimeMs =>
      by_cases hversion : request.protocolVersion = protocolVersion
      · exact htallied.served (served_handle env request serverTimeMs s) (hcounts hversion)
      · rw [next, handle, if_pos hversion]
        exact htallied
  | settle verifier signed serverTimeMs =>
      rw [next]
      rcases engine_settle env verifier signed serverTimeMs s with hsame | ⟨event, hnext⟩
      · rw [hsame]
        exact htallied
      · rw [hnext]
        exact htallied.next trivial fun _ ↦ trivial

/-- In a run in which nobody brings counters along, every counter of every poll is the
number of the actors whose vote contains the option, and the totals agree. -/
theorem polls_tallied
    (hrun : Runs.Along (next env) (CountsVotes env) (empty store blobStore) inputs)
    {k : ConversationId} {id : MessageId} {message : Message}
    (hmessage : (Runs.run (next env) (empty store blobStore) inputs).engine.findMessage k id =
      some message) :
    let votes := (Runs.run (next env) (empty store blobStore) inputs).engine.votesOf k id
    message.content.Counts votes ∧ message.content.Totals votes := by
  have htallied := Runs.invariant_along (I := fun s : MessagingService S B ↦ s.engine.Tallied)
    (fun _ _ hs hcounts ↦ tallied_next hs hcounts) tallied_empty hrun
  have hcounts := htallied.counted k id message hmessage
  exact ⟨hcounts, hcounts.totals⟩

end MessagingService

/-! ## A poll in a room -/

namespace Chat

def ballot (voterCount : UInt32) : MessageContent :=
  .poll { text := "lunch" } [⟨"soup", "soup", voterCount, false, none⟩,
    ⟨"salad", "salad", 0, false, none⟩] false false false

def vote (actorId : ActorId) (optionIds : List String) : ServiceInput :=
  request 3 actorId (.votePoll room.id (sent host "poll") optionIds)

def voted : List ServiceInput :=
  opening ++ [send 2 host room.id "poll" (ballot 0), vote guest ["soup"], vote host ["soup"],
    vote guest ["salad"], vote host []]

def stuffed : List ServiceInput :=
  opening ++ [send 2 host room.id "poll" (ballot 5)]

end Chat

namespace MessagingService

open Chat in
theorem polls_tallied_voted :
    ∃ message, (reached voted).engine.findMessage room.id (sent host "poll") = some message ∧
      message.content.Counts ((reached voted).engine.votesOf room.id (sent host "poll")) ∧
        message.content.Totals ((reached voted).engine.votesOf room.id (sent host "poll")) := by
  obtain ⟨hcounts, hfound⟩ : Runs.Along (next world) (CountsVotes world)
        (empty ({} : MemoryStateStore) (none : Option Empty)) voted ∧
      ((reached voted).engine.findMessage room.id (sent host "poll")).isSome = true := by
    decide +kernel
  obtain ⟨message, hmessage⟩ := Option.isSome_iff_exists.mp hfound
  exact ⟨message, hmessage, polls_tallied hcounts hmessage⟩

open Chat in
/-- A poll keeps the counters that its sender made up. -/
theorem poll_stuffed :
    ¬ ∀ (inputs : List ServiceInput) (k : ConversationId) (id : MessageId) (message : Message),
      (reached inputs).engine.findMessage k id = some message →
        message.content.Counts ((reached inputs).engine.votesOf k id) := by
  intro hclaim
  have hfound : ((reached stuffed).engine.findMessage room.id (sent host "poll")).any
      (fun message ↦ !decide (message.content.Counts
        ((reached stuffed).engine.votesOf room.id (sent host "poll")))) = true := by
    decide +kernel
  obtain ⟨message, hmessage, hcounts⟩ := (Option.any_eq_true _ _).mp hfound
  have hwrong := hclaim stuffed room.id (sent host "poll") message hmessage
  rw [decide_eq_true hwrong] at hcounts
  cases hcounts

end MessagingService

end Fabushi.Messaging
