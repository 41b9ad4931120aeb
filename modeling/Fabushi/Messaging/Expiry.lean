import Fabushi.Messaging.RequestRuns

/-!
# Deleting what has expired

In a state whose messages are stored under their own identifiers, the settlement
before a request is never refused: it marks exactly the messages as deleted whose
deadline has passed, and it writes nothing else.
-/

namespace Fabushi.Messaging

open Effects Result Std

def Message.settledAt (serverTimeMs : Int64) (message : Message) : Message :=
  if !message.deleted && message.isExpiredAt serverTimeMs then { message with deleted := true }
  else message

namespace MessagingState

variable {state : MessagingState} {serverTimeMs : Int64}

theorem decide_deleteMessages {conversationId : ConversationId} {messageIds : List MessageId}
    (hsome : messageIds ≠ [])
    (hstored : ∀ id ∈ messageIds, (state.findMessage conversationId id).isSome = true) :
    ∃ unique, (∀ id, id ∈ unique ↔ id ∈ messageIds) ∧
      state.decide (.deleteMessages conversationId messageIds) =
        .ok [.messagesDeleted conversationId unique] := by
  let unique : BTreeSet MessageId := ExtTreeSet.ofList messageIds compare
  have hmem : ∀ id, id ∈ unique.toList ↔ id ∈ messageIds := by
    intro id
    rw [ExtTreeSet.mem_toList]
    simp [unique]
  refine ⟨unique.toList, hmem, ?_⟩
  have hnonempty : ¬ unique.isEmpty = true := by
    obtain ⟨id, hid⟩ := List.exists_mem_of_ne_nil _ hsome
    intro hempty
    have := (hmem id).mpr hid
    rw [ExtTreeSet.isEmpty_iff.mp hempty] at this
    simp at this
  have hall : (unique.toList.forM fun id ↦
      discard (state.requireMessage conversationId id) : Except EngineError Unit) = .ok () := by
    have hids : ∀ id ∈ unique.toList, (state.findMessage conversationId id).isSome = true :=
      fun id hid ↦ hstored id ((hmem id).mp hid)
    generalize unique.toList = ids at hids
    induction ids with
    | nil => rfl
    | cons id ids ih =>
        obtain ⟨message, hmessage⟩ := Option.isSome_iff_exists.mp (hids id List.mem_cons_self)
        have hrequire : state.requireMessage conversationId id = .ok message :=
          okOr_eq_ok.mpr hmessage
        change (discard (state.requireMessage conversationId id) >>= fun _ ↦ ids.forM _) = _
        rw [hrequire]
        exact ih fun id' hid' ↦ hids id' (List.mem_cons_of_mem _ hid')
  change (ensure (¬ unique.isEmpty = true) _ >>= fun _ ↦ _) = _
  rw [ensure, if_pos hnonempty]
  change (unique.toList.forM (fun id ↦ discard (state.requireMessage conversationId id)) >>=
    fun _ ↦ _) = _
  rw [hall]
  rfl

def expiredIds (state : MessagingState) (serverTimeMs : Int64) :
    List (ConversationId × List MessageId) :=
  state.messages.toList.filterMap fun (conversationId, messages) ↦
    let expired := messages.values.filter fun message ↦
      !message.deleted && message.isExpiredAt serverTimeMs
    if expired.isEmpty then none
    else some (conversationId, expired.map fun message ↦ message.id)

theorem expiredMessages_eq (state : MessagingState) (serverTimeMs : Int64) :
    MessagingService.expiredMessages state serverTimeMs =
      (state.expiredIds serverTimeMs).map fun expired ↦
        .deleteMessages expired.1 expired.2 := by
  unfold MessagingService.expiredMessages expiredIds
  rw [List.map_filterMap]
  congr 1
  funext ⟨conversationId, messages⟩
  dsimp only
  split <;> rfl

theorem Keyed.mem_expiredIds (hkeyed : state.Keyed) {k : ConversationId} {id : MessageId} :
    (∃ expired ∈ state.expiredIds serverTimeMs, expired.1 = k ∧ id ∈ expired.2) ↔
      ∃ message, state.findMessage k id = some message ∧
        (!message.deleted && message.isExpiredAt serverTimeMs) = true := by
  unfold expiredIds
  simp only [List.mem_filterMap]
  constructor
  · rintro ⟨expired, ⟨⟨conversationId, messages⟩, hmem, hsome⟩, rfl, hid⟩
    dsimp only at hsome
    split at hsome
    · cases hsome
    · obtain rfl := Option.some.inj hsome
      obtain ⟨message, hmessage, rfl⟩ := List.mem_map.mp hid
      obtain ⟨hstored, hexpired⟩ := List.mem_filter.mp hmessage
      obtain ⟨key, hkey⟩ := BTreeMap.mem_values.mp hstored
      have hfind : state.findMessage conversationId key = some message := by
        rw [findMessage, ExtTreeMap.mem_toList_iff_getElem?_eq_some.mp hmem]
        exact hkey
      rw [(hkeyed _ _ _ hfind).1]
      exact ⟨message, hfind, hexpired⟩
  · rintro ⟨message, hfind, hexpired⟩
    obtain ⟨messages, hmessages, hid⟩ := Option.bind_eq_some_iff.mp hfind
    have hmem : message ∈ messages.values.filter fun message ↦
        !message.deleted && message.isExpiredAt serverTimeMs :=
      List.mem_filter.mpr ⟨BTreeMap.mem_values.mpr ⟨id, hid⟩, hexpired⟩
    refine ⟨(k, (messages.values.filter fun message ↦
      !message.deleted && message.isExpiredAt serverTimeMs).map fun message ↦ message.id),
      ⟨(k, messages), ExtTreeMap.mem_toList_iff_getElem?_eq_some.mpr hmessages, ?_⟩, rfl, ?_⟩
    · dsimp only
      rw [if_neg]
      intro hempty
      rw [List.isEmpty_iff.mp hempty] at hmem
      cases hmem
    · exact List.mem_map.mpr ⟨message, hmem, (hkeyed _ _ _ hfind).1⟩

theorem runAll_deletions (deletions : List (ConversationId × List MessageId))
    (hsome : ∀ deletion ∈ deletions, deletion.2 ≠ []) (state : MessagingState)
    (hstored : ∀ deletion ∈ deletions, ∀ id ∈ deletion.2,
      (state.findMessage deletion.1 id).isSome = true) :
    ∃ messages events, state.runAll (deletions.map fun deletion ↦
        .deleteMessages deletion.1 deletion.2) = ({ state with messages }, .ok events) ∧
      (∀ event ∈ events, ∃ deletion ∈ deletions, ∃ unique, (∀ id ∈ unique, id ∈ deletion.2) ∧
        event = .messagesDeleted deletion.1 unique) ∧
      ∀ k id, ({ state with messages } : MessagingState).findMessage k id =
        if ∃ deletion ∈ deletions, deletion.1 = k ∧ id ∈ deletion.2 then
          (state.findMessage k id).map fun message ↦ { message with deleted := true }
        else state.findMessage k id := by
  classical
  induction deletions generalizing state with
  | nil => exact ⟨state.messages, [], rfl, by simp, fun k id ↦ by simp⟩
  | cons deletion deletions ih =>
      obtain ⟨unique, hunique, hdecide⟩ := decide_deleteMessages
        (hsome deletion List.mem_cons_self) (hstored deletion List.mem_cons_self)
      have hexecute : state.execute (.deleteMessages deletion.1 deletion.2) =
          (state.applyMessagesDeleted deletion.1 unique,
            .ok [.messagesDeleted deletion.1 unique]) := by
        rw [execute, hdecide]
        rfl
      have hfirst : ∀ k id, (state.applyMessagesDeleted deletion.1 unique).findMessage k id =
          if deletion.1 = k ∧ id ∈ deletion.2 then
            (state.findMessage k id).map fun message ↦ { message with deleted := true }
          else state.findMessage k id := by
        intro k id
        rw [findMessage_applyMessagesDeleted]
        simp only [hunique]
      obtain ⟨messages, events, hrun, hevents, hfind⟩ := ih
        (fun d hd ↦ hsome d (List.mem_cons_of_mem _ hd))
        (state.applyMessagesDeleted deletion.1 unique) (by
          intro d hd id hid
          have hold := hstored d (List.mem_cons_of_mem _ hd) id hid
          rw [hfirst]
          split
          · rwa [Option.isSome_map]
          · exact hold)
      refine ⟨messages, .messagesDeleted deletion.1 unique :: events, ?_, ?_, fun k id ↦ ?_⟩
      · rw [List.map_cons, runAll_cons_ok hexecute, hrun]
        rfl
      · intro event hevent
        rcases List.mem_cons.mp hevent with rfl | hevent
        · exact ⟨deletion, List.mem_cons_self, unique, fun id ↦ (hunique id).mp, rfl⟩
        · obtain ⟨d, hd, hrest⟩ := hevents event hevent
          exact ⟨d, List.mem_cons_of_mem _ hd, hrest⟩
      · refine (hfind k id).trans ?_
        rw [hfirst]
        by_cases hhead : deletion.1 = k ∧ id ∈ deletion.2
        · have hany : ∃ d ∈ deletion :: deletions, d.1 = k ∧ id ∈ d.2 :=
            ⟨deletion, List.mem_cons_self, hhead⟩
          rw [if_pos hany, if_pos hhead]
          split
          · rw [Option.map_map]
            rfl
          · rfl
        · rw [if_neg hhead]
          congr 1
          simp [hhead]

theorem ne_nil_of_mem_expiredIds {expired : ConversationId × List MessageId}
    (h : expired ∈ state.expiredIds serverTimeMs) : expired.2 ≠ [] := by
  obtain ⟨⟨conversationId, messages⟩, -, hsome⟩ := List.mem_filterMap.mp h
  dsimp only at hsome
  split at hsome
  · cases hsome
  · rename_i hnonempty
    obtain rfl := Option.some.inj hsome
    intro hnil
    exact hnonempty (List.isEmpty_iff.mpr (List.map_eq_nil_iff.mp hnil))

theorem settledAt_of_expired {message : Message}
    (h : (!message.deleted && message.isExpiredAt serverTimeMs) = true) :
    message.settledAt serverTimeMs = { message with deleted := true } :=
  if_pos h

theorem Keyed.runAll_expired_front (hkeyed : state.Keyed) {front back : List Command}
    (hexpired : MessagingService.expiredMessages state serverTimeMs = front ++ back) :
    ∃ (deletions : List (ConversationId × List MessageId))
      (messages : BTreeMap ConversationId (BTreeMap MessageId Message)) (events : List Event),
      front = deletions.map (fun deletion ↦ .deleteMessages deletion.1 deletion.2) ∧
      state.runAll front = ({ state with messages }, .ok events) ∧
      (∀ event ∈ events, ∃ conversationId messageIds,
        event = .messagesDeleted conversationId messageIds) ∧
      ∀ k id, ({ state with messages } : MessagingState).findMessage k id =
        if ∃ deletion ∈ deletions, deletion.1 = k ∧ id ∈ deletion.2 then
          (state.findMessage k id).map (Message.settledAt serverTimeMs)
        else state.findMessage k id := by
  classical
  rw [expiredMessages_eq] at hexpired
  obtain ⟨deletions, rest, hsplit, rfl, -⟩ := List.map_eq_append_iff.mp hexpired
  have hlisted : ∀ deletion ∈ deletions, deletion ∈ state.expiredIds serverTimeMs := by
    intro deletion hdeletion
    rw [hsplit]
    exact List.mem_append_left _ hdeletion
  obtain ⟨messages, events, hrun, hevents, hfind⟩ := runAll_deletions deletions
    (fun deletion hdeletion ↦ ne_nil_of_mem_expiredIds (hlisted deletion hdeletion)) state (by
      intro deletion hdeletion id hid
      obtain ⟨message, hmessage, -⟩ :=
        hkeyed.mem_expiredIds.mp ⟨deletion, hlisted deletion hdeletion, rfl, hid⟩
      rw [hmessage]
      rfl)
  refine ⟨deletions, messages, events, rfl, hrun, ?_, fun k id ↦ ?_⟩
  · intro event hevent
    obtain ⟨deletion, -, unique, -, rfl⟩ := hevents event hevent
    exact ⟨_, _, rfl⟩
  · rw [hfind k id]
    split
    · rename_i hdeleted
      obtain ⟨deletion, hdeletion, hwithin⟩ := hdeleted
      obtain ⟨message, hmessage, hdue⟩ :=
        hkeyed.mem_expiredIds.mp ⟨deletion, hlisted deletion hdeletion, hwithin⟩
      rw [hmessage, Option.map_some, Option.map_some, settledAt_of_expired hdue]
    · rfl

theorem Keyed.runAll_expired (hkeyed : state.Keyed) (serverTimeMs : Int64) :
    ∃ messages events, state.runAll (MessagingService.expiredMessages state serverTimeMs) =
        ({ state with messages }, .ok events) ∧
      (∀ event ∈ events, ∃ conversationId messageIds,
        event = .messagesDeleted conversationId messageIds) ∧
      ∀ k id, ({ state with messages } : MessagingState).findMessage k id =
        (state.findMessage k id).map (Message.settledAt serverTimeMs) := by
  classical
  obtain ⟨deletions, messages, events, hfront, hrun, hevents, hfind⟩ :=
    hkeyed.runAll_expired_front (List.append_nil _).symm
  rw [expiredMessages_eq] at hfront
  have hall : deletions = state.expiredIds serverTimeMs := by
    refine (List.map_injective_iff.mpr ?_ hfront).symm
    rintro ⟨_, _⟩ ⟨_, _⟩ heq
    cases heq
    rfl
  subst hall
  refine ⟨messages, events, hrun, hevents, fun k id ↦ ?_⟩
  rw [hfind k id]
  split
  · rfl
  · rename_i hkept
    cases hmessage : state.findMessage k id with
    | none => rfl
    | some message =>
        rw [Option.map_some, Message.settledAt, if_neg]
        intro hdue
        exact hkept (hkeyed.mem_expiredIds.mpr ⟨message, hmessage, hdue⟩)

theorem Keyed.find_expired_front (hkeyed : state.Keyed) {front back : List Command}
    (hexpired : MessagingService.expiredMessages state serverTimeMs = front ++ back)
    (k : ConversationId) (id : MessageId) :
    (Runs.run MessagingState.next state front).findMessage k id = state.findMessage k id ∨
      (Runs.run MessagingState.next state front).findMessage k id =
        (state.findMessage k id).map (Message.settledAt serverTimeMs) := by
  classical
  obtain ⟨_, messages, events, -, hrun, -, hfind⟩ := hkeyed.runAll_expired_front hexpired
  have hall := runAll_ok (congrArg Prod.snd hrun)
  rw [hrun] at hall
  rw [← hall, hfind k id]
  split
  · exact .inr rfl
  · exact .inl rfl

theorem Keyed.settled_eq (hkeyed : state.Keyed) (serverTimeMs : Int64) :
    (∃ messages, state.settled serverTimeMs = { state with messages }) ∧
      ∀ k id, (state.settled serverTimeMs).findMessage k id =
        (state.findMessage k id).map (Message.settledAt serverTimeMs) := by
  obtain ⟨messages, events, hrun, -, hfind⟩ := hkeyed.runAll_expired serverTimeMs
  have hsettled : state.settled serverTimeMs = { state with messages } := by
    have hok : (state.runAll (MessagingService.expiredMessages state serverTimeMs)).2 =
        .ok events := by rw [hrun]
    have hall := runAll_ok hok
    rw [hrun] at hall
    exact hall.symm
  exact ⟨⟨messages, hsettled⟩, fun k id ↦ by rw [hsettled, hfind k id]⟩

end MessagingState

end Fabushi.Messaging
