import Fabushi.Library.Bookmarks
import Fabushi.Messaging.RequestFrames
import Fabushi.Messaging.RetentionRuns

/-!
# Read cursors

Reading a message puts the cursor of the reader on it, wherever the cursor was. What is
unread are the messages behind the cursor in the order of their display. As long as no
reading goes back in that order, the cursor stays on the latest message that was read,
and nothing becomes unread again.
-/

namespace Fabushi.Messaging

open Effects MachineInt Result Std

variable {S B : Type}

/-! ## The order of display -/

def displayOrder (left right : Message) : Ordering :=
  (compare left.createdAtMs right.createdAtMs).then (compare left.id right.id)

instance : TransCmp displayOrder :=
  inferInstanceAs (TransCmp (compareLex (compareOn Message.createdAtMs) (compareOn Message.id)))

namespace Message

def before (left right : Message) : Bool :=
  displayOrder left right = .lt

def notAfter (left right : Message) : Bool :=
  (displayOrder left right).isLE

theorem displayOrder_self (message : Message) : displayOrder message message = .eq :=
  ReflCmp.compare_self

theorem before_self (message : Message) : message.before message = false := by
  rw [before, displayOrder_self]
  rfl

theorem before_asymm {a b : Message} (h : a.before b = true) : b.before a = false := by
  have hgt := OrientedCmp.gt_of_lt (of_decide_eq_true h)
  rw [before, hgt]
  rfl

theorem notAfter_total (a b : Message) : (a.notAfter b || b.notAfter a) = true := by
  rw [Bool.or_eq_true]
  cases h : displayOrder a b with
  | lt | eq => exact .inl (congrArg Ordering.isLE h)
  | gt => exact .inr (congrArg Ordering.isLE (OrientedCmp.lt_of_gt h))

theorem notAfter_trans {a b c : Message} (hab : a.notAfter b = true) (hbc : b.notAfter c = true) :
    a.notAfter c = true :=
  TransCmp.isLE_trans hab hbc

theorem before_of_notAfter {a b c : Message} (hab : a.notAfter b = true)
    (hbc : b.before c = true) : a.before c = true :=
  decide_eq_true (TransCmp.lt_of_isLE_of_lt hab (of_decide_eq_true hbc))

theorem id_of_notAfter {a b : Message} (hab : a.notAfter b = true) (hba : b.notAfter a = true) :
    a.id = b.id := by
  have heq := OrientedCmp.isLE_antisymm hab hba
  exact LawfulEqOrd.eq_of_compare (Ordering.then_eq_eq.mp heq).2

end Message

namespace MessagingState

variable {state : MessagingState} {k : ConversationId} {id : MessageId} {a : ActorId}
  {serverTimeMs : Int64}

theorem mem_orderedMessages {message : Message} :
    message ∈ state.orderedMessages k ↔ ∃ id, state.findMessage k id = some message := by
  unfold orderedMessages findMessage
  rw [List.mem_mergeSort]
  cases state.messages[k]? with
  | none => simp
  | some messages =>
      rw [Option.map_some, Option.getD_some, BTreeMap.mem_values]
      rfl

theorem Keyed.nodup_orderedMessages (hkeyed : state.Keyed) (k : ConversationId) :
    ((state.orderedMessages k).map Message.id).Nodup := by
  unfold orderedMessages
  rw [((List.mergeSort_perm _ _).map _).nodup_iff]
  cases hmessages : state.messages[k]? with
  | none => exact .nil
  | some messages =>
      rw [Option.map_some, Option.getD_some, BTreeMap.values_eq, List.map_map]
      have hids : messages.toList.map (Message.id ∘ Prod.snd) = messages.toList.map Prod.fst := by
        apply List.map_congr_left
        rintro ⟨id, message⟩ hmem
        refine (hkeyed k id message ?_).1
        rw [findMessage, hmessages]
        exact ExtTreeMap.mem_toList_iff_getElem?_eq_some.mp hmem
      rw [hids, List.Nodup, List.pairwise_map]
      refine (ExtTreeMap.distinct_keys_toList (t := messages)).imp ?_
      rintro a b hab heq
      rw [heq] at hab
      exact hab ReflCmp.compare_self

theorem Keyed.sorted_orderedMessages (hkeyed : state.Keyed) (k : ConversationId) :
    (state.orderedMessages k).Pairwise fun a b ↦ a.before b = true := by
  have hle : (state.orderedMessages k).Pairwise fun a b ↦ a.notAfter b = true :=
    @List.pairwise_mergeSort Message Message.notAfter (fun _ _ _ ↦ Message.notAfter_trans)
      Message.notAfter_total _
  have hne := List.pairwise_map.mp (hkeyed.nodup_orderedMessages k)
  refine (hle.and hne).imp ?_
  rintro a b ⟨hab, hid⟩
  rcases Ordering.isLE_iff_eq_lt_or_eq_eq.mp hab with hlt | heq
  · exact decide_eq_true hlt
  · exact absurd (LawfulEqOrd.eq_of_compare (Ordering.then_eq_eq.mp heq).2) hid

/-! ## Unread messages -/

def readMessage (state : MessagingState) (k : ConversationId) (a : ActorId) : Option Message :=
  (state.readCursor k a).bind fun id ↦ state.findMessage k id

def countsFor (a : ActorId) (serverTimeMs : Int64) (message : Message) : Bool :=
  message.isDueAt serverTimeMs && !message.deleted && message.senderId ≠ a

def unreadCount (state : MessagingState) (k : ConversationId) (a : ActorId)
    (serverTimeMs : Int64) : UInt32 :=
  countUnread (state.orderedMessages k) (state.readCursor k a) (countsFor a serverTimeMs)

def unreadMessages (state : MessagingState) (k : ConversationId) (a : ActorId)
    (serverTimeMs : Int64) : List Message :=
  (state.orderedMessages k).filter fun message ↦
    ((state.readMessage k a).all fun read ↦ read.before message) &&
      countsFor a serverTimeMs message

theorem Keyed.bookmarked (hkeyed : state.Keyed) (k : ConversationId)
    (cursor : Option MessageId) :
    Bookmarks.entry Message.id (state.orderedMessages k) cursor =
      cursor.bind fun id ↦ state.findMessage k id := by
  cases cursor with
  | none => rfl
  | some id =>
      simp only [Bookmarks.entry, Option.bind_some]
      cases hfind : (state.orderedMessages k).find? fun message ↦ message.id = id with
      | none =>
          cases hmessage : state.findMessage k id with
          | none => rfl
          | some message =>
              have hno := List.find?_eq_none.mp hfind message (mem_orderedMessages.mpr ⟨id, hmessage⟩)
              exact absurd (decide_eq_true (hkeyed k id message hmessage).1) hno
      | some message =>
          have hid : message.id = id := by simpa using List.find?_some hfind
          obtain ⟨id', hmessage⟩ := mem_orderedMessages.mp (List.mem_of_find?_eq_some hfind)
          rw [← hid, (hkeyed k id' message hmessage).1, hmessage]

theorem Keyed.unreadCount_eq (hkeyed : state.Keyed) (k : ConversationId) (a : ActorId)
    (serverTimeMs : Int64) : state.unreadCount k a serverTimeMs =
      saturatingU32 (state.unreadMessages k a serverTimeMs).length := by
  have hcount := Bookmarks.length_filter_behind Message.before_self
    (fun _ _ ↦ Message.before_asymm) (hkeyed.sorted_orderedMessages k) Message.id
    (state.readCursor k a) (countsFor a serverTimeMs)
  rw [hkeyed.bookmarked] at hcount
  exact congrArg saturatingU32 hcount

theorem unreadCount_le {state' : MessagingState} (hkeyed : state.Keyed) (hkeyed' : state'.Keyed)
    (h : ∀ message' ∈ state'.unreadMessages k a serverTimeMs,
      ∃ message ∈ state.unreadMessages k a serverTimeMs, message.id = message'.id) :
    state'.unreadCount k a serverTimeMs ≤ state.unreadCount k a serverTimeMs := by
  rw [hkeyed.unreadCount_eq, hkeyed'.unreadCount_eq]
  apply saturatingU32_mono
  have hnodup : ((state'.unreadMessages k a serverTimeMs).map Message.id).Nodup :=
    (hkeyed'.nodup_orderedMessages k).sublist (List.filter_sublist.map _)
  have hsubset : (state'.unreadMessages k a serverTimeMs).map Message.id ⊆
      (state.unreadMessages k a serverTimeMs).map Message.id := by
    intro id hid
    obtain ⟨message', hmessage', rfl⟩ := List.mem_map.mp hid
    obtain ⟨message, hmessage, hsame⟩ := h message' hmessage'
    exact List.mem_map.mpr ⟨message, hmessage, hsame⟩
  simpa using (hnodup.subperm hsubset).length_le

end MessagingState

/-! ## Messages that stay where they are -/

/-- The message is displayed at the same place, and is not less deleted than before. -/
structure Message.Stays (old new : Message) : Prop where
  id : new.id = old.id
  createdAtMs : new.createdAtMs = old.createdAtMs
  keeps : old.Keeps new

theorem Message.Stays.refl (message : Message) : message.Stays message :=
  ⟨rfl, rfl, .refl message⟩

theorem Message.Stays.trans {a b c : Message} (hab : a.Stays b) (hbc : b.Stays c) : a.Stays c :=
  ⟨hbc.id.trans hab.id, hbc.createdAtMs.trans hab.createdAtMs, hab.keeps.trans hbc.keeps⟩

theorem displayOrder_of_stays {a b a' b' : Message} (ha : a.Stays a') (hb : b.Stays b') :
    displayOrder a' b' = displayOrder a b := by
  unfold displayOrder
  rw [ha.id, ha.createdAtMs, hb.id, hb.createdAtMs]

theorem Message.Stays.countsFor {old new : Message} (h : old.Stays new) {a : ActorId}
    {serverTimeMs : Int64} (hcounts : MessagingState.countsFor a serverTimeMs new = true) :
    MessagingState.countsFor a serverTimeMs old = true := by
  unfold MessagingState.countsFor Message.isDueAt at hcounts ⊢
  rw [h.keeps.senderId, h.keeps.scheduledAtMs] at hcounts
  have hdeleted := h.keeps.deleted
  revert hcounts hdeleted
  cases old.deleted <;> cases new.deleted <;> simp

/-- The command neither adds a message nor changes its time. -/
structure Command.Quiet (command : Command) : Prop where
  inPlace : command.InPlace
  queued : command.queuedAtMs = none
  accepted : command.acceptedAtMs = none

namespace MessagingState

variable {state state' : MessagingState} {k : ConversationId} {id : MessageId} {a : ActorId}

def KeepsPlaces (state state' : MessagingState) : Prop :=
  ∀ k id, Option.Rel Message.Stays (state.findMessage k id) (state'.findMessage k id)

theorem keepsPlaces_refl (state : MessagingState) : state.KeepsPlaces state := by
  intro k id
  cases state.findMessage k id with
  | none => exact .none
  | some message => exact .some (.refl message)

theorem KeepsPlaces.trans {state'' : MessagingState} (h : state.KeepsPlaces state')
    (h' : state'.KeepsPlaces state'') : state.KeepsPlaces state'' := by
  intro k id
  have hfirst := h k id
  have hsecond := h' k id
  generalize state.findMessage k id = old at hfirst ⊢
  generalize state'.findMessage k id = middle at hfirst hsecond
  generalize state''.findMessage k id = new at hsecond ⊢
  cases hfirst with
  | none => exact hsecond
  | some hstays =>
      cases hsecond with
      | some hstays' => exact .some (hstays.trans hstays')

theorem KeepsPlaces.find (h : state.KeepsPlaces state') {message : Message}
    (hmessage : state.findMessage k id = some message) :
    ∃ message', state'.findMessage k id = some message' ∧ message.Stays message' := by
  have hrel := h k id
  rw [hmessage] at hrel
  generalize state'.findMessage k id = new at hrel ⊢
  cases hrel with
  | some hstays => exact ⟨_, rfl, hstays⟩

theorem KeepsPlaces.find_back (h : state.KeepsPlaces state') {message' : Message}
    (hmessage : state'.findMessage k id = some message') :
    ∃ message, state.findMessage k id = some message ∧ message.Stays message' := by
  have hrel := h k id
  rw [hmessage] at hrel
  generalize state.findMessage k id = old at hrel ⊢
  cases hrel with
  | some hstays => exact ⟨_, rfl, hstays⟩

theorem Keyed.keepsPlaces_next (hkeyed : state.Keyed) {c : Command} (hquiet : c.Quiet) :
    state.KeepsPlaces (state.next c) := by
  intro k id
  have hnext := nextMessage state hquiet.inPlace k id
  generalize hold : state.findMessage k id = old at hnext ⊢
  generalize (state.next c).findMessage k id = new at hnext ⊢
  cases hnext with
  | same =>
      cases old with
      | none => exact .none
      | some message => exact .some (.refl message)
  | @rewritten old new _ hid hkeeps _ hcreated =>
      have hown := (hkeyed k id old hold).1
      refine .some ⟨(hid hown).trans hown.symm, ?_, hkeeps⟩
      rcases hcreated with hsame | haccepted
      · exact hsame
      · cases hquiet.accepted.symm.trans haccepted
  | queued _ _ _ hqueues => cases hquiet.queued.symm.trans hqueues.created

theorem Keyed.keepsPlaces_run (hkeyed : state.Keyed) {commands : List Command}
    (hquiet : ∀ c ∈ commands, c.Quiet) :
    state.KeepsPlaces (Runs.run MessagingState.next state commands) := by
  induction commands generalizing state with
  | nil => exact keepsPlaces_refl state
  | cons c commands ih =>
      have hc := hquiet c List.mem_cons_self
      refine (hkeyed.keepsPlaces_next hc).trans ?_
      exact ih (hkeyed.next hc.inPlace) fun c' hc' ↦ hquiet c' (List.mem_cons_of_mem _ hc')

/-! ## What reading does to the cursors -/

theorem readCursor_applyConversationRead (state : MessagingState) (conversationId k : ConversationId)
    (actorId a : ActorId) (messageId : MessageId) :
    (state.applyConversationRead conversationId actorId messageId).readCursor k a =
      if conversationId = k ∧ actorId = a then some messageId else state.readCursor k a := by
  unfold readCursor applyConversationRead
  rw [BTreeMap.get_upsert]
  by_cases hk : conversationId = k
  · subst hk
    simp only [if_true, Option.bind_some, true_and]
    rw [BTreeMap.get_insert]
    split
    · rfl
    · cases state.readCursors[conversationId]? with
      | none => simp
      | some cursors => rfl
  · rw [if_neg hk, if_neg fun h ↦ hk h.1]

end MessagingState

def EventTag.isCursor : EventTag → Bool
  | .conversationRead | .conversationParticipantRemoved => true
  | _ => false

namespace MessagingState

variable {state state' : MessagingState} {k : ConversationId} {id : MessageId} {a : ActorId}

theorem readCursors_apply (state : MessagingState) (event : Event)
    (h : event.tag.isCursor = false) : (state.apply event).readCursors = state.readCursors := by
  cases event
  case conversationRead | conversationParticipantRemoved => cases h
  all_goals rfl

theorem readCursor_of_readCursors (h : state'.readCursors = state.readCursors)
    (k : ConversationId) (a : ActorId) : state'.readCursor k a = state.readCursor k a := by
  unfold readCursor
  rw [h]

/-! ## Cursors are on stored messages -/

def CursorsStored (state : MessagingState) : Prop :=
  ∀ k a id, state.readCursor k a = some id → (state.findMessage k id).isSome = true

theorem cursorsStored_empty : CursorsStored {} := by
  intro k a id h
  simp [readCursor] at h

theorem readCursor_apply {event : Event} (h : (state.apply event).readCursor k a = some id) :
    state.readCursor k a = some id ∨ event = .conversationRead k a id := by
  cases event
  case conversationRead conversationId actorId messageId =>
    rw [apply, readCursor_applyConversationRead] at h
    split at h
    · rename_i hplace
      obtain ⟨rfl, rfl⟩ := hplace
      exact .inr (congrArg _ (Option.some.inj h))
    · exact .inl h
  case conversationParticipantRemoved conversationId actorId =>
    left
    change ((BTreeMap.update state.readCursors conversationId fun cursors ↦
      cursors.erase actorId)[k]?.bind fun cursors ↦ cursors[a]?) = some id at h
    obtain ⟨cursors, hcursors, hcursor⟩ := Option.bind_eq_some_iff.mp h
    rw [BTreeMap.get_update] at hcursors
    unfold readCursor
    split at hcursors
    · rename_i hk
      subst hk
      obtain ⟨old, hold, rfl⟩ := Option.map_eq_some_iff.mp hcursors
      rw [BTreeMap.get_erase] at hcursor
      split at hcursor
      · cases hcursor
      · rw [hold]
        exact hcursor
    · rw [hcursors]
      exact hcursor
  all_goals exact .inl h

theorem readCursor_applyAll {events : List Event}
    (h : (state.applyAll events).readCursor k a = some id) :
    state.readCursor k a = some id ∨ .conversationRead k a id ∈ events := by
  induction events generalizing state with
  | nil => exact .inl h
  | cons event events ih =>
      rw [applyAll, List.foldl_cons] at h
      rcases ih h with hcursor | hevent
      · rcases readCursor_apply hcursor with hold | rfl
        · exact .inl hold
        · exact .inr List.mem_cons_self
      · exact .inr (List.mem_cons_of_mem _ hevent)

theorem markRead_of_eventTags {c : Command}
    (h : c.eventTags.contains .conversationRead = true) : ∃ k a id, c = .markRead k a id := by
  cases c <;> first | exact ⟨_, _, _, rfl⟩ | cases h

theorem decide_markRead {events : List Event} (h : state.decide (.markRead k a id) = .ok events) :
    events = [.conversationRead k a id] ∧ (state.findMessage k id).isSome = true := by
  obtain ⟨_, -, h⟩ := bind_eq_ok.mp h
  obtain ⟨_, -, h⟩ := bind_eq_ok.mp h
  obtain ⟨_, -, h⟩ := bind_eq_ok.mp h
  obtain ⟨_, hmessage, h⟩ := bind_eq_ok.mp h
  refine ⟨(Except.ok.inj h).symm, ?_⟩
  rw [okOr_eq_ok.mp hmessage]
  rfl

theorem isSome_next {c : Command} (hplace : c.InPlace)
    (h : (state.findMessage k id).isSome = true) :
    ((state.next c).findMessage k id).isSome = true := by
  have hnext := nextMessage state hplace k id
  generalize state.findMessage k id = old at h hnext
  generalize (state.next c).findMessage k id = new at hnext ⊢
  cases hnext with
  | same => exact h
  | rewritten | queued => rfl

theorem CursorsStored.next (hstored : state.CursorsStored) {c : Command} (hplace : c.InPlace) :
    (state.next c).CursorsStored := by
  intro k a id hcursor
  apply isSome_next hplace
  unfold MessagingState.next execute at hcursor
  cases hdecide : state.decide c with
  | error e =>
      rw [hdecide] at hcursor
      exact hstored k a id hcursor
  | ok events =>
      rw [hdecide] at hcursor
      rcases readCursor_applyAll hcursor with hold | hevent
      · exact hstored k a id hold
      · have hwithin := state.decide_eventTags c
        rw [hdecide] at hwithin
        obtain ⟨k', a', id', rfl⟩ := markRead_of_eventTags
          (List.contains_iff_mem.mpr (hwithin _ hevent))
        obtain ⟨rfl, hmessage⟩ := decide_markRead hdecide
        cases List.mem_singleton.mp hevent
        exact hmessage

theorem CursorsStored.run (hstored : state.CursorsStored) {commands : List Command}
    (hplace : ∀ c ∈ commands, c.InPlace) :
    (Runs.run MessagingState.next state commands).CursorsStored := by
  induction commands generalizing state with
  | nil => exact hstored
  | cons c commands ih =>
      exact ih (hstored.next (hplace c List.mem_cons_self)) fun c' hc' ↦
        hplace c' (List.mem_cons_of_mem _ hc')

/-! ## A request to mark a message as read -/

variable {env : ServiceEnv} {actorId : ActorId} {serverTimeMs : Int64}

theorem readCursor_next_markRead {events : List Event} {conversationId : ConversationId}
    {messageId : MessageId}
    (hdecide : state.decide (.markRead conversationId actorId messageId) = .ok events)
    (k : ConversationId) (a : ActorId) :
    (state.next (.markRead conversationId actorId messageId)).readCursor k a =
      if conversationId = k ∧ actorId = a then some messageId else state.readCursor k a := by
  unfold MessagingState.next execute
  rw [hdecide, (decide_markRead hdecide).1]
  exact readCursor_applyConversationRead state conversationId k actorId a messageId

theorem quiet_expired {c : Command}
    (hc : c ∈ MessagingService.expiredMessages state serverTimeMs) :
    c.Quiet ∧ ∀ tag ∈ c.eventTags, tag.isCursor = false := by
  obtain ⟨_, _, -, rfl⟩ := expired_cases hc
  refine ⟨⟨trivial, rfl, rfl⟩, fun tag htag ↦ ?_⟩
  obtain rfl := List.mem_singleton.mp htag
  rfl

/-- What a request to mark a message as read does: no message moves, and at most the
cursor of the reader is put on the message. -/
structure ReadBy (env : ServiceEnv) (actorId : ActorId) (serverTimeMs : Int64)
    (conversationId : ConversationId) (messageId : MessageId) (before after : MessagingState) :
    Prop where
  places : before.KeepsPlaces after
  cursors : (∀ k a, after.readCursor k a = before.readCursor k a) ∨
    (before.validateCommandAuthorization actorId (.markRead conversationId messageId) = .ok () ∧
      ((before.settled serverTimeMs).decide
        (.markRead conversationId actorId messageId)).isOk = true ∧
      ∀ k a, after.readCursor k a =
        if conversationId = k ∧ actorId = a then some messageId else before.readCursor k a)

theorem Keyed.still_run (hkeyed : state.Keyed) (commands : List Command)
    (hstill : ∀ c ∈ commands, c.Quiet ∧ ∀ tag ∈ c.eventTags, tag.isCursor = false) :
    state.KeepsPlaces (Runs.run MessagingState.next state commands) ∧
      ∀ k a, (Runs.run MessagingState.next state commands).readCursor k a =
        state.readCursor k a := by
  constructor
  · exact hkeyed.keepsPlaces_run fun c hc ↦ (hstill c hc).1
  · apply readCursor_of_readCursors
    exact frame_run (p := MessagingState.readCursors) readCursors_apply
      (fun c hc ↦ (hstill c hc).2) state

theorem projectMarkRead_cases (state : MessagingState) (actorId : ActorId)
    (conversationId : ConversationId) (messageId : MessageId) :
    ∃ rest, state.projectMarkRead actorId conversationId messageId =
        .markRead conversationId actorId messageId :: rest ∧
      ∀ c ∈ rest, c.Quiet ∧ ∀ tag ∈ c.eventTags, tag.isCursor = false := by
  refine ⟨_, rfl, fun c hc ↦ ?_⟩
  split at hc
  · obtain rfl := List.mem_singleton.mp hc
    refine ⟨⟨trivial, rfl, rfl⟩, fun tag htag ↦ ?_⟩
    obtain rfl := List.mem_singleton.mp htag
    rfl
  · cases hc

theorem Served.readBy {before after : MessagingState} {conversationId : ConversationId}
    {messageId : MessageId}
    (h : Served env actorId serverTimeMs (.markRead conversationId messageId) before after)
    (hkeyed : before.Keyed) :
    ReadBy env actorId serverTimeMs conversationId messageId before after := by
  have hstill : ∀ c ∈ MessagingService.expiredMessages before serverTimeMs,
      c.Quiet ∧ ∀ tag ∈ c.eventTags, tag.isCursor = false := fun c hc ↦ quiet_expired hc
  cases h with
  | refused => exact ⟨keepsPlaces_refl before, .inl fun _ _ ↦ rfl⟩
  | settling front back hexpired =>
      rw [hexpired] at hstill
      obtain ⟨hplaces, hcursors⟩ := hkeyed.still_run front
        fun c hc ↦ hstill c (List.mem_append_left back hc)
      exact ⟨hplaces, .inl hcursors⟩
  | @working hauthorized commands hwork front back hcommands haccepted =>
      have hplaces : before.KeepsPlaces (before.settled serverTimeMs) :=
        (hkeyed.still_run _ hstill).1
      have hcursors : ∀ k a, (before.settled serverTimeMs).readCursor k a =
          before.readCursor k a := (hkeyed.still_run _ hstill).2
      have hsettled : (before.settled serverTimeMs).Keyed :=
        hkeyed.run fun c hc ↦ (hstill c hc).1.inPlace
      cases front with
      | nil => exact ⟨hplaces, .inl hcursors⟩
      | cons first rest =>
          cases hwork with
          | delivered hsync => cases hsync
          | projected =>
              obtain ⟨all, hproject, hdelivery⟩ := (before.settled serverTimeMs).projectMarkRead_cases
                actorId conversationId messageId
              obtain ⟨rfl, rfl⟩ := List.cons.inj (hproject.symm.trans hcommands)
              obtain ⟨⟨events, hdecide⟩, -⟩ := haccepted
              have hquiet : (Command.markRead conversationId actorId messageId).Quiet :=
                ⟨trivial, rfl, rfl⟩
              obtain ⟨hplaces', hcursors'⟩ := (hsettled.next hquiet.inPlace).still_run rest
                fun c hc ↦ hdelivery c (List.mem_append_left back hc)
              rw [Runs.run_cons]
              refine ⟨(hplaces.trans (hsettled.keepsPlaces_next hquiet)).trans hplaces', .inr ?_⟩
              refine ⟨hauthorized, by rw [hdecide]; rfl, fun k a ↦ ?_⟩
              rw [hcursors', readCursor_next_markRead hdecide, hcursors]

/-! ## The latest of the marked messages -/

def NotAfter (state : MessagingState) (k : ConversationId) (id id' : MessageId) : Prop :=
  ∃ message ∈ state.findMessage k id, ∃ message' ∈ state.findMessage k id',
    message.notAfter message' = true

theorem NotAfter.trans {id' id'' : MessageId} (h : state.NotAfter k id id')
    (h' : state.NotAfter k id' id'') : state.NotAfter k id id'' := by
  obtain ⟨first, hfirst, second, hsecond, horder⟩ := h
  obtain ⟨second', hsecond', third, hthird, horder'⟩ := h'
  obtain rfl := Option.some.inj (hsecond.symm.trans hsecond')
  exact ⟨first, hfirst, third, hthird, Message.notAfter_trans horder horder'⟩

theorem NotAfter.self (h : (state.findMessage k id).isSome = true) : state.NotAfter k id id := by
  obtain ⟨message, hmessage⟩ := Option.isSome_iff_exists.mp h
  refine ⟨message, hmessage, message, hmessage, ?_⟩
  rw [Message.notAfter, Message.displayOrder_self]
  rfl

theorem KeepsPlaces.notAfter (h : state.KeepsPlaces state') {id' : MessageId} :
    state'.NotAfter k id id' ↔ state.NotAfter k id id' := by
  constructor
  · rintro ⟨new, hnew, new', hnew', horder⟩
    obtain ⟨old, hold, hstays⟩ := h.find_back hnew
    obtain ⟨old', hold', hstays'⟩ := h.find_back hnew'
    refine ⟨old, hold, old', hold', ?_⟩
    rwa [Message.notAfter, displayOrder_of_stays hstays hstays'] at horder
  · rintro ⟨old, hold, old', hold', horder⟩
    obtain ⟨new, hnew, hstays⟩ := h.find hold
    obtain ⟨new', hnew', hstays'⟩ := h.find hold'
    refine ⟨new, hnew, new', hnew', ?_⟩
    rwa [Message.notAfter, displayOrder_of_stays hstays hstays']

def LatestOf (state : MessagingState) (k : ConversationId) (ids : List MessageId)
    (cursor : Option MessageId) : Prop :=
  (ids = [] ∧ cursor = none) ∨
    ∃ id ∈ ids, cursor = some id ∧ ∀ other ∈ ids, state.NotAfter k other id

theorem LatestOf.of_mem_iff {ids ids' : List MessageId} {cursor : Option MessageId}
    (h : state.LatestOf k ids cursor) (hids : ∀ id, id ∈ ids ↔ id ∈ ids') :
    state.LatestOf k ids' cursor := by
  rcases h with ⟨rfl, hcursor⟩ | ⟨id, hmem, hcursor, hlatest⟩
  · refine .inl ⟨List.eq_nil_iff_forall_not_mem.mpr fun id hid ↦ ?_, hcursor⟩
    exact List.not_mem_nil ((hids id).mpr hid)
  · exact .inr ⟨id, (hids id).mp hmem, hcursor, fun other hother ↦
      hlatest other ((hids other).mpr hother)⟩

theorem LatestOf.of_places {ids : List MessageId} {cursor : Option MessageId}
    (h : state'.LatestOf k ids cursor) (hplaces : state.KeepsPlaces state') :
    state.LatestOf k ids cursor := by
  rcases h with hnone | ⟨id, hmem, hcursor, hlatest⟩
  · exact .inl hnone
  · exact .inr ⟨id, hmem, hcursor, fun other hother ↦ hplaces.notAfter.mp (hlatest other hother)⟩

theorem LatestOf.unique (hkeyed : state.Keyed) {ids ids' : List MessageId}
    {cursor cursor' : Option MessageId} (h : state.LatestOf k ids cursor)
    (h' : state.LatestOf k ids' cursor') (hids : ∀ id, id ∈ ids ↔ id ∈ ids') :
    cursor = cursor' := by
  have hsame := h'.of_mem_iff fun id ↦ (hids id).symm
  rcases h with ⟨rfl, rfl⟩ | ⟨id, hmem, rfl, hlatest⟩
  · rcases hsame with ⟨-, rfl⟩ | ⟨id, hmem, -⟩
    · rfl
    · cases hmem
  · rcases hsame with ⟨rfl, -⟩ | ⟨id', hmem', rfl, hlatest'⟩
    · cases hmem
    · obtain ⟨message', hmessage', message, hmessage, horder⟩ := hlatest id' hmem'
      obtain ⟨other, hother, other', hother', horder'⟩ := hlatest' id hmem
      obtain rfl := Option.some.inj (hmessage.symm.trans hother)
      obtain rfl := Option.some.inj (hmessage'.symm.trans hother')
      have hid := Message.id_of_notAfter horder' horder
      rw [(hkeyed k id message hmessage).1, (hkeyed k id' message' hmessage').1] at hid
      rw [hid]

theorem LatestOf.cons {ids : List MessageId} {cursor : Option MessageId}
    (h : state.LatestOf k (id :: ids) cursor) {old : MessageId} (hold : state.NotAfter k old id) :
    state.LatestOf k (old :: id :: ids) cursor := by
  rcases h with ⟨hnil, -⟩ | ⟨latest, hmem, hcursor, hlatest⟩
  · cases hnil
  · refine .inr ⟨latest, List.mem_cons_of_mem old hmem, hcursor, fun other hother ↦ ?_⟩
    rcases List.mem_cons.mp hother with rfl | hother
    · exact hold.trans (hlatest id List.mem_cons_self)
    · exact hlatest other hother

end MessagingState

/-! ## Runs of the service -/

def ClientCommand.readMark : ClientCommand → Option (ConversationId × MessageId)
  | .markRead conversationId messageId => some (conversationId, messageId)
  | _ => none

theorem ClientCommand.markRead_of_readMark {command : ClientCommand} {k : ConversationId}
    {id : MessageId} (h : command.readMark = some (k, id)) : command = .markRead k id := by
  cases command
  case markRead =>
    cases h
    rfl
  all_goals cases h

def ServiceInput.readMark : ServiceInput → Option (ConversationId × MessageId)
  | .handle request _ => request.command.readMark
  | .settle .. => none

namespace MessagingService

open MessagingState

def ReadsForward (s : MessagingService S B) : ServiceInput → Prop
  | .settle .. => True
  | .handle request serverTimeMs => request.protocolVersion = protocolVersion →
      (s.engine.validateCommandAuthorization request.context.actorId request.command).isOk = true →
        ∀ mark ∈ request.command.readMark,
          ((s.engine.settled serverTimeMs).decide
            (.markRead mark.1 request.context.actorId mark.2)).isOk = true →
            ∀ read ∈ s.engine.readMessage mark.1 request.context.actorId,
              ∀ marked ∈ s.engine.findMessage mark.1 mark.2, read.notAfter marked = true

instance (s : MessagingService S B) (input : ServiceInput) : Decidable (s.ReadsForward input) :=
  match input with
  | .settle .. => inferInstanceAs (Decidable True)
  | .handle request _ => inferInstanceAs (Decidable (_ → _ → ∀ mark ∈ request.command.readMark, _))

variable [MessagingStateStore S] [BlobStore B] {env : ServiceEnv} {store : S}
  {blobStore : Option B} {s : MessagingService S B} {input : ServiceInput} {k : ConversationId}
  {a : ActorId}

/-- What a reading does to the engine, when readings do not go back. -/
structure ReadsOn (before after : MessagingState) (input : ServiceInput) : Prop where
  places : before.KeepsPlaces after
  cursors : (∀ k a, after.readCursor k a = before.readCursor k a) ∨
    ∃ conversationId messageId actorId, input.actorId = some actorId ∧
      input.readMark = some (conversationId, messageId) ∧
      (∀ old, before.readCursor conversationId actorId = some old →
        before.NotAfter conversationId old messageId) ∧
      (∀ k a, after.readCursor k a =
        if conversationId = k ∧ actorId = a then some messageId else before.readCursor k a)

theorem readsOn_next (env : ServiceEnv) (hkeyed : s.engine.Keyed) (hstored : s.engine.CursorsStored)
    (hread : input.readMark.isSome = true) (hforward : s.ReadsForward input) :
    ReadsOn s.engine (next env s input).engine input := by
  cases input with
  | settle => cases hread
  | handle request serverTimeMs =>
      by_cases hversion : request.protocolVersion = protocolVersion
      · obtain ⟨⟨conversationId, messageId⟩, hmark⟩ := Option.isSome_iff_exists.mp hread
        have hcommand : request.command = .markRead conversationId messageId :=
          ClientCommand.markRead_of_readMark hmark
        have hserved := served_handle env request serverTimeMs s
        rw [hcommand] at hserved
        obtain ⟨hplaces, hcursors⟩ := hserved.readBy hkeyed
        refine ⟨hplaces, ?_⟩
        rcases hcursors with hsame | ⟨hauthorized, haccepted, hmoved⟩
        · exact .inl hsame
        · right
          refine ⟨conversationId, messageId, request.context.actorId, rfl, hmark,
            fun old hold ↦ ?_, hmoved⟩
          have hbehind := hforward hversion (by rw [hcommand, hauthorized]; rfl)
            (conversationId, messageId) hmark haccepted
          have hmarked : ((s.engine.settled serverTimeMs).findMessage conversationId
              messageId).isSome = true := by
            cases hdecide : (s.engine.settled serverTimeMs).decide
                (.markRead conversationId request.context.actorId messageId) with
            | error e =>
                rw [hdecide] at haccepted
                cases haccepted
            | ok events => exact (decide_markRead hdecide).2
          rw [(hkeyed.settled_eq serverTimeMs).2, Option.isSome_map] at hmarked
          obtain ⟨marked, hmarked⟩ := Option.isSome_iff_exists.mp hmarked
          obtain ⟨read, hread⟩ := Option.isSome_iff_exists.mp
            (hstored conversationId request.context.actorId old hold)
          have hcursor : read ∈ s.engine.readMessage conversationId request.context.actorId := by
            rw [readMessage, hold]
            exact hread
          exact ⟨read, hread, marked, hmarked, hbehind read hcursor marked hmarked⟩
      · rw [next, handle, if_pos hversion]
        exact ⟨keepsPlaces_refl _, .inl fun _ _ ↦ rfl⟩

theorem unreadCount_readsOn {before after : MessagingState} (hkeyed : before.Keyed)
    (hkeyed' : after.Keyed) (h : ReadsOn before after input) (k : ConversationId) (a : ActorId)
    (serverTimeMs : Int64) :
    after.unreadCount k a serverTimeMs ≤ before.unreadCount k a serverTimeMs := by
  apply unreadCount_le hkeyed hkeyed'
  intro message' hmessage'
  obtain ⟨hstored, hunread⟩ := List.mem_filter.mp hmessage'
  rw [Bool.and_eq_true] at hunread
  obtain ⟨id, hfind'⟩ := mem_orderedMessages.mp hstored
  obtain ⟨message, hfind, hstays⟩ := h.places.find_back hfind'
  refine ⟨message, List.mem_filter.mpr ⟨mem_orderedMessages.mpr ⟨id, hfind⟩, ?_⟩, hstays.id.symm⟩
  rw [Bool.and_eq_true]
  refine ⟨?_, hstays.countsFor hunread.2⟩
  rw [Option.all_eq_true]
  intro read hread
  obtain ⟨old, hold, hreadMessage⟩ := Option.bind_eq_some_iff.mp hread
  -- the cursor has stayed, or it has moved on from `old`
  have hcursor : ∃ new, after.readCursor k a = some new ∧ before.NotAfter k old new := by
    have hself : before.NotAfter k old old := .self (by rw [hreadMessage]; rfl)
    rcases h.cursors with hsame | ⟨conversationId, messageId, actorId, -, -, hforward, hmoved⟩
    · exact ⟨old, (hsame k a).trans hold, hself⟩
    · rw [hmoved]
      split
      · rename_i hplace
        obtain ⟨rfl, rfl⟩ := hplace
        exact ⟨messageId, rfl, hforward old hold⟩
      · exact ⟨old, hold, hself⟩
  obtain ⟨new, hnew, read₁, hread₁, marked, hmarked, horder⟩ := hcursor
  obtain rfl := Option.some.inj (hreadMessage.symm.trans hread₁)
  obtain ⟨marked', hmarked', hmarkedStays⟩ := h.places.find hmarked
  have hbefore : marked'.before message' = true := by
    refine (Option.all_eq_true _ _).mp hunread.1 marked' ?_
    rw [readMessage, hnew]
    exact hmarked'
  rw [Message.before, displayOrder_of_stays hmarkedStays hstays] at hbefore
  exact Message.before_of_notAfter horder hbefore

def markOf (env : ServiceEnv) (k : ConversationId) (a : ActorId) (s : MessagingService S B)
    (input : ServiceInput) : Option MessageId :=
  input.readMark.bind fun (conversationId, messageId) ↦
    if input.actorId = some a ∧ conversationId = k ∧
        (next env s input).engine.readCursor k a = some messageId then some messageId
    else none

def marksOf (env : ServiceEnv) (k : ConversationId) (a : ActorId) :
    MessagingService S B → List ServiceInput → List MessageId
  | _, [] => []
  | s, input :: inputs => (markOf env k a s input).toList ++ marksOf env k a (next env s input) inputs

theorem cursor_of_markOf {id : MessageId} (h : markOf env k a s input = some id) :
    (next env s input).engine.readCursor k a = some id := by
  obtain ⟨⟨conversationId, messageId⟩, -, h⟩ := Option.bind_eq_some_iff.mp h
  rw [Option.ite_none_right_eq_some] at h
  obtain ⟨⟨-, -, hcursor⟩, hid⟩ := h
  rwa [← hid]

theorem cursorsStored_next (env : ServiceEnv) {s : MessagingService S B}
    (hstored : s.engine.CursorsStored) (input : ServiceInput) :
    (next env s input).engine.CursorsStored := by
  obtain ⟨commands, hrun, hplace⟩ := engine_next env s input
  rw [hrun]
  exact hstored.run hplace

theorem keepsPlaces_reads (hkeyed : s.engine.Keyed) (hstored : s.engine.CursorsStored)
    {reads : List ServiceInput} (hreads : ∀ input ∈ reads, input.readMark.isSome = true)
    (hforward : Runs.Along (next env) ReadsForward s reads) :
    s.engine.KeepsPlaces (Runs.run (next env) s reads).engine := by
  induction reads generalizing s with
  | nil => exact keepsPlaces_refl _
  | cons input reads ih =>
      have hon := readsOn_next env hkeyed hstored (hreads input List.mem_cons_self) hforward.1
      refine hon.places.trans ?_
      exact ih (keyed_next env hkeyed input) (cursorsStored_next env hstored input)
        (fun i hi ↦ hreads i (List.mem_cons_of_mem _ hi)) hforward.2

theorem latestOf_reads (hkeyed : s.engine.Keyed) (hstored : s.engine.CursorsStored)
    {reads : List ServiceInput} (hreads : ∀ input ∈ reads, input.readMark.isSome = true)
    (hforward : Runs.Along (next env) ReadsForward s reads) (k : ConversationId) (a : ActorId) :
    (Runs.run (next env) s reads).engine.LatestOf k
      ((s.engine.readCursor k a).toList ++ marksOf env k a s reads)
      ((Runs.run (next env) s reads).engine.readCursor k a) := by
  induction reads generalizing s with
  | nil =>
      rw [marksOf, List.append_nil]
      change s.engine.LatestOf k _ (s.engine.readCursor k a)
      cases hcursor : s.engine.readCursor k a with
      | none => exact .inl ⟨rfl, rfl⟩
      | some id =>
          refine .inr ⟨id, List.mem_singleton_self id, rfl, fun other hother ↦ ?_⟩
          obtain rfl := List.mem_singleton.mp hother
          exact .self (hstored k a other hcursor)
  | cons input reads ih =>
      have hread := hreads input List.mem_cons_self
      have hon := readsOn_next env hkeyed hstored hread hforward.1
      have hkeyed' := keyed_next env hkeyed input
      have hstored' := cursorsStored_next env hstored input
      have hreads' : ∀ i ∈ reads, i.readMark.isSome = true :=
        fun i hi ↦ hreads i (List.mem_cons_of_mem _ hi)
      have hplaces := keepsPlaces_reads hkeyed' hstored' hreads' hforward.2
      have hlatest := ih hkeyed' hstored' hreads' hforward.2
      rw [Runs.run_cons, marksOf]
      by_cases hsame : (next env s input).engine.readCursor k a = s.engine.readCursor k a
      · rw [hsame] at hlatest
        refine hlatest.of_mem_iff fun id ↦ ?_
        simp only [List.mem_append, Option.mem_toList]
        constructor
        · rintro (hcursor | hmem)
          · exact .inl hcursor
          · exact .inr (.inr hmem)
        · rintro (hcursor | hmem | hmem)
          · exact .inl hcursor
          · exact .inl (hsame.symm.trans (cursor_of_markOf hmem))
          · exact .inr hmem
      · rcases hon.cursors with hall | ⟨conversationId, messageId, actorId, hactor, hmark, hbehind,
          hmoved⟩
        · exact absurd (hall k a) hsame
        have hplace : conversationId = k ∧ actorId = a := by
          by_contra hplace
          exact hsame ((hmoved k a).trans (if_neg hplace))
        obtain ⟨rfl, rfl⟩ := hplace
        have hcursor := hmoved conversationId actorId
        rw [if_pos ⟨rfl, rfl⟩] at hcursor
        have hmarked : markOf env conversationId actorId s input = some messageId := by
          rw [markOf, hmark]
          exact if_pos ⟨hactor, rfl, hcursor⟩
        rw [hcursor] at hlatest
        rw [hmarked]
        cases hold : s.engine.readCursor conversationId actorId with
        | none => exact hlatest
        | some old =>
            exact hlatest.cons ((hon.places.trans hplaces).notAfter.mpr (hbehind old hold))

theorem readCursor_of_answered {request : ClientEnvelope} {serverTimeMs : Int64}
    {out : List ServerEnvelope} {messageId : MessageId}
    (h : result (handle env request serverTimeMs) s = .ok out)
    (hcommand : request.command = .markRead k messageId) :
    (after (handle env request serverTimeMs) s).engine.readCursor k request.context.actorId =
      some messageId := by
  obtain ⟨-, -, s₁, -, hresult, hafter⟩ := answered_handle h
  rw [hcommand] at hresult hafter
  have hreplay : s₁.idempotentSendReplay env request.context.actorId (.markRead k messageId)
      serverTimeMs = .ok none := rfl
  obtain ⟨events, hdecision, hengine⟩ := answered_projected hreplay hresult
  rw [hafter]
  change (after (handleProjected env _ (.markRead k messageId) _) s₁).engine.readCursor _ _ = _
  rw [hengine]
  obtain ⟨rest, hproject, hdelivery⟩ := s₁.engine.projectMarkRead_cases request.context.actorId k
    messageId
  change (s₁.engine.runAll (s₁.engine.projectMarkRead _ _ _)).2 = _ at hdecision
  change readCursor (Runs.run MessagingState.next _ (s₁.engine.projectMarkRead _ _ _)) _ _ = _
  rw [hproject] at hdecision ⊢
  obtain ⟨front, back, hsplit, -, haccepted, hall⟩ := s₁.engine.runAll_front _
  rw [hall events hdecision, List.append_nil] at hsplit
  rw [← hsplit] at haccepted
  obtain ⟨⟨_, hdecide⟩, -⟩ := haccepted
  have hcursors : ∀ state : MessagingState,
      (Runs.run MessagingState.next state rest).readCursor k request.context.actorId =
        state.readCursor k request.context.actorId := fun state ↦
    readCursor_of_readCursors (frame_run (p := MessagingState.readCursors) readCursors_apply
      (fun c hc ↦ (hdelivery c hc).2) state) _ _
  rw [Runs.run_cons, hcursors, readCursor_next_markRead hdecide, if_pos ⟨rfl, rfl⟩]

/-- Readings in any order: if none goes back behind the cursor of its reader, the cursor
ends on the latest of the messages that it was put on, whatever the order was, and no
reading on the way makes anything unread. An answered reading has moved the cursor. -/
theorem reads_order_independent {past reads : List ServiceInput}
    (hreads : ∀ input ∈ reads, input.readMark.isSome = true)
    (hforward : Runs.Along (next env) ReadsForward
      (Runs.run (next env) (empty store blobStore) past) reads) (k : ConversationId) (a : ActorId) :
    let s := Runs.run (next env) (empty store blobStore) past
    let final := Runs.run (next env) s reads
    final.engine.LatestOf k ((s.engine.readCursor k a).toList ++ marksOf env k a s reads)
      (final.engine.readCursor k a) ∧
    (∀ reads' : List ServiceInput, (∀ input ∈ reads', input.readMark.isSome = true) →
      Runs.Along (next env) ReadsForward s reads' →
        (∀ id, id ∈ marksOf env k a s reads ↔ id ∈ marksOf env k a s reads') →
          (Runs.run (next env) s reads').engine.readCursor k a = final.engine.readCursor k a) ∧
    (∀ xs input ys serverTimeMs, reads = xs ++ input :: ys →
      (next env (Runs.run (next env) s xs) input).engine.unreadCount k a serverTimeMs ≤
        (Runs.run (next env) s xs).engine.unreadCount k a serverTimeMs) ∧
    ∀ (t : MessagingService S B) (request : ClientEnvelope) (serverTimeMs : Int64)
      (out : List ServerEnvelope) (messageId : MessageId),
      result (handle env request serverTimeMs) t = .ok out → request.context.actorId = a →
        request.command = .markRead k messageId →
          (next env t (.handle request serverTimeMs)).engine.readCursor k a = some messageId := by
  intro s final
  have hkeyed : s.engine.Keyed := keyed_run past
  have hstored : s.engine.CursorsStored :=
    Runs.invariant (I := fun s : MessagingService S B ↦ s.engine.CursorsStored)
      (fun _ input h ↦ cursorsStored_next env h input) cursorsStored_empty past
  have hlatest := latestOf_reads hkeyed hstored hreads hforward k a
  refine ⟨hlatest, ?_, ?_, ?_⟩
  · intro reads' hreads' hforward' hsame
    have hlatest' := latestOf_reads hkeyed hstored hreads' hforward' k a
    have hplaces := keepsPlaces_reads hkeyed hstored hreads hforward
    have hplaces' := keepsPlaces_reads hkeyed hstored hreads' hforward'
    refine (hlatest'.of_places hplaces').unique hkeyed (hlatest.of_places hplaces) fun id ↦ ?_
    rw [List.mem_append, List.mem_append, hsame]
  · rintro xs input ys serverTimeMs rfl
    obtain ⟨-, hstep, -⟩ := (Runs.along_append (next env) s xs (input :: ys)).mp hforward
    have hboth : (Runs.run (next env) s xs).engine.Keyed ∧
        (Runs.run (next env) s xs).engine.CursorsStored :=
      Runs.invariant (I := fun s : MessagingService S B ↦ s.engine.Keyed ∧ s.engine.CursorsStored)
        (fun _ input h ↦ ⟨keyed_next env h.1 input, cursorsStored_next env h.2 input⟩)
        ⟨hkeyed, hstored⟩ xs
    exact unreadCount_readsOn hboth.1 (keyed_next env hboth.1 input)
      (readsOn_next env hboth.1 hboth.2 (hreads input (by simp)) hstep) k a serverTimeMs
  · rintro t request serverTimeMs out messageId hresult rfl hcommand
    exact readCursor_of_answered hresult hcommand

end MessagingService

/-! ## Two phones of one reader -/

namespace Chat

def read (actorId : ActorId) (clientMessageId : String) : ServiceInput :=
  request 5 actorId (.markRead room.id (sent host clientMessageId))

def written : List ServiceInput :=
  opening ++ [send 2 host room.id "one" hello, send 3 host room.id "two" hello]

end Chat

namespace MessagingService

open Chat

theorem reads_order_independent_forward :
    (reached (written ++ [read guest "one", read guest "two"])).engine.LatestOf room.id
      (((reached written).engine.readCursor room.id guest).toList ++
        marksOf world room.id guest (reached written) [read guest "one", read guest "two"])
      ((reached (written ++ [read guest "one", read guest "two"])).engine.readCursor room.id
        guest) := by
  have hreads : ∀ input ∈ [read guest "one", read guest "two"], input.readMark.isSome = true := by
    decide
  have hforward : Runs.Along (next world) ReadsForward
      (Runs.run (next world) (empty ({} : MemoryStateStore) (none : Option Empty)) written)
      [read guest "one", read guest "two"] := by decide +kernel
  rw [reached, Runs.run_append]
  exact (reads_order_independent hreads hforward room.id guest).1

/-- The reading of an older message that arrives late takes the cursor back to it. -/
theorem read_goes_back :
    ¬ ∀ (past reads : List ServiceInput), (∀ input ∈ reads, input.readMark.isSome = true) →
      ∀ (k : ConversationId) (a : ActorId), (reached (past ++ reads)).engine.LatestOf k
        (((reached past).engine.readCursor k a).toList ++ marksOf world k a (reached past) reads)
        ((reached (past ++ reads)).engine.readCursor k a) := by
  intro hclaim
  have hlatest := hclaim written [read guest "two", read guest "one"] (by decide) room.id guest
  obtain ⟨hcursor, hmarked, hlater⟩ : (reached (written ++ [read guest "two",
        read guest "one"])).engine.readCursor room.id guest = some (sent host "one") ∧
      sent host "two" ∈ marksOf world room.id guest (reached written)
        [read guest "two", read guest "one"] ∧
      ((reached (written ++ [read guest "two", read guest "one"])).engine.findMessage room.id
        (sent host "two")).all (fun two ↦ ((reached (written ++ [read guest "two",
          read guest "one"])).engine.findMessage room.id (sent host "one")).all
            fun one ↦ !two.notAfter one) = true := by decide +kernel
  rw [hcursor] at hlatest
  rcases hlatest with ⟨-, hnone⟩ | ⟨id, -, hid, hall⟩
  · cases hnone
  · obtain rfl := Option.some.inj hid
    obtain ⟨two, htwo, one, hone, horder⟩ := hall _ (List.mem_append_right _ hmarked)
    have hnot := (Option.all_eq_true _ _).mp ((Option.all_eq_true _ _).mp hlater two htwo) one hone
    rw [horder] at hnot
    cases hnot

end MessagingService

end Fabushi.Messaging
