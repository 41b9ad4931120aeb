import Fabushi.Messaging.RequestSteps
import Fabushi.Messaging.MessageSteps
import Fabushi.Messaging.ConversationSteps
import Fabushi.Messaging.ServiceRuns

/-!
# Messages and conversations along the runs of the service

The commands a request executes rewrite messages in place, stamp new ones with
the server time, and change the record of a conversation with the last command
at most. So a message of the state before a request is still there after it, and
a message that is new after it got its deadline from the policy of the
conversation before it.
-/

namespace Fabushi.Messaging

open Effects Result Std

variable {S B : Type}

/-- The command keeps the kind and the retention of every conversation. -/
def Command.Steady (command : Command) : Prop :=
  command.eventTags.any EventTag.replacesConversation = false

def Command.isChained : Command → Bool
  | .queueMessage .. | .acknowledgeMessage .. | .markRead .. | .setDeliveryState .. => true
  | _ => false

theorem Command.steady_of_isChained {command : Command} (h : command.isChained = true) :
    command.Steady := by
  cases command <;> first | rfl | cases h

def Command.origin : Command → Option ClientCommand
  | .setConversationMessageRetention conversationId seconds expectedRevision =>
      some (.setConversationMessageRetention conversationId seconds expectedRevision)
  | .editMessage conversationId messageId content _ =>
      some (.editMessage conversationId messageId content)
  | .forwardMessage sourceConversationId messageId destinationConversationId _ clientMessageId _ _ =>
      some (.forwardMessage sourceConversationId messageId destinationConversationId
        clientMessageId)
  | _ => none

namespace MessagingState

variable {env : ServiceEnv} {actorId : ActorId} {serverTimeMs : Int64} {state : MessagingState}
  {command : ClientCommand} {commands : List Command}

/-! ## The commands of a request -/

/-- What the commands of a request have in common. -/
structure Routine (serverTimeMs : Int64) (command : Command) : Prop where
  inPlace : command.InPlace
  queued : ∀ createdAtMs, command.queuedAtMs = some createdAtMs → createdAtMs = serverTimeMs
  accepted : ∀ acceptedAtMs, command.acceptedAtMs = some acceptedAtMs → acceptedAtMs = serverTimeMs

theorem routine_of_none {command : Command} (hplace : command.InPlace)
    (hqueued : command.queuedAtMs = none) (haccepted : command.acceptedAtMs = none) :
    Routine serverTimeMs command := by
  refine ⟨hplace, fun _ h ↦ ?_, fun _ h ↦ ?_⟩
  · cases hqueued.symm.trans h
  · cases haccepted.symm.trans h

theorem expired_cases {c : Command}
    (hc : c ∈ MessagingService.expiredMessages state serverTimeMs) :
    ∃ conversationId messages, state.messages[conversationId]? = some messages ∧
      c = .deleteMessages conversationId ((messages.values.filter fun message ↦
        !message.deleted && message.isExpiredAt serverTimeMs).map fun message ↦ message.id) := by
  simp only [MessagingService.expiredMessages, List.mem_filterMap] at hc
  obtain ⟨⟨conversationId, messages⟩, hmem, hcommand⟩ := hc
  refine ⟨conversationId, messages, ExtTreeMap.mem_toList_iff_getElem?_eq_some.mp hmem, ?_⟩
  split at hcommand
  · cases hcommand
  · exact (Option.some.inj hcommand).symm

theorem undelivered_cases {c : Command}
    (hc : c ∈ MessagingService.undeliveredMessages state actorId) :
    ∃ conversation ∈ state.conversations.values, conversation.kind.hasReceipts = true ∧
      conversation.hasParticipant actorId = true ∧
      ∃ messageId, c = .setDeliveryState conversation.id messageId .delivered := by
  simp only [MessagingService.undeliveredMessages, List.mem_flatMap, List.mem_map] at hc
  obtain ⟨conversation, hconversation, message, -, rfl⟩ := hc
  obtain ⟨hmem, hboth⟩ := List.mem_filter.mp hconversation
  rw [Bool.and_eq_true] at hboth
  exact ⟨conversation, hmem, hboth.1, hboth.2, message.id, rfl⟩

theorem projected_cases (state : MessagingState) (sha256 : List UInt8 → List UInt8)
    (actorId : ActorId) (serverTimeMs : Int64) (command : ClientCommand) :
    (∃ c, state.projectCommand sha256 actorId serverTimeMs command = [c]) ∨
      state.projectCommand sha256 actorId serverTimeMs command = [] ∨
      (∃ conversationId clientMessageId content replyTo root scheduled silent protectedContent,
        command = .sendMessage conversationId clientMessageId content replyTo root scheduled silent
          protectedContent) ∨
      ∃ conversationId messageId, command = .markRead conversationId messageId := by
  cases command
  case sendMessage => exact .inr (.inr (.inl ⟨_, _, _, _, _, _, _, _, rfl⟩))
  case markRead => exact .inr (.inr (.inr ⟨_, _, rfl⟩))
  case updateConversation conversation =>
    left
    simp only [projectCommand]
    split
    · exact ⟨_, rfl⟩
    · exact ⟨_, rfl⟩
  all_goals first | exact .inl ⟨_, rfl⟩ | exact .inr (.inl rfl)

theorem projected_origin {sha256 : List UInt8 → List UInt8} {c : Command} {client : ClientCommand}
    (hc : c ∈ state.projectCommand sha256 actorId serverTimeMs command)
    (horigin : c.origin = some client) : command = client := by
  cases command
  case sendMessage =>
    simp only [projectCommand, projectSendMessage, List.mem_cons, List.not_mem_nil,
      or_false] at hc
    rcases hc with rfl | rfl <;> cases horigin
  case updateConversation =>
    simp only [projectCommand] at hc
    split at hc
    · cases List.mem_singleton.mp hc
      cases horigin
    · cases List.mem_singleton.mp hc
      cases horigin
  case markRead =>
    simp only [projectCommand, projectMarkRead, List.mem_cons] at hc
    rcases hc with rfl | hc
    · cases horigin
    · split at hc
      · cases List.mem_singleton.mp hc
        cases horigin
      · cases hc
  all_goals
    first
    | cases hc; done
    | (cases List.mem_singleton.mp hc; cases horigin; rfl)
    | (cases List.mem_singleton.mp hc; cases horigin)

theorem routine_projected {sha256 : List UInt8 → List UInt8} {c : Command}
    (hc : c ∈ state.projectCommand sha256 actorId serverTimeMs command) :
    Routine serverTimeMs c := by
  cases command
  case sendMessage =>
    simp only [projectCommand, projectSendMessage, List.mem_cons, List.not_mem_nil,
      or_false] at hc
    rcases hc with rfl | rfl
    · exact ⟨trivial, fun _ h ↦ (Option.some.inj h).symm,
        fun _ h ↦ absurd h.symm (Option.some_ne_none _)⟩
    · exact ⟨rfl, fun _ h ↦ absurd h.symm (Option.some_ne_none _),
        fun _ h ↦ (Option.some.inj h).symm⟩
  case forwardMessage =>
    obtain rfl := List.mem_singleton.mp hc
    exact ⟨trivial, fun _ h ↦ (Option.some.inj h).symm,
      fun _ h ↦ absurd h.symm (Option.some_ne_none _)⟩
  case updateConversation conversation =>
    simp only [projectCommand] at hc
    split at hc
    · obtain rfl := List.mem_singleton.mp hc
      exact routine_of_none trivial rfl rfl
    · obtain rfl := List.mem_singleton.mp hc
      exact routine_of_none trivial rfl rfl
  case markRead =>
    simp only [projectCommand, projectMarkRead, List.mem_cons] at hc
    rcases hc with rfl | hc
    · exact routine_of_none trivial rfl rfl
    · split at hc
      · obtain rfl := List.mem_singleton.mp hc
        exact routine_of_none trivial rfl rfl
      · cases hc
  all_goals
    first
    | cases hc; done
    | (obtain rfl := List.mem_singleton.mp hc; exact routine_of_none trivial rfl rfl)

theorem Work.routine (h : state.Work env actorId serverTimeMs command commands) :
    ∀ c ∈ commands, Routine serverTimeMs c := by
  intro c hc
  cases h with
  | projected => exact routine_projected hc
  | delivered =>
      obtain ⟨_, -, -, -, _, rfl⟩ := undelivered_cases hc
      exact routine_of_none trivial rfl rfl

theorem Work.single_or_chained (h : state.Work env actorId serverTimeMs command commands) :
    (∃ c, state.projectCommand env.sha256 actorId serverTimeMs command = [c] ∧ commands = [c]) ∨
      ∀ c ∈ commands, c.isChained = true := by
  cases h with
  | delivered =>
      right
      intro c hc
      obtain ⟨_, -, -, -, _, rfl⟩ := undelivered_cases hc
      rfl
  | projected =>
      rcases projected_cases state env.sha256 actorId serverTimeMs command with
        ⟨only, honly⟩ | hnone | ⟨_, _, _, _, _, _, _, _, rfl⟩ | ⟨_, _, rfl⟩
      · exact .inl ⟨only, honly, honly⟩
      · rw [hnone]
        exact .inr (List.forall_mem_nil _)
      · right
        intro c hc
        simp only [projectCommand, projectSendMessage, List.mem_cons, List.not_mem_nil,
          or_false] at hc
        rcases hc with rfl | rfl <;> rfl
      · right
        intro c hc
        simp only [projectCommand, projectMarkRead, List.mem_cons] at hc
        rcases hc with rfl | hc
        · rfl
        · split at hc
          · obtain rfl := List.mem_singleton.mp hc
            rfl
          · cases hc

theorem Work.steady (h : state.Work env actorId serverTimeMs command commands)
    {front back : List Command} {c : Command} (hcommands : commands = front ++ c :: back) :
    ∀ c' ∈ front, c'.Steady := by
  intro c' hc'
  rcases h.single_or_chained with ⟨only, -, honly⟩ | hchained
  · have hlength := congrArg List.length (honly.symm.trans hcommands)
    have hpos := List.length_pos_of_mem hc'
    simp only [List.length_append, List.length_cons, List.length_nil] at hlength
    omega
  · exact Command.steady_of_isChained (hchained c' (by simp [hcommands, hc']))

theorem routine_expired : ∀ c ∈ MessagingService.expiredMessages state serverTimeMs,
    Routine serverTimeMs c ∧ c.Steady := by
  intro c hc
  obtain ⟨_, _, -, rfl⟩ := expired_cases hc
  exact ⟨routine_of_none trivial rfl rfl, rfl⟩

/-! ## Sequences of commands -/

theorem kept_message_run {commands : List Command} (hplace : ∀ c ∈ commands, c.InPlace)
    {state : MessagingState} {k : ConversationId} {id : MessageId} {message : Message}
    (h : state.findMessage k id = some message) :
    ∃ message', (Runs.run next state commands).findMessage k id = some message' ∧
      message.Keeps message' ∧ message'.conversationId = message.conversationId ∧
      (message.id = id → message'.id = id) := by
  induction commands generalizing state message with
  | nil => exact ⟨message, h, .refl message, rfl, fun h ↦ h⟩
  | cons c commands ih =>
      have hrest : ∀ c' ∈ commands, c'.InPlace := fun c' hc' ↦ hplace c' (List.mem_cons_of_mem _ hc')
      have hnext := nextMessage state (hplace c List.mem_cons_self) k id
      rw [h] at hnext
      rw [Runs.run_cons]
      cases hafter : (state.next c).findMessage k id with
      | none =>
          rw [hafter] at hnext
          cases hnext
      | some message₁ =>
          rw [hafter] at hnext
          obtain ⟨message', hfound, hkeeps, hthere, hid⟩ := ih hrest hafter
          cases hnext with
          | same => exact ⟨message', hfound, hkeeps, hthere, hid⟩
          | rewritten _ hid₁ hkeeps₁ hthere₁ =>
              exact ⟨message', hfound, hkeeps₁.trans hkeeps, hthere.trans hthere₁,
                fun h ↦ hid (hid₁ h)⟩

theorem kept_conversation_run {commands : List Command} (hsteady : ∀ c ∈ commands, c.Steady)
    (state : MessagingState) (k : ConversationId) :
    KeptConversation state.conversations[k]? (Runs.run next state commands).conversations[k]? := by
  induction commands generalizing state with
  | nil => exact .refl _
  | cons c commands ih =>
      rw [Runs.run_cons]
      refine .trans ?_ (ih (fun c' hc' ↦ hsteady c' (List.mem_cons_of_mem _ hc')) _)
      exact kept_conversation_next state (hsteady c List.mem_cons_self) k

structure Stamped (serverTimeMs : Int64) (seconds : Option UInt32) (message : Message) : Prop where
  created : message.createdAtMs = serverTimeMs
  deadline : messageExpiry seconds (message.scheduledAtMs.getD serverTimeMs) =
    .ok message.expiresAtMs

theorem Stamped.keeps {seconds : Option UInt32} {old new : Message}
    (h : Stamped serverTimeMs seconds old) (hkeeps : old.Keeps new)
    (hcreated : new.createdAtMs = serverTimeMs) : Stamped serverTimeMs seconds new := by
  refine ⟨hcreated, ?_⟩
  rw [hkeeps.scheduledAtMs, hkeeps.expiresAtMs]
  exact h.deadline

theorem stamped_run {commands : List Command} (hroutine : ∀ c ∈ commands, Routine serverTimeMs c)
    {seconds : Option UInt32} {state : MessagingState} {k : ConversationId} {id : MessageId}
    {old new : Message} (hstamped : Stamped serverTimeMs seconds old)
    (hold : state.findMessage k id = some old)
    (hnew : (Runs.run next state commands).findMessage k id = some new) :
    Stamped serverTimeMs seconds new := by
  induction commands generalizing state old with
  | nil =>
      obtain rfl := Option.some.inj (hold.symm.trans hnew)
      exact hstamped
  | cons c commands ih =>
      have hc := hroutine c List.mem_cons_self
      have hnext := nextMessage state hc.inPlace k id
      rw [Runs.run_cons] at hnew
      rw [hold] at hnext
      cases hafter : (state.next c).findMessage k id with
      | none =>
          rw [hafter] at hnext
          cases hnext
      | some middle =>
          rw [hafter] at hnext
          refine ih (fun c' hc' ↦ hroutine c' (List.mem_cons_of_mem _ hc')) ?_ hafter hnew
          cases hnext with
          | same => exact hstamped
          | rewritten _ _ hkeeps _ hcreated =>
              refine hstamped.keeps hkeeps ?_
              rcases hcreated with hsame | haccepted
              · exact hsame.trans hstamped.created
              · exact hc.accepted _ haccepted

theorem created_run {commands : List Command} (hroutine : ∀ c ∈ commands, Routine serverTimeMs c)
    (hsteady : ∀ front c back, commands = front ++ c :: back → ∀ c' ∈ front, c'.Steady)
    {state : MessagingState} {k : ConversationId} {id : MessageId} {message : Message}
    (hold : state.findMessage k id = none)
    (hnew : (Runs.run next state commands).findMessage k id = some message) :
    ∃ conversation, state.conversations[k]? = some conversation ∧
      Stamped serverTimeMs conversation.messageRetentionSeconds message := by
  induction commands generalizing state with
  | nil => cases hold.symm.trans hnew
  | cons c commands ih =>
      have hc := hroutine c List.mem_cons_self
      have hrest : ∀ c' ∈ commands, Routine serverTimeMs c' :=
        fun c' hc' ↦ hroutine c' (List.mem_cons_of_mem _ hc')
      have hnext := nextMessage state hc.inPlace k id
      rw [Runs.run_cons] at hnew
      rw [hold] at hnext
      cases hafter : (state.next c).findMessage k id with
      | none =>
          have hone : c.Steady := by
            cases commands with
            | nil => cases hafter.symm.trans hnew
            | cons c₁ commands => exact hsteady [c] c₁ commands rfl c List.mem_cons_self
          obtain ⟨conversation, hfound, hstamped⟩ := ih hrest
            (fun front c₁ back heq c' hc' ↦ hsteady (c :: front) c₁ back (by rw [heq]; rfl) c'
              (List.mem_cons_of_mem _ hc')) hafter hnew
          rcases kept_conversation_next state hone k with ⟨-, hnone⟩ | ⟨a, b, ha, hb, hkeeps⟩
          · cases hnone.symm.trans hfound
          · obtain rfl := Option.some.inj (hb.symm.trans hfound)
            rw [hkeeps.seconds] at hstamped
            exact ⟨a, ha, hstamped⟩
      | some middle =>
          rw [hafter] at hnext
          cases hnext with
          | queued _ hconversation hid hqueues =>
              obtain ⟨conversation, hfound, hdeadline⟩ := hqueues.deadline
              have hcreated := hc.queued _ hqueues.created
              rw [hconversation] at hfound
              rw [hcreated] at hdeadline
              exact ⟨conversation, hfound, stamped_run hrest ⟨hcreated, hdeadline⟩ hafter hnew⟩

/-! ## Requests -/

theorem Served.executed {before after : MessagingState}
    (h : Served env actorId serverTimeMs command before after) :
    ∃ commands, after = Runs.run next before commands ∧
      ∀ c ∈ commands, Routine serverTimeMs c := by
  cases h with
  | refused => exact ⟨[], rfl, List.forall_mem_nil _⟩
  | settling front back hexpired =>
      refine ⟨front, rfl, fun c hc ↦ ?_⟩
      have hmem : c ∈ MessagingService.expiredMessages before serverTimeMs := by
        rw [hexpired]
        exact List.mem_append_left _ hc
      exact (routine_expired c hmem).1
  | working hauthorized hwork front back hcommands _ =>
      refine ⟨_ ++ front, (Runs.run_append next before _ front).symm, fun c hc ↦ ?_⟩
      rcases List.mem_append.mp hc with hc | hc
      · exact (routine_expired c hc).1
      · exact hwork.routine c (by simp [hcommands, hc])

theorem none_of_expired {front back : List Command}
    (hexpired : MessagingService.expiredMessages state serverTimeMs = front ++ back)
    {k : ConversationId} {id : MessageId} (h : state.findMessage k id = none) :
    (Runs.run next state front).findMessage k id = none := by
  cases hnew : (Runs.run next state front).findMessage k id with
  | none => rfl
  | some message =>
      exfalso
      have hdelete : ∀ c ∈ front, ∃ conversationId messageIds,
          c = .deleteMessages conversationId messageIds := by
        intro c hc
        have hmem : c ∈ MessagingService.expiredMessages state serverTimeMs := by
          rw [hexpired]
          exact List.mem_append_left _ hc
        obtain ⟨_, _, -, rfl⟩ := expired_cases hmem
        exact ⟨_, _, rfl⟩
      clear hexpired
      induction front generalizing state with
      | nil => cases h.symm.trans hnew
      | cons c front ih =>
          obtain ⟨conversationId, messageIds, rfl⟩ := hdelete c List.mem_cons_self
          have hplace : (Command.deleteMessages conversationId messageIds).InPlace := trivial
          have hnext := nextMessage state hplace k id
          rw [h] at hnext
          cases hafter : (state.next (.deleteMessages conversationId messageIds)).findMessage k id with
          | none => exact ih hafter hnew fun c hc ↦ hdelete c (List.mem_cons_of_mem _ hc)
          | some middle =>
              rw [hafter] at hnext
              cases hnext with
              | queued _ _ _ hqueues => cases hqueues.created

theorem kept_conversation_settled (state : MessagingState) (serverTimeMs : Int64)
    (k : ConversationId) :
    KeptConversation state.conversations[k]? (state.settled serverTimeMs).conversations[k]? :=
  kept_conversation_run (fun c hc ↦ (routine_expired c hc).2) state k

/-- A message that a request adds carries the server time and the deadline that the
policy of its conversation asks for. -/
theorem Served.created {before after : MessagingState}
    (h : Served env actorId serverTimeMs command before after) {k : ConversationId}
    {id : MessageId} {message : Message} (hold : before.findMessage k id = none)
    (hnew : after.findMessage k id = some message) :
    ∃ conversation, before.conversations[k]? = some conversation ∧
      Stamped serverTimeMs conversation.messageRetentionSeconds message := by
  cases h with
  | refused => cases hold.symm.trans hnew
  | settling front back hexpired => cases (none_of_expired hexpired hold).symm.trans hnew
  | @working hauthorized commands hwork front back hcommands _ =>
      have hsettled : (before.settled serverTimeMs).findMessage k id = none :=
        none_of_expired (List.append_nil _).symm hold
      have hsteady : ∀ front' c back', front = front' ++ c :: back' → ∀ c' ∈ front', c'.Steady := by
        intro front' c back' heq
        have hsplit : commands = front' ++ c :: (back' ++ back) := by
          rw [hcommands, heq, List.append_assoc, List.cons_append]
        exact hwork.steady hsplit
      obtain ⟨conversation, hfound, hstamped⟩ := created_run
        (fun c hc ↦ hwork.routine c (by simp [hcommands, hc]))
        hsteady hsettled hnew
      rcases kept_conversation_settled before serverTimeMs k with ⟨-, hnone⟩ | ⟨a, b, ha, hb, hkeeps⟩
      · cases hnone.symm.trans hfound
      · obtain rfl := Option.some.inj (hb.symm.trans hfound)
        rw [hkeeps.seconds] at hstamped
        exact ⟨a, ha, hstamped⟩

def Keyed (state : MessagingState) : Prop :=
  ∀ k id message, state.findMessage k id = some message →
    message.id = id ∧ message.conversationId = k

theorem keyed_empty : Keyed {} := by
  intro k id message h
  simp [findMessage] at h

theorem Keyed.next {state : MessagingState} (h : state.Keyed) {c : Command} (hplace : c.InPlace) :
    (state.next c).Keyed := by
  intro k id message hmessage
  have hnext := nextMessage state hplace k id
  rw [hmessage] at hnext
  cases hold : state.findMessage k id with
  | none =>
      rw [hold] at hnext
      cases hnext with
      | queued _ hconversation hid => exact ⟨hid, hconversation⟩
  | some old =>
      rw [hold] at hnext
      obtain ⟨hid, hconversation⟩ := h k id old hold
      cases hnext with
      | same => exact ⟨hid, hconversation⟩
      | rewritten _ hid' _ hthere => exact ⟨hid' hid, hthere.trans hconversation⟩

theorem Keyed.run {state : MessagingState} (h : state.Keyed) {commands : List Command}
    (hplace : ∀ c ∈ commands, c.InPlace) : (Runs.run MessagingState.next state commands).Keyed := by
  induction commands generalizing state with
  | nil => exact h
  | cons c commands ih =>
      exact ih (h.next (hplace c List.mem_cons_self)) fun c' hc' ↦
        hplace c' (List.mem_cons_of_mem _ hc')

end MessagingState

/-! ## Runs of the service -/

namespace MessagingService

open MessagingState

variable [MessagingStateStore S]

theorem engine_settle (env : ServiceEnv) (verifier : SettlementVerifier)
    (signed : SignedSettlement) (serverTimeMs : Int64) (s : MessagingService S B) :
    (after (applySignedSettlement env verifier signed serverTimeMs) s).engine = s.engine ∨
      ∃ event, (after (applySignedSettlement env verifier signed serverTimeMs) s).engine =
        s.engine.next (settlementCommand event serverTimeMs) := by
  cases hverify : verifier.verify env.settlement signed serverTimeMs with
  | error error =>
      left
      rw [after_applySignedSettlement_of_error hverify]
  | ok event =>
      right
      refine ⟨event, ?_⟩
      have hexecute := after_executeCommand (settlementCommand event serverTimeMs) s
      rw [applySignedSettlement, hverify]
      change (after (executeCommand (settlementCommand event serverTimeMs) >>= _) s).engine = _
      cases hresult : result (executeCommand (settlementCommand event serverTimeMs)) s with
      | error error =>
          rw [after_bind_error hresult, hexecute]
          rfl
      | ok events =>
          rw [after_bind_ok hresult, hexecute]
          refine idle_bind (idle_orThrow _ _) (fun entry ↦ ?_) _
          exact idle_bind (idle_advanceCursor _) fun _ ↦
            idle_bind (idle_persist _) fun _ ↦ idle_pure entry

variable [BlobStore B]

theorem engine_next (env : ServiceEnv) (s : MessagingService S B) (input : ServiceInput) :
    ∃ commands, (next env s input).engine = Runs.run MessagingState.next s.engine commands ∧
      ∀ c ∈ commands, c.InPlace := by
  cases input with
  | handle request serverTimeMs =>
      obtain ⟨commands, hrun, hroutine⟩ := (served_handle env request serverTimeMs s).executed
      exact ⟨commands, hrun, fun c hc ↦ (hroutine c hc).inPlace⟩
  | settle verifier signed serverTimeMs =>
      rw [next]
      rcases engine_settle env verifier signed serverTimeMs s with hsame | ⟨event, hnext⟩
      · exact ⟨[], hsame, List.forall_mem_nil _⟩
      · refine ⟨[settlementCommand event serverTimeMs], hnext, ?_⟩
        intro c hc
        rw [List.mem_singleton.mp hc]
        trivial

variable {env : ServiceEnv} {store : S} {blobStore : Option B} {inputs : List ServiceInput}
  {s : MessagingService S B} {input : ServiceInput}

theorem keyed_next (env : ServiceEnv) {s : MessagingService S B} (hkeyed : s.engine.Keyed)
    (input : ServiceInput) : (next env s input).engine.Keyed := by
  obtain ⟨commands, hrun, hplace⟩ := engine_next env s input
  rw [hrun]
  exact hkeyed.run hplace

theorem keyed_run (inputs : List ServiceInput) :
    (Runs.run (next env) (empty store blobStore) inputs).engine.Keyed :=
  Runs.invariant (I := fun s : MessagingService S B ↦ s.engine.Keyed)
    (fun _ input hkeyed ↦ keyed_next env hkeyed input) keyed_empty inputs

theorem Takes.keyed (ht : Takes env store blobStore inputs s input) : s.engine.Keyed := by
  obtain ⟨xs, ys, rfl, rfl⟩ := ht
  exact keyed_run xs

end MessagingService

end Fabushi.Messaging
