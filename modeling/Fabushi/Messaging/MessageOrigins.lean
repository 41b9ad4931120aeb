import Fabushi.Messaging.RetentionRuns

/-!
# Who has filed a message

A message is stored by the request that sends or forwards it, for the actor who asks,
under an identifier that is made from the client identifier of the request. It keeps its
sender, so every message that is stored in a run goes back to a request of its sender.
-/

namespace Fabushi.Messaging

open Effects Result Std

variable {S B : Type}

def Command.filed : Command → Option (ConversationId × MessageId × ActorId)
  | .queueMessage conversationId localMessageId _ senderId .. =>
      some (conversationId, localMessageId, senderId)
  | .forwardMessage _ _ destinationConversationId localMessageId _ senderId _ =>
      some (destinationConversationId, localMessageId, senderId)
  | _ => none

def ClientCommand.files (sha256 : List UInt8 → List UInt8) (actorId : ActorId) :
    ClientCommand → Option (ConversationId × MessageId)
  | .sendMessage conversationId clientMessageId .. =>
      some (conversationId, stableMessageId sha256 actorId clientMessageId)
  | .forwardMessage _ _ destinationConversationId clientMessageId =>
      some (destinationConversationId, legacyMessageId clientMessageId)
  | _ => none

def ServiceInput.Files (env : ServiceEnv) (input : ServiceInput) (k : ConversationId)
    (id : MessageId) (senderId : ActorId) : Prop :=
  ∃ request serverTimeMs, input = .handle request serverTimeMs ∧
    request.context.actorId = senderId ∧ request.command.files env.sha256 senderId = some (k, id)

namespace MessagingState

variable {env : ServiceEnv} {actorId : ActorId} {serverTimeMs : Int64} {state : MessagingState}
  {command : ClientCommand} {k : ConversationId} {id : MessageId} {message : Message}

/-! ## One command -/

theorem filed_of_decide {c : Command} {createdAtMs : Int64}
    (hqueued : c.queuedAtMs = some createdAtMs) :
    Ensures (fun events ↦ ∃ message, events = [.messageQueued message] ∧
      c.filed = some (message.conversationId, message.id, message.senderId)) (state.decide c) := by
  cases c
  case queueMessage | forwardMessage =>
    unfold MessagingState.decide
    simp only [decideQueueMessage, decideForwardMessage, ensures_bind_iff]
    intros
    exact ⟨_, rfl, rfl⟩
  all_goals cases hqueued

theorem filed_of_next {c : Command} (hplace : c.InPlace) (hold : state.findMessage k id = none)
    (hnew : (state.next c).findMessage k id = some message) :
    c.filed = some (k, id, message.senderId) := by
  have hnext := nextMessage state hplace k id
  rw [hold, hnew] at hnext
  cases hnext with
  | queued _ hconversation hid hqueues =>
      cases hdecide : state.decide c with
      | error e =>
          rw [next, execute, hdecide, hold] at hnew
          cases hnew
      | ok events =>
          obtain ⟨queued, rfl, hfiled⟩ := ensures_iff.mp (filed_of_decide hqueues.created) _ hdecide
          have hstored : (state.next c).findMessage k id =
              if queued.conversationId = k ∧ queued.id = id then some queued
              else state.findMessage k id := by
            rw [next, execute, hdecide]
            exact findMessage_applyMessageQueued state queued k id
          rw [hstored, hold] at hnew
          split at hnew
          · rename_i hsame
            obtain rfl := Option.some.inj hnew
            rw [hfiled, hsame.1, hsame.2]
          · cases hnew

theorem filed_run {commands : List Command} (hplace : ∀ c ∈ commands, c.InPlace)
    (hold : state.findMessage k id = none)
    (hnew : (Runs.run next state commands).findMessage k id = some message) :
    ∃ c ∈ commands, c.filed = some (k, id, message.senderId) := by
  induction commands generalizing state with
  | nil => cases hold.symm.trans hnew
  | cons c commands ih =>
      have hrest : ∀ c' ∈ commands, c'.InPlace := fun c' hc' ↦ hplace c' (List.mem_cons_of_mem _ hc')
      cases hafter : (state.next c).findMessage k id with
      | none =>
          obtain ⟨c', hc', hfiled⟩ := ih hrest hafter hnew
          exact ⟨c', List.mem_cons_of_mem _ hc', hfiled⟩
      | some middle =>
          have hfiled := filed_of_next (hplace c List.mem_cons_self) hold hafter
          obtain ⟨kept, hkept, hkeeps, -⟩ := kept_message_run hrest hafter
          obtain rfl := Option.some.inj (hkept.symm.trans hnew)
          rw [hkeeps.senderId]
          exact ⟨c, List.mem_cons_self, hfiled⟩

/-! ## One request -/

theorem projected_filed {sha256 : List UInt8 → List UInt8} {c : Command} {senderId : ActorId}
    (hc : c ∈ state.projectCommand sha256 actorId serverTimeMs command)
    (hfiled : c.filed = some (k, id, senderId)) :
    command.files sha256 actorId = some (k, id) ∧ senderId = actorId := by
  cases command
  case sendMessage =>
    simp only [projectCommand, projectSendMessage, List.mem_cons, List.not_mem_nil,
      or_false] at hc
    rcases hc with rfl | rfl
    · cases hfiled
      exact ⟨rfl, rfl⟩
    · cases hfiled
  case forwardMessage =>
    cases List.mem_singleton.mp hc
    cases hfiled
    exact ⟨rfl, rfl⟩
  case updateConversation =>
    simp only [projectCommand] at hc
    split at hc
    · cases List.mem_singleton.mp hc
      cases hfiled
    · cases List.mem_singleton.mp hc
      cases hfiled
  case markRead =>
    simp only [projectCommand, projectMarkRead, List.mem_cons] at hc
    rcases hc with rfl | hc
    · cases hfiled
    · split at hc
      · cases List.mem_singleton.mp hc
        cases hfiled
      · cases hc
  all_goals
    first
    | cases hc; done
    | (cases List.mem_singleton.mp hc; cases hfiled)

theorem Work.filed {commands : List Command}
    (h : state.Work env actorId serverTimeMs command commands) {c : Command} (hc : c ∈ commands)
    {senderId : ActorId} (hfiled : c.filed = some (k, id, senderId)) :
    command.files env.sha256 actorId = some (k, id) ∧ senderId = actorId := by
  cases h with
  | projected => exact projected_filed hc hfiled
  | delivered =>
      obtain ⟨_, -, -, -, _, rfl⟩ := undelivered_cases hc
      cases hfiled

/-- A message that a request adds is one of its actor, filed as the request says. -/
theorem Served.filed {before after : MessagingState}
    (h : Served env actorId serverTimeMs command before after)
    (hold : before.findMessage k id = none) (hnew : after.findMessage k id = some message) :
    command.files env.sha256 actorId = some (k, id) ∧ message.senderId = actorId := by
  cases h with
  | refused => cases hold.symm.trans hnew
  | settling front back hexpired => cases (none_of_expired hexpired hold).symm.trans hnew
  | @working hauthorized commands hwork front back hcommands _ =>
      have hsettled : (before.settled serverTimeMs).findMessage k id = none :=
        none_of_expired (List.append_nil _).symm hold
      have hmem : ∀ c ∈ front, c ∈ commands := fun c hc ↦ by simp [hcommands, hc]
      obtain ⟨c, hc, hfiled⟩ :=
        filed_run (fun c hc ↦ (hwork.routine c (hmem c hc)).inPlace) hsettled hnew
      exact hwork.filed (hmem c hc) hfiled

end MessagingState

/-! ## Runs -/

namespace MessagingService

open MessagingState

variable [MessagingStateStore S] [BlobStore B] {env : ServiceEnv} {store : S}
  {blobStore : Option B} {k : ConversationId} {id : MessageId} {message : Message}

theorem filed_next {s : MessagingService S B} {input : ServiceInput}
    (hold : s.engine.findMessage k id = none)
    (hnew : (next env s input).engine.findMessage k id = some message) :
    input.Files env k id message.senderId := by
  cases input with
  | handle request serverTimeMs =>
      obtain ⟨hfiles, hsender⟩ := (served_handle env request serverTimeMs s).filed hold hnew
      rw [hsender]
      exact ⟨request, serverTimeMs, rfl, rfl, hfiles⟩
  | settle verifier signed serverTimeMs =>
      rw [next] at hnew
      rcases engine_settle env verifier signed serverTimeMs s with hsame | ⟨event, hnext⟩
      · rw [hsame, hold] at hnew
        cases hnew
      · rw [hnext] at hnew
        have hplace : (settlementCommand event serverTimeMs).InPlace := trivial
        cases filed_of_next hplace hold hnew

/-- Every message of a run was filed by a request of its sender. -/
theorem filed_of_run {inputs : List ServiceInput}
    (h : (Runs.run (next env) (empty store blobStore) inputs).engine.findMessage k id =
      some message) : ∃ input ∈ inputs, input.Files env k id message.senderId := by
  induction inputs using List.reverseRecOn generalizing message with
  | nil =>
      rw [Runs.run_nil, empty] at h
      simp [findMessage] at h
  | append_singleton inputs input ih =>
      rw [Runs.run_append, Runs.run_cons, Runs.run_nil] at h
      cases hold : (Runs.run (next env) (empty store blobStore) inputs).engine.findMessage k id with
      | none => exact ⟨input, by simp, filed_next hold h⟩
      | some old =>
          obtain ⟨earlier, hmem, hfiles⟩ := ih hold
          obtain ⟨commands, hrun, hplace⟩ :=
            engine_next env (Runs.run (next env) (empty store blobStore) inputs) input
          obtain ⟨kept, hkept, hkeeps, -⟩ := kept_message_run hplace hold
          rw [hrun] at h
          obtain rfl := Option.some.inj (hkept.symm.trans h)
          rw [hkeeps.senderId]
          exact ⟨earlier, List.mem_append_left _ hmem, hfiles⟩

open Chat in
theorem filed_of_run_greeting :
    ∃ input ∈ opening ++ [send 2 host room.id "m" hello],
      input.Files world room.id (sent host "m") host := by
  have hstored : (reached (opening ++ [send 2 host room.id "m" hello])).engine.findMessage room.id
      (sent host "m") |>.any (·.senderId = host) := by
    decide +kernel
  obtain ⟨message, hfound, hsender⟩ := (Option.any_eq_true _ _).mp hstored
  have hfiled := filed_of_run hfound
  rwa [of_decide_eq_true hsender] at hfiled

end MessagingService

end Fabushi.Messaging
