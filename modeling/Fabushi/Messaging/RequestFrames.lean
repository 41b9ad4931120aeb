import Fabushi.Messaging.Expiry

/-!
# What a request does next to the messages

The settlement before a request changes messages and nothing else. The request then
executes one command, or a chain of commands that send, read or deliver messages.
So a component of the state that such chains leave alone is written by the single
command of a request, on the state the request arrived at.
-/

namespace Fabushi.Messaging

open Effects Result Std

variable {S B : Type}

def EventTag.isPassing : EventTag → Bool
  | .messageQueued | .messageAcknowledged | .deliveryStateUpdated | .conversationRead
  | .walletChanged => true
  | _ => false

def Command.Passing (command : Command) : Prop :=
  ∀ tag ∈ command.eventTags, tag.isPassing = true

theorem Command.passing_of_isChained {command : Command} (h : command.isChained = true) :
    command.Passing := by
  cases command
  case queueMessage | acknowledgeMessage | markRead | setDeliveryState =>
    intro tag htag
    rw [List.mem_singleton.mp htag]
    rfl
  all_goals cases h

namespace MessagingState

/-! ## Components that commands leave alone -/

section Frame

variable {α : Type} {p : MessagingState → α} {writes : EventTag → Bool}

theorem frame_applyAll
    (hframe : ∀ state event, writes event.tag = false → p (apply state event) = p state)
    {events : List Event} (h : ∀ event ∈ events, writes event.tag = false)
    (state : MessagingState) : p (state.applyAll events) = p state := by
  induction events generalizing state with
  | nil => rfl
  | cons event events ih =>
      rw [applyAll, List.foldl_cons]
      exact (ih (fun e he ↦ h e (List.mem_cons_of_mem _ he)) _).trans
        (hframe state event (h event List.mem_cons_self))

theorem frame_next
    (hframe : ∀ state event, writes event.tag = false → p (apply state event) = p state)
    {command : Command} (h : ∀ tag ∈ command.eventTags, writes tag = false)
    (state : MessagingState) : p (state.next command) = p state := by
  unfold next execute
  cases hdecide : state.decide command with
  | error e => rfl
  | ok events =>
      have hwithin := state.decide_eventTags command
      rw [hdecide] at hwithin
      exact frame_applyAll hframe (fun event hevent ↦ h _ (hwithin event hevent)) state

theorem frame_run
    (hframe : ∀ state event, writes event.tag = false → p (apply state event) = p state)
    {commands : List Command} (h : ∀ c ∈ commands, ∀ tag ∈ c.eventTags, writes tag = false)
    (state : MessagingState) : p (Runs.run next state commands) = p state := by
  induction commands generalizing state with
  | nil => rfl
  | cons c commands ih =>
      rw [Runs.run_cons, ih fun c' hc' ↦ h c' (List.mem_cons_of_mem _ hc')]
      exact frame_next hframe (h c List.mem_cons_self) state

theorem frame_passing
    (hframe : ∀ state event, writes event.tag = false → p (apply state event) = p state)
    (hpassing : ∀ tag : EventTag, tag.isPassing = true → writes tag = false)
    {commands : List Command} (h : ∀ c ∈ commands, c.Passing) (state : MessagingState) :
    p (Runs.run next state commands) = p state :=
  frame_run hframe (fun c hc tag htag ↦ hpassing tag (h c hc tag htag)) state

end Frame

/-! ## Requests -/

/-- What a request does up to messages: it executes passing commands, or the single
command it stands for is accepted. -/
inductive ServedOnce (env : ServiceEnv) (actorId : ActorId) (serverTimeMs : Int64)
    (command : ClientCommand) (before : MessagingState) : MessagingState → Prop where
  | passed (messages : BTreeMap ConversationId (BTreeMap MessageId Message))
      (commands : List Command) (hpassing : ∀ c ∈ commands, c.Passing) :
      ServedOnce env actorId serverTimeMs command before
        (Runs.run next { before with messages } commands)
  | single (messages : BTreeMap ConversationId (BTreeMap MessageId Message))
      (hsettled : before.settled serverTimeMs = { before with messages })
      (hauthorized : before.validateCommandAuthorization actorId command = .ok ())
      {c : Command} {events : List Event}
      (hprojected : projectCommand env.sha256 { before with messages } actorId serverTimeMs
        command = [c])
      (hdecide : MessagingState.decide { before with messages } c = .ok events) :
      ServedOnce env actorId serverTimeMs command before (next { before with messages } c)

theorem Served.once {env : ServiceEnv} {actorId : ActorId} {serverTimeMs : Int64}
    {command : ClientCommand} {before after : MessagingState}
    (h : Served env actorId serverTimeMs command before after) (hkeyed : before.Keyed) :
    ServedOnce env actorId serverTimeMs command before after := by
  cases h with
  | refused => exact .passed before.messages [] (List.forall_mem_nil _)
  | settling front back hexpired =>
      obtain ⟨_, messages, events, -, hrun, -, -⟩ := hkeyed.runAll_expired_front hexpired
      have hall := runAll_ok (congrArg Prod.snd hrun)
      rw [hrun] at hall
      rw [← hall]
      exact .passed messages [] (List.forall_mem_nil _)
  | @working hauthorized commands hwork front back hcommands haccepted =>
      obtain ⟨⟨messages, hsettled⟩, -⟩ := hkeyed.settled_eq serverTimeMs
      rw [hsettled] at hwork haccepted ⊢
      rcases hwork.single_or_chained with ⟨c, hprojected, hone⟩ | hchained
      · rcases List.singleton_eq_append_iff.mp (hone.symm.trans hcommands) with
          ⟨rfl, -⟩ | ⟨rfl, -⟩
        · exact .passed messages [] (List.forall_mem_nil _)
        · obtain ⟨⟨events, hdecide⟩, -⟩ := haccepted
          rw [Runs.run_cons, Runs.run_nil]
          exact .single messages hsettled hauthorized hprojected hdecide
      · refine .passed messages front fun c hc ↦ ?_
        exact Command.passing_of_isChained (hchained c (by simp [hcommands, hc]))

end MessagingState

/-! ## Inputs -/

namespace MessagingService

open MessagingState

variable [MessagingStateStore S] [BlobStore B]

inductive Enacts (env : ServiceEnv) (before : MessagingState) :
    ServiceInput → MessagingState → Prop where
  | passed {input : ServiceInput}
      (messages : BTreeMap ConversationId (BTreeMap MessageId Message))
      (commands : List Command) (hpassing : ∀ c ∈ commands, c.Passing) :
      Enacts env before input (Runs.run MessagingState.next { before with messages } commands)
  | single {request : ClientEnvelope} {serverTimeMs : Int64}
      (hversion : request.protocolVersion = protocolVersion)
      (messages : BTreeMap ConversationId (BTreeMap MessageId Message))
      (hsettled : before.settled serverTimeMs = { before with messages })
      (hauthorized : before.validateCommandAuthorization request.context.actorId
        request.command = .ok ())
      {c : Command} {events : List Event}
      (hprojected : projectCommand env.sha256 { before with messages } request.context.actorId
        serverTimeMs request.command = [c])
      (hdecide : MessagingState.decide { before with messages } c = .ok events) :
      Enacts env before (.handle request serverTimeMs)
        (MessagingState.next { before with messages } c)

theorem enacts_next (env : ServiceEnv) {s : MessagingService S B} (hkeyed : s.engine.Keyed)
    (input : ServiceInput) : Enacts env s.engine input (next env s input).engine := by
  cases input with
  | handle request serverTimeMs =>
      by_cases hversion : request.protocolVersion = protocolVersion
      · have honce := (served_handle env request serverTimeMs s).once hkeyed
        rw [next]
        generalize (after (handle env request serverTimeMs) s).engine = engine at honce ⊢
        cases honce with
        | passed messages commands hpassing => exact .passed messages commands hpassing
        | single messages hsettled hauthorized hprojected hdecide =>
            exact .single hversion messages hsettled hauthorized hprojected hdecide
      · rw [next, handle, if_pos hversion]
        exact .passed s.engine.messages [] (List.forall_mem_nil _)
  | settle verifier signed serverTimeMs =>
      rw [next]
      rcases engine_settle env verifier signed serverTimeMs s with hsame | ⟨event, hnext⟩
      · rw [hsame]
        exact .passed s.engine.messages [] (List.forall_mem_nil _)
      · rw [hnext]
        refine .passed s.engine.messages [settlementCommand event serverTimeMs] fun c hc ↦ ?_
        intro tag htag
        rw [List.mem_singleton.mp hc] at htag
        rw [List.mem_singleton.mp htag]
        rfl

end MessagingService

end Fabushi.Messaging
