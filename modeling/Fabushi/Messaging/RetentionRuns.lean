import Fabushi.Messaging.Expiry
import Fabushi.Library.Sha256

/-!
# Retention along the runs of the service

A stored message keeps its sender and its deadline and stays deleted once it is
deleted; its deadline was computed from the policy of its conversation when it was
added. The policy itself is fenced by a revision, but the record that holds both is
also replaced as a whole when a conversation is created or updated again.
-/

namespace Fabushi.Messaging

open Effects MachineInt Result Std

variable {S B : Type}

/-! ## Deadlines -/

/-- The deadline that a policy of `seconds` gives to a message with base time `baseMs`. -/
def RetentionDeadline (seconds : Option UInt32) (baseMs : Int64) (expiresAtMs : Option Int64) :
    Prop :=
  match seconds with
  | none => expiresAtMs = none
  | some seconds => ∃ deadline, expiresAtMs = some deadline ∧
      deadline.toInt = baseMs.toInt + 1000 * seconds.toNat

theorem toInt_ofNat_seconds (seconds : UInt32) :
    (Int64.ofNat seconds.toNat).toInt = seconds.toNat := by
  have hlt := seconds.toNat_lt
  exact Int64.toInt_ofNat_of_lt (by omega)

theorem retentionDeadline_of_messageExpiry {seconds : Option UInt32} {baseMs : Int64}
    {expiresAtMs : Option Int64} (h : messageExpiry seconds baseMs = .ok expiresAtMs) :
    RetentionDeadline seconds baseMs expiresAtMs := by
  cases seconds with
  | none => exact (Except.ok.inj h).symm
  | some seconds =>
      obtain ⟨policy, hpolicy, h⟩ := bind_eq_ok.mp h
      obtain ⟨deadline, hdeadline, h⟩ := bind_eq_ok.mp h
      obtain ⟨ttlMs, httl, hadd⟩ := bind_eq_ok.mp hdeadline
      have hseconds : policy.seconds = seconds := by
        unfold MessageRetentionPolicy.new at hpolicy
        split at hpolicy
        · rw [← Except.ok.inj hpolicy]
        · cases hpolicy
      have hms : ttlMs.toInt = seconds.toNat * 1000 := by
        rw [tryFrom_eq_some.mp (okOr_eq_ok.mp httl), hseconds, toInt_ofNat_seconds]
        rfl
      refine ⟨deadline, (Except.ok.inj h).symm, ?_⟩
      rw [checkedAdd_eq_some.mp (okOr_eq_ok.mp hadd), hms, Int.mul_comm]

/-! ## The record of a conversation -/

def ClientCommand.replacement (state : MessagingState) : ClientCommand → Option Conversation
  | .createConversation conversation => some conversation
  | .updateConversation conversation =>
      if state.communities.contains conversation.id then none else some conversation
  | _ => none

namespace MessagingState

variable {env : ServiceEnv} {actorId : ActorId} {serverTimeMs : Int64} {command : ClientCommand}
  {before after : MessagingState}

def Replaces (state : MessagingState) (actorId : ActorId) (command : ClientCommand)
    (conversation : Conversation) : Prop :=
  command.replacement state = some conversation ∧
    (state.validateCommandAuthorization actorId command).isOk = true ∧
    (state.decide (.upsertConversation conversation)).isOk = true

instance (state : MessagingState) (actorId : ActorId) (command : ClientCommand)
    (conversation : Conversation) : Decidable (state.Replaces actorId command conversation) :=
  inferInstanceAs (Decidable (_ ∧ _ ∧ _))

theorem projected_upsert {state : MessagingState} {sha256 : List UInt8 → List UInt8}
    {conversation : Conversation}
    (h : .upsertConversation conversation ∈
      state.projectCommand sha256 actorId serverTimeMs command) :
    state.projectCommand sha256 actorId serverTimeMs command = [.upsertConversation conversation] ∧
      command.replacement state = some conversation := by
  cases command
  case createConversation =>
    cases List.mem_singleton.mp h
    exact ⟨rfl, rfl⟩
  case updateConversation =>
    simp only [projectCommand] at h ⊢
    split at h
    · cases List.mem_singleton.mp h
    · rename_i hcommunity
      cases List.mem_singleton.mp h
      exact ⟨if_neg hcommunity, if_neg hcommunity⟩
  case sendMessage => simp [projectCommand, projectSendMessage] at h
  case markRead =>
    simp only [projectCommand, projectMarkRead, List.mem_cons, reduceCtorEq, false_or] at h
    split at h
    · cases List.mem_singleton.mp h
    · cases h
  all_goals
    first
    | cases h; done
    | cases List.mem_singleton.mp h

inductive ServedConversation (actorId : ActorId) (serverTimeMs : Int64) (command : ClientCommand)
    (k : ConversationId) (before after : MessagingState) : Prop where
  | kept (hkept : KeptConversation before.conversations[k]? after.conversations[k]?)
  | retained {old new : Conversation} (hold : before.conversations[k]? = some old)
      (hnew : after.conversations[k]? = some new)
      (hcommand : command = .setConversationMessageRetention k new.messageRetentionSeconds
        old.retentionRevision)
      (hkind : new.kind = old.kind) (hseconds : new.messageRetentionSeconds ≠ some 0)
      (hrevision : new.retentionRevision.toNat = old.retentionRevision.toNat + 1)
  | replaced {conversation : Conversation} (hid : conversation.id = k)
      (hreplaces : before.Replaces actorId command conversation)
      (hnew : after.conversations[k]? = some conversation)
      (hafter : after = (before.settled serverTimeMs).next (.upsertConversation conversation))

theorem replaces_settled (hkeyed : before.Keyed)
    (hauthorized : before.validateCommandAuthorization actorId command = .ok ())
    {conversation : Conversation}
    (hreplacement : command.replacement (before.settled serverTimeMs) = some conversation)
    {events : List Event}
    (hdecide : (before.settled serverTimeMs).decide (.upsertConversation conversation) =
      .ok events) : before.Replaces actorId command conversation := by
  obtain ⟨⟨messages, hsettled⟩, -⟩ := hkeyed.settled_eq serverTimeMs
  rw [hsettled] at hreplacement hdecide
  have hsame : command.replacement { before with messages } = command.replacement before := by
    cases command <;> rfl
  have hdecided : before.decide (.upsertConversation conversation) = .ok events := hdecide
  exact ⟨hsame ▸ hreplacement, by rw [hauthorized]; rfl, by rw [hdecided]; rfl⟩

theorem Served.conversation (h : Served env actorId serverTimeMs command before after)
    (hkeyed : before.Keyed) (k : ConversationId) :
    ServedConversation actorId serverTimeMs command k before after := by
  cases h with
  | refused => exact .kept (.refl _)
  | settling front back hexpired =>
      refine .kept (kept_conversation_run (fun c hc ↦ ?_) before k)
      have hmem : c ∈ MessagingService.expiredMessages before serverTimeMs := by
        rw [hexpired]
        exact List.mem_append_left _ hc
      exact (routine_expired c hmem).2
  | @working hauthorized commands hwork front back hcommands _ =>
      have hsettled := kept_conversation_settled before serverTimeMs k
      rcases List.eq_nil_or_concat front with rfl | ⟨front, c, rfl⟩
      · exact .kept hsettled
      · rw [List.concat_eq_append, List.append_assoc, List.singleton_append] at hcommands
        have hfront := (kept_conversation_run (hwork.steady hcommands)
          (before.settled serverTimeMs) k)
        have hc : c ∈ commands := by simp [hcommands]
        have hnext := nextConversation (Runs.run next (before.settled serverTimeMs) front) c k
        rw [List.concat_eq_append, Runs.run_append, Runs.run_cons, Runs.run_nil]
        generalize hold : (Runs.run next (before.settled serverTimeMs) front).conversations[k]? =
          old at hnext hfront
        generalize hnew : ((Runs.run next (before.settled serverTimeMs) front).next
          c).conversations[k]? = new at hnext
        have hkept := hsettled.trans hfront
        cases hnext with
        | kept hlast =>
            rw [← hnew] at hlast
            exact .kept (hkept.trans hlast)
        | @retained old seconds expected hcommand hexpected hseconds hroom =>
            subst hcommand
            rcases hkept with ⟨-, hnone⟩ | ⟨first, second, hfirst, hsecond, hkeeps⟩
            · cases hnone
            · obtain rfl := Option.some.inj hsecond
              refine .retained hfirst hnew ?_ hkeeps.kind hseconds ?_
              · cases hwork with
                | projected =>
                    rw [← hkeeps.revision, ← hexpected]
                    exact projected_origin hc rfl
                | delivered =>
                    obtain ⟨_, -, -, -, _, hother⟩ := undelivered_cases hc
                    cases hother
              · rw [← hkeeps.revision]
                rw [UInt64.toNat_add]
                exact Nat.mod_eq_of_lt hroom
        | @upserted _ conversation hcommand hid =>
            subst hcommand
            cases hwork with
            | delivered =>
                obtain ⟨_, -, -, -, _, hother⟩ := undelivered_cases hc
                cases hother
            | projected =>
                obtain ⟨honly, hreplacement⟩ := projected_upsert hc
                obtain rfl : front = [] := by
                  have hlength := congrArg List.length (honly.symm.trans hcommands)
                  simp only [List.length_append, List.length_cons, List.length_nil] at hlength
                  exact List.eq_nil_of_length_eq_zero (by omega)
                cases hdecide : (before.settled serverTimeMs).decide
                    (.upsertConversation conversation) with
                | error error =>
                    refine .kept ?_
                    rw [Runs.run_nil, next, execute, hdecide]
                    exact hsettled
                | ok events =>
                    exact .replaced hid (replaces_settled hkeyed hauthorized hreplacement hdecide)
                      hnew rfl

end MessagingState

namespace MessagingService

open MessagingState

variable [MessagingStateStore S] [BlobStore B] {env : ServiceEnv} {store : S}
  {blobStore : Option B} {inputs : List ServiceInput} {s : MessagingService S B}
  {input : ServiceInput}

theorem created_next (env : ServiceEnv) (s : MessagingService S B) (input : ServiceInput)
    {k : ConversationId} {id : MessageId} {message : Message}
    (hold : s.engine.findMessage k id = none)
    (hnew : (next env s input).engine.findMessage k id = some message) :
    ∃ conversation, s.engine.conversations[k]? = some conversation ∧
      RetentionDeadline conversation.messageRetentionSeconds
        (message.scheduledAtMs.getD message.createdAtMs) message.expiresAtMs := by
  cases input with
  | handle request serverTimeMs =>
      obtain ⟨conversation, hfound, hstamped⟩ :=
        (served_handle env request serverTimeMs s).created hold hnew
      refine ⟨conversation, hfound, ?_⟩
      rw [hstamped.created]
      exact retentionDeadline_of_messageExpiry hstamped.deadline
  | settle verifier signed serverTimeMs =>
      rw [next] at hnew
      rcases engine_settle env verifier signed serverTimeMs s with hsame | ⟨event, hnext⟩
      · rw [hsame] at hnew
        cases hold.symm.trans hnew
      · rw [hnext] at hnew
        have hplace : (settlementCommand event serverTimeMs).InPlace := trivial
        have hstep := nextMessage s.engine hplace k id
        rw [hold, hnew] at hstep
        cases hstep with
        | queued _ _ _ hqueues => cases hqueues.created

theorem kept_message_inputs (env : ServiceEnv) (s : MessagingService S B)
    (later : List ServiceInput) {k : ConversationId} {id : MessageId} {message : Message}
    (h : s.engine.findMessage k id = some message) :
    ∃ message', (Runs.run (next env) s later).engine.findMessage k id = some message' ∧
      message.Keeps message' ∧ (message.id = id → message'.id = id) := by
  induction later generalizing s message with
  | nil => exact ⟨message, h, .refl message, fun h ↦ h⟩
  | cons input later ih =>
      obtain ⟨commands, hrun, hplace⟩ := engine_next env s input
      obtain ⟨middle, hmiddle, hkeeps, -, hid⟩ := kept_message_run hplace h
      rw [← hrun] at hmiddle
      obtain ⟨message', hfound, hkeeps', hid'⟩ := ih (next env s input) hmiddle
      exact ⟨message', hfound, hkeeps.trans hkeeps', fun h ↦ hid' (hid h)⟩

/-- Along every run a stored message stays stored, with its sender and its deadline,
and deleted if it was deleted; and the deadline is the one its conversation asked for
when the message was added. -/
theorem messages_immutable (env : ServiceEnv) (store : S) (blobStore : Option B)
    (inputs : List ServiceInput) :
    let s := Runs.run (next env) (empty store blobStore) inputs
    (∀ (later : List ServiceInput) (k : ConversationId) (id : MessageId) (message : Message),
      s.engine.findMessage k id = some message →
        message.id = id ∧
        ∃ message', (Runs.run (next env) s later).engine.findMessage k id = some message' ∧
          message'.id = id ∧ message'.senderId = message.senderId ∧
          message'.expiresAtMs = message.expiresAtMs ∧
          (message.deleted = true → message'.deleted = true)) ∧
    ∀ (input : ServiceInput) (k : ConversationId) (id : MessageId) (message : Message),
      s.engine.findMessage k id = none →
      (next env s input).engine.findMessage k id = some message →
        ∃ conversation, s.engine.conversations[k]? = some conversation ∧
          RetentionDeadline conversation.messageRetentionSeconds
            (message.scheduledAtMs.getD message.createdAtMs) message.expiresAtMs := by
  intro s
  constructor
  · intro later k id message hmessage
    have hkeyed : s.engine.Keyed := keyed_run inputs
    have hid := (hkeyed k id message hmessage).1
    obtain ⟨message', hfound, hkeeps, hid'⟩ := kept_message_inputs env s later hmessage
    exact ⟨hid, message', hfound, hid' hid, hkeeps.senderId, hkeeps.expiresAtMs, hkeeps.deleted⟩
  · intro input k id message hold hnew
    exact created_next env s input hold hnew

/-! ## The fence of the retention policy -/

/-- What an input may do to the retention of the conversation `k`. -/
structure Fenced (input : ServiceInput) (k : ConversationId) (old new : Option Conversation) :
    Prop where
  changed : ∀ a, old = some a → ∃ b, new = some b ∧
    ((b.messageRetentionSeconds = a.messageRetentionSeconds ∧
        b.retentionRevision = a.retentionRevision) ∨
      ∃ request serverTimeMs, input = .handle request serverTimeMs ∧
        request.command = .setConversationMessageRetention k b.messageRetentionSeconds
          a.retentionRevision ∧
        b.retentionRevision.toNat = a.retentionRevision.toNat + 1)
  nonzero : ∀ b, new = some b → b.messageRetentionSeconds ≠ some 0

/-- A record that carries the retention of the one it replaces, or starts with an
admissible policy. -/
def CarriesRetention (old : Option Conversation) (new : Conversation) : Prop :=
  match old with
  | some old => new.messageRetentionSeconds = old.messageRetentionSeconds ∧
      new.retentionRevision = old.retentionRevision
  | none => new.messageRetentionSeconds ≠ some 0

instance (old : Option Conversation) (new : Conversation) :
    Decidable (CarriesRetention old new) :=
  match old with
  | some _ => inferInstanceAs (Decidable (_ ∧ _))
  | none => inferInstanceAs (Decidable (_ ≠ _))

def CarriesRetentionOver (s : MessagingService S B) : ServiceInput → Prop
  | .settle .. => True
  | .handle request _ => request.protocolVersion = protocolVersion →
      ∀ conversation ∈ request.command.replacement s.engine,
        s.engine.Replaces request.context.actorId request.command conversation →
          CarriesRetention s.engine.conversations[conversation.id]? conversation

instance (s : MessagingService S B) (input : ServiceInput) :
    Decidable (s.CarriesRetentionOver input) :=
  match input with
  | .settle .. => inferInstanceAs (Decidable True)
  | .handle request _ => inferInstanceAs (Decidable (_ → ∀ conversation ∈
      request.command.replacement s.engine, _ → _))

def PoliciesNonzero (s : MessagingService S B) : Prop :=
  ∀ (k : ConversationId) (conversation : Conversation),
    s.engine.conversations[k]? = some conversation →
      conversation.messageRetentionSeconds ≠ some 0

theorem fenced_of_kept {k : ConversationId} {old new : Option Conversation}
    (hold : ∀ a, old = some a → a.messageRetentionSeconds ≠ some 0) (h : KeptConversation old new)
    (input : ServiceInput) : Fenced input k old new := by
  rcases h with ⟨rfl, rfl⟩ | ⟨a, b, rfl, rfl, hkeeps⟩
  · constructor
    · intro a ha
      cases ha
    · intro b hb
      cases hb
  · constructor
    · intro x hx
      obtain rfl := Option.some.inj hx
      exact ⟨b, rfl, .inl ⟨hkeeps.seconds, hkeeps.revision⟩⟩
    · intro x hx
      obtain rfl := Option.some.inj hx
      rw [hkeeps.seconds]
      exact hold a rfl

omit [MessagingStateStore S] [BlobStore B] in
theorem fenced_of_served {request : ClientEnvelope} {serverTimeMs : Int64} {after : MessagingState}
    {k : ConversationId} (hpolicies : s.PoliciesNonzero)
    (hversion : request.protocolVersion = protocolVersion)
    (hcarries : s.CarriesRetentionOver (.handle request serverTimeMs))
    (h : ServedConversation request.context.actorId serverTimeMs request.command k s.engine after) :
    Fenced (.handle request serverTimeMs) k s.engine.conversations[k]?
      after.conversations[k]? := by
  cases h with
  | kept hkept => exact fenced_of_kept (hpolicies k) hkept _
  | retained hold hnew hcommand _ hseconds hrevision =>
      rw [hold, hnew]
      constructor
      · intro x hx
        obtain rfl := Option.some.inj hx
        exact ⟨_, rfl, .inr ⟨request, serverTimeMs, rfl, hcommand, hrevision⟩⟩
      · intro x hx
        obtain rfl := Option.some.inj hx
        exact hseconds
  | @replaced conversation hid hreplaces hnew =>
      have hcarried := hcarries hversion conversation hreplaces.1 hreplaces
      rw [hid] at hcarried
      rw [hnew]
      cases hold : s.engine.conversations[k]? with
      | none =>
          rw [hold] at hcarried
          constructor
          · intro a ha
            cases ha
          · intro x hx
            obtain rfl := Option.some.inj hx
            exact hcarried
      | some old =>
          rw [hold] at hcarried
          constructor
          · intro x hx
            obtain rfl := Option.some.inj hx
            exact ⟨conversation, rfl, .inl hcarried⟩
          · intro x hx
            obtain rfl := Option.some.inj hx
            rw [hcarried.1]
            exact hpolicies k old hold

theorem fenced_next (hkeyed : s.engine.Keyed) (hpolicies : s.PoliciesNonzero)
    (hcarries : s.CarriesRetentionOver input) (k : ConversationId) :
    Fenced input k s.engine.conversations[k]? (next env s input).engine.conversations[k]? := by
  cases input with
  | handle request serverTimeMs =>
      by_cases hversion : request.protocolVersion = protocolVersion
      · have hserved := served_handle env request serverTimeMs s
        exact fenced_of_served hpolicies hversion hcarries (hserved.conversation hkeyed k)
      · apply fenced_of_kept (hpolicies k)
        rw [next, handle, if_pos hversion]
        exact .refl _
  | settle verifier signed serverTimeMs =>
      apply fenced_of_kept (hpolicies k)
      rw [next]
      rcases engine_settle env verifier signed serverTimeMs s with hsame | ⟨event, hnext⟩
      · rw [hsame]
        exact .refl _
      · rw [hnext]
        exact kept_conversation_next s.engine rfl k

/-- In a run whose requests all carry the retention over, only the fenced change writes
the retention of a conversation. -/
theorem retention_fenced
    (hrun : Runs.Along (next env) CarriesRetentionOver (empty store blobStore) inputs)
    (ht : Takes env store blobStore inputs s input) (k : ConversationId) :
    Fenced input k s.engine.conversations[k]? (next env s input).engine.conversations[k]? := by
  have hstep : ∀ (t : MessagingService S B) (i : ServiceInput),
      (t.engine.Keyed ∧ t.PoliciesNonzero) → t.CarriesRetentionOver i →
        (next env t i).engine.Keyed ∧ (next env t i).PoliciesNonzero := by
    rintro t i ⟨hkeyed, hpolicies⟩ hcarries
    exact ⟨keyed_next env hkeyed i, fun k ↦ (fenced_next hkeyed hpolicies hcarries k).nonzero⟩
  have hstart : (empty store blobStore).engine.Keyed ∧ (empty store blobStore).PoliciesNonzero :=
    ⟨keyed_empty, fun k conversation h ↦ by simp [empty] at h⟩
  obtain ⟨hkeyed, hpolicies⟩ := Runs.invariant_takes hstep hstart hrun ht
  exact fenced_next hkeyed hpolicies (hrun.takes ht) k

end MessagingService

/-! ## A conversation on the wire -/

namespace Chat

def host : ActorId := ⟨"host"⟩
def guest : ActorId := ⟨"guest"⟩
def stranger : ActorId := ⟨"stranger"⟩

def world : ServiceEnv :=
  { Market.world [] with sha256 := Sha256.digest }

def request (serverTimeMs : Int64) (actorId : ActorId) (command : ClientCommand) : ServiceInput :=
  .handle
    { protocolVersion
      context :=
        { requestId := "1", deviceId := "d", actorId, sessionId := "s", sentAtMs := serverTimeMs }
      command } serverTimeMs

def profile (actorId : ActorId) : ServiceInput :=
  request 0 actorId (.upsertProfile { id := actorId, kind := .human, displayName := actorId.value })

def room : Conversation :=
  { id := ⟨"room"⟩, kind := .group, title := "room"
    participants := [⟨host, .owner, 1, none⟩, ⟨guest, .member, 1, none⟩]
    createdAtMs := 1, updatedAtMs := 1 }

def hello : MessageContent :=
  .text { text := "hello" }

def send (serverTimeMs : Int64) (actorId : ActorId) (k : ConversationId) (clientMessageId : String)
    (content : MessageContent) : ServiceInput :=
  request serverTimeMs actorId
    (.sendMessage k ⟨clientMessageId⟩ content none none none false false)

def sent (actorId : ActorId) (clientMessageId : String) : MessageId :=
  stableMessageId world.sha256 actorId ⟨clientMessageId⟩

def setRetention (seconds : UInt32) : ServiceInput :=
  request 1 host (.setConversationMessageRetention room.id (some seconds) 0)

def opening : List ServiceInput :=
  [profile host, profile guest, profile stranger, request 1 host (.createConversation room),
    setRetention 60]

def reopening : ServiceInput :=
  request 2 host (.createConversation room)

def reached (inputs : List ServiceInput) : MessagingService MemoryStateStore Empty :=
  Runs.run (MessagingService.next world) (MessagingService.empty {} none) inputs

end Chat

namespace MessagingService

open Chat in
theorem retention_fenced_opening :
    Fenced (setRetention 60) room.id
      (reached (opening.take 4)).engine.conversations[room.id]?
      (reached opening).engine.conversations[room.id]? :=
  have hcarries : Runs.Along (next world) CarriesRetentionOver
      (empty ({} : MemoryStateStore) (none : Option Empty)) opening := by decide +kernel
  retention_fenced hcarries ⟨opening.take 4, [], rfl, rfl⟩ room.id

open Chat in
/-- A room that is created again takes the policy and the revision of the new record. -/
theorem retention_overwritten :
    ¬ ∀ (inputs : List ServiceInput) (s : MessagingService MemoryStateStore Empty)
      (input : ServiceInput), Takes world {} none inputs s input → ∀ k : ConversationId,
      Fenced input k s.engine.conversations[k]? (next world s input).engine.conversations[k]? := by
  intro hclaim
  have hfenced := hclaim (opening ++ [reopening]) (reached opening) reopening
    ⟨opening, [], rfl, rfl⟩ room.id
  have hbefore : (reached opening).engine.conversations[room.id]?.any (fun conversation ↦
      conversation.retentionRevision = 1) := by decide +kernel
  have hafter : (next world (reached opening) reopening).engine.conversations[room.id]?.all
      (fun conversation ↦ conversation.retentionRevision = 0) := by decide +kernel
  obtain ⟨old, hold, hone⟩ := (Option.any_eq_true _ _).mp hbefore
  obtain ⟨new, hnew, hchange⟩ := hfenced.changed old hold
  rw [hnew, Option.all_some] at hafter
  rcases hchange with ⟨-, hsame⟩ | ⟨_, _, hrequest, hcommand, -⟩
  · rw [of_decide_eq_true hone, of_decide_eq_true hafter] at hsame
    cases hsame
  · cases hrequest
    cases hcommand

end MessagingService

end Fabushi.Messaging
