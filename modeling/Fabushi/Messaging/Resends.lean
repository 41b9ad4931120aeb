import Fabushi.Messaging.SecretDiscipline

/-!
# Sending a message again

A message that is sent again is answered from the stored one, if the stored one is what
the request asks for. Storing a message protects secret content by itself, so a request
that leaves the protection of secret content open differs from what it has stored.
-/

namespace Fabushi.Messaging

open Effects Result Std

variable {S B : Type}

structure Sending where
  conversationId : ConversationId
  clientMessageId : ClientMessageId
  content : MessageContent
  replyToMessageId : Option MessageId := none
  threadRootMessageId : Option MessageId := none
  scheduledAtMs : Option Int64 := none
  silent : Bool := false
  protectedContent : Bool := false

namespace Sending

def command (sending : Sending) : ClientCommand :=
  .sendMessage sending.conversationId sending.clientMessageId sending.content
    sending.replyToMessageId sending.threadRootMessageId sending.scheduledAtMs sending.silent
    sending.protectedContent

def stored (sending : Sending) (sha256 : List UInt8 → List UInt8) (actorId : ActorId)
    (state : MessagingState) : Option Message :=
  (state.findMessage sending.conversationId
    (stableMessageId sha256 actorId sending.clientMessageId)).or
    (state.findMessage sending.conversationId (legacyMessageId sending.clientMessageId))

structure Matches (sending : Sending) (actorId : ActorId) (message : Message) : Prop where
  senderId : message.senderId = actorId
  content : message.content.same sending.content = true
  replyToMessageId : message.replyToMessageId = sending.replyToMessageId
  threadRootMessageId : message.threadRootMessageId = sending.threadRootMessageId
  scheduledAtMs : message.scheduledAtMs = sending.scheduledAtMs
  silent : message.silent = sending.silent
  protectedContent : message.protectedContent = sending.protectedContent

structure Stores (sending : Sending) (actorId : ActorId) (message : Message) : Prop where
  senderId : message.senderId = actorId
  content : message.content = sending.content
  replyToMessageId : message.replyToMessageId = sending.replyToMessageId
  threadRootMessageId : message.threadRootMessageId = sending.threadRootMessageId
  scheduledAtMs : message.scheduledAtMs = sending.scheduledAtMs
  silent : message.silent = sending.silent
  protectedContent : message.protectedContent =
    (sending.protectedContent || sending.content.isSecret)
  undeleted : message.deleted = false

def Stable (sending : Sending) : Prop :=
  (sending.content.isSecret = true → sending.protectedContent = true) ∧
    sending.content.same sending.content = true

instance (sending : Sending) : Decidable sending.Stable :=
  inferInstanceAs (Decidable (_ ∧ _))

variable {sending : Sending} {actorId : ActorId} {message : Message}

theorem Stores.matches_iff (h : sending.Stores actorId message) :
    sending.Matches actorId message ↔ sending.Stable := by
  constructor
  · rintro ⟨-, hcontent, -, -, -, -, hprotected⟩
    rw [h.content] at hcontent
    rw [h.protectedContent] at hprotected
    refine ⟨fun hsecret ↦ ?_, hcontent⟩
    rwa [hsecret, Bool.or_true, eq_comm] at hprotected
  · rintro ⟨hsecret, hcontent⟩
    refine ⟨h.senderId, by rwa [h.content], h.replyToMessageId, h.threadRootMessageId,
      h.scheduledAtMs, h.silent, ?_⟩
    rw [h.protectedContent]
    cases hkind : sending.content.isSecret with
    | false => exact Bool.or_false _
    | true => rw [hsecret hkind, Bool.true_or]

end Sending

def Message.Untouched (old new : Message) : Prop :=
  new = { old with
    deliveryState := new.deliveryState
    reactions := new.reactions
    pinned := new.pinned }

instance (old new : Message) : Decidable (old.Untouched new) :=
  inferInstanceAs (Decidable (_ = _))

namespace Message.Untouched

variable {old new : Message}

theorem id (h : old.Untouched new) : new.id = old.id := by
  rw [h]

theorem deleted (h : old.Untouched new) : new.deleted = old.deleted := by
  rw [h]

theorem expiresAtMs (h : old.Untouched new) : new.expiresAtMs = old.expiresAtMs := by
  rw [h]

theorem isExpiredAt (h : old.Untouched new) (now : Int64) :
    new.isExpiredAt now = old.isExpiredAt now := by
  unfold Message.isExpiredAt
  rw [h.expiresAtMs]

theorem stores {sending : Sending} {actorId : ActorId} (h : old.Untouched new)
    (hold : sending.Stores actorId old) : sending.Stores actorId new := by
  rw [h]
  exact ⟨hold.senderId, hold.content, hold.replyToMessageId, hold.threadRootMessageId,
    hold.scheduledAtMs, hold.silent, hold.protectedContent, hold.undeleted⟩

theorem matching {sending : Sending} {actorId : ActorId} (h : old.Untouched new)
    (hold : sending.Matches actorId old) : sending.Matches actorId new := by
  rw [h]
  exact ⟨hold.senderId, hold.content, hold.replyToMessageId, hold.threadRootMessageId,
    hold.scheduledAtMs, hold.silent, hold.protectedContent⟩

end Message.Untouched

namespace MessagingService

open MessagingState

variable {env : ServiceEnv} {s : MessagingService S B} {sending : Sending} {actorId : ActorId}
  {message : Message} {serverTimeMs : Int64}

/-! ## The answer from the stored message -/

theorem replay_of_none (h : sending.stored env.sha256 actorId s.engine = none) :
    s.idempotentSendReplay env actorId sending.command serverTimeMs = .ok none := by
  unfold Sending.stored at h
  unfold idempotentSendReplay Sending.command
  dsimp only
  rw [h]

theorem replay_of_expired (h : sending.stored env.sha256 actorId s.engine = some message)
    (hexpired : (message.deleted && message.isExpiredAt serverTimeMs) = true) :
    s.idempotentSendReplay env actorId sending.command serverTimeMs =
      .ok (some [envelope s.cursor serverTimeMs
        (.messagesDeleted sending.conversationId [message.id])]) := by
  unfold Sending.stored at h
  unfold idempotentSendReplay Sending.command
  dsimp only
  rw [h]
  exact if_pos hexpired

theorem replay_of_matches (h : sending.stored env.sha256 actorId s.engine = some message)
    (hlive : (message.deleted && message.isExpiredAt serverTimeMs) = false)
    (hmatches : sending.Matches actorId message) :
    s.idempotentSendReplay env actorId sending.command serverTimeMs =
      .ok (some [envelope s.cursor serverTimeMs (.messageChanged message)]) := by
  unfold Sending.stored at h
  unfold idempotentSendReplay Sending.command
  dsimp only
  rw [h]
  dsimp only
  rw [hlive, hmatches.senderId, hmatches.content, hmatches.replyToMessageId,
    hmatches.threadRootMessageId, hmatches.scheduledAtMs, hmatches.silent,
    hmatches.protectedContent]
  simp

variable (serverTimeMs) in
theorem replay_of_not_matches (h : sending.stored env.sha256 actorId s.engine = some message)
    (hlive : (message.deleted && message.isExpiredAt serverTimeMs) = false)
    (hdiffers : ¬ sending.Matches actorId message) :
    s.idempotentSendReplay env actorId sending.command serverTimeMs =
      .error (.idempotencyConflict sending.clientMessageId.value) := by
  unfold Sending.stored at h
  unfold idempotentSendReplay Sending.command
  dsimp only
  rw [h]
  dsimp only
  rw [hlive, if_neg Bool.false_ne_true]
  refine if_pos ?_
  by_contra hsame
  simp only [Bool.or_eq_true, decide_eq_true_eq, not_or, ne_eq, not_not, Bool.not_eq_true',
    Bool.not_eq_false, bne_iff_ne] at hsame
  obtain ⟨⟨⟨⟨⟨⟨hsender, hcontent⟩, hreply⟩, hroot⟩, hscheduled⟩, hsilent⟩, hprotected⟩ := hsame
  exact hdiffers ⟨hsender, hcontent, hreply, hroot, hscheduled, hsilent, hprotected⟩

end MessagingService

namespace MessagingState

variable {state : MessagingState} {sending : Sending} {actorId : ActorId} {serverTimeMs : Int64}
  {sha256 : List UInt8 → List UInt8}

theorem stores_of_decide {events : List Event} {messageId : MessageId} {createdAtMs : Int64}
    (h : state.decide (.queueMessage sending.conversationId messageId sending.clientMessageId
      actorId sending.content sending.replyToMessageId sending.threadRootMessageId createdAtMs
      sending.scheduledAtMs sending.silent sending.protectedContent) = .ok events) :
    ∃ message, events = [.messageQueued message] ∧ message.id = messageId ∧
      message.conversationId = sending.conversationId ∧ sending.Stores actorId message := by
  obtain ⟨_, -, h⟩ := bind_eq_ok.mp h
  obtain ⟨_, -, h⟩ := bind_eq_ok.mp h
  obtain ⟨_, -, h⟩ := bind_eq_ok.mp h
  obtain ⟨_, -, h⟩ := bind_eq_ok.mp h
  obtain ⟨_, -, h⟩ := bind_eq_ok.mp h
  obtain ⟨_, -, h⟩ := bind_eq_ok.mp h
  obtain ⟨_, -, h⟩ := bind_eq_ok.mp h
  obtain ⟨_, -, h⟩ := bind_eq_ok.mp h
  obtain ⟨_, -, h⟩ := bind_eq_ok.mp h
  obtain ⟨_, -, h⟩ := bind_eq_ok.mp h
  exact ⟨_, (Except.ok.inj h).symm, rfl, rfl, ⟨rfl, rfl, rfl, rfl, rfl, rfl, rfl, rfl⟩⟩

theorem stored_of_runAll {events : List Event}
    (h : (state.runAll (state.projectCommand sha256 actorId serverTimeMs sending.command)).2 =
      .ok events) :
    ∃ message, (Runs.run next state (state.projectCommand sha256 actorId serverTimeMs
        sending.command)).findMessage sending.conversationId
          (stableMessageId sha256 actorId sending.clientMessageId) = some message ∧
      message.id = stableMessageId sha256 actorId sending.clientMessageId ∧
      sending.Stores actorId message := by
  obtain ⟨front, back, hsplit, -, haccepted, hall⟩ := state.runAll_front
    (state.projectCommand sha256 actorId serverTimeMs sending.command)
  rw [hall events h, List.append_nil] at hsplit
  rw [← hsplit] at haccepted
  obtain ⟨⟨queued, hqueue⟩, ⟨acknowledged, hacknowledge⟩, -⟩ := haccepted
  obtain ⟨message, rfl, hid, hconversation, hstores⟩ := stores_of_decide hqueue
  have hqueued : state.next (.queueMessage sending.conversationId
      (stableMessageId sha256 actorId sending.clientMessageId) sending.clientMessageId actorId
      sending.content sending.replyToMessageId sending.threadRootMessageId serverTimeMs
      sending.scheduledAtMs sending.silent sending.protectedContent) =
        state.applyMessageQueued message := by
    rw [next, execute, hqueue]
    rfl
  rw [hqueued] at hacknowledge
  obtain ⟨_, -, hrest⟩ := bind_eq_ok.mp hacknowledge
  obtain ⟨_, -, hrest⟩ := bind_eq_ok.mp hrest
  obtain rfl := Except.ok.inj hrest
  have hrun : Runs.run next state (state.projectCommand sha256 actorId serverTimeMs
      sending.command) = (state.applyMessageQueued message).applyMessageAcknowledged
        sending.conversationId (stableMessageId sha256 actorId sending.clientMessageId)
        (stableMessageId sha256 actorId sending.clientMessageId) serverTimeMs := by
    change next (next state _) _ = _
    rw [hqueued, next, execute, hacknowledge]
    rfl
  rw [hrun, findMessage_applyMessageAcknowledged, if_pos ⟨rfl, rfl⟩,
    findMessage_applyMessageQueued, if_pos ⟨hconversation, hid⟩]
  exact ⟨_, rfl, rfl, ⟨hstores.senderId, hstores.content, hstores.replyToMessageId,
    hstores.threadRootMessageId, hstores.scheduledAtMs, hstores.silent, hstores.protectedContent,
    hstores.undeleted⟩⟩

theorem isExpiredAt_mono {message : Message} {t₀ t₁ : Int64} (hle : t₀ ≤ t₁)
    (h : message.isExpiredAt t₀ = true) : message.isExpiredAt t₁ = true := by
  unfold Message.isExpiredAt at h ⊢
  obtain ⟨expiresAtMs, hexpires, hdue⟩ := (Option.any_eq_true _ _).mp h
  refine (Option.any_eq_true _ _).mpr ⟨expiresAtMs, hexpires, ?_⟩
  exact decide_eq_true (Int64.le_trans (of_decide_eq_true hdue) hle)

end MessagingState

namespace MessagingService

open MessagingState

variable {env : ServiceEnv} {sending : Sending} {actorId : ActorId} {message : Message}
  {serverTimeMs : Int64}

/-! ## The first answer -/

inductive Answered (env : ServiceEnv) (sending : Sending) (actorId : ActorId)
    (serverTimeMs : Int64) (before after : MessagingState) : Prop
  | accepted (hnew : sending.stored env.sha256 actorId before = none) {message : Message}
      (hstored : sending.stored env.sha256 actorId after = some message)
      (hstores : sending.Stores actorId message)
  | replayed {message : Message} (hold : sending.stored env.sha256 actorId before = some message)
      (hstored : sending.stored env.sha256 actorId after = some message)
      (hanswer : (message.deleted && message.isExpiredAt serverTimeMs) = true ∨
        sending.Matches actorId message)

variable [MessagingStateStore S] {s : MessagingService S B} {out : List ServerEnvelope}

theorem handleProjected_of_replay {command : ClientCommand} {replay : List ServerEnvelope}
    (h : s.idempotentSendReplay env actorId command serverTimeMs = .ok (some replay)) :
    result (handleProjected env actorId command serverTimeMs) s = .ok replay ∧
      after (handleProjected env actorId command serverTimeMs) s = s := by
  rw [handleProjected, result_get_bind, after_get_bind, h]
  exact ⟨rfl, rfl⟩

theorem handleProjected_of_conflict {command : ClientCommand} {e : MessagingServiceError}
    (h : s.idempotentSendReplay env actorId command serverTimeMs = .error e) :
    result (handleProjected env actorId command serverTimeMs) s = .error e := by
  rw [handleProjected, result_get_bind, h]
  rfl

variable (env sending) in
theorem answered_sending
    (h : result (handleProjected env actorId sending.command serverTimeMs) s = .ok out) :
    Answered env sending actorId serverTimeMs s.engine
      (after (handleProjected env actorId sending.command serverTimeMs) s).engine := by
  cases hstored : sending.stored env.sha256 actorId s.engine with
  | none =>
      obtain ⟨events, hdecision, hengine⟩ := answered_projected (replay_of_none hstored) h
      obtain ⟨message, hfind, -, hstores⟩ := stored_of_runAll hdecision
      rw [hengine]
      refine .accepted hstored ?_ hstores
      rw [Sending.stored, hfind]
      rfl
  | some message =>
      cases hexpired : message.deleted && message.isExpiredAt serverTimeMs with
      | true =>
          rw [(handleProjected_of_replay (replay_of_expired hstored hexpired)).2]
          exact .replayed hstored hstored (.inl hexpired)
      | false =>
          by_cases hmatches : sending.Matches actorId message
          · rw [(handleProjected_of_replay (replay_of_matches hstored hexpired hmatches)).2]
            exact .replayed hstored hstored (.inr hmatches)
          · have hconflict := handleProjected_of_conflict
              (replay_of_not_matches serverTimeMs hstored hexpired hmatches)
            rw [h] at hconflict
            cases hconflict

/-! ## The second answer -/

def Names (id : MessageId) (answer : ServerEnvelope) : Prop :=
  (∃ message, answer.event = .messageChanged message ∧ message.id = id) ∨
    ∃ conversationId, answer.event = .messagesDeleted conversationId [id]

def Repeats [BlobStore B] (env : ServiceEnv) (s : MessagingService S B) (request : ClientEnvelope)
    (serverTimeMs : Int64) (id : MessageId) : Prop :=
  ∃ answer, result (handle env request serverTimeMs) s = .ok [answer] ∧ Names id answer ∧
    after (handle env request serverTimeMs) s = s

section Second

variable [BlobStore B] {request : ClientEnvelope}

theorem authorized_sending (state : MessagingState) (actorId : ActorId) (sending : Sending) :
    state.validateCommandAuthorization actorId sending.command = .ok () := rfl

theorem repeats_of_stored (hversion : request.protocolVersion = protocolVersion)
    (hcommand : request.command = sending.command)
    (hsettled : expiredMessages s.engine serverTimeMs = [])
    (hstored : sending.stored env.sha256 request.context.actorId s.engine = some message)
    (hanswer : (message.deleted && message.isExpiredAt serverTimeMs) = true ∨
      sending.Matches request.context.actorId message) :
    s.Repeats env request serverTimeMs message.id := by
  have hauthorized := authorized_sending s.engine request.context.actorId sending
  rw [← hcommand] at hauthorized
  obtain ⟨hresult, hafter⟩ := handle_of_settled env hversion hauthorized hsettled
  rw [hcommand] at hresult hafter
  cases hexpired : message.deleted && message.isExpiredAt serverTimeMs with
  | true =>
      obtain ⟨hreplay, hsame⟩ := handleProjected_of_replay (replay_of_expired hstored hexpired)
      exact ⟨_, hresult.trans hreplay, .inr ⟨_, rfl⟩, hafter.trans hsame⟩
  | false =>
      rw [hexpired] at hanswer
      have hmatches := hanswer.resolve_left Bool.false_ne_true
      obtain ⟨hreplay, hsame⟩ :=
        handleProjected_of_replay (replay_of_matches hstored hexpired hmatches)
      exact ⟨_, hresult.trans hreplay, .inl ⟨_, rfl, rfl⟩, hafter.trans hsame⟩

theorem after_of_stored (hcommand : request.command = sending.command)
    (hstored : sending.stored env.sha256 request.context.actorId s.engine = some message)
    (h : result (handle env request serverTimeMs) s = .ok out) (hkeyed : s.engine.Keyed) :
    (after (handle env request serverTimeMs) s).engine = s.engine.settled serverTimeMs := by
  obtain ⟨-, -, s₁, hengine, hresult, hafter⟩ := answered_handle h
  rw [hcommand] at hresult hafter
  change result (handleProjected env _ sending.command _) s₁ = _ at hresult
  change _ = after (handleProjected env _ sending.command _) s₁ at hafter
  have hstored₁ : sending.stored env.sha256 request.context.actorId s₁.engine =
      some (message.settledAt serverTimeMs) := by
    have hfind := (hkeyed.settled_eq serverTimeMs).2
    unfold Sending.stored at hstored ⊢
    rw [hengine, hfind, hfind, ← Option.map_or, hstored]
    rfl
  generalize message.settledAt serverTimeMs = found at hstored₁
  rw [hafter, ← hengine]
  cases hexpired : found.deleted && found.isExpiredAt serverTimeMs with
  | true => rw [(handleProjected_of_replay (replay_of_expired hstored₁ hexpired)).2]
  | false =>
      by_cases hmatches : sending.Matches request.context.actorId found
      · rw [(handleProjected_of_replay (replay_of_matches hstored₁ hexpired hmatches)).2]
      · have hconflict := handleProjected_of_conflict
          (replay_of_not_matches serverTimeMs hstored₁ hexpired hmatches)
        rw [hresult] at hconflict
        cases hconflict

theorem settled_of_repeats (hkeyed : s.engine.Keyed) {id : MessageId}
    (hcommand : request.command = sending.command)
    (hstored : sending.stored env.sha256 request.context.actorId s.engine = some message)
    (h : s.Repeats env request serverTimeMs id) :
    expiredMessages s.engine serverTimeMs = [] := by
  obtain ⟨answer, hresult, -, hsame⟩ := h
  have hsettled := after_of_stored hcommand hstored hresult hkeyed
  rw [hsame] at hsettled
  rw [expiredMessages_eq, List.map_eq_nil_iff]
  by_contra hsome
  obtain ⟨expired, hexpired⟩ := List.exists_mem_of_ne_nil _ hsome
  obtain ⟨id, hid⟩ := List.exists_mem_of_ne_nil _ (ne_nil_of_mem_expiredIds hexpired)
  obtain ⟨due, hdue, hexpires⟩ := hkeyed.mem_expiredIds.mp ⟨expired, hexpired, rfl, hid⟩
  have hafter := (hkeyed.settled_eq serverTimeMs).2 expired.1 id
  rw [← hsettled, hdue, Option.map_some, settledAt_of_expired hexpires] at hafter
  have hdeleted := congrArg Message.deleted (Option.some.inj hafter)
  rw [hdeleted] at hexpires
  cases hexpires

theorem matches_of_repeats {id : MessageId} (hcommand : request.command = sending.command)
    (hsettled : expiredMessages s.engine serverTimeMs = [])
    (hstored : sending.stored env.sha256 request.context.actorId s.engine = some message)
    (hundeleted : message.deleted = false) (h : s.Repeats env request serverTimeMs id) :
    sending.Matches request.context.actorId message := by
  obtain ⟨answer, hresult, -, -⟩ := h
  obtain ⟨hversion, hauthorized, -⟩ := answered_handle hresult
  have hhandle := (handle_of_settled env hversion hauthorized hsettled).1
  by_contra hdiffers
  have hconflict := handleProjected_of_conflict
    (replay_of_not_matches serverTimeMs hstored (by rw [hundeleted]; rfl) hdiffers)
  rw [hcommand] at hhandle
  cases hresult.symm.trans (hhandle.trans hconflict)

end Second

/-! ## Runs of the service -/

variable [BlobStore B] {store : S} {blobStore : Option B}

/-- Sending again answers with the stored message and changes nothing exactly when
nothing is due for deletion and, unless the first request was itself answered from a
stored message, secret content was sent as protected and no coordinate is not a number. -/
theorem resend_idempotent {past : List ServiceInput} {request : ClientEnvelope}
    {t₀ : Int64} (hcommand : request.command = sending.command)
    (haccepted : result (handle env request t₀) (Runs.run (next env) (empty store blobStore) past) =
      .ok out) :
    let s₀ := Runs.run (next env) (empty store blobStore) past
    let s₁ := next env s₀ (.handle request t₀)
    let stored := sending.stored env.sha256 request.context.actorId
    ∃ first, stored s₁.engine = some first ∧
      ∀ (between : List ServiceInput) (retry : ClientEnvelope) (t₁ : Int64) (later : Message),
        let s₂ := Runs.run (next env) s₁ between
        retry.command = sending.command → retry.context.actorId = request.context.actorId →
          retry.protocolVersion = request.protocolVersion → t₀ ≤ t₁ →
          stored s₂.engine = some later → first.Untouched later →
            (s₂.Repeats env retry t₁ first.id ↔ expiredMessages s₂.engine t₁ = [] ∧
              (stored (s₀.engine.settled t₀) = none → sending.Stable)) := by
  intro s₀ s₁ stored
  have hkeyed₀ : s₀.engine.Keyed := keyed_run past
  have hkeyed₁ : s₁.engine.Keyed := keyed_next env hkeyed₀ _
  obtain ⟨hversion, -, mid, hengine, hresult, hafter⟩ := answered_handle haccepted
  rw [hcommand] at hresult hafter
  have hanswered : Answered env sending request.context.actorId t₀ (s₀.engine.settled t₀)
      s₁.engine := by
    have h := answered_sending env sending hresult
    rw [hengine] at h
    change Answered env sending _ t₀ _ (after (handle env request t₀) s₀).engine
    rw [hafter]
    exact h
  have hkeyed₂ : ∀ between, (Runs.run (next env) s₁ between).engine.Keyed := fun between ↦
    Runs.invariant (I := fun s : MessagingService S B ↦ s.engine.Keyed)
      (fun _ input h ↦ keyed_next env h input) hkeyed₁ between
  cases hanswered with
  | @accepted hnew first hstored hstores =>
      refine ⟨first, hstored, fun between retry t₁ later hretry hactor hversion' _ hfound
        huntouched ↦ ?_⟩
      have hlater := huntouched.stores hstores
      have hfound' := hfound
      rw [← hactor] at hlater
      change sending.stored env.sha256 request.context.actorId _ = _ at hfound'
      rw [← hactor] at hfound'
      constructor
      · intro h
        have hsettled := settled_of_repeats (hkeyed₂ between) hretry hfound' h
        refine ⟨hsettled, fun _ ↦ hlater.matches_iff.mp ?_⟩
        exact matches_of_repeats hretry hsettled hfound' hlater.undeleted h
      · rintro ⟨hsettled, hstable⟩
        rw [← huntouched.id]
        exact repeats_of_stored (hversion'.trans hversion) hretry hsettled hfound'
          (.inr (hlater.matches_iff.mpr (hstable hnew)))
  | @replayed first hold hstored hanswer =>
      refine ⟨first, hstored, fun between retry t₁ later hretry hactor hversion' htime hfound
        huntouched ↦ ?_⟩
      have hfound' := hfound
      change sending.stored env.sha256 request.context.actorId _ = _ at hfound'
      rw [← hactor] at hfound' hanswer
      constructor
      · intro h
        refine ⟨settled_of_repeats (hkeyed₂ between) hretry hfound' h, fun hnone ↦ ?_⟩
        cases hold.symm.trans hnone
      · rintro ⟨hsettled, -⟩
        rw [← huntouched.id]
        refine repeats_of_stored (hversion'.trans hversion) hretry hsettled hfound' ?_
        rcases hanswer with hexpired | hmatches
        · left
          rw [Bool.and_eq_true] at hexpired ⊢
          rw [huntouched.deleted, huntouched.isExpiredAt]
          exact ⟨hexpired.1, isExpiredAt_mono htime hexpired.2⟩
        · exact .inr (huntouched.matching hmatches)

end MessagingService

namespace Chat

def greeting : Sending :=
  { conversationId := room.id, clientMessageId := ⟨"one"⟩, content := hello }

def secretly : Sending :=
  { conversationId := vault.id, clientMessageId := ⟨"one"⟩, content := sealed }

def asking (actorId : ActorId) (sending : Sending) : ClientEnvelope :=
  { protocolVersion
    context := { requestId := "1", deviceId := "d", actorId, sessionId := "s", sentAtMs := 2 }
    command := sending.command }

def furnished : List ServiceInput :=
  [profile host, profile guest, request 1 host (.createConversation room),
    request 1 host (.createConversation vault)]

theorem reached_append (past : List ServiceInput) (input : ServiceInput)
    (between : List ServiceInput) :
    reached (past ++ input :: between) =
      Runs.run (MessagingService.next world) (MessagingService.next world (reached past) input)
        between :=
  Runs.run_append _ _ past (input :: between)

end Chat

namespace MessagingService

open Chat

theorem resend_idempotent_greeting :
    (reached (furnished ++ .handle (asking host greeting) 2 ::
      [send 3 guest room.id "two" hello])).Repeats world (asking host greeting) 4
        (sent host "one") := by
  obtain ⟨out, hout⟩ : ∃ out, result (handle world (asking host greeting) 2)
      (reached furnished) = .ok out :=
    exists_of_isOk (by decide +kernel)
  obtain ⟨first, hfirst, hall⟩ := resend_idempotent rfl hout
  have huntouched : (greeting.stored world.sha256 host
    (next world (reached furnished) (.handle (asking host greeting) 2)).engine).any (fun first ↦
      first.id = sent host "one" ∧ (greeting.stored world.sha256 host
        (reached (furnished ++ .handle (asking host greeting) 2 ::
          [send 3 guest room.id "two" hello])).engine).any (fun later ↦
            first.Untouched later)) = true := by decide +kernel
  have hsettled : expiredMessages (reached (furnished ++ .handle (asking host greeting) 2 ::
      [send 3 guest room.id "two" hello])).engine 4 = [] := by decide +kernel
  change greeting.stored world.sha256 host (next world (reached furnished)
    (.handle (asking host greeting) 2)).engine = some first at hfirst
  rw [hfirst, Option.any_some] at huntouched
  obtain ⟨hid, hlater⟩ := of_decide_eq_true huntouched
  obtain ⟨later, hlater, hsame⟩ := (Option.any_eq_true _ _).mp hlater
  rw [reached_append] at hlater hsettled ⊢
  have hrepeats := hall [send 3 guest room.id "two" hello] (asking host greeting) 4 later rfl rfl
    rfl (by decide) hlater (of_decide_eq_true hsame)
  rw [hid] at hrepeats
  exact hrepeats.mpr ⟨hsettled, fun _ ↦ by decide⟩

/-- A secret message that is sent again without asking for protection is refused. -/
theorem secret_resend_refused :
    ¬ ∀ (past between : List ServiceInput) (sending : Sending) (request : ClientEnvelope)
      (t₀ t₁ : Int64) (out : List ServerEnvelope) (first later : Message),
      request.command = sending.command → t₀ ≤ t₁ →
        result (handle world request t₀) (reached past) = .ok out →
          sending.stored world.sha256 request.context.actorId
            (reached (past ++ [.handle request t₀])).engine = some first →
            sending.stored world.sha256 request.context.actorId
              (reached (past ++ .handle request t₀ :: between)).engine = some later →
              first.Untouched later →
                (reached (past ++ .handle request t₀ :: between)).Repeats world request t₁
                  first.id := by
  intro hclaim
  obtain ⟨out, hout⟩ : ∃ out, result (handle world (asking host secretly) 2)
      (reached furnished) = .ok out :=
    exists_of_isOk (by decide +kernel)
  have hstored : (secretly.stored world.sha256 host
      (reached (furnished ++ [.handle (asking host secretly) 2])).engine).isSome = true := by
    decide +kernel
  have hrefused : (result (handle world (asking host secretly) 3)
      (reached (furnished ++ [.handle (asking host secretly) 2]))).isOk = false := by
    decide +kernel
  obtain ⟨first, hfirst⟩ := Option.isSome_iff_exists.mp hstored
  obtain ⟨answer, hanswer, -⟩ := hclaim furnished [] secretly (asking host secretly) 2 3 out first
    first rfl (by decide) hout hfirst hfirst rfl
  rw [hanswer] at hrefused
  cases hrefused

end MessagingService

end Fabushi.Messaging
