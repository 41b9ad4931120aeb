import Fabushi.Messaging.RetentionRuns

/-!
# Secret content in secret conversations

The queue path admits plaintext to no secret conversation and secret content to no
other one. Edits and forwards write content without that check, and a conversation
that is created or updated again may change its kind under the messages it has.
`Fits` is what all of them would have to respect.
-/

namespace Fabushi.Messaging

open Effects Result Std

variable {S B : Type}

def MessageContent.Fits (content : MessageContent) (kind : ConversationKind) : Prop :=
  (kind = .secret → content.isSecret = true ∨ content.isService = true) ∧
    (content.isSecret = true → kind = .secret)

instance (content : MessageContent) (kind : ConversationKind) : Decidable (content.Fits kind) :=
  inferInstanceAs (Decidable (_ ∧ _))

def Message.Fits (message : Message) (kind : ConversationKind) : Prop :=
  (kind = .secret → message.deleted = false →
      message.content.isSecret = true ∨ message.content.isService = true) ∧
    (message.content.isSecret = true → kind = .secret)

instance (message : Message) (kind : ConversationKind) : Decidable (message.Fits kind) :=
  inferInstanceAs (Decidable (_ ∧ _))

theorem Message.fits_of_content {message : Message} {kind : ConversationKind}
    (h : message.content.Fits kind) : message.Fits kind :=
  ⟨fun hkind _ ↦ h.1 hkind, h.2⟩

theorem Message.Fits.keeps {old new : Message} {kind : ConversationKind} (h : old.Fits kind)
    (hkeeps : old.Keeps new) (hsame : old.content.SameSecrecy new.content) : new.Fits kind := by
  constructor
  · intro hkind hnew
    rw [hsame.1, hsame.2]
    apply h.1 hkind
    cases hold : old.deleted with
    | false => rfl
    | true => exact absurd (hkeeps.deleted hold) (by rw [hnew]; exact Bool.false_ne_true)
  · rw [hsame.1]
    exact h.2

@[simp] theorem Message.settledAt_content (message : Message) (serverTimeMs : Int64) :
    (message.settledAt serverTimeMs).content = message.content := by
  unfold settledAt
  split <;> rfl

@[simp] theorem Message.settledAt_protectedContent (message : Message) (serverTimeMs : Int64) :
    (message.settledAt serverTimeMs).protectedContent = message.protectedContent := by
  unfold settledAt
  split <;> rfl

namespace MessagingState

variable {state : MessagingState}

def Disciplined (state : MessagingState) : Prop :=
  ∀ k id message, state.findMessage k id = some message →
    ∃ conversation, state.conversations[k]? = some conversation ∧ message.Fits conversation.kind

theorem disciplined_empty : Disciplined {} := by
  intro k id message h
  simp [findMessage] at h

def Respects (state : MessagingState) : Command → Prop
  | .editMessage k id content _ => ∀ message, state.findMessage k id = some message →
      ∀ conversation, state.conversations[k]? = some conversation →
        Message.Fits { message with content } conversation.kind
  | .forwardMessage source id destination .. => ∀ original,
      state.findMessage source id = some original → original.deleted = false →
      original.protectedContent = false → ∀ conversation,
        state.conversations[destination]? = some conversation →
          original.content.Fits conversation.kind
  | .upsertConversation conversation => (state.decide (.upsertConversation conversation)).isOk =
      true → ∀ id message, state.findMessage conversation.id id = some message →
        message.Fits conversation.kind
  | _ => True

theorem findMessage_next_edit (state : MessagingState) (conversationId k : ConversationId)
    (messageId id : MessageId) (content : MessageContent) (editedAtMs : Int64) :
    (state.next (.editMessage conversationId messageId content editedAtMs)).findMessage k id =
      if conversationId = k ∧ messageId = id then
        (state.findMessage k id).map fun message ↦
          { message with content, editedAtMs := some editedAtMs }
      else state.findMessage k id := by
  cases hdecide : state.decide (.editMessage conversationId messageId content editedAtMs) with
  | error error =>
      have hnone : state.findMessage conversationId messageId = none := by
        cases hfound : state.findMessage conversationId messageId with
        | none => rfl
        | some message =>
            have hrequire : state.requireMessage conversationId messageId = .ok message :=
              okOr_eq_ok.mpr hfound
            have hok : state.decide (.editMessage conversationId messageId content editedAtMs) =
                (state.requireMessage conversationId messageId >>= fun _ ↦
                  .ok [.messageEdited conversationId messageId content editedAtMs]) := rfl
            rw [hrequire] at hok
            cases hdecide.symm.trans hok
      have hsame : state.next (.editMessage conversationId messageId content editedAtMs) = state := by
        rw [next, execute, hdecide]
      rw [hsame]
      split
      · rename_i h
        rw [← h.1, ← h.2, hnone]
        rfl
      · rfl
  | ok events =>
      obtain ⟨_, -, h⟩ := bind_eq_ok.mp hdecide
      obtain rfl := Except.ok.inj h
      rw [next, execute, hdecide]
      exact findMessage_updateMessage state conversationId k messageId id _

theorem forwarded {source destination k : ConversationId} {messageId localMessageId id : MessageId}
    {clientMessageId : ClientMessageId} {senderId : ActorId} {createdAtMs : Int64}
    {message : Message} (hold : state.findMessage k id = none)
    (hnew : (state.next (.forwardMessage source messageId destination localMessageId
      clientMessageId senderId createdAtMs)).findMessage k id = some message) :
    destination = k ∧ ∃ original, state.findMessage source messageId = some original ∧
      original.deleted = false ∧ original.protectedContent = false ∧
      message.content = original.content := by
  cases hdecide : state.decide (.forwardMessage source messageId destination localMessageId
      clientMessageId senderId createdAtMs) with
  | error error =>
      rw [next, execute, hdecide] at hnew
      cases hold.symm.trans hnew
  | ok events =>
      rw [next, execute, hdecide] at hnew
      obtain ⟨_, -, h⟩ := bind_eq_ok.mp hdecide
      obtain ⟨_, -, h⟩ := bind_eq_ok.mp h
      obtain ⟨_, -, h⟩ := bind_eq_ok.mp h
      obtain ⟨_, -, h⟩ := bind_eq_ok.mp h
      obtain ⟨original, horiginal, h⟩ := bind_eq_ok.mp h
      obtain ⟨_, hdeleted, h⟩ := bind_eq_ok.mp h
      obtain ⟨_, hprotected, h⟩ := bind_eq_ok.mp h
      obtain ⟨_, -, h⟩ := bind_eq_ok.mp h
      obtain rfl := Except.ok.inj h
      change (state.applyMessageQueued _).findMessage k id = _ at hnew
      rw [findMessage_applyMessageQueued] at hnew
      split at hnew
      · rename_i hthere
        obtain rfl := Option.some.inj hnew
        exact ⟨hthere.1, original, okOr_eq_ok.mp horiginal,
          Bool.eq_false_iff.mpr (ensure_eq_ok.mp hdeleted),
          Bool.eq_false_iff.mpr (ensure_eq_ok.mp hprotected), rfl⟩
      · cases hold.symm.trans hnew

theorem kind_next (state : MessagingState) {c : Command} {k : ConversationId}
    {conversation : Conversation} (h : state.conversations[k]? = some conversation)
    (hupsert : ∀ conversation', c ≠ .upsertConversation conversation') :
    ∃ conversation', (state.next c).conversations[k]? = some conversation' ∧
      conversation'.kind = conversation.kind := by
  have hnext := nextConversation state c k
  rw [h] at hnext
  generalize (state.next c).conversations[k]? = new at hnext ⊢
  cases hnext with
  | kept hkept =>
      rcases hkept with ⟨hnone, -⟩ | ⟨a, b, ha, hb, hkeeps⟩
      · cases hnone
      · obtain rfl := Option.some.inj ha
        exact ⟨b, hb, hkeeps.kind⟩
  | retained => exact ⟨_, rfl, rfl⟩
  | upserted hcommand => exact absurd hcommand (hupsert _)

theorem Disciplined.next_upsert (h : state.Disciplined) {conversation : Conversation}
    (hrespects : state.Respects (.upsertConversation conversation)) :
    (state.next (.upsertConversation conversation)).Disciplined := by
  cases hdecide : state.decide (.upsertConversation conversation) with
  | error error =>
      rw [next, execute, hdecide]
      exact h
  | ok events =>
      intro k id message hmessage
      have hplace : (Command.upsertConversation conversation).InPlace := trivial
      have hstep := nextMessage state hplace k id
      rw [hmessage] at hstep
      have hold : state.findMessage k id = some message := by
        generalize state.findMessage k id = old at hstep
        cases hstep with
        | same => rfl
        | rewritten hconversation => cases hconversation
        | queued hconversation => cases hconversation
      obtain ⟨before, hbefore, hfits⟩ := h k id message hold
      have hnext := nextConversation state (.upsertConversation conversation) k
      rw [hbefore] at hnext
      generalize (state.next (.upsertConversation conversation)).conversations[k]? = new at hnext ⊢
      cases hnext with
      | kept hkept =>
          rcases hkept with ⟨hnone, -⟩ | ⟨a, b, ha, hb, hkeeps⟩
          · cases hnone
          · obtain rfl := Option.some.inj ha
            exact ⟨b, hb, hkeeps.kind ▸ hfits⟩
      | retained hcommand => cases hcommand
      | upserted hcommand hid =>
          obtain rfl := Command.upsertConversation.inj hcommand
          subst hid
          exact ⟨_, rfl, hrespects (by rw [hdecide]; rfl) id message hold⟩

theorem Disciplined.next (h : state.Disciplined) {c : Command} (hplace : c.InPlace)
    (hrespects : state.Respects c) : (state.next c).Disciplined := by
  by_cases hupsert : ∃ conversation, c = .upsertConversation conversation
  · obtain ⟨conversation, rfl⟩ := hupsert
    exact h.next_upsert hrespects
  · have hkind : ∀ (k : ConversationId) (conversation : Conversation),
        state.conversations[k]? = some conversation → ∃ conversation' : Conversation,
          (state.next c).conversations[k]? = some conversation' ∧
            conversation'.kind = conversation.kind :=
      fun k conversation hfound ↦ kind_next state hfound fun conversation' heq ↦
        hupsert ⟨conversation', heq⟩
    intro k id message hmessage
    have hstep := nextMessage state hplace k id
    rw [hmessage] at hstep
    cases hold : state.findMessage k id with
    | none =>
        rw [hold] at hstep
        cases hstep with
        | queued _ hconversation _ hqueues =>
            obtain ⟨conversation, hfound, -⟩ := hqueues.deadline
            rw [hconversation] at hfound
            obtain ⟨conversation', hfound', hsame⟩ := hkind k conversation hfound
            refine ⟨conversation', hfound', hsame ▸ Message.fits_of_content ?_⟩
            by_cases hforward : c.isForward = true
            · cases c <;> try cases hforward
              obtain ⟨rfl, original, horiginal, hdeleted, hprotected, hcontent⟩ :=
                forwarded hold hmessage
              rw [hcontent]
              exact hrespects original horiginal hdeleted hprotected conversation hfound
            · have hsecrecy := hqueues.secrecy (Bool.eq_false_iff.mpr hforward) conversation
              rw [hconversation] at hsecrecy
              exact hsecrecy hfound
    | some old =>
        obtain ⟨conversation, hfound, hfits⟩ := h k id old hold
        obtain ⟨conversation', hfound', hsame⟩ := hkind k conversation hfound
        refine ⟨conversation', hfound', hsame ▸ ?_⟩
        rw [hold] at hstep
        cases hstep with
        | same => exact hfits
        | rewritten _ _ hkeeps _ _ hcontent =>
            rcases hcontent with hsame | hedit
            · exact hfits.keeps hkeeps hsame
            · cases c <;> try cases hedit
              rw [findMessage_next_edit, hold] at hmessage
              split at hmessage
              · rename_i hthere
                obtain ⟨rfl, rfl⟩ := hthere
                have hdeleted : message.deleted = old.deleted := by
                  rw [← Option.some.inj hmessage]
                have hedited := hrespects old hold conversation hfound
                exact ⟨fun hkind hnew ↦ hedited.1 hkind (hdeleted.symm.trans hnew), hedited.2⟩
              · obtain rfl := Option.some.inj hmessage
                exact hfits

/-! ## Requests -/

variable {env : ServiceEnv} {actorId : ActorId} {serverTimeMs : Int64} {command : ClientCommand}
  {commands : List Command} {before after : MessagingState}

def messagesOf (state : MessagingState) (k : ConversationId) : List Message :=
  (state.messages[k]?.map fun messages ↦ messages.values).getD []

theorem mem_messagesOf {k : ConversationId} {message : Message} :
    message ∈ state.messagesOf k ↔ ∃ id, state.findMessage k id = some message := by
  unfold messagesOf findMessage
  cases state.messages[k]? with
  | none => simp
  | some messages => exact BTreeMap.mem_values

/-- What a request must respect so that the messages fit afterwards, in the messages
as the settlement at `serverTimeMs` leaves them. -/
def Discreet (state : MessagingState) (actorId : ActorId) (serverTimeMs : Int64)
    (command : ClientCommand) : Prop :=
  match command with
  | .editMessage k id content => ∀ message ∈ state.findMessage k id,
      ∀ conversation ∈ state.conversations[k]?,
        Message.Fits { message.settledAt serverTimeMs with content } conversation.kind
  | .forwardMessage source id destination _ => ∀ original ∈ state.findMessage source id,
      (original.settledAt serverTimeMs).deleted = false → original.protectedContent = false →
        ∀ conversation ∈ state.conversations[destination]?,
          original.content.Fits conversation.kind
  | command => ∀ conversation ∈ command.replacement state,
      state.Replaces actorId command conversation →
        ∀ message ∈ state.messagesOf conversation.id,
          (message.settledAt serverTimeMs).Fits conversation.kind

instance (state : MessagingState) (actorId : ActorId) (serverTimeMs : Int64)
    (command : ClientCommand) : Decidable (state.Discreet actorId serverTimeMs command) :=
  match command with
  | .editMessage k id content => inferInstanceAs (Decidable (∀ message ∈ state.findMessage k id,
      ∀ conversation ∈ state.conversations[k]?,
        Message.Fits { message.settledAt serverTimeMs with content } conversation.kind))
  | .forwardMessage source id destination _ =>
      inferInstanceAs (Decidable (∀ original ∈ state.findMessage source id, _ → _ →
        ∀ conversation ∈ state.conversations[destination]?, _))
  | .sync .. | .search .. | .upsertProfile .. | .setPresence .. | .createConversation ..
  | .updateConversation .. | .updateConversationInfo .. | .setConversationParticipant ..
  | .removeConversationParticipant .. | .archiveConversation .. | .pinConversation ..
  | .setMarkedUnread .. | .setDraft .. | .setConversationNotifications ..
  | .setConversationMessageRetention .. | .upsertFolder .. | .deleteFolder .. | .sendMessage ..
  | .beginBlobUpload .. | .appendBlobChunk .. | .finishBlobUpload .. | .deleteBlob ..
  | .deleteMessages .. | .markRead .. | .markTopicRead .. | .setTopicDraft .. | .setReaction ..
  | .pinMessage .. | .votePoll .. | .startTyping .. | .stopTyping .. | .createInvoice ..
  | .checkoutInvoice .. | .refundOrder .. | .walletStatus .. | .publishStory .. | .deleteStory ..
  | .viewStory .. | .reactStory .. | .updateCommunity .. | .subscribeChannel ..
  | .unsubscribeChannel .. | .listCommunityMembers .. | .listCommunityAuditLog ..
  | .setCommunitySlowMode .. | .moderateCommunityMember .. | .setCommunityMember ..
  | .createInviteLink .. | .revokeInviteLink .. | .requestCommunityJoin ..
  | .respondCommunityJoin .. | .upsertForumTopic .. | .deleteForumTopic .. | .registerBot ..
  | .invokeBot .. | .finishBotExecution .. | .installMiniApp .. | .grantMiniApp ..
  | .openMiniApp .. | .miniAppCall .. =>
      inferInstanceAs (Decidable (∀ conversation ∈ ClientCommand.replacement state _, _ →
        ∀ message ∈ state.messagesOf conversation.id, _))

theorem find_settled (hkeyed : before.Keyed) {k : ConversationId} {id : MessageId}
    {message : Message} (h : (before.settled serverTimeMs).findMessage k id = some message) :
    ∃ old, before.findMessage k id = some old ∧ message = old.settledAt serverTimeMs := by
  rw [(hkeyed.settled_eq serverTimeMs).2] at h
  obtain ⟨old, hold, hsettled⟩ := Option.map_eq_some_iff.mp h
  exact ⟨old, hold, hsettled.symm⟩

theorem Keyed.conversations_settled (hkeyed : before.Keyed) (serverTimeMs : Int64) :
    (before.settled serverTimeMs).conversations = before.conversations := by
  obtain ⟨⟨messages, hsettled⟩, -⟩ := hkeyed.settled_eq serverTimeMs
  rw [hsettled]

theorem Discreet.replacement (h : before.Discreet actorId serverTimeMs command)
    {conversation : Conversation} (hreplaces : before.Replaces actorId command conversation) :
    ∀ message ∈ before.messagesOf conversation.id,
      (message.settledAt serverTimeMs).Fits conversation.kind := by
  cases command
  case editMessage => cases hreplaces.1
  case forwardMessage => cases hreplaces.1
  all_goals exact h conversation hreplaces.1 hreplaces

theorem Discreet.respects (h : before.Discreet actorId serverTimeMs command)
    (hkeyed : before.Keyed)
    (hauthorized : before.validateCommandAuthorization actorId command = .ok ()) {c : Command}
    (hc : (before.settled serverTimeMs).projectCommand env.sha256 actorId serverTimeMs command =
      [c]) : (before.settled serverTimeMs).Respects c := by
  have hconversations := hkeyed.conversations_settled serverTimeMs
  have hmem : c ∈ (before.settled serverTimeMs).projectCommand env.sha256 actorId serverTimeMs
      command := by simp [hc]
  cases c
  case upsertConversation conversation =>
    intro hok id message hmessage
    obtain ⟨old, hold, rfl⟩ := find_settled hkeyed hmessage
    obtain ⟨events, hevents⟩ : ∃ events, (before.settled serverTimeMs).decide
        (.upsertConversation conversation) = .ok events := by
      generalize (before.settled serverTimeMs).decide _ = decision at hok
      cases decision with
      | error error => cases hok
      | ok events => exact ⟨events, rfl⟩
    have hreplaces := replaces_settled hkeyed hauthorized (projected_upsert hmem).2 hevents
    exact h.replacement hreplaces old (mem_messagesOf.mpr ⟨id, hold⟩)
  case editMessage k id content editedAtMs =>
    obtain rfl := projected_origin hmem rfl
    intro message hmessage conversation hconversation
    obtain ⟨old, hold, rfl⟩ := find_settled hkeyed hmessage
    rw [hconversations] at hconversation
    exact h old hold conversation hconversation
  case forwardMessage source id destination _ clientMessageId _ _ =>
    obtain rfl := projected_origin hmem rfl
    intro original horiginal hdeleted hprotected conversation hconversation
    obtain ⟨old, hold, rfl⟩ := find_settled hkeyed horiginal
    rw [hconversations] at hconversation
    rw [Message.settledAt_protectedContent] at hprotected
    rw [Message.settledAt_content]
    exact h old hold hdeleted hprotected conversation hconversation
  all_goals trivial

theorem respects_of_isChained {c : Command} (h : c.isChained = true) (state : MessagingState) :
    state.Respects c := by
  cases c <;> trivial

theorem Disciplined.run (h : before.Disciplined) {commands : List Command}
    (hcommands : ∀ c ∈ commands, c.InPlace ∧ ∀ state : MessagingState, state.Respects c) :
    (Runs.run MessagingState.next before commands).Disciplined := by
  induction commands generalizing before with
  | nil => exact h
  | cons c commands ih =>
      obtain ⟨hplace, hrespects⟩ := hcommands c List.mem_cons_self
      exact ih (h.next hplace (hrespects before)) fun c' hc' ↦
        hcommands c' (List.mem_cons_of_mem _ hc')

theorem Disciplined.deletions (h : before.Disciplined) {front back : List Command}
    (hexpired : MessagingService.expiredMessages before serverTimeMs = front ++ back) :
    (Runs.run MessagingState.next before front).Disciplined := by
  apply h.run
  intro c hc
  have hmem : c ∈ MessagingService.expiredMessages before serverTimeMs := by
    rw [hexpired]
    exact List.mem_append_left _ hc
  obtain ⟨_, _, -, rfl⟩ := expired_cases hmem
  exact ⟨trivial, fun _ ↦ trivial⟩

theorem Served.disciplined (h : Served env actorId serverTimeMs command before after)
    (hdisciplined : before.Disciplined) (hkeyed : before.Keyed)
    (hdiscreet : before.Discreet actorId serverTimeMs command) : after.Disciplined := by
  cases h with
  | refused => exact hdisciplined
  | settling front back hexpired => exact hdisciplined.deletions hexpired
  | @working hauthorized commands hwork front back hcommands _ =>
      have hsettled : (before.settled serverTimeMs).Disciplined :=
        hdisciplined.deletions (List.append_nil _).symm
      have hplace : ∀ c ∈ front, c.InPlace := fun c hc ↦
        (hwork.routine c (by simp [hcommands, hc])).inPlace
      rcases hwork.single_or_chained with ⟨c, hc, rfl⟩ | hchained
      · rcases List.append_eq_singleton_iff.mp hcommands.symm with ⟨rfl, -⟩ | ⟨rfl, -⟩
        · exact hsettled
        · exact hsettled.next (hplace c List.mem_cons_self)
            (hdiscreet.respects hkeyed hauthorized hc)
      · apply hsettled.run
        intro c hc
        exact ⟨hplace c hc, respects_of_isChained (hchained c (by simp [hcommands, hc]))⟩

end MessagingState

/-! ## Runs -/

namespace MessagingService

open MessagingState

variable [MessagingStateStore S] [BlobStore B] {env : ServiceEnv} {store : S}
  {blobStore : Option B} {inputs : List ServiceInput}

def Discreet (s : MessagingService S B) : ServiceInput → Prop
  | .settle .. => True
  | .handle request serverTimeMs => request.protocolVersion = protocolVersion →
      s.engine.Discreet request.context.actorId serverTimeMs request.command

instance (s : MessagingService S B) (input : ServiceInput) : Decidable (s.Discreet input) :=
  match input with
  | .settle .. => inferInstanceAs (Decidable True)
  | .handle .. => inferInstanceAs (Decidable (_ → _))

theorem disciplined_next (env : ServiceEnv) {s : MessagingService S B} {input : ServiceInput}
    (hdisciplined : s.engine.Disciplined) (hkeyed : s.engine.Keyed) (hdiscreet : s.Discreet input) :
    (next env s input).engine.Disciplined := by
  cases input with
  | handle request serverTimeMs =>
      by_cases hversion : request.protocolVersion = protocolVersion
      · exact (served_handle env request serverTimeMs s).disciplined hdisciplined hkeyed
          (hdiscreet hversion)
      · rw [next, handle, if_pos hversion]
        exact hdisciplined
  | settle verifier signed serverTimeMs =>
      rw [next]
      rcases engine_settle env verifier signed serverTimeMs s with hsame | ⟨event, hnext⟩
      · rw [hsame]
        exact hdisciplined
      · rw [hnext]
        exact hdisciplined.next trivial trivial

/-- In every state of a run of discreet requests, plaintext that is not deleted stands
outside of secret conversations and secret content only in them. -/
theorem secret_disciplined
    (hrun : Runs.Along (next env) Discreet (empty store blobStore) inputs) :
    (Runs.run (next env) (empty store blobStore) inputs).engine.Disciplined := by
  have hstep : ∀ (t : MessagingService S B) (i : ServiceInput),
      (t.engine.Keyed ∧ t.engine.Disciplined) → t.Discreet i →
        (next env t i).engine.Keyed ∧ (next env t i).engine.Disciplined := by
    rintro t i ⟨hkeyed, hdisciplined⟩ hdiscreet
    exact ⟨keyed_next env hkeyed i, disciplined_next env hdisciplined hkeyed hdiscreet⟩
  have hstart : (empty store blobStore).engine.Keyed ∧ (empty store blobStore).engine.Disciplined :=
    ⟨keyed_empty, disciplined_empty⟩
  exact (Runs.invariant_along hstep hstart hrun).2

end MessagingService

namespace Chat

def vault : Conversation :=
  { room with id := ⟨"vault"⟩, kind := .secret }

def sealed : MessageContent :=
  .secret
    { version := 1, algorithm := "x25519", conversationId := vault.id, epoch := 1, senderId := host
      recipientId := guest, counter := 1, nonceBase64 := "AA", ciphertextBase64 := "AA" }

def whispered : List ServiceInput :=
  [profile host, profile guest, request 1 host (.createConversation vault),
    send 2 host vault.id "c" sealed]

def unsealing : ServiceInput :=
  request 3 host (.editMessage vault.id (sent host "c") hello)

end Chat

namespace MessagingService

open Chat

theorem secret_disciplined_whispered :
    (reached whispered).engine.Disciplined ∧
      ((reached whispered).engine.findMessage vault.id (sent host "c")).any
        (fun message ↦ message.content = sealed) = true := by
  obtain ⟨hdiscreet, hstored⟩ : Runs.Along (next world) Discreet
        (empty ({} : MemoryStateStore) (none : Option Empty)) whispered ∧
      ((reached whispered).engine.findMessage vault.id (sent host "c")).any
        (fun message ↦ message.content = sealed) = true := by decide +kernel
  exact ⟨secret_disciplined hdiscreet, hstored⟩

/-- The host edits the secret message into plaintext. -/
theorem secret_unsealed :
    ¬ ∀ inputs : List ServiceInput, (reached inputs).engine.Disciplined := by
  intro hclaim
  obtain ⟨hstored, hsecret⟩ : ((reached (whispered ++ [unsealing])).engine.findMessage vault.id
        (sent host "c")).any (fun message ↦ message.content = hello ∧ message.deleted = false) = true ∧
      (reached (whispered ++ [unsealing])).engine.conversations[vault.id]?.all
        (fun conversation ↦ conversation.kind = .secret) = true := by decide +kernel
  obtain ⟨message, hmessage, hplain⟩ := (Option.any_eq_true _ _).mp hstored
  obtain ⟨hcontent, hundeleted⟩ := of_decide_eq_true hplain
  obtain ⟨conversation, hfound, hfits⟩ := hclaim _ _ _ _ hmessage
  rw [hfound, Option.all_some] at hsecret
  have hany := hfits.1 (of_decide_eq_true hsecret) hundeleted
  rw [hcontent] at hany
  revert hany
  decide

end MessagingService

end Fabushi.Messaging
