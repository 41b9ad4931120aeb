import Fabushi.Messaging.RetentionRuns

/-!
# Who may write the messages of a conversation

Sending, reading and receiving check that the actor takes part in the conversation.
Edits, deletions, reactions, pins, votes and forwards name a conversation too, and
write its messages for anybody. `Entitled` says what they would have to check.
-/

namespace Fabushi.Messaging

open Effects Result Std

variable {S B : Type}

def ClientCommand.touched : ClientCommand → Option (ConversationId × List MessageId)
  | .editMessage k id _ => some (k, [id])
  | .deleteMessages k ids _ => some (k, ids)
  | .setReaction k id _ => some (k, [id])
  | .pinMessage k id _ => some (k, [id])
  | .votePoll k id _ => some (k, [id])
  | _ => none

def ClientCommand.joined : ClientCommand → Option ConversationId
  | .sendMessage k .. => some k
  | .markRead k _ => some k
  | _ => none

namespace MessagingState

def Sees (state : MessagingState) (actorId : ActorId) (k : ConversationId) : Prop :=
  ∀ conversation ∈ state.conversations[k]?, state.actorCanSeeConversation actorId conversation = true

instance (state : MessagingState) (actorId : ActorId) (k : ConversationId) :
    Decidable (state.Sees actorId k) :=
  inferInstanceAs (Decidable (∀ conversation ∈ state.conversations[k]?, _))

def takesPart (state : MessagingState) (actorId : ActorId) (k : ConversationId) : Bool :=
  (state.conversations[k]?.any fun conversation ↦
    conversation.hasParticipant actorId || conversation.isOwnedBy actorId) ||
  state.communities[k]?.any fun community ↦ communityHasAccess community actorId

def Entitled (state : MessagingState) (actorId : ActorId) : ClientCommand → Prop
  | .forwardMessage source id destination _ =>
      (state.findMessage source id).isSome = true → state.Sees actorId destination
  | .sendMessage k .. => state.takesPart actorId k = true → state.Sees actorId k
  | .markRead k _ =>
      (state.conversations[k]?.any fun conversation ↦ conversation.kind.hasReceipts) = true →
        state.takesPart actorId k = true → state.Sees actorId k
  | .sync _ _ => ∀ conversation ∈ state.conversations.values,
      conversation.kind.hasReceipts = true → conversation.hasParticipant actorId = true →
        state.actorCanSeeConversation actorId conversation = true
  | command => ∀ touched ∈ command.touched,
      (touched.2.any fun id ↦ (state.findMessage touched.1 id).isSome) = true →
        state.Sees actorId touched.1

instance (state : MessagingState) (actorId : ActorId) (command : ClientCommand) :
    Decidable (state.Entitled actorId command) := by
  unfold Entitled
  split <;> infer_instance

def Filed (state : MessagingState) : Prop :=
  ∀ (k : ConversationId) (conversation : Conversation),
    state.conversations[k]? = some conversation → conversation.id = k

theorem filed_empty : Filed {} := by
  intro k conversation h
  simp at h

theorem Filed.next {state : MessagingState} (h : state.Filed) (c : Command) :
    (state.next c).Filed := by
  intro k conversation hconversation
  have hnext := nextConversation state c k
  rw [hconversation] at hnext
  generalize hold : state.conversations[k]? = old at hnext
  cases hnext with
  | kept hkept =>
      rcases hkept with ⟨-, hnone⟩ | ⟨a, b, ha, hb, hkeeps⟩
      · cases hnone
      · obtain rfl := Option.some.inj hb
        rw [hkeeps.id]
        exact h k a (hold.trans ha)
  | @retained old => exact h k old hold
  | upserted _ hid => exact hid

theorem Filed.run {state : MessagingState} (h : state.Filed) (commands : List Command) :
    (Runs.run MessagingState.next state commands).Filed := by
  induction commands generalizing state with
  | nil => exact h
  | cons c commands ih => exact ih (h.next c)

/-! ## The commands that write messages -/

section Writing

variable {state : MessagingState} {env : ServiceEnv} {actorId : ActorId} {serverTimeMs : Int64}
  {command : ClientCommand} {commands : List Command} {k : ConversationId} {id : MessageId}

theorem exists_writing (hplace : ∀ c ∈ commands, c.InPlace)
    (haccepted : Runs.Along next Accepted state commands)
    (hchanged : (Runs.run next state commands).findMessage k id ≠ state.findMessage k id) :
    ∃ front c back, commands = front ++ c :: back ∧ c.messageConversation = some k := by
  induction commands generalizing state with
  | nil => exact absurd rfl hchanged
  | cons c commands ih =>
      by_cases hfirst : (state.next c).findMessage k id = state.findMessage k id
      · rw [Runs.run_cons, ← hfirst] at hchanged
        obtain ⟨front, c', back, rfl, hc'⟩ := ih
          (fun c' hc' ↦ hplace c' (List.mem_cons_of_mem _ hc')) haccepted.2 hchanged
        exact ⟨c :: front, c', back, rfl, hc'⟩
      · refine ⟨[], c, commands, rfl, ?_⟩
        have hstep := nextMessage state (hplace c List.mem_cons_self) k id
        generalize (state.next c).findMessage k id = new at hstep hfirst
        generalize state.findMessage k id = old at hstep hfirst
        cases hstep with
        | same => exact absurd rfl hfirst
        | rewritten hconversation => exact hconversation
        | queued hconversation => exact hconversation

theorem some_of_requireMessage {message : Message}
    (h : state.requireMessage k id = .ok message) : (state.findMessage k id).isSome = true := by
  rw [okOr_eq_ok.mp h]
  rfl

theorem some_of_accepted_delete {ids : List MessageId}
    (h : state.Accepted (.deleteMessages k ids)) :
    (ids.any fun id ↦ (state.findMessage k id).isSome) = true := by
  obtain ⟨events, h⟩ := h
  obtain ⟨_, hsome, h⟩ := bind_eq_ok.mp h
  obtain ⟨_, hall, -⟩ := bind_eq_ok.mp h
  rw [List.any_eq_true]
  cases hids : (ExtTreeSet.ofList ids compare).toList with
  | nil =>
      exfalso
      apply ensure_eq_ok.mp hsome
      rw [← ExtTreeSet.isEmpty_toList, hids]
      rfl
  | cons id rest =>
      rw [hids] at hall
      obtain ⟨_, hfirst, -⟩ := bind_eq_ok.mp hall
      obtain ⟨message, hmessage, -⟩ := bind_eq_ok.mp hfirst
      refine ⟨id, ?_, some_of_requireMessage hmessage⟩
      have hmem : id ∈ (ExtTreeSet.ofList ids compare).toList := by
        rw [hids]
        exact List.mem_cons_self
      rw [ExtTreeSet.mem_toList] at hmem
      simpa using hmem

/-- The request behind an accepted command that writes messages of `k`. -/
theorem touched_of_accepted {c : Command}
    (hc : c ∈ state.projectCommand env.sha256 actorId serverTimeMs command)
    (hk : c.messageConversation = some k)
    (haccepted : command.joined = none → state.Accepted c) :
    command.joined = some k ∨
      (∃ ids, command.touched = some (k, ids) ∧
        (ids.any fun id ↦ (state.findMessage k id).isSome) = true) ∨
      ∃ source id clientMessageId, command = .forwardMessage source id k clientMessageId ∧
        (state.findMessage source id).isSome = true := by
  cases command
  case sendMessage =>
    left
    simp only [projectCommand, projectSendMessage, List.mem_cons, List.not_mem_nil,
      or_false] at hc
    rcases hc with rfl | rfl <;> exact hk
  case markRead =>
    left
    simp only [projectCommand, projectMarkRead, List.mem_cons] at hc
    rcases hc with rfl | hc
    · cases hk
    · split at hc
      · obtain rfl := List.mem_singleton.mp hc
        exact hk
      · cases hc
  case updateConversation =>
    simp only [projectCommand] at hc
    split at hc <;> cases List.mem_singleton.mp hc <;> cases hk
  case forwardMessage =>
    obtain rfl := List.mem_singleton.mp hc
    obtain rfl := Option.some.inj hk
    obtain ⟨events, hdecide⟩ := haccepted rfl
    obtain ⟨_, -, h⟩ := bind_eq_ok.mp hdecide
    obtain ⟨_, -, h⟩ := bind_eq_ok.mp h
    obtain ⟨_, -, h⟩ := bind_eq_ok.mp h
    obtain ⟨_, -, h⟩ := bind_eq_ok.mp h
    obtain ⟨original, horiginal, -⟩ := bind_eq_ok.mp h
    exact .inr (.inr ⟨_, _, _, rfl, some_of_requireMessage horiginal⟩)
  case deleteMessages =>
    obtain rfl := List.mem_singleton.mp hc
    obtain rfl := Option.some.inj hk
    obtain ⟨events, hdecide⟩ := haccepted rfl
    exact .inr (.inl ⟨_, rfl, some_of_accepted_delete ⟨events, hdecide⟩⟩)
  case votePoll =>
    obtain rfl := List.mem_singleton.mp hc
    obtain rfl := Option.some.inj hk
    obtain ⟨events, hdecide⟩ := haccepted rfl
    obtain ⟨_, -, h⟩ := bind_eq_ok.mp hdecide
    obtain ⟨message, hmessage, -⟩ := bind_eq_ok.mp h
    exact .inr (.inl ⟨_, rfl, List.any_eq_true.mpr
      ⟨_, List.mem_singleton_self _, some_of_requireMessage hmessage⟩⟩)
  case editMessage | setReaction | pinMessage =>
    obtain rfl := List.mem_singleton.mp hc
    obtain rfl := Option.some.inj hk
    obtain ⟨events, hdecide⟩ := haccepted rfl
    obtain ⟨message, hmessage, -⟩ := bind_eq_ok.mp hdecide
    exact .inr (.inl ⟨_, rfl, List.any_eq_true.mpr
      ⟨_, List.mem_singleton_self _, some_of_requireMessage hmessage⟩⟩)
  all_goals
    first
    | cases hc; done
    | (cases List.mem_singleton.mp hc; cases hk)

theorem takesPart_of_queue {content : MessageContent} {localMessageId : MessageId}
    {clientMessageId : ClientMessageId} {replyToMessageId threadRootMessageId : Option MessageId}
    {createdAtMs : Int64} {scheduledAtMs : Option Int64} {silent protectedContent : Bool}
    (h : state.Accepted (.queueMessage k localMessageId clientMessageId actorId content
      replyToMessageId threadRootMessageId createdAtMs scheduledAtMs silent protectedContent)) :
    state.takesPart actorId k = true := by
  obtain ⟨events, h⟩ := h
  obtain ⟨conversation, hconversation, h⟩ := bind_eq_ok.mp h
  obtain ⟨_, -, h⟩ := bind_eq_ok.mp h
  obtain ⟨_, hpermissions, -⟩ := bind_eq_ok.mp h
  obtain ⟨_, hmember, -⟩ := bind_eq_ok.mp hpermissions
  rw [takesPart, okOr_eq_ok.mp hconversation, Option.any_some, Bool.or_eq_true, Bool.or_eq_true]
  exact .inl (ensure_eq_ok.mp hmember)

theorem takesPart_of_markRead (h : state.Accepted (.markRead k actorId id)) :
    state.takesPart actorId k = true := by
  obtain ⟨events, h⟩ := h
  obtain ⟨_, -, h⟩ := bind_eq_ok.mp h
  obtain ⟨conversation, hconversation, h⟩ := bind_eq_ok.mp h
  obtain ⟨_, haccess, -⟩ := bind_eq_ok.mp h
  have haccess := ensure_eq_ok.mp haccess
  rw [takesPart, okOr_eq_ok.mp hconversation, Option.any_some]
  cases hcommunity : state.communities[k]? with
  | none =>
      rw [hcommunity] at haccess
      rcases Bool.or_eq_true_iff.mp haccess with howner | hmember
      · rw [howner, Bool.or_true, Bool.true_or]
      · rw [hmember, Bool.true_or, Bool.true_or]
  | some community =>
      rw [hcommunity] at haccess
      rcases Bool.or_eq_true_iff.mp haccess with hmember | howner
      · rw [Option.any_some, hmember, Bool.or_true]
      · rw [howner, Bool.or_true, Bool.true_or]

end Writing

/-! ## Requests -/

section Requests

variable {env : ServiceEnv} {actorId : ActorId} {serverTimeMs : Int64} {command : ClientCommand}
  {before after : MessagingState} {commands : List Command} {k : ConversationId} {id : MessageId}

theorem settled_frame (hkeyed : before.Keyed) (serverTimeMs : Int64) :
    (before.settled serverTimeMs).conversations = before.conversations ∧
      (before.settled serverTimeMs).communities = before.communities ∧
      ∀ k id, ((before.settled serverTimeMs).findMessage k id).isSome =
        (before.findMessage k id).isSome := by
  obtain ⟨⟨messages, hsettled⟩, hfind⟩ := hkeyed.settled_eq serverTimeMs
  refine ⟨by rw [hsettled], by rw [hsettled], fun k id ↦ ?_⟩
  rw [hfind, Option.isSome_map]

theorem Sees.of_settled (h : (before.settled serverTimeMs).Sees actorId k)
    (hkeyed : before.Keyed) : before.Sees actorId k := by
  obtain ⟨hconversations, hcommunities, -⟩ := settled_frame hkeyed serverTimeMs
  unfold Sees actorCanSeeConversation at h ⊢
  rwa [hconversations, hcommunities] at h

theorem Entitled.settled (h : before.Entitled actorId command) (hkeyed : before.Keyed) :
    (before.settled serverTimeMs).Entitled actorId command := by
  obtain ⟨hconversations, hcommunities, hfind⟩ := settled_frame hkeyed serverTimeMs
  cases command <;>
    simpa only [Entitled, Sees, takesPart, actorCanSeeConversation, hconversations, hcommunities,
      hfind] using h

theorem accepted_head {state : MessagingState} {first c : Command} {rest front back : List Command}
    (hcommands : first :: rest = front ++ c :: back)
    (haccepted : Runs.Along next Accepted state (front ++ c :: [])) : state.Accepted first := by
  cases front with
  | nil =>
      obtain ⟨rfl, -⟩ := List.cons.inj hcommands
      exact haccepted.1
  | cons _ _ =>
      obtain ⟨rfl, -⟩ := List.cons.inj hcommands
      exact haccepted.1

theorem first_of_not_joined {state : MessagingState} (hjoined : command.joined = none)
    {front back : List Command} {c : Command}
    (hcommands : state.projectCommand env.sha256 actorId serverTimeMs command =
      front ++ c :: back) : front = [] := by
  rcases projected_cases state env.sha256 actorId serverTimeMs command with
    ⟨only, honly⟩ | hnone | ⟨_, _, _, _, _, _, _, _, rfl⟩ | ⟨_, _, rfl⟩
  · have hlength := congrArg List.length (honly.symm.trans hcommands)
    simp only [List.length_append, List.length_cons, List.length_nil] at hlength
    exact List.eq_nil_of_length_eq_zero (by omega)
  · rw [hnone] at hcommands
    exact absurd hcommands.symm (List.append_ne_nil_of_right_ne_nil _ (List.cons_ne_nil _ _))
  · cases hjoined
  · cases hjoined

theorem sees_of_joined {state : MessagingState} (hentitled : state.Entitled actorId command)
    (hjoined : command.joined = some k) {front back : List Command} {c : Command}
    (hcommands : state.projectCommand env.sha256 actorId serverTimeMs command = front ++ c :: back)
    (haccepted : Runs.Along next Accepted state (front ++ c :: []))
    (hk : c.messageConversation = some k) : state.Sees actorId k := by
  cases command
  case sendMessage =>
    obtain rfl := Option.some.inj hjoined
    exact hentitled (takesPart_of_queue (accepted_head hcommands haccepted))
  case markRead conversationId messageId =>
    obtain rfl := Option.some.inj hjoined
    refine hentitled ?_ (takesPart_of_markRead (accepted_head hcommands haccepted))
    have hc : c ∈ state.projectCommand env.sha256 actorId serverTimeMs
        (.markRead conversationId messageId) := by
      rw [hcommands]
      exact List.mem_append_right _ List.mem_cons_self
    rcases List.mem_cons.mp hc with rfl | hc
    · cases hk
    · split at hc
      · rename_i hmark
        exact (Bool.and_eq_true_iff.mp hmark).1
      · cases hc
  all_goals cases hjoined

theorem sees_of_delivered {state : MessagingState} {cursor : Option String} {limit : UInt32}
    (hentitled : state.Entitled actorId (.sync cursor limit)) (hfiled : state.Filed) {c : Command}
    (hc : c ∈ MessagingService.undeliveredMessages state actorId)
    (hk : c.messageConversation = some k) : state.Sees actorId k := by
  obtain ⟨conversation, hmem, hreceipts, hparticipant, _, rfl⟩ := undelivered_cases hc
  obtain rfl := Option.some.inj hk
  obtain ⟨k', hk'⟩ := BTreeMap.mem_values.mp hmem
  intro conversation' hconversation'
  rw [← hfiled k' conversation hk'] at hk'
  obtain rfl := Option.some.inj (hconversation'.symm.trans hk')
  exact hentitled _ hmem hreceipts hparticipant

theorem Served.sees (h : Served env actorId serverTimeMs command before after)
    (hkeyed : before.Keyed) (hfiled : before.Filed) (hentitled : before.Entitled actorId command)
    (hchanged : after.findMessage k id ≠ before.findMessage k id)
    (hunsettled : after.findMessage k id ≠
      (before.findMessage k id).map (Message.settledAt serverTimeMs)) :
    before.Sees actorId k := by
  cases h with
  | refused => exact absurd rfl hchanged
  | settling front back hexpired =>
      rcases hkeyed.find_expired_front hexpired k id with hsame | hsettled
      · exact absurd hsame hchanged
      · exact absurd hsettled hunsettled
  | @working _ commands hwork front back hcommands haccepted =>
      rw [← (hkeyed.settled_eq serverTimeMs).2] at hunsettled
      have hplace : ∀ c ∈ front, c.InPlace := fun c hc ↦
        (hwork.routine c (by simp [hcommands, hc])).inPlace
      obtain ⟨first, c, last, rfl, hk⟩ := exists_writing hplace haccepted hunsettled
      have hentitled' : (before.settled serverTimeMs).Entitled actorId command :=
        hentitled.settled hkeyed
      rw [List.append_assoc, List.cons_append] at hcommands
      have hbegin : Runs.Along next Accepted (before.settled serverTimeMs) (first ++ c :: []) := by
        rw [List.append_cons] at haccepted
        exact ((Runs.along_append _ _ _ _).mp haccepted).1
      suffices hsees : (before.settled serverTimeMs).Sees actorId k from hsees.of_settled hkeyed
      have hc : c ∈ commands := by simp [hcommands]
      cases hwork with
      | delivered hsync =>
          subst hsync
          have hfiled' : (before.settled serverTimeMs).Filed := hfiled.run _
          exact sees_of_delivered hentitled' hfiled' hc hk
      | projected =>
          have hdone : command.joined = none → (before.settled serverTimeMs).Accepted c := by
            intro hjoined
            obtain rfl := first_of_not_joined hjoined hcommands
            exact hbegin.1
          rcases touched_of_accepted hc hk hdone with hjoined | ⟨ids, htouched, hany⟩ |
            ⟨source, id', clientMessageId, rfl, hsome⟩
          · exact sees_of_joined hentitled' hjoined hcommands hbegin hk
          · cases command <;> first | cases htouched; done | skip
            all_goals exact hentitled' _ htouched hany
          · exact hentitled' hsome

end Requests

end MessagingState

/-! ## Runs -/

namespace MessagingService

open MessagingState

variable [MessagingStateStore S] [BlobStore B] {env : ServiceEnv} {store : S}
  {blobStore : Option B} {inputs : List ServiceInput} {s : MessagingService S B}

theorem filed_run (inputs : List ServiceInput) :
    (Runs.run (next env) (empty store blobStore) inputs).engine.Filed := by
  refine Runs.invariant (I := fun s : MessagingService S B ↦ s.engine.Filed) ?_ filed_empty inputs
  intro s input hfiled
  obtain ⟨commands, hrun, -⟩ := engine_next env s input
  rw [hrun]
  exact hfiled.run commands

/-- In every reachable state, a request whose actor sees what it writes changes no
message of a conversation that its actor cannot see, other than by the settlement. -/
theorem messages_framed {request : ClientEnvelope} {serverTimeMs : Int64}
    (ht : Takes env store blobStore inputs s (.handle request serverTimeMs))
    (hentitled : request.protocolVersion = protocolVersion →
      s.engine.Entitled request.context.actorId request.command)
    (k : ConversationId) (id : MessageId)
    (hchanged : (next env s (.handle request serverTimeMs)).engine.findMessage k id ≠
      s.engine.findMessage k id)
    (hunsettled : (next env s (.handle request serverTimeMs)).engine.findMessage k id ≠
      (s.engine.findMessage k id).map (Message.settledAt serverTimeMs)) :
    s.engine.Sees request.context.actorId k := by
  by_cases hversion : request.protocolVersion = protocolVersion
  · have hfiled : s.engine.Filed := by
      obtain ⟨xs, _, -, rfl⟩ := ht
      exact filed_run xs
    exact (served_handle env request serverTimeMs s).sees ht.keyed hfiled (hentitled hversion)
      hchanged hunsettled
  · rw [next, handle, if_pos hversion] at hchanged
    exact absurd rfl hchanged

end MessagingService

namespace Chat

def greeted : List ServiceInput :=
  opening ++ [send 2 host room.id "c" hello]

def goodbye : MessageContent :=
  .text { text := "goodbye" }

def edit (actorId : ActorId) : ServiceInput :=
  request 3 actorId (.editMessage room.id (sent host "c") goodbye)

end Chat

namespace MessagingService

open Chat

theorem messages_framed_host : (reached greeted).engine.Sees host room.id :=
  have ht : Takes world ({} : MemoryStateStore) (none : Option Empty) (greeted ++ [edit host])
      (reached greeted) (edit host) := ⟨greeted, [], rfl, rfl⟩
  messages_framed ht (fun _ ↦ by decide +kernel) room.id (sent host "c") (by decide +kernel)
    (by decide +kernel)

/-- A stranger edits the host's message. -/
theorem messages_edited_by_stranger :
    ¬ ∀ (inputs : List ServiceInput) (s : MessagingService MemoryStateStore Empty)
      (request : ClientEnvelope) (serverTimeMs : Int64),
      Takes world {} none inputs s (.handle request serverTimeMs) →
      ∀ (k : ConversationId) (id : MessageId),
        (next world s (.handle request serverTimeMs)).engine.findMessage k id ≠
            s.engine.findMessage k id →
        (next world s (.handle request serverTimeMs)).engine.findMessage k id ≠
            (s.engine.findMessage k id).map (Message.settledAt serverTimeMs) →
          s.engine.Sees request.context.actorId k := by
  intro hclaim
  have hsees := hclaim (greeted ++ [edit stranger]) (reached greeted) _ _
    ⟨greeted, [], rfl, rfl⟩ room.id (sent host "c") (by decide +kernel) (by decide +kernel)
  revert hsees
  decide +kernel

end MessagingService

end Fabushi.Messaging
