import Fabushi.Messaging.MembershipRuns

/-!
# Members of a community and participants of its conversation

Membership is kept twice: with a status in the community, and with a role in the
participant list of its conversation. Commands on one member write both, as long as
the conversation is of a community kind; creating the community copies the participants,
and replacing the record of a conversation can change the list alone.
-/

namespace Fabushi.Messaging

open Effects Result Std

variable {S B : Type}

def CommunityState.roleOf (community : CommunityState) (actorId : ActorId) :
    Option ParticipantRole :=
  (community.statusOf actorId).bind MemberStatus.role

structure Agrees (participants : List Participant) (roleOf : ActorId → Option ParticipantRole) :
    Prop where
  nodup : (participants.map fun participant ↦ participant.actorId).Nodup
  roles : ∀ (a : ActorId) (role : ParticipantRole),
    (∃ participant ∈ participants, participant.actorId = a ∧ participant.role = role) ↔
      roleOf a = some role

def Participant.seat (participant : Participant) : ActorId × ParticipantRole :=
  (participant.actorId, participant.role)

section Agreement

variable {participants others : List Participant} {roleOf : ActorId → Option ParticipantRole}

theorem Agrees.followed {a : ActorId} {role : Option ParticipantRole}
    (h : Agrees participants roleOf) (hfollowed : Followed a role participants others) :
    Agrees others (Function.update roleOf a role) := by
  cases hfollowed with
  | @set participant hactor hrole =>
      refine ⟨Table.nodup_put h.nodup, fun b r ↦ ?_⟩
      simp only [upsertParticipant, Table.mem_put h.nodup]
      by_cases hb : b = a
      · subst hb
        rw [Function.update_self, hrole]
        constructor
        · rintro ⟨p, rfl | ⟨-, hne⟩, hp, hr⟩
          · exact congrArg some hr
          · exact absurd (hp.trans hactor.symm) hne
        · intro hr
          exact ⟨participant, .inl rfl, hactor, Option.some.inj hr⟩
      · rw [Function.update_of_ne hb, ← h.roles]
        constructor
        · rintro ⟨p, rfl | ⟨hp, -⟩, hpb, hr⟩
          · exact absurd (hpb.symm.trans hactor) hb
          · exact ⟨p, hp, hpb, hr⟩
        · rintro ⟨p, hp, hpb, hr⟩
          refine ⟨p, .inr ⟨hp, fun heq ↦ hb ?_⟩, hpb, hr⟩
          rw [← hpb, heq, hactor]
  | removed hrole =>
      refine ⟨h.nodup.sublist (List.filter_sublist.map _), fun b r ↦ ?_⟩
      simp only [removeParticipant, List.mem_filter, decide_eq_true_eq]
      by_cases hb : b = a
      · subst hb
        rw [Function.update_self, hrole]
        constructor
        · rintro ⟨p, ⟨-, hne⟩, hp, -⟩
          exact absurd hp hne
        · intro hr
          cases hr
      · rw [Function.update_of_ne hb, ← h.roles]
        constructor
        · rintro ⟨p, ⟨hp, -⟩, hpb, hr⟩
          exact ⟨p, hp, hpb, hr⟩
        · rintro ⟨p, hp, hpb, hr⟩
          exact ⟨p, ⟨hp, fun heq ↦ hb (hpb.symm.trans heq)⟩, hpb, hr⟩

theorem Agrees.perm (h : Agrees participants roleOf)
    (hperm : (others.map Participant.seat).Perm (participants.map Participant.seat)) :
    Agrees others roleOf := by
  have hactors : ∀ ps : List Participant, (ps.map fun participant ↦ participant.actorId) =
      (ps.map Participant.seat).map Prod.fst := fun ps ↦ by
    rw [List.map_map]
    rfl
  have hseats : ∀ (ps : List Participant) (a : ActorId) (role : ParticipantRole),
      (∃ participant ∈ ps, participant.actorId = a ∧ participant.role = role) ↔
        (a, role) ∈ ps.map Participant.seat := by
    intro ps a role
    simp [Participant.seat]
  refine ⟨?_, fun a role ↦ ?_⟩
  · rw [hactors, (hperm.map Prod.fst).nodup_iff, ← hactors]
    exact h.nodup
  · rw [hseats, hperm.mem_iff, ← hseats]
    exact h.roles a role

end Agreement

/-! ## Seeds -/

section Seeds

variable {requested : BTreeMap ActorId CommunityMember} {participants : List Participant}

theorem get_seeds_of_forall_ne {members : BTreeMap ActorId CommunityMember} {a : ActorId}
    (h : ∀ participant ∈ participants, participant.actorId ≠ a) :
    (participants.foldl (fun members participant ↦ members.insert participant.actorId
      (MessagingState.seedMember requested participant)) members)[a]? = members[a]? := by
  induction participants generalizing members with
  | nil => rfl
  | cons participant participants ih =>
      rw [List.foldl_cons, ih fun p hp ↦ h p (List.mem_cons_of_mem _ hp)]
      exact BTreeMap.get_insert_ne members _ (h participant List.mem_cons_self)

theorem get_seeds_of_mem {members : BTreeMap ActorId CommunityMember} {participant : Participant}
    (hnodup : (participants.map fun participant ↦ participant.actorId).Nodup)
    (hmem : participant ∈ participants) :
    (participants.foldl (fun members participant ↦ members.insert participant.actorId
      (MessagingState.seedMember requested participant)) members)[participant.actorId]? =
        some (MessagingState.seedMember requested participant) := by
  induction participants generalizing members with
  | nil => cases hmem
  | cons head participants ih =>
      rw [List.map_cons, List.nodup_cons] at hnodup
      rw [List.foldl_cons]
      rcases List.mem_cons.mp hmem with rfl | hmem
      · rw [get_seeds_of_forall_ne fun p hp heq ↦
          hnodup.1 (List.mem_map.mpr ⟨p, hp, heq⟩)]
        exact BTreeMap.get_insert_self _ _ _
      · exact ih hnodup.2 hmem

theorem agrees_seeds {community : CommunityState}
    (hmembers : community.members = participants.foldl (fun members participant ↦
      members.insert participant.actorId (MessagingState.seedMember requested participant)) ∅)
    (hnodup : (participants.map fun participant ↦ participant.actorId).Nodup) :
    Agrees participants community.roleOf := by
  refine ⟨hnodup, fun a role ↦ ?_⟩
  unfold CommunityState.roleOf CommunityState.statusOf
  rw [hmembers]
  constructor
  · rintro ⟨participant, hmem, rfl, rfl⟩
    rw [get_seeds_of_mem hnodup hmem]
    exact ParticipantRole.role_memberStatus participant.role
  · intro hrole
    obtain ⟨status, hstatus, hrole⟩ := Option.bind_eq_some_iff.mp hrole
    obtain ⟨member, hmember, rfl⟩ := Option.map_eq_some_iff.mp hstatus
    rcases CommunityState.get_seeds hmember with hnone | ⟨participant, hmem, ha, rfl⟩
    · simp at hnone
    · refine ⟨participant, hmem, ha, ?_⟩
      have hsame := (ParticipantRole.role_memberStatus participant.role).symm.trans hrole
      exact Option.some.inj hsame

end Seeds

/-! ## Steps -/

def ClientCommand.memberWrite : ClientCommand → Option (ConversationId × ActorId × MemberStatus)
  | .moderateCommunityMember conversationId member _ | .setCommunityMember conversationId member =>
      some (conversationId, member.actorId, member.status)
  | .respondCommunityJoin conversationId requesterId true =>
      some (conversationId, requesterId, .member)
  | .setConversationParticipant conversationId participant =>
      some (conversationId, participant.actorId, participant.role.memberStatus)
  | .removeConversationParticipant conversationId target => some (conversationId, target, .left)
  | _ => none

def ClientCommand.updatedCommunity : ClientCommand → Option CommunityState
  | .updateCommunity community => some community
  | _ => none

theorem memberWrite_of_grounds {old : CommunityState} {k : ConversationId} {c : Command}
    {member : CommunityMember} (hkeys : old.Enrolled) (h : Grounds old k c member) :
    ∃ client, c.membershipOrigin = some client ∧
      client.memberWrite = some (k, member.actorId, member.status) := by
  cases h with
  | moderated => exact ⟨_, rfl, rfl⟩
  | set => exact ⟨_, rfl, rfl⟩
  | joined => exact ⟨_, rfl, rfl⟩
  | placed hactor hstatus => exact ⟨_, rfl, by rw [hactor, hstatus]; rfl⟩
  | removed hmember =>
      obtain rfl := hkeys.members _ _ hmember
      exact ⟨_, rfl, rfl⟩

theorem memberWrite_of_places {k : ConversationId} {c : Command} {a : ActorId}
    {role : Option ParticipantRole} (h : Places k c a role) :
    ∃ client status, c.membershipOrigin = some client ∧
      client.memberWrite = some (k, a, status) ∧ status.role = role := by
  cases h with
  | set participant =>
      exact ⟨_, _, rfl, rfl, ParticipantRole.role_memberStatus participant.role⟩
  | removed target => exact ⟨_, _, rfl, rfl, rfl⟩

theorem roleOf_insert {old new : CommunityState} {member : CommunityMember}
    (h : new.members = old.members.insert member.actorId member) :
    new.roleOf = Function.update old.roleOf member.actorId member.status.role := by
  funext a
  rw [CommunityState.roleOf, CommunityState.statusOf_insert h]
  by_cases ha : member.actorId = a
  · subst ha
    rw [if_pos rfl, Function.update_self, Option.bind_some]
  · rw [if_neg ha, Function.update_of_ne (Ne.symm ha)]
    rfl

theorem roleOf_of_members {old new : CommunityState} (h : new.members = old.members) :
    new.roleOf = old.roleOf := by
  funext a
  rw [CommunityState.roleOf, CommunityState.roleOf, CommunityState.statusOf,
    CommunityState.statusOf, h]

namespace MessagingState

def Balanced (state : MessagingState) : Prop :=
  ∀ (k : ConversationId) (community : CommunityState), state.communities[k]? = some community →
    ∃ kind participants, state.rosterOf k = some (kind, participants) ∧
      Agrees participants community.roleOf

theorem balanced_empty : Balanced {} := by
  intro k community h
  simp at h

def KeepsRole (state : MessagingState) (write : ConversationId × ActorId × MemberStatus) : Prop :=
  ∀ community ∈ state.communities[write.1]?, ∀ conversation ∈ state.conversations[write.1]?,
    conversation.kind.isCommunity = false → community.roleOf write.2.1 = write.2.2.role

def KeepsSeats (state : MessagingState) (conversation : Conversation) : Prop :=
  state.communities.contains conversation.id = true →
    ∀ existing ∈ state.conversations[conversation.id]?, existing.kind.isCommunity = false →
      (conversation.participants.map Participant.seat).Perm
        (existing.participants.map Participant.seat)

def FoundedOnce (state : MessagingState) (community : CommunityState) : Prop :=
  state.communities.contains community.conversationId = false →
    ∀ conversation ∈ state.conversations[community.conversationId]?,
      (conversation.participants.map fun participant ↦ participant.actorId).Nodup

instance (state : MessagingState) (write : ConversationId × ActorId × MemberStatus) :
    Decidable (state.KeepsRole write) :=
  inferInstanceAs (Decidable (∀ community ∈ state.communities[write.1]?, _))

instance (state : MessagingState) (conversation : Conversation) :
    Decidable (state.KeepsSeats conversation) :=
  inferInstanceAs (Decidable (_ → ∀ existing ∈ state.conversations[conversation.id]?, _))

instance (state : MessagingState) (community : CommunityState) :
    Decidable (state.FoundedOnce community) :=
  inferInstanceAs (Decidable
    (_ → ∀ conversation ∈ state.conversations[community.conversationId]?, _))

theorem rosterOf_eq_some {state : MessagingState} {k : ConversationId} {kind : ConversationKind}
    {participants : List Participant} (h : state.rosterOf k = some (kind, participants)) :
    ∃ conversation, state.conversations[k]? = some conversation ∧ conversation.kind = kind ∧
      conversation.participants = participants := by
  obtain ⟨conversation, hfound, hpair⟩ := Option.map_eq_some_iff.mp h
  simp only [Prod.mk.injEq] at hpair
  exact ⟨conversation, hfound, hpair.1, hpair.2⟩

theorem NextMembership.balanced {state after : MessagingState} {c : Command} {k : ConversationId}
    (h : NextMembership state c k after) (henrolled : state.Enrolled) (hbalanced : state.Balanced)
    (hwrite : ∀ client ∈ c.membershipOrigin, ∀ write ∈ client.memberWrite, state.KeepsRole write)
    (hreplace : ∀ conversation, c = .upsertConversation conversation →
      state.KeepsSeats conversation)
    (hfound : ∀ actorId community, c = .updateCommunity actorId community →
      state.FoundedOnce community)
    {community : CommunityState} (hcommunity : after.communities[k]? = some community) :
    ∃ kind participants, after.rosterOf k = some (kind, participants) ∧
      Agrees participants community.roleOf := by
  cases h with
  | kept hnone hkept hroster =>
      cases hold : state.communities[k]? with
      | none => cases (hnone hold).symm.trans hcommunity
      | some old =>
          obtain ⟨new, hnew, hkeeps⟩ := hkept old hold
          obtain rfl := Option.some.inj (hnew.symm.trans hcommunity)
          rw [hroster, roleOf_of_members hkeeps.members]
          exact hbalanced k old hold
  | @replaced conversation hcommand hid hcommunities hguard hroster =>
      rw [hcommunities] at hcommunity
      obtain ⟨kind, participants, hbefore, hagrees⟩ := hbalanced k community hcommunity
      obtain ⟨existing, hexisting, rfl, rfl⟩ := rosterOf_eq_some hbefore
      refine ⟨conversation.kind, conversation.participants, hroster, ?_⟩
      cases hkind : existing.kind.isCommunity with
      | true =>
          rw [hguard existing hexisting hkind]
          exact hagrees
      | false =>
          subst hid
          refine hagrees.perm (hreplace conversation hcommand ?_ existing hexisting hkind)
          rw [ExtTreeMap.contains_eq_isSome_getElem?, hcommunity]
          rfl
  | @created actorId requested new conversation hcommand hid hnone hconversation _ hnew _ hmembers
      _ hroster =>
      obtain rfl := Option.some.inj (hnew.symm.trans hcommunity)
      subst hid
      refine ⟨conversation.kind, conversation.participants, ?_, agrees_seeds hmembers ?_⟩
      · rw [hroster, rosterOf, hconversation]
        rfl
      · refine hfound actorId requested hcommand ?_ conversation hconversation
        rw [ExtTreeMap.contains_eq_isSome_getElem?, hnone]
        rfl
  | @enrolled old new member hold hgrounds hnew _ hmembers _ hroster =>
      obtain rfl := Option.some.inj (hnew.symm.trans hcommunity)
      obtain ⟨kind, participants, hbefore, hagrees⟩ := hbalanced k old hold
      obtain ⟨conversation, hconversation, rfl, rfl⟩ := rosterOf_eq_some hbefore
      rw [roleOf_insert hmembers]
      rcases hroster conversation hconversation with
        ⟨participants, hafter, hfollowed⟩ | ⟨hkind, hsame⟩
      · exact ⟨_, participants, hafter, hagrees.followed hfollowed⟩
      · refine ⟨_, _, hsame.trans hbefore, ?_⟩
        obtain ⟨client, horigin, hmember⟩ := memberWrite_of_grounds (henrolled k old hold).2 hgrounds
        have hrole : old.roleOf member.actorId = member.status.role :=
          hwrite client horigin _ hmember old hold conversation hconversation hkind
        rwa [← hrole, Function.update_eq_self]
  | @dropped old new target _ hold habsent hnew hkeeps hroster =>
      obtain rfl := Option.some.inj (hnew.symm.trans hcommunity)
      obtain ⟨kind, participants, hbefore, hagrees⟩ := hbalanced k old hold
      refine ⟨kind, removeParticipant participants target, by rw [hroster, hbefore]; rfl, ?_⟩
      have hnone : old.roleOf target = none := by
        rw [CommunityState.roleOf, CommunityState.statusOf, habsent]
        rfl
      rw [roleOf_of_members hkeeps.members, ← Function.update_eq_self target old.roleOf, hnone]
      exact hagrees.followed (.removed rfl)
  | @informal conversation a role hplaces hcommunities hconversation hkind hroster =>
      rw [hcommunities] at hcommunity
      obtain ⟨kind, participants, hbefore, hagrees⟩ := hbalanced k community hcommunity
      obtain ⟨existing, hexisting, rfl, rfl⟩ := rosterOf_eq_some hbefore
      obtain rfl := Option.some.inj (hexisting.symm.trans hconversation)
      obtain ⟨others, hafter, hfollowed⟩ := hroster
      refine ⟨_, others, hafter, ?_⟩
      obtain ⟨client, status, horigin, hmember, rfl⟩ := memberWrite_of_places hplaces
      have hrole : community.roleOf a = status.role :=
        hwrite client horigin _ hmember community hcommunity existing hconversation hkind
      rw [← Function.update_eq_self a community.roleOf, hrole]
      exact hagrees.followed hfollowed

/-! ## Requests -/

section Requests

variable {env : ServiceEnv} {state : MessagingState} {request : ClientEnvelope}
  {serverTimeMs : Int64} {messages : BTreeMap ConversationId (BTreeMap MessageId Message)}
  {events : List Event}

theorem accepts_of_projected {c : Command} (hversion : request.protocolVersion = protocolVersion)
    (hauthorized : state.validateCommandAuthorization request.context.actorId
      request.command = .ok ())
    (hprojected : state.projectCommand env.sha256 request.context.actorId serverTimeMs
      request.command = [c]) (hdecide : state.decide c = .ok events) :
    state.Accepts env request serverTimeMs = true := by
  simp only [Accepts, hversion, hauthorized, hprojected, List.all_cons, hdecide, List.all_nil]
  rfl

theorem projected_updateCommunity {sha256 : List UInt8 → List UInt8} {actorId owner : ActorId}
    {command : ClientCommand} {community : CommunityState}
    (hprojected : state.projectCommand sha256 actorId serverTimeMs command =
      [.updateCommunity owner community]) :
    owner = actorId ∧ command = .updateCommunity community := by
  cases command
  case updateCommunity =>
    cases hprojected
    exact ⟨rfl, rfl⟩
  case updateConversation =>
    simp only [projectCommand] at hprojected
    split at hprojected <;> cases List.singleton_inj.mp hprojected
  case sendMessage | markRead => cases (List.cons.inj hprojected).1
  all_goals cases hprojected

theorem founded_of_projected {owner : ActorId} {community : CommunityState}
    (hversion : request.protocolVersion = protocolVersion)
    (hauthorized : state.validateCommandAuthorization request.context.actorId
      request.command = .ok ())
    (hprojected : projectCommand env.sha256 { state with messages } request.context.actorId
      serverTimeMs request.command = [.updateCommunity owner community])
    (hdecide : MessagingState.decide { state with messages } (.updateCommunity owner community) =
      .ok events) :
    state.Accepts env request serverTimeMs = true ∧
      community ∈ request.command.updatedCommunity := by
  obtain ⟨rfl, hcommand⟩ := projected_updateCommunity hprojected
  have hsame : state.projectCommand env.sha256 request.context.actorId serverTimeMs
      request.command = [.updateCommunity request.context.actorId community] := by
    rw [hcommand]
    rfl
  refine ⟨accepts_of_projected hversion hauthorized hsame hdecide, ?_⟩
  rw [hcommand]
  rfl

theorem replaced_of_projected {conversation : Conversation}
    (hversion : request.protocolVersion = protocolVersion)
    (hauthorized : state.validateCommandAuthorization request.context.actorId
      request.command = .ok ())
    (hprojected : projectCommand env.sha256 { state with messages } request.context.actorId
      serverTimeMs request.command = [.upsertConversation conversation])
    (hdecide : MessagingState.decide { state with messages } (.upsertConversation conversation) =
      .ok events) :
    state.Accepts env request serverTimeMs = true ∧
      conversation ∈ request.command.replacement state := by
  have hmem : .upsertConversation conversation ∈ projectCommand env.sha256
      { state with messages } request.context.actorId serverTimeMs request.command := by
    rw [hprojected]
    exact List.mem_singleton_self _
  have hreplacement := (projected_upsert hmem).2
  have hboth : state.projectCommand env.sha256 request.context.actorId serverTimeMs
      request.command = [.upsertConversation conversation] ∧
      request.command.replacement state = some conversation := by
    generalize request.command = command at hprojected hreplacement ⊢
    cases command
    case createConversation | updateConversation => exact ⟨hprojected, hreplacement⟩
    all_goals cases hreplacement
  exact ⟨accepts_of_projected hversion hauthorized hboth.1 hdecide, hboth.2⟩

end Requests

end MessagingState

/-! ## Runs -/

namespace MessagingService

open MessagingState

/-- Accepted requests of the input found communities over participants named once, and
as long as the conversation of a community has no community kind they neither give a
member another role nor the participants other seats. -/
def KeepsAgreement (env : ServiceEnv) (s : MessagingService S B) : ServiceInput → Prop
  | .settle .. => True
  | .handle request serverTimeMs => s.engine.Accepts env request serverTimeMs = true →
      (∀ write ∈ request.command.memberWrite, s.engine.KeepsRole write) ∧
        (∀ conversation ∈ request.command.replacement s.engine,
          s.engine.KeepsSeats conversation) ∧
        ∀ community ∈ request.command.updatedCommunity, s.engine.FoundedOnce community

instance (env : ServiceEnv) (s : MessagingService S B) (input : ServiceInput) :
    Decidable (s.KeepsAgreement env input) :=
  match input with
  | .settle .. => inferInstanceAs (Decidable True)
  | .handle request _ => inferInstanceAs (Decidable (_ →
      (∀ write ∈ request.command.memberWrite, _) ∧
        (∀ conversation ∈ request.command.replacement s.engine, _) ∧
          ∀ community ∈ request.command.updatedCommunity, _))

variable [MessagingStateStore S] [BlobStore B] {env : ServiceEnv} {store : S}
  {blobStore : Option B} {inputs : List ServiceInput} {s : MessagingService S B}
  {input : ServiceInput}

theorem balanced_next (hkeyed : s.engine.Keyed) (henrolled : s.engine.Enrolled)
    (hbalanced : s.engine.Balanced) (hkeeps : s.KeepsAgreement env input) :
    (next env s input).engine.Balanced := by
  intro k community hcommunity
  have henacts := enacts_next env hkeyed input
  generalize (next env s input).engine = after at henacts hcommunity ⊢
  cases henacts with
  | passed messages commands hpassing =>
      have hpassed := NextMembership.of_passing { s.engine with messages } hpassing
        (.deleteFolder "") k
      refine hpassed.balanced henrolled hbalanced (fun _ h ↦ ?_) (fun _ h ↦ ?_) (fun _ _ h ↦ ?_)
        hcommunity
      · cases h
      · cases h
      · cases h
  | @single request serverTimeMs hversion messages _ hauthorized c events hprojected hdecide =>
      have hsame : MessagingState.Enrolled { s.engine with messages } := henrolled
      have hnext := nextMembership hsame c k
      refine hnext.balanced hsame hbalanced (fun client horigin write hwrite ↦ ?_)
        (fun conversation hcommand ↦ ?_) (fun actorId requested hcommand ↦ ?_) hcommunity
      · have haccepts := accepts_of_membership hversion hauthorized hprojected hdecide horigin
        have hclient := (projected_membership hprojected horigin).1
        refine (hkeeps haccepts).1 write ?_
        rw [hclient]
        exact hwrite
      · subst hcommand
        obtain ⟨haccepts, hreplacement⟩ :=
          replaced_of_projected hversion hauthorized hprojected hdecide
        exact (hkeeps haccepts).2.1 conversation hreplacement
      · subst hcommand
        obtain ⟨haccepts, hupdated⟩ :=
          founded_of_projected hversion hauthorized hprojected hdecide
        exact (hkeeps haccepts).2.2 requested hupdated

/-- In every state of a run that keeps the agreement, the participants of a conversation
with a community are its active members, each once and with the role of the membership. -/
theorem membership_agrees
    (hrun : Runs.Along (next env) (KeepsAgreement env) (empty store blobStore) inputs)
    (k : ConversationId) (conversation : Conversation) (community : CommunityState)
    (hconversation : (Runs.run (next env) (empty store blobStore)
      inputs).engine.conversations[k]? = some conversation)
    (hcommunity : (Runs.run (next env) (empty store blobStore)
      inputs).engine.communities[k]? = some community) :
    (conversation.participants.map fun participant ↦ participant.actorId).Nodup ∧
      ∀ (a : ActorId) (role : ParticipantRole),
        (∃ participant ∈ conversation.participants, participant.actorId = a ∧
          participant.role = role) ↔ community.roleOf a = some role := by
  have hinvariant : ∀ s : MessagingService S B,
      s.engine.Keyed ∧ s.engine.Enrolled ∧ s.engine.Balanced →
      Runs.Along (next env) (KeepsAgreement env) s inputs →
      (Runs.run (next env) s inputs).engine.Balanced := by
    intro s hs hrun
    have hall := Runs.invariant_along
      (I := fun s : MessagingService S B ↦
        s.engine.Keyed ∧ s.engine.Enrolled ∧ s.engine.Balanced)
      (fun _ input h hkeeps ↦ ⟨keyed_next env h.1 input, enrolled_next env h.1 h.2.1 input,
        balanced_next h.1 h.2.1 h.2.2 hkeeps⟩) hs hrun
    exact hall.2.2
  obtain ⟨kind, participants, hroster, hagrees⟩ :=
    hinvariant _ ⟨keyed_empty, enrolled_empty, balanced_empty⟩ hrun k community hcommunity
  obtain ⟨found, hfound, -, rfl⟩ := rosterOf_eq_some hroster
  obtain rfl := Option.some.inj (hfound.symm.trans hconversation)
  exact ⟨hagrees.nodup, hagrees.roles⟩

end MessagingService

namespace Chat

def crowd : Conversation :=
  { room with participants := ⟨host, .owner, 2, none⟩ :: room.participants }

def crowded : List ServiceInput :=
  [profile host, profile guest, request 1 host (.createConversation crowd),
    request 1 host (.updateCommunity club)]

end Chat

namespace MessagingService

open Chat

theorem membership_agrees_club :
    ∃ conversation community,
      (reached clubbed).engine.conversations[room.id]? = some conversation ∧
      (reached clubbed).engine.communities[room.id]? = some community ∧
      (conversation.participants.map fun participant ↦ participant.actorId).Nodup ∧
        ∀ (a : ActorId) (role : ParticipantRole),
          (∃ participant ∈ conversation.participants, participant.actorId = a ∧
            participant.role = role) ↔ community.roleOf a = some role := by
  have hrun : Runs.Along (next world) (KeepsAgreement world)
      (empty ({} : MemoryStateStore) (none : Option Empty)) clubbed := by decide +kernel
  have hroom : ((reached clubbed).engine.conversations[room.id]?).isSome = true := by
    decide +kernel
  have hclub : ((reached clubbed).engine.communities[room.id]?).isSome = true := by
    decide +kernel
  obtain ⟨conversation, hconversation⟩ := Option.isSome_iff_exists.mp hroom
  obtain ⟨community, hcommunity⟩ := Option.isSome_iff_exists.mp hclub
  refine ⟨conversation, community, hconversation, hcommunity, ?_⟩
  rw [reached] at hconversation hcommunity
  exact membership_agrees hrun room.id conversation community hconversation hcommunity

/-- A host named twice is a participant twice. -/
theorem participant_twice :
    ¬ ∀ (inputs : List ServiceInput) (k : ConversationId) (conversation : Conversation)
      (community : CommunityState),
      (reached inputs).engine.conversations[k]? = some conversation →
      (reached inputs).engine.communities[k]? = some community →
      (conversation.participants.map fun participant ↦ participant.actorId).Nodup ∧
        ∀ (a : ActorId) (role : ParticipantRole),
          (∃ participant ∈ conversation.participants, participant.actorId = a ∧
            participant.role = role) ↔ community.roleOf a = some role := by
  intro hclaim
  have hroom : (reached crowded).engine.conversations[room.id]?.any (fun conversation ↦
      ¬ (conversation.participants.map fun participant ↦ participant.actorId).Nodup) := by
    decide +kernel
  have hclub : ((reached crowded).engine.communities[room.id]?).isSome = true := by
    decide +kernel
  obtain ⟨conversation, hconversation, htwice⟩ := (Option.any_eq_true _ _).mp hroom
  obtain ⟨community, hcommunity⟩ := Option.isSome_iff_exists.mp hclub
  exact of_decide_eq_true htwice
    (hclaim crowded room.id conversation community hconversation hcommunity).1

end MessagingService

end Fabushi.Messaging
