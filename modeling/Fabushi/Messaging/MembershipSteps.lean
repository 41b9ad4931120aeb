import Fabushi.Messaging.RequestFrames
import Fabushi.Library.Table

/-!
# What a command does to the members of a community

The members of a community are stored under their own identifiers, and so are the
pending join requests. A command leaves the members of a community alone, seeds them
from the participants of the conversation when the community is created, or stores
one member; the participants of the conversation then follow that member.
-/

namespace Fabushi.Messaging

open Effects Result Std

def MemberStatus.role : MemberStatus → Option ParticipantRole
  | .owner => some .owner
  | .administrator => some .admin
  | .member => some .member
  | .restricted => some .restricted
  | .left | .banned => none

theorem role_of_participantForCommunityMember (member : CommunityMember) :
    (participantForCommunityMember member).map (fun participant ↦ participant.role) =
      member.status.role := by
  unfold participantForCommunityMember
  cases member.status <;> rfl

theorem actorId_of_participantForCommunityMember {member : CommunityMember}
    {participant : Participant} (h : participantForCommunityMember member = some participant) :
    participant.actorId = member.actorId := by
  unfold participantForCommunityMember at h
  cases hstatus : member.status <;> rw [hstatus] at h <;> cases h <;> rfl

@[simp] theorem ParticipantRole.role_memberStatus (role : ParticipantRole) :
    role.memberStatus.role = some role := by
  cases role <;> rfl

def EventTag.isRoster : EventTag → Bool
  | .conversationUpserted | .conversationParticipantUpserted
  | .conversationParticipantRemoved => true
  | _ => false

theorem EventTag.isRoster_of_isPassing {tag : EventTag} (h : tag.isPassing = true) :
    tag.isRoster = false := by
  cases tag <;> first | rfl | cases h

def EventTag.isCommunity : EventTag → Bool
  | .communityChanged => true
  | _ => false

theorem EventTag.isCommunity_of_isPassing {tag : EventTag} (h : tag.isPassing = true) :
    tag.isCommunity = false := by
  cases tag <;> first | rfl | cases h

/-! ## The keys of a community -/

structure CommunityState.Enrolled (community : CommunityState) : Prop where
  members : ∀ (a : ActorId) (member : CommunityMember),
    community.members[a]? = some member → member.actorId = a
  pending : ∀ (a : ActorId) (request : JoinRequest),
    community.pendingJoinRequests[a]? = some request → request.actorId = a

namespace CommunityState

variable {community : CommunityState}

@[simp] theorem members_appendCommunityAudit (community : CommunityState) (actorId : ActorId)
    (action : CommunityAuditAction) (targetActorId : Option ActorId)
    (targetId reason : Option String) (createdAtMs : Int64) :
    (appendCommunityAudit community actorId action targetActorId targetId reason
      createdAtMs).members = community.members := by
  rw [appendCommunityAudit, appendAudit]

@[simp] theorem pending_appendCommunityAudit (community : CommunityState) (actorId : ActorId)
    (action : CommunityAuditAction) (targetActorId : Option ActorId)
    (targetId reason : Option String) (createdAtMs : Int64) :
    (appendCommunityAudit community actorId action targetActorId targetId reason
      createdAtMs).pendingJoinRequests = community.pendingJoinRequests := by
  rw [appendCommunityAudit, appendAudit]

@[simp] theorem conversationId_appendCommunityAudit (community : CommunityState)
    (actorId : ActorId) (action : CommunityAuditAction) (targetActorId : Option ActorId)
    (targetId reason : Option String) (createdAtMs : Int64) :
    (appendCommunityAudit community actorId action targetActorId targetId reason
      createdAtMs).conversationId = community.conversationId := by
  rw [appendCommunityAudit, appendAudit]

theorem changeMember_eq (community : CommunityState) (actorId : ActorId)
    (member : CommunityMember) (reason : Option String) (changedAtMs : Int64) :
    let changed := MessagingState.changeMember community actorId member reason changedAtMs
    changed.conversationId = community.conversationId ∧
      changed.members = community.members.insert member.actorId member ∧
      changed.pendingJoinRequests = community.pendingJoinRequests.erase member.actorId := by
  intro changed
  simp only [changed, MessagingState.changeMember, conversationId_appendCommunityAudit,
    members_appendCommunityAudit, pending_appendCommunityAudit]
  split <;> exact ⟨rfl, rfl, rfl⟩

def placed (community : CommunityState) (participant : Participant) : CommunityMember :=
  { community.members[participant.actorId]?.getD
      { actorId := participant.actorId, status := .member, joinedAtMs := participant.joinedAtMs }
    with
    status := participant.role.memberStatus
    joinedAtMs := participant.joinedAtMs }

def approved (requesterId approvedBy : ActorId) (nowMs : Int64) : CommunityMember :=
  { actorId := requesterId, status := .member, joinedAtMs := nowMs, invitedBy := some approvedBy }

theorem approveJoin_eq_ok {community approvedCommunity : CommunityState}
    {requesterId approvedBy : ActorId} {nowMs : Int64}
    (h : community.approveJoin requesterId approvedBy nowMs = .ok approvedCommunity) :
    community.canManageInvites approvedBy = true ∧
      ∃ request, community.pendingJoinRequests[requesterId]? = some request ∧
        approvedCommunity = ({ community with
          pendingJoinRequests := community.pendingJoinRequests.erase requesterId } :
            CommunityState).upsertMember (approved request.actorId approvedBy nowMs) := by
  obtain ⟨_, hmay, h⟩ := bind_eq_ok.mp h
  obtain ⟨request, hrequest, h⟩ := bind_eq_ok.mp h
  exact ⟨ensure_eq_ok.mp hmay, request, okOr_eq_ok.mp hrequest, (Except.ok.inj h).symm⟩

theorem get_seeds {requested : BTreeMap ActorId CommunityMember} {participants : List Participant}
    {members : BTreeMap ActorId CommunityMember} {a : ActorId} {member : CommunityMember}
    (h : (participants.foldl (fun members participant ↦
      members.insert participant.actorId (MessagingState.seedMember requested participant)) members)[a]? =
        some member) :
    members[a]? = some member ∨
      ∃ participant ∈ participants, participant.actorId = a ∧
        member = MessagingState.seedMember requested participant := by
  induction participants generalizing members with
  | nil => exact .inl h
  | cons participant participants ih =>
      rcases ih h with hfirst | ⟨later, hlater, ha, hmember⟩
      · rcases BTreeMap.get_insert_cases hfirst with ⟨rfl, rfl⟩ | hold
        · exact .inr ⟨participant, List.mem_cons_self, rfl, rfl⟩
        · exact .inl hold
      · exact .inr ⟨later, List.mem_cons_of_mem _ hlater, ha, hmember⟩

end CommunityState

namespace MessagingState

variable {state : MessagingState}

/-- Every community is stored under its conversation, with its keys in order. -/
def Enrolled (state : MessagingState) : Prop :=
  ∀ (k : ConversationId) (community : CommunityState), state.communities[k]? = some community →
    community.conversationId = k ∧ community.Enrolled

theorem enrolled_empty : Enrolled {} := by
  intro k community h
  simp at h

/-! ## Steps -/

end MessagingState

structure CommunityState.KeepsMembers (old new : CommunityState) : Prop where
  conversationId : new.conversationId = old.conversationId
  members : new.members = old.members
  pending : ∀ (a : ActorId) (request : JoinRequest), new.pendingJoinRequests[a]? = some request →
    old.pendingJoinRequests[a]? = some request ∨ request.actorId = a

theorem CommunityState.KeepsMembers.of_eq {old new : CommunityState}
    (hid : new.conversationId = old.conversationId) (hmembers : new.members = old.members)
    (hpending : new.pendingJoinRequests = old.pendingJoinRequests) : old.KeepsMembers new := by
  refine ⟨hid, hmembers, fun a request hrequest ↦ .inl ?_⟩
  rwa [hpending] at hrequest

theorem CommunityState.KeepsMembers.enrolled {old new : CommunityState} {k : ConversationId}
    (hkeeps : old.KeepsMembers new) (h : old.conversationId = k ∧ old.Enrolled) :
    new.conversationId = k ∧ new.Enrolled := by
  refine ⟨hkeeps.conversationId.trans h.1, fun a member hmember ↦ ?_, fun a request hrequest ↦ ?_⟩
  · rw [hkeeps.members] at hmember
    exact h.2.members a member hmember
  · rcases hkeeps.pending a request hrequest with hbefore | ha
    · exact h.2.pending a request hbefore
    · exact ha

/-- What the id of an entry in a log is joined from, but for the length of the log. -/
structure AuditNote where
  actorId : ActorId
  createdAtMs : Int64
  targetId : Option String

def Command.auditNote : Command → Option (ConversationId × AuditNote)
  | .subscribeChannel actorId j atMs | .unsubscribeChannel actorId j atMs
  | .respondCommunityJoin actorId j _ _ atMs => some (j, ⟨actorId, atMs, none⟩)
  | .setCommunitySlowMode actorId j _ atMs => some (j, ⟨actorId, atMs, some "slowMode"⟩)
  | .moderateCommunityMember actorId j member _ atMs =>
      some (j, ⟨actorId, atMs, some ("member:" ++ member.actorId.value)⟩)
  | .setCommunityMember actorId j member =>
      some (j, ⟨actorId, member.joinedAtMs, some ("member:" ++ member.actorId.value)⟩)
  | .createInviteLink actorId invite =>
      some (invite.conversationId, ⟨actorId, invite.createdAtMs, some ("invite:" ++ invite.id)⟩)
  | .revokeInviteLink actorId j inviteId atMs =>
      some (j, ⟨actorId, atMs, some ("invite:" ++ inviteId)⟩)
  | .requestCommunityJoin actorId request =>
      some (request.conversationId, ⟨actorId, request.requestedAtMs, some "join-request"⟩)
  | .upsertForumTopic actorId topic =>
      some (topic.conversationId, ⟨actorId, topic.createdAtMs, some ("topic:" ++ topic.id)⟩)
  | .deleteForumTopic actorId j topicId => some (j, ⟨actorId, 0, some ("topic:" ++ topicId)⟩)
  | _ => none

def Command.logsOnly : Command → Bool
  | .setCommunitySlowMode .. | .createInviteLink .. | .revokeInviteLink ..
  | .requestCommunityJoin .. | .upsertForumTopic .. | .deleteForumTopic .. => true
  | _ => false

inductive Grounds (old : CommunityState) (k : ConversationId) : Command → CommunityMember → Prop
  | moderated {actorId : ActorId} {member : CommunityMember} {reason : Option String}
      {decidedAtMs : Int64}
      (hrights : requireCommunityAdmin old actorId .banMembers = .ok ())
      (howner : old.isOwner member.actorId = false) (hstatus : member.status ≠ .owner) :
      Grounds old k (.moderateCommunityMember actorId k member reason decidedAtMs) member
  | set {actorId : ActorId} {member : CommunityMember}
      (howner : old.isOwner member.actorId = true ∨ member.status = .owner →
        old.isOwner actorId = true)
      (hrights : requireCommunityAdmin old actorId (MessagingState.memberChangeAction
        (old.isOwner member.actorId || old.hasMemberWith member.actorId fun existing ↦
          existing.status = .administrator) member.status) = .ok ()) :
      Grounds old k (.setCommunityMember actorId k member) member
  | joined {actorId requesterId : ActorId} {decidedAtMs : Int64}
      (hrights : old.canManageInvites actorId = true)
      (hpending : old.pendingJoinRequests[requesterId]?.isSome = true) :
      Grounds old k (.respondCommunityJoin actorId k requesterId true decidedAtMs)
        (CommunityState.approved requesterId actorId decidedAtMs)
  | placed {participant : Participant} {member : CommunityMember}
      (hactor : member.actorId = participant.actorId)
      (hstatus : member.status = participant.role.memberStatus) :
      Grounds old k (.setConversationParticipant k participant) member
  | removed {target : ActorId} {member : CommunityMember}
      (hmember : old.members[target]? = some member) :
      Grounds old k (.removeConversationParticipant k target) { member with status := .left }

def upsertParticipant (participants : List Participant) (participant : Participant) :
    List Participant :=
  Table.put (fun item ↦ item.actorId) participant participants

def removeParticipant (participants : List Participant) (actorId : ActorId) : List Participant :=
  participants.filter fun participant ↦ participant.actorId ≠ actorId

/-- The participants follow a role that is given to `a`, or taken away. -/
inductive Followed (a : ActorId) (role : Option ParticipantRole) (old : List Participant) :
    List Participant → Prop
  | set {participant : Participant} (hactor : participant.actorId = a)
      (hrole : role = some participant.role) :
      Followed a role old (upsertParticipant old participant)
  | removed (hrole : role = none) : Followed a role old (removeParticipant old a)

inductive Places (k : ConversationId) : Command → ActorId → Option ParticipantRole → Prop
  | set (participant : Participant) : Places k (.setConversationParticipant k participant)
      participant.actorId (some participant.role)
  | removed (target : ActorId) : Places k (.removeConversationParticipant k target) target none

namespace MessagingState

variable {state : MessagingState}

def rosterOf (state : MessagingState) (k : ConversationId) :
    Option (ConversationKind × List Participant) :=
  state.conversations[k]?.map fun conversation ↦ (conversation.kind, conversation.participants)

/-- What a command does to the members of the community of `k`, and to the participants
of `k` with them. -/
inductive NextMembership (state : MessagingState) (c : Command) (k : ConversationId)
    (after : MessagingState) : Prop where
  | kept (hnone : state.communities[k]? = none → after.communities[k]? = none)
      (hkept : ∀ old, state.communities[k]? = some old →
        ∃ new, after.communities[k]? = some new ∧ old.KeepsMembers new)
      (hroster : after.rosterOf k = state.rosterOf k)
  | replaced {conversation : Conversation} (hcommand : c = .upsertConversation conversation)
      (hid : conversation.id = k) (hcommunities : after.communities = state.communities)
      (hguard : ∀ existing, state.conversations[k]? = some existing →
        existing.kind.isCommunity = true → conversation.participants = existing.participants)
      (hroster : after.rosterOf k = some (conversation.kind, conversation.participants))
  | created {actorId : ActorId} {community new : CommunityState} {conversation : Conversation}
      (hcommand : c = .updateCommunity actorId community) (hid : community.conversationId = k)
      (hnone : state.communities[k]? = none)
      (hconversation : state.conversations[k]? = some conversation)
      (hkind : conversation.kind.isCommunity = true)
      (hnew : after.communities[k]? = some new) (hnewId : new.conversationId = k)
      (hmembers : new.members = conversation.participants.foldl (fun members participant ↦
        members.insert participant.actorId (seedMember community.members participant)) ∅)
      (hpending : new.pendingJoinRequests = ∅) (hroster : after.rosterOf k = state.rosterOf k)
  | enrolled {old new : CommunityState} {member : CommunityMember}
      (hold : state.communities[k]? = some old) (hgrounds : Grounds old k c member)
      (hnew : after.communities[k]? = some new) (hid : new.conversationId = old.conversationId)
      (hmembers : new.members = old.members.insert member.actorId member)
      (hpending : ∀ (a : ActorId) (request : JoinRequest),
        new.pendingJoinRequests[a]? = some request → old.pendingJoinRequests[a]? = some request)
      (hroster : ∀ conversation, state.conversations[k]? = some conversation →
        (∃ participants, after.rosterOf k = some (conversation.kind, participants) ∧
          Followed member.actorId member.status.role conversation.participants participants) ∨
        (conversation.kind.isCommunity = false ∧ after.rosterOf k = state.rosterOf k))
  | dropped {old new : CommunityState} {target : ActorId}
      (hcommand : c = .removeConversationParticipant k target)
      (hold : state.communities[k]? = some old) (habsent : old.members[target]? = none)
      (hnew : after.communities[k]? = some new) (hkeeps : old.KeepsMembers new)
      (hroster : after.rosterOf k = (state.rosterOf k).map fun roster ↦
        (roster.1, removeParticipant roster.2 target))
  | informal {conversation : Conversation} {a : ActorId} {role : Option ParticipantRole}
      (hplaces : Places k c a role) (hcommunities : after.communities = state.communities)
      (hconversation : state.conversations[k]? = some conversation)
      (hkind : conversation.kind.isCommunity = false)
      (hroster : ∃ participants, after.rosterOf k = some (conversation.kind, participants) ∧
        Followed a role conversation.participants participants)

theorem NextMembership.refl (state : MessagingState) (c : Command) (k : ConversationId) :
    NextMembership state c k state := by
  refine .kept id (fun old hold ↦ ⟨old, hold, rfl, rfl, fun _ _ h ↦ .inl h⟩) rfl

/-! ### Frames -/

theorem rosterOf_update {id k : ConversationId} {f : Conversation → Conversation}
    (hf : ∀ c : Conversation, (f c).kind = c.kind ∧ (f c).participants = c.participants) :
    ((BTreeMap.update state.conversations id f)[k]?.map fun conversation ↦
      (conversation.kind, conversation.participants)) = state.rosterOf k := by
  rw [get_updateConversation, rosterOf]
  split
  · cases state.conversations[k]? with
    | none => rfl
    | some conversation =>
        rw [Option.map_some, Option.map_some, Option.map_some, (hf conversation).1,
          (hf conversation).2]
  · rfl

theorem rosterOf_apply (k : ConversationId) (state : MessagingState) (event : Event)
    (h : event.tag.isRoster = false) : (state.apply event).rosterOf k = state.rosterOf k := by
  cases event
  case conversationUpserted => cases h
  case conversationParticipantUpserted => cases h
  case conversationParticipantRemoved => cases h
  case conversationInfoUpdated => exact rosterOf_update fun _ ↦ ⟨rfl, rfl⟩
  case conversationArchived => exact rosterOf_update fun _ ↦ ⟨rfl, rfl⟩
  case conversationPinned => exact rosterOf_update fun _ ↦ ⟨rfl, rfl⟩
  case conversationMarkedUnread => exact rosterOf_update fun _ ↦ ⟨rfl, rfl⟩
  case conversationNotificationsUpdated => exact rosterOf_update fun _ ↦ ⟨rfl, rfl⟩
  case conversationMessageRetentionUpdated => exact rosterOf_update fun _ ↦ ⟨rfl, rfl⟩
  case folderDeleted =>
    rw [rosterOf, rosterOf]
    change ((state.conversations.map _)[k]?.map _) = _
    rw [ExtTreeMap.getElem?_map, Option.map_map]
    rfl
  case messageQueued => exact rosterOf_update fun _ ↦ ⟨rfl, rfl⟩
  case messageAcknowledged =>
    refine rosterOf_update fun conversation ↦ ?_
    split <;> exact ⟨rfl, rfl⟩
  case conversationRead => exact rosterOf_update fun _ ↦ ⟨rfl, rfl⟩
  case messagePinned => exact rosterOf_update fun _ ↦ ⟨rfl, rfl⟩
  all_goals rfl

theorem map_communities_apply {β : Type} (f : CommunityState → β)
    (hf : ∀ (community : CommunityState) (topics : BTreeMap String ForumTopicState),
      f { community with topics } = f community) (k : ConversationId) (state : MessagingState)
    (event : Event) (h : event.tag.isCommunity = false) :
    (state.apply event).communities[k]?.map f = state.communities[k]?.map f := by
  cases event
  case communityChanged => cases h
  case messageQueued message =>
    change (applyMessageQueued state message).communities[k]?.map f = _
    unfold applyMessageQueued
    dsimp only
    split
    · rfl
    · rw [BTreeMap.get_update]
      split
      · rename_i hk
        rw [hk, Option.map_map]
        cases state.communities[k]? with
        | none => rfl
        | some community => exact congrArg some (hf community _)
      · rfl
  all_goals rfl

def communityKeys (state : MessagingState) (k : ConversationId) :
    Option (ConversationId × BTreeMap ActorId CommunityMember × BTreeMap ActorId JoinRequest) :=
  state.communities[k]?.map fun community ↦
    (community.conversationId, community.members, community.pendingJoinRequests)

theorem communityKeys_apply (k : ConversationId) (state : MessagingState) (event : Event)
    (h : event.tag.isCommunity = false) :
    (state.apply event).communityKeys k = state.communityKeys k :=
  map_communities_apply _ (fun _ _ ↦ rfl) k state event h

theorem NextMembership.of_keys {c : Command} {k : ConversationId} {after : MessagingState}
    (hkeys : after.communityKeys k = state.communityKeys k)
    (hroster : after.rosterOf k = state.rosterOf k) : NextMembership state c k after := by
  unfold communityKeys at hkeys
  refine .kept (fun hnone ↦ ?_) (fun old hold ↦ ?_) hroster
  · rw [hnone] at hkeys
    exact Option.map_eq_none_iff.mp hkeys
  · rw [hold, Option.map_some] at hkeys
    obtain ⟨new, hnew, hsame⟩ := Option.map_eq_some_iff.mp hkeys
    simp only [Prod.mk.injEq] at hsame
    obtain ⟨hid, hmembers, hpending⟩ := hsame
    refine ⟨new, hnew, hid, hmembers, fun a request hrequest ↦ .inl ?_⟩
    rwa [hpending] at hrequest

theorem NextMembership.of_tags {c : Command} {k : ConversationId} {events : List Event}
    (hdecide : state.decide c = .ok events)
    (htags : ∀ tag ∈ c.eventTags, tag.isRoster = false ∧ tag.isCommunity = false) :
    NextMembership state c k (state.applyAll events) := by
  have hwithin := state.decide_eventTags c
  rw [hdecide] at hwithin
  apply NextMembership.of_keys
  · exact frame_applyAll (p := fun state ↦ communityKeys state k) (communityKeys_apply k)
      (fun event hevent ↦ (htags _ (hwithin event hevent)).2) state
  · exact frame_applyAll (p := fun state ↦ rosterOf state k) (rosterOf_apply k)
      (fun event hevent ↦ (htags _ (hwithin event hevent)).1) state

/-! ### Commands -/

section Commands

variable {c : Command} {j : ConversationId} {old new : CommunityState}

theorem NextMembership.of_kept {k : ConversationId} (henrolled : state.Enrolled)
    (hold : state.requireCommunity j = .ok old) (hkeeps : old.KeepsMembers new) :
    NextMembership state c k (state.applyAll [.communityChanged new]) := by
  have hfound := okOr_eq_ok.mp hold
  have hid := hkeeps.conversationId.trans (henrolled j old hfound).1
  have hget : (state.applyAll [.communityChanged new]).communities[k]? =
      if j = k then some new else state.communities[k]? := by
    change (state.communities.insert new.conversationId new)[k]? = _
    rw [BTreeMap.get_insert, hid]
  refine .kept (fun hnone ↦ ?_) (fun existing hexisting ↦ ?_) rfl
  · rw [hget]
    split
    · rename_i hk
      cases (hk ▸ hfound).symm.trans hnone
    · exact hnone
  · rw [hget]
    split
    · rename_i hk
      obtain rfl := Option.some.inj ((hk ▸ hfound).symm.trans hexisting)
      exact ⟨new, rfl, hkeeps⟩
    · exact ⟨existing, hexisting, rfl, rfl, fun _ _ h ↦ .inl h⟩

inductive Follows (state : MessagingState) (j : ConversationId) (member : CommunityMember) :
    List Event → Prop
  | set {participant : Participant} (hactor : participant.actorId = member.actorId)
      (hrole : member.status.role = some participant.role) :
      Follows state j member [.conversationParticipantUpserted j participant]
  | removed (hrole : member.status.role = none) :
      Follows state j member [.conversationParticipantRemoved j member.actorId]
  | absent (hkind : state.isCommunityConversation j = false) : Follows state j member []

theorem follows_participantEvent {member : CommunityMember} {community : CommunityState}
    (hmember : community.members[member.actorId]? = some member) :
    Follows state j member (state.participantEvent community j member.actorId) := by
  unfold participantEvent
  split
  · rw [hmember, Option.bind_some]
    have hrole := role_of_participantForCommunityMember member
    cases hparticipant : participantForCommunityMember member with
    | none =>
        rw [hparticipant] at hrole
        exact .removed hrole.symm
    | some participant =>
        rw [hparticipant] at hrole
        exact .set (actorId_of_participantForCommunityMember hparticipant) hrole.symm
  · rename_i hkind
    exact .absent (Bool.eq_false_iff.mpr hkind)

theorem communities_follows {member : CommunityMember} {events : List Event}
    (h : Follows state j member events) (after : MessagingState) :
    (after.applyAll events).communities = after.communities := by
  cases h <;> rfl

theorem rosterOf_set (after : MessagingState) (participant : Participant) (k : ConversationId) :
    (after.apply (.conversationParticipantUpserted j participant)).rosterOf k =
      if j = k then (after.rosterOf k).map fun roster ↦
        (roster.1, upsertParticipant roster.2 participant)
      else after.rosterOf k := by
  change ((BTreeMap.update after.conversations j _)[k]?.map _) = _
  rw [get_updateConversation, rosterOf]
  split
  · rw [Option.map_map, Option.map_map]
    rfl
  · rfl

theorem rosterOf_removed (after : MessagingState) (target : ActorId) (k : ConversationId) :
    (after.apply (.conversationParticipantRemoved j target)).rosterOf k =
      if j = k then (after.rosterOf k).map fun roster ↦
        (roster.1, removeParticipant roster.2 target)
      else after.rosterOf k := by
  change ((BTreeMap.update after.conversations j _)[k]?.map _) = _
  rw [get_updateConversation, rosterOf]
  split
  · rw [Option.map_map, Option.map_map]
    rfl
  · rfl

theorem NextMembership.of_member {k : ConversationId} (henrolled : state.Enrolled)
    (hold : state.requireCommunity j = .ok old) {member : CommunityMember}
    (hgrounds : Grounds old j c member) (hid : new.conversationId = old.conversationId)
    (hmembers : new.members = old.members.insert member.actorId member)
    (hpending : ∀ (a : ActorId) (request : JoinRequest),
      new.pendingJoinRequests[a]? = some request → old.pendingJoinRequests[a]? = some request)
    {events : List Event} (hfollows : Follows state j member events) :
    NextMembership state c k (state.applyAll (.communityChanged new :: events)) := by
  have hfound := okOr_eq_ok.mp hold
  have hkey := hid.trans (henrolled j old hfound).1
  rw [applyAll, List.foldl_cons, ← applyAll]
  have hget : ((state.apply (.communityChanged new)).applyAll events).communities[k]? =
      if j = k then some new else state.communities[k]? := by
    rw [communities_follows hfollows]
    change (state.communities.insert new.conversationId new)[k]? = _
    rw [BTreeMap.get_insert, hkey]
  by_cases hk : j = k
  · subst hk
    rw [if_pos rfl] at hget
    refine .enrolled hfound hgrounds hget hid hmembers hpending fun conversation hconversation ↦ ?_
    have hroster : (state.apply (.communityChanged new)).rosterOf j =
        some (conversation.kind, conversation.participants) := by
      change state.conversations[j]?.map _ = _
      rw [hconversation]
      rfl
    cases hfollows with
    | set hactor hrole =>
        refine .inl ⟨_, ?_, .set hactor hrole⟩
        rw [applyAll, List.foldl_cons, List.foldl_nil, rosterOf_set, if_pos rfl, hroster]
        rfl
    | removed hrole =>
        refine .inl ⟨_, ?_, .removed hrole⟩
        rw [applyAll, List.foldl_cons, List.foldl_nil, rosterOf_removed, if_pos rfl, hroster]
        rfl
    | absent hother =>
        rw [isCommunityConversation, hconversation, Option.any_some] at hother
        exact .inr ⟨hother, rfl⟩
  · rw [if_neg hk] at hget
    refine .kept (fun hnone ↦ hget.trans hnone) (fun existing hexisting ↦ ?_) ?_
    · exact ⟨existing, hget.trans hexisting, rfl, rfl, fun _ _ h ↦ .inl h⟩
    · cases hfollows with
      | set => rw [applyAll, List.foldl_cons, List.foldl_nil, rosterOf_set, if_neg hk]; rfl
      | removed => rw [applyAll, List.foldl_cons, List.foldl_nil, rosterOf_removed, if_neg hk]; rfl
      | absent => rfl

variable {events : List Event}

theorem NextMembership.of_informal {conversation : Conversation} {a : ActorId}
    {role : Option ParticipantRole} (hplaces : Places j c a role)
    (hconversation : state.requireConversation j = .ok conversation)
    (hkind : ¬ conversation.kind.isCommunity = true) {after : MessagingState}
    (hcommunities : after.communities = state.communities)
    (f : List Participant → List Participant)
    (hf : Followed a role conversation.participants (f conversation.participants))
    (hroster : ∀ k, after.rosterOf k = if j = k then (state.rosterOf k).map fun roster ↦
      (roster.1, f roster.2) else state.rosterOf k) (k : ConversationId) :
    NextMembership state c k after := by
  have hfound := okOr_eq_ok.mp hconversation
  by_cases hk : j = k
  · subst hk
    refine .informal hplaces hcommunities hfound (Bool.eq_false_iff.mpr hkind)
      ⟨f conversation.participants, ?_, hf⟩
    rw [hroster, if_pos rfl, rosterOf, hfound]
    rfl
  · refine .of_keys ?_ ?_
    · rw [communityKeys, hcommunities]
      rfl
    · rw [hroster, if_neg hk]

theorem nextMembership_place (henrolled : state.Enrolled) {participant : Participant}
    (hdecide : state.decide (.setConversationParticipant j participant) = .ok events)
    (k : ConversationId) :
    NextMembership state (.setConversationParticipant j participant) k
      (state.applyAll events) := by
  obtain ⟨conversation, hconversation, h⟩ := bind_eq_ok.mp hdecide
  obtain ⟨_, -, h⟩ := bind_eq_ok.mp h
  obtain ⟨_, -, h⟩ := bind_eq_ok.mp h
  split at h
  · obtain ⟨old, hold, h⟩ := bind_eq_ok.mp h
    obtain rfl := Except.ok.inj h
    have hactor : (old.placed participant).actorId = participant.actorId := by
      change (old.members[participant.actorId]?.getD _).actorId = _
      cases hmember : old.members[participant.actorId]? with
      | none => rfl
      | some member => exact (henrolled j old (okOr_eq_ok.mp hold)).2.members _ member hmember
    have hgrounds : Grounds old j (.setConversationParticipant j participant)
        (old.placed participant) := .placed hactor rfl
    refine .of_member henrolled hold hgrounds ?_ ?_ ?_
      (.set hactor.symm (ParticipantRole.role_memberStatus _))
    · rfl
    · exact congrArg (fun a ↦ old.members.insert a _) hactor.symm
    · exact fun _ _ h ↦ h
  · rename_i hkind
    obtain rfl := Except.ok.inj h
    refine .of_informal (.set participant) hconversation hkind ?_
      (fun participants ↦ upsertParticipant participants participant) (.set rfl rfl) ?_ k
    · rfl
    · exact rosterOf_set state participant

theorem nextMembership_remove (henrolled : state.Enrolled) {target : ActorId}
    (hdecide : state.decide (.removeConversationParticipant j target) = .ok events)
    (k : ConversationId) :
    NextMembership state (.removeConversationParticipant j target) k
      (state.applyAll events) := by
  obtain ⟨conversation, hconversation, h⟩ := bind_eq_ok.mp hdecide
  obtain ⟨_, -, h⟩ := bind_eq_ok.mp h
  split at h
  · obtain ⟨old, hold, h⟩ := bind_eq_ok.mp h
    obtain rfl := Except.ok.inj h
    obtain ⟨hid, hkeys⟩ := henrolled j old (okOr_eq_ok.mp hold)
    cases hmember : old.members[target]? with
    | some member =>
        have hactor := hkeys.members _ _ hmember
        subst hactor
        refine .of_member henrolled hold (.removed hmember) ?_ ?_ ?_ (.removed rfl)
        · rfl
        · rfl
        · exact fun _ _ h ↦ h
    | none =>
        let new : CommunityState := { old with subscribers := old.subscribers.erase target }
        change NextMembership state _ k (state.applyAll [.communityChanged new,
          .conversationParticipantRemoved j target])
        have hget : (state.applyAll [.communityChanged new,
              .conversationParticipantRemoved j target]).communities[k]? =
                if j = k then some new else state.communities[k]? := by
          change (state.communities.insert old.conversationId new)[k]? = _
          rw [BTreeMap.get_insert, hid]
        have hroster : (state.applyAll [.communityChanged new,
            .conversationParticipantRemoved j target]).rosterOf k = if j = k then
              (state.rosterOf k).map fun roster ↦ (roster.1, removeParticipant roster.2 target)
            else state.rosterOf k := by
          rw [applyAll, List.foldl_cons, List.foldl_cons, List.foldl_nil, rosterOf_removed]
          rfl
        by_cases hk : j = k
        · subst hk
          simp only [if_true] at hget hroster
          exact .dropped rfl (okOr_eq_ok.mp hold) hmember hget
            ⟨rfl, rfl, fun _ _ h ↦ .inl h⟩ hroster
        · simp only [if_neg hk] at hget hroster
          refine .kept (fun hnone ↦ hget.trans hnone) (fun existing hexisting ↦ ?_) hroster
          exact ⟨existing, hget.trans hexisting, rfl, rfl, fun _ _ h ↦ .inl h⟩
  · rename_i hkind
    obtain rfl := Except.ok.inj h
    refine .of_informal (.removed target) hconversation hkind ?_
      (fun participants ↦ removeParticipant participants target) (.removed rfl) ?_ k
    · rfl
    · exact rosterOf_removed state target

theorem changeMember_grounds (henrolled : state.Enrolled) {actorId : ActorId}
    {member : CommunityMember} {reason : Option String} {changedAtMs : Int64}
    (hold : state.requireCommunity j = .ok old) (hgrounds : Grounds old j c member)
    (k : ConversationId) :
    let new := changeMember old actorId member reason changedAtMs
    NextMembership state c k (state.applyAll (.communityChanged new ::
      state.participantEvent new j member.actorId)) := by
  intro new
  obtain ⟨hid, hmembers, hpending⟩ :=
    CommunityState.changeMember_eq old actorId member reason changedAtMs
  refine .of_member henrolled hold hgrounds hid hmembers (fun a request hrequest ↦ ?_)
    (follows_participantEvent ?_)
  · rw [hpending, BTreeMap.get_erase] at hrequest
    split at hrequest
    · cases hrequest
    · exact hrequest
  · rw [hmembers]
    exact BTreeMap.get_insert_self _ _ _

theorem nextMembership_respond (henrolled : state.Enrolled) {actorId requesterId : ActorId}
    {approved : Bool} {decidedAtMs : Int64}
    (hdecide : state.decide (.respondCommunityJoin actorId j requesterId approved decidedAtMs) =
      .ok events) (k : ConversationId) :
    NextMembership state (.respondCommunityJoin actorId j requesterId approved decidedAtMs) k
      (state.applyAll events) := by
  obtain ⟨old, hold, h⟩ := bind_eq_ok.mp hdecide
  obtain ⟨_, -, h⟩ := bind_eq_ok.mp h
  have hkeys := (henrolled j old (okOr_eq_ok.mp hold)).2
  cases approved
  case true =>
    rw [if_pos rfl] at h
    obtain ⟨joined, hjoined, h⟩ := bind_eq_ok.mp h
    obtain ⟨hmay, request, hrequest, rfl⟩ :=
      CommunityState.approveJoin_eq_ok (liftError_eq_ok.mp hjoined)
    obtain rfl := Except.ok.inj h
    obtain rfl := hkeys.pending _ _ hrequest
    refine .of_member henrolled hold (.joined hmay (by rw [hrequest]; rfl)) ?_ ?_
      (fun a waiting hwaiting ↦ ?_) ?_
    · exact CommunityState.conversationId_appendCommunityAudit _ _ _ _ _ _ _
    · exact CommunityState.members_appendCommunityAudit _ _ _ _ _ _ _
    · rw [CommunityState.pending_appendCommunityAudit] at hwaiting
      change ((old.pendingJoinRequests.erase request.actorId).erase request.actorId)[a]? =
        some waiting at hwaiting
      rw [BTreeMap.get_erase, BTreeMap.get_erase] at hwaiting
      split at hwaiting
      · cases hwaiting
      · exact hwaiting
    · have hstored : (appendCommunityAudit (({ old with
          pendingJoinRequests := old.pendingJoinRequests.erase request.actorId } :
            CommunityState).upsertMember
              (CommunityState.approved request.actorId actorId decidedAtMs)) actorId .joinApproved
            (some request.actorId) none none decidedAtMs).members[request.actorId]? =
          some (CommunityState.approved request.actorId actorId decidedAtMs) := by
        rw [CommunityState.members_appendCommunityAudit]
        exact BTreeMap.get_insert_self _ _ _
      rw [hstored]
      split
      · exact .set rfl rfl
      · rename_i hkind
        exact .absent (Bool.eq_false_iff.mpr hkind)
  case false =>
    rw [if_neg Bool.false_ne_true] at h
    obtain ⟨request, -, h⟩ := bind_eq_ok.mp h
    obtain rfl := Except.ok.inj h
    refine .of_kept henrolled hold ⟨?_, ?_, fun a waiting hwaiting ↦ .inl ?_⟩
    · exact CommunityState.conversationId_appendCommunityAudit _ _ _ _ _ _ _
    · exact CommunityState.members_appendCommunityAudit _ _ _ _ _ _ _
    · rw [CommunityState.pending_appendCommunityAudit] at hwaiting
      change (old.pendingJoinRequests.erase requesterId)[a]? = some waiting at hwaiting
      rw [BTreeMap.get_erase] at hwaiting
      split at hwaiting
      · cases hwaiting
      · exact hwaiting

theorem nextMembership_moderate (henrolled : state.Enrolled) {actorId : ActorId}
    {member : CommunityMember} {reason : Option String} {decidedAtMs : Int64}
    (hdecide : state.decide (.moderateCommunityMember actorId j member reason decidedAtMs) =
      .ok events) (k : ConversationId) :
    NextMembership state (.moderateCommunityMember actorId j member reason decidedAtMs) k
      (state.applyAll events) := by
  obtain ⟨_, -, h⟩ := bind_eq_ok.mp hdecide
  obtain ⟨old, hold, h⟩ := bind_eq_ok.mp h
  obtain ⟨_, hrights, h⟩ := bind_eq_ok.mp h
  obtain ⟨_, hguard, h⟩ := bind_eq_ok.mp h
  obtain rfl := Except.ok.inj h
  have hguard := ensure_eq_ok.mp hguard
  refine changeMember_grounds henrolled hold (.moderated hrights ?_ ?_) k
  · rw [← Bool.not_eq_true]
    exact fun howner ↦ hguard (.inr (.inl howner))
  · exact fun hstatus ↦ hguard (.inr (.inr (.inl hstatus)))

theorem nextMembership_set (henrolled : state.Enrolled) {actorId : ActorId}
    {member : CommunityMember}
    (hdecide : state.decide (.setCommunityMember actorId j member) = .ok events)
    (k : ConversationId) :
    NextMembership state (.setCommunityMember actorId j member) k (state.applyAll events) := by
  obtain ⟨_, -, h⟩ := bind_eq_ok.mp hdecide
  obtain ⟨old, hold, h⟩ := bind_eq_ok.mp h
  obtain ⟨_, hguard, h⟩ := bind_eq_ok.mp h
  obtain ⟨_, hrights, h⟩ := bind_eq_ok.mp h
  obtain rfl := Except.ok.inj h
  have hguard := ensure_eq_ok.mp hguard
  refine changeMember_grounds henrolled hold (.set (fun howner ↦ ?_) hrights) k
  by_contra hnot
  exact hguard ⟨howner, hnot⟩

theorem nextMembership_logged (henrolled : state.Enrolled) {actorId : ActorId}
    {action : CommunityAuditAction} {targetActorId : Option ActorId}
    {targetId reason : Option String} {atMs : Int64} (hold : state.requireCommunity j = .ok old)
    (hkeeps : old.KeepsMembers new) (k : ConversationId) :
    NextMembership state c k (state.applyAll [.communityChanged <|
      appendCommunityAudit new actorId action targetActorId targetId reason atMs]) := by
  refine .of_kept henrolled hold ⟨?_, ?_, fun a request hrequest ↦ ?_⟩
  · exact (CommunityState.conversationId_appendCommunityAudit ..).trans hkeeps.conversationId
  · exact (CommunityState.members_appendCommunityAudit ..).trans hkeeps.members
  · rw [CommunityState.pending_appendCommunityAudit] at hrequest
    exact hkeeps.pending a request hrequest

inductive Logs (state : MessagingState) (c : Command) : List Event → Prop where
  | mk {j : ConversationId} {old base : CommunityState} {actorId : ActorId}
      {action : CommunityAuditAction} {targetActorId : Option ActorId}
      {targetId reason : Option String} {atMs : Int64}
      (hnote : c.auditNote = some (j, ⟨actorId, atMs, targetId⟩))
      (hold : state.requireCommunity j = .ok old) (hkeeps : old.KeepsMembers base)
      (hlog : base.adminLog = old.adminLog) (hsubscribers : base.subscribers = old.subscribers) :
      Logs state c [.communityChanged <|
        appendCommunityAudit base actorId action targetActorId targetId reason atMs]

theorem logs_of_decide (hlogs : c.logsOnly = true) (hdecide : state.decide c = .ok events) :
    Logs state c events := by
  cases c
  case setCommunitySlowMode =>
    obtain ⟨_, -, h⟩ := bind_eq_ok.mp hdecide
    obtain ⟨_, -, h⟩ := bind_eq_ok.mp h
    obtain ⟨_, -, h⟩ := bind_eq_ok.mp h
    obtain ⟨old, hold, h⟩ := bind_eq_ok.mp h
    obtain ⟨_, -, h⟩ := bind_eq_ok.mp h
    obtain rfl := Except.ok.inj h
    exact .mk rfl hold (.of_eq rfl rfl rfl) rfl rfl
  case createInviteLink =>
    obtain ⟨old, hold, h⟩ := bind_eq_ok.mp hdecide
    obtain ⟨_, -, h⟩ := bind_eq_ok.mp h
    obtain ⟨_, -, h⟩ := bind_eq_ok.mp h
    obtain rfl := Except.ok.inj h
    exact .mk rfl hold (.of_eq rfl rfl rfl) rfl rfl
  case revokeInviteLink =>
    obtain ⟨old, hold, h⟩ := bind_eq_ok.mp hdecide
    obtain ⟨_, -, h⟩ := bind_eq_ok.mp h
    obtain ⟨revoked, hrevoked, h⟩ := bind_eq_ok.mp h
    obtain rfl := Except.ok.inj h
    obtain ⟨invite, -, hrevoked⟩ := bind_eq_ok.mp (liftError_eq_ok.mp hrevoked)
    obtain rfl := Except.ok.inj hrevoked
    exact .mk rfl hold (.of_eq rfl rfl rfl) rfl rfl
  case requestCommunityJoin =>
    obtain ⟨_, -, h⟩ := bind_eq_ok.mp hdecide
    obtain ⟨_, -, h⟩ := bind_eq_ok.mp h
    obtain ⟨_, -, h⟩ := bind_eq_ok.mp h
    obtain ⟨_, -, h⟩ := bind_eq_ok.mp h
    obtain ⟨old, hold, h⟩ := bind_eq_ok.mp h
    obtain ⟨_, -, h⟩ := bind_eq_ok.mp h
    obtain ⟨_, -, h⟩ := bind_eq_ok.mp h
    obtain rfl := Except.ok.inj h
    refine .mk rfl hold ⟨rfl, rfl, fun a waiting hwaiting ↦ ?_⟩ rfl rfl
    rcases BTreeMap.get_insert_cases hwaiting with ⟨rfl, rfl⟩ | hbefore
    · exact .inr rfl
    · exact .inl hbefore
  case upsertForumTopic =>
    obtain ⟨old, hold, h⟩ := bind_eq_ok.mp hdecide
    obtain ⟨_, -, h⟩ := bind_eq_ok.mp h
    obtain ⟨_, -, h⟩ := bind_eq_ok.mp h
    obtain rfl := Except.ok.inj h
    exact .mk rfl hold (.of_eq rfl rfl rfl) rfl rfl
  case deleteForumTopic =>
    obtain ⟨old, hold, h⟩ := bind_eq_ok.mp hdecide
    obtain ⟨_, -, h⟩ := bind_eq_ok.mp h
    obtain rfl := Except.ok.inj h
    exact .mk rfl hold (.of_eq rfl rfl rfl) rfl rfl
  all_goals cases hlogs

theorem nextMembership_subscribe (henrolled : state.Enrolled) {actorId : ActorId}
    {subscribedAtMs : Int64}
    (hdecide : state.decide (.subscribeChannel actorId j subscribedAtMs) = .ok events)
    (k : ConversationId) :
    NextMembership state (.subscribeChannel actorId j subscribedAtMs) k
      (state.applyAll events) := by
  obtain ⟨_, -, h⟩ := bind_eq_ok.mp hdecide
  obtain ⟨_, -, h⟩ := bind_eq_ok.mp h
  obtain ⟨_, -, h⟩ := bind_eq_ok.mp h
  obtain ⟨old, hold, h⟩ := bind_eq_ok.mp h
  obtain ⟨_, -, h⟩ := bind_eq_ok.mp h
  obtain ⟨subscribed, hsubscribed, h⟩ := bind_eq_ok.mp h
  obtain rfl := Except.ok.inj h
  have hkeeps : old.KeepsMembers subscribed := by
    obtain ⟨_, -, hsubscribed⟩ := bind_eq_ok.mp (liftError_eq_ok.mp hsubscribed)
    split at hsubscribed
    · obtain rfl := Except.ok.inj hsubscribed
      exact .of_eq rfl rfl rfl
    · obtain rfl := Except.ok.inj hsubscribed
      exact .of_eq rfl rfl rfl
  split
  · exact .of_kept henrolled hold hkeeps
  · exact nextMembership_logged henrolled hold hkeeps k

theorem nextMembership_unsubscribe (henrolled : state.Enrolled) {actorId : ActorId}
    {unsubscribedAtMs : Int64}
    (hdecide : state.decide (.unsubscribeChannel actorId j unsubscribedAtMs) = .ok events)
    (k : ConversationId) :
    NextMembership state (.unsubscribeChannel actorId j unsubscribedAtMs) k
      (state.applyAll events) := by
  obtain ⟨_, -, h⟩ := bind_eq_ok.mp hdecide
  obtain ⟨_, -, h⟩ := bind_eq_ok.mp h
  obtain ⟨_, -, h⟩ := bind_eq_ok.mp h
  obtain ⟨_, -, h⟩ := bind_eq_ok.mp h
  obtain ⟨old, hold, h⟩ := bind_eq_ok.mp h
  obtain ⟨unsubscribed, hunsubscribed, h⟩ := bind_eq_ok.mp h
  obtain rfl := Except.ok.inj h
  have hkeeps : old.KeepsMembers unsubscribed := by
    obtain ⟨_, -, hunsubscribed⟩ := bind_eq_ok.mp (liftError_eq_ok.mp hunsubscribed)
    obtain rfl := Except.ok.inj hunsubscribed
    exact .of_eq rfl rfl rfl
  split
  · exact nextMembership_logged henrolled hold hkeeps k
  · exact .of_kept henrolled hold hkeeps

theorem nextMembership_update (henrolled : state.Enrolled) {actorId : ActorId}
    {community : CommunityState}
    (hdecide : state.decide (.updateCommunity actorId community) = .ok events)
    (k : ConversationId) :
    NextMembership state (.updateCommunity actorId community) k (state.applyAll events) := by
  obtain ⟨conversation, hconversation, h⟩ := bind_eq_ok.mp hdecide
  obtain ⟨_, hkind, h⟩ := bind_eq_ok.mp h
  split at h
  · rename_i existing hexisting
    obtain ⟨_, -, h⟩ := bind_eq_ok.mp h
    obtain rfl := Except.ok.inj h
    have hid := (henrolled _ existing hexisting).1
    exact .of_kept henrolled (okOr_eq_ok.mpr hexisting) (.of_eq hid.symm rfl rfl)
  · rename_i hnone
    obtain ⟨_, -, h⟩ := bind_eq_ok.mp h
    obtain rfl := Except.ok.inj h
    have hget : ∀ new : CommunityState, new.conversationId = community.conversationId →
        (state.applyAll [.communityChanged new]).communities[k]? =
          if community.conversationId = k then some new else state.communities[k]? := by
      intro new hnew
      change (state.communities.insert new.conversationId new)[k]? = _
      rw [BTreeMap.get_insert, hnew]
    by_cases hk : community.conversationId = k
    · simp only [if_pos hk] at hget
      subst hk
      exact .created rfl rfl hnone (okOr_eq_ok.mp hconversation) (ensure_eq_ok.mp hkind)
        (hget _ rfl) rfl rfl rfl rfl
    · simp only [if_neg hk] at hget
      refine .kept (fun hnone ↦ ?_) (fun old hold ↦ ⟨old, ?_, .of_eq rfl rfl rfl⟩) rfl
      · rw [hget]
        · exact hnone
        · rfl
      · rw [hget]
        · exact hold
        · rfl

theorem nextMembership_upsert {conversation : Conversation}
    (hdecide : state.decide (.upsertConversation conversation) = .ok events)
    (k : ConversationId) :
    NextMembership state (.upsertConversation conversation) k (state.applyAll events) := by
  obtain ⟨_, -, h⟩ := bind_eq_ok.mp hdecide
  obtain ⟨_, hguard, h⟩ := bind_eq_ok.mp h
  obtain ⟨_, -, h⟩ := bind_eq_ok.mp h
  obtain ⟨_, -, h⟩ := bind_eq_ok.mp h
  obtain rfl := Except.ok.inj h
  have hroster : (state.applyAll [.conversationUpserted conversation]).rosterOf k =
      if conversation.id = k then some (conversation.kind, conversation.participants)
      else state.rosterOf k := by
    change ((state.conversations.insert conversation.id conversation)[k]?.map _) = _
    rw [BTreeMap.get_insert]
    split <;> rfl
  by_cases hk : conversation.id = k
  · subst hk
    rw [if_pos rfl] at hroster
    refine .replaced rfl rfl rfl (fun existing hexisting hkind ↦ ?_) hroster
    have hguard := ensure_eq_ok.mp hguard
    rw [hexisting, Option.any_some, hkind, Bool.true_and] at hguard
    by_contra hne
    simp [hne] at hguard
  · rw [if_neg hk] at hroster
    exact .of_keys rfl hroster

end Commands

theorem nextMembership (henrolled : state.Enrolled) (c : Command) (k : ConversationId) :
    NextMembership state c k (state.next c) := by
  unfold next execute
  cases hdecide : state.decide c with
  | error e => exact .refl state c k
  | ok events =>
      by_cases htags : ∀ tag ∈ c.eventTags, tag.isRoster = false ∧ tag.isCommunity = false
      · exact .of_tags hdecide htags
      by_cases hlogs : c.logsOnly = true
      · obtain ⟨-, hold, hkeeps, -, -⟩ := logs_of_decide hlogs hdecide
        exact nextMembership_logged henrolled hold hkeeps k
      · cases c
        case upsertConversation => exact nextMembership_upsert hdecide k
        case setConversationParticipant => exact nextMembership_place henrolled hdecide k
        case removeConversationParticipant => exact nextMembership_remove henrolled hdecide k
        case updateCommunity => exact nextMembership_update henrolled hdecide k
        case subscribeChannel => exact nextMembership_subscribe henrolled hdecide k
        case unsubscribeChannel => exact nextMembership_unsubscribe henrolled hdecide k
        case moderateCommunityMember => exact nextMembership_moderate henrolled hdecide k
        case setCommunityMember => exact nextMembership_set henrolled hdecide k
        case respondCommunityJoin => exact nextMembership_respond henrolled hdecide k
        case setCommunitySlowMode | createInviteLink | revokeInviteLink | requestCommunityJoin
            | upsertForumTopic | deleteForumTopic => exact absurd rfl hlogs
        all_goals
          refine absurd (fun tag htag ↦ ?_) htags
          simp only [Command.eventTags, List.mem_cons, List.not_mem_nil, or_false] at htag
          first
          | (subst htag; exact ⟨rfl, rfl⟩)
          | (rcases htag with rfl | rfl <;> exact ⟨rfl, rfl⟩)

theorem NextMembership.enrolled_of {c : Command} {k : ConversationId} {after : MessagingState}
    (h : NextMembership state c k after) (henrolled : state.Enrolled) {community : CommunityState}
    (hcommunity : after.communities[k]? = some community) :
    community.conversationId = k ∧ community.Enrolled := by
  cases h with
  | kept hnone hkept _ =>
      cases hold : state.communities[k]? with
      | none => cases (hnone hold).symm.trans hcommunity
      | some old =>
          obtain ⟨new, hnew, hkeeps⟩ := hkept old hold
          obtain rfl := Option.some.inj (hnew.symm.trans hcommunity)
          exact hkeeps.enrolled (henrolled k old hold)
  | replaced _ _ hcommunities =>
      rw [hcommunities] at hcommunity
      exact henrolled k community hcommunity
  | created _ _ _ _ _ hnew hid hmembers hpending =>
      obtain rfl := Option.some.inj (hnew.symm.trans hcommunity)
      refine ⟨hid, fun a member hmember ↦ ?_, fun a request hrequest ↦ ?_⟩
      · rw [hmembers] at hmember
        rcases CommunityState.get_seeds hmember with hnone | ⟨participant, -, ha, rfl⟩
        · simp at hnone
        · exact ha
      · rw [hpending] at hrequest
        simp at hrequest
  | enrolled hold _ hnew hid hmembers hpending =>
      obtain rfl := Option.some.inj (hnew.symm.trans hcommunity)
      obtain ⟨holdId, hkeys⟩ := henrolled k _ hold
      refine ⟨hid.trans holdId, fun a member hmember ↦ ?_, fun a request hrequest ↦ ?_⟩
      · rw [hmembers] at hmember
        rcases BTreeMap.get_insert_cases hmember with ⟨rfl, rfl⟩ | hbefore
        · rfl
        · exact hkeys.members a member hbefore
      · exact hkeys.pending a request (hpending a request hrequest)
  | dropped _ hold _ hnew hkeeps =>
      obtain rfl := Option.some.inj (hnew.symm.trans hcommunity)
      exact hkeeps.enrolled (henrolled k _ hold)
  | informal _ hcommunities =>
      rw [hcommunities] at hcommunity
      exact henrolled k community hcommunity

theorem NextMembership.members {c : Command} {k : ConversationId} {after : MessagingState}
    (h : NextMembership state c k after) {old : CommunityState}
    (hold : state.communities[k]? = some old) :
    ∃ new, after.communities[k]? = some new ∧ (new.members = old.members ∨
      ∃ member, Grounds old k c member ∧
        new.members = old.members.insert member.actorId member) := by
  cases h with
  | kept _ hkept _ =>
      obtain ⟨new, hnew, hkeeps⟩ := hkept old hold
      exact ⟨new, hnew, .inl hkeeps.members⟩
  | replaced _ _ hcommunities => exact ⟨old, by rw [hcommunities, hold], .inl rfl⟩
  | created _ _ hnone => cases hold.symm.trans hnone
  | @enrolled first new member hfirst hgrounds hnew _ hmembers =>
      obtain rfl := Option.some.inj (hfirst.symm.trans hold)
      exact ⟨new, hnew, .inr ⟨member, hgrounds, hmembers⟩⟩
  | @dropped first new _ _ hfirst _ hnew hkeeps =>
      obtain rfl := Option.some.inj (hfirst.symm.trans hold)
      exact ⟨new, hnew, .inl hkeeps.members⟩
  | informal _ hcommunities => exact ⟨old, by rw [hcommunities, hold], .inl rfl⟩

theorem NextMembership.of_passing (state : MessagingState) {commands : List Command}
    (hpassing : ∀ c ∈ commands, c.Passing) (c : Command) (k : ConversationId) :
    NextMembership state c k (Runs.run next state commands) :=
  .of_keys
    (frame_passing (p := fun state ↦ communityKeys state k) (communityKeys_apply k)
      @EventTag.isCommunity_of_isPassing hpassing state)
    (frame_passing (p := fun state ↦ rosterOf state k) (rosterOf_apply k)
      @EventTag.isRoster_of_isPassing hpassing state)

end MessagingState

end Fabushi.Messaging
