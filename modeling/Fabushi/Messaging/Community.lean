import Fabushi.Messaging.Conversation

/-!
# Communities

Membership, moderation, invitations, forum topics and the bounded audit log of
`community.rs`.
-/

namespace Fabushi.Messaging

open Result

inductive MemberStatus where
  | owner | administrator | member | restricted | left | banned
  deriving DecidableEq, Repr

def MemberStatus.isGone : MemberStatus → Bool
  | .left | .banned => true
  | _ => false

structure AdminRights where
  changeInfo : Bool := false
  postMessages : Bool := false
  editMessages : Bool := false
  deleteMessages : Bool := false
  banMembers : Bool := false
  inviteMembers : Bool := false
  pinMessages : Bool := false
  manageTopics : Bool := false
  manageCalls : Bool := false
  addAdmins : Bool := false
  remainAnonymous : Bool := false
  deriving DecidableEq, Repr

structure MemberRestrictions where
  sendMessages : Bool := false
  sendMedia : Bool := false
  sendPolls : Bool := false
  embedLinks : Bool := false
  addMembers : Bool := false
  pinMessages : Bool := false
  changeInfo : Bool := false
  untilMs : Option Int64 := none
  deriving DecidableEq, Repr

structure CommunityMember where
  actorId : ActorId
  status : MemberStatus
  adminTitle : Option String := none
  adminRights : AdminRights := {}
  restrictions : MemberRestrictions := {}
  joinedAtMs : Int64
  invitedBy : Option ActorId := none
  deriving DecidableEq, Repr

structure InviteLink where
  id : String
  conversationId : ConversationId
  creatorId : ActorId
  token : String
  name : Option String
  createdAtMs : Int64
  expiresAtMs : Option Int64
  memberLimit : Option UInt32
  joinRequest : Bool
  revoked : Bool
  joinedCount : UInt32
  deriving DecidableEq, Repr

structure JoinRequest where
  conversationId : ConversationId
  actorId : ActorId
  inviteLinkId : Option String
  bio : Option String
  requestedAtMs : Int64
  deriving DecidableEq, Repr

structure ForumTopicState where
  id : String
  conversationId : ConversationId
  title : String
  icon : Option String
  creatorId : ActorId
  createdAtMs : Int64
  pinned : Bool
  closed : Bool
  hidden : Bool
  unreadCount : UInt32
  lastMessageId : Option String
  deriving DecidableEq, Repr

structure ChannelSubscription where
  actorId : ActorId
  subscribedAtMs : Int64
  muted : Bool
  deriving DecidableEq, Repr

inductive CommunityAuditAction where
  | communityUpdated | subscriptionAdded | subscriptionRemoved | memberChanged
  | inviteCreated | inviteRevoked | joinApproved | joinRejected | topicUpserted
  | topicDeleted | slowModeChanged
  deriving DecidableEq, Repr

structure CommunityAuditEntry where
  id : String
  actorId : ActorId
  action : CommunityAuditAction
  targetActorId : Option ActorId
  targetId : Option String
  reason : Option String
  createdAtMs : Int64
  deriving DecidableEq, Repr

inductive CommunityError where
  | permissionDenied
  | joinRequestNotFound (actorId : ActorId)
  | inviteNotFound (inviteId : String)
  | ownerCannotUnsubscribe
  deriving DecidableEq, Repr

structure CommunityState where
  conversationId : ConversationId
  publicUsername : Option String := none
  linkedDiscussionId : Option ConversationId := none
  signaturesEnabled : Bool := false
  joinToSend : Bool := false
  joinRequestRequired : Bool := false
  slowModeSeconds : Option UInt32 := none
  members : BTreeMap ActorId CommunityMember := ∅
  inviteLinks : BTreeMap String InviteLink := ∅
  pendingJoinRequests : BTreeMap ActorId JoinRequest := ∅
  topics : BTreeMap String ForumTopicState := ∅
  bannedWords : BTreeSet String := ∅
  subscribers : BTreeMap ActorId ChannelSubscription := ∅
  adminLog : List CommunityAuditEntry := []
  deriving DecidableEq

namespace CommunityState

def hasMemberWith (community : CommunityState) (actorId : ActorId)
    (p : CommunityMember → Bool) : Bool :=
  (community.members[actorId]?).any p

def isOwner (community : CommunityState) (actorId : ActorId) : Bool :=
  community.hasMemberWith actorId fun member ↦ member.status = .owner

def isActiveMember (community : CommunityState) (actorId : ActorId) : Bool :=
  community.hasMemberWith actorId fun member ↦ !member.status.isGone

def isSubscriber (community : CommunityState) (actorId : ActorId) : Bool :=
  community.subscribers.contains actorId

def isPublic (community : CommunityState) : Bool :=
  community.publicUsername.any fun username ↦ !Text.isBlank username

def subscribeChannel (community : CommunityState) (actorId : ActorId) (subscribedAtMs : Int64) :
    Except CommunityError CommunityState := do
  ensure (!community.hasMemberWith actorId fun member ↦ member.status.isGone) .permissionDenied
  if community.subscribers.contains actorId then
    return community
  else
    return { community with
      subscribers := community.subscribers.insert actorId
        { actorId, subscribedAtMs, muted := false } }

def unsubscribeChannel (community : CommunityState) (actorId : ActorId) :
    Except CommunityError CommunityState := do
  ensure (!community.isOwner actorId) .ownerCannotUnsubscribe
  return { community with subscribers := community.subscribers.erase actorId }

def maxAuditEntries : ℕ := 1000

def appendAudit (community : CommunityState) (entry : CommunityAuditEntry) : CommunityState :=
  let log := community.adminLog ++ [entry]
  { community with adminLog := log.drop (log.length - maxAuditEntries) }

def canModerate (community : CommunityState) (actorId : ActorId) : Bool :=
  community.hasMemberWith actorId fun member ↦
    member.status = .owner || (member.status = .administrator && member.adminRights.deleteMessages)

def canManageInvites (community : CommunityState) (actorId : ActorId) : Bool :=
  community.hasMemberWith actorId fun member ↦
    member.status = .owner || (member.status = .administrator && member.adminRights.inviteMembers)

def upsertMember (community : CommunityState) (member : CommunityMember) : CommunityState :=
  { community with
    pendingJoinRequests := community.pendingJoinRequests.erase member.actorId
    members := community.members.insert member.actorId member }

def requestJoin (community : CommunityState) (request : JoinRequest) : CommunityState :=
  { community with
    pendingJoinRequests := community.pendingJoinRequests.insert request.actorId request }

def approveJoin (community : CommunityState) (actorId approvedBy : ActorId) (nowMs : Int64) :
    Except CommunityError CommunityState := do
  ensure (community.canManageInvites approvedBy) .permissionDenied
  let request ← okOr community.pendingJoinRequests[actorId]? (.joinRequestNotFound actorId)
  let remaining := { community with
    pendingJoinRequests := community.pendingJoinRequests.erase actorId }
  return remaining.upsertMember
    { actorId := request.actorId, status := .member, joinedAtMs := nowMs,
      invitedBy := some approvedBy }

def revokeInvite (community : CommunityState) (inviteId : String) :
    Except CommunityError CommunityState := do
  let invite ← okOr community.inviteLinks[inviteId]? (.inviteNotFound inviteId)
  return { community with
    inviteLinks := community.inviteLinks.insert inviteId { invite with revoked := true } }

def roster (community : CommunityState) : List CommunityMember :=
  let strangers := community.subscribers.values.filter fun subscription ↦
    !community.members.contains subscription.actorId
  let members := community.members.values ++ strangers.map fun subscription ↦
    { actorId := subscription.actorId, status := .member,
      joinedAtMs := subscription.subscribedAtMs }
  members.mergeSort fun left right ↦ (compare left.actorId right.actorId).isLE

def pageLimit (limit : ℕ) : ℕ :=
  max 1 (min limit 100)

def pageByActorId (members : List CommunityMember) (cursor : Option String) (limit : ℕ) :
    List CommunityMember × Option String :=
  let start := match cursor with
    | none => 0
    | some value =>
        (members.findIdx? fun member ↦ compare member.actorId.value value = .gt).getD
          members.length
  let stop := min (start + pageLimit limit) members.length
  let next := if stop < members.length then
      members[stop - 1]?.map fun member ↦ member.actorId.value
    else none
  ((members.drop start).take (stop - start), next)

def memberPage (community : CommunityState) (cursor : Option String) (limit : ℕ) :
    List CommunityMember × Option String :=
  pageByActorId community.roster cursor limit

def auditPage (community : CommunityState) (cursor : Option String) (limit : ℕ) :
    List CommunityAuditEntry × Option String :=
  let entries := community.adminLog.mergeSort fun left right ↦
    ((compare left.createdAtMs right.createdAtMs).then (compare left.id right.id)).isLE
  let start := min ((cursor.bind String.toNat?).getD 0) entries.length
  let stop := min (start + pageLimit limit) entries.length
  let next := if stop < entries.length then some (toString stop) else none
  ((entries.drop start).take (stop - start), next)

end CommunityState

end Fabushi.Messaging
