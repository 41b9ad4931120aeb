import Fabushi.Messaging.MembershipSteps
import Fabushi.Messaging.RetentionRuns

/-!
# Owners and bans along the runs of the service

A request writes one member of a community at most, and what it may write depends on
the rights of its actor. Reading off the few ways in which a member is written tells
who can make or unmake an owner, and who can lift a ban.
-/

namespace Fabushi.Messaging

open Effects Result Std

variable {S B : Type}

namespace CommunityState

def statusOf (community : CommunityState) (actorId : ActorId) : Option MemberStatus :=
  community.members[actorId]?.map fun member ↦ member.status

theorem isOwner_eq (community : CommunityState) (actorId : ActorId) :
    community.isOwner actorId = decide (community.statusOf actorId = some .owner) := by
  unfold isOwner hasMemberWith statusOf
  cases community.members[actorId]? with
  | none => rfl
  | some member => simp

def mayBan (community : CommunityState) (actorId : ActorId) : Bool :=
  community.hasMemberWith actorId fun member ↦
    member.status = .owner || (member.status = .administrator && member.adminRights.banMembers)

def restrictionEnded (community : CommunityState) (actorId : ActorId) (serverTimeMs : Int64) :
    Bool :=
  community.hasMemberWith actorId fun member ↦
    member.restrictions.untilMs.any fun untilMs ↦ untilMs ≤ serverTimeMs

theorem statusOf_insert {old new : CommunityState} {member : CommunityMember}
    (h : new.members = old.members.insert member.actorId member) (a : ActorId) :
    new.statusOf a = if member.actorId = a then some member.status else old.statusOf a := by
  unfold statusOf
  rw [h, BTreeMap.get_insert]
  split <;> rfl

end CommunityState

def Command.acting : Command → Option ActorId
  | .moderateCommunityMember actorId .. | .setCommunityMember actorId ..
  | .respondCommunityJoin actorId .. => some actorId
  | _ => none

def Command.membershipOrigin : Command → Option ClientCommand
  | .moderateCommunityMember _ conversationId member reason _ =>
      some (.moderateCommunityMember conversationId member reason)
  | .setCommunityMember _ conversationId member => some (.setCommunityMember conversationId member)
  | .respondCommunityJoin _ conversationId requesterId approved _ =>
      some (.respondCommunityJoin conversationId requesterId approved)
  | .setConversationParticipant conversationId participant =>
      some (.setConversationParticipant conversationId participant)
  | .removeConversationParticipant conversationId target =>
      some (.removeConversationParticipant conversationId target)
  | _ => none

/-- How a request of `actorId` can write the status of a member. -/
inductive MemberWritten (old : CommunityState) (k : ConversationId) (actorId : ActorId) :
    ClientCommand → ActorId → MemberStatus → Prop
  | moderated {member : CommunityMember} {reason : Option String}
      (hrights : requireCommunityAdmin old actorId .banMembers = .ok ())
      (howner : old.isOwner member.actorId = false) (hstatus : member.status ≠ .owner) :
      MemberWritten old k actorId (.moderateCommunityMember k member reason) member.actorId
        member.status
  | set {member : CommunityMember}
      (howner : old.isOwner member.actorId = true ∨ member.status = .owner →
        old.isOwner actorId = true)
      (hrights : requireCommunityAdmin old actorId (MessagingState.memberChangeAction
        (old.isOwner member.actorId || old.hasMemberWith member.actorId fun existing ↦
          existing.status = .administrator) member.status) = .ok ()) :
      MemberWritten old k actorId (.setCommunityMember k member) member.actorId member.status
  | joined {requesterId : ActorId} (hrights : old.canManageInvites actorId = true)
      (hpending : old.pendingJoinRequests[requesterId]?.isSome = true) :
      MemberWritten old k actorId (.respondCommunityJoin k requesterId true) requesterId .member
  | placed {participant : Participant} (hauthorized : MessagingState.authorizeCommunityManagement
        old actorId (.setParticipant participant) = .ok ()) :
      MemberWritten old k actorId (.setConversationParticipant k participant)
        participant.actorId participant.role.memberStatus
  | removed {target : ActorId} (hauthorized : MessagingState.authorizeCommunityManagement
        old actorId (.removeParticipant target) = .ok ()) :
      MemberWritten old k actorId (.removeConversationParticipant k target) target .left

def ClientCommand.approval : ClientCommand → Option (ConversationId × ActorId)
  | .respondCommunityJoin conversationId requesterId true => some (conversationId, requesterId)
  | _ => none

section Management

variable {community : CommunityState} {actorId : ActorId}

theorem isOwner_of_setParticipant {participant : Participant}
    (h : MessagingState.authorizeCommunityManagement community actorId
      (.setParticipant participant) = .ok ()) :
    community.isOwner participant.actorId = false ∧ participant.role ≠ .owner := by
  obtain ⟨caller, -, h⟩ := bind_eq_ok.mp h
  obtain ⟨_, -, h⟩ := bind_eq_ok.mp h
  obtain ⟨_, howner, -⟩ := bind_eq_ok.mp h
  have howner := not_or.mp (ensure_eq_ok.mp howner)
  exact ⟨Bool.eq_false_iff.mpr howner.1, howner.2⟩

theorem isOwner_of_removeParticipant {target : ActorId}
    (h : MessagingState.authorizeCommunityManagement community actorId
      (.removeParticipant target) = .ok ()) (howner : community.isOwner target = true) :
    community.isOwner actorId = true := by
  obtain ⟨caller, hcaller, h⟩ := bind_eq_ok.mp h
  obtain ⟨_, -, h⟩ := bind_eq_ok.mp h
  have hguard := ensure_eq_ok.mp h
  by_contra hnot
  refine hguard ⟨?_, ?_⟩
  · unfold CommunityState.isOwner CommunityState.hasMemberWith at howner
    obtain ⟨member, hmember, hstatus⟩ := (Option.any_eq_true _ _).mp howner
    rw [CommunityState.hasMemberWith, hmember, Option.any_some, hstatus, Bool.true_or]
  · rw [CommunityState.isOwner, CommunityState.hasMemberWith, okOr_eq_ok.mp hcaller,
      Option.any_some] at hnot
    exact hnot

theorem MemberWritten.owner {k : ConversationId} {command : ClientCommand} {a : ActorId}
    {status : MemberStatus} (h : MemberWritten community k actorId command a status)
    (hchange : decide (status = .owner) ≠ community.isOwner a) :
    community.isOwner actorId = true ∨
      (command = .respondCommunityJoin k a true ∧ community.isOwner a = true) := by
  cases h with
  | moderated _ howner hstatus =>
      rw [howner, decide_eq_false hstatus] at hchange
      exact absurd rfl hchange
  | set howner =>
      left
      apply howner
      by_contra hneither
      obtain ⟨hnot, hstatus⟩ := not_or.mp hneither
      rw [Bool.eq_false_iff.mpr hnot, decide_eq_false hstatus] at hchange
      exact absurd rfl hchange
  | joined =>
      right
      exact ⟨rfl, (Bool.not_eq_false _).mp (Ne.symm hchange)⟩
  | @placed participant hauthorized =>
      obtain ⟨howner, hrole⟩ := isOwner_of_setParticipant hauthorized
      have hstatus : participant.role.memberStatus ≠ .owner := by
        cases hr : participant.role
        case owner => exact absurd hr hrole
        all_goals exact nofun
      rw [howner, decide_eq_false hstatus] at hchange
      exact absurd rfl hchange
  | removed hauthorized =>
      left
      exact isOwner_of_removeParticipant hauthorized ((Bool.not_eq_false _).mp (Ne.symm hchange))

def MemberStatus.isHeld : MemberStatus → Bool
  | .restricted | .banned => true
  | _ => false

/-- Who writes `status` over a member in good or bad standing frees the member. -/
def CommunityState.frees (community : CommunityState) (a : ActorId) (status : MemberStatus)
    (serverTimeMs : Int64) : Bool :=
  (community.statusOf a).any fun old ↦ old.isHeld && status ≠ old &&
    !(old = .restricted && community.restrictionEnded a serverTimeMs)

theorem mayBan_of_isOwner (h : community.isOwner actorId = true) :
    community.mayBan actorId = true := by
  unfold CommunityState.isOwner CommunityState.hasMemberWith at h
  obtain ⟨member, hmember, hstatus⟩ := (Option.any_eq_true _ _).mp h
  rw [CommunityState.mayBan, CommunityState.hasMemberWith, hmember, Option.any_some, hstatus,
    Bool.true_or]

theorem mayBan_of_requireCommunityAdmin
    (h : requireCommunityAdmin community actorId .banMembers = .ok ()) :
    community.mayBan actorId = true :=
  ensure_eq_ok.mp h

def ClientCommand.laxWrite : ClientCommand → Option (ConversationId × ActorId × MemberStatus)
  | .setCommunityMember conversationId member =>
      if member.status = .member ∨ member.status = .administrator then
        some (conversationId, member.actorId, member.status)
      else none
  | .respondCommunityJoin conversationId requesterId true =>
      some (conversationId, requesterId, .member)
  | .setConversationParticipant conversationId participant =>
      some (conversationId, participant.actorId, participant.role.memberStatus)
  | .removeConversationParticipant conversationId target => some (conversationId, target, .left)
  | _ => none

theorem memberChangeAction_of_isHeld {a : ActorId} {old : MemberStatus}
    (hstatus : community.statusOf a = some old) (hheld : old.isHeld = true)
    (status : MemberStatus) :
    MessagingState.memberChangeAction (community.isOwner a ||
      community.hasMemberWith a fun existing ↦ existing.status = .administrator) status =
        MessagingState.memberChangeAction false status := by
  obtain ⟨member, hmember, rfl⟩ := Option.map_eq_some_iff.mp hstatus
  have hneither : (community.isOwner a || community.hasMemberWith a fun existing ↦
      existing.status = .administrator) = false := by
    rw [CommunityState.isOwner, CommunityState.hasMemberWith, CommunityState.hasMemberWith,
      hmember]
    revert hheld
    cases hstatus : member.status <;> simp [MemberStatus.isHeld, hstatus]
  rw [hneither]

theorem MemberWritten.mayBan_or_lax {k : ConversationId} {command : ClientCommand} {a : ActorId}
    {old status : MemberStatus} (h : MemberWritten community k actorId command a status)
    (hstatus : community.statusOf a = some old) (hheld : old.isHeld = true) :
    community.mayBan actorId = true ∨ command.laxWrite = some (k, a, status) := by
  cases h with
  | moderated hrights => exact .inl (mayBan_of_requireCommunityAdmin hrights)
  | @set member howner hrights =>
      rw [memberChangeAction_of_isHeld hstatus hheld] at hrights
      cases hwritten : member.status with
      | owner => exact .inl (mayBan_of_isOwner (howner (.inr hwritten)))
      | administrator => exact .inr (by rw [ClientCommand.laxWrite, if_pos (.inr hwritten), hwritten])
      | member => exact .inr (by rw [ClientCommand.laxWrite, if_pos (.inl hwritten), hwritten])
      | restricted | left | banned =>
          rw [hwritten] at hrights
          exact .inl (mayBan_of_requireCommunityAdmin hrights)
  | joined => exact .inr rfl
  | placed => exact .inr rfl
  | removed => exact .inr rfl

end Management

namespace MessagingState

variable {state : MessagingState} {actorId : ActorId} {serverTimeMs : Int64}
  {command : ClientCommand} {c : Command} {k : ConversationId}

theorem projected_membership {sha256 : List UInt8 → List UInt8} {client : ClientCommand}
    (hprojected : state.projectCommand sha256 actorId serverTimeMs command = [c])
    (horigin : c.membershipOrigin = some client) :
    command = client ∧ ∀ a, c.acting = some a → a = actorId := by
  cases command
  case moderateCommunityMember | setCommunityMember | respondCommunityJoin =>
    obtain rfl := List.singleton_inj.mp hprojected
    exact ⟨Option.some.inj horigin, fun a ha ↦ (Option.some.inj ha).symm⟩
  case setConversationParticipant | removeConversationParticipant =>
    obtain rfl := List.singleton_inj.mp hprojected
    exact ⟨Option.some.inj horigin, nofun⟩
  case updateConversation =>
    simp only [projectCommand] at hprojected
    split at hprojected <;> obtain rfl := List.singleton_inj.mp hprojected <;> cases horigin
  case sendMessage | markRead =>
    obtain ⟨rfl, -⟩ := List.cons.inj hprojected
    cases horigin
  all_goals
    first
    | cases hprojected; done
    | (obtain rfl := List.singleton_inj.mp hprojected; cases horigin)

theorem memberWritten_of_grounds {sha256 : List UInt8 → List UInt8} {old : CommunityState}
    {member : CommunityMember} (hold : state.communities[k]? = some old)
    (hkeys : old.Enrolled)
    (hauthorized : state.validateCommandAuthorization actorId command = .ok ())
    (hprojected : state.projectCommand sha256 actorId serverTimeMs command = [c])
    (hgrounds : Grounds old k c member) :
    MemberWritten old k actorId command member.actorId member.status := by
  cases hgrounds with
  | moderated hrights howner hstatus =>
      obtain ⟨rfl, hactor⟩ := projected_membership hprojected rfl
      obtain rfl := hactor _ rfl
      exact .moderated hrights howner hstatus
  | set howner hrights =>
      obtain ⟨rfl, hactor⟩ := projected_membership hprojected rfl
      obtain rfl := hactor _ rfl
      exact .set howner hrights
  | joined hrights hpending =>
      obtain ⟨rfl, hactor⟩ := projected_membership hprojected rfl
      obtain rfl := hactor _ rfl
      exact .joined hrights hpending
  | placed hactor hstatus =>
      obtain ⟨rfl, -⟩ := projected_membership hprojected rfl
      rw [hactor, hstatus]
      refine .placed ?_
      rwa [validateCommandAuthorization, authorizeManagement, hold] at hauthorized
  | removed hmember =>
      obtain ⟨rfl, -⟩ := projected_membership hprojected rfl
      obtain rfl := hkeys.members _ _ hmember
      refine .removed ?_
      rwa [validateCommandAuthorization, authorizeManagement, hold] at hauthorized

def Accepts (env : ServiceEnv) (state : MessagingState) (request : ClientEnvelope)
    (serverTimeMs : Int64) : Bool :=
  request.protocolVersion = protocolVersion &&
    (state.validateCommandAuthorization request.context.actorId request.command).isOk &&
    (state.projectCommand env.sha256 request.context.actorId serverTimeMs request.command).all
      fun c ↦ (state.decide c).isOk

theorem membershipOrigin_of_grounds {old : CommunityState} {member : CommunityMember}
    (h : Grounds old k c member) : ∃ client, c.membershipOrigin = some client := by
  cases h <;> exact ⟨_, rfl⟩

theorem accepts_of_membership {env : ServiceEnv} {request : ClientEnvelope}
    {messages : BTreeMap ConversationId (BTreeMap MessageId Message)} {events : List Event}
    {client : ClientCommand} (hversion : request.protocolVersion = protocolVersion)
    (hauthorized : state.validateCommandAuthorization request.context.actorId
      request.command = .ok ())
    (hprojected : projectCommand env.sha256 { state with messages } request.context.actorId
      serverTimeMs request.command = [c])
    (hdecide : MessagingState.decide { state with messages } c = .ok events)
    (horigin : c.membershipOrigin = some client) :
    state.Accepts env request serverTimeMs = true := by
  have hcommand := (projected_membership hprojected horigin).1
  have hsame : state.projectCommand env.sha256 request.context.actorId serverTimeMs
      request.command = [c] := by
    rw [← hprojected, hcommand]
    cases c <;> cases horigin <;> rfl
  have hdecided : state.decide c = .ok events := by
    cases c <;> cases horigin <;> exact hdecide
  simp only [Accepts, hversion, hauthorized, hsame, List.all_cons, hdecided, List.all_nil]
  rfl

end MessagingState

namespace MessagingService

open MessagingState

variable [MessagingStateStore S] [BlobStore B] {env : ServiceEnv} {store : S}
  {blobStore : Option B} {inputs : List ServiceInput} {s : MessagingService S B}
  {input : ServiceInput}

/-! ## The members of a community -/

theorem enrolled_next (env : ServiceEnv) {s : MessagingService S B} (hkeyed : s.engine.Keyed)
    (henrolled : s.engine.Enrolled) (input : ServiceInput) :
    (next env s input).engine.Enrolled := by
  intro k community hcommunity
  have henacts := enacts_next env hkeyed input
  generalize (next env s input).engine = after at henacts hcommunity
  cases henacts with
  | passed messages commands hpassing =>
      have hpassed := NextMembership.of_passing { s.engine with messages } hpassing
        (.deleteFolder "") k
      exact hpassed.enrolled_of henrolled hcommunity
  | @single request serverTimeMs _ messages _ _ c _ _ _ =>
      have hsame : MessagingState.Enrolled { s.engine with messages } := henrolled
      have hnext := nextMembership hsame c k
      exact hnext.enrolled_of henrolled hcommunity

theorem members_next (env : ServiceEnv) (hkeyed : s.engine.Keyed) (henrolled : s.engine.Enrolled)
    (input : ServiceInput) {k : ConversationId} {old : CommunityState} (hold : s.engine.communities[k]? = some old) :
    ∃ new, (next env s input).engine.communities[k]? = some new ∧
      (new.members = old.members ∨ ∃ request serverTimeMs member,
        input = .handle request serverTimeMs ∧
        s.engine.Accepts env request serverTimeMs = true ∧
        MemberWritten old k request.context.actorId request.command member.actorId
          member.status ∧
        new.members = old.members.insert member.actorId member) := by
  have henacts := enacts_next env hkeyed input
  generalize (next env s input).engine = after at henacts
  cases henacts with
  | passed messages commands hpassing =>
      have hpassed := NextMembership.of_passing { s.engine with messages } hpassing
        (.deleteFolder "") k
      obtain ⟨new, hnew, hmembers | ⟨_, hgrounds, -⟩⟩ := hpassed.members hold
      · exact ⟨new, hnew, .inl hmembers⟩
      · cases hgrounds
  | @single request serverTimeMs hversion messages _ hauthorized c events hprojected hdecide =>
      have hsame : MessagingState.Enrolled { s.engine with messages } := henrolled
      have hnext := nextMembership hsame c k
      obtain ⟨new, hnew, hmembers | ⟨member, hgrounds, hmembers⟩⟩ := hnext.members hold
      · exact ⟨new, hnew, .inl hmembers⟩
      · obtain ⟨client, horigin⟩ := membershipOrigin_of_grounds hgrounds
        refine ⟨new, hnew, .inr ⟨request, serverTimeMs, member, rfl, ?_, ?_, hmembers⟩⟩
        · exact accepts_of_membership hversion hauthorized hprojected hdecide horigin
        · have hfound : (MessagingState.communities { s.engine with messages })[k]? = some old :=
            hold
          exact memberWritten_of_grounds hfound (henrolled k old hold).2 hauthorized hprojected
            hgrounds

/-! ## Owners -/

def RespectsOwners (env : ServiceEnv) (s : MessagingService S B) : ServiceInput → Prop
  | .settle .. => True
  | .handle request serverTimeMs => s.engine.Accepts env request serverTimeMs = true →
      ∀ approval ∈ request.command.approval, ∀ old ∈ s.engine.communities[approval.1]?,
        old.isOwner approval.2 = true → old.isOwner request.context.actorId = true

omit [MessagingStateStore S] [BlobStore B] in
instance (s : MessagingService S B) (input : ServiceInput) :
    Decidable (s.RespectsOwners env input) :=
  match input with
  | .settle .. => inferInstanceAs (Decidable True)
  | .handle request _ => inferInstanceAs
      (Decidable (_ → ∀ approval ∈ request.command.approval, _))

theorem owners_next (hkeyed : s.engine.Keyed) (henrolled : s.engine.Enrolled)
    (hrespects : s.RespectsOwners env input) {k : ConversationId} {old : CommunityState}
    (hold : s.engine.communities[k]? = some old) :
    ∃ new, (next env s input).engine.communities[k]? = some new ∧
      ∀ a : ActorId, new.isOwner a ≠ old.isOwner a →
        ∃ actorId, input.actorId = some actorId ∧ old.isOwner actorId = true := by
  obtain ⟨new, hnew, hsame | ⟨request, serverTimeMs, member, rfl, haccepts, hwritten, hmembers⟩⟩ :=
    members_next env hkeyed henrolled input hold
  · refine ⟨new, hnew, fun a hchange ↦ absurd ?_ hchange⟩
    simp only [CommunityState.isOwner, CommunityState.hasMemberWith, hsame]
  · refine ⟨new, hnew, fun a hchange ↦ ⟨request.context.actorId, rfl, ?_⟩⟩
    rw [CommunityState.isOwner_eq, CommunityState.statusOf_insert hmembers] at hchange
    split at hchange
    · rename_i ha
      subst ha
      rcases hwritten.owner (by simpa using hchange) with howner | ⟨hcommand, howner⟩
      · exact howner
      · refine hrespects haccepts (k, member.actorId) ?_ old hold howner
        rw [hcommand]
        rfl
    · exact absurd (CommunityState.isOwner_eq old a).symm hchange

/-! ## Bans -/

/-- No accepted request of the input that writes a membership without asking for the
right to ban frees a member, unless its actor has that right. -/
def RespectsBans (env : ServiceEnv) (s : MessagingService S B) : ServiceInput → Prop
  | .settle .. => True
  | .handle request serverTimeMs => s.engine.Accepts env request serverTimeMs = true →
      ∀ write ∈ request.command.laxWrite, ∀ old ∈ s.engine.communities[write.1]?,
        old.frees write.2.1 write.2.2 serverTimeMs = true →
          old.mayBan request.context.actorId = true

omit [MessagingStateStore S] [BlobStore B] in
instance (s : MessagingService S B) (input : ServiceInput) :
    Decidable (s.RespectsBans env input) :=
  match input with
  | .settle .. => inferInstanceAs (Decidable True)
  | .handle request _ => inferInstanceAs
      (Decidable (_ → ∀ write ∈ request.command.laxWrite, _))

/-- The members that are banned or restricted stay so, unless the input is a request of
an actor who may ban, or the restriction has ended. -/
def BansHold (input : ServiceInput) (old new : CommunityState) : Prop :=
  ∀ (a : ActorId) (status : MemberStatus), old.statusOf a = some status →
    status = .banned ∨ status = .restricted → new.statusOf a = some status ∨
      ∃ request serverTimeMs, input = .handle request serverTimeMs ∧
        (old.mayBan request.context.actorId = true ∨
          (status = .restricted ∧ old.restrictionEnded a serverTimeMs = true))

theorem bans_next (hkeyed : s.engine.Keyed) (henrolled : s.engine.Enrolled)
    (hrespects : s.RespectsBans env input) {k : ConversationId} {old : CommunityState}
    (hold : s.engine.communities[k]? = some old) :
    ∃ new, (next env s input).engine.communities[k]? = some new ∧ BansHold input old new := by
  obtain ⟨new, hnew, hsame | ⟨request, serverTimeMs, member, rfl, haccepts, hwritten, hmembers⟩⟩ :=
    members_next env hkeyed henrolled input hold
  · refine ⟨new, hnew, fun a status hstatus _ ↦ .inl ?_⟩
    rw [CommunityState.statusOf, hsame]
    exact hstatus
  · refine ⟨new, hnew, fun a status hstatus hbanned ↦ ?_⟩
    have hheld : status.isHeld = true := by
      rcases hbanned with rfl | rfl <;> rfl
    rw [CommunityState.statusOf_insert hmembers]
    split
    · rename_i ha
      subst ha
      by_cases hkeeps : member.status = status
      · exact .inl (congrArg some hkeeps)
      · refine .inr ⟨request, serverTimeMs, rfl, ?_⟩
        rcases hwritten.mayBan_or_lax hstatus hheld with hmay | hlax
        · exact .inl hmay
        · by_cases hended : status = .restricted ∧
              old.restrictionEnded member.actorId serverTimeMs = true
          · exact .inr hended
          · left
            refine hrespects haccepts (k, member.actorId, member.status) hlax old hold ?_
            rw [CommunityState.frees, hstatus, Option.any_some, hheld]
            simp only [Bool.true_and, Bool.and_eq_true, decide_eq_true_eq, Bool.not_eq_true',
              Bool.and_eq_false_iff, decide_eq_false_iff_not]
            refine ⟨hkeeps, ?_⟩
            by_contra hneither
            simp only [not_or, Bool.not_eq_false, not_not] at hneither
            exact hended hneither
    · exact .inl hstatus

theorem enrolled_run (inputs : List ServiceInput) :
    (Runs.run (next env) (empty store blobStore) inputs).engine.Enrolled := by
  have hboth : ∀ s : MessagingService S B, s.engine.Keyed ∧ s.engine.Enrolled →
      (Runs.run (next env) s inputs).engine.Keyed ∧ (Runs.run (next env) s inputs).engine.Enrolled :=
    fun s hs ↦ Runs.invariant (I := fun s : MessagingService S B ↦
      s.engine.Keyed ∧ s.engine.Enrolled)
      (fun _ input h ↦ ⟨keyed_next env h.1 input, enrolled_next env h.1 h.2 input⟩) hs inputs
  exact (hboth _ ⟨keyed_empty, enrolled_empty⟩).2

/-- In a run in which no join request of an owner is approved by somebody else, only
owners make and unmake owners of a community. -/
theorem owners_by_owners
    (hrun : Runs.Along (next env) (RespectsOwners env) (empty store blobStore) inputs)
    (ht : Takes env store blobStore inputs s input) (k : ConversationId) (old : CommunityState)
    (hold : s.engine.communities[k]? = some old) :
    ∃ new, (next env s input).engine.communities[k]? = some new ∧
      ∀ a : ActorId, new.isOwner a ≠ old.isOwner a →
        ∃ actorId, input.actorId = some actorId ∧ old.isOwner actorId = true := by
  have hrespects := hrun.takes ht
  have hkeyed := ht.keyed
  obtain ⟨xs, ys, rfl, rfl⟩ := ht
  exact owners_next hkeyed (enrolled_run xs) hrespects hold

/-- In a run in which no lax write frees a member without the right to ban, bans and
restrictions are lifted by those who may ban, or end by themselves. -/
theorem bans_by_moderators
    (hrun : Runs.Along (next env) (RespectsBans env) (empty store blobStore) inputs)
    (ht : Takes env store blobStore inputs s input) (k : ConversationId) (old : CommunityState)
    (hold : s.engine.communities[k]? = some old) :
    ∃ new, (next env s input).engine.communities[k]? = some new ∧ BansHold input old new := by
  have hrespects := hrun.takes ht
  have hkeyed := ht.keyed
  obtain ⟨xs, ys, rfl, rfl⟩ := ht
  exact bans_next hkeyed (enrolled_run xs) hrespects hold

end MessagingService

/-! ## A club -/

namespace Chat

def club : CommunityState :=
  { conversationId := room.id, publicUsername := some "room" }

def setMember (actorId : ActorId) (member : CommunityMember) : ServiceInput :=
  request 2 actorId (.setCommunityMember room.id member)

def doorkeeper : CommunityMember :=
  { actorId := guest, status := .administrator, joinedAtMs := 2
    adminRights := { inviteMembers := true } }

def clubbed : List ServiceInput :=
  [profile host, profile guest, profile stranger, request 1 host (.createConversation room),
    request 1 host (.updateCommunity club), setMember host doorkeeper]

def applying : ServiceInput :=
  request 3 host (.requestCommunityJoin
    { conversationId := room.id, actorId := host, inviteLinkId := none, bio := none
      requestedAtMs := 3 })

def approving : ServiceInput :=
  request 4 guest (.respondCommunityJoin room.id host true)

def heir : CommunityMember :=
  { actorId := stranger, status := .owner, joinedAtMs := 3 }

def banned : CommunityMember :=
  { actorId := stranger, status := .banned, joinedAtMs := 3 }

def pardoned : CommunityMember :=
  { actorId := stranger, status := .member, joinedAtMs := 4 }

end Chat

namespace MessagingService

open Chat

theorem owners_by_owners_heir :
    ∃ new, (next world (reached clubbed) (setMember host heir)).engine.communities[room.id]? =
        some new ∧
      ∀ a : ActorId, new.isOwner a ≠ (((reached clubbed).engine.communities[room.id]?).getD
          club).isOwner a → ∃ actorId, (setMember host heir).actorId = some actorId ∧
        (((reached clubbed).engine.communities[room.id]?).getD club).isOwner actorId = true := by
  have hrun : Runs.Along (next world) (RespectsOwners world)
      (empty ({} : MemoryStateStore) (none : Option Empty)) (clubbed ++ [setMember host heir]) := by
    decide +kernel
  have hsome : ((reached clubbed).engine.communities[room.id]?).isSome = true := by
    decide +kernel
  obtain ⟨old, hold⟩ := Option.isSome_iff_exists.mp hsome
  have ht : Takes world ({} : MemoryStateStore) (none : Option Empty)
      (clubbed ++ [setMember host heir]) (reached clubbed) (setMember host heir) :=
    ⟨clubbed, [], rfl, rfl⟩
  rw [hold, Option.getD_some]
  exact owners_by_owners hrun ht room.id old hold

/-- The guest approves a join request of the owner, who becomes a member. -/
theorem owner_unseated :
    ¬ ∀ (inputs : List ServiceInput) (s : MessagingService MemoryStateStore Empty)
      (input : ServiceInput), Takes world {} none inputs s input →
      ∀ (k : ConversationId) (old : CommunityState), s.engine.communities[k]? = some old →
        ∃ new, (next world s input).engine.communities[k]? = some new ∧
          ∀ a : ActorId, new.isOwner a ≠ old.isOwner a →
            ∃ actorId, input.actorId = some actorId ∧ old.isOwner actorId = true := by
  intro hclaim
  have hbefore : (reached (clubbed ++ [applying])).engine.communities[room.id]?.any (fun old ↦
      old.isOwner host && !old.isOwner guest) := by decide +kernel
  have hafter : (next world (reached (clubbed ++ [applying])) approving).engine.communities[
      room.id]?.all (fun new ↦ !new.isOwner host) := by decide +kernel
  obtain ⟨old, hold, howners⟩ := (Option.any_eq_true _ _).mp hbefore
  rw [Bool.and_eq_true, Bool.not_eq_true'] at howners
  obtain ⟨new, hnew, hchanges⟩ := hclaim (clubbed ++ [applying] ++ [approving])
    (reached (clubbed ++ [applying])) approving ⟨clubbed ++ [applying], [], rfl, rfl⟩ room.id old
    hold
  rw [hnew, Option.all_some, Bool.not_eq_true'] at hafter
  have hchange : new.isOwner host ≠ old.isOwner host := by
    rw [hafter, howners.1]
    decide
  obtain ⟨actorId, hactor, howner⟩ := hchanges host hchange
  obtain rfl := Option.some.inj hactor
  cases howners.2.symm.trans howner

theorem bans_by_moderators_pardon :
    ∃ new, (next world (reached (clubbed ++ [setMember host banned]))
        (setMember host pardoned)).engine.communities[room.id]? = some new ∧
      BansHold (setMember host pardoned)
        (((reached (clubbed ++ [setMember host banned])).engine.communities[room.id]?).getD club)
        new := by
  have hrun : Runs.Along (next world) (RespectsBans world)
      (empty ({} : MemoryStateStore) (none : Option Empty))
      (clubbed ++ [setMember host banned] ++ [setMember host pardoned]) := by
    decide +kernel
  have hsome : ((reached (clubbed ++ [setMember host banned])).engine.communities[
      room.id]?).isSome = true := by decide +kernel
  obtain ⟨old, hold⟩ := Option.isSome_iff_exists.mp hsome
  have ht : Takes world ({} : MemoryStateStore) (none : Option Empty)
      (clubbed ++ [setMember host banned] ++ [setMember host pardoned])
      (reached (clubbed ++ [setMember host banned])) (setMember host pardoned) :=
    ⟨clubbed ++ [setMember host banned], [], rfl, rfl⟩
  rw [hold, Option.getD_some]
  exact bans_by_moderators hrun ht room.id old hold

/-- The guest, who may invite members, makes a member of the banned stranger. -/
theorem ban_lifted :
    ¬ ∀ (inputs : List ServiceInput) (s : MessagingService MemoryStateStore Empty)
      (input : ServiceInput), Takes world {} none inputs s input →
      ∀ (k : ConversationId) (old : CommunityState), s.engine.communities[k]? = some old →
        ∃ new, (next world s input).engine.communities[k]? = some new ∧
          BansHold input old new := by
  intro hclaim
  have hbefore : (reached (clubbed ++ [setMember host banned])).engine.communities[
      room.id]?.any (fun old ↦ old.statusOf stranger = some .banned && !old.mayBan guest) := by
    decide +kernel
  have hafter : (next world (reached (clubbed ++ [setMember host banned]))
      (setMember guest pardoned)).engine.communities[room.id]?.all (fun new ↦
        new.statusOf stranger = some .member) := by decide +kernel
  obtain ⟨old, hold, hstanding⟩ := (Option.any_eq_true _ _).mp hbefore
  rw [Bool.and_eq_true, decide_eq_true_eq, Bool.not_eq_true'] at hstanding
  obtain ⟨new, hnew, hbans⟩ := hclaim
    (clubbed ++ [setMember host banned] ++ [setMember guest pardoned])
    (reached (clubbed ++ [setMember host banned])) (setMember guest pardoned)
    ⟨clubbed ++ [setMember host banned], [], rfl, rfl⟩ room.id old hold
  rw [hnew, Option.all_some, decide_eq_true_eq] at hafter
  rcases hbans stranger .banned hstanding.1 (.inl rfl) with hstays | ⟨_, _, hrequest, hmay⟩
  · cases hafter.symm.trans hstays
  · cases hrequest
    rcases hmay with hmay | ⟨hrestricted, -⟩
    · cases hstanding.2.symm.trans hmay
    · cases hrestricted

end MessagingService

end Fabushi.Messaging
