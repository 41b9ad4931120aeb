import Fabushi.Messaging.ServiceEffects

/-!
# How a request drives the engine

A request that is authorized deletes the messages whose deadline has passed and
then executes the engine commands it stands for, each time up to the first one
that is refused. `Served` says this once for every request; what a request does to
messages and conversations is read off it.
-/

namespace Fabushi.Messaging

open Effects Result Std

variable {S B : Type}

namespace MessagingState

def settled (state : MessagingState) (serverTimeMs : Int64) : MessagingState :=
  Runs.run next state (MessagingService.expiredMessages state serverTimeMs)

inductive Work (env : ServiceEnv) (actorId : ActorId) (serverTimeMs : Int64)
    (state : MessagingState) (command : ClientCommand) : List Command → Prop where
  | projected : Work env actorId serverTimeMs state command
      (state.projectCommand env.sha256 actorId serverTimeMs command)
  | delivered {cursor : Option String} {limit : UInt32} (hsync : command = .sync cursor limit) :
      Work env actorId serverTimeMs state command
        (MessagingService.undeliveredMessages state actorId)

inductive Served (env : ServiceEnv) (actorId : ActorId) (serverTimeMs : Int64)
    (command : ClientCommand) (before : MessagingState) : MessagingState → Prop where
  | refused : Served env actorId serverTimeMs command before before
  | settling (front back : List Command)
      (hexpired : MessagingService.expiredMessages before serverTimeMs = front ++ back) :
      Served env actorId serverTimeMs command before (Runs.run next before front)
  | working (hauthorized : before.validateCommandAuthorization actorId command = .ok ())
      {commands : List Command} (hwork : (before.settled serverTimeMs).Work env actorId serverTimeMs
        command commands) (front back : List Command) (hcommands : commands = front ++ back)
      (haccepted : Runs.Along next Accepted (before.settled serverTimeMs) front) :
      Served env actorId serverTimeMs command before
        (Runs.run next (before.settled serverTimeMs) front)

end MessagingState

namespace MessagingService

open MessagingState

variable [MessagingStateStore S]

theorem engine_executeAll_publish (actorId : ActorId) (commands : List Command)
    (serverTimeMs : Int64) (s : MessagingService S B) :
    let m : ServiceM S B Unit := do
      let events ← executeAll commands
      discard (publish actorId events [] serverTimeMs)
    (after m s).engine = (s.engine.runAll commands).1 ∧
      ∀ u, result m s = .ok u → ∃ events, (s.engine.runAll commands).2 = .ok events := by
  intro m
  obtain ⟨hresult, hafter⟩ := executeAll_eq commands s
  cases hdecision : (s.engine.runAll commands).2 with
  | error error =>
      rw [hdecision] at hresult
      refine ⟨?_, fun u hu ↦ ?_⟩
      · rw [after_bind_error hresult, hafter]
      · rw [result_bind_error hresult] at hu
        cases hu
  | ok events =>
      rw [hdecision] at hresult
      refine ⟨?_, fun _ _ ↦ ⟨events, rfl⟩⟩
      rw [after_bind_ok hresult, hafter]
      exact idle_bind (idle_publish _ _ _ _) (fun _ ↦ idle_pure ()) _

theorem engine_settleExpiredMessages (initiator : ActorId) (serverTimeMs : Int64)
    (s : MessagingService S B) :
    (after (settleExpiredMessages initiator serverTimeMs) s).engine =
        (s.engine.runAll (expiredMessages s.engine serverTimeMs)).1 ∧
      ∀ u, result (settleExpiredMessages initiator serverTimeMs) s = .ok u →
        ∃ events, (s.engine.runAll (expiredMessages s.engine serverTimeMs)).2 = .ok events := by
  rw [settleExpiredMessages, after_get_bind, result_get_bind]
  dsimp only
  split
  · rename_i hempty
    rw [List.isEmpty_iff.mp hempty]
    exact ⟨rfl, fun _ _ ↦ ⟨[], rfl⟩⟩
  · exact engine_executeAll_publish _ _ _ s

theorem engine_markDirectMessagesDelivered (actorId : ActorId) (serverTimeMs : Int64)
    (s : MessagingService S B) :
    (after (markDirectMessagesDelivered actorId serverTimeMs) s).engine =
      (s.engine.runAll (undeliveredMessages s.engine actorId)).1 := by
  rw [markDirectMessagesDelivered, after_get_bind]
  dsimp only
  split
  · rename_i hempty
    rw [List.isEmpty_iff.mp hempty]
    rfl
  · exact (engine_executeAll_publish _ _ _ s).1

theorem engine_handleProjected (env : ServiceEnv) (actorId : ActorId) (command : ClientCommand)
    (serverTimeMs : Int64) (s : MessagingService S B) :
    (after (handleProjected env actorId command serverTimeMs) s).engine = s.engine ∨
      (after (handleProjected env actorId command serverTimeMs) s).engine =
        (s.engine.runAll
          (s.engine.projectCommand env.sha256 actorId serverTimeMs command)).1 := by
  rw [handleProjected, after_get_bind]
  cases hreplay : s.idempotentSendReplay env actorId command serverTimeMs with
  | error error =>
      left
      rfl
  | ok replay =>
      cases replay with
      | some replay =>
          left
          rfl
      | none =>
          right
          change (after (executeAll _ >>= _) s).engine = _
          obtain ⟨hresult, hafter⟩ := executeAll_eq
            (s.engine.projectCommand env.sha256 actorId serverTimeMs command) s
          cases hdecision : (s.engine.runAll
              (s.engine.projectCommand env.sha256 actorId serverTimeMs command)).2 with
          | error error =>
              rw [hdecision] at hresult
              rw [after_bind_error hresult, hafter]
          | ok events =>
              rw [hdecision] at hresult
              rw [after_bind_ok hresult, hafter]
              exact idle_publishProjected _ _ _ _

variable [BlobStore B]

theorem engine_handleCommand (env : ServiceEnv) (actorId : ActorId) (command : ClientCommand)
    (serverTimeMs : Int64) (s : MessagingService S B) :
    ∃ commands, s.engine.Work env actorId serverTimeMs command commands ∧
      ((after (handleCommand env actorId serverTimeMs command) s).engine = s.engine ∨
        (after (handleCommand env actorId serverTimeMs command) s).engine =
          (s.engine.runAll commands).1) := by
  have hidle : ∀ m : ServiceM S B (List ServerEnvelope), Idle m →
      ∃ commands, s.engine.Work env actorId serverTimeMs command commands ∧
        ((after m s).engine = s.engine ∨ (after m s).engine = (s.engine.runAll commands).1) :=
    fun m hm ↦ ⟨_, .projected, .inl (hm s)⟩
  cases command
  case beginBlobUpload =>
    exact hidle _ (idle_bind (idle_withBlobStore _) fun _ ↦ idle_singleServiceEvent _ _ _)
  case appendBlobChunk =>
    refine hidle _ (idle_bind (idle_orThrow _ _) fun _ ↦ ?_)
    exact idle_bind (idle_withBlobStore _) fun _ ↦ idle_singleServiceEvent _ _ _
  case finishBlobUpload =>
    exact hidle _ (idle_bind (idle_withBlobStore _) fun _ ↦ idle_singleServiceEvent _ _ _)
  case deleteBlob =>
    exact hidle _ (idle_bind (idle_withBlobStore _) fun _ ↦ idle_singleServiceEvent _ _ _)
  case walletStatus => exact hidle _ (idle_get_bind fun _ ↦ idle_pure _)
  case sync cursor limit =>
    refine ⟨_, .delivered rfl, .inr ?_⟩
    have hread : ∀ u : Unit, Idle (do
        let service ← get
        orThrow id (service.syncResponse actorId cursor limit serverTimeMs) :
          ServiceM S B (List ServerEnvelope)) := fun _ ↦ idle_get_bind fun _ ↦ idle_orThrow _ _
    have hmark := engine_markDirectMessagesDelivered actorId serverTimeMs s
    rw [handleCommand]
    cases hresult : result (markDirectMessagesDelivered actorId serverTimeMs) s with
    | error error => rw [after_bind_error hresult, hmark]
    | ok u => rw [after_bind_ok hresult, hread u, hmark]
  case search => exact hidle _ (idle_get_bind fun _ ↦ idle_pure _)
  case listCommunityMembers => exact hidle _ (idle_get_bind fun _ ↦ idle_orThrow _ _)
  case listCommunityAuditLog => exact hidle _ (idle_get_bind fun _ ↦ idle_orThrow _ _)
  case startTyping => exact hidle _ (idle_typingEvent _ _ _ _)
  case stopTyping => exact hidle _ (idle_typingEvent _ _ _ _)
  all_goals exact ⟨_, .projected, engine_handleProjected env actorId _ serverTimeMs s⟩

theorem served_handle (env : ServiceEnv) (request : ClientEnvelope) (serverTimeMs : Int64)
    (s : MessagingService S B) :
    Served env request.context.actorId serverTimeMs request.command s.engine
      (after (handle env request serverTimeMs) s).engine := by
  by_cases hversion : request.protocolVersion ≠ protocolVersion
  · rw [handle, if_pos hversion]
    exact .refused
  · rw [handle, if_neg hversion, after_get_bind]
    cases hauthorized : s.engine.validateCommandAuthorization request.context.actorId
        request.command with
    | error e => exact .refused
    | ok u =>
        change Served _ _ _ _ _ (after (settleExpiredMessages _ _ >>= _) s).engine
        obtain ⟨hsettle, hok⟩ := engine_settleExpiredMessages request.context.actorId serverTimeMs s
        obtain ⟨front, back, hfront, hrun, -, -⟩ :=
          s.engine.runAll_front (expiredMessages s.engine serverTimeMs)
        cases hresult : result (settleExpiredMessages request.context.actorId serverTimeMs) s with
        | error e =>
            rw [after_bind_error hresult, hsettle, hrun]
            exact .settling front back hfront
        | ok u =>
            obtain ⟨events, hevents⟩ := hok u hresult
            rw [runAll_ok hevents] at hsettle
            rw [after_bind_ok hresult]
            obtain ⟨commands, hwork, hdone⟩ := engine_handleCommand env request.context.actorId
              request.command serverTimeMs
              (after (settleExpiredMessages request.context.actorId serverTimeMs) s)
            rw [hsettle] at hwork hdone
            rcases hdone with hsame | hran
            · rw [hsame]
              exact .working hauthorized hwork [] commands rfl trivial
            · rw [hran]
              obtain ⟨front', back', hcommands, hrun', haccepted, -⟩ :=
                (s.engine.settled serverTimeMs).runAll_front commands
              rw [show Runs.run next s.engine (expiredMessages s.engine serverTimeMs) =
                s.engine.settled serverTimeMs from rfl, hrun']
              exact .working hauthorized hwork front' back' hcommands haccepted

end MessagingService

end Fabushi.Messaging

/-!
## What an answered request has done

A request that is answered has passed the check of its version and its authorization,
its settlement went through, and every engine command it stands for was accepted,
unless it is answered from a message that is stored already.
-/

namespace Fabushi.Messaging

open Effects Result Std

variable {S B : Type}

namespace MessagingService

open MessagingState

variable [MessagingStateStore S] {env : ServiceEnv} {serverTimeMs : Int64}
  {out : List ServerEnvelope} {s : MessagingService S B}

theorem answered_handle [BlobStore B] {request : ClientEnvelope}
    (h : result (handle env request serverTimeMs) s = .ok out) :
    request.protocolVersion = protocolVersion ∧
      s.engine.validateCommandAuthorization request.context.actorId request.command = .ok () ∧
      ∃ s₁ : MessagingService S B, s₁.engine = s.engine.settled serverTimeMs ∧
        result (handleCommand env request.context.actorId serverTimeMs request.command) s₁ =
          .ok out ∧
        after (handle env request serverTimeMs) s =
          after (handleCommand env request.context.actorId serverTimeMs request.command) s₁ := by
  by_cases hversion : request.protocolVersion ≠ protocolVersion
  · rw [handle, if_pos hversion] at h
    cases h
  · rw [handle, if_neg hversion, result_get_bind] at h
    rw [handle, if_neg hversion, after_get_bind]
    refine ⟨not_not.mp hversion, ?_⟩
    cases hauthorized : s.engine.validateCommandAuthorization request.context.actorId
        request.command with
    | error e =>
        rw [hauthorized] at h
        cases h
    | ok u =>
        rw [hauthorized] at h
        refine ⟨rfl, ?_⟩
        change result (settleExpiredMessages _ _ >>= _) s = .ok out at h
        change ∃ s₁, _ ∧ _ ∧ after (settleExpiredMessages _ _ >>= _) s = _
        obtain ⟨hsettle, hok⟩ := engine_settleExpiredMessages request.context.actorId serverTimeMs s
        cases hresult : result (settleExpiredMessages request.context.actorId serverTimeMs) s with
        | error e =>
            rw [result_bind_error hresult] at h
            cases h
        | ok u =>
            obtain ⟨events, hevents⟩ := hok u hresult
            rw [runAll_ok hevents] at hsettle
            rw [result_bind_ok hresult] at h
            exact ⟨_, hsettle, h, after_bind_ok hresult⟩

variable (env) in
theorem handle_of_settled [BlobStore B] {request : ClientEnvelope}
    (hversion : request.protocolVersion = protocolVersion)
    (hauthorized : s.engine.validateCommandAuthorization request.context.actorId
      request.command = .ok ())
    (hsettled : expiredMessages s.engine serverTimeMs = []) :
    result (handle env request serverTimeMs) s =
        result (handleCommand env request.context.actorId serverTimeMs request.command) s ∧
      after (handle env request serverTimeMs) s =
        after (handleCommand env request.context.actorId serverTimeMs request.command) s := by
  have hsettle : result (settleExpiredMessages request.context.actorId serverTimeMs) s = .ok () ∧
      after (settleExpiredMessages request.context.actorId serverTimeMs) s = s := by
    rw [settleExpiredMessages, result_get_bind, after_get_bind]
    dsimp only
    rw [hsettled]
    exact ⟨rfl, rfl⟩
  rw [handle, if_neg (not_not.mpr hversion), result_get_bind, after_get_bind, hauthorized]
  change result (settleExpiredMessages _ _ >>= _) s = _ ∧
    after (settleExpiredMessages _ _ >>= _) s = _
  rw [result_bind_ok hsettle.1, after_bind_ok hsettle.1, hsettle.2]
  exact ⟨rfl, rfl⟩

theorem answered_projected {actorId : ActorId} {command : ClientCommand}
    (hreplay : s.idempotentSendReplay env actorId command serverTimeMs = .ok none)
    (h : result (handleProjected env actorId command serverTimeMs) s = .ok out) :
    ∃ events, (s.engine.runAll
        (s.engine.projectCommand env.sha256 actorId serverTimeMs command)).2 = .ok events ∧
      (after (handleProjected env actorId command serverTimeMs) s).engine =
        Runs.run MessagingState.next s.engine
          (s.engine.projectCommand env.sha256 actorId serverTimeMs command) := by
  rw [handleProjected, result_get_bind, hreplay] at h
  rw [handleProjected, after_get_bind, hreplay]
  change result (executeAll _ >>= _) s = .ok out at h
  change ∃ events, _ ∧ (after (executeAll _ >>= _) s).engine = _
  obtain ⟨hresult, hafter⟩ := executeAll_eq
    (s.engine.projectCommand env.sha256 actorId serverTimeMs command) s
  cases hdecision : (s.engine.runAll
      (s.engine.projectCommand env.sha256 actorId serverTimeMs command)).2 with
  | error error =>
      rw [hdecision] at hresult
      rw [result_bind_error hresult] at h
      cases h
  | ok events =>
      rw [hdecision] at hresult
      refine ⟨events, rfl, ?_⟩
      rw [after_bind_ok hresult, hafter, ← runAll_ok hdecision]
      exact idle_publishProjected _ _ _ _

end MessagingService

end Fabushi.Messaging
