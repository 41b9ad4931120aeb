import Fabushi.Library.Runs
import Fabushi.Messaging.Signaling

/-!
# Runs of call signaling

Whoever is in the room of a call has entered it by an invitation or an acceptance and has
not left it since. The newest connection of an actor is the one the hub sends to, as long
as no older connection of the actor comes to its end.
-/

namespace Fabushi.Messaging

open Result Std

section

/-! ## Rooms -/

variable {hub : SignalingHub} {callId : CallId} {actorId x : ActorId} {signal : CallSignal}

namespace SignalingHub

theorem mem_room :
    x ∈ hub.room callId ↔ ∃ room, hub.rooms[callId]? = some room ∧ x ∈ room := by
  unfold room
  cases hub.rooms[callId]? with
  | none => simp
  | some room => simp

theorem room_upsert (rooms : BTreeMap CallId (BTreeSet ActorId))
    (clients : BTreeMap ActorId ConnectionId) (other : CallId)
    (f : BTreeSet ActorId → BTreeSet ActorId) :
    (⟨clients, BTreeMap.upsert rooms other ∅ f⟩ : SignalingHub).room callId =
      if other = callId then f ((⟨clients, rooms⟩ : SignalingHub).room callId)
      else (⟨clients, rooms⟩ : SignalingHub).room callId := by
  unfold room
  dsimp only
  rw [BTreeMap.get_upsert]
  split
  · rename_i hcall
    rw [hcall]
    rfl
  · rfl

theorem mem_foldl_insert {participants : List ActorId} {set : BTreeSet ActorId} :
    x ∈ participants.foldl (fun set actorId ↦ set.insert actorId) set ↔
      x ∈ set ∨ x ∈ participants := by
  induction participants generalizing set with
  | nil => simp
  | cons participant participants ih =>
      rw [List.foldl_cons, ih, ExtTreeSet.mem_insert, Std.compare_eq_iff_eq, List.mem_cons,
        eq_comm (a := participant)]
      tauto

theorem mem_room_disconnect (h : x ∈ (hub.disconnect actorId).room callId) :
    x ≠ actorId ∧ x ∈ hub.room callId := by
  obtain ⟨members, hmembers, hx⟩ := mem_room.mp h
  simp only [disconnect, ExtTreeMap.getElem?_filterMap'] at hmembers
  obtain ⟨room, hroom, hkept⟩ := Option.bind_eq_some_iff.mp hmembers
  split at hkept
  · cases hkept
  · obtain rfl := Option.some.inj hkept
    rw [ExtTreeSet.mem_erase] at hx
    refine ⟨fun heq ↦ hx.1 (Std.compare_eq_iff_eq.mpr heq.symm), mem_room.mpr ⟨room, hroom, hx.2⟩⟩

theorem mem_room_foldl_disconnect {stale : List ActorId}
    (h : x ∈ (stale.foldl disconnect hub).room callId) : x ∈ hub.room callId := by
  induction stale generalizing hub with
  | nil => exact h
  | cons actorId stale ih => exact (mem_room_disconnect (ih h)).2

def Enters (actorId : ActorId) (signal : CallSignal) (callId : CallId) (x : ActorId) : Prop :=
  match signal with
  | .invite other _ _ sender participants =>
      sender = actorId ∧ other = callId ∧ (x = sender ∨ x ∈ participants)
  | .accept other declared => declared = actorId ∧ other = callId ∧ x = actorId
  | _ => False

def HangsUp (actorId : ActorId) (signal : CallSignal) (callId : CallId) (x : ActorId) : Prop :=
  match signal with
  | .hangup other declared _ => declared = actorId ∧ other = callId ∧ x = actorId
  | _ => False

theorem mem_room_enterInvited (hsender : signal.declared = actorId)
    (h : x ∈ (hub.enterInvited signal).room callId) :
    x ∈ hub.room callId ∨ Enters actorId signal callId x := by
  cases signal with
  | invite other conversationId kind sender participants =>
      rw [enterInvited, room_upsert] at h
      split at h
      · rename_i hcall
        rw [mem_foldl_insert, ExtTreeSet.mem_insert, Std.compare_eq_iff_eq] at h
        rcases h with (heq | hroom) | hnamed
        · exact Or.inr ⟨hsender, hcall, Or.inl heq.symm⟩
        · exact Or.inl hroom
        · exact Or.inr ⟨hsender, hcall, Or.inr hnamed⟩
      · exact Or.inl h
  | _ => exact Or.inl h

theorem mem_room_enterAccepting (hsender : signal.declared = actorId)
    (h : x ∈ (hub.enterAccepting actorId signal).room callId) :
    x ∈ hub.room callId ∨ Enters actorId signal callId x := by
  cases signal with
  | accept other declared =>
      rw [enterAccepting, room_upsert] at h
      split at h
      · rename_i hcall
        rw [ExtTreeSet.mem_insert, Std.compare_eq_iff_eq] at h
        rcases h with heq | hroom
        · exact Or.inr ⟨hsender, hcall, heq.symm⟩
        · exact Or.inl hroom
      · exact Or.inl h
  | _ => exact Or.inl h

theorem mem_room_leaveHangingUp (h : x ∈ (hub.leaveHangingUp actorId signal).room callId) :
    x ∈ hub.room callId ∧ ¬ HangsUp actorId signal callId x := by
  cases signal with
  | hangup other declared reason =>
      unfold leaveHangingUp at h
      dsimp only at h
      split at h
      · rename_i room hroom
        obtain ⟨members, hmembers, hx⟩ := mem_room.mp h
        by_cases hcall : other = callId
        · split at hmembers
          · rw [hcall, BTreeMap.get_erase, if_pos rfl] at hmembers
            cases hmembers
          · rw [hcall, BTreeMap.get_insert_self] at hmembers
            obtain rfl := Option.some.inj hmembers
            rw [ExtTreeSet.mem_erase, Ne, Std.compare_eq_iff_eq] at hx
            rw [hcall] at hroom
            exact ⟨mem_room.mpr ⟨room, hroom, hx.2⟩, fun hleaves ↦ hx.1 hleaves.2.2.symm⟩
        · refine ⟨mem_room.mpr ⟨members, ?_, hx⟩, fun hleaves ↦ hcall hleaves.2.1⟩
          split at hmembers
          · rwa [BTreeMap.get_erase, if_neg hcall] at hmembers
          · rwa [BTreeMap.get_insert_ne _ _ hcall] at hmembers
      · rename_i hnone
        refine ⟨h, ?_⟩
        rintro ⟨-, rfl, -⟩
        obtain ⟨members, hmembers, -⟩ := mem_room.mp h
        rw [hnone] at hmembers
        cases hmembers
  | _ => exact ⟨h, fun hleaves ↦ hleaves⟩

theorem route_ok {receiving : ConnectionId → Bool} {routed : Routed}
    (h : hub.route receiving actorId signal = .ok routed) :
    let entered := hub.enterInvited signal
    let accepting := entered.enterAccepting actorId signal
    signal.declared = actorId ∧
      (∃ stale : List ActorId, routed.hub =
          (stale.foldl disconnect accepting).leaveHangingUp actorId signal ∧
        ∀ target ∈ stale, ∃ sender, accepting.clients[target]? = some sender ∧
          receiving sender = false) ∧
      ∀ target sender, (target, sender) ∈ routed.delivered ↔
        target ∈ entered.targets actorId signal ∧ accepting.clients[target]? = some sender ∧
          receiving sender = true := by
  obtain ⟨_, hsender, h⟩ := bind_eq_ok.mp h
  obtain rfl := Except.ok.inj h
  refine ⟨ensure_eq_ok.mp hsender, ⟨_, rfl, ?_⟩, ?_⟩
  · intro target htarget
    have hstale := (List.mem_filter.mp htarget).2
    rw [Option.any_eq_true] at hstale
    obtain ⟨⟨sender, received⟩, hsenderOf, hnot⟩ := hstale
    obtain ⟨sender', hclient, hpair⟩ := Option.map_eq_some_iff.mp hsenderOf
    obtain ⟨rfl, rfl⟩ := Prod.mk.inj hpair
    exact ⟨sender', hclient, by simpa using hnot⟩
  · intro target sender
    rw [List.mem_filterMap]
    constructor
    · rintro ⟨target', htarget, hsent⟩
      split at hsent
      · rename_i sender' hsenderOf
        obtain ⟨rfl, rfl⟩ := Prod.mk.inj (Option.some.inj hsent)
        obtain ⟨sender'', hclient, hpair⟩ := Option.map_eq_some_iff.mp hsenderOf
        obtain ⟨rfl, hreceiving⟩ := Prod.mk.inj hpair
        exact ⟨htarget, hclient, hreceiving⟩
      · cases hsent
    · rintro ⟨htarget, hclient, hreceiving⟩
      refine ⟨target, htarget, ?_⟩
      rw [senderOf, hclient, Option.map_some, hreceiving]

theorem mem_room_route {receiving : ConnectionId → Bool} {routed : Routed}
    (h : hub.route receiving actorId signal = .ok routed) (hx : x ∈ routed.hub.room callId) :
    (x ∈ hub.room callId ∨ Enters actorId signal callId x) ∧
      ¬ HangsUp actorId signal callId x := by
  obtain ⟨hsender, ⟨stale, hhub, -⟩, -⟩ := route_ok h
  rw [hhub] at hx
  obtain ⟨hstayed, hleaves⟩ := mem_room_leaveHangingUp hx
  refine ⟨?_, hleaves⟩
  rcases mem_room_enterAccepting hsender (mem_room_foldl_disconnect hstayed) with hentered | haccepts
  · exact mem_room_enterInvited hsender hentered
  · exact Or.inr haccepts

theorem route_error {receiving : ConnectionId → Bool} {error : SignalingError}
    (h : hub.route receiving actorId signal = .error error) : ¬ signal.declared = actorId := by
  rcases bind_eq_error.mp h with hsender | ⟨_, -, h⟩
  · exact (ensure_eq_error.mp hsender).1
  · cases h

end SignalingHub

/-- The calls of the hub; `receiving` says which channels still have their other end. -/
inductive HubCall where
  | connect (actorId : ActorId) (sender : ConnectionId)
  | disconnect (actorId : ActorId)
  | route (actorId : ActorId) (signal : CallSignal) (receiving : ConnectionId → Bool)

namespace HubCall

def perform (hub : SignalingHub) : HubCall → SignalingHub
  | .connect actorId sender => hub.connect actorId sender
  | .disconnect actorId => hub.disconnect actorId
  | .route actorId signal receiving =>
      match hub.route receiving actorId signal with
      | .ok routed => routed.hub
      | .error _ => hub

def Enters (call : HubCall) (callId : CallId) (x : ActorId) : Prop :=
  match call with
  | .route actorId signal _ => SignalingHub.Enters actorId signal callId x
  | _ => False

def Leaves (call : HubCall) (callId : CallId) (x : ActorId) : Prop :=
  match call with
  | .route actorId signal _ => SignalingHub.HangsUp actorId signal callId x
  | .disconnect actorId => x = actorId
  | .connect _ _ => False

theorem mem_room_perform {call : HubCall} (hx : x ∈ (call.perform hub).room callId) :
    (x ∈ hub.room callId ∨ call.Enters callId x) ∧ ¬ call.Leaves callId x := by
  cases call with
  | connect actorId sender => exact ⟨Or.inl hx, fun hleaves ↦ hleaves⟩
  | disconnect actorId =>
      obtain ⟨hne, hroom⟩ := SignalingHub.mem_room_disconnect hx
      exact ⟨Or.inl hroom, hne⟩
  | route actorId signal receiving =>
      rw [perform] at hx
      split at hx
      · rename_i routed hroute
        exact SignalingHub.mem_room_route hroute hx
      · rename_i e hroute
        refine ⟨Or.inl hx, fun hleaves ↦ SignalingHub.route_error hroute ?_⟩
        cases signal with
        | hangup other declared reason => exact hleaves.1
        | _ => cases hleaves

theorem entered_of_mem_room {past : List HubCall}
    (hx : x ∈ (Runs.run perform hub past).room callId) (hempty : x ∉ hub.room callId) :
    ∃ front call rest, past = front ++ call :: rest ∧ call.Enters callId x ∧
      ∀ later ∈ rest, ¬ later.Leaves callId x := by
  induction past using List.reverseRecOn with
  | nil => exact absurd hx hempty
  | append_singleton past call ih =>
      rw [Runs.run_append] at hx
      obtain ⟨hstep, hleaves⟩ := mem_room_perform hx
      rcases hstep with hroom | henters
      · obtain ⟨front, entering, rest, rfl, henters, hstays⟩ := ih hroom
        refine ⟨front, entering, rest ++ [call], by simp, henters, ?_⟩
        intro later hlater
        rcases List.mem_append.mp hlater with hlater | hlater
        · exact hstays later hlater
        · rwa [List.mem_singleton.mp hlater]
      · exact ⟨past, call, [], rfl, henters, by simp⟩

end HubCall

def CallSignal.isBroadcast : CallSignal → Bool
  | .invite _ _ _ _ _ => false
  | .sdpOffer _ _ _ _ => false
  | .sdpAnswer _ _ _ _ => false
  | .iceCandidate _ _ target _ _ _ => target.isNone
  | _ => true

theorem mem_room_of_mem_targets (hbroadcast : signal.isBroadcast = true)
    (h : x ∈ (hub.enterInvited signal).targets actorId signal) :
    x ∈ hub.room signal.callId := by
  have hothers : ∀ {callId : CallId}, x ∈ hub.others actorId callId → x ∈ hub.room callId := by
    intro callId hmem
    exact ExtTreeSet.mem_toList.mp (List.mem_filter.mp hmem).1
  cases signal with
  | invite callId conversationId kind sender participants => cases hbroadcast
  | sdpOffer callId sender target sdp => cases hbroadcast
  | sdpAnswer callId sender target sdp => cases hbroadcast
  | iceCandidate callId sender target candidate sdpMid sdpMlineIndex =>
      cases target with
      | none => exact hothers h
      | some target => cases hbroadcast
  | _ => exact hothers h

/-- Whoever receives a broadcast of a call has, before it, invited to the call, accepted it
or been invited to it by anybody, and has neither hung up nor been disconnected since. -/
theorem broadcast_received_by_entered {past : List HubCall} {receiving : ConnectionId → Bool}
    {routed : SignalingHub.Routed} {connection : ConnectionId}
    (hroute : (Runs.run HubCall.perform {} past).route receiving actorId signal = .ok routed)
    (hbroadcast : signal.isBroadcast = true) (hreceives : (x, connection) ∈ routed.delivered) :
    ∃ front call rest, past = front ++ call :: rest ∧ call.Enters signal.callId x ∧
      ∀ later ∈ rest, ¬ later.Leaves signal.callId x := by
  obtain ⟨-, -, hdelivered⟩ := SignalingHub.route_ok hroute
  have htarget := ((hdelivered x connection).mp hreceives).1
  apply HubCall.entered_of_mem_room (mem_room_of_mem_targets hbroadcast htarget)
  intro hempty
  obtain ⟨room, hroom, -⟩ := SignalingHub.mem_room.mp hempty
  simp at hroom

/-- Whom a closed call admits: its opener, and whoever is invited by one of them. -/
def admission (callId : CallId) (admitted : List ActorId) (call : HubCall) : List ActorId :=
  match call with
  | .route actorId (.invite other _ _ sender participants) _ =>
      if sender = actorId ∧ other = callId ∧ (admitted = [] ∨ sender ∈ admitted) then
        admitted ++ sender :: participants
      else admitted
  | _ => admitted

/-- After these calls every broadcast reaches only whom the call admits. -/
def Closed (past : List HubCall) : Prop :=
  ∀ actorId signal receiving routed x connection,
    (Runs.run HubCall.perform {} past).route receiving actorId signal = .ok routed →
      signal.isBroadcast = true → (x, connection) ∈ routed.delivered →
        x ∈ past.foldl (admission signal.callId) []

end

namespace Lobby

def host : ActorId := ⟨"host"⟩
def guest : ActorId := ⟨"guest"⟩
def stranger : ActorId := ⟨"stranger"⟩
def callId : CallId := ⟨"call"⟩

def invitation (sender : ActorId) (participants : List ActorId) : HubCall :=
  .route sender (.invite callId ⟨"chat"⟩ .voice sender participants) fun _ ↦ true

def invited : List HubCall :=
  [.connect host 0, .connect guest 1, .connect stranger 2, invitation host [guest]]

def speaks : CallSignal :=
  .speaking callId host true

def delivered (past : List HubCall) : Option (List (ActorId × ConnectionId)) :=
  ((Runs.run HubCall.perform {} past).route (fun _ ↦ true) host speaks).toOption.map
    SignalingHub.Routed.delivered

theorem exists_routed {past : List HubCall} (targets : List (ActorId × ConnectionId))
    (h : delivered past = some targets) :
    ∃ routed, (Runs.run HubCall.perform {} past).route (fun _ ↦ true) host speaks = .ok routed ∧
      routed.delivered = targets := by
  unfold delivered at h
  cases hroute : (Runs.run HubCall.perform {} past).route (fun _ ↦ true) host speaks with
  | error e =>
      rw [hroute] at h
      cases h
  | ok routed =>
      rw [hroute] at h
      exact ⟨routed, rfl, Option.some.inj h⟩

theorem not_closed {past : List HubCall} (targets : List (ActorId × ConnectionId)) (x : ActorId)
    (connection : ConnectionId) (h : delivered past = some targets)
    (hreceives : (x, connection) ∈ targets) (hforeign : x ∉ past.foldl (admission callId) []) :
    ¬ Closed past := by
  intro hclosed
  obtain ⟨routed, hroute, rfl⟩ := exists_routed targets h
  exact hforeign (hclosed host speaks _ routed x connection hroute rfl hreceives)

end Lobby

theorem broadcast_received_by_guest :
    ∃ front call rest, Lobby.invited = front ++ call :: rest ∧
      call.Enters Lobby.callId Lobby.guest ∧
        ∀ later ∈ rest, ¬ later.Leaves Lobby.callId Lobby.guest := by
  have hdelivered : Lobby.delivered Lobby.invited = some [(Lobby.guest, 1)] := by decide +kernel
  obtain ⟨routed, hroute, hreceived⟩ := Lobby.exists_routed _ hdelivered
  have hreceives : (Lobby.guest, 1) ∈ routed.delivered := by
    rw [hreceived]
    exact List.mem_singleton_self _
  exact broadcast_received_by_entered hroute rfl hreceives

/-- A stranger enters a room by an acceptance, and by an invitation of nobody. -/
theorem strangers_enter :
    ¬ Closed (Lobby.invited ++ [.route Lobby.stranger (.accept Lobby.callId Lobby.stranger)
        fun _ ↦ true]) ∧
      ¬ Closed (Lobby.invited ++ [Lobby.invitation Lobby.stranger []]) := by
  constructor
  · apply Lobby.not_closed [(Lobby.guest, 1), (Lobby.stranger, 2)] Lobby.stranger 2
    · decide +kernel
    · decide
    · decide
  · apply Lobby.not_closed [(Lobby.guest, 1), (Lobby.stranger, 2)] Lobby.stranger 2
    · decide +kernel
    · decide
    · decide

section

/-! ## Connections -/

/-- Neither its loop nor its writer thread has ended. -/
def Connection.Open (connection : Connection) : Prop :=
  connection.reading = true ∧ connection.receiving = true

structure Newest (connections : List Connection) (c : ConnectionId) (connection : Connection) :
    Prop where
  registered : connections[c]? = some connection
  last : connection.actorId ∉ (connections.map Connection.actorId).drop (c + 1)

variable {connections : List Connection} {c : ConnectionId} {connection : Connection}

theorem newest_append {actorId : ActorId} {reading receiving : Bool} :
    Newest (connections ++ [⟨actorId, reading, receiving⟩]) c connection ↔
      (c = connections.length ∧ connection = ⟨actorId, reading, receiving⟩) ∨
        Newest connections c connection ∧ connection.actorId ≠ actorId := by
  have hlast : c + 1 ≤ connections.length →
      ((connections ++ [(⟨actorId, reading, receiving⟩ : Connection)]).map
        Connection.actorId).drop (c + 1) =
        (connections.map Connection.actorId).drop (c + 1) ++ [actorId] := by
    intro hle
    rw [List.map_append, List.drop_append_of_le_length (by rwa [List.length_map])]
    rfl
  constructor
  · intro h
    have hlt := (List.getElem?_eq_some_iff.mp h.registered).1
    rw [List.length_append, List.length_singleton] at hlt
    have hregistered := h.registered
    by_cases hc : c < connections.length
    · have habsent := h.last
      rw [hlast hc, List.mem_append, List.mem_singleton, not_or] at habsent
      rw [List.getElem?_append_left hc] at hregistered
      exact Or.inr ⟨⟨hregistered, habsent.1⟩, habsent.2⟩
    · obtain rfl : c = connections.length :=
        Nat.le_antisymm (Nat.le_of_lt_succ hlt) (Nat.le_of_not_lt hc)
      rw [List.getElem?_concat_length] at hregistered
      exact Or.inl ⟨rfl, (Option.some.inj hregistered).symm⟩
  · rintro (⟨rfl, rfl⟩ | ⟨h, hne⟩)
    · refine ⟨List.getElem?_concat_length, ?_⟩
      rw [List.drop_of_length_le (by simp)]
      exact List.not_mem_nil
    · have hc := (List.getElem?_eq_some_iff.mp h.registered).1
      refine ⟨by rw [List.getElem?_append_left hc, h.registered], ?_⟩
      rw [hlast hc, List.mem_append, List.mem_singleton, not_or]
      exact ⟨h.last, hne⟩

theorem newest_modify {i : ConnectionId} (f : Connection → Connection)
    (hf : ∀ connection, (f connection).actorId = connection.actorId) :
    Newest (connections.modify i f) c connection ↔
      ∃ old, Newest connections c old ∧ connection = if i = c then f old else old := by
  have hactors : (connections.modify i f).map Connection.actorId =
      connections.map Connection.actorId := by
    apply List.ext_getElem?
    intro j
    rw [List.getElem?_map, List.getElem?_map, List.getElem?_modify]
    cases connections[j]? with
    | none => rfl
    | some old =>
        by_cases hij : i = j
        · simp [hij, hf]
        · simp [hij]
  have hactor : ∀ old, (if i = c then f old else old).actorId = old.actorId := by
    intro old
    split
    · exact hf old
    · rfl
  constructor
  · intro h
    have hregistered := h.registered
    rw [List.getElem?_modify] at hregistered
    obtain ⟨old, hold, rfl⟩ := Option.map_eq_some_iff.mp hregistered
    have hlast := h.last
    rw [hactors, hactor] at hlast
    exact ⟨old, ⟨hold, hlast⟩, rfl⟩
  · rintro ⟨old, h, rfl⟩
    refine ⟨?_, ?_⟩
    · rw [List.getElem?_modify, h.registered]
      rfl
    · rw [hactors, hactor]
      exact h.last

namespace SignalingHub

theorem clients_enterInvited (hub : SignalingHub) (signal : CallSignal) :
    (hub.enterInvited signal).clients = hub.clients := by
  cases signal <;> rfl

theorem clients_enterAccepting (hub : SignalingHub) (actorId : ActorId) (signal : CallSignal) :
    (hub.enterAccepting actorId signal).clients = hub.clients := by
  cases signal <;> rfl

theorem clients_leaveHangingUp (hub : SignalingHub) (actorId : ActorId) (signal : CallSignal) :
    (hub.leaveHangingUp actorId signal).clients = hub.clients := by
  cases signal with
  | hangup callId declared reason =>
      unfold leaveHangingUp
      dsimp only
      split
      · split <;> rfl
      · rfl
  | _ => rfl

theorem get_clients_foldl_disconnect {hub : SignalingHub} {stale : List ActorId} {x : ActorId}
    (h : x ∉ stale) : (stale.foldl disconnect hub).clients[x]? = hub.clients[x]? := by
  induction stale generalizing hub with
  | nil => rfl
  | cons actorId stale ih =>
      rw [List.mem_cons, not_or] at h
      rw [List.foldl_cons, ih h.2, disconnect, BTreeMap.get_erase, if_neg (Ne.symm h.1)]

theorem get_clients_route {hub : SignalingHub} {receiving : ConnectionId → Bool}
    {actorId x : ActorId} {signal : CallSignal} {routed : Routed} {sender : ConnectionId}
    (h : hub.route receiving actorId signal = .ok routed) (hclient : hub.clients[x]? = some sender)
    (hreceiving : receiving sender = true) : routed.hub.clients[x]? = some sender := by
  obtain ⟨-, ⟨stale, hhub, hstale⟩, -⟩ := route_ok h
  have hkept : x ∉ stale := by
    intro hx
    obtain ⟨sender', hclient', hnot⟩ := hstale x hx
    rw [clients_enterAccepting, clients_enterInvited, hclient] at hclient'
    rw [← Option.some.inj hclient', hreceiving] at hnot
    cases hnot
  rw [hhub, clients_leaveHangingUp, get_clients_foldl_disconnect hkept, clients_enterAccepting,
    clients_enterInvited, hclient]

end SignalingHub

namespace SignalingServer

variable {server : SignalingServer}

def Registered (server : SignalingServer) : Prop :=
  ∀ c connection, Newest server.connections c connection → connection.Open →
    server.hub.clients[connection.actorId]? = some c

/-- And every signal that is routed to an actor is put into the channel of this connection. -/
def Safe (server : SignalingServer) : Prop :=
  server.Registered ∧
    ∀ c connection, Newest server.connections c connection → connection.Open →
      ∀ origin reader signal, server.reader origin = some reader →
        signal.declared = reader.actorId →
          connection.actorId ∈ (server.hub.enterInvited signal).targets reader.actorId signal →
            ∃ sent, (server.next (.signal origin signal)).sent = server.sent ++ sent ∧
              (c, signal) ∈ sent

/-- The step does not end the input of a connection while a newer one of the same actor,
its newest, is open. -/
def KeepsNewer (server : SignalingServer) (step : SignalingStep) : Prop :=
  match step with
  | .inputEnds ending =>
      ∀ reader, server.reader ending = some reader →
        ∀ c connection, Newest server.connections c connection → connection.Open →
          connection.actorId = reader.actorId → c = ending
  | _ => True

theorem receiving_of_newest (h : Newest server.connections c connection)
    (hopen : connection.Open) : server.receiving c = true := by
  rw [receiving, h.registered]
  exact hopen.2

theorem Registered.safe (h : server.Registered) : server.Safe := by
  refine ⟨h, ?_⟩
  intro c connection hnewest hopen origin reader signal hreader hsender htarget
  have hroute : ∃ routed, server.hub.route server.receiving reader.actorId signal = .ok routed :=
    ⟨_, bind_eq_ok.mpr ⟨(), ensure_eq_ok.mpr hsender, rfl⟩⟩
  obtain ⟨routed, hroute⟩ := hroute
  obtain ⟨-, -, hdelivered⟩ := SignalingHub.route_ok hroute
  refine ⟨routed.delivered.map fun target ↦ (target.2, signal), ?_, ?_⟩
  · simp only [next, hreader, hroute]
  · refine List.mem_map.mpr ⟨(connection.actorId, c), ?_, rfl⟩
    rw [hdelivered, SignalingHub.clients_enterAccepting, SignalingHub.clients_enterInvited]
    exact ⟨htarget, h c connection hnewest hopen, receiving_of_newest hnewest hopen⟩

theorem registered_next_iff (h : server.Registered) (step : SignalingStep) :
    (server.next step).Registered ↔ server.KeepsNewer step := by
  cases step with
  | hello actorId =>
      refine iff_of_true ?_ trivial
      intro c connection hnewest hopen
      rcases newest_append.mp hnewest with ⟨rfl, rfl⟩ | ⟨hold, hne⟩
      · exact BTreeMap.get_insert_self _ _ _
      · exact (BTreeMap.get_insert_ne _ _ hne.symm).trans (h c connection hold hopen)
  | signal origin signal =>
      refine iff_of_true ?_ trivial
      simp only [next]
      split
      · exact h
      · split
        · exact h
        · rename_i routed hroute
          intro c connection hnewest hopen
          exact SignalingHub.get_clients_route hroute (h c connection hnewest hopen)
            (receiving_of_newest hnewest hopen)
  | writerEnds ending =>
      refine iff_of_true ?_ trivial
      intro c connection hnewest hopen
      obtain ⟨old, hold, rfl⟩ := (newest_modify Connection.endReceiving fun _ ↦ rfl).mp hnewest
      split at hopen
      · cases hopen.2
      · rename_i hne
        rw [if_neg hne]
        exact h c old hold hopen
  | inputEnds ending =>
      simp only [next]
      split
      · rename_i hnone
        refine iff_of_true h ?_
        intro reader hreader
        rw [hnone] at hreader
        cases hreader
      · rename_i reader hreader
        constructor
        · intro hnext reader' hreader' c connection hnewest hopen hactor
          obtain rfl := Option.some.inj (hreader.symm.trans hreader')
          by_contra hne
          have hstill := (newest_modify Connection.endReading fun _ ↦ rfl).mpr
            ⟨connection, hnewest, (if_neg (Ne.symm hne)).symm⟩
          have hclient := hnext c connection hstill hopen
          rw [SignalingHub.disconnect, BTreeMap.get_erase, if_pos hactor.symm] at hclient
          cases hclient
        · intro hkeeps c connection hnewest hopen
          obtain ⟨old, hold, rfl⟩ :=
            (newest_modify Connection.endReading fun _ ↦ rfl).mp hnewest
          split at hopen
          · cases hopen.1
          · rename_i hne
            rw [if_neg hne, SignalingHub.disconnect, BTreeMap.get_erase, if_neg]
            · exact h c old hold hopen
            · intro hactor
              exact hne (hkeeps reader hreader c old hold hopen hactor.symm).symm
  | fails ending =>
      refine iff_of_true ?_ trivial
      intro c connection hnewest hopen
      obtain ⟨old, hold, rfl⟩ := (newest_modify Connection.endReading fun _ ↦ rfl).mp hnewest
      split at hopen
      · cases hopen.1
      · rename_i hne
        rw [if_neg hne]
        exact h c old hold hopen

theorem registered_start : Registered {} := by
  intro c connection hnewest
  have hnone := hnewest.registered
  simp at hnone

theorem safe_iff_registered : server.Safe ↔ server.Registered :=
  ⟨And.left, Registered.safe⟩

end SignalingServer

/-- An invariant that exactly the steps with a property preserve holds at every moment of a
run exactly if all its steps have the property. -/
theorem forall_front_iff_along {σ ι : Type} {step : σ → ι → σ} {I : σ → Prop} {P : σ → ι → Prop}
    (hstep : ∀ s i, I s → (I (step s i) ↔ P s i)) {s : σ} (hs : I s) (inputs : List ι) :
    (∀ front back, inputs = front ++ back → I (Runs.run step s front)) ↔
      Runs.Along step P s inputs := by
  constructor
  · intro h
    induction inputs generalizing s with
    | nil => trivial
    | cons i inputs ih =>
        have hfirst : I (step s i) := h [i] inputs rfl
        refine ⟨(hstep s i hs).mp hfirst, ih hfirst ?_⟩
        rintro front back rfl
        exact h (i :: front) back rfl
  · rintro h front back rfl
    exact Runs.invariant_along (fun s i hI hP ↦ (hstep s i hI).mpr hP) hs
      ((Runs.along_append step s front back).mp h).1

/-- In a run of the server, the newest connection of every actor is registered and served
at every moment exactly if no input of an older connection ends while it is open. -/
theorem reconnect_safe_iff (steps : List SignalingStep) :
    (∀ front back, steps = front ++ back → (Runs.run SignalingServer.next {} front).Safe) ↔
      Runs.Along SignalingServer.next SignalingServer.KeepsNewer {} steps := by
  have hstep : ∀ (server : SignalingServer) (step : SignalingStep), server.Registered →
      ((server.next step).Registered ↔ server.KeepsNewer step) :=
    fun _ step h ↦ SignalingServer.registered_next_iff h step
  simp only [SignalingServer.safe_iff_registered]
  exact forall_front_iff_along hstep SignalingServer.registered_start steps

/-- The host connects again, and then the input of the first connection ends. -/
theorem reconnect_lost :
    ¬ ∀ steps : List SignalingStep, (Runs.run SignalingServer.next {} steps).Safe := by
  intro h
  have hregistered := (h [.hello Lobby.host, .hello Lobby.host, .inputEnds 0]).1
  have hclient := hregistered 1 ⟨Lobby.host, true, true⟩ ⟨rfl, by decide⟩ ⟨rfl, rfl⟩
  revert hclient
  decide +kernel

end

end Fabushi.Messaging
