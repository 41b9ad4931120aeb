import Fabushi.Library.Joined
import Fabushi.Messaging.Identity

/-!
# Call signaling

The hub knows one sender for each actor and the actors in the room of each call. An
invitation and an acceptance enter a room, a hangup and the end of a connection leave it.
The server registers every connection under its actor, and takes the actor out of the hub
when the input of a connection ends.
-/

namespace Fabushi.Messaging

open Result Std

structure CallId where
  value : String
  deriving DecidableEq, Repr

instance : Ord CallId := ⟨fun a b ↦ compare a.value b.value⟩

instance : TransOrd CallId where
  eq_swap := OrientedOrd.eq_swap (α := String)
  isLE_trans := TransOrd.isLE_trans (α := String)

instance : LawfulEqOrd CallId where
  compare_self := ReflOrd.compare_self (α := String)
  eq_of_compare {a b} h := by
    cases a
    cases b
    exact congrArg _ (LawfulEqOrd.eq_of_compare (α := String) h)

inductive CallKind where
  | voice | video | groupVoice | groupVideo | liveStream
  deriving DecidableEq

inductive CallSignal where
  | invite (callId : CallId) (conversationId : ConversationId) (kind : CallKind)
      (sender : ActorId) (participants : List ActorId)
  | ringing (callId : CallId) (actorId : ActorId)
  | accept (callId : CallId) (actorId : ActorId)
  | decline (callId : CallId) (actorId : ActorId) (reason : String)
  | sdpOffer (callId : CallId) (sender target : ActorId) (sdp : String)
  | sdpAnswer (callId : CallId) (sender target : ActorId) (sdp : String)
  | iceCandidate (callId : CallId) (sender : ActorId) (target : Option ActorId) (candidate : String)
      (sdpMid : Option String) (sdpMlineIndex : Option UInt16)
  | mediaState (callId : CallId) (actorId : ActorId) (muted videoEnabled screenSharing : Bool)
  | speaking (callId : CallId) (actorId : ActorId) (active : Bool)
  | hangup (callId : CallId) (actorId : ActorId) (reason : String)
  deriving DecidableEq

inductive SignalingError where
  | senderMismatch (authenticated declared : ActorId)
  deriving DecidableEq

namespace CallSignal

def callId : CallSignal → CallId
  | .invite callId _ _ _ _ => callId
  | .ringing callId _ => callId
  | .accept callId _ => callId
  | .decline callId _ _ => callId
  | .sdpOffer callId _ _ _ => callId
  | .sdpAnswer callId _ _ _ => callId
  | .iceCandidate callId _ _ _ _ _ => callId
  | .mediaState callId _ _ _ _ => callId
  | .speaking callId _ _ => callId
  | .hangup callId _ _ => callId

def declared : CallSignal → ActorId
  | .invite _ _ _ sender _ => sender
  | .ringing _ actorId => actorId
  | .accept _ actorId => actorId
  | .decline _ actorId _ => actorId
  | .sdpOffer _ sender _ _ => sender
  | .sdpAnswer _ sender _ _ => sender
  | .iceCandidate _ sender _ _ _ _ => sender
  | .mediaState _ actorId _ _ _ => actorId
  | .speaking _ actorId _ => actorId
  | .hangup _ actorId _ => actorId

end CallSignal

def validateSender (actorId : ActorId) (signal : CallSignal) : Except SignalingError Unit :=
  ensure (signal.declared = actorId) (.senderMismatch actorId signal.declared)

/-! ## The hub -/

/-- The position of a connection among all that were ever made; it stands for the channel
between the hub and the connection. -/
abbrev ConnectionId := ℕ

structure SignalingHub where
  clients : BTreeMap ActorId ConnectionId := ∅
  rooms : BTreeMap CallId (BTreeSet ActorId) := ∅

namespace SignalingHub

def connect (hub : SignalingHub) (actorId : ActorId) (sender : ConnectionId) : SignalingHub :=
  { hub with clients := hub.clients.insert actorId sender }

def disconnect (hub : SignalingHub) (actorId : ActorId) : SignalingHub where
  clients := hub.clients.erase actorId
  rooms := hub.rooms.filterMap fun _ members ↦
    let members := members.erase actorId
    if members.isEmpty then none else some members

def room (hub : SignalingHub) (callId : CallId) : BTreeSet ActorId :=
  hub.rooms[callId]?.getD ∅

def enterInvited (hub : SignalingHub) (signal : CallSignal) : SignalingHub :=
  match signal with
  | .invite callId _ _ sender participants =>
      { hub with
        rooms := BTreeMap.upsert hub.rooms callId ∅ fun room ↦
          participants.foldl (fun room actorId ↦ room.insert actorId) (room.insert sender) }
  | _ => hub

def enterAccepting (hub : SignalingHub) (actorId : ActorId) (signal : CallSignal) :
    SignalingHub :=
  match signal with
  | .accept callId _ =>
      { hub with rooms := BTreeMap.upsert hub.rooms callId ∅ fun room ↦ room.insert actorId }
  | _ => hub

def others (hub : SignalingHub) (actorId : ActorId) (callId : CallId) : List ActorId :=
  (hub.room callId).toList.filter fun member ↦ member ≠ actorId

def targets (hub : SignalingHub) (actorId : ActorId) (signal : CallSignal) : List ActorId :=
  match signal with
  | .invite _ _ _ sender participants =>
      (participants.foldl (fun set actorId ↦ set.insert actorId)
        (∅ : BTreeSet ActorId)).toList.filter fun participant ↦ participant ≠ sender
  | .sdpOffer _ _ target _ => [target]
  | .sdpAnswer _ _ target _ => [target]
  | .iceCandidate _ _ (some target) _ _ _ => [target]
  | .iceCandidate callId _ none _ _ _ => hub.others actorId callId
  | .ringing callId _ => hub.others actorId callId
  | .accept callId _ => hub.others actorId callId
  | .decline callId _ _ => hub.others actorId callId
  | .mediaState callId _ _ _ _ => hub.others actorId callId
  | .speaking callId _ _ => hub.others actorId callId
  | .hangup callId _ _ => hub.others actorId callId

def leaveHangingUp (hub : SignalingHub) (actorId : ActorId) (signal : CallSignal) :
    SignalingHub :=
  match signal with
  | .hangup callId _ _ =>
      match hub.rooms[callId]? with
      | some room =>
          let room := room.erase actorId
          if room.size < 2 then { hub with rooms := hub.rooms.erase callId }
          else { hub with rooms := hub.rooms.insert callId room }
      | none => hub
  | _ => hub

def senderOf (hub : SignalingHub) (receiving : ConnectionId → Bool) (target : ActorId) :
    Option (ConnectionId × Bool) :=
  hub.clients[target]?.map fun sender ↦ (sender, receiving sender)

/-- The hub after a signal, and where the signal was delivered; the source returns how often. -/
structure Routed where
  hub : SignalingHub
  delivered : List (ActorId × ConnectionId)

def route (receiving : ConnectionId → Bool) (hub : SignalingHub) (authenticatedActorId : ActorId)
    (signal : CallSignal) : Except SignalingError Routed := do
  validateSender authenticatedActorId signal
  let hub := hub.enterInvited signal
  let targets := hub.targets authenticatedActorId signal
  let hub := hub.enterAccepting authenticatedActorId signal
  let delivered := targets.filterMap fun target ↦
    match hub.senderOf receiving target with
    | some (sender, true) => some (target, sender)
    | _ => none
  let stale := targets.filter fun target ↦
    (hub.senderOf receiving target).any fun sender ↦ !sender.2
  let hub := stale.foldl disconnect hub
  return { hub := hub.leaveHangingUp authenticatedActorId signal, delivered }

end SignalingHub

/-! ## The server -/

/-- One `handle_connection` behind its hello: `reading` until it returns, `receiving` until
its writer thread ends. -/
structure Connection where
  actorId : ActorId
  reading : Bool
  receiving : Bool
  deriving DecidableEq

namespace Connection

def endReading (connection : Connection) : Connection :=
  { connection with reading := false }

def endReceiving (connection : Connection) : Connection :=
  { connection with receiving := false }

end Connection

/-- `sent` is everything that was ever put into a channel. -/
structure SignalingServer where
  hub : SignalingHub := {}
  connections : List Connection := []
  sent : List (ConnectionId × CallSignal) := []

/-- What threads do next: an authorized hello, a frame with a signal, the end of a writer
thread, the end of the input, or an early return with an error. -/
inductive SignalingStep where
  | hello (actorId : ActorId)
  | signal (connection : ConnectionId) (signal : CallSignal)
  | writerEnds (connection : ConnectionId)
  | inputEnds (connection : ConnectionId)
  | fails (connection : ConnectionId)

namespace SignalingServer

def receiving (server : SignalingServer) (connection : ConnectionId) : Bool :=
  server.connections[connection]?.any Connection.receiving

def reader (server : SignalingServer) (connection : ConnectionId) : Option Connection :=
  server.connections[connection]?.filter Connection.reading

def next (server : SignalingServer) : SignalingStep → SignalingServer
  | .hello actorId =>
      { server with
        hub := server.hub.connect actorId server.connections.length
        connections := server.connections ++ [⟨actorId, true, true⟩] }
  | .signal connection signal =>
      match server.reader connection with
      | none => server
      | some reader =>
          match server.hub.route server.receiving reader.actorId signal with
          | .error _ => server
          | .ok routed =>
              { server with
                hub := routed.hub
                sent := server.sent ++ routed.delivered.map fun target ↦ (target.2, signal) }
  | .writerEnds connection =>
      { server with
        connections := server.connections.modify connection Connection.endReceiving }
  | .inputEnds connection =>
      match server.reader connection with
      | none => server
      | some reader =>
          { server with
            hub := server.hub.disconnect reader.actorId
            connections := server.connections.modify connection Connection.endReading }
  | .fails connection =>
      { server with
        connections := server.connections.modify connection Connection.endReading }

end SignalingServer

/-! ## Frames

The reader of a connection takes its bytes from a buffered stream, a buffer at a time, and
gives out lines of a bounded length.
-/

inductive CallSignalingServerError where
  | frameTooLarge (maxFrameBytes : ℕ)
  deriving DecidableEq

/-- What one filling of the buffer holds; an empty buffer is the end of the stream. -/
abbrev FilledBuffer := { bytes : List UInt8 // bytes ≠ [] }

abbrev LineResult := Except CallSignalingServerError (Option (List UInt8))

namespace FrameReader

open Splits

def newline : UInt8 := 10

def carriageReturn : UInt8 := 13

def content (stream : List FilledBuffer) : List UInt8 :=
  stream.flatMap Subtype.val

def consume (amount : ℕ) : List FilledBuffer → List FilledBuffer
  | [] => []
  | buffer :: rest =>
      if h : amount < buffer.val.length then
        ⟨buffer.val.drop amount, by simpa using h⟩ :: rest
      else rest

def position (buffer : FilledBuffer) : Option ℕ :=
  buffer.val.findIdx? (· = newline)

def drainUntilNewline : List FilledBuffer → List FilledBuffer
  | [] => []
  | buffer :: rest =>
      match position buffer with
      | some position => consume (position + 1) (buffer :: rest)
      | none => drainUntilNewline rest

def stripReturn (line : List UInt8) : List UInt8 :=
  if line.getLast? = some carriageReturn then line.dropLast else line

/-- The loop of `read_line_limited`, with the bytes it has put into `output`. -/
def readLine (maxFrameBytes : ℕ) (output : List UInt8) :
    List FilledBuffer → LineResult × List FilledBuffer
  | [] => (.ok (if output.isEmpty then none else some output), [])
  | buffer :: rest =>
      match position buffer with
      | some position =>
          let after := consume (position + 1) (buffer :: rest)
          if maxFrameBytes < output.length + position then
            (.error (.frameTooLarge maxFrameBytes), after)
          else (.ok (some (stripReturn (output ++ buffer.val.take position))), after)
      | none =>
          if maxFrameBytes < output.length + buffer.val.length then
            (.error (.frameTooLarge maxFrameBytes), drainUntilNewline rest)
          else readLine maxFrameBytes (output ++ buffer.val) rest

def readLineLimited (maxFrameBytes : ℕ) (stream : List FilledBuffer) :
    LineResult × List FilledBuffer :=
  readLine maxFrameBytes [] stream

/-! ### One line -/

variable {maxFrameBytes : ℕ} {buffer : FilledBuffer} {rest stream : List FilledBuffer}
  {output line tail : List UInt8}

theorem content_cons (buffer : FilledBuffer) (rest : List FilledBuffer) :
    content (buffer :: rest) = buffer.val ++ content rest :=
  List.flatMap_cons ..

theorem position_eq_none (h : newline ∉ buffer.val) : position buffer = none := by
  rw [position, List.findIdx?_eq_none_iff]
  intro byte hbyte
  have hne : byte ≠ newline := fun heq ↦ h (heq ▸ hbyte)
  simpa using hne

theorem position_eq_some (hbuffer : buffer.val = line ++ newline :: tail) (hline : newline ∉ line) :
    position buffer = some line.length := by
  have hnone : line.findIdx? (· = newline) = none := by
    rw [List.findIdx?_eq_none_iff]
    intro byte hbyte
    have hne : byte ≠ newline := fun heq ↦ hline (heq ▸ hbyte)
    simpa using hne
  rw [position, hbuffer, List.findIdx?_append, hnone, List.findIdx?_cons]
  simp

theorem content_consume (hbuffer : buffer.val = line ++ newline :: tail) :
    content (consume (line.length + 1) (buffer :: rest)) = tail ++ content rest := by
  have hdrop : buffer.val.drop (line.length + 1) = tail := by
    rw [hbuffer, List.append_cons, List.drop_left' (by simp)]
  rw [consume]
  split_ifs with hlength
  · rw [content_cons]
    exact congrArg (· ++ content rest) hdrop
  · rw [← hdrop, List.drop_eq_nil_of_le (Nat.not_lt.mp hlength), List.nil_append]

theorem newline_cases (h : once newline (content (buffer :: rest)) = some (line, tail)) :
    (position buffer = some line.length ∧ buffer.val.take line.length = line ∧
      content (consume (line.length + 1) (buffer :: rest)) = tail) ∨
    (position buffer = none ∧ ∃ more, line = buffer.val ++ more ∧
      once newline (content rest) = some (more, tail)) := by
  obtain ⟨hcontent, hline⟩ := once_eq_some.mp h
  rw [content_cons] at hcontent
  by_cases hmem : newline ∈ buffer.val
  · obtain ⟨front, back, hbuffer, hfront⟩ := List.eq_append_cons_of_mem hmem
    have hfirst : once newline (content (buffer :: rest)) =
        some (front, back ++ content rest) := by
      rw [once_eq_some, content_cons, hbuffer]
      exact ⟨by simp, hfront⟩
    obtain ⟨rfl, rfl⟩ := Prod.mk.inj (Option.some.inj (hfirst.symm.trans h))
    refine Or.inl ⟨position_eq_some hbuffer hfront, ?_, content_consume hbuffer⟩
    rw [hbuffer, List.take_left]
  · rcases List.append_eq_append_iff.mp hcontent with ⟨more, hsplit, hrest⟩ | ⟨more, hsplit, htail⟩
    · refine Or.inr ⟨position_eq_none hmem, more, hsplit, once_eq_some.mpr ⟨hrest, ?_⟩⟩
      exact fun hmore ↦ hline (hsplit ▸ List.mem_append_right _ hmore)
    · cases more with
      | nil =>
          rw [List.append_nil] at hsplit
          refine Or.inr ⟨position_eq_none hmem, [], by rw [hsplit, List.append_nil], ?_⟩
          exact once_eq_some.mpr ⟨htail.symm, List.not_mem_nil⟩
      | cons byte more =>
          obtain ⟨rfl, -⟩ := List.cons.inj htail
          exact absurd (hsplit ▸ by simp) hmem

theorem once_drainUntilNewline (h : once newline (content stream) = some (line, tail)) :
    content (drainUntilNewline stream) = tail := by
  induction stream generalizing line with
  | nil => cases h
  | cons buffer rest ih =>
      rw [drainUntilNewline]
      rcases newline_cases h with ⟨hposition, -, hcontent⟩ | ⟨hposition, more, -, hrest⟩
      · rw [hposition]
        exact hcontent
      · rw [hposition]
        exact ih hrest

theorem drainUntilNewline_eq_nil (h : newline ∉ content stream) : drainUntilNewline stream = [] := by
  induction stream with
  | nil => rfl
  | cons buffer rest ih =>
      rw [content_cons, List.mem_append, not_or] at h
      rw [drainUntilNewline, position_eq_none h.1]
      exact ih h.2

def terminated (maxFrameBytes : ℕ) (line : List UInt8) : LineResult :=
  if maxFrameBytes < line.length then .error (.frameTooLarge maxFrameBytes)
  else .ok (some (stripReturn line))

def unterminated (maxFrameBytes : ℕ) (line : List UInt8) : LineResult :=
  if maxFrameBytes < line.length then .error (.frameTooLarge maxFrameBytes)
  else .ok (if line.isEmpty then none else some line)

theorem readLine_terminated (h : once newline (content stream) = some (line, tail))
    (houtput : output.length ≤ maxFrameBytes) :
    (readLine maxFrameBytes output stream).1 = terminated maxFrameBytes (output ++ line) ∧
      content (readLine maxFrameBytes output stream).2 = tail := by
  induction stream generalizing output line with
  | nil => cases h
  | cons buffer rest ih =>
      rw [readLine, terminated, List.length_append]
      rcases newline_cases h with ⟨hposition, htake, hcontent⟩ | ⟨hposition, more, rfl, hrest⟩
      · rw [hposition]
        dsimp only
        rw [htake]
        split_ifs <;> exact ⟨rfl, hcontent⟩
      · rw [hposition]
        dsimp only
        split_ifs with hlarge hline hline
        · exact ⟨rfl, once_drainUntilNewline hrest⟩
        · rw [List.length_append] at hline
          omega
        all_goals
          have hmore := @ih (output ++ buffer.val) _ hrest (by rw [List.length_append]; omega)
          rw [List.append_assoc, terminated, List.length_append] at hmore
        · rwa [if_pos hline] at hmore
        · rwa [if_neg hline] at hmore

theorem readLine_unterminated (h : newline ∉ content stream)
    (houtput : output.length ≤ maxFrameBytes) :
    readLine maxFrameBytes output stream =
      (unterminated maxFrameBytes (output ++ content stream), []) := by
  induction stream generalizing output with
  | nil =>
      have hcontent : content [] = [] := rfl
      rw [readLine, hcontent, List.append_nil, unterminated, if_neg (Nat.not_lt.mpr houtput)]
  | cons buffer rest ih =>
      rw [content_cons] at h ⊢
      rw [List.mem_append, not_or] at h
      rw [readLine, position_eq_none h.1]
      dsimp only
      split_ifs with hlarge
      · rw [unterminated, if_pos, drainUntilNewline_eq_nil h.2]
        rw [List.length_append, List.length_append]
        omega
      · rw [ih h.2 (by rw [List.length_append]; omega), List.append_assoc]

/-! ### All lines -/

theorem readLineLimited_cases (maxFrameBytes : ℕ) (stream : List FilledBuffer) :
    (∃ line tail, once newline (content stream) = some (line, tail) ∧
      (readLineLimited maxFrameBytes stream).1 = terminated maxFrameBytes line ∧
        content (readLineLimited maxFrameBytes stream).2 = tail) ∨
    (newline ∉ content stream ∧ readLineLimited maxFrameBytes stream =
      (unterminated maxFrameBytes (content stream), [])) := by
  by_cases hmem : newline ∈ content stream
  · obtain ⟨line, tail, hcontent, hline⟩ := List.eq_append_cons_of_mem hmem
    have honce := once_eq_some.mpr ⟨hcontent, hline⟩
    exact Or.inl ⟨line, tail, honce, readLine_terminated honce (Nat.zero_le _)⟩
  · exact Or.inr ⟨hmem, readLine_unterminated hmem (Nat.zero_le _)⟩

theorem readLineLimited_shorter (h : (readLineLimited maxFrameBytes stream).1 ≠ .ok none) :
    (content (readLineLimited maxFrameBytes stream).2).length < (content stream).length := by
  rcases readLineLimited_cases maxFrameBytes stream with ⟨line, tail, honce, -, hrest⟩ | ⟨-, heq⟩
  · have hlength := length_of_once honce
    rw [hrest]
    omega
  · rw [heq] at h ⊢
    cases hcontent : content stream with
    | nil => exact absurd (by rw [hcontent]; rfl) h
    | cons byte bytes => exact Nat.zero_lt_succ _

def results (maxFrameBytes : ℕ) (stream : List FilledBuffer) : List LineResult :=
  if _h : (readLineLimited maxFrameBytes stream).1 = .ok none then [.ok none]
  else (readLineLimited maxFrameBytes stream).1 ::
    results maxFrameBytes (readLineLimited maxFrameBytes stream).2
termination_by (content stream).length
decreasing_by exact readLineLimited_shorter _h

def splitResults (maxFrameBytes : ℕ) (bytes : List UInt8) : List LineResult :=
  let lines := bytes.splitOn newline
  lines.dropLast.map (terminated maxFrameBytes) ++
    match lines.getLastD [] with
    | [] => [.ok none]
    | last => [unterminated maxFrameBytes last, .ok none]

theorem terminated_ne_none (maxFrameBytes : ℕ) (line : List UInt8) :
    terminated maxFrameBytes line ≠ .ok none := by
  unfold terminated
  split_ifs <;> simp

theorem splitResults_once {bytes : List UInt8} (h : once newline bytes = some (line, tail)) :
    splitResults maxFrameBytes bytes =
      terminated maxFrameBytes line :: splitResults maxFrameBytes tail := by
  obtain ⟨rfl, hline⟩ := once_eq_some.mp h
  have hsplit := List.splitOn_append_cons_self_of_not_mem hline tail
  have hne := List.splitOn_ne_nil newline tail
  obtain ⟨first, lines, hlines⟩ := List.exists_cons_of_ne_nil hne
  rw [splitResults, splitResults, hsplit, hlines]
  rfl

theorem splitResults_last {bytes : List UInt8} (h : newline ∉ bytes) :
    splitResults maxFrameBytes bytes =
      if bytes = [] then [.ok none] else [unterminated maxFrameBytes bytes, .ok none] := by
  rw [splitResults, List.splitOn_eq_singleton h]
  cases bytes with
  | nil => rfl
  | cons byte bytes => rfl

theorem results_nil (maxFrameBytes : ℕ) : results maxFrameBytes [] = [.ok none] := by
  rw [results]
  exact dif_pos rfl

/-- The lines do not depend on how the stream is cut into buffers. Behind a line that is too
long the reader stands at the first byte after the next newline. -/
theorem results_eq_splitResults (maxFrameBytes : ℕ) (stream : List FilledBuffer) :
    results maxFrameBytes stream = splitResults maxFrameBytes (content stream) ∧
      ((readLineLimited maxFrameBytes stream).1 = .error (.frameTooLarge maxFrameBytes) →
        content (readLineLimited maxFrameBytes stream).2 =
          ((content stream).dropWhile (· ≠ newline)).tail) := by
  constructor
  · induction hlength : (content stream).length using Nat.strong_induction_on
      generalizing stream with
    | _ n ih =>
        subst hlength
        rw [results]
        rcases readLineLimited_cases maxFrameBytes stream with
          ⟨line, tail, honce, hfirst, hrest⟩ | ⟨hmem, hlast⟩
        · have hne := terminated_ne_none maxFrameBytes line
          have hshorter := length_of_once honce
          rw [dif_neg (hfirst ▸ hne), hfirst, splitResults_once honce,
            ih _ (by rw [hrest]; omega) _ rfl, hrest]
        · rw [hlast, splitResults_last hmem]
          cases hcontent : content stream with
          | nil => rfl
          | cons byte bytes =>
              have hne : unterminated maxFrameBytes (byte :: bytes) ≠ .ok none := by
                rw [unterminated, List.isEmpty_cons, if_neg Bool.false_ne_true]
                split_ifs <;> simp
              rw [dif_neg hne, if_neg (List.cons_ne_nil _ _), results_nil]
  · intro _
    rcases readLineLimited_cases maxFrameBytes stream with
      ⟨line, tail, honce, -, hrest⟩ | ⟨hmem, hlast⟩
    · obtain ⟨hcontent, hline⟩ := once_eq_some.mp honce
      have hpassed : ∀ byte ∈ line, decide (byte ≠ newline) = true :=
        fun byte hbyte ↦ decide_eq_true fun heq ↦ hline (heq ▸ hbyte)
      rw [hrest, hcontent, List.dropWhile_append_of_pos hpassed,
        List.dropWhile_cons_of_neg (by simp), List.tail_cons]
    · rw [hlast, List.dropWhile_eq_nil_iff.mpr]
      · rfl
      · intro byte hbyte
        exact decide_eq_true fun heq ↦ hmem (heq ▸ hbyte)

end FrameReader

end Fabushi.Messaging
