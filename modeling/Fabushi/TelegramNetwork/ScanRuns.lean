import Fabushi.Telegram.Envelopes
import Fabushi.TelegramNetwork.MessageTrees

/-!
# What a scan returns and collects

A scan of the layout of a tree takes the events of the tree one after the other. It ends with all
of them taken, and then returns the last outcome of a service message that is one, or at the
first event that is refused: an id that the guard does not accept, or a service message that
cannot be read or is an error notification.
-/

namespace Fabushi.TelegramNetwork

open Effects Radix Result Telegram Wire

section Runs

variable (clock : ℕ → Option Int64) (requestMessageId : Int64)

def serviceOutcome (responseMessageId : Int64) (body : List UInt8) :
    Except NetworkError (RpcOutcome × Option Int64) := do
  let constructor ← readU32At body 0
  readService requestMessageId responseMessageId constructor body

/-! ## One event -/

/-- An event is taken: its id is accepted and collected if its sequence number is odd, or its
salt is set. -/
inductive Step : Event → ScanState → ScanState → Prop
  | message {messageId now : Int64} {sequenceNumber : Int32} {s : ScanState}
      {messageIds : MessageIdGuard} (hclock : clock s.clockReadings = some now)
      (hguard : s.messageIds.validateServerMessageId messageId now = .ok messageIds) :
      Step (.message messageId sequenceNumber) s
        { s with
          clockReadings := s.clockReadings + 1
          messageIds
          acknowledgements := s.acknowledgements ++
            if sequenceNumber.toInt % 2 = 1 then [messageId] else [] }
  | service {responseMessageId : Int64} {body : List UInt8} {s : ScanState}
      {outcome : RpcOutcome} {serverSalt : Option Int64}
      (h : serviceOutcome requestMessageId responseMessageId body = .ok (outcome, serverSalt)) :
      Step (.service responseMessageId body) s
        { s with serverSalt := serverSalt.getD s.serverSalt }

inductive Refused : Event → ScanState → NetworkError → Prop
  | clock {messageId : Int64} {sequenceNumber : Int32} {s : ScanState}
      (h : clock s.clockReadings = none) :
      Refused (.message messageId sequenceNumber) s .invalidSystemClock
  | messageId {messageId now : Int64} {sequenceNumber : Int32} {s : ScanState}
      {error : MessageIdError} (hclock : clock s.clockReadings = some now)
      (h : s.messageIds.validateServerMessageId messageId now = .error error) :
      Refused (.message messageId sequenceNumber) s (.messageId error)
  | service {responseMessageId : Int64} {body : List UInt8} {s : ScanState}
      {error : NetworkError}
      (h : serviceOutcome requestMessageId responseMessageId body = .error error) :
      Refused (.service responseMessageId body) s error

inductive Steps : List Event → ScanState → ScanState → Prop
  | nil (s : ScanState) : Steps [] s s
  | cons {event : Event} {events : List Event} {s t u : ScanState}
      (hstep : Step clock requestMessageId event s t) (hsteps : Steps events t u) :
      Steps (event :: events) s u

def eventOutcome : Event → RpcOutcome
  | .message _ _ => .proceed
  | .service responseMessageId body =>
      match serviceOutcome requestMessageId responseMessageId body with
      | .ok (outcome, _) => outcome
      | .error _ => .proceed

def answers (events : List Event) : List RpcOutcome :=
  (events.map (eventOutcome requestMessageId)).filter (· ≠ .proceed)

def contentIds (events : List Event) : List Int64 :=
  events.flatMap fun event ↦
    match event with
    | .message messageId sequenceNumber =>
        if sequenceNumber.toInt % 2 = 1 then [messageId] else []
    | .service _ _ => []

section Message

variable {messageId : Int64} {sequenceNumber : Int32} {s : ScanState}
  (f : PUnit → Eff NetworkError ScanState RpcOutcome)

theorem result_receiveMessage_of_none (hclock : clock s.clockReadings = none) :
    result (receiveMessage clock messageId sequenceNumber >>= f) s =
      .error .invalidSystemClock := by
  simp only [receiveMessage, unixTime, bind_assoc]
  change result (orThrow id (okOr (clock s.clockReadings) _) >>= _) _ = _
  rw [hclock]
  rfl

theorem result_receiveMessage_of_error {now : Int64} {error : MessageIdError}
    (hclock : clock s.clockReadings = some now)
    (hguard : s.messageIds.validateServerMessageId messageId now = .error error) :
    result (receiveMessage clock messageId sequenceNumber >>= f) s =
      .error (.messageId error) := by
  simp only [receiveMessage, unixTime, bind_assoc]
  change result (orThrow id (okOr (clock s.clockReadings) _) >>= _) _ = _
  rw [hclock]
  change result (orThrow NetworkError.messageId
    (s.messageIds.validateServerMessageId messageId now) >>= _) _ = _
  rw [hguard]
  rfl

theorem run_receiveMessage {now : Int64} {messageIds : MessageIdGuard}
    (hclock : clock s.clockReadings = some now)
    (hguard : s.messageIds.validateServerMessageId messageId now = .ok messageIds) :
    (receiveMessage clock messageId sequenceNumber >>= f).run.run s =
      (f ⟨⟩).run.run
        { s with
          clockReadings := s.clockReadings + 1
          messageIds
          acknowledgements := s.acknowledgements ++
            if sequenceNumber.toInt % 2 = 1 then [messageId] else [] } := by
  simp only [receiveMessage, unixTime, bind_assoc]
  change (orThrow id (okOr (clock s.clockReadings) _) >>= _).run.run _ = _
  rw [hclock]
  change (orThrow NetworkError.messageId
    (s.messageIds.validateServerMessageId messageId now) >>= _).run.run _ = _
  rw [hguard]
  split_ifs
  · rfl
  · rw [List.append_nil]
    rfl

end Message

theorem scanLeaf_eq (responseMessageId : Int64) (body : List UInt8) :
    scanLeaf requestMessageId responseMessageId body = (do
      let (outcome, serverSalt) ←
        orThrow id (serviceOutcome requestMessageId responseMessageId body)
      modify fun state ↦ { state with serverSalt := serverSalt.getD state.serverSalt }
      return outcome) := by
  rw [scanLeaf, serviceOutcome]
  cases readU32At body 0 with
  | error error => rfl
  | ok constructor => rfl

theorem yields_visit (outcome : RpcOutcome) (event : Event) (s : ScanState) :
    (∃ t, Step clock requestMessageId event s t ∧
      Yields (visit clock requestMessageId outcome event) s
        (.ok (outcome.followed (eventOutcome requestMessageId event))) t) ∨
      ∃ error, Refused clock requestMessageId event s error ∧
        result (visit clock requestMessageId outcome event) s = .error error := by
  cases event with
  | message messageId sequenceNumber =>
      cases hclock : clock s.clockReadings with
      | none =>
          exact Or.inr ⟨_, .clock hclock, result_receiveMessage_of_none clock _ hclock⟩
      | some now =>
          cases hguard : s.messageIds.validateServerMessageId messageId now with
          | error error =>
              exact Or.inr ⟨_, .messageId hclock hguard,
                result_receiveMessage_of_error clock _ hclock hguard⟩
          | ok messageIds =>
              exact Or.inl ⟨_, .message hclock hguard,
                run_receiveMessage clock _ hclock hguard⟩
  | service responseMessageId body =>
      rw [visit, scanLeaf_eq]
      cases houtcome : serviceOutcome requestMessageId responseMessageId body with
      | error error => exact Or.inr ⟨_, .service houtcome, rfl⟩
      | ok taken =>
          obtain ⟨inner, serverSalt⟩ := taken
          refine Or.inl ⟨_, .service houtcome, ?_⟩
          rw [eventOutcome, houtcome]
          rfl

/-! ## All events -/

theorem answers_cons (event : Event) (events : List Event) (outcome : RpcOutcome) :
    (answers requestMessageId (event :: events)).getLastD outcome =
      (answers requestMessageId events).getLastD
        (outcome.followed (eventOutcome requestMessageId event)) := by
  unfold answers RpcOutcome.followed
  rw [List.map_cons]
  split_ifs with hproceed
  · rw [List.filter_cons_of_neg (by simp [hproceed])]
  · rw [List.filter_cons_of_pos (by simp [hproceed]), List.getLastD_cons]

theorem yields_foldlM_visit (events : List Event) (outcome : RpcOutcome) (s : ScanState) :
    (∃ t, Steps clock requestMessageId events s t ∧
      Yields (events.foldlM (visit clock requestMessageId) outcome) s
        (.ok ((answers requestMessageId events).getLastD outcome)) t) ∨
      ∃ done event rest t error, events = done ++ event :: rest ∧
        Steps clock requestMessageId done s t ∧ Refused clock requestMessageId event t error ∧
          result (events.foldlM (visit clock requestMessageId) outcome) s = .error error := by
  induction events generalizing outcome s with
  | nil => exact Or.inl ⟨s, .nil s, rfl⟩
  | cons event events ih =>
      rw [List.foldlM_cons]
      rcases yields_visit clock requestMessageId outcome event s with
        ⟨t, hstep, hvisit⟩ | ⟨error, hrefused, hvisit⟩
      · obtain ⟨hresult, hafter⟩ := hvisit.eq
        rcases ih (outcome.followed (eventOutcome requestMessageId event)) t with
          ⟨u, hsteps, hrun⟩ | ⟨done, refused, rest, u, error, hsplit, hsteps, hrefused, hrun⟩
        · refine Or.inl ⟨u, .cons hstep hsteps, ?_⟩
          rw [answers_cons]
          exact (yields_bind_of_ok hvisit _ _).mpr hrun
        · refine Or.inr ⟨event :: done, refused, rest, u, error, ?_, .cons hstep hsteps, hrefused,
            ?_⟩
          · rw [hsplit, List.cons_append]
          · rw [result_bind_ok hresult, hafter, hrun]
      · exact Or.inr ⟨[], event, events, s, error, rfl, .nil s, hrefused,
          result_bind_error hvisit⟩

theorem Steps.acknowledgements_eq {events : List Event} {s t : ScanState}
    (h : Steps clock requestMessageId events s t) :
    t.acknowledgements = s.acknowledgements ++ contentIds events := by
  induction h with
  | nil s => exact (List.append_nil _).symm
  | @cons event events s t u hstep _ ih =>
      rw [ih]
      cases hstep with
      | message hclock hguard => exact List.append_assoc _ _ _
      | service houtcome => rfl

theorem serviceOutcome_rpcResult (responseMessageId : Int64) {resultBody : List UInt8}
    (h : resultBody ≠ []) :
    serviceOutcome requestMessageId responseMessageId
      (leU32 rpcResultConstructor ++ (leI64 requestMessageId ++ resultBody)) =
        .ok (.result { requestMessageId, responseMessageId, body := resultBody }, none) := by
  set body := leU32 rpcResultConstructor ++ (leI64 requestMessageId ++ resultBody) with hbody
  obtain ⟨hconstructor, hrest⟩ := slice_of_drop (Nat.zero_le body.length) hbody
  rw [length_leU32, Nat.zero_add] at hconstructor hrest
  obtain ⟨hrequest, hrest⟩ := slice_of_drop (le_length_of_slice hconstructor) hrest
  rw [length_leI64] at hrequest hrest
  have hslice : slice body 12 body.length = some resultBody := by
    rw [slice, if_pos le_rfl, List.take_length]
    exact congrArg some hrest
  refine bind_eq_ok.mpr ⟨_, readU32At_iff.mpr hconstructor, ?_⟩
  rw [readService, if_pos rfl]
  refine bind_eq_ok.mpr ⟨_, readI64At_iff.mpr hrequest, ?_⟩
  rw [if_neg (not_not.mpr rfl), hslice, Option.filter_some, if_pos (decide_eq_true h)]
  rfl

end Runs

/-! ## Padding -/

theorem encryptedPaddingLength_admitted (bodyLength : ℕ) :
    minPaddingLength ≤ encryptedPaddingLength bodyLength ∧
      encryptedPaddingLength bodyLength ≤ maxPaddingLength ∧
        (internalHeaderLength + bodyLength + encryptedPaddingLength bodyLength) %
          aesBlockLength = 0 := by
  unfold encryptedPaddingLength nextMultipleOf minPaddingLength maxPaddingLength
    internalHeaderLength aesBlockLength
  dsimp only
  split_ifs <;> omega

/-! ## Scans of trees -/

/-- A scan takes the events of a layout in order, collects the ids with an odd sequence number
and returns the last answer to the request, or it stops with the error of the first event that
is refused. The result of the request is an answer; what is no layout is refused; and the
padding of a message is one that may be encrypted. -/
structure ScansTrees (clock : ℕ → Option Int64) (requestMessageId : Int64) : Prop where
  visits (tree : MessageTree) (responseMessageId : Int64) (s : ScanState) (h : tree.Encodable) :
    (∃ t, Steps clock requestMessageId (tree.events responseMessageId) s t ∧
      t.acknowledgements = s.acknowledgements ++ contentIds (tree.events responseMessageId) ∧
        Yields (scanRpcBody clock requestMessageId responseMessageId tree.encode) s
          (.ok ((answers requestMessageId (tree.events responseMessageId)).getLastD .proceed))
          t) ∨
      ∃ done event rest t error, tree.events responseMessageId = done ++ event :: rest ∧
        Steps clock requestMessageId done s t ∧ Refused clock requestMessageId event t error ∧
          result (scanRpcBody clock requestMessageId responseMessageId tree.encode) s =
            .error error
  answer (responseMessageId : Int64) (resultBody : List UInt8) (h : resultBody ≠ []) :
    serviceOutcome requestMessageId responseMessageId
      (leU32 rpcResultConstructor ++ (leI64 requestMessageId ++ resultBody)) =
        .ok (.result { requestMessageId, responseMessageId, body := resultBody }, none)
  tiles (responseMessageId : Int64) (body : List UInt8) (s : ScanState)
    (h : ∀ tree : MessageTree, tree.Encodable → tree.encode ≠ body) :
    ∃ error, result (scanRpcBody clock requestMessageId responseMessageId body) s = .error error
  padding (bodyLength : ℕ) :
    minPaddingLength ≤ encryptedPaddingLength bodyLength ∧
      encryptedPaddingLength bodyLength ≤ maxPaddingLength ∧
        (internalHeaderLength + bodyLength + encryptedPaddingLength bodyLength) %
          aesBlockLength = 0

theorem scansTrees (clock : ℕ → Option Int64) (requestMessageId : Int64) :
    ScansTrees clock requestMessageId where
  visits := by
    intro tree responseMessageId s h
    rw [scanRpcBody_encode clock requestMessageId h]
    rcases yields_foldlM_visit clock requestMessageId (tree.events responseMessageId) .proceed s
      with ⟨t, hsteps, hrun⟩ | hstopped
    · exact Or.inl ⟨t, hsteps, hsteps.acknowledgements_eq, hrun⟩
    · exact Or.inr hstopped
  answer := by
    intro responseMessageId resultBody h
    exact serviceOutcome_rpcResult requestMessageId responseMessageId h
  tiles := by
    intro responseMessageId body s h
    cases hresult : result (scanRpcBody clock requestMessageId responseMessageId body) s with
    | error error => exact ⟨error, rfl⟩
    | ok outcome =>
        obtain ⟨tree, htree, hencode⟩ := exists_tree_of_scan hresult
        exact absurd hencode (h tree htree)
  padding := encryptedPaddingLength_admitted

def unreachedAnswer : MessageTree :=
  .container [(2, 1, .service (leU32 rpcResultConstructor ++ (leI64 4 ++ [9])))]

/-- The result is not returned, since the guard refuses the id of its message. -/
theorem scan_stops_at_refused_id :
    ¬ ∀ (clock : ℕ → Option Int64) (requestMessageId responseMessageId : Int64)
      (tree : MessageTree) (s : ScanState), tree.Encodable →
        (answers requestMessageId (tree.events responseMessageId)).length ≤ 1 →
          ∃ t, Yields (scanRpcBody clock requestMessageId responseMessageId tree.encode) s
            (.ok ((answers requestMessageId (tree.events responseMessageId)).getLastD .proceed))
            t := by
  intro h
  have hconstructor : readU32At (leU32 rpcResultConstructor ++ (leI64 4 ++ [9])) 0 =
      .ok rpcResultConstructor := by
    decide +kernel
  have hservice : MessageTree.Encodable
      (.service (leU32 rpcResultConstructor ++ (leI64 4 ++ [9]))) :=
    .service hconstructor (by decide)
  have htree : unreachedAnswer.Encodable := by
    refine .container (by decide) ?_ ?_
    · intro message hmessage
      rw [List.mem_singleton.mp hmessage]
      decide +kernel
    · intro message hmessage
      rw [List.mem_singleton.mp hmessage]
      exact hservice
  obtain ⟨t, ht⟩ := h (fun _ ↦ some 0) 4 1 unreachedAnswer ⟨0, MessageIdGuard.new 1, [], 0⟩ htree
    (by decide +kernel)
  rw [scanRpcBody_encode _ _ htree] at ht
  have hresult : (result ((unreachedAnswer.events 1).foldlM (visit (fun _ ↦ some 0) 4) .proceed)
      ⟨0, MessageIdGuard.new 1, [], 0⟩).isOk = false := by
    decide +kernel
  rw [ht.eq.1] at hresult
  cases hresult

end Fabushi.TelegramNetwork
