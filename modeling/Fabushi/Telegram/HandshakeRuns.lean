import Fabushi.Telegram.HandshakeBodies

/-!
# Runs of the key exchange

Every call either is refused and leaves the machine as it was, or takes it one step on.
What was accepted so far determines the machine, so a key is established at most once, at
the end of the whole sequence, and from the last value that the client has sent.
-/

namespace Fabushi.Telegram

open Effects Radix Result Transactions Wire

section

/-! ## Calls -/

inductive HandshakeCall where
  | begin (messageId : Int64)
  | receiveResPq (envelope : PlaintextEnvelope)
  | prepareReqDhParams (messageId : Int64) (dcId : Int32) (testEnvironment : Bool)
      (fillRandom : FillRandom)
  | receiveServerDh (envelope : PlaintextEnvelope) (clientMessageId : Int64)
      (fillRandom : FillRandom)
  | receiveDhGen (envelope : PlaintextEnvelope) (retryMessageId : Int64)
      (fillRandom : FillRandom)

inductive HandshakeAnswer where
  | request (envelope : PlaintextEnvelope)
  | resPq (response : ResPq)
  | dhGen (action : DhGenAction)

abbrev Accepted := HandshakeCall × HandshakeAnswer

variable (prims : Primitives)

def HandshakeCall.perform :
    HandshakeCall → Eff HandshakeError AuthKeyHandshake HandshakeAnswer
  | .begin messageId => .request <$> AuthKeyHandshake.begin messageId
  | .receiveResPq envelope => .resPq <$> AuthKeyHandshake.receiveResPq envelope
  | .prepareReqDhParams messageId dcId testEnvironment fillRandom =>
      .request <$> AuthKeyHandshake.prepareReqDhParamsWithRandom prims messageId dcId
        testEnvironment fillRandom
  | .receiveServerDh envelope clientMessageId fillRandom =>
      .request <$> AuthKeyHandshake.receiveServerDhWithRandom prims envelope clientMessageId
        fillRandom
  | .receiveDhGen envelope retryMessageId fillRandom =>
      .dhGen <$> AuthKeyHandshake.receiveDhGen prims envelope retryMessageId fillRandom

structure Progress where
  handshake : AuthKeyHandshake
  accepted : List Accepted

def Progress.start (nonce : Nonce) : Progress where
  handshake := AuthKeyHandshake.new nonce
  accepted := []

def Progress.next (progress : Progress) (call : HandshakeCall) : Progress where
  handshake := after (call.perform prims) progress.handshake
  accepted :=
    match result (call.perform prims) progress.handshake with
    | .ok answer => progress.accepted ++ [(call, answer)]
    | .error _ => progress.accepted

/-! ## What one call does -/

variable {prims} {s t : AuthKeyHandshake}

namespace AuthKeyHandshake

theorem yields_expectState_bind {α : Type} {state : AuthKeyHandshakeState} {reason : String}
    {f : Unit → Eff HandshakeError AuthKeyHandshake α} {a : α}
    (h : Yields (expectState state reason >>= f) s (.ok a) t) :
    s.state = state ∧ Yields (f ()) s (.ok a) t :=
  yields_ensure_bind_ok.mp h

theorem yields_expectData_bind {α β : Type} {data : AuthKeyHandshake → Option β}
    {f : β → Eff HandshakeError AuthKeyHandshake α} {a : α} :
    Yields (expectData data >>= f) s (.ok a) t ↔ ∃ b, data s = some b ∧ Yields (f b) s (.ok a) t := by
  constructor
  · intro h
    obtain ⟨b, hb, h⟩ := yields_orThrow_bind_ok.mp h
    exact ⟨b, okOr_eq_ok.mp hb, h⟩
  · rintro ⟨b, hb, h⟩
    have hfound : okOr (data s) HandshakeError.missingHandshakeData = .ok b := okOr_eq_ok.mpr hb
    exact yields_orThrow_bind_ok.mpr ⟨b, hfound, h⟩

theorem begin_ok {messageId : Int64} {envelope : PlaintextEnvelope}
    (h : Yields (begin messageId) s (.ok envelope) t) :
    s.state = .ready ∧ t = { s with state := .awaitingResPq } := by
  obtain ⟨hstate, h⟩ := yields_expectState_bind h
  rw [yields_get_bind] at h
  obtain ⟨body, -, h⟩ := yields_orThrow_bind_ok.mp h
  rw [yields_modify_bind, yields_pure] at h
  exact ⟨hstate, h.2⟩

theorem receiveResPq_ok {envelope : PlaintextEnvelope} {response : ResPq}
    (h : Yields (receiveResPq envelope) s (.ok response) t) :
    s.state = .awaitingResPq ∧ Opens envelope.body resPqConstructor s.nonce response.serverNonce ∧
      t = { s with
        serverNonce := some response.serverNonce
        state := .resPqReceived response } := by
  obtain ⟨hstate, h⟩ := yields_expectState_bind h
  rw [yields_get_bind] at h
  obtain ⟨response', hparsed, h⟩ := yields_orThrow_bind_ok.mp h
  obtain ⟨hnonce, h⟩ := yields_ensure_bind_ok.mp h
  obtain ⟨-, h⟩ := yields_ensure_bind_ok.mp h
  obtain ⟨-, h⟩ := yields_ensure_bind_ok.mp h
  rw [yields_modify_bind, yields_pure] at h
  obtain ⟨hresponse, rfl⟩ := h
  obtain rfl := Except.ok.inj hresponse
  have hopens := parseResPq_ok hparsed
  rw [hnonce] at hopens
  exact ⟨hstate, hopens, rfl⟩

theorem prepareReqDhParams_ok {messageId : Int64} {dcId : Int32} {testEnvironment : Bool}
    {fillRandom : FillRandom} {envelope : PlaintextEnvelope}
    (h : Yields (prepareReqDhParamsWithRandom prims messageId dcId testEnvironment fillRandom) s
      (.ok envelope) t) :
    ∃ response newNonce, s.state = .resPqReceived response ∧ fillRandom 0 32 = .ok newNonce ∧
      t = { s with newNonce := some newNonce, state := .awaitingServerDh } := by
  rw [prepareReqDhParamsWithRandom, yields_get_bind] at h
  split at h
  · rename_i response hstate
    obtain ⟨factors, -, h⟩ := yields_orThrow_bind_ok.mp h
    obtain ⟨key, -, h⟩ := yields_orThrow_bind_ok.mp h
    obtain ⟨fingerprint, -, h⟩ := yields_orThrow_bind_ok.mp h
    obtain ⟨-, h⟩ := yields_ensure_bind_ok.mp h
    obtain ⟨newNonce, hnewNonce, h⟩ := yields_orThrow_bind_ok.mp h
    obtain ⟨inner, -, h⟩ := yields_orThrow_bind_ok.mp h
    obtain ⟨encrypted, -, h⟩ := yields_orThrow_bind_ok.mp h
    obtain ⟨body, -, h⟩ := yields_orThrow_bind_ok.mp h
    rw [yields_modify_bind, yields_pure] at h
    exact ⟨response, newNonce, hstate, hnewNonce, h.2⟩
  · exact absurd h not_yields_throw_ok

theorem receiveServerDh_ok {envelope request : PlaintextEnvelope} {clientMessageId : Int64}
    {fillRandom : FillRandom}
    (h : Yields (receiveServerDhWithRandom prims envelope clientMessageId fillRandom) s
      (.ok request) t) :
    s.state = .awaitingServerDh ∧ ∃ newNonce serverNonce encryptedAnswer serverDh prepared,
      s.newNonce = some newNonce ∧ s.serverNonce = some serverNonce ∧
      parseServerDhParams envelope.body s.nonce serverNonce = .ok (.ok encryptedAnswer) ∧
      decryptServerDhInnerData prims encryptedAnswer newNonce s.nonce serverNonce =
        .ok serverDh ∧
      prepareClientDh prims serverDh newNonce 0 fillRandom = .ok prepared ∧
      request = { messageId := clientMessageId, body := prepared.requestBody } ∧
      t = { s with
        serverDh := some serverDh
        preparedClientDh := some prepared
        state := .awaitingDhGen } := by
  obtain ⟨hstate, h⟩ := yields_expectState_bind h
  rw [yields_get_bind] at h
  obtain ⟨newNonce, hnewNonce, h⟩ := yields_expectData_bind.mp h
  obtain ⟨serverNonce, hserverNonce, h⟩ := yields_expectData_bind.mp h
  obtain ⟨response, hparsed, h⟩ := yields_orThrow_bind_ok.mp h
  cases response with
  | ok encryptedAnswer =>
      obtain ⟨serverDh, hdecrypted, h⟩ := yields_orThrow_bind_ok.mp h
      obtain ⟨prepared, hprepared, h⟩ := yields_orThrow_bind_ok.mp h
      rw [yields_modify_bind, yields_pure] at h
      obtain ⟨hrequest, rfl⟩ := h
      exact ⟨hstate, newNonce, serverNonce, encryptedAnswer, serverDh, prepared, hnewNonce,
        hserverNonce, hparsed, hdecrypted, hprepared, Except.ok.inj hrequest, rfl⟩
  | fail newNonceHash =>
      obtain ⟨-, h⟩ := yields_ensure_bind_ok.mp h
      exact absurd h not_yields_throw_ok

theorem receiveDhGen_ok {envelope : PlaintextEnvelope} {retryMessageId : Int64}
    {fillRandom : FillRandom} {action : DhGenAction}
    (h : Yields (receiveDhGen prims envelope retryMessageId fillRandom) s (.ok action) t) :
    s.state = .awaitingDhGen ∧ ∃ newNonce serverNonce prepared serverDh dhGenResult,
      s.newNonce = some newNonce ∧ s.serverNonce = some serverNonce ∧
      s.preparedClientDh = some prepared ∧ s.serverDh = some serverDh ∧
      envelope.body = dhGenBody prims dhGenResult s.nonce serverNonce newNonce
        prepared.authKeyAuxHash ∧
      ((dhGenResult = .ok ∧
          action = .established {
            authKey := prepared.authKey
            serverSalt := prepared.serverSalt
            serverTime := serverDh.serverTime } ∧
          t = { s with preparedClientDh := none, state := .complete }) ∨
        dhGenResult = .retry ∧ ∃ next,
          prepareClientDh prims serverDh newNonce prepared.authKeyAuxHash fillRandom = .ok next ∧
          action = .retry { messageId := retryMessageId, body := next.requestBody } ∧
          t = { s with preparedClientDh := some next }) := by
  obtain ⟨hstate, h⟩ := yields_expectState_bind h
  rw [yields_get_bind] at h
  obtain ⟨newNonce, hnewNonce, h⟩ := yields_expectData_bind.mp h
  obtain ⟨prepared, hprepared, h⟩ := yields_expectData_bind.mp h
  obtain ⟨serverNonce, hserverNonce, h⟩ := yields_expectData_bind.mp h
  obtain ⟨dhGenResult, hparsed, h⟩ := yields_orThrow_bind_ok.mp h
  have hbody := parseDhGenResult_ok hparsed
  refine ⟨hstate, newNonce, serverNonce, prepared, ?_⟩
  cases dhGenResult with
  | ok =>
      obtain ⟨prepared', hprepared', h⟩ := yields_expectData_bind.mp h
      obtain rfl := Option.some.inj (hprepared.symm.trans hprepared')
      rw [yields_modify_bind] at h
      obtain ⟨serverDh, hserverDh, h⟩ := yields_expectData_bind.mp h
      rw [yields_modify_bind, yields_pure] at h
      exact ⟨serverDh, .ok, hnewNonce, hserverNonce, hprepared, hserverDh, hbody,
        Or.inl ⟨rfl, Except.ok.inj h.1, h.2⟩⟩
  | retry =>
      obtain ⟨serverDh, hserverDh, h⟩ := yields_expectData_bind.mp h
      obtain ⟨next, hnext, h⟩ := yields_orThrow_bind_ok.mp h
      rw [yields_modify_bind, yields_pure] at h
      exact ⟨serverDh, .retry, hnewNonce, hserverNonce, hprepared, hserverDh, hbody,
        Or.inr ⟨rfl, next, hnext, Except.ok.inj h.1, h.2⟩⟩
  | fail => exact absurd h not_yields_throw_ok

/-! ## What a refused call does -/

theorem atomic_expectState_bind {α : Type} {state : AuthKeyHandshakeState} {reason : String}
    {f : Unit → Eff HandshakeError AuthKeyHandshake α}
    (h : s.state = state → Atomic (f ()) s) : Atomic (expectState state reason >>= f) s :=
  atomic_orThrow_bind (x := ensure (s.state = state) _) fun _ hstate ↦ h (ensure_eq_ok.mp hstate)

theorem atomic_expectData_bind {α β : Type} {data : AuthKeyHandshake → Option β}
    {f : β → Eff HandshakeError AuthKeyHandshake α}
    (h : ∀ b, data s = some b → Atomic (f b) s) : Atomic (expectData data >>= f) s :=
  atomic_orThrow_bind (x := okOr (data s) _) fun b hb ↦ h b (okOr_eq_ok.mp hb)

theorem atomic_begin (messageId : Int64) : Atomic (begin messageId) s := by
  apply atomic_expectState_bind
  intro _
  rw [atomic_get_bind]
  apply atomic_orThrow_bind
  intro body _
  exact atomic_of_yields (yields_modify_bind.mpr (yields_pure.mpr ⟨rfl, rfl⟩))

theorem atomic_receiveResPq (envelope : PlaintextEnvelope) : Atomic (receiveResPq envelope) s := by
  apply atomic_expectState_bind
  intro _
  rw [atomic_get_bind]
  apply atomic_orThrow_bind
  intro response _
  apply atomic_orThrow_bind
  intro _ _
  apply atomic_orThrow_bind
  intro _ _
  apply atomic_orThrow_bind
  intro _ _
  exact atomic_of_yields (yields_modify_bind.mpr (yields_pure.mpr ⟨rfl, rfl⟩))

theorem atomic_prepareReqDhParams (messageId : Int64) (dcId : Int32) (testEnvironment : Bool)
    (fillRandom : FillRandom) :
    Atomic (prepareReqDhParamsWithRandom prims messageId dcId testEnvironment fillRandom) s := by
  rw [prepareReqDhParamsWithRandom, atomic_get_bind]
  split
  · apply atomic_orThrow_bind
    intro factors _
    apply atomic_orThrow_bind
    intro key _
    apply atomic_orThrow_bind
    intro fingerprint _
    apply atomic_orThrow_bind
    intro _ _
    apply atomic_orThrow_bind
    intro newNonce _
    apply atomic_orThrow_bind
    intro inner _
    apply atomic_orThrow_bind
    intro encrypted _
    apply atomic_orThrow_bind
    intro body _
    exact atomic_of_yields (yields_modify_bind.mpr (yields_pure.mpr ⟨rfl, rfl⟩))
  · exact atomic_throw _

theorem atomic_receiveServerDh (envelope : PlaintextEnvelope) (clientMessageId : Int64)
    (fillRandom : FillRandom) :
    Atomic (receiveServerDhWithRandom prims envelope clientMessageId fillRandom) s := by
  apply atomic_expectState_bind
  intro _
  rw [atomic_get_bind]
  apply atomic_expectData_bind
  intro newNonce _
  apply atomic_expectData_bind
  intro serverNonce _
  apply atomic_orThrow_bind
  intro response _
  cases response with
  | ok encryptedAnswer =>
      apply atomic_orThrow_bind
      intro serverDh _
      apply atomic_orThrow_bind
      intro prepared _
      exact atomic_of_yields (yields_modify_bind.mpr (yields_pure.mpr ⟨rfl, rfl⟩))
  | fail newNonceHash =>
      apply atomic_orThrow_bind
      intro _ _
      exact atomic_throw _

/-- The prepared value is given away before the parameters of the server are looked up, so
they have to be there. -/
theorem atomic_receiveDhGen (envelope : PlaintextEnvelope) (retryMessageId : Int64)
    (fillRandom : FillRandom)
    (hserverDh : s.state = .awaitingDhGen → ∃ serverDh, s.serverDh = some serverDh) :
    Atomic (receiveDhGen prims envelope retryMessageId fillRandom) s := by
  apply atomic_expectState_bind
  intro hstate
  obtain ⟨serverDh, hserverDh⟩ := hserverDh hstate
  rw [atomic_get_bind]
  apply atomic_expectData_bind
  intro newNonce _
  apply atomic_expectData_bind
  intro pending _
  apply atomic_expectData_bind
  intro serverNonce _
  apply atomic_orThrow_bind
  intro dhGenResult _
  cases dhGenResult with
  | ok =>
      apply atomic_expectData_bind
      intro prepared _
      exact atomic_of_yields (yields_modify_bind.mpr (yields_expectData_bind.mpr
        ⟨serverDh, hserverDh, yields_modify_bind.mpr (yields_pure.mpr ⟨rfl, rfl⟩)⟩))
  | retry =>
      apply atomic_expectData_bind
      intro serverDh _
      apply atomic_orThrow_bind
      intro next _
      exact atomic_of_yields (yields_modify_bind.mpr (yields_pure.mpr ⟨rfl, rfl⟩))
  | fail => exact atomic_throw _

end AuthKeyHandshake

/-! ## What was accepted so far -/

variable (prims) in
/-- The values that the client has sent: one with the id zero after the parameters of the
server, and one after each retry, with the hash of the key before it as its id. -/
inductive Sent (nonce : Nonce) (response : ResPq) (newNonce : Vector UInt8 32)
    (serverDh : ServerDhInnerData) :
    List Accepted → UInt64 → FillRandom → PreparedClientDh → Prop where
  | first {beginId requestId sentId : Int64} {opening resPq request answer : PlaintextEnvelope}
      {dcId : Int32} {testEnvironment : Bool} {nonceRandom fillRandom : FillRandom}
      {encryptedAnswer : List UInt8} {prepared : PreparedClientDh}
      (hresPq : Opens resPq.body resPqConstructor nonce response.serverNonce)
      (hnewNonce : nonceRandom 0 32 = .ok newNonce)
      (hanswer : Opens answer.body serverDhParamsOkConstructor nonce response.serverNonce)
      (hparsed : parseServerDhParams answer.body nonce response.serverNonce =
        .ok (.ok encryptedAnswer))
      (hdecrypted : decryptServerDhInnerData prims encryptedAnswer newNonce nonce
        response.serverNonce = .ok serverDh)
      (hprepared : prepareClientDh prims serverDh newNonce 0 fillRandom = .ok prepared) :
      Sent nonce response newNonce serverDh
        [(.begin beginId, .request opening), (.receiveResPq resPq, .resPq response),
          (.prepareReqDhParams requestId dcId testEnvironment nonceRandom, .request request),
          (.receiveServerDh answer sentId fillRandom, .request ⟨sentId, prepared.requestBody⟩)]
        0 fillRandom prepared
  | again {accepted : List Accepted} {retryId : UInt64} {fillRandom nextRandom : FillRandom}
      {previous prepared : PreparedClientDh} {answer : PlaintextEnvelope} {sentId : Int64}
      (hsent : Sent nonce response newNonce serverDh accepted retryId fillRandom previous)
      (hanswer : answer.body = dhGenBody prims .retry nonce response.serverNonce newNonce
        previous.authKeyAuxHash)
      (hprepared : prepareClientDh prims serverDh newNonce previous.authKeyAuxHash nextRandom =
        .ok prepared) :
      Sent nonce response newNonce serverDh
        (accepted ++ [(.receiveDhGen answer sentId nextRandom,
          .dhGen (.retry ⟨sentId, prepared.requestBody⟩))])
        previous.authKeyAuxHash nextRandom prepared

variable (prims) in
/-- The machine is determined by what it has accepted. -/
inductive Stage (nonce : Nonce) : List Accepted → AuthKeyHandshake → Prop where
  | ready : Stage nonce [] (AuthKeyHandshake.new nonce)
  | awaitingResPq {beginId : Int64} {opening : PlaintextEnvelope} :
      Stage nonce [(.begin beginId, .request opening)]
        ⟨nonce, .awaitingResPq, none, none, none, none⟩
  | resPqReceived {beginId : Int64} {opening resPq : PlaintextEnvelope} {response : ResPq}
      (hresPq : Opens resPq.body resPqConstructor nonce response.serverNonce) :
      Stage nonce [(.begin beginId, .request opening), (.receiveResPq resPq, .resPq response)]
        ⟨nonce, .resPqReceived response, some response.serverNonce, none, none, none⟩
  | awaitingServerDh {beginId requestId : Int64} {opening resPq request : PlaintextEnvelope}
      {response : ResPq} {dcId : Int32} {testEnvironment : Bool} {nonceRandom : FillRandom}
      {newNonce : Vector UInt8 32}
      (hresPq : Opens resPq.body resPqConstructor nonce response.serverNonce)
      (hnewNonce : nonceRandom 0 32 = .ok newNonce) :
      Stage nonce [(.begin beginId, .request opening), (.receiveResPq resPq, .resPq response),
          (.prepareReqDhParams requestId dcId testEnvironment nonceRandom, .request request)]
        ⟨nonce, .awaitingServerDh, some response.serverNonce, some newNonce, none, none⟩
  | awaitingDhGen {response : ResPq} {newNonce : Vector UInt8 32} {serverDh : ServerDhInnerData}
      {accepted : List Accepted} {retryId : UInt64} {fillRandom : FillRandom}
      {prepared : PreparedClientDh}
      (hsent : Sent prims nonce response newNonce serverDh accepted retryId fillRandom prepared) :
      Stage nonce accepted
        ⟨nonce, .awaitingDhGen, some response.serverNonce, some newNonce, some serverDh,
          some prepared⟩
  | complete {response : ResPq} {newNonce : Vector UInt8 32} {serverDh : ServerDhInnerData}
      {accepted : List Accepted} {retryId : UInt64} {fillRandom lastRandom : FillRandom}
      {prepared : PreparedClientDh} {answer : PlaintextEnvelope} {retryMessageId : Int64}
      (hsent : Sent prims nonce response newNonce serverDh accepted retryId fillRandom prepared)
      (hanswer : answer.body = dhGenBody prims .ok nonce response.serverNonce newNonce
        prepared.authKeyAuxHash) :
      Stage nonce
        (accepted ++ [(.receiveDhGen answer retryMessageId lastRandom,
          .dhGen (.established ⟨prepared.authKey, prepared.serverSalt, serverDh.serverTime⟩))])
        ⟨nonce, .complete, some response.serverNonce, some newNonce, some serverDh, none⟩

variable {nonce : Nonce} {accepted : List Accepted} {call : HandshakeCall}

theorem Stage.atomic (hstage : Stage prims nonce accepted s) (call : HandshakeCall) :
    Atomic (call.perform prims) s := by
  cases call with
  | begin messageId => exact (AuthKeyHandshake.atomic_begin messageId).map _
  | receiveResPq envelope => exact (AuthKeyHandshake.atomic_receiveResPq envelope).map _
  | prepareReqDhParams messageId dcId testEnvironment fillRandom =>
      exact (AuthKeyHandshake.atomic_prepareReqDhParams messageId dcId testEnvironment
        fillRandom).map _
  | receiveServerDh envelope clientMessageId fillRandom =>
      exact (AuthKeyHandshake.atomic_receiveServerDh envelope clientMessageId fillRandom).map _
  | receiveDhGen envelope retryMessageId fillRandom =>
      refine (AuthKeyHandshake.atomic_receiveDhGen envelope retryMessageId fillRandom ?_).map _
      intro hstate
      cases hstage with
      | awaitingDhGen hsent => exact ⟨_, rfl⟩
      | _ => cases hstate

theorem Stage.accept {answer : HandshakeAnswer} (hstage : Stage prims nonce accepted s)
    (h : Yields (call.perform prims) s (.ok answer) t) :
    Stage prims nonce (accepted ++ [(call, answer)]) t := by
  cases call with
  | begin messageId =>
      obtain ⟨envelope, hrun, rfl⟩ := yields_map_ok.mp h
      obtain ⟨hstate, rfl⟩ := AuthKeyHandshake.begin_ok hrun
      cases hstage with
      | ready => exact .awaitingResPq
      | _ => cases hstate
  | receiveResPq envelope =>
      obtain ⟨response, hrun, rfl⟩ := yields_map_ok.mp h
      obtain ⟨hstate, hopens, rfl⟩ := AuthKeyHandshake.receiveResPq_ok hrun
      cases hstage with
      | awaitingResPq => exact .resPqReceived hopens
      | _ => cases hstate
  | prepareReqDhParams messageId dcId testEnvironment fillRandom =>
      obtain ⟨envelope, hrun, rfl⟩ := yields_map_ok.mp h
      obtain ⟨response, newNonce, hstate, hnewNonce, rfl⟩ :=
        AuthKeyHandshake.prepareReqDhParams_ok hrun
      cases hstage with
      | resPqReceived hresPq => exact .awaitingServerDh hresPq hnewNonce
      | _ => cases hstate
  | receiveServerDh envelope clientMessageId fillRandom =>
      obtain ⟨request, hrun, rfl⟩ := yields_map_ok.mp h
      obtain ⟨hstate, newNonce, serverNonce, encryptedAnswer, serverDh, prepared, hnewNonce,
        hserverNonce, hparsed, hdecrypted, hprepared, rfl, rfl⟩ :=
        AuthKeyHandshake.receiveServerDh_ok hrun
      cases hstage with
      | awaitingServerDh hresPq hrandom =>
          obtain rfl := Option.some.inj hnewNonce
          obtain rfl := Option.some.inj hserverNonce
          exact .awaitingDhGen
            (.first hresPq hrandom (parseServerDhParams_ok hparsed) hparsed hdecrypted hprepared)
      | _ => cases hstate
  | receiveDhGen envelope retryMessageId fillRandom =>
      obtain ⟨action, hrun, rfl⟩ := yields_map_ok.mp h
      obtain ⟨hstate, newNonce, serverNonce, prepared, serverDh, dhGenResult, hnewNonce,
        hserverNonce, hprepared, hserverDh, hbody, hcases⟩ := AuthKeyHandshake.receiveDhGen_ok hrun
      cases hstage with
      | awaitingDhGen hsent =>
          obtain rfl := Option.some.inj hnewNonce
          obtain rfl := Option.some.inj hserverNonce
          obtain rfl := Option.some.inj hprepared
          obtain rfl := Option.some.inj hserverDh
          rcases hcases with ⟨rfl, rfl, rfl⟩ | ⟨rfl, next, hnext, rfl, rfl⟩
          · exact .complete hsent hbody
          · exact .awaitingDhGen (.again hsent hbody hnext)
      | _ => cases hstate

theorem Stage.next {progress : Progress}
    (hstage : Stage prims nonce progress.accepted progress.handshake) (call : HandshakeCall) :
    Stage prims nonce (progress.next prims call).accepted
      (progress.next prims call).handshake := by
  have hself := yields_self (call.perform prims) progress.handshake
  unfold Progress.next
  cases hresult : result (call.perform prims) progress.handshake with
  | ok answer =>
      rw [hresult] at hself
      exact hstage.accept hself
  | error e =>
      rw [hresult] at hself
      rw [hstage.atomic call e _ hself]
      exact hstage

theorem stage_run (nonce : Nonce) (calls : List HandshakeCall) :
    Stage prims nonce (Runs.run (Progress.next prims) (.start nonce) calls).accepted
      (Runs.run (Progress.next prims) (.start nonce) calls).handshake :=
  Runs.invariant (I := fun progress : Progress ↦
    Stage prims nonce progress.accepted progress.handshake) (fun _ call h ↦ h.next call) .ready calls

/-! ## Keys and retries -/

variable (prims) in
/-- A key that both sides agree on: everything before it was accepted for these nonces, the
group is the pinned one, both public values are in range, and the key is the server's value
to the exponent of the last value that the client has sent. -/
structure Agreement (nonce : Nonce) (response : ResPq) (newNonce : Vector UInt8 32)
    (serverDh : ServerDhInnerData) (front : List Accepted) (retryId : UInt64) (b : ℕ)
    (fillRandom : FillRandom) (prepared : PreparedClientDh) (answer : PlaintextEnvelope)
    (key : EstablishedAuthKey) : Prop where
  sent : Sent prims nonce response newNonce serverDh front retryId fillRandom prepared
  exponent : ∃ exponentBytes, fillRandom 0 256 = .ok exponentBytes ∧ b = clientExponent exponentBytes
  computed : Computed prims newNonce serverDh retryId b prepared
  nonce_eq : serverDh.nonce = nonce
  serverNonce_eq : serverDh.serverNonce = response.serverNonce
  group : TrustedGroup serverDh
  answer_eq : answer.body = dhGenBody prims .ok nonce response.serverNonce newNonce
    prepared.authKeyAuxHash
  key_eq : key = ⟨prepared.authKey, prepared.serverSalt, serverDh.serverTime⟩

variable {response : ResPq} {newNonce : Vector UInt8 32} {serverDh : ServerDhInnerData}
  {retryId : UInt64} {fillRandom : FillRandom} {prepared : PreparedClientDh}

theorem Sent.serverDh_ok
    (h : Sent prims nonce response newNonce serverDh accepted retryId fillRandom prepared) :
    serverDh.nonce = nonce ∧ serverDh.serverNonce = response.serverNonce := by
  induction h with
  | first hresPq hnewNonce hanswer hparsed hdecrypted hprepared =>
      obtain ⟨hnonce, hserverNonce, -⟩ := decryptServerDhInnerData_ok hdecrypted
      exact ⟨hnonce, hserverNonce⟩
  | again hsent hanswer hprepared ih => exact ih

theorem Sent.prepared_ok
    (h : Sent prims nonce response newNonce serverDh accepted retryId fillRandom prepared) :
    TrustedGroup serverDh ∧ ∃ exponentBytes, fillRandom 0 256 = .ok exponentBytes ∧
      Computed prims newNonce serverDh retryId (clientExponent exponentBytes) prepared := by
  cases h with
  | first hresPq hnewNonce hanswer hparsed hdecrypted hprepared =>
      exact prepareClientDh_ok hprepared
  | again hsent hanswer hprepared => exact prepareClientDh_ok hprepared

theorem append_singleton_eq {α : Type} {front back list : List α} {x last : α}
    (h : list ++ [last] = front ++ x :: back) :
    (back = [] ∧ list = front ∧ last = x) ∨ ∃ rest, list = front ++ x :: rest := by
  rcases List.eq_nil_or_concat back with rfl | ⟨rest, y, rfl⟩
  · obtain ⟨hfront, hlast⟩ := List.append_inj' h rfl
    exact Or.inl ⟨rfl, hfront, List.head_eq_of_cons_eq hlast⟩
  · refine Or.inr ⟨rest, ?_⟩
    rw [List.concat_eq_append, ← List.cons_append, ← List.append_assoc] at h
    exact (List.append_inj' h rfl).1

theorem Sent.not_established
    (h : Sent prims nonce response newNonce serverDh accepted retryId fillRandom prepared)
    (call : HandshakeCall) (key : EstablishedAuthKey) :
    (call, HandshakeAnswer.dhGen (.established key)) ∉ accepted := by
  induction h with
  | first hresPq hnewNonce hanswer hparsed hdecrypted hprepared => simp
  | again hsent hanswer hprepared ih => simp [ih]

theorem Sent.retry {front back : List Accepted} {request : PlaintextEnvelope}
    (h : Sent prims nonce response newNonce serverDh accepted retryId fillRandom prepared)
    (hretry : accepted = front ++ (call, .dhGen (.retry request)) :: back) :
    ∃ retryId fillRandom previous b next,
      Sent prims nonce response newNonce serverDh front retryId fillRandom previous ∧
        Computed prims newNonce serverDh previous.authKeyAuxHash b next ∧
        request.body = next.requestBody := by
  induction h generalizing back with
  | first hresPq hnewNonce hanswer hparsed hdecrypted hprepared =>
      have hmem : (call, HandshakeAnswer.dhGen (.retry request)) ∈
          front ++ (call, .dhGen (.retry request)) :: back := by simp
      rw [← hretry] at hmem
      simp at hmem
  | again hsent hanswer hprepared ih =>
      rcases append_singleton_eq hretry with ⟨-, rfl, hlast⟩ | ⟨rest, hrest⟩
      · obtain ⟨-, exponentBytes, -, hcomputed⟩ := prepareClientDh_ok hprepared
        cases hlast
        exact ⟨_, _, _, _, _, hsent, hcomputed, rfl⟩
      · exact ih hrest

theorem Stage.established {front back : List Accepted} {key : EstablishedAuthKey}
    (hstage : Stage prims nonce accepted s)
    (hkey : accepted = front ++ (call, .dhGen (.established key)) :: back) :
    back = [] ∧ ∃ response newNonce serverDh retryId b fillRandom prepared answer sentId lastRandom,
      call = .receiveDhGen answer sentId lastRandom ∧
        Agreement prims nonce response newNonce serverDh front retryId b fillRandom prepared
          answer key := by
  have hmem : (call, HandshakeAnswer.dhGen (.established key)) ∈ accepted := by
    rw [hkey]
    simp
  cases hstage with
  | ready => simp at hmem
  | awaitingResPq => simp at hmem
  | resPqReceived hresPq => simp at hmem
  | awaitingServerDh hresPq hnewNonce => simp at hmem
  | awaitingDhGen hsent => exact absurd hmem (hsent.not_established call key)
  | complete hsent hanswer =>
      rcases append_singleton_eq hkey with ⟨rfl, rfl, hlast⟩ | ⟨rest, rfl⟩
      · obtain ⟨hgroup, exponentBytes, hrandom, hcomputed⟩ := hsent.prepared_ok
        obtain ⟨hnonce, hserverNonce⟩ := hsent.serverDh_ok
        cases hlast
        exact ⟨rfl, _, _, _, _, _, _, _, _, _, _, rfl, hsent, ⟨exponentBytes, hrandom, rfl⟩,
          hcomputed, hnonce, hserverNonce, hgroup, hanswer, rfl⟩
      · exact absurd (by simp) (hsent.not_established call key)

theorem Stage.retry {front back : List Accepted} {request : PlaintextEnvelope}
    (hstage : Stage prims nonce accepted s)
    (hretry : accepted = front ++ (call, .dhGen (.retry request)) :: back) :
    ∃ response newNonce serverDh retryId fillRandom previous b next,
      Sent prims nonce response newNonce serverDh front retryId fillRandom previous ∧
        Computed prims newNonce serverDh previous.authKeyAuxHash b next ∧
        request.body = next.requestBody := by
  have hmem : (call, HandshakeAnswer.dhGen (.retry request)) ∈ accepted := by
    rw [hretry]
    simp
  cases hstage with
  | ready => simp at hmem
  | awaitingResPq => simp at hmem
  | resPqReceived hresPq => simp at hmem
  | awaitingServerDh hresPq hnewNonce => simp at hmem
  | awaitingDhGen hsent => exact ⟨_, _, _, hsent.retry hretry⟩
  | complete hsent hanswer =>
      rcases append_singleton_eq hretry with ⟨-, -, hlast⟩ | ⟨rest, hrest⟩
      · cases hlast
      · exact ⟨_, _, _, hsent.retry hrest⟩

/-- For any calls in any order with any bytes: a refused call changes nothing, a key is
established at most once, as the last call that is accepted and in agreement with the
server, and every retry sends a value under the hash of the key before it. -/
theorem handshake_safe (prims : Primitives) (nonce : Nonce) (calls : List HandshakeCall) :
    let progress := Runs.run (Progress.next prims) (.start nonce) calls
    (∀ (call : HandshakeCall) error,
      result (call.perform prims) progress.handshake = .error error →
        after (call.perform prims) progress.handshake = progress.handshake) ∧
    (∀ front call key back,
      progress.accepted = front ++ (call, .dhGen (.established key)) :: back →
        back = [] ∧ ∃ response newNonce serverDh retryId b fillRandom prepared answer sentId
          lastRandom, call = .receiveDhGen answer sentId lastRandom ∧
            Agreement prims nonce response newNonce serverDh front retryId b fillRandom prepared
              answer key) ∧
    ∀ front call request back,
      progress.accepted = front ++ (call, .dhGen (.retry request)) :: back →
        ∃ response newNonce serverDh retryId fillRandom previous b next,
          Sent prims nonce response newNonce serverDh front retryId fillRandom previous ∧
            Computed prims newNonce serverDh previous.authKeyAuxHash b next ∧
            request.body = next.requestBody := by
  intro progress
  have hstage : Stage prims nonce progress.accepted progress.handshake := stage_run nonce calls
  refine ⟨?_, ?_, ?_⟩
  · intro call error hresult
    have hself := yields_self (call.perform prims) progress.handshake
    rw [hresult] at hself
    exact hstage.atomic call error _ hself
  · intro front call key back hkey
    exact hstage.established hkey
  · intro front call request back hretry
    exact hstage.retry hretry

end

end Fabushi.Telegram
