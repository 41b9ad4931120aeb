import Fabushi.Library.MachineInt
import Fabushi.Gateway.Protocol

/-!
# The replay store

Each session keeps its last events, numbered from one on. A session may hold a number of
events and of bytes, and the store a number of sessions; of as many sessions again it
remembers the last number alone.
-/

namespace Fabushi.Gateway

open Std MachineInt

def usizeMax : ℕ := 2 ^ 64 - 1

/-- What the serializer and the calendar do. -/
structure Codec where
  /-- `serde_json::to_vec(..).len()`, if the value can be encoded. -/
  encodedLen : GatewayEventEnvelope → Option ℕ
  rfc3339Millis : Int64 → Option String
  parseRfc3339 : String → Except String Int64

namespace Codec

variable (codec : Codec)

def encodedSize (envelope : GatewayEventEnvelope) : ℕ :=
  (codec.encodedLen envelope).getD usizeMax

def timestampString (timestampMs : Int64) : String :=
  (codec.rfc3339Millis timestampMs).getD (toString timestampMs.toInt)

end Codec

structure ReplayLimits where
  maxEventsPerSession : ℕ := 512
  maxBytesPerSession : ℕ := 4 * 1024 * 1024
  maxSessions : ℕ := 64

structure StoreLimits extends ReplayLimits where
  events_pos : 0 < maxEventsPerSession
  bytes_pos : 0 < maxBytesPerSession
  sessions_pos : 0 < maxSessions

def ReplayLimits.atLeastOne (limits : ReplayLimits) : StoreLimits where
  maxEventsPerSession := max limits.maxEventsPerSession 1
  maxBytesPerSession := max limits.maxBytesPerSession 1
  maxSessions := max limits.maxSessions 1
  events_pos := by omega
  bytes_pos := by omega
  sessions_pos := by omega

structure ReplaySlice where
  replayEpoch : String
  sessionId : String
  lastSeen : UInt64
  latestSeq : UInt64
  truncated : Bool
  reset : Bool
  events : List GatewayEventEnvelope

structure SessionReplay where
  nextSeq : UInt64 := 0
  bytes : ℕ := 0
  evictedThrough : UInt64 := 0
  events : List (GatewayEventEnvelope × ℕ) := []

namespace SessionReplay

def evict (limits : ReplayLimits) (nextSeq : UInt64) :
    List (GatewayEventEnvelope × ℕ) → ℕ → UInt64 → SessionReplay
  | [], bytes, evictedThrough => { nextSeq, bytes, evictedThrough }
  | (removed, size) :: events, bytes, evictedThrough =>
      if limits.maxEventsPerSession < events.length + 1 ∨ limits.maxBytesPerSession < bytes then
        evict limits nextSeq events (bytes - size) (max evictedThrough removed.seq)
      else { nextSeq, bytes, evictedThrough, events := (removed, size) :: events }

end SessionReplay

structure ReplayStore where
  epoch : String
  limits : StoreLimits
  sessions : BTreeMap String SessionReplay := ∅
  sessionOrder : List String := []
  forgottenLatest : BTreeMap String UInt64 := ∅
  forgottenOrder : List String := []

namespace ReplayStore

def withEpoch (limits : ReplayLimits) (epoch : String) : ReplayStore :=
  { epoch, limits := limits.atLeastOne }

def trimForgotten (maxSessions : ℕ) (latest : BTreeMap String UInt64) :
    List String → BTreeMap String UInt64 × List String
  | [] => (latest, [])
  | oldest :: order =>
      if maxSessions < order.length + 1 then trimForgotten maxSessions (latest.erase oldest) order
      else (latest, oldest :: order)

def rememberForgotten (store : ReplayStore) (sessionId : String) (latestSeq : UInt64) :
    ReplayStore :=
  let trimmed := trimForgotten store.limits.maxSessions
    (store.forgottenLatest.insert sessionId latestSeq)
    (store.forgottenOrder.erase sessionId ++ [sessionId])
  { store with forgottenLatest := trimmed.1, forgottenOrder := trimmed.2 }

def makeRoom : List String → ReplayStore → ReplayStore
  | [], store => { store with sessionOrder := [] }
  | oldest :: order, store =>
      if store.limits.maxSessions ≤ store.sessions.size then
        makeRoom order <| match store.sessions[oldest]? with
          | some removed =>
              { store with sessions := store.sessions.erase oldest }.rememberForgotten oldest
                removed.nextSeq
          | none => store
      else { store with sessionOrder := oldest :: order }

def ensureSession (store : ReplayStore) (sessionId : String) : ReplayStore :=
  if (store.sessions[sessionId]?).isSome then
    { store with sessionOrder := store.sessionOrder.erase sessionId ++ [sessionId] }
  else
    let store := makeRoom store.sessionOrder store
    let nextSeq := store.forgottenLatest[sessionId]?.getD 0
    { store with
      sessions := store.sessions.insert sessionId { nextSeq, evictedThrough := nextSeq }
      sessionOrder := store.sessionOrder ++ [sessionId]
      forgottenLatest := store.forgottenLatest.erase sessionId
      forgottenOrder := store.forgottenOrder.erase sessionId }

/-- `push` of a session: the envelope, and the session that holds it or passes it over. -/
def pushInto (codec : Codec) (epoch : String) (limits : StoreLimits) (session : SessionReplay)
    (draft : GatewayEventDraft) : SessionReplay × GatewayEventEnvelope :=
  let nextSeq := saturatingU64 session.nextSeq 1
  let envelope := GatewayEventEnvelope.new draft.sessionId draft.turnId nextSeq
    (codec.timestampString draft.timestampMs) epoch draft.event
  let size := codec.encodedSize envelope
  if limits.maxBytesPerSession < size then
    ({ session with nextSeq, evictedThrough := envelope.seq }, envelope)
  else
    (SessionReplay.evict limits.toReplayLimits nextSeq (session.events ++ [(envelope, size)])
      (min (session.bytes + size) usizeMax) session.evictedThrough, envelope)

def push (codec : Codec) (store : ReplayStore) (draft : GatewayEventDraft) :
    ReplayStore × GatewayEventEnvelope :=
  let store := store.ensureSession draft.sessionId
  -- the session exists after `ensureSession`
  let session := store.sessions[draft.sessionId]?.getD {}
  let pushed := pushInto codec store.epoch store.limits session draft
  ({ store with sessions := store.sessions.insert draft.sessionId pushed.1 }, pushed.2)

def since (store : ReplayStore) (sessionId : String) (lastSeen : UInt64) (reset : Bool) :
    ReplaySlice :=
  if reset then
    { replayEpoch := store.epoch, sessionId, lastSeen
      latestSeq := ((store.sessions[sessionId]?.map SessionReplay.nextSeq).or
        store.forgottenLatest[sessionId]?).getD 0
      truncated := true, reset := true, events := [] }
  else match store.sessions[sessionId]? with
    | some session =>
        { replayEpoch := store.epoch, sessionId, lastSeen, latestSeq := session.nextSeq
          truncated := lastSeen < session.evictedThrough || session.nextSeq < lastSeen
          reset := false
          events := (session.events.filter fun item ↦ lastSeen < item.1.seq).map Prod.fst }
    | none =>
        let latestSeq := store.forgottenLatest[sessionId]?.getD 0
        { replayEpoch := store.epoch, sessionId, lastSeen, latestSeq
          truncated := 0 < lastSeen || lastSeen < latestSeq, reset := false, events := [] }

end ReplayStore

end Fabushi.Gateway
