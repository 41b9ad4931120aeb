import Fabushi.Gateway.Replay

/-!
# Gateway state

The state machine of one process joins the projection to the replay store. Around it a
journal of the retained events is kept in a file; a restart reads the file and emits its
events once more, under an epoch of its own.
-/

namespace Fabushi.Gateway

open Std

namespace Base

structure GatewayState where
  projection : RuntimeProjection := {}
  replay : ReplayStore

namespace GatewayState

variable (codec : Codec)

def withEpoch (limits : ReplayLimits) (epoch : String) : GatewayState :=
  { replay := .withEpoch limits epoch }

def replayEpoch (state : GatewayState) : String :=
  state.replay.epoch

def registerTurn (state : GatewayState) (turnId sessionId : String) : GatewayState :=
  { state with projection := state.projection.registerTurn turnId sessionId }

def pushAll : ReplayStore → List GatewayEventDraft → ReplayStore × List GatewayEventEnvelope
  | store, [] => (store, [])
  | store, draft :: drafts =>
      let pushed := store.push codec draft
      let rest := pushAll pushed.1 drafts
      (rest.1, pushed.2 :: rest.2)

def emit (state : GatewayState) (sessionId turnId : String) (timestampMs : Int64)
    (event : GatewayEvent) : GatewayState × GatewayEventEnvelope :=
  let pushed := state.replay.push codec { sessionId, turnId, timestampMs, event }
  ({ state with replay := pushed.1 }, pushed.2)

def ingestRuntimeEvent (state : GatewayState) (event : RuntimeEvent) (timestampMs : Int64) :
    GatewayState × List GatewayEventEnvelope :=
  let projected := state.projection.project event timestampMs
  let pushed := pushAll codec state.replay projected.2
  ({ projection := projected.1, replay := pushed.1 }, pushed.2)

def replaySince (state : GatewayState) (sessionId : String) (lastSeen : UInt64)
    (expectedEpoch : Option String) : ReplaySlice :=
  let reset := expectedEpoch.any fun epoch ↦ epoch ≠ state.replayEpoch
  state.replay.since sessionId lastSeen reset

def interruptTurn (state : GatewayState) (turnId : String) (timestampMs : Int64) :
    GatewayState × List GatewayEventEnvelope :=
  let interrupted := state.projection.interruptTurn turnId timestampMs
  let pushed := pushAll codec state.replay interrupted.2
  ({ projection := interrupted.1, replay := pushed.1 }, pushed.2)

end GatewayState

end Base

structure GatewayState where
  inner : Base.GatewayState
  limits : ReplayLimits
  journal : List GatewayEventEnvelope := []
  statePath : Option String
  lastPersistenceError : Option String := none
  restoredEvents : ℕ := 0

namespace GatewayState

variable (codec : Codec)

/-! ## The journal -/

def newestSessions (maxSessions : ℕ) : List GatewayEventEnvelope → List String → List String
  | [], newest => newest
  | event :: events, newest =>
      if event.sessionId ∈ newest then newestSessions maxSessions events newest
      else if maxSessions ≤ newest.length + 1 then newest ++ [event.sessionId]
      else newestSessions maxSessions events (newest ++ [event.sessionId])

def ofSession (sessionId : String) (journal : List GatewayEventEnvelope) :
    List GatewayEventEnvelope :=
  journal.filter fun event ↦ event.sessionId = sessionId

def encodedBytes (events : List GatewayEventEnvelope) : ℕ :=
  events.foldl (fun bytes event ↦ min (bytes + codec.encodedSize event) usizeMax) 0

/-- The inner loop of `pruneJournal`; every round drops an event of the session, so the length
of the journal bounds their number. -/
def trimSession (limits : ReplayLimits) (sessionId : String) :
    ℕ → List GatewayEventEnvelope → List GatewayEventEnvelope
  | 0, journal => journal
  | rounds + 1, journal =>
      let own := ofSession sessionId journal
      if own.length ≤ limits.maxEventsPerSession ∧
          encodedBytes codec own ≤ limits.maxBytesPerSession then journal
      else trimSession limits sessionId rounds
        (journal.eraseP fun event ↦ event.sessionId = sessionId)

def pruned (limits : ReplayLimits) (journal : List GatewayEventEnvelope) :
    List GatewayEventEnvelope :=
  let limits := limits.atLeastOne.toReplayLimits
  let keep := newestSessions limits.maxSessions journal.reverse []
  keep.foldl (fun journal sessionId ↦ trimSession codec limits sessionId journal.length journal)
    (journal.filter fun event ↦ event.sessionId ∈ keep)

def pruneJournal (state : GatewayState) : GatewayState :=
  { state with journal := pruned codec state.limits state.journal }

def recordEvents (state : GatewayState) (events : List GatewayEventEnvelope)
    (update : Except String Unit) : GatewayState :=
  if events.isEmpty then state
  else
    let state := pruneJournal codec { state with journal := state.journal ++ events }
    match state.statePath, update with
    | none, _ => state
    | some _, .error error => { state with lastPersistenceError := some error }
    | some _, .ok _ => { state with lastPersistenceError := none }

/-! ## Restoring -/

/-- The loop of `restoreEvents`, up to the first event that cannot be restored. -/
def restoreLoop : GatewayState → BTreeMap String String → ℕ → List GatewayEventEnvelope →
    GatewayState × Except String (BTreeMap String String × ℕ)
  | state, activeTurns, restored, [] => (state, .ok (activeTurns, restored))
  | state, activeTurns, restored, envelope :: events =>
      if envelope.protocolVersion ≠ GATEWAY_PROTOCOL_VERSION then
        (state,
          .error s!"unsupported persisted gateway protocol version {envelope.protocolVersion}")
      else match codec.parseRfc3339 envelope.timestamp with
        | .error error => (state, .error s!"invalid persisted gateway timestamp: {error}")
        | .ok timestampMs =>
            let normalized := state.inner.emit codec envelope.sessionId envelope.turnId
              timestampMs envelope.event
            let activeTurns :=
              if envelope.event.isComplete then activeTurns.erase envelope.turnId
              else activeTurns.insert envelope.turnId envelope.sessionId
            restoreLoop
              { state with inner := normalized.1, journal := state.journal ++ [normalized.2] }
              activeTurns (min (restored + 1) usizeMax) events

def restoreEvents (state : GatewayState) (events : List GatewayEventEnvelope) :
    GatewayState × Except String Unit :=
  match restoreLoop codec state ∅ 0 events with
  | (state, .error error) => (state, .error error)
  | (state, .ok (activeTurns, restored)) =>
      let inner := activeTurns.toList.foldl (fun inner turn ↦ inner.registerTurn turn.1 turn.2)
        state.inner
      (pruneJournal codec { state with inner, restoredEvents := restored }, .ok ())

def withPath (limits : ReplayLimits) (epoch : String) (statePath : Option String)
    (loaded : Except String (List GatewayEventEnvelope)) : GatewayState :=
  let state := { inner := .withEpoch limits epoch, limits, statePath : GatewayState }
  match statePath, loaded with
  | none, _ => state
  | some _, .error error => { state with lastPersistenceError := some error }
  | some _, .ok events =>
      match restoreEvents codec state events with
      | (state, .error error) => { state with lastPersistenceError := some error }
      | (state, .ok _) => state

/-! ## What a process does -/

def replayEpoch (state : GatewayState) : String :=
  state.inner.replayEpoch

def registerTurn (state : GatewayState) (turnId sessionId : String) : GatewayState :=
  { state with inner := state.inner.registerTurn turnId sessionId }

def emit (state : GatewayState) (sessionId turnId : String) (timestampMs : Int64)
    (event : GatewayEvent) (update : Except String Unit) : GatewayState × GatewayEventEnvelope :=
  let emitted := state.inner.emit codec sessionId turnId timestampMs event
  (recordEvents codec { state with inner := emitted.1 } [emitted.2] update, emitted.2)

def ingestRuntimeEvent (state : GatewayState) (event : RuntimeEvent) (timestampMs : Int64)
    (update : Except String Unit) : GatewayState × List GatewayEventEnvelope :=
  let ingested := state.inner.ingestRuntimeEvent codec event timestampMs
  (recordEvents codec { state with inner := ingested.1 } ingested.2 update, ingested.2)

def replaySince (state : GatewayState) (sessionId : String) (lastSeen : UInt64)
    (expectedEpoch : Option String) : ReplaySlice :=
  state.inner.replaySince sessionId lastSeen expectedEpoch

def interruptTurn (state : GatewayState) (turnId : String) (timestampMs : Int64)
    (update : Except String Unit) : GatewayState × List GatewayEventEnvelope :=
  let interrupted := state.inner.interruptTurn codec turnId timestampMs
  (recordEvents codec { state with inner := interrupted.1 } interrupted.2 update, interrupted.2)

end GatewayState

end Fabushi.Gateway
