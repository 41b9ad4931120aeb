import Fabushi.Library.Runs
import Fabushi.Gateway.ReplayBooks

/-!
# Replay over whole runs

A run emits, ingests, interrupts and restarts, and keeps beside the gateway all envelopes
it has given out. Every answer that is not truncated is complete as long as no forgotten
session is dropped; a store that drops one later answers as if it had never had events.
-/

namespace Fabushi.Gateway

open Paging

inductive ReplayInput where
  | registerTurn (turnId sessionId : String)
  | emit (sessionId turnId : String) (timestampMs : Int64) (event : GatewayEvent)
      (update : Except String Unit)
  | ingestRuntimeEvent (event : RuntimeEvent) (timestampMs : Int64) (update : Except String Unit)
  | interruptTurn (turnId : String) (timestampMs : Int64) (update : Except String Unit)
  | overwrite (stored : Except String (List GatewayEventEnvelope))
  | restart (limits : ReplayLimits) (epoch : String) (statePath : Option String)

structure ReplayWorld where
  gateway : GatewayState
  stored : Except String (List GatewayEventEnvelope) := .ok []
  given : List GatewayEventEnvelope := []

namespace ReplayWorld

variable (codec : Codec)

def after (world : ReplayWorld) (gateway : GatewayState) (events : List GatewayEventEnvelope)
    (update : Except String Unit) : ReplayWorld :=
  { gateway
    stored := if gateway.statePath.isSome ∧ ¬ events.isEmpty ∧ update.isOk then .ok gateway.journal
      else world.stored
    given := world.given ++ events }

def restored (limits : ReplayLimits) (epoch : String) (statePath : Option String)
    (stored : Except String (List GatewayEventEnvelope)) : List GatewayEventEnvelope :=
  match statePath, stored with
  | some _, .ok events =>
      (GatewayState.restoreLoop codec { inner := .withEpoch limits epoch, limits, statePath }
        ∅ 0 events).1.journal
  | _, _ => []

def next (world : ReplayWorld) : ReplayInput → ReplayWorld
  | .registerTurn turnId sessionId =>
      { world with gateway := world.gateway.registerTurn turnId sessionId }
  | .emit sessionId turnId timestampMs event update =>
      let emitted := world.gateway.emit codec sessionId turnId timestampMs event update
      world.after emitted.1 [emitted.2] update
  | .ingestRuntimeEvent event timestampMs update =>
      let ingested := world.gateway.ingestRuntimeEvent codec event timestampMs update
      world.after ingested.1 ingested.2 update
  | .interruptTurn turnId timestampMs update =>
      let interrupted := world.gateway.interruptTurn codec turnId timestampMs update
      world.after interrupted.1 interrupted.2 update
  | .overwrite stored => { world with stored }
  | .restart limits epoch statePath =>
      { world with
        gateway := .withPath codec limits epoch statePath world.stored
        given := world.given ++ restored codec limits epoch statePath world.stored }

/-! ## What keeps an answer complete -/

/-- The drafts a restart pushes: the events of the file up to the first it cannot read. -/
def restoredDrafts : List GatewayEventEnvelope → List GatewayEventDraft
  | [] => []
  | envelope :: events =>
      if envelope.protocolVersion ≠ GATEWAY_PROTOCOL_VERSION then []
      else match codec.parseRfc3339 envelope.timestamp with
        | .error _ => []
        | .ok timestampMs =>
            { sessionId := envelope.sessionId, turnId := envelope.turnId, timestampMs
              event := envelope.event } :: restoredDrafts events

def drafts (world : ReplayWorld) : ReplayInput → ReplayStore × List GatewayEventDraft
  | .emit sessionId turnId timestampMs event _ =>
      (world.gateway.inner.replay, [{ sessionId, turnId, timestampMs, event }])
  | .ingestRuntimeEvent event timestampMs _ =>
      (world.gateway.inner.replay,
        (world.gateway.inner.projection.project event timestampMs).2)
  | .interruptTurn turnId timestampMs _ =>
      (world.gateway.inner.replay,
        (world.gateway.inner.projection.interruptTurn turnId timestampMs).2)
  | .restart limits epoch statePath =>
      (.withEpoch limits epoch,
        match statePath, world.stored with
        | some _, .ok events => restoredDrafts codec events
        | _, _ => [])
  | _ => (world.gateway.inner.replay, [])

def FreshEpoch (world : ReplayWorld) : ReplayInput → Prop
  | .restart _ epoch _ => ∀ envelope ∈ world.given, envelope.replayEpoch ≠ epoch
  | _ => True

instance (world : ReplayWorld) (input : ReplayInput) : Decidable (world.FreshEpoch input) := by
  unfold FreshEpoch
  cases input <;> infer_instance

/-- No event needs more room than can be made without dropping a forgotten session. -/
def Roomy (world : ReplayWorld) (input : ReplayInput) : Prop :=
  ReplayStore.AllFit codec (world.drafts codec input).1 (world.drafts codec input).2

instance (world : ReplayWorld) (input : ReplayInput) : Decidable (world.Roomy codec input) :=
  ReplayStore.decidableAllFit codec _ _

variable {codec}

def Told (world : ReplayWorld) : Prop :=
  world.gateway.inner.replay.Told world.given

theorem inner_recordEvents (state : GatewayState) (events : List GatewayEventEnvelope)
    (update : Except String Unit) : (state.recordEvents codec events update).inner =
      state.inner := by
  unfold GatewayState.recordEvents
  split
  · rfl
  · dsimp only
    split <;> rfl

theorem replay_registerAll (turns : List (String × String)) (inner : Base.GatewayState) :
    (turns.foldl (fun inner turn ↦ inner.registerTurn turn.1 turn.2) inner).replay =
      inner.replay := by
  induction turns generalizing inner with
  | nil => rfl
  | cons turn turns ih => exact ih _

theorem restoreLoop_eq (events : List GatewayEventEnvelope) (state : GatewayState)
    (activeTurns : BTreeMap String String) (count : ℕ) :
    let looped := (GatewayState.restoreLoop codec state activeTurns count events).1
    let pushed := Base.GatewayState.pushAll codec state.inner.replay (restoredDrafts codec events)
    looped.inner.replay = pushed.1 ∧ looped.journal = state.journal ++ pushed.2 := by
  induction events generalizing state activeTurns count with
  | nil => exact ⟨rfl, (List.append_nil _).symm⟩
  | cons envelope events ih =>
      unfold GatewayState.restoreLoop restoredDrafts
      split
      · exact ⟨rfl, (List.append_nil _).symm⟩
      · cases hparse : codec.parseRfc3339 envelope.timestamp with
        | error error => exact ⟨rfl, (List.append_nil _).symm⟩
        | ok timestampMs =>
            obtain ⟨hreplay, hjournal⟩ := ih _ _ _
            refine ⟨hreplay, hjournal.trans ?_⟩
            rw [List.append_assoc]
            rfl

theorem replay_withPath (limits : ReplayLimits) (epoch : String) (statePath : Option String)
    (stored : Except String (List GatewayEventEnvelope)) :
    let drafts := match statePath, stored with
      | some _, .ok events => restoredDrafts codec events
      | _, _ => []
    let pushed := Base.GatewayState.pushAll codec (.withEpoch limits epoch) drafts
    (GatewayState.withPath codec limits epoch statePath stored).inner.replay = pushed.1 ∧
      restored codec limits epoch statePath stored = pushed.2 := by
  cases statePath with
  | none => exact ⟨rfl, rfl⟩
  | some path =>
      cases stored with
      | error error => exact ⟨rfl, rfl⟩
      | ok events =>
          obtain ⟨hreplay, hjournal⟩ := @restoreLoop_eq codec events
            { inner := .withEpoch limits epoch, limits, statePath := some path } ∅ 0
          refine ⟨?_, hjournal⟩
          refine Eq.trans ?_ hreplay
          simp only [GatewayState.withPath, GatewayState.restoreEvents]
          cases GatewayState.restoreLoop codec
              { inner := .withEpoch limits epoch, limits, statePath := some path } ∅ 0 events with
          | mk state outcome =>
              cases outcome with
              | error error => rfl
              | ok turns => exact replay_registerAll turns.1.toList state.inner

theorem Told.next {world : ReplayWorld} (h : world.Told) {input : ReplayInput}
    (hfresh : world.FreshEpoch input) (hfit : world.Roomy codec input) :
    (world.next codec input).Told := by
  cases input with
  | registerTurn turnId sessionId => exact h
  | overwrite stored => exact h
  | emit sessionId turnId timestampMs event update =>
      have hpushed := h.pushAll codec hfit
      unfold ReplayWorld.Told ReplayWorld.next ReplayWorld.after GatewayState.emit
      rw [inner_recordEvents]
      exact hpushed
  | ingestRuntimeEvent event timestampMs update =>
      have hpushed := h.pushAll codec hfit
      unfold ReplayWorld.Told ReplayWorld.next ReplayWorld.after GatewayState.ingestRuntimeEvent
      rw [inner_recordEvents]
      exact hpushed
  | interruptTurn turnId timestampMs update =>
      have hpushed := h.pushAll codec hfit
      unfold ReplayWorld.Told ReplayWorld.next ReplayWorld.after GatewayState.interruptTurn
      rw [inner_recordEvents]
      exact hpushed
  | restart limits epoch statePath =>
      have hstart := ReplayStore.told_withEpoch limits hfresh h.distinct
      have hpushed := hstart.pushAll codec hfit
      obtain ⟨hreplay, hgiven⟩ := @replay_withPath codec limits epoch statePath world.stored
      unfold ReplayWorld.Told ReplayWorld.next
      dsimp only
      rw [hreplay, hgiven]
      exact hpushed

def starting (limits : ReplayLimits) (epoch : String) (statePath : Option String) : ReplayWorld :=
  { gateway := { inner := .withEpoch limits epoch, limits, statePath } }

/-- An answer that is not truncated holds all events behind `lastSeen`, numbered without a
gap. -/
def Complete (world : ReplayWorld) : Prop :=
  ∀ (sessionId : String) (lastSeen : UInt64),
    let slice := world.gateway.replaySince sessionId lastSeen (some world.gateway.replayEpoch)
    slice.truncated = false →
      slice.events = (world.given.filter fun envelope ↦
        envelope.replayEpoch = world.gateway.replayEpoch ∧ envelope.sessionId = sessionId ∧
          lastSeen < envelope.seq) ∧
      slice.events.map (fun envelope ↦ envelope.seq.toNat) =
        List.range' (lastSeen.toNat + 1) slice.events.length

def Distinct (world : ReplayWorld) : Prop :=
  (world.given.map fun envelope ↦
    (envelope.replayEpoch, envelope.sessionId, envelope.seq)).Nodup

theorem Told.complete {world : ReplayWorld} (h : world.Told) : world.Complete := by
  intro sessionId lastSeen slice hwhole
  have hslice : slice = world.gateway.inner.replay.since sessionId lastSeen false := by
    simp only [slice, GatewayState.replaySince, Base.GatewayState.replaySince,
      GatewayState.replayEpoch, Base.GatewayState.replayEpoch, Option.any_some, ne_eq,
      not_true_eq_false, decide_false]
  have hevents := h.since sessionId lastSeen (hslice ▸ hwhole)
  rw [← hslice] at hevents
  have hnumbers := (h.accounts.numbered sessionId).behind lastSeen.toNat
  rw [← hevents] at hnumbers
  have hlength : slice.events.length =
      (historyOf world.given world.gateway.inner.replay.epoch sessionId).length -
        lastSeen.toNat := by
    simpa using congrArg List.length hnumbers
  refine ⟨?_, ?_⟩
  · rw [hevents, behind, historyOf, List.filter_filter]
    apply List.filter_congr
    intro envelope _
    rw [← Bool.decide_and]
    apply decide_eq_decide.mpr
    tauto
  · rw [hlength]
    exact hnumbers

/-- In every run that drops no forgotten session an answer that is not truncated is complete,
and no sequence number is given twice. -/
theorem replay_complete (limits : ReplayLimits) (epoch : String) (statePath : Option String)
    (inputs : List ReplayInput)
    (hfresh : Runs.Along (next codec) FreshEpoch (starting limits epoch statePath) inputs)
    (hroomy : Runs.Along (next codec) (Roomy codec) (starting limits epoch statePath) inputs) :
    let world := Runs.run (next codec) (starting limits epoch statePath) inputs
    world.Complete ∧ world.Distinct := by
  have hstart : (starting limits epoch statePath).Told :=
    ReplayStore.told_withEpoch limits (by simp [starting]) List.nodup_nil
  have hstep : ∀ (world : ReplayWorld) (input : ReplayInput), world.Told →
      world.FreshEpoch input ∧ world.Roomy codec input → (world.next codec input).Told :=
    fun _ _ h hinput ↦ h.next hinput.1 hinput.2
  have htold := Runs.invariant_along hstep hstart (hfresh.and hroomy)
  exact ⟨htold.complete, htold.distinct⟩

/-! ## A session that is dropped -/

section Demo

def demoCodec : Codec where
  encodedLen _ := some 10
  rfc3339Millis _ := some "2023-11-14T22:13:20.000Z"
  parseRfc3339 _ := .ok 1700000000000

def demoEmit (sessionId : String) : ReplayInput :=
  .emit sessionId "turn" 1700000000000 (.messageDelta { text := "text" }) (.ok ())

/-- The third session drops the first one, whose events are then missing without a word. -/
theorem replay_loses_dropped_session :
    ¬ ∀ (codec : Codec) (limits : ReplayLimits) (epoch : String) (statePath : Option String)
      (inputs : List ReplayInput),
      Runs.Along (next codec) FreshEpoch (starting limits epoch statePath) inputs →
      let world := Runs.run (next codec) (starting limits epoch statePath) inputs
      world.Complete ∧ world.Distinct := by
  intro h
  have hcomplete := (h demoCodec { maxSessions := 1 } "epoch" none
    [demoEmit "first", demoEmit "second", demoEmit "third"] (by decide +kernel)).1
  have hlost := (hcomplete "first" 0 (by decide +kernel)).1
  have hlength := congrArg List.length hlost
  revert hlength
  decide +kernel

theorem replay_complete_demo :
    let inputs := [demoEmit "first", demoEmit "first", demoEmit "first", demoEmit "second",
      .restart { maxEventsPerSession := 2, maxSessions := 1 } "later" (some "state.json"),
      demoEmit "first"]
    let world := Runs.run (next demoCodec)
      (starting { maxEventsPerSession := 2, maxSessions := 1 } "epoch" (some "state.json")) inputs
    world.Complete ∧ world.Distinct :=
  replay_complete _ _ _ _ (by decide +kernel) (by decide +kernel)

end Demo

end ReplayWorld

end Fabushi.Gateway
