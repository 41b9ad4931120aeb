import Fabushi.Library.Runs
import Fabushi.Gateway.Protocol

/-!
# One terminal event for a turn

A turn ends with its `MessageComplete`. A completed operation whose message was complete
before says nothing more, but a failed or interrupted one does, and a late delta or message
registers the turn again. The log of a run holds one terminal event for a turn, its last,
exactly when no such input arrives for a turn that has ended.
-/

namespace Fabushi.Gateway

open Std

inductive TurnInput where
  | registerTurn (turnId sessionId : String)
  | ingestRuntimeEvent (event : RuntimeEvent) (timestampMs : Int64)
  | interruptTurn (turnId : String) (timestampMs : Int64)

/-- A turn of an operation that is registered ends with its failure, its interruption, or its
completion without a complete message; any turn ends with a complete message of the
assistant. -/
def RuntimeProjection.ends (projection : RuntimeProjection) : TurnInput → Option String
  | .ingestRuntimeEvent (.messageCompleted operationId message) _ =>
      if message.role = .assistant then some operationId else none
  | .ingestRuntimeEvent (.operationCompleted operationId) _ =>
      if (projection.sessionForTurn operationId).isSome ∧
          operationId ∉ projection.messageCompletedTurns then some operationId else none
  | .ingestRuntimeEvent (.operationFailed operationId _ _) _
  | .interruptTurn operationId _ =>
      if (projection.sessionForTurn operationId).isSome then some operationId else none
  | _ => none

structure TurnLog where
  projection : RuntimeProjection := {}
  drafts : List GatewayEventDraft := []
  ended : List String := []

namespace TurnLog

def respond (projection : RuntimeProjection) :
    TurnInput → RuntimeProjection × List GatewayEventDraft
  | .registerTurn turnId sessionId => (projection.registerTurn turnId sessionId, [])
  | .ingestRuntimeEvent event timestampMs => projection.project event timestampMs
  | .interruptTurn turnId timestampMs => projection.interruptTurn turnId timestampMs

def next (log : TurnLog) (input : TurnInput) : TurnLog :=
  let responded := respond log.projection input
  { projection := responded.1
    drafts := log.drafts ++ responded.2
    ended := log.ended ++ (log.projection.ends input).toList }

def OneTerminal (drafts : List GatewayEventDraft) : Prop :=
  drafts.Pairwise fun earlier later ↦
    earlier.turnId = later.turnId → earlier.event.isComplete = false

instance (drafts : List GatewayEventDraft) : Decidable (OneTerminal drafts) := by
  unfold OneTerminal
  infer_instance

/-- After a turn has ended it gets no delta and no message of the assistant, and while it is
registered again nothing else that is shown; its completion may come after its message. -/
def Timely (log : TurnLog) : TurnInput → Prop
  | .registerTurn _ _ => True
  | .interruptTurn turnId _ =>
      turnId ∈ log.ended → log.projection.sessionForTurn turnId = none
  | .ingestRuntimeEvent event _ =>
      match event with
      | .messageDelta operationId _ _ => operationId ∉ log.ended
      | .messageCompleted operationId message =>
          message.role = .assistant → operationId ∉ log.ended
      | .approvalRequested operationId _ _ _
      | .pluginProgress operationId _ _ _ _ _
      | .agentActivity operationId _ _ _ _ _ _
      | .operationFailed operationId _ _ =>
          operationId ∈ log.ended → log.projection.sessionForTurn operationId = none
      | .operationCompleted operationId =>
          operationId ∈ log.ended → operationId ∉ log.projection.messageCompletedTurns →
            log.projection.sessionForTurn operationId = none
      | _ => True

instance (log : TurnLog) (input : TurnInput) : Decidable (log.Timely input) := by
  unfold Timely
  split
  · infer_instance
  · infer_instance
  · split <;> infer_instance

def Marked (log : TurnLog) : Prop :=
  ∀ turnId, turnId ∈ log.ended ↔
    ∃ draft ∈ log.drafts, draft.turnId = turnId ∧ draft.event.isComplete = true

theorem oneTerminal_append {drafts : List GatewayEventDraft} {draft : GatewayEventDraft} :
    OneTerminal (drafts ++ [draft]) ↔ OneTerminal drafts ∧
      ∀ earlier ∈ drafts, earlier.turnId = draft.turnId → earlier.event.isComplete = false := by
  unfold OneTerminal
  rw [List.pairwise_append]
  simp

/-- What an input says of a turn: a terminal event exactly where the input ends the turn, an
event of an ended turn exactly where the input is late. -/
def Says (log : TurnLog) (input : TurnInput) (drafts : List GatewayEventDraft) : Prop :=
  (drafts = [] ∧ log.projection.ends input = none ∧ log.Timely input) ∨
  ∃ draft : GatewayEventDraft, drafts = [draft] ∧
    log.projection.ends input =
      (if draft.event.isComplete then some draft.turnId else none) ∧
    (log.Timely input ↔ draft.turnId ∉ log.ended)

theorem says_turnDraft {log : TurnLog} {input : TurnInput} {turnId : String}
    {timestampMs : Int64} {event : GatewayEvent}
    (hends : log.projection.ends input =
      if (log.projection.sessionForTurn turnId).isSome ∧ event.isComplete = true
      then some turnId else none)
    (htimely : log.Timely input ↔
      (turnId ∈ log.ended → log.projection.sessionForTurn turnId = none)) :
    log.Says input (log.projection.turnDraft turnId timestampMs event) := by
  unfold RuntimeProjection.turnDraft
  cases hsession : log.projection.sessionForTurn turnId with
  | none =>
      left
      refine ⟨rfl, ?_, ?_⟩
      · rw [hends, hsession]
        rfl
      · rw [htimely]
        exact fun _ ↦ hsession
  | some sessionId =>
      right
      refine ⟨_, rfl, ?_, ?_⟩
      · rw [hends, hsession]
        simp
      · rw [htimely, hsession]
        simp

theorem isComplete_activityEvent (stepId kind title : String) (detail : Option String)
    (status : RuntimeActivityStatus) (metadata : Option Json) :
    (RuntimeProjection.activityEvent stepId kind title detail status metadata).isComplete =
      false := by
  unfold RuntimeProjection.activityEvent
  split
  · rfl
  · split
    · rfl
    · cases status <;> rfl

theorem says_respond (log : TurnLog) (input : TurnInput) :
    log.Says input (respond log.projection input).2 := by
  cases input with
  | registerTurn turnId sessionId => exact .inl ⟨rfl, rfl, trivial⟩
  | interruptTurn turnId timestampMs =>
      apply says_turnDraft
      · simp [RuntimeProjection.ends, GatewayEvent.isComplete]
      · rfl
  | ingestRuntimeEvent event timestampMs =>
      cases event with
      | ready => exact .inl ⟨rfl, rfl, trivial⟩
      | lagged skipped => exact .inl ⟨rfl, rfl, trivial⟩
      | providerDegraded provider message => exact .inl ⟨rfl, rfl, trivial⟩
      | modelUsageUpdated operationId usage => exact .inl ⟨rfl, rfl, trivial⟩
      | messageDelta operationId conversationId delta =>
          exact .inr ⟨_, rfl, rfl, Iff.rfl⟩
      | messageCompleted operationId message =>
          by_cases hrole : message.role = .assistant
          · right
            simp only [respond, RuntimeProjection.project, hrole, ne_eq, not_true_eq_false,
              if_false]
            refine ⟨_, rfl, ?_, ?_⟩
            · simp [RuntimeProjection.ends, hrole, GatewayEvent.isComplete]
            · simp [Timely, hrole]
          · left
            simp [respond, RuntimeProjection.project, RuntimeProjection.ends, Timely, hrole]
      | approvalRequested operationId approvalId title details =>
          apply says_turnDraft
          · simp [RuntimeProjection.ends, GatewayEvent.isComplete]
          · rfl
      | pluginProgress operationId pluginId tool progress total message =>
          apply says_turnDraft
          · simp [RuntimeProjection.ends, GatewayEvent.isComplete]
          · rfl
      | agentActivity operationId stepId kind title detail status metadata =>
          apply says_turnDraft
          · simp [RuntimeProjection.ends, isComplete_activityEvent]
          · rfl
      | operationFailed operationId code message =>
          apply says_turnDraft
          · simp [RuntimeProjection.ends, GatewayEvent.isComplete]
          · rfl
      | operationCompleted operationId =>
          by_cases hcompleted : operationId ∈ log.projection.messageCompletedTurns
          · left
            simp [respond, RuntimeProjection.project, RuntimeProjection.ends, Timely, hcompleted]
          · simp only [respond, RuntimeProjection.project, hcompleted, if_false]
            apply says_turnDraft
            · simp [RuntimeProjection.ends, GatewayEvent.isComplete, hcompleted]
            · simp [Timely, hcompleted]

theorem Marked.next {log : TurnLog} (h : log.Marked) (input : TurnInput) :
    (log.next input).Marked := by
  intro turnId
  rcases log.says_respond input with ⟨hnone, hends, -⟩ | ⟨draft, hone, hends, -⟩
  · simp only [TurnLog.next, hnone, hends, Option.toList_none, List.append_nil]
    exact h turnId
  · simp only [TurnLog.next, hone, hends, List.mem_append, List.mem_singleton, h turnId]
    cases hcomplete : draft.event.isComplete with
    | false => simp [or_and_right, exists_or, hcomplete]
    | true =>
        simp only [if_true, Option.toList_some, List.mem_singleton, or_and_right, exists_or,
          exists_eq_left, hcomplete, and_true]
        exact or_congr_right eq_comm

theorem Marked.oneTerminal_next {log : TurnLog} (h : log.Marked) (input : TurnInput) :
    OneTerminal (log.next input).drafts ↔ OneTerminal log.drafts ∧ log.Timely input := by
  rcases log.says_respond input with ⟨hnone, -, htimely⟩ | ⟨draft, hone, -, htimely⟩
  · simp only [TurnLog.next, hnone, List.append_nil, htimely, and_true]
  · simp only [TurnLog.next, hone]
    rw [oneTerminal_append, htimely, h draft.turnId]
    simp

/-- No turn gets a second terminal event or any event after it, exactly in the runs whose
inputs are all timely. -/
theorem oneTerminal_iff (inputs : List TurnInput) :
    OneTerminal (Runs.run next {} inputs).drafts ↔ Runs.Along next Timely {} inputs := by
  have hrun : ∀ (inputs : List TurnInput) (log : TurnLog), log.Marked →
      (OneTerminal (Runs.run next log inputs).drafts ↔
        OneTerminal log.drafts ∧ Runs.Along next Timely log inputs) := by
    intro inputs
    induction inputs with
    | nil => exact fun log _ ↦ (and_iff_left trivial).symm
    | cons input inputs ih =>
        intro log hmarked
        rw [Runs.run_cons, ih _ (hmarked.next input), hmarked.oneTerminal_next, and_assoc]
        rfl
  have hstart : Marked {} := fun turnId ↦ by simp
  rw [hrun inputs {} hstart]
  simp [OneTerminal]

/-- A turn whose message is complete fails afterwards and ends twice. -/
theorem failure_ends_completed_turn :
    ¬ ∀ inputs : List TurnInput, OneTerminal (Runs.run next {} inputs).drafts := by
  intro h
  have htwice := h
    [.registerTurn "turn" "session",
      .ingestRuntimeEvent (.messageCompleted "turn"
        { conversationId := "session", role := .assistant, text := "done" }) 1,
      .ingestRuntimeEvent (.operationFailed "turn" "E" "late") 2]
  revert htwice
  decide +kernel

end TurnLog

end Fabushi.Gateway
