import Fabushi.Library.Json
import Fabushi.Library.OrderedMap

/-!
# Gateway and runtime events

The events a gateway shows to its surfaces, and those of the runtime that it projects
them from.
-/

namespace Fabushi.Gateway

def GATEWAY_PROTOCOL_VERSION : UInt16 := 1

inductive MessageCompletionStatus where
  | complete
  | error
  | interrupted
deriving DecidableEq

structure MessageStartPayload where
  role : Option String := none

structure MessageDeltaPayload where
  text : String
  rendered : Option String := none

structure StreamDeltaPayload where
  text : String

structure MessageInterimPayload where
  text : Option String := none

structure MessageCompletePayload where
  status : MessageCompletionStatus := .complete
  text : Option String := none
  partialText : Option Bool := none
  recoverable : Option Bool := none
  error : Option String := none
  usage : Option Json := none

structure ToolGeneratingPayload where
  toolId : String
  name : String
  description : Option String := none

structure ToolStartPayload where
  toolId : String
  name : String
  args : Option Json := none
  description : Option String := none

structure ToolCompletePayload where
  toolId : String
  name : Option String := none
  result : Option Json := none
  error : Option String := none

structure ApprovalRequestPayload where
  requestId : String
  title : String
  description : Option String := none
  toolId : Option String := none
  metadata : Option Json := none

structure ClarifyRequestPayload where
  requestId : String
  question : String
  options : List String

structure SubagentPayload where
  subagentId : String
  title : Option String := none
  detail : Option String := none
  status : Option String := none

inductive GatewayEvent where
  | messageStart (payload : MessageStartPayload)
  | messageDelta (payload : MessageDeltaPayload)
  | messageInterim (payload : MessageInterimPayload)
  | messageComplete (payload : MessageCompletePayload)
  | reasoningDelta (payload : StreamDeltaPayload)
  | thinkingDelta (payload : StreamDeltaPayload)
  | toolGenerating (payload : ToolGeneratingPayload)
  | toolStart (payload : ToolStartPayload)
  | toolComplete (payload : ToolCompletePayload)
  | approvalRequest (payload : ApprovalRequestPayload)
  | clarifyRequest (payload : ClarifyRequestPayload)
  | subagentStart (payload : SubagentPayload)
  | subagentProgress (payload : SubagentPayload)
  | subagentComplete (payload : SubagentPayload)

def GatewayEvent.isComplete : GatewayEvent → Bool
  | .messageComplete _ => true
  | _ => false

structure GatewayEventEnvelope where
  protocolVersion : UInt16
  sessionId : String
  turnId : String
  seq : UInt64
  timestamp : String
  replayEpoch : String
  event : GatewayEvent

def GatewayEventEnvelope.new (sessionId turnId : String) (seq : UInt64)
    (timestamp replayEpoch : String) (event : GatewayEvent) : GatewayEventEnvelope :=
  { protocolVersion := GATEWAY_PROTOCOL_VERSION, sessionId, turnId, seq, timestamp, replayEpoch
    event }

/-! ## Events of the runtime -/

inductive MessageRole where
  | user
  | assistant
  | contact
  | miniApp
  | system
deriving DecidableEq

structure Message where
  conversationId : String
  role : MessageRole
  text : String

inductive RuntimeActivityStatus where
  | running
  | completed
  | failed
deriving DecidableEq

structure ModelTokenUsage where
  totalTokens : Int64
  inputTokens : Int64
  cachedInputTokens : Int64
  outputTokens : Int64
  reasoningOutputTokens : Int64

structure ModelTokenUsageSnapshot where
  total : Option ModelTokenUsage
  last : ModelTokenUsage
  modelContextWindow : Option Int64

def integer (value : Int64) : Json :=
  .number (toString value.toInt)

def ModelTokenUsage.toValue (usage : ModelTokenUsage) : Json :=
  .object [("totalTokens", integer usage.totalTokens), ("inputTokens", integer usage.inputTokens),
    ("cachedInputTokens", integer usage.cachedInputTokens),
    ("outputTokens", integer usage.outputTokens),
    ("reasoningOutputTokens", integer usage.reasoningOutputTokens)]

def ModelTokenUsageSnapshot.toValue (usage : ModelTokenUsageSnapshot) : Json :=
  .object [("total", (usage.total.map ModelTokenUsage.toValue).getD .null),
    ("last", usage.last.toValue),
    ("modelContextWindow", (usage.modelContextWindow.map integer).getD .null)]

/-- `mahayana_core::RuntimeEvent`, with the identifiers of operations and conversations as the
strings they wrap. -/
inductive RuntimeEvent where
  | ready
  | messageDelta (operationId conversationId delta : String)
  | messageCompleted (operationId : String) (message : Message)
  | modelUsageUpdated (operationId : String) (usage : ModelTokenUsageSnapshot)
  | approvalRequested (operationId approvalId title : String) (details : Json)
  | pluginProgress (operationId pluginId tool : String) (progress total : UInt64)
      (message : String)
  | agentActivity (operationId stepId kind title : String) (detail : Option String)
      (status : RuntimeActivityStatus) (metadata : Option Json)
  | operationCompleted (operationId : String)
  | operationFailed (operationId code message : String)
  | lagged (skipped : ℕ)
  | providerDegraded (provider message : String)

end Fabushi.Gateway

/-!
## The projection of runtime events

A turn is known by the operation that runs it. The projection remembers the session of each
turn and turns what the runtime reports into events of that session.
-/

namespace Fabushi.Gateway

open Std

structure GatewayEventDraft where
  sessionId : String
  turnId : String
  timestampMs : Int64
  event : GatewayEvent

structure RuntimeProjection where
  sessionsByTurn : BTreeMap String String := ∅
  messageCompletedTurns : BTreeSet String := ∅
  usageByTurn : BTreeMap String Json := ∅

namespace RuntimeProjection

variable (projection : RuntimeProjection)

def registerTurn (turnId sessionId : String) : RuntimeProjection :=
  { projection with sessionsByTurn := projection.sessionsByTurn.insert turnId sessionId }

def sessionForTurn (turnId : String) : Option String :=
  projection.sessionsByTurn[turnId]?

def forgetTurn (turnId : String) : RuntimeProjection :=
  { sessionsByTurn := projection.sessionsByTurn.erase turnId
    messageCompletedTurns := projection.messageCompletedTurns.erase turnId
    usageByTurn := projection.usageByTurn.erase turnId }

def turnDraft (turnId : String) (timestampMs : Int64) (event : GatewayEvent) :
    List GatewayEventDraft :=
  match projection.sessionForTurn turnId with
  | some sessionId => [{ sessionId, turnId, timestampMs, event }]
  | none => []

def activityEvent (stepId kind title : String) (detail : Option String)
    (status : RuntimeActivityStatus) (metadata : Option Json) : GatewayEvent :=
  if kind = "reasoning" then .reasoningDelta { text := detail.getD title }
  else if kind = "thinking" then .thinkingDelta { text := detail.getD title }
  else match status with
    | .running => .toolStart { toolId := stepId, name := title, args := metadata
                               description := detail }
    | .completed => .toolComplete { toolId := stepId, name := some title
                                    result := metadata.or (detail.map Json.string) }
    | .failed => .toolComplete { toolId := stepId, name := some title, result := metadata
                                 error := some (detail.getD s!"{title} failed") }

def project (event : RuntimeEvent) (timestampMs : Int64) :
    RuntimeProjection × List GatewayEventDraft :=
  match event with
  | .ready | .lagged _ | .providerDegraded _ _ => (projection, [])
  | .messageDelta operationId conversationId delta =>
      (projection.registerTurn operationId conversationId,
        [{ sessionId := conversationId, turnId := operationId, timestampMs
           event := .messageDelta { text := delta } }])
  | .messageCompleted operationId message =>
      let registered := projection.registerTurn operationId message.conversationId
      if message.role ≠ .assistant then (registered, [])
      else
        ({ registered with
            messageCompletedTurns := registered.messageCompletedTurns.insert operationId },
          [{ sessionId := message.conversationId, turnId := operationId, timestampMs
             event := .messageComplete
               { status := .complete, text := some message.text, partialText := some false
                 usage := registered.usageByTurn[operationId]? } }])
  | .modelUsageUpdated operationId usage =>
      ({ projection with usageByTurn := projection.usageByTurn.insert operationId usage.toValue },
        [])
  | .approvalRequested operationId approvalId title details =>
      (projection, projection.turnDraft operationId timestampMs (.approvalRequest
        { requestId := approvalId, title
          description := (details.get "description").bind Json.asStr
          toolId := (details.get "toolId").bind Json.asStr
          metadata := some details }))
  | .pluginProgress operationId pluginId tool progress total message =>
      (projection, projection.turnDraft operationId timestampMs (.toolGenerating
        { toolId := s!"plugin:{pluginId}:{tool}", name := tool
          description := some s!"{message} ({progress}/{total})" }))
  | .agentActivity operationId stepId kind title detail status metadata =>
      (projection, projection.turnDraft operationId timestampMs
        (activityEvent stepId kind title detail status metadata))
  | .operationCompleted operationId =>
      (projection.forgetTurn operationId,
        if operationId ∈ projection.messageCompletedTurns then []
        else projection.turnDraft operationId timestampMs (.messageComplete
          { status := .complete, usage := projection.usageByTurn[operationId]? }))
  | .operationFailed operationId code message =>
      (projection.forgetTurn operationId,
        projection.turnDraft operationId timestampMs (.messageComplete
          { status := .error, partialText := some true, recoverable := some true
            error := some s!"{code}: {message}"
            usage := projection.usageByTurn[operationId]? }))

def interruptTurn (turnId : String) (timestampMs : Int64) :
    RuntimeProjection × List GatewayEventDraft :=
  (projection.forgetTurn turnId,
    projection.turnDraft turnId timestampMs (.messageComplete
      { status := .interrupted, partialText := some true, recoverable := some true
        usage := projection.usageByTurn[turnId]? }))

end RuntimeProjection

end Fabushi.Gateway
