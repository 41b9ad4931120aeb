import Fabushi.Library.OrderedMap
import Fabushi.Library.Json

/-!
# Requests of the server to its client

A request stays open by its id until it is answered, answered question by question, or
withdrawn. The registry keeps the open requests and the order in which they are shown; it
is exported and imported across restarts.
-/

namespace Fabushi.Gateway

def JSON_RPC_VERSION : String := "2.0"

def REQUEST_CANCEL_METHOD : String := "request.cancel"

def SERVER_REQUEST_METHODS : List String :=
  ["clarify", "approval", "sudo", "secret", "vault.unlock_prompt", "vault.save_login",
    "vault.code", "terminal.read", "preview.read", "window.read", "preview.act", "tour"]

inductive ServerRequestError where
  | unsupportedMethod (method : String)
  | invalidRequestId
  | paramsMustBeObject
  | unknownQuestion (questionId : String)
  | invalidPersistedState (reason : String)
deriving DecidableEq

def ofStrings (answers : BTreeMap String String) : Json :=
  .object (answers.toList.map fun answer ↦ (answer.1, .string answer.2))

structure PendingServerRequest where
  id : String
  sessionId : String
  method : String
  params : Json
  createdAtMs : UInt64
  questionIds : List String := []
  lockedAnswers : BTreeMap String String := ∅

def objectOrEmpty (value : Json) : Json :=
  if value.isObject then value else .object []

namespace PendingServerRequest

def frame (request : PendingServerRequest) : Json :=
  .object [("jsonrpc", .string JSON_RPC_VERSION), ("id", .string request.id),
    ("method", .string request.method),
    ("params", (objectOrEmpty request.params).insert "sessionId" (.string request.sessionId))]

def reconnectFrame (request : PendingServerRequest) : Json :=
  if request.lockedAnswers.isEmpty then request.frame
  else match request.frame.get "params" with
    | some params =>
        request.frame.insert "params" (params.insert "answers" (ofStrings request.lockedAnswers))
    | none => request.frame

end PendingServerRequest

inductive ServerRequestResponse where
  | result (value : Json)
  | error (value : Json)

structure ResolvedServerRequest where
  request : PendingServerRequest
  response : ServerRequestResponse

structure IssuedServerRequest where
  request : PendingServerRequest
  frame : Json

structure ClarifyLockOutcome where
  remainingQuestionIds : List String
  resolution : Option ResolvedServerRequest

def cancelNotification (request : PendingServerRequest) (reason : String) : Json :=
  .object [("jsonrpc", .string JSON_RPC_VERSION), ("method", .string REQUEST_CANCEL_METHOD),
    ("params", .object [("id", .string request.id), ("method", .string request.method),
      ("reason", .string reason), ("sessionId", .string request.sessionId)])]

def clientAnswers (result : Json) : BTreeMap String String :=
  ((result.get "answers").bind Json.asObject).getD [] |>.foldl (fun answers member ↦
    match member.2.asStr with
    | some answer => answers.insert member.1 answer
    | none => answers) ∅

/-- `merge_locked_answers`: a locked answer replaces the client's one. -/
def mergeLockedAnswers (request : PendingServerRequest) (result : Json) : Json :=
  if request.lockedAnswers.isEmpty then result
  else if result.isObject then
    result.insert "answers" (ofStrings <|
      request.lockedAnswers.toList.foldl (fun answers answer ↦ answers.insert answer.1 answer.2)
        (clientAnswers result))
  else result

def validateMethod (method : String) : Except ServerRequestError Unit :=
  if method ∈ SERVER_REQUEST_METHODS then .ok () else .error (.unsupportedMethod method)

def validateId (id : String) : Except ServerRequestError Unit :=
  if "srq-".toList.isPrefixOf id.toList ∧ 4 < id.utf8ByteSize then .ok ()
  else .error .invalidRequestId

structure ServerRequestRegistry where
  opened : BTreeMap String PendingServerRequest := ∅
  order : List String := []

namespace ServerRequestRegistry

def issueWithId (registry : ServerRequestRegistry) (id sessionId method : String) (params : Json)
    (questionIds : List String) (createdAtMs : UInt64) :
    Except ServerRequestError (ServerRequestRegistry × IssuedServerRequest) := do
  validateMethod method
  validateId id
  if ¬ params.isObject ∧ ¬ params.isNull then throw .paramsMustBeObject
  let request := { id, sessionId, method, params, createdAtMs, questionIds : PendingServerRequest }
  return ({ opened := registry.opened.insert id request
            order := registry.order.filter (· ≠ id) ++ [id] }, ⟨request, request.frame⟩)

def isResponseFrame (frame : Json) : Bool :=
  (frame.get "method").isNone && (frame.get "id").isSome &&
    ((frame.get "result").isSome || (frame.get "error").isSome)

def close (registry : ServerRequestRegistry) (id : String) : ServerRequestRegistry :=
  { opened := registry.opened.erase id, order := registry.order.filter (· ≠ id) }

def responseOf (request : PendingServerRequest) (frame : Json) : ServerRequestResponse :=
  match frame.get "error" with
  | some error => .error error
  | none =>
      .result (mergeLockedAnswers request
        (((frame.get "result").filter Json.isObject).getD (.object [])))

def resolveResponse (registry : ServerRequestRegistry) (frame : Json) :
    ServerRequestRegistry × Option ResolvedServerRequest :=
  if isResponseFrame frame then
    match (frame.get "id").bind Json.asStr with
    | none => (registry, none)
    | some id =>
        match registry.opened[id]? with
        | none => (registry, none)
        | some request => (registry.close id, some ⟨request, responseOf request frame⟩)
  else (registry, none)

def remaining (request : PendingServerRequest) : List String :=
  request.questionIds.filter fun id ↦ (request.lockedAnswers[id]?).isNone

def lockAnswer (registry : ServerRequestRegistry) (requestId questionId answer : String) :
    ServerRequestRegistry × Except ServerRequestError (Option ClarifyLockOutcome) :=
  match registry.opened[requestId]? with
  | none => (registry, .ok none)
  | some request =>
      if questionId ∉ request.questionIds then (registry, .error (.unknownQuestion questionId))
      else
        let locked := { request with
          lockedAnswers := request.lockedAnswers.insert questionId answer }
        if remaining locked ≠ [] then
          ({ registry with opened := registry.opened.insert requestId locked },
            .ok (some ⟨remaining locked, none⟩))
        else
          (registry.close requestId, .ok (some ⟨[], some ⟨locked,
            .result (.object [("answers", ofStrings locked.lockedAnswers)])⟩⟩))

def matching (registry : ServerRequestRegistry) (sessionId : Option String) :
    List PendingServerRequest :=
  (registry.order.filterMap fun id ↦ registry.opened[id]?).filter fun request ↦
    sessionId.all fun sessionId ↦ request.sessionId = sessionId

/-- The loop body of `cancelSession`: a request is removed and its notification kept. -/
def withdraw (reason : String) (removed : BTreeMap String PendingServerRequest × List Json)
    (id : String) : BTreeMap String PendingServerRequest × List Json :=
  match removed.1[id]? with
  | some request => (removed.1.erase id, removed.2 ++ [cancelNotification request reason])
  | none => removed

def cancelSession (registry : ServerRequestRegistry) (sessionId : Option String)
    (reason : String) : ServerRequestRegistry × List Json :=
  let ids := registry.order.filter fun id ↦ (registry.opened[id]?).any fun request ↦
    sessionId.all fun sessionId ↦ request.sessionId = sessionId
  let removed := ids.foldl (withdraw reason) (registry.opened, [])
  ({ opened := removed.1, order := registry.order.filter fun id ↦ (removed.1[id]?).isSome },
    removed.2)

def openRequests (registry : ServerRequestRegistry) (sessionId : String) : List Json :=
  (registry.matching (some sessionId)).map PendingServerRequest.reconnectFrame

def pendingKind (registry : ServerRequestRegistry) (sessionId : String) : Option String :=
  (registry.matching (some sessionId)).head?.map PendingServerRequest.method

def exportState (registry : ServerRequestRegistry) : List PendingServerRequest :=
  registry.order.filterMap fun id ↦ registry.opened[id]?

def validateImported (request : PendingServerRequest) : Except ServerRequestError Unit := do
  validateMethod request.method
  validateId request.id
  if ¬ request.params.isObject ∧ ¬ request.params.isNull then
    throw (.invalidPersistedState s!"{request.id} params are not an object")

/-- The loop of `importState`, which ends at the first request that fails its checks. -/
def importLoop : ServerRequestRegistry → List PendingServerRequest →
    ServerRequestRegistry × Except ServerRequestError Unit
  | registry, [] => (registry, .ok ())
  | registry, request :: requests =>
      match validateImported request with
      | .error error => (registry, .error error)
      | .ok _ =>
          importLoop { opened := registry.opened.insert request.id request
                       order := registry.order ++ [request.id] } requests

def importState (_registry : ServerRequestRegistry) (requests : List PendingServerRequest) :
    ServerRequestRegistry × Except ServerRequestError Unit :=
  importLoop {} (requests.insertionSort fun a b ↦ a.createdAtMs ≤ b.createdAtMs)

end ServerRequestRegistry

end Fabushi.Gateway
