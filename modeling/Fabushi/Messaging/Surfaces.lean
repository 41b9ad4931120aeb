import Fabushi.Messaging.Conversation

/-!
# Stories, bots and mini apps

The three surfaces next to conversations: `story.rs`, `bot.rs` and the parts of
`miniapp.rs` that the engine reads.
-/

namespace Fabushi.Messaging

open Result Std

/-! ## Stories -/

inductive StoryPrivacyKind where
  | everyone | contacts | closeFriends | selected
  deriving DecidableEq, Repr

structure StoryPrivacy where
  kind : StoryPrivacyKind
  includedActorIds : BTreeSet ActorId := ∅
  excludedActorIds : BTreeSet ActorId := ∅
  deriving DecidableEq

structure StoryView where
  actorId : ActorId
  viewedAtMs : Int64
  reaction : Option String
  forwarded : Bool
  deriving DecidableEq, Repr

structure Story where
  id : StoryId
  ownerId : ActorId
  media : MediaRef
  caption : FormattedText
  privacy : StoryPrivacy
  createdAtMs : Int64
  expiresAtMs : Int64
  editedAtMs : Option Int64
  pinnedToProfile : Bool
  protectedContent : Bool
  allowReplies : Bool
  views : BTreeMap ActorId StoryView := ∅
  deriving DecidableEq

inductive StoryError where
  | expired (id : StoryId)
  | viewerNotFound (actorId : ActorId)
  deriving DecidableEq, Repr

namespace Story

def isVisibleTo (story : Story) (actorId : ActorId) (isContact isCloseFriend : Bool) : Bool :=
  if story.ownerId = actorId then true
  else if story.privacy.excludedActorIds.contains actorId then false
  else if story.privacy.includedActorIds.contains actorId then true
  else match story.privacy.kind with
    | .everyone => true
    | .contacts => isContact
    | .closeFriends => isCloseFriend
    | .selected => false

/-- A repeated view keeps the earliest time. -/
def recordView (story : Story) (actorId : ActorId) (viewedAtMs : Int64) :
    Except StoryError Story := do
  ensure (¬ (story.expiresAtMs < viewedAtMs ∧ ¬ story.pinnedToProfile)) (.expired story.id)
  let view := match story.views[actorId]? with
    | some view => { view with viewedAtMs := min view.viewedAtMs viewedAtMs }
    | none => { actorId, viewedAtMs, reaction := none, forwarded := false }
  return { story with views := story.views.insert actorId view }

def react (story : Story) (actorId : ActorId) (reaction : Option String) :
    Except StoryError Story := do
  let view ← okOr story.views[actorId]? (.viewerNotFound actorId)
  return { story with views := story.views.insert actorId { view with reaction } }

end Story

/-! ## Bots -/

structure BotCommand where
  command : String
  description : String
  scopes : BTreeSet String := ∅
  deriving DecidableEq

structure BotProfile where
  actorId : ActorId
  description : String
  about : String
  commands : List BotCommand
  inlineModeEnabled : Bool
  inlinePlaceholder : Option String
  groupsAllowed : Bool
  privacyMode : Bool
  miniAppId : Option String
  paymentProviderIds : List String
  businessMode : Bool
  deriving DecidableEq

structure BotInvocation where
  id : String
  botId : ActorId
  senderId : ActorId
  conversationId : ConversationId
  command : Option String
  text : FormattedText
  replyToMessageId : Option String
  metadata : BTreeMap String String := ∅
  createdAtMs : Int64
  deriving DecidableEq

inductive BotExecutionState where
  | queued | running | waitingForApproval | completed | failed | cancelled
  deriving DecidableEq, Repr

structure BotExecution where
  id : String
  botId : ActorId
  invocationId : String
  state : BotExecutionState
  startedAtMs : Option Int64
  finishedAtMs : Option Int64
  error : Option String
  deriving DecidableEq, Repr

inductive BotError where
  | invalidBotId
  | botNotFound (id : ActorId)
  | invalidCommand (command : String)
  | emptyInvocation
  | executionNotFound (id : String)
  deriving DecidableEq, Repr

structure BotRegistry where
  bots : BTreeMap ActorId BotProfile := ∅
  executions : BTreeMap String BotExecution := ∅
  deriving DecidableEq

def validateCommand (command : BotCommand) : Except BotError Unit :=
  let value := command.command.toList.dropWhile fun c ↦ c == '/'
  ensure (¬ (value.isEmpty ∨ 32 < Text.len (String.ofList value) ∨
      ¬ value.all fun c ↦ Text.isAsciiLowercase c || Text.isAsciiDigit c || c == '_'))
    (.invalidCommand command.command)

namespace BotRegistry

def register (registry : BotRegistry) (profile : BotProfile) : Except BotError BotRegistry := do
  ensure (ActorId.isValid profile.actorId) .invalidBotId
  profile.commands.forM validateCommand
  return { registry with bots := registry.bots.insert profile.actorId profile }

def beginExecution (registry : BotRegistry) (invocation : BotInvocation) (nowMs : Int64) :
    Except BotError (BotRegistry × BotExecution) := do
  let profile ← okOr registry.bots[invocation.botId]? (.botNotFound invocation.botId)
  ensure (¬ (invocation.command.isSome ∧ profile.privacyMode ∧
    Text.isBlank invocation.text.text)) .emptyInvocation
  let execution : BotExecution :=
    { id := "bot-execution:" ++ invocation.id, botId := invocation.botId
      invocationId := invocation.id, state := .running, startedAtMs := some nowMs
      finishedAtMs := none, error := none }
  return ({ registry with executions := registry.executions.insert execution.id execution },
    execution)

def finishExecution (registry : BotRegistry) (executionId : String) (success : Bool)
    (nowMs : Int64) (error : Option String) : Except BotError BotRegistry := do
  let execution ← okOr registry.executions[executionId]? (.executionNotFound executionId)
  let execution := { execution with
    state := if success then .completed else .failed
    finishedAtMs := some nowMs
    error }
  return { registry with executions := registry.executions.insert executionId execution }

end BotRegistry

/-! ## Mini apps -/

inductive MiniAppPermission where
  | identity | theme | clipboardRead | clipboardWrite | camera | microphone | location
  | contacts | files | notifications | haptics | payments | openExternal | sendMessage
  | readConversation | serviceCall
  deriving DecidableEq, Repr

structure MiniAppManifest where
  id : String
  name : String
  version : String
  description : String
  iconUrl : Option String
  startUrl : String
  allowedOrigins : List String
  requestedPermissions : List MiniAppPermission
  botActorId : Option ActorId
  verified : Bool
  deriving DecidableEq, Repr

structure MiniAppGrant where
  miniAppId : String
  actorId : ActorId
  permissions : List MiniAppPermission
  grantedAtMs : Int64
  expiresAtMs : Option Int64
  deriving DecidableEq, Repr

structure MiniAppGrantKey where
  miniAppId : String
  actorId : ActorId
  deriving DecidableEq, Repr

instance : Ord MiniAppGrantKey :=
  ⟨compareLex (compareOn MiniAppGrantKey.miniAppId) (compareOn MiniAppGrantKey.actorId)⟩

instance : TransOrd MiniAppGrantKey :=
  inferInstanceAs (TransCmp (compareLex _ _))

instance : LawfulEqOrd MiniAppGrantKey where
  compare_self {a} := by
    have happ : compare a.miniAppId a.miniAppId = .eq := ReflOrd.compare_self
    have hactor : compare a.actorId a.actorId = .eq := ReflOrd.compare_self
    exact Ordering.then_eq_eq.mpr ⟨happ, hactor⟩
  eq_of_compare {a b} h := by
    obtain ⟨happ, hactor⟩ := Ordering.then_eq_eq.mp h
    have hid : a.miniAppId = b.miniAppId := LawfulEqOrd.eq_of_compare happ
    have hact : a.actorId = b.actorId := LawfulEqOrd.eq_of_compare hactor
    cases a
    cases b
    simp_all

structure MiniAppSession where
  id : String
  miniAppId : String
  actorId : ActorId
  conversationId : Option ConversationId
  startParameter : Option String
  grantedPermissions : List MiniAppPermission
  openedAtMs : Int64
  expiresAtMs : Int64
  deriving DecidableEq, Repr

inductive MiniAppServiceCallMode where
  | voice | text | hybrid
  deriving DecidableEq, Repr

inductive MiniAppServiceCallState where
  | connecting | active | held | ended | failed
  deriving DecidableEq, Repr

inductive MiniAppServiceCallInput where
  | dtmf (digits : String)
  | speechTranscript (text : String) (isFinal : Bool) (confidenceBps : Option UInt16)
  | chatText (text : String)
  deriving DecidableEq, Repr

inductive MiniAppRequest where
  | ready | expand | close
  | setHeaderColor (value : String)
  | setBackgroundColor (value : String)
  | requestTheme | requestViewport | requestIdentity | requestLocation | requestContact
  | requestWriteAccess | readClipboard
  | writeClipboard (text : String)
  | openExternal (url : String)
  | openInvoice (invoiceId : String)
  | sendData (data : String)
  | sendMessage (text : String)
  | haptic (kind : String)
  | startServiceCall (callId : MiniAppServiceCallId) (mode : MiniAppServiceCallMode)
  | submitServiceCallInput (callId : MiniAppServiceCallId) (input : MiniAppServiceCallInput)
  | endServiceCall (callId : MiniAppServiceCallId)
  deriving DecidableEq, Repr

inductive MiniAppResponse where
  | ok
  | error (code message : String)
  | theme (colorScheme : String) (values : List (String × String))
  | viewport (width height stableHeight : F64) (expanded : Bool)
  | identity (actorId : ActorId) (displayName : String) (username : Option String)
  | location (latitude longitude : F64)
  | contact (actorId : Option ActorId) (displayName : String)
  | clipboard (text : Option String)
  | invoiceStatus (invoiceId status : String)
  | serviceCallStatus (callId : MiniAppServiceCallId) (state : MiniAppServiceCallState)
  deriving DecidableEq, Repr

namespace MiniAppRequest

def requiredPermissions : MiniAppRequest → List MiniAppPermission
  | .requestIdentity => [.identity]
  | .requestLocation => [.location]
  | .requestContact => [.contacts]
  | .requestWriteAccess => [.sendMessage]
  | .readClipboard => [.clipboardRead]
  | .writeClipboard _ => [.clipboardWrite]
  | .openExternal _ => [.openExternal]
  | .openInvoice _ => [.payments]
  | .sendMessage _ | .sendData _ => [.sendMessage]
  | .haptic _ => [.haptics]
  | .startServiceCall _ mode =>
      .serviceCall :: (if mode = .voice ∨ mode = .hybrid then [.microphone] else [])
  | .submitServiceCallInput _ input =>
      .serviceCall :: (match input with
        | .speechTranscript .. => [.microphone]
        | _ => [])
  | .endServiceCall _ => [.serviceCall]
  | .ready | .expand | .close | .setHeaderColor _ | .setBackgroundColor _ | .requestTheme
  | .requestViewport => []

def requiredPermission (request : MiniAppRequest) : Option MiniAppPermission :=
  request.requiredPermissions.head?

def isAnsweredLocally : MiniAppRequest → Bool
  | .ready | .expand | .close | .setHeaderColor _ | .setBackgroundColor _ => true
  | _ => false

end MiniAppRequest

end Fabushi.Messaging
