import Fabushi.Messaging.Conversation

/-!
# Search over actors, conversations and messages

`search.rs`: the index is the list of what was put into it, in key order. How a
text is cut into terms rests on the Unicode tables behind `char::is_alphanumeric`
and `str::to_lowercase` and is a parameter.
-/

namespace Fabushi.Messaging

open Std

inductive SearchScope where
  | global | conversation | contacts | bots | groups | channels | media | files | links
  deriving DecidableEq, Repr

structure SearchQuery where
  text : String
  scope : SearchScope
  conversationId : Option ConversationId
  senderId : Option ActorId
  fromMs : Option Int64
  toMs : Option Int64
  limit : UInt32
  deriving DecidableEq, Repr

inductive SearchResultKind where
  | actor | conversation | message
  deriving DecidableEq, Repr

structure SearchResult where
  kind : SearchResultKind
  id : String
  conversationId : Option ConversationId
  title : String
  snippet : String
  timestampMs : Option Int64
  score : ℕ
  deriving DecidableEq, Repr

structure SearchIndex where
  actors : BTreeMap ActorId Actor := ∅
  conversations : BTreeMap ConversationId Conversation := ∅
  messages : BTreeMap ConversationId (BTreeMap MessageId Message) := ∅

def messageSearchText (message : Message) : String :=
  match message.content with
  | .text text => text.text
  | .photo _ caption _ | .video _ caption _ _ | .animation _ caption | .audio _ caption _ _
  | .voice _ caption _ | .document _ caption => caption.text
  | .contact _ displayName phoneNumber => displayName ++ " " ++ phoneNumber.getD ""
  | .poll question .. => question.text
  | .venue _ _ title address => title ++ " " ++ address
  | .service action text => action ++ " " ++ text.getD ""
  | .invoice invoiceId => invoiceId
  | .miniApp miniAppId title _ => title ++ " " ++ miniAppId
  | _ => ""

def contentMatchesScope (content : MessageContent) : SearchScope → Bool
  | .media => match content with
    | .photo .. | .video .. | .animation .. | .audio .. | .voice .. | .videoNote .. | .sticker .. =>
        true
    | _ => false
  | .files => match content with
    | .document .. => true
    | _ => false
  | .links => match content with
    | .text text => text.entities.any fun entity ↦ match entity.kind with
      | .url | .textUrl _ => true
      | _ => false
    | _ => false
  | _ => true

def scoreTerms (query indexed : BTreeSet String) : ℕ :=
  (query.toList.map fun term ↦
    if indexed.contains term then 10
    else if indexed.toList.any fun candidate ↦ term.toList <:+: candidate.toList then 4
    else 0).sum

namespace SearchIndex

def indexActor (index : SearchIndex) (actor : Actor) : SearchIndex :=
  { index with actors := index.actors.insert actor.id actor }

def indexConversation (index : SearchIndex) (conversation : Conversation) : SearchIndex :=
  { index with conversations := index.conversations.insert conversation.id conversation }

def indexMessage (index : SearchIndex) (message : Message) : SearchIndex :=
  { index with
    messages := BTreeMap.upsert index.messages message.conversationId ∅ fun messages ↦
      messages.insert message.id message }

variable (tokenize : String → BTreeSet String)

def actorText (actor : Actor) : String :=
  actor.displayName ++ (actor.username.map fun username ↦ " " ++ username).getD "" ++
    (actor.bio.map fun bio ↦ " " ++ bio).getD ""

def actorResults (index : SearchIndex) (terms : BTreeSet String) (scope : SearchScope) :
    List SearchResult :=
  index.actors.values.filterMap fun actor ↦
    let allowed : Bool := match scope with
      | .contacts => actor.kind = .human
      | .bots => actor.kind = .bot || actor.kind = .assistant
      | _ => true
    let score := scoreTerms terms (tokenize (actorText actor))
    if allowed ∧ 0 < score then
      some { kind := .actor, id := actor.id.value, conversationId := none
             title := actor.displayName, snippet := actor.bio.getD ""
             timestampMs := actor.presence.lastSeenAtMs, score }
    else none

def conversationResults (index : SearchIndex) (terms : BTreeSet String) (scope : SearchScope) :
    List SearchResult :=
  index.conversations.values.filterMap fun conversation ↦
    let allowed : Bool := match scope with
      | .groups => conversation.kind = .group
      | .channels => conversation.kind = .channel
      | _ => true
    let score := scoreTerms terms
      (tokenize (conversation.title ++ " " ++ conversation.description.getD ""))
    if allowed ∧ 0 < score then
      some { kind := .conversation, id := conversation.id.value
             conversationId := some conversation.id, title := conversation.title
             snippet := conversation.description.getD ""
             timestampMs := some conversation.updatedAtMs, score }
    else none

def messageResults (index : SearchIndex) (terms : BTreeSet String) (query : SearchQuery) :
    List SearchResult :=
  let messages := index.messages.values.flatMap fun messages ↦ messages.values
  messages.filterMap fun message ↦
    let wanted := (query.conversationId.all fun id ↦ id = message.conversationId) &&
      (query.senderId.all fun id ↦ id = message.senderId) &&
      (query.fromMs.all fun fromMs ↦ fromMs ≤ message.createdAtMs) &&
      (query.toMs.all fun toMs ↦ message.createdAtMs ≤ toMs) &&
      contentMatchesScope message.content query.scope
    let score := scoreTerms terms (tokenize (messageSearchText message))
    if wanted ∧ 0 < score then
      some { kind := .message, id := message.id.value
             conversationId := some message.conversationId
             title := (index.conversations[message.conversationId]?.map fun conversation ↦
               conversation.title).getD message.conversationId.value
             snippet := messageSearchText message
             timestampMs := some message.createdAtMs, score }
    else none

def resultOrder (left right : SearchResult) : Bool :=
  ((compare right.score left.score).then (compare right.timestampMs left.timestampMs)).isLE

def search (index : SearchIndex) (query : SearchQuery) : List SearchResult :=
  let terms := tokenize query.text
  if terms.isEmpty then []
  else
    let actors := match query.scope with
      | .global | .contacts | .bots => index.actorResults tokenize terms query.scope
      | _ => []
    let conversations := match query.scope with
      | .global | .groups | .channels => index.conversationResults tokenize terms query.scope
      | _ => []
    let messages := match query.scope with
      | .global | .conversation | .media | .files | .links =>
          index.messageResults tokenize terms query
      | _ => []
    ((actors ++ conversations ++ messages).mergeSort resultOrder).take (max query.limit.toNat 1)

end SearchIndex

end Fabushi.Messaging
