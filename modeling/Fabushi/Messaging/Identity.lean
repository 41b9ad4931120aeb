import Fabushi.Library.OrderedMap
import Fabushi.Library.Text
import Fabushi.Library.MachineInt
import Fabushi.Library.Result

/-!
# Identifiers, actors and participants

The transparent string newtypes of the messaging crate share one definition,
indexed by what they identify, so that identifiers of different kinds cannot be
confused and the ordering of map keys is set up once.
-/

namespace Fabushi.Messaging

open Std

inductive IdKind where
  | actor | conversation | message | clientMessage | story | walletAccount | blob
  | serviceCall
  deriving DecidableEq, Repr

/-- A string newtype; keys are ordered as their strings are. -/
structure Id (kind : IdKind) where
  value : String
  deriving DecidableEq, Repr

theorem value_inj {kind : IdKind} {a b : Id kind} : a.value = b.value ↔ a = b := by
  cases a
  cases b
  exact ⟨congrArg _, congrArg _⟩

instance {kind : IdKind} : LawfulBEq (Id kind) :=
  inferInstance

instance {kind : IdKind} : Ord (Id kind) := ⟨fun a b ↦ compare a.value b.value⟩

instance {kind : IdKind} : TransOrd (Id kind) where
  eq_swap := OrientedOrd.eq_swap (α := String)
  isLE_trans := TransOrd.isLE_trans (α := String)

instance {kind : IdKind} : LawfulEqOrd (Id kind) where
  compare_self := ReflOrd.compare_self (α := String)
  eq_of_compare {a b} h := by
    cases a
    cases b
    exact congrArg _ (LawfulEqOrd.eq_of_compare (α := String) h)

abbrev ActorId := Id .actor
abbrev ConversationId := Id .conversation
abbrev MessageId := Id .message
abbrev ClientMessageId := Id .clientMessage
abbrev StoryId := Id .story
abbrev WalletAccountId := Id .walletAccount
abbrev BlobId := Id .blob
abbrev MiniAppServiceCallId := Id .serviceCall

def Id.isValidUpTo {kind : IdKind} (limit : ℕ) (id : Id kind) : Bool :=
  let value := Text.trim id.value
  value != "" && Text.len value ≤ limit

def ActorId.isValid (id : ActorId) : Bool :=
  id.isValidUpTo 160

def ConversationId.isValid (id : ConversationId) : Bool :=
  id.isValidUpTo 200

inductive ActorKind where
  | human | assistant | bot | service
  deriving DecidableEq, Repr

inductive PresenceStatus where
  | offline | online | away | doNotDisturb
  deriving DecidableEq, Repr

structure Presence where
  status : PresenceStatus := .offline
  lastSeenAtMs : Option Int64 := none
  statusText : Option String := none
  deriving DecidableEq, Repr

structure Actor where
  id : ActorId
  kind : ActorKind
  displayName : String
  username : Option String := none
  avatarUrl : Option String := none
  bio : Option String := none
  capabilities : List String := []
  presence : Presence := {}
  verified : Bool := false
  deriving DecidableEq, Repr

inductive ParticipantRole where
  | owner | admin | member | restricted
  deriving DecidableEq, Repr

structure Participant where
  actorId : ActorId
  role : ParticipantRole
  joinedAtMs : Int64
  mutedUntilMs : Option Int64 := none
  deriving DecidableEq, Repr

end Fabushi.Messaging
