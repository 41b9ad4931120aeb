import Fabushi.Messaging.Identity
import Fabushi.Library.Bytes
import Fabushi.Library.Sha256
import Fabushi.Library.Runs

/-!
# Access tokens

The registry of `access.rs`: a grant is bound to an actor, a device, a session and
scopes, and is found by the SHA-256 digest of its current token. Tokens themselves are
never stored.
-/

namespace Fabushi.Messaging

open Result

inductive AccessScope where
  | messaging | calls | blobsRead | blobsWrite | payments | miniApps | administration
  deriving DecidableEq, Repr

structure AccessGrant where
  id : String
  actorId : ActorId
  deviceId : String
  sessionId : String
  scopes : Finset AccessScope
  issuedAtMs : Int64
  expiresAtMs : Option Int64
  revokedAtMs : Option Int64
  deriving DecidableEq

namespace AccessGrant

def activeAt (grant : AccessGrant) (nowMs : Int64) : Bool :=
  grant.revokedAtMs.isNone && grant.expiresAtMs.all fun expiresAtMs ↦ nowMs < expiresAtMs

def allows (grant : AccessGrant) (scope : AccessScope) : Bool :=
  scope ∈ grant.scopes || .administration ∈ grant.scopes

end AccessGrant

structure AuthorizedAccess where
  grantId : String
  actorId : ActorId
  deviceId : String
  sessionId : String
  scopes : Finset AccessScope
  deriving DecidableEq

structure IssuedAccessToken where
  token : String
  grant : AccessGrant
  deriving DecidableEq

inductive AccessError where
  | weakToken
  | invalidGrant
  | emptyScopes
  | duplicateGrant
  | unauthorized
  | identityMismatch
  | expiredOrRevoked
  | scopeDenied (scope : AccessScope)
  | grantNotFound (grantId : String)
  | random (message : String)
  deriving DecidableEq

/-! ## Tokens -/

abbrev Token := List UInt8

def tokenBytes : ℕ := 32

def tokenPrefix : String := "fmsg_"

def validateGrant (grant : AccessGrant) : Except AccessError Unit := do
  ensure (¬ (Text.isBlank grant.id ∨ Text.isBlank grant.deviceId ∨ Text.isBlank grant.sessionId ∨
    ¬ ActorId.isValid grant.actorId)) .invalidGrant
  ensure (grant.scopes ≠ ∅) .emptyScopes
  ensure (¬ grant.expiresAtMs.any fun expiresAtMs ↦ expiresAtMs ≤ grant.issuedAtMs) .invalidGrant

def validateToken (token : Token) : Except AccessError Unit :=
  ensure (tokenBytes ≤ token.length) .weakToken

abbrev RandomSource := Except String (Vector UInt8 tokenBytes)

def randomToken (random : RandomSource) : Except AccessError String := do
  let bytes ← random.mapError .random
  return tokenPrefix ++ Bytes.encodeBase64UrlNoPad bytes.toList

def tokenHash (token : Token) : List UInt8 :=
  Sha256.digest token

/-- The comparison looks at every byte. -/
def constantTimeEq (left right : List UInt8) : Bool :=
  if left.length ≠ right.length then false
  else (left.zip right).foldl (fun difference (l, r) ↦ difference ||| (l ^^^ r)) 0 == 0

/-! ## The registry -/

structure SecretGrant where
  tokenSha256 : List UInt8
  grant : AccessGrant

structure AccessTokenRegistry where
  grants : List SecretGrant := []

namespace AccessTokenRegistry

def issue (registry : AccessTokenRegistry) (token : Token) (grant : AccessGrant) :
    Except AccessError AccessTokenRegistry := do
  validateToken token
  validateGrant grant
  let tokenSha256 := tokenHash token
  ensure (¬ registry.grants.any fun existing ↦
    existing.grant.id = grant.id || constantTimeEq existing.tokenSha256 tokenSha256) .duplicateGrant
  return { grants := registry.grants ++ [{ tokenSha256, grant }] }

def issueRandom (registry : AccessTokenRegistry) (grant : AccessGrant) (random : RandomSource) :
    Except AccessError (AccessTokenRegistry × IssuedAccessToken) := do
  let token ← randomToken random
  let registry ← registry.issue (Text.bytes token) grant
  return (registry, { token, grant })

def authorize (registry : AccessTokenRegistry) (token : Token) (actorId : ActorId)
    (deviceId sessionId : String) (scope : AccessScope) (nowMs : Int64) :
    Except AccessError AuthorizedAccess := do
  validateToken token
  let tokenSha256 := tokenHash token
  let matching ← okOr (registry.grants.find? fun entry ↦
    constantTimeEq entry.tokenSha256 tokenSha256) .unauthorized
  ensure (¬ (matching.grant.actorId ≠ actorId ∨ matching.grant.deviceId ≠ deviceId ∨
    matching.grant.sessionId ≠ sessionId)) .identityMismatch
  ensure (matching.grant.activeAt nowMs) .expiredOrRevoked
  ensure (matching.grant.allows scope) (.scopeDenied scope)
  return { grantId := matching.grant.id, actorId := matching.grant.actorId
           deviceId := matching.grant.deviceId, sessionId := matching.grant.sessionId
           scopes := matching.grant.scopes }

def updateGrant (registry : AccessTokenRegistry) (grantId : String)
    (f : SecretGrant → SecretGrant) : AccessTokenRegistry :=
  match registry.grants.findIdx? fun entry ↦ entry.grant.id = grantId with
  | some index => { grants := registry.grants.modify index f }
  | none => registry

def findGrant (registry : AccessTokenRegistry) (grantId : String) :
    Except AccessError SecretGrant :=
  okOr (registry.grants.find? fun entry ↦ entry.grant.id = grantId) (.grantNotFound grantId)

def revoke (registry : AccessTokenRegistry) (grantId : String) (nowMs : Int64) :
    Except AccessError AccessTokenRegistry := do
  let _ ← registry.findGrant grantId
  return registry.updateGrant grantId fun entry ↦
    { entry with grant := { entry.grant with revokedAtMs := some nowMs } }

def rotateRandom (registry : AccessTokenRegistry) (grantId : String) (oldToken : Token)
    (random : RandomSource) : Except AccessError (AccessTokenRegistry × IssuedAccessToken) := do
  validateToken oldToken
  let oldHash := tokenHash oldToken
  let entry ← registry.findGrant grantId
  ensure (constantTimeEq entry.tokenSha256 oldHash) .unauthorized
  let token ← randomToken random
  let registry := registry.updateGrant grantId fun entry ↦
    { entry with tokenSha256 := tokenHash (Text.bytes token) }
  return (registry, { token, grant := entry.grant })

def grant (registry : AccessTokenRegistry) (grantId : String) : Option AccessGrant :=
  (registry.grants.find? fun entry ↦ entry.grant.id = grantId).map fun entry ↦ entry.grant

def activeGrantsForActor (registry : AccessTokenRegistry) (actorId : ActorId) (nowMs : Int64) :
    List AccessGrant :=
  (registry.grants.map fun entry ↦ entry.grant).filter fun grant ↦
    grant.actorId = actorId && grant.activeAt nowMs

end AccessTokenRegistry

end Fabushi.Messaging
