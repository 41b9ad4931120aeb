import Fabushi.Library.Result
import Fabushi.Library.Runs

/-!
# The transport session of a runtime client

A request takes the session out of its client, talks to the network without the lock and
puts the session back in a section of its own. A bootstrap makes a new session without the
lock and stores it. Parameter checks, bodies and the network are inputs of the steps.
-/

namespace Fabushi.TelegramRuntime

open Result

inductive CodeDeliveryType where
  | telegramMessage | sms | call | flashCall | missedCall | email | fragment
  | firebaseAndroid | firebaseIos | unknown
  deriving DecidableEq, Repr

inductive AuthorizationState where
  | waitParameters
  | waitPhoneNumber
  | waitCode (phoneNumber : String) (deliveryType : CodeDeliveryType) (codeLength : UInt8)
      (timeoutSeconds : Option UInt32)
  | waitOtherDeviceConfirmation (link : String)
  | waitRegistration (termsOfServiceId : Option String)
  | waitPassword (passwordHint : String) (hasRecoveryEmail : Bool)
      (recoveryEmailPattern : Option String)
  | ready
  | loggingOut
  | closing
  | closed
  deriving DecidableEq, Repr

inductive RuntimeError where
  | clientNotFound
  | authorization (message : String)
  | network (message : String)
  | invalidParameter (name : String)
  | transportNotConnected
  | protocol (message : String)
  | authContextMissing
  | remoteRpc (code : Int32) (message : String)
  deriving DecidableEq, Repr

structure EstablishedSession (Contents : Type) where
  serial : ℕ
  contents : Contents
  deriving DecidableEq, Repr

structure AuthContext (Srp : Type) where
  phoneNumber : String
  phoneCodeHash : String
  passwordSrp : Option Srp
  deriving DecidableEq, Repr

structure UpdateState where
  pts : Int32
  qts : Int32
  date : Int32
  seq : Int32
  unreadCount : Int32
  deriving DecidableEq

structure RuntimeClient (Contents Directory Srp : Type) where
  authorization : AuthorizationState := .waitParameters
  transport : Option (EstablishedSession Contents) := none
  serverDirectory : Option Directory := none
  authContext : Option (AuthContext Srp) := none
  updateState : Option UpdateState := none

/-! ## Requests that borrow the session -/

inductive SentCodeDelivery where
  | app (length : Int32)
  | sms (length : Int32)
  | call (length : Int32)
  | flashCall (pattern : String)
  | missedCall (start : String) (length : Int32)
  | email (pattern : String) (length : Int32)
  | setUpEmailRequired
  | fragmentSms (url : String) (length : Int32)
  | firebaseSms (length : Int32)
  | smsWord (beginning : Option String)
  | smsPhrase (beginning : Option String)
  deriving DecidableEq, Repr

def codeLength (length : Int32) : UInt8 :=
  if 0 ≤ length.toInt ∧ length.toInt < 256 then UInt8.ofNat length.toInt.toNat else 0

def deliveryState : SentCodeDelivery → CodeDeliveryType × UInt8
  | .app length => (.telegramMessage, codeLength length)
  | .sms length => (.sms, codeLength length)
  | .smsWord _ | .smsPhrase _ => (.sms, codeLength 0)
  | .call length => (.call, codeLength length)
  | .flashCall _ => (.flashCall, codeLength 0)
  | .missedCall _ length => (.missedCall, codeLength length)
  | .email _ length => (.email, codeLength length)
  | .setUpEmailRequired => (.email, codeLength 0)
  | .fragmentSms _ length => (.fragment, codeLength length)
  | .firebaseSms length => (.firebaseAndroid, codeLength length)

inductive SentCodeResult where
  | code (delivery : SentCodeDelivery) (phoneCodeHash : String) (timeoutSeconds : Option Int32)
  | success
  | paymentRequired

inductive SubmitCodeOutcome (Srp : Type) where
  | ready
  | registration
  | password (hasRecovery : Bool) (hint emailUnconfirmedPattern : Option String)
      (srp : Option Srp)
  | remoteError (code : Int32) (message : String)

inductive Borrower where
  | initializeConnection
  | sendAuthenticationCode (phoneNumber : String)
  | submitAuthenticationCode
  | submitAuthenticationPassword
  | submitRegistration
  | beginUpdateSync
  deriving DecidableEq, Repr

def Borrower.Outcome (Directory Srp : Type) : Borrower → Type
  | .initializeConnection => Directory
  | .sendAuthenticationCode _ => SentCodeResult
  | .submitAuthenticationCode => SubmitCodeOutcome Srp
  | .submitAuthenticationPassword => Unit
  | .submitRegistration => Unit
  | .beginUpdateSync => UpdateState

variable {Contents Directory Srp : Type}

def RuntimeClient.applyRemoteState (client : RuntimeClient Contents Directory Srp)
    (state : AuthorizationState) : RuntimeClient Contents Directory Srp :=
  { client with authorization := state }

def RuntimeClient.authorized (client : RuntimeClient Contents Directory Srp) :
    RuntimeClient Contents Directory Srp :=
  { client.applyRemoteState .ready with authContext := none }

def RuntimeClient.conclude (client : RuntimeClient Contents Directory Srp) :
    (request : Borrower) → request.Outcome Directory Srp →
      RuntimeClient Contents Directory Srp × Except RuntimeError Unit
  | .initializeConnection, (directory : Directory) =>
      ({ client with serverDirectory := some directory }, .ok ())
  | .sendAuthenticationCode phoneNumber, (result : SentCodeResult) =>
      match result with
      | .code delivery phoneCodeHash timeoutSeconds =>
          let (deliveryType, length) := deliveryState delivery
          -- a negative timeout is none
          let timeout := timeoutSeconds.bind fun seconds ↦
            if 0 ≤ seconds.toInt then some (UInt32.ofNat seconds.toInt.toNat) else none
          let context := { phoneNumber, phoneCodeHash, passwordSrp := none }
          ({ client.applyRemoteState (.waitCode phoneNumber deliveryType length timeout) with
              authContext := some context }, .ok ())
      | .success => (client.authorized, .ok ())
      | .paymentRequired => (client, .ok ())
  | .submitAuthenticationCode, (outcome : SubmitCodeOutcome Srp) =>
      match outcome with
      | .password hasRecovery hint emailUnconfirmedPattern srp =>
          match srp, client.authContext with
          | none, _ =>
              (client, .error (.protocol "account.Password omitted current SRP parameters"))
          | some _, none => (client, .error .authContextMissing)
          | some srp, some context =>
              let context := { context with passwordSrp := some srp }
              let state := .waitPassword (hint.getD "") hasRecovery emailUnconfirmedPattern
              ({ client.applyRemoteState state with authContext := some context }, .ok ())
      | .ready => (client.authorized, .ok ())
      | .registration => (client.applyRemoteState (.waitRegistration none), .ok ())
      | .remoteError code message => (client, .error (.remoteRpc code message))
  | .submitAuthenticationPassword, () => (client.authorized, .ok ())
  | .submitRegistration, () => (client.authorized, .ok ())
  | .beginUpdateSync, (state : UpdateState) =>
      ({ client with updateState := some state }, .ok ())

/-! ## The steps of concurrent requests -/

inductive Request where
  | bootstrapTransport
  | borrow (request : Borrower)
  deriving DecidableEq, Repr

def Request.prepare (client : Option (RuntimeClient Contents Directory Srp))
    (parameters body : Except RuntimeError Unit) : Request → Except RuntimeError Unit
  | .bootstrapTransport => do
      let _ ← okOr client .clientNotFound
      parameters
  | .borrow .initializeConnection | .borrow (.sendAuthenticationCode _) => do
      parameters
      body
  | .borrow .submitAuthenticationCode | .borrow .submitRegistration => do
      parameters
      let client ← okOr client .clientNotFound
      let _ ← okOr client.authContext .authContextMissing
      body
  | .borrow .submitAuthenticationPassword => do
      parameters
      let client ← okOr client .clientNotFound
      let _ ← okOr (client.authContext.bind AuthContext.passwordSrp) .authContextMissing
      body
  | .borrow .beginUpdateSync => do
      let client ← okOr client .clientNotFound
      ensure (client.authorization = .ready)
        (.authorization "Telegram account must be authorized before update sync")

inductive Phase (Contents Directory Srp : Type) where
  | called (request : Request)
  | prepared (request : Borrower)
  | connecting
  | connected (contents : Contents)
  | borrowing (request : Borrower) (session : EstablishedSession Contents)
  | returning (request : Borrower) (session : EstablishedSession Contents)
      (operation : Except RuntimeError (request.Outcome Directory Srp))
  | answered (result : Except RuntimeError Unit)

def Phase.session : Phase Contents Directory Srp → Option (EstablishedSession Contents)
  | .borrowing _ session => some session
  | .returning _ session _ => some session
  | _ => none

/-- A client and the requests on it; `installed` counts the sessions stored so far. -/
structure World (Contents Directory Srp : Type) where
  client : Option (RuntimeClient Contents Directory Srp)
  installed : ℕ := 0
  phases : List (Phase Contents Directory Srp) := []

inductive Event (Contents Directory Srp : Type) where
  | call (request : Request)
  | prepare (request : ℕ) (parameters body : Except RuntimeError Unit)
  /-- `establish_auth_key` and the first ping. -/
  | connect (request : ℕ) (connection : Except RuntimeError Contents)
  | take (request : ℕ)
  /-- The exchange changes the session, whatever comes of it. -/
  | exchange (request : ℕ) (contents : Contents)
      (operation : (kind : Borrower) → Except RuntimeError (kind.Outcome Directory Srp))
  /-- The last section: a bootstrap stores its session, others put theirs back. -/
  | finish (request : ℕ)
  /-- `executeAuthorizationCommand`, which leaves the machine in some state. -/
  | authorize (state : AuthorizationState)
  | close

namespace World

variable (world : World Contents Directory Srp)

def setPhase (request : ℕ) (phase : Phase Contents Directory Srp) :
    World Contents Directory Srp :=
  { world with phases := world.phases.set request phase }

def take (request : ℕ) (kind : Borrower) : World Contents Directory Srp :=
  match world.client with
  | none => world.setPhase request (.answered (.error .clientNotFound))
  | some client =>
      match client.transport with
      | none => world.setPhase request (.answered (.error .transportNotConnected))
      | some session =>
          { world with client := some { client with transport := none } }.setPhase request
            (.borrowing kind session)

def install (request : ℕ) (contents : Contents) : World Contents Directory Srp :=
  match world.client with
  | none => world.setPhase request (.answered (.error .clientNotFound))
  | some client =>
      let session := { serial := world.installed + 1, contents }
      { world with
        client := some { client with transport := some session, serverDirectory := none }
        installed := world.installed + 1 }.setPhase request (.answered (.ok ()))

def putBack (request : ℕ) (kind : Borrower) (session : EstablishedSession Contents)
    (operation : Except RuntimeError (kind.Outcome Directory Srp)) :
    World Contents Directory Srp :=
  match world.client with
  | none => world.setPhase request (.answered (.error .clientNotFound))
  | some client =>
      let client := { client with transport := some session }
      match operation with
      | .error e => { world with client := some client }.setPhase request (.answered (.error e))
      | .ok outcome =>
          { world with client := some (client.conclude kind outcome).1 }.setPhase request
            (.answered (client.conclude kind outcome).2)

def next : Event Contents Directory Srp → World Contents Directory Srp
  | .call request => { world with phases := world.phases ++ [.called request] }
  | .prepare request parameters body =>
      match world.phases[request]? with
      | some (.called kind) =>
          match kind.prepare world.client parameters body, kind with
          | .error e, _ => world.setPhase request (.answered (.error e))
          | .ok _, .bootstrapTransport => world.setPhase request .connecting
          | .ok _, .borrow kind => world.setPhase request (.prepared kind)
      | _ => world
  | .connect request connection =>
      match world.phases[request]? with
      | some .connecting =>
          match connection with
          | .ok contents => world.setPhase request (.connected contents)
          | .error e => world.setPhase request (.answered (.error e))
      | _ => world
  | .take request =>
      match world.phases[request]? with
      | some (.prepared kind) => world.take request kind
      | _ => world
  | .exchange request contents operation =>
      match world.phases[request]? with
      | some (.borrowing kind session) =>
          world.setPhase request (.returning kind { session with contents } (operation kind))
      | _ => world
  | .finish request =>
      match world.phases[request]? with
      | some (.connected contents) => world.install request contents
      | some (.returning kind session operation) => world.putBack request kind session operation
      | _ => world
  | .authorize state =>
      { world with client := world.client.map fun client ↦ client.applyRemoteState state }
  | .close => { world with client := none }

end World

end Fabushi.TelegramRuntime
