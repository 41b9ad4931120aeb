import Fabushi.Telegram.Srp
import Fabushi.Telegram.Tl

/-!
# The authorization machine

A command is checked against the state and answered with an event. What the server says is
applied to the state; what is only submitted to it leaves the state as it is.
-/

namespace Fabushi.Telegram

open Result

inductive CodeDeliveryType
  | telegramMessage
  | sms
  | call
  | flashCall
  | missedCall
  | email
  | fragment
  | firebaseAndroid
  | firebaseIos
  | unknown
  deriving DecidableEq, Repr

inductive AuthorizationState
  | waitParameters
  | waitPhoneNumber
  | waitCode (phoneNumber : String) (deliveryType : CodeDeliveryType) (codeLength : UInt8)
      (timeoutSeconds : Option UInt32)
  | waitOtherDeviceConfirmation (link : String)
  | waitRegistration (termsOfServiceId : Option String)
  | waitPassword (passwordHint : String) (hasRecoveryEmail : Bool)
      (recoveryEmailPattern : Option String)
  | ready
  | loggingOut
  | closing
  | closed
  deriving DecidableEq, Repr

inductive AuthCommand
  | parametersAccepted
  | submitPhoneNumber (phoneNumber : String)
  | requestQrCode
  | submitCode (code : String)
  | submitRegistration (firstName lastName : String)
  | submitPassword (password : String)
  | requestPasswordRecovery
  | logout
  | close
  | applyRemoteState (state : AuthorizationState)
  deriving DecidableEq, Repr

inductive AuthEvent
  | parametersConfigured
  | phoneNumberSubmitted (phoneNumber : String)
  | qrCodeRequested
  | codeSubmitted
  | registrationSubmitted
  | passwordSubmitted
  | passwordRecoveryRequested
  | logoutRequested
  | closeRequested
  | stateChanged (state : AuthorizationState)
  deriving DecidableEq, Repr

inductive AuthError
  | invalidTransition (state : AuthorizationState) (command : String)
  | invalidPhoneNumber
  | invalidCode
  | invalidRegistrationName
  | invalidPassword
  deriving DecidableEq, Repr

def commandName : AuthCommand → String
  | .parametersAccepted => "parametersAccepted"
  | .submitPhoneNumber _ => "submitPhoneNumber"
  | .requestQrCode => "requestQrCode"
  | .submitCode _ => "submitCode"
  | .submitRegistration _ _ => "submitRegistration"
  | .submitPassword _ => "submitPassword"
  | .requestPasswordRecovery => "requestPasswordRecovery"
  | .logout => "logout"
  | .close => "close"
  | .applyRemoteState _ => "applyRemoteState"

/-- The digits of a number behind a plus sign; everything between them is dropped. -/
def normalizePhoneNumber (value : String) : Except AuthError String :=
  let trimmed := Text.trim value
  let digits := trimmed.toList.filter Text.isAsciiDigit
  if trimmed.toList.head? ≠ some '+' ∨ ¬ (6 ≤ digits.length ∧ digits.length ≤ 20) then
    .error .invalidPhoneNumber
  else .ok (String.ofList ('+' :: digits))

structure AuthorizationMachine where
  state : AuthorizationState
  deriving DecidableEq, Repr

namespace AuthorizationMachine

def decide (machine : AuthorizationMachine) (command : AuthCommand) :
    Except AuthError (List AuthEvent) :=
  match command, machine.state with
  | .parametersAccepted, .waitParameters => .ok [.parametersConfigured]
  | .submitPhoneNumber phoneNumber, .waitPhoneNumber => do
      let normalized ← normalizePhoneNumber phoneNumber
      return [.phoneNumberSubmitted normalized]
  | .requestQrCode, .waitPhoneNumber => .ok [.qrCodeRequested]
  | .submitCode code, .waitCode _ _ _ _ => do
      let code := Text.trim code
      ensure (¬ (code = "" ∨ 16 < Text.len code ∨
        ¬ code.toList.all Text.isAsciiAlphanumeric)) .invalidCode
      return [.codeSubmitted]
  | .submitRegistration firstName lastName, .waitRegistration _ => do
      let firstName := Text.trim firstName
      let lastName := Text.trim lastName
      ensure (¬ (firstName = "" ∨ 64 < Text.len firstName ∨ 64 < Text.len lastName))
        .invalidRegistrationName
      return [.registrationSubmitted]
  | .submitPassword password, .waitPassword _ _ _ => do
      ensure (password ≠ "") .invalidPassword
      return [.passwordSubmitted]
  | .requestPasswordRecovery, .waitPassword _ _ _ => .ok [.passwordRecoveryRequested]
  | .logout, .ready => .ok [.logoutRequested]
  | .close, state =>
      if state = .closing ∨ state = .closed then
        .error (.invalidTransition state (commandName .close))
      else .ok [.closeRequested]
  | .applyRemoteState state, _ => .ok [.stateChanged state]
  | command, state => .error (.invalidTransition state (commandName command))

def apply (machine : AuthorizationMachine) : AuthEvent → AuthorizationMachine
  | .parametersConfigured => { machine with state := .waitPhoneNumber }
  | .logoutRequested => { machine with state := .loggingOut }
  | .closeRequested => { machine with state := .closing }
  | .stateChanged state => { machine with state }
  | .phoneNumberSubmitted _ => machine
  | .qrCodeRequested => machine
  | .codeSubmitted => machine
  | .registrationSubmitted => machine
  | .passwordSubmitted => machine
  | .passwordRecoveryRequested => machine

def execute (machine : AuthorizationMachine) (command : AuthCommand) :
    Except AuthError (List AuthEvent × AuthorizationMachine) := do
  let events ← machine.decide command
  return (events, events.foldl apply machine)

end AuthorizationMachine

end Fabushi.Telegram

/-!
## Requests of an authorization

The builders of `auth.sendCode`, `auth.signIn` and `auth.checkPassword`. Each checks its
values and then writes them.
-/

namespace Fabushi.Telegram

open Effects Result Wire

def authSendCodeConstructor : UInt32 := 0xa677244f
def codeSettingsConstructor : UInt32 := 0xad253d78
def authSignInConstructor : UInt32 := 0x8d52a951
def authCheckPasswordConstructor : UInt32 := 0xd18b4d16
def inputCheckPasswordSrpConstructor : UInt32 := 0xd27ff082

inductive ApiRequestError
  | invalidApiId
  | emptyField (field : String)
  | invalidPhoneNumber
  | invalidPhoneCode
  | tl (error : TlError)
  /-- Of the errors of a proof only the codec's can come up in a builder. -/
  | srp (error : TlError)
  deriving DecidableEq

def requireNonempty (value field : String) : Except ApiRequestError Unit :=
  if Text.isBlank value then .error (.emptyField field) else .ok ()

def validateCredentials (apiId : Int32) (apiHash : String) : Except ApiRequestError Unit := do
  ensure (¬ apiId.toInt ≤ 0) .invalidApiId
  requireNonempty apiHash "api_hash"

/-- The first byte is a plus sign and all others are digits: a byte of a character outside
ASCII is none, so the characters decide. -/
def validatePhoneNumber (phoneNumber : String) : Except ApiRequestError Unit :=
  ensure (¬ (Text.len phoneNumber < 8 ∨ phoneNumber.toList.head? ≠ some '+' ∨
    ¬ (phoneNumber.toList.drop 1).all Text.isAsciiDigit)) .invalidPhoneNumber

def requestBytes (writer : TlWriter PUnit) : Except ApiRequestError (List UInt8) := do
  (result writer []).mapError .tl
  return after writer []

def buildAuthSendCode (phoneNumber : String) (apiId : Int32) (apiHash : String) :
    Except ApiRequestError (List UInt8) := do
  validateCredentials apiId apiHash
  validatePhoneNumber phoneNumber
  requestBytes do
    TlWriter.writeU32 authSendCodeConstructor
    TlWriter.writeString phoneNumber
    TlWriter.writeI32 apiId
    TlWriter.writeString apiHash
    TlWriter.writeU32 codeSettingsConstructor
    TlWriter.writeI32 0

def buildAuthSignIn (phoneNumber phoneCodeHash phoneCode : String) :
    Except ApiRequestError (List UInt8) := do
  validatePhoneNumber phoneNumber
  requireNonempty phoneCodeHash "phone_code_hash"
  ensure (¬ (phoneCode = "" ∨ ¬ phoneCode.toList.all Text.isAsciiDigit)) .invalidPhoneCode
  requestBytes do
    TlWriter.writeU32 authSignInConstructor
    TlWriter.writeI32 1
    TlWriter.writeString phoneNumber
    TlWriter.writeString phoneCodeHash
    TlWriter.writeString phoneCode

def PasswordSrpProof.encodeInputCheckPassword (proof : PasswordSrpProof) :
    TlWriter PUnit := do
  TlWriter.writeU32 inputCheckPasswordSrpConstructor
  TlWriter.writeI64 proof.srpId
  TlWriter.writeBytes proof.a.toList
  TlWriter.writeBytes proof.m1.toList

def buildAuthCheckPassword (proof : PasswordSrpProof) : Except ApiRequestError (List UInt8) := do
  (result proof.encodeInputCheckPassword []).mapError .srp
  let encodedProof := after proof.encodeInputCheckPassword []
  return Radix.toLe 4 authCheckPasswordConstructor.toNat ++ encodedProof

end Fabushi.Telegram
