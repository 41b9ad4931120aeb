import Fabushi.Messaging.Identity

/-!
# Money, invoices and payment orders

The records of `payment.rs` together with the arithmetic and the validity checks
that the engine runs on them.
-/

namespace Fabushi.Messaging

open MachineInt

structure Money where
  currency : String
  amountMinor : Int64
  deriving DecidableEq, Repr

namespace Money

/-- The source upper-cases with `str::to_uppercase`. Its only caller passes the
currency of a stored invoice, which is ASCII (`Invoice.isValid`), where the
Unicode and the ASCII mapping agree. -/
def new (currency : String) (amountMinor : Int64) : Money :=
  { currency := Text.toAsciiUppercase currency, amountMinor }

def isValid (money : Money) : Bool :=
  Text.len money.currency == 3 && money.currency.toList.all Text.isAsciiUppercase &&
    0 ≤ money.amountMinor

end Money

structure PriceLine where
  label : String
  amount : Money
  deriving DecidableEq, Repr

inductive InvoiceKind where
  | oneTime | subscription | donation | digitalGoods
  deriving DecidableEq, Repr

structure Invoice where
  id : String
  conversationId : ConversationId
  sellerId : ActorId
  title : String
  description : String
  kind : InvoiceKind
  currency : String
  prices : List PriceLine
  payload : String
  providerId : String
  startParameter : Option String := none
  requestName : Bool := false
  requestEmail : Bool := false
  requestPhone : Bool := false
  requestShippingAddress : Bool := false
  flexibleShipping : Bool := false
  createdAtMs : Int64
  expiresAtMs : Option Int64 := none
  deriving DecidableEq, Repr

namespace Invoice

def checkedTotalMinor (invoice : Invoice) : Option Int64 :=
  invoice.prices.foldlM (fun total line ↦ checkedAdd total line.amount.amountMinor) 0

def totalMinor (invoice : Invoice) : Int64 :=
  invoice.checkedTotalMinor.getD Int64.maxValue

def isValid (invoice : Invoice) : Bool :=
  !Text.isBlank invoice.id && !Text.isBlank invoice.title && Text.len invoice.currency == 3 &&
    !invoice.prices.isEmpty &&
    (invoice.prices.all fun line ↦ line.amount.currency = invoice.currency && line.amount.isValid) &&
    invoice.checkedTotalMinor.any fun total ↦ 0 < total

def isExpiredAt (invoice : Invoice) (now : Int64) : Bool :=
  invoice.expiresAtMs.any fun expiresAtMs ↦ expiresAtMs ≤ now

end Invoice

structure ShippingAddress where
  countryCode : String
  state : String
  city : String
  streetLine1 : String
  streetLine2 : Option String
  postalCode : String
  deriving DecidableEq, Repr

structure CustomerInfo where
  name : Option String
  email : Option String
  phone : Option String
  shippingAddress : Option ShippingAddress
  deriving DecidableEq, Repr

inductive PaymentStatus where
  | draft | pending | requiresAction | authorized | paid | refunded | partiallyRefunded
  | cancelled | failed
  deriving DecidableEq, Repr

structure PaymentOrder where
  id : String
  invoiceId : String
  buyerId : ActorId
  status : PaymentStatus
  amount : Money
  customer : Option CustomerInfo
  providerPaymentId : Option String
  providerReceiptUrl : Option String
  createdAtMs : Int64
  updatedAtMs : Int64
  deriving DecidableEq, Repr

/-! ## What a valid invoice guarantees -/

theorem Money.isAsciiUppercase_currency {money : Money} (h : money.isValid = true) :
    ∀ c ∈ money.currency.toList, Text.isAsciiUppercase c = true := by
  simp only [Money.isValid, Bool.and_eq_true, List.all_eq_true] at h
  exact h.1.2

theorem Invoice.isAsciiUppercase_currency {invoice : Invoice} (h : invoice.isValid = true) :
    ∀ c ∈ invoice.currency.toList, Text.isAsciiUppercase c = true := by
  simp only [Invoice.isValid, Bool.and_eq_true, List.all_eq_true, decide_eq_true_eq,
    Bool.not_eq_true', List.isEmpty_eq_false_iff] at h
  obtain ⟨⟨⟨_, hne⟩, hlines⟩, _⟩ := h
  obtain ⟨line, hline⟩ := List.exists_mem_of_ne_nil _ hne
  obtain ⟨hcurrency, hvalid⟩ := hlines line hline
  rw [← hcurrency]
  exact Money.isAsciiUppercase_currency hvalid

/-- The currency of a valid invoice is already in the form `Money.new` produces. -/
theorem Invoice.money_currency {invoice : Invoice} (h : invoice.isValid = true)
    (amountMinor : Int64) : Money.new invoice.currency amountMinor = ⟨invoice.currency, amountMinor⟩ := by
  rw [Money.new, Text.toAsciiUppercase_eq_self (Invoice.isAsciiUppercase_currency h)]

end Fabushi.Messaging

/-!
## Signed settlement events

`settlement.rs`: a payment provider reports a settlement in a signed envelope,
which is accepted inside a replay window around the server's clock. The MAC, the
base64 decoder and the JSON parser are library code and stand as parameters.
-/

namespace Fabushi.Messaging

open MachineInt Result

structure SettlementEvent where
  providerId : String
  eventId : String
  actorId : ActorId
  amount : Money
  providerReference : String
  occurredAtMs : Int64
  deriving DecidableEq, Repr

inductive SettlementError where
  | weakSecret
  | invalidClockSkew
  | timestampOutOfRange
  | invalidSignature
  | invalidEncoding
  | invalidEvent
  | json (message : String)
  deriving DecidableEq, Repr

namespace SettlementEvent

def validate (event : SettlementEvent) : Except SettlementError Unit :=
  ensure (¬ (Text.isBlank event.providerId ∨ Text.isBlank event.eventId ∨
      Text.isBlank event.providerReference ∨ ¬ ActorId.isValid event.actorId ∨
      ¬ event.amount.isValid ∨ event.amount.amountMinor ≤ 0 ∨ event.occurredAtMs ≤ 0))
    .invalidEvent

def idempotencyKey (event : SettlementEvent) : String :=
  "settlement:" ++ event.providerId ++ ":" ++ event.eventId

end SettlementEvent

structure SignedSettlement where
  timestampMs : Int64
  payloadBase64 : String
  signatureHex : String
  deriving DecidableEq, Repr

/-- The library functions behind `verify`: the HMAC check of a message under a
key, the URL-safe base64 decoder and the JSON parser of events. -/
structure SettlementCodec where
  verifyMac : List UInt8 → List UInt8 → List UInt8 → Bool
  decodeBase64Url : List UInt8 → Option (List UInt8)
  parseEvent : List UInt8 → Except String SettlementEvent

structure SettlementVerifier where
  secret : List UInt8
  clockSkewMs : Int64
  secret_long : 32 ≤ secret.length
  clockSkew_pos : 0 < clockSkewMs
  clockSkew_le : clockSkewMs ≤ 3600000

def hexValue (c : Char) : Option UInt8 :=
  let n := c.toNat
  if 48 ≤ n ∧ n ≤ 57 then some (UInt8.ofNat (n - 48))
  else if 65 ≤ n ∧ n ≤ 70 then some (UInt8.ofNat (n - 55))
  else if 97 ≤ n ∧ n ≤ 102 then some (UInt8.ofNat (n - 87))
  else none

def pairBytes : List UInt8 → List UInt8
  | high :: low :: rest => (high * 16 + low) :: pairBytes rest
  | _ => []

def decodeHex (value : String) : Except SettlementError (List UInt8) := do
  ensure (Text.len value = 64) .invalidEncoding
  let digits ← okOr (value.toList.mapM hexValue) .invalidEncoding
  return pairBytes digits

namespace SettlementVerifier

def withClockSkew (secret : List UInt8) (clockSkewMs : Int64) :
    Except SettlementError SettlementVerifier :=
  if hsecret : 32 ≤ secret.length then
    if hskew : 0 < clockSkewMs ∧ clockSkewMs ≤ 3600000 then
      .ok ⟨secret, clockSkewMs, hsecret, hskew.1, hskew.2⟩
    else .error .invalidClockSkew
  else .error .weakSecret

def defaultClockSkewMs : Int64 := 300000

def new (secret : List UInt8) : Except SettlementError SettlementVerifier :=
  withClockSkew secret defaultClockSkewMs

def signedBytes (signed : SignedSettlement) : List UInt8 :=
  Text.bytes (toString signed.timestampMs.toInt) ++ Text.bytes "." ++
    Text.bytes signed.payloadBase64

def verify (codec : SettlementCodec) (verifier : SettlementVerifier) (signed : SignedSettlement)
    (nowMs : Int64) : Except SettlementError SettlementEvent := do
  let age ← okOr (checkedSub nowMs signed.timestampMs) .timestampOutOfRange
  ensure (¬ verifier.clockSkewMs < age.abs) .timestampOutOfRange
  let signature ← decodeHex signed.signatureHex
  ensure (codec.verifyMac verifier.secret (signedBytes signed) signature) .invalidSignature
  let payload ← okOr (codec.decodeBase64Url (Text.bytes signed.payloadBase64)) .invalidEncoding
  let event ← (codec.parseEvent payload).mapError .json
  event.validate
  return event

end SettlementVerifier

end Fabushi.Messaging
