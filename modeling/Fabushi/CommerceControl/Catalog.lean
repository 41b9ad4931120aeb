import Fabushi.Library.Bytes
import Fabushi.Library.Result

/-!
# The product catalog

A draft of a product is checked, its payment rails are normalised, and every rail gets a
binding to a product of the provider.
-/

namespace Fabushi.CommerceControl

open Result

def thirtyDaysSeconds : Int64 := 2592000
def maxPriceMinor : Int64 := 100000000000

structure DeveloperProductDraft where
  sku : String
  displayName : String
  description : String
  productKind : String
  entitlementCapability : String
  currency : String
  amount : Int64
  taxCode : Option String
  subscriptionPeriodSeconds : Option Int64
  rails : List String
  deriving DecidableEq, Repr

structure ProviderBindingPlan where
  provider : String
  externalProductRef : Option String
  genericProductId : Option String
  syncState : String
  deriving DecidableEq, Repr

structure ProviderConfiguration where
  appleAdvancedCommerceEnabled : Bool
  appleOneTimeGenericProductId : Option String
  appleSubscriptionGenericProductId : Option String
  googleCatalogSyncEnabled : Bool
  deriving DecidableEq, Repr

inductive CatalogError
  | invalidIdentifier
  | invalidProductKind
  | invalidCurrency
  | invalidPrice
  | invalidTaxCode
  | invalidSubscriptionPeriod
  | invalidRail
  | creditsCurrencyMismatch
  deriving DecidableEq, Repr

/-- The bytes of a character outside ASCII are neither letters nor marks, so the characters
decide. -/
def isIdentifier (value : String) : Bool :=
  value ≠ "" && Text.len value ≤ 128 && value.toList.all fun c ↦
    Text.isAsciiAlphanumeric c || c = '-' || c = '_' || c = '.' || c = ':'

def isCurrency (value : String) : Bool :=
  Text.len value = 3 && value.toList.all Text.isAsciiUppercase

/-! ## References -/

def storeChar (c : Char) : Char :=
  let c := if Text.isAsciiUppercase c then Char.ofNat (c.toNat + 32) else c
  if Text.isAsciiAlphanumeric c || c = '_' || c = '.' then c else '_'

def hashStep (state : UInt64) (c : Char) : UInt64 :=
  state * 0x100000001b3 + UInt64.ofNat c.toNat

def hex16 (hash : UInt64) : List Char :=
  (Bytes.encodeHex (Bytes.toBeBytes hash)).toList

/-- The joined identifiers in characters of the store, all of which have one byte. Up to forty
of them are an id when the first one is a letter or a digit; otherwise the first twenty-one
are, with a hash of all of them. -/
def googleProductId (miniAppId sku : String) : String :=
  let value := (miniAppId.toList ++ '.' :: sku.toList).map storeChar
  if value.length ≤ 40 ∧ value.head?.any fun c ↦
      Text.isAsciiLowercase c || Text.isAsciiDigit c then
    String.ofList value
  else
    let hash := value.foldl hashStep 0xcbf29ce484222325
    let start := value.take (40 - 2 - 1 - 16)
    String.ofList (['g', '_'] ++ start ++ '_' :: hex16 hash)

def webReference (miniAppId sku : String) : String :=
  "fabushi." ++ miniAppId ++ "." ++ sku

def merchantReference (miniAppId sku : String) : String :=
  "fabushi.merchant." ++ miniAppId ++ "." ++ sku

/-! ## Drafts -/

def normalizeRail (rail : String) : Except CatalogError String :=
  match Text.trim rail with
  | "apple" => .ok "apple_advanced_commerce"
  | "apple_advanced_commerce" => .ok "apple_advanced_commerce"
  | "google" => .ok "google_play"
  | "google_play" => .ok "google_play"
  | "web" => .ok "web_provider"
  | "web_provider" => .ok "web_provider"
  | "merchant" => .ok "merchant_provider"
  | "merchant_provider" => .ok "merchant_provider"
  | "credits" => .ok "credits"
  | _ => .error .invalidRail

def addRail (rails : List String) (rail : String) : Except CatalogError (List String) := do
  let normalized ← normalizeRail rail
  return if normalized ∈ rails then rails else rails ++ [normalized]

def defaultRails (productKind : String) : Except CatalogError (List String) :=
  if productKind ∈ ["digital_consumable", "digital_durable", "subscription"] then
    .ok ["apple_advanced_commerce", "google_play", "web_provider"]
  else if productKind ∈ ["physical", "service"] then .ok ["merchant_provider", "web_provider"]
  else .error .invalidProductKind

def normalizedRails (input : DeveloperProductDraft) : Except CatalogError (List String) := do
  let defaults ← defaultRails input.productKind
  let source := if input.rails = [] then defaults else input.rails
  source.foldlM addRail []

def taxCodeIsValid (code : String) : Bool :=
  !(Text.isBlank code) && Text.len code ≤ 64 && code.toList.all fun c ↦
    Text.isAsciiAlphanumeric c || c = '-' || c = '_'

def validateProductDraft (input : DeveloperProductDraft) : Except CatalogError Unit := do
  ensure (isIdentifier input.sku ∧ isIdentifier input.entitlementCapability) .invalidIdentifier
  ensure (Text.isBlank input.displayName = false ∧ input.displayName.toList.length ≤ 30)
    .invalidIdentifier
  ensure (input.description.toList.length ≤ 45) .invalidIdentifier
  ensure (input.productKind ∈
    ["digital_consumable", "digital_durable", "subscription", "physical", "service"])
    .invalidProductKind
  ensure (isCurrency input.currency) .invalidCurrency
  ensure (¬ (input.amount ≤ 0 ∨ maxPriceMinor < input.amount)) .invalidPrice
  if input.productKind = "subscription" then
    ensure (input.subscriptionPeriodSeconds = some thirtyDaysSeconds) .invalidSubscriptionPeriod
  else ensure (input.subscriptionPeriodSeconds = none) .invalidSubscriptionPeriod
  ensure (input.taxCode.all taxCodeIsValid) .invalidTaxCode
  let rails ← normalizedRails input
  ensure (¬ ("credits" ∈ rails ∧ input.currency ≠ "FBC")) .creditsCurrencyMismatch

def bindingOf (miniAppId : String) (input : DeveloperProductDraft)
    (configuration : ProviderConfiguration) (rail : String) :
    Except CatalogError ProviderBindingPlan :=
  match rail with
  | "apple_advanced_commerce" =>
      let generic := if input.productKind = "subscription" then
        configuration.appleSubscriptionGenericProductId
        else configuration.appleOneTimeGenericProductId
      let active := configuration.appleAdvancedCommerceEnabled && generic.isSome &&
        input.taxCode.isSome
      .ok { provider := rail, externalProductRef := generic, genericProductId := generic,
            syncState := if active then "active" else "pending_configuration" }
  | "google_play" =>
      .ok { provider := rail,
            externalProductRef := some (googleProductId miniAppId input.sku),
            genericProductId := none,
            syncState := if configuration.googleCatalogSyncEnabled then "pending_sync"
              else "pending_configuration" }
  | "web_provider" =>
      .ok { provider := rail, externalProductRef := some (webReference miniAppId input.sku),
            genericProductId := none, syncState := "active" }
  | "merchant_provider" =>
      .ok { provider := rail, externalProductRef := some (merchantReference miniAppId input.sku),
            genericProductId := none, syncState := "active" }
  | "credits" =>
      .ok { provider := rail, externalProductRef := none, genericProductId := none,
            syncState := "active" }
  | _ => .error .invalidRail

def planProviderBindings (miniAppId : String) (input : DeveloperProductDraft)
    (configuration : ProviderConfiguration) : Except CatalogError (List ProviderBindingPlan) := do
  validateProductDraft input
  ensure (isIdentifier miniAppId) .invalidIdentifier
  let rails ← normalizedRails input
  rails.mapM (bindingOf miniAppId input configuration)

end Fabushi.CommerceControl
