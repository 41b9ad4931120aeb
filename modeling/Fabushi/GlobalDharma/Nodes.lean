import Fabushi.Library.Result
import Fabushi.Library.Text

/-!
# The nodes a delivery may be sent to

`validate_node` of `global-dharma-core`: the host of an endpoint is held against
`localhost` and, where its text is an address, against the private and local
ranges. The text of an IPv6 host stands in brackets, and no address does.
-/

namespace Fabushi.GlobalDharma

open Result

/-! ## Addresses -/

structure Ipv4Addr where
  a : UInt8
  b : UInt8
  c : UInt8
  d : UInt8
  deriving DecidableEq

structure Ipv6Addr where
  segments : List UInt16
  length_eq : segments.length = 8
  deriving DecidableEq

inductive IpAddr where
  | v4 (address : Ipv4Addr)
  | v6 (address : Ipv6Addr)
  deriving DecidableEq

namespace Ipv4Addr

def isPrivate (ip : Ipv4Addr) : Bool :=
  ip.a = 10 || (ip.a = 172 && 16 ≤ ip.b && ip.b ≤ 31) || (ip.a = 192 && ip.b = 168)

def isLoopback (ip : Ipv4Addr) : Bool :=
  ip.a = 127

def isLinkLocal (ip : Ipv4Addr) : Bool :=
  ip.a = 169 && ip.b = 254

def isBroadcast (ip : Ipv4Addr) : Bool :=
  ip = ⟨255, 255, 255, 255⟩

def isUnspecified (ip : Ipv4Addr) : Bool :=
  ip = ⟨0, 0, 0, 0⟩

def toChars (ip : Ipv4Addr) : List Char :=
  Nat.toDigits 10 ip.a.toNat ++ '.' :: (Nat.toDigits 10 ip.b.toNat ++ '.' ::
    (Nat.toDigits 10 ip.c.toNat ++ '.' :: Nat.toDigits 10 ip.d.toNat))

end Ipv4Addr

namespace Ipv6Addr

def segment (ip : Ipv6Addr) (i : ℕ) : ℕ :=
  (ip.segments[i]?.getD 0).toNat

def isLoopback (ip : Ipv6Addr) : Bool :=
  ip.segments = [0, 0, 0, 0, 0, 0, 0, 1]

def isUnspecified (ip : Ipv6Addr) : Bool :=
  ip.segments = [0, 0, 0, 0, 0, 0, 0, 0]

def isUniqueLocal (ip : Ipv6Addr) : Bool :=
  ip.segment 0 / 2 ^ 9 = 0xfc00 / 2 ^ 9

def isUnicastLinkLocal (ip : Ipv6Addr) : Bool :=
  ip.segment 0 / 2 ^ 6 = 0xfe80 / 2 ^ 6

def mapped (ip : Ipv6Addr) : Option Ipv4Addr :=
  match ip.segments with
  | [0, 0, 0, 0, 0, 0xffff, high, low] =>
      some ⟨UInt8.ofNat (high.toNat / 256), UInt8.ofNat high.toNat, UInt8.ofNat (low.toNat / 256),
        UInt8.ofNat low.toNat⟩
  | _ => none

end Ipv6Addr

/-! ## `str::parse::<IpAddr>` -/

def toDigit (radix : ℕ) (c : Char) : Option ℕ :=
  let n := c.toNat
  let digit :=
    if 48 ≤ n ∧ n ≤ 57 then some (n - 48)
    else if 97 ≤ n ∧ n ≤ 122 then some (n - 87)
    else if 65 ≤ n ∧ n ≤ 90 then some (n - 55) else none
  digit.filter (· < radix)

def readNumber (radix maxDigits bound : ℕ) (allowZeroPrefix : Bool) (cs : List Char) :
    Option (ℕ × List Char) :=
  let digits := cs.takeWhile fun c ↦ (toDigit radix c).isSome
  let value := (digits.filterMap (toDigit radix)).foldl (fun n digit ↦ radix * n + digit) 0
  if digits = [] ∨ maxDigits < digits.length ∨ bound ≤ value ∨
      (allowZeroPrefix = false ∧ digits.head? = some '0' ∧ 1 < digits.length) then none
  else some (value, cs.drop digits.length)

def readGivenChar (target : Char) : List Char → Option (List Char)
  | [] => none
  | c :: cs => if c = target then some cs else none

def readSeparator {α : Type} (separator : Char) (index : ℕ)
    (inner : List Char → Option (α × List Char)) (cs : List Char) : Option (α × List Char) :=
  if index = 0 then inner cs else (readGivenChar separator cs).bind inner

def readIpv4Addr (cs : List Char) : Option (Ipv4Addr × List Char) := do
  let octet := readNumber 10 3 256 false
  let (a, cs) ← readSeparator '.' 0 octet cs
  let (b, cs) ← readSeparator '.' 1 octet cs
  let (c, cs) ← readSeparator '.' 2 octet cs
  let (d, cs) ← readSeparator '.' 3 octet cs
  return (⟨UInt8.ofNat a, UInt8.ofNat b, UInt8.ofNat c, UInt8.ofNat d⟩, cs)

/-- The groups read from `index` on, at most up to `limit`, whether the last two
of them are an embedded IPv4 address, and what is left. -/
def readGroups (limit : ℕ) : ℕ → ℕ → List Char → List ℕ × Bool × List Char
  | 0, _, cs => ([], false, cs)
  | rounds + 1, index, cs =>
      let embedded := if index + 1 < limit then readSeparator ':' index readIpv4Addr cs else none
      match embedded with
      | some (ip, rest) =>
          ([ip.a.toNat * 256 + ip.b.toNat, ip.c.toNat * 256 + ip.d.toNat], true, rest)
      | none =>
          match readSeparator ':' index (readNumber 16 4 65536 true) cs with
          | none => ([], false, cs)
          | some (group, rest) =>
              let (groups, last) := readGroups limit rounds (index + 1) rest
              (group :: groups, last)

def ofGroups (groups : List ℕ) : Option Ipv6Addr :=
  if h : groups.length = 8 then some ⟨groups.map UInt16.ofNat, by simpa using h⟩ else none

def readIpv6Addr (cs : List Char) : Option (Ipv6Addr × List Char) := do
  let (head, headIpv4, cs) := readGroups 8 8 0 cs
  if head.length = 8 then return (← ofGroups head, cs)
  if headIpv4 then none
  let cs ← readGivenChar ':' cs
  let cs ← readGivenChar ':' cs
  let limit := 8 - (head.length + 1)
  let (tail, _, cs) := readGroups limit limit 0 cs
  let zeros := List.replicate (8 - head.length - tail.length) 0
  return (← ofGroups (head ++ zeros ++ tail), cs)

def parseIpAddr (text : List Char) : Option IpAddr :=
  let result :=
    ((readIpv4Addr text).map fun (ip, rest) ↦ (IpAddr.v4 ip, rest)).or
      ((readIpv6Addr text).map fun (ip, rest) ↦ (IpAddr.v6 ip, rest))
  result.bind fun (ip, rest) ↦ if rest = [] then some ip else none

/-! ## Nodes -/

/-- `url::Host`: an address literal, however it was spelled, is an address here. -/
inductive Host where
  | domain (name : String)
  | ipv4 (address : Ipv4Addr)
  | ipv6 (address : Ipv6Addr)

structure Endpoint where
  scheme : String
  username : String := ""
  password : Option String := none
  host : Option Host

structure AuthorizedNode where
  id : String
  endpoint : Endpoint
  publicKeySha256 : String

def Host.text (showV6 : Ipv6Addr → String) : Host → List Char
  | .domain name => name.toList
  | .ipv4 address => address.toChars
  | .ipv6 address => '[' :: ((showV6 address).toList ++ [']'])

def isPrivateOrLocal : IpAddr → Bool
  | .v4 v => v.isPrivate || v.isLoopback || v.isLinkLocal || v.isBroadcast || v.isUnspecified
  | .v6 v => v.isLoopback || v.isUnspecified || v.isUniqueLocal || v.isUnicastLinkLocal

def checkIdentity (node : AuthorizedNode) : Except String Unit := do
  ensure (¬ Text.isBlank node.id) "node id is required"
  ensure (node.endpoint.scheme = "https") ("node " ++ node.id ++ " must use https")
  ensure (node.endpoint.username = "" ∧ node.endpoint.password = none)
    ("node " ++ node.id ++ " must not embed credentials")

def checkHost (showV6 : Ipv6Addr → String) (node : AuthorizedNode) : Except String Unit := do
  let host ← okOr node.endpoint.host ("node " ++ node.id ++ " has no host")
  let text := host.text showV6
  ensure (text.map Text.asciiUpper ≠ "localhost".toList.map Text.asciiUpper)
    ("node " ++ node.id ++ " cannot target localhost")
  ensure (¬ (parseIpAddr text).any isPrivateOrLocal)
    ("node " ++ node.id ++ " cannot target private/local address")

def checkKey (node : AuthorizedNode) : Except String Unit :=
  ensure (Text.len node.publicKeySha256 = 64 ∧
    node.publicKeySha256.toList.all fun c ↦ (toDigit 16 c).isSome)
    ("node " ++ node.id ++ " has invalid public_key_sha256")

def validateNode (showV6 : Ipv6Addr → String) (node : AuthorizedNode) : Except String Unit := do
  checkIdentity node
  checkHost showV6 node
  checkKey node

/-! ## Hosts that point inward -/

def Ipv4Addr.Inward (ip : Ipv4Addr) : Prop :=
  ip.isLoopback ∨ ip.isPrivate ∨ ip.isLinkLocal ∨ ip.isUnspecified

/-- An address that embeds an IPv4 address points where that one does. -/
def Ipv6Addr.Inward (ip : Ipv6Addr) : Prop :=
  ip.isLoopback ∨ ip.isUniqueLocal ∨ ip.isUnicastLinkLocal ∨ ip.isUnspecified ∨
    ∃ embedded, ip.mapped = some embedded ∧ embedded.Inward

def Host.Inward : Host → Prop
  | .domain _ => False
  | .ipv4 address => address.Inward
  | .ipv6 address => address.Inward

/-! ## Reading what was written -/

def isOctet (n : ℕ) : Bool :=
  let digits := Nat.toDigits 10 n
  digits.all (fun c ↦ (toDigit 10 c).isSome) &&
    (digits.filterMap (toDigit 10)).foldl (fun n digit ↦ 10 * n + digit) 0 == n &&
    !(digits.isEmpty || decide (3 < digits.length) ||
      (digits.head? == some '0' && decide (1 < digits.length)))

theorem isOctet_of_lt {n : ℕ} (h : n < 256) : isOctet n = true := by
  have hall : (List.range 256).all isOctet = true := by decide +kernel
  exact List.all_eq_true.mp hall n (List.mem_range.mpr h)

theorem readNumber_octet (n : UInt8) {rest : List Char}
    (hrest : ∀ c, rest.head? = some c → toDigit 10 c = none) :
    readNumber 10 3 256 false (Nat.toDigits 10 n.toNat ++ rest) = some (n.toNat, rest) := by
  have hoctet := isOctet_of_lt n.toNat_lt
  simp only [isOctet, Bool.and_eq_true, List.all_eq_true, beq_iff_eq] at hoctet
  obtain ⟨⟨hdigits, hvalue⟩, hshape⟩ := hoctet
  have hlt : ¬ 256 ≤ n.toNat := Nat.not_le.mpr n.toNat_lt
  have htake : (Nat.toDigits 10 n.toNat ++ rest).takeWhile (fun c ↦ (toDigit 10 c).isSome) =
      Nat.toDigits 10 n.toNat := by
    rw [List.takeWhile_append_of_pos hdigits]
    cases rest with
    | nil => simp
    | cons c cs => simp [hrest c rfl]
  rw [readNumber]
  simp only [htake, hvalue]
  rw [if_neg (by simpa [hlt, imp_iff_not_or] using hshape), List.drop_left]

theorem parseIpAddr_toChars (ip : Ipv4Addr) : parseIpAddr ip.toChars = some (.v4 ip) := by
  have hdot : ∀ rest c, ('.' :: rest : List Char).head? = some c → toDigit 10 c = none := by
    rintro rest c ⟨⟩
    decide
  have hread : readIpv4Addr ip.toChars = some (ip, []) := by
    have hend := @readNumber_octet ip.d [] (by simp)
    rw [List.append_nil] at hend
    simp [readIpv4Addr, Ipv4Addr.toChars, readSeparator, readGivenChar,
      readNumber_octet _ (hdot _), hend]
  rw [parseIpAddr, hread]
  rfl

theorem parseIpAddr_bracket (text : List Char) : parseIpAddr ('[' :: text) = none := by
  have hnumber : ∀ radix maxDigits bound allow, radix ≤ 16 →
      readNumber radix maxDigits bound allow ('[' :: text) = none := by
    intro radix maxDigits bound allow _
    have hdigit : toDigit radix '[' = none := rfl
    rw [readNumber, List.takeWhile_cons_of_neg (by simp [hdigit])]
    simp
  have hipv4 : readIpv4Addr ('[' :: text) = none := by
    simp [readIpv4Addr, readSeparator, hnumber]
  have hgroups : readGroups 8 8 0 ('[' :: text) = ([], false, '[' :: text) := by
    simp [readGroups, readSeparator, hipv4, hnumber]
  have hcolon : readGivenChar ':' ('[' :: text) = none := by simp [readGivenChar]
  have hipv6 : readIpv6Addr ('[' :: text) = none := by
    simp [readIpv6Addr, hgroups, hcolon]
  rw [parseIpAddr, hipv4, hipv6]
  rfl

variable {showV6 : Ipv6Addr → String} {node : AuthorizedNode}

theorem checkHost_ipv6 {address : Ipv6Addr} (h : node.endpoint.host = some (.ipv6 address)) :
    checkHost showV6 node = .ok () := by
  have hbracket : Text.asciiUpper '[' ≠ Text.asciiUpper 'l' := by decide
  simp [checkHost, h, okOr, Host.text, parseIpAddr_bracket, bind_eq_ok, hbracket]

theorem not_inward_of_checkHost {address : Ipv4Addr} (h : checkHost showV6 node = .ok ())
    (hhost : node.endpoint.host = some (.ipv4 address)) : ¬ address.Inward := by
  simp only [checkHost, bind_eq_ok, ensure_eq_ok, okOr_eq_ok, hhost] at h
  obtain ⟨host, hfound, _, -, hprivate⟩ := h
  cases hfound
  rw [Host.text, parseIpAddr_toChars] at hprivate
  simp only [Option.any_some, isPrivateOrLocal] at hprivate
  rintro (hip | hip | hip | hip) <;> simp [hip] at hprivate

/-- An accepted node points inward only through an IPv6 literal, and no such
literal keeps a node from being accepted. -/
theorem accepted_outward_iff (showV6 : Ipv6Addr → String) (node : AuthorizedNode) :
    (validateNode showV6 node = .ok () →
        ∀ host, node.endpoint.host = some host → ¬ host.Inward) ↔
      ¬ (checkIdentity node = .ok () ∧ checkKey node = .ok () ∧
        ∃ address, node.endpoint.host = some (.ipv6 address) ∧ address.Inward) := by
  have haccept : validateNode showV6 node = .ok () ↔
      checkIdentity node = .ok () ∧ checkHost showV6 node = .ok () ∧ checkKey node = .ok () := by
    simp [validateNode, bind_eq_ok, Unique.exists_iff]
  rw [haccept]
  constructor
  · rintro h ⟨hidentity, hkey, address, hhost, hinward⟩
    exact h ⟨hidentity, checkHost_ipv6 hhost, hkey⟩ _ hhost hinward
  · rintro h ⟨hidentity, hcheck, hkey⟩ host hhost hinward
    cases host with
    | domain name => exact hinward
    | ipv4 address => exact not_inward_of_checkHost hcheck hhost hinward
    | ipv6 address => exact h ⟨hidentity, hkey, address, hhost, hinward⟩

def loopbackNode : AuthorizedNode :=
  { id := "n"
    endpoint := { scheme := "https", host := some (.ipv6 ⟨[0, 0, 0, 0, 0, 0, 0, 1], rfl⟩) }
    publicKeySha256 := String.ofList (List.replicate 64 'a') }

theorem loopback_literal_accepted :
    validateNode (fun _ ↦ "::1") loopbackNode = .ok () ∧
      ∃ host, loopbackNode.endpoint.host = some host ∧ host.Inward :=
  ⟨by decide +kernel, _, rfl, Or.inl rfl⟩

example : parseIpAddr "fe80::1".toList =
    some (.v6 ⟨[0xfe80, 0, 0, 0, 0, 0, 0, 1], rfl⟩) := by decide +kernel

end Fabushi.GlobalDharma
