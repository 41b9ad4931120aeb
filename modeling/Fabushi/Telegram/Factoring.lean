import Fabushi.Library.Radix

/-!
# Factoring the product of two primes

The number that the server sends is a product of two primes of a word of 64 bits at
most. Products are taken in 128 bits before they are reduced. A divisor comes from the
cycles of a quadratic map, and both factors are tested for primality.
-/

namespace Fabushi.Telegram

open Radix

def wrap128 (n : ℕ) : ℕ :=
  n % 2 ^ 128

def saturatingMul64 (a b : UInt64) : UInt64 :=
  if a.toNat * b.toNat < 2 ^ 64 then a * b else 0xffffffffffffffff

/-- A big-endian number of one to eight bytes, or the number of bytes that it has. -/
def decodeUnsignedBe (bytes : List UInt8) : Except ℕ UInt64 :=
  if bytes = [] ∨ 8 < bytes.length then .error bytes.length
  else .ok (bytes.foldl (fun value byte ↦ (value <<< 8) ||| byte.toUInt64) 0)

def unsignedBeBytes (value : UInt64) : List UInt8 :=
  let bytes := padBe 8 value.toNat
  let first := (bytes.findIdx? fun byte ↦ byte ≠ 0).getD (bytes.length - 1)
  bytes.drop first

def greatestCommonDivisor (a b : UInt64) : UInt64 :=
  if b = 0 then a else greatestCommonDivisor b (a % b)
termination_by b.toNat
decreasing_by
  rename_i hnonzero
  rw [UInt64.toNat_mod]
  exact Nat.mod_lt _ (Nat.pos_of_ne_zero fun hzero ↦ hnonzero (UInt64.toNat_inj.mp hzero))

/-! ## Modular arithmetic -/

def multiplyMod (a b modulus : UInt64) : UInt64 :=
  UInt64.ofNat (wrap128 (a.toNat * b.toNat) % modulus.toNat)

def rhoStep (value constant modulus : UInt64) : UInt64 :=
  UInt64.ofNat (wrap128 ((multiplyMod value value modulus).toNat + constant.toNat) %
    modulus.toNat)

def powerModLoop (modulus base exponent result : UInt64) : UInt64 :=
  if 0 < exponent then
    powerModLoop modulus (multiplyMod base base modulus) (exponent >>> 1)
      (if exponent &&& 1 = 1 then multiplyMod result base modulus else result)
  else result
termination_by exponent.toNat
decreasing_by
  rename_i hexponent
  have hpos : 0 < exponent.toNat := UInt64.lt_iff_toNat_lt.mp hexponent
  have hhalf : (exponent >>> 1).toNat = exponent.toNat / 2 := by
    rw [UInt64.toNat_shiftRight]
    exact Nat.shiftRight_eq_div_pow _ 1
  omega

def powerMod (base exponent modulus : UInt64) : UInt64 :=
  powerModLoop modulus (base % modulus) exponent 1

/-! ## Primality -/

def smallPrimes : List UInt64 :=
  [2, 3, 5, 7, 11, 13, 17, 19, 23, 29, 31, 37]

def witnessBases : List UInt64 :=
  [2, 325, 9375, 28178, 450775, 9780504, 1795265022]

def trailingZeros : ℕ → UInt64 → ℕ
  | 0, _ => 0
  | bits + 1, value => if value % 2 = 0 then trailingZeros bits (value >>> 1) + 1 else 0

def squaresToMinusOne (value : UInt64) : ℕ → UInt64 → Bool
  | 0, _ => false
  | rounds + 1, witness =>
      let witness := multiplyMod witness witness value
      if witness = value - 1 then true else squaresToMinusOne value rounds witness

def passesBase (value odd : UInt64) (powersOfTwo : ℕ) (base : UInt64) : Bool :=
  if base % value = 0 then true
  else
    let witness := powerMod base odd value
    if witness = 1 ∨ witness = value - 1 then true
    else squaresToMinusOne value (powersOfTwo - 1) witness

/-- The first small prime that is the number or divides it decides. -/
def isPrime (value : UInt64) : Bool :=
  if value < 2 then false
  else
    match smallPrimes.find? fun prime ↦ value = prime ∨ value % prime = 0 with
    | some prime => value = prime
    | none =>
        let powersOfTwo := trailingZeros 64 (value - 1)
        let odd := (value - 1) >>> UInt64.ofNat powersOfTwo
        witnessBases.all (passesBase value odd powersOfTwo)

/-! ## A divisor -/

def absDiff (x y : UInt64) : UInt64 :=
  if x < y then y - x else x - y

/-- The steps with one constant; they end with a divisor, with the number itself or after
`steps` of them. -/
def rhoLoop (value constant : UInt64) : ℕ → UInt64 → UInt64 → Option UInt64
  | 0, _, _ => none
  | steps + 1, x, y =>
      let x := rhoStep x constant value
      let y := rhoStep y constant value
      let y := rhoStep y constant value
      let divisor := greatestCommonDivisor (absDiff x y) value
      if divisor = 1 then rhoLoop value constant steps x y
      else if divisor ≠ value then some divisor
      else none

def pollardRhoFactor (value : UInt64) : Option UInt64 :=
  if value % 2 = 0 then some 2
  else if value % 3 = 0 then some 3
  else (List.range' 1 128).findSome? fun constant ↦
    rhoLoop value (UInt64.ofNat constant) 1000000 2 2

structure FactoredPq where
  pq : UInt64
  p : UInt64
  q : UInt64
  deriving DecidableEq

namespace FactoredPq

def pBytes (factors : FactoredPq) : List UInt8 :=
  unsignedBeBytes factors.p

def qBytes (factors : FactoredPq) : List UInt8 :=
  unsignedBeBytes factors.q

end FactoredPq

end Fabushi.Telegram
