import Fabushi.Library.Modular
import Fabushi.Library.Radix
import Fabushi.Library.Result

/-!
# The pinned Diffie–Hellman group

Only one safe prime is trusted. A generator is accepted by the residue of the prime
that makes it a quadratic residue.
-/

namespace Fabushi.Telegram

open Radix

def knownDhPrimeHex : ℕ :=
  0xC71CAEB9C6B1C9048E6C522F70F13F73980D40238E3E21C14934D037563D930F48198A0AA7C14058229493D22530F4DBFA336F6E0AC925139543AED44CCE7C3720FD51F69458705AC68CD4FE6B6B13ABDC9746512969328454F18FAF8C595F642477FE96BB2A941D5BCD1D4AC8CC49880708FA9B378E3C4F3A9060BEE67CF9A4A4A695811051907E162753B56B0F6B410DBA74D8A84B2A14B3144E0EF1284754FD17ED950D5965B4B9DD46582DB1178D169C6BC465B0D6FF9CA3928FEF5B9AE4E418FC15E83EBEA0F87FA9FF5EED70050DED2849F47BF959D956850CE929851F0D8115F635B105EE2E4E15D04B2454BF6F4FADF034B10403119CD8E3B92FCC5B

def knownDhPrime : List UInt8 :=
  padBe 256 knownDhPrimeHex

theorem knownDhPrimeHex_bounds : 2 ^ 2047 < knownDhPrimeHex ∧ knownDhPrimeHex < 2 ^ 2048 := by
  decide +kernel

theorem length_knownDhPrime : knownDhPrime.length = 256 :=
  length_padBe 256 knownDhPrimeHex

theorem two_pow_bits : 2 ^ 2048 = 256 ^ 256 := by
  rw [show 2048 = 8 * 256 from rfl, pow_mul]
  rfl

theorem ofBe_knownDhPrime : ofBe knownDhPrime = knownDhPrimeHex :=
  ofBe_padBe (knownDhPrimeHex_bounds.2.trans_eq two_pow_bits)

theorem knownDhPrime_pos : 0 < ofBe knownDhPrime := by
  rw [ofBe_knownDhPrime]
  exact Nat.zero_lt_of_lt knownDhPrimeHex_bounds.1

def generatorIsValid (residue : ℕ → ℕ) (generator : Int32) : Bool :=
  match generator.toInt with
  | 2 => residue 8 = 7
  | 3 => residue 3 = 2
  | 4 => true
  | 5 => residue 5 = 1 ∨ residue 5 = 4
  | 6 => residue 24 = 19 ∨ residue 24 = 23
  | 7 => residue 7 = 3 ∨ residue 7 = 5 ∨ residue 7 = 6
  | _ => false

end Fabushi.Telegram
