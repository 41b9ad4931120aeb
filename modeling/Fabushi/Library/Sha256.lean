import Mathlib

/-!
# The SHA-256 digest

An executable definition on lists of bytes. Words are natural numbers below
`2 ^ 32`, so that the kernel computes with its own arithmetic.
-/

namespace Sha256

def roundConstants : List ℕ :=
  [0x428a2f98, 0x71374491, 0xb5c0fbcf, 0xe9b5dba5, 0x3956c25b, 0x59f111f1, 0x923f82a4, 0xab1c5ed5,
    0xd807aa98, 0x12835b01, 0x243185be, 0x550c7dc3, 0x72be5d74, 0x80deb1fe, 0x9bdc06a7, 0xc19bf174,
    0xe49b69c1, 0xefbe4786, 0x0fc19dc6, 0x240ca1cc, 0x2de92c6f, 0x4a7484aa, 0x5cb0a9dc, 0x76f988da,
    0x983e5152, 0xa831c66d, 0xb00327c8, 0xbf597fc7, 0xc6e00bf3, 0xd5a79147, 0x06ca6351, 0x14292967,
    0x27b70a85, 0x2e1b2138, 0x4d2c6dfc, 0x53380d13, 0x650a7354, 0x766a0abb, 0x81c2c92e, 0x92722c85,
    0xa2bfe8a1, 0xa81a664b, 0xc24b8b70, 0xc76c51a3, 0xd192e819, 0xd6990624, 0xf40e3585, 0x106aa070,
    0x19a4c116, 0x1e376c08, 0x2748774c, 0x34b0bcb5, 0x391c0cb3, 0x4ed8aa4a, 0x5b9cca4f, 0x682e6ff3,
    0x748f82ee, 0x78a5636f, 0x84c87814, 0x8cc70208, 0x90befffa, 0xa4506ceb, 0xbef9a3f7, 0xc67178f2]

def initial : List ℕ :=
  [0x6a09e667, 0xbb67ae85, 0x3c6ef372, 0xa54ff53a, 0x510e527f, 0x9b05688c, 0x1f83d9ab, 0x5be0cd19]

def rotate (x n : ℕ) : ℕ :=
  (x >>> n ||| x <<< (32 - n)) % 2 ^ 32

def schedule : ℕ → List ℕ → List ℕ
  | 0, words => words
  | n + 1, words =>
      let w2 := words.getD 1 0
      let w15 := words.getD 14 0
      let s0 := rotate w15 7 ^^^ rotate w15 18 ^^^ w15 >>> 3
      let s1 := rotate w2 17 ^^^ rotate w2 19 ^^^ w2 >>> 10
      schedule n ((words.getD 15 0 + s0 + words.getD 6 0 + s1) % 2 ^ 32 :: words)

def round : List ℕ → ℕ × ℕ → List ℕ
  | [a, b, c, d, e, f, g, h], (k, w) =>
      let s1 := rotate e 6 ^^^ rotate e 11 ^^^ rotate e 25
      let choose := (e &&& f) ^^^ ((2 ^ 32 - 1 - e) &&& g)
      let t1 := h + s1 + choose + k + w
      let s0 := rotate a 2 ^^^ rotate a 13 ^^^ rotate a 22
      let majority := (a &&& b) ^^^ (a &&& c) ^^^ (b &&& c)
      [(t1 + s0 + majority) % 2 ^ 32, a, b, c, (d + t1) % 2 ^ 32, e, f, g]
  | state, _ => state

def compress (state block : List ℕ) : List ℕ :=
  let words := (schedule 48 block.reverse).reverse
  let mixed := (roundConstants.zip words).foldl round state
  (state.zip mixed).map fun pair ↦ (pair.1 + pair.2) % 2 ^ 32

/-- Big-endian bytes of a number. -/
def toBytes (count n : ℕ) : List UInt8 :=
  (List.range count).reverse.map fun i ↦ UInt8.ofNat (n >>> (8 * i))

def padding (length : ℕ) : List UInt8 :=
  0x80 :: List.replicate ((119 - length % 64) % 64) 0 ++ toBytes 8 (8 * length)

def ofBytes (bytes : List UInt8) : ℕ :=
  bytes.foldl (fun n byte ↦ 256 * n + byte.toNat) 0

def chunks {α : Type} (size : ℕ) : ℕ → List α → List (List α)
  | 0, _ => []
  | n + 1, xs => xs.take size :: chunks size n (xs.drop size)

def digest (message : List UInt8) : List UInt8 :=
  let padded := message ++ padding message.length
  let blocks := chunks 64 (padded.length / 64) padded
  (blocks.foldl (fun state block ↦ compress state ((chunks 4 16 block).map ofBytes))
    initial).flatMap (toBytes 4)

example : digest [0x61, 0x62, 0x63] =
    [0xba, 0x78, 0x16, 0xbf, 0x8f, 0x01, 0xcf, 0xea, 0x41, 0x41, 0x40, 0xde, 0x5d, 0xae, 0x22, 0x23,
      0xb0, 0x03, 0x61, 0xa3, 0x96, 0x17, 0x7a, 0x9c, 0xb4, 0x10, 0xff, 0x61, 0xf2, 0x00, 0x15,
      0xad] := by
  decide +kernel

end Sha256
