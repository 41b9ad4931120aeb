import Mathlib

/-!
# Infinite garble extension

A mode of a block cipher in which every block is mixed with the ciphertext block before it
and with the plaintext block before it. The two directions undo each other for
every permutation of the blocks.
-/

namespace Ige

variable {width : ℕ}

def xor (a b : Vector UInt8 width) : Vector UInt8 width :=
  Vector.zipWith (· ^^^ ·) a b

theorem xor_xor (a b : Vector UInt8 width) : xor (xor a b) b = a := by
  ext i hi
  rw [xor, xor, Vector.getElem_zipWith, Vector.getElem_zipWith, UInt8.xor_assoc, UInt8.xor_self,
    UInt8.xor_zero]

/-! ## Blocks of bytes -/

def blocks (width : ℕ) : ℕ → List UInt8 → List (Vector UInt8 width)
  | 0, _ => []
  | count + 1, bytes =>
      Vector.ofFn (fun i : Fin width ↦ bytes.getD i 0) :: blocks width count (bytes.drop width)

def bytes (blocks : List (Vector UInt8 width)) : List UInt8 :=
  blocks.flatMap Vector.toList

theorem length_bytes (blocks : List (Vector UInt8 width)) :
    (bytes blocks).length = width * blocks.length := by
  induction blocks with
  | nil => rfl
  | cons block blocks ih =>
      rw [bytes, List.flatMap_cons, List.length_append, Vector.length_toList, List.length_cons,
        Nat.mul_succ, Nat.add_comm]
      exact congrArg (· + width) ih

theorem blocks_bytes (blocks' : List (Vector UInt8 width)) :
    blocks width blocks'.length (bytes blocks') = blocks' := by
  induction blocks' with
  | nil => rfl
  | cons block blocks' ih =>
      have hdrop : (bytes (block :: blocks')).drop width = bytes blocks' := by
        have h := @List.drop_left _ block.toList (bytes blocks')
        rwa [Vector.length_toList] at h
      rw [List.length_cons, blocks, hdrop, ih]
      congr 1
      ext i hi
      rw [Vector.getElem_ofFn, bytes, List.flatMap_cons, List.getD_append _ _ _ _ (by simpa using hi)]
      simp [hi]

theorem bytes_blocks {count : ℕ} {bs : List UInt8} (h : bs.length = width * count) :
    bytes (blocks width count bs) = bs := by
  induction count generalizing bs with
  | zero =>
      rw [Nat.mul_zero, List.length_eq_zero_iff] at h
      rw [h]
      rfl
  | succ count ih =>
      rw [Nat.mul_succ] at h
      have hrest : (bs.drop width).length = width * count := by
        rw [List.length_drop]
        omega
      have hfirst : (Vector.ofFn fun i : Fin width ↦ bs.getD i 0).toList = bs.take width := by
        apply List.ext_getElem
        · rw [Vector.length_toList, List.length_take]
          omega
        · intro i hi hi'
          rw [List.length_take] at hi'
          simp [show i < bs.length by omega]
      have hbytes := ih hrest
      rw [bytes] at hbytes
      rw [blocks, bytes, List.flatMap_cons, hbytes, hfirst, List.take_append_drop]

theorem length_blocks (count : ℕ) (bs : List UInt8) : (blocks width count bs).length = count := by
  induction count generalizing bs with
  | zero => rfl
  | succ count ih => rw [blocks, List.length_cons, ih]

/-! ## Both directions -/

variable (cipher : Equiv.Perm (Vector UInt8 width))

def encrypt (previousCiphertext previousPlaintext : Vector UInt8 width) :
    List (Vector UInt8 width) → List (Vector UInt8 width)
  | [] => []
  | plaintext :: rest =>
      let ciphertext := xor (cipher (xor plaintext previousCiphertext)) previousPlaintext
      ciphertext :: encrypt ciphertext plaintext rest

def decrypt (previousCiphertext previousPlaintext : Vector UInt8 width) :
    List (Vector UInt8 width) → List (Vector UInt8 width)
  | [] => []
  | ciphertext :: rest =>
      let plaintext := xor (cipher.symm (xor ciphertext previousPlaintext)) previousCiphertext
      plaintext :: decrypt ciphertext plaintext rest

theorem length_encrypt (c p : Vector UInt8 width) (blocks : List (Vector UInt8 width)) :
    (encrypt cipher c p blocks).length = blocks.length := by
  induction blocks generalizing c p with
  | nil => rfl
  | cons block blocks ih => rw [encrypt, List.length_cons, List.length_cons, ih]

theorem decrypt_encrypt (c p : Vector UInt8 width) (blocks : List (Vector UInt8 width)) :
    decrypt cipher c p (encrypt cipher c p blocks) = blocks := by
  induction blocks generalizing c p with
  | nil => rfl
  | cons block blocks ih =>
      have hfirst : xor (cipher.symm (xor (xor (cipher (xor block c)) p) p)) c = block := by
        rw [xor_xor, Equiv.symm_apply_apply, xor_xor]
      rw [encrypt, decrypt, hfirst, ih]

theorem bytes_decrypt_encrypt (c p : Vector UInt8 width) {count : ℕ} {bs : List UInt8}
    (h : bs.length = width * count) :
    bytes (decrypt cipher c p (blocks width count (bytes (encrypt cipher c p
      (blocks width count bs))))) = bs := by
  have hlength : (encrypt cipher c p (blocks width count bs)).length = count := by
    rw [length_encrypt, length_blocks]
  have hblocks := blocks_bytes (encrypt cipher c p (blocks width count bs))
  rw [hlength] at hblocks
  rw [hblocks, decrypt_encrypt, bytes_blocks h]

theorem decrypt_eq_encrypt_symm (c p : Vector UInt8 width) (blocks : List (Vector UInt8 width)) :
    decrypt cipher c p blocks = encrypt cipher.symm p c blocks := by
  induction blocks generalizing c p with
  | nil => rfl
  | cons block blocks ih => rw [decrypt, encrypt, ih]

theorem bytes_encrypt_decrypt (c p : Vector UInt8 width) {count : ℕ} {bs : List UInt8}
    (h : bs.length = width * count) :
    bytes (encrypt cipher c p (blocks width count (bytes (decrypt cipher c p
      (blocks width count bs))))) = bs := by
  have hswapped := bytes_decrypt_encrypt cipher.symm p c h
  rwa [decrypt_eq_encrypt_symm, Equiv.symm_symm, ← decrypt_eq_encrypt_symm] at hswapped

theorem length_bytes_encrypt (c p : Vector UInt8 width) (count : ℕ) (bs : List UInt8) :
    (bytes (encrypt cipher c p (blocks width count bs))).length = width * count := by
  rw [length_bytes, length_encrypt, length_blocks]

end Ige
