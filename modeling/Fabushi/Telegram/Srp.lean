import Fabushi.Library.Sha256
import Fabushi.Library.Text
import Fabushi.Telegram.Dh

/-!
# The password proof

The client proves that it knows the password of an account to a server that keeps a
verifier only. Every number is hashed in 256 bytes.
-/

namespace Fabushi.Telegram

open Modular Radix Result

/-- SHA-256, and PBKDF2 with HMAC-SHA-512 on a password, a salt and a number of rounds. -/
structure SrpHashes where
  sha256 : List UInt8 → Vector UInt8 32
  pbkdf2 : List UInt8 → List UInt8 → ℕ → Vector UInt8 64

structure PasswordSrpParameters where
  srpId : Int64
  salt1 : List UInt8
  salt2 : List UInt8
  generator : Int32
  prime : List UInt8
  serverB : List UInt8

structure PasswordSrpProof where
  srpId : Int64
  a : Vector UInt8 256
  m1 : Vector UInt8 32
  deriving DecidableEq

inductive SrpError where
  | emptyPassword
  | invalidPrimeOrGenerator
  | invalidServerB
  | invalidRandomExponent
  | randomnessUnavailable
  deriving DecidableEq

theorem length_padded (bytes : List UInt8) :
    (List.replicate (256 - bytes.length) 0 ++ bytes.drop (bytes.length - 256) : List UInt8).length =
      256 := by
  rw [List.length_append, List.length_replicate, List.length_drop]
  omega

/-- Leading zeros in front of a short number; only the last 256 bytes of a longer one. -/
def padded256 (value : ℕ) : Vector UInt8 256 :=
  let bytes := toBe value
  ⟨(List.replicate (256 - bytes.length) 0 ++ bytes.drop (bytes.length - 256)).toArray,
    length_padded bytes⟩

section

variable (hashes : SrpHashes)

def sha256Parts (parts : List (List UInt8)) : Vector UInt8 32 :=
  hashes.sha256 parts.flatten

def passwordHash (password salt1 salt2 : List UInt8) : Vector UInt8 32 :=
  let first := sha256Parts hashes [salt1, password, salt1]
  let second := sha256Parts hashes [salt2, first.toList, salt2]
  let pbkdf := hashes.pbkdf2 second.toList salt1 100000
  sha256Parts hashes [salt2, pbkdf.toList, salt2]

def lastResidue (prime modulus : ℕ) : ℕ :=
  ((toBe (prime % modulus)).getLast?.map UInt8.toNat).getD 0

def validatePrimeGenerator (prime : List UInt8) (generator : Int32) : Except SrpError Unit := do
  ensure (prime = knownDhPrime) .invalidPrimeOrGenerator
  ensure (generatorIsValid (lastResidue (ofBe prime)) generator) .invalidPrimeOrGenerator

def srpU (clientA serverB : ℕ) : ℕ :=
  ofBe (sha256Parts hashes [(padded256 clientA).toList, (padded256 serverB).toList]).toList

namespace PasswordSrpParameters

variable (parameters : PasswordSrpParameters)

def primeNumber : ℕ :=
  ofBe parameters.prime

def generatorNumber : ℕ :=
  parameters.generator.toUInt32.toNat

def x (password : String) : ℕ :=
  ofBe (passwordHash hashes (Text.bytes password) parameters.salt1 parameters.salt2).toList

def k : ℕ :=
  ofBe (sha256Parts hashes
    [parameters.prime, (padded256 parameters.generatorNumber).toList]).toList

def verifier (password : String) : ℕ :=
  modpow parameters.generatorNumber (parameters.x hashes password) parameters.primeNumber

def kv (password : String) : ℕ :=
  parameters.k hashes * parameters.verifier hashes password % parameters.primeNumber

def clientSecret (password : String) (exponent serverB : ℕ) : ℕ :=
  let clientA := modpow parameters.generatorNumber exponent parameters.primeNumber
  let base := (serverB + parameters.primeNumber - parameters.kv hashes password) %
    parameters.primeNumber
  let power := exponent + srpU hashes clientA serverB * parameters.x hashes password
  modpow base power parameters.primeNumber

def m1 (clientA serverB sharedSecret : ℕ) : Vector UInt8 32 :=
  let sessionKey := sha256Parts hashes [(padded256 sharedSecret).toList]
  let primeHash := sha256Parts hashes [parameters.prime]
  let generatorHash := sha256Parts hashes [(padded256 parameters.generatorNumber).toList]
  let primeXorGenerator := Vector.zipWith (· ^^^ ·) primeHash generatorHash
  let salt1Hash := sha256Parts hashes [parameters.salt1]
  let salt2Hash := sha256Parts hashes [parameters.salt2]
  sha256Parts hashes [primeXorGenerator.toList, salt1Hash.toList, salt2Hash.toList,
    (padded256 clientA).toList, (padded256 serverB).toList, sessionKey.toList]

end PasswordSrpParameters

def computePasswordSrpProofWithRandom (password : String) (parameters : PasswordSrpParameters)
    (fillRandom : Except SrpError (Vector UInt8 256)) : Except SrpError PasswordSrpProof := do
  ensure (password ≠ "") .emptyPassword
  validatePrimeGenerator parameters.prime parameters.generator
  ensure (248 ≤ parameters.serverB.length ∧ parameters.serverB.length ≤ 256) .invalidServerB
  let serverB := ofBe parameters.serverB
  ensure (¬ (serverB = 0 ∨ parameters.primeNumber ≤ serverB)) .invalidServerB
  let exponentBytes ← fillRandom
  let exponent := ofBe exponentBytes.toList
  ensure (exponent ≠ 0) .invalidRandomExponent
  let clientA := modpow parameters.generatorNumber exponent parameters.primeNumber
  let sharedSecret := parameters.clientSecret hashes password exponent serverB
  return {
    srpId := parameters.srpId
    a := padded256 clientA
    m1 := parameters.m1 hashes clientA serverB sharedSecret }

/-! ## The server -/

structure SrpServer where
  parameters : PasswordSrpParameters
  verifier : ℕ
  secret : ℕ

namespace SrpServer

variable (server : SrpServer)

def publicB : ℕ :=
  (server.parameters.k hashes * server.verifier +
    modpow server.parameters.generatorNumber server.secret server.parameters.primeNumber) %
    server.parameters.primeNumber

def secretWith (clientA : ℕ) : ℕ :=
  let u := srpU hashes clientA (server.publicB hashes)
  modpow (clientA * modpow server.verifier u server.parameters.primeNumber)
    server.secret server.parameters.primeNumber

def m1 (a : Vector UInt8 256) : Vector UInt8 32 :=
  let clientA := ofBe a.toList
  server.parameters.m1 hashes clientA (server.publicB hashes) (server.secretWith hashes clientA)

end SrpServer

/-! ## Agreement -/

theorem ofBe_padded256 {value : ℕ} (h : value < 256 ^ 256) :
    ofBe (padded256 value).toList = value := by
  have hlength : byteLength value ≤ 256 := byteLength_le (by decide) h
  have hbytes : (padded256 value).toList = padBe 256 value := by
    change List.replicate (256 - (toBe value).length) 0 ++
      (toBe value).drop ((toBe value).length - 256) = _
    rw [length_toBe, Nat.sub_eq_zero_of_le hlength, List.drop_zero, replicate_append_toBe hlength]
  rw [hbytes, ofBe_padBe h]

variable {hashes}

theorem computePasswordSrpProof_ok {password : String} {parameters : PasswordSrpParameters}
    {fillRandom : Except SrpError (Vector UInt8 256)} {proof : PasswordSrpProof}
    (h : computePasswordSrpProofWithRandom hashes password parameters fillRandom = .ok proof) :
    ∃ exponentBytes, fillRandom = .ok exponentBytes ∧ parameters.prime = knownDhPrime ∧
      ofBe parameters.serverB < parameters.primeNumber ∧
      proof = {
        srpId := parameters.srpId
        a := padded256 (modpow parameters.generatorNumber (ofBe exponentBytes.toList)
          parameters.primeNumber)
        m1 := parameters.m1 hashes (modpow parameters.generatorNumber
            (ofBe exponentBytes.toList) parameters.primeNumber) (ofBe parameters.serverB)
          (parameters.clientSecret hashes password (ofBe exponentBytes.toList)
            (ofBe parameters.serverB)) } := by
  obtain ⟨_, -, h⟩ := bind_eq_ok.mp h
  obtain ⟨_, hprime, h⟩ := bind_eq_ok.mp h
  obtain ⟨_, -, h⟩ := bind_eq_ok.mp h
  obtain ⟨_, hserver, h⟩ := bind_eq_ok.mp h
  obtain ⟨exponentBytes, hrandom, h⟩ := bind_eq_ok.mp h
  obtain ⟨_, -, h⟩ := bind_eq_ok.mp h
  obtain ⟨_, hpinned, -⟩ := bind_eq_ok.mp hprime
  rw [ensure_eq_ok, not_or] at hserver
  exact ⟨exponentBytes, hrandom, ensure_eq_ok.mp hpinned, Nat.lt_of_not_le hserver.2,
    (Except.ok.inj h).symm⟩

theorem clientSecret_eq {password : String} {parameters : PasswordSrpParameters}
    (hpositive : 0 < parameters.primeNumber) (exponent secret : ℕ) :
    let server : SrpServer := ⟨parameters, parameters.verifier hashes password, secret⟩
    parameters.clientSecret hashes password exponent (server.publicB hashes) =
      server.secretWith hashes (modpow parameters.generatorNumber exponent
        parameters.primeNumber) := by
  intro server
  set p := parameters.primeNumber with hp
  set g := parameters.generatorNumber with hg
  set x := parameters.x hashes password with hx
  set u := srpU hashes (modpow g exponent p) (server.publicB hashes) with hu
  have hbase : server.publicB hashes + p - parameters.kv hashes password ≡ modpow g secret p
      [MOD p] :=
    sub_modEq hpositive (Nat.mod_modEq _ _)
  have hclient : (server.publicB hashes + p - parameters.kv hashes password) % p ≡ g ^ secret
      [MOD p] := by
    refine (Nat.mod_modEq _ _).trans (hbase.trans ?_)
    rw [modpow_eq hpositive]
    exact Nat.mod_modEq _ _
  have hserver : modpow g exponent p * modpow (parameters.verifier hashes password) u p ≡
      g ^ (exponent + u * x) [MOD p] := by
    have hverifier : modpow (parameters.verifier hashes password) u p = g ^ (x * u) % p := by
      rw [PasswordSrpParameters.verifier, modpow_modpow hpositive, modpow_eq hpositive]
    rw [hverifier, modpow_eq hpositive, pow_add, Nat.mul_comm u x]
    exact (Nat.mod_modEq _ _).mul (Nat.mod_modEq _ _)
  calc parameters.clientSecret hashes password exponent (server.publicB hashes)
      = modpow ((server.publicB hashes + p - parameters.kv hashes password) % p)
          (exponent + u * x) p := rfl
    _ = (g ^ secret) ^ (exponent + u * x) % p := by
        rw [modpow_congr hpositive hclient, modpow_eq hpositive]
    _ = (g ^ (exponent + u * x)) ^ secret % p := by
        rw [← pow_mul, ← pow_mul, Nat.mul_comm]
    _ = modpow (modpow g exponent p * modpow (parameters.verifier hashes password) u p)
          secret p := by
        rw [modpow_congr hpositive hserver, modpow_eq hpositive]

/-- A client and an honest server with the verifier of its password share their secret and
the proof; nothing underflows on the way and every number fits into its 256 bytes. -/
theorem srp_agreement {password : String} {parameters : PasswordSrpParameters}
    {exponentBytes : Vector UInt8 256} {proof : PasswordSrpProof} {secret : ℕ}
    (hproof : computePasswordSrpProofWithRandom hashes password parameters (.ok exponentBytes) =
      .ok proof)
    (hserver : ofBe parameters.serverB =
      SrpServer.publicB hashes ⟨parameters, parameters.verifier hashes password, secret⟩) :
    let server : SrpServer := ⟨parameters, parameters.verifier hashes password, secret⟩
    let clientA := modpow parameters.generatorNumber (ofBe exponentBytes.toList)
      parameters.primeNumber
    let sharedSecret := parameters.clientSecret hashes password (ofBe exponentBytes.toList)
      (ofBe parameters.serverB)
    proof.m1 = server.m1 hashes proof.a ∧ sharedSecret = server.secretWith hashes clientA ∧
      parameters.kv hashes password ≤ ofBe parameters.serverB + parameters.primeNumber ∧
      ∀ value ∈ [parameters.generatorNumber, clientA, ofBe parameters.serverB, sharedSecret],
        ofBe (padded256 value).toList = value := by
  intro server clientA sharedSecret
  obtain ⟨_, hrandom, hprime, hbelow, rfl⟩ := computePasswordSrpProof_ok hproof
  obtain rfl := Except.ok.inj hrandom
  have hnumber : parameters.primeNumber = ofBe knownDhPrime := by
    rw [PasswordSrpParameters.primeNumber, hprime]
  have hpositive : 0 < parameters.primeNumber := by
    rw [hnumber]
    exact knownDhPrime_pos
  have hfits : ∀ value < parameters.primeNumber, ofBe (padded256 value).toList = value := by
    intro value hvalue
    apply ofBe_padded256
    have hbytes := ofBe_lt knownDhPrime
    rw [length_knownDhPrime, ← hnumber] at hbytes
    exact hvalue.trans hbytes
  have hclientA : clientA < parameters.primeNumber := modpow_lt hpositive _ _
  have hshared : sharedSecret = server.secretWith hashes clientA := by
    change parameters.clientSecret hashes password _ (ofBe parameters.serverB) = _
    rw [hserver]
    exact clientSecret_eq hpositive _ _
  refine ⟨?_, hshared, ?_, ?_⟩
  · have hread : ofBe (padded256 clientA).toList = clientA := hfits clientA hclientA
    change parameters.m1 hashes clientA (ofBe parameters.serverB) sharedSecret =
      parameters.m1 hashes (ofBe (padded256 clientA).toList) (server.publicB hashes)
        (server.secretWith hashes (ofBe (padded256 clientA).toList))
    rw [hread, hshared, hserver]
  · have hkv : parameters.kv hashes password < parameters.primeNumber :=
      Nat.mod_lt _ hpositive
    omega
  · have hgenerator : parameters.generatorNumber < 256 ^ 256 := by
      have h32 := parameters.generator.toUInt32.toNat_lt
      exact h32.trans (Nat.pow_lt_pow_right (by decide) (by decide) :
        (256 : ℕ) ^ 4 < 256 ^ 256)
    simp only [List.forall_mem_cons]
    refine ⟨ofBe_padded256 hgenerator, hfits _ hclientA, hfits _ hbelow, hfits _ ?_,
      List.forall_mem_nil _⟩
    exact modpow_lt hpositive _ _

theorem ofBe_publicB (server : SrpServer) (h : server.parameters.prime = knownDhPrime) :
    ofBe (padded256 (server.publicB hashes)).toList = server.publicB hashes := by
  have hnumber : server.parameters.primeNumber = ofBe knownDhPrime := by
    rw [PasswordSrpParameters.primeNumber, h]
  have hpositive : 0 < server.parameters.primeNumber := by
    rw [hnumber]
    exact knownDhPrime_pos
  have hbelow : server.publicB hashes < server.parameters.primeNumber := Nat.mod_lt _ hpositive
  have hbytes := ofBe_lt knownDhPrime
  rw [length_knownDhPrime, ← hnumber] at hbytes
  exact ofBe_padded256 (hbelow.trans hbytes)

theorem publicB_serverB (parameters : PasswordSrpParameters) (serverB : List UInt8)
    (password : String) (secret : ℕ) :
    SrpServer.publicB hashes ⟨{ parameters with serverB := serverB },
        { parameters with serverB := serverB }.verifier hashes password, secret⟩ =
      SrpServer.publicB hashes ⟨parameters, parameters.verifier hashes password, secret⟩ := rfl

end

namespace Lotus

def hashes : SrpHashes where
  sha256 bytes := Vector.ofFn fun i : Fin 32 ↦ (Sha256.digest bytes).getD i 0
  pbkdf2 _ _ _ := #v[216, 116, 149, 96, 38, 41, 226, 130, 251, 153, 166, 111, 79, 50, 159, 79, 195,
    195, 127, 85, 9, 177, 102, 161, 13, 221, 18, 253, 205, 244, 233, 157, 254, 221, 41, 60, 122,
    170, 50, 214, 76, 226, 131, 62, 119, 154, 244, 79, 201, 168, 74, 230, 12, 203, 12, 102, 140,
    153, 115, 154, 84, 88, 233, 30]

def account : PasswordSrpParameters where
  srpId := 1
  salt1 := [1]
  salt2 := [2]
  generator := 3
  prime := knownDhPrime
  serverB := []

def verifier : ℕ :=
  account.verifier hashes "lotus"

def parameters : PasswordSrpParameters :=
  { account with
    serverB := (padded256 (SrpServer.publicB hashes ⟨account, verifier, 3⟩)).toList }

theorem computed : (computePasswordSrpProofWithRandom hashes "lotus" parameters
    (.ok (padded256 2))).isOk = true := by
  decide +kernel

theorem ofBe_serverB : ofBe parameters.serverB =
    SrpServer.publicB hashes ⟨parameters, parameters.verifier hashes "lotus", 3⟩ := by
  unfold parameters
  rw [publicB_serverB]
  apply ofBe_publicB
  dsimp only [account]

end Lotus

theorem srp_agreement_lotus :
    ∃ proof, computePasswordSrpProofWithRandom Lotus.hashes "lotus" Lotus.parameters
        (.ok (padded256 2)) = .ok proof ∧
      let server : SrpServer :=
        ⟨Lotus.parameters, Lotus.parameters.verifier Lotus.hashes "lotus", 3⟩
      let clientA := modpow Lotus.parameters.generatorNumber (ofBe (padded256 2).toList)
        Lotus.parameters.primeNumber
      let sharedSecret := Lotus.parameters.clientSecret Lotus.hashes "lotus"
        (ofBe (padded256 2).toList) (ofBe Lotus.parameters.serverB)
      proof.m1 = server.m1 Lotus.hashes proof.a ∧
        sharedSecret = server.secretWith Lotus.hashes clientA ∧
        Lotus.parameters.kv Lotus.hashes "lotus" ≤
          ofBe Lotus.parameters.serverB + Lotus.parameters.primeNumber ∧
        ∀ value ∈ [Lotus.parameters.generatorNumber, clientA, ofBe Lotus.parameters.serverB,
          sharedSecret], ofBe (padded256 value).toList = value := by
  obtain ⟨proof, hproof⟩ := exists_of_isOk Lotus.computed
  refine ⟨proof, hproof, srp_agreement hproof ?_⟩
  exact Lotus.ofBe_serverB

end Fabushi.Telegram
