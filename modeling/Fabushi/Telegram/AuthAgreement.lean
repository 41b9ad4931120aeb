import Fabushi.Library.Bytes
import Fabushi.Telegram.Authorization

/-!
# The machine and the builders

The machine normalises a number and bounds its digits, the builder of the request takes
plain numbers only and bounds their bytes from below. A code may have letters for the
machine and any length for the builder. The passwords of the two are the same.
-/

namespace Fabushi.Telegram

open Effects Result Wire

/-! ## Writers that fail on long strings only -/

def SucceedsIff (writer : TlWriter PUnit) (p : Prop) : Prop :=
  ∀ buffer, (∃ u, result writer buffer = .ok u) ↔ p

theorem succeedsIff_push (bytes : List UInt8) : SucceedsIff (push bytes) True :=
  fun _ ↦ iff_of_true ⟨⟨⟩, rfl⟩ trivial

theorem SucceedsIff.bind {writer rest : TlWriter PUnit} {p q : Prop} (h : SucceedsIff writer p)
    (hrest : SucceedsIff rest q) : SucceedsIff (writer >>= fun _ ↦ rest) (p ∧ q) := by
  intro buffer
  rw [← h buffer]
  constructor
  · rintro ⟨u, hu⟩
    cases hwriter : result writer buffer with
    | error e =>
        rw [result_bind_error hwriter] at hu
        cases hu
    | ok v =>
        rw [result_bind_ok hwriter] at hu
        exact ⟨⟨v, rfl⟩, (hrest _).mp ⟨u, hu⟩⟩
  · rintro ⟨⟨v, hv⟩, hq⟩
    rw [result_bind_ok hv]
    exact (hrest _).mpr hq

theorem SucceedsIff.congr {writer : TlWriter PUnit} {p q : Prop} (h : SucceedsIff writer p)
    (hpq : p ↔ q) : SucceedsIff writer q :=
  fun buffer ↦ (h buffer).trans hpq

def Writable (value : String) : Prop :=
  Text.len value ≤ 0xffffff

instance (value : String) : Decidable (Writable value) :=
  inferInstanceAs (Decidable (_ ≤ _))

theorem succeedsIff_writeBytes (value : List UInt8) :
    SucceedsIff (TlWriter.writeBytes value) (value.length ≤ 0xffffff) := by
  intro buffer
  by_cases hlong : 0xffffff < value.length
  · have hheader : result (TlWriter.writeBytesHeader value.length) buffer =
        .error .lengthOutOfRange := by
      rw [TlWriter.writeBytesHeader, if_neg (by unfold shortBytesLimit; omega), if_pos hlong]
      rfl
    rw [TlWriter.writeBytes, result_bind_error hheader]
    exact iff_of_false (fun ⟨_, h⟩ ↦ by cases h) (by omega)
  · refine iff_of_true ?_ (by omega)
    by_cases hshort : value.length < shortBytesLimit
    · refine ⟨⟨⟩, ?_⟩
      rw [TlWriter.writeBytes, TlWriter.writeBytesHeader, if_pos hshort]
      rfl
    · refine ⟨⟨⟩, ?_⟩
      rw [TlWriter.writeBytes, TlWriter.writeBytesHeader, if_neg hshort, if_neg hlong]
      rfl

theorem succeedsIff_writeString (value : String) :
    SucceedsIff (TlWriter.writeString value) (Writable value) := by
  rw [Writable, ← Bytes.length_bytes]
  exact succeedsIff_writeBytes _

theorem requestBytes_isOk_iff {writer : TlWriter PUnit} {p : Prop} (h : SucceedsIff writer p) :
    (∃ bytes, requestBytes writer = .ok bytes) ↔ p := by
  rw [← h []]
  cases hresult : result writer [] with
  | error e => simp [requestBytes, hresult, Except.mapError, bind, Except.bind]
  | ok u => simp [requestBytes, hresult, Except.mapError, bind, Except.bind, pure, Except.pure]

/-! ## Numbers -/

def PlainNumber (number : String) : Prop :=
  number.toList.head? = some '+' ∧ (number.toList.drop 1).all Text.isAsciiDigit = true

def International (number : String) : Prop :=
  (Text.trim number).toList.head? = some '+'

def digitCount (number : String) : ℕ :=
  ((Text.trim number).toList.filter Text.isAsciiDigit).length

theorem PlainNumber.exists_digits {number : String} (h : PlainNumber number) :
    ∃ digits, number.toList = '+' :: digits ∧ ∀ d ∈ digits, Text.isAsciiDigit d = true := by
  obtain ⟨hplus, hdigits⟩ := h
  cases hlist : number.toList with
  | nil =>
      rw [hlist] at hplus
      cases hplus
  | cons c digits =>
      rw [hlist] at hplus hdigits
      obtain rfl := Option.some.inj hplus
      exact ⟨digits, rfl, List.all_eq_true.mp hdigits⟩

theorem plainNumber_ofList {digits : List Char} (h : ∀ d ∈ digits, Text.isAsciiDigit d = true) :
    PlainNumber (String.ofList ('+' :: digits)) := by
  rw [PlainNumber, String.toList_ofList]
  exact ⟨rfl, List.all_eq_true.mpr h⟩

theorem PlainNumber.spec {number : String} (h : PlainNumber number) :
    International number ∧ Text.len number = digitCount number + 1 ∧
      number.toList = '+' :: (Text.trim number).toList.filter Text.isAsciiDigit := by
  obtain ⟨digits, hlist, hdigits⟩ := h.exists_digits
  have hascii : ∀ c ∈ number.toList, 33 ≤ c.toNat ∧ c.toNat < 127 := by
    rw [hlist]
    intro c hc
    rcases List.mem_cons.mp hc with rfl | hc
    · decide
    · have hrange := Ascii.isAsciiDigit_iff.mp (hdigits c hc)
      omega
  have htrim : Text.trim number = number :=
    Text.trim_eq_self fun c hc ↦ Ascii.isWhitespace_of_graphic (hascii c hc)
  have hfilter : ('+' :: digits).filter Text.isAsciiDigit = digits := by
    rw [List.filter_cons_of_neg (by decide), List.filter_eq_self]
    exact hdigits
  have hlen : Text.len number = number.toList.length :=
    Ascii.len_eq_length fun c hc ↦ (hascii c hc).2.trans (by norm_num)
  rw [International, digitCount, htrim, hlen, hlist, hfilter]
  exact ⟨rfl, rfl, rfl⟩

def SubmitsNumber (number carried : String) : Prop :=
  (AuthorizationMachine.mk .waitPhoneNumber).execute (.submitPhoneNumber number) =
    .ok ([.phoneNumberSubmitted carried], .mk .waitPhoneNumber)

theorem submitsNumber_iff {number carried : String} :
    SubmitsNumber number carried ↔
      (International number ∧ 6 ≤ digitCount number ∧ digitCount number ≤ 20) ∧
        carried = String.ofList
          ('+' :: (Text.trim number).toList.filter Text.isAsciiDigit) := by
  have hnormalize : ∀ normalized, normalizePhoneNumber number = .ok normalized ↔
      (International number ∧ 6 ≤ digitCount number ∧ digitCount number ≤ 20) ∧
        normalized = String.ofList
          ('+' :: (Text.trim number).toList.filter Text.isAsciiDigit) := by
    intro normalized
    rw [normalizePhoneNumber, International, digitCount]
    split_ifs with h
    · refine iff_of_false nofun fun hall ↦ ?_
      rcases h with h | h
      · exact h hall.1.1
      · exact h hall.1.2
    · rw [not_or, not_not, not_not] at h
      rw [Except.ok.injEq, and_iff_right h, eq_comm]
  simp only [SubmitsNumber, AuthorizationMachine.execute, AuthorizationMachine.decide, bind_eq_ok]
  constructor
  · rintro ⟨events, ⟨normalized, hok, hevents⟩, hpure⟩
    obtain rfl := Except.ok.inj hevents
    have hevent := (Prod.mk.inj (Except.ok.inj hpure)).1
    rw [List.cons.injEq, AuthEvent.phoneNumberSubmitted.injEq] at hevent
    rw [← hevent.1]
    exact (hnormalize normalized).mp hok
  · intro h
    exact ⟨_, ⟨carried, (hnormalize carried).mpr h, rfl⟩, rfl⟩

structure AuthContext where
  apiId : Int32
  apiHash : String
  phoneCodeHash : String
  apiId_pos : 0 < apiId.toInt
  apiHash_nonempty : Text.isBlank apiHash = false
  apiHash_writable : Writable apiHash
  phoneCodeHash_nonempty : Text.isBlank phoneCodeHash = false
  phoneCodeHash_writable : Writable phoneCodeHash

def BuildsSendCode (context : AuthContext) (number : String) : Prop :=
  ∃ bytes, buildAuthSendCode number context.apiId context.apiHash = .ok bytes

theorem validatePhoneNumber_eq_ok {number : String} {u : Unit} :
    validatePhoneNumber number = .ok u ↔ PlainNumber number ∧ 7 ≤ digitCount number := by
  rw [validatePhoneNumber, ensure_eq_ok, not_or, not_or, not_not, not_not]
  constructor
  · rintro ⟨hlen, hplain⟩
    have hbytes := (PlainNumber.spec hplain).2.1
    exact ⟨hplain, by omega⟩
  · rintro ⟨hplain, hdigits⟩
    have hbytes := hplain.spec.2.1
    exact ⟨by omega, hplain⟩

theorem requireNonempty_eq_ok {value : String} (h : Text.isBlank value = false)
    (field : String) : requireNonempty value field = .ok () := by
  rw [requireNonempty, h]
  rfl

theorem buildsSendCode_iff {context : AuthContext} {number : String} :
    BuildsSendCode context number ↔
      PlainNumber number ∧ 7 ≤ digitCount number ∧ digitCount number ≤ 0xfffffe := by
  have hwriter : SucceedsIff (do
      TlWriter.writeU32 authSendCodeConstructor
      TlWriter.writeString number
      TlWriter.writeI32 context.apiId
      TlWriter.writeString context.apiHash
      TlWriter.writeU32 codeSettingsConstructor
      TlWriter.writeI32 0) (Writable number) := by
    refine SucceedsIff.congr ((succeedsIff_push _).bind
      ((succeedsIff_writeString number).bind ((succeedsIff_push _).bind
        ((succeedsIff_writeString context.apiHash).bind
          ((succeedsIff_push _).bind (succeedsIff_push _)))))) ?_
    simp only [true_and, and_true, context.apiHash_writable]
  have hcredentials : validateCredentials context.apiId context.apiHash = .ok () := by
    rw [validateCredentials, bind_eq_ok]
    exact ⟨(), ensure_eq_ok.mpr (not_le.mpr context.apiId_pos),
      requireNonempty_eq_ok context.apiHash_nonempty _⟩
  have hbytes : BuildsSendCode context number ↔
      (PlainNumber number ∧ 7 ≤ digitCount number) ∧ Writable number := by
    rw [← requestBytes_isOk_iff hwriter]
    simp only [BuildsSendCode, buildAuthSendCode, bind_eq_ok, hcredentials,
      validatePhoneNumber_eq_ok, exists_const, true_and, exists_and_left]
  rw [hbytes, and_assoc]
  apply and_congr_right
  intro hplain
  apply and_congr_right
  intro _
  rw [Writable, hplain.spec.2.1]
  omega

/-! ## Codes and passwords -/

def ShortCode (code : String) : Prop :=
  Text.trim code ≠ "" ∧ Text.len (Text.trim code) ≤ 16 ∧
    (Text.trim code).toList.all Text.isAsciiAlphanumeric = true

def DigitCode (code : String) : Prop :=
  code ≠ "" ∧ code.toList.all Text.isAsciiDigit = true

/-- The machine takes the code, whatever it knows of the code that was sent. -/
def SubmitsCode (code : String) : Prop :=
  ∀ phoneNumber deliveryType codeLength timeoutSeconds,
    (AuthorizationMachine.mk (.waitCode phoneNumber deliveryType codeLength
        timeoutSeconds)).execute (.submitCode code) =
      .ok ([.codeSubmitted], .mk (.waitCode phoneNumber deliveryType codeLength timeoutSeconds))

theorem submitsCode_iff {code : String} : SubmitsCode code ↔ ShortCode code := by
  have hcheck : (¬ (Text.trim code = "" ∨ 16 < Text.len (Text.trim code) ∨
      ¬ (Text.trim code).toList.all Text.isAsciiAlphanumeric = true)) ↔ ShortCode code := by
    rw [ShortCode, not_or, not_or, not_lt, not_not]
  simp only [SubmitsCode, AuthorizationMachine.execute, AuthorizationMachine.decide, bind_eq_ok,
    ensure_eq_ok, hcheck]
  constructor
  · intro h
    obtain ⟨-, ⟨-, hshort, -⟩, -⟩ := h "" .unknown 0 none
    exact hshort
  · intro h _ _ _ _
    exact ⟨_, ⟨(), h, rfl⟩, rfl⟩

/-- The request of the code is built, behind a number that the first request was built for. -/
def BuildsSignIn (context : AuthContext) (number code : String) : Prop :=
  ∃ bytes, buildAuthSignIn number context.phoneCodeHash code = .ok bytes

theorem buildsSignIn_iff {context : AuthContext} {number code : String}
    (hnumber : BuildsSendCode context number) :
    BuildsSignIn context number code ↔ DigitCode code ∧ code.toList.length ≤ 0xffffff := by
  obtain ⟨hplain, hdigits, hle⟩ := buildsSendCode_iff.mp hnumber
  have hnumberWritable : Writable number := by
    rw [Writable, hplain.spec.2.1]
    omega
  have hwriter : SucceedsIff (do
      TlWriter.writeU32 authSignInConstructor
      TlWriter.writeI32 1
      TlWriter.writeString number
      TlWriter.writeString context.phoneCodeHash
      TlWriter.writeString code) (Writable code) := by
    refine SucceedsIff.congr ((succeedsIff_push _).bind ((succeedsIff_push _).bind
      ((succeedsIff_writeString number).bind
        ((succeedsIff_writeString context.phoneCodeHash).bind (succeedsIff_writeString code))))) ?_
    simp only [true_and, hnumberWritable, context.phoneCodeHash_writable]
  have hnumberOk : validatePhoneNumber number = .ok () :=
    validatePhoneNumber_eq_ok.mpr ⟨hplain, hdigits⟩
  have hcheck : (¬ (code = "" ∨ ¬ code.toList.all Text.isAsciiDigit = true)) ↔
      DigitCode code := by
    rw [DigitCode, not_or, not_not]
  have hbytes : BuildsSignIn context number code ↔ DigitCode code ∧ Writable code := by
    rw [← requestBytes_isOk_iff hwriter]
    simp only [BuildsSignIn, buildAuthSignIn, bind_eq_ok, hnumberOk,
      requireNonempty_eq_ok context.phoneCodeHash_nonempty, ensure_eq_ok, hcheck, exists_const,
      true_and, exists_and_left]
  rw [hbytes]
  apply and_congr_right
  rintro ⟨-, hall⟩
  have hlen : Text.len code = code.toList.length := by
    apply Ascii.len_eq_length
    intro c hc
    have hrange := Ascii.isAsciiDigit_iff.mp (List.all_eq_true.mp hall c hc)
    omega
  rw [Writable, hlen]

theorem DigitCode.shortCode_iff {code : String} (h : DigitCode code) :
    ShortCode code ↔ code.toList.length ≤ 16 := by
  obtain ⟨hne, hall⟩ := h
  have hascii : ∀ c ∈ code.toList, 48 ≤ c.toNat ∧ c.toNat ≤ 57 :=
    fun c hc ↦ Ascii.isAsciiDigit_iff.mp (List.all_eq_true.mp hall c hc)
  have htrim : Text.trim code = code :=
    Text.trim_eq_self fun c hc ↦ Ascii.isWhitespace_of_graphic (by have := hascii c hc; omega)
  have hlen : Text.len code = code.toList.length :=
    Ascii.len_eq_length fun c hc ↦ by have := hascii c hc; omega
  have halnum : code.toList.all Text.isAsciiAlphanumeric = true :=
    List.all_eq_true.mpr fun c hc ↦
      Ascii.isAsciiAlphanumeric_iff.mpr (Or.inr (Or.inr (hascii c hc)))
  rw [ShortCode, htrim, hlen, and_iff_right hne, and_iff_left halnum]

def SubmitsPassword (password : String) : Prop :=
  ∀ passwordHint hasRecoveryEmail recoveryEmailPattern,
    (AuthorizationMachine.mk (.waitPassword passwordHint hasRecoveryEmail
        recoveryEmailPattern)).execute (.submitPassword password) =
      .ok ([.passwordSubmitted],
        .mk (.waitPassword passwordHint hasRecoveryEmail recoveryEmailPattern))

theorem submitsPassword_iff {password : String} : SubmitsPassword password ↔ password ≠ "" := by
  simp only [SubmitsPassword, AuthorizationMachine.execute, AuthorizationMachine.decide, bind_eq_ok,
    ensure_eq_ok]
  constructor
  · intro h
    obtain ⟨-, ⟨-, hne, -⟩, -⟩ := h "" false none
    exact hne
  · intro h _ _ _
    exact ⟨_, ⟨(), h, rfl⟩, rfl⟩

theorem buildAuthCheckPassword_isOk (proof : PasswordSrpProof) :
    ∃ bytes, buildAuthCheckPassword proof = .ok bytes := by
  have hwriter : SucceedsIff proof.encodeInputCheckPassword True := by
    refine SucceedsIff.congr ((succeedsIff_push _).bind ((succeedsIff_push _).bind
      ((succeedsIff_writeBytes proof.a.toList).bind (succeedsIff_writeBytes proof.m1.toList)))) ?_
    simp
  obtain ⟨u, hu⟩ := (hwriter []).mpr trivial
  rw [buildAuthCheckPassword, hu]
  exact ⟨_, rfl⟩

/-- The request of the password is built: there is a proof for it, and its bytes. -/
def BuildsCheckPassword (hashes : SrpHashes) (parameters : PasswordSrpParameters)
    (fillRandom : Except SrpError (Vector UInt8 256)) (password : String) : Prop :=
  ∃ proof bytes, computePasswordSrpProofWithRandom hashes password parameters fillRandom =
    .ok proof ∧ buildAuthCheckPassword proof = .ok bytes

/-! ## Agreement -/

/-- What the step of the machine carries the builder takes, and what the builder takes the
machine takes. -/
def NumberAgrees (context : AuthContext) (number : String) : Prop :=
  (∀ carried, SubmitsNumber number carried → BuildsSendCode context carried) ∧
    (BuildsSendCode context number → ∃ carried, SubmitsNumber number carried)

def EnteredNumberAgrees (context : AuthContext) (number : String) : Prop :=
  (∃ carried, SubmitsNumber number carried) ↔ BuildsSendCode context number

def CodeAgrees (context : AuthContext) (number code : String) : Prop :=
  SubmitsCode code ↔ BuildsSignIn context number code

/-- Wherever some password has a proof, one has a proof exactly when the machine takes it. -/
def PasswordAgrees (password : String) : Prop :=
  ∀ hashes parameters fillRandom,
    (∃ other, BuildsCheckPassword hashes parameters fillRandom other) →
      (SubmitsPassword password ↔ BuildsCheckPassword hashes parameters fillRandom password)

def SixDigits (number : String) : Prop :=
  International number ∧ digitCount number = 6

def TooManyDigits (number : String) : Prop :=
  PlainNumber number ∧ 20 < digitCount number ∧ digitCount number ≤ 0xfffffe

theorem exists_submitsNumber_iff {number : String} :
    (∃ carried, SubmitsNumber number carried) ↔
      International number ∧ 6 ≤ digitCount number ∧ digitCount number ≤ 20 := by
  simp only [submitsNumber_iff, exists_and_left, exists_eq, and_true]

theorem plainNumber_carried {number carried : String} (h : SubmitsNumber number carried) :
    PlainNumber carried ∧ digitCount carried = digitCount number := by
  obtain ⟨-, rfl⟩ := submitsNumber_iff.mp h
  have hdigits : ∀ d ∈ (Text.trim number).toList.filter Text.isAsciiDigit,
      Text.isAsciiDigit d = true := fun d hd ↦ (List.mem_filter.mp hd).2
  have hplain := plainNumber_ofList hdigits
  refine ⟨hplain, ?_⟩
  have hlist := hplain.spec.2.2
  rw [String.toList_ofList] at hlist
  rw [digitCount, ← (List.cons.inj hlist).2, digitCount]

theorem numberAgrees_iff (context : AuthContext) (number : String) :
    NumberAgrees context number ↔ ¬ SixDigits number ∧ ¬ TooManyDigits number := by
  apply and_congr
  · constructor
    · rintro hforward ⟨hinternational, hsix⟩
      obtain ⟨carried, hcarried⟩ := exists_submitsNumber_iff.mpr
        ⟨hinternational, hsix.ge, by omega⟩
      obtain ⟨-, hcount⟩ := plainNumber_carried hcarried
      obtain ⟨-, hseven, -⟩ := buildsSendCode_iff.mp (hforward carried hcarried)
      omega
    · intro hsix carried hcarried
      obtain ⟨hinternational, hge, hle⟩ := exists_submitsNumber_iff.mp ⟨carried, hcarried⟩
      obtain ⟨hplain, hcount⟩ := plainNumber_carried hcarried
      have hne : digitCount number ≠ 6 := fun heq ↦ hsix ⟨hinternational, heq⟩
      exact buildsSendCode_iff.mpr ⟨hplain, by omega, by omega⟩
  · rw [exists_submitsNumber_iff, buildsSendCode_iff]
    constructor
    · rintro hback ⟨hplain, hmany, hle⟩
      have hfew := (hback ⟨hplain, by omega, hle⟩).2.2
      omega
    · rintro hmany ⟨hplain, hge, hle⟩
      refine ⟨hplain.spec.1, by omega, ?_⟩
      by_contra hgt
      exact hmany ⟨hplain, by omega, hle⟩

theorem enteredNumberAgrees_iff (context : AuthContext) (number : String) :
    EnteredNumberAgrees context number ↔
      (International number → 6 ≤ digitCount number → digitCount number ≤ 20 →
        PlainNumber number) ∧ ¬ SixDigits number ∧ ¬ TooManyDigits number := by
  rw [EnteredNumberAgrees, exists_submitsNumber_iff, buildsSendCode_iff, SixDigits, TooManyDigits]
  constructor
  · intro hiff
    refine ⟨fun hinternational hge hle ↦ (hiff.mp ⟨hinternational, hge, hle⟩).1, ?_, ?_⟩
    · rintro ⟨hinternational, hsix⟩
      have hseven := (hiff.mp ⟨hinternational, by omega, by omega⟩).2.1
      omega
    · rintro ⟨hplain, hmany, hle⟩
      have hfew := (hiff.mpr ⟨hplain, by omega, hle⟩).2.2
      omega
  · rintro ⟨hplain, hsix, hmany⟩
    constructor
    · rintro ⟨hinternational, hge, hle⟩
      have hne : digitCount number ≠ 6 := fun heq ↦ hsix ⟨hinternational, heq⟩
      exact ⟨hplain hinternational hge hle, by omega, by omega⟩
    · rintro ⟨hnumber, hge, hle⟩
      refine ⟨hnumber.spec.1, by omega, ?_⟩
      by_contra hgt
      exact hmany ⟨hnumber, by omega, hle⟩

theorem codeAgrees_iff {context : AuthContext} {number : String}
    (hnumber : BuildsSendCode context number) (code : String) :
    CodeAgrees context number code ↔ (ShortCode code → DigitCode code) ∧
      ¬ (DigitCode code ∧ 16 < code.toList.length ∧ code.toList.length ≤ 0xffffff) := by
  rw [CodeAgrees, submitsCode_iff, buildsSignIn_iff hnumber]
  by_cases hdigits : DigitCode code
  · have hshort := hdigits.shortCode_iff
    simp only [hshort, hdigits, true_and, implies_true]
    omega
  · simp only [hdigits, false_and, not_false_eq_true, and_true, iff_false, imp_false]

theorem passwordAgrees (password : String) : PasswordAgrees password := by
  rintro hashes parameters fillRandom ⟨other, proof, bytes, hother, -⟩
  rw [submitsPassword_iff]
  constructor
  · intro hne
    simp only [computePasswordSrpProofWithRandom, bind_eq_ok, ensure_eq_ok] at hother
    obtain ⟨-, -, u, hprime, -, hlength, -, hserver, random, hrandom, -, hexponent, -⟩ := hother
    have hproof : ∃ proof, computePasswordSrpProofWithRandom hashes password parameters
        fillRandom = .ok proof := by
      simp only [computePasswordSrpProofWithRandom, bind_eq_ok, ensure_eq_ok]
      exact ⟨_, (), hne, u, hprime, (), hlength, (), hserver, random, hrandom, (), hexponent, rfl⟩
    obtain ⟨proof, hproof⟩ := hproof
    obtain ⟨bytes, hbytes⟩ := buildAuthCheckPassword_isOk proof
    exact ⟨proof, bytes, hproof, hbytes⟩
  · rintro ⟨proof, bytes, hproof, -⟩
    simp only [computePasswordSrpProofWithRandom, bind_eq_ok, ensure_eq_ok] at hproof
    exact hproof.choose_spec.1

/-- Where the machine and the builders agree: numbers that are no six digits and not too many,
entered without anything between the digits where they are sent as they were entered; codes of
digits only, no more than sixteen of them; every password. -/
theorem authorization_agrees_iff (context : AuthContext) :
    (∀ number, NumberAgrees context number ↔ ¬ SixDigits number ∧ ¬ TooManyDigits number) ∧
      (∀ number, EnteredNumberAgrees context number ↔
        (International number → 6 ≤ digitCount number → digitCount number ≤ 20 →
          PlainNumber number) ∧ ¬ SixDigits number ∧ ¬ TooManyDigits number) ∧
      (∀ number, BuildsSendCode context number → ∀ code,
        CodeAgrees context number code ↔ (ShortCode code → DigitCode code) ∧
          ¬ (DigitCode code ∧ 16 < code.toList.length ∧ code.toList.length ≤ 0xffffff)) ∧
      ∀ password, PasswordAgrees password :=
  ⟨numberAgrees_iff context, enteredNumberAgrees_iff context,
    fun _ hnumber code ↦ codeAgrees_iff hnumber code, passwordAgrees⟩

def demoContext : AuthContext where
  apiId := 1
  apiHash := "hash"
  phoneCodeHash := "hash"
  apiId_pos := by decide
  apiHash_nonempty := by decide +kernel
  apiHash_writable := by decide +kernel
  phoneCodeHash_nonempty := by decide +kernel
  phoneCodeHash_writable := by decide +kernel

/-- Six digits that the machine takes: no request is built of them. -/
theorem sixDigits_not_built :
    ¬ ∀ (context : AuthContext) (number code : String), NumberAgrees context number ∧
      (BuildsSendCode context number → CodeAgrees context number code) := by
  intro h
  have hsubmits : SubmitsNumber "+123456" "+123456" := by
    unfold SubmitsNumber
    decide +kernel
  have hbuilds := (h demoContext "+123456" "").1.1 _ hsubmits
  have hseven := (buildsSendCode_iff.mp hbuilds).2.1
  exact absurd hseven (by decide +kernel)

end Fabushi.Telegram
