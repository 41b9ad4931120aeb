import Fabushi.Messaging.Access
import Fabushi.Library.Table

/-!
# The access tokens along a run

What the callers of the registry have seen, the grants they were given, the tokens
that replaced other tokens and the revocations, is a history. The registry is a
function of its history, up to the digests it keeps in place of the tokens. So a
token is accepted exactly when the history says that it is the current one of a grant
in force.
-/

namespace Fabushi.Messaging

open Result

/-! ## Histories -/

inductive AccessEvent where
  | issued (grant : AccessGrant) (token : Token)
  | rotated (grantId : String) (token : Token)
  | revoked (grantId : String) (nowMs : Int64)
  deriving DecidableEq

namespace AccessEvent

def issuedGrant : AccessEvent → Option AccessGrant
  | .issued grant _ => some grant
  | _ => none

def token : AccessEvent → Option Token
  | .issued _ token | .rotated _ token => some token
  | .revoked .. => none

def tokenFor (id : String) : AccessEvent → Option Token
  | .issued grant token => if grant.id = id then some token else none
  | .rotated grantId token => if grantId = id then some token else none
  | .revoked .. => none

def revocationOf (id : String) : AccessEvent → Option Int64
  | .revoked grantId nowMs => if grantId = id then some nowMs else none
  | _ => none

end AccessEvent

abbrev AccessHistory := List AccessEvent

namespace AccessHistory

variable (history : AccessHistory)

def grants : List AccessGrant :=
  history.filterMap AccessEvent.issuedGrant

def tokens : List Token :=
  history.filterMap AccessEvent.token

def tokensOf (id : String) : List Token :=
  history.filterMap (AccessEvent.tokenFor id)

def currentToken (id : String) : Option Token :=
  (tokensOf history id).getLast?

def revokedAtMs (id : String) : Option Int64 :=
  (history.filterMap (AccessEvent.revocationOf id)).getLast?

def entry (grant : AccessGrant) : SecretGrant :=
  { tokenSha256 := tokenHash ((currentToken history grant.id).getD [])
    grant := { grant with
      revokedAtMs := (revokedAtMs history grant.id).or grant.revokedAtMs } }

def registry : AccessTokenRegistry :=
  { grants := (grants history).map (entry history) }

structure Holds (token : Token) (grant : AccessGrant) (nowMs : Int64) : Prop where
  issued : grant ∈ grants history
  current : currentToken history grant.id = some token
  unrevoked : grant.revokedAtMs = none ∧ ∀ atMs, .revoked grant.id atMs ∉ history
  unexpired : ∀ expiresAtMs, grant.expiresAtMs = some expiresAtMs → nowMs < expiresAtMs

end AccessHistory

/-! ## Sound histories -/

namespace AccessHistory

def Admits (history : AccessHistory) : AccessEvent → Prop
  | .issued grant token => tokenBytes ≤ token.length ∧
      ∀ old ∈ grants history, old.id ≠ grant.id ∧ currentToken history old.id ≠ some token
  | .rotated grantId token => tokenBytes ≤ token.length ∧ token ∉ tokens history ∧
      ∃ grant ∈ grants history, grant.id = grantId
  | .revoked grantId _ => ∃ grant ∈ grants history, grant.id = grantId

/-- Every event is one that the history before it admits. -/
def Sound (history : AccessHistory) : Prop :=
  ∀ before event after, history = before ++ event :: after → Admits before event

theorem sound_nil : Sound [] := by
  intro before event after h
  simp at h

theorem sound_append {xs ys : AccessHistory} (h : Sound (xs ++ ys)) : Sound xs := by
  intro before event after hsplit
  refine h before event (after ++ ys) ?_
  rw [hsplit, List.append_assoc, List.cons_append]

theorem sound_concat {history : AccessHistory} {event : AccessEvent} :
    Sound (history ++ [event]) ↔ Sound history ∧ Admits history event := by
  constructor
  · intro h
    exact ⟨sound_append h, h history event [] rfl⟩
  · rintro ⟨hsound, hadmits⟩ before event' after hsplit
    rcases List.eq_nil_or_concat after with rfl | ⟨front, last, rfl⟩
    · obtain ⟨rfl, hevent⟩ := List.append_inj' hsplit rfl
      obtain rfl := List.singleton_inj.mp hevent
      exact hadmits
    · refine hsound before event' front ?_
      rw [List.concat_eq_append, ← List.cons_append, ← List.append_assoc] at hsplit
      exact (List.append_inj' hsplit rfl).1

theorem filterMap_concat {α : Type} (f : AccessEvent → Option α) (history : AccessHistory)
    (event : AccessEvent) :
    (history ++ [event]).filterMap f = history.filterMap f ++ (f event).toList := by
  rw [List.filterMap_append, List.filterMap_cons, List.filterMap_nil]
  cases f event <;> rfl

section Concat

variable (history : AccessHistory) (event : AccessEvent) (id : String)

theorem grants_concat :
    grants (history ++ [event]) = grants history ++ event.issuedGrant.toList :=
  filterMap_concat AccessEvent.issuedGrant history event

theorem tokensOf_concat :
    tokensOf (history ++ [event]) id = tokensOf history id ++ (event.tokenFor id).toList :=
  filterMap_concat (AccessEvent.tokenFor id) history event

theorem currentToken_concat : currentToken (history ++ [event]) id =
    (event.tokenFor id).or (currentToken history id) := by
  unfold currentToken
  rw [tokensOf_concat, List.getLast?_append]
  cases event.tokenFor id <;> rfl

theorem revokedAtMs_concat : revokedAtMs (history ++ [event]) id =
    (event.revocationOf id).or (revokedAtMs history id) := by
  unfold revokedAtMs
  rw [filterMap_concat, List.getLast?_append]
  cases event.revocationOf id <;> rfl

end Concat

variable {history : AccessHistory} {id : String} {token : Token} {grant : AccessGrant}

theorem token_of_tokenFor {event : AccessEvent} (h : event.tokenFor id = some token) :
    event.token = some token ∧ ∀ id' token', event.tokenFor id' = some token' → id' = id := by
  cases event with
  | issued grant token₁ =>
      simp only [AccessEvent.tokenFor, Option.ite_none_right_eq_some] at h ⊢
      obtain ⟨rfl, hsome⟩ := h
      exact ⟨hsome, fun _ _ h ↦ h.1.symm⟩
  | rotated grantId token₁ =>
      simp only [AccessEvent.tokenFor, Option.ite_none_right_eq_some] at h ⊢
      obtain ⟨rfl, hsome⟩ := h
      exact ⟨hsome, fun _ _ h ↦ h.1.symm⟩
  | revoked => cases h

theorem mem_tokens_of_tokensOf (h : token ∈ tokensOf history id) : token ∈ tokens history := by
  obtain ⟨event, hevent, htoken⟩ := List.mem_filterMap.mp h
  exact List.mem_filterMap.mpr ⟨event, hevent, (token_of_tokenFor htoken).1⟩

theorem mem_tokens_of_current (h : currentToken history id = some token) :
    token ∈ tokens history :=
  mem_tokens_of_tokensOf (List.mem_of_getLast? h)

theorem tokenFor_of_grants {event : AccessEvent} (hadmits : Admits history event)
    (hissued : ∀ grant ∈ event.issuedGrant, grant.id ≠ id)
    (hid : ∀ grant ∈ grants history, grant.id ≠ id) :
    event.tokenFor id = none ∧ event.revocationOf id = none := by
  cases event with
  | issued grant token => exact ⟨if_neg (hissued grant rfl), rfl⟩
  | rotated grantId token =>
      obtain ⟨-, -, grant, hgrant, rfl⟩ := hadmits
      exact ⟨if_neg (hid grant hgrant), rfl⟩
  | revoked grantId nowMs =>
      obtain ⟨grant, hgrant, rfl⟩ := hadmits
      exact ⟨rfl, if_neg (hid grant hgrant)⟩

theorem Sound.foreign (hsound : Sound history) (hid : ∀ grant ∈ grants history, grant.id ≠ id) :
    currentToken history id = none ∧ revokedAtMs history id = none := by
  induction history using List.reverseRecOn with
  | nil => exact ⟨rfl, rfl⟩
  | append_singleton history event ih =>
      obtain ⟨hsound, hadmits⟩ := sound_concat.mp hsound
      rw [grants_concat] at hid
      have hold : ∀ grant ∈ grants history, grant.id ≠ id :=
        fun grant hgrant ↦ hid grant (List.mem_append_left _ hgrant)
      have hissued : ∀ grant ∈ event.issuedGrant, grant.id ≠ id :=
        fun grant hgrant ↦ hid grant (List.mem_append_right _ (Option.mem_toList.mpr hgrant))
      obtain ⟨htoken, hrevocation⟩ := tokenFor_of_grants hadmits hissued hold
      obtain ⟨hcurrent, hrevoked⟩ := ih hsound hold
      rw [currentToken_concat, revokedAtMs_concat, htoken, hrevocation, hcurrent, hrevoked]
      exact ⟨rfl, rfl⟩

theorem Sound.pairwise (hsound : Sound history) :
    (grants history).Pairwise fun a b ↦ a.id ≠ b.id := by
  induction history using List.reverseRecOn with
  | nil => exact .nil
  | append_singleton history event ih =>
      obtain ⟨hsound, hadmits⟩ := sound_concat.mp hsound
      rw [grants_concat, List.pairwise_append]
      refine ⟨ih hsound, ?_, ?_⟩
      · cases event.issuedGrant with
        | none => exact .nil
        | some grant => exact List.pairwise_singleton _ _
      · intro old hold new hnew
        cases event with
        | issued grant token =>
            obtain rfl := List.mem_singleton.mp hnew
            exact (hadmits.2 old hold).1
        | rotated | revoked => cases hnew

theorem Sound.current (hsound : Sound history) (hgrant : grant ∈ grants history) :
    ∃ token, currentToken history grant.id = some token ∧ tokenBytes ≤ token.length := by
  induction history using List.reverseRecOn with
  | nil => cases hgrant
  | append_singleton history event ih =>
      obtain ⟨hsound, hadmits⟩ := sound_concat.mp hsound
      rw [grants_concat, List.mem_append] at hgrant
      rw [currentToken_concat]
      have hold : ∀ h : grant ∈ grants history,
          ∃ token, Option.or none (currentToken history grant.id) = some token ∧
            tokenBytes ≤ token.length := fun h ↦ ih hsound h
      cases event with
      | issued new token =>
          simp only [AccessEvent.tokenFor]
          split
          · exact ⟨token, rfl, hadmits.1⟩
          · rename_i hne
            rcases hgrant with hgrant | hgrant
            · exact hold hgrant
            · obtain rfl := List.mem_singleton.mp hgrant
              exact absurd rfl hne
      | rotated grantId token =>
          simp only [AccessEvent.tokenFor]
          split
          · exact ⟨token, rfl, hadmits.1⟩
          · rcases hgrant with hgrant | hgrant
            · exact hold hgrant
            · cases hgrant
      | revoked grantId nowMs =>
          rcases hgrant with hgrant | hgrant
          · exact hold hgrant
          · cases hgrant

theorem Sound.unheld (hsound : Sound history) {event : AccessEvent} (hadmits : Admits history event)
    (htoken : event.token = some token) (id : String) : currentToken history id ≠ some token := by
  intro hcurrent
  cases event with
  | issued grant token₁ =>
      obtain rfl := Option.some.inj htoken
      have hknown : ∃ old ∈ grants history, old.id = id := by
        by_contra hnone
        simp only [not_exists, not_and] at hnone
        rw [(hsound.foreign hnone).1] at hcurrent
        cases hcurrent
      obtain ⟨old, hold, rfl⟩ := hknown
      exact (hadmits.2 old hold).2 hcurrent
  | rotated grantId token₁ =>
      obtain rfl := Option.some.inj htoken
      exact hadmits.2.1 (mem_tokens_of_current hcurrent)
  | revoked => cases htoken

theorem Sound.distinct (hsound : Sound history) {a b : String}
    (ha : currentToken history a = some token) (hb : currentToken history b = some token) :
    a = b := by
  induction history using List.reverseRecOn with
  | nil => cases ha
  | append_singleton history event ih =>
      obtain ⟨hsound, hadmits⟩ := sound_concat.mp hsound
      rw [currentToken_concat] at ha hb
      cases hea : event.tokenFor a with
      | none =>
          rw [hea] at ha
          cases heb : event.tokenFor b with
          | none =>
              rw [heb] at hb
              exact ih hsound ha hb
          | some new =>
              rw [heb] at hb
              obtain rfl := Option.some.inj hb
              exact absurd ha (hsound.unheld hadmits (token_of_tokenFor heb).1 a)
      | some new =>
          rw [hea] at ha
          obtain rfl := Option.some.inj ha
          obtain ⟨hnew, hunique⟩ := token_of_tokenFor hea
          cases heb : event.tokenFor b with
          | none =>
              rw [heb] at hb
              exact absurd hb (hsound.unheld hadmits hnew b)
          | some other => exact (hunique b other heb).symm

end AccessHistory

/-! ## Runs -/

inductive AccessCall where
  | issue (token : Token) (grant : AccessGrant)
  | issueRandom (grant : AccessGrant) (random : RandomSource)
  | rotateRandom (grantId : String) (oldToken : Token) (random : RandomSource)
  | revoke (grantId : String) (nowMs : Int64)
  | authorize (token : Token) (actorId : ActorId) (deviceId sessionId : String)
      (scope : AccessScope) (nowMs : Int64)

def AccessCall.generated : AccessCall → Option Token
  | .issueRandom _ random | .rotateRandom _ _ random =>
      (randomToken random).toOption.map Text.bytes
  | _ => none

structure AccessRun where
  registry : AccessTokenRegistry := {}
  history : AccessHistory := []

namespace AccessRun

def next (run : AccessRun) : AccessCall → AccessRun
  | .issue token grant =>
      match run.registry.issue token grant with
      | .ok registry => { registry, history := run.history ++ [.issued grant token] }
      | .error _ => run
  | .issueRandom grant random =>
      match run.registry.issueRandom grant random with
      | .ok (registry, issued) =>
          { registry, history := run.history ++ [.issued grant (Text.bytes issued.token)] }
      | .error _ => run
  | .rotateRandom grantId oldToken random =>
      match run.registry.rotateRandom grantId oldToken random with
      | .ok (registry, issued) =>
          { registry
            history := run.history ++ [.rotated grantId (Text.bytes issued.token)] }
      | .error _ => run
  | .revoke grantId nowMs =>
      match run.registry.revoke grantId nowMs with
      | .ok registry => { registry, history := run.history ++ [.revoked grantId nowMs] }
      | .error _ => run
  | .authorize .. => run

def Fresh (run : AccessRun) (call : AccessCall) : Prop :=
  ∀ token ∈ call.generated, token ∉ AccessHistory.tokens run.history

instance (run : AccessRun) (call : AccessCall) : Decidable (run.Fresh call) := by
  unfold Fresh
  infer_instance

end AccessRun

/-! ## The registry is a function of its history -/

theorem foldl_xor_eq_zero (pairs : List (UInt8 × UInt8)) (difference : UInt8) :
    pairs.foldl (fun difference (l, r) ↦ difference ||| (l ^^^ r)) difference = 0 ↔
      difference = 0 ∧ ∀ pair ∈ pairs, pair.1 = pair.2 := by
  induction pairs generalizing difference with
  | nil => simp
  | cons pair pairs ih =>
      rw [List.foldl_cons, ih, UInt8.or_eq_zero_iff, UInt8.xor_eq_zero_iff]
      simp [and_assoc]

theorem constantTimeEq_iff {left right : List UInt8} :
    constantTimeEq left right = true ↔ left = right := by
  unfold constantTimeEq
  split
  · rename_i hlength
    constructor
    · exact fun h ↦ Bool.noConfusion h
    · rintro rfl
      exact absurd rfl hlength
  · rename_i hlength
    rw [beq_iff_eq, foldl_xor_eq_zero, ← List.forall₂_eq_eq_eq, List.forall₂_iff_zip]
    constructor
    · rintro ⟨-, hall⟩
      exact ⟨not_not.mp hlength, fun hmem ↦ hall _ hmem⟩
    · rintro ⟨-, hall⟩
      exact ⟨rfl, fun pair hmem ↦ hall hmem⟩

theorem length_of_randomToken {random : RandomSource} {token : String}
    (h : randomToken random = .ok token) : tokenBytes ≤ (Text.bytes token).length := by
  obtain ⟨bytes, -, h⟩ := bind_eq_ok.mp h
  obtain rfl := Except.ok.inj h
  have hencoded := Text.length_le_len (Bytes.base64UrlDigits bytes.toList)
  have hdigits := Bytes.length_le_length_base64UrlDigits bytes.toList
  rw [Vector.length_toList] at hdigits
  rw [Bytes.length_bytes, Text.len, String.utf8ByteSize_append]
  unfold Bytes.encodeBase64UrlNoPad
  unfold Text.len at hencoded
  omega

namespace AccessHistory

variable {history : AccessHistory} {grant : AccessGrant} {token : Token}

theorem entry_concat_of_none {event : AccessEvent} (htoken : event.tokenFor grant.id = none)
    (hrevocation : event.revocationOf grant.id = none) :
    entry (history ++ [event]) grant = entry history grant := by
  unfold entry
  rw [currentToken_concat, revokedAtMs_concat, htoken, hrevocation]
  rfl

theorem registry_issued (hsound : Sound history) (hadmits : Admits history (.issued grant token)) :
    registry (history ++ [.issued grant token]) =
      { grants := (registry history).grants ++ [{ tokenSha256 := tokenHash token, grant }] } := by
  have hnew := hsound.foreign fun old hold ↦ (hadmits.2 old hold).1
  unfold registry
  rw [grants_concat, List.map_append]
  congr 2
  · apply List.map_congr_left
    intro old hold
    exact entry_concat_of_none (if_neg (Ne.symm (hadmits.2 old hold).1)) rfl
  · change [entry _ grant] = _
    unfold entry
    rw [currentToken_concat, revokedAtMs_concat, hnew.2, AccessEvent.tokenFor, if_pos rfl]
    rfl

theorem updateGrant_registry (hsound : Sound history) (grantId : String)
    (f : SecretGrant → SecretGrant) :
    (registry history).updateGrant grantId f =
      { grants := (grants history).map fun grant ↦
          if grant.id = grantId then f (entry history grant) else entry history grant } := by
  have hpairwise : (registry history).grants.Pairwise fun a b ↦
      decide (a.grant.id = grantId) = true → decide (b.grant.id = grantId) = false := by
    refine List.pairwise_map.mpr (hsound.pairwise.imp ?_)
    intro a b hab ha
    exact decide_eq_false fun hb ↦ hab ((of_decide_eq_true ha).trans hb.symm)
  have hupdate := Table.modify_findIdx? f hpairwise
  have hmap : Table.update (fun entry ↦ decide (entry.grant.id = grantId)) f
      (registry history).grants = (grants history).map fun grant ↦
        if grant.id = grantId then f (entry history grant) else entry history grant := by
    unfold Table.update registry
    rw [List.map_map]
    refine List.map_congr_left fun grant _ ↦ ?_
    simp only [Function.comp_apply, decide_eq_true_eq]
    rfl
  rw [hmap] at hupdate
  unfold AccessTokenRegistry.updateGrant
  cases hindex : (registry history).grants.findIdx? fun entry ↦ entry.grant.id = grantId with
  | none =>
      rw [hindex] at hupdate
      exact congrArg AccessTokenRegistry.mk hupdate
  | some index =>
      rw [hindex] at hupdate
      exact congrArg AccessTokenRegistry.mk hupdate

theorem registry_rotated (hsound : Sound history) (grantId : String) (token : Token) :
    registry (history ++ [.rotated grantId token]) =
      (registry history).updateGrant grantId fun entry ↦
        { entry with tokenSha256 := tokenHash token } := by
  rw [updateGrant_registry hsound]
  unfold registry
  rw [grants_concat]
  change AccessTokenRegistry.mk (List.map _ (grants history ++ [])) = _
  rw [List.append_nil]
  congr 1
  refine List.map_congr_left fun grant _ ↦ ?_
  split
  · rename_i hid
    unfold entry
    rw [currentToken_concat, revokedAtMs_concat, AccessEvent.tokenFor, if_pos hid.symm]
    rfl
  · rename_i hid
    exact entry_concat_of_none (if_neg (Ne.symm hid)) rfl

theorem registry_revoked (hsound : Sound history) (grantId : String) (nowMs : Int64) :
    registry (history ++ [.revoked grantId nowMs]) =
      (registry history).updateGrant grantId fun entry ↦
        { entry with grant := { entry.grant with revokedAtMs := some nowMs } } := by
  rw [updateGrant_registry hsound]
  unfold registry
  rw [grants_concat]
  change AccessTokenRegistry.mk (List.map _ (grants history ++ [])) = _
  rw [List.append_nil]
  congr 1
  refine List.map_congr_left fun grant _ ↦ ?_
  split
  · rename_i hid
    unfold entry
    rw [currentToken_concat, revokedAtMs_concat, AccessEvent.revocationOf, if_pos hid.symm]
    rfl
  · rename_i hid
    exact entry_concat_of_none rfl (if_neg (Ne.symm hid))

/-! ## The calls -/

theorem mem_registry {entry' : SecretGrant} (h : entry' ∈ (registry history).grants) :
    ∃ grant ∈ grants history, entry history grant = entry' :=
  List.mem_map.mp h

theorem issue_eq_ok {registry' : AccessTokenRegistry} (hsound : Sound history)
    (h : (registry history).issue token grant = .ok registry') :
    Admits history (.issued grant token) ∧
      registry' = registry (history ++ [.issued grant token]) := by
  obtain ⟨_, hlength, h⟩ := bind_eq_ok.mp h
  obtain ⟨_, -, h⟩ := bind_eq_ok.mp h
  obtain ⟨_, hnew, h⟩ := bind_eq_ok.mp h
  obtain rfl := Except.ok.inj h
  have hadmits : Admits history (.issued grant token) := by
    refine ⟨ensure_eq_ok.mp hlength, fun old hold ↦ ?_⟩
    have hentry : entry history old ∈ (registry history).grants :=
      List.mem_map_of_mem hold
    have hother := List.any_eq_false.mp (Bool.eq_false_iff.mpr (ensure_eq_ok.mp hnew)) _ hentry
    rw [Bool.or_eq_true, not_or, decide_eq_true_eq, constantTimeEq_iff] at hother
    refine ⟨hother.1, fun hcurrent ↦ hother.2 ?_⟩
    unfold entry
    rw [hcurrent]
    rfl
  exact ⟨hadmits, (registry_issued hsound hadmits).symm⟩

theorem findGrant_eq_ok {grantId : String} {found : SecretGrant}
    (h : (registry history).findGrant grantId = .ok found) :
    ∃ grant ∈ grants history, grant.id = grantId := by
  have hfound := okOr_eq_ok.mp h
  have hid : found.grant.id = grantId := by simpa using List.find?_some hfound
  obtain ⟨grant, hgrant, rfl⟩ := mem_registry (List.mem_of_find?_eq_some hfound)
  exact ⟨grant, hgrant, hid⟩

end AccessHistory

namespace AccessRun

open AccessHistory

structure Accurate (run : AccessRun) : Prop where
  registry : run.registry = AccessHistory.registry run.history
  sound : Sound run.history

theorem accurate_empty : Accurate {} :=
  ⟨rfl, sound_nil⟩

variable {run : AccessRun} {call : AccessCall}

theorem Accurate.issue {token : Token} {grant : AccessGrant} {registry : AccessTokenRegistry}
    (h : run.Accurate) (hissue : run.registry.issue token grant = .ok registry) :
    Accurate { registry, history := run.history ++ [.issued grant token] } := by
  rw [h.registry] at hissue
  obtain ⟨hadmits, rfl⟩ := issue_eq_ok h.sound hissue
  exact ⟨rfl, sound_concat.mpr ⟨h.sound, hadmits⟩⟩

theorem Accurate.next (h : run.Accurate) (hfresh : run.Fresh call) : (run.next call).Accurate := by
  cases call with
  | issue token grant =>
      unfold AccessRun.next
      dsimp only
      cases hissue : run.registry.issue token grant with
      | error e => exact h
      | ok registry => exact h.issue hissue
  | issueRandom grant random =>
      unfold AccessRun.next
      dsimp only
      cases hissue : run.registry.issueRandom grant random with
      | error e => exact h
      | ok issued =>
          obtain ⟨token, -, hissued⟩ := bind_eq_ok.mp hissue
          obtain ⟨registry, hregistry, hok⟩ := bind_eq_ok.mp hissued
          obtain rfl := Except.ok.inj hok
          exact h.issue hregistry
  | rotateRandom grantId oldToken random =>
      unfold AccessRun.next
      dsimp only
      cases hrotate : run.registry.rotateRandom grantId oldToken random with
      | error e => exact h
      | ok issued =>
          obtain ⟨_, -, hrotate⟩ := bind_eq_ok.mp hrotate
          obtain ⟨found, hfound, hrotate⟩ := bind_eq_ok.mp hrotate
          obtain ⟨_, -, hrotate⟩ := bind_eq_ok.mp hrotate
          obtain ⟨token, htoken, hrotate⟩ := bind_eq_ok.mp hrotate
          obtain rfl := Except.ok.inj hrotate
          rw [h.registry] at hfound
          have hnew : Text.bytes token ∉ tokens run.history := by
            apply hfresh
            rw [AccessCall.generated, htoken]
            rfl
          constructor
          · rw [registry_rotated h.sound, ← h.registry]
          · exact sound_concat.mpr ⟨h.sound, length_of_randomToken htoken, hnew,
              findGrant_eq_ok hfound⟩
  | revoke grantId nowMs =>
      unfold AccessRun.next
      dsimp only
      cases hrevoke : run.registry.revoke grantId nowMs with
      | error e => exact h
      | ok registry =>
          obtain ⟨found, hfound, hok⟩ := bind_eq_ok.mp hrevoke
          obtain rfl := Except.ok.inj hok
          rw [h.registry] at hfound
          constructor
          · rw [registry_revoked h.sound, ← h.registry]
          · exact sound_concat.mpr ⟨h.sound, findGrant_eq_ok hfound⟩
  | authorize => exact h

theorem accurate_run {calls : List AccessCall} (hfresh : Runs.Along next Fresh {} calls) :
    (Runs.run next {} calls).Accurate :=
  Runs.invariant_along (fun _ _ h hfresh ↦ h.next hfresh) accurate_empty hfresh

end AccessRun

/-! ## Which tokens are accepted -/

namespace AccessHistory

variable {history : AccessHistory} {grant : AccessGrant} {token : Token} {nowMs : Int64}

def Unconfused (history : AccessHistory) (token : Token) : Prop :=
  ∀ other ∈ tokens history, tokenHash other = tokenHash token → other = token

instance (history : AccessHistory) (token : Token) : Decidable (Unconfused history token) := by
  unfold Unconfused
  infer_instance

theorem revokedAtMs_eq_none {id : String} :
    revokedAtMs history id = none ↔ ∀ atMs, .revoked id atMs ∉ history := by
  unfold revokedAtMs
  rw [List.getLast?_eq_none_iff, List.filterMap_eq_nil_iff]
  constructor
  · intro h atMs hmem
    have hnone := h _ hmem
    rw [AccessEvent.revocationOf, if_pos rfl] at hnone
    cases hnone
  · intro h event hevent
    cases event with
    | issued | rotated => rfl
    | revoked grantId atMs =>
        refine if_neg ?_
        rintro rfl
        exact h atMs hevent

theorem activeAt_entry : (entry history grant).grant.activeAt nowMs = true ↔
    (grant.revokedAtMs = none ∧ ∀ atMs, .revoked grant.id atMs ∉ history) ∧
      ∀ expiresAtMs, grant.expiresAtMs = some expiresAtMs → nowMs < expiresAtMs := by
  unfold entry AccessGrant.activeAt
  rw [← revokedAtMs_eq_none, Bool.and_eq_true, Option.isNone_iff_eq_none, Option.or_eq_none_iff,
    Option.all_eq_true]
  simp [and_comm]

theorem Sound.current_of_hash (hsound : Sound history) (hunconfused : Unconfused history token)
    (hgrant : grant ∈ grants history)
    (hhash : (entry history grant).tokenSha256 = tokenHash token) :
    currentToken history grant.id = some token := by
  obtain ⟨current, hcurrent, -⟩ := hsound.current hgrant
  unfold entry at hhash
  rw [hcurrent, Option.getD_some] at hhash
  rw [hcurrent, hunconfused current (mem_tokens_of_current hcurrent) hhash]

theorem Sound.find_eq_some (hsound : Sound history) (hunconfused : Unconfused history token)
    {found : SecretGrant} :
    (registry history).grants.find? (fun entry ↦
        constantTimeEq entry.tokenSha256 (tokenHash token)) = some found ↔
      ∃ grant ∈ grants history, currentToken history grant.id = some token ∧
        entry history grant = found := by
  have hsearch : ∀ found, (registry history).grants.find? (fun entry ↦
        constantTimeEq entry.tokenSha256 (tokenHash token)) = some found →
      ∃ grant ∈ grants history, currentToken history grant.id = some token ∧
        entry history grant = found := by
    intro found hfound
    have hhash := List.find?_some hfound
    rw [constantTimeEq_iff] at hhash
    obtain ⟨grant, hgrant, rfl⟩ := mem_registry (List.mem_of_find?_eq_some hfound)
    exact ⟨grant, hgrant, hsound.current_of_hash hunconfused hgrant hhash, rfl⟩
  constructor
  · exact hsearch found
  · rintro ⟨grant, hgrant, hcurrent, rfl⟩
    have hmatches : constantTimeEq (entry history grant).tokenSha256 (tokenHash token) = true := by
      rw [constantTimeEq_iff]
      unfold entry
      rw [hcurrent, Option.getD_some]
    have hentry : entry history grant ∈ (registry history).grants := List.mem_map_of_mem hgrant
    have hsome : ((registry history).grants.find? fun entry ↦
        constantTimeEq entry.tokenSha256 (tokenHash token)).isSome = true :=
      List.find?_isSome.mpr ⟨_, hentry, hmatches⟩
    obtain ⟨other, hother⟩ := Option.isSome_iff_exists.mp hsome
    obtain ⟨grant', hgrant', hcurrent', rfl⟩ := hsearch other hother
    have hkeys : ((grants history).map AccessGrant.id).Nodup :=
      List.pairwise_map.mpr hsound.pairwise
    have hsame : grant' = grant :=
      Table.eq_of_key_eq hkeys hgrant' hgrant (hsound.distinct hcurrent' hcurrent)
    rw [hsame] at hother
    exact hother

theorem authorize_eq_ok (hsound : Sound history) (hunconfused : Unconfused history token)
    {actorId : ActorId} {deviceId sessionId : String} {scope : AccessScope}
    {access : AuthorizedAccess} :
    (registry history).authorize token actorId deviceId sessionId scope nowMs = .ok access ↔
      ∃ grant, Holds history token grant nowMs ∧ grant.actorId = actorId ∧
        grant.deviceId = deviceId ∧ grant.sessionId = sessionId ∧
        (scope ∈ grant.scopes ∨ .administration ∈ grant.scopes) ∧
        access = { grantId := grant.id, actorId, deviceId, sessionId, scopes := grant.scopes } := by
  constructor
  · intro h
    obtain ⟨_, -, h⟩ := bind_eq_ok.mp h
    obtain ⟨found, hfound, h⟩ := bind_eq_ok.mp h
    obtain ⟨_, hidentity, h⟩ := bind_eq_ok.mp h
    obtain ⟨_, hactive, h⟩ := bind_eq_ok.mp h
    obtain ⟨_, hallows, h⟩ := bind_eq_ok.mp h
    obtain rfl := Except.ok.inj h
    obtain ⟨grant, hgrant, hcurrent, rfl⟩ :=
      (hsound.find_eq_some hunconfused).mp (okOr_eq_ok.mp hfound)
    obtain ⟨hunrevoked, hunexpired⟩ := activeAt_entry.mp (ensure_eq_ok.mp hactive)
    have hidentity := ensure_eq_ok.mp hidentity
    simp only [not_or, not_not] at hidentity
    obtain ⟨rfl, rfl, rfl⟩ := hidentity
    have hscope := ensure_eq_ok.mp hallows
    rw [AccessGrant.allows, Bool.or_eq_true, decide_eq_true_eq, decide_eq_true_eq] at hscope
    exact ⟨grant, ⟨hgrant, hcurrent, hunrevoked, hunexpired⟩, rfl, rfl, rfl, hscope, rfl⟩
  · rintro ⟨grant, hholds, rfl, rfl, rfl, hscope, rfl⟩
    obtain ⟨current, hcurrent, hlength⟩ := hsound.current hholds.issued
    obtain rfl := Option.some.inj (hcurrent.symm.trans hholds.current)
    refine bind_eq_ok.mpr ⟨(), ensure_eq_ok.mpr hlength, ?_⟩
    refine bind_eq_ok.mpr ⟨entry history grant, okOr_eq_ok.mpr ?_, ?_⟩
    · exact (hsound.find_eq_some hunconfused).mpr ⟨grant, hholds.issued, hcurrent, rfl⟩
    refine bind_eq_ok.mpr ⟨(), ensure_eq_ok.mpr (by simp [entry]), ?_⟩
    refine bind_eq_ok.mpr ⟨(), ensure_eq_ok.mpr ?_, ?_⟩
    · exact activeAt_entry.mpr ⟨hholds.unrevoked, hholds.unexpired⟩
    refine bind_eq_ok.mpr ⟨(), ensure_eq_ok.mpr ?_, rfl⟩
    rw [AccessGrant.allows, Bool.or_eq_true, decide_eq_true_eq, decide_eq_true_eq]
    exact hscope

theorem Sound.replaced {before after : AccessHistory} {id g : String} {old new : Token}
    (hsound : Sound (before ++ .rotated id new :: after))
    (hold : currentToken before id = some old)
    (hg : currentToken (before ++ .rotated id new :: after) g = some old) :
    ∃ grant, .issued grant old ∈ after := by
  induction after using List.reverseRecOn with
  | nil =>
      exfalso
      obtain ⟨hbefore, -, hfresh, -⟩ := sound_concat.mp hsound
      rw [currentToken_concat, AccessEvent.tokenFor] at hg
      split at hg
      · obtain rfl := Option.some.inj hg
        exact hfresh (mem_tokens_of_current hold)
      · rename_i hne
        exact hne (hbefore.distinct hold hg)
  | append_singleton after event ih =>
      rw [← List.cons_append, ← List.append_assoc] at hsound hg
      obtain ⟨hsound, hadmits⟩ := sound_concat.mp hsound
      rw [currentToken_concat] at hg
      cases hevent : event.tokenFor g with
      | none =>
          rw [hevent] at hg
          obtain ⟨grant, hgrant⟩ := ih hsound hg
          exact ⟨grant, List.mem_append_left _ hgrant⟩
      | some token =>
          rw [hevent] at hg
          obtain rfl := Option.some.inj hg
          have htoken := (token_of_tokenFor hevent).1
          cases event with
          | issued grant _ =>
              obtain rfl := Option.some.inj htoken
              exact ⟨grant, List.mem_append_right _ List.mem_cons_self⟩
          | rotated grantId _ =>
              obtain rfl := Option.some.inj htoken
              refine absurd ?_ hadmits.2.1
              unfold tokens
              rw [List.filterMap_append]
              exact List.mem_append_left _ (mem_tokens_of_current hold)
          | revoked => cases htoken

theorem Sound.reissued (hsound : Sound history) {a b : String} (hab : a ≠ b)
    (ha : token ∈ tokensOf history a) (hb : currentToken history b = some token) :
    ∃ grant, grant.id = b ∧ .issued grant token ∈ history := by
  induction history using List.reverseRecOn with
  | nil => cases hb
  | append_singleton history event ih =>
      obtain ⟨hsound, hadmits⟩ := sound_concat.mp hsound
      rw [tokensOf_concat, List.mem_append, Option.mem_toList] at ha
      rw [currentToken_concat] at hb
      cases hevent : event.tokenFor b with
      | none =>
          rw [hevent] at hb
          rcases ha with ha | ha
          · obtain ⟨grant, hid, hgrant⟩ := ih hsound ha hb
            exact ⟨grant, hid, List.mem_append_left _ hgrant⟩
          · exact absurd hb (hsound.unheld hadmits (token_of_tokenFor ha).1 b)
      | some current =>
          rw [hevent] at hb
          obtain rfl := Option.some.inj hb
          obtain ⟨htoken, hunique⟩ := token_of_tokenFor hevent
          rcases ha with ha | ha
          · cases event with
            | issued grant _ =>
                obtain rfl := Option.some.inj htoken
                refine ⟨grant, ?_, List.mem_append_right _ List.mem_cons_self⟩
                by_contra hne
                rw [AccessEvent.tokenFor, if_neg hne] at hevent
                cases hevent
            | rotated grantId _ =>
                obtain rfl := Option.some.inj htoken
                exact absurd (mem_tokens_of_tokensOf ha) hadmits.2.1
            | revoked => cases htoken
          · exact absurd (hunique a _ ha) hab

end AccessHistory

namespace AccessRun

open AccessHistory

/-- In a run with fresh generated tokens, a token is accepted exactly when it is the
current one of a grant in force that was issued for the actor, the device and the session
and allows the scope. A replaced token, or a token of a revoked grant, is accepted only
where it was issued once more for another grant. -/
theorem access_tokens {calls : List AccessCall} (hfresh : Runs.Along next Fresh {} calls)
    {token : Token} (hunconfused : Unconfused (Runs.run next {} calls).history token)
    (actorId : ActorId) (deviceId sessionId : String) (scope : AccessScope) (nowMs : Int64)
    (access : AuthorizedAccess) :
    let run := Runs.run next {} calls
    let Accepts := run.registry.authorize token actorId deviceId sessionId scope nowMs = .ok access
    (Accepts ↔ ∃ grant, Holds run.history token grant nowMs ∧ grant.actorId = actorId ∧
      grant.deviceId = deviceId ∧ grant.sessionId = sessionId ∧
      (scope ∈ grant.scopes ∨ .administration ∈ grant.scopes) ∧
      access = { grantId := grant.id, actorId, deviceId, sessionId, scopes := grant.scopes }) ∧
    (∀ before id new after, run.history = before ++ .rotated id new :: after →
      currentToken before id = some token → Accepts → ∃ grant, .issued grant token ∈ after) ∧
    ∀ id atMs, .revoked id atMs ∈ run.history → token ∈ tokensOf run.history id → Accepts →
      access.grantId ≠ id ∧
        ∃ grant, grant.id = access.grantId ∧ .issued grant token ∈ run.history := by
  intro run Accepts
  obtain ⟨hregistry, hsound⟩ := accurate_run hfresh
  have hiff : Accepts ↔ ∃ grant, Holds run.history token grant nowMs ∧ grant.actorId = actorId ∧
      grant.deviceId = deviceId ∧ grant.sessionId = sessionId ∧
      (scope ∈ grant.scopes ∨ .administration ∈ grant.scopes) ∧
      access = { grantId := grant.id, actorId, deviceId, sessionId, scopes := grant.scopes } := by
    change run.registry.authorize _ _ _ _ _ _ = _ ↔ _
    rw [hregistry]
    exact authorize_eq_ok hsound hunconfused
  refine ⟨hiff, ?_, ?_⟩
  · intro before id new after hsplit hold haccepts
    obtain ⟨grant, hholds, -⟩ := hiff.mp haccepts
    have hcurrent := hholds.current
    change Sound run.history at hsound
    rw [hsplit] at hsound hcurrent
    exact hsound.replaced hold hcurrent
  · intro id atMs hrevoked htoken haccepts
    obtain ⟨grant, hholds, -, -, -, -, rfl⟩ := hiff.mp haccepts
    have hne : grant.id ≠ id := by
      rintro rfl
      exact hholds.unrevoked.2 atMs hrevoked
    obtain ⟨issued, hid, hissued⟩ := hsound.reissued (Ne.symm hne) htoken hholds.current
    exact ⟨hne, issued, hid, hissued⟩

end AccessRun

/-! ## A device and its tokens -/

namespace Keyring

def phone (id : String) (scopes : Finset AccessScope) : AccessGrant :=
  { id, actorId := ⟨"guest"⟩, deviceId := "phone", sessionId := "s", scopes
    issuedAtMs := 1, expiresAtMs := some 100, revokedAtMs := none }

def first : Token :=
  List.replicate 32 7

def random : RandomSource :=
  .ok (Vector.replicate tokenBytes 9)

def second : Token :=
  ((randomToken random).toOption.map Text.bytes).getD []

def rotated : List AccessCall :=
  [.issue first (phone "grant" {.messaging}), .rotateRandom "grant" first random]

end Keyring

namespace AccessRun

open Keyring AccessHistory

theorem access_tokens_rotated :
    ∃ grant, Holds (Runs.run next {} rotated).history second grant 50 ∧
      grant.actorId = ⟨"guest"⟩ := by
  have hfresh : Runs.Along next Fresh {} rotated := by decide +kernel
  have hunconfused : Unconfused (Runs.run next {} rotated).history second := by decide +kernel
  have haccepted : ((Runs.run next {} rotated).registry.authorize second ⟨"guest"⟩ "phone" "s"
      .messaging 50).isOk = true := by decide +kernel
  cases haccess : (Runs.run next {} rotated).registry.authorize second ⟨"guest"⟩ "phone" "s"
      .messaging 50 with
  | error e =>
      rw [haccess] at haccepted
      cases haccepted
  | ok access =>
      obtain ⟨grant, hholds, hactor, -⟩ :=
        (access_tokens hfresh hunconfused ⟨"guest"⟩ "phone" "s" .messaging 50 access).1.mp haccess
      exact ⟨grant, hholds, hactor⟩

/-- A grant to administrate is accepted for other scopes, and a token that was rotated
away is accepted after it is issued again. -/
theorem access_wider :
    (¬ ∀ (calls : List AccessCall) (token : Token) (scope : AccessScope),
      Runs.Along next Fresh {} calls → Unconfused (Runs.run next {} calls).history token →
        ((Runs.run next {} calls).registry.authorize token ⟨"guest"⟩ "phone" "s" scope
            50).isOk = true →
          ∃ grant, Holds (Runs.run next {} calls).history token grant 50 ∧
            scope ∈ grant.scopes) ∧
    ¬ ∀ (calls : List AccessCall) (token : Token) (before after : AccessHistory) (id : String)
      (new : Token), Runs.Along next Fresh {} calls →
        Unconfused (Runs.run next {} calls).history token →
        (Runs.run next {} calls).history = before ++ .rotated id new :: after →
          currentToken before id = some token →
            ((Runs.run next {} calls).registry.authorize token ⟨"guest"⟩ "phone" "s" .messaging
              50).isOk = false := by
  constructor
  · intro hclaim
    obtain ⟨grant, hholds, hscope⟩ := hclaim [.issue first (phone "grant" {.administration})]
      first .messaging (by decide +kernel) (by decide +kernel) (by decide +kernel)
    have hgrants : grants (Runs.run next {} [.issue first (phone "grant" {.administration})]).history
        = [phone "grant" {.administration}] := by decide +kernel
    have hissued := hholds.issued
    rw [hgrants, List.mem_singleton] at hissued
    rw [hissued] at hscope
    revert hscope
    decide
  · intro hclaim
    have hrefused := hclaim (rotated ++ [.issue first (phone "other" {.messaging})]) first
      [.issued (phone "grant" {.messaging}) first] [.issued (phone "other" {.messaging}) first]
      "grant" second (by decide +kernel) (by decide +kernel) (by decide +kernel) (by decide +kernel)
    revert hrefused
    decide +kernel

end AccessRun

end Fabushi.Messaging
