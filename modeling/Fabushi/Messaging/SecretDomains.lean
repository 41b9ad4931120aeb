import Fabushi.Library.Bytes
import Fabushi.Library.Joined
import Fabushi.Messaging.SecretReplay

/-!
# Domain separation of secret chats

The key of a session is bound to a text that joins the conversation, the two identities in
their order and the epoch; a message to one that joins its five coordinates. Both sides
of a session build the same text for the key. Two joined texts are equal exactly when
the pieces of their ids line up, and then the ids are equal as well unless a separator
inside an id lets the same pieces be shared out in another way.
-/

namespace Fabushi.Messaging

open Joined Result

abbrev idPieces (id : String) : List (List Char) :=
  pieces '|' id

theorem idPieces_join (s t : String) : idPieces (s ++ "|" ++ t) = idPieces s ++ idPieces t :=
  pieces_join s t

theorem idPieces_repr (n : UInt64) : idPieces (toString n.toNat) = [Nat.toDigits 10 n.toNat] :=
  pieces_repr (by decide) n.toNat

theorem toDigits_toNat_inj {n n' : UInt64} :
    Nat.toDigits 10 n.toNat = Nat.toDigits 10 n'.toNat ↔ n = n' := by
  constructor
  · intro h
    exact UInt64.toNat_inj.mp (toDigits_injective h)
  · rintro rfl
    rfl

/-! ## The two identities -/

def SamePair (a b a' b' : ActorId) : Prop :=
  a = a' ∧ b = b' ∨ a = b' ∧ b = a'

theorem orderedActors_comm (a b : ActorId) : orderedActors a b = orderedActors b a := by
  unfold orderedActors
  by_cases hab : a.value ≤ b.value
  · by_cases hba : b.value ≤ a.value
    · rw [if_pos hab, if_pos hba, String.le_antisymm hab hba]
    · rw [if_pos hab, if_neg hba]
  · have hba : b.value ≤ a.value := (String.le_total a.value b.value).resolve_left hab
    rw [if_neg hab, if_pos hba]

theorem orderedActors_cases (a b : ActorId) :
    orderedActors a b = (a.value, b.value) ∨ orderedActors a b = (b.value, a.value) := by
  unfold orderedActors
  split
  · exact .inl rfl
  · exact .inr rfl

theorem orderedActors_eq_iff {a b a' b' : ActorId} :
    orderedActors a b = orderedActors a' b' ↔ SamePair a b a' b' := by
  constructor
  · intro h
    rcases orderedActors_cases a b with hab | hab <;>
      rcases orderedActors_cases a' b' with hab' | hab' <;>
      rw [hab, hab', Prod.mk.injEq, value_inj, value_inj] at h <;>
      unfold SamePair <;> tauto
  · rintro (⟨rfl, rfl⟩ | ⟨rfl, rfl⟩)
    · rfl
    · exact orderedActors_comm a b

/-! ## Keys -/

structure KeyDomain where
  conversationId : ConversationId
  localActorId : ActorId
  peerActorId : ActorId
  epoch : UInt64

namespace KeyDomain

variable (domain domain' : KeyDomain)

def Valid : Prop :=
  (validateIdentity domain.conversationId domain.localActorId domain.peerActorId
    domain.epoch).isOk = true

instance : Decidable domain.Valid :=
  inferInstanceAs (Decidable (_ = true))

def otherSide : KeyDomain :=
  { domain with localActorId := domain.peerActorId, peerActorId := domain.localActorId }

def salt : List UInt8 :=
  rootKeySalt domain.conversationId

def info : String :=
  rootKeyInfo domain.conversationId domain.localActorId domain.peerActorId domain.epoch

def first : String :=
  (orderedActors domain.localActorId domain.peerActorId).1

def second : String :=
  (orderedActors domain.localActorId domain.peerActorId).2

def Same : Prop :=
  domain.conversationId = domain'.conversationId ∧
    SamePair domain.localActorId domain.peerActorId domain'.localActorId domain'.peerActorId ∧
    domain.epoch = domain'.epoch

/-- The pieces of the two identities line up, but are shared out in another way. -/
def Ambiguous : Prop :=
  domain.conversationId = domain'.conversationId ∧ domain.epoch = domain'.epoch ∧
    idPieces domain.first ++ idPieces domain.second =
      idPieces domain'.first ++ idPieces domain'.second ∧
    (idPieces domain.first).length ≠ (idPieces domain'.first).length

variable {domain domain'}

theorem salt_inj : domain.salt = domain'.salt ↔ domain.conversationId = domain'.conversationId := by
  constructor
  · intro h
    exact value_inj.mp (Bytes.bytes_injective h)
  · intro h
    rw [salt, salt, h]

theorem info_eq (domain : KeyDomain) :
    domain.info = "fabushi-secret-chat-v1" ++ "|" ++ domain.conversationId.value ++ "|" ++
      domain.first ++ "|" ++ domain.second ++ "|" ++ toString domain.epoch.toNat := rfl

theorem idPieces_info (domain : KeyDomain) :
    idPieces domain.info = idPieces "fabushi-secret-chat-v1" ++
      idPieces domain.conversationId.value ++ idPieces domain.first ++ idPieces domain.second ++
        [Nat.toDigits 10 domain.epoch.toNat] := by
  rw [info_eq, idPieces_join, idPieces_join, idPieces_join, idPieces_join, idPieces_repr]

theorem info_eq_iff (h : domain.conversationId = domain'.conversationId) :
    domain.info = domain'.info ↔
      idPieces domain.first ++ idPieces domain.second =
        idPieces domain'.first ++ idPieces domain'.second ∧ domain.epoch = domain'.epoch := by
  rw [← (@pieces_injective '|').eq_iff]
  change idPieces domain.info = idPieces domain'.info ↔ _
  rw [idPieces_info, idPieces_info, h]
  simp only [List.append_assoc, List.append_cancel_left_eq]
  rw [← List.append_assoc, ← List.append_assoc, List.append_singleton_inj, toDigits_toNat_inj]

theorem same_iff :
    domain.Same domain' ↔ domain.conversationId = domain'.conversationId ∧
      (domain.first = domain'.first ∧ domain.second = domain'.second) ∧
        domain.epoch = domain'.epoch := by
  rw [Same, ← orderedActors_eq_iff, Prod.ext_iff]
  rfl

theorem same_of_salt_info_iff :
    (domain.salt = domain'.salt → domain.info = domain'.info → domain.Same domain') ↔
      ¬ domain.Ambiguous domain' := by
  rw [salt_inj]
  constructor
  · rintro h ⟨hconversation, hepoch, hpieces, hlength⟩
    have hsame := h hconversation ((info_eq_iff hconversation).mpr ⟨hpieces, hepoch⟩)
    exact hlength (by rw [(same_iff.mp hsame).2.1.1])
  · intro h hconversation hinfo
    obtain ⟨hpieces, hepoch⟩ := (info_eq_iff hconversation).mp hinfo
    have hlength : (idPieces domain.first).length = (idPieces domain'.first).length := by
      by_contra hne
      exact h ⟨hconversation, hepoch, hpieces, hne⟩
    exact same_iff.mpr ⟨hconversation, eq_of_pieces_append hpieces hlength, hepoch⟩

theorem otherSide_eq (domain : KeyDomain) :
    domain.otherSide.salt = domain.salt ∧ domain.otherSide.info = domain.info := by
  have hactors : orderedActors domain.otherSide.localActorId domain.otherSide.peerActorId =
      orderedActors domain.localActorId domain.peerActorId := orderedActors_comm _ _
  constructor
  · rfl
  · rw [info_eq, info_eq, first, second, hactors]
    rfl

end KeyDomain

/-! ## Messages -/

structure MessageDomain where
  conversationId : ConversationId
  epoch : UInt64
  senderId : ActorId
  recipientId : ActorId
  counter : UInt64
  deriving DecidableEq

namespace MessageDomain

variable (domain domain' : MessageDomain)

def Valid : Prop :=
  (validateIdentity domain.conversationId domain.senderId domain.recipientId
    domain.epoch).isOk = true

instance : Decidable domain.Valid :=
  inferInstanceAs (Decidable (_ = true))

def aad : String :=
  messageAad domain.conversationId domain.epoch domain.senderId domain.recipientId domain.counter

def epochDigits : List Char :=
  Nat.toDigits 10 domain.epoch.toNat

/-- The pieces of the ids and the epoch line up, but are shared out in another way. -/
def Ambiguous : Prop :=
  domain.counter = domain'.counter ∧
    idPieces domain.conversationId.value ++ [domain.epochDigits] ++
        (idPieces domain.senderId.value ++ idPieces domain.recipientId.value) =
      idPieces domain'.conversationId.value ++ [domain'.epochDigits] ++
        (idPieces domain'.senderId.value ++ idPieces domain'.recipientId.value) ∧
    ((idPieces domain.conversationId.value).length ≠
        (idPieces domain'.conversationId.value).length ∨
      (idPieces domain.senderId.value).length ≠ (idPieces domain'.senderId.value).length)

variable {domain domain'}

theorem idPieces_aad (domain : MessageDomain) :
    idPieces domain.aad = idPieces "fabushi-secret-chat-v1" ++
      idPieces domain.conversationId.value ++ [domain.epochDigits] ++
        idPieces domain.senderId.value ++ idPieces domain.recipientId.value ++
          [Nat.toDigits 10 domain.counter.toNat] := by
  have haad : domain.aad = "fabushi-secret-chat-v1" ++ "|" ++ domain.conversationId.value ++
      "|" ++ toString domain.epoch.toNat ++ "|" ++ domain.senderId.value ++ "|" ++
        domain.recipientId.value ++ "|" ++ toString domain.counter.toNat := rfl
  rw [haad, idPieces_join, idPieces_join, idPieces_join, idPieces_join, idPieces_join,
    idPieces_repr domain.counter, idPieces_repr domain.epoch]
  rfl

theorem aad_eq_iff :
    domain.aad = domain'.aad ↔
      idPieces domain.conversationId.value ++ [domain.epochDigits] ++
          (idPieces domain.senderId.value ++ idPieces domain.recipientId.value) =
        idPieces domain'.conversationId.value ++ [domain'.epochDigits] ++
          (idPieces domain'.senderId.value ++ idPieces domain'.recipientId.value) ∧
      domain.counter = domain'.counter := by
  rw [← (@pieces_injective '|').eq_iff]
  change idPieces domain.aad = idPieces domain'.aad ↔ _
  rw [idPieces_aad, idPieces_aad, ← toDigits_toNat_inj (n := domain.counter),
    ← List.append_singleton_inj]
  simp only [List.append_assoc, List.append_cancel_left_eq]

theorem eq_of_aad_iff :
    (domain.aad = domain'.aad → domain = domain') ↔ ¬ domain.Ambiguous domain' := by
  rw [aad_eq_iff]
  constructor
  · rintro h ⟨hcounter, hpieces, hlength⟩
    obtain rfl := h ⟨hpieces, hcounter⟩
    exact hlength.elim (absurd rfl) (absurd rfl)
  · rintro h ⟨hpieces, hcounter⟩
    have hlength : (idPieces domain.conversationId.value).length =
          (idPieces domain'.conversationId.value).length ∧
        (idPieces domain.senderId.value).length = (idPieces domain'.senderId.value).length := by
      by_contra hne
      rw [not_and_or] at hne
      exact h ⟨hcounter, hpieces, hne⟩
    obtain ⟨hfront, hback⟩ := List.append_inj hpieces (by simp [hlength.1])
    obtain ⟨hconversation, hepoch⟩ := List.append_inj hfront hlength.1
    obtain ⟨hsender, hrecipient⟩ := eq_of_pieces_append hback hlength.2
    cases domain
    cases domain'
    simp only [mk.injEq]
    exact ⟨value_inj.mp (pieces_injective hconversation),
      toDigits_toNat_inj.mp (List.singleton_inj.mp hepoch), value_inj.mp hsender,
      value_inj.mp hrecipient, hcounter⟩

end MessageDomain

/-! ## Domain separation -/

/-- Both sides derive one key, and equal inputs of the key derivation and of the
authentication come from equal domains. -/
structure SecretDomainsSeparated (crypto : SecretCrypto) (key key' : KeyDomain)
    (message message' : MessageDomain) : Prop where
  sides : key.otherSide.salt = key.salt ∧ key.otherSide.info = key.info
  derived : ∀ (privateKey peerPrivateKey : Vector UInt8 32)
      (publicKey peerPublicKey : SecretPublicKey),
    sharedSecret crypto privateKey peerPublicKey = sharedSecret crypto peerPrivateKey publicKey →
    deriveRootKey crypto key.conversationId key.localActorId key.peerActorId privateKey
        peerPublicKey key.epoch =
      deriveRootKey crypto key.conversationId key.peerActorId key.localActorId peerPrivateKey
        publicKey key.epoch
  keys : key.salt = key'.salt → key.info = key'.info → key.Same key'
  messages : message.aad = message'.aad → message = message'

/-- Domains are separated exactly when the ids are not ambiguous. -/
theorem secret_domains_separated_iff (crypto : SecretCrypto) (key key' : KeyDomain)
    (message message' : MessageDomain) :
    SecretDomainsSeparated crypto key key' message message' ↔
      ¬ key.Ambiguous key' ∧ ¬ message.Ambiguous message' := by
  rw [← KeyDomain.same_of_salt_info_iff, ← MessageDomain.eq_of_aad_iff]
  constructor
  · intro h
    exact ⟨h.keys, h.messages⟩
  · rintro ⟨hkeys, hmessages⟩
    refine ⟨key.otherSide_eq, fun privateKey peerPrivateKey publicKey peerPublicKey hshared ↦ ?_,
      hkeys, hmessages⟩
    have hinfo : rootKeyInfo key.conversationId key.peerActorId key.localActorId key.epoch =
        rootKeyInfo key.conversationId key.localActorId key.peerActorId key.epoch :=
      key.otherSide_eq.2
    rw [deriveRootKey, deriveRootKey, hshared, hinfo]

theorem KeyDomain.not_ambiguous {key key' : KeyDomain}
    (h : '|' ∉ key.first.toList) (h' : '|' ∉ key'.first.toList) : ¬ key.Ambiguous key' := by
  rintro ⟨-, -, -, hlength⟩
  rw [idPieces, idPieces, pieces, pieces, List.splitOn_eq_singleton h,
    List.splitOn_eq_singleton h'] at hlength
  exact hlength rfl

/-- A separator in an identity: the pairs `a`, `b|c` and `a|b`, `c` share their key. -/
theorem secret_domains_joined :
    ¬ ∀ (crypto : SecretCrypto) (key key' : KeyDomain) (message message' : MessageDomain),
      key.Valid → key'.Valid → message.Valid → message'.Valid →
        SecretDomainsSeparated crypto key key' message message' := by
  intro h
  have hseparated := h Whisper.crypto ⟨⟨"k"⟩, ⟨"a"⟩, ⟨"b|c"⟩, 1⟩ ⟨⟨"k"⟩, ⟨"a|b"⟩, ⟨"c"⟩, 1⟩
    ⟨⟨"k"⟩, 1, ⟨"a"⟩, ⟨"b|c"⟩, 1⟩ ⟨⟨"k"⟩, 1, ⟨"a|b"⟩, ⟨"c"⟩, 1⟩
    (by decide +kernel) (by decide +kernel) (by decide +kernel) (by decide +kernel)
  have hmessage := hseparated.messages (by decide +kernel)
  revert hmessage
  decide +kernel

end Fabushi.Messaging
