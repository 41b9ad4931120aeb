import Fabushi.Library.Runs
import Fabushi.Library.SlidingWindow
import Fabushi.Messaging.SecretChat

/-!
# Replay protection

The window of a session knows which counters were accepted in its epoch, as far as they
are less than 128 below the highest one; anything further below is refused. So no counter
is accepted twice in an epoch, and a fresh one near enough is never refused as a replay.
-/

namespace Fabushi.Messaging

open Effects Result

/-! ## The window -/

def highestOf (accepted : List UInt64) : ℕ :=
  SlidingWindow.top (accepted.map UInt64.toNat)

structure Admissible (accepted : List UInt64) (counter : UInt64) : Prop where
  nonzero : counter ≠ 0
  fresh : counter ∉ accepted
  near : highestOf accepted < counter.toNat ∨ highestOf accepted - counter.toNat < 128

namespace ReplayWindow

structure Records (window : ReplayWindow) (accepted : List UInt64) : Prop where
  nonzero : 0 ∉ accepted
  bits : SlidingWindow.Records window.highest.toNat window.bitmap (accepted.map UInt64.toNat)

variable {window : ReplayWindow} {accepted : List UInt64} {counter : UInt64}

theorem records_empty : ({} : ReplayWindow).Records [] :=
  ⟨List.not_mem_nil, SlidingWindow.records_nil⟩

theorem Records.highest_eq (h : window.Records accepted) :
    window.highest.toNat = highestOf accepted :=
  h.bits.highest_eq

theorem Records.eq_nil (h : window.Records accepted) (hzero : window.highest = 0) :
    accepted = [] := by
  by_contra hne
  obtain ⟨counter, hmem⟩ := List.exists_mem_of_ne_nil _ hne
  have hle : counter.toNat ≤ highestOf accepted :=
    SlidingWindow.le_top (List.mem_map_of_mem hmem)
  rw [← h.highest_eq, hzero] at hle
  have : counter = 0 := UInt64.toNat_inj.mp (Nat.le_zero.mp hle)
  exact h.nonzero (this ▸ hmem)

theorem mem_map_toNat : counter.toNat ∈ accepted.map UInt64.toNat ↔ counter ∈ accepted := by
  rw [List.mem_map]
  constructor
  · rintro ⟨other, hmem, heq⟩
    rwa [← UInt64.toNat_inj.mp heq]
  · intro hmem
    exact ⟨counter, hmem, rfl⟩

theorem toNat_sub_of_not_lt (h : ¬ window.highest < counter) :
    counter.toNat + (window.highest - counter).toNat = window.highest.toNat := by
  have hle : counter ≤ window.highest := UInt64.not_lt.mp h
  rw [UInt64.toNat_sub_of_le _ _ hle]
  have := UInt64.le_iff_toNat_le.mp hle
  omega

theorem Records.check_iff (h : window.Records accepted) (counter : UInt64) :
    window.check counter = .ok () ↔ Admissible accepted counter := by
  have hhighest := h.highest_eq
  unfold check
  by_cases hzero : counter = 0
  · rw [if_pos hzero]
    exact iff_of_false (by simp) fun hadmissible ↦ hadmissible.nonzero hzero
  · rw [if_neg hzero]
    by_cases habove : window.highest = 0 ∨ window.highest < counter
    · rw [if_pos habove]
      refine iff_of_true rfl ?_
      rcases habove with hstart | habove
      · rw [h.eq_nil hstart]
        refine ⟨hzero, List.not_mem_nil, .inl ?_⟩
        exact Nat.pos_of_ne_zero fun hcounter ↦ hzero (UInt64.toNat_inj.mp hcounter)
      · have hlt := UInt64.lt_iff_toNat_lt.mp habove
        rw [hhighest] at hlt
        refine ⟨hzero, fun hmem ↦ ?_, .inl hlt⟩
        have hle := SlidingWindow.le_top (mem_map_toNat.mpr hmem)
        exact absurd hle (Nat.not_le.mpr hlt)
    · rw [if_neg habove]
      rw [not_or] at habove
      have hdistance := toNat_sub_of_not_lt habove.2
      dsimp only
      by_cases hfar : replayWindowBits ≤ (window.highest - counter).toNat
      · rw [if_pos hfar]
        refine iff_of_false (by simp) fun hadmissible ↦ ?_
        have hnear := hadmissible.near
        unfold replayWindowBits at hfar
        omega
      · rw [if_neg hfar]
        have hbit := h.bits.and_eq_zero_iff (Nat.lt_of_not_le hfar) hdistance
        rw [mem_map_toNat] at hbit
        by_cases hclear : window.bitmap &&& 1#128 <<< (window.highest - counter).toNat = 0
        · rw [if_neg (not_not.mpr hclear)]
          refine iff_of_true rfl ⟨hzero, hbit.mp hclear, .inr ?_⟩
          unfold replayWindowBits at hfar
          omega
        · rw [if_pos hclear]
          exact iff_of_false (by simp) fun hadmissible ↦ hclear (hbit.mpr hadmissible.fresh)

theorem Records.mark (h : window.Records accepted) (hadmissible : Admissible accepted counter) :
    (window.mark counter).Records (counter :: accepted) := by
  have hnonzero : 0 ∉ counter :: accepted := by
    rw [List.mem_cons, not_or]
    exact ⟨hadmissible.nonzero.symm, h.nonzero⟩
  refine ⟨hnonzero, ?_⟩
  unfold ReplayWindow.mark
  by_cases hstart : window.highest = 0
  · rw [if_pos hstart, h.eq_nil hstart]
    have hpositive : 0 < counter.toNat :=
      Nat.pos_of_ne_zero fun hcounter ↦ hadmissible.nonzero (UInt64.toNat_inj.mp hcounter)
    have hempty : SlidingWindow.Records 0 (0 : BitVec 128) [] := SlidingWindow.records_nil
    have hfirst := hempty.advance hpositive
    have hshift : (0 : BitVec 128) <<< (counter.toNat - 0) ||| 1#128 = 1 := by
      rw [show (0 : BitVec 128) = 0#128 from rfl, BitVec.zero_shiftLeft, BitVec.zero_or]
      rfl
    rwa [hshift] at hfirst
  · rw [if_neg hstart]
    by_cases habove : window.highest < counter
    · rw [if_pos habove]
      have hlt := UInt64.lt_iff_toNat_lt.mp habove
      have hshift : (counter - window.highest).toNat =
          counter.toNat - window.highest.toNat :=
        UInt64.toNat_sub_of_le _ _ (UInt64.le_of_lt habove)
      have hnext := h.bits.advance hlt
      rw [← hshift] at hnext
      dsimp only
      split
      · rename_i hgap
        rw [BitVec.shiftLeft_eq_zero (by exact hgap), BitVec.zero_or] at hnext
        exact hnext
      · exact hnext
    · rw [if_neg habove]
      have hdistance := toNat_sub_of_not_lt habove
      have hreach : (window.highest - counter).toNat < replayWindowBits := by
        have hnear := hadmissible.near
        have hhighest := h.highest_eq
        unfold replayWindowBits
        omega
      dsimp only
      rw [if_pos hreach]
      exact h.bits.fill hreach hdistance

end ReplayWindow

/-! ## Sessions -/

inductive SecretInput where
  | encrypt (nonce : Except String (Vector UInt8 24)) (plaintext : List UInt8)
  | decrypt (envelope : EncryptedSecretMessage)
  | rotate (localPrivateKey : Vector UInt8 32) (peerPublicKey : SecretPublicKey)
      (nextEpoch : UInt64)

structure SecretRun where
  session : SecretChatSession
  accepted : List (UInt64 × UInt64) := []

namespace SecretRun

variable (crypto : SecretCrypto)

def next (run : SecretRun) : SecretInput → SecretRun
  | .encrypt nonce plaintext =>
      { run with session := after (SecretChatSession.encrypt crypto nonce plaintext) run.session }
  | .decrypt envelope =>
      { session := after (SecretChatSession.decrypt crypto envelope) run.session
        accepted :=
          match result (SecretChatSession.decrypt crypto envelope) run.session with
          | .ok _ => (run.session.epoch, envelope.counter) :: run.accepted
          | .error _ => run.accepted }
  | .rotate localPrivateKey peerPublicKey nextEpoch =>
      { run with
        session := after (SecretChatSession.rotate crypto localPrivateKey peerPublicKey nextEpoch)
          run.session }

def acceptedIn (accepted : List (UInt64 × UInt64)) (epoch : UInt64) : List UInt64 :=
  (accepted.filter fun entry ↦ entry.1 = epoch).map Prod.snd

theorem mem_acceptedIn {accepted : List (UInt64 × UInt64)} {epoch counter : UInt64} :
    counter ∈ acceptedIn accepted epoch ↔ (epoch, counter) ∈ accepted := by
  simp only [acceptedIn, List.mem_map, List.mem_filter, decide_eq_true_eq]
  constructor
  · rintro ⟨⟨epoch', counter'⟩, ⟨hmem, rfl⟩, rfl⟩
    exact hmem
  · intro hmem
    exact ⟨_, ⟨hmem, rfl⟩, rfl⟩

structure Guarded (run : SecretRun) : Prop where
  records : run.session.replay.Records (acceptedIn run.accepted run.session.epoch)
  nodup : run.accepted.Nodup
  past : ∀ entry ∈ run.accepted, entry.1 ≤ run.session.epoch

variable {crypto} {run : SecretRun}

theorem encrypt_cases (crypto : SecretCrypto) (session : SecretChatSession)
    (nonce : Except String (Vector UInt8 24)) (plaintext : List UInt8) :
    ∃ sendCounter, after (SecretChatSession.encrypt crypto nonce plaintext) session =
      { session with sendCounter := sendCounter } := by
  have hrun := yields_self (SecretChatSession.encrypt crypto nonce plaintext) session
  generalize result (SecretChatSession.encrypt crypto nonce plaintext) session = r at hrun
  generalize after (SecretChatSession.encrypt crypto nonce plaintext) session = t at hrun ⊢
  rw [SecretChatSession.encrypt] at hrun
  rcases yields_orThrow_bind.mp hrun with ⟨_, -, hrun⟩ | ⟨e, -, -, rfl⟩
  · rw [yields_get_bind] at hrun
    rcases yields_orThrow_bind.mp hrun with ⟨_, -, hrun⟩ | ⟨e, -, -, rfl⟩
    · rw [yields_modify_bind] at hrun
      refine ⟨session.sendCounter + 1, ?_⟩
      rcases yields_orThrow_bind.mp hrun with ⟨_, -, hrun⟩ | ⟨e, -, -, rfl⟩
      · rcases yields_orThrow_bind.mp hrun with ⟨_, -, hrun⟩ | ⟨e, -, -, rfl⟩
        · exact (yields_pure.mp hrun).2
        · rfl
      · rfl
    · exact ⟨_, rfl⟩
  · exact ⟨_, rfl⟩

theorem decrypt_cases (crypto : SecretCrypto) (session : SecretChatSession) (envelope : EncryptedSecretMessage) :
    (∃ e, result (SecretChatSession.decrypt crypto envelope) session = .error e ∧
      after (SecretChatSession.decrypt crypto envelope) session = session) ∨
    ∃ plaintext, result (SecretChatSession.decrypt crypto envelope) session = .ok plaintext ∧
      session.replay.check envelope.counter = .ok () ∧
      after (SecretChatSession.decrypt crypto envelope) session =
        { session with replay := session.replay.mark envelope.counter } := by
  have hrun := yields_self (SecretChatSession.decrypt crypto envelope) session
  generalize result (SecretChatSession.decrypt crypto envelope) session = r at hrun ⊢
  generalize after (SecretChatSession.decrypt crypto envelope) session = t at hrun ⊢
  rw [SecretChatSession.decrypt, yields_get_bind] at hrun
  rcases yields_orThrow_bind.mp hrun with ⟨_, -, hrun⟩ | ⟨e, -, rfl, rfl⟩
  · rcases yields_orThrow_bind.mp hrun with ⟨_, hcheck, hrun⟩ | ⟨e, -, rfl, rfl⟩
    · rcases yields_orThrow_bind.mp hrun with ⟨plaintext, -, hrun⟩ | ⟨e, -, rfl, rfl⟩
      · rw [yields_modify_bind] at hrun
        obtain ⟨rfl, rfl⟩ := yields_pure.mp hrun
        exact .inr ⟨plaintext, rfl, hcheck, rfl⟩
      · exact .inl ⟨_, rfl, rfl⟩
    · exact .inl ⟨_, rfl, rfl⟩
  · exact .inl ⟨_, rfl, rfl⟩

theorem rotate_cases (crypto : SecretCrypto) (session : SecretChatSession)
    (localPrivateKey : Vector UInt8 32) (peerPublicKey : SecretPublicKey) (nextEpoch : UInt64) :
    after (SecretChatSession.rotate crypto localPrivateKey peerPublicKey nextEpoch) session =
        session ∨
      ∃ rootKey, session.epoch < nextEpoch ∧
        after (SecretChatSession.rotate crypto localPrivateKey peerPublicKey nextEpoch) session =
          { session with rootKey := rootKey, epoch := nextEpoch, sendCounter := 0, replay := {} } := by
  have hrun := yields_self
    (SecretChatSession.rotate crypto localPrivateKey peerPublicKey nextEpoch) session
  generalize result (SecretChatSession.rotate crypto localPrivateKey peerPublicKey nextEpoch)
    session = r at hrun
  generalize after (SecretChatSession.rotate crypto localPrivateKey peerPublicKey nextEpoch)
    session = t at hrun ⊢
  rw [SecretChatSession.rotate, yields_get_bind] at hrun
  rcases yields_orThrow_bind.mp hrun with ⟨_, hepoch, hrun⟩ | ⟨e, -, -, rfl⟩
  · rcases yields_orThrow_bind.mp hrun with ⟨rootKey, -, hrun⟩ | ⟨e, -, -, rfl⟩
    · right
      refine ⟨rootKey, UInt64.not_le.mp (ensure_eq_ok.mp hepoch), ?_⟩
      exact hrun.eq.2.symm
    · exact .inl rfl
  · exact .inl rfl

theorem Guarded.next (h : run.Guarded) (input : SecretInput) :
    (run.next crypto input).Guarded := by
  cases input with
  | encrypt nonce plaintext =>
      obtain ⟨sendCounter, hafter⟩ := encrypt_cases crypto run.session nonce plaintext
      rw [SecretRun.next, hafter]
      exact ⟨h.records, h.nodup, h.past⟩
  | decrypt envelope =>
      rcases decrypt_cases crypto run.session envelope with
        ⟨e, hresult, hafter⟩ | ⟨plaintext, hresult, hcheck, hafter⟩
      · have hnext : run.next crypto (.decrypt envelope) = run := by
          rw [SecretRun.next, hresult, hafter]
        rwa [hnext]
      · have hadmissible := (h.records.check_iff envelope.counter).mp hcheck
        have hnext : run.next crypto (.decrypt envelope) =
            { session := { run.session with
                replay := run.session.replay.mark envelope.counter }
              accepted := (run.session.epoch, envelope.counter) :: run.accepted } := by
          rw [SecretRun.next, hresult, hafter]
        rw [hnext]
        refine ⟨?_, List.nodup_cons.mpr ⟨fun hmem ↦ ?_, h.nodup⟩, fun entry hentry ↦ ?_⟩
        · have hlist : acceptedIn ((run.session.epoch, envelope.counter) :: run.accepted)
              run.session.epoch =
                envelope.counter :: acceptedIn run.accepted run.session.epoch := by
            simp [acceptedIn]
          rw [hlist]
          exact h.records.mark hadmissible
        · exact hadmissible.fresh (mem_acceptedIn.mpr hmem)
        · rcases List.mem_cons.mp hentry with rfl | hentry
          · exact UInt64.le_refl _
          · exact h.past entry hentry
  | rotate localPrivateKey peerPublicKey nextEpoch =>
      rw [SecretRun.next]
      rcases rotate_cases crypto run.session localPrivateKey peerPublicKey nextEpoch with
        hsame | ⟨rootKey, hepoch, hafter⟩
      · rw [hsame]
        exact h
      · rw [hafter]
        refine ⟨?_, h.nodup, fun entry hentry ↦ ?_⟩
        · have hlist : acceptedIn run.accepted nextEpoch = [] := by
            rw [List.eq_nil_iff_forall_not_mem]
            intro counter hcounter
            have hle := h.past _ (mem_acceptedIn.mp hcounter)
            exact absurd (UInt64.lt_of_lt_of_le hepoch hle) (UInt64.lt_irrefl _)
          rw [hlist]
          exact ReplayWindow.records_empty
        · exact UInt64.le_trans (h.past entry hentry) (UInt64.le_of_lt hepoch)

end SecretRun

/-- No counter is accepted twice in an epoch, the window lets exactly the admissible
counters pass, and a message that is not accepted leaves it as it was. -/
theorem SecretChatSession.replay_protected {crypto : SecretCrypto} {session : SecretChatSession}
    {conversationId : ConversationId} {localActorId peerActorId : ActorId}
    {localPrivateKey : Vector UInt8 32} {peerPublicKey : SecretPublicKey} {epoch : UInt64}
    (hestablished : establish crypto conversationId localActorId peerActorId localPrivateKey
      peerPublicKey epoch = .ok session) (inputs : List SecretInput) :
    let run := Runs.run (SecretRun.next crypto) { session } inputs
    run.accepted.Nodup ∧
      (∀ counter, run.session.replay.check counter = .ok () ↔
        Admissible (SecretRun.acceptedIn run.accepted run.session.epoch) counter) ∧
      ∀ envelope e, result (decrypt crypto envelope) run.session = .error e →
        after (decrypt crypto envelope) run.session = run.session := by
  intro run
  have hstart : SecretRun.Guarded { session } := by
    obtain ⟨_, -, h⟩ := bind_eq_ok.mp hestablished
    obtain ⟨rootKey, -, h⟩ := bind_eq_ok.mp h
    obtain rfl := Except.ok.inj h
    exact ⟨ReplayWindow.records_empty, .nil, List.forall_mem_nil _⟩
  have hguarded : run.Guarded :=
    Runs.invariant (I := SecretRun.Guarded) (fun _ input h ↦ h.next input) hstart inputs
  refine ⟨hguarded.nodup, hguarded.records.check_iff, fun envelope e herror ↦ ?_⟩
  rcases SecretRun.decrypt_cases crypto run.session envelope with
    ⟨_, -, hafter⟩ | ⟨_, hok, -⟩
  · exact hafter
  · cases herror.symm.trans hok

namespace Whisper

def basePoint : Vector UInt8 32 :=
  #v[9, 0, 0, 0, 0, 0, 0, 0, 0, 0, 0, 0, 0, 0, 0, 0, 0, 0, 0, 0, 0, 0, 0, 0, 0, 0, 0, 0, 0, 0, 0, 0]

def shared : Vector UInt8 32 :=
  #v[47, 229, 125, 163, 71, 205, 98, 67, 21, 40, 218, 172, 95, 187, 41, 7, 48, 255, 246, 132, 175,
    196, 207, 194, 237, 144, 153, 95, 88, 203, 59, 116]

def rootKey : Vector UInt8 32 :=
  #v[225, 87, 160, 210, 243, 242, 192, 147, 27, 237, 113, 155, 154, 236, 39, 56, 199, 34, 246, 117,
    88, 35, 237, 121, 53, 180, 83, 3, 41, 200, 147, 202]

def hi : List UInt8 :=
  [104, 105]

def sealedHi : List UInt8 :=
  [125, 223, 64, 236, 204, 140, 28, 32, 53, 209, 78, 63, 161, 1, 196, 175, 65, 185]

def crypto : SecretCrypto where
  encodeBase64Url bytes :=
    if bytes = sealedHi then "fd9A7MyMHCA10U4_oQHEr0G5"
    else if bytes = List.replicate 24 0 then "AAAAAAAAAAAAAAAAAAAAAAAAAAAAAAAA"
    else "CQAAAAAAAAAAAAAAAAAAAAAAAAAAAAAAAAAAAAAAAAA"
  decodeBase64Url value :=
    if value = "fd9A7MyMHCA10U4_oQHEr0G5" then some sealedHi
    else if value = "AAAAAAAAAAAAAAAAAAAAAAAAAAAAAAAA" then some (List.replicate 24 0)
    else if value = "CQAAAAAAAAAAAAAAAAAAAAAAAAAAAAAAAAAAAAAAAAA" then some basePoint.toList
    else none
  diffieHellman _ _ := shared
  hkdfExpand _ _ _ := some rootKey
  cipherEncrypt _ _ _ _ := some sealedHi
  cipherDecrypt _ _ ciphertext _ := if ciphertext = sealedHi then some hi else none

def peerKey : SecretPublicKey where
  algorithm := "X25519"
  keyBase64 := "CQAAAAAAAAAAAAAAAAAAAAAAAAAAAAAAAAAAAAAAAAA"

def session : SecretChatSession where
  conversationId := ⟨"c"⟩
  localActorId := ⟨"a"⟩
  peerActorId := ⟨"b"⟩
  epoch := 1
  rootKey := rootKey

def envelope : EncryptedSecretMessage where
  version := 1
  algorithm := "X25519+HKDF-SHA256+XChaCha20Poly1305"
  conversationId := ⟨"c"⟩
  epoch := 1
  senderId := ⟨"b"⟩
  recipientId := ⟨"a"⟩
  counter := 1
  nonceBase64 := "AAAAAAAAAAAAAAAAAAAAAAAAAAAAAAAA"
  ciphertextBase64 := "fd9A7MyMHCA10U4_oQHEr0G5"

example : (Runs.run (SecretRun.next crypto) { session } [.decrypt envelope]).accepted = [(1, 1)] := by
  decide +kernel

end Whisper

theorem SecretChatSession.replay_protected_repeated :
    let run := Runs.run (SecretRun.next Whisper.crypto) { session := Whisper.session }
      [.decrypt Whisper.envelope, .decrypt Whisper.envelope]
    run.accepted.Nodup ∧
      (∀ counter, run.session.replay.check counter = .ok () ↔
        Admissible (SecretRun.acceptedIn run.accepted run.session.epoch) counter) ∧
      ∀ envelope e, result (decrypt Whisper.crypto envelope) run.session = .error e →
        after (decrypt Whisper.crypto envelope) run.session = run.session :=
  have hestablished : establish Whisper.crypto ⟨"c"⟩ ⟨"a"⟩ ⟨"b"⟩ (.replicate 32 0) Whisper.peerKey 1 =
      .ok Whisper.session := by
    rfl
  replay_protected hestablished _

end Fabushi.Messaging
