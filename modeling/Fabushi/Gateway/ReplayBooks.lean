import Fabushi.Library.Paging
import Fabushi.Gateway.State

/-!
# What a replay store knows of its history

The store of an epoch accounts for the events it has numbered: a session it holds retains
their end, a session it has forgotten is known by its last number, and of any other session
there are none. A push keeps the account as long as no forgotten session is dropped.
-/

namespace Fabushi.Gateway

open MachineInt Paging Retention

def GatewayEventEnvelope.number (envelope : GatewayEventEnvelope) : ℕ :=
  envelope.seq.toNat

structure SessionReplay.Keeps (session : SessionReplay) (history : List GatewayEventEnvelope) :
    Prop where
  numbered : Numbered GatewayEventEnvelope.number history
  latest : session.nextSeq.toNat = history.length
  evicted_le : session.evictedThrough.toNat ≤ history.length
  held : ∀ item ∈ session.events, item.1 ∈ history
  retains : Retains GatewayEventEnvelope.number history (session.events.map Prod.fst)
    session.evictedThrough.toNat

namespace SessionReplay

variable {session : SessionReplay} {history : List GatewayEventEnvelope}

theorem keeps_restart {latest : UInt64}
    (hnumbered : Numbered GatewayEventEnvelope.number history)
    (hlatest : latest.toNat = history.length) :
    Keeps { nextSeq := latest, evictedThrough := latest } history := by
  refine ⟨hnumbered, hlatest, hlatest.le, by simp, ?_⟩
  apply retains_nil
  intro envelope hmem
  exact (hnumbered.mem_iff hmem).2.trans hlatest.ge

theorem keeps_evict {limits : ReplayLimits} {nextSeq : UInt64}
    (hnumbered : Numbered GatewayEventEnvelope.number history)
    (hlatest : nextSeq.toNat = history.length)
    {events : List (GatewayEventEnvelope × ℕ)} {bytes : ℕ} {evictedThrough : UInt64}
    (hmem : ∀ item ∈ events, item.1 ∈ history)
    (hevicted : evictedThrough.toNat ≤ history.length)
    (hretains : Retains GatewayEventEnvelope.number history (events.map Prod.fst)
      evictedThrough.toNat) :
    (evict limits nextSeq events bytes evictedThrough).Keeps history := by
  induction events generalizing bytes evictedThrough with
  | nil => exact ⟨hnumbered, hlatest, hevicted, hmem, hretains⟩
  | cons item events ih =>
      obtain ⟨removed, size⟩ := item
      unfold evict
      split
      · have hmax : (max evictedThrough removed.seq).toNat =
            max evictedThrough.toNat removed.number := by
          change (max evictedThrough removed.seq).toNat = max evictedThrough.toNat removed.seq.toNat
          rcases le_total evictedThrough removed.seq with hle | hle
          · rw [max_eq_right hle, max_eq_right (UInt64.le_iff_toNat_le.mp hle)]
          · rw [max_eq_left hle, max_eq_left (UInt64.le_iff_toNat_le.mp hle)]
        apply ih
        · exact fun item h ↦ hmem item (List.mem_cons_of_mem _ h)
        · rw [hmax]
          exact max_le hevicted
            (hnumbered.mem_iff (hmem _ List.mem_cons_self)).2
        · rw [hmax]
          exact hretains.pop
      · exact ⟨hnumbered, hlatest, hevicted, hmem, hretains⟩

theorem Keeps.pushInto (h : session.Keeps history) (codec : Codec) (epoch : String)
    (limits : StoreLimits) (draft : GatewayEventDraft)
    (hroom : history.length + 1 < 2 ^ 64) :
    let pushed := ReplayStore.pushInto codec epoch limits session draft
    pushed.1.Keeps (history ++ [pushed.2]) ∧ pushed.2.number = history.length + 1 := by
  have hnext : (saturatingU64 session.nextSeq 1).toNat = history.length + 1 := by
    have hnowrap : session.nextSeq.toNat + 1 < 2 ^ 64 := by rwa [h.latest]
    rw [saturatingU64, if_pos hnowrap, h.latest]
    exact UInt64.toNat_ofNat_of_lt hroom
  unfold ReplayStore.pushInto
  let envelope := GatewayEventEnvelope.new draft.sessionId draft.turnId
    (saturatingU64 session.nextSeq 1) (codec.timestampString draft.timestampMs) epoch draft.event
  have hnumber : envelope.number = history.length + 1 := hnext
  have hnumbered := h.numbered.append hnumber
  have hlatest : (saturatingU64 session.nextSeq 1).toNat = (history ++ [envelope]).length := by
    rw [hnext, List.length_append]
    rfl
  have hheld : ∀ item ∈ session.events, item.1 ∈ history ++ [envelope] :=
    fun item hmem ↦ List.mem_append_left _ (h.held item hmem)
  dsimp only
  split
  · refine ⟨⟨hnumbered, hlatest, hlatest.le, hheld, ?_⟩, hnumber⟩
    refine h.retains.skip ?_ ?_
    · exact h.evicted_le.trans (by rw [hnumber]; omega)
    · intro earlier hmem
      exact (h.numbered.mem_iff hmem).2.trans (by rw [hnumber]; omega)
  · refine ⟨keeps_evict hnumbered hlatest ?_ ?_ ?_, hnumber⟩
    · intro item hmem
      rcases List.mem_append.mp hmem with hold | hnew
      · exact hheld item hold
      · rw [List.mem_singleton.mp hnew]
        exact List.mem_append_right _ (List.mem_singleton.mpr rfl)
    · rw [List.length_append]
      exact h.evicted_le.trans (Nat.le_add_right _ _)
    · rw [List.map_append]
      exact h.retains.append envelope

end SessionReplay

/-! ## The store -/

namespace ReplayStore

structure Accounts (store : ReplayStore) (history : String → List GatewayEventEnvelope) :
    Prop where
  order_nodup : store.sessionOrder.Nodup
  mem_order : ∀ s : String, s ∈ store.sessionOrder ↔ ∃ session, store.sessions[s]? = some session
  size_le : store.sessions.size ≤ store.limits.maxSessions
  forgotten_nodup : store.forgottenOrder.Nodup
  mem_forgotten : ∀ s : String, s ∈ store.forgottenOrder ↔
    ∃ latest, store.forgottenLatest[s]? = some latest
  forgotten_le : store.forgottenOrder.length ≤ store.limits.maxSessions
  apart : ∀ s ∈ store.sessionOrder, s ∉ store.forgottenOrder
  kept : ∀ (s : String) (session : SessionReplay), store.sessions[s]? = some session →
    session.Keeps (history s)
  forgotten : ∀ (s : String) (latest : UInt64), store.forgottenLatest[s]? = some latest →
    Numbered GatewayEventEnvelope.number (history s) ∧ latest.toNat = (history s).length
  unknown : ∀ s, s ∉ store.sessionOrder → s ∉ store.forgottenOrder → history s = []

/-- Room for a session: it is held already, or another one can be, or another one can be
forgotten for it without dropping a forgotten one. -/
def HasRoom (store : ReplayStore) (sessionId : String) : Prop :=
  (store.sessions[sessionId]?).isSome ∨
    store.sessions.size < store.limits.maxSessions ∨
    store.forgottenOrder.length < store.limits.maxSessions

instance (store : ReplayStore) (sessionId : String) : Decidable (store.HasRoom sessionId) := by
  unfold HasRoom
  infer_instance

variable {store : ReplayStore} {history : String → List GatewayEventEnvelope}

theorem accounts_withEpoch (limits : ReplayLimits) (epoch : String) {history}
    (h : ∀ s : String, history s = []) : (withEpoch limits epoch).Accounts history := by
  constructor <;> simp_all [withEpoch]

theorem trimForgotten_eq {maxSessions : ℕ} (latest : BTreeMap String UInt64)
    {order : List String} (h : order.length ≤ maxSessions) :
    trimForgotten maxSessions latest order = (latest, order) := by
  cases order with
  | nil => rfl
  | cons oldest order => exact if_neg (by simpa using h)

def forgetting (store : ReplayStore) (oldest : String) (order : List String)
    (removed : SessionReplay) : ReplayStore :=
  { store with
    sessions := store.sessions.erase oldest
    sessionOrder := order
    forgottenLatest := store.forgottenLatest.insert oldest removed.nextSeq
    forgottenOrder := store.forgottenOrder ++ [oldest] }

theorem Accounts.forgetting (h : store.Accounts history) {oldest : String} {order : List String}
    (horder : store.sessionOrder = oldest :: order) {removed : SessionReplay}
    (hremoved : store.sessions[oldest]? = some removed)
    (hroom : store.forgottenOrder.length < store.limits.maxSessions) :
    (store.forgetting oldest order removed).Accounts history := by
  have hnodup := h.order_nodup
  rw [horder, List.nodup_cons] at hnodup
  have hmem : ∀ s, s ∈ store.sessionOrder ↔ s = oldest ∨ s ∈ order := by
    intro s
    rw [horder, List.mem_cons]
  have hapart : oldest ∉ store.forgottenOrder := h.apart oldest ((hmem oldest).mpr (.inl rfl))
  constructor
  case order_nodup => exact hnodup.2
  case mem_order =>
    intro s
    simp only [ReplayStore.forgetting, BTreeMap.get_erase]
    by_cases hs : oldest = s
    · subst hs
      simpa using hnodup.1
    · rw [if_neg hs, ← h.mem_order s, hmem s]
      exact ⟨.inr, fun h ↦ h.resolve_left (Ne.symm hs)⟩
  case size_le =>
    refine le_trans ?_ h.size_le
    exact Std.ExtTreeMap.size_erase_le
  case forgotten_nodup =>
    simp only [ReplayStore.forgetting]
    exact h.forgotten_nodup.append (List.nodup_singleton oldest) (by simpa using hapart)
  case mem_forgotten =>
    intro s
    simp only [ReplayStore.forgetting, BTreeMap.get_insert, List.mem_append, List.mem_singleton]
    by_cases hs : oldest = s
    · simp [hs]
    · rw [if_neg hs, ← h.mem_forgotten s]
      exact or_iff_left (Ne.symm hs)
  case forgotten_le =>
    simp only [ReplayStore.forgetting, List.length_append, List.length_singleton]
    exact hroom
  case apart =>
    intro s hs hforgotten
    rcases List.mem_append.mp hforgotten with hold | hnew
    · exact h.apart s ((hmem s).mpr (.inr hs)) hold
    · rw [List.mem_singleton.mp hnew] at hs
      exact hnodup.1 hs
  case kept =>
    intro s session hget
    simp only [ReplayStore.forgetting, BTreeMap.get_erase] at hget
    split at hget
    · cases hget
    · exact h.kept s session hget
  case forgotten =>
    intro s latest hget
    simp only [ReplayStore.forgetting, BTreeMap.get_insert] at hget
    split at hget
    · rename_i hs
      subst hs
      have hkeeps := h.kept oldest removed hremoved
      rw [← Option.some.inj hget]
      exact ⟨hkeeps.numbered, hkeeps.latest⟩
    · exact h.forgotten s latest hget
  case unknown =>
    intro s hs hforgotten
    simp only [ReplayStore.forgetting, List.mem_append, List.mem_singleton, not_or] at hforgotten
    apply h.unknown s
    · rw [hmem s]
      exact not_or.mpr ⟨hforgotten.2, hs⟩
    · exact hforgotten.1

theorem makeRoom_of_lt (h : store.sessions.size < store.limits.maxSessions)
    (order : List String) : makeRoom order store = { store with sessionOrder := order } := by
  cases order with
  | nil => rfl
  | cons oldest order => exact if_neg (not_le.mpr h)

theorem Accounts.makeRoom (h : store.Accounts history) {sessionId : String}
    (hnew : store.sessions[sessionId]? = none) (hroom : store.HasRoom sessionId) :
    let room := makeRoom store.sessionOrder store
    room.Accounts history ∧ room.sessions.size < room.limits.maxSessions ∧
      room.sessions[sessionId]? = none := by
  have hroom' : store.sessions.size < store.limits.maxSessions ∨
      store.forgottenOrder.length < store.limits.maxSessions := by
    simpa [HasRoom, hnew] using hroom
  cases horder : store.sessionOrder with
  | nil =>
      have hstore : ReplayStore.makeRoom [] store = store := by
        rw [ReplayStore.makeRoom, ← horder]
      have hempty : store.sessions = ∅ := by
        apply Std.ExtTreeMap.ext_getElem?
        intro s
        cases hget : store.sessions[s]? with
        | none => simp
        | some session =>
            have hmem := (h.mem_order s).mpr ⟨session, hget⟩
            rw [horder] at hmem
            cases hmem
      dsimp only
      rw [hstore]
      refine ⟨h, ?_, hnew⟩
      rw [hempty]
      exact store.limits.sessions_pos
  | cons oldest order =>
      have holdest : oldest ∈ store.sessionOrder := horder ▸ List.mem_cons_self
      obtain ⟨removed, hremoved⟩ := (h.mem_order oldest).mp holdest
      by_cases hfull : store.limits.maxSessions ≤ store.sessions.size
      · have hspace := hroom'.resolve_left (not_lt.mpr hfull)
        have hfresh : oldest ∉ store.forgottenOrder := h.apart oldest holdest
        have hsize : (store.sessions.erase oldest).size < store.limits.maxSessions := by
          have hmem : oldest ∈ store.sessions := by
            by_contra hnot
            rw [BTreeMap.get_eq_none_iff.mpr hnot] at hremoved
            cases hremoved
          have hsize := h.size_le
          have hpos := store.limits.sessions_pos
          rw [Std.ExtTreeMap.size_erase, if_pos (by simpa using hmem)]
          omega
        have hloop : ReplayStore.makeRoom (oldest :: order) store =
            store.forgetting oldest order removed := by
          have hforget : ({ store with sessions := store.sessions.erase oldest } :
              ReplayStore).rememberForgotten oldest removed.nextSeq =
                { store.forgetting oldest order removed with
                  sessionOrder := store.sessionOrder } := by
            unfold rememberForgotten
            rw [List.erase_of_not_mem hfresh, trimForgotten_eq]
            · rfl
            · rw [List.length_append]
              exact hspace
          rw [ReplayStore.makeRoom, if_pos hfull, hremoved]
          dsimp only
          rw [hforget]
          exact makeRoom_of_lt hsize order
        dsimp only
        rw [hloop]
        refine ⟨h.forgetting horder hremoved hspace, hsize, ?_⟩
        simp only [ReplayStore.forgetting, BTreeMap.get_erase, hnew, ite_self]
      · have hloop : ReplayStore.makeRoom (oldest :: order) store = store := by
          rw [makeRoom_of_lt (not_le.mp hfull), ← horder]
        dsimp only
        rw [hloop]
        exact ⟨h, not_le.mp hfull, hnew⟩

theorem Accounts.returning (h : store.Accounts history) {s : String}
    (hnew : store.sessions[s]? = none) :
    SessionReplay.Keeps { nextSeq := store.forgottenLatest[s]?.getD 0
                          evictedThrough := store.forgottenLatest[s]?.getD 0 } (history s) := by
  have hnotheld : s ∉ store.sessionOrder := by
    rw [h.mem_order s, hnew]
    simp
  cases hlatest : store.forgottenLatest[s]? with
  | some latest =>
      obtain ⟨hnumbered, hlast⟩ := h.forgotten s latest hlatest
      exact SessionReplay.keeps_restart hnumbered hlast
  | none =>
      have hunknown : history s = [] := by
        apply h.unknown s hnotheld
        rw [h.mem_forgotten s, hlatest]
        simp
      rw [hunknown]
      exact SessionReplay.keeps_restart numbered_nil rfl

theorem mem_moved_back {order : List String} {s t : String} :
    t ∈ order.erase s ++ [s] ↔ t ∈ order ∨ t = s := by
  rw [List.mem_append, List.mem_singleton]
  by_cases hts : t = s
  · simp [hts]
  · rw [List.mem_erase_of_ne hts]

theorem Accounts.ensureSession (h : store.Accounts history) {s : String}
    (hroom : store.HasRoom s) :
    (store.ensureSession s).Accounts history ∧
      ∃ session, (store.ensureSession s).sessions[s]? = some session := by
  unfold ReplayStore.ensureSession
  cases hget : store.sessions[s]? with
  | some session =>
      simp only [Option.isSome_some, if_true]
      have hheld : s ∈ store.sessionOrder := (h.mem_order s).mpr ⟨session, hget⟩
      have hmem : ∀ t, t ∈ store.sessionOrder.erase s ++ [s] ↔ t ∈ store.sessionOrder := by
        intro t
        rw [mem_moved_back]
        exact or_iff_left_of_imp fun hts ↦ hts ▸ hheld
      refine ⟨?_, session, hget⟩
      constructor
      case order_nodup =>
        refine (h.order_nodup.erase s).append (List.nodup_singleton s) ?_
        simpa using h.order_nodup.not_mem_erase
      case mem_order => exact fun t ↦ (hmem t).trans (h.mem_order t)
      case apart => exact fun t ht ↦ h.apart t ((hmem t).mp ht)
      case unknown => exact fun t ht ↦ h.unknown t fun hold ↦ ht ((hmem t).mpr hold)
      case size_le => exact h.size_le
      case forgotten_nodup => exact h.forgotten_nodup
      case mem_forgotten => exact h.mem_forgotten
      case forgotten_le => exact h.forgotten_le
      case kept => exact h.kept
      case forgotten => exact h.forgotten
  | none =>
      simp only [Option.isSome_none, Bool.false_eq_true, if_false]
      obtain ⟨hbooks, hsize, hnew⟩ := h.makeRoom hget hroom
      generalize ReplayStore.makeRoom store.sessionOrder store = room at hbooks hsize hnew
      have hnotheld : s ∉ room.sessionOrder := by
        rw [hbooks.mem_order s, hnew]
        simp
      refine ⟨?_, _, BTreeMap.get_insert_self _ _ _⟩
      constructor
      case order_nodup =>
        exact hbooks.order_nodup.append (List.nodup_singleton s) (by simpa using hnotheld)
      case mem_order =>
        intro t
        simp only [List.mem_append, List.mem_singleton, BTreeMap.get_insert]
        by_cases hts : s = t
        · simp [hts]
        · rw [if_neg hts, ← hbooks.mem_order t]
          exact or_iff_left (Ne.symm hts)
      case size_le =>
        simp only [BTreeMap.size_insert_of_none hnew]
        exact hsize
      case forgotten_nodup => exact hbooks.forgotten_nodup.erase s
      case mem_forgotten =>
        intro t
        simp only [BTreeMap.get_erase, hbooks.forgotten_nodup.mem_erase_iff]
        by_cases hts : s = t
        · simp [hts]
        · rw [if_neg hts, ← hbooks.mem_forgotten t]
          exact and_iff_right (Ne.symm hts)
      case forgotten_le =>
        exact List.length_erase_le.trans hbooks.forgotten_le
      case apart =>
        intro t ht hforgotten
        rw [hbooks.forgotten_nodup.mem_erase_iff] at hforgotten
        rcases List.mem_append.mp ht with hold | hlast
        · exact hbooks.apart t hold hforgotten.2
        · exact hforgotten.1 (List.mem_singleton.mp hlast)
      case kept =>
        intro t session ht
        simp only [BTreeMap.get_insert] at ht
        split at ht
        · rename_i hts
          rw [← hts, ← Option.some.inj ht]
          exact hbooks.returning hnew
        · exact hbooks.kept t session ht
      case forgotten =>
        intro t latest ht
        simp only [BTreeMap.get_erase] at ht
        split at ht
        · cases ht
        · exact hbooks.forgotten t latest ht
      case unknown =>
        intro t ht hforgotten
        obtain ⟨hold, hne⟩ := not_or.mp (mt List.mem_append.mpr ht)
        apply hbooks.unknown t hold
        intro hmem
        apply hforgotten
        rw [hbooks.forgotten_nodup.mem_erase_iff]
        exact ⟨fun hts ↦ hne (List.mem_singleton.mpr hts), hmem⟩

/-! ## Pushes -/

theorem epoch_makeRoom (order : List String) (store : ReplayStore) :
    (makeRoom order store).epoch = store.epoch := by
  induction order generalizing store with
  | nil => rfl
  | cons oldest order ih =>
      unfold makeRoom
      split
      · rw [ih]
        split <;> rfl
      · rfl

theorem epoch_ensureSession (store : ReplayStore) (s : String) :
    (store.ensureSession s).epoch = store.epoch := by
  unfold ReplayStore.ensureSession
  split
  · rfl
  · exact epoch_makeRoom store.sessionOrder store

def lastNumber (store : ReplayStore) (s : String) : UInt64 :=
  ((store.sessions[s]?.map SessionReplay.nextSeq).or store.forgottenLatest[s]?).getD 0

theorem Accounts.lastNumber (h : store.Accounts history) (s : String) :
    (store.lastNumber s).toNat = (history s).length := by
  unfold ReplayStore.lastNumber
  cases hget : store.sessions[s]? with
  | some session => exact (h.kept s session hget).latest
  | none => exact (h.returning hget).latest

theorem Accounts.numbered (h : store.Accounts history) (s : String) :
    Numbered GatewayEventEnvelope.number (history s) := by
  cases hget : store.sessions[s]? with
  | some session => exact (h.kept s session hget).numbered
  | none => exact (h.returning hget).numbered

def Fits (store : ReplayStore) (draft : GatewayEventDraft) : Prop :=
  store.HasRoom draft.sessionId ∧ (store.lastNumber draft.sessionId).toNat + 1 < 2 ^ 64

instance (store : ReplayStore) (draft : GatewayEventDraft) : Decidable (store.Fits draft) := by
  unfold Fits
  infer_instance

theorem Accounts.push (h : store.Accounts history) (codec : Codec) {draft : GatewayEventDraft}
    (hfits : store.Fits draft) {history' : String → List GatewayEventEnvelope}
    (hown : history' draft.sessionId = history draft.sessionId ++ [(store.push codec draft).2])
    (hothers : ∀ s ≠ draft.sessionId, history' s = history s) :
    (store.push codec draft).1.Accounts history' ∧
      (store.push codec draft).2.number = (history draft.sessionId).length + 1 := by
  obtain ⟨hbooks, session, hget⟩ := h.ensureSession hfits.1
  have hroom : (history draft.sessionId).length + 1 < 2 ^ 64 := by
    rw [← h.lastNumber]
    exact hfits.2
  obtain ⟨hkeeps, hnumber⟩ := (hbooks.kept _ session hget).pushInto codec
    (store.ensureSession draft.sessionId).epoch (store.ensureSession draft.sessionId).limits
    draft hroom
  have hpush : store.push codec draft =
      ({ store.ensureSession draft.sessionId with
          sessions := (store.ensureSession draft.sessionId).sessions.insert draft.sessionId
            (pushInto codec (store.ensureSession draft.sessionId).epoch
              (store.ensureSession draft.sessionId).limits session draft).1 },
        (pushInto codec (store.ensureSession draft.sessionId).epoch
          (store.ensureSession draft.sessionId).limits session draft).2) := by
    unfold ReplayStore.push
    dsimp only
    rw [hget]
    rfl
  rw [hpush] at hown ⊢
  generalize store.ensureSession draft.sessionId = held at *
  refine ⟨?_, hnumber⟩
  have hheld : draft.sessionId ∈ held.sessionOrder :=
    (hbooks.mem_order _).mpr ⟨session, hget⟩
  constructor
  case order_nodup => exact hbooks.order_nodup
  case mem_order =>
    intro s
    rw [hbooks.mem_order s]
    simp only [BTreeMap.get_insert]
    by_cases hs : draft.sessionId = s
    · rw [← hs, hget]
      simp
    · rw [if_neg hs]
  case size_le =>
    simp only [BTreeMap.size_insert_of_some hget]
    exact hbooks.size_le
  case forgotten_nodup => exact hbooks.forgotten_nodup
  case mem_forgotten => exact hbooks.mem_forgotten
  case forgotten_le => exact hbooks.forgotten_le
  case apart => exact hbooks.apart
  case kept =>
    intro s other hother
    simp only [BTreeMap.get_insert] at hother
    split at hother
    · rename_i hs
      rw [← hs, ← Option.some.inj hother, hown]
      exact hkeeps
    · rename_i hs
      rw [hothers s (Ne.symm hs)]
      exact hbooks.kept s other hother
  case forgotten =>
    intro s latest hlatest
    have hs : s ≠ draft.sessionId := by
      rintro rfl
      exact hbooks.apart _ hheld ((hbooks.mem_forgotten _).mpr ⟨latest, hlatest⟩)
    rw [hothers s hs]
    exact hbooks.forgotten s latest hlatest
  case unknown =>
    intro s hs hforgotten
    rw [hothers s (ne_of_mem_of_not_mem hheld hs).symm]
    exact hbooks.unknown s hs hforgotten

end ReplayStore

/-! ## The events of all epochs -/

def GatewayEventEnvelope.place (envelope : GatewayEventEnvelope) : String × String × UInt64 :=
  (envelope.replayEpoch, envelope.sessionId, envelope.seq)

def historyOf (given : List GatewayEventEnvelope) (epoch sessionId : String) :
    List GatewayEventEnvelope :=
  given.filter fun envelope ↦ envelope.replayEpoch = epoch ∧ envelope.sessionId = sessionId

structure ReplayStore.Told (store : ReplayStore) (given : List GatewayEventEnvelope) : Prop where
  accounts : store.Accounts (historyOf given store.epoch)
  distinct : (given.map GatewayEventEnvelope.place).Nodup

namespace ReplayStore

variable {store : ReplayStore} {given : List GatewayEventEnvelope}

theorem epoch_push (store : ReplayStore) (codec : Codec) (draft : GatewayEventDraft) :
    (store.push codec draft).1.epoch = store.epoch :=
  epoch_ensureSession store draft.sessionId

theorem envelope_push (store : ReplayStore) (codec : Codec) (draft : GatewayEventDraft) :
    (store.push codec draft).2.replayEpoch = store.epoch ∧
      (store.push codec draft).2.sessionId = draft.sessionId := by
  rw [← epoch_ensureSession store draft.sessionId]
  unfold ReplayStore.push pushInto
  dsimp only
  split <;> exact ⟨rfl, rfl⟩

theorem Told.push (h : store.Told given) (codec : Codec) {draft : GatewayEventDraft}
    (hfits : store.Fits draft) :
    (store.push codec draft).1.Told (given ++ [(store.push codec draft).2]) := by
  obtain ⟨hepoch, hsession⟩ := envelope_push store codec draft
  have hown : historyOf (given ++ [(store.push codec draft).2]) store.epoch draft.sessionId =
      historyOf given store.epoch draft.sessionId ++ [(store.push codec draft).2] := by
    simp [historyOf, hepoch, hsession]
  have hothers : ∀ s ≠ draft.sessionId,
      historyOf (given ++ [(store.push codec draft).2]) store.epoch s =
        historyOf given store.epoch s := by
    intro s hs
    simp [historyOf, hsession, Ne.symm hs]
  obtain ⟨hbooks, hnumber⟩ := h.accounts.push codec hfits hown hothers
  refine ⟨?_, ?_⟩
  · rw [epoch_push]
    exact hbooks
  · rw [List.map_append]
    refine h.distinct.append (List.nodup_singleton _) ?_
    rw [List.map_singleton, List.disjoint_singleton]
    intro hmem
    obtain ⟨earlier, hearlier, hplace⟩ := List.mem_map.mp hmem
    simp only [GatewayEventEnvelope.place, Prod.mk.injEq, hepoch, hsession] at hplace
    obtain ⟨hepoch', hsession', hseq⟩ := hplace
    have hin : earlier ∈ historyOf given store.epoch draft.sessionId := by
      simp [historyOf, hearlier, hepoch', hsession']
    have hle := ((h.accounts.numbered draft.sessionId).mem_iff hin).2
    rw [GatewayEventEnvelope.number, hseq] at hle
    have hnext : (store.push codec draft).2.seq.toNat = _ := hnumber
    omega

def AllFit (codec : Codec) : ReplayStore → List GatewayEventDraft → Prop
  | _, [] => True
  | store, draft :: drafts => store.Fits draft ∧ AllFit codec (store.push codec draft).1 drafts

instance decidableAllFit (codec : Codec) : ∀ (store : ReplayStore)
    (drafts : List GatewayEventDraft), Decidable (AllFit codec store drafts)
  | _, [] => isTrue trivial
  | store, draft :: drafts =>
      @instDecidableAnd _ _ _ (decidableAllFit codec (store.push codec draft).1 drafts)

theorem Told.pushAll (codec : Codec) {drafts : List GatewayEventDraft} {store : ReplayStore}
    {given : List GatewayEventEnvelope} (h : store.Told given)
    (hfit : AllFit codec store drafts) :
    (Base.GatewayState.pushAll codec store drafts).1.Told
        (given ++ (Base.GatewayState.pushAll codec store drafts).2) := by
  induction drafts generalizing store given with
  | nil =>
      rw [Base.GatewayState.pushAll, List.append_nil]
      exact h
  | cons draft drafts ih =>
      have hrest := ih (h.push codec hfit.1) hfit.2
      rw [List.append_assoc] at hrest
      exact hrest

theorem told_withEpoch (limits : ReplayLimits) {epoch : String}
    {given : List GatewayEventEnvelope}
    (hfresh : ∀ envelope ∈ given, envelope.replayEpoch ≠ epoch)
    (hdistinct : (given.map GatewayEventEnvelope.place).Nodup) :
    (withEpoch limits epoch).Told given := by
  refine ⟨accounts_withEpoch limits epoch fun s ↦ ?_, hdistinct⟩
  rw [historyOf, List.filter_eq_nil_iff]
  intro envelope hmem
  simp [withEpoch, hfresh envelope hmem]

/-- What a slice that is not truncated tells: all that was given behind `lastSeen`. -/
theorem Told.since (h : store.Told given) (sessionId : String) (lastSeen : UInt64)
    (hwhole : (store.since sessionId lastSeen false).truncated = false) :
    (store.since sessionId lastSeen false).events =
        behind GatewayEventEnvelope.number lastSeen.toNat
          (historyOf given store.epoch sessionId) := by
  unfold ReplayStore.since at hwhole ⊢
  rw [if_neg Bool.false_ne_true] at hwhole ⊢
  cases hget : store.sessions[sessionId]? with
  | some session =>
      simp only [hget] at hwhole ⊢
      have hkeeps := h.accounts.kept sessionId session hget
      have hseen : session.evictedThrough.toNat ≤ lastSeen.toNat := by
        have hnot := (Bool.or_eq_false_iff.mp hwhole).1
        exact UInt64.le_iff_toNat_le.mp (not_lt.mp (of_decide_eq_false hnot))
      rw [← hkeeps.retains.since hseen, behind, List.filter_map]
      rfl
  | none =>
      simp only [hget] at hwhole ⊢
      have hkeeps := h.accounts.returning hget
      have hzero : (store.forgottenLatest[sessionId]?.getD 0).toNat ≤ lastSeen.toNat := by
        have hnot := (Bool.or_eq_false_iff.mp hwhole).2
        exact UInt64.le_iff_toNat_le.mp (not_lt.mp (of_decide_eq_false hnot))
      symm
      apply behind_eq_nil
      intro envelope hmem
      exact (hkeeps.numbered.mem_iff hmem).2.trans (hkeeps.latest ▸ hzero)

end ReplayStore

end Fabushi.Gateway
