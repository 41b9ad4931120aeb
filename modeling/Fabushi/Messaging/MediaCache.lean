import Fabushi.Messaging.Conversation
import Fabushi.Library.Runs

/-!
# The media cache

`media_cache.rs`: entries under a byte budget, evicted in order of their last
access. An insertion writes the new entry first and evicts afterwards, and when
the pinned entries turn out to leave no room it puts back the entry it replaced,
but none of those it has evicted on the way.
-/

namespace Fabushi.Messaging

open MachineInt Result Std

structure MediaCacheEntry where
  media : MediaRef
  localPath : String
  sizeBytes : UInt64
  lastAccessedMs : Int64
  pinned : Bool
  deriving DecidableEq

inductive MediaCacheError where
  | invalidBudget
  | invalidMediaId
  | invalidLocalPath
  | entryTooLarge (sizeBytes maxBytes : UInt64)
  | pinnedEntriesExceedBudget
  | notFound (mediaId : String)
  deriving DecidableEq

structure MediaCache where
  maxBytes : UInt64
  entries : BTreeMap String MediaCacheEntry := ∅
  deriving DecidableEq

def MediaCacheEntry.recency (entry : MediaCacheEntry) : ℤ ×ₗ String :=
  toLex (entry.lastAccessedMs.toInt, entry.media.id)

namespace MediaCache

def new (maxBytes : UInt64) : Except MediaCacheError MediaCache := do
  ensure (maxBytes ≠ 0) .invalidBudget
  return { maxBytes }

def totalBytes (cache : MediaCache) : UInt64 :=
  cache.entries.values.foldl (fun total entry ↦ saturatingU64 total entry.sizeBytes.toNat) 0

def get (cache : MediaCache) (mediaId : String) (nowMs : Int64) : MediaCache :=
  { cache with entries := BTreeMap.update cache.entries mediaId fun entry ↦
      { entry with lastAccessedMs := nowMs } }

def remove (cache : MediaCache) (mediaId : String) : MediaCache :=
  { cache with entries := cache.entries.erase mediaId }

def setPinned (cache : MediaCache) (mediaId : String) (pinned : Bool) :
    MediaCache × Except MediaCacheError Unit :=
  match cache.entries[mediaId]? with
  | none => (cache, .error (.notFound mediaId))
  | some entry =>
      ({ cache with entries := cache.entries.insert mediaId { entry with pinned } }, .ok ())

def minByRecency (entries : List MediaCacheEntry) : Option MediaCacheEntry :=
  entries.foldl (fun best entry ↦
    match best with
    | none => some entry
    | some best => if entry.recency < best.recency then some entry else some best) none

def candidate (cache : MediaCache) (protectedMediaId : Option String) : Option MediaCacheEntry :=
  minByRecency (cache.entries.values.filter fun entry ↦
    !entry.pinned && decide (protectedMediaId ≠ some entry.media.id))

/-- The eviction loop. A round removes an entry, so that there are never more
rounds than entries. -/
def evictRounds (protectedMediaId : Option String) :
    ℕ → MediaCache → MediaCache × Except MediaCacheError (List MediaCacheEntry)
  | 0, cache => (cache, .ok [])
  | rounds + 1, cache =>
      if cache.totalBytes ≤ cache.maxBytes then (cache, .ok [])
      else
        match cache.candidate protectedMediaId with
        | none => (cache, .error .pinnedEntriesExceedBudget)
        | some entry =>
            let removed := cache.entries[entry.media.id]?
            let (rest, result) := evictRounds protectedMediaId rounds (cache.remove entry.media.id)
            (rest, result.map (removed.toList ++ ·))

def evictToBudget (cache : MediaCache) (protectedMediaId : Option String) :
    MediaCache × Except MediaCacheError (List MediaCacheEntry) :=
  evictRounds protectedMediaId (cache.entries.size + 1) cache

def checkInsert (cache : MediaCache) (entry : MediaCacheEntry) : Except MediaCacheError Unit := do
  ensure (¬ Text.isBlank entry.media.id) .invalidMediaId
  ensure (¬ Text.isBlank entry.localPath) .invalidLocalPath
  ensure (¬ cache.maxBytes < entry.sizeBytes) (.entryTooLarge entry.sizeBytes cache.maxBytes)

def put (cache : MediaCache) (entry : MediaCacheEntry) : MediaCache :=
  { cache with entries := cache.entries.insert entry.media.id entry }

def restore (cache : MediaCache) (key : String) : Option MediaCacheEntry → MediaCache
  | some previous => { cache with entries := cache.entries.insert key previous }
  | none => cache.remove key

/-- The source takes the fields of the entry one by one. -/
def insert (cache : MediaCache) (entry : MediaCacheEntry) :
    MediaCache × Except MediaCacheError (List MediaCacheEntry) :=
  match cache.checkInsert entry with
  | .error error => (cache, .error error)
  | .ok () =>
      let key := entry.media.id
      let previous := cache.entries[key]?
      match (cache.put entry).evictToBudget (some key) with
      | (written, .ok evicted) => (written, .ok evicted)
      | (written, .error error) => (written.restore key previous, .error error)

/-! ## What an insertion promises -/

def bytes (entries : List MediaCacheEntry) : ℕ :=
  (entries.map fun entry ↦ entry.sizeBytes.toNat).sum

def storedBytes (cache : MediaCache) : ℕ :=
  bytes cache.entries.values

def others (cache : MediaCache) (key : String) : List MediaCacheEntry :=
  cache.entries.values.filter fun entry ↦ decide (entry.media.id ≠ key)

def lruOrder (cache : MediaCache) (key : String) : List MediaCacheEntry :=
  ((cache.others key).filter fun entry ↦ !entry.pinned).mergeSort
    fun a b ↦ decide (a.recency ≤ b.recency)

def pinnedBytes (cache : MediaCache) (key : String) : ℕ :=
  bytes ((cache.others key).filter fun entry ↦ entry.pinned)

/-- `cache'` has room for the new entry, at the price of the shortest prefix of
the eviction order that makes it. -/
structure MakesRoom (cache : MediaCache) (entry : MediaCacheEntry) (cache' : MediaCache)
    (evicted : List MediaCacheEntry) : Prop where
  maxBytes : cache'.maxBytes = cache.maxBytes
  bounded : cache'.storedBytes ≤ cache.maxBytes.toNat
  present : cache'.entries[entry.media.id]? = some entry
  evicted_prefix : evicted <+: cache.lruOrder entry.media.id
  shortest : ∀ shorter, shorter <+: cache.lruOrder entry.media.id →
    shorter.length < evicted.length → cache.maxBytes.toNat + bytes shorter <
      bytes (cache.others entry.media.id) + entry.sizeBytes.toNat
  rest : ∀ k, k ≠ entry.media.id → cache'.entries[k]? =
    if ∃ e ∈ evicted, e.media.id = k then none else cache.entries[k]?

def InsertMeets (cache : MediaCache) (entry : MediaCacheEntry) : Prop :=
  (∀ evicted, (cache.insert entry).2 = .ok evicted →
    MakesRoom cache entry (cache.insert entry).1 evicted) ∧
  ∀ error, (cache.insert entry).2 = .error error → (cache.insert entry).1 = cache

/-- The pinned entries leave room for the new one, or there is nothing to evict.
A budget of the largest value holds the sum of all sizes too. -/
def HasRoom (cache : MediaCache) (entry : MediaCacheEntry) : Prop :=
  (cache.pinnedBytes entry.media.id + entry.sizeBytes.toNat ≤ cache.maxBytes.toNat ∨
    cache.lruOrder entry.media.id = []) ∧
  (cache.maxBytes.toNat = 2 ^ 64 - 1 →
    bytes (cache.others entry.media.id) + entry.sizeBytes.toNat ≤ cache.maxBytes.toNat)

/-! ## Entries stored under their own identifiers -/

def Keyed (cache : MediaCache) : Prop :=
  ∀ (key : String) (entry : MediaCacheEntry),
    cache.entries[key]? = some entry → entry.media.id = key

variable {cache : MediaCache} {entry : MediaCacheEntry} {key : String}

theorem mem_values : entry ∈ cache.entries.values ↔ ∃ key : String, cache.entries[key]? = some entry :=
  BTreeMap.mem_values

theorem Keyed.get_of_mem (h : Keyed cache) (hmem : entry ∈ cache.entries.values) :
    cache.entries[entry.media.id]? = some entry := by
  obtain ⟨key, hkey⟩ := mem_values.mp hmem
  rwa [h key entry hkey]

theorem Keyed.nodup_values (h : Keyed cache) : cache.entries.values.Nodup := by
  rw [BTreeMap.values_eq]
  refine (BTreeMap.nodup_toList cache.entries).map_on ?_
  rintro ⟨k, e⟩ hk ⟨k', e'⟩ hk' rfl
  rw [ExtTreeMap.mem_toList_iff_getElem?_eq_some] at hk hk'
  rw [← h k e hk, ← h k' e hk']

theorem Keyed.put (h : Keyed cache) (entry : MediaCacheEntry) : Keyed (cache.put entry) := by
  intro key e he
  rw [MediaCache.put, BTreeMap.get_insert] at he
  split at he
  · cases he
    assumption
  · exact h key e he

theorem Keyed.remove (h : Keyed cache) (key : String) : Keyed (cache.remove key) := by
  intro k e he
  rw [MediaCache.remove, BTreeMap.get_erase] at he
  split at he
  · cases he
  · exact h k e he

theorem values_put_perm (h : Keyed cache) (entry : MediaCacheEntry) :
    (cache.put entry).entries.values.Perm (entry :: cache.others entry.media.id) := by
  have hnotMem : entry ∉ cache.others entry.media.id := by simp [others]
  refine (List.perm_ext_iff_of_nodup (h.put entry).nodup_values
    (List.nodup_cons.mpr ⟨hnotMem, h.nodup_values.filter _⟩)).mpr fun e ↦ ?_
  rw [mem_values, List.mem_cons, others, List.mem_filter, mem_values]
  constructor
  · rintro ⟨k, hk⟩
    rw [MediaCache.put, BTreeMap.get_insert] at hk
    split at hk
    · exact Or.inl (Option.some.inj hk).symm
    · refine Or.inr ⟨⟨k, hk⟩, ?_⟩
      rw [h k e hk]
      exact decide_eq_true (Ne.symm ‹¬ _›)
  · rintro (rfl | ⟨⟨k, hk⟩, hne⟩)
    · exact ⟨_, BTreeMap.get_insert_self ..⟩
    · rw [h k e hk, decide_eq_true_iff] at hne
      exact ⟨k, by rw [MediaCache.put, BTreeMap.get_insert_ne _ _ (Ne.symm hne), hk]⟩

theorem values_remove_perm (h : Keyed cache) (key : String) :
    (cache.remove key).entries.values.Perm (cache.others key) := by
  refine (List.perm_ext_iff_of_nodup (h.remove key).nodup_values
    (h.nodup_values.filter _)).mpr fun e ↦ ?_
  rw [mem_values, List.mem_filter, mem_values]
  constructor
  · rintro ⟨k, hk⟩
    rw [MediaCache.remove, BTreeMap.get_erase] at hk
    split at hk
    · cases hk
    · refine ⟨⟨k, hk⟩, ?_⟩
      rw [h k e hk]
      exact decide_eq_true (Ne.symm ‹¬ _›)
  · rintro ⟨⟨k, hk⟩, hne⟩
    rw [h k e hk, decide_eq_true_iff] at hne
    exact ⟨k, by rw [MediaCache.remove, BTreeMap.get_erase, if_neg (Ne.symm hne), hk]⟩

/-! ## Sizes -/

theorem bytes_perm {l l' : List MediaCacheEntry} (h : l.Perm l') : bytes l = bytes l' :=
  (h.map _).sum_eq

@[simp] theorem bytes_nil : bytes [] = 0 := rfl

@[simp] theorem bytes_cons (e : MediaCacheEntry) (l : List MediaCacheEntry) :
    bytes (e :: l) = e.sizeBytes.toNat + bytes l := by
  simp [bytes]

theorem bytes_filter_add (p : MediaCacheEntry → Bool) (l : List MediaCacheEntry) :
    bytes (l.filter p) + bytes (l.filter fun e ↦ !p e) = bytes l := by
  induction l with
  | nil => rfl
  | cons e l ih => cases hp : p e <;> simp [hp] <;> omega

theorem toNat_total (l : List MediaCacheEntry) (start : UInt64) :
    (l.foldl (fun total entry ↦ saturatingU64 total entry.sizeBytes.toNat) start).toNat =
      min (start.toNat + bytes l) (2 ^ 64 - 1) := by
  induction l generalizing start with
  | nil =>
    have hstart := start.toNat_lt
    simp only [List.foldl_nil, bytes_nil, add_zero]
    omega
  | cons e l ih =>
    rw [List.foldl_cons, ih, bytes_cons, saturatingU64]
    split
    · rw [UInt64.toNat_ofNat_of_lt' (by assumption)]
      omega
    · have hmax : (0xFFFFFFFFFFFFFFFF : UInt64).toNat = 2 ^ 64 - 1 := by decide
      rw [hmax]
      omega

theorem toNat_totalBytes (cache : MediaCache) :
    cache.totalBytes.toNat = min cache.storedBytes (2 ^ 64 - 1) := by
  rw [totalBytes, toNat_total, storedBytes]
  simp

theorem storedBytes_put (h : Keyed cache) (entry : MediaCacheEntry) :
    (cache.put entry).storedBytes =
      entry.sizeBytes.toNat + bytes (cache.others entry.media.id) := by
  rw [storedBytes, bytes_perm (values_put_perm h entry), bytes_cons]

theorem storedBytes_remove (h : Keyed cache) (hentry : cache.entries[key]? = some entry) :
    (cache.remove key).storedBytes + entry.sizeBytes.toNat = cache.storedBytes := by
  have hput : cache.put entry = cache := by
    rw [MediaCache.put, h key entry hentry, BTreeMap.insert_of_get hentry]
  have hstored := storedBytes_put h entry
  rw [hput, h key entry hentry, ← bytes_perm (values_remove_perm h key)] at hstored
  rw [hstored, storedBytes]
  omega

theorem bytes_others_le (cache : MediaCache) (key : String) :
    bytes (cache.others key) ≤ cache.storedBytes := by
  have h := bytes_filter_add (fun e ↦ decide (e.media.id ≠ key)) cache.entries.values
  rw [others, storedBytes]
  omega

theorem bytes_others (cache : MediaCache) (key : String) :
    bytes (cache.others key) = cache.pinnedBytes key + bytes (cache.lruOrder key) := by
  rw [pinnedBytes, lruOrder, bytes_perm (List.mergeSort_perm _ _), bytes_filter_add]

/-! ## The eviction order -/

theorem mem_lruOrder : entry ∈ cache.lruOrder key ↔
    (entry ∈ cache.entries.values ∧ entry.media.id ≠ key) ∧ entry.pinned = false := by
  rw [lruOrder, (List.mergeSort_perm _ _).mem_iff, List.mem_filter, others, List.mem_filter]
  simp

theorem minByRecency_eq_argmin (l : List MediaCacheEntry) :
    minByRecency l = l.argmin MediaCacheEntry.recency := by
  rw [minByRecency, List.argmin]
  congr 1
  funext best entry
  cases best with
  | none => rfl
  | some best =>
    simp only [List.argAux]

theorem candidate_eq (cache : MediaCache) (key : String) :
    cache.candidate (some key) = ((cache.others key).filter fun e ↦ !e.pinned).argmin
      MediaCacheEntry.recency := by
  rw [candidate, minByRecency_eq_argmin, others, List.filter_filter]
  congr 2
  funext e
  simp [eq_comm]

theorem lruOrder_of_no_candidate (h : cache.candidate (some key) = none) :
    cache.lruOrder key = [] := by
  rw [candidate_eq, List.argmin_eq_none] at h
  rw [lruOrder, h, List.mergeSort_nil]

theorem pairwise_mergeSort_recency (l : List MediaCacheEntry) :
    (l.mergeSort fun a b ↦ decide (a.recency ≤ b.recency)).Pairwise
      fun a b ↦ a.recency ≤ b.recency := by
  have h := @List.pairwise_mergeSort _
    (fun (a b : MediaCacheEntry) ↦ decide (a.recency ≤ b.recency))
    (fun a b c hab hbc ↦ decide_eq_true
      ((of_decide_eq_true hab).trans (of_decide_eq_true hbc)))
    (fun a b ↦ by simpa using le_total a.recency b.recency) l
  exact h.imp of_decide_eq_true

theorem Keyed.eq_of_recency (h : Keyed cache) {a b : MediaCacheEntry}
    (ha : a ∈ cache.entries.values) (hb : b ∈ cache.entries.values)
    (hab : a.recency = b.recency) : a = b := by
  have hid : a.media.id = b.media.id := congrArg (fun r ↦ (ofLex r).2) hab
  have hga := h.get_of_mem ha
  rw [hid, h.get_of_mem hb] at hga
  exact (Option.some.inj hga).symm

theorem Keyed.eq_of_perm (h : Keyed cache) {l l' : List MediaCacheEntry}
    (hmem : ∀ e ∈ l, e ∈ cache.entries.values) (hperm : l.Perm l')
    (hl : l.Pairwise fun a b ↦ a.recency ≤ b.recency)
    (hl' : l'.Pairwise fun a b ↦ a.recency ≤ b.recency) : l = l' := by
  refine hperm.eq_of_pairwise (fun a b ha hb hab hba ↦ ?_) hl hl'
  exact h.eq_of_recency (hmem a ha) (hmem b (hperm.mem_iff.mpr hb)) (hab.antisymm hba)

theorem lruOrder_of_candidate (h : Keyed cache) (hc : cache.candidate (some key) = some entry) :
    cache.lruOrder key = entry :: (cache.remove entry.media.id).lruOrder key := by
  rw [candidate_eq] at hc
  have hleast : ∀ e ∈ (cache.others key).filter (fun e ↦ !e.pinned),
      entry.recency ≤ e.recency := fun e he ↦ List.le_of_mem_argmin he hc
  have hmem : entry ∈ cache.lruOrder key :=
    (List.mergeSort_perm _ _).mem_iff.mpr (List.argmin_mem hc)
  have hsub : ∀ e, e ∈ (cache.remove entry.media.id).lruOrder key ↔
      e ∈ cache.lruOrder key ∧ e.media.id ≠ entry.media.id := by
    intro e
    rw [mem_lruOrder, mem_lruOrder, (values_remove_perm h _).mem_iff, others, List.mem_filter,
      decide_eq_true_iff]
    tauto
  have hnotMem : entry ∉ (cache.remove entry.media.id).lruOrder key := by
    rw [hsub]
    tauto
  have hnodup : (cache.lruOrder key).Nodup :=
    (List.mergeSort_perm _ _).nodup_iff.mpr ((h.nodup_values.filter _).filter _)
  have hnodup' : ((cache.remove entry.media.id).lruOrder key).Nodup :=
    (List.mergeSort_perm _ _).nodup_iff.mpr (((h.remove _).nodup_values.filter _).filter _)
  have hperm : (cache.lruOrder key).Perm
      (entry :: (cache.remove entry.media.id).lruOrder key) := by
    refine (List.perm_ext_iff_of_nodup hnodup (List.nodup_cons.mpr ⟨hnotMem, hnodup'⟩)).mpr
      fun e ↦ ?_
    rw [List.mem_cons, hsub]
    constructor
    · intro he
      by_cases hid : e.media.id = entry.media.id
      · have hentry := h.get_of_mem (mem_lruOrder.mp hmem).1.1
        have hstored := h.get_of_mem (mem_lruOrder.mp he).1.1
        rw [hid, hentry] at hstored
        exact Or.inl (Option.some.inj hstored).symm
      · exact Or.inr ⟨he, hid⟩
    · rintro (rfl | ⟨he, -⟩)
      · exact hmem
      · exact he
  refine h.eq_of_perm (fun e he ↦ (mem_lruOrder.mp he).1.1) hperm
    (pairwise_mergeSort_recency _) ?_
  refine List.pairwise_cons.mpr ⟨fun e he ↦ ?_, pairwise_mergeSort_recency _⟩
  exact hleast e ((List.mergeSort_perm _ _).mem_iff.mp ((hsub e).mp he).1)

/-! ## The eviction loop -/

structure Shed (cache cache' : MediaCache) (evicted : List MediaCacheEntry) : Prop where
  maxBytes : cache'.maxBytes = cache.maxBytes
  get : ∀ k : String, cache'.entries[k]? =
    if ∃ e ∈ evicted, e.media.id = k then none else cache.entries[k]?
  storedBytes : cache'.storedBytes + bytes evicted = cache.storedBytes

theorem Shed.refl (cache : MediaCache) : Shed cache cache [] :=
  ⟨rfl, by simp, by simp⟩

theorem Shed.cons {cache' : MediaCache} {evicted : List MediaCacheEntry} (h : Keyed cache)
    (hentry : cache.entries[entry.media.id]? = some entry)
    (hshed : Shed (cache.remove entry.media.id) cache' evicted) :
    Shed cache cache' (entry :: evicted) where
  maxBytes := hshed.maxBytes
  get := by
    intro k
    rw [hshed.get, MediaCache.remove, BTreeMap.get_erase]
    by_cases hk : entry.media.id = k <;> simp [hk]
  storedBytes := by
    have hremove := storedBytes_remove h hentry
    have hrest := hshed.storedBytes
    rw [bytes_cons]
    omega

def Shortest (budget stored : ℕ) (order evicted : List MediaCacheEntry) : Prop :=
  evicted <+: order ∧ ∀ shorter, shorter <+: order → shorter.length < evicted.length →
    budget + bytes shorter < stored

theorem Shortest.cons {budget stored rest : ℕ} {order evicted : List MediaCacheEntry}
    (h : Shortest budget rest order evicted) (hstored : rest + entry.sizeBytes.toNat = stored)
    (hover : budget < stored) : Shortest budget stored (entry :: order) (entry :: evicted) := by
  refine ⟨List.cons_prefix_cons.mpr ⟨rfl, h.1⟩, fun shorter hprefix hlength ↦ ?_⟩
  cases shorter with
  | nil => simpa using hover
  | cons e shorter =>
    obtain ⟨rfl, htail⟩ := List.cons_prefix_cons.mp hprefix
    have hrest := h.2 shorter htail (by simpa using hlength)
    rw [bytes_cons]
    omega

theorem evictRounds_spec {rounds : ℕ} (h : Keyed cache) (hbudget : cache.maxBytes.toNat < 2 ^ 64 - 1)
    (hrounds : (cache.lruOrder key).length < rounds) :
    ∃ evicted, Shed cache (evictRounds (some key) rounds cache).1 evicted ∧
      Shortest cache.maxBytes.toNat cache.storedBytes (cache.lruOrder key) evicted ∧
      (((evictRounds (some key) rounds cache).2 = .ok evicted ∧
          (evictRounds (some key) rounds cache).1.storedBytes ≤ cache.maxBytes.toNat) ∨
        ((evictRounds (some key) rounds cache).2 = .error .pinnedEntriesExceedBudget ∧
          evicted = cache.lruOrder key ∧
          cache.maxBytes.toNat < (evictRounds (some key) rounds cache).1.storedBytes)) := by
  induction rounds generalizing cache with
  | zero => omega
  | succ rounds ih =>
    have htotal := toNat_totalBytes cache
    rw [evictRounds]
    by_cases hfits : cache.totalBytes ≤ cache.maxBytes
    · rw [if_pos hfits]
      rw [UInt64.le_iff_toNat_le, htotal] at hfits
      have hroom : cache.storedBytes ≤ cache.maxBytes.toNat := by omega
      exact ⟨[], Shed.refl cache, ⟨List.nil_prefix, by simp⟩, Or.inl ⟨rfl, hroom⟩⟩
    · rw [if_neg hfits]
      rw [UInt64.le_iff_toNat_le, htotal] at hfits
      have hover : cache.maxBytes.toNat < cache.storedBytes := by omega
      cases hcandidate : cache.candidate (some key) with
      | none =>
        rw [lruOrder_of_no_candidate hcandidate]
        exact ⟨[], Shed.refl cache, ⟨List.nil_prefix, by simp⟩, Or.inr ⟨rfl, rfl, hover⟩⟩
      | some entry =>
        have horder := lruOrder_of_candidate h hcandidate
        have hmem : entry ∈ cache.lruOrder key := horder ▸ List.mem_cons_self
        have hentry := h.get_of_mem (mem_lruOrder.mp hmem).1.1
        obtain ⟨evicted, hshed, hshortest, hend⟩ := @ih (cache.remove entry.media.id)
          (h.remove _) hbudget (by rw [horder] at hrounds; simpa using hrounds)
        simp only [hentry, horder]
        refine ⟨entry :: evicted, hshed.cons h hentry,
          hshortest.cons (storedBytes_remove h hentry) hover, ?_⟩
        rcases hend with ⟨hok, hroom⟩ | ⟨herror, hall, hfull⟩
        · exact Or.inl ⟨by rw [hok]; rfl, hroom⟩
        · exact Or.inr ⟨by rw [herror]; rfl, by rw [hall], hfull⟩

theorem length_lruOrder_le (cache : MediaCache) (key : String) :
    (cache.lruOrder key).length ≤ cache.entries.size := by
  rw [lruOrder, (List.mergeSort_perm _ _).length_eq]
  have hvalues : cache.entries.values.length = cache.entries.size := by
    rw [BTreeMap.values_eq, List.length_map, ExtTreeMap.length_toList]
  rw [← hvalues]
  exact ((List.length_filter_le _ _).trans (List.length_filter_le _ _))

theorem evictToBudget_of_unbounded (h : cache.maxBytes.toNat = 2 ^ 64 - 1) :
    cache.evictToBudget (some key) = (cache, .ok []) := by
  have htotal := toNat_totalBytes cache
  rw [evictToBudget, evictRounds, if_pos]
  rw [UInt64.le_iff_toNat_le]
  omega

/-! ## Insertion -/

theorem lruOrder_put (h : Keyed cache) (entry : MediaCacheEntry) :
    (cache.put entry).lruOrder entry.media.id = cache.lruOrder entry.media.id := by
  have hothers : ((cache.put entry).others entry.media.id).Perm
      (cache.others entry.media.id) := by
    have hperm := (values_put_perm h entry).filter fun e ↦ decide (e.media.id ≠ entry.media.id)
    refine hperm.trans ?_
    rw [List.filter_cons_of_neg (by simp), others, List.filter_filter]
    simp
  have hperm : ((cache.put entry).lruOrder entry.media.id).Perm
      (cache.lruOrder entry.media.id) :=
    (List.mergeSort_perm _ _).trans ((hothers.filter _).trans (List.mergeSort_perm _ _).symm)
  exact (h.put entry).eq_of_perm (fun e he ↦ (mem_lruOrder.mp he).1.1) hperm
    (pairwise_mergeSort_recency _) (pairwise_mergeSort_recency _)

theorem makesRoom_of_shed {cache' : MediaCache} {evicted : List MediaCacheEntry}
    (h : Keyed cache) (hshed : Shed (cache.put entry) cache' evicted)
    (hshortest : Shortest cache.maxBytes.toNat (cache.put entry).storedBytes
      (cache.lruOrder entry.media.id) evicted)
    (hbounded : cache'.storedBytes ≤ cache.maxBytes.toNat) :
    MakesRoom cache entry cache' evicted where
  maxBytes := hshed.maxBytes
  bounded := hbounded
  present := by
    rw [hshed.get, if_neg, MediaCache.put, BTreeMap.get_insert_self]
    rintro ⟨e, he, hid⟩
    exact (mem_lruOrder.mp (hshortest.1.subset he)).1.2 hid
  evicted_prefix := hshortest.1
  shortest := by
    intro shorter hprefix hlength
    have hover := hshortest.2 shorter hprefix hlength
    rw [storedBytes_put h] at hover
    omega
  rest := by
    intro k hk
    rw [hshed.get, MediaCache.put, BTreeMap.get_insert_ne _ _ (Ne.symm hk)]

theorem restore_eq_iff {cache' : MediaCache} {evicted : List MediaCacheEntry} (h : Keyed cache)
    (hshed : Shed (cache.put entry) cache' evicted)
    (hevicted : evicted = cache.lruOrder entry.media.id) :
    cache'.restore entry.media.id cache.entries[entry.media.id]? = cache ↔ evicted = [] := by
  have hget : ∀ k : String, (cache'.restore entry.media.id
      cache.entries[entry.media.id]?).entries[k]? = if entry.media.id = k then cache.entries[k]?
        else if ∃ e ∈ evicted, e.media.id = k then none else cache.entries[k]? := by
    intro k
    by_cases hk : entry.media.id = k
    · subst hk
      cases hprevious : cache.entries[entry.media.id]? <;>
        simp [restore, MediaCache.remove]
    · cases cache.entries[entry.media.id]? <;>
        simp only [restore, MediaCache.remove, BTreeMap.get_insert, BTreeMap.get_erase, hk,
          if_false, hshed.get, MediaCache.put]
  constructor
  · intro heq
    cases hlist : evicted with
    | nil => rfl
    | cons e rest =>
      have hmem : e ∈ cache.lruOrder entry.media.id := by
        rw [← hevicted, hlist]
        exact List.mem_cons_self
      obtain ⟨⟨hvalue, hne⟩, -⟩ := mem_lruOrder.mp hmem
      have hlost := hget e.media.id
      rw [heq, h.get_of_mem hvalue, if_neg (Ne.symm hne), if_pos ⟨e, by simp [hlist], rfl⟩]
        at hlost
      cases hlost
  · intro hnil
    have hentries : (cache'.restore entry.media.id cache.entries[entry.media.id]?).entries =
        cache.entries := by
      apply ExtTreeMap.ext_getElem?
      intro k
      rw [hget k]
      simp [hnil]
    have hmax : (cache'.restore entry.media.id cache.entries[entry.media.id]?).maxBytes =
        cache.maxBytes := by
      cases cache.entries[entry.media.id]? <;> exact hshed.maxBytes
    rcases hr : cache'.restore entry.media.id cache.entries[entry.media.id]? with ⟨m, es⟩
    rw [hr] at hentries hmax
    subst hentries hmax
    rfl

theorem insertMeets_iff (h : Keyed cache) (entry : MediaCacheEntry) :
    InsertMeets cache entry ↔
      (cache.checkInsert entry = .ok () → cache.HasRoom entry) := by
  cases hcheck : cache.checkInsert entry with
  | error error => simp [InsertMeets, insert, hcheck]
  | ok _ =>
    simp only [forall_const]
    have hput := storedBytes_put h entry
    have hothers := bytes_others cache entry.media.id
    rcases (Nat.le_sub_one_of_lt cache.maxBytes.toNat_lt).eq_or_lt with hmax | hmax
    · -- no total exceeds the largest budget: nothing is ever evicted
      have hinsert : cache.insert entry = (cache.put entry, .ok []) := by
        simp only [insert, hcheck, @evictToBudget_of_unbounded (cache.put entry) _ hmax]
      rw [InsertMeets, hinsert, HasRoom]
      constructor
      · rintro ⟨hok, -⟩
        have hbounded : (cache.put entry).storedBytes ≤ _ := (hok [] rfl).bounded
        exact ⟨Or.inl (by omega), fun _ ↦ by omega⟩
      · rintro ⟨-, hsum⟩
        refine ⟨?_, by rintro error ⟨⟩⟩
        rintro evicted ⟨⟩
        have hbounded : (cache.put entry).storedBytes ≤ cache.maxBytes.toNat := by
          have := hsum hmax
          omega
        exact makesRoom_of_shed h (Shed.refl _) ⟨List.nil_prefix, by simp⟩ hbounded
    · have hlength := length_lruOrder_le (cache.put entry) entry.media.id
      obtain ⟨evicted, hshed, hshortest, hend⟩ := @evictRounds_spec _ entry.media.id
        ((cache.put entry).entries.size + 1) (h.put entry) hmax (Nat.lt_succ_of_le hlength)
      rw [lruOrder_put h] at hshortest hend
      have hshedBytes := hshed.storedBytes
      have hresult : (cache.put entry).evictToBudget (some entry.media.id) =
          evictRounds (some entry.media.id) ((cache.put entry).entries.size + 1)
            (cache.put entry) := rfl
      generalize evictRounds (some entry.media.id) ((cache.put entry).entries.size + 1)
        (cache.put entry) = loop at hresult hshed hend hshedBytes
      obtain ⟨written, result⟩ := loop
      have hputMax : (cache.put entry).maxBytes = cache.maxBytes := rfl
      rcases hend with ⟨hok, hroom⟩ | ⟨herror, hall, hfull⟩
      · subst hok
        have hinsert : cache.insert entry = (written, .ok evicted) := by
          simp only [insert, hcheck, hresult]
        have hle : bytes evicted ≤ bytes (cache.lruOrder entry.media.id) := by
          obtain ⟨rest, hrest⟩ := hshortest.1
          rw [← hrest]
          simp [bytes]
        simp only [hputMax] at hroom hshedBytes
        rw [InsertMeets, hinsert, HasRoom]
        refine iff_of_true ⟨?_, by rintro error ⟨⟩⟩ ⟨Or.inl (by omega), by omega⟩
        rintro evicted' ⟨⟩
        exact makesRoom_of_shed h hshed hshortest hroom
      · subst herror
        have hinsert : cache.insert entry = (written.restore entry.media.id
            cache.entries[entry.media.id]?, .error .pinnedEntriesExceedBudget) := by
          simp only [insert, hcheck, hresult]
        simp only [hputMax] at hfull hshedBytes
        have hrestore := restore_eq_iff h hshed hall
        rw [hall] at hshedBytes hrestore
        rw [InsertMeets, hinsert, HasRoom]
        constructor
        · rintro ⟨-, herror⟩
          exact ⟨Or.inr (hrestore.mp (herror _ rfl)), by omega⟩
        · rintro ⟨hroom | hnil, -⟩
          · omega
          · exact ⟨by rintro evicted' ⟨⟩, fun _ _ ↦ hrestore.mpr hnil⟩

/-! ## Runs -/

inductive Call where
  | get (mediaId : String) (nowMs : Int64)
  | insert (entry : MediaCacheEntry)
  | remove (mediaId : String)
  | setPinned (mediaId : String) (pinned : Bool)

def call (cache : MediaCache) : Call → MediaCache
  | .get mediaId nowMs => cache.get mediaId nowMs
  | .insert entry => (cache.insert entry).1
  | .remove mediaId => cache.remove mediaId
  | .setPinned mediaId pinned => (cache.setPinned mediaId pinned).1

/-- Every call leaves a total that is the sum of the sizes, and an insertion
keeps its promise. -/
def CallMeets (cache : MediaCache) (c : Call) : Prop :=
  (cache.call c).totalBytes.toNat = (cache.call c).storedBytes ∧
    match c with
    | .insert entry => InsertMeets cache entry
    | _ => True

def CallHasRoom (cache : MediaCache) : Call → Prop
  | .insert entry => cache.checkInsert entry = .ok () → cache.HasRoom entry
  | _ => True

structure Good (cache : MediaCache) : Prop where
  keyed : Keyed cache
  bounded : cache.storedBytes ≤ cache.maxBytes.toNat

theorem Good.total (h : Good cache) : cache.totalBytes.toNat = cache.storedBytes := by
  have hbounded := h.bounded
  have hmax := cache.maxBytes.toNat_lt
  rw [toNat_totalBytes]
  omega

theorem Good.replace (h : Good cache) {entry' : MediaCacheEntry}
    (hentry : cache.entries[key]? = some entry) (hid : entry'.media.id = entry.media.id)
    (hsize : entry'.sizeBytes = entry.sizeBytes) :
    Good { cache with entries := cache.entries.insert key entry' } := by
  have hkey := h.keyed key entry hentry
  subst hkey
  have hput : { cache with entries := cache.entries.insert entry.media.id entry' } =
      cache.put entry' := by rw [MediaCache.put, hid]
  rw [hput]
  refine ⟨h.keyed.put entry', ?_⟩
  have hbounded := h.bounded
  have hremove := storedBytes_remove h.keyed hentry
  rw [MediaCache.storedBytes, bytes_perm (values_remove_perm h.keyed _)] at hremove
  rw [storedBytes_put h.keyed, hid, hsize]
  change _ ≤ cache.maxBytes.toNat
  omega

theorem Good.get (h : Good cache) (mediaId : String) (nowMs : Int64) :
    Good (cache.get mediaId nowMs) := by
  rw [MediaCache.get, BTreeMap.update]
  cases hentry : cache.entries[mediaId]? with
  | none => exact h
  | some entry => exact h.replace hentry rfl rfl

theorem Good.setPinned (h : Good cache) (mediaId : String) (pinned : Bool) :
    Good (cache.setPinned mediaId pinned).1 := by
  rw [MediaCache.setPinned]
  cases hentry : cache.entries[mediaId]? with
  | none => exact h
  | some entry => exact h.replace hentry rfl rfl

theorem Good.remove (h : Good cache) (key : String) : Good (cache.remove key) := by
  refine ⟨h.keyed.remove key, ?_⟩
  rw [storedBytes, bytes_perm (values_remove_perm h.keyed _)]
  exact (bytes_others_le cache key).trans h.bounded

theorem Good.insert (h : Good cache) (hmeets : InsertMeets cache entry) :
    Good (cache.insert entry).1 := by
  cases hresult : (cache.insert entry).2 with
  | error error =>
    rw [hmeets.2 error hresult]
    exact h
  | ok evicted =>
    have hroom := hmeets.1 evicted hresult
    refine ⟨fun k e he ↦ ?_, hroom.maxBytes ▸ hroom.bounded⟩
    by_cases hk : k = entry.media.id
    · subst hk
      rw [hroom.present] at he
      rw [← Option.some.inj he]
    · rw [hroom.rest k hk] at he
      split at he
      · cases he
      · exact h.keyed k e he

theorem callMeets_iff (h : Good cache) (c : Call) :
    CallMeets cache c ↔ cache.CallHasRoom c := by
  cases c with
  | insert entry =>
    rw [CallHasRoom, ← insertMeets_iff h.keyed entry]
    exact ⟨And.right, fun hmeets ↦ ⟨(h.insert hmeets).total, hmeets⟩⟩
  | get mediaId nowMs =>
    refine iff_of_true ⟨Good.total ?_, trivial⟩ trivial
    exact h.get mediaId nowMs
  | remove mediaId => exact iff_of_true ⟨(h.remove mediaId).total, trivial⟩ trivial
  | setPinned mediaId pinned =>
    refine iff_of_true ⟨Good.total ?_, trivial⟩ trivial
    exact h.setPinned mediaId pinned

theorem Good.call (h : Good cache) {c : Call} (hmeets : CallMeets cache c) :
    Good (cache.call c) := by
  cases c with
  | insert entry => exact h.insert hmeets.2
  | get mediaId nowMs => exact h.get mediaId nowMs
  | remove mediaId => exact h.remove mediaId
  | setPinned mediaId pinned => exact h.setPinned mediaId pinned

theorem good_of_new {maxBytes : UInt64} (h : new maxBytes = .ok cache) : Good cache := by
  simp only [new, bind_eq_ok, ensure_eq_ok] at h
  obtain ⟨_, -, hcache⟩ := h
  cases hcache
  refine ⟨fun k e he ↦ ?_, ?_⟩
  · rw [ExtTreeMap.getElem?_empty] at he
    cases he
  · have hvalues : (∅ : BTreeMap String MediaCacheEntry).values = [] := by
      rw [BTreeMap.values_eq, ExtTreeMap.toList_eq_nil_iff.mpr rfl]
      rfl
    rw [storedBytes, hvalues]
    exact Nat.zero_le _

/-- All calls on a new cache keep their promises exactly when there is room for
everything they insert. -/
theorem inserts_kept_iff {maxBytes : UInt64} (h : new maxBytes = .ok cache) (calls : List Call) :
    Runs.Along call CallMeets cache calls ↔ Runs.Along call CallHasRoom cache calls := by
  refine Runs.along_iff_along (A := fun _ _ ↦ True) (G := Good)
    (fun cache c hgood _ ↦ callMeets_iff hgood c)
    (fun cache c hgood _ hroom ↦ hgood.call ((callMeets_iff hgood c).mpr hroom)) (good_of_new h) ?_
  exact Runs.along_of_forall_mem call (fun _ _ _ ↦ trivial) cache

def sample (id : String) (sizeBytes : UInt64) (pinned : Bool) : MediaCacheEntry :=
  { media := { id }, localPath := "/cache", sizeBytes, lastAccessedMs := 1, pinned }

theorem inserts_kept_sample : ∃ cache, new 10 = .ok cache ∧
    (Runs.Along call CallMeets cache [.insert (sample "a" 3 false)] ↔
      Runs.Along call CallHasRoom cache [.insert (sample "a" 3 false)]) :=
  ⟨{ maxBytes := 10 }, rfl, inserts_kept_iff (show new 10 = .ok { maxBytes := 10 } from rfl) _⟩

/-- Six of ten bytes are pinned and three are not: an entry of six bytes is
refused, and the three bytes are gone. -/
theorem refused_insert_evicts : ∃ cache, new 10 = .ok cache ∧
    ¬ Runs.Along call CallMeets cache
      [.insert (sample "p" 6 true), .insert (sample "a" 3 false), .insert (sample "b" 6 false)] := by
  refine ⟨{ maxBytes := 10 }, rfl, ?_⟩
  rintro ⟨-, -, ⟨-, -, herror⟩, -⟩
  have hkept := herror .pinnedEntriesExceedBudget (by decide +kernel)
  revert hkept
  decide +kernel

end MediaCache

end Fabushi.Messaging
