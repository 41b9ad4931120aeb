import Mathlib

/-!
# Finite ordered maps

`BTreeMap` is the extensional search-tree map of the standard library: two maps
with the same lookups are equal, and iteration is in key order. The lemmas
below restate lookup after an update for lawfully ordered keys, and develop
sums over the entries of a map.
-/

open Std

abbrev BTreeMap (κ : Type*) (α : Type*) [Ord κ] := ExtTreeMap κ α compare

abbrev BTreeSet (κ : Type*) [Ord κ] := ExtTreeSet κ compare

namespace BTreeMap

variable {κ α : Type*} [Ord κ] [TransOrd κ]

theorem get_eq_none_iff {m : BTreeMap κ α} {k : κ} : m[k]? = none ↔ k ∉ m := by
  rw [ExtTreeMap.mem_iff_isSome_getElem?]
  simp

theorem size_insert_of_none {m : BTreeMap κ α} {k : κ} (h : m[k]? = none) (v : α) :
    (m.insert k v).size = m.size + 1 := by
  have hk : k ∉ m := get_eq_none_iff.mp h
  rw [ExtTreeMap.size_insert, if_neg (by simpa using hk)]

theorem size_insert_of_some {m : BTreeMap κ α} {k : κ} {u : α} (h : m[k]? = some u) (v : α) :
    (m.insert k v).size = m.size := by
  have hk : k ∈ m := by
    rw [ExtTreeMap.mem_iff_isSome_getElem?, h]
    simp
  rw [ExtTreeMap.size_insert, if_pos (by simpa using hk)]

def update (m : BTreeMap κ α) (k : κ) (f : α → α) : BTreeMap κ α :=
  match m[k]? with
  | some v => m.insert k (f v)
  | none => m

def upsert (m : BTreeMap κ α) (k : κ) (d : α) (f : α → α) : BTreeMap κ α :=
  m.insert k (f (m[k]?.getD d))

/-- The sum of `f` over all entries. -/
def sum {M : Type*} [AddCommMonoid M] (m : BTreeMap κ α) (f : κ → α → M) : M :=
  (m.toList.map fun p ↦ f p.1 p.2).sum

@[simp] theorem sum_empty {M : Type*} [AddCommMonoid M] (f : κ → α → M) :
    sum (∅ : BTreeMap κ α) f = 0 := by
  have : (∅ : BTreeMap κ α).toList = [] := ExtTreeMap.toList_eq_nil_iff.mpr rfl
  simp [sum, this]

theorem values_eq (m : BTreeMap κ α) : m.values = m.toList.map Prod.snd := by
  obtain ⟨m⟩ := m
  induction m using ExtDTreeMap.inductionOn with
  | _ m =>
      change DTreeMap.Internal.Impl.values m.inner =
        (DTreeMap.Internal.Impl.Const.toList m.inner).map Prod.snd
      rw [DTreeMap.Internal.Impl.values_eq_map_snd,
        DTreeMap.Internal.Impl.Const.toList_eq_toListModel_map]
      simp

variable [LawfulEqOrd κ]

theorem mem_values {m : BTreeMap κ α} {v : α} : v ∈ m.values ↔ ∃ k : κ, m[k]? = some v := by
  rw [values_eq, List.mem_map]
  constructor
  · rintro ⟨⟨k, v'⟩, hmem, rfl⟩
    exact ⟨k, ExtTreeMap.mem_toList_iff_getElem?_eq_some.mp hmem⟩
  · rintro ⟨k, hk⟩
    exact ⟨(k, v), ExtTreeMap.mem_toList_iff_getElem?_eq_some.mpr hk, rfl⟩

theorem get_insert [DecidableEq κ] (m : BTreeMap κ α) (k a : κ) (v : α) :
    (m.insert k v)[a]? = if k = a then some v else m[a]? := by
  simp [ExtTreeMap.getElem?_insert]

theorem get_insert_self (m : BTreeMap κ α) (k : κ) (v : α) :
    (m.insert k v)[k]? = some v := by
  simp

theorem get_insert_ne (m : BTreeMap κ α) {k a : κ} (v : α) (h : k ≠ a) :
    (m.insert k v)[a]? = m[a]? := by
  simp [ExtTreeMap.getElem?_insert, h]

/-- What is found after an insertion is the inserted value or was there before. -/
theorem get_insert_cases {m : BTreeMap κ α} {k a : κ} {u v : α} (h : (m.insert k v)[a]? = some u) :
    (a = k ∧ u = v) ∨ m[a]? = some u := by
  classical
  rw [get_insert] at h
  split at h
  · rename_i hka
    exact Or.inl ⟨hka.symm, (Option.some.inj h).symm⟩
  · exact Or.inr h

theorem insert_of_get {m : BTreeMap κ α} {k : κ} {v : α} (h : m[k]? = some v) :
    m.insert k v = m := by
  classical
  apply ExtTreeMap.ext_getElem?
  intro a
  rw [get_insert]
  split
  · rename_i hka
    rw [← hka, h]
  · rfl

theorem get_erase [DecidableEq κ] (m : BTreeMap κ α) (k a : κ) :
    (m.erase k)[a]? = if k = a then none else m[a]? := by
  simp [ExtTreeMap.getElem?_erase]

theorem get_update [DecidableEq κ] (m : BTreeMap κ α) (k a : κ) (f : α → α) :
    (update m k f)[a]? = if k = a then m[k]?.map f else m[a]? := by
  unfold update
  split
  · rename_i v hv
    rw [get_insert, hv]
    rfl
  · rename_i hnone
    split
    · rename_i hka
      rw [← hka, hnone]
      rfl
    · rfl

theorem get_upsert [DecidableEq κ] (m : BTreeMap κ α) (k a : κ) (d : α) (f : α → α) :
    (upsert m k d f)[a]? = if k = a then some (f (m[k]?.getD d)) else m[a]? :=
  get_insert m k a _

theorem nodup_toList (m : BTreeMap κ α) : m.toList.Nodup := by
  refine (ExtTreeMap.distinct_keys_toList (t := m)).imp ?_
  rintro a b hab rfl
  exact hab ReflCmp.compare_self

theorem toList_insert_perm_of_none {m : BTreeMap κ α} {k : κ} (h : m[k]? = none) (v : α) :
    (m.insert k v).toList.Perm ((k, v) :: m.toList) := by
  classical
  have hnotMem : (k, v) ∉ m.toList := by
    rw [ExtTreeMap.mem_toList_iff_getElem?_eq_some, h]
    simp
  refine (List.perm_ext_iff_of_nodup (nodup_toList _)
    (List.nodup_cons.mpr ⟨hnotMem, nodup_toList m⟩)).mpr ?_
  rintro ⟨a, b⟩
  rw [ExtTreeMap.mem_toList_iff_getElem?_eq_some, get_insert, List.mem_cons,
    ExtTreeMap.mem_toList_iff_getElem?_eq_some]
  by_cases hka : k = a
  · subst hka
    simp [h, eq_comm]
  · simp [hka, Ne.symm hka]

/-! ## Sums over the entries -/

section Sum

variable {M : Type*} [AddCommMonoid M]

theorem sum_insert_of_none {m : BTreeMap κ α} {k : κ} (h : m[k]? = none) (v : α)
    (f : κ → α → M) : sum (m.insert k v) f = f k v + sum m f := by
  rw [sum, ((toList_insert_perm_of_none h v).map _).sum_eq]
  simp [sum]

theorem sum_insert_of_some {m : BTreeMap κ α} {k : κ} {u : α} (h : m[k]? = some u) (v : α)
    (f : κ → α → M) : sum (m.insert k v) f + f k u = sum m f + f k v := by
  classical
  have hnone : (m.erase k)[k]? = none := by simp
  have hold : m = (m.erase k).insert k u := by
    apply ExtTreeMap.ext_getElem?
    intro a
    rw [get_insert, get_erase]
    by_cases hka : k = a
    · subst hka
      simp [h]
    · simp [hka]
  have hnew : m.insert k v = (m.erase k).insert k v := by
    apply ExtTreeMap.ext_getElem?
    intro a
    rw [get_insert, get_insert, get_erase]
    by_cases hka : k = a <;> simp [hka]
  have holdSum : sum m f = f k u + sum (m.erase k) f := by
    conv_lhs => rw [hold]
    exact sum_insert_of_none hnone u f
  rw [hnew, sum_insert_of_none hnone v f, holdSum, add_right_comm, add_comm (f k u), add_assoc,
    add_comm (f k v), add_assoc]
  ac_rfl

theorem sum_eq_finset_sum [DecidableEq κ] (m : BTreeMap κ α) (f : κ → α → M) :
    sum m f = ∑ k ∈ m.keys.toFinset, (m[k]?.map (f k)).getD 0 := by
  have hnodup : m.keys.Nodup := by
    refine (ExtTreeMap.distinct_keys (t := m)).imp ?_
    rintro a b hab rfl
    exact hab ReflCmp.compare_self
  rw [List.sum_toFinset _ hnodup, sum, ← ExtTreeMap.map_fst_toList_eq_keys, List.map_map]
  congr 1
  apply List.map_congr_left
  rintro ⟨k, v⟩ hmem
  simp [ExtTreeMap.mem_toList_iff_getElem?_eq_some.mp hmem]

theorem sum_congr {m : BTreeMap κ α} {f g : κ → α → M}
    (h : ∀ k v, m[k]? = some v → f k v = g k v) : sum m f = sum m g := by
  unfold sum
  congr 1
  apply List.map_congr_left
  rintro ⟨k, v⟩ hmem
  exact h k v (ExtTreeMap.mem_toList_iff_getElem?_eq_some.mp hmem)

end Sum

end BTreeMap

/-!
## The entries of a map as a list

A map is read off the list of its entries by the first entry of a key, and entering them all
into another map lets each of them replace what was there.
-/

namespace BTreeMap

open Std

variable {κ α : Type} [Ord κ] [TransOrd κ] [LawfulEqOrd κ] [DecidableEq κ]

omit [DecidableEq κ] in
theorem nodup_keys (m : BTreeMap κ α) : (m.toList.map Prod.fst).Nodup := by
  rw [ExtTreeMap.map_fst_toList_eq_keys]
  refine (ExtTreeMap.distinct_keys (t := m)).imp ?_
  rintro a b hab rfl
  exact hab ReflCmp.compare_self

omit [Ord κ] [TransOrd κ] [LawfulEqOrd κ] in
theorem find_entry {entries : List (κ × α)} (hkeys : (entries.map Prod.fst).Nodup) {k : κ}
    {v : α} (hmem : (k, v) ∈ entries) :
    (entries.find? fun entry ↦ entry.1 = k) = some (k, v) := by
  induction entries with
  | nil => cases hmem
  | cons entry entries ih =>
      rw [List.map_cons, List.nodup_cons] at hkeys
      rcases List.mem_cons.mp hmem with rfl | hmem
      · exact List.find?_cons_of_pos (by simp)
      · have hne : entry.1 ≠ k := fun heq ↦ hkeys.1 (heq ▸ List.mem_map_of_mem hmem)
        rw [List.find?_cons_of_neg (by simpa using hne)]
        exact ih hkeys.2 hmem

theorem find_toList (m : BTreeMap κ α) (k : κ) :
    ((m.toList.find? fun entry ↦ entry.1 = k).map Prod.snd) = m[k]? := by
  cases hget : m[k]? with
  | some v =>
      rw [find_entry m.nodup_keys (ExtTreeMap.mem_toList_iff_getElem?_eq_some.mpr hget)]
      rfl
  | none =>
      have hnone : (m.toList.find? fun entry ↦ entry.1 = k) = none := by
        rw [List.find?_eq_none]
        rintro ⟨k', v⟩ hmem heq
        rw [← of_decide_eq_true heq,
          ExtTreeMap.mem_toList_iff_getElem?_eq_some.mp hmem] at hget
        cases hget
      rw [hnone]
      rfl

theorem get_foldl_insert {entries : List (κ × α)} (hkeys : (entries.map Prod.fst).Nodup)
    (m : BTreeMap κ α) (k : κ) :
    (entries.foldl (fun m entry ↦ m.insert entry.1 entry.2) m)[k]? =
      ((entries.find? fun entry ↦ entry.1 = k).map Prod.snd).or m[k]? := by
  induction entries generalizing m with
  | nil => rfl
  | cons entry entries ih =>
      rw [List.map_cons, List.nodup_cons] at hkeys
      rw [List.foldl_cons, ih hkeys.2, BTreeMap.get_insert]
      by_cases hk : entry.1 = k
      · have hnone : (entries.find? fun entry ↦ entry.1 = k) = none := by
          rw [List.find?_eq_none]
          intro other hmem heq
          apply hkeys.1
          rw [hk, ← of_decide_eq_true heq]
          exact List.mem_map_of_mem hmem
        rw [hnone, if_pos hk, List.find?_cons_of_pos (by simpa using hk)]
        rfl
      · rw [if_neg hk, List.find?_cons_of_neg (by simpa using hk)]

theorem get_enter (m other : BTreeMap κ α) (k : κ) :
    (m.toList.foldl (fun m entry ↦ m.insert entry.1 entry.2) other)[k]? =
      m[k]?.or other[k]? := by
  rw [get_foldl_insert m.nodup_keys, find_toList]

end BTreeMap
