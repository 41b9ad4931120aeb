import Fabushi.Library.OrderedMap

/-!
# Secondary indexes of a map

Some values of a map carry a second key. An index leads from these keys to the places
of the map; it is in step with the map when it leads to exactly the places that carry
the key. The rules say how the index follows a change of the map at one place.
-/

open Std

namespace SecondaryIndex

variable {κ α ρ : Type*} [Ord κ] [TransOrd κ] {key : α → Option ρ} {m m' : BTreeMap κ α}

def carried (key : α → Option ρ) (m : BTreeMap κ α) (k : κ) : Option ρ :=
  m[k]?.bind key

section Places

variable [LawfulEqOrd κ] [DecidableEq κ]

theorem carried_insert (k k' : κ) (v : α) :
    carried key (m.insert k v) k' = if k = k' then key v else carried key m k' := by
  rw [carried, BTreeMap.get_insert]
  split <;> rfl

theorem carried_erase (k k' : κ) :
    carried key (m.erase k) k' = if k = k' then none else carried key m k' := by
  rw [carried, BTreeMap.get_erase]
  split <;> rfl

theorem carried_update {f : α → α} (hf : ∀ v, key (f v) = key v) (k k' : κ) :
    carried key (BTreeMap.update m k f) k' = carried key m k' := by
  rw [carried, BTreeMap.get_update]
  split
  · rename_i hk
    subst hk
    rw [carried, Option.bind_map]
    exact congrArg _ (funext fun v ↦ hf v)
  · rfl

end Places

section Index

variable [Ord ρ] [TransOrd ρ]

/-- The index leads from a key to the place that carries it, and to no other. -/
def Indexes (key : α → Option ρ) (index : BTreeMap ρ κ) (m : BTreeMap κ α) : Prop :=
  ∀ r k, index[r]? = some k ↔ carried key m k = some r

theorem indexes_empty : Indexes key (∅ : BTreeMap ρ κ) (∅ : BTreeMap κ α) := by
  intro r k
  simp [carried]

variable {index : BTreeMap ρ κ}

theorem Indexes.keep (h : Indexes key index m) (hsame : ∀ k, carried key m' k = carried key m k) :
    Indexes key index m' := by
  intro r k
  rw [h r k, hsame]

variable [LawfulEqOrd ρ] [DecidableEq κ] [DecidableEq ρ]

theorem Indexes.release {k : κ} {r : ρ} (h : Indexes key index m)
    (hold : carried key m k = some r)
    (hnew : ∀ k', carried key m' k' = if k = k' then none else carried key m k') :
    Indexes key (index.erase r) m' := by
  intro r' k'
  rw [BTreeMap.get_erase, hnew]
  have hk := (h r k).mpr hold
  by_cases hr : r = r'
  · subst hr
    rw [if_pos rfl]
    constructor
    · intro hnone
      cases hnone
    · intro hcarried
      split at hcarried
      · cases hcarried
      · rename_i hne
        have hk' := (h r k').mpr hcarried
        exact absurd (Option.some.inj (hk.symm.trans hk')) hne
  · rw [if_neg hr, h r' k']
    split
    · rename_i heq
      subst heq
      rw [hold]
      simpa using hr
    · rfl

theorem Indexes.enter {k : κ} {r : ρ} (h : Indexes key index m) (hfresh : index[r]? = none)
    (hfree : carried key m k = none)
    (hnew : ∀ k', carried key m' k' = if k = k' then some r else carried key m k') :
    Indexes key (index.insert r k) m' := by
  intro r' k'
  rw [BTreeMap.get_insert, hnew]
  by_cases hr : r = r'
  · subst hr
    rw [if_pos rfl]
    by_cases hk : k = k'
    · simp [hk]
    · rw [if_neg hk, ← h r k', hfresh]
      simp [hk]
  · rw [if_neg hr, h r' k']
    by_cases hk : k = k'
    · subst hk
      rw [if_pos rfl, hfree]
      simp [hr]
    · rw [if_neg hk]

end Index

end SecondaryIndex
