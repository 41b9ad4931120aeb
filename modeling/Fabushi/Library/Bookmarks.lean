import Mathlib

/-!
# What comes behind a bookmark

A reader keeps the key of the last entry that was read. In a list that is sorted
strictly, the entries with a greater position than the bookmarked one are the greater
entries, so the position can be forgotten.
-/

namespace Bookmarks

variable {α κ : Type} [DecidableEq κ]

def position (key : α → κ) (entries : List α) (bookmark : Option κ) : Option ℕ :=
  bookmark.bind fun k ↦ entries.findIdx? fun a ↦ key a = k

def entry (key : α → κ) (entries : List α) (bookmark : Option κ) : Option α :=
  bookmark.bind fun k ↦ entries.find? fun a ↦ key a = k

theorem entry_eq_getElem? (key : α → κ) (entries : List α) (bookmark : Option κ) :
    entry key entries bookmark =
      (position key entries bookmark).bind fun index ↦ entries[index]? := by
  cases bookmark with
  | none => rfl
  | some k =>
      simp only [entry, position, Option.bind_some]
      cases hfind : entries.findIdx? fun a ↦ key a = k with
      | none =>
          rw [List.findIdx?_eq_none_iff] at hfind
          rw [Option.bind_none, List.find?_eq_none]
          exact fun a ha ↦ by simp [hfind a ha]
      | some index =>
          obtain ⟨hindex, hkey, hbefore⟩ := List.findIdx?_eq_some_iff_getElem.mp hfind
          rw [Option.bind_some, List.getElem?_eq_getElem hindex]
          refine List.find?_eq_some_iff_getElem.mpr ⟨hkey, index, hindex, rfl, fun j hj ↦ ?_⟩
          simpa using hbefore j hj

variable {lt : α → α → Bool} {entries : List α}

theorem index_lt_iff (hirrefl : ∀ a, lt a a = false)
    (hasymm : ∀ a b, lt a b = true → lt b a = false)
    (hsorted : entries.Pairwise fun a b ↦ lt a b = true) {i j : ℕ} {a b : α}
    (ha : entries[i]? = some a) (hb : entries[j]? = some b) : i < j ↔ lt a b = true := by
  obtain ⟨hi, rfl⟩ := List.getElem?_eq_some_iff.mp ha
  obtain ⟨hj, rfl⟩ := List.getElem?_eq_some_iff.mp hb
  have hpairs := List.pairwise_iff_getElem.mp hsorted
  constructor
  · exact hpairs i j hi hj
  · intro hlt
    by_contra hge
    rcases Nat.lt_or_eq_of_le (not_lt.mp hge) with hgt | heq
    · have hback := hasymm _ _ (hpairs j i hj hi hgt)
      rw [hlt] at hback
      cases hback
    · subst heq
      rw [hirrefl] at hlt
      cases hlt

theorem length_filter_behind (hirrefl : ∀ a, lt a a = false)
    (hasymm : ∀ a b, lt a b = true → lt b a = false)
    (hsorted : entries.Pairwise fun a b ↦ lt a b = true) (key : α → κ) (bookmark : Option κ)
    (p : α → Bool) :
    (entries.zipIdx.filter fun (a, index) ↦
        ((position key entries bookmark).all fun readIndex ↦ readIndex < index) && p a).length =
      (entries.filter fun a ↦
        ((entry key entries bookmark).all fun read ↦ lt read a) && p a).length := by
  have hcongr : ∀ pair ∈ entries.zipIdx,
      (((position key entries bookmark).all fun readIndex ↦ readIndex < pair.2) && p pair.1) =
        (((entry key entries bookmark).all fun read ↦ lt read pair.1) && p pair.1) := by
    rintro ⟨a, index⟩ hpair
    have ha := List.mem_zipIdx_iff_getElem?.mp hpair
    rw [entry_eq_getElem?]
    cases hposition : position key entries bookmark with
    | none => rfl
    | some readIndex =>
        have hread : ∃ read, entries[readIndex]? = some read := by
          obtain ⟨k, -, hfind⟩ := Option.bind_eq_some_iff.mp hposition
          obtain ⟨hindex, -⟩ := List.findIdx?_eq_some_iff_getElem.mp hfind
          exact ⟨_, List.getElem?_eq_getElem hindex⟩
        obtain ⟨read, hread⟩ := hread
        have hiff := index_lt_iff hirrefl hasymm hsorted hread ha
        simp only [Option.bind_some, hread, Option.all_some]
        congr 1
        rw [Bool.eq_iff_iff, decide_eq_true_eq]
        exact hiff
  have hlist : ∀ q : α → Bool,
      entries.filter q = (entries.zipIdx.filter fun pair ↦ q pair.1).map Prod.fst := by
    intro q
    conv_lhs => rw [← List.zipIdx_map_fst 0 entries]
    rw [List.filter_map]
    rfl
  rw [hlist, List.length_map, List.filter_congr hcongr]

end Bookmarks
