import Mathlib

/-!
# A bounded set of the greatest elements

Elements are seen in any order and only the greatest of them are kept. What was seen and is
no longer kept is below everything kept, and it is missing only while the set is full; so
the kept set alone answers whether an element can have been seen before.
-/

namespace GreatestKept

variable {α : Type*} [LinearOrder α] {size : ℕ} {kept seen : Finset α} {x m : α}

/-- The kept elements are the greatest of the seen ones, and all of them while there is room. -/
structure Keeps (size : ℕ) (kept seen : Finset α) : Prop where
  subset : kept ⊆ seen
  card_le : kept.card ≤ size
  forgotten : ∀ x ∈ seen, x ∉ kept → kept.card = size ∧ ∀ y ∈ kept, x < y

theorem keeps_empty (size : ℕ) : Keeps size (∅ : Finset α) ∅ where
  subset := Finset.Subset.refl ∅
  card_le := Nat.zero_le size
  forgotten x hx := absurd hx (Finset.notMem_empty x)

/-- The elements that a kept set lets in: not kept, and above the least one of a full set. -/
def Admits (size : ℕ) (kept : Finset α) (x : α) : Prop :=
  ¬ (x ∈ kept ∨ (size ≤ kept.card ∧ kept.Nonempty ∧ ∀ y ∈ kept, x ≤ y))

theorem Keeps.not_admits (h : Keeps size kept seen) (hsize : 1 ≤ size) (hx : x ∈ seen) :
    ¬ Admits size kept x := by
  intro hadmits
  apply hadmits
  by_cases hkept : x ∈ kept
  · exact Or.inl hkept
  · obtain ⟨hcard, hbelow⟩ := h.forgotten x hx hkept
    have hnonempty : kept.Nonempty := Finset.card_pos.mp (hcard ▸ hsize)
    exact Or.inr ⟨hcard.ge, hnonempty, fun y hy ↦ (hbelow y hy).le⟩

theorem Keeps.add (h : Keeps size kept seen) (hroom : kept.card < size) (hx : x ∉ kept) :
    Keeps size (insert x kept) (insert x seen) where
  subset := Finset.insert_subset_insert x h.subset
  card_le := by
    rw [Finset.card_insert_of_notMem hx]
    exact hroom
  forgotten y hy hkept := by
    rw [Finset.mem_insert, not_or] at hkept
    have hseen : y ∈ seen := Finset.mem_of_mem_insert_of_ne hy hkept.1
    have hfull := (h.forgotten y hseen hkept.2).1
    omega

theorem Keeps.replace (h : Keeps size kept seen) (hfull : kept.card = size) (hx : x ∉ kept)
    (hm : m ∈ kept) (hleast : ∀ y ∈ kept, m ≤ y) (hlt : m < x) :
    Keeps size ((insert x kept).erase m) (insert x seen) where
  subset := (Finset.erase_subset m _).trans (Finset.insert_subset_insert x h.subset)
  card_le := by
    rw [Finset.card_erase_of_mem (Finset.mem_insert_of_mem hm), Finset.card_insert_of_notMem hx,
      hfull, Nat.add_sub_cancel]
  forgotten y hy hkept := by
    have hcard : ((insert x kept).erase m).card = size := by
      rw [Finset.card_erase_of_mem (Finset.mem_insert_of_mem hm),
        Finset.card_insert_of_notMem hx, hfull, Nat.add_sub_cancel]
    have hmabove : ∀ z ∈ (insert x kept).erase m, m < z := by
      intro z hz
      obtain ⟨hne, hz⟩ := Finset.mem_erase.mp hz
      rcases Finset.mem_insert.mp hz with rfl | hz
      · exact hlt
      · exact lt_of_le_of_ne (hleast z hz) hne.symm
    refine ⟨hcard, fun z hz ↦ ?_⟩
    by_cases hym : y = m
    · rw [hym]
      exact hmabove z hz
    · have hnot : y ∉ insert x kept := fun hmem ↦ hkept (Finset.mem_erase.mpr ⟨hym, hmem⟩)
      rw [Finset.mem_insert, not_or] at hnot
      have hseen : y ∈ seen := Finset.mem_of_mem_insert_of_ne hy hnot.1
      exact ((h.forgotten y hseen hnot.2).2 m hm).trans (hmabove z hz)

end GreatestKept
