import Mathlib

/-!
# Parts joined by a separator

A text is cut into its pieces between the separators. Joining two texts by a separator
puts the pieces of one behind those of the other, so the joined text tells the pieces,
but not where the pieces of the first text end.
-/

namespace Joined

variable {separator : Char}

/-- The pieces of a text between its separators. -/
def pieces (separator : Char) (s : String) : List (List Char) :=
  s.toList.splitOn separator

theorem pieces_injective : Function.Injective (pieces separator) := by
  intro s t h
  have hjoined := congrArg [separator].intercalate h
  rw [pieces, pieces, List.intercalate_splitOn, List.intercalate_splitOn] at hjoined
  exact String.toList_inj.mp hjoined

theorem pieces_join (s t : String) :
    pieces separator (s ++ String.singleton separator ++ t) =
      pieces separator s ++ pieces separator t := by
  rw [pieces, String.toList_append, String.toList_append, String.toList_singleton,
    List.append_assoc, List.singleton_append, List.splitOn_append_cons_self]
  rfl

theorem notMem_of_mem_splitOn {text piece : List Char} (h : piece ∈ text.splitOn separator)
    {c : Char} (hc : c ∈ piece) : c ∈ text ∧ c ≠ separator := by
  unfold List.splitOn at h
  induction text generalizing piece with
  | nil =>
      rw [List.splitOnP_nil, List.mem_singleton] at h
      rw [h] at hc
      cases hc
  | cons d text ih =>
      rw [List.splitOnP_cons_eq_if_modifyHead] at h
      split_ifs at h with hd
      · rcases List.mem_cons.mp h with rfl | h
        · cases hc
        · exact (ih h hc).imp_left (List.mem_cons_of_mem d)
      · cases hparts : text.splitOnP (· == separator) with
        | nil => exact absurd hparts (List.splitOnP_ne_nil _ _)
        | cons first parts =>
            rw [hparts] at h ih
            rw [List.modifyHead_cons] at h
            rcases List.mem_cons.mp h with rfl | h
            · rcases List.mem_cons.mp hc with rfl | hc
              · exact ⟨List.mem_cons_self, by simpa using hd⟩
              · exact (ih List.mem_cons_self hc).imp_left (List.mem_cons_of_mem d)
            · exact (ih (List.mem_cons_of_mem first h) hc).imp_left (List.mem_cons_of_mem d)

/-- The pieces begin with those of another text where the text is that one, or goes on behind
it after a separator. -/
theorem pieces_prefix_iff {s t : String} :
    pieces separator s <+: pieces separator t ↔
      t = s ∨ ∃ rest, t = s ++ String.singleton separator ++ rest := by
  constructor
  · rintro ⟨rest, h⟩
    cases rest with
    | nil =>
        rw [List.append_nil] at h
        exact Or.inl (pieces_injective h.symm)
    | cons first rest =>
        refine Or.inr ⟨String.ofList ([separator].intercalate (first :: rest)), ?_⟩
        have hnone : ∀ piece ∈ first :: rest, separator ∉ piece := by
          intro piece hpiece hmem
          have hpieces : piece ∈ t.toList.splitOn separator := by
            rw [pieces, pieces] at h
            rw [← h]
            exact List.mem_append_right _ hpiece
          exact (notMem_of_mem_splitOn hpieces hmem).2 rfl
        have hrest : pieces separator
            (String.ofList ([separator].intercalate (first :: rest))) = first :: rest := by
          rw [pieces, String.toList_ofList]
          exact List.splitOn_intercalate separator hnone (List.cons_ne_nil first rest)
        apply @pieces_injective separator
        rw [pieces_join, hrest, h]
  · rintro (rfl | ⟨rest, rfl⟩)
    · exact List.prefix_refl _
    · rw [pieces_join]
      exact List.prefix_append _ _

theorem pieces_repr (h : separator.isDigit = false) (n : ℕ) :
    pieces separator (toString n) = [Nat.toDigits 10 n] := by
  have hdigits : (toString n).toList = Nat.toDigits 10 n := Nat.toList_repr
  rw [pieces, hdigits]
  apply List.splitOn_eq_singleton
  intro hmem
  have hdigit := Nat.isDigit_of_mem_toDigits (by decide) (by decide) hmem
  rw [h] at hdigit
  cases hdigit

theorem toDigits_injective : Function.Injective (Nat.toDigits 10) := by
  intro m n h
  rw [← Nat.ofDigitChars_ten_toDigits (n := m), h, Nat.ofDigitChars_ten_toDigits]

/-- Texts whose pieces line up are the same once as many pieces belong to the first. -/
theorem eq_of_pieces_append {s t s' t' : String}
    (h : pieces separator s ++ pieces separator t = pieces separator s' ++ pieces separator t')
    (hlength : (pieces separator s).length = (pieces separator s').length) : s = s' ∧ t = t' := by
  obtain ⟨hs, ht⟩ := List.append_inj h hlength
  exact ⟨pieces_injective hs, pieces_injective ht⟩

end Joined

/-!
## Cutting a list at a separator

`once` cuts at the first separator and `lastOnce` at the last one; the separator itself is
dropped. The piece before the first cut holds no separator.
-/

namespace Splits

variable {α : Type*} [DecidableEq α] {separator : α} {xs left right : List α}

/-- Cut at the first separator. -/
def once (separator : α) : List α → Option (List α × List α)
  | [] => none
  | x :: xs =>
      if x = separator then some ([], xs)
      else (once separator xs).map fun halves ↦ (x :: halves.1, halves.2)

def lastOnce (separator : α) (xs : List α) : Option (List α × List α) :=
  (once separator xs.reverse).map fun halves ↦ (halves.2.reverse, halves.1.reverse)

theorem once_eq_some : once separator xs = some (left, right) ↔
    xs = left ++ separator :: right ∧ separator ∉ left := by
  induction xs generalizing left with
  | nil => simp [once]
  | cons x xs ih =>
      by_cases hx : x = separator
      · subst hx
        rw [once, if_pos rfl]
        constructor
        · rintro heq
          obtain ⟨rfl, rfl⟩ := Prod.mk.inj (Option.some.inj heq)
          exact ⟨rfl, List.not_mem_nil⟩
        · rintro ⟨heq, hnot⟩
          cases left with
          | nil => rw [(List.cons.inj heq).2]
          | cons y left =>
              rw [(List.cons.inj heq).1] at hnot
              exact absurd List.mem_cons_self hnot
      · rw [once, if_neg hx, Option.map_eq_some_iff]
        constructor
        · rintro ⟨⟨left', right'⟩, hrest, heq⟩
          obtain ⟨rfl, rfl⟩ := Prod.mk.inj heq
          obtain ⟨rfl, hnot⟩ := ih.mp hrest
          refine ⟨rfl, ?_⟩
          rw [List.mem_cons, not_or]
          exact ⟨Ne.symm hx, hnot⟩
        · rintro ⟨heq, hnot⟩
          cases left with
          | nil => exact absurd (List.cons.inj heq).1 hx
          | cons y left =>
              obtain ⟨rfl, htail⟩ := List.cons.inj heq
              rw [List.mem_cons, not_or] at hnot
              exact ⟨(left, right), ih.mpr ⟨htail, hnot.2⟩, rfl⟩

theorem length_of_once (h : once separator xs = some (left, right)) :
    left.length + right.length + 1 = xs.length := by
  rw [(once_eq_some.mp h).1, List.length_append, List.length_cons]
  omega

theorem lastOnce_eq_some : lastOnce separator xs = some (left, right) ↔
    xs = left ++ separator :: right ∧ separator ∉ right := by
  rw [lastOnce, Option.map_eq_some_iff]
  constructor
  · rintro ⟨⟨first, second⟩, honce, heq⟩
    obtain ⟨rfl, rfl⟩ := Prod.mk.inj heq
    obtain ⟨hreverse, hnot⟩ := once_eq_some.mp honce
    refine ⟨?_, by simpa using hnot⟩
    rw [← List.reverse_reverse xs, hreverse]
    simp
  · rintro ⟨rfl, hnot⟩
    refine ⟨(right.reverse, left.reverse), once_eq_some.mpr ⟨by simp, by simpa using hnot⟩, ?_⟩
    simp

end Splits
