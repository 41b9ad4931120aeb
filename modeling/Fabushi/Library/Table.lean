import Mathlib

/-!
# Tables of rows

A relational table is the list of its rows in insertion order. Insertions append,
updates map, and totals are sums over all rows; a column that identifies its row
is one on which the rows have no duplicates.
-/

namespace Table

variable {α β κ : Type}

def insertOrIgnore (conflicts : α → α → Bool) (row : α) (rows : List α) : List α :=
  if rows.any fun old ↦ conflicts old row then rows else rows ++ [row]

/-- `UPDATE … SET … WHERE …`. -/
def update (selects : α → Bool) (set : α → α) (rows : List α) : List α :=
  rows.map fun row ↦ if selects row then set row else row

/-- `SUM` of an expression over all rows. -/
def total (f : α → ℤ) (rows : List α) : ℤ :=
  (rows.map f).sum

theorem mem_insertOrIgnore_of_mem {conflicts : α → α → Bool} {row r : α} {rows : List α}
    (h : r ∈ rows) : r ∈ insertOrIgnore conflicts row rows := by
  unfold insertOrIgnore
  split
  · exact h
  · exact List.mem_append_left _ h

theorem insertOrIgnore_cases (conflicts : α → α → Bool) (row : α) (rows : List α) :
    (∃ old ∈ rows, conflicts old row) ∧ insertOrIgnore conflicts row rows = rows ∨
      (∀ old ∈ rows, conflicts old row = false) ∧
        insertOrIgnore conflicts row rows = rows ++ [row] := by
  by_cases h : rows.any fun old ↦ conflicts old row
  · exact .inl ⟨List.any_eq_true.mp h, if_pos h⟩
  · refine .inr ⟨?_, if_neg h⟩
    intro old hold
    simpa using fun hc ↦ h (List.any_eq_true.mpr ⟨old, hold, hc⟩)

theorem mem_update {selects : α → Bool} {set : α → α} {r : α} {rows : List α} :
    r ∈ update selects set rows ↔ ∃ old ∈ rows, (if selects old then set old else old) = r :=
  List.mem_map

theorem map_update {selects : α → Bool} {set : α → α} {key : α → κ}
    (h : ∀ row, key (set row) = key row) (rows : List α) :
    (update selects set rows).map key = rows.map key := by
  rw [update, List.map_map]
  refine List.map_congr_left ?_
  intro row _
  simp only [Function.comp_apply]
  split
  · exact h row
  · rfl

/-- Changing the first selected row changes all of them, where no two are selected. -/
theorem modify_findIdx? {selects : α → Bool} (set : α → α) {rows : List α}
    (h : rows.Pairwise fun a b ↦ selects a = true → selects b = false) :
    (match rows.findIdx? selects with
      | some index => rows.modify index set
      | none => rows) = update selects set rows := by
  induction rows with
  | nil => rfl
  | cons row rows ih =>
      obtain ⟨hrow, hrows⟩ := List.pairwise_cons.mp h
      have hrest := ih hrows
      rw [List.findIdx?_cons]
      cases hselects : selects row
      · rw [update, List.map_cons, hselects]
        simp only [Bool.false_eq_true, if_false]
        rw [← update, ← hrest]
        cases rows.findIdx? selects with
        | none => rfl
        | some index => rfl
      · simp only [if_true]
        rw [update, List.map_cons, hselects, if_pos rfl]
        change set row :: rows = _
        congr 1
        symm
        refine (List.map_congr_left fun r hr ↦ ?_).trans (List.map_id rows)
        rw [hrow r hr hselects]
        rfl

theorem find_update {selects p : α → Bool} {set : α → α} (h : ∀ row, p (set row) = p row)
    (rows : List α) :
    (update selects set rows).find? p =
      (rows.find? p).map fun row ↦ if selects row then set row else row := by
  rw [update, List.find?_map]
  congr 1
  apply congrArg (List.find? · rows)
  funext row
  simp only [Function.comp_apply]
  split
  · exact h row
  · rfl

theorem countP_update {selects p : α → Bool} {set : α → α} (h : ∀ row, p (set row) = p row)
    (rows : List α) : (update selects set rows).countP p = rows.countP p := by
  rw [update, List.countP_map]
  apply congrArg (List.countP · rows)
  funext row
  simp only [Function.comp_apply]
  split
  · exact h row
  · rfl

theorem update_eq_self {selects : α → Bool} {set : α → α} {rows : List α}
    (h : ∀ row ∈ rows, selects row = false) : update selects set rows = rows := by
  refine (List.map_congr_left fun row hrow ↦ ?_).trans (List.map_id rows)
  rw [h row hrow]
  rfl

theorem countP_update_le (p selects : α → Bool) (set : α → α) (rows : List α) :
    (update selects set rows).countP p ≤
      rows.countP p + rows.countP fun row ↦ selects row && p (set row) && !p row := by
  induction rows with
  | nil => exact le_rfl
  | cons row rows ih =>
      rw [update, List.map_cons, ← update]
      simp only [List.countP_cons]
      cases selects row
      · simp only [Bool.false_and, Bool.false_eq_true, if_false, add_zero]
        omega
      · simp only [Bool.true_and, if_true]
        cases p row <;> cases p (set row) <;> simp <;> omega

/-! ## Rows found by a key -/

theorem countP_key_le_one [DecidableEq κ] {key : α → κ} {rows : List α}
    (hkeys : (rows.map key).Nodup) (k : κ) : (rows.countP fun row ↦ key row = k) ≤ 1 := by
  have hcount := List.nodup_iff_count_le_one.mp hkeys k
  rw [List.count, List.countP_map] at hcount
  refine le_trans (le_of_eq ?_) hcount
  apply congrArg (List.countP · rows)
  funext row
  simp [Bool.beq_eq_decide_eq]

theorem eq_of_key_eq {key : α → κ} {rows : List α} (hkeys : (rows.map key).Nodup) {a b : α}
    (ha : a ∈ rows) (hb : b ∈ rows) (h : key a = key b) : a = b :=
  List.inj_on_of_nodup_map hkeys ha hb h

theorem nodup_append_row {key : α → κ} {rows : List α} {row : α} (hkeys : (rows.map key).Nodup)
    (hnew : ∀ r ∈ rows, key r ≠ key row) : ((rows ++ [row]).map key).Nodup := by
  rw [List.map_append, List.nodup_append]
  refine ⟨hkeys, by simp, ?_⟩
  intro k hk k' hk' heq
  obtain ⟨r, hr, rfl⟩ := List.mem_map.mp hk
  rw [List.map_singleton, List.mem_singleton] at hk'
  exact hnew r hr (heq.trans hk')

/-! ## Rows put in the place of others -/

section Put

variable [DecidableEq κ] {key : α → κ} {rows : List α} {row : α}

/-- The first row with the key is replaced, or the row is appended. -/
def put (key : α → κ) (row : α) (rows : List α) : List α :=
  match rows.findIdx? fun old ↦ key old = key row with
  | some index => rows.set index row
  | none => rows ++ [row]

theorem put_cons (key : α → κ) (row old : α) (rows : List α) :
    put key row (old :: rows) =
      if key old = key row then row :: rows else old :: put key row rows := by
  unfold put
  rw [List.findIdx?_cons]
  by_cases hold : key old = key row
  · simp [hold]
  · simp only [hold, decide_false, if_false]
    cases rows.findIdx? fun old ↦ decide (key old = key row) <;> simp

/-- Where the key is unique, the row takes the place of every other with its key. -/
theorem mem_put (hkeys : (rows.map key).Nodup) {r : α} :
    r ∈ put key row rows ↔ r = row ∨ (r ∈ rows ∧ key r ≠ key row) := by
  induction rows with
  | nil => simp [put]
  | cons old rows ih =>
      rw [List.map_cons, List.nodup_cons] at hkeys
      rw [put_cons]
      split
      · rename_i hold
        have hothers : ∀ r ∈ rows, key r ≠ key row := fun r hr heq ↦
          hkeys.1 (List.mem_map.mpr ⟨r, hr, heq.trans hold.symm⟩)
        rw [List.mem_cons]
        constructor
        · rintro (rfl | hr)
          · exact .inl rfl
          · exact .inr ⟨List.mem_cons_of_mem _ hr, hothers r hr⟩
        · rintro (rfl | ⟨hr, hne⟩)
          · exact .inl rfl
          · rcases List.mem_cons.mp hr with rfl | hr
            · exact absurd hold hne
            · exact .inr hr
      · rename_i hold
        rw [List.mem_cons, ih hkeys.2, List.mem_cons]
        constructor
        · rintro (rfl | rfl | ⟨hr, hne⟩)
          · exact .inr ⟨.inl rfl, hold⟩
          · exact .inl rfl
          · exact .inr ⟨.inr hr, hne⟩
        · rintro (rfl | ⟨rfl | hr, hne⟩)
          · exact .inr (.inl rfl)
          · exact .inl rfl
          · exact .inr (.inr ⟨hr, hne⟩)

theorem nodup_put (hkeys : (rows.map key).Nodup) : ((put key row rows).map key).Nodup := by
  induction rows with
  | nil => simp [put]
  | cons old rows ih =>
      rw [List.map_cons, List.nodup_cons] at hkeys
      rw [put_cons]
      split
      · rename_i hold
        rw [List.map_cons, ← hold]
        exact List.nodup_cons.mpr hkeys
      · rename_i hold
        rw [List.map_cons, List.nodup_cons]
        refine ⟨fun hmem ↦ ?_, ih hkeys.2⟩
        obtain ⟨r, hr, hkey⟩ := List.mem_map.mp hmem
        rcases (mem_put hkeys.2).mp hr with rfl | ⟨hr, -⟩
        · exact hold hkey.symm
        · exact hkeys.1 (List.mem_map.mpr ⟨r, hr, hkey⟩)

end Put

/-! ## Totals -/

@[simp] theorem total_nil (f : α → ℤ) : total f [] = 0 := rfl

@[simp] theorem total_cons (f : α → ℤ) (row : α) (rows : List α) :
    total f (row :: rows) = f row + total f rows := by
  simp [total]

@[simp] theorem total_append (f : α → ℤ) (xs ys : List α) :
    total f (xs ++ ys) = total f xs + total f ys := by
  simp [total]

theorem total_congr {f g : α → ℤ} {rows : List α} (h : ∀ row ∈ rows, f row = g row) :
    total f rows = total g rows := by
  rw [total, total, List.map_congr_left h]

theorem total_update (f : α → ℤ) (selects : α → Bool) (set : α → α) (rows : List α) :
    total f (update selects set rows) =
      total (fun row ↦ if selects row then f (set row) else f row) rows := by
  rw [total, total, update, List.map_map]
  congr 1
  refine List.map_congr_left ?_
  intro row _
  simp only [Function.comp_apply]
  split <;> rfl

theorem total_sub (f g : α → ℤ) (rows : List α) :
    total (fun row ↦ f row - g row) rows = total f rows - total g rows := by
  induction rows with
  | nil => simp
  | cons row rows ih =>
      simp only [total_cons, ih]
      ring

theorem total_nonneg {f : α → ℤ} {rows : List α} (h : ∀ row ∈ rows, 0 ≤ f row) :
    0 ≤ total f rows := by
  refine List.sum_nonneg ?_
  intro x hx
  obtain ⟨row, hrow, rfl⟩ := List.mem_map.mp hx
  exact h row hrow

theorem total_eq_zero {f : α → ℤ} {rows : List α} (h : ∀ row ∈ rows, f row = 0) :
    total f rows = 0 := by
  refine List.sum_eq_zero ?_
  intro x hx
  obtain ⟨row, hrow, rfl⟩ := List.mem_map.mp hx
  exact h row hrow

theorem total_unique [DecidableEq κ] {key : α → κ} {rows : List α} (hkeys : (rows.map key).Nodup)
    {row : α} (hrow : row ∈ rows) (f : α → ℤ) :
    total (fun r ↦ if key r = key row then f r else 0) rows = f row := by
  induction rows with
  | nil => cases hrow
  | cons head rows ih =>
      rw [List.map_cons, List.nodup_cons] at hkeys
      rw [total_cons]
      rcases List.mem_cons.mp hrow with rfl | hmem
      · rw [if_pos rfl, total_eq_zero, add_zero]
        intro r hr
        rw [if_neg]
        exact fun heq ↦ hkeys.1 (List.mem_map.mpr ⟨r, hr, heq⟩)
      · rw [if_neg, zero_add, ih hkeys.2 hmem]
        exact fun heq ↦ hkeys.1 (List.mem_map.mpr ⟨row, hmem, heq.symm⟩)

end Table
