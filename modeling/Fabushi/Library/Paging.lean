import Mathlib

/-!
# Reading a sorted list in pages

A list sorted by a key is read from a position on: a page is an initial part of what
lies behind the position, and no key stands on both sides of its end. The last key of
a page is the position from which the next one is read; `Cut.rest` says that nothing
is lost or read again.
-/

namespace Paging

variable {α κ : Type*} [LinearOrder κ] {key : α → κ}

def behind (key : α → κ) (position : κ) (xs : List α) : List α :=
  xs.filter fun x ↦ position < key x

def Sorted (key : α → κ) (xs : List α) : Prop :=
  xs.Pairwise fun x y ↦ key x ≤ key y

theorem mem_behind {position : κ} {xs : List α} {x : α} :
    x ∈ behind key position xs ↔ x ∈ xs ∧ position < key x := by
  simp [behind]

theorem behind_eq_self {position : κ} {xs : List α} (h : ∀ x ∈ xs, position < key x) :
    behind key position xs = xs := by
  simpa [behind] using h

theorem behind_eq_nil {position : κ} {xs : List α} (h : ∀ x ∈ xs, key x ≤ position) :
    behind key position xs = [] := by
  simpa [behind] using h

theorem behind_append (position : κ) (xs ys : List α) :
    behind key position (xs ++ ys) = behind key position xs ++ behind key position ys :=
  List.filter_append ..

theorem behind_behind {position next : κ} (h : position ≤ next) (xs : List α) :
    behind key next (behind key position xs) = behind key next xs := by
  unfold behind
  rw [List.filter_filter]
  refine List.filter_congr fun x _ ↦ ?_
  by_cases hx : next < key x
  · simp [hx, h.trans_lt hx]
  · simp [hx]

theorem Sorted.append {xs ys : List α} (hxs : Sorted key xs) (hys : Sorted key ys)
    (h : ∀ x ∈ xs, ∀ y ∈ ys, key x ≤ key y) : Sorted key (xs ++ ys) :=
  List.pairwise_append.mpr ⟨hxs, hys, h⟩

/-- What lies behind `position` is cut into a page and a rest, between two keys. -/
structure Cut (key : α → κ) (position : κ) (xs page rest : List α) : Prop where
  split : behind key position xs = page ++ rest
  apart : ∀ x ∈ page, ∀ y ∈ rest, key x < key y

namespace Cut

variable {position : κ} {xs page rest : List α}

theorem rest_eq (h : Cut key position xs page rest) {last : κ}
    (hbound : ∀ x ∈ page, key x ≤ last) (hlast : ∃ x ∈ page, key x = last) :
    behind key last xs = rest := by
  obtain ⟨x, hx, rfl⟩ := hlast
  have hbehind : x ∈ behind key position xs := by
    rw [h.split]
    exact List.mem_append_left _ hx
  have hpassed : position ≤ key x := (mem_behind.mp hbehind).2.le
  calc behind key (key x) xs
      = behind key (key x) (page ++ rest) := by rw [← h.split, behind_behind hpassed]
    _ = rest := by
      rw [behind_append, behind_eq_nil hbound, behind_eq_self (h.apart x hx), List.nil_append]

end Cut

theorem Sorted.dropWhile_eq {xs : List α} (h : Sorted key xs) (position : κ) :
    xs.dropWhile (fun x ↦ key x ≤ position) = behind key position xs := by
  induction xs with
  | nil => rfl
  | cons x xs ih =>
      obtain ⟨hx, hxs⟩ := List.pairwise_cons.mp h
      by_cases hle : key x ≤ position
      · rw [List.dropWhile_cons_of_pos (by simpa using hle), ih hxs, behind, behind,
          List.filter_cons_of_neg (by simpa using hle)]
      · have hall : ∀ y ∈ x :: xs, position < key y := by
          intro y hy
          rcases List.mem_cons.mp hy with rfl | hy
          · exact not_le.mp hle
          · exact (not_le.mp hle).trans_le (hx y hy)
        rw [List.dropWhile_cons_of_neg (by simpa using hle), behind_eq_self hall]

end Paging

/-!
## Following cursors

A list whose keys are all different is read page by page. A page is the front of what is still
unread, up to a bound, and names its last key where more stands behind it.
-/

namespace Paging

variable {α κ : Type*} [LinearOrder κ] {key : α → κ} {xs : List α} {bound : ℕ}

def Listed (key : α → κ) (xs : List α) : Prop :=
  xs.Pairwise fun x y ↦ key x < key y

theorem Listed.sorted (h : Listed key xs) : Sorted key xs :=
  h.imp le_of_lt

def unread (key : α → κ) (xs : List α) : Option κ → List α
  | none => xs
  | some position => behind key position xs

def page (key : α → κ) (bound : ℕ) (xs : List α) (cursor : Option κ) : List α × Option κ :=
  let rest := unread key xs cursor
  (rest.take bound, if bound < rest.length then rest[bound - 1]?.map key else none)

/-- The pages that are read one after the other, each from where the one before it ended. -/
inductive Reads (read : Option κ → List α × Option κ) : Option κ → List (List α) → Prop
  | last {cursor : Option κ} (h : (read cursor).2 = none) : Reads read cursor [(read cursor).1]
  | more {cursor : Option κ} {next : κ} {pages : List (List α)} (h : (read cursor).2 = some next)
      (hrest : Reads read (some next) pages) : Reads read cursor ((read cursor).1 :: pages)

theorem exists_append_unread (h : Sorted key xs) (cursor : Option κ) :
    ∃ front, front ++ unread key xs cursor = xs := by
  cases cursor with
  | none => exact ⟨[], rfl⟩
  | some position =>
      refine ⟨xs.takeWhile fun x ↦ key x ≤ position, ?_⟩
      rw [unread, ← h.dropWhile_eq, List.takeWhile_append_dropWhile]

theorem behind_key {front rest : List α} {x : α} (h : Listed key (front ++ x :: rest)) :
    behind key (key x) (front ++ x :: rest) = rest := by
  obtain ⟨-, hrest, hfront⟩ := List.pairwise_append.mp h
  have hpassed : ∀ y ∈ front ++ [x], key y ≤ key x := by
    intro y hy
    rcases List.mem_append.mp hy with hy | hy
    · exact (hfront y hy x List.mem_cons_self).le
    · rw [List.mem_singleton.mp hy]
  rw [List.append_cons, behind_append, behind_eq_nil hpassed,
    behind_eq_self (List.pairwise_cons.mp hrest).1, List.nil_append]

theorem page_cases (h : Listed key xs) (hbound : 0 < bound) (cursor : Option κ) :
    ((page key bound xs cursor).2 = none ∧
      (page key bound xs cursor).1 = unread key xs cursor) ∨
    ∃ next, (page key bound xs cursor).2 = some next ∧
      unread key xs cursor = (page key bound xs cursor).1 ++ unread key xs (some next) ∧
      (unread key xs (some next)).length < (unread key xs cursor).length := by
  obtain ⟨front, hfront⟩ := exists_append_unread h.sorted cursor
  unfold page
  dsimp only
  set rest := unread key xs cursor
  by_cases hmore : bound < rest.length
  · have hlast : bound - 1 < rest.length := by omega
    refine Or.inr ⟨key rest[bound - 1], ?_, ?_⟩
    · rw [if_pos hmore, List.getElem?_eq_getElem hlast, Option.map_some]
    · have hsplit : rest.take (bound - 1) ++ rest[bound - 1] :: rest.drop bound = rest := by
        have hdrop := List.drop_eq_getElem_cons hlast
        rw [Nat.sub_add_cancel hbound] at hdrop
        rw [← hdrop, List.take_append_drop]
      have hxs : (front ++ rest.take (bound - 1)) ++ rest[bound - 1] :: rest.drop bound = xs := by
        rw [List.append_assoc, hsplit, hfront]
      have hunread : unread key xs (some (key rest[bound - 1])) = rest.drop bound := by
        have hbehind := behind_key (hxs.symm ▸ h)
        rwa [hxs] at hbehind
      rw [hunread, List.take_append_drop, List.length_drop]
      exact ⟨rfl, by omega⟩
  · exact Or.inl ⟨if_neg hmore, List.take_of_length_le (by omega)⟩

/-- Following the cursors comes to an end, and has then read everything once. -/
theorem reads_page (h : Listed key xs) (hbound : 0 < bound) (cursor : Option κ) :
    (∃ pages, Reads (page key bound xs) cursor pages) ∧
      ∀ pages, Reads (page key bound xs) cursor pages →
        pages.flatten = unread key xs cursor := by
  induction hlength : (unread key xs cursor).length using Nat.strong_induction_on
    generalizing cursor with
  | _ n ih =>
      subst hlength
      rcases page_cases h hbound cursor with ⟨hnone, hall⟩ | ⟨next, hnext, hsplit, hshorter⟩
      · refine ⟨⟨_, .last hnone⟩, fun pages hpages ↦ ?_⟩
        cases hpages with
        | last => rw [List.flatten_singleton, hall]
        | more hsome => cases hnone.symm.trans hsome
      · obtain ⟨⟨pages, hpages⟩, hflatten⟩ := ih _ hshorter (some next) rfl
        refine ⟨⟨_, .more hnext hpages⟩, fun pages' hpages' ↦ ?_⟩
        cases hpages' with
        | last hnone => cases hnone.symm.trans hnext
        | more hsome hrest =>
            obtain rfl := Option.some.inj (hnext.symm.trans hsome)
            rw [List.flatten_cons, hflatten _ hrest, ← hsplit]

end Paging

/-!
## The retained end of a numbered history

A history is numbered from one without a gap. A queue retains it behind some number: what
lies behind any later one is read off the queue as well as off the history. The queue
grows with the history, loses its front, or is passed over by an entry too big to keep.
-/

namespace Retention

open Paging

variable {α : Type*} {key : α → ℕ} {history queue : List α} {evicted : ℕ} {x : α}

def Numbered (key : α → ℕ) (history : List α) : Prop :=
  history.map key = List.range' 1 history.length

theorem numbered_nil : Numbered key [] := rfl

theorem Numbered.append (h : Numbered key history) (hx : key x = history.length + 1) :
    Numbered key (history ++ [x]) := by
  unfold Numbered at *
  rw [List.map_append, h, List.length_append, List.length_singleton, List.range'_concat,
    List.map_singleton, hx]
  congr 2
  omega

theorem Numbered.mem_iff (h : Numbered key history) {x : α} (hx : x ∈ history) :
    1 ≤ key x ∧ key x ≤ history.length := by
  have hmem : key x ∈ history.map key := List.mem_map_of_mem hx
  rw [h, List.mem_range'_1] at hmem
  omega

theorem filter_range' (n count : ℕ) :
    (List.range' 1 count).filter (fun m ↦ n < m) = List.range' (n + 1) (count - n) := by
  induction count with
  | zero => simp
  | succ count ih =>
      rw [List.range'_1_concat, List.filter_append, ih]
      by_cases h : n < 1 + count
      · have hcount : count + 1 - n = count - n + 1 := by omega
        have hlast : n + 1 + (count - n) = 1 + count := by omega
        rw [hcount, List.range'_1_concat, hlast, List.filter_cons_of_pos (by simpa using h),
          List.filter_nil]
      · have hcount : count + 1 - n = count - n := by omega
        rw [hcount, List.filter_cons_of_neg (by simpa using h), List.filter_nil, List.append_nil]

theorem Numbered.behind (h : Numbered key history) (n : ℕ) :
    (behind key n history).map key = List.range' (n + 1) (history.length - n) := by
  have hmap : (Paging.behind key n history).map key =
      (history.map key).filter fun m ↦ n < m := by
    rw [List.filter_map]
    rfl
  rw [hmap, h, filter_range']

/-- The queue tells what the history holds behind `evicted`. -/
def Retains (key : α → ℕ) (history queue : List α) (evicted : ℕ) : Prop :=
  behind key evicted queue = behind key evicted history

theorem retains_nil (h : ∀ x ∈ history, key x ≤ evicted) : Retains key history [] evicted := by
  rw [Retains, behind_eq_nil h]
  rfl

theorem Retains.since (h : Retains key history queue evicted) {seen : ℕ} (hseen : evicted ≤ seen) :
    behind key seen queue = behind key seen history := by
  rw [← behind_behind hseen queue, h, behind_behind hseen]

theorem Retains.append (h : Retains key history queue evicted) (x : α) :
    Retains key (history ++ [x]) (queue ++ [x]) evicted := by
  rw [Retains, behind_append, behind_append, h]

theorem Retains.pop (h : Retains key history (x :: queue) evicted) :
    Retains key history queue (max evicted (key x)) := by
  rw [Retains, ← h.since (le_max_left evicted (key x)), Paging.behind, Paging.behind,
    List.filter_cons_of_neg (by simp)]

/-- An entry that is not queued counts as evicted, and so does all before it. -/
theorem Retains.skip (h : Retains key history queue evicted) (hevicted : evicted ≤ key x)
    (hlast : ∀ y ∈ history, key y ≤ key x) :
    Retains key (history ++ [x]) queue (key x) := by
  rw [Retains, h.since hevicted, behind_append, behind_eq_nil hlast, behind_eq_nil (by simp)]
  rfl

end Retention
