import Mathlib

/-!
# Reasoning about computations that may fail

`ensure` and `okOr` are the two ways a fallible function leaves early. A
successful run is inverted with `bind_eq_ok`; a property of every successful
result is pushed through the steps with `Ensures`. `Avoids P x` says that `x` does
not fail with an error that satisfies `P`, and `FailsOnly P x` that it fails with no
other: a check that fails for `P` only and avoids it succeeds.
-/

namespace Result

universe u v

variable {ε : Type u} {α β : Type v}

/-- Fail with `e` unless the condition holds. -/
def ensure (p : Prop) [Decidable p] (e : ε) : Except ε Unit :=
  if p then .ok () else .error e

/-- Fail with `e` on an absent value. -/
def okOr (x : Option α) (e : ε) : Except ε α :=
  match x with
  | some a => .ok a
  | none => .error e

@[simp] theorem ensure_eq_ok {p : Prop} [Decidable p] {e : ε} {u : Unit} :
    ensure p e = .ok u ↔ p := by
  unfold ensure
  split <;> simp_all

@[simp] theorem okOr_eq_ok {x : Option α} {e : ε} {a : α} :
    okOr x e = .ok a ↔ x = some a := by
  cases x <;> simp [okOr]

theorem ensure_eq_error {p : Prop} [Decidable p] {e e' : ε} :
    ensure p e = .error e' ↔ ¬ p ∧ e' = e := by
  unfold ensure
  split <;> simp_all [eq_comm]

theorem okOr_eq_error {x : Option α} {e e' : ε} :
    okOr x e = .error e' ↔ x = none ∧ e' = e := by
  cases x <;> simp [okOr, eq_comm]

theorem bind_eq_ok {x : Except ε α} {f : α → Except ε β} {b : β} :
    (x >>= f) = .ok b ↔ ∃ a, x = .ok a ∧ f a = .ok b := by
  cases x with
  | error e => simp [bind, Except.bind]
  | ok a => simp [bind, Except.bind]

theorem bind_eq_error {x : Except ε α} {f : α → Except ε β} {e : ε} :
    (x >>= f) = .error e ↔ x = .error e ∨ ∃ a, x = .ok a ∧ f a = .error e := by
  cases x with
  | error e => simp [bind, Except.bind]
  | ok a => simp [bind, Except.bind]

theorem exists_of_isOk {x : Except ε α} (h : x.isOk = true) : ∃ a, x = .ok a := by
  cases x with
  | error e => cases h
  | ok a => exact ⟨a, rfl⟩

/-- Every successful result satisfies `Q`. -/
def Ensures (Q : α → Prop) : Except ε α → Prop
  | .ok a => Q a
  | .error _ => True

theorem ensures_iff {Q : α → Prop} {x : Except ε α} :
    Ensures Q x ↔ ∀ a, x = .ok a → Q a := by
  cases x <;> simp [Ensures]

@[simp] theorem ensures_ok {Q : α → Prop} {a : α} :
    Ensures Q (.ok a : Except ε α) ↔ Q a := Iff.rfl

@[simp] theorem ensures_pure {Q : α → Prop} {a : α} :
    Ensures Q (pure a : Except ε α) ↔ Q a := Iff.rfl

@[simp] theorem ensures_error {Q : α → Prop} {e : ε} :
    Ensures Q (.error e : Except ε α) := trivial

@[simp] theorem ensures_throw {Q : α → Prop} {e : ε} :
    Ensures Q (throw e : Except ε α) := trivial

theorem ensures_bind_iff {Q : β → Prop} {x : Except ε α} {f : α → Except ε β} :
    Ensures Q (x >>= f) ↔ ∀ a, x = .ok a → Ensures Q (f a) := by
  cases x with
  | error e => simp [Ensures, bind, Except.bind]
  | ok a => simp [bind, Except.bind]

/-! ## Reasons a computation fails for -/

section Refusals

variable {P : ε → Prop}

def Avoids (P : ε → Prop) (x : Except ε α) : Prop :=
  ∀ e, x = .error e → ¬ P e

theorem avoids_ok {a : α} : Avoids P (.ok a : Except ε α) := by
  intro e h
  cases h

theorem avoids_pure {a : α} : Avoids P (pure a : Except ε α) :=
  avoids_ok

theorem avoids_error {e : ε} : Avoids P (.error e : Except ε α) ↔ ¬ P e := by
  constructor
  · intro h
    exact h e rfl
  · rintro h _ ⟨⟩
    exact h

theorem avoids_ensure {p : Prop} [Decidable p] {e : ε} :
    Avoids P (ensure p e) ↔ (P e → p) := by
  by_cases hp : p
  · simp [ensure, hp, avoids_ok]
  · simp [ensure, hp, avoids_error]

theorem avoids_bind {x : Except ε α} {f : α → Except ε β} :
    Avoids P (x >>= f) ↔ Avoids P x ∧ ∀ a, x = .ok a → Avoids P (f a) := by
  cases x with
  | error e => simp [Avoids, bind, Except.bind]
  | ok a => simp [Avoids, bind, Except.bind]

/-- The computation fails for reasons in `P` only. -/
def FailsOnly (P : ε → Prop) (x : Except ε α) : Prop :=
  ∀ e, x = .error e → P e

theorem failsOnly_ok {a : α} : FailsOnly P (.ok a : Except ε α) := by
  intro e h
  cases h

theorem failsOnly_ensure {p : Prop} [Decidable p] {e : ε} (h : P e) : FailsOnly P (ensure p e) := by
  intro e' he'
  rw [(ensure_eq_error.mp he').2]
  exact h

theorem failsOnly_okOr {x : Option α} {e : ε} (h : P e) : FailsOnly P (okOr x e) := by
  intro e' he'
  rw [(okOr_eq_error.mp he').2]
  exact h

theorem failsOnly_bind {x : Except ε α} {f : α → Except ε β} (hx : FailsOnly P x)
    (hf : ∀ a, FailsOnly P (f a)) : FailsOnly P (x >>= f) := by
  intro e he
  rcases bind_eq_error.mp he with hx' | ⟨a, -, hf'⟩
  · exact hx e hx'
  · exact hf a e hf'

theorem FailsOnly.exists_ok {x : Except ε α} (honly : FailsOnly P x) (havoids : Avoids P x) :
    ∃ a, x = .ok a := by
  cases x with
  | ok a => exact ⟨a, rfl⟩
  | error e => exact absurd (honly e rfl) (havoids e rfl)

/-- The first check of a chain that avoids the reasons it could fail for. -/
theorem FailsOnly.of_bind {x : Except ε α} {f : α → Except ε β} (honly : FailsOnly P x)
    (h : Avoids P (x >>= f)) : Avoids P x ∧ ∃ a, x = .ok a ∧ Avoids P (f a) := by
  obtain ⟨hx, hf⟩ := avoids_bind.mp h
  obtain ⟨a, ha⟩ := honly.exists_ok hx
  exact ⟨hx, a, ha, hf a ha⟩

end Refusals

end Result

/-!
## Fallible loops over lists

A loop that stops at the first error succeeds when every step does, and its results stand
beside the elements that they were made of.
-/

namespace Result

variable {α β : Type*} {xs : List α} {ys : List β}

theorem forM_eq_ok {ε : Type*} {f : α → Except ε PUnit} :
    xs.forM f = .ok ⟨⟩ ↔ ∀ x ∈ xs, f x = .ok ⟨⟩ := by
  induction xs with
  | nil => exact iff_of_true rfl fun x hx ↦ by cases hx
  | cons x xs ih =>
      change (f x >>= fun _ ↦ xs.forM f) = .ok ⟨⟩ ↔ _
      rw [bind_eq_ok, List.forall_mem_cons]
      constructor
      · rintro ⟨_, hx, hrest⟩
        exact ⟨hx, ih.mp hrest⟩
      · rintro ⟨hx, hrest⟩
        exact ⟨⟨⟩, hx, ih.mpr hrest⟩

theorem mapM_eq_ok_iff {α β ε : Type} {f : α → Except ε β} {xs : List α} {ys : List β} :
    xs.mapM f = .ok ys ↔ List.Forall₂ (fun x y ↦ f x = .ok y) xs ys := by
  induction xs generalizing ys with
  | nil =>
      rw [List.mapM_nil, List.forall₂_nil_left_iff]
      exact ⟨fun h ↦ (Except.ok.inj h).symm, fun h ↦ by rw [h]; rfl⟩
  | cons x xs ih =>
      rw [List.mapM_cons, List.forall₂_cons_left_iff, bind_eq_ok]
      constructor
      · rintro ⟨y, hy, h⟩
        obtain ⟨ys', hys, h⟩ := bind_eq_ok.mp h
        exact ⟨y, ys', hy, ih.mp hys, (Except.ok.inj h).symm⟩
      · rintro ⟨y, ys', hy, hys, rfl⟩
        exact ⟨y, hy, bind_eq_ok.mpr ⟨ys', ih.mpr hys, rfl⟩⟩

theorem mapM_eq_some_iff {α β : Type} {f : α → Option β} {xs : List α} {ys : List β} :
    xs.mapM f = some ys ↔ List.Forall₂ (fun x y ↦ f x = some y) xs ys := by
  induction xs generalizing ys with
  | nil =>
      rw [List.mapM_nil, List.forall₂_nil_left_iff]
      exact ⟨fun h ↦ (Option.some.inj h).symm, fun h ↦ by rw [h]; rfl⟩
  | cons x xs ih =>
      rw [List.mapM_cons, List.forall₂_cons_left_iff]
      constructor
      · intro h
        obtain ⟨y, hy, h⟩ := Option.bind_eq_some_iff.mp h
        obtain ⟨rest, hrest, h⟩ := Option.bind_eq_some_iff.mp h
        exact ⟨y, rest, hy, ih.mp hrest, (Option.some.inj h).symm⟩
      · rintro ⟨y, rest, hy, hrest, rfl⟩
        exact Option.bind_eq_some_iff.mpr ⟨y, hy, Option.bind_eq_some_iff.mpr
          ⟨rest, ih.mpr hrest, rfl⟩⟩

/-! ## Elements side by side -/

theorem forall₂_congr_mem {R S : α → β → Prop} (h : ∀ x ∈ xs, ∀ y ∈ ys, R x y ↔ S x y) :
    List.Forall₂ R xs ys ↔ List.Forall₂ S xs ys := by
  induction xs generalizing ys with
  | nil => rw [List.forall₂_nil_left_iff, List.forall₂_nil_left_iff]
  | cons x xs ih =>
      cases ys with
      | nil => exact iff_of_false nofun nofun
      | cons y ys =>
          rw [List.forall₂_cons, List.forall₂_cons,
            h x List.mem_cons_self y List.mem_cons_self,
            ih fun x hx y hy ↦ h x (List.mem_cons_of_mem _ hx) y (List.mem_cons_of_mem _ hy)]

theorem map_eq_map_iff {γ : Type*} {f : α → γ} {g : β → γ} :
    xs.map f = ys.map g ↔ List.Forall₂ (fun x y ↦ f x = g y) xs ys := by
  rw [← List.forall₂_eq_eq_eq, List.forall₂_map_left_iff, List.forall₂_map_right_iff]

theorem forall₂_and {R S : α → β → Prop} :
    List.Forall₂ (fun x y ↦ R x y ∧ S x y) xs ys ↔ List.Forall₂ R xs ys ∧ List.Forall₂ S xs ys := by
  constructor
  · intro h
    exact ⟨h.imp fun _ _ ↦ And.left, h.imp fun _ _ ↦ And.right⟩
  · rintro ⟨hR, hS⟩
    induction hR with
    | nil => exact .nil
    | cons hhead _ ih =>
        rw [List.forall₂_cons] at hS
        exact .cons ⟨hhead, hS.1⟩ (ih hS.2)

theorem exists_of_mem_left {R : α → β → Prop} (h : List.Forall₂ R xs ys) {x : α} (hx : x ∈ xs) :
    ∃ y ∈ ys, R x y := by
  induction h with
  | nil => cases hx
  | cons hhead _ ih =>
      rcases List.mem_cons.mp hx with rfl | hx
      · exact ⟨_, List.mem_cons_self, hhead⟩
      · obtain ⟨y, hy, hR⟩ := ih hx
        exact ⟨y, List.mem_cons_of_mem _ hy, hR⟩

theorem exists_of_mem_right {R : α → β → Prop} (h : List.Forall₂ R xs ys) {y : β}
    (hy : y ∈ ys) : ∃ x ∈ xs, R x y :=
  exists_of_mem_left h.flip hy

end Result
