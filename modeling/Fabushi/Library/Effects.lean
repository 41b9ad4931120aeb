import Mathlib

/-!
# Computations that keep their state when they fail

A method on a mutable receiver with early returns is a computation in
`ExceptT ε (StateM σ)`: a failure leaves behind whatever was written before it.
`Changes R m` says that every run of `m`, failing or not, takes the state along
`R`; for a reflexive and transitive `R` it is proved step by step.
-/

namespace Effects

variable {ε σ α β : Type} {R : σ → σ → Prop}

abbrev Eff (ε σ : Type) := ExceptT ε (StateM σ)

def after (m : Eff ε σ α) (s : σ) : σ :=
  (m.run.run s).2

def result (m : Eff ε σ α) (s : σ) : Except ε α :=
  (m.run.run s).1

def Changes (R : σ → σ → Prop) (m : Eff ε σ α) : Prop :=
  ∀ s, R s (after m s)

def orThrow {δ : Type} (wrap : δ → ε) (x : Except δ α) : Eff ε σ α :=
  match x with
  | .ok a => pure a
  | .error e => throw (wrap e)

/-! ## Running a computation -/

@[simp] theorem after_get_bind (f : σ → Eff ε σ β) (s : σ) :
    after (get >>= f) s = after (f s) s := rfl

@[simp] theorem result_get_bind (f : σ → Eff ε σ β) (s : σ) :
    result (get >>= f) s = result (f s) s := rfl

@[simp] theorem after_modify_bind (g : σ → σ) (f : PUnit → Eff ε σ β) (s : σ) :
    after (modify g >>= f) s = after (f ⟨⟩) (g s) := rfl

@[simp] theorem result_modify_bind (g : σ → σ) (f : PUnit → Eff ε σ β) (s : σ) :
    result (modify g >>= f) s = result (f ⟨⟩) (g s) := rfl

@[simp] theorem after_orThrow {δ : Type} (wrap : δ → ε) (x : Except δ α) (s : σ) :
    after (orThrow wrap x) s = s := by
  cases x <;> rfl

@[simp] theorem result_orThrow {δ : Type} (wrap : δ → ε) (x : Except δ α) (s : σ) :
    result (orThrow wrap x) s = x.mapError wrap := by
  cases x <;> rfl

theorem after_bind_ok {m : Eff ε σ α} {f : α → Eff ε σ β} {s : σ} {a : α}
    (h : result m s = .ok a) : after (m >>= f) s = after (f a) (after m s) := by
  simp only [result] at h
  simp only [after, ExceptT.run_bind, StateT.run_bind]
  cases hm : m.run.run s with
  | mk r s' =>
      rw [hm] at h
      cases h
      rfl

theorem result_bind_ok {m : Eff ε σ α} {f : α → Eff ε σ β} {s : σ} {a : α}
    (h : result m s = .ok a) : result (m >>= f) s = result (f a) (after m s) := by
  simp only [result] at h
  simp only [result, after, ExceptT.run_bind, StateT.run_bind]
  cases hm : m.run.run s with
  | mk r s' =>
      rw [hm] at h
      cases h
      rfl

theorem after_bind_error {m : Eff ε σ α} {f : α → Eff ε σ β} {s : σ} {e : ε}
    (h : result m s = .error e) : after (m >>= f) s = after m s := by
  simp only [result] at h
  simp only [after, ExceptT.run_bind, StateT.run_bind]
  cases hm : m.run.run s with
  | mk r s' =>
      rw [hm] at h
      cases h
      rfl

theorem result_bind_error {m : Eff ε σ α} {f : α → Eff ε σ β} {s : σ} {e : ε}
    (h : result m s = .error e) : result (m >>= f) s = .error e := by
  simp only [result] at h
  simp only [result, ExceptT.run_bind, StateT.run_bind]
  cases hm : m.run.run s with
  | mk r s' =>
      rw [hm] at h
      cases h
      rfl

theorem result_bind_pure (m : Eff ε σ α) (f : α → β) (s : σ) :
    result (m >>= fun a ↦ pure (f a)) s = (result m s).map f := by
  cases h : result m s with
  | ok a => rw [result_bind_ok h]; rfl
  | error e => rw [result_bind_error h]; rfl

theorem after_bind_pure (m : Eff ε σ α) (f : α → β) (s : σ) :
    after (m >>= fun a ↦ pure (f a)) s = after m s := by
  cases h : result m s with
  | ok a => rw [after_bind_ok h]; rfl
  | error e => rw [after_bind_error h]

/-! ## Rules for `Changes` -/

theorem changes_pure (hrefl : ∀ s, R s s) (a : α) : Changes R (pure a : Eff ε σ α) :=
  fun s ↦ hrefl s

theorem changes_throw (hrefl : ∀ s, R s s) (e : ε) : Changes R (throw e : Eff ε σ α) :=
  fun s ↦ hrefl s

theorem changes_get (hrefl : ∀ s, R s s) : Changes R (get : Eff ε σ σ) :=
  fun s ↦ hrefl s

theorem changes_modify {f : σ → σ} (h : ∀ s, R s (f s)) :
    Changes R (modify f : Eff ε σ PUnit) :=
  fun s ↦ h s

theorem changes_orThrow {δ : Type} (hrefl : ∀ s, R s s) (wrap : δ → ε) (x : Except δ α) :
    Changes R (orThrow wrap x : Eff ε σ α) := by
  cases x with
  | ok a => exact changes_pure hrefl a
  | error e => exact changes_throw hrefl (wrap e)

/-- The composition rule: the first part moves along `P`, the rest along `Q`. -/
theorem changes_bind {P Q : σ → σ → Prop} (hleft : ∀ s t, P s t → R s t)
    (hcomp : ∀ s t u, P s t → Q t u → R s u) {m : Eff ε σ α} {f : α → Eff ε σ β}
    (hm : Changes P m) (hf : ∀ a, Changes Q (f a)) : Changes R (m >>= f) := by
  intro s
  cases h : result m s with
  | ok a =>
      rw [after_bind_ok h]
      exact hcomp _ _ _ (hm s) (hf a _)
  | error e =>
      rw [after_bind_error h]
      exact hleft _ _ (hm s)

/-! ## Inverting a run -/

def Yields (m : Eff ε σ α) (s : σ) (r : Except ε α) (t : σ) : Prop :=
  m.run.run s = (r, t)

theorem yields_self (m : Eff ε σ α) (s : σ) : Yields m s (result m s) (after m s) := rfl

theorem Yields.eq {m : Eff ε σ α} {s t : σ} {r : Except ε α} (h : Yields m s r t) :
    result m s = r ∧ after m s = t :=
  ⟨congrArg Prod.fst h, congrArg Prod.snd h⟩

theorem yields_pure {a : α} {s t : σ} {r : Except ε α} :
    Yields (pure a : Eff ε σ α) s r t ↔ r = .ok a ∧ t = s := by
  change ((Except.ok a, s) : Except ε α × σ) = (r, t) ↔ _
  rw [Prod.mk.injEq, eq_comm, eq_comm (a := s)]

theorem yields_get_bind {f : σ → Eff ε σ β} {s t : σ} {r : Except ε β} :
    Yields (get >>= f) s r t ↔ Yields (f s) s r t := Iff.rfl

theorem yields_modify_bind {g : σ → σ} {f : PUnit → Eff ε σ β} {s t : σ} {r : Except ε β} :
    Yields (modify g >>= f) s r t ↔ Yields (f ⟨⟩) (g s) r t := Iff.rfl

theorem yields_orThrow_bind {δ : Type} {wrap : δ → ε} {x : Except δ α} {f : α → Eff ε σ β}
    {s t : σ} {r : Except ε β} :
    Yields (orThrow wrap x >>= f) s r t ↔
      (∃ a, x = .ok a ∧ Yields (f a) s r t) ∨ ∃ e, x = .error e ∧ r = .error (wrap e) ∧ t = s := by
  cases x with
  | ok a =>
      change Yields (f a) s r t ↔ _
      simp
  | error e =>
      change ((Except.error (wrap e), s) : Except ε β × σ) = (r, t) ↔ _
      rw [Prod.mk.injEq, eq_comm, eq_comm (a := s)]
      simp

theorem yields_map {g : α → β} {m : Eff ε σ α} {s t : σ} {r : Except ε β} :
    Yields (g <$> m) s r t ↔ ∃ r', Yields m s r' t ∧ r = r'.map g := by
  have hmap : (g <$> m : Eff ε σ β).run.run s = ((result m s).map g, after m s) := by
    simp only [result, after, ExceptT.run_map, StateT.run_map]
    rfl
  unfold Yields
  rw [hmap]
  constructor
  · rintro ⟨rfl, rfl⟩
    exact ⟨_, rfl, rfl⟩
  · rintro ⟨r', hrun, rfl⟩
    simp [result, after, hrun]

/-!
## Loops that keep their state when they fail

A loop over a list runs its body on one element after the other and stops at the first failure.
`yields_forM_ok` is the invariant rule of such a loop, over what is done so far;
`yields_forM_error` says what is left behind when one element fails.
-/

theorem yields_bind_of_ok {m : Eff ε σ α} {f : α → Eff ε σ β} {s t : σ} {a : α}
    (h : Yields m s (.ok a) t) (r : Except ε β) (u : σ) :
    Yields (m >>= f) s r u ↔ Yields (f a) t r u := by
  obtain ⟨hresult, hafter⟩ := h.eq
  have hbind : (m >>= f).run.run s = (f a).run.run t := by
    apply Prod.ext
    · change result (m >>= f) s = result (f a) t
      rw [result_bind_ok hresult, hafter]
    · change after (m >>= f) s = after (f a) t
      rw [after_bind_ok hresult, hafter]
  unfold Yields
  rw [hbind]

theorem yields_bind_of_error {m : Eff ε σ α} {s t : σ} {e : ε} (h : Yields m s (.error e) t)
    (f : α → Eff ε σ β) : Yields (m >>= f) s (.error e) t := by
  obtain ⟨hresult, hafter⟩ := h.eq
  apply Prod.ext
  · exact result_bind_error hresult
  · exact (after_bind_error hresult).trans hafter

theorem Yields.unique {m : Eff ε σ α} {s t u : σ} {r q : Except ε α} (h : Yields m s r t)
    (h' : Yields m s q u) : r = q ∧ t = u :=
  Prod.mk.inj (h.symm.trans h')

/-- Replace the state by what an operation makes of it, or fail with its error. -/
def change {δ : Type} (wrap : δ → ε) (op : σ → Except δ σ) : Eff ε σ PUnit := do
  let s ← get
  let t ← orThrow wrap (op s)
  modify fun _ ↦ t

theorem yields_change_ok {δ : Type} {wrap : δ → ε} {op : σ → Except δ σ} {s t : σ}
    (h : op s = .ok t) : Yields (change wrap op) s (.ok ⟨⟩) t := by
  unfold change
  rw [yields_get_bind, yields_orThrow_bind]
  exact Or.inl ⟨t, h, rfl⟩

theorem yields_change_error {δ : Type} {wrap : δ → ε} {op : σ → Except δ σ} {s : σ} {e : δ}
    (h : op s = .error e) : Yields (change wrap op) s (.error (wrap e)) s := by
  unfold change
  rw [yields_get_bind, yields_orThrow_bind]
  exact Or.inr ⟨e, h, rfl, rfl⟩

/-! ## Loops -/

theorem yields_forM_nil (f : α → Eff ε σ PUnit) (s : σ) :
    Yields (([] : List α).forM f) s (.ok ⟨⟩) s := rfl

theorem yields_forM_cons {f : α → Eff ε σ PUnit} {a : α} {xs : List α} {s t u : σ}
    {r : Except ε PUnit} (ha : Yields (f a) s (.ok ⟨⟩) t) (hxs : Yields (xs.forM f) t r u) :
    Yields ((a :: xs).forM f) s r u :=
  (yields_bind_of_ok ha r u).mpr hxs

/-- The invariant rule: `I done s` holds whenever the elements `done` have been gone through. -/
theorem yields_forM_ok {f : α → Eff ε σ PUnit} {I : List α → σ → Prop} {xs : List α}
    (done : List α)
    (hstep : ∀ (before rest : List α) (a : α) (s : σ), done ++ xs = before ++ a :: rest →
      I before s → ∃ t, Yields (f a) s (.ok ⟨⟩) t ∧ I (before ++ [a]) t)
    {s : σ} (hs : I done s) : ∃ t, Yields (xs.forM f) s (.ok ⟨⟩) t ∧ I (done ++ xs) t := by
  induction xs generalizing done s with
  | nil =>
      refine ⟨s, yields_forM_nil f s, ?_⟩
      rw [List.append_nil]
      exact hs
  | cons a xs ih =>
      obtain ⟨t, ha, ht⟩ := hstep done xs a s rfl hs
      have happend : done ++ a :: xs = (done ++ [a]) ++ xs := by simp
      rw [happend] at hstep
      obtain ⟨u, hxs, hu⟩ := ih (done ++ [a]) hstep ht
      refine ⟨u, yields_forM_cons ha hxs, ?_⟩
      rw [happend]
      exact hu

/-- A loop fails with its first failing element. -/
theorem yields_forM_error {f : α → Eff ε σ PUnit} {done rest : List α} {a : α} {s t u : σ} {e : ε}
    (hdone : Yields (done.forM f) s (.ok ⟨⟩) t) (ha : Yields (f a) t (.error e) u) :
    Yields ((done ++ a :: rest).forM f) s (.error e) u := by
  induction done generalizing s with
  | nil =>
      obtain ⟨-, rfl⟩ := (yields_forM_nil f s).unique hdone
      exact yields_bind_of_error ha _
  | cons b done ih =>
      cases hb : result (f b) s with
      | error e' =>
          have hfail := yields_bind_of_error (s := s) (m := f b) (e := e') (t := after (f b) s)
            (by rw [← hb]; exact yields_self _ _) fun _ ↦ done.forM f
          obtain ⟨hne, -⟩ := hfail.unique hdone
          cases hne
      | ok x =>
          have hok : Yields (f b) s (.ok ⟨⟩) (after (f b) s) := by
            have hself := yields_self (f b) s
            rw [hb] at hself
            exact hself
          exact yields_forM_cons hok (ih ((yields_bind_of_ok hok _ _).mp hdone))

/-- The invariant rule of a loop that carries a value along. -/
theorem yields_foldlM_ok {f : β → α → Eff ε σ β} {I : List α → β → σ → Prop} {xs : List α}
    (done : List α)
    (hstep : ∀ (before rest : List α) (a : α) (b : β) (s : σ), done ++ xs = before ++ a :: rest →
      I before b s → ∃ c t, Yields (f b a) s (.ok c) t ∧ I (before ++ [a]) c t)
    {b : β} {s : σ} (hs : I done b s) :
    ∃ c t, Yields (xs.foldlM f b) s (.ok c) t ∧ I (done ++ xs) c t := by
  induction xs generalizing done b s with
  | nil =>
      refine ⟨b, s, rfl, ?_⟩
      rw [List.append_nil]
      exact hs
  | cons a xs ih =>
      obtain ⟨c, t, ha, ht⟩ := hstep done xs a b s rfl hs
      have happend : done ++ a :: xs = (done ++ [a]) ++ xs := by simp
      rw [happend] at hstep
      obtain ⟨d, u, hxs, hu⟩ := ih (done ++ [a]) hstep ht
      refine ⟨d, u, ?_, ?_⟩
      · rw [List.foldlM_cons]
        exact (yields_bind_of_ok ha _ _).mpr hxs
      · rw [happend]
        exact hu

end Effects
