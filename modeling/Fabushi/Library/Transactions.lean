import Fabushi.Library.Effects
import Fabushi.Library.Result

/-!
# Computations that fail without a trace

`Atomic m s` says that `m`, started in `s`, leaves `s` behind when it fails. It is proved
along the steps of the computation: checks and lookups read the state only, and behind
the first write nothing may fail any more. A successful run is inverted by the same steps.
-/

namespace Transactions

open Effects Result

variable {ε σ α β : Type} {s t : σ} {b : β}

/-! ## Failing without a trace -/

def Atomic (m : Eff ε σ α) (s : σ) : Prop :=
  ∀ e t, Yields m s (.error e) t → t = s

theorem atomic_throw (e : ε) : Atomic (throw e : Eff ε σ α) s := by
  intro e' t h
  exact h.eq.2.symm

theorem atomic_of_yields {m : Eff ε σ α} {a : α} (h : Yields m s (.ok a) t) : Atomic m s := by
  intro e u hfails
  have hresult := hfails.eq.1
  rw [h.eq.1] at hresult
  cases hresult

theorem atomic_get_bind {f : σ → Eff ε σ β} : Atomic (get >>= f) s ↔ Atomic (f s) s :=
  Iff.rfl

theorem atomic_orThrow_bind {δ : Type} {wrap : δ → ε} {x : Except δ α} {f : α → Eff ε σ β}
    (h : ∀ a, x = .ok a → Atomic (f a) s) : Atomic (orThrow wrap x >>= f) s := by
  intro e t hfails
  rcases yields_orThrow_bind.mp hfails with ⟨a, hx, hfails⟩ | ⟨_, -, -, hunchanged⟩
  · exact h a hx e t hfails
  · exact hunchanged

theorem Atomic.map {m : Eff ε σ α} (h : Atomic m s) (g : α → β) : Atomic (g <$> m) s := by
  intro e t hfails
  obtain ⟨r, hrun, hr⟩ := yields_map.mp hfails
  cases r with
  | error e' => exact h e' t hrun
  | ok a => cases hr

/-! ## Inverting a success -/

theorem yields_orThrow_bind_ok {δ : Type} {wrap : δ → ε} {x : Except δ α} {f : α → Eff ε σ β} :
    Yields (orThrow wrap x >>= f) s (.ok b) t ↔ ∃ a, x = .ok a ∧ Yields (f a) s (.ok b) t := by
  rw [yields_orThrow_bind]
  constructor
  · rintro (h | ⟨_, -, hr, -⟩)
    · exact h
    · cases hr
  · exact Or.inl

theorem yields_ensure_bind_ok {p : Prop} [Decidable p] {e : ε} {f : Unit → Eff ε σ β} :
    Yields (orThrow id (ensure p e) >>= f) s (.ok b) t ↔ p ∧ Yields (f ()) s (.ok b) t := by
  rw [yields_orThrow_bind_ok]
  constructor
  · rintro ⟨_, hp, h⟩
    exact ⟨ensure_eq_ok.mp hp, h⟩
  · rintro ⟨hp, h⟩
    exact ⟨(), ensure_eq_ok.mpr hp, h⟩

theorem yields_map_ok {m : Eff ε σ α} {g : α → β} :
    Yields (g <$> m) s (.ok b) t ↔ ∃ a, Yields m s (.ok a) t ∧ b = g a := by
  rw [yields_map]
  constructor
  · rintro ⟨r, hrun, hr⟩
    cases r with
    | error e => cases hr
    | ok a => exact ⟨a, hrun, Except.ok.inj hr⟩
  · rintro ⟨a, hrun, rfl⟩
    exact ⟨.ok a, hrun, rfl⟩

theorem not_yields_throw_ok {e : ε} {a : α} : ¬ Yields (throw e : Eff ε σ α) s (.ok a) t := by
  intro h
  cases h.eq.1

/-! ## Other errors -/

theorem mapError_eq_ok {δ : Type} {wrap : δ → ε} {x : Except δ α} {a : α} :
    x.mapError wrap = .ok a ↔ x = .ok a := by
  cases x with
  | error e => simp [Except.mapError]
  | ok a' => simp [Except.mapError]

theorem yields_adapt_ok {δ : Type} {wrap : δ → ε} {m : Eff δ σ α} {a : α} :
    Yields (ExceptT.adapt wrap m) s (.ok a) t ↔ Yields m s (.ok a) t := by
  have hadapt : (ExceptT.adapt wrap m).run.run s = ((result m s).mapError wrap, after m s) := rfl
  have hself := yields_self m s
  unfold Yields at hself ⊢
  rw [hadapt, hself]
  cases result m s with
  | error e =>
      constructor
      · intro h
        cases congrArg Prod.fst h
      · intro h
        cases congrArg Prod.fst h
  | ok a' =>
      change (Except.ok a', after m s) = (Except.ok a, t) ↔ _
      rw [Prod.mk.injEq, Prod.mk.injEq, Except.ok.injEq, Except.ok.injEq]

end Transactions
