import Mathlib

/-!
# Runs of a deterministic machine

A machine is a total step function; a run feeds it a list of inputs. A step
whose precondition is a property of the pre-state and the input is collected
over a run by `Along`.
-/

namespace Runs

variable {σ ι : Type*} (step : σ → ι → σ)

def run (s : σ) (inputs : List ι) : σ :=
  inputs.foldl step s

@[simp] theorem run_nil (s : σ) : run step s [] = s := rfl

@[simp] theorem run_cons (s : σ) (i : ι) (inputs : List ι) :
    run step s (i :: inputs) = run step (step s i) inputs := rfl

theorem run_append (s : σ) (xs ys : List ι) :
    run step s (xs ++ ys) = run step (run step s xs) ys := by
  simp [run]

/-- Every step of the run satisfies `P` at the state it is taken from. -/
def Along (P : σ → ι → Prop) : σ → List ι → Prop
  | _, [] => True
  | s, i :: inputs => P s i ∧ Along P (step s i) inputs

instance decidableAlong {P : σ → ι → Prop} [∀ s i, Decidable (P s i)] :
    ∀ (s : σ) (inputs : List ι), Decidable (Along step P s inputs)
  | _, [] => isTrue trivial
  | s, i :: inputs => @instDecidableAnd _ _ _ (decidableAlong (step s i) inputs)

theorem along_append {P : σ → ι → Prop} (s : σ) (xs ys : List ι) :
    Along step P s (xs ++ ys) ↔ Along step P s xs ∧ Along step P (run step s xs) ys := by
  induction xs generalizing s with
  | nil => simp [Along]
  | cons i xs ih => simp [Along, ih, and_assoc]

theorem along_of_forall_mem {P : σ → ι → Prop} {inputs : List ι}
    (h : ∀ i ∈ inputs, ∀ s, P s i) (s : σ) : Along step P s inputs := by
  induction inputs generalizing s with
  | nil => trivial
  | cons i inputs ih =>
      exact ⟨h i List.mem_cons_self s, ih (fun j hj ↦ h j (List.mem_cons_of_mem i hj)) _⟩

variable {step} in
theorem Along.imp {P Q : σ → ι → Prop} (hPQ : ∀ s i, P s i → Q s i) {s : σ} {inputs : List ι}
    (h : Along step P s inputs) : Along step Q s inputs := by
  induction inputs generalizing s with
  | nil => trivial
  | cons i inputs ih => exact ⟨hPQ s i h.1, ih h.2⟩

variable {step} in
theorem Along.and {P Q : σ → ι → Prop} {s : σ} {inputs : List ι} (hP : Along step P s inputs)
    (hQ : Along step Q s inputs) : Along step (fun s i ↦ P s i ∧ Q s i) s inputs := by
  induction inputs generalizing s with
  | nil => trivial
  | cons i inputs ih => exact ⟨⟨hP.1, hQ.1⟩, ih hP.2 hQ.2⟩

def Takes (s : σ) (inputs : List ι) (t : σ) (i : ι) : Prop :=
  ∃ xs ys, inputs = xs ++ i :: ys ∧ t = run step s xs

variable {step}

/-- Two promises that agree on each admitted step from a good state agree on admitted runs. -/
theorem along_iff_along {P Q A : σ → ι → Prop} {G : σ → Prop}
    (hiff : ∀ s i, G s → A s i → (P s i ↔ Q s i))
    (hstep : ∀ s i, G s → A s i → Q s i → G (step s i)) {s : σ} (hs : G s) {inputs : List ι}
    (hadmitted : Along step A s inputs) : Along step P s inputs ↔ Along step Q s inputs := by
  induction inputs generalizing s with
  | nil => rfl
  | cons i inputs ih =>
      refine (and_congr_left' (hiff s i hs hadmitted.1)).trans (and_congr_right fun hi ↦ ?_)
      exact ih (hstep s i hs hadmitted.1 hi) hadmitted.2

theorem Along.takes {P : σ → ι → Prop} {s t : σ} {inputs : List ι} {i : ι}
    (hrun : Along step P s inputs) (ht : Takes step s inputs t i) : P t i := by
  obtain ⟨xs, ys, rfl, rfl⟩ := ht
  exact ((along_append step s xs (i :: ys)).mp hrun).2.1

theorem invariant_along {P : σ → ι → Prop} {I : σ → Prop}
    (hstep : ∀ s i, I s → P s i → I (step s i)) {s : σ} (hs : I s)
    {inputs : List ι} (hrun : Along step P s inputs) : I (run step s inputs) := by
  induction inputs generalizing s with
  | nil => exact hs
  | cons i inputs ih => exact ih (hstep s i hs hrun.1) hrun.2

theorem invariant_takes {P : σ → ι → Prop} {I : σ → Prop}
    (hstep : ∀ s i, I s → P s i → I (step s i)) {s t : σ} (hs : I s) {inputs : List ι} {i : ι}
    (hrun : Along step P s inputs) (ht : Takes step s inputs t i) : I t := by
  obtain ⟨xs, ys, rfl, rfl⟩ := ht
  exact invariant_along hstep hs ((along_append step s xs (i :: ys)).mp hrun).1

theorem invariant {I : σ → Prop} (hstep : ∀ s i, I s → I (step s i)) {s : σ} (hs : I s)
    (inputs : List ι) : I (run step s inputs) := by
  induction inputs generalizing s with
  | nil => exact hs
  | cons i inputs ih => exact ih (hstep s i hs)

end Runs

/-!
## The exact condition of an invariant

A property that exactly the steps with a condition keep holds at every point of a run
exactly when all its steps meet the condition.
-/

namespace Runs

variable {σ ι : Type*} {step : σ → ι → σ} {J I : σ → Prop} {P : σ → ι → Prop}

theorem forall_front_iff_along (hJ : ∀ s i, J s → J (step s i))
    (hstep : ∀ s i, J s → I s → (I (step s i) ↔ P s i)) {s : σ} (hj : J s) (hs : I s)
    (inputs : List ι) :
    (∀ front back, inputs = front ++ back → I (run step s front)) ↔ Along step P s inputs := by
  induction inputs generalizing s with
  | nil =>
      refine iff_of_true (fun front back hnil ↦ ?_) trivial
      rw [(List.append_eq_nil_iff.mp hnil.symm).1]
      exact hs
  | cons i inputs ih =>
      constructor
      · intro h
        have hfirst : I (step s i) := h [i] inputs rfl
        refine ⟨(hstep s i hj hs).mp hfirst, (ih (hJ s i hj) hfirst).mp ?_⟩
        rintro front back rfl
        exact h (i :: front) back rfl
      · rintro ⟨hi, hrest⟩ front back hsplit
        have hfirst : I (step s i) := (hstep s i hj hs).mpr hi
        cases front with
        | nil => exact hs
        | cons j front =>
            obtain ⟨rfl, htail⟩ := List.cons.inj hsplit
            exact (ih (hJ s i hj) hfirst).mpr hrest front back htail

variable {R : σ → σ → Prop}

/-- What relates a state to all later ones is kept by all stretches of a run exactly when each
step keeps it. -/
theorem forall_stretch_iff_along (hrefl : ∀ s, R s s) (htrans : ∀ s t u, R s t → R t u → R s u)
    (hstep : ∀ s i, R s (step s i) ↔ P s i) {s : σ} {inputs : List ι} :
    (∀ front middle back, inputs = front ++ (middle ++ back) →
      R (run step s front) (run step (run step s front) middle)) ↔ Along step P s inputs := by
  induction inputs generalizing s with
  | nil =>
      refine iff_of_true (fun front middle back hnil ↦ ?_) trivial
      have hmiddle := (List.append_eq_nil_iff.mp (List.append_eq_nil_iff.mp hnil.symm).2).1
      rw [hmiddle]
      exact hrefl _
  | cons i inputs ih =>
      constructor
      · intro h
        refine ⟨(hstep s i).mp (h [] [i] inputs rfl), ih.mp ?_⟩
        rintro front middle back rfl
        exact h (i :: front) middle back rfl
      · rintro ⟨hi, hrest⟩ front middle back hsplit
        have hlater := ih.mpr hrest
        cases front with
        | cons j front =>
            obtain ⟨rfl, htail⟩ := List.cons.inj hsplit
            exact hlater front middle back htail
        | nil =>
            cases middle with
            | nil => exact hrefl s
            | cons j middle =>
                obtain ⟨rfl, htail⟩ := List.cons.inj hsplit
                exact htrans _ _ _ ((hstep s i).mpr hi) (hlater [] middle back htail)

end Runs
