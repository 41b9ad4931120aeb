import Mathlib

/-!
# Programs that are cut off

A program looks at a store and acts on it, and every action may fail. It is played with the
outcomes of its actions: where they end before the program does, it was cut off there.
`Keeps` says what is true wherever a program is cut off, and what is true when it ends.
-/

namespace Crashes

variable {δ α φ ε ρ : Type}

/-- A result, a look at the store, or an action and what follows its answer. -/
inductive Prog (δ α ε ρ : Type) : Type
  | ret (r : ρ)
  | look (next : δ → Prog δ α ε ρ)
  | act (a : α) (next : Except ε Unit → Prog δ α ε ρ)

namespace Prog

/-- An action whose failure ends the program. -/
def attempt {τ : Type} (a : α) (label : ε → τ) (next : Prog δ α ε (Except τ ρ)) :
    Prog δ α ε (Except τ ρ) :=
  .act a fun answer ↦ match answer with
    | .ok _ => next
    | .error e => .ret (.error (label e))

/-- An action whose failure is ignored. -/
def ignore (a : α) (next : Prog δ α ε ρ) : Prog δ α ε ρ :=
  .act a fun _ ↦ next

/-- A part that is only run when the store asks for it. -/
def onlyIf (p : δ → Bool) (part : Prog δ α ε ρ → Prog δ α ε ρ) (next : Prog δ α ε ρ) :
    Prog δ α ε ρ :=
  .look fun d ↦ if p d then part next else next

end Prog

variable (exec : α → φ → δ → δ × Except ε Unit)

/-- The store a program leaves behind, and its result if it was not cut off. -/
def play : Prog δ α ε ρ → δ → List φ → δ × Option ρ
  | .ret r, d, _ => (d, some r)
  | .look next, d, outcomes => play (next d) d outcomes
  | .act _ _, d, [] => (d, none)
  | .act a next, d, f :: outcomes =>
      play (next (exec a f d).2) (exec a f d).1 outcomes

/-- Under outcomes in `S` the program keeps `I` wherever it is cut off, and ends with `Q`. -/
def Keeps (S : List φ → Prop) (I : δ → Prop) (Q : ρ → δ → Prop) (p : Prog δ α ε ρ) (d : δ) :
    Prop :=
  ∀ outcomes, S outcomes → I (play exec p d outcomes).1 ∧
    ∀ r ∈ (play exec p d outcomes).2, Q r (play exec p d outcomes).1

variable {exec} {S : List φ → Prop} {I : δ → Prop} {Q : ρ → δ → Prop} {d : δ}

theorem keeps_ret {r : ρ} (hI : I d) (hQ : Q r d) : Keeps exec S I Q (.ret r) d := by
  intro outcomes _
  rw [play]
  refine ⟨hI, ?_⟩
  rintro r' ⟨⟩
  exact hQ

theorem keeps_look {next : δ → Prog δ α ε ρ} (h : Keeps exec S I Q (next d) d) :
    Keeps exec S I Q (.look next) d := by
  intro outcomes hS
  rw [play]
  exact h outcomes hS

theorem keeps_act {a : α} {next : Except ε Unit → Prog δ α ε ρ} (hcut : S [] → I d)
    (h : ∀ f, Keeps exec (fun outcomes ↦ S (f :: outcomes)) I Q (next (exec a f d).2)
      (exec a f d).1) : Keeps exec S I Q (.act a next) d := by
  intro outcomes hS
  cases outcomes with
  | nil =>
      rw [play]
      exact ⟨hcut hS, fun _ hr ↦ by cases hr⟩
  | cons f outcomes =>
      rw [play]
      exact h f outcomes hS

/-- An action that may fail: a failure ends the program with the store it leaves. -/
theorem keeps_attempt {τ : Type} {Q : Except τ ρ → δ → Prop} {a : α} {label : ε → τ}
    {next : Prog δ α ε (Except τ ρ)} (hcut : S [] → I d)
    (hfails : ∀ f e, (exec a f d).2 = .error e →
      I (exec a f d).1 ∧ Q (.error (label e)) (exec a f d).1)
    (hdone : ∀ f, (exec a f d).2 = .ok () →
      Keeps exec (fun outcomes ↦ S (f :: outcomes)) I Q next (exec a f d).1) :
    Keeps exec S I Q (.attempt a label next) d := by
  apply keeps_act hcut
  intro f
  cases hanswer : (exec a f d).2 with
  | error e => exact keeps_ret (hfails f e hanswer).1 (hfails f e hanswer).2
  | ok u => exact hdone f hanswer

end Crashes
