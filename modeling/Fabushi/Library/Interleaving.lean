import Fabushi.Library.Runs

/-!
# Interleaved programs over shared data

A request handler is a program of atomic operations on shared data: it performs one,
looks at the answer and goes on, while other programs run in between. `Safe` is the
rely-guarantee rule: a program keeps the invariant and the guarantee at each of its
operations, from whatever data the guarantees of the others may have left.
-/

namespace Interleaving

variable {Op : Type} {Ans : Op → Type} {ρ σ δ κ : Type}

/-- A result, or an operation and what follows its answer. -/
inductive Prog (Op : Type) (Ans : Op → Type) (ρ : Type) : Type
  | ret (r : ρ)
  | call (op : Op) (next : Ans op → Prog Op Ans ρ)

namespace Prog

def bind : Prog Op Ans ρ → (ρ → Prog Op Ans σ) → Prog Op Ans σ
  | .ret r, f => f r
  | .call op next, f => .call op fun a ↦ (next a).bind f

instance : Monad (Prog Op Ans) where
  pure := .ret
  bind := bind

def perform (op : Op) : Prog Op Ans (Ans op) :=
  .call op .ret

@[simp] theorem pure_eq (r : ρ) : (pure r : Prog Op Ans ρ) = .ret r := rfl

@[simp] theorem ret_bind (r : ρ) (f : ρ → Prog Op Ans σ) : (Prog.ret r >>= f) = f r := rfl

@[simp] theorem call_bind (op : Op) (next : Ans op → Prog Op Ans ρ) (f : ρ → Prog Op Ans σ) :
    (Prog.call op next >>= f) = .call op fun a ↦ next a >>= f := rfl

@[simp] theorem perform_bind (op : Op) (f : Ans op → Prog Op Ans σ) :
    (perform op >>= f) = .call op f := rfl

theorem bind_bind {τ : Type} (p : Prog Op Ans ρ) (f : ρ → Prog Op Ans σ) (g : σ → Prog Op Ans τ) :
    (p >>= f) >>= g = p >>= fun r ↦ f r >>= g := by
  induction p with
  | ret r => rfl
  | call op next ih => exact congrArg (Prog.call op) (funext ih)

end Prog

def tagged (call : κ) (p : Prog Op Ans ρ) : Prog Op Ans (κ × ρ) :=
  p >>= fun r ↦ .ret (call, r)

@[simp] theorem tagged_ret (call : κ) (r : ρ) :
    tagged call (.ret r : Prog Op Ans ρ) = .ret (call, r) := rfl

@[simp] theorem tagged_call (call : κ) (op : Op) (next : Ans op → Prog Op Ans ρ) :
    tagged call (.call op next) = .call op fun a ↦ tagged call (next a) := rfl

/-- The data and the programs that run on it. -/
structure World (Op : Type) (Ans : Op → Type) (ρ δ : Type) where
  db : δ
  pool : List (Prog Op Ans ρ) := []

/-- What the scheduler does next; a stopped program is not run again. -/
inductive Event (κ : Type) where
  | start (call : κ)
  | step (i : ℕ)
  | stop (i : ℕ)
  deriving DecidableEq

variable (exec : (op : Op) → δ → δ × Ans op) (handler : κ → Prog Op Ans ρ)

def advance (d : δ) : Prog Op Ans ρ → δ × Prog Op Ans ρ
  | .ret r => (d, .ret r)
  | .call op next => ((exec op d).1, next (exec op d).2)

def World.next (w : World Op Ans ρ δ) : Event κ → World Op Ans ρ δ
  | .start call => { w with pool := w.pool ++ [handler call] }
  | .step i =>
      match w.pool[i]? with
      | none => w
      | some p =>
          { db := (advance exec w.db p).1, pool := w.pool.set i (advance exec w.db p).2 }
  | .stop i => { w with pool := w.pool.eraseIdx i }

def World.Performs (w : World Op Ans ρ δ) (e : Event κ) (op : Op) (rest : Prog Op Ans ρ) : Prop :=
  ∃ i next, e = .step i ∧ w.pool[i]? = some (.call op next) ∧ rest = next (exec op w.db).2

/-- The operation the event performs, if any, is one that `A` admits. -/
def Admits (A : δ → Op → Prop) (w : World Op Ans ρ δ) (e : Event κ) : Prop :=
  ∀ i op next, e = .step i → w.pool[i]? = some (.call op next) → A w.db op

def World.performed (w : World Op Ans ρ δ) : Event κ → Option Op
  | .step i =>
      match w.pool[i]? with
      | some (.call op _) => some op
      | _ => none
  | _ => none

def World.ends (w : World Op Ans ρ δ) : Event κ → Option (Op × ρ)
  | .step i =>
      match w.pool[i]? with
      | some (.call op next) =>
          match next (exec op w.db).2 with
          | .ret r => some (op, r)
          | .call _ _ => none
      | _ => none
  | _ => none

variable {exec} in
theorem World.ends_eq_some {w : World Op Ans ρ δ} {e : Event κ} {op : Op} {r : ρ} :
    w.ends exec e = some (op, r) ↔ w.Performs exec e op (.ret r) := by
  constructor
  · intro h
    unfold World.ends at h
    repeat' split at h
    all_goals try cases h
    rename_i i _ _ next hp hrest
    exact ⟨i, next, rfl, hp, hrest.symm⟩
  · rintro ⟨i, next, rfl, hp, hrest⟩
    simp [World.ends, hp, ← hrest]

theorem admits_iff_performed {A : δ → Op → Prop} {w : World Op Ans ρ δ} {e : Event κ} :
    Admits A w e ↔ ∀ op ∈ w.performed e, A w.db op := by
  constructor
  · intro h op hop
    unfold World.performed at hop
    repeat' split at hop
    all_goals try cases hop
    rename_i i _ next hp
    exact h i op next rfl hp
  · rintro h i op next rfl hp
    exact h op (by simp [World.performed, hp])

instance decidableAdmits {A : δ → Op → Prop} [∀ d op, Decidable (A d op)]
    (w : World Op Ans ρ δ) (e : Event κ) : Decidable (Admits A w e) :=
  decidable_of_iff (∀ op ∈ w.performed e, A w.db op) admits_iff_performed.symm

/-! ## Programs that perform certain operations only -/

/-- Whatever the answers are, the program performs operations of this kind only. -/
def Only (P : Op → Prop) : Prog Op Ans ρ → Prop
  | .ret _ => True
  | .call op next => P op ∧ ∀ a, Only P (next a)

def Starts (K : κ → Prop) : Event κ → Prop
  | .start call => K call
  | _ => True

theorem World.next_only {P : Op → Prop} {K : κ → Prop} (hstart : ∀ c, K c → Only P (handler c))
    {w : World Op Ans ρ δ} (h : ∀ p ∈ w.pool, Only P p) {e : Event κ} (he : Starts K e) :
    ∀ p ∈ (w.next exec handler e).pool, Only P p := by
  cases e with
  | start c =>
      intro p hp
      rcases List.mem_append.mp hp with hp | hp
      · exact h p hp
      · rw [List.mem_singleton.mp hp]
        exact hstart c he
  | stop i => exact fun p hp ↦ h p (List.mem_of_mem_eraseIdx hp)
  | step i =>
      simp only [World.next]
      cases hi : w.pool[i]? with
      | none => exact h
      | some p =>
          have hp := h p (List.mem_of_getElem? hi)
          intro q hq
          rcases List.mem_or_eq_of_mem_set hq with hq | rfl
          · exact h q hq
          · cases p with
            | ret r => trivial
            | call op next => exact hp.2 _

theorem along_only {P : Op → Prop} {K : κ → Prop} (hstart : ∀ c, K c → Only P (handler c))
    {w : World Op Ans ρ δ} (h : ∀ p ∈ w.pool, Only P p) {events : List (Event κ)}
    (hevents : ∀ e ∈ events, Starts K e) :
    Runs.Along (World.next exec handler) (Admits fun _ op ↦ P op) w events := by
  induction events generalizing w with
  | nil => trivial
  | cons e events ih =>
      have he := hevents e List.mem_cons_self
      refine ⟨?_, ih (w.next_only exec handler hstart h he) fun e' he' ↦
        hevents e' (List.mem_cons_of_mem _ he')⟩
      rintro i op next rfl hp
      exact (h _ (List.mem_of_getElem? hp)).1

/-! ## The rule -/

/-- The data of a proof: invariant, guarantee, admitted operations and what each
operation of a program has to show about itself and about what is left to do. -/
structure Contract (Op : Type) (Ans : Op → Type) (ρ δ : Type) where
  inv : δ → Prop
  guarantee : δ → δ → Prop
  admits : δ → Op → Prop
  shows : δ → Op → δ → Prog Op Ans ρ → Prop
  refl : ∀ d, guarantee d d
  trans : ∀ d₁ d₂ d₃, guarantee d₁ d₂ → guarantee d₂ d₃ → guarantee d₁ d₃

variable {exec handler} {C : Contract Op Ans ρ δ}

variable (exec C) in
/-- The program keeps the contract from data `d` on, whatever the others do. -/
def Safe : Prog Op Ans ρ → δ → Prop
  | .ret _, _ => True
  | .call op next, d => ∀ d', C.guarantee d d' → C.inv d' → C.admits d' op →
      C.inv (exec op d').1 ∧ C.guarantee d' (exec op d').1 ∧
        C.shows d' op (exec op d').1 (next (exec op d').2) ∧
        Safe (next (exec op d').2) (exec op d').1

@[simp] theorem safe_ret (r : ρ) (d : δ) : Safe exec C (.ret r) d := trivial

theorem Safe.mono {p : Prog Op Ans ρ} {d d' : δ} (h : Safe exec C p d)
    (hd : C.guarantee d d') : Safe exec C p d' := by
  cases p with
  | ret r => trivial
  | call op next =>
      intro d'' hd'' hinv hadmits
      exact h d'' (C.trans d d' d'' hd hd'') hinv hadmits

variable (exec C) in
/-- The invariant holds and every running program is safe. -/
structure WorldSafe (w : World Op Ans ρ δ) : Prop where
  inv : C.inv w.db
  pool : ∀ p ∈ w.pool, Safe exec C p w.db

theorem WorldSafe.performs {w : World Op Ans ρ δ} (h : WorldSafe exec C w) {e : Event κ} {op : Op}
    {rest : Prog Op Ans ρ} (hop : w.Performs exec e op rest) (hadmits : Admits C.admits w e) :
    C.guarantee w.db (exec op w.db).1 ∧ C.shows w.db op (exec op w.db).1 rest := by
  obtain ⟨i, next, rfl, hp, rfl⟩ := hop
  have hsafe := h.pool _ (List.mem_of_getElem? hp)
  have hstep := hsafe w.db (C.refl _) h.inv (hadmits i op next rfl hp)
  exact ⟨hstep.2.1, hstep.2.2.1⟩

theorem WorldSafe.next (hstart : ∀ c d, C.inv d → Safe exec C (handler c) d)
    {w : World Op Ans ρ δ} (h : WorldSafe exec C w) {e : Event κ}
    (hadmits : Admits C.admits w e) : WorldSafe exec C (w.next exec handler e) := by
  cases e with
  | start c =>
      refine ⟨h.inv, ?_⟩
      intro p hp
      rcases List.mem_append.mp hp with hp | hp
      · exact h.pool p hp
      · rw [List.mem_singleton.mp hp]
        exact hstart c w.db h.inv
  | stop i => exact ⟨h.inv, fun p hp ↦ h.pool p (List.mem_of_mem_eraseIdx hp)⟩
  | step i =>
      simp only [World.next]
      cases hi : w.pool[i]? with
      | none => exact h
      | some p =>
          have hsafe := h.pool p (List.mem_of_getElem? hi)
          cases p with
          | ret r =>
              refine ⟨h.inv, ?_⟩
              intro q hq
              rcases List.mem_or_eq_of_mem_set hq with hq | rfl
              · exact h.pool q hq
              · trivial
          | call op next =>
              obtain ⟨hinv, hg, -, hrest⟩ :=
                hsafe w.db (C.refl _) h.inv (hadmits i op next rfl hi)
              refine ⟨hinv, ?_⟩
              intro q hq
              rcases List.mem_or_eq_of_mem_set hq with hq | rfl
              · exact (h.pool q hq).mono hg
              · exact hrest

theorem WorldSafe.guarantee_next {w : World Op Ans ρ δ} (h : WorldSafe exec C w) {e : Event κ}
    (hadmits : Admits C.admits w e) : C.guarantee w.db (w.next exec handler e).db := by
  cases e with
  | start c => exact C.refl _
  | stop i => exact C.refl _
  | step i =>
      simp only [World.next]
      cases hi : w.pool[i]? with
      | none => exact C.refl _
      | some p =>
          cases p with
          | ret r => exact C.refl _
          | call op next => exact (h.performs ⟨i, next, rfl, hi, rfl⟩ hadmits).1

theorem World.Performs.db_next {w : World Op Ans ρ δ} {e : Event κ} {op : Op}
    {rest : Prog Op Ans ρ} (h : w.Performs exec e op rest) :
    (w.next exec handler e).db = (exec op w.db).1 := by
  obtain ⟨i, next, rfl, hp, -⟩ := h
  simp [World.next, hp, advance]

theorem World.next_db_cases (w : World Op Ans ρ δ) (e : Event κ) :
    (w.next exec handler e).db = w.db ∨
      ∃ op rest, w.Performs exec e op rest ∧ (w.next exec handler e).db = (exec op w.db).1 := by
  cases e with
  | start c => exact .inl rfl
  | stop i => exact .inl rfl
  | step i =>
      simp only [World.next]
      cases hi : w.pool[i]? with
      | none => exact .inl rfl
      | some p =>
          cases p with
          | ret r => exact .inl rfl
          | call op next => exact .inr ⟨op, _, ⟨i, next, rfl, hi, rfl⟩, rfl⟩

theorem WorldSafe.guarantee_run (hstart : ∀ c d, C.inv d → Safe exec C (handler c) d)
    {w : World Op Ans ρ δ} (h : WorldSafe exec C w) {events : List (Event κ)}
    (hrun : Runs.Along (World.next exec handler) (Admits C.admits) w events) :
    C.guarantee w.db (Runs.run (World.next exec handler) w events).db := by
  induction events generalizing w with
  | nil => exact C.refl _
  | cons e events ih =>
      exact C.trans _ _ _ (h.guarantee_next hrun.1) (ih (h.next hstart hrun.1) hrun.2)

theorem worldSafe_run (hstart : ∀ c d, C.inv d → Safe exec C (handler c) d) {d : δ}
    (hd : C.inv d) {events : List (Event κ)}
    (hrun : Runs.Along (World.next exec handler) (Admits C.admits) { db := d } events) :
    WorldSafe exec C (Runs.run (World.next exec handler) { db := d } events) :=
  Runs.invariant_along (fun _ _ hw he ↦ hw.next hstart he)
    (⟨hd, by simp⟩ : WorldSafe exec C { db := d }) hrun

/-- At every step of an admitted run the world is safe and the step is admitted. -/
theorem worldSafe_takes (hstart : ∀ c d, C.inv d → Safe exec C (handler c) d) {d : δ}
    (hd : C.inv d) {events : List (Event κ)} {w : World Op Ans ρ δ} {e : Event κ}
    (hrun : Runs.Along (World.next exec handler) (Admits C.admits) { db := d } events)
    (htakes : Runs.Takes (World.next exec handler) { db := d } events w e) :
    WorldSafe exec C w ∧ Admits C.admits w e :=
  ⟨Runs.invariant_takes (fun _ _ hw he ↦ hw.next hstart he)
    (⟨hd, by simp⟩ : WorldSafe exec C { db := d }) hrun htakes, hrun.takes htakes⟩

end Interleaving

/-!
## Runs with a record

A record of what the operations did is kept beside the data. It changes nothing: without the
record the run is the one without it.
-/

namespace Interleaving

variable {Op : Type} {Ans : Op → Type} {ρ δ κ η : Type}

/-- An operation that also records what it did. -/
def recorded (exec : (op : Op) → δ → δ × Ans op) (record : δ → Op → δ → List η) (op : Op)
    (d : δ × List η) : (δ × List η) × Ans op :=
  (((exec op d.1).1, d.2 ++ record d.1 op (exec op d.1).1), (exec op d.1).2)

def World.plain (w : World Op Ans ρ (δ × List η)) : World Op Ans ρ δ :=
  { db := w.db.1, pool := w.pool }

variable {exec : (op : Op) → δ → δ × Ans op} {record : δ → Op → δ → List η}
  {handler : κ → Prog Op Ans ρ}

theorem World.plain_next (w : World Op Ans ρ (δ × List η)) (e : Event κ) :
    (w.next (recorded exec record) handler e).plain = w.plain.next exec handler e := by
  cases e with
  | start c => rfl
  | stop i => rfl
  | step i =>
      simp only [World.next, World.plain]
      cases hi : w.pool[i]? with
      | none => rfl
      | some p => cases p <;> rfl

theorem World.plain_run (w : World Op Ans ρ (δ × List η)) (events : List (Event κ)) :
    (Runs.run (World.next (recorded exec record) handler) w events).plain =
      Runs.run (World.next exec handler) w.plain events := by
  induction events generalizing w with
  | nil => rfl
  | cons e events ih => rw [Runs.run_cons, Runs.run_cons, ih, w.plain_next]

end Interleaving
