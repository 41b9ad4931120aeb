import Fabushi.Library.Runs
import Fabushi.Library.Text

/-!
# The prompt queue

The queue of `mahayana-orchestrator`: prompts stay in the order they were enqueued
in. The next one is a greatest by priority and earlier time, and among several of
these the last; the two final transitions do not look at the state they leave.
-/

namespace Fabushi.Orchestrator

inductive PromptPriority where
  | background
  | normal
  | userBlocking
  | critical
  deriving DecidableEq, Repr

def PromptPriority.rank : PromptPriority → ℕ
  | .background => 0
  | .normal => 1
  | .userBlocking => 2
  | .critical => 3

inductive PromptState where
  | pending
  | running
  | completed
  | cancelled
  deriving DecidableEq, Repr

def PromptState.Final (state : PromptState) : Prop :=
  state = .completed ∨ state = .cancelled

structure PromptEntry (Value : Type) where
  id : String
  text : String
  priority : PromptPriority
  state : PromptState := .pending
  createdAtMs : ℤ
  dedupeKey : Option String := none
  metadata : Value
  deriving DecidableEq

inductive PromptError where
  | invalidInput (message : String)
  | promptNotFound (id : String)
  deriving DecidableEq

/-- `Iterator::max_by`, where `greater` tells that the first argument is greater:
of several greatest elements the last one is returned. -/
def maxBy {α : Type} (greater : α → α → Bool) (xs : List α) : Option α :=
  xs.foldl (fun best x ↦
    match best with
    | none => some x
    | some best => some (if greater best x then best else x)) none

structure PromptQueue (Value : Type) where
  entries : List (PromptEntry Value) := []

namespace PromptQueue

variable {Value : Type}

def greater (left right : PromptEntry Value × ℕ) : Bool :=
  decide (right.1.priority.rank < left.1.priority.rank ∨
    (right.1.priority = left.1.priority ∧ left.1.createdAtMs < right.1.createdAtMs))

def isPending (entry : PromptEntry Value) : Bool :=
  entry.state = .pending

def enqueue (queue : PromptQueue Value) (generatedId : String) (nowMs : ℤ) (text : String)
    (priority : PromptPriority) (dedupeKey : Option String) (metadata : Value) :
    PromptQueue Value × Except PromptError String :=
  if Text.isBlank text then (queue, .error (.invalidInput "prompt text must not be empty"))
  else
    let existing := dedupeKey.bind fun key ↦ queue.entries.findIdx? fun entry ↦
      isPending entry && decide (entry.dedupeKey = some key)
    match existing.bind fun i ↦ queue.entries[i]?.map fun entry ↦ (i, entry) with
    | some (i, entry) =>
        let priority := if entry.priority.rank ≤ priority.rank then priority else entry.priority
        (⟨queue.entries.modify i fun entry ↦ { entry with text, priority, metadata }⟩,
          .ok entry.id)
    | none =>
        (⟨queue.entries ++
            [{ id := generatedId, text, priority, createdAtMs := nowMs, dedupeKey, metadata }]⟩,
          .ok generatedId)

def takeNext (queue : PromptQueue Value) : PromptQueue Value × Option (PromptEntry Value) :=
  match maxBy greater (queue.entries.zipIdx.filter fun entry ↦ isPending entry.1) with
  | none => (queue, none)
  | some (entry, i) =>
      (⟨queue.entries.modify i fun entry ↦ { entry with state := .running }⟩,
        some { entry with state := .running })

def transitionPrompt (queue : PromptQueue Value) (id : String) (state : PromptState) :
    PromptQueue Value × Except PromptError Unit :=
  match queue.entries.findIdx? fun entry ↦ decide (entry.id = id) with
  | none => (queue, .error (.promptNotFound id))
  | some i => (⟨queue.entries.modify i fun entry ↦ { entry with state }⟩, .ok ())

def complete (queue : PromptQueue Value) (id : String) : PromptQueue Value × Except PromptError Unit :=
  queue.transitionPrompt id .completed

def cancel (queue : PromptQueue Value) (id : String) : PromptQueue Value × Except PromptError Unit :=
  queue.transitionPrompt id .cancelled

def pending (queue : PromptQueue Value) : List (PromptEntry Value) :=
  queue.entries.filter isPending

def cancelPending (entry : PromptEntry Value) : PromptEntry Value :=
  if isPending entry then { entry with state := .cancelled } else entry

/-- `combined` is the JSON value that lists the identifiers of the sources. -/
def combinePending (combined : List String → Value) (queue : PromptQueue Value)
    (generatedId : String) (nowMs : ℤ) (separator : String) (priority : PromptPriority) :
    PromptQueue Value × Except PromptError (Option String) :=
  let pending := queue.pending
  if pending.isEmpty then (queue, .ok none)
  else
    let text := separator.intercalate (pending.map PromptEntry.text)
    let (queue, result) := enqueue ⟨queue.entries.map cancelPending⟩ generatedId nowMs text
      priority none (combined (pending.map PromptEntry.id))
    (queue, result.map some)

/-! ## Calls -/

inductive Call (Value : Type) where
  | enqueue (text : String) (priority : PromptPriority) (dedupeKey : Option String)
      (metadata : Value)
  | takeNext
  | complete (id : String)
  | cancel (id : String)
  | combinePending (separator : String) (priority : PromptPriority)

structure Event (Value : Type) where
  call : Call Value
  nowMs : ℤ
  generatedId : String

variable (combined : List String → Value)

def step (queue : PromptQueue Value) (event : Event Value) : PromptQueue Value :=
  match event.call with
  | .enqueue text priority dedupeKey metadata =>
      (queue.enqueue event.generatedId event.nowMs text priority dedupeKey metadata).1
  | .takeNext => queue.takeNext.1
  | .complete id => (queue.complete id).1
  | .cancel id => (queue.cancel id).1
  | .combinePending separator priority =>
      (queue.combinePending combined event.generatedId event.nowMs separator priority).1

/-- At `i` stands the prompt that was enqueued before every other pending prompt
of the highest pending priority. -/
structure First (queue : PromptQueue Value) (i : ℕ) (entry : PromptEntry Value) : Prop where
  get : queue.entries[i]? = some entry
  pending : isPending entry = true
  first : ∀ j other, queue.entries[j]? = some other → isPending other = true → j ≠ i →
    other.priority.rank < entry.priority.rank ∨ (other.priority = entry.priority ∧ i < j)

def FinalKept (queue queue' : PromptQueue Value) : Prop :=
  ∀ (i : ℕ) (entry : PromptEntry Value), queue.entries[i]? = some entry → entry.state.Final →
    queue'.entries[i]? = some entry

def Serves (queue : PromptQueue Value) (event : Event Value) : Prop :=
  match event.call with
  | .takeNext =>
      (queue.takeNext = (queue, none) ∧ queue.pending = []) ∨
        ∃ i entry, First queue i entry ∧ queue.takeNext =
          (⟨queue.entries.set i { entry with state := .running }⟩,
            some { entry with state := .running })
  | .combinePending separator priority =>
      (queue.pending = [] ∧ queue.combinePending combined event.generatedId event.nowMs separator
          priority = (queue, .ok none)) ∨
        ∃ entry : PromptEntry Value, entry.state = .pending ∧
          entry.text = separator.intercalate (queue.pending.map PromptEntry.text) ∧
          queue.combinePending combined event.generatedId event.nowMs separator priority =
            (⟨queue.entries.map cancelPending ++ [entry]⟩, .ok (some entry.id))
  | _ => True

def CallMeets (queue : PromptQueue Value) (event : Event Value) : Prop :=
  FinalKept queue (step combined queue event) ∧ Serves combined queue event

/-- The first prompt of the highest pending priority shares its time with no other
pending prompt of that priority, and a prompt in a final state is not sent into
the other one. -/
def CallClear (queue : PromptQueue Value) (event : Event Value) : Prop :=
  match event.call with
  | .takeNext => ∀ i entry, First queue i entry → ∀ j other, j ≠ i →
      queue.entries[j]? = some other → isPending other = true →
        other.priority = entry.priority → other.createdAtMs ≠ entry.createdAtMs
  | .complete id => ∀ entry, queue.entries.find? (fun entry ↦ decide (entry.id = id)) = some entry →
      entry.state ≠ .cancelled
  | .cancel id => ∀ entry, queue.entries.find? (fun entry ↦ decide (entry.id = id)) = some entry →
      entry.state ≠ .completed
  | _ => True

/-! ## The next prompt -/

theorem maxBy_concat {α : Type} (greater : α → α → Bool) (xs : List α) (x : α) :
    maxBy greater (xs ++ [x]) =
      match maxBy greater xs with
      | none => some x
      | some best => some (if greater best x then best else x) := by
  rw [maxBy, List.foldl_append]
  rfl

theorem maxBy_spec {α κ : Type} [LinearOrder κ] {greater : α → α → Bool} {key : α → κ}
    (hgreater : ∀ a b, greater a b = true ↔ key b < key a) (xs : List α) :
    (maxBy greater xs = none ∧ xs = []) ∨
      ∃ front best back, maxBy greater xs = some best ∧ xs = front ++ best :: back ∧
        (∀ x ∈ front, key x ≤ key best) ∧ ∀ x ∈ back, key x < key best := by
  induction xs using List.reverseRecOn with
  | nil => exact Or.inl ⟨rfl, rfl⟩
  | append_singleton xs x ih =>
    refine Or.inr ?_
    rw [maxBy_concat]
    rcases ih with ⟨hnone, rfl⟩ | ⟨front, best, back, hbest, rfl, hfront, hback⟩
    · exact ⟨[], x, [], by rw [hnone], rfl, by simp, by simp⟩
    · simp only [hbest]
      by_cases hx : greater best x = true
      · refine ⟨front, best, back ++ [x], by rw [if_pos hx], by simp, hfront, ?_⟩
        intro y hy
        rcases List.mem_append.mp hy with hy | hy
        · exact hback y hy
        · rw [List.mem_singleton.mp hy]
          exact (hgreater best x).mp hx
      · have hle : key best ≤ key x := not_lt.mp fun hlt ↦ hx ((hgreater best x).mpr hlt)
        refine ⟨front ++ best :: back, x, [], by rw [if_neg hx], rfl, ?_, by simp⟩
        intro y hy
        rcases List.mem_append.mp hy with hy | hy
        · exact (hfront y hy).trans hle
        · rcases List.mem_cons.mp hy with rfl | hy
          · exact hle
          · exact (hback y hy).le.trans hle

variable {combined} {queue : PromptQueue Value}

def key (entry : PromptEntry Value × ℕ) : ℕ ×ₗ ℤ :=
  toLex (entry.1.priority.rank, -entry.1.createdAtMs)

theorem rank_injective : Function.Injective PromptPriority.rank := by
  intro p q h
  cases p <;> cases q <;> first | rfl | cases h

theorem greater_iff (a b : PromptEntry Value × ℕ) : greater a b = true ↔ key b < key a := by
  rw [greater, decide_eq_true_iff, key, key, Prod.Lex.toLex_lt_toLex, neg_lt_neg_iff,
    ← rank_injective.eq_iff]

theorem key_le_iff {e x : PromptEntry Value} {i j : ℕ} : key (x, j) ≤ key (e, i) ↔
    x.priority.rank < e.priority.rank ∨
      (x.priority.rank = e.priority.rank ∧ e.createdAtMs ≤ x.createdAtMs) := by
  rw [key, key, Prod.Lex.toLex_le_toLex, neg_le_neg_iff]

structure Good (bound : ℤ) (queue : PromptQueue Value) : Prop where
  sorted : ∀ (i j : ℕ) (e e' : PromptEntry Value), queue.entries[i]? = some e →
    queue.entries[j]? = some e' → i ≤ j → e.createdAtMs ≤ e'.createdAtMs
  bounded : ∀ e ∈ queue.entries, e.createdAtMs ≤ bound
  visible : ∀ e ∈ queue.entries, Text.isBlank e.text = false

theorem First.unique {i j : ℕ} {e e' : PromptEntry Value} (h : First queue i e)
    (h' : First queue j e') : i = j := by
  by_contra hne
  rcases h.first j e' h'.get h'.pending (Ne.symm hne) with hlt | ⟨heq, hij⟩ <;>
    rcases h'.first i e h.get h.pending hne with hlt' | ⟨heq', hji⟩
  · omega
  · rw [heq'] at hlt
    omega
  · rw [heq] at hlt'
    omega
  · omega

theorem exists_first {i : ℕ} {e : PromptEntry Value} (hget : queue.entries[i]? = some e)
    (hpending : isPending e = true)
    (htop : ∀ (j : ℕ) (other : PromptEntry Value), queue.entries[j]? = some other →
      isPending other = true → other.priority.rank ≤ e.priority.rank) :
    ∃ first entry, First queue first entry ∧ first ≤ i ∧ entry.priority = e.priority := by
  let Top (k : ℕ) := ∃ x : PromptEntry Value, queue.entries[k]? = some x ∧
    isPending x = true ∧ x.priority = e.priority
  classical
  have hexists : ∃ k, Top k := ⟨i, e, hget, hpending, rfl⟩
  obtain ⟨x, hx, hxpending, hxpriority⟩ := Nat.find_spec hexists
  refine ⟨Nat.find hexists, x, ⟨hx, hxpending, fun j other hj hother hne ↦ ?_⟩,
    Nat.find_le ⟨e, hget, hpending, rfl⟩, hxpriority⟩
  rw [hxpriority]
  rcases (htop j other hj hother).lt_or_eq with hlt | heq
  · exact Or.inl hlt
  · have hsame := rank_injective heq
    exact Or.inr ⟨hsame, lt_of_le_of_ne (Nat.find_le ⟨other, hj, hother, hsame⟩) (Ne.symm hne)⟩

theorem modify_of_get {α : Type} {l : List α} {i : ℕ} {a : α} (h : l[i]? = some a) (f : α → α) :
    l.modify i f = l.set i (f a) := by
  apply List.ext_getElem?
  intro j
  have hlength := (List.getElem?_eq_some_iff.mp h).1
  rw [List.getElem?_modify, List.getElem?_set]
  by_cases hij : i = j
  · subst hij
    rw [h, if_pos rfl, if_pos hlength]
    exact congrArg some (if_pos rfl)
  · simp [hij]

theorem mem_candidates {queue : PromptQueue Value} {x : PromptEntry Value × ℕ} :
    x ∈ queue.entries.zipIdx.filter (fun entry ↦ isPending entry.1) ↔
      queue.entries[x.2]? = some x.1 ∧ isPending x.1 = true := by
  rw [List.mem_filter, List.mem_zipIdx_iff_getElem?]

theorem takeNext_spec (queue : PromptQueue Value) :
    (queue.takeNext = (queue, none) ∧ queue.pending = []) ∨
      ∃ i e, queue.entries[i]? = some e ∧ isPending e = true ∧
        queue.takeNext = (⟨queue.entries.set i { e with state := .running }⟩,
          some { e with state := .running }) ∧
        ∀ j other, queue.entries[j]? = some other → isPending other = true →
          (j < i → key (other, j) ≤ key (e, i)) ∧ (i < j → key (other, j) < key (e, i)) := by
  rcases maxBy_spec greater_iff (queue.entries.zipIdx.filter fun entry ↦ isPending entry.1) with
    ⟨hnone, hnil⟩ | ⟨front, ⟨e, i⟩, back, hbest, hsplit, hfront, hback⟩
  · refine Or.inl ⟨by rw [takeNext, hnone], ?_⟩
    rw [pending, List.filter_eq_nil_iff]
    intro e he hpending
    obtain ⟨i, hi⟩ := List.mem_iff_getElem?.mp he
    have hmem := mem_candidates.mpr (show queue.entries[(e, i).2]? = some (e, i).1 ∧ _ from
      ⟨hi, hpending⟩)
    rw [hnil] at hmem
    cases hmem
  · have hmem := mem_candidates.mp (hsplit ▸ List.mem_append_right front List.mem_cons_self)
    -- the candidates stand in the order of their positions
    have horder : (front ++ (e, i) :: back).Pairwise fun a b ↦ a.2 < b.2 := by
      rw [← hsplit]
      apply List.Pairwise.filter
      have hrange := List.pairwise_lt_range' (s := 0) (n := queue.entries.length)
      rw [← List.zipIdx_map_snd] at hrange
      exact List.pairwise_map.mp hrange
    obtain ⟨-, hbehind, hahead⟩ := List.pairwise_append.mp horder
    refine Or.inr ⟨i, e, hmem.1, hmem.2, ?_, fun j other hj hother ↦ ?_⟩
    · rw [takeNext, hbest]
      dsimp only
      rw [modify_of_get hmem.1]
    · have hcandidate := mem_candidates.mpr
        (show queue.entries[(other, j).2]? = some (other, j).1 ∧ _ from ⟨hj, hother⟩)
      rw [hsplit] at hcandidate
      constructor
      · intro hlt
        rcases List.mem_append.mp hcandidate with hc | hc
        · exact hfront _ hc
        · rcases List.mem_cons.mp hc with heq | hc
          · exact absurd (congrArg Prod.snd heq) hlt.ne
          · exact absurd ((List.pairwise_cons.mp hbehind).1 _ hc) hlt.asymm
      · intro hlt
        rcases List.mem_append.mp hcandidate with hc | hc
        · exact absurd (hahead _ hc _ List.mem_cons_self) hlt.asymm
        · rcases List.mem_cons.mp hc with heq | hc
          · exact absurd (congrArg Prod.snd heq) hlt.ne'
          · exact hback _ hc

theorem set_running_inj {i j : ℕ} {e e' : PromptEntry Value} (hi : queue.entries[i]? = some e)
    (hpending : isPending e = true)
    (h : queue.entries.set i { e with state := .running } =
      queue.entries.set j { e' with state := .running }) : i = j := by
  by_contra hne
  have hlength := (List.getElem?_eq_some_iff.mp hi).1
  have hget := congrArg (fun entries ↦ entries[i]?) h
  simp only [List.getElem?_set_ne (Ne.symm hne), List.getElem?_set_self hlength, hi] at hget
  rw [← Option.some.inj hget] at hpending
  simp [isPending] at hpending

/-- The next prompt is served in order exactly when it shares its time with no
other one that it could be taken for. -/
theorem serves_takeNext_iff {bound : ℤ} (h : Good bound queue) {event : Event Value}
    (hcall : event.call = .takeNext) :
    Serves combined queue event ↔ CallClear queue event := by
  simp only [Serves, CallClear, hcall]
  rcases takeNext_spec queue with ⟨hnone, hnil⟩ | ⟨i, e, hget, hpending, htake, hgreatest⟩
  · refine iff_of_true (Or.inl ⟨hnone, hnil⟩) fun i e hfirst ↦ ?_
    have hmem : e ∈ queue.pending :=
      List.mem_filter.mpr ⟨List.mem_of_getElem? hfirst.get, hfirst.pending⟩
    rw [hnil] at hmem
    cases hmem
  · have hlater : ∀ (j : ℕ) (other : PromptEntry Value), queue.entries[j]? = some other →
        isPending other = true → i < j → other.priority = e.priority → other.createdAtMs ≠ e.createdAtMs := by
      intro j other hj hother hlt hpriority htime
      have hkey := (hgreatest j other hj hother).2 hlt
      rw [key, key, hpriority, htime] at hkey
      exact lt_irrefl _ hkey
    constructor
    · rintro (⟨hnone, -⟩ | ⟨k, entry, hfirst, hserved⟩) k' entry' hfirst' j other hne hj hother
      · rw [htake] at hnone
        cases congrArg Prod.snd hnone
      · have hk := hfirst.unique hfirst'
        subst hk
        rw [htake] at hserved
        have hik := set_running_inj hget hpending
          (congrArg (fun result ↦ result.1.entries) hserved)
        subst hik
        have hentry : entry' = e := Option.some.inj (hfirst'.get.symm.trans hget)
        subst hentry
        intro hpriority
        rcases hfirst'.first j other hj hother hne with hlt | ⟨-, hlt⟩
        · rw [hpriority] at hlt
          omega
        · exact hlater j other hj hother hlt hpriority
    · intro hclear
      have htop : ∀ (j : ℕ) (other : PromptEntry Value), queue.entries[j]? = some other →
          isPending other = true → other.priority.rank ≤ e.priority.rank := by
        intro j other hj hother
        have hle : j ≠ i → key (other, j) ≤ key (e, i) := fun hne ↦
          (lt_or_gt_of_ne hne).elim (hgreatest j other hj hother).1
            fun hlt ↦ ((hgreatest j other hj hother).2 hlt).le
        by_cases hji : j = i
        · subst hji
          rw [Option.some.inj (hj.symm.trans hget)]
        · have := hle hji
          rw [key_le_iff] at this
          omega
      obtain ⟨first, entry, hfirst, hle, hpriority⟩ := exists_first hget hpending htop
      have hsame : first = i := by
        by_contra hne
        have htime := h.sorted first i entry e hfirst.get hget hle
        have hkey := (hgreatest first entry hfirst.get hfirst.pending).1 (by omega)
        rw [key_le_iff, hpriority] at hkey
        exact hclear first entry hfirst i e (Ne.symm hne) hget hpending hpriority.symm (by omega)
      subst hsame
      exact Or.inr ⟨first, e, by
        rwa [Option.some.inj (hget.symm.trans hfirst.get)], htake⟩

/-! ## The other calls -/

theorem enqueue_cases (queue : PromptQueue Value) (generatedId : String) (nowMs : ℤ)
    (text : String) (priority : PromptPriority) (dedupeKey : Option String) (metadata : Value) :
    (Text.isBlank text = true ∧
      (queue.enqueue generatedId nowMs text priority dedupeKey metadata).1 = queue) ∨
    (Text.isBlank text = false ∧ ∃ i e e', queue.entries[i]? = some e ∧ isPending e = true ∧
      e'.text = text ∧ e'.createdAtMs = e.createdAtMs ∧
      (queue.enqueue generatedId nowMs text priority dedupeKey metadata).1 =
        ⟨queue.entries.set i e'⟩) ∨
    (Text.isBlank text = false ∧
      queue.enqueue generatedId nowMs text priority dedupeKey metadata =
        (⟨queue.entries ++
            [{ id := generatedId, text, priority, createdAtMs := nowMs, dedupeKey, metadata }]⟩,
          .ok generatedId)) := by
  unfold enqueue
  cases hblank : Text.isBlank text with
  | true => exact Or.inl ⟨rfl, rfl⟩
  | false =>
    refine Or.inr ?_
    simp only [Bool.false_eq_true, if_false, true_and]
    cases hfound : (dedupeKey.bind fun key ↦ queue.entries.findIdx? fun entry ↦
        isPending entry && decide (entry.dedupeKey = some key)).bind
          fun i ↦ queue.entries[i]?.map fun entry ↦ (i, entry) with
    | none => exact Or.inr rfl
    | some found =>
      obtain ⟨i, e⟩ := found
      obtain ⟨k, hindex, hentry⟩ := Option.bind_eq_some_iff.mp hfound
      obtain ⟨dedupe, -, hfind⟩ := Option.bind_eq_some_iff.mp hindex
      obtain ⟨x, hx, hpair⟩ := Option.map_eq_some_iff.mp hentry
      cases hpair
      obtain ⟨hlength, hmatch, -⟩ := List.findIdx?_eq_some_iff_getElem.mp hfind
      rw [(List.getElem?_eq_some_iff.mp hx).2, Bool.and_eq_true] at hmatch
      let e' : PromptEntry Value := { e with
        text, priority := if e.priority.rank ≤ priority.rank then priority else e.priority, metadata }
      exact Or.inl ⟨i, e, e', hx, hmatch.1, rfl, rfl, congrArg PromptQueue.mk (modify_of_get hx _)⟩

theorem not_final_of_pending {e : PromptEntry Value} (h : isPending e = true) : ¬ e.state.Final := by
  rintro (hstate | hstate) <;> simp [isPending, hstate] at h

theorem finalKept_set {i : ℕ} {e : PromptEntry Value} (hget : queue.entries[i]? = some e)
    (h : ¬ e.state.Final) (e' : PromptEntry Value) :
    FinalKept queue ⟨queue.entries.set i e'⟩ := by
  intro j x hx hfinal
  by_cases hij : i = j
  · subst hij
    rw [Option.some.inj (hget.symm.trans hx)] at h
    exact absurd hfinal h
  · rw [← hx]
    exact List.getElem?_set_ne hij

theorem finalKept_append (entries : List (PromptEntry Value)) :
    FinalKept queue ⟨queue.entries ++ entries⟩ := fun _ _ hget _ ↦
  (List.getElem?_append_left (List.getElem?_eq_some_iff.mp hget).1).trans hget

theorem FinalKept.trans {queue queue' queue'' : PromptQueue Value} (h : FinalKept queue queue')
    (h' : FinalKept queue' queue'') : FinalKept queue queue'' :=
  fun i e hget hfinal ↦ h' i e (h i e hget hfinal) hfinal

theorem finalKept_cancelPending (queue : PromptQueue Value) :
    FinalKept queue ⟨queue.entries.map cancelPending⟩ := by
  intro i e hget hfinal
  have hpending : isPending e = false := by
    cases hp : isPending e with
    | true => exact absurd hfinal (not_final_of_pending hp)
    | false => rfl
  rw [List.getElem?_map, hget, Option.map_some, cancelPending, hpending]
  rfl

theorem finalKept_enqueue (queue : PromptQueue Value) (generatedId : String) (nowMs : ℤ)
    (text : String) (priority : PromptPriority) (dedupeKey : Option String) (metadata : Value) :
    FinalKept queue (queue.enqueue generatedId nowMs text priority dedupeKey metadata).1 := by
  rcases enqueue_cases queue generatedId nowMs text priority dedupeKey metadata with
    ⟨-, hsame⟩ | ⟨-, i, e, e', hget, hpending, -, -, hset⟩ | ⟨-, happend⟩
  · rw [hsame]
    exact fun _ _ hget _ ↦ hget
  · rw [hset]
    exact finalKept_set hget (not_final_of_pending hpending) e'
  · rw [happend]
    exact finalKept_append _

theorem finalKept_transition_iff (queue : PromptQueue Value) (id : String) (state : PromptState) :
    FinalKept queue (queue.transitionPrompt id state).1 ↔
      ∀ e, queue.entries.find? (fun entry ↦ decide (entry.id = id)) = some e →
        e.state.Final → e.state = state := by
  rw [transitionPrompt]
  cases hfind : queue.entries.findIdx? fun entry ↦ decide (entry.id = id) with
  | none =>
    refine iff_of_true (fun _ _ hget _ ↦ hget) fun e he ↦ ?_
    rw [List.findIdx?_eq_none_iff] at hfind
    have hid := List.find?_some he
    rw [hfind e (List.mem_of_find?_eq_some he)] at hid
    cases hid
  | some i =>
    obtain ⟨hlength, hmatch, hbefore⟩ := List.findIdx?_eq_some_iff_getElem.mp hfind
    have hget : queue.entries[i]? = some queue.entries[i] := List.getElem?_eq_getElem hlength
    have hfirst : queue.entries.find? (fun entry ↦ decide (entry.id = id)) =
        some queue.entries[i] := by
      rw [List.find?_eq_some_iff_getElem]
      exact ⟨hmatch, i, hlength, rfl, fun j hj ↦ by simpa using hbefore j hj⟩
    rw [hfirst]
    simp only [Option.some.injEq, forall_eq', modify_of_get hget]
    constructor
    · intro hkept hfinal
      have hstate := hkept i _ hget hfinal
      rw [List.getElem?_set_self hlength] at hstate
      exact (congrArg PromptEntry.state (Option.some.inj hstate)).symm
    · intro hsame
      by_cases hfinal : queue.entries[i].state.Final
      · rw [← hsame hfinal]
        intro j x hx _
        by_cases hij : i = j
        · subst hij
          rw [List.getElem?_set_self hlength, ← hx, hget]
        · rw [← hx]
          exact List.getElem?_set_ne hij
      · exact finalKept_set hget hfinal _

theorem isBlank_intercalate {separator text : String} {texts : List String}
    (h : Text.isBlank text = false) : Text.isBlank (separator.intercalate (text :: texts)) = false := by
  obtain ⟨c, hc, hvisible⟩ : ∃ c ∈ text.toList, Text.isWhitespace c = false := by
    by_contra hnone
    have hall : ∀ c ∈ text.toList, Text.isWhitespace c = true := by
      intro c hc
      by_contra hvisible
      exact hnone ⟨c, hc, by simpa using hvisible⟩
    have htrim : Text.trim text = "" := by
      rw [Text.trim, Text.trimList, List.dropWhile_eq_nil_iff.mpr hall]
      rfl
    simp [Text.isBlank, htrim] at h
  refine @Text.isBlank_eq_false _ c ?_ hvisible
  rw [String.toList_intercalate, List.map_cons]
  cases texts with
  | nil => simpa using hc
  | cons next texts =>
    rw [List.map_cons, List.intercalate_cons_cons]
    exact List.mem_append_left _ (List.mem_append_left _ hc)

theorem serves_combinePending {bound : ℤ} (h : Good bound queue) {event : Event Value}
    {separator : String} {priority : PromptPriority}
    (hcall : event.call = .combinePending separator priority) : Serves combined queue event := by
  simp only [Serves, hcall]
  cases hpending : queue.pending with
  | nil => exact Or.inl ⟨rfl, by rw [combinePending, hpending]; rfl⟩
  | cons e rest =>
    have hmem : e ∈ queue.entries :=
      (List.mem_filter.mp (hpending ▸ List.mem_cons_self : e ∈ queue.pending)).1
    have hvisible : Text.isBlank (separator.intercalate
        ((e :: rest).map PromptEntry.text)) = false := isBlank_intercalate (h.visible e hmem)
    refine Or.inr ⟨{ id := event.generatedId, priority, createdAtMs := event.nowMs
                     text := separator.intercalate ((e :: rest).map PromptEntry.text)
                     metadata := combined ((e :: rest).map PromptEntry.id) }, rfl, rfl, ?_⟩
    rw [combinePending, hpending]
    simp only [List.isEmpty_cons, Bool.false_eq_true, if_false, enqueue, hvisible,
      Option.bind_none, Except.map]

theorem finalKept_combinePending (queue : PromptQueue Value) (generatedId : String) (nowMs : ℤ)
    (separator : String) (priority : PromptPriority) :
    FinalKept queue
      (queue.combinePending combined generatedId nowMs separator priority).1 := by
  rw [combinePending]
  dsimp only
  split_ifs
  · exact fun _ _ hget _ ↦ hget
  · exact (finalKept_cancelPending queue).trans (finalKept_enqueue _ _ _ _ _ _ _)

theorem finalKept_takeNext (queue : PromptQueue Value) : FinalKept queue queue.takeNext.1 := by
  rcases takeNext_spec queue with ⟨hnone, -⟩ | ⟨i, e, hget, hpending, htake, -⟩
  · rw [hnone]
    exact fun _ _ hget _ ↦ hget
  · rw [htake]
    exact finalKept_set hget (not_final_of_pending hpending) _

theorem callMeets_iff {bound : ℤ} (h : Good bound queue) (event : Event Value) :
    CallMeets combined queue event ↔ CallClear queue event := by
  unfold CallMeets step
  cases hcall : event.call with
  | enqueue text priority dedupeKey metadata =>
    refine iff_of_true ⟨?_, by simp [Serves, hcall]⟩ (by simp [CallClear, hcall])
    exact finalKept_enqueue queue _ _ _ _ _ _
  | takeNext =>
    rw [← @serves_takeNext_iff _ combined _ _ h _ hcall]
    exact ⟨And.right, fun hserves ↦ ⟨finalKept_takeNext queue, hserves⟩⟩
  | complete id =>
    have hiff := finalKept_transition_iff queue id .completed
    simp only [Serves, CallClear, hcall, and_true]
    refine hiff.trans (forall₂_congr fun e _ ↦ ?_)
    cases hstate : e.state <;> simp [PromptState.Final]
  | cancel id =>
    have hiff := finalKept_transition_iff queue id .cancelled
    simp only [Serves, CallClear, hcall, and_true]
    refine hiff.trans (forall₂_congr fun e _ ↦ ?_)
    cases hstate : e.state <;> simp [PromptState.Final]
  | combinePending separator priority =>
    refine iff_of_true ⟨?_, serves_combinePending h hcall⟩ (by simp [CallClear, hcall])
    exact finalKept_combinePending queue _ _ _ _

/-! ## Runs -/

theorem Good.mono {bound bound' : ℤ} (h : Good bound queue) (hle : bound ≤ bound') :
    Good bound' queue :=
  ⟨h.sorted, fun e he ↦ (h.bounded e he).trans hle, h.visible⟩

theorem Good.set {bound : ℤ} (h : Good bound queue) {i : ℕ} {e e' : PromptEntry Value}
    (hget : queue.entries[i]? = some e) (htime : e'.createdAtMs = e.createdAtMs)
    (hvisible : Text.isBlank e'.text = false) : Good bound ⟨queue.entries.set i e'⟩ := by
  have hold : ∀ (j : ℕ) (x : PromptEntry Value), (queue.entries.set i e')[j]? = some x →
      ∃ y, queue.entries[j]? = some y ∧ x.createdAtMs = y.createdAtMs ∧
        Text.isBlank x.text = false := by
    intro j x hx
    by_cases hij : i = j
    · subst hij
      rw [List.getElem?_set_self (List.getElem?_eq_some_iff.mp hget).1] at hx
      cases hx
      exact ⟨e, hget, htime, hvisible⟩
    · rw [List.getElem?_set_ne hij] at hx
      exact ⟨x, hx, rfl, h.visible x (List.mem_of_getElem? hx)⟩
  constructor
  · intro j k x y hx hy hjk
    obtain ⟨x', hx', hxtime, -⟩ := hold j x hx
    obtain ⟨y', hy', hytime, -⟩ := hold k y hy
    rw [hxtime, hytime]
    exact h.sorted j k x' y' hx' hy' hjk
  · intro x hx
    obtain ⟨j, hj⟩ := List.mem_iff_getElem?.mp hx
    obtain ⟨y, hy, hytime, -⟩ := hold j x hj
    rw [hytime]
    exact h.bounded y (List.mem_of_getElem? hy)
  · intro x hx
    obtain ⟨j, hj⟩ := List.mem_iff_getElem?.mp hx
    obtain ⟨-, -, -, hshown⟩ := hold j x hj
    exact hshown

theorem Good.append {bound : ℤ} (h : Good bound queue) {e : PromptEntry Value}
    (htime : e.createdAtMs = bound) (hvisible : Text.isBlank e.text = false) :
    Good bound ⟨queue.entries ++ [e]⟩ := by
  have hlast : ∀ (j : ℕ) (x : PromptEntry Value), (queue.entries ++ [e])[j]? = some x →
      queue.entries[j]? = some x ∨ (x = e ∧ queue.entries.length ≤ j) := by
    intro j x hx
    rcases lt_or_ge j queue.entries.length with hlt | hge
    · exact Or.inl ((List.getElem?_append_left hlt).symm.trans hx)
    · have hmem := List.mem_of_getElem? ((List.getElem?_append_right hge).symm.trans hx)
      exact Or.inr ⟨List.mem_singleton.mp hmem, hge⟩
  constructor
  · intro j k x y hx hy hjk
    rcases hlast k y hy with hy | ⟨rfl, -⟩
    · rcases hlast j x hx with hx | ⟨-, hge⟩
      · exact h.sorted j k x y hx hy hjk
      · have hlt := (List.getElem?_eq_some_iff.mp hy).1
        omega
    · rw [htime]
      rcases hlast j x hx with hx | ⟨rfl, -⟩
      · exact h.bounded x (List.mem_of_getElem? hx)
      · exact htime.le
  · intro x hx
    rcases List.mem_append.mp hx with hx | hx
    · exact h.bounded x hx
    · rw [List.mem_singleton.mp hx, htime]
  · intro x hx
    rcases List.mem_append.mp hx with hx | hx
    · exact h.visible x hx
    · rwa [List.mem_singleton.mp hx]

theorem Good.enqueue {bound : ℤ} (h : Good bound queue) (generatedId : String)
    (text : String) (priority : PromptPriority) (dedupeKey : Option String) (metadata : Value) :
    Good bound (queue.enqueue generatedId bound text priority dedupeKey metadata).1 := by
  rcases enqueue_cases queue generatedId bound text priority dedupeKey metadata with
    ⟨-, hsame⟩ | ⟨hvisible, i, e, e', hget, -, htext, htime, hset⟩ | ⟨hvisible, happend⟩
  · rw [hsame]
    exact h
  · rw [hset]
    exact h.set hget htime (by rw [htext, hvisible])
  · rw [happend]
    exact h.append rfl hvisible

theorem Good.cancelPending {bound : ℤ} (h : Good bound queue) :
    Good bound ⟨queue.entries.map cancelPending⟩ := by
  have htime : ∀ e : PromptEntry Value, (PromptQueue.cancelPending e).createdAtMs = e.createdAtMs :=
    fun e ↦ by unfold PromptQueue.cancelPending; split <;> rfl
  have htext : ∀ e : PromptEntry Value, (PromptQueue.cancelPending e).text = e.text :=
    fun e ↦ by unfold PromptQueue.cancelPending; split <;> rfl
  constructor
  · intro i j x y hx hy hij
    simp only [List.getElem?_map, Option.map_eq_some_iff] at hx hy
    obtain ⟨e, he, rfl⟩ := hx
    obtain ⟨e', he', rfl⟩ := hy
    rw [htime, htime]
    exact h.sorted i j e e' he he' hij
  · intro x hx
    obtain ⟨e, he, rfl⟩ := List.mem_map.mp hx
    rw [htime]
    exact h.bounded e he
  · intro x hx
    obtain ⟨e, he, rfl⟩ := List.mem_map.mp hx
    rw [htext]
    exact h.visible e he

theorem Good.transition {bound : ℤ} (h : Good bound queue) (id : String) (state : PromptState) :
    Good bound (queue.transitionPrompt id state).1 := by
  rw [transitionPrompt]
  cases hfind : queue.entries.findIdx? fun entry ↦ decide (entry.id = id) with
  | none => exact h
  | some i =>
    obtain ⟨hlength, -, -⟩ := List.findIdx?_eq_some_iff_getElem.mp hfind
    have hget : queue.entries[i]? = some queue.entries[i] := List.getElem?_eq_getElem hlength
    simp only [modify_of_get hget]
    have hvisible := h.visible _ (List.getElem_mem hlength)
    exact h.set hget rfl hvisible

theorem Good.step {bound : ℤ} (h : Good bound queue) {event : Event Value}
    (hclock : bound ≤ event.nowMs) : Good event.nowMs (step combined queue event) := by
  have hgood := h.mono hclock
  unfold PromptQueue.step
  cases event.call with
  | enqueue text priority dedupeKey metadata => exact hgood.enqueue ..
  | takeNext =>
    rcases takeNext_spec queue with ⟨hnone, -⟩ | ⟨i, e, hget, -, htake, -⟩
    · rwa [hnone]
    · rw [htake]
      exact hgood.set hget rfl (hgood.visible e (List.mem_of_getElem? hget))
  | complete id => exact hgood.transition id _
  | cancel id => exact hgood.transition id _
  | combinePending separator priority =>
    dsimp only
    rw [combinePending]
    dsimp only
    split_ifs
    · exact hgood
    · apply Good.enqueue
      exact hgood.cancelPending

/-- Under a clock that does not go back, all calls on a new queue keep their
promises exactly when neither of the two defects is reached. -/
theorem prompts_served_iff (combined : List String → Value) (events : List (Event Value))
    (hclock : (events.map Event.nowMs).Pairwise (· ≤ ·)) :
    Runs.Along (step combined) (CallMeets combined) {} events ↔
      Runs.Along (step combined) CallClear {} events := by
  suffices h : ∀ (bound : ℤ) (queue : PromptQueue Value), Good bound queue →
      (∀ event ∈ events, bound ≤ event.nowMs) →
        (Runs.Along (step combined) (CallMeets combined) queue events ↔
          Runs.Along (step combined) CallClear queue events) by
    cases events with
    | nil => rfl
    | cons event events =>
      refine h event.nowMs {} ⟨?_, ?_, ?_⟩ fun e he ↦ ?_
      · intro i j e e' he
        simp at he
      · intro e he
        cases he
      · intro e he
        cases he
      · rcases List.mem_cons.mp he with rfl | he
        · exact le_rfl
        · exact (List.pairwise_cons.mp hclock).1 _ (List.mem_map_of_mem he)
  induction events with
  | nil => exact fun _ _ _ _ ↦ Iff.rfl
  | cons event events ih =>
    intro bound queue hgood hbound
    obtain ⟨hfirst, hrest⟩ := List.pairwise_cons.mp hclock
    have hnext := @Good.step _ combined _ _ hgood event (hbound event List.mem_cons_self)
    have hlater := ih hrest event.nowMs _ hnext fun e he ↦ hfirst _ (List.mem_map_of_mem he)
    exact and_congr (callMeets_iff hgood event) hlater

def samplePrompt (id text : String) (state : PromptState) : PromptEntry Unit :=
  { id, text, priority := .normal, state, createdAtMs := 1, metadata := () }

def sampleEvents : List (Event Unit) :=
  [⟨.enqueue "first" .normal none (), 1, "a"⟩, ⟨.enqueue "second" .normal none (), 1, "b"⟩,
    ⟨.takeNext, 1, ""⟩]

theorem prompts_served_sample :
    Runs.Along (step fun _ ↦ ()) (CallMeets fun _ ↦ ()) {} sampleEvents ↔
      Runs.Along (step fun _ ↦ ()) CallClear {} sampleEvents :=
  prompts_served_iff (fun _ ↦ ()) sampleEvents (by decide)

/-- The second of two prompts is taken first, and a canceled prompt is completed. -/
theorem second_prompt_is_taken_first :
    ¬ Runs.Along (step fun _ ↦ ()) (CallMeets fun _ ↦ ()) {} sampleEvents ∧
    ¬ Runs.Along (step fun _ ↦ ()) (CallMeets fun _ ↦ ()) {}
      ([⟨.enqueue "first" .normal none (), 1, "a"⟩, ⟨.cancel "a", 1, ""⟩,
        ⟨.complete "a", 1, ""⟩] : List (Event Unit)) := by
  constructor
  · rintro ⟨-, -, ⟨-, hserves⟩, -⟩
    rcases hserves with ⟨-, hnil⟩ | ⟨i, e, hfirst, htake⟩
    · revert hnil
      decide +kernel
    · have htaken : (takeNext ⟨[samplePrompt "a" "first" .pending,
          samplePrompt "b" "second" .pending]⟩).2.map PromptEntry.id = some "b" := by
        decide +kernel
      have hid : e.id = "b" := by
        have hresult := congrArg (fun result ↦ result.2.map PromptEntry.id) htake
        exact Option.some.inj (hresult.symm.trans htaken)
      have hfront : i ≠ 0 := by
        rintro rfl
        have hget : some (samplePrompt "a" "first" .pending) = some e := hfirst.get
        rw [← Option.some.inj hget] at hid
        revert hid
        decide
      rcases hfirst.first 0 (samplePrompt "a" "first" .pending) rfl rfl (Ne.symm hfront) with
        hlt | ⟨-, hlt⟩
      · have hrank : e.priority = .normal := by
          have hresult := congrArg (fun result ↦ result.2.map PromptEntry.priority) htake
          have hnormal : (takeNext ⟨[samplePrompt "a" "first" .pending,
              samplePrompt "b" "second" .pending]⟩).2.map PromptEntry.priority =
                some .normal := by decide +kernel
          exact Option.some.inj (hresult.symm.trans hnormal)
        rw [hrank] at hlt
        exact lt_irrefl _ hlt
      · exact absurd hlt (Nat.not_lt_zero i)
  · rintro ⟨-, -, ⟨hkept, -⟩, -⟩
    have hcanceled := hkept 0 (samplePrompt "a" "first" .cancelled) (by decide +kernel)
      (Or.inr rfl)
    revert hcanceled
    decide +kernel

end PromptQueue

end Fabushi.Orchestrator
