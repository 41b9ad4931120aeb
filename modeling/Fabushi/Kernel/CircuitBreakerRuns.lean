import Fabushi.Kernel.CircuitBreaker

/-!
# Runs of the circuit breaker

Between an opening and the next half-open period nothing is allowed, and in a half-open
period no more than the policy says, as long as no late success closes the circuit.
-/

namespace Fabushi.Kernel

open MachineInt

theorem lt_saturatingAdd {now time duration : Int64} (hduration : 0 < duration.toInt) :
    now.toInt < (saturatingAdd time duration).toInt ↔
      now.toInt < time.toInt + duration.toInt ∧ now.toInt < 2 ^ 63 - 1 := by
  obtain ⟨hlo, hhi⟩ := inRange_toInt now
  obtain ⟨htlo, -⟩ := inRange_toInt time
  by_cases hfits : time.toInt + duration.toInt < 2 ^ 63
  · rw [toInt_saturatingAdd ⟨by omega, hfits⟩]
    omega
  · have hmax : (saturatingAdd time duration).toInt = 2 ^ 63 - 1 := by
      rw [saturatingAdd, clamp, if_neg (by omega), if_pos (not_lt.mp hfits)]
      rfl
    rw [hmax]
    omega

namespace Traffic

structure Consistent (traffic : Traffic) : Prop where
  opened : traffic.breaker.state = .opened → ∃ time, traffic.breaker.openedAtMs = some time ∧
    traffic.opening = some { time, periods := traffic.periods }
  halfOpen : traffic.breaker.state = .halfOpen →
    ∃ opening, traffic.opening = some opening ∧ traffic.periods = opening.periods + 1
  counted : traffic.breaker.state = .halfOpen →
    traffic.outstanding ≤ traffic.breaker.halfOpenInFlight.toNat
  expired : traffic.breaker.state ≠ .opened → ∀ opening ∈ traffic.opening,
    opening.time.toInt + traffic.breaker.policy.openDurationMs.toInt ≤ traffic.now.toInt
  numbered : ∀ ticket ∈ traffic.tickets, ∀ period ∈ ticket.period, period ≤ traffic.periods
  few : traffic.outstanding ≤ traffic.breaker.policy.halfOpenMaxRequests.toNat

section Steps

variable {traffic : Traffic}

/-! ## Tickets -/

theorem countP_modify_le {α : Type} {p : α → Bool} {f : α → α} (hf : ∀ a, p (f a) → p a)
    (xs : List α) (i : ℕ) : (xs.modify i f).countP p ≤ xs.countP p := by
  induction xs generalizing i with
  | nil => simp
  | cons x xs ih =>
      cases i with
      | zero =>
          rw [List.modify_zero_cons, List.countP_cons, List.countP_cons]
          have hx := hf x
          split <;> simp_all
      | succ i =>
          rw [List.modify_succ_cons, List.countP_cons, List.countP_cons]
          exact Nat.add_le_add_right (ih i) _

theorem outstanding_answer_le (ticket : ℕ) :
    (traffic.answer ticket).outstanding ≤ traffic.outstanding := by
  apply countP_modify_le
  simp

theorem Consistent.numbered_answer (h : traffic.Consistent) (i : ℕ) :
    ∀ ticket ∈ (traffic.answer i).tickets, ∀ period ∈ ticket.period,
      period ≤ traffic.periods := by
  intro ticket hticket period hperiod
  obtain ⟨j, hj⟩ := List.mem_iff_getElem?.mp hticket
  rw [answer, List.getElem?_modify] at hj
  obtain ⟨old, hold, rfl⟩ := Option.map_eq_some_iff.mp hj
  refine h.numbered old (List.mem_of_getElem? hold) period ?_
  split at hperiod <;> exact hperiod

/-! ## Requests -/

theorem acquire_allow {breaker breaker' : CircuitBreaker} {nowMs : Int64}
    (h : breaker.acquire nowMs = (.allow, breaker')) :
    (breaker.state = .closed ∧ breaker' = breaker) ∨
      (breaker.state = .opened ∧
        ¬ nowMs.toInt < (saturatingAdd (breaker.openedAtMs.getD nowMs)
          breaker.policy.openDurationMs).toInt ∧
        breaker' = { breaker with state := .halfOpen, halfOpenInFlight := 1 }) ∨
      (breaker.state = .halfOpen ∧
        breaker.halfOpenInFlight < breaker.policy.halfOpenMaxRequests ∧
        breaker' = { breaker with
          halfOpenInFlight := saturatingU32 (breaker.halfOpenInFlight.toNat + 1) }) := by
  unfold CircuitBreaker.acquire at h
  cases hstate : breaker.state with
  | closed =>
      rw [hstate] at h
      exact .inl ⟨rfl, (Prod.mk.inj h).2.symm⟩
  | opened =>
      rw [hstate] at h
      dsimp only at h
      split at h
      · cases (Prod.mk.inj h).1
      · rename_i hlate
        exact .inr (.inl ⟨rfl, hlate, (Prod.mk.inj h).2.symm⟩)
  | halfOpen =>
      rw [hstate] at h
      dsimp only at h
      split at h
      · cases (Prod.mk.inj h).1
      · rename_i hfull
        exact .inr (.inr ⟨rfl, UInt32.not_le.mp hfull, (Prod.mk.inj h).2.symm⟩)

theorem acquire_reject {breaker breaker' : CircuitBreaker} {nowMs retryAtMs : Int64}
    (h : breaker.acquire nowMs = (.reject retryAtMs, breaker')) : breaker' = breaker := by
  unfold CircuitBreaker.acquire at h
  split at h
  · cases (Prod.mk.inj h).1
  · dsimp only at h
    split at h
    · exact (Prod.mk.inj h).2.symm
    · cases (Prod.mk.inj h).1
  · split at h
    · exact (Prod.mk.inj h).2.symm
    · cases (Prod.mk.inj h).1

/-- An open circuit lets a request pass once its time has run out, or at the last instant of
the clock. -/
theorem Consistent.opened_allow_iff (h : traffic.Consistent)
    (hopened : traffic.breaker.state = .opened) (nowMs : Int64) :
    ¬ nowMs.toInt < (saturatingAdd (traffic.breaker.openedAtMs.getD nowMs)
        traffic.breaker.policy.openDurationMs).toInt ↔
      ∀ opening ∈ traffic.opening, nowMs.toInt = 2 ^ 63 - 1 ∨
        opening.time.toInt + traffic.breaker.policy.openDurationMs.toInt ≤ nowMs.toInt := by
  obtain ⟨time, htime, hopening⟩ := h.opened hopened
  obtain ⟨hlo, hhi⟩ := inRange_toInt nowMs
  rw [htime, hopening, Option.getD_some, lt_saturatingAdd traffic.breaker.policy.valid.2.1]
  constructor
  · rintro hlate opening hmem
    obtain rfl := Option.some.inj hmem
    dsimp only
    omega
  · intro hall
    have hlate := hall _ rfl
    dsimp only at hlate
    omega

theorem Consistent.keepsOpen_iff (h : traffic.Consistent) {nowMs : Int64}
    (htimely : traffic.Timely (.acquire nowMs)) :
    traffic.KeepsOpen (.acquire nowMs) ↔ traffic.Punctual (.acquire nowMs) := by
  by_cases hopened : traffic.breaker.state = .opened
  · obtain ⟨time, htime, hopening⟩ := h.opened hopened
    have hallow : (traffic.breaker.acquire nowMs).1 = .allow ↔
        ¬ nowMs.toInt < (saturatingAdd (traffic.breaker.openedAtMs.getD nowMs)
          traffic.breaker.policy.openDurationMs).toInt := by
      simp only [CircuitBreaker.acquire, hopened]
      split <;> simp_all
    rw [KeepsOpen, Punctual, hallow, h.opened_allow_iff hopened, hopening, htime]
    simp only [Option.mem_some_iff, forall_eq', hopened, true_imp_iff]
    omega
  · refine iff_of_true (fun _ opening hmem ↦ ?_) fun hstate ↦ absurd hstate hopened
    exact (h.expired hopened opening hmem).trans htimely

theorem Consistent.reject (h : traffic.Consistent) {nowMs : Int64}
    (htimely : traffic.now.toInt ≤ nowMs.toInt) : { traffic with now := nowMs }.Consistent where
  opened := h.opened
  halfOpen := h.halfOpen
  counted := h.counted
  expired hstate opening hmem := (h.expired hstate opening hmem).trans htimely
  numbered := h.numbered
  few := h.few

theorem numbered_append (h : traffic.Consistent) {periods : ℕ} (hperiods : traffic.periods ≤ periods)
    {new : Ticket} (hnew : ∀ period ∈ new.period, period ≤ periods) :
    ∀ ticket ∈ traffic.tickets ++ [new], ∀ period ∈ ticket.period, period ≤ periods := by
  intro ticket hticket period hperiod
  rcases List.mem_append.mp hticket with hold | hlast
  · exact (h.numbered ticket hold period hperiod).trans hperiods
  · obtain rfl := List.mem_singleton.mp hlast
    exact hnew period hperiod

theorem Consistent.probe (h : traffic.Consistent) (hopened : traffic.breaker.state = .opened)
    {nowMs : Int64} (hlate : ∀ opening ∈ traffic.opening,
      opening.time.toInt + traffic.breaker.policy.openDurationMs.toInt ≤ nowMs.toInt) :
    (traffic.allowed nowMs
      { traffic.breaker with state := .halfOpen, halfOpenInFlight := 1 }).Consistent := by
  obtain ⟨time, htime, hopening⟩ := h.opened hopened
  have hold : traffic.tickets.countP (fun ticket ↦
      !ticket.answered && ticket.period == some (traffic.periods + 1)) = 0 := by
    rw [List.countP_eq_zero]
    intro ticket hticket hnew
    rw [Bool.and_eq_true, beq_iff_eq] at hnew
    have hle := h.numbered ticket hticket _ hnew.2
    omega
  have hone : (traffic.allowed nowMs
      { traffic.breaker with state := .halfOpen, halfOpenInFlight := 1 }).outstanding = 1 := by
    simp [outstanding, allowed, hopened, hold]
  have hmax : 1 ≤ traffic.breaker.policy.halfOpenMaxRequests.toNat := by
    have hpos := traffic.breaker.policy.valid.2.2
    rw [Nat.one_le_iff_ne_zero]
    exact fun hzero ↦ hpos (UInt32.toNat_inj.mp hzero)
  refine ⟨fun hstate ↦ ?_, fun _ ↦ ?_, fun _ ↦ ?_, fun _ ↦ hlate, ?_, ?_⟩
  · cases hstate
  · exact ⟨_, hopening, by simp [allowed, hopened]⟩
  · rw [hone]
    exact Nat.le_refl 1
  · simp only [allowed, hopened, if_true]
    exact numbered_append h (Nat.le_succ _) fun period hperiod ↦ by simp_all
  · rw [hone]
    exact hmax

theorem Consistent.further (h : traffic.Consistent) (hhalf : traffic.breaker.state = .halfOpen)
    (hfree : traffic.breaker.halfOpenInFlight < traffic.breaker.policy.halfOpenMaxRequests)
    {nowMs : Int64} (htimely : traffic.now.toInt ≤ nowMs.toInt) :
    (traffic.allowed nowMs { traffic.breaker with
      halfOpenInFlight :=
        saturatingU32 (traffic.breaker.halfOpenInFlight.toNat + 1) }).Consistent := by
  have hcount : (traffic.allowed nowMs { traffic.breaker with
      halfOpenInFlight := saturatingU32 (traffic.breaker.halfOpenInFlight.toNat + 1)
      }).outstanding = traffic.outstanding + 1 := by
    simp [outstanding, allowed, hhalf]
  have hcounted := h.counted hhalf
  have hlt := UInt32.lt_iff_toNat_lt.mp hfree
  have hbound := traffic.breaker.policy.halfOpenMaxRequests.toNat_lt
  have hsum : (saturatingU32 (traffic.breaker.halfOpenInFlight.toNat + 1)).toNat =
      traffic.breaker.halfOpenInFlight.toNat + 1 := toNat_saturatingU32 (by omega)
  refine ⟨fun hstate ↦ ?_, fun _ ↦ ?_, fun _ ↦ ?_, fun _ ↦ ?_, ?_, ?_⟩
  · rw [allowed, hhalf] at hstate
    cases hstate
  · simpa [allowed, hhalf] using h.halfOpen hhalf
  · rw [hcount]
    change _ ≤ (saturatingU32 (traffic.breaker.halfOpenInFlight.toNat + 1)).toNat
    omega
  · intro opening hmem
    exact (h.expired (by simp [hhalf]) opening hmem).trans htimely
  · simp only [allowed, hhalf]
    exact numbered_append h (Nat.le_refl _) fun period hperiod ↦ by simp_all
  · rw [hcount]
    change _ ≤ traffic.breaker.policy.halfOpenMaxRequests.toNat
    omega

theorem Consistent.pass (h : traffic.Consistent) (hclosed : traffic.breaker.state = .closed)
    {nowMs : Int64} (htimely : traffic.now.toInt ≤ nowMs.toInt) :
    (traffic.allowed nowMs traffic.breaker).Consistent := by
  have hcount : (traffic.allowed nowMs traffic.breaker).outstanding = traffic.outstanding := by
    simp [outstanding, allowed, hclosed]
  refine ⟨fun hstate ↦ ?_, fun hstate ↦ ?_, fun hstate ↦ ?_, fun _ ↦ ?_, ?_, ?_⟩
  · rw [allowed, hclosed] at hstate
    cases hstate
  · rw [allowed, hclosed] at hstate
    cases hstate
  · rw [allowed, hclosed] at hstate
    cases hstate
  · intro opening hmem
    exact (h.expired (by simp [hclosed]) opening hmem).trans htimely
  · simp only [allowed, hclosed]
    exact numbered_append h (Nat.le_refl _) fun period hperiod ↦ by simp_all
  · rw [hcount]
    exact h.few

/-! ## Results -/

theorem recordFailure_policy (breaker : CircuitBreaker) (nowMs : Int64) :
    (breaker.recordFailure nowMs).policy = breaker.policy := by
  unfold CircuitBreaker.recordFailure
  split
  · rfl
  · dsimp only
    split <;> rfl

theorem recordFailure_opens {breaker : CircuitBreaker} (hopens : breaker.FailureOpens)
    (nowMs : Int64) : (breaker.recordFailure nowMs).state = .opened ∧
      (breaker.recordFailure nowMs).openedAtMs = some nowMs := by
  unfold CircuitBreaker.recordFailure
  split
  · exact ⟨rfl, rfl⟩
  · rename_i hhalf
    dsimp only
    rw [if_pos (hopens.resolve_left hhalf)]
    exact ⟨rfl, rfl⟩

theorem recordFailure_counts {breaker : CircuitBreaker} (hopens : ¬ breaker.FailureOpens)
    (nowMs : Int64) : breaker.state ≠ .halfOpen ∧
      (breaker.recordFailure nowMs).state = breaker.state ∧
        (breaker.recordFailure nowMs).openedAtMs = breaker.openedAtMs := by
  obtain ⟨hhalf, hfew⟩ := not_or.mp hopens
  unfold CircuitBreaker.recordFailure
  rw [if_neg hhalf]
  dsimp only
  rw [if_neg hfew]
  exact ⟨hhalf, rfl, rfl⟩

theorem Consistent.failure (h : traffic.Consistent) (i : ℕ) {nowMs : Int64}
    (htimely : traffic.now.toInt ≤ nowMs.toInt) :
    { traffic.answer i with
      breaker := traffic.breaker.recordFailure nowMs
      now := nowMs
      opening := if traffic.breaker.FailureOpens then
          some { time := nowMs, periods := traffic.periods }
        else traffic.opening }.Consistent := by
  have hfew := (outstanding_answer_le i).trans h.few
  rw [← recordFailure_policy traffic.breaker nowMs] at hfew
  by_cases hopens : traffic.breaker.FailureOpens
  · obtain ⟨hstate, hopenedAt⟩ := recordFailure_opens hopens nowMs
    rw [if_pos hopens]
    refine ⟨fun _ ↦ ⟨nowMs, hopenedAt, rfl⟩, fun hhalf ↦ ?_, fun hhalf ↦ ?_, fun hne ↦ ?_,
      h.numbered_answer i, hfew⟩
    · cases hstate.symm.trans hhalf
    · cases hstate.symm.trans hhalf
    · exact absurd hstate hne
  · obtain ⟨hhalf, hstate, hopenedAt⟩ := recordFailure_counts hopens nowMs
    rw [if_neg hopens]
    refine ⟨fun hopened ↦ ?_, fun hnow ↦ ?_, fun hnow ↦ ?_, fun hne opening hmem ↦ ?_,
      h.numbered_answer i, hfew⟩
    · obtain ⟨time, htime, hopening⟩ := h.opened (hstate.symm.trans hopened)
      exact ⟨time, hopenedAt.trans htime, hopening⟩
    · exact absurd (hstate.symm.trans hnow) hhalf
    · exact absurd (hstate.symm.trans hnow) hhalf
    · have hexpired := h.expired (fun hopened ↦ hne (hstate.trans hopened)) opening hmem
      rw [recordFailure_policy]
      exact hexpired.trans htimely

theorem Consistent.success (h : traffic.Consistent) (i : ℕ)
    (hstate : traffic.breaker.state ≠ .opened) :
    { traffic.answer i with breaker := traffic.breaker.recordSuccess }.Consistent := by
  refine ⟨fun hopened ↦ ?_, fun hhalf ↦ ?_, fun hhalf ↦ ?_, fun _ ↦ h.expired hstate,
    h.numbered_answer i, (outstanding_answer_le i).trans h.few⟩
  · cases hopened
  · cases hhalf
  · cases hhalf

/-! ## Calls and runs -/

theorem Consistent.next (h : traffic.Consistent) {call : Call} (htimely : traffic.Timely call)
    (hpunctual : traffic.Punctual call) : (traffic.next call).Consistent := by
  cases call with
  | acquire nowMs =>
      have hkeeps := (h.keepsOpen_iff htimely).mpr hpunctual
      simp only [Traffic.next]
      split
      · rename_i breaker hallow
        rcases acquire_allow hallow with ⟨hclosed, rfl⟩ | ⟨hopened, -, rfl⟩ | ⟨hhalf, hfree, rfl⟩
        · exact h.pass hclosed htimely
        · exact h.probe hopened (hkeeps (congrArg Prod.fst hallow))
        · exact h.further hhalf hfree htimely
      · rename_i hreject
        rw [acquire_reject hreject]
        exact h.reject htimely
  | success ticket =>
      simp only [Traffic.next]
      split
      · rename_i hflight
        apply h.success ticket
        intro hopened
        have hhalf := (hpunctual hflight (by simp [hopened])).1
        cases hopened.symm.trans hhalf
      · exact h
  | failure ticket nowMs =>
      simp only [Traffic.next]
      split
      · exact h.failure ticket htimely
      · exact h

theorem acquire_policy (breaker : CircuitBreaker) (nowMs : Int64) :
    (breaker.acquire nowMs).2.policy = breaker.policy := by
  unfold CircuitBreaker.acquire
  split
  · rfl
  · dsimp only
    split <;> rfl
  · split <;> rfl

theorem next_policy (call : Call) :
    (traffic.next call).breaker.policy = traffic.breaker.policy := by
  cases call with
  | acquire nowMs =>
      have hpolicy := acquire_policy traffic.breaker nowMs
      simp only [Traffic.next]
      split
      · rename_i breaker hallow
        rw [hallow] at hpolicy
        exact hpolicy
      · rename_i hreject
        rw [hreject] at hpolicy
        exact hpolicy
  | success ticket =>
      simp only [Traffic.next]
      split <;> rfl
  | failure ticket nowMs =>
      simp only [Traffic.next]
      split
      · exact recordFailure_policy traffic.breaker nowMs
      · rfl

theorem next_acquire_state (hstate : traffic.breaker.state ≠ .closed) (nowMs : Int64) :
    (traffic.next (.acquire nowMs)).breaker.state ≠ .closed := by
  simp only [Traffic.next]
  split
  · rename_i breaker hallow
    rcases acquire_allow hallow with ⟨hclosed, -⟩ | ⟨-, -, rfl⟩ | ⟨hhalf, -, rfl⟩
    · exact absurd hclosed hstate
    · simp [allowed]
    · simp [allowed, hhalf]
  · rename_i hreject
    rw [acquire_reject hreject]
    exact hstate

theorem next_failure_state (hstate : traffic.breaker.state ≠ .closed) (ticket : ℕ)
    (nowMs : Int64) : (traffic.next (.failure ticket nowMs)).breaker.state ≠ .closed := by
  simp only [Traffic.next]
  split
  · by_cases hopens : traffic.breaker.FailureOpens
    · simp [(recordFailure_opens hopens nowMs).1]
    · simpa [(recordFailure_counts hopens nowMs).2.1] using hstate
  · exact hstate

theorem Consistent.current_iff (h : traffic.Consistent) (hstate : traffic.breaker.state ≠ .closed)
    {ticket : Ticket} (hticket : ticket ∈ traffic.tickets) :
    (∃ period, ticket.period = some period ∧ ∀ opening ∈ traffic.opening,
      opening.periods < period) ↔
      traffic.breaker.state = .halfOpen ∧ ticket.period = some traffic.periods := by
  constructor
  · rintro ⟨period, hperiod, hafter⟩
    have hle := h.numbered ticket hticket period hperiod
    cases hnow : traffic.breaker.state with
    | closed => exact absurd hnow hstate
    | opened =>
        obtain ⟨time, -, hopening⟩ := h.opened hnow
        have hlt := hafter _ hopening
        dsimp only at hlt
        omega
    | halfOpen =>
        obtain ⟨opening, hopening, hperiods⟩ := h.halfOpen hnow
        have hlt := hafter opening hopening
        obtain rfl : period = traffic.periods := by omega
        exact ⟨rfl, hperiod⟩
  · rintro ⟨hhalf, hperiod⟩
    obtain ⟨opening, hopening, hperiods⟩ := h.halfOpen hhalf
    refine ⟨traffic.periods, hperiod, fun other hother ↦ ?_⟩
    obtain rfl := Option.some.inj (hopening.symm.trans hother)
    omega

theorem Consistent.closesOnProbe_success_iff (h : traffic.Consistent) (i : ℕ) :
    traffic.ClosesOnProbe (.success i) ↔ traffic.Punctual (.success i) := by
  cases hget : traffic.tickets[i]? with
  | none => simp [ClosesOnProbe, Punctual, Traffic.next, inFlight, hget]
  | some ticket =>
      constructor
      · intro hcloses hflight hstate
        have hclosed : (traffic.next (.success i)).breaker.state = .closed := by
          simp [Traffic.next, hflight, CircuitBreaker.recordSuccess]
        obtain ⟨i', ticket', period, hcall, hget', hperiod, hafter⟩ := hcloses hstate hclosed
        obtain rfl := Call.success.inj hcall
        obtain rfl := Option.some.inj (hget.symm.trans hget')
        have hcurrent := (h.current_iff hstate (List.mem_of_getElem? hget)).mp
          ⟨period, hperiod, hafter⟩
        exact ⟨hcurrent.1, by simpa [hget] using hcurrent.2⟩
      · intro hpunctual hstate hclosed
        by_cases hflight : traffic.inFlight i = true
        · obtain ⟨hhalf, hbind⟩ := hpunctual hflight hstate
          have hperiod : ticket.period = some traffic.periods := by simpa [hget] using hbind
          obtain ⟨period, hperiod, hafter⟩ :=
            (h.current_iff hstate (List.mem_of_getElem? hget)).mpr ⟨hhalf, hperiod⟩
          exact ⟨i, ticket, period, rfl, hget, hperiod, hafter⟩
        · simp only [Traffic.next, if_neg hflight] at hclosed
          exact absurd hclosed hstate

theorem Consistent.closesOnProbe (h : traffic.Consistent) {call : Call}
    (hpunctual : traffic.Punctual call) : traffic.ClosesOnProbe call := by
  cases call with
  | acquire nowMs =>
      exact fun hstate hclosed ↦ absurd hclosed (next_acquire_state hstate nowMs)
  | success ticket => exact (h.closesOnProbe_success_iff ticket).mpr hpunctual
  | failure ticket nowMs =>
      exact fun hstate hclosed ↦ absurd hclosed (next_failure_state hstate ticket nowMs)

theorem Consistent.protects_iff (h : traffic.Consistent) {call : Call}
    (htimely : traffic.Timely call) : traffic.Protects call ↔ traffic.Punctual call := by
  constructor
  · intro hprotects
    cases call with
    | acquire nowMs => exact (h.keepsOpen_iff htimely).mp hprotects.keepsOpen
    | success ticket => exact (h.closesOnProbe_success_iff ticket).mp hprotects.closesOnProbe
    | failure ticket nowMs => trivial
  · intro hpunctual
    refine ⟨?_, h.closesOnProbe hpunctual, ?_⟩
    · cases call with
      | acquire nowMs => exact (h.keepsOpen_iff htimely).mpr hpunctual
      | _ => trivial
    · rw [← next_policy call]
      exact (h.next htimely hpunctual).few

end Steps

def start (policy : CircuitPolicy) (now : Int64) : Traffic :=
  { breaker := { policy }, now }

theorem consistent_start (policy : CircuitPolicy) (now : Int64) :
    (start policy now).Consistent := by
  refine ⟨fun h ↦ ?_, fun h ↦ ?_, fun h ↦ ?_, fun _ opening hmem ↦ ?_,
    fun ticket hmem ↦ ?_, Nat.zero_le _⟩
  · cases h
  · cases h
  · cases h
  · cases hmem
  · cases hmem

/-- Along every run with a clock that does not go back, the breaker does what it is for at
every call exactly when every call is punctual. -/
theorem circuit_protects_iff (policy : CircuitPolicy) (now : Int64) (calls : List Call)
    (htimely : Runs.Along next Timely (start policy now) calls) :
    Runs.Along next Protects (start policy now) calls ↔
      Runs.Along next Punctual (start policy now) calls :=
  Runs.along_iff_along (fun _ _ h htimely ↦ h.protects_iff htimely)
    (fun _ _ h htimely hpunctual ↦ h.next htimely hpunctual) (consistent_start policy now) htimely

/-! ## A late success -/

def demoPolicy : CircuitPolicy where
  failureThreshold := 2
  openDurationMs := 100
  halfOpenMaxRequests := 1
  valid := by decide

def demoLate : List Call :=
  [.acquire 0, .acquire 0, .acquire 0, .failure 0 2, .failure 1 3, .success 2, .acquire 50]

/-- The circuit closes and lets a request pass 47 ms after it was opened. -/
theorem late_success_closes :
    ¬ ∀ (policy : CircuitPolicy) (now : Int64) (calls : List Call),
      Runs.Along next Timely (start policy now) calls →
        Runs.Along next Protects (start policy now) calls := by
  intro h
  have htimely : Runs.Along next Timely (start demoPolicy 0) demoLate := by
    decide +kernel
  have hprotects := (h demoPolicy 0 demoLate htimely).takes
    (t := Runs.run next (start demoPolicy 0) (demoLate.take 6)) (i := .acquire 50)
    ⟨demoLate.take 6, [], rfl, rfl⟩
  have hkeeps := hprotects.keepsOpen (by decide +kernel) { time := 3, periods := 0 }
    (by decide +kernel)
  revert hkeeps
  decide +kernel

theorem circuit_protects_iff_demo :
    Runs.Along next Protects (start demoPolicy 0)
      [.acquire 0, .acquire 0, .failure 0 2, .failure 1 3, .acquire 50, .acquire 103, .success 2,
        .acquire 104] :=
  (circuit_protects_iff demoPolicy 0 _ (by decide +kernel)).mpr (by decide +kernel)

end Traffic

end Fabushi.Kernel
