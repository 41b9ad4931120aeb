import Fabushi.Kernel.SupervisorRuns

/-!
# What stays of a supervised task

A task in its last state is only written to by the end of its attempts and by its oracle
methods, so an oracle may fail after the task has succeeded. The loop state counts attempts
when they begin, whether they fail or not.
-/

namespace Fabushi.Kernel

open Std

/-! ## Tasks in their last state -/

theorem Settled.refl (task : TaskRecord) : Settled task task := ⟨rfl⟩

theorem Settled.trans {a b c : TaskRecord} (hab : Settled a b) (hbc : Settled b c) :
    Settled a c := by
  refine ⟨hbc.frame.trans ?_⟩
  rw [hab.frame]

theorem Settled.state {old new : TaskRecord} (h : Settled old new) : new.state = old.state := by
  rw [h.frame]

namespace Supervision

structure Kept (calls : List SupervisorCall) (id : String) (old new : TaskRecord) : Prop where
  settled : Settled old new
  oracles : (∀ call ∈ calls, ¬ call.CallsOracle id) → new.oracles = old.oracles
  attempts : (∀ call ∈ calls, ¬ call.FinishesAttempt id) →
    new.attempts = old.attempts ∧ new.loopState = old.loopState

theorem Kept.nil (id : String) (task : TaskRecord) : Kept [] id task task :=
  ⟨.refl task, fun _ ↦ rfl, fun _ ↦ ⟨rfl, rfl⟩⟩

theorem Kept.append {calls later : List SupervisorCall} {id : String} {a b c : TaskRecord}
    (hab : Kept calls id a b) (hbc : Kept later id b c) : Kept (calls ++ later) id a c := by
  refine ⟨hab.settled.trans hbc.settled, fun hnone ↦ ?_, fun hnone ↦ ?_⟩
  · have hfirst := hab.oracles fun call hcall ↦ hnone call (List.mem_append_left _ hcall)
    have hsecond := hbc.oracles fun call hcall ↦ hnone call (List.mem_append_right _ hcall)
    exact hsecond.trans hfirst
  · have hfirst := hab.attempts fun call hcall ↦ hnone call (List.mem_append_left _ hcall)
    have hsecond := hbc.attempts fun call hcall ↦ hnone call (List.mem_append_right _ hcall)
    exact ⟨hsecond.1.trans hfirst.1, hsecond.2.trans hfirst.2⟩

variable {supervision : Supervision}

theorem kept_next (h : supervision.Sound) (call : SupervisorCall) {id : String} {old : TaskRecord}
    (hold : supervision.supervisor.tasks[id]? = some old)
    (hterminal : old.state.isTerminal = true) :
    ∃ new, (supervision.next call).supervisor.tasks[id]? = some new ∧ Kept [call] id old new := by
  have hsame : Kept [call] id old old := ⟨.refl old, fun _ ↦ rfl, fun _ ↦ ⟨rfl, rfl⟩⟩
  rcases next_cases h.keyed call with
    hnext | ⟨task, hfresh, -, -, -, hnext⟩ | ⟨other, old', new, hold', hmove, hnext⟩
  · rw [hnext]
    exact ⟨old, hold, hsame⟩
  · rw [hnext]
    have hne : task.id ≠ id := by
      rintro rfl
      rw [BTreeMap.get_eq_none_iff.mpr hfresh] at hold
      cases hold
    exact ⟨old, (BTreeMap.get_insert_ne _ _ hne).trans hold, hsame⟩
  · rw [hnext]
    by_cases hother : other = id
    · subst hother
      obtain rfl := Option.some.inj (hold.symm.trans hold')
      obtain ⟨hsettled, horacles, hattempts⟩ := hmove.settled hterminal
      exact ⟨new, BTreeMap.get_insert_self _ _ _, hsettled,
        fun hnone ↦ horacles (hnone call (List.mem_singleton_self _)),
        fun hnone ↦ hattempts (hnone call (List.mem_singleton_self _))⟩
    · exact ⟨old, (BTreeMap.get_insert_ne _ _ hother).trans hold, hsame⟩

theorem kept_run (h : supervision.Sound) (calls : List SupervisorCall) {id : String}
    {old : TaskRecord} (hold : supervision.supervisor.tasks[id]? = some old)
    (hterminal : old.state.isTerminal = true) :
    ∃ new, (Runs.run next supervision calls).supervisor.tasks[id]? = some new ∧
      Kept calls id old new := by
  induction calls generalizing supervision old with
  | nil => exact ⟨old, hold, Kept.nil id old⟩
  | cons call calls ih =>
      obtain ⟨middle, hmiddle, hfirst⟩ := kept_next h call hold hterminal
      have hmiddleTerminal : middle.state.isTerminal = true := by
        rw [hfirst.settled.state]
        exact hterminal
      obtain ⟨new, hnew, hrest⟩ := ih (h.next call) hmiddle hmiddleTerminal
      exact ⟨new, hnew, hfirst.append hrest⟩

/-! ## Tasks that have succeeded -/

theorem succeeded_next (h : supervision.Sound) (call : SupervisorCall) {id : String}
    {new : TaskRecord} (hnew : (supervision.next call).supervisor.tasks[id]? = some new)
    (hstate : new.state = .succeeded) :
    ∃ old : TaskRecord, supervision.supervisor.tasks[id]? = some old ∧
      new.verificationMode = old.verificationMode ∧
      (old.state = .succeeded ∨
        call = .completeTask id ∧ old.verifyCompletion = .ok () ∧ new.oracles = old.oracles) := by
  rcases next_cases h.keyed call with
    hnext | ⟨task, -, -, -, ⟨goal, dependencies, mode, oracles, htask⟩, hnext⟩ |
      ⟨other, old, moved, hold, hmove, hnext⟩
  · rw [hnext] at hnew
    exact ⟨new, hnew, rfl, .inl hstate⟩
  · rw [hnext] at hnew
    rcases BTreeMap.get_insert_cases hnew with ⟨-, rfl⟩ | hold
    · rw [htask] at hstate
      cases hstate
    · exact ⟨new, hold, rfl, .inl hstate⟩
  · rw [hnext] at hnew
    rcases BTreeMap.get_insert_cases hnew with ⟨rfl, rfl⟩ | hold'
    · exact ⟨old, hold, hmove.frame.2.2.1, hmove.succeeded hstate⟩
    · exact ⟨new, hold', rfl, .inl hstate⟩

theorem succeeded_run (calls : List SupervisorCall) {id : String} {task : TaskRecord}
    (htask : (Runs.run next {} calls).supervisor.tasks[id]? = some task)
    (hstate : task.state = .succeeded) :
    ∃ front back, calls = front ++ .completeTask id :: back ∧ ∃ old : TaskRecord,
      (Runs.run next {} front).supervisor.tasks[id]? = some old ∧
      (task.verificationMode = .objectiveRequired → old.Verified) ∧
      ((∀ call ∈ back, ¬ call.CallsOracle id) → task.oracles = old.oracles) := by
  induction calls using List.reverseRecOn generalizing task with
  | nil => simp at htask
  | append_singleton calls call ih =>
      have hsound := sound_run calls
      rw [Runs.run_append] at htask
      obtain ⟨old, hold, hmode, hsucceeded | ⟨rfl, hverified, horacles⟩⟩ :=
        succeeded_next hsound call htask hstate
      · obtain ⟨front, back, rfl, first, hfirst, hverified, hkept⟩ := ih hold hsucceeded
        obtain ⟨new, hnew, hlast⟩ := kept_next hsound call hold (by rw [hsucceeded]; rfl)
        obtain rfl := Option.some.inj (hnew.symm.trans htask)
        refine ⟨front, back ++ [call], by simp, first, hfirst, fun hobjective ↦ ?_,
          fun hnone ↦ ?_⟩
        · exact hverified (hmode ▸ hobjective)
        · have hbefore := hkept fun c hc ↦ hnone c (List.mem_append_left _ hc)
          have hafter := hlast.oracles fun c hc ↦ hnone c (List.mem_append_right _ hc)
          exact hafter.trans hbefore
      · refine ⟨calls, [], rfl, old, hold, fun hobjective ↦ ?_, fun _ ↦ horacles⟩
        exact TaskRecord.verified_of_verifyCompletion hverified (hmode ▸ hobjective)

/-! ## The ids of attempts -/

theorem attemptId_injective {id id' : String} {n n' : ℕ}
    (h : TaskSupervisor.attemptId id n = TaskSupervisor.attemptId id' n') : id = id' ∧ n = n' := by
  have hpieces : ∀ (id : String) (n : ℕ), Joined.pieces ':' (TaskSupervisor.attemptId id n) =
      Joined.pieces ':' "attempt" ++ Joined.pieces ':' id ++ [Nat.toDigits 10 n] := by
    intro id n
    have hdigits : Joined.pieces ':' (toString n) = [Nat.toDigits 10 n] :=
      Joined.pieces_repr (by decide) n
    rw [← hdigits, ← Joined.pieces_join, ← Joined.pieces_join]
    rfl
  have hsame := congrArg (Joined.pieces ':') h
  rw [hpieces, hpieces] at hsame
  obtain ⟨hid, hn⟩ := List.append_inj' hsame rfl
  exact ⟨Joined.pieces_injective (List.append_cancel_left hid),
    Joined.toDigits_injective (List.singleton_inj.mp hn)⟩

theorem Sound.attempt_id (h : supervision.Sound) {id : String} {task : TaskRecord}
    (htask : supervision.supervisor.tasks[id]? = some task) {i : ℕ} {attempt : AttemptRecord}
    (hattempt : task.attempts[i]? = some attempt) :
    attempt.id = TaskSupervisor.attemptId id (i + 1) := by
  have hids := congrArg (·[i]?) (h.recorded id task htask).attempts
  obtain ⟨hlt, rfl⟩ := List.getElem?_eq_some_iff.mp hattempt
  simpa [hlt] using hids

/-! ## What the loop state says -/

def disposition (streak : ℕ) : LoopDisposition :=
  if 4 ≤ streak then .interrupt else if 2 ≤ streak then .warn else .allow

theorem judge_default {occurrences : UInt32} {streak : ℕ}
    (h : occurrences.toNat = min streak (2 ^ 32 - 1)) :
    LoopPolicy.default.judge occurrences = disposition streak := by
  have hinterrupt : LoopPolicy.default.interruptAfter ≤ occurrences ↔ 4 ≤ streak := by
    rw [UInt32.le_iff_toNat_le, h]
    change 4 ≤ _ ↔ _
    omega
  have hwarn : LoopPolicy.default.warnAfter ≤ occurrences ↔ 2 ≤ streak := by
    rw [UInt32.le_iff_toNat_le, h]
    change 2 ≤ _ ↔ _
    omega
  simp only [LoopPolicy.judge, disposition, hinterrupt, hwarn]

theorem Sound.disposition (h : supervision.Sound) {id fingerprint : String} {startedAtMs : Int64}
    {answer : (String × LoopDisposition) × TaskSupervisor}
    (hbegin : supervision.supervisor.beginAttempt id fingerprint startedAtMs = .ok answer) :
    answer.1.2 = Supervision.disposition
      (streak (loopEvents supervision.accepted id) fingerprint + 1) := by
  obtain ⟨task, htask, -, hanswer, -⟩ := TaskSupervisor.beginAttempt_eq_ok hbegin
  have hrecorded := h.recorded id task htask
  obtain ⟨-, hcount⟩ := observe_count task.loopState fingerprint task.loopPolicy
  rw [hrecorded.counts fingerprint] at hcount
  rw [hrecorded.policy] at hcount hanswer
  rw [hanswer]
  exact judge_default (hcount.trans (by omega))

/-! ## Every run -/

/-- What holds after every sequence of calls on an empty supervisor: the graph, the order of the
dependencies, the verification of what has succeeded, what a terminal task keeps, the ids of
attempts and the meaning of a loop disposition. -/
theorem supervision_invariants (calls : List SupervisorCall) :
    let supervision := Runs.run next {} calls
    ((∀ a b, DependsOn supervision.supervisor a b → b ∈ supervision.supervisor.tasks) ∧
      ∀ id, ¬ Relation.TransGen (DependsOn supervision.supervisor) id id) ∧
    (∀ (id : String) (task : TaskRecord), supervision.supervisor.tasks[id]? = some task →
      task.state.hasStarted = true → ∀ dependency ∈ task.dependencies, ∃ found : TaskRecord,
        supervision.supervisor.tasks[dependency]? = some found ∧ found.state = .succeeded) ∧
    (∀ (id : String) (task : TaskRecord), supervision.supervisor.tasks[id]? = some task →
      task.state = .succeeded →
      ∃ front back, calls = front ++ .completeTask id :: back ∧ ∃ old : TaskRecord,
        (Runs.run next {} front).supervisor.tasks[id]? = some old ∧
        (task.verificationMode = .objectiveRequired → old.Verified) ∧
        ((∀ call ∈ back, ¬ call.CallsOracle id) → task.oracles = old.oracles)) ∧
    (∀ front back, calls = front ++ back → ∀ (id : String) (old : TaskRecord),
      (Runs.run next {} front).supervisor.tasks[id]? = some old → old.state.isTerminal = true →
      ∃ new, supervision.supervisor.tasks[id]? = some new ∧ Kept back id old new) ∧
    (∀ (id id' : String) (task task' : TaskRecord) (i i' : ℕ) (attempt attempt' : AttemptRecord),
      supervision.supervisor.tasks[id]? = some task →
      supervision.supervisor.tasks[id']? = some task' →
      task.attempts[i]? = some attempt → task'.attempts[i']? = some attempt' →
      attempt.id = attempt'.id → id = id' ∧ i = i') ∧
    ∀ id fingerprint startedAtMs answer,
      supervision.supervisor.beginAttempt id fingerprint startedAtMs = .ok answer →
      answer.1.2 = disposition (streak (loopEvents supervision.accepted id) fingerprint + 1) := by
  intro supervision
  have h : supervision.Sound := sound_run calls
  refine ⟨⟨h.closed, h.acyclic⟩, h.behind, fun id task ↦ succeeded_run calls, ?_, ?_,
    fun id fingerprint startedAtMs answer ↦ h.disposition⟩
  · rintro front back rfl id old hold hterminal
    obtain ⟨new, hnew, hkept⟩ := kept_run (sound_run front) back hold hterminal
    refine ⟨new, ?_, hkept⟩
    rw [show supervision = Runs.run next (Runs.run next {} front) back from Runs.run_append ..]
    exact hnew
  · intro id id' task task' i i' attempt attempt' htask htask' hattempt hattempt' hsame
    rw [h.attempt_id htask hattempt, h.attempt_id htask' hattempt'] at hsame
    obtain ⟨hid, hindex⟩ := attemptId_injective hsame
    exact ⟨hid, Nat.succ.inj hindex⟩

/-! ## What is reported late -/

def failureStreak (task : TaskRecord) (fingerprint : String) : ℕ :=
  (task.attempts.reverse.takeWhile fun attempt ↦
    attempt.fingerprint = fingerprint ∧ attempt.succeeded = some false).length

def demoTask (mode : VerificationMode) : List SupervisorCall :=
  [.addTask "a" "goal" [] mode [.addOracle { name := "ci", required := true, status := .passed }],
    .startTask "a"]

def demoAnswer (calls : List SupervisorCall) : Option LoopDisposition :=
  ((Runs.run next {} calls).supervisor.beginAttempt "a" "f" 2).toOption.map fun answer ↦ answer.1.2

/-- An oracle may fail after the task, an attempt may end after it, and the second attempt with
a fingerprint is warned of although none has failed. -/
theorem late_reports :
    (¬ ∀ (calls : List SupervisorCall) (id : String) (task : TaskRecord),
      (Runs.run next {} calls).supervisor.tasks[id]? = some task → task.state = .succeeded →
      task.verificationMode = .objectiveRequired → task.Verified) ∧
    (¬ ∀ (calls : List SupervisorCall) (call : SupervisorCall) (id : String) (task : TaskRecord),
      (Runs.run next {} calls).supervisor.tasks[id]? = some task → task.state.isTerminal = true →
      (Runs.run next {} (calls ++ [call])).supervisor.tasks[id]? = some task) ∧
    ¬ ∃ judge : ℕ → LoopDisposition, ∀ (calls : List SupervisorCall) (id fingerprint : String)
      (startedAtMs : Int64) (task : TaskRecord)
      (answer : (String × LoopDisposition) × TaskSupervisor),
      (Runs.run next {} calls).supervisor.tasks[id]? = some task →
      (Runs.run next {} calls).supervisor.beginAttempt id fingerprint startedAtMs = .ok answer →
      answer.1.2 = judge (failureStreak task fingerprint) := by
  refine ⟨fun h ↦ ?_, fun h ↦ ?_, ?_⟩
  · have hfailed : (Runs.run next {} (demoTask .objectiveRequired ++ [.completeTask "a",
        .callOracle "a" (.recordOracle "ci" .failed none)])).supervisor.tasks["a"]?.any fun task ↦
          task.state = .succeeded ∧ task.verificationMode = .objectiveRequired ∧
            ∃ oracle ∈ task.oracles.values, oracle.required = true ∧ oracle.status = .failed := by
      decide +kernel
    obtain ⟨task, htask, hlate⟩ := (Option.any_eq_true _ _).mp hfailed
    obtain ⟨hstate, hmode, oracle, hmem, hrequired, hstatus⟩ := of_decide_eq_true hlate
    have hpassed := (h _ "a" task htask hstate hmode).2 oracle hmem hrequired
    rw [hstatus] at hpassed
    cases hpassed
  · have hopen : (Runs.run next {} (demoTask .bestEffort ++ [.beginAttempt "a" "f" 1,
        .completeTask "a"])).supervisor.tasks["a"]?.any fun task ↦
          task.state.isTerminal = true ∧
            ∃ attempt ∈ task.attempts, attempt.finishedAtMs = none := by
      decide +kernel
    have hclosed : (Runs.run next {} ((demoTask .bestEffort ++ [.beginAttempt "a" "f" 1,
        .completeTask "a"]) ++
          [.finishAttempt "a" "attempt:a:1" 2 true])).supervisor.tasks["a"]?.all fun task ↦ ∀ attempt ∈ task.attempts, attempt.finishedAtMs ≠ none := by
      decide +kernel
    obtain ⟨task, htask, hterminal⟩ := (Option.any_eq_true _ _).mp hopen
    obtain ⟨hterminal, attempt, hmem, hnone⟩ := of_decide_eq_true hterminal
    have hafter := h _ (.finishAttempt "a" "attempt:a:1" 2 true) "a" task htask hterminal
    rw [hafter] at hclosed
    exact of_decide_eq_true hclosed attempt hmem hnone
  · rintro ⟨judge, h⟩
    have hzero : ∀ calls disposition, demoAnswer calls = some disposition →
        ((Runs.run next {} calls).supervisor.tasks["a"]?.map (failureStreak · "f")) = some 0 →
        disposition = judge 0 := by
      intro calls disposition hanswer hstreak
      obtain ⟨task, htask, hnone⟩ := Option.map_eq_some_iff.mp hstreak
      cases hbegin : (Runs.run next {} calls).supervisor.beginAttempt "a" "f" 2 with
      | error e =>
          rw [demoAnswer, hbegin] at hanswer
          cases hanswer
      | ok answer =>
          rw [demoAnswer, hbegin] at hanswer
          rw [← Option.some.inj hanswer, ← hnone]
          exact h calls "a" "f" 2 task answer htask hbegin
    have hfirst := hzero (demoTask .bestEffort) .allow (by decide +kernel) (by decide +kernel)
    have hsecond := hzero (demoTask .bestEffort ++ [.beginAttempt "a" "f" 1]) .warn
      (by decide +kernel) (by decide +kernel)
    rw [← hfirst] at hsecond
    cases hsecond

end Supervision

end Fabushi.Kernel
