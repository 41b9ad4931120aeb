import Fabushi.Kernel.Supervisor
import Fabushi.Library.DepthFirst
import Fabushi.Library.Joined
import Fabushi.Library.Result
import Fabushi.Library.Runs

/-!
# Runs of the supervisor

A task that has started has its dependencies behind it, and the last state of a task stays.
What is still reported about it afterwards, the end of an attempt or the status of an oracle,
is written down.
-/

namespace Fabushi.Kernel

open Std Result MachineInt

/-! ## The life of one task -/

def TaskState.isTerminal : TaskState → Bool
  | .succeeded | .failed => true
  | _ => false

def TaskState.hasStarted : TaskState → Bool
  | .running | .paused | .verifying | .succeeded => true
  | _ => false

def TaskRecord.Verified (task : TaskRecord) : Prop :=
  (∃ oracle ∈ task.oracles.values, oracle.required = true) ∧
    ∀ oracle ∈ task.oracles.values, oracle.required = true → oracle.status = .passed

theorem TaskRecord.verified_of_verifyCompletion {task : TaskRecord}
    (h : task.verifyCompletion = .ok ()) (hmode : task.verificationMode = .objectiveRequired) :
    task.Verified := by
  unfold TaskRecord.verifyCompletion at h
  rw [if_neg (by rw [hmode]; decide)] at h
  split at h
  · cases h
  · rename_i hsome
    split at h
    · rename_i hnone
      constructor
      · simpa using hsome
      · intro oracle hmem hrequired
        have hpassed := List.find?_eq_none.mp hnone oracle (List.mem_filter.mpr ⟨hmem, hrequired⟩)
        simpa using hpassed
    · split at h <;> cases h

inductive Moves (ready : Prop) (id : String) : SupervisorCall → TaskRecord → TaskRecord → Prop where
  | start {task : TaskRecord} (hstate : task.state = .pending) (hready : ready) :
      Moves ready id (.startTask id) task { task with state := .running }
  | pause {task : TaskRecord} (hstate : task.state = .running) :
      Moves ready id (.pauseTask id) task { task with state := .paused }
  | resume {task : TaskRecord} (hstate : task.state = .paused) :
      Moves ready id (.resumeTask id) task { task with state := .running }
  | beginAttempt {task : TaskRecord} {fingerprint : String} {startedAtMs : Int64}
      (hstate : task.state = .running) :
      Moves ready id (.beginAttempt id fingerprint startedAtMs) task
        { task with
          loopState := (task.loopState.observe fingerprint task.loopPolicy).2
          attempts := task.attempts ++
            [{ id := TaskSupervisor.attemptId task.id (task.attempts.length + 1)
               fingerprint, startedAtMs }] }
  | finishAttempt {task : TaskRecord} {attemptId : String} {index : ℕ} {finishedAtMs : Int64}
      {succeeded : Bool} :
      Moves ready id (.finishAttempt id attemptId finishedAtMs succeeded) task
        { task with
          attempts := task.attempts.modify index fun attempt ↦
            { attempt with finishedAtMs := some finishedAtMs, succeeded := some succeeded }
          loopState := if succeeded then task.loopState.reset else task.loopState }
  | beginVerification {task : TaskRecord} (hstate : task.state = .running) :
      Moves ready id (.beginVerification id) task { task with state := .verifying }
  | complete {task : TaskRecord} (hstate : task.state = .running ∨ task.state = .verifying)
      (hverified : task.verifyCompletion = .ok ()) :
      Moves ready id (.completeTask id) task { task with state := .succeeded, failure := none }
  | fail {task : TaskRecord} {reason : String} (hstate : task.state.isTerminal = false) :
      Moves ready id (.failTask id reason) task
        { task with state := .failed, failure := some reason }
  | callOracle {task : TaskRecord} {call : OracleCall}
      {oracles : BTreeMap String VerificationOracle} :
      Moves ready id (.callOracle id call) task { task with oracles }

def SupervisorCall.CallsOracle (id : String) : SupervisorCall → Prop
  | .callOracle other _ => other = id
  | _ => False

def SupervisorCall.FinishesAttempt (id : String) : SupervisorCall → Prop
  | .finishAttempt other _ _ _ => other = id
  | _ => False

structure Settled (old new : TaskRecord) : Prop where
  frame : new = { old with
    oracles := new.oracles, attempts := new.attempts, loopState := new.loopState }

namespace Moves

variable {ready : Prop} {id : String} {call : SupervisorCall} {old new : TaskRecord}

theorem frame (h : Moves ready id call old new) :
    new.id = old.id ∧ new.dependencies = old.dependencies ∧
      new.verificationMode = old.verificationMode ∧ new.loopPolicy = old.loopPolicy := by
  cases h <;> exact ⟨rfl, rfl, rfl, rfl⟩

theorem hasStarted (h : Moves ready id call old new) (hnew : new.state.hasStarted = true) :
    old.state.hasStarted = true ∨ ready := by
  cases h with
  | start _ hready => exact .inr hready
  | pause hstate | resume hstate | beginVerification hstate => exact .inl (by rw [hstate]; rfl)
  | beginAttempt | finishAttempt | callOracle => exact .inl hnew
  | complete hstate =>
      left
      rcases hstate with hstate | hstate <;> rw [hstate] <;> rfl
  | fail => cases hnew

theorem settled (h : Moves ready id call old new) (hold : old.state.isTerminal = true) :
    Settled old new ∧ (¬ call.CallsOracle id → new.oracles = old.oracles) ∧
      (¬ call.FinishesAttempt id →
        new.attempts = old.attempts ∧ new.loopState = old.loopState) := by
  cases h with
  | start hstate | pause hstate | resume hstate | beginAttempt hstate | beginVerification hstate =>
      rw [hstate] at hold
      cases hold
  | complete hstate =>
      rcases hstate with hstate | hstate <;> rw [hstate] at hold <;> cases hold
  | fail hstate =>
      rw [hstate] at hold
      cases hold
  | finishAttempt => exact ⟨⟨rfl⟩, fun _ ↦ rfl, fun hnot ↦ absurd rfl hnot⟩
  | callOracle => exact ⟨⟨rfl⟩, fun hnot ↦ absurd rfl hnot, fun _ ↦ ⟨rfl, rfl⟩⟩

theorem succeeded (h : Moves ready id call old new) (hnew : new.state = .succeeded) :
    old.state = .succeeded ∨
      call = .completeTask id ∧ old.verifyCompletion = .ok () ∧ new.oracles = old.oracles := by
  cases h with
  | start | pause | resume | beginVerification | fail => cases hnew
  | beginAttempt | finishAttempt | callOracle => exact .inl hnew
  | complete _ hverified => exact .inr ⟨rfl, hverified, rfl⟩

end Moves

namespace TaskSupervisor

variable {supervisor supervisor' : TaskSupervisor} {call : SupervisorCall}

theorem taskMut_eq_ok {id : String} {f : TaskRecord → Except SupervisorError TaskRecord}
    (h : supervisor.taskMut id f = .ok supervisor') :
    ∃ old new, supervisor.tasks[id]? = some old ∧ f old = .ok new ∧
      supervisor' = { tasks := supervisor.tasks.insert id new } := by
  unfold taskMut at h
  split at h
  · cases h
  · rename_i old hold
    cases hnew : f old with
    | error e =>
        rw [hnew] at h
        cases h
    | ok new =>
        rw [hnew] at h
        exact ⟨old, new, hold, hnew, (Except.ok.inj h).symm⟩

theorem transition_eq_ok {id : String} {expected next : TaskState}
    (h : supervisor.transition id expected next = .ok supervisor') :
    ∃ old, supervisor.tasks[id]? = some old ∧ old.state = expected ∧
      supervisor' = { tasks := supervisor.tasks.insert id { old with state := next } } := by
  obtain ⟨old, new, hold, hnew, hresult⟩ := taskMut_eq_ok h
  split at hnew
  · cases hnew
  · rename_i hstate
    obtain rfl := Except.ok.inj hnew
    exact ⟨old, hold, not_ne_iff.mp hstate, hresult⟩

theorem call_eq_ok {task after : TaskRecord} {call : OracleCall}
    (h : task.call call = .ok after) : ∃ oracles, after = { task with oracles } := by
  cases call with
  | addOracle oracle =>
      simp only [TaskRecord.call, TaskRecord.addOracle] at h
      split at h
      · cases h
      · exact ⟨_, (Except.ok.inj h).symm⟩
  | recordOracle name status evidence =>
      simp only [TaskRecord.call, TaskRecord.recordOracle] at h
      split at h
      · cases h
      · exact ⟨_, (Except.ok.inj h).symm⟩

theorem build_eq_ok {id goal : String} {dependencies : List String} {mode : VerificationMode}
    {calls : List OracleCall} {task : TaskRecord}
    (h : TaskRecord.build id goal dependencies mode calls = .ok task) :
    ∃ oracles, task =
      { id, goal, dependencies := .ofList dependencies compare, verificationMode := mode,
        oracles } := by
  unfold TaskRecord.build at h
  cases hnew : TaskRecord.new id goal dependencies mode with
  | error e =>
      rw [hnew] at h
      cases h
  | ok start =>
      rw [hnew] at h
      have hstart : start =
          { id, goal, dependencies := .ofList dependencies compare, verificationMode := mode } := by
        simp only [TaskRecord.new] at hnew
        split at hnew
        · cases hnew
        · split at hnew
          · cases hnew
          · split at hnew
            · cases hnew
            · exact (Except.ok.inj hnew).symm
      have hcalls : ∀ (calls : List OracleCall) (before : TaskRecord), ∃ oracles,
          calls.foldl (fun task call ↦ (task.call call).toOption.getD task) before =
            { before with oracles } := by
        intro calls
        induction calls with
        | nil => exact fun before ↦ ⟨before.oracles, rfl⟩
        | cons call calls ih =>
            intro before
            rw [List.foldl_cons]
            cases hcall : before.call call with
            | error e => exact ih before
            | ok after =>
                obtain ⟨oracles, rfl⟩ := call_eq_ok hcall
                exact ih { before with oracles }
      obtain ⟨oracles, horacles⟩ := hcalls calls start
      rw [hstart] at horacles
      exact ⟨oracles, (Except.ok.inj h).symm.trans (hstart ▸ horacles)⟩

def Ready (supervisor : TaskSupervisor) (task : TaskRecord) : Prop :=
  ∀ dependency ∈ task.dependencies, ∃ found : TaskRecord,
    supervisor.tasks[dependency]? = some found ∧ found.state = .succeeded

theorem dependenciesSucceeded_iff {task : TaskRecord} :
    supervisor.dependenciesSucceeded task = true ↔ supervisor.Ready task := by
  simp only [dependenciesSucceeded, List.all_eq_true, ExtTreeSet.mem_toList, Option.any_eq_true,
    decide_eq_true_eq, Ready]

def Keyed (supervisor : TaskSupervisor) : Prop :=
  ∀ (id : String) (task : TaskRecord), supervisor.tasks[id]? = some task → task.id = id

theorem addTask_eq_ok {task : TaskRecord} (h : supervisor.addTask task = .ok supervisor') :
    task.id ∉ supervisor.tasks ∧
      (∀ dependency ∈ task.dependencies, dependency ∈ supervisor.tasks) ∧
      supervisor' = { tasks := supervisor.tasks.insert task.id task } := by
  unfold addTask at h
  split at h
  · cases h
  · rename_i hfresh
    split at h
    · cases h
    · rename_i hnone
      refine ⟨hfresh, fun dependency hmem ↦ ?_, (Except.ok.inj h).symm⟩
      have hfound := List.find?_eq_none.mp hnone dependency (ExtTreeSet.mem_toList.mpr hmem)
      simpa using hfound

theorem startTask_eq_ok (hkeyed : supervisor.Keyed) {id : String}
    (h : supervisor.startTask id = .ok supervisor') :
    ∃ old, supervisor.tasks[id]? = some old ∧ old.state = .pending ∧ supervisor.Ready old ∧
      supervisor' = { tasks := supervisor.tasks.insert id { old with state := .running } } := by
  unfold startTask at h
  split at h
  · rename_i hready
    obtain ⟨old, new, hold, hnew, hresult⟩ := taskMut_eq_ok h
    obtain rfl := Except.ok.inj hnew
    obtain ⟨task, hmem, hid⟩ := List.mem_map.mp hready
    obtain ⟨hpending, hdone⟩ := List.mem_filter.mp hmem
    obtain ⟨hvalue, hstate⟩ := List.mem_filter.mp hpending
    obtain ⟨key, hkey⟩ := BTreeMap.mem_values.mp hvalue
    rw [← hkeyed key task hkey, hid] at hkey
    obtain rfl := Option.some.inj (hkey.symm.trans hold)
    exact ⟨task, hold, of_decide_eq_true hstate, dependenciesSucceeded_iff.mp hdone, hresult⟩
  · cases h

theorem beginAttempt_eq_ok {id fingerprint : String} {startedAtMs : Int64}
    {answer : (String × LoopDisposition) × TaskSupervisor}
    (h : supervisor.beginAttempt id fingerprint startedAtMs = .ok answer) :
    ∃ old, supervisor.tasks[id]? = some old ∧ old.state = .running ∧
      answer.1.2 = (old.loopState.observe fingerprint old.loopPolicy).1 ∧
      answer.2 = { tasks := supervisor.tasks.insert id { old with
        loopState := (old.loopState.observe fingerprint old.loopPolicy).2
        attempts := old.attempts ++ [{ id := attemptId old.id (old.attempts.length + 1)
                                       fingerprint, startedAtMs }] } } := by
  unfold beginAttempt at h
  split at h
  · cases h
  · rename_i old hold
    split at h
    · cases h
    · rename_i hstate
      split at h
      · cases h
      · obtain rfl := Except.ok.inj h
        exact ⟨old, hold, not_ne_iff.mp hstate, rfl, rfl⟩

theorem finishAttempt_eq_ok {taskId attemptId : String} {finishedAtMs : Int64} {succeeded : Bool}
    (h : supervisor.finishAttempt taskId attemptId finishedAtMs succeeded = .ok supervisor') :
    ∃ old index, supervisor.tasks[taskId]? = some old ∧
      supervisor' = { tasks := supervisor.tasks.insert taskId { old with
        attempts := old.attempts.modify index fun attempt ↦
          { attempt with finishedAtMs := some finishedAtMs, succeeded := some succeeded }
        loopState := if succeeded then old.loopState.reset else old.loopState } } := by
  obtain ⟨old, new, hold, hnew, hresult⟩ := taskMut_eq_ok h
  split at hnew
  · cases hnew
  · rename_i index hindex
    split at hnew
    · cases hnew
    · obtain rfl := Except.ok.inj hnew
      exact ⟨old, index, hold, hresult⟩

theorem completeTask_eq_ok {id : String} (h : supervisor.completeTask id = .ok supervisor') :
    ∃ old, supervisor.tasks[id]? = some old ∧
      (old.state = .running ∨ old.state = .verifying) ∧ old.verifyCompletion = .ok () ∧
      supervisor' =
        { tasks := supervisor.tasks.insert id
            { old with state := .succeeded, failure := none } } := by
  obtain ⟨old, new, hold, hnew, hresult⟩ := taskMut_eq_ok h
  split at hnew
  · cases hnew
  · rename_i hstate
    cases hverified : old.verifyCompletion with
    | error e =>
        rw [hverified] at hnew
        cases hnew
    | ok u =>
        rw [hverified] at hnew
        obtain rfl := Except.ok.inj hnew
        exact ⟨old, hold, by tauto, hverified, hresult⟩

theorem failTask_eq_ok {id reason : String}
    (h : supervisor.failTask id reason = .ok supervisor') :
    ∃ old, supervisor.tasks[id]? = some old ∧ old.state.isTerminal = false ∧
      supervisor' =
        { tasks := supervisor.tasks.insert id
            { old with state := .failed, failure := some reason } } := by
  obtain ⟨old, new, hold, hnew, hresult⟩ := taskMut_eq_ok h
  split at hnew
  · cases hnew
  · rename_i hstate
    obtain rfl := Except.ok.inj hnew
    refine ⟨old, hold, ?_, hresult⟩
    cases hold' : old.state with
    | pending | running | paused | verifying => rfl
    | succeeded | failed => simp [hold'] at hstate

theorem execute_eq_ok (hkeyed : supervisor.Keyed)
    (h : supervisor.execute call = .ok supervisor') :
    (∃ task : TaskRecord, task.id ∉ supervisor.tasks ∧
      (∀ dependency ∈ task.dependencies, dependency ∈ supervisor.tasks) ∧
      (∃ goal dependencies mode calls, call = .addTask task.id goal dependencies mode calls) ∧
      (∃ goal dependencies mode oracles,
        task = { id := task.id, goal, dependencies, verificationMode := mode, oracles }) ∧
      supervisor' = { tasks := supervisor.tasks.insert task.id task }) ∨
    ∃ id old new, supervisor.tasks[id]? = some old ∧
      Moves (supervisor.Ready old) id call old new ∧
      supervisor' = { tasks := supervisor.tasks.insert id new } := by
  cases call with
  | addTask id goal dependencies mode calls =>
      simp only [execute] at h
      cases hbuild : TaskRecord.build id goal dependencies mode calls with
      | error e =>
          rw [hbuild] at h
          cases h
      | ok task =>
          rw [hbuild] at h
          obtain ⟨oracles, rfl⟩ := build_eq_ok hbuild
          obtain ⟨hfresh, hclosed, hresult⟩ := addTask_eq_ok h
          exact .inl ⟨_, hfresh, hclosed, ⟨goal, dependencies, mode, calls, rfl⟩,
            ⟨goal, _, mode, oracles, rfl⟩, hresult⟩
  | startTask id =>
      obtain ⟨old, hold, hstate, hready, hresult⟩ := startTask_eq_ok hkeyed h
      exact .inr ⟨id, old, _, hold, .start hstate hready, hresult⟩
  | pauseTask id =>
      obtain ⟨old, hold, hstate, hresult⟩ := transition_eq_ok h
      exact .inr ⟨id, old, _, hold, .pause hstate, hresult⟩
  | resumeTask id =>
      obtain ⟨old, hold, hstate, hresult⟩ := transition_eq_ok h
      exact .inr ⟨id, old, _, hold, .resume hstate, hresult⟩
  | beginAttempt id fingerprint startedAtMs =>
      simp only [execute] at h
      cases hbegin : supervisor.beginAttempt id fingerprint startedAtMs with
      | error e =>
          rw [hbegin] at h
          cases h
      | ok answer =>
          rw [hbegin] at h
          obtain rfl := Except.ok.inj h
          obtain ⟨old, hold, hstate, -, hresult⟩ := beginAttempt_eq_ok hbegin
          exact .inr ⟨id, old, _, hold, .beginAttempt hstate, hresult⟩
  | finishAttempt taskId attemptId finishedAtMs succeeded =>
      obtain ⟨old, index, hold, hresult⟩ := finishAttempt_eq_ok h
      exact .inr ⟨taskId, old, _, hold, .finishAttempt, hresult⟩
  | beginVerification id =>
      obtain ⟨old, hold, hstate, hresult⟩ := transition_eq_ok h
      exact .inr ⟨id, old, _, hold, .beginVerification hstate, hresult⟩
  | completeTask id =>
      obtain ⟨old, hold, hstate, hverified, hresult⟩ := completeTask_eq_ok h
      exact .inr ⟨id, old, _, hold, .complete hstate hverified, hresult⟩
  | failTask id reason =>
      obtain ⟨old, hold, hstate, hresult⟩ := failTask_eq_ok h
      exact .inr ⟨id, old, _, hold, .fail hstate, hresult⟩
  | callOracle id call =>
      obtain ⟨old, new, hold, hnew, hresult⟩ := taskMut_eq_ok h
      obtain ⟨oracles, rfl⟩ := call_eq_ok hnew
      exact .inr ⟨id, old, _, hold, .callOracle, hresult⟩

end TaskSupervisor

/-! ## Supervisions -/

structure Supervision where
  supervisor : TaskSupervisor := {}
  accepted : List SupervisorCall := []

def SupervisorCall.loopEvent? (id : String) : SupervisorCall → Option (Option String)
  | .beginAttempt other fingerprint _ => if other = id then some (some fingerprint) else none
  | .finishAttempt other _ _ succeeded => if other = id ∧ succeeded then some none else none
  | _ => none

def loopEvents (accepted : List SupervisorCall) (id : String) : List (Option String) :=
  accepted.filterMap (SupervisorCall.loopEvent? id)

def streak (events : List (Option String)) (fingerprint : String) : ℕ :=
  (events.reverse.takeWhile (· = some fingerprint)).length

def LoopState.occurrences (state : LoopState) (fingerprint : String) : ℕ :=
  if state.lastFingerprint = some fingerprint then state.consecutiveOccurrences.toNat else 0

/-- The loop state counts the streak of every fingerprint, up to the largest `u32`. -/
def Counts (state : LoopState) (events : List (Option String)) : Prop :=
  ∀ fingerprint, state.occurrences fingerprint = min (streak events fingerprint) (2 ^ 32 - 1)

theorem streak_append_self (events : List (Option String)) (fingerprint : String) :
    streak (events ++ [some fingerprint]) fingerprint = streak events fingerprint + 1 := by
  rw [streak, List.reverse_append, List.reverse_singleton, List.singleton_append,
    List.takeWhile_cons_of_pos (by simp), List.length_cons, streak]

theorem streak_append_of_ne {events : List (Option String)} {event : Option String}
    {fingerprint : String} (hne : event ≠ some fingerprint) :
    streak (events ++ [event]) fingerprint = 0 := by
  rw [streak, List.reverse_append, List.reverse_singleton, List.singleton_append,
    List.takeWhile_cons_of_neg (by simpa using hne), List.length_nil]

theorem toNat_saturatingU32_succ (n : ℕ) (h : n ≤ 2 ^ 32 - 1) :
    (saturatingU32 (n + 1)).toNat = min (n + 1) (2 ^ 32 - 1) := by
  unfold saturatingU32
  split
  · rename_i hlt
    rw [UInt32.toNat_ofNat', Nat.mod_eq_of_lt hlt]
    omega
  · change 2 ^ 32 - 1 = _
    omega

theorem observe_count (state : LoopState) (fingerprint : String) (policy : LoopPolicy) :
    (state.observe fingerprint policy).2.lastFingerprint = some fingerprint ∧
      (state.observe fingerprint policy).2.consecutiveOccurrences.toNat =
        min (state.occurrences fingerprint + 1) (2 ^ 32 - 1) := by
  unfold LoopState.observe LoopState.occurrences
  by_cases hlast : state.lastFingerprint = some fingerprint
  · rw [if_pos hlast, if_pos hlast]
    have hlt := state.consecutiveOccurrences.toNat_lt
    exact ⟨hlast, toNat_saturatingU32_succ _ (by omega)⟩
  · rw [if_neg hlast, if_neg hlast]
    exact ⟨rfl, rfl⟩

theorem Counts.observe {state : LoopState} {events : List (Option String)}
    (h : Counts state events) (fingerprint : String) (policy : LoopPolicy) :
    Counts (state.observe fingerprint policy).2 (events ++ [some fingerprint]) := by
  intro other
  obtain ⟨hlast, hcount⟩ := observe_count state fingerprint policy
  by_cases hother : fingerprint = other
  · subst hother
    rw [LoopState.occurrences, if_pos hlast, hcount, h fingerprint, streak_append_self]
    omega
  · rw [LoopState.occurrences, if_neg (by rw [hlast]; simpa using hother),
      streak_append_of_ne (by simpa using hother)]
    rfl

theorem Counts.reset (state : LoopState) (events : List (Option String)) :
    Counts state.reset (events ++ [none]) := by
  intro fingerprint
  rw [streak_append_of_ne (by simp)]
  rfl

structure TaskRecord.Recorded (accepted : List SupervisorCall) (id : String)
    (task : TaskRecord) : Prop where
  keyed : task.id = id
  attempts : task.attempts.map AttemptRecord.id =
    (List.range task.attempts.length).map fun n ↦ TaskSupervisor.attemptId id (n + 1)
  policy : task.loopPolicy = .default
  counts : Counts task.loopState (loopEvents accepted id)

namespace Supervision

def next (supervision : Supervision) (call : SupervisorCall) : Supervision :=
  match supervision.supervisor.execute call with
  | .error _ => supervision
  | .ok supervisor => { supervisor, accepted := supervision.accepted ++ [call] }

/-! ### What is recorded of a task -/

section Recorded

variable {accepted : List SupervisorCall} {id : String} {call : SupervisorCall} {task : TaskRecord}

theorem loopEvents_append_of_none (hevent : call.loopEvent? id = none) :
    loopEvents (accepted ++ [call]) id = loopEvents accepted id := by
  rw [loopEvents, List.filterMap_append, List.filterMap_cons_none hevent, List.filterMap_nil,
    List.append_nil, loopEvents]

theorem loopEvents_append_of_some {event : Option String}
    (hevent : call.loopEvent? id = some event) :
    loopEvents (accepted ++ [call]) id = loopEvents accepted id ++ [event] := by
  rw [loopEvents, List.filterMap_append, List.filterMap_cons_some hevent, List.filterMap_nil,
    loopEvents]

theorem recorded_append (h : task.Recorded accepted id) (hevent : call.loopEvent? id = none) :
    task.Recorded (accepted ++ [call]) id := by
  refine ⟨h.keyed, h.attempts, h.policy, ?_⟩
  rw [loopEvents_append_of_none hevent]
  exact h.counts

theorem loopEvent?_of_ne {ready : Prop} {other : String} {old new : TaskRecord}
    (h : Moves ready other call old new) (hne : other ≠ id) : call.loopEvent? id = none := by
  cases h with
  | beginAttempt => exact if_neg hne
  | finishAttempt => exact if_neg fun hsame ↦ hne hsame.1
  | start | pause | resume | beginVerification | complete | fail | callOracle => rfl

theorem map_id_modify (attempts : List AttemptRecord) (index : ℕ) (finishedAtMs : Int64)
    (succeeded : Bool) :
    (attempts.modify index fun attempt ↦ { attempt with
      finishedAtMs := some finishedAtMs, succeeded := some succeeded }).map AttemptRecord.id =
        attempts.map AttemptRecord.id := by
  apply List.ext_getElem?
  intro i
  rw [List.getElem?_map, List.getElem?_map, List.getElem?_modify]
  cases attempts[i]? with
  | none => rfl
  | some attempt =>
      rw [Option.map_eq_map, Option.map_some, Option.map_some]
      split <;> rfl

theorem recorded_move {ready : Prop} {old new : TaskRecord} (h : old.Recorded accepted id)
    (hmove : Moves ready id call old new) : new.Recorded (accepted ++ [call]) id := by
  have hkept : call.loopEvent? id = none →
      Counts old.loopState (loopEvents (accepted ++ [call]) id) := by
    intro hevent
    rw [loopEvents_append_of_none hevent]
    exact h.counts
  cases hmove with
  | @beginAttempt _ fingerprint startedAtMs hstate =>
      have hevent : (SupervisorCall.beginAttempt id fingerprint startedAtMs).loopEvent? id =
          some (some fingerprint) := if_pos rfl
      refine ⟨h.keyed, ?_, h.policy, ?_⟩
      · rw [List.map_append, h.attempts, List.length_append, List.length_singleton,
          List.range_succ, List.map_append, h.keyed]
        rfl
      · rw [loopEvents_append_of_some hevent]
        exact h.counts.observe fingerprint old.loopPolicy
  | @finishAttempt _ attemptId index finishedAtMs succeeded =>
      refine ⟨h.keyed, ?_, h.policy, ?_⟩
      · dsimp only
        rw [map_id_modify, h.attempts, List.length_modify]
      · cases succeeded with
        | true =>
            have hevent : (SupervisorCall.finishAttempt id attemptId finishedAtMs true).loopEvent?
                id = some none := if_pos ⟨rfl, rfl⟩
            rw [loopEvents_append_of_some hevent]
            exact Counts.reset old.loopState _
        | false => exact hkept (if_neg fun hsame ↦ by cases hsame.2)
  | start | pause | resume | beginVerification | complete | fail | callOracle =>
      exact ⟨h.keyed, h.attempts, h.policy, hkept rfl⟩

end Recorded

/-! ### The invariant -/

def DependsOn (supervisor : TaskSupervisor) (a b : String) : Prop :=
  ∃ task : TaskRecord, supervisor.tasks[a]? = some task ∧ b ∈ task.dependencies

structure Sound (supervision : Supervision) : Prop where
  recorded : ∀ (id : String) (task : TaskRecord), supervision.supervisor.tasks[id]? = some task →
    task.Recorded supervision.accepted id
  unknown : ∀ id : String, supervision.supervisor.tasks[id]? = none →
    loopEvents supervision.accepted id = []
  closed : ∀ a b, DependsOn supervision.supervisor a b → b ∈ supervision.supervisor.tasks
  acyclic : ∀ id, ¬ Relation.TransGen (DependsOn supervision.supervisor) id id
  behind : ∀ (id : String) (task : TaskRecord), supervision.supervisor.tasks[id]? = some task →
    task.state.hasStarted = true → supervision.supervisor.Ready task

variable {supervision : Supervision} {call : SupervisorCall}

theorem Sound.keyed (h : supervision.Sound) : supervision.supervisor.Keyed :=
  fun id task htask ↦ (h.recorded id task htask).keyed

theorem next_cases (h : supervision.supervisor.Keyed) (call : SupervisorCall) :
    supervision.next call = supervision ∨
    (∃ task : TaskRecord, task.id ∉ supervision.supervisor.tasks ∧
      (∀ dependency ∈ task.dependencies, dependency ∈ supervision.supervisor.tasks) ∧
      (∃ goal dependencies mode calls, call = .addTask task.id goal dependencies mode calls) ∧
      (∃ goal dependencies mode oracles,
        task = { id := task.id, goal, dependencies, verificationMode := mode, oracles }) ∧
      supervision.next call =
        { supervisor := { tasks := supervision.supervisor.tasks.insert task.id task }
          accepted := supervision.accepted ++ [call] }) ∨
    ∃ id old new, supervision.supervisor.tasks[id]? = some old ∧
      Moves (supervision.supervisor.Ready old) id call old new ∧
      supervision.next call =
        { supervisor := { tasks := supervision.supervisor.tasks.insert id new }
          accepted := supervision.accepted ++ [call] } := by
  unfold next
  cases hexecute : supervision.supervisor.execute call with
  | error e => exact .inl rfl
  | ok supervisor =>
      right
      rcases TaskSupervisor.execute_eq_ok h hexecute with
        ⟨task, hfresh, hclosed, hcall, hnew, rfl⟩ | ⟨id, old, new, hold, hmove, rfl⟩
      · exact .inl ⟨task, hfresh, hclosed, hcall, hnew, rfl⟩
      · exact .inr ⟨id, old, new, hold, hmove, rfl⟩

theorem Sound.addTask (h : supervision.Sound) {task : TaskRecord}
    (hfresh : task.id ∉ supervision.supervisor.tasks)
    (hclosed : ∀ dependency ∈ task.dependencies, dependency ∈ supervision.supervisor.tasks)
    (hevent : ∀ id, call.loopEvent? id = none)
    (hnew : ∃ goal dependencies mode oracles,
      task = { id := task.id, goal, dependencies, verificationMode := mode, oracles }) :
    Sound
      { supervisor := { tasks := supervision.supervisor.tasks.insert task.id task }
        accepted := supervision.accepted ++ [call] } := by
  have hnone : supervision.supervisor.tasks[task.id]? = none := BTreeMap.get_eq_none_iff.mpr hfresh
  have hkept : ∀ (id : String) (found : TaskRecord),
      supervision.supervisor.tasks[id]? = some found →
      (supervision.supervisor.tasks.insert task.id task)[id]? = some found := by
    intro id found hfound
    have hne : task.id ≠ id := by
      rintro rfl
      rw [hnone] at hfound
      cases hfound
    exact (BTreeMap.get_insert_ne _ _ hne).trans hfound
  refine ⟨fun id found hfound ↦ ?_, fun id hid ↦ ?_, fun a b ⟨found, hfound, hb⟩ ↦ ?_, ?_,
    fun id found hfound hstarted ↦ ?_⟩
  · rcases BTreeMap.get_insert_cases hfound with ⟨rfl, rfl⟩ | hfound
    · obtain ⟨goal, dependencies, mode, oracles, htask⟩ := hnew
      refine ⟨rfl, by rw [htask]; rfl, by rw [htask], ?_⟩
      rw [loopEvents_append_of_none (hevent _), h.unknown _ hnone, htask]
      exact fun fingerprint ↦ rfl
    · exact recorded_append (h.recorded id found hfound) (hevent id)
  · dsimp only
    rw [loopEvents_append_of_none (hevent id)]
    apply h.unknown
    by_contra hsome
    obtain ⟨found, hfound⟩ := Option.ne_none_iff_exists'.mp hsome
    rw [hkept id found hfound] at hid
    cases hid
  · refine ExtTreeMap.mem_insert.mpr (.inr ?_)
    rcases BTreeMap.get_insert_cases hfound with ⟨-, rfl⟩ | hfound
    · exact hclosed b hb
    · exact h.closed a b ⟨found, hfound, hb⟩
  · refine DepthFirst.not_transGen_self_of_fresh h.acyclic (k := task.id) ?_ ?_
    · rintro a b ⟨found, hfound, hb⟩ hne
      exact ⟨found, (BTreeMap.get_insert_ne _ _ hne.symm).symm.trans hfound, hb⟩
    · rintro a ⟨found, hfound, hb⟩
      rcases BTreeMap.get_insert_cases hfound with ⟨-, rfl⟩ | hfound
      · exact hfresh (hclosed _ hb)
      · exact hfresh (h.closed a _ ⟨found, hfound, hb⟩)
  · rcases BTreeMap.get_insert_cases hfound with ⟨-, rfl⟩ | hfound
    · obtain ⟨goal, dependencies, mode, oracles, htask⟩ := hnew
      rw [htask] at hstarted
      cases hstarted
    · intro dependency hdependency
      obtain ⟨other, hother, hsucceeded⟩ := h.behind id found hfound hstarted dependency hdependency
      exact ⟨other, hkept dependency other hother, hsucceeded⟩

theorem Sound.move (h : supervision.Sound) {id : String} {old new : TaskRecord}
    (hold : supervision.supervisor.tasks[id]? = some old)
    (hmove : Moves (supervision.supervisor.Ready old) id call old new) :
    Sound
      { supervisor := { tasks := supervision.supervisor.tasks.insert id new }
        accepted := supervision.accepted ++ [call] } := by
  obtain ⟨hid, hdependencies, -, -⟩ := hmove.frame
  have hsame : ∀ a b, DependsOn { tasks := supervision.supervisor.tasks.insert id new } a b →
      DependsOn supervision.supervisor a b := by
    rintro a b ⟨task, htask, hb⟩
    rcases BTreeMap.get_insert_cases htask with ⟨rfl, rfl⟩ | htask
    · exact ⟨old, hold, hdependencies ▸ hb⟩
    · exact ⟨task, htask, hb⟩
  -- a task that has succeeded stays so
  have hready : ∀ task : TaskRecord, supervision.supervisor.Ready task →
      TaskSupervisor.Ready { tasks := supervision.supervisor.tasks.insert id new } task := by
    intro task hready dependency hdependency
    obtain ⟨found, hfound, hsucceeded⟩ := hready dependency hdependency
    by_cases hne : id = dependency
    · subst hne
      obtain rfl := Option.some.inj (hold.symm.trans hfound)
      obtain ⟨⟨hframe⟩, -⟩ := hmove.settled (by rw [hsucceeded]; rfl)
      refine ⟨new, BTreeMap.get_insert_self _ _ _, ?_⟩
      rw [hframe]
      exact hsucceeded
    · exact ⟨found, (BTreeMap.get_insert_ne _ _ hne).trans hfound, hsucceeded⟩
  refine ⟨fun other task htask ↦ ?_, fun other hnone ↦ ?_, fun a b hab ↦ ?_,
    fun a hcycle ↦ h.acyclic a (Relation.TransGen.mono hsame _ _ hcycle),
    fun other task htask hstarted ↦ ?_⟩
  · by_cases hother : id = other
    · subst hother
      obtain rfl := Option.some.inj ((BTreeMap.get_insert_self _ _ _).symm.trans htask)
      exact recorded_move (h.recorded id old hold) hmove
    · have htask' := (BTreeMap.get_insert_ne _ _ hother).symm.trans htask
      exact recorded_append (h.recorded other task htask') (loopEvent?_of_ne hmove hother)
  · by_cases hother : id = other
    · subst hother
      rw [BTreeMap.get_insert_self] at hnone
      cases hnone
    · rw [BTreeMap.get_insert_ne _ _ hother] at hnone
      dsimp only
      rw [loopEvents_append_of_none (loopEvent?_of_ne hmove hother)]
      exact h.unknown other hnone
  · exact ExtTreeMap.mem_insert.mpr (.inr (h.closed a b (hsame a b hab)))
  · apply hready
    rcases BTreeMap.get_insert_cases htask with ⟨-, rfl⟩ | htask
    · intro dependency hdependency
      rw [hdependencies] at hdependency
      rcases hmove.hasStarted hstarted with hold' | hready
      · exact h.behind id old hold hold' dependency hdependency
      · exact hready dependency hdependency
    · exact h.behind other task htask hstarted

theorem Sound.next (h : supervision.Sound) (call : SupervisorCall) :
    (supervision.next call).Sound := by
  rcases next_cases h.keyed call with
    hsame | ⟨task, hfresh, hclosed, ⟨goal, dependencies, mode, calls, rfl⟩, hnew, hnext⟩ |
      ⟨id, old, new, hold, hmove, hnext⟩
  · rw [hsame]
    exact h
  · rw [hnext]
    exact h.addTask hfresh hclosed (fun _ ↦ rfl) hnew
  · rw [hnext]
    exact h.move hold hmove

theorem sound_empty : ({} : Supervision).Sound := by
  have hnone : ∀ id : String, ({} : TaskSupervisor).tasks[id]? = none := fun id ↦ by simp
  have hgraph : ∀ a b, ¬ DependsOn {} a b := by
    rintro a b ⟨task, htask, -⟩
    rw [hnone] at htask
    cases htask
  refine ⟨fun id task htask ↦ ?_, fun _ _ ↦ rfl, fun a b hab ↦ absurd hab (hgraph a b),
    fun id hcycle ↦ ?_, fun id task htask ↦ ?_⟩
  · rw [hnone] at htask
    cases htask
  · obtain ⟨b, -, hb⟩ := Relation.TransGen.tail'_iff.mp hcycle
    exact hgraph b id hb
  · rw [hnone] at htask
    cases htask

theorem sound_run (calls : List SupervisorCall) : (Runs.run next {} calls).Sound :=
  Runs.invariant (fun _ call h ↦ h.next call) sound_empty calls

end Supervision

end Fabushi.Kernel
