import Fabushi.Library.MachineInt
import Fabushi.Library.OrderedMap
import Fabushi.Library.Text

/-!
# The task supervisor

`supervisor.rs`: tasks with dependencies, the attempts at them and the oracles that verify
them. Attempts and oracles may be reported in any state of the task, also in the last one.
-/

namespace Fabushi.Kernel

open MachineInt

inductive TaskState where
  | pending
  | running
  | paused
  | verifying
  | succeeded
  | failed
  deriving DecidableEq, Repr

inductive VerificationMode where
  | bestEffort
  | objectiveRequired
  deriving DecidableEq, Repr

inductive OracleStatus where
  | pending
  | passed
  | failed
  deriving DecidableEq, Repr

inductive SupervisorError where
  | invalidTask (message : String)
  | taskExists (id : String)
  | taskNotFound (id : String)
  | dependencyNotFound (id : String)
  | taskNotReady (id : String)
  | invalidTransition (task : String) (before after : TaskState)
  | invalidOracle (message : String)
  | oracleExists (name : String)
  | oracleNotFound (name : String)
  | verificationBlocked (message : String)
  | verificationFailed (message : String)
  | invalidLoopPolicy
  | invalidAttempt (message : String)
  | attemptNotFound (id : String)
  deriving DecidableEq, Repr

structure VerificationOracle where
  name : String
  required : Bool
  status : OracleStatus := .pending
  evidence : Option String := none
  deriving DecidableEq

def VerificationOracle.new (name : String) (required : Bool) :
    Except SupervisorError VerificationOracle :=
  if Text.isBlank name then .error (.invalidOracle "oracle name is empty")
  else .ok { name, required }

inductive LoopDisposition where
  | allow
  | warn
  | interrupt
  deriving DecidableEq, Repr

structure LoopPolicy where
  warnAfter : UInt32
  interruptAfter : UInt32
  valid : 2 ≤ warnAfter ∧ warnAfter < interruptAfter

def LoopPolicy.new (warnAfter interruptAfter : UInt32) : Except SupervisorError LoopPolicy :=
  if valid : 2 ≤ warnAfter ∧ warnAfter < interruptAfter then
    .ok { warnAfter, interruptAfter, valid }
  else .error .invalidLoopPolicy

def LoopPolicy.default : LoopPolicy where
  warnAfter := 2
  interruptAfter := 4
  valid := by decide

structure LoopState where
  lastFingerprint : Option String := none
  consecutiveOccurrences : UInt32 := 0
  deriving DecidableEq

def LoopPolicy.judge (policy : LoopPolicy) (occurrences : UInt32) : LoopDisposition :=
  if policy.interruptAfter ≤ occurrences then .interrupt
  else if policy.warnAfter ≤ occurrences then .warn
  else .allow

def LoopState.observe (state : LoopState) (fingerprint : String) (policy : LoopPolicy) :
    LoopDisposition × LoopState :=
  let state : LoopState :=
    if state.lastFingerprint = some fingerprint then
      { state with
        consecutiveOccurrences := saturatingU32 (state.consecutiveOccurrences.toNat + 1) }
    else { lastFingerprint := some fingerprint, consecutiveOccurrences := 1 }
  (policy.judge state.consecutiveOccurrences, state)

def LoopState.reset (_state : LoopState) : LoopState := {}

structure AttemptRecord where
  id : String
  fingerprint : String
  startedAtMs : Int64
  finishedAtMs : Option Int64 := none
  succeeded : Option Bool := none
  deriving DecidableEq

structure TaskRecord where
  id : String
  goal : String
  dependencies : BTreeSet String
  state : TaskState := .pending
  verificationMode : VerificationMode
  oracles : BTreeMap String VerificationOracle := ∅
  attempts : List AttemptRecord := []
  loopPolicy : LoopPolicy := .default
  loopState : LoopState := {}
  failure : Option String := none

namespace TaskRecord

def new (id goal : String) (dependencies : List String) (verificationMode : VerificationMode) :
    Except SupervisorError TaskRecord :=
  if Text.isBlank id then .error (.invalidTask "task id is empty")
  else if Text.isBlank goal then .error (.invalidTask "task goal is empty")
  else
    let dependencies : BTreeSet String := .ofList dependencies compare
    if id ∈ dependencies then .error (.invalidTask "task cannot depend on itself")
    else .ok { id, goal, dependencies, verificationMode }

variable (task : TaskRecord)

def addOracle (oracle : VerificationOracle) : Except SupervisorError TaskRecord :=
  if oracle.name ∈ task.oracles then .error (.oracleExists oracle.name)
  else .ok { task with oracles := task.oracles.insert oracle.name oracle }

def recordOracle (name : String) (status : OracleStatus) (evidence : Option String) :
    Except SupervisorError TaskRecord :=
  match task.oracles[name]? with
  | none => .error (.oracleNotFound name)
  | some oracle =>
      .ok { task with oracles := task.oracles.insert name { oracle with status, evidence } }

/-- The first required oracle that has not passed decides the error. -/
def verifyCompletion : Except SupervisorError Unit :=
  if task.verificationMode = .bestEffort then .ok ()
  else if task.oracles.values.all fun oracle ↦ !oracle.required then
    .error (.verificationBlocked "objective verification requires at least one required oracle")
  else
    match (task.oracles.values.filter fun oracle ↦ oracle.required).find?
        fun oracle ↦ oracle.status ≠ .passed with
    | none => .ok ()
    | some oracle =>
        match oracle.status with
        | .failed => .error (.verificationFailed ("required oracle failed: " ++ oracle.name))
        | _ => .error (.verificationBlocked ("required oracle is pending: " ++ oracle.name))

end TaskRecord

inductive OracleCall where
  | addOracle (oracle : VerificationOracle)
  | recordOracle (name : String) (status : OracleStatus) (evidence : Option String)
  deriving DecidableEq

def TaskRecord.call (task : TaskRecord) : OracleCall → Except SupervisorError TaskRecord
  | .addOracle oracle => task.addOracle oracle
  | .recordOracle name status evidence => task.recordOracle name status evidence

/-- A record as a caller builds it: new, and then its oracle methods, of which those that are
refused change nothing. -/
def TaskRecord.build (id goal : String) (dependencies : List String)
    (verificationMode : VerificationMode) (calls : List OracleCall) :
    Except SupervisorError TaskRecord :=
  (TaskRecord.new id goal dependencies verificationMode).map fun task ↦
    calls.foldl (fun task call ↦ (task.call call).toOption.getD task) task

structure TaskSupervisor where
  tasks : BTreeMap String TaskRecord := ∅

namespace TaskSupervisor

variable (supervisor : TaskSupervisor)

def addTask (task : TaskRecord) : Except SupervisorError TaskSupervisor :=
  if task.id ∈ supervisor.tasks then .error (.taskExists task.id)
  else
    match task.dependencies.toList.find? fun dependency ↦ dependency ∉ supervisor.tasks with
    | some dependency => .error (.dependencyNotFound dependency)
    | none => .ok { tasks := supervisor.tasks.insert task.id task }

def taskMut (id : String) (f : TaskRecord → Except SupervisorError TaskRecord) :
    Except SupervisorError TaskSupervisor :=
  match supervisor.tasks[id]? with
  | none => .error (.taskNotFound id)
  | some task => (f task).map fun task ↦ { tasks := supervisor.tasks.insert id task }

def dependenciesSucceeded (task : TaskRecord) : Bool :=
  task.dependencies.toList.all fun dependency ↦
    supervisor.tasks[dependency]?.any fun dependency ↦ dependency.state = .succeeded

def readyTaskIds : List String :=
  ((supervisor.tasks.values.filter fun task ↦ task.state = .pending).filter
    supervisor.dependenciesSucceeded).map fun task ↦ task.id

def startTask (id : String) : Except SupervisorError TaskSupervisor :=
  if id ∈ supervisor.readyTaskIds then
    supervisor.taskMut id fun task ↦ .ok { task with state := .running }
  else .error (.taskNotReady id)

def transition (id : String) (expected next : TaskState) :
    Except SupervisorError TaskSupervisor :=
  supervisor.taskMut id fun task ↦
    if task.state ≠ expected then .error (.invalidTransition id task.state next)
    else .ok { task with state := next }

def pauseTask (id : String) : Except SupervisorError TaskSupervisor :=
  supervisor.transition id .running .paused

def resumeTask (id : String) : Except SupervisorError TaskSupervisor :=
  supervisor.transition id .paused .running

def attemptId (taskId : String) (number : ℕ) : String :=
  "attempt" ++ ":" ++ taskId ++ ":" ++ toString number

/-- The id of the new attempt and what the loop state says to it, with the new state. -/
def beginAttempt (id fingerprint : String) (startedAtMs : Int64) :
    Except SupervisorError ((String × LoopDisposition) × TaskSupervisor) :=
  match supervisor.tasks[id]? with
  | none => .error (.taskNotFound id)
  | some task =>
      if task.state ≠ .running then .error (.invalidTransition id task.state .running)
      else if Text.isBlank fingerprint then .error (.invalidAttempt "attempt fingerprint is empty")
      else
        let observed := task.loopState.observe fingerprint task.loopPolicy
        let attempt : AttemptRecord :=
          { id := attemptId task.id (task.attempts.length + 1), fingerprint, startedAtMs }
        let task :=
          { task with loopState := observed.2, attempts := task.attempts ++ [attempt] }
        .ok ((attempt.id, observed.1), { tasks := supervisor.tasks.insert id task })

def finishAttempt (taskId attemptId : String) (finishedAtMs : Int64) (succeeded : Bool) :
    Except SupervisorError TaskSupervisor :=
  supervisor.taskMut taskId fun task ↦
    match task.attempts.findIdx? fun attempt ↦ attempt.id = attemptId with
    | none => .error (.attemptNotFound attemptId)
    | some index =>
        if (task.attempts[index]?.bind AttemptRecord.finishedAtMs).isSome then
          .error (.invalidAttempt ("attempt already finished: " ++ attemptId))
        else .ok { task with
          attempts := task.attempts.modify index fun attempt ↦
            { attempt with finishedAtMs := some finishedAtMs, succeeded := some succeeded }
          loopState := if succeeded then task.loopState.reset else task.loopState }

def beginVerification (id : String) : Except SupervisorError TaskSupervisor :=
  supervisor.transition id .running .verifying

def completeTask (id : String) : Except SupervisorError TaskSupervisor :=
  supervisor.taskMut id fun task ↦
    if task.state ≠ .running ∧ task.state ≠ .verifying then
      .error (.invalidTransition id task.state .succeeded)
    else task.verifyCompletion.map fun _ ↦ { task with state := .succeeded, failure := none }

def failTask (id reason : String) : Except SupervisorError TaskSupervisor :=
  supervisor.taskMut id fun task ↦
    if task.state = .succeeded ∨ task.state = .failed then
      .error (.invalidTransition id task.state .failed)
    else .ok { task with state := .failed, failure := some reason }

end TaskSupervisor

inductive SupervisorCall where
  | addTask (id goal : String) (dependencies : List String) (verificationMode : VerificationMode)
      (calls : List OracleCall)
  | startTask (id : String)
  | pauseTask (id : String)
  | resumeTask (id : String)
  | beginAttempt (id fingerprint : String) (startedAtMs : Int64)
  | finishAttempt (taskId attemptId : String) (finishedAtMs : Int64) (succeeded : Bool)
  | beginVerification (id : String)
  | completeTask (id : String)
  | failTask (id reason : String)
  | callOracle (id : String) (call : OracleCall)
  deriving DecidableEq

def TaskSupervisor.execute (supervisor : TaskSupervisor) :
    SupervisorCall → Except SupervisorError TaskSupervisor
  | .addTask id goal dependencies verificationMode calls =>
      (TaskRecord.build id goal dependencies verificationMode calls).bind supervisor.addTask
  | .startTask id => supervisor.startTask id
  | .pauseTask id => supervisor.pauseTask id
  | .resumeTask id => supervisor.resumeTask id
  | .beginAttempt id fingerprint startedAtMs =>
      (supervisor.beginAttempt id fingerprint startedAtMs).map Prod.snd
  | .finishAttempt taskId attemptId finishedAtMs succeeded =>
      supervisor.finishAttempt taskId attemptId finishedAtMs succeeded
  | .beginVerification id => supervisor.beginVerification id
  | .completeTask id => supervisor.completeTask id
  | .failTask id reason => supervisor.failTask id reason
  | .callOracle id call => supervisor.taskMut id fun task ↦ task.call call

end Fabushi.Kernel
