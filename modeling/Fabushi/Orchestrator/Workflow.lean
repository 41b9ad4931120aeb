import Fabushi.Library.DepthFirst
import Fabushi.Library.Result
import Fabushi.Library.Text

/-!
# Workflows

The workflow of `mahayana-orchestrator`: tasks that wait for other tasks. A task may be
added only to a graph without a cycle, is started when its dependencies are completed, and
is canceled in any state.
-/

namespace Fabushi.Orchestrator

open Result

inductive OrchestratorError where
  | invalidInput (message : String)
  | duplicateWorkflowTask (id : String)
  | workflowTaskNotFound (id : String)
  | missingWorkflowDependency (taskId dependency : String)
  | workflowCycle (id : String)
  | workflowTaskNotRunnable (id : String)
  | workflowTaskNotRunning (id : String)
  deriving DecidableEq, Repr

inductive WorkflowTaskState where
  | pending
  | running
  | completed
  | failed
  | cancelled
  deriving DecidableEq, Repr

structure WorkflowTask (Value : Type) where
  id : String
  title : String
  dependsOn : BTreeSet String
  state : WorkflowTaskState := .pending
  result : Option Value := none
  error : Option String := none
  metadata : Value

structure Workflow (Value : Type) where
  id : String
  title : String
  tasks : BTreeMap String (WorkflowTask Value) := ∅

namespace Workflow

variable {Value : Type}

def new (generatedId title : String) : Except OrchestratorError (Workflow Value) :=
  if Text.isBlank title then .error (.invalidInput "workflow title must not be empty")
  else .ok { id := generatedId, title }

variable (workflow : Workflow Value)

def graph : DepthFirst.Graph String OrchestratorError where
  successors id := workflow.tasks[id]?.map fun task ↦ task.dependsOn.toList
  cycle := .workflowCycle
  missing := .workflowTaskNotFound

theorem mem_keys_of_successors (id : String) (h : (workflow.graph.successors id).isSome = true) :
    id ∈ workflow.tasks.keys := by
  rw [Std.ExtTreeMap.mem_keys, Std.ExtTreeMap.mem_iff_isSome_getElem?]
  rwa [graph, Option.isSome_map] at h

def validate : Except OrchestratorError Unit := do
  workflow.tasks.values.forM fun task ↦ task.dependsOn.toList.forM fun dependency ↦
    ensure (dependency ∈ workflow.tasks) (.missingWorkflowDependency task.id dependency)
  discard <| DepthFirst.search workflow.graph workflow.tasks.keys workflow.mem_keys_of_successors

def insertTask (id title : String) (dependsOn : BTreeSet String) (metadata : Value) :
    Workflow Value :=
  { workflow with tasks := workflow.tasks.insert id { id, title, dependsOn, metadata } }

def addTask (id title : String) (dependsOn : List String) (metadata : Value) :
    Except OrchestratorError Unit × Workflow Value :=
  if Text.isBlank id ∨ Text.isBlank title then
    (.error (.invalidInput "workflow task id and title must not be empty"), workflow)
  else if id ∈ workflow.tasks then (.error (.duplicateWorkflowTask id), workflow)
  else
    let dependsOn : BTreeSet String := .ofList dependsOn compare
    if id ∈ dependsOn then (.error (.workflowCycle id), workflow)
    else
      let inserted := workflow.insertTask id title dependsOn metadata
      match inserted.validate with
      | .error e => (.error e, { inserted with tasks := inserted.tasks.erase id })
      | .ok () => (.ok (), inserted)

def dependenciesCompleted (task : WorkflowTask Value) : Bool :=
  task.dependsOn.toList.all fun dependency ↦
    workflow.tasks[dependency]?.any fun dependency ↦ dependency.state = .completed

def runnableTasks : List (WorkflowTask Value) :=
  (workflow.tasks.values.filter fun task ↦ task.state = .pending).filter
    workflow.dependenciesCompleted

def changeTask (taskId : String)
    (f : WorkflowTask Value → Except OrchestratorError (WorkflowTask Value)) :
    Except OrchestratorError Unit × Workflow Value :=
  match workflow.tasks[taskId]? with
  | none => (.error (.workflowTaskNotFound taskId), workflow)
  | some task =>
      match f task with
      | .error e => (.error e, workflow)
      | .ok task => (.ok (), { workflow with tasks := workflow.tasks.insert taskId task })

def start (taskId : String) : Except OrchestratorError Unit × Workflow Value :=
  if workflow.runnableTasks.any fun task ↦ task.id = taskId then
    workflow.changeTask taskId fun task ↦ .ok { task with state := .running }
  else (.error (.workflowTaskNotRunnable taskId), workflow)

def changeRunning (taskId : String) (f : WorkflowTask Value → WorkflowTask Value) :
    Except OrchestratorError Unit × Workflow Value :=
  workflow.changeTask taskId fun task ↦
    if task.state ≠ .running then .error (.workflowTaskNotRunning taskId) else .ok (f task)

def complete (taskId : String) (result : Value) :
    Except OrchestratorError Unit × Workflow Value :=
  workflow.changeRunning taskId fun task ↦
    { task with state := .completed, result := some result, error := none }

def fail (taskId error : String) : Except OrchestratorError Unit × Workflow Value :=
  workflow.changeRunning taskId fun task ↦ { task with state := .failed, error := some error }

def cancel (taskId : String) : Except OrchestratorError Unit × Workflow Value :=
  workflow.changeTask taskId fun task ↦ .ok { task with state := .cancelled }

end Workflow

inductive Operation (Value : Type) where
  | addTask (id title : String) (dependsOn : List String) (metadata : Value)
  | start (taskId : String)
  | complete (taskId : String) (result : Value)
  | fail (taskId error : String)
  | cancel (taskId : String)

namespace Workflow

variable {Value : Type} (workflow : Workflow Value)

def execute : Operation Value → Except OrchestratorError Unit × Workflow Value
  | .addTask id title dependsOn metadata => workflow.addTask id title dependsOn metadata
  | .start taskId => workflow.start taskId
  | .complete taskId result => workflow.complete taskId result
  | .fail taskId error => workflow.fail taskId error
  | .cancel taskId => workflow.cancel taskId

def next (operation : Operation Value) : Workflow Value :=
  (workflow.execute operation).2

/-! ## What the validation decides -/

def DependsOn (a b : String) : Prop :=
  ∃ task : WorkflowTask Value, workflow.tasks[a]? = some task ∧ b ∈ task.dependsOn

def Closed : Prop := ∀ a b, workflow.DependsOn a b → b ∈ workflow.tasks

def Acyclic : Prop := ∀ id, ¬ Relation.TransGen workflow.DependsOn id id

theorem leads_iff (a b : String) : workflow.graph.Leads a b ↔ workflow.DependsOn a b := by
  constructor
  · rintro ⟨next, hnext, hb⟩
    obtain ⟨task, htask, rfl⟩ := Option.map_eq_some_iff.mp hnext
    exact ⟨task, htask, Std.ExtTreeSet.mem_toList.mp hb⟩
  · rintro ⟨task, htask, hb⟩
    exact ⟨_, Option.map_eq_some_iff.mpr ⟨task, htask, rfl⟩, Std.ExtTreeSet.mem_toList.mpr hb⟩

theorem graph_acyclic_iff : workflow.graph.Acyclic ↔ workflow.Acyclic := by
  have hsame : workflow.graph.Leads = workflow.DependsOn :=
    funext₂ fun a b ↦ propext (workflow.leads_iff a b)
  rw [DepthFirst.Graph.Acyclic, hsame, Acyclic]

theorem isSome_successors_iff (id : String) :
    (workflow.graph.successors id).isSome = true ↔ id ∈ workflow.tasks := by
  rw [graph, Option.isSome_map, Std.ExtTreeMap.mem_iff_isSome_getElem?]

theorem dependencies_exist_iff :
    (workflow.tasks.values.forM fun task ↦ task.dependsOn.toList.forM fun dependency ↦
      ensure (dependency ∈ workflow.tasks)
        (OrchestratorError.missingWorkflowDependency task.id dependency)) = .ok () ↔
      workflow.Closed := by
  simp only [forM_eq_ok, ensure_eq_ok, Std.ExtTreeSet.mem_toList, BTreeMap.mem_values]
  constructor
  · rintro h a b ⟨task, htask, hb⟩
    exact h task ⟨a, htask⟩ b hb
  · rintro h task ⟨a, htask⟩ b hb
    exact h a b ⟨task, htask, hb⟩

theorem validate_eq_ok : workflow.validate = .ok () ↔ workflow.Closed ∧ workflow.Acyclic := by
  rw [validate, bind_eq_ok]
  have hsearch (hclosed : workflow.Closed) :
      (∃ progress, DepthFirst.search workflow.graph workflow.tasks.keys
        workflow.mem_keys_of_successors = .ok progress) ↔ workflow.Acyclic := by
    rw [DepthFirst.search_isOk_iff, graph_acyclic_iff]
    · exact fun id hid ↦ (workflow.isSome_successors_iff id).mpr
        (Std.ExtTreeMap.mem_keys.mp hid)
    · intro a b hab
      exact (workflow.isSome_successors_iff b).mpr (hclosed a b ((workflow.leads_iff a b).mp hab))
  have hdiscard : ∀ {x : Except OrchestratorError (DepthFirst.Progress String)},
      discard x = .ok () ↔ ∃ progress, x = .ok progress := by
    intro x
    cases x with
    | error e => exact iff_of_false (fun h ↦ by cases h) fun ⟨_, h⟩ ↦ by cases h
    | ok progress => exact iff_of_true rfl ⟨progress, rfl⟩
  constructor
  · rintro ⟨_, hexist, hok⟩
    have hclosed := workflow.dependencies_exist_iff.mp hexist
    exact ⟨hclosed, (hsearch hclosed).mp (hdiscard.mp hok)⟩
  · rintro ⟨hclosed, hacyclic⟩
    exact ⟨(), workflow.dependencies_exist_iff.mpr hclosed,
      hdiscard.mpr ((hsearch hclosed).mpr hacyclic)⟩

end Workflow

end Fabushi.Orchestrator
