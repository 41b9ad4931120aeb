import Fabushi.Library.Runs
import Fabushi.Orchestrator.Workflow

/-!
# Runs of a workflow

Tasks start behind their dependencies and a completed task stays completed, unless it is
canceled. What has been started behind it then runs without it. While no task has failed or
been canceled, the workflow gets to its end.
-/

namespace Fabushi.Orchestrator

open Std

variable {Value : Type}

def WorkflowTask.Started (task : WorkflowTask Value) : Prop :=
  task.state = .running ∨ task.state = .completed

instance (task : WorkflowTask Value) : Decidable task.Started := by
  unfold WorkflowTask.Started
  infer_instance

/-- The starts and completions that a task still needs. -/
def WorkflowTaskState.effort : WorkflowTaskState → ℕ
  | .pending => 2
  | .running => 1
  | _ => 0

namespace Workflow

variable {workflow : Workflow Value}

/-- The graph of the tasks as `validate` wants it, each task under its own id. -/
structure Sound (workflow : Workflow Value) : Prop where
  keyed : ∀ (id : String) (task : WorkflowTask Value), workflow.tasks[id]? = some task →
    task.id = id
  closed : workflow.Closed
  acyclic : workflow.Acyclic

def CompletedTask (workflow : Workflow Value) (id : String) : Prop :=
  ∃ task : WorkflowTask Value, workflow.tasks[id]? = some task ∧ task.state = .completed

def DependenciesHold (workflow : Workflow Value) : Prop :=
  ∀ (id : String) (task : WorkflowTask Value), workflow.tasks[id]? = some task → task.Started →
    ∀ dependency ∈ task.dependsOn, workflow.CompletedTask dependency

def SparesDependencies (workflow : Workflow Value) : Operation Value → Prop
  | .cancel taskId => ∀ task ∈ workflow.tasks.values, task.Started → taskId ∉ task.dependsOn
  | _ => True

instance (workflow : Workflow Value) (operation : Operation Value) :
    Decidable (workflow.SparesDependencies operation) := by
  unfold SparesDependencies
  cases operation <;> infer_instance

/-! ## The graph of the tasks -/

theorem insertTask_get_of_ne {id other title : String} {dependsOn : BTreeSet String}
    {metadata : Value} (hne : id ≠ other) :
    (workflow.insertTask id title dependsOn metadata).tasks[other]? = workflow.tasks[other]? :=
  BTreeMap.get_insert_ne _ _ hne

theorem erase_insertTask {id title : String} {dependsOn : BTreeSet String} {metadata : Value}
    (hfresh : id ∉ workflow.tasks) :
    { workflow with
      tasks := (workflow.insertTask id title dependsOn metadata).tasks.erase id } = workflow := by
  have htasks : (workflow.insertTask id title dependsOn metadata).tasks.erase id =
      workflow.tasks := by
    apply ExtTreeMap.ext_getElem?
    intro other
    rw [BTreeMap.get_erase]
    split
    · rename_i hid
      rw [← hid, BTreeMap.get_eq_none_iff.mpr hfresh]
    · rename_i hne
      exact insertTask_get_of_ne hne
  rw [htasks]

theorem addTask_cases (workflow : Workflow Value) (id title : String) (dependsOn : List String)
    (metadata : Value) :
    (∃ e, workflow.addTask id title dependsOn metadata = (.error e, workflow)) ∨
      id ∉ workflow.tasks ∧
      (workflow.insertTask id title (.ofList dependsOn compare) metadata).Closed ∧
      (workflow.insertTask id title (.ofList dependsOn compare) metadata).Acyclic ∧
      workflow.addTask id title dependsOn metadata =
        (.ok (), workflow.insertTask id title (.ofList dependsOn compare) metadata) := by
  unfold addTask
  split
  · exact .inl ⟨_, rfl⟩
  · split
    · exact .inl ⟨_, rfl⟩
    · rename_i hfresh
      dsimp only
      split
      · exact .inl ⟨_, rfl⟩
      · cases hvalid : (workflow.insertTask id title (.ofList dependsOn compare)
            metadata).validate with
        | error e => exact .inl ⟨e, congrArg _ (erase_insertTask hfresh)⟩
        | ok u =>
            obtain ⟨hclosed, hacyclic⟩ := (validate_eq_ok _).mp hvalid
            exact .inr ⟨hfresh, hclosed, hacyclic, rfl⟩

theorem changeTask_cases (workflow : Workflow Value) (taskId : String)
    (f : WorkflowTask Value → Except OrchestratorError (WorkflowTask Value)) :
    (∃ e, workflow.changeTask taskId f = (.error e, workflow)) ∨
      ∃ old new : WorkflowTask Value, workflow.tasks[taskId]? = some old ∧ f old = .ok new ∧
        workflow.changeTask taskId f =
          (.ok (), { workflow with tasks := workflow.tasks.insert taskId new }) := by
  unfold changeTask
  split
  · exact .inl ⟨_, rfl⟩
  · rename_i old hold
    split
    · exact .inl ⟨_, rfl⟩
    · rename_i new hnew
      exact .inr ⟨old, new, hold, hnew, rfl⟩

/-- What the operations on a task leave alone, and where they lead. -/
structure Changes (workflow : Workflow Value) (taskId : String) (old new : WorkflowTask Value) :
    Prop where
  found : workflow.tasks[taskId]? = some old
  id : new.id = old.id
  dependsOn : new.dependsOn = old.dependsOn
  started : new.Started → old.Started ∨ workflow.dependenciesCompleted old = true

/-- What a step may do with one task: cancel it, or change it before it is completed. -/
def Allowed (operation : Operation Value) (taskId : String) (old new : WorkflowTask Value) : Prop :=
  operation = .cancel taskId ∧ new.state = .cancelled ∨
    (∀ taskId, operation ≠ .cancel taskId) ∧ old.state ≠ .completed

theorem start_cases (hkeyed : ∀ (id : String) (task : WorkflowTask Value),
      workflow.tasks[id]? = some task → task.id = id) (taskId : String) :
    (workflow.start taskId).2 = workflow ∨
      ∃ old new, workflow.Changes taskId old new ∧ old.state ≠ .completed ∧
        (workflow.start taskId).2 =
          { workflow with tasks := workflow.tasks.insert taskId new } := by
  unfold start
  split
  · rename_i hrunnable
    rcases changeTask_cases workflow taskId (fun task ↦ .ok { task with state := .running })
      with ⟨e, hchange⟩ | ⟨old, new, hold, hnew, hchange⟩
    · exact .inl (congrArg Prod.snd hchange)
    · obtain ⟨task, hmem, hid⟩ := List.any_eq_true.mp hrunnable
      obtain ⟨hpending, hdone⟩ := List.mem_filter.mp hmem
      obtain ⟨hvalue, hstate⟩ := List.mem_filter.mp hpending
      obtain ⟨key, hkey⟩ := BTreeMap.mem_values.mp hvalue
      have hsame : task = old := by
        rw [← hkeyed key task hkey, of_decide_eq_true hid] at hkey
        exact Option.some.inj (hkey.symm.trans hold)
      rw [hsame] at hdone hstate
      refine .inr ⟨old, new, ?_, fun h ↦ ?_, congrArg Prod.snd hchange⟩
      · rw [← Except.ok.inj hnew]
        exact ⟨hold, rfl, rfl, fun _ ↦ .inr hdone⟩
      · rw [of_decide_eq_true hstate] at h
        cases h
  · exact .inl rfl

theorem changeRunning_cases (workflow : Workflow Value) (taskId : String)
    {f : WorkflowTask Value → WorkflowTask Value}
    (hf : ∀ task, (f task).id = task.id ∧ (f task).dependsOn = task.dependsOn) :
    (workflow.changeRunning taskId f).2 = workflow ∨
      ∃ old new, workflow.Changes taskId old new ∧ old.state ≠ .completed ∧
        (workflow.changeRunning taskId f).2 =
          { workflow with tasks := workflow.tasks.insert taskId new } := by
  rcases changeTask_cases workflow taskId fun task ↦
      if task.state ≠ .running then .error (.workflowTaskNotRunning taskId) else .ok (f task)
    with ⟨e, hchange⟩ | ⟨old, new, hold, hnew, hchange⟩
  · exact .inl (congrArg Prod.snd hchange)
  · split at hnew
    · cases hnew
    · rename_i hstate
      have hrunning : old.state = .running := not_ne_iff.mp hstate
      refine .inr ⟨old, new, ?_, fun h ↦ ?_, congrArg Prod.snd hchange⟩
      · rw [← Except.ok.inj hnew]
        exact ⟨hold, (hf old).1, (hf old).2, fun _ ↦ .inl (.inl hrunning)⟩
      · rw [hrunning] at h
        cases h

theorem next_cases (hkeyed : ∀ (id : String) (task : WorkflowTask Value),
      workflow.tasks[id]? = some task → task.id = id) (operation : Operation Value) :
    workflow.next operation = workflow ∨
    (∃ id title dependsOn metadata, id ∉ workflow.tasks ∧
      (workflow.insertTask id title dependsOn metadata).Closed ∧
      (workflow.insertTask id title dependsOn metadata).Acyclic ∧
      (∀ taskId, operation ≠ .cancel taskId) ∧
      workflow.next operation = workflow.insertTask id title dependsOn metadata) ∨
    ∃ taskId old new, workflow.Changes taskId old new ∧ Allowed operation taskId old new ∧
      workflow.next operation = { workflow with tasks := workflow.tasks.insert taskId new } := by
  cases operation with
  | addTask id title dependsOn metadata =>
      rcases addTask_cases workflow id title dependsOn metadata with
        ⟨e, hadd⟩ | ⟨hfresh, hclosed, hacyclic, hadd⟩
      · exact .inl (congrArg Prod.snd hadd)
      · exact .inr (.inl ⟨id, title, _, metadata, hfresh, hclosed, hacyclic, by simp,
          congrArg Prod.snd hadd⟩)
  | start taskId =>
      rcases start_cases hkeyed taskId with hsame | ⟨old, new, hchanges, hstate, hnext⟩
      · exact .inl hsame
      · exact .inr (.inr ⟨taskId, old, new, hchanges, .inr ⟨by simp, hstate⟩, hnext⟩)
  | complete taskId result =>
      rcases changeRunning_cases workflow taskId (f := fun task ↦
          { task with state := .completed, result := some result, error := none })
        (fun _ ↦ ⟨rfl, rfl⟩) with hsame | ⟨old, new, hchanges, hstate, hnext⟩
      · exact .inl hsame
      · exact .inr (.inr ⟨taskId, old, new, hchanges, .inr ⟨by simp, hstate⟩, hnext⟩)
  | fail taskId error =>
      rcases changeRunning_cases workflow taskId (f := fun task ↦
          { task with state := .failed, error := some error })
        (fun _ ↦ ⟨rfl, rfl⟩) with hsame | ⟨old, new, hchanges, hstate, hnext⟩
      · exact .inl hsame
      · exact .inr (.inr ⟨taskId, old, new, hchanges, .inr ⟨by simp, hstate⟩, hnext⟩)
  | cancel taskId =>
      rcases changeTask_cases workflow taskId (fun task ↦ .ok { task with state := .cancelled })
        with ⟨e, hchange⟩ | ⟨old, new, hold, hnew, hchange⟩
      · exact .inl (congrArg Prod.snd hchange)
      · refine .inr (.inr ⟨taskId, old, new, ?_, .inl ⟨rfl, ?_⟩, congrArg Prod.snd hchange⟩)
        · rw [← Except.ok.inj hnew]
          exact ⟨hold, rfl, rfl, fun h ↦ by rcases h with h | h <;> cases h⟩
        · rw [← Except.ok.inj hnew]

/-! ## What every step keeps -/

theorem Changes.dependsOn_iff {taskId : String} {old new : WorkflowTask Value}
    (h : workflow.Changes taskId old new) (a b : String) :
    { workflow with tasks := workflow.tasks.insert taskId new }.DependsOn a b ↔
      workflow.DependsOn a b := by
  unfold DependsOn
  rw [BTreeMap.get_insert]
  split
  · rename_i ha
    subst ha
    constructor
    · rintro ⟨task, htask, hb⟩
      obtain rfl := Option.some.inj htask
      rw [h.dependsOn] at hb
      exact ⟨old, h.found, hb⟩
    · rintro ⟨task, htask, hb⟩
      obtain rfl := Option.some.inj (h.found.symm.trans htask)
      rw [← h.dependsOn] at hb
      exact ⟨new, rfl, hb⟩
  · rfl

theorem Sound.changes (h : workflow.Sound) {taskId : String} {old new : WorkflowTask Value}
    (hchanges : workflow.Changes taskId old new) :
    Sound { workflow with tasks := workflow.tasks.insert taskId new } := by
  refine ⟨fun id task htask ↦ ?_, fun a b hab ↦ ?_, fun id hcycle ↦ ?_⟩
  · rcases BTreeMap.get_insert_cases htask with ⟨rfl, rfl⟩ | htask
    · exact hchanges.id.trans (h.keyed _ _ hchanges.found)
    · exact h.keyed id task htask
  · have hmem := h.closed a b ((hchanges.dependsOn_iff a b).mp hab)
    exact ExtTreeMap.mem_insert.mpr (.inr hmem)
  · have hle : ∀ a b, DependsOn { workflow with tasks := workflow.tasks.insert taskId new } a b →
        workflow.DependsOn a b := fun a b ↦ (hchanges.dependsOn_iff a b).mp
    exact h.acyclic id (Relation.TransGen.mono hle _ _ hcycle)

theorem Sound.next (h : workflow.Sound) (operation : Operation Value) :
    (workflow.next operation).Sound := by
  rcases next_cases h.keyed operation with
    hsame | ⟨id, title, dependsOn, metadata, -, hclosed, hacyclic, -, hnext⟩ |
      ⟨taskId, old, new, hchanges, -, hnext⟩
  · rw [hsame]
    exact h
  · rw [hnext]
    refine ⟨fun other task htask ↦ ?_, hclosed, hacyclic⟩
    rcases BTreeMap.get_insert_cases htask with ⟨rfl, rfl⟩ | htask
    · rfl
    · exact h.keyed other task htask
  · rw [hnext]
    exact h.changes hchanges

theorem dependenciesCompleted_iff {task : WorkflowTask Value} :
    workflow.dependenciesCompleted task = true ↔
      ∀ dependency ∈ task.dependsOn, workflow.CompletedTask dependency := by
  simp only [dependenciesCompleted, List.all_eq_true, ExtTreeSet.mem_toList, Option.any_eq_true,
    decide_eq_true_eq, CompletedTask]

/-! ## What a step may break -/

theorem DependenciesHold.insertTask (h : workflow.DependenciesHold) {id title : String}
    {dependsOn : BTreeSet String} {metadata : Value} (hfresh : id ∉ workflow.tasks) :
    (workflow.insertTask id title dependsOn metadata).DependenciesHold := by
  intro other task htask hstarted dependency hdependency
  rcases BTreeMap.get_insert_cases htask with ⟨-, rfl⟩ | htask
  · rcases hstarted with hstate | hstate <;> cases hstate
  · obtain ⟨found, hfound, hcompleted⟩ := h other task htask hstarted dependency hdependency
    have hne : id ≠ dependency := by
      rintro rfl
      rw [BTreeMap.get_eq_none_iff.mpr hfresh] at hfound
      cases hfound
    exact ⟨found, (insertTask_get_of_ne hne).trans hfound, hcompleted⟩

theorem DependenciesHold.changes (h : workflow.DependenciesHold) {taskId : String}
    {old new : WorkflowTask Value} (hchanges : workflow.Changes taskId old new)
    (hspared : ∀ task ∈ workflow.tasks.values, task.Started → taskId ∉ task.dependsOn)
    (hself : taskId ∉ old.dependsOn) :
    DependenciesHold { workflow with tasks := workflow.tasks.insert taskId new } := by
  have hkept : ∀ dependency, taskId ≠ dependency → workflow.CompletedTask dependency →
      CompletedTask { workflow with tasks := workflow.tasks.insert taskId new } dependency :=
    fun dependency hne ⟨found, hfound, hcompleted⟩ ↦
      ⟨found, (BTreeMap.get_insert_ne _ _ hne).trans hfound, hcompleted⟩
  intro other task htask hstarted dependency hdependency
  rcases BTreeMap.get_insert_cases htask with ⟨-, rfl⟩ | htask
  · rw [hchanges.dependsOn] at hdependency
    refine hkept dependency (fun heq ↦ hself (heq ▸ hdependency)) ?_
    rcases hchanges.started hstarted with hold | hdone
    · exact h taskId old hchanges.found hold dependency hdependency
    · exact dependenciesCompleted_iff.mp hdone dependency hdependency
  · refine hkept dependency (fun heq ↦ ?_) (h other task htask hstarted dependency hdependency)
    exact hspared task (BTreeMap.mem_values.mpr ⟨other, htask⟩) hstarted (heq ▸ hdependency)

theorem Sound.not_self (h : workflow.Sound) {id : String} {task : WorkflowTask Value}
    (htask : workflow.tasks[id]? = some task) : id ∉ task.dependsOn :=
  fun hself ↦ h.acyclic id (.single ⟨task, htask, hself⟩)

theorem Sound.dependenciesHold_next (h : workflow.Sound) (hhold : workflow.DependenciesHold)
    (operation : Operation Value) :
    (workflow.next operation).DependenciesHold ↔ workflow.SparesDependencies operation := by
  have hspares : (∀ taskId, operation ≠ .cancel taskId) →
      workflow.SparesDependencies operation := by
    intro hcancel
    cases operation with
    | cancel taskId => exact absurd rfl (hcancel taskId)
    | _ => trivial
  rcases next_cases h.keyed operation with
    hsame | ⟨id, title, dependsOn, metadata, hfresh, -, -, hcancel, hnext⟩ |
      ⟨taskId, old, new, hchanges, ⟨rfl, hcancelled⟩ | ⟨hcancel, hstate⟩, hnext⟩
  · rw [hsame]
    refine iff_of_true hhold ?_
    cases operation with
    | cancel taskId =>
        -- nothing changes only where no task has the id, and then nothing depends on it
        intro task htask hstarted hmem
        obtain ⟨other, hother⟩ := BTreeMap.mem_values.mp htask
        obtain ⟨found, hfound, hcompleted⟩ := hhold other task hother hstarted taskId hmem
        have hcancelled : (workflow.next (.cancel taskId)).tasks[taskId]? =
            some { found with state := .cancelled } := by
          simp only [Workflow.next, execute, cancel, changeTask, hfound]
          exact BTreeMap.get_insert_self _ _ _
        rw [hsame, hfound] at hcancelled
        rw [Option.some.inj hcancelled] at hcompleted
        cases hcompleted
    | _ => trivial
  · rw [hnext]
    exact iff_of_true (hhold.insertTask hfresh) (hspares hcancel)
  · rw [hnext]
    constructor
    · intro hafter task htask hstarted hmem
      obtain ⟨other, hother⟩ := BTreeMap.mem_values.mp htask
      have hne : taskId ≠ other := by
        rintro rfl
        exact h.not_self hother hmem
      obtain ⟨found, hfound, hcompleted⟩ := hafter other task
        ((BTreeMap.get_insert_ne _ _ hne).trans hother) hstarted taskId hmem
      obtain rfl := Option.some.inj ((BTreeMap.get_insert_self _ _ _).symm.trans hfound)
      rw [hcancelled] at hcompleted
      cases hcompleted
    · intro hspared
      exact hhold.changes hchanges hspared (h.not_self hchanges.found)
  · rw [hnext]
    refine iff_of_true (hhold.changes hchanges (fun task htask hstarted hmem ↦ ?_)
      (h.not_self hchanges.found)) (hspares hcancel)
    obtain ⟨other, hother⟩ := BTreeMap.mem_values.mp htask
    obtain ⟨found, hfound, hcompleted⟩ := hhold other task hother hstarted taskId hmem
    obtain rfl := Option.some.inj (hchanges.found.symm.trans hfound)
    exact hstate hcompleted

/-! ## Every run -/

theorem sound_start (id title : String) : Sound ({ id, title } : Workflow Value) := by
  have hnone : ∀ (a b : String), ¬ DependsOn ({ id, title } : Workflow Value) a b := by
    rintro a b ⟨task, htask, -⟩
    simp at htask
  refine ⟨fun _ task htask ↦ by simp at htask, fun a b hab ↦ absurd hab (hnone a b),
    fun a hcycle ↦ ?_⟩
  obtain ⟨b, -, hb⟩ := Relation.TransGen.tail'_iff.mp hcycle
  exact hnone b a hb

theorem dependenciesHold_start (id title : String) :
    DependenciesHold ({ id, title } : Workflow Value) :=
  fun _ task htask ↦ by simp at htask

/-- `add_task` rejects what would not be valid, and an error changes nothing. -/
theorem addTask_rejects (workflow : Workflow Value) (id title : String) (dependsOn : List String)
    (metadata : Value) :
    ((∃ dependency ∈ dependsOn, dependency ∉ workflow.tasks) ∨
        ¬ (workflow.insertTask id title (.ofList dependsOn compare) metadata).Acyclic →
      ∃ e, (workflow.addTask id title dependsOn metadata).1 = .error e) ∧
    ∀ e, (workflow.addTask id title dependsOn metadata).1 = .error e →
      (workflow.addTask id title dependsOn metadata).2 = workflow := by
  rcases addTask_cases workflow id title dependsOn metadata with
    ⟨e, hadd⟩ | ⟨hfresh, hclosed, hacyclic, hadd⟩
  · rw [hadd]
    exact ⟨fun _ ↦ ⟨e, rfl⟩, fun _ _ ↦ rfl⟩
  · rw [hadd]
    refine ⟨?_, fun e herror ↦ by cases herror⟩
    rintro (⟨dependency, hmem, hmissing⟩ | hcycle)
    · have hin : dependency ∈ (ExtTreeSet.ofList dependsOn compare : BTreeSet String) :=
        ExtTreeSet.mem_ofList.mpr (List.contains_iff_mem.mpr hmem)
      have hself : ¬ DependsOn (workflow.insertTask id title (.ofList dependsOn compare) metadata)
          id id := fun h ↦ hacyclic id (.single h)
      have htask := BTreeMap.get_insert_self workflow.tasks id
        { id, title, dependsOn := .ofList dependsOn compare, metadata }
      rcases ExtTreeMap.mem_insert.mp (hclosed id dependency ⟨_, htask, hin⟩) with heq | hold
      · rw [← LawfulEqOrd.eq_of_compare heq] at hin
        exact absurd ⟨_, htask, hin⟩ hself
      · exact absurd hold hmissing
    · exact absurd hacyclic hcycle

def Promises (workflow : Workflow Value) : Prop :=
  (∀ id title dependsOn metadata,
    ((∃ dependency ∈ dependsOn, dependency ∉ workflow.tasks) ∨
        ¬ (workflow.insertTask id title (.ofList dependsOn compare) metadata).Acyclic →
      ∃ e, (workflow.addTask id title dependsOn metadata).1 = .error e) ∧
    ∀ e, (workflow.addTask id title dependsOn metadata).1 = .error e →
      (workflow.addTask id title dependsOn metadata).2 = workflow) ∧
  workflow.Closed ∧ workflow.Acyclic ∧ workflow.DependenciesHold

/-- A workflow keeps its promises at every point of a run exactly when no task is canceled that
a running or completed one depends on. -/
theorem promises_iff (id title : String) (operations : List (Operation Value)) :
    (∀ front back, operations = front ++ back →
        (Runs.run next ({ id, title } : Workflow Value) front).Promises) ↔
      Runs.Along next SparesDependencies ({ id, title } : Workflow Value) operations := by
  have hsound : ∀ operations : List (Operation Value),
      (Runs.run next ({ id, title } : Workflow Value) operations).Sound :=
    Runs.invariant (fun _ operation h ↦ h.next operation) (sound_start id title)
  rw [← Runs.forall_front_iff_along (J := Sound) (I := DependenciesHold)
    (fun _ operation h ↦ h.next operation)
    (fun _ operation h hhold ↦ h.dependenciesHold_next hhold operation) (sound_start id title)
    (dependenciesHold_start id title)]
  refine forall_congr' fun front ↦ forall_congr' fun back ↦ imp_congr_right fun _ ↦ ?_
  have hfront := hsound front
  exact ⟨fun h ↦ h.2.2.2, fun h ↦ ⟨addTask_rejects _, hfront.closed, hfront.acyclic, h⟩⟩

def demoOperations : List (Operation Unit) :=
  [.addTask "build" "Build" [] (), .addTask "test" "Test" ["build"] (), .start "build",
    .complete "build" (), .start "test", .cancel "build"]

theorem cancel_under_running_task :
    ¬ ∀ (id title : String) (operations : List (Operation Unit)),
      (Runs.run next ({ id, title } : Workflow Unit) operations).Promises := by
  intro h
  have hhold := (h "workflow:1" "release" demoOperations).2.2.2
  have htask : (Runs.run next ({ id := "workflow:1", title := "release" } : Workflow Unit)
      demoOperations).tasks["test"]?.any fun task ↦
        Decidable.decide (task.state = .running ∧ "build" ∈ task.dependsOn) := by
    decide +kernel
  obtain ⟨task, hfound, hmem⟩ := (Option.any_eq_true _ _).mp htask
  obtain ⟨hrunning, hbuild⟩ := of_decide_eq_true hmem
  obtain ⟨build, hbuilt, hcompleted⟩ := hhold "test" task hfound (.inl hrunning) "build" hbuild
  have hcancelled : ¬ (Runs.run next ({ id := "workflow:1", title := "release" } : Workflow Unit)
      demoOperations).tasks["build"]?.any fun task ↦
        Decidable.decide (task.state = .completed) := by
    decide +kernel
  exact hcancelled ((Option.any_eq_true _ _).mpr ⟨build, hbuilt, decide_eq_true hcompleted⟩)

/-! ## Getting to the end -/

def Advances (workflow : Workflow Value) : Operation Value → Prop
  | .start taskId => (workflow.start taskId).1 = .ok ()
  | .complete taskId result => (workflow.complete taskId result).1 = .ok ()
  | _ => False

instance (workflow : Workflow Value) : DecidablePred workflow.Advances
  | .start _ | .complete _ _ => inferInstanceAs (Decidable (_ = _))
  | .addTask .. | .fail .. | .cancel .. => inferInstanceAs (Decidable False)

/-- No task has failed or been canceled. -/
def Unbroken (workflow : Workflow Value) : Prop :=
  ∀ task ∈ workflow.tasks.values, task.state ≠ .failed ∧ task.state ≠ .cancelled

def effort (workflow : Workflow Value) : ℕ :=
  BTreeMap.sum workflow.tasks fun _ task ↦ task.state.effort

theorem Sound.start_ok_iff (h : workflow.Sound) (taskId : String) :
    (workflow.start taskId).1 = .ok () ↔ ∃ task, workflow.tasks[taskId]? = some task ∧
      task.state = .pending ∧ ∀ dependency ∈ task.dependsOn, workflow.CompletedTask dependency := by
  simp only [← dependenciesCompleted_iff]
  constructor
  · intro hok
    unfold start at hok
    split at hok
    · rename_i hrunnable
      obtain ⟨task, hmem, hid⟩ := List.any_eq_true.mp hrunnable
      obtain ⟨hpending, hdone⟩ := List.mem_filter.mp hmem
      obtain ⟨hvalue, hstate⟩ := List.mem_filter.mp hpending
      obtain ⟨key, hkey⟩ := BTreeMap.mem_values.mp hvalue
      rw [← h.keyed key task hkey, of_decide_eq_true hid] at hkey
      exact ⟨task, hkey, of_decide_eq_true hstate, hdone⟩
    · cases hok
  · rintro ⟨task, hfound, hstate, hdone⟩
    have hrunnable : (workflow.runnableTasks.any fun task ↦ task.id = taskId) = true := by
      refine List.any_eq_true.mpr ⟨task, ?_, decide_eq_true (h.keyed _ _ hfound)⟩
      refine List.mem_filter.mpr ⟨List.mem_filter.mpr ⟨?_, decide_eq_true hstate⟩, hdone⟩
      exact BTreeMap.mem_values.mpr ⟨taskId, hfound⟩
    rw [start, if_pos hrunnable, changeTask, hfound]

theorem complete_ok {taskId : String} {task : WorkflowTask Value}
    (hfound : workflow.tasks[taskId]? = some task) (hstate : task.state = .running)
    (result : Value) : (workflow.complete taskId result).1 = .ok () := by
  rw [complete, changeRunning, changeTask, hfound]
  simp [hstate]

theorem Sound.advances_cases (h : workflow.Sound) {operation : Operation Value}
    (hadvances : workflow.Advances operation) :
    ∃ taskId old new, workflow.tasks[taskId]? = some old ∧
      (old.state = .pending ∧ new.state = .running ∨
        old.state = .running ∧ new.state = .completed) ∧
      workflow.next operation = { workflow with tasks := workflow.tasks.insert taskId new } := by
  cases operation with
  | start taskId =>
      obtain ⟨task, hfound, hstate, -⟩ := (h.start_ok_iff taskId).mp hadvances
      refine ⟨taskId, task, { task with state := .running }, hfound, .inl ⟨hstate, rfl⟩, ?_⟩
      have hok : (workflow.start taskId).1 = .ok () := hadvances
      change (workflow.start taskId).2 = _
      unfold start at hok ⊢
      split
      · rw [changeTask, hfound]
      · rename_i hnot
        rw [if_neg hnot] at hok
        cases hok
  | complete taskId result =>
      have hok : (workflow.complete taskId result).1 = .ok () := hadvances
      rcases changeTask_cases workflow taskId fun task ↦
          if task.state ≠ .running then .error (.workflowTaskNotRunning taskId)
          else .ok { task with state := .completed, result := some result, error := none }
        with ⟨e, hchange⟩ | ⟨old, new, hfound, hnew, hchange⟩
      · cases hok.symm.trans (congrArg Prod.fst hchange)
      · refine ⟨taskId, old, new, hfound, .inr ?_, congrArg Prod.snd hchange⟩
        split at hnew
        · cases hnew
        · rename_i hrunning
          rw [← Except.ok.inj hnew]
          exact ⟨not_ne_iff.mp hrunning, rfl⟩
  | addTask id title dependsOn metadata => exact hadvances.elim
  | fail taskId error => exact hadvances.elim
  | cancel taskId => exact hadvances.elim

theorem Sound.effort_next (h : workflow.Sound) {operation : Operation Value}
    (hadvances : workflow.Advances operation) :
    (workflow.next operation).effort + 1 = workflow.effort := by
  obtain ⟨taskId, old, new, hfound, hstates, hnext⟩ := h.advances_cases hadvances
  have hsum : (workflow.next operation).effort + old.state.effort =
      workflow.effort + new.state.effort := by
    rw [hnext]
    exact BTreeMap.sum_insert_of_some hfound new fun _ task ↦ task.state.effort
  rcases hstates with ⟨hold, hnew⟩ | ⟨hold, hnew⟩
  · rw [hold, hnew] at hsum
    exact Nat.succ.inj hsum
  · rw [hold, hnew] at hsum
    exact hsum

theorem Sound.unbroken_next (h : workflow.Sound) (hunbroken : workflow.Unbroken)
    {operation : Operation Value} (hadvances : workflow.Advances operation) :
    (workflow.next operation).Unbroken := by
  obtain ⟨taskId, old, new, -, hstates, hnext⟩ := h.advances_cases hadvances
  rw [hnext]
  intro task htask
  obtain ⟨id, hfound⟩ := BTreeMap.mem_values.mp htask
  rcases BTreeMap.get_insert_cases hfound with ⟨-, rfl⟩ | hfound
  · rcases hstates with ⟨-, hnew⟩ | ⟨-, hnew⟩ <;> rw [hnew] <;> decide
  · exact hunbroken task (BTreeMap.mem_values.mpr ⟨id, hfound⟩)

/-- Dependencies lead down to tasks that have none. -/
theorem Sound.wellFounded (h : workflow.Sound) :
    WellFounded fun b a : { id // id ∈ workflow.tasks.keys } ↦
      Relation.TransGen workflow.DependsOn a.1 b.1 := by
  have htrans : IsTrans { id // id ∈ workflow.tasks.keys } fun b a ↦
      Relation.TransGen workflow.DependsOn a.1 b.1 := ⟨fun _ _ _ hab hbc ↦ hbc.trans hab⟩
  have hirrefl : Std.Irrefl fun b a : { id // id ∈ workflow.tasks.keys } ↦
      Relation.TransGen workflow.DependsOn a.1 b.1 := ⟨fun a ↦ h.acyclic a.1⟩
  have hfinite : Finite { id // id ∈ workflow.tasks.keys } := List.finite_toSet _
  exact Finite.wellFounded_of_trans_of_irrefl _

/-- A task behind completed ones can be started or completed, or is completed. -/
theorem Sound.completed_of_stuck (h : workflow.Sound) (hunbroken : workflow.Unbroken)
    (hstuck : ∀ operation, ¬ workflow.Advances operation) {taskId : String}
    {task : WorkflowTask Value} (hfound : workflow.tasks[taskId]? = some task) :
    task.state = .completed := by
  have hkey : ∀ {id found}, workflow.tasks[id]? = some found → id ∈ workflow.tasks.keys := by
    intro id found hfound
    rw [ExtTreeMap.mem_keys, ExtTreeMap.mem_iff_isSome_getElem?, hfound]
    rfl
  induction hid : (⟨taskId, hkey hfound⟩ : { id // id ∈ workflow.tasks.keys }) using
    h.wellFounded.induction generalizing taskId task with
  | _ id ih =>
      subst hid
      have hdone : ∀ dependency ∈ task.dependsOn, workflow.CompletedTask dependency := by
        intro dependency hmem
        have hdepends : workflow.DependsOn taskId dependency := ⟨task, hfound, hmem⟩
        obtain ⟨other, hother⟩ := Option.isSome_iff_exists.mp
          (ExtTreeMap.mem_iff_isSome_getElem?.mp (h.closed _ _ hdepends))
        exact ⟨other, hother, ih ⟨dependency, hkey hother⟩ (.single hdepends) hother rfl⟩
      have hwhole := hunbroken task (BTreeMap.mem_values.mpr ⟨taskId, hfound⟩)
      cases hstate : task.state with
      | pending =>
          exact absurd ((h.start_ok_iff taskId).mpr ⟨task, hfound, hstate, hdone⟩)
            (hstuck (.start taskId))
      | running =>
          exact absurd (complete_ok hfound hstate task.metadata)
            (hstuck (.complete taskId task.metadata))
      | completed => rfl
      | failed => exact absurd hstate hwhole.1
      | cancelled => exact absurd hstate hwhole.2

theorem Sound.along_advances (h : workflow.Sound) (hunbroken : workflow.Unbroken)
    {steps : List (Operation Value)} (hsteps : Runs.Along Workflow.next Advances workflow steps) :
    (Runs.run Workflow.next workflow steps).Sound ∧ (Runs.run Workflow.next workflow steps).Unbroken ∧
      steps.length + (Runs.run Workflow.next workflow steps).effort = workflow.effort := by
  induction steps generalizing workflow with
  | nil => exact ⟨h, hunbroken, Nat.zero_add _⟩
  | cons operation steps ih =>
      obtain ⟨hadvances, hrest⟩ := hsteps
      obtain ⟨hsound, hwhole, heffort⟩ :=
        ih (h.next operation) (h.unbroken_next hunbroken hadvances) hrest
      refine ⟨hsound, hwhole, ?_⟩
      rw [← h.effort_next hadvances, ← heffort, List.length_cons, Runs.run_cons]
      exact Nat.add_right_comm _ _ _

/-- However a workflow was put together, while no task has failed or been canceled it gets to
its end: each accepted start or completion takes one of those that are to come, and one is
accepted until every task is completed. -/
theorem runs_to_end {id title : String} {operations steps : List (Operation Value)}
    (hunbroken : (Runs.run next ({ id, title } : Workflow Value) operations).Unbroken)
    (hsteps : Runs.Along next Advances (Runs.run next { id, title } operations) steps) :
    let workflow := Runs.run next ({ id, title } : Workflow Value) operations
    let reached := Runs.run next workflow steps
    steps.length + reached.effort = workflow.effort ∧
      ((∀ operation, ¬ reached.Advances operation) ↔
        ∀ task ∈ reached.tasks.values, task.state = .completed) := by
  intro workflow reached
  have hsound : workflow.Sound :=
    Runs.invariant (fun _ operation h ↦ h.next operation) (sound_start id title) operations
  obtain ⟨hend, hwhole, heffort⟩ := hsound.along_advances hunbroken hsteps
  refine ⟨heffort, fun hstuck task htask ↦ ?_, fun hall operation hadvances ↦ ?_⟩
  · obtain ⟨taskId, hfound⟩ := BTreeMap.mem_values.mp htask
    exact hend.completed_of_stuck hwhole hstuck hfound
  · obtain ⟨taskId, old, new, hfound, hstates, -⟩ := hend.advances_cases hadvances
    have hcompleted := hall old (BTreeMap.mem_values.mpr ⟨taskId, hfound⟩)
    rcases hstates with ⟨hold, -⟩ | ⟨hold, -⟩ <;> cases hold.symm.trans hcompleted

def releaseSteps : List (Operation Unit) :=
  [.start "build", .complete "build" (), .start "test", .complete "test" ()]

theorem runs_to_end_release :
    let workflow := Runs.run next ({ id := "workflow:1", title := "release" } : Workflow Unit)
      (demoOperations.take 2)
    releaseSteps.length + (Runs.run next workflow releaseSteps).effort = workflow.effort := by
  intro workflow
  have hunbroken : ∀ task ∈ workflow.tasks.values,
      task.state ≠ .failed ∧ task.state ≠ .cancelled := by
    decide +kernel
  have hsteps : Runs.Along next Advances workflow releaseSteps := by decide +kernel
  exact (runs_to_end hunbroken hsteps).1

end Workflow

end Fabushi.Orchestrator
