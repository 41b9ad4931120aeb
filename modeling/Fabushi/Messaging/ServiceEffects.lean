import Fabushi.Messaging.Service
import Fabushi.Messaging.EngineRuns

/-!
# What the parts of a request do to the service

A request changes the engine through `executeAll` only; everything else it does
is idle as far as the engine is concerned. `executeAll` runs commands up to the
first one that is refused, and `publish` advances the cursor, journals what was
answered and saves.
-/

namespace Fabushi.Messaging

open Effects MachineInt Result Std

variable {S B : Type} {α β : Type}

namespace MessagingState

def runAll (state : MessagingState) : List Command → MessagingState × Decision
  | [] => (state, .ok [])
  | command :: commands =>
      match state.execute command with
      | (state, .error error) => (state, .error error)
      | (state, .ok events) =>
          let (state, rest) := runAll state commands
          (state, rest.map (events ++ ·))

theorem runAll_cons_ok {state state' : MessagingState} {command : Command} {events : List Event}
    (h : state.execute command = (state', .ok events)) (commands : List Command) :
    state.runAll (command :: commands) =
      ((state'.runAll commands).1, (state'.runAll commands).2.map (events ++ ·)) := by
  rw [runAll, h]

theorem runAll_cons_error {state state' : MessagingState} {command : Command} {error : EngineError}
    (h : state.execute command = (state', .error error)) (commands : List Command) :
    state.runAll (command :: commands) = (state', .error error) := by
  rw [runAll, h]

theorem next_of_execute {state state' : MessagingState} {command : Command} {decision : Decision}
    (h : state.execute command = (state', decision)) : state.next command = state' := by
  rw [next, h]

theorem eq_of_execute_error {state state' : MessagingState} {command : Command}
    {error : EngineError} (h : state.execute command = (state', .error error)) :
    state' = state := by
  unfold execute at h
  split at h
  · exact (congrArg Prod.fst h).symm
  · cases congrArg Prod.snd h

def Accepted (state : MessagingState) (command : Command) : Prop :=
  ∃ events, state.decide command = .ok events

theorem accepted_of_execute {state state' : MessagingState} {command : Command}
    {events : List Event} (h : state.execute command = (state', .ok events)) :
    state.Accepted command := by
  unfold execute at h
  split at h
  · cases congrArg Prod.snd h
  · rename_i events' hdecide
    exact ⟨events', hdecide⟩

theorem runAll_front (state : MessagingState) (commands : List Command) :
    ∃ front back, commands = front ++ back ∧ (state.runAll commands).1 = Runs.run next state front ∧
      Runs.Along next Accepted state front ∧
      ∀ events, (state.runAll commands).2 = .ok events → back = [] := by
  induction commands generalizing state with
  | nil => exact ⟨[], [], rfl, rfl, trivial, fun _ _ ↦ rfl⟩
  | cons command commands ih =>
      cases h : state.execute command with
      | mk state' decision =>
          cases decision with
          | error error =>
              refine ⟨[], command :: commands, rfl, ?_, trivial, ?_⟩
              · rw [runAll_cons_error h]
                exact eq_of_execute_error h
              · intro events hok
                rw [runAll_cons_error h] at hok
                cases hok
          | ok events =>
              obtain ⟨front, back, rfl, hrun, haccepted, hall⟩ := ih state'
              refine ⟨command :: front, back, rfl, ?_, ⟨accepted_of_execute h, ?_⟩, ?_⟩
              · rw [runAll_cons_ok h, Runs.run_cons, next_of_execute h]
                exact hrun
              · rw [next_of_execute h]
                exact haccepted
              · intro events' hok
                rw [runAll_cons_ok h] at hok
                cases hrest : (state'.runAll (front ++ back)).2 with
                | error error =>
                    rw [hrest] at hok
                    cases hok
                | ok rest => exact hall rest hrest

theorem runAll_ok {state : MessagingState} {commands : List Command} {events : List Event}
    (h : (state.runAll commands).2 = .ok events) :
    (state.runAll commands).1 = Runs.run next state commands := by
  obtain ⟨front, back, rfl, hrun, -, hall⟩ := state.runAll_front commands
  rw [hrun, hall events h, List.append_nil]

end MessagingState

namespace MessagingService

/-! ## Computations that leave the engine alone -/

def SameEngine (s s' : MessagingService S B) : Prop :=
  s'.engine = s.engine

abbrev Idle (m : ServiceM S B α) : Prop :=
  Changes SameEngine m

theorem sameEngine_refl (s : MessagingService S B) : SameEngine s s := rfl

theorem idle_pure (a : α) : Idle (pure a : ServiceM S B α) :=
  changes_pure sameEngine_refl a

theorem idle_throw (e : MessagingServiceError) : Idle (throw e : ServiceM S B α) :=
  changes_throw sameEngine_refl e

theorem idle_orThrow {δ : Type} (wrap : δ → MessagingServiceError) (x : Except δ α) :
    Idle (orThrow wrap x : ServiceM S B α) :=
  changes_orThrow sameEngine_refl wrap x

theorem idle_bind {m : ServiceM S B α} {f : α → ServiceM S B β} (hm : Idle m)
    (hf : ∀ a, Idle (f a)) : Idle (m >>= f) :=
  changes_bind (R := SameEngine) (fun _ _ h ↦ h) (fun _ _ _ h h' ↦ Eq.trans h' h) hm hf

theorem idle_get_bind {f : MessagingService S B → ServiceM S B β} (hf : ∀ s, Idle (f s)) :
    Idle (get >>= f) :=
  idle_bind (changes_get sameEngine_refl) hf

theorem idle_modify {f : MessagingService S B → MessagingService S B}
    (h : ∀ s, (f s).engine = s.engine) : Idle (modify f : ServiceM S B PUnit) :=
  changes_modify h

theorem idle_advanceCursor (count : ℕ) : Idle (advanceCursor count : ServiceM S B PUnit) :=
  idle_modify fun _ ↦ rfl

theorem idle_withBlobStore (operation : B → B × Except BlobStoreError α) :
    Idle (withBlobStore operation : ServiceM S B α) := by
  refine idle_get_bind fun service ↦ ?_
  split
  · exact idle_throw _
  · exact idle_bind (idle_modify fun _ ↦ rfl) fun _ ↦ idle_orThrow _ _

variable [MessagingStateStore S]

theorem idle_persistWithEvents (nowMs : Int64) (events : List JournalEntry) :
    Idle (persistWithEvents nowMs events : ServiceM S B Unit) := by
  refine idle_get_bind fun service ↦ ?_
  exact idle_bind (idle_modify fun _ ↦ rfl) fun _ ↦ idle_orThrow _ _

theorem idle_persist (nowMs : Int64) : Idle (persist nowMs : ServiceM S B Unit) := by
  refine idle_get_bind fun service ↦ ?_
  exact idle_bind (idle_modify fun _ ↦ rfl) fun _ ↦ idle_orThrow _ _

theorem idle_journal (actorId : ActorId) (responses : List ServerEnvelope)
    (serverTimeMs : Int64) : Idle (journal actorId responses serverTimeMs : ServiceM S B Unit) :=
  idle_get_bind fun _ ↦ idle_persistWithEvents _ _

theorem idle_publish (actorId : ActorId) (events : List Event)
    (invocations : List BotInvocation) (serverTimeMs : Int64) :
    Idle (publish actorId events invocations serverTimeMs :
      ServiceM S B (List ServerEnvelope)) := by
  refine idle_bind (idle_advanceCursor _) fun _ ↦ ?_
  refine idle_get_bind fun service ↦ ?_
  exact idle_bind (idle_journal _ _ _) fun _ ↦ idle_pure _

theorem idle_singleServiceEvent (actorId : ActorId) (event : ServerEvent)
    (serverTimeMs : Int64) : Idle (singleServiceEvent actorId event serverTimeMs :
      ServiceM S B (List ServerEnvelope)) := by
  refine idle_bind (idle_advanceCursor _) fun _ ↦ ?_
  refine idle_get_bind fun service ↦ ?_
  exact idle_bind (idle_journal _ _ _) fun _ ↦ idle_pure _

theorem idle_typingEvent (actorId : ActorId) (conversationId : ConversationId)
    (action : Option String) (serverTimeMs : Int64) :
    Idle (typingEvent actorId conversationId action serverTimeMs :
      ServiceM S B (List ServerEnvelope)) := by
  refine idle_get_bind fun service ↦ ?_
  refine idle_bind (idle_orThrow _ _) fun conversation ↦ ?_
  refine idle_bind (idle_orThrow _ _) fun _ ↦ ?_
  exact idle_singleServiceEvent _ _ _

theorem idle_publishProjected (actorId : ActorId) (events : List Event) (serverTimeMs : Int64) :
    Idle (if events.isEmpty then pure []
      else do
        let service ← get
        let invocations := events.flatMap fun event ↦ match event with
          | .messageQueued message => service.engine.botInvocationsForMessage message
          | _ => []
        publish actorId events invocations serverTimeMs :
      ServiceM S B (List ServerEnvelope)) := by
  split
  · exact idle_pure []
  · exact idle_get_bind fun service ↦ idle_publish _ _ _ _

/-! ## Executing commands -/

omit [MessagingStateStore S] in
theorem after_executeCommand (command : Command) (s : MessagingService S B) :
    after (executeCommand command) s = { s with engine := (s.engine.execute command).1 } := by
  simp [executeCommand]

omit [MessagingStateStore S] in
theorem result_executeCommand (command : Command) (s : MessagingService S B) :
    result (executeCommand command) s = (s.engine.execute command).2.mapError .engine := by
  simp [executeCommand]

omit [MessagingStateStore S] in
theorem executeAll_eq (commands : List Command) (s : MessagingService S B) :
    result (executeAll commands) s = (s.engine.runAll commands).2.mapError .engine ∧
      after (executeAll commands) s = { s with engine := (s.engine.runAll commands).1 } := by
  induction commands generalizing s with
  | nil => exact ⟨rfl, rfl⟩
  | cons command commands ih =>
      cases h : s.engine.execute command with
      | mk state' decision =>
          have hafter := after_executeCommand command s
          have hresult := result_executeCommand command s
          rw [h] at hafter hresult
          cases decision with
          | error error =>
              rw [MessagingState.runAll_cons_error h, executeAll]
              exact ⟨result_bind_error hresult, (after_bind_error hresult).trans hafter⟩
          | ok events =>
              rw [MessagingState.runAll_cons_ok h, executeAll]
              obtain ⟨hrest, hrestAfter⟩ := ih { s with engine := state' }
              rw [result_bind_ok hresult, after_bind_ok hresult, hafter, result_bind_pure,
                after_bind_pure, hrest, hrestAfter]
              refine ⟨?_, rfl⟩
              cases (state'.runAll commands).2 <;> rfl

end MessagingService

end Fabushi.Messaging
