import Fabushi.Library.Joined
import Fabushi.Library.Paging
import Fabushi.Messaging.MembershipSteps

/-!
# Executions, logs and rosters along runs of the engine

What bots have finished, the ids in the log of a community, and the roster that is read page
by page. An id in the log is joined from texts and from the length of the log, which stands
still once the log is full.
-/

namespace Fabushi.Messaging

open Result Joined Paging

/-! ## Executions of bots -/

def EventTag.isBots : EventTag → Bool
  | .botRegistryChanged => true
  | _ => false

def BotExecutionState.isTerminal : BotExecutionState → Bool
  | .completed | .failed | .cancelled => true
  | _ => false

namespace MessagingState

variable {state state' state'' : MessagingState} {actorId : ActorId}

def KeepsOutcomes (state state' : MessagingState) : Prop :=
  ∀ (id : String) (execution : BotExecution), state.bots.executions[id]? = some execution →
    execution.state.isTerminal = true →
      ∃ execution', state'.bots.executions[id]? = some execution' ∧
        execution'.state = execution.state ∧ execution'.error = execution.error

theorem KeepsOutcomes.of_executions
    (h : state'.bots.executions = state.bots.executions) : KeepsOutcomes state state' := by
  intro id execution hget _
  exact ⟨execution, by rw [h, hget], rfl, rfl⟩

theorem KeepsOutcomes.trans (h : KeepsOutcomes state state') (h' : KeepsOutcomes state' state'') :
    KeepsOutcomes state state'' := by
  intro id execution hget hterminal
  obtain ⟨execution', hget', hstate, herror⟩ := h id execution hget hterminal
  rw [← hstate] at hterminal
  obtain ⟨execution'', hget'', hstate', herror'⟩ := h' id execution' hget' hterminal
  exact ⟨execution'', hget'', hstate'.trans hstate, herror'.trans herror⟩

theorem keepsOutcomes_insert_iff {id : String} {written : BotExecution}
    (h : state'.bots.executions = state.bots.executions.insert id written) :
    KeepsOutcomes state state' ↔
      ∀ execution, state.bots.executions[id]? = some execution →
        execution.state.isTerminal = true →
          written.state = execution.state ∧ written.error = execution.error := by
  constructor
  · intro hkeeps execution hget hterminal
    obtain ⟨execution', hget', hsame⟩ := hkeeps id execution hget hterminal
    rw [h, BTreeMap.get_insert_self] at hget'
    obtain rfl := Option.some.inj hget'
    exact hsame
  · intro hsame id' execution hget hterminal
    by_cases hid : id = id'
    · subst hid
      exact ⟨written, by rw [h, BTreeMap.get_insert_self], hsame execution hget hterminal⟩
    · exact ⟨execution, by rw [h, BTreeMap.get_insert_ne _ _ hid, hget], rfl, rfl⟩

/-- What the engine checks of an invocation. -/
structure Begins (state : MessagingState) (actorId : ActorId) (invocation : BotInvocation) :
    Prop where
  sender : invocation.senderId = actorId
  actor : ∃ actor, state.actors[actorId]? = some actor
  conversation : ∃ conversation,
    state.conversations[invocation.conversationId]? = some conversation
  profile : ∃ profile, state.bots.bots[invocation.botId]? = some profile ∧
    ¬ (invocation.command.isSome ∧ profile.privacyMode ∧ Text.isBlank invocation.text.text)

theorem exists_of_liftError_eq_error {ε α : Type} {wrap : ε → EngineError} {x : Except ε α}
    {e : EngineError} (h : liftError wrap x = .error e) : ∃ e', x = .error e' := by
  cases x with
  | error e' => exact ⟨e', rfl⟩
  | ok a => cases h

theorem executions_begin (state : MessagingState) (actorId : ActorId) (invocation : BotInvocation)
    (createdAtMs : Int64) :
    let after := state.next (.beginBotInvocation actorId invocation createdAtMs)
    (state.Begins actorId invocation ∧ ∃ execution : BotExecution, execution.state = .running ∧
      after.bots.executions =
        state.bots.executions.insert ("bot-execution:" ++ invocation.id) execution) ∨
    (¬ state.Begins actorId invocation ∧ after = state) := by
  intro after
  cases hdecide : state.decide (.beginBotInvocation actorId invocation createdAtMs) with
  | error e =>
      refine Or.inr ⟨?_, by simp only [after, next, execute, hdecide]⟩
      rintro ⟨hsender, ⟨actor, hactor⟩, ⟨conversation, hconversation⟩, profile, hprofile, hshown⟩
      rcases bind_eq_error.mp hdecide with h | ⟨_, -, h⟩
      · exact (ensure_eq_error.mp h).1 hsender
      rcases bind_eq_error.mp h with h | ⟨_, -, h⟩
      · cases hactor.symm.trans (okOr_eq_error.mp h).1
      rcases bind_eq_error.mp h with h | ⟨_, -, h⟩
      · cases hconversation.symm.trans (okOr_eq_error.mp h).1
      rcases bind_eq_error.mp h with h | ⟨_, -, h⟩
      · obtain ⟨_, h⟩ := exists_of_liftError_eq_error h
        rcases bind_eq_error.mp h with h | ⟨found, hfound, h⟩
        · cases hprofile.symm.trans (okOr_eq_error.mp h).1
        obtain rfl := Option.some.inj (hprofile.symm.trans (okOr_eq_ok.mp hfound))
        rcases bind_eq_error.mp h with h | ⟨_, -, h⟩
        · exact (ensure_eq_error.mp h).1 hshown
        · cases h
      · cases h
  | ok events =>
      obtain ⟨_, hsender, h⟩ := bind_eq_ok.mp hdecide
      obtain ⟨actor, hactor, h⟩ := bind_eq_ok.mp h
      obtain ⟨conversation, hconversation, h⟩ := bind_eq_ok.mp h
      obtain ⟨begun, hbegun, h⟩ := bind_eq_ok.mp h
      obtain ⟨profile, hprofile, hbegun⟩ := bind_eq_ok.mp (liftError_eq_ok.mp hbegun)
      obtain ⟨_, hshown, hbegun⟩ := bind_eq_ok.mp hbegun
      obtain rfl := Except.ok.inj hbegun
      obtain rfl := Except.ok.inj h
      have hbegins : state.Begins actorId invocation :=
        ⟨ensure_eq_ok.mp hsender, ⟨actor, okOr_eq_ok.mp hactor⟩,
          ⟨conversation, okOr_eq_ok.mp hconversation⟩, profile, okOr_eq_ok.mp hprofile,
          ensure_eq_ok.mp hshown⟩
      refine Or.inl ⟨hbegins, ?_⟩
      simp only [after, next, execute, hdecide]
      exact ⟨_, rfl, rfl⟩

theorem executions_finish (state : MessagingState) (actorId : ActorId) (executionId : String)
    (success : Bool) (finishedAtMs : Int64) (error : Option String) :
    let after := state.next (.finishBotExecution actorId executionId success finishedAtMs error)
    (∃ execution, state.bots.executions[executionId]? = some execution ∧
      execution.botId = actorId ∧
      after.bots.executions = state.bots.executions.insert executionId { execution with
        state := if success then .completed else .failed
        finishedAtMs := some finishedAtMs
        error }) ∨
    ((∀ execution, state.bots.executions[executionId]? = some execution →
      execution.botId ≠ actorId) ∧ after = state) := by
  intro after
  cases hdecide : state.decide
      (.finishBotExecution actorId executionId success finishedAtMs error) with
  | error e =>
      refine Or.inr ⟨fun execution hget hbot ↦ ?_, by simp only [after, next, execute, hdecide]⟩
      rcases bind_eq_error.mp hdecide with h | ⟨found, hfound, h⟩
      · cases hget.symm.trans (okOr_eq_error.mp h).1
      obtain rfl := Option.some.inj (hget.symm.trans (okOr_eq_ok.mp hfound))
      rcases bind_eq_error.mp h with h | ⟨_, -, h⟩
      · exact (ensure_eq_error.mp h).1 hbot
      rcases bind_eq_error.mp h with h | ⟨_, -, h⟩
      · obtain ⟨_, h⟩ := exists_of_liftError_eq_error h
        rcases bind_eq_error.mp h with h | ⟨_, -, h⟩
        · cases hget.symm.trans (okOr_eq_error.mp h).1
        · cases h
      · cases h
  | ok events =>
      obtain ⟨execution, hget, h⟩ := bind_eq_ok.mp hdecide
      obtain ⟨_, hbot, h⟩ := bind_eq_ok.mp h
      obtain ⟨registry, hregistry, h⟩ := bind_eq_ok.mp h
      obtain ⟨found, hfound, hregistry⟩ := bind_eq_ok.mp (liftError_eq_ok.mp hregistry)
      obtain rfl := Option.some.inj ((okOr_eq_ok.mp hget).symm.trans (okOr_eq_ok.mp hfound))
      obtain rfl := Except.ok.inj hregistry
      obtain rfl := Except.ok.inj h
      refine Or.inl ⟨execution, okOr_eq_ok.mp hget, ensure_eq_ok.mp hbot, ?_⟩
      simp only [after, next, execute, hdecide]
      rfl

theorem bots_apply (state : MessagingState) (event : Event) (h : event.tag.isBots = false) :
    (state.apply event).bots = state.bots := by
  cases event
  case botRegistryChanged => cases h
  all_goals rfl

theorem executions_register (state : MessagingState) (actorId : ActorId) (profile : BotProfile) :
    (state.next (.registerBot actorId profile)).bots.executions = state.bots.executions := by
  unfold next execute
  cases hdecide : state.decide (.registerBot actorId profile) with
  | error e => rfl
  | ok events =>
      obtain ⟨_, -, h⟩ := bind_eq_ok.mp hdecide
      obtain ⟨_, -, h⟩ := bind_eq_ok.mp h
      obtain ⟨registry, hregistry, h⟩ := bind_eq_ok.mp h
      obtain ⟨_, -, hregistry⟩ := bind_eq_ok.mp (liftError_eq_ok.mp hregistry)
      obtain ⟨_, -, hregistry⟩ := bind_eq_ok.mp hregistry
      obtain rfl := Except.ok.inj hregistry
      obtain rfl := Except.ok.inj h
      rfl

/-- The command names no execution that has ended, or finishes it once more with the same state
and the same error. -/
def SparesEnded (state : MessagingState) : Command → Prop
  | .beginBotInvocation actorId invocation _ => state.Begins actorId invocation →
      ∀ execution, state.bots.executions["bot-execution:" ++ invocation.id]? = some execution →
        execution.state.isTerminal = false
  | .finishBotExecution actorId executionId success _ error =>
      ∀ execution, state.bots.executions[executionId]? = some execution →
        execution.botId = actorId → execution.state.isTerminal = true →
          (if success then .completed else .failed) = execution.state ∧ error = execution.error
  | _ => True

theorem keepsOutcomes_next_iff (state : MessagingState) (c : Command) :
    KeepsOutcomes state (state.next c) ↔ state.SparesEnded c := by
  cases c
  case beginBotInvocation actorId invocation createdAtMs =>
    rcases state.executions_begin actorId invocation createdAtMs with
      ⟨hbegins, written, hrunning, hnew⟩ | ⟨hnot, hsame⟩
    · rw [keepsOutcomes_insert_iff hnew]
      constructor
      · intro h _ execution hget
        by_contra hterminal
        have hended := (h execution hget (by simpa using hterminal)).1
        rw [← hended, hrunning] at hterminal
        exact hterminal rfl
      · intro h execution hget hterminal
        rw [h hbegins execution hget] at hterminal
        cases hterminal
    · rw [hsame]
      exact iff_of_true (.of_executions rfl) fun hbegins ↦ absurd hbegins hnot
  case finishBotExecution actorId executionId success finishedAtMs error =>
    rcases state.executions_finish actorId executionId success finishedAtMs error with
      ⟨found, hget, hbot, hnew⟩ | ⟨hnot, hsame⟩
    · rw [keepsOutcomes_insert_iff hnew]
      constructor
      · intro h execution hexecution _ hterminal
        exact h execution hexecution hterminal
      · intro h execution hexecution hterminal
        obtain rfl := Option.some.inj (hget.symm.trans hexecution)
        exact h found hexecution hbot hterminal
    · rw [hsame]
      exact iff_of_true (.of_executions rfl) fun execution hget hbot ↦
        absurd hbot (hnot execution hget)
  case registerBot actorId profile =>
    exact iff_of_true (.of_executions (state.executions_register actorId profile)) trivial
  all_goals
    refine iff_of_true (.of_executions (congrArg BotRegistry.executions ?_)) trivial
    refine frame_next (p := bots) bots_apply (fun tag htag ↦ ?_) state
    simp only [Command.eventTags, List.mem_cons, List.not_mem_nil, or_false] at htag
    first
    | (subst htag; rfl)
    | (rcases htag with rfl | rfl <;> rfl)
    | (rcases htag with rfl | rfl | rfl <;> rfl)

/-- Ended executions keep what they ended with over all stretches of a run exactly when no
command writes over one. -/
theorem outcomes_kept_iff (commands : List Command) :
    (∀ front middle back, commands = front ++ (middle ++ back) →
      KeepsOutcomes (afterCommands front) (afterCommands (front ++ middle))) ↔
    Runs.Along next SparesEnded {} commands := by
  rw [← Runs.forall_stretch_iff_along (R := KeepsOutcomes) (fun _ ↦ .of_executions rfl)
    (fun _ _ _ ↦ KeepsOutcomes.trans) keepsOutcomes_next_iff]
  simp only [afterCommands, Runs.run_append]

end MessagingState

namespace Concierge

/-! A bot that a guest asks twice under one id. -/

def bot : ActorId := ⟨"bot"⟩
def guest : ActorId := ⟨"guest"⟩

def profile : BotProfile :=
  { actorId := bot, description := "", about := "", commands := [], inlineModeEnabled := false
    inlinePlaceholder := none, groupsAllowed := true, privacyMode := false, miniAppId := none
    paymentProviderIds := [], businessMode := false }

def desk : Conversation :=
  { id := ⟨"desk"⟩, kind := .direct, title := "desk", participants := [⟨guest, .owner, 1, none⟩]
    createdAtMs := 1, updatedAtMs := 1 }

def ask : Command :=
  .beginBotInvocation guest { id := "i", botId := bot, senderId := guest
                              conversationId := desk.id, command := none
                              text := { text := "hello" }, replyToMessageId := none
                              createdAtMs := 1 } 1

def answered : List Command :=
  [.upsertActor { id := bot, kind := .bot, displayName := "bot" },
    .upsertActor { id := guest, kind := .human, displayName := "guest" },
    .upsertConversation desk, .registerBot bot profile, ask,
    .finishBotExecution bot "bot-execution:i" true 2 none]

end Concierge

open Concierge MessagingState in
/-- The second question takes the place of the first one, which was answered. -/
theorem outcome_replaced :
    ¬ ∀ front middle : List Command,
      KeepsOutcomes (afterCommands front) (afterCommands (front ++ middle)) := by
  intro h
  have hstates : (afterCommands answered).bots.executions["bot-execution:i"]?.map (·.state) =
      some .completed ∧ (afterCommands (answered ++ [ask])).bots.executions["bot-execution:i"]?.map
        (·.state) = some .running := by decide +kernel
  obtain ⟨execution, hget, hended⟩ := Option.map_eq_some_iff.mp hstates.1
  obtain ⟨execution', hget', hstate, -⟩ := h answered [ask] _ execution hget (by rw [hended]; rfl)
  rw [hget', Option.map_some, hstate, hended] at hstates
  cases hstates.2

/-! ## Ids in the log of a community -/

namespace AuditNote

variable (note : AuditNote) (number : ℕ) (note' : AuditNote) (number' : ℕ)

def target : String :=
  note.targetId.getD "community"

def id : String :=
  "audit:" ++ note.actorId.value ++ ":" ++ toString note.createdAtMs.toInt ++ ":" ++
    toString number ++ ":" ++ note.target

def Same : Prop :=
  note.actorId = note'.actorId ∧ note.createdAtMs = note'.createdAtMs ∧ note.target = note'.target

def idPieces : List (List Char) :=
  pieces ':' note.actorId.value ++ (pieces ':' (toString note.createdAtMs.toInt) ++
    (pieces ':' (toString number) ++ pieces ':' note.target))

/-- The pieces line up, but are shared out between actor and target in another way. -/
def Ambiguous : Prop :=
  note.idPieces number = note'.idPieces number' ∧
    (pieces ':' note.actorId.value).length ≠ (pieces ':' note'.actorId.value).length

variable {note note' number number'}

theorem pieces_id : pieces ':' (note.id number) = "audit".toList :: note.idPieces number := by
  have hcolon : (":" : String) = String.singleton ':' := rfl
  have hhead : ("audit:" : String) = "audit" ++ String.singleton ':' := rfl
  have hfirst : pieces ':' "audit" = ["audit".toList] := rfl
  simp only [id, idPieces, hcolon, hhead, pieces_join, hfirst, List.append_assoc,
    List.cons_append, List.nil_append]

theorem pieces_toString (i : ℤ) : pieces ':' (toString i) = [(toString i).toList] := by
  apply List.splitOn_eq_singleton
  have hdigits : ∀ n : ℕ, ':' ∉ n.repr.toList := fun n hmem ↦ by
    rw [Nat.toList_repr] at hmem
    exact absurd (Nat.isDigit_of_mem_toDigits (by decide) (by decide) hmem) (by decide)
  cases i with
  | ofNat n => exact hdigits n
  | negSucc n =>
      change ':' ∉ ("-" ++ (n + 1).repr).toList
      rw [String.toList_append, List.mem_append, not_or]
      exact ⟨by decide, hdigits (n + 1)⟩

theorem id_eq_iff : note.id number = note'.id number' ↔
    (note.Same note' ∧ number = number') ∨ note.Ambiguous number note' number' := by
  rw [← (@pieces_injective ':').eq_iff, pieces_id, pieces_id, List.cons_inj_right]
  constructor
  · intro h
    by_cases hlength :
      (pieces ':' note.actorId.value).length = (pieces ':' note'.actorId.value).length
    · refine Or.inl ?_
      obtain ⟨hactor, hrest⟩ := List.append_inj h hlength
      rw [pieces_toString, pieces_toString, pieces_repr rfl, pieces_repr rfl] at hrest
      obtain ⟨htime, hrest⟩ := List.cons.inj hrest
      obtain ⟨hnumber, htarget⟩ := List.cons.inj hrest
      have hsameTime := Int64.toInt_inj.mp (Int.repr_injective (String.toList_inj.mp htime))
      exact ⟨⟨value_inj.mp (pieces_injective hactor), hsameTime, pieces_injective htarget⟩,
        toDigits_injective hnumber⟩
    · exact Or.inr ⟨h, hlength⟩
  · rintro (⟨⟨hactor, htime, htarget⟩, rfl⟩ | h)
    · rw [idPieces, idPieces, hactor, htime, htarget]
    · exact h.1

end AuditNote

namespace CommunityAuditEntry

def note (entry : CommunityAuditEntry) : AuditNote :=
  ⟨entry.actorId, entry.createdAtMs, entry.targetId⟩

def IsNumbered (entry : CommunityAuditEntry) (number : ℕ) : Prop :=
  entry.id = entry.note.id number

end CommunityAuditEntry

theorem maxAuditEntries_pos : 0 < CommunityState.maxAuditEntries := Nat.zero_lt_succ _

-- The cap is a number that nothing should count up to.
attribute [local irreducible] CommunityState.maxAuditEntries

abbrev AuditLog := List CommunityAuditEntry

namespace AuditLog

variable {old new : AuditLog} {note : AuditNote}

def UniqueIds (log : AuditLog) : Prop :=
  (log.map CommunityAuditEntry.id).Nodup

structure Numbered (log : AuditLog) : Prop where
  length_le : log.length ≤ CommunityState.maxAuditEntries
  numbered : ∀ entry ∈ log, ∃ number, entry.IsNumbered number ∧
    (number < log.length ∨ number = CommunityState.maxAuditEntries ∧ number = log.length)

def retained (log : AuditLog) : AuditLog :=
  log.drop (log.length + 1 - CommunityState.maxAuditEntries)

/-- None of the entries that stay was put into a full log, as the new one is, by the same actor
at the same time about the same target, and the id of none is ambiguous with the new one. -/
def Admits (log : AuditLog) (note : AuditNote) : Prop :=
  ∀ entry ∈ retained log,
    ¬ (log.length = CommunityState.maxAuditEntries ∧
      entry.IsNumbered CommunityState.maxAuditEntries ∧ entry.note.Same note) ∧
    ∀ number, entry.IsNumbered number → ¬ entry.note.Ambiguous number note log.length

def Appends (old new : AuditLog) (note : AuditNote) : Prop :=
  ∃ entry : CommunityAuditEntry, entry.note = note ∧ entry.IsNumbered old.length ∧
    new = retained old ++ [entry]

theorem appends_appendCommunityAudit {base : CommunityState} (hlog : base.adminLog = old)
    (actorId : ActorId) (action : CommunityAuditAction) (targetActorId : Option ActorId)
    (targetId reason : Option String) (createdAtMs : Int64) :
    Appends old (appendCommunityAudit base actorId action targetActorId targetId
      reason createdAtMs).adminLog ⟨actorId, createdAtMs, targetId⟩ := by
  subst hlog
  refine ⟨{ id := AuditNote.id ⟨actorId, createdAtMs, targetId⟩ base.adminLog.length, actorId, action
            targetActorId, targetId, reason, createdAtMs }, rfl, rfl, ?_⟩
  rw [retained, appendCommunityAudit, CommunityState.appendAudit]
  dsimp only
  rw [List.length_append, List.length_singleton, List.drop_append_of_le_length]
  · rfl
  · have hcap := maxAuditEntries_pos
    omega

theorem numbered_nil : Numbered [] :=
  ⟨Nat.zero_le _, fun _ h ↦ by cases h⟩

theorem Numbered.appends (h : Numbered old) (happends : Appends old new note) : Numbered new := by
  obtain ⟨entry, -, hentry, rfl⟩ := happends
  have hle := h.length_le
  have hlength : (retained old ++ [entry]).length =
      min (old.length + 1) CommunityState.maxAuditEntries := by
    rw [List.length_append, retained, List.length_drop, List.length_singleton]
    have hcap := maxAuditEntries_pos
    omega
  refine ⟨by omega, fun e he ↦ ?_⟩
  rw [hlength]
  rcases List.mem_append.mp he with he | he
  · obtain ⟨number, hnumber, hcases⟩ := h.numbered e (List.mem_of_mem_drop he)
    exact ⟨number, hnumber, by omega⟩
  · rw [List.mem_singleton.mp he]
    exact ⟨_, hentry, by omega⟩

theorem UniqueIds.appends_iff (hunique : UniqueIds old) (h : Numbered old)
    (happends : Appends old new note) : UniqueIds new ↔ Admits old note := by
  obtain ⟨entry, rfl, hentry, rfl⟩ := happends
  have hnodup : UniqueIds (retained old ++ [entry]) ↔ ∀ e ∈ retained old, e.id ≠ entry.id := by
    have hretained : UniqueIds (retained old) := hunique.sublist ((List.drop_sublist _ _).map _)
    rw [UniqueIds, List.map_append, List.map_singleton, List.nodup_append]
    unfold UniqueIds at hretained
    simp [hretained]
  rw [hnodup]
  refine forall₂_congr fun e he ↦ ?_
  rw [hentry]
  constructor
  · intro hne
    refine ⟨?_, fun number hnumber hambiguous ↦ ?_⟩
    · rintro ⟨hfull, hnumber, hsame⟩
      rw [hnumber] at hne
      exact hne (AuditNote.id_eq_iff.mpr (Or.inl ⟨hsame, hfull.symm⟩))
    · rw [hnumber] at hne
      exact hne (AuditNote.id_eq_iff.mpr (Or.inr hambiguous))
  · rintro ⟨hfull, hambiguous⟩ heq
    obtain ⟨number, hnumber, hcases⟩ := h.numbered e (List.mem_of_mem_drop he)
    rw [hnumber] at heq
    rcases AuditNote.id_eq_iff.mp heq with ⟨hsame, hlength⟩ | hclash
    · obtain ⟨hmax, -⟩ := hcases.resolve_left (by omega)
      rw [hmax] at hnumber hlength
      exact hfull ⟨hlength.symm, hnumber, hsame⟩
    · exact hambiguous number hnumber hclash

end AuditLog

def Subscribed (subscribers : BTreeMap ActorId ChannelSubscription) : Prop :=
  ∀ (a : ActorId) (subscription : ChannelSubscription),
    subscribers[a]? = some subscription → subscription.actorId = a

namespace MessagingState

variable {state : MessagingState} {c : Command} {events : List Event} {j k : ConversationId}
  {old new : CommunityState} {noted : AuditNote}

def isIdle (community : CommunityState) : Command → Bool
  | .subscribeChannel actorId _ _ => community.isSubscriber actorId
  | .unsubscribeChannel actorId _ _ => !community.isSubscriber actorId
  | _ => false

/-- The log that an accepted command goes into, and what its entry says. -/
def audit (state : MessagingState) (c : Command) : Option (AuditLog × AuditNote) :=
  c.auditNote.bind fun noted ↦
    (state.communities[noted.1]?.filter fun community ↦ !isIdle community c).map
      fun community ↦ (community.adminLog, noted.2)

theorem audit_of_noted (hnote : c.auditNote = some (j, noted))
    (hold : state.communities[j]? = some old) :
    state.audit c = if isIdle old c then none else some (old.adminLog, noted) := by
  rw [audit, hnote, Option.bind_some, hold]
  cases hidle : isIdle old c <;> simp [Option.filter, hidle]

/-- What an accepted command makes of the log and the subscriptions of a community. -/
inductive CommunityWrite (state : MessagingState) (c : Command) (new : CommunityState) : Prop where
  | founded (haudit : state.audit c = none) (hlog : new.adminLog = [])
      (hsubscribed : Subscribed new.subscribers)
  | kept {j : ConversationId} {old : CommunityState} (hold : state.communities[j]? = some old)
      (haudit : state.audit c = none) (hlog : new.adminLog = old.adminLog)
      (hsubscribed : Subscribed old.subscribers → Subscribed new.subscribers)
  | logged {j : ConversationId} {old : CommunityState} {note : AuditNote}
      (hold : state.communities[j]? = some old) (haudit : state.audit c = some (old.adminLog, note))
      (hlog : AuditLog.Appends old.adminLog new.adminLog note)
      (hsubscribed : Subscribed old.subscribers → Subscribed new.subscribers)

/-- The events write one community, or none of them does. -/
inductive CommunityWrites (state : MessagingState) (c : Command) : List Event → Prop where
  | one {new : CommunityState} {rest : List Event} (hwritten : state.CommunityWrite c new)
      (hrest : ∀ event ∈ rest, event.tag.isCommunity = false) :
      CommunityWrites state c (.communityChanged new :: rest)
  | none {events : List Event} (haudit : state.audit c = none)
      (hevents : ∀ event ∈ events, event.tag.isCommunity = false) : CommunityWrites state c events

theorem CommunityWrite.of_log {base : CommunityState} {actorId : ActorId}
    {action : CommunityAuditAction} {targetActorId : Option ActorId}
    {targetId reason : Option String} {atMs : Int64} (hold : state.requireCommunity j = .ok old)
    (hnote : c.auditNote = some (j, ⟨actorId, atMs, targetId⟩)) (hidle : isIdle old c = false)
    (hlog : base.adminLog = old.adminLog)
    (hsubscribed : Subscribed old.subscribers → Subscribed base.subscribers) :
    state.CommunityWrite c
      (appendCommunityAudit base actorId action targetActorId targetId reason atMs) := by
  have hfound := okOr_eq_ok.mp hold
  have haudit := (audit_of_noted hnote hfound).trans (if_neg (Bool.eq_false_iff.mp hidle))
  exact .logged hfound haudit (AuditLog.appends_appendCommunityAudit hlog _ _ _ _ _ _) hsubscribed

theorem subscribed_erase {subscribers : BTreeMap ActorId ChannelSubscription}
    (h : Subscribed subscribers) (actorId : ActorId) : Subscribed (subscribers.erase actorId) := by
  intro a subscription hget
  rw [BTreeMap.get_erase] at hget
  split at hget
  · cases hget
  · exact h a subscription hget

theorem writes_member {actorId : ActorId} {member : CommunityMember} {reason : Option String}
    {atMs : Int64} (hold : state.requireCommunity j = .ok old)
    (hnote : c.auditNote = some (j, ⟨actorId, atMs, some ("member:" ++ member.actorId.value)⟩))
    (hidle : isIdle old c = false) :
    state.CommunityWrites c (.communityChanged (changeMember old actorId member reason atMs) ::
      state.participantEvent (changeMember old actorId member reason atMs) j member.actorId) := by
  refine .one (.of_log hold hnote hidle ?_ ?_) fun event hevent ↦ ?_
  · split <;> rfl
  · intro h
    split
    · exact subscribed_erase h member.actorId
    · exact h
  · rcases state.participantEvent_tags _ _ _ event hevent with htag | htag <;> rw [htag] <;> rfl

theorem writes_of_decide (hdecide : state.decide c = .ok events) : state.CommunityWrites c events := by
  by_cases htags : ∀ tag ∈ c.eventTags, tag.isCommunity = false
  · have hwithin := state.decide_eventTags c
    rw [hdecide] at hwithin
    refine .none ?_ fun event hevent ↦ htags _ (hwithin event hevent)
    cases c
    all_goals first | rfl | exact absurd (htags .communityChanged (.head _)) (by decide)
  by_cases hlogs : c.logsOnly = true
  · obtain ⟨hnote, hold, -, hlog, hsubscribers⟩ := logs_of_decide hlogs hdecide
    refine .one (.of_log hold hnote ?_ hlog fun h ↦ hsubscribers ▸ h) (by simp)
    cases c <;> first | rfl | cases hlogs
  · cases c
    case setConversationParticipant j participant =>
      obtain ⟨_, -, h⟩ := bind_eq_ok.mp hdecide
      obtain ⟨_, -, h⟩ := bind_eq_ok.mp h
      obtain ⟨_, -, h⟩ := bind_eq_ok.mp h
      split at h
      · obtain ⟨old, hold, h⟩ := bind_eq_ok.mp h
        obtain rfl := Except.ok.inj h
        exact .one (.kept (okOr_eq_ok.mp hold) rfl rfl id) (by simp [Event.tag, EventTag.isCommunity])
      · obtain rfl := Except.ok.inj h
        exact .none rfl (by simp [Event.tag, EventTag.isCommunity])
    case removeConversationParticipant j target =>
      obtain ⟨_, -, h⟩ := bind_eq_ok.mp hdecide
      obtain ⟨_, -, h⟩ := bind_eq_ok.mp h
      split at h
      · obtain ⟨old, hold, h⟩ := bind_eq_ok.mp h
        obtain rfl := Except.ok.inj h
        exact .one (.kept (okOr_eq_ok.mp hold) rfl rfl fun h ↦ subscribed_erase h target)
          (by simp [Event.tag, EventTag.isCommunity])
      · obtain rfl := Except.ok.inj h
        exact .none rfl (by simp [Event.tag, EventTag.isCommunity])
    case updateCommunity actorId community =>
      obtain ⟨_, -, h⟩ := bind_eq_ok.mp hdecide
      obtain ⟨_, -, h⟩ := bind_eq_ok.mp h
      split at h
      · rename_i old hold
        obtain ⟨_, -, h⟩ := bind_eq_ok.mp h
        obtain rfl := Except.ok.inj h
        exact .one (.kept hold rfl rfl id) (by simp)
      · obtain ⟨_, -, h⟩ := bind_eq_ok.mp h
        obtain rfl := Except.ok.inj h
        exact .one (.founded rfl rfl fun a subscription hget ↦ by simp at hget) (by simp)
    case subscribeChannel actorId j atMs =>
      obtain ⟨_, -, h⟩ := bind_eq_ok.mp hdecide
      obtain ⟨_, -, h⟩ := bind_eq_ok.mp h
      obtain ⟨_, -, h⟩ := bind_eq_ok.mp h
      obtain ⟨old, hold, h⟩ := bind_eq_ok.mp h
      obtain ⟨_, -, h⟩ := bind_eq_ok.mp h
      obtain ⟨subscribed, hsubscribed, h⟩ := bind_eq_ok.mp h
      obtain rfl := Except.ok.inj h
      obtain ⟨_, -, hsubscribed⟩ := bind_eq_ok.mp (liftError_eq_ok.mp hsubscribed)
      have hfound := okOr_eq_ok.mp hold
      cases hthere : old.isSubscriber actorId
      · obtain rfl := Except.ok.inj ((if_neg (Bool.eq_false_iff.mp hthere)).symm.trans hsubscribed)
        refine .one (.of_log hold rfl hthere rfl fun h a subscription hget ↦ ?_) (by simp)
        rcases BTreeMap.get_insert_cases hget with ⟨rfl, rfl⟩ | hbefore
        · rfl
        · exact h a subscription hbefore
      · obtain rfl := Except.ok.inj ((if_pos hthere).symm.trans hsubscribed)
        exact .one (.kept hfound ((audit_of_noted rfl hfound).trans (if_pos hthere)) rfl id)
          (by simp)
    case unsubscribeChannel actorId j atMs =>
      obtain ⟨_, -, h⟩ := bind_eq_ok.mp hdecide
      obtain ⟨_, -, h⟩ := bind_eq_ok.mp h
      obtain ⟨_, -, h⟩ := bind_eq_ok.mp h
      obtain ⟨_, -, h⟩ := bind_eq_ok.mp h
      obtain ⟨old, hold, h⟩ := bind_eq_ok.mp h
      obtain ⟨unsubscribed, hunsubscribed, h⟩ := bind_eq_ok.mp h
      obtain rfl := Except.ok.inj h
      obtain ⟨_, -, hunsubscribed⟩ := bind_eq_ok.mp (liftError_eq_ok.mp hunsubscribed)
      obtain rfl := Except.ok.inj hunsubscribed
      have hfound := okOr_eq_ok.mp hold
      have herased : Subscribed old.subscribers → Subscribed (old.subscribers.erase actorId) :=
        fun h ↦ subscribed_erase h actorId
      cases hthere : old.isSubscriber actorId
      · exact .one (.kept hfound ((audit_of_noted rfl hfound).trans
          (if_pos (by rw [isIdle, hthere]; rfl))) rfl herased) (by simp)
      · exact .one (.of_log hold rfl (congrArg Bool.not hthere) rfl herased) (by simp)
    case moderateCommunityMember actorId j member reason atMs =>
      obtain ⟨_, -, h⟩ := bind_eq_ok.mp hdecide
      obtain ⟨old, hold, h⟩ := bind_eq_ok.mp h
      obtain ⟨_, -, h⟩ := bind_eq_ok.mp h
      obtain ⟨_, -, h⟩ := bind_eq_ok.mp h
      obtain rfl := Except.ok.inj h
      exact writes_member hold rfl rfl
    case setCommunityMember actorId j member =>
      obtain ⟨_, -, h⟩ := bind_eq_ok.mp hdecide
      obtain ⟨old, hold, h⟩ := bind_eq_ok.mp h
      obtain ⟨_, -, h⟩ := bind_eq_ok.mp h
      obtain ⟨_, -, h⟩ := bind_eq_ok.mp h
      obtain rfl := Except.ok.inj h
      exact writes_member hold rfl rfl
    case respondCommunityJoin actorId j requesterId approved atMs =>
      obtain ⟨old, hold, h⟩ := bind_eq_ok.mp hdecide
      obtain ⟨_, -, h⟩ := bind_eq_ok.mp h
      cases approved
      case true =>
        rw [if_pos rfl] at h
        obtain ⟨joined, hjoined, h⟩ := bind_eq_ok.mp h
        obtain ⟨-, request, -, rfl⟩ :=
          CommunityState.approveJoin_eq_ok (liftError_eq_ok.mp hjoined)
        obtain rfl := Except.ok.inj h
        refine .one (.of_log hold rfl rfl rfl id) fun event hevent ↦ ?_
        obtain ⟨_, -, rfl⟩ := Option.map_eq_some_iff.mp (Option.mem_toList.mp hevent)
        rfl
      case false =>
        rw [if_neg Bool.false_ne_true] at h
        obtain ⟨request, -, h⟩ := bind_eq_ok.mp h
        obtain rfl := Except.ok.inj h
        exact .one (.of_log hold rfl rfl rfl id) (by simp)
    case setCommunitySlowMode | createInviteLink | revokeInviteLink | requestCommunityJoin
        | upsertForumTopic | deleteForumTopic => exact absurd rfl hlogs
    all_goals exact absurd (by simp [Command.eventTags, EventTag.isCommunity]) htags

/-! ### Runs -/

def registers (state : MessagingState) (k : ConversationId) :
    Option (AuditLog × BTreeMap ActorId ChannelSubscription) :=
  state.communities[k]?.map fun community ↦ (community.adminLog, community.subscribers)

def AllRegisters (P : AuditLog → BTreeMap ActorId ChannelSubscription → Prop)
    (state : MessagingState) : Prop :=
  ∀ (k : ConversationId) (community : CommunityState), state.communities[k]? = some community →
    P community.adminLog community.subscribers

theorem registers_applyAll {events : List Event} {k : ConversationId} (hevents : ∀ event ∈ events, event.tag.isCommunity = false)
    (state : MessagingState) : (state.applyAll events).registers k = state.registers k :=
  frame_applyAll (p := fun state ↦ registers state k)
    (map_communities_apply _ (fun _ _ ↦ rfl) k) hevents state

theorem allRegisters_of_eq {P : AuditLog → BTreeMap ActorId ChannelSubscription → Prop}
    {state' : MessagingState} (hsame : ∀ k, state'.registers k = state.registers k)
    (h : AllRegisters P state) : AllRegisters P state' := by
  intro k community hget
  have hregisters := hsame k
  rw [registers, hget, Option.map_some] at hregisters
  obtain ⟨old, hold, heq⟩ := Option.map_eq_some_iff.mp hregisters.symm
  obtain ⟨hlog, hsubscribers⟩ := Prod.mk.inj heq
  rw [← hlog, ← hsubscribers]
  exact h k old hold

theorem next_registers (state : MessagingState) (c : Command) :
    ((∀ k, (state.next c).registers k = state.registers k) ∧
      ∀ events, state.decide c = .ok events → state.audit c = none) ∨
    ∃ events new, state.decide c = .ok events ∧ state.CommunityWrite c new ∧
      ∀ k, (state.next c).registers k =
        if new.conversationId = k then some (new.adminLog, new.subscribers)
        else state.registers k := by
  unfold next execute
  cases hdecide : state.decide c with
  | error e => exact .inl ⟨fun _ ↦ rfl, fun _ h ↦ by cases h⟩
  | ok events =>
      cases writes_of_decide hdecide with
      | none haudit hevents =>
          exact .inl ⟨fun k ↦ registers_applyAll hevents state, fun _ _ ↦ haudit⟩
      | @one new rest hwritten hrest =>
          refine .inr ⟨_, new, rfl, hwritten, fun k ↦ ?_⟩
          refine (registers_applyAll hrest (state.apply (.communityChanged new))).trans ?_
          change (state.communities.insert new.conversationId new)[k]?.map _ = _
          rw [BTreeMap.get_insert]
          split <;> rfl

theorem allRegisters_write {P : AuditLog → BTreeMap ActorId ChannelSubscription → Prop}
    {state' : MessagingState} (hnew : P new.adminLog new.subscribers)
    (hregisters : ∀ k, state'.registers k =
      if new.conversationId = k then some (new.adminLog, new.subscribers) else state.registers k)
    (h : AllRegisters P state) : AllRegisters P state' := by
  intro k community hget
  have hk := hregisters k
  rw [registers, hget, Option.map_some] at hk
  split at hk
  · obtain ⟨hlog, hsubscribers⟩ := Prod.mk.inj (Option.some.inj hk)
    rwa [hlog, hsubscribers]
  · obtain ⟨old, hold, heq⟩ := Option.map_eq_some_iff.mp hk.symm
    obtain ⟨hlog, hsubscribers⟩ := Prod.mk.inj heq
    rw [← hlog, ← hsubscribers]
    exact h k old hold

def Kept (log : AuditLog) (subscribers : BTreeMap ActorId ChannelSubscription) : Prop :=
  log.Numbered ∧ Subscribed subscribers

theorem kept_next (h : AllRegisters Kept state) (c : Command) :
    AllRegisters Kept (state.next c) := by
  rcases state.next_registers c with ⟨hsame, -⟩ | ⟨events, new, -, hwrite, hregisters⟩
  · exact allRegisters_of_eq hsame h
  · refine allRegisters_write ?_ hregisters h
    cases hwrite with
    | founded _ hlog hsubscribed => exact ⟨hlog ▸ AuditLog.numbered_nil, hsubscribed⟩
    | kept hold _ hlog hsubscribed => exact (h _ _ hold).imp (hlog ▸ ·) hsubscribed
    | logged hold _ hlog hsubscribed => exact (h _ _ hold).imp (·.appends hlog) hsubscribed

def AllUnique (state : MessagingState) : Prop :=
  state.AllRegisters fun log _ ↦ log.UniqueIds

def AuditClear (state : MessagingState) (c : Command) : Prop :=
  (∃ events, state.decide c = .ok events) →
    ∀ log noted, state.audit c = some (log, noted) → log.Admits noted

theorem allUnique_next_iff (h : AllRegisters Kept state) (hunique : AllUnique state)
    (c : Command) : AllUnique (state.next c) ↔ state.AuditClear c := by
  rcases state.next_registers c with ⟨hsame, hnone⟩ | ⟨events, new, hdecide, hwrite, hregisters⟩
  · refine iff_of_true (allRegisters_of_eq hsame hunique) ?_
    rintro ⟨events, hdecide⟩ log noted haudit
    cases (hnone events hdecide).symm.trans haudit
  · have hnext : AllUnique (state.next c) ↔ AuditLog.UniqueIds new.adminLog := by
      refine ⟨fun hall ↦ ?_, fun hnew ↦ allRegisters_write hnew hregisters hunique⟩
      have hwritten := (hregisters new.conversationId).trans (if_pos rfl)
      obtain ⟨community, hget, heq⟩ := Option.map_eq_some_iff.mp hwritten
      exact (Prod.mk.inj heq).1 ▸ hall _ _ hget
    rw [hnext]
    have hunlogged : state.audit c = none → state.AuditClear c :=
      fun hnone _ _ _ haudit ↦ by cases hnone.symm.trans haudit
    cases hwrite with
    | founded hnone hlog => exact iff_of_true (hlog ▸ List.nodup_nil) (hunlogged hnone)
    | kept hold hnone hlog => exact iff_of_true (hlog ▸ hunique _ _ hold) (hunlogged hnone)
    | logged hold haudit hlog =>
        rw [(hunique _ _ hold).appends_iff (h _ _ hold).1 hlog]
        constructor
        · intro hadmits _ log noted hsome
          obtain ⟨rfl, rfl⟩ := Prod.mk.inj (Option.some.inj (haudit.symm.trans hsome))
          exact hadmits
        · exact fun hclear ↦ hclear ⟨events, hdecide⟩ _ _ haudit

theorem kept_afterCommands (commands : List Command) :
    AllRegisters Kept (afterCommands commands) := by
  apply Runs.invariant (I := AllRegisters Kept) (fun _ c h ↦ kept_next h c)
  intro k community hget
  simp at hget

theorem enrolled_afterCommands (commands : List Command) :
    (afterCommands commands).Enrolled := by
  apply Runs.invariant (I := Enrolled) (fun state c h k community hget ↦ ?_) enrolled_empty
  exact (nextMembership h c k).enrolled_of h hget

/-- The ids in all logs of a run are unique exactly when each accepted command finds a log that
admits its entry. -/
theorem audit_ids_unique_iff (commands : List Command) :
    (∀ front back, commands = front ++ back → ∀ (k : ConversationId) (community : CommunityState),
      (afterCommands front).communities[k]? = some community →
        (community.adminLog.map CommunityAuditEntry.id).Nodup) ↔
    Runs.Along next AuditClear {} commands :=
  Runs.forall_front_iff_along (J := AllRegisters Kept) (I := AllUnique)
    (fun _ c h ↦ kept_next h c) (fun _ c h hunique ↦ allUnique_next_iff h hunique c)
    (fun _ _ hget ↦ by simp at hget) (fun _ _ hget ↦ by simp at hget) commands

end MessagingState

namespace Bulletin

/-! A channel whose owner has a short name, and a reader with a longer one. -/

def owner : ActorId := ⟨"a"⟩
def reader : ActorId := ⟨"a:1:0:invite"⟩

def channel : Conversation :=
  { id := ⟨"news"⟩, kind := .channel, title := "news", participants := [⟨owner, .owner, 1, none⟩]
    createdAtMs := 1, updatedAtMs := 1 }

def invite : InviteLink :=
  { id := "5:1:community", conversationId := channel.id, creatorId := owner, token := "t"
    name := none, createdAtMs := 1, expiresAtMs := none, memberLimit := none, joinRequest := false
    revoked := false, joinedCount := 0 }

def read : List Command :=
  [.upsertActor { id := owner, kind := .human, displayName := "a" },
    .upsertActor { id := reader, kind := .human, displayName := "b" },
    .upsertConversation channel,
    .updateCommunity owner { conversationId := channel.id, publicUsername := some "news" },
    .createInviteLink owner invite, .subscribeChannel reader channel.id 5]

end Bulletin

open Bulletin MessagingState in
/-- Both entries have the id `audit:a:1:0:invite:5:1:community`. -/
theorem audit_ids_repeated :
    ¬ ∀ (commands : List Command) (k : ConversationId) (community : CommunityState),
      (afterCommands commands).communities[k]? = some community →
        (community.adminLog.map CommunityAuditEntry.id).Nodup := by
  intro h
  have hlog : (afterCommands read).communities[channel.id]?.map
      (fun community ↦ community.adminLog.map CommunityAuditEntry.id) =
        some ["audit:a:1:0:invite:5:1:community", "audit:a:1:0:invite:5:1:community"] := by
    decide +kernel
  obtain ⟨community, hget, hids⟩ := Option.map_eq_some_iff.mp hlog
  have hnodup := h read channel.id community hget
  rw [hids] at hnodup
  exact (List.nodup_cons.mp hnodup).1 List.mem_cons_self

/-! ## Pages of a roster -/

namespace CommunityState

variable {community : CommunityState} {members : List CommunityMember} {cursor : Option String}
  {limit : ℕ}

def pageKey (member : CommunityMember) : String :=
  member.actorId.value

theorem one_le_pageLimit (limit : ℕ) : 1 ≤ pageLimit limit :=
  le_max_left ..

theorem pageByActorId_eq (h : Listed pageKey members) (limit : ℕ) :
    (pageByActorId members · limit) = page pageKey (pageLimit limit) members := by
  funext cursor
  have hstart : ∃ start ≤ members.length, members.drop start = unread pageKey members cursor ∧
      pageByActorId members cursor limit =
        ((members.drop start).take (min (start + pageLimit limit) members.length - start),
          if min (start + pageLimit limit) members.length < members.length then
            members[min (start + pageLimit limit) members.length - 1]?.map pageKey
          else none) := by
    cases cursor with
    | none => exact ⟨0, Nat.zero_le _, rfl, rfl⟩
    | some value =>
        let isBehind := fun member : CommunityMember ↦
          decide (compare member.actorId.value value = .gt)
        refine ⟨(members.findIdx? isBehind).getD members.length, ?_, ?_, rfl⟩
        · rw [← List.findIdx_eq_getD_findIdx?]
          exact List.findIdx_le_length
        · have hpassed : (fun member ↦ decide (pageKey member ≤ value)) = fun member ↦
              !isBehind member := by
            funext member
            rw [← decide_not, decide_eq_decide, compare_gt_iff_gt]
            exact not_lt.symm
          rw [unread, ← h.sorted.dropWhile_eq, hpassed, List.dropWhile_eq_drop_findIdx_not,
            ← List.findIdx_eq_getD_findIdx?]
          simp only [Bool.not_not]
  obtain ⟨start, hle, hunread, hpage⟩ := hstart
  have hlength : (unread pageKey members cursor).length = members.length - start := by
    rw [← hunread, List.length_drop]
  have hpos := one_le_pageLimit limit
  rw [hpage, hunread, page, hlength]
  congr 1
  · by_cases hmore : start + pageLimit limit ≤ members.length
    · rw [min_eq_left hmore, Nat.add_sub_cancel_left]
    · rw [List.take_of_length_le (by rw [hlength]; omega),
        List.take_of_length_le (by rw [hlength]; omega)]
  · by_cases hmore : start + pageLimit limit < members.length
    · rw [if_pos (by omega), if_pos (by omega), ← hunread, List.getElem?_drop]
      congr 2
      omega
    · rw [if_neg (by omega), if_neg (by omega)]

def KeepsKeys (community : CommunityState) : Prop :=
  (∀ (a : ActorId) (member : CommunityMember),
    community.members[a]? = some member → member.actorId = a) ∧ Subscribed community.subscribers

def visitor (subscription : ChannelSubscription) : CommunityMember :=
  { actorId := subscription.actorId, status := .member, joinedAtMs := subscription.subscribedAtMs }

theorem mem_roster (h : community.KeepsKeys) {member : CommunityMember} :
    member ∈ community.roster ↔
      community.members[member.actorId]? = some member ∨
        community.members[member.actorId]? = none ∧ ∃ subscription,
          community.subscribers[member.actorId]? = some subscription ∧
            member = visitor subscription := by
  rw [roster, List.mem_mergeSort, List.mem_append, BTreeMap.mem_values, List.mem_map]
  refine or_congr ⟨?_, fun hget ↦ ⟨_, hget⟩⟩ ?_
  · rintro ⟨a, hget⟩
    rwa [h.1 a member hget]
  · constructor
    · rintro ⟨subscription, hmem, rfl⟩
      obtain ⟨hstored, habsent⟩ := List.mem_filter.mp hmem
      obtain ⟨a, hget⟩ := BTreeMap.mem_values.mp hstored
      obtain rfl := h.2 a subscription hget
      rw [Bool.not_eq_true', ← Bool.not_eq_true, Std.ExtTreeMap.contains_iff_mem] at habsent
      exact ⟨BTreeMap.get_eq_none_iff.mpr habsent, subscription, hget, rfl⟩
    · rintro ⟨hnone, subscription, hget, rfl⟩
      refine ⟨subscription, List.mem_filter.mpr ⟨BTreeMap.mem_values.mpr ⟨_, hget⟩, ?_⟩, rfl⟩
      rw [Bool.not_eq_true', ← Bool.not_eq_true, Std.ExtTreeMap.contains_iff_mem]
      exact BTreeMap.get_eq_none_iff.mp hnone

theorem nodup_map_values {α : Type} {m : BTreeMap ActorId α} {actorId : α → ActorId}
    (h : ∀ (a : ActorId) (v : α), m[a]? = some v → actorId v = a) :
    (m.values.map actorId).Nodup := by
  have hkeys : m.values.map actorId = m.toList.map Prod.fst := by
    rw [BTreeMap.values_eq, List.map_map]
    refine List.map_congr_left fun entry hentry ↦ ?_
    exact h entry.1 entry.2 (Std.ExtTreeMap.mem_toList_iff_getElem?_eq_some.mp hentry)
  rw [hkeys]
  exact BTreeMap.nodup_keys m

theorem listed_roster (h : community.KeepsKeys) : Listed pageKey community.roster := by
  have hsorted : community.roster.Pairwise fun left right ↦ pageKey left ≤ pageKey right := by
    have hle : ∀ left right : CommunityMember,
        (compare left.actorId right.actorId).isLE = true ↔ pageKey left ≤ pageKey right :=
      fun _ _ ↦ Ordering.isLE_iff_ne_gt.trans (compare_le_iff_le (α := String))
    refine (List.pairwise_mergeSort (fun a b c hab hbc ↦ ?_) (fun a b ↦ ?_) _).imp
      fun {a b} hab ↦ (hle a b).mp hab
    · rw [hle] at *
      exact hab.trans hbc
    · rw [Bool.or_eq_true, hle, hle]
      exact le_total _ _
  have hnodup : (community.roster.map (·.actorId)).Nodup := by
    rw [roster, ((List.mergeSort_perm _ _).map _).nodup_iff, List.map_append, List.map_map]
    have hvisitors : (community.subscribers.values.map ChannelSubscription.actorId).Nodup :=
      nodup_map_values h.2
    refine List.nodup_append.mpr ⟨nodup_map_values h.1,
      hvisitors.sublist ((List.filter_sublist ..).map _), ?_⟩
    rintro a hmember b hvisitor rfl
    obtain ⟨member, hstored, rfl⟩ := List.mem_map.mp hmember
    obtain ⟨subscription, hsubscription, heq⟩ := List.mem_map.mp hvisitor
    obtain ⟨key, hget⟩ := BTreeMap.mem_values.mp hstored
    have habsent := (List.mem_filter.mp hsubscription).2
    rw [Bool.not_eq_true', ← Bool.not_eq_true, Std.ExtTreeMap.contains_iff_mem,
      ← BTreeMap.get_eq_none_iff] at habsent
    have hkey := h.1 key member hget
    change subscription.actorId = member.actorId at heq
    rw [heq, hkey, hget] at habsent
    cases habsent
  refine (hsorted.and (List.pairwise_map.mp hnodup)).imp fun {a b} ⟨hle, hne⟩ ↦ ?_
  exact lt_of_le_of_ne hle fun heq ↦ hne (value_inj.mp heq)

theorem reads_roster (h : community.KeepsKeys) (limit : ℕ) :
    (∃ pages, Reads (community.memberPage · limit) none pages) ∧
      ∀ pages, Reads (community.memberPage · limit) none pages →
        pages.flatten = community.roster := by
  have hpages : (community.memberPage · limit) =
      page pageKey (pageLimit limit) community.roster :=
    pageByActorId_eq (listed_roster h) limit
  rw [hpages]
  exact reads_page (listed_roster h) (one_le_pageLimit limit) none

end CommunityState

open CommunityState MessagingState in
/-- Whoever follows the cursors from the start gets to the end, and has then read each member
and each subscriber who is no member once, in the order of their names and whatever the limit.
In every state of the engine the members and subscriptions of a community have their keys. -/
theorem member_pages_exhaustive :
    (∀ community : CommunityState, community.KeepsKeys → ∃ roster : List CommunityMember,
      roster.Pairwise (fun left right ↦ left.actorId.value < right.actorId.value) ∧
      (∀ member, member ∈ roster ↔ community.members[member.actorId]? = some member ∨
        community.members[member.actorId]? = none ∧ ∃ subscription,
          community.subscribers[member.actorId]? = some subscription ∧
            member = visitor subscription) ∧
      ∀ limit, (∃ pages, Reads (community.memberPage · limit) none pages) ∧
        ∀ pages, Reads (community.memberPage · limit) none pages → pages.flatten = roster) ∧
    ∀ (commands : List Command) (k : ConversationId) (community : CommunityState),
      (afterCommands commands).communities[k]? = some community → community.KeepsKeys := by
  constructor
  · intro community h
    exact ⟨community.roster, listed_roster h, fun _ ↦ mem_roster h, reads_roster h⟩
  · intro commands k community hget
    exact ⟨(enrolled_afterCommands commands k community hget).2.members,
      (kept_afterCommands commands k community hget).2⟩

end Fabushi.Messaging
