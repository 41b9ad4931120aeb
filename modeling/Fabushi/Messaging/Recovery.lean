import Fabushi.Messaging.JournalPaging
import Fabushi.Messaging.RetentionRuns

/-!
# What the service leaves in its store

Whatever a request does and wherever it fails, the cursors go into the store in their order.
What an answered request has changed is in the store, so a service that is loaded from it
takes over where the other one stopped.
-/

namespace Text

theorem parseU64_toString (n : UInt64) : parseU64 (toString n.toNat) = some n := by
  have hdigits : (toString n.toNat).toList = Nat.toDigits 10 n.toNat := Nat.toList_repr
  have hall : ∀ c ∈ Nat.toDigits 10 n.toNat, c.isDigit = true :=
    fun c hc ↦ Nat.isDigit_of_mem_toDigits (by decide) (by decide) hc
  have hascii : (Nat.toDigits 10 n.toNat).all isAsciiDigit = true :=
    List.all_eq_true.mpr fun c hc ↦ by simpa [isAsciiDigit, Char.isDigit, Char.le_def] using hall c hc
  have hvalue : (Nat.toDigits 10 n.toNat).foldl (fun n c ↦ 10 * n + (c.toNat - 48)) 0 = n.toNat :=
    Nat.ofDigitChars_eq_foldl.symm.trans Nat.ofDigitChars_ten_toDigits
  unfold parseU64
  rw [hdigits]
  dsimp only
  split
  · rename_i rest hplus
    have hdigit := hall '+' (by rw [hplus]; exact List.mem_cons_self)
    exact absurd hdigit (by decide)
  · rw [if_neg (by simp [hascii, Nat.toDigits_ne_nil]), hvalue, if_pos n.toNat_lt]
    simp

end Text

namespace Fabushi.Messaging

open Effects MachineInt Result Std

variable {S B : Type} {α β : Type}

/-! ## The calls of the store -/

namespace StoreCall

def snapshot : StoreCall → MessagingSnapshot
  | .save snapshot => snapshot
  | .saveWithEvents snapshot _ => snapshot

end StoreCall

/-- What was saved is what is loaded next. -/
def ReadsBack (S : Type) [MessagingStateStore S] : Prop :=
  ∀ (store : S) (call : StoreCall), (call.apply store).2 = .ok () →
    MessagingStateStore.load (call.apply store).1 = .ok (some call.snapshot)

namespace MemoryStateStore

theorem snapshot_prune (store : MemoryStateStore) : (prune store).1.snapshot = store.snapshot := by
  unfold prune
  split
  · rfl
  · dsimp only
    split <;> rfl

theorem readsBack : ReadsBack MemoryStateStore := by
  intro store call h
  refine congrArg Except.ok ?_
  cases call with
  | save snapshot =>
      change (MemoryStateStore.save store snapshot).2 = .ok () at h
      change (MemoryStateStore.save store snapshot).1.snapshot = _
      unfold MemoryStateStore.save at h ⊢
      split at h
      · cases h
      · rfl
  | saveWithEvents snapshot events =>
      change (MemoryStateStore.saveWithEvents store snapshot events).2 = .ok () at h
      change (MemoryStateStore.saveWithEvents store snapshot events).1.snapshot = _
      unfold MemoryStateStore.saveWithEvents at h ⊢
      split at h
      · cases h
      · exact snapshot_prune _

end MemoryStateStore

/-- A store with the calls that it has been handed. -/
structure Logged (S : Type) where
  store : S
  calls : List StoreCall := []

instance [MessagingStateStore S] : MessagingStateStore (Logged S) where
  load logged := MessagingStateStore.load logged.store
  save logged snapshot :=
    let (store, saved) := MessagingStateStore.save logged.store snapshot
    ({ store, calls := logged.calls ++ [.save snapshot] }, saved)
  saveWithEvents logged snapshot events :=
    let (store, saved) := MessagingStateStore.saveWithEvents logged.store snapshot events
    ({ store, calls := logged.calls ++ [.saveWithEvents snapshot events] }, saved)
  loadEventJournalAfter logged := MessagingStateStore.loadEventJournalAfter logged.store

theorem Logged.applyAll [MessagingStateStore S] (logged : Logged S) (calls : List StoreCall) :
    StoreCall.applyAll logged calls =
      { store := StoreCall.applyAll logged.store calls, calls := logged.calls ++ calls } := by
  induction calls generalizing logged with
  | nil => simp [StoreCall.applyAll]
  | cons call calls ih =>
      have hcall : (call.apply logged).1 =
          { store := (call.apply logged.store).1, calls := logged.calls ++ [call] } := by
        cases call <;> rfl
      change StoreCall.applyAll (call.apply logged).1 calls = _
      rw [ih, hcall, List.append_assoc]
      rfl

namespace MessagingState

theorem runAll_nil_events {state : MessagingState} {commands : List Command}
    (h : (state.runAll commands).2 = .ok []) : (state.runAll commands).1 = state := by
  induction commands generalizing state with
  | nil => rfl
  | cons command commands ih =>
      cases hexecute : state.execute command with
      | mk state' decision =>
          cases decision with
          | error error =>
              rw [runAll_cons_error hexecute] at h
              cases h
          | ok events =>
              rw [runAll_cons_ok hexecute] at h ⊢
              cases hrest : (state'.runAll commands).2 with
              | error error =>
                  rw [hrest] at h
                  cases h
              | ok rest =>
                  rw [hrest] at h
                  obtain ⟨rfl, rfl⟩ := List.append_eq_nil_iff.mp (Except.ok.inj h)
                  have hsame : state' = state := by
                    unfold execute at hexecute
                    split at hexecute
                    · cases congrArg Prod.snd hexecute
                    · obtain rfl := Except.ok.inj (congrArg Prod.snd hexecute)
                      exact (congrArg Prod.fst hexecute).symm
                  exact (ih hrest).trans hsame

theorem cursor_journalEnvelope (state : MessagingState) (response : ServerEnvelope) :
    (state.journalEnvelope response).cursor = response.cursor := by
  unfold journalEnvelope publicJournalEnvelope
  repeat' split
  all_goals rfl

end MessagingState

namespace MessagingService

variable [MessagingStateStore S] {s s' s'' : MessagingService S B}

/-! ## Steps that save -/

/-- The service is what `load` makes of its store. -/
def Recoverable (s : MessagingService S B) : Prop :=
  (load s.store : Except MessagingServiceError (MessagingService S B)) =
    .ok { engine := s.engine, store := s.store, cursor := s.cursor }

structure SameRecord (s s' : MessagingService S B) : Prop where
  engine : s'.engine = s.engine
  store : s'.store = s.store
  cursor : s'.cursor = s.cursor

/-- The store has taken calls whose cursors lie in order between those of the service. -/
structure Saves (s s' : MessagingService S B) : Prop where
  le : s.cursor ≤ s'.cursor
  calls : ∃ calls : List StoreCall, s'.store = StoreCall.applyAll s.store calls ∧
    (calls.flatMap StoreCall.cursors).Pairwise (· ≤ ·) ∧
    ∀ cursor ∈ calls.flatMap StoreCall.cursors, s.cursor ≤ cursor ∧ cursor ≤ s'.cursor

theorem Recoverable.same (h : s.Recoverable) (hsame : SameRecord s s') : s'.Recoverable := by
  unfold Recoverable at h ⊢
  rw [hsame.engine, hsame.store, hsame.cursor, h]

omit [MessagingStateStore S] in
theorem SameRecord.trans (h : SameRecord s s') (h' : SameRecord s' s'') : SameRecord s s'' :=
  ⟨h'.engine.trans h.engine, h'.store.trans h.store, h'.cursor.trans h.cursor⟩

theorem saves_of_store (hle : s.cursor ≤ s'.cursor) (hstore : s'.store = s.store) : Saves s s' :=
  ⟨hle, [], hstore, .nil, fun _ h ↦ absurd h List.not_mem_nil⟩

theorem Saves.trans (h : Saves s s') (h' : Saves s' s'') : Saves s s'' := by
  obtain ⟨calls, hstore, hsorted, hbound⟩ := h.calls
  obtain ⟨calls', hstore', hsorted', hbound'⟩ := h'.calls
  refine ⟨h.le.trans h'.le, calls ++ calls', ?_, ?_, fun cursor hcursor ↦ ?_⟩
  · rw [hstore', hstore]
    exact List.foldl_append.symm
  · rw [List.flatMap_append]
    exact List.pairwise_append.mpr ⟨hsorted, hsorted', fun c hc c' hc' ↦
      (hbound c hc).2.trans (hbound' c' hc').1⟩
  · rw [List.flatMap_append] at hcursor
    rcases List.mem_append.mp hcursor with hcursor | hcursor
    · exact ⟨(hbound cursor hcursor).1, (hbound cursor hcursor).2.trans h'.le⟩
    · exact ⟨h.le.trans (hbound' cursor hcursor).1, (hbound' cursor hcursor).2⟩

theorem saves_call {call : StoreCall} (h : ∀ cursor ∈ call.cursors, cursor = s.cursor) :
    Saves s { s with store := (call.apply s.store).1 } := by
  refine ⟨le_rfl, [call], rfl, ?_, fun cursor hcursor ↦ ?_⟩
  · rw [List.flatMap_singleton]
    refine List.pairwise_of_forall_mem_list fun c hc c' hc' ↦ ?_
    rw [h c hc, h c' hc']
  · rw [List.flatMap_singleton] at hcursor
    exact ⟨(h cursor hcursor).ge, (h cursor hcursor).le⟩

theorem recoverable_call (hreads : ReadsBack S) {call : StoreCall}
    (hok : (call.apply s.store).2 = .ok ()) (hcursor : call.snapshot.cursor = s.cursor)
    (hstate : call.snapshot.state = s.engine) :
    Recoverable { s with store := (call.apply s.store).1 } := by
  unfold Recoverable load
  rw [hreads s.store call hok, ← hcursor, ← hstate]
  rfl

/-- A computation that leaves in the store what it has changed, unless it fails. -/
structure Records (m : ServiceM S B α) : Prop where
  saves : Changes Saves m
  recorded : ReadsBack S → ∀ s a, result m s = .ok a →
    SameRecord s (after m s) ∨ (after m s).Recoverable

/-- A computation that ends with a save. -/
structure Commits (m : ServiceM S B α) : Prop where
  saves : Changes Saves m
  recoverable : ReadsBack S → ∀ s a, result m s = .ok a → (after m s).Recoverable

theorem Commits.records {m : ServiceM S B α} (h : Commits m) : Records m :=
  ⟨h.saves, fun hreads s a ha ↦ .inr (h.recoverable hreads s a ha)⟩

theorem saves_bind {m : ServiceM S B α} {f : α → ServiceM S B β} (hm : Changes Saves m)
    (hf : ∀ a, Changes Saves (f a)) : Changes Saves (m >>= f) :=
  changes_bind (fun _ _ h ↦ h) (fun _ _ _ h h' ↦ h.trans h') hm hf

theorem commits_bind {m : ServiceM S B α} {f : α → ServiceM S B β} (hm : Changes Saves m)
    (hf : ∀ a, Commits (f a)) : Commits (m >>= f) := by
  refine ⟨saves_bind hm fun a ↦ (hf a).saves, fun hreads s b h ↦ ?_⟩
  cases ha : result m s with
  | error e => cases h.symm.trans (result_bind_error ha)
  | ok a =>
      rw [result_bind_ok ha] at h
      rw [after_bind_ok ha]
      exact (hf a).recoverable hreads _ b h

theorem records_of_same {m : ServiceM S B α} (h : ∀ s, SameRecord s (after m s)) : Records m :=
  ⟨fun s ↦ saves_of_store (h s).cursor.ge (h s).store, fun _ s _ _ ↦ .inl (h s)⟩

theorem records_pure (a : α) : Records (pure a : ServiceM S B α) :=
  records_of_same fun _ ↦ ⟨rfl, rfl, rfl⟩

theorem records_orThrow {δ : Type} (wrap : δ → MessagingServiceError) (x : Except δ α) :
    Records (orThrow wrap x : ServiceM S B α) :=
  records_of_same fun s ↦ by
    rw [after_orThrow]
    exact ⟨rfl, rfl, rfl⟩

theorem records_bind {m : ServiceM S B α} {f : α → ServiceM S B β} (hm : Records m)
    (hf : ∀ a, Records (f a)) : Records (m >>= f) := by
  refine ⟨saves_bind hm.saves fun a ↦ (hf a).saves, fun hreads s b h ↦ ?_⟩
  cases ha : result m s with
  | error e => cases h.symm.trans (result_bind_error ha)
  | ok a =>
      rw [result_bind_ok ha] at h
      rw [after_bind_ok ha]
      rcases (hf a).recorded hreads _ b h with hsame | hrecovered
      · rcases hm.recorded hreads s a ha with hbefore | hbefore
        · exact .inl (hbefore.trans hsame)
        · exact .inr (hbefore.same hsame)
      · exact .inr hrecovered

theorem Commits.bind {m : ServiceM S B α} {f : α → ServiceM S B β} (hm : Commits m)
    (hf : ∀ a s, SameRecord s (after (f a) s)) : Commits (m >>= f) := by
  refine ⟨saves_bind hm.saves fun a ↦ (records_of_same (hf a)).saves, fun hreads s b h ↦ ?_⟩
  cases ha : result m s with
  | error e => cases h.symm.trans (result_bind_error ha)
  | ok a =>
      rw [after_bind_ok ha]
      exact (hm.recoverable hreads s a ha).same (hf a _)

theorem records_get_bind {f : MessagingService S B → ServiceM S B β} (hf : ∀ s, Records (f s)) :
    Records (get >>= f) :=
  records_bind (records_of_same fun _ ↦ ⟨rfl, rfl, rfl⟩) hf

/-! ## Parts of a request -/

theorem saves_executeAll (commands : List Command) :
    Changes Saves (executeAll commands : ServiceM S B (List Event)) := by
  intro s
  rw [(executeAll_eq commands s).2]
  exact saves_of_store le_rfl rfl

theorem le_saturatingU64 (a : UInt64) (n : ℕ) : a ≤ saturatingU64 a n := by
  have ha := a.toNat_lt
  rw [UInt64.le_iff_toNat_le]
  unfold saturatingU64
  split
  · rename_i h
    rw [UInt64.toNat_ofNat', Nat.mod_eq_of_lt h]
    exact Nat.le_add_right _ _
  · change a.toNat ≤ 2 ^ 64 - 1
    omega

theorem saves_advanceCursor (count : ℕ) :
    Changes Saves (advanceCursor count : ServiceM S B PUnit) :=
  changes_modify fun s ↦ saves_of_store (le_saturatingU64 s.cursor count) rfl

/-- A computation that hands the store one call, made of the service as it stands. -/
theorem commits_of_call {m : ServiceM S B α} (call : MessagingService S B → StoreCall)
    (hafter : ∀ s, after m s = { s with store := ((call s).apply s.store).1 })
    (hok : ∀ s a, result m s = .ok a → ((call s).apply s.store).2 = .ok ())
    (hcursors : ∀ s, ∀ cursor ∈ (call s).cursors, cursor = s.cursor)
    (hsnapshot : ∀ s, (call s).snapshot.cursor = s.cursor ∧ (call s).snapshot.state = s.engine) :
    Commits m := by
  refine ⟨fun s ↦ ?_, fun hreads s a h ↦ ?_⟩
  · rw [hafter]
    exact saves_call (hcursors s)
  · rw [hafter]
    exact recoverable_call hreads (hok s a h) (hsnapshot s).1 (hsnapshot s).2

theorem handed (call : StoreCall) (s : MessagingService S B) :
    let m : ServiceM S B Unit := do
      modify fun service ↦ { service with store := (call.apply s.store).1 }
      orThrow .store (call.apply s.store).2
    after m s = { s with store := (call.apply s.store).1 } ∧
      ∀ a, result m s = .ok a → (call.apply s.store).2 = .ok () := by
  intro m
  have hafter : after m s = _ := after_orThrow _ (call.apply s.store).2 _
  have hresult : result m s = _ := result_orThrow _ (call.apply s.store).2 _
  refine ⟨hafter, fun a h ↦ ?_⟩
  rw [hresult] at h
  cases hok : (call.apply s.store).2 with
  | ok u => rfl
  | error e =>
      rw [hok] at h
      cases h

theorem commits_persist (nowMs : Int64) : Commits (persist nowMs : ServiceM S B Unit) :=
  let call (s : MessagingService S B) : StoreCall :=
    .save { cursor := s.cursor, savedAtMs := nowMs, state := s.engine }
  commits_of_call call (fun s ↦ (handed (call s) s).1) (fun s ↦ (handed (call s) s).2)
    (fun _ _ hc ↦ List.mem_singleton.mp hc) fun _ ↦ ⟨rfl, rfl⟩

theorem cursor_of_mem_journalEntries {state : MessagingState} {actorId : ActorId}
    {responses : List ServerEnvelope} {n cursor : UInt64} {snapshot : MessagingSnapshot}
    (hresponses : ∀ r ∈ responses, r.cursor = some (toString n.toNat))
    (h : cursor ∈ (StoreCall.saveWithEvents snapshot
      (state.journalEntries actorId responses)).cursors) : cursor = n := by
  obtain ⟨entry, hentry, hcursor⟩ := List.mem_filterMap.mp h
  obtain ⟨response, hmem, rfl⟩ := List.mem_map.mp hentry
  have hread : journalCursor
      { envelope := state.journalEnvelope response
        audience := state.eventAudience actorId response.event } = .ok n := by
    unfold journalCursor
    rw [MessagingState.cursor_journalEnvelope, hresponses response (List.mem_filter.mp hmem).1]
    change okOr (Text.parseU64 (toString n.toNat)) _ = _
    rw [Text.parseU64_toString]
    rfl
  rw [hread] at hcursor
  exact (Option.some.inj hcursor).symm

/-- An answer whose events stand at the advanced cursor is journalled with it. -/
theorem commits_answer (count : ℕ) (actorId : ActorId)
    (respond : MessagingService S B → List ServerEnvelope) (serverTimeMs : Int64)
    (hrespond : ∀ s, ∀ r ∈ respond s, r.cursor = some (toString s.cursor.toNat)) :
    Commits (do
      advanceCursor count
      let service ← get
      journal actorId (respond service) serverTimeMs
      return respond service : ServiceM S B (List ServerEnvelope)) := by
  let call (s : MessagingService S B) : StoreCall :=
    .saveWithEvents { cursor := s.cursor, savedAtMs := serverTimeMs, state := s.engine }
      (s.engine.journalEntries actorId (respond s))
  refine commits_bind (saves_advanceCursor count) fun _ ↦ commits_of_call call (fun s ↦ ?_)
    (fun s a h ↦ ?_) (fun s c hc ↦ cursor_of_mem_journalEntries (hrespond s) hc) fun s ↦ ⟨rfl, rfl⟩
  · rw [after_get_bind, after_bind_pure]
    exact (handed (call s) s).1
  · rw [result_get_bind, result_bind_pure] at h
    cases hjournal : result (journal actorId (respond s) serverTimeMs) s with
    | error e =>
        rw [hjournal] at h
        cases h
    | ok u => exact (handed (call s) s).2 u hjournal

theorem commits_publish (actorId : ActorId) (events : List Event)
    (invocations : List BotInvocation) (serverTimeMs : Int64) :
    Commits (publish actorId events invocations serverTimeMs :
      ServiceM S B (List ServerEnvelope)) :=
  commits_answer events.length actorId _ serverTimeMs fun s r hr ↦ by
    obtain ⟨event, -, rfl⟩ := List.mem_map.mp hr
    rfl

theorem commits_singleServiceEvent (actorId : ActorId) (event : ServerEvent)
    (serverTimeMs : Int64) :
    Commits (singleServiceEvent actorId event serverTimeMs :
      ServiceM S B (List ServerEnvelope)) :=
  commits_answer 1 actorId (fun s ↦ [envelope s.cursor serverTimeMs event]) serverTimeMs
    fun s r hr ↦ by
      rw [List.mem_singleton.mp hr]
      rfl

theorem commits_executeAll_publish (commands : List Command) (actorId : ActorId)
    (serverTimeMs : Int64) :
    Commits (do
      let events ← executeAll commands
      discard (publish actorId events [] serverTimeMs) : ServiceM S B Unit) :=
  commits_bind (saves_executeAll commands) fun _ ↦
    (commits_publish _ _ _ _).bind fun _ _ ↦ ⟨rfl, rfl, rfl⟩

theorem records_settleExpiredMessages (initiator : ActorId) (serverTimeMs : Int64) :
    Records (settleExpiredMessages initiator serverTimeMs : ServiceM S B Unit) := by
  refine records_get_bind fun service ↦ ?_
  dsimp only
  split
  · exact records_pure ()
  · exact (commits_executeAll_publish _ _ _).records

theorem records_markDirectMessagesDelivered (actorId : ActorId) (serverTimeMs : Int64) :
    Records (markDirectMessagesDelivered actorId serverTimeMs : ServiceM S B Unit) := by
  refine records_get_bind fun service ↦ ?_
  dsimp only
  split
  · exact records_pure ()
  · exact (commits_executeAll_publish _ _ _).records

theorem records_typingEvent (actorId : ActorId) (conversationId : ConversationId)
    (action : Option String) (serverTimeMs : Int64) :
    Records (typingEvent actorId conversationId action serverTimeMs :
      ServiceM S B (List ServerEnvelope)) := by
  refine records_get_bind fun service ↦ ?_
  refine records_bind (records_orThrow _ _) fun conversation ↦ ?_
  refine records_bind (records_orThrow _ _) fun _ ↦ ?_
  exact (commits_singleServiceEvent _ _ _).records

theorem records_withBlobStore (operation : B → B × Except BlobStoreError α) :
    Records (withBlobStore operation : ServiceM S B α) := by
  refine records_get_bind fun service ↦ ?_
  split
  · exact records_of_same fun _ ↦ ⟨rfl, rfl, rfl⟩
  · exact records_bind (records_of_same fun _ ↦ ⟨rfl, rfl, rfl⟩) fun _ ↦ records_orThrow _ _

theorem records_blobEvent (operation : B → B × Except BlobStoreError α)
    (event : α → ServerEvent) (actorId : ActorId) (serverTimeMs : Int64) :
    Records (do
      let a ← withBlobStore operation
      singleServiceEvent actorId (event a) serverTimeMs : ServiceM S B (List ServerEnvelope)) :=
  records_bind (records_withBlobStore operation) fun _ ↦
    (commits_singleServiceEvent _ _ _).records

theorem commits_get_bind {f : MessagingService S B → ServiceM S B β} (hf : ∀ s, Commits (f s)) :
    Commits (get >>= f) :=
  ⟨fun s ↦ (hf s).saves s, fun hreads s b h ↦ (hf s).recoverable hreads s b h⟩

/-- Commands without an event have changed nothing. -/
theorem records_executeAll {f : List Event → ServiceM S B (List ServerEnvelope)}
    (commands : List Command) (hf : ∀ events, Commits (f events)) :
    Records (do
      let events ← executeAll commands
      if events.isEmpty then return [] else f events) := by
  have hrest : ∀ events : List Event, Records (if events.isEmpty then pure [] else f events) := by
    intro events
    split
    · exact records_pure []
    · exact (hf events).records
  refine ⟨saves_bind (saves_executeAll commands) fun events ↦ (hrest events).saves,
    fun hreads s out h ↦ ?_⟩
  obtain ⟨hresult, hafter⟩ := executeAll_eq commands s
  cases hevents : result (executeAll commands) s with
  | error e => cases h.symm.trans (result_bind_error hevents)
  | ok events =>
      rw [result_bind_ok hevents] at h
      rw [after_bind_ok hevents]
      cases events with
      | nil =>
          have hnone : (s.engine.runAll commands).2 = .ok [] := by
            rw [hresult] at hevents
            cases hrun : (s.engine.runAll commands).2 with
            | error e =>
                rw [hrun] at hevents
                cases hevents
            | ok events =>
                rw [hrun] at hevents
                exact congrArg Except.ok (Except.ok.inj hevents)
          rw [hafter, MessagingState.runAll_nil_events hnone]
          exact .inl ⟨rfl, rfl, rfl⟩
      | cons event events => exact .inr ((hf _).recoverable hreads _ out h)

theorem records_handleProjected (env : ServiceEnv) (actorId : ActorId) (command : ClientCommand)
    (serverTimeMs : Int64) :
    Records (handleProjected env actorId command serverTimeMs :
      ServiceM S B (List ServerEnvelope)) := by
  refine records_get_bind fun service ↦ ?_
  refine records_bind (records_orThrow _ _) fun replay ↦ ?_
  cases replay with
  | some replay => exact records_pure replay
  | none => exact records_executeAll _ fun _ ↦ commits_get_bind fun _ ↦ commits_publish _ _ _ _

theorem records_applySignedSettlement (env : ServiceEnv) (verifier : SettlementVerifier)
    (signed : SignedSettlement) (serverTimeMs : Int64) :
    Records (applySignedSettlement env verifier signed serverTimeMs : ServiceM S B LedgerEntry) := by
  refine records_bind (records_orThrow _ _) fun event ↦ Commits.records ?_
  refine commits_bind (fun s ↦ ?_) fun events ↦ ?_
  · rw [after_executeCommand]
    exact saves_of_store le_rfl rfl
  · refine commits_bind (records_orThrow _ _).saves fun entry ↦ ?_
    refine commits_bind (saves_advanceCursor _) fun _ ↦ ?_
    exact (commits_persist _).bind fun _ _ ↦ ⟨rfl, rfl, rfl⟩

variable [BlobStore B]

theorem records_handleCommand (env : ServiceEnv) (actorId : ActorId) (serverTimeMs : Int64)
    (command : ClientCommand) :
    Records (handleCommand env actorId serverTimeMs command :
      ServiceM S B (List ServerEnvelope)) := by
  cases command
  case beginBlobUpload => exact records_blobEvent _ _ _ _
  case appendBlobChunk =>
    exact records_bind (records_orThrow _ _) fun _ ↦ records_blobEvent _ _ _ _
  case finishBlobUpload => exact records_blobEvent _ _ _ _
  case deleteBlob => exact records_blobEvent _ _ _ _
  case walletStatus => exact records_get_bind fun _ ↦ records_pure _
  case sync =>
    refine records_bind (records_markDirectMessagesDelivered _ _) fun _ ↦ ?_
    exact records_get_bind fun _ ↦ records_orThrow _ _
  case search => exact records_get_bind fun _ ↦ records_pure _
  case listCommunityMembers => exact records_get_bind fun _ ↦ records_orThrow _ _
  case listCommunityAuditLog => exact records_get_bind fun _ ↦ records_orThrow _ _
  case startTyping => exact records_typingEvent _ _ _ _
  case stopTyping => exact records_typingEvent _ _ _ _
  all_goals exact records_handleProjected _ _ _ _

theorem records_handle (env : ServiceEnv) (request : ClientEnvelope) (serverTimeMs : Int64) :
    Records (handle env request serverTimeMs : ServiceM S B (List ServerEnvelope)) := by
  unfold handle
  split
  · exact records_of_same fun _ ↦ ⟨rfl, rfl, rfl⟩
  · refine records_get_bind fun service ↦ ?_
    refine records_bind (records_orThrow _ _) fun _ ↦ ?_
    refine records_bind (records_settleExpiredMessages _ _) fun _ ↦ ?_
    exact records_handleCommand _ _ _ _

/-! ## Runs -/

def Responds (env : ServiceEnv) (s : MessagingService S B) : ServiceInput → Prop
  | .handle request serverTimeMs => ∃ out, result (handle env request serverTimeMs) s = .ok out
  | .settle verifier signed serverTimeMs =>
      ∃ entry, result (applySignedSettlement env verifier signed serverTimeMs) s = .ok entry

theorem saves_next (env : ServiceEnv) (s : MessagingService S B) (input : ServiceInput) :
    Saves s (next env s input) := by
  cases input with
  | handle request serverTimeMs => exact (records_handle env request serverTimeMs).saves s
  | settle verifier signed serverTimeMs =>
      exact (records_applySignedSettlement env verifier signed serverTimeMs).saves s

theorem recorded_next (hreads : ReadsBack S) {env : ServiceEnv} {s : MessagingService S B}
    {input : ServiceInput} (h : Responds env s input) :
    SameRecord s (next env s input) ∨ (next env s input).Recoverable := by
  cases input with
  | handle request serverTimeMs =>
      obtain ⟨out, h⟩ := h
      exact (records_handle env request serverTimeMs).recorded hreads s out h
  | settle verifier signed serverTimeMs =>
      obtain ⟨entry, h⟩ := h
      exact (records_applySignedSettlement env verifier signed serverTimeMs).recorded hreads s entry h

/-- Everything the service has handed to its store comes in the order of its cursors. -/
theorem saves_run (env : ServiceEnv) (s : MessagingService S B) (inputs : List ServiceInput) :
    Saves s (Runs.run (next env) s inputs) :=
  Runs.invariant (fun _ input h ↦ h.trans (saves_next env _ input)) (saves_of_store le_rfl rfl) inputs

/-- The service is stopped and loaded from its store. -/
def restart (s : MessagingService S B) : MessagingService S B :=
  match (load s.store : Except MessagingServiceError (MessagingService S B)) with
  | .ok loaded => { loaded with blobStore := s.blobStore }
  | .error _ => s

def nextOrRestart (env : ServiceEnv) (s : MessagingService S B) :
    Option ServiceInput → MessagingService S B
  | some input => next env s input
  | none => restart s

/-- The input is answered, or leaves the engine, the cursor and the store alone. -/
def Clean (env : ServiceEnv) (s : MessagingService S B) (step : Option ServiceInput) : Prop :=
  ∀ input ∈ step, Responds env s input ∨ SameRecord s (next env s input)

/-- Restarts between clean requests change nothing. -/
theorem restarts_unnoticed (hreads : ReadsBack S) {env : ServiceEnv} {s : MessagingService S B}
    (hs : s.Recoverable) {steps : List (Option ServiceInput)}
    (hclean : Runs.Along (nextOrRestart env) (Clean env) s steps) :
    Runs.run (nextOrRestart env) s steps = Runs.run (next env) s (steps.filterMap id) := by
  induction steps generalizing s with
  | nil => rfl
  | cons step steps ih =>
      obtain ⟨hstep, hrest⟩ := hclean
      cases step with
      | some input =>
          refine ih ?_ hrest
          rcases hstep input rfl with hresponds | hsame
          · rcases recorded_next hreads hresponds with hsame | hrecovered
            · exact hs.same hsame
            · exact hrecovered
          · exact hs.same hsame
      | none =>
          have hsame : nextOrRestart env s none = s := by
            change restart s = s
            unfold restart
            rw [hs]
          rw [Runs.run_cons, hsame]
          rw [hsame] at hrest
          exact ih hs hrest

omit [BlobStore B] in
theorem recoverable_empty (blobStore : Option B) :
    Recoverable (empty ({} : MemoryStateStore) blobStore) := rfl

open Chat in
/-- The host gets a profile before the restart and another one behind it. -/
theorem restarts_unnoticed_profile :
    let start : MessagingService MemoryStateStore Empty := empty {} none
    Runs.run (nextOrRestart world) start [some (profile host), none, some (profile host)] =
      Runs.run (next world) start [profile host, profile host] := by
  intro start
  refine restarts_unnoticed MemoryStateStore.readsBack (recoverable_empty none)
    ⟨fun input hinput ↦ ?_, fun _ h ↦ absurd h.symm (Option.some_ne_none _), fun input hinput ↦ ?_,
      trivial⟩
  · cases hinput
    exact .inl (exists_of_isOk (by decide +kernel))
  · cases hinput
    exact .inl (exists_of_isOk (by decide +kernel))

/-- In every run over the store in memory, reading on from a cursor at or above the floor of the
journal gives every event behind it that the service has handed to the store, once and in order. -/
theorem journal_read_once (env : ServiceEnv) (blobStore : Option B) (inputs : List ServiceInput)
    (limit : ℕ) :
    let start : MessagingService (Logged MemoryStateStore) B := empty { store := {} } blobStore
    let service := Runs.run (next env) start inputs
    let store := service.store.store
    let history := StoreCall.journalled ({} : MemoryStateStore) service.store.calls
    (∃ pruned, history = pruned ++ store.journal ∧
      ∀ entry ∈ pruned, entry.HasCursor ∧ entry.cursor ≤ store.journalFloorCursor) ∧
    ∀ cursor, store.journalFloorCursor ≤ cursor → ∃ slices,
      (∀ fuel, store.journal.length < fuel → readPages store limit fuel cursor = some slices) ∧
        Complete history cursor slices := by
  intro start service store history
  obtain ⟨calls, hstore, hsorted, -⟩ := (saves_run env start inputs).calls
  rw [Logged.applyAll] at hstore
  have hcalls : service.store.calls = calls := congrArg Logged.calls hstore
  have hmemory : store = StoreCall.applyAll {} calls := congrArg Logged.store hstore
  have hkept : MemoryStateStore.Kept store history [] := by
    have h := MemoryStateStore.Kept.calls hsorted (MemoryStateStore.kept_empty _)
    rwa [List.nil_append, ← hmemory, ← hcalls] at h
  obtain ⟨pruned, hhistory, hbound⟩ := hkept.history
  refine ⟨⟨pruned, hhistory, hbound⟩, fun cursor hcursor ↦ ?_⟩
  have hload : ∀ cursor, ∃ slice rest,
      MessagingStateStore.loadEventJournalAfter store cursor limit = .ok (some slice) ∧
        Page store.journal cursor slice rest :=
    fun cursor ↦ MemoryStateStore.load_page hkept.journal cursor limit
  obtain ⟨slices, hread, hcomplete⟩ := readPages_complete hload cursor
  refine ⟨slices, fun fuel hfuel ↦ hread fuel ((List.length_filter_le _ _).trans_lt hfuel), ?_,
    hcomplete.apart⟩
  rw [hcomplete.entries, hhistory, Paging.behind_append,
    Paging.behind_eq_nil fun entry hentry ↦ (hbound entry hentry).2.trans hcursor, List.nil_append]

end MessagingService

end Fabushi.Messaging
