import Fabushi.Library.EventLog
import Fabushi.TelegramStorage.Store

/-!
# Runtime clients on one database

A client decides a command on its own copy of the state and commits the copy with its
events where the database is still at the revision of the copy. Whatever other clients
commit in between, the snapshot is the fold of the log and every copy is the state at its
revision.
-/

namespace Fabushi.TelegramRuntime

open EventLog Result TelegramCore TelegramStorage

variable {Key Nonce Payload Content Formatted : Type}

structure PersistentClientStorage (Key : Type) where
  key : Key
  revision : ℕ

structure CoreClient (Key Content Formatted : Type) where
  core : TelegramState Content Formatted := {}
  persistence : Option (PersistentClientStorage Key) := none

inductive CommandError where
  | clientNotFound
  | core (error : EngineError)
  | storage (error : StorageError)
  deriving DecidableEq

structure Executed (Key Payload Content Formatted : Type) where
  events : List (TelegramCore.Event Content Formatted)
  client : CoreClient Key Content Formatted
  database : Database Payload

namespace CoreClient

variable (codec : StorageCodec Key Nonce Payload Content Formatted)

def openPersistent (database : Database Payload) (key : Key) :
    Except CommandError (CoreClient Key Content Formatted) :=
  match database.loadSnapshot codec key with
  | .error e => .error (.storage e)
  | .ok none => .ok { persistence := some { key, revision := 0 } }
  | .ok (some snapshot) =>
      .ok { core := snapshot.state, persistence := some { key, revision := snapshot.revision } }

/-- `executeCoreCommand`; a fault of the database rolls the transaction back. -/
def executeCoreCommand (client : CoreClient Key Content Formatted) (database : Database Payload)
    (nonces : ℕ → Nonce) (command : Command Content Formatted) (nowUnixMs : Int64)
    (fault : Option StorageError) :
    Except CommandError (Executed Key Payload Content Formatted) :=
  match client.core.decide command with
  | .error e => .error (.core e)
  | .ok events =>
      let nextCore := events.foldl TelegramState.apply client.core
      match client.persistence, fault with
      | none, _ => .ok { events, client := { client with core := nextCore }, database }
      | some _, some e => .error (.storage e)
      | some persistence, none =>
          match database.commitTransition codec persistence.key nonces nextCore events
              persistence.revision nowUnixMs with
          | .error e => .error (.storage e)
          | .ok (database, transition) =>
              let persistence := { persistence with revision := transition.snapshot.revision }
              let client : CoreClient Key Content Formatted :=
                { core := nextCore, persistence := some persistence }
              .ok { events, client, database }

end CoreClient

structure Deployment (Key Payload Content Formatted : Type) where
  database : Database Payload := {}
  clients : List (Option (CoreClient Key Content Formatted)) := []
  commits : List (List (TelegramCore.Event Content Formatted)) := []

inductive StoreRequest (Key Nonce Content Formatted : Type) where
  | createClient
  | createPersistentClient (key : Key)
  | executeCoreCommand (client : ℕ) (nonces : ℕ → Nonce) (command : Command Content Formatted)
      (nowUnixMs : Int64) (fault : Option StorageError)
  | closeClient (client : ℕ)

namespace Deployment

variable (codec : StorageCodec Key Nonce Payload Content Formatted)
  (deployment : Deployment Key Payload Content Formatted)

def execute (client : ℕ) (nonces : ℕ → Nonce) (command : Command Content Formatted)
    (nowUnixMs : Int64) (fault : Option StorageError) :
    Except CommandError (Executed Key Payload Content Formatted) :=
  match deployment.clients[client]?.join with
  | none => .error .clientNotFound
  | some found =>
      found.executeCoreCommand codec deployment.database nonces command nowUnixMs fault

def next : StoreRequest Key Nonce Content Formatted → Deployment Key Payload Content Formatted
  | .createClient => { deployment with clients := deployment.clients ++ [some {}] }
  | .createPersistentClient key =>
      match CoreClient.openPersistent codec deployment.database key with
      | .error _ => deployment
      | .ok client => { deployment with clients := deployment.clients ++ [some client] }
  | .executeCoreCommand client nonces command nowUnixMs fault =>
      match deployment.execute codec client nonces command nowUnixMs fault with
      | .error _ => deployment
      | .ok executed =>
          { database := executed.database
            clients := deployment.clients.set client (some executed.client)
            commits := deployment.commits ++
              (executed.client.persistence.map fun _ ↦ executed.events).toList }
  | .closeClient client => { deployment with clients := deployment.clients.set client none }

/-! ## What every request keeps -/

def coreAt (commits : List (List (TelegramCore.Event Content Formatted))) (revision : ℕ) :
    TelegramState Content Formatted :=
  stateAt TelegramState.apply {} commits revision

/-- The snapshot is the state after all commits, the log holds their events, and every copy
is the state at its revision. Only a copy of the empty state may have another key. -/
structure Faithful : Prop where
  empty : deployment.commits = [] → deployment.database.stateSnapshot = none ∧
    deployment.database.eventLog = []
  stored : deployment.commits ≠ [] → ∃ key,
    (∃ nonce updatedAtUnixMs, deployment.database.stateSnapshot = some
      { revision := deployment.commits.length
        payload := codec.encryptSnapshot key nonce deployment.commits.length
          (coreAt deployment.commits deployment.commits.length).serialize
        updatedAtUnixMs }) ∧
    Database.Holds codec key deployment.database.eventLog deployment.commits.flatten ∧
    ∀ client, some client ∈ deployment.clients → ∀ persistence,
      client.persistence = some persistence → persistence.revision ≠ 0 → persistence.key = key
  copies : ∀ client, some client ∈ deployment.clients → ∀ persistence,
    client.persistence = some persistence → persistence.revision ≤ deployment.commits.length ∧
      client.core = coreAt deployment.commits persistence.revision

section Steps

variable {codec deployment}

theorem keyed_coreAt (commits : List (List (TelegramCore.Event Content Formatted)))
    (revision : ℕ) :
    TelegramState.Keyed (coreAt commits revision).messages := by
  refine stateAt_induction TelegramState.apply {}
    (P := fun state ↦ TelegramState.Keyed state.messages) ?_ ?_ commits revision
  · exact TelegramState.consistent_empty.keyed
  · exact fun state event h ↦ h.apply event

theorem Faithful.revision (h : deployment.Faithful codec) :
    deployment.database.revision = deployment.commits.length := by
  by_cases hcommits : deployment.commits = []
  · rw [Database.revision, (h.empty hcommits).1, hcommits]
    rfl
  · obtain ⟨key, ⟨nonce, updated, hsnapshot⟩, -⟩ := h.stored hcommits
    rw [Database.revision, hsnapshot]
    rfl

theorem Faithful.clients (h : deployment.Faithful codec)
    {clients : List (Option (CoreClient Key Content Formatted))}
    (hclients : ∀ client, some client ∈ clients → some client ∈ deployment.clients ∨
      client.persistence = none) :
    { deployment with clients }.Faithful codec := by
  refine ⟨h.empty, fun hcommits ↦ ?_, fun client hclient persistence hpersistence ↦ ?_⟩
  · obtain ⟨key, hsnapshot, hholds, hkeys⟩ := h.stored hcommits
    refine ⟨key, hsnapshot, hholds, fun client hclient persistence hpersistence ↦ ?_⟩
    rcases hclients client hclient with hold | hnone
    · exact hkeys client hold persistence hpersistence
    · rw [hnone] at hpersistence
      cases hpersistence
  · rcases hclients client hclient with hold | hnone
    · exact h.copies client hold persistence hpersistence
    · rw [hnone] at hpersistence
      cases hpersistence

theorem Faithful.openPersistent_eq_ok (h : deployment.Faithful codec) (hcodec : codec.Sound)
    {key : Key} {client : CoreClient Key Content Formatted}
    (hopen : CoreClient.openPersistent codec deployment.database key = .ok client) :
    client = { core := coreAt deployment.commits deployment.commits.length
               persistence := some { key, revision := deployment.commits.length } } ∧
      ∀ key' nonce revision snapshot updatedAtUnixMs, deployment.database.stateSnapshot = some
        { revision, payload := codec.encryptSnapshot key' nonce revision snapshot
          updatedAtUnixMs } → key = key' := by
  by_cases hcommits : deployment.commits = []
  · obtain ⟨hnone, -⟩ := h.empty hcommits
    simp only [CoreClient.openPersistent, Database.loadSnapshot, hnone] at hopen
    refine ⟨?_, fun key' nonce revision snapshot updated hsome ↦ ?_⟩
    · rw [← Except.ok.inj hopen, hcommits]
      rfl
    · rw [hnone] at hsome
      cases hsome
  · obtain ⟨key', ⟨nonce, updated, hsnapshot⟩, -⟩ := h.stored hcommits
    have hsame : key = key' := by
      by_contra hne
      simp only [CoreClient.openPersistent, Database.loadSnapshot, hsnapshot,
        hcodec.otherKey key' key _ _ _ hne] at hopen
      cases hopen
    subst hsame
    have hload : deployment.database.loadSnapshot codec key = .ok (some
        { revision := deployment.commits.length
          state := coreAt deployment.commits deployment.commits.length
          updatedAtUnixMs := updated }) := by
      have hround := (keyed_coreAt deployment.commits
        deployment.commits.length).deserialize_serialize
      simp only [Database.loadSnapshot, hsnapshot, hcodec.snapshot, bind, Except.bind, pure,
        Except.pure, hround]
    simp only [CoreClient.openPersistent, hload] at hopen
    refine ⟨(Except.ok.inj hopen).symm, fun key' nonce' revision snapshot updated' hsome ↦ ?_⟩
    by_contra hne
    have hother := hcodec.otherKey key' key nonce' revision snapshot hne
    rw [Database.loadSnapshot, hsome] at hload
    simp only [hother] at hload
    cases hload

theorem Faithful.openPersistent (h : deployment.Faithful codec) (hcodec : codec.Sound) {key : Key}
    {client : CoreClient Key Content Formatted}
    (hopen : CoreClient.openPersistent codec deployment.database key = .ok client) :
    { deployment with clients := deployment.clients ++ [some client] }.Faithful codec := by
  obtain ⟨rfl, hkey⟩ := h.openPersistent_eq_ok hcodec hopen
  refine ⟨h.empty, fun hcommits ↦ ?_, fun client hclient persistence hpersistence ↦ ?_⟩
  · obtain ⟨key', ⟨nonce, updated, hsnapshot⟩, hholds, hkeys⟩ := h.stored hcommits
    refine ⟨key', ⟨nonce, updated, hsnapshot⟩, hholds,
      fun client hclient persistence hpersistence hne ↦ ?_⟩
    rcases List.mem_append.mp hclient with hold | hnew
    · exact hkeys client hold persistence hpersistence hne
    · obtain rfl := Option.some.inj (List.mem_singleton.mp hnew)
      obtain rfl := Option.some.inj hpersistence
      exact hkey key' nonce _ _ updated hsnapshot
  · rcases List.mem_append.mp hclient with hold | hnew
    · exact h.copies client hold persistence hpersistence
    · obtain rfl := Option.some.inj (List.mem_singleton.mp hnew)
      obtain rfl := Option.some.inj hpersistence
      exact ⟨Nat.le_refl _, rfl⟩

theorem Faithful.commit (h : deployment.Faithful codec) (hcodec : codec.Sound) {i : ℕ}
    {client : CoreClient Key Content Formatted} (hclient : some client ∈ deployment.clients)
    {persistence : PersistentClientStorage Key}
    (hpersistence : client.persistence = some persistence) {nonces : ℕ → Nonce}
    {events : List (TelegramCore.Event Content Formatted)} {nowUnixMs : Int64}
    {database : Database Payload} {transition : PersistedTransition Content Formatted}
    (hcommit : deployment.database.commitTransition codec persistence.key nonces
      (events.foldl TelegramState.apply client.core) events persistence.revision nowUnixMs =
        .ok (database, transition)) :
    Faithful codec
      { database
        clients := deployment.clients.set i (some
          { core := events.foldl TelegramState.apply client.core
            persistence := some { persistence with revision := transition.snapshot.revision } })
        commits := deployment.commits ++ [events] } := by
  obtain ⟨hrevision, hnext, ⟨nonce, hsnapshot⟩, rows, hlog, hrows⟩ :=
    Database.commitTransition_eq_ok hcodec hcommit
  rw [h.revision] at hrevision hnext hsnapshot
  obtain ⟨-, hcore⟩ := h.copies client hclient persistence hpersistence
  rw [← hrevision] at hcore
  have hcore' : events.foldl TelegramState.apply client.core =
      coreAt (deployment.commits ++ [events]) (deployment.commits.length + 1) := by
    rw [hcore]
    exact (stateAt_append_length ..).symm
  have hlength : (deployment.commits ++ [events]).length = deployment.commits.length + 1 := by
    simp
  -- a client that has seen a commit has the key of the log already
  have hkeys : deployment.commits ≠ [] →
      Database.Holds codec persistence.key deployment.database.eventLog
        deployment.commits.flatten ∧
      ∀ other, some other ∈ deployment.clients → ∀ p, other.persistence = some p →
        p.revision ≠ 0 → p.key = persistence.key := by
    intro hcommits
    obtain ⟨key, -, hholds, hkeys⟩ := h.stored hcommits
    have hne : persistence.revision ≠ 0 := by
      rw [← hrevision]
      exact fun hzero ↦ hcommits (List.length_eq_zero_iff.mp hzero)
    obtain rfl := hkeys client hclient persistence hpersistence hne
    exact ⟨hholds, hkeys⟩
  refine ⟨fun hcommits ↦ by simp at hcommits, fun _ ↦ ?_, fun other hother p hp ↦ ?_⟩
  · refine ⟨persistence.key, ⟨nonce, nowUnixMs, ?_⟩, ?_, fun other hother p hp hne ↦ ?_⟩
    · rw [hsnapshot, hlength, hcore']
    · dsimp only
      rw [hlog, List.flatten_append, List.flatten_singleton]
      refine List.rel_append ?_ hrows
      by_cases hcommits : deployment.commits = []
      · rw [(h.empty hcommits).2, hcommits]
        exact .nil
      · exact (hkeys hcommits).1
    · rcases List.mem_or_eq_of_mem_set hother with hold | hnew
      · by_cases hcommits : deployment.commits = []
        · have hle := (h.copies other hold p hp).1
          rw [hcommits] at hle
          exact absurd (Nat.le_zero.mp hle) hne
        · exact (hkeys hcommits).2 other hold p hp hne
      · obtain rfl := Option.some.inj hnew
        obtain rfl := Option.some.inj hp
        rfl
  · rw [hlength]
    rcases List.mem_or_eq_of_mem_set hother with hold | hnew
    · obtain ⟨hle, hcopy⟩ := h.copies other hold p hp
      refine ⟨hle.trans (Nat.le_succ _), hcopy.trans ?_⟩
      exact (stateAt_append_of_le TelegramState.apply {} hle events).symm
    · obtain rfl := Option.some.inj hnew
      obtain rfl := Option.some.inj hp
      dsimp only
      rw [hnext]
      exact ⟨Nat.le_refl _, hcore'⟩

theorem Faithful.execute (h : deployment.Faithful codec) (hcodec : codec.Sound) {i : ℕ}
    {nonces : ℕ → Nonce} {command : Command Content Formatted} {nowUnixMs : Int64}
    {fault : Option StorageError} {executed : Executed Key Payload Content Formatted}
    (hexecute : deployment.execute codec i nonces command nowUnixMs fault = .ok executed) :
    Faithful codec
      { database := executed.database
        clients := deployment.clients.set i (some executed.client)
        commits := deployment.commits ++
          (executed.client.persistence.map fun _ ↦ executed.events).toList } := by
  unfold Deployment.execute at hexecute
  split at hexecute
  · cases hexecute
  · rename_i client hfound
    have hclient : some client ∈ deployment.clients :=
      List.mem_of_getElem? (Option.join_eq_some_iff.mp hfound)
    unfold CoreClient.executeCoreCommand at hexecute
    split at hexecute
    · cases hexecute
    · rename_i events hdecide
      dsimp only at hexecute
      split at hexecute
      · rename_i hmemory
        obtain rfl := Except.ok.inj hexecute
        simp only [hmemory, Option.map_none, Option.toList_none, List.append_nil]
        apply h.clients
        intro other hother
        rcases List.mem_or_eq_of_mem_set hother with hold | hnew
        · exact .inl hold
        · obtain rfl := Option.some.inj hnew
          exact .inr rfl
      · cases hexecute
      · rename_i persistence hpersistence
        split at hexecute
        · cases hexecute
        · rename_i database transition hcommit
          obtain rfl := Except.ok.inj hexecute
          exact h.commit hcodec hclient hpersistence hcommit

theorem Faithful.next (h : deployment.Faithful codec) (hcodec : codec.Sound)
    (request : StoreRequest Key Nonce Content Formatted) :
    (deployment.next codec request).Faithful codec := by
  cases request with
  | createClient =>
      apply h.clients
      intro client hclient
      rcases List.mem_append.mp hclient with hold | hnew
      · exact .inl hold
      · obtain rfl := Option.some.inj (List.mem_singleton.mp hnew)
        exact .inr rfl
  | createPersistentClient key =>
      simp only [Deployment.next]
      split
      · exact h
      · rename_i client hopen
        exact h.openPersistent hcodec hopen
  | executeCoreCommand i nonces command nowUnixMs fault =>
      simp only [Deployment.next]
      split
      · exact h
      · rename_i executed hexecute
        exact h.execute hcodec hexecute
  | closeClient i =>
      apply h.clients
      intro client hclient
      rcases List.mem_or_eq_of_mem_set hclient with hold | hnew
      · exact .inl hold
      · cases hnew

theorem faithful_empty : ({} : Deployment Key Payload Content Formatted).Faithful codec := by
  refine ⟨fun _ ↦ ⟨rfl, rfl⟩, fun hcommits ↦ absurd rfl hcommits, fun client hclient ↦ ?_⟩
  cases hclient

theorem next_extends (hcodec : codec.Sound) (request : StoreRequest Key Nonce Content Formatted) :
    deployment.database.eventLog <+: (deployment.next codec request).database.eventLog ∧
      deployment.commits <+: (deployment.next codec request).commits := by
  cases request with
  | createClient => exact ⟨List.prefix_rfl, List.prefix_rfl⟩
  | createPersistentClient key =>
      simp only [Deployment.next]
      split <;> exact ⟨List.prefix_rfl, List.prefix_rfl⟩
  | closeClient i => exact ⟨List.prefix_rfl, List.prefix_rfl⟩
  | executeCoreCommand i nonces command nowUnixMs fault =>
      simp only [Deployment.next]
      split
      · exact ⟨List.prefix_rfl, List.prefix_rfl⟩
      · rename_i executed hexecute
        refine ⟨?_, List.prefix_append ..⟩
        unfold Deployment.execute CoreClient.executeCoreCommand at hexecute
        split at hexecute
        · cases hexecute
        · split at hexecute
          · cases hexecute
          · dsimp only at hexecute
            split at hexecute
            · rw [← Except.ok.inj hexecute]
            · cases hexecute
            · split at hexecute
              · cases hexecute
              · rename_i hcommit
                rw [← Except.ok.inj hexecute]
                obtain ⟨-, -, -, rows, hlog, -⟩ :=
                  Database.commitTransition_eq_ok hcodec hcommit
                exact ⟨rows, hlog.symm⟩

end Steps

inductive DemoPayload where
  | snapshot (key revision : ℕ) (snapshot : TelegramState.Snapshot String String)
  | event (key sequence : ℕ) (event : TelegramCore.Event String String)

def demoCodec : StorageCodec ℕ Unit DemoPayload String String where
  encryptSnapshot key _ revision snapshot := .snapshot key revision snapshot
  decryptSnapshot key revision
    | .snapshot key' revision' snapshot =>
        if key = key' ∧ revision = revision' then .ok snapshot else .error .decryptionFailed
    | .event .. => .error .decryptionFailed
  encryptEvent key _ sequence event := .event key sequence event
  decryptEvent key sequence
    | .event key' sequence' event =>
        if key = key' ∧ sequence = sequence' then .ok event else .error .decryptionFailed
    | .snapshot .. => .error .decryptionFailed

theorem demoCodec_sound : demoCodec.Sound := by
  refine ⟨fun key nonce revision snapshot ↦ ?_, fun key nonce sequence event ↦ ?_,
    fun key key' nonce revision snapshot hne ↦ ?_⟩
  · simp [demoCodec]
  · simp [demoCodec]
  · simp [demoCodec, hne]

def demoRequests : List (StoreRequest ℕ Unit String String) :=
  [.createPersistentClient 7, .createPersistentClient 7,
    .executeCoreCommand 0 (fun _ ↦ ()) TelegramState.demoChat 1 none,
    .executeCoreCommand 1 (fun _ ↦ ()) TelegramState.demoChat 2 none]

end Deployment

end Fabushi.TelegramRuntime
