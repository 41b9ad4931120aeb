import Fabushi.TelegramCore.PendingRequests

/-!
# The encrypted store

`sqlite.rs`: one row holds the snapshot and its revision, a table the events in the order
of their sequence numbers. A transition is committed in one transaction that compares the
revision first. JSON and encryption are a parameter.
-/

namespace Fabushi.TelegramStorage

open Result TelegramCore

inductive StorageError where
  | decryptionFailed
  | revisionConflict (expected current : ℕ)
  | integerOutOfRange
  | sqlite (message : String)
  | serialization (message : String)
  deriving DecidableEq, Repr

/-- `serde_json` and the cipher, whose associated data is the revision of a snapshot or the
sequence number of an event. -/
structure StorageCodec (Key Nonce Payload Content Formatted : Type) where
  encryptSnapshot : Key → Nonce → ℕ → TelegramState.Snapshot Content Formatted → Payload
  decryptSnapshot : Key → ℕ → Payload →
    Except StorageError (TelegramState.Snapshot Content Formatted)
  encryptEvent : Key → Nonce → ℕ → Event Content Formatted → Payload
  decryptEvent : Key → ℕ → Payload → Except StorageError (Event Content Formatted)

variable {Key Nonce Payload Content Formatted : Type}

structure StorageCodec.Sound (codec : StorageCodec Key Nonce Payload Content Formatted) :
    Prop where
  snapshot : ∀ key nonce revision snapshot, codec.decryptSnapshot key revision
    (codec.encryptSnapshot key nonce revision snapshot) = .ok snapshot
  event : ∀ key nonce sequence event, codec.decryptEvent key sequence
    (codec.encryptEvent key nonce sequence event) = .ok event
  otherKey : ∀ key key' nonce revision snapshot, key' ≠ key →
    codec.decryptSnapshot key' revision (codec.encryptSnapshot key nonce revision snapshot) =
      .error .decryptionFailed

/-! ## The tables -/

structure SnapshotRow (Payload : Type) where
  revision : ℕ
  payload : Payload
  updatedAtUnixMs : Int64

structure EventRow (Payload : Type) where
  sequence : ℕ
  payload : Payload
  createdAtUnixMs : Int64

/-- `AUTOINCREMENT` does not use a sequence number again. -/
structure Database (Payload : Type) where
  stateSnapshot : Option (SnapshotRow Payload) := none
  eventLog : List (EventRow Payload) := []
  lastSequence : ℕ := 0

structure StateSnapshot (Content Formatted : Type) where
  revision : ℕ
  state : TelegramState Content Formatted
  updatedAtUnixMs : Int64

structure StoredEvent (Content Formatted : Type) where
  sequence : ℕ
  event : Event Content Formatted
  createdAtUnixMs : Int64

structure PersistedTransition (Content Formatted : Type) where
  snapshot : StateSnapshot Content Formatted
  events : List (StoredEvent Content Formatted)

def toI64 (value : ℕ) : Except StorageError ℕ := do
  ensure (value < 2 ^ 63) .integerOutOfRange
  pure value

namespace Database

variable (codec : StorageCodec Key Nonce Payload Content Formatted) (key : Key)

def revision (db : Database Payload) : ℕ :=
  (db.stateSnapshot.map SnapshotRow.revision).getD 0

def loadSnapshot (db : Database Payload) :
    Except StorageError (Option (StateSnapshot Content Formatted)) :=
  match db.stateSnapshot with
  | none => .ok none
  | some row => do
      let snapshot ← codec.decryptSnapshot key row.revision row.payload
      pure (some { revision := row.revision, state := TelegramState.deserialize snapshot,
                   updatedAtUnixMs := row.updatedAtUnixMs })

def loadEvent (row : EventRow Payload) : Except StorageError (StoredEvent Content Formatted) := do
  let event ← codec.decryptEvent key row.sequence row.payload
  pure { sequence := row.sequence, event, createdAtUnixMs := row.createdAtUnixMs }

def loadEventsAfter (db : Database Payload) (sequence : ℕ) :
    Except StorageError (List (StoredEvent Content Formatted)) :=
  (db.eventLog.filter fun row ↦ sequence < row.sequence).mapM (loadEvent codec key)

def insertEvents (nonces : ℕ → Nonce) (createdAtUnixMs : Int64) :
    Database Payload → List (Event Content Formatted) →
      Except StorageError (Database Payload × List (StoredEvent Content Formatted))
  | db, [] => .ok (db, [])
  | db, event :: events => do
      let sequence := db.lastSequence + 1
      ensure (sequence < 2 ^ 63) (.sqlite "database or disk is full")
      let payload := codec.encryptEvent key (nonces sequence) sequence event
      let db := { db with
        eventLog := db.eventLog ++ [{ sequence, payload, createdAtUnixMs }]
        lastSequence := sequence }
      let (db, stored) ← insertEvents nonces createdAtUnixMs db events
      pure (db, { sequence, event, createdAtUnixMs } :: stored)

def commitTransition (nonces : ℕ → Nonce) (db : Database Payload)
    (state : TelegramState Content Formatted) (events : List (Event Content Formatted))
    (expectedRevision : ℕ) (createdAtUnixMs : Int64) :
    Except StorageError (Database Payload × PersistedTransition Content Formatted) := do
  let current := db.revision
  ensure (current = expectedRevision) (.revisionConflict expectedRevision current)
  let (db, stored) ← insertEvents codec key nonces createdAtUnixMs db events
  let revision := current + 1
  let payload := codec.encryptSnapshot key (nonces 0) revision state.serialize
  let storedRevision ← toI64 revision
  let row := { revision := storedRevision, payload, updatedAtUnixMs := createdAtUnixMs }
  pure ({ db with stateSnapshot := some row },
    { snapshot := { revision, state, updatedAtUnixMs := createdAtUnixMs }, events := stored })

/-! ## What is read back -/

def Holds (rows : List (EventRow Payload)) (events : List (Event Content Formatted)) : Prop :=
  List.Forall₂ (fun row event ↦ 0 < row.sequence ∧
    codec.decryptEvent key row.sequence row.payload = .ok event) rows events

variable {codec key}

theorem insertEvents_eq_ok (hcodec : codec.Sound) {nonces : ℕ → Nonce} {createdAtUnixMs : Int64}
    {db db' : Database Payload} {events : List (Event Content Formatted)}
    {stored : List (StoredEvent Content Formatted)}
    (h : insertEvents codec key nonces createdAtUnixMs db events = .ok (db', stored)) :
    db'.stateSnapshot = db.stateSnapshot ∧ ∃ rows, db'.eventLog = db.eventLog ++ rows ∧
      Holds codec key rows events := by
  induction events generalizing db stored with
  | nil =>
      obtain ⟨rfl, -⟩ := Prod.mk.inj (Except.ok.inj h)
      exact ⟨rfl, [], (List.append_nil _).symm, .nil⟩
  | cons event events ih =>
      simp only [insertEvents, bind_eq_ok] at h
      obtain ⟨-, -, ⟨db₁, stored₁⟩, hrest, hpure⟩ := h
      obtain ⟨rfl, -⟩ := Prod.mk.inj (Except.ok.inj hpure)
      obtain ⟨hsnapshot, rows, hlog, hholds⟩ := ih hrest
      refine ⟨hsnapshot, _ :: rows, hlog.trans (List.append_assoc ..), .cons ⟨?_, ?_⟩ hholds⟩
      · exact Nat.succ_pos _
      · exact hcodec.event ..

theorem commitTransition_eq_ok (hcodec : codec.Sound) {nonces : ℕ → Nonce}
    {db db' : Database Payload} {state : TelegramState Content Formatted}
    {events : List (Event Content Formatted)} {expectedRevision : ℕ} {createdAtUnixMs : Int64}
    {transition : PersistedTransition Content Formatted}
    (h : commitTransition codec key nonces db state events expectedRevision createdAtUnixMs =
      .ok (db', transition)) :
    db.revision = expectedRevision ∧ transition.snapshot.revision = db.revision + 1 ∧
      (∃ nonce, db'.stateSnapshot = some
        { revision := db.revision + 1
          payload := codec.encryptSnapshot key nonce (db.revision + 1) state.serialize
          updatedAtUnixMs := createdAtUnixMs }) ∧
      ∃ rows, db'.eventLog = db.eventLog ++ rows ∧ Holds codec key rows events := by
  simp only [commitTransition, bind_eq_ok, ensure_eq_ok, toI64] at h
  obtain ⟨-, hrevision, ⟨db₁, stored⟩, hinsert, revision, ⟨-, -, hbound⟩, hpure⟩ := h
  obtain ⟨rfl, rfl⟩ := Prod.mk.inj (Except.ok.inj hpure)
  obtain rfl := Except.ok.inj hbound
  obtain ⟨-, rows, hlog, hholds⟩ := insertEvents_eq_ok hcodec hinsert
  exact ⟨hrevision, rfl, ⟨nonces 0, rfl⟩, rows, hlog, hholds⟩

theorem Holds.sequence_pos {rows : List (EventRow Payload)}
    {events : List (Event Content Formatted)} (h : Holds codec key rows events) :
    ∀ row ∈ rows, 0 < row.sequence := by
  induction h with
  | nil => simp
  | cons hrow _ ih =>
      intro row hmem
      rcases List.mem_cons.mp hmem with rfl | hmem
      · exact hrow.1
      · exact ih row hmem

theorem Holds.mapM_loadEvent {rows : List (EventRow Payload)}
    {events : List (Event Content Formatted)} (h : Holds codec key rows events) :
    ∃ stored, rows.mapM (loadEvent codec key) = .ok stored ∧
      stored.map StoredEvent.event = events := by
  induction h with
  | nil => exact ⟨[], rfl, rfl⟩
  | @cons row event rows events hrow _ ih =>
      obtain ⟨stored, hstored, hmap⟩ := ih
      have hload : loadEvent codec key row = .ok
          { sequence := row.sequence, event, createdAtUnixMs := row.createdAtUnixMs } := by
        rw [loadEvent, hrow.2]
        rfl
      refine ⟨{ sequence := row.sequence, event, createdAtUnixMs := row.createdAtUnixMs } :: stored,
        ?_, congrArg (event :: ·) hmap⟩
      rw [List.mapM_cons, hload, hstored]
      rfl

theorem Holds.loadEventsAfter {db : Database Payload} {events : List (Event Content Formatted)}
    (h : Holds codec key db.eventLog events) :
    ∃ stored, db.loadEventsAfter codec key 0 = .ok stored ∧
      stored.map StoredEvent.event = events := by
  have hall : db.eventLog.filter (fun row ↦ 0 < row.sequence) = db.eventLog := by
    rw [List.filter_eq_self]
    exact fun row hrow ↦ decide_eq_true (h.sequence_pos row hrow)
  rw [Database.loadEventsAfter, hall]
  exact h.mapM_loadEvent

end Database

end Fabushi.TelegramStorage
