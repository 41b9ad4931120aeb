import Fabushi.Messaging.Protocol

/-!
# The in-memory state store

`MemoryStateStore` keeps the last snapshot and a bounded journal of events. The
journal is read in groups of one cursor each, and pruned in whole groups.
-/

namespace Fabushi.Messaging

open Result

def eventJournalLimit : ℕ := 10000

def snapshotSchemaVersion : UInt32 := 1

def validateSnapshotSchema (actual : UInt32) : Except StoreError Unit :=
  ensure (actual = snapshotSchemaVersion) (.unsupportedSchema snapshotSchemaVersion actual)

def journalCursor (entry : JournalEntry) : Except StoreError UInt64 := do
  let cursor ← okOr entry.envelope.cursor .missingEventCursor
  okOr (Text.parseU64 cursor) .invalidCursor

/-! ## Reading the journal -/

/-- What the loop of `slice_journal` has selected so far. -/
structure Selection where
  selected : List JournalEntry := []
  selectedGroups : ℕ := 0
  lastSelectedCursor : Option UInt64 := none
  hasMore : Bool := false

def selectEntries (requestedCursor : UInt64) (limit : ℕ) :
    List JournalEntry → Selection → Except StoreError Selection
  | [], selection => .ok selection
  | entry :: entries, selection => do
      let cursor ← journalCursor entry
      if cursor ≤ requestedCursor then
        selectEntries requestedCursor limit entries selection
      else if selection.lastSelectedCursor ≠ some cursor then
        if limit ≤ selection.selectedGroups then return { selection with hasMore := true }
        else
          selectEntries requestedCursor limit entries
            { selection with
              selected := selection.selected ++ [entry]
              selectedGroups := selection.selectedGroups + 1
              lastSelectedCursor := some cursor }
      else
        selectEntries requestedCursor limit entries
          { selection with selected := selection.selected ++ [entry] }

def sliceJournal (entries : List JournalEntry) (floorCursor currentCursor requestedCursor : UInt64)
    (cursorGroupLimit : ℕ) : Except StoreError EventJournalSlice := do
  let selection ← selectEntries requestedCursor (max cursorGroupLimit 1) entries {}
  let checkpointCursor :=
    if selection.hasMore then selection.lastSelectedCursor.getD requestedCursor
    else if selection.selected.isEmpty ∧ requestedCursor < currentCursor then requestedCursor
    else currentCursor
  return { floorCursor, currentCursor, checkpointCursor, hasMore := selection.hasMore
           entries := selection.selected }

/-! ## The store -/

structure MemoryStateStore where
  snapshot : Option MessagingSnapshot := none
  journal : List JournalEntry := []
  journalFloorCursor : UInt64 := 0

namespace MemoryStateStore

def save (store : MemoryStateStore) (snapshot : MessagingSnapshot) :
    MemoryStateStore × Except StoreError Unit :=
  match validateSnapshotSchema snapshot.schemaVersion with
  | .error error => (store, .error error)
  | .ok () =>
      let journalFloorCursor :=
        if store.journal.isEmpty then max store.journalFloorCursor snapshot.cursor
        else store.journalFloorCursor
      ({ store with journalFloorCursor, snapshot := some snapshot }, .ok ())

def prune (store : MemoryStateStore) : MemoryStateStore × Except StoreError Unit :=
  if store.journal.length ≤ eventJournalLimit then (store, .ok ())
  else
    let excess := store.journal.length - eventJournalLimit
    match store.journal[excess - 1]?.map journalCursor with
    | none => (store, .ok ()) -- the position is within the journal
    | some (.error error) => (store, .error error)
    | some (.ok pruneCursor) =>
        let journal := store.journal.dropWhile fun entry ↦
          match journalCursor entry with
          | .ok cursor => cursor ≤ pruneCursor
          | .error _ => false
        ({ store with journal, journalFloorCursor := pruneCursor }, .ok ())

def saveWithEvents (store : MemoryStateStore) (snapshot : MessagingSnapshot)
    (events : List JournalEntry) : MemoryStateStore × Except StoreError Unit :=
  match (do validateSnapshotSchema snapshot.schemaVersion; events.forM fun event ↦
      discard (journalCursor event)) with
  | .error error => (store, .error error)
  | .ok () => prune { store with snapshot := some snapshot, journal := store.journal ++ events }

def loadEventJournalAfter (store : MemoryStateStore) (cursor : UInt64) (cursorGroupLimit : ℕ) :
    Except StoreError (Option EventJournalSlice) := do
  let currentCursor := (store.snapshot.map fun snapshot ↦ snapshot.cursor).getD 0
  let slice ← sliceJournal store.journal store.journalFloorCursor currentCursor cursor
    cursorGroupLimit
  return some slice

end MemoryStateStore

instance : MessagingStateStore MemoryStateStore where
  load store := .ok store.snapshot
  save := MemoryStateStore.save
  saveWithEvents := MemoryStateStore.saveWithEvents
  loadEventJournalAfter := MemoryStateStore.loadEventJournalAfter

end Fabushi.Messaging
