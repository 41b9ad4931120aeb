import Fabushi.Library.OrderedMap
import Fabushi.Library.Result
import Fabushi.Library.Text

/-!
# The queue of uploads and downloads

`telegram-media`: what a command on a transfer decides and what its event changes. The
network and the files are elsewhere; the queue keeps order, progress, concurrency and the
check of the hash.
-/

namespace Fabushi.TelegramMedia

open Std Result

structure TransferId where
  value : String
  deriving DecidableEq, Repr

instance : Ord TransferId := ⟨fun a b ↦ compare a.value b.value⟩

instance : TransOrd TransferId where
  eq_swap := OrientedOrd.eq_swap (α := String)
  isLE_trans := TransOrd.isLE_trans (α := String)

instance : LawfulEqOrd TransferId where
  compare_self := ReflOrd.compare_self (α := String)
  eq_of_compare {a b} h := by
    cases a
    cases b
    exact congrArg _ (LawfulEqOrd.eq_of_compare (α := String) h)

def TransferId.isValid (id : TransferId) : Bool :=
  !Text.isBlank id.value && Text.len id.value ≤ 128

structure MediaFileId where
  value : String
  deriving DecidableEq, Repr

inductive TransferDirection where
  | upload | download
  deriving DecidableEq, Repr

inductive TransferPriority where
  | background | normal | userInitiated | realtime
  deriving DecidableEq, Repr

/-- The position in the declaration, by which priorities are compared. -/
def TransferPriority.rank : TransferPriority → ℕ
  | .background => 0
  | .normal => 1
  | .userInitiated => 2
  | .realtime => 3

theorem TransferPriority.rank_injective : Function.Injective TransferPriority.rank := by
  intro a b h
  cases a <;> cases b <;> first | rfl | cases h

instance : LinearOrder TransferPriority :=
  LinearOrder.lift' TransferPriority.rank TransferPriority.rank_injective

inductive TransferState where
  | queued
  | running
  | paused
  | failed (code : String) (retryable : Bool)
  | completed (sha256 : Option String)
  | canceled
  deriving DecidableEq, Repr

def TransferState.occupiesSlot : TransferState → Bool
  | .running => true
  | _ => false

def TransferState.isTerminal : TransferState → Bool
  | .completed _ => true
  | .canceled => true
  | _ => false

def TransferState.isRetryable : TransferState → Bool
  | .failed _ retryable => retryable
  | _ => false

structure MediaTransfer where
  id : TransferId
  fileId : MediaFileId
  direction : TransferDirection
  priority : TransferPriority
  totalBytes : UInt64
  completedBytes : UInt64
  chunkSize : UInt32
  expectedSha256 : Option String
  state : TransferState
  enqueueOrder : UInt64
  attempt : UInt32
  deriving DecidableEq

structure ChunkPlan where
  offset : UInt64
  length : UInt32
  deriving DecidableEq

def MediaTransfer.nextChunk (transfer : MediaTransfer) : Option ChunkPlan :=
  if transfer.state.isTerminal ∨ transfer.totalBytes ≤ transfer.completedBytes then none
  else
    let remaining := transfer.totalBytes - transfer.completedBytes
    some { offset := transfer.completedBytes
           length := (min remaining transfer.chunkSize.toUInt64).toUInt32 }

inductive TransferCommand where
  | enqueue (id : TransferId) (fileId : MediaFileId) (direction : TransferDirection)
      (priority : TransferPriority) (totalBytes : UInt64) (chunkSize : UInt32)
      (expectedSha256 : Option String)
  | start (id : TransferId)
  | recordChunk (id : TransferId) (offset : UInt64) (bytesWritten : UInt32)
  | pause (id : TransferId)
  | resume (id : TransferId)
  | fail (id : TransferId) (code : String) (retryable : Bool)
  | retry (id : TransferId)
  | complete (id : TransferId) (actualSha256 : Option String)
  | cancel (id : TransferId)
  | setPriority (id : TransferId) (priority : TransferPriority)
  deriving DecidableEq

inductive TransferEvent where
  | enqueued (transfer : MediaTransfer)
  | started (id : TransferId)
  | chunkRecorded (id : TransferId) (completedBytes : UInt64)
  | paused (id : TransferId)
  | resumed (id : TransferId)
  | failed (id : TransferId) (code : String) (retryable : Bool)
  | retried (id : TransferId) (attempt : UInt32)
  | completed (id : TransferId) (sha256 : Option String)
  | canceled (id : TransferId)
  | priorityChanged (id : TransferId) (priority : TransferPriority)
  deriving DecidableEq

inductive TransferError where
  | invalidTransferId
  | duplicateTransfer (id : TransferId)
  | transferNotFound (id : TransferId)
  | invalidSize
  | invalidSha256
  | noAvailableSlot
  | invalidTransition (state : TransferState) (command : String)
  | unexpectedChunkOffset (expected actual : UInt64)
  | invalidChunkLength
  | incompleteTransfer (completed total : UInt64)
  | integrityMismatch (expected actual : String)
  | attemptCounterExhausted
  deriving DecidableEq

def checkedAddU64 (a b : UInt64) : Option UInt64 :=
  if a.toNat + b.toNat < 2 ^ 64 then some (a + b) else none

def checkedSuccU32 (a : UInt32) : Option UInt32 :=
  if a.toNat + 1 < 2 ^ 32 then some (a + 1) else none

def saturatingSuccU64 (a : UInt64) : UInt64 :=
  if a.toNat + 1 < 2 ^ 64 then a + 1 else a

def isHexDigit (c : Char) : Bool :=
  c.isDigit || ('a' ≤ c && c ≤ 'f') || ('A' ≤ c && c ≤ 'F')

def normalizeSha256 (value : String) : Except TransferError String :=
  let value := (Text.trim value).toLower
  if Text.len value ≠ 64 ∨ value.toList.all isHexDigit = false then .error .invalidSha256
  else .ok value

structure TransferQueue where
  transfers : BTreeMap TransferId MediaTransfer
  maxConcurrent : ℕ
  nextEnqueueOrder : UInt64

namespace TransferQueue

def new (maxConcurrent : ℕ) : TransferQueue where
  transfers := ∅
  maxConcurrent := max maxConcurrent 1
  nextEnqueueOrder := 0

variable (queue : TransferQueue)

def runningCount : ℕ :=
  queue.transfers.values.countP fun transfer ↦ transfer.state.occupiesSlot

def nextReady : Option MediaTransfer :=
  if queue.maxConcurrent ≤ queue.runningCount then none
  else
    (queue.transfers.values.filter fun transfer ↦ transfer.state = .queued).reverse.argmax
      fun transfer ↦ toLex (transfer.priority, OrderDual.toDual transfer.enqueueOrder.toNat)

def require (id : TransferId) : Except TransferError MediaTransfer :=
  okOr queue.transfers[id]? (.transferNotFound id)

def matchSha256 (expected actual : Option String) : Except TransferError Unit :=
  match expected, actual with
  | none, _ => .ok ()
  | some expected, none => .error (.integrityMismatch expected "missing")
  | some expected, some actual =>
      ensure (actual = expected) (.integrityMismatch expected actual)

def decideEvent : TransferCommand → Except TransferError TransferEvent
  | .enqueue id fileId direction priority totalBytes chunkSize expectedSha256 => do
      ensure (id.isValid = true) .invalidTransferId
      ensure (queue.transfers[id]? = none) (.duplicateTransfer id)
      ensure (totalBytes ≠ 0 ∧ chunkSize ≠ 0) .invalidSize
      let expectedSha256 ← expectedSha256.mapM normalizeSha256
      return .enqueued
        { id, fileId, direction, priority, totalBytes, completedBytes := 0, chunkSize,
          expectedSha256, state := .queued, enqueueOrder := queue.nextEnqueueOrder, attempt := 0 }
  | .start id => do
      let transfer ← queue.require id
      ensure (transfer.state = .queued) (.invalidTransition transfer.state "start")
      ensure (queue.runningCount < queue.maxConcurrent) .noAvailableSlot
      return .started id
  | .recordChunk id offset bytesWritten => do
      let transfer ← queue.require id
      ensure (transfer.state = .running) (.invalidTransition transfer.state "recordChunk")
      ensure (offset = transfer.completedBytes)
        (.unexpectedChunkOffset transfer.completedBytes offset)
      let next ← okOr ((checkedAddU64 transfer.completedBytes bytesWritten.toUInt64).filter
        fun next ↦ 0 < bytesWritten ∧ next ≤ transfer.totalBytes) .invalidChunkLength
      return .chunkRecorded id next
  | .pause id => do
      let transfer ← queue.require id
      ensure (transfer.state = .running) (.invalidTransition transfer.state "pause")
      return .paused id
  | .resume id => do
      let transfer ← queue.require id
      ensure (transfer.state = .paused) (.invalidTransition transfer.state "resume")
      ensure (queue.runningCount < queue.maxConcurrent) .noAvailableSlot
      return .resumed id
  | .fail id code retryable => do
      let transfer ← queue.require id
      ensure (transfer.state = .running) (.invalidTransition transfer.state "fail")
      return .failed id code retryable
  | .retry id => do
      let transfer ← queue.require id
      ensure (transfer.state.isRetryable = true) (.invalidTransition transfer.state "retry")
      let attempt ← okOr (checkedSuccU32 transfer.attempt) .attemptCounterExhausted
      return .retried id attempt
  | .complete id actualSha256 => do
      let transfer ← queue.require id
      ensure (transfer.state = .running) (.invalidTransition transfer.state "complete")
      ensure (transfer.completedBytes = transfer.totalBytes)
        (.incompleteTransfer transfer.completedBytes transfer.totalBytes)
      let actualSha256 ← actualSha256.mapM normalizeSha256
      matchSha256 transfer.expectedSha256 actualSha256
      return .completed id actualSha256
  | .cancel id => do
      let transfer ← queue.require id
      ensure (transfer.state.isTerminal = false) (.invalidTransition transfer.state "cancel")
      return .canceled id
  | .setPriority id priority => do
      let transfer ← queue.require id
      ensure (transfer.state.isTerminal = false)
        (.invalidTransition transfer.state "setPriority")
      return .priorityChanged id priority

def decide (command : TransferCommand) : Except TransferError (List TransferEvent) := do
  let event ← queue.decideEvent command
  return [event]

def modify (id : TransferId) (f : MediaTransfer → MediaTransfer) : TransferQueue :=
  { queue with transfers := BTreeMap.update queue.transfers id f }

def apply : TransferEvent → TransferQueue
  | .enqueued transfer =>
      { queue with
        nextEnqueueOrder := max queue.nextEnqueueOrder (saturatingSuccU64 transfer.enqueueOrder)
        transfers := queue.transfers.insert transfer.id transfer }
  | .started id => queue.modify id fun transfer ↦ { transfer with state := .running }
  | .resumed id => queue.modify id fun transfer ↦ { transfer with state := .running }
  | .chunkRecorded id completedBytes =>
      queue.modify id fun transfer ↦ { transfer with completedBytes }
  | .paused id => queue.modify id fun transfer ↦ { transfer with state := .paused }
  | .failed id code retryable =>
      queue.modify id fun transfer ↦ { transfer with state := .failed code retryable }
  | .retried id attempt =>
      queue.modify id fun transfer ↦ { transfer with attempt, state := .queued }
  | .completed id sha256 =>
      queue.modify id fun transfer ↦ { transfer with state := .completed sha256 }
  | .canceled id => queue.modify id fun transfer ↦ { transfer with state := .canceled }
  | .priorityChanged id priority =>
      queue.modify id fun transfer ↦ { transfer with priority }

def execute (command : TransferCommand) :
    Except TransferError (List TransferEvent) × TransferQueue :=
  match queue.decide command with
  | .error e => (.error e, queue)
  | .ok events => (.ok events, events.foldl apply queue)

end TransferQueue

end Fabushi.TelegramMedia
