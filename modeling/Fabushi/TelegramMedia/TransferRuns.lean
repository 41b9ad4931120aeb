import Fabushi.Library.Runs
import Fabushi.Library.Tiling
import Fabushi.TelegramMedia.TransferQueue

/-!
# Runs of the transfer queue

An accepted command enqueues a new transfer or moves one transfer from a state to another.
From the moves of one transfer follow the bounds on all of them: how many run, what the
recorded chunks cover, when a transfer is completed and which one comes next.
-/

namespace Fabushi.TelegramMedia

open Std Result Tiling

/-! ## The life of one transfer -/

inductive Moves (free : Prop) (id : TransferId) :
    TransferCommand → MediaTransfer → MediaTransfer → Prop where
  | start {transfer : MediaTransfer} (hstate : transfer.state = .queued) (hfree : free) :
      Moves free id (.start id) transfer { transfer with state := .running }
  | recordChunk {transfer : MediaTransfer} {bytesWritten : UInt32} {next : UInt64}
      (hstate : transfer.state = .running)
      (hnext : next.toNat = transfer.completedBytes.toNat + bytesWritten.toNat)
      (hpositive : 0 < bytesWritten) (htotal : next ≤ transfer.totalBytes) :
      Moves free id (.recordChunk id transfer.completedBytes bytesWritten) transfer
        { transfer with completedBytes := next }
  | pause {transfer : MediaTransfer} (hstate : transfer.state = .running) :
      Moves free id (.pause id) transfer { transfer with state := .paused }
  | resume {transfer : MediaTransfer} (hstate : transfer.state = .paused) (hfree : free) :
      Moves free id (.resume id) transfer { transfer with state := .running }
  | fail {transfer : MediaTransfer} {code : String} {retryable : Bool}
      (hstate : transfer.state = .running) :
      Moves free id (.fail id code retryable) transfer
        { transfer with state := .failed code retryable }
  | retry {transfer : MediaTransfer} {attempt : UInt32}
      (hstate : transfer.state.isRetryable = true)
      (hattempt : checkedSuccU32 transfer.attempt = some attempt) :
      Moves free id (.retry id) transfer { transfer with attempt, state := .queued }
  | complete {transfer : MediaTransfer} {actualSha256 sha256 : Option String}
      (hstate : transfer.state = .running)
      (hall : transfer.completedBytes = transfer.totalBytes)
      (hsha256 : actualSha256.mapM normalizeSha256 = .ok sha256)
      (hexpected : ∀ expected, transfer.expectedSha256 = some expected → sha256 = some expected) :
      Moves free id (.complete id actualSha256) transfer
        { transfer with state := .completed sha256 }
  | cancel {transfer : MediaTransfer} (hstate : transfer.state.isTerminal = false) :
      Moves free id (.cancel id) transfer { transfer with state := .canceled }
  | setPriority {transfer : MediaTransfer} {priority : TransferPriority}
      (hstate : transfer.state.isTerminal = false) :
      Moves free id (.setPriority id priority) transfer { transfer with priority }

namespace Moves

variable {free : Prop} {id : TransferId} {command : TransferCommand} {old new : MediaTransfer}

theorem not_terminal (h : Moves free id command old new) : old.state.isTerminal = false := by
  cases h with
  | start hstate | recordChunk hstate | pause hstate | resume hstate | fail hstate
  | complete hstate => rw [hstate]; rfl
  | cancel hstate | setPriority hstate => exact hstate
  | retry hstate =>
      cases hold : old.state with
      | queued | running | paused | failed => rfl
      | completed | canceled => rw [hold] at hstate; cases hstate

theorem frame (h : Moves free id command old new) :
    new.id = old.id ∧ new.totalBytes = old.totalBytes ∧ new.enqueueOrder = old.enqueueOrder := by
  cases h <;> exact ⟨rfl, rfl, rfl⟩

theorem occupiesSlot (h : Moves free id command old new)
    (hnew : new.state.occupiesSlot = true) : old.state.occupiesSlot = true ∨ free := by
  cases h with
  | start _ hfree | resume _ hfree => exact .inr hfree
  | recordChunk | setPriority => exact .inl hnew
  | pause | fail | retry | complete | cancel => cases hnew

end Moves

namespace TransferQueue

variable {queue : TransferQueue} {id : TransferId} {command : TransferCommand}

theorem matchSha256_eq_ok {expected actual : Option String}
    (h : matchSha256 expected actual = .ok ()) :
    ∀ sha256, expected = some sha256 → actual = some sha256 := by
  rintro sha256 rfl
  cases actual with
  | none => cases h
  | some actual => rw [ensure_eq_ok.mp h]

theorem checkedAddU64_eq_some {a b c : UInt64} (h : checkedAddU64 a b = some c) :
    c.toNat = a.toNat + b.toNat := by
  unfold checkedAddU64 at h
  split at h
  · rename_i hlt
    rw [← Option.some.inj h, UInt64.toNat_add, Nat.mod_eq_of_lt hlt]
  · cases h

theorem toNat_max (a b : UInt64) : (max a b).toNat = max a.toNat b.toNat := by
  change (if a ≤ b then b else a).toNat = max a.toNat b.toNat
  by_cases hle : a ≤ b
  · rw [if_pos hle, max_eq_right (UInt64.le_iff_toNat_le.mp hle)]
  · rw [if_neg hle, max_eq_left (Nat.le_of_not_le (mt UInt64.le_iff_toNat_le.mpr hle))]

theorem modify_of_get {old : MediaTransfer} (hold : queue.transfers[id]? = some old)
    (f : MediaTransfer → MediaTransfer) :
    queue.modify id f = { queue with transfers := queue.transfers.insert id (f old) } := by
  simp only [modify, BTreeMap.update, hold]

def Free (queue : TransferQueue) : Prop := queue.runningCount < queue.maxConcurrent

theorem decide_eq_ok {events : List TransferEvent} (h : queue.decide command = .ok events) :
    (∃ transfer, queue.transfers[transfer.id]? = none ∧
      transfer.state = .queued ∧ transfer.completedBytes = 0 ∧
      transfer.enqueueOrder = queue.nextEnqueueOrder ∧
      (∀ id offset bytesWritten, command ≠ .recordChunk id offset bytesWritten) ∧
      events.foldl apply queue = queue.apply (.enqueued transfer)) ∨
    ∃ id old new, queue.transfers[id]? = some old ∧ Moves queue.Free id command old new ∧
      events.foldl apply queue = { queue with transfers := queue.transfers.insert id new } := by
  obtain ⟨event, hevent, hevents⟩ := bind_eq_ok.mp h
  obtain rfl := Except.ok.inj hevents
  simp only [List.foldl_cons, List.foldl_nil]
  cases command with
  | enqueue id fileId direction priority totalBytes chunkSize expectedSha256 =>
      simp only [decideEvent, bind_eq_ok, ensure_eq_ok] at hevent
      obtain ⟨-, -, -, hfresh, -, -, expected, -, hevent⟩ := hevent
      obtain rfl := Except.ok.inj hevent
      exact .inl ⟨_, hfresh, rfl, rfl, rfl, by simp, rfl⟩
  | start id =>
      simp only [decideEvent, require, bind_eq_ok, ensure_eq_ok, okOr_eq_ok] at hevent
      obtain ⟨old, hold, -, hstate, -, hfree, hevent⟩ := hevent
      obtain rfl := Except.ok.inj hevent
      exact .inr ⟨id, old, _, hold, .start hstate hfree, modify_of_get hold _⟩
  | recordChunk id offset bytesWritten =>
      simp only [decideEvent, require, bind_eq_ok, ensure_eq_ok, okOr_eq_ok] at hevent
      obtain ⟨old, hold, -, hstate, -, rfl, next, hnext, hevent⟩ := hevent
      obtain rfl := Except.ok.inj hevent
      obtain ⟨hadd, hbounds⟩ := Option.filter_eq_some_iff.mp hnext
      obtain ⟨hpositive, htotal⟩ := of_decide_eq_true hbounds
      have hsum := checkedAddU64_eq_some hadd
      rw [UInt32.toNat_toUInt64] at hsum
      exact .inr ⟨id, old, _, hold, .recordChunk hstate hsum hpositive htotal,
        modify_of_get hold _⟩
  | pause id =>
      simp only [decideEvent, require, bind_eq_ok, ensure_eq_ok, okOr_eq_ok] at hevent
      obtain ⟨old, hold, -, hstate, hevent⟩ := hevent
      obtain rfl := Except.ok.inj hevent
      exact .inr ⟨id, old, _, hold, .pause hstate, modify_of_get hold _⟩
  | resume id =>
      simp only [decideEvent, require, bind_eq_ok, ensure_eq_ok, okOr_eq_ok] at hevent
      obtain ⟨old, hold, -, hstate, -, hfree, hevent⟩ := hevent
      obtain rfl := Except.ok.inj hevent
      exact .inr ⟨id, old, _, hold, .resume hstate hfree, modify_of_get hold _⟩
  | fail id code retryable =>
      simp only [decideEvent, require, bind_eq_ok, ensure_eq_ok, okOr_eq_ok] at hevent
      obtain ⟨old, hold, -, hstate, hevent⟩ := hevent
      obtain rfl := Except.ok.inj hevent
      exact .inr ⟨id, old, _, hold, .fail hstate, modify_of_get hold _⟩
  | retry id =>
      simp only [decideEvent, require, bind_eq_ok, ensure_eq_ok, okOr_eq_ok] at hevent
      obtain ⟨old, hold, -, hstate, attempt, hattempt, hevent⟩ := hevent
      obtain rfl := Except.ok.inj hevent
      exact .inr ⟨id, old, _, hold, .retry hstate hattempt, modify_of_get hold _⟩
  | complete id actualSha256 =>
      simp only [decideEvent, require, bind_eq_ok, ensure_eq_ok, okOr_eq_ok] at hevent
      obtain ⟨old, hold, -, hstate, -, hall, sha256, hsha256, _, hmatch, hevent⟩ := hevent
      obtain rfl := Except.ok.inj hevent
      exact .inr ⟨id, old, _, hold, .complete hstate hall hsha256 (matchSha256_eq_ok hmatch),
        modify_of_get hold _⟩
  | cancel id =>
      simp only [decideEvent, require, bind_eq_ok, ensure_eq_ok, okOr_eq_ok] at hevent
      obtain ⟨old, hold, -, hstate, hevent⟩ := hevent
      obtain rfl := Except.ok.inj hevent
      exact .inr ⟨id, old, _, hold, .cancel hstate, modify_of_get hold _⟩
  | setPriority id priority =>
      simp only [decideEvent, require, bind_eq_ok, ensure_eq_ok, okOr_eq_ok] at hevent
      obtain ⟨old, hold, -, hstate, hevent⟩ := hevent
      obtain rfl := Except.ok.inj hevent
      exact .inr ⟨id, old, _, hold, .setPriority hstate, modify_of_get hold _⟩

/-! ## How many transfers run -/

theorem runningCount_eq_sum (queue : TransferQueue) : queue.runningCount =
    BTreeMap.sum queue.transfers fun _ transfer ↦ transfer.state.occupiesSlot.toNat := by
  rw [runningCount, BTreeMap.values_eq, BTreeMap.sum]
  generalize queue.transfers.toList = entries
  induction entries with
  | nil => rfl
  | cons entry entries ih =>
      rw [List.map_cons, List.countP_cons, ih, List.map_cons, List.sum_cons, Nat.add_comm]
      congr 1
      cases entry.2.state.occupiesSlot <;> rfl

theorem runningCount_insert_of_none {transfer : MediaTransfer} {order : UInt64}
    (hfresh : queue.transfers[id]? = none) (hstate : transfer.state = .queued) :
    { queue with
      transfers := queue.transfers.insert id transfer
      nextEnqueueOrder := order }.runningCount = queue.runningCount := by
  rw [runningCount_eq_sum, runningCount_eq_sum, BTreeMap.sum_insert_of_none hfresh, hstate]
  exact Nat.zero_add _

theorem runningCount_insert_of_some {old new : MediaTransfer}
    (hold : queue.transfers[id]? = some old) :
    { queue with transfers := queue.transfers.insert id new }.runningCount +
        old.state.occupiesSlot.toNat =
      queue.runningCount + new.state.occupiesSlot.toNat := by
  rw [runningCount_eq_sum, runningCount_eq_sum]
  exact BTreeMap.sum_insert_of_some hold new _

theorem runningCount_move {old new : MediaTransfer} (hold : queue.transfers[id]? = some old)
    (hmove : Moves queue.Free id command old new)
    (hrunning : queue.runningCount ≤ queue.maxConcurrent) :
    { queue with transfers := queue.transfers.insert id new }.runningCount ≤
      queue.maxConcurrent := by
  have hcount : { queue with transfers := queue.transfers.insert id new }.runningCount +
      old.state.occupiesSlot.toNat = queue.runningCount + new.state.occupiesSlot.toNat :=
    runningCount_insert_of_some hold
  cases hnew : new.state.occupiesSlot with
  | false =>
      rw [hnew, Bool.toNat_false] at hcount
      omega
  | true =>
      rcases hmove.occupiesSlot hnew with hocc | hfree
      · rw [hnew, hocc] at hcount
        omega
      · unfold Free at hfree
        rw [hnew, Bool.toNat_true] at hcount
        omega

end TransferQueue

/-! ## What is recorded of a transfer -/

def TransferCommand.chunk? (id : TransferId) : TransferCommand → Option (ℕ × ℕ)
  | .recordChunk other offset bytesWritten =>
      if other = id then some (offset.toNat, bytesWritten.toNat) else none
  | _ => none

def chunks (accepted : List TransferCommand) (id : TransferId) : List (ℕ × ℕ) :=
  accepted.filterMap (TransferCommand.chunk? id)

/-- The hash of a completed transfer was reported with all bytes recorded, and it is the
expected one. -/
def Matched (accepted : List TransferCommand) (transfer : MediaTransfer)
    (sha256 : Option String) : Prop :=
  transfer.completedBytes = transfer.totalBytes ∧
    (∃ actualSha256, .complete transfer.id actualSha256 ∈ accepted ∧
      actualSha256.mapM normalizeSha256 = .ok sha256) ∧
    ∀ expected, transfer.expectedSha256 = some expected → sha256 = some expected

structure Recorded (accepted : List TransferCommand) (id : TransferId)
    (transfer : MediaTransfer) : Prop where
  keyed : transfer.id = id
  tiles : Tiles 0 (chunks accepted id) transfer.completedBytes.toNat
  bounded : transfer.completedBytes ≤ transfer.totalBytes
  matched : ∀ sha256, transfer.state = .completed sha256 → Matched accepted transfer sha256

section Recorded

variable {accepted : List TransferCommand} {id : TransferId} {command : TransferCommand}
  {transfer : MediaTransfer}

theorem chunks_append_of_none (hchunk : command.chunk? id = none) :
    chunks (accepted ++ [command]) id = chunks accepted id := by
  rw [chunks, List.filterMap_append, List.filterMap_cons_none hchunk, List.filterMap_nil,
    List.append_nil, chunks]

theorem chunks_append_of_some {chunk : ℕ × ℕ} (hchunk : command.chunk? id = some chunk) :
    chunks (accepted ++ [command]) id = chunks accepted id ++ [chunk] := by
  rw [chunks, List.filterMap_append, List.filterMap_cons_some hchunk, List.filterMap_nil, chunks]

theorem Matched.append {sha256 : Option String} (h : Matched accepted transfer sha256)
    (command : TransferCommand) : Matched (accepted ++ [command]) transfer sha256 := by
  obtain ⟨hall, ⟨actual, hcomplete, hactual⟩, hexpected⟩ := h
  exact ⟨hall, ⟨actual, List.mem_append_left _ hcomplete, hactual⟩, hexpected⟩

theorem Recorded.append (h : Recorded accepted id transfer) (hchunk : command.chunk? id = none) :
    Recorded (accepted ++ [command]) id transfer := by
  refine ⟨h.keyed, ?_, h.bounded, fun sha256 hstate ↦ (h.matched sha256 hstate).append command⟩
  rw [chunks_append_of_none hchunk]
  exact h.tiles

theorem Moves.chunk?_of_ne {free : Prop} {other : TransferId} {old new : MediaTransfer}
    (h : Moves free other command old new) (hne : other ≠ id) : command.chunk? id = none := by
  cases h with
  | recordChunk => exact if_neg hne
  | start | pause | resume | fail | retry | complete | cancel | setPriority => rfl

theorem Recorded.move {free : Prop} {old new : MediaTransfer} (h : Recorded accepted id old)
    (hmove : Moves free id command old new) : Recorded (accepted ++ [command]) id new := by
  -- only a recorded chunk changes the bytes, only a completion leads to `completed`
  have hkept : command.chunk? id = none → old.completedBytes = new.completedBytes →
      Tiles 0 (chunks (accepted ++ [command]) id) new.completedBytes.toNat := by
    intro hchunk hbytes
    rw [chunks_append_of_none hchunk, ← hbytes]
    exact h.tiles
  cases hmove with
  | @recordChunk _ bytesWritten next hstate hnext hpositive htotal =>
      have hchunk : (TransferCommand.recordChunk id old.completedBytes bytesWritten).chunk? id =
          some (old.completedBytes.toNat, bytesWritten.toNat) := if_pos rfl
      refine ⟨h.keyed, ?_, htotal, fun sha256 hnew ↦ ?_⟩
      · rw [chunks_append_of_some hchunk, hnext]
        exact h.tiles.append_singleton hpositive
      · rw [show old.state = .completed sha256 from hnew] at hstate
        cases hstate
  | complete hstate hall hsha256 hexpected =>
      refine ⟨h.keyed, hkept rfl rfl, h.bounded, fun sha256' hnew ↦ ?_⟩
      obtain rfl := TransferState.completed.inj hnew
      refine ⟨hall, ⟨_, ?_, hsha256⟩, hexpected⟩
      rw [show old.id = id from h.keyed]
      exact List.mem_append_right _ (List.mem_singleton_self _)
  | setPriority hstate =>
      refine ⟨h.keyed, hkept rfl rfl, h.bounded, fun sha256 hnew ↦ ?_⟩
      rw [show old.state = .completed sha256 from hnew] at hstate
      cases hstate
  | start | pause | resume | fail | retry | cancel =>
      exact ⟨h.keyed, hkept rfl rfl, h.bounded, fun sha256 hnew ↦ nomatch hnew⟩

end Recorded

/-! ## Sessions -/

structure Session where
  queue : TransferQueue
  accepted : List TransferCommand := []

namespace Session

def start (maxConcurrent : ℕ) : Session where
  queue := .new maxConcurrent

def next (session : Session) (command : TransferCommand) : Session :=
  match session.queue.execute command with
  | (.error _, queue) => { session with queue }
  | (.ok _, queue) => { queue, accepted := session.accepted ++ [command] }

structure Consistent (session : Session) : Prop where
  recorded : ∀ id transfer, session.queue.transfers[id]? = some transfer →
    Recorded session.accepted id transfer
  unknown : ∀ id, session.queue.transfers[id]? = none → chunks session.accepted id = []
  running : session.queue.runningCount ≤ session.queue.maxConcurrent
  ordered : ∀ (id : TransferId) (transfer : MediaTransfer),
    session.queue.transfers[id]? = some transfer →
      transfer.enqueueOrder.toNat < session.queue.nextEnqueueOrder.toNat
  few : session.queue.nextEnqueueOrder.toNat ≤ session.accepted.length

/-- What holds of a later session: orders stay, terminal transfers stay, and new transfers are
last. -/
structure Extends (session later : Session) : Prop where
  kept : ∀ (id : TransferId) (old : MediaTransfer), session.queue.transfers[id]? = some old →
    ∃ new : MediaTransfer, later.queue.transfers[id]? = some new ∧
      new.enqueueOrder = old.enqueueOrder ∧ (old.state.isTerminal = true → new = old)
  fresh : ∀ (id : TransferId) (new : MediaTransfer), later.queue.transfers[id]? = some new →
    session.queue.transfers[id]? = none →
      session.queue.nextEnqueueOrder.toNat ≤ new.enqueueOrder.toNat
  order : session.queue.nextEnqueueOrder.toNat ≤ later.queue.nextEnqueueOrder.toNat
  capacity : later.queue.maxConcurrent = session.queue.maxConcurrent

variable {session : Session} {command : TransferCommand}

theorem next_cases (session : Session) (command : TransferCommand) :
    session.next command = session ∨
    (∃ transfer, session.queue.transfers[transfer.id]? = none ∧
      transfer.state = .queued ∧ transfer.completedBytes = 0 ∧
      transfer.enqueueOrder = session.queue.nextEnqueueOrder ∧
      (∀ id, command.chunk? id = none) ∧
      session.next command =
        { queue := session.queue.apply (.enqueued transfer)
          accepted := session.accepted ++ [command] }) ∨
    ∃ id old new, session.queue.transfers[id]? = some old ∧
      Moves session.queue.Free id command old new ∧
      session.next command =
        { queue := { session.queue with transfers := session.queue.transfers.insert id new }
          accepted := session.accepted ++ [command] } := by
  unfold next TransferQueue.execute
  cases hdecide : session.queue.decide command with
  | error e => exact .inl rfl
  | ok events =>
      right
      rcases TransferQueue.decide_eq_ok hdecide with
        ⟨transfer, hfresh, hstate, hbytes, horder, hchunk, hqueue⟩ |
          ⟨id, old, new, hold, hmove, hqueue⟩
      · refine .inl ⟨transfer, hfresh, hstate, hbytes, horder, fun id ↦ ?_, by rw [← hqueue]⟩
        cases command with
        | recordChunk id offset bytesWritten => exact absurd rfl (hchunk id offset bytesWritten)
        | _ => rfl
      · exact .inr ⟨id, old, new, hold, hmove, by rw [← hqueue]⟩

/-! ### Later sessions -/

theorem Extends.refl (session : Session) : session.Extends session := by
  refine ⟨fun id old hold ↦ ⟨old, hold, rfl, fun _ ↦ rfl⟩, fun id new hnew hnone ↦ ?_,
    Nat.le_refl _, rfl⟩
  rw [hnone] at hnew
  cases hnew

theorem Extends.trans {middle later : Session} (h : session.Extends middle)
    (hlater : middle.Extends later) : session.Extends later := by
  refine ⟨fun id old hold ↦ ?_, fun id new hnew hnone ↦ ?_, h.order.trans hlater.order,
    hlater.capacity.trans h.capacity⟩
  · obtain ⟨mid, hmid, horder, hterminal⟩ := h.kept id old hold
    obtain ⟨new, hnew, horder', hterminal'⟩ := hlater.kept id mid hmid
    refine ⟨new, hnew, horder'.trans horder, fun hold ↦ ?_⟩
    obtain rfl := hterminal hold
    exact hterminal' hold
  · cases hmid : middle.queue.transfers[id]? with
    | none => exact h.order.trans (hlater.fresh id new hnew hmid)
    | some mid =>
        obtain ⟨new', hnew', horder, -⟩ := hlater.kept id mid hmid
        obtain rfl := Option.some.inj (hnew'.symm.trans hnew)
        rw [horder]
        exact h.fresh id mid hmid hnone

theorem extends_next (session : Session) (command : TransferCommand) :
    session.Extends (session.next command) := by
  rcases next_cases session command with
    hnext | ⟨transfer, hfresh, -, -, horder, -, hnext⟩ | ⟨id, old, new, hold, hmove, hnext⟩
  · rw [hnext]
    exact Extends.refl session
  · rw [hnext]
    refine ⟨fun id old hold ↦ ⟨old, ?_, rfl, fun _ ↦ rfl⟩, fun id new hnew hnone ↦ ?_,
      ?_, rfl⟩
    · have hne : transfer.id ≠ id := by
        rintro rfl
        rw [hfresh] at hold
        cases hold
      exact (BTreeMap.get_insert_ne _ _ hne).trans hold
    · rcases BTreeMap.get_insert_cases hnew with ⟨-, rfl⟩ | hold
      · rw [horder]
      · rw [hnone] at hold
        cases hold
    · simp only [TransferQueue.apply, TransferQueue.toNat_max]
      exact le_max_left _ _
  · rw [hnext]
    refine ⟨fun other old' hold' ↦ ?_, fun other new' hnew hnone ↦ ?_,
      Nat.le_refl _, rfl⟩
    · by_cases hother : id = other
      · subst hother
        obtain rfl := Option.some.inj (hold.symm.trans hold')
        refine ⟨new, BTreeMap.get_insert_self _ _ _, hmove.frame.2.2, fun hterminal ↦ ?_⟩
        rw [hmove.not_terminal] at hterminal
        cases hterminal
      · exact ⟨old', (BTreeMap.get_insert_ne _ _ hother).trans hold', rfl, fun _ ↦ rfl⟩
    · rcases BTreeMap.get_insert_cases hnew with ⟨rfl, -⟩ | hold'
      · rw [hold] at hnone
        cases hnone
      · rw [hnone] at hold'
        cases hold'

theorem extends_run (session : Session) (commands : List TransferCommand) :
    session.Extends (Runs.run next session commands) := by
  refine Runs.invariant (I := session.Extends) (fun later command h ↦ ?_) (.refl session) commands
  exact h.trans (extends_next later command)

/-! ### The invariant -/

theorem consistent_start (maxConcurrent : ℕ) : (start maxConcurrent).Consistent := by
  have hnone : ∀ id : TransferId, (∅ : BTreeMap TransferId MediaTransfer)[id]? = none :=
    fun id ↦ by simp
  refine ⟨fun id transfer hget ↦ ?_, fun _ _ ↦ rfl, ?_, fun id transfer hget ↦ ?_, Nat.le_refl _⟩
  · rw [start, TransferQueue.new, hnone] at hget
    cases hget
  · rw [TransferQueue.runningCount_eq_sum, start, TransferQueue.new, BTreeMap.sum_empty]
    exact Nat.zero_le _
  · rw [start, TransferQueue.new, hnone] at hget
    cases hget

theorem Consistent.enqueue (h : session.Consistent)
    (hlength : session.accepted.length + 1 < 2 ^ 64) {transfer : MediaTransfer}
    (hfresh : session.queue.transfers[transfer.id]? = none) (hstate : transfer.state = .queued)
    (hbytes : transfer.completedBytes = 0)
    (horder : transfer.enqueueOrder = session.queue.nextEnqueueOrder)
    (hchunk : ∀ id, command.chunk? id = none) :
    Consistent
      { queue := session.queue.apply (.enqueued transfer)
        accepted := session.accepted ++ [command] } := by
  have hfew := h.few
  have hsucc : saturatingSuccU64 transfer.enqueueOrder = session.queue.nextEnqueueOrder + 1 := by
    rw [saturatingSuccU64, horder, if_pos (by omega)]
  have htoNat : (session.queue.nextEnqueueOrder + 1).toNat =
      session.queue.nextEnqueueOrder.toNat + 1 := by
    rw [UInt64.toNat_add, UInt64.toNat_one, Nat.mod_eq_of_lt (by omega)]
  have hmax : (max session.queue.nextEnqueueOrder
      (saturatingSuccU64 transfer.enqueueOrder)).toNat =
      session.queue.nextEnqueueOrder.toNat + 1 := by
    rw [TransferQueue.toNat_max, hsucc, htoNat]
    exact max_eq_right (Nat.le_succ _)
  refine ⟨fun id other hget ↦ ?_, fun id hnone ↦ ?_, ?_, fun id other hget ↦ ?_, ?_⟩
  · rcases BTreeMap.get_insert_cases hget with ⟨rfl, rfl⟩ | hold
    · refine ⟨rfl, ?_, ?_, fun sha256 hcompleted ↦ ?_⟩
      · rw [chunks_append_of_none (hchunk _), h.unknown _ hfresh, hbytes]
        rfl
      · rw [hbytes]
        exact UInt64.zero_le
      · rw [hstate] at hcompleted
        cases hcompleted
    · exact (h.recorded id other hold).append (hchunk id)
  · dsimp only
    rw [chunks_append_of_none (hchunk _)]
    apply h.unknown
    by_contra hsome
    obtain ⟨old, hold⟩ := Option.ne_none_iff_exists'.mp hsome
    have hne : transfer.id ≠ id := by
      rintro rfl
      exact hsome hfresh
    rw [TransferQueue.apply, BTreeMap.get_insert_ne _ _ hne, hold] at hnone
    cases hnone
  · exact (TransferQueue.runningCount_insert_of_none hfresh hstate).trans_le h.running
  · simp only [TransferQueue.apply, hmax]
    rcases BTreeMap.get_insert_cases hget with ⟨rfl, rfl⟩ | hold
    · rw [horder]
      exact Nat.lt_succ_self _
    · exact Nat.lt_succ_of_lt (h.ordered id other hold)
  · simp only [TransferQueue.apply, hmax, List.length_append, List.length_singleton]
    omega

theorem Consistent.move (h : session.Consistent) {id : TransferId} {old new : MediaTransfer}
    (hold : session.queue.transfers[id]? = some old)
    (hmove : Moves session.queue.Free id command old new) :
    Consistent
      { queue := { session.queue with transfers := session.queue.transfers.insert id new }
        accepted := session.accepted ++ [command] } := by
  refine ⟨fun other transfer hget ↦ ?_, fun other hnone ↦ ?_,
    TransferQueue.runningCount_move hold hmove h.running, fun other transfer hget ↦ ?_,
    h.few.trans (by simp)⟩
  · by_cases hother : id = other
    · subst hother
      obtain rfl := Option.some.inj ((BTreeMap.get_insert_self _ _ _).symm.trans hget)
      exact (h.recorded id old hold).move hmove
    · have hget' := (BTreeMap.get_insert_ne _ _ hother).symm.trans hget
      exact (h.recorded other transfer hget').append (hmove.chunk?_of_ne hother)
  · by_cases hother : id = other
    · subst hother
      rw [BTreeMap.get_insert_self] at hnone
      cases hnone
    · rw [BTreeMap.get_insert_ne _ _ hother] at hnone
      dsimp only
      rw [chunks_append_of_none (hmove.chunk?_of_ne hother)]
      exact h.unknown other hnone
  · rcases BTreeMap.get_insert_cases hget with ⟨-, rfl⟩ | hget'
    · dsimp only
      rw [hmove.frame.2.2]
      exact h.ordered id old hold
    · exact h.ordered other transfer hget'

theorem Consistent.next (h : session.Consistent)
    (hlength : session.accepted.length + 1 < 2 ^ 64) (command : TransferCommand) :
    (session.next command).Consistent := by
  rcases next_cases session command with
    hnext | ⟨transfer, hfresh, hstate, hbytes, horder, hchunk, hnext⟩ |
      ⟨id, old, new, hold, hmove, hnext⟩
  · rw [hnext]
    exact h
  · rw [hnext]
    exact h.enqueue hlength hfresh hstate hbytes horder hchunk
  · rw [hnext]
    exact h.move hold hmove

theorem length_accepted_next (session : Session) (command : TransferCommand) :
    (session.next command).accepted.length ≤ session.accepted.length + 1 := by
  unfold Session.next
  split
  · exact Nat.le_succ _
  · simp

theorem Consistent.run (h : session.Consistent) {commands : List TransferCommand}
    (hlength : session.accepted.length + commands.length < 2 ^ 64) :
    (Runs.run Session.next session commands).Consistent := by
  induction commands generalizing session with
  | nil => exact h
  | cons command commands ih =>
      rw [List.length_cons] at hlength
      have hnext := length_accepted_next session command
      exact ih (h.next (by omega) command) (by omega)

/-! ### The next transfer -/

theorem execute_start {queue : TransferQueue} {transfer : MediaTransfer}
    (hget : queue.transfers[transfer.id]? = some transfer) (hstate : transfer.state = .queued)
    (hfree : queue.Free) :
    queue.execute (.start transfer.id) = (.ok [.started transfer.id],
      { queue with
        transfers := queue.transfers.insert transfer.id { transfer with state := .running } }) := by
  have hdecide : queue.decide (.start transfer.id) = .ok [.started transfer.id] := by
    simp only [TransferQueue.decide, TransferQueue.decideEvent, TransferQueue.require, hget]
    refine bind_eq_ok.mpr ⟨.started transfer.id, ?_, rfl⟩
    refine bind_eq_ok.mpr ⟨transfer, rfl, bind_eq_ok.mpr ⟨(), ensure_eq_ok.mpr hstate, ?_⟩⟩
    exact bind_eq_ok.mpr ⟨(), ensure_eq_ok.mpr hfree, rfl⟩
  rw [TransferQueue.execute, hdecide]
  simp only [List.foldl_cons, List.foldl_nil, TransferQueue.apply]
  rw [TransferQueue.modify_of_get hget]

theorem Consistent.nextReady (h : session.Consistent) {transfer : MediaTransfer}
    (hnext : session.queue.nextReady = some transfer) :
    session.queue.transfers[transfer.id]? = some transfer ∧ transfer.state = .queued ∧
      session.queue.Free ∧
      ∀ (id : TransferId) (other : MediaTransfer), session.queue.transfers[id]? = some other →
        other.state = .queued → other.priority < transfer.priority ∨
          other.priority = transfer.priority ∧
            transfer.enqueueOrder.toNat ≤ other.enqueueOrder.toNat := by
  unfold TransferQueue.nextReady at hnext
  split at hnext
  · cases hnext
  · rename_i hfree
    have hmem := List.mem_reverse.mp (List.argmax_mem hnext)
    obtain ⟨hvalue, hstate⟩ := List.mem_filter.mp hmem
    obtain ⟨id, hget⟩ := BTreeMap.mem_values.mp hvalue
    rw [← (h.recorded id transfer hget).keyed] at hget
    refine ⟨hget, of_decide_eq_true hstate, Nat.lt_of_not_le hfree,
      fun other otherTransfer hother hqueued ↦ ?_⟩
    have hready : otherTransfer ∈ (session.queue.transfers.values.filter fun transfer ↦
        transfer.state = .queued).reverse := by
      refine List.mem_reverse.mpr (List.mem_filter.mpr ⟨?_, decide_eq_true hqueued⟩)
      exact BTreeMap.mem_values.mpr ⟨other, hother⟩
    have hle := List.le_of_mem_argmax hready hnext
    exact (Prod.Lex.toLex_le_toLex.mp hle).imp_right fun ⟨heq, horder⟩ ↦ ⟨heq, horder⟩

theorem Consistent.mem_of_order_le (h : session.Consistent) {later : Session}
    (hlater : session.Extends later) {id other : TransferId} {transfer otherTransfer : MediaTransfer}
    (hget : later.queue.transfers[id]? = some transfer)
    (hother : later.queue.transfers[other]? = some otherTransfer)
    (horder : transfer.enqueueOrder.toNat ≤ otherTransfer.enqueueOrder.toNat)
    (hmem : other ∈ session.queue.transfers) : id ∈ session.queue.transfers := by
  by_contra hnone
  have hfresh := hlater.fresh id transfer hget (BTreeMap.get_eq_none_iff.mpr hnone)
  obtain ⟨old, hold⟩ := Option.ne_none_iff_exists'.mp
    (mt BTreeMap.get_eq_none_iff.mp (not_not_intro hmem))
  obtain ⟨new, hnew, hsame, -⟩ := hlater.kept other old hold
  obtain rfl := Option.some.inj (hnew.symm.trans hother)
  have hbefore := h.ordered other old hold
  rw [hsame] at horder
  omega

/-- What holds after every sequence of commands on a new queue. -/
theorem transferQueue_invariants (maxConcurrent : ℕ) (commands : List TransferCommand)
    (hlength : commands.length < 2 ^ 64) :
    let session := Runs.run next (start maxConcurrent) commands
    session.queue.runningCount ≤ session.queue.maxConcurrent ∧
    session.queue.maxConcurrent = max maxConcurrent 1 ∧
    (∀ (id : TransferId) (transfer : MediaTransfer),
      session.queue.transfers[id]? = some transfer →
        transfer.completedBytes ≤ transfer.totalBytes ∧
        Tiles 0 (chunks session.accepted id) transfer.completedBytes.toNat ∧
        (∀ position, (chunks session.accepted id).countP (fun chunk ↦ Covers position chunk) =
          if position < transfer.completedBytes.toNat then 1 else 0) ∧
        ∀ sha256, transfer.state = .completed sha256 → Matched session.accepted transfer sha256) ∧
    (∀ earlier later, commands = earlier ++ later →
      ∀ (id : TransferId) (transfer : MediaTransfer),
        (Runs.run next (start maxConcurrent) earlier).queue.transfers[id]? = some transfer →
        transfer.state.isTerminal = true → session.queue.transfers[id]? = some transfer) ∧
    (∀ command e, (session.queue.execute command).1 = .error e →
      (session.queue.execute command).2 = session.queue) ∧
    ∀ transfer, session.queue.nextReady = some transfer →
      transfer.state = .queued ∧
      (∀ (id : TransferId) (other : MediaTransfer), session.queue.transfers[id]? = some other →
        other.state = .queued → other.priority < transfer.priority ∨
          other.priority = transfer.priority ∧ ∀ earlier later, commands = earlier ++ later →
            id ∈ (Runs.run next (start maxConcurrent) earlier).queue.transfers →
            transfer.id ∈ (Runs.run next (start maxConcurrent) earlier).queue.transfers) ∧
      session.queue.execute (.start transfer.id) = (.ok [.started transfer.id],
        { session.queue with transfers :=
            session.queue.transfers.insert transfer.id { transfer with state := .running } }) := by
  intro session
  have hconsistent : ∀ commands : List TransferCommand, commands.length < 2 ^ 64 →
      (Runs.run next (start maxConcurrent) commands).Consistent := by
    intro commands hlength
    exact (consistent_start maxConcurrent).run ((Nat.zero_add _).trans_lt hlength)
  have hextends : ∀ earlier later, commands = earlier ++ later →
      (Runs.run next (start maxConcurrent) earlier).Extends session := by
    rintro earlier later rfl
    rw [show session = Runs.run next (Runs.run next (start maxConcurrent) earlier) later from
      Runs.run_append ..]
    exact extends_run _ later
  have h : session.Consistent := hconsistent commands hlength
  refine ⟨h.running, ?_, fun id transfer hget ↦ ?_, fun earlier later hsplit id transfer hget
    hterminal ↦ ?_, fun command e herror ↦ ?_, fun transfer hnext ↦ ?_⟩
  · exact (extends_run (start maxConcurrent) commands).capacity
  · have hrecorded := h.recorded id transfer hget
    refine ⟨hrecorded.bounded, hrecorded.tiles, fun position ↦ ?_, hrecorded.matched⟩
    rw [hrecorded.tiles.countP_covers position]
    exact if_congr (and_iff_right (Nat.zero_le position)) rfl rfl
  · obtain ⟨new, hnew, -, hsame⟩ := (hextends earlier later hsplit).kept id transfer hget
    rw [hnew, hsame hterminal]
  · unfold TransferQueue.execute at herror ⊢
    split at herror
    · rfl
    · cases herror
  · obtain ⟨hget, hstate, hfree, hbest⟩ := h.nextReady hnext
    refine ⟨hstate, fun id other hother hqueued ↦ ?_, execute_start hget hstate hfree⟩
    refine (hbest id other hother hqueued).imp_right fun ⟨hpriority, horder⟩ ↦ ⟨hpriority, ?_⟩
    intro earlier later hsplit hmem
    have hearlier : earlier.length < 2 ^ 64 := by
      rw [hsplit, List.length_append] at hlength
      omega
    exact (hconsistent earlier hearlier).mem_of_order_le (hextends earlier later hsplit) hget
      hother horder hmem

def demoCommands : List TransferCommand :=
  [.enqueue ⟨"a"⟩ ⟨"f"⟩ .upload .normal 6 4 none,
    .enqueue ⟨"b"⟩ ⟨"g"⟩ .download .realtime 6 4 none,
    .start ⟨"b"⟩, .recordChunk ⟨"b"⟩ 0 4, .recordChunk ⟨"b"⟩ 4 2, .complete ⟨"b"⟩ none]

theorem transferQueue_invariants_demo :
    demoCommands.length < 2 ^ 64 ∧
    (Runs.run next (start 0) demoCommands).accepted = demoCommands ∧
    (Runs.run next (start 0) demoCommands).queue.runningCount ≤
      (Runs.run next (start 0) demoCommands).queue.maxConcurrent := by
  have hlength : demoCommands.length < 2 ^ 64 := by decide
  exact ⟨hlength, by decide +kernel, (transferQueue_invariants 0 demoCommands hlength).1⟩

end Session

end Fabushi.TelegramMedia
