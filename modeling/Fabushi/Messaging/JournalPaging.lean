import Fabushi.Messaging.Store
import Fabushi.Library.Paging

/-!
# Reading the journal page by page

The journal is sorted by cursor, and its pages end between two cursors. A client
that reads on from every checkpoint gets each event behind its cursor exactly once;
what pruning has removed lies at or below the floor.
-/

namespace Fabushi.Messaging

open Paging Result

def JournalEntry.cursor (entry : JournalEntry) : UInt64 :=
  (journalCursor entry).toOption.getD 0

def JournalEntry.HasCursor (entry : JournalEntry) : Prop :=
  journalCursor entry = .ok entry.cursor

theorem JournalEntry.hasCursor_of_ok {entry : JournalEntry} {cursor : UInt64}
    (h : journalCursor entry = .ok cursor) : entry.HasCursor := by
  rw [HasCursor, JournalEntry.cursor, h]
  rfl

structure Journal (entries : List JournalEntry) : Prop where
  cursors : ∀ entry ∈ entries, entry.HasCursor
  sorted : Sorted JournalEntry.cursor entries

theorem Journal.tail {entry : JournalEntry} {entries : List JournalEntry}
    (h : Journal (entry :: entries)) : Journal entries :=
  ⟨fun e he ↦ h.cursors e (List.mem_cons_of_mem _ he), (List.pairwise_cons.mp h.sorted).2⟩

/-! ## One page -/

structure Selecting (entries : List JournalEntry) (selection : Selection) : Prop where
  going : selection.hasMore = false
  start : selection.lastSelectedCursor = none → selection.selectedGroups = 0
  last : ∀ cursor, selection.lastSelectedCursor = some cursor →
    (∃ entry ∈ selection.selected, entry.cursor = cursor) ∧
      (∀ entry ∈ selection.selected, entry.cursor ≤ cursor) ∧
      ∀ entry ∈ entries, cursor ≤ entry.cursor
  none : selection.lastSelectedCursor = none → selection.selected = []

/-- What the loop adds to a selection, and what it leaves for the next page. -/
structure Selects (requested : UInt64) (entries : List JournalEntry)
    (selection selection' : Selection) (page rest : List JournalEntry) : Prop where
  split : behind JournalEntry.cursor requested entries = page ++ rest
  selected : selection'.selected = selection.selected ++ page
  hasMore : selection'.hasMore = !rest.isEmpty
  last : rest ≠ [] → ∃ cursor, selection'.lastSelectedCursor = some cursor ∧
    (∃ entry ∈ selection'.selected, entry.cursor = cursor) ∧
    (∀ entry ∈ selection'.selected, entry.cursor ≤ cursor) ∧
    ∀ entry ∈ rest, cursor < entry.cursor

theorem Selecting.skip {entry : JournalEntry} {entries : List JournalEntry} {selection : Selection}
    (h : Selecting (entry :: entries) selection) : Selecting entries selection :=
  ⟨h.going, h.start, fun cursor hcursor ↦ ⟨(h.last cursor hcursor).1, (h.last cursor hcursor).2.1,
    fun e he ↦ (h.last cursor hcursor).2.2 e (List.mem_cons_of_mem _ he)⟩, h.none⟩

theorem Selecting.select {entry : JournalEntry} {entries : List JournalEntry}
    {selection : Selection} (h : Selecting (entry :: entries) selection)
    (hsorted : Sorted JournalEntry.cursor (entry :: entries)) (groups : ℕ) :
    Selecting entries { selection with
      selected := selection.selected ++ [entry]
      selectedGroups := groups
      lastSelectedCursor := some entry.cursor } := by
  refine ⟨h.going, fun hnone ↦ ?_, fun cursor hcursor ↦ ?_, fun hnone ↦ ?_⟩
  · cases hnone
  · obtain rfl := Option.some.inj hcursor
    refine ⟨⟨entry, by simp, rfl⟩, fun e he ↦ ?_, (List.pairwise_cons.mp hsorted).1⟩
    rcases List.mem_append.mp he with he | he
    · cases hlast : selection.lastSelectedCursor with
      | none =>
          rw [h.none hlast] at he
          cases he
      | some last =>
          obtain ⟨-, hbound, hfrom⟩ := h.last last hlast
          exact (hbound e he).trans (hfrom entry List.mem_cons_self)
    · rw [List.mem_singleton.mp he]
  · cases hnone

theorem behind_cons_of_lt {requested : UInt64} {entry : JournalEntry}
    (h : ¬ entry.cursor ≤ requested) (entries : List JournalEntry) :
    behind JournalEntry.cursor requested (entry :: entries) =
      entry :: behind JournalEntry.cursor requested entries :=
  List.filter_cons_of_pos (by simpa using h)

theorem behind_cons_of_le {requested : UInt64} {entry : JournalEntry}
    (h : entry.cursor ≤ requested) (entries : List JournalEntry) :
    behind JournalEntry.cursor requested (entry :: entries) =
      behind JournalEntry.cursor requested entries :=
  List.filter_cons_of_neg (by simpa using h)

theorem Selects.cons {requested : UInt64} {entry : JournalEntry} {entries : List JournalEntry}
    {selection middle selection' : Selection} {page rest : List JournalEntry}
    (h : Selects requested entries middle selection' page rest)
    (hbehind : ¬ entry.cursor ≤ requested)
    (hmiddle : middle.selected = selection.selected ++ [entry]) :
    Selects requested (entry :: entries) selection selection' (entry :: page) rest := by
  refine ⟨?_, ?_, h.hasMore, h.last⟩
  · rw [behind_cons_of_lt hbehind, h.split]
    rfl
  · rw [h.selected, hmiddle, List.append_assoc]
    rfl

theorem selectEntries_eq (requested : UInt64) {limit : ℕ} (hlimit : 0 < limit)
    {entries : List JournalEntry} (hjournal : Journal entries) {selection : Selection}
    (hselecting : Selecting entries selection) :
    ∃ selection' page rest, selectEntries requested limit entries selection = .ok selection' ∧
      Selects requested entries selection selection' page rest := by
  induction entries generalizing selection with
  | nil =>
      refine ⟨selection, [], [], rfl, rfl, (List.append_nil _).symm, hselecting.going, ?_⟩
      intro hnil
      exact absurd rfl hnil
  | cons entry entries ih =>
      have hcursor := hjournal.cursors entry List.mem_cons_self
      by_cases hpassed : entry.cursor ≤ requested
      · obtain ⟨selection', page, rest, hselect, hselects⟩ := ih hjournal.tail hselecting.skip
        refine ⟨selection', page, rest, ?_, ?_, hselects.selected, hselects.hasMore, hselects.last⟩
        · rw [selectEntries, hcursor]
          change (if entry.cursor ≤ requested then _ else _) = _
          rw [if_pos hpassed, hselect]
        · rw [behind_cons_of_le hpassed, hselects.split]
      · have hstep : selectEntries requested limit (entry :: entries) selection =
            if selection.lastSelectedCursor ≠ some entry.cursor then
              if limit ≤ selection.selectedGroups then .ok { selection with hasMore := true }
              else selectEntries requested limit entries
                { selection with
                  selected := selection.selected ++ [entry]
                  selectedGroups := selection.selectedGroups + 1
                  lastSelectedCursor := some entry.cursor }
            else selectEntries requested limit entries
              { selection with selected := selection.selected ++ [entry] } := by
          rw [selectEntries, hcursor]
          change (if entry.cursor ≤ requested then _ else _) = _
          rw [if_neg hpassed]
          rfl
        by_cases hgroup : selection.lastSelectedCursor = some entry.cursor
        · rw [hstep, if_neg (by simp [hgroup])]
          have hsame : { selection with selected := selection.selected ++ [entry] } =
              { selection with
                selected := selection.selected ++ [entry]
                selectedGroups := selection.selectedGroups
                lastSelectedCursor := some entry.cursor } := by rw [hgroup]
          obtain ⟨selection', page, rest, hselect, hselects⟩ := ih hjournal.tail
            (hselecting.select hjournal.sorted selection.selectedGroups)
          exact ⟨selection', entry :: page, rest, by rw [hsame]; exact hselect,
            hselects.cons hpassed rfl⟩
        · rw [hstep, if_pos hgroup]
          by_cases hfull : limit ≤ selection.selectedGroups
          · rw [if_pos hfull]
            refine ⟨_, [], entry :: behind JournalEntry.cursor requested entries, rfl,
              behind_cons_of_lt hpassed entries, (List.append_nil _).symm, rfl, fun _ ↦ ?_⟩
            obtain ⟨last, hlast⟩ : ∃ last, selection.lastSelectedCursor = some last := by
              rw [← Option.ne_none_iff_exists']
              intro hnone
              have hzero := hselecting.start hnone
              omega
            obtain ⟨hthere, hbound, hfrom⟩ := hselecting.last last hlast
            have hne : last ≠ entry.cursor := fun h ↦ hgroup (by rw [hlast, h])
            have hlt : last < entry.cursor := lt_of_le_of_ne (hfrom entry List.mem_cons_self) hne
            refine ⟨last, hlast, hthere, hbound, fun e he ↦ ?_⟩
            rcases List.mem_cons.mp he with rfl | he
            · exact hlt
            · exact hlt.trans_le
                ((List.pairwise_cons.mp hjournal.sorted).1 e (mem_behind.mp he).1)
          · rw [if_neg hfull]
            obtain ⟨selection', page, rest, hselect, hselects⟩ := ih hjournal.tail
              (hselecting.select hjournal.sorted (selection.selectedGroups + 1))
            exact ⟨selection', entry :: page, rest, hselect, hselects.cons hpassed rfl⟩

structure Page (journal : List JournalEntry) (requested : UInt64) (slice : EventJournalSlice)
    (rest : List JournalEntry) : Prop where
  cut : Cut JournalEntry.cursor requested journal slice.entries rest
  hasMore : slice.hasMore = !rest.isEmpty
  checkpoint : rest ≠ [] → (∃ entry ∈ slice.entries, entry.cursor = slice.checkpointCursor) ∧
    ∀ entry ∈ slice.entries, entry.cursor ≤ slice.checkpointCursor

theorem sliceJournal_page {journal : List JournalEntry} (hjournal : Journal journal)
    (floorCursor currentCursor requestedCursor : UInt64) (cursorGroupLimit : ℕ) :
    ∃ slice rest, sliceJournal journal floorCursor currentCursor requestedCursor cursorGroupLimit =
      .ok slice ∧ Page journal requestedCursor slice rest ∧ slice.floorCursor = floorCursor ∧
        slice.currentCursor = currentCursor := by
  have hlimit : 0 < max cursorGroupLimit 1 := by omega
  have hempty : Selecting journal {} :=
    ⟨rfl, fun _ ↦ rfl, fun _ h ↦ (by cases h), fun _ ↦ rfl⟩
  obtain ⟨selection, page, rest, hselect, hselects⟩ :=
    selectEntries_eq requestedCursor hlimit hjournal hempty
  have hpage : selection.selected = page := hselects.selected
  refine ⟨_, rest, by rw [sliceJournal, hselect]; rfl, ⟨⟨?_, ?_⟩, hselects.hasMore, ?_⟩, rfl, rfl⟩
  · rw [hselects.split, ← hpage]
  · intro x hx y hy
    obtain ⟨cursor, -, -, hbound, hrest⟩ := hselects.last (List.ne_nil_of_mem hy)
    exact (hbound x hx).trans_lt (hrest y hy)
  · intro hnonempty
    obtain ⟨cursor, hlast, hthere, hbound, -⟩ := hselects.last hnonempty
    have hmore : selection.hasMore = true := by
      rw [hselects.hasMore, Bool.not_eq_true', List.isEmpty_eq_false_iff]
      exact hnonempty
    dsimp only
    rw [if_pos hmore, hlast, Option.getD_some]
    exact ⟨hthere, hbound⟩

/-! ## Page after page -/

section Reading

variable {S : Type} [MessagingStateStore S]

/-- Read on from the returned checkpoint until there is no more, at most `fuel` times. -/
def readPages (store : S) (limit : ℕ) : ℕ → UInt64 → Option (List EventJournalSlice)
  | 0, _ => none
  | fuel + 1, cursor =>
      match MessagingStateStore.loadEventJournalAfter store cursor limit with
      | .ok (some slice) =>
          if slice.hasMore then
            (readPages store limit fuel slice.checkpointCursor).map (slice :: ·)
          else some [slice]
      | _ => none

/-- The pages hold every event behind `cursor` once and in order, and no cursor stands on
two of them. -/
structure Complete (journal : List JournalEntry) (cursor : UInt64)
    (slices : List EventJournalSlice) : Prop where
  entries : slices.flatMap (fun slice ↦ slice.entries) =
    behind JournalEntry.cursor cursor journal
  apart : slices.Pairwise fun earlier later ↦
    ∀ x ∈ earlier.entries, ∀ y ∈ later.entries, x.cursor < y.cursor

theorem readPages_complete {store : S} {limit : ℕ} {journal : List JournalEntry}
    (hload : ∀ cursor, ∃ slice rest,
      MessagingStateStore.loadEventJournalAfter store cursor limit = .ok (some slice) ∧
        Page journal cursor slice rest) (cursor : UInt64) :
    ∃ slices, (∀ fuel, (behind JournalEntry.cursor cursor journal).length < fuel →
      readPages store limit fuel cursor = some slices) ∧ Complete journal cursor slices := by
  induction hn : (behind JournalEntry.cursor cursor journal).length using Nat.strong_induction_on
    generalizing cursor with
  | _ n ih =>
      obtain ⟨slice, rest, hslice, hpage⟩ := hload cursor
      cases hrest : rest with
      | nil =>
          have hmore : slice.hasMore = false := by rw [hpage.hasMore, hrest]; rfl
          refine ⟨[slice], fun fuel hfuel ↦ ?_, ?_, List.pairwise_singleton _ _⟩
          · obtain ⟨fuel, rfl⟩ := Nat.exists_eq_add_one_of_ne_zero (Nat.ne_zero_of_lt hfuel)
            rw [readPages, hslice]
            simp [hmore]
          · rw [hpage.cut.split, hrest, List.flatMap_singleton, List.append_nil]
      | cons first others =>
          have hnonempty : rest ≠ [] := by simp [hrest]
          have hmore : slice.hasMore = true := by rw [hpage.hasMore, hrest]; rfl
          obtain ⟨hthere, hbound⟩ := hpage.checkpoint hnonempty
          have hbehind := hpage.cut.rest_eq hbound hthere
          have hshorter : rest.length < n := by
            obtain ⟨entry, hentry, -⟩ := hthere
            have hlength := List.length_pos_of_mem hentry
            rw [← hn, hpage.cut.split, List.length_append]
            omega
          obtain ⟨slices, hread, hcomplete⟩ := ih rest.length hshorter slice.checkpointCursor
            (by rw [hbehind])
          refine ⟨slice :: slices, fun fuel hfuel ↦ ?_, ?_, ?_⟩
          · obtain ⟨fuel, rfl⟩ := Nat.exists_eq_add_one_of_ne_zero (Nat.ne_zero_of_lt hfuel)
            rw [readPages, hslice]
            simp only [hmore, if_true]
            rw [hread fuel (by omega)]
            rfl
          · rw [List.flatMap_cons, hcomplete.entries, hbehind, hpage.cut.split]
          · refine List.pairwise_cons.mpr ⟨fun later hlater x hx y hy ↦ ?_, hcomplete.apart⟩
            apply hpage.cut.apart x hx
            rw [← hbehind, ← hcomplete.entries]
            exact List.mem_flatMap.mpr ⟨later, hlater, hy⟩

end Reading

/-! ## The calls of a store -/

inductive StoreCall where
  | save (snapshot : MessagingSnapshot)
  | saveWithEvents (snapshot : MessagingSnapshot) (events : List JournalEntry)

namespace StoreCall

variable {S : Type} [MessagingStateStore S]

def apply (store : S) : StoreCall → S × Except StoreError Unit
  | .save snapshot => MessagingStateStore.save store snapshot
  | .saveWithEvents snapshot events => MessagingStateStore.saveWithEvents store snapshot events

def events : StoreCall → List JournalEntry
  | .save _ => []
  | .saveWithEvents _ events => events

def cursors : StoreCall → List UInt64
  | .save snapshot => [snapshot.cursor]
  | .saveWithEvents _ events => events.filterMap fun event ↦ (journalCursor event).toOption

def applyAll (store : S) (calls : List StoreCall) : S :=
  calls.foldl (fun store call ↦ (call.apply store).1) store

def journalled (store : S) : List StoreCall → List JournalEntry
  | [] => []
  | call :: calls =>
      (if (call.apply store).2.isOk then call.events else []) ++
        journalled (call.apply store).1 calls

end StoreCall

namespace MemoryStateStore

variable {store : MemoryStateStore}

theorem dropWhile_cursor {entries : List JournalEntry} (h : ∀ entry ∈ entries, entry.HasCursor)
    (cursor : UInt64) :
    (entries.dropWhile fun entry ↦ match journalCursor entry with
      | .ok other => other ≤ cursor
      | .error _ => false) = entries.dropWhile fun entry ↦ entry.cursor ≤ cursor := by
  induction entries with
  | nil => rfl
  | cons entry entries ih =>
      rw [List.dropWhile_cons, List.dropWhile_cons, h entry List.mem_cons_self,
        ih fun e he ↦ h e (List.mem_cons_of_mem _ he)]

theorem prune_eq (hjournal : Journal store.journal) :
    prune store = (store, .ok ()) ∨ ∃ entry ∈ store.journal,
      prune store = ({ store with
        journal := behind JournalEntry.cursor entry.cursor store.journal
        journalFloorCursor := entry.cursor }, .ok ()) := by
  unfold prune
  by_cases hfits : store.journal.length ≤ eventJournalLimit
  · exact .inl (if_pos hfits)
  · right
    have hindex : store.journal.length - eventJournalLimit - 1 < store.journal.length := by
      have hpos : 0 < eventJournalLimit := by decide
      omega
    let entry := store.journal[store.journal.length - eventJournalLimit - 1]
    have hmem : entry ∈ store.journal := List.getElem_mem hindex
    have hcursor := hjournal.cursors entry hmem
    refine ⟨entry, hmem, ?_⟩
    have hlookup : store.journal[store.journal.length - eventJournalLimit - 1]?.map journalCursor =
        some (.ok entry.cursor) := by
      rw [List.getElem?_eq_getElem hindex, Option.map_some]
      exact congrArg some hcursor
    have hdrop := (dropWhile_cursor hjournal.cursors entry.cursor).trans
      (hjournal.sorted.dropWhile_eq entry.cursor)
    rw [if_neg hfits]
    dsimp only
    rw [hlookup]
    exact congrArg (fun journal ↦ ({ store with journal, journalFloorCursor := entry.cursor },
      Except.ok ())) hdrop

/-- The journal is what has been journalled, less what lies at or below the floor, and
all of it lies before the cursors that are still to come. -/
structure Kept (store : MemoryStateStore) (history : List JournalEntry) (later : List UInt64) :
    Prop where
  journal : Journal store.journal
  history : ∃ pruned, history = pruned ++ store.journal ∧
    ∀ entry ∈ pruned, entry.HasCursor ∧ entry.cursor ≤ store.journalFloorCursor
  floor : ∀ entry ∈ store.journal, store.journalFloorCursor ≤ entry.cursor
  before : ∀ cursor ∈ later, store.journalFloorCursor ≤ cursor ∧
    ∀ entry ∈ store.journal, entry.cursor ≤ cursor

theorem kept_empty (later : List UInt64) : Kept {} [] later :=
  ⟨⟨fun _ h ↦ (by cases h), .nil⟩, ⟨[], rfl, fun _ h ↦ (by cases h)⟩, fun _ h ↦ (by cases h),
    fun cursor _ ↦ ⟨UInt64.zero_le, fun _ h ↦ (by cases h)⟩⟩

theorem Kept.later {history : List JournalEntry} {cursors later : List UInt64}
    (h : Kept store history (cursors ++ later)) : Kept store history later :=
  ⟨h.journal, h.history, h.floor, fun cursor hcursor ↦
    h.before cursor (List.mem_append_right _ hcursor)⟩

theorem Kept.prune {history : List JournalEntry} {later : List UInt64}
    (h : Kept store history later) :
    (prune store).2 = .ok () ∧ Kept (prune store).1 history later := by
  rcases prune_eq h.journal with hsame | ⟨last, hlast, hpruned⟩
  · rw [hsame]
    exact ⟨rfl, h⟩
  · rw [hpruned]
    have hmem : ∀ entry ∈ behind JournalEntry.cursor last.cursor store.journal,
        entry ∈ store.journal ∧ last.cursor < entry.cursor := fun entry ↦ mem_behind.mp
    refine ⟨rfl, ⟨fun entry hentry ↦ h.journal.cursors entry (hmem entry hentry).1,
      h.journal.sorted.filter _⟩, ?_, fun entry hentry ↦ (hmem entry hentry).2.le,
      fun cursor hcursor ↦ ⟨(h.before cursor hcursor).2 last hlast,
        fun entry hentry ↦ (h.before cursor hcursor).2 entry (hmem entry hentry).1⟩⟩
    obtain ⟨pruned, hhistory, hbound⟩ := h.history
    refine ⟨pruned ++ store.journal.takeWhile fun entry ↦ entry.cursor ≤ last.cursor, ?_, ?_⟩
    · rw [List.append_assoc]
      dsimp only
      rw [← h.journal.sorted.dropWhile_eq, List.takeWhile_append_dropWhile]
      exact hhistory
    · intro entry hentry
      rcases List.mem_append.mp hentry with hold | hnew
      · exact ⟨(hbound entry hold).1, (hbound entry hold).2.trans (h.floor last hlast)⟩
      · have hle := List.mem_takeWhile_imp hnew
        exact ⟨h.journal.cursors entry (List.takeWhile_subset _ hnew), by simpa using hle⟩

theorem Kept.save {history : List JournalEntry} {later : List UInt64}
    {snapshot : MessagingSnapshot} (h : Kept store history (snapshot.cursor :: later))
    (hlater : ∀ cursor ∈ later, snapshot.cursor ≤ cursor) :
    Kept (save store snapshot).1 history later := by
  have hkept : Kept store history later := by
    rw [← List.singleton_append] at h
    exact h.later
  unfold MemoryStateStore.save
  cases validateSnapshotSchema snapshot.schemaVersion with
  | error error => exact hkept
  | ok u =>
      dsimp only
      by_cases hempty : store.journal.isEmpty = true
      · rw [if_pos hempty]
        have hnil := List.isEmpty_iff.mp hempty
        obtain ⟨pruned, hhistory, hbound⟩ := h.history
        refine ⟨h.journal, ⟨pruned, hhistory, fun entry hentry ↦
          ⟨(hbound entry hentry).1, (hbound entry hentry).2.trans (le_max_left _ _)⟩⟩, ?_, ?_⟩
        · intro entry hentry
          dsimp only at hentry
          rw [hnil] at hentry
          cases hentry
        · intro cursor hcursor
          exact ⟨max_le (hkept.before cursor hcursor).1 (hlater cursor hcursor),
            (hkept.before cursor hcursor).2⟩
      · rw [if_neg hempty]
        exact ⟨h.journal, h.history, h.floor, hkept.before⟩

theorem forM_journalCursor {events : List JournalEntry} {u : Unit}
    (h : (events.forM fun event ↦ discard (journalCursor event) : Except StoreError Unit) = .ok u) :
    ∀ event ∈ events, event.HasCursor := by
  induction events with
  | nil => exact fun _ h ↦ (by cases h)
  | cons event events ih =>
      obtain ⟨_, hfirst, hrest⟩ := bind_eq_ok.mp h
      obtain ⟨cursor, hcursor, -⟩ := bind_eq_ok.mp hfirst
      intro e he
      rcases List.mem_cons.mp he with rfl | he
      · exact JournalEntry.hasCursor_of_ok hcursor
      · exact ih hrest e he

theorem cursors_eq_map {events : List JournalEntry} (h : ∀ event ∈ events, event.HasCursor) :
    (events.filterMap fun event ↦ (journalCursor event).toOption) =
      events.map JournalEntry.cursor := by
  induction events with
  | nil => rfl
  | cons event events ih =>
      rw [List.filterMap_cons_some (by rw [h event List.mem_cons_self]; rfl), List.map_cons,
        ih fun e he ↦ h e (List.mem_cons_of_mem _ he)]

theorem Kept.append {history events : List JournalEntry} {later : List UInt64}
    (h : Kept store history (events.map JournalEntry.cursor ++ later))
    (snapshot : Option MessagingSnapshot)
    (hcursors : ∀ event ∈ events, event.HasCursor) (hsorted : Sorted JournalEntry.cursor events)
    (hlater : ∀ event ∈ events, ∀ cursor ∈ later, event.cursor ≤ cursor) :
    Kept { store with snapshot, journal := store.journal ++ events } (history ++ events) later := by
  have hbefore : ∀ event ∈ events, store.journalFloorCursor ≤ event.cursor ∧
      ∀ entry ∈ store.journal, entry.cursor ≤ event.cursor := fun event hevent ↦
    h.before event.cursor (List.mem_append_left _ (List.mem_map_of_mem hevent))
  obtain ⟨pruned, hhistory, hbound⟩ := h.history
  refine ⟨⟨fun entry hentry ↦ ?_, ?_⟩, ⟨pruned, ?_, hbound⟩, fun entry hentry ↦ ?_,
    fun cursor hcursor ↦ ⟨(h.later.before cursor hcursor).1, fun entry hentry ↦ ?_⟩⟩
  · rcases List.mem_append.mp hentry with hold | hnew
    · exact h.journal.cursors entry hold
    · exact hcursors entry hnew
  · exact h.journal.sorted.append hsorted fun x hx y hy ↦ (hbefore y hy).2 x hx
  · rw [hhistory, List.append_assoc]
  · rcases List.mem_append.mp hentry with hold | hnew
    · exact h.floor entry hold
    · exact (hbefore entry hnew).1
  · rcases List.mem_append.mp hentry with hold | hnew
    · exact (h.later.before cursor hcursor).2 entry hold
    · exact hlater entry hnew cursor hcursor

theorem Kept.call {history : List JournalEntry} {later : List UInt64} {call : StoreCall}
    (h : Kept store history (call.cursors ++ later))
    (hsorted : (call.cursors ++ later).Pairwise (· ≤ ·)) :
    Kept (call.apply store).1
      (history ++ if (call.apply store).2.isOk then call.events else []) later := by
  obtain ⟨hown, -, hlater⟩ := List.pairwise_append.mp hsorted
  cases call with
  | save snapshot =>
      have hkept := Kept.save h fun cursor hcursor ↦
        hlater snapshot.cursor List.mem_cons_self cursor hcursor
      change Kept (MemoryStateStore.save store snapshot).1 (history ++ if _ then [] else []) later
      rwa [ite_self, List.append_nil]
  | saveWithEvents snapshot events =>
      change Kept (MemoryStateStore.saveWithEvents store snapshot events).1
        (history ++ if (MemoryStateStore.saveWithEvents store snapshot events).2.isOk then events
          else []) later
      unfold MemoryStateStore.saveWithEvents
      cases hcheck : (do
          validateSnapshotSchema snapshot.schemaVersion
          events.forM fun event ↦ discard (journalCursor event) : Except StoreError Unit) with
      | error error =>
          change Kept store (history ++ []) later
          rw [List.append_nil]
          exact h.later
      | ok u =>
          obtain ⟨_, -, hforM⟩ := bind_eq_ok.mp hcheck
          have hcursors := forM_journalCursor hforM
          have heq : (StoreCall.saveWithEvents snapshot events).cursors =
              events.map JournalEntry.cursor := cursors_eq_map hcursors
          rw [heq] at h hown hlater
          obtain ⟨hpruned, hkept⟩ := (h.append (some snapshot) hcursors
            (List.pairwise_map.mp hown) fun event hevent cursor hcursor ↦
              hlater event.cursor (List.mem_map_of_mem hevent) cursor hcursor).prune
          dsimp only
          rw [hpruned]
          exact hkept

theorem Kept.calls {history : List JournalEntry} {calls : List StoreCall}
    (hsorted : (calls.flatMap StoreCall.cursors).Pairwise (· ≤ ·))
    (h : Kept store history (calls.flatMap StoreCall.cursors)) :
    Kept (StoreCall.applyAll store calls) (history ++ StoreCall.journalled store calls) [] := by
  induction calls generalizing store history with
  | nil =>
      change Kept store (history ++ []) []
      rw [List.append_nil]
      exact h
  | cons call calls ih =>
      rw [List.flatMap_cons] at hsorted h
      have hrest := ih (List.pairwise_append.mp hsorted).2.1 (h.call hsorted)
      rw [List.append_assoc] at hrest
      exact hrest

theorem load_page (hjournal : Journal store.journal) (cursor : UInt64) (limit : ℕ) :
    ∃ slice rest, loadEventJournalAfter store cursor limit = .ok (some slice) ∧
      Page store.journal cursor slice rest := by
  obtain ⟨slice, rest, hslice, hpage, -⟩ := sliceJournal_page hjournal store.journalFloorCursor
    ((store.snapshot.map fun snapshot ↦ snapshot.cursor).getD 0) cursor limit
  exact ⟨slice, rest, by rw [loadEventJournalAfter, hslice]; rfl, hpage⟩

/-- After any calls with cursors that do not decrease, reading on from a cursor at or above
the floor returns what was journalled behind it, and the pruned events lie at or below
the floor. -/
theorem delta_complete (calls : List StoreCall)
    (hsorted : (calls.flatMap StoreCall.cursors).Pairwise (· ≤ ·)) (limit : ℕ) :
    let store := StoreCall.applyAll ({} : MemoryStateStore) calls
    let history := StoreCall.journalled ({} : MemoryStateStore) calls
    (∃ pruned, history = pruned ++ store.journal ∧ ∀ entry ∈ pruned,
      ∃ cursor, journalCursor entry = .ok cursor ∧ cursor ≤ store.journalFloorCursor) ∧
    ∀ cursor, store.journalFloorCursor ≤ cursor → ∃ slices,
      (∀ fuel, store.journal.length < fuel → readPages store limit fuel cursor = some slices) ∧
        Complete history cursor slices := by
  intro store history
  have hkept : Kept store history [] := Kept.calls hsorted (kept_empty _)
  obtain ⟨pruned, hhistory, hbound⟩ := hkept.history
  refine ⟨⟨pruned, hhistory, fun entry hentry ↦ ⟨entry.cursor, hbound entry hentry⟩⟩, ?_⟩
  intro cursor hcursor
  have hload : ∀ cursor, ∃ slice rest,
      MessagingStateStore.loadEventJournalAfter store cursor limit = .ok (some slice) ∧
        Page store.journal cursor slice rest :=
    fun cursor ↦ load_page hkept.journal cursor limit
  obtain ⟨slices, hread, hcomplete⟩ := readPages_complete hload cursor
  refine ⟨slices, fun fuel hfuel ↦ hread fuel ((List.length_filter_le _ _).trans_lt hfuel), ?_,
    hcomplete.apart⟩
  rw [hcomplete.entries, hhistory, behind_append,
    behind_eq_nil fun entry hentry ↦ (hbound entry hentry).2.trans hcursor, List.nil_append]

end MemoryStateStore

namespace JournalDemo

def deleted (cursor : String) (id : String) : JournalEntry :=
  { envelope :=
      { cursor := some cursor, serverTimeMs := 1, event := .messagesDeleted ⟨"room"⟩ [⟨id⟩] }
    audience := [⟨"host"⟩] }

def snapshot (cursor : UInt64) : MessagingSnapshot :=
  { cursor, savedAtMs := 1, state := {} }

def calls : List StoreCall :=
  [.save (snapshot 1), .saveWithEvents (snapshot 3) [deleted "3" "a", deleted "3" "b"],
    .saveWithEvents (snapshot 4) [deleted "4" "c"]]

end JournalDemo

open JournalDemo in
theorem MemoryStateStore.delta_complete_calls :
    ∃ slices, readPages (StoreCall.applyAll ({} : MemoryStateStore) calls) 1 4 1 = some slices ∧
      slices.flatMap (fun slice ↦ slice.entries) =
        [deleted "3" "a", deleted "3" "b", deleted "4" "c"] := by
  have hsorted : (calls.flatMap StoreCall.cursors).Pairwise (· ≤ ·) := by decide
  have hfloor : (StoreCall.applyAll ({} : MemoryStateStore) calls).journalFloorCursor ≤ 1 := by
    decide
  obtain ⟨slices, hread, hcomplete⟩ := (delta_complete calls hsorted 1).2 1 hfloor
  exact ⟨slices, hread 4 (by decide), hcomplete.entries.trans rfl⟩

end Fabushi.Messaging
