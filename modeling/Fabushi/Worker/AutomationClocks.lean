import Fabushi.Library.Result
import Fabushi.Worker.AutomationRuns

/-!
# The clocks of the definitions

For every trigger of every definition that was put, the runs of a first part of its occurrences
are in the journal, and its clock stands at the occurrence after them. An emission that finds
the definition as it was moves one clock by one occurrence.
-/

namespace Fabushi.Worker.Automation

open Interleaving

/-! ## Occurrences -/

def Definition.trigger (codec : Codec) (definition : Definition) (index : ℕ) :
    Option (Option String) :=
  (definition.schedules codec).bind (·[index]?)

def NextOf (codec : Codec) (schedule : String) (first second : ℤ) : Prop :=
  nextRun codec.calendar schedule first = some second

def lastOf (start : ℤ) (dues : List ℤ) : ℤ :=
  dues.getLast?.getD start

def Occurs (codec : Codec) (schedule : String) (start : ℤ) (dues : List ℤ) : Prop :=
  (start :: dues).IsChain (NextOf codec schedule)

theorem occurs_nil (codec : Codec) (schedule : String) (start : ℤ) :
    Occurs codec schedule start [] :=
  List.isChain_singleton _

theorem Occurs.concat {codec : Codec} {schedule : String} {start : ℤ} {dues : List ℤ}
    (h : Occurs codec schedule start dues) {due : ℤ}
    (hdue : NextOf codec schedule (lastOf start dues) due) :
    Occurs codec schedule start (dues ++ [due]) := by
  refine @List.IsChain.append _ _ (start :: dues) [due] h (List.isChain_singleton _) ?_
  intro last hlast next hnext
  rw [List.head?_cons, Option.mem_some_iff] at hnext
  rw [List.getLast?_cons, Option.mem_some_iff] at hlast
  rw [← hnext, ← hlast]
  exact hdue

theorem lastOf_concat (start : ℤ) (dues : List ℤ) (due : ℤ) :
    lastOf start (dues ++ [due]) = due := by
  rw [lastOf, List.getLast?_concat]
  rfl

/-! ## Runs -/

def Change.row (change : Change) (definition : Definition) : DefinitionRow where
  userId := change.userId
  automationId := change.automationId
  agentId := definition.agentId
  definition
  revision := change.revision
  mutationId := change.mutationId
  nextRuns := []
  updatedAt := change.now
  deletedAt := none

def Change.run (codec : Codec) (change : Change) (definition : Definition) (index : ℕ)
    (due : ℤ) : Option RunRow :=
  scheduledRun codec change.userId (change.row definition) index due

def Db.Has (db : Db) (run : RunRow) : Prop :=
  ∃ entered ∈ db.runs, entered.key = run.key ∧ entered.eventDigest = run.eventDigest

def ClientRun (codec : Codec) (calls : Call → Prop) (run : RunRow) : Prop :=
  ∃ event, calls (.createRun run.userId event) ∧ event.runUuid = run.runUuid ∧
    codec.digest event.toJson = some run.eventDigest

def CollisionFree (codec : Codec) : Prop :=
  ∀ user id revision index due user' id' revision' index' due' runUuid,
    scheduledRunId codec user id revision index due = some runUuid →
    scheduledRunId codec user' id' revision' index' due' = some runUuid →
      user = user' ∧ id = id' ∧ revision = revision' ∧ index = index' ∧ due = due'

theorem scheduledRun_eq_some {codec : Codec} {userId : String} {found : DefinitionRow} {index : ℕ}
    {due : ℤ} {run : RunRow} (h : scheduledRun codec userId found index due = some run) :
    run.userId = userId ∧
      scheduledRunId codec userId found.definition.id found.revision index due =
        some run.runUuid := by
  obtain ⟨runUuid, hid, h⟩ := Option.bind_eq_some_iff.mp h
  obtain ⟨eventDigest, -, h⟩ := Option.bind_eq_some_iff.mp h
  cases h
  exact ⟨rfl, hid⟩

theorem Db.Has.mono {db db' : Db} {run : RunRow} (h : db.Has run)
    (hruns : ∀ entered ∈ db.runs, entered ∈ db'.runs) : db'.Has run := by
  obtain ⟨entered, hmem, hsame⟩ := h
  exact ⟨entered, hruns entered hmem, hsame⟩

/-! ## The invariant -/

structure Trigger (codec : Codec) (records : List Record) (change : Change)
    (definition : Definition) (index : ℕ) (schedule : String) : Prop where
  changed : change ∈ changes records
  defined : change.definition = some definition
  scheduled : definition.trigger codec index = some (some schedule)

/-- These are the occurrences of the trigger that its clock has passed. -/
structure Clock (codec : Codec) (s : Recorded) (change : Change) (definition : Definition)
    (index : ℕ) (schedule : String) (dues : List ℤ) : Prop where
  occurs : Occurs codec schedule change.now dues
  entered : ∀ due ∈ dues, ∃ run, change.run codec definition index due = some run ∧ s.1.Has run
  emitted : ∀ emission, .emitted emission ∈ s.2 → emission.revision = change.revision →
    emission.index = index → ∃ due ∈ dues, emission.due = due
  position : ∀ row, s.1.find change.key = some row → row.revision = change.revision →
    definition.enabled = true →
      ∃ next, NextOf codec schedule (lastOf change.now dues) next ∧
        row.nextRuns[index]? = some (some next)

structure Clocks (codec : Codec) (calls : Call → Prop) (s : Recorded) : Prop where
  clock : ∀ change definition index schedule,
    Trigger codec s.2 change definition index schedule →
      ∃ dues, Clock codec s change definition index schedule dues
  source : ∀ emission, .emitted emission ∈ s.2 → ∃ change definition,
    change ∈ changes s.2 ∧ change.revision = emission.revision ∧
      change.run codec definition emission.index emission.due = some emission.run
  origin : ∀ run ∈ s.1.runs,
    ClientRun codec calls run ∨ ∃ emission, .emitted emission ∈ s.2 ∧ emission.run = run
  keys : (s.1.runs.map RunRow.key).Nodup

/-- What an occurrence was found in, and that it is the one its clock stands at. -/
structure Occurred (codec : Codec) (s : Recorded) (emission : Emission) : Prop where
  trigger : ∃ change definition schedule next,
    Trigger codec s.2 change definition emission.index schedule ∧ definition.enabled = true ∧
      change.revision = emission.revision ∧ NextOf codec schedule emission.due next ∧
      emission.positions = emission.nextRuns.set emission.index (some next) ∧
      change.run codec definition emission.index emission.due = some emission.run
  standing : emission.nextRuns[emission.index]? = some (some emission.due)
  due_le : emission.due ≤ emission.now

/-- What an operation is asked to do: a put starts the clocks, and a run comes from a client. -/
def Asked (codec : Codec) (calls : Call → Prop) : Op → Prop
  | .write new _ now => new.definition.initialPositions codec now = some new.nextRuns
  | .insertRun run => ClientRun codec calls run
  | _ => True

variable {codec : Codec} {calls : Call → Prop} {s : Recorded}

theorem Lines.change_unique (h : Lines s) {change change' : Change}
    (hmem : change ∈ changes s.2) (hmem' : change' ∈ changes s.2)
    (heq : change.revision = change'.revision) : change = change' :=
  List.inj_on_of_nodup_map h.fresh hmem hmem' heq

theorem Lines.exists_change (h : Lines s) {key : String × String} {row : DefinitionRow}
    (hrow : s.1.find key = some row) :
    ∃ change ∈ changes s.2, change.key = key ∧ change.stamp = row.stamp := by
  have hcurrent := h.current key
  rw [hrow, Option.map_some] at hcurrent
  obtain ⟨change, hlast, hstamp⟩ := Option.map_eq_some_iff.mp hcurrent.symm
  have hmem := List.mem_of_getLast? hlast
  obtain ⟨hchange, hkey⟩ := List.mem_filter.mp hmem
  exact ⟨change, hchange, by simpa using hkey, hstamp⟩

theorem mem_changes_mono {s s' : Recorded} (h : Keeps s s') {change : Change}
    (hmem : change ∈ changes s.2) : change ∈ changes s'.2 := by
  obtain ⟨more, hmore⟩ := h.records
  rw [← hmore, changes_append]
  exact List.mem_append_left _ hmem

theorem Occurred.mono {s s' : Recorded} (h : Keeps s s') {emission : Emission}
    (hoccurred : Occurred codec s emission) : Occurred codec s' emission := by
  obtain ⟨⟨change, definition, schedule, next, htrigger, hrest⟩, hstanding, hdue⟩ := hoccurred
  exact ⟨⟨change, definition, schedule, next,
    ⟨mem_changes_mono h htrigger.changed, htrigger.defined, htrigger.scheduled⟩, hrest⟩,
    hstanding, hdue⟩

/-! ## Puts and deletes -/

theorem getElem?_mapM {α β : Type} {f : α → Option β} {xs : List α} {ys : List β}
    (h : xs.mapM f = some ys) {i : ℕ} {x : α} (hx : xs[i]? = some x) :
    ∃ y, f x = some y ∧ ys[i]? = some y := by
  have hbeside := Result.mapM_eq_some_iff.mp h
  clear h
  induction hbeside generalizing i with
  | nil => cases hx
  | cons hfirst _ ih =>
      cases i with
      | zero =>
          cases hx
          exact ⟨_, hfirst, rfl⟩
      | succ i => exact ih hx

theorem initialPositions_get {definition : Definition} {now : ℤ} {positions : List (Option ℤ)}
    (h : definition.initialPositions codec now = some positions) {index : ℕ} {schedule : String}
    (htrigger : definition.trigger codec index = some (some schedule))
    (henabled : definition.enabled = true) :
    ∃ next, NextOf codec schedule now next ∧ positions[index]? = some (some next) := by
  obtain ⟨schedules, hschedules, hpositions⟩ := Option.bind_eq_some_iff.mp h
  rw [Definition.trigger, hschedules, Option.bind_some] at htrigger
  obtain ⟨position, hposition, hget⟩ := getElem?_mapM hpositions htrigger
  rw [Definition.initialPosition, if_pos henabled] at hposition
  obtain ⟨next, hnext, rfl⟩ := Option.map_eq_some_iff.mp hposition
  exact ⟨next, hnext, hget⟩

theorem Clock.of_runs {s s' : Recorded} {change : Change} {definition : Definition} {index : ℕ}
    {schedule : String} {dues : List ℤ}
    (h : Clock codec s change definition index schedule dues)
    (hruns : ∀ run ∈ s.1.runs, run ∈ s'.1.runs)
    (hemitted : ∀ emission, .emitted emission ∈ s'.2 → .emitted emission ∈ s.2)
    (hrow : ∀ row, s'.1.find change.key = some row → row.revision = change.revision →
      s.1.find change.key = some row) :
    Clock codec s' change definition index schedule dues where
  occurs := h.occurs
  entered due hdue := by
    obtain ⟨run, hrun, hhas⟩ := h.entered due hdue
    exact ⟨run, hrun, hhas.mono hruns⟩
  emitted emission hmem := h.emitted emission (hemitted emission hmem)
  position row hfind hrevision := h.position row (hrow row hfind hrevision) hrevision

theorem emitted_changed {records : List Record} {emission : Emission} {change : Change}
    (h : Record.emitted emission ∈ records ++ [.changed change]) :
    Record.emitted emission ∈ records := by
  rcases List.mem_append.mp h with h | h
  · exact h
  · cases List.mem_singleton.mp h

theorem changes_changed (records : List Record) (change : Change) :
    changes (records ++ [.changed change]) = changes records ++ [change] :=
  changes_append _ _

theorem Clocks.accepts (h : Clocks codec calls s) {change : Change}
    {nextRuns : List (Option ℤ)} {db : Db} (haccepts : Accepts s.1 change nextRuns db)
    (hfresh : change.revision ∉ (changes s.2).map Change.revision)
    (hpositions : ∀ definition, change.definition = some definition →
      definition.initialPositions codec change.now = some nextRuns) :
    Clocks codec calls (db, s.2 ++ [.changed change]) where
  clock c d index schedule htrigger := by
    obtain ⟨hchanged, hdefined, hscheduled⟩ := htrigger
    rw [changes_changed, List.mem_append, List.mem_singleton] at hchanged
    rcases hchanged with hold | rfl
    · obtain ⟨dues, hclock⟩ := h.clock c d index schedule ⟨hold, hdefined, hscheduled⟩
      refine ⟨dues, hclock.of_runs (fun run hrun ↦ haccepts.runs ▸ hrun)
        (fun _ hmem ↦ emitted_changed hmem) ?_⟩
      intro row hrow hrevision
      by_cases hkey : change.key = c.key
      · obtain ⟨new, hnew, hstamp, -⟩ := haccepts.row
        rw [hkey, hrow] at hnew
        cases hnew
        have hsame : c.revision = change.revision :=
          hrevision.symm.trans (congrArg Stamp.revision hstamp)
        exact absurd (List.mem_map.mpr ⟨c, hold, hsame⟩) hfresh
      · exact (haccepts.others c.key hkey).symm.trans hrow
    · refine ⟨[], occurs_nil _ _ _, nofun, ?_, ?_⟩
      · intro emission hmem hrevision
        obtain ⟨c', -, hc', hrevision', -⟩ := h.source emission (emitted_changed hmem)
        exact absurd (List.mem_map.mpr ⟨c', hc', hrevision'.trans hrevision⟩) hfresh
      · intro row hrow hrevision henabled
        obtain ⟨new, hnew, -, hnext⟩ := haccepts.row
        rw [hrow] at hnew
        cases hnew
        rw [hnext]
        exact initialPositions_get (hpositions d hdefined) hscheduled henabled
  source emission hmem := by
    obtain ⟨c, d, hc, hrest⟩ := h.source emission (emitted_changed hmem)
    refine ⟨c, d, ?_, hrest⟩
    rw [changes_changed]
    exact List.mem_append_left _ hc
  origin run hrun := by
    rw [haccepts.runs] at hrun
    refine (h.origin run hrun).imp_right ?_
    rintro ⟨emission, hmem, heq⟩
    exact ⟨emission, List.mem_append_left _ hmem, heq⟩
  keys := by
    rw [haccepts.runs]
    exact h.keys

/-! ## Emissions -/

theorem insertScheduledRun_cases (db : Db) (emission : Emission) :
    db.insertScheduledRun emission = db ∨
      (∀ run ∈ db.runs, run.key ≠ emission.run.key) ∧
        db.insertScheduledRun emission = { db with runs := db.runs ++ [emission.run] } := by
  unfold Db.insertScheduledRun
  split
  · rcases Table.insertOrIgnore_cases Db.sameRun emission.run db.runs with
      ⟨-, heq⟩ | ⟨hnone, heq⟩
    · rw [heq]
      exact Or.inl rfl
    · rw [heq]
      refine Or.inr ⟨fun run hrun hkey ↦ ?_, rfl⟩
      have hconflict := hnone run hrun
      rw [Db.sameRun, decide_eq_false_iff_not] at hconflict
      exact hconflict hkey
  · exact Or.inl rfl

structure Moves (db : Db) (emission : Emission) (db' : Db) : Prop where
  current : ∃ row ∈ db.definitions, Db.isCurrent emission row = true
  has : db'.Has emission.run
  definitions : db'.definitions =
    Table.update (Db.isCurrent emission) (Db.advance emission) db.definitions
  runs : db'.runs = db.runs ∨
    (∀ run ∈ db.runs, run.key ≠ emission.run.key) ∧ db'.runs = db.runs ++ [emission.run]

theorem has_iff {db : Db} {run : RunRow} : db.Has run ↔ (db.runs.any fun entered ↦
    entered.key = run.key && entered.eventDigest = run.eventDigest) = true := by
  rw [List.any_eq_true]
  refine exists_congr fun entered ↦ and_congr_right fun _ ↦ ?_
  rw [Bool.and_eq_true, decide_eq_true_eq, decide_eq_true_eq]

theorem advanceClock_of_has {db : Db} {emission : Emission} (h : db.Has emission.run) :
    db.advanceClock emission = db.update (Db.isCurrent emission) (Db.advance emission) := by
  rw [Db.advanceClock, if_pos (has_iff.mp h)]

theorem emit_cases (db : Db) (emission : Emission) :
    db.emit emission = db ∨ Moves db emission (db.emit emission) := by
  by_cases hcurrent : ∃ row ∈ db.definitions, Db.isCurrent emission row = true
  · rcases insertScheduledRun_cases db emission with hsame | ⟨hfresh, hgrown⟩
    · by_cases hhas : db.Has emission.run
      · right
        rw [Db.emit, hsame, advanceClock_of_has hhas]
        exact ⟨hcurrent, hhas, rfl, Or.inl rfl⟩
      · left
        rw [Db.emit, hsame, Db.advanceClock, if_neg (has_iff.not.mp hhas)]
    · right
      have hhas : ({ db with runs := db.runs ++ [emission.run] } : Db).Has emission.run :=
        ⟨emission.run, List.mem_append_right _ (List.mem_singleton_self _), rfl, rfl⟩
      rw [Db.emit, hgrown, advanceClock_of_has hhas]
      exact ⟨hcurrent, hhas, rfl, Or.inr ⟨hfresh, rfl⟩⟩
  · left
    have hnone : ∀ row ∈ db.definitions, Db.isCurrent emission row = false := fun row hrow ↦
      Bool.eq_false_of_not_eq_true fun h ↦ hcurrent ⟨row, hrow, h⟩
    have hinsert : db.insertScheduledRun emission = db := by
      rw [Db.insertScheduledRun, if_neg]
      rw [Bool.and_eq_true, not_and_or]
      exact Or.inl fun h ↦ hcurrent (List.any_eq_true.mp h)
    rw [Db.emit, hinsert, Db.advanceClock]
    split
    · rw [Db.update, Table.update_eq_self hnone]
    · rfl

theorem isCurrent_iff {emission : Emission} {row : DefinitionRow} :
    Db.isCurrent emission row = true ↔ row.key = (emission.userId, emission.automationId) ∧
      row.revision = emission.revision ∧ row.deletedAt.isNone = true ∧
        row.nextRuns = emission.nextRuns := by
  simp only [Db.isCurrent, Bool.and_eq_true, decide_eq_true_eq, and_assoc]

theorem Moves.find {db db' : Db} {emission : Emission} (h : Moves db emission db')
    (key : String × String) :
    db'.find key = (db.find key).map fun row ↦
      if Db.isCurrent emission row then Db.advance emission row else row := by
  rw [find_eq, h.definitions, find_eq, Table.find_update]
  exact fun _ ↦ rfl

theorem Moves.mem_runs {db db' : Db} {emission : Emission} (h : Moves db emission db')
    {run : RunRow} (hrun : run ∈ db.runs) : run ∈ db'.runs := by
  rcases h.runs with heq | ⟨-, heq⟩
  · rw [heq]
    exact hrun
  · rw [heq]
    exact List.mem_append_left _ hrun

theorem Moves.current_change {db' : Db} {emission : Emission} (hlines : Lines s)
    (h : Moves s.1 emission db') {change : Change} (hchange : change ∈ changes s.2)
    (hrevision : change.revision = emission.revision) :
    ∃ row, s.1.find change.key = some row ∧ Db.isCurrent emission row = true := by
  obtain ⟨row, hmem, hcurrent⟩ := h.current
  obtain ⟨-, hrow, -, -⟩ := isCurrent_iff.mp hcurrent
  have hfind := find_of_mem hlines.keys hmem
  obtain ⟨change', hchange', hkey, hstamp⟩ := hlines.exists_change hfind
  have hsame : change' = change := by
    apply hlines.change_unique hchange' hchange
    rw [hrevision, ← hrow]
    exact congrArg Stamp.revision hstamp
  rw [hsame] at hkey
  exact ⟨row, hkey ▸ hfind, hcurrent⟩

section

variable {emission : Emission} {db' : Db} {records : List Record}

theorem Clock.moved (hlines : Lines s) {change : Change} {definition : Definition}
    {schedule : String} {dues : List ℤ} {next : ℤ}
    (h : Clock codec s change definition emission.index schedule dues)
    (hchange : change ∈ changes s.2) (hrevision : change.revision = emission.revision)
    (henabled : definition.enabled = true) (hnext : NextOf codec schedule emission.due next)
    (hpositions : emission.positions = emission.nextRuns.set emission.index (some next))
    (hrun : change.run codec definition emission.index emission.due = some emission.run)
    (hstanding : emission.nextRuns[emission.index]? = some (some emission.due))
    (hmoves : Moves s.1 emission db')
    (hmem : ∀ e, .emitted e ∈ records → .emitted e ∈ s.2 ∨ e = emission) :
    ∃ due, Clock codec (db', records) change definition emission.index schedule
      (dues ++ [due]) := by
  obtain ⟨row, hfind, hcurrent⟩ := hmoves.current_change hlines hchange hrevision
  obtain ⟨-, hrow, -, hrowNext⟩ := isCurrent_iff.mp hcurrent
  obtain ⟨stands, hstands, hget⟩ := h.position row hfind (hrow.trans hrevision.symm) henabled
  rw [hrowNext, hstanding] at hget
  cases hget
  refine ⟨emission.due, h.occurs.concat hstands, ?_, ?_, ?_⟩
  · intro due hdue
    rcases List.mem_append.mp hdue with hold | hnew
    · obtain ⟨run, hrun', hhas⟩ := h.entered due hold
      exact ⟨run, hrun', hhas.mono fun _ ↦ hmoves.mem_runs⟩
    · rw [List.mem_singleton.mp hnew]
      exact ⟨emission.run, hrun, hmoves.has⟩
  · intro e he hrevision' hindex
    rcases hmem e he with hold | rfl
    · obtain ⟨due, hdue, heq⟩ := h.emitted e hold hrevision' hindex
      exact ⟨due, List.mem_append_left _ hdue, heq⟩
    · exact ⟨e.due, List.mem_append_right _ (List.mem_singleton_self _), rfl⟩
  · intro row' hfind' hrow' _
    rw [hmoves.find, hfind, Option.map_some] at hfind'
    obtain rfl := Option.some.inj hfind'
    refine ⟨next, ?_, ?_⟩
    · rw [lastOf_concat]
      exact hnext
    · rw [if_pos hcurrent]
      change emission.positions[emission.index]? = _
      rw [hpositions, List.getElem?_set_self]
      exact (List.getElem?_eq_some_iff.mp hstanding).1

theorem Clock.stays {c : Change} {d : Definition} {index : ℕ} {schedule : String}
    {dues : List ℤ} (h : Clock codec s c d index schedule dues)
    (hmoves : Moves s.1 emission db')
    (hother : c.revision = emission.revision → index ≠ emission.index)
    (hpositions : ∃ next, emission.positions = emission.nextRuns.set emission.index next)
    (hmem : ∀ e, .emitted e ∈ records → .emitted e ∈ s.2 ∨ e = emission) :
    Clock codec (db', records) c d index schedule dues where
  occurs := h.occurs
  entered due hdue := by
    obtain ⟨run, hrun, hhas⟩ := h.entered due hdue
    exact ⟨run, hrun, hhas.mono fun _ ↦ hmoves.mem_runs⟩
  emitted e he hrevision hindex := by
    rcases hmem e he with hold | rfl
    · exact h.emitted e hold hrevision hindex
    · exact absurd hindex.symm (hother hrevision.symm)
  position row hfind hrevision henabled := by
    rw [hmoves.find] at hfind
    obtain ⟨old, hold, hrow⟩ := Option.map_eq_some_iff.mp hfind
    split_ifs at hrow with hcurrent
    · -- The row of this clock moves, but not at this index.
      obtain ⟨-, holdRevision, -, hnext⟩ := isCurrent_iff.mp hcurrent
      have hsame : old.revision = c.revision := (congrArg DefinitionRow.revision hrow).trans hrevision
      obtain ⟨next, hstands, hget⟩ := h.position old hold hsame henabled
      obtain ⟨moved, hmoved⟩ := hpositions
      refine ⟨next, hstands, ?_⟩
      rw [← hrow]
      change emission.positions[index]? = _
      rw [hmoved, List.getElem?_set_ne (hother (hsame.symm.trans holdRevision)).symm, ← hnext]
      exact hget
    · rw [← hrow]
      exact h.position old hold ((congrArg DefinitionRow.revision hrow).trans hrevision) henabled

theorem Clocks.moves (hlines : Lines s) (h : Clocks codec calls s)
    (hoccurred : Occurred codec s emission) (hmoves : Moves s.1 emission db')
    (hchanges : changes records = changes s.2)
    (hkeep : ∀ e, .emitted e ∈ s.2 → .emitted e ∈ records)
    (hmem : ∀ e, .emitted e ∈ records → .emitted e ∈ s.2 ∨ e = emission)
    (hgrown : db'.runs ≠ s.1.runs → .emitted emission ∈ records) :
    Clocks codec calls (db', records) := by
  obtain ⟨⟨change, definition, schedule, next, htrigger, henabled, hrevision, hnext, hpositions,
    hrun⟩, hstanding, -⟩ := hoccurred
  constructor
  case clock =>
    intro c d index schedule' htrigger'
    obtain ⟨hchanged, hdefined, hscheduled⟩ := htrigger'
    dsimp only at hchanged
    rw [hchanges] at hchanged
    by_cases hsame : c.revision = emission.revision ∧ index = emission.index
    · obtain ⟨hrevision', rfl⟩ := hsame
      obtain rfl := hlines.change_unique hchanged htrigger.changed
        (hrevision'.trans hrevision.symm)
      obtain rfl := Option.some.inj (hdefined.symm.trans htrigger.defined)
      have hschedule := hscheduled.symm.trans htrigger.scheduled
      cases hschedule
      obtain ⟨dues, hclock⟩ := h.clock _ _ _ _ htrigger
      obtain ⟨due, hmoved⟩ := hclock.moved hlines hchanged hrevision henabled hnext hpositions hrun
        hstanding hmoves hmem
      exact ⟨dues ++ [due], hmoved⟩
    · obtain ⟨dues, hclock⟩ := h.clock c d index schedule' ⟨hchanged, hdefined, hscheduled⟩
      exact ⟨dues, hclock.stays hmoves (fun hc hi ↦ hsame ⟨hc, hi⟩) ⟨_, hpositions⟩ hmem⟩
  case source =>
    intro e he
    dsimp only
    rw [hchanges]
    rcases hmem e he with hold | rfl
    · exact h.source e hold
    · exact ⟨change, definition, htrigger.changed, hrevision, hrun⟩
  case origin =>
    intro run hmemRun
    have hold : run ∈ s.1.runs → ClientRun codec calls run ∨
        ∃ e, Record.emitted e ∈ records ∧ e.run = run := fun hrun ↦
      (h.origin run hrun).imp_right fun ⟨e, he, heq⟩ ↦ ⟨e, hkeep e he, heq⟩
    rcases hmoves.runs with heq | ⟨-, heq⟩
    · exact hold (heq ▸ hmemRun)
    · have hne : db'.runs ≠ s.1.runs := by
        rw [heq]
        exact fun h ↦ List.cons_ne_nil _ _ (List.self_eq_append_right.mp h.symm)
      dsimp only at hmemRun
      rw [heq, List.mem_append, List.mem_singleton] at hmemRun
      rcases hmemRun with hrun' | rfl
      · exact hold hrun'
      · exact Or.inr ⟨emission, hgrown hne, rfl⟩
  case keys =>
    rcases hmoves.runs with heq | ⟨hfresh, heq⟩
    · exact heq ▸ h.keys
    · dsimp only
      rw [heq]
      exact Table.nodup_append_row h.keys hfresh

end

theorem Clocks.exec (hlines : Lines s) (h : Clocks codec calls s) {op : Op}
    (hfresh : FreshRevision s op) (hasked : Asked codec calls op)
    (hoccurred : ∀ emission, op = .emit emission → Occurred codec s emission) :
    Clocks codec calls (recorded Op.exec record op s).1 := by
  cases op with
  | write new base now =>
      change Clocks codec calls (s.1.writeDefinition new base,
        s.2 ++ record s.1 (.write new base now) (s.1.writeDefinition new base))
      rcases hlines.write_cases new base now with hsame | haccepts
      · rw [hsame, record_change rfl, if_pos rfl, List.append_nil]
        exact h
      · rw [hlines.record_accepts hfresh rfl haccepts]
        refine h.accepts haccepts (hfresh _ rfl) fun definition hdefinition ↦ ?_
        cases hdefinition
        exact hasked
  | delete userId automationId base revision mutationId now =>
      change Clocks codec calls
        (s.1.deleteDefinition userId automationId base revision mutationId now,
          s.2 ++ record s.1 (.delete userId automationId base revision mutationId now)
            (s.1.deleteDefinition userId automationId base revision mutationId now))
      rcases hlines.delete_cases userId automationId base revision mutationId now with
        hsame | haccepts
      · rw [hsame, record_change rfl, if_pos rfl, List.append_nil]
        exact h
      · rw [hlines.record_accepts hfresh rfl haccepts]
        exact h.accepts haccepts (hfresh _ rfl) nofun
  | emit emission =>
      change Clocks codec calls (s.1.emit emission,
        s.2 ++ record s.1 (.emit emission) (s.1.emit emission))
      rcases emit_cases s.1 emission with hsame | hmoves
      · rw [hsame, record, if_pos rfl, List.append_nil]
        exact h
      · apply h.moves hlines (hoccurred emission rfl) hmoves
        · simp only [record]
          split
          · rw [List.append_nil]
          · exact changes_emitted _ _
        · exact fun e he ↦ List.mem_append_left _ he
        · intro e he
          refine (List.mem_append.mp he).imp_right fun hnew ↦ ?_
          simp only [record] at hnew
          split at hnew
          · cases hnew
          · cases List.mem_singleton.mp hnew
            rfl
        · intro hne
          refine List.mem_append_right _ ?_
          rcases hmoves.runs with heq | ⟨-, heq⟩
          · exact absurd heq hne
          · simp [record, heq]
  | insertRun run =>
      change Clocks codec calls (s.1.insertRun run, s.2 ++ [])
      rw [List.append_nil]
      have hdefinitions := insertRun_definitions s.1 run
      have hruns : (s.1.insertRun run).runs = s.1.runs ∨
          (∀ entered ∈ s.1.runs, entered.key ≠ run.key) ∧
            (s.1.insertRun run).runs = s.1.runs ++ [run] := by
        unfold Db.insertRun
        split
        · rcases Table.insertOrIgnore_cases Db.sameRun run s.1.runs with ⟨-, heq⟩ | ⟨hnone, heq⟩
          · exact Or.inl heq
          · refine Or.inr ⟨fun entered hentered hkey ↦ ?_, heq⟩
            have hconflict := hnone entered hentered
            rw [Db.sameRun, decide_eq_false_iff_not] at hconflict
            exact hconflict hkey
        · exact Or.inl rfl
      have hmono : ∀ entered ∈ s.1.runs, entered ∈ (s.1.insertRun run).runs := by
        intro entered hentered
        rcases hruns with heq | ⟨-, heq⟩
        · rw [heq]
          exact hentered
        · rw [heq]
          exact List.mem_append_left _ hentered
      constructor
      case clock =>
        intro c d index schedule htrigger
        obtain ⟨dues, hclock⟩ := h.clock c d index schedule htrigger
        refine ⟨dues, hclock.of_runs hmono (fun _ he ↦ he) fun row hrow _ ↦ ?_⟩
        rw [find_eq, hdefinitions, ← find_eq] at hrow
        exact hrow
      case source => exact h.source
      case origin =>
        intro entered hentered
        dsimp only at hentered
        rcases hruns with heq | ⟨-, heq⟩
        · exact h.origin entered (heq ▸ hentered)
        · rw [heq, List.mem_append, List.mem_singleton] at hentered
          rcases hentered with hold | rfl
          · exact h.origin entered hold
          · exact Or.inl hasked
      case keys =>
        dsimp only
        rcases hruns with heq | ⟨hfresh', heq⟩
        · exact heq ▸ h.keys
        · rw [heq]
          exact Table.nodup_append_row h.keys hfresh'
  | row userId automationId =>
      change Clocks codec calls (s.1, s.2 ++ [])
      rw [List.append_nil]
      exact h
  | dueRow userId now =>
      change Clocks codec calls (s.1, s.2 ++ [])
      rw [List.append_nil]
      exact h
  | readRun userId runUuid =>
      change Clocks codec calls (s.1, s.2 ++ [])
      rw [List.append_nil]
      exact h

end Fabushi.Worker.Automation
