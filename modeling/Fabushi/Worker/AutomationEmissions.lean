import Fabushi.Worker.AutomationClocks

/-!
# Emissions along interleaved requests

What a tick emits was found in a definition at the occurrence its clock stood at. So, whatever
runs in between, the clocks of all definitions go on one occurrence at a time, and the runs in
the journal are those that the clocks have passed and those that clients entered.
-/

namespace Fabushi.Worker.Automation

open Interleaving

/-! ## What a tick finds -/

theorem mem_of_earliest {entries : List (ℕ × ℤ)} {entry : ℕ × ℤ}
    (h : earliest entries = some entry) : entry ∈ entries := by
  induction entries generalizing entry with
  | nil => cases h
  | cons first entries ih =>
      rw [earliest] at h
      cases hrest : earliest entries with
      | none =>
          rw [hrest] at h
          exact Option.some.inj h ▸ List.mem_cons_self
      | some best =>
          rw [hrest] at h
          dsimp only at h
          split_ifs at h
          · exact Option.some.inj h ▸ List.mem_cons_of_mem _ (ih hrest)
          · exact Option.some.inj h ▸ List.mem_cons_self

theorem firstDue_spec {positions : List (Option ℤ)} {now : ℤ} {index : ℕ} {due : ℤ}
    (h : firstDue positions now = some (index, due)) :
    positions[index]? = some (some due) ∧ due ≤ now := by
  obtain ⟨⟨position, found⟩, hmem, hfound⟩ := List.mem_filterMap.mp (mem_of_earliest h)
  obtain ⟨due', hfilter, hpair⟩ := Option.map_eq_some_iff.mp hfound
  obtain ⟨rfl, rfl⟩ := Prod.mk.inj hpair
  obtain ⟨rfl, hle⟩ := Option.filter_eq_some_iff.mp hfilter
  rw [List.mem_zipIdx_iff_getElem?] at hmem
  exact ⟨hmem, by simpa using hle⟩

theorem dueRow_spec {db : Db} {userId : String} {now : ℤ} {found : DefinitionRow}
    (h : db.dueRow userId now = some found) :
    found ∈ db.definitions ∧ found.userId = userId ∧ found.deletedAt.isNone = true := by
  have hmem := (List.mem_insertionSort _).mp (List.mem_of_head? h)
  obtain ⟨hmem, hdue⟩ := List.mem_filter.mp hmem
  simp only [Bool.and_eq_true, decide_eq_true_eq] at hdue
  exact ⟨hmem, hdue.1.1, hdue.1.2⟩

structure Found (codec : Codec) (userId : String) (now : ℤ) (found : DefinitionRow)
    (emission : Emission) : Prop where
  enabled : found.definition.enabled = true
  first : firstDue found.nextRuns now = some (emission.index, emission.due)
  next : ∃ schedule next, found.definition.trigger codec emission.index = some (some schedule) ∧
    NextOf codec schedule emission.due next ∧
    emission.positions = emission.nextRuns.set emission.index (some next)
  run : scheduledRun codec userId found emission.index emission.due = some emission.run
  revision : emission.revision = found.revision
  nextRuns : emission.nextRuns = found.nextRuns
  now : emission.now = now

theorem found_of_occurrence {codec : Codec} {userId : String} {now : ℤ} {found : DefinitionRow}
    {emission : Emission} (h : occurrence codec userId now found = .ok emission) :
    Found codec userId now found emission := by
  unfold occurrence at h
  split at h
  · cases h
  rename_i hvalid
  split at h
  · cases h
  rename_i index due hfirst
  split at h
  · cases h
  rename_i schedules hschedules
  split at h
  · cases h
  rename_i schedule hschedule
  split at h
  · cases h
  rename_i next hnext
  split at h
  · cases h
  rename_i run hrun
  cases h
  constructor
  case enabled =>
    simp only [Bool.or_eq_true, not_or, Bool.not_eq_true', Bool.not_eq_false] at hvalid
    exact hvalid.1.1
  case first => exact hfirst
  case next =>
    refine ⟨schedule, next, ?_, hnext, rfl⟩
    rw [Definition.trigger, hschedules, Option.bind_some]
    exact Option.join_eq_some_iff.mp hschedule
  case run => exact hrun
  case revision => rfl
  case nextRuns => rfl
  case now => rfl

variable {codec : Codec} {calls : Call → Prop} {s : Recorded}

theorem Found.occurred (hlines : Lines s) {userId : String} {now : ℤ} {found : DefinitionRow}
    {emission : Emission} (hdue : s.1.dueRow userId now = some found)
    (h : Found codec userId now found emission) : Occurred codec s emission := by
  obtain ⟨hmem, huser, hlive⟩ := dueRow_spec hdue
  obtain ⟨change, hchange, hkey, hstamp⟩ := hlines.exists_change (find_of_mem hlines.keys hmem)
  obtain ⟨hstanding, hle⟩ := firstDue_spec h.first
  obtain ⟨schedule, next, htrigger, hnext, hpositions⟩ := h.next
  have hrevision : change.revision = found.revision := congrArg Stamp.revision hstamp
  have hdefinition : change.definition = some found.definition := by
    have heq := congrArg Stamp.definition hstamp
    change change.definition = if _ then _ else _ at heq
    rwa [if_pos hlive] at heq
  have hchangeUser : change.userId = userId := (congrArg Prod.fst hkey).trans huser
  refine ⟨⟨change, found.definition, schedule, next, ⟨hchange, hdefinition, htrigger⟩, h.enabled,
    hrevision.trans h.revision.symm, hnext, hpositions, ?_⟩, ?_, ?_⟩
  · rw [Change.run, hchangeUser, ← h.run, scheduledRun, scheduledRun]
    simp only [Change.row, hrevision]
  · rw [h.nextRuns]
    exact hstanding
  · rw [h.now]
    exact hle

/-! ## Every handler is safe -/

section

variable (codec : Codec) (calls : Call → Prop)

def clockContract : Contract Op Op.Answer (Call × Reply) Recorded where
  inv s := Lines s ∧ Clocks codec calls s
  guarantee := Keeps
  admits s op := FreshRevision s op ∧ Asked codec calls op
  shows s op _ _ := ∀ emission, op = .emit emission → Occurred codec s emission
  refl := .refl
  trans _ _ _ := .trans

abbrev SafeClock : Prog Op Op.Answer (Call × Reply) → Recorded → Prop :=
  Safe (recorded Op.exec record) (clockContract codec calls)

def Quiet (op : Op) : Prop :=
  Asked codec calls op ∧ ∀ emission, op ≠ .emit emission

end

theorem safe_op {op : Op} {next : op.Answer → Prog Op Op.Answer (Call × Reply)}
    (h : ∀ s', Lines s' → Keeps s s' →
      (∀ emission, op = .emit emission → Occurred codec s' emission) ∧
        SafeClock codec calls (next (op.exec s'.1).2) (recorded Op.exec record op s').1) :
    SafeClock codec calls (.call op next) s := by
  rintro s' hkeeps ⟨hlines, hclocks⟩ ⟨hfresh, hasked⟩
  obtain ⟨hoccurred, hnext⟩ := h s' hlines hkeeps
  obtain ⟨hlines', hkeeps'⟩ := hlines.exec hfresh
  exact ⟨⟨hlines', hclocks.exec hlines hfresh hasked hoccurred⟩, hkeeps', hoccurred, hnext⟩

theorem safe_of_quiet {p : Prog Op Op.Answer (Call × Reply)} {asked : Call → Prop}
    (hp : Only (Quiet codec asked) p) (s : Recorded) : SafeClock codec calls p s := by
  induction p generalizing s with
  | ret r => trivial
  | call op next ih =>
      refine safe_op fun s' _ _ ↦ ⟨fun emission hop ↦ absurd hop (hp.1.2 emission), ?_⟩
      exact ih _ (hp.2 _) _

theorem safe_emitAnd {call : Call} {found : DefinitionRow} {emitted : ℕ} {again : Handler}
    {emission : Emission} (hagain : ∀ s, SafeClock codec calls (tagged call again) s)
    (hoccurred : Occurred codec s emission) :
    SafeClock codec calls (tagged call (emitAnd found emitted again emission)) s := by
  refine safe_op fun s' _ hkeeps ↦ ⟨?_, ?_⟩
  · intro emission' hop
    cases hop
    exact hoccurred.mono hkeeps
  · refine safe_op fun s'' _ _ ↦ ⟨nofun, ?_⟩
    simp only [Op.exec]
    cases s''.1.row emission.userId emission.automationId with
    | none => exact hagain _
    | some current =>
        change SafeClock codec calls (tagged call (if _ then _ else again)) _
        split
        · trivial
        · exact hagain _

theorem safe_tickLoop (call : Call) (userId : String) (now : ℤ) (rounds emitted : ℕ)
    (s : Recorded) :
    SafeClock codec calls (tagged call (tickLoop codec userId now rounds emitted)) s := by
  induction rounds generalizing emitted s with
  | zero => trivial
  | succ rounds ih =>
      refine safe_op fun s' hlines _ ↦ ⟨nofun, ?_⟩
      simp only [Op.exec]
      cases hdue : s'.1.dueRow userId now with
      | none => trivial
      | some found =>
          change SafeClock codec calls (tagged call (tickRow codec userId now emitted _ found)) _
          have hsame : (recorded Op.exec record (.dueRow userId now) s').1 = s' :=
            Prod.ext rfl (List.append_nil _)
          rw [hsame, tickRow]
          split
          · trivial
          · rename_i emission hoccurrence
            apply safe_emitAnd (ih (emitted + 1))
            exact (found_of_occurrence hoccurrence).occurred hlines hdue

/-! ## What a handler asks for -/

theorem quiet_answerRecord (call : Call) (userId automationId mutation : String)
    (missing conflict : Reply) :
    Only (Quiet codec calls)
      (tagged call (answerRecord userId automationId mutation missing conflict)) := by
  refine ⟨⟨trivial, nofun⟩, ?_⟩
  rintro (_ | found) <;> trivial

theorem quiet_writeAndAnswer (call : Call) (userId : String) (input : PutDefinition)
    (revision mutation : String) (now updatedAt : ℤ) :
    Only (Quiet codec calls)
      (tagged call (writeAndAnswer codec userId input revision mutation now updatedAt)) := by
  unfold writeAndAnswer
  split
  · trivial
  · rename_i nextRuns hpositions
    exact ⟨⟨hpositions, nofun⟩, fun _ ↦ quiet_answerRecord ..⟩

theorem quiet_automationDefinitionPut (call : Call) (userId path : String) (input : PutDefinition)
    (revision : String) (now updatedAt : ℤ) :
    Only (Quiet codec calls)
      (tagged call (automationDefinitionPut codec userId path input revision now updatedAt)) := by
  unfold automationDefinitionPut
  split
  · trivial
  split
  · trivial
  rename_i mutation _
  refine ⟨⟨trivial, nofun⟩, ?_⟩
  rintro (_ | found)
  · exact quiet_writeAndAnswer ..
  · change Only _ (tagged call (if _ then _ else _))
    split
    · trivial
    · exact quiet_writeAndAnswer ..

theorem quiet_automationDefinitionDelete (call : Call)
    (userId automationId baseRevision revision : String) (now : ℤ) :
    Only (Quiet codec calls) (tagged call
      (automationDefinitionDelete codec userId automationId baseRevision revision now)) := by
  unfold automationDefinitionDelete
  split
  · trivial
  split
  · trivial
  · exact ⟨⟨trivial, nofun⟩, fun _ ↦ quiet_answerRecord ..⟩

theorem quiet_automationRunCreate {userId : String} {event : RunEvent}
    (hcall : calls (.createRun userId event)) (call : Call) :
    Only (Quiet codec calls) (tagged call (automationRunCreate codec userId event)) := by
  unfold automationRunCreate
  split
  · trivial
  split
  · trivial
  · rename_i eventDigest hdigest
    refine ⟨⟨⟨event, hcall, rfl, hdigest⟩, nofun⟩, fun _ ↦ ⟨⟨trivial, nofun⟩, ?_⟩⟩
    rintro (_ | row) <;> trivial

theorem asked_tickLoop (call : Call) (userId : String) (now : ℤ) (rounds emitted : ℕ) :
    Only (Asked codec calls) (tagged call (tickLoop codec userId now rounds emitted)) := by
  induction rounds generalizing emitted with
  | zero => trivial
  | succ rounds ih =>
      refine ⟨trivial, ?_⟩
      rintro (_ | found)
      · trivial
      · change Only _ (tagged call (tickRow codec userId now emitted _ found))
        unfold tickRow
        split
        · trivial
        · refine ⟨trivial, fun _ ↦ ⟨trivial, ?_⟩⟩
          rintro (_ | current)
          · exact ih (emitted + 1)
          · change Only _ (tagged call (if _ then _ else _))
            split
            · trivial
            · exact ih (emitted + 1)

theorem Quiet.asked {p : Prog Op Op.Answer (Call × Reply)} (hp : Only (Quiet codec calls) p) :
    Only (Asked codec calls) p := by
  induction p with
  | ret r => trivial
  | call op next ih => exact ⟨hp.1.1, fun answer ↦ ih answer (hp.2 answer)⟩

theorem quiet_serve {call : Call} (hcall : calls call) :
    (∃ userId now, call = .tick userId now) ∨ Only (Quiet codec calls) (serve codec call) := by
  cases call with
  | put userId path input revision now updatedAt =>
      exact Or.inr (quiet_automationDefinitionPut ..)
  | delete userId automationId baseRevision revision now =>
      exact Or.inr (quiet_automationDefinitionDelete ..)
  | tick userId now => exact Or.inl ⟨userId, now, rfl⟩
  | createRun userId event => exact Or.inr (quiet_automationRunCreate hcall _)

theorem asked_serve {call : Call} (hcall : calls call) :
    Only (Asked codec calls) (serve codec call) := by
  rcases @quiet_serve codec calls call hcall with ⟨userId, now, rfl⟩ | hquiet
  · exact asked_tickLoop _ userId (now * 1000) 100 0
  · exact Quiet.asked hquiet

theorem safeClock_serve (call : Call) (s : Recorded) :
    SafeClock codec calls (serve codec call) s := by
  rcases @quiet_serve codec (fun _ ↦ True) call trivial with ⟨userId, now, rfl⟩ | hquiet
  · exact safe_tickLoop _ userId (now * 1000) 100 0 s
  · exact safe_of_quiet hquiet s

/-! ## Every run -/

theorem clocks_start : Clocks codec calls ({}, []) where
  clock change _ _ _ htrigger := by
    have hmem := htrigger.changed
    cases hmem
  source _ hmem := by cases hmem
  origin _ hmem := by cases hmem
  keys := List.nodup_nil

theorem FreshRun.clockAdmitted {events : List (Event Call)} (h : FreshRun codec events) :
    Runs.Along (next codec) (Admits (clockContract codec (Started events)).admits) start
      events := by
  have hasked : Runs.Along (next codec) (Admits fun _ op ↦ Asked codec (Started events) op)
      start events := by
    apply along_only _ _ (fun call hcall ↦ asked_serve hcall) (by simp [start])
    intro e he
    cases e with
    | start call => exact he
    | step i => trivial
    | stop i => trivial
  apply (h.and hasked).imp
  intro w e hboth i op next he hp
  exact ⟨hboth.1 i op next he hp, hboth.2 i op next he hp⟩

/-- The runs of the occurrences are entered once, and in order: for every trigger, those of a
first part of its occurrences, and none of a later one unless a client has entered it. -/
structure EmittedInOrder (codec : Codec) (calls : Call → Prop) (s : Recorded) : Prop where
  trigger : ∀ change definition index schedule,
    Trigger codec s.2 change definition index schedule →
      ∃ dues, Clock codec s change definition index schedule dues ∧
        (change.now :: dues).Pairwise (· < ·) ∧
        ∀ due run, change.run codec definition index due = some run →
          ∀ entered ∈ s.1.runs, entered.key = run.key →
            due ∈ dues ∨ ClientRun codec calls entered
  once : (s.1.runs.map RunRow.key).Nodup

theorem Occurs.increasing {schedule : String} {start : ℤ} {dues : List ℤ}
    (h : Occurs codec schedule start dues) : (start :: dues).Pairwise (· < ·) := by
  apply List.isChain_iff_pairwise.mp
  exact List.IsChain.imp (fun first second hnext ↦ lt_nextRun codec.calendar hnext) h

theorem Clocks.emittedInOrder (h : Clocks codec calls s) (hfree : CollisionFree codec) :
    EmittedInOrder codec calls s where
  trigger change definition index schedule htrigger := by
    obtain ⟨dues, hclock⟩ := h.clock change definition index schedule htrigger
    refine ⟨dues, hclock, hclock.occurs.increasing, ?_⟩
    intro due run hrun entered hentered hkey
    refine (h.origin entered hentered).symm.imp_left ?_
    rintro ⟨emission, hemitted, rfl⟩
    obtain ⟨change', definition', -, hrevision, hrun'⟩ := h.source emission hemitted
    obtain ⟨-, hid⟩ := scheduledRun_eq_some hrun
    obtain ⟨-, hid'⟩ := scheduledRun_eq_some hrun'
    have huuid : emission.run.runUuid = run.runUuid := congrArg Prod.snd hkey
    rw [huuid] at hid'
    obtain ⟨-, -, hsame, hindex, hdue⟩ := hfree _ _ _ _ _ _ _ _ _ _ _ hid' hid
    obtain ⟨due', hmem, heq⟩ := hclock.emitted emission hemitted (hrevision.symm.trans hsame) hindex
    rwa [← hdue, heq]
  once := h.keys

/-- Whatever the order of ticks and requests, the runs of every trigger are entered in the order
of its occurrences without a gap, and its clock stands at the first one that is not entered; only
clients enter the run of a later one. A tick enters the run of an occurrence at which the clock
of the current revision stands, when it is due. -/
theorem emitted_in_order (hfree : CollisionFree codec) {events : List (Event Call)}
    (hfresh : FreshRun codec events) :
    EmittedInOrder codec (Started events) (world codec events).db ∧
      ∀ w e emission rest, Runs.Takes (next codec) start events w e →
        w.Performs (recorded Op.exec record) e (.emit emission) rest →
          Occurred codec w.db emission ∧
            ((w.next (recorded Op.exec record) (serve codec) e).db.1.runs ≠ w.db.1.runs →
              ∃ row ∈ w.db.1.definitions, Db.isCurrent emission row = true) := by
  have hstart : (clockContract codec (Started events)).inv ({}, []) := ⟨lines_start, clocks_start⟩
  have hsafe := worldSafe_run (fun call s _ ↦ safeClock_serve call s) hstart
    hfresh.clockAdmitted
  refine ⟨hsafe.inv.2.emittedInOrder hfree, ?_⟩
  intro w e emission rest htakes hperforms
  obtain ⟨hw, hadmits⟩ := worldSafe_takes (fun call s _ ↦ safeClock_serve call s) hstart
    hfresh.clockAdmitted htakes
  refine ⟨(hw.performs hperforms hadmits).2 emission rfl, fun hgrown ↦ ?_⟩
  rw [hperforms.db_next] at hgrown
  rcases emit_cases w.db.1 emission with hsame | hmoves
  · exact absurd (congrArg Db.runs hsame) hgrown
  · exact hmoves.current

/-! ## A run that a client enters ahead of the clock -/

section Demo

def isDemoRun : Json → Bool
  | .object [(_, .string user), (_, .string id), (_, .string revision), (_, .number index), _] =>
      user = "22" && id = "routine-1" && revision = "definition-a" && index = "0"
  | _ => true

def clockCodec : Codec where
  calendar := demoCalendar
  digest value := if isDemoRun value then demoDigest value else none
  encodedLen _ := some 184

theorem scheduledRunId_clockCodec {user id revision runUuid : String} {index : ℕ} {due : ℤ}
    (h : scheduledRunId clockCodec user id revision index due = some runUuid) :
    (user, id, revision, index) = ("22", "routine-1", "definition-a", 0) ∧
      ((due = 1000 ∧ runUuid =
          "scheduled-c4cab494119868471a30b69b6ab12396d5338c3a22b495297ca754d30aa5d6fc") ∨
        due = 2000 ∧ runUuid =
          "scheduled-d7f8a16a7855cfae085d3b49b083aa9755dbb21bfe6d22634439685ccb4997b2") := by
  obtain ⟨digest, hdigest, huuid⟩ := Option.map_eq_some_iff.mp h
  change (if (user = "22" && id = "routine-1" && revision = "definition-a" &&
    toString index = "0") = true then _ else _) = _ at hdigest
  split_ifs at hdigest with hown
  simp only [Bool.and_eq_true, decide_eq_true_eq] at hown
  obtain ⟨⟨⟨rfl, rfl⟩, rfl⟩, hindex⟩ := hown
  have hzero : index = 0 := Nat.repr_injective hindex
  refine ⟨by rw [hzero], ?_⟩
  unfold demoDigest at hdigest
  simp [Json.get] at hdigest
  split at hdigest
  · rename_i hdue
    have hdue : due.repr = "1000" := Json.number.inj (Option.some.inj hdue)
    exact Or.inl ⟨Int.repr_injective hdue, by rw [← huuid, ← Option.some.inj hdigest]; rfl⟩
  · rename_i hdue
    have hdue : due.repr = "2000" := Json.number.inj (Option.some.inj hdue)
    exact Or.inr ⟨Int.repr_injective hdue, by rw [← huuid, ← Option.some.inj hdigest]; rfl⟩
  all_goals contradiction

theorem clockCodec_collisionFree : CollisionFree clockCodec := by
  intro user id revision index due user' id' revision' index' due' runUuid h h'
  obtain ⟨hown, hdue⟩ := scheduledRunId_clockCodec h
  obtain ⟨hown', hdue'⟩ := scheduledRunId_clockCodec h'
  obtain ⟨rfl, rfl, rfl, rfl⟩ := by simpa using hown.trans hown'.symm
  refine ⟨rfl, rfl, rfl, rfl, ?_⟩
  rcases hdue with ⟨rfl, rfl⟩ | ⟨rfl, rfl⟩ <;> rcases hdue' with ⟨rfl, heq⟩ | ⟨rfl, heq⟩ <;>
    first | rfl | exact absurd heq (by decide)

def clockHistory : List (Event Call) :=
  [.start (demoPut "definition-a"), .step 0, .step 0, .step 0, .start (.tick "22" 1), .step 1,
    .step 1]

theorem emitted_in_order_demo :
    FreshRun clockCodec clockHistory ∧
      EmittedInOrder clockCodec (Started clockHistory) (world clockCodec clockHistory).db ∧
      (world clockCodec clockHistory).db.1.runs.map (fun run ↦ run.event.scheduledForMs) =
        [some 1000] := by
  have hfresh : FreshRun clockCodec clockHistory := by decide +kernel
  exact ⟨hfresh, (emitted_in_order clockCodec_collisionFree hfresh).1, by decide +kernel⟩

/-- The runs of a trigger in the journal are those of a first part of its occurrences. -/
def ExactlyFirst (codec : Codec) (s : Recorded) : Prop :=
  ∀ change definition index schedule, Trigger codec s.2 change definition index schedule →
    ∃ dues, Occurs codec schedule change.now dues ∧
      ∀ due run, change.run codec definition index due = some run → (s.1.Has run ↔ due ∈ dues)

def secondRun : RunEvent where
  runUuid := "scheduled-d7f8a16a7855cfae085d3b49b083aa9755dbb21bfe6d22634439685ccb4997b2"
  sandAgentId := "agent-1"
  automationId := "routine-1"
  timestampMs := 2000
  definitionRevision := some "definition-a"
  scheduledForMs := some 2000
  event := none

def earlyHistory : List (Event Call) :=
  [.start (demoPut "definition-a"), .step 0, .step 0, .step 0,
    .start (.createRun "22" secondRun), .step 1, .step 1]

def earlyChange : Change where
  userId := "22"
  automationId := "routine-1"
  base := none
  revision := "definition-a"
  mutationId := "f4550a9a02042c4b36ef69a64f226f9dbe1b6dd523a2188d32950fa218cc17d8"
  definition := some demoDefinition
  now := 0

def hasRunOf (db : Db) (due : ℤ) : Bool :=
  (earlyChange.run clockCodec demoDefinition 0 due).any fun run ↦ db.runs.any fun entered ↦
    entered.key = run.key && entered.eventDigest = run.eventDigest

theorem exists_of_hasRunOf {db : Db} {due : ℤ} (h : hasRunOf db due = true) :
    ∃ run, earlyChange.run clockCodec demoDefinition 0 due = some run ∧ db.Has run := by
  unfold hasRunOf at h
  cases hrun : earlyChange.run clockCodec demoDefinition 0 due with
  | none =>
      rw [hrun] at h
      cases h
  | some run =>
      rw [hrun, Option.any_some] at h
      exact ⟨run, rfl, has_iff.mpr h⟩

/-- A client may enter the run of the second occurrence before the clock enters the first. -/
theorem not_exactlyFirst_early :
    FreshRun clockCodec earlyHistory ∧ CollisionFree clockCodec ∧
      ¬ ExactlyFirst clockCodec (world clockCodec earlyHistory).db := by
  refine ⟨by decide +kernel, clockCodec_collisionFree, fun hfirst ↦ ?_⟩
  have hchanges : changes (world clockCodec earlyHistory).db.2 = [earlyChange] := by rfl
  obtain ⟨dues, hoccurs, hiff⟩ := hfirst earlyChange demoDefinition 0 "@every 1s"
    ⟨hchanges ▸ List.mem_singleton_self _, rfl, by decide +kernel⟩
  have hsecond : hasRunOf (world clockCodec earlyHistory).db.1 2000 = true := by decide +kernel
  obtain ⟨run, hrun, hhas⟩ := exists_of_hasRunOf hsecond
  have hmem := (hiff 2000 run hrun).mp hhas
  cases dues with
  | nil => cases hmem
  | cons due dues =>
      have hnext : nextRun clockCodec.calendar "@every 1s" 0 = some due :=
        (List.isChain_cons_cons.mp hoccurs).1
      have hfirstDue : nextRun clockCodec.calendar "@every 1s" 0 = some 1000 := by decide +kernel
      obtain rfl := Option.some.inj (hfirstDue.symm.trans hnext)
      have hsome : (earlyChange.run clockCodec demoDefinition 0 1000).isSome = true := by
        decide +kernel
      obtain ⟨first, hrunFirst⟩ := Option.isSome_iff_exists.mp hsome
      have hfirstHas := has_iff.mp ((hiff 1000 first hrunFirst).mpr List.mem_cons_self)
      have hmissing : hasRunOf (world clockCodec earlyHistory).db.1 1000 = false := by
        decide +kernel
      rw [hasRunOf, hrunFirst, Option.any_some, hfirstHas] at hmissing
      cases hmissing

end Demo

end Fabushi.Worker.Automation
