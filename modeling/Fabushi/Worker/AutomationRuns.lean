import Fabushi.Worker.AutomationLines

/-!
# Definitions along interleaved requests

The handlers, run in any order and stopped anywhere, keep the lines of the definitions. A
request that is answered with a record has just read it, and it is the last of its line.
-/

namespace Fabushi.Worker.Automation

open Interleaving

section

variable (codec : Codec) (calls : Call → Prop)

def Requested (op : Op) : Prop :=
  ∀ change ∈ op.change, ∃ call, calls call ∧ call.change codec = some change

structure History (s : Recorded) : Prop where
  lines : Lines s
  requested : ∀ change ∈ changes s.2, ∃ call, calls call ∧ call.change codec = some change

/-- The row is the record of the request: it has the mutation that the request asks for. -/
def Call.Owns (call : Call) (row : DefinitionRow) : Prop :=
  ∃ change, call.change codec = some change ∧ change.key = row.key ∧
    change.mutationId = row.mutationId

/-- A record is answered by the statement that reads it. -/
def Answers (s : Recorded) (op : Op) (rest : Prog Op Op.Answer (Call × Reply)) : Prop :=
  ∀ call row, rest = .ret (call, .record row) →
    op = .row row.userId row.automationId ∧ s.1.find row.key = some row ∧ call.Owns codec row

def lineContract : Contract Op Op.Answer (Call × Reply) Recorded where
  inv := History codec calls
  guarantee := Keeps
  admits s op := FreshRevision s op ∧ Requested codec calls op
  shows s op _ rest := Answers codec s op rest
  refl := .refl
  trans _ _ _ := .trans

end

variable {codec : Codec} {calls : Call → Prop}

theorem mem_changes_record {op : Op} {change : Change} {db db' : Db}
    (h : change ∈ changes (record db op db')) : op.change = some change := by
  cases hop : op.change with
  | none =>
      cases op with
      | emit emission =>
          simp only [record] at h
          split at h <;> simp [changes, Record.change] at h
      | write new base now => cases hop
      | delete userId automationId base revision mutationId now => cases hop
      | _ => simp [record, hop, changes] at h
  | some requested =>
      rw [record_change hop] at h
      split at h
      · simp [changes] at h
      · rw [List.mem_singleton.mp (show change ∈ [requested] from h)]

theorem History.exec {s : Recorded} (h : History codec calls s) {op : Op}
    (hfresh : FreshRevision s op) (hop : Requested codec calls op) :
    History codec calls (recorded Op.exec record op s).1 ∧
      Keeps s (recorded Op.exec record op s).1 := by
  obtain ⟨hlines, hkeeps⟩ := h.lines.exec hfresh
  refine ⟨⟨hlines, ?_⟩, hkeeps⟩
  intro change hchange
  rw [recorded, changes_append, List.mem_append] at hchange
  rcases hchange with hold | hnew
  · exact h.requested change hold
  · exact hop change (mem_changes_record hnew)

/-! ## Every handler is safe -/

abbrev SafeLine (codec : Codec) (calls : Call → Prop) :
    Prog Op Op.Answer (Call × Reply) → Recorded → Prop :=
  Safe (recorded Op.exec record) (lineContract codec calls)

theorem safe_next {op : Op} {next : op.Answer → Prog Op Op.Answer (Call × Reply)} {s : Recorded}
    (h : ∀ s, Answers codec s op (next (op.exec s.1).2) ∧
      SafeLine codec calls (next (op.exec s.1).2) (recorded Op.exec record op s).1) :
    SafeLine codec calls (.call op next) s := by
  intro s' _ hinv hadmits
  obtain ⟨hinv', hkeeps⟩ := History.exec hinv hadmits.1 hadmits.2
  exact ⟨hinv', hkeeps, (h s').1, (h s').2⟩

def Reply.isRecord : Reply → Bool
  | .record _ => true
  | _ => false

def Recordless : Prog Op Op.Answer (Call × Reply) → Prop
  | .ret (_, reply) => reply.isRecord = false
  | .call _ next => ∀ answer, Recordless (next answer)

theorem Recordless.answers {p : Prog Op Op.Answer (Call × Reply)} (hp : Recordless p)
    (s : Recorded) (op : Op) : Answers codec s op p := by
  rintro call row rfl
  cases hp

theorem Recordless.safe {p : Prog Op Op.Answer (Call × Reply)} (hp : Recordless p)
    (s : Recorded) : SafeLine codec calls p s := by
  induction p generalizing s with
  | ret r => trivial
  | call op next ih => exact safe_next fun s ↦ ⟨(hp _).answers s op, ih _ (hp _) _⟩

theorem recordless_tickRow {call : Call} {userId : String} {now : ℤ} {emitted : ℕ}
    {again : Handler} (hagain : Recordless (tagged call again)) (found : DefinitionRow) :
    Recordless (tagged call (tickRow codec userId now emitted again found)) := by
  unfold tickRow
  split
  · rfl
  · rintro ⟨⟩ (_ | current)
    · exact hagain
    · change Recordless (tagged call (if _ then _ else again))
      split
      · rfl
      · exact hagain

theorem recordless_tickLoop (call : Call) (userId : String) (now : ℤ) (rounds emitted : ℕ) :
    Recordless (tagged call (tickLoop codec userId now rounds emitted)) := by
  induction rounds generalizing emitted with
  | zero => rfl
  | succ rounds ih =>
      rintro (_ | found)
      · rfl
      · exact recordless_tickRow (ih (emitted + 1)) found

theorem recordless_automationRunCreate (call : Call) (userId : String) (event : RunEvent) :
    Recordless (tagged call (automationRunCreate codec userId event)) := by
  unfold automationRunCreate
  split
  · rfl
  · split
    · rfl
    · rintro ⟨⟩ (_ | row)
      · rfl
      · change (if _ then _ else _ : Reply).isRecord = false
        split <;> rfl

theorem answers_reply {s : Recorded} {op : Op} {call : Call} {reply : Reply}
    (hreply : reply.isRecord = false) : Answers codec s op (.ret (call, reply)) := by
  intro call' row heq
  injection heq with heq
  rw [show reply = .record row from congrArg Prod.snd heq] at hreply
  cases hreply

theorem answers_found {s : Recorded} {call : Call} {change : Change}
    (hcall : call.change codec = some change) {found : DefinitionRow}
    (hrow : s.1.row change.userId change.automationId = some found)
    (hmutation : found.mutationId = change.mutationId) :
    Answers codec s (.row change.userId change.automationId) (.ret (call, .record found)) := by
  obtain ⟨hkey, -⟩ := @find_key _ change.key _ hrow
  obtain ⟨huser, hid⟩ := Prod.ext_iff.mp hkey
  intro call' row heq
  injection heq with heq
  obtain ⟨rfl, hreply⟩ := Prod.ext_iff.mp heq
  obtain rfl := Reply.record.inj hreply
  refine ⟨?_, hkey ▸ hrow, change, hcall, hkey.symm, hmutation.symm⟩
  rw [show found.userId = change.userId from huser,
    show found.automationId = change.automationId from hid]

theorem safe_answerRecord {call : Call} {change : Change} (hcall : call.change codec = some change)
    {missing conflict : Reply} (hmissing : missing.isRecord = false)
    (hconflict : conflict.isRecord = false) (s : Recorded) :
    SafeLine codec calls (tagged call (answerRecord change.userId change.automationId
      change.mutationId missing conflict)) s := by
  refine safe_next fun s ↦ ?_
  simp only [Op.exec]
  cases hrow : s.1.row change.userId change.automationId with
  | none => exact ⟨answers_reply hmissing, trivial⟩
  | some found =>
      change Answers codec s _ (.ret (call, if _ then _ else _)) ∧ True
      refine ⟨?_, trivial⟩
      split
      · exact answers_reply hconflict
      · rename_i hmutation
        exact answers_found hcall hrow (not_not.mp hmutation)

section

variable {userId : String} {input : PutDefinition} {revision mutation : String} {now updatedAt : ℤ}

theorem change_put (hmutation : input.mutationId codec = some mutation) (path : String) :
    (Call.put userId path input revision now updatedAt).change codec =
      some ⟨userId, input.definition.id, input.baseRevision, revision, mutation,
        some input.definition, now * 1000⟩ := by
  rw [Call.change, hmutation, Option.map_some]

theorem safe_writeAndAnswer (hmutation : input.mutationId codec = some mutation) (path : String)
    (s : Recorded) :
    SafeLine codec calls (tagged (.put userId path input revision now updatedAt)
      (writeAndAnswer codec userId input revision mutation now updatedAt)) s := by
  have hcall := @change_put codec userId input revision mutation now updatedAt hmutation path
  unfold writeAndAnswer
  split
  · trivial
  · refine safe_next fun s ↦ ⟨?_, safe_answerRecord hcall rfl rfl _⟩
    intro call row heq
    cases heq

theorem answers_writeAndAnswer {call : Call} {s : Recorded} {op : Op} :
    Answers codec s op
      (tagged call (writeAndAnswer codec userId input revision mutation now updatedAt)) := by
  unfold writeAndAnswer
  split
  · exact answers_reply rfl
  · intro call row heq
    cases heq

theorem safe_automationDefinitionPut (path : String) (s : Recorded) :
    SafeLine codec calls (tagged (.put userId path input revision now updatedAt)
      (automationDefinitionPut codec userId path input revision now updatedAt)) s := by
  unfold automationDefinitionPut
  split
  · trivial
  rename_i hvalid
  cases hmutation : input.mutationId codec with
  | none => trivial
  | some mutation =>
      have hpath : input.definition.id = path := by
        simp only [Bool.or_eq_true, not_or, decide_eq_true_eq, not_not] at hvalid
        exact hvalid.2
      have hcall := @change_put codec userId input revision mutation now updatedAt hmutation path
      have hwrite := @safe_writeAndAnswer codec calls userId input revision mutation now updatedAt
        hmutation path
      refine safe_next fun s ↦ ?_
      simp only [Op.exec]
      cases hrow : s.1.row userId path with
      | none =>
          exact ⟨answers_writeAndAnswer, hwrite _⟩
      | some found =>
          change Answers codec s _ (tagged _ (if _ then _ else _)) ∧
            SafeLine codec calls (tagged _ (if _ then _ else _)) _
          split
          · rename_i hsame
            refine ⟨?_, trivial⟩
            subst hpath
            exact answers_found hcall hrow hsame
          · exact ⟨answers_writeAndAnswer, hwrite _⟩

theorem safe_automationDefinitionDelete (automationId baseRevision : String) (s : Recorded) :
    SafeLine codec calls (tagged (.delete userId automationId baseRevision revision now)
      (automationDefinitionDelete codec userId automationId baseRevision revision now)) s := by
  unfold automationDefinitionDelete
  split
  · trivial
  cases hmutation : deleteMutationId codec automationId baseRevision with
  | none => trivial
  | some mutation =>
      have hcall : (Call.delete userId automationId baseRevision revision now).change codec =
          some ⟨userId, automationId, some baseRevision, revision, mutation, none, now⟩ := by
        rw [Call.change, hmutation, Option.map_some]
      refine safe_next fun s ↦ ⟨?_, safe_answerRecord hcall rfl rfl _⟩
      intro call row heq
      cases heq

end

def serve (codec : Codec) (call : Call) : Prog Op Op.Answer (Call × Reply) :=
  tagged call (call.handle codec)

theorem safe_serve (call : Call) (s : Recorded) : SafeLine codec calls (serve codec call) s := by
  cases call with
  | put userId path input revision now updatedAt => exact safe_automationDefinitionPut path s
  | delete userId automationId baseRevision revision now =>
      exact safe_automationDefinitionDelete automationId baseRevision s
  | tick userId now => exact (recordless_tickLoop _ userId (now * 1000) 100 0).safe s
  | createRun userId event => exact (recordless_automationRunCreate _ userId event).safe s

/-! ## What a handler asks for -/

abbrev Asks (codec : Codec) (calls : Call → Prop) : Prog Op Op.Answer (Call × Reply) → Prop :=
  Only (Requested codec calls)

theorem requested_none {op : Op} (hop : op.change = none) : Requested codec calls op := by
  intro change hchange
  rw [hop] at hchange
  cases hchange

section

variable {call : Call} (hcall : calls call)

theorem asks_answerRecord (userId automationId mutation : String) (missing conflict : Reply) :
    Asks codec calls (tagged call (answerRecord userId automationId mutation missing conflict)) := by
  refine ⟨requested_none rfl, ?_⟩
  rintro (_ | found) <;> trivial

theorem asks_tickLoop (userId : String) (now : ℤ) (rounds emitted : ℕ) :
    Asks codec calls (tagged call (tickLoop codec userId now rounds emitted)) := by
  induction rounds generalizing emitted with
  | zero => trivial
  | succ rounds ih =>
      refine ⟨requested_none rfl, ?_⟩
      rintro (_ | found)
      · trivial
      · change Asks codec calls (tagged call (tickRow codec userId now emitted _ found))
        unfold tickRow
        split
        · trivial
        · refine ⟨requested_none rfl, fun _ ↦ ⟨requested_none rfl, ?_⟩⟩
          rintro (_ | current)
          · exact ih (emitted + 1)
          · change Asks codec calls (tagged call (if _ then _ else _))
            split
            · trivial
            · exact ih (emitted + 1)

include hcall

theorem asks_serve : Asks codec calls (serve codec call) := by
  cases call with
  | put userId path input revision now updatedAt =>
      change Asks codec calls (tagged _ (automationDefinitionPut codec userId path input revision
        now updatedAt))
      unfold automationDefinitionPut
      split
      · trivial
      cases hmutation : input.mutationId codec with
      | none => trivial
      | some mutation =>
          have hwrite : Asks codec calls (tagged (.put userId path input revision now updatedAt)
              (writeAndAnswer codec userId input revision mutation now updatedAt)) := by
            unfold writeAndAnswer
            split
            · trivial
            · refine ⟨?_, fun _ ↦ asks_answerRecord ..⟩
              intro change hchange
              refine ⟨_, hcall, (change_put hmutation path).trans ?_⟩
              exact hchange
          refine ⟨requested_none rfl, ?_⟩
          rintro (_ | found)
          · exact hwrite
          · change Asks codec calls (tagged _ (if _ then _ else _))
            split
            · trivial
            · exact hwrite
  | delete userId automationId baseRevision revision now =>
      change Asks codec calls (tagged _ (automationDefinitionDelete codec userId automationId
        baseRevision revision now))
      unfold automationDefinitionDelete
      split
      · trivial
      cases hmutation : deleteMutationId codec automationId baseRevision with
      | none => trivial
      | some mutation =>
          refine ⟨?_, fun _ ↦ asks_answerRecord ..⟩
          intro change hchange
          refine ⟨_, hcall, ?_⟩
          rw [Call.change, hmutation, Option.map_some]
          exact hchange
  | tick userId now => exact asks_tickLoop userId (now * 1000) 100 0
  | createRun userId event =>
      change Asks codec calls (tagged _ (automationRunCreate codec userId event))
      unfold automationRunCreate
      split
      · trivial
      · split
        · trivial
        · refine ⟨requested_none rfl, fun _ ↦ ⟨requested_none rfl, ?_⟩⟩
          rintro (_ | row) <;> trivial

end

/-! ## Every run -/

abbrev AutomationWorld := World Op Op.Answer (Call × Reply) Recorded

def next (codec : Codec) : AutomationWorld → Event Call → AutomationWorld :=
  World.next (recorded Op.exec record) (serve codec)

def start : AutomationWorld := { db := ({}, []) }

def world (codec : Codec) (events : List (Event Call)) : AutomationWorld :=
  Runs.run (next codec) start events

def FreshRun (codec : Codec) (events : List (Event Call)) : Prop :=
  Runs.Along (next codec) (Admits FreshRevision) start events

instance (codec : Codec) (events : List (Event Call)) : Decidable (FreshRun codec events) :=
  inferInstanceAs (Decidable (Runs.Along _ _ _ _))

theorem plain_world (codec : Codec) (events : List (Event Call)) :
    (world codec events).plain =
      Runs.run (World.next Op.exec (serve codec)) { db := {} } events :=
  World.plain_run start events

theorem lines_start : Lines ({}, []) where
  keys := .nil
  fresh := .nil
  linked _ := .nil
  first := by simp [line, changes]
  current := by simp [line, changes, Db.find, Db.row]
  total_le _ := Nat.zero_le _
  live_le _ := Nat.zero_le _

def Started (events : List (Event Call)) (call : Call) : Prop :=
  .start call ∈ events

theorem FreshRun.admitted {events : List (Event Call)} (h : FreshRun codec events) :
    Runs.Along (next codec) (Admits (lineContract codec (Started events)).admits) start events := by
  have hasks : Runs.Along (next codec) (Admits fun _ op ↦ Requested codec (Started events) op)
      start events := by
    apply along_only _ _ (fun call hcall ↦ asks_serve hcall) (by simp [start])
    intro e he
    cases e with
    | start call => exact he
    | step i => trivial
    | stop i => trivial
  apply (h.and hasks).imp
  intro w e hboth i op next he hp
  exact ⟨hboth.1 i op next he hp, hboth.2 i op next he hp⟩

theorem history_start : History codec calls ({}, []) :=
  ⟨lines_start, by simp [changes]⟩

theorem FreshRun.safe {events : List (Event Call)} (h : FreshRun codec events) :
    WorldSafe (recorded Op.exec record) (lineContract codec (Started events))
      (world codec events) :=
  worldSafe_run (fun call s _ ↦ safe_serve call s) history_start h.admitted

theorem bases_eq {first : Change} {rest : List Change}
    (h : (first :: rest).IsChain Follows) :
    rest.map Change.base = (first :: rest).dropLast.map fun change ↦ some change.revision := by
  induction rest generalizing first with
  | nil => rfl
  | cons second rest ih =>
      rw [List.isChain_cons_cons] at h
      rw [List.map_cons, ih h.2, List.dropLast_cons_cons, List.map_cons, h.1]

theorem Lines.once {s : Recorded} (h : Lines s) (key : String × String) :
    ((line s.2 key).map Change.base).Nodup := by
  have hrevisions : ((line s.2 key).map Change.revision).Nodup :=
    h.fresh.sublist (List.filter_sublist.map _)
  have hlinked := h.linked key
  have hfirst := h.first key
  cases hline : line s.2 key with
  | nil => exact List.nodup_nil
  | cons first rest =>
      rw [hline] at hrevisions hlinked hfirst
      rw [List.map_cons, bases_eq hlinked, hfirst first rfl, List.nodup_cons]
      refine ⟨?_, ?_⟩
      · intro hmem
        obtain ⟨change, -, hchange⟩ := List.mem_map.mp hmem
        cases hchange
      have hsome := hrevisions.map (Option.some_injective String)
      rw [List.map_map] at hsome
      exact hsome.sublist ((List.dropLast_sublist _).map _)

theorem FreshRun.keeps {xs ys : List (Event Call)} (h : FreshRun codec (xs ++ ys)) :
    Keeps (world codec xs).db (world codec (xs ++ ys)).db := by
  obtain ⟨hxs, hys⟩ := (Runs.along_append _ _ xs ys).mp h.admitted
  have hsafe := worldSafe_run (fun call s _ ↦ safe_serve call s) history_start hxs
  rw [world, world, Runs.run_append]
  exact hsafe.guarantee_run (fun call s _ ↦ safe_serve call s) hys

/-- Whatever the order of requests, the accepted changes of every definition form a line, each
based on the revision before it and the first on none, and no two on the same one; each was asked
for by a request; the row in the table is the last of its line; a request answered with a record
has just read it there, as its own; no definition changes its agent; and no account has more
than 1000 live or 20000 definitions. -/
theorem definitions_one_line (codec : Codec) (events : List (Event Call))
    (hfresh : FreshRun codec events) :
    Lines (world codec events).db ∧
    (∀ key, ((line (world codec events).db.2 key).map Change.base).Nodup) ∧
    (∀ change ∈ changes (world codec events).db.2,
      ∃ call, .start call ∈ events ∧ call.change codec = some change) ∧
    (∀ xs ys, events = xs ++ ys → ∀ key row, (world codec xs).db.1.find key = some row →
      ∃ row', (world codec events).db.1.find key = some row' ∧ row'.agentId = row.agentId) ∧
    ∀ w e op call row, Runs.Takes (next codec) start events w e →
      w.ends (recorded Op.exec record) e = some (op, (call, .record row)) →
      op = .row row.userId row.automationId ∧ w.db.1.find row.key = some row ∧
        call.Owns codec row ∧
        (line w.db.2 row.key).getLast?.map Change.stamp = some row.stamp := by
  have hsafe := hfresh.safe
  refine ⟨hsafe.inv.lines, hsafe.inv.lines.once, hsafe.inv.requested, ?_, ?_⟩
  · rintro xs ys rfl key row hrow
    exact hfresh.keeps.agent key row hrow
  · intro w e op call row htakes hends
    obtain ⟨hw, hadmits⟩ := worldSafe_takes (fun call s _ ↦ safe_serve call s) history_start
      hfresh.admitted htakes
    obtain ⟨-, hanswers⟩ := hw.performs (World.ends_eq_some.mp hends) hadmits
    obtain ⟨hop, hrow, howns⟩ := hanswers call row rfl
    refine ⟨hop, hrow, howns, ?_⟩
    rw [← hw.inv.lines.current, hrow, Option.map_some]

/-! ## A definition put twice and deleted -/

section Demo

def demoCalendar : Calendar where
  Zone := Unit
  Date := Unit
  utc := ()
  parseZone _ := none
  dateOf _ _ := none
  addDays _ _ := none
  month _ := 0
  day _ := 0
  numDaysFromSunday _ := 0
  instants _ _ _ _ := []

def demoDigest (value : Json) : Option String :=
  if (value.get "definition").isSome then
    some "f4550a9a02042c4b36ef69a64f226f9dbe1b6dd523a2188d32950fa218cc17d8"
  else if (value.get "operation").isSome then
    some "db9b332ba378355ddb9e731d7873385d1ad8197b450a127c06de335daa072a52"
  else match value.get "due", value.get "timestampMs" with
    | some (.number "1000"), _ =>
        some "c4cab494119868471a30b69b6ab12396d5338c3a22b495297ca754d30aa5d6fc"
    | some (.number "2000"), _ =>
        some "d7f8a16a7855cfae085d3b49b083aa9755dbb21bfe6d22634439685ccb4997b2"
    | _, some (.number "1000") =>
        some "59f5932aee48e1226b29d261e996cfd733ee1c58861e14f78e0b84169eda9845"
    | _, some (.number "2000") =>
        some "e97740b35232f9a49a30bc36d6fe51147d24829555aa6d02df991e483dd2fd91"
    | _, _ => none

def demoCodec : Codec where
  calendar := demoCalendar
  digest := demoDigest
  encodedLen _ := some 184

def demoDefinition : Definition where
  id := "routine-1"
  agentId := "agent-1"
  name := "Daily"
  description := none
  enabled := true
  triggers := [.object [("trigger", .object [("Cron", .object [("cron", .string "@every 1s")])])]]
  prompts := ["run"]

def demoPut (revision : String) : Call :=
  .put "22" "routine-1" ⟨demoDefinition, some true, none⟩ revision 0 0

def demoHistory : List (Event Call) :=
  [.start (demoPut "definition-a"), .step 0, .step 0, .step 0,
    .start (demoPut "definition-b"), .step 1,
    .start (.delete "22" "routine-1" "definition-a" "definition-c" 5), .step 2, .step 2]

theorem definitions_one_line_demo :
    FreshRun demoCodec demoHistory ∧ Lines (world demoCodec demoHistory).db ∧
      (changes (world demoCodec demoHistory).db.2).map Change.revision =
        ["definition-a", "definition-c"] := by
  have hfresh : FreshRun demoCodec demoHistory := by decide +kernel
  exact ⟨hfresh, (definitions_one_line demoCodec demoHistory hfresh).1, by decide +kernel⟩

end Demo

end Fabushi.Worker.Automation
