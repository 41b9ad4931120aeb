import Fabushi.Library.Json
import Fabushi.Library.Table
import Fabushi.Library.Interleaving
import Fabushi.Worker.AutomationSchedule

/-!
# Automations of an account

The definitions of an account's automations, the clock that emits their runs, and the journal
of runs. A handler is a program over the two tables; a statement or a batch is one operation.
Requests come authenticated, with the times and the generated revision they use. What only
rotates the order in which accounts are visited, and the headers that wake the clock, are left
out.
-/

namespace Fabushi.Worker.Automation

open Interleaving

structure Codec where
  calendar : Calendar
  /-- `canonical_json_sha256`. -/
  digest : Json → Option String
  /-- The length of the JSON text in bytes. -/
  encodedLen : Json → Option ℕ

def optional {α : Type} (write : α → Json) : Option α → Json
  | some value => write value
  | none => .null

/-! ## Definitions -/

structure Definition where
  id : String
  agentId : String
  name : String
  description : Option String
  enabled : Bool
  triggers : List Json
  prompts : List String

structure PutDefinition where
  definition : Definition
  expectAbsent : Option Bool
  baseRevision : Option String

def validId (value : String) : Bool :=
  value ≠ "" && Text.len value ≤ 200 && value.toList.all fun c ↦
    Text.isAsciiAlphanumeric c || ['.', '_', ':', '-'].contains c

def eventTriggers : List String :=
  ["Git", "SlackTrigger", "Linear", "Pagerduty", "Sentry", "MicrosoftTeamsTrigger",
    "SlackReactionAdded", "SlackMention", "SlackAnyReactionAdded"]

def onlyMember (value : Json) : Option (String × Json) :=
  match value with
  | .object [member] => some member
  | _ => none

/-- The schedule of a trigger, `none` on the inside where it has no clock. -/
def triggerSchedule (codec : Codec) (trigger : Json) : Option (Option String) := do
  let outer ← onlyMember trigger
  guard (outer.1 = "trigger")
  let (kind, config) ← onlyMember outer.2
  guard config.isObject
  if kind = "Cron" then do
    let member ← onlyMember config
    guard (member.1 = "cron")
    let cron ← member.2.asStr
    guard (Text.len cron ≤ 512 ∧ (nextRun codec.calendar cron 0).isSome)
    return some cron
  else do
    guard (kind ∈ eventTriggers)
    return none

namespace Definition

def schedules (codec : Codec) (definition : Definition) : Option (List (Option String)) :=
  if definition.triggers.isEmpty ∨ 32 < definition.triggers.length then none
  else definition.triggers.mapM (triggerSchedule codec)

def toJson (definition : Definition) : Json :=
  .object [("id", .string definition.id), ("agentId", .string definition.agentId),
    ("name", .string definition.name), ("description", optional .string definition.description),
    ("enabled", .bool definition.enabled),
    ("workflow", .object [("triggers", .array definition.triggers),
      ("prompts", .array (definition.prompts.map fun prompt ↦
        .object [("prompt", .string prompt)]))])]

def validate (codec : Codec) (definition : Definition) : Bool :=
  validId definition.id && validId definition.agentId && !Text.isBlank definition.name &&
    Text.len definition.name ≤ 512 &&
    definition.description.all (fun description ↦ Text.len description ≤ 4000) &&
    !definition.prompts.isEmpty && definition.prompts.length ≤ 10 &&
    definition.prompts.all (fun prompt ↦ Text.len prompt ≤ 16384) &&
    (codec.encodedLen definition.toJson).any (· ≤ 65536) && (definition.schedules codec).isSome

def initialPosition (codec : Codec) (enabled : Bool) (now : ℤ) :
    Option String → Option (Option ℤ)
  | some schedule => if enabled then (nextRun codec.calendar schedule now).map some else some none
  | none => some none

def initialPositions (codec : Codec) (definition : Definition) (now : ℤ) :
    Option (List (Option ℤ)) := do
  (← definition.schedules codec).mapM (initialPosition codec definition.enabled now)

end Definition

namespace PutDefinition

def validate (codec : Codec) (input : PutDefinition) : Bool :=
  input.definition.validate codec && match input.expectAbsent, input.baseRevision with
    | some true, none => true
    | none, some revision => validId revision
    | some false, some revision => validId revision
    | _, _ => false

def toJson (input : PutDefinition) : Json :=
  .object [("definition", input.definition.toJson),
    ("expectAbsent", optional .bool input.expectAbsent),
    ("baseRevision", optional .string input.baseRevision)]

def mutationId (codec : Codec) (input : PutDefinition) : Option String :=
  codec.digest input.toJson

end PutDefinition

def deleteMutationId (codec : Codec) (id baseRevision : String) : Option String :=
  codec.digest (.object [("operation", .string "delete"), ("id", .string id),
    ("baseRevision", .string baseRevision)])

def scheduledRunId (codec : Codec) (user id revision : String) (index : ℕ) (due : ℤ) :
    Option String :=
  (codec.digest (.object [("user", .string user), ("id", .string id),
    ("revision", .string revision), ("triggerIndex", .number (toString index)),
    ("due", .number (toString due))])).map ("scheduled-" ++ ·)

/-! ## Runs -/

structure RunEvent where
  runUuid : String
  sandAgentId : String
  automationId : String
  timestampMs : ℕ
  definitionRevision : Option String
  scheduledForMs : Option ℕ
  event : Option Json

namespace RunEvent

def toJson (event : RunEvent) : Json :=
  .object [("runUuid", .string event.runUuid), ("sandAgentId", .string event.sandAgentId),
    ("automationId", .string event.automationId),
    ("timestampMs", .number (toString event.timestampMs)),
    ("definitionRevision", optional .string event.definitionRevision),
    ("scheduledForMs", optional (fun ms ↦ .number (toString ms)) event.scheduledForMs),
    ("event", optional id event.event)]

def validate (codec : Codec) (event : RunEvent) : Bool :=
  validId event.runUuid && validId event.sandAgentId && validId event.automationId &&
    (event.timestampMs : ℤ) ≤ maxSafeInteger &&
    event.scheduledForMs.all (fun ms ↦ (ms : ℤ) ≤ maxSafeInteger) &&
    event.definitionRevision.all validId && (codec.encodedLen event.toJson).any (· ≤ 65536)

end RunEvent

/-! ## Tables -/

structure DefinitionRow where
  userId : String
  automationId : String
  agentId : String
  definition : Definition
  revision : String
  mutationId : String
  nextRuns : List (Option ℤ)
  updatedAt : ℤ
  deletedAt : Option ℤ

structure RunRow where
  userId : String
  runUuid : String
  event : RunEvent
  eventDigest : String

structure Db where
  definitions : List DefinitionRow := []
  runs : List RunRow := []

/-- An occurrence that the clock emits: its run, the positions it was found at, and the ones it
leaves. `now` is the clock reading of the tick. -/
structure Emission where
  userId : String
  automationId : String
  revision : String
  index : ℕ
  due : ℤ
  now : ℤ
  nextRuns : List (Option ℤ)
  positions : List (Option ℤ)
  run : RunRow

def DefinitionRow.key (row : DefinitionRow) : String × String :=
  (row.userId, row.automationId)

def RunRow.key (row : RunRow) : String × String :=
  (row.userId, row.runUuid)

namespace Db

def row (db : Db) (userId automationId : String) : Option DefinitionRow :=
  db.definitions.find? fun row ↦ row.userId = userId && row.automationId = automationId

def total (db : Db) (userId : String) : ℕ :=
  db.definitions.countP fun row ↦ row.userId = userId

def live (db : Db) (userId : String) : ℕ :=
  db.definitions.countP fun row ↦ row.userId = userId && row.deletedAt.isNone

def runCount (db : Db) (userId : String) : ℕ :=
  db.runs.countP fun run ↦ run.userId = userId

def replaces (db : Db) (new : DefinitionRow) (base : Option String) (old : DefinitionRow) : Bool :=
  old.key = new.key && base = some old.revision && old.agentId = new.agentId &&
    (old.deletedAt.isNone || db.live new.userId < 1000)

def overwrite (new old : DefinitionRow) : DefinitionRow :=
  { old with
    definition := new.definition
    revision := new.revision
    mutationId := new.mutationId
    nextRuns := new.nextRuns
    updatedAt := new.updatedAt
    deletedAt := none }

def update (selects : DefinitionRow → Bool) (set : DefinitionRow → DefinitionRow) (db : Db) : Db :=
  { db with definitions := Table.update selects set db.definitions }

def writeDefinition (new : DefinitionRow) (base : Option String) (db : Db) : Db :=
  let known := db.definitions.any fun old ↦ old.key = new.key
  if (base.isNone || known) &&
      (known || db.total new.userId < 20000 && db.live new.userId < 1000) then
    if known then db.update (db.replaces new base) (overwrite new)
    else { db with definitions := db.definitions ++ [{ new with deletedAt := none }] }
  else db

def deleteDefinition (userId automationId base revision mutationId : String) (now : ℤ)
    (db : Db) : Db :=
  db.update
    (fun row ↦ row.key = (userId, automationId) && row.revision = base && row.deletedAt.isNone)
    (fun row ↦
      { row with revision, mutationId, nextRuns := [], updatedAt := now, deletedAt := some now })

def isDue (now : ℤ) (position : Option ℤ) : Bool :=
  position.any (· ≤ now)

def dueRow (db : Db) (userId : String) (now : ℤ) : Option DefinitionRow :=
  ((db.definitions.filter fun row ↦ row.userId = userId && row.deletedAt.isNone &&
    row.nextRuns.any (isDue now)).insertionSort fun a b ↦
      a.updatedAt < b.updatedAt ∨ a.updatedAt = b.updatedAt ∧ a.automationId ≤ b.automationId).head?

def isCurrent (emission : Emission) (row : DefinitionRow) : Bool :=
  row.key = (emission.userId, emission.automationId) && row.revision = emission.revision &&
    row.deletedAt.isNone && row.nextRuns = emission.nextRuns

def sameRun (old new : RunRow) : Bool :=
  old.key = new.key

def insertScheduledRun (emission : Emission) (db : Db) : Db :=
  if db.definitions.any (isCurrent emission) && db.runCount emission.userId < 20000 then
    { db with runs := Table.insertOrIgnore sameRun emission.run db.runs }
  else db

def advance (emission : Emission) (row : DefinitionRow) : DefinitionRow :=
  { row with nextRuns := emission.positions }

def advanceClock (emission : Emission) (db : Db) : Db :=
  if db.runs.any fun run ↦ run.key = emission.run.key && run.eventDigest = emission.run.eventDigest
  then db.update (isCurrent emission) (advance emission)
  else db

def emit (emission : Emission) (db : Db) : Db :=
  advanceClock emission (insertScheduledRun emission db)

def insertRun (run : RunRow) (db : Db) : Db :=
  if db.runCount run.userId < 20000 then
    { db with runs := Table.insertOrIgnore sameRun run db.runs }
  else db

def readRun (db : Db) (userId runUuid : String) : Option RunRow :=
  db.runs.find? fun run ↦ run.userId = userId && run.runUuid = runUuid

end Db

/-! ## Operations -/

inductive Op where
  | row (userId automationId : String)
  /-- `now` is the clock reading behind the positions. -/
  | write (new : DefinitionRow) (base : Option String) (now : ℤ)
  | delete (userId automationId base revision mutationId : String) (now : ℤ)
  | dueRow (userId : String) (now : ℤ)
  | emit (emission : Emission)
  | insertRun (run : RunRow)
  | readRun (userId runUuid : String)

@[reducible] def Op.Answer : Op → Type
  | .row .. | .dueRow .. => Option DefinitionRow
  | .write .. | .delete .. | .emit _ | .insertRun _ => Unit
  | .readRun .. => Option RunRow

def Op.exec : (op : Op) → Db → Db × op.Answer
  | .row userId automationId, db => (db, db.row userId automationId)
  | .write new base _, db => (db.writeDefinition new base, ())
  | .delete userId automationId base revision mutationId now, db =>
      (db.deleteDefinition userId automationId base revision mutationId now, ())
  | .dueRow userId now, db => (db, db.dueRow userId now)
  | .emit emission, db => (db.emit emission, ())
  | .insertRun run, db => (db.insertRun run, ())
  | .readRun userId runUuid, db => (db, db.readRun userId runUuid)

def Op.perform (op : Op) : Prog Op Op.Answer op.Answer :=
  .perform op

@[simp] theorem Op.perform_bind {ρ : Type} (op : Op) (f : op.Answer → Prog Op Op.Answer ρ) :
    (op.perform >>= f) = .call op f := rfl

/-! ## Handlers -/

inductive Reply where
  | record (row : DefinitionRow)
  | run (row : RunRow)
  | ticked (emitted : ℕ) (capacityBlocked : Bool)
  | refused (status : ℕ) (code message : String)
  | failed (message : String)

abbrev Handler := Prog Op Op.Answer Reply

section Handlers

variable (codec : Codec)

/-- The last part of a put or a delete: the record is answered if it is the one asked for. -/
def answerRecord (userId automationId mutation : String) (missing conflict : Reply) : Handler := do
  match ← (Op.row userId automationId).perform with
  | none => return missing
  | some found => return if found.mutationId ≠ mutation then conflict else .record found

def writeAndAnswer (userId : String) (input : PutDefinition) (revision mutation : String)
    (now updatedAt : ℤ) : Handler :=
  match input.definition.initialPositions codec (now * 1000) with
  | none => return .failed "invalid schedule position"
  | some nextRuns => do
      let new : DefinitionRow :=
        { userId
          automationId := input.definition.id
          agentId := input.definition.agentId
          definition := input.definition
          revision
          mutationId := mutation
          nextRuns
          updatedAt
          deletedAt := none }
      (Op.write new input.baseRevision (now * 1000)).perform
      let missing := if input.baseRevision.isSome then 404 else 429
      answerRecord userId input.definition.id mutation
        (.refused missing "definition_not_published"
          "Automation not found or account definition capacity reached.")
        (.refused 409 "definition_conflict" "Automation changed; reconcile before writing.")

def automationDefinitionPut (userId automationId : String) (input : PutDefinition)
    (revision : String) (now updatedAt : ℤ) : Handler :=
  if !input.validate codec || input.definition.id ≠ automationId then
    return .refused 400 "invalid_definition" "Invalid automation definition."
  else match input.mutationId codec with
    | none => return .failed "json"
    | some mutation => do
        match ← (Op.row userId automationId).perform with
        | some found =>
            if found.mutationId = mutation then return .record found
            else writeAndAnswer codec userId input revision mutation now updatedAt
        | none => writeAndAnswer codec userId input revision mutation now updatedAt

def automationDefinitionDelete (userId automationId baseRevision revision : String) (now : ℤ) :
    Handler :=
  if !validId automationId || !validId baseRevision then
    return .refused 400 "invalid_delete" "Invalid automation delete."
  else match deleteMutationId codec automationId baseRevision with
    | none => return .failed "json"
    | some mutation => do
        (Op.delete userId automationId baseRevision revision mutation now).perform
        answerRecord userId automationId mutation
          (.refused 404 "automation_not_found" "Automation not found.")
          (.refused 409 "definition_conflict" "Automation changed; reconcile before deleting.")

def earliest : List (ℕ × ℤ) → Option (ℕ × ℤ)
  | [] => none
  | entry :: entries =>
      match earliest entries with
      | none => some entry
      | some best => if best.2 < entry.2 then some best else some entry

def firstDue (positions : List (Option ℤ)) (now : ℤ) : Option (ℕ × ℤ) :=
  earliest <| positions.zipIdx.filterMap fun entry ↦
    (entry.1.filter (· ≤ now)).map fun due ↦ (entry.2, due)

def scheduledRun (userId : String) (found : DefinitionRow) (index : ℕ) (due : ℤ) :
    Option RunRow := do
  let runUuid ← scheduledRunId codec userId found.definition.id found.revision index due
  let event : RunEvent :=
    { runUuid
      sandAgentId := found.definition.agentId
      automationId := found.definition.id
      timestampMs := due.toNat
      definitionRevision := some found.revision
      scheduledForMs := some due.toNat
      event := none }
  let eventDigest ← codec.digest event.toJson
  return { userId, runUuid, event, eventDigest }

def occurrence (userId : String) (now : ℤ) (found : DefinitionRow) : Except String Emission :=
  if !found.definition.enabled || !found.definition.validate codec ||
      found.nextRuns.length ≠ found.definition.triggers.length then
    .error "invalid persisted automation clock"
  else match firstDue found.nextRuns now with
    | none => .error "invalid persisted due position"
    | some (index, due) =>
        match found.definition.schedules codec with
        | none => .error "invalid persisted schedule"
        | some schedules =>
            match schedules[index]?.join with
            | none => .error "non-clock trigger has clock position"
            | some schedule =>
                match nextRun codec.calendar schedule due with
                | none => .error "native schedule has no next occurrence"
                | some next =>
                    match scheduledRun codec userId found index due with
                    | none => .error "json"
                    | some run =>
                        .ok { userId
                              automationId := found.definition.id
                              revision := found.revision
                              index, due, now
                              nextRuns := found.nextRuns
                              positions := found.nextRuns.set index (some next)
                              run }

/-- An occurrence is emitted; the tick goes on `again` where the clock has moved. -/
def emitAnd (found : DefinitionRow) (emitted : ℕ) (again : Handler) (emission : Emission) :
    Handler := do
  (Op.emit emission).perform
  match ← (Op.row emission.userId emission.automationId).perform with
  | none => again
  | some current =>
      -- Nothing moved, so the journal has no room for the occurrence.
      if current.revision = found.revision ∧ current.nextRuns = found.nextRuns then
        return .ticked emitted true
      else again

def tickRow (userId : String) (now : ℤ) (emitted : ℕ) (again : Handler) (found : DefinitionRow) :
    Handler :=
  match occurrence codec userId now found with
  | .error message => return .failed message
  | .ok emission => emitAnd found emitted again emission

def tickLoop (userId : String) (now : ℤ) : (rounds emitted : ℕ) → Handler
  | 0, emitted => return .ticked emitted false
  | rounds + 1, emitted => do
      match ← (Op.dueRow userId now).perform with
      | none => return .ticked emitted false
      | some found =>
          tickRow codec userId now emitted (tickLoop userId now rounds (emitted + 1)) found

def tickUser (userId : String) (now : ℤ) : Handler :=
  tickLoop codec userId (now * 1000) 100 0

def automationRunCreate (userId : String) (event : RunEvent) : Handler :=
  if !event.validate codec then
    return .refused 400 "invalid_automation_event" "Invalid automation event."
  else match codec.digest event.toJson with
    | none => return .failed "json"
    | some eventDigest => do
        (Op.insertRun { userId, runUuid := event.runUuid, event, eventDigest }).perform
        match ← (Op.readRun userId event.runUuid).perform with
        | none =>
            return .refused 429 "automation_journal_capacity" "Automation journal capacity reached."
        | some row =>
            return if row.eventDigest ≠ eventDigest then
              .refused 409 "run_uuid_conflict" "runUuid already identifies a different event."
            else .run row

inductive Call where
  | put (userId automationId : String) (input : PutDefinition) (revision : String)
      (now updatedAt : ℤ)
  | delete (userId automationId baseRevision revision : String) (now : ℤ)
  | tick (userId : String) (now : ℤ)
  | createRun (userId : String) (event : RunEvent)

def Call.handle : Call → Handler
  | .put userId automationId input revision now updatedAt =>
      automationDefinitionPut codec userId automationId input revision now updatedAt
  | .delete userId automationId baseRevision revision now =>
      automationDefinitionDelete codec userId automationId baseRevision revision now
  | .tick userId now => tickUser codec userId now
  | .createRun userId event => automationRunCreate codec userId event

end Handlers

end Fabushi.Worker.Automation
