import Fabushi.Worker.UsageBooks

/-!
# Token budgets along interleaved requests

The handlers, run in any order and stopped anywhere, keep the books of the usage
tables. A granted reservation is one that was just inserted or that a lookup of the
request identifier found.
-/

namespace Fabushi.Worker

open Interleaving MachineInt Result

-- An application whose type is a property of a handler would otherwise evaluate the limit.
attribute [local irreducible] UsageEnv.accountUsageLimit

/-! ## Every handler -/

structure TokenRequest where
  userId : String
  requestId : String
  tokens : ℤ
  deriving DecidableEq

def UsageCall.reserves : UsageCall → Option TokenRequest
  | .reserve _ userId request _ _ =>
      request.reservedTokens.map fun tokens ↦ ⟨userId, request.requestId, tokens⟩
  | _ => none

/-- The reservation is live, belongs to the caller and holds the requested tokens. -/
def UsageDb.Grants (db : UsageDb) (call : UsageCall) (reservationId : String) : Prop :=
  ∃ r ∈ db.reservations, r.reservationId = reservationId ∧ r.state = .reserved ∧
    call.reserves = some ⟨r.userId, r.requestId, r.reservedTokens⟩

instance (db : UsageDb) (call : UsageCall) (reservationId : String) :
    Decidable (db.Grants call reservationId) :=
  inferInstanceAs (Decidable (∃ r ∈ db.reservations, r.reservationId = reservationId ∧
    r.state = .reserved ∧ call.reserves = some ⟨r.userId, r.requestId, r.reservedTokens⟩))

abbrev AnsweredUsageProg := Prog UsageOp UsageOp.Answer (UsageCall × UsageReply)

/-- A reservation is granted by the batch that inserts it, or is the row that a lookup of the
request identifier found. -/
def UsageDb.Answers (db : UsageDb) (op : UsageOp) (db' : UsageDb) (rest : AnsweredUsageProg) :
    Prop :=
  ∀ call reservationId requestId tokens expiresAt,
    rest = .ret (call, .reservation reservationId requestId tokens expiresAt) →
      (∃ row, op = .reserve row ∧ db'.Grants call reservationId) ∨
      ∃ tokens r, call.reserves = some ⟨r.userId, r.requestId, tokens⟩ ∧
        op = .reservationByRequest r.userId r.requestId ∧ db' = db ∧ r ∈ db.reservations ∧
        r.reservationId = reservationId

def usageContract : Contract UsageOp UsageOp.Answer (UsageCall × UsageReply) UsageDb where
  inv := UsageDb.Sound
  guarantee := UsageDb.Keeps
  admits := UsageDb.FreshIds
  shows := UsageDb.Answers
  refl := .refl
  trans _ _ _ := .trans

abbrev SafeUsage : AnsweredUsageProg → UsageDb → Prop :=
  Safe UsageOp.exec usageContract

theorem safeUsage_call {op : UsageOp} {next : op.Answer → AnsweredUsageProg} {db : UsageDb}
    (hop : op.InsertsLive)
    (hnext : ∀ db : UsageDb, db.Sound → db.FreshIds op →
      db.Answers op (op.exec db).1 (next (op.exec db).2) ∧
        SafeUsage (next (op.exec db).2) (op.exec db).1) : SafeUsage (.call op next) db := by
  intro db' _ hsound hfresh
  obtain ⟨hsound', hkeeps⟩ := UsageOp.exec_sound hop hsound hfresh
  obtain ⟨hanswers, hsafe⟩ := hnext db' hsound hfresh
  exact ⟨hsound', hkeeps, hanswers, hsafe⟩

def UsageReply.isGrant : UsageReply → Bool
  | .reservation .. => true
  | _ => false

def Grantless : AnsweredUsageProg → Prop
  | .ret (_, reply) => reply.isGrant = false
  | .call op next => op.InsertsLive ∧ ∀ answer, Grantless (next answer)

theorem Grantless.answers {p : AnsweredUsageProg} (hp : Grantless p) (db : UsageDb) (op : UsageOp)
    (db' : UsageDb) : db.Answers op db' p := by
  rintro call reservationId requestId tokens expiresAt rfl
  cases hp

theorem Grantless.safe {p : AnsweredUsageProg} (hp : Grantless p) (db : UsageDb) :
    SafeUsage p db := by
  induction p generalizing db with
  | ret r => trivial
  | call op next ih =>
      refine safeUsage_call hp.1 ?_
      intro db _ _
      exact ⟨(hp.2 _).answers db op _, ih _ (hp.2 _) _⟩

section

variable (env : UsageEnv) (call : UsageCall) (userId : String)

theorem grantless_currentUsageStatus (now : ℤ) {reply : AccountUsageStatus → UsageReply}
    (hreply : ∀ status, (reply status).isGrant = false) :
    Grantless (tagged call (currentUsageStatus env userId now reply)) := by
  unfold currentUsageStatus
  split
  · rfl
  · exact ⟨trivial, fun _ ↦ hreply _⟩

theorem grantless_answerCaptured (reservationId : String) (existing : UsageEventRow) (now : ℤ) :
    Grantless (tagged call (answerCaptured env userId reservationId existing now)) := by
  unfold answerCaptured
  split
  · rfl
  · exact grantless_currentUsageStatus env call userId now fun _ ↦ rfl

theorem grantless_orFail {α : Type} {next : α → UsageProg}
    (hnext : ∀ answer, Grantless (tagged call (next answer))) (result : Except SqlError α) :
    Grantless (tagged call (orFail result next)) := by
  cases result with
  | ok answer => exact hnext answer
  | error e => rfl

theorem grantless_aiUsageCapture (reservationId : String) (capture : UsageCaptureRequest)
    (eventId : String) (now : ℤ) :
    Grantless (tagged call (aiUsageCapture env userId reservationId capture eventId now)) := by
  unfold aiUsageCapture
  split
  · rfl
  refine ⟨trivial, ?_⟩
  rintro (_ | existing)
  · refine ⟨trivial, ?_⟩
    rintro (_ | reservation)
    · rfl
    change Grantless (tagged call (if _ then _ else if _ then _ else _))
    split
    · rfl
    split
    · rfl
    refine ⟨trivial, grantless_orFail call ?_⟩
    intro changes
    split
    · refine ⟨trivial, ?_⟩
      rintro (_ | existing)
      · rfl
      · exact grantless_answerCaptured env call userId reservationId existing now
    · exact grantless_currentUsageStatus env call userId now fun _ ↦ rfl
  · exact grantless_answerCaptured env call userId reservationId existing now

theorem grantless_aiUsageRelease (reservationId : String) (now : ℤ) :
    Grantless (tagged call (aiUsageRelease env userId reservationId now)) :=
  ⟨trivial, grantless_orFail call fun _ ↦
    grantless_currentUsageStatus env call userId now fun _ ↦ rfl⟩

end

theorem answers_existing {env : UsageEnv} {userId newId : String} {now tokens : ℤ}
    {request : UsageReservationRequest} (htokens : request.reservedTokens = some tokens)
    {db : UsageDb} {existing : UsageReservationRow}
    (hfind : db.usageReservationByRequest userId request.requestId = some existing) :
    db.Answers (.reservationByRequest userId request.requestId) db
      (.ret (.reserve env userId request newId now, existing.reply)) := by
  intro call reservationId requestId tokens' expiresAt heq
  injection heq with heq
  obtain ⟨rfl, hreply⟩ := Prod.ext_iff.mp heq
  injection hreply with hid
  have hrow : existing.userId = userId ∧ existing.requestId = request.requestId := by
    simpa using List.find?_some hfind
  refine .inr ⟨tokens, existing, ?_, ?_, rfl, List.mem_of_find?_eq_some hfind, hid⟩
  · rw [UsageCall.reserves, htokens, Option.map_some, hrow.1, hrow.2]
  · rw [hrow.1, hrow.2]

theorem answers_call {db db' : UsageDb} {op op' : UsageOp} {next : op'.Answer → AnsweredUsageProg} :
    db.Answers op db' (.call op' next) := by
  intro call reservationId requestId tokens expiresAt h
  cases h

theorem answers_failed {db db' : UsageDb} {op : UsageOp} {call : UsageCall} {message : String} :
    db.Answers op db' (.ret (call, .failed message)) := by
  intro call reservationId requestId tokens expiresAt h
  cases h

section

variable (env : UsageEnv) {userId newId : String} {now tokens : ℤ}
  {request : UsageReservationRequest} (htokens : request.reservedTokens = some tokens)

include htokens

theorem safe_answerUninserted (db : UsageDb) :
    SafeUsage (tagged (.reserve env userId request newId now)
      (answerUninserted env userId request.requestId now)) db := by
  refine safeUsage_call trivial ?_
  intro db _ _
  simp only [UsageOp.exec]
  cases hfind : db.usageReservationByRequest userId request.requestId with
  | none =>
      have hlimit : Grantless (tagged (.reserve env userId request newId now)
          (currentUsageStatus env userId now .limitReached)) :=
        grantless_currentUsageStatus env _ userId now fun _ ↦ rfl
      exact ⟨hlimit.answers _ _ _, hlimit.safe _⟩
  | some existing => exact ⟨answers_existing htokens hfind, trivial⟩

theorem safe_insertReservation (db : UsageDb) :
    SafeUsage (tagged (.reserve env userId request newId now)
      (insertReservation env userId (request.row userId newId tokens now) now)) db := by
  refine safeUsage_call rfl ?_
  intro db hsound hfresh
  simp only [UsageOp.exec]
  rcases atomically_cases (UsageDb.reserve (request.row userId newId tokens now)) db with
    ⟨db', changes, hok, heq⟩ | ⟨e, -, heq⟩
  · rw [heq]
    change db.Answers _ db' (tagged _ (if changes = 0 then _ else _)) ∧
      SafeUsage (tagged _ (if changes = 0 then _ else _)) db'
    by_cases hchanges : changes = 0
    · rw [if_pos hchanges]
      exact ⟨answers_call, safe_answerUninserted env htokens db'⟩
    · rw [if_neg hchanges]
      refine ⟨?_, trivial⟩
      rcases UsageDb.reserve_cases rfl hfresh hok with ⟨hzero, -⟩ | ⟨-, -, hbudgets⟩
      · exact absurd hzero hchanges
      obtain ⟨rfl, -⟩ := UsageDb.updateBudgets_eq_ok hbudgets
      intro call reservationId requestId tokens' expiresAt hret
      injection hret with hret
      obtain ⟨rfl, hreply⟩ := Prod.ext_iff.mp hret
      injection hreply with hid
      refine .inl ⟨_, rfl, request.row userId newId tokens now,
        List.mem_append_right _ (List.mem_singleton.mpr rfl), hid, rfl, ?_⟩
      rw [UsageCall.reserves, htokens]
      rfl
  · rw [heq]
    exact ⟨answers_failed, trivial⟩

theorem safe_openAndReserve (tokenLimit : ℤ) (db : UsageDb) :
    SafeUsage (tagged (.reserve env userId request newId now)
      (openAndReserve env userId (request.row userId newId tokens now) tokenLimit now)) db := by
  refine safeUsage_call trivial ?_
  intro db _ _
  cases (UsageOp.exec (.openBudget _ _ _ tokenLimit) db).2 with
  | ok _ => exact ⟨answers_call, safe_insertReservation env htokens _⟩
  | error e => exact ⟨answers_failed, trivial⟩

end

theorem safe_aiUsageReserve (env : UsageEnv) (userId : String) (request : UsageReservationRequest)
    (newId : String) (now : ℤ) (db : UsageDb) :
    SafeUsage (tagged (.reserve env userId request newId now)
      (aiUsageReserve env userId request newId now)) db := by
  unfold aiUsageReserve
  split
  · trivial
  split
  · trivial
  rename_i tokens htokens
  refine safeUsage_call trivial ?_
  intro db _ _
  cases (UsageOp.exec (.expire userId now) db).2 with
  | error e => exact ⟨answers_failed, trivial⟩
  | ok _ =>
      refine ⟨answers_call, safeUsage_call trivial ?_⟩
      intro db _ _
      simp only [UsageOp.exec]
      cases hfind : db.usageReservationByRequest userId request.requestId with
      | some existing => exact ⟨answers_existing htokens hfind, trivial⟩
      | none =>
          cases hlimit : env.accountUsageLimit userId with
          | none => exact ⟨answers_failed, trivial⟩
          | some limit =>
              obtain ⟨tokenLimit, unlimited⟩ := limit
              cases unlimited with
              | false => exact ⟨answers_call, safe_openAndReserve env htokens tokenLimit _⟩
              | true =>
                  refine ⟨answers_call, safeUsage_call trivial ?_⟩
                  intro db _ _
                  cases (UsageOp.exec (.raiseTokenLimit _ _ tokenLimit) db).2 with
                  | ok _ => exact ⟨answers_call, safe_openAndReserve env htokens tokenLimit _⟩
                  | error e => exact ⟨answers_failed, trivial⟩

def UsageCall.serve (call : UsageCall) : AnsweredUsageProg :=
  tagged call call.handle

theorem safe_serve (call : UsageCall) (db : UsageDb) : SafeUsage call.serve db := by
  cases call with
  | reserve env userId request newId now => exact safe_aiUsageReserve env userId request newId now db
  | capture env userId reservationId request eventId now =>
      exact (grantless_aiUsageCapture env _ userId reservationId request eventId now).safe db
  | release env userId reservationId now =>
      exact (grantless_aiUsageRelease env _ userId reservationId now).safe db
  | status env userId now =>
      exact (grantless_currentUsageStatus env _ userId now fun _ ↦ rfl).safe db

/-! ## Every run -/

abbrev UsageWorld := World UsageOp UsageOp.Answer (UsageCall × UsageReply) UsageDb

def usageStep : UsageWorld → Event UsageCall → UsageWorld :=
  World.next UsageOp.exec UsageCall.serve

def usageWorld (events : List (Event UsageCall)) : UsageWorld :=
  Runs.run usageStep { db := {} } events

/-- Generated identifiers are unique along the events. -/
def UsageRun (events : List (Event UsageCall)) : Prop :=
  Runs.Along usageStep (Admits UsageDb.FreshIds) { db := {} } events

instance (events : List (Event UsageCall)) : Decidable (UsageRun events) :=
  inferInstanceAs (Decidable (Runs.Along _ _ _ _))

theorem UsageDb.sound_empty : UsageDb.Sound {} where
  windows := .nil
  ids := .nil
  requests := .nil
  funded := by simp
  reserved := by simp
  used := by simp
  checked := by simp
  reserves := by simp

theorem usageRun_append {xs ys : List (Event UsageCall)} (h : UsageRun (xs ++ ys)) :
    UsageRun xs ∧ Runs.Along usageStep (Admits UsageDb.FreshIds) (usageWorld xs) ys :=
  (Runs.along_append usageStep _ xs ys).mp h

theorem UsageRun.safe {events : List (Event UsageCall)} (h : UsageRun events) :
    WorldSafe UsageOp.exec usageContract (usageWorld events) :=
  worldSafe_run (fun c d _ ↦ safe_serve c d) UsageDb.sound_empty h

theorem UsageRun.keeps {xs ys : List (Event UsageCall)} (h : UsageRun (xs ++ ys)) :
    (usageWorld xs).db.Keeps (usageWorld (xs ++ ys)).db := by
  obtain ⟨hxs, hys⟩ := usageRun_append h
  rw [usageWorld, usageWorld, Runs.run_append]
  exact hxs.safe.guarantee_run (fun c d _ ↦ safe_serve c d) hys

namespace UsageDb

def counter (db : UsageDb) (column : UsageBudgetRow → ℤ) (userId : String) (windowStart : ℤ) : ℤ :=
  ((db.usageBudgetByWindow userId windowStart).map column).getD 0

structure Accounted (db : UsageDb) (userId : String) (windowStart : ℤ) : Prop where
  reserved : db.counter (·.reservedTokens) userId windowStart = db.heldTokens userId windowStart
  used : db.counter (·.usedTokens) userId windowStart = db.capturedTokens userId windowStart
  reserved_nonneg : 0 ≤ db.counter (·.reservedTokens) userId windowStart
  used_nonneg : 0 ≤ db.counter (·.usedTokens) userId windowStart
  within : ∀ b, db.usageBudgetByWindow userId windowStart = some b →
    b.usedTokens + b.reservedTokens ≤ b.tokenLimit

/-- The reservation is live before and no longer live after. -/
def Leaves (db db' : UsageDb) (reservationId : String) : Prop :=
  (∃ r ∈ db.reservations, r.reservationId = reservationId ∧ r.state = .reserved) ∧
    ∃ r ∈ db'.reservations, r.reservationId = reservationId ∧ r.state ≠ .reserved

theorem Sound.accounted {db : UsageDb} (h : db.Sound) (userId : String) (windowStart : ℤ) :
    db.Accounted userId windowStart := by
  cases hfind : db.usageBudgetByWindow userId windowStart with
  | none =>
      have hnone : ∀ b ∈ db.budgets, ¬ (b.userId = userId ∧ b.windowStart = windowStart) := by
        intro b hb
        simpa using List.find?_eq_none.mp hfind b hb
      obtain ⟨hheld, hcaptured⟩ := h.empty_window hnone
      constructor <;> simp [counter, hfind, hheld, hcaptured]
  | some b =>
      have hb := List.mem_of_find?_eq_some hfind
      obtain ⟨rfl, rfl⟩ : b.userId = userId ∧ b.windowStart = windowStart := by
        simpa using List.find?_some hfind
      have hcheck := h.checked b hb
      simp only [UsageBudgetRow.check, Bool.and_eq_true, decide_eq_true_eq] at hcheck
      constructor
      · simpa [counter, hfind] using h.reserved b hb
      · simpa [counter, hfind] using h.used b hb
      · simpa [counter, hfind] using hcheck.1.1.2
      · simpa [counter, hfind] using hcheck.1.1.1.2
      · rintro b' hb'
        obtain rfl := Option.some.inj (hfind.symm.trans hb')
        exact hcheck.2

theorem Keeps.not_leaves {db₁ db₂ db₃ : UsageDb} {reservationId : String} (hkeeps : db₁.Keeps db₂)
    (h : db₂.Sound) {r : UsageReservationRow} (hr : r ∈ db₁.reservations)
    (hid : r.reservationId = reservationId) (hsettled : r.state ≠ .reserved) :
    ¬ db₂.Leaves db₃ reservationId := by
  rintro ⟨⟨r₂, hr₂, hid₂, hlive⟩, -⟩
  obtain ⟨r', hr', -, hsame⟩ := hkeeps r hr
  obtain rfl := hsame hsettled
  obtain rfl := Table.eq_of_key_eq h.ids hr' hr₂ (hid.trans hid₂.symm)
  exact hsettled hlive

end UsageDb

/-- Whatever the order of requests, the counters of every window are the totals of its live
reservations and its captured events, and a reservation stops being live at most once. -/
theorem usage_budgets_accounted (events : List (Event UsageCall)) (hrun : UsageRun events) :
    (∀ userId windowStart, (usageWorld events).db.Accounted userId windowStart) ∧
      ∀ xs e ys e' zs reservationId, events = xs ++ e :: (ys ++ e' :: zs) →
        (usageWorld xs).db.Leaves (usageWorld (xs ++ [e])).db reservationId →
        ¬ (usageWorld (xs ++ e :: ys)).db.Leaves (usageWorld (xs ++ e :: (ys ++ [e']))).db
          reservationId := by
  refine ⟨fun userId windowStart ↦ hrun.safe.inv.accounted userId windowStart, ?_⟩
  rintro xs e ys e' zs reservationId rfl ⟨-, r, hr, hid, hsettled⟩
  have hsplit : UsageRun (xs ++ [e] ++ ys ++ e' :: zs) := by
    simpa using hrun
  have hearlier := (usageRun_append hsplit).1
  have hkeeps := hearlier.keeps
  rw [List.append_assoc, List.singleton_append] at hkeeps hearlier
  exact hkeeps.not_leaves hearlier.safe.inv hr hid hsettled

def demoReserve (reservationId : String) : UsageCall :=
  .reserve ⟨none, none, some 1000⟩ "u" ⟨"q", 10, 5⟩ reservationId 7

def demoReserved : List (Event UsageCall) :=
  [.start (demoReserve "r1"), .step 0, .step 0, .step 0, .step 0]

def demoReleased : List (Event UsageCall) :=
  demoReserved ++ [.start (.release ⟨none, none, some 1000⟩ "u" "r1" 8), .step 1, .step 1]

theorem usage_budgets_accounted_demo :
    UsageRun demoReleased ∧
      (∀ userId windowStart, (usageWorld demoReleased).db.Accounted userId windowStart) ∧
      (usageWorld demoReleased).db.reservations.map (·.state) = [.released] := by
  have hrun : UsageRun demoReleased := by decide +kernel
  exact ⟨hrun, (usage_budgets_accounted demoReleased hrun).1, by decide +kernel⟩

/-- Every reservation that is granted along the events is live, the caller's own and as large as
requested when the last statement of its request ran. -/
def GrantsLive (events : List (Event UsageCall)) : Prop :=
  ∀ w e op call reservationId requestId tokens expiresAt,
    Runs.Takes usageStep { db := {} } events w e →
    w.ends UsageOp.exec e =
      some (op, (call, .reservation reservationId requestId tokens expiresAt)) →
    (usageStep w e).db.Grants call reservationId

/-- No reservation stands under the request identifier but a live one of this size. -/
def UsageDb.KeyUsable (db : UsageDb) (asked : TokenRequest) : Prop :=
  ∀ r ∈ db.reservations, r.userId = asked.userId → r.requestId = asked.requestId →
    r.state = .reserved ∧ r.reservedTokens = asked.tokens

instance (db : UsageDb) (asked : TokenRequest) : Decidable (db.KeyUsable asked) :=
  inferInstanceAs (Decidable (∀ r ∈ db.reservations, _ → _ → _ ∧ _))

def LooksUpUsable (w : UsageWorld) (e : Event UsageCall) : Prop :=
  ∀ answer ∈ w.ends UsageOp.exec e, ∀ asked ∈ answer.2.1.reserves,
    answer.1 = .reservationByRequest asked.userId asked.requestId → w.db.KeyUsable asked

instance (w : UsageWorld) (e : Event UsageCall) : Decidable (LooksUpUsable w e) :=
  inferInstanceAs (Decidable (∀ answer ∈ w.ends UsageOp.exec e, ∀ asked ∈ answer.2.1.reserves,
    answer.1 = .reservationByRequest asked.userId asked.requestId → w.db.KeyUsable asked))

def demoRetried : List (Event UsageCall) :=
  demoReleased ++ [.start (demoReserve "r2"), .step 2]

end Fabushi.Worker
