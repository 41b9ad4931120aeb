import Fabushi.Worker.PayoutBooks

/-!
# Payouts along interleaved requests and provider events

Reservations are covered and made once in every run. That a payout is not both sent
and given back depends on the reversal not running after a payment, which its batch
does not check.
-/

namespace Fabushi.Worker

open Interleaving Result

/-! ## Every operation -/

namespace PayoutDb

def FreshIds (db : PayoutDb) : PayoutOp → Prop
  | .createPayout row | .createPayoutV2 row _ => ∀ p ∈ db.payouts, p.payoutId ≠ row.payoutId
  | _ => True

instance (db : PayoutDb) (op : PayoutOp) : Decidable (db.FreshIds op) := by
  unfold FreshIds
  split <;> infer_instance

def NotPaidBefore (db : PayoutDb) : PayoutOp → Prop
  | .reverseFailed row => ∀ p ∈ db.payouts, p.payoutId = row.payoutId → p.status ≠ .paid
  | _ => True

instance (db : PayoutDb) (op : PayoutOp) : Decidable (db.NotPaidBefore op) := by
  unfold NotPaidBefore
  split <;> infer_instance

def Supports (db : PayoutDb) : PayoutOp → Prop
  | .createPayout row | .createPayoutV2 row _ => row.status = .pending
  | .finalizePaid row _ | .reverseFailed row => db.Known row
  | _ => True

def Covers (db db' : PayoutDb) : Prop :=
  ∀ p ∈ db'.payouts, (∃ q ∈ db.payouts, q.payoutId = p.payoutId) ∨
    p.amount ≤ db.journal.walletBalance p.availableAccount

theorem Covers.refl (db : PayoutDb) : db.Covers db :=
  fun p hp ↦ .inl ⟨p, hp, rfl⟩

theorem covers_update {db db' : PayoutDb} {selects : PayoutRow → Bool} {status : PayoutStatus}
    (h : db'.payouts = Table.update selects (fun p ↦ { p with status }) db.payouts) :
    db.Covers db' := by
  intro p hp
  rw [h] at hp
  obtain ⟨q, hq, rfl⟩ := Table.mem_update.mp hp
  refine .inl ⟨q, hq, ?_⟩
  split <;> rfl

theorem covers_finalizePaid {db db' : PayoutDb} {p : PayoutRow} {provider : String}
    (h : db.finalizePaid p provider = .ok (db', ())) : db.Covers db' := by
  obtain ⟨j, -, hdb⟩ := bind_eq_ok.mp h
  obtain rfl := congrArg Prod.fst (Except.ok.inj hdb)
  exact covers_update rfl

theorem covers_reverseFailed {db db' : PayoutDb} {p : PayoutRow}
    (h : db.reverseFailed p = .ok (db', ())) : db.Covers db' := by
  obtain ⟨j, -, hdb⟩ := bind_eq_ok.mp h
  obtain rfl := congrArg Prod.fst (Except.ok.inj hdb)
  exact covers_update rfl

theorem Reserved.covers {db db' : PayoutDb} {p : PayoutRow} (h : Reserved p db db') :
    db.Covers db' := by
  intro q hq
  cases h with
  | skipped hpayouts hjournal => exact .inl ⟨q, hpayouts ▸ hq, rfl⟩
  | booked hbalance hamount hkey hpayouts hjournal =>
      rw [hpayouts] at hq
      rcases List.mem_append.mp hq with hq | hq
      · exact .inl ⟨q, hq, rfl⟩
      · rw [List.mem_singleton.mp hq]
        exact .inr hbalance

theorem exec_sound {op : PayoutOp} {db : PayoutDb} (h : db.Sound) (hfresh : db.FreshIds op)
    (hsupports : db.Supports op) :
    (op.exec db).1.Sound ∧ db.Keeps (op.exec db).1 ∧ db.Covers (op.exec db).1 ∧
      (db.NotPaidBefore op → db.Exclusive → (op.exec db).1.Exclusive) := by
  have hread : db.Sound ∧ db.Keeps db ∧ db.Covers db ∧ (db.NotPaidBefore op → db.Exclusive →
      db.Exclusive) := ⟨h, .refl db, .refl db, fun _ he ↦ he⟩
  cases op with
  | createPayout row =>
      rcases atomically_cases (PayoutDb.createPayout row) db with ⟨db', _, hok, heq⟩ | ⟨e, -, heq⟩
      · rw [PayoutOp.exec, heq]
        have hreserved := createPayout_reserved h hfresh hok
        obtain ⟨hsound, hkeeps, hexclusive⟩ := h.reserve hsupports hfresh hreserved
        exact ⟨hsound, hkeeps, hreserved.covers, fun _ ↦ hexclusive⟩
      · rw [PayoutOp.exec, heq]
        exact hread
  | createPayoutV2 row attempt =>
      rcases atomically_cases (PayoutDb.createPayoutV2 row attempt) db with
        ⟨db', _, hok, heq⟩ | ⟨e, -, heq⟩
      · rw [PayoutOp.exec, heq]
        have hreserved := createPayoutV2_reserved h hfresh hok
        obtain ⟨hsound, hkeeps, hexclusive⟩ := h.reserve hsupports hfresh hreserved
        exact ⟨hsound, hkeeps, hreserved.covers, fun _ ↦ hexclusive⟩
      · rw [PayoutOp.exec, heq]
        exact hread
  | finalizePaid row provider =>
      rcases atomically_cases (PayoutDb.finalizePaid row provider) db with
        ⟨db', _, hok, heq⟩ | ⟨e, -, heq⟩
      · rw [PayoutOp.exec, heq]
        obtain ⟨hsound, hkeeps, hexclusive⟩ := finalizePaid_sound h hsupports hok
        exact ⟨hsound, hkeeps, covers_finalizePaid hok, fun _ ↦ hexclusive⟩
      · rw [PayoutOp.exec, heq]
        exact hread
  | reverseFailed row =>
      rcases atomically_cases (PayoutDb.reverseFailed row) db with ⟨db', _, hok, heq⟩ | ⟨e, -, heq⟩
      · rw [PayoutOp.exec, heq]
        obtain ⟨hsound, hkeeps, hexclusive⟩ := reverseFailed_sound h hsupports hok
        exact ⟨hsound, hkeeps, covers_reverseFailed hok, hexclusive⟩
      · rw [PayoutOp.exec, heq]
        exact hread
  | markProcessing payoutId =>
      obtain ⟨hsound, hkeeps⟩ := markProcessing_sound h payoutId
      refine ⟨hsound, hkeeps, covers_update rfl, fun _ hexclusive p hp ↦ ?_⟩
      obtain ⟨q, hq, rfl⟩ := Table.mem_update.mp hp
      have hq' := hexclusive q hq
      split <;> exact hq'
  | setAttempt attemptId state => exact ⟨⟨h.books, h.ids, h.keys, h.consistent⟩, hread.2⟩
  | attemptsPaid payoutId => exact ⟨⟨h.books, h.ids, h.keys, h.consistent⟩, hread.2⟩
  | attemptsFailed payoutId => exact ⟨⟨h.books, h.ids, h.keys, h.consistent⟩, hread.2⟩
  | payoutByIdempotency key => exact hread
  | payoutReserved key => exact hread
  | payoutAccount payoutAccountId developerId => exact hread
  | activeRoute regionCode provider => exact hread
  | walletBalance accountId => exact hread
  | payoutById payoutId => exact hread
  | payoutWithProvider payoutId => exact hread
  | latestAttempt payoutId => exact hread

end PayoutDb

/-! ## Every handler -/

def PayoutCall.creates : PayoutCall → Option AdminPayoutRequest
  | .create input _ | .createV2 input .. => some input
  | _ => none

def PayoutRow.Matches (p : PayoutRow) (input : AdminPayoutRequest) : Prop :=
  p.developerId = input.developerId ∧ p.payoutAccountId = input.payoutAccountId ∧
    p.currency = input.currency ∧ p.amount = input.amount.toInt

instance (p : PayoutRow) (input : AdminPayoutRequest) : Decidable (p.Matches input) :=
  inferInstanceAs (Decidable (_ ∧ _ ∧ _ ∧ _))

def PayoutCall.Accepts : PayoutCall → PayoutRow → Prop
  | .create input _, p => p.developerId = input.developerId ∧ p.currency = input.currency ∧
      p.amount = input.amount.toInt
  | .createV2 input .., p => p.Matches input
  | _, _ => False

abbrev AnsweredPayoutProg := Prog PayoutOp PayoutOp.Answer (PayoutCall × PayoutReply)

/-- A payout is named by a lookup of the key of its request: before the batch it is compared,
after the batch it is not. -/
def PayoutDb.Answers (db : PayoutDb) (op : PayoutOp) : AnsweredPayoutProg → Prop
  | .ret (call, .payout row) => ∃ input, call.creates = some input ∧ row ∈ db.payouts ∧
      row.idempotencyKey = input.idempotencyKey ∧
      (op = .payoutReserved input.idempotencyKey ∨
        op = .payoutByIdempotency input.idempotencyKey ∧ call.Accepts row)
  | _ => True

/-- The contract of all handlers; `strict` adds that payouts are not both sent and given back. -/
def payoutContract (strict : Prop) :
    Contract PayoutOp PayoutOp.Answer (PayoutCall × PayoutReply) PayoutDb where
  inv db := db.Sound ∧ (strict → db.Exclusive)
  guarantee := PayoutDb.Keeps
  admits db op := db.FreshIds op ∧ (strict → db.NotPaidBefore op)
  shows db op db' rest := db.Covers db' ∧ db.Answers op rest
  refl := .refl
  trans _ _ _ := .trans

abbrev SafePayout (strict : Prop) : AnsweredPayoutProg → PayoutDb → Prop :=
  Safe PayoutOp.exec (payoutContract strict)

def Proceeds (strict : Prop) (db : PayoutDb) (op : PayoutOp) (db' : PayoutDb)
    (p : AnsweredPayoutProg) : Prop :=
  db.Answers op p ∧ SafePayout strict p db'

section

variable {strict : Prop}

theorem safePayout_call {op : PayoutOp} {next : op.Answer → AnsweredPayoutProg} {db : PayoutDb}
    (hsupports : ∀ db', db.Keeps db' → db'.Supports op)
    (hnext : ∀ db' : PayoutDb, db.Keeps db' →
      Proceeds strict db' op (op.exec db').1 (next (op.exec db').2)) :
    SafePayout strict (.call op next) db := by
  intro db' hkeeps hinv hadmits
  obtain ⟨hsound, hkeeps', hcovers, hexclusive⟩ :=
    PayoutDb.exec_sound hinv.1 hadmits.1 (hsupports db' hkeeps)
  obtain ⟨hanswers, hsafe⟩ := hnext db' hkeeps
  exact ⟨⟨hsound, fun hs ↦ hexclusive (hadmits.2 hs) (hinv.2 hs)⟩, hkeeps', ⟨hcovers, hanswers⟩,
    hsafe⟩

theorem PayoutDb.known_of_find {db : PayoutDb} {key : PayoutRow → Bool} {p : PayoutRow}
    (h : db.payouts.find? key = some p) : db.Known p :=
  PayoutDb.known_of_mem (List.mem_of_find?_eq_some h)

theorem PayoutDb.payoutWithProvider_eq_some {db : PayoutDb} {payoutId provider : String}
    {p : PayoutRow} (h : db.payoutWithProvider payoutId = some (p, provider)) :
    db.payoutById payoutId = some p := by
  simp only [payoutWithProvider, Option.bind_eq_bind, Option.bind_eq_some_iff] at h
  obtain ⟨p', hp', a, -, heq⟩ := h
  rw [hp']
  exact congrArg some (Prod.ext_iff.mp (Option.some.inj heq)).1

section

variable (call : PayoutCall)

theorem safe_finalizePaidPayout (payoutId : String) (db : PayoutDb) :
    SafePayout strict (tagged call (finalizePaidPayout payoutId)) db := by
  refine safePayout_call (fun _ _ ↦ trivial) ?_
  intro db _
  simp only [PayoutOp.exec]
  cases hfind : db.payoutWithProvider payoutId with
  | none => exact ⟨trivial, trivial⟩
  | some found =>
      obtain ⟨payout, provider⟩ := found
      have hknown := PayoutDb.known_of_find (PayoutDb.payoutWithProvider_eq_some hfind)
      change Proceeds strict db _ db (tagged call (if _ then _ else if _ then _ else _))
      split
      · exact ⟨trivial, safePayout_call (fun _ _ ↦ trivial) fun _ _ ↦ ⟨trivial, trivial⟩⟩
      split
      · exact ⟨trivial, trivial⟩
      refine ⟨trivial, safePayout_call (fun db' hkeeps ↦ hkeeps.known hknown) ?_⟩
      intro db' _
      cases (PayoutOp.exec (.finalizePaid payout provider) db').2 with
      | ok _ => exact ⟨trivial, trivial⟩
      | error e => exact ⟨trivial, trivial⟩

theorem safe_reverseFailedPayout (payoutId : String) {next : PayoutProg}
    (hnext : ∀ db op db', Proceeds strict db op db' (tagged call next)) (db : PayoutDb) :
    SafePayout strict (tagged call (reverseFailedPayout payoutId next)) db := by
  refine safePayout_call (fun _ _ ↦ trivial) ?_
  intro db _
  simp only [PayoutOp.exec]
  cases hfind : db.payoutById payoutId with
  | none => exact ⟨trivial, trivial⟩
  | some payout =>
      have hknown := PayoutDb.known_of_find hfind
      change Proceeds strict db _ db (tagged call (if _ then _ else if _ then _ else _))
      split
      · exact hnext db _ db
      split
      · exact ⟨trivial, trivial⟩
      refine ⟨trivial, safePayout_call (fun db' hkeeps ↦ hkeeps.known hknown) ?_⟩
      intro db' _
      cases (PayoutOp.exec (.reverseFailed payout) db').2 with
      | ok _ => exact hnext db' _ _
      | error e => exact ⟨trivial, trivial⟩

theorem safe_requiredEventValue (value : Option String) (field : String)
    {next : String → PayoutProg} (hnext : ∀ v db, SafePayout strict (tagged call (next v)) db)
    (db : PayoutDb) : SafePayout strict (tagged call (requiredEventValue value field next)) db := by
  cases value with
  | none => trivial
  | some v =>
      simp only [requiredEventValue]
      split
      · exact hnext v db
      · trivial

theorem safe_payoutFailedEvent (payoutId : Option String) (db : PayoutDb) :
    SafePayout strict (tagged call (payoutFailedEvent payoutId)) db := by
  refine safe_requiredEventValue call payoutId "payoutId" (fun v db ↦ ?_) db
  refine safe_reverseFailedPayout call v ?_ db
  intro _ _ _
  exact ⟨trivial, safePayout_call (fun _ _ ↦ trivial) fun _ _ ↦ ⟨trivial, trivial⟩⟩

theorem safe_reverseAfterAttempt (attemptId : String) (state : AttemptState) (payoutId : String)
    (status : ℕ) (code message : String) (db : PayoutDb) :
    SafePayout strict (tagged call (PayoutOp.run (.setAttempt attemptId state) >>= fun _ ↦
      reverseFailedPayout payoutId (.ret (.refused status code message)))) db := by
  refine safePayout_call (fun _ _ ↦ trivial) fun _ _ ↦ ⟨trivial, ?_⟩
  refine safe_reverseFailedPayout call payoutId ?_ _
  intro _ _ _
  exact ⟨trivial, trivial⟩

theorem proceeds_settleDispatch (env : DispatchEnv) (payoutId : String)
    (attempt : PayoutAttemptRow) (db : PayoutDb) (op : PayoutOp) (db' : PayoutDb) :
    Proceeds strict db op db' (tagged call (settleDispatch env payoutId attempt)) := by
  unfold settleDispatch
  split
  · exact ⟨trivial, trivial⟩
  split
  · exact ⟨trivial, safe_reverseAfterAttempt call _ _ payoutId _ _ _ db'⟩
  · refine ⟨trivial, safePayout_call (fun _ _ ↦ trivial) fun _ _ ↦ ⟨trivial, ?_⟩⟩
    exact safePayout_call (fun _ _ ↦ trivial) fun _ _ ↦ ⟨trivial, trivial⟩

theorem proceeds_dispatchAttempt (env : DispatchEnv) (payoutId provider : String)
    (attempt : PayoutAttemptRow) (db : PayoutDb) (op : PayoutOp) (db' : PayoutDb) :
    Proceeds strict db op db' (tagged call (dispatchAttempt env payoutId provider attempt)) := by
  unfold dispatchAttempt
  split
  · exact ⟨trivial, trivial⟩
  split
  · exact ⟨trivial, trivial⟩
  split
  · exact ⟨trivial, safePayout_call (fun _ _ ↦ trivial) fun _ _ ↦ ⟨trivial, trivial⟩⟩
  split
  · exact ⟨trivial, safe_reverseAfterAttempt call _ _ payoutId _ _ _ db'⟩
  · exact proceeds_settleDispatch call env payoutId attempt db op db'

theorem safe_adminDispatchPayout (env : DispatchEnv) (payoutId : String) (db : PayoutDb) :
    SafePayout strict (tagged call (adminDispatchPayout env payoutId)) db := by
  refine safePayout_call (fun _ _ ↦ trivial) ?_
  intro db _
  simp only [PayoutOp.exec]
  cases hfind : db.payoutWithProvider payoutId with
  | none => exact ⟨trivial, trivial⟩
  | some found =>
      obtain ⟨payout, provider⟩ := found
      change Proceeds strict db _ db (tagged call (if _ then _ else _))
      split
      · exact ⟨trivial, trivial⟩
      refine ⟨trivial, safePayout_call (fun _ _ ↦ trivial) ?_⟩
      intro db _
      simp only [PayoutOp.exec]
      cases db.latestAttempt payoutId with
      | none => exact ⟨trivial, trivial⟩
      | some attempt => exact proceeds_dispatchAttempt call env payoutId provider attempt db _ db

theorem proceeds_answerReserved {input : AdminPayoutRequest} (hcreates : call.creates = some input)
    (message : String) (batch : Except SqlError Unit) (db : PayoutDb) (op : PayoutOp)
    (db' : PayoutDb) : Proceeds strict db op db'
      (tagged call (answerReserved input.idempotencyKey message batch)) := by
  cases batch with
  | error e => exact ⟨trivial, trivial⟩
  | ok _ =>
      refine ⟨trivial, safePayout_call (fun _ _ ↦ trivial) ?_⟩
      intro db _
      simp only [PayoutOp.exec]
      cases hfind : db.payoutByIdempotency input.idempotencyKey with
      | none => exact ⟨trivial, trivial⟩
      | some payout =>
          refine ⟨⟨input, hcreates, List.mem_of_find?_eq_some hfind, ?_, .inl rfl⟩, trivial⟩
          simpa using List.find?_some hfind

theorem safe_reservePayout {input : AdminPayoutRequest} (hcreates : call.creates = some input)
    (payoutId : String) (db : PayoutDb) :
    SafePayout strict (tagged call (reservePayout input payoutId)) db := by
  refine safePayout_call (fun _ _ ↦ trivial) ?_
  intro db _
  change Proceeds strict db _ db (tagged call (if _ then _ else _))
  split
  · exact ⟨trivial, trivial⟩
  refine ⟨trivial, safePayout_call (fun _ _ ↦ trivial) ?_⟩
  intro db _
  change Proceeds strict db _ db (tagged call (if _ then _ else _))
  split
  · exact ⟨trivial, trivial⟩
  refine ⟨trivial, safePayout_call (fun _ _ ↦ rfl) ?_⟩
  intro db _
  exact proceeds_answerReserved call hcreates _ _ db _ _

theorem safe_reservePayoutV2 {input : AdminPayoutRequest} (hcreates : call.creates = some input)
    (payoutId attemptId : String) (now : ℤ) (account : PayoutAccountRow) (db : PayoutDb) :
    SafePayout strict (tagged call (reservePayoutV2 input payoutId attemptId now account)) db := by
  refine safePayout_call (fun _ _ ↦ trivial) ?_
  intro db _
  change Proceeds strict db _ db (tagged call (if _ then _ else _))
  split
  · exact ⟨trivial, trivial⟩
  refine ⟨trivial, safePayout_call (fun _ _ ↦ trivial) ?_⟩
  intro db _
  change Proceeds strict db _ db (tagged call (if _ then _ else _))
  split
  · exact ⟨trivial, trivial⟩
  refine ⟨trivial, safePayout_call (fun _ _ ↦ rfl) ?_⟩
  intro db _
  exact proceeds_answerReserved call hcreates _ _ db _ _

theorem proceeds_acceptAccount {input : AdminPayoutRequest} (hcreates : call.creates = some input)
    (payoutId attemptId : String) (now : ℤ) (account : PayoutAccountRow) (db : PayoutDb)
    (op : PayoutOp) (db' : PayoutDb) : Proceeds strict db op db'
      (tagged call (acceptAccount input payoutId attemptId now account)) := by
  unfold acceptAccount
  split
  · exact ⟨trivial, trivial⟩
  · exact ⟨trivial, trivial⟩
  split
  · exact ⟨trivial, trivial⟩
  · exact ⟨trivial, safe_reservePayoutV2 call hcreates payoutId attemptId now account db'⟩

theorem safe_acceptPayoutV2 {input : AdminPayoutRequest} (hcreates : call.creates = some input)
    (payoutId attemptId : String) (now : ℤ) (db : PayoutDb) :
    SafePayout strict (tagged call (acceptPayoutV2 input payoutId attemptId now)) db := by
  refine safePayout_call (fun _ _ ↦ trivial) ?_
  intro db _
  simp only [PayoutOp.exec]
  cases db.payoutAccount input.payoutAccountId input.developerId with
  | none => exact ⟨trivial, trivial⟩
  | some account =>
      exact proceeds_acceptAccount call hcreates payoutId attemptId now account db _ db

end

theorem safe_adminCreatePayout (input : AdminPayoutRequest) (payoutId : String) (db : PayoutDb) :
    SafePayout strict (tagged (.create input payoutId) (adminCreatePayout input payoutId)) db := by
  unfold adminCreatePayout
  split
  · trivial
  split
  · trivial
  refine safePayout_call (fun _ _ ↦ trivial) ?_
  intro db _
  simp only [PayoutOp.exec]
  cases hfind : db.payoutByIdempotency input.idempotencyKey with
  | none => exact ⟨trivial, safe_reservePayout _ rfl payoutId db⟩
  | some existing =>
      change Proceeds strict db _ db (tagged _ (if _ then _ else _))
      split
      · exact ⟨trivial, trivial⟩
      · rename_i hagree
        refine ⟨⟨input, rfl, List.mem_of_find?_eq_some hfind, ?_, .inr ⟨rfl, ?_⟩⟩, trivial⟩
        · simpa using List.find?_some hfind
        · simpa [PayoutCall.Accepts, and_assoc] using hagree

theorem safe_adminCreatePayoutV2 (input : AdminPayoutRequest) (payoutId attemptId : String)
    (now : ℤ) (db : PayoutDb) :
    SafePayout strict (tagged (.createV2 input payoutId attemptId now)
      (adminCreatePayoutV2 input payoutId attemptId now)) db := by
  unfold adminCreatePayoutV2
  split
  · trivial
  split
  · trivial
  refine safePayout_call (fun _ _ ↦ trivial) ?_
  intro db _
  simp only [PayoutOp.exec]
  cases hfind : db.payoutByIdempotency input.idempotencyKey with
  | none => exact ⟨trivial, safe_acceptPayoutV2 _ rfl payoutId attemptId now db⟩
  | some existing =>
      change Proceeds strict db _ db (tagged _ (if _ then _ else _))
      split
      · exact ⟨trivial, trivial⟩
      · rename_i hagree
        refine ⟨⟨input, rfl, List.mem_of_find?_eq_some hfind, ?_, .inr ⟨rfl, ?_⟩⟩, trivial⟩
        · simpa using List.find?_some hfind
        · simpa [PayoutCall.Accepts, PayoutRow.Matches, and_assoc] using hagree

end

def PayoutCall.serve (call : PayoutCall) : AnsweredPayoutProg :=
  tagged call call.handle

attribute [local irreducible] Safe in
theorem safePayout_serve (strict : Prop) (call : PayoutCall) (db : PayoutDb) :
    SafePayout strict call.serve db := by
  cases call with
  | create input payoutId => exact safe_adminCreatePayout input payoutId db
  | createV2 input payoutId attemptId now =>
      exact safe_adminCreatePayoutV2 input payoutId attemptId now db
  | dispatch env payoutId => exact safe_adminDispatchPayout _ env payoutId db
  | payoutPaid payoutId =>
      exact safe_requiredEventValue _ payoutId "payoutId" (safe_finalizePaidPayout _) db
  | payoutFailed payoutId => exact safe_payoutFailedEvent _ payoutId db

/-! ## Every run -/

abbrev PayoutWorld := World PayoutOp PayoutOp.Answer (PayoutCall × PayoutReply) PayoutDb

def payoutStep : PayoutWorld → Event PayoutCall → PayoutWorld :=
  World.next PayoutOp.exec PayoutCall.serve

def payoutWorld (db : PayoutDb) (events : List (Event PayoutCall)) : PayoutWorld :=
  Runs.run payoutStep { db } events

/-- Generated identifiers are unique along the events. -/
def PayoutRun (db : PayoutDb) (events : List (Event PayoutCall)) : Prop :=
  Runs.Along payoutStep (Admits PayoutDb.FreshIds) { db } events

def ReversesUnpaid (db : PayoutDb) (events : List (Event PayoutCall)) : Prop :=
  Runs.Along payoutStep (Admits PayoutDb.NotPaidBefore) { db } events

instance (db : PayoutDb) (events : List (Event PayoutCall)) : Decidable (PayoutRun db events) :=
  inferInstanceAs (Decidable (Runs.Along _ _ _ _))

instance (db : PayoutDb) (events : List (Event PayoutCall)) :
    Decidable (ReversesUnpaid db events) :=
  inferInstanceAs (Decidable (Runs.Along _ _ _ _))

structure PayoutDb.Opening (db : PayoutDb) : Prop where
  noPayouts : db.payouts = []
  journal : db.journal.WellFormed
  others : ∀ (kind : PayoutEntry), ∀ e ∈ db.journal.entries,
    e.referenceType ≠ kind.referenceType ∧ ∀ payoutId, e.entryId ≠ kind.entryId payoutId

theorem PayoutDb.Opening.sound {db : PayoutDb} (h : db.Opening) : db.Sound := by
  refine ⟨⟨h.journal, ?_, ?_, ?_, ?_⟩, ?_, ?_, ?_⟩
  · simp [h.noPayouts]
  · exact fun kind e he htype ↦ absurd htype (h.others kind e he).1
  · exact fun kind payoutId e he hid ↦ absurd hid ((h.others kind e he).2 payoutId)
  · simp [h.noPayouts]
  · simp [h.noPayouts]
  · simp [h.noPayouts]
  · simp [h.noPayouts]

theorem PayoutDb.Opening.exclusive {db : PayoutDb} (h : db.Opening) : db.Exclusive := by
  intro p hp
  rw [h.noPayouts] at hp
  cases hp

theorem admits_payout {strict : Prop} {w : PayoutWorld} {e : Event PayoutCall}
    (hfresh : Admits PayoutDb.FreshIds w e) (hunpaid : strict → Admits PayoutDb.NotPaidBefore w e) :
    Admits (payoutContract strict).admits w e :=
  fun i op next he hp ↦ ⟨hfresh i op next he hp, fun hs ↦ hunpaid hs i op next he hp⟩

theorem PayoutRun.safe {db : PayoutDb} {events : List (Event PayoutCall)} (hdb : db.Opening)
    (hrun : PayoutRun db events) :
    WorldSafe PayoutOp.exec (payoutContract False) (payoutWorld db events) :=
  worldSafe_run (fun c d _ ↦ safePayout_serve False c d) ⟨hdb.sound, False.elim⟩
    (hrun.imp fun _ _ hfresh ↦ admits_payout hfresh False.elim)

theorem PayoutRun.safe_strict {db : PayoutDb} {events : List (Event PayoutCall)} (hdb : db.Opening)
    (hrun : PayoutRun db events) (hunpaid : ReversesUnpaid db events) :
    WorldSafe PayoutOp.exec (payoutContract True) (payoutWorld db events) := by
  have hboth : Runs.Along payoutStep (Admits (payoutContract True).admits) { db } events :=
    (hrun.and hunpaid).imp fun _ _ h ↦ admits_payout h.1 fun _ ↦ h.2
  exact worldSafe_run (fun c d _ ↦ safePayout_serve True c d) ⟨hdb.sound, fun _ ↦ hdb.exclusive⟩
    hboth

/-! ## Sent or given back -/

def Journal.effectOn (j : Journal) (entryId : EntryId) (accountId : String) : ℤ :=
  if j.isPosted entryId then
    Table.total (fun l ↦ if l.accountId = accountId then l.amount else 0) (j.linesOf entryId)
  else 0

def PayoutDb.clearingEffect (db : PayoutDb) (p : PayoutRow) : ℤ :=
  db.journal.effectOn (.payout p.payoutId) p.clearingAccount +
    db.journal.effectOn (.payoutPaid p.payoutId) p.clearingAccount +
    db.journal.effectOn (.payoutReversal p.payoutId) p.clearingAccount

/-- The payout is sent or given back, not both, and its status says which. -/
structure PayoutDb.Terminal (db : PayoutDb) (p : PayoutRow) : Prop where
  not_both : ¬ (db.journal.isPosted (.payoutPaid p.payoutId) = true ∧
    db.journal.isPosted (.payoutReversal p.payoutId) = true)
  paid_iff : p.status = .paid ↔ db.journal.isPosted (.payoutPaid p.payoutId) = true
  failed_iff : p.status = .failed ↔ db.journal.isPosted (.payoutReversal p.payoutId) = true
  cleared : db.journal.isPosted (.payoutPaid p.payoutId) = true ∨
    db.journal.isPosted (.payoutReversal p.payoutId) = true → db.clearingEffect p = 0

theorem effectOn_unposted {j : Journal} {entryId : EntryId} (h : ¬ j.isPosted entryId = true)
    (accountId : String) : j.effectOn entryId accountId = 0 :=
  if_neg h

theorem Books.effectOn {j : Journal} {payouts : List PayoutRow} (h : Books j payouts)
    {p : PayoutRow} (hp : p ∈ payouts) (kind : PayoutEntry)
    (hposted : j.isPosted (kind.entryId p.payoutId) = true) :
    j.effectOn (kind.entryId p.payoutId) p.clearingAccount =
      if kind = .reservation then p.amount else -p.amount := by
  obtain ⟨provider, hlines⟩ := h.lines kind p hp hposted
  have havailable : p.availableAccount ≠ p.clearingAccount := available_ne_clearing _ _ _ _
  have hexternal : externalPayoutAccount provider p.currency ≠ p.clearingAccount :=
    external_ne_clearing _ _ _ _
  rw [Journal.effectOn, if_pos hposted, hlines]
  cases kind with
  | reservation =>
      simp [PayoutEntry.lines, PayoutRow.reservationLines, PayoutRow.line, havailable]
  | paid => simp [PayoutEntry.lines, PayoutRow.paidLines, PayoutRow.line, hexternal]
  | reversal => simp [PayoutEntry.lines, PayoutRow.reversalLines, PayoutRow.line, havailable]

theorem PayoutDb.Sound.terminal {db : PayoutDb} (h : db.Sound) (hexclusive : db.Exclusive)
    {p : PayoutRow} (hp : p ∈ db.payouts) : db.Terminal p := by
  have hc := h.consistent p hp
  have hnot := hexclusive p hp
  refine ⟨hnot, ⟨hc.paid, ?_⟩, ⟨hc.failed, ?_⟩, ?_⟩
  · intro hpaid
    rcases hc.status with hopen | hstatus | hstatus
    · rw [(hc.clean hopen).1] at hpaid
      cases hpaid
    · exact hstatus
    · exact absurd ⟨hpaid, hc.failed hstatus⟩ hnot
  · intro hreversed
    rcases hc.status with hopen | hstatus | hstatus
    · rw [(hc.clean hopen).2] at hreversed
      cases hreversed
    · exact absurd ⟨hc.paid hstatus, hreversed⟩ hnot
    · exact hstatus
  · have hreservation : db.journal.effectOn (.payout p.payoutId) p.clearingAccount = p.amount :=
      h.books.effectOn hp .reservation hc.reserved
    rintro (hpaid | hreversed)
    · have heffect : db.journal.effectOn (.payoutPaid p.payoutId) p.clearingAccount = -p.amount :=
        h.books.effectOn hp .paid hpaid
      rw [PayoutDb.clearingEffect, hreservation, heffect,
        effectOn_unposted fun hreversed ↦ hnot ⟨hpaid, hreversed⟩]
      ring
    · have heffect : db.journal.effectOn (.payoutReversal p.payoutId) p.clearingAccount =
          -p.amount := h.books.effectOn hp .reversal hreversed
      rw [PayoutDb.clearingEffect, hreservation, heffect,
        effectOn_unposted fun hpaid ↦ hnot ⟨hpaid, hreversed⟩]
      ring

/-- In every run whose reversals find their payout unpaid, each payout is sent or given back at
most once, its status says which, and its clearing account is even afterwards. -/
theorem payouts_terminal (db : PayoutDb) (events : List (Event PayoutCall)) (hdb : db.Opening)
    (hrun : PayoutRun db events) (hunpaid : ReversesUnpaid db events) :
    ∀ p ∈ (payoutWorld db events).db.payouts, (payoutWorld db events).db.Terminal p := by
  intro p hp
  have hsafe := hrun.safe_strict hdb hunpaid
  exact hsafe.inv.1.terminal (hsafe.inv.2 trivial) hp

def demoPayoutDb : PayoutDb where
  journal :=
    { accounts := [⟨"developer-available:d:USD", "developer", "d:available", "USD"⟩,
        ⟨"sales:USD", "platform", "sales", "USD"⟩]
      entries := [⟨.settlement "s", "settlement_release", "s", .posted⟩]
      lines := [⟨.settlement "s", "available", "developer-available:d:USD", "USD", 100⟩,
        ⟨.settlement "s", "sales", "sales:USD", "USD", -100⟩] }
  payoutAccounts := [⟨"a", "d", "stripe_connect", "US", "active", "verified", "verified", 1,
    some ["USD"], some ["marketplace_payout"]⟩]

theorem demoPayoutDb_opening : demoPayoutDb.Opening where
  noPayouts := rfl
  journal := ⟨by decide +kernel, by decide +kernel, by decide +kernel⟩
  others kind e he := by
    obtain rfl : e = ⟨.settlement "s", "settlement_release", "s", .posted⟩ := by
      simpa [demoPayoutDb] using he
    cases kind with
    | reservation => exact ⟨by decide +kernel, fun _ h ↦ by cases h⟩
    | paid => exact ⟨by decide +kernel, fun _ h ↦ by cases h⟩
    | reversal => exact ⟨by decide +kernel, fun _ h ↦ by cases h⟩

def demoPayoutReserved : List (Event PayoutCall) :=
  [.start (.create ⟨"k", "d", "a", "USD", 60⟩ "p"), .step 0, .step 0, .step 0, .step 0, .step 0]

def demoPayoutPaid : List (Event PayoutCall) :=
  demoPayoutReserved ++ [.start (.payoutPaid (some "p")), .step 1, .step 1]

theorem payouts_terminal_demo :
    (∀ p ∈ (payoutWorld demoPayoutDb demoPayoutPaid).db.payouts,
      (payoutWorld demoPayoutDb demoPayoutPaid).db.Terminal p) ∧
      (payoutWorld demoPayoutDb demoPayoutPaid).db.payouts.map (·.status) = [.paid] :=
  ⟨payouts_terminal demoPayoutDb demoPayoutPaid demoPayoutDb_opening (by decide +kernel)
    (by decide +kernel), by decide +kernel⟩

def demoPayoutRaced : List (Event PayoutCall) :=
  demoPayoutReserved ++ [.start (.payoutFailed (some "p")), .step 1,
    .start (.payoutPaid (some "p")), .step 2, .step 2, .step 1]

/-- The payout is sent and given back. -/
theorem payout_paid_and_reversed :
    ¬ ∀ db events, db.Opening → PayoutRun db events →
      ∀ p ∈ (payoutWorld db events).db.payouts, (payoutWorld db events).db.Terminal p := by
  intro h
  have hterminal := h demoPayoutDb demoPayoutRaced demoPayoutDb_opening (by decide +kernel)
    ⟨"p", "k", "d", "a", "USD", 60, .failed⟩ (by decide +kernel)
  exact hterminal.not_both (by decide +kernel)

/-! ## Reserved once and covered -/

structure PayoutDb.ReservedOnce (db : PayoutDb) : Prop where
  one_row : ∀ p ∈ db.payouts, ∀ q ∈ db.payouts, p.idempotencyKey = q.idempotencyKey → p = q
  one_entry : ∀ p ∈ db.payouts, ∃ e ∈ db.journal.entries, e.entryId = .payout p.payoutId ∧
    e.state = .posted ∧ ∀ e' ∈ db.journal.entries, e'.referenceType = "developer_payout" →
      e'.referenceId = p.payoutId → e' = e
  its_lines : ∀ p ∈ db.payouts, db.journal.linesOf (.payout p.payoutId) = p.reservationLines
  no_other_entry : ∀ e ∈ db.journal.entries, e.referenceType = "developer_payout" →
    ∃ p ∈ db.payouts, e.entryId = .payout p.payoutId

def PayoutDb.PostsCovered (db db' : PayoutDb) : Prop :=
  ∀ payoutId, db.journal.isPosted (.payout payoutId) = false →
    db'.journal.isPosted (.payout payoutId) = true →
    ∃ p ∈ db'.payouts, p.payoutId = payoutId ∧
      p.amount ≤ db.journal.walletBalance (developerAvailableAccount p.developerId p.currency)

def NamesOwn (db : PayoutDb) (events : List (Event PayoutCall)) : Prop :=
  ∀ w e op call row, Runs.Takes payoutStep { db } events w e →
    w.ends PayoutOp.exec e = some (op, (call, .payout row)) →
    ∃ input, call.creates = some input ∧ row.Matches input

/-- The comparison of `admin_create_payout` would not miss a different payout account. -/
def PayoutRow.AccountAgrees (p : PayoutRow) (input : AdminPayoutRequest) : Prop :=
  p.developerId = input.developerId → p.currency = input.currency →
    p.amount = input.amount.toInt → p.payoutAccountId = input.payoutAccountId

instance (p : PayoutRow) (input : AdminPayoutRequest) : Decidable (p.AccountAgrees input) :=
  inferInstanceAs (Decidable (_ → _ → _ → _))

def PayoutCall.isFirstVersion : PayoutCall → Bool
  | .create .. => true
  | _ => false

/-- The first lookup of `admin_create_payout` finds no payout that differs in the account alone,
and the lookup after a batch finds none that differs at all. -/
def LooksUpOwn (w : PayoutWorld) (e : Event PayoutCall) : Prop :=
  ∀ answer ∈ w.ends PayoutOp.exec e, ∀ input ∈ answer.2.1.creates,
    ∀ p ∈ w.db.payouts, p.idempotencyKey = input.idempotencyKey →
      (answer.2.1.isFirstVersion = true → answer.1 = .payoutByIdempotency input.idempotencyKey →
        p.AccountAgrees input) ∧
      (answer.1 = .payoutReserved input.idempotencyKey → p.Matches input)

instance (w : PayoutWorld) (e : Event PayoutCall) : Decidable (LooksUpOwn w e) :=
  inferInstanceAs (Decidable (∀ answer ∈ w.ends PayoutOp.exec e, ∀ input ∈ answer.2.1.creates,
    ∀ p ∈ w.db.payouts, p.idempotencyKey = input.idempotencyKey →
      (answer.2.1.isFirstVersion = true → answer.1 = .payoutByIdempotency input.idempotencyKey →
        p.AccountAgrees input) ∧
      (answer.1 = .payoutReserved input.idempotencyKey → p.Matches input)))

theorem PayoutDb.Sound.reservedOnce {db : PayoutDb} (h : db.Sound) : db.ReservedOnce := by
  refine ⟨fun p hp q hq heq ↦ Table.eq_of_key_eq h.keys hp hq heq, ?_, ?_, ?_⟩
  · intro p hp
    obtain ⟨e, he, hid, hstate⟩ := Journal.isPosted_iff.mp (h.consistent p hp).reserved
    refine ⟨e, he, hid, hstate, ?_⟩
    intro e' he' htype hreference
    have hid' : e'.entryId = .payout e'.referenceId := h.books.named .reservation e' he' htype
    refine Table.eq_of_key_eq h.books.wf.entryIds he' he ?_
    rw [hid', hreference, hid]
  · intro p hp
    obtain ⟨provider, hlines⟩ := h.books.lines .reservation p hp (h.consistent p hp).reserved
    exact hlines
  · intro e he htype
    have hid : e.entryId = .payout e.referenceId := h.books.named .reservation e he htype
    obtain ⟨-, p, hp, hpid⟩ := h.books.owned .reservation e.referenceId e he hid
    exact ⟨p, hp, by rw [hid, hpid]⟩

theorem postsCovered_of_covers {db db' : PayoutDb} (h : db.Sound) (h' : db'.Sound)
    (hcovers : db.Covers db') : db.PostsCovered db' := by
  intro payoutId hbefore hafter
  obtain ⟨e, he, hid, -⟩ := Journal.isPosted_iff.mp hafter
  obtain ⟨-, p, hp, rfl⟩ := h'.books.owned .reservation payoutId e he hid
  refine ⟨p, hp, rfl, ?_⟩
  rcases hcovers p hp with ⟨q, hq, hqid⟩ | hcovered
  · rw [← hqid, (h.consistent q hq).reserved] at hbefore
    cases hbefore
  · exact hcovered

end Fabushi.Worker
