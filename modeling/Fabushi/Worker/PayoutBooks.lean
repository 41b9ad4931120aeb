import Fabushi.Worker.Payouts

/-!
# What the batches of the payout tables preserve

Every payout has its reservation in the journal, and whatever else is booked under it
has the lines of a payment or of a reversal of exactly that payout.
-/

namespace Fabushi.Worker

open Interleaving Result

/-- The three entries a payout may have. -/
inductive PayoutEntry where
  | reservation | paid | reversal
  deriving DecidableEq

namespace PayoutEntry

def entryId : PayoutEntry → String → EntryId
  | .reservation => .payout
  | .paid => .payoutPaid
  | .reversal => .payoutReversal

def referenceType : PayoutEntry → String
  | .reservation => "developer_payout"
  | .paid => "developer_payout_paid"
  | .reversal => "payout_reversal"

def lines (kind : PayoutEntry) (p : PayoutRow) (provider : String) : List JournalLineRow :=
  match kind with
  | .reservation => p.reservationLines
  | .paid => p.paidLines provider
  | .reversal => p.reversalLines

theorem entryId_inj {kind kind' : PayoutEntry} {payoutId payoutId' : String}
    (h : kind.entryId payoutId = kind'.entryId payoutId') : kind = kind' ∧ payoutId = payoutId' := by
  cases kind <;> cases kind' <;> cases h <;> exact ⟨rfl, rfl⟩

theorem referenceType_inj {kind kind' : PayoutEntry}
    (h : kind.referenceType = kind'.referenceType) : kind = kind' := by
  revert h
  cases kind <;> cases kind' <;> decide

theorem lines_status (kind : PayoutEntry) (p : PayoutRow) (status : PayoutStatus)
    (provider : String) : kind.lines { p with status } provider = kind.lines p provider := by
  cases kind <;> rfl

theorem entryId_of_mem_lines {kind : PayoutEntry} {p : PayoutRow} {provider : String}
    {l : JournalLineRow} (hl : l ∈ kind.lines p provider) : l.entryId = kind.entryId p.payoutId := by
  cases kind <;>
    simp only [lines, PayoutRow.reservationLines, PayoutRow.paidLines, PayoutRow.reversalLines,
      List.mem_cons, List.not_mem_nil, or_false] at hl <;>
    rcases hl with rfl | rfl <;> rfl

end PayoutEntry

/-! ## Accounts differ -/

theorem prefixed_ne {c d : Char} (h : c ≠ d) {s t u v : String} (hs : s.toList.head? = some c)
    (ht : t.toList.head? = some d) : s ++ u ≠ t ++ v := by
  intro heq
  have hlists := congrArg (fun x : String ↦ x.toList.head?) heq
  simp only [String.toList_append, List.head?_append, hs, ht, Option.some_or] at hlists
  exact h (Option.some.inj hlists)

theorem head_developerAvailable : "developer-available:".toList.head? = some 'd' := by
  decide

theorem head_payoutClearing : "payout-clearing:".toList.head? = some 'p' := by
  decide

theorem head_externalPayout : "external-payout:".toList.head? = some 'e' := by
  decide

theorem developerAvailableAccount_eq (developerId currency : String) :
    developerAvailableAccount developerId currency =
      "developer-available:" ++ (developerId ++ (":" ++ currency)) := by
  unfold developerAvailableAccount
  rw [String.append_assoc, String.append_assoc]

theorem payoutClearingAccount_eq (payoutAccountId currency : String) :
    payoutClearingAccount payoutAccountId currency =
      "payout-clearing:" ++ (payoutAccountId ++ (":" ++ currency)) := by
  unfold payoutClearingAccount
  rw [String.append_assoc, String.append_assoc]

theorem externalPayoutAccount_eq (provider currency : String) :
    externalPayoutAccount provider currency =
      "external-payout:" ++ (provider ++ (":" ++ currency)) := by
  unfold externalPayoutAccount
  rw [String.append_assoc, String.append_assoc]

theorem available_ne_clearing (developerId payoutAccountId currency currency' : String) :
    developerAvailableAccount developerId currency ≠
      payoutClearingAccount payoutAccountId currency' := by
  rw [developerAvailableAccount_eq, payoutClearingAccount_eq]
  exact prefixed_ne (show 'd' ≠ 'p' by decide) head_developerAvailable head_payoutClearing

theorem external_ne_clearing (provider payoutAccountId currency currency' : String) :
    externalPayoutAccount provider currency ≠ payoutClearingAccount payoutAccountId currency' := by
  rw [externalPayoutAccount_eq, payoutClearingAccount_eq]
  exact prefixed_ne (show 'e' ≠ 'p' by decide) head_externalPayout head_payoutClearing

/-! ## Books -/

structure Books (j : Journal) (payouts : List PayoutRow) : Prop where
  wf : j.WellFormed
  positive : ∀ p ∈ payouts, 0 < p.amount
  named : ∀ (kind : PayoutEntry), ∀ e ∈ j.entries, e.referenceType = kind.referenceType →
    e.entryId = kind.entryId e.referenceId
  owned : ∀ (kind : PayoutEntry) (payoutId : String), ∀ e ∈ j.entries,
    e.entryId = kind.entryId payoutId → e.state = .posted ∧ ∃ p ∈ payouts, p.payoutId = payoutId
  lines : ∀ (kind : PayoutEntry), ∀ p ∈ payouts, j.isPosted (kind.entryId p.payoutId) = true →
    ∃ provider, j.linesOf (kind.entryId p.payoutId) = kind.lines p provider

namespace Books

variable {j j' : Journal} {payouts : List PayoutRow}

theorem walletAccount (h : Books j payouts) (accountId ownerType ownerId currency : String) :
    Books (j.walletAccount accountId ownerType ownerId currency) payouts where
  wf := h.wf.walletAccount accountId ownerType ownerId currency
  positive := h.positive
  named := h.named
  owned := h.owned
  lines := h.lines

theorem entryUnused (h : Books j payouts) {kind : PayoutEntry} {payoutId : String}
    (hfresh : ∀ e ∈ j.entries, e.entryId ≠ kind.entryId payoutId) :
    j.EntryUnused (kind.entryId payoutId) kind.referenceType payoutId := by
  intro e he
  refine ⟨hfresh e he, ?_⟩
  rintro ⟨htype, rfl⟩
  exact hfresh e he (h.named kind e he htype)

theorem missing_or_posted (h : Books j payouts) (kind : PayoutEntry) (payoutId : String) :
    (∀ e ∈ j.entries, e.entryId ≠ kind.entryId payoutId) ∨
      j.isPosted (kind.entryId payoutId) = true := by
  by_cases hex : ∃ e ∈ j.entries, e.entryId = kind.entryId payoutId
  · obtain ⟨e, he, hid⟩ := hex
    exact .inr (Journal.isPosted_iff.mpr ⟨e, he, hid, (h.owned kind payoutId e he hid).1⟩)
  · push Not at hex
    exact .inl hex

theorem not_draft (h : Books j payouts) (kind : PayoutEntry) (payoutId : String) :
    j.isDraft (kind.entryId payoutId) = false := by
  rw [Bool.eq_false_iff]
  intro hdraft
  obtain ⟨e, he, hid, hstate⟩ := Journal.isDraft_iff.mp hdraft
  rw [(h.owned kind payoutId e he hid).1] at hstate
  cases hstate

theorem pairs (kind : PayoutEntry) {p : PayoutRow} (hp : 0 < p.amount) (provider : String) :
    ∃ l₁ l₂, kind.lines p provider = [l₁, l₂] ∧ l₁.tag ≠ l₂.tag ∧ l₁.accountId ≠ l₂.accountId ∧
      l₁.currency = l₂.currency ∧ l₁.amount ≠ 0 ∧ l₁.amount + l₂.amount = 0 := by
  cases kind with
  | reservation =>
      refine ⟨_, _, rfl, ?_, available_ne_clearing _ _ _ _, rfl, ?_, ?_⟩
      · simp [PayoutRow.line]
      · simp [PayoutRow.line]
        omega
      · simp [PayoutRow.line]
  | paid =>
      refine ⟨_, _, rfl, ?_, (external_ne_clearing _ _ _ _).symm, rfl, ?_, ?_⟩
      · simp [PayoutRow.line]
      · simp [PayoutRow.line]
        omega
      · simp [PayoutRow.line]
  | reversal =>
      refine ⟨_, _, rfl, ?_, (available_ne_clearing _ _ _ _).symm, rfl, ?_, ?_⟩
      · simp [PayoutRow.line]
      · simp [PayoutRow.line]
        omega
      · simp [PayoutRow.line]

theorem book (h : Books j payouts) {kind : PayoutEntry} {p : PayoutRow} (hp : p ∈ payouts)
    (hids : (payouts.map (·.payoutId)).Nodup) {provider : String}
    (hfresh : ∀ e ∈ j.entries, e.entryId ≠ kind.entryId p.payoutId)
    (hrun : (j.draftEntry (kind.entryId p.payoutId) kind.referenceType p.payoutId).postLines
      (kind.entryId p.payoutId) (kind.lines p provider) = .ok j') :
    Books j' payouts ∧ (∀ id, j'.isPosted id = true ↔
      j.isPosted id = true ∨ id = kind.entryId p.payoutId) := by
  obtain ⟨l₁, l₂, hlines, htag, haccount, hcurrency, hne, hsum⟩ :=
    pairs kind (h.positive p hp) provider
  have hid : ∀ l ∈ kind.lines p provider, l.entryId = kind.entryId p.payoutId :=
    fun l hl ↦ PayoutEntry.entryId_of_mem_lines hl
  rw [hlines] at hrun hid
  obtain ⟨rfl, hwf⟩ := h.wf.postPair_new (h.entryUnused hfresh) (hid l₁ (by simp))
    (hid l₂ (by simp)) htag haccount hcurrency hne hsum hrun
  have hposted : ∀ id, ({ j with
      entries := j.entries ++ [⟨kind.entryId p.payoutId, kind.referenceType, p.payoutId, .posted⟩]
      lines := j.lines ++ [l₁, l₂] } : Journal).isPosted id = true ↔
      j.isPosted id = true ∨ id = kind.entryId p.payoutId := by
    intro id
    rw [Journal.isPosted_append, Bool.or_eq_true, Bool.and_eq_true, decide_eq_true_eq,
      decide_eq_true_eq, and_iff_left rfl]
    exact or_congr_right eq_comm
  refine ⟨⟨hwf, h.positive, ?_, ?_, ?_⟩, hposted⟩
  · intro kind' e he htype
    rcases List.mem_append.mp he with he | he
    · exact h.named kind' e he htype
    · rw [List.mem_singleton.mp he] at htype ⊢
      rw [PayoutEntry.referenceType_inj htype]
  · intro kind' payoutId e he hentry
    rcases List.mem_append.mp he with he | he
    · exact h.owned kind' payoutId e he hentry
    · rw [List.mem_singleton.mp he] at hentry ⊢
      exact ⟨rfl, p, hp, (PayoutEntry.entryId_inj hentry).2⟩
  · intro kind' p' hp' hpost
    rw [Journal.linesOf_append]
    by_cases hsame : kind'.entryId p'.payoutId = kind.entryId p.payoutId
    · obtain ⟨rfl, hpid⟩ := PayoutEntry.entryId_inj hsame
      obtain rfl := Table.eq_of_key_eq hids hp' hp hpid
      refine ⟨provider, ?_⟩
      rw [h.wf.linesOf_unused hfresh, List.nil_append, hlines, List.filter_eq_self]
      intro l hl
      simpa using hid l hl
    · rcases (hposted _).mp hpost with hold | hnew
      · obtain ⟨provider', hold⟩ := h.lines kind' p' hp' hold
        refine ⟨provider', ?_⟩
        rw [hold, List.filter_eq_nil_iff.mpr, List.append_nil]
        intro l hl
        rw [decide_eq_true_eq, hid l hl]
        exact fun heq ↦ hsame heq.symm
      · exact absurd hnew hsame

theorem postEntry (h : Books j payouts) (kind : PayoutEntry) {p : PayoutRow} (hp : p ∈ payouts)
    (hids : (payouts.map (·.payoutId)).Nodup) {provider : String} {guard : Bool}
    (hrun : (if guard then j.draftEntry (kind.entryId p.payoutId) kind.referenceType p.payoutId
      else j).postLines (kind.entryId p.payoutId) (kind.lines p provider) = .ok j') :
    Books j' payouts ∧ ∀ id, j'.isPosted id = true ↔
      j.isPosted id = true ∨ guard = true ∧ id = kind.entryId p.payoutId := by
  have hskip : j.postLines (kind.entryId p.payoutId) (kind.lines p provider) = .ok j :=
    Journal.postLines_not_draft (h.not_draft kind p.payoutId)
      fun l hl ↦ PayoutEntry.entryId_of_mem_lines hl
  cases guard with
  | false =>
      obtain rfl := Except.ok.inj (hskip.symm.trans hrun)
      simp [h]
  | true =>
      simp only [if_true] at hrun
      simp only [true_and]
      rcases h.missing_or_posted kind p.payoutId with hmissing | hposted
      · exact h.book hp hids hmissing hrun
      · obtain ⟨e, he, hid, -⟩ := Journal.isPosted_iff.mp hposted
        rw [Journal.draftEntry_ignored ⟨e, he, hid⟩] at hrun
        obtain rfl := Except.ok.inj (hskip.symm.trans hrun)
        refine ⟨h, fun id ↦ ⟨.inl, ?_⟩⟩
        rintro (hold | rfl)
        · exact hold
        · exact hposted

theorem updateStatus (h : Books j payouts) (selects : PayoutRow → Bool) (status : PayoutStatus) :
    Books j (Table.update selects (fun p ↦ { p with status }) payouts) where
  wf := h.wf
  positive p hp := by
    obtain ⟨old, hold, rfl⟩ := Table.mem_update.mp hp
    split <;> exact h.positive old hold
  named := h.named
  owned kind payoutId e he hid := by
    obtain ⟨hstate, p, hp, rfl⟩ := h.owned kind payoutId e he hid
    refine ⟨hstate, _, Table.mem_update.mpr ⟨p, hp, rfl⟩, ?_⟩
    split <;> rfl
  lines kind p hp hposted := by
    obtain ⟨old, hold, rfl⟩ := Table.mem_update.mp hp
    split at hposted
    · rw [if_pos ‹_›]
      simp only [kind.lines_status]
      exact h.lines kind old hold hposted
    · rw [if_neg ‹_›]
      exact h.lines kind old hold hposted

theorem addPayout (h : Books j payouts) {p : PayoutRow} (hp : 0 < p.amount)
    (hnew : ∀ q ∈ payouts, q.payoutId ≠ p.payoutId) : Books j (payouts ++ [p]) where
  wf := h.wf
  positive q hq := by
    rcases List.mem_append.mp hq with hq | hq
    · exact h.positive q hq
    · rwa [List.mem_singleton.mp hq]
  named := h.named
  owned kind payoutId e he hid := by
    obtain ⟨hstate, q, hq, hpid⟩ := h.owned kind payoutId e he hid
    exact ⟨hstate, q, List.mem_append_left _ hq, hpid⟩
  lines kind q hq hposted := by
    rcases List.mem_append.mp hq with hq | hq
    · exact h.lines kind q hq hposted
    · obtain ⟨e, he, hid, -⟩ := Journal.isPosted_iff.mp hposted
      obtain ⟨-, q', hq', hpid⟩ := h.owned kind q.payoutId e he hid
      rw [List.mem_singleton.mp hq] at hpid
      exact absurd hpid (hnew q' hq')

theorem missing_of_new (h : Books j payouts) {payoutId : String}
    (hnew : ∀ q ∈ payouts, q.payoutId ≠ payoutId) (kind : PayoutEntry) :
    ∀ e ∈ j.entries, e.entryId ≠ kind.entryId payoutId := by
  intro e he hid
  obtain ⟨-, q, hq, hpid⟩ := h.owned kind payoutId e he hid
  exact hnew q hq hpid

theorem openAccounts (h : Books j payouts) (p : PayoutRow) :
    Books (PayoutDb.openAccounts p j) payouts :=
  (h.walletAccount _ _ _ _).walletAccount _ _ _ _

end Books

/-! ## Payouts and their entries -/

namespace PayoutDb

/-- The status of a payout and the entries booked under it agree. -/
structure Consistent (j : Journal) (p : PayoutRow) : Prop where
  reserved : j.isPosted (.payout p.payoutId) = true
  status : isOpen p.status = true ∨ p.status = .paid ∨ p.status = .failed
  paid : p.status = .paid → j.isPosted (.payoutPaid p.payoutId) = true
  failed : p.status = .failed → j.isPosted (.payoutReversal p.payoutId) = true
  clean : isOpen p.status = true → j.isPosted (.payoutPaid p.payoutId) = false ∧
    j.isPosted (.payoutReversal p.payoutId) = false

structure Sound (db : PayoutDb) : Prop where
  books : Books db.journal db.payouts
  ids : (db.payouts.map (·.payoutId)).Nodup
  keys : (db.payouts.map (·.idempotencyKey)).Nodup
  consistent : ∀ p ∈ db.payouts, Consistent db.journal p

theorem Consistent.congr {j j' : Journal} {p : PayoutRow} (h : Consistent j p)
    (hposted : ∀ kind : PayoutEntry, j'.isPosted (kind.entryId p.payoutId) =
      j.isPosted (kind.entryId p.payoutId)) : Consistent j' p where
  reserved := (hposted .reservation).trans h.reserved
  status := h.status
  paid hs := (hposted .paid).trans (h.paid hs)
  failed hs := (hposted .reversal).trans (h.failed hs)
  clean hs := ⟨(hposted .paid).trans (h.clean hs).1, (hposted .reversal).trans (h.clean hs).2⟩

def Exclusive (db : PayoutDb) : Prop :=
  ∀ p ∈ db.payouts, ¬ (db.journal.isPosted (.payoutPaid p.payoutId) = true ∧
    db.journal.isPosted (.payoutReversal p.payoutId) = true)

def Known (db : PayoutDb) (p : PayoutRow) : Prop :=
  ∃ status, { p with status } ∈ db.payouts

def Keeps (db db' : PayoutDb) : Prop :=
  ∀ p ∈ db.payouts, db'.Known p

theorem known_of_mem {db : PayoutDb} {p : PayoutRow} (hp : p ∈ db.payouts) : db.Known p :=
  ⟨p.status, hp⟩

theorem Keeps.known {db db' : PayoutDb} (h : db.Keeps db') {p : PayoutRow} (hp : db.Known p) :
    db'.Known p := by
  obtain ⟨status, hp⟩ := hp
  obtain ⟨status', hp'⟩ := h _ hp
  exact ⟨status', hp'⟩

theorem Keeps.refl (db : PayoutDb) : db.Keeps db :=
  fun _ hp ↦ known_of_mem hp

theorem Keeps.trans {db₁ db₂ db₃ : PayoutDb} (h₁ : db₁.Keeps db₂) (h₂ : db₂.Keeps db₃) :
    db₁.Keeps db₃ :=
  fun p hp ↦ h₂.known (h₁ p hp)

def NewId (db : PayoutDb) (payoutId : String) : Prop :=
  ∀ p ∈ db.payouts, p.payoutId ≠ payoutId

/-! ## Reserving -/

theorem insertPayout_cases {db db' : PayoutDb} {p : PayoutRow}
    {onConflict : Except SqlError PayoutDb} (hconflict : ∀ d, onConflict = .ok d → d = db)
    (h : db.insertPayout p onConflict = .ok db') :
    db' = db ∨ p.amount ≤ db.journal.walletBalance p.availableAccount ∧ 0 < p.amount ∧
      (∀ q ∈ db.payouts, q.idempotencyKey ≠ p.idempotencyKey) ∧
      db' = { db with payouts := db.payouts ++ [p] } := by
  unfold insertPayout at h
  split at h
  · exact .inl (Except.ok.inj h).symm
  split at h
  · exact .inl (hconflict _ h)
  rename_i hbalance hkey
  obtain ⟨_, -, h⟩ := bind_eq_ok.mp h
  obtain ⟨_, hamount, h⟩ := bind_eq_ok.mp h
  obtain ⟨_, -, h⟩ := bind_eq_ok.mp h
  refine .inr ⟨not_lt.mp hbalance, ensure_eq_ok.mp hamount, ?_, (Except.ok.inj h).symm⟩
  simpa using hkey

/-- What a batch that reserves a payout did: nothing but opening accounts, or inserting the
payout and booking it against a sufficient balance. -/
inductive Reserved (p : PayoutRow) (db db' : PayoutDb) : Prop
  | skipped (hpayouts : db'.payouts = db.payouts)
      (hjournal : db'.journal = openAccounts p db.journal)
  | booked (hbalance : p.amount ≤ db.journal.walletBalance p.availableAccount)
      (hamount : 0 < p.amount) (hkey : ∀ q ∈ db.payouts, q.idempotencyKey ≠ p.idempotencyKey)
      (hpayouts : db'.payouts = db.payouts ++ [p])
      (hjournal : ((openAccounts p db.journal).draftEntry (.payout p.payoutId) "developer_payout"
        p.payoutId).postLines (.payout p.payoutId) p.reservationLines = .ok db'.journal)

theorem reserved_of_book {db db₁ db₂ : PayoutDb} {p : PayoutRow} (h : db.Sound)
    (hnew : db.NewId p.payoutId)
    (hinsert : db₁ = { db with journal := openAccounts p db.journal } ∨
      p.amount ≤ (openAccounts p db.journal).walletBalance p.availableAccount ∧ 0 < p.amount ∧
      (∀ q ∈ db.payouts, q.idempotencyKey ≠ p.idempotencyKey) ∧
      db₁ = { db with journal := openAccounts p db.journal, payouts := db.payouts ++ [p] })
    (hbook : db₁.bookPayout p = .ok db₂) :
    Reserved p db db₂ ∧ db₂.payouts = db₁.payouts := by
  obtain ⟨journal, hpost, hdb⟩ := bind_eq_ok.mp hbook
  obtain rfl := Except.ok.inj hdb
  rcases hinsert with rfl | ⟨hbalance, hamount, hkey, rfl⟩
  · have hnone : (db.payouts.any fun old ↦ decide (old.payoutId = p.payoutId)) = false := by
      simpa [NewId] using hnew
    simp only [hnone, Bool.false_eq_true, if_false] at hpost
    rw [Journal.postLines_not_draft] at hpost
    · exact ⟨.skipped rfl (Except.ok.inj hpost).symm, rfl⟩
    · exact (h.books.openAccounts p).not_draft .reservation p.payoutId
    · intro l hl
      have hmem : l ∈ PayoutEntry.reservation.lines p "" := hl
      exact PayoutEntry.entryId_of_mem_lines hmem
  · have hthere : ((db.payouts ++ [p]).any fun old ↦ decide (old.payoutId = p.payoutId)) = true := by
      simp
    simp only [hthere, if_true] at hpost
    rw [openAccounts, (h.books.wf.walletAccount _ _ _ _).walletBalance_walletAccount,
      h.books.wf.walletBalance_walletAccount] at hbalance
    exact ⟨.booked hbalance hamount hkey rfl hpost, rfl⟩

theorem createPayout_reserved {db db' : PayoutDb} {p : PayoutRow} (h : db.Sound)
    (hnew : db.NewId p.payoutId) (hrun : db.createPayout p = .ok (db', ())) :
    Reserved p db db' := by
  obtain ⟨db₁, hinsert, hrun⟩ := bind_eq_ok.mp hrun
  obtain ⟨db₂, hbook, hrun⟩ := bind_eq_ok.mp hrun
  obtain rfl := congrArg Prod.fst (Except.ok.inj hrun)
  have hcases := insertPayout_cases (fun d hd ↦ (Except.ok.inj hd).symm) hinsert
  exact (reserved_of_book h hnew hcases hbook).1

theorem createPayoutV2_reserved {db db' : PayoutDb} {p : PayoutRow} {attempt : PayoutAttemptRow}
    (h : db.Sound) (hnew : db.NewId p.payoutId)
    (hrun : db.createPayoutV2 p attempt = .ok (db', ())) : Reserved p db db' := by
  obtain ⟨db₁, hinsert, hrun⟩ := bind_eq_ok.mp hrun
  obtain ⟨db₂, hbook, hrun⟩ := bind_eq_ok.mp hrun
  have hcases := insertPayout_cases (fun d hd ↦ by cases hd) hinsert
  have hreserved := (reserved_of_book h hnew hcases hbook).1
  split at hrun
  · obtain ⟨_, -, hrun⟩ := bind_eq_ok.mp hrun
    obtain ⟨_, -, hrun⟩ := bind_eq_ok.mp hrun
    obtain rfl := congrArg Prod.fst (Except.ok.inj hrun)
    cases hreserved with
    | skipped hpayouts hjournal => exact .skipped hpayouts hjournal
    | booked hbalance hamount hkey hpayouts hjournal =>
        exact .booked hbalance hamount hkey hpayouts hjournal
  · obtain rfl := congrArg Prod.fst (Except.ok.inj hrun)
    exact hreserved

theorem posted_of_other {j j' : Journal} {kind : PayoutEntry} {payoutId payoutId' : String}
    {guard : Prop} (hposted : ∀ id, j'.isPosted id = true ↔
      j.isPosted id = true ∨ guard ∧ id = kind.entryId payoutId) {kind' : PayoutEntry}
    (hne : ¬ (guard ∧ kind' = kind ∧ payoutId' = payoutId)) :
    j'.isPosted (kind'.entryId payoutId') = j.isPosted (kind'.entryId payoutId') := by
  rw [Bool.eq_iff_iff, hposted]
  exact or_iff_left fun h ↦ hne ⟨h.1, PayoutEntry.entryId_inj h.2⟩

theorem Sound.reserve {db db' : PayoutDb} (h : db.Sound) {p : PayoutRow}
    (hpending : p.status = .pending) (hnew : db.NewId p.payoutId)
    (hreserved : Reserved p db db') :
    db'.Sound ∧ db.Keeps db' ∧ (db.Exclusive → db'.Exclusive) := by
  cases hreserved with
  | skipped hpayouts hjournal =>
      refine ⟨⟨?_, ?_, ?_, ?_⟩, fun q hq ↦ known_of_mem (hpayouts ▸ hq), ?_⟩
      · rw [hpayouts, hjournal]
        exact h.books.openAccounts p
      · rw [hpayouts]
        exact h.ids
      · rw [hpayouts]
        exact h.keys
      · rw [hpayouts, hjournal]
        exact fun q hq ↦ (h.consistent q hq).congr fun _ ↦ rfl
      · intro hexclusive q hq
        rw [hjournal]
        exact hexclusive q (hpayouts ▸ hq)
  | booked hbalance hamount hkey hpayouts hjournal =>
      have hids : ((db.payouts ++ [p]).map (·.payoutId)).Nodup :=
        Table.nodup_append_row h.ids hnew
      have hbooks := (h.books.openAccounts p).addPayout hamount hnew
      have hrun : (if true then (openAccounts p db.journal).draftEntry
          (PayoutEntry.reservation.entryId p.payoutId) PayoutEntry.reservation.referenceType
          p.payoutId else openAccounts p db.journal).postLines
          (PayoutEntry.reservation.entryId p.payoutId) (PayoutEntry.reservation.lines p "") =
          .ok db'.journal := hjournal
      obtain ⟨hbooks', hposted⟩ :=
        hbooks.postEntry .reservation (List.mem_append_right _ (List.mem_singleton.mpr rfl)) hids
          hrun
      have hsame : ∀ q ∈ db.payouts, ∀ kind : PayoutEntry,
          db'.journal.isPosted (kind.entryId q.payoutId) =
            db.journal.isPosted (kind.entryId q.payoutId) :=
        fun q hq kind ↦ posted_of_other hposted fun hsame ↦ hnew q hq hsame.2.2
      have hnone : ∀ kind : PayoutEntry, kind ≠ .reservation →
          db'.journal.isPosted (kind.entryId p.payoutId) = false := by
        intro kind hkind
        rw [posted_of_other hposted fun hsame ↦ hkind hsame.2.1, Bool.eq_false_iff]
        intro hpost
        obtain ⟨e, he, hid, -⟩ := Journal.isPosted_iff.mp hpost
        exact (h.books.openAccounts p).missing_of_new hnew kind e he hid
      refine ⟨⟨?_, ?_, ?_, ?_⟩, ?_, ?_⟩
      · rw [hpayouts]
        exact hbooks'
      · rw [hpayouts]
        exact hids
      · rw [hpayouts]
        exact Table.nodup_append_row h.keys hkey
      · rw [hpayouts]
        intro q hq
        rcases List.mem_append.mp hq with hq | hq
        · exact (h.consistent q hq).congr (hsame q hq)
        · obtain rfl := List.mem_singleton.mp hq
          refine ⟨(hposted _).mpr (.inr ⟨rfl, rfl⟩), .inl (by rw [hpending]; rfl), ?_, ?_, ?_⟩
          · exact fun hs ↦ by cases hpending.symm.trans hs
          · exact fun hs ↦ by cases hpending.symm.trans hs
          · exact fun _ ↦ ⟨hnone .paid (by decide), hnone .reversal (by decide)⟩
      · intro q hq
        exact known_of_mem (hpayouts ▸ List.mem_append_left _ hq)
      · intro hexclusive q hq
        rw [hpayouts] at hq
        rintro ⟨hpaid, hreversed⟩
        rcases List.mem_append.mp hq with hq | hq
        · exact hexclusive q hq
            ⟨(hsame q hq .paid).symm.trans hpaid, (hsame q hq .reversal).symm.trans hreversed⟩
        · rw [List.mem_singleton.mp hq] at hpaid
          cases (hnone .paid (by decide)).symm.trans hpaid

/-! ## Paying and reversing -/

theorem Sound.settle {db : PayoutDb} (h : db.Sound) {j : Journal} (hbooks : Books j db.payouts)
    {selects : PayoutRow → Bool} {status : PayoutStatus}
    (hconsistent : ∀ q ∈ db.payouts,
      Consistent j (if selects q then { q with status } else q))
    (attempts : List PayoutAttemptRow) :
    Sound { db with
      journal := j
      attempts
      payouts := Table.update selects (fun q ↦ { q with status }) db.payouts } ∧
    db.Keeps { db with
      journal := j
      attempts
      payouts := Table.update selects (fun q ↦ { q with status }) db.payouts } := by
  refine ⟨⟨hbooks.updateStatus selects status, ?_, ?_, ?_⟩, ?_⟩
  · rw [Table.map_update]
    · exact h.ids
    · exact fun _ ↦ rfl
  · rw [Table.map_update]
    · exact h.keys
    · exact fun _ ↦ rfl
  · intro q hq
    obtain ⟨old, hold, rfl⟩ := Table.mem_update.mp hq
    exact hconsistent old hold
  · intro q hq
    refine ⟨if selects q then status else q.status, Table.mem_update.mpr ⟨q, hq, ?_⟩⟩
    split <;> rfl

theorem Known.row {db : PayoutDb} {p : PayoutRow} (h : db.Known p) :
    ∃ q ∈ db.payouts, q.payoutId = p.payoutId ∧
      ∀ (kind : PayoutEntry) (provider : String), kind.lines q provider = kind.lines p provider := by
  obtain ⟨status, hq⟩ := h
  exact ⟨_, hq, rfl, fun kind provider ↦ kind.lines_status p status provider⟩

theorem finalizePaid_sound {db db' : PayoutDb} {p : PayoutRow} {provider : String} (h : db.Sound)
    (hknown : db.Known p) (hrun : db.finalizePaid p provider = .ok (db', ())) :
    db'.Sound ∧ db.Keeps db' ∧ (db.Exclusive → db'.Exclusive) := by
  obtain ⟨j, hpost, hdb⟩ := bind_eq_ok.mp hrun
  obtain rfl := congrArg Prod.fst (Except.ok.inj hdb)
  obtain ⟨q, hq, hpid, hlines⟩ := hknown.row
  have hmine : ∀ r ∈ db.payouts, r.payoutId = p.payoutId → r = q :=
    fun r hr heq ↦ Table.eq_of_key_eq h.ids hr hq (heq.trans hpid.symm)
  have hguard : (db.payouts.any fun r ↦ decide (r.payoutId = p.payoutId) && isOpen r.status) =
      isOpen q.status := by
    rw [Bool.eq_iff_iff, List.any_eq_true]
    simp only [Bool.and_eq_true, decide_eq_true_eq]
    constructor
    · rintro ⟨r, hr, hr', hopen⟩
      rwa [← hmine r hr hr']
    · exact fun hopen ↦ ⟨q, hq, hpid, hopen⟩
  have hpaidLines : p.paidLines provider = PayoutEntry.paid.lines q provider :=
    (hlines .paid provider).symm
  rw [hguard, hpaidLines, ← hpid] at hpost
  obtain ⟨hbooks, hposted⟩ :=
    ((h.books.walletAccount _ _ _ _).walletAccount _ _ _ _).postEntry .paid hq h.ids hpost
  simp only [Journal.isPosted_walletAccount] at hposted
  have hconsistent : ∀ r ∈ db.payouts, Consistent j (if r.payoutId = p.payoutId &&
      isOpen r.status && j.isPosted (.payoutPaid p.payoutId) then
        { r with status := .paid } else r) := by
    intro r hr
    by_cases hr' : r.payoutId = p.payoutId ∧ isOpen r.status = true
    · obtain rfl := hmine r hr hr'.1
      have hnow : j.isPosted (.payoutPaid p.payoutId) = true :=
        (hposted _).mpr (.inr ⟨hr'.2, by rw [hpid]; rfl⟩)
      rw [if_pos (by simp [hr', hnow])]
      refine ⟨?_, .inr (.inl rfl), fun _ ↦ ?_, fun hs ↦ (by cases hs), fun hs ↦ (by cases hs)⟩
      · exact (hposted _).mpr (.inl (h.consistent r hr).reserved)
      · exact hpid ▸ hnow
    · rw [if_neg (by simpa using fun h₁ h₂ ↦ absurd ⟨h₁, h₂⟩ hr')]
      refine (h.consistent r hr).congr fun kind ↦ posted_of_other hposted ?_
      rintro ⟨hopen, -, heq⟩
      obtain rfl := hmine r hr (heq.trans hpid)
      exact hr' ⟨hpid, hopen⟩
  refine ⟨(h.settle hbooks hconsistent _).1, (h.settle hbooks hconsistent _).2, ?_⟩
  intro hexclusive r' hr'
  obtain ⟨r, hr, rfl⟩ := Table.mem_update.mp hr'
  have hid : (if r.payoutId = p.payoutId && isOpen r.status &&
      j.isPosted (.payoutPaid p.payoutId) then { r with status := .paid } else r).payoutId =
      r.payoutId := by
    split <;> rfl
  rw [hid]
  rintro ⟨hpaid, hreversed⟩
  have hreversed' : db.journal.isPosted (.payoutReversal r.payoutId) = true := by
    rcases (hposted _).mp hreversed with hold | ⟨-, heq⟩
    · exact hold
    · cases heq
  rcases (hposted _).mp hpaid with hold | ⟨hopen, heq⟩
  · exact hexclusive r hr ⟨hold, hreversed'⟩
  · obtain rfl := hmine r hr ((EntryId.payoutPaid.inj heq).trans hpid)
    rw [((h.consistent r hr).clean hopen).2] at hreversed'
    cases hreversed'

theorem reverseFailed_sound {db db' : PayoutDb} {p : PayoutRow} (h : db.Sound)
    (hknown : db.Known p) (hrun : db.reverseFailed p = .ok (db', ())) :
    db'.Sound ∧ db.Keeps db' ∧
      ((∀ q ∈ db.payouts, q.payoutId = p.payoutId → q.status ≠ .paid) → db.Exclusive →
        db'.Exclusive) := by
  obtain ⟨j, hpost, hdb⟩ := bind_eq_ok.mp hrun
  obtain rfl := congrArg Prod.fst (Except.ok.inj hdb)
  obtain ⟨q, hq, hpid, hlines⟩ := hknown.row
  have hmine : ∀ r ∈ db.payouts, r.payoutId = p.payoutId → r = q :=
    fun r hr heq ↦ Table.eq_of_key_eq h.ids hr hq (heq.trans hpid.symm)
  have hreversalLines : p.reversalLines = PayoutEntry.reversal.lines q "" :=
    (hlines .reversal "").symm
  rw [hreversalLines, ← hpid] at hpost
  have hentry : (if true then (openAccounts p db.journal).draftEntry
      (PayoutEntry.reversal.entryId q.payoutId) PayoutEntry.reversal.referenceType q.payoutId
      else openAccounts p db.journal).postLines (PayoutEntry.reversal.entryId q.payoutId)
      (PayoutEntry.reversal.lines q "") = .ok j := hpost
  obtain ⟨hbooks, hposted⟩ := (h.books.openAccounts p).postEntry .reversal hq h.ids hentry
  have hopened : ∀ id, (openAccounts p db.journal).isPosted id = db.journal.isPosted id :=
    fun _ ↦ rfl
  simp only [hopened, true_and] at hposted
  have hnow : j.isPosted (.payoutReversal p.payoutId) = true :=
    (hposted _).mpr (.inr (by rw [hpid]; rfl))
  have hconsistent : ∀ r ∈ db.payouts, Consistent j (if r.payoutId = p.payoutId &&
      j.isPosted (.payoutReversal p.payoutId) then { r with status := .failed } else r) := by
    intro r hr
    by_cases hr' : r.payoutId = p.payoutId
    · rw [if_pos (by simp [hr', hnow])]
      refine ⟨?_, .inr (.inr rfl), fun hs ↦ (by cases hs), fun _ ↦ ?_, fun hs ↦ (by cases hs)⟩
      · exact (hposted _).mpr (.inl (h.consistent r hr).reserved)
      · exact hr' ▸ hnow
    · rw [if_neg (by simp [hr'])]
      refine (h.consistent r hr).congr fun kind ↦ ?_
      rw [Bool.eq_iff_iff, hposted]
      exact or_iff_left fun heq ↦ hr' ((PayoutEntry.entryId_inj heq).2.trans hpid)
  refine ⟨(h.settle hbooks hconsistent _).1, (h.settle hbooks hconsistent _).2, ?_⟩
  intro hunpaid hexclusive r' hr'
  obtain ⟨r, hr, rfl⟩ := Table.mem_update.mp hr'
  have hid : (if r.payoutId = p.payoutId && j.isPosted (.payoutReversal p.payoutId) then
      { r with status := .failed } else r).payoutId = r.payoutId := by
    split <;> rfl
  rw [hid]
  rintro ⟨hpaid, hreversed⟩
  have hpaid' : db.journal.isPosted (.payoutPaid r.payoutId) = true := by
    rcases (hposted _).mp hpaid with hold | heq
    · exact hold
    · cases heq
  rcases (hposted _).mp hreversed with hold | heq
  · exact hexclusive r hr ⟨hpaid', hold⟩
  · obtain rfl := hmine r hr ((EntryId.payoutReversal.inj heq).trans hpid)
    rcases (h.consistent r hr).status with hopen | hstatus | hstatus
    · rw [((h.consistent r hr).clean hopen).1] at hpaid'
      cases hpaid'
    · exact hunpaid r hr hpid hstatus
    · exact hexclusive r hr ⟨hpaid', (h.consistent r hr).failed hstatus⟩

theorem markProcessing_sound {db : PayoutDb} (h : db.Sound) (payoutId : String) :
    (db.updatePayouts (fun p ↦ p.payoutId = payoutId && p.status = .pending) .processing).Sound ∧
      db.Keeps (db.updatePayouts (fun p ↦ p.payoutId = payoutId && p.status = .pending)
        .processing) := by
  refine h.settle h.books ?_ db.attempts
  intro r hr
  have hr' := h.consistent r hr
  split
  · rename_i hsel
    simp only [Bool.and_eq_true, decide_eq_true_eq] at hsel
    refine ⟨hr'.reserved, .inl rfl, fun hs ↦ (by cases hs), fun hs ↦ (by cases hs), fun _ ↦ ?_⟩
    exact hr'.clean (by rw [hsel.2]; rfl)
  · exact hr'

end PayoutDb

end Fabushi.Worker
