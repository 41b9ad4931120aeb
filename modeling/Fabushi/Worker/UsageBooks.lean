import Fabushi.Worker.AiUsage

/-!
# What the batches of the usage tables preserve

The counters of a window are the totals of its live reservations and of its captured
events, and a reservation that has left the live state keeps its row.
-/

namespace Fabushi.Worker

open Interleaving MachineInt Result

namespace UsageDb

def inWindow (userId : String) (windowStart : ℤ) (r : UsageReservationRow) : Bool :=
  r.userId = userId && r.windowStart = windowStart

def tokensOf (selects : UsageReservationRow → Bool) (db : UsageDb) (userId : String)
    (windowStart : ℤ) : ℤ :=
  Table.total (fun r ↦ if selects r && inWindow userId windowStart r then r.reservedTokens else 0)
    db.reservations

def heldTokens (db : UsageDb) (userId : String) (windowStart : ℤ) : ℤ :=
  db.tokensOf (fun r ↦ r.state = .reserved) userId windowStart

def eventInWindow (db : UsageDb) (userId : String) (windowStart : ℤ) (e : UsageEventRow) : Bool :=
  db.reservations.any fun r ↦ r.reservationId = e.reservationId && inWindow userId windowStart r

def capturedTokens (db : UsageDb) (userId : String) (windowStart : ℤ) : ℤ :=
  Table.total (fun e ↦ if db.eventInWindow userId windowStart e then e.totalTokens else 0) db.events

structure Sound (db : UsageDb) : Prop where
  windows : (db.budgets.map fun b ↦ (b.userId, b.windowStart)).Nodup
  ids : (db.reservations.map (·.reservationId)).Nodup
  requests : (db.reservations.map fun r ↦ (r.userId, r.requestId)).Nodup
  funded : ∀ r ∈ db.reservations, ∃ b ∈ db.budgets, b.userId = r.userId ∧
    b.windowStart = r.windowStart
  reserved : ∀ b ∈ db.budgets, b.reservedTokens = db.heldTokens b.userId b.windowStart
  used : ∀ b ∈ db.budgets, b.usedTokens = db.capturedTokens b.userId b.windowStart
  checked : ∀ b ∈ db.budgets, b.check = true
  reserves : ∀ e ∈ db.events, ∃ r ∈ db.reservations, r.reservationId = e.reservationId

def Keeps (db db' : UsageDb) : Prop :=
  ∀ r ∈ db.reservations, ∃ r' ∈ db'.reservations, r' = { r with state := r'.state } ∧
    (r.state ≠ .reserved → r' = r)

theorem Keeps.refl (db : UsageDb) : db.Keeps db :=
  fun r hr ↦ ⟨r, hr, rfl, fun _ ↦ rfl⟩

theorem Keeps.trans {db₁ db₂ db₃ : UsageDb} (h₁ : db₁.Keeps db₂) (h₂ : db₂.Keeps db₃) :
    db₁.Keeps db₃ := by
  intro r hr
  obtain ⟨r', hr', heq', hsettled'⟩ := h₁ r hr
  obtain ⟨r'', hr'', heq'', hsettled''⟩ := h₂ r' hr'
  refine ⟨r'', hr'', ?_, ?_⟩
  · rw [heq', UsageReservationRow.mk.injEq] at heq''
    rw [UsageReservationRow.mk.injEq]
    exact heq''
  · intro hs
    have heq := hsettled' hs
    rw [hsettled'' (heq ▸ hs), heq]

/-! ## Updates of one table -/

theorem updateBudgets_eq_ok {selects : UsageBudgetRow → Bool}
    {set : UsageBudgetRow → UsageBudgetRow} {db db' : UsageDb}
    (h : db.updateBudgets selects set = .ok db') :
    db' = { db with budgets := Table.update selects set db.budgets } ∧
      ∀ b ∈ db.budgets, selects b = true → (set b).check = true := by
  obtain ⟨budgets, hbudgets, hdb⟩ := bind_eq_ok.mp h
  obtain ⟨rfl, hcheck⟩ := updateChecked_eq_ok hbudgets
  exact ⟨(Except.ok.inj hdb).symm, hcheck⟩

@[simp] theorem inWindow_state (userId : String) (windowStart : ℤ) (r : UsageReservationRow)
    (state : ReservationState) :
    inWindow userId windowStart { r with state } = inWindow userId windowStart r := rfl

theorem eventInWindow_updateReservations (selects : UsageReservationRow → Bool)
    (state : ReservationState) (db : UsageDb) (userId : String) (windowStart : ℤ)
    (e : UsageEventRow) :
    (db.updateReservations selects state).eventInWindow userId windowStart e =
      db.eventInWindow userId windowStart e := by
  simp only [eventInWindow, updateReservations, Table.update, List.any_map]
  congr 1
  funext r
  simp only [Function.comp_apply]
  split <;> rfl

theorem heldTokens_updateReservations {selects : UsageReservationRow → Bool}
    {state : ReservationState} (hstate : state ≠ .reserved)
    (hselects : ∀ r, selects r = true → r.state = .reserved) (db : UsageDb) (userId : String)
    (windowStart : ℤ) :
    (db.updateReservations selects state).heldTokens userId windowStart =
      db.heldTokens userId windowStart - db.tokensOf selects userId windowStart := by
  simp only [heldTokens, tokensOf, updateReservations, Table.total_update]
  rw [← Table.total_sub]
  refine Table.total_congr ?_
  intro r _
  by_cases hr : selects r = true
  · simp [hr, hstate, hselects r hr]
  · simp [hr]

theorem keeps_updateReservations {selects : UsageReservationRow → Bool} {state : ReservationState}
    (hselects : ∀ r, selects r = true → r.state = .reserved) (db : UsageDb) :
    db.Keeps (db.updateReservations selects state) := by
  intro r hr
  refine ⟨_, Table.mem_update.mpr ⟨r, hr, rfl⟩, ?_, ?_⟩
  · split <;> rfl
  · intro hs
    rw [if_neg fun h ↦ hs (hselects r h)]

theorem tokensOf_unique {db : UsageDb} (h : db.Sound) {r : UsageReservationRow}
    (hr : r ∈ db.reservations) {selects : UsageReservationRow → Bool} (hselects : selects r = true)
    (honly : ∀ r', selects r' = true → r'.reservationId = r.reservationId) (userId : String)
    (windowStart : ℤ) :
    db.tokensOf selects userId windowStart =
      if inWindow userId windowStart r then r.reservedTokens else 0 := by
  rw [← Table.total_unique h.ids hr
    fun r ↦ if inWindow userId windowStart r then r.reservedTokens else 0]
  refine Table.total_congr ?_
  intro r' hr'
  by_cases hid : r'.reservationId = r.reservationId
  · rw [Table.eq_of_key_eq h.ids hr' hr hid]
    simp [hselects]
  · have hnot : selects r' = false := by
      simpa using fun hs ↦ hid (honly r' hs)
    simp [hnot, hid]

/-! ## Settling reservations -/

/-- A batch that takes the picked reservations off their windows and charges `charged` to
each window keeps the tables sound. -/
theorem Sound.settle {db : UsageDb} (h : db.Sound) {selects : UsageReservationRow → Bool}
    {state : ReservationState} (hstate : state ≠ .reserved)
    (hselects : ∀ r, selects r = true → r.state = .reserved)
    {budgets : List UsageBudgetRow} {selectsB : UsageBudgetRow → Bool}
    {set : UsageBudgetRow → UsageBudgetRow} {events : List UsageEventRow}
    (hbudgets : budgets = Table.update selectsB set db.budgets)
    (hkey : ∀ b, (set b).userId = b.userId ∧ (set b).windowStart = b.windowStart)
    (hcheck : ∀ b ∈ db.budgets, selectsB b = true → (set b).check = true)
    (hreserved : ∀ b ∈ db.budgets, (if selectsB b then set b else b).reservedTokens =
      b.reservedTokens - db.tokensOf selects b.userId b.windowStart)
    (hused : ∀ b ∈ db.budgets, (if selectsB b then set b else b).usedTokens =
      { db with events }.capturedTokens b.userId b.windowStart)
    (hevents : ∀ e ∈ events, ∃ r ∈ db.reservations, r.reservationId = e.reservationId) :
    Sound ({ db with budgets, events }.updateReservations selects state) := by
  subst hbudgets
  have hmap : ∀ b, (fun b : UsageBudgetRow ↦ (b.userId, b.windowStart)) (set b) =
      (b.userId, b.windowStart) := fun b ↦ Prod.ext (hkey b).1 (hkey b).2
  have hkept : ∀ b, (if selectsB b then set b else b).userId = b.userId ∧
      (if selectsB b then set b else b).windowStart = b.windowStart := by
    intro b
    split
    · exact hkey b
    · exact ⟨rfl, rfl⟩
  refine ⟨?_, ?_, ?_, ?_, ?_, ?_, ?_, ?_⟩
  · change (List.map _ (Table.update selectsB set db.budgets)).Nodup
    rw [Table.map_update hmap]
    exact h.windows
  · change (List.map _ (Table.update selects _ db.reservations)).Nodup
    rw [Table.map_update]
    · exact h.ids
    · exact fun _ ↦ rfl
  · change (List.map _ (Table.update selects _ db.reservations)).Nodup
    rw [Table.map_update]
    · exact h.requests
    · exact fun _ ↦ rfl
  · intro r hr
    obtain ⟨old, hold, rfl⟩ := Table.mem_update.mp hr
    obtain ⟨b, hb, huser, hwindow⟩ := h.funded old hold
    refine ⟨_, Table.mem_update.mpr ⟨b, hb, rfl⟩, ?_⟩
    rw [(hkept b).1, (hkept b).2, huser, hwindow]
    split <;> exact ⟨rfl, rfl⟩
  · intro b' hb'
    obtain ⟨b, hb, rfl⟩ := Table.mem_update.mp hb'
    rw [(hkept b).1, (hkept b).2, hreserved b hb, heldTokens_updateReservations hstate hselects,
      h.reserved b hb]
    rfl
  · intro b' hb'
    obtain ⟨b, hb, rfl⟩ := Table.mem_update.mp hb'
    rw [(hkept b).1, (hkept b).2, hused b hb]
    refine Table.total_congr ?_
    intro e _
    rw [eventInWindow_updateReservations]
    rfl
  · intro b' hb'
    obtain ⟨b, hb, rfl⟩ := Table.mem_update.mp hb'
    split
    · exact hcheck b hb ‹_›
    · exact h.checked b hb
  · intro e he
    obtain ⟨r, hr, hid⟩ := hevents e he
    refine ⟨_, Table.mem_update.mpr ⟨r, hr, rfl⟩, ?_⟩
    rw [← hid]
    split <;> rfl

theorem budgetExists_iff {db : UsageDb} {userId : String} {windowStart : ℤ} :
    db.budgetExists userId windowStart = true ↔
      ∃ b ∈ db.budgets, b.userId = userId ∧ b.windowStart = windowStart := by
  simp [budgetExists]

theorem budgetExists_updateBudgets {selects : UsageBudgetRow → Bool}
    {set : UsageBudgetRow → UsageBudgetRow} {db db' : UsageDb}
    (h : db.updateBudgets selects set = .ok db')
    (hkey : ∀ b, (set b).userId = b.userId ∧ (set b).windowStart = b.windowStart)
    (userId : String) (windowStart : ℤ) :
    db'.budgetExists userId windowStart = db.budgetExists userId windowStart := by
  obtain ⟨rfl, -⟩ := updateBudgets_eq_ok h
  simp only [budgetExists, Table.update, List.any_map]
  congr 1
  funext b
  simp only [Function.comp_apply]
  split
  · rw [(hkey b).1, (hkey b).2]
  · rfl

theorem Sound.expire {db db' : UsageDb} (h : db.Sound) {userId : String} {now : ℤ}
    (hrun : expireUsageReservations userId now db = .ok (db', ())) : db'.Sound ∧ db.Keeps db' := by
  obtain ⟨db₁, hbudgets, hdb'⟩ := bind_eq_ok.mp hrun
  simp only [budgetExists_updateBudgets hbudgets fun _ ↦ ⟨rfl, rfl⟩] at hdb'
  obtain ⟨rfl, hcheck⟩ := updateBudgets_eq_ok hbudgets
  have hlive : ∀ r, (isExpired userId now r && db.budgetExists userId r.windowStart) = true →
      r.state = .reserved := by
    intro r hr
    simp only [isExpired, Bool.and_eq_true, decide_eq_true_eq] at hr
    exact hr.1.1.2
  obtain rfl := congrArg Prod.fst (Except.ok.inj hdb')
  refine ⟨?_, keeps_updateReservations hlive _⟩
  refine h.settle (by decide) hlive rfl (fun _ ↦ ⟨rfl, rfl⟩) hcheck ?_ ?_ h.reserves
  · intro b hb
    by_cases huser : b.userId = userId
    · subst huser
      have hexists : db.budgetExists b.userId b.windowStart = true :=
        budgetExists_iff.mpr ⟨b, hb, rfl, rfl⟩
      -- the budget's own window is there, so every expired reservation of it is picked
      have htokens : db.tokensOf (fun r ↦ isExpired b.userId now r &&
          db.budgetExists b.userId r.windowStart) b.userId b.windowStart =
          db.expiredTokens b.userId now b.windowStart := by
        refine Table.total_congr ?_
        intro r _
        by_cases hw : r.windowStart = b.windowStart
        · by_cases hu : r.userId = b.userId
          · simp [inWindow, hw, hu, hexists]
          · simp [inWindow, isExpired, hu]
        · simp [inWindow, hw]
      rw [htokens]
      split
      · rfl
      · rename_i hnone
        simp only [decide_true, Bool.true_and, List.any_eq_true, not_exists, not_and] at hnone
        rw [expiredTokens, Table.total_eq_zero, sub_zero]
        intro r hr
        rw [if_neg (hnone r hr)]
    · rw [if_neg (by simp [huser]), tokensOf, Table.total_eq_zero, sub_zero]
      intro r _
      rw [if_neg]
      simp only [isExpired, inWindow, Bool.and_eq_true, decide_eq_true_eq]
      rintro ⟨⟨⟨⟨hu, -⟩, -⟩, -⟩, hu', -⟩
      exact huser (hu'.symm.trans hu)
  · intro b hb
    rw [← h.used b hb]
    split <;> rfl

theorem inWindow_iff_window (b : UsageBudgetRow) (r : UsageReservationRow) :
    (decide (b.userId = r.userId) && decide (b.windowStart = r.windowStart)) =
      inWindow b.userId b.windowStart r := by
  simp only [inWindow, eq_comm]

/-- The subquery of a capture or a release picks one live reservation `r`. -/
theorem Sound.settle_one {db db₁ : UsageDb} (h : db.Sound) {r : UsageReservationRow}
    (hr : r ∈ db.reservations) {tokens : ℤ}
    {events : List UsageEventRow} {state : ReservationState} (hstate : state ≠ .reserved)
    {selects : UsageReservationRow → Bool} (hselects : selects r = true)
    (hlives : ∀ r, selects r = true → r.state = .reserved)
    (honly : ∀ r', selects r' = true → r'.reservationId = r.reservationId)
    (hbudgets : { db with events }.updateBudgets
      (fun b ↦ b.userId = r.userId && b.windowStart = r.windowStart)
      (fun b ↦ { b with
        reservedTokens := b.reservedTokens - r.reservedTokens
        usedTokens := b.usedTokens + tokens }) = .ok db₁)
    (hused : ∀ b ∈ db.budgets, { db with events }.capturedTokens b.userId b.windowStart =
      db.capturedTokens b.userId b.windowStart +
        if inWindow b.userId b.windowStart r then tokens else 0)
    (hevents : ∀ e ∈ events, ∃ r ∈ db.reservations, r.reservationId = e.reservationId) :
    (db₁.updateReservations selects state).Sound ∧
      db.Keeps (db₁.updateReservations selects state) := by
  obtain ⟨rfl, hcheck⟩ := updateBudgets_eq_ok hbudgets
  refine ⟨?_, keeps_updateReservations hlives { db with events, budgets := _ }⟩
  refine h.settle hstate hlives rfl (fun _ ↦ ⟨rfl, rfl⟩) hcheck ?_ ?_ hevents
  · intro b hb
    rw [tokensOf_unique h hr hselects honly]
    simp only [← inWindow_iff_window]
    split
    · rfl
    · rw [sub_zero]
  · intro b hb
    rw [hused b hb, ← h.used b hb]
    simp only [← inWindow_iff_window]
    split
    · rfl
    · rw [add_zero]

@[simp] theorem updateReservations_none {selects : UsageReservationRow → Bool}
    {state : ReservationState} {db : UsageDb}
    (h : ∀ r ∈ db.reservations, selects r = false) : db.updateReservations selects state = db := by
  have hsame : Table.update selects (fun r ↦ { r with state }) db.reservations =
      db.reservations := by
    refine (List.map_congr_left ?_).trans (List.map_id _)
    intro r hr
    simp [h r hr]
  rw [updateReservations, hsame]

theorem mem_of_reservationById {db : UsageDb} {userId reservationId : String}
    {r : UsageReservationRow} (h : db.usageReservationById userId reservationId = some r) :
    r ∈ db.reservations ∧ r.userId = userId ∧ r.reservationId = reservationId := by
  refine ⟨List.mem_of_find?_eq_some h, ?_⟩
  simpa using List.find?_some h

theorem Sound.reservationById {db : UsageDb} (h : db.Sound) {r : UsageReservationRow}
    (hr : r ∈ db.reservations) : db.usageReservationById r.userId r.reservationId = some r := by
  cases hfind : db.usageReservationById r.userId r.reservationId with
  | none => simpa using List.find?_eq_none.mp hfind r hr
  | some r' =>
      obtain ⟨hr', -, hid⟩ := mem_of_reservationById hfind
      rw [Table.eq_of_key_eq h.ids hr' hr hid]

theorem Sound.capturedTokens_append {db : UsageDb} (h : db.Sound) {r : UsageReservationRow}
    (hr : r ∈ db.reservations) {event : UsageEventRow}
    (hid : r.reservationId = event.reservationId) (userId : String) (windowStart : ℤ) :
    { db with events := db.events ++ [event] }.capturedTokens userId windowStart =
      db.capturedTokens userId windowStart +
        if inWindow userId windowStart r then event.totalTokens else 0 := by
  have hevent : { db with events := db.events ++ [event] }.eventInWindow userId windowStart event =
      inWindow userId windowStart r := by
    rw [Bool.eq_iff_iff]
    simp only [eventInWindow, List.any_eq_true, Bool.and_eq_true, decide_eq_true_eq]
    constructor
    · rintro ⟨r', hr', hid', hw⟩
      rwa [Table.eq_of_key_eq h.ids hr hr' (hid.trans hid'.symm)]
    · exact fun hw ↦ ⟨r, hr, hid, hw⟩
  simp only [capturedTokens, Table.total_append, Table.total_cons, Table.total_nil, add_zero, hevent]
  rfl

theorem covers_iff {db : UsageDb} {userId : String} {event : UsageEventRow} :
    db.covers userId event = true ↔ ∃ r ∈ db.reservations,
      r.reservationId = event.reservationId ∧ r.userId = userId ∧ r.state = .reserved ∧
        event.totalTokens ≤ r.reservedTokens ∧
        db.budgetExists r.userId r.windowStart = true := by
  simp [covers, and_assoc]

theorem Sound.capture {db db' : UsageDb} (h : db.Sound) {userId : String} {event : UsageEventRow}
    {changes : ℕ} (hfresh : ∀ e ∈ db.events, e.eventId ≠ event.eventId)
    (hrun : db.capture userId event = .ok (db', changes)) : db'.Sound ∧ db.Keeps db' := by
  obtain ⟨_, -, hrest⟩ := bind_eq_ok.mp hrun
  obtain ⟨db₁, hbudgets, hdb'⟩ := bind_eq_ok.mp hrest
  obtain rfl := congrArg Prod.fst (Except.ok.inj hdb')
  by_cases hcovers : db.covers userId event = true
  · obtain ⟨r, hr, hid, rfl, hlive, -, -⟩ := covers_iff.mp hcovers
    have hfind : { db with events := db.events ++ [event] }.usageReservationById r.userId
        event.reservationId = some r := hid ▸ h.reservationById hr
    simp only [hcovers, if_true, List.any_append, List.any_cons, decide_true, Bool.true_or,
      Bool.or_true, hfind, updateWindowOf] at hbudgets ⊢
    refine h.settle_one hr (by decide) (by simp [hid, hlive]) ?_ ?_ hbudgets
      (fun b _ ↦ h.capturedTokens_append hr hid b.userId b.windowStart) ?_
    · intro r' hr'
      simp only [Bool.and_eq_true, decide_eq_true_eq] at hr'
      exact hr'.1.2
    · intro r' hr'
      simp only [Bool.and_eq_true, decide_eq_true_eq] at hr'
      rw [hr'.1.1.1, hid]
    · intro e he
      rcases List.mem_append.mp he with he | he
      · exact h.reserves e he
      · exact ⟨r, hr, by rw [hid, List.mem_singleton.mp he]⟩
  · have hposted : (db.events.any fun e ↦ decide (e.eventId = event.eventId)) = false := by
      simpa using hfresh
    simp only [hcovers, Bool.false_eq_true, if_false, hposted, updateWindowOf] at hbudgets ⊢
    obtain rfl := Except.ok.inj hbudgets
    rw [updateReservations_none fun _ _ ↦ Bool.and_false _]
    exact ⟨h, Keeps.refl db⟩

theorem Sound.release {db db' : UsageDb} (h : db.Sound) {userId reservationId : String}
    (hrun : db.release userId reservationId = .ok (db', ())) : db'.Sound ∧ db.Keeps db' := by
  obtain ⟨db₁, hbudgets, hdb'⟩ := bind_eq_ok.mp hrun
  obtain rfl := congrArg Prod.fst (Except.ok.inj hdb')
  cases hheld : db.reservations.find? (isHeld userId reservationId) with
  | none =>
      rw [hheld] at hbudgets
      obtain rfl := Except.ok.inj hbudgets
      rw [updateReservations_none]
      · exact ⟨h, Keeps.refl db⟩
      · intro r hr
        have hnot := List.find?_eq_none.mp hheld r hr
        simp [hnot]
  | some r =>
      have hr := List.mem_of_find?_eq_some hheld
      have hsel := List.find?_some hheld
      have heq : r.reservationId = reservationId ∧ r.userId = userId ∧ r.state = .reserved := by
        simpa [isHeld, and_assoc] using hsel
      obtain ⟨rfl, rfl, hlive⟩ := heq
      obtain ⟨b, hb, hbuser, hbwindow⟩ := h.funded r hr
      rw [hheld] at hbudgets
      have hexists : db₁.budgetExists r.userId r.windowStart = true := by
        rw [budgetExists_updateBudgets hbudgets fun _ ↦ ⟨rfl, rfl⟩]
        exact budgetExists_iff.mpr ⟨b, hb, hbuser, hbwindow⟩
      have hcharged : { db with events := db.events }.updateBudgets
          (fun b ↦ b.userId = r.userId && b.windowStart = r.windowStart)
          (fun b ↦ { b with
            reservedTokens := b.reservedTokens - r.reservedTokens
            usedTokens := b.usedTokens + 0 }) = .ok db₁ := by
        simpa only [updateWindowOf, add_zero] using hbudgets
      refine h.settle_one hr (by decide) (by simp [hsel, hexists]) ?_ ?_ hcharged
        (by simp) h.reserves
      · intro r' hr'
        simp only [isHeld, Bool.and_eq_true, decide_eq_true_eq] at hr'
        exact hr'.1.2
      · intro r' hr'
        simp only [isHeld, Bool.and_eq_true, decide_eq_true_eq] at hr'
        exact hr'.1.1.1

/-! ## Opening and filling a window -/

theorem Sound.raiseTokenLimit {db db' : UsageDb} (h : db.Sound) {userId : String}
    {windowStart tokenLimit : ℤ}
    (hrun : db.raiseTokenLimit userId windowStart tokenLimit = .ok (db', ())) :
    db'.Sound ∧ db.Keeps db' := by
  obtain ⟨db₁, hbudgets, hdb'⟩ := bind_eq_ok.mp hrun
  obtain rfl := congrArg Prod.fst (Except.ok.inj hdb')
  obtain ⟨rfl, hcheck⟩ := updateBudgets_eq_ok hbudgets
  refine ⟨?_, Keeps.refl db⟩
  have hsettled : Sound ({ db with
      budgets := Table.update (fun b ↦ b.userId = userId && b.windowStart = windowStart)
        (fun b ↦ { b with tokenLimit }) db.budgets }.updateReservations
          (fun _ ↦ false) .expired) := by
    refine h.settle (by decide) (by simp) rfl (fun _ ↦ ⟨rfl, rfl⟩) hcheck ?_ ?_ h.reserves
    · intro b _
      simp only [tokensOf, Bool.false_and, Bool.false_eq_true, if_false]
      rw [Table.total_eq_zero fun _ _ ↦ rfl, sub_zero]
      split <;> rfl
    · intro b hb
      rw [← h.used b hb]
      split <;> rfl
  rwa [updateReservations_none fun _ _ ↦ rfl] at hsettled

theorem Sound.empty_window {db : UsageDb} (h : db.Sound) {userId : String} {windowStart : ℤ}
    (hnone : ∀ b ∈ db.budgets, ¬ (b.userId = userId ∧ b.windowStart = windowStart)) :
    db.heldTokens userId windowStart = 0 ∧ db.capturedTokens userId windowStart = 0 := by
  have hout : ∀ r ∈ db.reservations, inWindow userId windowStart r = false := by
    intro r hr
    obtain ⟨b, hb, huser, hwindow⟩ := h.funded r hr
    have hnot := hnone b hb
    rw [huser, hwindow] at hnot
    simpa [inWindow] using hnot
  constructor
  · refine Table.total_eq_zero ?_
    intro r hr
    simp [hout r hr]
  · refine Table.total_eq_zero ?_
    intro e _
    rw [if_neg]
    simp only [eventInWindow, List.any_eq_true, not_exists, not_and]
    intro r hr
    simp [hout r hr]

theorem Sound.openBudget {db db' : UsageDb} (h : db.Sound) {userId : String}
    {windowStart windowEnd tokenLimit : ℤ}
    (hrun : db.openBudget userId windowStart windowEnd tokenLimit = .ok (db', ())) :
    db'.Sound ∧ db.Keeps db' := by
  obtain rfl := congrArg Prod.fst (Except.ok.inj hrun)
  refine ⟨?_, Keeps.refl db⟩
  split
  · rename_i hcheck
    rcases Table.insertOrIgnore_cases (fun old new : UsageBudgetRow ↦ old.userId = new.userId &&
      old.windowStart = new.windowStart) _ db.budgets with ⟨-, hsame⟩ | ⟨hnew, happend⟩
    · rw [hsame]
      exact h
    · have hnone : ∀ b ∈ db.budgets, ¬ (b.userId = userId ∧ b.windowStart = windowStart) := by
        intro b hb
        simpa using hnew b hb
      obtain ⟨hheld, hcaptured⟩ := h.empty_window hnone
      rw [happend]
      refine ⟨?_, h.ids, h.requests, ?_, ?_, ?_, ?_, h.reserves⟩
      · exact Table.nodup_append_row h.windows fun b hb heq ↦ hnone b hb (Prod.ext_iff.mp heq)
      · intro r hr
        obtain ⟨b, hb, heq⟩ := h.funded r hr
        exact ⟨b, List.mem_append_left _ hb, heq⟩
      · intro b hb
        rcases List.mem_append.mp hb with hb | hb
        · exact h.reserved b hb
        · rw [List.mem_singleton.mp hb]
          exact hheld.symm
      · intro b hb
        rcases List.mem_append.mp hb with hb | hb
        · exact h.used b hb
        · rw [List.mem_singleton.mp hb]
          exact hcaptured.symm
      · intro b hb
        rcases List.mem_append.mp hb with hb | hb
        · exact h.checked b hb
        · rw [List.mem_singleton.mp hb]
          exact hcheck
  · exact h

theorem Sound.capturedTokens_reserve {db : UsageDb} (h : db.Sound) {row : UsageReservationRow}
    (hfresh : ∀ r ∈ db.reservations, r.reservationId ≠ row.reservationId)
    (budgets : List UsageBudgetRow) (userId : String) (windowStart : ℤ) :
    { db with budgets, reservations := db.reservations ++ [row] }.capturedTokens userId windowStart =
      db.capturedTokens userId windowStart := by
  refine Table.total_congr ?_
  intro e he
  obtain ⟨r, hr, hid⟩ := h.reserves e he
  have hrow : row.reservationId ≠ e.reservationId := fun heq ↦ hfresh r hr (hid.trans heq.symm)
  simp [eventInWindow, hrow]

theorem hasRoom_iff {db : UsageDb} {row : UsageReservationRow} :
    db.hasRoom row = true ↔ ∃ b ∈ db.budgets, b.userId = row.userId ∧
      b.windowStart = row.windowStart ∧
      row.reservedTokens ≤ b.tokenLimit - b.usedTokens - b.reservedTokens := by
  simp [hasRoom, and_assoc]

theorem reserve_cases {db db' : UsageDb} {row : UsageReservationRow} {changes : ℕ}
    (hlive : row.state = .reserved)
    (hfresh : ∀ r ∈ db.reservations, r.reservationId ≠ row.reservationId)
    (hrun : db.reserve row = .ok (db', changes)) :
    (changes = 0 ∧ db' = db) ∨
      (db.hasRoom row = true ∧
        (∀ r ∈ db.reservations, ¬ (r.userId = row.userId ∧ r.requestId = row.requestId)) ∧
        { db with reservations := db.reservations ++ [row] }.updateBudgets
          (fun b ↦ b.userId = row.userId && b.windowStart = row.windowStart)
          (fun b ↦ { b with reservedTokens := b.reservedTokens + row.reservedTokens }) =
            .ok db') := by
  obtain ⟨db₁, hbudgets, hdb'⟩ := bind_eq_ok.mp hrun
  obtain ⟨rfl, rfl⟩ := Prod.ext_iff.mp (Except.ok.inj hdb')
  have hnone : (db.reservations.any fun r ↦ decide (r.reservationId = row.reservationId) &&
      decide (r.userId = row.userId) && decide (r.windowStart = row.windowStart) &&
      decide (r.state = ReservationState.reserved)) = false := by
    rw [List.any_eq_false]
    intro r hr
    simp [hfresh r hr]
  have hsame : db.updateBudgets (fun _ ↦ false)
      (fun b ↦ { b with reservedTokens := b.reservedTokens + row.reservedTokens }) = .ok db := by
    simp [updateBudgets, updateChecked, Table.update, ensure]
  split at hbudgets
  · rename_i hok
    rw [Bool.and_eq_true] at hok
    rcases Table.insertOrIgnore_cases conflicts row db.reservations with
      ⟨-, hskip⟩ | ⟨hnew, happend⟩
    · left
      simp only [hskip, hnone, Bool.and_false] at hbudgets
      rw [hsame] at hbudgets
      obtain rfl := Except.ok.inj hbudgets
      simp [hok, hskip]
    · right
      refine ⟨hok.2, ?_, ?_⟩
      · intro r hr
        have hno := hnew r hr
        simp only [conflicts, Bool.or_eq_false_iff] at hno
        simpa using hno.2
      · simpa [happend, hlive] using hbudgets
  · left
    rename_i hno
    simp only [hnone, Bool.and_false] at hbudgets
    rw [hsame] at hbudgets
    obtain rfl := Except.ok.inj hbudgets
    rw [if_neg hno]
    simp

theorem Sound.reserve {db db' : UsageDb} (h : db.Sound) {row : UsageReservationRow} {changes : ℕ}
    (hlive : row.state = .reserved)
    (hfresh : ∀ r ∈ db.reservations, r.reservationId ≠ row.reservationId)
    (hrun : db.reserve row = .ok (db', changes)) : db'.Sound ∧ db.Keeps db' := by
  rcases reserve_cases hlive hfresh hrun with ⟨-, rfl⟩ | ⟨hroom, hnew, hbudgets⟩
  · exact ⟨h, Keeps.refl db'⟩
  · obtain ⟨rfl, hcheck⟩ := updateBudgets_eq_ok hbudgets
    refine ⟨⟨?_, ?_, ?_, ?_, ?_, ?_, ?_, ?_⟩, ?_⟩
    · change (List.map _ (Table.update _ _ db.budgets)).Nodup
      rw [Table.map_update]
      · exact h.windows
      · exact fun _ ↦ rfl
    · exact Table.nodup_append_row h.ids hfresh
    · exact Table.nodup_append_row h.requests fun r hr heq ↦ hnew r hr (Prod.ext_iff.mp heq)
    · intro r hr
      have hfunded : ∃ b ∈ db.budgets, b.userId = r.userId ∧ b.windowStart = r.windowStart := by
        rcases List.mem_append.mp hr with hr | hr
        · exact h.funded r hr
        · obtain ⟨b, hb, huser, hwindow, -⟩ := hasRoom_iff.mp hroom
          rw [List.mem_singleton.mp hr]
          exact ⟨b, hb, huser, hwindow⟩
      obtain ⟨b, hb, heq⟩ := hfunded
      refine ⟨_, Table.mem_update.mpr ⟨b, hb, rfl⟩, ?_⟩
      split <;> exact heq
    · intro b' hb'
      obtain ⟨b, hb, rfl⟩ := Table.mem_update.mp hb'
      have hheld : { db with reservations := db.reservations ++ [row] }.heldTokens b.userId
          b.windowStart = b.reservedTokens +
            if inWindow b.userId b.windowStart row then row.reservedTokens else 0 := by
        simp [heldTokens, tokensOf, hlive, h.reserved b hb]
      rw [← inWindow_iff_window] at hheld
      split at hheld
      · rw [if_pos ‹_›]
        exact hheld.symm
      · rw [if_neg ‹_›]
        exact ((add_zero _).symm.trans hheld.symm)
    · intro b' hb'
      obtain ⟨b, hb, rfl⟩ := Table.mem_update.mp hb'
      rw [h.capturedTokens_reserve hfresh]
      split <;> exact h.used b hb
    · intro b' hb'
      obtain ⟨b, hb, rfl⟩ := Table.mem_update.mp hb'
      split
      · exact hcheck b hb ‹_›
      · exact h.checked b hb
    · intro e he
      obtain ⟨r, hr, hid⟩ := h.reserves e he
      exact ⟨r, List.mem_append_left _ hr, hid⟩
    · exact fun r hr ↦ ⟨r, List.mem_append_left _ hr, rfl, fun _ ↦ rfl⟩

end UsageDb

/-! ## Every operation -/

def UsageDb.FreshIds (db : UsageDb) : UsageOp → Prop
  | .reserve row => ∀ r ∈ db.reservations, r.reservationId ≠ row.reservationId
  | .capture _ event => ∀ e ∈ db.events, e.eventId ≠ event.eventId
  | _ => True

instance (db : UsageDb) (op : UsageOp) : Decidable (db.FreshIds op) :=
  match op with
  | .reserve row =>
      inferInstanceAs (Decidable (∀ r ∈ db.reservations, r.reservationId ≠ row.reservationId))
  | .capture _ event => inferInstanceAs (Decidable (∀ e ∈ db.events, e.eventId ≠ event.eventId))
  | .expire .. | .reservationByRequest .. | .raiseTokenLimit .. | .openBudget ..
  | .eventByResponse .. | .reservationById .. | .release .. | .budgetByWindow .. => isTrue trivial

def UsageOp.InsertsLive : UsageOp → Prop
  | .reserve row => row.state = .reserved
  | _ => True

theorem atomically_sound {β : Type} {batch : UsageDb → Except SqlError (UsageDb × β)} {db : UsageDb}
    (h : db.Sound)
    (hbatch : ∀ db' answer, batch db = .ok (db', answer) → db'.Sound ∧ db.Keeps db') :
    (atomically batch db).1.Sound ∧ db.Keeps (atomically batch db).1 := by
  rcases atomically_cases batch db with ⟨db', answer, hok, heq⟩ | ⟨e, -, heq⟩
  · rw [heq]
    exact hbatch db' answer hok
  · rw [heq]
    exact ⟨h, .refl db⟩

theorem UsageOp.exec_sound {op : UsageOp} {db : UsageDb} (hop : op.InsertsLive) (h : db.Sound)
    (hfresh : db.FreshIds op) : (op.exec db).1.Sound ∧ db.Keeps (op.exec db).1 := by
  cases op with
  | expire userId now => exact atomically_sound h fun _ _ hrun ↦ h.expire hrun
  | raiseTokenLimit userId windowStart tokenLimit =>
      exact atomically_sound h fun _ _ hrun ↦ h.raiseTokenLimit hrun
  | openBudget userId windowStart windowEnd tokenLimit =>
      exact atomically_sound h fun _ _ hrun ↦ h.openBudget hrun
  | reserve row => exact atomically_sound h fun _ _ hrun ↦ h.reserve hop hfresh hrun
  | capture userId event => exact atomically_sound h fun _ _ hrun ↦ h.capture hfresh hrun
  | release userId reservationId => exact atomically_sound h fun _ _ hrun ↦ h.release hrun
  | reservationByRequest userId requestId => exact ⟨h, .refl db⟩
  | eventByResponse providerResponseId => exact ⟨h, .refl db⟩
  | reservationById userId reservationId => exact ⟨h, .refl db⟩
  | budgetByWindow userId windowStart => exact ⟨h, .refl db⟩

end Fabushi.Worker
