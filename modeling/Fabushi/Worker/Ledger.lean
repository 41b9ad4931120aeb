import Fabushi.Worker.Journal

/-!
# Booking one entry after another

The statements of one entry either leave the journal as it is or add the entry with
its lines. Sums over the posted lines change by the new lines only, and whatever was
booked before stays as it was.
-/

namespace Fabushi.Worker

/-! ## The accounts of a developer -/

def developerPendingAccount (developerId currency : String) : String :=
  "developer-pending:" ++ developerId ++ ":" ++ currency

def developerAvailableAccount (developerId currency : String) : String :=
  "developer-available:" ++ developerId ++ ":" ++ currency

def developerReservedAccount (developerId currency : String) : String :=
  "developer-reserved:" ++ developerId ++ ":" ++ currency

def developerPaidAccount (developerId currency : String) : String :=
  "developer-paid:" ++ developerId ++ ":" ++ currency

/-! ## Accounts differ -/

def Headed (head name : String) : Prop :=
  head.toList <+: name.toList

/-- Neither head begins with the other. -/
def Incomparable (s t : String) : Prop :=
  ¬ s.toList <+: t.toList ∧ ¬ t.toList <+: s.toList

instance (s t : String) : Decidable (Incomparable s t) :=
  inferInstanceAs (Decidable (_ ∧ _))

theorem headed_append (head rest : String) : Headed head (head ++ rest) := by
  rw [Headed, String.toList_append]
  exact List.prefix_append _ _

theorem Headed.append {head name : String} (h : Headed head name) (rest : String) :
    Headed head (name ++ rest) := by
  rw [Headed, String.toList_append]
  exact h.trans (List.prefix_append _ _)

theorem Headed.ne {s t x y : String} (hx : Headed s x) (hy : Headed t y)
    (h : Incomparable s t) : x ≠ y := by
  rintro rfl
  rcases List.prefix_or_prefix_of_prefix hx hy with hst | hts
  · exact h.1 hst
  · exact h.2 hts

theorem nodup_of_heads {heads names : List String} (hheads : heads.Pairwise Incomparable)
    (hlength : heads.length = names.length) (h : ∀ n ∈ heads.zip names, Headed n.1 n.2) :
    names.Nodup := by
  induction heads generalizing names with
  | nil =>
      rw [List.length_eq_zero_iff.mp hlength.symm]
      exact List.nodup_nil
  | cons head heads ih =>
      cases names with
      | nil => exact List.nodup_nil
      | cons name names =>
          rw [List.pairwise_cons] at hheads
          have hlength' : heads.length = names.length := Nat.succ.inj hlength
          refine List.nodup_cons.mpr ⟨fun hmem ↦ ?_, ih hheads.2 hlength' fun n hn ↦
            h n (List.mem_cons_of_mem _ hn)⟩
          obtain ⟨i, hi, hname⟩ := List.mem_iff_getElem.mp hmem
          have hzip : (heads[i], name) ∈ heads.zip names :=
            List.mem_iff_getElem.mpr ⟨i, by simpa [hlength'] using hi, by simp [hname]⟩
          have hhead : Headed head name := h (head, name) List.mem_cons_self
          exact hhead.ne (h _ (List.mem_cons_of_mem _ hzip)) (hheads.1 _ (List.getElem_mem _)) rfl

namespace Journal

open Result

/-! ## One entry -/

def book (guard : Bool) (entryId : EntryId) (referenceType referenceId : String)
    (lines : List JournalLineRow) (j : Journal) : Except SqlError Journal :=
  (if guard then j.draftEntry entryId referenceType referenceId else j).postLines entryId lines

/-- The lines are those of one entry, do not get in each other's way and are all written. -/
structure EntryLines (entryId : EntryId) (lines : List JournalLineRow) : Prop where
  own : ∀ l ∈ lines, l.entryId = entryId
  distinct : lines.Pairwise fun l l' ↦ l.conflicts l' = false
  nonzero : ∀ l ∈ lines, l.amount ≠ 0

def add (j : Journal) (entry : JournalEntryRow) (lines : List JournalLineRow) : Journal :=
  { j with entries := j.entries ++ [entry], lines := j.lines ++ lines }

structure Adds (j : Journal) (entry : JournalEntryRow) (lines : List JournalLineRow) : Prop where
  unused : j.EntryUnused entry.entryId entry.referenceType entry.referenceId
  own : ∀ l ∈ lines, l.entryId = entry.entryId
  accounts : ∀ l ∈ lines, j.hasAccount l.accountId = true

theorem WellFormed.book_cases {j j' : Journal} (hwf : j.WellFormed) {guard : Bool}
    {entryId : EntryId} {referenceType referenceId : String} {lines : List JournalLineRow}
    (hclosed : j.isDraft entryId = false) (hlines : EntryLines entryId lines)
    (h : j.book guard entryId referenceType referenceId lines = .ok j') :
    (j' = j ∧ (guard = true → ¬ j.EntryUnused entryId referenceType referenceId)) ∨
      (guard = true ∧ j.Adds (booked entryId referenceType referenceId lines) lines ∧
        j' = j.add (booked entryId referenceType referenceId lines) lines) := by
  unfold book at h
  cases guard with
  | false =>
      rw [if_neg Bool.false_ne_true, postLines_not_draft hclosed hlines.own] at h
      exact .inl ⟨(Except.ok.inj h).symm, fun hfalse ↦ by cases hfalse⟩
  | true =>
      rw [if_pos rfl] at h
      rcases Table.insertOrIgnore_cases JournalEntryRow.conflicts
        ⟨entryId, referenceType, referenceId, .draft⟩ j.entries with ⟨hconflict, hsame⟩ | ⟨hnone, -⟩
      · have hignored : j.draftEntry entryId referenceType referenceId = j := by
          simp only [draftEntry, hsame]
        rw [hignored, postLines_not_draft hclosed hlines.own] at h
        refine .inl ⟨(Except.ok.inj h).symm, fun _ hunused ↦ ?_⟩
        obtain ⟨e, he, hc⟩ := hconflict
        simp only [JournalEntryRow.conflicts, Bool.or_eq_true, Bool.and_eq_true,
          decide_eq_true_eq] at hc
        rcases hc with hid | hreference
        · exact (hunused e he).1 hid
        · exact (hunused e he).2 hreference
      · have hunused : j.EntryUnused entryId referenceType referenceId := by
          intro e he
          have hc := hnone e he
          simpa [JournalEntryRow.conflicts] using hc
        obtain ⟨rfl, haccounts⟩ := hwf.postLines_new hunused hlines.own hlines.distinct h
        have hall : (lines.filter fun l ↦ l.amount ≠ 0) = lines :=
          List.filter_eq_self.mpr fun l hl ↦ by simpa using hlines.nonzero l hl
        rw [hall]
        exact .inr ⟨rfl, ⟨hunused, hlines.own, fun l hl ↦ haccounts l hl (hlines.nonzero l hl)⟩,
          rfl⟩

/-! ## Sums over posted lines -/

def posted (j : Journal) (f : JournalLineRow → ℤ) : ℤ :=
  Table.total (fun l ↦ if j.isPosted l.entryId then f l else 0) j.lines

theorem isPosted_add (j : Journal) (entry : JournalEntryRow) (lines : List JournalLineRow)
    (entryId : EntryId) : (j.add entry lines).isPosted entryId =
      (j.isPosted entryId || (entry.entryId = entryId && entry.state = .posted)) :=
  isPosted_append j entry lines entryId

theorem isPosted_unused {j : Journal} {entryId : EntryId}
    (h : ∀ e ∈ j.entries, e.entryId ≠ entryId) : j.isPosted entryId = false := by
  rw [Bool.eq_false_iff]
  intro hposted
  obtain ⟨e, he, hid, -⟩ := isPosted_iff.mp hposted
  exact h e he hid

theorem WellFormed.posted_add {j : Journal} (hwf : j.WellFormed) {entry : JournalEntryRow}
    {lines : List JournalLineRow} (hadds : j.Adds entry lines) (f : JournalLineRow → ℤ) :
    (j.add entry lines).posted f =
      j.posted f + if entry.state = .posted then Table.total f lines else 0 := by
  have hold : ∀ l ∈ j.lines, (j.add entry lines).isPosted l.entryId = j.isPosted l.entryId := by
    intro l hl
    obtain ⟨e, he, hid⟩ := hwf.lineEntry l hl
    have hne : entry.entryId ≠ l.entryId := fun heq ↦ (hadds.unused e he).1 (hid.trans heq.symm)
    simp [isPosted_add, hne]
  have hnew : ∀ l ∈ lines, (j.add entry lines).isPosted l.entryId =
      decide (entry.state = .posted) := by
    intro l hl
    rw [isPosted_add, hadds.own l hl, isPosted_unused fun e he ↦ (hadds.unused e he).1]
    simp
  unfold posted
  rw [show (j.add entry lines).lines = j.lines ++ lines from rfl, Table.total_append]
  congr 1
  · refine Table.total_congr fun l hl ↦ ?_
    rw [hold l hl]
  · by_cases hstate : entry.state = .posted
    · rw [if_pos hstate]
      refine Table.total_congr fun l hl ↦ ?_
      rw [hnew l hl, if_pos (by simpa using hstate)]
    · rw [if_neg hstate]
      refine Table.total_eq_zero fun l hl ↦ ?_
      rw [hnew l hl, if_neg (by simpa using hstate)]

theorem WellFormed.linesOf_add {j : Journal} (hwf : j.WellFormed) {entry : JournalEntryRow}
    {lines : List JournalLineRow} (hadds : j.Adds entry lines) :
    (j.add entry lines).linesOf entry.entryId = lines := by
  rw [add, linesOf_append, hwf.linesOf_unused fun e he ↦ (hadds.unused e he).1, List.nil_append,
    List.filter_eq_self]
  exact fun l hl ↦ by simpa using hadds.own l hl

def currencyOf (j : Journal) (accountId : String) : String :=
  match j.accounts.find? fun a ↦ a.accountId = accountId with
  | some a => a.currency
  | none => ""

def lineOn (accountId currency : String) (l : JournalLineRow) : ℤ :=
  if l.accountId = accountId ∧ l.currency = currency then l.amount else 0

theorem WellFormed.walletBalance_eq {j : Journal} (hwf : j.WellFormed) (accountId : String) :
    j.walletBalance accountId = j.posted (lineOn accountId (j.currencyOf accountId)) := by
  unfold walletBalance currencyOf
  cases hfind : j.accounts.find? fun a ↦ decide (a.accountId = accountId) with
  | some a =>
      refine Table.total_congr fun l _ ↦ ?_
      by_cases hposted : j.isPosted l.entryId <;> simp [lineOn, hposted]
  | none =>
      refine (Table.total_eq_zero fun l hl ↦ ?_).symm
      obtain ⟨a, ha, hid⟩ := hasAccount_iff.mp (hwf.lineAccount l hl)
      have hne : l.accountId ≠ accountId := by
        intro heq
        have hnone := List.find?_eq_none.mp hfind a ha
        simp [hid, heq] at hnone
      simp [lineOn, hne]

theorem isBalanced_of_total {lines : List JournalLineRow} {currency : String}
    (hcurrency : ∀ l ∈ lines, l.currency = currency) (hlength : 2 ≤ lines.length)
    (htotal : Table.total (·.amount) lines = 0) : isBalanced lines = true := by
  simp only [isBalanced, Bool.and_eq_true, decide_eq_true_eq, List.all_eq_true]
  refine ⟨hlength, fun l hl ↦ ?_⟩
  rw [← htotal]
  refine Table.total_congr fun l' hl' ↦ ?_
  rw [if_pos ((hcurrency l' hl').trans (hcurrency l hl).symm)]

/-! ## Growth -/

structure Grows (own : EntryId → Prop) (j j' : Journal) : Prop where
  entries : ∃ new, j'.entries = j.entries ++ new ∧ ∀ e ∈ new, own e.entryId
  lines : ∃ new, j'.lines = j.lines ++ new ∧ ∀ l ∈ new, ∀ e ∈ j.entries, e.entryId ≠ l.entryId

namespace Grows

variable {own own' : EntryId → Prop} {j j' j'' : Journal}

theorem refl (j : Journal) : Grows own j j :=
  ⟨⟨[], by simp⟩, ⟨[], by simp⟩⟩

theorem trans (h : Grows own j j') (h' : Grows own j' j'') : Grows own j j'' := by
  obtain ⟨⟨new, hentries, hown⟩, lines, hlines, hfresh⟩ := h
  obtain ⟨⟨new', hentries', hown'⟩, lines', hlines', hfresh'⟩ := h'
  refine ⟨⟨new ++ new', by rw [hentries', hentries, List.append_assoc], ?_⟩,
    lines ++ lines', by rw [hlines', hlines, List.append_assoc], ?_⟩
  · intro e he
    rcases List.mem_append.mp he with he | he
    · exact hown e he
    · exact hown' e he
  · intro l hl e he
    rcases List.mem_append.mp hl with hl | hl
    · exact hfresh l hl e he
    · exact hfresh' l hl e (hentries ▸ List.mem_append_left _ he)

theorem mono (hown : ∀ id, own id → own' id) (h : Grows own j j') : Grows own' j j' := by
  obtain ⟨⟨new, hentries, hnew⟩, hlines⟩ := h
  exact ⟨⟨new, hentries, fun e he ↦ hown _ (hnew e he)⟩, hlines⟩

theorem add {entry : JournalEntryRow} {lines : List JournalLineRow} (hadds : j.Adds entry lines)
    (hown : own entry.entryId) : Grows own j (j.add entry lines) := by
  refine ⟨⟨[entry], rfl, by simpa using hown⟩, lines, rfl, ?_⟩
  intro l hl e he
  rw [hadds.own l hl]
  exact (hadds.unused e he).1

theorem mem_of_mem (h : Grows own j j') {e : JournalEntryRow} (he : e ∈ j.entries) :
    e ∈ j'.entries := by
  obtain ⟨new, hentries, -⟩ := h.entries
  rw [hentries]
  exact List.mem_append_left _ he

theorem mem_or_own (h : Grows own j j') {e : JournalEntryRow} (he : e ∈ j'.entries) :
    e ∈ j.entries ∨ own e.entryId := by
  obtain ⟨new, hentries, hnew⟩ := h.entries
  rw [hentries] at he
  rcases List.mem_append.mp he with he | he
  · exact .inl he
  · exact .inr (hnew e he)

theorem isPosted_of_isPosted (h : Grows own j j') {entryId : EntryId}
    (hposted : j.isPosted entryId = true) : j'.isPosted entryId = true := by
  obtain ⟨e, he, hid, hstate⟩ := isPosted_iff.mp hposted
  exact isPosted_iff.mpr ⟨e, h.mem_of_mem he, hid, hstate⟩

theorem isPosted_eq (h : Grows own j j') {entryId : EntryId} (hown : ¬ own entryId) :
    j'.isPosted entryId = j.isPosted entryId := by
  rw [Bool.eq_iff_iff]
  refine ⟨fun hposted ↦ ?_, h.isPosted_of_isPosted⟩
  obtain ⟨e, he, rfl, hstate⟩ := isPosted_iff.mp hposted
  exact isPosted_iff.mpr ⟨e, (h.mem_or_own he).resolve_right hown, rfl, hstate⟩

theorem linesOf_eq (h : Grows own j j') {e : JournalEntryRow} (he : e ∈ j.entries) :
    j'.linesOf e.entryId = j.linesOf e.entryId := by
  obtain ⟨lines, hlines, hfresh⟩ := h.lines
  rw [linesOf, hlines, List.filter_append, linesOf, List.append_right_eq_self,
    List.filter_eq_nil_iff]
  intro l hl heq
  exact hfresh l hl e he (decide_eq_true_eq.mp heq).symm

end Grows

/-! ## Journals that are in order -/

/-- The tables are well formed, references are not used twice, posted entries balance and every
entry is named by the rule. -/
structure InOrder (names : JournalEntryRow → Prop) (j : Journal) : Prop where
  wf : j.WellFormed
  references : (j.entries.map fun e ↦ (e.referenceType, e.referenceId)).Nodup
  balanced : ∀ e ∈ j.entries, e.state = .posted → isBalanced (j.linesOf e.entryId) = true
  named : ∀ e ∈ j.entries, names e

namespace InOrder

variable {names : JournalEntryRow → Prop} {j j' : Journal}

theorem walletAccount (h : j.InOrder names) (accountId ownerType ownerId currency : String) :
    (j.walletAccount accountId ownerType ownerId currency).InOrder names :=
  ⟨h.wf.walletAccount _ _ _ _, h.references, h.balanced, h.named⟩

theorem add (h : j.InOrder names) {entry : JournalEntryRow} {lines : List JournalLineRow}
    (hadds : j.Adds entry lines) (hbalanced : entry.state = .posted → isBalanced lines = true)
    (hnames : names entry) : (j.add entry lines).InOrder names := by
  have hgrows : Grows (fun _ ↦ True) j (j.add entry lines) := Grows.add hadds trivial
  refine ⟨h.wf.append (fun e he ↦ (hadds.unused e he).1) hadds.own hadds.accounts, ?_, ?_, ?_⟩
  · exact Table.nodup_append_row h.references fun e he heq ↦
      (hadds.unused e he).2 (Prod.ext_iff.mp heq)
  · intro e he hposted
    rcases List.mem_append.mp he with he | he
    · rw [hgrows.linesOf_eq he]
      exact h.balanced e he hposted
    · obtain rfl := List.mem_singleton.mp he
      rw [h.wf.linesOf_add hadds]
      exact hbalanced hposted
  · intro e he
    rcases List.mem_append.mp he with he | he
    · exact h.named e he
    · rw [List.mem_singleton.mp he]
      exact hnames

theorem book (h : j.InOrder names) {guard : Bool} {entryId : EntryId}
    {referenceType referenceId : String} {lines : List JournalLineRow}
    (hclosed : j.isDraft entryId = false) (hlines : EntryLines entryId lines)
    (hnames : guard = true → names (booked entryId referenceType referenceId lines))
    (hbook : j.book guard entryId referenceType referenceId lines = .ok j') :
    j'.InOrder names ∧ Grows (fun id ↦ guard = true ∧ id = entryId) j j' := by
  rcases h.wf.book_cases hclosed hlines hbook with ⟨rfl, -⟩ | ⟨hguard, hadds, rfl⟩
  · exact ⟨h, .refl j'⟩
  · refine ⟨h.add hadds ?_ (hnames hguard), .add hadds ⟨hguard, rfl⟩⟩
    intro hposted
    by_contra hnot
    simp [booked, hnot] at hposted

end InOrder

/-! ## Opening accounts -/

inductive Opened (j : Journal) : Journal → Prop
  | refl : Opened j j
  | account {j' : Journal} (h : Opened j j') (accountId ownerType ownerId currency : String) :
      Opened j (j'.walletAccount accountId ownerType ownerId currency)

namespace Opened

variable {j j' : Journal}

theorem entries_eq (h : Opened j j') : j'.entries = j.entries := by
  induction h with
  | refl => rfl
  | account _ _ _ _ _ ih => exact ih

theorem lines_eq (h : Opened j j') : j'.lines = j.lines := by
  induction h with
  | refl => rfl
  | account _ _ _ _ _ ih => exact ih

theorem isPosted_eq (h : Opened j j') (entryId : EntryId) :
    j'.isPosted entryId = j.isPosted entryId := by
  rw [isPosted, h.entries_eq, isPosted]

theorem grows (h : Opened j j') {own : EntryId → Prop} : Grows own j j' :=
  ⟨⟨[], by simp [h.entries_eq]⟩, ⟨[], by simp [h.lines_eq]⟩⟩

theorem inOrder (h : Opened j j') {names : JournalEntryRow → Prop} (hj : j.InOrder names) :
    j'.InOrder names := by
  induction h with
  | refl => exact hj
  | account _ _ _ _ _ ih => exact ih.walletAccount _ _ _ _

theorem walletBalance_eq (h : Opened j j') (hwf : j.WellFormed) (accountId : String) :
    j'.walletBalance accountId = j.walletBalance accountId := by
  have hboth : j'.WellFormed ∧ j'.walletBalance accountId = j.walletBalance accountId := by
    induction h with
    | refl => exact ⟨hwf, rfl⟩
    | account _ _ _ _ _ ih =>
        exact ⟨ih.1.walletAccount _ _ _ _, (ih.1.walletBalance_walletAccount _ _ _ _ _).trans ih.2⟩
  exact hboth.2

end Opened

end Journal

end Fabushi.Worker
