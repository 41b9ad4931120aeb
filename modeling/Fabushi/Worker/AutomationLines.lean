import Fabushi.Worker.Automations

/-!
# Automation definitions along runs

What a put or a delete changes is recorded. The changes of one definition form a line: each
one is based on the revision before it, and the row in the table is the last of them.
-/

namespace Fabushi.Worker.Automation

open Interleaving

/-! ## Changes -/

/-- A definition put or deleted; a deletion has no definition. -/
structure Change where
  userId : String
  automationId : String
  base : Option String
  revision : String
  mutationId : String
  definition : Option Definition
  now : ℤ

inductive Record where
  | changed (change : Change)
  | emitted (emission : Emission)

def Op.change : Op → Option Change
  | .write new base now =>
      some ⟨new.userId, new.automationId, base, new.revision, new.mutationId, some new.definition,
        now⟩
  | .delete userId automationId base revision mutationId now =>
      some ⟨userId, automationId, some base, revision, mutationId, none, now⟩
  | _ => none

def Call.change (codec : Codec) : Call → Option Change
  | .put userId _ input revision now _ =>
      (input.mutationId codec).map fun mutationId ↦
        ⟨userId, input.definition.id, input.baseRevision, revision, mutationId,
          some input.definition, now * 1000⟩
  | .delete userId automationId baseRevision revision now =>
      (deleteMutationId codec automationId baseRevision).map fun mutationId ↦
        ⟨userId, automationId, some baseRevision, revision, mutationId, none, now⟩
  | _ => none

/-- A change is recorded where the revision of its row is another one afterwards, and an
emission where the journal has grown. -/
def record (db : Db) (op : Op) (db' : Db) : List Record :=
  match op with
  | .emit emission => if db'.runs.length = db.runs.length then [] else [.emitted emission]
  | op =>
      match op.change with
      | none => []
      | some change =>
          if (db'.row change.userId change.automationId).map DefinitionRow.revision =
              (db.row change.userId change.automationId).map DefinitionRow.revision then []
          else [.changed change]

abbrev Recorded := Db × List Record

def Record.change : Record → Option Change
  | .changed change => some change
  | .emitted _ => none

def changes (records : List Record) : List Change :=
  records.filterMap Record.change

def Change.key (change : Change) : String × String :=
  (change.userId, change.automationId)

def line (records : List Record) (key : String × String) : List Change :=
  (changes records).filter (·.key = key)

def Follows (first second : Change) : Prop :=
  second.base = some first.revision

structure Stamp where
  revision : String
  mutationId : String
  definition : Option Definition

def Change.stamp (change : Change) : Stamp :=
  ⟨change.revision, change.mutationId, change.definition⟩

def DefinitionRow.stamp (row : DefinitionRow) : Stamp :=
  ⟨row.revision, row.mutationId, if row.deletedAt.isNone then some row.definition else none⟩

def Db.find (db : Db) (key : String × String) : Option DefinitionRow :=
  db.row key.1 key.2

/-- The definitions of the tables are the ends of their lines. -/
structure Lines (s : Recorded) : Prop where
  keys : (s.1.definitions.map DefinitionRow.key).Nodup
  fresh : ((changes s.2).map Change.revision).Nodup
  linked : ∀ key, (line s.2 key).IsChain Follows
  first : ∀ key, ∀ change ∈ (line s.2 key).head?, change.base = none
  current : ∀ key, (s.1.find key).map DefinitionRow.stamp = (line s.2 key).getLast?.map Change.stamp
  total_le : ∀ userId, s.1.total userId ≤ 20000
  live_le : ∀ userId, s.1.live userId ≤ 1000

theorem changes_append (records more : List Record) :
    changes (records ++ more) = changes records ++ changes more :=
  List.filterMap_append

theorem line_append_change (records : List Record) (change : Change) (key : String × String) :
    line (records ++ [.changed change]) key =
      if change.key = key then line records key ++ [change] else line records key := by
  rw [line, changes_append, List.filter_append]
  change line records key ++ [change].filter _ = _
  split
  · rename_i hkey
    rw [List.filter_cons_of_pos (by simpa using hkey), List.filter_nil]
  · rename_i hkey
    rw [List.filter_cons_of_neg (by simpa using hkey), List.filter_nil, List.append_nil]

theorem find_eq (db : Db) (key : String × String) :
    db.find key = db.definitions.find? fun row ↦ row.key = key := by
  simp only [Db.find, Db.row, DefinitionRow.key, Prod.ext_iff]
  apply congrArg (List.find? · db.definitions)
  funext row
  simp

theorem find_key {db : Db} {key : String × String} {row : DefinitionRow}
    (h : db.find key = some row) : row.key = key ∧ row ∈ db.definitions := by
  rw [find_eq] at h
  exact ⟨by simpa using List.find?_some h, List.mem_of_find?_eq_some h⟩

theorem find_of_mem {db : Db} (hkeys : (db.definitions.map DefinitionRow.key).Nodup)
    {row : DefinitionRow} (hrow : row ∈ db.definitions) : db.find row.key = some row := by
  rw [find_eq]
  cases hfind : db.definitions.find? fun r ↦ r.key = row.key with
  | none => simpa using List.find?_eq_none.mp hfind row hrow
  | some found =>
      have hkey : found.key = row.key := by simpa using List.find?_some hfind
      rw [Table.eq_of_key_eq hkeys (List.mem_of_find?_eq_some hfind) hrow hkey]

namespace Lines

variable {s : Recorded} (h : Lines s)

include h

theorem revision_eq (key : String × String) :
    (s.1.find key).map DefinitionRow.revision = (line s.2 key).getLast?.map Change.revision := by
  have hstamp := congrArg (Option.map Stamp.revision) (h.current key)
  rwa [Option.map_map, Option.map_map] at hstamp

theorem revision_mem {key : String × String} {row : DefinitionRow}
    (hrow : s.1.find key = some row) : row.revision ∈ (changes s.2).map Change.revision := by
  have hlast := h.revision_eq key
  rw [hrow] at hlast
  obtain ⟨change, hchange, hrevision⟩ := Option.map_eq_some_iff.mp hlast.symm
  refine List.mem_map.mpr ⟨change, ?_, hrevision⟩
  exact List.mem_of_mem_filter (List.mem_of_getLast? hchange)

theorem change {db : Db} {change : Change}
    (hfresh : change.revision ∉ (changes s.2).map Change.revision)
    (hbase : change.base = (s.1.find change.key).map DefinitionRow.revision)
    (hkeys : (db.definitions.map DefinitionRow.key).Nodup)
    (hfind : ∀ key, (db.find key).map DefinitionRow.stamp =
      if change.key = key then some change.stamp else (s.1.find key).map DefinitionRow.stamp)
    (htotal : ∀ userId, db.total userId ≤ 20000) (hlive : ∀ userId, db.live userId ≤ 1000) :
    Lines (db, s.2 ++ [.changed change]) := by
  constructor
  case keys => exact hkeys
  case fresh =>
    rw [changes_append, List.map_append]
    refine List.nodup_append.mpr ⟨h.fresh, List.nodup_singleton _, ?_⟩
    intro a ha b hb hab
    rw [List.mem_singleton.mp hb] at hab
    exact hfresh (hab ▸ ha)
  case linked =>
    intro key
    rw [line_append_change]
    split
    · rename_i hkey
      refine (h.linked key).append (List.isChain_singleton _) ?_
      intro last hlast next hnext
      rw [List.head?_cons, Option.mem_some_iff] at hnext
      rw [← hnext, Follows, hbase, hkey, h.revision_eq, Option.mem_def.mp hlast]
      rfl
    · exact h.linked key
  case first =>
    intro key first hfirst
    rw [line_append_change] at hfirst
    split at hfirst
    · rename_i hkey
      cases hline : line s.2 key with
      | nil =>
          rw [hline, List.nil_append, List.head?_cons, Option.mem_some_iff] at hfirst
          rw [← hfirst, hbase, hkey, h.revision_eq, hline]
          rfl
      | cons head rest =>
          rw [hline, List.cons_append, List.head?_cons, Option.mem_some_iff] at hfirst
          apply h.first key
          rw [hline, ← hfirst]
          rfl
    · exact h.first key first hfirst
  case current =>
    intro key
    rw [hfind, line_append_change]
    split
    · rw [List.getLast?_concat]
      rfl
    · exact h.current key
  case total_le => exact htotal
  case live_le => exact hlive

theorem same {db : Db} {records : List Record} (hchanges : changes records = changes s.2)
    (hkeys : db.definitions.map DefinitionRow.key = s.1.definitions.map DefinitionRow.key)
    (hfind : ∀ key, (db.find key).map DefinitionRow.stamp =
      (s.1.find key).map DefinitionRow.stamp)
    (htotal : ∀ userId, db.total userId = s.1.total userId)
    (hlive : ∀ userId, db.live userId = s.1.live userId) : Lines (db, records) := by
  have hline : ∀ key, line records key = line s.2 key := fun key ↦ by rw [line, hchanges, line]
  constructor
  case keys => exact hkeys ▸ h.keys
  case fresh => exact hchanges ▸ h.fresh
  case linked => exact fun key ↦ (hline key) ▸ h.linked key
  case first => exact fun key ↦ (hline key) ▸ h.first key
  case current => exact fun key ↦ (hfind key).trans ((hline key) ▸ h.current key)
  case total_le => exact fun userId ↦ (htotal userId) ▸ h.total_le userId
  case live_le => exact fun userId ↦ (hlive userId) ▸ h.live_le userId

end Lines

/-! ## What the statements do -/

theorem find_update {db : Db} {selects : DefinitionRow → Bool}
    {set : DefinitionRow → DefinitionRow} (hset : ∀ row, (set row).key = row.key)
    (key : String × String) :
    (db.update selects set).find key =
      (db.find key).map fun row ↦ if selects row then set row else row := by
  rw [find_eq, find_eq, Db.update, Table.find_update]
  exact fun row ↦ by rw [hset]

theorem writeDefinition_cases {db : Db} (hkeys : (db.definitions.map DefinitionRow.key).Nodup)
    (new : DefinitionRow) (base : Option String) :
    db.writeDefinition new base = db ∨
    (db.find new.key = none ∧ base = none ∧ db.total new.userId < 20000 ∧
      db.live new.userId < 1000 ∧ db.writeDefinition new base =
        { db with definitions := db.definitions ++ [{ new with deletedAt := none }] }) ∨
    ∃ old, db.find new.key = some old ∧ db.replaces new base old = true ∧
      db.writeDefinition new base = db.update (db.replaces new base) (Db.overwrite new) := by
  cases hknown : db.definitions.any fun old ↦ old.key = new.key with
  | false =>
      have hnone : db.find new.key = none := by
        rw [find_eq, List.find?_eq_none]
        simpa using hknown
      unfold Db.writeDefinition
      simp only [hknown, Bool.or_false, Bool.false_or]
      split
      · rename_i hroom
        simp only [Bool.and_eq_true, decide_eq_true_eq, Option.isNone_iff_eq_none] at hroom
        exact .inr (.inl ⟨hnone, hroom.1, hroom.2.1, hroom.2.2, rfl⟩)
      · exact .inl rfl
  | true =>
      have hupdate : db.writeDefinition new base =
          db.update (db.replaces new base) (Db.overwrite new) := by
        simp [Db.writeDefinition, hknown]
      rw [hupdate]
      by_cases hold : ∃ old ∈ db.definitions, db.replaces new base old = true
      · obtain ⟨old, hmem, hreplaces⟩ := hold
        have hkey : old.key = new.key := by
          simp only [Db.replaces, Bool.and_eq_true, decide_eq_true_eq] at hreplaces
          exact hreplaces.1.1.1
        exact .inr (.inr ⟨old, hkey ▸ find_of_mem hkeys hmem, hreplaces, rfl⟩)
      · left
        rw [Db.update, Table.update_eq_self]
        simpa using hold

theorem find_update_selected {db : Db} {selects : DefinitionRow → Bool}
    {set : DefinitionRow → DefinitionRow} (hset : ∀ row, (set row).key = row.key) {old : DefinitionRow}
    (hold : db.find old.key = some old) (hselects : selects old = true)
    (hothers : ∀ row, selects row = true → row.key = old.key) (key : String × String) :
    (db.update selects set).find key = if old.key = key then some (set old) else db.find key := by
  rw [find_update hset]
  split
  · rename_i hkey
    rw [← hkey, hold, Option.map_some, if_pos hselects]
  · rename_i hkey
    cases hfind : db.find key with
    | none => rfl
    | some row =>
        have hnot : ¬ selects row = true := fun hrow ↦
          hkey ((hothers row hrow).symm.trans (find_key hfind).1)
        rw [Option.map_some, if_neg hnot]

theorem total_update {db : Db} {selects : DefinitionRow → Bool}
    {set : DefinitionRow → DefinitionRow} (hset : ∀ row, (set row).key = row.key)
    (userId : String) : (db.update selects set).total userId = db.total userId := by
  apply Table.countP_update
  intro row
  rw [show (set row).userId = row.userId from congrArg Prod.fst (hset row)]

theorem live_update_le {db : Db} (hkeys : (db.definitions.map DefinitionRow.key).Nodup)
    {selects : DefinitionRow → Bool} {set : DefinitionRow → DefinitionRow}
    (hset : ∀ row, (set row).key = row.key) {old : DefinitionRow}
    (hold : old ∈ db.definitions) (hothers : ∀ row, selects row = true → row.key = old.key)
    (hroom : old.deletedAt.isNone = true ∨ db.live old.userId < 1000)
    (hle : ∀ userId, db.live userId ≤ 1000) (userId : String) :
    (db.update selects set).live userId ≤ 1000 := by
  let isLive := fun row : DefinitionRow ↦ row.userId = userId && row.deletedAt.isNone
  have hmore : (db.update selects set).live userId ≤ db.live userId +
      db.definitions.countP fun row ↦ selects row && isLive (set row) && !isLive row :=
    Table.countP_update_le isLive selects set db.definitions
  have hrevived : ∀ row ∈ db.definitions,
      (selects row && isLive (set row) && !isLive row) = true →
        row.key = old.key ∧ row = old ∧ old.userId = userId ∧ old.deletedAt.isNone = false := by
    intro row hrow hcounts
    simp only [isLive, Bool.and_eq_true, Bool.not_eq_true', decide_eq_true_eq,
      Bool.and_eq_false_iff, decide_eq_false_iff_not] at hcounts
    obtain ⟨⟨hselects, huser, -⟩, hdead⟩ := hcounts
    have hkey := hothers row hselects
    obtain rfl := Table.eq_of_key_eq hkeys hrow hold hkey
    have huser' : row.userId = userId := (congrArg Prod.fst (hset row)).symm.trans huser
    exact ⟨rfl, rfl, huser', hdead.resolve_left fun hne ↦ hne huser'⟩
  rcases Nat.eq_zero_or_pos (db.definitions.countP fun row ↦
    selects row && isLive (set row) && !isLive row) with hzero | hpos
  · rw [hzero] at hmore
    exact hmore.trans (hle userId)
  · obtain ⟨row, hrow, hcounts⟩ := List.countP_pos_iff.mp hpos
    obtain ⟨-, -, rfl, hdead⟩ := hrevived row hrow hcounts
    have hone : (db.definitions.countP fun row ↦
        selects row && isLive (set row) && !isLive row) ≤ 1 := by
      refine le_trans (List.countP_mono_left fun row hrow hcounts ↦ ?_)
        (Table.countP_key_le_one hkeys old.key)
      exact decide_eq_true (hrevived row hrow hcounts).1
    have hlt := hroom.resolve_left (by simp [hdead])
    omega

/-! ## Accepted changes -/

/-- The change is accepted: it is based on the row that is there, and leaves its stamp and these
positions on it. -/
structure Accepts (db : Db) (change : Change) (nextRuns : List (Option ℤ)) (db' : Db) : Prop where
  base : change.base = (db.find change.key).map DefinitionRow.revision
  keys : (db'.definitions.map DefinitionRow.key).Nodup
  row : ∃ row, db'.find change.key = some row ∧ row.stamp = change.stamp ∧
    row.nextRuns = nextRuns
  others : ∀ key, change.key ≠ key → db'.find key = db.find key
  total : ∀ userId, db'.total userId ≤ 20000
  live : ∀ userId, db'.live userId ≤ 1000
  agent : ∀ key row, db.find key = some row →
    ∃ row', db'.find key = some row' ∧ row'.agentId = row.agentId
  runs : db'.runs = db.runs

theorem Accepts.stamp {db db' : Db} {change : Change} {nextRuns : List (Option ℤ)}
    (h : Accepts db change nextRuns db') (key : String × String) :
    (db'.find key).map DefinitionRow.stamp =
      if change.key = key then some change.stamp else (db.find key).map DefinitionRow.stamp := by
  split
  · rename_i hkey
    obtain ⟨row, hrow, hstamp, -⟩ := h.row
    rw [← hkey, hrow, Option.map_some, hstamp]
  · rename_i hkey
    rw [h.others key hkey]

theorem Lines.accepts_update {s : Recorded} (h : Lines s) {change : Change}
    {selects : DefinitionRow → Bool} {set : DefinitionRow → DefinitionRow}
    (hset : ∀ row, (set row).key = row.key) {old : DefinitionRow}
    (hold : s.1.find change.key = some old) (hselects : selects old = true)
    (hothers : ∀ row, selects row = true → row.key = change.key)
    (hbase : change.base = some old.revision) (hstamp : (set old).stamp = change.stamp)
    (hagent : (set old).agentId = old.agentId)
    (hroom : old.deletedAt.isNone = true ∨ s.1.live old.userId < 1000) :
    Accepts s.1 change (set old).nextRuns (s.1.update selects set) := by
  obtain ⟨hkey, hmem⟩ := find_key hold
  rw [← hkey] at hothers hold
  have hfind := find_update_selected hset hold hselects hothers
  constructor
  case base => rw [← hkey, hold, hbase, Option.map_some]
  case keys =>
    rw [Db.update, Table.map_update hset]
    exact h.keys
  case row =>
    refine ⟨set old, ?_, hstamp, rfl⟩
    rw [hfind, if_pos hkey]
  case others =>
    intro key hne
    rw [hfind, if_neg (hkey ▸ hne)]
  case total =>
    intro userId
    rw [total_update hset]
    exact h.total_le userId
  case live => exact live_update_le h.keys hset hmem hothers hroom h.live_le
  case agent =>
    intro key row hrow
    rw [hfind]
    split
    · rename_i heq
      rw [← heq, hold] at hrow
      exact ⟨_, rfl, hagent.trans (congrArg DefinitionRow.agentId (Option.some.inj hrow))⟩
    · exact ⟨row, hrow, rfl⟩
  case runs => rfl

theorem countP_concat_le {α : Type} (p : α → Bool) (rows : List α) (row : α) {bound : ℕ}
    (hle : rows.countP p ≤ bound) (hroom : p row = true → rows.countP p < bound) :
    (rows ++ [row]).countP p ≤ bound := by
  rw [List.countP_append, List.countP_singleton]
  split
  · exact hroom ‹_›
  · exact hle

theorem Lines.accepts_first {s : Recorded} (h : Lines s) {change : Change} {new : DefinitionRow}
    (hnone : s.1.find change.key = none) (hkey : new.key = change.key)
    (hbase : change.base = none) (hstamp : new.stamp = change.stamp)
    (htotal : s.1.total new.userId < 20000) (hlive : s.1.live new.userId < 1000) :
    Accepts s.1 change new.nextRuns { s.1 with definitions := s.1.definitions ++ [new] } := by
  have hfind : ∀ key, ({ s.1 with definitions := s.1.definitions ++ [new] } : Db).find key =
      (s.1.find key).or (if change.key = key then some new else none) := by
    intro key
    rw [find_eq, find_eq, List.find?_append, List.find?_singleton, hkey]
    simp only [decide_eq_true_eq]
  constructor
  case base => rw [hnone, hbase, Option.map_none]
  case keys =>
    apply Table.nodup_append_row h.keys
    intro row hrow heq
    rw [← hkey, ← heq, find_of_mem h.keys hrow] at hnone
    cases hnone
  case row =>
    refine ⟨new, ?_, hstamp, rfl⟩
    rw [hfind, hnone, Option.none_or, if_pos rfl]
  case others =>
    intro key hne
    rw [hfind, if_neg hne, Option.or_none]
  case total =>
    intro userId
    apply countP_concat_le _ _ _ (h.total_le userId)
    intro hnew
    rw [decide_eq_true_eq] at hnew
    exact hnew ▸ htotal
  case live =>
    intro userId
    apply countP_concat_le _ _ _ (h.live_le userId)
    intro hnew
    rw [Bool.and_eq_true, decide_eq_true_eq] at hnew
    exact hnew.1 ▸ hlive
  case agent =>
    intro key row hrow
    rw [hfind, hrow, Option.some_or]
    exact ⟨row, rfl, rfl⟩
  case runs => rfl

theorem Lines.write_cases {s : Recorded} (h : Lines s) (new : DefinitionRow)
    (base : Option String) (now : ℤ) :
    s.1.writeDefinition new base = s.1 ∨
      Accepts s.1 ⟨new.userId, new.automationId, base, new.revision, new.mutationId,
        some new.definition, now⟩ new.nextRuns (s.1.writeDefinition new base) := by
  rcases writeDefinition_cases h.keys new base with
    hsame | ⟨hnone, rfl, htotal, hlive, heq⟩ | ⟨old, hold, hreplaces, heq⟩
  · exact .inl hsame
  · right
    rw [heq]
    exact @Lines.accepts_first s h ⟨new.userId, new.automationId, none, new.revision,
      new.mutationId, some new.definition, now⟩ { new with deletedAt := none } hnone rfl rfl rfl
      htotal hlive
  · right
    rw [heq]
    have hselects := hreplaces
    simp only [Db.replaces, Bool.and_eq_true, Bool.or_eq_true, decide_eq_true_eq] at hreplaces
    obtain ⟨⟨⟨hkey, hbase⟩, -⟩, hroom⟩ := hreplaces
    have huser : old.userId = new.userId := congrArg Prod.fst hkey
    have hothers : ∀ row, s.1.replaces new base row = true → row.key = new.key := by
      intro row hrow
      simp only [Db.replaces, Bool.and_eq_true, decide_eq_true_eq] at hrow
      exact hrow.1.1.1
    exact @Lines.accepts_update s h ⟨new.userId, new.automationId, base, new.revision,
      new.mutationId, some new.definition, now⟩ _ (Db.overwrite new) (fun row ↦ rfl) old hold
      hselects hothers hbase rfl rfl (huser ▸ hroom)

theorem Lines.delete_cases {s : Recorded} (h : Lines s)
    (userId automationId base revision mutationId : String) (now : ℤ) :
    s.1.deleteDefinition userId automationId base revision mutationId now = s.1 ∨
      Accepts s.1 ⟨userId, automationId, some base, revision, mutationId, none, now⟩ []
        (s.1.deleteDefinition userId automationId base revision mutationId now) := by
  by_cases hold : ∃ old ∈ s.1.definitions,
      (old.key = (userId, automationId) && old.revision = base && old.deletedAt.isNone) = true
  · right
    obtain ⟨old, hmem, hselects⟩ := hold
    have hparts := hselects
    simp only [Bool.and_eq_true, decide_eq_true_eq] at hparts
    obtain ⟨⟨hkey, hbase⟩, hlive⟩ := hparts
    have hfind := find_of_mem h.keys hmem
    rw [hkey] at hfind
    refine @Lines.accepts_update s h ⟨userId, automationId, some base, revision, mutationId, none,
      now⟩ _ (fun row ↦ { row with
        revision, mutationId, nextRuns := [], updatedAt := now, deletedAt := some now })
      (fun row ↦ rfl) old hfind hselects ?_ ?_ rfl rfl (.inl hlive)
    · intro row hrow
      simp only [Bool.and_eq_true, decide_eq_true_eq] at hrow
      exact hrow.1.1
    · rw [hbase]
  · left
    rw [Db.deleteDefinition, Db.update, Table.update_eq_self]
    intro row hrow
    exact Bool.eq_false_of_not_eq_true fun hselects ↦ hold ⟨row, hrow, hselects⟩

/-! ## Every operation -/

def FreshRevision (s : Recorded) (op : Op) : Prop :=
  ∀ change ∈ op.change, change.revision ∉ (changes s.2).map Change.revision

instance (s : Recorded) (op : Op) : Decidable (FreshRevision s op) :=
  inferInstanceAs (Decidable (∀ change ∈ op.change, _))

/-- Records are added at the end, and no definition changes its agent. -/
structure Keeps (s s' : Recorded) : Prop where
  records : s.2 <+: s'.2
  agent : ∀ key row, s.1.find key = some row →
    ∃ row', s'.1.find key = some row' ∧ row'.agentId = row.agentId

theorem Keeps.refl (s : Recorded) : Keeps s s :=
  ⟨List.prefix_refl _, fun _ row hrow ↦ ⟨row, hrow, rfl⟩⟩

theorem Keeps.trans {s t u : Recorded} (h : Keeps s t) (h' : Keeps t u) : Keeps s u := by
  refine ⟨h.records.trans h'.records, ?_⟩
  intro key row hrow
  obtain ⟨row', hrow', hagent⟩ := h.agent key row hrow
  obtain ⟨row'', hrow'', hagent'⟩ := h'.agent key row' hrow'
  exact ⟨row'', hrow'', hagent'.trans hagent⟩

theorem record_change {op : Op} {change : Change} (hop : op.change = some change) (db db' : Db) :
    record db op db' = if (db'.find change.key).map DefinitionRow.revision =
      (db.find change.key).map DefinitionRow.revision then [] else [.changed change] := by
  cases op with
  | write new base now => cases hop; rfl
  | delete userId automationId base revision mutationId now => cases hop; rfl
  | _ => cases hop

theorem Lines.record_accepts {s : Recorded} (h : Lines s) {op : Op} (hfresh : FreshRevision s op)
    {change : Change} (hop : op.change = some change) {nextRuns : List (Option ℤ)} {db : Db}
    (haccepts : Accepts s.1 change nextRuns db) :
    record s.1 op db = [.changed change] := by
  rw [record_change hop, if_neg]
  intro hsame
  have hstamp := congrArg (Option.map Stamp.revision) (haccepts.stamp change.key)
  rw [if_pos rfl, Option.map_map] at hstamp
  change (db.find change.key).map DefinitionRow.revision = some change.revision at hstamp
  rw [hstamp] at hsame
  obtain ⟨row, hrow, hrevision⟩ := Option.map_eq_some_iff.mp hsame.symm
  exact hfresh change hop (hrevision ▸ h.revision_mem hrow)

theorem Lines.step {s : Recorded} (h : Lines s) {op : Op} (hfresh : FreshRevision s op)
    {change : Change} (hop : op.change = some change) {nextRuns : List (Option ℤ)}
    (hcases : (op.exec s.1).1 = s.1 ∨ Accepts s.1 change nextRuns (op.exec s.1).1) :
    Lines (recorded Op.exec record op s).1 ∧ Keeps s (recorded Op.exec record op s).1 := by
  change Lines ((op.exec s.1).1, s.2 ++ record s.1 op (op.exec s.1).1) ∧
    Keeps s ((op.exec s.1).1, s.2 ++ record s.1 op (op.exec s.1).1)
  rcases hcases with hsame | haccepts
  · rw [hsame, record_change hop, if_pos rfl, List.append_nil]
    exact ⟨h, Keeps.refl s⟩
  · rw [h.record_accepts hfresh hop haccepts]
    exact ⟨h.change (hfresh change hop) haccepts.base haccepts.keys haccepts.stamp haccepts.total
      haccepts.live, List.prefix_append _ _, haccepts.agent⟩

theorem changes_emitted (records : List Record) (emission : Emission) :
    changes (records ++ [.emitted emission]) = changes records := by
  rw [changes_append]
  exact List.append_nil _

theorem insertScheduledRun_definitions (db : Db) (emission : Emission) :
    (db.insertScheduledRun emission).definitions = db.definitions := by
  unfold Db.insertScheduledRun
  split <;> rfl

theorem emit_definitions (db : Db) (emission : Emission) :
    ∃ selects : DefinitionRow → Bool,
      (∀ row, selects row = true → Db.isCurrent emission row = true) ∧
      (db.emit emission).definitions =
        Table.update selects (Db.advance emission) db.definitions := by
  rw [← insertScheduledRun_definitions db emission]
  unfold Db.emit Db.advanceClock
  split
  · exact ⟨Db.isCurrent emission, fun _ h ↦ h, rfl⟩
  · exact ⟨fun _ ↦ false, fun _ h ↦ absurd h Bool.false_ne_true,
      (Table.update_eq_self fun _ _ ↦ rfl).symm⟩

theorem Lines.emit {s : Recorded} (h : Lines s) (emission : Emission) :
    Lines (recorded Op.exec record (.emit emission) s).1 ∧
      Keeps s (recorded Op.exec record (.emit emission) s).1 := by
  obtain ⟨selects, -, hdefinitions⟩ := emit_definitions s.1 emission
  have hfind : ∀ key, (s.1.emit emission).find key =
      (s.1.find key).map fun row ↦ if selects row then Db.advance emission row else row := by
    intro key
    rw [find_eq, hdefinitions, find_eq, Table.find_update]
    exact fun _ ↦ rfl
  have hsame : ∀ row, (if selects row then Db.advance emission row else row).stamp = row.stamp ∧
      (if selects row then Db.advance emission row else row).agentId = row.agentId := by
    intro row
    split <;> exact ⟨rfl, rfl⟩
  have hcount : ∀ p : DefinitionRow → Bool, (∀ row, p (Db.advance emission row) = p row) →
      (s.1.emit emission).definitions.countP p = s.1.definitions.countP p := by
    intro p hp
    rw [hdefinitions, Table.countP_update hp]
  have hchanges : changes (s.2 ++ record s.1 (.emit emission) (s.1.emit emission)) =
      changes s.2 := by
    simp only [record]
    split
    · rw [List.append_nil]
    · exact changes_emitted _ _
  refine ⟨h.same hchanges ?_ ?_ (fun _ ↦ hcount _ fun _ ↦ rfl) (fun _ ↦ hcount _ fun _ ↦ rfl),
    List.prefix_append _ _, ?_⟩
  · refine (congrArg _ hdefinitions).trans ?_
    apply Table.map_update
    exact fun _ ↦ rfl
  · intro key
    rw [show (Op.exec (.emit emission) s.1).1 = s.1.emit emission from rfl, hfind, Option.map_map]
    exact congrArg (Option.map · _) (funext fun row ↦ (hsame row).1)
  · intro key row hrow
    refine ⟨if selects row then Db.advance emission row else row, ?_, (hsame row).2⟩
    rw [show (recorded Op.exec record (.emit emission) s).1.1 = s.1.emit emission from rfl, hfind,
      hrow, Option.map_some]

theorem insertRun_definitions (db : Db) (run : RunRow) :
    (db.insertRun run).definitions = db.definitions := by
  unfold Db.insertRun
  split <;> rfl

theorem Lines.exec {s : Recorded} (h : Lines s) {op : Op} (hfresh : FreshRevision s op) :
    Lines (recorded Op.exec record op s).1 ∧ Keeps s (recorded Op.exec record op s).1 := by
  cases op with
  | write new base now => exact h.step hfresh rfl (h.write_cases new base now)
  | delete userId automationId base revision mutationId now =>
      exact h.step hfresh rfl
        (h.delete_cases userId automationId base revision mutationId now)
  | emit emission => exact h.emit emission
  | insertRun run =>
      have hdefinitions := insertRun_definitions s.1 run
      have hfind : ∀ key, (s.1.insertRun run).find key = s.1.find key := fun key ↦ by
        rw [find_eq, hdefinitions, ← find_eq]
      change Lines (s.1.insertRun run, s.2 ++ []) ∧ Keeps s (s.1.insertRun run, s.2 ++ [])
      rw [List.append_nil]
      refine ⟨h.same rfl (by rw [hdefinitions]) (fun key ↦ by rw [hfind]) ?_ ?_,
        List.prefix_refl _, fun key row hrow ↦ ⟨row, (hfind key).trans hrow, rfl⟩⟩
      · exact fun userId ↦ congrArg (List.countP _) hdefinitions
      · exact fun userId ↦ congrArg (List.countP _) hdefinitions
  | _ =>
      change Lines (s.1, s.2 ++ []) ∧ Keeps s (s.1, s.2 ++ [])
      rw [List.append_nil]
      exact ⟨h, Keeps.refl s⟩

end Fabushi.Worker.Automation
