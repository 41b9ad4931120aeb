import Fabushi.Telegram.SchemaAgreement

/-!
# Constructor ids of a catalog

The catalog keeps the first name of every constructor id and lets a later declaration share
the id when its name is a prefix alias of that name. Two aliases of one name are no aliases
of each other, so the ids are shared by aliases only as long as no id is declared three times.
-/

namespace Fabushi.Telegram

open Result

/-! ## Prefix aliases -/

theorem stripSuffix_eq_some {suffix text rest : List Char} :
    stripSuffix suffix text = some rest ↔ text = rest ++ suffix := by
  unfold stripSuffix
  split_ifs with h
  · obtain ⟨front, rfl⟩ := h
    simp [eq_comm]
  · simp only [false_iff]
    rintro rfl
    exact h (List.suffix_append rest suffix)

theorem isPrefixAlias_iff {first second : List Char} :
    IsPrefixAlias first second ↔
      first = second ++ "Prefix".toList ∨ second = first ++ "Prefix".toList := by
  rw [IsPrefixAlias, stripSuffix_eq_some, stripSuffix_eq_some]

theorem IsPrefixAlias.symm {first second : List Char} (h : IsPrefixAlias first second) :
    IsPrefixAlias second first :=
  Or.symm h

theorem IsPrefixAlias.length {first second : List Char} (h : IsPrefixAlias first second) :
    first.length = second.length + 6 ∨ second.length = first.length + 6 := by
  rcases isPrefixAlias_iff.mp h with rfl | rfl
  · exact Or.inl (List.length_append ..)
  · exact Or.inr (List.length_append ..)

theorem IsPrefixAlias.not_alias {first a b : List Char} (ha : IsPrefixAlias first a)
    (hb : IsPrefixAlias first b) : ¬ IsPrefixAlias a b := by
  intro hab
  have hlength := ha.length
  have hlength' := hb.length
  have hboth := hab.length
  omega

/-! ## The names of an id -/

def namesOf (id : UInt32) (declared : List SchemaDeclaration) : List (List Char) :=
  (declared.filter fun d ↦ d.constructorId = some id).map SchemaDeclaration.name

def FollowFirst (names : List (List Char)) : Prop :=
  ∀ first ∈ names.head?, ∀ name ∈ names.tail, IsPrefixAlias first name

theorem FollowFirst.pairwise_iff {names : List (List Char)} (h : FollowFirst names) :
    names.Pairwise IsPrefixAlias ↔ names.length ≤ 2 := by
  match names with
  | [] => simp
  | [first] => simp
  | [first, second] =>
      have halias := h first rfl second (by simp)
      simp [halias]
  | first :: second :: third :: names =>
      have hsecond := h first rfl second (by simp)
      have hthird := h first rfl third (by simp)
      constructor
      · intro hpairwise
        have hrest := (List.pairwise_cons.mp hpairwise).2
        have halias := (List.pairwise_cons.mp hrest).1 third List.mem_cons_self
        exact absurd halias (hsecond.not_alias hthird)
      · intro hlength
        simp only [List.length_cons] at hlength
        omega

/-! ## What the catalog holds -/

structure CatalogParser.Holds (parser : CatalogParser) (declared : List SchemaDeclaration) :
    Prop where
  types_eq : parser.catalog.types = declared.filter fun d ↦ d.kind = .type
  functions_eq : parser.catalog.functions = declared.filter fun d ↦ ¬ d.kind = .type
  lookup_eq : ∀ id, parser.constructorIds.lookup id = (namesOf id declared).head?
  follow : ∀ id, FollowFirst (namesOf id declared)

theorem CatalogParser.holds_nil : Holds ⟨⟨[], []⟩, []⟩ [] where
  types_eq := rfl
  functions_eq := rfl
  lookup_eq _ := rfl
  follow _ _ h := by cases h

theorem namesOf_append (id : UInt32) (declared : List SchemaDeclaration)
    (d : SchemaDeclaration) : namesOf id (declared ++ [d]) =
      namesOf id declared ++ if d.constructorId = some id then [d.name] else [] := by
  rw [namesOf, List.filter_append, List.map_append, namesOf]
  split_ifs with h <;> simp [h]

theorem FollowFirst.append {names : List (List Char)} {name : List Char}
    (h : FollowFirst names) (hname : ∀ first ∈ names.head?, IsPrefixAlias first name) :
    FollowFirst (names ++ [name]) := by
  cases names with
  | nil =>
      intro first _ other hother
      cases hother
  | cons first names =>
      intro first' hfirst other hother
      obtain rfl := Option.some.inj hfirst
      rw [List.cons_append, List.tail_cons, List.mem_append, List.mem_singleton] at hother
      rcases hother with hother | rfl
      · exact h first rfl other hother
      · exact hname first rfl

theorem CatalogParser.claimId_eq_ok {ids ids' : List (UInt32 × List Char)}
    {d : SchemaDeclaration} (h : claimId ids d = .ok ids') :
    (d.constructorId = none ∧ ids' = ids) ∨
      ∃ id, d.constructorId = some id ∧
        ((∃ first, ids.lookup id = some first ∧ IsPrefixAlias first d.name ∧ ids' = ids) ∨
          (ids.lookup id = none ∧ ids' = (id, d.name) :: ids)) := by
  unfold claimId at h
  cases hid : d.constructorId with
  | none =>
      rw [hid] at h
      exact Or.inl ⟨rfl, (Except.ok.inj h).symm⟩
  | some id =>
      rw [hid] at h
      refine Or.inr ⟨id, rfl, ?_⟩
      dsimp only at h
      cases hlookup : ids.lookup id with
      | none =>
          rw [hlookup] at h
          exact Or.inr ⟨rfl, (Except.ok.inj h).symm⟩
      | some first =>
          rw [hlookup] at h
          dsimp only at h
          split_ifs at h with halias
          exact Or.inl ⟨first, rfl, halias, (Except.ok.inj h).symm⟩

theorem CatalogParser.Holds.names {parser : CatalogParser} {declared : List SchemaDeclaration}
    (h : parser.Holds declared) {d : SchemaDeclaration} {ids : List (UInt32 × List Char)}
    (hids : claimId parser.constructorIds d = .ok ids) (id : UInt32) :
    ids.lookup id = (namesOf id (declared ++ [d])).head? ∧
      FollowFirst (namesOf id (declared ++ [d])) := by
  have hlookup := h.lookup_eq id
  have hfollow := h.follow id
  rw [namesOf_append]
  rcases claimId_eq_ok hids with ⟨hnone, rfl⟩ | ⟨stated, hstated, hclaim⟩
  · rw [if_neg (by simp [hnone]), List.append_nil]
    exact ⟨hlookup, hfollow⟩
  · by_cases hsame : stated = id
    · subst hsame
      rw [if_pos hstated, List.head?_append, ← hlookup]
      rcases hclaim with ⟨first, hfirst, halias, rfl⟩ | ⟨hnew, rfl⟩
      · rw [hfirst] at hlookup ⊢
        refine ⟨rfl, hfollow.append fun first' hhead ↦ ?_⟩
        rw [← hlookup] at hhead
        obtain rfl := Option.some.inj hhead
        exact halias
      · rw [hnew] at hlookup ⊢
        refine ⟨by simp, hfollow.append fun first' hhead ↦ ?_⟩
        rw [← hlookup] at hhead
        cases hhead
    · rw [if_neg (by simp [hstated, hsame]), List.append_nil]
      refine ⟨?_, hfollow⟩
      rcases hclaim with ⟨-, -, -, rfl⟩ | ⟨-, rfl⟩
      · exact hlookup
      · have hother : (id == stated) = false := by simpa using Ne.symm hsame
        rw [List.lookup_cons, hother]
        exact hlookup

theorem CatalogParser.Holds.push {parser : CatalogParser} {declared : List SchemaDeclaration}
    (h : parser.Holds declared) {d : SchemaDeclaration} {ids : List (UInt32 × List Char)}
    (hids : claimId parser.constructorIds d = .ok ids) :
    Holds ⟨parser.catalog.push d, ids⟩ (declared ++ [d]) where
  types_eq := by
    rw [SchemaCatalog.push, List.filter_append, ← h.types_eq]
    cases hkind : d.kind <;> simp [hkind]
  functions_eq := by
    rw [SchemaCatalog.push, List.filter_append, ← h.functions_eq]
    cases hkind : d.kind <;> simp [hkind]
  lookup_eq id := (h.names hids id).1
  follow id := (h.names hids id).2

theorem CatalogParser.Holds.addAll {parser parser' : CatalogParser}
    {declared : List SchemaDeclaration} (h : parser.Holds declared)
    {found : List (DeclarationKind × List Char)} (hadd : parser.addAll found = .ok parser') :
    ∃ more, List.Forall₂ (fun d declaration ↦ readDeclaration d.1 d.2 = .ok declaration)
        found more ∧ parser'.Holds (declared ++ more) := by
  induction found generalizing parser declared with
  | nil =>
      rw [← Except.ok.inj hadd]
      exact ⟨[], List.Forall₂.nil, by rwa [List.append_nil]⟩
  | cons d found ih =>
      rw [CatalogParser.addAll, List.foldlM_cons, bind_eq_ok] at hadd
      obtain ⟨next, hnext, hrest⟩ := hadd
      simp only [add, bind_eq_ok] at hnext
      obtain ⟨declaration, hread, ids, hids, hpure⟩ := hnext
      rw [← Except.ok.inj hpure] at hrest
      obtain ⟨more, hmore, hholds⟩ := ih (h.push hids) hrest
      refine ⟨declaration :: more, List.Forall₂.cons hread hmore, ?_⟩
      rwa [List.append_assoc, List.singleton_append] at hholds

/-! ## Ids that are shared -/

def SharedByAlias (a b : SchemaDeclaration) : Prop :=
  ∀ id, a.constructorId = some id → b.constructorId = some id → IsPrefixAlias a.name b.name

/-- No two entries share an explicit id unless one name is a prefix alias of the other. -/
def SchemaCatalog.UniqueIds (catalog : SchemaCatalog) : Prop :=
  (catalog.types ++ catalog.functions).Pairwise SharedByAlias

def statedId (d : DeclarationKind × List Char) : Option UInt32 :=
  match readDeclaration d.1 d.2 with
  | .ok declaration => declaration.constructorId
  | .error _ => none

def statedIds (schema : List Char) : List UInt32 :=
  (declarations schema).filterMap statedId

theorem pairwise_sharedByAlias_iff (declared : List SchemaDeclaration) :
    declared.Pairwise SharedByAlias ↔
      ∀ id, (namesOf id declared).Pairwise IsPrefixAlias := by
  have hnames : ∀ id, (namesOf id declared).Pairwise IsPrefixAlias ↔
      declared.Pairwise fun a b ↦ a.constructorId = some id → b.constructorId = some id →
        IsPrefixAlias a.name b.name := by
    intro id
    rw [namesOf, List.pairwise_map, List.pairwise_filter]
    simp only [decide_eq_true_eq]
  simp only [hnames, List.pairwise_iff_forall_sublist]
  exact ⟨fun h id _ _ hsub ↦ h hsub id, fun h _ _ hsub id ↦ h id hsub⟩

theorem length_namesOf (id : UInt32) (declared : List SchemaDeclaration) :
    (namesOf id declared).length = (declared.filterMap SchemaDeclaration.constructorId).count id := by
  induction declared with
  | nil => rfl
  | cons d declared ih =>
      rw [namesOf, List.length_map] at ih ⊢
      cases hid : d.constructorId with
      | none => rw [List.filter_cons_of_neg (by simp [hid]), List.filterMap_cons_none hid, ih]
      | some stated =>
          rw [List.filterMap_cons_some hid, List.count_cons, ← ih]
          by_cases hsame : stated = id
          · rw [List.filter_cons_of_pos (by simp [hid, hsame]), List.length_cons,
              if_pos (by simpa using hsame)]
          · rw [List.filter_cons_of_neg (by simp [hid, hsame]), if_neg (by simpa using hsame),
              add_zero]

theorem filterMap_statedId {found : List (DeclarationKind × List Char)}
    {declared : List SchemaDeclaration}
    (h : List.Forall₂ (fun d declaration ↦ readDeclaration d.1 d.2 = .ok declaration)
      found declared) :
    found.filterMap statedId = declared.filterMap SchemaDeclaration.constructorId := by
  induction h with
  | nil => rfl
  | cons hread _ ih =>
      have hid : ∀ (d : DeclarationKind × List Char) declaration,
          readDeclaration d.1 d.2 = .ok declaration → statedId d = declaration.constructorId := by
        intro d declaration h
        rw [statedId, h]
      rw [List.filterMap_cons, List.filterMap_cons, hid _ _ hread, ih]

/-- On a text that makes a catalog the two readers count the same; its ids are shared by prefix
aliases only exactly when the text states no id three times. -/
theorem schema_readers_agree_iff {schema : List Char} {catalog : SchemaCatalog}
    (h : parseSchemaCatalog schema = .ok catalog) :
    (parseTdApiSchema schema = catalog.stats ∧ catalog.UniqueIds) ↔
      ∀ id, (statedIds schema).count id ≤ 2 := by
  rw [and_iff_right (parseTdApiSchema_eq_stats h)]
  obtain ⟨parser, hparser, rfl⟩ := parseSchemaCatalog_eq_ok.mp h
  obtain ⟨declared, hread, hholds⟩ := CatalogParser.holds_nil.addAll hparser
  rw [List.nil_append] at hholds
  have hperm : (parser.catalog.types ++ parser.catalog.functions).Perm declared := by
    rw [hholds.types_eq, hholds.functions_eq]
    simpa using List.filter_append_perm (fun d : SchemaDeclaration ↦ decide (d.kind = .type))
      declared
  have hsymm : ∀ {a b : SchemaDeclaration}, SharedByAlias a b → SharedByAlias b a :=
    fun hab id hb ha ↦ (hab id ha hb).symm
  rw [SchemaCatalog.UniqueIds, hperm.pairwise_iff hsymm, pairwise_sharedByAlias_iff, statedIds,
    filterMap_statedId hread]
  apply forall_congr'
  intro id
  rw [(hholds.follow id).pairwise_iff, length_namesOf]

def demoSchema : List Char :=
  "a#1 = A; aPrefix#1 = A;\n---functions---\nf = B;".toList

def demoCatalog : SchemaCatalog where
  types := [⟨"a".toList, some 1, "A".toList, .type, "a#1 = A".toList⟩,
    ⟨"aPrefix".toList, some 1, "A".toList, .type, "aPrefix#1 = A".toList⟩]
  functions := [⟨"f".toList, none, "B".toList, .function, "f = B".toList⟩]

theorem schema_readers_agree_iff_demo :
    (parseTdApiSchema demoSchema = demoCatalog.stats ∧ demoCatalog.UniqueIds) ↔
      ∀ id, (statedIds demoSchema).count id ≤ 2 :=
  schema_readers_agree_iff (by decide +kernel)

/-- One id stated for a name and twice for its alias: the two entries of the alias share it. -/
theorem alias_stated_twice :
    ¬ ∀ schema catalog, parseSchemaCatalog schema = .ok catalog →
      parseTdApiSchema schema = catalog.stats ∧ catalog.UniqueIds := by
  intro h
  have hunique := (h "a#1 = A; aPrefix#1 = A; aPrefix#1 = A;".toList
    ⟨[⟨"a".toList, some 1, "A".toList, .type, "a#1 = A".toList⟩,
      ⟨"aPrefix".toList, some 1, "A".toList, .type, "aPrefix#1 = A".toList⟩,
      ⟨"aPrefix".toList, some 1, "A".toList, .type, "aPrefix#1 = A".toList⟩], []⟩
    (by decide +kernel)).2
  have htail := (List.pairwise_cons.mp hunique).2
  have halias := (List.pairwise_cons.mp htail).1 _ List.mem_cons_self 1 rfl rfl
  exact absurd halias (by decide +kernel)

end Fabushi.Telegram
