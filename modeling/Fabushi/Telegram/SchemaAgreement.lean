import Fabushi.Telegram.Schema

/-!
# The two readers agree

Both readers go through the same declarations of the text: `declarations` lists them with
the section that they stand in. What the catalog takes is counted, and a constructor id
belongs to one name and to prefix aliases of that name.
-/

namespace Fabushi.Telegram

open Result
open Text (isWhitespace trimList)

/-! ## The declarations of a text -/

def declarationsIn (buffer : List Char) : List (List Char) × List Char :=
  match _hcut : Splits.once ';' buffer with
  | none => ([], buffer)
  | some (before, after) =>
      let raw := trimList isWhitespace before
      let rest := declarationsIn (trimStart after)
      (if raw = [] then rest.1 else raw :: rest.1, rest.2)
termination_by buffer.length
decreasing_by
  have hlength := Splits.length_of_once _hcut
  have htrim := (List.dropWhile_sublist (p := isWhitespace) (l := after)).length_le
  unfold trimStart
  omega

def declarationsFrom (kind : DeclarationKind) (buffer : List Char) :
    List (List Char) → List (DeclarationKind × List Char)
  | [] => []
  | rawLine :: lines =>
      let line := trimList isWhitespace rawLine
      if line = "---types---".toList then declarationsFrom .type [] lines
      else if line = "---functions---".toList then declarationsFrom .function [] lines
      else if line = [] ∨ "//".toList <+: line then declarationsFrom kind buffer lines
      else
        let code := trimList isWhitespace (codeOf line)
        if code = [] then declarationsFrom kind buffer lines
        else
          let found := declarationsIn (if buffer = [] then code else buffer ++ [' '] ++ code)
          found.1.map (fun raw ↦ (kind, raw)) ++ declarationsFrom kind found.2 lines

def declarations (schema : List Char) : List (DeclarationKind × List Char) :=
  declarationsFrom .type [] (schemaLines schema)

/-! ## The buffer -/

section Buffer

variable {buffer before after : List Char}

theorem declarationsIn_of_none (h : Splits.once ';' buffer = none) :
    declarationsIn buffer = ([], buffer) := by
  rw [declarationsIn]
  split
  · rfl
  · simp_all

theorem declarationsIn_of_some (h : Splits.once ';' buffer = some (before, after)) :
    declarationsIn buffer = ((if trimList isWhitespace before = [] then []
      else [trimList isWhitespace before]) ++ (declarationsIn (trimStart after)).1,
        (declarationsIn (trimStart after)).2) := by
  rw [declarationsIn]
  split
  · simp_all
  · rename_i before' after' hcut
    obtain ⟨rfl, rfl⟩ := Prod.mk.inj (Option.some.inj (hcut.symm.trans h))
    dsimp only
    split_ifs <;> rfl

theorem length_trimStart_lt (h : Splits.once ';' buffer = some (before, after)) :
    (trimStart after).length < buffer.length := by
  have hlength := Splits.length_of_once h
  have htrim := (List.dropWhile_sublist (p := isWhitespace) (l := after)).length_le
  unfold trimStart
  omega

theorem buffer_induction {motive : List Char → Prop}
    (hnone : ∀ buffer, Splits.once ';' buffer = none → motive buffer)
    (hsome : ∀ buffer before after, Splits.once ';' buffer = some (before, after) →
      motive (trimStart after) → motive buffer) (buffer : List Char) : motive buffer := by
  induction hlength : buffer.length using Nat.strong_induction_on generalizing buffer with
  | _ n ih =>
      cases hcut : Splits.once ';' buffer with
      | none => exact hnone buffer hcut
      | some halves =>
          apply hsome buffer halves.1 halves.2 hcut
          exact ih _ (hlength ▸ length_trimStart_lt hcut) _ rfl

end Buffer

theorem CatalogParser.drain_of_none {buffer : List Char} (h : Splits.once ';' buffer = none)
    (kind : DeclarationKind) (parser : CatalogParser) :
    drain kind buffer parser = .ok (buffer, parser) := by
  rw [drain]
  split
  · rfl
  · simp_all

theorem CatalogParser.drain_of_some {buffer before after : List Char}
    (h : Splits.once ';' buffer = some (before, after)) (kind : DeclarationKind)
    (parser : CatalogParser) :
    drain kind buffer parser = (do
      let parser ← if trimList isWhitespace before = [] then .ok parser
        else parser.add kind (trimList isWhitespace before)
      drain kind (trimStart after) parser) := by
  rw [drain]
  split
  · simp_all
  · rename_i before' after' hcut
    obtain ⟨rfl, rfl⟩ := Prod.mk.inj (Option.some.inj (hcut.symm.trans h))
    rfl

theorem CatalogParser.drain_eq (kind : DeclarationKind) (buffer : List Char)
    (parser : CatalogParser) :
    drain kind buffer parser = (do
      let parser ← (declarationsIn buffer).1.foldlM (add kind) parser
      return ((declarationsIn buffer).2, parser)) := by
  induction buffer using buffer_induction generalizing parser with
  | hnone buffer hcut =>
      rw [drain_of_none hcut, declarationsIn_of_none hcut]
      rfl
  | hsome buffer before after hcut ih =>
      rw [drain_of_some hcut, declarationsIn_of_some hcut]
      split_ifs with hempty
      · exact ih parser
      · rw [List.singleton_append, List.foldlM_cons, bind_assoc]
        exact bind_congr ih

def countDeclaration (current : SchemaSection) (stats : SchemaStats) (raw : List Char) :
    SchemaStats :=
  if '=' ∈ raw ∧ ¬ ['#'] <+: raw then stats.count current else stats

theorem SchemaStats.drain_of_none {buffer : List Char} (h : Splits.once ';' buffer = none)
    (current : SchemaSection) (stats : SchemaStats) :
    drain current buffer stats = (buffer, stats) := by
  rw [drain]
  split
  · rfl
  · simp_all

theorem SchemaStats.drain_of_some {buffer before after : List Char}
    (h : Splits.once ';' buffer = some (before, after)) (current : SchemaSection)
    (stats : SchemaStats) :
    drain current buffer stats = drain current (trimStart after)
      (countDeclaration current stats (trimList isWhitespace before)) := by
  rw [drain]
  split
  · simp_all
  · rename_i before' after' hcut
    obtain ⟨rfl, rfl⟩ := Prod.mk.inj (Option.some.inj (hcut.symm.trans h))
    rfl

theorem SchemaStats.drain_eq (current : SchemaSection) (buffer : List Char)
    (stats : SchemaStats) :
    drain current buffer stats = ((declarationsIn buffer).2,
      (declarationsIn buffer).1.foldl (countDeclaration current) stats) := by
  induction buffer using buffer_induction generalizing stats with
  | hnone buffer hcut =>
      rw [drain_of_none hcut, declarationsIn_of_none hcut]
      rfl
  | hsome buffer before after hcut ih =>
      rw [drain_of_some hcut, declarationsIn_of_some hcut, ih]
      split_ifs with hempty
      · have hskip : countDeclaration current stats [] = stats := by
          rw [countDeclaration, if_neg (fun h ↦ List.not_mem_nil h.1)]
        rw [hempty, hskip, List.nil_append]
      · rw [List.singleton_append, List.foldl_cons]

/-! ## The lines -/

theorem CatalogParser.lines_eq (kind : DeclarationKind) (buffer : List Char)
    (parser : CatalogParser) (lines : List (List Char)) :
    (do let state ← lines.foldlM line (kind, buffer, parser)
        return state.2.2) =
      (declarationsFrom kind buffer lines).foldlM (fun parser d ↦ add d.1 parser d.2) parser := by
  induction lines generalizing kind buffer parser with
  | nil => rfl
  | cons rawLine lines ih =>
      rw [List.foldlM_cons, bind_assoc, declarationsFrom]
      simp only [line]
      generalize (if buffer = [] then trimList isWhitespace (codeOf (trimList isWhitespace rawLine))
        else buffer ++ [' '] ++ trimList isWhitespace (codeOf (trimList isWhitespace rawLine))) =
          joined
      split_ifs with htypes hfunctions hskip hcode
      · exact ih .type [] parser
      · exact ih .function [] parser
      · exact ih kind buffer parser
      · exact ih kind buffer parser
      · rw [drain_eq, List.foldlM_append, List.foldlM_map]
        simp only [bind_assoc, pure_bind]
        exact bind_congr fun parser ↦ ih kind _ parser

def sectionOf : DeclarationKind → SchemaSection
  | .type => .types
  | .function => .functions

theorem SchemaStats.lines_eq (kind : DeclarationKind) (buffer : List Char) (stats : SchemaStats)
    (lines : List (List Char)) :
    (lines.foldl line (sectionOf kind, buffer, stats)).2.2 =
      (declarationsFrom kind buffer lines).foldl
        (fun stats d ↦ countDeclaration (sectionOf d.1) stats d.2) stats := by
  induction lines generalizing kind buffer stats with
  | nil => rfl
  | cons rawLine lines ih =>
      rw [List.foldl_cons, declarationsFrom]
      simp only [line]
      generalize (if buffer = [] then trimList isWhitespace (codeOf (trimList isWhitespace rawLine))
        else buffer ++ [' '] ++ trimList isWhitespace (codeOf (trimList isWhitespace rawLine))) =
          joined
      split_ifs with htypes hfunctions hskip hcode
      · exact ih .type [] stats
      · exact ih .function [] stats
      · exact ih kind buffer stats
      · exact ih kind buffer stats
      · rw [drain_eq, List.foldl_append, List.foldl_map]
        exact ih kind _ _

/-! ## What both make of a declaration -/

def CatalogParser.addAll (parser : CatalogParser) (found : List (DeclarationKind × List Char)) :
    Except SchemaParseError CatalogParser :=
  found.foldlM (fun parser d ↦ add d.1 parser d.2) parser

theorem parseSchemaCatalog_eq_ok {schema : List Char} {catalog : SchemaCatalog} :
    parseSchemaCatalog schema = .ok catalog ↔
      ∃ parser, CatalogParser.addAll ⟨⟨[], []⟩, []⟩ (declarations schema) = .ok parser ∧
        parser.catalog = catalog := by
  rw [CatalogParser.addAll, declarations, ← CatalogParser.lines_eq, parseSchemaCatalog, bind_eq_ok]
  constructor
  · rintro ⟨state, hlines, hpure⟩
    exact ⟨state.2.2, bind_eq_ok.mpr ⟨state, hlines, rfl⟩, Except.ok.inj hpure⟩
  · rintro ⟨parser, hparser, rfl⟩
    obtain ⟨state, hlines, hpure⟩ := bind_eq_ok.mp hparser
    rw [← Except.ok.inj hpure]
    exact ⟨state, hlines, rfl⟩

theorem parseTdApiSchema_eq (schema : List Char) :
    parseTdApiSchema schema = (declarations schema).foldl
      (fun stats d ↦ countDeclaration (sectionOf d.1) stats d.2) ⟨0, 0⟩ :=
  SchemaStats.lines_eq .type [] ⟨0, 0⟩ (schemaLines schema)

theorem stats_push (catalog : SchemaCatalog) (declaration : SchemaDeclaration) :
    (catalog.push declaration).stats = catalog.stats.count (sectionOf declaration.kind) := by
  unfold SchemaCatalog.push
  cases declaration.kind <;> simp [SchemaCatalog.stats, SchemaStats.count, sectionOf]

theorem readName_of_hash {rest name : List Char} {id : Option UInt32}
    (h : readName ('#' :: rest) = .ok (name, id)) : name = [] := by
  have hcut : Splits.once '#' ('#' :: rest) = some ([], rest) := by
    rw [Splits.once, if_pos rfl]
  simp only [readName, hcut, bind_eq_ok] at h
  obtain ⟨id', -, hpure⟩ := h
  exact (Prod.mk.inj (Except.ok.inj hpure)).1.symm

theorem firstWord_of_hash (rest : List Char) :
    ∃ word, firstWord ('#' :: rest) = some ('#' :: word) := by
  have hstart : trimStart ('#' :: rest) = '#' :: rest := by
    rw [trimStart, List.dropWhile_cons_of_neg (by decide)]
  rw [firstWord, hstart]
  exact ⟨_, congrArg some (List.takeWhile_cons_of_pos (by decide))⟩

theorem readDeclaration_eq_ok {kind : DeclarationKind} {raw : List Char}
    {declaration : SchemaDeclaration} (h : readDeclaration kind raw = .ok declaration) :
    declaration.kind = kind ∧ '=' ∈ raw ∧ ¬ ['#'] <+: raw := by
  simp only [readDeclaration, bind_eq_ok, okOr_eq_ok, ensure_eq_ok] at h
  obtain ⟨⟨left, result⟩, hcut, word, hword, ⟨name, id⟩, hname, -, hne, hpure⟩ := h
  obtain ⟨rfl, -⟩ := Splits.lastOnce_eq_some.mp hcut
  refine ⟨?_, List.mem_append_right left List.mem_cons_self, ?_⟩
  · rw [← Except.ok.inj hpure]
  · intro hstart
    cases left with
    | nil => exact absurd (List.cons_prefix_cons.mp hstart).1 (by decide)
    | cons c left =>
        obtain rfl := (List.cons_prefix_cons.mp hstart).1
        obtain ⟨rest, hrest⟩ := firstWord_of_hash left
        obtain rfl := Option.some.inj (hrest.symm.trans hword)
        exact hne (readName_of_hash hname)

theorem stats_add {kind : DeclarationKind} {parser parser' : CatalogParser} {raw : List Char}
    (h : parser.add kind raw = .ok parser') :
    parser'.catalog.stats = countDeclaration (sectionOf kind) parser.catalog.stats raw := by
  simp only [CatalogParser.add, bind_eq_ok] at h
  obtain ⟨declaration, hread, ids, -, hpure⟩ := h
  obtain ⟨hkind, hresult, hname⟩ := readDeclaration_eq_ok hread
  rw [← Except.ok.inj hpure, stats_push, hkind, countDeclaration, if_pos ⟨hresult, hname⟩]

theorem stats_addAll {parser parser' : CatalogParser}
    {found : List (DeclarationKind × List Char)} (h : parser.addAll found = .ok parser') :
    parser'.catalog.stats = found.foldl
      (fun stats d ↦ countDeclaration (sectionOf d.1) stats d.2) parser.catalog.stats := by
  induction found generalizing parser with
  | nil => rw [← Except.ok.inj h]; rfl
  | cons d found ih =>
      rw [CatalogParser.addAll, List.foldlM_cons, bind_eq_ok] at h
      obtain ⟨next, hadd, hrest⟩ := h
      rw [List.foldl_cons, ← stats_add hadd]
      exact ih hrest

theorem parseTdApiSchema_eq_stats {schema : List Char} {catalog : SchemaCatalog}
    (h : parseSchemaCatalog schema = .ok catalog) : parseTdApiSchema schema = catalog.stats := by
  obtain ⟨parser, hparser, rfl⟩ := parseSchemaCatalog_eq_ok.mp h
  rw [parseTdApiSchema_eq, stats_addAll hparser]
  rfl

end Fabushi.Telegram
