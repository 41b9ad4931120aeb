import Fabushi.Library.Joined
import Fabushi.Library.OrderedMap
import Fabushi.Library.Result
import Fabushi.Library.Runs
import Fabushi.Library.Text

/-!
# The secret store

`mahayana-secrets`: a scope and a name become one key of the secrets file, whose
parts stand between slashes. The key tells the pair, but where an environment
identifier has a slash itself, the parts of the key are no longer read as a pair.
-/

namespace Fabushi.Secrets

open Result Std

def isNameChar (c : Char) : Bool :=
  Text.isAsciiUppercase c || Text.isAsciiDigit c || c = '_'

structure SecretName where
  value : String
  valid : value ≠ "" ∧ value.toList.all isNameChar = true
  deriving DecidableEq

def SecretName.new (raw : String) : Except String SecretName :=
  let trimmed := Text.trim raw
  if hempty : trimmed = "" then .error "secret name must not be empty"
  else if hchars : trimmed.toList.all isNameChar = true then .ok ⟨trimmed, hempty, hchars⟩
  else .error "secret name must contain only A-Z, 0-9, or _"

inductive SecretScope where
  | global
  | ofEnvironment (environmentId : String)
  deriving DecidableEq

def SecretScope.environment (environmentId : String) : Except String SecretScope := do
  let trimmed := Text.trim environmentId
  ensure (trimmed ≠ "") "environment id must not be empty"
  return .ofEnvironment trimmed

def SecretScope.canonicalKey (scope : SecretScope) (name : SecretName) : String :=
  match scope with
  | .global => "global" ++ String.singleton '/' ++ name.value
  | .ofEnvironment environmentId =>
      "env" ++ String.singleton '/' ++ environmentId ++ String.singleton '/' ++ name.value

structure SecretListEntry where
  scope : SecretScope
  name : SecretName
  deriving DecidableEq

/-- `split('/')` and the parts it yields. -/
def parseCanonicalKey (key : String) : Option SecretListEntry :=
  match (Joined.pieces '/' key).map String.ofList with
  | ["global", name] => (SecretName.new name).toOption.map fun name ↦ ⟨.global, name⟩
  | ["env", environment, name] =>
      (SecretName.new name).toOption.map fun name ↦ ⟨.ofEnvironment environment, name⟩
  | _ => none

def secretsVersion : ℕ := 1

structure SecretsFile where
  version : ℕ := secretsVersion
  secrets : BTreeMap String String := ∅

abbrev Backend := Option SecretsFile

namespace Backend

def loadFile (backend : Backend) : Except String SecretsFile :=
  match backend with
  | none => .ok {}
  | some file =>
      let version := if file.version = 0 then secretsVersion else file.version
      if version ≤ secretsVersion then .ok { file with version }
      else .error "secrets file version is newer than supported version"

def set (backend : Backend) (scope : SecretScope) (name : SecretName) (value : String) :
    Backend × Except String Unit :=
  if value = "" then (backend, .error "secret value must not be empty")
  else
    match loadFile backend with
    | .error error => (backend, .error error)
    | .ok file =>
        (some { file with secrets := file.secrets.insert (scope.canonicalKey name) value }, .ok ())

def get (backend : Backend) (scope : SecretScope) (name : SecretName) :
    Except String (Option String) :=
  (loadFile backend).map fun file ↦ file.secrets[scope.canonicalKey name]?

def delete (backend : Backend) (scope : SecretScope) (name : SecretName) :
    Backend × Except String Bool :=
  match loadFile backend with
  | .error error => (backend, .error error)
  | .ok file =>
      let key := scope.canonicalKey name
      if file.secrets.contains key then
        (some { file with secrets := file.secrets.erase key }, .ok true)
      else (backend, .ok false)

def list (backend : Backend) (scopeFilter : Option SecretScope) :
    Except String (List SecretListEntry) :=
  (loadFile backend).map fun file ↦
    (file.secrets.keys.filterMap parseCanonicalKey).filter fun entry ↦
      scopeFilter.all fun scope ↦ decide (scope = entry.scope)

end Backend

/-! ## Keys and pairs -/

def SecretListEntry.key (entry : SecretListEntry) : String :=
  entry.scope.canonicalKey entry.name

def SecretScope.Flat : SecretScope → Prop
  | .global => True
  | .ofEnvironment environmentId => '/' ∉ environmentId.toList

theorem isNameChar_spec {c : Char} (h : isNameChar c = true) :
    c ≠ '/' ∧ Text.isWhitespace c = false := by
  simp only [isNameChar, Bool.or_eq_true, decide_eq_true_eq] at h
  rcases h with (h | h) | rfl
  · refine ⟨?_, Text.isWhitespace_of_isAsciiUppercase h⟩
    rintro rfl
    revert h
    decide
  · refine ⟨?_, ?_⟩
    · rintro rfl
      revert h
      decide
    · simp only [Text.isAsciiDigit, Bool.and_eq_true, decide_eq_true_eq] at h
      have hlow : 48 ≤ c.toNat := h.1
      have hhigh : c.toNat ≤ 57 := h.2
      simp only [Text.isWhitespace]
      grind
  · decide

theorem SecretName.pieces (name : SecretName) :
    Joined.pieces '/' name.value = [name.value.toList] := by
  refine List.splitOn_eq_singleton fun hmem ↦ ?_
  exact (isNameChar_spec (List.all_eq_true.mp name.valid.2 '/' hmem)).1 rfl

theorem SecretName.new_value (name : SecretName) : SecretName.new name.value = .ok name := by
  have htrim : Text.trim name.value = name.value := Text.trim_eq_self fun c hc ↦
    (isNameChar_spec (List.all_eq_true.mp name.valid.2 c hc)).2
  simp only [SecretName.new, htrim, dif_neg name.valid.1, dif_pos name.valid.2]

theorem pieces_key (entry : SecretListEntry) : Joined.pieces '/' entry.key =
    match entry.scope with
    | .global => ["global".toList, entry.name.value.toList]
    | .ofEnvironment environmentId =>
        "env".toList :: (Joined.pieces '/' environmentId ++ [entry.name.value.toList]) := by
  have hglobal : Joined.pieces '/' "global" = ["global".toList] := by decide
  have henv : Joined.pieces '/' "env" = ["env".toList] := by decide
  obtain ⟨scope, name⟩ := entry
  cases scope with
  | global =>
    simp only [SecretListEntry.key, SecretScope.canonicalKey]
    rw [Joined.pieces_join, hglobal, name.pieces]
    rfl
  | ofEnvironment environmentId =>
    simp only [SecretListEntry.key, SecretScope.canonicalKey]
    rw [Joined.pieces_join, Joined.pieces_join, henv, name.pieces]
    rfl

theorem key_injective : Function.Injective SecretListEntry.key := by
  rintro ⟨scope, name⟩ ⟨scope', name'⟩ h
  have hpieces := congrArg (Joined.pieces '/') h
  rw [pieces_key, pieces_key] at hpieces
  have hname : ∀ {name name' : SecretName}, name.value.toList = name'.value.toList →
      name = name' := by
    rintro ⟨value, _⟩ ⟨value', _⟩ hvalue
    cases String.toList_inj.mp hvalue
    rfl
  cases scope with
  | global =>
    cases scope' with
    | global =>
      cases hname (List.cons.inj (List.cons.inj hpieces).2).1
      rfl
    | ofEnvironment environmentId => exact absurd (List.cons.inj hpieces).1 (by decide)
  | ofEnvironment environmentId =>
    cases scope' with
    | global => exact absurd (List.cons.inj hpieces).1 (by decide)
    | ofEnvironment environmentId' =>
      obtain ⟨hids, hnames⟩ := List.append_inj' (List.cons.inj hpieces).2 rfl
      cases Joined.pieces_injective hids
      cases hname (List.cons.inj hnames).1
      rfl

theorem pieces_of_flat {environmentId : String} (h : '/' ∉ environmentId.toList) :
    Joined.pieces '/' environmentId = [environmentId.toList] :=
  List.splitOn_eq_singleton h

theorem exists_pieces_of_slash {environmentId : String} (h : '/' ∈ environmentId.toList) :
    ∃ first second rest, Joined.pieces '/' environmentId = first :: second :: rest := by
  cases hpieces : Joined.pieces '/' environmentId with
  | nil => exact absurd hpieces (List.splitOnP_ne_nil _ _)
  | cons first rest =>
    cases rest with
    | cons second rest => exact ⟨first, second, rest, rfl⟩
    | nil =>
      have hjoined := congrArg ['/'].intercalate hpieces
      rw [Joined.pieces, List.intercalate_splitOn, List.intercalate_singleton] at hjoined
      have hfirst : first ∈ environmentId.toList.splitOn '/' := by
        rw [show environmentId.toList.splitOn '/' = [first] from hpieces]
        exact List.mem_singleton_self first
      exact absurd rfl (Joined.notMem_of_mem_splitOn hfirst (hjoined ▸ h)).2

theorem parse_key (entry : SecretListEntry) :
    (entry.scope.Flat ∧ parseCanonicalKey entry.key = some entry) ∨
      (¬ entry.scope.Flat ∧ parseCanonicalKey entry.key = none) := by
  have hpieces := pieces_key entry
  obtain ⟨scope, name⟩ := entry
  cases scope with
  | global =>
    refine Or.inl ⟨trivial, ?_⟩
    rw [parseCanonicalKey, hpieces]
    simp [String.ofList_toList, name.new_value, Except.toOption]
  | ofEnvironment environmentId =>
    dsimp only at hpieces
    by_cases hslash : '/' ∈ environmentId.toList
    · obtain ⟨first, second, rest, hid⟩ := exists_pieces_of_slash hslash
      refine Or.inr ⟨not_not.mpr hslash, ?_⟩
      rw [parseCanonicalKey, hpieces, hid]
      simp
    · refine Or.inl ⟨hslash, ?_⟩
      rw [parseCanonicalKey, hpieces, pieces_of_flat hslash]
      simp [String.ofList_toList, name.new_value, Except.toOption]

theorem eq_of_parse_key {pair entry : SecretListEntry} (h : parseCanonicalKey pair.key = some entry) :
    pair = entry := by
  rcases parse_key pair with ⟨-, hsome⟩ | ⟨-, hnone⟩
  · exact Option.some.inj (hsome.symm.trans h)
  · rw [hnone] at h
    cases h

/-! ## Calls -/

inductive Call where
  | set (scope : SecretScope) (name : SecretName) (value : String)
  | get (scope : SecretScope) (name : SecretName)
  | delete (scope : SecretScope) (name : SecretName)
  | list (scopeFilter : Option SecretScope)

structure State where
  backend : Backend := none
  map : SecretListEntry → Option String := fun _ ↦ none

def State.step (s : State) : Call → State
  | .set scope name value =>
      { backend := (s.backend.set scope name value).1
        map := if value = "" then s.map else Function.update s.map ⟨scope, name⟩ (some value) }
  | .delete scope name =>
      { backend := (s.backend.delete scope name).1
        map := Function.update s.map ⟨scope, name⟩ none }
  | .get _ _ | .list _ => s

def State.Listed (s : State) (scopeFilter : Option SecretScope) (entry : SecretListEntry) : Prop :=
  s.map entry ≠ none ∧ ∀ scope, scopeFilter = some scope → scope = entry.scope

def State.Answers (s : State) : Call → Prop
  | .set scope name value =>
      (s.backend.set scope name value).2 =
        if value = "" then .error "secret value must not be empty" else .ok ()
  | .get scope name => s.backend.get scope name = .ok (s.map ⟨scope, name⟩)
  | .delete scope name => (s.backend.delete scope name).2 = .ok (s.map ⟨scope, name⟩).isSome
  | .list scopeFilter => ∃ entries, s.backend.list scopeFilter = .ok entries ∧ entries.Nodup ∧
      ∀ entry, entry ∈ entries ↔ s.Listed scopeFilter entry

/-- Every pair that is to be listed has an environment identifier without a slash. -/
def State.Readable (s : State) : Call → Prop
  | .list scopeFilter => ∀ entry, s.Listed scopeFilter entry → entry.scope.Flat
  | _ => True

structure State.Refines (s : State) : Prop where
  version : ∀ file, s.backend = some file → file.version = secretsVersion
  get : ∀ entry : SecretListEntry,
    (s.backend.getD {}).secrets[entry.key]? = s.map entry
  keys : ∀ key ∈ (s.backend.getD {}).secrets, ∃ entry : SecretListEntry, key = entry.key

variable {s : State}

theorem State.Refines.loadFile (h : s.Refines) : s.backend.loadFile = .ok (s.backend.getD {}) := by
  cases hbackend : s.backend with
  | none => rfl
  | some file =>
    have hversion := h.version file hbackend
    obtain ⟨version, secrets⟩ := file
    cases hversion
    rfl

theorem State.Refines.mem_keys (h : s.Refines) {key : String} :
    key ∈ (s.backend.getD {}).secrets.keys ↔ ∃ entry, s.map entry ≠ none ∧ key = entry.key := by
  rw [ExtTreeMap.mem_keys]
  constructor
  · intro hmem
    obtain ⟨entry, rfl⟩ := h.keys key hmem
    refine ⟨entry, ?_, rfl⟩
    rw [← h.get entry]
    exact fun hnone ↦ BTreeMap.get_eq_none_iff.mp hnone hmem
  · rintro ⟨entry, hentry, rfl⟩
    by_contra hmem
    rw [← h.get entry] at hentry
    exact hentry (BTreeMap.get_eq_none_iff.mpr hmem)

theorem State.Refines.list_eq (h : s.Refines) (scopeFilter : Option SecretScope) :
    ∃ entries, s.backend.list scopeFilter = .ok entries ∧ entries.Nodup ∧
      ∀ entry, entry ∈ entries ↔ s.Listed scopeFilter entry ∧ entry.scope.Flat := by
  refine ⟨_, by rw [Backend.list, h.loadFile]; rfl, ?_, fun entry ↦ ?_⟩
  · refine List.Nodup.filter _ (List.pairwise_filterMap.mpr ?_)
    refine (ExtTreeMap.distinct_keys (t := (s.backend.getD {}).secrets)).imp_of_mem ?_
    rintro key key' hkey hkey' hne entry hentry entry' hentry' rfl
    obtain ⟨pair, -, rfl⟩ := h.mem_keys.mp hkey
    obtain ⟨pair', -, rfl⟩ := h.mem_keys.mp hkey'
    rw [eq_of_parse_key hentry, eq_of_parse_key hentry'] at hne
    exact hne ReflCmp.compare_self
  · rw [List.mem_filter, List.mem_filterMap, State.Listed]
    constructor
    · rintro ⟨⟨key, hkey, hparse⟩, hfilter⟩
      obtain ⟨entry', hentry', rfl⟩ := h.mem_keys.mp hkey
      cases eq_of_parse_key hparse
      rcases parse_key entry with ⟨hflat, -⟩ | ⟨-, hnone⟩
      · refine ⟨⟨hentry', fun scope hscope ↦ ?_⟩, hflat⟩
        subst hscope
        simpa using hfilter
      · rw [hnone] at hparse
        cases hparse
    · rintro ⟨⟨hentry, hscope⟩, hflat⟩
      refine ⟨⟨entry.key, h.mem_keys.mpr ⟨entry, hentry, rfl⟩, ?_⟩, ?_⟩
      · rcases parse_key entry with ⟨-, hsome⟩ | ⟨hnot, -⟩
        · exact hsome
        · exact absurd hflat hnot
      · cases scopeFilter with
        | none => rfl
        | some scope => simpa using hscope scope rfl

theorem State.Refines.answers_iff (h : s.Refines) (c : Call) : s.Answers c ↔ s.Readable c := by
  cases c with
  | set scope name value =>
    refine iff_of_true ?_ trivial
    rw [State.Answers, Backend.set, h.loadFile]
    split_ifs <;> rfl
  | get scope name =>
    refine iff_of_true ?_ trivial
    rw [State.Answers, Backend.get, h.loadFile]
    exact congrArg _ (h.get ⟨scope, name⟩)
  | delete scope name =>
    refine iff_of_true ?_ trivial
    have hget := h.get ⟨scope, name⟩
    rw [State.Answers, Backend.delete, h.loadFile, ← hget]
    simp only [SecretListEntry.key, ExtTreeMap.isSome_getElem?_eq_contains]
    split_ifs with hcontains <;> simp [hcontains]
  | list scopeFilter =>
    obtain ⟨listed, hlisted, hnodup, hmem⟩ := h.list_eq scopeFilter
    rw [State.Answers, State.Readable]
    constructor
    · rintro ⟨entries, hentries, -, hall⟩ entry hentry
      rw [hlisted] at hentries
      cases hentries
      exact ((hmem entry).mp ((hall entry).mpr hentry)).2
    · intro hflat
      exact ⟨listed, hlisted, hnodup, fun entry ↦
        (hmem entry).trans ⟨And.left, fun hentry ↦ ⟨hentry, hflat entry hentry⟩⟩⟩

theorem State.Refines.step (h : s.Refines) (c : Call) : (s.step c).Refines := by
  cases c with
  | get scope name => exact h
  | list scopeFilter => exact h
  | set scope name value =>
    by_cases hvalue : value = ""
    · simp only [State.step, Backend.set, hvalue, if_true]
      exact h
    · simp only [State.step, Backend.set, hvalue, if_false, h.loadFile]
      refine ⟨?_, fun entry ↦ ?_, fun key hkey ↦ ?_⟩
      · rintro file ⟨⟩
        cases hbackend : s.backend with
        | none => rfl
        | some file => exact h.version file hbackend
      · simp only [Option.getD_some, BTreeMap.get_insert]
        by_cases hentry : entry = ⟨scope, name⟩
        · subst hentry
          simp [SecretListEntry.key]
        · have hkey : scope.canonicalKey name ≠ entry.key :=
            fun heq ↦ hentry (key_injective heq.symm)
          rw [if_neg hkey, Function.update_of_ne hentry]
          exact h.get entry
      · simp only [Option.getD_some, ExtTreeMap.mem_insert, Std.compare_eq_iff_eq] at hkey
        rcases hkey with rfl | hkey
        · exact ⟨⟨scope, name⟩, rfl⟩
        · exact h.keys key hkey
  | delete scope name =>
    simp only [State.step, Backend.delete, h.loadFile]
    have hget := h.get ⟨scope, name⟩
    split_ifs with hcontains
    · refine ⟨?_, fun entry ↦ ?_, fun key hkey ↦ ?_⟩
      · rintro file ⟨⟩
        cases hbackend : s.backend with
        | none => rfl
        | some file => exact h.version file hbackend
      · simp only [Option.getD_some, BTreeMap.get_erase]
        by_cases hentry : entry = ⟨scope, name⟩
        · subst hentry
          simp [SecretListEntry.key]
        · have hkey : scope.canonicalKey name ≠ entry.key :=
            fun heq ↦ hentry (key_injective heq.symm)
          rw [if_neg hkey, Function.update_of_ne hentry]
          exact h.get entry
      · exact h.keys key (ExtTreeMap.mem_of_mem_erase hkey)
    · have hnone : s.map ⟨scope, name⟩ = none := by
        rw [← hget, BTreeMap.get_eq_none_iff]
        simpa [SecretListEntry.key] using hcontains
      rwa [← hnone, Function.update_eq_self]

theorem refines_empty : State.Refines {} where
  version := by rintro file ⟨⟩
  get := by
    intro entry
    exact ExtTreeMap.getElem?_empty
  keys := by
    intro key hkey
    exact absurd hkey ExtTreeMap.not_mem_empty

/-- All calls on a new store are answered as by the map exactly when every pair
that a list is to hold has an environment identifier without a slash. -/
theorem answers_as_map_iff (calls : List Call) :
    Runs.Along State.step State.Answers {} calls ↔ Runs.Along State.step State.Readable {} calls := by
  refine Runs.along_iff_along (A := fun _ _ ↦ True) (fun s c hs _ ↦ hs.answers_iff c)
    (fun s c hs _ _ ↦ hs.step c)
    refines_empty ?_
  exact Runs.along_of_forall_mem State.step (fun _ _ _ ↦ trivial) {}

def sampleName : SecretName :=
  ⟨"TOKEN", by decide, by decide⟩

/-- A secret of the environment `a/b` is stored and can be read, but is not listed. -/
theorem slashed_environment_not_listed :
    SecretScope.environment "a/b" = .ok (.ofEnvironment "a/b") ∧
    ¬ Runs.Along State.step State.Answers {}
      [.set (.ofEnvironment "a/b") sampleName "x", .list none] := by
  refine ⟨by decide +kernel, ?_⟩
  rintro ⟨-, ⟨entries, hlist, -, hmem⟩, -⟩
  have hempty : Backend.list
      (some { secrets := (∅ : BTreeMap String String).insert "env/a/b/TOKEN" "x" }) none =
        .ok [] := by decide +kernel
  have hentry := (hmem ⟨.ofEnvironment "a/b", sampleName⟩).mpr
    ⟨by simp [State.step], by simp⟩
  cases hempty.symm.trans hlist
  cases hentry

end Fabushi.Secrets
