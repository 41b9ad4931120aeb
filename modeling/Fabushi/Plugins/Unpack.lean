import Fabushi.Library.FileTree

/-!
# Unpacking a plugin archive

An archive is the list of its entries. They are unpacked one after the other below a
destination that must not exist, and the first one that is refused ends the unpacking:
what was made until then stays, the destination included.
-/

set_option linter.unusedSectionVars false

namespace Fabushi.Plugins

open Std

variable {Name : Type} [Ord Name] [TransOrd Name] [LawfulEqOrd Name] [DecidableEq Name]

inductive Component (Name : Type) where
  | prefixed
  | rootDir
  | curDir
  | parentDir
  | normal (name : Name)
  deriving DecidableEq

inductive EntryType where
  | regular
  | directory
  | other
  deriving DecidableEq

/-- The size in the header need not be the length of what follows it. -/
structure Entry (Name : Type) where
  path : List (Component Name)
  entryType : EntryType
  declaredSize : UInt64
  content : List UInt8
  deriving DecidableEq

inductive UnpackError (Name : Type) where
  | destinationExists (destination : List Name)
  | unsafePath (path : List (Component Name))
  | unsupportedEntry (path : List (Component Name))
  | tooLarge (limit actual : ℕ)
  | sizeMismatch (path : List Name) (expected actual : ℕ)
  | io (error : FileError)
  deriving DecidableEq

abbrev Tree (Name : Type) [Ord Name] [TransOrd Name] := FileTree Name (List UInt8)

def pushComponent (path : List (Component Name)) (normalized : List Name) :
    Component Name → Except (UnpackError Name) (List Name)
  | .normal name => .ok (name :: normalized)
  | .curDir => .ok normalized
  | .parentDir | .rootDir | .prefixed => .error (.unsafePath path)

def safeRelativePath (path : List (Component Name)) : Except (UnpackError Name) (List Name) :=
  if path.head? = some .rootDir then .error (.unsafePath path)
  else path.foldlM (pushComponent path) []

structure Unpacking (Name : Type) [Ord Name] [TransOrd Name] where
  tree : Tree Name
  written : List (List Name × List UInt8) := []
  totalBytes : ℕ := 0

abbrev Outcome (Name : Type) [Ord Name] [TransOrd Name] :=
  Unpacking Name × Option (UnpackError Name)

def createNew (tree : Tree Name) (path : List Name) (content : List UInt8) :
    Except FileError (Tree Name) :=
  if tree.lookup path = none then tree.writeFile path content else .error .alreadyExists

def checkedAdd (total : ℕ) (size : UInt64) : Option ℕ :=
  if total + size.toNat < 2 ^ 64 then some (total + size.toNat) else none

variable (destination : List Name) (limit : UInt64)

def unpackFile (st : Unpacking Name) (entry : Entry Name) (relative : List Name) : Outcome Name :=
  match checkedAdd st.totalBytes entry.declaredSize with
  | none => (st, some (.tooLarge limit.toNat (2 ^ 64 - 1)))
  | some totalBytes =>
      if limit.toNat < totalBytes then (st, some (.tooLarge limit.toNat totalBytes))
      else match st.tree.createDirAll (relative ++ destination).tail with
        | .error error => (st, some (.io error))
        | .ok tree =>
            match createNew tree (relative ++ destination) entry.content with
            | .error error => ({ st with tree }, some (.io error))
            | .ok tree =>
                ({ tree, totalBytes,
                   written := st.written ++ [(relative ++ destination, entry.content)] },
                  if entry.content.length = entry.declaredSize.toNat then none
                  else some (.sizeMismatch relative entry.declaredSize.toNat
                    entry.content.length))

def unpackEntry (st : Unpacking Name) (entry : Entry Name) : Outcome Name :=
  match safeRelativePath entry.path with
  | .error error => (st, some error)
  | .ok relative =>
      if relative = [] then (st, none)
      else match entry.entryType with
        | .directory =>
            match st.tree.createDirAll (relative ++ destination) with
            | .error error => (st, some (.io error))
            | .ok tree => ({ st with tree }, none)
        | .other => (st, some (.unsupportedEntry entry.path))
        | .regular => unpackFile destination limit st entry relative

def unpackEntries : List (Entry Name) → Unpacking Name → Outcome Name
  | [], st => (st, none)
  | entry :: entries, st =>
      match unpackEntry destination limit st entry with
      | (st, none) => unpackEntries entries st
      | (st, some error) => (st, some error)

def unpackPluginBundleTarGz (tree : Tree Name) (entries : List (Entry Name)) : Outcome Name :=
  if tree.lookup destination ≠ none then ({ tree }, some (.destinationExists destination))
  else match tree.createDirAll destination with
    | .error error => ({ tree }, some (.io error))
    | .ok tree => unpackEntries destination limit entries { tree }

/-! ## The condition -/

def Entry.place (entry : Entry Name) : List Name :=
  (safeRelativePath entry.path).toOption.getD []

def Entry.IsFile (entry : Entry Name) : Prop :=
  entry.entryType = .regular ∧ entry.place ≠ []

instance (entry : Entry Name) : Decidable entry.IsFile :=
  inferInstanceAs (Decidable (_ ∧ _))

def Entry.size (entry : Entry Name) : ℕ :=
  if entry.IsFile then entry.declaredSize.toNat else 0

/-- A path without `..` or a root; unless it is the destination's own, a directory or
a regular file with as many bytes as its header says. -/
structure Entry.Sound (entry : Entry Name) : Prop where
  safe : (safeRelativePath entry.path).toOption.isSome
  kind : entry.place ≠ [] → entry.entryType ≠ .other
  length : entry.IsFile → entry.content.length = entry.declaredSize.toNat

def Entry.Clear (first second : Entry Name) : Prop :=
  (first.IsFile → ¬ first.place <:+ second.place) ∧
    (second.IsFile → ¬ second.place <:+ first.place)

structure Acceptable (entries : List (Entry Name)) : Prop where
  sound : ∀ entry ∈ entries, entry.Sound
  clear : entries.Pairwise Entry.Clear
  bounded : (entries.map Entry.size).sum ≤ limit.toNat

def Open (tree : Tree Name) (path : List Name) : Prop :=
  ∀ q, q <:+ path → ∀ content, tree.lookup q ≠ some (.file content)

/-- A call that ends with the destination found, or one that unpacks everything. -/
def Condition (before : Tree Name) (entries : List (Entry Name)) : Prop :=
  before.lookup destination ≠ none ∨
    Open before destination ∧ Acceptable limit entries ∧
      ∀ entry ∈ entries, entry.entryType = .regular → entry.place ≠ []

/-- What a call promises about the tree it leaves and about a later call. -/
structure Meets (before : Tree Name) (entries : List (Entry Name)) (after : Outcome Name) :
    Prop where
  /-- What is new is the destination, what was missing above it, or below it. -/
  confined : ∀ path, after.1.tree.lookup path ≠ before.lookup path →
    before.lookup path = none ∧ (path <:+ destination ∨ destination <:+ path)
  bounded : (after.1.written.map fun file ↦ file.2.length).sum ≤ limit.toNat
  once : (after.1.written.map Prod.fst).Nodup
  kept : ∀ file ∈ after.1.written, after.1.tree.lookup file.1 = some (.file file.2)
  exact : after.2 = none → ∀ path content,
    (destination <:+ path ∧ after.1.tree.lookup path = some (.file content)) ↔
      ∃ entry ∈ entries, entry.entryType = .regular ∧ path = entry.place ++ destination ∧
        content = entry.content
  retry : ∀ error, after.2 = some error → error ≠ .destinationExists destination →
    ∃ entries' limit', (unpackPluginBundleTarGz destination limit' after.1.tree entries').2 = none

/-! ## One entry -/

structure Made (before : Tree Name) (path : List Name) (after : Tree Name) : Prop where
  isOpen : Open before path
  lookup : ∀ q, after.lookup q = if q <:+ path then some .directory else before.lookup q

structure Admits (st : Unpacking Name) (entry : Entry Name) : Prop where
  sound : entry.Sound
  directory : entry.entryType = .directory → entry.place ≠ [] →
    Open st.tree (entry.place ++ destination)
  bounded : entry.IsFile → st.totalBytes + entry.declaredSize.toNat ≤ limit.toNat
  above : entry.IsFile → Open st.tree (entry.place ++ destination).tail
  new : entry.IsFile → st.tree.lookup (entry.place ++ destination) = none

inductive Step (st : Unpacking Name) (entry : Entry Name) : Outcome Name → Prop
  | refused {error : UnpackError Name} (hrefused : ¬ Admits destination limit st entry) :
      Step st entry (st, some error)
  | skipped (hadmits : Admits destination limit st entry) (hplace : entry.place = []) :
      Step st entry (st, none)
  | directory {tree : Tree Name} (hadmits : Admits destination limit st entry)
      (hfile : ¬ entry.IsFile) (hmade : Made st.tree (entry.place ++ destination) tree) :
      Step st entry ({ st with tree }, none)
  | collided {tree : Tree Name} {error : UnpackError Name}
      (hrefused : ¬ Admits destination limit st entry)
      (hmade : Made st.tree (entry.place ++ destination).tail tree) :
      Step st entry ({ st with tree }, some error)
  | file {above tree : Tree Name} {error : Option (UnpackError Name)}
      (hadmits : error = none ↔ Admits destination limit st entry) (hfile : entry.IsFile)
      (hnew : st.tree.lookup (entry.place ++ destination) = none)
      (hmade : Made st.tree (entry.place ++ destination).tail above)
      (hlookup : ∀ q, tree.lookup q = if entry.place ++ destination = q then
        some (.file entry.content) else above.lookup q) :
      Step st entry
        ({ tree, totalBytes := st.totalBytes + entry.declaredSize.toNat,
           written := st.written ++ [(entry.place ++ destination, entry.content)] }, error)

variable {destination limit} {st : Unpacking Name} {entry : Entry Name} {relative : List Name}

theorem exists_made {tree : Tree Name} {path : List Name} :
    (∃ after, tree.createDirAll path = .ok after ∧ Made tree path after) ∨
      (∃ error, tree.createDirAll path = .error error) ∧ ¬ Open tree path := by
  by_cases hopen : Open tree path
  · obtain ⟨after, hok, hlookup⟩ := FileTree.createDirAll_ok hopen
    exact .inl ⟨after, hok, hopen, hlookup⟩
  · refine .inr ⟨?_, hopen⟩
    unfold Open at hopen
    push Not at hopen
    obtain ⟨q, hq, content, hfile⟩ := hopen
    exact FileTree.createDirAll_error hq hfile

theorem place_of_ok (h : safeRelativePath entry.path = .ok relative) :
    entry.place = relative := by
  rw [Entry.place, h]
  rfl

theorem createNew_ok {tree : Tree Name} {path : List Name} (content : List UInt8)
    (hpath : path ≠ []) (habove : tree.lookup path.tail = some .directory)
    (hnew : tree.lookup path = none) :
    ∃ after, createNew tree path content = .ok after ∧
      ∀ q, after.lookup q = if path = q then some (.file content) else tree.lookup q := by
  obtain ⟨name, dir, rfl⟩ := List.exists_cons_of_ne_nil hpath
  rw [createNew, if_pos hnew]
  have hold : tree.lookup (name :: dir) ≠ some .directory := by
    rw [hnew]
    exact nofun
  exact FileTree.writeFile_ok content habove hold

theorem unpackFile_step (hsafe : safeRelativePath entry.path = .ok entry.place)
    (hfile : entry.IsFile) :
    Step destination limit st entry (unpackFile destination limit st entry entry.place) := by
  have hlimit := limit.toNat_lt
  have hpath : entry.place ++ destination ≠ [] := List.append_ne_nil_of_left_ne_nil hfile.2 _
  unfold unpackFile checkedAdd
  by_cases hsum : st.totalBytes + entry.declaredSize.toNat < 2 ^ 64
  · rw [if_pos hsum]
    dsimp only
    by_cases htoo : limit.toNat < st.totalBytes + entry.declaredSize.toNat
    · rw [if_pos htoo]
      exact .refused fun h ↦ absurd (h.bounded hfile) (Nat.not_le.mpr htoo)
    rw [if_neg htoo]
    obtain ⟨above, hok, hmade⟩ | ⟨⟨error, herror⟩, hclosed⟩ :=
      @exists_made _ _ _ _ _ st.tree (entry.place ++ destination).tail
    · rw [hok]
      dsimp only
      have hself : above.lookup (entry.place ++ destination) =
          st.tree.lookup (entry.place ++ destination) := by
        rw [hmade.lookup, if_neg]
        intro hle
        have hlength := hle.length_le
        rw [List.length_tail] at hlength
        exact absurd (List.length_pos_of_ne_nil hpath) (by omega)
      by_cases hnew : st.tree.lookup (entry.place ++ destination) = none
      · obtain ⟨tree, hcreate, hlookup⟩ := createNew_ok entry.content hpath
          (by rw [hmade.lookup, if_pos (List.suffix_refl _)]) (hself.trans hnew)
        rw [hcreate]
        refine .file ⟨fun hnone ↦ ?_, fun h ↦ if_pos (h.sound.length hfile)⟩ hfile hnew hmade
          hlookup
        have hlength : entry.content.length = entry.declaredSize.toNat := by
          by_contra hne
          rw [if_neg hne] at hnone
          cases hnone
        refine ⟨⟨by rw [hsafe]; rfl, fun _ hother ↦ ?_, fun _ ↦ hlength⟩, fun hdirectory _ ↦ ?_,
          fun _ ↦ Nat.not_lt.mp htoo, fun _ ↦ hmade.isOpen, fun _ ↦ hnew⟩
        · rw [hfile.1] at hother
          cases hother
        · rw [hfile.1] at hdirectory
          cases hdirectory
      · rw [createNew, if_neg (hself ▸ hnew)]
        exact .collided (fun h ↦ hnew (h.new hfile)) hmade
    · rw [herror]
      exact .refused fun h ↦ hclosed (h.above hfile)
  · rw [if_neg hsum]
    exact .refused fun h ↦ absurd (h.bounded hfile) (by omega)

theorem unpackEntry_step (st : Unpacking Name) (entry : Entry Name) :
    Step destination limit st entry (unpackEntry destination limit st entry) := by
  unfold unpackEntry
  cases hsafe : safeRelativePath entry.path with
  | error error =>
    refine .refused fun h ↦ ?_
    have hsome := h.sound.safe
    rw [hsafe] at hsome
    cases hsome
  | ok relative =>
    obtain rfl := place_of_ok hsafe
    dsimp only
    split_ifs with hplace
    · exact .skipped ⟨⟨by rw [hsafe]; rfl, fun h ↦ absurd hplace h, fun h ↦ absurd hplace h.2⟩,
        fun _ h ↦ absurd hplace h, fun h ↦ absurd hplace h.2, fun h ↦ absurd hplace h.2,
        fun h ↦ absurd hplace h.2⟩ hplace
    · cases hkind : entry.entryType with
      | regular => exact unpackFile_step hsafe ⟨hkind, hplace⟩
      | other => exact .refused fun h ↦ h.sound.kind hplace hkind
      | directory =>
        have hfile : ¬ entry.IsFile := fun h ↦ by
          rw [h.1] at hkind
          cases hkind
        obtain ⟨tree, hok, hmade⟩ | ⟨⟨error, herror⟩, hclosed⟩ :=
          @exists_made _ _ _ _ _ st.tree (entry.place ++ destination)
        · dsimp only
          rw [hok]
          refine .directory ⟨⟨by rw [hsafe]; rfl, fun _ ↦ ?_, fun h ↦ absurd h hfile⟩,
            fun _ _ ↦ hmade.isOpen, fun h ↦ absurd h hfile, fun h ↦ absurd h hfile,
            fun h ↦ absurd h hfile⟩ hfile hmade
          rw [hkind]
          intro h
          cases h
        · dsimp only
          rw [herror]
          exact .refused fun h ↦ hclosed (h.directory hkind hplace)

/-! ## What holds whether or not the archive is accepted -/

/-- Everything new is below the destination, and what was written is there. -/
structure Safe (destination : List Name) (before : Tree Name) (st : Unpacking Name) : Prop where
  confined : ∀ path, st.tree.lookup path ≠ before.lookup path →
    before.lookup path = none ∧ destination <:+ path
  once : (st.written.map Prod.fst).Nodup
  kept : ∀ file ∈ st.written, st.tree.lookup file.1 = some (.file file.2)

variable {before tree above : Tree Name} {path : List Name}

theorem Safe.lookup_destination (h : Safe destination before st)
    (hbefore : before.lookup destination = some .directory) :
    st.tree.lookup destination = some .directory := by
  by_contra hne
  have hnone := (h.confined destination (hbefore ▸ hne)).1
  rw [hbefore] at hnone
  cases hnone

theorem Made.lookup_append (hmade : Made tree (relative ++ destination) above) (r : List Name) :
    above.lookup (r ++ destination) =
      if r <:+ relative then some .directory else tree.lookup (r ++ destination) := by
  rw [hmade.lookup]
  exact if_congr List.suffix_append_self_iff rfl rfl

theorem Made.old {q : List Name} (hmade : Made before path above)
    (hq : above.lookup q ≠ before.lookup q) : before.lookup q = none ∧ q <:+ path := by
  rw [hmade.lookup] at hq
  split_ifs at hq with hle
  · refine ⟨?_, hle⟩
    cases hold : before.lookup q with
    | none => rfl
    | some old =>
      cases old with
      | file content => exact absurd hold (hmade.isOpen q hle content)
      | directory => exact absurd hold.symm hq
  · exact absurd rfl hq

theorem Made.new (hmade : Made tree path above) (hpath : path <:+ relative ++ destination)
    (hdestination : tree.lookup destination = some .directory) {q : List Name}
    (hq : above.lookup q ≠ tree.lookup q) : tree.lookup q = none ∧ destination <:+ q := by
  obtain ⟨hnone, hle⟩ := hmade.old hq
  refine ⟨hnone, ?_⟩
  rcases List.suffix_or_suffix_of_suffix (hle.trans hpath)
    (List.suffix_append relative destination) with habove | hbelow
  · -- Nothing is missing above the destination.
    by_cases heq : q = destination
    · rw [heq]
    · rw [FileTree.lookup_above (hdestination ▸ Option.some_ne_none _) habove heq] at hnone
      cases hnone
  · exact hbelow

theorem Safe.extend (h : Safe destination before st)
    (hnew : ∀ q, tree.lookup q ≠ st.tree.lookup q → st.tree.lookup q = none ∧ destination <:+ q) :
    Safe destination before { st with tree } where
  confined q hq := by
    by_cases hsame : tree.lookup q = st.tree.lookup q
    · exact h.confined q (hsame ▸ hq)
    · obtain ⟨hnone, hbelow⟩ := hnew q hsame
      by_cases hold : st.tree.lookup q = before.lookup q
      · exact ⟨hold ▸ hnone, hbelow⟩
      · exact h.confined q hold
  once := h.once
  kept file hfile := by
    by_contra hne
    have hnone := (hnew file.1 fun heq ↦ hne (heq.trans (h.kept file hfile))).1
    rw [h.kept file hfile] at hnone
    cases hnone

theorem Step.safe {out : Outcome Name} (hstep : Step destination limit st entry out)
    (hbefore : before.lookup destination = some .directory) (h : Safe destination before st) :
    Safe destination before out.1 := by
  have hdestination := h.lookup_destination hbefore
  have htail : (entry.place ++ destination).tail <:+ entry.place ++ destination :=
    List.tail_suffix _
  cases hstep with
  | refused _ => exact h
  | skipped _ _ => exact h
  | directory _ _ hmade =>
    exact h.extend fun q hq ↦ hmade.new (List.suffix_refl _) hdestination hq
  | collided _ hmade => exact h.extend fun q hq ↦ hmade.new htail hdestination hq
  | file _ _ hnew hmade hlookup =>
    have hextend := h.extend fun q hq ↦ show st.tree.lookup q = none ∧ destination <:+ q from by
      rw [hlookup] at hq
      split_ifs at hq with heq
      · rw [← heq]
        exact ⟨hnew, List.suffix_append _ _⟩
      · exact hmade.new htail hdestination hq
    refine ⟨hextend.confined, ?_, ?_⟩
    · rw [List.map_append, List.nodup_append]
      refine ⟨h.once, List.nodup_singleton _, ?_⟩
      rintro a ha b hb rfl
      obtain ⟨file, hfile, rfl⟩ := List.mem_map.mp ha
      have hthere := h.kept file hfile
      rw [List.mem_singleton.mp hb, hnew] at hthere
      cases hthere
    · intro file hfile
      rcases List.mem_append.mp hfile with hfile | hfile
      · exact hextend.kept file hfile
      · rw [List.mem_singleton.mp hfile]
        exact (hlookup _).trans (if_pos rfl)

theorem Safe.run (hbefore : before.lookup destination = some .directory)
    (h : Safe destination before st) (entries : List (Entry Name)) :
    Safe destination before (unpackEntries destination limit entries st).1 := by
  induction entries generalizing st with
  | nil => exact h
  | cons entry entries ih =>
    have hstep := (@unpackEntry_step _ _ _ _ _ destination limit st entry).safe hbefore h
    unfold unpackEntries
    split
    · rename_i next heq
      rw [heq] at hstep
      exact ih hstep
    · rename_i next error heq
      rw [heq] at hstep
      exact hstep

/-! ## What is accepted -/

structure Unpacked (destination : List Name) (limit : UInt64) (done : List (Entry Name))
    (st : Unpacking Name) : Prop where
  acceptable : Acceptable limit done
  entry : ∀ relative, st.tree.lookup (relative ++ destination) ≠ none ↔
    relative = [] ∨ ∃ entry ∈ done, relative <:+ entry.place
  file : ∀ relative content, st.tree.lookup (relative ++ destination) = some (.file content) ↔
    ∃ entry ∈ done, entry.IsFile ∧ entry.place = relative ∧ entry.content = content
  total : st.totalBytes = (done.map Entry.size).sum
  bytes : (st.written.map fun file ↦ file.2.length).sum = st.totalBytes

variable {done : List (Entry Name)}

theorem acceptable_concat :
    Acceptable limit (done ++ [entry]) ↔ Acceptable limit done ∧ entry.Sound ∧
      (∀ other ∈ done, other.Clear entry) ∧
      (done.map Entry.size).sum + entry.size ≤ limit.toNat := by
  constructor
  · rintro ⟨hsound, hclear, hbounded⟩
    rw [List.pairwise_append] at hclear
    rw [List.map_append, List.sum_append, List.map_singleton, List.sum_singleton] at hbounded
    exact ⟨⟨fun other hother ↦ hsound other (List.mem_append_left _ hother), hclear.1, by omega⟩,
      hsound entry (by simp), fun other hother ↦ hclear.2.2 other hother entry (by simp), hbounded⟩
  · rintro ⟨⟨hsound, hclear, -⟩, hentry, hother, hbounded⟩
    refine ⟨?_, ?_, by simpa using hbounded⟩
    · intro other hmem
      rcases List.mem_append.mp hmem with hmem | hmem
      · exact hsound other hmem
      · exact List.mem_singleton.mp hmem ▸ hentry
    · rw [List.pairwise_append]
      refine ⟨hclear, List.pairwise_singleton _ _, fun other hmem last hlast ↦ ?_⟩
      exact List.mem_singleton.mp hlast ▸ hother other hmem

theorem Unpacked.lookup_destination (h : Unpacked destination limit done st) :
    st.tree.lookup destination = some .directory := by
  have hsome := (h.entry []).mpr (.inl rfl)
  have hfile := h.file []
  rw [List.nil_append] at hsome hfile
  cases hlookup : st.tree.lookup destination with
  | none => exact absurd hlookup hsome
  | some found =>
    cases found with
    | directory => rfl
    | file content =>
      obtain ⟨other, -, hother, hplace, -⟩ := (hfile content).mp hlookup
      exact absurd hplace hother.2

theorem Unpacked.open_iff (h : Unpacked destination limit done st) :
    Open st.tree (relative ++ destination) ↔
      ∀ other ∈ done, other.IsFile → ¬ other.place <:+ relative := by
  have hdestination := h.lookup_destination
  constructor
  · intro hopen other hother hfile hle
    exact hopen _ (List.suffix_append_self_iff.mpr hle) _
      ((h.file _ _).mpr ⟨other, hother, hfile, rfl, rfl⟩)
  · intro hclear q hq content hlookup
    rcases List.suffix_or_suffix_of_suffix hq (List.suffix_append relative destination) with
      habove | ⟨inner, rfl⟩
    · by_cases heq : q = destination
      · rw [heq, hdestination] at hlookup
        cases hlookup
      · rw [FileTree.lookup_above (hdestination ▸ Option.some_ne_none _) habove heq] at hlookup
        cases hlookup
    · obtain ⟨other, hother, hfile, rfl, -⟩ := (h.file _ _).mp hlookup
      exact hclear other hother hfile (List.suffix_append_self_iff.mp hq)

theorem Unpacked.lookup_eq_none_iff (h : Unpacked destination limit done st)
    (hfile : entry.IsFile) :
    st.tree.lookup (entry.place ++ destination) = none ↔
      ∀ other ∈ done, ¬ entry.place <:+ other.place := by
  have hentry := h.entry entry.place
  rw [or_iff_right hfile.2] at hentry
  rw [← not_iff_not, ← ne_eq, hentry]
  push Not
  rfl

theorem Unpacked.admits_iff (h : Unpacked destination limit done st) :
    Admits destination limit st entry ↔ Acceptable limit (done ++ [entry]) := by
  rw [acceptable_concat, ← h.total]
  constructor
  · intro hadmits
    refine ⟨h.acceptable, hadmits.sound, fun other hother ↦ ⟨fun hfile hle ↦ ?_, fun hfile hle ↦
      (h.lookup_eq_none_iff hfile).mp (hadmits.new hfile) other hother hle⟩, ?_⟩
    · obtain ⟨name, dir, hplace⟩ := List.exists_cons_of_ne_nil
        (show entry.place ≠ [] from fun hnil ↦ hfile.2 (List.suffix_nil.mp (hnil ▸ hle)))
      have hne : entry.place ≠ [] := hplace ▸ List.cons_ne_nil _ _
      cases hkind : entry.entryType with
      | other => exact hadmits.sound.kind hne hkind
      | directory =>
        exact h.open_iff.mp (hadmits.directory hkind hne) other hother hfile hle
      | regular =>
        have habove := hadmits.above ⟨hkind, hne⟩
        rw [hplace] at habove hle
        rcases List.suffix_cons_iff.mp hle with heq | hle
        · apply (h.lookup_eq_none_iff ⟨hkind, hne⟩).mp (hadmits.new ⟨hkind, hne⟩) other hother
          rw [hplace, heq]
        · exact h.open_iff.mp habove other hother hfile hle
    · unfold Entry.size
      split_ifs with hfile
      · exact hadmits.bounded hfile
      · rw [h.total]
        exact h.acceptable.bounded
  · rintro ⟨-, hsound, hclear, hbounded⟩
    refine ⟨hsound, fun _ _ ↦ ?_, fun hfile ↦ ?_, fun hfile ↦ ?_, fun hfile ↦ ?_⟩
    · exact h.open_iff.mpr fun other hother ↦ (hclear other hother).1
    · rwa [Entry.size, if_pos hfile] at hbounded
    · obtain ⟨name, dir, hplace⟩ := List.exists_cons_of_ne_nil hfile.2
      rw [hplace]
      refine h.open_iff.mpr fun other hother hother' hle ↦
        (hclear other hother).1 hother' ?_
      rw [hplace]
      exact hle.trans (List.suffix_cons name dir)
    · exact (h.lookup_eq_none_iff hfile).mpr fun other hother ↦ (hclear other hother).2 hfile

theorem Unpacked.step {next : Unpacking Name} (h : Unpacked destination limit done st)
    (hstep : Step destination limit st entry (next, none)) :
    Unpacked destination limit (done ++ [entry]) next := by
  cases hstep with
  | skipped hadmits hplace =>
    have hfile : ¬ entry.IsFile := fun hfile ↦ hfile.2 hplace
    refine ⟨h.admits_iff.mp hadmits, fun r ↦ ?_, fun r content ↦ ?_, ?_, h.bytes⟩
    · rw [h.entry]
      simp only [List.mem_append, List.mem_singleton, or_and_right, exists_or, exists_eq_left,
        hplace, List.suffix_nil]
      exact ⟨Or.imp_right .inl, fun h' ↦ h'.elim .inl fun h' ↦ h'.symm⟩
    · rw [h.file]
      simp [or_and_right, exists_or, hfile]
    · rw [h.total, List.map_append, List.sum_append]
      simp [Entry.size, hfile]
  | directory hadmits hfile hmade =>
    have hacceptable := h.admits_iff.mp hadmits
    have hclear := (acceptable_concat.mp hacceptable).2.2.1
    refine ⟨hacceptable, fun r ↦ ?_, fun r content ↦ ?_, ?_, h.bytes⟩
    · rw [hmade.lookup_append]
      simp only [List.mem_append, List.mem_singleton, or_and_right, exists_or, exists_eq_left]
      split_ifs with hle
      · simp [hle]
      · simpa [hle] using h.entry r
    · rw [hmade.lookup_append]
      simp only [List.mem_append, List.mem_singleton, or_and_right, exists_or, exists_eq_left,
        hfile, false_and, or_false]
      split_ifs with hle
      · refine iff_of_false nofun ?_
        rintro ⟨other, hother, hother', rfl, -⟩
        exact (hclear other hother).1 hother' hle
      · exact h.file r content
    · rw [h.total, List.map_append, List.sum_append]
      simp [Entry.size, hfile]
  | @file above tree _ hadmits hfile hnew hmade hlookup =>
    have hacceptable := h.admits_iff.mp (hadmits.mp rfl)
    obtain ⟨-, hsound, hclear, -⟩ := acceptable_concat.mp hacceptable
    obtain ⟨name, dir, hplace⟩ := List.exists_cons_of_ne_nil hfile.2
    rw [hplace, List.cons_append, List.tail_cons] at hmade
    have hcases : ∀ r, r <:+ entry.place ↔ entry.place = r ∨ r <:+ dir := fun r ↦ by
      rw [hplace, List.suffix_cons_iff, eq_comm]
    have hlooks : ∀ r, tree.lookup (r ++ destination) = if entry.place = r then some (.file entry.content)
        else if r <:+ dir then some .directory else st.tree.lookup (r ++ destination) := fun r ↦ by
      rw [← hmade.lookup_append]
      exact (hlookup _).trans (if_congr (List.append_left_inj destination) rfl rfl)
    refine ⟨hacceptable, fun r ↦ ?_, fun r content ↦ ?_, ?_, ?_⟩
    · rw [hlooks]
      simp only [List.mem_append, List.mem_singleton, or_and_right, exists_or, exists_eq_left,
        hcases]
      split_ifs with heq hle
      · simp [heq]
      · simp [hle]
      · simpa [heq, hle] using h.entry r
    · rw [hlooks]
      simp only [List.mem_append, List.mem_singleton, or_and_right, exists_or, exists_eq_left,
        hfile, true_and]
      split_ifs with heq hle
      · constructor
        · rintro ⟨⟩
          exact .inr ⟨heq, rfl⟩
        · rintro (⟨other, hother, hother', hsame, -⟩ | ⟨-, rfl⟩)
          · exact absurd (hsame.trans heq.symm ▸ List.suffix_refl _) ((hclear other hother).1 hother')
          · rfl
      · refine iff_of_false nofun ?_
        rintro (⟨other, hother, hother', rfl, -⟩ | ⟨hsame, -⟩)
        · exact (hclear other hother).1 hother' ((hcases _).mpr (.inr hle))
        · exact heq hsame
      · simpa [heq] using h.file r content
    · rw [h.total, List.map_append, List.sum_append]
      simp [Entry.size, hfile]
    · rw [List.map_append, List.sum_append, h.bytes]
      simp [hsound.length hfile]

theorem acceptable_of_append {entries : List (Entry Name)}
    (h : Acceptable limit (done ++ entries)) : Acceptable limit done := by
  have hbounded := h.bounded
  rw [List.map_append, List.sum_append] at hbounded
  exact ⟨fun other hother ↦ h.sound other (List.mem_append_left _ hother),
    (List.pairwise_append.mp h.clear).1, by omega⟩

theorem Unpacked.run (h : Unpacked destination limit done st) (entries : List (Entry Name)) :
    ((unpackEntries destination limit entries st).2 = none ↔
        Acceptable limit (done ++ entries)) ∧
      ((unpackEntries destination limit entries st).2 = none →
        Unpacked destination limit (done ++ entries)
          (unpackEntries destination limit entries st).1) := by
  induction entries generalizing done st with
  | nil =>
    rw [List.append_nil]
    exact ⟨iff_of_true rfl h.acceptable, fun _ ↦ h⟩
  | cons entry entries ih =>
    have hstep := @unpackEntry_step _ _ _ _ _ destination limit st entry
    unfold unpackEntries
    split
    · rename_i next heq
      rw [heq] at hstep
      rw [List.append_cons]
      exact ih (h.step hstep)
    · rename_i next error heq
      rw [heq] at hstep
      refine ⟨iff_of_false nofun fun hall ↦ ?_, nofun⟩
      rw [List.append_cons] at hall
      have hadmits := h.admits_iff.mpr (acceptable_of_append hall)
      cases hstep with
      | refused hrefused => exact hrefused hadmits
      | collided hrefused _ => exact hrefused hadmits
      | file hiff _ _ _ _ => cases hiff.mpr hadmits

/-! ## The whole call -/

theorem foldlM_pushComponent_error {path components : List (Component Name)}
    {normalized : List Name} {error : UnpackError Name}
    (h : components.foldlM (pushComponent path) normalized = .error error) :
    error = .unsafePath path := by
  induction components generalizing normalized with
  | nil => cases h
  | cons component components ih =>
    rw [List.foldlM_cons] at h
    cases component with
    | normal name => exact ih h
    | curDir => exact ih h
    | _ =>
      cases h
      rfl

theorem safeRelativePath_error {path : List (Component Name)} {error : UnpackError Name}
    (h : safeRelativePath path = .error error) : error = .unsafePath path := by
  unfold safeRelativePath at h
  split_ifs at h
  · cases h
    rfl
  · exact foldlM_pushComponent_error h

theorem unpackEntry_ne_exists (st : Unpacking Name) (entry : Entry Name) (path : List Name) :
    (unpackEntry destination limit st entry).2 ≠ some (.destinationExists path) := by
  intro h
  unfold unpackEntry unpackFile at h
  repeat' split at h
  all_goals cases h
  rename_i herror
  cases safeRelativePath_error herror

theorem unpackEntries_ne_exists (entries : List (Entry Name)) (st : Unpacking Name)
    (path : List Name) :
    (unpackEntries destination limit entries st).2 ≠ some (.destinationExists path) := by
  induction entries generalizing st with
  | nil => exact nofun
  | cons entry entries ih =>
    have hentry := @unpackEntry_ne_exists _ _ _ _ _ destination limit st entry path
    unfold unpackEntries
    split
    · exact ih _
    · rename_i heq
      rwa [heq] at hentry

variable {entries : List (Entry Name)}

theorem unpacked_nil {tree : Tree Name} (hdestination : tree.lookup destination = some .directory)
    (hempty : ∀ relative, relative ≠ [] → tree.lookup (relative ++ destination) = none) :
    Unpacked destination limit [] { tree } where
  acceptable := ⟨nofun, .nil, Nat.zero_le _⟩
  entry relative := by
    by_cases hnil : relative = []
    · simp [hnil, hdestination]
    · simp [hnil, hempty relative hnil]
  file relative content := by
    by_cases hnil : relative = []
    · simp [hnil, hdestination]
    · simp [hempty relative hnil]
  total := rfl
  bytes := rfl

theorem unpack_of_exists {tree : Tree Name} (h : tree.lookup destination ≠ none)
    (limit : UInt64) (entries : List (Entry Name)) :
    unpackPluginBundleTarGz destination limit tree entries =
      ({ tree }, some (.destinationExists destination)) :=
  if_pos h

theorem unpack_of_closed {tree : Tree Name} (hnone : tree.lookup destination = none)
    (h : ¬ Open tree destination) (limit : UInt64) (entries : List (Entry Name)) :
    ∃ error, unpackPluginBundleTarGz destination limit tree entries =
      ({ tree }, some (.io error)) := by
  obtain ⟨after, -, hmade⟩ | ⟨⟨error, herror⟩, -⟩ := @exists_made _ _ _ _ _ tree destination
  · exact absurd hmade.isOpen h
  · refine ⟨error, ?_⟩
    rw [unpackPluginBundleTarGz, if_neg (not_not.mpr hnone), herror]

theorem unpack_of_made {before made : Tree Name} (hnone : before.lookup destination = none)
    (hok : before.createDirAll destination = .ok made) (limit : UInt64)
    (entries : List (Entry Name)) :
    unpackPluginBundleTarGz destination limit before entries =
      unpackEntries destination limit entries { tree := made } := by
  rw [unpackPluginBundleTarGz, if_neg (not_not.mpr hnone), hok]

theorem Made.safe {made : Tree Name} (hmade : Made before destination made) (limit : UInt64)
    (entries : List (Entry Name)) :
    made.lookup destination = some .directory ∧
      Safe destination made (unpackEntries destination limit entries { tree := made }).1 := by
  have hdestination : made.lookup destination = some .directory := by
    rw [hmade.lookup, if_pos (List.suffix_refl _)]
  have hstart : Safe destination made { tree := made } :=
    ⟨fun _ h ↦ absurd rfl h, List.nodup_nil, nofun⟩
  exact ⟨hdestination, hstart.run hdestination entries⟩

/-- Whatever the archive is, nothing outside the destination is touched but the
directories above it, and no file is written twice. -/
theorem unpack_confined (destination : List Name) (limit : UInt64) (before : Tree Name)
    (entries : List (Entry Name)) {after : Outcome Name}
    (hafter : unpackPluginBundleTarGz destination limit before entries = after) :
    (∀ path, after.1.tree.lookup path ≠ before.lookup path →
      before.lookup path = none ∧ (path <:+ destination ∨ destination <:+ path)) ∧
    (after.1.written.map Prod.fst).Nodup ∧
      ∀ file ∈ after.1.written, after.1.tree.lookup file.1 = some (.file file.2) := by
  subst hafter
  by_cases hexists : before.lookup destination = none
  · obtain ⟨made, hok, hmade⟩ | ⟨-, hclosed⟩ := @exists_made _ _ _ _ _ before destination
    · rw [unpack_of_made hexists hok]
      obtain ⟨-, hsafe⟩ := hmade.safe limit entries
      refine ⟨fun path hpath ↦ ?_, hsafe.once, hsafe.kept⟩
      by_cases hsame : made.lookup path = before.lookup path
      · rw [← hsame] at hpath ⊢
        exact ⟨(hsafe.confined path hpath).1, .inr (hsafe.confined path hpath).2⟩
      · exact ⟨(hmade.old hsame).1, .inl (hmade.old hsame).2⟩
    · obtain ⟨error, herror⟩ := unpack_of_closed hexists hclosed limit entries
      rw [herror]
      exact ⟨fun _ h ↦ absurd rfl h, List.nodup_nil, nofun⟩
  · rw [unpack_of_exists hexists]
    exact ⟨fun _ h ↦ absurd rfl h, List.nodup_nil, nofun⟩

theorem retry_fails {error : UnpackError Name}
    (h : (unpackPluginBundleTarGz destination limit before entries).2 = some error)
    (hne : error ≠ .destinationExists destination) (limit' : UInt64)
    (entries' : List (Entry Name)) :
    (unpackPluginBundleTarGz destination limit'
      (unpackPluginBundleTarGz destination limit before entries).1.tree entries').2 ≠ none := by
  by_cases hexists : before.lookup destination = none
  · obtain ⟨made, hok, hmade⟩ | ⟨-, hclosed⟩ := @exists_made _ _ _ _ _ before destination
    · rw [unpack_of_made hexists hok]
      obtain ⟨hdestination, hsafe⟩ := hmade.safe limit entries
      rw [unpack_of_exists (hsafe.lookup_destination hdestination ▸ Option.some_ne_none _)]
      exact Option.some_ne_none _
    · obtain ⟨error, herror⟩ := unpack_of_closed hexists hclosed limit entries
      obtain ⟨error', herror'⟩ := unpack_of_closed hexists hclosed limit' entries'
      rw [herror, herror']
      exact Option.some_ne_none _
  · rw [unpack_of_exists hexists] at h
    exact absurd (Option.some.inj h).symm hne

theorem unpack_ne_exists (hexists : before.lookup destination = none) :
    (unpackPluginBundleTarGz destination limit before entries).2 ≠
      some (.destinationExists destination) := by
  obtain ⟨made, hok, -⟩ | ⟨-, hclosed⟩ := @exists_made _ _ _ _ _ before destination
  · rw [unpack_of_made hexists hok]
    exact unpackEntries_ne_exists entries _ _
  · obtain ⟨error, herror⟩ := unpack_of_closed hexists hclosed limit entries
    rw [herror]
    exact nofun

theorem unpack_new {made : Tree Name} (hexists : before.lookup destination = none)
    (hok : before.createDirAll destination = .ok made) (hmade : Made before destination made) :
    ((unpackPluginBundleTarGz destination limit before entries).2 = none ↔
        Acceptable limit entries) ∧
      ((unpackPluginBundleTarGz destination limit before entries).2 = none →
        Unpacked destination limit entries
          (unpackPluginBundleTarGz destination limit before entries).1) := by
  rw [unpack_of_made hexists hok]
  refine (unpacked_nil (hmade.safe limit entries).1 fun relative hne ↦ ?_).run entries
  rw [hmade.lookup, if_neg]
  · by_contra hsome
    have habove := FileTree.lookup_above hsome (List.suffix_append relative destination)
      fun heq ↦ hne (List.self_eq_append_left.mp heq)
    rw [hexists] at habove
    cases habove
  · intro hle
    have hlength := hle.length_le
    rw [List.length_append] at hlength
    exact absurd (List.length_pos_of_ne_nil hne) (by omega)

/-- A call does what it promises exactly when it finds the destination or unpacks
everything. -/
theorem unpack_meets_iff (destination : List Name) (limit : UInt64) (before : Tree Name)
    (entries : List (Entry Name)) :
    Meets destination limit before entries
        (unpackPluginBundleTarGz destination limit before entries) ↔
      Condition destination limit before entries := by
  obtain ⟨hconfined, honce, hkept⟩ := unpack_confined destination limit before entries rfl
  by_cases hexists : before.lookup destination = none
  swap
  · rw [unpack_of_exists hexists] at hconfined ⊢
    refine iff_of_true ⟨hconfined, Nat.zero_le _, .nil, nofun, nofun, ?_⟩ (.inl hexists)
    rintro _ ⟨⟩ h
    exact absurd rfl h
  unfold Condition
  rw [or_iff_right (not_not.mpr hexists)]
  constructor
  · intro hmeets
    have hnone : (unpackPluginBundleTarGz destination limit before entries).2 = none := by
      by_contra hne
      obtain ⟨error, herror⟩ := Option.ne_none_iff_exists'.mp hne
      have hother : error ≠ .destinationExists destination := by
        rintro rfl
        exact unpack_ne_exists hexists herror
      obtain ⟨entries', limit', hagain⟩ := hmeets.retry error herror hother
      exact retry_fails herror hother limit' entries' hagain
    obtain ⟨made, hok, hmade⟩ | ⟨-, hclosed⟩ := @exists_made _ _ _ _ _ before destination
    · obtain ⟨hiff, hunpacked⟩ := @unpack_new _ _ _ _ _ destination limit _ entries _ hexists hok hmade
      refine ⟨hmade.isOpen, hiff.mp hnone, fun entry hentry hkind hplace ↦ ?_⟩
      have hfile := ((hmeets.exact hnone _ _).mpr ⟨entry, hentry, hkind, rfl, rfl⟩).2
      rw [hplace, List.nil_append, (hunpacked hnone).lookup_destination] at hfile
      cases hfile
    · obtain ⟨error, herror⟩ := unpack_of_closed hexists hclosed limit entries
      rw [herror] at hnone
      cases hnone
  · rintro ⟨hopen, hacceptable, hnamed⟩
    obtain ⟨made, hok, hmade⟩ | ⟨-, hclosed⟩ := @exists_made _ _ _ _ _ before destination
    swap
    · exact absurd hopen hclosed
    obtain ⟨hiff, hunpacked⟩ := @unpack_new _ _ _ _ _ destination limit _ entries _ hexists hok hmade
    have hnone := hiff.mpr hacceptable
    have hdone := hunpacked hnone
    refine ⟨hconfined, ?_, honce, hkept, fun _ path content ↦ ?_, fun _ herror ↦ ?_⟩
    · rw [hdone.bytes, hdone.total]
      exact hacceptable.bounded
    · constructor
      · rintro ⟨⟨relative, rfl⟩, hlookup⟩
        obtain ⟨entry, hentry, hfile, rfl, rfl⟩ := (hdone.file _ _).mp hlookup
        exact ⟨entry, hentry, hfile.1, rfl, rfl⟩
      · rintro ⟨entry, hentry, hkind, rfl, rfl⟩
        exact ⟨List.suffix_append _ _, (hdone.file _ _).mpr
          ⟨entry, hentry, ⟨hkind, hnamed entry hentry hkind⟩, rfl, rfl⟩⟩
    · rw [hnone] at herror
      cases herror

theorem unpack_meets_sample :
    Meets ["plugin"] 1024 FileTree.empty [⟨[.normal "a.json"], .regular, 1, [0]⟩]
        (unpackPluginBundleTarGz ["plugin"] 1024 FileTree.empty
          [⟨[.normal "a.json"], .regular, 1, [0]⟩]) ↔
      Condition ["plugin"] 1024 FileTree.empty [⟨[.normal "a.json"], .regular, 1, [0]⟩] :=
  unpack_meets_iff ["plugin"] 1024 FileTree.empty [⟨[.normal "a.json"], .regular, 1, [0]⟩]

/-- A link in the archive ends the unpacking, and the directory made for it stays. -/
theorem refused_archive_blocks_retry :
    ¬ Meets ["plugin"] 1024 FileTree.empty [⟨[.normal "link"], .other, 0, []⟩]
      (unpackPluginBundleTarGz ["plugin"] 1024 FileTree.empty
        [⟨[.normal "link"], .other, 0, []⟩]) := by
  intro hmeets
  obtain ⟨entries', limit', hagain⟩ :=
    hmeets.retry (.unsupportedEntry [.normal "link"]) (by decide +kernel) nofun
  rw [unpack_of_exists (by decide +kernel)] at hagain
  cases hagain

end Fabushi.Plugins
