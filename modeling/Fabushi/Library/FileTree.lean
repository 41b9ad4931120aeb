import Fabushi.Library.OrderedMap

/-!
# Trees of files and directories

A path lists its names from the innermost to the outermost, so `dir` is the parent of
`name :: dir` and a path lies at or below each of its suffixes. Whatever a tree holds below its
root has a directory as its parent. The operations are those of a file system without links;
each of them either gives a new tree or names the reason why the tree stays as it is.
-/

open Std

/-- What a path can lead to. -/
inductive FileEntry (Content : Type) where
  | file (content : Content)
  | directory
  deriving DecidableEq

instance decidableEqDirectory {Content : Type} :
    (entry : Option (FileEntry Content)) → Decidable (entry = some .directory)
  | none => .isFalse nofun
  | some (.file _) => .isFalse nofun
  | some .directory => .isTrue rfl

/-- Why a file system refuses an operation. -/
inductive FileError where
  | notFound
  | alreadyExists
  | notADirectory
  | isADirectory
  | directoryNotEmpty
  deriving DecidableEq

structure FileTree (Name Content : Type) [Ord Name] [TransOrd Name] where
  entries : BTreeMap (List Name) (FileEntry Content)
  root : entries[([] : List Name)]? = some .directory
  parent (name : Name) (dir : List Name) :
    entries[name :: dir]? ≠ none → entries[dir]? = some .directory

namespace FileTree

variable {Name Content : Type} [Ord Name] [TransOrd Name] [LawfulEqOrd Name] [DecidableEq Name]

def lookup (t : FileTree Name Content) (path : List Name) : Option (FileEntry Content) :=
  t.entries[path]?

omit [LawfulEqOrd Name] [DecidableEq Name] in
@[simp] theorem lookup_nil (t : FileTree Name Content) : t.lookup [] = some .directory :=
  t.root

omit [DecidableEq Name] in
theorem ext_lookup {t u : FileTree Name Content} (h : ∀ path, t.lookup path = u.lookup path) :
    t = u := by
  have hentries : t.entries = u.entries := ExtTreeMap.ext_getElem? fun path ↦ h path
  cases t
  cases u
  cases hentries
  rfl

omit [LawfulEqOrd Name] [DecidableEq Name] in
theorem lookup_parent {t : FileTree Name Content} {name : Name} {dir : List Name}
    (h : t.lookup (name :: dir) ≠ none) : t.lookup dir = some .directory :=
  t.parent name dir h

omit [LawfulEqOrd Name] [DecidableEq Name] in
theorem lookup_above {t : FileTree Name Content} {p q : List Name} (hp : t.lookup p ≠ none)
    (hq : q <:+ p) (hne : q ≠ p) : t.lookup q = some .directory := by
  induction p with
  | nil => exact absurd (List.suffix_nil.mp hq) hne
  | cons name dir ih =>
      have hdir : t.lookup dir = some .directory := lookup_parent hp
      have hsuffix : q <:+ dir := (List.suffix_cons_iff.mp hq).resolve_left hne
      by_cases heq : q = dir
      · rw [heq]
        exact hdir
      · apply ih _ hsuffix heq
        rw [hdir]
        exact Option.some_ne_none _

def empty : FileTree Name Content where
  entries := (∅ : BTreeMap (List Name) (FileEntry Content)).insert [] .directory
  root := BTreeMap.get_insert_self _ _ _
  parent name dir h := by
    rw [BTreeMap.get_insert_ne _ _ (List.cons_ne_nil name dir).symm] at h
    exact absurd ExtTreeMap.getElem?_empty h

/-! ## Reading a directory -/

def readDir (t : FileTree Name Content) (dir : List Name) : List (Name × FileEntry Content) :=
  t.entries.toList.filterMap fun (path, entry) ↦
    match path with
    | [] => none
    | name :: parent => if parent = dir then some (name, entry) else none

theorem mem_readDir {t : FileTree Name Content} {dir : List Name} {name : Name}
    {entry : FileEntry Content} :
    (name, entry) ∈ t.readDir dir ↔ t.lookup (name :: dir) = some entry := by
  simp only [readDir, List.mem_filterMap, lookup]
  constructor
  · rintro ⟨⟨path, found⟩, hmem, hsome⟩
    cases path with
    | nil => cases hsome
    | cons inner parent =>
        have hget := ExtTreeMap.mem_toList_iff_getElem?_eq_some.mp hmem
        simp only [Option.ite_none_right_eq_some, Option.some.injEq, Prod.mk.injEq] at hsome
        obtain ⟨rfl, rfl, rfl⟩ := hsome
        exact hget
  · intro hget
    exact ⟨(name :: dir, entry), ExtTreeMap.mem_toList_iff_getElem?_eq_some.mpr hget, by simp⟩

theorem nodup_names (t : FileTree Name Content) (dir : List Name) :
    ((t.readDir dir).map Prod.fst).Nodup := by
  apply List.Nodup.map_on
  · rintro ⟨name, entry⟩ hmem ⟨name', entry'⟩ hmem' heq
    dsimp only at heq
    subst heq
    have hentry := (mem_readDir.mp hmem).symm.trans (mem_readDir.mp hmem')
    cases hentry
    rfl
  · apply List.Nodup.filterMap _ (BTreeMap.nodup_toList t.entries)
    rintro ⟨p, e⟩ ⟨q, f⟩ ⟨name, entry⟩ hp hq
    cases p with
    | nil => simp at hp
    | cons m p =>
        cases q with
        | nil => simp at hq
        | cons n q =>
            simp only [Option.mem_def, Option.ite_none_right_eq_some, Option.some.injEq,
              Prod.mk.injEq] at hp hq
            obtain ⟨rfl, rfl, rfl⟩ := hp
            obtain ⟨rfl, rfl, rfl⟩ := hq
            rfl

def depth (t : FileTree Name Content) : ℕ :=
  (t.entries.toList.map fun entry ↦ entry.1.length).foldr max 0

omit [DecidableEq Name] in
theorem length_le_depth {t : FileTree Name Content} {path : List Name}
    (h : t.lookup path ≠ none) : path.length ≤ t.depth := by
  obtain ⟨entry, hget⟩ := Option.ne_none_iff_exists'.mp h
  have hmem := ExtTreeMap.mem_toList_iff_getElem?_eq_some.mpr hget
  unfold depth
  generalize t.entries.toList = entries at hmem
  induction entries with
  | nil => cases hmem
  | cons first entries ih =>
      rw [List.map_cons, List.foldr_cons]
      rcases List.mem_cons.mp hmem with rfl | hmem
      · exact Nat.le_max_left _ _
      · exact (ih hmem).trans (Nat.le_max_right _ _)

/-! ## Changing one path -/

def put (t : FileTree Name Content) (name : Name) (dir : List Name) (entry : FileEntry Content)
    (hdir : t.lookup dir = some .directory) (hold : t.lookup (name :: dir) ≠ some .directory) :
    FileTree Name Content where
  entries := t.entries.insert (name :: dir) entry
  root := by
    rw [BTreeMap.get_insert_ne _ _ (List.cons_ne_nil name dir)]
    exact t.root
  parent inner path h := by
    rw [BTreeMap.get_insert] at h ⊢
    split_ifs at h with hpath
    · obtain ⟨rfl, rfl⟩ := List.cons.inj hpath
      rw [if_neg (List.cons_ne_self name dir)]
      exact hdir
    · have hparent := t.parent inner path h
      rw [if_neg]
      · exact hparent
      · rintro rfl
        exact hold hparent

def drop (t : FileTree Name Content) (path : List Name) (hroot : path ≠ [])
    (hleaf : ∀ name, t.lookup (name :: path) = none) : FileTree Name Content where
  entries := t.entries.erase path
  root := by
    rw [BTreeMap.get_erase, if_neg hroot]
    exact t.root
  parent inner dir h := by
    rw [BTreeMap.get_erase] at h ⊢
    split_ifs at h with hpath
    · exact absurd rfl h
    · have hparent := t.parent inner dir h
      rw [if_neg]
      · exact hparent
      · rintro rfl
        exact h (hleaf inner)

theorem lookup_put {t : FileTree Name Content} {name : Name} {dir : List Name}
    {entry : FileEntry Content} (hdir : t.lookup dir = some .directory)
    (hold : t.lookup (name :: dir) ≠ some .directory) (q : List Name) :
    (t.put name dir entry hdir hold).lookup q =
      if name :: dir = q then some entry else t.lookup q :=
  BTreeMap.get_insert _ _ _ _

theorem lookup_drop {t : FileTree Name Content} {path : List Name} (hroot : path ≠ [])
    (hleaf : ∀ name, t.lookup (name :: path) = none) (q : List Name) :
    (t.drop path hroot hleaf).lookup q = if path = q then none else t.lookup q :=
  BTreeMap.get_erase _ _ _

/-! ## The operations -/

def createDir (t : FileTree Name Content) (name : Name) (dir : List Name) :
    Except FileError (FileTree Name Content) :=
  if hdir : t.lookup dir = some .directory then
    if hold : t.lookup (name :: dir) = none then
      .ok (t.put name dir .directory hdir (by rw [hold]; exact nofun))
    else .error .alreadyExists
  else if t.lookup dir = none then .error .notFound
  else .error .notADirectory

def createDirAll (t : FileTree Name Content) :
    List Name → Except FileError (FileTree Name Content)
  | [] => .ok t
  | name :: dir => do
      let above ← t.createDirAll dir
      match above.lookup (name :: dir) with
      | some .directory => .ok above
      | some (.file _) => .error .notADirectory
      | none => above.createDir name dir

def writeFile (t : FileTree Name Content) (path : List Name) (content : Content) :
    Except FileError (FileTree Name Content) :=
  match path with
  | [] => .error .isADirectory
  | name :: dir =>
      if hdir : t.lookup dir = some .directory then
        if hold : t.lookup (name :: dir) = some .directory then .error .isADirectory
        else .ok (t.put name dir (.file content) hdir hold)
      else if t.lookup dir = none then .error .notFound
      else .error .notADirectory

omit [LawfulEqOrd Name] [DecidableEq Name] in
theorem leaf_of_file {t : FileTree Name Content} {path : List Name} {content : Content}
    (h : t.lookup path = some (.file content)) (name : Name) : t.lookup (name :: path) = none := by
  by_contra hchild
  rw [lookup_parent hchild] at h
  cases h

def removeFile (t : FileTree Name Content) (path : List Name) :
    Except FileError (FileTree Name Content) :=
  match h : t.lookup path with
  | none => .error .notFound
  | some .directory => .error .isADirectory
  | some (.file _) =>
      .ok (t.drop path (by rintro rfl; simp at h) (leaf_of_file h))

theorem leaf_of_readDir {t : FileTree Name Content} {path : List Name}
    (h : t.readDir path = []) (name : Name) : t.lookup (name :: path) = none := by
  by_contra hchild
  obtain ⟨entry, hentry⟩ := Option.ne_none_iff_exists'.mp hchild
  have hmem := mem_readDir.mpr hentry
  rw [h] at hmem
  cases hmem

def removeDir (t : FileTree Name Content) (name : Name) (dir : List Name) :
    Except FileError (FileTree Name Content) :=
  match t.lookup (name :: dir) with
  | none => .error .notFound
  | some (.file _) => .error .notADirectory
  | some .directory =>
      if h : t.readDir (name :: dir) = [] then
        .ok (t.drop (name :: dir) (List.cons_ne_nil name dir) (leaf_of_readDir h))
      else .error .directoryNotEmpty

/-! ## What the operations do -/

theorem createDir_ok {t : FileTree Name Content} {name : Name} {dir : List Name}
    (hdir : t.lookup dir = some .directory) (hold : t.lookup (name :: dir) = none) :
    ∃ u, t.createDir name dir = .ok u ∧
      ∀ q, u.lookup q = if name :: dir = q then some .directory else t.lookup q := by
  refine ⟨t.put name dir .directory hdir (by rw [hold]; exact nofun), ?_,
    fun q ↦ lookup_put _ _ q⟩
  rw [createDir, dif_pos hdir, dif_pos hold]

theorem createDirAll_cons {t above : FileTree Name Content} {name : Name} {dir : List Name}
    (h : t.createDirAll dir = .ok above) :
    t.createDirAll (name :: dir) =
      match above.lookup (name :: dir) with
      | some .directory => .ok above
      | some (.file _) => .error .notADirectory
      | none => above.createDir name dir := by
  rw [createDirAll, h]
  rfl

theorem createDirAll_ok {t : FileTree Name Content} {dir : List Name}
    (h : ∀ q, q <:+ dir → ∀ content, t.lookup q ≠ some (.file content)) :
    ∃ u, t.createDirAll dir = .ok u ∧
      ∀ q, u.lookup q = if q <:+ dir then some .directory else t.lookup q := by
  induction dir with
  | nil =>
      refine ⟨t, rfl, fun q ↦ ?_⟩
      split_ifs with hq
      · rw [List.suffix_nil.mp hq]
        exact t.root
      · rfl
  | cons name dir ih =>
      obtain ⟨above, hok, habove⟩ := ih fun q hq ↦ h q (hq.trans (List.suffix_cons name dir))
      have hself : above.lookup (name :: dir) = t.lookup (name :: dir) := by
        rw [habove, if_neg]
        intro hle
        exact absurd hle.length_le (by simp)
      have hdir : above.lookup dir = some .directory := by
        rw [habove, if_pos (List.suffix_refl dir)]
      -- Only the innermost name is left to be looked at.
      have hsplit : ∀ u : FileTree Name Content,
          (∀ q, u.lookup q = if name :: dir = q then some .directory else above.lookup q) →
          ∀ q, u.lookup q = if q <:+ name :: dir then some .directory else t.lookup q := by
        intro u hu q
        rw [hu, habove]
        by_cases heq : name :: dir = q
        · rw [if_pos heq, if_pos (heq ▸ List.suffix_refl _)]
        · rw [if_neg heq]
          have hiff : q <:+ name :: dir ↔ q <:+ dir := by
            rw [List.suffix_cons_iff]
            exact or_iff_right fun h ↦ heq h.symm
          simp only [hiff]
      cases hold : t.lookup (name :: dir) with
      | none =>
          obtain ⟨u, hcreate, hu⟩ := createDir_ok hdir (hself.trans hold)
          refine ⟨u, ?_, hsplit u hu⟩
          rw [createDirAll_cons hok, hself, hold]
          exact hcreate
      | some entry =>
          cases entry with
          | file content => exact absurd hold (h _ (List.suffix_refl _) content)
          | directory =>
              refine ⟨above, ?_, hsplit above fun q ↦ ?_⟩
              · rw [createDirAll_cons hok, hself, hold]
              · split_ifs with heq
                · rw [← heq, hself, hold]
                · rfl

theorem createDirAll_error {t : FileTree Name Content} {dir q : List Name} {content : Content}
    (hq : q <:+ dir) (h : t.lookup q = some (.file content)) :
    ∃ error, t.createDirAll dir = .error error := by
  induction dir with
  | nil =>
      rw [List.suffix_nil.mp hq, lookup_nil] at h
      cases h
  | cons name dir ih =>
      rcases List.suffix_cons_iff.mp hq with rfl | hq
      · -- What is above a file is there already.
        have habove : ∀ p, p <:+ dir → t.lookup p = some .directory := fun p hp ↦
          lookup_above (h ▸ Option.some_ne_none _) (hp.trans (List.suffix_cons name dir))
            fun heq ↦ absurd (heq ▸ hp.length_le) (by simp)
        obtain ⟨above, hok, hlookup⟩ := createDirAll_ok fun p hp content ↦
          show t.lookup p ≠ some (.file content) from by
            rw [habove p hp]
            exact nofun
        refine ⟨.notADirectory, ?_⟩
        rw [createDirAll_cons hok, hlookup, if_neg fun hle ↦ absurd hle.length_le (by simp), h]
      · obtain ⟨error, herror⟩ := ih hq
        refine ⟨error, ?_⟩
        rw [createDirAll, herror]
        rfl

theorem writeFile_ok {t : FileTree Name Content} {name : Name} {dir : List Name}
    (content : Content) (hdir : t.lookup dir = some .directory)
    (hold : t.lookup (name :: dir) ≠ some .directory) :
    ∃ u, t.writeFile (name :: dir) content = .ok u ∧
      ∀ q, u.lookup q = if name :: dir = q then some (.file content) else t.lookup q := by
  refine ⟨t.put name dir (.file content) hdir hold, ?_, fun q ↦ lookup_put _ _ q⟩
  rw [writeFile, dif_pos hdir, dif_neg hold]

theorem writeFile_directory {t : FileTree Name Content} {path : List Name} (content : Content)
    (h : t.lookup path = some .directory) : t.writeFile path content = .error .isADirectory := by
  cases path with
  | nil => rfl
  | cons name dir =>
      have hdir : t.lookup dir = some .directory :=
        lookup_parent (by rw [h]; exact Option.some_ne_none _)
      rw [writeFile, dif_pos hdir, dif_pos h]

theorem removeFile_ok {t : FileTree Name Content} {path : List Name} {content : Content}
    (h : t.lookup path = some (.file content)) :
    ∃ u, t.removeFile path = .ok u ∧
      ∀ q, u.lookup q = if path = q then none else t.lookup q := by
  have hroot : path ≠ [] := by
    rintro rfl
    simp at h
  refine ⟨t.drop path hroot (leaf_of_file h), ?_, fun q ↦ lookup_drop _ _ q⟩
  unfold removeFile
  split
  · rename_i hnone
    rw [h] at hnone
    cases hnone
  · rename_i hdir
    rw [h] at hdir
    cases hdir
  · rfl

theorem removeDir_ok {t : FileTree Name Content} {name : Name} {dir : List Name}
    (h : t.lookup (name :: dir) = some .directory)
    (hleaf : ∀ inner, t.lookup (inner :: name :: dir) = none) :
    ∃ u, t.removeDir name dir = .ok u ∧
      ∀ q, u.lookup q = if name :: dir = q then none else t.lookup q := by
  have hempty : t.readDir (name :: dir) = [] := by
    rw [List.eq_nil_iff_forall_not_mem]
    rintro ⟨inner, entry⟩ hmem
    rw [mem_readDir, hleaf inner] at hmem
    cases hmem
  refine ⟨t.drop (name :: dir) (List.cons_ne_nil name dir) (leaf_of_readDir hempty), ?_,
    fun q ↦ lookup_drop _ _ q⟩
  simp only [removeDir, h, hempty, dite_true]

end FileTree
