import Fabushi.WorkspaceEngine.Paths

/-!
# The managed files

A file is managed when no directory above it is excluded. The walk finds the managed files,
each of them once, a checkpoint holds a copy of each of them, and its validation succeeds
exactly when the text of every one of them leads to a copy with the same content.
-/

namespace Fabushi.WorkspaceEngine

open Std Result

variable {Name : Type} [Ord Name] [TransOrd Name] [LawfulEqOrd Name] [DecidableEq Name]
  [OsString Name]

section

variable (options : WorkspaceOptions) (workspace : Workspace Name)

def Managed (path : List Name) : Prop :=
  ∀ name ∈ path.tail, isExcluded options name = false

def ManagedFile (path : List Name) (content : List UInt8) : Prop :=
  workspace.lookup path = some (.file content) ∧ Managed options path

def ExcludedPath (path : List Name) : Prop :=
  ∃ (name : Name) (dir : List Name), isExcluded options name = true ∧
    workspace.lookup (name :: dir) = some .directory ∧ name :: dir <:+ path

end

variable {options : WorkspaceOptions} {workspace : Workspace Name}

omit [LawfulEqOrd Name] [DecidableEq Name] in
theorem ManagedFile.ne_nil {path : List Name} {content : List UInt8}
    (h : ManagedFile options workspace path content) : path ≠ [] := by
  rintro rfl
  have hroot := h.1
  rw [FileTree.lookup_nil] at hroot
  cases hroot

omit [LawfulEqOrd Name] [DecidableEq Name] in
theorem ManagedFile.unique {path : List Name} {content other : List UInt8}
    (h : ManagedFile options workspace path content)
    (h' : ManagedFile options workspace path other) : content = other := by
  have heq := h.1.symm.trans h'.1
  cases heq
  rfl

omit [Ord Name] [TransOrd Name] [LawfulEqOrd Name] [DecidableEq Name] in
theorem Managed.above {path dir : List Name} (h : Managed options path) (hdir : dir <:+ path) :
    Managed options dir := by
  intro name hname
  apply h
  obtain ⟨inner, rfl⟩ := hdir
  cases inner with
  | nil => exact hname
  | cons first inner =>
      exact List.mem_append_right inner (List.mem_of_mem_tail hname)

/-! ## The walk -/

theorem of_mem_walkDirectory {depth : ℕ} {dir path : List Name} {content : List UInt8}
    (h : (path, content) ∈ walkDirectory options workspace depth dir) :
    workspace.lookup path = some (.file content) ∧
      ∃ below, below ≠ [] ∧ path = below ++ dir ∧
        ∀ name ∈ below.tail, isExcluded options name = false := by
  induction depth generalizing dir with
  | zero => cases h
  | succ depth ih =>
      rw [walkDirectory, List.mem_flatMap] at h
      obtain ⟨⟨name, entry⟩, hmem, h⟩ := h
      rw [FileTree.mem_readDir] at hmem
      cases entry with
      | file found =>
          obtain ⟨rfl, rfl⟩ := Prod.mk.inj (List.mem_singleton.mp h)
          exact ⟨hmem, [name], List.cons_ne_nil _ _, rfl, nofun⟩
      | directory =>
          cases hexcluded : isExcluded options name with
          | true =>
              simp only [hexcluded, if_true] at h
              cases h
          | false =>
              simp only [hexcluded] at h
              obtain ⟨hfile, below, hne, rfl, htail⟩ := ih h
              refine ⟨hfile, below ++ [name], by simp, by simp, fun other hother ↦ ?_⟩
              rw [List.tail_append_of_ne_nil hne, List.mem_append, List.mem_singleton] at hother
              rcases hother with hother | rfl
              · exact htail other hother
              · exact hexcluded

theorem mem_walkDirectory {depth : ℕ} {dir below : List Name} {content : List UInt8}
    (hdepth : ∀ path, workspace.lookup path ≠ none → path.length < dir.length + depth)
    (hfile : workspace.lookup (below ++ dir) = some (.file content)) (hbelow : below ≠ [])
    (htail : ∀ name ∈ below.tail, isExcluded options name = false) :
    (below ++ dir, content) ∈ walkDirectory options workspace depth dir := by
  have hsome : workspace.lookup (below ++ dir) ≠ none := by
    rw [hfile]
    exact Option.some_ne_none _
  induction depth generalizing dir below with
  | zero =>
      have hlength := hdepth _ hsome
      rw [List.length_append] at hlength
      omega
  | succ depth ih =>
      rw [walkDirectory, List.mem_flatMap]
      obtain rfl | ⟨inner, name, rfl⟩ := List.eq_nil_or_concat' below
      · exact absurd rfl hbelow
      · rw [List.append_assoc, List.singleton_append] at hfile hsome ⊢
        by_cases hinner : inner = []
        · subst hinner
          exact ⟨(name, .file content), FileTree.mem_readDir.mpr hfile, List.mem_singleton_self _⟩
        · -- The file lies below the child `name`, which the walk enters.
          have hchild : workspace.lookup (name :: dir) = some .directory :=
            FileTree.lookup_above hsome (List.suffix_append _ _)
              fun h ↦ hinner (List.self_eq_append_left.mp h)
          rw [List.tail_append_of_ne_nil hinner] at htail
          have hexcluded : isExcluded options name = false :=
            htail name (List.mem_append_right _ (List.mem_singleton_self name))
          refine ⟨(name, .directory), FileTree.mem_readDir.mpr hchild, ?_⟩
          simp only [hexcluded]
          apply ih _ hfile hinner (fun n hn ↦ htail n (List.mem_append_left _ hn)) hsome
          intro path hpath
          rw [List.length_cons]
          have hlength := hdepth path hpath
          omega

theorem suffix_of_mem_child {depth : ℕ} {dir : List Name} {name : Name}
    {entry : FileEntry (List UInt8)} {file : SourceFile Name}
    (hfile : file ∈ match entry with
      | .directory =>
          if isExcluded options name then []
          else walkDirectory options workspace depth (name :: dir)
      | .file content => [(name :: dir, content)]) : name :: dir <:+ file.1 := by
  cases entry with
  | file content =>
      rw [List.mem_singleton.mp hfile]
  | directory =>
      dsimp only at hfile
      split_ifs at hfile
      · cases hfile
      · obtain ⟨-, below, -, hpath, -⟩ := of_mem_walkDirectory hfile
        rw [hpath]
        exact List.suffix_append _ _

theorem nodup_walkDirectory (depth : ℕ) (dir : List Name) :
    (walkDirectory options workspace depth dir).Nodup := by
  induction depth generalizing dir with
  | zero => exact List.nodup_nil
  | succ depth ih =>
      rw [walkDirectory, List.nodup_flatMap]
      constructor
      · rintro ⟨name, entry⟩ -
        cases entry with
        | file content => exact List.nodup_singleton _
        | directory =>
            dsimp only
            split_ifs
            · exact List.nodup_nil
            · exact ih _
      · refine (List.Nodup.of_map _ (FileTree.nodup_names workspace dir)).imp_of_mem ?_
        rintro ⟨name, entry⟩ ⟨name', entry'⟩ hmem hmem' hne file hfile hfile'
        apply hne
        have heq : name :: dir = name' :: dir :=
          (List.suffix_of_suffix_length_le (suffix_of_mem_child hfile)
            (suffix_of_mem_child hfile') (by simp)).eq_of_length (by simp)
        obtain ⟨rfl, -⟩ := List.cons.inj heq
        have hentry := (FileTree.mem_readDir.mp hmem).symm.trans (FileTree.mem_readDir.mp hmem')
        cases hentry
        rfl

theorem mem_collectFiles {path : List Name} {content : List UInt8} :
    (path, content) ∈ collectFiles options workspace ↔
      ManagedFile options workspace path content := by
  rw [collectFiles, List.mem_insertionSort]
  constructor
  · intro h
    obtain ⟨hfile, below, -, rfl, htail⟩ := of_mem_walkDirectory h
    rw [List.append_nil] at hfile ⊢
    exact ⟨hfile, htail⟩
  · intro h
    rw [← List.append_nil path]
    apply mem_walkDirectory
    · intro other hother
      rw [List.length_nil, Nat.zero_add]
      exact Nat.lt_succ_of_le (FileTree.length_le_depth hother)
    · rw [List.append_nil]
      exact h.1
    · exact h.ne_nil
    · exact h.2

theorem nodup_collectFiles : ((collectFiles options workspace).map Prod.fst).Nodup := by
  refine List.Nodup.map_on ?_
    ((List.perm_insertionSort _ _).nodup_iff.mpr (nodup_walkDirectory _ _))
  rintro ⟨path, content⟩ hfile ⟨path', content'⟩ hfile' heq
  dsimp only at heq
  subst heq
  rw [(mem_collectFiles.mp hfile).unique (mem_collectFiles.mp hfile')]

/-! ## What a checkpoint holds -/

section

variable (options workspace)

def snapshotOrder : List (SourceFile Name) :=
  (collectFiles options workspace).insertionSort fun left right ↦
    pathString left.1 ≤ pathString right.1

omit [LawfulEqOrd Name] in
theorem files_createCheckpoint (id : String) (label : Option String) (now : ℤ) :
    (createCheckpoint options workspace id label now).manifest.files =
      (snapshotOrder options workspace).map fileSnapshot :=
  (List.map_insertionSort _ (fun left right : FileSnapshot ↦ left.path ≤ right.path)
    fileSnapshot _ fun _ _ _ _ ↦ Iff.rfl).symm

theorem mem_snapshotOrder {path : List Name} {content : List UInt8} :
    (path, content) ∈ snapshotOrder options workspace ↔
      ManagedFile options workspace path content := by
  rw [snapshotOrder, List.mem_insertionSort, mem_collectFiles]

theorem nodup_snapshotOrder : ((snapshotOrder options workspace).map Prod.fst).Nodup :=
  ((List.perm_insertionSort _ _).map _).nodup_iff.mpr nodup_collectFiles

theorem copy_createCheckpoint (id : String) (label : Option String) (now : ℤ)
    {path : List Name} {content : List UInt8} :
    (createCheckpoint options workspace id label now).files[path]? = some content ↔
      ManagedFile options workspace path content := by
  have hkeys : ((collectFiles options workspace).map Prod.fst).Nodup := nodup_collectFiles
  have hfind := BTreeMap.get_foldl_insert hkeys (∅ : BTreeMap (List Name) (List UInt8)) path
  rw [ExtTreeMap.getElem?_empty, Option.or_none] at hfind
  rw [← mem_collectFiles]
  refine Eq.congr_left hfind |>.trans ?_
  constructor
  · intro h
    obtain ⟨⟨path', content'⟩, hentry, rfl⟩ := Option.map_eq_some_iff.mp h
    have hpath : path' = path := by simpa using List.find?_some hentry
    rw [← hpath]
    exact List.mem_of_find?_eq_some hentry
  · intro h
    rw [BTreeMap.find_entry hkeys h]
    rfl

end

/-! ## Validation -/

structure Validated (options : WorkspaceOptions) (workspace : Workspace Name)
    (file copy : SourceFile Name) : Prop where
  path : safeRelative (pathString file.1) = .ok copy.1
  content : copy.2 = file.2
  managed : ManagedFile options workspace copy.1 copy.2

def CollisionFree (options : WorkspaceOptions) (workspace : Workspace Name) : Prop :=
  Set.InjOn Sha256.digest {content | ∃ path, ManagedFile options workspace path content}

/-- Two managed files have one text, or the text of one does not lead to its content. -/
def Refused (options : WorkspaceOptions) (workspace : Workspace Name) : Prop :=
  (∃ p q c d, ManagedFile options workspace p c ∧ ManagedFile options workspace q d ∧ p ≠ q ∧
    pathString p = pathString q) ∨
  ∃ p c, ManagedFile options workspace p c ∧
    ∀ r, safeRelative (pathString p) = .ok r → ¬ManagedFile options workspace r c

theorem length_dedup_eq_iff {α : Type} [DecidableEq α] {xs : List α} :
    xs.dedup.length = xs.length ↔ xs.Nodup := by
  rw [← List.dedup_eq_self]
  exact ⟨(List.dedup_sublist xs).eq_of_length, fun h ↦ by rw [h]⟩

theorem validateSnapshot_eq_ok_iff (hdigest : CollisionFree options workspace) (id : String)
    (label : Option String) (now : ℤ) {file copy : SourceFile Name}
    (hfile : ManagedFile options workspace file.1 file.2) :
    validateSnapshot (createCheckpoint options workspace id label now) (fileSnapshot file) =
      .ok copy ↔ Validated options workspace file copy := by
  obtain ⟨copyPath, copyContent⟩ := copy
  unfold validateSnapshot
  simp only [bind_eq_ok, okOr_eq_ok, ensure_eq_ok]
  simp only [copy_createCheckpoint, fileSnapshot]
  constructor
  · rintro ⟨relative, hpath, content, hmanaged, _, ⟨-, hsha⟩, hpure⟩
    obtain ⟨rfl, rfl⟩ := Prod.mk.inj (Except.ok.inj hpure)
    have hcontent : content = file.2 :=
      hdigest ⟨relative, hmanaged⟩ ⟨file.1, hfile⟩ (Bytes.encodeHex_injective hsha)
    exact ⟨hpath, hcontent, hmanaged⟩
  · rintro ⟨hpath, hcontent, hmanaged⟩
    refine ⟨copyPath, hpath, copyContent, hmanaged, ⟨⟩, ?_, rfl⟩
    dsimp only at hcontent
    rw [hcontent]
    exact ⟨rfl, rfl⟩

theorem validateCheckpoint_eq_ok_iff (hdigest : CollisionFree options workspace) (id : String)
    (label : Option String) (now : ℤ) {copies : List (SourceFile Name)} :
    validateCheckpoint (createCheckpoint options workspace id label now) = .ok copies ↔
      ((snapshotOrder options workspace).map fun file ↦ pathString file.1).Nodup ∧
        List.Forall₂ (Validated options workspace) (snapshotOrder options workspace) copies := by
  unfold validateCheckpoint
  simp only [bind_eq_ok, ensure_eq_ok, mapM_eq_ok_iff, exists_const]
  rw [← List.length_map (f := FileSnapshot.path), length_dedup_eq_iff, files_createCheckpoint,
    List.map_map, List.forall₂_map_left_iff]
  refine and_congr Iff.rfl (forall₂_congr_mem ?_)
  rintro ⟨path, content⟩ hfile copy -
  exact validateSnapshot_eq_ok_iff hdigest id label now
    ((mem_snapshotOrder options workspace).mp hfile)

theorem exists_forall₂ {α β : Type} {R : α → β → Prop} {xs : List α}
    (h : ∀ x ∈ xs, ∃ y, R x y) : ∃ ys, List.Forall₂ R xs ys := by
  induction xs with
  | nil => exact ⟨[], .nil⟩
  | cons x xs ih =>
      obtain ⟨y, hy⟩ := h x List.mem_cons_self
      obtain ⟨ys, hys⟩ := ih fun x' hx' ↦ h x' (List.mem_cons_of_mem x hx')
      exact ⟨y :: ys, .cons hy hys⟩

theorem exists_validated_iff : (∃ copies : List (SourceFile Name),
      ((snapshotOrder options workspace).map fun file ↦ pathString file.1).Nodup ∧
        List.Forall₂ (Validated options workspace) (snapshotOrder options workspace) copies) ↔
    ¬Refused options workspace := by
  constructor
  · rintro ⟨copies, hnodup, hcopies⟩ (⟨p, q, c, d, hp, hq, hne, htext⟩ | ⟨p, c, hp, hlost⟩)
    · have heq := List.inj_on_of_nodup_map hnodup ((mem_snapshotOrder options workspace).mpr hp)
        ((mem_snapshotOrder options workspace).mpr hq) htext
      exact hne (Prod.mk.inj heq).1
    · obtain ⟨⟨r, d⟩, -, hpath, rfl, hmanaged⟩ :=
        exists_of_mem_left hcopies ((mem_snapshotOrder options workspace).mpr hp)
      exact hlost r hpath hmanaged
  · intro hrefused
    rw [Refused, not_or] at hrefused
    obtain ⟨hclash, hlost⟩ := hrefused
    push Not at hclash hlost
    obtain ⟨copies, hcopies⟩ : ∃ copies, List.Forall₂ (Validated options workspace)
        (snapshotOrder options workspace) copies := by
      apply exists_forall₂
      rintro ⟨p, c⟩ hfile
      obtain ⟨r, hpath, hmanaged⟩ := hlost p c ((mem_snapshotOrder options workspace).mp hfile)
      exact ⟨(r, c), hpath, rfl, hmanaged⟩
    refine ⟨copies, ?_, hcopies⟩
    apply List.Nodup.map_on _ (nodup_snapshotOrder options workspace).of_map
    rintro ⟨p, c⟩ hp ⟨q, d⟩ hq htext
    rw [mem_snapshotOrder] at hp hq
    by_cases hpq : p = q
    · subst hpq
      rw [hp.unique hq]
    · exact absurd htext (hclash p q c d hp hq hpq)

end Fabushi.WorkspaceEngine
