import Fabushi.WorkspaceEngine.Restore

/-!
# When a restore is exact

A restore should bring the managed files back as the checkpoint saw them and leave excluded
paths alone, or fail and leave the workspace as it was. It does so exactly under `Restorable`:
the validation turns the checkpoint down, or no directory is in the way of a copy and every file
comes back under its own name, or there was nothing to do before the copy that fails.
-/

namespace Fabushi.WorkspaceEngine

open Std (TransOrd LawfulEqOrd)
open Effects

variable {Name : Type} [Ord Name] [TransOrd Name] [LawfulEqOrd Name] [DecidableEq Name]
  [OsString Name]

section

variable (options : WorkspaceOptions) (workspace later : Workspace Name)

structure RoundTrip (outcome : Except WorkspaceError CheckpointManifest) (t : Workspace Name) :
    Prop where
  restored : ∀ manifest, outcome = .ok manifest →
    (∀ path content, ManagedFile options t path content ↔
      ManagedFile options workspace path content) ∧
    ∀ path, ExcludedPath options later path → t.lookup path = later.lookup path
  unchanged : ∀ error, outcome = .error error → t = later

def Listed (path : List Name) : Prop :=
  ∃ source content, ManagedFile options workspace source content ∧
    pathString source = pathString path

def Blocked (source : List Name) : Prop :=
  ∃ content target, ManagedFile options workspace source content ∧
    safeRelative (pathString source) = .ok target ∧ later.lookup target = some .directory

/-- Nothing is to be removed, and the files before `source` in the manifest are in place. -/
def InPlaceBefore (source : List Name) : Prop :=
  (∀ path content, ManagedFile options later path content → Listed options workspace path) ∧
  ∀ other content target, ManagedFile options workspace other content →
    pathString other < pathString source → safeRelative (pathString other) = .ok target →
      later.lookup target = some (.file content)

/-- Files that stay are files of the checkpoint, and each of those is copied back or stays. -/
def OwnNames : Prop :=
  (∀ path content, ManagedFile options later path content → Listed options workspace path →
    ∃ content', ManagedFile options workspace path content') ∧
  ∀ path content, ManagedFile options workspace path content →
    (∃ source content', ManagedFile options workspace source content' ∧
      safeRelative (pathString source) = .ok path) ∨ ManagedFile options later path content

def Restorable : Prop :=
  Refused options workspace ∨
  (∃ source, Blocked options workspace later source ∧
    InPlaceBefore options workspace later source) ∨
  ((∀ source, ¬Blocked options workspace later source) ∧ OwnNames options workspace later)

structure Plan (copies : List (SourceFile Name)) : Prop where
  nodup : ((snapshotOrder options workspace).map fun file ↦ pathString file.1).Nodup
  validated : List.Forall₂ (Validated options workspace) (snapshotOrder options workspace) copies

structure Cleared (cleared : Workspace Name) : Prop where
  removed : ∀ path content, ManagedFile options later path content →
    ¬Listed options workspace path → cleared.lookup path = none
  kept : ∀ path, (∀ content, ManagedFile options later path content →
    Listed options workspace path) → cleared.lookup path = later.lookup path

end

variable {options : WorkspaceOptions} {workspace later cleared copied t : Workspace Name}
  {copies done : List (SourceFile Name)} {copy : SourceFile Name}

/-! ## The plan -/

omit [LawfulEqOrd Name] [DecidableEq Name] in
theorem ManagedFile.listed {path : List Name} {content : List UInt8}
    (h : ManagedFile options workspace path content) : Listed options workspace path :=
  ⟨path, content, h, rfl⟩

theorem Plan.source (h : Plan options workspace copies) (hcopy : copy ∈ copies) :
    ∃ source, ManagedFile options workspace source copy.2 ∧
      safeRelative (pathString source) = .ok copy.1 := by
  obtain ⟨⟨source, content⟩, hfile, hvalid⟩ := Result.exists_of_mem_right h.validated hcopy
  refine ⟨source, ?_, hvalid.path⟩
  rw [hvalid.content]
  exact (mem_snapshotOrder options workspace).mp hfile

omit [LawfulEqOrd Name] in
theorem Plan.managed (h : Plan options workspace copies) (hcopy : copy ∈ copies) :
    ManagedFile options workspace copy.1 copy.2 := by
  obtain ⟨file, -, hvalid⟩ := Result.exists_of_mem_right h.validated hcopy
  exact hvalid.managed

theorem Plan.mem_copies (h : Plan options workspace copies) {source target : List Name}
    {content : List UInt8} (hsource : ManagedFile options workspace source content)
    (htarget : safeRelative (pathString source) = .ok target) : (target, content) ∈ copies := by
  obtain ⟨⟨r, d⟩, hcopy, hvalid⟩ :=
    Result.exists_of_mem_left h.validated ((mem_snapshotOrder options workspace).mpr hsource)
  have hpath := hvalid.path.symm.trans htarget
  have hcontent := hvalid.content
  cases hpath
  dsimp only at hcontent
  rw [← hcontent]
  exact hcopy

omit [LawfulEqOrd Name] [DecidableEq Name] in
theorem Cleared.of_file (h : Cleared options workspace later cleared) {path : List Name}
    {content : List UInt8} (hfile : cleared.lookup path = some (.file content)) :
    later.lookup path = some (.file content) ∧
      (Managed options path → Listed options workspace path) := by
  by_cases hall : ∀ c, ManagedFile options later path c → Listed options workspace path
  · rw [h.kept path hall] at hfile
    exact ⟨hfile, fun hmanaged ↦ hall content ⟨hfile, hmanaged⟩⟩
  · push Not at hall
    obtain ⟨c, hc, hlisted⟩ := hall
    rw [h.removed path c hc hlisted] at hfile
    cases hfile

omit [LawfulEqOrd Name] [DecidableEq Name] in
theorem Cleared.lookup_eq_directory_iff (h : Cleared options workspace later cleared)
    (path : List Name) :
    cleared.lookup path = some .directory ↔ later.lookup path = some .directory := by
  by_cases hall : ∀ c, ManagedFile options later path c → Listed options workspace path
  · rw [h.kept path hall]
  · push Not at hall
    obtain ⟨c, hc, hlisted⟩ := hall
    rw [h.removed path c hc hlisted, hc.1]
    exact ⟨nofun, nofun⟩

/-- A file of the workspace that is part of the path of a copy is listed only under its own
name, so it would have been a file and a directory at once. -/
theorem Plan.fits (h : Plan options workspace copies)
    (hcleared : Cleared options workspace later cleared) : Fits cleared copies where
  apart copy hcopy other hother hsuffix := by
    have hmanaged := h.managed hcopy
    have hmanaged' := h.managed hother
    by_cases heq : copy.1 = other.1
    · refine Prod.ext heq ?_
      rw [← heq] at hmanaged'
      exact hmanaged.unique hmanaged'
    · have hdir := FileTree.lookup_above (by rw [hmanaged'.1]; exact Option.some_ne_none _)
        hsuffix heq
      rw [hmanaged.1] at hdir
      cases hdir
  above copy hcopy q hq hne content hfile := by
    have hmanaged := h.managed hcopy
    obtain ⟨source, hsource, hpath⟩ := h.source hcopy
    have hroot : q ≠ [] := by
      rintro rfl
      rw [FileTree.lookup_nil] at hfile
      cases hfile
    have hplain : ∀ name ∈ q, Plain name := fun name hname ↦
      plain_of_safeRelative hpath (backslash_notMem_pathString source) name (hq.subset hname)
    obtain ⟨p, c, hp, htext⟩ := (hcleared.of_file hfile).2 (hmanaged.2.above hq)
    have hself := safeRelative_pathString hplain hroot
    rw [← htext] at hself
    have hown := (h.managed (h.mem_copies hp hself)).1
    rw [FileTree.lookup_above (by rw [hmanaged.1]; exact Option.some_ne_none _) hq hne] at hown
    cases hown
  below copy hcopy := (h.managed hcopy).ne_nil

/-! ## The run -/

section

variable (id : String) (label : Option String) (now : ℤ)

theorem mem_removals {path : List Name} {content : List UInt8} :
    (path, content) ∈
        removals options (createCheckpoint options workspace id label now).manifest later ↔
      ManagedFile options later path content ∧ ¬Listed options workspace path := by
  rw [removals, List.mem_filter, mem_collectFiles, decide_eq_true_eq, files_createCheckpoint,
    List.map_map, List.mem_map]
  refine and_congr_right fun _ ↦ not_congr ?_
  constructor
  · rintro ⟨⟨source, content'⟩, hfile, htext⟩
    exact ⟨source, content', (mem_snapshotOrder options workspace).mp hfile, htext⟩
  · rintro ⟨source, content', hfile, htext⟩
    exact ⟨(source, content'), (mem_snapshotOrder options workspace).mpr hfile, htext⟩

theorem yields_removals : ∃ cleared,
    Yields ((removals options (createCheckpoint options workspace id label now).manifest
      later).forM removeSource) later (.ok ⟨⟩) cleared ∧
    Cleared options workspace later cleared := by
  have hnodup : ((removals options (createCheckpoint options workspace id label now).manifest
      later).map Prod.fst).Nodup :=
    nodup_collectFiles.sublist (List.filter_sublist.map Prod.fst)
  obtain ⟨cleared, hrun, hcleared⟩ := yields_removeSources
    (fun file hfile ↦ ((mem_removals id label now).mp hfile).1.1) hnodup
  refine ⟨cleared, hrun, ?_, ?_⟩
  · intro path content hfile hlisted
    rw [hcleared, if_pos]
    exact List.mem_map.mpr ⟨(path, content), (mem_removals id label now).mpr ⟨hfile, hlisted⟩, rfl⟩
  · intro path hall
    rw [hcleared, if_neg]
    intro hmem
    obtain ⟨⟨p, content⟩, hfile, rfl⟩ := List.mem_map.mp hmem
    rw [mem_removals] at hfile
    exact hfile.2 (hall content hfile.1)

theorem yields_restoreCheckpoint
    (hvalid : validateCheckpoint (createCheckpoint options workspace id label now) = .ok copies)
    (hremove : Yields ((removals options
      (createCheckpoint options workspace id label now).manifest later).forM removeSource)
        later (.ok ⟨⟩) cleared)
    (r : Except WorkspaceError CheckpointManifest) (t : Workspace Name) :
    Yields (restoreCheckpoint options (createCheckpoint options workspace id label now)) later r t ↔
      Yields (do
        copies.forM copyBack
        let copied ← get
        let _ ← removeEmptyManagedDirectories options (copied.depth + 1) []
        return (createCheckpoint options workspace id label now).manifest) cleared r t := by
  unfold restoreCheckpoint
  rw [yields_orThrow_bind, hvalid]
  simp only [Except.ok.injEq, exists_eq_left', reduceCtorEq, false_and, exists_false, or_false,
    yields_get_bind]
  exact yields_bind_of_ok hremove r t

/-- Either nothing is in the way and the restore goes through, or it stops at the first copy
that a directory is in the way of, with those before it made. -/
theorem Plan.restore_cases (h : Plan options workspace copies) (later : Workspace Name)
    (hvalid : validateCheckpoint (createCheckpoint options workspace id label now) = .ok copies) :
    ∃ cleared, Cleared options workspace later cleared ∧
      (((∀ copy ∈ copies, later.lookup copy.1 ≠ some .directory) ∧ ∃ copied t,
          Copied cleared copies copied ∧ Pruned options [] copied t ∧
          Yields (restoreCheckpoint options (createCheckpoint options workspace id label now))
            later (.ok (createCheckpoint options workspace id label now).manifest) t) ∨
        ∃ done copy rest, copies = done ++ copy :: rest ∧
          (∀ other ∈ done, later.lookup other.1 ≠ some .directory) ∧
          later.lookup copy.1 = some .directory ∧ ∃ t, Copied cleared done t ∧
          Yields (restoreCheckpoint options (createCheckpoint options workspace id label now))
            later (.error (.io .isADirectory)) t) := by
  obtain ⟨cleared, hremove, hcleared⟩ : ∃ cleared, Yields ((removals options
      (createCheckpoint options workspace id label now).manifest later).forM removeSource)
        later (.ok ⟨⟩) cleared ∧ Cleared options workspace later cleared :=
    yields_removals id label now
  have hfits := h.fits hcleared
  refine ⟨cleared, hcleared, ?_⟩
  simp only [yields_restoreCheckpoint id label now hvalid hremove]
  by_cases hfree : ∀ copy ∈ copies, later.lookup copy.1 ≠ some .directory
  · left
    obtain ⟨copied, hcopy, hcopied⟩ := yields_copyBacks hfits (List.Subset.refl copies)
      fun copy hmem ↦ (hcleared.lookup_eq_directory_iff copy.1).not.mpr (hfree copy hmem)
    have hdepth : ∀ q, copied.lookup q ≠ none → [] <:+ q →
        q.length < ([] : List Name).length + (copied.depth + 1) := by
      intro q hq _
      rw [List.length_nil, Nat.zero_add]
      exact Nat.lt_succ_of_le (FileTree.length_le_depth hq)
    have hroot : ∀ name ∈ ([] : List Name), isExcluded options name = false :=
      fun name hname ↦ by cases hname
    obtain ⟨b, t, hprune, ht, -⟩ :=
      yields_removeEmptyManagedDirectories (copied.depth + 1) copied.lookup_nil hdepth hroot
    refine ⟨hfree, copied, t, hcopied, ht, ?_⟩
    rw [yields_bind_of_ok hcopy, yields_get_bind, yields_bind_of_ok hprune]
    exact yields_pure.mpr ⟨rfl, rfl⟩
  · right
    -- The first copy that a directory is in the way of.
    obtain ⟨copy, hfind⟩ : ∃ copy,
        copies.find? (fun copy ↦ decide (later.lookup copy.1 = some .directory)) = some copy := by
      rw [← Option.isSome_iff_exists, List.find?_isSome]
      push Not at hfree
      obtain ⟨copy, hmem, hdir⟩ := hfree
      exact ⟨copy, hmem, decide_eq_true hdir⟩
    obtain ⟨hdir, done, rest, hsplit, hdone⟩ := List.find?_eq_some_iff_append.mp hfind
    have hdir' : later.lookup copy.1 = some .directory := of_decide_eq_true hdir
    have hfree' : ∀ other ∈ done, later.lookup other.1 ≠ some .directory := by
      intro other hother heq
      have hnot := hdone other hother
      rw [decide_eq_true heq] at hnot
      cases hnot
    have hsubset : done ⊆ copies := by
      rw [hsplit]
      exact List.subset_append_left _ _
    have hmem : copy ∈ copies := by
      rw [hsplit]
      exact List.mem_append_right done List.mem_cons_self
    have hfree'' : ∀ other ∈ done, cleared.lookup other.1 ≠ some .directory :=
      fun other hother ↦ (hcleared.lookup_eq_directory_iff other.1).not.mpr (hfree' other hother)
    obtain ⟨t, hcopy, ht⟩ := yields_copyBacks hfits hsubset hfree''
    have hblocked := ht.blocked hfits hsubset hmem hfree''
      ((hcleared.lookup_eq_directory_iff copy.1).mpr hdir')
    refine ⟨done, copy, rest, hsplit, hfree', hdir', t, ht, ?_⟩
    rw [hsplit]
    exact yields_bind_of_error (yields_forM_error hcopy hblocked) _

end

/-! ## What the outcome amounts to -/

omit [LawfulEqOrd Name] [OsString Name] in
theorem Copied.lookup_cases (h : Copied cleared done t) (q : List Name) :
    (∃ copy ∈ done, q = copy.1 ∧ t.lookup q = some (.file copy.2)) ∨
      (∃ copy ∈ done, q <:+ copy.1 ∧ q ≠ copy.1 ∧ t.lookup q = some .directory) ∨
      ((∀ copy ∈ done, ¬q <:+ copy.1) ∧ t.lookup q = cleared.lookup q) := by
  by_cases hbelow : ∃ copy ∈ done, q <:+ copy.1
  · obtain ⟨copy, hcopy, hq⟩ := hbelow
    by_cases heq : q = copy.1
    · exact Or.inl ⟨copy, hcopy, heq, heq ▸ h.file copy hcopy⟩
    · exact Or.inr (Or.inl ⟨copy, hcopy, hq, heq, h.directory copy hcopy q hq heq⟩)
  · push Not at hbelow
    exact Or.inr (Or.inr ⟨hbelow, h.rest q hbelow⟩)

omit [LawfulEqOrd Name] [DecidableEq Name] in
theorem Pruned.lookup_eq_file_iff (h : Pruned options [] copied t) (q : List Name)
    (content : List UInt8) :
    t.lookup q = some (.file content) ↔ copied.lookup q = some (.file content) := by
  rcases h q with heq | ⟨hdir, hnone, -⟩
  · rw [heq]
  · rw [hdir, hnone]
    exact ⟨nofun, nofun⟩

omit [LawfulEqOrd Name] in
theorem Plan.excluded_untouched (h : Plan options workspace copies)
    (hcleared : Cleared options workspace later cleared) (hcopied : Copied cleared copies copied)
    (hpruned : Pruned options [] copied t)
    (hfree : ∀ copy ∈ copies, later.lookup copy.1 ≠ some .directory) {path : List Name}
    (hexcluded : ExcludedPath options later path) : t.lookup path = later.lookup path := by
  obtain ⟨name, dir, hname, hdir, hsuffix⟩ := hexcluded
  -- A managed path at or below the excluded directory is the directory itself.
  have hself : ∀ q, Managed options q → name :: dir <:+ q → name :: dir = q := by
    intro q hq hle
    by_contra hne
    obtain ⟨inner, rfl⟩ := hle
    cases inner with
    | nil => exact hne rfl
    | cons first inner =>
        have hmem := hq name (List.mem_append_right inner List.mem_cons_self)
        rw [hmem] at hname
        cases hname
  have hkept : cleared.lookup path = later.lookup path := by
    apply hcleared.kept
    intro content hfile
    have heq := hself path hfile.2 hsuffix
    rw [heq, hfile.1] at hdir
    cases hdir
  have hcopy : copied.lookup path = cleared.lookup path := by
    apply hcopied.rest
    intro copy hmem hle
    apply hfree copy hmem
    rw [← hself copy.1 (h.managed hmem).2 (hsuffix.trans hle)]
    exact hdir
  rcases hpruned path with heq | ⟨-, -, -, -, hnames⟩
  · rw [heq, hcopy, hkept]
  · have hmem := hnames name (hsuffix.subset List.mem_cons_self)
    rw [hmem] at hname
    cases hname

theorem Plan.managedFiles_iff (h : Plan options workspace copies)
    (hcleared : Cleared options workspace later cleared) (hcopied : Copied cleared copies copied)
    (hpruned : Pruned options [] copied t) :
    (∀ path content, ManagedFile options t path content ↔
        ManagedFile options workspace path content) ↔ OwnNames options workspace later := by
  have hfits := h.fits hcleared
  -- A listed file that stays is found again unless a copy took its place.
  have hstay : ∀ {path content}, ManagedFile options later path content →
      Listed options workspace path →
      (∃ copy ∈ copies, path = copy.1) ∨ ManagedFile options t path content := by
    intro path content hfile hlisted
    have hkept : cleared.lookup path = some (.file content) :=
      (hcleared.kept path fun _ _ ↦ hlisted).trans hfile.1
    rcases hcopied.lookup_cases path with ⟨copy, hcopy, heq, -⟩ | ⟨copy, hcopy, hle, hne, -⟩ |
      ⟨-, heq⟩
    · exact Or.inl ⟨copy, hcopy, heq⟩
    · exact absurd hkept (hfits.above copy hcopy path hle hne content)
    · exact Or.inr ⟨(hpruned.lookup_eq_file_iff path content).mpr (heq.trans hkept), hfile.2⟩
  constructor
  · intro hall
    constructor
    · intro path content hfile hlisted
      rcases hstay hfile hlisted with ⟨copy, hcopy, rfl⟩ | hfound
      · exact ⟨copy.2, h.managed hcopy⟩
      · exact ⟨content, (hall path content).mp hfound⟩
    · intro path content hfile
      have hfound := (hpruned.lookup_eq_file_iff path content).mp ((hall path content).mpr hfile).1
      rcases hcopied.lookup_cases path with ⟨copy, hcopy, rfl, -⟩ | ⟨copy, -, -, -, hdir⟩ |
        ⟨-, heq⟩
      · obtain ⟨source, hsource, hpath⟩ := h.source hcopy
        exact Or.inl ⟨source, copy.2, hsource, hpath⟩
      · rw [hdir] at hfound
        cases hfound
      · rw [heq] at hfound
        exact Or.inr ⟨(hcleared.of_file hfound).1, hfile.2⟩
  · rintro ⟨hown, hback⟩ path content
    constructor
    · intro hfound
      have hfile := (hpruned.lookup_eq_file_iff path content).mp hfound.1
      rcases hcopied.lookup_cases path with ⟨copy, hcopy, rfl, heq⟩ | ⟨copy, -, -, -, hdir⟩ |
        ⟨hnone, heq⟩
      · rw [hfile] at heq
        cases heq
        exact h.managed hcopy
      · rw [hdir] at hfile
        cases hfile
      · rw [heq] at hfile
        obtain ⟨hlater, hlisted⟩ := hcleared.of_file hfile
        obtain ⟨content', hwork⟩ := hown path content ⟨hlater, hfound.2⟩ (hlisted hfound.2)
        rcases hback path content' hwork with ⟨source, c, hsource, hpath⟩ | hlater'
        · exact absurd (List.suffix_refl path) (hnone _ (h.mem_copies hsource hpath))
        · rw [ManagedFile.unique ⟨hlater, hfound.2⟩ hlater']
          exact hwork
    · intro hwork
      -- Where there is a copy for the path, it has the content of the file there.
      have hcopyOf : (∃ copy ∈ copies, path = copy.1) → ManagedFile options t path content := by
        rintro ⟨copy, hcopy, rfl⟩
        rw [(h.managed hcopy).unique hwork |>.symm]
        exact ⟨(hpruned.lookup_eq_file_iff _ _).mpr (hcopied.file copy hcopy), hwork.2⟩
      rcases hback path content hwork with ⟨source, c, hsource, hpath⟩ | hlater
      · exact hcopyOf ⟨_, h.mem_copies hsource hpath, rfl⟩
      · exact (hstay hlater hwork.listed).elim hcopyOf fun hfound ↦ hfound

/-! ## A restore that stops -/

theorem exists_split_left {α β : Type} {R : α → β → Prop} {xs : List α} {ys zs : List β} {y : β}
    (h : List.Forall₂ R xs (ys ++ y :: zs)) :
    ∃ as a bs, xs = as ++ a :: bs ∧ List.Forall₂ R as ys ∧ R a y := by
  induction ys generalizing xs with
  | nil =>
      obtain ⟨a, bs, ha, -, rfl⟩ := List.forall₂_cons_right_iff.mp h
      exact ⟨[], a, bs, rfl, .nil, ha⟩
  | cons y' ys ih =>
      obtain ⟨a', xs', ha', h', rfl⟩ := List.forall₂_cons_right_iff.mp h
      obtain ⟨as, a, bs, rfl, hys, ha⟩ := ih h'
      exact ⟨a' :: as, a, bs, rfl, .cons ha' hys, ha⟩

omit [LawfulEqOrd Name] in
theorem Plan.pairwise_lt (h : Plan options workspace copies) :
    (snapshotOrder options workspace).Pairwise fun left right ↦
      pathString left.1 < pathString right.1 := by
  have hle : (snapshotOrder options workspace).Pairwise fun left right ↦
      pathString left.1 ≤ pathString right.1 := by
    have htotal : Std.Total fun left right : SourceFile Name ↦
        pathString left.1 ≤ pathString right.1 := ⟨fun left right ↦ le_total _ _⟩
    have htrans : IsTrans (SourceFile Name) fun left right ↦
        pathString left.1 ≤ pathString right.1 := ⟨fun _ _ _ h h' ↦ h.trans h'⟩
    exact List.pairwise_insertionSort _ _
  have hne := List.pairwise_map.mp h.nodup
  exact (hle.and hne).imp fun ⟨hle, hne⟩ ↦ hle.lt_of_ne hne

theorem Plan.exists_source (h : Plan options workspace copies) {rest : List (SourceFile Name)}
    (hsplit : copies = done ++ copy :: rest) :
    ∃ source, ManagedFile options workspace source copy.2 ∧
      safeRelative (pathString source) = .ok copy.1 ∧
      (∀ other content target, ManagedFile options workspace other content →
        pathString other < pathString source → safeRelative (pathString other) = .ok target →
          (target, content) ∈ done) ∧
      ∀ made ∈ done, ∃ other, ManagedFile options workspace other made.2 ∧
        pathString other < pathString source ∧ safeRelative (pathString other) = .ok made.1 := by
  have hvalidated := h.validated
  rw [hsplit] at hvalidated
  obtain ⟨before, ⟨source, c⟩, after, horder, hdone, hcopy⟩ := exists_split_left hvalidated
  have hmem : ∀ {path content}, (path, content) ∈ before ++ (source, c) :: after ↔
      ManagedFile options workspace path content := by
    intro path content
    rw [← mem_snapshotOrder, horder]
  have hsorted := h.pairwise_lt
  rw [horder, List.pairwise_append, List.pairwise_cons] at hsorted
  obtain ⟨-, ⟨hafter, -⟩, hbefore⟩ := hsorted
  refine ⟨source, ?_, hcopy.path, ?_, ?_⟩
  · rw [hcopy.content]
    exact hmem.mp (List.mem_append_right before List.mem_cons_self)
  · intro other content' target hother hlt htarget
    rcases List.mem_append.mp (hmem.mpr hother) with hin | hin
    · obtain ⟨⟨r, d⟩, hmade, hvalid⟩ := Result.exists_of_mem_left hdone hin
      have hpath := hvalid.path.symm.trans htarget
      have hcontent := hvalid.content
      cases hpath
      dsimp only at hcontent
      rw [← hcontent]
      exact hmade
    · rcases List.mem_cons.mp hin with heq | hin
      · cases heq
        exact absurd rfl hlt.ne
      · have hgt : pathString source < pathString other := hafter (other, content') hin
        exact absurd hgt hlt.not_gt
  · intro made hmade
    obtain ⟨⟨other, content'⟩, hin, hvalid⟩ := Result.exists_of_mem_right hdone hmade
    have hlt : pathString other < pathString source :=
      hbefore (other, content') hin (source, c) List.mem_cons_self
    refine ⟨other, ?_, hlt, hvalid.path⟩
    rw [hvalid.content]
    exact hmem.mp (List.mem_append_left _ hin)

theorem Plan.unchanged_iff (h : Plan options workspace copies)
    (hcleared : Cleared options workspace later cleared) (hcopied : Copied cleared done t)
    (hdone : done ⊆ copies) : t = later ↔
      (∀ path content, ManagedFile options later path content → Listed options workspace path) ∧
        ∀ made ∈ done, later.lookup made.1 = some (.file made.2) := by
  constructor
  · rintro rfl
    refine ⟨fun path content hfile ↦ ?_, hcopied.file⟩
    by_contra hlisted
    rcases hcopied.lookup_cases path with ⟨copy, hcopy, rfl, -⟩ | ⟨copy, -, -, -, hdir⟩ | ⟨-, heq⟩
    · exact hlisted (h.managed (hdone hcopy)).listed
    · rw [hfile.1] at hdir
      cases hdir
    · rw [hcleared.removed path content hfile hlisted, hfile.1] at heq
      cases heq
  · rintro ⟨hlisted, hmade⟩
    apply FileTree.ext_lookup
    intro path
    rcases hcopied.lookup_cases path with ⟨copy, hcopy, rfl, heq⟩ |
      ⟨copy, hcopy, hle, hne, hdir⟩ | ⟨-, heq⟩
    · rw [heq, hmade copy hcopy]
    · rw [hdir]
      refine (FileTree.lookup_above ?_ hle hne).symm
      rw [hmade copy hcopy]
      exact Option.some_ne_none _
    · exact heq.trans (hcleared.kept path fun content hfile ↦ hlisted path content hfile)

theorem Plan.restorable_iff_of_blocked (h : Plan options workspace copies)
    {rest : List (SourceFile Name)} (hsplit : copies = done ++ copy :: rest)
    (hfree : ∀ other ∈ done, later.lookup other.1 ≠ some .directory)
    (hdir : later.lookup copy.1 = some .directory) (hvalid : ¬Refused options workspace) :
    Restorable options workspace later ↔
      (∀ path content, ManagedFile options later path content → Listed options workspace path) ∧
        ∀ made ∈ done, later.lookup made.1 = some (.file made.2) := by
  obtain ⟨source, hsource, hpath, hearlier, hmade⟩ := h.exists_source hsplit
  have hblocked : Blocked options workspace later source := ⟨copy.2, copy.1, hsource, hpath, hdir⟩
  constructor
  · rintro (hrefused | ⟨other, hother, hlisted, hplace⟩ | ⟨hnone, -⟩)
    · exact absurd hrefused hvalid
    · refine ⟨hlisted, fun made hmem ↦ ?_⟩
      obtain ⟨origin, horigin, hlt, htarget⟩ := hmade made hmem
      obtain ⟨content, target, hcontent, hread, hdir'⟩ := hother
      -- The file of `other` is the one the restore stops at.
      have hle : ¬pathString other < pathString source := fun hlt ↦
        hfree _ (hearlier other content target hcontent hlt hread) hdir'
      have hge : ¬pathString source < pathString other := by
        intro hgt
        have hfile := hplace source copy.2 copy.1 hsource hgt hpath
        rw [hdir] at hfile
        cases hfile
      have heq : pathString other = pathString source :=
        (not_lt.mp hge).antisymm (not_lt.mp hle)
      exact hplace origin made.2 made.1 horigin (heq ▸ hlt) htarget
    · exact absurd hblocked (hnone source)
  · rintro ⟨hlisted, hplace⟩
    exact Or.inr (Or.inl ⟨source, hblocked, hlisted, fun other content target hother hlt hread ↦
      hplace _ (hearlier other content target hother hlt hread)⟩)

theorem Plan.restorable_iff_of_free (h : Plan options workspace copies)
    (hfree : ∀ copy ∈ copies, later.lookup copy.1 ≠ some .directory)
    (hvalid : ¬Refused options workspace) :
    Restorable options workspace later ↔ OwnNames options workspace later := by
  have hnone : ∀ source, ¬Blocked options workspace later source := by
    rintro source ⟨content, target, hsource, hpath, hdir⟩
    exact hfree _ (h.mem_copies hsource hpath) hdir
  constructor
  · rintro (hrefused | ⟨source, hblocked, -⟩ | ⟨-, hown⟩)
    · exact absurd hrefused hvalid
    · exact absurd hblocked (hnone source)
    · exact hown
  · exact fun hown ↦ Or.inr (Or.inr ⟨hnone, hown⟩)

/-! ## The round trip -/

omit [LawfulEqOrd Name] [DecidableEq Name] in
theorem roundTrip_ok_iff {manifest : CheckpointManifest} :
    RoundTrip options workspace later (.ok manifest) t ↔
      (∀ path content, ManagedFile options t path content ↔
        ManagedFile options workspace path content) ∧
      ∀ path, ExcludedPath options later path → t.lookup path = later.lookup path :=
  ⟨fun h ↦ h.restored manifest rfl, fun h ↦ ⟨fun _ _ ↦ h, nofun⟩⟩

omit [LawfulEqOrd Name] [DecidableEq Name] in
theorem roundTrip_error_iff {error : WorkspaceError} :
    RoundTrip options workspace later (.error error) t ↔ t = later :=
  ⟨fun h ↦ h.unchanged error rfl, fun h ↦ ⟨nofun, fun _ _ ↦ h⟩⟩

/-- A restore keeps its promise exactly when the workspace it finds is `Restorable`. -/
theorem restoreCheckpoint_roundTrip_iff (options : WorkspaceOptions)
    (workspace later : Workspace Name) (id : String) (label : Option String) (now : ℤ)
    (hdigest : CollisionFree options workspace) :
    RoundTrip options workspace later
        (result (restoreCheckpoint options (createCheckpoint options workspace id label now)) later)
        (after (restoreCheckpoint options (createCheckpoint options workspace id label now)) later) ↔
      Restorable options workspace later := by
  cases hvalid : validateCheckpoint (createCheckpoint options workspace id label now) with
  | error e =>
      have hrun : Yields (restoreCheckpoint options
          (createCheckpoint options workspace id label now)) later (.error e) later := by
        unfold restoreCheckpoint
        exact yields_orThrow_bind.mpr (Or.inr ⟨e, hvalid, rfl, rfl⟩)
      have hrefused : Refused options workspace := by
        by_contra hnot
        obtain ⟨copies, hcopies⟩ := exists_validated_iff.mpr hnot
        rw [(validateCheckpoint_eq_ok_iff hdigest id label now).mpr hcopies] at hvalid
        cases hvalid
      rw [hrun.eq.1, hrun.eq.2, roundTrip_error_iff]
      exact ⟨fun _ ↦ Or.inl hrefused, fun _ ↦ rfl⟩
  | ok copies =>
      have hcopies := (validateCheckpoint_eq_ok_iff hdigest id label now).mp hvalid
      have hplan : Plan options workspace copies := ⟨hcopies.1, hcopies.2⟩
      have hnot : ¬Refused options workspace := exists_validated_iff.mp ⟨copies, hcopies⟩
      obtain ⟨cleared, hcleared, ⟨hfree, copied, t, hcopied, hpruned, hrun⟩ |
        ⟨done, copy, rest, hsplit, hfree, hdir, t, hcopied, hrun⟩⟩ :=
        hplan.restore_cases id label now later hvalid
      · rw [hrun.eq.1, hrun.eq.2, roundTrip_ok_iff, hplan.restorable_iff_of_free hfree hnot,
          ← hplan.managedFiles_iff hcleared hcopied hpruned]
        exact and_iff_left fun path ↦
          hplan.excluded_untouched hcleared hcopied hpruned hfree
      · have hdone : done ⊆ copies := by
          rw [hsplit]
          exact List.subset_append_left _ _
        rw [hrun.eq.1, hrun.eq.2, roundTrip_error_iff,
          hplan.restorable_iff_of_blocked hsplit hfree hdir hnot,
          ← hplan.unchanged_iff hcleared hcopied hdone]

/-! ## Plain names -/

section

variable (options workspace) in
def PlainFiles : Prop :=
  ∀ path content, ManagedFile options workspace path content → ∀ name ∈ path, Plain name

omit [LawfulEqOrd Name] [DecidableEq Name] in
theorem PlainFiles.safeRelative_eq (h : PlainFiles options workspace) {path : List Name}
    {content : List UInt8} (hfile : ManagedFile options workspace path content) :
    safeRelative (pathString path) = .ok path :=
  safeRelative_pathString (h path content hfile) hfile.ne_nil

omit [LawfulEqOrd Name] [DecidableEq Name] in
theorem PlainFiles.not_refused (h : PlainFiles options workspace) : ¬Refused options workspace := by
  rintro (⟨p, q, c, d, hp, hq, hne, htext⟩ | ⟨p, c, hp, hlost⟩)
  · have heq := h.safeRelative_eq hp
    rw [htext, h.safeRelative_eq hq] at heq
    exact hne (Except.ok.inj heq).symm
  · exact hlost p (h.safeRelative_eq hp) hp

omit [LawfulEqOrd Name] [DecidableEq Name] in
theorem PlainFiles.listed_iff (h : PlainFiles options workspace)
    (hlater : PlainFiles options later) {path : List Name} {content : List UInt8}
    (hfile : ManagedFile options later path content) :
    Listed options workspace path ↔ ∃ content', ManagedFile options workspace path content' := by
  constructor
  · rintro ⟨source, content', hsource, htext⟩
    have heq := h.safeRelative_eq hsource
    rw [htext, hlater.safeRelative_eq hfile] at heq
    rw [Except.ok.inj heq]
    exact ⟨content', hsource⟩
  · rintro ⟨content', hsource⟩
    exact hsource.listed

omit [LawfulEqOrd Name] [DecidableEq Name] in
/-- Where all names are plain, a restore is exact unless a file has become a directory; and
then only if nothing is to be removed and no file before it has changed. -/
theorem restorable_iff_of_plainFiles (h : PlainFiles options workspace)
    (hlater : PlainFiles options later) :
    Restorable options workspace later ↔
      (∀ path content, ManagedFile options workspace path content →
        later.lookup path ≠ some .directory) ∨
      ∃ path content, ManagedFile options workspace path content ∧
        later.lookup path = some .directory ∧
        (∀ other c, ManagedFile options later other c →
          ∃ d, ManagedFile options workspace other d) ∧
        ∀ other c, ManagedFile options workspace other c →
          pathString other < pathString path → later.lookup other = some (.file c) := by
  have hblocked : ∀ path, Blocked options workspace later path ↔
      ∃ content, ManagedFile options workspace path content ∧
        later.lookup path = some .directory := by
    intro path
    constructor
    · rintro ⟨content, target, hfile, hread, hdir⟩
      rw [h.safeRelative_eq hfile] at hread
      cases hread
      exact ⟨content, hfile, hdir⟩
    · rintro ⟨content, hfile, hdir⟩
      exact ⟨content, path, hfile, h.safeRelative_eq hfile, hdir⟩
  have hplace : ∀ path, InPlaceBefore options workspace later path ↔
      (∀ other c, ManagedFile options later other c →
        ∃ d, ManagedFile options workspace other d) ∧
      ∀ other c, ManagedFile options workspace other c →
        pathString other < pathString path → later.lookup other = some (.file c) := by
    intro path
    refine and_congr (forall₃_congr fun other c hfile ↦ h.listed_iff hlater hfile) ?_
    constructor
    · exact fun hall other c hfile hlt ↦ hall other c other hfile hlt (h.safeRelative_eq hfile)
    · intro hall other c target hfile hlt hread
      rw [h.safeRelative_eq hfile] at hread
      cases hread
      exact hall other c hfile hlt
  have hown : OwnNames options workspace later :=
    ⟨fun _ _ hfile hlisted ↦ (h.listed_iff hlater hfile).mp hlisted,
      fun path content hfile ↦ Or.inl ⟨path, content, hfile, h.safeRelative_eq hfile⟩⟩
  simp only [Restorable, h.not_refused, false_or, hblocked, hplace, hown, and_true]
  rw [or_comm]
  refine or_congr ?_ ?_
  · exact ⟨fun hall path content hfile hdir ↦ hall path ⟨content, hfile, hdir⟩,
      fun hall path ⟨content, hfile, hdir⟩ ↦ hall path content hfile hdir⟩
  · exact ⟨fun ⟨path, ⟨content, hfile, hdir⟩, hrest⟩ ↦ ⟨path, content, hfile, hdir, hrest⟩,
      fun ⟨path, content, hfile, hdir, hrest⟩ ↦ ⟨path, ⟨content, hfile, hdir⟩, hrest⟩⟩

end

/-! ## A file that has become a directory -/

theorem collisionFree_of_files (h : ∀ file ∈ collectFiles options workspace,
    ∀ other ∈ collectFiles options workspace,
      Sha256.digest file.2 = Sha256.digest other.2 → file.2 = other.2) :
    CollisionFree options workspace := by
  rintro content ⟨path, hfile⟩ content' ⟨path', hfile'⟩ heq
  exact h (path, content) (mem_collectFiles.mpr hfile) (path', content')
    (mem_collectFiles.mpr hfile') heq

def workspaceOf (files : List (SourceFile String)) : Workspace String :=
  files.foldl (fun workspace file ↦
    match workspace.createDirAll file.1.tail >>= (·.writeFile file.1 file.2) with
    | .ok next => next
    | .error _ => workspace) FileTree.empty

def fileWorkspace : Workspace String :=
  workspaceOf [(["Makefile"], [1]), (["src"], [2])]

def directoryWorkspace : Workspace String :=
  workspaceOf [(["Makefile"], [1]), (["main.rs", "src"], [2])]

theorem collectFiles_fileWorkspace :
    collectFiles .default fileWorkspace = [(["Makefile"], [1]), (["src"], [2])] := by
  decide +kernel

theorem fileWorkspace_collisionFree : CollisionFree .default fileWorkspace := by
  apply collisionFree_of_files
  rw [collectFiles_fileWorkspace]
  decide +kernel

theorem restoreCheckpoint_roundTrip_demo :
    RoundTrip .default fileWorkspace directoryWorkspace
        (result (restoreCheckpoint .default
          (createCheckpoint .default fileWorkspace "checkpoint:1" none 0)) directoryWorkspace)
        (after (restoreCheckpoint .default
          (createCheckpoint .default fileWorkspace "checkpoint:1" none 0)) directoryWorkspace) ↔
      Restorable .default fileWorkspace directoryWorkspace :=
  restoreCheckpoint_roundTrip_iff .default fileWorkspace directoryWorkspace "checkpoint:1" none 0
    fileWorkspace_collisionFree

theorem restore_fileWorkspace : result (restoreCheckpoint .default
    (createCheckpoint .default fileWorkspace "checkpoint:1" none 0)) directoryWorkspace =
      .error (.io .isADirectory) := by
  decide +kernel

theorem lookup_restore_fileWorkspace : (after (restoreCheckpoint .default
    (createCheckpoint .default fileWorkspace "checkpoint:1" none 0)) directoryWorkspace).lookup
      ["main.rs", "src"] ≠ directoryWorkspace.lookup ["main.rs", "src"] := by
  decide +kernel

/-- The restore removes `src/main.rs` and then fails to write the file `src`. -/
theorem file_turned_directory : ¬∀ workspace later : Workspace String,
    CollisionFree .default workspace →
      RoundTrip .default workspace later
        (result (restoreCheckpoint .default
          (createCheckpoint .default workspace "checkpoint:1" none 0)) later)
        (after (restoreCheckpoint .default
          (createCheckpoint .default workspace "checkpoint:1" none 0)) later) := by
  intro hall
  have hrun := hall fileWorkspace directoryWorkspace fileWorkspace_collisionFree
  have hsame := hrun.unchanged _ restore_fileWorkspace
  apply lookup_restore_fileWorkspace
  rw [hsame]

end Fabushi.WorkspaceEngine
