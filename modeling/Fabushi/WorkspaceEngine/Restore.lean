import Fabushi.WorkspaceEngine.ManagedFiles

/-!
# The three stages of a restore

Removing files, copying files back and removing empty directories, each with what it leaves
behind. Copying is the only stage that can fail: it stops at the first copy that a directory is
in the way of.
-/

namespace Fabushi.WorkspaceEngine

open Std Effects

variable {Name : Type} [Ord Name] [TransOrd Name] [LawfulEqOrd Name] [DecidableEq Name]

/-! ## Removing files -/

theorem yields_removeSources {files : List (SourceFile Name)} {later : Workspace Name}
    (hfiles : ∀ file ∈ files, later.lookup file.1 = some (.file file.2))
    (hnodup : (files.map Prod.fst).Nodup) :
    ∃ cleared, Yields (files.forM removeSource) later (.ok ⟨⟩) cleared ∧
      ∀ q, cleared.lookup q = if q ∈ files.map Prod.fst then none else later.lookup q := by
  refine yields_forM_ok (I := fun done (s : Workspace Name) ↦ ∀ q, s.lookup q =
    if q ∈ done.map Prod.fst then none else later.lookup q) [] ?_ (fun q ↦ rfl)
  intro before rest file s hsplit hs
  rw [List.nil_append] at hsplit
  have hfresh : file.1 ∉ before.map Prod.fst := by
    rw [hsplit, List.map_append, List.map_cons] at hnodup
    exact fun hmem ↦ List.disjoint_of_nodup_append hnodup hmem List.mem_cons_self
  have hfile : s.lookup file.1 = some (.file file.2) := by
    rw [hs, if_neg hfresh]
    apply hfiles
    rw [hsplit]
    exact List.mem_append_right before List.mem_cons_self
  obtain ⟨t, hremove, ht⟩ := FileTree.removeFile_ok hfile
  refine ⟨t, yields_change_ok hremove, fun q ↦ ?_⟩
  rw [ht, hs, List.map_append, List.map_singleton]
  by_cases hq : file.1 = q
  · subst hq
    simp
  · have hiff : q ∈ before.map Prod.fst ++ [file.1] ↔ q ∈ before.map Prod.fst := by
      rw [List.mem_append, List.mem_singleton]
      exact or_iff_left (Ne.symm hq)
    rw [if_neg hq]
    simp only [hiff]

/-! ## Copying files back -/

/-- What copying has made of the workspace that removing files left behind. -/
structure Copied (cleared : Workspace Name) (done : List (SourceFile Name))
    (t : Workspace Name) : Prop where
  file : ∀ copy ∈ done, t.lookup copy.1 = some (.file copy.2)
  directory : ∀ copy ∈ done, ∀ q, q <:+ copy.1 → q ≠ copy.1 → t.lookup q = some .directory
  rest : ∀ q, (∀ copy ∈ done, ¬q <:+ copy.1) → t.lookup q = cleared.lookup q

/-- The copies come from one tree, and no file is left above any of them. -/
structure Fits (cleared : Workspace Name) (copies : List (SourceFile Name)) : Prop where
  apart : ∀ copy ∈ copies, ∀ other ∈ copies, copy.1 <:+ other.1 → copy = other
  above : ∀ copy ∈ copies, ∀ q, q <:+ copy.1 → q ≠ copy.1 →
    ∀ content, cleared.lookup q ≠ some (.file content)
  below : ∀ copy ∈ copies, copy.1 ≠ []

variable {cleared t : Workspace Name} {copies done : List (SourceFile Name)}
  {copy : SourceFile Name}

omit [LawfulEqOrd Name] in
theorem Copied.lookup_ne_directory (h : Copied cleared done t) (hfits : Fits cleared copies)
    (hdone : done ⊆ copies) (hcopy : copy ∈ copies)
    (hfree : cleared.lookup copy.1 ≠ some .directory) : t.lookup copy.1 ≠ some .directory := by
  by_cases hbelow : ∃ other ∈ done, copy.1 <:+ other.1
  · obtain ⟨other, hother, hsuffix⟩ := hbelow
    rw [hfits.apart copy hcopy other (hdone hother) hsuffix, h.file other hother]
    exact nofun
  · push Not at hbelow
    rw [h.rest copy.1 hbelow]
    exact hfree

omit [LawfulEqOrd Name] in
theorem Copied.lookup_ne_file (h : Copied cleared done t) (hfits : Fits cleared copies)
    (hdone : done ⊆ copies) (hcopy : copy ∈ copies) {q : List Name} (hq : q <:+ copy.1)
    (hne : q ≠ copy.1) (content : List UInt8) : t.lookup q ≠ some (.file content) := by
  by_cases hbelow : ∃ other ∈ done, q <:+ other.1
  · obtain ⟨other, hother, hsuffix⟩ := hbelow
    rw [h.directory other hother q hsuffix]
    · exact nofun
    · rintro rfl
      exact hne (by rw [hfits.apart other (hdone hother) copy hcopy hq])
  · push Not at hbelow
    rw [h.rest q hbelow]
    exact hfits.above copy hcopy q hq hne content

theorem Copied.step (h : Copied cleared done t) (hfits : Fits cleared copies)
    (hdone : done ⊆ copies) (hcopy : copy ∈ copies)
    (hfree : cleared.lookup copy.1 ≠ some .directory) :
    ∃ u, Yields (copyBack copy) t (.ok ⟨⟩) u ∧ Copied cleared (done ++ [copy]) u := by
  obtain ⟨path, content⟩ := copy
  obtain ⟨name, dir, rfl⟩ := List.exists_cons_of_ne_nil (hfits.below _ hcopy)
  have hinner : ∀ q, q <:+ dir → q <:+ name :: dir ∧ q ≠ name :: dir := by
    intro q hq
    refine ⟨hq.trans (List.suffix_cons name dir), ?_⟩
    rintro rfl
    exact absurd hq.length_le (by simp)
  obtain ⟨v, hcreate, hv⟩ : ∃ v, t.createDirAll dir = .ok v ∧
      ∀ q, v.lookup q = if q <:+ dir then some .directory else t.lookup q :=
    FileTree.createDirAll_ok fun q hq ↦
      h.lookup_ne_file hfits hdone hcopy (hinner q hq).1 (hinner q hq).2
  have hself : v.lookup (name :: dir) = t.lookup (name :: dir) := by
    rw [hv, if_neg fun hq ↦ (hinner _ hq).2 rfl]
  have hdir : v.lookup dir = some .directory := by
    rw [hv, if_pos (List.suffix_refl dir)]
  have hold : v.lookup (name :: dir) ≠ some .directory := by
    rw [hself]
    exact h.lookup_ne_directory hfits hdone hcopy hfree
  obtain ⟨u, hwrite, hu⟩ := FileTree.writeFile_ok content hdir hold
  refine ⟨u, ?_, ?_, ?_, ?_⟩
  · unfold copyBack
    exact (yields_bind_of_ok (yields_change_ok hcreate) _ _).mpr (yields_change_ok hwrite)
  · intro other hother
    rw [hu]
    rcases List.mem_append.mp hother with hother | hother
    · split_ifs with hpath
      · have heq := hfits.apart _ hcopy other (hdone hother) (hpath ▸ List.suffix_refl _)
        rw [← heq]
      · rw [hv, if_neg, h.file other hother]
        intro hq
        have heq := hfits.apart other (hdone hother) _ hcopy (hinner _ hq).1
        exact hpath (by rw [heq])
    · rw [List.mem_singleton.mp hother, if_pos rfl]
  · intro other hother q hq hne
    rw [hu]
    rcases List.mem_append.mp hother with hother | hother
    · rw [if_neg, hv]
      · split_ifs
        · rfl
        · exact h.directory other hother q hq hne
      · rintro rfl
        exact hne (by rw [← hfits.apart _ hcopy other (hdone hother) hq])
    · rw [List.mem_singleton.mp hother] at hq hne
      rw [if_neg (Ne.symm hne), hv,
        if_pos ((List.suffix_cons_iff.mp hq).resolve_left hne)]
  · intro q hq
    have hcopy' := hq _ (List.mem_append_right done (List.mem_singleton_self _))
    rw [hu, if_neg, hv, if_neg]
    · exact h.rest q fun other hother ↦ hq other (List.mem_append_left _ hother)
    · exact fun hdir ↦ hcopy' (hinner q hdir).1
    · rintro rfl
      exact hcopy' (List.suffix_refl _)

theorem Copied.blocked (h : Copied cleared done t) (hfits : Fits cleared copies)
    (hdone : done ⊆ copies) (hcopy : copy ∈ copies)
    (hfree : ∀ other ∈ done, cleared.lookup other.1 ≠ some .directory)
    (hblocked : cleared.lookup copy.1 = some .directory) :
    Yields (copyBack copy) t (.error (.io .isADirectory)) t := by
  have hself : t.lookup copy.1 = some .directory := by
    rw [h.rest copy.1, hblocked]
    intro other hother hsuffix
    apply hfree other hother
    rw [← hfits.apart copy hcopy other (hdone hother) hsuffix]
    exact hblocked
  have habove : ∀ q, q <:+ copy.1.tail → t.lookup q = some .directory := by
    intro q hq
    by_cases heq : q = copy.1
    · rw [heq]
      exact hself
    · apply FileTree.lookup_above _ (hq.trans (List.tail_suffix _)) heq
      rw [hself]
      exact Option.some_ne_none _
  obtain ⟨v, hcreate, hv⟩ : ∃ v, t.createDirAll copy.1.tail = .ok v ∧
      ∀ q, v.lookup q = if q <:+ copy.1.tail then some .directory else t.lookup q := by
    apply FileTree.createDirAll_ok
    intro q hq content
    rw [habove q hq]
    exact nofun
  have hsame : v = t := by
    apply FileTree.ext_lookup
    intro q
    rw [hv]
    split_ifs with hq
    · exact (habove q hq).symm
    · rfl
  rw [hsame] at hcreate
  unfold copyBack
  exact (yields_bind_of_ok (yields_change_ok hcreate) _ _).mpr
    (yields_change_error (FileTree.writeFile_directory _ hself))

omit [LawfulEqOrd Name] [DecidableEq Name] in
theorem copied_nil (cleared : Workspace Name) : Copied cleared [] cleared :=
  ⟨nofun, nofun, fun _ _ ↦ rfl⟩

theorem yields_copyBacks (hfits : Fits cleared copies) (hdone : done ⊆ copies)
    (hfree : ∀ copy ∈ done, cleared.lookup copy.1 ≠ some .directory) :
    ∃ t, Yields (done.forM copyBack) cleared (.ok ⟨⟩) t ∧ Copied cleared done t := by
  refine yields_forM_ok (I := fun before t ↦ Copied cleared before t) [] ?_ (copied_nil cleared)
  intro before rest copy t hsplit ht
  rw [List.nil_append] at hsplit
  have hbefore : before ⊆ done := by
    rw [hsplit]
    exact List.subset_append_left _ _
  have hcopy : copy ∈ done := by
    rw [hsplit]
    exact List.mem_append_right before List.mem_cons_self
  exact ht.step hfits (List.Subset.trans hbefore hdone) (hdone hcopy) (hfree copy hcopy)

/-! ## Removing empty directories -/

section

variable [OsString Name] {options : WorkspaceOptions}

/-- Only directories below `dir` are gone, none of them at or below an excluded name. -/
def Pruned (options : WorkspaceOptions) (dir : List Name) (s t : Workspace Name) : Prop :=
  ∀ q, t.lookup q = s.lookup q ∨ (s.lookup q = some .directory ∧ t.lookup q = none ∧
    dir <:+ q ∧ q ≠ dir ∧ ∀ name ∈ q, isExcluded options name = false)

/-- What the loop over a directory has done, and that what it has seen is gone if it says so. -/
structure Emptied (options : WorkspaceOptions) (dir : List Name) (s : Workspace Name)
    (done : List (Name × FileEntry (List UInt8))) (empty : Bool) (t : Workspace Name) : Prop where
  pruned : ∀ q, t.lookup q = s.lookup q ∨ (s.lookup q = some .directory ∧ t.lookup q = none ∧
    (∃ child ∈ done, child.1 :: dir <:+ q) ∧ ∀ name ∈ q, isExcluded options name = false)
  gone : empty = true → ∀ child ∈ done, t.lookup (child.1 :: dir) = none

variable {dir : List Name} {s t : Workspace Name} {done : List (Name × FileEntry (List UInt8))}
  {child : Name × FileEntry (List UInt8)} {empty : Bool}

omit [LawfulEqOrd Name] [DecidableEq Name] in
theorem Emptied.keep (h : Emptied options dir s done empty t) :
    Emptied options dir s (done ++ [child]) false t := by
  refine ⟨fun q ↦ (h.pruned q).imp_right ?_, nofun⟩
  rintro ⟨hs, ht, ⟨other, hother, hq⟩, hnames⟩
  exact ⟨hs, ht, ⟨other, List.mem_append_left _ hother, hq⟩, hnames⟩

omit [LawfulEqOrd Name] [DecidableEq Name] in
theorem Emptied.lookup_next (h : Emptied options dir s done empty t)
    (hfresh : child.1 ∉ done.map Prod.fst) :
    t.lookup (child.1 :: dir) = s.lookup (child.1 :: dir) := by
  rcases h.pruned (child.1 :: dir) with heq | ⟨-, -, ⟨other, hother, hq⟩, -⟩
  · exact heq
  · obtain ⟨heq, -⟩ := List.cons.inj (hq.eq_of_length (by simp))
    exact absurd (heq ▸ List.mem_map_of_mem hother) hfresh

omit [LawfulEqOrd Name] [DecidableEq Name] in
theorem Emptied.below (h : Emptied options dir s done empty t) {u : Workspace Name}
    (hu : Pruned options (child.1 :: dir) t u) :
    ∀ q, u.lookup q = s.lookup q ∨ (s.lookup q = some .directory ∧ u.lookup q = none ∧
      (∃ other ∈ done ++ [child], other.1 :: dir <:+ q) ∧
        ∀ name ∈ q, isExcluded options name = false) := by
  intro q
  rcases hu q with heq | ⟨ht, hnone, hsuffix, -, hnames⟩
  · rw [heq]
    rcases h.pruned q with hs | ⟨hs, ht, ⟨other, hother, hsuffix⟩, hnames⟩
    · exact Or.inl hs
    · exact Or.inr ⟨hs, ht, ⟨other, List.mem_append_left _ hother, hsuffix⟩, hnames⟩
  · rcases h.pruned q with heq | ⟨hs, ht', -, -⟩
    · exact Or.inr ⟨heq ▸ ht, hnone,
        ⟨child, List.mem_append_right done (List.mem_singleton_self _), hsuffix⟩, hnames⟩
    · rw [ht'] at ht
      cases ht

theorem Emptied.step (h : Emptied options dir s done empty t)
    {recurse : List Name → Eff WorkspaceError (Workspace Name) Bool}
    (hmem : child ∈ s.readDir dir) (hfresh : child.1 ∉ done.map Prod.fst)
    (hrecurse : t.lookup (child.1 :: dir) = some .directory →
      isExcluded options child.1 = false →
      ∃ b u, Yields (recurse (child.1 :: dir)) t (.ok b) u ∧
        Pruned options (child.1 :: dir) t u ∧
          (b = true → ∀ name, u.lookup (name :: child.1 :: dir) = none))
    (hnames : ∀ name ∈ dir, isExcluded options name = false) :
    ∃ c u, Yields (removeEmptyChild options recurse dir empty child) t (.ok c) u ∧
      Emptied options dir s (done ++ [child]) c u := by
  obtain ⟨name, entry⟩ := child
  have hchild : t.lookup (name :: dir) = some entry :=
    (h.lookup_next hfresh).trans (FileTree.mem_readDir.mp hmem)
  cases entry with
  | file content => exact ⟨false, t, rfl, h.keep⟩
  | directory =>
      cases hexcluded : isExcluded options name with
      | true =>
          refine ⟨false, t, ?_, h.keep⟩
          unfold removeEmptyChild
          simp only [hexcluded, if_true]
          rfl
      | false =>
          obtain ⟨b, u, hrun, hu, hempty⟩ := hrecurse hchild hexcluded
          have hunfold : removeEmptyChild options recurse dir empty (name, .directory) = (do
              let childEmpty ← recurse (name :: dir)
              if childEmpty then do
                change .io fun workspace ↦ workspace.removeDir name dir
                pure empty
              else pure false) := by
            unfold removeEmptyChild
            simp only [hexcluded]
            rfl
          rw [hunfold]
          cases b with
          | false => exact ⟨false, u, (yields_bind_of_ok hrun _ _).mpr rfl, h.below hu, nofun⟩
          | true =>
              have hself : u.lookup (name :: dir) = some .directory := by
                rcases hu (name :: dir) with heq | ⟨-, -, -, hne, -⟩
                · exact heq.trans hchild
                · exact absurd rfl hne
              obtain ⟨v, hremove, hv⟩ := FileTree.removeDir_ok hself (hempty rfl)
              refine ⟨empty, v, (yields_bind_of_ok hrun _ _).mpr
                ((yields_bind_of_ok (yields_change_ok hremove) _ _).mpr rfl), ?_, ?_⟩
              · intro q
                rw [hv]
                split_ifs with hq
                · subst hq
                  refine Or.inr ⟨FileTree.mem_readDir.mp hmem, rfl, ⟨_, List.mem_append_right done
                    (List.mem_singleton_self _), List.suffix_refl _⟩, fun n hn ↦ ?_⟩
                  rcases List.mem_cons.mp hn with rfl | hn
                  · exact hexcluded
                  · exact hnames n hn
                · exact h.below hu q
              · intro hflag other hother
                rw [hv]
                split_ifs with hq
                · rfl
                · rcases List.mem_append.mp hother with hother | hother
                  · have hgone := h.gone hflag other hother
                    rcases hu (other.1 :: dir) with heq | ⟨-, hnone, -⟩
                    · exact heq.trans hgone
                    · exact hnone
                  · exact absurd (by rw [List.mem_singleton.mp hother]) hq

/-- One directory and everything below it: the call never fails, and it says that the directory
is left without entries only if it is. -/
theorem yields_removeEmptyManagedDirectories (depth : ℕ) (hdir : s.lookup dir = some .directory)
    (hdepth : ∀ q, s.lookup q ≠ none → dir <:+ q → q.length < dir.length + depth)
    (hnames : ∀ name ∈ dir, isExcluded options name = false) :
    ∃ b t, Yields (removeEmptyManagedDirectories options depth dir) s (.ok b) t ∧
      Pruned options dir s t ∧ (b = true → ∀ name, t.lookup (name :: dir) = none) := by
  induction depth generalizing dir s with
  | zero =>
      have hlength := hdepth dir (by rw [hdir]; exact Option.some_ne_none _) (List.suffix_refl dir)
      omega
  | succ depth ih =>
      obtain ⟨empty, t, hloop, ht⟩ : ∃ empty t,
          Yields ((s.readDir dir).foldlM
            (removeEmptyChild options (removeEmptyManagedDirectories options depth) dir) true)
            s (.ok empty) t ∧ Emptied options dir s ([] ++ s.readDir dir) empty t := by
        apply yields_foldlM_ok
        · intro before rest child empty t hsplit ht
          rw [List.nil_append] at hsplit
          have hmem : child ∈ s.readDir dir := by
            rw [hsplit]
            exact List.mem_append_right before List.mem_cons_self
          have hfresh : child.1 ∉ before.map Prod.fst := by
            have hkeys := FileTree.nodup_names s dir
            rw [hsplit, List.map_append, List.map_cons] at hkeys
            exact fun h ↦ List.disjoint_of_nodup_append hkeys h List.mem_cons_self
          refine ht.step hmem hfresh (fun hchild hexcluded ↦ ?_) hnames
          apply ih hchild
          · intro q hq hsuffix
            have hsome : s.lookup q ≠ none := by
              rcases ht.pruned q with heq | ⟨-, hnone, -⟩
              · rw [← heq]
                exact hq
              · exact absurd hnone hq
            have hlength := hdepth q hsome ((List.suffix_cons _ _).trans hsuffix)
            rw [List.length_cons]
            omega
          · intro name hname
            rcases List.mem_cons.mp hname with rfl | hname
            · exact hexcluded
            · exact hnames name hname
        · exact ⟨fun _ ↦ Or.inl rfl, fun _ _ h ↦ by cases h⟩
      rw [List.nil_append] at ht
      refine ⟨empty && dir ≠ [], t, ?_, ?_, ?_⟩
      · unfold removeEmptyManagedDirectories
        rw [yields_get_bind]
        exact (yields_bind_of_ok hloop _ _).mpr (yields_pure.mpr ⟨rfl, rfl⟩)
      · intro q
        refine (ht.pruned q).imp_right ?_
        rintro ⟨hs, hnone, ⟨child, -, hq⟩, hnames'⟩
        refine ⟨hs, hnone, (List.suffix_cons _ _).trans hq, ?_, hnames'⟩
        rintro rfl
        exact absurd hq.length_le (by simp)
      · intro hb name
        rw [Bool.and_eq_true] at hb
        rcases ht.pruned (name :: dir) with heq | ⟨-, hnone, -⟩
        · by_contra hsome
          obtain ⟨entry, hentry⟩ := Option.ne_none_iff_exists'.mp (heq ▸ hsome)
          exact hsome (ht.gone hb.1 (name, entry) (FileTree.mem_readDir.mpr hentry))
        · exact hnone

end

end Fabushi.WorkspaceEngine
