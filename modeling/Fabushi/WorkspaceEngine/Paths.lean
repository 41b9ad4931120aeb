import Fabushi.Library.Joined
import Fabushi.WorkspaceEngine.Checkpoint

/-!
# Paths as text and back

The text of a path has no backslash, so the names read out of it hold neither separator. Such
names are plain: a path of plain names is read back from its text. A name that holds a backslash
or is no valid Unicode is not plain, and its text leads elsewhere.
-/

namespace Fabushi.WorkspaceEngine

variable {Name : Type} [OsString Name]

def PlainComponent (component : List Char) : Prop :=
  component ≠ [] ∧ component ≠ ['.'] ∧ component ≠ ['.', '.'] ∧ '/' ∉ component ∧
    '\\' ∉ component

def Plain (name : Name) : Prop :=
  ∃ component : List Char, PlainComponent component ∧
    name = OsString.ofString (String.ofList component)

theorem toList_pathString (path : List Name) :
    (pathString path).toList = (List.intercalate ['/']
      (path.reverse.map fun name ↦ (OsString.toStringLossy name).toList)).map
        normalizeSeparator := by
  rw [pathString, String.toList_ofList]

theorem backslash_notMem_pathString (path : List Name) : '\\' ∉ (pathString path).toList := by
  rw [toList_pathString, List.mem_map]
  rintro ⟨c, -, hc⟩
  unfold normalizeSeparator at hc
  split_ifs at hc with h
  · cases hc
  · exact h hc

/-! ## What is between the separators -/

theorem mem_intercalate {separator : List Char} {parts : List (List Char)} {c : Char}
    (h : c ∈ separator.intercalate parts) : c ∈ separator ∨ ∃ part ∈ parts, c ∈ part := by
  induction parts with
  | nil => simp [List.intercalate] at h
  | cons first parts ih =>
      cases parts with
      | nil =>
          refine Or.inr ⟨first, List.mem_singleton_self first, ?_⟩
          simpa [List.intercalate] using h
      | cons second parts =>
          rw [List.intercalate_cons_cons, List.mem_append, List.mem_append] at h
          rcases h with (hfirst | hseparator) | hrest
          · exact Or.inr ⟨first, List.mem_cons_self, hfirst⟩
          · exact Or.inl hseparator
          · exact (ih hrest).imp_right fun ⟨part, hpart, hc⟩ ↦
              ⟨part, List.mem_cons_of_mem first hpart, hc⟩

theorem pushComponent_eq_ok {text : String} {safe path : List Name} {component : List Char}
    (h : pushComponent text safe component = .ok path) :
    path = safe ∨ (component ≠ [] ∧ component ≠ ['.'] ∧ component ≠ ['.', '.'] ∧
      path = OsString.ofString (String.ofList component) :: safe) := by
  unfold pushComponent at h
  split_ifs at h with hskip hparent
  · exact Or.inl (Except.ok.inj h).symm
  · rw [not_or] at hskip
    exact Or.inr ⟨hskip.1, hskip.2, hparent, (Except.ok.inj h).symm⟩

theorem plain_of_foldlM {text : String} {components : List (List Char)} {safe path : List Name}
    (hcomponents : ∀ component ∈ components, '/' ∉ component ∧ '\\' ∉ component)
    (hsafe : ∀ name ∈ safe, Plain name)
    (h : components.foldlM (pushComponent text) safe = .ok path) : ∀ name ∈ path, Plain name := by
  induction components generalizing safe with
  | nil =>
      rw [← Except.ok.inj h]
      exact hsafe
  | cons component components ih =>
      rw [List.foldlM_cons, Result.bind_eq_ok] at h
      obtain ⟨next, hpush, hrest⟩ := h
      apply ih (fun c hc ↦ hcomponents c (List.mem_cons_of_mem component hc)) _ hrest
      obtain ⟨hslash, hback⟩ := hcomponents component List.mem_cons_self
      rcases pushComponent_eq_ok hpush with rfl | ⟨hne, hdot, hparent, rfl⟩
      · exact hsafe
      · intro name hname
        rcases List.mem_cons.mp hname with rfl | hname
        · exact ⟨component, ⟨hne, hdot, hparent, hslash, hback⟩, rfl⟩
        · exact hsafe name hname

theorem plain_of_safeRelative {text : String} {path : List Name}
    (h : safeRelative text = .ok path) (hback : '\\' ∉ text.toList) :
    ∀ name ∈ path, Plain name := by
  unfold safeRelative at h
  split_ifs at h with habsolute
  refine plain_of_foldlM (fun component hcomponent ↦ ⟨?_, ?_⟩) (fun name hname ↦ ?_) h
  · intro hslash
    exact (Joined.notMem_of_mem_splitOn hcomponent hslash).2 rfl
  · intro hmem
    exact hback (Joined.notMem_of_mem_splitOn hcomponent hmem).1
  · cases hname

/-! ## Reading the text of a plain path -/

theorem foldlM_pushComponent {text : String} {components : List (List Char)}
    (hplain : ∀ component ∈ components, PlainComponent component) (safe : List Name) :
    components.foldlM (pushComponent text) safe =
      .ok ((components.map fun component ↦ OsString.ofString (String.ofList component)).reverse ++
        safe) := by
  induction components generalizing safe with
  | nil => rfl
  | cons component components ih =>
      obtain ⟨hne, hdot, hparent, -, -⟩ := hplain component List.mem_cons_self
      have hpush : pushComponent text safe component =
          .ok (OsString.ofString (String.ofList component) :: safe) := by
        rw [pushComponent, if_neg (not_or.mpr ⟨hne, hdot⟩), if_neg hparent]
      rw [List.foldlM_cons, hpush]
      refine (ih (fun c hc ↦ hplain c (List.mem_cons_of_mem component hc)) _).trans ?_
      simp

theorem exists_components {path : List Name} (h : ∀ name ∈ path, Plain name) :
    ∃ components : List (List Char), (∀ component ∈ components, PlainComponent component) ∧
      path = components.map fun component ↦ OsString.ofString (String.ofList component) := by
  induction path with
  | nil => exact ⟨[], nofun, rfl⟩
  | cons name path ih =>
      obtain ⟨component, hcomponent, rfl⟩ := h name List.mem_cons_self
      obtain ⟨components, hall, rfl⟩ := ih fun n hn ↦ h n (List.mem_cons_of_mem _ hn)
      refine ⟨component :: components, ?_, rfl⟩
      intro c hc
      rcases List.mem_cons.mp hc with rfl | hc
      · exact hcomponent
      · exact hall c hc

theorem toList_pathString_plain {components : List (List Char)}
    (hplain : ∀ component ∈ components, PlainComponent component) :
    (pathString (components.map fun component ↦
      (OsString.ofString (String.ofList component) : Name))).toList =
      List.intercalate ['/'] components.reverse := by
  have hlossy : ((components.map fun component ↦
      (OsString.ofString (String.ofList component) : Name)).reverse.map
        fun name ↦ (OsString.toStringLossy name).toList) = components.reverse := by
    rw [← List.map_reverse, List.map_map]
    refine (List.map_congr_left fun component _ ↦ ?_).trans (List.map_id _)
    simp [OsString.toStringLossy_ofString]
  rw [toList_pathString, hlossy]
  refine (List.map_congr_left fun c hc ↦ ?_).trans (List.map_id _)
  unfold normalizeSeparator
  rw [if_neg]
  · rfl
  · rintro rfl
    rcases mem_intercalate hc with hseparator | ⟨part, hpart, hmem⟩
    · simp at hseparator
    · exact (hplain part (List.mem_reverse.mp hpart)).2.2.2.2 hmem

theorem safeRelative_pathString {path : List Name} (h : ∀ name ∈ path, Plain name)
    (hne : path ≠ []) : safeRelative (pathString path) = .ok path := by
  obtain ⟨components, hplain, rfl⟩ := exists_components h
  have hcomponents : components.reverse ≠ [] := by
    intro hnil
    rw [List.reverse_eq_nil_iff] at hnil
    exact hne (by rw [hnil, List.map_nil])
  have hplain' : ∀ component ∈ components.reverse, PlainComponent component :=
    fun component hmem ↦ hplain component (List.mem_reverse.mp hmem)
  have hsplit : (List.intercalate ['/'] components.reverse).splitOn '/' = components.reverse :=
    List.splitOn_intercalate '/' (fun component hmem ↦ (hplain' component hmem).2.2.2.1)
      hcomponents
  have hhead : (List.intercalate ['/'] components.reverse).head? ≠ some '/' := by
    intro hslash
    cases hparts : components.reverse with
    | nil => exact hcomponents hparts
    | cons first parts =>
        rw [hparts] at hslash hplain'
        obtain ⟨hfirst, -, -, hnone, -⟩ := hplain' first List.mem_cons_self
        apply hnone
        apply List.mem_of_mem_head?
        cases parts with
        | nil => simpa [List.intercalate] using hslash
        | cons second parts =>
            rw [List.intercalate_cons_cons, List.append_assoc,
              List.head?_append_of_ne_nil _ hfirst] at hslash
            exact hslash
  rw [safeRelative, toList_pathString_plain hplain, if_neg hhead, hsplit,
    foldlM_pushComponent hplain', List.append_nil, List.map_reverse, List.reverse_reverse]

end Fabushi.WorkspaceEngine
