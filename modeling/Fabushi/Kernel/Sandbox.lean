import Fabushi.Library.Joined
import Fabushi.Library.Text

/-!
# The file system sandbox

`sandbox.rs`: a policy lists workspace roots as texts. A path of a request is brought into a
normal form and has to be one of the roots, or to go on behind one of them after a slash. The
containment that this stands for is one of lists of components: those of a root come first
in the path. The two agree for every root but the file system root, which ends in the slash.
-/

namespace Fabushi.Kernel

inductive SandboxDecision where
  | allow
  | ask
  | deny
  deriving DecidableEq, Repr

inductive FilesystemAccess where
  | read
  | write
  | create
  | delete
  deriving DecidableEq, Repr

inductive RiskLevel where
  | readOnly
  | workspaceWrite
  | systemWrite
  | externalSideEffect
  deriving DecidableEq, Repr

inductive SandboxError where
  | invalidPath
  deriving DecidableEq, Repr

structure SandboxVerdict where
  decision : SandboxDecision
  risk : RiskLevel
  reason : String
  deriving DecidableEq, Repr

namespace SandboxVerdict

def allowed (risk : RiskLevel) (reason : String) : SandboxVerdict :=
  { decision := .allow, risk, reason }

def ask (risk : RiskLevel) (reason : String) : SandboxVerdict :=
  { decision := .ask, risk, reason }

def denied (risk : RiskLevel) (reason : String) : SandboxVerdict :=
  { decision := .deny, risk, reason }

end SandboxVerdict

/-! ## Paths -/

/-- `std::path::Component` on Unix. -/
inductive Component where
  | rootDir
  | curDir
  | parentDir
  | normal (value : String)
  deriving DecidableEq, Repr

def isAbsolute (path : String) : Bool :=
  path.toList.head? = some '/'

/-- What a piece between slashes stands for; nothing, and `.` behind another one, is skipped. -/
def componentOf : List Char → Option Component
  | [] => none
  | ['.'] => none
  | ['.', '.'] => some .parentDir
  | piece => some (.normal (String.ofList piece))

/-- `Path::components`: a relative path may start with `.`. -/
def components (path : String) : List Component :=
  let pieces := Joined.pieces '/' path
  if isAbsolute path then .rootDir :: pieces.filterMap componentOf
  else match pieces with
    | ['.'] :: rest => .curDir :: rest.filterMap componentOf
    | _ => pieces.filterMap componentOf

def pushPart (parts : List String) : Component → Option (List String)
  | .rootDir => some parts
  | .normal value => some (parts ++ [value])
  | .curDir => some parts
  | .parentDir => none

def normalizeAbsolutePathForEvaluation (path : String) : Option String :=
  if isAbsolute path then do
    let parts ← (components path).foldlM pushPart []
    some ("/" ++ "/".intercalate parts)
  else none

def normalizeAbsolutePath (path : String) : Except SandboxError String :=
  match normalizeAbsolutePathForEvaluation path with
  | some normalized => .ok normalized
  | none => .error .invalidPath

def pathWithin (path root : String) : Bool :=
  path = root || (Text.stripPrefix root path).any fun suffix ↦ suffix.toList.head? = some '/'

/-! ## Normal forms -/

def normalPart : Component → Option String
  | .normal value => some value
  | _ => none

def normalComponents (path : String) : List String :=
  (components path).filterMap normalPart

def rooted (parts : List String) : String :=
  "/" ++ "/".intercalate parts

structure PlainPart (part : String) : Prop where
  ne_nil : part.toList ≠ []
  ne_dot : part.toList ≠ ['.']
  ne_parent : part.toList ≠ ['.', '.']
  notMem : '/' ∉ part.toList

theorem foldlM_pushPart {cs : List Component} {parts result : List String} :
    cs.foldlM pushPart parts = some result ↔
      .parentDir ∉ cs ∧ result = parts ++ cs.filterMap normalPart := by
  induction cs generalizing parts with
  | nil => simp [eq_comm]
  | cons c cs ih =>
      rw [List.foldlM_cons]
      cases c with
      | rootDir =>
          have hnone : normalPart .rootDir = none := rfl
          rw [List.filterMap_cons_none hnone]
          simpa [pushPart] using ih
      | curDir =>
          have hnone : normalPart .curDir = none := rfl
          rw [List.filterMap_cons_none hnone]
          simpa [pushPart] using ih
      | parentDir => simp [pushPart]
      | normal value =>
          have hsome : normalPart (.normal value) = some value := rfl
          have hrest := @ih (parts ++ [value])
          rw [List.append_assoc, List.singleton_append] at hrest
          rw [List.filterMap_cons_some hsome]
          simpa [pushPart] using hrest

theorem normalizeAbsolutePathForEvaluation_eq_some {path text : String} :
    normalizeAbsolutePathForEvaluation path = some text ↔
      isAbsolute path = true ∧ .parentDir ∉ components path ∧
        text = rooted (normalComponents path) := by
  unfold normalizeAbsolutePathForEvaluation
  split_ifs with habsolute
  · rw [Option.bind_eq_bind, Option.bind_eq_some_iff]
    constructor
    · rintro ⟨parts, hparts, htext⟩
      obtain ⟨hparent, rfl⟩ := foldlM_pushPart.mp hparts
      exact ⟨habsolute, hparent, (Option.some.inj htext).symm⟩
    · rintro ⟨-, hparent, rfl⟩
      exact ⟨_, foldlM_pushPart.mpr ⟨hparent, rfl⟩, rfl⟩
  · exact iff_of_false nofun fun h ↦ habsolute h.1

theorem componentOf_eq_some_normal {piece : List Char} {value : String}
    (h : componentOf piece = some (.normal value)) :
    value = String.ofList piece ∧ piece ≠ [] ∧ piece ≠ ['.'] ∧ piece ≠ ['.', '.'] := by
  unfold componentOf at h
  split at h
  · cases h
  · cases h
  · cases h
  · rename_i hnil hdot hparent
    cases h
    exact ⟨rfl, hnil, hdot, hparent⟩

theorem componentOf_plain {part : String} (h : PlainPart part) :
    componentOf part.toList = some (.normal part) := by
  unfold componentOf
  split
  · rename_i heq
    exact absurd heq h.ne_nil
  · rename_i heq
    exact absurd heq h.ne_dot
  · rename_i heq
    exact absurd heq h.ne_parent
  · rw [String.ofList_toList]

theorem plainPart_of_mem {path part : String} (h : part ∈ normalComponents path) :
    PlainPart part := by
  have hpiece : ∃ piece ∈ Joined.pieces '/' path,
      componentOf piece = some (.normal part) := by
    obtain ⟨component, hmem, hpart⟩ := List.mem_filterMap.mp h
    have hcomponent : component = .normal part := by
      cases component with
      | normal value => exact congrArg _ (Option.some.inj hpart)
      | _ => cases hpart
    subst hcomponent
    unfold components at hmem
    split_ifs at hmem with habsolute
    · rcases List.mem_cons.mp hmem with heq | hmem
      · cases heq
      · exact List.mem_filterMap.mp hmem
    · dsimp only at hmem
      split at hmem
      · rename_i rest hpieces
        rcases List.mem_cons.mp hmem with heq | hmem
        · cases heq
        · obtain ⟨piece, hrest, hpiece⟩ := List.mem_filterMap.mp hmem
          rw [hpieces]
          exact ⟨piece, List.mem_cons_of_mem _ hrest, hpiece⟩
      · exact List.mem_filterMap.mp hmem
  obtain ⟨piece, hmem, hpiece⟩ := hpiece
  obtain ⟨rfl, hnil, hdot, hparent⟩ := componentOf_eq_some_normal hpiece
  refine ⟨?_, ?_, ?_, ?_⟩ <;> rw [String.toList_ofList]
  · exact hnil
  · exact hdot
  · exact hparent
  · intro hslash
    exact (Joined.notMem_of_mem_splitOn hmem hslash).2 rfl

theorem pieces_rooted {parts : List String} (h : ∀ part ∈ parts, PlainPart part) :
    Joined.pieces '/' (rooted parts) =
      [] :: (if parts = [] then [[]] else parts.map String.toList) := by
  have hempty : Joined.pieces '/' "" = [[]] := rfl
  have hrooted : rooted parts = "" ++ String.singleton '/' ++ "/".intercalate parts := rfl
  rw [hrooted, Joined.pieces_join, hempty, List.singleton_append]
  congr 1
  split_ifs with hparts
  · rw [hparts]
    rfl
  · rw [Joined.pieces, String.toList_intercalate]
    apply List.splitOn_intercalate
    · intro piece hpiece
      obtain ⟨part, hpart, rfl⟩ := List.mem_map.mp hpiece
      exact (h part hpart).notMem
    · rwa [ne_eq, List.map_eq_nil_iff]

theorem isAbsolute_rooted (parts : List String) : isAbsolute (rooted parts) = true := by
  rw [isAbsolute, rooted, String.toList_append]
  rfl

theorem components_rooted {parts : List String} (h : ∀ part ∈ parts, PlainPart part) :
    components (rooted parts) = .rootDir :: parts.map .normal := by
  have hskip : componentOf [] = none := rfl
  have hparts : (parts.map String.toList).filterMap componentOf = parts.map .normal := by
    rw [List.filterMap_map]
    induction parts with
    | nil => rfl
    | cons part parts ih =>
        have hpart : (componentOf ∘ String.toList) part = some (.normal part) :=
          componentOf_plain (h part List.mem_cons_self)
        rw [List.filterMap_cons_some hpart, ih fun p hp ↦ h p (List.mem_cons_of_mem part hp),
          List.map_cons]
  rw [components, if_pos (isAbsolute_rooted parts), pieces_rooted h,
    List.filterMap_cons_none hskip]
  split_ifs with hnil
  · rw [hnil]
    rfl
  · rw [hparts]

theorem normalComponents_rooted {parts : List String} (h : ∀ part ∈ parts, PlainPart part) :
    normalComponents (rooted parts) = parts := by
  have hroot : normalPart .rootDir = none := rfl
  have hall : normalPart ∘ Component.normal = some := rfl
  rw [normalComponents, components_rooted h, List.filterMap_cons_none hroot,
    List.filterMap_map, hall, List.filterMap_some]

theorem normalize_idempotent {path text : String}
    (h : normalizeAbsolutePathForEvaluation path = some text) :
    normalizeAbsolutePathForEvaluation text = some text := by
  obtain ⟨-, -, rfl⟩ := normalizeAbsolutePathForEvaluation_eq_some.mp h
  have hplain : ∀ part ∈ normalComponents path, PlainPart part := fun _ ↦ plainPart_of_mem
  rw [normalizeAbsolutePathForEvaluation_eq_some, normalComponents_rooted hplain,
    components_rooted hplain]
  refine ⟨isAbsolute_rooted _, ?_, rfl⟩
  simp

theorem normalizeAbsolutePath_eq_ok {path text : String} :
    normalizeAbsolutePath path = .ok text ↔
      normalizeAbsolutePathForEvaluation path = some text := by
  unfold normalizeAbsolutePath
  cases normalizeAbsolutePathForEvaluation path <;> simp

/-! ## Policies -/

/-- The roots are those that `with_workspace_root` accepts, in their normal form. -/
structure SandboxPolicy where
  workspaceRoots : List String
  allowWorkspaceReads : Bool
  allowWorkspaceWrites : Bool
  normalized : ∀ root ∈ workspaceRoots, normalizeAbsolutePathForEvaluation root = some root

namespace SandboxPolicy

def desktopDefault : SandboxPolicy where
  workspaceRoots := []
  allowWorkspaceReads := true
  allowWorkspaceWrites := true
  normalized := nofun

def withWorkspaceRoot (policy : SandboxPolicy) (root : String) :
    Except SandboxError SandboxPolicy :=
  match hroot : normalizeAbsolutePath root with
  | .error error => .error error
  | .ok normalized =>
      if normalized ∈ policy.workspaceRoots then .ok policy
      else .ok { policy with
        workspaceRoots := (policy.workspaceRoots ++ [normalized]).mergeSort (· ≤ ·)
        normalized := by
          intro other hother
          rw [List.mem_mergeSort, List.mem_append, List.mem_singleton] at hother
          rcases hother with hother | rfl
          · exact policy.normalized other hother
          · exact normalize_idempotent (normalizeAbsolutePath_eq_ok.mp hroot) }

end SandboxPolicy

def filesystemRisk : FilesystemAccess → RiskLevel
  | .read => .readOnly
  | .write | .create | .delete => .workspaceWrite

def SandboxPolicy.evaluateFilesystem (policy : SandboxPolicy) (access : FilesystemAccess)
    (path : String) : SandboxVerdict :=
  match normalizeAbsolutePathForEvaluation path with
  | none =>
      .denied (filesystemRisk access) "filesystem path is not absolute or contains traversal"
  | some normalized =>
      if policy.workspaceRoots = [] ∨
          ¬ policy.workspaceRoots.any fun root ↦ pathWithin normalized root then
        .denied (filesystemRisk access) "filesystem path is outside configured workspace roots"
      else match access with
        | .read =>
            if policy.allowWorkspaceReads then
              .allowed .readOnly "read is inside an approved workspace root"
            else .denied .readOnly "workspace reads are disabled by Mahayana sandbox policy"
        | .write | .create | .delete =>
            if policy.allowWorkspaceWrites then
              .ask .workspaceWrite "workspace mutation is sandboxed and requires policy approval"
            else
              .denied .workspaceWrite "workspace writes are disabled by Mahayana sandbox policy"

/-! ## The root check -/

def PassesRootCheck (policy : SandboxPolicy) (access : FilesystemAccess) (path : String) : Prop :=
  (policy.evaluateFilesystem access path).reason ∉
    ["filesystem path is not absolute or contains traversal",
      "filesystem path is outside configured workspace roots"]

instance (policy : SandboxPolicy) (access : FilesystemAccess) (path : String) :
    Decidable (PassesRootCheck policy access path) :=
  inferInstanceAs (Decidable (_ ∉ _))

/-- The path is absolute, does not climb, and the components of a root come first in it. -/
def Confined (policy : SandboxPolicy) (path : String) : Prop :=
  isAbsolute path = true ∧ .parentDir ∉ components path ∧
    ∃ root ∈ policy.workspaceRoots, normalComponents root <+: normalComponents path

instance (policy : SandboxPolicy) (path : String) : Decidable (Confined policy path) :=
  inferInstanceAs (Decidable (_ ∧ _ ∧ _))

theorem passesRootCheck_iff {policy : SandboxPolicy} {access : FilesystemAccess}
    {path : String} : PassesRootCheck policy access path ↔
      ∃ normalized, normalizeAbsolutePathForEvaluation path = some normalized ∧
        ∃ root ∈ policy.workspaceRoots, pathWithin normalized root = true := by
  unfold PassesRootCheck SandboxPolicy.evaluateFilesystem
  cases hnormalized : normalizeAbsolutePathForEvaluation path with
  | none => simp [SandboxVerdict.denied]
  | some normalized =>
      have hany : (policy.workspaceRoots.any fun root ↦ pathWithin normalized root) = true ↔
          ∃ root ∈ policy.workspaceRoots, pathWithin normalized root = true := List.any_eq_true
      by_cases hinside : ∃ root ∈ policy.workspaceRoots, pathWithin normalized root = true
      · have hne : policy.workspaceRoots ≠ [] := by
          obtain ⟨root, hroot, -⟩ := hinside
          exact List.ne_nil_of_mem hroot
        have hpass : ¬ (policy.workspaceRoots = [] ∨
            ¬ (policy.workspaceRoots.any fun root ↦ pathWithin normalized root) = true) := by
          rw [not_or, not_not]
          exact ⟨hne, hany.mpr hinside⟩
        apply iff_of_true _ ⟨normalized, rfl, hinside⟩
        dsimp only
        rw [if_neg hpass]
        cases access <;> dsimp only <;> split_ifs <;> decide
      · have hfail : policy.workspaceRoots = [] ∨
            ¬ (policy.workspaceRoots.any fun root ↦ pathWithin normalized root) = true :=
          Or.inr (hany.not.mpr hinside)
        apply iff_of_false
        · dsimp only
          rw [if_pos hfail]
          simp [SandboxVerdict.denied]
        · rintro ⟨_, heq, hroot⟩
          cases heq
          exact hinside hroot

theorem stripPrefix_eq_some {start text rest : String} :
    Text.stripPrefix start text = some rest ↔ text = start ++ rest := by
  unfold Text.stripPrefix
  rw [← String.toList_inj, String.toList_append]
  split_ifs with h
  · obtain ⟨suffix, hsuffix⟩ := List.isPrefixOf_iff_prefix.mp h
    rw [← hsuffix, List.drop_left, Option.some_inj, List.append_cancel_left_eq,
      ← String.toList_inj, String.toList_ofList]
  · apply iff_of_false nofun
    intro heq
    rw [List.isPrefixOf_iff_prefix] at h
    exact h ⟨rest.toList, heq.symm⟩

theorem pathWithin_iff {path root : String} : pathWithin path root = true ↔
    Joined.pieces '/' root <+: Joined.pieces '/' path := by
  have hslash : ∀ suffix : String, suffix.toList.head? = some '/' ↔
      ∃ rest, suffix = String.singleton '/' ++ rest := by
    intro suffix
    rw [List.head?_eq_some_iff]
    constructor
    · rintro ⟨rest, heq⟩
      refine ⟨String.ofList rest, ?_⟩
      rw [← String.toList_inj, heq, String.toList_append, String.toList_ofList]
      rfl
    · rintro ⟨rest, rfl⟩
      exact ⟨rest.toList, String.toList_append⟩
  rw [Joined.pieces_prefix_iff, pathWithin, Bool.or_eq_true, decide_eq_true_eq]
  apply or_congr_right
  rw [Option.any_eq_true]
  constructor
  · rintro ⟨suffix, hsuffix, hhead⟩
    obtain ⟨rest, rfl⟩ := (hslash suffix).mp (of_decide_eq_true hhead)
    refine ⟨rest, ?_⟩
    rw [stripPrefix_eq_some.mp hsuffix, String.append_assoc]
  · rintro ⟨rest, rfl⟩
    refine ⟨String.singleton '/' ++ rest, ?_, decide_eq_true ((hslash _).mpr ⟨rest, rfl⟩)⟩
    rw [stripPrefix_eq_some, String.append_assoc]

theorem pathWithin_rooted {parts root : List String} (hparts : ∀ part ∈ parts, PlainPart part)
    (hroot : ∀ part ∈ root, PlainPart part) :
    pathWithin (rooted parts) (rooted root) = true ↔
      root <+: parts ∧ (root = [] → parts = []) := by
  have hinjective : Function.Injective String.toList := fun _ _ ↦ String.toList_inj.mp
  rw [pathWithin_iff, pieces_rooted hparts, pieces_rooted hroot, List.cons_prefix_cons]
  cases root with
  | nil =>
      cases parts with
      | nil => simp
      | cons part parts =>
          have hne := (hparts part List.mem_cons_self).ne_nil
          simp [Ne.symm hne]
  | cons first root =>
      have hne := (hroot first List.mem_cons_self).ne_nil
      cases parts with
      | nil => simp [hne]
      | cons part parts =>
          rw [if_neg (List.cons_ne_nil _ _), if_neg (List.cons_ne_nil _ _),
            List.prefix_map_iff_of_injective hinjective]
          simp

theorem SandboxPolicy.eq_rooted (policy : SandboxPolicy) {root : String}
    (h : root ∈ policy.workspaceRoots) : root = rooted (normalComponents root) :=
  (normalizeAbsolutePathForEvaluation_eq_some.mp (policy.normalized root h)).2.2

theorem SandboxPolicy.eq_slash_iff (policy : SandboxPolicy) {root : String}
    (h : root ∈ policy.workspaceRoots) : root = "/" ↔ normalComponents root = [] := by
  constructor
  · rintro rfl
    exact @normalComponents_rooted [] nofun
  · intro hnil
    rw [policy.eq_rooted h, hnil]
    rfl

theorem passesRootCheck_components {policy : SandboxPolicy} {access : FilesystemAccess}
    {path : String} : PassesRootCheck policy access path ↔
      isAbsolute path = true ∧ .parentDir ∉ components path ∧
        ∃ root ∈ policy.workspaceRoots, normalComponents root <+: normalComponents path ∧
          (root = "/" → normalComponents path = []) := by
  have hwithin : ∀ root ∈ policy.workspaceRoots,
      (pathWithin (rooted (normalComponents path)) root = true ↔
        normalComponents root <+: normalComponents path ∧
          (root = "/" → normalComponents path = [])) := by
    intro root hroot
    rw [policy.eq_slash_iff hroot]
    conv_lhs => rw [policy.eq_rooted hroot]
    exact pathWithin_rooted (fun _ ↦ plainPart_of_mem) (fun _ ↦ plainPart_of_mem)
  rw [passesRootCheck_iff]
  constructor
  · rintro ⟨normalized, hnormalized, root, hroot, hinside⟩
    obtain ⟨habsolute, hparent, rfl⟩ :=
      normalizeAbsolutePathForEvaluation_eq_some.mp hnormalized
    exact ⟨habsolute, hparent, root, hroot, (hwithin root hroot).mp hinside⟩
  · rintro ⟨habsolute, hparent, root, hroot, hinside⟩
    exact ⟨_, normalizeAbsolutePathForEvaluation_eq_some.mpr ⟨habsolute, hparent, rfl⟩, root,
      hroot, (hwithin root hroot).mpr hinside⟩

/-- Only the file system root contains the path, which is not that root itself. -/
def UnderSlashOnly (policy : SandboxPolicy) (path : String) : Prop :=
  "/" ∈ policy.workspaceRoots ∧ isAbsolute path = true ∧ .parentDir ∉ components path ∧
    normalComponents path ≠ [] ∧ ∀ root ∈ policy.workspaceRoots, root ≠ "/" →
      ¬ normalComponents root <+: normalComponents path

instance (policy : SandboxPolicy) (path : String) : Decidable (UnderSlashOnly policy path) :=
  inferInstanceAs (Decidable (_ ∧ _ ∧ _))

/-- A request passes the root check exactly within the configured roots, unless the path is
below the file system root and below no other one. -/
theorem confinement_exact_iff (policy : SandboxPolicy) (access : FilesystemAccess)
    (path : String) :
    (PassesRootCheck policy access path ↔ Confined policy path) ↔
      ¬ UnderSlashOnly policy path := by
  rw [passesRootCheck_components, Confined]
  constructor
  · rintro hiff ⟨hslash, habsolute, hparent, hne, honly⟩
    have hempty : normalComponents "/" = [] := (policy.eq_slash_iff hslash).mp rfl
    have hconfined : normalComponents "/" <+: normalComponents path := by
      rw [hempty]
      exact List.nil_prefix
    obtain ⟨-, -, root, hroot, hinside, hnil⟩ :=
      hiff.mpr ⟨habsolute, hparent, "/", hslash, hconfined⟩
    by_cases hroot' : root = "/"
    · exact hne (hnil hroot')
    · exact honly root hroot hroot' hinside
  · intro hexcept
    constructor
    · rintro ⟨habsolute, hparent, root, hroot, hinside, -⟩
      exact ⟨habsolute, hparent, root, hroot, hinside⟩
    · rintro ⟨habsolute, hparent, root, hroot, hinside⟩
      by_contra hfail
      have hnone : ∀ other ∈ policy.workspaceRoots,
          normalComponents other <+: normalComponents path →
            ¬ (other = "/" → normalComponents path = []) :=
        fun other hother hin hnil ↦ hfail ⟨habsolute, hparent, other, hother, hin, hnil⟩
      obtain ⟨hslash, hne⟩ := Classical.not_imp.mp (hnone root hroot hinside)
      apply hexcept
      refine ⟨hslash ▸ hroot, habsolute, hparent, hne, fun other hother hother' hin ↦ ?_⟩
      exact hnone other hother hin fun heq ↦ absurd heq hother'

/-- What is below the file system root is outside of it. -/
theorem confinement_fails_at_slash :
    ¬ ∀ (policy : SandboxPolicy) (access : FilesystemAccess) (path : String),
      PassesRootCheck policy access path ↔ Confined policy path := by
  intro h
  have hiff := h ⟨["/"], true, true, by decide +kernel⟩ .read "/etc"
  exact absurd (hiff.mpr (by decide +kernel)) (by decide +kernel)

example : (SandboxPolicy.desktopDefault.withWorkspaceRoot "//.").toOption.map
    (·.workspaceRoots) = some ["/"] := by
  decide +kernel

end Fabushi.Kernel
