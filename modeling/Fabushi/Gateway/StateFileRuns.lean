import Fabushi.Gateway.StateFile

/-!
# The state file after crashes

Some document stays readable wherever a write is cut off, but for one case: a crash has left
the backup alone, and the next write removes it before the new file is installed. A second
crash in between leaves nothing to read.
-/

namespace Fabushi.Gateway.StateFile

open Crashes

variable {codec : JsonCodec} {path : String}

/-- What the two files may hold: the state file some `allowed` bytes, the backup too where
there is no state file, and one of them is there once a write was completed. -/
structure Covered (allowed : Bytes → Prop) (completed : Prop) (disk : Disk) : Prop where
  state : ∀ bytes, disk .state = some bytes → allowed bytes
  backup : disk .state = none → ∀ bytes, disk .backup = some bytes → allowed bytes
  present : completed → disk .state ≠ none ∨ disk .backup ≠ none

/-- A write that has ended well has installed its document. -/
def Installed (bytes : Bytes) (answer : Except String Unit) (disk : Disk) : Prop :=
  answer = .ok () → disk .state = some bytes

section Steps

variable {allowed : Bytes → Prop} {completed : Prop} {disk : Disk} {bytes : Bytes} {id : String}

theorem Covered.congr (h : Covered allowed completed disk) {disk' : Disk}
    (hstate : disk' .state = disk .state) (hbackup : disk' .backup = disk .backup) :
    Covered allowed completed disk' := by
  obtain ⟨h₁, h₂, h₃⟩ := h
  rw [← hstate] at h₁ h₂ h₃
  rw [← hbackup] at h₂ h₃
  exact ⟨h₁, h₂, h₃⟩

theorem covered_of_state (hstate : disk .state = some bytes) (hallowed : allowed bytes) :
    Covered allowed completed disk := by
  refine ⟨?_, ?_, ?_⟩
  · intro bytes' h
    rw [hstate] at h
    exact Option.some.inj h ▸ hallowed
  · intro h
    rw [hstate] at h
    cases h
  · exact fun _ ↦ .inl (by simp [hstate])

def Aside (id : String) : FileOp → Prop
  | .createDirAll | .restrictDirectory => True
  | .createNew file | .writeAll file _ | .syncAll file | .restrictFile file | .removeFile file =>
      file = .temporary id
  | .rename _ _ => False

theorem Aside.exec {op : FileOp} (h : Aside id op) (outcome : Outcome) (disk : Disk) :
    (StateFile.exec op outcome disk).1 .state = disk .state ∧
      (StateFile.exec op outcome disk).1 .backup = disk .backup := by
  cases op <;> cases outcome <;> simp_all [Aside, StateFile.exec] <;> split <;> simp

theorem done_of_ok {op : FileOp} {outcome : Outcome}
    (h : (StateFile.exec op outcome disk).2 = .ok ()) : outcome = .done := by
  cases outcome with
  | done => rfl
  | fails error written => cases op <;> cases h

theorem keeps_aside {S : List Outcome → Prop} {Q : Except String Unit → Disk → Prop}
    {op : FileOp} {label : String → String} {next : Writer} (hop : Aside id op)
    (hQ : ∀ error disk, Q (.error error) disk) (h : Covered allowed completed disk)
    (hdone : (StateFile.exec op .done disk).2 = .ok () →
      Covered allowed completed (StateFile.exec op .done disk).1 →
      Keeps StateFile.exec (fun outcomes ↦ S (.done :: outcomes)) (Covered allowed completed)
        Q next (StateFile.exec op .done disk).1) :
    Keeps StateFile.exec S (Covered allowed completed) Q (.attempt op label next) disk := by
  have hcovered : ∀ f, Covered allowed completed (StateFile.exec op f disk).1 :=
    fun f ↦ h.congr (hop.exec f disk).1 (hop.exec f disk).2
  apply keeps_attempt
  · exact fun _ ↦ h
  · exact fun f e _ ↦ ⟨hcovered f, hQ _ _⟩
  · intro f hf
    obtain rfl := done_of_ok hf
    exact hdone hf (hcovered .done)

theorem keeps_ensureParent {S : List Outcome → Prop} {Q : Except String Unit → Disk → Prop}
    {next : Writer} (hQ : ∀ error disk, Q (.error error) disk)
    (h : Covered allowed completed disk)
    (hnext : Keeps StateFile.exec (fun outcomes ↦ S (.done :: .done :: outcomes))
      (Covered allowed completed) Q next disk) :
    Keeps StateFile.exec S (Covered allowed completed) Q (ensureParent next) disk := by
  have hdir : Aside "" .createDirAll ∧ Aside "" .restrictDirectory := ⟨trivial, trivial⟩
  exact keeps_aside hdir.1 hQ h fun _ h ↦ keeps_aside hdir.2 hQ h fun _ _ ↦ hnext

theorem installed_error (error : String) (disk : Disk) : Installed bytes (.error error) disk :=
  fun h ↦ by cases h

theorem keeps_prepare {S : List Outcome → Prop} {next : Writer}
    (h : Covered allowed completed disk)
    (hnext : ∀ disk' : Disk, disk (.temporary id) = none → disk' .state = disk .state →
      disk' .backup = disk .backup → disk' (.temporary id) = some (bytes ++ [10]) →
      Keeps StateFile.exec (fun outcomes ↦ S (List.replicate 5 .done ++ outcomes))
        (Covered allowed completed) (Installed (bytes ++ [10])) next disk') :
    Keeps StateFile.exec S (Covered allowed completed) (Installed (bytes ++ [10]))
      (prepare (.temporary id) bytes next) disk := by
  have hQ := @installed_error (bytes ++ [10])
  refine keeps_aside (show Aside id (.createNew (.temporary id)) from rfl) hQ h fun hok h ↦ ?_
  refine keeps_aside (show Aside id (.writeAll (.temporary id) bytes) from rfl) hQ h fun _ h ↦ ?_
  refine keeps_aside (show Aside id (.writeAll (.temporary id) [10]) from rfl) hQ h fun _ h ↦ ?_
  refine keeps_aside (show Aside id (.syncAll (.temporary id)) from rfl) hQ h fun _ h ↦ ?_
  refine keeps_aside (show Aside id (.restrictFile (.temporary id)) from rfl) hQ h fun _ h ↦ ?_
  have hnew : hasFile (.temporary id) disk = false := by
    cases hthere : hasFile (.temporary id) disk with
    | false => rfl
    | true => simp [StateFile.exec, hthere] at hok
  apply hnext
  · simpa [hasFile] using hnew
  all_goals simp [StateFile.exec, hnew]

theorem keeps_finish {S : List Outcome → Prop} (hstate : disk .state = some bytes)
    (hallowed : allowed bytes) :
    Keeps StateFile.exec S (Covered allowed completed) (Installed bytes)
      (.onlyIf (hasFile .backup) (.ignore (.removeFile .backup)) (.ret (.ok ()))) disk := by
  apply keeps_look
  split
  · apply keeps_act
    · exact fun _ ↦ covered_of_state hstate hallowed
    · intro f
      have hstate' : (StateFile.exec (.removeFile .backup) f disk).1 .state = some bytes := by
        rw [← hstate]
        cases f with
        | fails error written => rfl
        | done =>
            simp only [StateFile.exec]
            split <;> simp
      exact keeps_ret (covered_of_state hstate' hallowed) fun _ ↦ hstate'
  · exact keeps_ret (covered_of_state hstate hallowed) fun _ ↦ hstate

theorem exec_rename {source target : FileName} {contents : Bytes}
    (hsource : disk source = some contents) :
    StateFile.exec (.rename source target) .done disk =
      (Function.update (Function.update disk source none) target (some contents), .ok ()) := by
  simp [StateFile.exec, hasFile, hsource]

theorem keeps_cleanup {S : List Outcome → Prop} (h : Covered allowed completed disk)
    (error : String) : Keeps StateFile.exec S (Covered allowed completed) (Installed bytes)
      (.ignore (.removeFile (.temporary id)) (.ret (.error error))) disk := by
  apply keeps_act fun _ ↦ h
  intro f
  have haside := Aside.exec (show Aside id (.removeFile (.temporary id)) from rfl) f disk
  exact keeps_ret (h.congr haside.1 haside.2) (installed_error _ _)

theorem keeps_rollback {S : List Outcome → Prop} (h : Covered allowed completed disk)
    (error : String) : Keeps StateFile.exec S (Covered allowed completed) (Installed bytes)
      (.onlyIf (fun disk ↦ hasFile .backup disk && !hasFile .state disk)
        (.ignore (.rename .backup .state))
        (.ignore (.removeFile (.temporary id)) (.ret (.error error)))) disk := by
  apply keeps_look
  split
  · rename_i hmissing
    simp only [hasFile, Bool.and_eq_true, Bool.not_eq_true', Option.isSome_iff_exists,
      Option.isSome_eq_false_iff, Option.isNone_iff_eq_none] at hmissing
    obtain ⟨⟨old, hold⟩, hnone⟩ := hmissing
    apply keeps_act fun _ ↦ h
    intro f
    apply keeps_cleanup
    cases f with
    | fails error written => exact h
    | done =>
        rw [exec_rename hold]
        exact covered_of_state (by simp) (h.backup hnone old hold)
  · exact keeps_cleanup h error

theorem keeps_install {S : List Outcome → Prop} (h : S [] → Covered allowed completed disk)
    (hfails : ∀ error written outcomes, S (.fails error written :: outcomes) →
      Covered allowed completed disk)
    (hnew : disk (.temporary id) = some bytes) (hallowed : allowed bytes) :
    Keeps StateFile.exec S (Covered allowed completed) (Installed bytes)
      (install (.temporary id)) disk := by
  apply keeps_act h
  intro f
  cases f with
  | done =>
      rw [exec_rename hnew]
      apply keeps_finish _ hallowed
      simp
  | fails error written =>
      intro outcomes hS
      exact keeps_rollback (S := fun _ ↦ True) (hfails error written outcomes hS) _ outcomes trivial

theorem keeps_move {S : List Outcome → Prop} (h : Covered allowed completed disk)
    (hnew : disk (.temporary id) = some bytes) (hallowed : allowed bytes) :
    Keeps StateFile.exec S (Covered allowed completed) (Installed bytes)
      (.onlyIf (hasFile .state) (.attempt (.rename .state .backup)
        fun error ↦ s!"failed to stage gateway state backup: {error}")
        (install (.temporary id))) disk := by
  apply keeps_look
  split
  · rename_i hstate
    obtain ⟨old, hold⟩ := Option.isSome_iff_exists.mp hstate
    have hmoved : StateFile.exec (.rename .state .backup) .done disk =
        (Function.update (Function.update disk .state none) .backup (some old), .ok ()) :=
      exec_rename hold
    apply keeps_attempt fun _ ↦ h
    · intro f e hf
      cases f with
      | fails error written => exact ⟨h, installed_error _ _⟩
      | done =>
          rw [hmoved] at hf
          cases hf
    · intro f hf
      obtain rfl := done_of_ok hf
      rw [hmoved]
      have hcovered : Covered allowed completed
          (Function.update (Function.update disk .state none) .backup (some old)) := by
        refine ⟨by simp, ?_, by simp⟩
        intro _ contents hcontents
        simp only [Function.update_self, Option.some.injEq] at hcontents
        exact hcontents ▸ h.state old hold
      exact keeps_install (fun _ ↦ hcovered) (fun _ _ _ _ ↦ hcovered) (by simpa using hnew)
        hallowed
  · exact keeps_install (fun _ ↦ h) (fun _ _ _ _ ↦ h) hnew hallowed

theorem exec_remove {file : FileName} {contents : Bytes} (hfile : disk file = some contents) :
    StateFile.exec (.removeFile file) .done disk = (Function.update disk file none, .ok ()) := by
  simp [StateFile.exec, hasFile, hfile]

theorem keeps_stage {S : List Outcome → Prop} (h : Covered allowed completed disk)
    (hnew : disk (.temporary id) = some bytes) (hallowed : allowed bytes)
    (hthrough : completed → disk .state = none →
      ∀ outcomes, S (.done :: outcomes) → outcomes[0]? = some .done) :
    Keeps StateFile.exec S (Covered allowed completed) (Installed bytes)
      (stage (install (.temporary id))) disk := by
  apply keeps_look
  split
  · rename_i hbackup
    obtain ⟨old, hold⟩ := Option.isSome_iff_exists.mp hbackup
    apply keeps_attempt fun _ ↦ h
    · intro f e hf
      cases f with
      | fails error written => exact ⟨h, installed_error _ _⟩
      | done =>
          rw [exec_remove hold] at hf
          cases hf
    · intro f hf
      obtain rfl := done_of_ok hf
      rw [exec_remove hold]
      have hnew' : Function.update disk .backup none (.temporary id) = some bytes := by
        simpa using hnew
      by_cases hexposed : completed ∧ disk .state = none
      · -- neither file is there now, but the installation comes next and succeeds
        apply keeps_look
        rw [if_neg (by simp [hasFile, hexposed.2])]
        apply keeps_install
        · intro hS
          cases hthrough hexposed.1 hexposed.2 [] hS
        · intro error written outcomes hS
          cases hthrough hexposed.1 hexposed.2 _ hS
        · exact hnew'
        · exact hallowed
      · have hcovered : Covered allowed completed (Function.update disk .backup none) := by
          refine ⟨fun contents hstate ↦ h.state contents (by simpa using hstate), by simp, ?_⟩
          intro hcompleted
          left
          simpa using fun hnone ↦ hexposed ⟨hcompleted, hnone⟩
        exact keeps_move hcovered hnew' hallowed
  · exact keeps_move h hnew hallowed

theorem Covered.mono (h : Covered allowed completed disk) {allowed' : Bytes → Prop}
    (hle : ∀ contents, allowed contents → allowed' contents) :
    Covered allowed' completed disk :=
  ⟨fun contents hstate ↦ hle contents (h.state contents hstate),
    fun hnone contents hbackup ↦ hle contents (h.backup hnone contents hbackup), h.present⟩

/-- A write keeps a document wherever it is cut off, if one that finds the backup alone and
removes it goes on to install the new file. -/
theorem keeps_write {outcomes : List Outcome} {document : Json}
    (h : Covered allowed completed disk)
    (hallowed : ∀ bytes, codec.toVecPretty document = .ok bytes → allowed (bytes ++ [10]))
    (hthrough : completed → disk .state = none → disk (.temporary id) = none →
      outcomes.take 8 = List.replicate 8 .done → outcomes[8]? = some .done) :
    let played := play StateFile.exec (writeStateDocumentUnlocked codec id document) disk outcomes
    Covered allowed completed played.1 ∧ (played.2 = some (.ok ()) →
      ∃ bytes, codec.toVecPretty document = .ok bytes ∧
        played.1 .state = some (bytes ++ [10])) := by
  unfold writeStateDocumentUnlocked
  cases hencode : codec.toVecPretty document with
  | error error =>
      have hkeeps : Keeps StateFile.exec (fun _ ↦ True) (Covered allowed completed)
          (fun answer _ ↦ answer ≠ .ok ()) (ensureParent
            (.ret (.error s!"failed to encode gateway state: {error}"))) disk := by
        apply keeps_ensureParent (fun _ _ herror ↦ by cases herror) h
        exact keeps_ret h fun herror ↦ by cases herror
      obtain ⟨hcovered, hfailed⟩ := hkeeps outcomes trivial
      exact ⟨hcovered, fun hok ↦ (hfailed _ hok rfl).elim⟩
  | ok bytes =>
      have hkeeps : Keeps StateFile.exec (· = outcomes) (Covered allowed completed)
          (Installed (bytes ++ [10]))
          (ensureParent (prepare (.temporary id) bytes (stage (install (.temporary id))))) disk := by
        apply keeps_ensureParent installed_error h
        apply keeps_prepare h
        intro disk' htemporary hstate hbackup hnew
        apply keeps_stage (h.congr hstate hbackup) hnew (hallowed bytes hencode)
        intro hcompleted hnone rest houtcomes
        have hlast := hthrough hcompleted (hstate ▸ hnone) htemporary
        rw [← houtcomes] at hlast
        exact hlast rfl
      obtain ⟨hcovered, hinstalled⟩ := hkeeps outcomes rfl
      exact ⟨hcovered, fun hok ↦ ⟨bytes, rfl, hinstalled _ hok rfl⟩⟩

end Steps

/-! ## Runs of writes -/

/-- A write with the id of its temporary file and the outcomes of its operations; where they
end early the writer has crashed. -/
structure WriteCall where
  id : String
  document : StateDocument
  outcomes : List Outcome

/-- The disk, the document of the last completed write, and those attempted after it. -/
structure FileWorld where
  disk : Disk := fun _ ↦ none
  completed : Option StateDocument := none
  attempted : List StateDocument := []

namespace FileWorld

def next (codec : JsonCodec) (world : FileWorld) (call : WriteCall) : FileWorld :=
  let played := play exec (writeStateDocumentUnlocked codec call.id call.document.document)
    world.disk call.outcomes
  match played.2 with
  | some (.ok _) => { disk := played.1, completed := some call.document }
  | _ => { world with disk := played.1, attempted := world.attempted ++ [call.document] }

def candidates (world : FileWorld) : List StateDocument :=
  world.completed.toList ++ world.attempted

/-- A read returns one of these documents; an empty state only before any write was
completed. -/
def Survives (codec : JsonCodec) (path : String) (world : FileWorld) : Prop :=
  (∃ document ∈ world.candidates,
    readStateDocumentUnlocked codec path world.disk = .ok document.document) ∨
  (world.completed = none ∧ readStateDocumentUnlocked codec path world.disk = .ok (.object []))

/-- A write that finds the state file gone after a write was completed, and has its first
eight operations done, the removal of the backup among them, also has the installation of
the new file done. -/
def Careful (world : FileWorld) (call : WriteCall) : Prop :=
  world.completed.isSome → world.disk .state = none → world.disk (.temporary call.id) = none →
    call.outcomes.take 8 = List.replicate 8 .done → call.outcomes[8]? = some .done

instance (world : FileWorld) (call : WriteCall) : Decidable (world.Careful call) := by
  unfold Careful
  infer_instance

def Holds (codec : JsonCodec) (documents : List StateDocument) (contents : Bytes) : Prop :=
  ∃ document ∈ documents, ∃ bytes, codec.toVecPretty document.document = .ok bytes ∧
    contents = bytes ++ [10]

def Inv (codec : JsonCodec) (world : FileWorld) : Prop :=
  Covered (Holds codec world.candidates) (world.completed.isSome = true) world.disk

theorem Inv.next {world : FileWorld} (h : world.Inv codec) {call : WriteCall}
    (hcareful : world.Careful call) : (world.next codec call).Inv codec := by
  have hmono : Covered (Holds codec (world.candidates ++ [call.document]))
      (world.completed.isSome = true) world.disk := by
    refine h.mono ?_
    rintro contents ⟨document, hmem, hbytes⟩
    exact ⟨document, List.mem_append_left _ hmem, hbytes⟩
  have hallowed : ∀ bytes, codec.toVecPretty call.document.document = .ok bytes →
      Holds codec (world.candidates ++ [call.document]) (bytes ++ [10]) :=
    fun bytes hencode ↦ ⟨call.document, by simp, bytes, hencode, rfl⟩
  obtain ⟨hcovered, hinstalled⟩ := keeps_write hmono hallowed hcareful
  unfold Inv FileWorld.next
  dsimp only
  split
  · rename_i hok
    obtain ⟨bytes, hencode, hstate⟩ := hinstalled hok
    exact covered_of_state hstate ⟨call.document, by simp [candidates], bytes, hencode, rfl⟩
  · rw [candidates, ← List.append_assoc]
    exact hcovered

theorem Inv.survives {world : FileWorld} (h : world.Inv codec) (hcodec : codec.RoundTrips) :
    world.Survives codec path := by
  have hread : ∀ (source : FileName) (contents : Bytes), Holds codec world.candidates contents →
      ∃ document ∈ world.candidates,
        parseDocument codec path source contents = .ok document.document := by
    rintro source contents ⟨document, hmem, bytes, hencode, rfl⟩
    refine ⟨document, hmem, ?_⟩
    rw [parseDocument, hcodec _ _ hencode]
    exact document.accepted
  unfold Survives readStateDocumentUnlocked
  cases hstate : world.disk .state with
  | some contents => exact .inl (hread .state contents (h.state contents hstate))
  | none =>
      cases hbackup : world.disk .backup with
      | some contents => exact .inl (hread .backup contents (h.backup hstate contents hbackup))
      | none =>
          right
          refine ⟨?_, rfl⟩
          cases hcompleted : world.completed with
          | none => rfl
          | some document =>
              have hpresent := h.present (by simp [hcompleted])
              simp [hstate, hbackup] at hpresent

/-- In every run whose writes are careful, cut off where they may be, each read returns the
document of the last completed write or of one attempted after it. -/
theorem state_survives (hcodec : codec.RoundTrips) (path : String) (calls : List WriteCall)
    (hcareful : Runs.Along (next codec) Careful {} calls) :
    (Runs.run (next codec) {} calls).Survives codec path := by
  have hstart : Inv codec {} := ⟨by simp, by simp, by simp⟩
  exact (Runs.invariant_along (fun _ _ h hcall ↦ h.next hcall) hstart hcareful).survives hcodec

/-! ## Two crashes -/

section Demo

def demoDocument : Json :=
  .object [("schemaVersion", .number "1")]

def demoBytes : Bytes :=
  "\x7b\n  \"schemaVersion\": 1\n\x7d".toList.map fun c ↦ c.toNat.toUInt8

def demoCodec : JsonCodec where
  toVecPretty
    | .object [("schemaVersion", .number "1")] => .ok demoBytes
    | _ => .error "unsupported"
  fromSlice bytes :=
    if bytes = demoBytes ++ [10] then .ok demoDocument else .error "expected value"

theorem demoCodec_roundTrips : demoCodec.RoundTrips := by
  intro document bytes h
  simp only [demoCodec] at h
  split at h
  · rw [← Except.ok.inj h]
    simp [demoCodec, demoDocument]
  · cases h

theorem demoDocument_accepted : checkDocument demoDocument = .ok demoDocument := by
  have hversion : Json.asU64 (.number "1") = some STATE_SCHEMA_VERSION := by decide +kernel
  simp [checkDocument, demoDocument, Json.isObject, Json.get, hversion]

def demoWrite (id : String) (operations : ℕ) : WriteCall where
  id := id
  document := ⟨demoDocument, demoDocument_accepted⟩
  outcomes := List.replicate operations .done

/-- One crash leaves the backup alone, and a second one removes it. -/
theorem second_crash_loses_state :
    ¬ ∀ (codec : JsonCodec) (path : String) (calls : List WriteCall), codec.RoundTrips →
      (Runs.run (next codec) {} calls).Survives codec path := by
  intro h
  let lost := Runs.run (next demoCodec) {} [demoWrite "1" 10, demoWrite "2" 8, demoWrite "3" 8]
  have hstate : lost.disk .state = none := by decide +kernel
  have hbackup : lost.disk .backup = none := by decide +kernel
  have hread : readStateDocumentUnlocked demoCodec "gateway-state-v1.json" lost.disk =
      .ok (.object []) := by
    rw [readStateDocumentUnlocked, hstate, hbackup]
  have hversions : ∀ document ∈ lost.candidates,
      (document.document.get "schemaVersion").isSome = true := by decide +kernel
  rcases h demoCodec "gateway-state-v1.json" _ demoCodec_roundTrips with
    ⟨document, hmem, hdocument⟩ | ⟨hnone, -⟩
  · have hversion := hversions document hmem
    rw [← Except.ok.inj (hread.symm.trans hdocument)] at hversion
    cases hversion
  · have hcompleted : lost.completed.isSome = true := by decide +kernel
    rw [hnone] at hcompleted
    cases hcompleted

theorem state_survives_demo :
    (Runs.run (next demoCodec) {} [demoWrite "1" 10, demoWrite "2" 8, demoWrite "3" 10]).Survives
      demoCodec "gateway-state-v1.json" :=
  state_survives demoCodec_roundTrips _ _ (by decide +kernel)

end Demo

end FileWorld

end Fabushi.Gateway.StateFile
