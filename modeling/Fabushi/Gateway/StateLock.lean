import Fabushi.Library.Runs

/-!
# The state lock

A process holds the lock while a file exists that it has created. Waiters look at the age of
the file and remove a stale one by its path, in a step of its own: what they remove need not
be the file they have looked at. Where every removed file is stale itself, one process holds
the lock at most and a guard that is dropped removes its own file.
-/

namespace Fabushi.Gateway.StateLock

def STATE_LOCK_WAIT_ATTEMPTS : ℕ := 200

def STATE_LOCK_STALE_AFTER : ℕ := 30000

/-- A lock file: which creation it comes from, and when it was last written to. -/
structure LockFile where
  serial : ℕ
  modified : ℕ
deriving DecidableEq

def LockFile.Stale (file : LockFile) (now : ℕ) : Prop :=
  file.modified + STATE_LOCK_STALE_AFTER < now

instance (file : LockFile) (now : ℕ) : Decidable (file.Stale now) := by
  unfold LockFile.Stale
  infer_instance

theorem LockFile.Stale.later {file : LockFile} {now : ℕ} (h : file.Stale now) (ms : ℕ) :
    file.Stale (now + ms) := by
  unfold LockFile.Stale at *
  omega

inductive Remaining where
  | write
  | sync
  | restrict
deriving DecidableEq

inductive Phase where
  | idle
  | trying (attempts : ℕ)
  | created (file : LockFile) (remaining : Remaining)
  | inspecting (attempts : ℕ)
  | judging (attempts : ℕ) (modified : Option ℕ)
  | removing (attempts : ℕ)
  | sleeping (attempts : ℕ)
  | holding (file : LockFile)
  | crashed
deriving DecidableEq

def Phase.file : Phase → Option LockFile
  | .created file _ | .holding file => some file
  | _ => none

def Phase.held : Phase → Option LockFile
  | .holding file => some file
  | _ => none

inductive Event where
  | spawn
  | begin (process : ℕ)
  | step (process : ℕ) (fails : Bool)
  | crash (process : ℕ)
  | tick (ms : ℕ)

structure LockWorld where
  now : ℕ := 0
  lock : Option LockFile := none
  created : ℕ := 0
  phases : List Phase := []

namespace LockWorld

def setPhase (world : LockWorld) (process : ℕ) (phase : Phase) : LockWorld :=
  { world with phases := world.phases.set process phase }

def operate (world : LockWorld) (process : ℕ) (fails : Bool) : Phase → LockWorld
  | .idle | .crashed => world
  | .trying 0 => world.setPhase process .idle
  | .trying (attempts + 1) =>
      if fails then world.setPhase process .idle
      else match world.lock with
        | none =>
            let file := { serial := world.created, modified := world.now }
            { world with lock := some file, created := world.created + 1 }.setPhase process
              (.created file .write)
        | some _ => world.setPhase process (.inspecting attempts)
  | .created file .write =>
      -- the process id is written to the file it has open, which may have lost its name
      if fails then world.setPhase process (.created file .sync)
      else
        let written := { file with modified := world.now }
        { world with lock := world.lock.map fun (found : LockFile) ↦
            if found.serial = file.serial then written else found }.setPhase process
          (.created written .sync)
  | .created file .sync => world.setPhase process (.created file .restrict)
  | .created file .restrict =>
      if fails ∨ world.lock = none then world.setPhase process .idle
      else world.setPhase process (.holding file)
  | .inspecting attempts =>
      world.setPhase process
        (.judging attempts (if fails then none else world.lock.map LockFile.modified))
  | .judging attempts modified =>
      match modified with
      | some modified =>
          if modified + STATE_LOCK_STALE_AFTER < world.now then
            world.setPhase process (.removing attempts)
          else world.setPhase process (.sleeping attempts)
      | none => world.setPhase process (.sleeping attempts)
  | .removing attempts =>
      (if fails then world else { world with lock := none }).setPhase process (.trying attempts)
  | .sleeping attempts => world.setPhase process (.trying attempts)
  | .holding _ =>
      (if fails then world else { world with lock := none }).setPhase process .idle

def next (world : LockWorld) : Event → LockWorld
  | .spawn => { world with phases := world.phases ++ [.idle] }
  | .begin process =>
      if world.phases[process]? = some .idle then
        world.setPhase process (.trying STATE_LOCK_WAIT_ATTEMPTS)
      else world
  | .step process fails =>
      match world.phases[process]? with
      | some phase => world.operate process fails phase
      | none => world
  | .crash process => world.setPhase process .crashed
  | .tick ms => { world with now := world.now + ms }

/-- A process that holds the lock drops it before its file is stale: the guard is returned in
time, and no time passes that would make it stale. -/
def Punctual (world : LockWorld) : Event → Prop
  | .step process _ =>
      match world.phases[process]? with
      | some (.created file .restrict) => ¬ file.Stale world.now
      | _ => True
  | .tick ms => ∀ phase ∈ world.phases, ∀ file ∈ phase.held, ¬ file.Stale (world.now + ms)
  | _ => True

instance (world : LockWorld) (event : Event) : Decidable (world.Punctual event) := by
  unfold Punctual
  split
  · split <;> infer_instance
  · infer_instance
  · infer_instance

/-- A waiter that removes the lock file finds it stale, and a process that writes its id to the
file it has created is in time. -/
def Careful (world : LockWorld) : Event → Prop
  | .step process _ =>
      match world.phases[process]? with
      | some (.removing _) => ∀ file ∈ world.lock, file.Stale world.now
      | some (.created file .write) => ¬ file.Stale world.now
      | _ => True
  | _ => True

instance (world : LockWorld) (event : Event) : Decidable (world.Careful event) := by
  unfold Careful
  split
  · split <;> infer_instance
  · infer_instance

/-! ## The invariant -/

def fileOf (world : LockWorld) (process : ℕ) : Option LockFile :=
  world.phases[process]?.bind Phase.file

structure Inv (world : LockWorld) : Prop where
  fresh : ∀ i file, world.fileOf i = some file → file.serial < world.created
  lock_fresh : ∀ file, world.lock = some file → file.serial < world.created
  distinct : ∀ i j file other, world.fileOf i = some file → world.fileOf j = some other →
    file.serial = other.serial → i = j
  standing : ∀ i file, world.fileOf i = some file → world.lock = some file ∨ file.Stale world.now
  timely : ∀ (i : ℕ) (file : LockFile), world.phases[i]? = some (.holding file) →
    ¬ file.Stale world.now

theorem fileOf_setPhase (world : LockWorld) (process : ℕ) (phase : Phase) (i : ℕ) :
    (world.setPhase process phase).fileOf i =
      if process = i ∧ i < world.phases.length then phase.file else world.fileOf i := by
  unfold fileOf setPhase
  rw [List.getElem?_set]
  by_cases hi : process = i
  · by_cases hlt : i < world.phases.length
    · simp [hi, hlt]
    · simp [hi, hlt]
  · simp [hi]

theorem Inv.release {world : LockWorld} (h : world.Inv) {process : ℕ} {phase : Phase}
    (hphase : phase.file = none) {lock : Option LockFile}
    (hfresh : ∀ file, lock = some file → world.lock = some file)
    (hstanding : ∀ i file, i ≠ process → world.fileOf i = some file →
      world.lock = some file → lock = some file ∨ file.Stale world.now) :
    ({ world with lock }.setPhase process phase).Inv := by
  have hfile : ∀ i file, ({ world with lock }.setPhase process phase).fileOf i = some file →
      world.fileOf i = some file ∧ i ≠ process := by
    intro i file hi
    rw [fileOf_setPhase, hphase] at hi
    split at hi
    · cases hi
    · rename_i hne
      refine ⟨hi, ?_⟩
      rintro rfl
      apply hne
      refine ⟨rfl, ?_⟩
      by_contra hge
      have hnone : world.phases[i]? = none := List.getElem?_eq_none (not_lt.mp hge)
      change world.phases[i]?.bind Phase.file = some file at hi
      rw [hnone] at hi
      cases hi
  constructor
  case fresh => exact fun i file hi ↦ h.fresh i file (hfile i file hi).1
  case lock_fresh => exact fun file hlock ↦ h.lock_fresh file (hfresh file hlock)
  case distinct =>
    exact fun i j file other hi hj ↦ h.distinct i j file other (hfile i file hi).1
      (hfile j other hj).1
  case standing =>
    intro i file hi
    obtain ⟨hold, hne⟩ := hfile i file hi
    rcases h.standing i file hold with hlock | hstale
    · exact hstanding i file hne hold hlock
    · exact .inr hstale
  case timely =>
    intro i file hi
    have hheld : ({ world with lock }.setPhase process phase).fileOf i = some file := by
      rw [fileOf, hi]
      rfl
    have hne := (hfile i file hheld).2
    change (world.phases.set process phase)[i]? = _ at hi
    rw [List.getElem?_set_ne hne.symm] at hi
    exact h.timely i file hi

theorem Inv.proceed {world : LockWorld} (h : world.Inv) {process : ℕ} {phase : Phase}
    (hphase : phase.file = world.fileOf process)
    (htimely : ∀ file, phase = .holding file → ¬ file.Stale world.now) :
    (world.setPhase process phase).Inv := by
  have hfile : ∀ i, (world.setPhase process phase).fileOf i = world.fileOf i := by
    intro i
    rw [fileOf_setPhase]
    split
    · rename_i hi
      rw [hphase, hi.1]
    · rfl
  constructor
  case fresh => exact fun i file hi ↦ h.fresh i file (hfile i ▸ hi)
  case lock_fresh => exact h.lock_fresh
  case distinct =>
    exact fun i j file other hi hj ↦ h.distinct i j file other (hfile i ▸ hi) (hfile j ▸ hj)
  case standing => exact fun i file hi ↦ h.standing i file (hfile i ▸ hi)
  case timely =>
    intro i file hi
    change (world.phases.set process phase)[i]? = _ at hi
    rw [List.getElem?_set] at hi
    split at hi
    · split at hi
      · exact htimely file (Option.some.inj hi)
      · cases hi
    · exact h.timely i file hi

theorem Inv.own {world : LockWorld} (h : world.Inv) {process created : ℕ} {phase : Phase}
    {file : LockFile} (hphase : phase.file = some file) (hheld : phase.held = none)
    (hcreated : world.created ≤ created) (hserial : file.serial < created)
    (hothers : ∀ i other, i ≠ process → world.fileOf i = some other →
      other.serial ≠ file.serial ∧ other.Stale world.now) :
    ({ world with lock := some file, created }.setPhase process phase).Inv := by
  have hfile : ∀ i other,
      ({ world with lock := some file, created }.setPhase process phase).fileOf i = some other →
        (i = process ∧ other = file) ∨ (i ≠ process ∧ world.fileOf i = some other) := by
    intro i other hi
    rw [fileOf_setPhase, hphase] at hi
    split at hi
    · rename_i heq
      exact .inl ⟨heq.1.symm, (Option.some.inj hi).symm⟩
    · rename_i hne
      refine .inr ⟨?_, hi⟩
      rintro rfl
      apply hne
      refine ⟨rfl, ?_⟩
      by_contra hge
      have hnone : world.phases[i]? = none := List.getElem?_eq_none (not_lt.mp hge)
      change world.phases[i]?.bind Phase.file = some other at hi
      rw [hnone] at hi
      cases hi
  constructor
  case fresh =>
    intro i other hi
    rcases hfile i other hi with ⟨-, rfl⟩ | ⟨-, hold⟩
    · exact hserial
    · exact (h.fresh i other hold).trans_le hcreated
  case lock_fresh =>
    intro other hlock
    rw [← Option.some.inj hlock]
    exact hserial
  case distinct =>
    intro i j other other' hi hj hsame
    rcases hfile i other hi with ⟨rfl, rfl⟩ | ⟨hne, hold⟩
    · rcases hfile j other' hj with ⟨rfl, -⟩ | ⟨hne', hold'⟩
      · rfl
      · exact ((hothers j other' hne' hold').1 hsame.symm).elim
    · rcases hfile j other' hj with ⟨rfl, rfl⟩ | ⟨-, hold'⟩
      · exact ((hothers i other hne hold).1 hsame).elim
      · exact h.distinct i j other other' hold hold' hsame
  case standing =>
    intro i other hi
    rcases hfile i other hi with ⟨-, rfl⟩ | ⟨hi, hold⟩
    · exact .inl rfl
    · exact .inr (hothers i other hi hold).2
  case timely =>
    intro i other hi
    change (world.phases.set process phase)[i]? = _ at hi
    rw [List.getElem?_set] at hi
    split at hi
    · split at hi
      · rw [Option.some.inj hi] at hheld
        cases hheld
      · cases hi
    · exact h.timely i other hi

theorem Inv.lock_of_holding {world : LockWorld} (h : world.Inv) {process : ℕ} {file : LockFile}
    (hphase : world.phases[process]? = some (.holding file)) : world.lock = some file := by
  have hfile : world.fileOf process = some file := by
    rw [fileOf, hphase]
    rfl
  exact (h.standing process file hfile).resolve_right (h.timely process file hphase)

theorem Inv.operate {world : LockWorld} (h : world.Inv) {process : ℕ} {fails : Bool}
    {phase : Phase} (hphase : world.phases[process]? = some phase)
    (hpunctual : world.Punctual (.step process fails))
    (hcareful : world.Careful (.step process fails)) :
    (world.operate process fails phase).Inv := by
  have hfile : world.fileOf process = phase.file := by
    rw [fileOf, hphase]
    rfl
  have hkeep : ∀ other, (∀ file, other ≠ Phase.holding file) → other.file = phase.file →
      (world.setPhase process other).Inv := fun other hother hsame ↦
    h.proceed (hsame.trans hfile.symm) fun file heq ↦ (hother file heq).elim
  have hdrop : ∀ other : Phase, other.file = none → (world.setPhase process other).Inv :=
    fun other hother ↦ (@Inv.release world h process other hother world.lock (fun _ h ↦ h) fun _ _ _ _ h ↦ .inl h :)
  simp only [Punctual, hphase] at hpunctual
  simp only [Careful, hphase] at hcareful
  cases phase with
  | idle => exact h
  | crashed => exact h
  | sleeping attempts => exact hdrop _ rfl
  | inspecting attempts => exact hdrop _ rfl
  | judging attempts modified =>
      simp only [LockWorld.operate]
      split
      · split <;> exact hdrop _ rfl
      · exact hdrop _ rfl
  | removing attempts =>
      simp only [LockWorld.operate]
      split
      · exact hdrop _ rfl
      · refine h.release rfl (fun _ hlock ↦ by cases hlock) ?_
        exact fun _ file _ _ hlock ↦ .inr (hcareful file hlock)
  | holding file =>
      simp only [LockWorld.operate]
      split
      · exact hdrop _ rfl
      · refine h.release rfl (fun _ hlock ↦ by cases hlock) ?_
        intro i other hne hother hlock
        have hown := h.lock_of_holding hphase
        rw [hown] at hlock
        exact (hne (h.distinct i process other file hother hfile
          (Option.some.inj hlock ▸ rfl))).elim
  | trying attempts =>
      cases attempts with
      | zero => exact hdrop _ rfl
      | succ attempts =>
          simp only [LockWorld.operate]
          split
          · exact hdrop _ rfl
          · split
            · rename_i hlock
              apply h.own rfl rfl (Nat.le_succ _) (Nat.lt_succ_self _)
              intro i other _ hother
              refine ⟨(h.fresh i other hother).ne, ?_⟩
              refine (h.standing i other hother).resolve_left ?_
              rw [hlock]
              exact Option.some_ne_none other |>.symm
            · exact hdrop _ rfl
  | created file remaining =>
      cases remaining with
      | sync => exact hkeep _ (fun _ heq ↦ by cases heq) rfl
      | restrict =>
          simp only [LockWorld.operate]
          split
          · exact hdrop _ rfl
          · refine h.proceed hfile.symm fun other hother ↦ ?_
            obtain rfl := Phase.holding.inj hother
            exact hpunctual
      | write =>
          simp only [LockWorld.operate]
          split
          · exact hkeep _ (fun _ heq ↦ by cases heq) rfl
          · have hlock : world.lock = some file :=
              (h.standing process file hfile).resolve_right hcareful
            simp only [hlock, Option.map_some, if_true]
            refine @Inv.own world h process world.created
              (.created { file with modified := world.now } .sync)
              { file with modified := world.now } rfl rfl le_rfl (h.fresh process file hfile) ?_
            intro i other hne hother
            have hserial : other.serial ≠ file.serial := fun hsame ↦
              hne (h.distinct i process other file hother hfile hsame)
            refine ⟨hserial, (h.standing i other hother).resolve_left ?_⟩
            rw [hlock]
            exact fun heq ↦ hserial (Option.some.inj heq ▸ rfl)

theorem Inv.next {world : LockWorld} (h : world.Inv) {event : Event}
    (hpunctual : world.Punctual event) (hcareful : world.Careful event) :
    (world.next event).Inv := by
  cases event with
  | step process fails =>
      simp only [LockWorld.next]
      split
      · rename_i phase hphase
        exact h.operate hphase hpunctual hcareful
      · exact h
  | crash process =>
      exact @Inv.release world h process .crashed rfl world.lock (fun _ h ↦ h)
        fun _ _ _ _ h ↦ .inl h
  | begin process =>
      simp only [LockWorld.next]
      split
      · exact @Inv.release world h process (.trying STATE_LOCK_WAIT_ATTEMPTS) rfl world.lock
          (fun _ h ↦ h) fun _ _ _ _ h ↦ .inl h
      · exact h
  | tick ms =>
      refine ⟨h.fresh, h.lock_fresh, h.distinct, ?_, ?_⟩
      · exact fun i file hi ↦ (h.standing i file hi).imp_right fun hstale ↦ hstale.later ms
      · exact fun i file hi ↦ hpunctual _ (List.mem_of_getElem? hi) file rfl
  | spawn =>
      have hfile : ∀ i file, (world.next .spawn).fileOf i = some file →
          world.fileOf i = some file := by
        intro i file hi
        change (world.phases ++ [Phase.idle])[i]?.bind Phase.file = some file at hi
        by_cases hlt : i < world.phases.length
        · rw [List.getElem?_append_left hlt] at hi
          exact hi
        · rw [List.getElem?_append_right (not_lt.mp hlt)] at hi
          cases hlast : [Phase.idle][i - world.phases.length]? with
          | none => simp [hlast] at hi
          | some phase =>
              have hidle := List.mem_of_getElem? hlast
              rw [hlast, List.mem_singleton.mp hidle] at hi
              cases hi
      refine ⟨?_, h.lock_fresh, ?_, ?_, ?_⟩
      · exact fun i file hi ↦ h.fresh i file (hfile i file hi)
      · exact fun i j file other hi hj ↦ h.distinct i j file other (hfile i file hi)
          (hfile j other hj)
      · exact fun i file hi ↦ h.standing i file (hfile i file hi)
      · intro i file hi
        have hmem := List.mem_of_getElem? hi
        rcases List.mem_append.mp hmem with hold | hnew
        · obtain ⟨j, hj⟩ := List.mem_iff_getElem?.mp hold
          exact h.timely j file hj
        · cases List.mem_singleton.mp hnew

def Exclusive (world : LockWorld) : Prop :=
  ∀ (i j : ℕ) (file other : LockFile), world.phases[i]? = some (.holding file) →
    world.phases[j]? = some (.holding other) → i = j

/-- A process that holds the lock finds no file of another one at its path, so that dropping the
guard removes its own. -/
def DropsOwn (world : LockWorld) : Prop :=
  ∀ (i : ℕ) (file : LockFile), world.phases[i]? = some (.holding file) →
    ∀ found ∈ world.lock, found.serial = file.serial

/-- In every careful interleaving one process holds the lock at most, and drops its own file. -/
theorem lock_exclusive (events : List Event)
    (hpunctual : Runs.Along next Punctual {} events)
    (hcareful : Runs.Along next Careful {} events) :
    (Runs.run next {} events).Exclusive ∧ (Runs.run next {} events).DropsOwn := by
  have hstart : Inv {} := by constructor <;> simp [fileOf]
  have hstep : ∀ (world : LockWorld) (event : Event), world.Inv →
      world.Punctual event ∧ world.Careful event → (world.next event).Inv :=
    fun _ _ h hevent ↦ h.next hevent.1 hevent.2
  have hinv := Runs.invariant_along hstep hstart (hpunctual.and hcareful)
  refine ⟨?_, ?_⟩
  · intro i j file other hi hj
    have hlock := (hinv.lock_of_holding hi).symm.trans (hinv.lock_of_holding hj)
    have hfile : ∀ (k : ℕ) (held : LockFile),
        (Runs.run LockWorld.next {} events).phases[k]? = some (.holding held) →
        (Runs.run LockWorld.next {} events).fileOf k = some held := by
      intro k held hk
      rw [fileOf, hk]
      rfl
    exact hinv.distinct i j file other (hfile i file hi) (hfile j other hj)
      (congrArg LockFile.serial (Option.some.inj hlock))
  · intro i file hi found hfound
    rw [hinv.lock_of_holding hi] at hfound
    rw [Option.some.inj hfound]

/-! ## Two waiters on one stale lock -/

section Demo

def demoSteps (process count : ℕ) : List Event :=
  List.replicate count (.step process false)

def demoCrash : List Event :=
  [.spawn, .spawn, .spawn, .begin 0] ++ demoSteps 0 4 ++
    [.crash 0, .tick 30001, .begin 1] ++ demoSteps 1 3

/-- Process 2 finds the same lock stale, and removes the one that process 1 has created. -/
theorem two_waiters_hold_lock :
    ¬ ∀ events : List Event, Runs.Along next Punctual {} events →
      (Runs.run next {} events).Exclusive ∧ (Runs.run next {} events).DropsOwn := by
  intro h
  have hboth := (h (demoCrash ++ [.begin 2] ++ demoSteps 2 3 ++ demoSteps 1 5 ++ demoSteps 2 5)
    (by decide +kernel)).1 1 2 { serial := 1, modified := 30001 } { serial := 2, modified := 30001 }
  have hone := hboth (by decide +kernel) (by decide +kernel)
  cases hone

theorem lock_exclusive_demo :
    let events := demoCrash ++ demoSteps 1 5 ++ [.begin 2] ++ demoSteps 2 4 ++ demoSteps 1 1 ++
      demoSteps 2 4
    (Runs.run next {} events).Exclusive ∧ (Runs.run next {} events).DropsOwn :=
  lock_exclusive _ (by decide +kernel) (by decide +kernel)

end Demo

end LockWorld

end Fabushi.Gateway.StateLock
