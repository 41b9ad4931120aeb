import Fabushi.Library.Interleaving
import Fabushi.Library.OrderedMap

/-!
# One secret store, many processes

The keyring and the secrets file are shared, and no lock is held between their
steps. A first write creates the passphrase by a load and a later save, and every
write replaces the file by what was read from it with one entry changed.
-/

namespace Fabushi.Secrets.Shared

open Interleaving Interleaving.Prog Std

abbrev Contents := BTreeMap String String

def edit (contents : Contents) (key : String) : Option String → Contents
  | some value => contents.insert key value
  | none => contents.erase key

/-- A step on the shared state. A write carries the contents it was made from;
the generated passphrases are numbered. -/
inductive Op where
  | exists
  | read
  | load
  | loadLegacy
  | generate
  | save (passphrase : ℕ)
  | write (base : Contents) (passphrase : ℕ) (key : String) (value : Option String)
  deriving DecidableEq

@[reducible] def Ans : Op → Type
  | .exists => Bool
  | .read => Option (ℕ × Contents)
  | .load | .loadLegacy => Option ℕ
  | .generate => ℕ
  | .save _ | .write .. => Unit

/-- The keyring entries, the file with the passphrase it is encrypted under, and
the entries of the calls that have returned. -/
structure Home where
  keyring : Option ℕ := none
  legacy : Option ℕ := none
  file : Option (ℕ × Contents) := none
  generated : ℕ := 0
  returned : Contents := ∅
  deriving DecidableEq

/-- A write is the last step of its call. -/
def exec : (op : Op) → Home → Home × Ans op
  | .exists, home => (home, home.file.isSome)
  | .read, home => (home, home.file)
  | .load, home => (home, home.keyring)
  | .loadLegacy, home => (home, home.legacy)
  | .generate, home => ({ home with generated := home.generated + 1 }, home.generated)
  | .save passphrase, home => ({ home with keyring := some passphrase }, ())
  | .write base passphrase key value, home =>
      ({ home with
          file := some (passphrase, edit base key value)
          returned := edit home.returned key value }, ())

inductive Outcome where
  | done
  | value (value : Option String)
  | removed (removed : Bool)
  | failed
  deriving DecidableEq

def ask (op : Op) : Prog Op Ans (Ans op) :=
  .perform op

-- `hasLegacy`: the namespace has a legacy keyring service
variable (hasLegacy : Bool)

def createPassphrase : Prog Op Ans ℕ :=
  ask .generate >>= fun passphrase ↦ ask (.save passphrase) >>= fun _ ↦ .ret passphrase

def adoptPassphrase : Option ℕ → Prog Op Ans ℕ
  | some passphrase => ask (.save passphrase) >>= fun _ ↦ .ret passphrase
  | none => createPassphrase

def loadOrCreatePassphrase : Prog Op Ans ℕ :=
  ask .load >>= fun
    | some passphrase => .ret passphrase
    | none => ask .exists >>= fun present ↦
        if present && hasLegacy then ask .loadLegacy >>= adoptPassphrase else createPassphrase

def readFile : Option (ℕ × Contents) → Prog Op Ans (Option Contents)
  | none => .ret none
  | some (encryptedUnder, contents) => loadOrCreatePassphrase hasLegacy >>= fun passphrase ↦
      .ret (if passphrase = encryptedUnder then some contents else none)

def loadFile : Prog Op Ans (Option Contents) :=
  ask .exists >>= fun present ↦
    if present then ask .read >>= readFile hasLegacy else .ret (some ∅)

def saveFile (base : Contents) (key : String) (value : Option String) : Prog Op Ans Unit :=
  loadOrCreatePassphrase hasLegacy >>= fun passphrase ↦ ask (.write base passphrase key value)

inductive Call where
  | set (key value : String)
  | get (key : String)
  | delete (key : String)
  deriving DecidableEq

def serve : Call → Prog Op Ans Outcome
  | .set key value =>
      if value = "" then .ret .failed
      else loadFile hasLegacy >>= fun
        | none => .ret .failed
        | some contents =>
            saveFile hasLegacy contents key (some value) >>= fun _ ↦ .ret .done
  | .get key => loadFile hasLegacy >>= fun
      | none => .ret .failed
      | some contents => .ret (.value contents[key]?)
  | .delete key => loadFile hasLegacy >>= fun
      | none => .ret .failed
      | some contents =>
          if contents.contains key then
            saveFile hasLegacy contents key none >>= fun _ ↦ .ret (.removed true)
          else .ret (.removed false)

/-! ## The condition and the rule -/

def Home.contents (home : Home) : Contents :=
  (home.file.map Prod.snd).getD ∅

/-- No passphrase is saved over another one, and no write brings back an older
state of an entry of another key. -/
def Fresh (home : Home) : Op → Prop
  | .save _ => home.keyring = none
  | .write base _ key _ => home.contents.erase key = base.erase key
  | _ => True

instance (home : Home) (op : Op) : Decidable (Fresh home op) := by
  cases op <;> unfold Fresh <;> infer_instance

structure Home.Intact (home : Home) : Prop where
  readable : ∀ passphrase contents, home.file = some (passphrase, contents) →
    home.keyring = some passphrase
  contents : home.contents = home.returned

def Keeps (home home' : Home) : Prop :=
  ∀ passphrase, home.keyring = some passphrase → home'.keyring = some passphrase

def contract : Contract Op Ans Outcome Home where
  inv := Home.Intact
  guarantee := Keeps
  admits := Fresh
  shows := fun _ _ _ _ ↦ True
  refl := fun _ _ h ↦ h
  trans := fun _ _ _ h₁ h₂ p h ↦ h₂ p (h₁ p h)

variable {home : Home} {hasLegacy}

theorem edit_congr {base contents : Contents} {key : String}
    (h : contents.erase key = base.erase key) (value : Option String) :
    edit base key value = edit contents key value := by
  cases value with
  | none => exact h.symm
  | some value =>
    apply ExtTreeMap.ext_getElem?
    intro k
    have hk := congrArg (fun m : Contents ↦ m[k]?) h
    simp only [BTreeMap.get_erase] at hk
    simp only [edit, BTreeMap.get_insert]
    split_ifs at hk ⊢
    · rfl
    · exact hk.symm

theorem safe_quiet {op : Op} {next : Ans op → Prog Op Ans Outcome}
    (hquiet : ∀ home : Home, (exec op home).1.keyring = home.keyring ∧
      (exec op home).1.file = home.file ∧ (exec op home).1.returned = home.returned)
    (h : ∀ home' : Home, Keeps home home' →
      Safe exec contract (next (exec op home').2) (exec op home').1) :
    Safe exec contract (.call op next) home := by
  intro home' hkeeps hinv _
  obtain ⟨hkeyring, hfile, hreturned⟩ := hquiet home'
  refine ⟨⟨?_, ?_⟩, ?_, trivial, h home' hkeeps⟩
  · rw [hkeyring, hfile]
    exact hinv.readable
  · rw [Home.contents, hfile, hreturned]
    exact hinv.contents
  · intro passphrase hp
    rwa [hkeyring]

theorem safe_save {passphrase : ℕ} {next : Unit → Prog Op Ans Outcome}
    (h : ∀ home' : Home, home'.keyring = some passphrase → Safe exec contract (next ()) home') :
    Safe exec contract (.call (.save passphrase) next) home := by
  intro home' _ hinv hnone
  refine ⟨⟨?_, hinv.contents⟩, ?_, trivial, h _ rfl⟩
  · intro p contents hfile
    -- a file would have been written under an entry that is still there
    have hsome := hinv.readable p contents hfile
    rw [show home'.keyring = none from hnone] at hsome
    cases hsome
  · intro p hp
    rw [show home'.keyring = none from hnone] at hp
    cases hp

theorem safe_loadOrCreate {next : ℕ → Prog Op Ans Outcome}
    (h : ∀ (passphrase : ℕ) (home' : Home), home'.keyring = some passphrase →
      Safe exec contract (next passphrase) home') :
    Safe exec contract (loadOrCreatePassphrase hasLegacy >>= next) home := by
  have hcreate : ∀ home', Safe exec contract (createPassphrase >>= next) home' := fun home' ↦
    safe_quiet (fun _ ↦ ⟨rfl, rfl, rfl⟩) fun _ _ ↦ safe_save fun home' hp ↦ h _ home' hp
  refine safe_quiet (fun _ ↦ ⟨rfl, rfl, rfl⟩) fun home₁ _ ↦ ?_
  dsimp only [exec]
  cases hkeyring : home₁.keyring with
  | some passphrase => exact h passphrase home₁ hkeyring
  | none =>
    refine safe_quiet (fun _ ↦ ⟨rfl, rfl, rfl⟩) fun home₂ _ ↦ ?_
    change Safe exec contract ((if (home₂.file.isSome && hasLegacy) = true then
      ask .loadLegacy >>= adoptPassphrase else createPassphrase) >>= next) home₂
    split_ifs
    · refine safe_quiet (fun _ ↦ ⟨rfl, rfl, rfl⟩) fun home₃ _ ↦ ?_
      change Safe exec contract (adoptPassphrase home₃.legacy >>= next) home₃
      cases home₃.legacy with
      | some passphrase => exact safe_save fun home' hp ↦ h _ home' hp
      | none => exact hcreate home₃
    · exact hcreate home₂

theorem safe_loadFile {next : Option Contents → Prog Op Ans Outcome}
    (h : ∀ (contents : Option Contents) (home' : Home), Safe exec contract (next contents) home') :
    Safe exec contract (loadFile hasLegacy >>= next) home := by
  refine safe_quiet (fun _ ↦ ⟨rfl, rfl, rfl⟩) fun home₁ _ ↦ ?_
  change Safe exec contract ((if home₁.file.isSome = true then ask .read >>= readFile hasLegacy
    else .ret (some ∅)) >>= next) home₁
  split_ifs
  · refine safe_quiet (fun _ ↦ ⟨rfl, rfl, rfl⟩) fun home₂ _ ↦ ?_
    change Safe exec contract (readFile hasLegacy home₂.file >>= next) home₂
    cases home₂.file with
    | none => exact h none home₂
    | some file =>
      rw [readFile, bind_bind]
      exact safe_loadOrCreate fun passphrase home' _ ↦ h _ home'
  · exact h _ home₁

theorem safe_saveFile {base : Contents} {key : String} {value : Option String}
    {next : Unit → Prog Op Ans Outcome}
    (h : ∀ home' : Home, Safe exec contract (next ()) home') :
    Safe exec contract (saveFile hasLegacy base key value >>= next) home := by
  rw [saveFile, bind_bind]
  refine safe_loadOrCreate fun passphrase home₁ hkeyring ↦ ?_
  intro home₂ hkeeps hinv hfresh
  refine ⟨⟨?_, ?_⟩, fun _ hp ↦ hp, trivial, h _⟩
  · rintro p contents ⟨⟩
    exact hkeeps passphrase hkeyring
  · change edit base key value = edit home₂.returned key value
    rw [edit_congr hfresh, hinv.contents]

theorem safe_serve (c : Call) (home : Home) : Safe exec contract (serve hasLegacy c) home := by
  cases c with
  | set key value =>
    rw [serve]
    split_ifs
    · trivial
    · refine safe_loadFile fun contents home' ↦ ?_
      cases contents with
      | none => trivial
      | some contents => exact safe_saveFile fun _ ↦ trivial
  | get key =>
    refine safe_loadFile fun contents home' ↦ ?_
    cases contents <;> trivial
  | delete key =>
    refine safe_loadFile fun contents home' ↦ ?_
    cases contents with
    | none => trivial
    | some contents =>
      dsimp only
      split_ifs
      · exact safe_saveFile fun _ ↦ trivial
      · trivial

/-! ## Runs -/

/-- In every run whose saves and writes are fresh, the file can be decrypted with
the keyring entry and has the entries of the calls that have returned. -/
theorem fresh_runs_intact (hasLegacy : Bool) (events : List (Event Call))
    (hfresh : Runs.Along (World.next exec (serve hasLegacy)) (Admits Fresh) { db := {} } events) :
    (Runs.run (World.next exec (serve hasLegacy)) { db := {} } events).db.Intact :=
  (worldSafe_run (fun c home _ ↦ safe_serve c home)
    (C := contract) ⟨by rintro _ _ ⟨⟩, rfl⟩ hfresh).inv

def orderedEvents : List (Event Call) :=
  Event.start (.set "a" "1") :: List.replicate 6 (Event.step 0) ++
    Event.start (.set "b" "2") :: List.replicate 5 (Event.step 1)

theorem orderedEvents_intact :
    (Runs.run (World.next exec (serve true)) { db := {} } orderedEvents).db.Intact :=
  fresh_runs_intact true orderedEvents (by decide +kernel)

def firstEvents : List (Event Call) :=
  [Event.start (.set "a" "1"), Event.start (.set "b" "2")] ++ List.replicate 4 (Event.step 0) ++
    List.replicate 4 (Event.step 1) ++ [Event.step 0, Event.step 1, Event.step 1, Event.step 0]

/-- Both calls have returned, and the file is encrypted under a passphrase that
the keyring no longer has. -/
theorem first_calls_lose_the_key :
    (Runs.run (World.next exec (serve true)) { db := {} } firstEvents).pool =
      [.ret .done, .ret .done] ∧
    ¬ (Runs.run (World.next exec (serve true)) { db := {} } firstEvents).db.Intact := by
  refine ⟨rfl, fun hintact ↦ ?_⟩
  have hkeyring := hintact.readable 0 _ rfl
  cases hkeyring

end Fabushi.Secrets.Shared
