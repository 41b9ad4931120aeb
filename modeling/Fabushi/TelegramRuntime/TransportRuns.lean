import Fabushi.TelegramRuntime.Transport

/-!
# A bootstrapped session and the requests that overlap it

A session that was taken before a bootstrap is put back after it, over the new one. Where
every session that is put back is the newest of its client, the newest session is the
stored one, or nothing is stored and a request has it.
-/

namespace Fabushi.TelegramRuntime

variable {Contents Directory Srp : Type}

namespace World

def NewestBorrowed (world : World Contents Directory Srp) : Prop :=
  ∃ phase ∈ world.phases, ∃ session ∈ phase.session, session.serial = world.installed

/-- What the client stores is the session stored last by a bootstrap; where it stores none,
that session is borrowed. -/
def Kept (world : World Contents Directory Srp) : Prop :=
  ∀ client ∈ world.client,
    (∀ session ∈ client.transport, session.serial = world.installed) ∧
      (client.transport = none → 0 < world.installed → world.NewestBorrowed)

def ReturnsNewest (world : World Contents Directory Srp) : Event Contents Directory Srp → Prop
  | .finish request => ∀ kind session operation,
      world.phases[request]? = some (.returning kind session operation) →
        world.client.isSome = true → session.serial = world.installed
  | _ => True

def start : World Contents Directory Srp :=
  { client := some {} }

section Steps

variable {world : World Contents Directory Srp}

theorem conclude_transport (client : RuntimeClient Contents Directory Srp) (kind : Borrower)
    (outcome : kind.Outcome Directory Srp) :
    (client.conclude kind outcome).1.transport = client.transport := by
  cases kind with
  | initializeConnection => rfl
  | sendAuthenticationCode phoneNumber => cases outcome <;> rfl
  | submitAuthenticationCode =>
      cases outcome with
      | password hasRecovery hint pattern srp =>
          simp only [RuntimeClient.conclude]
          cases srp <;> cases client.authContext <;> rfl
      | _ => rfl
  | _ => rfl

theorem newestBorrowed_setPhase {request : ℕ} {old phase : Phase Contents Directory Srp}
    (hold : world.phases[request]? = some old)
    (hserial : phase.session.map EstablishedSession.serial =
      old.session.map EstablishedSession.serial)
    (hborrowed : world.NewestBorrowed) : (world.setPhase request phase).NewestBorrowed := by
  obtain ⟨holder, hmem, session, hsession, hnewest⟩ := hborrowed
  obtain ⟨i, hi⟩ := List.mem_iff_getElem?.mp hmem
  have hlength : request < world.phases.length := (List.getElem?_eq_some_iff.mp hold).1
  by_cases hrequest : request = i
  · subst hrequest
    obtain rfl := Option.some.inj (hold.symm.trans hi)
    rw [Option.mem_def.mp hsession, Option.map_some, Option.map_eq_some_iff] at hserial
    obtain ⟨session', hsession', hserial'⟩ := hserial
    exact ⟨phase, List.mem_set hlength phase, session', hsession', hserial'.trans hnewest⟩
  · refine ⟨holder, ?_, session, hsession, hnewest⟩
    apply List.mem_of_getElem?
    exact (List.getElem?_set_ne hrequest).trans hi

theorem Kept.setPhase (h : world.Kept) {request : ℕ} {old phase : Phase Contents Directory Srp}
    (hold : world.phases[request]? = some old)
    (hserial : phase.session.map EstablishedSession.serial =
      old.session.map EstablishedSession.serial) : (world.setPhase request phase).Kept := by
  intro client hclient
  obtain ⟨hstored, hborrowed⟩ := h client hclient
  exact ⟨hstored, fun hnone hpos ↦ newestBorrowed_setPhase hold hserial (hborrowed hnone hpos)⟩

theorem kept_of_stored {client : RuntimeClient Contents Directory Srp}
    {session : EstablishedSession Contents} (hclient : world.client = some client)
    (htransport : client.transport = some session) (hnewest : session.serial = world.installed) :
    world.Kept := by
  intro client' hclient'
  obtain rfl := Option.some.inj (hclient.symm.trans hclient')
  refine ⟨?_, fun hnone ↦ ?_⟩
  · intro session' hsession'
    obtain rfl := Option.some.inj (htransport.symm.trans hsession')
    exact hnewest
  · rw [htransport] at hnone
    cases hnone

theorem Kept.take (h : world.Kept) {request : ℕ} {kind : Borrower}
    (hphase : world.phases[request]? = some (.prepared kind)) :
    (world.take request kind).Kept := by
  cases hclient : world.client with
  | none =>
      simp only [World.take, hclient]
      exact h.setPhase hphase rfl
  | some client =>
      cases htransport : client.transport with
      | none =>
          simp only [World.take, hclient, htransport]
          exact h.setPhase hphase rfl
      | some session =>
          have hlength := (List.getElem?_eq_some_iff.mp hphase).1
          simp only [World.take, hclient, htransport]
          intro client' hclient'
          obtain rfl := Option.some.inj hclient'
          refine ⟨fun _ hnone ↦ absurd hnone (by simp), fun _ _ ↦ ?_⟩
          refine ⟨.borrowing kind session, List.mem_set hlength _, session, rfl, ?_⟩
          exact (h client hclient).1 session htransport

theorem Kept.install (h : world.Kept) {request : ℕ} {contents : Contents}
    (hphase : world.phases[request]? = some (.connected contents)) :
    (world.install request contents).Kept := by
  unfold World.install
  cases hclient : world.client with
  | none => exact h.setPhase hphase rfl
  | some client => exact kept_of_stored rfl rfl rfl

theorem putBack_transport {request : ℕ} {kind : Borrower} {session : EstablishedSession Contents}
    {operation : Except RuntimeError (kind.Outcome Directory Srp)}
    {client : RuntimeClient Contents Directory Srp} (hclient : world.client = some client) :
    (world.putBack request kind session operation).installed = world.installed ∧
      ∃ client', (world.putBack request kind session operation).client = some client' ∧
        client'.transport = some session := by
  unfold putBack
  rw [hclient]
  cases operation with
  | error e => exact ⟨rfl, _, rfl, rfl⟩
  | ok outcome => exact ⟨rfl, _, rfl, conclude_transport ..⟩

theorem kept_putBack_iff {request : ℕ} {kind : Borrower} {session : EstablishedSession Contents}
    {operation : Except RuntimeError (kind.Outcome Directory Srp)} :
    (world.putBack request kind session operation).Kept ↔
      (world.client.isSome = true → session.serial = world.installed) := by
  cases hclient : world.client with
  | none =>
      refine iff_of_true ?_ (fun hsome ↦ absurd hsome (by simp))
      intro client' hclient'
      simp [World.putBack, hclient, World.setPhase] at hclient'
  | some client =>
      have hput : (world.putBack request kind session operation).installed = world.installed ∧
          ∃ client', (world.putBack request kind session operation).client = some client' ∧
            client'.transport = some session := putBack_transport hclient
      obtain ⟨hinstalled, client', hclient', htransport⟩ := hput
      constructor
      · intro hkept _
        rw [← hinstalled]
        exact (hkept client' hclient').1 session htransport
      · intro hnewest
        apply kept_of_stored hclient' htransport
        rw [hinstalled]
        exact hnewest rfl

theorem Kept.next (h : world.Kept) (event : Event Contents Directory Srp) :
    (world.next event).Kept ↔ world.ReturnsNewest event := by
  cases event with
  | call request =>
      refine iff_of_true (fun client hclient ↦ ?_) trivial
      obtain ⟨hstored, hborrowed⟩ := h client hclient
      refine ⟨hstored, fun hnone hpos ↦ ?_⟩
      obtain ⟨phase, hmem, hsession⟩ := hborrowed hnone hpos
      exact ⟨phase, List.mem_append_left _ hmem, hsession⟩
  | prepare request parameters body =>
      refine iff_of_true ?_ trivial
      simp only [World.next]
      split
      · rename_i kind hphase
        split <;> exact h.setPhase hphase rfl
      · exact h
  | connect request connection =>
      refine iff_of_true ?_ trivial
      simp only [World.next]
      split
      · rename_i hphase
        split <;> exact h.setPhase hphase rfl
      · exact h
  | take request =>
      refine iff_of_true ?_ trivial
      simp only [World.next]
      split
      · rename_i kind hphase
        exact h.take hphase
      · exact h
  | exchange request contents operation =>
      refine iff_of_true ?_ trivial
      simp only [World.next]
      split
      · rename_i kind session hphase
        exact h.setPhase hphase rfl
      · exact h
  | finish request =>
      simp only [World.next]
      split
      · rename_i contents hphase
        refine iff_of_true (h.install hphase) ?_
        intro kind session operation hreturning
        rw [hphase] at hreturning
        cases hreturning
      · rename_i kind session operation hphase
        refine kept_putBack_iff.trans ⟨?_, fun hnewest ↦ hnewest _ _ _ hphase⟩
        intro hnewest kind' session' operation' hreturning
        obtain ⟨rfl, hsame⟩ := Phase.returning.inj
          (Option.some.inj (hphase.symm.trans hreturning))
        obtain ⟨hsession, -⟩ := hsame
        rw [← hsession]
        exact hnewest
      · rename_i hnone
        refine iff_of_true h ?_
        intro kind session operation hreturning
        exact absurd hreturning (hnone kind session operation)
  | authorize state =>
      refine iff_of_true (fun client hclient ↦ ?_) trivial
      obtain ⟨client', hclient', rfl⟩ := Option.map_eq_some_iff.mp hclient
      exact h client' hclient'
  | close =>
      refine iff_of_true (fun client hclient ↦ ?_) trivial
      cases hclient

end Steps

theorem kept_start : (start : World Contents Directory Srp).Kept := by
  intro client hclient
  obtain rfl := Option.some.inj hclient
  exact ⟨fun _ hnone ↦ absurd hnone (by simp), fun _ hpos ↦ absurd hpos (Nat.lt_irrefl 0)⟩

/-- In every order of the steps of concurrent requests the newest session of the client is
stored, or borrowed while nothing is stored, at every point of the run exactly when each
session is put back before a bootstrap stores a newer one. -/
theorem newest_session_kept_iff (events : List (Event Contents Directory Srp)) :
    (∀ n, (Runs.run next (start : World Contents Directory Srp) (events.take n)).Kept) ↔
      Runs.Along next ReturnsNewest start events := by
  have hrun : ∀ world : World Contents Directory Srp, world.Kept →
      ((∀ n, (Runs.run next world (events.take n)).Kept) ↔
        Runs.Along next ReturnsNewest world events) := by
    induction events with
    | nil => exact fun world hkept ↦ iff_of_true (fun n ↦ by simpa using hkept) trivial
    | cons event events ih =>
        intro world hkept
        have hstep := hkept.next event
        constructor
        · intro h
          have hnext : (world.next event).Kept := by simpa using h 1
          refine ⟨hstep.mp hnext, (ih _ hnext).mp fun n ↦ ?_⟩
          simpa using h (n + 1)
        · rintro ⟨hnewest, hrest⟩ n
          cases n with
          | zero => exact hkept
          | succ n => exact (ih _ (hstep.mpr hnewest)).mpr hrest n
  exact hrun start kept_start

/-! ## A slow request over a new session -/

def demoBootstrap (i c : ℕ) : List (Event ℕ ℕ ℕ) :=
  [.call .bootstrapTransport, .prepare i (.ok ()) (.ok ()), .connect i (.ok c), .finish i]

def demoSlow : List (Event ℕ ℕ ℕ) :=
  demoBootstrap 0 10 ++
    [.call (.borrow .initializeConnection), .prepare 1 (.ok ()) (.ok ()), .take 1] ++
    demoBootstrap 2 20 ++
    [.exchange 1 11 fun _ ↦ .error (.network "timed out"), .finish 1]

theorem newest_session_overwritten :
    ¬ ∀ (events : List (Event ℕ ℕ ℕ)),
      (Runs.run next (start : World ℕ ℕ ℕ) events).Kept := by
  intro h
  have hstored : ((Runs.run next start demoSlow).client.bind RuntimeClient.transport).map
      EstablishedSession.serial = some 1 := by decide +kernel
  have hinstalled : (Runs.run next (start : World ℕ ℕ ℕ) demoSlow).installed = 2 := by
    decide +kernel
  obtain ⟨session, hsession, hserial⟩ := Option.map_eq_some_iff.mp hstored
  obtain ⟨client, hclient, htransport⟩ := Option.bind_eq_some_iff.mp hsession
  have hnewest := (h demoSlow client hclient).1 session htransport
  omega

end World

end Fabushi.TelegramRuntime
