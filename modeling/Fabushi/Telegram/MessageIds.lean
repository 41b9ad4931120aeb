import Fabushi.Library.MachineInt
import Fabushi.Library.Result
import Fabushi.Library.Runs

/-!
# Message ids of an MTProto session

A client id is the clock reading as a binary fixed-point number, in steps of
four, and at least four above the id before it. A server id is accepted once,
inside a time window, and above everything the replay window has forgotten.
-/

namespace Fabushi.Telegram

open MachineInt Result

inductive MessageIdError
  | outOfRange
  | invalidServerParity
  | outsideTimeWindow
  | replay
  | invalidFraction
  deriving DecidableEq, Repr

structure MessageIdGuard where
  lastClientMessageId : Option Int64
  recentServerMessageIds : Finset Int64
  replayWindowSize : ℕ

namespace MessageIdGuard

def new (replayWindowSize : ℕ) : MessageIdGuard where
  lastClientMessageId := none
  recentServerMessageIds := ∅
  replayWindowSize := max replayWindowSize 1

/-! ## Client ids -/

def fractionScale : ℤ := 2 ^ 32

def nanosPerSecond : ℤ := 1000000000

def checkedI128 (x : ℤ) : Option ℤ :=
  if -2 ^ 127 ≤ x ∧ x < 2 ^ 127 then some x else none

def clockCandidate (unixSeconds : Int64) (fractionalNanos : UInt32) :
    Except MessageIdError ℤ := do
  let seconds ← okOr (checkedI128 (unixSeconds.toInt * fractionScale)) .outOfRange
  let reading ← okOr
    (checkedI128 (seconds + fractionalNanos.toNat * fractionScale / nanosPerSecond)) .outOfRange
  -- `candidate & !3` clears the two low bits
  let candidate := reading - reading % 4
  if candidate % 2 ^ 32 = 0 then
    okOr (checkedI128 (candidate + 4)) .outOfRange
  else
    .ok candidate

def following (lastClientMessageId : Option Int64) (candidate : ℤ) : Except MessageIdError ℤ :=
  match lastClientMessageId with
  | some last => do
      let successor ← okOr (checkedI128 (last.toInt + 4)) .outOfRange
      pure (max candidate successor)
  | none => .ok candidate

def generateClientMessageId (g : MessageIdGuard) (unixSeconds : Int64)
    (fractionalNanos : UInt32) : Except MessageIdError (Int64 × MessageIdGuard) := do
  ensure (fractionalNanos.toNat < 1000000000) .invalidFraction
  let candidate ← clockCandidate unixSeconds fractionalNanos
  let candidate ← following g.lastClientMessageId candidate
  let candidate ← okOr (tryFrom candidate) .outOfRange
  pure (candidate, { g with lastClientMessageId := some candidate })

/-! ## Server ids -/

def popFirst (ids : Finset Int64) : Finset Int64 :=
  ids.filter fun id ↦ ∃ other ∈ ids, other < id

def trim (size : ℕ) : ℕ → Finset Int64 → Finset Int64
  | 0, ids => ids
  | fuel + 1, ids => if size < ids.card then trim size fuel (popFirst ids) else ids

def validateServerMessageId (g : MessageIdGuard) (messageId nowUnixSeconds : Int64) :
    Except MessageIdError MessageIdGuard := do
  ensure (messageId.toInt % 2 = 1) .invalidServerParity
  let messageSeconds := messageId.toInt / 2 ^ 32
  ensure ((saturatingSub nowUnixSeconds 300).toInt ≤ messageSeconds ∧
    messageSeconds ≤ (saturatingAdd nowUnixSeconds 30).toInt) .outsideTimeWindow
  let ids := g.recentServerMessageIds
  ensure (¬ (messageId ∈ ids ∨ (g.replayWindowSize ≤ ids.card ∧
    ids.Nonempty ∧ ∀ id ∈ ids, messageId ≤ id))) .replay
  let ids := insert messageId ids
  pure { g with recentServerMessageIds := trim g.replayWindowSize ids.card ids }

/-! ## A session -/

inductive Call
  | generateClientMessageId (unixSeconds : Int64) (fractionalNanos : UInt32)
  | validateServerMessageId (messageId nowUnixSeconds : Int64)

def next (g : MessageIdGuard) : Call → MessageIdGuard
  | .generateClientMessageId unixSeconds fractionalNanos =>
      match g.generateClientMessageId unixSeconds fractionalNanos with
      | .ok (_, g') => g'
      | .error _ => g
  | .validateServerMessageId messageId nowUnixSeconds =>
      match g.validateServerMessageId messageId nowUnixSeconds with
      | .ok g' => g'
      | .error _ => g

def issued (g : MessageIdGuard) : Call → Option Int64
  | .generateClientMessageId unixSeconds fractionalNanos =>
      match g.generateClientMessageId unixSeconds fractionalNanos with
      | .ok (id, _) => some id
      | .error _ => none
  | .validateServerMessageId _ _ => none

def clientIds (g : MessageIdGuard) : List Call → List Int64
  | [] => []
  | call :: calls => (g.issued call).toList ++ (g.next call).clientIds calls

/-! ## What the clock asks for -/

theorem checkedI128_eq_some {x y : ℤ} :
    checkedI128 x = some y ↔ (-2 ^ 127 ≤ x ∧ x < 2 ^ 127) ∧ x = y := by
  unfold checkedI128
  split <;> simp_all

def clockId (unixSeconds : Int64) (fractionalNanos : UInt32) : ℤ :=
  let reading := unixSeconds.toInt * 2 ^ 32 + fractionalNanos.toNat * 2 ^ 32 / 1000000000
  let aligned := reading - reading % 4
  if aligned % 2 ^ 32 = 0 then aligned + 4 else aligned

theorem clockCandidate_eq {unixSeconds : Int64} {fractionalNanos : UInt32}
    (h : fractionalNanos.toNat < 1000000000) :
    clockCandidate unixSeconds fractionalNanos = .ok (clockId unixSeconds fractionalNanos) := by
  obtain ⟨hlo, hhi⟩ := inRange_toInt unixSeconds
  have hseconds : checkedI128 (unixSeconds.toInt * fractionScale) =
      some (unixSeconds.toInt * 2 ^ 32) := by
    rw [checkedI128_eq_some, fractionScale]
    omega
  have hreading : checkedI128 (unixSeconds.toInt * 2 ^ 32 +
      fractionalNanos.toNat * fractionScale / nanosPerSecond) =
      some (unixSeconds.toInt * 2 ^ 32 + fractionalNanos.toNat * 2 ^ 32 / 1000000000) := by
    rw [checkedI128_eq_some, fractionScale, nanosPerSecond]
    omega
  simp only [clockCandidate, clockId, hseconds, hreading, okOr, bind, Except.bind]
  split
  · have haligned : ∀ x : ℤ, -2 ^ 100 ≤ x → x < 2 ^ 100 →
        checkedI128 (x - x % 4 + 4) = some (x - x % 4 + 4) := by
      intro x _ _
      rw [checkedI128_eq_some]
      omega
    rw [haligned _ (by omega) (by omega)]
  · rfl

theorem four_dvd_clockId (unixSeconds : Int64) (fractionalNanos : UInt32) :
    (4 : ℤ) ∣ clockId unixSeconds fractionalNanos := by
  unfold clockId
  dsimp only
  split <;> omega

theorem clockId_mod_ne_zero (unixSeconds : Int64) (fractionalNanos : UInt32) :
    clockId unixSeconds fractionalNanos % 2 ^ 32 ≠ 0 := by
  unfold clockId
  dsimp only
  split <;> omega

theorem clockId_div {unixSeconds : Int64} {fractionalNanos : UInt32}
    (h : fractionalNanos.toNat < 1000000000) :
    clockId unixSeconds fractionalNanos / 2 ^ 32 = unixSeconds.toInt := by
  unfold clockId
  dsimp only
  split <;> omega

/-! ## One call -/

def nextId (lastClientMessageId : Option Int64) (unixSeconds : Int64)
    (fractionalNanos : UInt32) : ℤ :=
  match lastClientMessageId with
  | some last => max (clockId unixSeconds fractionalNanos) (last.toInt + 4)
  | none => clockId unixSeconds fractionalNanos

theorem following_eq (lastClientMessageId : Option Int64) (unixSeconds : Int64)
    (fractionalNanos : UInt32) :
    following lastClientMessageId (clockId unixSeconds fractionalNanos) =
      .ok (nextId lastClientMessageId unixSeconds fractionalNanos) := by
  cases lastClientMessageId with
  | none => rfl
  | some last =>
      obtain ⟨hlo, hhi⟩ := inRange_toInt last
      have hsuccessor : checkedI128 (last.toInt + 4) = some (last.toInt + 4) := by
        rw [checkedI128_eq_some]
        omega
      simp only [following, nextId, hsuccessor, okOr]
      rfl

theorem generateClientMessageId_eq_ok {g g' : MessageIdGuard} {unixSeconds id : Int64}
    {fractionalNanos : UInt32} :
    g.generateClientMessageId unixSeconds fractionalNanos = .ok (id, g') ↔
      fractionalNanos.toNat < 1000000000 ∧
        id.toInt = nextId g.lastClientMessageId unixSeconds fractionalNanos ∧
          g' = { g with lastClientMessageId := some id } := by
  simp only [generateClientMessageId, bind_eq_ok, ensure_eq_ok, okOr_eq_ok, tryFrom_eq_some]
  constructor
  · rintro ⟨-, hnanos, clock, hclock, candidate, hcandidate, id', hid, hpure⟩
    rw [clockCandidate_eq hnanos] at hclock
    obtain rfl := Except.ok.inj hclock
    rw [following_eq] at hcandidate
    have hcandidate := Except.ok.inj hcandidate
    subst hcandidate
    obtain ⟨rfl, rfl⟩ := Prod.mk.inj (Except.ok.inj hpure)
    exact ⟨hnanos, hid, rfl⟩
  · rintro ⟨hnanos, hid, rfl⟩
    refine ⟨(), hnanos, _, clockCandidate_eq hnanos, _, following_eq .., id, hid, rfl⟩

/-! ## Every run -/

def Aligned (g : MessageIdGuard) : Prop :=
  ∀ last ∈ g.lastClientMessageId, (4 : ℤ) ∣ last.toInt

/-- After an id with the greatest fraction an id is asked for in a later second only, as
long as there is a later second. -/
def MovesOn (g : MessageIdGuard) : Call → Prop
  | .generateClientMessageId unixSeconds fractionalNanos =>
      fractionalNanos.toNat < 1000000000 → ∀ last ∈ g.lastClientMessageId,
        last.toInt % 2 ^ 32 = 0xfffffffc → last.toInt / 2 ^ 32 < 2 ^ 31 - 1 →
          last.toInt / 2 ^ 32 < unixSeconds.toInt
  | .validateServerMessageId _ _ => True

def ValidIds (ids : List Int64) : Prop :=
  ids.Pairwise (· < ·) ∧ ∀ id ∈ ids, (4 : ℤ) ∣ id.toInt ∧ id.toInt % 2 ^ 32 ≠ 0

theorem nextId_fraction_iff {g : MessageIdGuard} (hg : g.Aligned) {unixSeconds : Int64}
    {fractionalNanos : UInt32} (hnanos : fractionalNanos.toNat < 1000000000) :
    (InRange (nextId g.lastClientMessageId unixSeconds fractionalNanos) →
      nextId g.lastClientMessageId unixSeconds fractionalNanos % 2 ^ 32 ≠ 0) ↔
      g.MovesOn (.generateClientMessageId unixSeconds fractionalNanos) := by
  have hfraction := clockId_mod_ne_zero unixSeconds fractionalNanos
  cases hlast : g.lastClientMessageId with
  | none =>
      refine iff_of_true (fun _ ↦ hfraction) fun _ last hmem ↦ ?_
      rw [hlast] at hmem
      cases hmem
  | some last =>
      have hmoves : g.MovesOn (.generateClientMessageId unixSeconds fractionalNanos) ↔
          (last.toInt % 2 ^ 32 = 0xfffffffc → last.toInt / 2 ^ 32 < 2 ^ 31 - 1 →
            last.toInt / 2 ^ 32 < unixSeconds.toInt) := by
        simp [MovesOn, hlast, hnanos]
      have hseconds : clockId unixSeconds fractionalNanos / 2 ^ 32 = unixSeconds.toInt :=
        clockId_div hnanos
      have haligned : (4 : ℤ) ∣ last.toInt := hg last hlast
      obtain ⟨hlo, hhi⟩ := inRange_toInt last
      rw [hmoves, nextId, InRange]
      omega

theorem four_dvd_nextId {g : MessageIdGuard} (hg : g.Aligned) (unixSeconds : Int64)
    (fractionalNanos : UInt32) :
    (4 : ℤ) ∣ nextId g.lastClientMessageId unixSeconds fractionalNanos := by
  have hclock := four_dvd_clockId unixSeconds fractionalNanos
  cases hlast : g.lastClientMessageId with
  | none => exact hclock
  | some last =>
      have haligned := hg last hlast
      rw [nextId]
      omega

theorem issued_eq_some {g : MessageIdGuard} {call : Call} {id : Int64}
    (h : g.issued call = some id) :
    ∃ unixSeconds fractionalNanos, call = .generateClientMessageId unixSeconds fractionalNanos ∧
      fractionalNanos.toNat < 1000000000 ∧
        id.toInt = nextId g.lastClientMessageId unixSeconds fractionalNanos ∧
          g.next call = { g with lastClientMessageId := some id } := by
  cases call with
  | validateServerMessageId messageId nowUnixSeconds => cases h
  | generateClientMessageId unixSeconds fractionalNanos =>
      cases hgenerate : g.generateClientMessageId unixSeconds fractionalNanos with
      | error e => simp [issued, hgenerate] at h
      | ok result =>
          obtain ⟨id', g'⟩ := result
          obtain rfl : id' = id := by simpa [issued, hgenerate] using h
          obtain ⟨hnanos, hid, rfl⟩ := generateClientMessageId_eq_ok.mp hgenerate
          exact ⟨unixSeconds, fractionalNanos, rfl, hnanos, hid, by simp [next, hgenerate]⟩

theorem issued_eq_none {g : MessageIdGuard} (hg : g.Aligned) {call : Call}
    (h : g.issued call = none) :
    (g.next call).lastClientMessageId = g.lastClientMessageId ∧ g.MovesOn call := by
  cases call with
  | validateServerMessageId messageId nowUnixSeconds =>
      refine ⟨?_, trivial⟩
      simp only [next]
      split
      · rename_i g' hvalidate
        simp only [validateServerMessageId, bind_eq_ok] at hvalidate
        obtain ⟨-, -, -, -, -, -, hpure⟩ := hvalidate
        rw [← Except.ok.inj hpure]
      · rfl
  | generateClientMessageId unixSeconds fractionalNanos =>
      cases hgenerate : g.generateClientMessageId unixSeconds fractionalNanos with
      | ok result => simp [issued, hgenerate] at h
      | error e =>
          refine ⟨by simp [next, hgenerate], ?_⟩
          by_cases hnanos : fractionalNanos.toNat < 1000000000
          · rw [← nextId_fraction_iff hg hnanos]
            intro hrange
            -- an id in the range would have been returned
            have hok := generateClientMessageId_eq_ok.mpr
              ⟨hnanos, toInt_ofInt hrange, rfl⟩
            rw [hok] at hgenerate
            cases hgenerate
          · exact fun hlt ↦ absurd hlt hnanos

theorem clientIds_spec {g : MessageIdGuard} (hg : g.Aligned) (calls : List Call) :
    (g.clientIds calls).Pairwise (· < ·) ∧
      (∀ id ∈ g.clientIds calls, (4 : ℤ) ∣ id.toInt ∧ ∀ last ∈ g.lastClientMessageId, last < id) ∧
        ((∀ id ∈ g.clientIds calls, id.toInt % 2 ^ 32 ≠ 0) ↔ Runs.Along next MovesOn g calls) := by
  induction calls generalizing g with
  | nil => simp [clientIds, Runs.Along]
  | cons call calls ih =>
      cases hissued : g.issued call with
      | none =>
          obtain ⟨hlast, hmoves⟩ := issued_eq_none hg hissued
          have hg' : (g.next call).Aligned := by
            unfold Aligned
            rw [hlast]
            exact hg
          obtain ⟨hpairwise, hafter, hfractions⟩ := ih hg'
          simp only [clientIds, hissued, Option.toList_none, List.nil_append]
          rw [hlast] at hafter
          exact ⟨hpairwise, hafter, hfractions.trans (and_iff_right hmoves).symm⟩
      | some id =>
          obtain ⟨unixSeconds, fractionalNanos, rfl, hnanos, hid, hnext⟩ := issued_eq_some hissued
          have hdvd : (4 : ℤ) ∣ id.toInt := by
            rw [hid]
            exact four_dvd_nextId hg unixSeconds fractionalNanos
          have hg' : (g.next (.generateClientMessageId unixSeconds fractionalNanos)).Aligned := by
            rw [hnext]
            rintro last hlast
            obtain rfl := Option.some.inj hlast
            exact hdvd
          have hlater : ∀ last ∈ g.lastClientMessageId, last < id := by
            intro last hlast
            rw [Option.mem_def.mp hlast, nextId] at hid
            rw [Int64.lt_iff_toInt_lt]
            omega
          have hfraction : id.toInt % 2 ^ 32 ≠ 0 ↔
              g.MovesOn (.generateClientMessageId unixSeconds fractionalNanos) := by
            rw [← nextId_fraction_iff hg hnanos, ← hid]
            exact ⟨fun h _ ↦ h, fun h ↦ h (inRange_toInt id)⟩
          obtain ⟨hpairwise, hafter, hfractions⟩ := ih hg'
          simp only [clientIds, hissued, Option.toList_some, List.singleton_append,
            List.pairwise_cons, List.forall_mem_cons]
          have hlast : id ∈ (g.next
              (.generateClientMessageId unixSeconds fractionalNanos)).lastClientMessageId := by
            rw [hnext]
            rfl
          refine ⟨⟨fun id' hid' ↦ (hafter id' hid').2 id hlast, hpairwise⟩,
            ⟨⟨hdvd, hlater⟩, fun id' hid' ↦ ⟨(hafter id' hid').1, fun last hmem ↦ ?_⟩⟩, ?_⟩
          · exact Int64.lt_trans (hlater last hmem) ((hafter id' hid').2 id hlast)
          · exact and_congr hfraction hfractions

theorem aligned_new (replayWindowSize : ℕ) : (new replayWindowSize).Aligned := by
  intro last hlast
  cases hlast

/-- The client ids of a session are valid exactly when no call carries the fraction of the
last id into its seconds. -/
theorem clientIds_valid_iff (replayWindowSize : ℕ) (calls : List Call) :
    ValidIds ((new replayWindowSize).clientIds calls) ↔
      Runs.Along next MovesOn (new replayWindowSize) calls := by
  obtain ⟨hpairwise, hafter, hfractions⟩ := clientIds_spec (aligned_new replayWindowSize) calls
  rw [← hfractions]
  constructor
  · intro hvalid id hid
    exact (hvalid.2 id hid).2
  · intro hnonzero
    exact ⟨hpairwise, fun id hid ↦ ⟨(hafter id hid).1, hnonzero id hid⟩⟩

/-- Three ids in the last nanosecond of a second: the third has no fraction. -/
theorem clientIds_carry :
    ¬ ∀ (replayWindowSize : ℕ) (calls : List Call),
      ValidIds ((new replayWindowSize).clientIds calls) := by
  intro h
  have hzero := (h 300 (List.replicate 3
    (.generateClientMessageId 1700000000 999999999))).2 (1700000001 * 2 ^ 32) (by decide +kernel)
  exact hzero.2 (by decide +kernel)

end MessageIdGuard

end Fabushi.Telegram
