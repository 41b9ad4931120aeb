import Fabushi.Library.GreatestKept
import Fabushi.Telegram.MessageIds

/-!
# The replay window

The guard keeps the greatest server ids that it accepted, a bounded number of them. An id
that it has forgotten is below everything that it kept, and it is refused as too old: no
id is accepted twice, whatever the clock shows and in whatever order the ids arrive.
-/

namespace Fabushi.Telegram.MessageIdGuard

open GreatestKept MachineInt Result

/-- The order of the standard library, as a linear order. -/
local instance linearOrderId : LinearOrder Int64 where
  le_refl := Int64.le_refl
  le_trans _ _ _ := Int64.le_trans
  lt_iff_le_not_ge a b := by
    simp only [Int64.lt_iff_toInt_lt, Int64.le_iff_toInt_le]
    omega
  le_antisymm _ _ := Int64.le_antisymm
  le_total := Int64.le_total
  toDecidableLE := inferInstance
  toDecidableEq := inferInstance
  toDecidableLT := inferInstance
  min_def _ _ := rfl
  max_def _ _ := rfl
  compare_eq_compareOfLessAndEq _ _ := rfl

/-! ## The call in place -/

/-- The call as it works on the guard: three checks, then the two changes of the set. What
was written before an error stays written. -/
def validateServerMessageIdInPlace (messageId nowUnixSeconds : Int64) :
    EStateM MessageIdError MessageIdGuard Unit := do
  if messageId.toInt % 2 ≠ 1 then
    throw .invalidServerParity
  let messageSeconds := messageId.toInt / 2 ^ 32
  if messageSeconds < (saturatingSub nowUnixSeconds 300).toInt ∨
      (saturatingAdd nowUnixSeconds 30).toInt < messageSeconds then
    throw .outsideTimeWindow
  let ids := (← get).recentServerMessageIds
  if messageId ∈ ids ∨ ((← get).replayWindowSize ≤ ids.card ∧
      ids.Nonempty ∧ ∀ id ∈ ids, messageId ≤ id) then
    throw .replay
  modify fun g ↦ { g with recentServerMessageIds := insert messageId g.recentServerMessageIds }
  modify fun g ↦ { g with
    recentServerMessageIds :=
      trim g.replayWindowSize g.recentServerMessageIds.card g.recentServerMessageIds }

theorem run_throwIf {β : Type} {p : Prop} [Decidable p] (e : MessageIdError)
    (rest : Unit → EStateM MessageIdError MessageIdGuard β) (g : MessageIdGuard) :
    (if p then throw e >>= rest else rest () : EStateM MessageIdError MessageIdGuard β).run g =
      if p then .error e g else (rest ()).run g := by
  split_ifs <;> rfl

theorem validateServerMessageIdInPlace_run (g : MessageIdGuard)
    (messageId nowUnixSeconds : Int64) :
    (validateServerMessageIdInPlace messageId nowUnixSeconds).run g =
      match g.validateServerMessageId messageId nowUnixSeconds with
      | .ok g' => .ok () g'
      | .error e => .error e g := by
  simp only [validateServerMessageIdInPlace, run_throwIf, EStateM.run_bind, EStateM.run_get,
    EStateM.run_modify]
  have hwindow : (messageId.toInt / 2 ^ 32 < (saturatingSub nowUnixSeconds 300).toInt ∨
      (saturatingAdd nowUnixSeconds 30).toInt < messageId.toInt / 2 ^ 32) ↔
        ¬ ((saturatingSub nowUnixSeconds 300).toInt ≤ messageId.toInt / 2 ^ 32 ∧
          messageId.toInt / 2 ^ 32 ≤ (saturatingAdd nowUnixSeconds 30).toInt) := by omega
  simp only [hwindow, validateServerMessageId, ensure, ne_eq, ite_not]
  split_ifs <;> rfl

/-! ## The window keeps the greatest ids -/

theorem validateServerMessageId_eq_ok {g g' : MessageIdGuard} {messageId nowUnixSeconds : Int64}
    (h : g.validateServerMessageId messageId nowUnixSeconds = .ok g') :
    Admits g.replayWindowSize g.recentServerMessageIds messageId ∧
      g' = { g with
        recentServerMessageIds := trim g.replayWindowSize
          (insert messageId g.recentServerMessageIds).card
          (insert messageId g.recentServerMessageIds) } := by
  simp only [validateServerMessageId, bind_eq_ok, ensure_eq_ok] at h
  obtain ⟨-, -, -, -, -, hadmits, hpure⟩ := h
  exact ⟨hadmits, (Except.ok.inj hpure).symm⟩

theorem popFirst_eq_erase {ids : Finset Int64} {m : Int64} (hm : m ∈ ids)
    (hleast : ∀ id ∈ ids, m ≤ id) : popFirst ids = ids.erase m := by
  ext id
  rw [popFirst, Finset.mem_filter, Finset.mem_erase]
  constructor
  · rintro ⟨hid, other, hother, hlt⟩
    refine ⟨?_, hid⟩
    rintro rfl
    exact absurd hlt (hleast other hother).not_gt
  · rintro ⟨hne, hid⟩
    exact ⟨hid, m, hm, lt_of_le_of_ne (hleast id hid) hne.symm⟩

theorem trim_of_le {size fuel : ℕ} {ids : Finset Int64} (h : ids.card ≤ size) :
    trim size fuel ids = ids := by
  cases fuel with
  | zero => rfl
  | succ fuel =>
      rw [trim]
      exact if_neg h.not_gt

theorem trim_eq_erase {size : ℕ} {ids : Finset Int64} {m : Int64} (hcard : ids.card = size + 1)
    (hm : m ∈ ids) (hleast : ∀ id ∈ ids, m ≤ id) : trim size ids.card ids = ids.erase m := by
  have hrest : (ids.erase m).card = size := by
    rw [Finset.card_erase_of_mem hm, hcard, Nat.add_sub_cancel]
  rw [hcard, trim, if_pos (by omega), popFirst_eq_erase hm hleast, trim_of_le hrest.le]

theorem keeps_trim {size : ℕ} {ids seen : Finset Int64} {messageId : Int64}
    (hkeeps : Keeps size ids seen) (hsize : 1 ≤ size) (hadmits : Admits size ids messageId) :
    Keeps size (trim size (insert messageId ids).card (insert messageId ids))
      (insert messageId seen) := by
  obtain ⟨hnew, habove⟩ := not_or.mp hadmits
  have hcard : (insert messageId ids).card = ids.card + 1 := Finset.card_insert_of_notMem hnew
  rcases hkeeps.card_le.lt_or_eq with hroom | hfull
  · rw [trim_of_le (by omega)]
    exact hkeeps.add hroom hnew
  · have hnonempty : ids.Nonempty := Finset.card_pos.mp (hfull ▸ hsize)
    have hm : ids.min' hnonempty ∈ ids := ids.min'_mem hnonempty
    have hleast : ∀ id ∈ ids, ids.min' hnonempty ≤ id := fun id hid ↦ ids.min'_le id hid
    have hlt : ids.min' hnonempty < messageId := by
      by_contra hle
      exact habove ⟨hfull.ge, hnonempty, fun id hid ↦ (not_lt.mp hle).trans (hleast id hid)⟩
    rw [trim_eq_erase (by omega) (Finset.mem_insert_of_mem hm)]
    · exact hkeeps.replace hfull hnew hm hleast hlt
    · intro id hid
      rcases Finset.mem_insert.mp hid with rfl | hid
      · exact hlt.le
      · exact hleast id hid

/-! ## Every run -/

def accepted (g : MessageIdGuard) : Call → Option Int64
  | .generateClientMessageId _ _ => none
  | .validateServerMessageId messageId nowUnixSeconds =>
      match g.validateServerMessageId messageId nowUnixSeconds with
      | .ok _ => some messageId
      | .error _ => none

def acceptedIds (g : MessageIdGuard) : List Call → List Int64
  | [] => []
  | call :: calls => (g.accepted call).toList ++ (g.next call).acceptedIds calls

structure Remembers (size : ℕ) (g : MessageIdGuard) (seen : Finset Int64) : Prop where
  size_eq : g.replayWindowSize = size
  pos : 1 ≤ size
  keeps : Keeps size g.recentServerMessageIds seen

theorem remembers_new (replayWindowSize : ℕ) :
    Remembers (max replayWindowSize 1) (new replayWindowSize) ∅ where
  size_eq := rfl
  pos := le_max_right _ _
  keeps := keeps_empty _

theorem next_generate_window (g : MessageIdGuard) (unixSeconds : Int64)
    (fractionalNanos : UInt32) :
    (g.next (.generateClientMessageId unixSeconds fractionalNanos)).recentServerMessageIds =
        g.recentServerMessageIds ∧
      (g.next (.generateClientMessageId unixSeconds fractionalNanos)).replayWindowSize =
        g.replayWindowSize := by
  cases hgenerate : g.generateClientMessageId unixSeconds fractionalNanos with
  | error e => simp [next, hgenerate]
  | ok result =>
      obtain ⟨id, g'⟩ := result
      obtain ⟨-, -, rfl⟩ := generateClientMessageId_eq_ok.mp hgenerate
      simp [next, hgenerate]

theorem Remembers.not_mem_of_ok {size : ℕ} {g g' : MessageIdGuard} {seen : Finset Int64}
    (h : Remembers size g seen) {messageId nowUnixSeconds : Int64}
    (hok : g.validateServerMessageId messageId nowUnixSeconds = .ok g') : messageId ∉ seen := by
  intro hseen
  have hadmits := (validateServerMessageId_eq_ok hok).1
  rw [h.size_eq] at hadmits
  exact h.keeps.not_admits h.pos hseen hadmits

theorem Remembers.next {size : ℕ} {g : MessageIdGuard} {seen : Finset Int64}
    (h : Remembers size g seen) (call : Call) :
    (∀ id ∈ g.accepted call, id ∉ seen) ∧
      Remembers size (g.next call) (seen ∪ (g.accepted call).toList.toFinset) := by
  cases call with
  | generateClientMessageId unixSeconds fractionalNanos =>
      obtain ⟨hids, hsize⟩ := next_generate_window g unixSeconds fractionalNanos
      refine ⟨fun id hid ↦ by simp [accepted] at hid, ?_⟩
      have hseen : seen ∪ (g.accepted
          (.generateClientMessageId unixSeconds fractionalNanos)).toList.toFinset = seen := by
        simp [accepted]
      rw [hseen]
      exact ⟨hsize.trans h.size_eq, h.pos, hids ▸ h.keeps⟩
  | validateServerMessageId messageId nowUnixSeconds =>
      cases hvalidate : g.validateServerMessageId messageId nowUnixSeconds with
      | error e =>
          simp only [accepted, MessageIdGuard.next, hvalidate, Option.toList_none, List.toFinset_nil,
            Finset.union_empty]
          exact ⟨fun id hid ↦ (Option.not_mem_none id hid).elim, h⟩
      | ok g' =>
          have hnew := h.not_mem_of_ok hvalidate
          obtain ⟨hadmits, rfl⟩ := validateServerMessageId_eq_ok hvalidate
          simp only [accepted, MessageIdGuard.next, hvalidate, Option.toList_some]
          refine ⟨fun id hid ↦ Option.some.inj hid ▸ hnew, h.size_eq, h.pos, ?_⟩
          have hseen : seen ∪ [messageId].toFinset = insert messageId seen := by
            ext id
            simp
          rw [h.size_eq] at hadmits
          simp only [hseen, h.size_eq]
          exact keeps_trim h.keeps h.pos hadmits

theorem Remembers.run {size : ℕ} {g : MessageIdGuard} {seen : Finset Int64}
    (h : Remembers size g seen) (calls : List Call) :
    (g.acceptedIds calls).Nodup ∧ (∀ id ∈ g.acceptedIds calls, id ∉ seen) ∧
      Remembers size (Runs.run MessageIdGuard.next g calls)
        (seen ∪ (g.acceptedIds calls).toFinset) := by
  induction calls generalizing g seen with
  | nil => simpa [acceptedIds] using h
  | cons call calls ih =>
      obtain ⟨hfresh, hnext⟩ := h.next call
      obtain ⟨hnodup, hnew, hrun⟩ := ih hnext
      have hlater : ∀ id ∈ (g.next call).acceptedIds calls,
          id ∉ seen ∧ id ∉ (g.accepted call).toList := by
        intro id hid
        have hunseen := hnew id hid
        rw [Finset.mem_union, List.mem_toFinset, not_or] at hunseen
        exact hunseen
      refine ⟨?_, ?_, ?_⟩
      · rw [acceptedIds]
        apply List.Nodup.append _ hnodup
        · exact fun id hid hid' ↦ (hlater id hid').2 hid
        · cases g.accepted call with
          | none => exact List.nodup_nil
          | some id => exact List.nodup_singleton id
      · intro id hid
        rw [acceptedIds, List.mem_append] at hid
        rcases hid with hid | hid
        · exact hfresh id (Option.mem_toList.mp hid)
        · exact (hlater id hid).1
      · rw [Runs.run_cons, acceptedIds, List.toFinset_append, ← Finset.union_assoc]
        exact hrun

/-- In every session no server id is accepted twice: one that was accepted is refused from
then on, whether the guard still remembers it or not. A refused id changes nothing, and the
guard remembers no more ids than it may. -/
theorem acceptedIds_once (replayWindowSize : ℕ) (calls : List Call) :
    ((new replayWindowSize).acceptedIds calls).Nodup ∧
      (∀ id ∈ (new replayWindowSize).acceptedIds calls, ∀ nowUnixSeconds, ∃ e,
        (validateServerMessageIdInPlace id nowUnixSeconds).run
            (Runs.run next (new replayWindowSize) calls) =
          .error e (Runs.run next (new replayWindowSize) calls)) ∧
      (∀ messageId nowUnixSeconds e g',
        (validateServerMessageIdInPlace messageId nowUnixSeconds).run
            (Runs.run next (new replayWindowSize) calls) = .error e g' →
          g' = Runs.run next (new replayWindowSize) calls) ∧
      (Runs.run next (new replayWindowSize) calls).recentServerMessageIds.card ≤
        max replayWindowSize 1 := by
  obtain ⟨hnodup, -, hrun⟩ := (remembers_new replayWindowSize).run calls
  rw [Finset.empty_union] at hrun
  refine ⟨hnodup, ?_, ?_, hrun.keeps.card_le⟩
  · intro id hid nowUnixSeconds
    rw [validateServerMessageIdInPlace_run]
    split
    · rename_i g' hok
      exact absurd (List.mem_toFinset.mpr hid) (hrun.not_mem_of_ok hok)
    · exact ⟨_, rfl⟩
  · intro messageId nowUnixSeconds e g' herror
    rw [validateServerMessageIdInPlace_run] at herror
    split at herror
    · cases herror
    · exact (EStateM.Result.error.inj herror).2.symm

end Fabushi.Telegram.MessageIdGuard
