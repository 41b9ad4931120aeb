import Mathlib

/-!
# Double-entry books

A posting moves an amount of one currency out of an optional source account
into an optional target account; a posting without a source issues money. The
balance of an account is what was posted in minus what was posted out.
-/

namespace DoubleEntry

open Finset

structure Posting (A C : Type*) where
  source : Option A
  target : Option A
  currency : C
  amount : ℤ

variable {A C : Type*} [DecidableEq A] [DecidableEq C]

def Posting.incoming (p : Posting A C) (a : A) (c : C) : ℤ :=
  if p.target = some a ∧ p.currency = c then p.amount else 0

def Posting.outgoing (p : Posting A C) (a : A) (c : C) : ℤ :=
  if p.source = some a ∧ p.currency = c then p.amount else 0

def Posting.issued (p : Posting A C) (c : C) : ℤ :=
  if p.source = none ∧ p.currency = c then p.amount else 0

/-- Total posted into `a` minus total posted out of `a`. -/
def balance (ps : List (Posting A C)) (a : A) (c : C) : ℤ :=
  (ps.map fun p ↦ p.incoming a c).sum - (ps.map fun p ↦ p.outgoing a c).sum

def issued (ps : List (Posting A C)) (c : C) : ℤ :=
  (ps.map fun p ↦ p.issued c).sum

def Posting.Within (S : Finset A) (p : Posting A C) : Prop :=
  (∃ a ∈ S, p.target = some a) ∧ ∀ a, p.source = some a → a ∈ S

theorem Posting.sum_within {S : Finset A} {p : Posting A C} (hp : p.Within S) (c : C) :
    ∑ a ∈ S, (p.incoming a c - p.outgoing a c) = p.issued c := by
  obtain ⟨⟨t, htS, ht⟩, hsource⟩ := hp
  have hin : ∑ a ∈ S, p.incoming a c = if p.currency = c then p.amount else 0 := by
    rw [Finset.sum_eq_single t]
    · simp [Posting.incoming, ht]
    · intro a _ hat
      simp [Posting.incoming, ht, Ne.symm hat]
    · intro hnot
      exact absurd htS hnot
  rw [Finset.sum_sub_distrib, hin]
  cases hs : p.source with
  | none => simp [Posting.outgoing, Posting.issued, hs]
  | some s =>
      have hout : ∑ a ∈ S, p.outgoing a c = if p.currency = c then p.amount else 0 := by
        rw [Finset.sum_eq_single s]
        · simp [Posting.outgoing, hs]
        · intro a _ has
          simp [Posting.outgoing, hs, Ne.symm has]
        · intro hnot
          exact absurd (hsource s hs) hnot
      simp [hout, Posting.issued, hs]

theorem balance_cons (p : Posting A C) (ps : List (Posting A C)) (a : A) (c : C) :
    balance (p :: ps) a c = balance ps a c + (p.incoming a c - p.outgoing a c) := by
  simp only [balance, List.map_cons, List.sum_cons]
  ring

theorem balance_perm {ps qs : List (Posting A C)} (h : ps.Perm qs) (a : A) (c : C) :
    balance ps a c = balance qs a c := by
  rw [balance, balance, (h.map _).sum_eq, (h.map fun p ↦ p.outgoing a c).sum_eq]

/-- Money is conserved: over any set of accounts that contains everything the
books name, the balances add up to what was issued. -/
theorem sum_balance {S : Finset A} {ps : List (Posting A C)}
    (hps : ∀ p ∈ ps, p.Within S) (c : C) :
    ∑ a ∈ S, balance ps a c = issued ps c := by
  induction ps with
  | nil => simp [balance, issued]
  | cons p ps ih =>
      have hp := Posting.sum_within (hps p (by simp)) c
      have hrest := ih fun q hq ↦ hps q (by simp [hq])
      simp only [balance_cons, Finset.sum_add_distrib, hp, hrest]
      simp [issued, add_comm]

end DoubleEntry
