import Fabushi.Library.OrderedMap

/-!
# Searching a graph for a cycle

A depth-first search visits the successors of a node before it is done with the node and
fails where it comes back to a node that it is not done with. It never runs out of the fuel
that the number of nodes asks for, and it succeeds exactly on graphs without a cycle.
-/

namespace DepthFirst

open Std

variable {κ ε : Type} [Ord κ] [TransOrd κ]

/-- A graph by the successors of its nodes, with the errors of a search. -/
structure Graph (κ ε : Type) where
  successors : κ → Option (List κ)
  cycle : κ → ε
  missing : κ → ε

/-- The nodes on the way to the current one, and the nodes that are done. -/
structure Progress (κ : Type) [Ord κ] where
  visiting : BTreeSet κ := ∅
  visited : BTreeSet κ := ∅

def visitAll (visit : κ → Progress κ → Option (Except ε (Progress κ))) :
    List κ → Progress κ → Option (Except ε (Progress κ))
  | [], progress => some (.ok progress)
  | k :: ks, progress =>
      match visit k progress with
      | some (.ok progress) => visitAll visit ks progress
      | stopped => stopped

namespace Graph

variable (graph : Graph κ ε)

def visit : ℕ → κ → Progress κ → Option (Except ε (Progress κ))
  | 0, _, _ => none
  | fuel + 1, k, progress =>
      if k ∈ progress.visited then some (.ok progress)
      else if k ∈ progress.visiting then some (.error (graph.cycle k))
      else
        match graph.successors k with
        | none => some (.error (graph.missing k))
        | some next =>
            match visitAll (visit fuel) next
                { progress with visiting := progress.visiting.insert k } with
            | some (.ok progress) =>
                some (.ok { visiting := progress.visiting.erase k
                            visited := progress.visited.insert k })
            | stopped => stopped

def Leads (a b : κ) : Prop := ∃ next, graph.successors a = some next ∧ b ∈ next

def Acyclic : Prop := ∀ k, ¬ Relation.TransGen graph.Leads k k

def Closed : Prop := ∀ a b, graph.Leads a b → (graph.successors b).isSome = true

end Graph

variable {graph : Graph κ ε}

section Sets

variable [LawfulEqOrd κ]

theorem mem_insert {s : BTreeSet κ} {k a : κ} : a ∈ s.insert k ↔ k = a ∨ a ∈ s := by
  rw [ExtTreeSet.mem_insert, Std.compare_eq_iff_eq]

theorem erase_insert {s : BTreeSet κ} {k : κ} (h : k ∉ s) : (s.insert k).erase k = s := by
  apply ExtTreeSet.ext_mem
  intro a
  rw [ExtTreeSet.mem_erase, mem_insert, ne_eq, Std.compare_eq_iff_eq]
  constructor
  · rintro ⟨hne, heq | hmem⟩
    · exact absurd heq hne
    · exact hmem
  · intro hmem
    refine ⟨?_, .inr hmem⟩
    rintro rfl
    exact h hmem

end Sets

/-! ## What a successful visit leaves -/

omit [TransOrd κ] in
theorem visitAll_cons_eq_ok {visit : κ → Progress κ → Option (Except ε (Progress κ))} {k : κ}
    {ks : List κ} {progress later : Progress κ} :
    visitAll visit (k :: ks) progress = some (.ok later) ↔
      ∃ middle, visit k progress = some (.ok middle) ∧
        visitAll visit ks middle = some (.ok later) := by
  rw [visitAll]
  cases hvisit : visit k progress with
  | none => simp
  | some result =>
      cases result with
      | error e => simp
      | ok middle => simp

omit [TransOrd κ] in
/-- A property of each successful visit that composes holds of successful visits in a row. -/
theorem visitAll_induction {visit : κ → Progress κ → Option (Except ε (Progress κ))}
    {R : Progress κ → Progress κ → Prop} (hrefl : ∀ progress, R progress progress)
    (htrans : ∀ a b c, R a b → R b c → R a c)
    (hvisit : ∀ k progress later, visit k progress = some (.ok later) → R progress later)
    {ks : List κ} {progress later : Progress κ}
    (h : visitAll visit ks progress = some (.ok later)) : R progress later := by
  induction ks generalizing progress with
  | nil =>
      obtain rfl := Except.ok.inj (Option.some.inj h)
      exact hrefl _
  | cons k ks ih =>
      obtain ⟨middle, hmiddle, hlater⟩ := visitAll_cons_eq_ok.mp h
      exact htrans _ _ _ (hvisit k progress middle hmiddle) (ih hlater)

/-- A successful visit found the node done, or visited all its successors. -/
theorem visit_eq_ok {fuel : ℕ} {k : κ} {progress later : Progress κ}
    (h : graph.visit (fuel + 1) k progress = some (.ok later)) :
    (k ∈ progress.visited ∧ later = progress) ∨
    k ∉ progress.visiting ∧ ∃ next middle, graph.successors k = some next ∧
      visitAll (graph.visit fuel) next
        { progress with visiting := progress.visiting.insert k } = some (.ok middle) ∧
      later = { visiting := middle.visiting.erase k, visited := middle.visited.insert k } := by
  rw [Graph.visit] at h
  split at h
  · rename_i hvisited
    exact .inl ⟨hvisited, (Except.ok.inj (Option.some.inj h)).symm⟩
  · split at h
    · cases h
    · rename_i hvisiting
      split at h
      · cases h
      · rename_i next hnext
        split at h
        · rename_i middle hmiddle
          exact .inr ⟨hvisiting, next, middle, hnext, hmiddle,
            (Except.ok.inj (Option.some.inj h)).symm⟩
        · rename_i stopped hstopped
          exact absurd h (hstopped later)

variable [LawfulEqOrd κ]

theorem visit_visiting {fuel : ℕ} {k : κ} {progress later : Progress κ}
    (h : graph.visit fuel k progress = some (.ok later)) :
    later.visiting = progress.visiting := by
  induction fuel generalizing k progress later with
  | zero => cases h
  | succ fuel ih =>
      rcases visit_eq_ok h with ⟨-, rfl⟩ | ⟨hnot, next, middle, -, hmiddle, rfl⟩
      · rfl
      · have hsame : middle.visiting = progress.visiting.insert k :=
          visitAll_induction (R := fun a b ↦ b.visiting = a.visiting) (fun _ ↦ rfl)
            (fun _ _ _ hab hbc ↦ hbc.trans hab) (fun _ _ _ ↦ ih) hmiddle
        dsimp only
        rw [hsame, erase_insert hnot]

def Settled (graph : Graph κ ε) (visited : BTreeSet κ) : Prop :=
  ∀ k ∈ visited, Acc (fun b a ↦ graph.Leads a b) k

def Grows (graph : Graph κ ε) (progress later : Progress κ) : Prop :=
  (∀ k ∈ progress.visited, k ∈ later.visited) ∧
    (Settled graph progress.visited → Settled graph later.visited)

omit [LawfulEqOrd κ] in
theorem Grows.refl (progress : Progress κ) : Grows graph progress progress := ⟨fun _ h ↦ h, id⟩

omit [LawfulEqOrd κ] in
theorem Grows.trans {a b c : Progress κ} (hab : Grows graph a b) (hbc : Grows graph b c) :
    Grows graph a c :=
  ⟨fun k hk ↦ hbc.1 k (hab.1 k hk), fun ha ↦ hbc.2 (hab.2 ha)⟩

omit [LawfulEqOrd κ] in
theorem visitAll_mem {visit : κ → Progress κ → Option (Except ε (Progress κ))}
    (hvisit : ∀ k progress later, visit k progress = some (.ok later) →
      Grows graph progress later ∧ k ∈ later.visited)
    {ks : List κ} {progress later : Progress κ}
    (h : visitAll visit ks progress = some (.ok later)) :
    Grows graph progress later ∧ ∀ k ∈ ks, k ∈ later.visited := by
  induction ks generalizing progress with
  | nil =>
      obtain rfl := Except.ok.inj (Option.some.inj h)
      exact ⟨Grows.refl _, fun k hk ↦ by cases hk⟩
  | cons k ks ih =>
      obtain ⟨middle, hmiddle, hlater⟩ := visitAll_cons_eq_ok.mp h
      obtain ⟨hfirst, hmem⟩ := hvisit k progress middle hmiddle
      obtain ⟨hrest, hall⟩ := ih hlater
      refine ⟨hfirst.trans hrest, fun a ha ↦ ?_⟩
      rcases List.mem_cons.mp ha with rfl | ha
      · exact hrest.1 _ hmem
      · exact hall a ha

theorem visit_grows {fuel : ℕ} {k : κ} {progress later : Progress κ}
    (h : graph.visit fuel k progress = some (.ok later)) :
    Grows graph progress later ∧ k ∈ later.visited := by
  induction fuel generalizing k progress later with
  | zero => cases h
  | succ fuel ih =>
      rcases visit_eq_ok h with ⟨hdone, rfl⟩ | ⟨-, next, middle, hnext, hmiddle, rfl⟩
      · exact ⟨Grows.refl _, hdone⟩
      · obtain ⟨⟨hmono, hsettled⟩, hall⟩ := visitAll_mem (fun _ _ _ ↦ ih) hmiddle
        refine ⟨⟨fun a ha ↦ mem_insert.mpr (.inr (hmono a ha)), fun hbefore ↦ ?_⟩,
          mem_insert.mpr (.inl rfl)⟩
        intro a ha
        rcases mem_insert.mp ha with rfl | ha
        · refine Acc.intro _ fun b ⟨next', hnext', hb⟩ ↦ ?_
          obtain rfl := Option.some.inj (hnext.symm.trans hnext')
          exact hsettled hbefore b (hall b hb)
        · exact hsettled hbefore a ha

/-! ## The fuel suffices -/

/-- The nodes that are not on the way. -/
def remaining (nodes : Finset κ) (progress : Progress κ) : Finset κ :=
  nodes.filter (· ∉ progress.visiting)

theorem remaining_insert_lt [DecidableEq κ] {nodes : Finset κ} {k : κ} {progress : Progress κ}
    (hk : k ∈ nodes) (hnot : k ∉ progress.visiting) :
    (remaining nodes { progress with visiting := progress.visiting.insert k }).card <
      (remaining nodes progress).card := by
  apply Finset.card_lt_card
  refine ⟨fun a ha ↦ ?_, fun hsub ↦ ?_⟩
  · obtain ⟨hmem, hout⟩ := Finset.mem_filter.mp ha
    refine Finset.mem_filter.mpr ⟨hmem, fun hin ↦ hout (mem_insert.mpr (.inr hin))⟩
  · have hout := (Finset.mem_filter.mp (hsub (Finset.mem_filter.mpr ⟨hk, hnot⟩))).2
    exact hout (mem_insert.mpr (.inl rfl))

omit [TransOrd κ] [LawfulEqOrd κ] in
theorem visitAll_isSome {visit : κ → Progress κ → Option (Except ε (Progress κ))}
    {R : Progress κ → Prop} (hvisit : ∀ k progress, R progress → ∃ result,
      visit k progress = some result ∧ ∀ later, result = .ok later → R later)
    {ks : List κ} {progress : Progress κ} (hR : R progress) :
    (visitAll visit ks progress).isSome = true := by
  induction ks generalizing progress with
  | nil => rfl
  | cons k ks ih =>
      obtain ⟨result, hresult, hlater⟩ := hvisit k progress hR
      rw [visitAll, hresult]
      cases result with
      | error e => rfl
      | ok later => exact ih (hlater later rfl)

theorem visit_isSome [DecidableEq κ] {nodes : Finset κ}
    (hnodes : ∀ k, (graph.successors k).isSome = true → k ∈ nodes) {fuel : ℕ} {k : κ}
    {progress : Progress κ} (hfuel : (remaining nodes progress).card < fuel) :
    (graph.visit fuel k progress).isSome = true := by
  induction fuel generalizing k progress with
  | zero => exact absurd hfuel (Nat.not_lt_zero _)
  | succ fuel ih =>
      rw [Graph.visit]
      split
      · rfl
      · split
        · rfl
        · rename_i hnot
          split
          · rfl
          · rename_i next hnext
            have hlt := remaining_insert_lt (hnodes k (by rw [hnext]; rfl)) hnot
            have hchild : (remaining nodes
                { progress with visiting := progress.visiting.insert k }).card < fuel := by omega
            have hall : (visitAll (graph.visit fuel) next
                { progress with visiting := progress.visiting.insert k }).isSome = true := by
              apply visitAll_isSome (R := fun p ↦ p.visiting = progress.visiting.insert k) _ rfl
              intro a p hp
              have hsame : remaining nodes p =
                  remaining nodes { progress with visiting := progress.visiting.insert k } := by
                unfold remaining
                rw [hp]
              have hsome : (graph.visit fuel a p).isSome = true := ih (hsame ▸ hchild)
              obtain ⟨result, hresult⟩ := Option.isSome_iff_exists.mp hsome
              refine ⟨result, hresult, ?_⟩
              rintro later rfl
              exact (visit_visiting hresult).trans hp
            split
            · rfl
            · exact hall

/-! ## The search of all nodes -/

/-- Visits all nodes, one after the other. -/
def search [DecidableEq κ] (graph : Graph κ ε) (nodes : List κ)
    (hnodes : ∀ k, (graph.successors k).isSome = true → k ∈ nodes) : Except ε (Progress κ) :=
  (visitAll (graph.visit (nodes.length + 1)) nodes {}).get <| by
    apply visitAll_isSome (R := fun progress ↦ progress.visiting = ∅) _ rfl
    intro k progress hempty
    have hfuel : (remaining nodes.toFinset progress).card < nodes.length + 1 :=
      Nat.lt_succ_of_le ((Finset.card_filter_le _ _).trans (List.toFinset_card_le nodes))
    obtain ⟨result, hresult⟩ := Option.isSome_iff_exists.mp
      (visit_isSome (fun k hk ↦ List.mem_toFinset.mpr (hnodes k hk)) hfuel)
    refine ⟨result, hresult, ?_⟩
    rintro later rfl
    exact (visit_visiting hresult).trans hempty

omit [Ord κ] [TransOrd κ] [LawfulEqOrd κ] in
theorem acyclic_of_acc (h : ∀ k, Acc (fun b a ↦ graph.Leads a b) k) : graph.Acyclic := by
  intro k hcycle
  have hwf : WellFounded (fun b a ↦ graph.Leads a b) := ⟨h⟩
  exact hwf.transGen.irrefl.irrefl k (Relation.transGen_swap.mpr hcycle)

omit [TransOrd κ] [LawfulEqOrd κ] in
theorem visitAll_ne_error {visit : κ → Progress κ → Option (Except ε (Progress κ))}
    {R : Progress κ → Prop} {e : ε} {ks : List κ} (hvisit : ∀ k ∈ ks, ∀ progress, R progress →
      visit k progress ≠ some (.error e) ∧
        ∀ later, visit k progress = some (.ok later) → R later)
    {progress : Progress κ} (hR : R progress) : visitAll visit ks progress ≠ some (.error e) := by
  induction ks generalizing progress with
  | nil => exact fun h ↦ by cases h
  | cons k ks ih =>
      obtain ⟨hne, hlater⟩ := hvisit k List.mem_cons_self progress hR
      rw [visitAll]
      split
      · rename_i later hok
        exact ih (fun a ha ↦ hvisit a (List.mem_cons_of_mem _ ha)) (hlater later hok)
      · exact hne

/-- On a graph without a cycle no visit fails, as the nodes on the way lead to the node. -/
theorem visit_ne_error (hclosed : graph.Closed) (hacyclic : graph.Acyclic) {fuel : ℕ} {k : κ}
    {progress : Progress κ} (hk : (graph.successors k).isSome = true)
    (hway : ∀ a ∈ progress.visiting, Relation.TransGen graph.Leads a k) (e : ε) :
    graph.visit fuel k progress ≠ some (.error e) := by
  induction fuel generalizing k progress with
  | zero => exact fun h ↦ by cases h
  | succ fuel ih =>
      obtain ⟨next, hnext⟩ := Option.isSome_iff_exists.mp hk
      have hall : visitAll (graph.visit fuel) next
          { progress with visiting := progress.visiting.insert k } ≠ some (.error e) := by
        apply visitAll_ne_error (R := fun p ↦ p.visiting = progress.visiting.insert k) _ rfl
        intro b hb middle hmiddle
        have hleads : graph.Leads k b := ⟨next, hnext, hb⟩
        refine ⟨ih (hclosed k b hleads) fun a ha ↦ ?_,
          fun later hlater ↦ (visit_visiting hlater).trans hmiddle⟩
        rw [hmiddle, mem_insert] at ha
        rcases ha with rfl | ha
        · exact .single hleads
        · exact (hway a ha).tail hleads
      rw [Graph.visit]
      split
      · exact fun h ↦ by cases h
      · split
        · rename_i hvisiting
          exact absurd (hway k hvisiting) (hacyclic k)
        · rw [hnext]
          dsimp only
          split
          · exact fun h ↦ by cases h
          · exact hall

theorem search_spec [DecidableEq κ] (nodes : List κ)
    (hnodes : ∀ k, (graph.successors k).isSome = true → k ∈ nodes) :
    visitAll (graph.visit (nodes.length + 1)) nodes {} = some (search graph nodes hnodes) :=
  (Option.some_get _).symm

theorem search_isOk_iff [DecidableEq κ] {nodes : List κ}
    (hnodes : ∀ k, (graph.successors k).isSome = true → k ∈ nodes)
    (honly : ∀ k ∈ nodes, (graph.successors k).isSome = true) (hclosed : graph.Closed) :
    (∃ progress, search graph nodes hnodes = .ok progress) ↔ graph.Acyclic := by
  have hspec := search_spec nodes hnodes
  constructor
  · rintro ⟨progress, hsearch⟩
    rw [hsearch] at hspec
    obtain ⟨hgrows, hmem⟩ := visitAll_mem (fun _ _ _ ↦ visit_grows) hspec
    have hsettled := hgrows.2 fun k hk ↦ absurd hk (by simp)
    refine acyclic_of_acc fun k ↦ Acc.intro _ fun b hb ↦ hsettled b (hmem b ?_)
    exact hnodes b (hclosed k b hb)
  · intro hacyclic
    cases hsearch : search graph nodes hnodes with
    | ok progress => exact ⟨progress, rfl⟩
    | error e =>
        rw [hsearch] at hspec
        refine absurd hspec (visitAll_ne_error (R := fun p ↦ p.visiting = ∅) ?_ rfl)
        intro k hk p hempty
        refine ⟨visit_ne_error hclosed hacyclic (honly k hk) (fun a ha ↦ ?_) e,
          fun later hlater ↦ (visit_visiting hlater).trans hempty⟩
        rw [hempty] at ha
        exact absurd ha (by simp)

/-! ## A node that nothing leads to -/

omit [Ord κ] [TransOrd κ] [LawfulEqOrd κ] in
/-- A relation has no cycle if it has none without a node that nothing leads to. -/
theorem not_transGen_self_of_fresh {R R' : κ → κ → Prop} {k : κ}
    (hR : ∀ a, ¬ Relation.TransGen R a a) (hsame : ∀ a b, R' a b → a ≠ k → R a b)
    (hfresh : ∀ a, ¬ R' a k) (a : κ) : ¬ Relation.TransGen R' a a := by
  have htarget : ∀ {a b}, Relation.TransGen R' a b → b ≠ k := by
    rintro a b hab rfl
    obtain ⟨c, -, hcb⟩ := Relation.TransGen.tail'_iff.mp hab
    exact hfresh c hcb
  have hlift : ∀ {a b}, Relation.TransGen R' a b → a ≠ k → Relation.TransGen R a b := by
    intro a b hab ha
    induction hab with
    | single hab => exact .single (hsame _ _ hab ha)
    | tail hac hcb ih => exact ih.tail (hsame _ _ hcb (htarget hac))
  exact fun hcycle ↦ hR a (hlift hcycle (htarget hcycle))

end DepthFirst
