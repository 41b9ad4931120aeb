import Fabushi.Library.Wire

/-!
# Parsers of a growing input

A parser is shown the bytes that have come so far. It waits for more, makes an item of the
first ones, or fails. When neither an item nor an error changes as more bytes come, what
the parser makes of a stream does not depend on how the stream arrives.
-/

namespace Incremental

open Wire

variable {ε α β : Type} {parse : List UInt8 → Except ε (Option α)} {size : α → ℕ}
  {input : List UInt8} {items items' : List α}

def Settled (parse : List UInt8 → Except ε (Option α)) : Prop :=
  ∀ input, parse input ≠ .ok none → ∀ more, parse (input ++ more) = parse input

theorem settled_const (r : Except ε (Option α)) : Settled fun _ ↦ r :=
  fun _ _ _ ↦ rfl

theorem settled_slice {f : List UInt8 → List UInt8 → Except ε (Option α)} (start stop : ℕ)
    (h : ∀ part, Settled (f part)) :
    Settled fun input ↦
      match slice input start stop with
      | none => .ok none
      | some part => f part input := by
  intro input hsettled more
  dsimp only at hsettled ⊢
  cases hslice : slice input start stop with
  | none =>
      rw [hslice] at hsettled
      exact absurd rfl hsettled
  | some part =>
      rw [hslice] at hsettled
      rw [slice_append hslice more]
      exact h part input hsettled more

theorem settled_bind {x : Except ε β} {f : β → List UInt8 → Except ε (Option α)}
    (h : ∀ b, Settled (f b)) : Settled fun input ↦ x >>= fun b ↦ f b input := by
  cases x with
  | error e => exact settled_const (.error e)
  | ok b => exact h b

theorem settled_ite {p : Prop} [Decidable p] {parse' : List UInt8 → Except ε (Option α)}
    (h : Settled parse) (h' : Settled parse') :
    Settled fun input ↦ if p then parse input else parse' input := by
  by_cases hp : p
  · simpa only [if_pos hp] using h
  · simpa only [if_neg hp] using h'

/-- Items and errors are settled, and an item takes some of the bytes there are. -/
structure Stable (parse : List UInt8 → Except ε (Option α)) (size : α → ℕ) : Prop where
  settled : Settled parse
  size_pos : ∀ input a, parse input = .ok (some a) → 0 < size a
  size_le : ∀ input a, parse input = .ok (some a) → size a ≤ input.length

/-- Item after item is taken until the parser waits with the rest or fails. -/
inductive Drains (parse : List UInt8 → Except ε (Option α)) (size : α → ℕ) :
    List UInt8 → List α → Except ε (List UInt8) → Prop where
  | waits {input : List UInt8} (h : parse input = .ok none) : Drains parse size input [] (.ok input)
  | fails {input : List UInt8} {e : ε} (h : parse input = .error e) :
      Drains parse size input [] (.error e)
  | takes {input : List UInt8} {item : α} {items : List α} {r : Except ε (List UInt8)}
      (h : parse input = .ok (some item))
      (hrest : Drains parse size (input.drop (size item)) items r) :
      Drains parse size input (item :: items) r

theorem exists_drains (h : Stable parse size) (input : List UInt8) :
    ∃ items r, Drains parse size input items r := by
  induction hlength : input.length using Nat.strong_induction_on generalizing input with
  | _ length ih =>
      cases hparse : parse input with
      | error e => exact ⟨[], _, .fails hparse⟩
      | ok parsed =>
          cases parsed with
          | none => exact ⟨[], _, .waits hparse⟩
          | some item =>
              have hpos := h.size_pos input item hparse
              have hle := h.size_le input item hparse
              have hshorter : (input.drop (size item)).length < length := by
                rw [List.length_drop]
                omega
              obtain ⟨items, r, hdrains⟩ := ih _ hshorter _ rfl
              exact ⟨item :: items, r, .takes hparse hdrains⟩

theorem Drains.unique {r r' : Except ε (List UInt8)} (h : Drains parse size input items r)
    (h' : Drains parse size input items' r') : items = items' ∧ r = r' := by
  induction h generalizing items' with
  | waits h =>
      cases h' with
      | waits h' => exact ⟨rfl, rfl⟩
      | fails h' => cases h.symm.trans h'
      | takes h' hrest' => cases h.symm.trans h'
  | fails h =>
      cases h' with
      | waits h' => cases h.symm.trans h'
      | fails h' =>
          obtain rfl := Except.error.inj (h.symm.trans h')
          exact ⟨rfl, rfl⟩
      | takes h' hrest' => cases h.symm.trans h'
  | takes h hrest ih =>
      cases h' with
      | waits h' => cases h.symm.trans h'
      | fails h' => cases h.symm.trans h'
      | takes h' hrest' =>
          obtain rfl := Option.some.inj (Except.ok.inj (h.symm.trans h'))
          obtain ⟨rfl, rfl⟩ := ih hrest'
          exact ⟨rfl, rfl⟩

theorem Drains.append (hstable : Stable parse size) {rest more : List UInt8}
    {r : Except ε (List UInt8)} (h : Drains parse size input items (.ok rest))
    (hmore : Drains parse size (rest ++ more) items' r) :
    Drains parse size (input ++ more) (items ++ items') r := by
  generalize hend : Except.ok rest = e at h
  induction h with
  | waits h =>
      obtain rfl := Except.ok.inj hend
      exact hmore
  | fails h => cases hend
  | @takes input item items r h hrest ih =>
      have hle := hstable.size_le input item h
      apply Drains.takes
      · rw [hstable.settled input (by simp [h]) more, h]
      · rw [List.drop_append_of_le_length hle]
        exact ih hend

theorem Drains.append_of_fails (hstable : Stable parse size) {e : ε}
    (h : Drains parse size input items (.error e)) (more : List UInt8) :
    Drains parse size (input ++ more) items (.error e) := by
  generalize hend : Except.error e = r at h
  induction h with
  | waits h => cases hend
  | @fails input e' h =>
      refine .fails ?_
      rw [hstable.settled input (by simp [h]) more, h]
  | @takes input item items r h hrest ih =>
      have hle := hstable.size_le input item h
      apply Drains.takes
      · rw [hstable.settled input (by simp [h]) more, h]
      · rw [List.drop_append_of_le_length hle]
        exact ih hend

/-! ## Chunks -/

/-- After every chunk all items that are there are taken; nothing comes after an error. -/
inductive Feeds (parse : List UInt8 → Except ε (Option α)) (size : α → ℕ) :
    List UInt8 → List (List UInt8) → List α → Except ε (List UInt8) → Prop where
  | ends {input : List UInt8} {items : List α} {r : Except ε (List UInt8)}
      (h : Drains parse size input items r) : Feeds parse size input [] items r
  | fails {input chunk : List UInt8} {chunks : List (List UInt8)} {items : List α} {e : ε}
      (h : Drains parse size input items (.error e)) :
      Feeds parse size input (chunk :: chunks) items (.error e)
  | goes {input rest chunk : List UInt8} {chunks : List (List UInt8)} {items items' : List α}
      {r : Except ε (List UInt8)} (h : Drains parse size input items (.ok rest))
      (hchunks : Feeds parse size (rest ++ chunk) chunks items' r) :
      Feeds parse size input (chunk :: chunks) (items ++ items') r

theorem exists_feeds (h : Stable parse size) (input : List UInt8) (chunks : List (List UInt8)) :
    ∃ items r, Feeds parse size input chunks items r := by
  induction chunks generalizing input with
  | nil =>
      obtain ⟨items, r, hdrains⟩ := exists_drains h input
      exact ⟨items, r, .ends hdrains⟩
  | cons chunk chunks ih =>
      obtain ⟨items, r, hdrains⟩ := exists_drains h input
      cases r with
      | error e => exact ⟨items, _, .fails hdrains⟩
      | ok rest =>
          obtain ⟨items', r, hfeeds⟩ := ih (rest ++ chunk)
          exact ⟨items ++ items', r, .goes hdrains hfeeds⟩

theorem Feeds.drains (hstable : Stable parse size) {chunks : List (List UInt8)}
    {r : Except ε (List UInt8)} (h : Feeds parse size input chunks items r) :
    Drains parse size (input ++ chunks.flatten) items r := by
  induction h with
  | ends h => rwa [List.flatten_nil, List.append_nil]
  | fails h => exact h.append_of_fails hstable _
  | goes h hchunks ih =>
      rw [List.flatten_cons]
      rw [List.append_assoc] at ih
      exact h.append hstable ih

/-- Chunk by chunk a stream gives what it gives as a whole. -/
theorem feeds_of_drains (hstable : Stable parse size) {chunks : List (List UInt8)}
    {r : Except ε (List UInt8)} (h : Drains parse size (input ++ chunks.flatten) items r) :
    Feeds parse size input chunks items r := by
  obtain ⟨items', r', hfeeds⟩ := exists_feeds hstable input chunks
  obtain ⟨rfl, rfl⟩ := h.unique (hfeeds.drains hstable)
  exact hfeeds

end Incremental
