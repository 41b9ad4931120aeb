import Fabushi.Library.Effects
import Fabushi.Library.Radix

/-!
# Writing and reading bytes one field after another

A writer appends to a buffer, a reader moves an offset over its input. `Appends m bytes`
says what a writer adds wherever it stands, `Consumes m limits bytes a` what a reader
makes of these bytes wherever it finds them. Both compose, so a codec that agrees on
every field agrees on every sequence of fields.
-/

namespace Wire

open Effects

variable {ε L α β V : Type}

abbrev Writer (ε : Type) := Eff ε (List UInt8)

/-- What a reader moves over, with the limits it was given. -/
structure Input (L : Type) where
  bytes : List UInt8
  offset : ℕ := 0
  limits : L

abbrev Reader (ε L : Type) := Eff ε (Input L)

def push (bytes : List UInt8) : Writer ε PUnit :=
  modify fun buffer ↦ buffer ++ bytes

def take (eof : ℕ → ℕ → ε) (length : ℕ) : Reader ε L (List UInt8) := do
  let input ← get
  let stop := input.offset + length
  if stop ≤ input.bytes.length then do
    modify fun input ↦ { input with offset := stop }
    return (input.bytes.drop input.offset).take length
  else throw (eof input.offset (stop - input.bytes.length))

def slice (bytes : List UInt8) (start stop : ℕ) : Option (List UInt8) :=
  if stop ≤ bytes.length then some ((bytes.take stop).drop start) else none

theorem slice_append {bytes part : List UInt8} {start stop : ℕ}
    (h : slice bytes start stop = some part) (more : List UInt8) :
    slice (bytes ++ more) start stop = some part := by
  unfold slice at h ⊢
  split at h
  · rename_i hle
    rw [List.length_append, if_pos (hle.trans (Nat.le_add_right _ _)),
      List.take_append_of_le_length hle]
    exact h
  · cases h

theorem slice_middle (front part back : List UInt8) :
    slice (front ++ (part ++ back)) front.length (front.length + part.length) = some part := by
  have htake : (front ++ (part ++ back)).take (front.length + part.length) = front ++ part := by
    rw [← List.append_assoc, ← List.length_append, List.take_left]
  rw [slice, if_pos (by rw [List.length_append, List.length_append]; omega), htake, List.drop_left]

theorem slice_skip {front bytes : List UInt8} {skipped : ℕ} (h : front.length = skipped)
    (start stop : ℕ) : slice (front ++ bytes) (skipped + start) (skipped + stop) =
      slice bytes start stop := by
  have hfits : skipped + stop ≤ (front ++ bytes).length ↔ stop ≤ bytes.length := by
    rw [List.length_append, h, Nat.add_le_add_iff_left]
  unfold slice
  rw [← h, List.take_length_add_append, List.drop_length_add_append, h]
  simp only [hfits]

theorem slice_head {part : List UInt8} {length : ℕ} (h : part.length = length)
    (back : List UInt8) : slice (part ++ back) 0 length = some part := by
  rw [slice, if_pos (by rw [List.length_append]; omega), ← h, List.take_left, List.drop_zero]

theorem slice_front (part back : List UInt8) :
    slice (part ++ back) 0 part.length = some part :=
  slice_head rfl back

theorem le_length_of_slice {bytes part : List UInt8} {start stop : ℕ}
    (h : slice bytes start stop = some part) : stop ≤ bytes.length := by
  unfold slice at h
  split at h
  · assumption
  · cases h

theorem length_of_slice {bytes part : List UInt8} {start stop : ℕ}
    (h : slice bytes start stop = some part) : part.length = stop - start := by
  have hle := le_length_of_slice h
  rw [slice, if_pos hle] at h
  rw [← Option.some.inj h, List.length_drop, List.length_take_of_le hle]

theorem take_of_slice {bytes part : List UInt8} {start stop : ℕ} (hle : start ≤ stop)
    (h : slice bytes start stop = some part) : bytes.take stop = bytes.take start ++ part := by
  have hstop := le_length_of_slice h
  rw [slice, if_pos hstop] at h
  rw [← Option.some.inj h]
  have htake : (bytes.take stop).take start = bytes.take start := by
    rw [List.take_take, min_eq_left hle]
  rw [← htake, List.take_append_drop]

/-- The bytes as an array of a fixed length, as `try_into` makes one. -/
def toVector (length : ℕ) (bytes : List UInt8) : Option (Vector UInt8 length) :=
  if h : bytes.length = length then some ⟨bytes.toArray, h⟩ else none

theorem toVector_toList {length : ℕ} (bytes : Vector UInt8 length) :
    toVector length bytes.toList = some bytes := by
  rw [toVector, dif_pos (Vector.length_toList)]
  rfl

theorem toList_of_toVector {length : ℕ} {bytes : List UInt8} {vector : Vector UInt8 length}
    (h : toVector length bytes = some vector) : vector.toList = bytes := by
  unfold toVector at h
  split at h
  · obtain rfl := Option.some.inj h
    rfl
  · cases h

/-! ## Writers -/

/-- Wherever it stands, the writer appends the bytes and answers `a`. -/
def Appends (m : Writer ε α) (bytes : List UInt8) (a : α) : Prop :=
  ∀ buffer, Yields m buffer (.ok a) (buffer ++ bytes)

theorem appends_push (bytes : List UInt8) : Appends (push bytes : Writer ε PUnit) bytes ⟨⟩ :=
  fun _ ↦ rfl

theorem appends_pure (a : α) : Appends (pure a : Writer ε α) [] a := by
  intro buffer
  rw [List.append_nil]
  rfl

theorem yields_bind_ok {σ : Type} {m : Eff ε σ α} {f : α → Eff ε σ β} {s t u : σ} {a : α}
    {r : Except ε β} (hm : Yields m s (.ok a) t) (hf : Yields (f a) t r u) :
    Yields (m >>= f) s r u := by
  obtain ⟨hresult, hafter⟩ := hm.eq
  obtain ⟨hresult', hafter'⟩ := hf.eq
  have hbind := yields_self (m >>= f) s
  rwa [result_bind_ok hresult, after_bind_ok hresult, hafter, hresult', hafter'] at hbind

theorem yields_orThrow_ok {σ : Type} {x : Except ε α} {s t : σ} {a : α} :
    Yields (orThrow id x) s (.ok a) t ↔ x = .ok a ∧ t = s := by
  cases x with
  | error e =>
      refine iff_of_false (fun h ↦ ?_) (fun h ↦ by cases h.1)
      cases h.eq.1
  | ok b =>
      change Yields (pure b : Eff ε σ α) s (.ok a) t ↔ _
      rw [yields_pure, eq_comm]

theorem exists_of_yields_bind {σ : Type} {m : Eff ε σ α} {f : α → Eff ε σ β} {s u : σ} {b : β}
    (h : Yields (m >>= f) s (.ok b) u) :
    ∃ a t, Yields m s (.ok a) t ∧ Yields (f a) t (.ok b) u := by
  obtain ⟨hresult, hafter⟩ := h.eq
  cases hm : result m s with
  | error e =>
      rw [result_bind_error hm] at hresult
      cases hresult
  | ok a =>
      rw [result_bind_ok hm] at hresult
      rw [after_bind_ok hm] at hafter
      refine ⟨a, after m s, ?_, ?_⟩
      · rw [← hm]
        exact yields_self m s
      · rw [← hresult, ← hafter]
        exact yields_self _ _

theorem Appends.bind {m : Writer ε α} {f : α → Writer ε β} {front back : List UInt8} {a : α}
    {b : β} (hm : Appends m front a) (hf : Appends (f a) back b) :
    Appends (m >>= f) (front ++ back) b := by
  intro buffer
  rw [← List.append_assoc]
  exact yields_bind_ok (hm buffer) (hf _)

theorem appends_forM {write : V → Writer ε PUnit} {encode : V → List UInt8} {values : List V}
    (h : ∀ value ∈ values, Appends (write value) (encode value) ⟨⟩) :
    Appends (values.forM write) (values.flatMap encode) ⟨⟩ := by
  induction values with
  | nil => exact appends_pure _
  | cons value values ih =>
      rw [List.flatMap_cons]
      exact (h value List.mem_cons_self).bind
        (ih fun value' h' ↦ h value' (List.mem_cons_of_mem _ h'))

/-! ## Readers -/

/-- Wherever it finds the bytes, the reader makes `a` of them and stops behind them. -/
def Consumes (m : Reader ε L α) (limits : L) (bytes : List UInt8) (a : α) : Prop :=
  ∀ front back, Yields m ⟨front ++ (bytes ++ back), front.length, limits⟩ (.ok a)
    ⟨front ++ (bytes ++ back), front.length + bytes.length, limits⟩

theorem consumes_pure (limits : L) (a : α) : Consumes (pure a : Reader ε L α) limits [] a :=
  fun _ _ ↦ rfl

theorem consumes_take (eof : ℕ → ℕ → ε) (limits : L) (bytes : List UInt8) :
    Consumes (take eof bytes.length) limits bytes bytes := by
  intro front back
  have hfits : front.length + bytes.length ≤ (front ++ (bytes ++ back)).length := by
    rw [List.length_append, List.length_append]
    omega
  have hpart : ((front ++ (bytes ++ back)).drop front.length).take bytes.length = bytes := by
    rw [List.drop_left, List.take_left]
  rw [take, yields_get_bind]
  dsimp only
  rw [if_pos hfits, yields_modify_bind, hpart]
  rfl

theorem Consumes.bind {m : Reader ε L α} {f : α → Reader ε L β} {limits : L}
    {front back : List UInt8} {a : α} {b : β} (hm : Consumes m limits front a)
    (hf : Consumes (f a) limits back b) : Consumes (m >>= f) limits (front ++ back) b := by
  intro before after
  have hfirst := hm before (back ++ after)
  have hsecond := hf (before ++ front) after
  rw [List.length_append] at hsecond
  simp only [List.append_assoc, List.length_append] at hfirst hsecond ⊢
  rw [← Nat.add_assoc]
  exact yields_bind_ok hfirst hsecond

/-- A reader that goes on with what was read before, and consumes nothing more. -/
theorem Consumes.bind_nil {m : Reader ε L α} {f : α → Reader ε L β} {limits : L}
    {bytes : List UInt8} {a : α} {b : β} (hm : Consumes m limits bytes a)
    (hf : Consumes (f a) limits [] b) : Consumes (m >>= f) limits bytes b := by
  have h := hm.bind hf
  rwa [List.append_nil] at h

theorem Consumes.get_bind {f : Input L → Reader ε L β} {limits : L} {bytes : List UInt8} {b : β}
    (hf : ∀ input, input.limits = limits → Consumes (f input) limits bytes b) :
    Consumes (get >>= f) limits bytes b :=
  fun front back ↦ hf _ rfl front back

theorem consumes_mapM {T : Type} {read : T → Reader ε L V} {type : V → T}
    {encode : V → List UInt8} {limits : L} {values : List V}
    (h : ∀ value ∈ values, Consumes (read (type value)) limits (encode value) value) :
    Consumes ((values.map type).mapM read) limits (values.flatMap encode) values := by
  induction values with
  | nil => exact consumes_pure limits []
  | cons value values ih =>
      have hrest := ih fun value' h' ↦ h value' (List.mem_cons_of_mem _ h')
      rw [List.map_cons, List.mapM_cons, List.flatMap_cons]
      refine (h value List.mem_cons_self).bind ?_
      exact hrest.bind_nil (consumes_pure limits _)

theorem Consumes.whole {m : Reader ε L α} {limits : L} {bytes : List UInt8} {a : α}
    (h : Consumes m limits bytes a) :
    Yields m ⟨bytes, 0, limits⟩ (.ok a) ⟨bytes, bytes.length, limits⟩ := by
  have hwhole := h [] []
  rwa [List.nil_append, List.append_nil, List.length_nil, Nat.zero_add] at hwhole

end Wire
