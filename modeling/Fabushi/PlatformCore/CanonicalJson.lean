import Fabushi.Library.Bytes
import Fabushi.Library.JsonRoundTrip

/-!
# Canonical JSON

`canonical_json.rs`: the keys of every object are sorted, at every depth, before the value is
written. The bytes of two values are the same exactly when the values differ in the order of
keys only, so a digest or a signature of the bytes is one of the value.
-/

namespace Fabushi.PlatformCore

open Json Result

/-- `values[key]` for the keys in order. The order of texts is that of their code points, which
is also that of their bytes. -/
def insertSorted (values : List (String × Json)) : List (String × Json) :=
  let keys := (values.map Prod.fst).mergeSort (· ≤ ·)
  keys.foldl (fun canonical key ↦
    match values.lookup key with
    | some value => setMember key value canonical
    | none => canonical) []

mutual

def canonicalJsonValue : Json → Json
  | .array items => .array (canonicalItems items)
  | .object members => .object (insertSorted (canonicalMembers members))
  | .null => .null
  | .bool b => .bool b
  | .number literal => .number literal
  | .string text => .string text

def canonicalItems : List Json → List Json
  | [] => []
  | item :: items => canonicalJsonValue item :: canonicalItems items

def canonicalMembers : List (String × Json) → List (String × Json)
  | [] => []
  | (key, value) :: members => (key, canonicalJsonValue value) :: canonicalMembers members

end

def toVec (value : Json) : Except ReadError (List UInt8) :=
  .ok (Text.bytes (String.ofList (write value)))

/-- `serde_json::from_slice`. Without `disable_recursion_limit` 127 arrays and objects may be
entered. -/
def fromSlice (limit : Option ℕ) (bytes : List UInt8) : Except ReadError Json :=
  match Text.fromUtf8 bytes with
  | none => .error .invalidUnicode
  | some text => readDocument limit text.toList

def canonicalJsonBytes (value : Json) : Except ReadError (List UInt8) :=
  toVec (canonicalJsonValue value)

/-! ## Equality up to the order of keys -/

inductive Alike : Json → Json → Prop
  | null : Alike .null .null
  | bool (b : Bool) : Alike (.bool b) (.bool b)
  | number (literal : String) : Alike (.number literal) (.number literal)
  | string (text : String) : Alike (.string text) (.string text)
  | array {items others : List Json} (h : List.Forall₂ Alike items others) :
      Alike (.array items) (.array others)
  | object {members shuffled others : List (String × Json)} (order : members.Perm shuffled)
      (keys : shuffled.map Prod.fst = others.map Prod.fst)
      (values : List.Forall₂ Alike (shuffled.map Prod.snd) (others.map Prod.snd)) :
      Alike (.object members) (.object others)

/-- A value of the JSON library: its numbers have a text, its maps have no key twice. -/
structure Value where
  json : Json
  wellFormed : WellFormed json

/-! ## Sorting -/

variable {values others : List (String × Json)}

theorem canonicalItems_eq_map (items : List Json) :
    canonicalItems items = items.map canonicalJsonValue := by
  induction items with
  | nil => rfl
  | cons item items ih => rw [canonicalItems, ih, List.map_cons]

theorem canonicalMembers_eq_map (members : List (String × Json)) :
    canonicalMembers members =
      members.map fun member ↦ (member.1, canonicalJsonValue member.2) := by
  induction members with
  | nil => rfl
  | cons member members ih => rw [canonicalMembers, ih, List.map_cons]

theorem keys_canonicalMembers (members : List (String × Json)) :
    (canonicalMembers members).map Prod.fst = members.map Prod.fst := by
  rw [canonicalMembers_eq_map, List.map_map]
  rfl

theorem lookup_of_mem (h : (values.map Prod.fst).Nodup) {member : String × Json}
    (hmember : member ∈ values) : values.lookup member.1 = some member.2 := by
  induction values with
  | nil => cases hmember
  | cons value values ih =>
      rw [List.map_cons, List.nodup_cons] at h
      rcases List.mem_cons.mp hmember with rfl | hmember
      · exact List.lookup_cons_self
      · have hne : (member.1 == value.1) = false := by
          rw [beq_eq_false_iff_ne]
          intro heq
          exact h.1 (heq ▸ List.mem_map_of_mem hmember)
        rw [List.lookup_cons, hne]
        exact ih h.2 hmember

def memberAt (values : List (String × Json)) (key : String) : Option (String × Json) :=
  (values.lookup key).map fun value ↦ (key, value)

theorem filterMap_memberAt (h : (values.map Prod.fst).Nodup) :
    (values.map Prod.fst).filterMap (memberAt values) = values := by
  rw [List.filterMap_map]
  have hall : ∀ member ∈ values, (memberAt values ∘ Prod.fst) member = some member := by
    intro member hmember
    rw [Function.comp_apply, memberAt, lookup_of_mem h hmember]
    rfl
  rw [List.filterMap_congr hall, List.filterMap_some]

theorem insertSorted_eq_filterMap (h : (values.map Prod.fst).Nodup) :
    insertSorted values =
      ((values.map Prod.fst).mergeSort (· ≤ ·)).filterMap (memberAt values) := by
  have hfold : ∀ (keys : List String) (canonical : List (String × Json)), keys.Nodup →
      (∀ key ∈ keys, key ∉ canonical.map Prod.fst) →
        keys.foldl (fun canonical key ↦
          match values.lookup key with
          | some value => setMember key value canonical
          | none => canonical) canonical = canonical ++ keys.filterMap (memberAt values) := by
    intro keys
    induction keys with
    | nil =>
        intro canonical _ _
        exact (List.append_nil canonical).symm
    | cons key keys ih =>
        intro canonical hnodup hnew
        rw [List.nodup_cons] at hnodup
        rw [List.forall_mem_cons] at hnew
        rw [List.foldl_cons]
        cases hlookup : values.lookup key with
        | none =>
            have hnone : memberAt values key = none := by rw [memberAt, hlookup]; rfl
            rw [List.filterMap_cons_none hnone]
            exact ih canonical hnodup.2 hnew.2
        | some value =>
            have hsome : memberAt values key = some (key, value) := by
              rw [memberAt, hlookup]; rfl
            rw [List.filterMap_cons_some hsome]
            dsimp only
            rw [setMember_of_notMem hnew.1, ih _ hnodup.2, List.append_assoc,
              List.singleton_append]
            intro other hother
            rw [List.map_append, List.mem_append, not_or]
            refine ⟨hnew.2 other hother, ?_⟩
            rw [List.map_singleton, List.mem_singleton]
            rintro rfl
            exact hnodup.1 hother
  exact hfold _ [] ((List.mergeSort_perm _ _).nodup_iff.mpr h) nofun

theorem insertSorted_perm (h : (values.map Prod.fst).Nodup) :
    (insertSorted values).Perm values := by
  have hperm := (List.mergeSort_perm (values.map Prod.fst) (· ≤ ·)).filterMap (memberAt values)
  rw [filterMap_memberAt h] at hperm
  rwa [insertSorted_eq_filterMap h]

theorem keys_insertSorted (h : (values.map Prod.fst).Nodup) :
    (insertSorted values).map Prod.fst = (values.map Prod.fst).mergeSort (· ≤ ·) := by
  have hkeys : ∀ key ∈ (values.map Prod.fst).mergeSort (· ≤ ·),
      (memberAt values key).map Prod.fst = some key := by
    intro key hkey
    rw [List.mem_mergeSort] at hkey
    obtain ⟨member, hmember, rfl⟩ := List.mem_map.mp hkey
    rw [memberAt, lookup_of_mem h hmember]
    rfl
  rw [insertSorted_eq_filterMap h, List.map_filterMap, List.filterMap_congr hkeys,
    List.filterMap_some]

theorem sorted_insertSorted (h : (values.map Prod.fst).Nodup) :
    (insertSorted values).Pairwise fun a b ↦ a.1 < b.1 := by
  have hnodup : ((values.map Prod.fst).mergeSort (· ≤ ·)).Nodup :=
    (List.mergeSort_perm _ _).nodup_iff.mpr h
  have hsorted := (List.sortedLE_mergeSort (l := values.map Prod.fst)).sortedLT_of_nodup hnodup
  rw [← List.pairwise_map (f := Prod.fst), keys_insertSorted h]
  exact hsorted.pairwise

theorem insertSorted_eq_iff (h : (values.map Prod.fst).Nodup)
    (h' : (others.map Prod.fst).Nodup) :
    insertSorted values = insertSorted others ↔ values.Perm others := by
  constructor
  · intro heq
    have hperm := (insertSorted_perm h).symm
    rw [heq] at hperm
    exact hperm.trans (insertSorted_perm h')
  · intro hperm
    apply List.Perm.eq_of_pairwise _ (sorted_insertSorted h) (sorted_insertSorted h')
    · exact (insertSorted_perm h).trans (hperm.trans (insertSorted_perm h').symm)
    · intro a b _ _ hab hba
      exact absurd hba (lt_asymm hab)

/-! ## Canonical values -/

theorem canonicalJsonValue_array (items : List Json) :
    canonicalJsonValue (.array items) = .array (items.map canonicalJsonValue) := by
  rw [canonicalJsonValue, canonicalItems_eq_map]

theorem wellFormed_canonicalJsonValue {value : Json} (h : WellFormed value) :
    WellFormed (canonicalJsonValue value) := by
  induction value using inductionOn with
  | null => exact h
  | bool b => exact h
  | number literal => exact h
  | string text => exact h
  | array items ih =>
      cases h with
      | array hitems =>
          rw [canonicalJsonValue_array]
          refine .array fun canonical hcanonical ↦ ?_
          obtain ⟨item, hitem, rfl⟩ := List.mem_map.mp hcanonical
          exact ih item hitem (hitems item hitem)
  | object members ih =>
      cases h with
      | object hkeys hmembers =>
          rw [← keys_canonicalMembers] at hkeys
          rw [canonicalJsonValue]
          have hperm := insertSorted_perm hkeys
          refine .object ((hperm.map _).nodup_iff.mpr hkeys) fun canonical hcanonical ↦ ?_
          rw [hperm.mem_iff, canonicalMembers_eq_map] at hcanonical
          obtain ⟨member, hmember, rfl⟩ := List.mem_map.mp hcanonical
          exact ih member hmember (hmembers member hmember)

theorem canonicalJsonValue_idempotent {value : Json} (h : WellFormed value) :
    canonicalJsonValue (canonicalJsonValue value) = canonicalJsonValue value := by
  induction value using inductionOn with
  | null => rfl
  | bool b => rfl
  | number literal => rfl
  | string text => rfl
  | array items ih =>
      cases h with
      | array hitems =>
          rw [canonicalJsonValue_array, canonicalJsonValue_array, List.map_map]
          exact congrArg _ (List.map_congr_left fun item hitem ↦ ih item hitem (hitems item hitem))
  | object members ih =>
      cases h with
      | object hkeys hmembers =>
          have hkeys' := hkeys
          rw [← keys_canonicalMembers] at hkeys'
          have hperm := insertSorted_perm hkeys'
          -- every member is canonical, and the members are in order
          have hfixed : canonicalMembers (insertSorted (canonicalMembers members)) =
              insertSorted (canonicalMembers members) := by
            rw [canonicalMembers_eq_map (insertSorted _)]
            refine (List.map_congr_left fun canonical hcanonical ↦ ?_).trans (List.map_id _)
            rw [hperm.mem_iff, canonicalMembers_eq_map] at hcanonical
            obtain ⟨member, hmember, rfl⟩ := List.mem_map.mp hcanonical
            exact congrArg _ (ih member hmember (hmembers member hmember))
          rw [canonicalJsonValue, canonicalJsonValue, hfixed,
            (insertSorted_eq_iff ((hperm.map _).nodup_iff.mpr hkeys') hkeys').mpr hperm]

theorem nesting_canonicalJsonValue {value : Json} (h : WellFormed value) :
    nesting (canonicalJsonValue value) = nesting value := by
  induction value using inductionOn with
  | null => rfl
  | bool b => rfl
  | number literal => rfl
  | string text => rfl
  | array items ih =>
      cases h with
      | array hitems =>
          rw [canonicalJsonValue_array, nesting, nesting, Nat.succ_inj]
          apply eq_of_forall_ge_iff
          intro n
          rw [nestingItems_le_iff, nestingItems_le_iff, List.forall_mem_map]
          exact forall₂_congr fun item hitem ↦ by rw [ih item hitem (hitems item hitem)]
  | object members ih =>
      cases h with
      | object hkeys hmembers =>
          rw [← keys_canonicalMembers] at hkeys
          rw [canonicalJsonValue, nesting, nesting, Nat.succ_inj]
          apply eq_of_forall_ge_iff
          intro n
          simp only [nestingMembers_le_iff, (insertSorted_perm hkeys).mem_iff]
          rw [canonicalMembers_eq_map, List.forall_mem_map]
          exact forall₂_congr fun member hmember ↦ by
            rw [ih member hmember (hmembers member hmember)]

theorem alike_object_iff {members others : List (String × Json)} :
    Alike (.object members) (.object others) ↔ ∃ shuffled, members.Perm shuffled ∧
      List.Forall₂ (fun member other ↦ member.1 = other.1 ∧ Alike member.2 other.2)
        shuffled others := by
  constructor
  · intro h
    cases h with
    | @object _ shuffled _ order keys values =>
        rw [List.forall₂_map_left_iff, List.forall₂_map_right_iff] at values
        exact ⟨shuffled, order, forall₂_and.mpr ⟨map_eq_map_iff.mp keys, values⟩⟩
  · rintro ⟨shuffled, order, h⟩
    obtain ⟨keys, values⟩ := forall₂_and.mp h
    refine .object order (map_eq_map_iff.mpr keys) ?_
    rwa [List.forall₂_map_left_iff, List.forall₂_map_right_iff]

theorem canonicalJsonValue_eq_iff {a b : Json} (ha : WellFormed a) (hb : WellFormed b) :
    canonicalJsonValue a = canonicalJsonValue b ↔ Alike a b := by
  induction a using inductionOn generalizing b with
  | null =>
      constructor
      · intro heq
        cases b <;> first | exact .null | cases heq
      · rintro ⟨⟩
        rfl
  | bool value =>
      constructor
      · intro heq
        cases b <;> cases heq
        exact .bool value
      · rintro ⟨⟩
        rfl
  | number literal =>
      constructor
      · intro heq
        cases b <;> cases heq
        exact .number literal
      · rintro ⟨⟩
        rfl
  | string text =>
      constructor
      · intro heq
        cases b <;> cases heq
        exact .string text
      · rintro ⟨⟩
        rfl
  | array items ih =>
      cases b with
      | array others =>
          cases ha with
          | array hitems =>
              cases hb with
              | array hothers =>
                  have hall : items.map canonicalJsonValue = others.map canonicalJsonValue ↔
                      List.Forall₂ Alike items others := by
                    rw [map_eq_map_iff]
                    exact forall₂_congr_mem fun item hitem other hother ↦
                      ih item hitem (hitems item hitem) (hothers other hother)
                  rw [canonicalJsonValue_array, canonicalJsonValue_array, Json.array.injEq, hall]
                  exact ⟨.array, fun h ↦ by cases h; assumption⟩
      | _ => exact iff_of_false nofun nofun
  | object members ih =>
      cases b with
      | object others =>
          cases ha with
          | object hkeys hmembers =>
              cases hb with
              | object hkeys' hothers =>
                  rw [← keys_canonicalMembers] at hkeys hkeys'
                  rw [canonicalJsonValue, canonicalJsonValue, Json.object.injEq,
                    insertSorted_eq_iff hkeys hkeys']
                  have hshuffled : ∀ shuffled : List (String × Json), members.Perm shuffled →
                      (canonicalMembers others = canonicalMembers shuffled ↔
                        List.Forall₂ (fun member other ↦ member.1 = other.1 ∧
                          Alike member.2 other.2) shuffled others) := by
                    intro shuffled order
                    rw [eq_comm, canonicalMembers_eq_map, canonicalMembers_eq_map,
                      map_eq_map_iff]
                    apply forall₂_congr_mem
                    intro member hmember other hother
                    rw [← order.mem_iff] at hmember
                    rw [Prod.mk.injEq, ih member hmember (hmembers member hmember)
                      (hothers other hother)]
                  rw [alike_object_iff, List.perm_comm, canonicalMembers_eq_map members,
                    ← congrFun₂ (List.eq_map_comp_perm _) (canonicalMembers others) members]
                  constructor
                  · rintro ⟨shuffled, heq, order⟩
                    rw [← canonicalMembers_eq_map] at heq
                    exact ⟨shuffled, order.symm, (hshuffled shuffled order.symm).mp heq⟩
                  · rintro ⟨shuffled, order, h⟩
                    have heq := (hshuffled shuffled order).mpr h
                    rw [canonicalMembers_eq_map shuffled] at heq
                    exact ⟨shuffled, heq, order.symm⟩
      | _ => exact iff_of_false nofun nofun

/-! ## Canonical bytes -/

theorem toVec_eq_iff {a b : Json} (ha : WellFormed a) (hb : WellFormed b) :
    toVec a = toVec b ↔ a = b := by
  constructor
  · intro h
    have htext := String.ofList_injective (Bytes.bytes_injective (Except.ok.inj h))
    exact write_injective ha hb htext
  · rintro rfl
    rfl

theorem fromSlice_toVec {value : Json} (h : WellFormed value) (limit : Option ℕ) :
    toVec value >>= fromSlice limit =
      if fits limit value then .ok value else .error .recursionLimitExceeded := by
  change fromSlice limit (Text.bytes (String.ofList (write value))) = _
  rw [fromSlice, Text.fromUtf8_bytes]
  dsimp only
  rw [String.toList_ofList, readDocument_write h]

/-- The canonical bytes tell values apart exactly up to the order of keys. Read by any parser
that may enter as many arrays and objects as the value nests, they give a value with the same
canonical bytes. -/
theorem canonicalJsonBytes_canonical (a b : Value) :
    (canonicalJsonBytes a.json = canonicalJsonBytes b.json ↔ Alike a.json b.json) ∧
      ∀ limit, (canonicalJsonBytes a.json >>= fromSlice limit >>= canonicalJsonBytes) =
        if fits limit a.json then canonicalJsonBytes a.json
        else .error .recursionLimitExceeded := by
  have ha := wellFormed_canonicalJsonValue a.wellFormed
  have hb := wellFormed_canonicalJsonValue b.wellFormed
  constructor
  · rw [canonicalJsonBytes, canonicalJsonBytes, toVec_eq_iff ha hb,
      canonicalJsonValue_eq_iff a.wellFormed b.wellFormed]
  · intro limit
    have hfits : fits limit (canonicalJsonValue a.json) = fits limit a.json := by
      rw [fits, fits, nesting_canonicalJsonValue a.wellFormed]
    rw [canonicalJsonBytes, fromSlice_toVec ha, hfits]
    cases fits limit a.json with
    | false => rfl
    | true =>
        change canonicalJsonBytes (canonicalJsonValue a.json) = _
        rw [canonicalJsonBytes, canonicalJsonValue_idempotent a.wellFormed]
        rfl

end Fabushi.PlatformCore
