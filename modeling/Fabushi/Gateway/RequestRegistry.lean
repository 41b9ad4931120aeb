import Mathlib.Data.List.Sort
import Fabushi.Gateway.ServerRequests

/-!
# The registry as a list of requests

A registry whose order and map are in step is the list of its open requests. Each operation
is one on this list: an issued request goes to its end, an answered or withdrawn one leaves
it, a locked answer changes one entry, and an import replaces it by the imported requests,
sorted by the time of their creation.
-/

namespace Fabushi.Gateway.ServerRequestRegistry

structure Represents (registry : ServerRequestRegistry) (requests : List PendingServerRequest) :
    Prop where
  nodup : (requests.map PendingServerRequest.id).Nodup
  order : registry.order = requests.map PendingServerRequest.id
  lookup : ∀ (id : String) (request : PendingServerRequest),
    registry.opened[id]? = some request ↔ request ∈ requests ∧ request.id = id

variable {registry : ServerRequestRegistry} {requests : List PendingServerRequest}

theorem represents_nil : Represents {} [] :=
  ⟨List.nodup_nil, rfl, by simp⟩

/-! ## What an operation can do -/

theorem resolveResponse_cases (registry : ServerRequestRegistry) (frame : Json) :
    registry.resolveResponse frame = (registry, none) ∨
      ∃ id request, registry.opened[id]? = some request ∧
        registry.resolveResponse frame =
          (registry.close id, some ⟨request, responseOf request frame⟩) := by
  unfold resolveResponse
  split
  · split
    · exact .inl rfl
    · rename_i id _
      cases hopen : registry.opened[id]? with
      | none => exact .inl rfl
      | some request => exact .inr ⟨id, request, hopen, rfl⟩
  · exact .inl rfl

theorem lockAnswer_cases (registry : ServerRequestRegistry) (requestId questionId answer : String) :
    (∃ result, registry.lockAnswer requestId questionId answer = (registry, result) ∧
      ∀ outcome, result ≠ .ok (some outcome)) ∨
    ∃ request locked, registry.opened[requestId]? = some request ∧
      questionId ∈ request.questionIds ∧
      locked = { request with lockedAnswers := request.lockedAnswers.insert questionId answer } ∧
      (registry.lockAnswer requestId questionId answer =
          ({ registry with opened := registry.opened.insert requestId locked },
            .ok (some ⟨remaining locked, none⟩)) ∨
        registry.lockAnswer requestId questionId answer =
          (registry.close requestId, .ok (some ⟨[], some ⟨locked,
            .result (.object [("answers", ofStrings locked.lockedAnswers)])⟩⟩))) := by
  unfold lockAnswer
  cases hopen : registry.opened[requestId]? with
  | none => exact .inl ⟨_, rfl, fun _ h ↦ by cases h⟩
  | some request =>
      by_cases hquestion : questionId ∈ request.questionIds
      · right
        refine ⟨request, _, rfl, hquestion, rfl, ?_⟩
        simp only [hquestion, not_true_eq_false, if_false]
        split
        · exact .inl rfl
        · exact .inr rfl
      · left
        simp only [hquestion, not_false_eq_true, if_true]
        exact ⟨_, rfl, fun _ h ↦ by cases h⟩

namespace Represents

theorem lookup_of_mem (h : Represents registry requests) {request : PendingServerRequest}
    (hmem : request ∈ requests) : registry.opened[request.id]? = some request :=
  (h.lookup request.id request).mpr ⟨hmem, rfl⟩

theorem eq_of_id (h : Represents registry requests) {request other : PendingServerRequest}
    (hmem : request ∈ requests) (hother : other ∈ requests) (hid : request.id = other.id) :
    request = other := by
  have hlookup := h.lookup_of_mem hmem
  rw [hid, h.lookup_of_mem hother] at hlookup
  exact (Option.some.inj hlookup).symm

theorem unique {registry' : ServerRequestRegistry} (h : Represents registry requests)
    (h' : Represents registry' requests) : registry = registry' := by
  have hopened : registry.opened = registry'.opened := by
    apply Std.ExtTreeMap.ext_getElem?
    intro id
    apply Option.ext
    intro request
    rw [h.lookup, h'.lookup]
  have horder : registry.order = registry'.order := h.order.trans h'.order.symm
  cases registry
  cases registry'
  rw [mk.injEq]
  exact ⟨hopened, horder⟩

theorem exportState_eq (h : Represents registry requests) : registry.exportState = requests := by
  unfold exportState
  rw [h.order, List.filterMap_map]
  refine (List.filterMap_congr fun request hmem ↦ ?_).trans List.filterMap_some
  exact h.lookup_of_mem hmem

theorem mem_order (h : Represents registry requests) (id : String) :
    id ∈ registry.order ↔ (registry.opened[id]?).isSome = true := by
  rw [h.order, Option.isSome_iff_exists, List.mem_map]
  exact exists_congr fun request ↦ (h.lookup id request).symm

theorem close (h : Represents registry requests) (id : String) :
    Represents (registry.close id) (requests.filter (·.id ≠ id)) := by
  refine ⟨h.nodup.sublist ((List.filter_sublist).map _), ?_, ?_⟩
  · rw [ServerRequestRegistry.close, h.order, List.filter_map]
    rfl
  · intro id' request
    simp only [ServerRequestRegistry.close, BTreeMap.get_erase, List.mem_filter, ne_eq,
      decide_eq_true_eq]
    by_cases hid : id = id'
    · subst hid
      simp
    · rw [if_neg hid, h.lookup]
      constructor
      · rintro ⟨hmem, rfl⟩
        exact ⟨⟨hmem, Ne.symm hid⟩, rfl⟩
      · rintro ⟨⟨hmem, -⟩, rfl⟩
        exact ⟨hmem, rfl⟩

theorem enter (h : Represents registry requests) (request : PendingServerRequest) :
    Represents { opened := registry.opened.insert request.id request
                 order := registry.order.filter (· ≠ request.id) ++ [request.id] }
      (requests.filter (·.id ≠ request.id) ++ [request]) := by
  have hclosed := h.close request.id
  refine ⟨?_, ?_, ?_⟩
  · rw [List.map_append]
    refine hclosed.nodup.append (List.nodup_singleton _) ?_
    simp
  · rw [List.map_append, ← hclosed.order]
    rfl
  · intro id other
    simp only [BTreeMap.get_insert, List.mem_append, List.mem_singleton]
    by_cases hid : request.id = id
    · rw [if_pos hid, Option.some.injEq]
      constructor
      · rintro rfl
        exact ⟨.inr rfl, hid⟩
      · rintro ⟨hmem | rfl, hother⟩
        · simp [hother, hid] at hmem
        · rfl
    · have hlookup := hclosed.lookup id other
      rw [ServerRequestRegistry.close, BTreeMap.get_erase, if_neg hid] at hlookup
      rw [if_neg hid, hlookup]
      constructor
      · rintro ⟨hmem, hother⟩
        exact ⟨.inl hmem, hother⟩
      · rintro ⟨hmem | rfl, hother⟩
        · exact ⟨hmem, hother⟩
        · exact absurd hother hid

theorem change (h : Represents registry requests) {request changed : PendingServerRequest}
    (hmem : request ∈ requests) (hid : changed.id = request.id) :
    Represents { registry with opened := registry.opened.insert request.id changed }
      (requests.map fun other ↦ if other.id = request.id then changed else other) := by
  have hids : (requests.map fun other ↦ if other.id = request.id then changed else other).map
      PendingServerRequest.id = requests.map PendingServerRequest.id := by
    rw [List.map_map]
    apply List.map_congr_left
    intro other _
    by_cases hother : other.id = request.id
    · simp [hother, hid]
    · simp [hother]
  refine ⟨hids ▸ h.nodup, hids ▸ h.order, ?_⟩
  intro id other
  simp only [BTreeMap.get_insert, List.mem_map]
  by_cases hsame : request.id = id
  · rw [if_pos hsame, Option.some.injEq]
    constructor
    · rintro rfl
      exact ⟨⟨request, hmem, if_pos rfl⟩, hid.trans hsame⟩
    · rintro ⟨⟨old, hold, heq⟩, hother⟩
      split at heq
      · exact heq
      · rename_i hne
        rw [heq] at hne
        exact absurd (hother.trans hsame.symm) hne
  · rw [if_neg hsame, h.lookup]
    constructor
    · rintro ⟨hin, rfl⟩
      exact ⟨⟨other, hin, if_neg (Ne.symm hsame)⟩, rfl⟩
    · rintro ⟨⟨old, hold, heq⟩, rfl⟩
      split at heq
      · rw [← heq, hid] at hsame
        exact absurd rfl hsame
      · exact ⟨heq ▸ hold, rfl⟩

theorem append (h : Represents registry requests) {request : PendingServerRequest}
    (hnew : request.id ∉ requests.map PendingServerRequest.id) :
    Represents { opened := registry.opened.insert request.id request
                 order := registry.order ++ [request.id] } (requests ++ [request]) := by
  have hentered := h.enter request
  have horder : registry.order.filter (· ≠ request.id) = registry.order := by
    rw [List.filter_eq_self, h.order]
    intro id hid
    simpa using ne_of_mem_of_not_mem hid hnew
  have hrequests : requests.filter (·.id ≠ request.id) = requests := by
    rw [List.filter_eq_self]
    intro other hother
    simpa using ne_of_mem_of_not_mem (List.mem_map_of_mem hother) hnew
  rw [horder, hrequests] at hentered
  exact hentered

/-! ## Imports -/

theorem importLoop (h : Represents registry requests) {imported : List PendingServerRequest}
    (hids : ((requests ++ imported).map PendingServerRequest.id).Nodup)
    (hvalid : ∀ request ∈ imported, (validateImported request).isOk = true) :
    ∃ registry', ServerRequestRegistry.importLoop registry imported = (registry', .ok ()) ∧
      Represents registry' (requests ++ imported) := by
  induction imported generalizing registry requests with
  | nil =>
      rw [List.append_nil]
      exact ⟨registry, rfl, h⟩
  | cons request imported ih =>
      rw [List.forall_mem_cons] at hvalid
      have hnew : request.id ∉ requests.map PendingServerRequest.id := by
        rw [List.map_append, List.nodup_append'] at hids
        exact fun hmem ↦ hids.2.2 hmem (List.mem_map_of_mem List.mem_cons_self)
      have hassoc : requests ++ request :: imported = (requests ++ [request]) ++ imported := by
        simp
      obtain ⟨registry', hloop, hrest⟩ := ih (h.append hnew) (hassoc ▸ hids) hvalid.2
      refine ⟨registry', ?_, hassoc ▸ hrest⟩
      rw [ServerRequestRegistry.importLoop]
      cases hcheck : validateImported request with
      | error error => simp [hcheck, Except.isOk, Except.toBool] at hvalid
      | ok u => exact hloop

end Represents

theorem filter_change (requests : List PendingServerRequest)
    {request changed : PendingServerRequest} (hid : changed.id = request.id) :
    (requests.map fun other ↦ if other.id = request.id then changed else other).filter
        (·.id ≠ request.id) = requests.filter (·.id ≠ request.id) := by
  induction requests with
  | nil => rfl
  | cons other requests ih =>
      by_cases hother : other.id = request.id
      · rw [List.map_cons, if_pos hother, List.filter_cons_of_neg (by simp [hid]), ih,
          List.filter_cons_of_neg (by simp [hother])]
      · rw [List.map_cons, if_neg hother, List.filter_cons_of_pos (by simp [hother]), ih,
          List.filter_cons_of_pos (by simp [hother])]

def byCreation (requests : List PendingServerRequest) : List PendingServerRequest :=
  requests.insertionSort fun a b ↦ a.createdAtMs ≤ b.createdAtMs

theorem pairwise_byCreation (requests : List PendingServerRequest) :
    (byCreation requests).Pairwise fun a b ↦ a.createdAtMs ≤ b.createdAtMs := by
  have htotal : Std.Total fun a b : PendingServerRequest ↦ a.createdAtMs ≤ b.createdAtMs :=
    ⟨fun a b ↦ UInt64.le_total a.createdAtMs b.createdAtMs⟩
  have htrans : IsTrans PendingServerRequest fun a b ↦ a.createdAtMs ≤ b.createdAtMs :=
    ⟨fun a b c ↦ UInt64.le_trans⟩
  exact List.pairwise_insertionSort _ requests

theorem represents_importState (registry : ServerRequestRegistry)
    (hids : (requests.map PendingServerRequest.id).Nodup)
    (hvalid : ∀ request ∈ requests, (validateImported request).isOk = true) :
    ∃ registry', registry.importState requests = (registry', .ok ()) ∧
      Represents registry' (byCreation requests) := by
  have hperm : (byCreation requests).Perm requests := List.perm_insertionSort _ requests
  apply Represents.importLoop represents_nil
  · exact (hperm.map _).nodup_iff.mpr hids
  · exact fun request hmem ↦ hvalid request (hperm.mem_iff.mp hmem)

/-! ## Withdrawals -/

theorem cancel_fold {opened : BTreeMap String PendingServerRequest}
    {gone : List PendingServerRequest} (hnodup : (gone.map PendingServerRequest.id).Nodup)
    (hopen : ∀ request ∈ gone, opened[request.id]? = some request) (reason : String)
    (notified : List Json) :
    let removed := (gone.map PendingServerRequest.id).foldl (withdraw reason) (opened, notified)
    removed.2 = notified ++ gone.map (cancelNotification · reason) ∧
      ∀ id : String, removed.1[id]? =
        if id ∈ gone.map PendingServerRequest.id then none else opened[id]? := by
  induction gone generalizing opened notified with
  | nil => simp
  | cons request gone ih =>
      rw [List.map_cons, List.nodup_cons] at hnodup
      have hrest : ∀ other ∈ gone, (opened.erase request.id)[other.id]? = some other := by
        intro other hother
        have hne : request.id ≠ other.id := fun heq ↦
          hnodup.1 (heq ▸ List.mem_map_of_mem hother)
        rw [BTreeMap.get_erase, if_neg hne]
        exact hopen other (List.mem_cons_of_mem _ hother)
      obtain ⟨hnotified, hlookup⟩ := ih hnodup.2 hrest
        (notified ++ [cancelNotification request reason])
      have hfirst : withdraw reason (opened, notified) request.id =
          (opened.erase request.id, notified ++ [cancelNotification request reason]) := by
        rw [withdraw, hopen request List.mem_cons_self]
      simp only [List.map_cons, List.foldl_cons, hfirst]
      refine ⟨?_, ?_⟩
      · rw [hnotified, List.append_assoc]
        rfl
      · intro id
        rw [hlookup id, BTreeMap.get_erase]
        by_cases hid : id = request.id
        · simp [hid]
        · simp [hid, Ne.symm hid]

def concerns (sessionId : Option String) (request : PendingServerRequest) : Bool :=
  sessionId.all fun sessionId ↦ request.sessionId = sessionId

theorem Represents.mem_concerned (h : Represents registry requests) {sessionId : Option String}
    {request : PendingServerRequest} (hmem : request ∈ requests) :
    request.id ∈ (requests.filter (concerns sessionId)).map PendingServerRequest.id ↔
      concerns sessionId request = true := by
  rw [List.mem_map]
  constructor
  · rintro ⟨other, hother, hid⟩
    rw [List.mem_filter] at hother
    rw [← h.eq_of_id hother.1 hmem hid]
    exact hother.2
  · exact fun hconcerns ↦ ⟨request, List.mem_filter.mpr ⟨hmem, hconcerns⟩, rfl⟩

theorem Represents.cancelSession (h : Represents registry requests) (sessionId : Option String)
    (reason : String) :
    Represents (registry.cancelSession sessionId reason).1
        (requests.filter fun request ↦ !concerns sessionId request) ∧
      (registry.cancelSession sessionId reason).2 =
        (requests.filter (concerns sessionId)).map (cancelNotification · reason) := by
  have hids : (registry.order.filter fun id ↦ (registry.opened[id]?).any fun request ↦
      sessionId.all fun sessionId ↦ request.sessionId = sessionId) =
        (requests.filter (concerns sessionId)).map PendingServerRequest.id := by
    rw [h.order, List.filter_map]
    congr 1
    apply List.filter_congr
    intro request hmem
    simp only [Function.comp_apply, h.lookup_of_mem hmem, Option.any_some]
    rfl
  have hsub : ((requests.filter (concerns sessionId)).map PendingServerRequest.id).Nodup :=
    h.nodup.sublist (List.filter_sublist.map _)
  obtain ⟨hnotified, hlookup⟩ := cancel_fold hsub
    (fun request hmem ↦ h.lookup_of_mem (List.mem_of_mem_filter hmem)) reason []
  have hgone := fun request ↦ @Represents.mem_concerned registry requests h sessionId request
  unfold ServerRequestRegistry.cancelSession
  rw [hids]
  refine ⟨⟨h.nodup.sublist (List.filter_sublist.map _), ?_, ?_⟩, hnotified⟩
  · dsimp only
    rw [h.order, List.filter_map]
    congr 1
    apply List.filter_congr
    intro request hmem
    rw [Function.comp_apply, hlookup]
    by_cases hconcerns : concerns sessionId request = true
    · simp [(hgone request hmem).mpr hconcerns, hconcerns]
    · rw [if_neg (mt (hgone request hmem).mp hconcerns), h.lookup_of_mem hmem]
      simp [hconcerns]
  · intro id request
    dsimp only
    rw [hlookup, List.mem_filter]
    constructor
    · intro hget
      split at hget
      · cases hget
      · rename_i hnot
        obtain ⟨hmem, rfl⟩ := (h.lookup id request).mp hget
        exact ⟨⟨hmem, by simpa using mt (hgone request hmem).mpr hnot⟩, rfl⟩
    · rintro ⟨⟨hmem, hconcerns⟩, rfl⟩
      have hnot : ¬ concerns sessionId request = true := by simpa using hconcerns
      rw [if_neg (mt (hgone request hmem).mp hnot), h.lookup_of_mem hmem]

end Fabushi.Gateway.ServerRequestRegistry
