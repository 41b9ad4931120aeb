import Fabushi.Library.Runs
import Fabushi.Gateway.RequestRegistry

/-!
# The registry over whole runs

Beside the registry a run keeps how often an id was issued, which of these requests were
resolved or cancelled, the first answer locked for each question, and what was delivered.
Imports and second locks are not checked: an import may hold an id twice, bring back a closed
request or fail half-way, and a second lock replaces the answer.
-/

namespace Fabushi.Gateway

open ServerRequestRegistry

inductive RegistryInput where
  | issueWithId (id sessionId method : String) (params : Json) (questionIds : List String)
      (createdAtMs : UInt64)
  | lockAnswer (requestId questionId answer : String)
  | resolveResponse (frame : Json)
  | cancelSession (sessionId : Option String) (reason : String)
  | importState (requests : List PendingServerRequest)

structure RegistryWorld where
  registry : ServerRequestRegistry := {}
  /-- How often a request was issued under an id. -/
  issued : BTreeMap String ℕ := ∅
  /-- The requests that were resolved or cancelled, by id and by how often it was issued. -/
  closed : List (String × ℕ) := []
  /-- The first answers locked for the request of an id. -/
  locked : BTreeMap String (BTreeMap String String) := ∅
  /-- The responses delivered, each with the answers locked for its request. -/
  delivered : List (BTreeMap String String × ServerRequestResponse) := []

namespace RegistryWorld

def issueOf (world : RegistryWorld) (id : String) : ℕ :=
  world.issued[id]?.getD 0

def lockedOf (world : RegistryWorld) (id : String) : BTreeMap String String :=
  world.locked[id]?.getD ∅

def close (world : RegistryWorld) (id : String) : RegistryWorld :=
  { world with closed := world.closed ++ [(id, world.issueOf id)], locked := world.locked.erase id }

def resolve (world : RegistryWorld) (resolved : ResolvedServerRequest) : RegistryWorld :=
  { world with
    delivered := world.delivered ++ [(world.lockedOf resolved.request.id, resolved.response)] }.close
      resolved.request.id

def lock (world : RegistryWorld) (requestId questionId answer : String) : RegistryWorld :=
  let answers := world.lockedOf requestId
  { world with locked := world.locked.insert requestId <|
      match answers[questionId]? with
      | some _ => answers
      | none => answers.insert questionId answer }

def cancelledId (notification : Json) : Option String :=
  ((notification.get "params").bind fun params ↦ params.get "id").bind Json.asStr

def next (world : RegistryWorld) : RegistryInput → RegistryWorld
  | .issueWithId id sessionId method params questionIds createdAtMs =>
      match world.registry.issueWithId id sessionId method params questionIds createdAtMs with
      | .error _ => world
      | .ok (registry, _) =>
          { world with
            registry
            issued := world.issued.insert id (world.issueOf id + 1)
            locked := world.locked.erase id }
  | .lockAnswer requestId questionId answer =>
      match world.registry.lockAnswer requestId questionId answer with
      | (registry, .ok (some outcome)) =>
          let world := { world with registry }.lock requestId questionId answer
          match outcome.resolution with
          | some resolved => world.resolve resolved
          | none => world
      | (registry, _) => { world with registry }
  | .resolveResponse frame =>
      match world.registry.resolveResponse frame with
      | (registry, some resolved) => { world with registry }.resolve resolved
      | (registry, none) => { world with registry }
  | .cancelSession sessionId reason =>
      let cancelled := world.registry.cancelSession sessionId reason
      (cancelled.2.filterMap cancelledId).foldl close { world with registry := cancelled.1 }
  | .importState requests =>
      let registry := (world.registry.importState requests).1
      { world with
        registry
        locked := registry.exportState.foldl (fun locked request ↦
          locked.insert request.id request.lockedAnswers) world.locked }

/-! ## What is promised -/

def answerOf (result : Json) (questionId : String) : Option String :=
  ((result.get "answers").bind fun answers ↦ answers.get questionId).bind Json.asStr

structure Sound (world : RegistryWorld) : Prop where
  /-- The order holds the ids of the open requests, each once. -/
  ordered : world.registry.order.Nodup ∧ ∀ id : String, id ∈ world.registry.order ↔
    (world.registry.opened[id]?).isSome = true
  /-- No issued request is resolved or cancelled twice. -/
  once : (world.closed.filter fun request ↦ 0 < request.2).Nodup
  /-- An open request has the first answer that was locked for a question. -/
  kept : ∀ (id : String) (request : PendingServerRequest),
    world.registry.opened[id]? = some request →
      ∀ (question answer : String), (world.lockedOf id)[question]? = some answer →
        request.lockedAnswers[question]? = some answer
  /-- A result has the locked answers of its request. -/
  delivers : ∀ delivery ∈ world.delivered, ∀ result, delivery.2 = .result result →
    ∀ (question answer : String), delivery.1[question]? = some answer →
      answerOf result question = some answer
  /-- An exported state is imported back into an empty registry. -/
  roundTrip : ({} : ServerRequestRegistry).importState world.registry.exportState =
    (world.registry, .ok ())

def FailureKeeps (world : RegistryWorld) : RegistryInput → Prop
  | .importState requests => ∀ error, (world.registry.importState requests).2 = .error error →
      (world.registry.importState requests).1 = world.registry
  | _ => True

/-! ## When it is kept -/

/-- An imported request that is not closed, and has the answers locked for it so far. -/
def Current (world : RegistryWorld) (request : PendingServerRequest) : Prop :=
  (0 < world.issueOf request.id → (request.id, world.issueOf request.id) ∉ world.closed) ∧
    ∀ answer ∈ (world.lockedOf request.id).toList,
      request.lockedAnswers[answer.1]? = some answer.2

/-- A request is issued no earlier than the open ones were created, an answer is locked for a
question that has no other one, and an import holds valid and current requests with different
ids; or it fails at once on an empty registry. -/
def Careful (world : RegistryWorld) : RegistryInput → Prop
  | .issueWithId id _ method _ _ createdAtMs =>
      (validateMethod method).isOk = true → (validateId id).isOk = true →
        ∀ request ∈ world.registry.exportState, request.id ≠ id →
          request.createdAtMs ≤ createdAtMs
  | .lockAnswer requestId questionId answer => ∀ request ∈ world.registry.opened[requestId]?,
      questionId ∈ request.questionIds →
        ∀ locked ∈ request.lockedAnswers[questionId]?, locked = answer
  | .importState requests =>
      ((∀ request ∈ requests, (validateImported request).isOk = true ∧ world.Current request) ∧
        (requests.map PendingServerRequest.id).Nodup) ∨
      (world.registry.order = [] ∧
        ∃ request ∈ (byCreation requests).head?, (validateImported request).isOk = false)
  | _ => True

instance (world : RegistryWorld) (request : PendingServerRequest) :
    Decidable (world.Current request) := by
  unfold Current
  infer_instance

instance (world : RegistryWorld) (input : RegistryInput) : Decidable (world.Careful input) := by
  unfold Careful
  cases input <;> infer_instance

/-! ## The invariant -/

structure Books (world : RegistryWorld) (requests : List PendingServerRequest) : Prop where
  valid : ∀ request ∈ requests, (validateImported request).isOk = true
  sorted : requests.Pairwise fun a b ↦ a.createdAtMs ≤ b.createdAtMs
  pending : ∀ request ∈ requests, 0 < world.issueOf request.id →
    (request.id, world.issueOf request.id) ∉ world.closed
  closed_le : ∀ request ∈ world.closed, request.2 ≤ world.issueOf request.1
  once : (world.closed.filter fun request ↦ 0 < request.2).Nodup
  kept : ∀ request ∈ requests, ∀ (question answer : String),
    (world.lockedOf request.id)[question]? = some answer →
      request.lockedAnswers[question]? = some answer
  delivers : ∀ delivery ∈ world.delivered, ∀ result, delivery.2 = .result result →
    ∀ (question answer : String), delivery.1[question]? = some answer →
      answerOf result question = some answer

section Steps

variable {world : RegistryWorld} {requests : List PendingServerRequest}

theorem Books.anyRegistry (h : world.Books requests) (registry : ServerRequestRegistry) :
    ({ world with registry } : RegistryWorld).Books requests :=
  ⟨h.valid, h.sorted, h.pending, h.closed_le, h.once, h.kept, h.delivers⟩

theorem lockedOf_close (id id' : String) :
    (world.close id).lockedOf id' = if id = id' then ∅ else world.lockedOf id' := by
  simp only [lockedOf, close, BTreeMap.get_erase]
  split <;> rfl

theorem Books.close (h : world.Books requests) {request : PendingServerRequest}
    (hmem : request ∈ requests) :
    (world.close request.id).Books (requests.filter (·.id ≠ request.id)) := by
  have hother : ∀ other ∈ requests.filter (·.id ≠ request.id),
      other ∈ requests ∧ other.id ≠ request.id := by
    intro other hin
    simpa using List.mem_filter.mp hin
  constructor
  case valid => exact fun other hin ↦ h.valid other (hother other hin).1
  case sorted => exact h.sorted.filter _
  case pending =>
    intro other hin hissued hclosed
    obtain ⟨hold, hne⟩ := hother other hin
    rcases List.mem_append.mp hclosed with hbefore | hnow
    · exact h.pending other hold hissued hbefore
    · exact hne (congrArg Prod.fst (List.mem_singleton.mp hnow))
  case closed_le =>
    intro closed hclosed
    rcases List.mem_append.mp hclosed with hbefore | hnow
    · exact h.closed_le closed hbefore
    · rw [List.mem_singleton.mp hnow]
      exact le_rfl
  case once =>
    change ((world.closed ++ [(request.id, world.issueOf request.id)]).filter _).Nodup
    rw [List.filter_append]
    by_cases hissued : 0 < world.issueOf request.id
    · rw [List.filter_cons_of_pos (by simpa using hissued), List.filter_nil]
      refine h.once.append (List.nodup_singleton _) ?_
      rw [List.disjoint_singleton]
      exact fun hclosed ↦ h.pending request hmem hissued (List.mem_of_mem_filter hclosed)
    · rw [List.filter_cons_of_neg (by simpa using hissued), List.filter_nil, List.append_nil]
      exact h.once
  case kept =>
    intro other hin question answer hlocked
    obtain ⟨hold, hne⟩ := hother other hin
    rw [lockedOf_close, if_neg (Ne.symm hne)] at hlocked
    exact h.kept other hold question answer hlocked
  case delivers => exact h.delivers

theorem Books.closeAll {ids : List String} {world : RegistryWorld}
    {requests : List PendingServerRequest} (h : world.Books requests) (hnodup : ids.Nodup)
    (hopen : ∀ id ∈ ids, ∃ request ∈ requests, request.id = id) :
    (ids.foldl RegistryWorld.close world).Books (requests.filter (·.id ∉ ids)) := by
  induction ids generalizing world requests with
  | nil => simpa using h
  | cons id ids ih =>
      rw [List.nodup_cons] at hnodup
      obtain ⟨request, hmem, rfl⟩ := hopen _ List.mem_cons_self
      have hrest := ih (h.close hmem) hnodup.2 ?_
      · rw [List.filter_filter] at hrest
        simpa [not_or, Bool.and_comm] using hrest
      · intro id hid
        obtain ⟨other, hother, rfl⟩ := hopen id (List.mem_cons_of_mem _ hid)
        refine ⟨other, List.mem_filter.mpr ⟨hother, ?_⟩, rfl⟩
        simpa using ne_of_mem_of_not_mem hid hnodup.1

theorem registry_closeAll (ids : List String) (world : RegistryWorld) :
    (ids.foldl RegistryWorld.close world).registry = world.registry := by
  induction ids generalizing world with
  | nil => rfl
  | cons id ids ih => exact ih (world.close id)

theorem Books.deliver (h : world.Books requests) {answers : BTreeMap String String}
    {response : ServerRequestResponse}
    (hanswers : ∀ result, response = .result result → ∀ (question answer : String),
      answers[question]? = some answer → answerOf result question = some answer) :
    ({ world with delivered := world.delivered ++ [(answers, response)] } :
      RegistryWorld).Books requests := by
  refine ⟨h.valid, h.sorted, h.pending, h.closed_le, h.once, h.kept, ?_⟩
  intro delivery hdelivery
  rcases List.mem_append.mp hdelivery with hbefore | hnow
  · exact h.delivers delivery hbefore
  · rw [List.mem_singleton.mp hnow]
    exact hanswers

theorem lockedOf_lock (id question answer id' : String) :
    (world.lock id question answer).lockedOf id' =
      if id = id' then
        match (world.lockedOf id)[question]? with
        | some _ => world.lockedOf id
        | none => (world.lockedOf id).insert question answer
      else world.lockedOf id' := by
  simp only [lockedOf, lock, BTreeMap.get_insert]
  split <;> rfl

theorem Books.lock (h : world.Books requests) {request : PendingServerRequest}
    (hmem : request ∈ requests) (hids : (requests.map PendingServerRequest.id).Nodup)
    {question answer : String}
    (hfree : ∀ locked ∈ request.lockedAnswers[question]?, locked = answer) :
    (world.lock request.id question answer).Books (requests.map fun other ↦
      if other.id = request.id then
        { request with lockedAnswers := request.lockedAnswers.insert question answer }
      else other) := by
  let locked := { request with lockedAnswers := request.lockedAnswers.insert question answer }
  have hchanged : ∀ other, (if other.id = request.id then locked else other).id = other.id ∧
      (other ∈ requests → other.id = request.id → other = request) := by
    intro other
    refine ⟨?_, fun hother hid ↦ List.inj_on_of_nodup_map hids hother hmem hid⟩
    split
    · rename_i hid
      exact hid.symm
    · rfl
  have hin : ∀ {p : PendingServerRequest → Prop}, p locked → (∀ other ∈ requests, p other) →
      ∀ other ∈ requests.map fun other ↦ if other.id = request.id then locked else other,
        p other := by
    intro p hlocked hothers other hother
    obtain ⟨old, hold, rfl⟩ := List.mem_map.mp hother
    split
    · exact hlocked
    · exact hothers old hold
  constructor
  case valid => exact hin (h.valid request hmem) h.valid
  case sorted =>
    rw [List.pairwise_map]
    refine h.sorted.imp_of_mem ?_
    intro a b ha hb hab
    have htime : ∀ other ∈ requests, (if other.id = request.id then locked else
        other).createdAtMs = other.createdAtMs := by
      intro other hother
      split
      · rename_i hid
        rw [(hchanged other).2 hother hid]
      · rfl
    rw [htime a ha, htime b hb]
    exact hab
  case pending => exact hin (h.pending request hmem) h.pending
  case closed_le => exact h.closed_le
  case once => exact h.once
  case kept =>
    intro other hother q a hlock
    obtain ⟨old, hold, rfl⟩ := List.mem_map.mp hother
    rw [(hchanged old).1, lockedOf_lock] at hlock
    by_cases hid : old.id = request.id
    · rw [if_pos hid.symm] at hlock
      simp only [if_pos hid]
      change (request.lockedAnswers.insert question answer)[q]? = some a
      rw [BTreeMap.get_insert]
      cases hbefore : (world.lockedOf request.id)[question]? with
      | none =>
          simp only [hbefore] at hlock
          rw [BTreeMap.get_insert] at hlock
          split
          · rename_i hq
            rwa [if_pos hq] at hlock
          · rename_i hq
            rw [if_neg hq] at hlock
            exact h.kept request hmem q a hlock
      | some a' =>
          simp only [hbefore] at hlock
          have hold := h.kept request hmem q a hlock
          split
          · rename_i hq
            rw [hfree a (hq ▸ hold)]
          · exact hold
    · rw [if_neg (Ne.symm hid)] at hlock
      rw [if_neg hid]
      exact h.kept old hold q a hlock
  case delivers => exact h.delivers

theorem Books.issue (h : world.Books requests) {request : PendingServerRequest}
    (hvalid : (validateImported request).isOk = true)
    (hlast : ∀ other ∈ requests, other.id ≠ request.id →
      other.createdAtMs ≤ request.createdAtMs) :
    ({ world with
        issued := world.issued.insert request.id (world.issueOf request.id + 1)
        locked := world.locked.erase request.id } : RegistryWorld).Books
      (requests.filter (·.id ≠ request.id) ++ [request]) := by
  have hissue : ∀ id, ({ world with
      issued := world.issued.insert request.id (world.issueOf request.id + 1)
      locked := world.locked.erase request.id } : RegistryWorld).issueOf id =
        if request.id = id then world.issueOf id + 1 else world.issueOf id := by
    intro id
    simp only [issueOf, BTreeMap.get_insert]
    split
    · rename_i hid
      rw [hid]
      rfl
    · rfl
  have hcases : ∀ other ∈ requests.filter (·.id ≠ request.id) ++ [request],
      (other ∈ requests ∧ other.id ≠ request.id) ∨ other = request := by
    intro other hother
    rcases List.mem_append.mp hother with hold | hnew
    · exact .inl (by simpa using List.mem_filter.mp hold)
    · exact .inr (List.mem_singleton.mp hnew)
  constructor
  case valid =>
    intro other hother
    rcases hcases other hother with ⟨hold, -⟩ | rfl
    · exact h.valid other hold
    · exact hvalid
  case sorted =>
    rw [List.pairwise_append]
    refine ⟨h.sorted.filter _, List.pairwise_singleton .., ?_⟩
    intro other hother new hnew
    rw [List.mem_singleton.mp hnew]
    obtain ⟨hold, hne⟩ := List.mem_filter.mp hother
    exact hlast other hold (by simpa using hne)
  case pending =>
    intro other hother hissued hclosed
    rw [hissue] at hissued hclosed
    rcases hcases other hother with ⟨hold, hne⟩ | rfl
    · rw [if_neg (Ne.symm hne)] at hissued hclosed
      exact h.pending other hold hissued hclosed
    · rw [if_pos rfl] at hclosed
      exact absurd (h.closed_le _ hclosed) (Nat.not_succ_le_self _)
  case closed_le =>
    intro closed hclosed
    rw [hissue]
    have hle := h.closed_le closed hclosed
    split <;> omega
  case once => exact h.once
  case kept =>
    intro other hother question answer hlocked
    simp only [lockedOf, BTreeMap.get_erase] at hlocked
    split at hlocked
    · simp at hlocked
    · rename_i hne
      rcases hcases other hother with ⟨hold, -⟩ | rfl
      · exact h.kept other hold question answer hlocked
      · exact absurd rfl hne
  case delivers => exact h.delivers

theorem Books.imported (h : world.Books requests) {imported : List PendingServerRequest}
    (hids : (imported.map PendingServerRequest.id).Nodup)
    (hvalid : ∀ request ∈ imported, (validateImported request).isOk = true)
    (hsorted : imported.Pairwise fun a b ↦ a.createdAtMs ≤ b.createdAtMs)
    (hcurrent : ∀ request ∈ imported, world.Current request) :
    ({ world with
        locked := imported.foldl (fun locked request ↦
          locked.insert request.id request.lockedAnswers) world.locked } :
      RegistryWorld).Books imported := by
  refine ⟨hvalid, hsorted, fun request hmem ↦ (hcurrent request hmem).1, h.closed_le, h.once, ?_,
    h.delivers⟩
  intro request hmem question answer hlocked
  have hfold : (imported.foldl (fun locked request ↦
      locked.insert request.id request.lockedAnswers) world.locked)[request.id]? =
        some request.lockedAnswers := by
    let entryOf := fun request : PendingServerRequest ↦ (request.id, request.lockedAnswers)
    have hkeys : ((imported.map entryOf).map Prod.fst).Nodup := by
      rw [List.map_map]
      exact hids
    have hentry : (request.id, request.lockedAnswers) ∈ imported.map entryOf :=
      List.mem_map_of_mem hmem
    have hentries := BTreeMap.get_foldl_insert hkeys world.locked request.id
    rw [List.foldl_map] at hentries
    refine hentries.trans ?_
    rw [BTreeMap.find_entry hkeys hentry]
    rfl
  simp only [lockedOf, hfold] at hlocked
  exact hlocked

/-! ## Answers -/

theorem get_ofStrings (answers : BTreeMap String String) (name : String) :
    (ofStrings answers).get name = answers[name]?.map Json.string := by
  rw [← BTreeMap.find_toList answers name]
  simp only [ofStrings, Json.get, List.find?_map, Option.map_map]
  rfl

theorem answerOf_insert {result : Json} (hobject : result.isObject = true)
    (answers : BTreeMap String String) (question : String) :
    answerOf (result.insert "answers" (ofStrings answers)) question = answers[question]? := by
  cases result with
  | object members =>
      unfold answerOf
      rw [Json.get_insert, if_pos rfl, Option.bind_some, get_ofStrings]
      cases answers[question]? <;> rfl
  | _ => cases hobject

theorem answerOf_mergeLockedAnswers {request : PendingServerRequest} {result : Json}
    (hobject : result.isObject = true) {question answer : String}
    (hlocked : request.lockedAnswers[question]? = some answer) :
    answerOf (mergeLockedAnswers request result) question = some answer := by
  have hnonempty : request.lockedAnswers.isEmpty = false := by
    by_contra hempty
    rw [Bool.not_eq_false, Std.ExtTreeMap.isEmpty_iff] at hempty
    rw [hempty] at hlocked
    simp at hlocked
  rw [mergeLockedAnswers, if_neg (by simp [hnonempty]), if_pos hobject, answerOf_insert hobject,
    BTreeMap.get_enter, hlocked]
  rfl

/-! ## Steps -/

theorem issueWithId_eq_ok {registry registry' : ServerRequestRegistry}
    {id sessionId method : String} {params : Json} {questionIds : List String}
    {createdAtMs : UInt64} {issued : IssuedServerRequest}
    (h : registry.issueWithId id sessionId method params questionIds createdAtMs =
      .ok (registry', issued)) :
    (validateMethod method).isOk = true ∧ (validateId id).isOk = true ∧
      ∃ request : PendingServerRequest, request.id = id ∧ request.createdAtMs = createdAtMs ∧
        (validateImported request).isOk = true ∧
        registry' = { opened := registry.opened.insert request.id request
                      order := registry.order.filter (· ≠ request.id) ++ [request.id] } := by
  unfold issueWithId at h
  cases hmethod : validateMethod method with
  | error error => simp [hmethod, bind, Except.bind] at h
  | ok u =>
      cases hid : validateId id with
      | error error => simp [hmethod, hid, bind, Except.bind] at h
      | ok u =>
          simp only [hmethod, hid, bind, Except.bind] at h
          by_cases hparams : ¬ params.isObject = true ∧ ¬ params.isNull = true
          · rw [if_pos hparams] at h
            cases h
          · rw [if_neg hparams] at h
            refine ⟨rfl, rfl, { id, sessionId, method, params, createdAtMs, questionIds }, rfl, rfl,
              ?_, ?_⟩
            · have hcheck : validateImported { id, sessionId, method, params, createdAtMs
                                               questionIds } = .ok () := by
                simp only [validateImported, hmethod, hid, bind, Except.bind]
                exact if_neg hparams
              rw [hcheck]
              rfl
            · exact (congrArg Prod.fst (Except.ok.inj h)).symm

def Inv (world : RegistryWorld) : Prop :=
  ∃ requests, world.registry.Represents requests ∧ world.Books requests

theorem Inv.issueWithId (h : world.Inv) {id sessionId method : String} {params : Json}
    {questionIds : List String} {createdAtMs : UInt64}
    (hcareful : world.Careful
      (.issueWithId id sessionId method params questionIds createdAtMs)) :
    (world.next (.issueWithId id sessionId method params questionIds createdAtMs)).Inv := by
  obtain ⟨requests, hregistry, hbooks⟩ := h
  unfold RegistryWorld.next
  dsimp only
  split
  · exact ⟨requests, hregistry, hbooks⟩
  · rename_i registry' issued hissue
    obtain ⟨hmethod, hid, request, rfl, rfl, hvalid, rfl⟩ := issueWithId_eq_ok hissue
    have hlast := hcareful hmethod hid
    rw [hregistry.exportState_eq] at hlast
    exact ⟨_, hregistry.enter request, (hbooks.anyRegistry _).issue hvalid hlast⟩

theorem cancelledId_cancelNotification (request : PendingServerRequest) (reason : String) :
    cancelledId (cancelNotification request reason) = some request.id := by
  simp [cancelledId, cancelNotification, Json.get, Json.asStr]

theorem Inv.cancelSession (h : world.Inv) (sessionId : Option String) (reason : String) :
    (world.next (.cancelSession sessionId reason)).Inv := by
  obtain ⟨requests, hregistry, hbooks⟩ := h
  obtain ⟨hrest, hnotified⟩ := hregistry.cancelSession sessionId reason
  let gone := requests.filter (concerns sessionId)
  have hids : (world.registry.cancelSession sessionId reason).2.filterMap cancelledId =
      gone.map PendingServerRequest.id := by
    rw [hnotified, List.filterMap_map, ← List.filterMap_eq_map]
    apply List.filterMap_congr
    exact fun request _ ↦ cancelledId_cancelNotification request reason
  have hnodup : (gone.map PendingServerRequest.id).Nodup :=
    hregistry.nodup.sublist (List.filter_sublist.map _)
  have hkept : (requests.filter fun request ↦ !concerns sessionId request) =
      requests.filter (·.id ∉ gone.map PendingServerRequest.id) := by
    apply List.filter_congr
    intro request hmem
    rw [decide_not, Bool.not_inj_iff, Bool.eq_iff_iff, decide_eq_true_eq]
    exact (hregistry.mem_concerned hmem).symm
  have hclosed := (hbooks.anyRegistry (world.registry.cancelSession sessionId reason).1).closeAll
    hnodup fun id hid ↦ by
      obtain ⟨request, hmem, hrequest⟩ := List.mem_map.mp hid
      exact ⟨request, List.mem_of_mem_filter hmem, hrequest⟩
  have hnext : world.next (.cancelSession sessionId reason) =
      (gone.map PendingServerRequest.id).foldl close
        { world with registry := (world.registry.cancelSession sessionId reason).1 } := by
    rw [← hids]
    rfl
  rw [hnext]
  rw [← hkept] at hclosed
  refine ⟨_, ?_, hclosed⟩
  rw [registry_closeAll]
  exact hrest

theorem resolve_inv {registry : ServerRequestRegistry} {request : PendingServerRequest}
    (hregistry : registry.Represents (requests.filter (·.id ≠ request.id)))
    (hbooks : world.Books requests) (hmem : request ∈ requests)
    {resolved : ResolvedServerRequest} (hid : resolved.request.id = request.id)
    (hanswers : ∀ result, resolved.response = .result result → ∀ (question answer : String),
      request.lockedAnswers[question]? = some answer → answerOf result question = some answer) :
    (({ world with registry } : RegistryWorld).resolve resolved).Inv := by
  have hdelivered := (hbooks.anyRegistry registry).deliver
    fun result hresult question answer hlocked ↦
      hanswers result hresult question answer (hbooks.kept request hmem question answer hlocked)
  rw [RegistryWorld.resolve, hid]
  exact ⟨_, hregistry, hdelivered.close hmem⟩

theorem Inv.resolveResponse (h : world.Inv) (frame : Json) :
    (world.next (.resolveResponse frame)).Inv := by
  obtain ⟨requests, hregistry, hbooks⟩ := h
  unfold RegistryWorld.next
  dsimp only
  rcases resolveResponse_cases world.registry frame with hnone | ⟨id, request, hopen, hsome⟩
  · rw [hnone]
    exact ⟨requests, hregistry, hbooks⟩
  · rw [hsome]
    obtain ⟨hmem, rfl⟩ := (hregistry.lookup id request).mp hopen
    apply resolve_inv (hregistry.close request.id) hbooks hmem rfl
    intro result hresult question answer hlocked
    simp only [responseOf] at hresult
    split at hresult
    · cases hresult
    · rw [← ServerRequestResponse.result.inj hresult]
      apply answerOf_mergeLockedAnswers _ hlocked
      cases hobject : (frame.get "result").filter Json.isObject with
      | none => rfl
      | some value => exact (Option.filter_eq_some_iff.mp hobject).2

theorem Inv.lockAnswer (h : world.Inv) {requestId questionId answer : String}
    (hcareful : world.Careful (.lockAnswer requestId questionId answer)) :
    (world.next (.lockAnswer requestId questionId answer)).Inv := by
  obtain ⟨requests, hregistry, hbooks⟩ := h
  rcases lockAnswer_cases world.registry requestId questionId answer with
    ⟨result, hnone, hresult⟩ | ⟨request, locked, hopen, hquestion, rfl, hlocked | hresolved⟩
  · have hnext : world.next (.lockAnswer requestId questionId answer) = world := by
      unfold RegistryWorld.next
      dsimp only
      rw [hnone]
      cases result with
      | error error => rfl
      | ok outcome =>
          cases outcome with
          | none => rfl
          | some outcome => exact absurd rfl (hresult outcome)
    rw [hnext]
    exact ⟨requests, hregistry, hbooks⟩
  · obtain ⟨hmem, rfl⟩ := (hregistry.lookup requestId request).mp hopen
    have hfree := hcareful request hopen hquestion
    unfold RegistryWorld.next
    dsimp only
    rw [hlocked]
    refine ⟨_, hregistry.change hmem rfl, ?_⟩
    exact (hbooks.anyRegistry _).lock hmem hregistry.nodup hfree
  · obtain ⟨hmem, rfl⟩ := (hregistry.lookup requestId request).mp hopen
    have hfree := hcareful request hopen hquestion
    unfold RegistryWorld.next
    dsimp only
    rw [hresolved]
    let locked := { request with lockedAnswers := request.lockedAnswers.insert questionId answer }
    have hregistry' := hregistry.close request.id
    rw [← filter_change requests (show locked.id = request.id from rfl)] at hregistry'
    refine @resolve_inv _ _ (world.registry.close request.id) locked hregistry'
      (hbooks.lock hmem hregistry.nodup hfree)
      (List.mem_map.mpr ⟨request, hmem, if_pos rfl⟩) _ rfl ?_
    intro result hresult question answer' hlocked
    rw [← ServerRequestResponse.result.inj hresult]
    exact (@answerOf_insert (.object []) rfl locked.lockedAnswers question).trans hlocked

theorem importState_cases {imported : List PendingServerRequest}
    (hregistry : world.registry.Represents requests)
    (hcareful : world.Careful (.importState imported)) :
    (∃ registry, world.registry.importState imported = (registry, .ok ()) ∧
      registry.Represents (byCreation imported) ∧
      (∀ request ∈ byCreation imported,
        (validateImported request).isOk = true ∧ world.Current request)) ∨
    (∃ error, world.registry = {} ∧ world.registry.importState imported = ({}, .error error)) := by
  rcases hcareful with ⟨hrequests, hids⟩ | ⟨hempty, request, hfirst, hinvalid⟩
  · obtain ⟨registry, himport, hrepresents⟩ := represents_importState world.registry hids
      fun request hmem ↦ (hrequests request hmem).1
    refine .inl ⟨registry, himport, hrepresents, fun request hmem ↦ hrequests request ?_⟩
    exact (List.perm_insertionSort _ imported).mem_iff.mp hmem
  · right
    have hnil : requests = [] := by
      rw [hregistry.order] at hempty
      exact List.map_eq_nil_iff.mp hempty
    have hstart : world.registry = {} := (hnil ▸ hregistry).unique represents_nil
    obtain ⟨rest, hsorted⟩ := List.head?_eq_some_iff.mp hfirst
    cases hcheck : validateImported request with
    | ok u => rw [hcheck] at hinvalid; cases hinvalid
    | error error =>
        refine ⟨error, hstart, ?_⟩
        change importLoop {} (byCreation imported) = _
        rw [hsorted, importLoop, hcheck]

theorem Inv.importState (h : world.Inv) {imported : List PendingServerRequest}
    (hcareful : world.Careful (.importState imported)) :
    (world.next (.importState imported)).Inv := by
  obtain ⟨requests, hregistry, hbooks⟩ := h
  rcases importState_cases hregistry hcareful with
    ⟨registry, himport, hrepresents, hrequests⟩ | ⟨error, hstart, himport⟩
  · unfold RegistryWorld.next
    dsimp only
    rw [himport, hrepresents.exportState_eq]
    refine ⟨_, hrepresents, ?_⟩
    have hsorted : (byCreation imported).Pairwise fun a b ↦ a.createdAtMs ≤ b.createdAtMs :=
      pairwise_byCreation imported
    exact (hbooks.anyRegistry registry).imported hrepresents.nodup
      (fun request hmem ↦ (hrequests request hmem).1) hsorted
      fun request hmem ↦ (hrequests request hmem).2
  · have hnext : world.next (.importState imported) = world := by
      unfold RegistryWorld.next
      dsimp only
      rw [himport]
      change ({ world with registry := {}, locked := world.locked } : RegistryWorld) = world
      rw [← hstart]
    rw [hnext]
    exact ⟨requests, hregistry, hbooks⟩

theorem Inv.next (h : world.Inv) {input : RegistryInput} (hcareful : world.Careful input) :
    (world.next input).Inv := by
  cases input with
  | issueWithId id sessionId method params questionIds createdAtMs => exact h.issueWithId hcareful
  | lockAnswer requestId questionId answer => exact h.lockAnswer hcareful
  | resolveResponse frame => exact h.resolveResponse frame
  | cancelSession sessionId reason => exact h.cancelSession sessionId reason
  | importState imported => exact h.importState hcareful

theorem Inv.start : Inv {} := by
  refine ⟨[], represents_nil, ?_⟩
  constructor <;> simp

theorem Inv.sound (h : world.Inv) : world.Sound := by
  obtain ⟨requests, hregistry, hbooks⟩ := h
  constructor
  case ordered =>
    refine ⟨?_, hregistry.mem_order⟩
    rw [hregistry.order]
    exact hregistry.nodup
  case once => exact hbooks.once
  case kept =>
    intro id request hopen question answer hlocked
    obtain ⟨hmem, rfl⟩ := (hregistry.lookup id request).mp hopen
    exact hbooks.kept request hmem question answer hlocked
  case delivers => exact hbooks.delivers
  case roundTrip =>
    rw [hregistry.exportState_eq]
    obtain ⟨registry, himport, hrepresents⟩ :=
      represents_importState {} hregistry.nodup hbooks.valid
    have hsame : byCreation requests = requests := hbooks.sorted.insertionSort_eq
    rw [hsame] at hrepresents
    rw [himport, hrepresents.unique hregistry]

theorem Inv.failureKeeps (h : world.Inv) {input : RegistryInput}
    (hcareful : world.Careful input) : world.FailureKeeps input := by
  obtain ⟨requests, hregistry, -⟩ := h
  cases input with
  | importState imported =>
      intro error herror
      rcases importState_cases hregistry hcareful with ⟨registry, himport, -⟩ |
        ⟨error', hstart, himport⟩
      · rw [himport] at herror
        cases herror
      · rw [himport]
        exact hstart.symm
  | _ => trivial

end Steps

/-- In every careful run the registry is sound, and an import that fails changes nothing. -/
theorem registry_sound (inputs : List RegistryInput)
    (hcareful : Runs.Along next Careful {} inputs) :
    (Runs.run next {} inputs).Sound ∧ ∀ world input,
      Runs.Takes next {} inputs world input → world.FailureKeeps input := by
  have hstep : ∀ (world : RegistryWorld) (input : RegistryInput), world.Inv →
      world.Careful input → (world.next input).Inv := fun _ _ h hinput ↦ h.next hinput
  refine ⟨(Runs.invariant_along hstep Inv.start hcareful).sound, ?_⟩
  intro world input htakes
  apply (Runs.invariant_takes hstep Inv.start hcareful htakes).failureKeeps
  exact hcareful.takes htakes

/-! ## An answer that is replaced -/

section Demo

def demoId : String := "srq-clarify0001"

def demoIssue (id : String) (createdAtMs : UInt64) : RegistryInput :=
  .issueWithId id "session" "clarify" (.object []) ["q1", "q2"] createdAtMs

/-- A second lock replaces the answer that was locked first. -/
theorem registry_replaces_locked_answer :
    ¬ ∀ inputs : List RegistryInput,
      (Runs.run next {} inputs).Sound ∧ ∀ world input,
        Runs.Takes next {} inputs world input → world.FailureKeeps input := by
  intro h
  let inputs := [demoIssue demoId 20, .lockAnswer demoId "q1" "first",
    .lockAnswer demoId "q1" "second"]
  let world := Runs.run next {} inputs
  have hopen : (world.registry.opened[demoId]?).isSome = true := by decide +kernel
  obtain ⟨request, hrequest⟩ := Option.isSome_iff_exists.mp hopen
  have hkept := (h inputs).1.kept demoId request hrequest "q1" "first" (by decide +kernel)
  have hanswers : (world.registry.opened[demoId]?).bind (·.lockedAnswers["q1"]?) =
      some "second" := by decide +kernel
  rw [hrequest, Option.bind_some, hkept] at hanswers
  revert hanswers
  decide +kernel

theorem registry_sound_demo :
    let inputs : List RegistryInput := [demoIssue demoId 20, .lockAnswer demoId "q1" "yes",
      demoIssue "srq-other" 30, .importState
        [{ id := demoId, sessionId := "session", method := "clarify", params := .object []
           createdAtMs := 20, questionIds := ["q1", "q2"]
           lockedAnswers := (∅ : BTreeMap String String).insert "q1" "yes" }],
      .lockAnswer demoId "q2" "no", demoIssue "srq-other" 40, .cancelSession none "interrupted"]
    (Runs.run next {} inputs).Sound ∧ ∀ world input,
      Runs.Takes next {} inputs world input → world.FailureKeeps input :=
  registry_sound _ (by decide +kernel)

end Demo

end RegistryWorld

end Fabushi.Gateway
