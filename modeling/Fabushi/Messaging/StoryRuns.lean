import Fabushi.Messaging.RequestFrames
import Fabushi.Messaging.RetentionRuns

/-!
# Who writes a story

A story is replaced as a whole by whoever publishes one under its identifier, and
deleted by its owner. Viewing it and reacting to it touch the mark of the viewer.
Publishing checks that the new story belongs to its publisher, and does not look at
the story it replaces.
-/

namespace Fabushi.Messaging

open Effects Result Std

variable {S B : Type}

def EventTag.isStory : EventTag → Bool
  | .storyChanged | .storyDeleted => true
  | _ => false

theorem EventTag.isStory_of_isPassing {tag : EventTag} (h : tag.isPassing = true) :
    tag.isStory = false := by
  cases tag <;> first | rfl | cases h

def Command.storyViewer : Command → Option ActorId
  | .viewStory viewer .. | .reactStory viewer .. => some viewer
  | _ => none

def ClientCommand.published : ClientCommand → Option Story
  | .publishStory story => some story
  | _ => none

namespace MessagingState

variable {state : MessagingState} {actorId : ActorId} {id : StoryId}

theorem stories_apply (state : MessagingState) (event : Event) (h : event.tag.isStory = false) :
    (state.apply event).stories = state.stories := by
  cases event
  case storyChanged | storyDeleted => cases h
  all_goals rfl

/-! ## Steps -/

def StoriesFiled (state : MessagingState) : Prop :=
  ∀ (id : StoryId) (story : Story), state.stories[id]? = some story → story.id = id

/-- What an accepted command does to the story under `id`. -/
inductive NextStory (command : Command) (id : StoryId) : Option Story → Option Story → Prop where
  | kept {old : Option Story} : NextStory command id old old
  | published {old : Option Story} {story : Story}
      (hcommand : command = .publishStory story.ownerId story) (hid : story.id = id) :
      NextStory command id old (some story)
  | deleted {story : Story} (hcommand : command = .deleteStory story.ownerId id) :
      NextStory command id (some story) none
  | marked {story : Story} {viewer : ActorId} (hviewer : command.storyViewer = some viewer)
      {views : BTreeMap ActorId StoryView}
      (hothers : ∀ a : ActorId, a ≠ viewer → views[a]? = story.views[a]?) :
      NextStory command id (some story) (some { story with views })

theorem nextStory_marked (hfiled : state.StoriesFiled) {storyId : StoryId} {story : Story}
    (hstory : state.stories[storyId]? = some story) {command : Command} {viewer : ActorId}
    (hviewer : command.storyViewer = some viewer) (view : StoryView) (id : StoryId) :
    NextStory command id state.stories[id]? (state.apply (.storyChanged
      { story with views := story.views.insert viewer view })).stories[id]? := by
  change NextStory _ _ _ (state.stories.insert story.id _)[id]?
  rw [BTreeMap.get_insert]
  split
  · rename_i hid
    obtain rfl : storyId = id := (hfiled storyId story hstory).symm.trans hid
    rw [hstory]
    refine .marked hviewer fun a ha ↦ ?_
    exact BTreeMap.get_insert_ne story.views view (Ne.symm ha)
  · exact .kept

theorem nextStory_publish {story : Story} {events : List Event}
    (hdecide : state.decide (.publishStory actorId story) = .ok events) (id : StoryId) :
    NextStory (.publishStory actorId story) id state.stories[id]?
      (state.applyAll events).stories[id]? := by
  obtain ⟨_, -, h⟩ := bind_eq_ok.mp hdecide
  obtain ⟨_, hvalid, h⟩ := bind_eq_ok.mp h
  obtain rfl := Except.ok.inj h
  obtain rfl : story.ownerId = actorId := by
    by_contra hother
    exact ensure_eq_ok.mp hvalid (.inl hother)
  change NextStory _ _ _ (state.stories.insert story.id story)[id]?
  rw [BTreeMap.get_insert]
  split
  · rename_i hid
    exact .published rfl hid
  · exact .kept

theorem nextStory_delete {storyId : StoryId} {events : List Event}
    (hdecide : state.decide (.deleteStory actorId storyId) = .ok events) (id : StoryId) :
    NextStory (.deleteStory actorId storyId) id state.stories[id]?
      (state.applyAll events).stories[id]? := by
  obtain ⟨story, hstory, h⟩ := bind_eq_ok.mp hdecide
  obtain ⟨_, howner, h⟩ := bind_eq_ok.mp h
  obtain rfl := Except.ok.inj h
  obtain rfl := ensure_eq_ok.mp howner
  change NextStory _ _ _ (state.stories.erase storyId)[id]?
  rw [BTreeMap.get_erase]
  split
  · rename_i hid
    obtain rfl := hid
    rw [okOr_eq_ok.mp hstory]
    exact .deleted rfl
  · exact .kept

theorem stories_next_of_tags {command : Command}
    (htags : command.eventTags.any EventTag.isStory = false) (state : MessagingState) :
    (state.next command).stories = state.stories := by
  refine frame_next (p := MessagingState.stories) stories_apply (fun tag htag ↦ ?_) state
  simpa using List.any_eq_false.mp htags tag htag

theorem nextStory (hfiled : state.StoriesFiled) (command : Command) (id : StoryId) :
    NextStory command id state.stories[id]? (state.next command).stories[id]? := by
  by_cases htags : command.eventTags.any EventTag.isStory = false
  · rw [stories_next_of_tags htags state]
    exact .kept
  · unfold next execute
    cases hdecide : state.decide command with
    | error e => exact .kept
    | ok events =>
        cases command
        case publishStory actorId story => exact nextStory_publish hdecide id
        case deleteStory actorId storyId => exact nextStory_delete hdecide id
        case viewStory viewer storyId viewedAtMs =>
          obtain ⟨_, -, h⟩ := bind_eq_ok.mp hdecide
          obtain ⟨story, hstory, h⟩ := bind_eq_ok.mp h
          obtain ⟨_, -, h⟩ := bind_eq_ok.mp h
          obtain ⟨viewed, hviewed, h⟩ := bind_eq_ok.mp h
          obtain rfl := Except.ok.inj h
          obtain ⟨_, -, hviewed⟩ := bind_eq_ok.mp (liftError_eq_ok.mp hviewed)
          obtain rfl := Except.ok.inj hviewed
          exact nextStory_marked hfiled (okOr_eq_ok.mp hstory) rfl _ id
        case reactStory viewer storyId reaction =>
          obtain ⟨story, hstory, h⟩ := bind_eq_ok.mp hdecide
          obtain ⟨_, -, h⟩ := bind_eq_ok.mp h
          obtain ⟨reacted, hreacted, h⟩ := bind_eq_ok.mp h
          obtain rfl := Except.ok.inj h
          obtain ⟨view, -, hreacted⟩ := bind_eq_ok.mp (liftError_eq_ok.mp hreacted)
          obtain rfl := Except.ok.inj hreacted
          exact nextStory_marked hfiled (okOr_eq_ok.mp hstory) rfl _ id
        all_goals exact absurd rfl htags

theorem storiesFiled_empty : StoriesFiled {} := by
  intro id story h
  simp at h

theorem StoriesFiled.next (hfiled : state.StoriesFiled) (command : Command) :
    (state.next command).StoriesFiled := by
  intro id story hstory
  have hnext := nextStory hfiled command id
  rw [hstory] at hnext
  generalize hold : state.stories[id]? = old at hnext
  cases hnext with
  | kept => exact hfiled id story hold
  | published _ hid => exact hid
  | @marked old => exact hfiled id old hold

/-! ## Requests -/

variable {sha256 : List UInt8 → List UInt8} {serverTimeMs : Int64} {command : ClientCommand}
  {c : Command}

theorem projected_storyViewer {viewer : ActorId}
    (hprojected : state.projectCommand sha256 actorId serverTimeMs command = [c])
    (hviewer : c.storyViewer = some viewer) : viewer = actorId := by
  cases command
  case viewStory | reactStory =>
    obtain rfl := (List.singleton_inj.mp hprojected)
    exact (Option.some.inj hviewer).symm
  case updateConversation =>
    simp only [projectCommand] at hprojected
    split at hprojected <;> obtain rfl := List.singleton_inj.mp hprojected <;> cases hviewer
  case sendMessage | markRead =>
    obtain ⟨rfl, -⟩ := List.cons.inj hprojected
    cases hviewer
  all_goals
    first
    | cases hprojected; done
    | (obtain rfl := List.singleton_inj.mp hprojected; cases hviewer)

theorem projected_publishStory {owner : ActorId} {story : Story}
    (hprojected : state.projectCommand sha256 actorId serverTimeMs command =
      [.publishStory owner story]) : owner = actorId ∧ command = .publishStory story := by
  cases command
  case publishStory =>
    cases hprojected
    exact ⟨rfl, rfl⟩
  case updateConversation =>
    simp only [projectCommand] at hprojected
    split at hprojected <;> cases List.singleton_inj.mp hprojected
  case sendMessage | markRead => cases (List.cons.inj hprojected).1
  all_goals cases hprojected

theorem projected_deleteStory {owner : ActorId} {id : StoryId}
    (hprojected : state.projectCommand sha256 actorId serverTimeMs command =
      [.deleteStory owner id]) : owner = actorId := by
  cases command
  case deleteStory =>
    cases hprojected
    rfl
  case updateConversation =>
    simp only [projectCommand] at hprojected
    split at hprojected <;> cases List.singleton_inj.mp hprojected
  case sendMessage | markRead => cases (List.cons.inj hprojected).1
  all_goals cases hprojected

end MessagingState

/-! ## Runs of the service -/

namespace MessagingService

open MessagingState

/-- What an input may do to the story under `id`: its owner may do anything to it,
another actor may change that actor's own mark. -/
structure StoryGuarded (input : ServiceInput) (old new : Option Story) : Prop where
  changed : ∀ story, old = some story → input.actorId = some story.ownerId ∨
    ∃ views : BTreeMap ActorId StoryView, new = some { story with views } ∧
      ∀ a : ActorId, input.actorId ≠ some a → views[a]? = story.views[a]?
  created : ∀ story, old = none → new = some story → input.actorId = some story.ownerId

def PublishesOwn (s : MessagingService S B) : ServiceInput → Prop
  | .settle .. => True
  | .handle request _ => request.protocolVersion = protocolVersion →
      ∀ story ∈ request.command.published,
        (s.engine.decidePublishStory request.context.actorId story).isOk = true →
          ∀ existing ∈ s.engine.stories[story.id]?, existing.ownerId = request.context.actorId

instance (s : MessagingService S B) (input : ServiceInput) : Decidable (s.PublishesOwn input) :=
  match input with
  | .settle .. => inferInstanceAs (Decidable True)
  | .handle request _ => inferInstanceAs (Decidable (_ → ∀ story ∈ request.command.published, _))

theorem storyGuarded_refl (input : ServiceInput) (old : Option Story) :
    StoryGuarded input old old := by
  constructor
  · rintro story rfl
    exact .inr ⟨story.views, rfl, fun _ _ ↦ rfl⟩
  · rintro story rfl hnew
    cases hnew

variable [MessagingStateStore S] [BlobStore B] {env : ServiceEnv} {store : S}
  {blobStore : Option B} {inputs : List ServiceInput} {s : MessagingService S B}
  {input : ServiceInput}

theorem storiesFiled_next (hkeyed : s.engine.Keyed) (hfiled : s.engine.StoriesFiled)
    (input : ServiceInput) : (next env s input).engine.StoriesFiled := by
  have henacts := enacts_next env hkeyed input
  generalize (next env s input).engine = after at henacts ⊢
  cases henacts with
  | passed messages commands hpassing =>
      unfold StoriesFiled
      rw [frame_passing (p := MessagingState.stories) stories_apply @EventTag.isStory_of_isPassing
        hpassing]
      exact hfiled
  | single _ messages _ _ _ _ =>
      apply StoriesFiled.next
      exact hfiled

theorem storyGuarded_next (hkeyed : s.engine.Keyed) (hfiled : s.engine.StoriesFiled)
    (hown : s.PublishesOwn input) (id : StoryId) :
    StoryGuarded input s.engine.stories[id]? (next env s input).engine.stories[id]? := by
  have henacts := enacts_next env hkeyed input
  generalize (next env s input).engine = after at henacts ⊢
  cases henacts with
  | passed messages commands hpassing =>
      rw [frame_passing (p := MessagingState.stories) stories_apply @EventTag.isStory_of_isPassing
        hpassing]
      exact storyGuarded_refl _ _
  | @single request serverTimeMs hversion messages _ _ c events hprojected hdecide =>
      have hsame : MessagingState.StoriesFiled { s.engine with messages } := hfiled
      have hnext := nextStory hsame c id
      change NextStory c id s.engine.stories[id]? _ at hnext
      generalize hold : s.engine.stories[id]? = old at hnext ⊢
      generalize (MessagingState.next _ c).stories[id]? = new at hnext ⊢
      cases hnext with
      | kept => exact storyGuarded_refl _ _
      | @published _ story hcommand hid =>
          subst hcommand
          obtain ⟨howner, hrequest⟩ := projected_publishStory hprojected
          have hhandled : (ServiceInput.handle request serverTimeMs).actorId =
              some story.ownerId := congrArg some howner.symm
          refine ⟨fun existing hexisting ↦ ?_, fun created _ hcreated ↦ ?_⟩
          · left
            have haccepted : (s.engine.decidePublishStory request.context.actorId story).isOk =
                true := by
              rw [← howner, show s.engine.decidePublishStory story.ownerId story = .ok events
                from hdecide]
              rfl
            have hpublished : story ∈ request.command.published := by rw [hrequest]; rfl
            have hfound : existing ∈ s.engine.stories[story.id]? := by
              rw [hid, hold, hexisting]
              rfl
            rw [hown hversion story hpublished haccepted existing hfound]
            rfl
          · obtain rfl := Option.some.inj hcreated
            exact hhandled
      | deleted hcommand =>
          subst hcommand
          refine ⟨fun existing hexisting ↦ .inl ?_, fun created hnone _ ↦ ?_⟩
          · obtain rfl := Option.some.inj hexisting
            exact congrArg some (projected_deleteStory hprojected).symm
          · cases hnone
      | marked hviewer hothers =>
          refine ⟨fun existing hexisting ↦ .inr ?_, fun created hnone _ ↦ ?_⟩
          · obtain rfl := Option.some.inj hexisting
            refine ⟨_, rfl, fun a ha ↦ hothers a fun heq ↦ ha ?_⟩
            rw [heq, projected_storyViewer hprojected hviewer]
            rfl
          · cases hnone

theorem storiesFiled_run (inputs : List ServiceInput) :
    (Runs.run (next env) (empty store blobStore) inputs).engine.StoriesFiled := by
  have hboth : ∀ s : MessagingService S B, s.engine.Keyed ∧ s.engine.StoriesFiled →
      (Runs.run (next env) s inputs).engine.Keyed ∧
        (Runs.run (next env) s inputs).engine.StoriesFiled :=
    fun s hs ↦ Runs.invariant (I := fun s : MessagingService S B ↦
      s.engine.Keyed ∧ s.engine.StoriesFiled)
      (fun _ input h ↦ ⟨keyed_next env h.1 input, storiesFiled_next h.1 h.2 input⟩) hs inputs
  exact (hboth _ ⟨keyed_empty, storiesFiled_empty⟩).2

/-- In a run in which nobody publishes over the story of another, only the owner of a
story changes it, and everybody else at most their own mark on it. -/
theorem stories_guarded
    (hrun : Runs.Along (next env) PublishesOwn (empty store blobStore) inputs)
    (ht : Takes env store blobStore inputs s input) (id : StoryId) :
    StoryGuarded input s.engine.stories[id]? (next env s input).engine.stories[id]? := by
  have hown := hrun.takes ht
  have hkeyed := ht.keyed
  obtain ⟨xs, ys, rfl, rfl⟩ := ht
  exact storyGuarded_next hkeyed (storiesFiled_run xs) hown id

end MessagingService

/-! ## A story on a profile -/

namespace Chat

def sunrise (owner : ActorId) : Story :=
  { id := ⟨"story"⟩, ownerId := owner, media := { id := "photo" }, caption := { text := "sunrise" }
    privacy := { kind := .everyone }, createdAtMs := 1, expiresAtMs := 100, editedAtMs := none
    pinnedToProfile := false, protectedContent := false, allowReplies := true }

def post (actorId : ActorId) : ServiceInput :=
  request 1 actorId (.publishStory (sunrise actorId))

def watched : List ServiceInput :=
  [profile host, profile guest, post host, request 2 guest (.viewStory ⟨"story"⟩)]

end Chat

namespace MessagingService

open Chat in
theorem stories_guarded_watched :
    StoryGuarded (request 2 guest (.viewStory ⟨"story"⟩))
      (reached (watched.take 3)).engine.stories[(⟨"story"⟩ : StoryId)]?
      (reached watched).engine.stories[(⟨"story"⟩ : StoryId)]? :=
  have hown : Runs.Along (next world) PublishesOwn
      (empty ({} : MemoryStateStore) (none : Option Empty)) watched := by decide +kernel
  stories_guarded hown ⟨watched.take 3, [], rfl, rfl⟩ ⟨"story"⟩

open Chat in
/-- The guest publishes a story under the identifier of the host's. -/
theorem story_overwritten :
    ¬ ∀ (inputs : List ServiceInput) (s : MessagingService MemoryStateStore Empty)
      (input : ServiceInput), Takes world {} none inputs s input → ∀ id : StoryId,
      StoryGuarded input s.engine.stories[id]? (next world s input).engine.stories[id]? := by
  intro hclaim
  have hguarded := hclaim (watched ++ [post guest]) (reached watched) (post guest)
    ⟨watched, [], rfl, rfl⟩ ⟨"story"⟩
  have hbefore : (reached watched).engine.stories[(⟨"story"⟩ : StoryId)]?.any (fun story ↦
      story.ownerId = host) := by decide +kernel
  have hafter : (next world (reached watched) (post guest)).engine.stories[
      (⟨"story"⟩ : StoryId)]?.all (fun story ↦ story.ownerId = guest) := by decide +kernel
  obtain ⟨old, hold, howner⟩ := (Option.any_eq_true _ _).mp hbefore
  have howner := of_decide_eq_true howner
  rcases hguarded.changed old hold with hactor | ⟨views, hnew, -⟩
  · rw [howner] at hactor
    exact absurd hactor (by decide)
  · rw [hnew, Option.all_some] at hafter
    have hguest : old.ownerId = guest := of_decide_eq_true hafter
    exact absurd (howner.symm.trans hguest) (by decide)

end MessagingService

end Fabushi.Messaging
