import Fabushi.TelegramCore.Pins

/-!
# The order of a remote history

Remote messages arrive in pages and as live updates, in any order. The messages that are
stored do not depend on the order, but a chat takes the message that came last for its
last message, whatever its date and id.
-/

namespace Fabushi.TelegramCore

open Result Std

variable {Content Formatted : Type}

namespace TelegramState

def Accepts (state : TelegramState Content Formatted) (message : Message Content) : Prop :=
  (state.chats[message.chatId]?).isSome = true ∧ message.deliveryState = .sent

instance (state : TelegramState Content Formatted) (message : Message Content) :
    Decidable (state.Accepts message) :=
  inferInstanceAs (Decidable (_ ∧ _))

def upsertAll (state : TelegramState Content Formatted) (messages : List (Message Content)) :
    TelegramState Content Formatted :=
  Runs.run TelegramState.next state (messages.map .upsertRemoteMessage)

def store (state : TelegramState Content Formatted) (message : Message Content) :
    TelegramState Content Formatted :=
  state.apply (.remoteMessageUpserted message)

section Steps

variable (state : TelegramState Content Formatted)

theorem next_upsertRemoteMessage (message : Message Content) :
    state.next (.upsertRemoteMessage message) =
      if state.Accepts message then state.store message else state := by
  unfold TelegramState.next TelegramState.execute
  by_cases haccepts : state.Accepts message
  · obtain ⟨hchat, hsent⟩ := haccepts
    obtain ⟨chat, hchat⟩ := Option.isSome_iff_exists.mp hchat
    have hdecide : state.decide (.upsertRemoteMessage message) =
        .ok [.remoteMessageUpserted message] := by
      simp only [TelegramState.decide, requireChat, hchat, okOr, ensure, hsent, if_true]
      rfl
    rw [if_pos ⟨by rw [hchat]; rfl, hsent⟩, hdecide]
    rfl
  · rw [if_neg haccepts]
    cases hdecide : state.decide (.upsertRemoteMessage message) with
    | error e => rfl
    | ok events =>
        simp only [TelegramState.decide, bind_eq_ok, requireChat, okOr_eq_ok,
          ensure_eq_ok] at hdecide
        obtain ⟨chat, hchat, -, hsent, -⟩ := hdecide
        exact absurd ⟨by rw [hchat]; rfl, hsent⟩ haccepts

theorem get_store_chats (message : Message Content) (chatId : ChatId) :
    (state.store message).chats[chatId]? =
      if message.chatId = chatId then state.chats[message.chatId]?.map fun chat ↦
        { chat with lastMessageId := some message.id }
      else state.chats[chatId]? :=
  BTreeMap.get_update ..

theorem accepts_store (message other : Message Content) :
    (state.store message).Accepts other ↔ state.Accepts other := by
  unfold Accepts
  rw [get_store_chats]
  split
  · rename_i hchat
    rw [Option.isSome_map, hchat]
  · rfl

theorem upsertAll_eq (messages : List (Message Content)) :
    state.upsertAll messages = (messages.filter state.Accepts).foldl store state := by
  induction messages generalizing state with
  | nil => rfl
  | cons message messages ih =>
      have hstep : state.upsertAll (message :: messages) =
          (state.next (.upsertRemoteMessage message)).upsertAll messages := rfl
      rw [hstep, next_upsertRemoteMessage, List.filter_cons]
      by_cases haccepts : state.Accepts message
      · have hsame : (fun other ↦ Decidable.decide ((state.store message).Accepts other)) =
            fun other ↦ Decidable.decide (state.Accepts other) := by
          funext other
          exact decide_eq_decide.mpr (accepts_store state message other)
        rw [if_pos haccepts, ih, hsame, if_pos (decide_eq_true haccepts), List.foldl_cons]
      · rw [if_neg haccepts, ih, if_neg (by simpa using haccepts)]

theorem store_comm {x y : Message Content} (hchats : x.chatId ≠ y.chatId) :
    (state.store x).store y = (state.store y).store x := by
  have hchats' : ((state.store x).store y).chats = ((state.store y).store x).chats := by
    apply ExtTreeMap.ext_getElem?
    intro chatId
    simp only [get_store_chats]
    by_cases hx : x.chatId = chatId
    · subst hx
      simp [Ne.symm hchats]
    · by_cases hy : y.chatId = chatId
      · subst hy
        simp [hchats]
      · simp [hx, hy]
  have hmessages : ((state.store x).store y).messages = ((state.store y).store x).messages := by
    have hkeys : x.key ≠ y.key := fun hkey ↦ hchats (congrArg MessageKey.chatId hkey)
    apply ExtTreeMap.ext_getElem?
    intro k
    simp only [store, TelegramState.apply, updateChat, BTreeMap.get_insert]
    by_cases hx : x.key = k
    · subst hx
      simp [Ne.symm hkeys]
    · simp [hx]
  exact congrArg₂ (fun chats messages ↦ { state with chats, messages }) hchats' hmessages

theorem lastMessageId_store {message : Message Content} (haccepts : state.Accepts message) :
    (state.store message).chats[message.chatId]?.map Chat.lastMessageId =
      some (some message.id) := by
  obtain ⟨chat, hchat⟩ := Option.isSome_iff_exists.mp haccepts.1
  rw [get_store_chats, if_pos rfl, hchat]
  rfl

theorem accepts_foldl_store (messages : List (Message Content)) (other : Message Content) :
    (messages.foldl store state).Accepts other ↔ state.Accepts other := by
  induction messages generalizing state with
  | nil => rfl
  | cons message messages ih => exact (ih (state.store message)).trans (accepts_store ..)

end Steps

/-! ## All orders -/

def OnePerChat (state : TelegramState Content Formatted) (messages : List (Message Content)) :
    Prop :=
  ∀ x ∈ messages, ∀ y ∈ messages, state.Accepts x → state.Accepts y →
    x.chatId = y.chatId → x.key = y.key

section Orders

variable {state : TelegramState Content Formatted} {messages order : List (Message Content)}

theorem upsertAll_perm (hone : state.OnePerChat messages)
    (hkeys : (messages.map Message.key).Nodup) (horder : order.Perm messages) :
    state.upsertAll order = state.upsertAll messages := by
  rw [upsertAll_eq, upsertAll_eq]
  have horder := (horder.filter fun message ↦ state.Accepts message).symm
  refine (horder.foldl_eq' ?_ state).symm
  intro x hx y hy s
  rw [List.mem_filter, decide_eq_true_iff] at hx hy
  by_cases hchats : x.chatId = y.chatId
  · have hkey := hone x hx.1 y hy.1 hx.2 hy.2 hchats
    rw [List.inj_on_of_nodup_map hkeys hx.1 hy.1 hkey]
  · exact store_comm s hchats

theorem exists_perm_append_pair {x y : Message Content} (hx : x ∈ messages) (hy : y ∈ messages)
    (hne : x ≠ y) : ∃ rest, (rest ++ [x, y]).Perm messages := by
  obtain ⟨before, behind, rfl⟩ := List.append_of_mem hx
  have hrest : y ∈ before ++ behind := by
    rcases List.mem_append.mp hy with hbefore | hbehind
    · exact List.mem_append_left _ hbefore
    · exact List.mem_append_right _ ((List.mem_cons.mp hbehind).resolve_left (Ne.symm hne))
  obtain ⟨first, later, hsplit⟩ := List.append_of_mem hrest
  refine ⟨first ++ later, ?_⟩
  calc (first ++ later ++ [x, y]).Perm ([x, y] ++ (first ++ later)) := List.perm_append_comm
    _ = x :: y :: (first ++ later) := rfl
    List.Perm _ (x :: (first ++ y :: later)) := List.Perm.cons x List.perm_middle.symm
    _ = x :: (before ++ behind) := by rw [hsplit]
    List.Perm _ (before ++ x :: behind) := List.perm_middle.symm

theorem lastMessageId_upsertAll (rest : List (Message Content)) {x y : Message Content}
    (hx : state.Accepts x) (hy : state.Accepts y) :
    (state.upsertAll (rest ++ [x, y])).chats[y.chatId]?.map Chat.lastMessageId =
      some (some y.id) := by
  have hlast : (rest ++ [x, y]).filter (fun message ↦ state.Accepts message) =
      rest.filter (fun message ↦ state.Accepts message) ++ [x, y] := by
    simp [List.filter_append, hx, hy]
  rw [upsertAll_eq, hlast, List.foldl_append]
  apply lastMessageId_store
  rw [accepts_store, accepts_foldl_store]
  exact hy

/-- Every order of the upserts leads to the same state exactly when no known chat gets two
of the messages that are sent. -/
theorem upsertAll_orders_iff (state : TelegramState Content Formatted)
    (messages : List (Message Content)) (hkeys : (messages.map Message.key).Nodup) :
    (∀ order : List (Message Content), order.Perm messages →
      state.upsertAll order = state.upsertAll messages) ↔ state.OnePerChat messages := by
  constructor
  · intro hsame x hx y hy hax hay hchats
    by_contra hne
    have hxy : x ≠ y := fun h ↦ hne (congrArg Message.key h)
    obtain ⟨rest, hrest⟩ := exists_perm_append_pair hx hy hxy
    have hswap : (rest ++ [y, x]).Perm messages :=
      ((List.Perm.swap x y []).append_left rest).trans hrest
    have hlasts := (hsame _ hrest).trans (hsame _ hswap).symm
    have hy' := lastMessageId_upsertAll rest hax hay
    have hx' := lastMessageId_upsertAll rest hay hax
    rw [hlasts, ← hchats, hx'] at hy'
    apply hne
    rw [Message.key, Message.key, hchats, Option.some.inj (Option.some.inj hy')]
  · intro hone order horder
    exact upsertAll_perm hone hkeys horder

end Orders

/-! ## A page of history after a live update -/

section Demo

def demoSent (chatId : ChatId) (messageId : MessageId) (dateUnixMs : Int64) : Message String :=
  { id := messageId, chatId, senderUserId := ⟨8⟩, dateUnixMs, editDateUnixMs := none
    content := "remote", replyToMessageId := none, messageThreadId := none
    deliveryState := .sent, reactions := [], isOutgoing := false, isPinned := false
    isDeleted := false }

/-- An older message that comes later becomes the last message of its chat. -/
theorem history_depends_on_order :
    ¬ ∀ (state : TelegramState String String) (messages : List (Message String)),
      (messages.map Message.id).Nodup → ∀ order : List (Message String), order.Perm messages →
        state.upsertAll order = state.upsertAll messages := by
  intro h
  have hsame := h demoStart [demoSent ⟨1⟩ ⟨10⟩ 100, demoSent ⟨1⟩ ⟨20⟩ 200] (by decide)
    [demoSent ⟨1⟩ ⟨20⟩ 200, demoSent ⟨1⟩ ⟨10⟩ 100] (List.Perm.swap ..)
  have hlast := congrArg (fun state : TelegramState String String ↦
    state.chats[(⟨1⟩ : ChatId)]?.map Chat.lastMessageId) hsame
  revert hlast
  decide +kernel

theorem upsertAll_orders_iff_demo :
    demoStart.upsertAll [demoSent ⟨2⟩ ⟨20⟩ 200, demoSent ⟨1⟩ ⟨10⟩ 100] =
      demoStart.upsertAll [demoSent ⟨1⟩ ⟨10⟩ 100, demoSent ⟨2⟩ ⟨20⟩ 200] := by
  refine (upsertAll_orders_iff demoStart _ (by decide)).mpr ?_ _ (List.Perm.swap ..)
  intro x hx y hy _ _ hchats
  simp only [List.mem_cons, List.not_mem_nil, or_false] at hx hy
  rcases hx with rfl | rfl <;> rcases hy with rfl | rfl <;> simp_all [demoSent]

end Demo

end TelegramState

end Fabushi.TelegramCore
