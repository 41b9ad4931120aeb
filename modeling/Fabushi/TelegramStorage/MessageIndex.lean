import Fabushi.TelegramStorage.Store

/-!
# The message index

The tables `message_index` and `message_search_token` of `sqlite.rs`: an encrypted row for
each indexed message and keyed digests of the tokens of its text. They change by their own
calls only; a committed transition does not touch them. A search counts the digests of the
query that a row has. Of the contents, only the texts that are searched are modelled.
-/

namespace Fabushi.TelegramStorage

open Std TelegramCore

inductive MessageContent where
  | text (text : String)
  | photo (caption : String)
  | video (caption : String)
  | animation (caption : String)
  | audio (caption : String) (title performer : Option String)
  | voiceNote (caption : String)
  | videoNote
  | document (caption : String)
  | sticker (emoji : String)
  | poll (question : String) (options : List String) (quizExplanation : Option String)
  | contact (phoneNumber firstName lastName : String)
  | location
  | venue (title address : String)
  | dice (emoji : String)
  | invoice (title description currency : String)
  | story
  | service (action : String)
  | unsupported (constructor : String)
  deriving DecidableEq

abbrev IndexedMessage := Message MessageContent

def textMessage (id : Int64) (text : String) : IndexedMessage where
  id := ⟨id⟩
  chatId := ⟨1⟩
  senderUserId := ⟨1⟩
  dateUnixMs := 0
  editDateUnixMs := none
  content := .text text
  replyToMessageId := none
  messageThreadId := none
  deliveryState := .sent
  reactions := []
  isOutgoing := false
  isPinned := false
  isDeleted := false

def formattedPart (text : String) : List String :=
  if text = "" then [] else [text]

def messageSearchText (message : IndexedMessage) : String :=
  " ".intercalate <| match message.content with
    | .text text => formattedPart text
    | .photo caption | .video caption | .animation caption | .voiceNote caption
    | .document caption => formattedPart caption
    | .audio caption title performer =>
        formattedPart caption ++ title.toList ++ performer.toList
    | .videoNote | .location | .story => []
    | .sticker emoji | .dice emoji => [emoji]
    | .poll question options quizExplanation =>
        formattedPart question ++ options ++ (quizExplanation.map formattedPart).getD []
    | .contact phoneNumber firstName lastName => [phoneNumber, firstName, lastName]
    | .venue title address => [title, address]
    | .invoice title description currency => [title, description, currency]
    | .service action => [action]
    | .unsupported constructor => [constructor]

/-! ## Tokens -/

abbrev Token := List Char

/-- The Unicode tables behind `char::is_alphanumeric` and `char::to_lowercase`. -/
structure Unicode where
  isAlphanumeric : Char → Bool
  toLowercase : Char → List Char

structure Scanner where
  tokens : List Token := []
  word : List Char := []
  cjkRun : List Char := []

def Scanner.flushWord (s : Scanner) : Scanner :=
  if s.word = [] then s else { s with tokens := s.tokens ++ [s.word.take 128], word := [] }

def Scanner.flushCjk (s : Scanner) : Scanner :=
  { s with
    tokens := s.tokens ++ s.cjkRun.map (fun c ↦ [c]) ++
      (s.cjkRun.zip s.cjkRun.tail).map fun pair ↦ [pair.1, pair.2]
    cjkRun := [] }

def isCjk (c : Char) : Bool :=
  (0x3400 ≤ c.toNat ∧ c.toNat ≤ 0x4dbf) ∨ (0x4e00 ≤ c.toNat ∧ c.toNat ≤ 0x9fff) ∨
    (0xf900 ≤ c.toNat ∧ c.toNat ≤ 0xfaff) ∨ (0x20000 ≤ c.toNat ∧ c.toNat ≤ 0x2fa1f)

variable (unicode : Unicode)

def Scanner.push (s : Scanner) (c : Char) : Scanner :=
  if isCjk c then { s.flushWord with cjkRun := s.cjkRun ++ [c] }
  else if unicode.isAlphanumeric c then
    { s.flushCjk with word := s.word ++ unicode.toLowercase c }
  else s.flushWord.flushCjk

def tokensOf (input : List Char) : List Token :=
  (input.foldl (Scanner.push unicode) {}).flushWord.flushCjk.tokens.dedup.insertionSort (· ≤ ·)

def searchTokens (input : String) (maximum : ℕ) : List Token :=
  (tokensOf unicode input.toList).take maximum

/-! ## The tables -/

structure IndexCipher (Nonce Payload Digest : Type) where
  encrypt : Nonce → MessageKey → IndexedMessage → Payload
  decrypt : MessageKey → Payload → Except StorageError IndexedMessage
  blindIndexToken : Token → Digest

structure IndexCipher.Sound {Nonce Payload Digest : Type}
    (cipher : IndexCipher Nonce Payload Digest) : Prop where
  decrypt : ∀ nonce key message,
    cipher.decrypt key (cipher.encrypt nonce key message) = .ok message
  injective : Function.Injective cipher.blindIndexToken

structure IndexRow (Payload : Type) where
  dateUnixMs : Int64
  payload : Payload

structure MessageIndex (Payload Digest : Type) where
  messageIndex : BTreeMap MessageKey (IndexRow Payload) := ∅
  messageSearchToken : List (Digest × MessageKey) := []

structure RowOrder (Row : Type) where
  scan : List Row → List Row
  perm : ∀ rows, (scan rows).Perm rows

inductive IndexCall (Nonce : Type) where
  | upsert (nonce : Nonce) (message : IndexedMessage)
  | remove (key : MessageKey)

def newer (a b : Int64 × MessageId) : Prop :=
  b.1.toInt < a.1.toInt ∨ b.1.toInt = a.1.toInt ∧ b.2.value.toInt ≤ a.2.value.toInt

instance : DecidableRel newer := fun _ _ ↦ inferInstanceAs (Decidable (_ ∨ _))

namespace MessageIndex

variable {Nonce Payload Digest : Type} [DecidableEq Digest]
  (cipher : IndexCipher Nonce Payload Digest)

def removeMessageIndex (index : MessageIndex Payload Digest) (key : MessageKey) :
    MessageIndex Payload Digest where
  messageIndex := index.messageIndex.erase key
  messageSearchToken := index.messageSearchToken.filter fun row ↦ row.2 ≠ key

def insertToken (key : MessageKey) (rows : List (Digest × MessageKey)) (token : Token) :
    List (Digest × MessageKey) :=
  if (cipher.blindIndexToken token, key) ∈ rows then rows
  else rows ++ [(cipher.blindIndexToken token, key)]

def upsertMessageIndex (index : MessageIndex Payload Digest) (nonce : Nonce)
    (message : IndexedMessage) : MessageIndex Payload Digest :=
  if message.isDeleted then index.removeMessageIndex message.key
  else
    { messageIndex := index.messageIndex.insert message.key
        { dateUnixMs := message.dateUnixMs
          payload := cipher.encrypt nonce message.key message }
      messageSearchToken :=
        (searchTokens unicode (messageSearchText message) 512).foldl
          (insertToken cipher message.key)
          (index.messageSearchToken.filter fun row ↦ row.2 ≠ message.key) }

def step (index : MessageIndex Payload Digest) : IndexCall Nonce → MessageIndex Payload Digest
  | .upsert nonce message => index.upsertMessageIndex unicode cipher nonce message
  | .remove key => index.removeMessageIndex key

def hits (index : MessageIndex Payload Digest) (digests : List Digest) (key : MessageKey) : ℕ :=
  ((index.messageSearchToken.filter fun row ↦ row.2 = key ∧ row.1 ∈ digests).map
    Prod.fst).dedup.length

variable (order : RowOrder (MessageKey × IndexRow Payload))

def matching (index : MessageIndex Payload Digest) (tokens : List Token)
    (chatId : Option ChatId) : List (MessageKey × IndexRow Payload) :=
  (order.scan index.messageIndex.toList).filter fun row ↦
    (∀ chat ∈ chatId, row.1.chatId = chat) ∧
      index.hits (tokens.map cipher.blindIndexToken) row.1 = tokens.length

def newestFirst (rows : List (MessageKey × IndexRow Payload)) :
    List (MessageKey × IndexRow Payload) :=
  rows.insertionSort fun a b ↦ newer (a.2.dateUnixMs, a.1.messageId) (b.2.dateUnixMs, b.1.messageId)

def searchMessages (index : MessageIndex Payload Digest) (query : String)
    (chatId : Option ChatId) (limit : ℕ) : Except StorageError (List IndexedMessage) :=
  if limit = 0 then .ok []
  else if searchTokens unicode query 64 = [] then .ok []
  else
    ((newestFirst (index.matching cipher order (searchTokens unicode query 64) chatId)).take
      (min limit 100)).mapM fun row ↦ cipher.decrypt row.1 row.2.payload

end MessageIndex

/-! ## What a search is for -/

def IndexCall.apply {Nonce : Type} (live : MessageKey → Option IndexedMessage) :
    IndexCall Nonce → MessageKey → Option IndexedMessage
  | .upsert _ message =>
      Function.update live message.key (if message.isDeleted then none else some message)
  | .remove key => Function.update live key none

def liveMessages {Nonce : Type} (calls : List (IndexCall Nonce)) :
    MessageKey → Option IndexedMessage :=
  calls.foldl IndexCall.apply fun _ ↦ none

/-- The answer is the newest `count` of the live messages that have every token. -/
def NewestMatches (live : MessageKey → Option IndexedMessage) (chatId : Option ChatId)
    (wanted : List Token) (tokens : IndexedMessage → List Token) (count : ℕ)
    (answer : Except StorageError (List IndexedMessage)) : Prop :=
  ∃ found : List IndexedMessage, found.Nodup ∧
    (∀ message, message ∈ found ↔ live message.key = some message ∧
      (∀ chat ∈ chatId, message.chatId = chat) ∧ ∀ token ∈ wanted, token ∈ tokens message) ∧
    found.Pairwise (fun a b ↦ newer (a.dateUnixMs, a.id) (b.dateUnixMs, b.id)) ∧
    answer = .ok (found.take count)

/-! ## The index holds the live messages -/

namespace MessageIndex

variable {Nonce Payload Digest : Type} [DecidableEq Digest]
  {cipher : IndexCipher Nonce Payload Digest} {unicode}
  {live : MessageKey → Option IndexedMessage} {index : MessageIndex Payload Digest}
  {key : MessageKey}

variable (unicode cipher) in
structure Holds (live : MessageKey → Option IndexedMessage)
    (index : MessageIndex Payload Digest) : Prop where
  row : ∀ key message, live key = some message → message.key = key ∧ ∃ nonce,
    index.messageIndex[key]? = some
      { dateUnixMs := message.dateUnixMs, payload := cipher.encrypt nonce key message }
  absent : ∀ key, live key = none → index.messageIndex[key]? = none
  token : ∀ digest key, (digest, key) ∈ index.messageSearchToken ↔
    ∃ message, live key = some message ∧
      ∃ token ∈ searchTokens unicode (messageSearchText message) 512,
        cipher.blindIndexToken token = digest

omit [DecidableEq Digest] in
theorem holds_empty : Holds unicode cipher (fun _ ↦ none) {} where
  row _ _ h := by cases h
  absent _ _ := ExtTreeMap.getElem?_empty
  token _ _ := iff_of_false List.not_mem_nil (by rintro ⟨_, ⟨⟩, _⟩)

omit [DecidableEq Digest] in
theorem Holds.remove (h : Holds unicode cipher live index) (key : MessageKey) :
    Holds unicode cipher (Function.update live key none) (index.removeMessageIndex key) where
  row k message hk := by
    rw [Function.update_apply] at hk
    split_ifs at hk with heq
    rw [removeMessageIndex, BTreeMap.get_erase, if_neg (Ne.symm heq)]
    exact h.row k message hk
  absent k hk := by
    rw [removeMessageIndex, BTreeMap.get_erase]
    split_ifs with heq
    · rfl
    · rw [Function.update_of_ne (Ne.symm heq)] at hk
      exact h.absent k hk
  token digest k := by
    simp only [removeMessageIndex, List.mem_filter, decide_eq_true_eq, h.token,
      Function.update_apply]
    split_ifs with heq <;> simp [heq]

theorem mem_foldl_insertToken {tokens : List Token} {rows : List (Digest × MessageKey)}
    {row : Digest × MessageKey} :
    row ∈ tokens.foldl (insertToken cipher key) rows ↔
      row ∈ rows ∨ row.2 = key ∧ ∃ token ∈ tokens, cipher.blindIndexToken token = row.1 := by
  induction tokens generalizing rows with
  | nil => simp
  | cons token tokens ih =>
    have hinsert : row ∈ insertToken cipher key rows token ↔
        row ∈ rows ∨ row.2 = key ∧ cipher.blindIndexToken token = row.1 := by
      obtain ⟨digest, k⟩ := row
      unfold insertToken
      split_ifs with hmem
      · refine ⟨.inl, fun h' ↦ h'.elim id ?_⟩
        rintro ⟨rfl, rfl⟩
        exact hmem
      · simp [and_comm, eq_comm]
    rw [List.foldl_cons, ih, hinsert, or_assoc, ← and_or_left]
    simp

theorem Holds.upsert (h : Holds unicode cipher live index) (nonce : Nonce)
    (message : IndexedMessage) :
    Holds unicode cipher
      (Function.update live message.key (if message.isDeleted then none else some message))
      (index.upsertMessageIndex unicode cipher nonce message) := by
  unfold upsertMessageIndex
  split_ifs with hdeleted
  · exact h.remove message.key
  refine ⟨fun k found hk ↦ ?_, fun k hk ↦ ?_, fun digest k ↦ ?_⟩
  · rw [Function.update_apply] at hk
    rw [BTreeMap.get_insert]
    by_cases heq : k = message.key
    · rw [if_pos heq] at hk
      obtain rfl := Option.some.inj hk
      rw [if_pos heq.symm, heq]
      exact ⟨rfl, nonce, rfl⟩
    · rw [if_neg heq] at hk
      rw [if_neg (Ne.symm heq)]
      exact h.row k found hk
  · rw [Function.update_apply] at hk
    split_ifs at hk with heq
    rw [BTreeMap.get_insert_ne _ _ (Ne.symm heq)]
    exact h.absent k hk
  · rw [mem_foldl_insertToken]
    simp only [List.mem_filter, decide_eq_true_eq, h.token, Function.update_apply]
    split_ifs with heq <;> simp [heq]

theorem Holds.run (h : Holds unicode cipher live index) (calls : List (IndexCall Nonce)) :
    Holds unicode cipher (calls.foldl IndexCall.apply live)
      (calls.foldl (step unicode cipher) index) := by
  induction calls generalizing live index with
  | nil => exact h
  | cons call calls ih =>
    cases call with
    | upsert nonce message => exact ih (h.upsert nonce message)
    | remove key => exact ih (h.remove key)

/-! ## What is found -/

theorem hits_eq_length_iff {digests : List Digest} (hnodup : digests.Nodup) :
    index.hits digests key = digests.length ↔
      ∀ digest ∈ digests, (digest, key) ∈ index.messageSearchToken := by
  have hcard : index.hits digests key =
      ((index.messageSearchToken.filter fun row ↦ row.2 = key ∧ row.1 ∈ digests).map
        Prod.fst).toFinset.card := rfl
  have hsubset : ((index.messageSearchToken.filter fun row ↦ row.2 = key ∧ row.1 ∈ digests).map
      Prod.fst).toFinset ⊆ digests.toFinset := by
    intro digest hdigest
    simp only [List.mem_toFinset, List.mem_map, List.mem_filter, decide_eq_true_eq] at *
    obtain ⟨row, ⟨-, -, hmem⟩, rfl⟩ := hdigest
    exact hmem
  rw [hcard, ← List.toFinset_card_of_nodup hnodup]
  constructor
  · intro heq digest hdigest
    rw [← List.mem_toFinset, ← Finset.eq_of_subset_of_card_le hsubset heq.ge] at hdigest
    simp only [List.mem_toFinset, List.mem_map, List.mem_filter, decide_eq_true_eq] at hdigest
    obtain ⟨⟨_, _⟩, ⟨hmem, rfl, -⟩, rfl⟩ := hdigest
    exact hmem
  · intro hall
    congr 1
    apply hsubset.antisymm
    intro digest hdigest
    rw [List.mem_toFinset] at hdigest
    simp only [List.mem_toFinset, List.mem_map, List.mem_filter, decide_eq_true_eq]
    exact ⟨(digest, key), ⟨hall digest hdigest, rfl, hdigest⟩, rfl⟩

theorem nodup_searchTokens (unicode : Unicode) (input : String) (maximum : ℕ) :
    (searchTokens unicode input maximum).Nodup := by
  apply List.Nodup.sublist (List.take_sublist ..)
  exact (List.perm_insertionSort _ _).nodup_iff.mpr (List.nodup_dedup _)

theorem Holds.hits_iff (h : Holds unicode cipher live index) (hcipher : cipher.Sound)
    {tokens : List Token} (hnodup : tokens.Nodup) {message : IndexedMessage}
    (hlive : live key = some message) :
    index.hits (tokens.map cipher.blindIndexToken) key = tokens.length ↔
      ∀ token ∈ tokens, token ∈ searchTokens unicode (messageSearchText message) 512 := by
  rw [← List.length_map cipher.blindIndexToken,
    hits_eq_length_iff (hnodup.map hcipher.injective), List.forall_mem_map]
  refine forall₂_congr fun token _ ↦ ?_
  rw [h.token, hlive]
  constructor
  · rintro ⟨_, ⟨⟩, other, hother, heq⟩
    exact hcipher.injective heq ▸ hother
  · exact fun hmem ↦ ⟨message, rfl, token, hmem, rfl⟩

theorem mapM_eq_ok_map {α β ε : Type} {f : α → Except ε β} {g : α → β} {rows : List α}
    (h : ∀ row ∈ rows, f row = .ok (g row)) : rows.mapM f = .ok (rows.map g) := by
  induction rows with
  | nil => rfl
  | cons row rows ih =>
    rw [List.mapM_cons, h row (by simp), ih fun other hother ↦ h other (by simp [hother])]
    rfl

theorem pairwise_newestFirst (rows : List (MessageKey × IndexRow Payload)) :
    (newestFirst rows).Pairwise fun a b ↦
      newer (a.2.dateUnixMs, a.1.messageId) (b.2.dateUnixMs, b.1.messageId) := by
  refine @List.pairwise_insertionSort _ _ _ ⟨fun a b ↦ ?_⟩ ⟨fun a b c hab hbc ↦ ?_⟩ rows
  · unfold newer
    omega
  · unfold newer at *
    omega

variable {order : RowOrder (MessageKey × IndexRow Payload)}

theorem Holds.mem_matching (h : Holds unicode cipher live index) (hcipher : cipher.Sound)
    {tokens : List Token} (hnodup : tokens.Nodup) {chatId : Option ChatId}
    {row : MessageKey × IndexRow Payload} :
    row ∈ index.matching cipher order tokens chatId ↔
      index.messageIndex[row.1]? = some row.2 ∧ (∀ chat ∈ chatId, row.1.chatId = chat) ∧
        ∃ message, live row.1 = some message ∧
          ∀ token ∈ tokens, token ∈ searchTokens unicode (messageSearchText message) 512 := by
  rw [matching, List.mem_filter, (order.perm _).mem_iff, decide_eq_true_eq,
    ExtTreeMap.mem_toList_iff_getElem?_eq_some]
  refine and_congr_right fun hrow ↦ and_congr_right fun _ ↦ ?_
  cases hlive : live row.1 with
  | none =>
    rw [h.absent _ hlive] at hrow
    cases hrow
  | some message =>
    rw [h.hits_iff hcipher hnodup hlive]
    simp

omit [DecidableEq Digest] in
theorem Holds.exists_found (h : Holds unicode cipher live index) (hcipher : cipher.Sound)
    {rows : List (MessageKey × IndexRow Payload)}
    (hrows : ∀ row ∈ rows, index.messageIndex[row.1]? = some row.2) :
    ∃ message : MessageKey × IndexRow Payload → IndexedMessage, ∀ row ∈ rows,
      live row.1 = some (message row) ∧ (message row).key = row.1 ∧
        (message row).dateUnixMs = row.2.dateUnixMs ∧
        cipher.decrypt row.1 row.2.payload = .ok (message row) := by
  have hall : ∀ row ∈ rows, ∃ message, live row.1 = some message ∧ message.key = row.1 ∧
      message.dateUnixMs = row.2.dateUnixMs ∧
      cipher.decrypt row.1 row.2.payload = .ok message := by
    intro row hrow
    cases hlive : live row.1 with
    | none =>
      have hnone := h.absent _ hlive
      rw [hrows row hrow] at hnone
      cases hnone
    | some message =>
      obtain ⟨hkey, nonce, hentry⟩ := h.row _ _ hlive
      rw [hrows row hrow, Option.some.injEq] at hentry
      rw [hentry]
      exact ⟨message, rfl, hkey, rfl, hcipher.decrypt ..⟩
  have : Nonempty IndexedMessage := ⟨textMessage 0 ""⟩
  choose! message hmessage using hall
  exact ⟨message, hmessage⟩

theorem Holds.newestMatches (h : Holds unicode cipher live index) (hcipher : cipher.Sound)
    (query : String) (chatId : Option ChatId) (limit : ℕ) :
    NewestMatches live chatId (searchTokens unicode query 64)
      (fun message ↦ searchTokens unicode (messageSearchText message) 512)
      (if searchTokens unicode query 64 = [] then 0 else min limit 100)
      (index.searchMessages unicode cipher order query chatId limit) := by
  have hmem : ∀ row, row ∈ newestFirst
      (index.matching cipher order (searchTokens unicode query 64) chatId) ↔ _ := fun row ↦
    (List.perm_insertionSort _ _).mem_iff.trans
      (h.mem_matching hcipher (nodup_searchTokens unicode query 64))
  have hsorted := pairwise_newestFirst
    (index.matching cipher order (searchTokens unicode query 64) chatId)
  have hkeys : ((newestFirst (index.matching cipher order (searchTokens unicode query 64)
      chatId)).map Prod.fst).Nodup := by
    apply ((List.perm_insertionSort _ _).map Prod.fst).nodup_iff.mpr
    apply List.Nodup.sublist (List.filter_sublist.map Prod.fst)
    exact ((order.perm _).map Prod.fst).nodup_iff.mpr (BTreeMap.nodup_keys _)
  unfold searchMessages
  generalize newestFirst (index.matching cipher order (searchTokens unicode query 64) chatId) =
    rows at hmem hsorted hkeys ⊢
  obtain ⟨message, hmessage⟩ := h.exists_found hcipher fun row hrow ↦ ((hmem row).mp hrow).1
  refine ⟨rows.map message, ?_, fun found ↦ ?_, ?_, ?_⟩
  · apply List.Nodup.of_map Message.key
    have hmap : rows.map (Message.key ∘ message) = rows.map Prod.fst :=
      List.map_congr_left fun row hrow ↦ (hmessage row hrow).2.1
    rwa [List.map_map, hmap]
  · rw [List.mem_map]
    constructor
    · rintro ⟨row, hrow, rfl⟩
      obtain ⟨-, hchat, other, hother, htokens⟩ := (hmem row).mp hrow
      obtain ⟨hlive, hkey, -⟩ := hmessage row hrow
      rw [hlive, Option.some.injEq] at hother
      rw [← hkey] at hlive hchat
      exact ⟨hlive, hchat, hother ▸ htokens⟩
    · rintro ⟨hlive, hchat, htokens⟩
      obtain ⟨-, nonce, hentry⟩ := h.row _ _ hlive
      have hrow := (hmem (found.key, _)).mpr ⟨hentry, hchat, found, hlive, htokens⟩
      refine ⟨_, hrow, Option.some.inj ?_⟩
      rw [← (hmessage _ hrow).1, hlive]
  · rw [List.pairwise_map]
    refine hsorted.imp_of_mem fun {a b} ha hb hnewer ↦ ?_
    obtain ⟨-, hkey, hdate, -⟩ := hmessage a ha
    obtain ⟨-, hkey', hdate', -⟩ := hmessage b hb
    rw [hdate, hdate']
    rw [← hkey, ← hkey'] at hnewer
    exact hnewer
  · split_ifs with hlimit hempty hempty
    · rfl
    · rw [hlimit, Nat.zero_min]
      rfl
    · rfl
    · rw [← List.map_take]
      exact mapM_eq_ok_map fun row hrow ↦ (hmessage row (List.mem_of_mem_take hrow)).2.2.2

/-- A search finds the newest of the live messages that have the tokens of the query, up
to the number of tokens and of messages that the store looks at. -/
theorem searchMessages_newest (hcipher : cipher.Sound)
    (order : RowOrder (MessageKey × IndexRow Payload)) (unicode : Unicode)
    (calls : List (IndexCall Nonce)) (query : String) (chatId : Option ChatId) (limit : ℕ) :
    NewestMatches (liveMessages calls) chatId (searchTokens unicode query 64)
      (fun message ↦ searchTokens unicode (messageSearchText message) 512)
      (if searchTokens unicode query 64 = [] then 0 else min limit 100)
      ((calls.foldl (step unicode cipher) {}).searchMessages unicode cipher order query chatId
        limit) :=
  (holds_empty.run calls).newestMatches hcipher query chatId limit

def plainCipher : IndexCipher Unit IndexedMessage Token where
  encrypt _ _ message := message
  decrypt _ payload := .ok payload
  blindIndexToken token := token

def asciiTables : Unicode := ⟨Char.isAlphanum, fun c ↦ [c.toLower]⟩

def tableOrder : RowOrder (MessageKey × IndexRow IndexedMessage) := ⟨id, fun _ ↦ .refl _⟩

theorem plain_search_newest :
    NewestMatches (liveMessages [IndexCall.upsert () (textMessage 1 "rust")]) none
      (searchTokens asciiTables "Rust" 64)
      (fun message ↦ searchTokens asciiTables (messageSearchText message) 512)
      (if searchTokens asciiTables "Rust" 64 = [] then 0 else min 20 100)
      (([IndexCall.upsert () (textMessage 1 "rust")].foldl (step asciiTables plainCipher)
        {}).searchMessages asciiTables plainCipher tableOrder "Rust" none 20) :=
  searchMessages_newest ⟨fun _ _ _ ↦ rfl, fun _ _ h ↦ h⟩ tableOrder asciiTables
    [.upsert () (textMessage 1 "rust")] "Rust" none 20

def ideographTokens (count : ℕ) : List Token :=
  (List.range count).map fun i ↦ [Char.ofNat (0x4e00 + i)]

def ideographs (count : ℕ) : String :=
  String.ofList ((ideographTokens count).flatMap (· ++ [' ']))

theorem tokensOf_ideographs :
    tokensOf asciiTables (ideographs 64).toList = ideographTokens 64 ∧
      tokensOf asciiTables (ideographs 65).toList = ideographTokens 65 := by
  rw [ideographs, ideographs, String.toList_ofList, String.toList_ofList]
  decide +kernel

/-- The message found lacks the last token of the query, which is beyond the cap. -/
theorem search_finds_without_last_token :
    ¬ NewestMatches (liveMessages [IndexCall.upsert () (textMessage 1 (ideographs 64))]) none
      (tokensOf asciiTables (ideographs 65).toList)
      (fun message ↦ tokensOf asciiTables (messageSearchText message).toList) 1
      (([IndexCall.upsert () (textMessage 1 (ideographs 64))].foldl (step asciiTables plainCipher)
        {}).searchMessages asciiTables plainCipher tableOrder (ideographs 65) none 1) := by
  rintro ⟨found, -, hfound, -, hanswer⟩
  obtain ⟨cut, -, hcut, -, hsearch⟩ := (holds_empty.run
    [IndexCall.upsert () (textMessage 1 (ideographs 64))]).newestMatches
      (⟨fun _ _ _ ↦ rfl, fun _ _ h ↦ h⟩ : plainCipher.Sound) (ideographs 65) none 1
  rw [hsearch, Except.ok.injEq] at hanswer
  have htext : messageSearchText (textMessage 1 (ideographs 64)) = ideographs 64 := by
    have hne : ideographs 64 ≠ "" := by decide +kernel
    simp [messageSearchText, textMessage, formattedPart, hne]
  have hmem : textMessage 1 (ideographs 64) ∈ cut := by
    refine (hcut _).mpr ⟨by simp [IndexCall.apply, textMessage], nofun, ?_⟩
    simp only [searchTokens, htext, tokensOf_ideographs]
    decide +kernel
  have honly : ∀ message ∈ cut, message = textMessage 1 (ideographs 64) := by
    intro message hmessage
    have hlive := ((hcut message).mp hmessage).1
    change Function.update (fun _ ↦ none) _ _ _ = _ at hlive
    rw [Function.update_apply] at hlive
    split_ifs at hlive
    exact (Option.some.inj hlive).symm
  have hfirst : textMessage 1 (ideographs 64) ∈ found := by
    have hsome : searchTokens asciiTables (ideographs 65) 64 ≠ [] := by
      rw [searchTokens, tokensOf_ideographs.2]
      decide +kernel
    rw [if_neg hsome] at hanswer
    cases cut with
    | nil => cases hmem
    | cons first rest =>
      have hfirst : first ∈ found.take 1 := hanswer ▸ List.mem_singleton_self first
      rw [← honly first List.mem_cons_self]
      exact List.mem_of_mem_take hfirst
  have hlast := ((hfound _).mp hfirst).2.2 [Char.ofNat (0x4e00 + 64)]
  simp only [htext, tokensOf_ideographs] at hlast
  revert hlast
  decide +kernel

end MessageIndex

end Fabushi.TelegramStorage
