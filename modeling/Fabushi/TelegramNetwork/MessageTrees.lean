import Fabushi.TelegramNetwork.ContainerScan

/-!
# Trees of messages

A container is laid out as its constructor, the number of its messages, and each message with
its id, its sequence number and the length of its body in front. The scan of such a layout goes
over the messages and the service messages of the tree in order, up to the first one that is
refused; a body that is no layout of a tree is refused.
-/

namespace Fabushi.TelegramNetwork

open Effects Radix Result Telegram Wire

inductive MessageTree where
  | service (body : List UInt8)
  | container (messages : List (Int64 × Int32 × MessageTree))

/-! ## Words -/

def leI64 (n : Int64) : List UInt8 :=
  toLe 8 n.toUInt64.toNat

def leI32 (n : Int32) : List UInt8 :=
  toLe 4 n.toUInt32.toNat

def leU32 (n : UInt32) : List UInt8 :=
  toLe 4 n.toNat

@[simp] theorem length_leI64 (n : Int64) : (leI64 n).length = 8 :=
  length_toLe 8 _

@[simp] theorem length_leI32 (n : Int32) : (leI32 n).length = 4 :=
  length_toLe 4 _

@[simp] theorem length_leU32 (n : UInt32) : (leU32 n).length = 4 :=
  length_toLe 4 _

theorem readLeAt_iff {width : ℕ} {input : List UInt8} {offset n : ℕ} :
    readLeAt width input offset = .ok n ↔
      n < 256 ^ width ∧ slice input offset (offset + width) = some (toLe width n) := by
  rw [readLeAt, bind_eq_ok]
  constructor
  · rintro ⟨bytes, hslice, h⟩
    rw [okOr_eq_ok] at hslice
    obtain rfl := Except.ok.inj h
    have hlength : bytes.length = width := by
      rw [length_of_slice hslice]
      omega
    have hlt := ofLe_lt bytes
    rw [hlength] at hlt
    refine ⟨hlt, ?_⟩
    conv_rhs => rw [← hlength, toLe_ofLe]
    exact hslice
  · rintro ⟨hlt, hslice⟩
    refine ⟨_, okOr_eq_ok.mpr hslice, ?_⟩
    exact congrArg Except.ok (ofLe_toLe_of_lt hlt)

theorem readU32At_iff {input : List UInt8} {offset : ℕ} {n : UInt32} :
    readU32At input offset = .ok n ↔ slice input offset (offset + 4) = some (leU32 n) := by
  rw [readU32At, bind_eq_ok]
  constructor
  · rintro ⟨word, hword, h⟩
    obtain ⟨hlt, hslice⟩ := readLeAt_iff.mp hword
    obtain rfl := Except.ok.inj h
    rw [hslice, leU32, UInt32.toNat_ofNat_of_lt' hlt]
  · intro hslice
    refine ⟨n.toNat, readLeAt_iff.mpr ⟨n.toNat_lt, hslice⟩, ?_⟩
    exact congrArg Except.ok UInt32.ofNat_toNat

theorem readI32At_iff {input : List UInt8} {offset : ℕ} {n : Int32} :
    readI32At input offset = .ok n ↔ slice input offset (offset + 4) = some (leI32 n) := by
  rw [readI32At, bind_eq_ok]
  constructor
  · rintro ⟨word, hword, h⟩
    obtain ⟨hlt, hslice⟩ := readLeAt_iff.mp hword
    obtain rfl := Except.ok.inj h
    rw [hslice, leI32, UInt32.toUInt32_toInt32, UInt32.toNat_ofNat_of_lt' hlt]
  · intro hslice
    refine ⟨n.toUInt32.toNat, readLeAt_iff.mpr ⟨n.toUInt32.toNat_lt, hslice⟩, ?_⟩
    rw [UInt32.ofNat_toNat]
    rfl

theorem readI64At_iff {input : List UInt8} {offset : ℕ} {n : Int64} :
    readI64At input offset = .ok n ↔ slice input offset (offset + 8) = some (leI64 n) := by
  rw [readI64At, bind_eq_ok]
  constructor
  · rintro ⟨word, hword, h⟩
    obtain ⟨hlt, hslice⟩ := readLeAt_iff.mp hword
    obtain rfl := Except.ok.inj h
    rw [hslice, leI64, UInt64.toUInt64_toInt64, UInt64.toNat_ofNat_of_lt' hlt]
  · intro hslice
    refine ⟨n.toUInt64.toNat, readLeAt_iff.mpr ⟨n.toUInt64.toNat_lt, hslice⟩, ?_⟩
    rw [UInt64.ofNat_toNat]
    rfl

theorem drop_of_slice {bytes part : List UInt8} {start stop : ℕ} (hle : start ≤ stop)
    (h : slice bytes start stop = some part) : bytes.drop start = part ++ bytes.drop stop := by
  have hstop := le_length_of_slice h
  rw [slice, if_pos hstop] at h
  have hlength : start ≤ (bytes.take stop).length := by
    rwa [List.length_take_of_le hstop]
  calc
    bytes.drop start = (bytes.take stop ++ bytes.drop stop).drop start := by
      rw [List.take_append_drop]
    _ = (bytes.take stop).drop start ++ bytes.drop stop :=
      List.drop_append_of_le_length hlength
    _ = part ++ bytes.drop stop := by rw [Option.some.inj h]

theorem slice_of_drop {bytes part rest : List UInt8} {start : ℕ} (hle : start ≤ bytes.length)
    (h : bytes.drop start = part ++ rest) :
    slice bytes start (start + part.length) = some part ∧
      bytes.drop (start + part.length) = rest := by
  have hlength : (bytes.take start).length = start := List.length_take_of_le hle
  have hsplit : bytes = bytes.take start ++ (part ++ rest) := by
    rw [← h, List.take_append_drop]
  constructor
  · have hmiddle := slice_middle (bytes.take start) part rest
    rwa [hlength, ← hsplit] at hmiddle
  · rw [← List.drop_drop, h, List.drop_left]

theorem toInt_ofNat_length {n : ℕ} (h : n < 2 ^ 31) : (Int32.ofNat n).toInt = n :=
  Int32.toInt_ofNat_of_lt h

theorem ofNat_toNat_toInt {n : Int32} (h : 0 ≤ n.toInt) :
    Int32.ofNat n.toInt.toNat = n ∧ n.toInt.toNat < 2 ^ 31 := by
  have hmax := Int32.toInt_lt n
  refine ⟨?_, by omega⟩
  apply Int32.toInt_inj.mp
  rw [Int32.toInt_ofNat_of_lt (by omega)]
  omega

namespace MessageTree

/-! ## The layout of a tree -/

@[elab_as_elim]
theorem inductionOn {motive : MessageTree → Prop} (tree : MessageTree)
    (service : ∀ body, motive (.service body))
    (container : ∀ messages, (∀ message ∈ messages, motive message.2.2) →
      motive (.container messages)) : motive tree := by
  refine @MessageTree.rec motive (fun messages ↦ ∀ message ∈ messages, motive message.2.2)
    (fun message ↦ motive message.2.2) (fun numbered ↦ motive numbered.2) service container nofun
    ?_ (fun _ _ h ↦ h) (fun _ _ h ↦ h) tree
  intro message messages hmessage hmessages
  exact List.forall_mem_cons.mpr ⟨hmessage, hmessages⟩

mutual

def encode : MessageTree → List UInt8
  | .service body => body
  | .container messages => leU32 messageContainerConstructor ++
      (leI32 (Int32.ofNat messages.length) ++ encodeMessages messages)

def encodeMessages : List (Int64 × Int32 × MessageTree) → List UInt8
  | [] => []
  | (messageId, sequenceNumber, tree) :: messages =>
      leI64 messageId ++ (leI32 sequenceNumber ++ (leI32 (Int32.ofNat (encode tree).length) ++
        (encode tree ++ encodeMessages messages)))

end

/-- A service message has a constructor, which is not that of containers; a container has at most
1024 messages, and the lengths of their bodies have 31 bits. -/
inductive Encodable : MessageTree → Prop
  | service {body : List UInt8} {constructor : UInt32} (h : readU32At body 0 = .ok constructor)
      (hne : constructor ≠ messageContainerConstructor) : Encodable (.service body)
  | container {messages : List (Int64 × Int32 × MessageTree)} (hcount : messages.length ≤ 1024)
      (hlength : ∀ message ∈ messages, (encode message.2.2).length < 2 ^ 31)
      (h : ∀ message ∈ messages, Encodable message.2.2) : Encodable (.container messages)

end MessageTree

/-! ## What a scan goes over -/

inductive Event where
  | message (messageId : Int64) (sequenceNumber : Int32)
  | service (responseMessageId : Int64) (body : List UInt8)

mutual

def MessageTree.events (responseMessageId : Int64) : MessageTree → List Event
  | .service body => [.service responseMessageId body]
  | .container messages => eventsOf messages

def eventsOf : List (Int64 × Int32 × MessageTree) → List Event
  | [] => []
  | (messageId, sequenceNumber, tree) :: messages =>
      .message messageId sequenceNumber :: (tree.events messageId ++ eventsOf messages)

end

section Scan

variable (clock : ℕ → Option Int64) (requestMessageId : Int64)

def scanLeaf (responseMessageId : Int64) (body : List UInt8) :
    Eff NetworkError ScanState RpcOutcome := do
  let constructor ← orThrow id (readU32At body 0)
  scanService requestMessageId responseMessageId constructor body

def visit (outcome : RpcOutcome) : Event → Eff NetworkError ScanState RpcOutcome
  | .message messageId sequenceNumber => do
      receiveMessage clock messageId sequenceNumber
      return outcome
  | .service responseMessageId body => do
      let inner ← scanLeaf requestMessageId responseMessageId body
      return outcome.followed inner

theorem RpcOutcome.followed_assoc (a b c : RpcOutcome) :
    (a.followed b).followed c = a.followed (b.followed c) := by
  unfold followed
  split_ifs <;> rfl

theorem RpcOutcome.proceed_followed (a : RpcOutcome) : RpcOutcome.proceed.followed a = a := by
  unfold followed
  split_ifs with h
  · exact h.symm
  · rfl

theorem visit_eq (outcome : RpcOutcome) (event : Event) :
    visit clock requestMessageId outcome event = (do
      let inner ← visit clock requestMessageId .proceed event
      return outcome.followed inner) := by
  cases event with
  | message messageId sequenceNumber =>
      simp only [visit, bind_assoc, pure_bind]
      rfl
  | service responseMessageId body =>
      simp only [visit, bind_assoc, pure_bind, RpcOutcome.proceed_followed]

theorem foldlM_visit (events : List Event) (outcome : RpcOutcome) :
    events.foldlM (visit clock requestMessageId) outcome = (do
      let inner ← events.foldlM (visit clock requestMessageId) .proceed
      return outcome.followed inner) := by
  induction events generalizing outcome with
  | nil =>
      rw [List.foldlM_nil, List.foldlM_nil, pure_bind]
      rfl
  | cons event events ih =>
      rw [List.foldlM_cons, List.foldlM_cons, visit_eq, bind_assoc, bind_assoc]
      apply bind_congr
      intro inner
      rw [pure_bind, ih, ih inner, bind_assoc]
      apply bind_congr
      intro inner'
      rw [pure_bind, RpcOutcome.followed_assoc]

theorem orThrow_ok_bind {ε δ σ α β : Type} (wrap : δ → ε) (a : α) (f : α → Eff ε σ β) :
    (orThrow wrap (.ok a) >>= f) = f a := rfl

theorem scanMessages_succ {body inner : List UInt8} {count offset : ℕ} {outcome : RpcOutcome}
    {messageId : Int64} {sequenceNumber bodyLength : Int32}
    (hmessageId : readI64At body offset = .ok messageId)
    (hsequenceNumber : readI32At body (offset + 8) = .ok sequenceNumber)
    (hbodyLength : readI32At body (offset + 12) = .ok bodyLength)
    (hnonneg : 0 ≤ bodyLength.toInt)
    (hinner : slice body (offset + 16) (offset + 16 + bodyLength.toInt.toNat) = some inner) :
    scanMessages clock requestMessageId body (count + 1) offset outcome = (do
      receiveMessage clock messageId sequenceNumber
      let innerOutcome ← scanRpcBody clock requestMessageId messageId inner
      scanMessages clock requestMessageId body count (offset + 16 + bodyLength.toInt.toNat)
        (outcome.followed innerOutcome)) := by
  have hensure : ensure (0 ≤ bodyLength.toInt) NetworkError.invalidServiceMessage = .ok () :=
    ensure_eq_ok.mpr hnonneg
  rw [scanMessages, hmessageId, orThrow_ok_bind, hsequenceNumber, orThrow_ok_bind, hbodyLength,
    orThrow_ok_bind, hensure, orThrow_ok_bind]
  split
  · rename_i hnone
    rw [hinner] at hnone
    cases hnone
  · rename_i inner' hsome
    rw [hinner] at hsome
    cases hsome
    rfl

theorem reads_of_layout {body back : List UInt8} {offset : ℕ} {messageId : Int64}
    {sequenceNumber : Int32} {inner : List UInt8} (hle : offset ≤ body.length)
    (hbody : body.drop offset = leI64 messageId ++ (leI32 sequenceNumber ++
      (leI32 (Int32.ofNat inner.length) ++ (inner ++ back)))) :
    readI64At body offset = .ok messageId ∧
      readI32At body (offset + 8) = .ok sequenceNumber ∧
        readI32At body (offset + 12) = .ok (Int32.ofNat inner.length) ∧
          slice body (offset + 16) (offset + 16 + inner.length) = some inner ∧
            body.drop (offset + 16 + inner.length) = back := by
  obtain ⟨hid, hbody⟩ := slice_of_drop hle hbody
  rw [length_leI64] at hid hbody
  obtain ⟨hsequence, hbody⟩ := slice_of_drop (le_length_of_slice hid) hbody
  rw [length_leI32] at hsequence hbody
  obtain ⟨hlength, hbody⟩ := slice_of_drop (le_length_of_slice hsequence) hbody
  rw [length_leI32] at hlength hbody
  obtain ⟨hslice, hbody⟩ := slice_of_drop (le_length_of_slice hlength) hbody
  exact ⟨readI64At_iff.mpr hid, readI32At_iff.mpr hsequence, readI32At_iff.mpr hlength, hslice,
    hbody⟩

theorem scanMessages_encode {messages : List (Int64 × Int32 × MessageTree)}
    (hlength : ∀ message ∈ messages, message.2.2.encode.length < 2 ^ 31)
    (hscan : ∀ message ∈ messages, ∀ responseMessageId,
      scanRpcBody clock requestMessageId responseMessageId message.2.2.encode =
        (message.2.2.events responseMessageId).foldlM (visit clock requestMessageId) .proceed)
    {body : List UInt8} {offset : ℕ} (outcome : RpcOutcome) (hle : offset ≤ body.length)
    (hbody : body.drop offset = MessageTree.encodeMessages messages) :
    scanMessages clock requestMessageId body messages.length offset outcome =
      (eventsOf messages).foldlM (visit clock requestMessageId) outcome := by
  induction messages generalizing offset outcome with
  | nil =>
      have hend : offset = body.length := by
        have hdrop := List.drop_eq_nil_iff.mp hbody
        omega
      have hensure : ensure (offset = body.length) NetworkError.invalidServiceMessage = .ok () :=
        ensure_eq_ok.mpr hend
      rw [List.length_nil, scanMessages, hensure, orThrow_ok_bind]
      rfl
  | cons message messages ih =>
      obtain ⟨messageId, sequenceNumber, tree⟩ := message
      rw [List.forall_mem_cons] at hlength hscan
      obtain ⟨hmessageId, hsequenceNumber, hbodyLength, hinner, hrest⟩ :=
        reads_of_layout hle hbody
      have hint := toInt_ofNat_length hlength.1
      dsimp only at hint hmessageId hsequenceNumber hbodyLength hinner hrest hscan
      have hnat : (Int32.ofNat tree.encode.length).toInt.toNat = tree.encode.length := by
        rw [hint, Int.toNat_natCast]
      have hnonneg : 0 ≤ (Int32.ofNat tree.encode.length).toInt := by
        rw [hint]
        exact Int.natCast_nonneg _
      rw [List.length_cons, scanMessages_succ clock requestMessageId hmessageId hsequenceNumber
        hbodyLength hnonneg (by rwa [hnat]), hnat, eventsOf, List.foldlM_cons, visit, bind_assoc]
      apply bind_congr
      intro _
      rw [pure_bind, List.foldlM_append, hscan.1, foldlM_visit clock requestMessageId _ outcome,
        bind_assoc]
      apply bind_congr
      intro inner
      rw [pure_bind]
      exact ih hlength.2 hscan.2 (outcome.followed inner) (le_length_of_slice hinner) hrest

theorem scanRpcBody_encode {tree : MessageTree} (h : tree.Encodable)
    (responseMessageId : Int64) :
    scanRpcBody clock requestMessageId responseMessageId tree.encode =
      (tree.events responseMessageId).foldlM (visit clock requestMessageId) .proceed := by
  induction tree using MessageTree.inductionOn generalizing responseMessageId with
  | service body =>
      cases h with
      | service hconstructor hne =>
          rw [MessageTree.encode, MessageTree.events, scanRpcBody, hconstructor, orThrow_ok_bind,
            if_neg hne, List.foldlM_cons, visit, scanLeaf, hconstructor, orThrow_ok_bind,
            bind_assoc]
          simp only [List.foldlM_nil, RpcOutcome.proceed_followed, bind_pure]
  | container messages ih =>
      cases h with
      | container hcount hlength hmessages =>
          rw [MessageTree.encode, MessageTree.events]
          set body := leU32 messageContainerConstructor ++
            (leI32 (Int32.ofNat messages.length) ++ MessageTree.encodeMessages messages)
            with hbody
          obtain ⟨hconstructor, hrest⟩ := slice_of_drop (Nat.zero_le body.length) hbody
          rw [length_leU32, Nat.zero_add] at hconstructor hrest
          obtain ⟨hword, hrest⟩ := slice_of_drop (le_length_of_slice hconstructor) hrest
          rw [length_leI32] at hword hrest
          have hint := @toInt_ofNat_length messages.length (by omega)
          have hensure : ensure (0 ≤ (Int32.ofNat messages.length).toInt ∧
              (Int32.ofNat messages.length).toInt ≤ 1024)
                NetworkError.invalidServiceMessage = .ok () := by
            rw [ensure_eq_ok, hint]
            omega
          rw [scanRpcBody, readU32At_iff.mpr hconstructor, orThrow_ok_bind, if_pos rfl,
            readI32At_iff.mpr hword, orThrow_ok_bind, hensure, orThrow_ok_bind, hint,
            Int.toNat_natCast]
          apply scanMessages_encode clock requestMessageId hlength _ _ (le_length_of_slice hword)
            hrest
          intro message hmessage inner
          exact ih message hmessage (hmessages message hmessage) inner

end Scan

end Fabushi.TelegramNetwork

/-!
## Bodies that are refused

A scan that succeeds has found the messages of every container end to end: each begins where the
one before it ends, and the last one ends with the container. So a body whose lengths do not add
up is refused, however deep they stand.
-/

namespace Fabushi.TelegramNetwork

open Effects Radix Result Telegram Wire

section

variable {ε σ α β : Type}

theorem exists_of_result_bind {m : Eff ε σ α} {f : α → Eff ε σ β} {s : σ} {b : β}
    (h : result (m >>= f) s = .ok b) :
    ∃ a, result m s = .ok a ∧ result (f a) (after m s) = .ok b := by
  cases hm : result m s with
  | ok a =>
      rw [result_bind_ok hm] at h
      exact ⟨a, rfl, h⟩
  | error e =>
      rw [result_bind_error hm] at h
      cases h

theorem exists_of_orThrow_bind {δ : Type} {wrap : δ → ε} {x : Except δ α} {f : α → Eff ε σ β}
    {s : σ} {b : β} (h : result (orThrow wrap x >>= f) s = .ok b) :
    ∃ a, x = .ok a ∧ result (f a) s = .ok b := by
  cases x with
  | ok a => exact ⟨a, rfl, h⟩
  | error e => cases h

end

variable {clock : ℕ → Option Int64} {requestMessageId : Int64}

theorem exists_messages_of_scanMessages {body : List UInt8}
    (hshort : ∀ inner, inner.length < body.length → ∀ responseMessageId s outcome,
      result (scanRpcBody clock requestMessageId responseMessageId inner) s = .ok outcome →
        ∃ tree : MessageTree, tree.Encodable ∧ tree.encode = inner)
    {count offset : ℕ} {outcome final : RpcOutcome} {s : ScanState}
    (hle : offset ≤ body.length)
    (h : result (scanMessages clock requestMessageId body count offset outcome) s = .ok final) :
    ∃ messages : List (Int64 × Int32 × MessageTree), messages.length = count ∧
      (∀ message ∈ messages, message.2.2.encode.length < 2 ^ 31 ∧ message.2.2.Encodable) ∧
        body.drop offset = MessageTree.encodeMessages messages := by
  induction count generalizing offset outcome s with
  | zero =>
      rw [scanMessages] at h
      obtain ⟨_, hend, -⟩ := exists_of_orThrow_bind h
      refine ⟨[], rfl, List.forall_mem_nil _, ?_⟩
      rw [ensure_eq_ok.mp hend, List.drop_length]
      rfl
  | succ count ih =>
      rw [scanMessages] at h
      obtain ⟨messageId, hmessageId, h⟩ := exists_of_orThrow_bind h
      obtain ⟨sequenceNumber, hsequenceNumber, h⟩ := exists_of_orThrow_bind h
      obtain ⟨bodyLength, hbodyLength, h⟩ := exists_of_orThrow_bind h
      obtain ⟨_, hsign, h⟩ := exists_of_orThrow_bind h
      split at h
      · cases h
      · rename_i inner hinner
        obtain ⟨_, -, h⟩ := exists_of_result_bind h
        obtain ⟨innerOutcome, hscan, h⟩ := exists_of_result_bind h
        obtain ⟨tree, htree, hencode⟩ :=
          hshort inner (length_lt_of_slice hinner (Nat.le_add_right _ _)) _ _ _ hscan
        obtain ⟨messages, hcount, hall, hrest⟩ := ih (le_length_of_slice hinner) h
        obtain ⟨hword, hmax⟩ := ofNat_toNat_toInt (ensure_eq_ok.mp hsign)
        have hlength : inner.length = bodyLength.toInt.toNat := by
          rw [length_of_slice hinner]
          omega
        refine ⟨(messageId, sequenceNumber, tree) :: messages, by rw [List.length_cons, hcount],
          ?_, ?_⟩
        · rw [List.forall_mem_cons]
          refine ⟨⟨?_, htree⟩, hall⟩
          dsimp only
          rwa [hencode, hlength]
        · rw [MessageTree.encodeMessages, hencode, hlength, hword, ← hrest,
            drop_of_slice (Nat.le_add_right _ _) (readI64At_iff.mp hmessageId),
            drop_of_slice (Nat.le_add_right _ _) (readI32At_iff.mp hsequenceNumber),
            drop_of_slice (Nat.le_add_right _ _) (readI32At_iff.mp hbodyLength),
            drop_of_slice (Nat.le_add_right _ _) hinner]

theorem exists_tree_of_scan {responseMessageId : Int64} {body : List UInt8} {s : ScanState}
    {outcome : RpcOutcome}
    (h : result (scanRpcBody clock requestMessageId responseMessageId body) s = .ok outcome) :
    ∃ tree : MessageTree, tree.Encodable ∧ tree.encode = body := by
  induction hn : body.length using Nat.strong_induction_on
    generalizing body responseMessageId s outcome with
  | _ n ih =>
      subst hn
      have hshort : ∀ inner, inner.length < body.length → ∀ responseMessageId s outcome,
          result (scanRpcBody clock requestMessageId responseMessageId inner) s = .ok outcome →
            ∃ tree : MessageTree, tree.Encodable ∧ tree.encode = inner :=
        fun inner hlt _ _ _ hinner ↦ ih inner.length hlt hinner rfl
      rw [scanRpcBody] at h
      obtain ⟨constructor, hconstructor, h⟩ := exists_of_orThrow_bind h
      split_ifs at h with hcontainer
      · obtain ⟨count, hcount, h⟩ := exists_of_orThrow_bind h
        obtain ⟨_, hrange, h⟩ := exists_of_orThrow_bind h
        have hrange' := ensure_eq_ok.mp hrange
        have hword := readI32At_iff.mp hcount
        obtain ⟨messages, hmessages, hall, hrest⟩ :=
          exists_messages_of_scanMessages hshort (le_length_of_slice hword) h
        refine ⟨.container messages, .container (by omega) (fun m hm ↦ (hall m hm).1)
          (fun m hm ↦ (hall m hm).2), ?_⟩
        have hstart := drop_of_slice (Nat.le_add_right _ _) (readU32At_iff.mp hconstructor)
        have hnumber := drop_of_slice (Nat.le_add_right _ _) hword
        rw [List.drop_zero, hcontainer, Nat.zero_add] at hstart
        rw [MessageTree.encode, hmessages, (ofNat_toNat_toInt hrange'.1).1, ← hrest, ← hnumber]
        exact hstart.symm
      · exact ⟨.service body, .service hconstructor hcontainer, rfl⟩

end Fabushi.TelegramNetwork
