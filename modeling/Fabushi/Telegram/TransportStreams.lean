import Fabushi.Library.Incremental
import Fabushi.Telegram.Transport

/-!
# Decoding a stream

Whatever the reads of a connection make of a stream, the frames decoded from it are the
same: a frame or an error stands once it is there, and only what is still undecided
waits for the next read.
-/

namespace Fabushi.Telegram

open Incremental Radix Result Wire

variable {crc32 : List UInt8 → UInt32}

namespace TransportFrameCodec

/-! ## Stable decoders -/

theorem settled_decodeFull (codec : TransportFrameCodec) : Settled (codec.decodeFull crc32) := by
  refine settled_slice 0 4 fun lengthBytes ↦ ?_
  refine settled_bind fun _ ↦ settled_bind fun _ ↦ ?_
  exact settled_slice 0 _ fun frame ↦ settled_const _

theorem settled_abridgedPayload (codec : TransportFrameCodec) (words headerLength : ℕ) :
    Settled fun input ↦ codec.abridgedPayload input words headerLength := by
  refine settled_bind fun _ ↦ settled_bind fun consumedBytes ↦ ?_
  exact settled_slice headerLength consumedBytes fun payload ↦ settled_const _

theorem settled_decodeAbridged (codec : TransportFrameCodec) : Settled codec.decodeAbridged := by
  refine settled_slice 0 1 fun head ↦ ?_
  refine settled_ite (settled_slice 0 4 fun _ ↦ settled_const _) ?_
  refine settled_ite (settled_abridgedPayload codec _ _) ?_
  exact settled_slice 1 4 fun _ ↦ settled_abridgedPayload codec _ _

theorem settled_decodeIntermediate (codec : TransportFrameCodec) :
    Settled codec.decodeIntermediate := by
  refine settled_slice 0 4 fun lengthBytes ↦ ?_
  refine settled_ite (settled_const _) ?_
  refine settled_bind fun _ ↦ settled_bind fun consumedBytes ↦ ?_
  exact settled_slice 4 consumedBytes fun _ ↦ settled_const _

theorem settled_decode (codec : TransportFrameCodec) : Settled (codec.decode crc32) := by
  unfold decode
  cases codec.mode with
  | full => exact settled_decodeFull codec
  | abridged => exact settled_decodeAbridged codec
  | intermediate => exact settled_decodeIntermediate codec
  | paddedIntermediate => exact settled_decodeIntermediate codec

def Sized (input : List UInt8) (r : Except TransportError (Option DecodedFrame)) : Prop :=
  ∀ frame, r = .ok (some frame) → 0 < frame.consumedBytes ∧ frame.consumedBytes ≤ input.length

variable {input : List UInt8}

theorem sized_decodeFull (codec : TransportFrameCodec) : Sized input (codec.decodeFull crc32 input) := by
  intro frame h
  unfold decodeFull at h
  split at h
  · cases h
  · rename_i lengthBytes hlength
    obtain ⟨_, hoverhead, h⟩ := bind_eq_ok.mp h
    obtain ⟨_, -, h⟩ := bind_eq_ok.mp h
    rw [ensure_eq_ok] at hoverhead
    split at h
    · cases h
    · rename_i bytes hbytes
      obtain ⟨frame', hopen, h⟩ := bind_eq_ok.mp h
      obtain rfl := Option.some.inj (Except.ok.inj h)
      obtain ⟨_, -, hopen⟩ := bind_eq_ok.mp hopen
      obtain rfl := Except.ok.inj hopen
      have hsize := length_of_slice hbytes
      have hle := le_length_of_slice hbytes
      unfold fullFrameOverhead at hoverhead
      dsimp only
      omega

theorem sized_abridgedPayload (codec : TransportFrameCodec) (words : ℕ) {headerLength : ℕ}
    (hheader : 0 < headerLength) :
    Sized input (codec.abridgedPayload input words headerLength) := by
  intro frame h
  obtain ⟨_, -, h⟩ := bind_eq_ok.mp h
  obtain ⟨consumedBytes, hconsumed, h⟩ := bind_eq_ok.mp h
  have hsum : consumedBytes = headerLength + words * 4 := by
    rw [okOr_eq_ok, checkedAddUsize] at hconsumed
    split at hconsumed
    · exact (Option.some.inj hconsumed).symm
    · cases hconsumed
  split at h
  · cases h
  · rename_i payload hpayload
    obtain rfl := Option.some.inj (Except.ok.inj h)
    have hle := le_length_of_slice hpayload
    dsimp only
    omega

theorem sized_decodeAbridged (codec : TransportFrameCodec) :
    Sized input (codec.decodeAbridged input) := by
  unfold decodeAbridged
  split
  · intro frame h
    cases h
  · dsimp only
    split_ifs
    · split
      · intro frame h
        cases h
      · rename_i tokenBytes htoken
        intro frame h
        obtain rfl := Option.some.inj (Except.ok.inj h)
        exact ⟨Nat.zero_lt_succ _, le_length_of_slice htoken⟩
    · exact sized_abridgedPayload codec _ Nat.one_pos
    · split
      · intro frame h
        cases h
      · exact sized_abridgedPayload codec _ (Nat.zero_lt_succ _)

theorem consumedBytes_openIntermediate (mode : TransportMode) (payload : List UInt8) :
    (openIntermediate mode payload).consumedBytes = 4 + payload.length := by
  unfold openIntermediate
  split <;> rfl

theorem sized_decodeIntermediate (codec : TransportFrameCodec) :
    Sized input (codec.decodeIntermediate input) := by
  intro frame h
  unfold decodeIntermediate at h
  split at h
  · cases h
  · rename_i lengthBytes hlength
    dsimp only at h
    split_ifs at h
    · obtain rfl := Option.some.inj (Except.ok.inj h)
      exact ⟨Nat.zero_lt_succ _, le_length_of_slice hlength⟩
    · obtain ⟨_, -, h⟩ := bind_eq_ok.mp h
      obtain ⟨consumedBytes, -, h⟩ := bind_eq_ok.mp h
      split at h
      · cases h
      · rename_i payload hpayload
        obtain rfl := Option.some.inj (Except.ok.inj h)
        have hsize := length_of_slice hpayload
        have hle := le_length_of_slice hpayload
        have hheader := le_length_of_slice hlength
        rw [consumedBytes_openIntermediate]
        omega

theorem sized_decode (codec : TransportFrameCodec) : Sized input (codec.decode crc32 input) := by
  unfold decode
  cases codec.mode with
  | full => exact sized_decodeFull codec
  | abridged => exact sized_decodeAbridged codec
  | intermediate => exact sized_decodeIntermediate codec
  | paddedIntermediate => exact sized_decodeIntermediate codec

theorem stable_decode (crc32 : List UInt8 → UInt32) (codec : TransportFrameCodec) :
    Stable (codec.decode crc32) DecodedFrame.consumedBytes where
  settled := settled_decode codec
  size_pos _ frame h := (sized_decode codec frame h).1
  size_le _ frame h := (sized_decode codec frame h).2

end TransportFrameCodec

/-! ## The transport over a connection -/

inductive NetworkError where
  | transport (error : TransportError)
  | connectionClosed
  deriving DecidableEq

structure TcpTransport where
  codec : TransportFrameCodec
  readBuffer : List UInt8 := []
  reads : List (List UInt8)

namespace TcpTransport

/-- The bytes that have come and will come, and the reads that are left. -/
def work (transport : TcpTransport) : ℕ :=
  transport.readBuffer.length + transport.reads.flatten.length + transport.reads.length

variable (crc32)

def receivePayload (transport : TcpTransport) : Except NetworkError (List UInt8) × TcpTransport :=
  match _hdecode : transport.codec.decode crc32 transport.readBuffer with
  | .error e => (.error (.transport e), transport)
  | .ok (some frame) =>
      let drained :=
        { transport with readBuffer := transport.readBuffer.drop frame.consumedBytes }
      if frame.quickAckToken.isSome then receivePayload drained else (.ok frame.payload, drained)
  | .ok none =>
      match _hreads : transport.reads with
      | [] => (.error .connectionClosed, transport)
      | chunk :: reads =>
          if chunk = [] then (.error .connectionClosed, { transport with reads })
          else receivePayload
            { transport with readBuffer := transport.readBuffer ++ chunk, reads := reads }
termination_by transport.work
decreasing_by
  · have hsized := TransportFrameCodec.sized_decode _ frame _hdecode
    dsimp only [work]
    rw [List.length_drop]
    omega
  · dsimp only [work]
    rw [_hreads, List.length_append, List.flatten_cons, List.length_append, List.length_cons]
    omega

inductive Receives : TcpTransport → List (List UInt8) → NetworkError → Prop where
  | fails {transport : TcpTransport} {e : NetworkError}
      (h : (receivePayload crc32 transport).1 = .error e) : Receives transport [] e
  | takes {transport : TcpTransport} {payload : List UInt8} {payloads : List (List UInt8)}
      {e : NetworkError} (h : (receivePayload crc32 transport).1 = .ok payload)
      (hrest : Receives (receivePayload crc32 transport).2 payloads e) :
      Receives transport (payload :: payloads) e

variable {crc32} {transport : TcpTransport}

def drained (transport : TcpTransport) (frame : DecodedFrame) : TcpTransport :=
  { transport with readBuffer := transport.readBuffer.drop frame.consumedBytes }

theorem receivePayload_error {e : TransportError}
    (h : transport.codec.decode crc32 transport.readBuffer = .error e) :
    receivePayload crc32 transport = (.error (.transport e), transport) := by
  rw [receivePayload]
  split
  · rename_i e' h'
    obtain rfl := Except.error.inj (h.symm.trans h')
    rfl
  · rename_i h'
    cases h.symm.trans h'
  · rename_i h'
    cases h.symm.trans h'

theorem receivePayload_frame {frame : DecodedFrame}
    (h : transport.codec.decode crc32 transport.readBuffer = .ok (some frame)) :
    receivePayload crc32 transport =
      if frame.quickAckToken.isSome then receivePayload crc32 (transport.drained frame)
      else (.ok frame.payload, transport.drained frame) := by
  rw [receivePayload]
  split
  · rename_i h'
    cases h.symm.trans h'
  · rename_i frame' h'
    obtain rfl := Option.some.inj (Except.ok.inj (h.symm.trans h'))
    rfl
  · rename_i h'
    cases h.symm.trans h'

theorem receivePayload_wait (h : transport.codec.decode crc32 transport.readBuffer = .ok none) :
    receivePayload crc32 transport =
      match transport.reads with
      | [] => (.error .connectionClosed, transport)
      | chunk :: reads =>
          if chunk = [] then (.error .connectionClosed, { transport with reads })
          else receivePayload crc32
            { transport with readBuffer := transport.readBuffer ++ chunk, reads := reads } := by
  rw [receivePayload]
  split
  · rename_i h'
    cases h.symm.trans h'
  · rename_i h'
    cases h.symm.trans h'
  · split <;> simp_all

theorem Receives.congr {transport' : TcpTransport} {payloads : List (List UInt8)}
    {e : NetworkError} (heq : receivePayload crc32 transport = receivePayload crc32 transport')
    (h : Receives crc32 transport' payloads e) : Receives crc32 transport payloads e := by
  cases h with
  | fails h => exact .fails (heq ▸ h)
  | takes h hrest =>
      rw [← heq] at h hrest
      exact .takes h hrest

end TcpTransport

def payloads (frames : List DecodedFrame) : List (List UInt8) :=
  (frames.filter fun frame ↦ frame.quickAckToken.isNone).map DecodedFrame.payload

def ending : Except TransportError (List UInt8) → NetworkError
  | .error e => .transport e
  | .ok _ => .connectionClosed

theorem TcpTransport.receives_of_drains {transport : TcpTransport} {frames : List DecodedFrame}
    {r : Except TransportError (List UInt8)} (hreads : ∀ chunk ∈ transport.reads, chunk ≠ [])
    (h : Drains (transport.codec.decode crc32) DecodedFrame.consumedBytes
      (transport.readBuffer ++ transport.reads.flatten) frames r) :
    Receives crc32 transport (payloads frames) (ending r) := by
  have hstable := TransportFrameCodec.stable_decode crc32 transport.codec
  induction hwork : transport.work using Nat.strong_induction_on generalizing transport frames with
  | _ work ih =>
      cases hdecode : transport.codec.decode crc32 transport.readBuffer with
      | error e =>
          have hfails := (Drains.fails hdecode).append_of_fails hstable transport.reads.flatten
          obtain ⟨rfl, rfl⟩ := h.unique hfails
          exact .fails (by rw [receivePayload_error hdecode]; rfl)
      | ok decoded =>
          cases decoded with
          | some frame =>
              have hsized := TransportFrameCodec.sized_decode transport.codec frame hdecode
              have hwhole : transport.codec.decode crc32
                  (transport.readBuffer ++ transport.reads.flatten) = .ok (some frame) := by
                rw [hstable.settled _ (by simp [hdecode]), hdecode]
              have hless : (transport.drained frame).work < work := by
                rw [← hwork]
                dsimp only [drained, TcpTransport.work]
                rw [List.length_drop]
                omega
              cases h with
              | waits h => cases h.symm.trans hwhole
              | fails h => cases h.symm.trans hwhole
              | @takes _ frame' frames _ h hrest =>
                  obtain rfl := Option.some.inj (Except.ok.inj (h.symm.trans hwhole))
                  rw [List.drop_append_of_le_length hsized.2] at hrest
                  have hreceives : Receives crc32 (transport.drained frame') (payloads frames) _ :=
                    ih _ hless hreads hrest hstable rfl
                  by_cases hack : frame'.quickAckToken.isSome
                  · have hskip : payloads (frame' :: frames) = payloads frames := by
                      rw [payloads, List.filter_cons_of_neg (by simpa [Option.isSome_iff_ne_none] using hack)]
                      rfl
                    rw [hskip]
                    refine hreceives.congr ?_
                    rw [receivePayload_frame hdecode, if_pos hack]
                  · have htake : payloads (frame' :: frames) = frame'.payload :: payloads frames := by
                      rw [payloads, List.filter_cons_of_pos (by simpa using hack)]
                      rfl
                    have hnext : receivePayload crc32 transport =
                        (.ok frame'.payload, transport.drained frame') := by
                      rw [receivePayload_frame hdecode, if_neg hack]
                    rw [htake]
                    refine .takes (by rw [hnext]) ?_
                    rw [hnext]
                    exact hreceives
          | none =>
              have hnext := receivePayload_wait hdecode
              cases hchunks : transport.reads with
              | nil =>
                  rw [hchunks, List.flatten_nil, List.append_nil] at h
                  obtain ⟨rfl, rfl⟩ := h.unique (.waits hdecode)
                  rw [hchunks] at hnext
                  exact .fails (by rw [hnext]; rfl)
              | cons chunk reads =>
                  rw [hchunks] at hnext hreads
                  dsimp only at hnext
                  rw [if_neg (hreads chunk List.mem_cons_self)] at hnext
                  rw [hchunks, List.flatten_cons, ← List.append_assoc] at h
                  refine Receives.congr hnext ?_
                  refine ih _ ?_ (fun c hc ↦ hreads c (List.mem_cons_of_mem _ hc)) h hstable rfl
                  rw [← hwork]
                  dsimp only [TcpTransport.work]
                  rw [hchunks, List.length_append, List.flatten_cons, List.length_append,
                    List.length_cons]
                  omega

/-- A frame or an error stands once it is there, and a stream gives the same frames and
the same payloads however it is cut into reads. -/
theorem decode_independent_of_reads (crc32 : List UInt8 → UInt32) (codec : TransportFrameCodec) :
    (∀ input more : List UInt8,
      (∀ frame, codec.decode crc32 input = .ok (some frame) →
        codec.decode crc32 (input ++ more) = .ok (some frame)) ∧
      ∀ e, codec.decode crc32 input = .error e → codec.decode crc32 (input ++ more) = .error e) ∧
    ∀ stream : List UInt8, ∃ frames r,
      (∀ reads : List (List UInt8), reads.flatten = stream →
        Feeds (codec.decode crc32) DecodedFrame.consumedBytes [] reads frames r) ∧
      ∀ reads : List (List UInt8), reads.flatten = stream → (∀ chunk ∈ reads, chunk ≠ []) →
        TcpTransport.Receives crc32 { codec, reads } (payloads frames) (ending r) := by
  have hstable := TransportFrameCodec.stable_decode crc32 codec
  refine ⟨fun input more ↦ ⟨fun frame h ↦ ?_, fun e h ↦ ?_⟩, fun stream ↦ ?_⟩
  · rw [hstable.settled input (by simp [h]), h]
  · rw [hstable.settled input (by simp [h]), h]
  · obtain ⟨frames, r, hdrains⟩ := exists_drains hstable stream
    refine ⟨frames, r, fun reads hflatten ↦ ?_, fun reads hflatten hreads ↦ ?_⟩
    · apply feeds_of_drains hstable
      rwa [List.nil_append, hflatten]
    · apply TcpTransport.receives_of_drains hreads
      rwa [List.nil_append, hflatten]

end Fabushi.Telegram
