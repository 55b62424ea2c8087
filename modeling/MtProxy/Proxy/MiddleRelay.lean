import MtProxy.MiddleProxy.Reader
import MtProxy.MiddleProxy.Wire
import MtProxy.Protocol.Constants

/-! `read_client_payload`: one frame off the decrypted client stream, in each of the three client
    framings, and what becomes of it on the shared Middle-End connection.

        Abridged      len/4 (1 byte, or 7f and 3 bytes)   payload
        Intermediate  len (4 bytes)                       payload
        Secure        len (4 bytes)                       payload, 0 to 3 bytes of padding -/

namespace MtProxy.Proxy
open Schemes MtProxy.Stream MiddleProxy Crypto

/-- The decrypted client stream: the bytes still to come, and the error it ends with; `none` is a
    plain end of file. -/
structure ClientStream where
  bytes : List UInt8
  fault : Option IoError
  deriving DecidableEq

def ClientStream.readExact (s : ClientStream) (n : ℕ) : Except IoError (List UInt8 × ClientStream) :=
  if n ≤ s.bytes.length then .ok (s.bytes.take n, { s with bytes := s.bytes.drop n })
  else match s.fault with
    | none => .error ⟨.unexpectedEof, "early eof"⟩
    | some e => .error e

/-- The first read of a frame, where an end of file means that the client is done. -/
def ClientStream.readFirst (s : ClientStream) (n : ℕ) :
    Except ProxyError (Option (List UInt8 × ClientStream)) :=
  match s.readExact n with
  | .ok r => .ok (some r)
  | .error e => if e.kind = .unexpectedEof then .ok none else .error (.io e)

/-- The length on the wire, in bytes, the quick-ack bit and the stream behind the header. -/
def readFrameLen (protoTag : ProtoTag) (s : ClientStream) :
    Except ProxyError (Option (ℕ × Bool × ClientStream)) :=
  match protoTag with
  | .abridged =>
    match s.readFirst 1 with
    | .error e => .error e
    | .ok none => .ok none
    | .ok (some (first, s)) =>
      let b := first.getD 0 0
      let quickack := b &&& 0x80 ≠ 0
      let lenWords : Except ProxyError (ℕ × ClientStream) :=
        if b &&& 0x7f = 0x7f then
          match s.readExact 3 with
          | .ok (ext, s) => .ok (leVal ext, s)
          | .error e => .error (.io e)
        else .ok ((b &&& 0x7f).toNat, s)
      match lenWords with
      | .error e => .error e
      | .ok (words, s) =>
        if usizeMax < words * 4 then .error (.proxy "Abridged frame length overflow")
        else .ok (some (words * 4, quickack, s))
  | .intermediate | .secure =>
    match s.readFirst 4 with
    | .error e => .error e
    | .ok none => .ok none
    | .ok (some (lenBuf, s)) =>
      .ok (some ((u32Val lenBuf &&& 0x7fffffff).toNat, lenBuf.getD 3 0 &&& 0x80 ≠ 0, s))

theorem readExact_ok {s s' : ClientStream} {n : ℕ} {bs : List UInt8}
    (h : s.readExact n = .ok (bs, s')) :
    n ≤ s.bytes.length ∧ bs.length = n ∧ s'.bytes.length = s.bytes.length - n := by
  unfold ClientStream.readExact at h
  split_ifs at h with hle
  · cases h
    exact ⟨hle, by rw [List.length_take]; omega, List.length_drop⟩
  · cases hf : s.fault <;> simp [hf] at h

theorem readFirst_some {s s' : ClientStream} {n : ℕ} {bs : List UInt8}
    (h : s.readFirst n = .ok (some (bs, s'))) : s.readExact n = .ok (bs, s') := by
  unfold ClientStream.readFirst at h
  cases hr : s.readExact n with
  | ok r =>
    simp only [hr] at h
    rw [Option.some.inj (Except.ok.inj h)]
  | error e =>
    simp only [hr] at h
    split_ifs at h
    cases h

/-- Every header takes bytes off the stream, and an Abridged one announces whole words. -/
theorem readFrameLen_some {protoTag : ProtoTag} {s s' : ClientStream} {len : ℕ} {quickack : Bool}
    (h : readFrameLen protoTag s = .ok (some (len, quickack, s'))) :
    s'.bytes.length < s.bytes.length ∧ (protoTag = .abridged → 4 ∣ len) := by
  cases protoTag with
  | abridged =>
    simp only [readFrameLen] at h
    rcases hr : s.readFirst 1 with e | _ | ⟨first, t⟩
    · simp [hr] at h
    · simp [hr] at h
    · obtain ⟨h1, -, h2⟩ := readExact_ok (readFirst_some hr)
      simp only [hr] at h
      split at h
      · cases h
      · rename_i words u hwords
        split_ifs at h
        obtain ⟨rfl, -, rfl⟩ : words * 4 = len ∧ _ ∧ u = s' := by simpa using h
        refine ⟨?_, fun _ => ⟨words, by omega⟩⟩
        split_ifs at hwords
        · cases he : t.readExact 3 with
          | error e => simp [he] at hwords
          | ok r =>
            obtain ⟨-, -, h3⟩ := readExact_ok he
            simp only [he] at hwords
            cases hwords
            omega
        · cases hwords
          omega
  | intermediate | secure =>
    simp only [readFrameLen] at h
    rcases hr : s.readFirst 4 with e | _ | ⟨lenBuf, t⟩ <;> simp only [hr] at h
    · cases h
    · cases h
    · cases h
      obtain ⟨h1, -, h2⟩ := readExact_ok (readFirst_some hr)
      exact ⟨by omega, fun h => by cases h⟩

/-- The part of `RelayForensicsState` that the errors show. -/
structure RelayForensicsState where
  traceId : UInt64
  connId : UInt64

/-- `{:016x}`. -/
def hex16 (n : UInt64) : String :=
  let digits := Nat.toDigits 16 n.toNat
  String.ofList (List.replicate (16 - digits.length) '0' ++ digits)

def reportDesyncFrameTooLarge (state : RelayForensicsState) (frameCounter : UInt64)
    (maxFrame len : ℕ) : ProxyError :=
  .proxy (s!"Frame too large: {len} (max {maxFrame}), frames_ok={frameCounter}, " ++
    s!"conn_id={state.connId}, trace_id=0x{hex16 state.traceId}")

/-- A payload, its quick-ack bit and what is left of the stream. -/
structure ClientFrame where
  payload : List UInt8
  quickack : Bool
  rest : ClientStream
  frameCounter : UInt64
  deriving DecidableEq

section
variable (protoTag : ProtoTag) (maxFrame : ℕ) (forensics : RelayForensicsState)
  (frameCounter : UInt64)

/-- The payload behind a header that announced `len` bytes. -/
def readFramePayload (len : ℕ) (quickack : Bool) (s : ClientStream) :
    Except ProxyError (Option ClientFrame) :=
  if len < 4 ∧ protoTag ≠ .abridged then .error (.proxy s!"Frame too small: {len}")
  else if maxFrame < len then
    .error (reportDesyncFrameTooLarge forensics frameCounter maxFrame len)
  else
    let payloadLen := if protoTag = .secure then securePayloadLenFromWireLen len else some len
    match payloadLen with
    | none => .error (.proxy s!"Invalid secure frame length: {len}")
    | some payloadLen =>
      match s.readExact len with
      | .error e => .error (.io e)
      | .ok (payload, s) =>
        .ok (some ⟨if protoTag = .secure then payload.take payloadLen else payload, quickack, s,
          frameCounter + 1⟩)

/-- One round of the loop: a header, and unless it announces nothing, the payload. -/
def readClientStep (s : ClientStream) : ClientStream ⊕ Except ProxyError (Option ClientFrame) :=
  match readFrameLen protoTag s with
  | .error e => .inr (.error e)
  | .ok none => .inr (.ok none)
  | .ok (some (len, quickack, s)) =>
    if len = 0 then .inl s
    else .inr (readFramePayload protoTag maxFrame forensics frameCounter len quickack s)

theorem readClientStep_lt {s s' : ClientStream}
    (h : readClientStep protoTag maxFrame forensics frameCounter s = .inl s') :
    s'.bytes.length < s.bytes.length := by
  unfold readClientStep at h
  rcases hr : readFrameLen protoTag s with e | _ | ⟨len, quickack, t⟩ <;> simp only [hr] at h
  · cases h
  · cases h
  · split_ifs at h
    cases h
    exact (readFrameLen_some hr).1

def readClientPayload (s : ClientStream) : Except ProxyError (Option ClientFrame) :=
  loop (readClientStep protoTag maxFrame forensics frameCounter) (fun s => s.bytes.length)
    (fun _ _ => readClientStep_lt protoTag maxFrame forensics frameCounter) s

end

/-! ### The announced length -/

/-- One header of the stream: an empty frame is skipped, any other gives its length. -/
def announceStep (protoTag : ProtoTag) (s : ClientStream) : ClientStream ⊕ Option ℕ :=
  match readFrameLen protoTag s with
  | .ok (some (len, _, s)) => if len = 0 then .inl s else .inr (some len)
  | _ => .inr none

theorem announceStep_lt {protoTag : ProtoTag} {s s' : ClientStream}
    (h : announceStep protoTag s = .inl s') : s'.bytes.length < s.bytes.length := by
  unfold announceStep at h
  rcases hr : readFrameLen protoTag s with e | _ | ⟨len, quickack, t⟩ <;> simp only [hr] at h
  · cases h
  · cases h
  · split_ifs at h
    cases h
    exact (readFrameLen_some hr).1

/-- The length that the first non-empty frame header of a client stream announces. -/
def announcedLen (protoTag : ProtoTag) (s : ClientStream) : Option ℕ :=
  loop (announceStep protoTag) (fun s => s.bytes.length) (fun _ _ => announceStep_lt) s

/-- How many bytes of a frame of `len` bytes are payload. -/
def dataLen (protoTag : ProtoTag) (len : ℕ) : ℕ :=
  if protoTag = .secure then len - len % 4 else len

section
variable {protoTag : ProtoTag} {maxFrame : ℕ} {forensics : RelayForensicsState}
  {frameCounter : UInt64} {s : ClientStream} {f : ClientFrame}

/-- What a payload that is handed out was read from. -/
theorem readFramePayload_inv {len : ℕ} {quickack : Bool}
    (h : readFramePayload protoTag maxFrame forensics frameCounter len quickack s = .ok (some f)) :
    ∃ payload t, s.readExact len = .ok (payload, t) ∧ f.rest = t ∧
      f.payload.length = dataLen protoTag len := by
  unfold readFramePayload at h
  rw [dataLen]
  cases hr : s.readExact len with
  | error e =>
    simp only [hr] at h
    split_ifs at h
    split at h <;> cases h
  | ok r =>
    obtain ⟨-, hlen, -⟩ := readExact_ok hr
    simp only [hr] at h
    split_ifs at h ⊢ with hsmall hlarge hsec
    · rw [securePayloadLenFromWireLen] at h
      split_ifs at h with h4
      cases h
      refine ⟨_, _, rfl, rfl, ?_⟩
      rw [List.length_take, hlen]
      omega
    · cases h
      exact ⟨_, _, rfl, rfl, hlen⟩

/-- An accepted payload is as long as the stream announced. -/
theorem readClientPayload_some
    (h : readClientPayload protoTag maxFrame forensics frameCounter s = .ok (some f)) :
    ∃ len, announcedLen protoTag s = some len ∧ (protoTag = .abridged → 4 ∣ len) ∧
      f.payload.length = dataLen protoTag len := by
  revert h
  refine loop_induct (readClientStep protoTag maxFrame forensics frameCounter)
    (fun s => s.bytes.length) _ (P := fun s b => b = .ok (some f) → ∃ len,
      announcedLen protoTag s = some len ∧ (protoTag = .abridged → 4 ∣ len) ∧
      f.payload.length = dataLen protoTag len) ?_ ?_ s
  · intro s b hb h
    subst h
    unfold readClientStep at hb
    rcases hr : readFrameLen protoTag s with e | _ | ⟨len, quickack, t⟩ <;> simp only [hr] at hb
    · cases hb
    · cases hb
    · split_ifs at hb with h0
      have hann : announceStep protoTag s = .inr (some len) := by
        simp only [announceStep, hr, if_neg h0]
      obtain ⟨-, -, -, -, hlen⟩ := readFramePayload_inv (Sum.inr.inj hb)
      exact ⟨len, loop_inr _ _ _ hann, (readFrameLen_some hr).2, hlen⟩
  · intro s s' b hs ih h
    unfold readClientStep at hs
    rcases hr : readFrameLen protoTag s with e | _ | ⟨len, quickack, t⟩ <;> simp only [hr] at hs
    · cases hs
    · cases hs
    · split_ifs at hs with h0
      obtain rfl := Sum.inl.inj hs
      have hann : announceStep protoTag s = .inl t := by
        simp only [announceStep, hr, if_pos h0]
      obtain ⟨len, hlen, hrest⟩ := ih h
      exact ⟨len, (loop_inl _ _ _ hann).trans hlen, hrest⟩

end

/-! ### The request on the shared connection -/

/-- A request keeps the connection in step: its frame is a whole number of words and not too long,
    and whatever is sent before and after it arrives with it. -/
structure KeepsFraming (aes : BlockCipher) (crc : RpcCrc) (mode : RpcChecksumMode)
    (req : List UInt8) : Prop where
  aligned : ∀ seqNo, 4 ∣ (buildRpcFrame crc seqNo req mode).length
  bounded : ∀ seqNo, (buildRpcFrame crc seqNo req mode).length ≤ 2 ^ 24
  others : ∀ before after, (∀ p ∈ before, Sendable p) → (∀ p ∈ after, Sendable p) →
    Delivered aes crc mode (before ++ req :: after)

theorem keepsFraming_iff (aes : BlockCipher) (crc : RpcCrc) (mode : RpcChecksumMode)
    (req : List UInt8) : KeepsFraming aes crc mode req ↔ Sendable req := by
  constructor
  · rintro ⟨haligned, hbounded, -⟩
    have h4 := haligned 0
    have hle := hbounded 0
    rw [length_buildRpcFrame] at h4 hle
    exact ⟨by omega, by rw [maxFrameLen]; omega⟩
  · rintro ⟨h4, hle⟩
    refine ⟨fun seqNo => ?_, fun seqNo => ?_, fun before after hb ha => ?_⟩
    · rw [length_buildRpcFrame]
      omega
    · rw [length_buildRpcFrame]
      rw [maxFrameLen] at hle
      omega
    · refine delivered_of_sendable aes crc mode fun p hp => ?_
      rcases List.mem_append.mp hp with hp | hp
      · exact hb p hp
      · rcases List.mem_cons.mp hp with rfl | hp
        · exact ⟨h4, hle⟩
        · exact ha p hp

/-- An accepted client payload keeps the shared connection in step exactly if the client announced
    whole words, which only the Intermediate framing leaves to it, and the request around the
    payload fits a frame. -/
theorem client_frame_keeps_framing_iff (aes : BlockCipher) (crc : RpcCrc) (mode : RpcChecksumMode)
    (protoTag : ProtoTag) (maxFrame : ℕ) (forensics : RelayForensicsState) (frameCounter : UInt64)
    (s : ClientStream) (f : ClientFrame) (connId : UInt64) (clientAddr ourAddr : SocketAddr)
    (proxyTag : Option (List UInt8)) (protoFlags : UInt32)
    (htag : ∀ t ∈ proxyTag, t.length = 16)
    (haccept : readClientPayload protoTag maxFrame forensics frameCounter s = .ok (some f)) :
    KeepsFraming aes crc mode
        (buildProxyReqPayload connId clientAddr ourAddr f.payload proxyTag protoFlags) ↔
      ∃ len, announcedLen protoTag s = some len ∧ (protoTag = .intermediate → 4 ∣ len) ∧
        68 + extraLen protoFlags proxyTag + dataLen protoTag len ≤ 2 ^ 24 := by
  obtain ⟨len, hann, habr, hlen⟩ := readClientPayload_some haccept
  rw [keepsFraming_iff, Sendable, length_buildProxyReqPayload connId clientAddr ourAddr f.payload
    protoFlags htag, hlen]
  have hextra : 4 ∣ extraLen protoFlags proxyTag := by
    unfold extraLen
    split_ifs <;> decide
  simp only [hann, Option.some.injEq, maxFrameLen]
  cases protoTag with
  | abridged =>
    have := habr rfl
    simp [dataLen]
    omega
  | intermediate =>
    simp [dataLen]
    omega
  | secure =>
    simp [dataLen]
    omega

/-- A Secure frame of five bytes, one of them padding. -/
theorem secure_frame_keeps_framing :
    let aes : BlockCipher := ⟨fun _ b => b, fun _ b => b, fun _ _ => rfl⟩
    let crc : RpcCrc := fun _ bs => UInt32.ofNat bs.length
    let addr : SocketAddr := ⟨.v4 ⟨[127, 0, 0, 1], rfl⟩, 443⟩
    KeepsFraming aes crc .crc32 (buildProxyReqPayload 7 addr addr [1, 2, 3, 4] none 0x28021000) := by
  intro aes crc addr
  refine (client_frame_keeps_framing_iff aes crc .crc32 .secure 16777216 ⟨0, 7⟩ 0
    ⟨[5, 0, 0, 0, 1, 2, 3, 4, 5], none⟩ ⟨[1, 2, 3, 4], false, ⟨[], none⟩, 1⟩ 7 addr addr none
    0x28021000 (by simp) (by decide +kernel)).mpr ⟨5, by decide +kernel, by simp, by decide⟩

/-- An Intermediate frame of five bytes is accepted; its request is not a whole number of words, and
    the deframer loses the request of another client behind it. -/
theorem odd_intermediate_frame_breaks_framing :
    let aes : BlockCipher := ⟨fun _ b => b, fun _ b => b, fun _ _ => rfl⟩
    let crc : RpcCrc := fun _ bs => UInt32.ofNat bs.length
    let addr : SocketAddr := ⟨.v4 ⟨[127, 0, 0, 1], rfl⟩, 443⟩
    let req := buildProxyReqPayload 7 addr addr [1, 2, 3, 4, 5] none 0x20021000
    let other := buildProxyReqPayload 8 addr addr [1, 2, 3, 4] none 0x20021000
    readClientPayload .intermediate 16777216 ⟨0, 7⟩ 0 ⟨[5, 0, 0, 0, 1, 2, 3, 4, 5], none⟩ =
        .ok (some ⟨[1, 2, 3, 4, 5], false, ⟨[], none⟩, 1⟩) ∧
      ¬ KeepsFraming aes crc .crc32 req ∧
      (deframe crc .crc32 true ⟨framesFrom crc .crc32 0 [req, other], 0, []⟩).2.log =
        [.payload req, .invalidLen 0x48000004] := by
  intro aes crc addr req other
  refine ⟨by decide +kernel, fun h => ?_, by decide +kernel⟩
  have hmod := ((keepsFraming_iff aes crc .crc32 req).mp h).1
  exact absurd hmod (by decide +kernel)

end MtProxy.Proxy
