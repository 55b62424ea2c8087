import MtProxy.Proxy.MiddleRelay
import MtProxy.Stream.FrameRoundTrip

/-! The relay's own framing code against `FrameCodec`: `write_client_payload` against `encode`, and
    `read_client_payload` called again and again against `decode`.

        ME ──▶ write_client_payload ──▶ client        bytes of FrameCodec::encode
        client ──▶ read_client_payload ──▶ ME         frames of FrameCodec::decode, empty ones dropped

    Both sides are compared with the format of `IsHeader`. The one framing in which the two halves
    of the format do not fit together is Secure: an empty payload is padded to one to three bytes,
    and a frame of less than four bytes is refused. -/

namespace MtProxy.Proxy
open Schemes MtProxy.Stream MiddleProxy FrameCodec

def rpcFlagQuickack : UInt32 := 0x80000000

/-! ### Towards the client -/

section
variable {W : Type} (writeAll : W → List UInt8 → Except IoError Unit × W)

/-- `frame_buf` is handed to `write_all`; the result, the writer and the buffer. -/
def sendFrame (clientWriter : W) (frameBuf : List UInt8) : Except ProxyError Unit × W × List UInt8 :=
  ((writeAll clientWriter frameBuf).1.mapError ProxyError.io, (writeAll clientWriter frameBuf).2,
    frameBuf)

def writeClientPayload (clientWriter : W) (protoTag : ProtoTag) (flags : UInt32) (data : List UInt8)
    (rng : SecureRandom) (frameBuf : List UInt8) : Except ProxyError Unit × W × List UInt8 :=
  let quickack := flags &&& rpcFlagQuickack ≠ 0
  let len := data.length
  match protoTag with
  | .abridged =>
    if len % 4 ≠ 0 then
      (.error (.proxy s!"Abridged payload must be 4-byte aligned, got {len}"), clientWriter, frameBuf)
    else
      let lenWords := len / 4
      if lenWords < 0x7f then
        let first := UInt8.ofNat lenWords
        let first := if quickack then first ||| 0x80 else first
        sendFrame writeAll clientWriter (first :: data)
      else if lenWords < 16777216 then
        let first : UInt8 := 0x7f
        let first := if quickack then first ||| 0x80 else first
        sendFrame writeAll clientWriter (first :: (leBytes 4 lenWords).take 3 ++ data)
      else (.error (.proxy s!"Abridged frame too large: {len}"), clientWriter, frameBuf)
  | .intermediate | .secure =>
    if protoTag = .secure ∧ isValidSecurePayloadLen len = false then
      (.error (.proxy s!"Secure payload must be 4-byte aligned, got {len}"), clientWriter, frameBuf)
    else
      let paddingLen := if protoTag = .secure then securePaddingLen rng else 0
      let lenVal := UInt32.ofNat (len + paddingLen)
      let lenVal := if quickack then lenVal ||| 0x80000000 else lenVal
      let frameBuf := leBytes 4 lenVal.toNat ++ data
      sendFrame writeAll clientWriter
        (if 0 < paddingLen then frameBuf ++ rng.bytes paddingLen else frameBuf)

/-- The frame that `FrameCodec` would be given for the same answer. -/
def answerFrame (flags : UInt32) (data : List UInt8) : Stream.Frame :=
  ⟨data, { quickack := decide (flags &&& rpcFlagQuickack ≠ 0) }⟩

theorem writeClientPayload_ok {protoTag : ProtoTag} {data : List UInt8}
    (h : Encodable protoTag data.length) (clientWriter : W) (flags : UInt32) (rng : SecureRandom)
    (frameBuf : List UInt8) :
    writeClientPayload writeAll clientWriter protoTag flags data rng frameBuf =
      sendFrame writeAll clientWriter
        (encoded protoTag rng data (decide (flags &&& rpcFlagQuickack ≠ 0))) := by
  cases protoTag with
  | abridged =>
    have h4 : ¬ data.length % 4 ≠ 0 := by
      rw [not_not]
      exact Nat.mod_eq_zero_of_dvd h.1
    have hlong : data.length / 4 < 16777216 := h.2
    by_cases hshort : data.length / 4 < 0x7f
    · simp [writeClientPayload, h4, hshort, encoded, encodedHeader, padding]
    · simp [writeClientPayload, h4, hshort, hlong, encoded, encodedHeader, padding]
  | intermediate => simp [writeClientPayload, encoded, encodedHeader, padding, wordBytes]
  | secure =>
    have h4 := isValidSecurePayloadLen_iff.mpr h
    simp [writeClientPayload, h4, encoded, encodedHeader, padding, wordBytes, securePaddingLen_pos,
      rng.length_bytes]

theorem writeClientPayload_error {protoTag : ProtoTag} {data : List UInt8}
    (h : ¬ Encodable protoTag data.length) (clientWriter : W) (flags : UInt32) (rng : SecureRandom)
    (frameBuf : List UInt8) :
    ∃ message, writeClientPayload writeAll clientWriter protoTag flags data rng frameBuf =
      (.error (.proxy message), clientWriter, frameBuf) := by
  cases protoTag with
  | abridged =>
    by_cases h4 : data.length % 4 ≠ 0
    · exact ⟨_, by simp only [writeClientPayload, if_pos h4]; rfl⟩
    · have hlarge : ¬ data.length / 4 < 16777216 := by
        intro hlt
        exact h ⟨Nat.dvd_of_mod_eq_zero (not_not.mp h4), hlt⟩
      have hshort : ¬ data.length / 4 < 0x7f := by omega
      simp only [writeClientPayload, if_neg h4, if_neg hshort, if_neg hlarge]
      exact ⟨_, rfl⟩
  | intermediate => exact absurd trivial h
  | secure =>
    have h4 : isValidSecurePayloadLen data.length = false := by
      rw [Bool.eq_false_iff]
      exact fun hv => h (isValidSecurePayloadLen_iff.mp hv)
    simp only [writeClientPayload, h4, and_self, if_true]
    exact ⟨_, rfl⟩

end

/-! ### From the client -/

/-- The stream `bytes`, ended by the client. -/
def closedAfter (bytes : List UInt8) : ClientStream := ⟨bytes, none⟩

theorem readExact_prefix (hdr s : List UInt8) (fault : Option IoError) :
    (⟨hdr ++ s, fault⟩ : ClientStream).readExact hdr.length = .ok (hdr, ⟨s, fault⟩) := by
  simp [ClientStream.readExact]

theorem readExact_append (hdr s : List UInt8) :
    (closedAfter (hdr ++ s)).readExact hdr.length = .ok (hdr, closedAfter s) :=
  readExact_prefix hdr s none

theorem readFirst_prefix (hdr s : List UInt8) (fault : Option IoError) :
    (⟨hdr ++ s, fault⟩ : ClientStream).readFirst hdr.length = .ok (some (hdr, ⟨s, fault⟩)) := by
  rw [ClientStream.readFirst, readExact_prefix]

/-- The highest bit of a 4-byte header is the highest bit of its last byte. -/
theorem word_flag {hdr : List UInt8} (h : hdr.length = 4) :
    hdr.getD 3 0 &&& 0x80 ≠ 0 ↔ 2 ^ 31 ≤ leVal hdr := by
  match hdr, h with
  | [a, b, c, d], _ =>
    have ha := a.toNat_lt
    have hb := b.toNat_lt
    have hc := c.toNat_lt
    rw [and_flag8_ne_zero, UInt8.le_iff_toNat_le]
    simp only [List.getD_cons_succ, List.getD_cons_zero, leVal]
    change 128 ≤ d.toNat ↔ _
    omega

section
variable {tag : ProtoTag} {hdr : List UInt8} {quickack : Bool} {len : ℕ}

/-- The relay reads the same headers as the codec. -/
theorem readFrameLen_prefix (h : IsHeader tag hdr quickack len) (s : List UInt8)
    (fault : Option IoError) :
    readFrameLen tag ⟨hdr ++ s, fault⟩ = .ok (some (len, quickack, ⟨s, fault⟩)) := by
  cases h with
  | short b hb =>
    have hlt := toNat_and_flag8 b
    have hword : ¬ usizeMax < (b &&& 0x7f).toNat * 4 := by
      rw [usizeMax]
      omega
    have hfirst := readFirst_prefix [b] s fault
    rw [List.length_singleton] at hfirst
    simp only [readFrameLen, hfirst, List.getD_cons_zero, if_neg hb, if_neg hword]
    rw [decide_eq_decide.mpr (and_flag8_ne_zero b)]
  | @long b ext hb hext =>
    have hlt : leVal ext < 2 ^ 24 := leVal_lt_of_length hext
    have hword : ¬ usizeMax < leVal ext * 4 := by
      rw [usizeMax]
      omega
    have hfirst := readFirst_prefix [b] (ext ++ s) fault
    have hsecond := readExact_prefix ext s fault
    rw [List.length_singleton, List.singleton_append] at hfirst
    rw [hext] at hsecond
    simp only [readFrameLen, List.cons_append, hfirst, List.getD_cons_zero, if_pos hb, hsecond,
      if_neg hword]
    rw [decide_eq_decide.mpr (and_flag8_ne_zero b)]
  | word htag hlen =>
    have hlt : leVal hdr < 2 ^ 32 := leVal_lt_of_length hlen
    have hfirst := readFirst_prefix hdr s fault
    rw [hlen] at hfirst
    have hval : (u32Val hdr &&& 0x7fffffff).toNat = leVal hdr % 2 ^ 31 := by
      rw [toNat_and_flag32, u32Val, UInt32.toNat_ofNat', Nat.mod_eq_of_lt hlt]
    cases tag with
    | abridged => exact absurd rfl htag
    | intermediate =>
      simp only [readFrameLen, hfirst, hval]
      rw [decide_eq_decide.mpr (word_flag hlen)]
    | secure =>
      simp only [readFrameLen, hfirst, hval]
      rw [decide_eq_decide.mpr (word_flag hlen)]

theorem readFrameLen_header (h : IsHeader tag hdr quickack len) (s : List UInt8) :
    readFrameLen tag (closedAfter (hdr ++ s)) = .ok (some (len, quickack, closedAfter s)) :=
  readFrameLen_prefix h s none

theorem readFrameLen_nil (tag : ProtoTag) : readFrameLen tag (closedAfter []) = .ok none := by
  cases tag <;> rfl

end

/-! ### All payloads of a stream -/

section
variable (protoTag : ProtoTag) (maxFrame : ℕ) (forensics : RelayForensicsState)

theorem readClientPayload_lt {frameCounter : UInt64} {s : ClientStream} {f : ClientFrame}
    (h : readClientPayload protoTag maxFrame forensics frameCounter s = .ok (some f)) :
    f.rest.bytes.length < s.bytes.length := by
  revert h
  refine loop_induct (readClientStep protoTag maxFrame forensics frameCounter)
    (fun s => s.bytes.length) _
    (P := fun s b => b = .ok (some f) → f.rest.bytes.length < s.bytes.length) ?_ ?_ s
  · intro s b hb h
    subst h
    unfold readClientStep at hb
    rcases hr : readFrameLen protoTag s with e | _ | ⟨len, quickack, t⟩ <;> simp only [hr] at hb
    · cases hb
    · cases hb
    · split_ifs at hb
      have hlt := (readFrameLen_some hr).1
      obtain ⟨payload, u, hread, rfl, -⟩ := readFramePayload_inv (Sum.inr.inj hb)
      obtain ⟨-, -, hrest⟩ := readExact_ok hread
      omega
  · intro s s' b hs ih h
    have hlt := readClientStep_lt protoTag maxFrame forensics frameCounter hs
    have hrest := ih h
    omega

/-- Where the relay is in the client's stream, and what it has read. -/
structure Relay where
  frameCounter : UInt64
  stream : ClientStream
  payloads : List (List UInt8 × Bool)

def relayStep (r : Relay) : Relay ⊕ Except ProxyError (List (List UInt8 × Bool)) :=
  match readClientPayload protoTag maxFrame forensics r.frameCounter r.stream with
  | .error e => .inr (.error e)
  | .ok none => .inr (.ok r.payloads)
  | .ok (some f) => .inl ⟨f.frameCounter, f.rest, r.payloads ++ [(f.payload, f.quickack)]⟩

theorem relayStep_lt {r r' : Relay} (h : relayStep protoTag maxFrame forensics r = .inl r') :
    r'.stream.bytes.length < r.stream.bytes.length := by
  unfold relayStep at h
  rcases hr : readClientPayload protoTag maxFrame forensics r.frameCounter r.stream with
    e | _ | f <;> simp only [hr] at h
  · cases h
  · cases h
  · cases h
    exact readClientPayload_lt protoTag maxFrame forensics hr

/-- `read_client_payload` until it returns `None` or fails. -/
def clientPayloads (r : Relay) : Except ProxyError (List (List UInt8 × Bool)) :=
  loop (relayStep protoTag maxFrame forensics) (fun r => r.stream.bytes.length)
    (fun _ _ => relayStep_lt protoTag maxFrame forensics) r

end

/-- A complete frame of the client: a header and the bytes it announces. -/
structure WireFrame (tag : ProtoTag) where
  header : List UInt8
  quickack : Bool
  body : List UInt8
  isHeader : IsHeader tag header quickack body.length

def WireFrame.bytes {tag : ProtoTag} (f : WireFrame tag) : List UInt8 := f.header ++ f.body

/-- A frame the relay takes: four bytes or more within its limit, or nothing at all where the
    framing has empty frames. -/
def Relayed (maxFrame : ℕ) {tag : ProtoTag} (f : WireFrame tag) : Prop :=
  4 ≤ f.body.length ∧ f.body.length ≤ maxFrame ∨ f.body = [] ∧ tag ≠ .secure

section
variable {tag : ProtoTag} {maxFrame : ℕ} {forensics : RelayForensicsState} {frameCounter : UInt64}

/-- An empty frame is skipped. -/
theorem readClientPayload_empty {f : WireFrame tag} (h : f.body = []) (s : List UInt8) :
    readClientPayload tag maxFrame forensics frameCounter (closedAfter (f.bytes ++ s)) =
      readClientPayload tag maxFrame forensics frameCounter (closedAfter s) := by
  refine loop_inl _ _ _ ?_
  have hhdr := f.isHeader
  rw [h] at hhdr
  rw [WireFrame.bytes, h, List.append_nil, readClientStep, readFrameLen_header hhdr]
  rfl

/-- A frame of four bytes or more is handed out without its padding. -/
theorem readClientPayload_frame (forensics : RelayForensicsState) (frameCounter : UInt64)
    {f : WireFrame tag} (h4 : 4 ≤ f.body.length)
    (hmax : f.body.length ≤ maxFrame) (s : List UInt8) :
    ∃ d, payloadLen tag f.body.length = some d ∧ 0 < d ∧ d ≤ f.body.length ∧
      readClientPayload tag maxFrame forensics frameCounter (closedAfter (f.bytes ++ s)) =
        .ok (some ⟨f.body.take d, f.quickack, closedAfter s, frameCounter + 1⟩) := by
  have hread := readExact_append f.body s
  have hround : ∀ r, readFramePayload tag maxFrame forensics frameCounter f.body.length f.quickack
      (closedAfter (f.body ++ s)) = r →
      readClientPayload tag maxFrame forensics frameCounter (closedAfter (f.bytes ++ s)) = r := by
    intro r hr
    refine loop_inr _ _ _ ?_
    rw [WireFrame.bytes, List.append_assoc, readClientStep, readFrameLen_header f.isHeader, ← hr]
    exact if_neg (by omega)
  have hsmall : ¬ (f.body.length < 4 ∧ tag ≠ .abridged) := by omega
  by_cases hsec : tag = .secure
  · have hlen : securePayloadLenFromWireLen f.body.length =
        some (f.body.length - f.body.length % 4) := if_neg (by omega)
    refine ⟨_, by rw [payloadLen, if_pos hsec, hlen], by omega, by omega, hround _ ?_⟩
    simp only [readFramePayload, if_neg hsmall, if_neg (not_lt.mpr hmax), if_pos hsec, hlen, hread]
  · refine ⟨_, by rw [payloadLen, if_neg hsec], by omega, le_refl _, hround _ ?_⟩
    simp only [readFramePayload, if_neg hsmall, if_neg (not_lt.mpr hmax), if_neg hsec, hread,
      List.take_length]

/-- The relay's loop over a stream that starts with a frame it takes. -/
theorem clientPayloads_cons (forensics : RelayForensicsState) {f : WireFrame tag}
    (h : Relayed maxFrame f) (s : List UInt8) (counter : UInt64) (payloads : List (List UInt8 × Bool)) :
    ∃ d counter', payloadLen tag f.body.length = some d ∧ f.body.length ≤ maxFrame ∧
      clientPayloads tag maxFrame forensics ⟨counter, closedAfter (f.bytes ++ s), payloads⟩ =
        clientPayloads tag maxFrame forensics ⟨counter', closedAfter s,
          payloads ++ if f.body.take d = [] then [] else [(f.body.take d, f.quickack)]⟩ := by
  rcases h with ⟨h4, hmax⟩ | ⟨hnil, hsec⟩
  · obtain ⟨d, hd, hpos, hle, hread⟩ := readClientPayload_frame forensics counter
      h4 hmax s
    have hne : f.body.take d ≠ [] := by
      rw [← List.length_pos_iff, List.length_take]
      omega
    refine ⟨d, counter + 1, hd, hmax, loop_inl _ _ _ ?_⟩
    simp only [relayStep, hread, if_neg hne]
  · refine ⟨0, counter, by rw [hnil, payloadLen, if_neg hsec]; rfl, by simp [hnil], ?_⟩
    have hskip : relayStep tag maxFrame forensics ⟨counter, closedAfter (f.bytes ++ s), payloads⟩ =
        relayStep tag maxFrame forensics ⟨counter, closedAfter s, payloads⟩ := by
      simp only [relayStep, readClientPayload_empty hnil]
    rw [List.take_zero, if_pos rfl, List.append_nil]
    cases hstep : relayStep tag maxFrame forensics ⟨counter, closedAfter s, payloads⟩ with
    | inl r => exact (loop_inl _ _ _ (hskip.trans hstep)).trans (loop_inl _ _ _ hstep).symm
    | inr r => exact (loop_inr _ _ _ (hskip.trans hstep)).trans (loop_inr _ _ _ hstep).symm

/-- What the relay makes of decoded frames: the empty ones are dropped. -/
def relayedContents (frames : List Stream.Frame) : List (List UInt8 × Bool) :=
  (frames.filter (fun f => !f.data.isEmpty)).map content

theorem relay_agrees (frames : List (WireFrame tag)) (counter : UInt64)
    (payloads : List (List UInt8 × Bool)) (acc : List Stream.Frame)
    (h : ∀ f ∈ frames, Relayed maxFrame f) :
    ∃ decoded, drain tag maxFrame ⟨acc, (frames.map WireFrame.bytes).flatten⟩ =
        (.ok (), ⟨acc ++ decoded, []⟩) ∧
      clientPayloads tag maxFrame forensics
          ⟨counter, closedAfter (frames.map WireFrame.bytes).flatten, payloads⟩ =
        .ok (payloads ++ relayedContents decoded) := by
  induction frames generalizing counter payloads acc with
  | nil =>
    refine ⟨[], by simpa using drain_nil tag maxFrame acc, loop_inr _ _ _ ?_⟩
    have hend : readClientPayload tag maxFrame forensics counter (closedAfter []) = .ok none :=
      loop_inr _ _ _ (by rw [readClientStep, readFrameLen_nil])
    simp [relayStep, hend, relayedContents]
  | cons f frames ih =>
    obtain ⟨d, counter', hd, hmax, hrelay⟩ := clientPayloads_cons forensics
      (h f (by simp)) (frames.map WireFrame.bytes).flatten counter payloads
    have hdec := decode_complete f.isHeader hmax hd (frames.map WireFrame.bytes).flatten
    obtain ⟨decoded, hdrain, hrest⟩ := ih counter'
      (payloads ++ if f.body.take d = [] then [] else [(f.body.take d, f.quickack)])
      (acc ++ [frameOf f.quickack f.body d]) (fun g hg => h g (List.mem_cons_of_mem _ hg))
    refine ⟨frameOf f.quickack f.body d :: decoded, ?_, ?_⟩
    · have hstep : drainStep tag maxFrame ⟨acc, (f :: frames).map WireFrame.bytes |>.flatten⟩ =
          .inl ⟨acc ++ [frameOf f.quickack f.body d], (frames.map WireFrame.bytes).flatten⟩ := by
        rw [List.map_cons, List.flatten_cons, WireFrame.bytes, List.append_assoc, drainStep, hdec]
      rw [List.append_assoc, List.singleton_append] at hdrain
      exact (loop_inl _ _ _ hstep).trans hdrain
    · rw [List.map_cons, List.flatten_cons, hrelay, hrest, List.append_assoc]
      have hhead : (if f.body.take d = [] then [] else [(f.body.take d, f.quickack)]) ++
          relayedContents decoded = relayedContents (frameOf f.quickack f.body d :: decoded) := by
        by_cases hnil : f.body.take d = []
        · simp [relayedContents, frameOf, hnil]
        · simp [relayedContents, frameOf, hnil, content]
      rw [hhead]

/-- The relay's framing is `FrameCodec`'s. Towards the client the bytes handed to `write_all` are
    those of `encode`, and nothing is written exactly where `encode` fails. From the client, a
    stream of complete frames gives the decoded frames without the empty ones, and then the end. -/
theorem relay_framing_agrees {W : Type} (writeAll : W → List UInt8 → Except IoError Unit × W)
    (tag : ProtoTag) (clientWriter : W) (flags : UInt32) (data : List UInt8) (rng : SecureRandom)
    (frameBuf : List UInt8) (maxFrame : ℕ) (forensics : RelayForensicsState)
    (frameCounter : UInt64) (frames : List (WireFrame tag))
    (hframes : ∀ f ∈ frames, Relayed maxFrame f) :
    (∀ bytes, encode tag rng (answerFrame flags data) [] = .ok bytes →
      writeClientPayload writeAll clientWriter tag flags data rng frameBuf =
        sendFrame writeAll clientWriter bytes) ∧
    (∀ e, encode tag rng (answerFrame flags data) [] = .error e →
      ∃ message, writeClientPayload writeAll clientWriter tag flags data rng frameBuf =
        (.error (.proxy message), clientWriter, frameBuf)) ∧
    ∃ decoded, drain tag maxFrame ⟨[], (frames.map WireFrame.bytes).flatten⟩ =
        (.ok (), ⟨decoded, []⟩) ∧
      clientPayloads tag maxFrame forensics
          ⟨frameCounter, closedAfter (frames.map WireFrame.bytes).flatten, []⟩ =
        .ok (relayedContents decoded) := by
  refine ⟨?_, ?_, relay_agrees frames frameCounter [] [] hframes⟩
  · intro bytes hencode
    by_cases hable : Encodable tag data.length
    · have hack : (answerFrame flags data).info.simpleAck = false := rfl
      rw [encode_ok hack hable] at hencode
      obtain rfl := Except.ok.inj hencode
      exact writeClientPayload_ok writeAll hable clientWriter flags rng frameBuf
    · obtain ⟨e, he⟩ := encode_error rng (answerFrame flags data) [] rfl hable
      exact absurd (he.symm.trans hencode) (by simp)
  · intro e he
    by_cases hable : Encodable tag data.length
    · have hack : (answerFrame flags data).info.simpleAck = false := rfl
      rw [encode_ok hack hable] at he
      cases he
    · exact writeClientPayload_error writeAll hable clientWriter flags rng frameBuf

end

/-- An Abridged stream of an empty frame with the quick-ack flag and a frame of one word behind an
    extended header. -/
theorem abridged_framing_agrees :
    let write : List UInt8 → List UInt8 → Except IoError Unit × List UInt8 :=
      fun sent bytes => (.ok (), sent ++ bytes)
    let rng : SecureRandom := ⟨fun max => max - 1, fun len => List.replicate len 9,
      fun _ => Nat.sub_one_lt_of_lt, fun _ => List.length_replicate⟩
    let frames : List (WireFrame .abridged) :=
      [⟨[0x80], true, [], .short 0x80 (by decide)⟩,
        ⟨[0x7f, 1, 0, 0], false, [1, 2, 3, 4], .long 0x7f (by decide) rfl⟩]
    writeClientPayload write [] .abridged 0x80000000 [5, 6, 7, 8] rng [] =
        (.ok (), [0x81, 5, 6, 7, 8], [0x81, 5, 6, 7, 8]) ∧
      clientPayloads .abridged 4 ⟨0, 7⟩
          ⟨0, closedAfter (frames.map WireFrame.bytes).flatten, []⟩ =
        .ok [([1, 2, 3, 4], false)] := by
  intro write rng frames
  have hframes : ∀ f ∈ frames, Relayed 4 f := by simp [frames, Relayed]
  obtain ⟨hok, -, decoded, hdrain, hrelay⟩ := relay_framing_agrees write .abridged [] 0x80000000
    [5, 6, 7, 8] rng [] 4 ⟨0, 7⟩ 0 frames hframes
  refine ⟨hok [0x81, 5, 6, 7, 8] (by decide +kernel), hrelay.trans ?_⟩
  have hcontents : relayedContents
      (drain .abridged 4 ⟨[], (frames.map WireFrame.bytes).flatten⟩).2.frames =
        [([1, 2, 3, 4], false)] := by decide +kernel
  rw [hdrain] at hcontents
  rw [hcontents]

/-! ### What is sent is understood -/

section
variable {tag : ProtoTag} {rng : SecureRandom} {data : List UInt8} {maxFrameSize : ℕ}

/-- The bytes are one complete frame to the decoder. -/
def OneFrame (tag : ProtoTag) (maxFrameSize : ℕ) (bytes : List UInt8) : Prop :=
  ∃ f, decode tag maxFrameSize bytes = (.ok (some f), [])

/-- A header that announces less than follows it, or a length the framing does not have, is not the
    header of one complete frame. -/
theorem not_oneFrame {hdr body : List UInt8} {quickack : Bool} {len : ℕ}
    (h : IsHeader tag hdr quickack len) (hbad : len < body.length ∨ payloadLen tag len = none) :
    ¬ OneFrame tag maxFrameSize (hdr ++ body) := by
  rintro ⟨f, hf⟩
  rw [decode_header h, splitFrame_append] at hf
  split_ifs at hf with hmax hlen
  · simp at hf
  · simp at hf
  · cases hd : payloadLen tag len with
    | none => simp [hd] at hf
    | some d =>
      rw [hd] at hf hbad
      have hdrop : body.drop len = [] := (Prod.mk.inj hf).2
      have hle := List.drop_eq_nil_iff.mp hdrop
      rcases hbad with hlt | hnone
      · omega
      · cases hnone

theorem encoded_oneFrame_iff (hable : Encodable tag data.length)
    (hlen : data.length + 3 < maxFrameSize) (quickack : Bool) :
    OneFrame tag maxFrameSize (encoded tag rng data quickack) ↔ Decodable tag rng data.length := by
  have hpad := length_padding_le tag rng
  constructor
  · intro hone
    by_contra hno
    have hword : tag ≠ .abridged := by
      rintro rfl
      exact hno ⟨by simp, by simp⟩
    have hhdr : IsHeader tag (wordBytes (data.length + (padding tag rng).length) quickack) _ _ :=
      .word hword (length_leBytes 4 _)
    have henc : encoded tag rng data quickack =
        wordBytes (data.length + (padding tag rng).length) quickack ++ (data ++ padding tag rng) := by
      cases tag with
      | abridged => exact absurd rfl hword
      | intermediate => rfl
      | secure => rfl
    rw [henc] at hone
    rw [leVal_wordBytes] at hhdr
    refine not_oneFrame hhdr ?_ hone
    rw [List.length_append]
    by_cases hbig : 2 ^ 31 ≤ data.length + (padding tag rng).length
    · refine Or.inl (lt_of_lt_of_le (Nat.mod_lt _ (by decide)) hbig)
    · have hsec : tag = .secure ∧ data.length = 0 := by
        rw [Decodable, not_and_or] at hno
        rcases hno with hempty | hlarge
        · rw [Classical.not_imp] at hempty
          exact ⟨hempty.1, by omega⟩
        · exact absurd (fun _ => not_le.mp hbig) hlarge
      refine Or.inr ?_
      rw [payloadLen, if_pos hsec.1, securePayloadLenFromWireLen, if_pos]
      cases quickack with
      | false =>
        rw [if_neg Bool.false_ne_true]
        omega
      | true =>
        rw [if_pos rfl]
        omega
  · intro hd
    have hfit : data.length + (padding tag rng).length ≤ maxFrameSize := by omega
    obtain ⟨f, -, -, hdec⟩ := decode_encoded hable hd hfit quickack []
    rw [List.append_nil] at hdec
    exact ⟨f, hdec⟩

/-- What an encoder emits is one complete frame to the decoder exactly if it is not the padding of
    an empty Secure payload and, where the length shares its word with the quick-ack flag, the
    length leaves that bit free. -/
theorem emitted_frame_accepted_iff {W : Type} (writeAll : W → List UInt8 → Except IoError Unit × W)
    (tag : ProtoTag) (rng : SecureRandom) (data : List UInt8) (maxFrameSize : ℕ)
    (hlen : data.length + 3 < maxFrameSize) :
    (∀ frame bytes, frame.data = data → frame.info.simpleAck = false →
      encode tag rng frame [] = .ok bytes →
      (OneFrame tag maxFrameSize bytes ↔ (tag = .secure → 0 < data.length) ∧
        (tag ≠ .abridged → data.length + (padding tag rng).length < 2 ^ 31))) ∧
    (∀ clientWriter flags frameBuf clientWriter' bytes,
      writeClientPayload writeAll clientWriter tag flags data rng frameBuf =
        (.ok (), clientWriter', bytes) →
      (OneFrame tag maxFrameSize bytes ↔ (tag = .secure → 0 < data.length) ∧
        (tag ≠ .abridged → data.length + (padding tag rng).length < 2 ^ 31))) := by
  constructor
  · rintro frame bytes rfl hack hencode
    by_cases hable : Encodable tag frame.data.length
    · rw [encode_ok hack hable] at hencode
      obtain rfl := Except.ok.inj hencode
      exact encoded_oneFrame_iff hable hlen frame.info.quickack
    · obtain ⟨e, he⟩ := encode_error rng frame [] hack hable
      exact absurd (he.symm.trans hencode) (by simp)
  · intro clientWriter flags frameBuf clientWriter' bytes hwrite
    by_cases hable : Encodable tag data.length
    · rw [writeClientPayload_ok writeAll hable, sendFrame] at hwrite
      obtain rfl := (Prod.mk.inj (Prod.mk.inj hwrite).2).2
      exact encoded_oneFrame_iff hable hlen _
    · obtain ⟨message, he⟩ := writeClientPayload_error writeAll hable clientWriter flags rng frameBuf
      exact absurd (he.symm.trans hwrite) (by simp)

end

/-- A word of data to a Secure client is understood. -/
theorem secure_word_accepted :
    let write : List UInt8 → List UInt8 → Except IoError Unit × List UInt8 :=
      fun sent bytes => (.ok (), sent ++ bytes)
    let rng : SecureRandom := ⟨fun max => max - 1, fun len => List.replicate len 9,
      fun _ => Nat.sub_one_lt_of_lt, fun _ => List.length_replicate⟩
    writeClientPayload write [] .secure 0 [1, 2, 3, 4] rng [] =
        (.ok (), [7, 0, 0, 0, 1, 2, 3, 4, 9, 9, 9], [7, 0, 0, 0, 1, 2, 3, 4, 9, 9, 9]) ∧
      OneFrame .secure 16777216 [7, 0, 0, 0, 1, 2, 3, 4, 9, 9, 9] := by
  intro write rng
  have hwrite : writeClientPayload write [] .secure 0 [1, 2, 3, 4] rng [] =
      (.ok (), [7, 0, 0, 0, 1, 2, 3, 4, 9, 9, 9], [7, 0, 0, 0, 1, 2, 3, 4, 9, 9, 9]) := by
    decide +kernel
  have haccept := emitted_frame_accepted_iff write .secure rng [1, 2, 3, 4] 16777216 (by decide)
  exact ⟨hwrite, (haccept.2 _ _ _ _ _ hwrite).mpr ⟨by decide, fun _ => by decide⟩⟩

/-- An answer without data to a Secure client: three bytes of padding are sent as a frame, and the
    decoder refuses its length. -/
theorem empty_secure_answer_rejected :
    let write : List UInt8 → List UInt8 → Except IoError Unit × List UInt8 :=
      fun sent bytes => (.ok (), sent ++ bytes)
    let rng : SecureRandom := ⟨fun max => max - 1, fun len => List.replicate len 9,
      fun _ => Nat.sub_one_lt_of_lt, fun _ => List.length_replicate⟩
    writeClientPayload write [] .secure 0 [] rng [] =
        (.ok (), [3, 0, 0, 0, 9, 9, 9], [3, 0, 0, 0, 9, 9, 9]) ∧
      encode .secure rng (answerFrame 0 []) [] = .ok [3, 0, 0, 0, 9, 9, 9] ∧
      decode .secure 16777216 [3, 0, 0, 0, 9, 9, 9] =
        (.error ⟨.invalidData, "invalid secure frame length: 3"⟩, [3, 0, 0, 0, 9, 9, 9]) := by
  intro write rng
  exact ⟨by decide +kernel, by decide +kernel, by decide +kernel⟩

end MtProxy.Proxy
