import MtProxy.Stream.FrameCodec

/-! Encoder and decoder of `FrameCodec` together, over a connection that delivers the bytes in
    arbitrary chunks.

        frames ──encode──▶ wire = chunk₁ ++ ⋯ ++ chunkₙ ──append, decode until None──▶ frames

    `receive_of_drain` reduces any cut of the wire to the wire in one piece; there the frames come
    off one after the other. -/

namespace MtProxy.Stream.FrameCodec
open Schemes

/-! ### Decoding until nothing more comes -/

/-- The frames decoded so far and what is left in the buffer. -/
structure Decoding where
  frames : List Frame
  buf : List UInt8

section
variable (tag : ProtoTag) (maxSize : ℕ)

def drainStep (d : Decoding) : Decoding ⊕ (Except IoError Unit × Decoding) :=
  match decode tag maxSize d.buf with
  | (.ok (some frame), buf) => .inl ⟨d.frames ++ [frame], buf⟩
  | (.ok none, buf) => .inr (.ok (), ⟨d.frames, buf⟩)
  | (.error e, buf) => .inr (.error e, ⟨d.frames, buf⟩)

theorem drainStep_lt {d d' : Decoding} (h : drainStep tag maxSize d = .inl d') :
    d'.buf.length < d.buf.length := by
  unfold drainStep at h
  rcases decode_cases tag maxSize d.buf with hw | ⟨e, he, -⟩ | ⟨hdr, q, body, n, rest, hhdr, -, -,
    hsrc, hd⟩
  · simp [hw] at h
  · simp [he] at h
  · rw [hd] at h
    cases h
    have hpos := hhdr.length_pos
    simp only [hsrc, List.length_append]
    omega

/-- `decode` until it returns `None` or fails. -/
def drain (d : Decoding) : Except IoError Unit × Decoding :=
  loop (drainStep tag maxSize) (fun d => d.buf.length) (fun _ _ => drainStep_lt tag maxSize) d

/-- The receiving side: each chunk is appended to the buffer and the buffer drained. -/
def receive : Decoding → List (List UInt8) → Except IoError Unit × Decoding
  | d, [] => (.ok (), d)
  | d, chunk :: chunks =>
    match drain tag maxSize ⟨d.frames, d.buf ++ chunk⟩ with
    | (.ok (), d) => receive d chunks
    | (.error e, d) => (.error e, d)

end

section
variable {tag : ProtoTag} {maxSize : ℕ}

theorem drainStep_extend (more : List UInt8) (d d' : Decoding)
    (h : drainStep tag maxSize d = .inl d') :
    drainStep tag maxSize ⟨d.frames, d.buf ++ more⟩ = .inl ⟨d'.frames, d'.buf ++ more⟩ := by
  unfold drainStep at h ⊢
  rcases decode_cases tag maxSize d.buf with hw | ⟨e, he, -⟩ | ⟨hdr, q, body, n, rest, hhdr, hmax,
    hn, hsrc, hd⟩
  · simp [hw] at h
  · simp [he] at h
  · rw [hd] at h
    cases h
    simp only [hsrc, List.append_assoc, decode_complete hhdr hmax hn (rest ++ more)]

/-- A drained buffer has nothing more to give, and a failed one fails with more bytes too. -/
theorem drainStep_stop {d : Decoding} {r : Except IoError Unit × Decoding}
    (h : drainStep tag maxSize d = .inr r) :
    r = (.ok (), d) ∨ ∃ e, ∀ more, drainStep tag maxSize ⟨d.frames, d.buf ++ more⟩ =
      .inr (.error e, ⟨d.frames, d.buf ++ more⟩) := by
  unfold drainStep at h ⊢
  rcases decode_cases tag maxSize d.buf with hw | ⟨e, he, hmore⟩ | ⟨hdr, q, body, n, rest, -, -, -,
    -, hd⟩
  · rw [hw] at h
    exact Or.inl (Sum.inr.inj h).symm
  · exact Or.inr ⟨e, fun more => by simp only [hmore more]⟩
  · rw [hd] at h
    cases h

/-- If the stream in one piece is taken apart without an error, so is any cut of it. -/
theorem receive_of_drain {d' : Decoding} (chunks : List (List UInt8)) {d : Decoding}
    (hd : drain tag maxSize d = (.ok (), d))
    (h : drain tag maxSize ⟨d.frames, d.buf ++ chunks.flatten⟩ = (.ok (), d')) :
    receive tag maxSize d chunks = (.ok (), d') := by
  induction chunks generalizing d with
  | nil =>
    rw [List.flatten_nil, List.append_nil] at h
    exact hd.symm.trans h
  | cons chunk chunks ih =>
    obtain ⟨t, ht, hloop⟩ := loop_extend (drainStep tag maxSize) (fun d => d.buf.length)
      (fun _ _ => drainStep_lt tag maxSize)
      (fun d => ⟨d.frames, d.buf ++ chunks.flatten⟩) (drainStep_extend chunks.flatten)
      ⟨d.frames, d.buf ++ chunk⟩
    have hjoin : drain tag maxSize ⟨t.frames, t.buf ++ chunks.flatten⟩ = (.ok (), d') := by
      rw [List.flatten_cons, ← List.append_assoc] at h
      exact hloop.symm.trans h
    rcases drainStep_stop ht with hok | ⟨e, herr⟩
    · have hstop : drain tag maxSize t = (.ok (), t) := loop_inr _ _ _ (ht.trans (congrArg _ hok))
      have hchunk : drain tag maxSize ⟨d.frames, d.buf ++ chunk⟩ = (.ok (), t) := hok
      rw [receive, hchunk]
      exact ih hstop hjoin
    · have herr' := loop_inr (drainStep tag maxSize) (fun d => d.buf.length)
        (fun _ _ => drainStep_lt tag maxSize) (herr chunks.flatten)
      exact absurd (herr'.symm.trans hjoin) (by simp)

end

/-! ### What the encoders emit -/

/-- The header the encoders write for `len` bytes. -/
def encodedHeader (tag : ProtoTag) (len : ℕ) (quickack : Bool) : List UInt8 :=
  match tag with
  | .abridged =>
    if len / 4 < 0x7f then
      [if quickack then UInt8.ofNat (len / 4) ||| 0x80 else UInt8.ofNat (len / 4)]
    else (if quickack then (0x7f : UInt8) ||| 0x80 else 0x7f) :: (leBytes 4 (len / 4)).take 3
  | _ => wordBytes len quickack

/-- The padding drawn for a frame. -/
def padding (tag : ProtoTag) (rng : SecureRandom) : List UInt8 :=
  if tag = .secure then rng.bytes (securePaddingLen rng) else []

/-- The bytes of a frame that is not a simple ack. -/
def encoded (tag : ProtoTag) (rng : SecureRandom) (data : List UInt8) (quickack : Bool) :
    List UInt8 :=
  encodedHeader tag (data.length + (padding tag rng).length) quickack ++
    (data ++ padding tag rng)

/-- The data lengths `encode` accepts. -/
def Encodable (tag : ProtoTag) (len : ℕ) : Prop :=
  match tag with
  | .abridged => 4 ∣ len ∧ len / 4 < 2 ^ 24
  | .intermediate => True
  | .secure => 4 ∣ len

section
variable {tag : ProtoTag} {rng : SecureRandom} {frame : Frame} {dst : List UInt8}

theorem length_padding_le (tag : ProtoTag) (rng : SecureRandom) :
    (padding tag rng).length ≤ 3 := by
  unfold padding
  split_ifs
  · rw [rng.length_bytes]
    exact securePaddingLen_le rng
  · exact Nat.zero_le 3

theorem encode_ok (hack : frame.info.simpleAck = false) (h : Encodable tag frame.data.length) :
    encode tag rng frame dst = .ok (dst ++ encoded tag rng frame.data frame.info.quickack) := by
  unfold encoded
  cases tag with
  | abridged =>
    have h4 : ¬ frame.data.length % 4 ≠ 0 := by
      rw [not_not]
      exact Nat.mod_eq_zero_of_dvd h.1
    simp only [encode, encodeAbridged, if_neg h4, hack, encodedHeader, padding]
    by_cases hshort : frame.data.length / 4 < 0x7f
    · simp [hshort]
    · have hlong : frame.data.length / 4 < 16777216 := h.2
      simp [hshort, hlong]
  | intermediate => simp [encode, encodeIntermediate, hack, encodedHeader, padding]
  | secure =>
    have h4 := isValidSecurePayloadLen_iff.mpr h
    simp [encode, encodeSecure, hack, h4, encodedHeader, padding, securePaddingLen_pos,
      rng.length_bytes]

theorem encode_error (rng : SecureRandom) (frame : Frame) (dst : List UInt8)
    (hack : frame.info.simpleAck = false) (h : ¬ Encodable tag frame.data.length) :
    ∃ e, encode tag rng frame dst = .error e := by
  cases tag with
  | abridged =>
    by_cases h4 : frame.data.length % 4 ≠ 0
    · exact ⟨_, by simp only [encode, encodeAbridged, if_pos h4]; rfl⟩
    · have hlarge : ¬ frame.data.length / 4 < 16777216 := by
        intro hlt
        exact h ⟨Nat.dvd_of_mod_eq_zero (not_not.mp h4), hlt⟩
      have hshort : ¬ frame.data.length / 4 < 0x7f := by omega
      simp only [encode, encodeAbridged, if_neg h4, hack, if_neg hshort, if_neg hlarge]
      exact ⟨_, rfl⟩
  | intermediate => exact absurd trivial h
  | secure =>
    have h4 : isValidSecurePayloadLen frame.data.length = false := by
      rw [Bool.eq_false_iff]
      exact fun hv => h (isValidSecurePayloadLen_iff.mp hv)
    simp [encode, encodeSecure, hack, h4]

/-! ### What is emitted is accepted -/

theorem leVal_wordBytes (len : ℕ) (quickack : Bool) :
    leVal (wordBytes len quickack) =
      if quickack then 2 ^ 31 + len % 2 ^ 31 else len % 2 ^ 32 := by
  have hlt : ∀ v : UInt32, v.toNat < 256 ^ 4 := fun v => v.toNat_lt
  rw [wordBytes, leVal_leBytes_of_lt (hlt _)]
  cases quickack with
  | false => exact UInt32.toNat_ofNat'
  | true =>
    simp only [if_true]
    rw [toNat_or_flag32, UInt32.toNat_ofNat']
    omega

theorem wordBytes_isHeader {len : ℕ} (htag : tag ≠ .abridged) (hlen : len < 2 ^ 31)
    (quickack : Bool) : IsHeader tag (wordBytes len quickack) quickack len := by
  have h : IsHeader tag (wordBytes len quickack) _ _ := .word htag (length_leBytes 4 _)
  rw [leVal_wordBytes] at h
  cases quickack with
  | false =>
    have hflag : decide (2 ^ 31 ≤ len % 2 ^ 32) = false := decide_eq_false (by omega)
    have hval : len % 2 ^ 32 % 2 ^ 31 = len := by omega
    rwa [if_neg Bool.false_ne_true, hflag, hval] at h
  | true =>
    have hflag : decide (2 ^ 31 ≤ 2 ^ 31 + len % 2 ^ 31) = true := decide_eq_true (by omega)
    have hval : (2 ^ 31 + len % 2 ^ 31) % 2 ^ 31 = len := by omega
    rwa [if_pos rfl, hflag, hval] at h

/-- The flag in a byte below 0x80 is read back, and so is the byte. -/
theorem flag_byte {b : UInt8} (hb : b.toNat < 0x80) (quickack : Bool) :
    decide (0x80 ≤ if quickack then b ||| 0x80 else b) = quickack ∧
      ((if quickack then b ||| 0x80 else b) &&& 0x7f).toNat = b.toNat := by
  cases quickack with
  | false =>
    rw [if_neg Bool.false_ne_true, toNat_and_flag8, decide_eq_false_iff_not, UInt8.le_iff_toNat_le]
    exact ⟨not_le.mpr hb, Nat.mod_eq_of_lt hb⟩
  | true =>
    rw [if_pos rfl, toNat_and_flag8, toNat_or_flag8, decide_eq_true_iff, UInt8.le_iff_toNat_le,
      toNat_or_flag8]
    exact ⟨Nat.le_add_right _ _, by omega⟩

theorem abridged_isHeader {len : ℕ} (h : Encodable .abridged len) (quickack : Bool) :
    IsHeader .abridged (encodedHeader .abridged len quickack) quickack len := by
  obtain ⟨h4, hlt⟩ := h
  unfold encodedHeader
  simp only
  by_cases hshort : len / 4 < 0x7f
  · have hb : (UInt8.ofNat (len / 4)).toNat = len / 4 := by
      rw [UInt8.toNat_ofNat']
      omega
    obtain ⟨hq, hval⟩ := flag_byte (b := UInt8.ofNat (len / 4)) (by omega) quickack
    have hne : (if quickack then UInt8.ofNat (len / 4) ||| 0x80 else UInt8.ofNat (len / 4)) &&& 0x7f
        ≠ 0x7f := by
      intro heq
      rw [heq, hb] at hval
      exact absurd hshort (by rw [← hval]; decide)
    have hhdr := IsHeader.short _ hne
    rw [if_pos hshort]
    rwa [hq, hval, hb, Nat.div_mul_cancel h4] at hhdr
  · obtain ⟨hq, hval⟩ := flag_byte (b := 0x7f) (by decide) quickack
    have hext : ((leBytes 4 (len / 4)).take 3).length = 3 := by simp
    have hwords : leVal ((leBytes 4 (len / 4)).take 3) = len / 4 :=
      leVal_leBytes_of_lt (w := 3) (by omega)
    have hhdr := IsHeader.long _ (UInt8.toNat_inj.mp hval) hext
    rw [if_neg hshort]
    rwa [hq, hwords, Nat.div_mul_cancel h4] at hhdr

/-- The frames whose encoding the decoder takes back: everything that is encoded with a length
    below 2 ^ 31, except an empty Secure frame. -/
def Decodable (tag : ProtoTag) (rng : SecureRandom) (len : ℕ) : Prop :=
  (tag = .secure → 0 < len) ∧ (tag ≠ .abridged → len + (padding tag rng).length < 2 ^ 31)

theorem encoded_isHeader {len : ℕ} (h : Encodable tag len) (hd : Decodable tag rng len)
    (quickack : Bool) :
    IsHeader tag (encodedHeader tag (len + (padding tag rng).length) quickack) quickack
      (len + (padding tag rng).length) := by
  cases tag with
  | abridged => exact abridged_isHeader h quickack
  | intermediate => exact wordBytes_isHeader (by decide) (hd.2 (by decide)) quickack
  | secure => exact wordBytes_isHeader (by decide) (hd.2 (by decide)) quickack

theorem payloadLen_encoded {len : ℕ} (h : Encodable tag len) (hd : Decodable tag rng len) :
    payloadLen tag (len + (padding tag rng).length) = some len := by
  cases tag with
  | abridged => rfl
  | intermediate => rfl
  | secure =>
    have hpos := hd.1 rfl
    have hpad := length_padding_le .secure rng
    obtain ⟨k, rfl⟩ : 4 ∣ len := h
    rw [payloadLen, if_pos rfl, securePayloadLenFromWireLen, if_neg (by omega)]
    exact congrArg some (by omega)

/-- The decoder takes an encoded frame off the buffer and finds its data and its flag. -/
theorem decode_encoded {maxSize : ℕ} {data : List UInt8} (h : Encodable tag data.length)
    (hd : Decodable tag rng data.length)
    (hmax : data.length + (padding tag rng).length ≤ maxSize) (quickack : Bool)
    (rest : List UInt8) :
    ∃ f, f.data = data ∧ f.info.quickack = quickack ∧
      decode tag maxSize (encoded tag rng data quickack ++ rest) = (.ok (some f), rest) := by
  have hlen : (data ++ padding tag rng).length = data.length + (padding tag rng).length :=
    List.length_append
  refine ⟨frameOf quickack (data ++ padding tag rng) data.length, ?_, rfl, ?_⟩
  · exact List.take_left
  · rw [encoded, List.append_assoc]
    exact decode_complete (by rw [hlen]; exact encoded_isHeader h hd quickack) (by omega)
      (by rw [hlen]; exact payloadLen_encoded h hd) rest

end

/-! ### Lists of frames -/

/-- One `encode` after the other into the same buffer, each with its own random draws. -/
def encodeAll (tag : ProtoTag) : List (Frame × SecureRandom) → List UInt8 →
    Except IoError (List UInt8)
  | [], dst => .ok dst
  | (frame, rng) :: frames, dst =>
    match encode tag rng frame dst with
    | .ok dst => encodeAll tag frames dst
    | .error e => .error e

/-- The frame fits the receiver's limit, whatever padding is drawn. -/
def Fits (tag : ProtoTag) (maxFrameSize : ℕ) (frame : Frame) : Prop :=
  match tag with
  | .abridged => 4 ∣ frame.data.length ∧ frame.data.length ≤ maxFrameSize
  | .intermediate => frame.data.length ≤ maxFrameSize
  | .secure =>
    frame.data ≠ [] ∧ 4 ∣ frame.data.length ∧ frame.data.length + 3 ≤ maxFrameSize

/-- What a frame carries from end to end. -/
def content (f : Frame) : List UInt8 × Bool := (f.data, f.info.quickack)

section
variable {tag : ProtoTag} {maxFrameSize : ℕ}

theorem fits_decodable (rng : SecureRandom) {frame : Frame} (hmax : maxFrameSize < 2 ^ 31)
    (h : Fits tag maxFrameSize frame) : Decodable tag rng frame.data.length ∧
      frame.data.length + (padding tag rng).length ≤ maxFrameSize := by
  have hpad := length_padding_le tag rng
  cases tag with
  | abridged => exact ⟨⟨by simp, by simp⟩, h.2⟩
  | intermediate => exact ⟨⟨by simp, fun _ => lt_of_le_of_lt h hmax⟩, h⟩
  | secure =>
    obtain ⟨hne, -, hle⟩ := h
    exact ⟨⟨fun _ => List.length_pos_iff.mpr hne, fun _ => by omega⟩, by omega⟩

theorem drain_nil (tag : ProtoTag) (maxSize : ℕ) (acc : List Frame) :
    drain tag maxSize ⟨acc, []⟩ = (.ok (), ⟨acc, []⟩) := by
  refine loop_inr _ _ _ ?_
  cases tag <;> rfl

/-- In one piece, the encodings of a list of frames are taken apart to the last byte. -/
theorem drain_encodeAll (hmax : maxFrameSize < 2 ^ 31) (frames : List (Frame × SecureRandom))
    {dst wire : List UInt8} (hack : ∀ p ∈ frames, p.1.info.simpleAck = false)
    (hfits : ∀ p ∈ frames, Fits tag maxFrameSize p.1)
    (henc : encodeAll tag frames dst = .ok wire) :
    ∃ sent decoded, wire = dst ++ sent ∧
      decoded.map content = frames.map (fun p => content p.1) ∧
      ∀ acc, drain tag maxFrameSize ⟨acc, sent⟩ = (.ok (), ⟨acc ++ decoded, []⟩) := by
  induction frames generalizing dst with
  | nil =>
    refine ⟨[], [], ?_, rfl, fun acc => ?_⟩
    · rw [List.append_nil]
      exact (Except.ok.inj henc).symm
    · rw [List.append_nil, drain_nil]
  | cons first frames ih =>
    obtain ⟨frame, rng⟩ := first
    have hack1 := hack (frame, rng) (by simp)
    obtain ⟨hd, hle⟩ := fits_decodable rng hmax (hfits (frame, rng) (by simp))
    have hable : Encodable tag frame.data.length := by
      by_contra hno
      obtain ⟨e, he⟩ := encode_error rng frame dst hack1 hno
      simp [encodeAll, he] at henc
    rw [encodeAll, encode_ok hack1 hable] at henc
    obtain ⟨sent, decoded, hwire, hcontent, hdrain⟩ := ih
      (fun p hp => hack p (List.mem_cons_of_mem _ hp))
      (fun p hp => hfits p (List.mem_cons_of_mem _ hp)) henc
    obtain ⟨f, hdata, hquick, hdec⟩ := decode_encoded hable hd hle frame.info.quickack sent
    refine ⟨encoded tag rng frame.data frame.info.quickack ++ sent, f :: decoded,
      by rw [hwire, List.append_assoc], ?_, fun acc => ?_⟩
    · rw [List.map_cons, List.map_cons, hcontent, content, hdata, hquick]
      rfl
    · have hstep : drainStep tag maxFrameSize
          ⟨acc, encoded tag rng frame.data frame.info.quickack ++ sent⟩ =
            .inl ⟨acc ++ [f], sent⟩ := by
        simp only [drainStep, hdec]
      have hnext : drain tag maxFrameSize ⟨acc ++ [f], sent⟩ =
          (.ok (), ⟨acc ++ f :: decoded, []⟩) := by
        rw [hdrain, List.append_assoc, List.singleton_append]
      exact (loop_inl _ _ _ hstep).trans hnext

/-- Whatever the framing and the padding, and however the encodings of a list of frames are cut into
    chunks, decoding gives their data and flags in order and leaves nothing behind. A call that
    waits or fails leaves every buffer as it was, one that succeeds takes off exactly a header and
    the bytes it announces. -/
theorem frames_survive_any_cut (tag : ProtoTag) (maxFrameSize : ℕ)
    (frames : List (Frame × SecureRandom)) (wire : List UInt8) (chunks : List (List UInt8))
    (hmax : maxFrameSize < 2 ^ 31) (hack : ∀ p ∈ frames, p.1.info.simpleAck = false)
    (hfits : ∀ p ∈ frames, Fits tag maxFrameSize p.1)
    (hencode : encodeAll tag frames [] = .ok wire) (hcut : chunks.flatten = wire) :
    (∃ decoded, receive tag maxFrameSize ⟨[], []⟩ chunks = (.ok (), ⟨decoded, []⟩) ∧
      decoded.map content = frames.map (fun p => content p.1)) ∧
    ∀ maxSize src,
      match decode tag maxSize src with
      | (.ok none, buf) => buf = src
      | (.error _, buf) => buf = src
      | (.ok (some _), buf) => ∃ hdr quickack body, IsHeader tag hdr quickack body.length ∧
          src = hdr ++ body ++ buf := by
  constructor
  · obtain ⟨sent, decoded, hwire, hcontent, hdrain⟩ := drain_encodeAll hmax frames hack hfits hencode
    rw [List.nil_append] at hwire
    refine ⟨decoded, receive_of_drain chunks (drain_nil tag maxFrameSize []) ?_, hcontent⟩
    rw [List.nil_append, hcut, hwire]
    exact hdrain []
  · intro maxSize src
    rcases decode_cases tag maxSize src with hw | ⟨e, he, -⟩ | ⟨hdr, q, body, n, rest, hhdr, -, -,
      hsrc, hd⟩
    · rw [hw]
    · rw [he]
    · rw [hd]
      exact ⟨hdr, q, body, hhdr, by rw [hsrc, List.append_assoc]⟩

end

/-- Two Secure frames, the second with the quick-ack flag, cut inside a header and inside the
    padding. -/
theorem secure_frames_survive_cut :
    let rng : SecureRandom := ⟨fun max => max - 1, fun len => List.replicate len 9,
      fun _ => Nat.sub_one_lt_of_lt, fun _ => List.length_replicate⟩
    let frames : List (Frame × SecureRandom) :=
      [(⟨[1, 2, 3, 4], {}⟩, rng), (⟨[5, 6, 7, 8], { quickack := true }⟩, rng)]
    let chunks : List (List UInt8) :=
      [[7, 0, 0], [0, 1, 2, 3, 4, 9, 9], [9, 7, 0, 0, 128, 5, 6, 7, 8, 9, 9, 9]]
    encodeAll .secure frames [] = .ok chunks.flatten ∧
      ∃ decoded, receive .secure 7 ⟨[], []⟩ chunks = (.ok (), ⟨decoded, []⟩) ∧
        decoded.map content = [([1, 2, 3, 4], false), ([5, 6, 7, 8], true)] := by
  intro rng frames chunks
  have hencode : encodeAll .secure frames [] = .ok chunks.flatten := by decide +kernel
  exact ⟨hencode, (frames_survive_any_cut .secure 7 frames _ chunks (by decide) (by simp [frames])
    (by simp [frames, Fits]) hencode rfl).1⟩

end MtProxy.Stream.FrameCodec
