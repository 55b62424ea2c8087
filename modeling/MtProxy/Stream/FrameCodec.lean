import MtProxy.Protocol.Constants
import MtProxy.Schemes.Loop
import MtProxy.Stream.Poll

/-! `FrameCodec`: the three client framings as an encoder and a decoder over a growing buffer.

        Abridged      len/4 and quick-ack bit (1 byte, or 7f and 3 bytes)   data
        Intermediate  len, quick-ack in bit 31 (4 bytes)                    data
        Secure        len, quick-ack in bit 31 (4 bytes)                    data, padding

    `IsHeader` is the format of a header, apart from any code: the decoders read exactly these
    headers and the encoders write them. A decoder that found a frame, or an error, finds the same
    when more bytes follow, so it does not matter in which pieces a stream arrives. -/

namespace MtProxy.Stream
open Schemes

structure FrameMeta where
  quickack : Bool := false
  simpleAck : Bool := false
  paddingLen : UInt8 := 0
  deriving DecidableEq

/-- `Frame`; `info` is the field `meta` of the source. -/
structure Frame where
  data : List UInt8
  info : FrameMeta
  deriving DecidableEq

namespace FrameCodec

/-! ### Decoders -/

def frameTooLarge (len maxSize : ℕ) : IoError :=
  ⟨.invalidData, s!"frame too large: {len} bytes (max {maxSize})"⟩

def invalidSecureLen (len : ℕ) : IoError :=
  ⟨.invalidData, s!"invalid secure frame length: {len}"⟩

/-- What the decoders do with a header that announces `len` bytes, `dataLen` of them data. -/
def splitFrame (src : List UInt8) (maxSize headerLen len : ℕ) (quickack : Bool)
    (dataLen : Option ℕ) : Except IoError (Option Frame) × List UInt8 :=
  if maxSize < len then (.error (frameTooLarge len maxSize), src)
  else if src.length < headerLen + len then (.ok none, src)
  else
    match dataLen with
    | none => (.error (invalidSecureLen len), src)
    | some dataLen =>
      (.ok (some ⟨((src.drop headerLen).take len).take dataLen,
        { quickack := quickack, paddingLen := UInt8.ofNat (len - dataLen) }⟩),
        (src.drop headerLen).drop len)

/-- The length of an Abridged frame is counted in words. -/
def splitWords (src : List UInt8) (maxSize headerLen lenWords : ℕ) (quickack : Bool) :
    Except IoError (Option Frame) × List UInt8 :=
  if usizeMax < lenWords * 4 then (.error ⟨.invalidData, "frame length overflow"⟩, src)
  else splitFrame src maxSize headerLen (lenWords * 4) quickack (some (lenWords * 4))

def decodeAbridged (src : List UInt8) (maxSize : ℕ) :
    Except IoError (Option Frame) × List UInt8 :=
  match src with
  | [] => (.ok none, src)
  | firstByte :: ext =>
    if firstByte &&& 0x7f = 0x7f then
      if src.length < 4 then (.ok none, src)
      else splitWords src maxSize 4 (leVal (ext.take 3)) (decide (0x80 ≤ firstByte))
    else splitWords src maxSize 1 (firstByte &&& 0x7f).toNat (decide (0x80 ≤ firstByte))

/-- The 4-byte header: the length and, in its highest bit, the quick-ack flag. -/
def wordHeader (src : List UInt8) : Bool × ℕ :=
  let len := leVal (src.take 4)
  if 0x80000000 ≤ len then (true, len - 0x80000000) else (false, len)

def decodeIntermediate (src : List UInt8) (maxSize : ℕ) :
    Except IoError (Option Frame) × List UInt8 :=
  if src.length < 4 then (.ok none, src)
  else splitFrame src maxSize 4 (wordHeader src).2 (wordHeader src).1 (some (wordHeader src).2)

def decodeSecure (src : List UInt8) (maxSize : ℕ) : Except IoError (Option Frame) × List UInt8 :=
  if src.length < 4 then (.ok none, src)
  else
    splitFrame src maxSize 4 (wordHeader src).2 (wordHeader src).1
      (securePayloadLenFromWireLen (wordHeader src).2)

/-- `decode`: the result, and the buffer after the call. -/
def decode (protoTag : ProtoTag) (maxFrameSize : ℕ) (src : List UInt8) :
    Except IoError (Option Frame) × List UInt8 :=
  match protoTag with
  | .abridged => decodeAbridged src maxFrameSize
  | .intermediate => decodeIntermediate src maxFrameSize
  | .secure => decodeSecure src maxFrameSize

/-! ### Encoders -/

def encodeAbridged (frame : Frame) (dst : List UInt8) : Except IoError (List UInt8) :=
  let data := frame.data
  let len := data.length
  if len % 4 ≠ 0 then
    .error ⟨.invalidInput, s!"abridged frame must be 4-byte aligned, got {len} bytes"⟩
  else if frame.info.simpleAck then .ok (dst ++ data.reverse)
  else
    let lenWords := len / 4
    if lenWords < 0x7f then
      let lenByte := UInt8.ofNat lenWords
      let lenByte := if frame.info.quickack then lenByte ||| 0x80 else lenByte
      .ok (dst ++ [lenByte] ++ data)
    else if lenWords < 16777216 then
      let first : UInt8 := 0x7f
      let first := if frame.info.quickack then first ||| 0x80 else first
      .ok (dst ++ [first] ++ (leBytes 4 lenWords).take 3 ++ data)
    else .error ⟨.invalidInput, s!"frame too large: {len} bytes"⟩

/-- A length `as u32` with the quick-ack flag in its highest bit. -/
def wordBytes (len : ℕ) (quickack : Bool) : List UInt8 :=
  let len := UInt32.ofNat len
  let len := if quickack then len ||| 0x80000000 else len
  leBytes 4 len.toNat

def encodeIntermediate (frame : Frame) (dst : List UInt8) : Except IoError (List UInt8) :=
  if frame.info.simpleAck then .ok (dst ++ frame.data)
  else .ok (dst ++ wordBytes frame.data.length frame.info.quickack ++ frame.data)

def encodeSecure (frame : Frame) (dst : List UInt8) (rng : SecureRandom) :
    Except IoError (List UInt8) :=
  let data := frame.data
  let len := data.length
  if frame.info.simpleAck then .ok (dst ++ data)
  else if !isValidSecurePayloadLen len then
    .error ⟨.invalidData, s!"secure payload must be 4-byte aligned, got {len}"⟩
  else
    let paddingLen := securePaddingLen rng
    let dst := dst ++ wordBytes (len + paddingLen) frame.info.quickack ++ data
    .ok (if 0 < paddingLen then dst ++ rng.bytes paddingLen else dst)

/-- `encode`: the destination buffer after a success; a failed call leaves it as it was. -/
def encode (protoTag : ProtoTag) (rng : SecureRandom) (frame : Frame) (dst : List UInt8) :
    Except IoError (List UInt8) :=
  match protoTag with
  | .abridged => encodeAbridged frame dst
  | .intermediate => encodeIntermediate frame dst
  | .secure => encodeSecure frame dst rng

/-! ### The format of a header -/

/-- `hdr` is a header that announces `len` bytes, with or without the quick-ack flag. -/
inductive IsHeader : ProtoTag → List UInt8 → Bool → ℕ → Prop
  | short (b : UInt8) : b &&& 0x7f ≠ 0x7f →
      IsHeader .abridged [b] (decide (0x80 ≤ b)) ((b &&& 0x7f).toNat * 4)
  | long (b : UInt8) {ext : List UInt8} : b &&& 0x7f = 0x7f → ext.length = 3 →
      IsHeader .abridged (b :: ext) (decide (0x80 ≤ b)) (leVal ext * 4)
  | word {tag : ProtoTag} {hdr : List UInt8} : tag ≠ .abridged → hdr.length = 4 →
      IsHeader tag hdr (decide (2 ^ 31 ≤ leVal hdr)) (leVal hdr % 2 ^ 31)

/-- How many of the announced bytes are data; `none` is a length the framing does not have. -/
def payloadLen (tag : ProtoTag) (len : ℕ) : Option ℕ :=
  if tag = .secure then securePayloadLenFromWireLen len else some len

/-- The frame that a header with flag `quickack` and the announced bytes `body` make. -/
def frameOf (quickack : Bool) (body : List UInt8) (dataLen : ℕ) : Frame :=
  ⟨body.take dataLen,
    { quickack := quickack, paddingLen := UInt8.ofNat (body.length - dataLen) }⟩

section
variable {tag : ProtoTag} {maxSize len : ℕ} {quickack : Bool} {hdr src rest : List UInt8}

theorem IsHeader.length_pos (h : IsHeader tag hdr quickack len) : 0 < hdr.length := by
  cases h with
  | short b hb => exact Nat.one_pos
  | long b hb hlen => exact Nat.succ_pos _
  | word htag hlen => omega

theorem wordHeader_append (h : hdr.length = 4) (s : List UInt8) :
    wordHeader (hdr ++ s) = (decide (2 ^ 31 ≤ leVal hdr), leVal hdr % 2 ^ 31) := by
  have hlt : leVal hdr < 2 ^ 32 := leVal_lt_of_length h
  have htake : (hdr ++ s).take 4 = hdr := List.take_left' h
  unfold wordHeader
  rw [htake]
  simp only
  split_ifs with hflag
  · rw [decide_eq_true (by omega), Nat.mod_eq_sub_mod (by omega), Nat.mod_eq_of_lt (by omega)]
    rfl
  · rw [decide_eq_false (by omega), Nat.mod_eq_of_lt (by omega)]

/-- Behind a header all three decoders do the same. -/
theorem decode_header (h : IsHeader tag hdr quickack len) (s : List UInt8) :
    decode tag maxSize (hdr ++ s) =
      splitFrame (hdr ++ s) maxSize hdr.length len quickack (payloadLen tag len) := by
  cases h with
  | short b hb =>
    have hlt := toNat_and_flag8 b
    have hword : ¬ usizeMax < (b &&& 0x7f).toNat * 4 := by
      rw [usizeMax]
      omega
    simp only [decode, decodeAbridged, List.cons_append, List.nil_append, if_neg hb]
    rw [splitWords, if_neg hword, List.length_singleton]
    rfl
  | @long b ext hb hext =>
    have hlt : leVal ext < 2 ^ 24 := leVal_lt_of_length hext
    have hword : ¬ usizeMax < leVal ext * 4 := by
      rw [usizeMax]
      omega
    have hsrc : ¬ (b :: ext ++ s).length < 4 := by simp [hext]
    have htake : (ext ++ s).take 3 = ext := List.take_left' hext
    simp only [decode, decodeAbridged, List.cons_append, if_pos hb] at hsrc ⊢
    rw [if_neg hsrc, htake, splitWords, if_neg hword, List.length_cons, hext]
    rfl
  | word htag hlen =>
    have hsrc : ¬ (hdr ++ s).length < 4 := by simp [hlen]
    cases tag with
    | abridged => exact absurd rfl htag
    | intermediate =>
      simp only [decode, decodeIntermediate, if_neg hsrc, wordHeader_append hlen, hlen]
      rfl
    | secure =>
      simp only [decode, decodeSecure, if_neg hsrc, wordHeader_append hlen, hlen]
      rfl

/-- A buffer starts with a header, or the decoder waits. -/
theorem header_or_wait (tag : ProtoTag) (src : List UInt8) :
    (∃ hdr quickack len s, IsHeader tag hdr quickack len ∧ src = hdr ++ s) ∨
      ∀ maxSize, decode tag maxSize src = (.ok none, src) := by
  have hword : ∀ tag, tag ≠ .abridged → 4 ≤ src.length →
      ∃ hdr quickack len s, IsHeader tag hdr quickack len ∧ src = hdr ++ s := by
    intro tag htag h4
    exact ⟨src.take 4, _, _, src.drop 4, .word htag (by rw [List.length_take]; omega),
      (List.take_append_drop 4 src).symm⟩
  cases tag with
  | abridged =>
    match src with
    | [] => exact Or.inr fun _ => rfl
    | b :: ext =>
      by_cases hb : b &&& 0x7f = 0x7f
      · by_cases h3 : ext.length < 3
        · refine Or.inr fun maxSize => ?_
          simp only [decode, decodeAbridged, if_pos hb]
          rw [if_pos (by rw [List.length_cons]; omega)]
        · refine Or.inl ⟨b :: ext.take 3, _, _, ext.drop 3, .long b hb ?_, ?_⟩
          · rw [List.length_take]
            omega
          · rw [List.cons_append, List.take_append_drop]
      · exact Or.inl ⟨[b], _, _, ext, .short b hb, rfl⟩
  | intermediate =>
    by_cases h4 : src.length < 4
    · exact Or.inr fun _ => by simp only [decode, decodeIntermediate, if_pos h4]
    · exact Or.inl (hword _ (by decide) (by omega))
  | secure =>
    by_cases h4 : src.length < 4
    · exact Or.inr fun _ => by simp only [decode, decodeSecure, if_pos h4]
    · exact Or.inl (hword _ (by decide) (by omega))

/-- `splitFrame` of a buffer whose header is split off. -/
theorem splitFrame_append (hdr s : List UInt8) (dataLen : Option ℕ) :
    splitFrame (hdr ++ s) maxSize hdr.length len quickack dataLen =
      if maxSize < len then (.error (frameTooLarge len maxSize), hdr ++ s)
      else if s.length < len then (.ok none, hdr ++ s)
      else
        match dataLen with
        | none => (.error (invalidSecureLen len), hdr ++ s)
        | some dataLen => (.ok (some (frameOf quickack (s.take len) dataLen)), s.drop len) := by
  unfold splitFrame
  simp only [List.length_append, Nat.add_lt_add_iff_left, List.drop_left]
  split_ifs with hmax hlen
  · rfl
  · rfl
  · cases dataLen with
    | none => rfl
    | some d =>
      have hbody : (s.take len).length = len := by
        rw [List.length_take]
        omega
      simp only [frameOf, hbody]

/-- A complete frame at the front of the buffer is taken off, whatever follows it. -/
theorem decode_complete {body : List UInt8} {d : ℕ} (h : IsHeader tag hdr quickack body.length)
    (hmax : body.length ≤ maxSize) (hd : payloadLen tag body.length = some d)
    (rest : List UInt8) :
    decode tag maxSize (hdr ++ (body ++ rest)) = (.ok (some (frameOf quickack body d)), rest) := by
  rw [decode_header h, splitFrame_append, if_neg (by omega), if_neg (by simp), hd]
  simp

/-- What a call of `decode` can do: wait or fail, and then the buffer is as before, or take exactly
    a header and the bytes it announces. -/
theorem decode_cases (tag : ProtoTag) (maxSize : ℕ) (src : List UInt8) :
    decode tag maxSize src = (.ok none, src) ∨
    (∃ e, decode tag maxSize src = (.error e, src) ∧
      ∀ more, decode tag maxSize (src ++ more) = (.error e, src ++ more)) ∨
    (∃ hdr quickack body d rest, IsHeader tag hdr quickack body.length ∧
      body.length ≤ maxSize ∧ payloadLen tag body.length = some d ∧ src = hdr ++ (body ++ rest) ∧
      decode tag maxSize src = (.ok (some (frameOf quickack body d)), rest)) := by
  rcases header_or_wait tag src with ⟨hdr, quickack, len, s, h, rfl⟩ | hwait
  · by_cases hmax : maxSize < len
    · refine Or.inr (Or.inl ⟨frameTooLarge len maxSize, ?_, fun more => ?_⟩)
      · rw [decode_header h, splitFrame_append, if_pos hmax]
      · rw [List.append_assoc, decode_header h, splitFrame_append, if_pos hmax]
    · by_cases hlen : s.length < len
      · exact Or.inl (by rw [decode_header h, splitFrame_append, if_neg hmax, if_pos hlen])
      · have hbody : (s.take len).length = len := by
          rw [List.length_take]
          omega
        cases hd : payloadLen tag len with
        | none =>
          refine Or.inr (Or.inl ⟨invalidSecureLen len, ?_, fun more => ?_⟩)
          · rw [decode_header h, splitFrame_append, if_neg hmax, if_neg hlen, hd]
          · rw [List.append_assoc, decode_header h, splitFrame_append, if_neg hmax,
              if_neg (by rw [List.length_append]; omega), hd]
        | some d =>
          refine Or.inr (Or.inr ⟨hdr, quickack, s.take len, d, s.drop len, by rwa [hbody],
            by omega, by rwa [hbody], by rw [List.take_append_drop], ?_⟩)
          rw [decode_header h, splitFrame_append, if_neg hmax, if_neg hlen, hd]
  · exact Or.inl (hwait maxSize)

end

end FrameCodec

end MtProxy.Stream
