import MtProxy.Proxy.ClientFraming

/-! How a client's stream ends for the relay. The read loop stops without an error if and only if the
    stream is complete frames and then the end of file, before the first bytes of the next header are
    there:

        frame ── frame ── ⋯ ── frame ── (nothing, or less than a length word)

    Every other end (within a frame, at a frame of a wrong size, at a read error) is an error. -/

namespace MtProxy.Proxy
open Schemes MtProxy.Stream FrameCodec MiddleProxy

/-- What the first read of a frame asks for. -/
def firstLen (tag : ProtoTag) : ℕ := if tag = .abridged then 1 else 4

/-- The end of a stream that is an end of file. -/
def ClientStream.EndsPlainly (s : ClientStream) : Prop :=
  ∀ e, s.fault = some e → e.kind = .unexpectedEof

/-- The stream is complete frames of a size that the relay takes, and ends behind them. -/
inductive EndsAtFrame (tag : ProtoTag) (maxFrame : ℕ) : ClientStream → Prop where
  | eof {s} (hshort : s.bytes.length < firstLen tag) (hplain : s.EndsPlainly) :
      EndsAtFrame tag maxFrame s
  | frame (f : WireFrame tag) {s}
      (hlen : f.body = [] ∨ 4 ≤ f.body.length ∧ f.body.length ≤ maxFrame)
      (h : EndsAtFrame tag maxFrame s) : EndsAtFrame tag maxFrame ⟨f.bytes ++ s.bytes, s.fault⟩

/-! ### One header -/

section
variable {tag : ProtoTag} {s t : ClientStream}

theorem readExact_split {n : ℕ} {bs : List UInt8} (h : s.readExact n = .ok (bs, t)) :
    s = ⟨bs ++ t.bytes, t.fault⟩ ∧ bs.length = n := by
  refine ⟨?_, (readExact_ok h).2.1⟩
  unfold ClientStream.readExact at h
  split_ifs at h with hle
  · cases h
    simp
  · cases hf : s.fault <;> simp [hf] at h

theorem readFirst_none_iff {n : ℕ} :
    s.readFirst n = .ok none ↔ s.bytes.length < n ∧ s.EndsPlainly := by
  rw [ClientStream.readFirst, ClientStream.readExact, ClientStream.EndsPlainly]
  split_ifs with hle
  · simp [hle]
  · cases hf : s.fault with
    | none => simp [not_le.mp hle]
    | some e => simp [not_le.mp hle]

theorem readFrameLen_none_iff :
    readFrameLen tag s = .ok none ↔ s.bytes.length < firstLen tag ∧ s.EndsPlainly := by
  rw [← readFirst_none_iff]
  cases tag with
  | abridged =>
    rw [readFrameLen, firstLen, if_pos rfl]
    rcases hr : s.readFirst 1 with e | _ | ⟨first, u⟩
    · exact iff_of_false (by simp) (by simp)
    · exact iff_of_true rfl rfl
    · refine iff_of_false ?_ (by simp)
      dsimp only
      split
      · simp
      · split_ifs <;> simp
  | intermediate | secure =>
    rw [readFrameLen, firstLen, if_neg (by decide)]
    rcases hr : s.readFirst 4 with e | _ | ⟨lenBuf, u⟩
    · exact iff_of_false (by simp) (by simp)
    · exact iff_of_true rfl rfl
    · exact iff_of_false (by simp) (by simp)

/-- A header that was read is one of the framing's. -/
theorem readFrameLen_split {len : ℕ} {quickack : Bool}
    (h : readFrameLen tag s = .ok (some (len, quickack, t))) :
    ∃ hdr, IsHeader tag hdr quickack len ∧ s = ⟨hdr ++ t.bytes, t.fault⟩ := by
  cases tag with
  | abridged =>
    rw [readFrameLen] at h
    rcases hr : s.readFirst 1 with e | _ | ⟨first, u⟩
    · simp [hr] at h
    · simp [hr] at h
    obtain ⟨rfl, hone⟩ := readExact_split (readFirst_some hr)
    obtain ⟨b, rfl⟩ := List.length_eq_one_iff.mp hone
    simp only [hr, List.getD_cons_zero] at h
    split at h
    · cases h
    rename_i words v hwords
    split_ifs at h with hmax
    cases h
    rw [decide_eq_decide.mpr (and_flag8_ne_zero b)]
    split_ifs at hwords with hb
    · rcases he : u.readExact 3 with e | ⟨ext, w⟩ <;> simp only [he] at hwords
      · cases hwords
      cases hwords
      obtain ⟨hu, hext⟩ := readExact_split he
      exact ⟨b :: ext, .long b hb hext, by rw [hu]; rfl⟩
    · cases hwords
      exact ⟨[b], .short b hb, rfl⟩
  | intermediate | secure =>
    rw [readFrameLen] at h
    rcases hr : s.readFirst 4 with e | _ | ⟨lenBuf, u⟩
    · simp [hr] at h
    · simp [hr] at h
    obtain ⟨rfl, hfour⟩ := readExact_split (readFirst_some hr)
    have hlt : leVal lenBuf < 2 ^ 32 := leVal_lt_of_length hfour
    have hval : (u32Val lenBuf &&& 0x7fffffff).toNat = leVal lenBuf % 2 ^ 31 := by
      rw [toNat_and_flag32, u32Val, UInt32.toNat_ofNat', Nat.mod_eq_of_lt hlt]
    simp only [hr] at h
    cases h
    rw [decide_eq_decide.mpr (word_flag hfour), hval]
    exact ⟨lenBuf, .word (by decide) hfour, rfl⟩

end

/-! ### One frame -/

section
variable {tag : ProtoTag} {maxFrame : ℕ} {forensics : RelayForensicsState} {frameCounter : UInt64}
  {s : ClientStream}

/-- The end of a stream is the end of what is behind its first header. -/
theorem endsAtFrame_iff {t : ClientStream} {len : ℕ} {quickack : Bool}
    (h : readFrameLen tag s = .ok (some (len, quickack, t))) :
    EndsAtFrame tag maxFrame s ↔ (len = 0 ∨ 4 ≤ len ∧ len ≤ maxFrame) ∧
      ∃ body u, t.readExact len = .ok (body, u) ∧ EndsAtFrame tag maxFrame u := by
  constructor
  · intro hend
    cases hend with
    | eof hshort hplain => cases (readFrameLen_none_iff.mpr ⟨hshort, hplain⟩).symm.trans h
    | @frame f u hlen hu =>
      have hread := readFrameLen_prefix f.isHeader (f.body ++ u.bytes) u.fault
      rw [WireFrame.bytes, List.append_assoc] at h
      cases hread.symm.trans h
      rw [List.length_eq_zero_iff]
      exact ⟨hlen, f.body, u, readExact_prefix f.body u.bytes u.fault, hu⟩
  · rintro ⟨hlen, body, u, hread, hu⟩
    obtain ⟨hdr, hhdr, rfl⟩ := readFrameLen_split h
    obtain ⟨rfl, rfl⟩ := readExact_split hread
    rw [List.length_eq_zero_iff] at hlen
    have hend := EndsAtFrame.frame ⟨hdr, quickack, body, hhdr⟩ hlen hu
    rw [WireFrame.bytes, List.append_assoc] at hend
    exact hend

theorem EndsAtFrame.header (h : EndsAtFrame tag maxFrame s) (e : ProxyError) :
    readFrameLen tag s ≠ .error e := by
  cases h with
  | eof hshort hplain =>
    rw [readFrameLen_none_iff.mpr ⟨hshort, hplain⟩]
    simp
  | @frame f u hlen hu =>
    rw [WireFrame.bytes, List.append_assoc, readFrameLen_prefix f.isHeader]
    simp

/-- Which frames are read to their end. -/
theorem readFramePayload_some_iff {len : ℕ} {quickack : Bool} (hwords : tag = .abridged → 4 ∣ len)
    (h0 : len ≠ 0) {Q : ClientStream → Prop} :
    (∃ f, readFramePayload tag maxFrame forensics frameCounter len quickack s = .ok (some f) ∧
      Q f.rest) ↔ (4 ≤ len ∧ len ≤ maxFrame) ∧ ∃ body u, s.readExact len = .ok (body, u) ∧ Q u := by
  by_cases hsmall : len < 4 ∧ tag ≠ .abridged
  · rw [readFramePayload, if_pos hsmall]
    exact iff_of_false (by simp) (by omega)
  by_cases hlarge : maxFrame < len
  · rw [readFramePayload, if_neg hsmall, if_pos hlarge]
    exact iff_of_false (by simp) (by omega)
  have h4 : 4 ≤ len := by
    by_cases htag : tag = .abridged
    · exact Nat.le_of_dvd (Nat.pos_of_ne_zero h0) (hwords htag)
    · exact not_lt.mp (fun hlt => hsmall ⟨hlt, htag⟩)
  obtain ⟨d, hd⟩ : ∃ d, (if tag = .secure then securePayloadLenFromWireLen len else some len) =
      some d := by
    rw [securePayloadLenFromWireLen, if_neg (not_lt.mpr h4)]
    exact Option.isSome_iff_exists.mp (by split_ifs <;> rfl)
  simp only [readFramePayload, if_neg hsmall, if_neg hlarge, hd]
  rcases hr : s.readExact len with e | ⟨body, u⟩
  · exact iff_of_false (by simp) (by simp)
  constructor
  · rintro ⟨f, hf, hQ⟩
    cases hf
    exact ⟨⟨h4, not_lt.mp hlarge⟩, body, u, rfl, hQ⟩
  · rintro ⟨-, body', u', h, hQ⟩
    cases h
    exact ⟨_, rfl, hQ⟩

theorem readFramePayload_ne_none {len : ℕ} {quickack : Bool} :
    readFramePayload tag maxFrame forensics frameCounter len quickack s ≠ .ok none := by
  unfold readFramePayload
  dsimp only
  split_ifs <;> (try split) <;> (try split) <;> simp

/-- The stream ends as it does behind the next frame, or it has ended. -/
theorem readClientPayload_end (forensics : RelayForensicsState) (frameCounter : UInt64)
    (s : ClientStream) : EndsAtFrame tag maxFrame s ↔
    readClientPayload tag maxFrame forensics frameCounter s = .ok none ∨
      ∃ f, readClientPayload tag maxFrame forensics frameCounter s = .ok (some f) ∧
        EndsAtFrame tag maxFrame f.rest := by
  refine loop_induct (readClientStep tag maxFrame forensics frameCounter)
    (fun s => s.bytes.length) _
    (P := fun s b => EndsAtFrame tag maxFrame s ↔ b = .ok none ∨
      ∃ f, b = .ok (some f) ∧ EndsAtFrame tag maxFrame f.rest) ?_ ?_ s
  · intro s b hb
    unfold readClientStep at hb
    rcases hr : readFrameLen tag s with e | _ | ⟨len, quickack, t⟩ <;> simp only [hr] at hb
    · cases hb
      refine iff_of_false (fun hend => hend.header e hr) ?_
      rintro (h | ⟨f, h, -⟩)
      · cases h
      · cases h
    · cases hb
      obtain ⟨hshort, hplain⟩ := readFrameLen_none_iff.mp hr
      exact iff_of_true (.eof hshort hplain) (Or.inl rfl)
    · split_ifs at hb with h0
      obtain rfl := Sum.inr.inj hb
      rw [endsAtFrame_iff hr, or_iff_right h0, or_iff_right readFramePayload_ne_none,
        readFramePayload_some_iff (readFrameLen_some hr).2 h0]
  · intro s s' b hs ih
    unfold readClientStep at hs
    rcases hr : readFrameLen tag s with e | _ | ⟨len, quickack, t⟩ <;> simp only [hr] at hs
    · cases hs
    · cases hs
    · split_ifs at hs with h0
      obtain rfl := Sum.inl.inj hs
      have hread : t.readExact 0 = .ok ([], t) := by simp [ClientStream.readExact]
      rw [← ih, endsAtFrame_iff hr, h0, hread]
      constructor
      · rintro ⟨-, body, u, h, hu⟩
        cases h
        exact hu
      · exact fun ht => ⟨Or.inl rfl, [], t, rfl, ht⟩

theorem endsAtFrame_none (h : readClientPayload tag maxFrame forensics frameCounter s = .ok none) :
    EndsAtFrame tag maxFrame s :=
  (readClientPayload_end forensics frameCounter s).mpr (Or.inl h)

theorem endsAtFrame_some {f : ClientFrame}
    (h : readClientPayload tag maxFrame forensics frameCounter s = .ok (some f)) :
    EndsAtFrame tag maxFrame s ↔ EndsAtFrame tag maxFrame f.rest := by
  rw [readClientPayload_end forensics frameCounter s, h]
  constructor
  · rintro (hnone | ⟨g, hg, hrest⟩)
    · cases hnone
    · cases hg
      exact hrest
  · exact fun hrest => Or.inr ⟨f, rfl, hrest⟩

theorem not_endsAtFrame {e : ProxyError}
    (h : readClientPayload tag maxFrame forensics frameCounter s = .error e) :
    ¬ EndsAtFrame tag maxFrame s := by
  rw [readClientPayload_end forensics frameCounter s, h]
  rintro (hnone | ⟨g, hg, -⟩)
  · cases hnone
  · cases hg

end

end MtProxy.Proxy
