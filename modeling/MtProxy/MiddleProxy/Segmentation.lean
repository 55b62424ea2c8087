import MtProxy.MiddleProxy.Reader

/-! `reader_loop` on a stream that the socket cuts in one way or another.

        stream   ├──── read ────┼─ read ─┼────── read ──────┤ end
        plain    ├ 16 ┼ 16 ┼ 16 ┼ 16 ┼ 16 ┼ 16 ┼ 16 ┤ rest of a block
        frames   ├─ frame ─┼ 4 ┼──── frame ────┼─ frame ⋯

    A round of the deframing loop that takes something off the buffer does the same with more bytes
    behind it, and one that waits can be joined when more have come. Only an invalid length makes
    the loop forget whatever has arrived by then, so the reads matter from there on. On a stream
    without one, every way of cutting it comes to what deframing all of it at once does. -/

namespace MtProxy.MiddleProxy
open Crypto Schemes

/-! ### One round -/

/-- A length that is neither a filler's nor a frame's. -/
def BadLength (frameLen : ℕ) : Prop := frameLen ≠ 4 ∧ (frameLen < 12 ∨ maxFrameLen < frameLen)

def Deframer.extend (d : Deframer) (more : List UInt8) : Deframer := { d with dec := d.dec ++ more }

section
variable {crc : RpcCrc} {mode : RpcChecksumMode} {d d' : Deframer}

/-- The deframer has nothing to take off the buffer before more bytes come. -/
def Waits (crc : RpcCrc) (mode : RpcChecksumMode) (d : Deframer) : Prop :=
  deframeStep crc mode true d = .inr (.ok (), d)

/-- There is a filler or a whole frame at the front. -/
def HasFrame (d : Deframer) : Prop :=
  12 ≤ d.dec.length ∧ (leVal (d.dec.take 4) = 4 ∨
    12 ≤ leVal (d.dec.take 4) ∧ leVal (d.dec.take 4) ≤ maxFrameLen ∧
      leVal (d.dec.take 4) ≤ d.dec.length)

theorem deframeStep_cases (d : Deframer) : Waits crc mode d ∨
    (12 ≤ d.dec.length ∧ BadLength (leVal (d.dec.take 4))) ∨ HasFrame d := by
  by_cases h12 : d.dec.length < 12
  · exact .inl (by rw [Waits, deframeStep, if_pos h12])
  by_cases h4 : leVal (d.dec.take 4) = 4
  · exact .inr (.inr ⟨by omega, .inl h4⟩)
  by_cases hbad : leVal (d.dec.take 4) < 12 ∨ maxFrameLen < leVal (d.dec.take 4)
  · exact .inr (.inl ⟨by omega, h4, hbad⟩)
  by_cases hshort : d.dec.length < leVal (d.dec.take 4)
  · refine .inl ?_
    rw [Waits, deframeStep, if_neg h12]
    simp only [if_neg h4, if_neg hbad, if_pos hshort]
  · exact .inr (.inr ⟨by omega, .inr ⟨by omega, by omega, by omega⟩⟩)

/-- What becomes of a whole frame of `fl` bytes when a pong can be handed to the writer. -/
def takeFrame (crc : RpcCrc) (mode : RpcChecksumMode) (d : Deframer) (fl : ℕ) :
    Deframer ⊕ (Except ProxyError Unit × Deframer) :=
  let frame := d.dec.take fl
  let seqNo := i32Val ((frame.drop 4).take 4)
  if crc mode (frame.take (fl - 4)) ≠ u32Val (frame.drop (fl - 4)) then
    .inr (.error (.proxy "CRC mismatch (crypto desync)"), { d with dec := d.dec.drop fl })
  else if seqNo ≠ d.expectedSeq then
    .inr (.error (.seqNoMismatch d.expectedSeq seqNo), { d with dec := d.dec.drop fl })
  else
    .inl ⟨d.dec.drop fl, d.expectedSeq + 1, d.log ++ [.payload ((frame.take (fl - 4)).drop 8)]⟩

theorem deframeStep_filler (h12 : 12 ≤ d.dec.length) (h4 : leVal (d.dec.take 4) = 4) :
    deframeStep crc mode true d = .inl { d with dec := d.dec.drop 4 } := by
  rw [deframeStep, if_neg (by omega)]
  simp only [if_pos h4]

theorem deframeStep_frame (h12 : 12 ≤ d.dec.length) (hmin : 12 ≤ leVal (d.dec.take 4))
    (hmax : leVal (d.dec.take 4) ≤ maxFrameLen) (hle : leVal (d.dec.take 4) ≤ d.dec.length) :
    deframeStep crc mode true d = takeFrame crc mode d (leVal (d.dec.take 4)) := by
  rw [deframeStep, if_neg (by omega)]
  simp only [if_neg (show ¬ leVal (d.dec.take 4) = 4 by omega),
    if_neg (show ¬ (leVal (d.dec.take 4) < 12 ∨ maxFrameLen < leVal (d.dec.take 4)) by omega),
    if_neg (show ¬ d.dec.length < leVal (d.dec.take 4) by omega), Bool.not_true, Bool.and_false,
    Bool.false_eq_true, if_false, takeFrame]

theorem takeFrame_extend {fl : ℕ} (hle : fl ≤ d.dec.length) (more : List UInt8) :
    takeFrame crc mode (d.extend more) fl =
      (takeFrame crc mode d fl).map (·.extend more) (·.map id (·.extend more)) := by
  have htake : (d.dec ++ more).take fl = d.dec.take fl := List.take_append_of_le_length hle
  have hdrop : (d.dec ++ more).drop fl = d.dec.drop fl ++ more := List.drop_append_of_le_length hle
  simp only [takeFrame, Deframer.extend, htake, hdrop]
  split_ifs <;> rfl

/-- With more bytes behind it, a filler or a frame is taken off in the same way. -/
theorem deframeStep_extend (crc : RpcCrc) (mode : RpcChecksumMode) (h : HasFrame d)
    (more : List UInt8) :
    deframeStep crc mode true (d.extend more) =
      (deframeStep crc mode true d).map (·.extend more) (·.map id (·.extend more)) := by
  obtain ⟨h12, hframe⟩ := h
  have hlen : d.dec.length ≤ (d.extend more).dec.length := by
    rw [Deframer.extend, List.length_append]
    exact Nat.le_add_right _ _
  have htake : (d.extend more).dec.take 4 = d.dec.take 4 :=
    List.take_append_of_le_length (by omega)
  rcases hframe with h4 | ⟨hmin, hmax, hle⟩
  · have hdrop : (d.extend more).dec.drop 4 = d.dec.drop 4 ++ more :=
      List.drop_append_of_le_length (by omega)
    rw [deframeStep_filler h12 h4, deframeStep_filler (h12.trans hlen) (htake ▸ h4), hdrop]
    rfl
  · rw [deframeStep_frame h12 hmin hmax hle, deframeStep_frame (h12.trans hlen) (htake ▸ hmin)
      (htake ▸ hmax) (htake ▸ hle.trans hlen), htake, takeFrame_extend hle]

/-- While a pong can be handed to the writer, only an error ends the loop behind a frame. -/
theorem deframeStep_inr (h : HasFrame d) {o : Except ProxyError Unit × Deframer}
    (ho : deframeStep crc mode true d = .inr o) : ∃ e, o.1 = .error e := by
  obtain ⟨h12, h4 | ⟨hmin, hmax, hle⟩⟩ := h
  · rw [deframeStep_filler h12 h4] at ho
    exact absurd ho (by simp)
  · rw [deframeStep_frame h12 hmin hmax hle, takeFrame] at ho
    split_ifs at ho
    · obtain rfl := Sum.inr.inj ho
      exact ⟨_, rfl⟩
    · obtain rfl := Sum.inr.inj ho
      exact ⟨_, rfl⟩

/-- A frame with the right length, checksum and number is the one that is built from its payload. -/
theorem frame_of_fields {frame : List UInt8} {fl : ℕ} {seqNo : Int32} (hlen : frame.length = fl)
    (hmin : 12 ≤ fl) (hfl : leVal (frame.take 4) = fl)
    (hcrc : crc mode (frame.take (fl - 4)) = u32Val (frame.drop (fl - 4)))
    (hseq : i32Val ((frame.drop 4).take 4) = seqNo) :
    frame = buildRpcFrame crc seqNo ((frame.take (fl - 4)).drop 8) mode := by
  have hp : ((frame.take (fl - 4)).drop 8).length = fl - 12 := by
    rw [List.length_drop, List.length_take]
    omega
  have hhead : leBytes 4 (4 + 4 + (fl - 12) + 4) = (frame.take (fl - 4)).take 4 := by
    have h4 : (frame.take 4).length = 4 := List.length_take_of_le (by omega)
    have heq := leBytes_leVal (frame.take 4)
    rw [h4, hfl] at heq
    rw [List.take_take, min_eq_left (by omega), ← heq]
    congr 1
    omega
  have hnum : i32Bytes seqNo = ((frame.take (fl - 4)).drop 4).take 4 := by
    rw [← hseq, i32Bytes_i32Val (by rw [List.length_take, List.length_drop]; omega),
      List.drop_take, List.take_take, min_eq_left (by omega)]
  have hbody : frameBody seqNo ((frame.take (fl - 4)).drop 8) = frame.take (fl - 4) := by
    have hdrop : (frame.take (fl - 4)).drop 8 = ((frame.take (fl - 4)).drop 4).drop 4 := by
      rw [List.drop_drop]
    rw [frameBody, hp, hhead, hnum, List.append_assoc, hdrop, List.take_append_drop,
      List.take_append_drop]
  rw [buildRpcFrame, hbody, hcrc, leBytes_u32Val (by rw [List.length_drop]; omega),
    List.take_append_drop]

/-- What is taken off is a filler, or the frame that was expected. -/
theorem deframeStep_inl (h : HasFrame d) (hd : deframeStep crc mode true d = .inl d') :
    (d.dec = padPattern ++ d'.dec ∧ d'.expectedSeq = d.expectedSeq) ∨
    ∃ p, p.length + 12 ≤ maxFrameLen ∧
      d.dec = buildRpcFrame crc d.expectedSeq p mode ++ d'.dec ∧
      d'.expectedSeq = d.expectedSeq + 1 := by
  obtain ⟨h12, h4 | ⟨hmin, hmax, hle⟩⟩ := h
  · rw [deframeStep_filler h12 h4] at hd
    obtain rfl := Sum.inl.inj hd
    refine .inl ⟨?_, rfl⟩
    have hpad : d.dec.take 4 = padPattern := by
      rw [← leBytes_leVal (d.dec.take 4), h4, List.length_take, min_eq_left (by omega)]
      decide
    rw [← hpad, List.take_append_drop]
  · rw [deframeStep_frame h12 hmin hmax hle, takeFrame] at hd
    split_ifs at hd with hcrc hseq
    obtain rfl := Sum.inl.inj hd
    set fl := leVal (d.dec.take 4) with hfl
    refine .inr ⟨((d.dec.take fl).take (fl - 4)).drop 8, ?_, ?_, rfl⟩
    · simp only [List.length_drop, List.length_take]
      omega
    · have hframe : (d.dec.take fl).length = fl := List.length_take_of_le hle
      have hhead : leVal ((d.dec.take fl).take 4) = fl := by
        rw [List.take_take, min_eq_left (by omega)]
      rw [← frame_of_fields hframe hmin hhead (not_not.mp hcrc) (not_not.mp hseq),
        List.take_append_drop]

/-! ### The deframing loop -/

/-- Behind fillers and the frames that are expected from `seqNo` on there is a bad length, with no
    fewer than eight bytes behind it. -/
def HitsBadLength (crc : RpcCrc) (mode : RpcChecksumMode) (seqNo : Int32) (plain : List UInt8) :
    Prop :=
  ∃ ps s t, plain = s ++ t ∧ WellFramed crc mode seqNo ps s ∧ 12 ≤ t.length ∧
    BadLength (leVal (t.take 4))

theorem hits_of_bad (h12 : 12 ≤ d.dec.length) (hbad : BadLength (leVal (d.dec.take 4)))
    (more : List UInt8) : HitsBadLength crc mode d.expectedSeq (d.dec ++ more) := by
  refine ⟨[], [], d.dec ++ more, rfl, .done _, ?_, ?_⟩
  · rw [List.length_append]
    omega
  · rwa [List.take_append_of_le_length (by omega)]

theorem hits_of_inl (h : HasFrame d) (hd : deframeStep crc mode true d = .inl d')
    {more : List UInt8} (hits : HitsBadLength crc mode d'.expectedSeq (d'.dec ++ more)) :
    HitsBadLength crc mode d.expectedSeq (d.dec ++ more) := by
  obtain ⟨ps, s, t, hsplit, hwf, h12, hbad⟩ := hits
  rcases deframeStep_inl h hd with ⟨hdec, hseq⟩ | ⟨p, hp, hdec, hseq⟩
  · refine ⟨ps, padPattern ++ s, t, ?_, .filler (hseq ▸ hwf), h12, hbad⟩
    rw [hdec, List.append_assoc, hsplit, List.append_assoc]
  · refine ⟨p :: ps, buildRpcFrame crc d.expectedSeq p mode ++ s, t, ?_, .frame hp (hseq ▸ hwf), h12,
      hbad⟩
    rw [hdec, List.append_assoc, hsplit, List.append_assoc]

/-- The loop on what has arrived, and the loop with `more` behind it: the first one waits where the
    second one passes, or both end with the same error. -/
theorem deframe_append (more : List UInt8) (d : Deframer) :
    ¬ HitsBadLength crc mode d.expectedSeq (d.dec ++ more) →
    (∃ t, deframe crc mode true d = (.ok (), t) ∧ Waits crc mode t ∧
      ¬ HitsBadLength crc mode t.expectedSeq (t.dec ++ more) ∧
      deframe crc mode true (d.extend more) = deframe crc mode true (t.extend more)) ∨
    ∃ e t, deframe crc mode true d = (.error e, t) ∧
      deframe crc mode true (d.extend more) = (.error e, t.extend more) := by
  refine loop_induct (deframeStep crc mode true) (fun d => d.dec.length) _
    (P := fun d b => ¬ HitsBadLength crc mode d.expectedSeq (d.dec ++ more) →
      (∃ t, b = (.ok (), t) ∧ Waits crc mode t ∧
        ¬ HitsBadLength crc mode t.expectedSeq (t.dec ++ more) ∧
        deframe crc mode true (d.extend more) = deframe crc mode true (t.extend more)) ∨
      ∃ e t, b = (.error e, t) ∧ deframe crc mode true (d.extend more) = (.error e, t.extend more))
    ?_ ?_ d
  · intro d b hb hits
    rcases deframeStep_cases d with hwait | ⟨h12, hbad⟩ | hframe
    · obtain rfl := Sum.inr.inj (hwait.symm.trans hb)
      exact .inl ⟨d, rfl, hwait, hits, rfl⟩
    · exact absurd (hits_of_bad h12 hbad more) hits
    · obtain ⟨e, he⟩ := deframeStep_inr hframe hb
      refine .inr ⟨e, b.2, Prod.ext he rfl, ?_⟩
      have hext := deframeStep_extend crc mode hframe more
      rw [hb] at hext
      exact (loop_inr _ _ _ hext).trans (Prod.ext he rfl)
  · intro d d' b hd ih hits
    rcases deframeStep_cases d with hwait | ⟨h12, hbad⟩ | hframe
    · exact absurd (hwait.symm.trans hd) (by simp)
    · exact absurd (hits_of_bad h12 hbad more) hits
    · have hext : deframe crc mode true (d.extend more) = deframe crc mode true (d'.extend more) := by
        have hext := deframeStep_extend crc mode hframe more
        rw [hd] at hext
        exact loop_inl _ _ _ hext
      rw [hext]
      exact ih fun h => hits (hits_of_inl hframe hd h)

/-! ### The reader -/

/-- The plaintext of the whole blocks of a cipher stream. -/
def plainOf (aes : BlockCipher) (dk : AesKey) (iv : AesBlock) (stream : List UInt8) : List UInt8 :=
  match AesCbc.decryptInPlace aes ⟨dk, iv⟩ (stream.take (stream.length / 16 * 16)) with
  | .ok plain => plain
  | .error _ => []

def closedByPeer : ProxyError := .io ⟨.unexpectedEof, "ME socket closed by peer"⟩

/-- Deframe everything at once, and then the stream ends. -/
def deframeAll (crc : RpcCrc) (mode : RpcChecksumMode) (d : Deframer) :
    Except ProxyError Unit × List Deframed :=
  match deframe crc mode true d with
  | (.ok (), d) => (.error closedByPeer, d.log)
  | (.error e, d) => (.error e, d.log)

variable {aes : BlockCipher} {dk : AesKey}

theorem plainOf_short {iv : AesBlock} {stream : List UInt8} (h : stream.length < 16) :
    plainOf aes dk iv stream = [] := by
  rw [plainOf, Nat.div_eq_of_lt h, Nat.zero_mul, List.take_zero, decryptInPlace_nil]

/-- Decrypting whole blocks moves the boundary between what is read and what is to come. -/
theorem decryptBlocks_plainOf (aes : BlockCipher) (dk : AesKey) (s : ReaderState)
    (rest : List UInt8) : ∃ s' plain, decryptBlocks aes dk s = .ok s' ∧ s'.raw.length < 16 ∧
      s'.deframer = s.deframer.extend plain ∧
      plainOf aes dk s.div (s.raw ++ rest) = plain ++ plainOf aes dk s'.div (s'.raw ++ rest) := by
  unfold decryptBlocks
  set n := s.raw.length / 16 * 16 with hn
  by_cases h0 : 0 < n
  · have hle : n ≤ s.raw.length := by omega
    set m := (s.raw.drop n ++ rest).length / 16 * 16 with hm
    have hlen : (s.raw ++ rest).length / 16 * 16 = n + m := by
      rw [hm, List.length_append, List.length_append, List.length_drop]
      omega
    have hsplit : (s.raw ++ rest).take ((s.raw ++ rest).length / 16 * 16) =
        s.raw.take n ++ (s.raw.drop n ++ rest).take m := by
      rw [hlen]
      conv_lhs => rw [← List.take_append_drop n s.raw, List.append_assoc]
      rw [List.take_append, List.take_of_length_le (by rw [List.length_take]; omega)]
      congr 2
      rw [List.length_take]
      omega
    have ha : blockSize ∣ (s.raw.take n).length := by
      rw [List.length_take]
      simp only [blockSize]
      omega
    have hb : blockSize ∣ ((s.raw.drop n ++ rest).take m).length := by
      rw [List.length_take]
      simp only [blockSize]
      omega
    obtain ⟨pa, pb, hpa, hpb, hpab⟩ := decryptInPlace_append aes dk s.div ha hb
    refine ⟨⟨s.raw.drop n, lastBlock s.div (s.raw.take n), s.deframer.extend pa⟩, pa,
      by simp only [if_pos h0, hpa]; rfl, ?_, rfl, ?_⟩
    · rw [List.length_drop]
      omega
    · simp only [plainOf, hsplit, hpab, ← hm, hpb]
  · refine ⟨s, [], by simp only [if_neg h0], by omega, ?_, rfl⟩
    simp [Deframer.extend]

/-- However the rest of the stream is cut into reads, the reader comes to what deframing all of it at
    once does. -/
theorem readerLoop_eq_deframeAll (reads : List (List UInt8)) (s : ReaderState)
    (hne : ∀ r ∈ reads, r ≠ []) (hraw : s.raw.length < 16) (hwait : Waits crc mode s.deframer)
    (hits : ¬ HitsBadLength crc mode s.deframer.expectedSeq
      (s.deframer.dec ++ plainOf aes dk s.div (s.raw ++ reads.flatten))) :
    (readerLoop aes crc dk mode true s (reads ++ [[]])).map id (·.deframer.log) =
      deframeAll crc mode
        (s.deframer.extend (plainOf aes dk s.div (s.raw ++ reads.flatten))) := by
  induction reads generalizing s with
  | nil =>
    have hnil : s.deframer.extend (plainOf aes dk s.div (s.raw ++ [].flatten)) = s.deframer := by
      rw [List.flatten_nil, List.append_nil, plainOf_short hraw]
      simp [Deframer.extend]
    have hdeframe : deframe crc mode true s.deframer = (.ok (), s.deframer) := loop_inr _ _ _ hwait
    rw [hnil, deframeAll, hdeframe]
    rfl
  | cons read reads ih =>
    obtain ⟨s₁, plain, hdec, hraw₁, hext, hplain⟩ :=
      decryptBlocks_plainOf aes dk { s with raw := s.raw ++ read } reads.flatten
    simp only [List.append_assoc] at hplain
    set rest := plainOf aes dk s₁.div (s₁.raw ++ reads.flatten) with hrest
    rw [List.flatten_cons, hplain] at hits ⊢
    have hjoin : s.deframer.extend (plain ++ rest) = s₁.deframer.extend rest := by
      rw [hext]
      simp [Deframer.extend]
    have hits₁ : ¬ HitsBadLength crc mode s₁.deframer.expectedSeq (s₁.deframer.dec ++ rest) := by
      rw [hext]
      simpa [Deframer.extend] using hits
    have hread : readerStep aes crc dk mode true s read =
        ((deframe crc mode true s₁.deframer).1,
          { s₁ with deframer := (deframe crc mode true s₁.deframer).2 }) := by
      rw [readerStep, if_neg (by simpa using hne read (by simp)), hdec]
    rw [List.cons_append, readerLoop, hread, hjoin]
    rcases deframe_append rest s₁.deframer hits₁ with ⟨t, ht, hwait, hits', heq⟩ | ⟨e, t, ht, heq⟩
    · rw [deframeAll, heq, ← deframeAll, ht]
      exact ih { s₁ with deframer := t } (fun r hr => hne r (List.mem_cons_of_mem _ hr)) hraw₁ hwait
        hits'
    · rw [deframeAll, heq, ht]
      rfl

end

/-! ### Two ways of cutting a stream -/

/-- The payloads among what the deframer reported. -/
def dispatched (log : List Deframed) : List (List UInt8) :=
  log.filterMap fun
    | .payload p => some p
    | .invalidLen _ => none

/-- What `reader_loop` dispatches out of these reads and how it ends, when the peer closes the
    connection behind them. -/
def readAll (aes : BlockCipher) (crc : RpcCrc) (key : AesKey) (mode : RpcChecksumMode)
    (iv : AesBlock) (reads : List (List UInt8)) : Except ProxyError Unit × List (List UInt8) :=
  (readerLoop aes crc key mode true (.init iv) (reads ++ [[]])).map id
    (fun s => dispatched s.deframer.log)

/-- Without a bad length in the plaintext, the cut into reads does not matter. -/
theorem segmentation_independent (aes : BlockCipher) (crc : RpcCrc) (key : AesKey)
    (mode : RpcChecksumMode) (iv : AesBlock) (stream : List UInt8)
    (hgood : ¬ HitsBadLength crc mode 0 (plainOf aes key iv stream)) :
    ∀ reads₁ reads₂ : List (List UInt8), (∀ r ∈ reads₁, r ≠ []) → (∀ r ∈ reads₂, r ≠ []) →
      reads₁.flatten = stream → reads₂.flatten = stream →
        readAll aes crc key mode iv reads₁ = readAll aes crc key mode iv reads₂ := by
  have hone : ∀ reads : List (List UInt8), (∀ r ∈ reads, r ≠ []) → reads.flatten = stream →
      readAll aes crc key mode iv reads =
        (deframeAll crc mode ⟨plainOf aes key iv stream, 0, []⟩).map id dispatched := by
    rintro reads hreads rfl
    have heq : (readerLoop aes crc key mode true (.init iv) (reads ++ [[]])).map id
        (·.deframer.log) = deframeAll crc mode ⟨plainOf aes key iv reads.flatten, 0, []⟩ :=
      readerLoop_eq_deframeAll reads (.init iv) hreads (by simp [ReaderState.init]) rfl
        (by simpa [ReaderState.init] using hgood)
    rw [readAll, ← heq]
    rfl
  intro reads₁ reads₂ hne₁ hne₂ hcut₁ hcut₂
  rw [hone reads₁ hne₁ hcut₁, hone reads₂ hne₂ hcut₂]

/-! ### A stream for which the cut matters -/

/-- A table-free CRC with the given reversed polynomial. -/
def crcWith (poly : UInt32) (bs : List UInt8) : UInt32 :=
  let bit (crc : UInt32) : UInt32 := if crc &&& 1 = 1 then (crc >>> 1) ^^^ poly else crc >>> 1
  bs.foldl (fun crc b => (List.range 8).foldl (fun crc _ => bit crc) (crc ^^^ b.toUInt32))
    0xffffffff ^^^ 0xffffffff

/-- CRC-32 and CRC-32C. -/
def rpcCrc : RpcCrc
  | .crc32, bs => crcWith 0xedb88320 bs
  | .crc32c, bs => crcWith 0x82f63b78 bs

theorem length_blockOf (bytes : List UInt8) :
    ((bytes ++ List.replicate blockSize 0).take blockSize).length = blockSize := by simp

/-- The bytes as a block, filled up with zeros. -/
def blockOf (bytes : List UInt8) : AesBlock :=
  ⟨(bytes ++ List.replicate blockSize 0).take blockSize, length_blockOf bytes⟩

theorem length_sampleKey : ((List.range 32).map UInt8.ofNat).length = 32 := rfl

/-- The key `00 01 ⋯ 1f`. -/
def sampleKey : AesKey := ⟨(List.range 32).map UInt8.ofNat, length_sampleKey⟩

/-- A permutation of the blocks that exchanges those of each pair. -/
def exchange : List (AesBlock × AesBlock) → Equiv.Perm AesBlock
  | [] => 1
  | (x, y) :: pairs => Equiv.swap x y * exchange pairs

/-- A cipher that encrypts the first block of each of these pairs to the second. -/
def cipherWith (pairs : List (AesBlock × AesBlock)) : BlockCipher :=
  ⟨fun _ => exchange pairs, fun _ => (exchange pairs).symm, fun _ => (exchange pairs).symm_apply_apply⟩

/-- A block with the length 1, and the cipher block of it. -/
def badBlock : AesBlock × AesBlock :=
  (blockOf [1], blockOf [199, 181, 25, 132, 106, 17, 65, 28, 214, 172, 7, 203, 3, 248, 1, 168])

/-- The frame of the payload `01 02 03 04` with the number 0, chained to `badBlock`. -/
def chainedFrame : AesBlock × AesBlock :=
  (blockOf [215, 181, 25, 132, 106, 17, 65, 28, 215, 174, 4, 207, 65, 247, 180, 72],
    blockOf [235, 198, 244, 98, 229, 202, 91, 98, 79, 76, 136, 247, 226, 88, 74, 214])

/-- The same frame at the start of a stream. -/
def firstFrame : AesBlock × AesBlock :=
  (blockOf [16, 0, 0, 0, 0, 0, 0, 0, 1, 2, 3, 4, 66, 15, 181, 224],
    blockOf [19, 163, 235, 152, 243, 224, 187, 250, 0, 132, 31, 49, 132, 73, 160, 103])

/-- AES-256 with `sampleKey`, as it is on these blocks. -/
def sampleAes : BlockCipher := cipherWith [badBlock, chainedFrame, firstFrame]

/-- The bad length and the frame in two reads: the frame is dispatched. In one read: it is gone. -/
theorem segmentation_dependent :
    readAll sampleAes rpcCrc sampleKey .crc32 (blockOf [])
        [badBlock.2.toList, chainedFrame.2.toList] =
      (.error closedByPeer, [[1, 2, 3, 4]]) ∧
    readAll sampleAes rpcCrc sampleKey .crc32 (blockOf [])
        [badBlock.2.toList ++ chainedFrame.2.toList] =
      (.error closedByPeer, []) := by
  constructor
  · decide +kernel
  · decide +kernel

theorem not_hits_firstFrame :
    ¬ HitsBadLength rpcCrc .crc32 0
      (plainOf sampleAes sampleKey (blockOf []) firstFrame.2.toList) := by
  have hplain : plainOf sampleAes sampleKey (blockOf []) firstFrame.2.toList =
      firstFrame.1.toList := by decide +kernel
  rintro ⟨ps, s, t, hsplit, hwf, h12, hbad⟩
  rw [hplain] at hsplit
  have hlen : s.length + t.length = 16 := by
    rw [← List.length_append, ← hsplit]
    rfl
  cases hwf with
  | done =>
    rw [List.nil_append] at hsplit
    subst hsplit
    revert hbad
    unfold BadLength
    decide +kernel
  | filler hwf =>
    have := congrArg (List.take 1) hsplit
    exact absurd this (by simp [padPattern]; decide +kernel)
  | frame hp hwf =>
    simp only [List.length_append, length_buildRpcFrame] at hlen
    omega

theorem segmentation_independent_firstFrame :
    readAll sampleAes rpcCrc sampleKey .crc32 (blockOf []) [firstFrame.2.toList] =
      readAll sampleAes rpcCrc sampleKey .crc32 (blockOf [])
        [firstFrame.2.toList.take 5, firstFrame.2.toList.drop 5] :=
  segmentation_independent sampleAes rpcCrc sampleKey .crc32 (blockOf []) firstFrame.2.toList
    not_hits_firstFrame _ _ (by decide +kernel) (by decide +kernel) (by decide +kernel)
    (by decide +kernel)

end MtProxy.MiddleProxy
