import MtProxy.MiddleProxy.Codec
import MtProxy.Schemes.Loop

/-! `reader_loop`: the receiving side of a Middle-End connection. Bytes are collected in `raw`, whole
    cipher blocks are decrypted into `dec`, and frames are taken off the front of `dec`.

        socket ──▶ raw ──blocks of 16──▶ dec ──▶ 04 00 00 00: skip
                                              ──▶ frame: checksum, sequence number, payload
                                              ──▶ any other length: drop the buffer

    `WellFramed` describes a plaintext stream of frames and fillers; the deframer takes such a
    stream apart whatever part of it has arrived, which gives the round trip with `RpcWriter`. -/

namespace MtProxy.MiddleProxy
open Crypto Schemes

def rpcProxyAns : UInt32 := 0x4403da0d
def rpcCloseConn : UInt32 := 0x1fcf425d
def rpcCloseExt : UInt32 := 0x5eb634a2
def rpcSimpleAck : UInt32 := 0x3bac409b
def rpcPing : UInt32 := 0x5730a2df
def rpcPong : UInt32 := 0x8430eaa7

def u32Val (bs : List UInt8) : UInt32 := UInt32.ofNat (leVal bs)
def u64Val (bs : List UInt8) : UInt64 := UInt64.ofNat (leVal bs)
def i64Val (bs : List UInt8) : Int64 := ⟨u64Val bs⟩

theorem i32Bytes_i32Val {bs : List UInt8} (h : bs.length = 4) : i32Bytes (i32Val bs) = bs := by
  have hlt : leVal bs < 2 ^ 32 := leVal_lt_of_length h
  have hval : (i32Val bs).toBitVec.toNat = leVal bs := by
    rw [i32Val]
    exact Nat.mod_eq_of_lt hlt
  rw [i32Bytes, hval]
  exact h ▸ leBytes_leVal bs

theorem leBytes_u32Val {bs : List UInt8} (h : bs.length = 4) : leBytes 4 (u32Val bs).toNat = bs := by
  have hlt : leVal bs < 2 ^ 32 := leVal_lt_of_length h
  rw [u32Val, UInt32.toNat_ofNat_of_lt' hlt]
  exact h ▸ leBytes_leVal bs

/-- What `reader_loop` makes of a payload; `ignored` is one without even a type. -/
inductive RpcMessage where
  | ignored
  | proxyAns (flags : UInt32) (cid : UInt64) (data : List UInt8)
  | simpleAck (cid : UInt64) (confirm : UInt32)
  | closeExt (cid : UInt64)
  | closeConn (cid : UInt64)
  | ping (id : Int64)
  | pong (id : Int64)
  | unknown (rpcType : UInt32) (len : ℕ)
  deriving DecidableEq

def RpcMessage.ofPayload (payload : List UInt8) : RpcMessage :=
  if payload.length < 4 then .ignored
  else
    let pt := u32Val (payload.take 4)
    let body := payload.drop 4
    if pt = rpcProxyAns ∧ 12 ≤ body.length then
      .proxyAns (u32Val (body.take 4)) (u64Val ((body.drop 4).take 8)) (body.drop 12)
    else if pt = rpcSimpleAck ∧ 12 ≤ body.length then
      .simpleAck (u64Val (body.take 8)) (u32Val ((body.drop 8).take 4))
    else if pt = rpcCloseExt ∧ 8 ≤ body.length then .closeExt (u64Val (body.take 8))
    else if pt = rpcCloseConn ∧ 8 ≤ body.length then .closeConn (u64Val (body.take 8))
    else if pt = rpcPing ∧ 8 ≤ body.length then .ping (i64Val (body.take 8))
    else if pt = rpcPong ∧ 8 ≤ body.length then .pong (i64Val (body.take 8))
    else .unknown pt body.length

/-- Answering this payload needs the writer's command channel to be open: it is a ping. -/
def needsChannel (payload : List UInt8) : Bool :=
  match RpcMessage.ofPayload payload with
  | .ping _ => true
  | _ => false

/-- What the deframer reports: a payload that passed all checks, or a length it cannot use. -/
inductive Deframed where
  | payload (p : List UInt8)
  | invalidLen (frameLen : ℕ)
  deriving DecidableEq

structure Deframer where
  dec : List UInt8
  expectedSeq : Int32
  log : List Deframed

/-- `1 << 24`, the longest frame. -/
def maxFrameLen : ℕ := 16777216

section
variable (crc : RpcCrc) (crcMode : RpcChecksumMode) (txOpen : Bool)

/-- One round of the deframing loop; `txOpen` says whether a pong can be handed to the writer. -/
def deframeStep (d : Deframer) : Deframer ⊕ (Except ProxyError Unit × Deframer) :=
  if d.dec.length < 12 then .inr (.ok (), d)
  else
    let fl := leVal (d.dec.take 4)
    if fl = 4 then .inl { d with dec := d.dec.drop 4 }
    else if fl < 12 ∨ maxFrameLen < fl then
      .inr (.ok (), { d with dec := [], log := d.log ++ [.invalidLen fl] })
    else if d.dec.length < fl then .inr (.ok (), d)
    else
      let frame := d.dec.take fl
      let dec := d.dec.drop fl
      let pe := fl - 4
      let seqNo := i32Val ((frame.drop 4).take 4)
      let payload := (frame.take pe).drop 8
      if crc crcMode (frame.take pe) ≠ u32Val (frame.drop pe) then
        .inr (.error (.proxy "CRC mismatch (crypto desync)"), { d with dec := dec })
      else if seqNo ≠ d.expectedSeq then
        .inr (.error (.seqNoMismatch d.expectedSeq seqNo), { d with dec := dec })
      else
        let d' : Deframer := ⟨dec, d.expectedSeq + 1, d.log ++ [.payload payload]⟩
        if needsChannel payload && !txOpen then .inr (.ok (), d') else .inl d'

theorem deframeStep_lt {d d' : Deframer} (h : deframeStep crc crcMode txOpen d = .inl d') :
    d'.dec.length < d.dec.length := by
  unfold deframeStep at h
  simp only at h
  split_ifs at h with h12 h4 hbad hshort hcrc hseq hping
  · cases h
    simp only [List.length_drop]
    omega
  · cases h
    simp only [List.length_drop]
    omega

/-- The `while dec.len() >= 12` loop. -/
def deframe (d : Deframer) : Except ProxyError Unit × Deframer :=
  loop (deframeStep crc crcMode txOpen) (fun d => d.dec.length)
    (fun _ _ => deframeStep_lt crc crcMode txOpen) d

end

structure ReaderState where
  raw : List UInt8
  div : AesBlock
  deframer : Deframer

/-- The state `reader_loop` starts in, with nothing left over from the handshake. -/
def ReaderState.init (div : AesBlock) : ReaderState := ⟨[], div, ⟨[], 0, []⟩⟩

section
variable (aes : BlockCipher) (crc : RpcCrc) (dk : AesKey) (crcMode : RpcChecksumMode)
  (txOpen : Bool)

/-- Decrypt the whole blocks of `raw` into `dec`. -/
def decryptBlocks (s : ReaderState) : Except ProxyError ReaderState :=
  let blocks := s.raw.length / 16 * 16
  if 0 < blocks then
    match AesCbc.decryptInPlace aes ⟨dk, s.div⟩ (s.raw.take blocks) with
    | .error (.crypto e) => .error (.crypto s!"Crypto error: {e}")
    | .error e => .error e
    | .ok chunk =>
      .ok ⟨s.raw.drop blocks, lastBlock s.div (s.raw.take blocks),
        { s.deframer with dec := s.deframer.dec ++ chunk }⟩
  else .ok s

/-- One iteration of `reader_loop`: the socket gave `read` (nothing means end of stream). -/
def readerStep (s : ReaderState) (read : List UInt8) : Except ProxyError Unit × ReaderState :=
  if read.isEmpty then
    (.error (.io ⟨.unexpectedEof, "ME socket closed by peer"⟩), s)
  else
    match decryptBlocks aes dk { s with raw := s.raw ++ read } with
    | .error e => (.error e, { s with raw := s.raw ++ read })
    | .ok s =>
      ((deframe crc crcMode txOpen s.deframer).1,
        { s with deframer := (deframe crc crcMode txOpen s.deframer).2 })

/-- `reader_loop` over a sequence of reads; an error ends it. -/
def readerLoop : ReaderState → List (List UInt8) → Except ProxyError Unit × ReaderState
  | s, [] => (.ok (), s)
  | s, read :: reads =>
    match readerStep aes crc dk crcMode txOpen s read with
    | (.ok (), s) => readerLoop s reads
    | (.error e, s) => (.error e, s)

end

/-! ### Well-framed plaintext -/

section
variable {crc : RpcCrc} {mode : RpcChecksumMode}

/-- A payload that fits a frame and keeps the stream aligned to the filler. -/
def Sendable (p : List UInt8) : Prop := 4 ∣ p.length ∧ p.length + 12 ≤ maxFrameLen

/-- `s` consists of fillers and of the frames of `ps`, numbered from `seqNo` on. -/
inductive WellFramed (crc : RpcCrc) (mode : RpcChecksumMode) :
    Int32 → List (List UInt8) → List UInt8 → Prop
  | done (seqNo) : WellFramed crc mode seqNo [] []
  | filler {seqNo ps s} : WellFramed crc mode seqNo ps s →
      WellFramed crc mode seqNo ps (padPattern ++ s)
  | frame {seqNo p ps s} : p.length + 12 ≤ maxFrameLen → WellFramed crc mode (seqNo + 1) ps s →
      WellFramed crc mode seqNo (p :: ps) (buildRpcFrame crc seqNo p mode ++ s)

/-- Filler bytes in front, any multiple of four of them. -/
theorem wellFramed_fillers {seqNo : Int32} {ps : List (List UInt8)} {s : List UInt8}
    (h : WellFramed crc mode seqNo ps s) (n : ℕ) :
    WellFramed crc mode seqNo ps (fillers (4 * n) ++ s) := by
  induction n with
  | zero => simpa [fillers] using h
  | succ n ih =>
    rw [Nat.mul_succ, fillers_four, List.append_assoc]
    exact .filler ih

/-- What a sequence of sends puts on the wire is well framed. -/
theorem wellFramed_framesFrom (seqNo : Int32) {ps : List (List UInt8)}
    (h : ∀ p ∈ ps, Sendable p) : WellFramed crc mode seqNo ps (framesFrom crc mode seqNo ps) := by
  induction ps generalizing seqNo with
  | nil => exact .done seqNo
  | cons p ps ih =>
    obtain ⟨⟨k, hk⟩, hlen⟩ := h p (by simp)
    have hrest := ih (seqNo + 1) (fun q hq => h q (List.mem_cons_of_mem _ hq))
    have hpad : ∃ n, (blockSize - (buildRpcFrame crc seqNo p mode).length % blockSize) % blockSize =
        4 * n := by
      rw [length_buildRpcFrame, hk]
      simp only [blockSize]
      exact ⟨(16 - (4 * k + 12) % 16) % 16 / 4, by omega⟩
    obtain ⟨n, hn⟩ := hpad
    rw [framesFrom, padFrame, hn, List.append_assoc]
    exact .frame hlen (wellFramed_fillers hrest n)

/-- Fewer than twelve bytes hold no frame. -/
theorem wellFramed_short {seqNo : Int32} {ps : List (List UInt8)} {s : List UInt8}
    (h : WellFramed crc mode seqNo ps s) (hlt : s.length < 12) : ps = [] := by
  induction h with
  | done => rfl
  | filler _ ih =>
    rw [List.length_append] at hlt
    exact ih (by omega)
  | frame _ _ _ =>
    rw [List.length_append, length_buildRpcFrame] at hlt
    omega

/-! ### Taking a well-framed stream apart -/

/-- A record of known length at the front of a stream is there once enough bytes have arrived. -/
theorem front_split {dec rest c s : List UInt8} (h : dec ++ rest = c ++ s)
    (hlen : c.length ≤ dec.length) : ∃ t, dec = c ++ t ∧ s = t ++ rest := by
  obtain ⟨t, rfl⟩ := List.prefix_of_prefix_length_le (h ▸ List.prefix_append c s)
    (List.prefix_append dec rest) hlen
  rw [List.append_assoc] at h
  exact ⟨t, rfl, (List.append_cancel_left h).symm⟩

/-- The length field of a frame, read from as many bytes as there are. -/
theorem frame_len {dec rest p s : List UInt8} {seqNo : Int32}
    (h : dec ++ rest = buildRpcFrame crc seqNo p mode ++ s) (hdec : 4 ≤ dec.length)
    (hp : p.length + 12 ≤ maxFrameLen) : leVal (dec.take 4) = p.length + 12 := by
  have htake : dec.take 4 = leBytes 4 (4 + 4 + p.length + 4) := by
    have := congrArg (List.take 4) h
    rw [List.take_append_of_le_length hdec] at this
    rw [this, buildRpcFrame, frameBody, List.append_assoc, List.append_assoc, List.append_assoc]
    exact List.take_left' (length_leBytes 4 _)
  simp only [maxFrameLen] at hp
  rw [htake, leVal_leBytes_of_lt (by omega)]
  omega

/-- The fields of a complete frame at the front of the buffer. -/
theorem frame_fields (crc : RpcCrc) (mode : RpcChecksumMode) (seqNo : Int32) (p t : List UInt8) :
    let frame := (buildRpcFrame crc seqNo p mode ++ t).take (p.length + 12)
    frame.take (p.length + 8) = frameBody seqNo p ∧
      u32Val (frame.drop (p.length + 8)) = crc mode (frameBody seqNo p) ∧
      i32Val ((frame.drop 4).take 4) = seqNo ∧ (frame.take (p.length + 8)).drop 8 = p := by
  have hframe : (buildRpcFrame crc seqNo p mode ++ t).take (p.length + 12) =
      buildRpcFrame crc seqNo p mode := List.take_left' (length_buildRpcFrame crc seqNo p mode)
  have hbody : (frameBody seqNo p).length = p.length + 8 := by rw [length_frameBody]; omega
  have htake : (buildRpcFrame crc seqNo p mode).take (p.length + 8) = frameBody seqNo p :=
    List.take_left' hbody
  have hdrop : (buildRpcFrame crc seqNo p mode).drop (p.length + 8) =
      leBytes 4 (crc mode (frameBody seqNo p)).toNat := List.drop_left' hbody
  have hseq : ((buildRpcFrame crc seqNo p mode).drop 4).take 4 = i32Bytes seqNo := by
    rw [buildRpcFrame, frameBody, List.append_assoc, List.append_assoc,
      List.drop_left' (length_leBytes 4 _)]
    exact List.take_left' (length_leBytes 4 _)
  have hpay : (frameBody seqNo p).drop 8 = p := by
    rw [frameBody]
    exact List.drop_left' (by simp [i32Bytes])
  intro frame
  simp only [frame, hframe, htake, hdrop, hseq, hpay, i32Val_i32Bytes, true_and, and_true]
  rw [u32Val, leVal_leBytes_of_lt (UInt32.toNat_lt _), UInt32.ofNat_toNat]

/-- The deframer is at the front of a well-framed stream of which `dec` has arrived and `rest` has
    not; `sent` is the whole list of payloads, its head already reported. -/
structure InStep (crc : RpcCrc) (mode : RpcChecksumMode) (sent : List (List UInt8))
    (rest : List UInt8) (d : Deframer) : Prop where
  split : ∃ got left, sent = got ++ left ∧ d.log = got.map .payload ∧
    WellFramed crc mode d.expectedSeq left (d.dec ++ rest)

/-- One round on a well-framed stream: it goes on in step, or it waits for more bytes, and then
    nothing is left to report if no more are coming. -/
theorem deframeStep_inStep {sent : List (List UInt8)} {rest : List UInt8} {d : Deframer}
    (hd : InStep crc mode sent rest d) :
    (∃ d', deframeStep crc mode true d = .inl d' ∧ InStep crc mode sent rest d') ∨
    (deframeStep crc mode true d = .inr (.ok (), d) ∧ (rest = [] → d.log = sent.map .payload)) := by
  obtain ⟨got, left, hsent, hlog, hwf⟩ := hd
  have hlast : left = [] → d.log = sent.map .payload := by
    rintro rfl
    rw [hlog, hsent, List.append_nil]
  generalize hs : d.dec ++ rest = s at hwf
  have hslen := congrArg List.length hs
  rw [List.length_append] at hslen
  by_cases h12 : d.dec.length < 12
  · refine Or.inr ⟨by rw [deframeStep, if_pos h12], fun hrest => hlast ?_⟩
    -- fewer than twelve bytes and no more to come: they are fillers
    subst hrest
    rw [List.append_nil] at hs
    exact wellFramed_short hwf (hs ▸ h12)
  · rw [deframeStep, if_neg h12]
    cases hwf with
    | done => rw [List.length_nil] at hslen; omega
    | filler hwf =>
      obtain ⟨t, ht, rfl⟩ := front_split hs (show 4 ≤ _ by omega)
      have hfl : leVal (d.dec.take 4) = 4 := by rw [ht]; rfl
      refine Or.inl ⟨{ d with dec := d.dec.drop 4 }, by simp only [hfl, if_true], got, left, hsent,
        hlog, ?_⟩
      rwa [ht, show (padPattern ++ t).drop 4 = t from rfl]
    | @frame _ p ps s hp hwf =>
      have hfl := frame_len hs (by omega) hp
      simp only [hfl, if_neg (show ¬ p.length + 12 = 4 by omega),
        if_neg (show ¬ (p.length + 12 < 12 ∨ maxFrameLen < p.length + 12) by omega)]
      by_cases hshort : d.dec.length < p.length + 12
      · refine Or.inr ⟨by rw [if_pos hshort], fun hrest => ?_⟩
        rw [hrest, List.length_append, length_buildRpcFrame, List.length_nil] at hslen
        omega
      · obtain ⟨t, ht, rfl⟩ := front_split hs (by rw [length_buildRpcFrame]; omega)
        obtain ⟨hbody, hcrc, hseq, hpay⟩ :=
          frame_fields crc mode d.expectedSeq p t
        rw [if_neg hshort, show p.length + 12 - 4 = p.length + 8 by omega, ht, hbody, hcrc, hseq]
        refine Or.inl ⟨⟨t, d.expectedSeq + 1, d.log ++ [.payload p]⟩, ?_, got ++ [p], ps,
          by simp [hsent], ?_, hwf⟩
        · rw [hbody] at hpay
          simp [hpay, List.drop_left' (length_buildRpcFrame crc d.expectedSeq p mode)]
        · rw [hlog, List.map_append, List.map_singleton]

/-- The deframing loop reports no error and stays in step; with everything arrived it has reported
    all payloads. -/
theorem deframe_inStep {sent : List (List UInt8)} {rest : List UInt8} {d : Deframer}
    (hd : InStep crc mode sent rest d) :
    (deframe crc mode true d).1 = .ok () ∧ InStep crc mode sent rest (deframe crc mode true d).2 ∧
      (rest = [] → (deframe crc mode true d).2.log = sent.map .payload) := by
  refine loop_invariant (deframeStep crc mode true) (fun d => d.dec.length) _
    (I := InStep crc mode sent rest)
    (Q := fun o => o.1 = .ok () ∧ InStep crc mode sent rest o.2 ∧
      (rest = [] → o.2.log = sent.map .payload)) ?_ ?_ d hd
  · intro v v' hv h
    rcases deframeStep_inStep hv with ⟨w, hw, hstep⟩ | ⟨hw, -⟩
    · obtain rfl := Sum.inl.inj (hw.symm.trans h)
      exact hstep
    · exact absurd (hw.symm.trans h) (by simp)
  · intro v o hv h
    rcases deframeStep_inStep hv with ⟨w, hw, -⟩ | ⟨hw, hlast⟩
    · exact absurd (hw.symm.trans h) (by simp)
    · obtain rfl := Sum.inr.inj (hw.symm.trans h)
      exact ⟨rfl, hv, hlast⟩

/-! ### The cipher stream -/

variable {aes : BlockCipher} {dk : AesKey}

/-- The reader is in step with a cipher stream of which `rest` has not arrived: what is still
    encrypted decrypts to the plaintext the deframer has to see next. -/
def ReaderInStep (aes : BlockCipher) (crc : RpcCrc) (dk : AesKey) (mode : RpcChecksumMode)
    (sent : List (List UInt8)) (rest : List UInt8) (s : ReaderState) : Prop :=
  blockSize ∣ (s.raw ++ rest).length ∧
  ∃ plain, AesCbc.decryptInPlace aes ⟨dk, s.div⟩ (s.raw ++ rest) = .ok plain ∧
    InStep crc mode sent plain s.deframer

/-- Decrypting the whole blocks moves the boundary between cipher and plain text. -/
theorem decryptBlocks_inStep {sent : List (List UInt8)} {rest : List UInt8} {s : ReaderState}
    (hs : ReaderInStep aes crc dk mode sent rest s) :
    ∃ s', decryptBlocks aes dk s = .ok s' ∧ s'.raw.length < blockSize ∧
      ReaderInStep aes crc dk mode sent rest s' := by
  obtain ⟨hdvd, plain, hplain, got, left, hsent, hlog, hwf⟩ := hs
  unfold decryptBlocks
  set n := s.raw.length / 16 * 16 with hn
  by_cases h0 : 0 < n
  · obtain ⟨pa, pb, hpa, hpb, hb, rfl⟩ := decryptInPlace_front aes dk s.div hn hdvd hplain
    refine ⟨⟨s.raw.drop n, lastBlock s.div (s.raw.take n),
      { s.deframer with dec := s.deframer.dec ++ pa }⟩, by simp only [if_pos h0, hpa], ?_, hb, pb, hpb,
      got, left, hsent, hlog, ?_⟩
    · rw [List.length_drop]
      simp only [blockSize]
      omega
    · simpa only [List.append_assoc] using hwf
  · refine ⟨s, by simp only [if_neg h0], ?_, hdvd, plain, hplain, got, left, hsent, hlog, hwf⟩
    simp only [blockSize]
    omega

theorem readerStep_inStep {sent : List (List UInt8)} {read rest : List UInt8} {s : ReaderState}
    (hread : read ≠ []) (hs : ReaderInStep aes crc dk mode sent (read ++ rest) s) :
    ∃ s', readerStep aes crc dk mode true s read = (.ok (), s') ∧
      ReaderInStep aes crc dk mode sent rest s' ∧
      (rest = [] → s'.deframer.log = sent.map .payload) := by
  have hs' : ReaderInStep aes crc dk mode sent rest { s with raw := s.raw ++ read } := by
    simpa only [ReaderInStep, List.append_assoc] using hs
  obtain ⟨v, hv, hraw, hdvd, plain, hplain, hin⟩ := decryptBlocks_inStep hs'
  obtain ⟨hok, hin', hlast⟩ := deframe_inStep hin
  refine ⟨{ v with deframer := (deframe crc mode true v.deframer).2 }, ?_,
    ⟨hdvd, plain, hplain, hin'⟩, ?_⟩
  · rw [readerStep, if_neg (by simpa using hread), hv]
    simp only [hok]
  · rintro rfl
    refine hlast ?_
    -- nothing more to come: less than a block is left over, and it is a whole number of blocks
    rw [List.append_nil] at hdvd hplain
    have hnil : v.raw = [] := List.length_eq_zero_iff.mp (Nat.eq_zero_of_dvd_of_lt hdvd hraw)
    rw [hnil] at hplain
    exact (Except.ok.inj hplain).symm

theorem readerLoop_inStep {sent : List (List UInt8)} : ∀ (reads : List (List UInt8))
    {s : ReaderState}, (∀ r ∈ reads, r ≠ []) → reads ≠ [] →
    ReaderInStep aes crc dk mode sent reads.flatten s →
    ∃ s', readerLoop aes crc dk mode true s reads = (.ok (), s') ∧
      s'.deframer.log = sent.map .payload
  | [], _, _, hne, _ => absurd rfl hne
  | [r], s, hr, _, hs => by
    have hs : ReaderInStep aes crc dk mode sent (r ++ []) s := by simpa using hs
    obtain ⟨s', hstep, -, hlast⟩ := readerStep_inStep (hr r (by simp)) hs
    exact ⟨s', by simp only [readerLoop, hstep], hlast rfl⟩
  | r :: r' :: reads, s, hr, _, hs => by
    obtain ⟨s', hstep, hin, -⟩ := readerStep_inStep (hr r (by simp)) (by simpa using hs)
    obtain ⟨s'', hloop, hlog⟩ := readerLoop_inStep (r' :: reads)
      (fun q hq => hr q (List.mem_cons_of_mem _ hq)) (by simp) hin
    exact ⟨s'', by rw [readerLoop, hstep]; exact hloop, hlog⟩

/-- A fresh reader is in step with everything a fresh writer sends. -/
theorem readerInStep_init {iv : AesBlock} {payloads : List (List UInt8)} {wire : List UInt8}
    (hps : ∀ p ∈ payloads, Sendable p)
    (hwire : AesCbc.encryptInPlace aes ⟨dk, iv⟩ (framesFrom crc mode 0 payloads) = .ok wire) :
    ReaderInStep aes crc dk mode payloads wire (.init iv) := by
  have hal := framesFrom_aligned crc mode 0 payloads
  obtain ⟨c, hc, hlen, hdec⟩ := encryptInPlace_ok aes dk iv hal
  obtain rfl := Except.ok.inj (hc.symm.trans hwire)
  exact ⟨hlen.symm ▸ hal, _, hdec, [], payloads, rfl, rfl, wellFramed_framesFrom 0 hps⟩

end

/-- The payloads, sent in this order through `RpcWriter`, come out of `reader_loop` one by one, and
    nothing else does, however the socket cuts the stream into reads. -/
def Delivered (aes : BlockCipher) (crc : RpcCrc) (mode : RpcChecksumMode)
    (payloads : List (List UInt8)) : Prop :=
  ∀ (key : AesKey) (iv : AesBlock), ∃ wire w,
    RpcWriter.sendAll aes crc ⟨key, iv, 0, mode⟩ payloads = .ok (wire, w) ∧
    ∀ reads : List (List UInt8), (∀ r ∈ reads, r ≠ []) → reads.flatten = wire →
      ∃ s, readerLoop aes crc key mode true (.init iv) reads = (.ok (), s) ∧
        s.deframer.log = payloads.map .payload

theorem delivered_of_sendable (aes : BlockCipher) (crc : RpcCrc) (mode : RpcChecksumMode)
    {payloads : List (List UInt8)} (hps : ∀ p ∈ payloads, Sendable p) :
    Delivered aes crc mode payloads := by
  intro key iv
  obtain ⟨wire, w, hsend, henc⟩ := sendAll_wire aes crc payloads ⟨key, iv, 0, mode⟩
  refine ⟨wire, w, hsend, fun reads hreads hcut => ?_⟩
  have hin := readerInStep_init hps henc
  by_cases hne : reads = []
  · -- no read at all: the wire is empty, and so nothing was sent
    subst hne
    refine ⟨.init iv, rfl, ?_⟩
    obtain ⟨-, plain, hplain, got, left, hsent, hlog, hwf⟩ := hin
    rw [← hcut] at hplain
    obtain rfl := Except.ok.inj ((decryptInPlace_nil aes ⟨key, iv⟩).symm.trans hplain)
    obtain rfl := wellFramed_short hwf (Nat.zero_lt_succ _)
    rw [hlog, hsent, List.append_nil]
  · exact readerLoop_inStep reads hreads hne (hcut ▸ hin)

/-- Whatever is sent through `RpcWriter` from sequence number 0 on, and however the socket cuts it
    into reads, `reader_loop` takes exactly the sent payloads off the stream and reports nothing
    else. -/
theorem reader_receives_sent (aes : BlockCipher) (crc : RpcCrc) (mode : RpcChecksumMode)
    (key : AesKey) (iv : AesBlock) (payloads : List (List UInt8))
    (hpayloads : ∀ p ∈ payloads, 4 ∣ p.length ∧ p.length ≤ 2 ^ 24 - 12) :
    ∃ wire w, RpcWriter.sendAll aes crc ⟨key, iv, 0, mode⟩ payloads = .ok (wire, w) ∧
      ∀ reads : List (List UInt8), (∀ r ∈ reads, r ≠ []) → reads.flatten = wire →
        ∃ s, readerLoop aes crc key mode true (.init iv) reads = (.ok (), s) ∧
          s.deframer.log = payloads.map .payload := by
  refine delivered_of_sendable aes crc mode (fun p hp => ?_) key iv
  obtain ⟨hdvd, hle⟩ := hpayloads p hp
  exact ⟨hdvd, by simp only [maxFrameLen]; omega⟩

/-- Two frames with three fillers between them, read in pieces that split the frames and their blocks. -/
theorem reader_receives_sent_split :
    let aes : BlockCipher := ⟨fun _ b => b, fun _ b => b, fun _ _ => rfl⟩
    let crc : RpcCrc := fun _ bs => UInt32.ofNat bs.length
    let key : AesKey := ⟨List.replicate 32 7, rfl⟩
    let iv : AesBlock := ⟨List.replicate 16 1, rfl⟩
    let payloads : List (List UInt8) := [[1, 2, 3, 4, 5, 6, 7, 8], [9, 10, 11, 12]]
    ∃ wire w, RpcWriter.sendAll aes crc ⟨key, iv, 0, .crc32⟩ payloads = .ok (wire, w) ∧
      wire.length = 48 ∧
      ∃ s, readerLoop aes crc key .crc32 true (.init iv)
          [wire.take 5, (wire.drop 5).take 21, wire.drop 26] = (.ok (), s) ∧
        s.deframer.log = payloads.map .payload := by
  intro aes crc key iv payloads
  obtain ⟨wire, w, hsend, hread⟩ := reader_receives_sent aes crc .crc32 key iv payloads (by decide)
  have hwire : wire.length = 48 := by
    have h : ((RpcWriter.sendAll aes crc ⟨key, iv, 0, .crc32⟩ payloads).toOption.map
        (·.1.length)) = some 48 := by decide +kernel
    rw [hsend] at h
    exact Option.some.inj h
  refine ⟨wire, w, hsend, hwire, hread _ ?_ ?_⟩
  · intro r hr
    have hr : r = wire.take 5 ∨ r = (wire.drop 5).take 21 ∨ r = wire.drop 26 := by simpa using hr
    rcases hr with rfl | rfl | rfl <;> refine List.ne_nil_of_length_pos ?_ <;>
      simp only [List.length_take, List.length_drop] <;> omega
  · have hrest : wire.drop 26 = (wire.drop 5).drop 21 := by rw [List.drop_drop]
    rw [hrest, List.flatten_cons, List.flatten_cons, List.flatten_cons, List.flatten_nil, List.append_nil,
      List.take_append_drop, List.take_append_drop]

end MtProxy.MiddleProxy
