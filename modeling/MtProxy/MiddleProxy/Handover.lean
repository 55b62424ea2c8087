import MtProxy.MiddleProxy.Segmentation

/-! The end of `handshake_only`, where the reply of the Middle-End is read, and what is handed over to
    `reader_loop`: the socket, the key and the IV, but neither the bytes of an incomplete block nor
    those that were decrypted behind the reply.

        reads     ├───── read ─────┼──────── read ────────┼── read ⋯
        plain     ├──────── reply ────────┼ 4 ┼── frame 0 ──┼ ⋯
        handed over                        ╳╳╳╳╳╳╳╳╳╳╳╳╳╳╳╳├────▶ reader_loop

    Nothing is lost if the read that completes the reply ends with a block, before the first frame. -/

namespace MtProxy.MiddleProxy
open Crypto Schemes

/-! ### The reply -/

def rpcHandshake : UInt32 := 0x7682eef5
def rpcHandshakeError : UInt32 := 0x6a27beda
def useCrc32c : UInt32 := 0x800

def RpcChecksumMode.fromHandshakeFlags (flags : UInt32) : RpcChecksumMode :=
  if flags &&& useCrc32c ≠ 0 then .crc32c else .crc32

def RpcChecksumMode.advertisedFlags : RpcChecksumMode → UInt32
  | .crc32 => 0
  | .crc32c => useCrc32c

/-- Eight hexadecimal digits, as `{:08x}` gives them. -/
def hex08 (n : UInt32) : String := String.ofList ((Nat.toDigits 16 n.toNat).leftpad 8 '0')

def parseHandshakeFlags (payload : List UInt8) : Except ProxyError UInt32 :=
  let len := payload.length
  let hsType := u32Val (payload.take 4)
  if len ≠ 32 then .error (.invalidHandshake s!"Bad handshake payload len: {len}")
  else if hsType ≠ rpcHandshake then
    .error (.invalidHandshake s!"Expected HANDSHAKE 0x{hex08 rpcHandshake}, got 0x{hex08 hsType}")
  else .ok (u32Val ((payload.drop 4).take 4))

section
variable (crc : RpcCrc)

/-- What a complete frame of the handshake comes to: the checksum mode, or a refusal. -/
def checkReply (frame : List UInt8) : Except ProxyError RpcChecksumMode :=
  let pe := frame.length - 4
  let ec := u32Val (frame.drop pe)
  let ac := crc .crc32 (frame.take pe)
  let hsPayload := (frame.take pe).drop 8
  if ec ≠ ac then
    .error (.invalidHandshake s!"HS CRC mismatch: 0x{hex08 ec} vs 0x{hex08 ac}")
  else if hsPayload.length < 4 then .error (.invalidHandshake "Handshake payload too short")
  else if u32Val (hsPayload.take 4) = rpcHandshakeError then
    let errCode : Int32 := if 8 ≤ hsPayload.length then i32Val ((hsPayload.drop 4).take 4) else -1
    .error (.invalidHandshake s!"ME rejected handshake (error={errCode})")
  else
    match parseHandshakeFlags hsPayload with
    | .error e => .error e
    | .ok hsFlags =>
      if hsFlags &&& 0xff ≠ 0 then
        .error (.invalidHandshake s!"Unsupported handshake flags: 0x{hex08 hsFlags}")
      else if hsFlags &&& RpcChecksumMode.advertisedFlags .crc32c ≠ 0 then
        .ok (.fromHandshakeFlags hsFlags)
      else if hsFlags &&& useCrc32c ≠ 0 then
        .error (.invalidHandshake s!"Peer negotiated unsupported CRC flags: 0x{hex08 hsFlags}")
      else .ok .crc32

/-- One round of the `while dec_buf.len() >= 4` loop: fillers are skipped, and it ends with the
    checksum mode, with an error or waiting for more bytes, which is `none`. -/
def replyStep (decBuf : List UInt8) :
    List UInt8 ⊕ (Except ProxyError (Option RpcChecksumMode) × List UInt8) :=
  if decBuf.length < 4 then .inr (.ok none, decBuf)
  else
    let fl := leVal (decBuf.take 4)
    if fl = 4 then .inl (decBuf.drop 4)
    else if fl < 12 ∨ maxFrameLen < fl then
      .inr (.error (.invalidHandshake s!"Bad HS response frame len: {fl}"), decBuf)
    else if decBuf.length < fl then .inr (.ok none, decBuf)
    else .inr ((checkReply crc (decBuf.take fl)).map some, decBuf.drop fl)

theorem replyStep_lt {decBuf decBuf' : List UInt8} (h : replyStep crc decBuf = .inl decBuf') :
    decBuf'.length < decBuf.length := by
  unfold replyStep at h
  simp only at h
  split_ifs at h with hlen h4
  cases h
  rw [List.length_drop]
  omega

def findReply (decBuf : List UInt8) : Except ProxyError (Option RpcChecksumMode) × List UInt8 :=
  loop (replyStep crc) List.length (fun _ _ => replyStep_lt crc) decBuf

end

/-! ### Reading the reply -/

structure ReplyState where
  encBuf : List UInt8
  decBuf : List UInt8
  readIv : AesBlock

/-- What a read during the handshake comes to; no bytes at all mean the end of the stream. -/
inductive SocketRead where
  | data (bytes : List UInt8)
  | failed (e : Stream.IoError)
  | timedOut
  deriving DecidableEq

/-- What `reader_loop` is started with, apart from the socket. -/
structure HandshakeOutput where
  readKey : AesKey
  readIv : AesBlock
  crcMode : RpcChecksumMode
  deriving DecidableEq

section
variable (aes : BlockCipher) (crc : RpcCrc) (rk : AesKey)

def cbcDecryptInplace (iv : AesBlock) (data : List UInt8) :
    Except ProxyError (List UInt8 × AesBlock) :=
  match AesCbc.decryptInPlace aes ⟨rk, iv⟩ data with
  | .error (.crypto e) => .error (.crypto s!"CBC decrypt: Crypto error: {e}")
  | .error e => .error e
  | .ok chunk => .ok (chunk, lastBlock (blockOf []) data)

def decryptReply (s : ReplyState) : Except ProxyError ReplyState :=
  let blocks := s.encBuf.length / 16 * 16
  if 0 < blocks then
    match cbcDecryptInplace aes rk s.readIv (s.encBuf.take blocks) with
    | .error e => .error e
    | .ok (chunk, readIv) => .ok ⟨s.encBuf.drop blocks, s.decBuf ++ chunk, readIv⟩
  else .ok s

/-- The reply loop of `handshake_only`: its output and what is left on the socket. Without any more
    reads the deadline passes. -/
def replyLoop : ReplyState → List SocketRead → Except ProxyError (HandshakeOutput × List SocketRead)
  | _, [] => .error .tgHandshakeTimeout
  | _, .timedOut :: _ => .error .tgHandshakeTimeout
  | _, .failed e :: _ => .error (.io e)
  | s, .data read :: reads =>
    if read.isEmpty then .error (.io ⟨.unexpectedEof, "ME closed during handshake"⟩)
    else
      match decryptReply aes rk { s with encBuf := s.encBuf ++ read } with
      | .error e => .error e
      | .ok s =>
        match findReply crc s.decBuf with
        | (.error e, _) => .error e
        | (.ok none, decBuf) => replyLoop { s with decBuf := decBuf } reads
        | (.ok (some crcMode), _) => .ok (⟨rk, s.readIv, crcMode⟩, reads)

end

/-! ### Reads up to the reply -/

/-- A whole frame, as its length field says. -/
structure WholeFrame (reply : List UInt8) : Prop where
  len : leVal (reply.take 4) = reply.length
  min : 12 ≤ reply.length
  max : reply.length ≤ maxFrameLen

/-- So far `got` bytes have been read, which do not reach the end of the reply. What is left of them
    and of the stream decrypts to the rest of the plaintext. -/
structure AwaitingReply (aes : BlockCipher) (key : AesKey) (plain reply : List UInt8) (got : ℕ)
    (rest : List UInt8) (s : ReplyState) : Prop where
  short : s.decBuf.length < reply.length
  decrypted : s.decBuf.length = got / 16 * 16
  count : s.decBuf.length + s.encBuf.length = got
  aligned : blockSize ∣ (s.encBuf ++ rest).length
  left : ∃ p, AesCbc.decryptInPlace aes ⟨key, s.readIv⟩ (s.encBuf ++ rest) = .ok p ∧
    s.decBuf ++ p = plain

section
variable {aes : BlockCipher} {crc : RpcCrc} {key : AesKey} {plain reply tail : List UInt8} {got : ℕ}
  {rest : List UInt8} {s : ReplyState}

theorem take_four_of_isPrefix {dec more : List UInt8} (h : dec ++ more = reply ++ tail)
    (hdec : 4 ≤ dec.length) (hreply : 4 ≤ reply.length) : dec.take 4 = reply.take 4 := by
  have htake := congrArg (List.take 4) h
  rwa [List.take_append_of_le_length hdec, List.take_append_of_le_length hreply] at htake

theorem findReply_waits (hreply : WholeFrame reply) {dec more : List UInt8}
    (h : dec ++ more = reply ++ tail) (hshort : dec.length < reply.length) :
    findReply crc dec = (.ok none, dec) := by
  refine loop_inr _ _ _ ?_
  rw [replyStep]
  by_cases h4 : dec.length < 4
  · rw [if_pos h4]
  · have hmin := hreply.min
    have hmax := hreply.max
    have hfl : leVal (dec.take 4) = reply.length := by
      rw [take_four_of_isPrefix h (by omega) (by omega), hreply.len]
    simp only [if_neg h4, hfl, if_neg (show ¬ reply.length = 4 by omega),
      if_neg (show ¬ (reply.length < 12 ∨ maxFrameLen < reply.length) by omega), if_pos hshort]

theorem findReply_complete (hreply : WholeFrame reply) (extra : List UInt8) :
    findReply crc (reply ++ extra) = ((checkReply crc reply).map some, extra) := by
  have hmin := hreply.min
  have hmax := hreply.max
  have hlen : (reply ++ extra).length = reply.length + extra.length := List.length_append
  have hfl : leVal ((reply ++ extra).take 4) = reply.length := by
    rw [List.take_append_of_le_length (by omega), hreply.len]
  refine loop_inr _ _ _ ?_
  rw [replyStep, if_neg (by omega)]
  simp only [hfl, if_neg (show ¬ reply.length = 4 by omega),
    if_neg (show ¬ (reply.length < 12 ∨ maxFrameLen < reply.length) by omega),
    if_neg (show ¬ (reply ++ extra).length < reply.length by omega), List.take_left, List.drop_left]

/-- Decrypting the whole blocks moves the boundary between cipher and plain text. -/
theorem decryptReply_split (haligned : blockSize ∣ (s.encBuf ++ rest).length) {p : List UInt8}
    (hp : AesCbc.decryptInPlace aes ⟨key, s.readIv⟩ (s.encBuf ++ rest) = .ok p) :
    ∃ pa pb iv, decryptReply aes key s =
        .ok ⟨s.encBuf.drop (s.encBuf.length / 16 * 16), s.decBuf ++ pa, iv⟩ ∧
      pa.length = s.encBuf.length / 16 * 16 ∧ p = pa ++ pb ∧
      AesCbc.decryptInPlace aes ⟨key, iv⟩
        (s.encBuf.drop (s.encBuf.length / 16 * 16) ++ rest) = .ok pb := by
  unfold decryptReply
  set n := s.encBuf.length / 16 * 16 with hn
  by_cases h0 : 0 < n
  · obtain ⟨pa, pb, hpa, hpb, -, rfl⟩ := decryptInPlace_front aes key s.readIv hn haligned hp
    have hlen : (s.encBuf.take n).length = n := List.length_take_of_le (by omega)
    have hlast : lastBlock (blockOf []) (s.encBuf.take n) = lastBlock s.readIv (s.encBuf.take n) := by
      have hfull : blockSize ≤ (s.encBuf.take n).length := by
        simp only [hlen, blockSize]
        omega
      rw [lastBlock, lastBlock, dif_pos hfull, dif_pos hfull]
    refine ⟨pa, pb, lastBlock s.readIv (s.encBuf.take n), ?_, ?_, rfl, hpb⟩
    · simp only [if_pos h0, cbcDecryptInplace, hpa, hlast]
    · rw [length_decryptInPlace aes key s.readIv hpa, hlen]
  · obtain h0 : n = 0 := by omega
    refine ⟨[], p, s.readIv, ?_, h0.symm, rfl, ?_⟩
    · simp only [h0, lt_irrefl, if_false, List.drop_zero, List.append_nil]
    · rw [h0, List.drop_zero]
      exact hp

/-- One more read: the reply is still not complete, or it is and the handshake is done. Then `extra`
    and `enc` are what was decrypted behind the reply and what is left of the last block. -/
theorem replyLoop_read {mode : RpcChecksumMode} (hreply : WholeFrame reply)
    (hmode : checkReply crc reply = .ok mode) (hplain : plain = reply ++ tail) {read : List UInt8}
    (hread : read ≠ []) (h : AwaitingReply aes key plain reply got (read ++ rest) s)
    (reads : List SocketRead) :
    (∃ s', replyLoop aes crc key s (.data read :: reads) = replyLoop aes crc key s' reads ∧
      AwaitingReply aes key plain reply (got + read.length) rest s') ∨
    (reply.length ≤ (got + read.length) / 16 * 16 ∧ ∃ iv extra enc pb,
      replyLoop aes crc key s (.data read :: reads) = .ok (⟨key, iv, mode⟩, reads) ∧
      (reply ++ extra).length = (got + read.length) / 16 * 16 ∧
      enc.length = (got + read.length) % 16 ∧
      AesCbc.decryptInPlace aes ⟨key, iv⟩ (enc ++ rest) = .ok pb ∧ tail = extra ++ pb) := by
  obtain ⟨hshort, hdec, hcount, haligned, p, hp, hjoin⟩ := h
  rw [← List.append_assoc] at haligned hp
  obtain ⟨pa, pb, iv, hstate, hpa, rfl, hpb⟩ :=
    @decryptReply_split aes key rest { s with encBuf := s.encBuf ++ read } haligned p hp
  simp only [List.length_append] at hstate hpa hpb
  set n := (s.encBuf.length + read.length) / 16 * 16 with hn
  have hlen : (s.decBuf ++ pa).length = (got + read.length) / 16 * 16 := by
    rw [List.length_append, hpa]
    omega
  have henc : ((s.encBuf ++ read).drop n).length = (got + read.length) % 16 := by
    rw [List.length_drop, List.length_append]
    omega
  have hwhole : (s.decBuf ++ pa) ++ pb = reply ++ tail := by
    rw [List.append_assoc, hjoin, hplain]
  by_cases hlt : (s.decBuf ++ pa).length < reply.length
  · refine .inl ⟨⟨(s.encBuf ++ read).drop n, s.decBuf ++ pa, iv⟩, ?_, hlt, hlen, ?_, ?_, pb, hpb, ?_⟩
    · rw [replyLoop, if_neg (by simpa using hread), hstate]
      simp only [findReply_waits hreply hwhole hlt]
    · simp only [hlen, henc]
      omega
    · rw [List.length_append, henc]
      simp only [blockSize, List.length_append] at haligned ⊢
      omega
    · rw [hwhole, hplain]
  · obtain ⟨extra, hextra, htail⟩ := front_split hwhole (Nat.le_of_not_lt hlt)
    refine .inr ⟨hlen ▸ Nat.le_of_not_lt hlt, iv, extra, (s.encBuf ++ read).drop n, pb, ?_,
      hextra ▸ hlen, henc, hpb, htail⟩
    rw [replyLoop, if_neg (by simpa using hread), hstate]
    simp only [hextra, findReply_complete hreply, hmode]
    rfl

/-! ### The hand-over -/

/-- Fillers hold no frame. -/
theorem wellFramed_strip {mode : RpcChecksumMode} {seqNo : Int32} {ps : List (List UInt8)}
    {l : List UInt8} (h : WellFramed crc mode seqNo ps (padPattern ++ l)) :
    WellFramed crc mode seqNo ps l := by
  generalize hl : padPattern ++ l = l' at h
  cases h with
  | done => exact absurd hl (by simp [padPattern])
  | filler h => exact (List.append_cancel_left hl) ▸ h
  | @frame _ p _ _ hp _ =>
    have hlen := frame_len hl (by decide) hp
    have hpad : leVal (padPattern.take 4) = 4 := by decide
    omega

theorem wellFramed_strip_fillers {mode : RpcChecksumMode} {seqNo : Int32} {ps : List (List UInt8)}
    {l : List UInt8} (n : ℕ) (h : WellFramed crc mode seqNo ps (fillers (4 * n) ++ l)) :
    WellFramed crc mode seqNo ps l := by
  induction n with
  | zero => simpa [fillers] using h
  | succ n ih =>
    rw [Nat.mul_succ, fillers_four, List.append_assoc] at h
    exact ih (wellFramed_strip h)

/-- The read that completes the reply ends with a cipher block, and behind the reply it has nothing
    but fillers. -/
def CleanCut (plain reply : List UInt8) (reads : List (List UInt8)) : Prop :=
  ∀ first last rest, reads = first ++ last :: rest →
    first.flatten.length / 16 * 16 < reply.length →
    reply.length ≤ (first.flatten.length + last.length) / 16 * 16 →
    16 ∣ first.flatten.length + last.length ∧
      ∃ n, plain.take (first.flatten.length + last.length) = reply ++ fillers (4 * n)

theorem replyLoop_handsOver {mode : RpcChecksumMode} {payloads : List (List UInt8)}
    {all : List (List UInt8)} (hreply : WholeFrame reply)
    (hmode : checkReply crc reply = .ok mode) (hplain : plain = reply ++ tail)
    (hwf : WellFramed crc mode 0 payloads tail) (hclean : CleanCut plain reply all)
    (reads first : List (List UInt8)) (s : ReplyState) (hall : all = first ++ reads)
    (hne : ∀ r ∈ reads, r ≠ [])
    (h : AwaitingReply aes key plain reply first.flatten.length reads.flatten s) :
    ∃ (iv : AesBlock) (rest : List (List UInt8)) (pb : List UInt8),
      replyLoop aes crc key s (reads.map .data) = .ok (⟨key, iv, mode⟩, rest.map .data) ∧
      (∀ r ∈ rest, r ≠ []) ∧
      blockSize ∣ rest.flatten.length ∧
      AesCbc.decryptInPlace aes ⟨key, iv⟩ rest.flatten = .ok pb ∧
      WellFramed crc mode 0 payloads pb := by
  induction reads generalizing first s with
  | nil =>
    -- with everything read, less than a block is left, and so the reply is there
    obtain ⟨hshort, hdec, hcount, haligned, p, hp, hjoin⟩ := h
    rw [List.flatten_nil, List.append_nil] at haligned hp
    simp only [blockSize] at haligned
    have hp0 := length_decryptInPlace aes key s.readIv hp
    have hlen := congrArg List.length hjoin
    rw [hplain, List.length_append, List.length_append] at hlen
    omega
  | cons read reads ih =>
    have hnext : (first ++ [read]).flatten.length = first.flatten.length + read.length := by simp
    rw [List.flatten_cons] at h
    rcases replyLoop_read hreply hmode hplain (hne read (by simp)) h (reads.map .data) with
      ⟨s', hloop, hs'⟩ | ⟨hle, iv, extra, enc, pb, hloop, hlen, henc, hpb, htail⟩
    · rw [List.map_cons, hloop]
      exact ih (first ++ [read]) s' (by simp [hall])
        (fun r hr => hne r (List.mem_cons_of_mem _ hr)) (hnext ▸ hs')
    · obtain ⟨hblock, n, hfill⟩ := hclean first read reads hall (h.decrypted ▸ h.short) hle
      have henc0 : enc = [] := List.length_eq_zero_iff.mp (by omega)
      have hextra : extra = fillers (4 * n) := by
        rw [hplain, htail, ← List.append_assoc, List.take_left' (by omega)] at hfill
        exact List.append_cancel_left hfill
      rw [henc0, List.nil_append] at hpb
      refine ⟨iv, reads, pb, by rw [List.map_cons, hloop],
        fun r hr => hne r (List.mem_cons_of_mem _ hr), ?_, hpb, ?_⟩
      · have haligned := h.aligned
        have hcount := h.count
        have hdecrypted := h.decrypted
        simp only [List.length_append, blockSize] at haligned ⊢
        omega
      · rw [htail, hextra] at hwf
        exact wellFramed_strip_fillers n hwf

end

/-- What a server sends behind its nonce: a reply that is accepted, and fillers and the frames of the
    payloads, numbered from 0, in the mode that the reply settles. -/
structure ServerStream (crc : RpcCrc) (mode : RpcChecksumMode) (reply : List UInt8)
    (payloads : List (List UInt8)) (plain : List UInt8) : Prop where
  whole : WholeFrame reply
  accepted : checkReply crc reply = .ok mode
  framed : ∃ tail, plain = reply ++ tail ∧ WellFramed crc mode 0 payloads tail

/-- The handshake succeeds, and `reader_loop`, started with its output, reports these payloads and
    nothing else. -/
def HandedOver (aes : BlockCipher) (crc : RpcCrc) (key : AesKey) (iv : AesBlock)
    (payloads : List (List UInt8)) (reads : List (List UInt8)) : Prop :=
  ∃ (out : HandshakeOutput) (rest : List (List UInt8)),
    replyLoop aes crc key ⟨[], [], iv⟩ (reads.map .data) = .ok (out, rest.map .data) ∧
    ∃ s, readerLoop aes crc out.readKey out.crcMode true (.init out.readIv) rest = (.ok (), s) ∧
      s.deframer.log = payloads.map .payload

/-- With a clean cut behind the reply nothing is lost. -/
theorem clean_cut_hands_over (aes : BlockCipher) (crc : RpcCrc) (mode : RpcChecksumMode)
    (key : AesKey) (iv : AesBlock) (reply plain wire : List UInt8) (payloads : List (List UInt8))
    (hserver : ServerStream crc mode reply payloads plain)
    (hwire : AesCbc.encryptInPlace aes ⟨key, iv⟩ plain = .ok wire) (reads : List (List UInt8))
    (hne : ∀ r ∈ reads, r ≠ []) (hcut : reads.flatten = wire) (hclean : CleanCut plain reply reads) :
    HandedOver aes crc key iv payloads reads := by
  obtain ⟨hwhole, hmode, tail, hplain, hwf⟩ := hserver
  have hmin := hwhole.min
  have haligned : blockSize ∣ plain.length := by
    rw [AesCbc.encryptInPlace] at hwire
    split_ifs at hwire with hmod
    exact Nat.dvd_of_mod_eq_zero (not_not.mp hmod)
  obtain ⟨c, hc, hlen, hdec⟩ := encryptInPlace_ok aes key iv haligned
  obtain rfl := Except.ok.inj (hc.symm.trans hwire)
  have hstart : AwaitingReply aes key plain reply ([] : List (List UInt8)).flatten.length
      reads.flatten ⟨[], [], iv⟩ := by
    refine ⟨by simp only [List.length_nil]; omega, rfl, rfl, ?_, plain, ?_, rfl⟩
    · rw [List.nil_append, hcut, hlen]
      exact haligned
    · rw [List.nil_append, hcut]
      exact hdec
  obtain ⟨iv', rest, pb, hloop, hrest, hdvd, hpb, hwf'⟩ :=
    replyLoop_handsOver hwhole hmode hplain hwf hclean reads [] _ rfl hne hstart
  refine ⟨⟨key, iv', mode⟩, rest, hloop, ?_⟩
  by_cases hnil : rest = []
  · subst hnil
    obtain rfl := Except.ok.inj ((decryptInPlace_nil aes ⟨key, iv'⟩).symm.trans hpb)
    obtain rfl := wellFramed_short hwf' (Nat.zero_lt_succ _)
    exact ⟨.init iv', rfl, rfl⟩
  · exact readerLoop_inStep rest hrest hnil
      ⟨by simpa [ReaderState.init] using hdvd, pb, by simpa [ReaderState.init] using hpb,
        [], payloads, rfl, rfl, hwf'⟩

/-! ### A frame that comes with the reply -/

/-- A reply without flags, which settles CRC-32. -/
def sampleReply : List UInt8 :=
  buildRpcFrame rpcCrc (-1) ([0xf5, 0xee, 0x82, 0x76, 0, 0, 0, 0] ++
    (List.range' 8 24).map UInt8.ofNat) .crc32

def sampleTail : List UInt8 :=
  padPattern ++ (buildRpcFrame rpcCrc 0 [1, 2, 3, 4] .crc32 ++
    (buildRpcFrame rpcCrc (0 + 1) [5, 6, 7, 8] .crc32 ++ []))

theorem serverStream_sample : ServerStream rpcCrc .crc32 sampleReply [[1, 2, 3, 4], [5, 6, 7, 8]]
    (sampleReply ++ sampleTail) := by
  refine ⟨⟨by decide +kernel, by decide +kernel, by decide +kernel⟩, by decide +kernel, sampleTail,
    rfl, .filler (.frame ?_ (.frame ?_ (.done _)))⟩
  · decide
  · decide

/-- The blocks of the sample before and after AES-256 with `sampleKey`, each chained to the one
    before. -/
def sampleBlocks : List (AesBlock × AesBlock) :=
  [(blockOf [44, 0, 0, 0, 255, 255, 255, 255, 245, 238, 130, 118, 0, 0, 0, 0],
      blockOf [230, 7, 115, 245, 211, 85, 163, 6, 8, 15, 62, 137, 120, 166, 184, 203]),
    (blockOf [238, 14, 121, 254, 223, 88, 173, 9, 24, 30, 44, 154, 108, 179, 174, 220],
      blockOf [49, 157, 17, 137, 15, 195, 129, 125, 8, 20, 18, 254, 246, 11, 17, 228]),
    (blockOf [41, 132, 11, 146, 19, 222, 159, 98, 113, 56, 8, 56, 242, 11, 17, 228],
      blockOf [171, 16, 98, 31, 24, 232, 228, 245, 35, 37, 218, 33, 85, 110, 136, 149]),
    (blockOf [187, 16, 98, 31, 24, 232, 228, 245, 34, 39, 217, 37, 23, 97, 61, 117],
      blockOf [88, 158, 100, 114, 154, 198, 108, 192, 61, 153, 79, 112, 26, 163, 150, 193]),
    (blockOf [72, 158, 100, 114, 155, 198, 108, 192, 56, 159, 72, 120, 98, 26, 56, 8],
      blockOf [191, 64, 119, 229, 247, 4, 178, 7, 96, 32, 191, 241, 113, 227, 102, 62])]

def sampleWire : List UInt8 := (sampleBlocks.map fun b => b.2.toList).flatten

theorem sampleWire_encrypted :
    AesCbc.encryptInPlace (cipherWith sampleBlocks) ⟨sampleKey, blockOf []⟩
      (sampleReply ++ sampleTail) = .ok sampleWire := by
  decide +kernel

/-- One read ends behind frame 0: the handshake succeeds, that frame is gone, and the next one makes
    the connection end with a sequence error. -/
theorem coalesced_frame_lost :
    let out : HandshakeOutput := ⟨sampleKey, lastBlock (blockOf []) (sampleWire.take 64), .crc32⟩
    let aes := cipherWith sampleBlocks
    ServerStream rpcCrc .crc32 sampleReply [[1, 2, 3, 4], [5, 6, 7, 8]] (sampleReply ++ sampleTail) ∧
    AesCbc.encryptInPlace aes ⟨sampleKey, blockOf []⟩ (sampleReply ++ sampleTail) = .ok sampleWire ∧
    replyLoop aes rpcCrc sampleKey ⟨[], [], blockOf []⟩
        ([sampleWire.take 64, sampleWire.drop 64].map .data) =
      .ok (out, [sampleWire.drop 64].map .data) ∧
    (readerLoop aes rpcCrc out.readKey out.crcMode true (.init out.readIv) [sampleWire.drop 64]).map
        id (·.deframer.log) =
      (.error (.seqNoMismatch 0 1), []) := by
  intro out aes
  refine ⟨serverStream_sample, sampleWire_encrypted, ?_, ?_⟩
  · decide +kernel
  · decide +kernel

theorem cleanCut_sample : CleanCut (sampleReply ++ sampleTail) sampleReply
    [sampleWire.take 48, sampleWire.drop 48] := by
  intro first last rest hreads hlt _
  have hreply : sampleReply.length = 44 := by decide +kernel
  have hlast : (sampleWire.take 48).length = 48 := by decide +kernel
  match first, hreads with
  | [], hreads =>
    obtain ⟨rfl, -⟩ := List.cons.inj hreads
    simp only [List.flatten_nil, List.length_nil, hlast]
    exact ⟨by decide, 1, by decide +kernel⟩
  | [_], hreads =>
    obtain ⟨rfl, -⟩ := List.cons.inj hreads
    simp only [List.flatten_cons, List.flatten_nil, List.append_nil, hlast, hreply] at hlt
    omega
  | _ :: _ :: _, hreads => exact absurd (congrArg List.length hreads) (by simp)

/-- Cut behind the filler, the same stream is handed over. -/
theorem clean_cut_hands_over_sample :
    HandedOver (cipherWith sampleBlocks) rpcCrc sampleKey (blockOf []) [[1, 2, 3, 4], [5, 6, 7, 8]]
      [sampleWire.take 48, sampleWire.drop 48] :=
  clean_cut_hands_over (cipherWith sampleBlocks) rpcCrc .crc32 sampleKey (blockOf []) sampleReply
    (sampleReply ++ sampleTail) sampleWire _ serverStream_sample sampleWire_encrypted _
    (by decide +kernel) (by simp) cleanCut_sample

end MtProxy.MiddleProxy
