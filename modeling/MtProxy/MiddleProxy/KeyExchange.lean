import MtProxy.MiddleProxy.Handover
import MtProxy.MiddleProxy.Wire
import MtProxy.Schemes.Decode

/-! The first half of `handshake_only`: the nonces cross in plain frames, both ends derive the keys, and
    from the handshake frame on everything is encrypted.

        sent      ├── frame −2: nonce ──┼── frame −1: handshake ──┼── frame 0 ──┼── frame 1 ⋯
                        plain           ╞══════════ one CBC stream, key "CLIENT" ═════════▶
        answered  ├── frame −2: nonce ──┼── frame −1: handshake ⋯
                        plain           ╞══════════ key "SERVER" ═════════════════════════▶

        prekey    nonce_srv nonce_clt ts srv_ip clt_port purpose clt_ip srv_port │ secret nonce_srv
                  clt_v6 srv_v6 nonce_clt          one width each but for the secret ┘

    An answer is accepted exactly if it is such a frame for our selector and our time, and the keys
    tell apart all that went into them. -/

namespace MtProxy.MiddleProxy.KeyExchange
open Schemes Crypto

def rpcNonce : UInt32 := 0x7acb87aa
def rpcCryptoAes : UInt32 := 1

/-! ### Nonces -/

/-- The payload of a nonce frame, for any schema. -/
def noncePayload (keySelector schema cryptoTs : UInt32) (nonce : Block UInt8 16) : List UInt8 :=
  u32Bytes rpcNonce ++ u32Bytes keySelector ++ u32Bytes schema ++ u32Bytes cryptoTs ++ nonce.toList

def buildNoncePayload (keySelector cryptoTs : UInt32) (nonce : Block UInt8 16) : List UInt8 :=
  noncePayload keySelector rpcCryptoAes cryptoTs nonce

theorem length_nonce {d : List UInt8} (h : ¬ d.length < 32) : (slice d 16 16).length = 16 := by
  rw [slice, List.length_take, List.length_drop]
  omega

def parseNoncePayload (d : List UInt8) :
    Except ProxyError (UInt32 × UInt32 × UInt32 × Block UInt8 16) :=
  if h : d.length < 32 then
    .error (.invalidHandshake s!"Nonce payload too short: {d.length} bytes")
  else
    let t := u32Val (slice d 0 4)
    if t ≠ rpcNonce then
      .error (.invalidHandshake s!"Expected RPC_NONCE 0x{hex08 rpcNonce}, got 0x{hex08 t}")
    else
      .ok (u32Val (slice d 4 4), u32Val (slice d 8 4), u32Val (slice d 12 4),
        ⟨slice d 16 16, length_nonce h⟩)

/-- `abs_diff` -/
def absDiff (a b : UInt32) : ℕ := (a.toNat - b.toNat) + (b.toNat - a.toNat)

section
variable {R : Type} (crc : RpcCrc) (read : R → Option (UInt8 × R)) (onEnd : ProxyError)

/-- `onEnd` is the error of the stream, or of the timeout around it. -/
def readRpcFramePlaintext (r : R) : Except ProxyError ((Int32 × List UInt8) × R) :=
  match readExact read 4 r with
  | none => .error onEnd
  | some (lenBuf, r) =>
    let totalLen := leVal lenBuf
    if totalLen < 12 ∨ maxFrameLen < totalLen then
      .error (.invalidHandshake s!"Bad RPC frame length: {totalLen}")
    else match readExact read (totalLen - 4) r with
      | none => .error onEnd
      | some (rest, r) =>
        let full := lenBuf ++ rest
        let crcOffset := totalLen - 4
        let expectedCrc := u32Val (full.drop crcOffset)
        let actualCrc := crc .crc32 (full.take crcOffset)
        if expectedCrc ≠ actualCrc then
          .error (.invalidHandshake s!"CRC mismatch: 0x{hex08 expectedCrc} vs 0x{hex08 actualCrc}")
        else .ok ((i32Val ((full.drop 4).take 4), (full.take crcOffset).drop 8), r)

/-- The answer to our nonce frame. -/
def serverNonce (ks cryptoTs : UInt32) (r : R) : Except ProxyError (Block UInt8 16 × R) :=
  match readRpcFramePlaintext crc read onEnd r with
  | .error e => .error e
  | .ok ((srvSeq, payload), r) =>
    if srvSeq ≠ -2 then .error (.invalidHandshake s!"Expected seq=-2, got {srvSeq}")
    else match parseNoncePayload payload with
      | .error e => .error e
      | .ok (srvKeySelect, schema, srvTs, srvNonce) =>
        let skew := absDiff cryptoTs srvTs
        if schema ≠ rpcCryptoAes then
          .error (.invalidHandshake
            ("Unsupported crypto schema: 0x" ++ String.ofList (Nat.toDigits 16 schema.toNat)))
        else if srvKeySelect ≠ ks then
          .error (.invalidHandshake
            s!"Server key_select 0x{hex08 srvKeySelect} != client 0x{hex08 ks}")
        else if 30 < skew then
          .error (.invalidHandshake ("nonce crypto_ts skew too large: client=" ++ toString cryptoTs ++
            ", server=" ++ toString srvTs ++ ", skew=" ++ toString skew ++ "s"))
        else .ok (srvNonce, r)

end

/-! ### Keys -/

inductive IpMaterial where
  | v4 (octets : Block UInt8 4)
  | v6 (octets : Block UInt8 16)

def extractIpMaterial (addr : SocketAddr) : IpMaterial :=
  match addr.ip with
  | .v4 v4 => .v4 v4
  | .v6 v6 =>
    match toIpv4Mapped v6 with
    | some v4 => .v4 v4
    | none => .v6 v6

def emptyIp : List UInt8 := [0, 0, 0, 0]

def buildMiddleproxyPrekey (nonceSrv nonceClt cltTs : List UInt8) (srvIp : Option (List UInt8))
    (cltPort purpose : List UInt8) (cltIp : Option (List UInt8)) (srvPort secret : List UInt8)
    (cltIpv6 srvIpv6 : Option (List UInt8)) : List UInt8 :=
  nonceSrv ++ nonceClt ++ cltTs ++ srvIp.getD emptyIp ++ cltPort ++ purpose ++ cltIp.getD emptyIp ++
    srvPort ++ secret ++ nonceSrv ++
    (match cltIpv6, srvIpv6 with
      | some cltV6, some srvV6 => cltV6 ++ srvV6
      | _, _ => []) ++
    nonceClt

/-- The addresses of both ends, of one family. -/
inductive KdfAddrs where
  | v4 (srv clt : Block UInt8 4)
  | v6 (clt srv : Block UInt8 16)
  deriving DecidableEq

def reversed (octets : Block UInt8 4) : Block UInt8 4 :=
  ⟨octets.toList.reverse, List.length_reverse.trans octets.length_eq⟩

def kdfAddrs : IpMaterial → IpMaterial → Except ProxyError KdfAddrs
  | .v4 srv, .v4 clt => .ok (.v4 (reversed srv) (reversed clt))
  | .v6 srv, .v6 clt => .ok (.v6 clt srv)
  | _, _ => .error (.invalidHandshake
      "mixed IPv4/IPv6 endpoints are not supported for ME key derivation")

/-- What the keys are derived from. -/
@[ext] structure KdfParams where
  srvNonce : Block UInt8 16
  cltNonce : Block UInt8 16
  cltTs : UInt32
  addrs : KdfAddrs
  cltPort : UInt16
  srvPort : UInt16
  secret : List UInt8
  deriving DecidableEq

inductive Purpose where
  | client
  | server
  deriving DecidableEq

/-- `b"CLIENT"` and `b"SERVER"` -/
def Purpose.bytes : Purpose → List UInt8
  | .client => [0x43, 0x4c, 0x49, 0x45, 0x4e, 0x54]
  | .server => [0x53, 0x45, 0x52, 0x56, 0x45, 0x52]

def portBytes (port : UInt16) : List UInt8 := leBytes 2 port.toNat

def KdfParams.prekey (p : KdfParams) (purpose : Purpose) : List UInt8 :=
  match p.addrs with
  | .v4 srv clt =>
    buildMiddleproxyPrekey p.srvNonce.toList p.cltNonce.toList (u32Bytes p.cltTs) (some srv.toList)
      (portBytes p.cltPort) purpose.bytes (some clt.toList) (portBytes p.srvPort) p.secret none none
  | .v6 clt srv =>
    buildMiddleproxyPrekey p.srvNonce.toList p.cltNonce.toList (u32Bytes p.cltTs) none
      (portBytes p.cltPort) purpose.bytes none (portBytes p.srvPort) p.secret (some clt.toList)
      (some srv.toList)

section
variable (md5 : List UInt8 → Block UInt8 16) (sha1 : List UInt8 → Block UInt8 20)

theorem length_derivedKey (s : List UInt8) :
    ((md5 (s.drop 1)).toList.take 12 ++ (sha1 s).toList).length = 32 := by
  rw [List.length_append, List.length_take, (md5 _).length_eq, (sha1 s).length_eq]
  rfl

/-- `derive_middleproxy_keys`, from the prekey. -/
def deriveMiddleproxyKeys (s : List UInt8) : AesKey × AesBlock :=
  (⟨(md5 (s.drop 1)).toList.take 12 ++ (sha1 s).toList, length_derivedKey md5 sha1 s⟩, md5 (s.drop 2))

end

/-! ### The handshake up to its reply -/

/-- What a handshake starts from: both addresses after translation, which keeps their ports, the one
    that a SOCKS proxy reported, the secret and its selector, the time and our nonce. -/
structure HandshakeStart where
  localAddrNat : SocketAddr
  peerAddrNat : SocketAddr
  socksBoundAddr : Option SocketAddr
  ks : UInt32
  secret : List UInt8
  cryptoTs : UInt32
  myNonce : Block UInt8 16

def HandshakeStart.clientPortForKdf (s : HandshakeStart) : UInt16 :=
  ((s.socksBoundAddr.map (·.port)).filter (· ≠ 0)).getD s.localAddrNat.port

def HandshakeStart.params (s : HandshakeStart) (srvNonce : Block UInt8 16) (addrs : KdfAddrs) :
    KdfParams :=
  ⟨srvNonce, s.myNonce, s.cryptoTs, addrs, s.clientPortForKdf, s.peerAddrNat.port, s.secret⟩

def HandshakeStart.addrs (s : HandshakeStart) : Except ProxyError KdfAddrs :=
  kdfAddrs (extractIpMaterial s.peerAddrNat) (extractIpMaterial s.localAddrNat)

section
variable {R : Type} (crc : RpcCrc) (read : R → Option (UInt8 × R)) (onEnd : ProxyError)

/-- From the nonce frame to the parameters of the keys, once our own frame is written; the source ends
    with the error if that fails. -/
def exchangeNonces (s : HandshakeStart) (r : R) : Except ProxyError (KdfParams × R) :=
  match serverNonce crc read onEnd s.ks s.cryptoTs r with
  | .error e => .error e
  | .ok (srvNonce, r) =>
    match s.addrs with
    | .error e => .error e
    | .ok addrs => .ok (s.params srvNonce addrs, r)

end

/-! ### The answer, read and written -/

theorem u32Bytes_u32Val {bs : List UInt8} (h : bs.length = 4) : u32Bytes (u32Val bs) = bs :=
  leBytes_u32Val h

theorem u32Val_u32Bytes (n : UInt32) : u32Val (u32Bytes n) = n := by
  rw [u32Val, u32Bytes, leVal_leBytes_of_lt n.toNat_lt, UInt32.ofNat_toNat]

@[simp] theorem length_u32Bytes (n : UInt32) : (u32Bytes n).length = 4 := length_leBytes 4 _

@[simp] theorem length_noncePayload (ks schema ts : UInt32) (nonce : Block UInt8 16) :
    (noncePayload ks schema ts nonce).length = 32 := by
  simp [noncePayload, nonce.length_eq]

/-- A slice behind what comes before it. -/
theorem slice_append {front field rest : List UInt8} {i n : ℕ} (hi : front.length = i)
    (hn : field.length = n) : slice (front ++ field ++ rest) i n = field := by
  rw [slice, List.append_assoc, List.drop_left' hi, List.take_left' hn]

theorem parseNoncePayload_noncePayload (ks schema ts : UInt32) (nonce : Block UInt8 16)
    (extra : List UInt8) :
    parseNoncePayload (noncePayload ks schema ts nonce ++ extra) = .ok (ks, schema, ts, nonce) := by
  have hlen : ¬ (noncePayload ks schema ts nonce ++ extra).length < 32 := by simp
  have htype : slice (noncePayload ks schema ts nonce ++ extra) 0 4 = u32Bytes rpcNonce := by
    simp [noncePayload, slice]
  have hks : slice (noncePayload ks schema ts nonce ++ extra) 4 4 = u32Bytes ks := by
    simp [noncePayload, slice]
  have hschema : slice (noncePayload ks schema ts nonce ++ extra) 8 4 = u32Bytes schema := by
    simp [noncePayload, slice, List.drop_append, List.drop_eq_nil_of_le]
  have hts : slice (noncePayload ks schema ts nonce ++ extra) 12 4 = u32Bytes ts := by
    simp [noncePayload, slice, List.drop_append, List.drop_eq_nil_of_le]
  have hnonce : slice (noncePayload ks schema ts nonce ++ extra) 16 16 = nonce.toList :=
    slice_append (by simp) nonce.length_eq
  simp only [parseNoncePayload, dif_neg hlen, htype, hks, hschema, hts, hnonce, u32Val_u32Bytes,
    ne_eq, not_true_eq_false, if_false]

/-- The five fields of 32 bytes and what is behind them. -/
theorem nonce_fields (d : List UInt8) :
    d = slice d 0 4 ++ slice d 4 4 ++ slice d 8 4 ++ slice d 12 4 ++ slice d 16 16 ++ d.drop 32 := by
  have hcut : ∀ i n, slice d i n ++ d.drop (i + n) = d.drop i := by
    intro i n
    rw [slice, ← List.drop_drop, List.take_append_drop]
  rw [List.append_assoc, hcut 16 16, List.append_assoc, hcut 12 4, List.append_assoc, hcut 8 4,
    List.append_assoc, hcut 4 4, hcut 0 4, List.drop_zero]

theorem length_slice {d : List UInt8} {i n : ℕ} (h : i + n ≤ d.length) : (slice d i n).length = n := by
  rw [slice, List.length_take, List.length_drop]
  omega

theorem parseNoncePayload_ok {d : List UInt8} {ks schema ts : UInt32} {nonce : Block UInt8 16}
    (h : parseNoncePayload d = .ok (ks, schema, ts, nonce)) :
    ∃ extra, d = noncePayload ks schema ts nonce ++ extra := by
  unfold parseNoncePayload at h
  split at h
  · cases h
  rename_i hlen
  dsimp only at h
  split at h
  · cases h
  rename_i htype
  obtain ⟨rfl, rfl, rfl, rfl⟩ : u32Val (slice d 4 4) = ks ∧ u32Val (slice d 8 4) = schema ∧
      u32Val (slice d 12 4) = ts ∧ ⟨slice d 16 16, length_nonce hlen⟩ = nonce := by
    simpa [Prod.ext_iff] using h
  refine ⟨d.drop 32, ?_⟩
  rw [noncePayload, ← not_not.mp htype, u32Bytes_u32Val (length_slice (by omega)),
    u32Bytes_u32Val (length_slice (by omega)), u32Bytes_u32Val (length_slice (by omega)),
    u32Bytes_u32Val (length_slice (by omega))]
  exact nonce_fields d

section
variable {R : Type} {crc : RpcCrc} {read : R → Option (UInt8 × R)} {onEnd : ProxyError} {r r' : R}
  {seqNo : Int32} {payload : List UInt8}

theorem readRpcFramePlaintext_of_yields (hlen : payload.length + 12 ≤ maxFrameLen)
    (h : Yields read (buildRpcFrame crc seqNo payload .crc32) r r') :
    readRpcFramePlaintext crc read onEnd r = .ok ((seqNo, payload), r') := by
  obtain ⟨hbody, hcrc, hseq, hpayload⟩ := frame_fields crc .crc32 seqNo payload []
  simp only [List.append_nil,
    List.take_of_length_le (length_buildRpcFrame crc seqNo payload .crc32).le] at hbody hcrc hseq hpayload
  set frame := buildRpcFrame crc seqNo payload .crc32 with hframe
  have hcount : frame.length = payload.length + 12 := length_buildRpcFrame ..
  have hfour : (frame.take 4).length = 4 := List.length_take_of_le (by omega)
  have hwhole : frame ++ [] = buildRpcFrame crc seqNo payload .crc32 ++ [] := rfl
  have hval : leVal (frame.take 4) = payload.length + 12 := frame_len hwhole (by omega) hlen
  have hrest : (frame.drop 4).length = payload.length + 8 := by rw [List.length_drop, hcount]; rfl
  rw [← List.take_append_drop 4 frame] at h
  obtain ⟨r₁, hhead, htail⟩ := yields_append.mp h
  rw [Yields, hfour] at hhead
  rw [Yields, hrest] at htail
  have hrange : ¬ (payload.length + 12 < 12 ∨ maxFrameLen < payload.length + 12) := by omega
  have hoffset : payload.length + 12 - 4 = payload.length + 8 := by omega
  have hmatch : ¬ u32Val (frame.drop (payload.length + 8)) ≠
      crc .crc32 (frame.take (payload.length + 8)) := by rw [hbody, hcrc, not_not]
  simp only [readRpcFramePlaintext, hhead, hval, if_neg hrange, hoffset, htail, List.take_append_drop,
    if_neg hmatch, hseq, hpayload]

theorem readRpcFramePlaintext_ok
    (h : readRpcFramePlaintext crc read onEnd r = .ok ((seqNo, payload), r')) :
    payload.length + 12 ≤ maxFrameLen ∧ Yields read (buildRpcFrame crc seqNo payload .crc32) r r' := by
  unfold readRpcFramePlaintext at h
  split at h
  · cases h
  rename_i lenBuf r₁ hhead
  dsimp only at h
  split at h
  · cases h
  rename_i hrange
  split at h
  · cases h
  rename_i rest r₂ htail
  split at h
  · cases h
  rename_i hcrc
  have hfour := length_readExact hhead
  have hrest := length_readExact htail
  set full := lenBuf ++ rest with hfull
  have hcount : full.length = leVal lenBuf := by
    rw [hfull, List.length_append, hfour, hrest]
    omega
  obtain ⟨⟨rfl, rfl⟩, rfl⟩ : (i32Val ((full.drop 4).take 4) = seqNo ∧
      (full.take (leVal lenBuf - 4)).drop 8 = payload) ∧ r₂ = r' := by
    simpa [Prod.ext_iff] using h
  have hpayload : ((full.take (leVal lenBuf - 4)).drop 8).length + 12 = leVal lenBuf := by
    rw [List.length_drop, List.length_take, hcount]
    omega
  have hbody : frameBody (i32Val ((full.drop 4).take 4)) ((full.take (leVal lenBuf - 4)).drop 8) =
      full.take (leVal lenBuf - 4) := by
    have hlen : leBytes 4 (leVal lenBuf) = full.take 4 := by
      rw [hfull, List.take_left' hfour, ← hfour, leBytes_leVal]
    have hseq : i32Bytes (i32Val ((full.drop 4).take 4)) = (full.drop 4).take 4 :=
      i32Bytes_i32Val (by rw [List.length_take, List.length_drop, hcount]; omega)
    have hfront : full.take 4 ++ (full.drop 4).take 4 = full.take 8 := by
      rw [← List.take_add]
    have hfront' : (full.take (leVal lenBuf - 4)).take 8 = full.take 8 := by
      rw [List.take_take]
      congr 1
      omega
    rw [frameBody, show 4 + 4 + ((full.take (leVal lenBuf - 4)).drop 8).length + 4 = leVal lenBuf by
      omega, hlen, hseq, hfront, ← hfront', List.take_append_drop]
  refine ⟨by omega, ?_⟩
  have hframe : buildRpcFrame crc (i32Val ((full.drop 4).take 4))
      ((full.take (leVal lenBuf - 4)).drop 8) .crc32 = full := by
    rw [buildRpcFrame, hbody, ← not_not.mp hcrc, leBytes_u32Val, List.take_append_drop]
    rw [List.length_drop, hcount]
    omega
  rw [hframe]
  refine yields_append.mpr ⟨r₁, ?_, ?_⟩
  · rw [Yields, hfour, hhead]
  · rw [Yields, hrest, htail]

theorem serverNonce_ok {ks cryptoTs : UInt32} {srvNonce : Block UInt8 16}
    (h : serverNonce crc read onEnd ks cryptoTs r = .ok (srvNonce, r')) :
    ∃ srvTs extra, extra.length + 44 ≤ maxFrameLen ∧ absDiff cryptoTs srvTs ≤ 30 ∧
      Yields read (buildRpcFrame crc (-2) (buildNoncePayload ks srvTs srvNonce ++ extra) .crc32) r r' := by
  unfold serverNonce at h
  split at h
  · cases h
  rename_i srvSeq payload r₁ hframe
  split at h
  · cases h
  rename_i hseq
  split at h
  · cases h
  rename_i srvKeySelect schema srvTs nonce hparse
  dsimp only at h
  split_ifs at h with hschema hks hskew
  obtain ⟨rfl, rfl⟩ := Prod.mk.inj (Except.ok.inj h)
  obtain ⟨extra, rfl⟩ := parseNoncePayload_ok hparse
  obtain ⟨hlen, hyields⟩ := readRpcFramePlaintext_ok hframe
  rw [not_not.mp hseq, not_not.mp hschema, not_not.mp hks] at hyields
  refine ⟨srvTs, extra, ?_, Nat.le_of_not_lt hskew, hyields⟩
  rw [List.length_append, length_noncePayload] at hlen
  omega

theorem serverNonce_of_yields {ks cryptoTs srvTs : UInt32} {srvNonce : Block UInt8 16}
    {extra : List UInt8} (hlen : extra.length + 44 ≤ maxFrameLen)
    (hskew : absDiff cryptoTs srvTs ≤ 30)
    (h : Yields read (buildRpcFrame crc (-2) (buildNoncePayload ks srvTs srvNonce ++ extra) .crc32)
      r r') : serverNonce crc read onEnd ks cryptoTs r = .ok (srvNonce, r') := by
  have hpayload : (buildNoncePayload ks srvTs srvNonce ++ extra).length + 12 ≤ maxFrameLen := by
    rw [buildNoncePayload, List.length_append, length_noncePayload]
    omega
  rw [serverNonce, readRpcFramePlaintext_of_yields hpayload h]
  simp only [buildNoncePayload, parseNoncePayload_noncePayload, ne_eq, not_true_eq_false, if_false,
    if_neg (Nat.not_lt.mpr hskew)]

end

/-- An answer is accepted if and only if it begins with a frame −2 whose payload begins with a nonce for
    our selector, the one schema and a time at most 30 s from ours, and both ends have addresses of one
    family. Not a byte behind the frame is taken from the stream. -/
theorem nonce_exchange_exact {R : Type} (crc : RpcCrc) (read : R → Option (UInt8 × R))
    (onEnd : ProxyError) (s : HandshakeStart) (r r' : R) (p : KdfParams) :
    exchangeNonces crc read onEnd s r = .ok (p, r') ↔
      s.addrs = .ok p.addrs ∧ p = s.params p.srvNonce p.addrs ∧
        ∃ srvTs extra, extra.length + 44 ≤ maxFrameLen ∧ absDiff s.cryptoTs srvTs ≤ 30 ∧
          Yields read (buildRpcFrame crc (-2) (buildNoncePayload s.ks srvTs p.srvNonce ++ extra) .crc32)
            r r' := by
  constructor
  · intro h
    unfold exchangeNonces at h
    split at h
    · cases h
    rename_i srvNonce r₁ hnonce
    split at h
    · cases h
    rename_i addrs haddrs
    obtain ⟨rfl, rfl⟩ := Prod.mk.inj (Except.ok.inj h)
    obtain ⟨srvTs, extra, hlen, hskew, hyields⟩ := serverNonce_ok hnonce
    exact ⟨haddrs, rfl, srvTs, extra, hlen, hskew, hyields⟩
  · rintro ⟨haddrs, hp, srvTs, extra, hlen, hskew, hyields⟩
    rw [exchangeNonces, serverNonce_of_yields hlen hskew hyields, haddrs]
    dsimp only
    rw [← hp]

/-! ### What the keys tell apart -/

/-- The addresses as they stand in the prekey: two of four bytes, and those of IPv6. -/
def KdfAddrs.srvIp : KdfAddrs → List UInt8
  | .v4 srv _ => srv.toList
  | .v6 _ _ => emptyIp

def KdfAddrs.cltIp : KdfAddrs → List UInt8
  | .v4 _ clt => clt.toList
  | .v6 _ _ => emptyIp

def KdfAddrs.v6Part : KdfAddrs → List UInt8
  | .v4 _ _ => []
  | .v6 clt srv => clt.toList ++ srv.toList

@[simp] theorem KdfAddrs.length_srvIp (a : KdfAddrs) : a.srvIp.length = 4 := by
  cases a with
  | v4 srv clt => exact srv.length_eq
  | v6 clt srv => rfl

@[simp] theorem KdfAddrs.length_cltIp (a : KdfAddrs) : a.cltIp.length = 4 := by
  cases a with
  | v4 srv clt => exact clt.length_eq
  | v6 clt srv => rfl

@[simp] theorem length_portBytes (port : UInt16) : (portBytes port).length = 2 := length_leBytes 2 _

theorem portBytes_inj {a b : UInt16} (h : portBytes a = portBytes b) : a = b := by
  have hval := congrArg leVal h
  rw [portBytes, portBytes, leVal_leBytes_of_lt a.toNat_lt, leVal_leBytes_of_lt b.toNat_lt] at hval
  exact UInt16.toNat_inj.mp hval

theorem u32Bytes_inj {a b : UInt32} (h : u32Bytes a = u32Bytes b) : a = b := by
  rw [← u32Val_u32Bytes a, h, u32Val_u32Bytes]

@[simp] theorem Purpose.length_bytes (x : Purpose) : x.bytes.length = 6 := by cases x <;> rfl

theorem Purpose.bytes_inj {x y : Purpose} (h : x.bytes = y.bytes) : x = y := by
  cases x <;> cases y <;> first | rfl | exact absurd h (by decide)

theorem prekey_eq (p : KdfParams) (x : Purpose) :
    p.prekey x = p.srvNonce.toList ++ (p.cltNonce.toList ++ (u32Bytes p.cltTs ++ (p.addrs.srvIp ++
      (portBytes p.cltPort ++ (x.bytes ++ (p.addrs.cltIp ++ (portBytes p.srvPort ++
        ((p.secret ++ p.srvNonce.toList ++ p.addrs.v6Part) ++ p.cltNonce.toList)))))))) := by
  obtain ⟨srvNonce, cltNonce, cltTs, addrs, cltPort, srvPort, secret⟩ := p
  cases addrs <;>
    simp [KdfParams.prekey, buildMiddleproxyPrekey, KdfAddrs.srvIp, KdfAddrs.cltIp, KdfAddrs.v6Part]

/-- The two handshakes agree in all but the secret and the form of the addresses. -/
structure SameFields (p q : KdfParams) : Prop where
  srvNonce : p.srvNonce = q.srvNonce
  cltNonce : p.cltNonce = q.cltNonce
  cltTs : p.cltTs = q.cltTs
  srvIp : p.addrs.srvIp = q.addrs.srvIp
  cltPort : p.cltPort = q.cltPort
  cltIp : p.addrs.cltIp = q.addrs.cltIp
  srvPort : p.srvPort = q.srvPort

/-- All parts but the secret and the IPv6 addresses have one width. -/
theorem prekey_split {p q : KdfParams} {x y : Purpose} (h : p.prekey x = q.prekey y) :
    x = y ∧ SameFields p q ∧
      p.secret ++ p.srvNonce.toList ++ p.addrs.v6Part =
        q.secret ++ q.srvNonce.toList ++ q.addrs.v6Part := by
  rw [prekey_eq, prekey_eq] at h
  obtain ⟨hsrv, h⟩ := List.append_inj h (p.srvNonce.length_eq.trans q.srvNonce.length_eq.symm)
  obtain ⟨hclt, h⟩ := List.append_inj h (p.cltNonce.length_eq.trans q.cltNonce.length_eq.symm)
  obtain ⟨hts, h⟩ := List.append_inj h (by simp)
  obtain ⟨hsrvIp, h⟩ := List.append_inj h (by simp)
  obtain ⟨hcltPort, h⟩ := List.append_inj h (by simp)
  obtain ⟨hpurpose, h⟩ := List.append_inj h (by simp)
  obtain ⟨hcltIp, h⟩ := List.append_inj h (by simp)
  obtain ⟨hsrvPort, h⟩ := List.append_inj h (by simp)
  rw [hclt] at h
  exact ⟨Purpose.bytes_inj hpurpose,
    ⟨Block.ext hsrv, Block.ext hclt, u32Bytes_inj hts, hsrvIp, portBytes_inj hcltPort, hcltIp,
      portBytes_inj hsrvPort⟩, List.append_cancel_right h⟩

theorem length_emptyIp : emptyIp.length = 4 := rfl

def unspecifiedV4 : KdfAddrs := .v4 ⟨emptyIp, length_emptyIp⟩ ⟨emptyIp, length_emptyIp⟩

/-- The one way in which a handshake over IPv4 can be mistaken for one over IPv6: both its addresses are
    unspecified, the server's IPv6 address is its own nonce, and that with the client's address makes
    the difference between the secrets. -/
def Overlaps (p q : KdfParams) : Prop :=
  ∃ clt, q.addrs = .v6 clt p.srvNonce ∧
    p = { q with addrs := unspecifiedV4, secret := q.secret ++ p.srvNonce.toList ++ clt.toList }

theorem overlaps_of_prekey {p q : KdfParams} {srv clt : Block UInt8 4} {clt' srv' : Block UInt8 16}
    (hp : p.addrs = .v4 srv clt) (hq : q.addrs = .v6 clt' srv') (h : SameFields p q)
    (hsecret : p.secret ++ p.srvNonce.toList ++ p.addrs.v6Part =
      q.secret ++ q.srvNonce.toList ++ q.addrs.v6Part) : Overlaps p q := by
  obtain ⟨hsrv, hclt, hts, hsrvIp, hcltPort, hcltIp, hsrvPort⟩ := h
  rw [hp, hq, KdfAddrs.v6Part, KdfAddrs.v6Part, List.append_nil, ← List.append_assoc] at hsecret
  obtain ⟨hsecret, hnonce⟩ := List.append_inj' hsecret (p.srvNonce.length_eq.trans srv'.length_eq.symm)
  have haddrs : p.addrs = unspecifiedV4 := by
    rw [hp, hq] at hsrvIp hcltIp
    rw [hp, unspecifiedV4, KdfAddrs.v4.injEq]
    exact ⟨Block.ext hsrvIp, Block.ext hcltIp⟩
  refine ⟨clt', by rw [hq, Block.ext hnonce], ?_⟩
  ext1
  · exact hsrv
  · exact hclt
  · exact hts
  · exact haddrs
  · exact hcltPort
  · exact hsrvPort
  · rw [hsecret, hsrv]

theorem prekey_of_overlaps {p q : KdfParams} (h : Overlaps p q) (x : Purpose) :
    p.prekey x = q.prekey x := by
  obtain ⟨clt, hq, hp⟩ := h
  have hsrv : p.srvNonce = q.srvNonce := by rw [hp]
  rw [prekey_eq, prekey_eq, hp, hq, hsrv]
  simp [unspecifiedV4, KdfAddrs.srvIp, KdfAddrs.cltIp, KdfAddrs.v6Part]

theorem prekey_eq_iff (p q : KdfParams) (x y : Purpose) :
    p.prekey x = q.prekey y ↔ x = y ∧ (p = q ∨ Overlaps p q ∨ Overlaps q p) := by
  constructor
  · intro h
    obtain ⟨hpurpose, hsame, hsecret⟩ := prekey_split h
    refine ⟨hpurpose, ?_⟩
    have hsame' : SameFields q p := ⟨hsame.srvNonce.symm, hsame.cltNonce.symm, hsame.cltTs.symm,
      hsame.srvIp.symm, hsame.cltPort.symm, hsame.cltIp.symm, hsame.srvPort.symm⟩
    cases hp : p.addrs with
    | v4 srv clt =>
      cases hq : q.addrs with
      | v6 clt' srv' => exact .inr (.inl (overlaps_of_prekey hp hq hsame hsecret))
      | v4 srv' clt' =>
        rw [hp, hq, KdfAddrs.v6Part, KdfAddrs.v6Part, List.append_nil, List.append_nil, hsame.srvNonce]
          at hsecret
        have hsrv := hsame.srvIp
        have hclt := hsame.cltIp
        rw [hp, hq] at hsrv hclt
        refine .inl (KdfParams.ext hsame.srvNonce hsame.cltNonce hsame.cltTs ?_ hsame.cltPort
          hsame.srvPort (List.append_cancel_right hsecret))
        rw [hp, hq, KdfAddrs.v4.injEq]
        exact ⟨Block.ext hsrv, Block.ext hclt⟩
    | v6 clt srv =>
      cases hq : q.addrs with
      | v4 srv' clt' => exact .inr (.inr (overlaps_of_prekey hq hp hsame' hsecret.symm))
      | v6 clt' srv' =>
        rw [hp, hq, KdfAddrs.v6Part, KdfAddrs.v6Part, ← List.append_assoc, ← List.append_assoc] at hsecret
        obtain ⟨hsecret, hsrv⟩ := List.append_inj' hsecret (srv.length_eq.trans srv'.length_eq.symm)
        obtain ⟨hsecret, hclt⟩ := List.append_inj' hsecret (clt.length_eq.trans clt'.length_eq.symm)
        rw [hsame.srvNonce] at hsecret
        refine .inl (KdfParams.ext hsame.srvNonce hsame.cltNonce hsame.cltTs ?_ hsame.cltPort
          hsame.srvPort (List.append_cancel_right hsecret))
        rw [hp, hq, KdfAddrs.v6.injEq]
        exact ⟨Block.ext hclt, Block.ext hsrv⟩
  · rintro ⟨rfl, rfl | h | h⟩
    · rfl
    · exact prekey_of_overlaps h x
    · exact (prekey_of_overlaps h x).symm

theorem length_secret_of_overlaps {p q : KdfParams} (h : Overlaps p q) :
    q.secret.length < p.secret.length := by
  obtain ⟨clt, -, hp⟩ := h
  have hsecret : p.secret = q.secret ++ p.srvNonce.toList ++ clt.toList :=
    congrArg KdfParams.secret hp
  rw [hsecret, List.length_append, List.length_append, clt.length_eq]
  omega

theorem sha1_of_derivedKey {md5 : List UInt8 → Block UInt8 16} {sha1 : List UInt8 → Block UInt8 20}
    {a b : List UInt8}
    (h : (deriveMiddleproxyKeys md5 sha1 a).1 = (deriveMiddleproxyKeys md5 sha1 b).1) :
    sha1 a = sha1 b := by
  have hkey := congrArg Block.toList h
  exact Block.ext (List.append_inj' hkey ((sha1 a).length_eq.trans (sha1 b).length_eq.symm)).2

/-- Two keys, of one handshake or of two and of any direction: the prekeys are the same only for the same
    direction of handshakes with the same nonces, time, addresses, ports and secret (but for `Overlaps`,
    which needs two secrets), and so the keys are, unless the prekeys collide under SHA-1. -/
theorem session_keys_separate (md5 : List UInt8 → Block UInt8 16) (sha1 : List UInt8 → Block UInt8 20)
    (p q : KdfParams) (x y : Purpose) :
    (p.prekey x = q.prekey y ↔ x = y ∧ (p = q ∨ Overlaps p q ∨ Overlaps q p)) ∧
      (p.secret.length = q.secret.length → ¬ Overlaps p q ∧ ¬ Overlaps q p) ∧
      ((deriveMiddleproxyKeys md5 sha1 (p.prekey x)).1 =
          (deriveMiddleproxyKeys md5 sha1 (q.prekey y)).1 →
        (x = y ∧ (p = q ∨ Overlaps p q ∨ Overlaps q p)) ∨
          p.prekey x ≠ q.prekey y ∧ sha1 (p.prekey x) = sha1 (q.prekey y)) := by
  refine ⟨prekey_eq_iff p q x y, fun hlen => ⟨?_, ?_⟩, fun h => ?_⟩
  · exact fun hover => absurd hlen (length_secret_of_overlaps hover).ne'
  · exact fun hover => absurd hlen (length_secret_of_overlaps hover).ne
  · by_cases hpre : p.prekey x = q.prekey y
    · exact .inl ((prekey_eq_iff p q x y).mp hpre)
    · exact .inr ⟨hpre, sha1_of_derivedKey h⟩

/-! ### What is sent -/

def buildHandshakePayload (ourIp : List UInt8) (ourPort : UInt16) (peerIp : List UInt8)
    (peerPort : UInt16) (flags : UInt32) (pid : UInt16) (utime : UInt32) : List UInt8 :=
  u32Bytes rpcHandshake ++ u32Bytes flags ++
    (ourIp ++ portBytes ourPort ++ portBytes pid ++ u32Bytes utime) ++
    (peerIp ++ portBytes peerPort ++ portBytes 0 ++ u32Bytes 0)

section
variable (aes : BlockCipher) (crc : RpcCrc) (md5 : List UInt8 → Block UInt8 16)
  (sha1 : List UInt8 → Block UInt8 20) (s : HandshakeStart) (p : KdfParams) (pid : UInt16)
  (utime : UInt32)

def nonceFrame : List UInt8 := buildRpcFrame crc (-2) (buildNoncePayload s.ks s.cryptoTs s.myNonce) .crc32

def handshakeFrame : List UInt8 :=
  buildRpcFrame crc (-1) (buildHandshakePayload p.addrs.cltIp s.localAddrNat.port p.addrs.srvIp
    s.peerAddrNat.port (RpcChecksumMode.advertisedFlags .crc32c) pid utime) .crc32

/-- The ciphertext and the IV of what follows it. -/
def cbcEncryptPadded (key : AesKey) (iv : AesBlock) (plaintext : List UInt8) :
    Except ProxyError (List UInt8 × AesBlock) :=
  match AesCbc.encryptInPlace aes ⟨key, iv⟩ (padFrame plaintext) with
  | .error (.crypto e) => .error (.crypto s!"CBC encrypt: Crypto error: {e}")
  | .error e => .error e
  | .ok buf => .ok (buf, lastBlock (blockOf []) buf)

/-- All that is written to the socket of a connection that sends `msgs`, the checksum mode being the
    negotiated one. -/
def written (mode : RpcChecksumMode) (msgs : List (List UInt8)) : Except ProxyError (List UInt8) := do
  let (wk, wi) := deriveMiddleproxyKeys md5 sha1 (p.prekey .client)
  let (encryptedHs, writeIv) ← cbcEncryptPadded aes wk wi (handshakeFrame crc s p pid utime)
  let (sent, _) ← RpcWriter.sendAll aes crc ⟨wk, writeIv, 0, mode⟩ msgs
  return nonceFrame crc s ++ (encryptedHs ++ sent)

/-- The last block is the IV of what follows, whatever IV stands for no block at all. -/
theorem lastBlock_of_long {a b : AesBlock} {buf : List UInt8} (h : blockSize ≤ buf.length) :
    lastBlock a buf = lastBlock b buf := by
  rw [lastBlock, lastBlock, dif_pos h, dif_pos h]

/-- Behind the nonce frame everything is one CBC stream: with the key and the IV of the client's direction
    it decrypts to the handshake frame, of the plain checksum mode, and the frames of all messages, of
    the negotiated one. -/
theorem written_decrypts (mode : RpcChecksumMode) (msgs : List (List UInt8)) :
    ∃ cipher, written aes crc md5 sha1 s p pid utime mode msgs = .ok (nonceFrame crc s ++ cipher) ∧
      AesCbc.decryptInPlace aes ⟨(deriveMiddleproxyKeys md5 sha1 (p.prekey .client)).1,
          (deriveMiddleproxyKeys md5 sha1 (p.prekey .client)).2⟩ cipher =
        .ok (padFrame (handshakeFrame crc s p pid utime) ++ framesFrom crc mode 0 msgs) := by
  rcases hkeys : deriveMiddleproxyKeys md5 sha1 (p.prekey .client) with ⟨wk, wi⟩
  set frame := padFrame (handshakeFrame crc s p pid utime) with hframe
  have haligned : blockSize ∣ frame.length := padFrame_aligned _
  obtain ⟨enc, henc, hlen, -⟩ := encryptInPlace_ok aes wk wi haligned
  have hlong : blockSize ≤ enc.length := by
    rw [hlen, hframe, padFrame, List.length_append, handshakeFrame, length_buildRpcFrame,
      buildHandshakePayload]
    simp [blockSize]
  obtain ⟨sent, w, hall, hsent⟩ :=
    sendAll_wire aes crc msgs ⟨wk, lastBlock (blockOf []) enc, 0, mode⟩
  have hmsgs := framesFrom_aligned crc mode 0 msgs
  rw [lastBlock_of_long hlong (b := wi)] at hsent
  have hboth := encryptInPlace_append aes wk wi haligned hmsgs henc hsent
  obtain ⟨cipher, hcipher, -, hdec⟩ := encryptInPlace_ok aes wk wi (aligned_append haligned hmsgs)
  obtain rfl : enc ++ sent = cipher := Except.ok.inj (hboth.symm.trans hcipher)
  refine ⟨enc ++ sent, ?_, hdec⟩
  simp only [written, hkeys, cbcEncryptPadded, ← hframe, henc, hall, bind, Except.bind, pure,
    Except.pure]

end

end MtProxy.MiddleProxy.KeyExchange
