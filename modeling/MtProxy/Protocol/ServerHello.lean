import MtProxy.Protocol.Constants
import MtProxy.Protocol.TlsResponse

/-! `build_server_hello`: the answer to a FakeTLS client. The lengths are computed by hand as in the
    source, in fields of fixed width; for a session id and an ALPN choice of at most 255 bytes each
    of them is the length of what follows.

        ServerHello │ ChangeCipherSpec │ fake certificate │ ticket │ ⋯ │ ticket -/

namespace MtProxy.Protocol
open Schemes

/-- `x.clamp(lo, hi)`. -/
def clamp {α : Type*} [LinearOrder α] (lo hi x : α) : α :=
  if x < lo then lo else if hi < x then hi else x

theorem clamp_mem {α : Type*} [LinearOrder α] {lo hi : α} (h : lo ≤ hi) (x : α) :
    lo ≤ clamp lo hi x ∧ clamp lo hi x ≤ hi := by
  unfold clamp
  split_ifs with hlo hhi
  · exact ⟨le_refl lo, h⟩
  · exact ⟨h, le_refl hi⟩
  · exact ⟨not_lt.mp hlo, not_lt.mp hhi⟩

def tlsVersion : List UInt8 := [0x03, 0x03]
def tlsRecordHandshake : UInt8 := 0x16
def tlsRecordChangeCipher : UInt8 := 0x14
def tlsRecordApplication : UInt8 := 0x17
def minAppData : ℕ := 64
def maxAppData : ℕ := 16640

/-- What the generator answers, place by place. -/
abbrev Draws := ℕ → SecureRandom

/-- The draws from the `n`-th on. -/
def Draws.skip (rng : Draws) (n : ℕ) : Draws := fun i => rng (n + i)

/-- A generator that always answers zero. -/
def zeroRandom : SecureRandom where
  range _ := 0
  bytes len := List.replicate len 0
  range_lt _ h := h
  length_bytes _ := List.length_replicate

/-! ### The key share -/

def curve25519Prime : ℕ := 2 ^ 255 - 19

/-- A square modulo the prime, in 32 bytes. -/
def genFakeX25519Key (rng : SecureRandom) : List UInt8 :=
  let n := leVal (rng.bytes 32)
  leBytes 32 (n * n % curve25519Prime)

@[simp] theorem length_genFakeX25519Key (rng : SecureRandom) :
    (genFakeX25519Key rng).length = 32 := length_leBytes 32 _

/-! ### Extensions -/

def addKeyShare (extensions publicKey : List UInt8) : List UInt8 :=
  extensions ++ beBytes 2 0x0033 ++ beBytes 2 (2 + 2 + 32) ++ beBytes 2 0x001d ++ beBytes 2 32 ++
    publicKey

def addSupportedVersions (extensions : List UInt8) (version : ℕ) : List UInt8 :=
  extensions ++ beBytes 2 0x002b ++ beBytes 2 2 ++ beBytes 2 version

def addAlpn (extensions proto : List UInt8) : List UInt8 :=
  let protoLen := UInt8.ofNat proto.length
  let listLen := 1 + protoLen.toNat
  let extLen := 2 + listLen
  extensions ++ beBytes 2 0x0010 ++ beBytes 2 extLen ++ beBytes 2 listLen ++ [protoLen] ++ proto

/-! ### The ServerHello -/

structure ServerHelloBuilder where
  random : List UInt8
  sessionId : List UInt8
  cipherSuite : List UInt8
  compression : UInt8
  extensions : List UInt8
  alpn : Option (List UInt8)

namespace ServerHelloBuilder

def new (sessionId : List UInt8) : ServerHelloBuilder where
  random := List.replicate 32 0
  sessionId := sessionId
  cipherSuite := [0x13, 0x01]
  compression := 0x00
  extensions := []
  alpn := none

def withX25519Key (b : ServerHelloBuilder) (key : List UInt8) : ServerHelloBuilder :=
  { b with extensions := addKeyShare b.extensions key }

def withTls13Version (b : ServerHelloBuilder) : ServerHelloBuilder :=
  { b with extensions := addSupportedVersions b.extensions 0x0304 }

def withAlpn (b : ServerHelloBuilder) (proto : Option (List UInt8)) : ServerHelloBuilder :=
  { b with alpn := proto }

def buildMessage (b : ServerHelloBuilder) : List UInt8 :=
  let extensions := match b.alpn with
    | some alpn => addAlpn b.extensions alpn
    | none => b.extensions
  let bodyLen := 2 + 32 + 1 + b.sessionId.length + 2 + 1 + 2 + extensions.length
  0x02 :: (beBytes 4 bodyLen).drop 1 ++ tlsVersion ++ b.random ++
    [UInt8.ofNat b.sessionId.length] ++ b.sessionId ++ b.cipherSuite ++ [b.compression] ++
    beBytes 2 extensions.length ++ extensions

def buildRecord (b : ServerHelloBuilder) : List UInt8 :=
  let message := b.buildMessage
  tlsRecordHandshake :: tlsVersion ++ beBytes 2 message.length ++ message

end ServerHelloBuilder

/-! ### The response -/

def changeCipherSpec : List UInt8 :=
  [tlsRecordChangeCipher] ++ tlsVersion ++ [0x00, 0x01, 0x01]

/-- An ApplicationData record that announces `len` bytes. -/
def appDataRecord (len : ℕ) (data : List UInt8) : List UInt8 :=
  tlsRecordApplication :: tlsVersion ++ beBytes 2 len ++ data

/-- The NewSessionTicket records, 48 to 95 bytes each. -/
def ticketRecords (rng : Draws) : ℕ → List UInt8
  | 0 => []
  | n + 1 =>
    let ticketLen := (rng 0).range 48 + 48
    appDataRecord ticketLen ((rng 1).bytes ticketLen) ++ ticketRecords (rng.skip 2) n

section
variable (sha256Hmac : List UInt8 → List UInt8 → Block UInt8 tlsDigestLen)

/-- The HMAC over the client's digest and the response goes into the ServerHello. -/
def signResponse (secret clientDigest response : List UInt8) : List UInt8 :=
  copyInto response tlsDigestPos (sha256Hmac secret (clientDigest ++ response)).toList

def buildServerHello (secret clientDigest sessionId : List UInt8) (fakeCertLen : ℕ) (rng : Draws)
    (alpn : Option (List UInt8)) (newSessionTickets : UInt8) : List UInt8 :=
  let fakeCertLen := clamp minAppData maxAppData fakeCertLen
  let serverHello := ((ServerHelloBuilder.new sessionId).withX25519Key (genFakeX25519Key (rng 0))
    |>.withTls13Version |>.withAlpn alpn).buildRecord
  let appData := appDataRecord fakeCertLen ((rng 1).bytes fakeCertLen)
  let tickets := ticketRecords (rng.skip 2) newSessionTickets.toNat
  signResponse sha256Hmac secret clientDigest
    (serverHello ++ changeCipherSpec ++ appData ++ tickets)

end

/-! ### The extensions as a client reads them -/

def keyShareData (key : List UInt8) : List UInt8 := beBytes 2 0x001d ++ block 2 key
def alpnData (proto : List UInt8) : List UInt8 := block 2 (block 1 proto)

/-- The extensions of both builders. -/
def helloExtensions (key : List UInt8) (alpn : Option (List UInt8)) : List (ℕ × List UInt8) :=
  (0x0033, keyShareData key) :: (0x002b, beBytes 2 0x0304) ::
    alpn.toList.map fun proto => (0x0010, alpnData proto)

theorem addKeyShare_eq (extensions : List UInt8) {key : List UInt8} (hkey : key.length = 32) :
    addKeyShare extensions key = extensions ++ extensionBytes (0x0033, keyShareData key) := by
  have hdata : (keyShareData key).length = 36 := by simp [keyShareData, hkey]
  rw [addKeyShare, extensionBytes, block, hdata, keyShareData, block, hkey]
  simp only [List.append_assoc]

theorem addSupportedVersions_eq (extensions : List UInt8) (version : ℕ) :
    addSupportedVersions extensions version =
      extensions ++ extensionBytes (0x002b, beBytes 2 version) := by
  simp only [addSupportedVersions, extensionBytes, block, length_beBytes, List.append_assoc]

theorem length_alpnData (proto : List UInt8) : (alpnData proto).length = 3 + proto.length := by
  rw [alpnData, length_block, length_block]
  omega

theorem addAlpn_eq (extensions : List UInt8) {proto : List UInt8} (hproto : proto.length ≤ 255) :
    addAlpn extensions proto = extensions ++ extensionBytes (0x0010, alpnData proto) := by
  have hlen : (UInt8.ofNat proto.length).toNat = proto.length :=
    UInt8.toNat_ofNat_of_lt (by rw [UInt8.size]; omega)
  have hlist : (block 1 proto).length = 1 + proto.length := length_block
  have hdata : (alpnData proto).length = 2 + (1 + proto.length) := by rw [length_alpnData]; omega
  have hbyte : [UInt8.ofNat proto.length] = beBytes 1 proto.length := rfl
  simp only [addAlpn, hlen, hbyte, extensionBytes, block, hdata, List.append_assoc]
  rw [alpnData, block, hlist, block]

section
variable {key : List UInt8} {alpn : Option (List UInt8)}

theorem helloExtensions_fit (hkey : key.length = 32) (halpn : ∀ p ∈ alpn, p.length ≤ 255) :
    ∀ ext ∈ helloExtensions key alpn, ext.1 < 2 ^ 16 ∧ ext.2.length < 2 ^ 16 := by
  intro ext hext
  rcases List.mem_cons.mp hext with rfl | hext
  · simp [keyShareData, hkey]
  rcases List.mem_cons.mp hext with rfl | hext
  · simp
  · obtain ⟨proto, hproto, rfl⟩ := List.mem_map.mp hext
    have hlen := halpn proto (Option.mem_toList.mp hproto)
    simp only [length_alpnData]
    omega

theorem length_helloExtensions (hkey : key.length = 32) (halpn : ∀ p ∈ alpn, p.length ≤ 255) :
    ((helloExtensions key alpn).flatMap extensionBytes).length ≤ 308 := by
  cases alpn with
  | none => simp [helloExtensions, extensionBytes, keyShareData, hkey]
  | some proto =>
    have hproto := halpn proto rfl
    simp [helloExtensions, extensionBytes, keyShareData, hkey, length_alpnData]
    omega

end

/-! ### The ServerHello as a client reads it -/

theorem helloToBytes_eq {hello : ServerHello} (h : hello.Fits) : hello.toBytes =
    0x02 :: (beBytes 4 (2 + 32 + 1 + hello.sessionId.length + 2 + 1 + 2 +
        hello.extensionsBytes.length)).drop 1 ++ hello.version ++ hello.random ++
      [UInt8.ofNat hello.sessionId.length] ++ hello.sessionId ++ hello.cipherSuite ++
      [hello.compression] ++ beBytes 2 hello.extensionsBytes.length ++ hello.extensionsBytes := by
  have hlen : 2 + 32 + 1 + hello.sessionId.length + 2 + 1 + 2 + hello.extensionsBytes.length =
      hello.bodyBytes.length := by
    rw [length_bodyBytes h]
    omega
  have hthree : (beBytes 4 hello.bodyBytes.length).drop 1 = beBytes 3 hello.bodyBytes.length := rfl
  have hbyte : [UInt8.ofNat hello.sessionId.length] = beBytes 1 hello.sessionId.length := rfl
  rw [hlen, hthree, hbyte, ServerHello.toBytes, block]
  simp only [ServerHello.bodyBytes, ServerHello.afterRandom, block, List.append_assoc,
    List.cons_append, List.nil_append]

theorem length_helloToBytes {hello : ServerHello} (h : hello.Fits) : hello.toBytes.length =
    44 + hello.sessionId.length + hello.extensionsBytes.length := by
  rw [ServerHello.toBytes, List.length_cons, length_block, length_bodyBytes h]
  omega

/-! ### The ApplicationData records -/

theorem appDataRecord_eq {len : ℕ} {data : List UInt8} (h : data.length = len) :
    appDataRecord len data = TlsRecord.toBytes ⟨0x17, data⟩ := by
  simp only [appDataRecord, TlsRecord.toBytes, block, h, tlsRecordApplication, tlsVersion,
    List.cons_append, List.nil_append]

/-- What the tickets hold. -/
def ticketBodies (rng : Draws) : ℕ → List (List UInt8)
  | 0 => []
  | n + 1 => (rng 1).bytes ((rng 0).range 48 + 48) :: ticketBodies (rng.skip 2) n

theorem ticketRecords_eq (rng : Draws) (n : ℕ) : ticketRecords rng n =
    ((ticketBodies rng n).map (TlsRecord.mk 0x17)).flatMap TlsRecord.toBytes := by
  induction n generalizing rng with
  | zero => rfl
  | succ n ih =>
    rw [ticketRecords, ticketBodies, List.map_cons, List.flatMap_cons, ih,
      appDataRecord_eq ((rng 1).length_bytes _)]

theorem ticketBodies_le (rng : Draws) (n : ℕ) :
    ∀ body ∈ ticketBodies rng n, 48 ≤ body.length ∧ body.length ≤ 95 := by
  induction n generalizing rng with
  | zero => exact List.forall_mem_nil _
  | succ n ih =>
    refine List.forall_mem_cons.mpr ⟨?_, ih (rng.skip 2)⟩
    have hrange := (rng 0).range_lt 48 (by decide)
    rw [(rng 1).length_bytes]
    omega

/-! ### The whole response -/

/-- A response without its authentication, from the parts that differ between the builders. -/
def unsignedResponse (version cipherSuite : List UInt8) (compression : UInt8)
    (sessionId key : List UInt8) (alpn : Option (List UInt8)) (appData : List (List UInt8)) :
    TlsResponse where
  hello := { version := version, random := List.replicate 32 0, sessionId := sessionId
             cipherSuite := cipherSuite, compression := compression
             extensions := helloExtensions key alpn }
  appData := appData

section
variable {version cipherSuite sessionId key : List UInt8} (compression : UInt8)
  {alpn : Option (List UInt8)} {appData : List (List UInt8)}

theorem unsignedResponse_fits (hversion : version.length = 2) (hcipher : cipherSuite.length = 2)
    (hsession : sessionId.length ≤ 255) (hkey : key.length = 32)
    (halpn : ∀ p ∈ alpn, p.length ≤ 255) (happ : ∀ body ∈ appData, body.length ≤ 16640) :
    (unsignedResponse version cipherSuite compression sessionId key alpn appData).Fits := by
  have hexts := length_helloExtensions hkey halpn
  have hhello : (unsignedResponse version cipherSuite compression sessionId key alpn
      appData).hello.Fits :=
    { version := hversion, random := List.length_replicate, sessionId := Nat.lt_succ_of_le hsession
      cipherSuite := hcipher, extension := helloExtensions_fit hkey halpn
      extensions := lt_of_le_of_lt hexts (by norm_num) }
  refine ⟨hhello, ?_, happ⟩
  rw [length_helloToBytes hhello]
  have hsid : (unsignedResponse version cipherSuite compression sessionId key alpn
    appData).hello.sessionId.length ≤ 255 := hsession
  have hlen : (unsignedResponse version cipherSuite compression sessionId key alpn
    appData).hello.extensionsBytes.length ≤ 308 := hexts
  omega

end

/-! ### The authentication -/

/-- A client reads these records and this ServerHello, with nothing left over, each length exact and
    at most that of a TLS record, and gets its session id back. -/
def WellFormed (response sessionId : List UInt8) (alpn : Option (List UInt8)) : Prop :=
  ∃ r key, readAll takeRecord response = some r.records ∧ readResponse response = some r ∧
    r.hello.sessionId = sessionId ∧ key.length = 32 ∧
    r.hello.extensions = helloExtensions key alpn ∧ ∀ rec ∈ r.records, rec.body.length ≤ 16640

/-- The random is the HMAC over the client's digest and the response with a zeroed random. -/
def Authenticated (sha256Hmac : List UInt8 → List UInt8 → Block UInt8 tlsDigestLen)
    (secret clientDigest response : List UInt8) : Prop :=
  slice response 11 32 =
    (sha256Hmac secret (clientDigest ++ copyInto response 11 (List.replicate 32 0))).toList

section
variable (sha256Hmac : List UInt8 → List UInt8 → Block UInt8 tlsDigestLen)
  (secret clientDigest : List UInt8) {r : TlsResponse}

/-- What stands in the random of the signed response. -/
def responseDigest (r : TlsResponse) : List UInt8 :=
  (sha256Hmac secret (clientDigest ++ r.toBytes)).toList

theorem length_responseDigest :
    (responseDigest sha256Hmac secret clientDigest r).length = 32 := Block.length_eq _

theorem signResponse_eq (h : r.hello.Fits) : signResponse sha256Hmac secret clientDigest r.toBytes =
    (r.withRandom (responseDigest sha256Hmac secret clientDigest r)).toBytes :=
  copyInto_toBytes h (length_responseDigest sha256Hmac secret clientDigest)

theorem withRandom_fits (h : r.Fits) {random : List UInt8} (hrandom : random.length = 32) :
    (r.withRandom random).Fits := by
  have hhello : (r.withRandom random).hello.Fits := { h.hello with random := hrandom }
  refine ⟨hhello, ?_, h.appData⟩
  have hlen := h.message
  rw [length_helloToBytes h.hello] at hlen
  rw [length_helloToBytes hhello]
  exact hlen

theorem randomFits (h : r.hello.Fits) : tlsDigestPos + 32 ≤ r.toBytes.length := by
  rw [toBytes_eq, List.length_append, length_beforeRandom h, List.length_append, h.random]
  omega

/-- Zeroing the random of the signed response gives the response that was signed. -/
theorem zeroed_signResponse (h : r.hello.Fits) (hzero : r.hello.random = List.replicate 32 0) :
    copyInto (signResponse sha256Hmac secret clientDigest r.toBytes) 11 (List.replicate 32 0) =
      r.toBytes := by
  have hlen := randomFits h
  have hsame : r.withRandom (List.replicate 32 0) = r := by rw [← hzero]; rfl
  have hcopy : copyInto r.toBytes tlsDigestPos (List.replicate 32 0) = r.toBytes :=
    (copyInto_toBytes h List.length_replicate).trans (congrArg TlsResponse.toBytes hsame)
  rw [signResponse, ← tlsDigestPos, copyInto_copyInto, hcopy]
  · rw [Block.length_eq, List.length_replicate]
    rfl
  · rw [List.length_replicate]
    exact hlen

theorem signResponse_authenticated (h : r.hello.Fits)
    (hzero : r.hello.random = List.replicate 32 0) :
    Authenticated sha256Hmac secret clientDigest
      (signResponse sha256Hmac secret clientDigest r.toBytes) := by
  have hlen := randomFits h
  have hdigest := length_responseDigest sha256Hmac secret clientDigest (r := r)
  have hslice := slice_copyInto (show tlsDigestPos +
    (responseDigest sha256Hmac secret clientDigest r).length ≤ r.toBytes.length by rwa [hdigest])
  rw [hdigest] at hslice
  rw [Authenticated, zeroed_signResponse sha256Hmac secret clientDigest h hzero]
  exact hslice

/-- A signed response that fits is read by a client and passes its check. -/
theorem signResponse_meets {version cipherSuite sessionId key : List UInt8} (compression : UInt8)
    {alpn : Option (List UInt8)} {appData : List (List UInt8)}
    (hversion : version.length = 2) (hcipher : cipherSuite.length = 2)
    (hsession : sessionId.length ≤ 255) (hkey : key.length = 32)
    (halpn : ∀ p ∈ alpn, p.length ≤ 255) (happ : ∀ body ∈ appData, body.length ≤ 16640) :
    WellFormed (signResponse sha256Hmac secret clientDigest
        (unsignedResponse version cipherSuite compression sessionId key alpn appData).toBytes)
      sessionId alpn ∧
    Authenticated sha256Hmac secret clientDigest (signResponse sha256Hmac secret clientDigest
      (unsignedResponse version cipherSuite compression sessionId key alpn appData).toBytes) := by
  have hfits := unsignedResponse_fits compression hversion hcipher hsession hkey
    halpn happ
  have hsigned := withRandom_fits hfits
    (length_responseDigest sha256Hmac secret clientDigest
      (r := unsignedResponse version cipherSuite compression sessionId key alpn appData))
  refine ⟨?_, signResponse_authenticated sha256Hmac secret clientDigest hfits.hello rfl⟩
  rw [signResponse_eq sha256Hmac secret clientDigest hfits.hello]
  exact ⟨_, key, readAll_records hsigned, readResponse_toBytes hsigned, rfl, hkey, rfl,
    record_fits hsigned⟩

/-! ### `build_server_hello` -/

/-- A response record by record, with the constants of the source. -/
theorem toBytes_records (r : TlsResponse) : r.toBytes =
    tlsRecordHandshake :: tlsVersion ++ beBytes 2 r.hello.toBytes.length ++ r.hello.toBytes ++
      changeCipherSpec ++ (r.appData.map (TlsRecord.mk 0x17)).flatMap TlsRecord.toBytes := by
  have hccs : TlsRecord.toBytes ⟨0x14, [0x01]⟩ = changeCipherSpec := by decide
  rw [TlsResponse.toBytes, TlsResponse.records, List.flatMap_cons, List.flatMap_cons, hccs,
    TlsRecord.toBytes, block]
  simp only [tlsRecordHandshake, tlsVersion, List.append_assoc, List.cons_append]

variable {sessionId : List UInt8} {alpn : Option (List UInt8)} (fakeCertLen : ℕ) (rng : Draws)
  (newSessionTickets : UInt8)

/-- The response that `build_server_hello` signs. -/
def plainResponse (sessionId : List UInt8) (alpn : Option (List UInt8)) (fakeCertLen : ℕ)
    (rng : Draws) (newSessionTickets : UInt8) : TlsResponse :=
  unsignedResponse tlsVersion [0x13, 0x01] 0x00 sessionId (genFakeX25519Key (rng 0)) alpn
    ((rng 1).bytes (clamp minAppData maxAppData fakeCertLen) ::
      ticketBodies (rng.skip 2) newSessionTickets.toNat)

/-- The message of the builder is the ServerHello the client reads. -/
theorem buildMessage_eq {key : List UInt8} (hkey : key.length = 32)
    (hsession : sessionId.length ≤ 255) (halpn : ∀ p ∈ alpn, p.length ≤ 255)
    (appData : List (List UInt8)) :
    (((ServerHelloBuilder.new sessionId).withX25519Key key).withTls13Version.withAlpn
        alpn).buildMessage =
      (unsignedResponse tlsVersion [0x13, 0x01] 0x00 sessionId key alpn appData).hello.toBytes := by
  have hhello : (unsignedResponse tlsVersion [0x13, 0x01] 0x00 sessionId key alpn
      appData).hello.Fits :=
    (unsignedResponse_fits 0x00 rfl rfl hsession hkey halpn (List.forall_mem_nil _)).hello
  have hplain : addSupportedVersions (addKeyShare [] key) 0x0304 =
      extensionBytes (0x0033, keyShareData key) ++ extensionBytes (0x002b, beBytes 2 0x0304) := by
    rw [addSupportedVersions_eq, addKeyShare_eq _ hkey, List.nil_append]
  rw [helloToBytes_eq hhello]
  cases alpn with
  | none =>
    have hexts : addSupportedVersions (addKeyShare [] key) 0x0304 =
        (helloExtensions key none).flatMap extensionBytes := by
      rw [hplain]
      simp [helloExtensions]
    simp only [ServerHelloBuilder.buildMessage, ServerHelloBuilder.new,
      ServerHelloBuilder.withX25519Key, ServerHelloBuilder.withTls13Version,
      ServerHelloBuilder.withAlpn, hexts]
    rfl
  | some proto =>
    have hexts : addAlpn (addSupportedVersions (addKeyShare [] key) 0x0304) proto =
        (helloExtensions key (some proto)).flatMap extensionBytes := by
      rw [addAlpn_eq _ (halpn proto rfl), hplain]
      simp [helloExtensions]
    simp only [ServerHelloBuilder.buildMessage, ServerHelloBuilder.new,
      ServerHelloBuilder.withX25519Key, ServerHelloBuilder.withTls13Version,
      ServerHelloBuilder.withAlpn, hexts]
    rfl

theorem buildServerHello_eq (hsession : sessionId.length ≤ 255)
    (halpn : ∀ p ∈ alpn, p.length ≤ 255) :
    buildServerHello sha256Hmac secret clientDigest sessionId fakeCertLen rng alpn
        newSessionTickets =
      signResponse sha256Hmac secret clientDigest
        (plainResponse sessionId alpn fakeCertLen rng newSessionTickets).toBytes := by
  have hmessage := buildMessage_eq (length_genFakeX25519Key (rng 0)) hsession halpn
    ((rng 1).bytes (clamp minAppData maxAppData fakeCertLen) ::
      ticketBodies (rng.skip 2) newSessionTickets.toNat)
  unfold buildServerHello ServerHelloBuilder.buildRecord plainResponse
  simp only [hmessage]
  rw [toBytes_records, ticketRecords_eq, appDataRecord_eq ((rng 1).length_bytes _)]
  simp only [unsignedResponse, List.map_cons, List.flatMap_cons, List.append_assoc,
    List.cons_append]

/-- The records of `build_server_hello` are within the limits. -/
theorem plainResponse_le : ∀ body ∈ (rng 1).bytes (clamp minAppData maxAppData fakeCertLen) ::
    ticketBodies (rng.skip 2) newSessionTickets.toNat, body.length ≤ 16640 := by
  refine List.forall_mem_cons.mpr ⟨?_, ?_⟩
  · rw [(rng 1).length_bytes]
    exact (clamp_mem (by decide) fakeCertLen).2
  · intro body hbody
    have hlen := ticketBodies_le (rng.skip 2) newSessionTickets.toNat body hbody
    omega

theorem buildServerHello_meets (hsession : sessionId.length ≤ 255)
    (halpn : ∀ p ∈ alpn, p.length ≤ 255) :
    WellFormed (buildServerHello sha256Hmac secret clientDigest sessionId fakeCertLen rng alpn
        newSessionTickets) sessionId alpn ∧
      Authenticated sha256Hmac secret clientDigest (buildServerHello sha256Hmac secret clientDigest
        sessionId fakeCertLen rng alpn newSessionTickets) := by
  rw [buildServerHello_eq sha256Hmac secret clientDigest fakeCertLen rng newSessionTickets hsession
    halpn]
  exact signResponse_meets sha256Hmac secret clientDigest 0x00 rfl rfl hsession
    (length_genFakeX25519Key (rng 0)) halpn (plainResponse_le fakeCertLen rng newSessionTickets)

end

end MtProxy.Protocol
