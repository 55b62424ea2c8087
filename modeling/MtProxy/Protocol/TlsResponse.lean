import MtProxy.Protocol.Tls
import MtProxy.Schemes.Decode

/-! What a server answers to a ClientHello, as a client reads it.

        record      type │ 03 03 │ length 2 │ body
        response    16 ServerHello │ 14 ChangeCipherSpec │ 17 │ 17 │ ⋯

        ServerHello 02 │ length 3 │ version 2 │ random 32 │ length 1, session id
                    │ cipher suite 2 │ compression 1 │ length 2, extensions

    A response written from its parts is read back, with every length exact and nothing left over.
    The random of the ServerHello stands at 11 and can be replaced afterwards: so the response is
    authenticated. -/

namespace MtProxy.Protocol
open Schemes

structure TlsRecord where
  type : UInt8
  body : List UInt8
  deriving DecidableEq

structure ServerHello where
  version : List UInt8
  random : List UInt8
  sessionId : List UInt8
  cipherSuite : List UInt8
  compression : UInt8
  extensions : List (ℕ × List UInt8)
  deriving DecidableEq

/-- The ServerHello and the bodies of the ApplicationData records. -/
structure TlsResponse where
  hello : ServerHello
  appData : List (List UInt8)
  deriving DecidableEq

/-! ### Reading -/

def takeRecord (bs : List UInt8) : Option (TlsRecord × List UInt8) := do
  let (type, bs) ← takeByte bs
  let (version, bs) ← takeBytes 2 bs
  if version ≠ [0x03, 0x03] then none
  else
    let (body, bs) ← takeBlock 2 bs
    return (⟨type, body⟩, bs)

def takeExtension (bs : List UInt8) : Option ((ℕ × List UInt8) × List UInt8) := do
  let (type, bs) ← takeBe 2 bs
  let (data, bs) ← takeBlock 2 bs
  return ((type, data), bs)

def readHelloBody (bs : List UInt8) : Option ServerHello := do
  let (version, bs) ← takeBytes 2 bs
  let (random, bs) ← takeBytes 32 bs
  let (sessionId, bs) ← takeBlock 1 bs
  let (cipherSuite, bs) ← takeBytes 2 bs
  let (compression, bs) ← takeByte bs
  let extensions ← whole (takeBlock 2 bs)
  let extensions ← readAll takeExtension extensions
  return ⟨version, random, sessionId, cipherSuite, compression, extensions⟩

def readServerHello (bs : List UInt8) : Option ServerHello := do
  let (type, bs) ← takeByte bs
  if type ≠ 0x02 then none
  else
    let body ← whole (takeBlock 3 bs)
    readHelloBody body

def readResponse (bs : List UInt8) : Option TlsResponse := do
  match ← readAll takeRecord bs with
  | hello :: ccs :: apps =>
    if hello.type = 0x16 ∧ ccs = ⟨0x14, [0x01]⟩ ∧ apps.all (·.type == 0x17) then
      let hello ← readServerHello hello.body
      return ⟨hello, apps.map TlsRecord.body⟩
    else none
  | _ => none

/-! ### Writing -/

def TlsRecord.toBytes (r : TlsRecord) : List UInt8 := r.type :: ([0x03, 0x03] ++ block 2 r.body)

def extensionBytes (ext : ℕ × List UInt8) : List UInt8 := beBytes 2 ext.1 ++ block 2 ext.2

namespace ServerHello

def extensionsBytes (hello : ServerHello) : List UInt8 := hello.extensions.flatMap extensionBytes

/-- What follows the random. -/
def afterRandom (hello : ServerHello) : List UInt8 :=
  block 1 hello.sessionId ++ (hello.cipherSuite ++ hello.compression ::
    block 2 hello.extensionsBytes)

def bodyBytes (hello : ServerHello) : List UInt8 :=
  hello.version ++ (hello.random ++ hello.afterRandom)

def toBytes (hello : ServerHello) : List UInt8 := 0x02 :: block 3 hello.bodyBytes

/-- Every field has its width and every length fits its field. -/
structure Fits (hello : ServerHello) : Prop where
  version : hello.version.length = 2
  random : hello.random.length = 32
  sessionId : hello.sessionId.length < 256
  cipherSuite : hello.cipherSuite.length = 2
  extension : ∀ ext ∈ hello.extensions, ext.1 < 2 ^ 16 ∧ ext.2.length < 2 ^ 16
  extensions : hello.extensionsBytes.length < 2 ^ 16

end ServerHello

namespace TlsResponse

def records (r : TlsResponse) : List TlsRecord :=
  ⟨0x16, r.hello.toBytes⟩ :: ⟨0x14, [0x01]⟩ :: r.appData.map (⟨0x17, ·⟩)

def toBytes (r : TlsResponse) : List UInt8 := r.records.flatMap TlsRecord.toBytes

/-- The response with another random. -/
def withRandom (r : TlsResponse) (random : List UInt8) : TlsResponse :=
  { r with hello := { r.hello with random := random } }

/-- The limit of TLS on the length of a record. -/
structure Fits (r : TlsResponse) : Prop where
  hello : r.hello.Fits
  message : r.hello.toBytes.length ≤ 16640
  appData : ∀ body ∈ r.appData, body.length ≤ 16640

end TlsResponse

/-! ### What was written is read back -/

theorem takeRecord_toBytes {r : TlsRecord} (h : r.body.length < 2 ^ 16) (rest : List UInt8) :
    takeRecord (r.toBytes ++ rest) = some (r, rest) := by
  have hversion : ∀ more : List UInt8,
      takeBytes 2 ([0x03, 0x03] ++ more) = some ([0x03, 0x03], more) :=
    fun _ => takeBytes_append rfl
  have hbody : takeBlock 2 (block 2 r.body ++ rest) = some (r.body, rest) := takeBlock_block h
  rw [TlsRecord.toBytes, List.cons_append, List.append_assoc]
  simp only [takeRecord, takeByte, hversion, hbody, Option.bind_eq_bind, Option.bind_some,
    ne_eq, not_true_eq_false, if_false, Option.pure_def]

theorem takeExtension_extensionBytes {ext : ℕ × List UInt8} (htype : ext.1 < 2 ^ 16)
    (hdata : ext.2.length < 2 ^ 16) (rest : List UInt8) :
    takeExtension (extensionBytes ext ++ rest) = some (ext, rest) := by
  have ht : ∀ more, takeBe 2 (beBytes 2 ext.1 ++ more) = some (ext.1, more) :=
    fun _ => takeBe_beBytes htype
  have hd : takeBlock 2 (block 2 ext.2 ++ rest) = some (ext.2, rest) := takeBlock_block hdata
  rw [extensionBytes, List.append_assoc]
  simp only [takeExtension, ht, hd, Option.bind_eq_bind, Option.bind_some, Option.pure_def]

theorem extensionBytes_ne_nil (ext : ℕ × List UInt8) : extensionBytes ext ≠ [] := by
  simp [extensionBytes, beBytes, leBytes]

section
variable {hello : ServerHello}

theorem readHelloBody_bodyBytes (h : hello.Fits) :
    readHelloBody hello.bodyBytes = some hello := by
  have hversion : ∀ more, takeBytes 2 (hello.version ++ more) = some (hello.version, more) :=
    fun _ => takeBytes_append h.version
  have hrandom : ∀ more, takeBytes 32 (hello.random ++ more) = some (hello.random, more) :=
    fun _ => takeBytes_append h.random
  have hsession : ∀ more, takeBlock 1 (block 1 hello.sessionId ++ more) =
      some (hello.sessionId, more) := fun _ => takeBlock_block h.sessionId
  have hcipher : ∀ more, takeBytes 2 (hello.cipherSuite ++ more) = some (hello.cipherSuite, more) :=
    fun _ => takeBytes_append h.cipherSuite
  have hexts : whole (takeBlock 2 (block 2 hello.extensionsBytes)) = some hello.extensionsBytes :=
    takeBlock_all h.extensions
  have hall : readAll takeExtension hello.extensionsBytes = some hello.extensions :=
    readAll_flatMap
      (fun ext hext => takeExtension_extensionBytes (h.extension ext hext).1 (h.extension ext hext).2)
      (fun ext _ => extensionBytes_ne_nil ext)
  simp only [readHelloBody, ServerHello.bodyBytes, ServerHello.afterRandom, hversion, hrandom,
    hsession, hcipher, takeByte, hexts, hall, Option.bind_eq_bind, Option.bind_some,
    Option.pure_def]

theorem length_bodyBytes (h : hello.Fits) : hello.bodyBytes.length =
    40 + hello.sessionId.length + hello.extensionsBytes.length := by
  have hversion := h.version
  have hrandom := h.random
  have hcipher := h.cipherSuite
  simp only [ServerHello.bodyBytes, ServerHello.afterRandom, List.length_append, length_block,
    List.length_cons]
  omega

theorem readServerHello_toBytes (h : hello.Fits) : readServerHello hello.toBytes = some hello := by
  have hsession := h.sessionId
  have hexts := h.extensions
  have hlen : hello.bodyBytes.length < 256 ^ 3 := by
    rw [length_bodyBytes h]
    norm_num at hexts ⊢
    omega
  simp only [readServerHello, ServerHello.toBytes, takeByte, takeBlock_all hlen,
    readHelloBody_bodyBytes h, Option.bind_eq_bind, Option.bind_some, ne_eq, not_true_eq_false,
    if_false]

end

section
variable {r : TlsResponse}

theorem record_fits (h : r.Fits) : ∀ rec ∈ r.records, rec.body.length ≤ 16640 := by
  intro rec hrec
  rcases List.mem_cons.mp hrec with rfl | hrec
  · exact h.message
  rcases List.mem_cons.mp hrec with rfl | hrec
  · decide
  · obtain ⟨body, hbody, rfl⟩ := List.mem_map.mp hrec
    exact h.appData body hbody

/-- The records of a response, with every length exact and nothing left over. -/
theorem readAll_records (h : r.Fits) : readAll takeRecord r.toBytes = some r.records := by
  refine readAll_flatMap (fun rec hrec => takeRecord_toBytes ?_) (fun rec _ => List.cons_ne_nil _ _)
  have hlen := record_fits h rec hrec
  omega

theorem readResponse_toBytes (h : r.Fits) : readResponse r.toBytes = some r := by
  have htypes : (r.appData.map (TlsRecord.mk 0x17)).all (·.type == 0x17) = true := by
    rw [List.all_map]
    exact List.all_eq_true.mpr fun _ _ => rfl
  have hbodies : (r.appData.map (TlsRecord.mk 0x17)).map TlsRecord.body = r.appData := by
    rw [List.map_map]
    exact List.map_id r.appData
  simp only [readResponse, readAll_records h, TlsResponse.records, Option.bind_eq_bind,
    Option.bind_some, htypes, and_self, if_true, readServerHello_toBytes h.hello, hbodies,
    Option.pure_def]

/-! ### The random -/

/-- What stands in front of the random, whatever the random is. -/
def TlsResponse.beforeRandom (r : TlsResponse) : List UInt8 :=
  0x16 :: ([0x03, 0x03] ++ beBytes 2 r.hello.toBytes.length) ++
    0x02 :: beBytes 3 r.hello.bodyBytes.length ++ r.hello.version

/-- What stands behind the random. -/
def TlsResponse.afterRandom (r : TlsResponse) : List UInt8 :=
  r.hello.afterRandom ++ (r.records.drop 1).flatMap TlsRecord.toBytes

theorem toBytes_eq (r : TlsResponse) :
    r.toBytes = r.beforeRandom ++ (r.hello.random ++ r.afterRandom) := by
  simp only [TlsResponse.toBytes, TlsResponse.records, List.flatMap_cons, TlsRecord.toBytes,
    TlsResponse.beforeRandom, TlsResponse.afterRandom, ServerHello.toBytes, ServerHello.bodyBytes,
    block, List.drop_succ_cons, List.drop_zero, List.append_assoc, List.cons_append]

theorem length_beforeRandom (h : r.hello.Fits) : r.beforeRandom.length = tlsDigestPos := by
  simp [TlsResponse.beforeRandom, h.version, tlsDigestPos]

/-- Writing into the bytes of a response at 11 is replacing its random. -/
theorem copyInto_toBytes (h : r.hello.Fits) {random : List UInt8} (hrandom : random.length = 32) :
    copyInto r.toBytes tlsDigestPos random = (r.withRandom random).toBytes := by
  have hbefore := length_beforeRandom h
  have hlen : (r.withRandom random).hello.bodyBytes.length = r.hello.bodyBytes.length := by
    simp [TlsResponse.withRandom, ServerHello.bodyBytes, ServerHello.afterRandom,
      ServerHello.extensionsBytes, hrandom, h.random]
  have hmessage : (r.withRandom random).hello.toBytes.length = r.hello.toBytes.length := by
    rw [ServerHello.toBytes, ServerHello.toBytes, List.length_cons, List.length_cons, length_block,
      length_block, hlen]
  have hfront : (r.withRandom random).beforeRandom = r.beforeRandom := by
    rw [TlsResponse.beforeRandom, TlsResponse.beforeRandom, hlen, hmessage]
    rfl
  have hback : (r.withRandom random).afterRandom = r.afterRandom := rfl
  rw [toBytes_eq r, toBytes_eq, hfront, hback, copyInto, List.take_left' hbefore, hrandom,
    ← List.drop_drop, List.drop_left' hbefore, List.drop_left' h.random]
  rfl

end

end MtProxy.Protocol
