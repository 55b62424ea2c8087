import MtProxy.Error
import MtProxy.Protocol.Tls
import MtProxy.Proxy.TgNonce
import MtProxy.Stats.Replay
import MtProxy.Stream.TlsReader
import MtProxy.Stream.TlsWriter
import MtProxy.Stream.CryptoReader
import MtProxy.Stream.CryptoWriter
import MtProxy.MiddleProxy.Wire

/-! `handle_tls_handshake` and `handle_mtproto_handshake`, with the replay checker they share.

        too short ──▶ bad client
        checker.check_and_add(key) = true ──▶ bad client
        no user's secret fits ──▶ bad client
        else ──▶ success

    The key is half of the digest of a ClientHello, and the 48 bytes of key and IV of an MTProto
    handshake. It goes into the checker before anything is known about the client. After that the
    checker has no part in what becomes of the handshake: `handle_reply` and `handle_checker`. -/

namespace MtProxy.Proxy
open Schemes Crypto Protocol Stats Stats.ReplayChecker MtProxy.Stream
open MiddleProxy (SocketAddr)

/-! ### Configuration -/

def hexVal (c : Char) : Option ℕ :=
  if '0' ≤ c ∧ c ≤ '9' then some (c.toNat - '0'.toNat)
  else if 'a' ≤ c ∧ c ≤ 'f' then some (c.toNat - 'a'.toNat + 10)
  else if 'A' ≤ c ∧ c ≤ 'F' then some (c.toNat - 'A'.toNat + 10)
  else none

/-- `hex::decode`. -/
def hexDecode : List Char → Option (List UInt8)
  | [] => some []
  | [_] => none
  | high :: low :: rest => do
    let high ← hexVal high
    let low ← hexVal low
    let bytes ← hexDecode rest
    return UInt8.ofNat (16 * high + low) :: bytes

/-- What the handshakes read of `ProxyConfig`. The users, with the characters of their secrets in
    hex, are in the order in which the map gives them. -/
structure ProxyConfig where
  users : List (String × List Char)
  ignoreTimeSkew : Bool
  classic : Bool
  secure : Bool
  tls : Bool
  cryptoPendingBuffer : ℕ

/-- The users with a secret that can be decoded. -/
def ProxyConfig.secrets (config : ProxyConfig) : List (String × List UInt8) :=
  config.users.filterMap fun user => (hexDecode user.2).map fun bytes => (user.1, bytes)

/-- What the handshakes need from elsewhere: the hash that selects a shard, the cryptographic
    primitives, the builder of the ServerHello, a client's stream, and the wall clock in nanoseconds
    at an instant. The builder has the peer and the time: its random bytes and what it finds in the
    certificate cache, which only a validated handshake gets to, are those of that time. -/
structure Environment (W : Type) where
  hash : Key → UInt64
  sha256 : List UInt8 → Block UInt8 keyLen
  sha256Hmac : List UInt8 → List UInt8 → Block UInt8 tlsDigestLen
  aes : Keystream
  buildServerHello : List UInt8 → TlsValidation → List UInt8 → SocketAddr → Instant → List UInt8
  writeAll : W → List UInt8 → Except IoError W
  flush : W → Except IoError W
  wall : Instant → ℕ

def nanosPerSec : ℕ := 10 ^ 9

/-- `SystemTime::now` in whole seconds. -/
def Environment.unixTime {W : Type} (env : Environment W) (now : Instant) : ℤ :=
  (env.wall now / nanosPerSec : ℕ)

/-! ### ClientHello -/

/-- The part of the digest that is remembered. -/
def digestHalf (handshake : List UInt8) : Key := (digestOf handshake).take tlsDigestHalfLen

section
variable {R W : Type} (env : Environment W) (config : ProxyConfig)

abbrev TlsResult (R W : Type) := HandshakeResult (FakeTlsReader R × FakeTlsWriter W × String) R W

/-- The part of `handle_tls_handshake` behind the replay check. -/
def acceptTls (handshake : List UInt8) (reader : R) (writer : W) (peer : SocketAddr) (now : Instant) :
    TlsResult R W :=
  match validateTlsHandshake env.sha256Hmac handshake config.secrets config.ignoreTimeSkew
      (env.unixTime now) with
  | none => .badClient reader writer
  | some validation =>
    match config.secrets.find? (fun secret => secret.1 == validation.user) with
    | none => .badClient reader writer
    | some (_, secret) =>
      match env.writeAll writer (env.buildServerHello secret validation handshake peer now) with
      | .error e => .error (.io e)
      | .ok writer =>
        match env.flush writer with
        | .error e => .error (.io e)
        | .ok writer =>
          .success (FakeTlsReader.new reader, FakeTlsWriter.new writer, validation.user)

def handleTlsHandshake (handshake : List UInt8) (reader : R) (writer : W) (peer : SocketAddr)
    (checker : ReplayChecker) (now : Instant) : TlsResult R W × ReplayChecker :=
  if handshake.length < tlsDigestPos + tlsDigestLen + 1 then (.badClient reader writer, checker)
  else
    let (replayed, checker) := checker.checkAndAdd env.hash (digestHalf handshake) now
    if replayed then (.badClient reader writer, checker)
    else (acceptTls env config handshake reader writer peer now, checker)

/-! ### MTProto -/

structure HandshakeSuccess where
  user : String
  dcIdx : Int16
  protoTag : ProtoTag
  decKey : List UInt8
  decIv : BitVec 128
  encKey : List UInt8
  encIv : BitVec 128
  peer : SocketAddr
  isTls : Bool

/-- Key and IV as the client sent them. -/
def decPrekeyIv (handshake : Block UInt8 handshakeLen) : Key :=
  slice handshake.toList skipLen (prekeyLen + ivLen)

def modeOk (config : ProxyConfig) (isTls : Bool) : ProtoTag → Bool
  | .secure => if isTls then config.tls || config.secure else config.secure || config.tls
  | .intermediate => config.classic
  | .abridged => config.classic

/-- The cipher of one direction: the key is the hash of the prekey and the secret. -/
def deriveKey (prekeyIv secret : List UInt8) : List UInt8 × BitVec 128 :=
  ((env.sha256 (prekeyIv.take prekeyLen ++ secret)).toList,
    u128FromBeBytes (prekeyIv.drop prekeyLen))

abbrev MtprotoResult (R W : Type) :=
  HandshakeResult (CryptoReader R × CryptoWriter W × HandshakeSuccess) R W

/-- The loop over the users: the first one whose secret gives a known tag in an enabled mode. -/
def acceptMtproto (handshake : Block UInt8 handshakeLen) (reader : R) (writer : W)
    (peer : SocketAddr) (isTls : Bool) : List (String × List Char) → MtprotoResult R W
  | [] => .badClient reader writer
  | (user, secretHex) :: users =>
    match hexDecode secretHex with
    | none => acceptMtproto handshake reader writer peer isTls users
    | some secret =>
      let (decKey, decIv) := deriveKey env (decPrekeyIv handshake) secret
      let (decrypted, decryptor) := (AesCtr.new env.aes decKey decIv).apply handshake.toList
      match ProtoTag.fromBytes (slice decrypted protoTagPos 4) with
      | none => acceptMtproto handshake reader writer peer isTls users
      | some protoTag =>
        if modeOk config isTls protoTag then
          let dcIdx := i16FromLeBytes (slice decrypted dcIdxPos 2)
          let (encKey, encIv) := deriveKey env (decPrekeyIv handshake).reverse secret
          .success (CryptoReader.new reader decryptor,
            CryptoWriter.new writer (AesCtr.new env.aes encKey encIv) config.cryptoPendingBuffer,
            { user, dcIdx, protoTag, decKey, decIv, encKey, encIv, peer, isTls })
        else acceptMtproto handshake reader writer peer isTls users

def handleMtprotoHandshake (handshake : Block UInt8 handshakeLen) (reader : R) (writer : W)
    (peer : SocketAddr) (checker : ReplayChecker) (isTls : Bool) (now : Instant) :
    MtprotoResult R W × ReplayChecker :=
  let (replayed, checker) := checker.checkAndAdd env.hash (decPrekeyIv handshake) now
  if replayed then (.badClient reader writer, checker)
  else (acceptMtproto env config handshake reader writer peer isTls config.users, checker)

end

/-! ### Handshakes over one checker -/

/-- What happens to the checker: a handshake of either kind at some time, or the turn of a shard in
    the periodic cleanup. -/
inductive Event (R W : Type) where
  | tls (handshake : List UInt8) (reader : R) (writer : W) (peer : SocketAddr) (now : Instant)
  | mtproto (handshake : Block UInt8 handshakeLen) (reader : R) (writer : W) (peer : SocketAddr)
    (isTls : Bool) (now : Instant)
  | cleanup (idx : Fin numShards) (now : Instant)

inductive Reply (R W : Type) where
  | tls (result : TlsResult R W)
  | mtproto (result : MtprotoResult R W)
  | cleaned

section
variable {R W : Type} (env : Environment W) (config : ProxyConfig)

def handle (checker : ReplayChecker) : Event R W → Reply R W × ReplayChecker
  | .tls handshake reader writer peer now =>
    ((handleTlsHandshake env config handshake reader writer peer checker now).map .tls id)
  | .mtproto handshake reader writer peer isTls now =>
    ((handleMtprotoHandshake env config handshake reader writer peer checker isTls now).map
      .mtproto id)
  | .cleanup idx now => (.cleaned, checker.cleanupShard idx now)

/-- The operation on the checker. Only a ClientHello that is too short does not get there. -/
def Event.op : Event R W → Option Op
  | .tls handshake _ _ _ now =>
    if handshake.length < tlsDigestPos + tlsDigestLen + 1 then none
    else some (.checkAndAdd (digestHalf handshake) now)
  | .mtproto handshake _ _ _ _ now => some (.checkAndAdd (decPrekeyIv handshake) now)
  | .cleanup idx now => some (.cleanup idx now)

def opsOf (events : List (Event R W)) : List Op := events.filterMap Event.op

/-- What the checker says to a handshake: whether it is a replay. -/
def verdict (checker : ReplayChecker) (e : Event R W) : Option Bool :=
  e.op.bind fun op => (call env.hash checker op).1

variable {env config} {checker : ReplayChecker}

theorem handle_checker (e : Event R W) : (handle env config checker e).2 =
    match e.op with
    | none => checker
    | some op => (call env.hash checker op).2 := by
  cases e with
  | tls handshake reader writer peer now =>
    rw [handle, handleTlsHandshake, Event.op]
    by_cases hshort : handshake.length < tlsDigestPos + tlsDigestLen + 1
    · rw [if_pos hshort, if_pos hshort]
      rfl
    · rw [if_neg hshort, if_neg hshort]
      simp only [call]
      split_ifs <;> rfl
  | mtproto handshake reader writer peer isTls now =>
    simp only [handle, handleMtprotoHandshake, Event.op, call]
    split_ifs <;> rfl
  | cleanup idx now => rfl

/-- The verdict is all that a reply takes from the checker. -/
theorem handle_reply {checker' : ReplayChecker} {e : Event R W}
    (h : verdict env checker e = verdict env checker' e) :
    (handle env config checker e).1 = (handle env config checker' e).1 := by
  cases e with
  | tls handshake reader writer peer now =>
    rw [handle, handle, handleTlsHandshake, handleTlsHandshake]
    rw [verdict, verdict, Event.op] at h
    by_cases hshort : handshake.length < tlsDigestPos + tlsDigestLen + 1
    · rw [if_pos hshort, if_pos hshort]
      rfl
    · rw [if_neg hshort] at h
      rw [if_neg hshort, if_neg hshort]
      simp only [call, Option.bind_some, Option.some.injEq] at h ⊢
      rw [h]
      split_ifs <;> rfl
  | mtproto handshake reader writer peer isTls now =>
    simp only [handle, handleMtprotoHandshake]
    simp only [verdict, Event.op, call, Option.bind_some, Option.some.injEq] at h
    rw [h]
    split_ifs <;> rfl
  | cleanup idx now => rfl

theorem after_handle (checker : ReplayChecker) (events : List (Event R W)) :
    after (handle env config) checker events = after (call env.hash) checker (opsOf events) := by
  induction events generalizing checker with
  | nil => rfl
  | cons e events ih =>
    rw [after, handle_checker, ih, opsOf, opsOf, List.filterMap_cons]
    cases e.op <;> rfl

end

theorem length_loopback : ([127, 0, 0, 1] : List UInt8).length = 4 := rfl

/-- A client on the same host. -/
def samplePeer : SocketAddr := ⟨.v4 ⟨[127, 0, 0, 1], length_loopback⟩, 50000⟩

end MtProxy.Proxy
