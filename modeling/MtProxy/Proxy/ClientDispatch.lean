import MtProxy.Proxy.ClientHandshake
import MtProxy.Proxy.Masking

/-! `do_handshake`: what is read of a new connection, and where it goes from there.

        PROXY header ──▶ 5 bytes ─┬─ TLS, a length below 512 ──────────────▶ mask host
          (if enabled)            ├─ TLS ──▶ ClientHello ─┬─ not valid ────▶ mask host
                                  │                       └─ valid ──▶ 64 bytes inside ──▶ relay or nothing
                                  └─ other ──▶ 64 bytes ──▶ a user's ──────▶ relay
                                         │              └─▶ nobody's ──────▶ mask host
                                         └─ not in these modes ────────────▶ mask host

    A client that goes to the mask host is handed on with all the bytes that were read of it, and with
    nothing written to it. Together with the relay to the mask host: the two are connected as if the proxy
    was not there. One that fails inside TLS has been answered already, and is dropped. -/

namespace MtProxy.Proxy
open Schemes MiddleProxy Network Transport Crypto Stats Masking
open MtProxy.Stream (FakeTlsReader FakeTlsWriter CryptoReader CryptoWriter)

def normalizeIp (addr : SocketAddr) : SocketAddr :=
  match addr.ip with
  | .v6 octets =>
    match toIpv4Mapped octets with
    | some v4 => ⟨.v4 v4, addr.port⟩
    | none => addr
  | .v4 _ => addr

/-- Where a connection goes. Only `badClient` is handed to `handle_bad_client`. -/
inductive Dispatch (R W : Type) where
  | shortRead
  | invalidProxyProtocol
  | failed (e : ProxyError)
  | badClient (initialData : List UInt8) (reader : R) (writer : W)
  | badClientInTls
  | relay (reader : CryptoReader R) (writer : CryptoWriter W) (success : HandshakeSuccess)
  | relayTls (reader : CryptoReader (FakeTlsReader R)) (writer : CryptoWriter (FakeTlsWriter W))
    (success : HandshakeSuccess)

/-- What is counted as bad. -/
def Dispatch.isBad {R W : Type} : Dispatch R W → Bool
  | .invalidProxyProtocol | .badClient .. | .badClientInTls => true
  | _ => false

/-- What is counted of a connection. -/
structure ConnectStats where
  connectsAll : ℕ
  connectsBad : ℕ

def ConnectStats.bad (stats : ConnectStats) : ConnectStats :=
  { stats with connectsBad := stats.connectsBad + 1 }

def tlsRecordHandshake : UInt8 := 0x16

def isTlsHandshake (firstBytes : List UInt8) : Bool :=
  firstBytes.take 3 == [tlsRecordHandshake, 0x03, 0x01]

/-- The shortest ClientHello that is looked at. -/
def minTlsLen : ℕ := 512

section
variable {R W : Type} (env : Environment W) (config : ProxyConfig) (read : R → Option (UInt8 × R))
variable (readTls : FakeTlsReader R → Option (List UInt8 × FakeTlsReader R))
variable (writer : W) (checker : ReplayChecker) (now later : Instant)

/-- The environment of the handshake inside TLS, which writes nothing. -/
def Environment.insideTls : Environment (FakeTlsWriter W) where
  hash := env.hash
  sha256 := env.sha256
  sha256Hmac := env.sha256Hmac
  aes := env.aes
  buildServerHello := env.buildServerHello
  writeAll := fun w _ => .ok w
  flush := .ok
  wall := env.wall

/-- `handle_tls_client` behind a valid ClientHello. `readTls` is what `read_exact(HANDSHAKE_LEN)` of the
    records comes to, in whatever pieces they arrive. -/
def handleInsideTls (tlsReader : FakeTlsReader R) (tlsWriter : FakeTlsWriter W) (peer : SocketAddr)
    (stats : ConnectStats) : Dispatch R W × ReplayChecker × ConnectStats :=
  match readTls tlsReader with
  | none => (.shortRead, checker, stats)
  | some (mtprotoData, tlsReader) =>
    match asBlock handshakeLen mtprotoData with
    | none => (.failed (.invalidHandshake "Short MTProto handshake"), checker, stats)
    | some mtprotoHandshake =>
      match handleMtprotoHandshake env.insideTls config mtprotoHandshake tlsReader tlsWriter peer checker
        true later with
      | (.success (r, w, success), checker) => (.relayTls r w success, checker, stats)
      | (.badClient _ _, checker) => (.badClientInTls, checker, stats.bad)
      | (.error e, checker) => (.failed e, checker, stats)

def handleTlsClient (firstBytes : List UInt8) (r : R) (peer : SocketAddr) (stats : ConnectStats) :
    Dispatch R W × ReplayChecker × ConnectStats :=
  let tlsLen := beVal (slice firstBytes 3 2)
  if tlsLen < minTlsLen then (.badClient firstBytes r writer, checker, stats.bad)
  else match readExact read tlsLen r with
    | none => (.shortRead, checker, stats)
    | some (rest, r) =>
      match handleTlsHandshake env config (firstBytes ++ rest) r writer peer checker now with
      | (.success (r, w, _tlsUser), checker) =>
        handleInsideTls env config readTls checker later r w peer stats
      | (.badClient r w, checker) => (.badClient (firstBytes ++ rest) r w, checker, stats.bad)
      | (.error e, checker) => (.failed e, checker, stats)

def handleDirectClient (firstBytes : List UInt8) (r : R) (peer : SocketAddr) (stats : ConnectStats) :
    Dispatch R W × ReplayChecker × ConnectStats :=
  if !config.classic && !config.secure then (.badClient firstBytes r writer, checker, stats.bad)
  else match readExact read (handshakeLen - 5) r with
    | none => (.shortRead, checker, stats)
    | some (rest, r) =>
      match asBlock handshakeLen (firstBytes ++ rest) with
      | none => (.shortRead, checker, stats)
      | some handshake =>
        match handleMtprotoHandshake env config handshake r writer peer checker false now with
        | (.success (r, w, success), checker) => (.relay r w success, checker, stats)
        | (.badClient r w, checker) => (.badClient handshake.toList r w, checker, stats.bad)
        | (.error e, checker) => (.failed e, checker, stats)

/-- Behind the PROXY header. -/
def dispatch (r : R) (peer : SocketAddr) (stats : ConnectStats) :
    Dispatch R W × ReplayChecker × ConnectStats :=
  match readExact read 5 r with
  | none => (.shortRead, checker, stats)
  | some (firstBytes, r) =>
    if isTlsHandshake firstBytes then
      handleTlsClient env config read readTls writer checker now later firstBytes r peer stats
    else handleDirectClient env config read writer checker now firstBytes r peer stats

/-- The peer and the local address are those of the PROXY header, where it has them. The outer `none` is
    an access out of range. -/
def doHandshake (text : IpText) (proxyProtocolEnabled : Bool) (r : R) (peer localAddr : SocketAddr)
    (stats : ConnectStats) :
    Option (Dispatch R W × SocketAddr × SocketAddr × ReplayChecker × ConnectStats) :=
  let stats := { stats with connectsAll := stats.connectsAll + 1 }
  let peer := normalizeIp peer
  if proxyProtocolEnabled then
    match parseProxyProtocol text read peer r with
    | none => none
    | some none => some (.invalidProxyProtocol, peer, localAddr, checker, stats.bad)
    | some (some (info, r)) =>
      let peer := normalizeIp info.srcAddr
      some ((dispatch env config read readTls writer checker now later r peer stats).map id fun p =>
        (peer, info.dstAddr.getD localAddr, p))
  else
    some ((dispatch env config read readTls writer checker now later r peer stats).map id fun p =>
      (peer, localAddr, p))

end

/-! ### A rejected client -/

section
variable {R W : Type} {env : Environment W} {config : ProxyConfig} {writer w : W}
variable {checker checker' : ReplayChecker} {now later : Instant} {stats stats' : ConnectStats}
variable {readTls : FakeTlsReader (List UInt8) → Option (List UInt8 × FakeTlsReader (List UInt8))}
variable {peer : SocketAddr} {client initial rest : List UInt8}

theorem readExact_takeByte {n : ℕ} {bs as rest : List UInt8}
    (h : readExact takeByte n bs = some (as, rest)) : as ++ rest = bs := by
  induction n generalizing bs as with
  | zero =>
    obtain ⟨rfl, rfl⟩ := Prod.mk.inj (Option.some.inj h)
    rfl
  | succ n ih =>
    obtain ⟨⟨b, r⟩, hb, h⟩ := Option.bind_eq_some_iff.mp h
    obtain ⟨⟨as', r'⟩, has, heq⟩ := Option.map_eq_some_iff.mp h
    obtain ⟨rfl, rfl⟩ := Prod.mk.inj heq
    cases bs with
    | nil => cases hb
    | cons b' bs =>
      obtain ⟨rfl, rfl⟩ := Prod.mk.inj (Option.some.inj hb)
      rw [List.cons_append, ih has]

/-- A rejected ClientHello leaves the streams as they were. -/
theorem handleTlsHandshake_badClient {handshake : List UInt8} {reader r : R}
    (h : handleTlsHandshake env config handshake reader writer peer checker now =
      (.badClient r w, checker')) : r = reader ∧ w = writer := by
  have haccept : ∀ {r w}, acceptTls env config handshake reader writer peer now = .badClient r w →
      r = reader ∧ w = writer := by
    intro r w h
    unfold acceptTls at h
    split at h
    · cases h
      exact ⟨rfl, rfl⟩
    split at h
    · cases h
      exact ⟨rfl, rfl⟩
    split at h
    · cases h
    split at h <;> cases h
  unfold handleTlsHandshake at h
  split at h
  · cases h
    exact ⟨rfl, rfl⟩
  dsimp only at h
  split at h
  · cases h
    exact ⟨rfl, rfl⟩
  · exact haccept (Prod.mk.inj h).1

theorem acceptMtproto_badClient {handshake : Block UInt8 handshakeLen} {reader r : R} {isTls : Bool}
    (users : List (String × List Char))
    (h : acceptMtproto env config handshake reader writer peer isTls users = .badClient r w) :
    r = reader ∧ w = writer := by
  induction users with
  | nil =>
    cases h
    exact ⟨rfl, rfl⟩
  | cons user users ih =>
    unfold acceptMtproto at h
    split at h
    · exact ih h
    dsimp only at h
    split at h
    · exact ih h
    split at h
    · cases h
    · exact ih h

theorem handleMtprotoHandshake_badClient {handshake : Block UInt8 handshakeLen} {reader r : R}
    {isTls : Bool} (h : handleMtprotoHandshake env config handshake reader writer peer checker isTls now =
      (.badClient r w, checker')) : r = reader ∧ w = writer := by
  unfold handleMtprotoHandshake at h
  dsimp only at h
  split at h
  · cases h
    exact ⟨rfl, rfl⟩
  · exact acceptMtproto_badClient _ (Prod.mk.inj h).1

/-- Behind a valid ClientHello nobody goes to the mask host, and a client that fails is counted. -/
theorem handleInsideTls_spec {r : FakeTlsReader (List UInt8)} {tlsWriter : FakeTlsWriter W}
    {out : Dispatch (List UInt8) W}
    (h : handleInsideTls env config readTls checker later r tlsWriter peer stats =
      (out, checker', stats')) :
    (∀ initial rest w, out ≠ .badClient initial rest w) ∧
      stats'.connectsBad = stats.connectsBad + out.isBad.toNat := by
  unfold handleInsideTls at h
  split at h
  · cases h
    exact ⟨fun _ _ _ hout => (by cases hout), rfl⟩
  split at h
  · cases h
    exact ⟨fun _ _ _ hout => (by cases hout), rfl⟩
  split at h <;> cases h <;> exact ⟨fun _ _ _ hout => (by cases hout), rfl⟩

/-- What a client is rejected with is all that it has sent: what was read of it, and what is still to be
    read. -/
def Dispatch.KeepsAll (client : List UInt8) (writer : W) (out : Dispatch (List UInt8) W) : Prop :=
  ∀ initial rest w, out = .badClient initial rest w → initial ++ rest = client ∧ w = writer

theorem Dispatch.keepsAll_badClient (h : initial ++ rest = client) :
    (Dispatch.badClient initial rest writer).KeepsAll client writer := by
  intro initial' rest' w hout
  cases hout
  exact ⟨h, rfl⟩

theorem handleTlsClient_spec {firstBytes r : List UInt8} {out : Dispatch (List UInt8) W}
    (h : handleTlsClient env config takeByte readTls writer checker now later firstBytes r peer stats =
      (out, checker', stats')) :
    out.KeepsAll (firstBytes ++ r) writer ∧
      stats'.connectsBad = stats.connectsBad + out.isBad.toNat := by
  unfold handleTlsClient at h
  dsimp only at h
  split at h
  · cases h
    exact ⟨Dispatch.keepsAll_badClient rfl, rfl⟩
  split at h
  · cases h
    exact ⟨fun _ _ _ hout => (by cases hout), rfl⟩
  rename_i more r' hmore
  have hmore := readExact_takeByte hmore
  split at h
  · obtain ⟨hne, hbad⟩ := handleInsideTls_spec h
    exact ⟨fun _ _ _ hout => absurd hout (hne _ _ _), hbad⟩
  · rename_i hbad
    obtain ⟨rfl, rfl⟩ := handleTlsHandshake_badClient hbad
    cases h
    exact ⟨Dispatch.keepsAll_badClient (by rw [List.append_assoc, hmore]), rfl⟩
  · cases h
    exact ⟨fun _ _ _ hout => (by cases hout), rfl⟩

theorem handleDirectClient_spec {firstBytes r : List UInt8} {out : Dispatch (List UInt8) W}
    (h : handleDirectClient env config takeByte writer checker now firstBytes r peer stats =
      (out, checker', stats')) :
    out.KeepsAll (firstBytes ++ r) writer ∧
      stats'.connectsBad = stats.connectsBad + out.isBad.toNat := by
  unfold handleDirectClient at h
  split at h
  · cases h
    exact ⟨Dispatch.keepsAll_badClient rfl, rfl⟩
  split at h
  · cases h
    exact ⟨fun _ _ _ hout => (by cases hout), rfl⟩
  rename_i more r' hmore
  have hmore := readExact_takeByte hmore
  split at h
  · cases h
    exact ⟨fun _ _ _ hout => (by cases hout), rfl⟩
  rename_i handshake hblock
  split at h
  · cases h
    exact ⟨fun _ _ _ hout => (by cases hout), rfl⟩
  · rename_i hbad
    obtain ⟨rfl, rfl⟩ := handleMtprotoHandshake_badClient hbad
    cases h
    rw [asBlock] at hblock
    split at hblock
    · obtain rfl := Option.some.inj hblock
      exact ⟨Dispatch.keepsAll_badClient (by rw [List.append_assoc, hmore]), rfl⟩
    · cases hblock
  · cases h
    exact ⟨fun _ _ _ hout => (by cases hout), rfl⟩

/-- Whatever comes of a client, it keeps all it has sent if it is rejected, and is counted as bad or not. -/
theorem dispatch_spec {out : Dispatch (List UInt8) W}
    (h : dispatch env config takeByte readTls writer checker now later client peer stats =
      (out, checker', stats')) :
    out.KeepsAll client writer ∧ stats'.connectsBad = stats.connectsBad + out.isBad.toNat := by
  unfold dispatch at h
  split at h
  · cases h
    exact ⟨fun _ _ _ hout => (by cases hout), rfl⟩
  rename_i firstBytes r hfirst
  rw [← readExact_takeByte hfirst]
  split at h
  · exact handleTlsClient_spec h
  · exact handleDirectClient_spec h

/-- What the client has sent behind the PROXY header in front of its stream, if there is to be one. -/
def BehindProxyHeader (text : IpText) (enabled : Bool) (peer : SocketAddr) (client behind : List UInt8) :
    Prop :=
  if enabled then ∃ info, parseProxyProtocol text takeByte peer client = some (some (info, behind))
  else behind = client

/-- The PROXY header is invalid, or the client is dispatched with what is behind it. -/
theorem doHandshake_cases {text : IpText} {enabled : Bool} {peer' localAddr localAddr' : SocketAddr}
    {out : Dispatch (List UInt8) W}
    (h : doHandshake env config takeByte readTls writer checker now later text enabled client peer localAddr
      stats = some (out, peer', localAddr', checker', stats')) :
    (out = .invalidProxyProtocol ∧ stats'.connectsBad = stats.connectsBad + 1) ∨
    ∃ behind counted, BehindProxyHeader text enabled (normalizeIp peer) client behind ∧
      counted.connectsBad = stats.connectsBad ∧
      dispatch env config takeByte readTls writer checker now later behind peer' counted =
        (out, checker', stats') := by
  unfold doHandshake at h
  dsimp only at h
  cases enabled with
  | false =>
    obtain ⟨hout, hrest⟩ := Prod.mk.inj (Option.some.inj h)
    obtain ⟨rfl, -, hrest⟩ := Prod.mk.inj hrest |>.imp id Prod.mk.inj
    exact .inr ⟨client, { stats with connectsAll := stats.connectsAll + 1 }, rfl, rfl,
      Prod.ext hout hrest⟩
  | true =>
    rw [if_pos rfl] at h
    split at h
    · cases h
    · cases h
      exact .inl ⟨rfl, rfl⟩
    · rename_i info behind hparse
      obtain ⟨hout, hrest⟩ := Prod.mk.inj (Option.some.inj h)
      obtain ⟨rfl, -, hrest⟩ := Prod.mk.inj hrest |>.imp id Prod.mk.inj
      exact .inr ⟨behind, { stats with connectsAll := stats.connectsAll + 1 }, ⟨info, hparse⟩, rfl,
        Prod.ext hout hrest⟩

end

end MtProxy.Proxy
