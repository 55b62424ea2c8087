import MtProxy.Proxy.ClientHandshake
import MtProxy.Stream.Transfer

/-! `handle_via_direct`: the handshake with Telegram on behalf of a client that has been accepted, and the
    two streams of the relay from then on.

        client ──▶ CryptoReader ──▶ up   ──▶ CryptoWriter ──▶ Telegram
        client ◀── CryptoWriter ◀── down ◀── CryptoReader ◀── Telegram

    The client's two ciphers are those of its handshake, Telegram takes its own out of the 64 bytes it is
    sent. What the one encrypts the other decrypts, whatever happens in between. -/

namespace MtProxy.Proxy.DirectSession
open Schemes Crypto Stats MtProxy.Stream
open MiddleProxy (SocketAddr)

/-! ### The handshake with Telegram -/

section
variable {R' W' : Type} (aes : Keystream) (fastMode : Bool) (cryptoPendingBuffer : ℕ)
  (send : List UInt8 → Except IoError (R' × W'))

/-- `do_tg_handshake_static` over the draws of the nonce. `send` writes the message to the connection,
    flushes it and splits it. -/
def doTgHandshakeStatic (success : HandshakeSuccess) (draws : List (Block UInt8 handshakeLen)) :
    Option (Except IoError (CryptoReader R' × CryptoWriter W')) :=
  (asBlock keyLen success.encKey).bind fun encKey =>
    (generateTgNonce success.protoTag success.dcIdx encKey success.encIv fastMode draws).map fun nonce =>
      let (encryptedNonce, tgEncryptor, tgDecryptor) := encryptTgNonceWithCiphers aes nonce.nonce
      (send encryptedNonce).map fun halves =>
        (CryptoReader.new halves.1 tgDecryptor, CryptoWriter.new halves.2 tgEncryptor cryptoPendingBuffer)

/-- The keystreams of the one who is sent a message: of what it receives and of what it sends. -/
def tgReceives (message : List UInt8) : ℕ → UInt8 :=
  aes (slice message 8 32) (u128FromBeBytes (slice message 40 16))

def tgSends (message : List UInt8) : ℕ → UInt8 :=
  aes ((slice message 8 48).reverse.take 32) (u128FromBeBytes ((slice message 8 48).reverse.drop 32))

/-- Tag and data center as Telegram finds them in the message. -/
structure Understood (success : HandshakeSuccess) (message : List UInt8) : Prop where
  length : message.length = handshakeLen
  tag : slice (xorStream (tgReceives aes message) 0 message) protoTagPos 4 = success.protoTag.toBytes
  dc : i16FromLeBytes (slice (xorStream (tgReceives aes message) 0 message) dcIdxPos 2) = success.dcIdx

end

/-! ### The relay -/

structure Relay (R W R' W' : Type) where
  up : Transfer R W'
  down : Transfer R' W

inductive Event where
  | up (m : TransferMove)
  | down (m : TransferMove)

namespace Relay
variable {R W R' W' : Type}

/-- `relay_bidirectional` begins. -/
def start (client : CryptoReader R × CryptoWriter W) (tg : CryptoReader R' × CryptoWriter W') :
    Relay R W R' W' :=
  ⟨.start client.1 tg.2, .start tg.1 client.2⟩

def step [AsyncRead R] [AsyncWrite W] [AsyncRead R'] [AsyncWrite W'] (s : Relay R W R' W') :
    Event → Option (Relay R W R' W')
  | .up m => (s.up.step m).map fun up => { s with up := up }
  | .down m => (s.down.step m).map fun down => { s with down := down }

end Relay

/-! ### The ciphers of both sides -/

section
variable {R W : Type} {env : Environment W} {config : ProxyConfig}
  {handshake : Block UInt8 handshakeLen} {reader : R} {writer : W} {peer : SocketAddr} {isTls : Bool}

/-- Whoever is accepted is accepted with the secret of a user, which opens its message. -/
theorem acceptMtproto_success {result : CryptoReader R × CryptoWriter W × HandshakeSuccess}
    {users : List (String × List Char)}
    (h : acceptMtproto env config handshake reader writer peer isTls users = .success result) :
    ∃ user secretHex secret tag, (user, secretHex) ∈ users ∧ hexDecode secretHex = some secret ∧
      ProtoTag.fromBytes (slice (xorStream (clientEncStream env (decPrekeyIv handshake) secret) 0
        handshake.toList) protoTagPos 4) = some tag ∧
      result = accepted env config handshake reader writer peer isTls user secret tag := by
  induction users with
  | nil => cases h
  | cons user users ih =>
    obtain ⟨user, secretHex⟩ := user
    by_cases hopens : ∃ tag, Opens env config isTls handshake secretHex tag
    · obtain ⟨tag, secret, hsecret, htag, hmode⟩ := hopens
      rw [acceptMtproto_of_opens hsecret htag hmode] at h
      exact ⟨user, secretHex, secret, tag, List.mem_cons_self, hsecret, htag,
        (HandshakeResult.success.inj h).symm⟩
    · rw [acceptMtproto_of_not_opens (not_exists.mp hopens)] at h
      obtain ⟨other, otherHex, secret, tag, hmem, hrest⟩ := ih h
      exact ⟨other, otherHex, secret, tag, List.mem_cons_of_mem _ hmem, hrest⟩

variable {R' W' : Type} {aes : Keystream} {fastMode : Bool} {cryptoPendingBuffer : ℕ}
  {send : List UInt8 → Except IoError (R' × W')}

/-- What Telegram takes from the message of a nonce that is filled in: tag, data center and the ciphers. -/
theorem understood_message {success : HandshakeSuccess} {encKey : Block UInt8 keyLen}
    {bytes nonce : List UInt8}
    (h : Filled success.protoTag success.dcIdx encKey success.encIv fastMode bytes nonce) :
    Understood aes success (encryptTgNonceWithCiphers aes nonce).1 ∧
      (encryptTgNonceWithCiphers aes nonce).2.1 =
        ⟨tgReceives aes (encryptTgNonceWithCiphers aes nonce).1, handshakeLen⟩ ∧
      (encryptTgNonceWithCiphers aes nonce).2.2 =
        ⟨tgSends aes (encryptTgNonceWithCiphers aes nonce).1, 0⟩ := by
  have hkey : slice (encryptTgNonceWithCiphers aes nonce).1 8 32 = _ := message_start h.length (by decide)
  have hiv : slice (encryptTgNonceWithCiphers aes nonce).1 40 16 = _ := message_start h.length (by decide)
  have hboth : slice (encryptTgNonceWithCiphers aes nonce).1 8 48 = _ := message_start h.length (by decide)
  have hreceives : tgReceives aes (encryptTgNonceWithCiphers aes nonce).1 =
      aes ((encKeyIv nonce).take keyLen) (u128FromBeBytes ((encKeyIv nonce).drop keyLen)) := by
    rw [tgReceives, hkey, hiv, take_encKeyIv, drop_encKeyIv]
  have hsends : tgSends aes (encryptTgNonceWithCiphers aes nonce).1 =
      aes ((decKeyIv nonce).take keyLen) (u128FromBeBytes ((decKeyIv nonce).drop keyLen)) := by
    rw [tgSends, hboth]
    rfl
  have hplain := message_decrypted aes h.length
  rw [← hreceives] at hplain
  refine ⟨⟨?_, ?_, ?_⟩, ?_, ?_⟩
  · simp only [encryptTgNonceWithCiphers, List.length_append, List.length_take, List.length_drop,
      AesCtr.apply, length_xorStream, h.length]
    rfl
  · rw [← h.tag]
    exact congrArg (List.take 4) hplain
  · have hdrop := congrArg (List.drop 4) hplain
    rw [List.drop_drop, List.drop_drop] at hdrop
    rw [← i16FromLeBytes_toLeBytes success.dcIdx, ← h.dc]
    exact congrArg (fun l => i16FromLeBytes (l.take 2)) hdrop
  · rw [hreceives]
    simp only [encryptTgNonceWithCiphers, AesCtr.apply, AesCtr.new, h.length, Nat.zero_add]
  · rw [hsends]
    rfl

/-- Telegram understands what it is sent, and its ciphers are in step with those of the relay. -/
theorem doTgHandshakeStatic_ok {success : HandshakeSuccess}
    {draws : List (Block UInt8 handshakeLen)} {tg : CryptoReader R' × CryptoWriter W'}
    (h : doTgHandshakeStatic aes fastMode cryptoPendingBuffer send success draws = some (.ok tg)) :
    ∃ message halves, send message = .ok halves ∧ Understood aes success message ∧
      tg = (CryptoReader.new halves.1 ⟨tgSends aes message, 0⟩,
        CryptoWriter.new halves.2 ⟨tgReceives aes message, handshakeLen⟩ cryptoPendingBuffer) := by
  obtain ⟨encKey, -, hnonce⟩ := Option.bind_eq_some_iff.mp h
  obtain ⟨nonce, hgenerated, hsent⟩ := Option.map_eq_some_iff.mp hnonce
  obtain ⟨d, -, -, hfilled, -⟩ := generateTgNonce_some draws hgenerated
  have hmessage : Understood aes success (encryptTgNonceWithCiphers aes nonce.nonce).1 ∧ _ :=
    understood_message hfilled
  obtain ⟨hunderstood, hencryptor, hdecryptor⟩ := hmessage
  refine ⟨(encryptTgNonceWithCiphers aes nonce.nonce).1, ?_⟩
  cases hsend : send (encryptTgNonceWithCiphers aes nonce.nonce).1 with
  | error e =>
    simp only [hsend] at hsent
    cases hsent
  | ok halves =>
    simp only [hsend] at hsent
    refine ⟨halves, rfl, hunderstood, ?_⟩
    rw [← hencryptor, ← hdecryptor]
    exact (Except.ok.inj hsent).symm

end

/-! ### From one end to the other -/

section
variable {R W : Type} [AsyncRead R] [AsyncWrite W] {fromKs toKs : ℕ → UInt8} {p q : ℕ} {data : List UInt8}

/-- Whoever has the keystream decrypts a beginning of the data from the wire, and all of it when the
    transfer has finished. As long as nothing has failed the rest is pending, in hand or still to come. -/
structure Arrives (fromKs : ℕ → UInt8) (p : ℕ) (toKs : ℕ → UInt8) (q : ℕ) (data : List UInt8)
    (t : Transfer R W) : Prop where
  beginning : xorStream toKs q t.wire <+: data
  all : t.ended = some .finished → xorStream toKs q t.wire = data
  rest : t.reader.reader.isPoisoned = false → t.writer.writer.isPoisoned = false →
    xorStream toKs q (t.wire ++ t.writer.writer.pendingBytes) ++ (t.hand ++
      xorStream fromKs (p + t.reader.plain.length) (AsyncRead.stream t.reader.reader.upstream)) = data

omit [AsyncWrite W] in
theorem arrives_of_inv {t : Transfer R W} (h : Transfer.Inv fromKs p data toKs q t) :
    Arrives fromKs p toKs q data t := by
  obtain ⟨hpart, hall⟩ := h.arrived
  refine ⟨(xorStream_isPrefix h.wire).trans hpart, fun hfinished => ?_, fun hreader hwriter => ?_⟩
  · rw [(h.finished hfinished).2.2, xorStream_xorStream]
    exact hall hfinished
  · rcases h.writes with hp | hw
    · exact absurd (hwriter.symm.trans hp) Bool.false_ne_true
    · obtain ⟨-, -, hrest⟩ := h.reads.rest hreader
      rw [Transfer.wire, hw.wire, xorStream_xorStream, ← List.append_assoc, h.moved]
      exact hrest

end

section
variable {R W R' W' : Type} {env : Environment W} {config : ProxyConfig}
  {handshake : Block UInt8 handshakeLen} {reader : R} {writer : W} {peer : SocketAddr}
  {checker : ReplayChecker} {isTls : Bool} {now : Instant} {fastMode : Bool}
  {send : List UInt8 → Except IoError (R' × W')} {draws : List (Block UInt8 handshakeLen)}
  {r : CryptoReader R} {w : CryptoWriter W} {success : HandshakeSuccess}
  {tg : CryptoReader R' × CryptoWriter W'}

/-- What the two handshakes agree on with the client and with Telegram. -/
structure Agreed (env : Environment W) (config : ProxyConfig) (handshake : Block UInt8 handshakeLen)
    (send : List UInt8 → Except IoError (R' × W')) (success : HandshakeSuccess) (secret : List UInt8)
    (message : List UInt8) (halves : R' × W') : Prop where
  user : ∃ secretHex, (success.user, secretHex) ∈ config.users ∧ hexDecode secretHex = some secret
  tag : ProtoTag.fromBytes (slice (xorStream (clientEncStream env (decPrekeyIv handshake) secret) 0
    handshake.toList) protoTagPos 4) = some success.protoTag
  dc : i16FromLeBytes (slice (xorStream (clientEncStream env (decPrekeyIv handshake) secret) 0
    handshake.toList) dcIdxPos 2) = success.dcIdx
  sent : send message = .ok halves
  understood : Understood env.aes success message

theorem handshakes_agree
    (hclient : (handleMtprotoHandshake env config handshake reader writer peer checker isTls now).1 =
      .success (r, w, success))
    (htg : doTgHandshakeStatic env.aes fastMode config.cryptoPendingBuffer send success draws =
      some (.ok tg)) :
    ∃ secret message halves, Agreed env config handshake send success secret message halves ∧
      Relay.start (r, w) tg = ⟨.start
        (CryptoReader.new reader ⟨clientEncStream env (decPrekeyIv handshake) secret, handshakeLen⟩)
        (CryptoWriter.new halves.2 ⟨tgReceives env.aes message, handshakeLen⟩
          config.cryptoPendingBuffer),
        .start (CryptoReader.new halves.1 ⟨tgSends env.aes message, 0⟩)
        (CryptoWriter.new writer ⟨clientDecStream env (decPrekeyIv handshake) secret, 0⟩
          config.cryptoPendingBuffer)⟩ := by
  rw [handleMtprotoHandshake] at hclient
  simp only at hclient
  split at hclient
  · cases hclient
  · obtain ⟨user, secretHex, secret, tag, huser, hsecret, htag, haccepted⟩ :=
      acceptMtproto_success hclient
    obtain ⟨message, halves, hsent, hunderstood, rfl⟩ := doTgHandshakeStatic_ok htg
    simp only [accepted, Prod.mk.injEq] at haccepted
    obtain ⟨rfl, rfl, rfl⟩ := haccepted
    refine ⟨secret, message, halves, ⟨⟨secretHex, huser, hsecret⟩, htag, rfl, hsent, hunderstood⟩, ?_⟩
    rw [handshake.length_eq, Nat.zero_add]
    rfl

variable [AsyncRead R] [AsyncWrite W] [AsyncRead R'] [AsyncWrite W']

/-- Both directions keep what they keep. -/
theorem relay_inv {fromUp toUp fromDown toDown : ℕ → UInt8} {pUp qUp pDown qDown : ℕ}
    {sent answered : List UInt8} {s u : Relay R W R' W'} (es : List Event)
    (hup : Transfer.Inv fromUp pUp sent toUp qUp s.up)
    (hdown : Transfer.Inv fromDown pDown answered toDown qDown s.down)
    (hrun : run Relay.step s es = some u) :
    Transfer.Inv fromUp pUp sent toUp qUp u.up ∧
      Transfer.Inv fromDown pDown answered toDown qDown u.down := by
  refine run_invariant (I := fun v : Relay R W R' W' => Transfer.Inv fromUp pUp sent toUp qUp v.up ∧
    Transfer.Inv fromDown pDown answered toDown qDown v.down) ?_ es ⟨hup, hdown⟩ hrun
  rintro v (m | m) v' ⟨hup, hdown⟩ hstep
  · obtain ⟨up, hmoved, rfl⟩ := Option.map_eq_some_iff.mp hstep
    exact ⟨hup.step hmoved, hdown⟩
  · obtain ⟨down, hmoved, rfl⟩ := Option.map_eq_some_iff.mp hstep
    exact ⟨hup, hdown.step hmoved⟩

/-- From both handshakes on, in every run of both directions, however source and sink cut, delay or fail:
    Telegram decrypts what the client has sent, with the ciphers of the message it was sent, and the client
    decrypts what Telegram has answered, with those of its own. Tag and data center go from the client's
    message to Telegram's. -/
theorem direct_session_end_to_end (env : Environment W) (config : ProxyConfig)
    (handshake : Block UInt8 handshakeLen) (reader : R) (writer : W) (peer : SocketAddr)
    (checker : ReplayChecker) (isTls : Bool) (now : Instant) (r : CryptoReader R) (w : CryptoWriter W)
    (success : HandshakeSuccess)
    (hclient : (handleMtprotoHandshake env config handshake reader writer peer checker isTls now).1 =
      .success (r, w, success))
    (fastMode : Bool) (send : List UInt8 → Except IoError (R' × W'))
    (draws : List (Block UInt8 handshakeLen)) (tg : CryptoReader R' × CryptoWriter W')
    (htg : doTgHandshakeStatic env.aes fastMode config.cryptoPendingBuffer send success draws =
      some (.ok tg)) :
    ∃ secret message halves, Agreed env config handshake send success secret message halves ∧
      ∀ sent answered,
        let fromClient := clientEncStream env (decPrekeyIv handshake) secret
        let toClient := clientDecStream env (decPrekeyIv handshake) secret
        AsyncRead.stream reader = xorStream fromClient handshakeLen sent →
        AsyncRead.stream halves.1 = xorStream (tgSends env.aes message) 0 answered →
        ∀ es s, run Relay.step (Relay.start (r, w) tg) es = some s →
          Arrives fromClient handshakeLen (tgReceives env.aes message) handshakeLen sent s.up ∧
          Arrives (tgSends env.aes message) 0 toClient 0 answered s.down := by
  obtain ⟨secret, message, halves, hagreed, hstart⟩ := handshakes_agree hclient htg
  refine ⟨secret, message, halves, hagreed, ?_⟩
  intro sent answered fromClient toClient hsent hanswered es s hrun
  rw [hstart] at hrun
  obtain ⟨hup, hdown⟩ := relay_inv es (Transfer.inv_start reader _ _ halves.2 _ hsent)
    (Transfer.inv_start halves.1 _ _ writer _ hanswered) hrun
  exact ⟨arrives_of_inv hup, arrives_of_inv hdown⟩

end

/-! A session of the second user, with Telegram at the other end. -/

/-- The first bytes of AES-256-CTR with the key `09 0a ⋯ 28` and the IV `29 2a ⋯ 38`, with these 48 bytes
    reversed, and with the keys of the client. -/
def sessionAes (key : List UInt8) (iv : BitVec 128) (n : ℕ) : UInt8 :=
  if key = countingPrekeyIv.take keyLen then
    [37, 113, 80, 76, 124, 239, 81, 195, 108, 203, 153, 221, 238, 191, 100, 232, 22, 234, 50, 79, 85,
      140, 73, 221, 51, 25, 183, 251, 30, 2, 226, 210, 46, 8, 61, 165, 55, 53, 95, 9, 243, 122, 162,
      142, 109, 237, 185, 243, 104, 0, 235, 132, 90, 48, 16, 27, 221, 83, 122, 106, 243, 251, 113,
      122, 221, 0, 77, 42, 157, 74, 238, 220].getD n 0
  else if key = countingPrekeyIv.reverse.take keyLen then [248, 141, 24, 122].getD n 0
  else clientAes key iv n

def sessionEnv : Environment ScriptedWriter := { clientEnv with aes := sessionAes }

def oneUser : ProxyConfig :=
  { twoUsers with users := [("user", "00000000000000000000000000000000".toList)] }

def sessionHello : Block UInt8 handshakeLen :=
  clientHello sessionEnv (List.replicate 16 0) ⟨_, length_countingBytes⟩ .secure 2

/-- Both sinks take what they are offered, but one byte first. -/
def slowSink : ScriptedWriter :=
  ⟨[.ready (.ok 1), .pending, .ready (.ok 9), .ready (.ok 9), .ready (.ok 9)]⟩

/-- The bytes 5, 6 as Telegram encrypts them. -/
def answeredByTg : ScriptedReader := ⟨[253, 139], [some 1]⟩

def tgMessage : List UInt8 :=
  (List.range' 1 56).map UInt8.ofNat ++ [0, 142, 167, 183, 241, 251, 78, 58]

def tgSend (message : List UInt8) : Except IoError (ScriptedReader × ScriptedWriter) :=
  if message = tgMessage then .ok (answeredByTg, slowSink) else .error CryptoWriter.writeZero

def sessionClient : CryptoReader ScriptedReader × CryptoWriter ScriptedWriter × HandshakeSuccess :=
  accepted sessionEnv oneUser sessionHello sentByClient slowSink samplePeer false "user"
    (List.replicate 16 0) .secure

def sessionTg : CryptoReader ScriptedReader × CryptoWriter ScriptedWriter :=
  (CryptoReader.new answeredByTg ⟨tgSends sessionAes tgMessage, 0⟩,
    CryptoWriter.new slowSink ⟨tgReceives sessionAes tgMessage, handshakeLen⟩ 65536)

def sessionEvents : List Event :=
  [.up (.read 8), .up (.read 8), .down (.read 8), .up .write, .down .write, .up (.read 8), .up .flush,
    .up .write, .up (.read 8), .down (.read 8), .up .flush, .down .flush, .down .flush]

theorem sessionClient_accepted : (handleMtprotoHandshake sessionEnv oneUser sessionHello sentByClient
    slowSink samplePeer (ReplayChecker.new 64 1800) false 0).1 = .success sessionClient := by
  have hfresh : ((ReplayChecker.new 64 1800).checkAndAdd sessionEnv.hash (decPrekeyIv sessionHello) 0).1 =
      false := by decide +kernel
  rw [handleMtprotoHandshake]
  simp only [hfresh, Bool.false_eq_true, if_false]
  exact acceptMtproto_of_opens (by decide +kernel) (by decide +kernel) rfl []

theorem sessionTg_connected : doTgHandshakeStatic sessionEnv.aes false oneUser.cryptoPendingBuffer tgSend
    sessionClient.2.2 [⟨_, length_countingBytes⟩] = some (.ok sessionTg) := by
  rfl

/-- With the one user and the one message there is nothing else to agree on. -/
theorem oneUser_agreed {W : Type} {env : Environment W} {success : HandshakeSuccess}
    {secret message : List UInt8} {halves : ScriptedReader × ScriptedWriter}
    (h : Agreed env oneUser sessionHello tgSend success secret message halves) :
    secret = List.replicate 16 0 ∧ message = tgMessage ∧ halves = (answeredByTg, slowSink) := by
  obtain ⟨secretHex, huser, hsecret⟩ := h.user
  obtain rfl : secretHex = "00000000000000000000000000000000".toList :=
    (Prod.mk.inj (List.mem_singleton.mp huser)).2
  have hdecoded : hexDecode "00000000000000000000000000000000".toList = some (List.replicate 16 0) := by
    decide +kernel
  have hzeros := Option.some.inj (hdecoded.symm.trans hsecret)
  have hsent := h.sent
  rw [tgSend] at hsent
  split at hsent
  · rename_i hmessage
    exact ⟨hzeros.symm, hmessage, (Except.ok.inj hsent).symm⟩
  · cases hsent

/-- Four bytes go up and two come down. -/
theorem direct_session_end_to_end_one_user :
    ∃ s, run Relay.step (Relay.start (sessionClient.1, sessionClient.2.1) sessionTg) sessionEvents =
        some s ∧
      xorStream (tgReceives sessionAes tgMessage) handshakeLen s.up.wire = [1, 2, 3, 4] ∧
      xorStream (clientDecStream sessionEnv countingPrekeyIv (List.replicate 16 0)) 0 s.down.wire =
        [5, 6] := by
  have hended : (run Relay.step (Relay.start (sessionClient.1, sessionClient.2.1) sessionTg)
      sessionEvents).map (fun s => (s.up.ended, s.down.ended)) =
        some (some .finished, some .finished) := by decide +kernel
  obtain ⟨s, hs, hfinished⟩ := Option.map_eq_some_iff.mp hended
  obtain ⟨hup, hdown⟩ := Prod.mk.inj hfinished
  refine ⟨s, hs, ?_⟩
  obtain ⟨secret, message, halves, hagreed, hall⟩ := direct_session_end_to_end _ _ _ _ _ _ _ _ _ _ _ _
    sessionClient_accepted false tgSend _ sessionTg sessionTg_connected
  obtain ⟨rfl, rfl, rfl⟩ := oneUser_agreed hagreed
  obtain ⟨harrivesUp, harrivesDown⟩ := hall [1, 2, 3, 4] [5, 6] (by decide +kernel) (by decide +kernel)
    sessionEvents s hs
  exact ⟨harrivesUp.all hup, harrivesDown.all hdown⟩

/-! ### A client behind TLS -/

section
variable {R W R' W' : Type} [AsyncRead R] [AsyncWrite W] [AsyncRead R'] [AsyncWrite W']

/-- The records that have gone out to the client since its handshake. -/
def tlsWire (s : Relay (TlsSource R) (FakeTlsWriter.Session W) R' W') : List UInt8 :=
  s.down.writer.writer.upstream.io.writer.upstream.accepted

/-- The sink of the client takes records only, and all of them are out when its transfer has finished. -/
theorem relay_keeps {s u : Relay (TlsSource R) (FakeTlsWriter.Session W) R' W'} (es : List Event)
    (h : Transfer.Keeps FakeTlsWriter.Carries s.down) (hrun : run Relay.step s es = some u) :
    Transfer.Keeps FakeTlsWriter.Carries u.down := by
  refine run_invariant (I := fun v : Relay (TlsSource R) (FakeTlsWriter.Session W) R' W' =>
    Transfer.Keeps FakeTlsWriter.Carries v.down) ?_ es h hrun
  rintro v (m | m) v' hkeeps hstep
  · obtain ⟨up, -, rfl⟩ := Option.map_eq_some_iff.mp hstep
    exact hkeeps
  · obtain ⟨down, hmoved, rfl⟩ := Option.map_eq_some_iff.mp hstep
    exact hkeeps.step (fun _ data hu => hu.pollWrite data) (fun _ hu => hu.pollFlush) hmoved

/-- A client behind TLS: what it encrypts comes in the payload of its records, and the payload of the
    records it gets decrypts to what Telegram has answered, to all of it and up to a clean end when the
    transfer has finished. -/
theorem tls_session_end_to_end (env : Environment (FakeTlsWriter.Session W)) (config : ProxyConfig)
    (handshake : Block UInt8 handshakeLen) (reader : TlsSource R) (sink : W) (peer : SocketAddr)
    (checker : ReplayChecker) (now : Instant) (r : CryptoReader (TlsSource R))
    (w : CryptoWriter (FakeTlsWriter.Session W)) (success : HandshakeSuccess)
    (hclient : (handleMtprotoHandshake env config handshake reader ⟨FakeTlsWriter.new sink, []⟩ peer
      checker true now).1 = .success (r, w, success))
    (fastMode : Bool) (send : List UInt8 → Except IoError (R' × W'))
    (draws : List (Block UInt8 handshakeLen)) (tg : CryptoReader R' × CryptoWriter W')
    (htg : doTgHandshakeStatic env.aes fastMode config.cryptoPendingBuffer send success draws =
      some (.ok tg)) :
    ∃ secret message halves, Agreed env config handshake send success secret message halves ∧
      ∀ sent answered,
        let fromClient := clientEncStream env (decPrekeyIv handshake) secret
        let toClient := clientDecStream env (decPrekeyIv handshake) secret
        reader.payload = xorStream fromClient handshakeLen sent →
        AsyncRead.stream halves.1 = xorStream (tgSends env.aes message) 0 answered →
        ∀ es s, run Relay.step (Relay.start (r, w) tg) es = some s →
          (xorStream (tgReceives env.aes message) handshakeLen s.up.wire <+: sent ∧
            (s.up.ended = some .finished →
              xorStream (tgReceives env.aes message) handshakeLen s.up.wire = sent)) ∧
          xorStream toClient 0 (tlsPayload (tlsWire s)).1 <+: answered ∧
          (s.down.ended = some .finished →
            xorStream toClient 0 (tlsPayload (tlsWire s)).1 = answered ∧
              (tlsPayload (tlsWire s)).2 = .eof) := by
  obtain ⟨secret, message, halves, hagreed, hstart⟩ := handshakes_agree hclient htg
  refine ⟨secret, message, halves, hagreed, ?_⟩
  intro sent answered fromClient toClient hsent hanswered es s hrun
  rw [hstart] at hrun
  obtain ⟨hup, hdown⟩ := relay_inv es (Transfer.inv_start reader _ _ halves.2 _ hsent)
    (Transfer.inv_start halves.1 _ _ _ _ hanswered) hrun
  have hkeeps := relay_keeps es ⟨FakeTlsWriter.carries_new sink, fun hfinished => by cases hfinished⟩ hrun
  have hpayload : (tlsPayload (tlsWire s)).1 <+: s.down.wire := hkeeps.kept.wire_payload
  refine ⟨⟨(arrives_of_inv hup).beginning, (arrives_of_inv hup).all⟩, ?_, fun hfinished => ?_⟩
  · obtain ⟨rest, hrest⟩ := hpayload
    have hcut : xorStream toClient 0 (tlsPayload (tlsWire s)).1 <+: xorStream toClient 0 s.down.wire := by
      rw [← hrest, xorStream_append]
      exact List.prefix_append _ _
    exact hcut.trans (arrives_of_inv hdown).beginning
  · obtain ⟨u, x, hu, hflushed, hlast⟩ := hkeeps.finished hfinished
    have hall : tlsPayload (tlsWire s) = (s.down.wire, .eof) := by
      rw [tlsWire, Transfer.wire, hlast]
      exact hu.flushed hflushed
    rw [hall]
    exact ⟨(arrives_of_inv hdown).all hfinished, rfl⟩

end

/-! The same session behind TLS. -/

def tlsEnv : Environment (FakeTlsWriter.Session ScriptedWriter) where
  hash := clientEnv.hash
  sha256 := clientEnv.sha256
  sha256Hmac := clientEnv.sha256Hmac
  aes := sessionAes
  buildServerHello := fun _ _ _ _ _ => []
  writeAll := fun w _ => .ok w
  flush := .ok
  wall := id

/-- What the client encrypts comes in two records. -/
def sentInRecords : TlsSource ScriptedReader :=
  .new ⟨FakeTlsWriter.records [[176, 214], [244, 18]], [none, some 3]⟩

def tlsClient : CryptoReader (TlsSource ScriptedReader) ×
    CryptoWriter (FakeTlsWriter.Session ScriptedWriter) × HandshakeSuccess :=
  accepted tlsEnv oneUser sessionHello sentInRecords ⟨FakeTlsWriter.new slowSink, []⟩ samplePeer true "user"
    (List.replicate 16 0) .secure

theorem tlsClient_accepted : (handleMtprotoHandshake tlsEnv oneUser sessionHello sentInRecords
    ⟨FakeTlsWriter.new slowSink, []⟩ samplePeer (ReplayChecker.new 64 1800) true 0).1 =
      .success tlsClient := by
  have hfresh : ((ReplayChecker.new 64 1800).checkAndAdd tlsEnv.hash (decPrekeyIv sessionHello) 0).1 =
      false := by decide +kernel
  rw [handleMtprotoHandshake]
  simp only [hfresh, Bool.false_eq_true, if_false]
  exact acceptMtproto_of_opens (by decide +kernel) (by decide +kernel) rfl []

theorem tlsTg_connected : doTgHandshakeStatic tlsEnv.aes false oneUser.cryptoPendingBuffer tgSend
    tlsClient.2.2 [⟨_, length_countingBytes⟩] = some (.ok sessionTg) := by
  rfl

theorem tls_session_end_to_end_one_user :
    ∃ s, run Relay.step (Relay.start (tlsClient.1, tlsClient.2.1) sessionTg) sessionEvents = some s ∧
      xorStream (tgReceives sessionAes tgMessage) handshakeLen s.up.wire = [1, 2, 3, 4] ∧
      xorStream (clientDecStream tlsEnv countingPrekeyIv (List.replicate 16 0)) 0
        (tlsPayload (tlsWire s)).1 = [5, 6] := by
  have hended : (run Relay.step (Relay.start (tlsClient.1, tlsClient.2.1) sessionTg)
      sessionEvents).map (fun s => (s.up.ended, s.down.ended)) =
        some (some .finished, some .finished) := by decide +kernel
  obtain ⟨s, hs, hfinished⟩ := Option.map_eq_some_iff.mp hended
  obtain ⟨hup, hdown⟩ := Prod.mk.inj hfinished
  refine ⟨s, hs, ?_⟩
  obtain ⟨secret, message, halves, hagreed, hall⟩ := tls_session_end_to_end _ _ _ _ _ _ _ _ _ _ _
    tlsClient_accepted false tgSend _ sessionTg tlsTg_connected
  obtain ⟨rfl, rfl, rfl⟩ := oneUser_agreed hagreed
  have hchunks : ∀ c ∈ ([[176, 214], [244, 18]] : List (List UInt8)), FakeTlsWriter.IsChunk c := by
    simp [FakeTlsWriter.IsChunk, maxTlsPayload]
  have hpayload : sentInRecords.payload = [176, 214, 244, 18] :=
    congrArg Prod.fst (tlsPayload_records hchunks)
  obtain ⟨harrivesUp, -, harrivesDown⟩ := hall [1, 2, 3, 4] [5, 6]
    (hpayload.trans (by decide +kernel)) (by decide +kernel) sessionEvents s hs
  exact ⟨harrivesUp.2 hup, (harrivesDown hdown).1⟩

end MtProxy.Proxy.DirectSession
