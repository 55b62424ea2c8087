import MtProxy.Proxy.Handshake

/-! The obfuscated handshake from the client's side: how a client builds its 64 bytes, and that
    `handle_mtproto_handshake` understands them.

        client   any 64 bytes │ tag and DC encrypted in place at 56..62
        proxy    the first user whose secret turns 56..60 into a tag of an enabled mode
        to the proxy:   SHA256(8..40 ++ secret), 40..56              from offset 64
        to the client:  the same of the 48 bytes reversed            from offset 0

    Both streams are then in step: what the client encrypts is read, and what is written the client
    can decrypt. -/

namespace MtProxy.Proxy
open Schemes Crypto Stats MtProxy.Stream
open MiddleProxy (SocketAddr)

section
variable {W : Type} (env : Environment W)

/-- The client's keystream for what it sends. -/
def clientEncStream (prekeyIv secret : List UInt8) : ℕ → UInt8 :=
  env.aes (deriveKey env prekeyIv secret).1 (deriveKey env prekeyIv secret).2

/-- The client's keystream for what it receives: that of the reversed 48 bytes. -/
def clientDecStream (prekeyIv secret : List UInt8) : ℕ → UInt8 :=
  clientEncStream env prekeyIv.reverse secret

/-- What the client encrypts in place. -/
def initPart (tag : ProtoTag) (dcIdx : Int16) : List UInt8 := tag.toBytes ++ i16ToLeBytes dcIdx

/-- The client's message: arbitrary bytes, with tag and DC index encrypted at their places. -/
def clientInit (secret : List UInt8) (bytes : List UInt8) (tag : ProtoTag) (dcIdx : Int16) :
    List UInt8 :=
  copyInto bytes protoTagPos (xorStream (clientEncStream env
    (slice bytes skipLen (prekeyLen + ivLen)) secret) protoTagPos (initPart tag dcIdx))

/-- The secret decrypts bytes 56..60 of the message to this tag, and its mode is enabled. -/
def Opens (config : ProxyConfig) (isTls : Bool) (handshake : Block UInt8 handshakeLen)
    (secretHex : List Char) (tag : ProtoTag) : Prop :=
  ∃ secret, hexDecode secretHex = some secret ∧
    ProtoTag.fromBytes (slice (xorStream (clientEncStream env (decPrekeyIv handshake) secret) 0
      handshake.toList) protoTagPos 4) = some tag ∧
    modeOk config isTls tag = true

end

/-! ### The message -/

section
variable {W : Type} {env : Environment W} {secret bytes : List UInt8} {tag : ProtoTag} {dcIdx : Int16}

@[simp] theorem length_initPart : (initPart tag dcIdx).length = 6 := by
  rw [initPart, List.length_append, ProtoTag.length_toBytes, i16ToLeBytes, length_leBytes]

theorem slice_xorStream (ks : ℕ → UInt8) (p i n : ℕ) (l : List UInt8) :
    slice (xorStream ks p l) i n = xorStream ks (p + i) (slice l i n) := by
  rw [slice, drop_xorStream, take_xorStream, slice]

theorem clientInit_fits (env : Environment W) (secret : List UInt8) (tag : ProtoTag) (dcIdx : Int16)
    (h : bytes.length = handshakeLen) : protoTagPos + (xorStream (clientEncStream env
      (slice bytes skipLen (prekeyLen + ivLen)) secret) protoTagPos (initPart tag dcIdx)).length ≤
        bytes.length := by
  rw [length_xorStream, length_initPart, h]
  decide

theorem length_clientInit (env : Environment W) (secret : List UInt8) (tag : ProtoTag)
    (dcIdx : Int16) (h : bytes.length = handshakeLen) :
    (clientInit env secret bytes tag dcIdx).length = handshakeLen :=
  (length_copyInto (clientInit_fits env secret tag dcIdx h)).trans h

/-- The 48 bytes of key and IV are sent as they are. -/
theorem prekeyIv_clientInit (h : bytes.length = handshakeLen) :
    slice (clientInit env secret bytes tag dcIdx) skipLen (prekeyLen + ivLen) =
      slice bytes skipLen (prekeyLen + ivLen) :=
  slice_copyInto_before (clientInit_fits env secret tag dcIdx h) (le_refl _)

/-- Decrypting the message gives tag and DC index. -/
theorem decrypted_clientInit (h : bytes.length = handshakeLen) :
    slice (xorStream (clientEncStream env (slice bytes skipLen (prekeyLen + ivLen)) secret) 0
      (clientInit env secret bytes tag dcIdx)) protoTagPos 6 = initPart tag dcIdx := by
  have hlen : (xorStream (clientEncStream env (slice bytes skipLen (prekeyLen + ivLen)) secret)
      protoTagPos (initPart tag dcIdx)).length = 6 := by rw [length_xorStream, length_initPart]
  have hpart := slice_copyInto (clientInit_fits env secret tag dcIdx h)
  rw [hlen] at hpart
  rw [slice_xorStream, clientInit, hpart, Nat.zero_add, xorStream_xorStream]

theorem slice_tag_of_part {l part : List UInt8} (h : slice l protoTagPos 6 = part) :
    slice l protoTagPos 4 = part.take 4 := by
  rw [← h, slice, slice, List.take_take]
  rfl

theorem slice_dc_of_part {l part : List UInt8} (h : slice l protoTagPos 6 = part) :
    slice l dcIdxPos 2 = part.drop 4 := by
  rw [← h, slice, slice, List.drop_take, List.drop_drop]
  rfl

end

/-! ### The search for the user -/

section
variable {R W : Type} {env : Environment W} {config : ProxyConfig}
  {handshake : Block UInt8 handshakeLen} {reader : R} {writer : W} {peer : SocketAddr} {isTls : Bool}

/-- What a success with this user comes to: the ciphers as the handshake leaves them. -/
def accepted (env : Environment W) (config : ProxyConfig) (handshake : Block UInt8 handshakeLen)
    (reader : R) (writer : W) (peer : SocketAddr) (isTls : Bool) (user : String)
    (secret : List UInt8) (tag : ProtoTag) : CryptoReader R × CryptoWriter W × HandshakeSuccess :=
  let prekeyIv := decPrekeyIv handshake
  let decrypted := xorStream (clientEncStream env prekeyIv secret) 0 handshake.toList
  (CryptoReader.new reader ⟨clientEncStream env prekeyIv secret, 0 + handshake.toList.length⟩,
    CryptoWriter.new writer ⟨clientDecStream env prekeyIv secret, 0⟩ config.cryptoPendingBuffer,
    { user
      dcIdx := i16FromLeBytes (slice decrypted dcIdxPos 2)
      protoTag := tag
      decKey := (deriveKey env prekeyIv secret).1
      decIv := (deriveKey env prekeyIv secret).2
      encKey := (deriveKey env prekeyIv.reverse secret).1
      encIv := (deriveKey env prekeyIv.reverse secret).2
      peer
      isTls })

/-- One round of the loop. -/
theorem acceptMtproto_cons (user : String) (secretHex : List Char) (users : List (String × List Char)) :
    acceptMtproto env config handshake reader writer peer isTls ((user, secretHex) :: users) =
      match hexDecode secretHex with
      | none => acceptMtproto env config handshake reader writer peer isTls users
      | some secret =>
        match ProtoTag.fromBytes (slice (xorStream (clientEncStream env (decPrekeyIv handshake) secret)
          0 handshake.toList) protoTagPos 4) with
        | none => acceptMtproto env config handshake reader writer peer isTls users
        | some tag =>
          if modeOk config isTls tag then
            .success (accepted env config handshake reader writer peer isTls user secret tag)
          else acceptMtproto env config handshake reader writer peer isTls users := rfl

/-- A user whose secret does not open the message is passed over. -/
theorem acceptMtproto_of_not_opens {user : String} {secretHex : List Char}
    (h : ∀ tag, ¬ Opens env config isTls handshake secretHex tag) (users : List (String × List Char)) :
    acceptMtproto env config handshake reader writer peer isTls ((user, secretHex) :: users) =
      acceptMtproto env config handshake reader writer peer isTls users := by
  rw [acceptMtproto_cons]
  split
  · rfl
  · next secret hsecret =>
    split
    · rfl
    · next tag htag =>
      refine if_neg fun hmode => h tag ⟨secret, hsecret, htag, hmode⟩

theorem acceptMtproto_of_opens {user : String} {secretHex : List Char} {secret : List UInt8}
    {tag : ProtoTag} (hsecret : hexDecode secretHex = some secret)
    (htag : ProtoTag.fromBytes (slice (xorStream (clientEncStream env (decPrekeyIv handshake) secret) 0
      handshake.toList) protoTagPos 4) = some tag)
    (hmode : modeOk config isTls tag = true) (users : List (String × List Char)) :
    acceptMtproto env config handshake reader writer peer isTls ((user, secretHex) :: users) =
      .success (accepted env config handshake reader writer peer isTls user secret tag) := by
  rw [acceptMtproto_cons, hsecret]
  simp only [htag, hmode, if_true]

theorem acceptMtproto_append {earlier : List (String × List Char)}
    (h : ∀ user ∈ earlier, ∀ tag, ¬ Opens env config isTls handshake user.2 tag)
    (users : List (String × List Char)) :
    acceptMtproto env config handshake reader writer peer isTls (earlier ++ users) =
      acceptMtproto env config handshake reader writer peer isTls users := by
  induction earlier with
  | nil => rfl
  | cons user earlier ih =>
    rw [List.cons_append, acceptMtproto_of_not_opens (h user List.mem_cons_self)]
    exact ih fun other hother => h other (List.mem_cons_of_mem user hother)

theorem opens_of_acceptMtproto {result : CryptoReader R × CryptoWriter W × HandshakeSuccess}
    {users : List (String × List Char)}
    (h : acceptMtproto env config handshake reader writer peer isTls users = .success result) :
    ∃ user ∈ users, ∃ tag, Opens env config isTls handshake user.2 tag := by
  induction users with
  | nil => cases h
  | cons user users ih =>
    by_cases hopens : ∃ tag, Opens env config isTls handshake user.2 tag
    · exact ⟨user, List.mem_cons_self, hopens⟩
    · rw [acceptMtproto_of_not_opens (not_exists.mp hopens)] at h
      obtain ⟨other, hother, hopens'⟩ := ih h
      exact ⟨other, List.mem_cons_of_mem user hother, hopens'⟩

end

/-! ### Both streams -/

section
variable {R W : Type} [AsyncRead R] [AsyncWrite W]

/-- Whatever the client encrypts from offset 64 on, and however it arrives and is read: the reader hands
    out its beginning. Until the connection fails the rest is still to come, and a read is what the
    connection gives, decrypted. -/
def ReadsClient (ks : ℕ → UInt8) (source : R) (r : CryptoReader R) : Prop :=
  ∀ data, AsyncRead.stream source = xorStream ks handshakeLen data → ∀ caps,
    let s := CryptoReader.session r caps
    s.plain <+: data ∧ (s.reader.isPoisoned = false →
      s.plain ++ xorStream ks (handshakeLen + s.plain.length) (AsyncRead.stream s.reader.upstream) =
        data ∧
      ∀ cap, 0 < cap →
        (s.reader.pollRead cap).1 = CryptoReader.decrypted ⟨ks, handshakeLen + s.plain.length⟩
          (AsyncRead.pollRead s.reader.upstream cap).1 ∧
        ((s.reader.pollRead cap).2.isPoisoned = true →
          ∃ e, (AsyncRead.pollRead s.reader.upstream cap).1 = .ready (.error e)))

/-- Whatever is written, flushed and shut down: what reached the client it decrypts from offset 0 on to
    the beginning of what was accepted. Until the connection fails the rest is pending. -/
def WritesClient (ks : ℕ → UInt8) (w : CryptoWriter W) : Prop :=
  ∀ calls : List CryptoWriter.Call, let s := calls.foldl CryptoWriter.Session.next ⟨w, []⟩
    xorStream ks 0 s.writer.upstream.accepted <+: s.plain ∧
    (s.writer.isPoisoned = false →
      xorStream ks 0 (s.writer.upstream.accepted ++ s.writer.pendingBytes) = s.plain)

theorem reader_readsClient (ks : ℕ → UInt8) (source : R) :
    ReadsClient ks source (CryptoReader.new source ⟨ks, handshakeLen⟩) := by
  intro data hdata caps
  have h := CryptoReader.session_decrypts caps
    (CryptoReader.decrypts_new source ⟨ks, handshakeLen⟩ hdata)
  refine ⟨h.plain, fun hp => ?_⟩
  obtain ⟨hidle, hdec, hrest⟩ := h.rest hp
  refine ⟨hrest, fun cap hcap => ?_⟩
  have hanswer := CryptoReader.pollRead_answer hidle hcap
  rw [hdec] at hanswer
  exact hanswer

theorem xorStream_isPrefix {ks : ℕ → UInt8} {p : ℕ} {wire plain : List UInt8}
    (h : wire <+: xorStream ks p plain) : xorStream ks p wire <+: plain := by
  obtain ⟨rest, hrest⟩ := h
  refine ⟨xorStream ks (p + wire.length) rest, ?_⟩
  rw [← xorStream_append, hrest, xorStream_xorStream]

theorem writer_writesClient (ks : ℕ → UInt8) (sink : W) (maxPending : ℕ) :
    WritesClient ks (CryptoWriter.new sink ⟨ks, 0⟩ maxPending) := by
  intro calls s
  refine ⟨xorStream_isPrefix (CryptoWriter.session_accepted sink ⟨ks, 0⟩ maxPending calls),
    fun hp => ?_⟩
  rcases CryptoWriter.run_good sink ⟨ks, 0⟩ maxPending calls with hpoisoned | hsynced
  · exact absurd (hp.symm.trans hpoisoned) Bool.false_ne_true
  · exact (congrArg (xorStream ks 0) hsynced.wire).trans (xorStream_xorStream ks 0 s.plain)

/-- The message of a client. -/
def clientHello (env : Environment W) (secret : List UInt8) (bytes : Block UInt8 handshakeLen)
    (tag : ProtoTag) (dcIdx : Int16) : Block UInt8 handshakeLen :=
  ⟨clientInit env secret bytes.toList tag dcIdx, length_clientInit env secret tag dcIdx bytes.length_eq⟩

/-- A message that a client built with the secret of a user, in an enabled mode, and that no earlier
    user's secret opens, is accepted for that user, with its tag and DC index, and both streams are in
    step with the client. A message that is accepted is opened by the secret of some user. -/
theorem client_handshake_understood (env : Environment W) (config : ProxyConfig) (reader : R)
    (writer : W) (peer : SocketAddr) (checker : ReplayChecker) (isTls : Bool) (now : Instant) :
    (∀ (bytes : Block UInt8 handshakeLen) (tag : ProtoTag) (dcIdx : Int16) (secret : List UInt8)
        (earlier later : List (String × List Char)) (user : String) (secretHex : List Char),
      let handshake := clientHello env secret bytes tag dcIdx
      config.users = earlier ++ (user, secretHex) :: later → hexDecode secretHex = some secret →
      modeOk config isTls tag = true →
      (∀ other ∈ earlier, ∀ t, ¬ Opens env config isTls handshake other.2 t) →
      (checker.checkAndAdd env.hash (decPrekeyIv handshake) now).1 = false →
      ∃ r w success,
        (handleMtprotoHandshake env config handshake reader writer peer checker isTls now).1 =
          .success (r, w, success) ∧
        success.user = user ∧ success.protoTag = tag ∧ success.dcIdx = dcIdx ∧
        ReadsClient (clientEncStream env (decPrekeyIv bytes) secret) reader r ∧
        WritesClient (clientDecStream env (decPrekeyIv bytes) secret) w) ∧
    ∀ (handshake : Block UInt8 handshakeLen) result,
      (handleMtprotoHandshake env config handshake reader writer peer checker isTls now).1 =
        .success result →
      ∃ user ∈ config.users, ∃ tag, Opens env config isTls handshake user.2 tag := by
  constructor
  · intro bytes tag dcIdx secret earlier later user secretHex handshake husers hsecret hmode hearlier
      hfresh
    have hprekey : decPrekeyIv handshake = decPrekeyIv bytes := prekeyIv_clientInit bytes.length_eq
    have hdecrypted : slice (xorStream (clientEncStream env (decPrekeyIv handshake) secret) 0
        handshake.toList) protoTagPos 6 = initPart tag dcIdx := by
      rw [hprekey]
      exact decrypted_clientInit bytes.length_eq
    have htag : ProtoTag.fromBytes (slice (xorStream (clientEncStream env (decPrekeyIv handshake)
        secret) 0 handshake.toList) protoTagPos 4) = some tag := by
      rw [slice_tag_of_part hdecrypted, initPart, List.take_left' (ProtoTag.length_toBytes tag),
        ProtoTag.fromBytes_toBytes]
    have hdc : i16FromLeBytes (slice (xorStream (clientEncStream env (decPrekeyIv handshake) secret) 0
        handshake.toList) dcIdxPos 2) = dcIdx := by
      rw [slice_dc_of_part hdecrypted, initPart, List.drop_left' (ProtoTag.length_toBytes tag),
        i16FromLeBytes_toLeBytes]
    have haccepted : (handleMtprotoHandshake env config handshake reader writer peer checker isTls
        now).1 = .success (accepted env config handshake reader writer peer isTls user secret tag) := by
      rw [handleMtprotoHandshake]
      simp only [hfresh, Bool.false_eq_true, if_false]
      rw [husers, acceptMtproto_append hearlier, acceptMtproto_of_opens hsecret htag hmode]
    refine ⟨_, _, _, haccepted, rfl, rfl, hdc, ?_, ?_⟩
    · rw [hprekey, handshake.length_eq, Nat.zero_add]
      exact reader_readsClient _ reader
    · rw [hprekey]
      exact writer_writesClient _ writer _
  · intro handshake result hsuccess
    rw [handleMtprotoHandshake] at hsuccess
    simp only at hsuccess
    split at hsuccess
    · cases hsuccess
    · exact opens_of_acceptMtproto hsuccess

end

/-! ### A client of the second user -/

/-- Two users, with the secrets `01 ⋯ 01` and `00 ⋯ 00`. -/
def twoUsers : ProxyConfig where
  users := [("other", "01010101010101010101010101010101".toList),
    ("user", "00000000000000000000000000000000".toList)]
  ignoreTimeSkew := false
  classic := false
  secure := true
  tls := false
  cryptoPendingBuffer := 65536

/-- The 48 bytes `09 0a ⋯ 38`. -/
def countingPrekeyIv : List UInt8 := (List.range' 9 48).map UInt8.ofNat

/-- SHA-256 of prekey and secret: for the other user, for the user, and for the user with the 48 bytes
    reversed. -/
def otherKey : List UInt8 :=
  [12, 117, 120, 172, 38, 50, 166, 188, 46, 250, 57, 106, 170, 33, 75, 11, 70, 28, 239, 85, 194,
    170, 166, 164, 96, 117, 49, 38, 50, 129, 250, 17]

def userKey : List UInt8 :=
  [60, 182, 166, 217, 166, 73, 15, 36, 252, 48, 55, 3, 78, 47, 148, 115, 11, 249, 70, 192, 2,
    250, 212, 69, 165, 122, 238, 40, 10, 186, 126, 171]

def userReplyKey : List UInt8 :=
  [170, 188, 56, 150, 40, 175, 254, 85, 140, 105, 16, 9, 191, 146, 218, 32, 146, 147, 192, 34,
    78, 49, 86, 112, 178, 140, 254, 160, 29, 78, 44, 225]

theorem length_otherKey : otherKey.length = keyLen := rfl

theorem length_userKey : userKey.length = keyLen := rfl

theorem length_userReplyKey : userReplyKey.length = keyLen := rfl

/-- SHA-256 as it is on these inputs. -/
def clientSha256 (message : List UInt8) : Block UInt8 keyLen :=
  if message = countingPrekeyIv.take prekeyLen ++ List.replicate 16 1 then
    ⟨otherKey, length_otherKey⟩
  else if message = countingPrekeyIv.take prekeyLen ++ List.replicate 16 0 then
    ⟨userKey, length_userKey⟩
  else ⟨userReplyKey, length_userReplyKey⟩

/-- The first bytes of AES-256-CTR under these keys, with the IV `29 2a ⋯ 38` and `18 17 ⋯ 09`. -/
def clientAes (key : List UInt8) (_iv : BitVec 128) (n : ℕ) : UInt8 :=
  if key = otherKey then
    [204, 88, 181, 36, 51, 6, 106, 194, 247, 95, 143, 210, 173, 234, 112, 69, 160, 151, 8, 210, 0,
      210, 150, 230, 65, 102, 160, 173, 50, 18, 244, 81, 250, 122, 168, 43, 194, 219, 121, 235, 0,
      109, 213, 82, 41, 177, 228, 103, 188, 180, 4, 236, 138, 183, 253, 18, 56, 48, 115, 184, 221,
      125, 42, 174].getD n 0
  else if key = userKey then
    [126, 39, 155, 39, 233, 150, 250, 165, 150, 193, 181, 213, 136, 206, 85, 252, 10, 2, 109, 30,
      229, 74, 149, 24, 210, 107, 121, 152, 242, 88, 236, 18, 63, 151, 104, 110, 244, 143, 131,
      138, 161, 164, 173, 119, 97, 198, 138, 176, 119, 189, 7, 138, 93, 163, 199, 242, 134, 169,
      114, 121, 149, 162, 84, 151, 177, 212, 247, 22].getD n 0
  else [10, 226, 85, 158].getD n 0

def clientEnv : Environment ScriptedWriter where
  hash := fun _ => 0
  sha256 := clientSha256
  sha256Hmac := fun _ _ => ⟨otherKey, length_otherKey⟩
  aes := clientAes
  buildServerHello := fun _ _ _ _ _ => []
  writeAll := fun w _ => .ok w
  flush := .ok
  wall := id

theorem length_countingBytes : ((List.range' 1 64).map UInt8.ofNat).length = handshakeLen := rfl

/-- A client of the second user, for data center 2. -/
def countingHello : Block UInt8 handshakeLen :=
  clientHello clientEnv (List.replicate 16 0) ⟨_, length_countingBytes⟩ .secure 2

/-- The bytes 1, 2, 3, 4 encrypted at offset 64. -/
def sentByClient : ScriptedReader := ⟨[176, 214, 244, 18], [none, some 1]⟩

/-- The first user's secret does not open the message; the second user is found. -/
theorem client_handshake_understood_second_user :
    ∃ r w success,
      (handleMtprotoHandshake clientEnv twoUsers countingHello sentByClient ⟨[.ready (.ok 4)]⟩
        samplePeer (ReplayChecker.new 64 1800) false 0).1 = .success (r, w, success) ∧
      success.user = "user" ∧ success.protoTag = .secure ∧ success.dcIdx = 2 ∧
      ReadsClient (clientEncStream clientEnv countingPrekeyIv (List.replicate 16 0)) sentByClient r ∧
      WritesClient (clientDecStream clientEnv countingPrekeyIv (List.replicate 16 0)) w := by
  have hearlier : ∀ other ∈ [("other", "01010101010101010101010101010101".toList)], ∀ t,
      ¬ Opens clientEnv twoUsers false countingHello other.2 t := by
    rintro other hother t ⟨secret, hsecret, htag, -⟩
    obtain rfl := List.mem_singleton.mp hother
    have hdecoded : hexDecode "01010101010101010101010101010101".toList =
        some (List.replicate 16 1) := by decide +kernel
    obtain rfl := Option.some.inj (hdecoded.symm.trans hsecret)
    have hnone : ProtoTag.fromBytes (slice (xorStream (clientEncStream clientEnv
        (decPrekeyIv countingHello) (List.replicate 16 1)) 0 countingHello.toList) protoTagPos 4) =
          none := by decide +kernel
    exact absurd (hnone.symm.trans htag) (by simp)
  exact (client_handshake_understood clientEnv twoUsers sentByClient ⟨[.ready (.ok 4)]⟩ _ _ false 0).1
    ⟨_, length_countingBytes⟩ .secure 2 (List.replicate 16 0) _ [] "user" _ rfl (by decide +kernel)
    rfl hearlier (by decide +kernel)

end MtProxy.Proxy
