import MtProxy.Crypto.Ctr
import MtProxy.Protocol.Constants
import MtProxy.Schemes.Cbc

/-! `generate_tg_nonce` and `encrypt_tg_nonce_with_ciphers`: the 64 bytes that open an obfuscated
    connection to Telegram, and the two ciphers that go on from there.

        nonce     skip 8 │ key 32 │ iv 16 │ tag 4 │ dc 2 │ 2 more
        message   ───────── as it is ────── ──── encrypted ─────
        to Telegram:   key, iv                  at offset 64
        from Telegram: key ++ iv reversed       at offset 0

    In fast mode key and IV are chosen so that the reversed ones are the client's. -/

namespace MtProxy.Proxy
open Schemes Crypto

/-! ### Integers -/

def u128ToBeBytes (iv : BitVec 128) : List UInt8 := (leBytes 16 iv.toNat).reverse

def u128FromBeBytes (bytes : List UInt8) : BitVec 128 := BitVec.ofNat 128 (beVal bytes)

def i16ToLeBytes (n : Int16) : List UInt8 := leBytes 2 n.toUInt16.toNat

def i16FromLeBytes (bytes : List UInt8) : Int16 := (UInt16.ofNat (leVal bytes)).toInt16

theorem u128FromBeBytes_toBeBytes (iv : BitVec 128) : u128FromBeBytes (u128ToBeBytes iv) = iv := by
  have hlt : iv.toNat < 256 ^ 16 := iv.isLt
  rw [u128FromBeBytes, u128ToBeBytes, beVal, List.reverse_reverse, leVal_leBytes_of_lt hlt]
  exact BitVec.ofNat_toNat 128 iv

theorem i16FromLeBytes_toLeBytes (n : Int16) : i16FromLeBytes (i16ToLeBytes n) = n := by
  have hlt : n.toUInt16.toNat < 256 ^ 2 := n.toUInt16.toNat_lt
  rw [i16FromLeBytes, i16ToLeBytes, leVal_leBytes_of_lt hlt, UInt16.ofNat_toNat]
  rfl

/-! ### The nonce -/

def reservedNonceFirstBytes : List UInt8 := [0xef]

def reservedNonceBeginnings : List (List UInt8) :=
  [[0x48, 0x45, 0x41, 0x44], [0x50, 0x4f, 0x53, 0x54], [0x47, 0x45, 0x54, 0x20],
    [0xee, 0xee, 0xee, 0xee], [0xdd, 0xdd, 0xdd, 0xdd], [0x16, 0x03, 0x01, 0x02]]

def reservedNonceContinues : List (List UInt8) := [[0x00, 0x00, 0x00, 0x00]]

/-- The draw looks like another protocol. -/
def isReserved (nonce : List UInt8) : Bool :=
  reservedNonceFirstBytes.contains (nonce.getD 0 0) ||
    reservedNonceBeginnings.contains (slice nonce 0 4) ||
    reservedNonceContinues.contains (slice nonce 4 4)

structure TgNonce where
  nonce : List UInt8
  tgEncKey : List UInt8
  tgEncIv : BitVec 128
  tgDecKey : List UInt8
  tgDecIv : BitVec 128

/-- Key and IV of the two directions, out of the 48 bytes behind the first eight. -/
def encKeyIv (nonce : List UInt8) : List UInt8 := slice nonce skipLen (keyLen + ivLen)

def decKeyIv (nonce : List UInt8) : List UInt8 := (encKeyIv nonce).reverse

section
variable (protoTag : ProtoTag) (dcIdx : Int16) (clientEncKey : Block UInt8 keyLen)
  (clientEncIv : BitVec 128) (fastMode : Bool)

/-- The client's key and IV, reversed. -/
def fastKeyIv : List UInt8 := (clientEncKey.toList ++ u128ToBeBytes clientEncIv).reverse

/-- What a draw that is not reserved becomes. -/
def fillNonce (bytes : List UInt8) : List UInt8 :=
  let nonce := copyInto bytes protoTagPos protoTag.toBytes
  let nonce := copyInto nonce dcIdxPos (i16ToLeBytes dcIdx)
  if fastMode then copyInto nonce skipLen (fastKeyIv clientEncKey clientEncIv) else nonce

/-- `generate_tg_nonce` over the draws of `rng.bytes(HANDSHAKE_LEN)`; `none` if all of them are
    reserved. The client's decryption key and IV are not used. -/
def generateTgNonce : List (Block UInt8 handshakeLen) → Option TgNonce
  | [] => none
  | bytes :: draws =>
    if isReserved bytes.toList then generateTgNonce draws
    else
      let nonce := fillNonce protoTag dcIdx clientEncKey clientEncIv fastMode bytes.toList
      some
        { nonce := nonce
          tgEncKey := (encKeyIv nonce).take keyLen
          tgEncIv := u128FromBeBytes ((encKeyIv nonce).drop keyLen)
          tgDecKey := (decKeyIv nonce).take keyLen
          tgDecIv := u128FromBeBytes ((decKeyIv nonce).drop keyLen) }

end

/-- `encrypt_tg_nonce_with_ciphers`: the message, the encryptor and the decryptor. -/
def encryptTgNonceWithCiphers (aes : Keystream) (nonce : List UInt8) :
    List UInt8 × AesCtr × AesCtr :=
  let encryptor := AesCtr.new aes ((encKeyIv nonce).take keyLen)
    (u128FromBeBytes ((encKeyIv nonce).drop keyLen))
  let encryptedFull := (encryptor.apply nonce).1
  let decryptor := AesCtr.new aes ((decKeyIv nonce).take keyLen)
    (u128FromBeBytes ((decKeyIv nonce).drop keyLen))
  (nonce.take protoTagPos ++ encryptedFull.drop protoTagPos, (encryptor.apply nonce).2, decryptor)

/-! ### What a nonce contains -/

section
variable {protoTag : ProtoTag} {dcIdx : Int16} {clientEncKey : Block UInt8 keyLen}
  {clientEncIv : BitVec 128} {fastMode : Bool}

theorem length_fastKeyIv (clientEncKey : Block UInt8 keyLen) (clientEncIv : BitVec 128) :
    (fastKeyIv clientEncKey clientEncIv).length = keyLen + ivLen := by
  rw [fastKeyIv, List.length_reverse, List.length_append, clientEncKey.length_eq, u128ToBeBytes,
    List.length_reverse, length_leBytes]
  rfl

/-- Every part of the filled nonce: the first eight bytes are those of the draw, tag and data centre
    are in their places, and in fast mode the 48 bytes are the client's, reversed. -/
structure Filled (protoTag : ProtoTag) (dcIdx : Int16) (clientEncKey : Block UInt8 keyLen)
    (clientEncIv : BitVec 128) (fastMode : Bool) (bytes nonce : List UInt8) : Prop where
  length : nonce.length = handshakeLen
  start : ∀ i len, i + len ≤ skipLen → slice nonce i len = slice bytes i len
  tag : slice nonce protoTagPos 4 = protoTag.toBytes
  dc : slice nonce dcIdxPos 2 = i16ToLeBytes dcIdx
  fast : fastMode = true → encKeyIv nonce = fastKeyIv clientEncKey clientEncIv

theorem fillNonce_filled {bytes : List UInt8} (h : bytes.length = handshakeLen) :
    Filled protoTag dcIdx clientEncKey clientEncIv fastMode bytes
      (fillNonce protoTag dcIdx clientEncKey clientEncIv fastMode bytes) := by
  have hdcLen : (i16ToLeBytes dcIdx).length = 2 := length_leBytes 2 _
  have htag : protoTagPos + protoTag.toBytes.length ≤ bytes.length := by
    rw [ProtoTag.length_toBytes, h]
    decide
  have hlen1 := length_copyInto htag
  have hdc : dcIdxPos + (i16ToLeBytes dcIdx).length ≤
      (copyInto bytes protoTagPos protoTag.toBytes).length := by
    rw [hdcLen, hlen1, h]
    decide
  have hlen2 := length_copyInto hdc
  have hplain : Filled protoTag dcIdx clientEncKey clientEncIv false bytes
      (copyInto (copyInto bytes protoTagPos protoTag.toBytes) dcIdxPos (i16ToLeBytes dcIdx)) := by
    refine ⟨by rw [hlen2, hlen1, h], fun i len hi => ?_, ?_, ?_, by simp⟩
    · have hskip : skipLen ≤ protoTagPos := by decide
      have hskip' : skipLen ≤ dcIdxPos := by decide
      rw [slice_copyInto_before hdc (by omega), slice_copyInto_before htag (by omega)]
    · rw [slice_copyInto_before hdc (by decide)]
      exact slice_copyInto htag
    · rw [← hdcLen]
      exact slice_copyInto hdc
  cases fastMode with
  | false => exact hplain
  | true =>
    have hfastLen := length_fastKeyIv clientEncKey clientEncIv
    have hfast : skipLen + (fastKeyIv clientEncKey clientEncIv).length ≤ (copyInto
        (copyInto bytes protoTagPos protoTag.toBytes) dcIdxPos (i16ToLeBytes dcIdx)).length := by
      rw [hfastLen, hplain.length]
      decide
    have hend : skipLen + (fastKeyIv clientEncKey clientEncIv).length = protoTagPos := by
      rw [hfastLen]
      rfl
    refine ⟨by rw [fillNonce, if_pos rfl, length_copyInto hfast, hplain.length],
      fun i len hi => ?_, ?_, ?_, fun _ => ?_⟩
    · exact (slice_copyInto_before hfast hi).trans (hplain.start i len hi)
    · exact (slice_copyInto_after hfast hend.le).trans hplain.tag
    · exact (slice_copyInto_after hfast (hend.le.trans (by decide))).trans hplain.dc
    · rw [encKeyIv, ← hfastLen]
      exact slice_copyInto hfast

/-- The start of a nonce alone decides whether it is reserved. -/
theorem isReserved_congr {a b : List UInt8}
    (h : ∀ i len, i + len ≤ skipLen → slice a i len = slice b i len) :
    isReserved a = isReserved b := by
  have hfirst : ∀ l : List UInt8, l.getD 0 0 = (slice l 0 1).getD 0 0 := by
    intro l
    cases l <;> rfl
  rw [isReserved, isReserved, hfirst a, hfirst b, h 0 1 (by decide), h 0 4 (by decide),
    h 4 4 (by decide)]

theorem generateTgNonce_isSome (draws : List (Block UInt8 handshakeLen)) :
    (generateTgNonce protoTag dcIdx clientEncKey clientEncIv fastMode draws).isSome ↔
      ∃ d ∈ draws, isReserved d.toList = false := by
  induction draws with
  | nil => simp [generateTgNonce]
  | cons bytes draws ih =>
    rw [generateTgNonce]
    by_cases hres : isReserved bytes.toList
    · simp [hres, ih]
    · simp [hres]

theorem generateTgNonce_some {r : TgNonce} (draws : List (Block UInt8 handshakeLen))
    (h : generateTgNonce protoTag dcIdx clientEncKey clientEncIv fastMode draws = some r) :
    ∃ d ∈ draws, isReserved d.toList = false ∧
      Filled protoTag dcIdx clientEncKey clientEncIv fastMode d.toList r.nonce ∧
      r.tgEncKey = (encKeyIv r.nonce).take keyLen ∧
      r.tgEncIv = u128FromBeBytes ((encKeyIv r.nonce).drop keyLen) ∧
      r.tgDecKey = (decKeyIv r.nonce).take keyLen ∧
      r.tgDecIv = u128FromBeBytes ((decKeyIv r.nonce).drop keyLen) := by
  induction draws with
  | nil => cases h
  | cons bytes draws ih =>
    rw [generateTgNonce] at h
    split_ifs at h with hres
    · obtain ⟨d, hd, hrest⟩ := ih h
      exact ⟨d, List.mem_cons_of_mem _ hd, hrest⟩
    · obtain rfl := Option.some.inj h
      exact ⟨bytes, by simp, by simpa using hres, fillNonce_filled bytes.length_eq, rfl, rfl, rfl,
        rfl⟩

/-! ### What the peer reads -/

theorem take_encKeyIv (l : List UInt8) : (encKeyIv l).take keyLen = slice l 8 32 := by
  rw [encKeyIv, slice, List.take_take]
  rfl

theorem drop_encKeyIv (l : List UInt8) : (encKeyIv l).drop keyLen = slice l 40 16 := by
  rw [encKeyIv, slice, List.drop_take, List.drop_drop]
  rfl

variable {aes : Keystream} {nonce : List UInt8}

/-- The first 56 bytes of the message are those of the nonce. -/
theorem message_start (h : nonce.length = handshakeLen) {i len : ℕ} (hi : i + len ≤ protoTagPos) :
    slice (encryptTgNonceWithCiphers aes nonce).1 i len = slice nonce i len := by
  have hcut : ∀ l : List UInt8, slice l i len = slice (l.take protoTagPos) i len := by
    intro l
    rw [slice, slice, List.drop_take, List.take_take, min_eq_left (by omega)]
  have htake : (encryptTgNonceWithCiphers aes nonce).1.take protoTagPos = nonce.take protoTagPos := by
    refine List.take_left' ?_
    rw [List.length_take, h]
    rfl
  rw [hcut, htake, ← hcut]

/-- Decrypting the whole message gives the last eight bytes of the nonce back. -/
theorem message_decrypted (aes : Keystream) (h : nonce.length = handshakeLen) :
    (xorStream (aes ((encKeyIv nonce).take keyLen) (u128FromBeBytes ((encKeyIv nonce).drop keyLen))) 0
      (encryptTgNonceWithCiphers aes nonce).1).drop protoTagPos = nonce.drop protoTagPos := by
  have hlen : (nonce.take protoTagPos).length = protoTagPos := by
    rw [List.length_take, h]
    rfl
  simp only [encryptTgNonceWithCiphers, AesCtr.apply, AesCtr.new]
  rw [xorStream_append, List.drop_left' (by rw [length_xorStream, hlen]), hlen, drop_xorStream,
    xorStream_xorStream]

/-- Whatever is drawn: a nonce comes out as soon as a draw is not reserved, and it is not reserved
    either. Whoever takes key and IV from the message reads tag and data centre in their places and
    everything the encryptor encrypts later; the decryptor is at the start of the stream of the
    reversed key and IV, which are the client's in fast mode. The keys handed out with the nonce are
    those of the two ciphers. -/
theorem tg_handshake_understood (aes : Keystream) (protoTag : ProtoTag) (dcIdx : Int16)
    (clientEncKey : Block UInt8 keyLen) (clientEncIv : BitVec 128) (fastMode : Bool)
    (draws : List (Block UInt8 handshakeLen)) :
    ((generateTgNonce protoTag dcIdx clientEncKey clientEncIv fastMode draws).isSome ↔
      ∃ d ∈ draws, isReserved d.toList = false) ∧
    ∀ r, generateTgNonce protoTag dcIdx clientEncKey clientEncIv fastMode draws = some r →
      let message := (encryptTgNonceWithCiphers aes r.nonce).1
      let encryptor := (encryptTgNonceWithCiphers aes r.nonce).2.1
      let decryptor := (encryptTgNonceWithCiphers aes r.nonce).2.2
      let ks := aes (slice message 8 32) (u128FromBeBytes (slice message 40 16))
      let reversed := (slice message 8 48).reverse
      (r.nonce.getD 0 0 ∉ reservedNonceFirstBytes ∧ slice r.nonce 0 4 ∉ reservedNonceBeginnings ∧
        slice r.nonce 4 4 ∉ reservedNonceContinues) ∧
      (message.length = 64 ∧ slice (xorStream ks 0 message) 56 4 = protoTag.toBytes ∧
        i16FromLeBytes (slice (xorStream ks 0 message) 60 2) = dcIdx) ∧
      (encryptor = ⟨ks, 64⟩ ∧ ∀ pieces,
        xorStream ks 64 (encryptor.applyAll pieces).flatten = pieces.flatten) ∧
      decryptor = ⟨aes (reversed.take 32) (u128FromBeBytes (reversed.drop 32)), 0⟩ ∧
      (fastMode = true → reversed.take 32 = clientEncKey.toList ∧
        u128FromBeBytes (reversed.drop 32) = clientEncIv) ∧
      (aes r.tgEncKey r.tgEncIv = ks ∧ aes r.tgDecKey r.tgDecIv = decryptor.keystream) := by
  refine ⟨generateTgNonce_isSome draws, ?_⟩
  intro r hr
  obtain ⟨d, -, hres, hfilled, hek, hei, hdk, hdi⟩ := generateTgNonce_some draws hr
  have hkey : slice (encryptTgNonceWithCiphers aes r.nonce).1 8 32 = _ :=
    message_start hfilled.length (by decide)
  have hiv : slice (encryptTgNonceWithCiphers aes r.nonce).1 40 16 = _ :=
    message_start hfilled.length (by decide)
  have hboth : slice (encryptTgNonceWithCiphers aes r.nonce).1 8 48 = _ :=
    message_start hfilled.length (by decide)
  have hplain := message_decrypted aes hfilled.length
  rw [take_encKeyIv, drop_encKeyIv] at hplain
  intro message encryptor decryptor ks reversed
  have hks : ks = aes (slice r.nonce 8 32) (u128FromBeBytes (slice r.nonce 40 16)) :=
    congrArg₂ aes hkey (congrArg u128FromBeBytes hiv)
  have hrev : reversed = decKeyIv r.nonce := congrArg List.reverse hboth
  have henc : encryptor = ⟨ks, 64⟩ := by
    simp only [encryptor, encryptTgNonceWithCiphers, AesCtr.apply, AesCtr.new, hfilled.length,
      take_encKeyIv, drop_encKeyIv, hks]
    rfl
  refine ⟨?_, ⟨?_, ?_, ?_⟩, ⟨henc, fun pieces => ?_⟩, ?_, fun hfast => ?_, ?_, ?_⟩
  · rw [← isReserved_congr hfilled.start] at hres
    simpa [isReserved, and_assoc] using hres
  · simp only [message, encryptTgNonceWithCiphers, List.length_append, List.length_take,
      List.length_drop, AesCtr.apply, length_xorStream, hfilled.length]
    rfl
  · rw [hks, ← hfilled.tag]
    exact congrArg (List.take 4) hplain
  · have hdc : slice (xorStream ks 0 message) 60 2 = slice r.nonce dcIdxPos 2 := by
      have hdrop := congrArg (List.drop 4) hplain
      rw [List.drop_drop, List.drop_drop] at hdrop
      rw [hks]
      exact congrArg (List.take 2) hdrop
    rw [hdc, hfilled.dc, i16FromLeBytes_toLeBytes]
  · have hdecrypt := encryptor.applyAll_decrypt pieces
    rwa [henc] at hdecrypt ⊢
  · simp only [decryptor, encryptTgNonceWithCiphers, AesCtr.new, hrev]
    rfl
  · have hfastKey : reversed = clientEncKey.toList ++ u128ToBeBytes clientEncIv := by
      rw [hrev, decKeyIv, hfilled.fast hfast, fastKeyIv, List.reverse_reverse]
    have hlen : clientEncKey.toList.length = 32 := clientEncKey.length_eq
    rw [hfastKey, List.take_left' hlen, List.drop_left' hlen]
    exact ⟨rfl, u128FromBeBytes_toBeBytes clientEncIv⟩
  · rw [hek, hei, take_encKeyIv, drop_encKeyIv, hks]
  · rw [hdk, hdi]
    rfl

end

end MtProxy.Proxy
