import MtProxy.Protocol.Constants
import MtProxy.Schemes.Cbc

/-! `validate_tls_handshake`: whether a ClientHello was made with the secret of some user, and when.

        ClientHello   11 bytes │ digest 32 │ session id length │ session id │ ⋯
        digest        HMAC of the hello with a zeroed digest, its last four bytes
                      XORed with the client's clock

    The clock has to agree with ours, with 20 minutes in one direction and 10 in the other, unless
    it is so small that it must count from the boot of the device. -/

namespace MtProxy.Protocol
open Schemes

def tlsDigestLen : ℕ := 32
def tlsDigestPos : ℕ := 11
def tlsDigestHalfLen : ℕ := 16

/-- In seconds. -/
def timeSkewMin : ℤ := -20 * 60
def timeSkewMax : ℤ := 10 * 60

structure TlsValidation where
  user : String
  sessionId : List UInt8
  digest : List UInt8
  timestamp : ℕ

/-- The digest of a ClientHello. -/
def digestOf (handshake : List UInt8) : List UInt8 := slice handshake tlsDigestPos tlsDigestLen

/-- The ClientHello with a zeroed digest. -/
def hmacMessage (handshake : List UInt8) : List UInt8 :=
  copyInto handshake tlsDigestPos (List.replicate tlsDigestLen 0)

/-- Very small timestamps count from boot. -/
def isBootTime (timestamp : ℕ) : Bool := decide (timestamp < 60 * 60 * 24 * 1000)

def timeOk (ignoreTimeSkew : Bool) (now : ℤ) (timestamp : ℕ) : Bool :=
  ignoreTimeSkew || isBootTime timestamp ||
    decide (timeSkewMin ≤ now - timestamp ∧ now - timestamp ≤ timeSkewMax)

theorem timeOk_iff {now : ℤ} {timestamp : ℕ} (hboot : isBootTime timestamp = false) :
    timeOk false now timestamp = true ↔
      timeSkewMin ≤ now - timestamp ∧ now - timestamp ≤ timeSkewMax := by
  rw [timeOk, hboot, Bool.false_or, Bool.false_or, decide_eq_true_eq]

section
variable (sha256Hmac : List UInt8 → List UInt8 → Block UInt8 tlsDigestLen)

/-- The timestamp in the digest, if the first 28 bytes are those of the HMAC under this secret. -/
def timestampUnder (handshake secret : List UInt8) : Option ℕ :=
  let computed := sha256Hmac secret (hmacMessage handshake)
  let xored := List.zipWith (· ^^^ ·) (digestOf handshake) computed.toList
  if (xored.take 28).all (· == 0) then some (leVal (slice xored 28 4)) else none

/-- The loop over the secrets: the first user whose secret fits at this time. -/
def findUser (handshake : List UInt8) (ignoreTimeSkew : Bool) (now : ℤ) :
    List (String × List UInt8) → Option (String × ℕ)
  | [] => none
  | (user, secret) :: secrets =>
    match timestampUnder sha256Hmac handshake secret with
    | none => findUser handshake ignoreTimeSkew now secrets
    | some timestamp =>
      if timeOk ignoreTimeSkew now timestamp then some (user, timestamp)
      else findUser handshake ignoreTimeSkew now secrets

/-- `now` is the wall clock in whole seconds since 1970. It is any integer here; before 1970 the source
    does not get as far as the secrets, it panics. -/
def validateTlsHandshake (handshake : List UInt8) (secrets : List (String × List UInt8))
    (ignoreTimeSkew : Bool) (now : ℤ) : Option TlsValidation :=
  let sessionIdLenPos := tlsDigestPos + tlsDigestLen
  if handshake.length < sessionIdLenPos + 1 then none
  else
    let sessionIdLen := (handshake.getD sessionIdLenPos 0).toNat
    let sessionIdStart := sessionIdLenPos + 1
    if handshake.length < sessionIdStart + sessionIdLen then none
    else
      (findUser sha256Hmac handshake ignoreTimeSkew now secrets).map fun found =>
        { user := found.1
          sessionId := slice handshake sessionIdStart sessionIdLen
          digest := digestOf handshake
          timestamp := found.2 }

end

section
variable {sha256Hmac : List UInt8 → List UInt8 → Block UInt8 tlsDigestLen} {handshake : List UInt8}
  {ignoreTimeSkew : Bool} {now : ℤ}

theorem eq_of_xor_zero {a b : List UInt8} (hlen : a.length = b.length)
    (h : (List.zipWith (· ^^^ ·) a b).all (· == 0) = true) : a = b := by
  induction a generalizing b with
  | nil => exact (List.length_eq_zero_iff.mp hlen.symm).symm
  | cons x a ih =>
    cases b with
    | nil => cases hlen
    | cons y b =>
      rw [List.zipWith_cons_cons, List.all_cons, Bool.and_eq_true, beq_iff_eq,
        UInt8.xor_eq_zero_iff] at h
      rw [h.1, ih (Nat.succ.inj hlen) h.2]

/-- Under a secret that fits, the digest starts as the HMAC does. -/
theorem timestampUnder_some {secret : List UInt8} {timestamp : ℕ}
    (hlen : tlsDigestPos + tlsDigestLen ≤ handshake.length)
    (h : timestampUnder sha256Hmac handshake secret = some timestamp) :
    (digestOf handshake).take 28 = (sha256Hmac secret (hmacMessage handshake)).toList.take 28 := by
  have hdigest : (digestOf handshake).length = tlsDigestLen := by
    rw [digestOf, length_slice]
    omega
  unfold timestampUnder at h
  simp only at h
  split_ifs at h with hzero
  rw [List.take_zipWith] at hzero
  refine eq_of_xor_zero ?_ hzero
  rw [List.length_take, List.length_take, hdigest, Block.length_eq]

theorem findUser_some {user : String} {timestamp : ℕ} {secrets : List (String × List UInt8)}
    (h : findUser sha256Hmac handshake ignoreTimeSkew now secrets = some (user, timestamp)) :
    timeOk ignoreTimeSkew now timestamp = true ∧ ∃ secret, (user, secret) ∈ secrets ∧
      timestampUnder sha256Hmac handshake secret = some timestamp := by
  induction secrets with
  | nil => cases h
  | cons first secrets ih =>
    obtain ⟨name, secret⟩ := first
    have hrest : findUser sha256Hmac handshake ignoreTimeSkew now secrets = some (user, timestamp) →
        timeOk ignoreTimeSkew now timestamp = true ∧
          ∃ secret', (user, secret') ∈ (name, secret) :: secrets ∧
            timestampUnder sha256Hmac handshake secret' = some timestamp := by
      intro h
      obtain ⟨htime, secret', hmem, hts⟩ := ih h
      exact ⟨htime, secret', List.mem_cons_of_mem _ hmem, hts⟩
    rw [findUser] at h
    cases hts : timestampUnder sha256Hmac handshake secret with
    | none =>
      rw [hts] at h
      exact hrest h
    | some ts =>
      simp only [hts] at h
      split_ifs at h with htime
      · obtain ⟨rfl, rfl⟩ := Prod.ext_iff.mp (Option.some.inj h)
        exact ⟨htime, secret, List.mem_cons_self, hts⟩
      · exact hrest h

/-- A hello is only accepted with the secret of a user and a timestamp that suits the clock. -/
theorem validateTlsHandshake_some {secrets : List (String × List UInt8)}
    (h : (validateTlsHandshake sha256Hmac handshake secrets ignoreTimeSkew now).isSome = true) :
    tlsDigestPos + tlsDigestLen < handshake.length ∧
      ∃ timestamp, timeOk ignoreTimeSkew now timestamp = true ∧ ∃ secret ∈ secrets.map Prod.snd,
        timestampUnder sha256Hmac handshake secret = some timestamp := by
  unfold validateTlsHandshake at h
  simp only at h
  split_ifs at h with hshort hid
  · simp at h
  · simp at h
  · rw [Option.isSome_map] at h
    obtain ⟨⟨user, timestamp⟩, hfound⟩ := Option.isSome_iff_exists.mp h
    obtain ⟨htime, secret, hmem, hts⟩ := findUser_some hfound
    exact ⟨by omega, timestamp, htime, secret, List.mem_map.mpr ⟨_, hmem, rfl⟩, hts⟩

end

end MtProxy.Protocol
