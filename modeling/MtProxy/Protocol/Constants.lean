import MtProxy.Schemes.Bytes

/-! The part of `protocol/constants.rs` that the client framings and the handshakes share: the
    protocol tags, the layout of the 64-byte handshake and the padding rule of the Secure framing.

        handshake   skip 8 │ key 32 │ iv 16 │ tag 4 │ dc 2 │ 2 more
                    0       8        40      56      60     62 -/

namespace MtProxy
open Schemes

inductive ProtoTag where
  | abridged | intermediate | secure
  deriving DecidableEq

namespace ProtoTag

/-- The discriminants of the enumeration. -/
def toU32 : ProtoTag → ℕ
  | .abridged => 0xefefefef
  | .intermediate => 0xeeeeeeee
  | .secure => 0xdddddddd

def fromBytes (bytes : List UInt8) : Option ProtoTag :=
  if leVal bytes = 0xefefefef then some .abridged
  else if leVal bytes = 0xeeeeeeee then some .intermediate
  else if leVal bytes = 0xdddddddd then some .secure
  else none

def toBytes (tag : ProtoTag) : List UInt8 := leBytes 4 tag.toU32

@[simp] theorem length_toBytes (tag : ProtoTag) : tag.toBytes.length = 4 := length_leBytes 4 _

@[simp] theorem fromBytes_toBytes (tag : ProtoTag) : fromBytes tag.toBytes = some tag := by
  cases tag <;> decide

end ProtoTag

/-- `usize::MAX` on a 64-bit target. -/
def usizeMax : ℕ := 2 ^ 64 - 1

/-! ### Handshake layout -/

def skipLen : ℕ := 8
def prekeyLen : ℕ := 32
def keyLen : ℕ := 32
def ivLen : ℕ := 16
def handshakeLen : ℕ := 64
def protoTagPos : ℕ := 56
def dcIdxPos : ℕ := 60

/-! ### The Secure framing -/

/-- What `SecureRandom` answers during one call: a number below a bound, and fresh bytes. -/
structure SecureRandom where
  range : ℕ → ℕ
  bytes : ℕ → List UInt8
  range_lt : ∀ max, 0 < max → range max < max
  length_bytes : ∀ len, (bytes len).length = len

def isValidSecurePayloadLen (dataLen : ℕ) : Bool := dataLen % 4 == 0

def securePayloadLenFromWireLen (wireLen : ℕ) : Option ℕ :=
  if wireLen < 4 then none else some (wireLen - wireLen % 4)

/-- One to three bytes of padding, so that the total is never a multiple of 4. -/
def securePaddingLen (rng : SecureRandom) : ℕ := rng.range 3 + 1

theorem securePaddingLen_pos (rng : SecureRandom) : 0 < securePaddingLen rng := Nat.succ_pos _

theorem securePaddingLen_le (rng : SecureRandom) : securePaddingLen rng ≤ 3 :=
  rng.range_lt 3 (by decide)

theorem isValidSecurePayloadLen_iff {n : ℕ} : isValidSecurePayloadLen n = true ↔ 4 ∣ n := by
  rw [isValidSecurePayloadLen, beq_iff_eq, Nat.dvd_iff_mod_eq_zero]

end MtProxy
