import MtProxy.Schemes.Bytes
import MtProxy.Stream.Poll

/-! TLS record headers as FakeTLS uses them: five bytes of type, version and big-endian length, the
    checks `validate` makes on a parsed header, and the ApplicationData record around a chunk.
    A chunk of at most `MAX_TLS_PAYLOAD` bytes gives a record whose length field is exact and whose
    header passes `validate`. -/

namespace MtProxy.Stream
open Schemes

def tlsVersion : UInt8 × UInt8 := (0x03, 0x03)
def tlsRecordHandshake : UInt8 := 0x16
def tlsRecordChangeCipher : UInt8 := 0x14
def tlsRecordApplication : UInt8 := 0x17
def tlsRecordAlert : UInt8 := 0x15
def maxTlsChunkSize : ℕ := 16384 + 256
def tlsHeaderSize : ℕ := 5
/-- Largest fragment emitted as ApplicationData. -/
def maxTlsPayload : ℕ := 16384 + 256

/-- Two hexadecimal digits, as `{:02x}` prints a byte. -/
def hexByte (b : UInt8) : String :=
  String.ofList [Nat.digitChar (b.toNat / 16), Nat.digitChar (b.toNat % 16)]

structure TlsRecordHeader where
  recordType : UInt8
  version : UInt8 × UInt8
  length : UInt16
  deriving DecidableEq

namespace TlsRecordHeader

/-- `parse` of exactly five bytes; it never fails on them. -/
def parse : List UInt8 → Option TlsRecordHeader
  | [t, v₀, v₁, l₀, l₁] => some ⟨t, (v₀, v₁), UInt16.ofNat (beVal [l₀, l₁])⟩
  | _ => none

/-- Five bytes always parse. -/
theorem parse_isSome {bs : List UInt8} (h : bs.length = tlsHeaderSize) : (parse bs).isSome := by
  match bs, h with
  | [_, _, _, _, _], _ => rfl

def validate (h : TlsRecordHeader) : Except IoError Unit :=
  let v₀ := hexByte h.version.1
  let v₁ := hexByte h.version.2
  let len := h.length.toNat
  if h.version ≠ (0x03, 0x01) ∧ h.version ≠ tlsVersion then
    .error ⟨.invalidData, s!"Invalid TLS version: [{v₀}, {v₁}]"⟩
  else if h.recordType = tlsRecordApplication then
    if maxTlsChunkSize < len then
      .error ⟨.invalidData, s!"TLS record too large: {len} bytes (max {maxTlsChunkSize})"⟩
    else .ok ()
  else if maxTlsPayload < len then
    .error ⟨.invalidData, s!"TLS control record too large: {len} bytes (max {maxTlsPayload})"⟩
  else .ok ()

def toBytes (h : TlsRecordHeader) : List UInt8 :=
  [h.recordType, h.version.1, h.version.2, (h.length >>> 8).toUInt8, h.length.toUInt8]

@[simp] theorem length_toBytes (h : TlsRecordHeader) : h.toBytes.length = tlsHeaderSize := rfl

/-- Parsing undoes building. -/
theorem parse_toBytes (h : TlsRecordHeader) : parse h.toBytes = some h := by
  have hlen : beVal [(h.length >>> 8).toUInt8, h.length.toUInt8] = h.length.toNat := by
    have hlt : h.length.toNat < 65536 := h.length.toNat_lt
    have hshift : UInt16.toNat 8 % 16 = 8 := rfl
    simp only [beVal, List.reverse_cons, List.reverse_nil, List.nil_append, List.cons_append, leVal,
      UInt16.toNat_toUInt8, UInt16.toNat_shiftRight, Nat.shiftRight_eq_div_pow, hshift]
    omega
  simp [toBytes, parse, hlen]

end TlsRecordHeader

/-- The header of an ApplicationData record around `data`. -/
def applicationHeader (data : List UInt8) : TlsRecordHeader where
  recordType := tlsRecordApplication
  version := tlsVersion
  length := UInt16.ofNat data.length

/-- `build_record`: header and payload of one ApplicationData record. -/
def buildRecord (data : List UInt8) : List UInt8 := (applicationHeader data).toBytes ++ data

@[simp] theorem length_buildRecord (data : List UInt8) :
    (buildRecord data).length = tlsHeaderSize + data.length := by simp [buildRecord]

/-- The 16-bit length field of a record within the payload bound is exact. -/
theorem applicationHeader_length {data : List UInt8} (h : data.length ≤ maxTlsPayload) :
    (applicationHeader data).length.toNat = data.length := by
  rw [maxTlsPayload] at h
  simp only [applicationHeader, UInt16.toNat_ofNat']
  omega

theorem applicationHeader_validate {data : List UInt8} (h : data.length ≤ maxTlsPayload) :
    (applicationHeader data).validate = .ok () := by
  have hlen := applicationHeader_length h
  have hmax : ¬ maxTlsChunkSize < data.length := by simpa [maxTlsChunkSize, maxTlsPayload] using h
  unfold TlsRecordHeader.validate
  simp only [hlen, if_neg hmax]
  simp [applicationHeader]

end MtProxy.Stream
