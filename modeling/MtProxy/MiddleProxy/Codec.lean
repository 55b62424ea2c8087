import MtProxy.Crypto.Cbc
import MtProxy.Schemes.Bytes

/-! The RPC frames of a Middle-End connection: length, sequence number, payload and checksum, all
    little-endian, padded to whole cipher blocks with the filler `04 00 00 00` and encrypted with an
    IV that is carried from message to message.

    `RpcWriter` is the sending side. `sendAll_wire` says that the concatenated output of a sequence
    of sends decrypts, as one CBC stream, to the padded frames one after the other. -/

namespace MtProxy.MiddleProxy
open Crypto Schemes

inductive RpcChecksumMode where
  | crc32
  | crc32c
  deriving DecidableEq

/-- `rpc_crc`: the checksum of each mode. -/
abbrev RpcCrc := RpcChecksumMode → List UInt8 → UInt32

/-- `i32::to_le_bytes`. -/
def i32Bytes (n : Int32) : List UInt8 := leBytes 4 n.toBitVec.toNat

/-- `i32::from_le_bytes`. -/
def i32Val (bs : List UInt8) : Int32 := ⟨⟨BitVec.ofNat 32 (leVal bs)⟩⟩

@[simp] theorem i32Val_i32Bytes (n : Int32) : i32Val (i32Bytes n) = n := by
  have h : leVal (leBytes 4 n.toBitVec.toNat) = n.toBitVec.toNat :=
    leVal_leBytes_of_lt n.toBitVec.isLt
  rw [i32Val, i32Bytes, h, BitVec.ofNat_toNat, BitVec.setWidth_eq]
  rfl

/-- Length, sequence number and payload: the part of a frame the checksum covers. -/
def frameBody (seqNo : Int32) (payload : List UInt8) : List UInt8 :=
  leBytes 4 (4 + 4 + payload.length + 4) ++ i32Bytes seqNo ++ payload

def buildRpcFrame (crc : RpcCrc) (seqNo : Int32) (payload : List UInt8) (crcMode : RpcChecksumMode) :
    List UInt8 :=
  frameBody seqNo payload ++ leBytes 4 (crc crcMode (frameBody seqNo payload)).toNat

@[simp] theorem length_frameBody (seqNo : Int32) (payload : List UInt8) :
    (frameBody seqNo payload).length = 8 + payload.length := by
  simp [frameBody, i32Bytes]
  omega

@[simp] theorem length_buildRpcFrame (crc : RpcCrc) (seqNo : Int32) (payload : List UInt8)
    (crcMode : RpcChecksumMode) :
    (buildRpcFrame crc seqNo payload crcMode).length = payload.length + 12 := by
  simp [buildRpcFrame]
  omega

/-- `pad_pattern`. -/
def padPattern : List UInt8 := [0x04, 0x00, 0x00, 0x00]

/-- The `n` filler bytes `pad_pattern[i % 4]` for `i < n`. -/
def fillers (n : ℕ) : List UInt8 := (List.range n).map (fun i => padPattern.getD (i % 4) 0)

/-- Fill a frame up to whole cipher blocks. -/
def padFrame (frame : List UInt8) : List UInt8 :=
  frame ++ fillers ((blockSize - frame.length % blockSize) % blockSize)

@[simp] theorem length_fillers (n : ℕ) : (fillers n).length = n := by simp [fillers]

theorem fillers_four (n : ℕ) : fillers (n + 4) = padPattern ++ fillers n := by
  simp only [fillers, Nat.add_comm n 4, List.range_add, List.map_append, List.map_map]
  have hhead : (List.range 4).map (fun i => padPattern.getD (i % 4) 0) = padPattern := by decide
  rw [hhead]
  congr 1
  refine List.map_congr_left fun i _ => ?_
  simp [Nat.add_mod_left]

theorem padFrame_aligned (frame : List UInt8) : blockSize ∣ (padFrame frame).length := by
  rw [padFrame, List.length_append, length_fillers]
  simp only [blockSize]
  omega

/-- The sending half of a Middle-End connection. -/
structure RpcWriter where
  key : AesKey
  iv : AesBlock
  seqNo : Int32
  crcMode : RpcChecksumMode

/-- `send`: the bytes handed to the socket and the writer afterwards. -/
def RpcWriter.send (aes : BlockCipher) (crc : RpcCrc) (w : RpcWriter) (payload : List UInt8) :
    Except ProxyError (List UInt8 × RpcWriter) :=
  let buf := padFrame (buildRpcFrame crc w.seqNo payload w.crcMode)
  match AesCbc.encryptInPlace aes ⟨w.key, w.iv⟩ buf with
  | .error (.crypto e) => .error (.crypto s!"Crypto error: {e}")
  | .error e => .error e
  | .ok buf => .ok (buf, { w with seqNo := w.seqNo + 1, iv := lastBlock w.iv buf })

/-- The socket bytes of a sequence of sends. -/
def RpcWriter.sendAll (aes : BlockCipher) (crc : RpcCrc) :
    RpcWriter → List (List UInt8) → Except ProxyError (List UInt8 × RpcWriter)
  | w, [] => .ok ([], w)
  | w, p :: ps => do
    let (bs, w) ← w.send aes crc p
    let (rest, w) ← w.sendAll aes crc ps
    return (bs ++ rest, w)

/-- The padded frames of a list of payloads, numbered from `seqNo` on. -/
def framesFrom (crc : RpcCrc) (mode : RpcChecksumMode) : Int32 → List (List UInt8) → List UInt8
  | _, [] => []
  | seqNo, p :: ps => padFrame (buildRpcFrame crc seqNo p mode) ++ framesFrom crc mode (seqNo + 1) ps

theorem framesFrom_aligned (crc : RpcCrc) (mode : RpcChecksumMode) (seqNo : Int32)
    (ps : List (List UInt8)) : blockSize ∣ (framesFrom crc mode seqNo ps).length := by
  induction ps generalizing seqNo with
  | nil => simp [framesFrom]
  | cons p ps ih =>
    rw [framesFrom, List.length_append]
    exact dvd_add (padFrame_aligned _) (ih _)

section
variable (aes : BlockCipher) (crc : RpcCrc)

/-- One send encrypts the padded frame and chains the IV to it. -/
theorem send_ok (w : RpcWriter) (p : List UInt8) :
    ∃ bs, AesCbc.encryptInPlace aes ⟨w.key, w.iv⟩ (padFrame (buildRpcFrame crc w.seqNo p w.crcMode)) =
        .ok bs ∧
      w.send aes crc p = .ok (bs, { w with seqNo := w.seqNo + 1, iv := lastBlock w.iv bs }) := by
  obtain ⟨bs, hbs, -, -⟩ := encryptInPlace_ok aes w.key w.iv
    (padFrame_aligned (buildRpcFrame crc w.seqNo p w.crcMode))
  exact ⟨bs, hbs, by simp only [RpcWriter.send, hbs]⟩

/-- A sequence of sends never fails and encrypts the frames as one CBC stream. -/
theorem sendAll_wire (ps : List (List UInt8)) (w : RpcWriter) :
    ∃ bs w', w.sendAll aes crc ps = .ok (bs, w') ∧
      AesCbc.encryptInPlace aes ⟨w.key, w.iv⟩ (framesFrom crc w.crcMode w.seqNo ps) = .ok bs := by
  induction ps generalizing w with
  | nil =>
    exact ⟨[], w, rfl, by simp [AesCbc.encryptInPlace, framesFrom, toBlocks, blocksAux, cbcEnc]⟩
  | cons p ps ih =>
    obtain ⟨bs, henc, hsend⟩ := send_ok aes crc w p
    obtain ⟨rest, w', hall, hrest⟩ :=
      ih { w with seqNo := w.seqNo + 1, iv := lastBlock w.iv bs }
    refine ⟨bs ++ rest, w', ?_, ?_⟩
    · simp only [RpcWriter.sendAll, hsend, hall, bind, Except.bind, pure, Except.pure]
    · exact encryptInPlace_append aes _ _ (padFrame_aligned _) (framesFrom_aligned crc _ _ ps) henc hrest

end

end MtProxy.MiddleProxy
