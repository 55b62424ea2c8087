import MtProxy.Error
import MtProxy.Schemes.Cbc

/-! AES-256-CBC over byte strings. The AES core is a parameter of which only one thing is known: block
    decryption inverts block encryption. `decryptInPlace_append` and `encryptInPlace_append` say
    that a stream may be processed in block-aligned pieces, each chained to the last cipher block of
    the piece before it, as `RpcWriter` and `reader_loop` do. -/

namespace MtProxy.Crypto
open Schemes

/-- `AesCbc::BLOCK_SIZE`. -/
def blockSize : ℕ := 16

abbrev AesBlock := Block UInt8 blockSize
abbrev AesKey := Block UInt8 32

/-- `aes::Aes256` under its key schedule. -/
structure BlockCipher where
  encryptBlock : AesKey → AesBlock → AesBlock
  decryptBlock : AesKey → AesBlock → AesBlock
  decrypt_encrypt : ∀ key b, decryptBlock key (encryptBlock key b) = b

def xorBlocks (a b : AesBlock) : AesBlock :=
  ⟨List.zipWith (· ^^^ ·) a.toList b.toList, by rw [List.length_zipWith, a.length_eq, b.length_eq]; simp⟩

theorem zipWith_xor_cancel {a b : List UInt8} (h : a.length = b.length) :
    List.zipWith (· ^^^ ·) (List.zipWith (· ^^^ ·) a b) b = a := by
  induction a generalizing b with
  | nil => rfl
  | cons x a ih =>
    cases b with
    | nil => cases h
    | cons y b =>
      simp only [List.zipWith_cons_cons, ih (Nat.succ.inj h), UInt8.xor_assoc, UInt8.xor_self,
        UInt8.xor_zero]

theorem xorBlocks_cancel (a b : AesBlock) : xorBlocks (xorBlocks a b) b = a := by
  ext1
  exact zipWith_xor_cancel (a.length_eq.trans b.length_eq.symm)

structure AesCbc where
  key : AesKey
  iv : AesBlock

/-- The refusal of a slice that is not a whole number of blocks. -/
def alignmentError (len : ℕ) : ProxyError :=
  .crypto s!"CBC data must be aligned to 16 bytes, got {len}"

namespace AesCbc
variable (aes : BlockCipher)

/-- `encrypt_in_place`: block by block, each XORed with the cipher block before it. -/
def encryptInPlace (c : AesCbc) (data : List UInt8) : Except ProxyError (List UInt8) :=
  if data.length % blockSize ≠ 0 then .error (alignmentError data.length)
  else .ok (ofBlocks (cbcEnc xorBlocks (aes.encryptBlock c.key) c.iv (toBlocks blockSize data)))

/-- `decrypt_in_place`. -/
def decryptInPlace (c : AesCbc) (data : List UInt8) : Except ProxyError (List UInt8) :=
  if data.length % blockSize ≠ 0 then .error (alignmentError data.length)
  else .ok (ofBlocks (cbcDec xorBlocks (aes.decryptBlock c.key) c.iv (toBlocks blockSize data)))

end AesCbc

theorem decryptInPlace_nil (aes : BlockCipher) (c : AesCbc) :
    AesCbc.decryptInPlace aes c [] = .ok [] := rfl

/-- The last 16 bytes, from which the next piece is chained; the old IV when there are fewer. -/
def lastBlock (iv : AesBlock) (data : List UInt8) : AesBlock :=
  if h : blockSize ≤ data.length then
    ⟨data.drop (data.length - blockSize), by rw [List.length_drop]; omega⟩
  else iv

theorem lastBlock_ofBlocks (iv : AesBlock) (bs : List AesBlock) :
    lastBlock iv (ofBlocks bs) = bs.getLastD iv := by
  rcases List.eq_nil_or_concat bs with rfl | ⟨as, b, rfl⟩
  · rw [lastBlock, dif_neg (by decide), List.getLastD_nil]
  · rw [List.concat_eq_append]
    have hlen : blockSize ≤ (ofBlocks (as ++ [b])).length := by
      rw [length_ofBlocks, List.length_append, List.length_singleton, Nat.mul_succ]
      omega
    rw [lastBlock, dif_pos hlen]
    ext1
    rw [List.getLastD_eq_getLast?, List.getLast?_concat, Option.getD_some]
    exact drop_ofBlocks as b

theorem blockSize_pos : 0 < blockSize := by decide

section
variable (aes : BlockCipher) (key : AesKey) (iv : AesBlock) {a b : List UInt8}

theorem encryptInPlace_aligned (ha : blockSize ∣ a.length) :
    AesCbc.encryptInPlace aes ⟨key, iv⟩ a =
      .ok (ofBlocks (cbcEnc xorBlocks (aes.encryptBlock key) iv (toBlocks blockSize a))) :=
  if_neg (by simpa using Nat.mod_eq_zero_of_dvd ha)

theorem decryptInPlace_aligned (ha : blockSize ∣ a.length) :
    AesCbc.decryptInPlace aes ⟨key, iv⟩ a =
      .ok (ofBlocks (cbcDec xorBlocks (aes.decryptBlock key) iv (toBlocks blockSize a))) :=
  if_neg (by simpa using Nat.mod_eq_zero_of_dvd ha)

theorem aligned_append (ha : blockSize ∣ a.length) (hb : blockSize ∣ b.length) :
    blockSize ∣ (a ++ b).length := by
  rw [List.length_append]
  exact dvd_add ha hb

/-- Encryption of block-aligned data, with its length and what it ends with. -/
theorem encryptInPlace_ok (ha : blockSize ∣ a.length) :
    ∃ c, AesCbc.encryptInPlace aes ⟨key, iv⟩ a = .ok c ∧ c.length = a.length ∧
      AesCbc.decryptInPlace aes ⟨key, iv⟩ c = .ok a := by
  have hlen : (ofBlocks (cbcEnc xorBlocks (aes.encryptBlock key) iv (toBlocks blockSize a))).length =
      a.length := by
    rw [length_ofBlocks, length_cbcEnc, ← length_ofBlocks, ofBlocks_toBlocks blockSize_pos ha]
  refine ⟨_, encryptInPlace_aligned aes key iv ha, hlen, ?_⟩
  rw [decryptInPlace_aligned aes key iv (hlen.symm ▸ ha), toBlocks_ofBlocks blockSize_pos,
    cbcDec_cbcEnc _ _ _ (aes.decrypt_encrypt key) xorBlocks_cancel,
    ofBlocks_toBlocks blockSize_pos ha]

theorem encryptInPlace_append {ca cb : List UInt8} (ha : blockSize ∣ a.length)
    (hb : blockSize ∣ b.length) (hca : AesCbc.encryptInPlace aes ⟨key, iv⟩ a = .ok ca)
    (hcb : AesCbc.encryptInPlace aes ⟨key, lastBlock iv ca⟩ b = .ok cb) :
    AesCbc.encryptInPlace aes ⟨key, iv⟩ (a ++ b) = .ok (ca ++ cb) := by
  rw [encryptInPlace_aligned aes key iv ha] at hca
  rw [encryptInPlace_aligned aes key _ hb] at hcb
  obtain rfl := Except.ok.inj hca
  obtain rfl := Except.ok.inj hcb
  rw [encryptInPlace_aligned aes key iv (aligned_append ha hb), toBlocks_append blockSize_pos ha hb,
    cbcEnc_append, ofBlocks_append, lastBlock_ofBlocks]

theorem length_decryptInPlace {p : List UInt8}
    (h : AesCbc.decryptInPlace aes ⟨key, iv⟩ a = .ok p) : p.length = a.length := by
  rw [AesCbc.decryptInPlace] at h
  split_ifs at h with hmod
  obtain rfl := Except.ok.inj h
  have hdvd : blockSize ∣ a.length := Nat.dvd_of_mod_eq_zero (not_not.mp hmod)
  rw [length_ofBlocks, length_cbcDec, ← length_ofBlocks, ofBlocks_toBlocks blockSize_pos hdvd]

/-- Decryption of two aligned pieces, the second chained to the first. -/
theorem decryptInPlace_append (ha : blockSize ∣ a.length) (hb : blockSize ∣ b.length) :
    ∃ pa pb, AesCbc.decryptInPlace aes ⟨key, iv⟩ a = .ok pa ∧
      AesCbc.decryptInPlace aes ⟨key, lastBlock iv a⟩ b = .ok pb ∧
      AesCbc.decryptInPlace aes ⟨key, iv⟩ (a ++ b) = .ok (pa ++ pb) := by
  have hlast : lastBlock iv a = (toBlocks blockSize a).getLastD iv := by
    conv_lhs => rw [← ofBlocks_toBlocks blockSize_pos ha]
    exact lastBlock_ofBlocks _ _
  refine ⟨_, _, decryptInPlace_aligned aes key iv ha, decryptInPlace_aligned aes key _ hb, ?_⟩
  rw [decryptInPlace_aligned aes key iv (aligned_append ha hb), toBlocks_append blockSize_pos ha hb,
    cbcDec_append, ofBlocks_append, hlast]

/-- The whole blocks of a buffer can be decrypted before the rest of the stream is there. -/
theorem decryptInPlace_front {buf rest p : List UInt8} {n : ℕ} (hn : n = buf.length / 16 * 16)
    (haligned : blockSize ∣ (buf ++ rest).length)
    (hp : AesCbc.decryptInPlace aes ⟨key, iv⟩ (buf ++ rest) = .ok p) :
    ∃ pa pb, AesCbc.decryptInPlace aes ⟨key, iv⟩ (buf.take n) = .ok pa ∧
      AesCbc.decryptInPlace aes ⟨key, lastBlock iv (buf.take n)⟩ (buf.drop n ++ rest) = .ok pb ∧
      blockSize ∣ (buf.drop n ++ rest).length ∧ p = pa ++ pb := by
  have hsplit : buf ++ rest = buf.take n ++ (buf.drop n ++ rest) := by
    rw [← List.append_assoc, List.take_append_drop]
  have ha : blockSize ∣ (buf.take n).length := by
    rw [List.length_take]
    simp only [blockSize]
    omega
  have hb : blockSize ∣ (buf.drop n ++ rest).length := by
    rw [hsplit, List.length_append] at haligned
    exact (Nat.dvd_add_right ha).mp haligned
  obtain ⟨pa, pb, hpa, hpb, hpab⟩ := decryptInPlace_append aes key iv ha hb
  rw [hsplit, hpab] at hp
  exact ⟨pa, pb, hpa, hpb, hb, (Except.ok.inj hp).symm⟩

end

end MtProxy.Crypto
