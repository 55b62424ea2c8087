import MtProxy.Crypto.Cbc
import MtProxy.Schemes.Decode

/-! The four loops of `AesCbc` as they stand. Two walk over the pieces of the input and collect a
    result, two overwrite their buffer block by block; nothing on the right is an access out of range.

        encrypt  decrypt                    copyRounds  ┐
                                                        ├─ one recurrence (`Crypto.Cbc`)
        encrypt_in_place  decrypt_in_place  foldlM      ┘

    `decrypt_in_place` saves the cipher block it is about to overwrite. `encrypt_eq` and its three
    siblings say that all of them compute the recurrence, on data of every length. -/

namespace MtProxy.Crypto
open Schemes

/-! ### XOR into a buffer -/

/-- `for j in 0..BLOCK_SIZE { block[j] ^= prev_ciphertext[j]; }`, `block` being `data[i..i + 16]`. -/
def xorInto (data : List UInt8) (i : ℕ) (prev : AesBlock) : List UInt8 :=
  (List.range blockSize).foldl
    (fun data j => data.modify (i + j) (· ^^^ prev.toList.getD j 0)) data

theorem getElem?_foldl_modify (f : ℕ → UInt8 → UInt8) (i n m : ℕ) (data : List UInt8) :
    ((List.range n).foldl (fun data j => data.modify (i + j) (f j)) data)[m]? =
      if i ≤ m ∧ m < i + n then data[m]?.map (f (m - i)) else data[m]? := by
  induction n with
  | zero => rw [if_neg (by omega)]; rfl
  | succ n ih =>
    rw [List.range_succ, List.foldl_append, List.foldl_cons, List.foldl_nil, List.getElem?_modify, ih]
    rcases eq_or_ne (i + n) m with rfl | hne
    · rw [if_neg (by omega), if_pos (by omega), Nat.add_sub_cancel_left]
      simp
    · have hiff : (i ≤ m ∧ m < i + (n + 1)) ↔ (i ≤ m ∧ m < i + n) := by omega
      simp only [if_neg hne, hiff]
      exact id_map _

/-- Only the block at `i` changes. -/
theorem xorInto_append (pre post : List UInt8) (b prev : AesBlock) :
    xorInto (pre ++ (b.toList ++ post)) pre.length prev =
      pre ++ ((xorBlocks b prev).toList ++ post) := by
  have hb := b.length_eq
  have hprev := prev.length_eq
  have hx := (xorBlocks b prev).length_eq
  refine List.ext_getElem? fun m => ?_
  rw [xorInto, getElem?_foldl_modify]
  rcases lt_or_ge m pre.length with hlt | hge
  · rw [if_neg (by omega), List.getElem?_append_left hlt, List.getElem?_append_left hlt]
  · rw [List.getElem?_append_right hge, List.getElem?_append_right hge]
    rcases lt_or_ge (m - pre.length) blockSize with hin | hout
    · rw [if_pos (by omega), List.getElem?_append_left (by omega),
        List.getElem?_append_left (by omega)]
      obtain ⟨x, hbm⟩ : ∃ x, b.toList[m - pre.length]? = some x :=
        ⟨_, List.getElem?_eq_getElem (by omega)⟩
      obtain ⟨y, hpm⟩ : ∃ y, prev.toList[m - pre.length]? = some y :=
        ⟨_, List.getElem?_eq_getElem (by omega)⟩
      rw [xorBlocks, List.getElem?_zipWith, hbm, hpm, List.getD_eq_getElem?_getD, hpm]
      rfl
    · rw [if_neg (by omega), List.getElem?_append_right (by omega),
        List.getElem?_append_right (by omega), hb, hx]

/-! ### The loops -/

/-- What one round of encryption carries on and gives out: the new cipher block. -/
def encryptRound (aes : BlockCipher) (key : AesKey) (prev plaintext : AesBlock) :
    AesBlock × AesBlock :=
  (aes.encryptBlock key (xorBlocks plaintext prev), aes.encryptBlock key (xorBlocks plaintext prev))

/-- Decryption carries on the cipher block it has read. -/
def decryptRound (aes : BlockCipher) (key : AesKey) (prev ciphertext : AesBlock) :
    AesBlock × AesBlock :=
  (xorBlocks (aes.decryptBlock key ciphertext) prev, ciphertext)

/-- One round of `encrypt_in_place`: the block at `i` is XORed, then encrypted where it lies. -/
def encryptStep (aes : BlockCipher) (key : AesKey) (s : List UInt8 × AesBlock) (i : ℕ) :
    Option (List UInt8 × AesBlock) := do
  let _ ← sliceChecked s.1 i blockSize
  let data := xorInto s.1 i s.2
  let block ← asBlock blockSize (slice data i blockSize)
  let data ← copyIntoChecked data i (aes.encryptBlock key block).toList
  return (data, aes.encryptBlock key block)

/-- One round of `decrypt_in_place`: `current_ciphertext` is saved, the block decrypted where it lies
    and then XORed. -/
def decryptStep (aes : BlockCipher) (key : AesKey) (s : List UInt8 × AesBlock) (i : ℕ) :
    Option (List UInt8 × AesBlock) := do
  let currentCiphertext ← asBlock blockSize (← sliceChecked s.1 i blockSize)
  let data ← copyIntoChecked s.1 i (aes.decryptBlock key currentCiphertext).toList
  return (xorInto data i s.2, currentCiphertext)

section
variable (aes : BlockCipher) (key : AesKey) (pre : List UInt8) (b : AesBlock) (post : List UInt8)
  (prev : AesBlock)

theorem sliceChecked_block :
    sliceChecked (pre ++ (b.toList ++ post)) pre.length blockSize = some b.toList := by
  have hb := b.length_eq
  rw [sliceChecked_eq (by simp only [List.length_append]; omega), slice, List.drop_left,
    List.take_left' hb]

theorem copyIntoChecked_block (c : AesBlock) :
    copyIntoChecked (pre ++ (b.toList ++ post)) pre.length c.toList =
      some (pre ++ (c.toList ++ post)) := by
  have hb := b.length_eq
  have hc := c.length_eq
  rw [copyIntoChecked_eq (by simp only [List.length_append]; omega), copyInto, List.take_left,
    ← List.drop_drop, List.drop_left, hc, List.drop_left' hb]

theorem encryptStep_block :
    encryptStep aes key (pre ++ (b.toList ++ post), prev) pre.length =
      some (pre ++ ((encryptRound aes key prev b).1.toList ++ post),
        (encryptRound aes key prev b).2) := by
  have hslice : slice (pre ++ ((xorBlocks b prev).toList ++ post)) pre.length blockSize =
      (xorBlocks b prev).toList := by
    rw [slice, List.drop_left, List.take_left' (xorBlocks b prev).length_eq]
  simp only [encryptStep, sliceChecked_block, xorInto_append, hslice, asBlock_toList,
    copyIntoChecked_block, encryptRound, bind, Option.bind_some, pure]

theorem decryptStep_block :
    decryptStep aes key (pre ++ (b.toList ++ post), prev) pre.length =
      some (pre ++ ((decryptRound aes key prev b).1.toList ++ post),
        (decryptRound aes key prev b).2) := by
  simp only [decryptStep, sliceChecked_block, asBlock_toList, copyIntoChecked_block, xorInto_append,
    decryptRound, bind, Option.bind_some, pure]

end

namespace AesCbc
variable (aes : BlockCipher)

/-- What the four functions share: data that is not a whole number of blocks is refused, nothing is
    done for no data, and `body` does the rest. It fails where an access would be out of range. -/
def guarded (data : List UInt8) (body : Option (List UInt8)) :
    Option (Except ProxyError (List UInt8)) :=
  if data.length % blockSize ≠ 0 then some (.error (alignmentError data.length))
  else if data.isEmpty then some (.ok [])
  else body.map .ok

def encrypt (c : AesCbc) (data : List UInt8) : Option (Except ProxyError (List UInt8)) :=
  guarded data (copyRounds (encryptRound aes c.key) (chunks blockSize data) c.iv [])

def decrypt (c : AesCbc) (data : List UInt8) : Option (Except ProxyError (List UInt8)) :=
  guarded data (copyRounds (decryptRound aes c.key) (chunks blockSize data) c.iv [])

/-- `encrypt_in_place`, index by index. -/
def encryptBuffer (c : AesCbc) (data : List UInt8) : Option (Except ProxyError (List UInt8)) :=
  guarded data
    (((stepBy blockSize data.length).foldlM (encryptStep aes c.key) (data, c.iv)).map Prod.fst)

/-- `decrypt_in_place`, index by index. -/
def decryptBuffer (c : AesCbc) (data : List UInt8) : Option (Except ProxyError (List UInt8)) :=
  guarded data
    (((stepBy blockSize data.length).foldlM (decryptStep aes c.key) (data, c.iv)).map Prod.fst)

variable (c : AesCbc) (data : List UInt8)

theorem guarded_rounds {round : AesBlock → AesBlock → AesBlock × AesBlock} {iv : AesBlock}
    {body : Option (List UInt8)} (hbody : blockSize ∣ data.length →
      body = some (ofBlocks (carryMap round iv (toBlocks blockSize data)))) :
    guarded data body = some (if data.length % blockSize ≠ 0 then
      .error (alignmentError data.length)
      else .ok (ofBlocks (carryMap round iv (toBlocks blockSize data)))) := by
  unfold guarded
  rcases Decidable.em (data.length % blockSize ≠ 0) with hmod | hmod
  · rw [if_pos hmod, if_pos hmod]
  · rw [if_neg hmod, if_neg hmod]
    rcases eq_or_ne data [] with rfl | hne
    · rfl
    · rw [if_neg (by simpa using hne), hbody (Nat.dvd_of_mod_eq_zero (not_not.mp hmod)),
        Option.map_some]

/-- Both ways of going through the blocks of `data` compute the same recurrence. -/
theorem rounds_eq {round : AesBlock → AesBlock → AesBlock × AesBlock}
    {step : List UInt8 × AesBlock → ℕ → Option (List UInt8 × AesBlock)}
    (hstep : ∀ pre b post s, step (pre ++ (b.toList ++ post), s) pre.length =
      some (pre ++ ((round s b).1.toList ++ post), (round s b).2))
    {data : List UInt8} (hdvd : blockSize ∣ data.length) (iv : AesBlock) :
    copyRounds round (chunks blockSize data) iv [] =
      some (ofBlocks (carryMap round iv (toBlocks blockSize data))) ∧
    ((stepBy blockSize data.length).foldlM step (data, iv)).map Prod.fst =
      some (ofBlocks (carryMap round iv (toBlocks blockSize data))) := by
  obtain ⟨bs, rfl⟩ : ∃ bs : List AesBlock, data = ofBlocks bs :=
    ⟨_, (ofBlocks_toBlocks blockSize_pos hdvd).symm⟩
  rw [toBlocks_ofBlocks blockSize_pos]
  constructor
  · rw [chunks_ofBlocks blockSize_pos, copyRounds_map, List.nil_append]
  · obtain ⟨s', hs'⟩ := foldlM_inPlace hstep bs 0 [] iv rfl
    rw [stepBy_ofBlocks blockSize_pos]
    rw [List.nil_append, List.nil_append] at hs'
    rw [hs', Option.map_some]

theorem encrypt_eq : encrypt aes c data = some (encryptInPlace aes c data) := by
  rw [encryptInPlace, cbcEnc_eq_carryMap]
  exact guarded_rounds data fun hdvd => (rounds_eq (encryptStep_block aes c.key) hdvd c.iv).1

theorem encryptBuffer_eq : encryptBuffer aes c data = some (encryptInPlace aes c data) := by
  rw [encryptInPlace, cbcEnc_eq_carryMap]
  exact guarded_rounds data fun hdvd => (rounds_eq (encryptStep_block aes c.key) hdvd c.iv).2

theorem decrypt_eq : decrypt aes c data = some (decryptInPlace aes c data) := by
  rw [decryptInPlace, cbcDec_eq_carryMap]
  exact guarded_rounds data fun hdvd => (rounds_eq (decryptStep_block aes c.key) hdvd c.iv).1

theorem decryptBuffer_eq : decryptBuffer aes c data = some (decryptInPlace aes c data) := by
  rw [decryptInPlace, cbcDec_eq_carryMap]
  exact guarded_rounds data fun hdvd => (rounds_eq (decryptStep_block aes c.key) hdvd c.iv).2

end AesCbc

end MtProxy.Crypto
