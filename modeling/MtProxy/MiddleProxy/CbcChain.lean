import MtProxy.Crypto.CbcLoops
import MtProxy.MiddleProxy.Handover

/-! One CBC stream, cut into messages. Each message is processed on its own, from the IV that the message
    before it left; the four call sites take that IV from the cipher text, two of them after
    encryption and two before decryption.

        cbc_encrypt_padded ─┬─ IV ─▶ RpcWriter::send ─ IV ─▶ RpcWriter::send ⋯      out ++ ⋯
        cbc_decrypt_inplace ┴─ IV ─▶ reader_loop ─ IV ─▶ reader_loop ⋯              dec ++ ⋯

    `Continues` is what makes such a cut invisible, and it composes. -/

namespace MtProxy.MiddleProxy
open Crypto Schemes

/-- `cbc_encrypt_padded`. The new IV is zero if there was nothing to encrypt. -/
def cbcEncryptPadded (aes : BlockCipher) (key : AesKey) (iv : AesBlock) (plaintext : List UInt8) :
    Except ProxyError (List UInt8 × AesBlock) :=
  match AesCbc.encryptInPlace aes ⟨key, iv⟩ (padFrame plaintext) with
  | .error (.crypto e) => .error (.crypto s!"CBC encrypt: Crypto error: {e}")
  | .error e => .error e
  | .ok buf => .ok (buf, lastBlock (blockOf []) buf)

/-- Messages one after another, each from the IV the one before it left. -/
def chained (f : AesBlock → List UInt8 → Except ProxyError (List UInt8 × AesBlock)) :
    AesBlock → List (List UInt8) → Except ProxyError (List UInt8 × AesBlock)
  | iv, [] => .ok ([], iv)
  | iv, m :: ms => do
    let (out, iv) ← f iv m
    let (rest, iv) ← chained f iv ms
    return (out ++ rest, iv)

/-- The decrypting half of `reader_loop` over a sequence of reads. -/
def readerChain (aes : BlockCipher) (dk : AesKey) (s : ReaderState) (reads : List (List UInt8)) :
    Except ProxyError ReaderState :=
  reads.foldlM (fun s read => decryptBlocks aes dk { s with raw := s.raw ++ read }) s

/-! ### Invisible cuts -/

theorem lastBlock_of_le (iv iv' : AesBlock) {data : List UInt8} (h : blockSize ≤ data.length) :
    lastBlock iv data = lastBlock iv' data := by
  rw [lastBlock, lastBlock, dif_pos h, dif_pos h]

theorem blockSize_le {m : List UInt8} (hne : m ≠ []) (hm : blockSize ∣ m.length) :
    blockSize ≤ m.length :=
  Nat.le_of_dvd (List.length_pos_iff.mpr hne) hm

theorem padFrame_of_aligned {m : List UInt8} (hm : blockSize ∣ m.length) : padFrame m = m := by
  rw [padFrame, Nat.mod_eq_zero_of_dvd hm, Nat.sub_zero, Nat.mod_self]
  exact List.append_nil m

theorem flatten_aligned {ms : List (List UInt8)} (hms : ∀ m ∈ ms, blockSize ∣ m.length) :
    blockSize ∣ ms.flatten.length := by
  rw [List.length_flatten]
  refine List.dvd_sum fun n hn => ?_
  obtain ⟨m, hm, rfl⟩ := List.mem_map.mp hn
  exact hms m hm

/-- Processing `m` from `iv` gives `out` and leaves `iv'`: what follows may be processed from there. -/
def Continues (run : AesBlock → List UInt8 → Except ProxyError (List UInt8)) (iv : AesBlock)
    (m out : List UInt8) (iv' : AesBlock) : Prop :=
  ∀ rest q, blockSize ∣ rest.length → run iv' rest = .ok q → run iv (m ++ rest) = .ok (out ++ q)

section
variable {run : AesBlock → List UInt8 → Except ProxyError (List UInt8)} {iv iv' iv'' : AesBlock}
  {m n out out' : List UInt8}

theorem Continues.refl (iv : AesBlock) : Continues run iv [] [] iv := fun _ _ _ hq => hq

theorem Continues.trans (h : Continues run iv m out iv') (h' : Continues run iv' n out' iv'')
    (hn : blockSize ∣ n.length) : Continues run iv (m ++ n) (out ++ out') iv'' := by
  intro rest q hrest hq
  have hlen : blockSize ∣ (n ++ rest).length := by
    rw [List.length_append]
    exact dvd_add hn hrest
  rw [List.append_assoc, List.append_assoc]
  exact h _ _ hlen (h' rest q hrest hq)

/-- With nothing behind it, the messages were processed at once. -/
theorem Continues.all (h : Continues run iv m out iv') (hnil : run iv' [] = .ok []) :
    run iv m = .ok out := by
  have := h [] [] (dvd_zero _) hnil
  rwa [List.append_nil, List.append_nil] at this

/-- If one message can be cut off, any number of them can. -/
theorem chained_continues {f : AesBlock → List UInt8 → Except ProxyError (List UInt8 × AesBlock)}
    (hf : ∀ iv m, m ≠ [] → blockSize ∣ m.length →
      ∃ out iv', f iv m = .ok (out, iv') ∧ Continues run iv m out iv')
    {ms : List (List UInt8)} (hne : ∀ m ∈ ms, m ≠ []) (hms : ∀ m ∈ ms, blockSize ∣ m.length)
    (iv : AesBlock) :
    ∃ out iv', chained f iv ms = .ok (out, iv') ∧ Continues run iv ms.flatten out iv' := by
  induction ms generalizing iv with
  | nil => exact ⟨[], iv, rfl, Continues.refl iv⟩
  | cons m ms ih =>
    obtain ⟨hne0, hne⟩ := List.forall_mem_cons.mp hne
    obtain ⟨hm0, hms⟩ := List.forall_mem_cons.mp hms
    obtain ⟨out, iv', hout, hcont⟩ := hf iv m hne0 hm0
    obtain ⟨rest, iv'', hrest, hcont'⟩ := ih hne hms iv'
    refine ⟨out ++ rest, iv'', ?_, hcont.trans hcont' ?_⟩
    · simp only [chained, hout, hrest, bind, Except.bind, pure, Except.pure]
    · exact flatten_aligned hms

end

/-! ### The four call sites -/

section
variable (aes : BlockCipher) (crc : RpcCrc) (key : AesKey)

/-- `encrypt_in_place` under any IV, as a run. -/
abbrev encRun (iv : AesBlock) (data : List UInt8) : Except ProxyError (List UInt8) :=
  AesCbc.encryptInPlace aes ⟨key, iv⟩ data

/-- `decrypt_in_place` under any IV, as a run. -/
abbrev decRun (iv : AesBlock) (data : List UInt8) : Except ProxyError (List UInt8) :=
  AesCbc.decryptInPlace aes ⟨key, iv⟩ data

/-- Encryption may be cut where the next IV is the last cipher block. -/
theorem encryptInPlace_continues (iv : AesBlock) {m : List UInt8} (hm : blockSize ∣ m.length) :
    ∃ c, AesCbc.encryptInPlace aes ⟨key, iv⟩ m = .ok c ∧ c.length = m.length ∧
      Continues (encRun aes key) iv m c (lastBlock iv c) := by
  obtain ⟨c, hc, hlen, -⟩ := encryptInPlace_ok aes key iv hm
  refine ⟨c, hc, hlen, ?_⟩
  intro rest q hrest hq
  exact encryptInPlace_append aes key iv hm hrest hc hq

/-- Decryption may be cut where the next IV is the last block of the cipher text just read. -/
theorem decryptInPlace_continues (iv : AesBlock) {m : List UInt8} (hm : blockSize ∣ m.length) :
    ∃ p, AesCbc.decryptInPlace aes ⟨key, iv⟩ m = .ok p ∧
      Continues (decRun aes key) iv m p (lastBlock iv m) := by
  obtain ⟨p, -, hp, -, -⟩ := decryptInPlace_append aes key iv hm (dvd_zero blockSize) (b := [])
  refine ⟨p, hp, ?_⟩
  intro rest q hrest hq
  obtain ⟨p', q', hp', hq', hall⟩ := decryptInPlace_append aes key iv hm hrest
  obtain rfl := Except.ok.inj (hp.symm.trans hp')
  obtain rfl := Except.ok.inj (hq.symm.trans hq')
  exact hall

theorem cbcEncryptPadded_continues (iv : AesBlock) (m : List UInt8) (hne : m ≠ [])
    (hm : blockSize ∣ m.length) :
    ∃ out iv', cbcEncryptPadded aes key iv m = .ok (out, iv') ∧
      Continues (encRun aes key) iv m out iv' := by
  obtain ⟨c, hc, hlen, hcont⟩ := encryptInPlace_continues aes key iv hm
  have hfull : blockSize ≤ c.length := by
    rw [hlen]
    exact blockSize_le hne hm
  refine ⟨c, lastBlock (blockOf []) c, ?_, ?_⟩
  · rw [cbcEncryptPadded, padFrame_of_aligned hm, hc]
  · rw [lastBlock_of_le _ iv hfull]
    exact hcont

theorem cbcDecryptInplace_continues (iv : AesBlock) (m : List UInt8) (hne : m ≠ [])
    (hm : blockSize ∣ m.length) :
    ∃ out iv', cbcDecryptInplace aes key iv m = .ok (out, iv') ∧
      Continues (decRun aes key) iv m out iv' := by
  obtain ⟨p, hp, hcont⟩ := decryptInPlace_continues aes key iv hm
  refine ⟨p, lastBlock (blockOf []) m, ?_, ?_⟩
  · rw [cbcDecryptInplace, hp]
  · rw [lastBlock_of_le _ iv (blockSize_le hne hm)]
    exact hcont

/-- The sends of a writer, whatever its state. -/
theorem sendAll_continues (ps : List (List UInt8)) (w : RpcWriter) :
    ∃ bs w', w.sendAll aes crc ps = .ok (bs, w') ∧
      Continues (encRun aes w.key) w.iv (framesFrom crc w.crcMode w.seqNo ps) bs w'.iv := by
  induction ps generalizing w with
  | nil => exact ⟨[], w, rfl, Continues.refl w.iv⟩
  | cons p ps ih =>
    obtain ⟨bs, henc, hsend⟩ := send_ok aes crc w p
    obtain ⟨rest, w', hall, hrest⟩ := ih { w with seqNo := w.seqNo + 1, iv := lastBlock w.iv bs }
    obtain ⟨c, hc, -, hcont⟩ := encryptInPlace_continues aes w.key w.iv
      (padFrame_aligned (buildRpcFrame crc w.seqNo p w.crcMode))
    obtain rfl := Except.ok.inj (henc.symm.trans hc)
    refine ⟨bs ++ rest, w', ?_, hcont.trans hrest (framesFrom_aligned crc _ _ ps)⟩
    simp only [RpcWriter.sendAll, hsend, hall, bind, Except.bind, pure, Except.pure]

/-- A read of whole blocks is decrypted completely, and `div` is its last block. -/
theorem decryptBlocks_continues (iv : AesBlock) (d : Deframer) {m : List UInt8} (hne : m ≠ [])
    (hm : blockSize ∣ m.length) :
    ∃ out, decryptBlocks aes key ⟨m, iv, d⟩ =
        .ok ⟨[], lastBlock iv m, { d with dec := d.dec ++ out }⟩ ∧
      Continues (decRun aes key) iv m out (lastBlock iv m) := by
  obtain ⟨p, hp, hcont⟩ := decryptInPlace_continues aes key iv hm
  have hblocks : m.length / 16 * 16 = m.length := Nat.div_mul_cancel hm
  refine ⟨p, ?_, hcont⟩
  simp only [decryptBlocks, hblocks, if_pos (List.length_pos_iff.mpr hne), List.take_length,
    List.drop_length, hp]

theorem readerChain_continues {ms : List (List UInt8)} (hne : ∀ m ∈ ms, m ≠ [])
    (hms : ∀ m ∈ ms, blockSize ∣ m.length) (iv : AesBlock) (d : Deframer) :
    ∃ out iv', readerChain aes key ⟨[], iv, d⟩ ms =
        .ok ⟨[], iv', { d with dec := d.dec ++ out }⟩ ∧
      Continues (decRun aes key) iv ms.flatten out iv' := by
  induction ms generalizing iv d with
  | nil => exact ⟨[], iv, by simp [readerChain, pure, Except.pure], Continues.refl iv⟩
  | cons m ms ih =>
    obtain ⟨hne0, hne⟩ := List.forall_mem_cons.mp hne
    obtain ⟨hm0, hms⟩ := List.forall_mem_cons.mp hms
    obtain ⟨out, hout, hcont⟩ := decryptBlocks_continues aes key iv d hne0 hm0
    obtain ⟨rest, iv'', hrest, hcont'⟩ := ih hne hms (lastBlock iv m) { d with dec := d.dec ++ out }
    refine ⟨out ++ rest, iv'', ?_, hcont.trans hcont' (flatten_aligned hms)⟩
    rw [readerChain, List.foldlM_cons, List.nil_append, hout, ← List.append_assoc]
    exact hrest

end

/-- The four functions agree two by two and decryption inverts encryption. Non-empty messages, and the
    frames of a writer behind them, give the cipher text of everything at once; so does decryption,
    by the handshake first and the reader behind it. -/
theorem cbc_chaining (aes : BlockCipher) (crc : RpcCrc) (key : AesKey) (iv : AesBlock)
    (ms ns : List (List UInt8)) (hms : ∀ m ∈ ms, blockSize ∣ m.length)
    (hns : ∀ n ∈ ns, blockSize ∣ n.length) (seqNo : Int32) (mode : RpcChecksumMode)
    (ps : List (List UInt8)) (d : Deframer) :
    (∀ data, AesCbc.encryptBuffer aes ⟨key, iv⟩ data = AesCbc.encrypt aes ⟨key, iv⟩ data ∧
      AesCbc.decryptBuffer aes ⟨key, iv⟩ data = AesCbc.decrypt aes ⟨key, iv⟩ data) ∧
    (∀ m ∈ ms, ∃ c, AesCbc.encrypt aes ⟨key, iv⟩ m = some (.ok c) ∧
      AesCbc.decrypt aes ⟨key, iv⟩ c = some (.ok m)) ∧
    (∃ out iv' bs w',
      chained (cbcEncryptPadded aes key) iv (ms.filter (fun m => !m.isEmpty)) = .ok (out, iv') ∧
      RpcWriter.sendAll aes crc ⟨key, iv', seqNo, mode⟩ ps = .ok (bs, w') ∧
      AesCbc.encrypt aes ⟨key, iv⟩ (ms.flatten ++ framesFrom crc mode seqNo ps) =
        some (.ok (out ++ bs))) ∧
    ∃ out iv' plain iv'',
      chained (cbcDecryptInplace aes key) iv (ms.filter (fun m => !m.isEmpty)) = .ok (out, iv') ∧
      readerChain aes key ⟨[], iv', d⟩ (ns.filter (fun n => !n.isEmpty)) =
        .ok ⟨[], iv'', { d with dec := d.dec ++ plain }⟩ ∧
      AesCbc.decrypt aes ⟨key, iv⟩ (ms.flatten ++ ns.flatten) = some (.ok (out ++ plain)) := by
  have hkeep : ∀ {ls : List (List UInt8)}, (∀ m ∈ ls, blockSize ∣ m.length) →
      (∀ m ∈ ls.filter (fun m => !m.isEmpty), m ≠ []) ∧
      ∀ m ∈ ls.filter (fun m => !m.isEmpty), blockSize ∣ m.length := by
    intro ls hls
    refine ⟨fun m hm => ?_, fun m hm => hls m (List.mem_of_mem_filter hm)⟩
    simpa using List.of_mem_filter hm
  refine ⟨?_, ?_, ?_, ?_⟩
  · intro data
    rw [AesCbc.encryptBuffer_eq, AesCbc.encrypt_eq, AesCbc.decryptBuffer_eq, AesCbc.decrypt_eq]
    exact ⟨rfl, rfl⟩
  · intro m hm
    obtain ⟨c, hc, -, hinv⟩ := encryptInPlace_ok aes key iv (hms m hm)
    refine ⟨c, ?_, ?_⟩
    · rw [AesCbc.encrypt_eq, hc]
    · rw [AesCbc.decrypt_eq, hinv]
  · obtain ⟨out, iv', hout, hcont⟩ := chained_continues (cbcEncryptPadded_continues aes key)
      (hkeep hms).1 (hkeep hms).2 iv
    obtain ⟨bs, w', hbs, hsend⟩ := sendAll_continues aes crc ps ⟨key, iv', seqNo, mode⟩
    refine ⟨out, iv', bs, w', hout, hbs, ?_⟩
    rw [List.flatten_filter_not_isEmpty] at hcont
    rw [AesCbc.encrypt_eq]
    exact congrArg some ((hcont.trans hsend (framesFrom_aligned crc _ _ ps)).all rfl)
  · obtain ⟨out, iv', hout, hcont⟩ := chained_continues (cbcDecryptInplace_continues aes key)
      (hkeep hms).1 (hkeep hms).2 iv
    obtain ⟨plain, iv'', hplain, hread⟩ := readerChain_continues aes key
      (hkeep hns).1 (hkeep hns).2 iv' d
    refine ⟨out, iv', plain, iv'', hout, hplain, ?_⟩
    rw [List.flatten_filter_not_isEmpty] at hcont hread
    rw [AesCbc.decrypt_eq]
    exact congrArg some ((hcont.trans hread (flatten_aligned hns)).all rfl)

/-- One block of the handshake, one of the writer; the two cipher blocks back again. -/
theorem cbc_chaining_two :
    (∃ c, AesCbc.encrypt sampleAes ⟨sampleKey, blockOf []⟩ badBlock.1.toList = some (.ok c) ∧
      AesCbc.decrypt sampleAes ⟨sampleKey, blockOf []⟩ c = some (.ok badBlock.1.toList)) ∧
    ∃ out iv' bs w',
      chained (cbcEncryptPadded sampleAes sampleKey) (blockOf []) [badBlock.1.toList] =
        .ok (out, iv') ∧
      RpcWriter.sendAll sampleAes rpcCrc ⟨sampleKey, iv', 0, .crc32⟩ [[1, 2, 3, 4]] = .ok (bs, w') ∧
      AesCbc.encrypt sampleAes ⟨sampleKey, blockOf []⟩
        (badBlock.1.toList ++ framesFrom rpcCrc .crc32 0 [[1, 2, 3, 4]]) = some (.ok (out ++ bs)) := by
  have haligned : ∀ m ∈ [badBlock.1.toList], blockSize ∣ m.length := by
    simp [badBlock.1.length_eq]
  have h := cbc_chaining sampleAes rpcCrc sampleKey (blockOf []) [badBlock.1.toList] [] haligned
    (by simp) 0 .crc32 [[1, 2, 3, 4]] ⟨[], 0, []⟩
  exact ⟨h.2.1 _ List.mem_cons_self, h.2.2.1⟩

end MtProxy.MiddleProxy
