import MtProxy.Schemes.Decode

/-! `encode_tls13_certificate_message`: the chain of a profiled server as a TLS 1.3 Certificate message.
    Three levels of 24-bit lengths are computed on the way from the inside out, and each of them can
    refuse the chain.

        0b │ body u24 │ 00 │ list u24 │ ┌ cert u24 │ cert │ 00 00 ┐ ⋯
                                        └──────── entry ──────────┘

    A certificate that fits nowhere makes the body too long as well, so the outer length decides. -/

namespace MtProxy.TlsFront
open Schemes

def u24Bytes (value : ℕ) : Option (List UInt8) :=
  if value > 0x00ffffff then none
  else some [UInt8.ofNat ((value >>> 16) &&& 0xff), UInt8.ofNat ((value >>> 8) &&& 0xff),
    UInt8.ofNat (value &&& 0xff)]

/-- The loop over the chain, on what is in `certificate_list`. -/
def certificateList : List UInt8 → List (List UInt8) → Option (List UInt8)
  | certificateList', [] => some certificateList'
  | certificateList', cert :: rest =>
    if cert.isEmpty then none
    else do
      let len ← u24Bytes cert.length
      certificateList (certificateList' ++ len ++ cert ++ beBytes 2 0) rest

def encodeTls13CertificateMessage (certChainDer : List (List UInt8)) : Option (List UInt8) :=
  if certChainDer.isEmpty then none
  else do
    let certificateList' ← certificateList [] certChainDer
    let bodyLen ← checkedAdd (← checkedAdd 1 3) certificateList'.length
    let bodyLenBytes ← u24Bytes bodyLen
    let listLenBytes ← u24Bytes certificateList'.length
    return 0x0b :: bodyLenBytes ++ 0x00 :: listLenBytes ++ certificateList'

/-! ### A reader that follows the lengths -/

/-- A certificate and the extensions behind it, which have to be empty. -/
def takeEntry (bs : List UInt8) : Option (List UInt8 × List UInt8) := do
  let (cert, rest) ← takeBlock 3 bs
  let (extensions, rest) ← takeBlock 2 rest
  if extensions.isEmpty then some (cert, rest) else none

/-- The list in the body, behind an empty request context. -/
def readCertificateBody (body : List UInt8) : Option (List (List UInt8)) := do
  let (context, rest) ← takeBlock 1 body
  let list ← whole (takeBlock 3 rest)
  if context.isEmpty then readAll takeEntry list else none

/-- A Certificate message off the front: its chain, and what lies behind the message. -/
def takeCertificateMessage (bs : List UInt8) : Option (List (List UInt8) × List UInt8) := do
  let (type, rest) ← takeByte bs
  let (body, rest) ← takeBlock 3 rest
  if type = 0x0b then (readCertificateBody body).map (·, rest) else none

/-! ### Lengths -/

theorem ofNat_and_255 (n : ℕ) : UInt8.ofNat (n &&& 0xff) = UInt8.ofNat n := by
  have hmask : n &&& 0xff = n % 256 := Nat.and_two_pow_sub_one_eq_mod n 8
  rw [← UInt8.toNat_inj, UInt8.toNat_ofNat', UInt8.toNat_ofNat', hmask]
  exact Nat.mod_mod n 256

theorem u24Bytes_eq (value : ℕ) :
    u24Bytes value = if value < 256 ^ 3 then some (beBytes 3 value) else none := by
  have hbytes : beBytes 3 value =
      [UInt8.ofNat (value / 256 / 256), UInt8.ofNat (value / 256), UInt8.ofNat value] := rfl
  have h8 : value >>> 8 = value / 256 := Nat.shiftRight_eq_div_pow value 8
  have h16 : value >>> 16 = value / 256 / 256 := by
    rw [Nat.shiftRight_eq_div_pow, Nat.div_div_eq_div_mul]
  rw [u24Bytes, hbytes, h8, h16, ofNat_and_255, ofNat_and_255, ofNat_and_255]
  rcases lt_or_ge value (256 ^ 3) with hlt | hge
  · rw [if_neg (by omega), if_pos hlt]
  · rw [if_pos (by omega), if_neg (by omega)]

/-- The bytes of one entry. -/
def entryBytes (cert : List UInt8) : List UInt8 := block 3 cert ++ block 2 []

@[simp] theorem length_entryBytes (cert : List UInt8) : (entryBytes cert).length = cert.length + 5 := by
  simp [entryBytes]
  omega

theorem length_flatMap_entryBytes (chain : List (List UInt8)) :
    (chain.flatMap entryBytes).length = (chain.map (·.length + 5)).sum := by
  rw [List.length_flatMap]
  simp only [length_entryBytes]

/-- Every certificate is part of the list. -/
theorem length_le_entries {chain : List (List UInt8)} {cert : List UInt8} (h : cert ∈ chain) :
    cert.length ≤ (chain.map (·.length + 5)).sum := by
  have := List.single_le_sum (l := chain.map (·.length + 5)) (fun _ _ => Nat.zero_le _)
    (cert.length + 5) (List.mem_map.mpr ⟨cert, h, rfl⟩)
  omega

/-- What the loop accepts, and what it has written then. -/
theorem certificateList_eq (chain : List (List UInt8)) (written : List UInt8) :
    certificateList written chain =
      if ∀ cert ∈ chain, cert ≠ [] ∧ cert.length < 256 ^ 3 then
        some (written ++ chain.flatMap entryBytes) else none := by
  induction chain generalizing written with
  | nil => simp [certificateList]
  | cons cert chain ih =>
    rw [certificateList]
    rcases eq_or_ne cert [] with rfl | hne
    · rw [List.isEmpty_nil, if_pos rfl, if_neg]
      exact fun h => (h [] List.mem_cons_self).1 rfl
    · rw [if_neg (by simpa using hne), u24Bytes_eq]
      rcases lt_or_ge cert.length (256 ^ 3) with hlt | hge
      · have hiff : (∀ c ∈ cert :: chain, c ≠ [] ∧ c.length < 256 ^ 3) ↔
            ∀ c ∈ chain, c ≠ [] ∧ c.length < 256 ^ 3 := by
          rw [List.forall_mem_cons]
          exact and_iff_right ⟨hne, hlt⟩
        have hentry : entryBytes cert = beBytes 3 cert.length ++ cert ++ beBytes 2 0 := by
          rw [entryBytes, block, block, List.append_nil]
          rfl
        rw [if_pos hlt]
        simp only [bind, Option.bind_some, ih, hiff, List.flatMap_cons, hentry, List.append_assoc]
      · rw [if_neg (by omega), if_neg]
        · rfl
        · exact fun h => absurd (h cert List.mem_cons_self).2 (by omega)

/-- The message, level by level. -/
def certificateBody (chain : List (List UInt8)) : List UInt8 :=
  block 1 [] ++ block 3 (chain.flatMap entryBytes)

theorem length_certificateBody (chain : List (List UInt8)) :
    (certificateBody chain).length = 4 + (chain.map (·.length + 5)).sum := by
  simp only [certificateBody, List.length_append, length_block, length_flatMap_entryBytes,
    List.length_nil]
  omega

/-- Chains that can be encoded: the body length is the only one that has to be checked. -/
def Encodable (chain : List (List UInt8)) : Prop :=
  chain ≠ [] ∧ (∀ cert ∈ chain, cert ≠ []) ∧ 4 + (chain.map (·.length + 5)).sum < 2 ^ 24

theorem encode_of_encodable {chain : List (List UInt8)} (h : Encodable chain) :
    encodeTls13CertificateMessage chain = some (0x0b :: block 3 (certificateBody chain)) := by
  obtain ⟨hchain, hne, hlen⟩ := h
  have hcerts : ∀ cert ∈ chain, cert ≠ [] ∧ cert.length < 256 ^ 3 := by
    intro cert hcert
    have hle := length_le_entries hcert
    exact ⟨hne cert hcert, by omega⟩
  have hadd : checkedAdd 1 3 = some 4 := rfl
  have hbody : checkedAdd 4 (chain.flatMap entryBytes).length =
      some (certificateBody chain).length := by
    rw [length_certificateBody, length_flatMap_entryBytes, checkedAdd, if_pos (by omega)]
  have hbodyLen := u24Bytes_eq (certificateBody chain).length
  have hlistLen := u24Bytes_eq (chain.flatMap entryBytes).length
  rw [if_pos (by rw [length_certificateBody]; omega)] at hbodyLen
  rw [if_pos (by rw [length_flatMap_entryBytes]; omega)] at hlistLen
  rw [encodeTls13CertificateMessage, if_neg (by simpa using hchain), certificateList_eq,
    if_pos hcerts]
  simp only [bind, Option.bind_some, List.nil_append, hadd, hbody, hbodyLen, hlistLen, pure]
  rfl

theorem encodable_of_encode {chain : List (List UInt8)} {message : List UInt8}
    (h : encodeTls13CertificateMessage chain = some message) : Encodable chain := by
  rw [encodeTls13CertificateMessage, certificateList_eq] at h
  split_ifs at h with hempty hcerts
  · simp only [bind, Option.bind_eq_some_iff, List.nil_append, Option.some.injEq] at h
    obtain ⟨list, rfl, four, hfour, bodyLen, hadd, bytes, hbytes, -⟩ := h
    obtain rfl : 4 = four := Option.some.inj hfour
    rw [checkedAdd, length_flatMap_entryBytes] at hadd
    split_ifs at hadd with hfits
    obtain rfl := Option.some.inj hadd
    rw [u24Bytes_eq] at hbytes
    split_ifs at hbytes with hlt
    exact ⟨by simpa using hempty, fun cert hcert => (hcerts cert hcert).1, hlt⟩
  · simp at h

/-! ### Reading it back -/

theorem takeEntry_entryBytes {cert : List UInt8} (h : cert.length < 256 ^ 3) (rest : List UInt8) :
    takeEntry (entryBytes cert ++ rest) = some (cert, rest) := by
  have hext : takeBlock 2 (block 2 [] ++ rest) = some ([], rest) := takeBlock_block (by decide)
  rw [takeEntry, entryBytes, List.append_assoc, takeBlock_block h]
  simp only [bind, Option.bind_some, hext, List.isEmpty_nil, if_true]

theorem readCertificateBody_certificateBody {chain : List (List UInt8)} (h : Encodable chain) :
    readCertificateBody (certificateBody chain) = some chain := by
  obtain ⟨-, -, hlen⟩ := h
  have hlist : (chain.flatMap entryBytes).length < 256 ^ 3 := by
    rw [length_flatMap_entryBytes]
    omega
  have hentries : readAll takeEntry (chain.flatMap entryBytes) = some chain := by
    refine readAll_flatMap (fun cert hcert rest => takeEntry_entryBytes ?_ rest) fun cert _ hnil => ?_
    · have hle := length_le_entries hcert
      omega
    · have := length_entryBytes cert
      rw [hnil, List.length_nil] at this
      omega
  rw [readCertificateBody, certificateBody, takeBlock_block (by decide)]
  simp only [bind, Option.bind_some, takeBlock_all hlist, List.isEmpty_nil, if_true, hentries]

/-- The encoder accepts exactly the chains that fit, and what it writes is read back, chain and length,
    whatever lies behind it. -/
theorem certificate_message_decodable (chain : List (List UInt8)) :
    ((encodeTls13CertificateMessage chain).isSome ↔
      chain ≠ [] ∧ (∀ cert ∈ chain, cert ≠ []) ∧
        1 + 3 + (chain.map (fun cert => 3 + cert.length + 2)).sum < 2 ^ 24) ∧
    ∀ message rest, encodeTls13CertificateMessage chain = some message →
      takeCertificateMessage (message ++ rest) = some (chain, rest) := by
  have hsum : (chain.map (fun cert => 3 + cert.length + 2)).sum =
      (chain.map (·.length + 5)).sum := by
    congr 1
    exact List.map_congr_left fun cert _ => by omega
  constructor
  · rw [hsum]
    constructor
    · intro h
      obtain ⟨message, hmessage⟩ := Option.isSome_iff_exists.mp h
      exact encodable_of_encode hmessage
    · intro h
      rw [encode_of_encodable h, Option.isSome_some]
  · intro message rest hmessage
    have h := encodable_of_encode hmessage
    obtain rfl := Option.some.inj (hmessage.symm.trans (encode_of_encodable h))
    have hbody : (certificateBody chain).length < 256 ^ 3 := by
      rw [length_certificateBody]
      exact h.2.2
    rw [takeCertificateMessage, List.cons_append, takeByte]
    simp only [bind, Option.bind_some, takeBlock_block hbody, if_true,
      readCertificateBody_certificateBody h, Option.map_some]

/-- A chain of two short certificates of different lengths. -/
theorem certificate_message_decodable_short :
    takeCertificateMessage ([0x0b, 0, 0, 22, 0, 0, 0, 18,
        0, 0, 5, 0x30, 3, 2, 1, 1, 0, 0,
        0, 0, 3, 0x30, 1, 5, 0, 0] ++ [7]) =
      some ([[0x30, 3, 2, 1, 1], [0x30, 1, 5]], [7]) :=
  (certificate_message_decodable [[0x30, 3, 2, 1, 1], [0x30, 1, 5]]).2 _ _ (by decide)

end MtProxy.TlsFront
