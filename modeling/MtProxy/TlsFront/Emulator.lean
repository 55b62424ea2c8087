import MtProxy.Protocol.ServerHello
import MtProxy.Schemes.Cbc
import MtProxy.Schemes.Loop

/-! `build_emulated_server_hello`: the answer in the shape of a server that was profiled before. The
    sizes of its ApplicationData records come from the cache, are jittered and clamped, and are made
    to hold the certificate:

        cached ─▶ jitter, clamp ─▶ last record grows ─▶ more records, while the body is too small
        record   payload │ random bytes │ 16 │ tag 16          (17 bytes of overhead)

    Growing by `n` adds `n` bytes of body since every size is above 17, and a new record of size
    `n + 17` holds `n` bytes, so the loop reaches the length of the payload. -/

namespace MtProxy.TlsFront
open Schemes Protocol

structure ParsedServerHello where
  version : Block UInt8 2
  cipherSuite : Block UInt8 2
  compression : UInt8

structure ParsedCertificateInfo where
  notAfterUnix : Option ℤ
  notBeforeUnix : Option ℤ
  issuerCn : Option String
  subjectCn : Option String
  sanNames : List String

structure TlsCertPayload where
  certificateMessage : List UInt8

structure CachedTlsData where
  serverHelloTemplate : ParsedServerHello
  certInfo : Option ParsedCertificateInfo
  certPayload : Option TlsCertPayload
  appDataRecordsSizes : List ℕ
  totalAppDataLen : ℕ

/-! ### The sizes -/

/-- One size, with `jitterRange` for the 3 % of it that are computed in floating point. -/
def jitterAndClampSize (jitterRange : ℕ → ℕ) (rng : SecureRandom) (size : ℕ) : ℕ :=
  let base := clamp minAppData maxAppData size
  let range : ℤ := jitterRange base
  if range = 0 then base
  else
    let span := 2 * range + 1
    let delta := (leVal (rng.bytes 2) : ℤ) % span - range
    (clamp (minAppData : ℤ) maxAppData (base + delta)).toNat

def jitterAndClampSizes (jitterRange : ℕ → ℕ) (rng : Draws) : List ℕ → List ℕ
  | [] => []
  | size :: sizes => jitterAndClampSize jitterRange (rng 0) size ::
      jitterAndClampSizes jitterRange (rng.skip 1) sizes

def appDataBodyCapacity (sizes : List ℕ) : ℕ := (sizes.map (· - 17)).sum

/-- The last record grows: the sizes and the body they hold. -/
def growLast (sizes : List ℕ) (payloadLen bodyTotal : ℕ) : List ℕ × ℕ :=
  match sizes.getLast? with
  | some last =>
    let free := maxAppData - last
    let grow := min free (payloadLen - bodyTotal)
    (sizes.dropLast ++ [last + grow], bodyTotal + grow)
  | none => (sizes, bodyTotal)

/-- One round of the loop that adds records. -/
def addRecord (payloadLen : ℕ) (s : List ℕ × ℕ) : (List ℕ × ℕ) ⊕ List ℕ :=
  if s.2 < payloadLen then
    let remaining := payloadLen - s.2
    let chunk := clamp minAppData maxAppData (remaining + 17)
    .inl (s.1 ++ [chunk], s.2 + (chunk - 17))
  else .inr s.1

/-- Every further round has less to reserve. -/
theorem addRecord_inl {payloadLen : ℕ} {s s' : List ℕ × ℕ} (h : addRecord payloadLen s = .inl s') :
    payloadLen - s'.2 < payloadLen - s.2 := by
  unfold addRecord at h
  simp only at h
  split_ifs at h with hless
  obtain rfl := Sum.inl.inj h
  have hchunk := clamp_mem (show minAppData ≤ maxAppData by decide) (payloadLen - s.2 + 17)
  have hmin : minAppData = 64 := rfl
  simp only
  omega

def ensurePayloadCapacity (sizes : List ℕ) (payloadLen : ℕ) : List ℕ :=
  if payloadLen = 0 then sizes
  else
    let bodyTotal := appDataBodyCapacity sizes
    if payloadLen ≤ bodyTotal then sizes
    else loop (addRecord payloadLen) (payloadLen - ·.2) (fun _ _ => addRecord_inl)
      (growLast sizes payloadLen bodyTotal)

/-! ### The payload -/

/-- The metadata of the certificate in a line of text, at most 512 bytes of it. -/
def buildCompactCertInfoPayload (certInfo : ParsedCertificateInfo) : Option (List UInt8) :=
  let fields :=
    (certInfo.subjectCn.toList.map fun subject => s!"CN={subject}") ++
    (certInfo.issuerCn.toList.map fun issuer => s!"ISSUER={issuer}") ++
    (certInfo.notBeforeUnix.toList.map fun notBefore => s!"NB={notBefore}") ++
    (certInfo.notAfterUnix.toList.map fun notAfter => s!"NA={notAfter}") ++
    (if certInfo.sanNames = [] then [] else
      ["SAN=" ++ String.intercalate "," (certInfo.sanNames.take 8)])
  if fields = [] then none
  else some ((String.intercalate ";" fields).toUTF8.toList.take 512)

def selectedPayload (cached : CachedTlsData) (useFullCertPayload : Bool) : Option (List UInt8) :=
  let compactPayload := cached.certInfo.bind buildCompactCertInfoPayload
  if useFullCertPayload then
    ((cached.certPayload.map TlsCertPayload.certificateMessage).filter (· ≠ [])).or compactPayload
  else compactPayload

/-! ### The records -/

/-- The content of one record, and how far into the payload it gets. -/
def emulatedRecord (rng : Draws) (payload : Option (List UInt8)) (payloadOffset size : ℕ) :
    List UInt8 × ℕ :=
  match payload with
  | some payload =>
    if 17 < size then
      let bodyLen := size - 17
      let remaining := payload.length - payloadOffset
      let copyLen := min remaining bodyLen
      (slice payload payloadOffset copyLen ++ (rng 0).bytes (bodyLen - copyLen) ++ [0x16] ++
        (rng 1).bytes 16, payloadOffset + copyLen)
    else ((rng 0).bytes size, payloadOffset)
  | none =>
    if 17 < size then
      ((rng 0).bytes (size - 17) ++ [0x16] ++ (rng 1).bytes 16, payloadOffset)
    else ((rng 0).bytes size, payloadOffset)

def emulatedRecords (rng : Draws) (payload : Option (List UInt8)) : ℕ → List ℕ → List UInt8
  | _, [] => []
  | payloadOffset, size :: sizes =>
    let rec' := emulatedRecord rng payload payloadOffset size
    appDataRecord size rec'.1 ++ emulatedRecords (rng.skip 2) payload rec'.2 sizes

/-- The sizes before they are made to hold the payload. -/
def jitteredSizes (jitterRange : ℕ → ℕ) (cached : CachedTlsData) (rng : Draws) : List ℕ :=
  let sizes := cached.appDataRecordsSizes
  let sizes := if sizes = [] then [max cached.totalAppDataLen 1024] else sizes
  jitterAndClampSizes jitterRange rng sizes

/-- The sizes of the ApplicationData records. -/
def emulatedSizes (jitterRange : ℕ → ℕ) (cached : CachedTlsData) (useFullCertPayload : Bool)
    (rng : Draws) : List ℕ :=
  let sizes := jitteredSizes jitterRange cached rng
  match selectedPayload cached useFullCertPayload with
  | some payload => ensurePayloadCapacity sizes payload.length
  | none => sizes

/-! ### The response -/

def emulatedExtensions (key : List UInt8) (alpn : Option (List UInt8)) : List UInt8 :=
  let extensions := beBytes 2 0x0033 ++ beBytes 2 (2 + 2 + 32) ++ beBytes 2 0x001d ++
    beBytes 2 32 ++ key ++ beBytes 2 0x002b ++ beBytes 2 2 ++ beBytes 2 0x0304
  match alpn with
  | some alpnProto =>
    let listLen := 1 + alpnProto.length
    let extLen := 2 + listLen
    extensions ++ beBytes 2 0x0010 ++ beBytes 2 extLen ++ beBytes 2 listLen ++
      [UInt8.ofNat alpnProto.length] ++ alpnProto
  | none => extensions

def emulatedMessage (template : ParsedServerHello) (sessionId key : List UInt8)
    (alpn : Option (List UInt8)) : List UInt8 :=
  let extensions := emulatedExtensions key alpn
  let bodyLen := 2 + 32 + 1 + sessionId.length + 2 + 1 + 2 + extensions.length
  let cipher := if template.cipherSuite.toList = [0, 0] then [0x13, 0x01]
    else template.cipherSuite.toList
  0x02 :: (beBytes 4 bodyLen).drop 1 ++ template.version.toList ++ List.replicate 32 0 ++
    [UInt8.ofNat sessionId.length] ++ sessionId ++ cipher ++ [template.compression] ++
    beBytes 2 extensions.length ++ extensions

def buildEmulatedServerHello (sha256Hmac : List UInt8 → List UInt8 → Block UInt8 tlsDigestLen)
    (jitterRange : ℕ → ℕ) (secret clientDigest sessionId : List UInt8) (cached : CachedTlsData)
    (useFullCertPayload : Bool) (rng : Draws) (alpn : Option (List UInt8))
    (newSessionTickets : UInt8) : List UInt8 :=
  let message := emulatedMessage cached.serverHelloTemplate sessionId (genFakeX25519Key (rng 0)) alpn
  let serverHello := tlsRecordHandshake :: tlsVersion ++ beBytes 2 message.length ++ message
  let jitter := rng.skip 1
  let sizes := emulatedSizes jitterRange cached useFullCertPayload jitter
  let bodies := jitter.skip sizes.length
  let appData := emulatedRecords bodies (selectedPayload cached useFullCertPayload) 0 sizes
  let tickets := ticketRecords (bodies.skip (2 * sizes.length)) newSessionTickets.toNat
  signResponse sha256Hmac secret clientDigest (serverHello ++ changeCipherSpec ++ appData ++ tickets)

/-! ### The sizes are within the limits -/

/-- The limits of the size of a record. -/
def InLimits (size : ℕ) : Prop := minAppData ≤ size ∧ size ≤ maxAppData

theorem inLimits_clamp (size : ℕ) : InLimits (clamp minAppData maxAppData size) :=
  clamp_mem (by decide) size

theorem InLimits.overhead_lt {size : ℕ} (h : InLimits size) : 17 < size := by
  have hmin : minAppData ≤ size := h.1
  rw [minAppData] at hmin
  omega

section
variable (jitterRange : ℕ → ℕ)

theorem inLimits_jitterAndClampSize (rng : SecureRandom) (size : ℕ) :
    InLimits (jitterAndClampSize jitterRange rng size) := by
  unfold jitterAndClampSize
  simp only
  split_ifs with hrange
  · exact inLimits_clamp size
  · have hmem := clamp_mem (show (minAppData : ℤ) ≤ maxAppData by decide)
      (clamp minAppData maxAppData size + ((leVal (rng.bytes 2) : ℤ) %
        (2 * (jitterRange (clamp minAppData maxAppData size) : ℤ) + 1) -
          jitterRange (clamp minAppData maxAppData size)))
    unfold InLimits
    omega

theorem inLimits_jitterAndClampSizes (rng : Draws) (sizes : List ℕ) :
    ∀ size ∈ jitterAndClampSizes jitterRange rng sizes, InLimits size := by
  induction sizes generalizing rng with
  | nil => exact List.forall_mem_nil _
  | cons size sizes ih =>
    exact List.forall_mem_cons.mpr
      ⟨inLimits_jitterAndClampSize jitterRange (rng 0) size, ih (rng.skip 1)⟩

end

/-! ### The sizes hold the payload -/

theorem appDataBodyCapacity_append (sizes more : List ℕ) :
    appDataBodyCapacity (sizes ++ more) =
      appDataBodyCapacity sizes + appDataBodyCapacity more := by
  rw [appDataBodyCapacity, List.map_append, List.sum_append]
  rfl

theorem appDataBodyCapacity_singleton (size : ℕ) : appDataBodyCapacity [size] = size - 17 := by
  simp [appDataBodyCapacity]

/-- Only the last of the old sizes has grown, and sizes have been added. -/
def Extends (old new : List ℕ) : Prop :=
  old = [] ∨ ∃ front last grow more, old = front ++ [last] ∧ new = front ++ [last + grow] ++ more

theorem Extends.refl (sizes : List ℕ) : Extends sizes sizes := by
  rcases List.eq_nil_or_concat sizes with rfl | ⟨front, last, rfl⟩
  · exact Or.inl rfl
  · exact Or.inr ⟨front, last, 0, [], List.concat_eq_append .., by simp⟩

theorem Extends.append {old new : List ℕ} (h : Extends old new) (more : List ℕ) :
    Extends old (new ++ more) := by
  rcases h with rfl | ⟨front, last, grow, added, rfl, rfl⟩
  · exact Or.inl rfl
  · exact Or.inr ⟨front, last, grow, added ++ more, rfl, List.append_assoc ..⟩

/-- What holds while records are added: the body is counted exactly, the sizes are within the limits
    and extend those at the start. -/
structure Reserving (start : List ℕ) (s : List ℕ × ℕ) : Prop where
  counted : s.2 = appDataBodyCapacity s.1
  limits : ∀ size ∈ s.1, InLimits size
  extended : Extends start s.1

section
variable {sizes : List ℕ} (payloadLen : ℕ)

theorem reserving_growLast (hsizes : ∀ size ∈ sizes, InLimits size) :
    Reserving sizes (growLast sizes payloadLen (appDataBodyCapacity sizes)) := by
  rcases List.eq_nil_or_concat sizes with rfl | ⟨front, last, hlast⟩
  · exact ⟨rfl, List.forall_mem_nil _, Or.inl rfl⟩
  · rw [List.concat_eq_append] at hlast
    subst hlast
    have hfront : ∀ size ∈ front, InLimits size :=
      fun size hsize => hsizes size (List.mem_append_left _ hsize)
    have hin := hsizes last (List.mem_append_right _ (List.mem_singleton_self last))
    have hover := hin.overhead_lt
    unfold growLast
    rw [List.getLast?_concat, List.dropLast_concat]
    refine ⟨?_, ?_, Or.inr ⟨front, last, _, [], rfl, (List.append_nil _).symm⟩⟩
    · simp only [appDataBodyCapacity_append, appDataBodyCapacity_singleton]
      omega
    · intro size hsize
      rcases List.mem_append.mp hsize with hold | hnew
      · exact hfront size hold
      · obtain rfl := List.mem_singleton.mp hnew
        have hmin := hin.1
        have hmax := hin.2
        exact ⟨by omega, by omega⟩

theorem reserving_addRecord {s s' : List ℕ × ℕ} (h : Reserving sizes s)
    (hs : addRecord payloadLen s = .inl s') : Reserving sizes s' := by
  unfold addRecord at hs
  simp only at hs
  split_ifs at hs with hless
  obtain rfl := Sum.inl.inj hs
  refine ⟨?_, ?_, h.extended.append _⟩
  · rw [appDataBodyCapacity_append, appDataBodyCapacity_singleton, h.counted]
  · intro size hsize
    rcases List.mem_append.mp hsize with hold | hnew
    · exact h.limits size hold
    · obtain rfl := List.mem_singleton.mp hnew
      exact inLimits_clamp _

theorem addRecord_inr {s : List ℕ × ℕ} {out : List ℕ} (hs : addRecord payloadLen s = .inr out) :
    out = s.1 ∧ payloadLen ≤ s.2 := by
  unfold addRecord at hs
  simp only at hs
  split_ifs at hs with hless
  exact ⟨(Sum.inr.inj hs).symm, not_lt.mp hless⟩

/-- The sizes that come out: within the limits, extending the ones given, and large enough. -/
structure Reserved (start : List ℕ) (payloadLen : ℕ) (out : List ℕ) : Prop where
  limits : ∀ size ∈ out, InLimits size
  extended : Extends start out
  capacity : payloadLen ≤ appDataBodyCapacity out

theorem ensurePayloadCapacity_reserved (hsizes : ∀ size ∈ sizes, InLimits size) :
    Reserved sizes payloadLen (ensurePayloadCapacity sizes payloadLen) := by
  unfold ensurePayloadCapacity
  simp only
  split_ifs with hzero henough
  · exact ⟨hsizes, Extends.refl sizes, by omega⟩
  · exact ⟨hsizes, Extends.refl sizes, henough⟩
  · refine loop_invariant (I := Reserving sizes) _ _ _ ?_ ?_ _
      (reserving_growLast payloadLen hsizes)
    · exact fun s s' h hs => reserving_addRecord payloadLen h hs
    · intro s out h hs
      obtain ⟨rfl, hcapacity⟩ := addRecord_inr payloadLen hs
      exact ⟨h.limits, h.extended, h.counted ▸ hcapacity⟩

end

/-! ### The records hold the payload -/

/-- The contents of the records, one by one. -/
def emulatedBodies (rng : Draws) (payload : Option (List UInt8)) : ℕ → List ℕ → List (List UInt8)
  | _, [] => []
  | payloadOffset, size :: sizes =>
    (emulatedRecord rng payload payloadOffset size).1 ::
      emulatedBodies (rng.skip 2) payload (emulatedRecord rng payload payloadOffset size).2 sizes

/-- A record of this size that ends with the marker of a handshake message and a tag. -/
def Sealed (size : ℕ) (body : List UInt8) : Prop :=
  body.length = size ∧ ∃ tag, tag.length = 16 ∧ body.drop (size - 17) = 0x16 :: tag

/-- A body of `n` bytes in front of the marker and a tag. -/
theorem sealed_of_eq {size : ℕ} (hsize : 17 < size) {front tag : List UInt8}
    (hfront : front.length = size - 17) (htag : tag.length = 16) :
    Sealed size (front ++ [0x16] ++ tag) := by
  refine ⟨?_, tag, htag, ?_⟩
  · simp only [List.length_append, List.length_singleton]
    omega
  · rw [List.append_assoc, List.drop_left' hfront]
    rfl

section
variable (rng : Draws)

theorem sealed_emulatedRecord (payload : Option (List UInt8)) (payloadOffset : ℕ) {size : ℕ}
    (hsize : InLimits size) : Sealed size (emulatedRecord rng payload payloadOffset size).1 := by
  have hover := hsize.overhead_lt
  unfold emulatedRecord
  cases payload with
  | none =>
    simp only [if_pos hover]
    exact sealed_of_eq hover ((rng 0).length_bytes _) ((rng 1).length_bytes 16)
  | some payload =>
    simp only [if_pos hover]
    refine sealed_of_eq hover ?_ ((rng 1).length_bytes 16)
    rw [List.length_append, length_slice, (rng 0).length_bytes]
    omega

theorem sealed_emulatedBodies (payload : Option (List UInt8)) {sizes : List ℕ}
    (hsizes : ∀ size ∈ sizes, InLimits size) (payloadOffset : ℕ) :
    List.Forall₂ Sealed sizes (emulatedBodies rng payload payloadOffset sizes) := by
  induction sizes generalizing rng payloadOffset with
  | nil => exact List.Forall₂.nil
  | cons size sizes ih =>
    obtain ⟨hsize, hrest⟩ := List.forall_mem_cons.mp hsizes
    exact List.Forall₂.cons (sealed_emulatedRecord rng payload payloadOffset hsize)
      (ih (rng.skip 2) hrest _)

theorem emulatedBodies_le (payload : Option (List UInt8)) {sizes : List ℕ}
    (hsizes : ∀ size ∈ sizes, InLimits size) (payloadOffset : ℕ) :
    ∀ body ∈ emulatedBodies rng payload payloadOffset sizes, body.length ≤ maxAppData := by
  induction sizes generalizing rng payloadOffset with
  | nil => exact List.forall_mem_nil _
  | cons size sizes ih =>
    obtain ⟨hsize, hrest⟩ := List.forall_mem_cons.mp hsizes
    have hlen := (sealed_emulatedRecord rng payload payloadOffset hsize).1
    exact List.forall_mem_cons.mpr ⟨hlen.le.trans hsize.2, ih (rng.skip 2) hrest _⟩

theorem emulatedRecords_eq (payload : Option (List UInt8)) {sizes : List ℕ}
    (hsizes : ∀ size ∈ sizes, InLimits size) (payloadOffset : ℕ) :
    emulatedRecords rng payload payloadOffset sizes =
      ((emulatedBodies rng payload payloadOffset sizes).map (TlsRecord.mk 0x17)).flatMap
        TlsRecord.toBytes := by
  induction sizes generalizing rng payloadOffset with
  | nil => rfl
  | cons size sizes ih =>
    obtain ⟨hsize, hrest⟩ := List.forall_mem_cons.mp hsizes
    have hlen := (sealed_emulatedRecord rng payload payloadOffset hsize).1
    rw [emulatedRecords, emulatedBodies, List.map_cons, List.flatMap_cons, appDataRecord_eq hlen,
      ih (rng.skip 2) hrest]

/-- What the records carry in front of their overhead. -/
def carried (bodies : List (List UInt8)) : List UInt8 :=
  bodies.flatMap fun body => body.take (body.length - 17)

/-- One record carries what it takes from the payload, and then random bytes. -/
theorem carried_emulatedRecord (payload : List UInt8) (payloadOffset : ℕ) {size : ℕ}
    (hsize : InLimits size) :
    (emulatedRecord rng (some payload) payloadOffset size).1.take
        ((emulatedRecord rng (some payload) payloadOffset size).1.length - 17) =
      slice payload payloadOffset (min (payload.length - payloadOffset) (size - 17)) ++
        (rng 0).bytes (size - 17 - min (payload.length - payloadOffset) (size - 17)) := by
  have hover := hsize.overhead_lt
  rw [(sealed_emulatedRecord rng (some payload) payloadOffset hsize).1]
  unfold emulatedRecord
  simp only [if_pos hover]
  rw [List.append_assoc, List.take_left']
  rw [List.length_append, length_slice, (rng 0).length_bytes]
  omega

/-- The rest of the payload is carried by records that are large enough for it. -/
theorem carried_emulatedBodies (payload : List UInt8) {sizes : List ℕ}
    (hsizes : ∀ size ∈ sizes, InLimits size) (payloadOffset : ℕ)
    (hcapacity : payload.length - payloadOffset ≤ appDataBodyCapacity sizes) :
    payload.drop payloadOffset <+:
      carried (emulatedBodies rng (some payload) payloadOffset sizes) := by
  induction sizes generalizing rng payloadOffset with
  | nil =>
    rw [appDataBodyCapacity, List.map_nil, List.sum_nil, Nat.le_zero] at hcapacity
    rw [List.drop_eq_nil_of_le (by omega)]
    exact List.nil_prefix
  | cons size sizes ih =>
    obtain ⟨hsize, hrest⟩ := List.forall_mem_cons.mp hsizes
    have hover := hsize.overhead_lt
    rw [appDataBodyCapacity, List.map_cons, List.sum_cons, ← appDataBodyCapacity] at hcapacity
    rw [emulatedBodies, carried, List.flatMap_cons, carried_emulatedRecord rng payload _ hsize,
      ← carried]
    by_cases hlast : payload.length - payloadOffset ≤ size - 17
    · -- the whole rest of the payload is in this record
      rw [min_eq_left hlast, slice, List.take_of_length_le (by rw [List.length_drop]),
        List.append_assoc]
      exact List.prefix_append _ _
    · have hfull : min (payload.length - payloadOffset) (size - 17) = size - 17 :=
        min_eq_right (by omega)
      have hnext : (emulatedRecord rng (some payload) payloadOffset size).2 =
          payloadOffset + (size - 17) := by
        unfold emulatedRecord
        simp only [if_pos hover, hfull]
      have hnone : (rng 0).bytes (size - 17 - (size - 17)) = [] :=
        List.length_eq_zero_iff.mp (by rw [(rng 0).length_bytes, Nat.sub_self])
      have hsplit : payload.drop payloadOffset = slice payload payloadOffset (size - 17) ++
          payload.drop (payloadOffset + (size - 17)) := by
        rw [slice, ← List.drop_drop, List.take_append_drop]
      rw [hfull, hnone, List.append_nil, hnext, hsplit]
      exact (List.prefix_append_right_inj _).mpr (ih (rng.skip 2) hrest _ (by omega))

end

/-! ### The response -/

theorem inLimits_emulatedSizes (jitterRange : ℕ → ℕ) (cached : CachedTlsData)
    (useFullCertPayload : Bool) (rng : Draws) :
    ∀ size ∈ emulatedSizes jitterRange cached useFullCertPayload rng, InLimits size := by
  have hjittered : ∀ size ∈ jitteredSizes jitterRange cached rng, InLimits size :=
    inLimits_jitterAndClampSizes jitterRange rng _
  unfold emulatedSizes
  cases selectedPayload cached useFullCertPayload with
  | none => exact hjittered
  | some payload => exact (ensurePayloadCapacity_reserved payload.length hjittered).limits

/-- The sizes hold the payload that was selected. -/
theorem emulatedSizes_capacity (jitterRange : ℕ → ℕ) {cached : CachedTlsData}
    {useFullCertPayload : Bool} (rng : Draws) {payload : List UInt8}
    (hpayload : selectedPayload cached useFullCertPayload = some payload) :
    payload.length ≤
      appDataBodyCapacity (emulatedSizes jitterRange cached useFullCertPayload rng) := by
  rw [emulatedSizes, hpayload]
  exact (ensurePayloadCapacity_reserved payload.length
    (inLimits_jitterAndClampSizes jitterRange rng _)).capacity

section
variable {key : List UInt8} {alpn : Option (List UInt8)}

theorem emulatedExtensions_eq (hkey : key.length = 32) (halpn : ∀ p ∈ alpn, p.length ≤ 255) :
    emulatedExtensions key alpn = (helloExtensions key alpn).flatMap extensionBytes := by
  have hplain : beBytes 2 0x0033 ++ beBytes 2 (2 + 2 + 32) ++ beBytes 2 0x001d ++ beBytes 2 32 ++
      key ++ beBytes 2 0x002b ++ beBytes 2 2 ++ beBytes 2 0x0304 =
        addSupportedVersions (addKeyShare [] key) 0x0304 := by
    simp only [addSupportedVersions, addKeyShare, List.nil_append, List.append_assoc]
  unfold emulatedExtensions
  rw [hplain, addSupportedVersions_eq, addKeyShare_eq _ hkey]
  cases alpn with
  | none => simp [helloExtensions]
  | some proto =>
    have hproto := halpn proto rfl
    have hlen : (UInt8.ofNat proto.length).toNat = proto.length :=
      UInt8.toNat_ofNat_of_lt (by rw [UInt8.size]; omega)
    have halpn := addAlpn_eq (extensionBytes (0x0033, keyShareData key) ++
      extensionBytes (0x002b, beBytes 2 0x0304)) hproto
    simp only [addAlpn, hlen] at halpn
    simp only [List.nil_append, halpn]
    simp [helloExtensions]

/-- The cipher suite of the profiled server, or a common one. -/
def cipherOf (template : ParsedServerHello) : List UInt8 :=
  if template.cipherSuite.toList = [0, 0] then [0x13, 0x01] else template.cipherSuite.toList

theorem length_cipherOf (template : ParsedServerHello) : (cipherOf template).length = 2 := by
  unfold cipherOf
  split_ifs
  · rfl
  · exact template.cipherSuite.length_eq

/-- A response with this template. -/
def templateResponse (template : ParsedServerHello) (sessionId key : List UInt8)
    (alpn : Option (List UInt8)) (appData : List (List UInt8)) : TlsResponse :=
  unsignedResponse template.version.toList (cipherOf template) template.compression sessionId key
    alpn appData

theorem emulatedMessage_eq (template : ParsedServerHello) {sessionId : List UInt8}
    (hsession : sessionId.length ≤ 255) (hkey : key.length = 32)
    (halpn : ∀ p ∈ alpn, p.length ≤ 255) (appData : List (List UInt8)) :
    emulatedMessage template sessionId key alpn =
      (templateResponse template sessionId key alpn appData).hello.toBytes := by
  have hhello : (templateResponse template sessionId key alpn appData).hello.Fits :=
    (unsignedResponse_fits template.compression template.version.length_eq
      (length_cipherOf template) hsession hkey halpn (List.forall_mem_nil _)).hello
  rw [helloToBytes_eq hhello]
  simp only [emulatedMessage, emulatedExtensions_eq hkey halpn]
  rfl

end

section
variable (sha256Hmac : List UInt8 → List UInt8 → Block UInt8 tlsDigestLen) (jitterRange : ℕ → ℕ)
  (secret clientDigest : List UInt8) {sessionId : List UInt8} (cached : CachedTlsData)
  (useFullCertPayload : Bool) (rng : Draws) {alpn : Option (List UInt8)} (newSessionTickets : UInt8)

/-- The bodies of the records with the certificate. -/
def certBodies : List (List UInt8) :=
  emulatedBodies ((rng.skip 1).skip
      (emulatedSizes jitterRange cached useFullCertPayload (rng.skip 1)).length)
    (selectedPayload cached useFullCertPayload) 0
    (emulatedSizes jitterRange cached useFullCertPayload (rng.skip 1))

/-- The bodies of the tickets. -/
def emulatedTickets : List (List UInt8) :=
  ticketBodies (((rng.skip 1).skip
      (emulatedSizes jitterRange cached useFullCertPayload (rng.skip 1)).length).skip
    (2 * (emulatedSizes jitterRange cached useFullCertPayload (rng.skip 1)).length))
    newSessionTickets.toNat

/-- What `build_emulated_server_hello` signs. -/
def emulatedResponse (sessionId : List UInt8) (alpn : Option (List UInt8)) : TlsResponse :=
  templateResponse cached.serverHelloTemplate sessionId (genFakeX25519Key (rng 0)) alpn
    (certBodies jitterRange cached useFullCertPayload rng ++
      emulatedTickets jitterRange cached useFullCertPayload rng newSessionTickets)

theorem buildEmulatedServerHello_eq (hsession : sessionId.length ≤ 255)
    (halpn : ∀ p ∈ alpn, p.length ≤ 255) :
    buildEmulatedServerHello sha256Hmac jitterRange secret clientDigest sessionId cached
        useFullCertPayload rng alpn newSessionTickets =
      signResponse sha256Hmac secret clientDigest (emulatedResponse jitterRange cached
        useFullCertPayload rng newSessionTickets sessionId alpn).toBytes := by
  have hmessage := emulatedMessage_eq cached.serverHelloTemplate hsession
    (length_genFakeX25519Key (rng 0)) halpn (certBodies jitterRange cached useFullCertPayload rng ++
      emulatedTickets jitterRange cached useFullCertPayload rng newSessionTickets)
  have hrecords := emulatedRecords_eq ((rng.skip 1).skip
      (emulatedSizes jitterRange cached useFullCertPayload (rng.skip 1)).length)
    (selectedPayload cached useFullCertPayload)
    (inLimits_emulatedSizes jitterRange cached useFullCertPayload (rng.skip 1)) 0
  unfold buildEmulatedServerHello
  simp only [hmessage, hrecords, ticketRecords_eq]
  rw [toBytes_records]
  simp only [emulatedResponse, templateResponse, unsignedResponse, certBodies, emulatedTickets,
    List.map_append, List.flatMap_append, List.append_assoc]

theorem emulatedResponse_le : ∀ body ∈ certBodies jitterRange cached useFullCertPayload rng ++
    emulatedTickets jitterRange cached useFullCertPayload rng newSessionTickets,
    body.length ≤ 16640 := by
  intro body hbody
  have hsizes := inLimits_emulatedSizes jitterRange cached useFullCertPayload (rng.skip 1)
  rcases List.mem_append.mp hbody with hcert | hticket
  · exact emulatedBodies_le _ _ hsizes 0 body hcert
  · have hlen := ticketBodies_le _ _ body hticket
    omega

/-- Both builders answer with a response that a client reads, with every length exact, and whose
    random authenticates it. -/
theorem serverHello_builders_meet (fakeCertLen : ℕ) (hsession : sessionId.length ≤ 255)
    (halpn : ∀ p ∈ alpn, p.length ≤ 255) :
    (WellFormed (buildServerHello sha256Hmac secret clientDigest sessionId fakeCertLen rng alpn
        newSessionTickets) sessionId alpn ∧
      Authenticated sha256Hmac secret clientDigest (buildServerHello sha256Hmac secret clientDigest
        sessionId fakeCertLen rng alpn newSessionTickets)) ∧
    WellFormed (buildEmulatedServerHello sha256Hmac jitterRange secret clientDigest sessionId cached
        useFullCertPayload rng alpn newSessionTickets) sessionId alpn ∧
      Authenticated sha256Hmac secret clientDigest (buildEmulatedServerHello sha256Hmac jitterRange
        secret clientDigest sessionId cached useFullCertPayload rng alpn newSessionTickets) := by
  refine ⟨buildServerHello_meets sha256Hmac secret clientDigest fakeCertLen rng newSessionTickets
    hsession halpn, ?_⟩
  rw [buildEmulatedServerHello_eq sha256Hmac jitterRange secret clientDigest cached
    useFullCertPayload rng newSessionTickets hsession halpn]
  exact signResponse_meets sha256Hmac secret clientDigest cached.serverHelloTemplate.compression
    cached.serverHelloTemplate.version.length_eq (length_cipherOf cached.serverHelloTemplate)
    hsession (length_genFakeX25519Key (rng 0)) halpn
    (emulatedResponse_le jitterRange cached useFullCertPayload rng newSessionTickets)

end

def zeroCached : CachedTlsData where
  serverHelloTemplate := ⟨⟨[0x03, 0x03], rfl⟩, ⟨[0x13, 0x02], rfl⟩, 0⟩
  certInfo := none
  certPayload := some ⟨[0x0b, 0x00]⟩
  appDataRecordsSizes := [64]
  totalAppDataLen := 64

theorem h2_le : ∀ p ∈ some [(0x68 : UInt8), 0x32], p.length ≤ 255 := by
  intro p hp
  cases hp
  decide

/-- A response with a session id of two bytes and the ALPN choice `h2`. -/
theorem serverHello_builders_meet_short :
    WellFormed (buildEmulatedServerHello (fun _ _ => ⟨List.replicate 32 7, rfl⟩) (fun _ => 0) [1]
      [2] [5, 6] zeroCached true (fun _ => zeroRandom) (some [0x68, 0x32]) 1) [5, 6]
      (some [0x68, 0x32]) :=
  (serverHello_builders_meet (fun _ _ => ⟨List.replicate 32 7, rfl⟩) (fun _ => 0) [1] [2]
    zeroCached true (fun _ => zeroRandom) 1 100 (by decide) h2_le).2.1

section
variable (sha256Hmac : List UInt8 → List UInt8 → Block UInt8 tlsDigestLen) (jitterRange : ℕ → ℕ)
  (secret clientDigest : List UInt8) {sessionId : List UInt8} (cached : CachedTlsData)
  (useFullCertPayload : Bool) (rng : Draws) {alpn : Option (List UInt8)} (newSessionTickets : UInt8)

/-- The part of the response in front of the ChangeCipherSpec, before it is signed. -/
def emulatedHello (template : ParsedServerHello) (sessionId key : List UInt8)
    (alpn : Option (List UInt8)) : List UInt8 :=
  tlsRecordHandshake :: tlsVersion ++
    beBytes 2 (emulatedMessage template sessionId key alpn).length ++
    emulatedMessage template sessionId key alpn

/-- The random lies within the ServerHello. -/
theorem le_length_emulatedHello (template : ParsedServerHello) (sessionId key : List UInt8)
    (alpn : Option (List UInt8)) :
    43 ≤ (emulatedHello template sessionId key alpn).length := by
  simp only [emulatedHello, emulatedMessage, tlsVersion, List.length_append, List.length_cons,
    List.length_nil, List.length_replicate, length_beBytes, template.version.length_eq]
  omega

/-- What is signed, record by record. -/
theorem buildEmulatedServerHello_records (sessionId : List UInt8) (alpn : Option (List UInt8)) :
    buildEmulatedServerHello sha256Hmac jitterRange secret clientDigest sessionId cached
        useFullCertPayload rng alpn newSessionTickets =
      signResponse sha256Hmac secret clientDigest
        (emulatedHello cached.serverHelloTemplate sessionId (genFakeX25519Key (rng 0)) alpn ++
          (changeCipherSpec ++
            ((certBodies jitterRange cached useFullCertPayload rng ++ emulatedTickets jitterRange
              cached useFullCertPayload rng newSessionTickets).map (TlsRecord.mk 0x17)).flatMap
                TlsRecord.toBytes)) := by
  have hrecords := emulatedRecords_eq ((rng.skip 1).skip
      (emulatedSizes jitterRange cached useFullCertPayload (rng.skip 1)).length)
    (selectedPayload cached useFullCertPayload)
    (inLimits_emulatedSizes jitterRange cached useFullCertPayload (rng.skip 1)) 0
  unfold buildEmulatedServerHello
  simp only [hrecords, ticketRecords_eq, emulatedHello, certBodies, emulatedTickets,
    List.map_append, List.flatMap_append, List.append_assoc]

/-- Signing changes the ServerHello only. -/
theorem emulated_records (sessionId : List UInt8) (alpn : Option (List UInt8)) :
    ∃ hello, hello.length = (emulatedHello cached.serverHelloTemplate sessionId
        (genFakeX25519Key (rng 0)) alpn).length ∧
      buildEmulatedServerHello sha256Hmac jitterRange secret clientDigest sessionId cached
          useFullCertPayload rng alpn newSessionTickets =
        hello ++ (changeCipherSpec ++
          ((certBodies jitterRange cached useFullCertPayload rng ++ emulatedTickets jitterRange
            cached useFullCertPayload rng newSessionTickets).map (TlsRecord.mk 0x17)).flatMap
              TlsRecord.toBytes) := by
  have hfits : ∀ digest : Block UInt8 tlsDigestLen, tlsDigestPos + digest.toList.length ≤
      (emulatedHello cached.serverHelloTemplate sessionId (genFakeX25519Key (rng 0)) alpn).length := by
    intro digest
    have hlen := le_length_emulatedHello cached.serverHelloTemplate sessionId
      (genFakeX25519Key (rng 0)) alpn
    rw [digest.length_eq, tlsDigestPos, tlsDigestLen]
    omega
  rw [buildEmulatedServerHello_records, signResponse, copyInto_append (hfits _)]
  exact ⟨_, length_copyInto (hfits _), rfl⟩

/-- The ApplicationData records as a client reads them. -/
theorem emulated_appData (hsession : sessionId.length ≤ 255) (halpn : ∀ p ∈ alpn, p.length ≤ 255) :
    (readResponse (buildEmulatedServerHello sha256Hmac jitterRange secret clientDigest sessionId
      cached useFullCertPayload rng alpn newSessionTickets)).map TlsResponse.appData =
        some (certBodies jitterRange cached useFullCertPayload rng ++
          emulatedTickets jitterRange cached useFullCertPayload rng newSessionTickets) := by
  have hfits : (emulatedResponse jitterRange cached useFullCertPayload rng newSessionTickets
      sessionId alpn).Fits :=
    unsignedResponse_fits cached.serverHelloTemplate.compression
      cached.serverHelloTemplate.version.length_eq (length_cipherOf cached.serverHelloTemplate)
      hsession (length_genFakeX25519Key (rng 0)) halpn
      (emulatedResponse_le jitterRange cached useFullCertPayload rng newSessionTickets)
  rw [buildEmulatedServerHello_eq sha256Hmac jitterRange secret clientDigest cached
    useFullCertPayload rng newSessionTickets hsession halpn,
    signResponse_eq sha256Hmac secret clientDigest hfits.hello,
    readResponse_toBytes (withRandom_fits hfits (length_responseDigest sha256Hmac secret
      clientDigest))]
  rfl

/-- The sizes are within the limits, extend the jittered ones and hold the payload, and the records
    of the response have these sizes, carry the payload from its start, and are sealed. -/
theorem certificate_carried (sizes : List ℕ) (payloadLen : ℕ) (sessionId : List UInt8)
    (alpn : Option (List UInt8)) :
    Reserved (jitterAndClampSizes jitterRange rng sizes) payloadLen
      (ensurePayloadCapacity (jitterAndClampSizes jitterRange rng sizes) payloadLen) ∧
    ∃ hello bodies tickets,
      buildEmulatedServerHello sha256Hmac jitterRange secret clientDigest sessionId cached
          useFullCertPayload rng alpn newSessionTickets =
        hello ++ (changeCipherSpec ++
          ((bodies ++ tickets).map (TlsRecord.mk 0x17)).flatMap TlsRecord.toBytes) ∧
      (sessionId.length ≤ 255 → (∀ p ∈ alpn, p.length ≤ 255) →
        (readResponse (buildEmulatedServerHello sha256Hmac jitterRange secret clientDigest sessionId
          cached useFullCertPayload rng alpn newSessionTickets)).map TlsResponse.appData =
            some (bodies ++ tickets)) ∧
      List.Forall₂ Sealed (emulatedSizes jitterRange cached useFullCertPayload (rng.skip 1))
        bodies ∧
      ∀ payload, selectedPayload cached useFullCertPayload = some payload →
        emulatedSizes jitterRange cached useFullCertPayload (rng.skip 1) =
          ensurePayloadCapacity (jitteredSizes jitterRange cached (rng.skip 1)) payload.length ∧
        payload <+: carried bodies := by
  have hsizes := inLimits_emulatedSizes jitterRange cached useFullCertPayload (rng.skip 1)
  obtain ⟨hello, -, hresponse⟩ := emulated_records sha256Hmac jitterRange secret clientDigest cached
    useFullCertPayload rng newSessionTickets sessionId alpn
  refine ⟨ensurePayloadCapacity_reserved payloadLen
    (inLimits_jitterAndClampSizes jitterRange rng sizes), hello, _, _, hresponse,
    emulated_appData sha256Hmac jitterRange secret clientDigest cached useFullCertPayload rng
      newSessionTickets, sealed_emulatedBodies _ _ hsizes 0, ?_⟩
  intro payload hpayload
  constructor
  · rw [emulatedSizes, hpayload]
  · have hcapacity := emulatedSizes_capacity jitterRange (rng.skip 1) hpayload
    rw [certBodies, hpayload]
    exact carried_emulatedBodies _ payload hsizes 0 hcapacity

end

def countingPayload : List UInt8 := (List.range 100).map UInt8.ofNat

/-- A server profiled with two small records, and a certificate that is too long for them. -/
def twoRecordsCached : CachedTlsData :=
  { zeroCached with certPayload := some ⟨countingPayload⟩, appDataRecordsSizes := [64, 64] }

/-- The second record grows from 64 to 70 bytes, and carries what is left of the certificate. -/
theorem certificate_carried_two_records :
    ∃ hello first second tickets,
      buildEmulatedServerHello (fun _ _ => ⟨List.replicate 32 7, rfl⟩) (fun _ => 0) [1] [2]
          [5, 6] twoRecordsCached true (fun _ => zeroRandom) none 1 =
        hello ++ (changeCipherSpec ++
          (([first, second] ++ tickets).map (TlsRecord.mk 0x17)).flatMap TlsRecord.toBytes) ∧
      first.length = 64 ∧ second.length = 70 ∧
      countingPayload = first.take 47 ++ second.take 53 := by
  obtain ⟨-, hello, bodies, tickets, hresponse, -, hsealed, hcarried⟩ :=
    certificate_carried (fun _ _ => ⟨List.replicate 32 7, rfl⟩) (fun _ => 0) [1] [2]
      twoRecordsCached true (fun _ => zeroRandom) 1 [64, 64] 100 [5, 6] none
  obtain ⟨hsizes, hprefix⟩ := hcarried countingPayload (by decide)
  have hgrown : ensurePayloadCapacity [64, 64] 100 = [64, 70] := by
    rw [ensurePayloadCapacity, if_neg (by decide), if_neg (by decide)]
    exact loop_inr _ _ _ (by decide)
  have hjittered : jitteredSizes (fun _ => 0) twoRecordsCached (Draws.skip (fun _ => zeroRandom) 1) =
      [64, 64] := by decide
  rw [hsizes, hjittered, show countingPayload.length = 100 by decide, hgrown] at hsealed
  obtain ⟨first, rest, ⟨hfirst, -⟩, hrest, rfl⟩ := List.forall₂_cons_left_iff.mp hsealed
  obtain ⟨second, rest, ⟨hsecond, -⟩, hnil, rfl⟩ := List.forall₂_cons_left_iff.mp hrest
  obtain rfl := List.forall₂_nil_left_iff.mp hnil
  refine ⟨hello, first, second, tickets, hresponse, hfirst, hsecond, ?_⟩
  simp only [carried, List.flatMap_cons, List.flatMap_nil, List.append_nil, hfirst, hsecond] at hprefix
  refine hprefix.eq_of_length ?_
  simp [countingPayload, hfirst, hsecond]

end MtProxy.TlsFront
