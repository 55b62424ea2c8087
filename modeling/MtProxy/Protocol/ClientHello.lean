import MtProxy.Protocol.ServerHello
import MtProxy.Schemes.Loop

/-! `extract_sni_from_client_hello` and `extract_alpn_from_client_hello`: two cursors over the bytes of
    a ClientHello, walking lists in lists. Every access to the bytes is checked here, and none fails.

        hello        … │ extensions length 2 │ type 2 │ length 2 │ data │ type 2 │ ⋯
        server_name  list length 2 │ name type 1 │ length 2 │ name │ ⋯
        ALPN         list length 2 │ length 1 │ protocol │ ⋯ -/

namespace MtProxy.Protocol
open Schemes

/-- `u16::from_be_bytes([bs[pos], bs[pos + 1]])`. -/
def u16At (bs : List UInt8) (pos : ℕ) : Option ℕ := do
  let high ← bs[pos]?
  let low ← bs[pos + 1]?
  return high.toNat * 256 + low.toNat

/-- `std::str::from_utf8`, with the copy. -/
def fromUtf8 (bytes : List UInt8) : Option String := String.fromUTF8? ⟨bytes.toArray⟩

section
variable (handshake : List UInt8)

/-- Both functions walk to the extensions in the same way: where these start and end. The outer
    `none` is an access out of range. -/
def skipToExtensions : Option (Option (ℕ × ℕ)) := do
  let pos := 5 + 4 + (2 + 32)
  if handshake.length < pos + 1 then return none
  else
    let sessionIdLen ← handshake[pos]?
    let pos := pos + (1 + sessionIdLen.toNat)
    if handshake.length < pos + 2 then return none
    else
      let cipherSuitesLen ← u16At handshake pos
      let pos := pos + (2 + cipherSuitesLen)
      if handshake.length < pos + 1 then return none
      else
        let compLen ← handshake[pos]?
        let pos := pos + (1 + compLen.toNat)
        if handshake.length < pos + 2 then return none
        else
          let extLen ← u16At handshake pos
          let pos := pos + 2
          if handshake.length < pos + extLen then return none
          else return some (pos, pos + extLen)

/-! ### The server name -/

/-- One name of the list, or the end of it. -/
def serverNameRound (snEnd snPos : ℕ) : Option (ℕ ⊕ Option String) :=
  if snPos + 3 ≤ snEnd then do
    let nameType ← handshake[snPos]?
    let nameLen ← u16At handshake (snPos + 1)
    let snPos := snPos + 3
    if snEnd < snPos + nameLen then some (.inr none)
    else if nameType = 0 ∧ 0 < nameLen then
      let name ← sliceChecked handshake snPos nameLen
      match fromUtf8 name with
      | some host => some (.inr (some host))
      | none => some (.inl (snPos + nameLen))
    else some (.inl (snPos + nameLen))
  else some (.inr none)

variable {handshake} in
/-- A round that goes on has passed a name. -/
theorem serverNameRound_inl {snEnd snPos s' : ℕ}
    (h : serverNameRound handshake snEnd snPos = some (.inl s')) :
    snEnd - s' < snEnd - snPos := by
  unfold serverNameRound at h
  split_ifs at h with hroom
  · simp only [Option.bind_eq_bind, Option.bind_eq_some_iff] at h
    obtain ⟨nameType, -, nameLen, -, h⟩ := h
    split_ifs at h with hlast hhost
    · cases h
    · obtain ⟨name, -, h⟩ := Option.bind_eq_some_iff.mp h
      cases hname : fromUtf8 name with
      | none =>
        rw [hname] at h
        cases h
        omega
      | some host =>
        rw [hname] at h
        cases h
    · cases h
      omega
  · cases h

/-- The loop over the names: the first one that is a host, if any. -/
def serverNameLoop (snEnd snPos : ℕ) : Option (Option String) :=
  tryLoop (serverNameRound handshake snEnd) (snEnd - ·) (fun _ _ => serverNameRound_inl) snPos

/-- One extension, or the end of them. -/
def sniRound (extEnd pos : ℕ) : Option (ℕ ⊕ Option String) :=
  if pos + 4 ≤ extEnd then do
    let etype ← u16At handshake pos
    let elen ← u16At handshake (pos + 2)
    let pos := pos + 4
    if extEnd < pos + elen then some (.inr none)
    else if etype = 0x0000 ∧ 5 ≤ elen then
      let listLen ← u16At handshake pos
      let snPos := pos + 2
      let snEnd := min (snPos + listLen) (pos + elen)
      match ← serverNameLoop handshake snEnd snPos with
      | some host => some (.inr (some host))
      | none => some (.inl (pos + elen))
    else some (.inl (pos + elen))
  else some (.inr none)

variable {handshake} in
theorem sniRound_inl {extEnd pos s' : ℕ} (h : sniRound handshake extEnd pos = some (.inl s')) :
    extEnd - s' < extEnd - pos := by
  unfold sniRound at h
  split_ifs at h with hroom
  · simp only [Option.bind_eq_bind, Option.bind_eq_some_iff] at h
    obtain ⟨etype, -, elen, -, h⟩ := h
    split_ifs at h with hlast hname
    · cases h
    · obtain ⟨listLen, -, h⟩ := Option.bind_eq_some_iff.mp h
      obtain ⟨found, -, h⟩ := Option.bind_eq_some_iff.mp h
      cases found with
      | none =>
        cases h
        omega
      | some host => cases h
    · cases h
      omega
  · cases h

def sniLoop (extEnd pos : ℕ) : Option (Option String) :=
  tryLoop (sniRound handshake extEnd) (extEnd - ·) (fun _ _ => sniRound_inl) pos

/-- `extract_sni_from_client_hello`; the outer `none` is an access out of range. -/
def extractSniFromClientHello : Option (Option String) :=
  if handshake.length < 43 then some none
  else do
    let first ← handshake[0]?
    if first ≠ tlsRecordHandshake then some none
    else match handshake[5]? with
      | none => some none
      | some type =>
        if type ≠ 0x01 then some none
        else match ← skipToExtensions handshake with
          | none => some none
          | some (pos, extEnd) => sniLoop handshake extEnd pos

/-! ### ALPN -/

/-- One protocol of the list, or the end of it. -/
def alpnRound (listEnd : ℕ) (s : ℕ × List (List UInt8)) :
    Option ((ℕ × List (List UInt8)) ⊕ List (List UInt8)) :=
  if s.1 < listEnd then do
    let plen ← handshake[s.1]?
    let lp := s.1 + 1
    if listEnd < lp + plen.toNat then some (.inr s.2)
    else
      let proto ← sliceChecked handshake lp plen.toNat
      some (.inl (lp + plen.toNat, s.2 ++ [proto]))
  else some (.inr s.2)

variable {handshake} in
theorem alpnRound_inl {listEnd : ℕ} {s s' : ℕ × List (List UInt8)}
    (h : alpnRound handshake listEnd s = some (.inl s')) : listEnd - s'.1 < listEnd - s.1 := by
  unfold alpnRound at h
  split_ifs at h with hroom
  · simp only [Option.bind_eq_bind, Option.bind_eq_some_iff] at h
    obtain ⟨plen, -, h⟩ := h
    split_ifs at h with hlast
    · cases h
    · obtain ⟨proto, -, h⟩ := Option.bind_eq_some_iff.mp h
      cases h
      simp only
      omega
  · cases h

def alpnLoop (listEnd lp : ℕ) : Option (List (List UInt8)) :=
  tryLoop (alpnRound handshake listEnd) (listEnd - ·.1) (fun _ _ => alpnRound_inl) (lp, [])

/-- One extension; the loop ends with the first one that has protocols. -/
def alpnExtensionRound (extEnd pos : ℕ) : Option (ℕ ⊕ List (List UInt8)) :=
  if pos + 4 ≤ extEnd then do
    let etype ← u16At handshake pos
    let elen ← u16At handshake (pos + 2)
    let pos := pos + 4
    if extEnd < pos + elen then some (.inr [])
    else if etype = 0x0010 ∧ 3 ≤ elen then
      let listLen ← u16At handshake pos
      let lp := pos + 2
      let listEnd := min (pos + 2 + listLen) (pos + elen)
      let out ← alpnLoop handshake listEnd lp
      some (.inr out)
    else some (.inl (pos + elen))
  else some (.inr [])

variable {handshake} in
theorem alpnExtensionRound_inl {extEnd pos s' : ℕ}
    (h : alpnExtensionRound handshake extEnd pos = some (.inl s')) :
    extEnd - s' < extEnd - pos := by
  unfold alpnExtensionRound at h
  split_ifs at h with hroom
  · simp only [Option.bind_eq_bind, Option.bind_eq_some_iff] at h
    obtain ⟨etype, -, elen, -, h⟩ := h
    split_ifs at h with hlast halpn
    · cases h
    · obtain ⟨listLen, -, h⟩ := Option.bind_eq_some_iff.mp h
      obtain ⟨out, -, h⟩ := Option.bind_eq_some_iff.mp h
      cases h
    · cases h
      omega
  · cases h

def alpnExtensionLoop (extEnd pos : ℕ) : Option (List (List UInt8)) :=
  tryLoop (alpnExtensionRound handshake extEnd) (extEnd - ·) (fun _ _ => alpnExtensionRound_inl) pos

/-- `extract_alpn_from_client_hello`; `none` is an access out of range. -/
def extractAlpnFromClientHello : Option (List (List UInt8)) :=
  if handshake[5]? ≠ some 0x01 then some []
  else do
    match ← skipToExtensions handshake with
    | none => some []
    | some (pos, extEnd) => alpnExtensionLoop handshake extEnd pos

end

/-! ### No access is out of range -/

section
variable {handshake : List UInt8}

theorem byteAt {pos : ℕ} (h : pos < handshake.length) : ∃ b, handshake[pos]? = some b :=
  ⟨_, List.getElem?_eq_getElem h⟩

theorem u16At_isSome {pos : ℕ} (h : pos + 2 ≤ handshake.length) : ∃ n, u16At handshake pos = some n := by
  obtain ⟨high, hhigh⟩ := byteAt (show pos < handshake.length by omega)
  obtain ⟨low, hlow⟩ := byteAt (show pos + 1 < handshake.length by omega)
  exact ⟨_, by rw [u16At, hhigh, hlow]; rfl⟩

/-- What the walk to the extensions gives lies within the bytes. -/
theorem skipToExtensions_total (handshake : List UInt8) :
    ∃ found, skipToExtensions handshake = some found ∧ ∀ p ∈ found, p.2 ≤ handshake.length := by
  unfold skipToExtensions
  simp only
  split_ifs with hsession
  · exact ⟨none, rfl, nofun⟩
  obtain ⟨sessionIdLen, hbyte⟩ := byteAt (show 5 + 4 + (2 + 32) < handshake.length by omega)
  simp only [hbyte, Option.bind_eq_bind, Option.bind_some]
  split_ifs with hciphers
  · exact ⟨none, rfl, nofun⟩
  obtain ⟨cipherSuitesLen, hciphersLen⟩ := u16At_isSome (not_lt.mp hciphers)
  simp only [hciphersLen, Option.bind_some]
  split_ifs with hcomp
  · exact ⟨none, rfl, nofun⟩
  obtain ⟨compLen, hcompLen⟩ := byteAt (not_lt.mp hcomp)
  simp only [hcompLen, Option.bind_some]
  split_ifs with hexts
  · exact ⟨none, rfl, nofun⟩
  obtain ⟨extLen, hextLen⟩ := u16At_isSome (not_lt.mp hexts)
  simp only [hextLen, Option.bind_some]
  split_ifs with hend
  · exact ⟨none, rfl, nofun⟩
  · refine ⟨_, rfl, fun p hp => ?_⟩
    obtain rfl := Option.some.inj hp
    exact not_lt.mp hend

theorem serverNameRound_total {snEnd : ℕ} (hend : snEnd ≤ handshake.length) (snPos : ℕ) :
    (serverNameRound handshake snEnd snPos).isSome = true := by
  unfold serverNameRound
  split_ifs with hroom
  · obtain ⟨nameType, htype⟩ := byteAt (show snPos < handshake.length by omega)
    obtain ⟨nameLen, hlen⟩ := u16At_isSome (show snPos + 1 + 2 ≤ handshake.length by omega)
    simp only [htype, hlen, Option.bind_eq_bind, Option.bind_some]
    split_ifs with hlast hhost
    · rfl
    · rw [sliceChecked_eq (by omega), Option.bind_some]
      cases fromUtf8 (slice handshake (snPos + 3) nameLen) <;> rfl
    · rfl
  · rfl

theorem sniRound_total {extEnd : ℕ} (hend : extEnd ≤ handshake.length) (pos : ℕ) :
    (sniRound handshake extEnd pos).isSome = true := by
  unfold sniRound
  split_ifs with hroom
  · obtain ⟨etype, htype⟩ := u16At_isSome (show pos + 2 ≤ handshake.length by omega)
    obtain ⟨elen, hlen⟩ := u16At_isSome (show pos + 2 + 2 ≤ handshake.length by omega)
    simp only [htype, hlen, Option.bind_eq_bind, Option.bind_some]
    split_ifs with hlast hname
    · rfl
    · obtain ⟨listLen, hlist⟩ := u16At_isSome (show pos + 4 + 2 ≤ handshake.length by omega)
      have hnames : min (pos + 4 + 2 + listLen) (pos + 4 + elen) ≤ handshake.length := by omega
      obtain ⟨found, hfound⟩ := Option.isSome_iff_exists.mp
        (tryLoop_isSome _ _ (fun _ _ => serverNameRound_inl) (serverNameRound_total hnames)
          (pos + 4 + 2))
      rw [← serverNameLoop] at hfound
      simp only [hlist, hfound, Option.bind_some]
      cases found <;> rfl
    · rfl
  · rfl

/-- The server name is looked up in any bytes whatever. -/
theorem extractSni_total (handshake : List UInt8) :
    (extractSniFromClientHello handshake).isSome = true := by
  unfold extractSniFromClientHello
  split_ifs with hshort
  · rfl
  obtain ⟨first, hfirst⟩ := byteAt (show 0 < handshake.length by omega)
  obtain ⟨type, htype⟩ := byteAt (show 5 < handshake.length by omega)
  obtain ⟨found, hfound, hend⟩ := skipToExtensions_total handshake
  simp only [hfirst, htype, hfound, Option.bind_eq_bind, Option.bind_some]
  split_ifs
  · rfl
  · rfl
  · cases found with
    | none => rfl
    | some p => exact tryLoop_isSome _ _ (fun _ _ => sniRound_inl) (sniRound_total (hend p rfl)) p.1

theorem alpnRound_total {listEnd : ℕ} (hend : listEnd ≤ handshake.length)
    (s : ℕ × List (List UInt8)) : (alpnRound handshake listEnd s).isSome = true := by
  unfold alpnRound
  split_ifs with hroom
  · obtain ⟨plen, hplen⟩ := byteAt (show s.1 < handshake.length by omega)
    simp only [hplen, Option.bind_eq_bind, Option.bind_some]
    split_ifs with hlast
    · rfl
    · rw [sliceChecked_eq (by omega)]
      rfl
  · rfl

theorem alpnExtensionRound_total {extEnd : ℕ} (hend : extEnd ≤ handshake.length) (pos : ℕ) :
    (alpnExtensionRound handshake extEnd pos).isSome = true := by
  unfold alpnExtensionRound
  split_ifs with hroom
  · obtain ⟨etype, htype⟩ := u16At_isSome (show pos + 2 ≤ handshake.length by omega)
    obtain ⟨elen, hlen⟩ := u16At_isSome (show pos + 2 + 2 ≤ handshake.length by omega)
    simp only [htype, hlen, Option.bind_eq_bind, Option.bind_some]
    split_ifs with hlast halpn
    · rfl
    · obtain ⟨listLen, hlist⟩ := u16At_isSome (show pos + 4 + 2 ≤ handshake.length by omega)
      have hprotos : min (pos + 4 + 2 + listLen) (pos + 4 + elen) ≤ handshake.length := by omega
      obtain ⟨out, hout⟩ := Option.isSome_iff_exists.mp
        (tryLoop_isSome _ _ (fun _ _ => alpnRound_inl) (alpnRound_total hprotos) (pos + 4 + 2, []))
      rw [← alpnLoop] at hout
      simp only [hlist, hout, Option.bind_some]
      rfl
    · rfl
  · rfl

/-- The protocols are looked up in any bytes whatever. -/
theorem extractAlpn_total (handshake : List UInt8) :
    (extractAlpnFromClientHello handshake).isSome = true := by
  unfold extractAlpnFromClientHello
  split_ifs with htype
  · rfl
  obtain ⟨found, hfound, hend⟩ := skipToExtensions_total handshake
  simp only [hfound, Option.bind_eq_bind, Option.bind_some]
  cases found with
  | none => rfl
  | some p =>
    exact tryLoop_isSome _ _ (fun _ _ => alpnExtensionRound_inl)
      (alpnExtensionRound_total (hend p rfl)) p.1

end

end MtProxy.Protocol
