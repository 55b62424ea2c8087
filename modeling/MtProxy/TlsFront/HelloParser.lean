import MtProxy.Protocol.HelloLookup

/-! `parse_server_hello`: the ServerHello of a profiled server, read by position. The extensions are
    walked up to the end that their length announces, each of them checked against the end of the
    message only:

        02 │ length 3 │ version │ random │ session id │ cipher suite │ compression │ length 2 │ ext │ ext ⋯
                                                                                    pos ──▶ ext_end ≤ len

    Every access is checked here, and none fails; what `ServerHelloBuilder` builds from any calls is
    read back. -/

namespace MtProxy.TlsFront
open Schemes Protocol

section
variable (body : List UInt8)

/-- One extension of the loop, or its end. `body.get(..)?` leaves the function. -/
def extensionRound (extEnd : ℕ) (s : ℕ × List (ℕ × List UInt8)) :
    Option ((ℕ × List (ℕ × List UInt8)) ⊕ Option (List (ℕ × List UInt8))) :=
  if s.1 + 4 ≤ extEnd then do
    let etype ← u16At body s.1
    let elen ← u16At body (s.1 + 2)
    let pos := s.1 + 4
    match sliceChecked body pos elen with
    | none => some (.inr none)
    | some data => some (.inl (pos + elen, s.2 ++ [(etype, data)]))
  else some (.inr (some s.2))

variable {body} in
theorem extensionRound_inl {extEnd : ℕ} {s s' : ℕ × List (ℕ × List UInt8)}
    (h : extensionRound body extEnd s = some (.inl s')) : extEnd - s'.1 < extEnd - s.1 := by
  unfold extensionRound at h
  split_ifs at h with hroom
  · simp only [Option.bind_eq_bind, Option.bind_eq_some_iff] at h
    obtain ⟨etype, -, elen, -, h⟩ := h
    cases hdata : sliceChecked body (s.1 + 4) elen with
    | none =>
      rw [hdata] at h
      cases h
    | some data =>
      rw [hdata] at h
      cases h
      simp only
      omega
  · cases h

def extensionLoop (extEnd pos : ℕ) : Option (Option (List (ℕ × List UInt8))) :=
  tryLoop (extensionRound body extEnd) (extEnd - ·.1) (fun _ _ => extensionRound_inl) (pos, [])

/-- The fields before the extensions, and where these start and end. -/
def parseHelloFields : Option (ServerHello × ℕ × ℕ) := do
  let pos := 4
  let version := [← body[pos]?, ← body[pos + 1]?]
  let pos := pos + 2
  let random ← sliceChecked body pos 32
  let pos := pos + 32
  let sessionLen ← body[pos]?
  let pos := pos + 1
  let sessionId ← sliceChecked body pos sessionLen.toNat
  let pos := pos + sessionLen.toNat
  let cipherSuite := [← body[pos]?, ← body[pos + 1]?]
  let pos := pos + 2
  let compression ← body[pos]?
  let pos := pos + 1
  let extLen ← u16At body pos
  let pos := pos + 2
  let extEnd ← checkedAdd pos extLen
  if body.length < extEnd then none
  else some (⟨version, random, sessionId, cipherSuite, compression, []⟩, pos, extEnd)

/-- `parse_server_hello`; the outer `none` is an access out of range. -/
def parseServerHello : Option (Option ServerHello) :=
  if body.length < 4 then some none
  else do
    let type ← body[0]?
    if type ≠ 0x02 then some none
    else
      let msgLen := beVal [0, ← body[1]?, ← body[2]?, ← body[3]?]
      if body.length < msgLen + 4 then some none
      else match parseHelloFields body with
        | none => some none
        | some (hello, pos, extEnd) =>
          let extensions ← extensionLoop body extEnd pos
          some (extensions.map ({ hello with extensions := · }))

end

/-! ### No access is out of range -/

section
variable {body : List UInt8}

theorem extensionRound_total {extEnd : ℕ} (hend : extEnd ≤ body.length)
    (s : ℕ × List (ℕ × List UInt8)) : (extensionRound body extEnd s).isSome = true := by
  unfold extensionRound
  split_ifs with hroom
  · obtain ⟨etype, htype⟩ := u16At_isSome (show s.1 + 2 ≤ body.length by omega)
    obtain ⟨elen, hlen⟩ := u16At_isSome (show s.1 + 2 + 2 ≤ body.length by omega)
    simp only [htype, hlen, Option.bind_eq_bind, Option.bind_some]
    cases sliceChecked body (s.1 + 4) elen <;> rfl
  · rfl

/-- The walk over the extensions stays within the message. -/
theorem parseHelloFields_end {hello : ServerHello} {pos extEnd : ℕ}
    (h : parseHelloFields body = some (hello, pos, extEnd)) : extEnd ≤ body.length := by
  simp only [parseHelloFields, Option.bind_eq_bind, Option.bind_eq_some_iff] at h
  obtain ⟨v₀, -, v₁, -, random, -, sessionLen, -, sessionId, -, c₀, -, c₁, -, compression, -, extLen, -,
    stop, -, h⟩ := h
  split_ifs at h with hend
  cases h
  exact not_lt.mp hend

/-- Any bytes whatever are parsed to the end. -/
theorem parseServerHello_total (body : List UInt8) : (parseServerHello body).isSome = true := by
  unfold parseServerHello
  split_ifs with hshort
  · rfl
  obtain ⟨type, htype⟩ := byteAt (show 0 < body.length by omega)
  obtain ⟨b₁, h₁⟩ := byteAt (show 1 < body.length by omega)
  obtain ⟨b₂, h₂⟩ := byteAt (show 2 < body.length by omega)
  obtain ⟨b₃, h₃⟩ := byteAt (show 3 < body.length by omega)
  simp only [htype, h₁, h₂, h₃, Option.bind_eq_bind, Option.bind_some]
  split_ifs with hnot hlen
  · rfl
  · rfl
  · cases hfields : parseHelloFields body with
    | none => rfl
    | some found =>
      obtain ⟨hello, pos, extEnd⟩ := found
      have hend := parseHelloFields_end hfields
      obtain ⟨extensions, hexts⟩ := Option.isSome_iff_exists.mp
        (tryLoop_isSome _ _ (fun _ _ => extensionRound_inl) (extensionRound_total hend) (pos, []))
      rw [← extensionLoop] at hexts
      simp only [hexts, Option.bind_some, Option.isSome_some]

end

/-! ### What was written is read back -/

section
variable {body rest : List UInt8}

theorem extensionRound_eq {extEnd pos : ℕ} {ext : ℕ × List UInt8}
    (out : List (ℕ × List UInt8)) (htype : ext.1 < 2 ^ 16) (hdata : ext.2.length < 2 ^ 16)
    (hend : extEnd ≤ body.length) (hroom : pos + (extensionBytes ext).length ≤ extEnd)
    (h : body.drop pos = extensionBytes ext ++ rest) :
    extensionRound body extEnd (pos, out) =
      some (.inl (pos + (extensionBytes ext).length, out ++ [ext])) := by
  have hsize : (extensionBytes ext).length = 4 + ext.2.length := by
    rw [extensionBytes, List.length_append, length_beBytes, length_block]
    omega
  rw [hsize] at hroom ⊢
  rw [extensionBytes, List.append_assoc] at h
  have hkind := u16At_of_drop htype h
  have hafter : body.drop (pos + 2) = block 2 ext.2 ++ rest := by
    have := drop_of_drop h
    rwa [length_beBytes] at this
  obtain ⟨hlen, htext⟩ := blockLen_of_drop hdata hafter
  have hslice := sliceChecked_of_drop (show pos + 2 + 2 + ext.2.length ≤ body.length by omega) htext
  rw [extensionRound, if_pos (show pos + 4 ≤ extEnd by omega)]
  simp only [hkind, hlen, Option.bind_eq_bind, Option.bind_some, hslice, Nat.add_assoc]

/-- The loop collects the extensions in order. -/
theorem extensionLoop_eq {extensions : List (ℕ × List UInt8)} {extEnd pos : ℕ}
    (hfit : ∀ ext ∈ extensions, ext.1 < 2 ^ 16 ∧ ext.2.length < 2 ^ 16)
    (hend : extEnd ≤ body.length)
    (hexts : extEnd = pos + (extensions.flatMap extensionBytes).length)
    (h : body.drop pos = extensions.flatMap extensionBytes ++ rest) :
    extensionLoop body extEnd pos = some (some extensions) := by
  suffices hgen : ∀ out, tryLoop (extensionRound body extEnd) (extEnd - ·.1)
      (fun _ _ => extensionRound_inl) (pos, out) = some (some (out ++ extensions)) from hgen []
  induction extensions generalizing pos with
  | nil =>
    intro out
    rw [List.append_nil]
    refine tryLoop_inr _ _ _ ?_
    rw [extensionRound, if_neg]
    rw [List.flatMap_nil, List.length_nil] at hexts
    exact (show ¬ pos + 4 ≤ extEnd by omega)
  | cons ext extensions ih =>
    intro out
    obtain ⟨⟨htype, hdata⟩, hrest⟩ := List.forall_mem_cons.mp hfit
    rw [List.flatMap_cons, List.length_append] at hexts
    rw [List.flatMap_cons, List.append_assoc] at h
    have hround := extensionRound_eq out htype hdata hend (by omega) h
    rw [List.append_cons]
    exact (tryLoop_inl _ _ _ hround).trans
      (ih hrest (by omega) (drop_of_drop h) (out ++ [ext]))

variable {hello : ServerHello}

theorem drop_extensions (h : hello.Fits) :
    hello.toBytes.drop (44 + hello.sessionId.length) = hello.extensionsBytes := by
  have hsplit : hello.toBytes = (0x02 :: (beBytes 3 hello.bodyBytes.length ++ (hello.version ++
      (hello.random ++ (block 1 hello.sessionId ++ (hello.cipherSuite ++
        hello.compression :: beBytes 2 hello.extensionsBytes.length)))))) ++
      hello.extensionsBytes := by
    simp only [ServerHello.toBytes, ServerHello.bodyBytes, ServerHello.afterRandom, block,
      List.append_assoc, List.cons_append]
  rw [hsplit]
  refine List.drop_left' ?_
  simp only [List.length_cons, List.length_append, length_beBytes, length_block, h.version,
    h.random, h.cipherSuite]
  omega

theorem parseHelloFields_eq (h : hello.Fits) :
    parseHelloFields hello.toBytes =
      some ({ hello with extensions := [] }, 44 + hello.sessionId.length, hello.toBytes.length) := by
  have hlen := length_helloToBytes h
  obtain ⟨v₀, v₁, hversion⟩ := List.length_eq_two.mp h.version
  obtain ⟨c₀, c₁, hcipher⟩ := List.length_eq_two.mp h.cipherSuite
  have hrandom := h.random
  have hsession := h.sessionId
  have hbyte : block 1 hello.sessionId = UInt8.ofNat hello.sessionId.length :: hello.sessionId := rfl
  have hsize : (UInt8.ofNat hello.sessionId.length).toNat = hello.sessionId.length :=
    UInt8.toNat_ofNat_of_lt hsession
  -- what lies behind each position of the cursor
  have d₄ : hello.toBytes.drop 4 = hello.bodyBytes := by
    have hfour : (0x02 :: beBytes 3 hello.bodyBytes.length).length = 4 := by simp
    rw [ServerHello.toBytes, block, ← List.cons_append]
    exact List.drop_left' hfour
  rw [ServerHello.bodyBytes, hversion] at d₄
  have dRandom : hello.toBytes.drop (4 + 2) = hello.random ++ hello.afterRandom := drop_of_drop d₄
  have dAfter : hello.toBytes.drop (4 + 2 + 32) = _ := hrandom ▸ drop_of_drop dRandom
  rw [ServerHello.afterRandom, hbyte, hcipher] at dAfter
  have dSession : hello.toBytes.drop (4 + 2 + 32 + 1) = _ :=
    drop_of_drop (x := [UInt8.ofNat hello.sessionId.length]) dAfter
  have dCipher := drop_of_drop dSession
  have dComp : hello.toBytes.drop (4 + 2 + 32 + 1 + hello.sessionId.length + 2) = _ :=
    drop_of_drop (x := [c₀, c₁]) dCipher
  have dExts : hello.toBytes.drop (4 + 2 + 32 + 1 + hello.sessionId.length + 2 + 1) =
      block 2 hello.extensionsBytes ++ [] := by
    rw [List.append_nil]
    exact drop_of_drop (x := [hello.compression]) dComp
  have hv₁ : hello.toBytes[4 + 1]? = some v₁ := byteAt_of_drop (drop_of_drop (x := [v₀]) d₄)
  have hc₁ : hello.toBytes[4 + 2 + 32 + 1 + hello.sessionId.length + 1]? = some c₁ :=
    byteAt_of_drop (drop_of_drop (x := [c₀]) dCipher)
  have hrandomAt : sliceChecked hello.toBytes (4 + 2) 32 = some hello.random :=
    hrandom ▸ sliceChecked_of_drop (by omega) dRandom
  have hsessionAt := sliceChecked_of_drop (show 4 + 2 + 32 + 1 + hello.sessionId.length ≤
    hello.toBytes.length by omega) dSession
  have hend : checkedAdd (4 + 2 + 32 + 1 + hello.sessionId.length + 2 + 1 + 2)
      hello.extensionsBytes.length = some hello.toBytes.length := by
    have hfits := h.extensions
    rw [checkedAdd, if_pos (by omega), hlen]
    congr 1
    omega
  simp only [parseHelloFields, byteAt_of_drop d₄, hv₁, hrandomAt, byteAt_of_drop dAfter, hsize,
    hsessionAt, byteAt_of_drop dCipher, hc₁, byteAt_of_drop dComp,
    (blockLen_of_drop h.extensions dExts).1, hend, Option.bind_eq_bind, Option.bind_some,
    lt_irrefl, if_false, hversion, hcipher]
  congr 3
  omega

theorem parseServerHello_toBytes (h : hello.Fits) :
    parseServerHello hello.toBytes = some (some hello) := by
  have hlen := length_helloToBytes h
  have hbody := length_bodyBytes h
  have hsession := h.sessionId
  have hfits := h.extensions
  obtain ⟨b₁, b₂, b₃, hthree⟩ := List.length_eq_three.mp (length_beBytes 3 hello.bodyBytes.length)
  have hbytes : hello.toBytes = 0x02 :: b₁ :: b₂ :: b₃ :: hello.bodyBytes := by
    rw [ServerHello.toBytes, block, hthree, List.cons_append, List.cons_append, List.cons_append,
      List.nil_append]
  have hbyteAt : hello.toBytes[0]? = some 0x02 ∧ hello.toBytes[1]? = some b₁ ∧
      hello.toBytes[2]? = some b₂ ∧ hello.toBytes[3]? = some b₃ := by
    rw [hbytes]
    exact ⟨rfl, rfl, rfl, rfl⟩
  obtain ⟨htype, h₁, h₂, h₃⟩ := hbyteAt
  have hfour : beBytes 4 hello.bodyBytes.length = [0, b₁, b₂, b₃] := by
    have hsplit : beBytes 4 hello.bodyBytes.length =
        UInt8.ofNat (hello.bodyBytes.length / 256 / 256 / 256) ::
          beBytes 3 hello.bodyBytes.length := rfl
    have hzero : hello.bodyBytes.length / 256 / 256 / 256 = 0 := by omega
    rw [hsplit, hthree, hzero]
    rfl
  have hval : beVal [0, b₁, b₂, b₃] = hello.bodyBytes.length := by
    rw [← hfour]
    exact beVal_beBytes_of_lt (by omega)
  have hmsg : ¬ hello.toBytes.length < beVal [0, b₁, b₂, b₃] + 4 := by
    rw [hval]
    omega
  have hexts : extensionLoop hello.toBytes hello.toBytes.length (44 + hello.sessionId.length) =
      some (some hello.extensions) := by
    have hdrop : hello.toBytes.drop (44 + hello.sessionId.length) =
        hello.extensions.flatMap extensionBytes ++ [] := by
      rw [List.append_nil]
      exact drop_extensions h
    refine extensionLoop_eq h.extension le_rfl ?_ hdrop
    rw [hlen]
    rfl
  rw [parseServerHello, if_neg (by omega)]
  simp only [htype, h₁, h₂, h₃, Option.bind_eq_bind, Option.bind_some, ne_eq, not_true_eq_false,
    if_false, if_neg hmsg, parseHelloFields_eq h, hexts]
  rfl

end

/-! ### Any calls of the builder -/

/-- A call of the builder that adds an extension. -/
inductive ExtensionCall where
  | addKeyShare (publicKey : Block UInt8 32)
  | addSupportedVersions (version : UInt16)

namespace ExtensionCall

/-- What the call does to the bytes of `TlsExtensionBuilder`. -/
def apply (extensions : List UInt8) : ExtensionCall → List UInt8
  | addKeyShare publicKey => Protocol.addKeyShare extensions publicKey.toList
  | addSupportedVersions version => Protocol.addSupportedVersions extensions version.toNat

/-- The extension it stands for. -/
def extension : ExtensionCall → ℕ × List UInt8
  | addKeyShare publicKey => (0x0033, keyShareData publicKey.toList)
  | addSupportedVersions version => (0x002b, beBytes 2 version.toNat)

theorem apply_eq (extensions : List UInt8) (call : ExtensionCall) :
    call.apply extensions = extensions ++ extensionBytes call.extension := by
  cases call with
  | addKeyShare publicKey => exact addKeyShare_eq extensions publicKey.length_eq
  | addSupportedVersions version => exact addSupportedVersions_eq extensions version.toNat

theorem foldl_apply (calls : List ExtensionCall) (extensions : List UInt8) :
    calls.foldl apply extensions = extensions ++ (calls.map extension).flatMap extensionBytes := by
  induction calls generalizing extensions with
  | nil => simp
  | cons call calls ih =>
    rw [List.foldl_cons, ih, apply_eq, List.map_cons, List.flatMap_cons, List.append_assoc]

theorem extension_fits (call : ExtensionCall) :
    call.extension.1 < 2 ^ 16 ∧ call.extension.2.length < 2 ^ 16 := by
  cases call with
  | addKeyShare publicKey => simp [extension, keyShareData, publicKey.length_eq]
  | addSupportedVersions version => simp [extension]

end ExtensionCall

/-- The builder after any calls. -/
def builderAfter (random : Block UInt8 32) (sessionId : List UInt8) (cipherSuite : Block UInt8 2)
    (compression : UInt8) (calls : List ExtensionCall) (alpn : Option (List UInt8)) :
    ServerHelloBuilder :=
  ⟨random.toList, sessionId, cipherSuite.toList, compression, calls.foldl ExtensionCall.apply [], alpn⟩

/-- The bytes of its extensions, with ALPN behind the others. -/
def builderExtensions (calls : List ExtensionCall) (alpn : Option (List UInt8)) : List UInt8 :=
  match alpn with
  | some proto => addAlpn (calls.foldl ExtensionCall.apply []) proto
  | none => calls.foldl ExtensionCall.apply []

section
variable {random : Block UInt8 32} {sessionId : List UInt8} {cipherSuite : Block UInt8 2}
  {compression : UInt8} {calls : List ExtensionCall} {alpn : Option (List UInt8)}

/-- The ServerHello those calls stand for. -/
def builtHello (random : Block UInt8 32) (sessionId : List UInt8) (cipherSuite : Block UInt8 2)
    (compression : UInt8) (calls : List ExtensionCall) (alpn : Option (List UInt8)) : ServerHello :=
  ⟨tlsVersion, random.toList, sessionId, cipherSuite.toList, compression,
    calls.map ExtensionCall.extension ++ alpn.toList.map fun proto => (0x0010, alpnData proto)⟩

theorem builderExtensions_eq (halpn : ∀ p ∈ alpn, p.length ≤ 255) :
    builderExtensions calls alpn =
      (builtHello random sessionId cipherSuite compression calls alpn).extensionsBytes := by
  cases alpn with
  | none =>
    simp [builderExtensions, builtHello, ServerHello.extensionsBytes, ExtensionCall.foldl_apply]
  | some proto =>
    rw [builderExtensions, addAlpn_eq _ (halpn proto rfl), ExtensionCall.foldl_apply]
    simp [builtHello, ServerHello.extensionsBytes]

theorem builtHello_fits (hsession : sessionId.length ≤ 255) (halpn : ∀ p ∈ alpn, p.length ≤ 255)
    (hexts : (builderExtensions calls alpn).length < 2 ^ 16) :
    (builtHello random sessionId cipherSuite compression calls alpn).Fits where
  version := rfl
  random := random.length_eq
  sessionId := Nat.lt_succ_of_le hsession
  cipherSuite := cipherSuite.length_eq
  extension ext hext := by
    rcases List.mem_append.mp hext with hcall | hproto
    · obtain ⟨call, -, rfl⟩ := List.mem_map.mp hcall
      exact call.extension_fits
    · obtain ⟨proto, hmem, rfl⟩ := List.mem_map.mp hproto
      have hlen := halpn proto (Option.mem_toList.mp hmem)
      simp only [length_alpnData]
      omega
  extensions := builderExtensions_eq halpn ▸ hexts

theorem buildMessage_builderAfter (hsession : sessionId.length ≤ 255)
    (halpn : ∀ p ∈ alpn, p.length ≤ 255)
    (hexts : (builderExtensions calls alpn).length < 2 ^ 16) :
    (builderAfter random sessionId cipherSuite compression calls alpn).buildMessage =
      (builtHello random sessionId cipherSuite compression calls alpn).toBytes := by
  rw [helloToBytes_eq (builtHello_fits hsession halpn hexts), ← builderExtensions_eq halpn]
  rfl

end

/-- Whatever the builder was told, the parser finds it in the message: version, random, session id,
    cipher suite, compression and the extensions in order. And it ends on any bytes. -/
theorem parse_build (random : Block UInt8 32) (sessionId : List UInt8) (cipherSuite : Block UInt8 2)
    (compression : UInt8) (calls : List ExtensionCall) (alpn : Option (List UInt8))
    (hsession : sessionId.length ≤ 255) (halpn : ∀ p ∈ alpn, p.length ≤ 255)
    (hexts : (builderExtensions calls alpn).length < 2 ^ 16) :
    parseServerHello
        (builderAfter random sessionId cipherSuite compression calls alpn).buildMessage =
      some (some ⟨[0x03, 0x03], random.toList, sessionId, cipherSuite.toList, compression,
        calls.map ExtensionCall.extension ++
          alpn.toList.map fun proto => (0x0010, block 2 (block 1 proto))⟩) ∧
    ∀ body, (parseServerHello body).isSome = true := by
  refine ⟨?_, parseServerHello_total⟩
  rw [buildMessage_builderAfter hsession halpn hexts]
  exact parseServerHello_toBytes (builtHello_fits hsession halpn hexts)

theorem length_zeros (n : ℕ) : (List.replicate n (0 : UInt8)).length = n := List.length_replicate

/-- A key share and a version, with a protocol behind them. -/
theorem parse_build_h2 :
    parseServerHello (builderAfter ⟨List.replicate 32 0, length_zeros 32⟩ [7] ⟨[0x13, 0x01], rfl⟩ 0
        [.addKeyShare ⟨List.replicate 32 0, length_zeros 32⟩, .addSupportedVersions 0x0304]
        (some [0x68, 0x32])).buildMessage =
      some (some ⟨[0x03, 0x03], List.replicate 32 0, [7], [0x13, 0x01], 0,
        [(0x0033, [0, 0x1d, 0, 32] ++ List.replicate 32 0), (0x002b, [3, 4]),
          (0x0010, [0, 3, 2, 0x68, 0x32])]⟩) :=
  (parse_build ⟨List.replicate 32 0, length_zeros 32⟩ [7] ⟨[0x13, 0x01], rfl⟩ 0
    [.addKeyShare ⟨List.replicate 32 0, length_zeros 32⟩, .addSupportedVersions 0x0304]
    (some [0x68, 0x32]) (by decide) (by simp) (by decide)).1

end MtProxy.TlsFront
