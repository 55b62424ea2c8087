import MtProxy.Protocol.HelloLookup

/-! `build_client_hello`: the hello with which a server is profiled, byte by byte as the source builds
    it. It is a well-formed hello with a server_name and an ALPN extension, so the cursors find in it
    what it was built for.

        server_name │ groups │ signature algorithms │ versions │ key share │ ALPN │ padding to 180 -/

namespace MtProxy.TlsFront
open Schemes Protocol

/-! ### The extensions -/

def sniBytes (sni : String) : List UInt8 := sni.toUTF8.data.toList

def sniExtension (sni : String) : List UInt8 :=
  let sniExt := beBytes 2 ((sniBytes sni).length + 3) ++ [0] ++ beBytes 2 (sniBytes sni).length ++
    sniBytes sni
  beBytes 2 0x0000 ++ beBytes 2 sniExt.length ++ sniExt

/-- A list of 16-bit numbers behind its length. -/
def numberList (type : ℕ) (numbers : List ℕ) : List UInt8 :=
  beBytes 2 type ++ beBytes 2 (2 + numbers.length * 2) ++ beBytes 2 (numbers.length * 2) ++
    numbers.flatMap (beBytes 2)

def supportedGroups : List UInt8 := numberList 0x000a [0x001d, 0x0017]

def signatureAlgorithms : List UInt8 := numberList 0x000d [0x0804, 0x0805, 0x0403, 0x0503]

def supportedVersions : List UInt8 :=
  let versions := [0x0304, 0x0303]
  beBytes 2 0x002b ++ beBytes 2 (1 + versions.length * 2) ++ [UInt8.ofNat (versions.length * 2)] ++
    versions.flatMap (beBytes 2)

/-- `gen_key_share` with the extension around it. -/
def keyShareExtension (rng : SecureRandom) : List UInt8 :=
  let key := rng.bytes 32
  let keyshare := beBytes 2 0x001d ++ beBytes 2 key.length ++ key
  beBytes 2 0x0033 ++ beBytes 2 (2 + keyshare.length) ++ beBytes 2 keyshare.length ++ keyshare

/-- `http/1.1`. -/
def alpnProto : List UInt8 := [0x68, 0x74, 0x74, 0x70, 0x2f, 0x31, 0x2e, 0x31]

def alpnExtension : List UInt8 :=
  beBytes 2 0x0010 ++ beBytes 2 (2 + 1 + alpnProto.length) ++ beBytes 2 (1 + alpnProto.length) ++
    [UInt8.ofNat alpnProto.length] ++ alpnProto

def targetExtLen : ℕ := 180

/-- The padding extension, if there is room for it. -/
def paddingExtension (extsLen : ℕ) : List UInt8 :=
  if extsLen < targetExtLen then
    let remaining := targetExtLen - extsLen
    if 4 < remaining then
      let padLen := remaining - 4
      beBytes 2 0x0015 ++ beBytes 2 padLen ++ List.replicate padLen 0
    else []
  else []

/-! ### The hello -/

def cipherSuites : List UInt8 := [0x13, 0x01, 0x13, 0x02, 0x13, 0x03, 0x00, 0x2f, 0x00, 0xff]

def buildClientHello (sni : String) (rng : Draws) : List UInt8 :=
  let exts := sniExtension sni ++ supportedGroups ++ signatureAlgorithms ++ supportedVersions ++
    keyShareExtension (rng 1) ++ alpnExtension
  let exts := exts ++ paddingExtension exts.length
  let body := [0x03, 0x03] ++ (rng 0).bytes 32 ++ [0] ++ beBytes 2 cipherSuites.length ++
    cipherSuites ++ [1] ++ [0] ++ beBytes 2 exts.length ++ exts
  let handshake := 0x01 :: (beBytes 4 body.length).drop 1 ++ body
  tlsRecordHandshake :: [0x03, 0x01] ++ beBytes 2 handshake.length ++ handshake

/-! ### The hello as a server reads it -/

/-- The data of an extension with a list of 16-bit numbers. -/
def numberListData (numbers : List ℕ) : List UInt8 := block 2 (numbers.flatMap (beBytes 2))

def keyShareList (rng : SecureRandom) : List UInt8 :=
  block 2 (beBytes 2 0x001d ++ block 2 (rng.bytes 32))

/-- The extensions in front of the padding. -/
def firstExtensions (sni : String) (rng : SecureRandom) : List HelloExtension :=
  [.serverName [(0, sniBytes sni)], .other 0x000a (numberListData [0x001d, 0x0017]),
    .other 0x000d (numberListData [0x0804, 0x0805, 0x0403, 0x0503]),
    .other 0x002b (block 1 (beBytes 2 0x0304 ++ beBytes 2 0x0303)),
    .other 0x0033 (keyShareList rng), .alpn [alpnProto]]

def paddingExtensions (extsLen : ℕ) : List HelloExtension :=
  if extsLen + 4 < targetExtLen then
    [.other 0x0015 (List.replicate (targetExtLen - extsLen - 4) 0)]
  else []

def profilingHello (sni : String) (rng : Draws) : ClientHello where
  recordVersion := [0x03, 0x01]
  version := [0x03, 0x03]
  random := (rng 0).bytes 32
  sessionId := []
  cipherSuites := cipherSuites
  compressionMethods := [0]
  extensions := firstExtensions sni (rng 1) ++
    paddingExtensions ((firstExtensions sni (rng 1)).flatMap HelloExtension.toBytes).length

/-- An extension that holds a single block. -/
theorem listExtension_eq (type : ℕ) (list : List UInt8) :
    extensionBytes (type, block 2 list) =
      beBytes 2 type ++ beBytes 2 (2 + list.length) ++ beBytes 2 list.length ++ list := by
  have houter : block 2 (block 2 list) = beBytes 2 (2 + list.length) ++ block 2 list := by
    have hlen : (block 2 list).length = 2 + list.length := length_block
    rw [← hlen]
    rfl
  rw [extensionBytes, houter, block]
  simp only [List.append_assoc]

theorem sniExtension_eq (sni : String) :
    sniExtension sni = (HelloExtension.serverName [(0, sniBytes sni)]).toBytes := by
  have hname : nameBytes (0, sniBytes sni) = [0] ++ block 2 (sniBytes sni) := rfl
  have hlen : (nameBytes (0, sniBytes sni)).length = (sniBytes sni).length + 3 := by
    rw [length_nameBytes, Nat.add_comm]
  rw [HelloExtension.toBytes, HelloExtension.data, List.flatMap_cons, List.flatMap_nil,
    List.append_nil, block, hlen, hname, block, sniExtension, extensionBytes, block]
  simp only [HelloExtension.type, List.append_assoc]

theorem numberList_eq (type : ℕ) (numbers : List ℕ) :
    numberList type numbers = (HelloExtension.other type (numberListData numbers)).toBytes := by
  have hlen : (numbers.flatMap (beBytes 2)).length = numbers.length * 2 := by
    induction numbers with
    | nil => rfl
    | cons number numbers ih =>
      rw [List.flatMap_cons, List.length_append, length_beBytes, ih, List.length_cons]
      omega
  have hbytes := listExtension_eq type (numbers.flatMap (beBytes 2))
  rw [hlen] at hbytes
  exact hbytes.symm

theorem keyShareExtension_eq (rng : SecureRandom) :
    keyShareExtension rng = (HelloExtension.other 0x0033 (keyShareList rng)).toBytes := by
  have hshare : beBytes 2 0x001d ++ beBytes 2 (rng.bytes 32).length ++ rng.bytes 32 =
      beBytes 2 0x001d ++ block 2 (rng.bytes 32) := by
    rw [block, List.append_assoc]
  rw [keyShareExtension]
  simp only [hshare]
  exact (listExtension_eq 0x0033 _).symm

/-- The two conditions under which there is padding are one. -/
theorem paddingExtension_eq (extsLen : ℕ) :
    paddingExtension extsLen = (paddingExtensions extsLen).flatMap HelloExtension.toBytes := by
  rw [paddingExtension, paddingExtensions]
  by_cases hroom : extsLen + 4 < targetExtLen
  · rw [if_pos (show extsLen < targetExtLen by omega), if_pos hroom]
    simp only [if_pos (show 4 < targetExtLen - extsLen by omega)]
    rw [List.flatMap_cons, List.flatMap_nil, List.append_nil, HelloExtension.toBytes, extensionBytes,
      HelloExtension.data, block, List.length_replicate, List.append_assoc]
    rfl
  · rw [if_neg hroom]
    split_ifs with hlt
    · exact if_neg (show ¬ 4 < targetExtLen - extsLen by omega)
    · rfl

theorem firstExtensions_eq (sni : String) (rng : SecureRandom) :
    sniExtension sni ++ supportedGroups ++ signatureAlgorithms ++ supportedVersions ++
        keyShareExtension rng ++ alpnExtension =
      (firstExtensions sni rng).flatMap HelloExtension.toBytes := by
  have hversions : supportedVersions =
      (HelloExtension.other 0x002b (block 1 (beBytes 2 0x0304 ++ beBytes 2 0x0303))).toBytes := rfl
  have halpn : alpnExtension = (HelloExtension.alpn [alpnProto]).toBytes := rfl
  rw [sniExtension_eq, supportedGroups, numberList_eq, signatureAlgorithms, numberList_eq, hversions,
    keyShareExtension_eq, halpn, firstExtensions]
  simp only [List.flatMap_cons, List.flatMap_nil, List.append_nil, List.append_assoc]

theorem buildClientHello_eq (sni : String) (rng : Draws) :
    buildClientHello sni rng = (profilingHello sni rng).toBytes := by
  have hexts : (firstExtensions sni (rng 1)).flatMap HelloExtension.toBytes ++
      paddingExtension ((firstExtensions sni (rng 1)).flatMap HelloExtension.toBytes).length =
        (profilingHello sni rng).extensionsBytes := by
    rw [paddingExtension_eq, ← List.flatMap_append]
    rfl
  rw [buildClientHello]
  simp only [firstExtensions_eq, hexts]
  have hbody : [0x03, 0x03] ++ (rng 0).bytes 32 ++ [0] ++ beBytes 2 cipherSuites.length ++
      cipherSuites ++ [1] ++ [0] ++ beBytes 2 (profilingHello sni rng).extensionsBytes.length ++
      (profilingHello sni rng).extensionsBytes = (profilingHello sni rng).body := by
    simp only [ClientHello.body, List.append_assoc]
    rfl
  rw [hbody]
  rfl

/-! ### The hello is well formed -/

section
variable {sni : String} (rng : Draws)

theorem length_firstExtensions (sni : String) (rng : SecureRandom) :
    ((firstExtensions sni rng).flatMap HelloExtension.toBytes).length =
      99 + (sniBytes sni).length := by
  have hkey : (keyShareList rng).length = 38 := by
    rw [keyShareList, length_block, List.length_append, length_block, length_beBytes,
      rng.length_bytes]
  have hsni : (HelloExtension.serverName [(0, sniBytes sni)]).data.length =
      5 + (sniBytes sni).length := by
    rw [HelloExtension.data, length_block, List.flatMap_cons, List.flatMap_nil, List.append_nil,
      length_nameBytes, ← Nat.add_assoc]
  have halpn : (HelloExtension.alpn [alpnProto]).data.length = 11 := rfl
  simp only [firstExtensions, List.flatMap_cons, List.flatMap_nil, List.append_nil,
    List.length_append, length_extension, hsni, halpn]
  simp only [HelloExtension.data, numberListData, List.flatMap_cons, List.flatMap_nil,
    List.append_nil, List.length_append, length_block, length_beBytes, hkey]
  omega

theorem length_paddingExtensions (extsLen : ℕ) :
    ((paddingExtensions extsLen).flatMap HelloExtension.toBytes).length ≤ targetExtLen := by
  rw [paddingExtensions]
  split_ifs with hroom
  · rw [List.flatMap_cons, List.flatMap_nil, List.append_nil, length_extension,
      HelloExtension.data, List.length_replicate]
    omega
  · exact Nat.zero_le _

theorem content_profilingHello (hsni : (sniBytes sni).length ≤ 255) :
    ∀ ext ∈ (profilingHello sni rng).extensions, ext.ContentFits := by
  intro ext hext
  rcases List.mem_append.mp hext with hfirst | hpadding
  · simp only [firstExtensions, List.mem_cons, List.not_mem_nil, or_false] at hfirst
    rcases hfirst with rfl | rfl | rfl | rfl | rfl | rfl
    · exact List.forall_mem_singleton.mpr (show (sniBytes sni).length < 2 ^ 16 by omega)
    · exact (by decide : 0x000a < 2 ^ 16 ∧ 0x000a ≠ 0x0000 ∧ 0x000a ≠ 0x0010)
    · exact (by decide : 0x000d < 2 ^ 16 ∧ 0x000d ≠ 0x0000 ∧ 0x000d ≠ 0x0010)
    · exact (by decide : 0x002b < 2 ^ 16 ∧ 0x002b ≠ 0x0000 ∧ 0x002b ≠ 0x0010)
    · exact (by decide : 0x0033 < 2 ^ 16 ∧ 0x0033 ≠ 0x0000 ∧ 0x0033 ≠ 0x0010)
    · exact List.forall_mem_singleton.mpr (by decide)
  · rw [paddingExtensions] at hpadding
    split_ifs at hpadding with hroom
    · obtain rfl := List.mem_singleton.mp hpadding
      exact (by decide : 0x0015 < 2 ^ 16 ∧ 0x0015 ≠ 0x0000 ∧ 0x0015 ≠ 0x0010)
    · cases hpadding

theorem distinct_profilingHello :
    ((profilingHello sni rng).extensions.map HelloExtension.type).Nodup := by
  have htypes : ((firstExtensions sni (rng 1)).map HelloExtension.type) =
      [0x0000, 0x000a, 0x000d, 0x002b, 0x0033, 0x0010] := rfl
  rw [profilingHello, List.map_append, htypes, paddingExtensions]
  split_ifs with hroom
  · exact (by decide : [0x0000, 0x000a, 0x000d, 0x002b, 0x0033, 0x0010, 0x0015].Nodup)
  · exact (by decide : [0x0000, 0x000a, 0x000d, 0x002b, 0x0033, 0x0010].Nodup)

theorem wellFormed_profilingHello (hsni : (sniBytes sni).length ≤ 255) :
    (profilingHello sni rng).WellFormed := by
  have hexts : (profilingHello sni rng).extensionsBytes.length < 2 ^ 16 := by
    have hfirst := length_firstExtensions sni (rng 1)
    have hpadding := length_paddingExtensions
      ((firstExtensions sni (rng 1)).flatMap HelloExtension.toBytes).length
    rw [ClientHello.extensionsBytes, profilingHello, List.flatMap_append, List.length_append]
    rw [targetExtLen] at hpadding
    omega
  refine ⟨rfl, rfl, (rng 0).length_bytes 32, (by decide : 0 < 2 ^ 8), (by decide : 10 < 2 ^ 16),
    (by decide : 1 < 2 ^ 8), ?_, hexts, distinct_profilingHello rng⟩
  intro ext hext
  refine ⟨content_profilingHello rng hsni ext hext, ?_⟩
  -- an extension is a part of all of them
  obtain ⟨before, after, hparts⟩ := List.append_of_mem hext
  rw [ClientHello.extensionsBytes, hparts, List.flatMap_append, List.flatMap_cons,
    List.length_append, List.length_append, length_extension] at hexts
  omega

/-! ### What is found in it -/

theorem fromUtf8_sniBytes (sni : String) : fromUtf8 (sniBytes sni) = some sni := by
  have hbytes : (⟨(sniBytes sni).toArray⟩ : ByteArray) = sni.toUTF8 := rfl
  rw [fromUtf8, hbytes, String.fromUTF8?, String.toUTF8_eq_toByteArray, dif_pos sni.isValidUTF8]
  rfl

theorem serverName_profilingHello (hsni : sni ≠ "") :
    (profilingHello sni rng).serverName = some sni := by
  have hbytes : sniBytes sni ≠ [] := by
    intro hnil
    have hempty := fromUtf8_sniBytes sni
    rw [hnil] at hempty
    exact hsni (Option.some.inj (hempty.symm.trans (fromUtf8_sniBytes "")))
  have hhost : hostName (0, sniBytes sni) = some sni := by
    rw [hostName, if_pos ⟨rfl, hbytes⟩, fromUtf8_sniBytes]
  exact (List.findSome?_cons_of_isSome (by rw [hhost]; rfl)).trans hhost

theorem protocols_profilingHello : (profilingHello sni rng).protocols = [alpnProto] := rfl

end

/-- The two lookups stay within any bytes whatever; they find in a well-formed hello its first host and
    its protocols, and in the profiling hello what that was built for. -/
theorem hello_lookups (handshake : List UInt8) (hello : ClientHello) (sni : String) (rng : Draws) :
    ((extractSniFromClientHello handshake).isSome = true ∧
        (extractAlpnFromClientHello handshake).isSome = true) ∧
      (hello.WellFormed →
        extractSniFromClientHello hello.toBytes = some hello.serverName ∧
          extractAlpnFromClientHello hello.toBytes = some hello.protocols) ∧
      (sni ≠ "" → (sniBytes sni).length ≤ 255 →
        extractSniFromClientHello (buildClientHello sni rng) = some (some sni) ∧
          extractAlpnFromClientHello (buildClientHello sni rng) = some [alpnProto]) := by
  refine ⟨⟨extractSni_total handshake, extractAlpn_total handshake⟩, fun hwf =>
    ⟨extractSni_hello hwf, extractAlpn_hello hwf⟩, ?_⟩
  intro hsni hlen
  have hwf := wellFormed_profilingHello rng hlen
  rw [buildClientHello_eq, extractSni_hello hwf, extractAlpn_hello hwf,
    serverName_profilingHello rng hsni, protocols_profilingHello]
  exact ⟨rfl, rfl⟩

/-- A hello whose first name is not a host, with its extensions in another order. -/
def shortHello : ClientHello where
  recordVersion := [0x03, 0x01]
  version := [0x03, 0x03]
  random := List.replicate 32 0
  sessionId := [9]
  cipherSuites := [0x13, 0x01]
  compressionMethods := [0]
  extensions := [.alpn [[0x68, 0x32]], .other 0x000a [], .serverName [(1, [0x61]), (0, [0x62])]]

theorem wellFormed_shortHello : shortHello.WellFormed :=
  ⟨rfl, rfl, rfl, by decide, by decide, by decide, by decide, by decide, by decide⟩

theorem hello_lookups_short :
    extractSniFromClientHello shortHello.toBytes = some (some "b") ∧
      extractAlpnFromClientHello shortHello.toBytes = some [[0x68, 0x32]] ∧
      extractSniFromClientHello (buildClientHello "a" (fun _ => zeroRandom)) = some (some "a") :=
  have hall := hello_lookups [] shortHello "a" (fun _ => zeroRandom)
  ⟨(hall.2.1 wellFormed_shortHello).1, (hall.2.1 wellFormed_shortHello).2,
    (hall.2.2 (by decide) (by decide)).1⟩

end MtProxy.TlsFront
