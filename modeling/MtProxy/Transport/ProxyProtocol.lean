import MtProxy.Network.DnsOverrides
import MtProxy.Protocol.HelloLookup
import MtProxy.Schemes.Words

/-! The PROXY protocol header in front of a client's stream, in both versions. The first six bytes
    tell version 1, ten more version 2; version 1 is then read byte by byte to the end of the line:

        v1   PROXY │ TCP4 203.0.113.7 198.51.100.1 56324 443 │ \r\n
        v2   signature 12 │ 21 │ 11 │ length 2 │ source, destination, ports

    What the builders write is read back, and not one byte more is taken from the stream. The text
    of an IP address is a parameter. -/

namespace MtProxy.Transport
open Schemes MiddleProxy Network Protocol

/-! ### The parser -/

def proxyV1Signature : List UInt8 := [0x50, 0x52, 0x4f, 0x58, 0x59, 0x20]

def proxyV2Signature : List UInt8 :=
  [0x0d, 0x0a, 0x0d, 0x0a, 0x00, 0x0d, 0x0a, 0x51, 0x55, 0x49, 0x54, 0x0a]

structure ProxyProtocolInfo where
  srcAddr : SocketAddr
  dstAddr : Option SocketAddr
  version : UInt8
  deriving DecidableEq

/-- `Display` and `FromStr` of an IP address. -/
structure IpText where
  display : IpAddr → List Char
  parse : List Char → Option IpAddr

def crlf : List UInt8 := [0x0d, 0x0a]

/-- `buf[from..to]`; out of range it fails. -/
def rangeChecked (buf : List UInt8) (start stop : ℕ) : Option (List UInt8) :=
  if start ≤ stop ∧ stop ≤ buf.length then some (slice buf start (stop - start)) else none

section
variable {R : Type} (text : IpText) (read : R → Option (UInt8 × R)) (defaultPeer : SocketAddr)

/-- One round of the loop over the line: a byte, and then the line may be complete or too long. -/
def lineRound (s : List UInt8 × R) : (List UInt8 × R) ⊕ Option (List UInt8 × R) :=
  match read s.2 with
  | none => .inr none
  | some (byte, r) =>
    let line := s.1 ++ [byte]
    if crlf <:+ line then .inr (some (line, r))
    else if 256 < line.length then .inr none
    else .inl (line, r)

/-- A round fails, or the byte completes the line, or it is one more byte of a line that may still be
    longer. -/
theorem lineRound_cases (s : List UInt8 × R) :
    lineRound read s = .inr none ∨ ∃ byte r, read s.2 = some (byte, r) ∧
      (lineRound read s = .inr (some (s.1 ++ [byte], r)) ∧ crlf <:+ s.1 ++ [byte] ∨
        lineRound read s = .inl (s.1 ++ [byte], r) ∧ s.1.length < 256) := by
  unfold lineRound
  cases hread : read s.2 with
  | none => exact .inl rfl
  | some p =>
    simp only
    by_cases hend : crlf <:+ s.1 ++ [p.1]
    · rw [if_pos hend]
      exact .inr ⟨p.1, p.2, rfl, .inl ⟨rfl, hend⟩⟩
    rw [if_neg hend]
    by_cases hlong : 256 < (s.1 ++ [p.1]).length
    · rw [if_pos hlong]
      exact .inl rfl
    · rw [if_neg hlong]
      rw [List.length_append, List.length_singleton] at hlong
      exact .inr ⟨p.1, p.2, rfl, .inr ⟨rfl, by omega⟩⟩

variable {read} in
/-- The line gets longer, and it may have 256 bytes. -/
theorem lineRound_inl {s s' : List UInt8 × R} (h : lineRound read s = .inl s') :
    257 - s'.1.length < 257 - s.1.length := by
  rcases lineRound_cases read s with hfail | ⟨byte, r, -, ⟨hend, -⟩ | ⟨hnext, hlen⟩⟩
  · cases hfail.symm.trans h
  · cases hend.symm.trans h
  · obtain rfl := Sum.inl.inj (hnext.symm.trans h)
    simp only [List.length_append, List.length_singleton]
    omega

def readLine (r : R) : Option (List UInt8 × R) :=
  loop (lineRound read) (257 - ·.1.length) (fun _ _ => lineRound_inl) (proxyV1Signature, r)

/-- What the words of a version 1 line say; the outer `none` is an access out of range. -/
def parseParts (parts : List (List Char)) : Option (Option ProxyProtocolInfo) :=
  if parts.isEmpty then some none
  else do
    let family ← parts[0]?
    if (family = "TCP4".toList ∨ family = "TCP6".toList) ∧ 5 ≤ parts.length then
      let srcIp := text.parse (← parts[1]?)
      let dstIp := text.parse (← parts[2]?)
      let srcPort := parseU16 (← parts[3]?)
      let dstPort := parseU16 (← parts[4]?)
      return do
        let srcIp ← srcIp
        let dstIp ← dstIp
        let srcPort ← srcPort
        let dstPort ← dstPort
        return ⟨⟨srcIp, srcPort⟩, some ⟨dstIp, dstPort⟩, 1⟩
    else if family = "UNKNOWN".toList then some (some ⟨defaultPeer, none, 1⟩)
    else some none

/-- `parse_v1`: the outer `none` is an access out of range, the inner one `InvalidProxyProtocol`. -/
def parseV1 (r : R) : Option (Option (ProxyProtocolInfo × R)) :=
  match readLine read r with
  | none => some none
  | some (line, r) => do
    let lineBytes ← rangeChecked line 6 (line.length - 2)
    match fromUtf8 lineBytes with
    | none => some none
    | some lineStr =>
      let info ← parseParts text defaultPeer (words isWhitespace lineStr.toList)
      return info.map (·, r)

/-- The addresses of a version 2 header, octets of `w` bytes in each. -/
def parseAddresses (w : ℕ) (ip : Block UInt8 w → IpAddr) (addrData : List UInt8) :
    Option ProxyProtocolInfo := do
  let srcIp ← asBlock w (← sliceChecked addrData 0 w)
  let dstIp ← asBlock w (← sliceChecked addrData w w)
  let srcPort ← u16At addrData (2 * w)
  let dstPort ← u16At addrData (2 * w + 2)
  return ⟨⟨ip srcIp, UInt16.ofNat srcPort⟩, some ⟨ip dstIp, UInt16.ofNat dstPort⟩, 2⟩

/-- `parse_v2`, behind a header of 16 bytes. -/
def parseV2 (header : List UInt8) (r : R) : Option (Option (ProxyProtocolInfo × R)) := do
  let versionCommand : UInt8 ← header[12]?
  let familyProtocol : UInt8 ← header[13]?
  let addrLen ← u16At header 14
  if versionCommand >>> 4 ≠ 2 then some none
  else match readExact read addrLen r with
    | none => some none
    | some (addrData, r) =>
      if versionCommand &&& 0x0f = 0 then some (some (⟨defaultPeer, none, 2⟩, r))
      else if versionCommand &&& 0x0f ≠ 1 then some none
      else
        let family := familyProtocol >>> 4
        if family = 0x1 ∧ 12 ≤ addrLen then
          return some (← parseAddresses 4 .v4 addrData, r)
        else if family = 0x2 ∧ 36 ≤ addrLen then
          return some (← parseAddresses 16 .v6 addrData, r)
        else if family = 0x0 then some (some (⟨defaultPeer, none, 2⟩, r))
        else some none

/-- `parse_proxy_protocol`, and what is left of the stream. -/
def parseProxyProtocol (r : R) : Option (Option (ProxyProtocolInfo × R)) :=
  match readExact read 6 r with
  | none => some none
  | some (start, r) =>
    if start = proxyV1Signature then parseV1 text read defaultPeer r
    else match readExact read 10 r with
      | none => some none
      | some (rest, r) =>
        if (start ++ rest).take 12 = proxyV2Signature then
          parseV2 read defaultPeer (start ++ rest) r
        else some none

end

/-! ### The builders -/

structure ProxyProtocolV1Builder where
  family : String
  srcAddr : Option SocketAddr
  dstAddr : Option SocketAddr

namespace ProxyProtocolV1Builder

def new : ProxyProtocolV1Builder := ⟨"UNKNOWN", none, none⟩

def tcp4 (_b : ProxyProtocolV1Builder) (src dst : SocketAddr) : ProxyProtocolV1Builder :=
  ⟨"TCP4", some src, some dst⟩

def tcp6 (_b : ProxyProtocolV1Builder) (src dst : SocketAddr) : ProxyProtocolV1Builder :=
  ⟨"TCP6", some src, some dst⟩

/-- `Display` of a `u16`. -/
def displayPort (port : UInt16) : List Char := Nat.toDigits 10 port.toNat

/-- `into_bytes` of a text. -/
def utf8Bytes (chars : List Char) : List UInt8 := chars.flatMap String.utf8EncodeChar

def build (text : IpText) (b : ProxyProtocolV1Builder) : List UInt8 :=
  match b.srcAddr, b.dstAddr with
  | some src, some dst =>
    utf8Bytes ("PROXY ".toList ++ b.family.toList ++ " ".toList ++ text.display src.ip ++
      " ".toList ++ text.display dst.ip ++ " ".toList ++ displayPort src.port ++ " ".toList ++
      displayPort dst.port ++ "\r\n".toList)
  | _, _ => utf8Bytes "PROXY UNKNOWN\r\n".toList

end ProxyProtocolV1Builder

structure ProxyProtocolV2Builder where
  src : Option SocketAddr
  dst : Option SocketAddr

namespace ProxyProtocolV2Builder

def new : ProxyProtocolV2Builder := ⟨none, none⟩

def withAddrs (_b : ProxyProtocolV2Builder) (src dst : SocketAddr) : ProxyProtocolV2Builder :=
  ⟨some src, some dst⟩

/-- The addresses and ports behind their length. -/
def addressBytes (srcOctets dstOctets : List UInt8) (srcPort dstPort : UInt16) (len : ℕ) :
    List UInt8 :=
  beBytes 2 len ++ srcOctets ++ dstOctets ++ beBytes 2 srcPort.toNat ++ beBytes 2 dstPort.toNat

def build (b : ProxyProtocolV2Builder) : List UInt8 :=
  match b.src, b.dst with
  | some ⟨.v4 src, srcPort⟩, some ⟨.v4 dst, dstPort⟩ =>
    proxyV2Signature ++ [0x21, 0x11] ++ addressBytes src.toList dst.toList srcPort dstPort 12
  | some ⟨.v6 src, srcPort⟩, some ⟨.v6 dst, dstPort⟩ =>
    proxyV2Signature ++ [0x21, 0x21] ++ addressBytes src.toList dst.toList srcPort dstPort 36
  | _, _ => proxyV2Signature ++ [0x20, 0x00] ++ beBytes 2 0

end ProxyProtocolV2Builder

/-! ### Any stream -/

section
variable {R : Type} {read : R → Option (UInt8 × R)}

theorem crlf_suffix_iff {line : List UInt8} {byte : UInt8} :
    crlf <:+ line ++ [byte] ↔ line.getLast? = some 0x0d ∧ byte = 0x0a := by
  constructor
  · rintro ⟨t, ht⟩
    have hsplit : (t ++ [0x0d]) ++ [0x0a] = line ++ [byte] := by rw [← ht]; simp [crlf]
    obtain ⟨hline, hbyte⟩ := List.append_inj' hsplit rfl
    obtain rfl := List.singleton_inj.mp hbyte
    rw [← hline, List.getLast?_concat]
    exact ⟨rfl, rfl⟩
  · rintro ⟨hlast, rfl⟩
    obtain ⟨t, rfl⟩ := List.getLast?_eq_some_iff.mp hlast
    exact ⟨t, by simp [crlf]⟩

/-- A complete line has two bytes behind the signature at least. -/
theorem readLine_length (r : R) : ∀ p ∈ readLine read r, 8 ≤ p.1.length := by
  refine loop_invariant (lineRound read) (257 - ·.1.length) (fun _ _ => lineRound_inl)
    (I := fun s => ∃ t, s.1 = proxyV1Signature ++ t)
    (Q := fun result => ∀ p ∈ result, 8 ≤ p.1.length) ?_ ?_ _ ⟨[], by simp⟩
  · rintro s s' ⟨t, ht⟩ hs
    rcases lineRound_cases read s with hfail | ⟨byte, r, -, ⟨hend, -⟩ | ⟨hnext, -⟩⟩
    · cases hfail.symm.trans hs
    · cases hend.symm.trans hs
    · obtain rfl := Sum.inl.inj (hnext.symm.trans hs)
      exact ⟨t ++ [byte], by rw [ht, List.append_assoc]⟩
  · rintro s result ⟨t, ht⟩ hs p hp
    rcases lineRound_cases read s with hfail | ⟨byte, r, -, ⟨hend, hcrlf⟩ | ⟨hnext, -⟩⟩
    · obtain rfl := Sum.inr.inj (hfail.symm.trans hs)
      cases hp
    · obtain rfl := Sum.inr.inj (hend.symm.trans hs)
      obtain rfl := Option.some.inj hp
      have hlast := (crlf_suffix_iff.mp hcrlf).1
      -- the signature does not end with the first byte of the line's end
      rcases eq_or_ne t [] with rfl | hne
      · rw [ht] at hlast
        exact absurd hlast (by decide)
      · have hpos := List.length_pos_iff.mpr hne
        have hsix : proxyV1Signature.length = 6 := rfl
        simp only [ht, List.length_append, List.length_singleton]
        omega
    · cases hnext.symm.trans hs

theorem parseParts_total (text : IpText) (defaultPeer : SocketAddr) (parts : List (List Char)) :
    (parseParts text defaultPeer parts).isSome = true := by
  have hpart : ∀ i, i < parts.length → ∃ part, parts[i]? = some part :=
    fun i hi => ⟨_, List.getElem?_eq_getElem hi⟩
  unfold parseParts
  by_cases hnil : parts.isEmpty
  · rw [if_pos hnil, Option.isSome_some]
  obtain ⟨family, hfamily⟩ := hpart 0 (List.length_pos_iff.mpr (by simpa using hnil))
  simp only [if_neg hnil, hfamily, Option.bind_eq_bind, Option.bind_some]
  by_cases hfull : (family = "TCP4".toList ∨ family = "TCP6".toList) ∧ 5 ≤ parts.length
  · obtain ⟨p₁, h₁⟩ := hpart 1 (by omega)
    obtain ⟨p₂, h₂⟩ := hpart 2 (by omega)
    obtain ⟨p₃, h₃⟩ := hpart 3 (by omega)
    obtain ⟨p₄, h₄⟩ := hpart 4 (by omega)
    simp only [if_pos hfull, h₁, h₂, h₃, h₄, Option.bind_some]
    rfl
  · rw [if_neg hfull]
    split_ifs
    · rfl
    · rfl

theorem parseV1_total (text : IpText) (defaultPeer : SocketAddr) (r : R) :
    (parseV1 text read defaultPeer r).isSome = true := by
  unfold parseV1
  cases hline : readLine read r with
  | none => rfl
  | some p =>
    obtain ⟨line, r'⟩ := p
    have hlen : 8 ≤ line.length := readLine_length r _ hline
    have hrange : rangeChecked line 6 (line.length - 2) =
        some (slice line 6 (line.length - 2 - 6)) := if_pos ⟨by omega, by omega⟩
    simp only [hrange, Option.bind_eq_bind, Option.bind_some]
    cases htext : fromUtf8 (slice line 6 (line.length - 2 - 6)) with
    | none => rfl
    | some lineStr =>
      obtain ⟨info, hinfo⟩ := Option.isSome_iff_exists.mp
        (parseParts_total text defaultPeer (words isWhitespace lineStr.toList))
      simp only [hinfo, Option.bind_some]
      rfl

/-- Addresses of `w` octets in a block that holds them. -/
theorem parseAddresses_isSome {w : ℕ} (ip : Block UInt8 w → IpAddr) {addrData : List UInt8}
    (h : 2 * w + 4 ≤ addrData.length) : ∃ info, parseAddresses w ip addrData = some info := by
  have hblock : ∀ pos, pos + w ≤ addrData.length →
      ∃ b, asBlock w (slice addrData pos w) = some b := by
    intro pos hpos
    have hlen : (slice addrData pos w).length = w := by
      rw [length_slice]
      omega
    exact ⟨⟨_, hlen⟩, dif_pos hlen⟩
  obtain ⟨src, hsrc⟩ := hblock 0 (by omega)
  obtain ⟨dst, hdst⟩ := hblock w (by omega)
  obtain ⟨srcPort, hsrcPort⟩ := u16At_isSome (show 2 * w + 2 ≤ addrData.length by omega)
  obtain ⟨dstPort, hdstPort⟩ := u16At_isSome (show 2 * w + 2 + 2 ≤ addrData.length by omega)
  have hsrcAt : sliceChecked addrData 0 w = some (slice addrData 0 w) := sliceChecked_eq (by omega)
  have hdstAt : sliceChecked addrData w w = some (slice addrData w w) := sliceChecked_eq (by omega)
  simp only [parseAddresses, hsrcAt, hdstAt, hsrc, hdst, hsrcPort, hdstPort, Option.bind_eq_bind,
    Option.bind_some]
  exact ⟨_, rfl⟩

theorem parseV2_total (defaultPeer : SocketAddr) {header : List UInt8} (hlen : header.length = 16)
    (r : R) : (parseV2 read defaultPeer header r).isSome = true := by
  obtain ⟨versionCommand, hversion⟩ := byteAt (show 12 < header.length by omega)
  obtain ⟨familyProtocol, hfamily⟩ := byteAt (show 13 < header.length by omega)
  obtain ⟨addrLen, haddrLen⟩ := u16At_isSome (show 14 + 2 ≤ header.length by omega)
  simp only [parseV2, hversion, hfamily, haddrLen, Option.bind_eq_bind, Option.bind_some]
  by_cases htwo : versionCommand >>> 4 ≠ 2
  · rw [if_pos htwo, Option.isSome_some]
  rw [if_neg htwo]
  cases hread : readExact read addrLen r with
  | none => rfl
  | some p =>
    obtain ⟨addrData, r'⟩ := p
    have hdata := length_readExact hread
    simp only
    split_ifs with hlocal hproxy hinet hinet6 hunspec
    · rfl
    · rfl
    · obtain ⟨info, hinfo⟩ := parseAddresses_isSome IpAddr.v4
        (show 2 * 4 + 4 ≤ addrData.length by omega)
      rw [hinfo]
      rfl
    · obtain ⟨info, hinfo⟩ := parseAddresses_isSome IpAddr.v6
        (show 2 * 16 + 4 ≤ addrData.length by omega)
      rw [hinfo]
      rfl
    · rfl
    · rfl

/-- The parser comes to an end on every stream, endless ones included. -/
theorem parseProxyProtocol_total (text : IpText) (defaultPeer : SocketAddr) (r : R) :
    (parseProxyProtocol text read defaultPeer r).isSome = true := by
  unfold parseProxyProtocol
  cases hstart : readExact read 6 r with
  | none => rfl
  | some p =>
    simp only
    split_ifs with hv1
    · exact parseV1_total text defaultPeer p.2
    cases hrest : readExact read 10 p.2 with
    | none => rfl
    | some q =>
      simp only
      split_ifs with hv2
      · refine parseV2_total defaultPeer ?_ q.2
        rw [List.length_append, length_readExact hstart, length_readExact hrest]
      · rfl

end

/-! ### Texts -/

/-- Printable ASCII. -/
def Printable (chars : List Char) : Prop := ∀ c ∈ chars, 0x20 ≤ c.toNat ∧ c.toNat ≤ 0x7e

section
open ProxyProtocolV1Builder
variable {chars : List Char}

theorem utf8Bytes_append (as bs : List Char) :
    utf8Bytes (as ++ bs) = utf8Bytes as ++ utf8Bytes bs := List.flatMap_append

/-- A printable text is one byte for each character. -/
theorem utf8Bytes_printable (h : Printable chars) :
    utf8Bytes chars = chars.map (·.val.toUInt8) := by
  induction chars with
  | nil => rfl
  | cons c chars ih =>
    obtain ⟨⟨-, hc⟩, hchars⟩ := List.forall_mem_cons.mp h
    have hone : c.utf8Size = 1 := by
      rw [Char.utf8Size_eq_one_iff, UInt32.le_iff_toNat_le]
      exact hc.trans (by decide)
    rw [utf8Bytes, List.flatMap_cons, String.utf8EncodeChar_eq_singleton hone, ← utf8Bytes,
      ih hchars, List.map_cons, List.singleton_append]

theorem cr_not_mem_utf8Bytes (h : Printable chars) : ∀ b ∈ utf8Bytes chars, b ≠ 0x0d := by
  intro b hb
  rw [utf8Bytes_printable h] at hb
  obtain ⟨c, hc, rfl⟩ := List.mem_map.mp hb
  obtain ⟨hlow, hhigh⟩ := h c hc
  have hval : c.val.toNat = c.toNat := rfl
  rw [ne_eq, ← UInt8.toNat_inj, UInt32.toNat_toUInt8, hval]
  have hcr : (0x0d : UInt8).toNat = 13 := rfl
  omega

theorem fromUtf8_utf8Bytes (chars : List Char) :
    fromUtf8 (utf8Bytes chars) = some (String.ofList chars) := by
  have hbytes : (⟨(utf8Bytes chars).toArray⟩ : ByteArray) = (String.ofList chars).toByteArray := by
    rw [String.toByteArray_ofList, List.utf8Encode]
    exact ByteArray.ext List.data_toByteArray.symm
  rw [fromUtf8, hbytes, String.fromUTF8?, dif_pos (String.ofList chars).isValidUTF8]
  rfl

/-- A character that is seen is no white space. -/
theorem isWhitespace_visible {c : Char} (h : 0x21 ≤ c.toNat ∧ c.toNat ≤ 0x7e) :
    isWhitespace c = false := by
  obtain ⟨hlow, hhigh⟩ := h
  simp only [isWhitespace, Bool.or_eq_false_iff, Bool.and_eq_false_iff, decide_eq_false_iff_not]
  omega

theorem isWord_of_visible (hne : chars ≠ []) (h : ∀ c ∈ chars, 0x21 ≤ c.toNat ∧ c.toNat ≤ 0x7e) :
    IsWord isWhitespace chars := ⟨hne, fun c hc => isWhitespace_visible (h c hc)⟩

/-! ### Ports -/

theorem displayPort_digits (port : UInt16) : ∀ c ∈ displayPort port, c.isDigit = true :=
  fun _ hc => Nat.isDigit_of_mem_toDigits (by decide) (by decide) hc

theorem displayPort_visible (port : UInt16) :
    ∀ c ∈ displayPort port, 0x21 ≤ c.toNat ∧ c.toNat ≤ 0x7e := by
  intro c hc
  have hdigit := displayPort_digits port c hc
  simp only [Char.isDigit, Bool.and_eq_true, decide_eq_true_eq, UInt32.le_iff_toNat_le] at hdigit
  have hval : c.val.toNat = c.toNat := rfl
  obtain ⟨hlow, hhigh⟩ := hdigit
  rw [hval] at hlow hhigh
  exact ⟨le_trans (by decide) hlow, hhigh.trans (by decide)⟩

theorem length_displayPort (port : UInt16) : (displayPort port).length ≤ 5 :=
  (Nat.length_toDigits_le_iff (by decide) (by decide)).mpr
    (port.toNat_lt.trans (by decide))

theorem parseU16_displayPort (port : UInt16) : parseU16 (displayPort port) = some port := by
  have hne : displayPort port ≠ [] := Nat.toDigits_ne_nil
  have hall : (displayPort port).all Char.isDigit = true :=
    List.all_eq_true.mpr (displayPort_digits port)
  have hplus : ∀ rest, displayPort port ≠ '+' :: rest := by
    intro rest h
    have := displayPort_digits port '+' (by rw [h]; exact List.mem_cons_self)
    exact absurd this (by decide)
  have hvalue : (displayPort port).foldl (fun n c => 10 * n + (c.toNat - '0'.toNat)) 0 =
      port.toNat := Nat.ofDigitChars_ten_toDigits
  unfold parseU16
  split
  · rename_i rest h
    exact absurd h (hplus rest)
  · rw [if_pos ⟨hne, hall⟩]
    simp only [hvalue, if_pos port.toNat_lt, UInt16.ofNat_toNat]

end

/-! ### Version 1 -/

section
open ProxyProtocolV1Builder
variable {R : Type} {read : R → Option (UInt8 × R)} {text : IpText} {defaultPeer : SocketAddr}

/-- A byte that does not complete the line. -/
theorem lineRound_next {line : List UInt8} {byte : UInt8} {r r' : R}
    (hread : read r = some (byte, r')) (hmore : ¬ (line.getLast? = some 0x0d ∧ byte = 0x0a))
    (hlen : line.length + 1 ≤ 256) :
    lineRound read (line, r) = .inl (line ++ [byte], r') := by
  unfold lineRound
  simp only [hread]
  rw [if_neg (mt crlf_suffix_iff.mp hmore), if_neg]
  rw [List.length_append, List.length_singleton]
  omega

/-- The loop reads a line without a carriage return up to its end, and not beyond. -/
theorem lineLoop_eq {bytes : List UInt8} (hbytes : ∀ b ∈ bytes, b ≠ 0x0d) {line : List UInt8}
    {r r' : R} (hlast : line.getLast? ≠ some 0x0d) (hlen : line.length + bytes.length + 1 ≤ 256)
    (hy : Yields read (bytes ++ crlf) r r') :
    loop (lineRound read) (257 - ·.1.length) (fun _ _ => lineRound_inl) (line, r) =
      some (line ++ (bytes ++ crlf), r') := by
  induction bytes generalizing line r with
  | nil =>
    -- the two bytes of the end, of which only the second completes the line
    rw [List.nil_append, crlf, yields_cons] at hy
    obtain ⟨r₁, hcr, hy⟩ := hy
    obtain ⟨r₂, hlf, hy⟩ := yields_cons.mp hy
    obtain ⟨-, rfl⟩ := Prod.mk.inj (Option.some.inj hy)
    rw [List.length_nil] at hlen
    have hround :
        lineRound read (line ++ [0x0d], r₁) = .inr (some (line ++ [0x0d] ++ [0x0a], r₂)) := by
      unfold lineRound
      simp only [hlf]
      rw [if_pos (crlf_suffix_iff.mpr ⟨List.getLast?_concat, rfl⟩)]
    rw [loop_inl _ _ _ (lineRound_next hcr (fun h => hlast h.1) (by omega)), loop_inr _ _ _ hround]
    simp [crlf]
  | cons b bytes ih =>
    rw [List.cons_append, yields_cons] at hy
    obtain ⟨r₁, hb, hy⟩ := hy
    obtain ⟨hb', hbytes⟩ := List.forall_mem_cons.mp hbytes
    rw [List.length_cons] at hlen
    have hlast' : (line ++ [b]).getLast? ≠ some 0x0d := by
      rw [List.getLast?_concat]
      exact fun h => hb' (Option.some.inj h)
    rw [loop_inl _ _ _ (lineRound_next hb (fun h => hlast h.1) (by omega)),
      ih hbytes hlast' (by rw [List.length_append, List.length_singleton]; omega) hy]
    simp

/-- A printable line that is not too long, behind the signature. -/
theorem parseV1_line {chars : List Char} {r r' : R} (h : Printable chars)
    (hlen : chars.length ≤ 249) (hy : Yields read (utf8Bytes chars ++ crlf) r r') :
    parseV1 text read defaultPeer r =
      (parseParts text defaultPeer (words isWhitespace chars)).map (Option.map (·, r')) := by
  have hbytes : (utf8Bytes chars).length = chars.length := by
    rw [utf8Bytes_printable h, List.length_map]
  have hsix : proxyV1Signature.length = 6 := rfl
  have hline : readLine read r = some (proxyV1Signature ++ (utf8Bytes chars ++ crlf), r') :=
    lineLoop_eq (cr_not_mem_utf8Bytes h) (by decide) (by omega) hy
  have hrange : rangeChecked (proxyV1Signature ++ (utf8Bytes chars ++ crlf)) 6
      ((proxyV1Signature ++ (utf8Bytes chars ++ crlf)).length - 2) = some (utf8Bytes chars) := by
    have hstop : (proxyV1Signature ++ (utf8Bytes chars ++ crlf)).length - 2 =
        6 + (utf8Bytes chars).length := by
      simp only [List.length_append, hsix, crlf, List.length_cons, List.length_nil]
      omega
    rw [rangeChecked, hstop, if_pos, slice, List.drop_left' hsix, Nat.add_sub_cancel_left,
      List.take_left]
    simp only [List.length_append, hsix]
    omega
  simp only [parseV1, hline, hrange, fromUtf8_utf8Bytes, Option.bind_eq_bind, Option.bind_some,
    String.toList_ofList]
  obtain ⟨info, hinfo⟩ := Option.isSome_iff_exists.mp
    (parseParts_total text defaultPeer (words isWhitespace chars))
  rw [hinfo]
  rfl

/-- A header of version 1, read from the start. -/
theorem parse_v1_header {chars : List Char} {r r' : R} (h : Printable chars)
    (hlen : chars.length ≤ 249)
    (hy : Yields read (utf8Bytes ("PROXY ".toList ++ chars ++ "\r\n".toList)) r r') :
    parseProxyProtocol text read defaultPeer r =
      (parseParts text defaultPeer (words isWhitespace chars)).map (Option.map (·, r')) := by
  have hsig : utf8Bytes "PROXY ".toList = proxyV1Signature := by decide
  have hend : utf8Bytes "\r\n".toList = crlf := by decide
  rw [utf8Bytes_append, utf8Bytes_append, hsig, hend, List.append_assoc] at hy
  obtain ⟨r₁, hstart, hrest⟩ := yields_append.mp hy
  have hread : readExact read 6 r = some (proxyV1Signature, r₁) := hstart
  simp only [parseProxyProtocol, hread, if_true]
  exact parseV1_line h hlen hrest

/-- The text of an address stands for it, and is a visible one of at most 39 characters. -/
structure IpText.Faithful (text : IpText) (ip : IpAddr) : Prop where
  parse_display : text.parse (text.display ip) = some ip
  visible : ∀ c ∈ text.display ip, 0x21 ≤ c.toNat ∧ c.toNat ≤ 0x7e
  ne_nil : text.display ip ≠ []
  length_le : (text.display ip).length ≤ 39

/-- What the builder writes for two addresses, as words. -/
theorem words_joined {a b c d e : List Char} (ha : IsWord isWhitespace a)
    (hb : IsWord isWhitespace b) (hc : IsWord isWhitespace c) (hd : IsWord isWhitespace d)
    (he : IsWord isWhitespace e) :
    words isWhitespace (a ++ " ".toList ++ b ++ " ".toList ++ c ++ " ".toList ++ d ++ " ".toList ++
      e) = [a, b, c, d, e] := by
  have hspace : " ".toList = [' '] := rfl
  have hsep : isWhitespace ' ' = true := by decide
  simp only [hspace, List.append_assoc, List.cons_append, List.nil_append]
  rw [words_cons hsep ha, words_cons hsep hb, words_cons hsep hc, words_cons hsep hd, words_word he]

theorem Printable.append {as bs : List Char} (ha : Printable as) (hb : Printable bs) :
    Printable (as ++ bs) := by
  intro c hc
  rcases List.mem_append.mp hc with h | h
  · exact ha c h
  · exact hb c h

theorem printable_of_visible {chars : List Char}
    (h : ∀ c ∈ chars, 0x21 ≤ c.toNat ∧ c.toNat ≤ 0x7e) : Printable chars :=
  fun c hc => ⟨le_trans (by decide) (h c hc).1, (h c hc).2⟩

/-- The words that the builder writes for two addresses. -/
theorem parseParts_addresses {family : List Char}
    (hfamily : family = "TCP4".toList ∨ family = "TCP6".toList) {src dst : SocketAddr}
    (hsrc : text.Faithful src.ip) (hdst : text.Faithful dst.ip) :
    parseParts text defaultPeer [family, text.display src.ip, text.display dst.ip,
      displayPort src.port, displayPort dst.port] = some (some ⟨src, some dst, 1⟩) := by
  unfold parseParts
  simp only [List.isEmpty_cons, Bool.false_eq_true, if_false, List.getElem?_cons_zero,
    List.getElem?_cons_succ, Option.bind_eq_bind, Option.bind_some]
  rw [if_pos ⟨hfamily, le_refl 5⟩, hsrc.parse_display, hdst.parse_display, parseU16_displayPort,
    parseU16_displayPort]
  rfl

/-- The line of two addresses, without the signature and the end. -/
def addressLine (text : IpText) (family : String) (src dst : SocketAddr) : List Char :=
  family.toList ++ " ".toList ++ text.display src.ip ++ " ".toList ++ text.display dst.ip ++
    " ".toList ++ displayPort src.port ++ " ".toList ++ displayPort dst.port

theorem build_addresses (family : String) (src dst : SocketAddr) :
    ProxyProtocolV1Builder.build text ⟨family, some src, some dst⟩ =
      utf8Bytes ("PROXY ".toList ++ addressLine text family src dst ++ "\r\n".toList) := by
  simp only [ProxyProtocolV1Builder.build, addressLine, List.append_assoc]

section
variable {family : String} {src dst : SocketAddr}

theorem family_visible (h : family = "TCP4" ∨ family = "TCP6") :
    family.toList.length = 4 ∧ ∀ c ∈ family.toList, 0x21 ≤ c.toNat ∧ c.toNat ≤ 0x7e := by
  rcases h with rfl | rfl
  · simp
  · simp

theorem printable_addressLine (hfamily : family = "TCP4" ∨ family = "TCP6")
    (hsrc : text.Faithful src.ip) (hdst : text.Faithful dst.ip) :
    Printable (addressLine text family src dst) := by
  have hspace : Printable " ".toList := by simp [Printable]
  have hname := printable_of_visible (family_visible hfamily).2
  have hsrcIp := printable_of_visible hsrc.visible
  have hdstIp := printable_of_visible hdst.visible
  have hsrcPort := printable_of_visible (displayPort_visible src.port)
  have hdstPort := printable_of_visible (displayPort_visible dst.port)
  exact (((((((hname.append hspace).append hsrcIp).append hspace).append hdstIp).append
    hspace).append hsrcPort).append hspace).append hdstPort

/-- The names, two addresses, two ports and the spaces between them. -/
theorem length_addressLine (hfamily : family = "TCP4" ∨ family = "TCP6")
    (hsrc : text.Faithful src.ip) (hdst : text.Faithful dst.ip) :
    (addressLine text family src dst).length ≤ 96 := by
  have hone : " ".toList.length = 1 := rfl
  have hname := (family_visible hfamily).1
  have h₁ := hsrc.length_le
  have h₂ := hdst.length_le
  have h₃ := length_displayPort src.port
  have h₄ := length_displayPort dst.port
  simp only [addressLine, List.length_append, hname, hone]
  omega

theorem words_addressLine (hfamily : family = "TCP4" ∨ family = "TCP6")
    (hsrc : text.Faithful src.ip) (hdst : text.Faithful dst.ip) :
    words isWhitespace (addressLine text family src dst) =
      [family.toList, text.display src.ip, text.display dst.ip, displayPort src.port,
        displayPort dst.port] := by
  obtain ⟨hlen, hvisible⟩ := family_visible hfamily
  have hne : family.toList ≠ [] := List.ne_nil_of_length_pos (by rw [hlen]; decide)
  have hsrcNe : displayPort src.port ≠ [] := Nat.toDigits_ne_nil
  have hdstNe : displayPort dst.port ≠ [] := Nat.toDigits_ne_nil
  exact words_joined (isWord_of_visible hne hvisible)
    (isWord_of_visible hsrc.ne_nil hsrc.visible) (isWord_of_visible hdst.ne_nil hdst.visible)
    (isWord_of_visible hsrcNe (displayPort_visible src.port))
    (isWord_of_visible hdstNe (displayPort_visible dst.port))

/-- A version 1 header of two addresses, under either family name. -/
theorem parse_v1_addresses (hfamily : family = "TCP4" ∨ family = "TCP6")
    (hsrc : text.Faithful src.ip) (hdst : text.Faithful dst.ip) {r r' : R}
    (hy : Yields read (ProxyProtocolV1Builder.build text ⟨family, some src, some dst⟩) r r') :
    parseProxyProtocol text read defaultPeer r = some (some (⟨src, some dst, 1⟩, r')) := by
  rw [build_addresses] at hy
  have hlen : (addressLine text family src dst).length ≤ 249 :=
    (length_addressLine hfamily hsrc hdst).trans (by decide)
  have hname : family.toList = "TCP4".toList ∨ family.toList = "TCP6".toList :=
    hfamily.imp (congrArg _) (congrArg _)
  rw [parse_v1_header (printable_addressLine hfamily hsrc hdst) hlen hy,
    words_addressLine hfamily hsrc hdst, parseParts_addresses hname hsrc hdst]
  rfl

end

/-- A version 1 header without addresses. -/
theorem parse_v1_unknown {r r' : R}
    (hy : Yields read (ProxyProtocolV1Builder.build text .new) r r') :
    parseProxyProtocol text read defaultPeer r = some (some (⟨defaultPeer, none, 1⟩, r')) := by
  have hbuild : ProxyProtocolV1Builder.build text .new =
      utf8Bytes ("PROXY ".toList ++ "UNKNOWN".toList ++ "\r\n".toList) := rfl
  have hchars : Printable "UNKNOWN".toList := by simp [Printable]
  have hwords : words isWhitespace "UNKNOWN".toList = ["UNKNOWN".toList] := by decide
  rw [hbuild] at hy
  rw [parse_v1_header hchars (by decide) hy, hwords]
  rfl

end

/-! ### Version 2 -/

section
open ProxyProtocolV2Builder
variable {R : Type} {read : R → Option (UInt8 × R)} {text : IpText} {defaultPeer : SocketAddr}

variable (text defaultPeer) in
/-- The twelve bytes of the signature tell version 2, whatever stands behind them. -/
theorem parse_v2_header {four body : List UInt8} (hfour : four.length = 4) {r r' : R}
    (hy : Yields read (proxyV2Signature ++ (four ++ body)) r r') :
    ∃ r₁, Yields read body r₁ r' ∧ parseProxyProtocol text read defaultPeer r =
      parseV2 read defaultPeer (proxyV2Signature ++ four) r₁ := by
  have hsplit : proxyV2Signature ++ (four ++ body) =
      proxyV2Signature.take 6 ++ (proxyV2Signature.drop 6 ++ four ++ body) := by
    rw [List.append_assoc (proxyV2Signature.drop 6), ← List.append_assoc (proxyV2Signature.take 6),
      List.take_append_drop]
  rw [hsplit, yields_append] at hy
  obtain ⟨r₀, hstart, hy⟩ := hy
  obtain ⟨r₁, hrest, hbody⟩ := yields_append.mp hy
  have hten : (proxyV2Signature.drop 6 ++ four).length = 10 := by
    rw [List.length_append, hfour]
    rfl
  rw [Yields, hten] at hrest
  have hstart' : readExact read 6 r = some (proxyV2Signature.take 6, r₀) := hstart
  have hjoined : proxyV2Signature.take 6 ++ (proxyV2Signature.drop 6 ++ four) =
      proxyV2Signature ++ four := by
    rw [← List.append_assoc, List.take_append_drop]
  have hsig : (proxyV2Signature ++ four).take 12 = proxyV2Signature := List.take_left' rfl
  have hv1 : proxyV2Signature.take 6 ≠ proxyV1Signature := by decide
  refine ⟨r₁, hbody, ?_⟩
  simp only [parseProxyProtocol, hstart', if_neg hv1, hrest, hjoined, hsig, if_true]

/-- Two addresses of one family, with octets of `w` bytes. -/
theorem parseAddresses_octets {w : ℕ} (ip : Block UInt8 w → IpAddr) (src dst : Block UInt8 w)
    (srcPort dstPort : UInt16) :
    parseAddresses w ip (src.toList ++ (dst.toList ++
      (beBytes 2 srcPort.toNat ++ beBytes 2 dstPort.toNat))) =
      some ⟨⟨ip src, srcPort⟩, some ⟨ip dst, dstPort⟩, 2⟩ := by
  generalize hdata : src.toList ++ (dst.toList ++
    (beBytes 2 srcPort.toNat ++ beBytes 2 dstPort.toNat)) = addrData
  have hsrcLen := src.length_eq
  have hdstLen := dst.length_eq
  have hlen : addrData.length = 2 * w + 4 := by
    rw [← hdata]
    simp only [List.length_append, hsrcLen, hdstLen, length_beBytes]
    omega
  have hdrop₁ : addrData.drop w = dst.toList ++ (beBytes 2 srcPort.toNat ++
      beBytes 2 dstPort.toNat) := by
    rw [← hdata, List.drop_left' hsrcLen]
  have hdrop₂ : addrData.drop (2 * w) = beBytes 2 srcPort.toNat ++ beBytes 2 dstPort.toNat := by
    rw [two_mul, ← List.drop_drop, hdrop₁, List.drop_left' hdstLen]
  have hdrop₃ : addrData.drop (2 * w + 2) = beBytes 2 dstPort.toNat ++ [] := by
    rw [← List.drop_drop, hdrop₂, List.drop_left' (length_beBytes 2 _), List.append_nil]
  have hsrcAt := sliceChecked_of_drop (show 0 + src.toList.length ≤ addrData.length by omega)
    hdata.symm
  have hdstAt := sliceChecked_of_drop (show w + dst.toList.length ≤ addrData.length by omega) hdrop₁
  rw [hsrcLen] at hsrcAt
  rw [hdstLen] at hdstAt
  have hsrcPort := u16At_of_drop srcPort.toNat_lt hdrop₂
  have hdstPort := u16At_of_drop dstPort.toNat_lt hdrop₃
  simp only [parseAddresses, hsrcAt, hdstAt, hsrcPort, hdstPort, asBlock_toList,
    Option.bind_eq_bind, Option.bind_some, UInt16.ofNat_toNat]
  rfl

/-- The three fields of a version 2 header behind its signature. -/
theorem header_fields (versionCommand familyProtocol : UInt8) {addrLen : ℕ} (h : addrLen < 2 ^ 16) :
    (proxyV2Signature ++ ([versionCommand, familyProtocol] ++ beBytes 2 addrLen))[12]? =
        some versionCommand ∧
      (proxyV2Signature ++ ([versionCommand, familyProtocol] ++ beBytes 2 addrLen))[13]? =
        some familyProtocol ∧
      u16At (proxyV2Signature ++ ([versionCommand, familyProtocol] ++ beBytes 2 addrLen)) 14 =
        some addrLen := by
  have hdrop :
      (proxyV2Signature ++ ([versionCommand, familyProtocol] ++ beBytes 2 addrLen)).drop 14 =
        beBytes 2 addrLen ++ [] := rfl
  exact ⟨rfl, rfl, u16At_of_drop h hdrop⟩

/-- A version 2 header with a block of addresses of either family. -/
theorem parse_v2_addresses (familyProtocol : UInt8) {body : List UInt8} {info : ProxyProtocolInfo}
    (hlen : body.length < 2 ^ 16)
    (hinfo : familyProtocol >>> 4 = 0x1 ∧ 12 ≤ body.length ∧ parseAddresses 4 .v4 body = some info ∨
      familyProtocol >>> 4 = 0x2 ∧ 36 ≤ body.length ∧ parseAddresses 16 .v6 body = some info)
    {r r' : R} (hy : Yields read (proxyV2Signature ++
      (([0x21, familyProtocol] ++ beBytes 2 body.length) ++ body)) r r') :
    parseProxyProtocol text read defaultPeer r = some (some (info, r')) := by
  obtain ⟨r₁, hbody, hparse⟩ := parse_v2_header text defaultPeer rfl hy
  obtain ⟨hversion, hfamily, haddrLen⟩ := header_fields 0x21 familyProtocol hlen
  have htwo : ¬ (0x21 : UInt8) >>> 4 ≠ 2 := by decide
  have hlocal : ¬ (0x21 : UInt8) &&& 0x0f = 0 := by decide
  have hproxy : ¬ (0x21 : UInt8) &&& 0x0f ≠ 1 := by decide
  rw [Yields] at hbody
  rw [hparse]
  simp only [parseV2, hversion, hfamily, haddrLen, Option.bind_eq_bind, Option.bind_some,
    if_neg htwo, hbody, if_neg hlocal, if_neg hproxy]
  rcases hinfo with ⟨hinet, hsize, haddr⟩ | ⟨hinet6, hsize, haddr⟩
  · rw [if_pos ⟨hinet, hsize⟩, haddr]
    rfl
  · have hinet : ¬ (familyProtocol >>> 4 = 0x1 ∧ 12 ≤ body.length) := by
      rw [hinet6]
      exact fun h => absurd h.1 (by decide)
    rw [if_neg hinet, if_pos ⟨hinet6, hsize⟩, haddr]
    rfl

/-- A version 2 header without addresses. -/
theorem parse_v2_local {r r' : R}
    (hy : Yields read (proxyV2Signature ++ [0x20, 0x00] ++ beBytes 2 0) r r') :
    parseProxyProtocol text read defaultPeer r = some (some (⟨defaultPeer, none, 2⟩, r')) := by
  have hsplit : proxyV2Signature ++ [0x20, 0x00] ++ beBytes 2 0 =
      proxyV2Signature ++ (([0x20, 0x00] ++ beBytes 2 0) ++ []) := by
    rw [List.append_nil, List.append_assoc]
  rw [hsplit] at hy
  obtain ⟨r₁, hbody, hparse⟩ := parse_v2_header text defaultPeer rfl hy
  obtain ⟨hversion, hfamily, haddrLen⟩ := header_fields 0x20 0x00 (show 0 < 2 ^ 16 by decide)
  have htwo : ¬ (0x20 : UInt8) >>> 4 ≠ 2 := by decide
  have hlocal : (0x20 : UInt8) &&& 0x0f = 0 := by decide
  rw [Yields, List.length_nil] at hbody
  rw [hparse]
  simp only [parseV2, hversion, hfamily, haddrLen, Option.bind_eq_bind, Option.bind_some,
    if_neg htwo, hbody, if_pos hlocal]

/-- Both addresses are IPv4 ones, or both are IPv6 ones. -/
def SameFamily (src dst : SocketAddr) : Prop :=
  match src.ip, dst.ip with
  | .v4 _, .v4 _ => True
  | .v6 _, .v6 _ => True
  | _, _ => False

theorem parse_v2_same {src dst : SocketAddr} (h : SameFamily src dst) {r r' : R}
    (hy : Yields read (ProxyProtocolV2Builder.build ⟨some src, some dst⟩) r r') :
    parseProxyProtocol text read defaultPeer r = some (some (⟨src, some dst, 2⟩, r')) := by
  obtain ⟨srcIp, srcPort⟩ := src
  obtain ⟨dstIp, dstPort⟩ := dst
  have hlen : ∀ {w : ℕ} (s d : Block UInt8 w), (s.toList ++ (d.toList ++ (beBytes 2 srcPort.toNat ++
      beBytes 2 dstPort.toNat))).length = 2 * w + 4 := by
    intro w s d
    simp only [List.length_append, s.length_eq, d.length_eq, length_beBytes]
    omega
  cases srcIp with
  | v4 s =>
    cases dstIp with
    | v4 d =>
      refine parse_v2_addresses 0x11 (by rw [hlen s d]; decide)
        (.inl ⟨by decide, (hlen s d).ge, parseAddresses_octets IpAddr.v4 s d srcPort dstPort⟩) ?_
      rw [hlen s d]
      simpa only [ProxyProtocolV2Builder.build, addressBytes, List.append_assoc] using hy
    | v6 d => exact h.elim
  | v6 s =>
    cases dstIp with
    | v4 d => exact h.elim
    | v6 d =>
      refine parse_v2_addresses 0x21 (by rw [hlen s d]; decide)
        (.inr ⟨by decide, (hlen s d).ge, parseAddresses_octets IpAddr.v6 s d srcPort dstPort⟩) ?_
      rw [hlen s d]
      simpa only [ProxyProtocolV2Builder.build, addressBytes, List.append_assoc] using hy

theorem build_mixed {src dst : SocketAddr} (h : ¬ SameFamily src dst) :
    ProxyProtocolV2Builder.build ⟨some src, some dst⟩ =
      proxyV2Signature ++ [0x20, 0x00] ++ beBytes 2 0 := by
  obtain ⟨srcIp, srcPort⟩ := src
  obtain ⟨dstIp, dstPort⟩ := dst
  cases srcIp with
  | v4 s =>
    cases dstIp with
    | v4 d => exact absurd trivial h
    | v6 d => rfl
  | v6 s =>
    cases dstIp with
    | v4 d => rfl
    | v6 d => exact absurd trivial h

end

/-- What the builders of both versions write comes back, and the bytes behind it are the next ones;
    without addresses, and for two families in version 2, the peer itself comes back. Every stream
    is parsed to an end. -/
theorem proxy_protocol_round_trip (text : IpText) (peer src dst : SocketAddr)
    (hsrc : text.Faithful src.ip) (hdst : text.Faithful dst.ip) {R : Type}
    (read : R → Option (UInt8 × R)) (r r' : R) :
    (SameFamily src dst →
      (Yields read ((ProxyProtocolV1Builder.new.tcp4 src dst).build text) r r' ∨
          Yields read ((ProxyProtocolV1Builder.new.tcp6 src dst).build text) r r' →
        parseProxyProtocol text read peer r = some (some (⟨src, some dst, 1⟩, r'))) ∧
      (Yields read (ProxyProtocolV2Builder.new.withAddrs src dst).build r r' →
        parseProxyProtocol text read peer r = some (some (⟨src, some dst, 2⟩, r')))) ∧
    (Yields read (ProxyProtocolV1Builder.new.build text) r r' →
      parseProxyProtocol text read peer r = some (some (⟨peer, none, 1⟩, r'))) ∧
    (Yields read ProxyProtocolV2Builder.new.build r r' ∨
        ¬ SameFamily src dst ∧
          Yields read (ProxyProtocolV2Builder.new.withAddrs src dst).build r r' →
      parseProxyProtocol text read peer r = some (some (⟨peer, none, 2⟩, r'))) ∧
    (parseProxyProtocol text read peer r).isSome = true := by
  refine ⟨fun hsame => ⟨?_, parse_v2_same hsame⟩, parse_v1_unknown, ?_,
    parseProxyProtocol_total text peer r⟩
  · rintro (hy | hy)
    · exact parse_v1_addresses (.inl rfl) hsrc hdst hy
    · exact parse_v1_addresses (.inr rfl) hsrc hdst hy
  · rintro (hy | ⟨hmixed, hy⟩)
    · exact parse_v2_local hy
    · rw [ProxyProtocolV2Builder.withAddrs, build_mixed hmixed] at hy
      exact parse_v2_local hy

/-- The texts of the two addresses of the example below. -/
def documentationText : IpText where
  display ip :=
    if ip = .v4 ⟨[203, 0, 113, 7], rfl⟩ then "203.0.113.7".toList else "198.51.100.1".toList
  parse chars :=
    if chars = "203.0.113.7".toList then some (.v4 ⟨[203, 0, 113, 7], rfl⟩)
    else if chars = "198.51.100.1".toList then some (.v4 ⟨[198, 51, 100, 1], rfl⟩)
    else none

theorem proxy_protocol_round_trip_v4 :
    let peer : SocketAddr := ⟨.v4 ⟨[192, 0, 2, 1], rfl⟩, 40000⟩
    let client : SocketAddr := ⟨.v4 ⟨[203, 0, 113, 7], rfl⟩, 56324⟩
    let server : SocketAddr := ⟨.v4 ⟨[198, 51, 100, 1], rfl⟩, 443⟩
    parseProxyProtocol documentationText takeByte peer
        ((ProxyProtocolV1Builder.new.tcp4 client server).build documentationText ++ [0x16, 0x03]) =
      some (some (⟨client, some server, 1⟩, [0x16, 0x03])) := by
  intro peer client server
  have hclientText : documentationText.display client.ip = "203.0.113.7".toList := rfl
  have hserverText : documentationText.display server.ip = "198.51.100.1".toList := rfl
  have hclient : documentationText.Faithful client.ip :=
    ⟨rfl, by rw [hclientText]; simp, by rw [hclientText]; simp, by rw [hclientText]; simp⟩
  have hserver : documentationText.Faithful server.ip :=
    ⟨rfl, by rw [hserverText]; simp, by rw [hserverText]; simp, by rw [hserverText]; simp⟩
  have hround := proxy_protocol_round_trip documentationText peer client server hclient hserver
    takeByte
    ((ProxyProtocolV1Builder.new.tcp4 client server).build documentationText ++ [0x16, 0x03])
    [0x16, 0x03]
  exact (hround.1 trivial).1 (.inl (yields_takeByte _ _))

end MtProxy.Transport
