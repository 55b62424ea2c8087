import MtProxy.MiddleProxy.Wire
import MtProxy.Schemes.Decode

/-! Reading an `RPC_PROXY_REQ` back. The extra block is there if and only if the flags say so, and
    holds nothing or one ad tag as a TL string.

        type 4 │ flags 4 │ conn id 8 │ client 16 + 4 │ our 16 + 4 │ extra │ data
        extra   length 4 │ TL_PROXY_TAG 4 │ TL string, padded to whole words
        string  n < 254:  n │ n bytes        else:  fe │ n in 3 bytes │ n bytes -/

namespace MtProxy.MiddleProxy
open Schemes

/-- An address in its IPv6 form. -/
structure MappedAddr where
  ip : List UInt8
  port : ℕ
  deriving DecidableEq

/-- `::ffff:a.b.c.d` for an IPv4 address. -/
def IpAddr.mapped : IpAddr → List UInt8
  | .v4 octets => List.replicate 10 0 ++ [0xff, 0xff] ++ octets.toList
  | .v6 octets => octets.toList

def SocketAddr.mapped (addr : SocketAddr) : MappedAddr := ⟨addr.ip.mapped, addr.port.toNat⟩

/-- What a request says. -/
structure ProxyReq where
  flags : ℕ
  connId : ℕ
  clientAddr : MappedAddr
  ourAddr : MappedAddr
  proxyTag : Option (List UInt8)
  data : List UInt8
  deriving DecidableEq

/-! ### The decoder -/

def takeAddr (bs : List UInt8) : Option (MappedAddr × List UInt8) := do
  let (ip, bs) ← takeBytes 16 bs
  let (port, bs) ← takeLe 4 bs
  return (⟨ip, port⟩, bs)

/-- A TL string and the padding behind it. -/
def takeTlString (bs : List UInt8) : Option (List UInt8 × List UInt8) := do
  let (first, bs) ← takeLe 1 bs
  if first < 254 then
    let (text, bs) ← takeBytes first bs
    let (_, bs) ← takeBytes ((4 - (1 + first) % 4) % 4) bs
    return (text, bs)
  else if first = 254 then
    let (n, bs) ← takeLe 3 bs
    let (text, bs) ← takeBytes n bs
    let (_, bs) ← takeBytes ((4 - n % 4) % 4) bs
    return (text, bs)
  else none

/-- The content of the extra block. -/
def decodeExtra (extra : List UInt8) : Option (Option (List UInt8)) :=
  if extra = [] then some none
  else do
    let (tl, bs) ← takeLe 4 extra
    if tl ≠ tlProxyTag.toNat then none
    else
      let (tag, bs) ← takeTlString bs
      if bs = [] then return some tag else none

def takeExtra (bs : List UInt8) : Option (Option (List UInt8) × List UInt8) := do
  let (len, bs) ← takeLe 4 bs
  let (extra, bs) ← takeBytes len bs
  let tag ← decodeExtra extra
  return (tag, bs)

def decodeProxyReq (bs : List UInt8) : Option ProxyReq := do
  let (type, bs) ← takeLe 4 bs
  if type ≠ rpcProxyReq.toNat then none
  else
    let (flags, bs) ← takeLe 4 bs
    let (connId, bs) ← takeLe 8 bs
    let (clientAddr, bs) ← takeAddr bs
    let (ourAddr, bs) ← takeAddr bs
    let (tag, bs) ← if flags &&& rpcFlagHasAdTag.toNat ≠ 0 then takeExtra bs else some (none, bs)
    return ⟨flags, connId, clientAddr, ourAddr, tag, bs⟩

/-! ### Every part is read back -/

section
variable (rest : List UInt8)

theorem takeLe_u32Bytes (n : UInt32) : takeLe 4 (u32Bytes n ++ rest) = some (n.toNat, rest) :=
  takeLe_leBytes n.toNat_lt

/-- `-0x10000` in two's complement: the mapped form of an IPv4 address. -/
theorem ipv4ToMappedV6CCompat_eq (octets : Block UInt8 4) :
    ipv4ToMappedV6CCompat octets = (IpAddr.v4 octets).mapped := by
  have hfront : leBytes 8 0 ++ i32Bytes (-0x10000) = List.replicate 10 0 ++ [0xff, 0xff] := by decide
  rw [ipv4ToMappedV6CCompat, hfront, IpAddr.mapped]

theorem mappedAddrAndPort_eq (addr : SocketAddr) :
    mappedAddrAndPort addr = addr.ip.mapped ++ u32Bytes addr.port.toUInt32 := by
  obtain ⟨ip, port⟩ := addr
  cases ip with
  | v4 octets => exact congrArg (· ++ u32Bytes port.toUInt32) (ipv4ToMappedV6CCompat_eq octets)
  | v6 octets => rfl

theorem length_mapped (ip : IpAddr) : ip.mapped.length = 16 := by
  cases ip with
  | v4 octets => simp [IpAddr.mapped, octets.length_eq]
  | v6 octets => exact octets.length_eq

theorem takeAddr_mappedAddrAndPort (addr : SocketAddr) :
    takeAddr (mappedAddrAndPort addr ++ rest) = some (addr.mapped, rest) := by
  have hip : ∀ more, takeBytes 16 (addr.ip.mapped ++ more) = some (addr.ip.mapped, more) :=
    fun _ => takeBytes_append (length_mapped addr.ip)
  have hport := takeLe_u32Bytes rest addr.port.toUInt32
  rw [mappedAddrAndPort_eq, List.append_assoc]
  simp only [takeAddr, hip, hport, Option.bind_eq_bind, Option.bind_some, Option.pure_def,
    SocketAddr.mapped, UInt16.toNat_toUInt32]

theorem takeTlString_tlString {tag : List UInt8} (htag : tag.length < 2 ^ 24) :
    takeTlString (tlString tag ++ rest) = some (tag, rest) := by
  have hpad : ∀ n, takeBytes n (List.replicate n 0 ++ rest) = some (List.replicate n 0, rest) :=
    fun n => takeBytes_append List.length_replicate
  have hbody : ∀ more, takeBytes tag.length (tag ++ more) = some (tag, more) :=
    fun _ => takeBytes_append rfl
  by_cases hshort : tag.length < 254
  · have hfirst : ∀ more, takeLe 1 (UInt8.ofNat tag.length :: more) = some (tag.length, more) :=
      fun _ => takeLe_leBytes (w := 1) (by omega)
    simp only [takeTlString, tlString, if_pos hshort, List.cons_append, List.append_assoc, hfirst,
      hbody, hpad, Option.bind_eq_bind, Option.bind_some, Option.pure_def]
  · have hfirst : ∀ more, takeLe 1 (0xfe :: more) = some (254, more) :=
      fun _ => takeLe_leBytes (w := 1) (by norm_num)
    have hthree : (leBytes 4 tag.length).take 3 = leBytes 3 tag.length := rfl
    have hlen : ∀ more, takeLe 3 (leBytes 3 tag.length ++ more) = some (tag.length, more) :=
      fun _ => takeLe_leBytes (by norm_num at htag ⊢; exact htag)
    simp only [takeTlString, tlString, if_neg hshort, List.cons_append, List.append_assoc, hfirst,
      hthree, hlen, hbody, hpad, Option.bind_eq_bind, Option.bind_some, Option.pure_def,
      lt_irrefl, if_false, if_true]

/-- The length before the text takes one byte or four; zeros fill up the last word. -/
theorem length_tlString (tag : List UInt8) : (tlString tag).length =
    ((if tag.length < 254 then 1 else 4) + tag.length + 3) / 4 * 4 := by
  unfold tlString
  split_ifs with hshort
  · simp only [List.length_append, List.length_cons, List.length_replicate]
    omega
  · simp only [List.length_append, List.length_cons, List.length_replicate, List.length_take,
      length_leBytes]
    omega

/-- A TL string is a whole number of words. -/
theorem four_dvd_length_tlString (tag : List UInt8) : 4 ∣ (tlString tag).length := by
  rw [length_tlString]
  exact Nat.dvd_mul_left 4 _

theorem length_tlString_le (tag : List UInt8) : (tlString tag).length ≤ tag.length + 7 := by
  rw [length_tlString]
  split_ifs
  · omega
  · omega

/-- The content of the extra block for a tag. -/
def extraOf : Option (List UInt8) → List UInt8
  | some tag => u32Bytes tlProxyTag ++ tlString tag
  | none => []

theorem extraBlock_eq (proxyTag : Option (List UInt8)) :
    extraBlock proxyTag = leBytes 4 (extraOf proxyTag).length ++ extraOf proxyTag := by
  cases proxyTag <;> rfl

theorem four_dvd_length_extraOf (proxyTag : Option (List UInt8)) :
    4 ∣ (extraOf proxyTag).length := by
  cases proxyTag with
  | none => exact dvd_zero 4
  | some tag =>
    rw [extraOf, List.length_append, u32Bytes, length_leBytes]
    exact Nat.dvd_add (dvd_refl 4) (four_dvd_length_tlString tag)

variable {proxyTag : Option (List UInt8)}

theorem length_extraOf_lt (htag : ∀ t ∈ proxyTag, t.length < 2 ^ 24) :
    (extraOf proxyTag).length < 256 ^ 4 := by
  cases proxyTag with
  | none => norm_num [extraOf]
  | some tag =>
    have hlen := length_tlString_le tag
    have hmax := htag tag rfl
    rw [extraOf, List.length_append, u32Bytes, length_leBytes]
    norm_num at hmax ⊢
    omega

theorem decodeExtra_extraOf (htag : ∀ t ∈ proxyTag, t.length < 2 ^ 24) :
    decodeExtra (extraOf proxyTag) = some proxyTag := by
  cases proxyTag with
  | none => rfl
  | some tag =>
    have hne : extraOf (some tag) ≠ [] := by simp [extraOf, u32Bytes, leBytes]
    have htl := takeLe_u32Bytes (tlString tag) tlProxyTag
    have hstring := takeTlString_tlString [] (htag tag rfl)
    rw [List.append_nil] at hstring
    rw [decodeExtra, if_neg hne, extraOf]
    simp only [htl, hstring, Option.bind_eq_bind, Option.bind_some, ne_eq, not_true_eq_false,
      if_false, if_true, Option.pure_def]

theorem takeExtra_extraBlock (htag : ∀ t ∈ proxyTag, t.length < 2 ^ 24) :
    takeExtra (extraBlock proxyTag ++ rest) = some (proxyTag, rest) := by
  have hlen : ∀ more, takeLe 4 (leBytes 4 (extraOf proxyTag).length ++ more) =
      some ((extraOf proxyTag).length, more) := fun _ => takeLe_leBytes (length_extraOf_lt htag)
  have hextra : takeBytes (extraOf proxyTag).length (extraOf proxyTag ++ rest) =
      some (extraOf proxyTag, rest) := takeBytes_append rfl
  rw [extraBlock_eq, List.append_assoc]
  simp only [takeExtra, hlen, hextra, decodeExtra_extraOf htag, Option.bind_eq_bind,
    Option.bind_some, Option.pure_def]

end

/-! ### The whole request -/

section
variable (connId : UInt64) (clientAddr ourAddr : SocketAddr) (data : List UInt8)
  {proxyTag : Option (List UInt8)} (protoFlags : UInt32)

/-- The flag of the ad tag, on the word and on its number. -/
theorem hasAdTag_iff : protoFlags.toNat &&& rpcFlagHasAdTag.toNat ≠ 0 ↔
    protoFlags &&& rpcFlagHasAdTag ≠ 0 := by
  rw [ne_eq, ne_eq, ← UInt32.toNat_inj, UInt32.toNat_and]
  exact Iff.rfl

theorem decode_build (htag : ∀ t ∈ proxyTag, t.length < 2 ^ 24) :
    decodeProxyReq (buildProxyReqPayload connId clientAddr ourAddr data proxyTag protoFlags) =
      some { flags := protoFlags.toNat, connId := connId.toNat, clientAddr := clientAddr.mapped,
             ourAddr := ourAddr.mapped,
             proxyTag := if protoFlags &&& rpcFlagHasAdTag ≠ 0 then proxyTag else none,
             data := data } := by
  have htype := fun rest => takeLe_u32Bytes rest rpcProxyReq
  have hflags := fun rest => takeLe_u32Bytes rest protoFlags
  have hconn : ∀ rest, takeLe 8 (leBytes 8 connId.toNat ++ rest) = some (connId.toNat, rest) :=
    fun _ => takeLe_leBytes connId.toNat_lt
  have haddr := fun rest addr => takeAddr_mappedAddrAndPort rest addr
  by_cases hflag : protoFlags &&& rpcFlagHasAdTag ≠ 0
  · have hnat := (hasAdTag_iff protoFlags).mpr hflag
    simp only [decodeProxyReq, buildProxyReqPayload, List.append_assoc, htype, hflags, hconn, haddr,
      Option.bind_eq_bind, Option.bind_some, ne_eq, not_true_eq_false, if_false, if_pos hflag,
      if_pos hnat, takeExtra_extraBlock data htag, Option.pure_def]
  · have hnat := (hasAdTag_iff protoFlags).not.mpr hflag
    simp only [decodeProxyReq, buildProxyReqPayload, List.append_assoc, htype, hflags, hconn, haddr,
      Option.bind_eq_bind, Option.bind_some, ne_eq, not_true_eq_false, if_false, if_neg hflag,
      if_neg hnat, List.nil_append, Option.pure_def]

/-- What stands in front of the data. -/
def proxyReqFront (proxyTag : Option (List UInt8)) : List UInt8 :=
  u32Bytes rpcProxyReq ++ u32Bytes protoFlags ++ leBytes 8 connId.toNat ++
    mappedAddrAndPort clientAddr ++ mappedAddrAndPort ourAddr ++
    (if protoFlags &&& rpcFlagHasAdTag ≠ 0 then extraBlock proxyTag else [])

/-- The fields every request has. -/
def proxyReqFixed : List UInt8 :=
  u32Bytes rpcProxyReq ++ u32Bytes protoFlags ++ leBytes 8 connId.toNat ++
    mappedAddrAndPort clientAddr ++ mappedAddrAndPort ourAddr

theorem length_proxyReqFixed : (proxyReqFixed connId clientAddr ourAddr protoFlags).length = 56 := by
  simp [proxyReqFixed, u32Bytes]

theorem four_dvd_length_proxyReqFront (proxyTag : Option (List UInt8)) :
    4 ∣ (proxyReqFront connId clientAddr ourAddr protoFlags proxyTag).length := by
  have hfixed := length_proxyReqFixed connId clientAddr ourAddr protoFlags
  have hextra := four_dvd_length_extraOf proxyTag
  unfold proxyReqFront
  rw [← proxyReqFixed, List.length_append, hfixed]
  split_ifs with hflag
  · rw [extraBlock_eq, List.length_append, length_leBytes]
    omega
  · exact Nat.dvd_of_mod_eq_zero rfl

/-- The announced extra length is what is left in front of the data. -/
theorem extraLength_exact (hflag : protoFlags &&& rpcFlagHasAdTag ≠ 0)
    (htag : ∀ t ∈ proxyTag, t.length < 2 ^ 24) :
    60 + leVal (slice (proxyReqFront connId clientAddr ourAddr protoFlags proxyTag) 56 4) =
      (proxyReqFront connId clientAddr ourAddr protoFlags proxyTag).length := by
  have hfixed := length_proxyReqFixed connId clientAddr ourAddr protoFlags
  unfold proxyReqFront
  rw [← proxyReqFixed, if_pos hflag, slice, List.drop_left' hfixed, extraBlock_eq,
    List.take_left' (length_leBytes 4 _), leVal_leBytes_of_lt (length_extraOf_lt htag),
    List.length_append, List.length_append, hfixed, length_leBytes]
  omega

/-- A request is read back exactly, its extra length is exact, and the data starts at a whole
    word. -/
theorem proxyReq_uniquely_decodable (htag : ∀ t ∈ proxyTag, t.length < 2 ^ 24) :
    decodeProxyReq (buildProxyReqPayload connId clientAddr ourAddr data proxyTag protoFlags) =
      some { flags := protoFlags.toNat, connId := connId.toNat, clientAddr := clientAddr.mapped,
             ourAddr := ourAddr.mapped,
             proxyTag := if protoFlags &&& rpcFlagHasAdTag ≠ 0 then proxyTag else none,
             data := data } ∧
    buildProxyReqPayload connId clientAddr ourAddr data proxyTag protoFlags =
      proxyReqFront connId clientAddr ourAddr protoFlags proxyTag ++ data ∧
    4 ∣ (proxyReqFront connId clientAddr ourAddr protoFlags proxyTag).length ∧
    (protoFlags &&& rpcFlagHasAdTag ≠ 0 →
      60 + leVal (slice (proxyReqFront connId clientAddr ourAddr protoFlags proxyTag) 56 4) =
        (proxyReqFront connId clientAddr ourAddr protoFlags proxyTag).length) :=
  ⟨decode_build connId clientAddr ourAddr data protoFlags htag, rfl,
    four_dvd_length_proxyReqFront connId clientAddr ourAddr protoFlags proxyTag,
    fun hflag => extraLength_exact connId clientAddr ourAddr protoFlags hflag htag⟩

end

/-- A request with an ad tag of three bytes, from an IPv4 client to an IPv6 address. -/
theorem proxyReq_uniquely_decodable_short :
    (decodeProxyReq (buildProxyReqPayload 7 ⟨.v4 ⟨[149, 154, 175, 50], rfl⟩, 443⟩
      ⟨.v6 ⟨List.replicate 16 1, rfl⟩, 80⟩ [1, 2] (some [9, 9, 9]) 8)).map ProxyReq.proxyTag =
      some (some [9, 9, 9]) := by
  have htag : ∀ t ∈ some [(9 : UInt8), 9, 9], t.length < 2 ^ 24 := by
    intro t ht
    cases ht
    decide
  rw [(proxyReq_uniquely_decodable 7 ⟨.v4 ⟨[149, 154, 175, 50], rfl⟩, 443⟩
    ⟨.v6 ⟨List.replicate 16 1, rfl⟩, 80⟩ [1, 2] 8 htag).1]
  decide

end MtProxy.MiddleProxy
