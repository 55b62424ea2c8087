import MtProxy.MiddleProxy.Codec

/-! `build_proxy_req_payload`: the `RPC_PROXY_REQ` a client's data travels in. Every part in front of
    the data is a whole number of four-byte words, the TL string with the ad tag included. -/

namespace MtProxy.MiddleProxy
open Schemes

def rpcProxyReq : UInt32 := 0x36cef1ee
def tlProxyTag : UInt32 := 0xdb1e26ae
def rpcFlagHasAdTag : UInt32 := 0x8

def u32Bytes (n : UInt32) : List UInt8 := leBytes 4 n.toNat

inductive IpAddr where
  | v4 (octets : Block UInt8 4)
  | v6 (octets : Block UInt8 16)
  deriving DecidableEq

structure SocketAddr where
  ip : IpAddr
  port : UInt16
  deriving DecidableEq

/-- `to_ipv4_mapped`: an IPv4 address that came as an IPv6 one. -/
def toIpv4Mapped (octets : Block UInt8 16) : Option (Block UInt8 4) :=
  if octets.toList.take 12 = List.replicate 10 0 ++ [0xff, 0xff] then asBlock 4 (octets.toList.drop 12)
  else none

def ipv4ToMappedV6CCompat (ip : Block UInt8 4) : List UInt8 :=
  leBytes 8 0 ++ i32Bytes (-0x10000) ++ ip.toList

def mappedAddrAndPort (addr : SocketAddr) : List UInt8 :=
  (match addr.ip with
    | .v4 octets => ipv4ToMappedV6CCompat octets
    | .v6 octets => octets.toList) ++ u32Bytes addr.port.toUInt32

/-- The ad tag as a TL string, padded with zeros to whole words. -/
def tlString (tag : List UInt8) : List UInt8 :=
  if tag.length < 254 then
    UInt8.ofNat tag.length :: tag ++ List.replicate ((4 - (1 + tag.length) % 4) % 4) 0
  else
    0xfe :: (leBytes 4 tag.length).take 3 ++ tag ++ List.replicate ((4 - tag.length % 4) % 4) 0

/-- The extra block: its length and, if there is an ad tag, the tag. -/
def extraBlock (proxyTag : Option (List UInt8)) : List UInt8 :=
  let extra := match proxyTag with
    | some tag => u32Bytes tlProxyTag ++ tlString tag
    | none => []
  leBytes 4 extra.length ++ extra

def buildProxyReqPayload (connId : UInt64) (clientAddr ourAddr : SocketAddr) (data : List UInt8)
    (proxyTag : Option (List UInt8)) (protoFlags : UInt32) : List UInt8 :=
  u32Bytes rpcProxyReq ++ u32Bytes protoFlags ++ leBytes 8 connId.toNat ++
    mappedAddrAndPort clientAddr ++ mappedAddrAndPort ourAddr ++
    (if protoFlags &&& rpcFlagHasAdTag ≠ 0 then extraBlock proxyTag else []) ++ data

/-- The bytes an ad tag of 16 bytes, or its absence, adds to a request. -/
def extraLen (protoFlags : UInt32) (proxyTag : Option (List UInt8)) : ℕ :=
  if protoFlags &&& rpcFlagHasAdTag ≠ 0 then (if proxyTag.isSome then 28 else 4) else 0

@[simp] theorem length_mappedAddrAndPort (addr : SocketAddr) :
    (mappedAddrAndPort addr).length = 20 := by
  obtain ⟨ip, port⟩ := addr
  cases ip with
  | v4 octets => simp [mappedAddrAndPort, ipv4ToMappedV6CCompat, i32Bytes, u32Bytes, octets.length_eq]
  | v6 octets => simp [mappedAddrAndPort, u32Bytes, octets.length_eq]

theorem length_extraBlock {proxyTag : Option (List UInt8)} (htag : ∀ t ∈ proxyTag, t.length = 16) :
    (extraBlock proxyTag).length = if proxyTag.isSome then 28 else 4 := by
  cases proxyTag with
  | none => simp [extraBlock]
  | some tag => simp [extraBlock, tlString, u32Bytes, htag tag rfl]

theorem length_buildProxyReqPayload (connId : UInt64) (clientAddr ourAddr : SocketAddr)
    (data : List UInt8) {proxyTag : Option (List UInt8)} (protoFlags : UInt32)
    (htag : ∀ t ∈ proxyTag, t.length = 16) :
    (buildProxyReqPayload connId clientAddr ourAddr data proxyTag protoFlags).length =
      56 + extraLen protoFlags proxyTag + data.length := by
  have hextra := length_extraBlock htag
  simp only [buildProxyReqPayload, extraLen, List.length_append, length_mappedAddrAndPort,
    length_leBytes, u32Bytes]
  by_cases hflag : protoFlags &&& rpcFlagHasAdTag ≠ 0
  · rw [if_pos hflag, if_pos hflag, hextra]
  · rw [if_neg hflag, if_neg hflag, List.length_nil]

end MtProxy.MiddleProxy
