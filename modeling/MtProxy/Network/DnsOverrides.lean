import MtProxy.MiddleProxy.Wire
import Mathlib.Data.Finmap

/-! `network.dns_overrides`: entries `host:port:ip`, an IPv6 address in brackets. `validate_entries` and
    `install_entries` parse them the same way, so what was validated can be installed. -/

namespace MtProxy.Network
open MiddleProxy

/-- The parsers of the standard library for addresses. -/
structure AddrParsers where
  ipv6 : List Char → Option (Schemes.Block UInt8 16)
  ip : List Char → Option IpAddr

/-- The white space of `str::trim`. -/
def isWhitespace (c : Char) : Bool :=
  (9 ≤ c.toNat && c.toNat ≤ 13) || c.toNat = 0x20 || c.toNat = 0x85 || c.toNat = 0xa0 ||
    c.toNat = 0x1680 || (0x2000 ≤ c.toNat && c.toNat ≤ 0x200a) || c.toNat = 0x2028 ||
    c.toNat = 0x2029 || c.toNat = 0x202f || c.toNat = 0x205f || c.toNat = 0x3000

def trim (s : List Char) : List Char :=
  ((s.dropWhile isWhitespace).reverse.dropWhile isWhitespace).reverse

/-- `str::parse::<u16>`: digits, after a plus sign or none. -/
def parseU16 (s : List Char) : Option UInt16 :=
  let digits := match s with
    | '+' :: rest => rest
    | _ => s
  if digits ≠ [] ∧ digits.all Char.isDigit then
    let n := digits.foldl (fun n c => 10 * n + (c.toNat - '0'.toNat)) 0
    if n < 65536 then some (UInt16.ofNat n) else none
  else none

section
variable (parsers : AddrParsers)

def parseIpSpec (ipSpec : List Char) : Except String IpAddr :=
  let quoted := "'" ++ String.ofList ipSpec ++ "'"
  if ipSpec.head? = some '[' ∧ ipSpec.getLast? = some ']' then
    match parsers.ipv6 ipSpec.tail.dropLast with
    | some ipv6 => .ok (.v6 ipv6)
    | none => .error ("network.dns_overrides IPv6 override is invalid: " ++ quoted)
  else
    match parsers.ip ipSpec with
    | some (.v4 octets) => .ok (.v4 octets)
    | some (.v6 _) => .error ("network.dns_overrides IPv6 must be bracketed: " ++ quoted)
    | none => .error ("network.dns_overrides IP is invalid: " ++ quoted)

/-- The host is what stands before the first colon, so it has none itself. -/
def parseEntry (entry : List Char) : Except String ((String × UInt16) × IpAddr) :=
  let trimmed := trim entry
  let quoted := "'" ++ String.ofList trimmed ++ "'"
  if trimmed = [] then .error "network.dns_overrides entry cannot be empty"
  else match trimmed.span (· ≠ ':') with
    | (_, []) => .error ("network.dns_overrides entry must use host:port:ip format: " ++ quoted)
    | (host, _ :: rest) => match rest.span (· ≠ ':') with
      | (_, []) => .error ("network.dns_overrides entry must use host:port:ip format: " ++ quoted)
      | (port, _ :: ip) =>
        if trim host = [] then .error ("network.dns_overrides host cannot be empty: " ++ quoted)
        else match parseU16 (trim port) with
          | none => .error ("network.dns_overrides port is invalid: " ++ quoted)
          | some port => (parseIpSpec parsers (trim ip)).map fun ip =>
              ((String.ofList ((trim host).map Char.toLower), port), ip)

abbrev OverrideMap := Finmap (fun _ : String × UInt16 => IpAddr)

/-- A later entry for the same host and port wins. -/
def parseEntries (entries : List String) : Except String OverrideMap :=
  entries.foldlM (fun parsed entry =>
    (parseEntry parsers entry.toList).map fun e => parsed.insert e.1 e.2) ∅

def validateEntries (entries : List String) : Except String Unit :=
  (parseEntries parsers entries).map fun _ => ()

/-- The entries replace all that were there. The store's lock cannot be poisoned: nothing panics
    under it. -/
def installEntries (entries : List String) : Except String OverrideMap := parseEntries parsers entries

theorem installEntries_of_validated {entries : List String}
    (h : validateEntries parsers entries = .ok ()) :
    ∃ overrides, installEntries parsers entries = .ok overrides := by
  unfold validateEntries at h
  cases hparsed : parseEntries parsers entries with
  | error e => rw [hparsed] at h; cases h
  | ok overrides => exact ⟨overrides, hparsed⟩

end

end MtProxy.Network
