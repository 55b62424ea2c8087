import MtProxy.Error
import MtProxy.Schemes.Cbc
import MtProxy.Protocol.HelloLookup
import MtProxy.MiddleProxy.Selection

/-! `stun_probe_family_with_bind`: a request, the answer to it, and the attributes in the answer. A
    timeout counts as an attempt, and the third one ends the probe. An answer whose attributes hold no
    usable address falls out of the walk into the next request, and counts as nothing:

                      ┌──────────── no address ───────────┐
                      ▼                                   │
        send ─▶ recv ─┬─ timeout, the third ─▶ none       │
                      ├─ error, short ─▶ end              │
                      └─ walk over the attributes ────────┴─ address ─▶ found

    So the probe ends within three requests exactly if one of the first three answers ends it or all
    of them are timeouts, and a server can keep it going for ever. -/

namespace MtProxy.Network
open Schemes Protocol MiddleProxy

/-- `0x2112A442`, big-endian. -/
def magicCookie : List UInt8 := [0x21, 0x12, 0xa4, 0x42]

/-- What became of one request. -/
inductive StunAnswer where
  | sendFailed (error : String)
  | recvFailed (error : String)
  | timedOut
  | datagram (bytes : List UInt8)
  deriving DecidableEq

structure StunProbeResult where
  localAddr : SocketAddr
  reflectedAddr : SocketAddr
  family : IpFamily
  deriving DecidableEq

/-! ### The attributes -/

/-- The length of the address in an attribute, by its family byte. -/
def lenCheck (familyByte : UInt8) : ℕ :=
  if familyByte = 0x01 then 4 else if familyByte = 0x02 then 16 else 0

def xorBytes (a b : List UInt8) : List UInt8 := List.zipWith (· ^^^ ·) a b

/-- The address in an attribute; `none` if `raw_ip` has another length than its family. -/
def reflectedIp (txid : Block UInt8 12) (atype : ℕ) (familyByte : UInt8) (rawIp : List UInt8) :
    Option IpAddr :=
  let ip := if atype = 0x0020 then xorBytes rawIp (magicCookie ++ txid.toList) else rawIp
  if familyByte = 0x01 then (asBlock 4 ip).map .v4 else (asBlock 16 ip).map .v6

section
variable (txid : Block UInt8 12) (buf : List UInt8) (n : ℕ)

/-- The arm for an attribute that holds an address, `alen` bytes at `idx`. Without a usable address
    the walk is left. -/
def addressAttribute (atype alen idx : ℕ) : Option (Option SocketAddr) :=
  if alen < 8 then some none
  else do
    let familyByte ← buf[idx + 1]?
    let port ← u16At buf (idx + 2)
    if lenCheck familyByte = 0 ∨ alen < 4 + lenCheck familyByte then some none
    else
      let rawIp ← sliceChecked buf (idx + 4) (lenCheck familyByte)
      let ip ← reflectedIp txid atype familyByte rawIp
      return some ⟨ip, UInt16.ofNat (if atype = 0x0020 then port ^^^ 0x2112 else port)⟩

/-- One attribute: go on behind it, or leave the walk, with an address or without. The outer `none` is
    an access out of range. -/
def attributeRound (idx : ℕ) : Option (ℕ ⊕ Option SocketAddr) :=
  if idx + 4 ≤ n then do
    let atype ← u16At buf idx
    let alen ← u16At buf (idx + 2)
    let idx := idx + 4
    if n < idx + alen then some (.inr none)
    else if atype = 0x0020 ∨ atype = 0x0001 then (addressAttribute txid buf atype alen idx).map .inr
    else some (.inl (idx + (alen + 3 - (alen + 3) % 4)))
  else some (.inr none)

variable {txid buf n} in
/-- A round that goes on has passed a header at least. -/
theorem attributeRound_inl {idx idx' : ℕ} (h : attributeRound txid buf n idx = some (.inl idx')) :
    n - idx' < n - idx := by
  unfold attributeRound at h
  split_ifs at h with hroom
  · simp only [Option.bind_eq_bind, Option.bind_eq_some_iff] at h
    obtain ⟨atype, -, alen, -, h⟩ := h
    split_ifs at h with hend hkind
    · cases h
    · obtain ⟨found, -, h⟩ := Option.map_eq_some_iff.mp h
      cases h
    · cases h
      omega
  · cases h

/-- The walk over the attributes of a datagram of `n` bytes. -/
def attributeWalk : Option (Option SocketAddr) :=
  tryLoop (attributeRound txid buf n) (n - ·) (fun _ _ => attributeRound_inl) 20

end

/-! ### The requests -/

/-- What the loop carries from request to request. -/
structure StunState where
  attempt : ℕ
  backoffSecs : ℕ
  buf : List UInt8

def StunState.init : StunState := ⟨0, 1, List.replicate 256 0⟩

/-- How far the probe is after the requests it has sent. -/
inductive Progress (α : Type) where
  | running (s : StunState)
  | outOfRange
  | returned (result : α)

abbrev StunResult := Except ProxyError (Option StunProbeResult)

section
variable (txid : Block UInt8 12) (localAddr : Except String SocketAddr) (family : IpFamily)

/-- One request and its answer. The socket fills the first `n` bytes of the buffer. -/
def requestRound (s : StunState) : StunAnswer → Progress StunResult
  | .sendFailed e => .returned (.error (.proxy s!"STUN send failed: {e}"))
  | .recvFailed e => .returned (.error (.proxy s!"STUN recv failed: {e}"))
  | .timedOut =>
    if 3 ≤ s.attempt + 1 then .returned (.ok none)
    else .running { s with attempt := s.attempt + 1, backoffSecs := s.backoffSecs * 2 }
  | .datagram bytes =>
    let received := bytes.take 256
    let buf := copyInto s.buf 0 received
    if received.length < 20 then .returned (.ok none)
    else match attributeWalk txid buf received.length with
      | none => .outOfRange
      | some none => .running { s with buf := buf }
      | some (some reflectedAddr) => .returned (match localAddr with
        | .error e => .error (.proxy s!"STUN local_addr failed: {e}")
        | .ok localAddr => .ok (some ⟨localAddr, reflectedAddr, family⟩))

/-- The loop, as far as the answers go. -/
def requestLoop : StunState → List StunAnswer → Progress StunResult
  | s, [] => .running s
  | s, answer :: answers =>
    match requestRound txid localAddr family s answer with
    | .running s => requestLoop s answers
    | .outOfRange => .outOfRange
    | .returned result => .returned result

/-- The probe after `n` requests. -/
def probeAfter (answers : ℕ → StunAnswer) (n : ℕ) : Progress StunResult :=
  requestLoop txid localAddr family .init ((List.range n).map answers)

end

/-! ### Datagrams with an address -/

/-- From the attribute at `pos` on: over complete attributes of other types, the first one of an
    address type holds an address of one of the two families. -/
inductive AddressFrom (d : List UInt8) : ℕ → Prop where
  | here {pos kind alen : ℕ} {familyByte : UInt8} (hkind : u16At d pos = some kind)
      (haddr : kind = 0x0020 ∨ kind = 0x0001) (halen : u16At d (pos + 2) = some alen)
      (hfits : pos + 4 + alen ≤ d.length) (hfamily : d[pos + 5]? = some familyByte)
      (hlen : familyByte = 0x01 ∧ 8 ≤ alen ∨ familyByte = 0x02 ∧ 20 ≤ alen) : AddressFrom d pos
  | behind {pos kind alen : ℕ} (hkind : u16At d pos = some kind)
      (hother : ¬ (kind = 0x0020 ∨ kind = 0x0001)) (halen : u16At d (pos + 2) = some alen)
      (hfits : pos + 4 + alen ≤ d.length) (hrest : AddressFrom d (pos + 4 + (alen + 3) / 4 * 4)) :
      AddressFrom d pos

section
variable {txid : Block UInt8 12} {buf d : List UInt8} {pos kind alen : ℕ}

theorem AddressFrom.room (h : AddressFrom d pos) : pos + 4 ≤ d.length := by
  cases h with
  | here _ _ _ hfits => omega
  | behind _ _ _ hfits => omega

theorem addressFrom_address (hkind : u16At d pos = some kind) (haddr : kind = 0x0020 ∨ kind = 0x0001)
    (halen : u16At d (pos + 2) = some alen) : AddressFrom d pos ↔ pos + 4 + alen ≤ d.length ∧
      ∃ familyByte, d[pos + 5]? = some familyByte ∧
        (familyByte = 0x01 ∧ 8 ≤ alen ∨ familyByte = 0x02 ∧ 20 ≤ alen) := by
  constructor
  · intro h
    cases h with
    | here hkind' haddr' halen' hfits hfamily hlen =>
      obtain rfl := Option.some.inj (halen.symm.trans halen')
      exact ⟨hfits, _, hfamily, hlen⟩
    | behind hkind' hother =>
      obtain rfl := Option.some.inj (hkind.symm.trans hkind')
      exact absurd haddr hother
  · rintro ⟨hfits, familyByte, hfamily, hlen⟩
    exact .here hkind haddr halen hfits hfamily hlen

theorem addressFrom_other (hkind : u16At d pos = some kind)
    (hother : ¬ (kind = 0x0020 ∨ kind = 0x0001)) (halen : u16At d (pos + 2) = some alen) :
    AddressFrom d pos ↔
      pos + 4 + alen ≤ d.length ∧ AddressFrom d (pos + 4 + (alen + 3) / 4 * 4) := by
  constructor
  · intro h
    cases h with
    | here hkind' haddr =>
      obtain rfl := Option.some.inj (hkind.symm.trans hkind')
      exact absurd haddr hother
    | behind hkind' hother' halen' hfits hrest =>
      obtain rfl := Option.some.inj (halen.symm.trans halen')
      exact ⟨hfits, hrest⟩
  · rintro ⟨hfits, hrest⟩
    exact .behind hkind hother halen hfits hrest

/-! ### The walk -/

/-- An address of the right length is one. -/
theorem reflectedIp_isSome (txid : Block UInt8 12) {familyByte : UInt8} {rawIp : List UInt8}
    (atype : ℕ) (hfamily : familyByte = 0x01 ∨ familyByte = 0x02)
    (hlen : rawIp.length = lenCheck familyByte) :
    ∃ ip, reflectedIp txid atype familyByte rawIp = some ip := by
  have htxid := txid.length_eq
  have hxor : ∀ m ≤ 16, rawIp.length = m →
      (if atype = 0x0020 then xorBytes rawIp (magicCookie ++ txid.toList) else rawIp).length = m := by
    intro m hm hraw
    split_ifs
    · simp [xorBytes, magicCookie, htxid, hraw]
      omega
    · exact hraw
  unfold reflectedIp
  rcases hfamily with rfl | rfl
  · have h4 := hxor 4 (by omega) hlen
    exact ⟨.v4 ⟨_, h4⟩, by rw [if_pos rfl, asBlock, dif_pos h4, Option.map_some]⟩
  · have h16 := hxor 16 (by omega) hlen
    exact ⟨.v6 ⟨_, h16⟩, by rw [if_neg (by decide), asBlock, dif_pos h16, Option.map_some]⟩

/-- What the buffer holds where the datagram has been received. -/
def Received (buf d : List UInt8) : Prop := ∃ rest, buf = d ++ rest

theorem Received.byteAt (h : Received buf d) (hpos : pos < d.length) : buf[pos]? = d[pos]? := by
  obtain ⟨rest, rfl⟩ := h
  exact List.getElem?_append_left hpos

theorem Received.u16At (h : Received buf d) (hpos : pos + 2 ≤ d.length) :
    Protocol.u16At buf pos = Protocol.u16At d pos := by
  rw [Protocol.u16At, Protocol.u16At, h.byteAt (by omega), h.byteAt (by omega)]

/-- The two checks of the length, for an attribute of eight bytes at least. -/
theorem lenCheck_rejects {familyByte : UInt8} :
    (lenCheck familyByte = 0 ∨ alen < 4 + lenCheck familyByte) ↔
      ¬ (familyByte = 0x01 ∧ 8 ≤ alen ∨ familyByte = 0x02 ∧ 20 ≤ alen) := by
  unfold lenCheck
  by_cases h1 : familyByte = 0x01
  · subst h1
    simp
  · by_cases h2 : familyByte = 0x02
    · subst h2
      simp
    · simp [h1, h2]

theorem addressAttribute_spec (txid : Block UInt8 12) (kind : ℕ) (h : Received buf d)
    (hfits : pos + 4 + alen ≤ d.length) :
    ∃ found, addressAttribute txid buf kind alen (pos + 4) = some found ∧
      (found.isSome = true ↔ ∃ familyByte, d[pos + 5]? = some familyByte ∧
        (familyByte = 0x01 ∧ 8 ≤ alen ∨ familyByte = 0x02 ∧ 20 ≤ alen)) := by
  unfold addressAttribute
  by_cases hshort : alen < 8
  · refine ⟨none, if_pos hshort, by simp, ?_⟩
    rintro ⟨familyByte, -, ⟨-, hlen⟩ | ⟨-, hlen⟩⟩
    · omega
    · omega
  obtain ⟨familyByte, hfamily⟩ := Protocol.byteAt (show pos + 5 < d.length by omega)
  obtain ⟨port, hport⟩ := u16At_isSome (show pos + 4 + 2 + 2 ≤ d.length by omega)
  have hbuf : buf[pos + 4 + 1]? = some familyByte := (h.byteAt (by omega)).trans hfamily
  have hiff : (∃ f, d[pos + 5]? = some f ∧ (f = 0x01 ∧ 8 ≤ alen ∨ f = 0x02 ∧ 20 ≤ alen)) ↔
      (familyByte = 0x01 ∧ 8 ≤ alen ∨ familyByte = 0x02 ∧ 20 ≤ alen) := by
    rw [hfamily]
    simp
  rw [if_neg hshort, hbuf, h.u16At (by omega), hport, hiff]
  simp only [Option.bind_eq_bind, Option.bind_some]
  by_cases hreject : lenCheck familyByte = 0 ∨ alen < 4 + lenCheck familyByte
  · refine ⟨none, if_pos hreject, by simp, ?_⟩
    exact fun hok => absurd hok (lenCheck_rejects.mp hreject)
  · have hok := not_not.mp (mt lenCheck_rejects.mpr hreject)
    have hslice : pos + 4 + 4 + lenCheck familyByte ≤ buf.length := by
      obtain ⟨rest, rfl⟩ := h
      rw [List.length_append]
      omega
    have hraw : (slice buf (pos + 4 + 4) (lenCheck familyByte)).length = lenCheck familyByte := by
      rw [length_slice]
      omega
    have hfamilies : familyByte = 0x01 ∨ familyByte = 0x02 := hok.imp And.left And.left
    obtain ⟨ip, hip⟩ := reflectedIp_isSome txid kind hfamilies hraw
    rw [if_neg hreject, sliceChecked_eq hslice, Option.bind_some, hip]
    exact ⟨_, rfl, by simp [hok]⟩

/-- One round: it leaves the walk with an address exactly if there is one at this attribute, and goes
    on only if what is asked is asked of the next one. -/
theorem attributeRound_spec (txid : Block UInt8 12) (h : Received buf d) (pos : ℕ) :
    ∃ r, attributeRound txid buf d.length pos = some r ∧ match r with
      | .inl next => (AddressFrom d pos ↔ AddressFrom d next)
      | .inr found => (found.isSome = true ↔ AddressFrom d pos) := by
  unfold attributeRound
  by_cases hroom : pos + 4 ≤ d.length
  · obtain ⟨kind, hkind⟩ := u16At_isSome (show pos + 2 ≤ d.length by omega)
    obtain ⟨alen, halen⟩ := u16At_isSome (show pos + 2 + 2 ≤ d.length by omega)
    rw [if_pos hroom, h.u16At (by omega), h.u16At (by omega), hkind, halen]
    simp only [Option.bind_eq_bind, Option.bind_some]
    by_cases hend : d.length < pos + 4 + alen
    · refine ⟨_, if_pos hend, ?_⟩
      by_cases haddr : kind = 0x0020 ∨ kind = 0x0001
      · simp [addressFrom_address hkind haddr halen, hend]
      · simp [addressFrom_other hkind haddr halen, hend]
    · rw [if_neg hend]
      by_cases haddr : kind = 0x0020 ∨ kind = 0x0001
      · obtain ⟨found, hfound, hiff⟩ :=
          addressAttribute_spec txid kind h (not_lt.mp hend)
        refine ⟨.inr found, by rw [if_pos haddr, hfound, Option.map_some], ?_⟩
        rw [addressFrom_address hkind haddr halen]
        exact hiff.trans (and_iff_right (not_lt.mp hend)).symm
      · refine ⟨_, if_neg haddr, ?_⟩
        have hround : alen + 3 - (alen + 3) % 4 = (alen + 3) / 4 * 4 := by omega
        rw [addressFrom_other hkind haddr halen, hround]
        exact and_iff_right (not_lt.mp hend)
  · refine ⟨_, if_neg hroom, by simp, ?_⟩
    exact fun haddr => absurd haddr.room hroom

/-- The walk ends on every datagram, with an address exactly if there is one. -/
theorem attributeWalk_spec (txid : Block UInt8 12) (h : Received buf d) :
    ∃ found, attributeWalk txid buf d.length = some found ∧
      (found.isSome = true ↔ AddressFrom d 20) := by
  refine tryLoop_induct _ _ _ (P := fun pos (found : Option SocketAddr) =>
    found.isSome = true ↔ AddressFrom d pos) ?_ ?_ ?_ 20
  · intro pos
    obtain ⟨r, hr, -⟩ := attributeRound_spec txid h pos
    rw [hr, Option.isSome_some]
  · intro pos found hfound
    obtain ⟨r, hr, hiff⟩ := attributeRound_spec txid h pos
    obtain rfl := Option.some.inj (hr.symm.trans hfound)
    exact hiff
  · intro pos next found hnext ih
    obtain ⟨r, hr, hiff⟩ := attributeRound_spec txid h pos
    obtain rfl := Option.some.inj (hr.symm.trans hnext)
    exact ih.trans hiff.symm

end

/-! ### The requests -/

/-- The answers that end the probe, whatever came before: an error, a datagram that is too short and
    one with an address. The socket cuts a datagram off at 256 bytes. -/
def EndsProbe : StunAnswer → Prop
  | .sendFailed _ => True
  | .recvFailed _ => True
  | .timedOut => False
  | .datagram bytes => (bytes.take 256).length < 20 ∨ AddressFrom (bytes.take 256) 20

theorem received_copyInto (buf d : List UInt8) : Received (copyInto buf 0 d) d :=
  ⟨buf.drop d.length, by rw [copyInto, List.take_zero, List.nil_append, Nat.zero_add]⟩

section
variable {txid : Block UInt8 12} {localAddr : Except String SocketAddr} {family : IpFamily}
  {s : StunState} {answer : StunAnswer} {answers : List StunAnswer}

variable (txid localAddr family) in
/-- A request whose answer ends the probe. -/
theorem requestRound_ends (h : EndsProbe answer) :
    ∃ r, requestRound txid localAddr family s answer = .returned r := by
  cases answer with
  | sendFailed e => exact ⟨_, rfl⟩
  | recvFailed e => exact ⟨_, rfl⟩
  | timedOut => cases h
  | datagram bytes =>
    rw [requestRound]
    by_cases hshort : (bytes.take 256).length < 20
    · exact ⟨_, if_pos hshort⟩
    · obtain ⟨found, hwalk, hiff⟩ :=
        attributeWalk_spec txid (received_copyInto s.buf (bytes.take 256))
      obtain ⟨addr, rfl⟩ := Option.isSome_iff_exists.mp (hiff.mpr (h.resolve_left hshort))
      rw [if_neg hshort, hwalk]
      exact ⟨_, rfl⟩

variable (txid localAddr family) in
/-- A datagram without an address: the loop goes on, and its counter is as it was. -/
theorem requestRound_useless (h : ¬ EndsProbe answer) (htime : answer ≠ .timedOut) :
    ∃ buf, requestRound txid localAddr family s answer = .running { s with buf := buf } := by
  cases answer with
  | sendFailed e => exact absurd trivial h
  | recvFailed e => exact absurd trivial h
  | timedOut => exact absurd rfl htime
  | datagram bytes =>
    obtain ⟨hlong, hnone⟩ := not_or.mp h
    obtain ⟨found, hwalk, hiff⟩ :=
      attributeWalk_spec txid (received_copyInto s.buf (bytes.take 256))
    obtain rfl : found = none := by
      rw [← Option.not_isSome_iff_eq_none]
      exact mt hiff.mp hnone
    rw [requestRound, if_neg hlong, hwalk]
    exact ⟨_, rfl⟩

/-- The loop over any answers: no access is out of range, and it has returned exactly if one of them
    ends the probe or the timeouts have come to three. -/
theorem requestLoop_spec (hs : s.attempt < 3) :
    requestLoop txid localAddr family s answers ≠ .outOfRange ∧
      ((∃ r, requestLoop txid localAddr family s answers = .returned r) ↔
        (∃ a ∈ answers, EndsProbe a) ∨ 3 ≤ s.attempt + answers.count .timedOut) := by
  induction answers generalizing s with
  | nil =>
    refine ⟨by simp [requestLoop], ?_⟩
    simp [requestLoop, hs]
  | cons a answers ih =>
    rw [requestLoop]
    -- the first answer ends the probe, counts as an attempt, or leaves the counter as it was
    by_cases hends : EndsProbe a
    · obtain ⟨r, hr⟩ := requestRound_ends txid localAddr family (s := s) hends
      rw [hr]
      refine ⟨by simp, ?_⟩
      simp [hends]
    · by_cases htime : a = .timedOut
      · subst htime
        rw [requestRound]
        by_cases hthird : 3 ≤ s.attempt + 1
        · rw [if_pos hthird]
          refine ⟨by simp, ?_⟩
          simp
          omega
        · rw [if_neg hthird]
          obtain ⟨hrange, hiff⟩ := ih (s := { s with
            attempt := s.attempt + 1, backoffSecs := s.backoffSecs * 2 }) (not_le.mp hthird)
          refine ⟨hrange, hiff.trans ?_⟩
          simp only [List.exists_mem_cons_iff, hends, false_or, List.count_cons_self]
          rw [Nat.add_right_comm, Nat.add_assoc]
      · obtain ⟨buf, hbuf⟩ := requestRound_useless txid localAddr family (s := s) hends htime
        rw [hbuf]
        obtain ⟨hrange, hiff⟩ := ih (s := { s with buf := buf }) hs
        refine ⟨hrange, hiff.trans ?_⟩
        simp only [List.exists_mem_cons_iff, hends, false_or, List.count_cons_of_ne htime]

end

/-- The probe sends at most three requests and returns exactly if one of the first three answers ends
    it or all three are timeouts. Every walk ends, and no access is out of range. -/
theorem stun_probe_ends_iff (txid : Block UInt8 12) (localAddr : Except String SocketAddr)
    (family : IpFamily) (answers : ℕ → StunAnswer) :
    ((∃ n ≤ 3, ∃ r, probeAfter txid localAddr family answers n = .returned r) ∧
      (∀ n, probeAfter txid localAddr family answers n ≠ .outOfRange) ∧
      ∀ buf bytes, (attributeWalk txid (copyInto buf 0 bytes) bytes.length).isSome = true) ↔
    (∃ k < 3, EndsProbe (answers k)) ∨ ∀ k < 3, answers k = .timedOut := by
  have hsafe : ∀ n, probeAfter txid localAddr family answers n ≠ .outOfRange :=
    fun n => (requestLoop_spec (s := .init) (by decide)).1
  have hwalk : ∀ buf bytes,
      (attributeWalk txid (copyInto buf 0 bytes) bytes.length).isSome = true := by
    intro buf bytes
    obtain ⟨found, hfound, -⟩ := attributeWalk_spec txid (received_copyInto buf bytes)
    rw [hfound, Option.isSome_some]
  have hreturned : ∀ n, (∃ r, probeAfter txid localAddr family answers n = .returned r) ↔
      (∃ k < n, EndsProbe (answers k)) ∨
        3 ≤ 0 + ((List.range n).map answers).count .timedOut := by
    intro n
    have hmem : (∃ a ∈ (List.range n).map answers, EndsProbe a) ↔ ∃ k < n, EndsProbe (answers k) := by
      simp
    exact (requestLoop_spec (s := .init) (by decide)).2.trans (or_congr_left hmem)
  constructor
  · rintro ⟨⟨n, hn, hr⟩, -, -⟩
    rcases (hreturned n).mp hr with ⟨k, hk, hends⟩ | hcount
    · exact .inl ⟨k, hk.trans_le hn, hends⟩
    · have hle := List.count_le_length (a := StunAnswer.timedOut) (l := (List.range n).map answers)
      rw [List.length_map, List.length_range] at hle
      obtain rfl : n = 3 := by omega
      have hall : ((List.range 3).map answers).count .timedOut =
          ((List.range 3).map answers).length := by
        rw [List.length_map, List.length_range]
        omega
      refine .inr fun k hk => ?_
      exact (List.count_eq_length.mp hall _
        (List.mem_map.mpr ⟨k, List.mem_range.mpr hk, rfl⟩)).symm
  · intro h
    refine ⟨⟨3, le_rfl, (hreturned 3).mpr (h.imp_right fun hall => ?_)⟩, hsafe, hwalk⟩
    have hcount : ((List.range 3).map answers).count .timedOut =
        ((List.range 3).map answers).length := by
      refine List.count_eq_length.mpr fun b hb => ?_
      obtain ⟨k, hk, rfl⟩ := List.mem_map.mp hb
      exact (hall k (List.mem_range.mp hk)).symm
    rw [hcount, List.length_map, List.length_range]

/-- A server that answers every request with a bare header: the probe never returns. -/
theorem stun_probe_endless :
    ¬ ∃ n r, probeAfter ⟨List.replicate 12 0, rfl⟩ (.error "") .v4
      (fun _ => .datagram (List.replicate 20 0)) n = .returned r := by
  rintro ⟨n, hr⟩
  rcases (requestLoop_spec (s := .init) (by decide)).2.mp hr with ⟨a, ha, hends⟩ | hcount
  · obtain ⟨k, -, rfl⟩ := List.mem_map.mp ha
    rcases hends with hshort | haddr
    · exact absurd hshort (by decide)
    · exact absurd haddr.room (by decide)
  · have hnone : ((List.range n).map fun _ => StunAnswer.datagram (List.replicate 20 0)).count
        .timedOut = 0 := by
      refine List.count_eq_zero.mpr fun hmem => ?_
      obtain ⟨k, -, hk⟩ := List.mem_map.mp hmem
      cases hk
    rw [hnone] at hcount
    exact absurd hcount (by decide)

end MtProxy.Network
