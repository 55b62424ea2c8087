import MtProxy.MiddleProxy.Wire
import MtProxy.Schemes.Decode

/-! The client side of SOCKS 4 and 5, as a dialogue: what is sent, and what the answers come to.

        SOCKS4   4 1 port ip user 0      ──▶  ?  90  port  ip
        SOCKS5   5 n methods             ──▶  5  method
                 1 user, password        ──▶  ?  0                  if the method is 2
                 5 1 0 type ip port      ──▶  ?  0  ?  type address port

    An answer is accepted exactly if it has this form, not one byte more is taken from the stream, and a
    server reads from what was sent the target and the credentials, if these fit. -/

namespace MtProxy.Transport.Socks
open Schemes MiddleProxy

/-- `io` is the error of the stream. -/
inductive SocksError where
  | io
  | proxy (message : String)
  deriving DecidableEq

/-- What has been sent, and the bound address with the stream behind the answer. -/
structure Dialogue (R : Type) where
  sent : List UInt8
  result : Except SocksError (SocketAddr × R)

section
variable {R : Type} (read : R → Option (UInt8 × R))

def fail (e : SocksError) : Dialogue R := ⟨[], .error e⟩

def done (addr : SocketAddr) (r : R) : Dialogue R := ⟨[], .ok (addr, r)⟩

/-- `write_all` in front of what follows. The writes succeed here; the source ends the dialogue with the
    error of one that fails. -/
def send (bytes : List UInt8) (d : Dialogue R) : Dialogue R := { d with sent := bytes ++ d.sent }

/-- `read_exact`, and what follows it. -/
def receive (n : ℕ) (r : R) (k : List UInt8 → R → Dialogue R) : Dialogue R :=
  match readExact read n r with
  | none => fail .io
  | some (bytes, r) => k bytes r

/-- `0.0.0.0` -/
def unspecified : IpAddr := .v4 ⟨[0, 0, 0, 0], rfl⟩

def beU16 (bs : List UInt8) : UInt16 := UInt16.ofNat (beVal bs)

def portBytes (port : UInt16) : List UInt8 := beBytes 2 port.toNat

/-! ### SOCKS4 -/

def socks4Request (ip : Block UInt8 4) (port : UInt16) (user : List UInt8) : List UInt8 :=
  [4, 1] ++ portBytes port ++ ip.toList ++ user ++ [0]

def connectSocks4 (r : R) (target : SocketAddr) (userId : Option (List UInt8)) : Dialogue R :=
  match target.ip with
  | .v6 _ => fail (.proxy "SOCKS4 does not support IPv6")
  | .v4 ip =>
    send (socks4Request ip target.port (userId.getD [])) <|
      receive read 8 r fun resp r =>
        if resp.getD 1 0 ≠ 90 then
          fail (.proxy ("SOCKS4 request rejected: code " ++ toString (resp.getD 1 0)))
        else match asBlock 4 (resp.drop 4) with
          | none => fail .io
          | some boundIp => done ⟨.v4 boundIp, beU16 (slice resp 2 2)⟩ r

/-! ### SOCKS5 -/

def greeting (username : Option (List UInt8)) : List UInt8 :=
  let methods : List UInt8 := 0 :: if username.isSome then [2] else []
  [5, UInt8.ofNat methods.length] ++ methods

/-- The lengths are cut to a byte. -/
def authRequest (user password : List UInt8) : List UInt8 :=
  [1, UInt8.ofNat user.length] ++ user ++ [UInt8.ofNat password.length] ++ password

def connectRequest (target : SocketAddr) : List UInt8 :=
  [5, 1, 0] ++ (match target.ip with
    | .v4 ip => 1 :: ip.toList
    | .v6 ip => 4 :: ip.toList) ++ portBytes target.port

/-- The address behind its type; that of a name is left out. -/
def receiveBound (addrType : UInt8) (r : R) : Dialogue R :=
  if addrType = 1 then
    receive read (4 + 2) r fun addr r =>
      match asBlock 4 (addr.take 4) with
      | none => fail .io
      | some ip => done ⟨.v4 ip, beU16 (slice addr 4 2)⟩ r
  else if addrType = 3 then
    receive read 1 r fun len r =>
      receive read ((len.getD 0 0).toNat + 2) r fun addr r =>
        done ⟨unspecified, beU16 (slice addr (addr.length - 2) 2)⟩ r
  else if addrType = 4 then
    receive read (16 + 2) r fun addr r =>
      match asBlock 16 (addr.take 16) with
      | none => fail (.proxy "Invalid SOCKS5 IPv6 bound address")
      | some ip => done ⟨.v6 ip, beU16 (slice addr 16 2)⟩ r
  else fail (.proxy "Invalid address type in SOCKS5 response")

def requestConnection (target : SocketAddr) (r : R) : Dialogue R :=
  send (connectRequest target) <|
    receive read 4 r fun head r =>
      if head.getD 1 0 ≠ 0 then fail (.proxy ("SOCKS5 request failed: code " ++ toString (head.getD 1 0)))
      else receiveBound read (head.getD 3 0) r

def connectSocks5 (r : R) (target : SocketAddr) (username password : Option (List UInt8)) : Dialogue R :=
  send (greeting username) <|
    receive read 2 r fun resp r =>
      if resp.getD 0 0 ≠ 5 then fail (.proxy "Invalid SOCKS5 version")
      else if resp.getD 1 0 = 0 then requestConnection read target r
      else if resp.getD 1 0 = 2 then
        match username, password with
        | some user, some password =>
          send (authRequest user password) <|
            receive read 2 r fun authResp r =>
              if authResp.getD 1 0 ≠ 0 then fail (.proxy "SOCKS5 authentication failed")
              else requestConnection read target r
        | _, _ => fail (.proxy "SOCKS5 server requires authentication")
      else fail (.proxy "Unsupported SOCKS5 auth method")

end

/-! ### The answers -/

/-- The bound address in an answer, by its type. -/
inductive BoundReply where
  | v4 (ip : Block UInt8 4) (port : UInt16)
  | domain (name : List UInt8) (hname : name.length < 256) (port : UInt16)
  | v6 (ip : Block UInt8 16) (port : UInt16)

namespace BoundReply

def type : BoundReply → UInt8
  | v4 _ _ => 1
  | domain _ _ _ => 3
  | v6 _ _ => 4

def body : BoundReply → List UInt8
  | v4 ip port => ip.toList ++ portBytes port
  | domain name _ port => UInt8.ofNat name.length :: (name ++ portBytes port)
  | v6 ip port => ip.toList ++ portBytes port

def addr : BoundReply → SocketAddr
  | v4 ip port => ⟨.v4 ip, port⟩
  | domain _ _ port => ⟨unspecified, port⟩
  | v6 ip port => ⟨.v6 ip, port⟩

end BoundReply

/-- What a server sends that goes along; of some bytes the client does not look at the value. -/
structure Socks5Answer where
  method : UInt8
  authVersion : UInt8
  version : UInt8
  reserved : UInt8
  bound : BoundReply

def Socks5Answer.bytes (a : Socks5Answer) : List UInt8 :=
  [5, a.method] ++ (if a.method = 2 then [a.authVersion, 0] else []) ++
    ([a.version, 0, a.reserved, a.bound.type] ++ a.bound.body)

/-- No method but these is supported, and the second one needs both credentials. -/
def Socks5Answer.Allowed (a : Socks5Answer) (username password : Option (List UInt8)) : Prop :=
  a.method = 0 ∨ a.method = 2 ∧ username.isSome = true ∧ password.isSome = true

section
variable {R : Type} {read : R → Option (UInt8 × R)} {r r' : R} {n : ℕ} {bytes : List UInt8}
variable {k : List UInt8 → R → Dialogue R} {x : SocketAddr × R}

@[simp] theorem send_result (d : Dialogue R) : (send bytes d).result = d.result := rfl

theorem receive_of_yields {r₁ : R} (hlen : bytes.length = n) (h : Yields read bytes r r₁) :
    receive read n r k = k bytes r₁ := by
  rw [Yields, hlen] at h
  rw [receive, h]

/-- What was received, if all went well. -/
theorem receive_ok (h : (receive read n r k).result = .ok x) :
    ∃ bytes r₁, bytes.length = n ∧ Yields read bytes r r₁ ∧ (k bytes r₁).result = .ok x := by
  unfold receive at h
  split at h
  · cases h
  · rename_i bytes r₁ hread
    have hlen := length_readExact hread
    exact ⟨bytes, r₁, hlen, by rw [Yields, hlen, hread], h⟩

@[simp] theorem length_portBytes (port : UInt16) : (portBytes port).length = 2 := length_beBytes ..

@[simp] theorem beU16_portBytes (port : UInt16) : beU16 (portBytes port) = port := by
  rw [beU16, portBytes, beVal_beBytes_of_lt port.toNat_lt, UInt16.ofNat_toNat]

/-- Two bytes are those of a port. -/
theorem portBytes_beU16 {bs : List UInt8} (h : bs.length = 2) : portBytes (beU16 bs) = bs := by
  match bs, h with
  | [a, b], _ =>
    have ha := a.toNat_lt
    have hb := b.toNat_lt
    have hval : beVal [a, b] = a.toNat * 256 + b.toNat := by
      simp [beVal, leVal]
      omega
    have hlt : a.toNat * 256 + b.toNat < 2 ^ 16 := by omega
    rw [portBytes, beU16, hval, UInt16.toNat_ofNat_of_lt' hlt, beBytes]
    simp only [leBytes, List.reverse_cons, List.reverse_nil, List.nil_append, List.cons_append]
    have hhigh : UInt8.ofNat ((a.toNat * 256 + b.toNat) / 256) = a := by
      rw [show (a.toNat * 256 + b.toNat) / 256 = a.toNat by omega, UInt8.ofNat_toNat]
    have hlow : UInt8.ofNat (a.toNat * 256 + b.toNat) = b := by
      apply UInt8.toNat_inj.mp
      rw [UInt8.toNat_ofNat']
      omega
    rw [hhigh, hlow]

theorem receiveBound_of_reply (b : BoundReply) (h : Yields read b.body r r') :
    receiveBound read b.type r = done b.addr r' := by
  cases b with
  | v4 ip port =>
    change Yields read (ip.toList ++ portBytes port) r r' at h
    change receiveBound read 1 r = _
    have hlen : (ip.toList ++ portBytes port).length = 4 + 2 := by simp [ip.length_eq]
    rw [receiveBound, if_pos rfl, receive_of_yields hlen h, List.take_left' ip.length_eq, asBlock_toList]
    simp [slice, List.drop_left' ip.length_eq, List.take_of_length_le (length_portBytes port).le,
      BoundReply.addr]
  | domain name hname port =>
    change Yields read (UInt8.ofNat name.length :: (name ++ portBytes port)) r r' at h
    change receiveBound read 3 r = _
    obtain ⟨r₁, hfirst, hname'⟩ := yields_cons.mp h
    have hlen : Yields read [UInt8.ofNat name.length] r r₁ := yields_cons.mpr ⟨r₁, hfirst, rfl⟩
    have hone : ([UInt8.ofNat name.length] : List UInt8).length = 1 := rfl
    have hcount : (name ++ portBytes port).length = (UInt8.ofNat name.length).toNat + 2 := by
      simp [Nat.mod_eq_of_lt hname]
    rw [receiveBound, if_neg (by decide), if_pos rfl, receive_of_yields hone hlen,
      List.getD_cons_zero,
      receive_of_yields hcount hname']
    simp [slice, List.take_of_length_le (length_portBytes port).le, BoundReply.addr]
  | v6 ip port =>
    change Yields read (ip.toList ++ portBytes port) r r' at h
    change receiveBound read 4 r = _
    have hlen : (ip.toList ++ portBytes port).length = 16 + 2 := by simp [ip.length_eq]
    rw [receiveBound, if_neg (by decide), if_neg (by decide), if_pos rfl, receive_of_yields hlen h,
      List.take_left' ip.length_eq, asBlock_toList]
    simp [slice, List.drop_left' ip.length_eq, List.take_of_length_le (length_portBytes port).le,
      BoundReply.addr]

/-- A port stands behind what comes before it. -/
theorem take_port {addr : List UInt8} (hlen : addr.length = n + 2) :
    addr.take n ++ portBytes (beU16 (slice addr n 2)) = addr := by
  have hport : (slice addr n 2).length = 2 := by simp [slice, hlen]
  have htail : (addr.drop n).take 2 = addr.drop n := List.take_of_length_le (by simp [hlen])
  rw [portBytes_beU16 hport, slice, htail, List.take_append_drop]

theorem toList_of_asBlock {w : ℕ} {bs : List UInt8} {ip : Block UInt8 w} (h : asBlock w bs = some ip) :
    ip.toList = bs := by
  rw [asBlock] at h
  split at h
  · rw [← Option.some.inj h]
  · cases h

theorem receiveBound_ok {addrType : UInt8} {bound : SocketAddr}
    (h : (receiveBound read addrType r).result = .ok (bound, r')) :
    ∃ b : BoundReply, b.type = addrType ∧ Yields read b.body r r' ∧ bound = b.addr := by
  unfold receiveBound at h
  split at h
  · rename_i htype
    obtain ⟨addr, r₁, hlen, hyields, h⟩ := receive_ok h
    split at h
    · cases h
    · rename_i ip hip
      cases h
      refine ⟨.v4 ip (beU16 (slice addr 4 2)), htype.symm, ?_, rfl⟩
      rwa [BoundReply.body, toList_of_asBlock hip, take_port hlen]
  split at h
  · rename_i htype
    obtain ⟨len, r₁, hlen, hyields, h⟩ := receive_ok h
    obtain ⟨addr, r₂, haddr, hyields', h⟩ := receive_ok h
    cases h
    obtain ⟨b, rfl⟩ := List.length_eq_one_iff.mp hlen
    rw [List.getD_cons_zero] at haddr
    have hb := b.toNat_lt
    have hsub : addr.length - 2 = b.toNat := by omega
    have hname : (addr.take b.toNat).length = b.toNat := by simp [haddr]
    refine ⟨.domain (addr.take b.toNat) (by omega) (beU16 (slice addr (addr.length - 2) 2)),
      htype.symm, ?_, rfl⟩
    rw [BoundReply.body, hsub, take_port haddr, hname, UInt8.ofNat_toNat]
    obtain ⟨r₃, hfirst, hnil⟩ := yields_cons.mp hyields
    obtain rfl : r₃ = r₁ := by simpa [Yields, readExact] using hnil
    exact yields_cons.mpr ⟨r₃, hfirst, hyields'⟩
  split at h
  · rename_i htype
    obtain ⟨addr, r₁, hlen, hyields, h⟩ := receive_ok h
    split at h
    · cases h
    · rename_i ip hip
      cases h
      refine ⟨.v6 ip (beU16 (slice addr 16 2)), htype.symm, ?_, rfl⟩
      rwa [BoundReply.body, toList_of_asBlock hip, take_port hlen]
  · cases h

/-- The request is answered, behind the authentication. -/
theorem requestConnection_of_answer (target : SocketAddr) (a : Socks5Answer)
    (h : Yields read ([a.version, 0, a.reserved, a.bound.type] ++ a.bound.body) r r') :
    requestConnection read target r = ⟨connectRequest target, .ok (a.bound.addr, r')⟩ := by
  obtain ⟨r₁, hhead, hbody⟩ := yields_append.mp h
  have hlen : ([a.version, 0, a.reserved, a.bound.type] : List UInt8).length = 4 := rfl
  rw [requestConnection, receive_of_yields hlen hhead, if_neg (by simp)]
  have htype : ([a.version, 0, a.reserved, a.bound.type] : List UInt8).getD 3 0 = a.bound.type := rfl
  rw [htype, receiveBound_of_reply a.bound hbody]
  simp [send, done]

theorem requestConnection_ok {target bound : SocketAddr}
    (h : (requestConnection read target r).result = .ok (bound, r')) :
    ∃ version reserved, ∃ b : BoundReply,
      Yields read ([version, 0, reserved, b.type] ++ b.body) r r' ∧ bound = b.addr := by
  rw [requestConnection, send_result] at h
  obtain ⟨head, r₁, hlen, hyields, h⟩ := receive_ok h
  match head, hlen with
  | [version, code, reserved, addrType], _ =>
    split at h
    · cases h
    · rename_i hcode
      obtain rfl : code = 0 := by simpa using hcode
      obtain ⟨b, htype, hbody, hbound⟩ := receiveBound_ok h
      obtain rfl : b.type = addrType := htype
      exact ⟨version, reserved, b, yields_append.mpr ⟨r₁, hyields, hbody⟩, hbound⟩

/-- What the client has sent when it is connected. -/
def sentFor (target : SocketAddr) (username password : Option (List UInt8)) (method : UInt8) : List UInt8 :=
  greeting username ++ ((if method = 2 then authRequest (username.getD []) (password.getD []) else []) ++
    connectRequest target)

theorem connectSocks5_of_answer (target : SocketAddr) {username password : Option (List UInt8)}
    {a : Socks5Answer} (hallowed : a.Allowed username password) (h : Yields read a.bytes r r') :
    connectSocks5 read r target username password =
      ⟨sentFor target username password a.method, .ok (a.bound.addr, r')⟩ := by
  rw [Socks5Answer.bytes, List.append_assoc] at h
  obtain ⟨r₁, hmethod, h⟩ := yields_append.mp h
  have hlen : ([5, a.method] : List UInt8).length = 2 := rfl
  rw [connectSocks5, receive_of_yields hlen hmethod, if_neg (by simp)]
  rcases hallowed with hzero | ⟨htwo, husername, hpassword⟩
  · rw [hzero, if_neg (by decide), List.nil_append] at h
    rw [if_pos (by simpa using hzero), requestConnection_of_answer target a h]
    simp [send, sentFor, hzero]
  · obtain ⟨user, rfl⟩ := Option.isSome_iff_exists.mp husername
    obtain ⟨password, rfl⟩ := Option.isSome_iff_exists.mp hpassword
    rw [htwo, if_pos rfl] at h
    obtain ⟨r₂, hauth, h⟩ := yields_append.mp h
    have hauthLen : ([a.authVersion, 0] : List UInt8).length = 2 := rfl
    rw [if_neg (by simp [htwo]), if_pos (by simpa using htwo)]
    dsimp only
    rw [receive_of_yields hauthLen hauth, if_neg (by simp), requestConnection_of_answer target a h]
    simp [send, sentFor, htwo]

theorem connectSocks5_ok {target bound : SocketAddr} {username password : Option (List UInt8)}
    (h : (connectSocks5 read r target username password).result = .ok (bound, r')) :
    ∃ a : Socks5Answer, a.Allowed username password ∧ Yields read a.bytes r r' ∧ bound = a.bound.addr := by
  rw [connectSocks5, send_result] at h
  obtain ⟨resp, r₁, hlen, hyields, h⟩ := receive_ok h
  match resp, hlen with
  | [version, method], _ =>
    split at h
    · cases h
    rename_i hversion
    obtain rfl : version = 5 := by simpa using hversion
    split at h
    · rename_i hmethod
      obtain rfl : method = 0 := by simpa using hmethod
      obtain ⟨version, reserved, b, hrest, hbound⟩ := requestConnection_ok h
      refine ⟨⟨0, 0, version, reserved, b⟩, .inl rfl, ?_, hbound⟩
      rw [Socks5Answer.bytes, if_neg (by simp), List.append_nil]
      exact yields_append.mpr ⟨r₁, hyields, hrest⟩
    split at h
    · rename_i hmethod
      obtain rfl : method = 2 := by simpa using hmethod
      split at h
      · rw [send_result] at h
        obtain ⟨authResp, r₂, hauthLen, hauth, h⟩ := receive_ok h
        match authResp, hauthLen with
        | [authVersion, status], _ =>
          split at h
          · cases h
          rename_i hstatus
          obtain rfl : status = 0 := by simpa using hstatus
          obtain ⟨version, reserved, b, hrest, hbound⟩ := requestConnection_ok h
          refine ⟨⟨2, authVersion, version, reserved, b⟩, .inr ⟨rfl, rfl, rfl⟩, ?_, hbound⟩
          rw [Socks5Answer.bytes, if_pos rfl, List.append_assoc]
          exact yields_append.mpr ⟨r₁, hyields, yields_append.mpr ⟨r₂, hauth, hrest⟩⟩
      · cases h
    · cases h

/-! ### What a server reads -/

def readGreeting (bs : List UInt8) : Option (List UInt8 × List UInt8) :=
  (takeByte bs).bind fun version => if version.1 = 5 then takeBlock 1 version.2 else none

def readCredentials (bs : List UInt8) : Option ((List UInt8 × List UInt8) × List UInt8) :=
  (takeByte bs).bind fun version =>
    if version.1 = 1 then
      (takeBlock 1 version.2).bind fun user =>
        (takeBlock 1 user.2).map fun password => ((user.1, password.1), password.2)
    else none

/-- An address of `w` octets and a port. -/
def readAddress {w : ℕ} (ip : Block UInt8 w → IpAddr) (bs : List UInt8) : Option (SocketAddr × List UInt8) :=
  (takeBytes w bs).bind fun octets =>
    (asBlock w octets.1).bind fun octets' =>
      (takeBytes 2 octets.2).map fun port => (⟨ip octets', beU16 port.1⟩, port.2)

def readRequest (bs : List UInt8) : Option (SocketAddr × List UInt8) :=
  (takeBytes 4 bs).bind fun head =>
    if head.1 = [5, 1, 0, 1] then readAddress .v4 head.2
    else if head.1 = [5, 1, 0, 4] then readAddress .v6 head.2
    else none

/-- The user's name ends at the first zero. -/
def readSocks4Request (bs : List UInt8) : Option ((SocketAddr × List UInt8) × List UInt8) :=
  (takeBytes 2 bs).bind fun head =>
    if head.1 = [4, 1] then
      (takeBytes 2 head.2).bind fun port =>
        (takeBytes 4 port.2).bind fun octets =>
          (asBlock 4 octets.1).bind fun ip =>
            if 0 ∈ octets.2 then
              some ((⟨.v4 ip, beU16 port.1⟩, octets.2.takeWhile (· != 0)),
                (octets.2.dropWhile (· != 0)).drop 1)
            else none
    else none

theorem beBytes_one (n : ℕ) : beBytes 1 n = [UInt8.ofNat n] := by simp [beBytes, leBytes]

theorem length_of_takeBlock {bs body rest : List UInt8} (h : takeBlock 1 bs = some (body, rest)) :
    body.length < 256 := by
  obtain ⟨⟨len, bs'⟩, hlen, hbody⟩ := Option.bind_eq_some_iff.mp h
  obtain ⟨⟨first, bs''⟩, hfirst, heq⟩ := Option.map_eq_some_iff.mp hlen
  obtain ⟨rfl, rfl⟩ := Prod.mk.inj heq
  rw [takeBytes] at hfirst hbody
  split at hfirst
  · rename_i hpos
    obtain ⟨rfl, rfl⟩ := Prod.mk.inj (Option.some.inj hfirst)
    split at hbody
    · rename_i hle
      obtain ⟨rfl, -⟩ := Prod.mk.inj (Option.some.inj hbody)
      rw [List.length_take]
      refine (Nat.min_le_left _ _).trans_lt ?_
      cases bs with
      | nil => cases hpos
      | cons b bs =>
        have hb := b.toNat_lt
        simpa [beVal, leVal] using hb
    · cases hbody
  · cases hfirst

/-- The credentials are read back exactly if their lengths fit into a byte. -/
theorem readCredentials_iff (user password rest : List UInt8) :
    readCredentials (authRequest user password ++ rest) = some ((user, password), rest) ↔
      user.length < 256 ∧ password.length < 256 := by
  constructor
  · intro h
    obtain ⟨version, -, h⟩ := Option.bind_eq_some_iff.mp h
    split at h
    · obtain ⟨⟨user', bs⟩, huser, h⟩ := Option.bind_eq_some_iff.mp h
      obtain ⟨⟨password', bs'⟩, hpassword, heq⟩ := Option.map_eq_some_iff.mp h
      obtain ⟨hboth, rfl⟩ := Prod.mk.inj heq
      obtain ⟨rfl, rfl⟩ := Prod.mk.inj hboth
      exact ⟨length_of_takeBlock huser, length_of_takeBlock hpassword⟩
    · cases h
  · rintro ⟨huser, hpassword⟩
    have hbytes : authRequest user password ++ rest = 1 :: (block 1 user ++ (block 1 password ++ rest)) := by
      simp [authRequest, block, beBytes_one]
    rw [hbytes, readCredentials, takeByte, Option.bind_some, if_pos rfl, takeBlock_block (by simpa using huser),
      Option.bind_some, takeBlock_block (by simpa using hpassword)]
    rfl

theorem readGreeting_greeting (username : Option (List UInt8)) (rest : List UInt8) :
    readGreeting (greeting username ++ rest) = some (0 :: (if username.isSome then [2] else []), rest) := by
  have hbytes : greeting username ++ rest =
      5 :: (block 1 (0 :: if username.isSome then [2] else []) ++ rest) := by
    simp [greeting, block, beBytes_one]
  rw [hbytes, readGreeting, takeByte, Option.bind_some, if_pos rfl, takeBlock_block]
  cases username <;> simp

theorem readAddress_address {w : ℕ} (ip : Block UInt8 w → IpAddr) (octets : Block UInt8 w) (port : UInt16)
    (rest : List UInt8) :
    readAddress ip (octets.toList ++ (portBytes port ++ rest)) = some (⟨ip octets, port⟩, rest) := by
  rw [readAddress, takeBytes_append octets.length_eq, Option.bind_some, asBlock_toList, Option.bind_some,
    takeBytes_append (length_portBytes port), Option.map_some, beU16_portBytes]

theorem readRequest_connectRequest (target : SocketAddr) (rest : List UInt8) :
    readRequest (connectRequest target ++ rest) = some (target, rest) := by
  have hhead (kind : UInt8) (more : List UInt8) :
      takeBytes 4 ([5, 1, 0, kind] ++ more) = some ([5, 1, 0, kind], more) := takeBytes_append rfl
  obtain ⟨ip, port⟩ := target
  cases ip with
  | v4 ip =>
    have hbytes : connectRequest ⟨.v4 ip, port⟩ ++ rest =
        [5, 1, 0, 1] ++ (ip.toList ++ (portBytes port ++ rest)) := by simp [connectRequest]
    rw [hbytes, readRequest, hhead, Option.bind_some, if_pos rfl, readAddress_address]
  | v6 ip =>
    have hbytes : connectRequest ⟨.v6 ip, port⟩ ++ rest =
        [5, 1, 0, 4] ++ (ip.toList ++ (portBytes port ++ rest)) := by simp [connectRequest]
    rw [hbytes, readRequest, hhead, Option.bind_some, if_neg (by simp), if_pos rfl, readAddress_address]

/-- Whatever the server sends, the client is connected exactly if the answers have the form of the
    protocol, and then not one byte more was taken from the stream. The server has read from what was sent
    the methods, with method 2 the credentials if and only if each fits into 255 bytes, and the target. -/
theorem socks5_conversation (r r' : R) (target bound : SocketAddr) (username password : Option (List UInt8)) :
    ((connectSocks5 read r target username password).result = .ok (bound, r') ↔
      ∃ a : Socks5Answer, a.Allowed username password ∧ Yields read a.bytes r r' ∧ bound = a.bound.addr) ∧
    ∀ a : Socks5Answer, a.Allowed username password → Yields read a.bytes r r' →
      ∃ rest, readGreeting (connectSocks5 read r target username password).sent =
          some (0 :: (if username.isSome then [2] else []), rest) ∧
        (a.method = 0 → readRequest rest = some (target, [])) ∧
        ∀ user pass, a.method = 2 → username = some user → password = some pass →
          (readCredentials rest = some ((user, pass), connectRequest target) ↔
            user.length < 256 ∧ pass.length < 256) ∧
          readRequest (connectRequest target) = some (target, []) := by
  have hrequest : readRequest (connectRequest target) = some (target, []) := by
    simpa using readRequest_connectRequest target []
  refine ⟨⟨connectSocks5_ok, ?_⟩, fun a hallowed hyields => ?_⟩
  · rintro ⟨a, hallowed, hyields, rfl⟩
    rw [connectSocks5_of_answer target hallowed hyields]
  · rw [connectSocks5_of_answer target hallowed hyields]
    refine ⟨_, readGreeting_greeting username _, fun hzero => ?_, ?_⟩
    · rwa [hzero, if_neg (by decide), List.nil_append]
    · rintro user pass htwo rfl rfl
      rw [if_pos htwo]
      exact ⟨readCredentials_iff user pass _, hrequest⟩

/-- The user's name is read back exactly if it has no zero in it. -/
theorem readSocks4Request_iff (ip : Block UInt8 4) (port : UInt16) (user : List UInt8) :
    readSocks4Request (socks4Request ip port user) = some ((⟨.v4 ip, port⟩, user), []) ↔ 0 ∉ user := by
  have hbytes : socks4Request ip port user =
      [4, 1] ++ (portBytes port ++ (ip.toList ++ (user ++ [0]))) := by simp [socks4Request]
  have hhead (more : List UInt8) : takeBytes 2 ([4, 1] ++ more) = some ([4, 1], more) := takeBytes_append rfl
  rw [hbytes, readSocks4Request, hhead, Option.bind_some, if_pos rfl,
    takeBytes_append (length_portBytes port), Option.bind_some, takeBytes_append ip.length_eq,
    Option.bind_some, asBlock_toList, Option.bind_some, if_pos (by simp), beU16_portBytes]
  constructor
  · intro h hzero
    have huser : (user ++ [0]).takeWhile (· != 0) = user := (Prod.mk.inj (Prod.mk.inj (Option.some.inj h)).1).2
    have hall := List.all_takeWhile (p := (· != 0)) (l := user ++ [0])
    rw [huser] at hall
    simpa using List.all_eq_true.mp hall 0 hzero
  · intro hzero
    have hall : ∀ b ∈ user, (b != 0) = true := by
      intro b hb
      simp only [bne_iff_ne, ne_eq]
      rintro rfl
      exact hzero hb
    rw [List.takeWhile_append_of_pos hall, List.dropWhile_append_of_pos hall]
    simp

/-- The same for SOCKS4, which has no IPv6: nothing is sent then. -/
theorem socks4_conversation (r r' : R) (target bound : SocketAddr) (userId : Option (List UInt8)) :
    (∀ ip, target.ip = .v6 ip → (connectSocks4 read r target userId).sent = []) ∧
    ((connectSocks4 read r target userId).result = .ok (bound, r') ↔
      ∃ ip version boundIp, target.ip = .v4 ip ∧ bound.ip = .v4 boundIp ∧
        Yields read ([version, 90] ++ (portBytes bound.port ++ boundIp.toList)) r r') ∧
    ∀ ip, target.ip = .v4 ip →
      (readSocks4Request (connectSocks4 read r target userId).sent =
        some ((target, userId.getD []), []) ↔ 0 ∉ userId.getD []) := by
  obtain ⟨targetIp, port⟩ := target
  cases targetIp with
  | v6 ip =>
    refine ⟨fun _ _ => rfl, ⟨fun h => (by cases h), ?_⟩, fun _ h => (by cases h)⟩
    rintro ⟨ip', version, boundIp, htarget, -⟩
    cases htarget
  | v4 ip =>
    refine ⟨fun _ h => (by cases h), ⟨fun h => ?_, ?_⟩, fun ip' hip => ?_⟩
    · rw [connectSocks4, send_result] at h
      obtain ⟨resp, r₁, hlen, hyields, h⟩ := receive_ok h
      split at h
      · cases h
      rename_i hcode
      split at h
      · cases h
      rename_i boundIp hboundIp
      cases h
      match resp, hlen with
      | version :: code :: rest, hlen =>
        obtain rfl : code = 90 := by simpa using hcode
        have hrest : rest.length = 6 := by simpa using hlen
        have hport : (rest.take 2).length = 2 := by simp [hrest]
        refine ⟨ip, version, boundIp, rfl, rfl, ?_⟩
        have hslice : slice (version :: 90 :: rest) 2 2 = rest.take 2 := rfl
        have hdrop : boundIp.toList = rest.drop 2 := toList_of_asBlock hboundIp
        rw [hslice, portBytes_beU16 hport, hdrop, List.take_append_drop]
        exact hyields
    · rintro ⟨ip', version, boundIp, -, hbound, hyields⟩
      obtain ⟨boundIp', boundPort⟩ := bound
      obtain rfl : boundIp' = .v4 boundIp := hbound
      have hlen : ([version, 90] ++ (portBytes boundPort ++ boundIp.toList)).length = 8 := by
        simp [boundIp.length_eq]
      have hport : slice ([version, 90] ++ (portBytes boundPort ++ boundIp.toList)) 2 2 =
          portBytes boundPort := by
        simp [slice, List.take_left' (length_portBytes boundPort)]
      have hip : ([version, 90] ++ (portBytes boundPort ++ boundIp.toList)).drop 4 = boundIp.toList := by
        change (portBytes boundPort ++ boundIp.toList).drop 2 = _
        exact List.drop_left' (length_portBytes boundPort)
      rw [connectSocks4, send_result, receive_of_yields hlen hyields, if_neg (by simp), hip, asBlock_toList,
        hport, beU16_portBytes]
      rfl
    · obtain rfl : ip = ip' := by cases hip; rfl
      have hsent : (connectSocks4 read r ⟨.v4 ip, port⟩ userId).sent =
          socks4Request ip port (userId.getD []) := by
        simp only [connectSocks4, send, receive]
        split
        · simp [fail]
        · split
          · simp [fail]
          · split <;> simp [fail, done]
      rw [hsent]
      exact readSocks4Request_iff ip port (userId.getD [])

end

end MtProxy.Transport.Socks
