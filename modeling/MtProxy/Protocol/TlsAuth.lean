import MtProxy.Protocol.Tls
import MtProxy.Schemes.Decode

/-! What `validate_tls_handshake` decides. A client that knows a secret writes the HMAC of its hello
    into the hello, the last four bytes XORed with its clock; the check finds the first user whose
    secret explains the digest with a timestamp that is allowed.

        digest   HMAC[0..28] │ HMAC[28..32] ⊕ clock

    The accesses to the buffers are checked here: none of them is ever out of range. The clock is any
    integer; the source panics before 1970, where nothing is decided. -/

namespace MtProxy.Protocol
open Schemes

section
variable (sha256Hmac : List UInt8 → List UInt8 → Block UInt8 tlsDigestLen)

/-! ### The function with its accesses checked -/

/-- The loop over the secrets; `none` is an access out of range. -/
def findUserChecked (digest msg : List UInt8) (ignoreTimeSkew : Bool) (now : ℤ) :
    List (String × List UInt8) → Option (Option (String × ℕ))
  | [] => some none
  | (user, secret) :: secrets => do
    let computed := sha256Hmac secret msg
    let xored := List.zipWith (· ^^^ ·) digest computed.toList
    let front ← sliceChecked xored 0 28
    if front.all (· == 0) then
      let tail ← sliceChecked xored 28 4
      let timestamp := leVal tail
      if timeOk ignoreTimeSkew now timestamp then return some (user, timestamp)
      else findUserChecked digest msg ignoreTimeSkew now secrets
    else findUserChecked digest msg ignoreTimeSkew now secrets

/-- `validate_tls_handshake`; the outer `none` is an access out of range. -/
def validateTlsHandshakeChecked (handshake : List UInt8) (secrets : List (String × List UInt8))
    (ignoreTimeSkew : Bool) (now : ℤ) : Option (Option TlsValidation) :=
  if handshake.length < tlsDigestPos + tlsDigestLen + 1 then some none
  else do
    let digest ← sliceChecked handshake tlsDigestPos tlsDigestLen
    let sessionIdLenPos := tlsDigestPos + tlsDigestLen
    match handshake[sessionIdLenPos]? with
    | none => return none
    | some sessionIdLen =>
      let sessionIdStart := sessionIdLenPos + 1
      if handshake.length < sessionIdStart + sessionIdLen.toNat then return none
      else
        let sessionId ← sliceChecked handshake sessionIdStart sessionIdLen.toNat
        let msg ← copyIntoChecked handshake tlsDigestPos (List.replicate tlsDigestLen 0)
        let found ← findUserChecked sha256Hmac digest msg ignoreTimeSkew now secrets
        return found.map fun found =>
          { user := found.1, sessionId := sessionId, digest := digest, timestamp := found.2 }

/-! ### What a hello is -/

/-- The digest of the hello is the HMAC under this secret with this time in its last four bytes. -/
def MadeWith (handshake secret : List UInt8) (timestamp : ℕ) : Prop :=
  (digestOf handshake).take 28 = (sha256Hmac secret (hmacMessage handshake)).toList.take 28 ∧
    leVal (List.zipWith (· ^^^ ·) ((digestOf handshake).drop 28)
      ((sha256Hmac secret (hmacMessage handshake)).toList.drop 28)) = timestamp

/-- Any time if the skew is ignored, a time that counts from boot, or one that agrees with ours. -/
def TimestampAllowed (ignoreTimeSkew : Bool) (now : ℤ) (timestamp : ℕ) : Prop :=
  ignoreTimeSkew = true ∨ timestamp < 86400000 ∨
    (-1200 ≤ now - timestamp ∧ now - timestamp ≤ 600)

/-- The secret explains the hello at this time. -/
def Explains (handshake : List UInt8) (ignoreTimeSkew : Bool) (now : ℤ) (secret : List UInt8)
    (timestamp : ℕ) : Prop :=
  MadeWith sha256Hmac handshake secret timestamp ∧ TimestampAllowed ignoreTimeSkew now timestamp

/-- The first user of the list whose secret explains the hello, and the time it then gives. -/
def FirstFit (handshake : List UInt8) (secrets : List (String × List UInt8))
    (ignoreTimeSkew : Bool) (now : ℤ) (user : String) (timestamp : ℕ) : Prop :=
  ∃ before secret after, secrets = before ++ (user, secret) :: after ∧
    (∀ p ∈ before, ∀ t, ¬ Explains sha256Hmac handshake ignoreTimeSkew now p.2 t) ∧
    Explains sha256Hmac handshake ignoreTimeSkew now secret timestamp

/-- How long the session id is said to be. -/
def announcedSessionIdLen (handshake : List UInt8) : ℕ :=
  (handshake.getD (tlsDigestPos + tlsDigestLen) 0).toNat

/-- The digest a client with this secret and this clock writes into its hello. -/
def clientDigest (secret body : List UInt8) (timestamp : ℕ) : List UInt8 :=
  List.zipWith (· ^^^ ·) (sha256Hmac secret (hmacMessage body)).toList
    (List.replicate 28 0 ++ leBytes 4 timestamp)

/-- A hello of a client that knows the secret. -/
def clientHello (secret body : List UInt8) (timestamp : ℕ) : List UInt8 :=
  copyInto body tlsDigestPos (clientDigest sha256Hmac secret body timestamp)

end

/-! ### No access is out of range -/

section
variable {sha256Hmac : List UInt8 → List UInt8 → Block UInt8 tlsDigestLen} {handshake : List UInt8}
  {ignoreTimeSkew : Bool} {now : ℤ}

theorem length_digestOf (h : tlsDigestPos + tlsDigestLen ≤ handshake.length) :
    (digestOf handshake).length = tlsDigestLen := by
  rw [digestOf, length_slice]
  omega

theorem findUserChecked_eq (h : tlsDigestPos + tlsDigestLen ≤ handshake.length)
    (secrets : List (String × List UInt8)) :
    findUserChecked sha256Hmac (digestOf handshake) (hmacMessage handshake) ignoreTimeSkew now
        secrets = some (findUser sha256Hmac handshake ignoreTimeSkew now secrets) := by
  induction secrets with
  | nil => rfl
  | cons first secrets ih =>
    obtain ⟨user, secret⟩ := first
    have hlen : (List.zipWith (· ^^^ ·) (digestOf handshake)
        (sha256Hmac secret (hmacMessage handshake)).toList).length = 32 := by
      rw [List.length_zipWith, length_digestOf h, Block.length_eq]
      rfl
    have hfront := sliceChecked_eq (show 0 + 28 ≤ _ by rw [hlen]; omega)
    have htail := sliceChecked_eq (show 28 + 4 ≤ _ by rw [hlen])
    have hslice : ∀ l : List UInt8, slice l 0 28 = l.take 28 := fun _ => rfl
    simp only [findUserChecked, findUser, timestampUnder, hfront, htail, hslice,
      Option.bind_eq_bind, Option.bind_some, Option.pure_def, ih]
    split_ifs with hzero htime
    · simp only [htime, if_true]
    · simp only [htime, if_false, Bool.false_eq_true]
    · rfl

theorem validateTlsHandshakeChecked_eq (secrets : List (String × List UInt8)) :
    validateTlsHandshakeChecked sha256Hmac handshake secrets ignoreTimeSkew now =
      some (validateTlsHandshake sha256Hmac handshake secrets ignoreTimeSkew now) := by
  by_cases hshort : handshake.length < tlsDigestPos + tlsDigestLen + 1
  · simp only [validateTlsHandshakeChecked, validateTlsHandshake, if_pos hshort]
  · have hdigest : sliceChecked handshake tlsDigestPos tlsDigestLen = some (digestOf handshake) :=
      sliceChecked_eq (by omega)
    have hmsg : copyIntoChecked handshake tlsDigestPos (List.replicate tlsDigestLen 0) =
        some (hmacMessage handshake) := copyIntoChecked_eq (by rw [List.length_replicate]; omega)
    have hfind : findUserChecked sha256Hmac (digestOf handshake) (hmacMessage handshake)
        ignoreTimeSkew now secrets =
          some (findUser sha256Hmac handshake ignoreTimeSkew now secrets) :=
      findUserChecked_eq (by omega) secrets
    have hpos : tlsDigestPos + tlsDigestLen < handshake.length := by omega
    rw [validateTlsHandshakeChecked, validateTlsHandshake, if_neg hshort]
    simp only [if_neg hshort, hdigest, hmsg, hfind, List.getElem?_eq_getElem hpos,
      List.getD_eq_getElem _ _ hpos, Option.bind_eq_bind, Option.bind_some, Option.pure_def]
    split_ifs with hid
    · rfl
    · rw [sliceChecked_eq (by omega), Option.bind_some]

/-! ### The loop finds the first user -/

theorem timeOk_iff_allowed {timestamp : ℕ} :
    timeOk ignoreTimeSkew now timestamp = true ↔ TimestampAllowed ignoreTimeSkew now timestamp := by
  rw [timeOk, Bool.or_eq_true, Bool.or_eq_true, decide_eq_true_eq, isBootTime, decide_eq_true_eq,
    or_assoc]
  exact Iff.rfl

theorem all_xor_zero_iff {a b : List UInt8} (hlen : a.length = b.length) :
    (List.zipWith (· ^^^ ·) a b).all (· == 0) = true ↔ a = b := by
  refine ⟨eq_of_xor_zero hlen, ?_⟩
  rintro rfl
  clear hlen
  induction a with
  | nil => rfl
  | cons x a ih => rw [List.zipWith_cons_cons, List.all_cons, ih, UInt8.xor_self]; rfl

theorem timestampUnder_iff {secret : List UInt8} {timestamp : ℕ}
    (h : tlsDigestPos + tlsDigestLen ≤ handshake.length) :
    timestampUnder sha256Hmac handshake secret = some timestamp ↔
      MadeWith sha256Hmac handshake secret timestamp := by
  have hdigest := length_digestOf h
  have hmac := (sha256Hmac secret (hmacMessage handshake)).length_eq
  have htail : slice (List.zipWith (· ^^^ ·) (digestOf handshake)
      (sha256Hmac secret (hmacMessage handshake)).toList) 28 4 =
        List.zipWith (· ^^^ ·) ((digestOf handshake).drop 28)
          ((sha256Hmac secret (hmacMessage handshake)).toList.drop 28) := by
    rw [slice, List.drop_zipWith, List.take_of_length_le]
    rw [List.length_zipWith, List.length_drop, List.length_drop, hdigest, hmac]
    decide
  have hzero : (List.take 28 (List.zipWith (· ^^^ ·) (digestOf handshake)
      (sha256Hmac secret (hmacMessage handshake)).toList)).all (· == 0) = true ↔
        (digestOf handshake).take 28 =
          (sha256Hmac secret (hmacMessage handshake)).toList.take 28 := by
    rw [List.take_zipWith]
    refine all_xor_zero_iff ?_
    rw [List.length_take, List.length_take, hdigest, hmac]
  unfold timestampUnder MadeWith
  simp only [htail]
  split_ifs with hall
  · rw [Option.some_inj]
    exact (and_iff_right (hzero.mp hall)).symm
  · exact iff_of_false (by simp) (fun hmade => hall (hzero.mpr hmade.1))

variable (sha256Hmac ignoreTimeSkew now) in
/-- One user of the list: the loop stops there if the secret explains the hello. -/
theorem findUser_cons (h : tlsDigestPos + tlsDigestLen ≤ handshake.length) (user : String)
    (secret : List UInt8) (secrets : List (String × List UInt8)) :
    (∃ timestamp, Explains sha256Hmac handshake ignoreTimeSkew now secret timestamp ∧
      findUser sha256Hmac handshake ignoreTimeSkew now ((user, secret) :: secrets) =
        some (user, timestamp)) ∨
    ((∀ timestamp, ¬ Explains sha256Hmac handshake ignoreTimeSkew now secret timestamp) ∧
      findUser sha256Hmac handshake ignoreTimeSkew now ((user, secret) :: secrets) =
        findUser sha256Hmac handshake ignoreTimeSkew now secrets) := by
  rw [findUser]
  cases hts : timestampUnder sha256Hmac handshake secret with
  | none =>
    refine Or.inr ⟨?_, rfl⟩
    intro timestamp hexp
    rw [(timestampUnder_iff h).mpr hexp.1] at hts
    cases hts
  | some ts =>
    have hmade := (timestampUnder_iff h).mp hts
    by_cases htime : timeOk ignoreTimeSkew now ts = true
    · exact Or.inl ⟨ts, ⟨hmade, timeOk_iff_allowed.mp htime⟩, if_pos htime⟩
    · refine Or.inr ⟨?_, if_neg htime⟩
      intro timestamp hexp
      obtain rfl : timestamp = ts := hexp.1.2.symm.trans hmade.2
      exact htime (timeOk_iff_allowed.mpr hexp.2)

variable (sha256Hmac ignoreTimeSkew now) in
/-- The loop ends with the first user that fits, or no user fits. -/
theorem findUser_cases (h : tlsDigestPos + tlsDigestLen ≤ handshake.length)
    (secrets : List (String × List UInt8)) :
    (∃ user timestamp, findUser sha256Hmac handshake ignoreTimeSkew now secrets =
        some (user, timestamp) ∧
      FirstFit sha256Hmac handshake secrets ignoreTimeSkew now user timestamp) ∨
    (findUser sha256Hmac handshake ignoreTimeSkew now secrets = none ∧
      ∀ p ∈ secrets, ∀ t, ¬ Explains sha256Hmac handshake ignoreTimeSkew now p.2 t) := by
  induction secrets with
  | nil => exact Or.inr ⟨rfl, List.forall_mem_nil _⟩
  | cons first secrets ih =>
    obtain ⟨name, secret⟩ := first
    rcases findUser_cons sha256Hmac ignoreTimeSkew now h name secret secrets with
      ⟨timestamp, hexp, hfound⟩ | ⟨hpass, hrest⟩
    · exact Or.inl ⟨name, timestamp, hfound, [], secret, secrets, rfl, List.forall_mem_nil _, hexp⟩
    · rw [hrest]
      rcases ih with ⟨user, timestamp, hfound, before, secret', after, rfl, hbefore, hexp⟩ |
        ⟨hnone, hall⟩
      · exact Or.inl ⟨user, timestamp, hfound, (name, secret) :: before, secret', after, rfl,
          List.forall_mem_cons.mpr ⟨hpass, hbefore⟩, hexp⟩
      · exact Or.inr ⟨hnone, List.forall_mem_cons.mpr ⟨hpass, hall⟩⟩

end

/-! ### The decision -/

section
variable (sha256Hmac : List UInt8 → List UInt8 → Block UInt8 tlsDigestLen)
  (handshake : List UInt8) (secrets : List (String × List UInt8)) (ignoreTimeSkew : Bool) (now : ℤ)

/-- The message is long enough for the digest and holds the whole session id. -/
def Complete (handshake : List UInt8) : Prop :=
  44 ≤ handshake.length ∧ 44 + announcedSessionIdLen handshake ≤ handshake.length

/-- What the result says of the hello it was given for. -/
structure Describes (v : TlsValidation) : Prop where
  first : FirstFit sha256Hmac handshake secrets ignoreTimeSkew now v.user v.timestamp
  digest : v.digest = slice handshake 11 32
  sessionId : v.sessionId = slice handshake 44 (announcedSessionIdLen handshake)

/-- What is not complete is refused; what is complete is settled by the users. -/
theorem validateTlsHandshake_cases :
    (∃ v, validateTlsHandshake sha256Hmac handshake secrets ignoreTimeSkew now = some v ∧
      Complete handshake ∧ Describes sha256Hmac handshake secrets ignoreTimeSkew now v) ∨
    (validateTlsHandshake sha256Hmac handshake secrets ignoreTimeSkew now = none ∧
      (Complete handshake →
        ∀ p ∈ secrets, ∀ t, ¬ Explains sha256Hmac handshake ignoreTimeSkew now p.2 t)) := by
  unfold validateTlsHandshake
  by_cases hshort : handshake.length < tlsDigestPos + tlsDigestLen + 1
  · rw [if_pos hshort]
    exact Or.inr ⟨rfl, fun hc => absurd hc.1 (by rw [tlsDigestPos, tlsDigestLen] at hshort; omega)⟩
  by_cases hid : handshake.length <
      tlsDigestPos + tlsDigestLen + 1 + announcedSessionIdLen handshake
  · rw [if_neg hshort]
    refine Or.inr ⟨if_pos hid, fun hc => absurd hc.2 ?_⟩
    rw [tlsDigestPos, tlsDigestLen] at hid
    omega
  have hlen : tlsDigestPos + tlsDigestLen ≤ handshake.length := by omega
  have hc : Complete handshake := by
    rw [tlsDigestPos, tlsDigestLen] at hshort hid
    exact ⟨by omega, by omega⟩
  rw [if_neg hshort]
  simp only
  rw [← announcedSessionIdLen, if_neg hid]
  rcases findUser_cases sha256Hmac ignoreTimeSkew now hlen secrets with
    ⟨user, timestamp, hfound, hfirst⟩ | ⟨hnone, hall⟩
  · rw [hfound]
    exact Or.inl ⟨_, rfl, hc, hfirst, rfl, rfl⟩
  · rw [hnone]
    exact Or.inr ⟨rfl, fun _ => hall⟩

theorem validateTlsHandshake_isSome_iff :
    (validateTlsHandshake sha256Hmac handshake secrets ignoreTimeSkew now).isSome = true ↔
      Complete handshake ∧
        ∃ p ∈ secrets, ∃ t, Explains sha256Hmac handshake ignoreTimeSkew now p.2 t := by
  rcases validateTlsHandshake_cases sha256Hmac handshake secrets ignoreTimeSkew now with
    ⟨v, hv, hc, hdesc⟩ | ⟨hnone, hall⟩
  · obtain ⟨before, secret, after, hsecrets, hbefore, hexp⟩ := hdesc.first
    rw [hv]
    refine iff_of_true rfl ⟨hc, (v.user, secret), ?_, v.timestamp, hexp⟩
    rw [hsecrets]
    exact List.mem_append_right _ List.mem_cons_self
  · rw [hnone]
    refine iff_of_false Bool.false_ne_true ?_
    rintro ⟨hc, p, hp, t, hexp⟩
    exact hall hc p hp t hexp

end

/-! ### A client that knows a secret -/

theorem zipWith_xor_zeros (a : List UInt8) :
    List.zipWith (· ^^^ ·) a (List.replicate a.length 0) = a := by
  induction a with
  | nil => rfl
  | cons x a ih => rw [List.length_cons, List.replicate_succ, List.zipWith_cons_cons, ih,
      UInt8.xor_zero]

/-- What was XORed in comes out again. -/
theorem zipWith_xor_cancel {a b : List UInt8} (hlen : a.length = b.length) :
    List.zipWith (· ^^^ ·) (List.zipWith (· ^^^ ·) a b) a = b := by
  induction a generalizing b with
  | nil => exact (List.length_eq_zero_iff.mp hlen.symm).symm
  | cons x a ih =>
    cases b with
    | nil => cases hlen
    | cons y b =>
      have hxy : x ^^^ y ^^^ x = y := by rw [UInt8.xor_comm x y, UInt8.xor_assoc, UInt8.xor_self,
        UInt8.xor_zero]
      rw [List.zipWith_cons_cons, List.zipWith_cons_cons, ih (Nat.succ.inj hlen), hxy]

section
variable (sha256Hmac : List UInt8 → List UInt8 → Block UInt8 tlsDigestLen)
  (secret body : List UInt8) (timestamp : ℕ)

theorem length_clientDigest : (clientDigest sha256Hmac secret body timestamp).length = 32 := by
  rw [clientDigest, List.length_zipWith, Block.length_eq, List.length_append, List.length_replicate,
    length_leBytes]
  rfl

/-- Writing over the digest and zeroing it is zeroing it. -/
theorem hmacMessage_clientHello (hlen : 44 ≤ body.length) :
    hmacMessage (clientHello sha256Hmac secret body timestamp) = hmacMessage body := by
  refine copyInto_copyInto ?_ ?_
  · rw [length_clientDigest, List.length_replicate, tlsDigestLen]
  · rw [List.length_replicate, tlsDigestPos, tlsDigestLen]
    omega

theorem digestFits (hlen : 44 ≤ body.length) :
    tlsDigestPos + (clientDigest sha256Hmac secret body timestamp).length ≤ body.length := by
  rw [length_clientDigest, tlsDigestPos]
  omega

theorem digestOf_clientHello (hlen : 44 ≤ body.length) :
    digestOf (clientHello sha256Hmac secret body timestamp) =
      clientDigest sha256Hmac secret body timestamp := by
  have hslice := slice_copyInto (digestFits sha256Hmac secret body timestamp hlen)
  rwa [length_clientDigest] at hslice

theorem length_clientHello (hlen : 44 ≤ body.length) :
    (clientHello sha256Hmac secret body timestamp).length = body.length :=
  length_copyInto (digestFits sha256Hmac secret body timestamp hlen)

/-- The session id length stands behind the digest and is as it was. -/
theorem announcedSessionIdLen_clientHello (hlen : 44 ≤ body.length) :
    announcedSessionIdLen (clientHello sha256Hmac secret body timestamp) =
      announcedSessionIdLen body := by
  have hdrop := drop_copyInto (digestFits sha256Hmac secret body timestamp hlen)
  have hget : ∀ l : List UInt8, l.getD 43 0 = (l.drop 11).getD 32 0 := by
    intro l
    rw [List.getD_eq_getElem?_getD, List.getD_eq_getElem?_getD, List.getElem?_drop]
  have hnext : (body.drop 43).getD 0 0 = body.getD 43 0 := by
    rw [List.getD_eq_getElem?_getD, List.getD_eq_getElem?_getD, List.getElem?_drop]
  rw [length_clientDigest] at hdrop
  unfold announcedSessionIdLen clientHello
  rw [tlsDigestPos] at hdrop ⊢
  rw [tlsDigestLen, hget, hdrop, List.getD_append_right _ _ _ _
    (by rw [length_clientDigest]), length_clientDigest, Nat.sub_self, hnext]

theorem complete_clientHello (hc : Complete body) :
    Complete (clientHello sha256Hmac secret body timestamp) := by
  rw [Complete, length_clientHello sha256Hmac secret body timestamp hc.1,
    announcedSessionIdLen_clientHello sha256Hmac secret body timestamp hc.1]
  exact hc

/-- The hello carries the clock of its sender. -/
theorem madeWith_clientHello (hlen : 44 ≤ body.length) (hts : timestamp < 2 ^ 32) :
    MadeWith sha256Hmac (clientHello sha256Hmac secret body timestamp) secret timestamp := by
  have hmac := (sha256Hmac secret (hmacMessage body)).length_eq
  unfold MadeWith
  rw [digestOf_clientHello sha256Hmac secret body timestamp hlen,
    hmacMessage_clientHello sha256Hmac secret body timestamp hlen, clientDigest]
  constructor
  · have hfront : ((sha256Hmac secret (hmacMessage body)).toList.take 28).length = 28 := by
      rw [List.length_take, hmac]
      rfl
    have hzero := zipWith_xor_zeros ((sha256Hmac secret (hmacMessage body)).toList.take 28)
    rw [hfront] at hzero
    rw [List.take_zipWith, List.take_left' List.length_replicate, hzero]
  · rw [List.drop_zipWith, List.drop_left' List.length_replicate, zipWith_xor_cancel,
      leVal_leBytes_of_lt (by norm_num at hts ⊢; exact hts)]
    rw [List.length_drop, hmac, length_leBytes]
    rfl

end

/-! ### What is decided -/

section
variable (sha256Hmac : List UInt8 → List UInt8 → Block UInt8 tlsDigestLen)
  (secrets : List (String × List UInt8)) (ignoreTimeSkew : Bool) (now : ℤ)

/-- No access is out of range; a hello is accepted if and only if it is complete and the secret of
    some user explains it at an allowed time, the result describes the first such user, and whoever
    knows a listed secret can make a hello that is accepted. -/
theorem validateTlsHandshake_decides (handshake : List UInt8) :
    (∃ result, validateTlsHandshakeChecked sha256Hmac handshake secrets ignoreTimeSkew now =
        some result ∧
      (result.isSome = true ↔ Complete handshake ∧
        ∃ p ∈ secrets, ∃ t, Explains sha256Hmac handshake ignoreTimeSkew now p.2 t) ∧
      ∀ v, result = some v → Describes sha256Hmac handshake secrets ignoreTimeSkew now v) ∧
    ∀ p ∈ secrets, ∀ body timestamp, Complete body → timestamp < 2 ^ 32 →
      TimestampAllowed ignoreTimeSkew now timestamp →
      ∃ v, validateTlsHandshakeChecked sha256Hmac (clientHello sha256Hmac p.2 body timestamp)
        secrets ignoreTimeSkew now = some (some v) := by
  constructor
  · refine ⟨_, validateTlsHandshakeChecked_eq secrets,
      validateTlsHandshake_isSome_iff sha256Hmac handshake secrets ignoreTimeSkew now, ?_⟩
    intro v hv
    rcases validateTlsHandshake_cases sha256Hmac handshake secrets ignoreTimeSkew now with
      ⟨v', hv', _, hdesc⟩ | ⟨hnone, _⟩
    · obtain rfl : v = v' := Option.some.inj (hv.symm.trans hv')
      exact hdesc
    · cases hnone.symm.trans hv
  · intro p hp body timestamp hc hts hallowed
    have hmade := madeWith_clientHello sha256Hmac p.2 body timestamp hc.1 hts
    have hsome := (validateTlsHandshake_isSome_iff sha256Hmac
      (clientHello sha256Hmac p.2 body timestamp) secrets ignoreTimeSkew now).mpr
      ⟨complete_clientHello sha256Hmac p.2 body timestamp hc, p, hp, timestamp, hmade, hallowed⟩
    obtain ⟨v, hv⟩ := Option.isSome_iff_exists.mp hsome
    exact ⟨v, by rw [validateTlsHandshakeChecked_eq, hv]⟩

end

end MtProxy.Protocol
