import MtProxy.Protocol.ClientHello

/-! What the two cursors find in a well-formed ClientHello: the first host of its server_name extension
    and the protocols of its ALPN extension. A cursor stands in front of what it still has to walk,

        handshake.drop pos = ext ++ exts ++ rest        pos ─▶ pos + ext.length

    and a round takes one item off the front. The lengths of the record and of the message are not
    read, so nothing is assumed about them. -/

namespace MtProxy.Protocol
open Schemes

/-- An extension, with the content of those that are looked up. -/
inductive HelloExtension where
  | serverName (names : List (UInt8 × List UInt8))
  | alpn (protocols : List (List UInt8))
  | other (type : ℕ) (data : List UInt8)
  deriving DecidableEq

def nameBytes (name : UInt8 × List UInt8) : List UInt8 := name.1 :: block 2 name.2

namespace HelloExtension

def type : HelloExtension → ℕ
  | .serverName _ => 0x0000
  | .alpn _ => 0x0010
  | .other type _ => type

def data : HelloExtension → List UInt8
  | .serverName names => block 2 (names.flatMap nameBytes)
  | .alpn protocols => block 2 (protocols.flatMap (block 1))
  | .other _ data => data

def toBytes (ext : HelloExtension) : List UInt8 := extensionBytes (ext.type, ext.data)

/-- Every length within the extension fits its field. -/
def ContentFits : HelloExtension → Prop
  | .serverName names => ∀ name ∈ names, name.2.length < 2 ^ 16
  | .alpn protocols => ∀ proto ∈ protocols, proto.length < 2 ^ 8
  | .other type _ => type < 2 ^ 16 ∧ type ≠ 0x0000 ∧ type ≠ 0x0010

instance (ext : HelloExtension) : Decidable ext.ContentFits :=
  match ext with
  | .serverName names => inferInstanceAs (Decidable (∀ name ∈ names, name.2.length < 2 ^ 16))
  | .alpn protocols => inferInstanceAs (Decidable (∀ proto ∈ protocols, proto.length < 2 ^ 8))
  | .other type _ => inferInstanceAs (Decidable (type < 2 ^ 16 ∧ type ≠ 0x0000 ∧ type ≠ 0x0010))

def names? : HelloExtension → Option (List (UInt8 × List UInt8))
  | .serverName names => some names
  | _ => none

def protocols? : HelloExtension → Option (List (List UInt8))
  | .alpn protocols => some protocols
  | _ => none

end HelloExtension

structure ClientHello where
  recordVersion : List UInt8
  version : List UInt8
  random : List UInt8
  sessionId : List UInt8
  cipherSuites : List UInt8
  compressionMethods : List UInt8
  extensions : List HelloExtension
  deriving DecidableEq

namespace ClientHello

def extensionsBytes (hello : ClientHello) : List UInt8 :=
  hello.extensions.flatMap HelloExtension.toBytes

def body (hello : ClientHello) : List UInt8 :=
  hello.version ++ (hello.random ++ (block 1 hello.sessionId ++ (block 2 hello.cipherSuites ++
    (block 1 hello.compressionMethods ++ block 2 hello.extensionsBytes))))

def toBytes (hello : ClientHello) : List UInt8 :=
  tlsRecordHandshake :: (hello.recordVersion ++ block 2 (0x01 :: block 3 hello.body))

structure WellFormed (hello : ClientHello) : Prop where
  recordVersion : hello.recordVersion.length = 2
  version : hello.version.length = 2
  random : hello.random.length = 32
  sessionId : hello.sessionId.length < 2 ^ 8
  cipherSuites : hello.cipherSuites.length < 2 ^ 16
  compressionMethods : hello.compressionMethods.length < 2 ^ 8
  content : ∀ ext ∈ hello.extensions, ext.ContentFits ∧ ext.data.length < 2 ^ 16
  extensions : hello.extensionsBytes.length < 2 ^ 16
  distinct : (hello.extensions.map HelloExtension.type).Nodup

end ClientHello

/-- An entry of the list that names a host. -/
def hostName (name : UInt8 × List UInt8) : Option String :=
  if name.1 = 0 ∧ name.2 ≠ [] then fromUtf8 name.2 else none

namespace ClientHello

/-- The first host of the server_name extension. -/
def serverName (hello : ClientHello) : Option String :=
  (hello.extensions.findSome? HelloExtension.names?).bind (·.findSome? hostName)

/-- The protocols of the ALPN extension, in the order of the client. -/
def protocols (hello : ClientHello) : List (List UInt8) :=
  (hello.extensions.findSome? HelloExtension.protocols?).getD []

end ClientHello

/-! ### Reading at a position -/

section
variable {bs x rest : List UInt8} {pos : ℕ}

theorem byteAt_of_drop {b : UInt8} (h : bs.drop pos = b :: rest) : bs[pos]? = some b := by
  rw [← List.head?_drop, h, List.head?_cons]

theorem drop_of_drop (h : bs.drop pos = x ++ rest) : bs.drop (pos + x.length) = rest := by
  rw [← List.drop_drop, h, List.drop_left]

theorem u16At_of_drop {n : ℕ} (hn : n < 2 ^ 16) (h : bs.drop pos = beBytes 2 n ++ rest) :
    u16At bs pos = some n := by
  have hbytes : beBytes 2 n = [UInt8.ofNat (n / 256), UInt8.ofNat n] := rfl
  rw [hbytes] at h
  have hhigh : bs[pos]? = some (UInt8.ofNat (n / 256)) := byteAt_of_drop h
  have hlow : bs[pos + 1]? = some (UInt8.ofNat n) :=
    byteAt_of_drop (drop_of_drop (x := [UInt8.ofNat (n / 256)]) h)
  rw [u16At, hhigh, hlow]
  simp only [Option.bind_eq_bind, Option.bind_some, Option.pure_def, UInt8.toNat_ofNat',
    Option.some_inj]
  omega

theorem sliceChecked_of_drop (hlen : pos + x.length ≤ bs.length) (h : bs.drop pos = x ++ rest) :
    sliceChecked bs pos x.length = some x := by
  rw [sliceChecked_eq hlen, slice, h, List.take_left]

/-- The length of a block at a position. -/
theorem blockLen_of_drop (hx : x.length < 2 ^ 16) (h : bs.drop pos = block 2 x ++ rest) :
    u16At bs pos = some x.length ∧ bs.drop (pos + 2) = x ++ rest := by
  rw [block, List.append_assoc] at h
  have hnext := drop_of_drop h
  rw [length_beBytes] at hnext
  exact ⟨u16At_of_drop hx h, hnext⟩

end

/-! ### The names -/

section
variable {handshake rest : List UInt8}

@[simp] theorem length_nameBytes (name : UInt8 × List UInt8) :
    (nameBytes name).length = 3 + name.2.length := by
  rw [nameBytes, List.length_cons, length_block]
  omega

theorem serverNameRound_eq {snEnd snPos : ℕ} {name : UInt8 × List UInt8}
    (hname : name.2.length < 2 ^ 16) (hend : snEnd ≤ handshake.length)
    (hroom : snPos + (nameBytes name).length ≤ snEnd)
    (h : handshake.drop snPos = nameBytes name ++ rest) :
    serverNameRound handshake snEnd snPos = some (match hostName name with
      | some host => .inr (some host)
      | none => .inl (snPos + (nameBytes name).length)) := by
  rw [length_nameBytes] at hroom ⊢
  have htype : handshake[snPos]? = some name.1 := byteAt_of_drop h
  have hafter : handshake.drop (snPos + 1) = block 2 name.2 ++ rest :=
    drop_of_drop (x := [name.1]) h
  obtain ⟨hlen, htext⟩ := blockLen_of_drop hname hafter
  have hslice := sliceChecked_of_drop (show snPos + 1 + 2 + name.2.length ≤ handshake.length by omega)
    htext
  have hnot : ¬ snEnd < snPos + 3 + name.2.length := by omega
  have hpos : 0 < name.2.length ↔ name.2 ≠ [] := List.length_pos_iff
  rw [serverNameRound, if_pos (by omega)]
  simp only [htype, hlen, Option.bind_eq_bind, Option.bind_some, if_neg hnot, hostName, hpos]
  by_cases hhost : name.1 = 0 ∧ name.2 ≠ []
  · rw [if_pos hhost, if_pos hhost, hslice, Option.bind_some]
    cases fromUtf8 name.2 with
    | none => rw [Nat.add_assoc]
    | some host => rfl
  · rw [if_neg hhost, if_neg hhost, Nat.add_assoc]

/-- The loop over the names finds the first host. -/
theorem serverNameLoop_eq {names : List (UInt8 × List UInt8)} {snEnd snPos : ℕ}
    (hnames : ∀ name ∈ names, name.2.length < 2 ^ 16) (hend : snEnd ≤ handshake.length)
    (hsn : snEnd = snPos + (names.flatMap nameBytes).length)
    (h : handshake.drop snPos = names.flatMap nameBytes ++ rest) :
    serverNameLoop handshake snEnd snPos = some (names.findSome? hostName) := by
  induction names generalizing snPos with
  | nil =>
    refine tryLoop_inr _ _ _ ?_
    rw [serverNameRound, if_neg]
    · rfl
    · rw [List.flatMap_nil, List.length_nil] at hsn
      omega
  | cons name names ih =>
    obtain ⟨hname, hrest⟩ := List.forall_mem_cons.mp hnames
    rw [List.flatMap_cons, List.length_append] at hsn
    rw [List.flatMap_cons, List.append_assoc] at h
    have hround := serverNameRound_eq hname hend (by omega) h
    rw [List.findSome?_cons]
    cases hhost : hostName name with
    | some host =>
      rw [hhost] at hround
      exact tryLoop_inr _ _ _ hround
    | none =>
      rw [hhost] at hround
      exact (tryLoop_inl _ _ _ hround).trans (ih hrest (by omega) (drop_of_drop h))

/-! ### The protocols -/

theorem alpnRound_eq {listEnd lp : ℕ} {proto : List UInt8} (out : List (List UInt8))
    (hproto : proto.length < 2 ^ 8) (hend : listEnd ≤ handshake.length)
    (hroom : lp + (block 1 proto).length ≤ listEnd)
    (h : handshake.drop lp = block 1 proto ++ rest) :
    alpnRound handshake listEnd (lp, out) =
      some (.inl (lp + (block 1 proto).length, out ++ [proto])) := by
  rw [length_block] at hroom ⊢
  have hbyte : block 1 proto = UInt8.ofNat proto.length :: proto := rfl
  rw [hbyte] at h
  have hplen : handshake[lp]? = some (UInt8.ofNat proto.length) := byteAt_of_drop h
  have htext : handshake.drop (lp + 1) = proto ++ rest :=
    drop_of_drop (x := [UInt8.ofNat proto.length]) h
  have hlen : (UInt8.ofNat proto.length).toNat = proto.length := UInt8.toNat_ofNat_of_lt hproto
  have hslice := sliceChecked_of_drop (show lp + 1 + proto.length ≤ handshake.length by omega) htext
  have hnot : ¬ listEnd < lp + 1 + proto.length := by omega
  rw [alpnRound, if_pos (show lp < listEnd by omega)]
  simp only [hplen, hlen, Option.bind_eq_bind, Option.bind_some, if_neg hnot, hslice]
  rw [Nat.add_assoc]

/-- The loop over the protocols collects them in order. -/
theorem alpnLoop_eq {protocols : List (List UInt8)} {listEnd lp : ℕ}
    (hprotos : ∀ proto ∈ protocols, proto.length < 2 ^ 8) (hend : listEnd ≤ handshake.length)
    (hlist : listEnd = lp + (protocols.flatMap (block 1)).length)
    (h : handshake.drop lp = protocols.flatMap (block 1) ++ rest) :
    alpnLoop handshake listEnd lp = some protocols := by
  suffices hgen : ∀ out, tryLoop (alpnRound handshake listEnd) (listEnd - ·.1)
      (fun _ _ => alpnRound_inl) (lp, out) = some (out ++ protocols) from hgen []
  induction protocols generalizing lp with
  | nil =>
    intro out
    rw [List.append_nil]
    refine tryLoop_inr _ _ _ ?_
    rw [alpnRound, if_neg]
    rw [List.flatMap_nil, List.length_nil] at hlist
    exact (show ¬ lp < listEnd by omega)
  | cons proto protocols ih =>
    intro out
    obtain ⟨hproto, hrest⟩ := List.forall_mem_cons.mp hprotos
    rw [List.flatMap_cons, List.length_append] at hlist
    rw [List.flatMap_cons, List.append_assoc] at h
    have hround := alpnRound_eq out hproto hend (by omega) h
    rw [List.append_cons]
    exact (tryLoop_inl _ _ _ hround).trans
      (ih hrest (by omega) (drop_of_drop h) (out ++ [proto]))

/-! ### The extensions -/

/-- What the cursor for the server name makes of one extension. -/
def HelloExtension.host? : HelloExtension → Option String
  | .serverName names => names.findSome? hostName
  | _ => none

/-- What the cursor for the protocols makes of one extension. -/
def HelloExtension.offered? : HelloExtension → Option (List (List UInt8))
  | .alpn protocols => if protocols = [] then none else some protocols
  | _ => none

/-- An extension at a position: its type, its length, and its data behind them. -/
theorem extension_of_drop {ext : HelloExtension} {pos : ℕ} (hfits : ext.ContentFits)
    (hdata : ext.data.length < 2 ^ 16) (h : handshake.drop pos = ext.toBytes ++ rest) :
    u16At handshake pos = some ext.type ∧ u16At handshake (pos + 2) = some ext.data.length ∧
      handshake.drop (pos + 4) = ext.data ++ rest := by
  have htype : ext.type < 2 ^ 16 := by
    cases ext with
    | serverName names => exact (by decide : (0x0000 : ℕ) < 2 ^ 16)
    | alpn protocols => exact (by decide : (0x0010 : ℕ) < 2 ^ 16)
    | other type data => exact hfits.1
  rw [HelloExtension.toBytes, extensionBytes, List.append_assoc] at h
  have hnext := drop_of_drop h
  rw [length_beBytes] at hnext
  obtain ⟨hlen, hdrop⟩ := blockLen_of_drop hdata hnext
  exact ⟨u16At_of_drop htype h, hlen, hdrop⟩

theorem length_extension (ext : HelloExtension) : ext.toBytes.length = 4 + ext.data.length := by
  rw [HelloExtension.toBytes, extensionBytes, List.length_append, length_beBytes, length_block,
    ← Nat.add_assoc]

/-- The data of a server_name extension at a position. -/
theorem serverNameData_of_drop {names : List (UInt8 × List UInt8)} {pos : ℕ}
    (hdata : (HelloExtension.serverName names).data.length < 2 ^ 16)
    (h : handshake.drop pos = (HelloExtension.serverName names).data ++ rest) :
    u16At handshake pos = some (names.flatMap nameBytes).length ∧
      handshake.drop (pos + 2) = names.flatMap nameBytes ++ rest := by
  rw [HelloExtension.data, length_block] at hdata
  exact blockLen_of_drop (by omega) h

theorem sniRound_eq {extEnd pos : ℕ} {ext : HelloExtension} (hfits : ext.ContentFits)
    (hdata : ext.data.length < 2 ^ 16) (hend : extEnd ≤ handshake.length)
    (hroom : pos + ext.toBytes.length ≤ extEnd)
    (h : handshake.drop pos = ext.toBytes ++ rest) :
    sniRound handshake extEnd pos = some (match ext.host? with
      | some host => .inr (some host)
      | none => .inl (pos + ext.toBytes.length)) := by
  obtain ⟨htype, hlen, hdrop⟩ := extension_of_drop hfits hdata h
  rw [length_extension] at hroom ⊢
  have hnot : ¬ extEnd < pos + 4 + ext.data.length := by omega
  rw [sniRound, if_pos (by omega)]
  simp only [htype, hlen, Option.bind_eq_bind, Option.bind_some, if_neg hnot, ← Nat.add_assoc]
  cases ext with
  | serverName names =>
    obtain ⟨hlist, hnames⟩ := serverNameData_of_drop hdata hdrop
    have hdataLen : (HelloExtension.serverName names).data.length =
        2 + (names.flatMap nameBytes).length := length_block
    by_cases hfive : 5 ≤ (HelloExtension.serverName names).data.length
    · have hsn : min (pos + 4 + 2 + (names.flatMap nameBytes).length)
          (pos + 4 + (HelloExtension.serverName names).data.length) =
            pos + 4 + 2 + (names.flatMap nameBytes).length := by omega
      have hloop := serverNameLoop_eq hfits (by omega) hsn hnames
      rw [if_pos ⟨rfl, hfive⟩, hlist, Option.bind_some, hloop, Option.bind_some,
        HelloExtension.host?]
      cases names.findSome? hostName with
      | none => rfl
      | some host => rfl
    · -- no name fits into fewer bytes
      rw [if_neg (fun hname => hfive hname.2)]
      cases names with
      | nil => rfl
      | cons name names =>
        rw [List.flatMap_cons, List.length_append, length_nameBytes] at hdataLen
        omega
  | alpn protocols => rfl
  | other type data => exact if_neg (fun hname => hfits.2.1 hname.1)

theorem alpnExtensionRound_eq {extEnd pos : ℕ} {ext : HelloExtension} (hfits : ext.ContentFits)
    (hdata : ext.data.length < 2 ^ 16) (hend : extEnd ≤ handshake.length)
    (hroom : pos + ext.toBytes.length ≤ extEnd)
    (h : handshake.drop pos = ext.toBytes ++ rest) :
    alpnExtensionRound handshake extEnd pos = some (match ext.offered? with
      | some protocols => .inr protocols
      | none => .inl (pos + ext.toBytes.length)) := by
  obtain ⟨htype, hlen, hdrop⟩ := extension_of_drop hfits hdata h
  rw [length_extension] at hroom ⊢
  have hnot : ¬ extEnd < pos + 4 + ext.data.length := by omega
  rw [alpnExtensionRound, if_pos (by omega)]
  simp only [htype, hlen, Option.bind_eq_bind, Option.bind_some, if_neg hnot, ← Nat.add_assoc]
  cases ext with
  | serverName names => rfl
  | alpn protocols =>
    have hdataLen : (HelloExtension.alpn protocols).data.length =
        2 + (protocols.flatMap (block 1)).length := length_block
    obtain ⟨hlist, hprotos⟩ : u16At handshake (pos + 4) =
        some (protocols.flatMap (block 1)).length ∧
          handshake.drop (pos + 4 + 2) = protocols.flatMap (block 1) ++ rest :=
      blockLen_of_drop (by omega) hdrop
    by_cases hthree : 3 ≤ (HelloExtension.alpn protocols).data.length
    · have hlistEnd : min (pos + 4 + 2 + (protocols.flatMap (block 1)).length)
          (pos + 4 + (HelloExtension.alpn protocols).data.length) =
            pos + 4 + 2 + (protocols.flatMap (block 1)).length := by omega
      have hloop := alpnLoop_eq hfits (by omega) hlistEnd hprotos
      have hne : protocols ≠ [] := by
        rintro rfl
        rw [List.flatMap_nil, List.length_nil] at hdataLen
        omega
      rw [if_pos ⟨rfl, hthree⟩, hlist, Option.bind_some, hloop, Option.bind_some,
        HelloExtension.offered?, if_neg hne]
    · -- no protocol fits into fewer bytes
      rw [if_neg (fun halpn => hthree halpn.2)]
      cases protocols with
      | nil => rfl
      | cons proto protocols =>
        rw [List.flatMap_cons, List.length_append, length_block] at hdataLen
        omega
  | other type data => exact if_neg (fun halpn => hfits.2.2 halpn.1)

section
variable {exts : List HelloExtension} {extEnd : ℕ}

/-- A walk over the extensions ends at the first one in which it finds something. -/
theorem extensionWalk_eq {β γ : Type} (find : HelloExtension → Option β) (found : β → γ)
    {round : ℕ → Option (ℕ ⊕ γ)} {notFound : γ}
    (hinl : ∀ s s', round s = some (.inl s') → extEnd - s' < extEnd - s)
    (hdone : ∀ pos, extEnd ≤ pos → round pos = some (.inr notFound))
    (hround : ∀ ext : HelloExtension, ext.ContentFits → ext.data.length < 2 ^ 16 → ∀ pos rest,
      pos + ext.toBytes.length ≤ extEnd → handshake.drop pos = ext.toBytes ++ rest →
      (∀ x, find ext = some x → round pos = some (.inr (found x))) ∧
        (find ext = none → round pos = some (.inl (pos + ext.toBytes.length))))
    (hexts : ∀ ext ∈ exts, ext.ContentFits ∧ ext.data.length < 2 ^ 16) {pos : ℕ}
    (hpos : extEnd = pos + (exts.flatMap HelloExtension.toBytes).length)
    (h : handshake.drop pos = exts.flatMap HelloExtension.toBytes ++ rest) :
    tryLoop round (extEnd - ·) hinl pos =
      some (((exts.findSome? find).map found).getD notFound) := by
  induction exts generalizing pos with
  | nil =>
    rw [List.flatMap_nil, List.length_nil] at hpos
    exact tryLoop_inr _ _ _ (hdone pos (by omega))
  | cons ext exts ih =>
    obtain ⟨⟨hfits, hdata⟩, hrest⟩ := List.forall_mem_cons.mp hexts
    rw [List.flatMap_cons, List.length_append] at hpos
    rw [List.flatMap_cons, List.append_assoc] at h
    obtain ⟨hfound, hnext⟩ := hround ext hfits hdata pos _ (by omega) h
    rw [List.findSome?_cons]
    cases hfind : find ext with
    | some x => exact tryLoop_inr _ _ _ (hfound x hfind)
    | none => exact (tryLoop_inl _ _ _ (hnext hfind)).trans (ih hrest (by omega) (drop_of_drop h))

theorem sniLoop_eq {pos : ℕ}
    (hexts : ∀ ext ∈ exts, ext.ContentFits ∧ ext.data.length < 2 ^ 16)
    (hend : extEnd ≤ handshake.length)
    (hpos : extEnd = pos + (exts.flatMap HelloExtension.toBytes).length)
    (h : handshake.drop pos = exts.flatMap HelloExtension.toBytes ++ rest) :
    sniLoop handshake extEnd pos = some (exts.findSome? HelloExtension.host?) := by
  have hdone : ∀ pos, extEnd ≤ pos → sniRound handshake extEnd pos = some (.inr none) := by
    intro pos hpos
    rw [sniRound, if_neg (by omega)]
  refine (extensionWalk_eq HelloExtension.host? some (fun _ _ => sniRound_inl) hdone ?_ hexts hpos
    h).trans ?_
  · intro ext hfits hdata pos rest hroom hdrop
    rw [sniRound_eq hfits hdata hend hroom hdrop]
    constructor
    · intro host hhost
      rw [hhost]
    · intro hnone
      rw [hnone]
  · cases exts.findSome? HelloExtension.host? with
    | none => rfl
    | some host => rfl

theorem alpnExtensionLoop_eq {pos : ℕ}
    (hexts : ∀ ext ∈ exts, ext.ContentFits ∧ ext.data.length < 2 ^ 16)
    (hend : extEnd ≤ handshake.length)
    (hpos : extEnd = pos + (exts.flatMap HelloExtension.toBytes).length)
    (h : handshake.drop pos = exts.flatMap HelloExtension.toBytes ++ rest) :
    alpnExtensionLoop handshake extEnd pos =
      some ((exts.findSome? HelloExtension.offered?).getD []) := by
  have hdone : ∀ pos, extEnd ≤ pos → alpnExtensionRound handshake extEnd pos = some (.inr []) := by
    intro pos hpos
    rw [alpnExtensionRound, if_neg (by omega)]
  refine (extensionWalk_eq HelloExtension.offered? id (fun _ _ => alpnExtensionRound_inl) hdone ?_
    hexts hpos h).trans ?_
  · intro ext hfits hdata pos rest hroom hdrop
    rw [alpnExtensionRound_eq hfits hdata hend hroom hdrop]
    constructor
    · intro protocols hprotocols
      rw [hprotocols]
      rfl
    · intro hnone
      rw [hnone]
  · rw [Option.map_id]
    rfl

end

end

/-! ### Distinct types -/

section
variable {exts : List HelloExtension}

/-- No other extension has names of servers. -/
theorem findSome?_host_of_other (h : ∀ ext ∈ exts, ext.type ≠ 0x0000) :
    exts.findSome? HelloExtension.host? = none := by
  refine List.findSome?_eq_none_iff.mpr fun ext hext => ?_
  cases ext with
  | serverName names => exact absurd rfl (h _ hext)
  | alpn protocols => rfl
  | other type data => rfl

theorem findSome?_offered_of_other (h : ∀ ext ∈ exts, ext.type ≠ 0x0010) :
    exts.findSome? HelloExtension.offered? = none := by
  refine List.findSome?_eq_none_iff.mpr fun ext hext => ?_
  cases ext with
  | serverName names => rfl
  | alpn protocols => exact absurd rfl (h _ hext)
  | other type data => rfl

/-- With distinct types the types behind an extension are others. -/
theorem type_ne_of_nodup {ext : HelloExtension}
    (h : ((ext :: exts).map HelloExtension.type).Nodup) : ∀ e ∈ exts, e.type ≠ ext.type := by
  intro e he heq
  rw [List.map_cons, List.nodup_cons] at h
  exact h.1 (heq ▸ List.mem_map_of_mem he)

theorem findSome?_host_eq (h : (exts.map HelloExtension.type).Nodup) :
    exts.findSome? HelloExtension.host? =
      (exts.findSome? HelloExtension.names?).bind (·.findSome? hostName) := by
  induction exts with
  | nil => rfl
  | cons ext exts ih =>
    have hothers := type_ne_of_nodup h
    rw [List.map_cons, List.nodup_cons] at h
    rw [List.findSome?_cons, List.findSome?_cons]
    cases ext with
    | serverName names =>
      rw [findSome?_host_of_other hothers]
      simp only [HelloExtension.host?, HelloExtension.names?, Option.bind_some]
      cases names.findSome? hostName with
      | none => rfl
      | some host => rfl
    | alpn protocols => exact ih h.2
    | other type data => exact ih h.2

theorem findSome?_offered_eq (h : (exts.map HelloExtension.type).Nodup) :
    (exts.findSome? HelloExtension.offered?).getD [] =
      (exts.findSome? HelloExtension.protocols?).getD [] := by
  induction exts with
  | nil => rfl
  | cons ext exts ih =>
    have hothers := type_ne_of_nodup h
    rw [List.map_cons, List.nodup_cons] at h
    rw [List.findSome?_cons, List.findSome?_cons]
    cases ext with
    | serverName names => exact ih h.2
    | alpn protocols =>
      rw [findSome?_offered_of_other hothers]
      simp only [HelloExtension.offered?, HelloExtension.protocols?]
      by_cases hnil : protocols = []
      · rw [if_pos hnil, hnil]
        rfl
      · rw [if_neg hnil]
    | other type data => exact ih h.2

end

/-! ### The whole hello -/

section
variable {hello : ClientHello}

/-- What stands behind the random. -/
theorem drop_hello (h : hello.WellFormed) : hello.toBytes.drop 43 =
    block 1 hello.sessionId ++ (block 2 hello.cipherSuites ++ (block 1 hello.compressionMethods ++
      (block 2 hello.extensionsBytes ++ []))) := by
  have hfront : hello.toBytes = (tlsRecordHandshake :: hello.recordVersion ++
      beBytes 2 (0x01 :: block 3 hello.body).length ++ 0x01 :: beBytes 3 hello.body.length ++
      hello.version ++ hello.random) ++ (block 1 hello.sessionId ++ (block 2 hello.cipherSuites ++
        (block 1 hello.compressionMethods ++ (block 2 hello.extensionsBytes ++ [])))) := by
    simp only [ClientHello.toBytes, ClientHello.body, block, List.append_assoc, List.cons_append,
      List.append_nil]
  rw [hfront, List.drop_left']
  simp only [List.length_append, List.length_cons, length_beBytes, h.recordVersion, h.version,
    h.random]

/-- The type of the message. -/
theorem type_hello (h : hello.WellFormed) : hello.toBytes[5]? = some 0x01 := by
  have hfront : hello.toBytes = (tlsRecordHandshake :: hello.recordVersion ++
      beBytes 2 (0x01 :: block 3 hello.body).length) ++ 0x01 :: block 3 hello.body := by
    simp only [ClientHello.toBytes, block, List.append_assoc, List.cons_append]
  have hdrop : hello.toBytes.drop 5 = 0x01 :: block 3 hello.body := by
    rw [hfront, List.drop_left']
    simp only [List.length_append, List.length_cons, length_beBytes, h.recordVersion]
  exact byteAt_of_drop hdrop

/-- A block behind one byte of length, at a position. -/
theorem shortBlock_of_drop {bs x rest : List UInt8} {pos : ℕ} (hx : x.length < 2 ^ 8)
    (h : bs.drop pos = block 1 x ++ rest) : ∃ b, bs[pos]? = some b ∧ b.toNat = x.length ∧
      bs.drop (pos + (1 + x.length)) = rest := by
  have hnext := drop_of_drop h
  rw [length_block] at hnext
  exact ⟨UInt8.ofNat x.length, byteAt_of_drop h, UInt8.toNat_ofNat_of_lt hx, hnext⟩

/-- A block behind two bytes of length, at a position. -/
theorem longBlock_of_drop {bs x rest : List UInt8} {pos : ℕ} (hx : x.length < 2 ^ 16)
    (h : bs.drop pos = block 2 x ++ rest) : u16At bs pos = some x.length ∧
      bs.drop (pos + (2 + x.length)) = rest := by
  have hnext := drop_of_drop h
  rw [length_block] at hnext
  exact ⟨(blockLen_of_drop hx h).1, hnext⟩

theorem length_hello (h : hello.WellFormed) : hello.toBytes.length =
    43 + (1 + hello.sessionId.length) + (2 + hello.cipherSuites.length) +
      (1 + hello.compressionMethods.length) + 2 + hello.extensionsBytes.length := by
  have hlen := congrArg List.length (drop_hello h)
  simp only [List.length_drop, List.length_append, length_block, List.length_nil] at hlen
  omega

/-- The walk to the extensions ends in front of them. -/
theorem skipToExtensions_hello (h : hello.WellFormed) :
    ∃ pos, skipToExtensions hello.toBytes = some (some (pos, pos + hello.extensionsBytes.length)) ∧
      pos + hello.extensionsBytes.length ≤ hello.toBytes.length ∧
      hello.toBytes.drop pos = hello.extensionsBytes ++ [] := by
  have hlen := length_hello h
  obtain ⟨sid, hsid, hsidLen, hciphers⟩ := shortBlock_of_drop h.sessionId (drop_hello h)
  obtain ⟨hciphersLen, hcomp⟩ := longBlock_of_drop h.cipherSuites hciphers
  obtain ⟨comp, hcompByte, hcompLen, hexts⟩ := shortBlock_of_drop h.compressionMethods hcomp
  obtain ⟨hextsLen, hdrop⟩ := blockLen_of_drop h.extensions hexts
  refine ⟨_, ?_, ?_, hdrop⟩
  · unfold skipToExtensions
    have hstart : 5 + 4 + (2 + 32) = 43 := rfl
    simp only [hstart, hsid, hsidLen, Option.bind_eq_bind, Option.bind_some, hciphersLen, hcompByte,
      hcompLen, hextsLen, Option.pure_def]
    rw [if_neg (by omega), if_neg (by omega), if_neg (by omega), if_neg (by omega),
      if_neg (by omega)]
  · omega

/-- The first byte of a hello. -/
theorem first_hello : hello.toBytes[0]? = some tlsRecordHandshake := rfl

theorem extractSni_hello (h : hello.WellFormed) :
    extractSniFromClientHello hello.toBytes = some hello.serverName := by
  obtain ⟨pos, hskip, hend, hdrop⟩ := skipToExtensions_hello h
  have hlen := length_hello h
  have hloop := sniLoop_eq h.content hend rfl hdrop
  rw [findSome?_host_eq h.distinct] at hloop
  rw [extractSniFromClientHello, if_neg (by omega)]
  simp only [first_hello, type_hello h, hskip, Option.bind_eq_bind, Option.bind_some, ne_eq,
    not_true_eq_false, if_false]
  exact hloop

theorem extractAlpn_hello (h : hello.WellFormed) :
    extractAlpnFromClientHello hello.toBytes = some hello.protocols := by
  obtain ⟨pos, hskip, hend, hdrop⟩ := skipToExtensions_hello h
  have hloop := alpnExtensionLoop_eq h.content hend rfl hdrop
  rw [findSome?_offered_eq h.distinct] at hloop
  simp only [extractAlpnFromClientHello, type_hello h, hskip, Option.bind_eq_bind, Option.bind_some,
    ne_eq, not_true_eq_false, if_false]
  exact hloop

end

end MtProxy.Protocol
