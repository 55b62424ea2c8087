import MtProxy.Schemes.Loop
import MtProxy.Stream.Poll
import MtProxy.Crypto.Ctr

/-! `CryptoWriter`: the AES-CTR writer of `stream/crypto_stream.rs`. Plaintext that is accepted is
    encrypted at once; ciphertext the upstream does not take goes to a bounded pending buffer.

        Idle ──write blocked / short──▶ Flushing ──drained──▶ Idle
          └──────────── upstream error / Ok(0) ────────────▶ Poisoned

    The invariant `Synced` says that the bytes on the wire followed by the pending ciphertext are
    the encryption of what the caller was told was accepted. It is kept by the flush loop, by the
    blocked path and by write-through, hence by every sequence of calls (`run_good`). -/

namespace MtProxy.Stream
open Crypto Schemes

/-! ### Pending ciphertext -/

/-- `PendingCiphertext`: the unsent part is `buf` from `pos` on. -/
structure PendingCiphertext where
  buf : List UInt8
  pos : ℕ
  maxLen : ℕ
  pos_le : pos ≤ buf.length

namespace PendingCiphertext

def new (maxLen : ℕ) : PendingCiphertext := ⟨[], 0, maxLen, le_refl _⟩

def pendingLen (p : PendingCiphertext) : ℕ := p.buf.length - p.pos

def isEmpty (p : PendingCiphertext) : Bool := p.pendingLen == 0

def pendingSlice (p : PendingCiphertext) : List UInt8 := p.buf.drop p.pos

def remainingCapacity (p : PendingCiphertext) : ℕ := p.maxLen - p.pendingLen

def compactConsumedPrefix (p : PendingCiphertext) : PendingCiphertext :=
  if p.pos = 0 then p
  else if p.buf.length ≤ p.pos then ⟨[], 0, p.maxLen, le_refl _⟩
  else ⟨p.buf.drop p.pos, 0, p.maxLen, Nat.zero_le _⟩

def advance (p : PendingCiphertext) (n : ℕ) : PendingCiphertext :=
  let q : PendingCiphertext := ⟨p.buf, min (p.pos + n) p.buf.length, p.maxLen, min_le_right _ _⟩
  if q.pos = q.buf.length then q.compactConsumedPrefix
  else if 16 * 1024 ≤ q.pos then q.compactConsumedPrefix
  else q

/-- `replace_with`: drop what was pending and take `src` instead. -/
def replaceWith (p : PendingCiphertext) (src : List UInt8) : PendingCiphertext :=
  ⟨src, 0, p.maxLen, Nat.zero_le _⟩

/-- `buf.extend_from_slice`. -/
def extendFromSlice (p : PendingCiphertext) (src : List UInt8) : PendingCiphertext :=
  ⟨p.buf ++ src, p.pos, p.maxLen, le_trans p.pos_le (by simp)⟩

/-- `push_encrypted`: append `plaintext` encrypted, or refuse it as a whole. -/
def pushEncrypted (p : PendingCiphertext) (enc : AesCtr) (plaintext : List UInt8) :
    Except IoError (PendingCiphertext × AesCtr) :=
  if plaintext.isEmpty then .ok (p, enc)
  else if p.remainingCapacity < plaintext.length then
    .error ⟨.wouldBlock, "pending ciphertext buffer is full"⟩
  else
    let q := if 0 < p.pos ∧ p.maxLen < p.buf.length + plaintext.length
      then p.compactConsumedPrefix else p
    .ok (q.extendFromSlice (enc.apply plaintext).1, (enc.apply plaintext).2)

@[simp] theorem length_pendingSlice (p : PendingCiphertext) :
    p.pendingSlice.length = p.pendingLen := by simp [pendingSlice, pendingLen]

theorem isEmpty_iff (p : PendingCiphertext) : p.isEmpty = true ↔ p.pendingSlice = [] := by
  rw [isEmpty, beq_iff_eq, ← length_pendingSlice, List.length_eq_zero_iff]

@[simp] theorem compact_slice (p : PendingCiphertext) :
    p.compactConsumedPrefix.pendingSlice = p.pendingSlice := by
  unfold compactConsumedPrefix pendingSlice
  split_ifs with h0 hlen
  · rfl
  · simp [List.drop_eq_nil_of_le hlen]
  · simp

@[simp] theorem compact_maxLen (p : PendingCiphertext) :
    p.compactConsumedPrefix.maxLen = p.maxLen := by
  unfold compactConsumedPrefix
  split_ifs <;> rfl

@[simp] theorem extend_slice (p : PendingCiphertext) (src : List UInt8) :
    (p.extendFromSlice src).pendingSlice = p.pendingSlice ++ src :=
  List.drop_append_of_le_length p.pos_le

@[simp] theorem extend_maxLen (p : PendingCiphertext) (src : List UInt8) :
    (p.extendFromSlice src).maxLen = p.maxLen := rfl

/-- Advancing drops exactly the first `n` pending bytes, whether or not the prefix is compacted. -/
theorem advance_slice (p : PendingCiphertext) (n : ℕ) :
    (p.advance n).pendingSlice = p.pendingSlice.drop n := by
  have hmin : p.buf.drop (min (p.pos + n) p.buf.length) = (p.buf.drop p.pos).drop n := by
    rw [List.drop_drop]
    rcases le_total (p.pos + n) p.buf.length with h | h
    · rw [min_eq_left h]
    · rw [min_eq_right h, List.drop_length, List.drop_eq_nil_of_le h]
  unfold advance
  simp only
  split_ifs
  · rw [compact_slice]; exact hmin
  · rw [compact_slice]; exact hmin
  · exact hmin

@[simp] theorem advance_maxLen (p : PendingCiphertext) (n : ℕ) :
    (p.advance n).maxLen = p.maxLen := by
  unfold advance
  simp only
  split_ifs <;> simp

theorem advance_lt (p : PendingCiphertext) {n : ℕ} (hn : 0 < n) (hp : p.isEmpty = false) :
    (p.advance n).pendingLen < p.pendingLen := by
  have hpos : p.pendingLen ≠ 0 := by simpa [isEmpty] using hp
  rw [← length_pendingSlice, advance_slice, List.length_drop, length_pendingSlice]
  omega

/-- A push that fits appends the encryption of the plaintext and spends that much keystream. -/
theorem pushEncrypted_ok (p : PendingCiphertext) (enc : AesCtr) (plaintext : List UInt8)
    (h : plaintext.length ≤ p.remainingCapacity) :
    ∃ q, p.pushEncrypted enc plaintext = .ok (q, (enc.apply plaintext).2) ∧
      q.pendingSlice = p.pendingSlice ++ (enc.apply plaintext).1 ∧ q.maxLen = p.maxLen := by
  unfold pushEncrypted
  by_cases hnil : plaintext.isEmpty
  · obtain rfl : plaintext = [] := by simpa using hnil
    exact ⟨p, by simp [AesCtr.apply], by simp [AesCtr.apply, xorStream], rfl⟩
  · rw [if_neg hnil, if_neg (by omega)]
    refine ⟨_, rfl, ?_, ?_⟩ <;> split_ifs <;> simp

end PendingCiphertext

/-! ### The writer -/

/-- `DEFAULT_MAX_PENDING_WRITE`. -/
def defaultMaxPendingWrite : ℕ := 64 * 1024

inductive CryptoWriterState where
  | idle
  | flushing (pending : PendingCiphertext)
  | poisoned (error : Option IoError)

structure CryptoWriter (W : Type) where
  upstream : Upstream W
  encryptor : AesCtr
  state : CryptoWriterState
  scratch : List UInt8
  maxPendingWrite : ℕ

namespace CryptoWriter
variable {W : Type}

def new (upstream : W) (encryptor : AesCtr) (maxPendingWrite : ℕ) : CryptoWriter W where
  upstream := ⟨upstream, []⟩
  encryptor := encryptor
  state := .idle
  scratch := []
  maxPendingWrite :=
    max (if maxPendingWrite = 0 then defaultMaxPendingWrite else maxPendingWrite) (4 * 1024)

def isPoisoned (w : CryptoWriter W) : Bool :=
  match w.state with
  | .poisoned _ => true
  | _ => false

def pendingLen (w : CryptoWriter W) : ℕ :=
  match w.state with
  | .flushing pending => pending.pendingLen
  | _ => 0

/-- The ciphertext that was accepted but is not on the wire yet. -/
def pendingBytes (w : CryptoWriter W) : List UInt8 :=
  match w.state with
  | .flushing pending => pending.pendingSlice
  | _ => []

def poison (w : CryptoWriter W) (error : IoError) : CryptoWriter W :=
  { w with state := .poisoned (some error) }

def takePoisonError (w : CryptoWriter W) : IoError × CryptoWriter W :=
  match w.state with
  | .poisoned error =>
    (error.getD ⟨.other, "stream previously poisoned"⟩, { w with state := .poisoned none })
  | _ => (⟨.other, "stream not poisoned"⟩, w)

/-- `ensure_pending`; the source's `unreachable!` arm (a poisoned state) is never reached from
    `poll_write`, which calls it in `Flushing` (`flush_blocked`) and in `Idle` only. -/
def ensurePending (state : CryptoWriterState) (maxPending : ℕ) : PendingCiphertext :=
  match state with
  | .flushing pending => pending
  | _ => PendingCiphertext.new maxPending

def selectToAcceptForBuffering (state : CryptoWriterState) (bufLen maxPending : ℕ) : ℕ :=
  if bufLen = 0 then 0
  else
    match state with
    | .flushing pending => min bufLen pending.remainingCapacity
    | .idle => min bufLen maxPending
    | .poisoned _ => 0

/-- `encrypt_into_scratch`: the scratch buffer becomes the encryption of `plaintext`. -/
def encryptIntoScratch (w : CryptoWriter W) (plaintext : List UInt8) : CryptoWriter W :=
  { w with
    scratch := (w.encryptor.apply plaintext).1
    encryptor := (w.encryptor.apply plaintext).2 }

def writeZero : IoError := ⟨.writeZero, "upstream returned 0 bytes written"⟩

variable [AsyncWrite W]

/-- One round of `poll_flush_pending`. -/
def flushStep (w : CryptoWriter W) :
    CryptoWriter W ⊕ (Poll (Except IoError Unit) × CryptoWriter W) :=
  match w.state with
  | .poisoned _ => .inr (.ready (.error w.takePoisonError.1), w.takePoisonError.2)
  | .idle => .inr (.ready (.ok ()), w)
  | .flushing pending =>
    if pending.isEmpty then .inr (.ready (.ok ()), { w with state := .idle })
    else
      match w.upstream.pollWrite pending.pendingSlice with
      | (.pending, u) => .inr (.pending, { w with upstream := u })
      | (.ready (.error e), u) => .inr (.ready (.error e), { w with upstream := u }.poison e)
      | (.ready (.ok 0), u) =>
        .inr (.ready (.error writeZero), { w with upstream := u }.poison writeZero)
      | (.ready (.ok (n + 1)), u) =>
        .inl { w with upstream := u, state := .flushing (pending.advance (n + 1)) }

/-- What one round does, with the bytes it moves to the wire. -/
theorem flushStep_inl {w w' : CryptoWriter W} (h : w.flushStep = .inl w') :
    ∃ pending n io, w.state = .flushing pending ∧ pending.isEmpty = false ∧ 0 < n ∧
      w' = { w with
        upstream := ⟨io, w.upstream.accepted ++ pending.pendingSlice.take n⟩
        state := .flushing (pending.advance n) } := by
  unfold flushStep at h
  split at h
  · cases h
  · cases h
  · rename_i pending hst
    by_cases he : pending.isEmpty
    · rw [if_pos he] at h; cases h
    · rw [if_neg he] at h
      rcases w.upstream.pollWrite_cases pending.pendingSlice with
        ⟨io, hw⟩ | ⟨e, io, hw⟩ | ⟨n, io, _, hw⟩ <;> rw [hw] at h
      · cases h
      · cases h
      · cases n with
        | zero => cases h
        | succ n =>
          exact ⟨pending, n + 1, io, hst, by simpa using he, Nat.succ_pos n,
            (Sum.inl.inj h).symm⟩

/-- `poll_flush_pending`: hand pending ciphertext to the upstream until it is empty or blocked. -/
def pollFlushPending (w : CryptoWriter W) : Poll (Except IoError Unit) × CryptoWriter W :=
  loop flushStep pendingLen (by
    intro s s' h
    obtain ⟨pending, n, io, hst, he, hn, rfl⟩ := flushStep_inl h
    simpa only [pendingLen, hst] using pending.advance_lt hn he) w

/-- Upstream blocked with ciphertext pending: buffer what still fits. -/
def bufferBlocked (w : CryptoWriter W) (buf : List UInt8) :
    Poll (Except IoError ℕ) × CryptoWriter W :=
  let toAccept := selectToAcceptForBuffering w.state buf.length w.maxPendingWrite
  if toAccept = 0 then (.pending, w)
  else
    match (ensurePending w.state w.maxPendingWrite).pushEncrypted w.encryptor
        (buf.take toAccept) with
    | .error e => if e.kind = .wouldBlock then (.pending, w) else (.ready (.error e), w)
    | .ok (pending, enc) =>
      (.ready (.ok toAccept), { w with state := .flushing pending, encryptor := enc })

/-- Nothing pending: encrypt into scratch and try the upstream, keep what it does not take. -/
def writeThrough (w : CryptoWriter W) (buf : List UInt8) :
    Poll (Except IoError ℕ) × CryptoWriter W :=
  let toAccept := min buf.length w.maxPendingWrite
  let w := w.encryptIntoScratch (buf.take toAccept)
  match w.upstream.pollWrite w.scratch with
  | (.pending, u) =>
    (.ready (.ok toAccept),
      { w with
        upstream := u
        scratch := []
        state := .flushing ((ensurePending w.state w.maxPendingWrite).replaceWith w.scratch) })
  | (.ready (.error e), u) => (.ready (.error e), { w with upstream := u }.poison e)
  | (.ready (.ok 0), u) =>
    (.ready (.error writeZero), { w with upstream := u }.poison writeZero)
  | (.ready (.ok (n + 1)), u) =>
    if n + 1 = w.scratch.length then
      (.ready (.ok toAccept), { w with upstream := u, scratch := [] })
    else
      (.ready (.ok toAccept),
        { w with
          upstream := u
          scratch := []
          state := .flushing
            ((ensurePending w.state w.maxPendingWrite).replaceWith (w.scratch.drop (n + 1))) })

def pollWrite (w : CryptoWriter W) (buf : List UInt8) :
    Poll (Except IoError ℕ) × CryptoWriter W :=
  match w.state with
  | .poisoned _ => (.ready (.error w.takePoisonError.1), w.takePoisonError.2)
  | .idle => if buf.isEmpty then (.ready (.ok 0), w) else w.writeThrough buf
  | .flushing _ =>
    if buf.isEmpty then (.ready (.ok 0), w)
    else
      match w.pollFlushPending with
      | (.ready (.ok ()), w) => w.writeThrough buf
      | (.ready (.error e), w) => (.ready (.error e), w)
      | (.pending, w) => w.bufferBlocked buf

def pollFlush (w : CryptoWriter W) : Poll (Except IoError Unit) × CryptoWriter W :=
  if w.isPoisoned then (.ready (.error w.takePoisonError.1), w.takePoisonError.2)
  else
    match w.pollFlushPending with
    | (.pending, w) => (.pending, w)
    | (.ready (.error e), w) => (.ready (.error e), w)
    | (.ready (.ok ()), w) => (w.upstream.pollFlush.1, { w with upstream := w.upstream.pollFlush.2 })

/-- `poll_shutdown`: flush as far as possible, whatever comes of it, then shut the upstream down. -/
def pollShutdown (w : CryptoWriter W) : Poll (Except IoError Unit) × CryptoWriter W :=
  let w := w.pollFlushPending.2
  (w.upstream.pollShutdown.1, { w with upstream := w.upstream.pollShutdown.2 })

/-! ### The stream invariant -/

/-- The writer is in step with its caller: `plain` is what the caller was told was accepted. -/
structure Synced (ks : ℕ → UInt8) (p₀ : ℕ) (plain : List UInt8) (w : CryptoWriter W) : Prop where
  healthy : w.isPoisoned = false
  keystream : w.encryptor.keystream = ks
  pos : w.encryptor.pos = p₀ + plain.length
  wire : w.upstream.accepted ++ w.pendingBytes = xorStream ks p₀ plain
  bound : w.pendingLen ≤ w.maxPendingWrite
  cap : ∀ pending, w.state = .flushing pending → pending.maxLen = w.maxPendingWrite

section
variable {ks : ℕ → UInt8} {p₀ : ℕ} {plain : List UInt8} {w : CryptoWriter W}

omit [AsyncWrite W] in
theorem synced_new (upstream : W) (enc : AesCtr) (maxPendingWrite : ℕ) :
    Synced enc.keystream enc.pos [] (new upstream enc maxPendingWrite) where
  healthy := rfl
  keystream := rfl
  pos := rfl
  wire := rfl
  bound := Nat.zero_le _
  cap := by intro pending h; cases h

/-- One round of the flush loop moves the head of the pending bytes to the wire. -/
theorem synced_flushStep {w' : CryptoWriter W} (hw : Synced ks p₀ plain w)
    (h : w.flushStep = .inl w') : Synced ks p₀ plain w' ∧ w'.encryptor = w.encryptor := by
  obtain ⟨pending, n, io, hst, -, -, rfl⟩ := flushStep_inl h
  refine ⟨⟨rfl, hw.keystream, hw.pos, ?_, ?_, ?_⟩, rfl⟩
  · have hwire := hw.wire
    simp only [pendingBytes, hst] at hwire
    simp only [pendingBytes]
    rw [PendingCiphertext.advance_slice, List.append_assoc, List.take_append_drop, hwire]
  · have hbound := hw.bound
    simp only [pendingLen, hst] at hbound
    simp only [pendingLen]
    rw [← PendingCiphertext.length_pendingSlice, PendingCiphertext.advance_slice,
      List.length_drop, PendingCiphertext.length_pendingSlice]
    omega
  · intro p hp
    obtain rfl := CryptoWriterState.flushing.inj hp
    rw [PendingCiphertext.advance_maxLen]
    exact hw.cap pending hst

/-- What a flush leaves behind: everything sent, still blocked, or a dead stream. -/
def Flushed (ks : ℕ → UInt8) (p₀ : ℕ) (plain : List UInt8) (enc : AesCtr) :
    Poll (Except IoError Unit) × CryptoWriter W → Prop
  | (.ready (.ok _), w) => Synced ks p₀ plain w ∧ w.encryptor = enc ∧ w.state = .idle
  | (.pending, w) =>
    Synced ks p₀ plain w ∧ w.encryptor = enc ∧ ∃ pending, w.state = .flushing pending
  | (.ready (.error _), w) => w.isPoisoned = true ∧ w.encryptor = enc

theorem flushed_done {r : Poll (Except IoError Unit) × CryptoWriter W}
    (hw : Synced ks p₀ plain w) (h : w.flushStep = .inr r) :
    Flushed ks p₀ plain w.encryptor r := by
  unfold flushStep at h
  split at h
  · rename_i e hst
    exact absurd hw.healthy (by simp [isPoisoned, hst])
  · rename_i hst
    obtain rfl := Sum.inr.inj h
    exact ⟨hw, rfl, hst⟩
  · rename_i pending hst
    by_cases he : pending.isEmpty
    · rw [if_pos he] at h
      obtain rfl := Sum.inr.inj h
      have hwire := hw.wire
      simp only [pendingBytes, hst, pending.isEmpty_iff.mp he] at hwire
      exact ⟨⟨rfl, hw.keystream, hw.pos, hwire, Nat.zero_le _, by intro p hp; cases hp⟩, rfl, rfl⟩
    · rw [if_neg he] at h
      rcases w.upstream.pollWrite_cases pending.pendingSlice with
        ⟨io, hp⟩ | ⟨e, io, hp⟩ | ⟨n, io, _, hp⟩ <;> rw [hp] at h
      · obtain rfl := Sum.inr.inj h
        exact ⟨⟨hw.healthy, hw.keystream, hw.pos, hw.wire, hw.bound, hw.cap⟩, rfl, pending, hst⟩
      · obtain rfl := Sum.inr.inj h
        exact ⟨rfl, rfl⟩
      · cases n with
        | zero => obtain rfl := Sum.inr.inj h; exact ⟨rfl, rfl⟩
        | succ n => cases h

theorem flush_spec (hw : Synced ks p₀ plain w) :
    Flushed ks p₀ plain w.encryptor w.pollFlushPending := by
  refine loop_invariant flushStep pendingLen _
    (I := fun v => Synced ks p₀ plain v ∧ v.encryptor = w.encryptor) ?_ ?_ w ⟨hw, rfl⟩
  · rintro v v' ⟨hv, henc⟩ hstep
    obtain ⟨hv', henc'⟩ := synced_flushStep hv hstep
    exact ⟨hv', henc'.trans henc⟩
  · rintro v r ⟨hv, henc⟩ hstep
    exact henc ▸ flushed_done hv hstep

/-- What a write leaves behind: the reported prefix is accepted, nothing is, or a dead stream. -/
def Wrote (ks : ℕ → UInt8) (p₀ : ℕ) (plain buf : List UInt8) (enc : AesCtr) :
    Poll (Except IoError ℕ) × CryptoWriter W → Prop
  | (.ready (.ok n), w) => Synced ks p₀ (plain ++ buf.take n) w
  | (.pending, w) => Synced ks p₀ plain w ∧ w.encryptor = enc
  | (.ready (.error _), w) => w.isPoisoned = true

omit [AsyncWrite W] in
/-- Encrypting the next `t` bytes of `buf` continues the ciphertext of `plain`. -/
theorem wire_append (buf : List UInt8) (t : ℕ) (hw : Synced ks p₀ plain w) :
    w.upstream.accepted ++ (w.pendingBytes ++ (w.encryptor.apply (buf.take t)).1) =
      xorStream ks p₀ (plain ++ buf.take t) := by
  rw [xorStream_append, ← hw.wire, AesCtr.apply, hw.keystream, hw.pos, List.append_assoc]

omit [AsyncWrite W] in
theorem pos_append (buf : List UInt8) (t : ℕ) (hw : Synced ks p₀ plain w) :
    (w.encryptor.apply (buf.take t)).2.pos = p₀ + (plain ++ buf.take t).length := by
  rw [AesCtr.apply, List.length_append, hw.pos, Nat.add_assoc]

omit [AsyncWrite W] in
theorem bufferBlocked_spec (buf : List UInt8) {pending : PendingCiphertext}
    (hw : Synced ks p₀ plain w) (hst : w.state = .flushing pending) :
    Wrote ks p₀ plain buf w.encryptor (w.bufferBlocked buf) := by
  unfold bufferBlocked
  set t := selectToAcceptForBuffering w.state buf.length w.maxPendingWrite with ht
  by_cases h0 : t = 0
  · simp only [h0, if_true]
    exact ⟨hw, rfl⟩
  · have hcap : (buf.take t).length ≤ pending.remainingCapacity := by
      rw [List.length_take]
      simp only [selectToAcceptForBuffering, hst] at ht
      split_ifs at ht with hb
      · exact absurd ht h0
      · omega
    obtain ⟨q, hq, hslice, hmax⟩ := pending.pushEncrypted_ok w.encryptor _ hcap
    have hcapEq := hw.cap pending hst
    simp only [if_neg h0, ensurePending, hst, hq]
    refine ⟨rfl, ?_, pos_append buf t hw, ?_, ?_, ?_⟩
    · exact hw.keystream
    · have := wire_append buf t hw
      simp only [pendingBytes, hst] at this
      simp only [pendingBytes, hslice, this]
    · have hbound := hw.bound
      simp only [pendingLen, hst] at hbound
      rw [PendingCiphertext.remainingCapacity, hcapEq] at hcap
      simp only [pendingLen]
      rw [← PendingCiphertext.length_pendingSlice, hslice, List.length_append, AesCtr.apply,
        length_xorStream, PendingCiphertext.length_pendingSlice]
      omega
    · intro p hp
      obtain rfl := CryptoWriterState.flushing.inj hp
      exact hmax.trans hcapEq

theorem writeThrough_spec (buf : List UInt8) (hw : Synced ks p₀ plain w) (hst : w.state = .idle) :
    Wrote ks p₀ plain buf w.encryptor (w.writeThrough buf) := by
  unfold writeThrough
  set t := min buf.length w.maxPendingWrite with ht
  set c := (w.encryptor.apply (buf.take t)).1 with hc
  have hlen : c.length ≤ w.maxPendingWrite := by
    rw [hc, AesCtr.apply, length_xorStream, List.length_take]
    omega
  have hwire : w.upstream.accepted ++ c = xorStream ks p₀ (plain ++ buf.take t) := by
    have := wire_append buf t hw
    simpa only [pendingBytes, hst, List.nil_append] using this
  -- whatever part of the ciphertext is kept, the writer is in step if the rest is on the wire
  have keep : ∀ (io : W) (k : ℕ), Synced ks p₀ (plain ++ buf.take t)
      { w with
        encryptor := (w.encryptor.apply (buf.take t)).2
        upstream := ⟨io, w.upstream.accepted ++ c.take k⟩
        scratch := []
        state := .flushing ((PendingCiphertext.new w.maxPendingWrite).replaceWith (c.drop k)) } := by
    intro io k
    refine ⟨rfl, hw.keystream, pos_append buf t hw, ?_, ?_, ?_⟩
    · show (w.upstream.accepted ++ c.take k) ++ (c.drop k).drop 0 = _
      rw [List.drop_zero, List.append_assoc, List.take_append_drop, hwire]
    · show (c.drop k).length - 0 ≤ w.maxPendingWrite
      rw [List.length_drop]; omega
    · intro p hp
      obtain rfl := CryptoWriterState.flushing.inj hp
      rfl
  simp only [encryptIntoScratch, ← hc, ensurePending, hst]
  rcases w.upstream.pollWrite_cases c with ⟨io, hp⟩ | ⟨e, io, hp⟩ | ⟨n, io, hn, hp⟩ <;>
    simp only [hp]
  · have := keep io 0
    rwa [List.take_zero, List.append_nil, List.drop_zero] at this
  · rfl
  · cases n with
    | zero => rfl
    | succ n =>
      by_cases hfull : n + 1 = c.length
      · simp only [if_pos hfull]
        refine ⟨rfl, hw.keystream, pos_append buf t hw, ?_, Nat.zero_le _, ?_⟩
        · simp only [pendingBytes]
          rw [List.append_nil, List.take_of_length_le hfull.ge, hwire]
        · intro p hp; cases hp
      · simp only [if_neg hfull]
        exact keep io (n + 1)

theorem pollWrite_spec (buf : List UInt8) (hw : Synced ks p₀ plain w) :
    Wrote ks p₀ plain buf w.encryptor (w.pollWrite buf) := by
  have hempty : buf.isEmpty = true → Synced ks p₀ (plain ++ buf.take 0) w := by
    intro _; simpa using hw
  unfold pollWrite
  split
  · rename_i e hst
    exact absurd hw.healthy (by simp [isPoisoned, hst])
  · rename_i hst
    split_ifs with hb
    · exact hempty hb
    · exact writeThrough_spec buf hw hst
  · rename_i p hst
    split_ifs with hb
    · exact hempty hb
    · have hf := flush_spec hw
      rcases hr : w.pollFlushPending with ⟨_ | (e | u), v⟩ <;> rw [hr] at hf
      · obtain ⟨hv, henc, pending, hvst⟩ := hf
        exact henc ▸ bufferBlocked_spec buf hv hvst
      · exact hf.1
      · obtain ⟨hv, henc, hvst⟩ := hf
        exact henc ▸ writeThrough_spec buf hv hvst

/-- A flush of the whole stream: no keystream is spent, and `Ok` leaves nothing pending. -/
theorem pollFlush_spec (hw : Synced ks p₀ plain w) :
    w.pollFlush.2.encryptor = w.encryptor ∧
    (∀ u, w.pollFlush.1 = .ready (.ok u) → w.pollFlush.2.pendingBytes = []) ∧
    (w.pollFlush.2.isPoisoned = true ∨ Synced ks p₀ plain w.pollFlush.2) := by
  have hf := flush_spec hw
  unfold pollFlush
  rw [if_neg (by simp [hw.healthy])]
  rcases hr : w.pollFlushPending with ⟨_ | (e | u), v⟩ <;> rw [hr] at hf <;> simp only
  · exact ⟨hf.2.1, fun _ h => (by cases h), Or.inr hf.1⟩
  · exact ⟨hf.2, fun _ h => (by cases h), Or.inl hf.1⟩
  · obtain ⟨hv, henc, hvst⟩ := hf
    refine ⟨henc, fun _ _ => by simp [pendingBytes, hvst], Or.inr ?_⟩
    exact ⟨hv.healthy, hv.keystream, hv.pos, hv.wire, hv.bound, hv.cap⟩

theorem pollShutdown_spec (hw : Synced ks p₀ plain w) :
    w.pollShutdown.2.encryptor = w.encryptor ∧
    (w.pollShutdown.2.isPoisoned = true ∨ Synced ks p₀ plain w.pollShutdown.2) := by
  have hf := flush_spec hw
  have keep : ∀ {v : CryptoWriter W}, Synced ks p₀ plain v →
      Synced ks p₀ plain { v with upstream := v.upstream.pollShutdown.2 } := fun hv =>
    ⟨hv.healthy, hv.keystream, hv.pos, hv.wire, hv.bound, hv.cap⟩
  unfold pollShutdown
  rcases hr : w.pollFlushPending with ⟨_ | (e | u), v⟩ <;> rw [hr] at hf
  · exact ⟨hf.2.1, Or.inr (keep hf.1)⟩
  · exact ⟨hf.2, Or.inl hf.1⟩
  · exact ⟨hf.2.1, Or.inr (keep hf.1)⟩

end

/-! ### Whole sessions -/

/-- One call of the writer's owner. -/
inductive Call where
  | write (buf : List UInt8)
  | flush
  | shutdown

/-- The answer to a call. -/
inductive Reply where
  | write (r : Poll (Except IoError ℕ))
  | flush (r : Poll (Except IoError Unit))
  | shutdown (r : Poll (Except IoError Unit))

def call (w : CryptoWriter W) : Call → Reply × CryptoWriter W
  | .write buf => (.write (w.pollWrite buf).1, (w.pollWrite buf).2)
  | .flush => (.flush w.pollFlush.1, w.pollFlush.2)
  | .shutdown => (.shutdown w.pollShutdown.1, w.pollShutdown.2)

/-- The call came back `Pending`. -/
def Reply.IsPending : Reply → Prop
  | .write r => r = .pending
  | .flush r => r = .pending
  | .shutdown r => r = .pending

/-- The plaintext the owner knows to be accepted by a call: the first `n` bytes for `Ok(n)`. -/
def Call.accepted : Call → Reply → List UInt8
  | .write buf, .write (.ready (.ok n)) => buf.take n
  | _, _ => []

/-- A writer and everything its owner was told was accepted. -/
structure Session (W : Type) where
  writer : CryptoWriter W
  plain : List UInt8

def Session.next (s : Session W) (c : Call) : Session W :=
  ⟨(s.writer.call c).2, s.plain ++ c.accepted (s.writer.call c).1⟩

/-- The session after a sequence of calls on a new writer. -/
def session (upstream : W) (enc : AesCtr) (maxPendingWrite : ℕ) (calls : List Call) : Session W :=
  calls.foldl Session.next ⟨new upstream enc maxPendingWrite, []⟩

/-! ### Poisoned writers -/

/-- Flushing a poisoned writer only hands out the stored error. -/
theorem flush_poisoned {w : CryptoWriter W} (h : w.isPoisoned = true) :
    w.pollFlushPending = (.ready (.error w.takePoisonError.1), w.takePoisonError.2) := by
  refine loop_inr flushStep pendingLen _ ?_
  unfold flushStep
  unfold isPoisoned at h
  split at h
  · rename_i e hst; rw [hst]
  · cases h

omit [AsyncWrite W] in
theorem takePoisonError_state {w : CryptoWriter W} (h : w.isPoisoned = true) :
    w.takePoisonError.2 = { w with state := .poisoned none } := by
  unfold isPoisoned at h
  unfold takePoisonError
  split at h
  · rfl
  · cases h

theorem pollWrite_poisoned {w : CryptoWriter W} (h : w.isPoisoned = true) (buf : List UInt8) :
    w.pollWrite buf = (.ready (.error w.takePoisonError.1), w.takePoisonError.2) := by
  unfold isPoisoned at h
  unfold pollWrite
  split at h
  · rename_i e hst; rw [hst]
  · cases h

/-- A poisoned writer stays poisoned, accepts nothing, and never flushes successfully. -/
theorem call_poisoned {w : CryptoWriter W} (h : w.isPoisoned = true) (c : Call) :
    (w.call c).2.isPoisoned = true ∧ (w.call c).2.encryptor = w.encryptor ∧
      c.accepted (w.call c).1 = [] ∧ ∀ u, (w.call c).1 ≠ .flush (.ready (.ok u)) := by
  have htake := takePoisonError_state h
  cases c with
  | write buf => simp [call, pollWrite_poisoned h, htake, isPoisoned, Call.accepted]
  | flush =>
    have hw : w.pollFlush = (.ready (.error w.takePoisonError.1), w.takePoisonError.2) := by
      rw [pollFlush, if_pos h]
    simp [call, hw, htake, isPoisoned, Call.accepted]
  | shutdown =>
    simp [call, pollShutdown, flush_poisoned h, htake, isPoisoned, Call.accepted]

/-! ### Every reachable state -/

/-- In step with the caller, or dead. -/
def Good (ks : ℕ → UInt8) (p₀ : ℕ) (s : Session W) : Prop :=
  s.writer.isPoisoned = true ∨ Synced ks p₀ s.plain s.writer

theorem good_next {ks : ℕ → UInt8} {p₀ : ℕ} {s : Session W} (hs : Good ks p₀ s) (c : Call) :
    Good ks p₀ (s.next c) := by
  rcases hs with hp | hw
  · exact Or.inl (call_poisoned hp c).1
  · cases c with
    | write buf =>
      have h := pollWrite_spec buf hw
      simp only [Good, Session.next, call]
      rcases hr : s.writer.pollWrite buf with ⟨_ | (e | n), v⟩ <;> rw [hr] at h
      · exact Or.inr (by simpa [Call.accepted] using h.1)
      · exact Or.inl h
      · exact Or.inr h
    | flush => simpa [Good, Session.next, call, Call.accepted] using (pollFlush_spec hw).2.2
    | shutdown => simpa [Good, Session.next, call, Call.accepted] using (pollShutdown_spec hw).2

theorem run_good (upstream : W) (enc : AesCtr) (maxPendingWrite : ℕ) (calls : List Call) :
    Good enc.keystream enc.pos (session upstream enc maxPendingWrite calls) := by
  suffices H : ∀ (cs : List Call) (s : Session W), Good enc.keystream enc.pos s →
      Good enc.keystream enc.pos (cs.foldl Session.next s) from
    H calls _ (Or.inr (synced_new upstream enc maxPendingWrite))
  intro cs
  induction cs with
  | nil => intro s hs; exact hs
  | cons c cs ih => intro s hs; exact ih _ (good_next hs c)

/-- A call that comes back `Pending` accepts nothing and leaves the keystream where it is. -/
theorem pending_accepts_nothing {ks : ℕ → UInt8} {p₀ : ℕ} {s : Session W} (hs : Good ks p₀ s)
    (c : Call) (h : (s.writer.call c).1.IsPending) :
    c.accepted (s.writer.call c).1 = [] ∧ (s.writer.call c).2.encryptor = s.writer.encryptor := by
  rcases hs with hp | hw
  · exact ⟨(call_poisoned hp c).2.2.1, (call_poisoned hp c).2.1⟩
  · cases c with
    | write buf =>
      have hspec := pollWrite_spec buf hw
      simp only [call, Reply.IsPending] at h ⊢
      rcases hr : s.writer.pollWrite buf with ⟨_ | (e | n), v⟩ <;> rw [hr] at h hspec
      · exact ⟨rfl, hspec.2⟩
      · cases h
      · cases h
    | flush => exact ⟨rfl, (pollFlush_spec hw).1⟩
    | shutdown => exact ⟨rfl, (pollShutdown_spec hw).1⟩

/-- In every state a sequence of calls can reach: unless the writer is poisoned, the bytes on the
    wire followed by the pending ciphertext are the keystream XOR the accepted plaintext; the
    pending part is bounded; `Pending` accepts nothing; a flush that succeeds leaves nothing. -/
theorem wire_is_encryption (upstream : W) (enc : AesCtr) (maxPendingWrite : ℕ)
    (calls : List Call) :
    let s := session upstream enc maxPendingWrite calls
    (s.writer.isPoisoned = false → s.writer.upstream.accepted ++ s.writer.pendingBytes =
      xorStream enc.keystream enc.pos s.plain) ∧
    s.writer.pendingLen ≤ s.writer.maxPendingWrite ∧
    (∀ c, (s.writer.call c).1.IsPending → c.accepted (s.writer.call c).1 = [] ∧
      (s.writer.call c).2.encryptor = s.writer.encryptor) ∧
    (∀ u, (s.writer.call .flush).1 = .flush (.ready (.ok u)) →
      (s.writer.call .flush).2.pendingBytes = []) := by
  intro s
  have hs : Good enc.keystream enc.pos s := run_good upstream enc maxPendingWrite calls
  refine ⟨?_, ?_, fun c => pending_accepts_nothing hs c, ?_⟩
  · intro hp
    rcases hs with h | hw
    · exact absurd h (by simp [hp])
    · exact hw.wire
  · rcases hs with h | hw
    · unfold isPoisoned at h
      unfold pendingLen
      split at h
      · rename_i e hst; simp [hst]
      · cases h
    · exact hw.bound
  · intro u hu
    rcases hs with h | hw
    · exact absurd hu ((call_poisoned h .flush).2.2.2 u)
    · exact (pollFlush_spec hw).2.1 u (Reply.flush.inj hu)

/-- A short write: two bytes reach the wire, the third stays pending and the caller is told 3. -/
example :
    let s := session (W := ScriptedWriter) ⟨[.ready (.ok 2)]⟩ ⟨fun _ => 255, 0⟩ 0 [.write [1, 2, 3]]
    (s.writer.upstream.accepted, s.writer.pendingBytes, s.plain) =
      ([254, 253], [252], [1, 2, 3]) := by decide

/-! ### What reached the wire -/

section
variable {ks : ℕ → UInt8} {p₀ : ℕ} {plain : List UInt8} {w : CryptoWriter W}

theorem flushStep_accepted {r : Poll (Except IoError Unit) × CryptoWriter W}
    (h : w.flushStep = .inr r) : r.2.upstream.accepted = w.upstream.accepted := by
  rw [flushStep] at h
  split at h
  · next e hst =>
    cases h
    rw [takePoisonError_state (by rw [isPoisoned, hst])]
  · cases h
    rfl
  · next pending hst =>
    split at h
    · cases h
      rfl
    · rcases w.upstream.pollWrite_cases pending.pendingSlice with
        ⟨io, hw⟩ | ⟨e, io, hw⟩ | ⟨n, io, -, hw⟩ <;> rw [hw] at h
      · cases h
        rfl
      · cases h
        rfl
      · cases n with
        | zero =>
          cases h
          exact List.append_nil _
        | succ n => cases h

omit [AsyncWrite W] in
theorem Synced.accepted_isPrefix (hw : Synced ks p₀ plain w) :
    w.upstream.accepted <+: xorStream ks p₀ plain := ⟨w.pendingBytes, hw.wire⟩

theorem flush_accepted (hw : Synced ks p₀ plain w) :
    w.pollFlushPending.2.upstream.accepted <+: xorStream ks p₀ plain := by
  refine loop_invariant flushStep pendingLen _ (I := fun v => Synced ks p₀ plain v)
    (Q := fun r => r.2.upstream.accepted <+: xorStream ks p₀ plain) ?_ ?_ w hw
  · intro v v' hv hstep
    exact (synced_flushStep hv hstep).1
  · intro v r hv hstep
    rw [flushStep_accepted hstep]
    exact hv.accepted_isPrefix

/-- A write through that fails has put nothing on the wire. -/
theorem writeThrough_error {buf : List UInt8} {e : IoError}
    (h : (w.writeThrough buf).1 = .ready (.error e)) :
    (w.writeThrough buf).2.upstream.accepted = w.upstream.accepted := by
  revert h
  rw [writeThrough]
  rcases w.upstream.pollWrite_cases (w.encryptIntoScratch
    (buf.take (min buf.length w.maxPendingWrite))).scratch with
    ⟨io, hw⟩ | ⟨e, io, hw⟩ | ⟨n, io, -, hw⟩ <;> rw [encryptIntoScratch] at hw ⊢ <;> rw [hw]
  · intro h
    cases h
  · intro _
    rfl
  · cases n with
    | zero =>
      intro _
      exact List.append_nil _
    | succ n =>
      intro h
      simp only at h
      split at h <;> cases h

omit [AsyncWrite W] in
theorem bufferBlocked_upstream (buf : List UInt8) :
    (w.bufferBlocked buf).2.upstream = w.upstream := by
  rw [bufferBlocked]
  split
  · rfl
  · split
    · split <;> rfl
    · rfl

theorem pollWrite_error (hw : Synced ks p₀ plain w) (buf : List UInt8) (e : IoError)
    (h : (w.pollWrite buf).1 = .ready (.error e)) :
    (w.pollWrite buf).2.upstream.accepted <+: xorStream ks p₀ plain := by
  have hflushed := flush_accepted hw
  revert h
  rw [pollWrite]
  split
  · next e hst => exact absurd hw.healthy (by simp [isPoisoned, hst])
  · split
    · exact fun _ => hw.accepted_isPrefix
    · intro h
      rw [writeThrough_error h]
      exact hw.accepted_isPrefix
  · split
    · exact fun _ => hw.accepted_isPrefix
    · rcases hr : w.pollFlushPending with ⟨_ | (e | u), v⟩ <;> rw [hr] at hflushed
      · intro _
        simp only
        rw [bufferBlocked_upstream]
        exact hflushed
      · exact fun _ => hflushed
      · intro h
        simp only at h ⊢
        rw [writeThrough_error h]
        exact hflushed

theorem pollFlush_accepted (hw : Synced ks p₀ plain w) :
    w.pollFlush.2.upstream.accepted <+: xorStream ks p₀ plain := by
  have hflushed := flush_accepted hw
  rw [pollFlush, if_neg (by simp [hw.healthy])]
  rcases hr : w.pollFlushPending with ⟨_ | (e | u), v⟩ <;> rw [hr] at hflushed <;> exact hflushed

theorem call_poisoned_accepted (h : w.isPoisoned = true) (c : Call) :
    (w.call c).2.upstream.accepted = w.upstream.accepted := by
  have htake := takePoisonError_state h
  cases c with
  | write buf => rw [call, pollWrite_poisoned h, htake]
  | flush => rw [call, pollFlush, if_pos h, htake]
  | shutdown => rw [call, pollShutdown, flush_poisoned h, Upstream.pollShutdown_accepted, htake]

theorem accepted_next {s : Session W} (hs : Good ks p₀ s)
    (h : s.writer.upstream.accepted <+: xorStream ks p₀ s.plain) (c : Call) :
    (s.next c).writer.upstream.accepted <+: xorStream ks p₀ (s.next c).plain := by
  rcases hs with hp | hw
  · rw [Session.next, call_poisoned_accepted hp, (call_poisoned hp c).2.2.1, List.append_nil]
    exact h
  · cases c with
    | write buf =>
      have hspec := pollWrite_spec buf hw
      have herror := pollWrite_error hw buf
      rw [Session.next, call]
      rcases hr : s.writer.pollWrite buf with ⟨_ | (e | n), v⟩ <;> rw [hr] at hspec herror
      · simpa [Call.accepted] using hspec.1.accepted_isPrefix
      · simpa [Call.accepted] using herror e rfl
      · exact hspec.accepted_isPrefix
    | flush => simpa [Session.next, call, Call.accepted] using pollFlush_accepted hw
    | shutdown =>
      simpa [Session.next, call, Call.accepted, pollShutdown] using flush_accepted hw

/-- Whatever became of the writer, the wire has a beginning of the encryption of what was accepted. -/
theorem session_accepted (upstream : W) (enc : AesCtr) (maxPendingWrite : ℕ) (calls : List Call) :
    let s := session upstream enc maxPendingWrite calls
    s.writer.upstream.accepted <+: xorStream enc.keystream enc.pos s.plain := by
  induction calls using List.reverseRecOn with
  | nil => exact List.nil_prefix
  | append_singleton calls c ih =>
    rw [session, List.foldl_append]
    exact accepted_next (run_good upstream enc maxPendingWrite calls) ih c

end

end CryptoWriter

end MtProxy.Stream
