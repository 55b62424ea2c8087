import MtProxy.Schemes.Loop
import MtProxy.Stream.State
import MtProxy.Stream.TlsRecord

/-! `FakeTlsReader`: strips the TLS records from a byte stream that arrives in arbitrary pieces.

        Idle ──▶ ReadingHeader ──▶ ReadingBody ──data──▶ Yielding ──▶ Idle
          ▲                            │ CCS, empty data
          └────────────────────────────┘          errors ──▶ Poisoned

    `tlsPayload` says what a complete byte stream carries, record by record and with no buffers:
    the ApplicationData bytes up to the first stop, and whether that stop is EOF-like. `owed` is
    what a reader in the middle of its work still has to deliver; every round of `poll_read` keeps
    it, a yield takes its head off, and a stop happens only when nothing is owed any more. -/

namespace MtProxy.Stream
open Schemes

inductive TlsReaderState where
  | idle
  | readingHeader (header : HeaderBuffer tlsHeaderSize)
  | readingBody (recordType : UInt8) (length : ℕ) (buffer : List UInt8)
  | yielding (buffer : YieldBuffer)
  | poisoned (error : Option IoError)

structure FakeTlsReader (R : Type) where
  upstream : R
  state : TlsReaderState

inductive HeaderPollResult where
  | pending
  | eof
  | complete (header : TlsRecordHeader)
  | error (e : IoError)

inductive BodyPollResult where
  | pending
  | complete (data : List UInt8)
  | error (e : IoError)

namespace FakeTlsReader
variable {R : Type}

def new (upstream : R) : FakeTlsReader R := ⟨upstream, .idle⟩

def poison (r : FakeTlsReader R) (error : IoError) : FakeTlsReader R :=
  { r with state := .poisoned (some error) }

/-! ### Header and body -/

variable [AsyncRead R]

/-- One round of `poll_read_header`. -/
def headerStep (s : R × HeaderBuffer tlsHeaderSize) :
    (R × HeaderBuffer tlsHeaderSize) ⊕ (HeaderPollResult × R × HeaderBuffer tlsHeaderSize) :=
  if s.2.isComplete then
    match TlsRecordHeader.parse s.2.filled with
    | some h => .inr (.complete h, s)
    | none => .inr (.error ⟨.invalidData, "failed to parse TLS header"⟩, s)
  else
    match AsyncRead.pollRead s.1 s.2.remaining with
    | (.pending, u) => .inr (.pending, u, s.2)
    | (.ready (.error e), u) => .inr (.error e, u, s.2)
    | (.ready (.ok []), u) =>
      if s.2.filled.isEmpty then .inr (.eof, u, s.2)
      else
        let got := s.2.filled.length
        .inr (.error ⟨.unexpectedEof, s!"unexpected EOF in TLS header (got {got} of 5 bytes)"⟩,
          u, s.2)
    | (.ready (.ok (b :: bs)), u) => .inl (u, s.2.advance (b :: bs))

theorem headerStep_inl {s s' : R × HeaderBuffer tlsHeaderSize} (h : headerStep s = .inl s') :
    ∃ bs, bs ≠ [] ∧ s'.2.filled = s.2.filled ++ bs ∧
      AsyncRead.stream s.1 = bs ++ AsyncRead.stream s'.1 := by
  unfold headerStep at h
  by_cases hc : s.2.isComplete
  · rw [if_pos hc] at h
    split at h <;> cases h
  · rw [if_neg hc] at h
    have hok := AsyncRead.pollRead_ok s.1 s.2.remaining
    have hle := AsyncRead.pollRead_le s.1 s.2.remaining
    rcases hr : AsyncRead.pollRead s.1 s.2.remaining with ⟨_ | (e | (_ | ⟨b, bs⟩)), u⟩ <;>
      rw [hr] at h hok hle
    · cases h
    · cases h
    · simp only at h; split_ifs at h
    · obtain rfl := Sum.inl.inj h
      exact ⟨b :: bs, by simp, s.2.advance_filled (hle _ rfl), hok _ rfl⟩

theorem headerStep_lt {s s' : R × HeaderBuffer tlsHeaderSize} (h : headerStep s = .inl s') :
    s'.2.remaining < s.2.remaining := by
  obtain ⟨bs, hbs, hf, -⟩ := headerStep_inl h
  have hle := s'.2.filled_le
  have hpos := List.length_pos_iff.mpr hbs
  simp only [HeaderBuffer.remaining, hf, List.length_append] at hle ⊢
  omega

/-- `poll_read_header`: read until the header buffer is full. -/
def pollReadHeader (upstream : R) (header : HeaderBuffer tlsHeaderSize) :
    HeaderPollResult × R × HeaderBuffer tlsHeaderSize :=
  loop headerStep (fun s => s.2.remaining) (fun _ _ => headerStep_lt) (upstream, header)

/-- One round of `poll_read_body`: at most 8192 bytes at a time. -/
def bodyStep (targetLen : ℕ) (s : R × List UInt8) :
    (R × List UInt8) ⊕ (BodyPollResult × R × List UInt8) :=
  if targetLen ≤ s.2.length then .inr (.complete s.2, s.1, [])
  else
    match AsyncRead.pollRead s.1 (min (targetLen - s.2.length) 8192) with
    | (.pending, u) => .inr (.pending, u, s.2)
    | (.ready (.error e), u) => .inr (.error e, u, s.2)
    | (.ready (.ok []), u) =>
      let got := s.2.length
      .inr (.error ⟨.unexpectedEof,
        s!"unexpected EOF in TLS body (got {got} of {targetLen} bytes)"⟩, u, s.2)
    | (.ready (.ok (b :: bs)), u) => .inl (u, s.2 ++ b :: bs)

theorem bodyStep_inl {n : ℕ} {s s' : R × List UInt8} (h : bodyStep n s = .inl s') :
    ∃ bs, bs ≠ [] ∧ s'.2 = s.2 ++ bs ∧ s.2.length + bs.length ≤ n ∧
      AsyncRead.stream s.1 = bs ++ AsyncRead.stream s'.1 := by
  unfold bodyStep at h
  split_ifs at h with hc
  have hok := AsyncRead.pollRead_ok s.1 (min (n - s.2.length) 8192)
  have hle := AsyncRead.pollRead_le s.1 (min (n - s.2.length) 8192)
  rcases hr : AsyncRead.pollRead s.1 (min (n - s.2.length) 8192) with
    ⟨_ | (e | (_ | ⟨b, bs⟩)), u⟩ <;> rw [hr] at h hok hle
  · cases h
  · cases h
  · cases h
  · obtain rfl := Sum.inl.inj h
    have := hle _ rfl
    exact ⟨b :: bs, by simp, rfl, by omega, hok _ rfl⟩

theorem bodyStep_lt {n : ℕ} {s s' : R × List UInt8} (h : bodyStep n s = .inl s') :
    n - s'.2.length < n - s.2.length := by
  obtain ⟨bs, hbs, hf, hle, -⟩ := bodyStep_inl h
  have hpos := List.length_pos_iff.mpr hbs
  simp only [hf, List.length_append]
  omega

/-- `poll_read_body`: read until the announced length is there. -/
def pollReadBody (upstream : R) (buffer : List UInt8) (targetLen : ℕ) :
    BodyPollResult × R × List UInt8 :=
  loop (bodyStep targetLen) (fun s => targetLen - s.2.length) (fun _ _ => bodyStep_lt)
    (upstream, buffer)

/-- The upstream failed at some poll; a `ByteSource` never does. -/
def UpstreamFails (R : Type) [AsyncRead R] : Prop :=
  ∃ (r : R) (cap : ℕ) (e : IoError), (AsyncRead.pollRead r cap).1 = .ready (.error e)

/-- What `poll_read_header` reports about `s`, the bytes read so far followed by the stream. -/
def HeaderDone (s : List UInt8) : HeaderPollResult × R × HeaderBuffer tlsHeaderSize → Prop
  | (.pending, u, header) => header.filled ++ AsyncRead.stream u = s
  | (.complete h, u, _) => ∃ hb, hb.length = tlsHeaderSize ∧ TlsRecordHeader.parse hb = some h ∧
      s = hb ++ AsyncRead.stream u
  | (.eof, _, _) => s = []
  | (.error _, _, _) => UpstreamFails R ∨ 0 < s.length ∧ s.length < tlsHeaderSize

theorem headerDone_step {s : R × HeaderBuffer tlsHeaderSize}
    {o : HeaderPollResult × R × HeaderBuffer tlsHeaderSize} (h : headerStep s = .inr o) :
    HeaderDone (s.2.filled ++ AsyncRead.stream s.1) o := by
  have hle := s.2.filled_le
  unfold headerStep at h
  by_cases hc : s.2.isComplete
  · have hlen : s.2.filled.length = tlsHeaderSize := by
      simp only [HeaderBuffer.isComplete, decide_eq_true_eq] at hc
      omega
    obtain ⟨hd, hp⟩ := Option.isSome_iff_exists.mp (TlsRecordHeader.parse_isSome hlen)
    rw [if_pos hc, hp] at h
    obtain rfl := Sum.inr.inj h
    exact ⟨s.2.filled, hlen, hp, rfl⟩
  · have hlt : s.2.filled.length < tlsHeaderSize := by
      simpa [HeaderBuffer.isComplete] using hc
    have hpend := AsyncRead.pollRead_pending s.1 s.2.remaining
    have heof := AsyncRead.pollRead_eof s.1 s.2.remaining
    rw [if_neg hc] at h
    rcases hr : AsyncRead.pollRead s.1 s.2.remaining with ⟨_ | (e | (_ | ⟨b, bs⟩)), u⟩ <;>
      rw [hr] at h hpend heof
    · obtain rfl := Sum.inr.inj h
      exact congrArg (s.2.filled ++ ·) (hpend rfl)
    · obtain rfl := Sum.inr.inj h
      exact Or.inl ⟨s.1, _, e, by rw [hr]⟩
    · have hnil : AsyncRead.stream s.1 = [] := heof rfl (by rw [HeaderBuffer.remaining]; omega)
      rw [hnil, List.append_nil]
      simp only at h
      split_ifs at h with hf
      · obtain rfl := Sum.inr.inj h
        simpa [HeaderDone] using hf
      · obtain rfl := Sum.inr.inj h
        exact Or.inr ⟨List.length_pos_iff.mpr (by simpa using hf), hlt⟩
    · cases h

theorem header_spec (u : R) (header : HeaderBuffer tlsHeaderSize) :
    HeaderDone (header.filled ++ AsyncRead.stream u) (pollReadHeader u header) := by
  refine loop_induct headerStep (fun s => s.2.remaining) _
    (P := fun s o => HeaderDone (s.2.filled ++ AsyncRead.stream s.1) o)
    (fun _ _ => headerDone_step) ?_ (u, header)
  intro s s' o h ih
  obtain ⟨bs, -, hf, hs⟩ := headerStep_inl h
  rwa [hf, List.append_assoc, ← hs] at ih

/-- What `poll_read_body` reports about `s`, the bytes read so far followed by the stream. -/
def BodyDone (n : ℕ) (s : List UInt8) : BodyPollResult × R × List UInt8 → Prop
  | (.pending, u, buffer) => buffer.length ≤ n ∧ buffer ++ AsyncRead.stream u = s
  | (.complete data, u, _) => data.length = n ∧ s = data ++ AsyncRead.stream u
  | (.error _, _, _) => UpstreamFails R ∨ s.length < n

theorem bodyDone_step {n : ℕ} {s : R × List UInt8} {o : BodyPollResult × R × List UInt8}
    (hn : s.2.length ≤ n) (h : bodyStep n s = .inr o) :
    BodyDone n (s.2 ++ AsyncRead.stream s.1) o := by
  unfold bodyStep at h
  split_ifs at h with hc
  · obtain rfl := Sum.inr.inj h
    exact ⟨le_antisymm hn hc, rfl⟩
  · have hpend := AsyncRead.pollRead_pending s.1 (min (n - s.2.length) 8192)
    have heof := AsyncRead.pollRead_eof s.1 (min (n - s.2.length) 8192)
    rcases hr : AsyncRead.pollRead s.1 (min (n - s.2.length) 8192) with
      ⟨_ | (e | (_ | ⟨b, bs⟩)), u⟩ <;> rw [hr] at h hpend heof
    · obtain rfl := Sum.inr.inj h
      exact ⟨hn, congrArg (s.2 ++ ·) (hpend rfl)⟩
    · obtain rfl := Sum.inr.inj h
      exact Or.inl ⟨s.1, _, e, by rw [hr]⟩
    · obtain rfl := Sum.inr.inj h
      rw [heof rfl (by omega), List.append_nil]
      exact Or.inr (by omega)
    · cases h

theorem body_spec {n : ℕ} (u : R) (buffer : List UInt8) (hn : buffer.length ≤ n) :
    BodyDone n (buffer ++ AsyncRead.stream u) (pollReadBody u buffer n) := by
  refine loop_induct (bodyStep n) (fun s => n - s.2.length) _
    (P := fun s o => s.2.length ≤ n → BodyDone n (s.2 ++ AsyncRead.stream s.1) o)
    (fun _ _ h hs => bodyDone_step hs h) ?_ (u, buffer) hn
  intro s s' o h ih hs
  obtain ⟨bs, -, hf, hle, hstream⟩ := bodyStep_inl h
  have := ih (by rw [hf, List.length_append]; exact hle)
  rwa [hf, List.append_assoc, ← hstream] at this

/-! ### One round of `poll_read` -/

/-- What a complete record leads to: skip it, yield it, or stop. -/
def recordDone (upstream : R) (recordType : UInt8) (data : List UInt8) :
    FakeTlsReader R ⊕ (Poll (Except IoError (List UInt8)) × FakeTlsReader R) :=
  if recordType = tlsRecordChangeCipher then .inl ⟨upstream, .idle⟩
  else if recordType = tlsRecordApplication then
    if data.isEmpty then .inl ⟨upstream, .idle⟩
    else .inl ⟨upstream, .yielding (YieldBuffer.new data)⟩
  else if recordType = tlsRecordAlert then .inr (.ready (.ok []), ⟨upstream, .idle⟩)
  else if recordType = tlsRecordHandshake then
    let err : IoError := ⟨.invalidData, "unexpected TLS handshake record"⟩
    .inr (.ready (.error err), ⟨upstream, .poisoned (some err)⟩)
  else
    let t := hexByte recordType
    let err : IoError := ⟨.invalidData, s!"unknown TLS record type: 0x{t}"⟩
    .inr (.ready (.error err), ⟨upstream, .poisoned (some err)⟩)

/-- One round of the loop in `poll_read`, for a caller buffer with room for `cap` bytes. -/
def readStep (cap : ℕ) (r : FakeTlsReader R) :
    FakeTlsReader R ⊕ (Poll (Except IoError (List UInt8)) × FakeTlsReader R) :=
  match r.state with
  | .poisoned error =>
    .inr (.ready (.error (error.getD ⟨.other, "stream previously poisoned"⟩)),
      { r with state := .poisoned none })
  | .yielding buffer =>
    if cap = 0 then .inr (.ready (.ok []), r)
    else
      let (bs, buffer) := buffer.copyTo (min buffer.remaining cap)
      .inr (.ready (.ok bs),
        { r with state := if buffer.isEmpty then .idle else .yielding buffer })
  | .idle =>
    if cap = 0 then .inr (.ready (.ok []), r)
    else .inl { r with state := .readingHeader HeaderBuffer.new }
  | .readingHeader header =>
    match pollReadHeader r.upstream header with
    | (.pending, u, header) => .inr (.pending, ⟨u, .readingHeader header⟩)
    | (.eof, u, _) => .inr (.ready (.ok []), ⟨u, .idle⟩)
    | (.error e, u, _) => .inr (.ready (.error e), poison ⟨u, .idle⟩ e)
    | (.complete parsed, u, _) =>
      match parsed.validate with
      | .error e => .inr (.ready (.error e), poison ⟨u, .idle⟩ e)
      | .ok () => .inl ⟨u, .readingBody parsed.recordType parsed.length.toNat []⟩
  | .readingBody recordType length buffer =>
    match pollReadBody r.upstream buffer length with
    | (.pending, u, buffer) => .inr (.pending, ⟨u, .readingBody recordType length buffer⟩)
    | (.error e, u, _) => .inr (.ready (.error e), poison ⟨u, .idle⟩ e)
    | (.complete data, u, _) => recordDone u recordType data

/-- Bytes at hand in front of the stream, and how far the round is from the next read. -/
def work (r : FakeTlsReader R) : ℕ :=
  match r.state with
  | .readingHeader header => 3 * (header.filled.length + (AsyncRead.stream r.upstream).length)
  | .readingBody .. => 3 * (AsyncRead.stream r.upstream).length + 2
  | _ => 3 * (AsyncRead.stream r.upstream).length + 1

theorem body_stream_le {n : ℕ} {u u' : R} {buffer data rest : List UInt8}
    (h : pollReadBody u buffer n = (.complete data, u', rest)) :
    (AsyncRead.stream u').length ≤ (AsyncRead.stream u).length := by
  have key : ∀ d v b, pollReadBody u buffer n = (.complete d, v, b) →
      (AsyncRead.stream v).length ≤ (AsyncRead.stream u).length := by
    refine loop_induct (bodyStep n) (fun s => n - s.2.length) _
      (P := fun s o => ∀ d v b, o = (.complete d, v, b) →
        (AsyncRead.stream v).length ≤ (AsyncRead.stream s.1).length) ?_ ?_ (u, buffer)
    · rintro s o h d v b rfl
      unfold bodyStep at h
      split_ifs at h with hc
      · cases h; exact le_refl _
      · split at h <;> cases h
    · intro s s' o h ih d v b ho
      obtain ⟨bs, -, -, -, hs⟩ := bodyStep_inl h
      refine le_trans (ih d v b ho) ?_
      rw [hs, List.length_append]
      omega
  exact key data u' rest h

/-- A round that goes on: it starts a header, has one complete, or has a record complete. -/
theorem readStep_inl {cap : ℕ} {r r' : FakeTlsReader R} (h : readStep cap r = .inl r') :
    (r.state = .idle ∧ r' = { r with state := .readingHeader HeaderBuffer.new }) ∨
    (∃ header hd u rest, r.state = .readingHeader header ∧
      pollReadHeader r.upstream header = (.complete hd, u, rest) ∧ hd.validate = .ok () ∧
      r' = ⟨u, .readingBody hd.recordType hd.length.toNat []⟩) ∨
    ∃ t n buffer data u rest, r.state = .readingBody t n buffer ∧
      pollReadBody r.upstream buffer n = (.complete data, u, rest) ∧
      recordDone u t data = .inl r' := by
  unfold readStep at h
  split at h
  · cases h
  · split_ifs at h
  · rename_i hst
    split_ifs at h
    cases h
    exact .inl ⟨hst, rfl⟩
  · rename_i header hst
    rcases hr : pollReadHeader r.upstream header with ⟨_ | _ | hd | e, u, rest⟩ <;>
      rw [hr] at h <;> simp only at h
    · cases h
    · cases h
    · cases hv : hd.validate with
      | error e =>
        rw [hv] at h
        cases h
      | ok x =>
        rw [hv] at h
        cases h
        exact .inr (.inl ⟨header, hd, u, rest, hst, hr, hv, rfl⟩)
    · cases h
  · rename_i t n buffer hst
    rcases hr : pollReadBody r.upstream buffer n with ⟨_ | data | e, u, rest⟩ <;>
      rw [hr] at h <;> simp only at h
    · cases h
    · exact .inr (.inr ⟨t, n, buffer, data, u, rest, hst, hr, h⟩)
    · cases h

theorem readStep_work {cap : ℕ} {r r' : FakeTlsReader R} (h : readStep cap r = .inl r') :
    r'.work < r.work := by
  rcases readStep_inl h with ⟨hst, rfl⟩ | ⟨header, hd, u, rest, hst, hr, -, rfl⟩ |
    ⟨t, n, buffer, data, u, rest, hst, hr, hdone⟩
  · simp [work, hst, HeaderBuffer.new]
  · have hspec := header_spec r.upstream header
    rw [hr] at hspec
    obtain ⟨hb, hlen, -, hs⟩ := hspec
    have hl := congrArg List.length hs
    rw [List.length_append, List.length_append, hlen] at hl
    simp only [tlsHeaderSize] at hl
    simp only [work, hst]
    omega
  · have hle := body_stream_le hr
    unfold recordDone at hdone
    split_ifs at hdone <;> cases hdone <;> simp only [work, hst] <;> omega

/-- `poll_read` into a buffer with room for `cap` bytes: the bytes put there, `[]` being EOF-like
    when there was room. -/
def pollRead (r : FakeTlsReader R) (cap : ℕ) :
    Poll (Except IoError (List UInt8)) × FakeTlsReader R :=
  loop (readStep cap) work (fun _ _ => readStep_work) r

end FakeTlsReader

/-! ### What a byte stream carries -/

/-- How the record stream ends: EOF-like or as an error. -/
inductive Stop where
  | eof
  | error
  deriving DecidableEq

/-- The first record of a byte stream. -/
inductive RecordView where
  | endOfStream
  | truncated
  | invalid
  | record (recordType : UInt8) (body rest : List UInt8)

def recordView (s : List UInt8) : RecordView :=
  match TlsRecordHeader.parse (s.take tlsHeaderSize) with
  | none => if s = [] then .endOfStream else .truncated
  | some h =>
    match h.validate with
    | .error _ => .invalid
    | .ok () =>
      if (s.drop tlsHeaderSize).length < h.length.toNat then .truncated
      else .record h.recordType ((s.drop tlsHeaderSize).take h.length.toNat)
        ((s.drop tlsHeaderSize).drop h.length.toNat)

theorem recordView_lt {s body rest : List UInt8} {t : UInt8}
    (h : recordView s = .record t body rest) : rest.length < s.length := by
  unfold recordView at h
  split at h
  · split_ifs at h
  · rename_i hd hp
    have hlen : tlsHeaderSize ≤ s.length := by
      by_contra hlt
      rw [List.take_of_length_le (by omega)] at hp
      match s, hp with
      | [_, _, _, _, _], _ => simp [tlsHeaderSize] at hlt
    split at h
    · cases h
    · split_ifs at h
      cases h
      simp only [List.length_drop]
      simp only [tlsHeaderSize] at hlen ⊢
      omega

/-- The ApplicationData bytes of a stream up to its first stop, and the kind of that stop. -/
def tlsPayload (s : List UInt8) : List UInt8 × Stop :=
  match _h : recordView s with
  | .endOfStream => ([], .eof)
  | .truncated => ([], .error)
  | .invalid => ([], .error)
  | .record t body rest =>
    if t = tlsRecordChangeCipher then tlsPayload rest
    else if t = tlsRecordApplication then (body ++ (tlsPayload rest).1, (tlsPayload rest).2)
    else if t = tlsRecordAlert then ([], .eof)
    else ([], .error)
termination_by s.length
decreasing_by all_goals exact recordView_lt _h

/-- What is left to deliver once a record of type `t` is complete. -/
def afterRecord (t : UInt8) (body rest : List UInt8) : List UInt8 × Stop :=
  if t = tlsRecordChangeCipher then tlsPayload rest
  else if t = tlsRecordApplication then (body ++ (tlsPayload rest).1, (tlsPayload rest).2)
  else if t = tlsRecordAlert then ([], .eof)
  else ([], .error)

/-- One record at a time. -/
theorem tlsPayload_view (s : List UInt8) :
    tlsPayload s =
      match recordView s with
      | .endOfStream => ([], .eof)
      | .truncated => ([], .error)
      | .invalid => ([], .error)
      | .record t body rest => afterRecord t body rest := by
  rw [tlsPayload]
  split <;> simp_all [afterRecord]

@[simp] theorem tlsPayload_nil : tlsPayload [] = ([], .eof) := by
  rw [tlsPayload_view]
  rfl

theorem parse_short {s : List UInt8} (h : s.length < tlsHeaderSize) :
    TlsRecordHeader.parse (s.take tlsHeaderSize) = none := by
  rw [List.take_of_length_le h.le]
  simp only [tlsHeaderSize] at h
  match s, h with
  | [], _ | [_], _ | [_, _], _ | [_, _, _], _ | [_, _, _, _], _ => rfl

theorem tlsPayload_short {s : List UInt8} (hpos : 0 < s.length) (h : s.length < tlsHeaderSize) :
    tlsPayload s = ([], .error) := by
  have hne : s ≠ [] := List.length_pos_iff.mp hpos
  have hview : recordView s = .truncated := by rw [recordView, parse_short h]; exact if_neg hne
  rw [tlsPayload_view, hview]

theorem recordView_header {hb s : List UInt8} {h : TlsRecordHeader}
    (hlen : hb.length = tlsHeaderSize) (hp : TlsRecordHeader.parse hb = some h) :
    recordView (hb ++ s) =
      match h.validate with
      | .error _ => .invalid
      | .ok () =>
        if s.length < h.length.toNat then .truncated
        else .record h.recordType (s.take h.length.toNat) (s.drop h.length.toNat) := by
  have htake : (hb ++ s).take tlsHeaderSize = hb := by rw [← hlen, List.take_left]
  have hdrop : (hb ++ s).drop tlsHeaderSize = s := by rw [← hlen, List.drop_left]
  rw [recordView, htake, hp, hdrop]

/-- A stream that starts with a rejected header carries nothing and ends as an error. -/
theorem tlsPayload_invalid {hb s : List UInt8} {h : TlsRecordHeader} {e : IoError}
    (hlen : hb.length = tlsHeaderSize) (hp : TlsRecordHeader.parse hb = some h)
    (hv : h.validate = .error e) : tlsPayload (hb ++ s) = ([], .error) := by
  rw [tlsPayload_view, recordView_header hlen hp, hv]

/-- A stream that starts with an accepted header goes on with the body it announces. -/
theorem tlsPayload_header {hb s : List UInt8} {h : TlsRecordHeader}
    (hlen : hb.length = tlsHeaderSize) (hp : TlsRecordHeader.parse hb = some h)
    (hv : h.validate = .ok ()) :
    tlsPayload (hb ++ s) =
      if s.length < h.length.toNat then ([], .error)
      else afterRecord h.recordType (s.take h.length.toNat) (s.drop h.length.toNat) := by
  rw [tlsPayload_view, recordView_header hlen hp, hv]
  by_cases hs : s.length < h.length.toNat
  · simp only [if_pos hs]
  · simp only [if_neg hs]

/-! ### What a reader still has to deliver -/

namespace FakeTlsReader
variable {R : Type} [AsyncRead R]

def owed (r : FakeTlsReader R) : List UInt8 × Stop :=
  match r.state with
  | .idle => tlsPayload (AsyncRead.stream r.upstream)
  | .readingHeader header => tlsPayload (header.filled ++ AsyncRead.stream r.upstream)
  | .readingBody t n buffer =>
    let s := buffer ++ AsyncRead.stream r.upstream
    if s.length < n then ([], .error) else afterRecord t (s.take n) (s.drop n)
  | .yielding buffer =>
    (buffer.asSlice ++ (tlsPayload (AsyncRead.stream r.upstream)).1,
      (tlsPayload (AsyncRead.stream r.upstream)).2)
  | .poisoned _ => ([], .error)

/-- States a reader can be in between two rounds. -/
def Wf (r : FakeTlsReader R) : Prop :=
  match r.state with
  | .readingBody _ n buffer => buffer.length ≤ n
  | .yielding buffer => buffer.asSlice ≠ []
  | _ => True

/-- What a finished poll means for the bytes owed. -/
def Delivered (before : List UInt8 × Stop) :
    Poll (Except IoError (List UInt8)) × FakeTlsReader R → Prop
  | (.pending, r) => r.Wf ∧ r.owed = before
  | (.ready (.ok []), _) => before = ([], .eof)
  | (.ready (.ok (b :: bs)), r) => r.Wf ∧ before = ((b :: bs) ++ r.owed.1, r.owed.2)
  | (.ready (.error _), _) => UpstreamFails R ∨ before = ([], .error)

/-- The branches behind a complete record agree with `afterRecord`. -/
theorem recordDone_inl {u : R} {t : UInt8} {data : List UInt8} {r' : FakeTlsReader R}
    (h : recordDone u t data = .inl r') :
    r'.Wf ∧ r'.owed = afterRecord t data (AsyncRead.stream u) := by
  unfold recordDone at h
  unfold afterRecord
  split_ifs at h ⊢ with hccs happ hempty
  · cases h; exact ⟨trivial, rfl⟩
  · cases h
    have hnil : data = [] := by simpa using hempty
    exact ⟨trivial, by simp [owed, hnil]⟩
  · cases h
    refine ⟨?_, ?_⟩
    · simpa [Wf, YieldBuffer.new, YieldBuffer.asSlice] using hempty
    · simp [owed, YieldBuffer.new, YieldBuffer.asSlice]

theorem recordDone_inr {u : R} {t : UInt8} {data : List UInt8}
    {o : Poll (Except IoError (List UInt8)) × FakeTlsReader R} (h : recordDone u t data = .inr o) :
    Delivered (afterRecord t data (AsyncRead.stream u)) o := by
  unfold recordDone at h
  unfold afterRecord
  split_ifs at h ⊢ <;> cases h
  · rfl
  · exact Or.inr rfl
  · exact Or.inr rfl

/-- A complete body and the stream behind it are what is owed. -/
theorem owed_body {r : FakeTlsReader R} {t : UInt8} {buffer data : List UInt8} {u : R}
    (hst : r.state = .readingBody t data.length buffer)
    (hs : buffer ++ AsyncRead.stream r.upstream = data ++ AsyncRead.stream u) :
    r.owed = afterRecord t data (AsyncRead.stream u) := by
  have hge : ¬ (data ++ AsyncRead.stream u).length < data.length := by
    rw [List.length_append]
    omega
  simp only [owed, hst, hs, if_neg hge]
  rw [List.take_left, List.drop_left]

/-- A round that goes on keeps what is owed. -/
theorem readStep_owed {cap : ℕ} {r r' : FakeTlsReader R} (hwf : r.Wf)
    (h : readStep cap r = .inl r') : r'.Wf ∧ r'.owed = r.owed := by
  rcases readStep_inl h with ⟨hst, rfl⟩ | ⟨header, hd, u, rest, hst, hr, hv, rfl⟩ |
    ⟨t, n, buffer, data, u, rest, hst, hr, hdone⟩
  · exact ⟨trivial, by simp [owed, hst, HeaderBuffer.new]⟩
  · have hspec := header_spec r.upstream header
    rw [hr] at hspec
    obtain ⟨hb, hlen, hp, hs⟩ := hspec
    refine ⟨Nat.zero_le _, ?_⟩
    simp only [owed, hst, hs, List.nil_append]
    exact (tlsPayload_header hlen hp hv).symm
  · have hn : buffer.length ≤ n := by simpa [Wf, hst] using hwf
    have hspec := body_spec r.upstream buffer hn
    rw [hr] at hspec
    obtain ⟨rfl, hs⟩ := hspec
    obtain ⟨hwf', howed⟩ := recordDone_inl hdone
    exact ⟨hwf', howed.trans (owed_body hst hs).symm⟩

/-- A round that finishes the poll delivers the head of what is owed, or nothing is owed. -/
theorem readStep_delivered {cap : ℕ} {r : FakeTlsReader R} (hcap : 0 < cap) (hwf : r.Wf)
    {o : Poll (Except IoError (List UInt8)) × FakeTlsReader R} (h : readStep cap r = .inr o) :
    Delivered r.owed o := by
  unfold readStep at h
  split at h
  · rename_i e hst
    cases h
    simp [Delivered, owed, hst]
  · rename_i buffer hst
    rw [if_neg (by omega)] at h
    have hne : buffer.asSlice ≠ [] := by simpa [Wf, hst] using hwf
    have hsplit := buffer.copyTo_append (min buffer.remaining cap)
    have hfst : (buffer.copyTo (min buffer.remaining cap)).1 ≠ [] := by
      have hpos : 0 < buffer.remaining := by
        rw [← YieldBuffer.length_asSlice]; exact List.length_pos_iff.mpr hne
      rw [YieldBuffer.copyTo, ← List.length_pos_iff, List.length_take, YieldBuffer.length_asSlice]
      omega
    rcases hc : buffer.copyTo (min buffer.remaining cap) with ⟨_ | ⟨b, bs⟩, rest⟩ <;>
      rw [hc] at h hsplit hfst
    · exact absurd rfl hfst
    · cases h
      simp only at hsplit
      by_cases hrest : rest.isEmpty
      · refine ⟨by simp [Wf, hrest], ?_⟩
        rw [rest.isEmpty_iff.mp hrest, List.append_nil] at hsplit
        simp [owed, hst, hrest, ← hsplit]
      · refine ⟨?_, ?_⟩
        · simpa [Wf, hrest] using fun hnil => hrest (rest.isEmpty_iff.mpr hnil)
        · simp [owed, hst, hrest, ← hsplit]
  · rename_i hst
    rw [if_neg (by omega)] at h
    cases h
  · rename_i header hst
    have hspec := header_spec r.upstream header
    rcases hr : pollReadHeader r.upstream header with ⟨_ | _ | hd | e, u, h'⟩ <;>
      rw [hr] at h hspec <;> simp only at h
    · cases h
      exact ⟨trivial, by simp only [owed, hst, show _ = _ from hspec]⟩
    · cases h
      have hnil : header.filled ++ AsyncRead.stream r.upstream = [] := hspec
      simp only [Delivered, owed, hst, hnil, tlsPayload_nil]
    · obtain ⟨hb, hlen, hp, hs⟩ := hspec
      cases hv : hd.validate with
      | error e =>
        rw [hv] at h
        cases h
        refine Or.inr ?_
        simp only [owed, hst, hs]
        exact tlsPayload_invalid hlen hp hv
      | ok x => rw [hv] at h; cases h
    · cases h
      refine hspec.imp_right fun ⟨hpos, hlt⟩ => ?_
      simp only [owed, hst]
      exact tlsPayload_short hpos hlt
  · rename_i t n buffer hst
    have hn : buffer.length ≤ n := by simpa [Wf, hst] using hwf
    have hspec := body_spec r.upstream buffer hn
    rcases hr : pollReadBody r.upstream buffer n with ⟨_ | data | e, u, b⟩ <;>
      rw [hr] at h hspec <;> simp only at h
    · cases h
      obtain ⟨hb, hs⟩ := hspec
      exact ⟨hb, by simp only [owed, hst, hs]⟩
    · obtain ⟨rfl, hs⟩ := hspec
      rw [owed_body hst hs]
      exact recordDone_inr h
    · cases h
      refine hspec.imp_right fun hlt => ?_
      simp only [owed, hst, if_pos hlt]

theorem pollRead_delivered {cap : ℕ} (hcap : 0 < cap) (r : FakeTlsReader R) (hwf : r.Wf) :
    Delivered r.owed (r.pollRead cap) := by
  refine loop_invariant (readStep cap) work _ (I := fun v => v.Wf ∧ v.owed = r.owed)
    ?_ ?_ r ⟨hwf, rfl⟩
  · rintro v v' ⟨hv, hov⟩ h
    obtain ⟨hv', hov'⟩ := readStep_owed hv h
    exact ⟨hv', hov'.trans hov⟩
  · rintro v o ⟨hv, hov⟩ h
    exact hov ▸ readStep_delivered hcap hv h

/-! ### Reading a whole stream -/

/-- A caller reading until the first stop: the bytes it got, how many polls were ready, the stop. -/
structure Progress (R : Type) where
  reader : FakeTlsReader R
  out : List UInt8
  ready : ℕ
  stopped : Option Stop

def Progress.start (upstream : R) : Progress R := ⟨new upstream, [], 0, none⟩

/-- One more poll with a buffer of `cap` bytes; after the first stop the caller polls no more. -/
def Progress.poll (p : Progress R) (cap : ℕ) : Progress R :=
  match p.stopped with
  | some _ => p
  | none =>
    match p.reader.pollRead cap with
    | (.pending, r) => { p with reader := r }
    | (.ready (.ok []), r) => ⟨r, p.out, p.ready + 1, some .eof⟩
    | (.ready (.ok (b :: bs)), r) => ⟨r, p.out ++ b :: bs, p.ready + 1, none⟩
    | (.ready (.error _), r) => ⟨r, p.out, p.ready + 1, some .error⟩

/-- The state of the caller after polls with the given buffer sizes. -/
def readAll (upstream : R) (caps : List ℕ) : Progress R :=
  caps.foldl Progress.poll (Progress.start upstream)

/-- What the caller has, measured against the payload `total` of the stream. -/
def OnTrack (total : List UInt8 × Stop) (p : Progress R) : Prop :=
  match p.stopped with
  | some stop => total = (p.out, stop)
  | none => p.reader.Wf ∧ total = (p.out ++ p.reader.owed.1, p.reader.owed.2) ∧
      p.ready ≤ p.out.length

section
variable {R : Type} [ByteSource R]

theorem not_upstreamFails : ¬ UpstreamFails R := by
  rintro ⟨r, cap, e, h⟩
  exact ByteSource.pollRead_ne_error r cap e h

theorem onTrack_poll {total : List UInt8 × Stop} {p : Progress R} {cap : ℕ} (hcap : 0 < cap)
    (hp : OnTrack total p) : OnTrack total (p.poll cap) := by
  unfold Progress.poll
  cases hs : p.stopped with
  | some stop => exact hp
  | none =>
    simp only [OnTrack, hs] at hp
    obtain ⟨hwf, htotal, hready⟩ := hp
    have hd := pollRead_delivered hcap p.reader hwf
    simp only
    rcases hr : p.reader.pollRead cap with ⟨_ | (e | (_ | ⟨b, bs⟩)), r⟩ <;> rw [hr] at hd
    · obtain ⟨hwf', howed⟩ := hd
      simp only [OnTrack]
      exact ⟨hwf', by rw [howed]; exact htotal, hready⟩
    · have howed : p.reader.owed = ([], .error) := hd.resolve_left not_upstreamFails
      simp only [OnTrack]
      rw [htotal, howed, List.append_nil]
    · have howed : p.reader.owed = ([], .eof) := hd
      simp only [OnTrack]
      rw [htotal, howed, List.append_nil]
    · obtain ⟨hwf', howed⟩ := hd
      simp only [OnTrack]
      refine ⟨hwf', ?_, ?_⟩
      · rw [htotal, howed, List.append_assoc]
      · rw [List.length_append, List.length_cons]; omega

theorem readAll_onTrack (upstream : R) (caps : List ℕ) (hcaps : ∀ c ∈ caps, 0 < c) :
    OnTrack (tlsPayload (AsyncRead.stream upstream)) (readAll upstream caps) := by
  suffices H : ∀ (cs : List ℕ) (p : Progress R), (∀ c ∈ cs, 0 < c) →
      OnTrack (tlsPayload (AsyncRead.stream upstream)) p →
      OnTrack (tlsPayload (AsyncRead.stream upstream)) (cs.foldl Progress.poll p) from
    H caps _ hcaps ⟨trivial, rfl, le_refl _⟩
  intro cs
  induction cs with
  | nil => intro p _ hp; exact hp
  | cons c cs ih =>
    intro p hcs hp
    exact ih _ (fun d hd => hcs d (List.mem_cons_of_mem _ hd)) (onTrack_poll (hcs c (by simp)) hp)

end

end FakeTlsReader

end MtProxy.Stream
