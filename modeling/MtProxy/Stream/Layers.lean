import MtProxy.Stream.CryptoReader
import MtProxy.Stream.CryptoWriter
import MtProxy.Stream.TlsRoundTrip

/-! The wrappers on top of one another. A client behind TLS is read by a `CryptoReader` over a
    `FakeTlsReader`, and written to by a `CryptoWriter` over a `FakeTlsWriter`.

        plain ◀── CryptoReader ◀── payload ◀── FakeTlsReader ◀── records
        plain ──▶ CryptoWriter ──▶ chunks  ──▶ FakeTlsWriter ──▶ records

    The two in the middle are byte streams themselves: what is left of the payload is a stream to read,
    and the chunks are what a sink has accepted. -/

namespace MtProxy.Stream
open Crypto Schemes

/-! ### A record stream as a source of bytes -/

namespace FakeTlsReader
variable {R : Type} [AsyncRead R]

theorem readStep_le {cap : ℕ} {r : FakeTlsReader R}
    {o : Poll (Except IoError (List UInt8)) × FakeTlsReader R} (h : readStep cap r = .inr o)
    (bs : List UInt8) (hbs : o.1 = .ready (.ok bs)) : bs.length ≤ cap := by
  unfold readStep at h
  split at h
  · cases h
    cases hbs
  · rename_i buffer hst
    split at h
    · cases h
      cases hbs
      exact Nat.zero_le _
    · cases h
      cases hbs
      exact (List.length_take_le _ _).trans (min_le_right _ _)
  · split at h
    · cases h
      cases hbs
      exact Nat.zero_le _
    · cases h
  · rename_i header hst
    rcases hr : pollReadHeader r.upstream header with ⟨_ | _ | hd | e, u, rest⟩ <;>
      rw [hr] at h <;> simp only at h
    · cases h
      cases hbs
    · cases h
      cases hbs
      exact Nat.zero_le _
    · cases hv : hd.validate with
      | error e =>
        rw [hv] at h
        cases h
        cases hbs
      | ok x =>
        rw [hv] at h
        cases h
    · cases h
      cases hbs
  · rename_i t n buffer hst
    rcases hr : pollReadBody r.upstream buffer n with ⟨_ | data | e, u, rest⟩ <;>
      rw [hr] at h <;> simp only at h
    · cases h
      cases hbs
    · unfold recordDone at h
      split_ifs at h <;> cases h <;> cases hbs
      exact Nat.zero_le _
    · cases h
      cases hbs

/-- A poll hands out no more than there is room for. -/
theorem pollRead_le (r : FakeTlsReader R) (cap : ℕ) (bs : List UInt8)
    (h : (r.pollRead cap).1 = .ready (.ok bs)) : bs.length ≤ cap := by
  refine loop_invariant (readStep cap) work _ (I := fun _ => True)
    (Q := fun o => o.1 = .ready (.ok bs) → bs.length ≤ cap) (fun _ _ _ _ => trivial) ?_ r trivial h
  intro v o _ hstep hbs
  exact readStep_le hstep bs hbs

end FakeTlsReader

/-- A poll after which nobody reads on: the end or an error. -/
def Stops : Poll (Except IoError (List UInt8)) → Bool
  | .pending => false
  | .ready (.error _) => true
  | .ready (.ok bs) => bs.isEmpty

/-- A `FakeTlsReader` that is polled with room only, and no more once it has stopped. -/
structure TlsSource (R : Type) [AsyncRead R] where
  reader : FakeTlsReader R
  stopped : Bool
  wf : stopped = false → reader.Wf

namespace TlsSource
variable {R : Type} [AsyncRead R]

theorem wf_poll {reader : FakeTlsReader R} {cap : ℕ} (hcap : 0 < cap) (hwf : reader.Wf) :
    Stops (reader.pollRead cap).1 = false → (reader.pollRead cap).2.Wf := by
  have h := FakeTlsReader.pollRead_delivered hcap reader hwf
  rcases hr : reader.pollRead cap with ⟨_ | (e | (_ | ⟨b, bs⟩)), r⟩ <;> rw [hr] at h
  · exact fun _ => h.1
  · exact fun hstops => absurd hstops (by simp [Stops])
  · exact fun hstops => absurd hstops (by simp [Stops])
  · exact fun _ => h.1

def pollRead (s : TlsSource R) (cap : ℕ) : Poll (Except IoError (List UInt8)) × TlsSource R :=
  if h : s.stopped = false ∧ 0 < cap then
    let polled := s.reader.pollRead cap
    (polled.1, ⟨polled.2, Stops polled.1, wf_poll h.2 (s.wf h.1)⟩)
  else (.ready (.ok []), s)

/-- What is left of the payload. -/
def payload (s : TlsSource R) : List UInt8 := if s.stopped then [] else s.reader.owed.1

/-- What a poll does to the payload. -/
theorem pollRead_payload (s : TlsSource R) (cap : ℕ) :
    ((s.pollRead cap).1 = .pending → (s.pollRead cap).2.payload = s.payload) ∧
      (∀ bs, (s.pollRead cap).1 = .ready (.ok bs) →
        s.payload = bs ++ (s.pollRead cap).2.payload ∧ (bs = [] → 0 < cap → s.payload = [])) := by
  rw [pollRead]
  split
  · rename_i h
    have hd := FakeTlsReader.pollRead_delivered h.2 s.reader (s.wf h.1)
    simp only [payload, h.1, Bool.false_eq_true, if_false]
    rcases hr : s.reader.pollRead cap with ⟨_ | (e | (_ | ⟨b, bs⟩)), r⟩ <;> rw [hr] at hd
    · refine ⟨fun _ => ?_, fun bs hbs => (by cases hbs)⟩
      simp only [Stops, Bool.false_eq_true, if_false]
      rw [hd.2]
    · exact ⟨fun hp => (by cases hp), fun bs hbs => (by cases hbs)⟩
    · have howed : s.reader.owed = ([], .eof) := hd
      refine ⟨fun hp => (by cases hp), fun bs hbs => ?_⟩
      obtain rfl : [] = bs := by simpa using hbs
      simp [Stops, howed]
    · refine ⟨fun hp => (by cases hp), fun bs' hbs => ?_⟩
      obtain rfl : b :: bs = bs' := by simpa using hbs
      refine ⟨?_, fun hnil => by cases hnil⟩
      simp [Stops, hd.2]
  · rename_i h
    refine ⟨fun hp => (by cases hp), fun bs hbs => ?_⟩
    obtain rfl : [] = bs := by simpa using hbs
    refine ⟨rfl, fun _ hcap => ?_⟩
    have hstopped : s.stopped = true := by
      by_contra hs
      exact h ⟨by simpa using hs, hcap⟩
    rw [payload, if_pos hstopped]

theorem pollRead_le (s : TlsSource R) (cap : ℕ) (bs : List UInt8)
    (h : (s.pollRead cap).1 = .ready (.ok bs)) : bs.length ≤ cap := by
  rw [pollRead] at h
  split at h
  · exact s.reader.pollRead_le cap bs h
  · obtain rfl : [] = bs := by simpa using h
    exact Nat.zero_le cap

instance : AsyncRead (TlsSource R) where
  pollRead := pollRead
  stream := payload
  pollRead_pending s cap := (pollRead_payload s cap).1
  pollRead_ok s cap bs h := ((pollRead_payload s cap).2 bs h).1
  pollRead_le := pollRead_le
  pollRead_eof s cap h hcap := ((pollRead_payload s cap).2 [] h).2 rfl hcap

/-- A source that nobody has read from yet. -/
def new (upstream : R) : TlsSource R := ⟨FakeTlsReader.new upstream, false, fun _ => trivial⟩

end TlsSource

/-! ### A record stream as a sink of bytes -/

namespace FakeTlsWriter
variable {W : Type} [AsyncWrite W]

theorem writeChunk_le (w : FakeTlsWriter W) (buf : List UInt8) (n : ℕ)
    (h : (w.writeChunk buf).1 = .ready (.ok n)) : n ≤ buf.length := by
  have hmin := min_le_left buf.length maxTlsPayload
  rw [writeChunk] at h
  split at h
  · obtain rfl : 0 = n := by simpa using h
    exact Nat.zero_le _
  · rcases w.upstream.pollWrite_cases (buildRecord (buf.take (min buf.length maxTlsPayload))) with
      ⟨io, hp⟩ | ⟨e, io, hp⟩ | ⟨m, io, -, hp⟩ <;> simp only [hp] at h
    · obtain rfl := Except.ok.inj (Poll.ready.inj h)
      exact hmin
    · cases h
    · split at h
      · obtain rfl := Except.ok.inj (Poll.ready.inj h)
        exact hmin
      · obtain rfl := Except.ok.inj (Poll.ready.inj h)
        exact hmin

theorem pollWrite_le (w : FakeTlsWriter W) (buf : List UInt8) (n : ℕ)
    (h : (w.pollWrite buf).1 = .ready (.ok n)) : n ≤ buf.length := by
  rw [pollWrite] at h
  split at h
  · cases h
  · rename_i record size hst
    rcases hr : pollFlushRecordInner w.upstream record with ⟨_ | _ | e, u, record'⟩ <;>
      rw [hr] at h
    · exact writeChunk_le _ buf n h
    · cases h
    · cases h
  · exact writeChunk_le w buf n h

/-- The writer with the chunks it has accepted. -/
instance : AsyncWrite (Session W) where
  pollWrite s buf := ((s.writer.pollWrite buf).1, s.next (.write buf))
  pollFlush s := (s.writer.pollFlush.1, s.next .flush)
  pollShutdown s := (s.writer.pollShutdown.1, ⟨s.writer.pollShutdown.2, s.chunks⟩)
  pollWrite_le s := pollWrite_le s.writer

/-! Whatever becomes of the writer, the wire has a beginning of the records. -/

section
variable {chunks : List (List UInt8)} {w : FakeTlsWriter W}

omit [AsyncWrite W] in
theorem Framed.wire_isPrefix (hw : Framed chunks w) : w.upstream.accepted <+: records chunks :=
  ⟨w.pendingBytes, hw.wire⟩

theorem writeChunk_error {buf : List UInt8} {e : IoError}
    (h : (w.writeChunk buf).1 = .ready (.error e)) :
    (w.writeChunk buf).2.upstream.accepted = w.upstream.accepted := by
  revert h
  rw [writeChunk]
  split
  · exact fun _ => rfl
  · rcases w.upstream.pollWrite_cases (buildRecord (buf.take (min buf.length maxTlsPayload))) with
      ⟨io, hp⟩ | ⟨e, io, hp⟩ | ⟨m, io, -, hp⟩ <;> simp only [hp]
    · intro h
      cases h
    · exact fun _ => rfl
    · intro h
      split at h <;> cases h

/-- A drain that fails has moved bytes of the pending record only. -/
theorem drain_isPrefix {record : WriteBuffer} {n : ℕ} (hw : Framed chunks w)
    (hst : w.state = .writingRecord record n) :
    (pollFlushRecordInner w.upstream record).2.1.accepted <+: records chunks := by
  have hwire := hw.wire
  simp only [pendingBytes, hst] at hwire
  exact ⟨_, (drain_spec w.upstream record).1.wire.trans hwire⟩

theorem pollWrite_error (hw : Framed chunks w) {buf : List UInt8} {e : IoError}
    (h : (w.pollWrite buf).1 = .ready (.error e)) :
    (w.pollWrite buf).2.upstream.accepted <+: records chunks := by
  revert h
  rw [pollWrite]
  split
  · rename_i e hst
    exact absurd hw.healthy (by simp [isPoisoned, hst])
  · rename_i record n hst
    have hdrained := drain_isPrefix hw hst
    rcases hr : pollFlushRecordInner w.upstream record with ⟨_ | _ | e, u, record'⟩ <;>
      rw [hr] at hdrained <;> simp only
    · intro h
      rw [writeChunk_error h]
      exact hdrained
    · intro h
      cases h
    · exact fun _ => hdrained
  · intro h
    rw [writeChunk_error h]
    exact hw.wire_isPrefix

theorem pollFlush_isPrefix (hw : Framed chunks w) :
    w.pollFlush.2.upstream.accepted <+: records chunks := by
  rw [pollFlush]
  split
  · exact hw.wire_isPrefix
  · rename_i record n hst
    have hdrained := drain_isPrefix hw hst
    rcases hr : pollFlushRecordInner w.upstream record with ⟨_ | _ | e, u, record'⟩ <;>
      rw [hr] at hdrained <;> exact hdrained
  · exact hw.wire_isPrefix

end

/-- What was accepted is in the chunks. These are on the wire or pending, or the writer is dead and a
    beginning of their records is on the wire. -/
structure Carries (u : Upstream (Session W)) : Prop where
  accepted : u.accepted = u.io.chunks.flatten
  good : Good u.io
  chunk : ∀ c ∈ u.io.chunks, IsChunk c
  wire : u.io.writer.upstream.accepted <+: records u.io.chunks

omit [AsyncWrite W] in
theorem carries_new (upstream : W) : Carries (⟨⟨new upstream, []⟩, []⟩ : Upstream (Session W)) :=
  ⟨rfl, .inr ⟨rfl, rfl, by simp, trivial⟩, by simp, List.nil_prefix⟩

/-- A call keeps chunks and wire together. -/
theorem next_wire {s : Session W} (hgood : Good s) (hchunk : ∀ c ∈ s.chunks, IsChunk c)
    (hwire : s.writer.upstream.accepted <+: records s.chunks) (call : Call) :
    (∀ c ∈ (s.next call).chunks, IsChunk c) ∧
      (s.next call).writer.upstream.accepted <+: records (s.next call).chunks := by
  rcases hgood with hp | hw
  · unfold isPoisoned at hp
    split at hp
    · rename_i e hst
      cases call <;> simpa [Session.next, pollWrite, pollFlush, hst] using ⟨hchunk, hwire⟩
    · cases hp
  · cases call with
    | write buf =>
      have hspec := pollWrite_spec buf hw
      rw [Session.next]
      rcases hr : s.writer.pollWrite buf with ⟨_ | (e | n), v⟩
      · rw [hr] at hspec
        exact ⟨Framed.chunk hspec, Framed.wire_isPrefix hspec⟩
      · have herror := pollWrite_error hw (congrArg Prod.fst hr)
        rw [hr] at herror
        exact ⟨hchunk, herror⟩
      · rw [hr] at hspec
        exact ⟨Framed.chunk hspec, Framed.wire_isPrefix hspec⟩
    | flush => exact ⟨hchunk, pollFlush_isPrefix hw⟩

theorem Carries.pollWrite {u : Upstream (Session W)} (h : Carries u) (data : List UInt8) :
    Carries (u.pollWrite data).2 := by
  have hgood : Good (u.io.next (.write data)) := good_next h.good (.write data)
  obtain ⟨hchunk, hwire⟩ := next_wire h.good h.chunk h.wire (.write data)
  have haccepted := h.accepted
  have hpoll : AsyncWrite.pollWrite u.io data =
      ((u.io.writer.pollWrite data).1, u.io.next (.write data)) := rfl
  rw [Upstream.pollWrite, hpoll]
  rcases hr : (u.io.writer.pollWrite data).1 with _ | (e | n)
  · refine ⟨?_, hgood, hchunk, hwire⟩
    simp only [Session.next, hr]
    exact haccepted
  · refine ⟨?_, hgood, hchunk, hwire⟩
    simp only [Session.next, hr]
    exact haccepted
  · refine ⟨?_, hgood, hchunk, hwire⟩
    simp only [Session.next, hr]
    split_ifs with hn
    · rw [hn, List.take_zero, List.append_nil]
      exact haccepted
    · rw [List.flatten_concat, haccepted]

theorem Carries.pollFlush {u : Upstream (Session W)} (h : Carries u) : Carries u.pollFlush.2 :=
  have hnext := next_wire h.good h.chunk h.wire .flush
  ⟨h.accepted, good_next h.good .flush, hnext.1, hnext.2⟩

/-- After a flush that succeeded all chunks are on the wire. -/
theorem Carries.flushed {u : Upstream (Session W)} {x : Unit} (h : Carries u)
    (hflush : u.pollFlush.1 = .ready (.ok x)) :
    tlsPayload u.pollFlush.2.io.writer.upstream.accepted = (u.accepted, .eof) := by
  have hok : u.io.writer.pollFlush.1 = .ready (.ok x) := hflush
  rcases h.good with hp | hw
  · obtain ⟨-, e, he⟩ := poisoned_flush hp
    exact absurd (he.symm.trans hok) (by simp)
  · obtain ⟨hempty, hf⟩ := pollFlush_spec hw
    rcases hf with hp | hf
    · exact absurd hp (by simp [pollFlush_ok_healthy hok])
    · have hwire := hf.wire
      rw [hempty x hok, List.append_nil] at hwire
      have hall : u.pollFlush.2.io.writer.upstream.accepted = records u.io.chunks := hwire
      rw [hall, tlsPayload_records h.chunk, h.accepted]

end FakeTlsWriter

/-- A record that is not there as a whole carries nothing. -/
theorem tlsPayload_part {c : List UInt8} (hc : c.length ≤ maxTlsPayload) {wire : List UInt8}
    (hwire : wire <+: buildRecord c) (hlen : wire.length < (buildRecord c).length) :
    (tlsPayload wire).1 = [] := by
  rcases Nat.eq_zero_or_pos wire.length with hzero | hpos
  · rw [List.length_eq_zero_iff.mp hzero, tlsPayload_nil]
  by_cases hshort : wire.length < tlsHeaderSize
  · rw [tlsPayload_short hpos hshort]
  have hheader : (applicationHeader c).toBytes.length = tlsHeaderSize :=
    TlsRecordHeader.length_toBytes _
  rw [length_buildRecord] at hlen
  obtain ⟨body, rfl⟩ : (applicationHeader c).toBytes <+: wire :=
    List.prefix_of_prefix_length_le (List.prefix_append _ c) hwire (by omega)
  rw [List.length_append, hheader] at hlen
  rw [tlsPayload_header hheader (TlsRecordHeader.parse_toBytes _) (applicationHeader_validate hc),
    applicationHeader_length hc, if_pos (by omega)]

/-- A beginning of the records of some chunks carries a beginning of the chunks. -/
theorem tlsPayload_isPrefix {chunks : List (List UInt8)} (h : ∀ c ∈ chunks, FakeTlsWriter.IsChunk c)
    {wire : List UInt8} (hwire : wire <+: FakeTlsWriter.records chunks) :
    (tlsPayload wire).1 <+: chunks.flatten := by
  induction chunks generalizing wire with
  | nil =>
    obtain rfl := List.prefix_nil.mp hwire
    rw [tlsPayload_nil]
    exact List.nil_prefix
  | cons c cs ih =>
    have hc := (h c (by simp)).2
    have hcons : FakeTlsWriter.records (c :: cs) = buildRecord c ++ FakeTlsWriter.records cs := by
      simp [FakeTlsWriter.records]
    rw [hcons] at hwire
    have hfirst := List.prefix_append (buildRecord c) (FakeTlsWriter.records cs)
    by_cases hlen : wire.length < (buildRecord c).length
    · rw [tlsPayload_part hc (List.prefix_of_prefix_length_le hwire hfirst hlen.le) hlen]
      exact List.nil_prefix
    · obtain ⟨rest, rfl⟩ := List.prefix_of_prefix_length_le hfirst hwire (Nat.le_of_not_lt hlen)
      have hrest := ih (fun d hd => h d (List.mem_cons_of_mem c hd))
        ((List.prefix_append_right_inj _).mp hwire)
      rw [tlsPayload_buildRecord hc, List.flatten_cons]
      exact (List.prefix_append_right_inj c).mpr hrest

theorem FakeTlsWriter.Carries.wire_payload {W : Type} {u : Upstream (FakeTlsWriter.Session W)}
    (h : FakeTlsWriter.Carries u) : (tlsPayload u.io.writer.upstream.accepted).1 <+: u.accepted := by
  rw [h.accepted]
  exact tlsPayload_isPrefix h.chunk h.wire

/-! ### What a `CryptoWriter` does to its sink -/

namespace CryptoWriter
variable {W : Type} [AsyncWrite W] {P : Upstream W → Prop} {w : CryptoWriter W}

/-- Writes and flushes reach the sink as writes and flushes only. -/
theorem flushPending_upstream (hwrite : ∀ u data, P u → P (u.pollWrite data).2) (h : P w.upstream) :
    P w.pollFlushPending.2.upstream := by
  refine loop_invariant flushStep pendingLen _ (I := fun v => P v.upstream)
    (Q := fun r => P r.2.upstream) ?_ ?_ w h
  · intro v v' hv hstep
    unfold flushStep at hstep
    split at hstep
    · cases hstep
    · cases hstep
    · rename_i pending hst
      have hnext := hwrite v.upstream pending.pendingSlice hv
      split at hstep
      · cases hstep
      · rcases hr : v.upstream.pollWrite pending.pendingSlice with ⟨_ | (e | (_ | n)), u⟩ <;>
          rw [hr] at hstep hnext <;> cases hstep
        exact hnext
  · intro v r hv hstep
    unfold flushStep at hstep
    split at hstep
    · rename_i e hst
      cases hstep
      rw [takePoisonError_state (by rw [isPoisoned, hst])]
      exact hv
    · cases hstep
      exact hv
    · rename_i pending hst
      have hnext := hwrite v.upstream pending.pendingSlice hv
      split at hstep
      · cases hstep
        exact hv
      · rcases hr : v.upstream.pollWrite pending.pendingSlice with ⟨_ | (e | (_ | n)), u⟩ <;>
          rw [hr] at hstep hnext <;> cases hstep <;> exact hnext

theorem writeThrough_upstream (hwrite : ∀ u data, P u → P (u.pollWrite data).2) (h : P w.upstream)
    (buf : List UInt8) : P (w.writeThrough buf).2.upstream := by
  rw [writeThrough]
  have hnext := hwrite w.upstream (w.encryptIntoScratch
    (buf.take (min buf.length w.maxPendingWrite))).scratch h
  rcases hr : w.upstream.pollWrite (w.encryptIntoScratch
    (buf.take (min buf.length w.maxPendingWrite))).scratch with ⟨_ | (e | (_ | n)), u⟩ <;>
    rw [hr] at hnext <;> rw [encryptIntoScratch] at hr ⊢ <;> simp only [hr]
  · exact hnext
  · exact hnext
  · exact hnext
  · split <;> exact hnext

theorem pollWrite_upstream (hwrite : ∀ u data, P u → P (u.pollWrite data).2) (h : P w.upstream)
    (buf : List UInt8) : P (w.pollWrite buf).2.upstream := by
  have hflushed := flushPending_upstream hwrite h
  rw [pollWrite]
  split
  · rename_i e hst
    rw [takePoisonError_state (by rw [isPoisoned, hst])]
    exact h
  · split
    · exact h
    · exact writeThrough_upstream hwrite h buf
  · split
    · exact h
    · rcases hr : w.pollFlushPending with ⟨_ | (e | x), v⟩ <;> rw [hr] at hflushed
      · simp only
        rw [bufferBlocked_upstream]
        exact hflushed
      · exact hflushed
      · exact writeThrough_upstream hwrite hflushed buf

/-- A flush that succeeds has flushed the sink last. -/
theorem pollFlush_upstream (hwrite : ∀ u data, P u → P (u.pollWrite data).2)
    (hflush : ∀ u : Upstream W, P u → P u.pollFlush.2) (h : P w.upstream) :
    P w.pollFlush.2.upstream ∧ ∀ x, w.pollFlush.1 = .ready (.ok x) →
      ∃ u, P u ∧ u.pollFlush.1 = .ready (.ok x) ∧ w.pollFlush.2.upstream = u.pollFlush.2 := by
  have hflushed := flushPending_upstream hwrite h
  rw [pollFlush]
  split
  · rename_i hp
    rw [takePoisonError_state hp]
    exact ⟨h, fun x hx => by cases hx⟩
  · rcases hr : w.pollFlushPending with ⟨_ | (e | y), v⟩ <;> rw [hr] at hflushed
    · exact ⟨hflushed, fun x hx => (by cases hx)⟩
    · exact ⟨hflushed, fun x hx => (by cases hx)⟩
    · exact ⟨hflush _ hflushed, fun x hx => ⟨v.upstream, hflushed, hx, rfl⟩⟩

end CryptoWriter

end MtProxy.Stream
