import MtProxy.Schemes.Loop
import MtProxy.Stream.State
import MtProxy.Stream.TlsRecord

/-! `FakeTlsWriter`: every accepted chunk becomes one ApplicationData record, and the part of the
    record the upstream does not take at once is kept as the one pending record.

        Idle ──record short / blocked──▶ WritingRecord ──drained──▶ Idle
          └──────────── upstream error, Ok(0) while draining ─────▶ Poisoned

    The invariant `Framed` says that the bytes on the wire followed by the pending bytes are the
    records of the chunks accepted so far. -/

namespace MtProxy.Stream
open Schemes

/-- `MAX_PENDING_WRITE`: room for one record remainder. -/
def maxPendingRecord : ℕ := 64 * 1024

inductive TlsWriterState where
  | idle
  | writingRecord (record : WriteBuffer) (payloadSize : ℕ)
  | poisoned (error : Option IoError)

structure FakeTlsWriter (W : Type) where
  upstream : Upstream W
  state : TlsWriterState

/-- Outcome of draining the pending record. -/
inductive FlushResult where
  | complete
  | pending
  | error (e : IoError)

namespace FakeTlsWriter
variable {W : Type}

def new (upstream : W) : FakeTlsWriter W := ⟨⟨upstream, []⟩, .idle⟩

def isPoisoned (w : FakeTlsWriter W) : Bool :=
  match w.state with
  | .poisoned _ => true
  | _ => false

/-- The record bytes that are accepted but not on the wire yet. -/
def pendingBytes (w : FakeTlsWriter W) : List UInt8 :=
  match w.state with
  | .writingRecord record _ => record.pending
  | _ => []

def poison (w : FakeTlsWriter W) (error : IoError) : FakeTlsWriter W :=
  { w with state := .poisoned (some error) }

def writeZero : IoError := ⟨.writeZero, "upstream returned 0 bytes written"⟩

/-- The stored error of a poisoned writer, handed out once. -/
def poisonError (error : Option IoError) : IoError :=
  error.getD ⟨.other, "stream previously poisoned"⟩

variable [AsyncWrite W]

/-- One round of `poll_flush_record_inner`. -/
def flushRecordStep (s : Upstream W × WriteBuffer) :
    (Upstream W × WriteBuffer) ⊕ (FlushResult × Upstream W × WriteBuffer) :=
  if s.2.isEmpty then .inr (.complete, s)
  else
    match s.1.pollWrite s.2.pending with
    | (.pending, u) => .inr (.pending, u, s.2)
    | (.ready (.error e), u) => .inr (.error e, u, s.2)
    | (.ready (.ok 0), u) => .inr (.error writeZero, u, s.2)
    | (.ready (.ok (n + 1)), u) => .inl (u, s.2.advance (n + 1))

theorem flushRecordStep_inl {s s' : Upstream W × WriteBuffer}
    (h : flushRecordStep s = .inl s') : ∃ n io, s.2.isEmpty = false ∧ 0 < n ∧
      s' = (⟨io, s.1.accepted ++ s.2.pending.take n⟩, s.2.advance n) := by
  unfold flushRecordStep at h
  by_cases he : s.2.isEmpty
  · rw [if_pos he] at h; cases h
  · rw [if_neg he] at h
    rcases s.1.pollWrite_cases s.2.pending with
      ⟨io, hw⟩ | ⟨e, io, hw⟩ | ⟨n, io, _, hw⟩ <;> rw [hw] at h
    · cases h
    · cases h
    · cases n with
      | zero => cases h
      | succ n => exact ⟨n + 1, io, by simpa using he, Nat.succ_pos n, (Sum.inl.inj h).symm⟩

/-- `poll_flush_record_inner`: write the record until it is empty or the upstream stops. -/
def pollFlushRecordInner (upstream : Upstream W) (record : WriteBuffer) :
    FlushResult × Upstream W × WriteBuffer :=
  loop flushRecordStep (fun s => s.2.len) (by
    intro s s' h
    obtain ⟨n, io, he, hn, rfl⟩ := flushRecordStep_inl h
    exact s.2.advance_lt hn he) (upstream, record)

/-- The remainder of a record as the next state; the result of `extend` is ignored. -/
def storeRemainder (rest : List UInt8) (chunkSize : ℕ) : TlsWriterState :=
  let buffer := WriteBuffer.withMaxSize maxPendingRecord
  match buffer.extend rest with
  | .ok buffer => .writingRecord buffer chunkSize
  | .error () => .writingRecord buffer chunkSize

/-- The part of `poll_write` after the previous record is out. -/
def writeChunk (w : FakeTlsWriter W) (buf : List UInt8) :
    Poll (Except IoError ℕ) × FakeTlsWriter W :=
  if buf.isEmpty then (.ready (.ok 0), w)
  else
    let chunkSize := min buf.length maxTlsPayload
    let recordData := buildRecord (buf.take chunkSize)
    match w.upstream.pollWrite recordData with
    | (.ready (.ok n), u) =>
      if n = recordData.length then (.ready (.ok chunkSize), { w with upstream := u })
      else (.ready (.ok chunkSize), ⟨u, storeRemainder (recordData.drop n) chunkSize⟩)
    | (.ready (.error e), u) => (.ready (.error e), { w with upstream := u }.poison e)
    | (.pending, u) => (.ready (.ok chunkSize), ⟨u, storeRemainder recordData chunkSize⟩)

def pollWrite (w : FakeTlsWriter W) (buf : List UInt8) :
    Poll (Except IoError ℕ) × FakeTlsWriter W :=
  match w.state with
  | .poisoned error => (.ready (.error (poisonError error)), { w with state := .poisoned none })
  | .writingRecord record payloadSize =>
    match pollFlushRecordInner w.upstream record with
    | (.pending, u, record) => (.pending, ⟨u, .writingRecord record payloadSize⟩)
    | (.error e, u, _) => (.ready (.error e), { w with upstream := u }.poison e)
    | (.complete, u, _) => writeChunk ⟨u, .idle⟩ buf
  | .idle => writeChunk w buf

def pollFlush (w : FakeTlsWriter W) : Poll (Except IoError Unit) × FakeTlsWriter W :=
  match w.state with
  | .poisoned error => (.ready (.error (poisonError error)), { w with state := .poisoned none })
  | .writingRecord record payloadSize =>
    match pollFlushRecordInner w.upstream record with
    | (.pending, u, record) => (.pending, ⟨u, .writingRecord record payloadSize⟩)
    | (.error e, u, _) => (.ready (.error e), { w with upstream := u }.poison e)
    | (.complete, u, _) => (u.pollFlush.1, ⟨u.pollFlush.2, .idle⟩)
  | .idle => (w.upstream.pollFlush.1, { w with upstream := w.upstream.pollFlush.2 })

/-- `poll_shutdown`: a best-effort flush, after which the state is `Idle` whatever it was. -/
def pollShutdown (w : FakeTlsWriter W) : Poll (Except IoError Unit) × FakeTlsWriter W :=
  match w.state with
  | .writingRecord record _ =>
    let u := (pollFlushRecordInner w.upstream record).2.1
    (u.pollShutdown.1, ⟨u.pollShutdown.2, .idle⟩)
  | _ => (w.upstream.pollShutdown.1, ⟨w.upstream.pollShutdown.2, .idle⟩)

/-! ### The stream invariant -/

/-- The wire bytes of a list of chunks. -/
def records (chunks : List (List UInt8)) : List UInt8 := (chunks.map buildRecord).flatten

theorem records_append (cs ds : List (List UInt8)) :
    records (cs ++ ds) = records cs ++ records ds := by
  simp [records]

/-- A chunk as `poll_write` cuts it. -/
def IsChunk (c : List UInt8) : Prop := c ≠ [] ∧ c.length ≤ maxTlsPayload

/-- What is pending is the tail of the record of the last chunk, inside the buffer's bound. -/
def OnePending (chunks : List (List UInt8)) : TlsWriterState → Prop
  | .writingRecord record payloadSize =>
    record.maxSize = maxPendingRecord ∧ record.buffer.length ≤ record.maxSize ∧
    ∃ cs c, chunks = cs ++ [c] ∧ payloadSize = c.length ∧ record.pending <:+ buildRecord c
  | _ => True

/-- The writer is in step with its caller: `chunks` are the chunks reported as accepted. -/
structure Framed (chunks : List (List UInt8)) (w : FakeTlsWriter W) : Prop where
  healthy : w.isPoisoned = false
  wire : w.upstream.accepted ++ w.pendingBytes = records chunks
  chunk : ∀ c ∈ chunks, IsChunk c
  onePending : OnePending chunks w.state

/-- Draining moves bytes from the record to the wire and nothing else. -/
structure Drained (u : Upstream W) (record : WriteBuffer) (u' : Upstream W)
    (record' : WriteBuffer) : Prop where
  wire : u'.accepted ++ record'.pending = u.accepted ++ record.pending
  suffix : record'.pending <:+ record.pending
  size : record'.buffer.length ≤ record.buffer.length
  maxSize : record'.maxSize = record.maxSize

theorem drained_step {u : Upstream W} {record : WriteBuffer} {s s' : Upstream W × WriteBuffer}
    (hs : Drained u record s.1 s.2) (h : flushRecordStep s = .inl s') :
    Drained u record s'.1 s'.2 := by
  obtain ⟨n, io, -, -, rfl⟩ := flushRecordStep_inl h
  refine ⟨?_, ?_, le_trans (s.2.advance_buffer_le n) hs.size, ?_⟩
  · rw [WriteBuffer.advance_pending, List.append_assoc, List.take_append_drop, hs.wire]
  · rw [WriteBuffer.advance_pending]
    exact (List.drop_suffix n _).trans hs.suffix
  · rw [WriteBuffer.advance_maxSize, hs.maxSize]

theorem drained_done {u : Upstream W} {record : WriteBuffer} {s : Upstream W × WriteBuffer}
    {r : FlushResult × Upstream W × WriteBuffer} (hs : Drained u record s.1 s.2)
    (h : flushRecordStep s = .inr r) :
    Drained u record r.2.1 r.2.2 ∧ (r.1 = .complete → r.2.2.pending = []) := by
  unfold flushRecordStep at h
  by_cases he : s.2.isEmpty
  · rw [if_pos he] at h
    obtain rfl := Sum.inr.inj h
    exact ⟨hs, fun _ => s.2.isEmpty_iff.mp he⟩
  · rw [if_neg he] at h
    have stay : ∀ io, Drained u record ⟨io, s.1.accepted⟩ s.2 := fun _ =>
      ⟨hs.wire, hs.suffix, hs.size, hs.maxSize⟩
    rcases s.1.pollWrite_cases s.2.pending with
      ⟨io, hw⟩ | ⟨e, io, hw⟩ | ⟨n, io, _, hw⟩ <;> rw [hw] at h
    · obtain rfl := Sum.inr.inj h
      exact ⟨stay io, fun hc => by cases hc⟩
    · obtain rfl := Sum.inr.inj h
      exact ⟨stay io, fun hc => by cases hc⟩
    · cases n with
      | zero =>
        obtain rfl := Sum.inr.inj h
        have := stay io
        exact ⟨by simpa using this, fun hc => by cases hc⟩
      | succ n => cases h

theorem drain_spec (u : Upstream W) (record : WriteBuffer) :
    Drained u record (pollFlushRecordInner u record).2.1 (pollFlushRecordInner u record).2.2 ∧
      ((pollFlushRecordInner u record).1 = .complete →
        (pollFlushRecordInner u record).2.2.pending = []) :=
  loop_invariant flushRecordStep (fun s => s.2.len) _ (I := fun s => Drained u record s.1 s.2)
    (fun _ _ => drained_step) (fun _ _ => drained_done) (u, record)
    ⟨rfl, List.suffix_refl _, le_refl _, rfl⟩

section
variable {chunks : List (List UInt8)} {w : FakeTlsWriter W}

omit [AsyncWrite W] in
/-- A drained record that is not empty yet is still the tail of the last chunk's record. -/
theorem framed_pending {record record' : WriteBuffer} {n : ℕ} {u : Upstream W}
    (hw : Framed chunks w) (hst : w.state = .writingRecord record n)
    (hd : Drained w.upstream record u record') :
    Framed chunks ⟨u, .writingRecord record' n⟩ := by
  have hwire := hw.wire
  have hone := hw.onePending
  simp only [pendingBytes, hst] at hwire
  rw [hst] at hone
  obtain ⟨hmax, hsize, cs, c, hcs, hn, hsuf⟩ := hone
  refine ⟨rfl, hd.wire.trans hwire, hw.chunk, ?_⟩
  exact ⟨hd.maxSize.trans hmax, hd.maxSize ▸ le_trans hd.size hsize, cs, c, hcs, hn,
    hd.suffix.trans hsuf⟩

omit [AsyncWrite W] in
/-- A completely drained record leaves the writer idle and in step. -/
theorem framed_complete {record record' : WriteBuffer} {n : ℕ} {u : Upstream W}
    (hw : Framed chunks w) (hst : w.state = .writingRecord record n)
    (hd : Drained w.upstream record u record') (hnil : record'.pending = []) :
    Framed chunks ⟨u, .idle⟩ := by
  have hwire := hw.wire
  simp only [pendingBytes, hst] at hwire
  refine ⟨rfl, ?_, hw.chunk, trivial⟩
  simp only [pendingBytes, List.append_nil]
  rw [← hwire, ← hd.wire, hnil, List.append_nil]

/-- What a write leaves behind: one more chunk, nothing, or a dead stream. -/
def Wrote (chunks : List (List UInt8)) (buf : List UInt8) :
    Poll (Except IoError ℕ) × FakeTlsWriter W → Prop
  | (.ready (.ok n), w) => Framed (if n = 0 then chunks else chunks ++ [buf.take n]) w
  | (.pending, w) => Framed chunks w
  | (.ready (.error _), w) => w.isPoisoned = true

/-- The ignored result of `extend` is always `Ok`: a record fits the pending buffer. -/
theorem storeRemainder_eq {rest c : List UInt8} (hc : c.length ≤ maxTlsPayload)
    (hrest : rest <:+ buildRecord c) (n : ℕ) :
    storeRemainder rest n = .writingRecord ⟨rest, 0, maxPendingRecord, Nat.zero_le _⟩ n := by
  have hle : rest.length ≤ maxPendingRecord := by
    have := hrest.length_le
    rw [length_buildRecord] at this
    simp only [maxTlsPayload] at hc
    simp only [maxPendingRecord, tlsHeaderSize] at *
    omega
  simp only [storeRemainder, WriteBuffer.extend_withMaxSize hle]

omit [AsyncWrite W] in
theorem framed_store {u : Upstream W} {c : List UInt8} {k : ℕ} (hc : IsChunk c)
    (hchunk : ∀ d ∈ chunks, IsChunk d)
    (hwire : u.accepted ++ (buildRecord c).drop k = records (chunks ++ [c])) :
    Framed (chunks ++ [c]) ⟨u, storeRemainder ((buildRecord c).drop k) c.length⟩ := by
  have hsuf : (buildRecord c).drop k <:+ buildRecord c := List.drop_suffix _ _
  rw [storeRemainder_eq hc.2 hsuf]
  refine ⟨rfl, hwire, ?_, rfl, ?_, chunks, c, rfl, rfl, hsuf⟩
  · intro d hd
    rcases List.mem_append.mp hd with h | h
    · exact hchunk d h
    · rw [List.mem_singleton.mp h]; exact hc
  · have h2 := hc.2
    have := hsuf.length_le
    simp only [length_buildRecord, maxTlsPayload, maxPendingRecord, tlsHeaderSize] at *
    omega

theorem writeChunk_spec (buf : List UInt8) (hw : Framed chunks w) (hst : w.state = .idle) :
    Wrote chunks buf (writeChunk w buf) := by
  unfold writeChunk
  by_cases hb : buf.isEmpty
  · rw [if_pos hb]
    exact hw
  · rw [if_neg hb]
    set n := min buf.length maxTlsPayload with hn
    have hlen : 0 < buf.length := by
      rw [List.length_pos_iff]
      simpa using hb
    have hnpos : n ≠ 0 := by simp only [maxTlsPayload] at hn; omega
    have hcl : (buf.take n).length = n := by rw [List.length_take]; omega
    have hc : IsChunk (buf.take n) := by
      refine ⟨?_, by rw [hcl]; omega⟩
      rw [← List.length_pos_iff, hcl]; omega
    have hwire : w.upstream.accepted ++ buildRecord (buf.take n) =
        records (chunks ++ [buf.take n]) := by
      have := hw.wire
      simp only [pendingBytes, hst, List.append_nil] at this
      rw [records_append, this]
      simp [records]
    rcases w.upstream.pollWrite_cases (buildRecord (buf.take n)) with
      ⟨io, hp⟩ | ⟨e, io, hp⟩ | ⟨m, io, hm, hp⟩ <;> simp only [hp]
    · have := framed_store (W := W) (u := ⟨io, w.upstream.accepted⟩) (k := 0) hc hw.chunk hwire
      simp only [Wrote, if_neg hnpos]
      rwa [List.drop_zero, hcl] at this
    · rfl
    · split_ifs with hfull
      · simp only [Wrote, if_neg hnpos]
        refine ⟨by simp [isPoisoned, hst], ?_, ?_, by simp [hst, OnePending]⟩
        · simp only [pendingBytes, hst, List.append_nil]
          rw [hfull, List.take_length, hwire]
        · intro d hd
          rcases List.mem_append.mp hd with h | h
          · exact hw.chunk d h
          · rw [List.mem_singleton.mp h]; exact hc
      · simp only [Wrote, if_neg hnpos]
        have := framed_store (W := W)
          (u := ⟨io, w.upstream.accepted ++ (buildRecord (buf.take n)).take m⟩) (k := m) hc hw.chunk
          (by rw [List.append_assoc, List.take_append_drop, hwire])
        rwa [hcl] at this

theorem pollWrite_spec (buf : List UInt8) (hw : Framed chunks w) :
    Wrote chunks buf (w.pollWrite buf) := by
  unfold pollWrite
  split
  · rename_i e hst
    exact absurd hw.healthy (by simp [isPoisoned, hst])
  · rename_i record n hst
    have hd := drain_spec w.upstream record
    rcases hr : pollFlushRecordInner w.upstream record with ⟨_ | _ | e, u, record'⟩ <;>
      rw [hr] at hd <;> simp only
    · exact writeChunk_spec buf (framed_complete hw hst hd.1 (hd.2 rfl)) rfl
    · exact framed_pending hw hst hd.1
    · rfl
  · rename_i hst
    exact writeChunk_spec buf hw hst

theorem pollFlush_spec (hw : Framed chunks w) :
    (∀ u, w.pollFlush.1 = .ready (.ok u) → w.pollFlush.2.pendingBytes = []) ∧
    (w.pollFlush.2.isPoisoned = true ∨ Framed chunks w.pollFlush.2) := by
  unfold pollFlush
  split
  · rename_i e hst
    exact absurd hw.healthy (by simp [isPoisoned, hst])
  · rename_i record n hst
    have hd := drain_spec w.upstream record
    rcases hr : pollFlushRecordInner w.upstream record with ⟨_ | _ | e, u, record'⟩ <;>
      rw [hr] at hd <;> simp only
    · have hf := framed_complete hw hst hd.1 (hd.2 rfl)
      exact ⟨fun _ _ => rfl, Or.inr ⟨rfl, hf.wire, hf.chunk, trivial⟩⟩
    · exact ⟨fun _ h => (by cases h), Or.inr (framed_pending hw hst hd.1)⟩
    · exact ⟨fun _ h => (by cases h), Or.inl rfl⟩
  · rename_i hst
    refine ⟨fun _ _ => by simp [pendingBytes, hst], Or.inr ⟨?_, ?_, hw.chunk, ?_⟩⟩
    · exact hw.healthy
    · exact hw.wire
    · exact hw.onePending

end

/-! ### Every sequence of writes and flushes -/

inductive Call where
  | write (buf : List UInt8)
  | flush

/-- A writer and the chunks its owner knows to be accepted. `Ok(0)`, the answer to an empty buffer,
    takes no chunk. -/
structure Session (W : Type) where
  writer : FakeTlsWriter W
  chunks : List (List UInt8)

def Session.next (s : Session W) : Call → Session W
  | .write buf =>
    ⟨(s.writer.pollWrite buf).2,
      match (s.writer.pollWrite buf).1 with
      | .ready (.ok n) => if n = 0 then s.chunks else s.chunks ++ [buf.take n]
      | _ => s.chunks⟩
  | .flush => ⟨s.writer.pollFlush.2, s.chunks⟩

/-- The session after a sequence of calls on a new writer. -/
def session (upstream : W) (calls : List Call) : Session W :=
  calls.foldl Session.next ⟨new upstream, []⟩

/-- In step with the caller, or dead. -/
def Good (s : Session W) : Prop := s.writer.isPoisoned = true ∨ Framed s.chunks s.writer

theorem poisoned_write {w : FakeTlsWriter W} (h : w.isPoisoned = true) (buf : List UInt8) :
    (w.pollWrite buf).2.isPoisoned = true ∧ ∃ e, (w.pollWrite buf).1 = .ready (.error e) := by
  unfold isPoisoned at h
  split at h
  · rename_i e hst
    simp [pollWrite, hst, isPoisoned]
  · cases h

theorem poisoned_flush {w : FakeTlsWriter W} (h : w.isPoisoned = true) :
    w.pollFlush.2.isPoisoned = true ∧ ∃ e, w.pollFlush.1 = .ready (.error e) := by
  unfold isPoisoned at h
  split at h
  · rename_i e hst
    simp [pollFlush, hst, isPoisoned]
  · cases h

/-- A flush that reports success leaves a healthy writer. -/
theorem pollFlush_ok_healthy {w : FakeTlsWriter W} {u : Unit}
    (h : w.pollFlush.1 = .ready (.ok u)) : w.pollFlush.2.isPoisoned = false := by
  unfold pollFlush at h ⊢
  split at h
  · cases h
  · rename_i record n hst
    rw [hst]
    rcases hr : pollFlushRecordInner w.upstream record with ⟨_ | _ | e, v, record'⟩ <;>
      rw [hr] at h
    · rfl
    · cases h
    · cases h
  · rename_i hst
    simp [isPoisoned, hst]

theorem good_next {s : Session W} (hs : Good s) (c : Call) : Good (s.next c) := by
  rcases hs with hp | hw
  · cases c with
    | write buf => exact Or.inl (poisoned_write hp buf).1
    | flush => exact Or.inl (poisoned_flush hp).1
  · cases c with
    | write buf =>
      have h := pollWrite_spec buf hw
      simp only [Good, Session.next]
      rcases hr : s.writer.pollWrite buf with ⟨_ | (e | n), v⟩ <;> rw [hr] at h
      · exact Or.inr h
      · exact Or.inl h
      · exact Or.inr h
    | flush => exact (pollFlush_spec hw).2

theorem run_good (upstream : W) (calls : List Call) : Good (session upstream calls) := by
  suffices H : ∀ (cs : List Call) (s : Session W), Good s → Good (cs.foldl Session.next s) from
    H calls _ (Or.inr ⟨rfl, rfl, by simp, trivial⟩)
  intro cs
  induction cs with
  | nil => intro s hs; exact hs
  | cons c cs ih => intro s hs; exact ih _ (good_next hs c)

/-- In every state a sequence of writes and flushes can reach: unless the writer is poisoned, the
    bytes on the wire followed by the pending bytes are the records of the accepted chunks; the record
    of every chunk is a valid header with an exact length field and the chunk; a write that comes back
    `Pending` accepts nothing; only the last record is pending and it fits its buffer; a flush that
    succeeds leaves nothing pending. -/
theorem wire_is_records (upstream : W) (calls : List Call) :
    let s := session upstream calls
    (s.writer.isPoisoned = false →
      s.writer.upstream.accepted ++ s.writer.pendingBytes = records s.chunks ∧
      (∀ c ∈ s.chunks, c.length ≤ maxTlsPayload ∧
        buildRecord c = (applicationHeader c).toBytes ++ c ∧
        (applicationHeader c).length.toNat = c.length ∧ (applicationHeader c).validate = .ok ()) ∧
      OnePending s.chunks s.writer.state) ∧
    (∀ buf, (s.writer.pollWrite buf).1 = .pending →
      (s.writer.pollWrite buf).2.upstream.accepted ++ (s.writer.pollWrite buf).2.pendingBytes =
        s.writer.upstream.accepted ++ s.writer.pendingBytes) ∧
    (∀ u, s.writer.pollFlush.1 = .ready (.ok u) → s.writer.pollFlush.2.pendingBytes = []) := by
  intro s
  have hs : Good s := run_good upstream calls
  refine ⟨?_, ?_, ?_⟩
  · intro hp
    rcases hs with h | hw
    · exact absurd h (by simp [hp])
    · refine ⟨hw.wire, fun c hc => ?_, hw.onePending⟩
      have hlen := (hw.chunk c hc).2
      exact ⟨hlen, rfl, applicationHeader_length hlen, applicationHeader_validate hlen⟩
  · intro buf h
    rcases hs with hp | hw
    · obtain ⟨_, e, he⟩ := poisoned_write hp buf
      exact absurd (he.symm.trans h) (by simp)
    · have hspec := pollWrite_spec buf hw
      rcases hr : s.writer.pollWrite buf with ⟨_ | r, v⟩ <;> rw [hr] at h hspec
      · exact Framed.wire hspec |>.trans hw.wire.symm
      · cases h
  · intro u hu
    rcases hs with h | hw
    · obtain ⟨_, e, he⟩ := poisoned_flush h
      exact absurd (he.symm.trans hu) (by simp)
    · exact (pollFlush_spec hw).1 u hu

end FakeTlsWriter

end MtProxy.Stream
