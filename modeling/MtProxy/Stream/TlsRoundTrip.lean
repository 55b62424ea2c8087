import MtProxy.Stream.TlsReader
import MtProxy.Stream.TlsWriter

/-! `FakeTlsReader` against the byte stream below it and against `FakeTlsWriter`. However the stream
    is cut and delayed and whatever buffers the caller offers, the reader delivers the payload of
    the stream, and for the bytes a writer emits that payload is what was written. -/

namespace MtProxy.Stream

/-- One emitted record in front of a stream puts its chunk in front of the payload. -/
theorem tlsPayload_buildRecord {c : List UInt8} (hc : c.length ≤ maxTlsPayload) (s : List UInt8) :
    tlsPayload (buildRecord c ++ s) = (c ++ (tlsPayload s).1, (tlsPayload s).2) := by
  have hlen := applicationHeader_length hc
  have hge : ¬ (c ++ s).length < c.length := by rw [List.length_append]; omega
  rw [buildRecord, List.append_assoc, tlsPayload_header (TlsRecordHeader.length_toBytes _)
    (TlsRecordHeader.parse_toBytes _) (applicationHeader_validate hc), hlen, if_neg hge,
    List.take_left, List.drop_left]
  simp [afterRecord, applicationHeader, tlsRecordApplication, tlsRecordChangeCipher]

/-- The records of a list of chunks carry the chunks and end at a record boundary. -/
theorem tlsPayload_records {chunks : List (List UInt8)}
    (h : ∀ c ∈ chunks, FakeTlsWriter.IsChunk c) :
    tlsPayload (FakeTlsWriter.records chunks) = (chunks.flatten, .eof) := by
  induction chunks with
  | nil => simp [FakeTlsWriter.records]
  | cons c cs ih =>
    have hrest := ih fun d hd => h d (List.mem_cons_of_mem _ hd)
    have hcons : FakeTlsWriter.records (c :: cs) = buildRecord c ++ FakeTlsWriter.records cs := by
      simp [FakeTlsWriter.records]
    rw [hcons, tlsPayload_buildRecord (h c (by simp)).2, hrest, List.flatten_cons]

/-- After a successful flush the wire holds the records of all chunks. -/
theorem flushed_wire {W : Type} [AsyncWrite W] (w : W) (calls : List FakeTlsWriter.Call) (u : Unit)
    (h : (FakeTlsWriter.session w calls).writer.pollFlush.1 = .ready (.ok u)) :
    tlsPayload (FakeTlsWriter.session w calls).writer.pollFlush.2.upstream.accepted =
      ((FakeTlsWriter.session w calls).chunks.flatten, .eof) := by
  rcases FakeTlsWriter.run_good w calls with hp | hw
  · obtain ⟨_, e, he⟩ := FakeTlsWriter.poisoned_flush hp
    exact absurd (he.symm.trans h) (by simp)
  · obtain ⟨hempty, hf⟩ := FakeTlsWriter.pollFlush_spec hw
    rcases hf with hp | hf
    · exact absurd hp (by
        have := FakeTlsWriter.pollFlush_ok_healthy h
        simp [this])
    · rw [← tlsPayload_records hf.chunk, ← hf.wire, hempty u h, List.append_nil]

/-- The reader delivers a prefix of the payload of its byte stream, exactly that payload at its
    first stop, and the stop is the stream's; it has stopped once more polls were ready than the
    payload has bytes. The payload of what a flushed `FakeTlsWriter` emitted is what was written. -/
theorem reader_delivers_payload {R : Type} [ByteSource R] (upstream : R) (caps : List ℕ)
    (hcaps : ∀ c ∈ caps, 0 < c) :
    let total := tlsPayload (AsyncRead.stream upstream)
    let p := FakeTlsReader.readAll upstream caps
    p.out <+: total.1 ∧
    (∀ stop, p.stopped = some stop → p.out = total.1 ∧ stop = total.2) ∧
    (total.1.length < p.ready → p.stopped.isSome) ∧
    (∀ (W : Type) [AsyncWrite W] (w : W) (calls : List FakeTlsWriter.Call) (u : Unit),
      (FakeTlsWriter.session w calls).writer.pollFlush.1 = .ready (.ok u) →
      AsyncRead.stream upstream =
        (FakeTlsWriter.session w calls).writer.pollFlush.2.upstream.accepted →
      total = ((FakeTlsWriter.session w calls).chunks.flatten, .eof)) := by
  intro total p
  have htrack : FakeTlsReader.OnTrack total p := FakeTlsReader.readAll_onTrack upstream caps hcaps
  unfold FakeTlsReader.OnTrack at htrack
  refine ⟨?_, ?_, ?_, ?_⟩
  · cases hs : p.stopped with
    | some stop => rw [hs] at htrack; rw [htrack]
    | none =>
      rw [hs] at htrack
      rw [htrack.2.1]
      exact List.prefix_append _ _
  · intro stop hs
    rw [hs] at htrack
    rw [htrack]
    exact ⟨rfl, rfl⟩
  · intro hlt
    cases hs : p.stopped with
    | some stop => rfl
    | none =>
      rw [hs] at htrack
      obtain ⟨-, htotal, hready⟩ := htrack
      rw [htotal, List.length_append] at hlt
      omega
  · intro W _ w calls u hflush hstream
    show tlsPayload (AsyncRead.stream upstream) = _
    rw [hstream, flushed_wire w calls u hflush]

/-- A two-byte record cut in the middle of its header and its body, read byte by byte. -/
theorem reader_delivers_payload_split :
    let r : ScriptedReader := ⟨[0x17, 3, 3, 0, 2, 0xAA, 0xBB], [some 2, none, some 3]⟩
    (∀ c ∈ [1, 1, 1, 1], 0 < c) ∧ (FakeTlsReader.readAll r [1, 1, 1, 1]).stopped = some .eof ∧
      (tlsPayload [0x17, 3, 3, 0, 2, 0xAA, 0xBB]).1 = [0xAA, 0xBB] := by
  intro r
  have hcaps : ∀ c ∈ [1, 1, 1, 1], 0 < c := by decide
  have hstop : (FakeTlsReader.readAll r [1, 1, 1, 1]).stopped = some .eof := by decide
  have hout : (FakeTlsReader.readAll r [1, 1, 1, 1]).out = [0xAA, 0xBB] := by decide
  refine ⟨hcaps, hstop, ?_⟩
  rw [← hout]
  exact ((reader_delivers_payload r [1, 1, 1, 1] hcaps).2.1 _ hstop).1.symm

end MtProxy.Stream
