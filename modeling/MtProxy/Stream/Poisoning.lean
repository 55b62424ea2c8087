import MtProxy.Schemes.Calls
import MtProxy.Stream.CryptoReader
import MtProxy.Stream.CryptoWriter
import MtProxy.Stream.TlsReader
import MtProxy.Stream.TlsWriter

/-! Poisoned streams, over every sequence of calls. The two readers and `CryptoWriter` never leave
    `Poisoned`. `FakeTlsWriter` does in one place: its `poll_shutdown` ends in `Idle` from every
    state, so that a write after it starts a new record behind a torn one.

        FakeTlsWriter   Poisoned ──write, flush──▶ Poisoned
                        Poisoned ──shutdown──────▶ Idle -/

namespace MtProxy.Stream
open Crypto Schemes

/-! ### Readers -/

def FakeTlsReader.isPoisoned {R : Type} (r : FakeTlsReader R) : Bool :=
  match r.state with
  | .poisoned _ => true
  | _ => false

theorem FakeTlsReader.poisoned_read {R : Type} [AsyncRead R] {r : FakeTlsReader R}
    (h : r.isPoisoned = true) (cap : ℕ) :
    (r.pollRead cap).2.isPoisoned = true ∧ (∃ e, (r.pollRead cap).1 = .ready (.error e)) ∧
      (r.pollRead cap).2.upstream = r.upstream := by
  unfold isPoisoned at h
  split at h
  · rename_i e hst
    have hread : r.pollRead cap = (.ready (.error (e.getD ⟨.other, "stream previously poisoned"⟩)),
        { r with state := .poisoned none }) := by
      refine loop_inr (readStep cap) work _ ?_
      simp only [readStep, hst]
    simp [hread, isPoisoned]
  · cases h

/-- A refused read: an error, no bytes, and the upstream is not asked. -/
def RefusedRead {R : Type} (u : R) (reply : Poll (Except IoError (List UInt8))) (u' : R) : Prop :=
  (∃ e, reply = .ready (.error e)) ∧ u' = u

/-! ### Writers -/

/-- A call of `FakeTlsWriter`, with the calls and replies of the writers' common trait. -/
def FakeTlsWriter.callAny {W : Type} [AsyncWrite W] (w : FakeTlsWriter W) :
    CryptoWriter.Call → CryptoWriter.Reply × FakeTlsWriter W
  | .write buf => (.write (w.pollWrite buf).1, (w.pollWrite buf).2)
  | .flush => (.flush w.pollFlush.1, w.pollFlush.2)
  | .shutdown => (.shutdown w.pollShutdown.1, w.pollShutdown.2)

/-- A refused call: a write or flush fails with the upstream left alone, a shutdown does nothing
    but shut the upstream down. -/
def RefusedWrite {W : Type} [AsyncWrite W] (u : Upstream W) :
    CryptoWriter.Call → CryptoWriter.Reply → Upstream W → Prop
  | .write _, .write r, u' => (∃ e, r = .ready (.error e)) ∧ u' = u
  | .flush, .flush r, u' => (∃ e, r = .ready (.error e)) ∧ u' = u
  | .shutdown, .shutdown _, u' => u' = u.pollShutdown.2
  | _, _, _ => False

section
variable {W : Type} [AsyncWrite W]

theorem CryptoWriter.poisoned_call {w : CryptoWriter W} (h : w.isPoisoned = true)
    (c : CryptoWriter.Call) :
    (w.call c).2.isPoisoned = true ∧
      RefusedWrite w.upstream c (w.call c).1 (w.call c).2.upstream := by
  refine ⟨(call_poisoned h c).1, ?_⟩
  have htake := takePoisonError_state h
  cases c with
  | write buf =>
    have hw : w.pollWrite buf = (.ready (.error w.takePoisonError.1), w.takePoisonError.2) := by
      unfold isPoisoned at h
      unfold pollWrite
      split at h
      · rename_i e hst
        rw [hst]
      · cases h
    simp [call, hw, htake, RefusedWrite]
  | flush =>
    have hw : w.pollFlush = (.ready (.error w.takePoisonError.1), w.takePoisonError.2) := by
      rw [pollFlush, if_pos h]
    simp [call, hw, htake, RefusedWrite]
  | shutdown => simp [call, pollShutdown, flush_poisoned h, htake, RefusedWrite]

/-- A poisoned `FakeTlsWriter` refuses every call but comes back to life when it is shut down. -/
theorem FakeTlsWriter.poisoned_call {w : FakeTlsWriter W} (h : w.isPoisoned = true)
    (c : CryptoWriter.Call) :
    ((w.callAny c).2.isPoisoned = true ∧
      RefusedWrite w.upstream c (w.callAny c).1 (w.callAny c).2.upstream) ↔ c ≠ .shutdown := by
  unfold isPoisoned at h
  split at h
  · rename_i e hst
    cases c with
    | write buf => simp [callAny, pollWrite, hst, isPoisoned, RefusedWrite]
    | flush => simp [callAny, pollFlush, hst, isPoisoned, RefusedWrite]
    | shutdown => simp [callAny, pollShutdown, hst, isPoisoned]
  · cases h

end

/-! ### Every run -/

/-- From every new stream, over every sequence of calls: a poisoned reader or `CryptoWriter` stays
    poisoned, fails every read, write and flush and moves no byte; a `FakeTlsWriter` does so if and
    only if it is never shut down while poisoned. -/
theorem poisoned_for_good {R W : Type} [AsyncRead R] [AsyncWrite W] (source : R) (sink : W)
    (cipher : AesCtr) (maxPendingWrite : ℕ) (reads : List ℕ) (calls : List CryptoWriter.Call) :
    Final CryptoReader.pollRead (·.isPoisoned = true)
      (fun r _ reply => RefusedRead r.upstream reply.1 reply.2.upstream)
      (CryptoReader.new source cipher) reads ∧
    Final FakeTlsReader.pollRead (·.isPoisoned = true)
      (fun r _ reply => RefusedRead r.upstream reply.1 reply.2.upstream)
      (FakeTlsReader.new source) reads ∧
    Final CryptoWriter.call (·.isPoisoned = true)
      (fun w c reply => RefusedWrite w.upstream c reply.1 reply.2.upstream)
      (CryptoWriter.new sink cipher maxPendingWrite) calls ∧
    (Final FakeTlsWriter.callAny (·.isPoisoned = true)
        (fun w c reply => RefusedWrite w.upstream c reply.1 reply.2.upstream)
        (FakeTlsWriter.new sink) calls ↔
      ∀ pre c post, calls = pre ++ c :: post →
        (after FakeTlsWriter.callAny (FakeTlsWriter.new sink) pre).isPoisoned = true →
        c ≠ .shutdown) := by
  refine ⟨?_, ?_, ?_, ?_⟩
  · exact final_of_step (fun r cap h => CryptoReader.poisoned_read h cap) _ reads
  · exact final_of_step (fun r cap h => FakeTlsReader.poisoned_read h cap) _ reads
  · exact final_of_step (fun w c h => CryptoWriter.poisoned_call h c) _ calls
  · refine final_iff (G := fun _ c => c ≠ .shutdown) ?_ _ calls
    intro w c h
    exact FakeTlsWriter.poisoned_call h c

/-- The upstream fails while the rest of a record is due; after a shutdown the next write succeeds
    and puts a new record behind the torn one. -/
theorem shutdown_revives_poisoned_writer :
    let broken : IoError := ⟨.other, "broken pipe"⟩
    let sink : ScriptedWriter := ⟨[.ready (.ok 3), .ready (.error broken), .ready (.ok 100)]⟩
    let calls : List CryptoWriter.Call := [.write [1, 2], .flush, .shutdown, .write [7]]
    ¬ Final FakeTlsWriter.callAny (·.isPoisoned = true)
        (fun w c reply => RefusedWrite w.upstream c reply.1 reply.2.upstream)
        (FakeTlsWriter.new sink) calls ∧
      (after FakeTlsWriter.callAny (FakeTlsWriter.new sink) calls).upstream.accepted =
        [0x17, 3, 3] ++ [0x17, 3, 3, 0, 1, 7] := by
  intro broken sink calls
  refine ⟨fun hfinal => ?_, by decide⟩
  have hdead := (hfinal [.write [1, 2], .flush] [] .shutdown [.write [7]] rfl (by decide)).1
  exact absurd hdead (by decide)

end MtProxy.Stream
