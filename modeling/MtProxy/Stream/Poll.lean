import Mathlib.Tactic

/-! The asynchronous byte streams the proxy is built on. A `poll_*` call answers `Pending` or
    `Ready`, and a ready answer is a result or an `io::Error`. `AsyncWrite` and `AsyncRead` are the
    two traits with the part of their contract the wrappers rely on: a write never reports more
    bytes than it was offered, and a read hands out the bytes of one stream in order, at most as
    many as fit, nothing only at its end.

    `Upstream` records what the other side has accepted, so that a property of a writer can speak
    of the bytes on the wire. `ScriptedWriter` and `ScriptedReader` answer from a given schedule. -/

namespace MtProxy.Stream

/-- The `io::ErrorKind`s the wrappers build themselves; `os` is any kind an upstream reports. -/
inductive ErrorKind where
  | wouldBlock | writeZero | unexpectedEof | invalidData | invalidInput | other
  | os (code : ℕ)
  deriving DecidableEq

/-- An `io::Error`: its kind and its text. -/
structure IoError where
  kind : ErrorKind
  message : String
  deriving DecidableEq

/-- `std::task::Poll`. -/
inductive Poll (α : Type) where
  | pending
  | ready (a : α)
  deriving DecidableEq

/-- The `AsyncWrite` trait; `poll_write` may not report more than the slice it was given. -/
class AsyncWrite (W : Type) where
  pollWrite : W → List UInt8 → Poll (Except IoError ℕ) × W
  pollFlush : W → Poll (Except IoError Unit) × W
  pollShutdown : W → Poll (Except IoError Unit) × W
  pollWrite_le : ∀ w data n, (pollWrite w data).1 = .ready (.ok n) → n ≤ data.length

/-- The `AsyncRead` trait over a finite byte stream: `stream` is what is still to be delivered.
    `pollRead r cap` reads into a buffer with room for `cap` bytes. -/
class AsyncRead (R : Type) where
  pollRead : R → ℕ → Poll (Except IoError (List UInt8)) × R
  stream : R → List UInt8
  pollRead_pending : ∀ r cap, (pollRead r cap).1 = .pending →
    stream (pollRead r cap).2 = stream r
  pollRead_ok : ∀ r cap bs, (pollRead r cap).1 = .ready (.ok bs) →
    stream r = bs ++ stream (pollRead r cap).2
  pollRead_le : ∀ r cap bs, (pollRead r cap).1 = .ready (.ok bs) → bs.length ≤ cap
  pollRead_eof : ∀ r cap, (pollRead r cap).1 = .ready (.ok []) → 0 < cap → stream r = []

/-- A source that never fails: it only delays and cuts its stream. -/
class ByteSource (R : Type) extends AsyncRead R where
  pollRead_ne_error : ∀ r cap e, (pollRead r cap).1 ≠ .ready (.error e)

/-! ### The bytes on the wire -/

/-- A writer together with the bytes it has accepted so far. -/
structure Upstream (W : Type) where
  io : W
  accepted : List UInt8

namespace Upstream
variable {W : Type} [AsyncWrite W]

/-- `poll_write`, recording the accepted prefix. -/
def pollWrite (u : Upstream W) (data : List UInt8) : Poll (Except IoError ℕ) × Upstream W :=
  match AsyncWrite.pollWrite u.io data with
  | (.pending, io) => (.pending, ⟨io, u.accepted⟩)
  | (.ready (.error e), io) => (.ready (.error e), ⟨io, u.accepted⟩)
  | (.ready (.ok n), io) => (.ready (.ok n), ⟨io, u.accepted ++ data.take n⟩)

def pollFlush (u : Upstream W) : Poll (Except IoError Unit) × Upstream W :=
  ((AsyncWrite.pollFlush u.io).1, ⟨(AsyncWrite.pollFlush u.io).2, u.accepted⟩)

def pollShutdown (u : Upstream W) : Poll (Except IoError Unit) × Upstream W :=
  ((AsyncWrite.pollShutdown u.io).1, ⟨(AsyncWrite.pollShutdown u.io).2, u.accepted⟩)

/-- What one `poll_write` can do: nothing, fail, or accept a prefix of the data. -/
theorem pollWrite_cases (u : Upstream W) (data : List UInt8) :
    (∃ io, u.pollWrite data = (.pending, ⟨io, u.accepted⟩)) ∨
    (∃ e io, u.pollWrite data = (.ready (.error e), ⟨io, u.accepted⟩)) ∨
    (∃ n io, n ≤ data.length ∧
      u.pollWrite data = (.ready (.ok n), ⟨io, u.accepted ++ data.take n⟩)) := by
  have hle := AsyncWrite.pollWrite_le u.io data
  rw [pollWrite]
  rcases h : AsyncWrite.pollWrite u.io data with ⟨_ | (e | n), io⟩
  · exact Or.inl ⟨io, rfl⟩
  · exact Or.inr (Or.inl ⟨e, io, rfl⟩)
  · exact Or.inr (Or.inr ⟨n, io, hle n (by rw [h]), rfl⟩)

@[simp] theorem pollFlush_accepted (u : Upstream W) : u.pollFlush.2.accepted = u.accepted := rfl

@[simp] theorem pollShutdown_accepted (u : Upstream W) :
    u.pollShutdown.2.accepted = u.accepted := rfl

end Upstream

/-! ### Scheduled upstreams -/

/-- A writer that answers `poll_write` from a list, cut to the length of the slice, and `Pending`
    once the list is used up; flush and shutdown succeed. -/
structure ScriptedWriter where
  answers : List (Poll (Except IoError ℕ))

/-- The next scheduled answer for a slice of length `len`. -/
def ScriptedWriter.answer (w : ScriptedWriter) (len : ℕ) :
    Poll (Except IoError ℕ) × ScriptedWriter :=
  match w.answers with
  | [] => (.pending, w)
  | .ready (.ok n) :: rest => (.ready (.ok (min n len)), ⟨rest⟩)
  | a :: rest => (a, ⟨rest⟩)

instance : AsyncWrite ScriptedWriter where
  pollWrite w data := w.answer data.length
  pollFlush w := (.ready (.ok ()), w)
  pollShutdown w := (.ready (.ok ()), w)
  pollWrite_le w data n h := by
    rcases w with ⟨_ | ⟨_ | (e | m), rest⟩⟩
    · simp [ScriptedWriter.answer] at h
    · simp [ScriptedWriter.answer] at h
    · simp [ScriptedWriter.answer] at h
    · simp only [ScriptedWriter.answer, Poll.ready.injEq, Except.ok.injEq] at h
      omega

/-- A reader of a fixed byte stream. The plan says for each poll whether it is `Pending` (`none`)
    or how many bytes beyond the first it may hand out; after the plan reads are as large as fits. -/
structure ScriptedReader where
  rest : List UInt8
  plan : List (Option ℕ)

/-- The next scheduled answer for a buffer with room for `cap` bytes. -/
def ScriptedReader.answer (r : ScriptedReader) (cap : ℕ) :
    Poll (Except IoError (List UInt8)) × ScriptedReader :=
  match r.plan with
  | [] => (.ready (.ok (r.rest.take cap)), ⟨r.rest.drop cap, []⟩)
  | none :: plan => (.pending, ⟨r.rest, plan⟩)
  | some n :: plan =>
    (.ready (.ok (r.rest.take (min (n + 1) cap))), ⟨r.rest.drop (min (n + 1) cap), plan⟩)

instance : ByteSource ScriptedReader where
  pollRead := ScriptedReader.answer
  stream r := r.rest
  pollRead_pending r cap h := by
    rcases r with ⟨rest, _ | ⟨_ | n, plan⟩⟩ <;> simp [ScriptedReader.answer] at h ⊢
  pollRead_ok r cap bs h := by
    rcases r with ⟨rest, _ | ⟨_ | n, plan⟩⟩ <;> simp only [ScriptedReader.answer, Poll.ready.injEq,
      Except.ok.injEq, reduceCtorEq] at h ⊢ <;> rw [← h, List.take_append_drop]
  pollRead_le r cap bs h := by
    rcases r with ⟨rest, _ | ⟨_ | n, plan⟩⟩ <;> simp only [ScriptedReader.answer, Poll.ready.injEq,
      Except.ok.injEq, reduceCtorEq] at h <;> rw [← h, List.length_take] <;> omega
  pollRead_eof r cap h hcap := by
    rcases r with ⟨rest, _ | ⟨_ | n, plan⟩⟩ <;> simp only [ScriptedReader.answer, Poll.ready.injEq,
      Except.ok.injEq, reduceCtorEq, List.take_eq_nil_iff] at h ⊢ <;>
      exact h.resolve_left (by omega)
  pollRead_ne_error r cap e := by
    rcases r with ⟨rest, _ | ⟨_ | n, plan⟩⟩ <;> simp [ScriptedReader.answer]

end MtProxy.Stream
