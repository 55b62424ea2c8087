import MtProxy.Stream.Poll
import MtProxy.Stream.State
import MtProxy.Crypto.Ctr

/-! `CryptoReader`: the AES-CTR reader of `stream/crypto_stream.rs`. It reads into the caller's
    buffer and decrypts in place.

        Idle ──read n bytes──▶ Idle            Yielding ──buffer used up──▶ Idle
          └──── upstream error ────▶ Poisoned

    No call of `poll_read` leads to `Yielding`; the state is kept as the source has it. -/

namespace MtProxy.Stream
open Crypto

inductive CryptoReaderState where
  | idle
  | yielding (buffer : YieldBuffer)
  | poisoned (error : Option IoError)

structure CryptoReader (R : Type) where
  upstream : R
  decryptor : AesCtr
  state : CryptoReaderState

namespace CryptoReader
variable {R : Type}

def new (upstream : R) (decryptor : AesCtr) : CryptoReader R := ⟨upstream, decryptor, .idle⟩

def isPoisoned (r : CryptoReader R) : Bool :=
  match r.state with
  | .poisoned _ => true
  | _ => false

def poison (r : CryptoReader R) (error : IoError) : CryptoReader R :=
  { r with state := .poisoned (some error) }

def takePoisonError (r : CryptoReader R) : IoError × CryptoReader R :=
  match r.state with
  | .poisoned error =>
    (error.getD ⟨.other, "stream previously poisoned"⟩, { r with state := .poisoned none })
  | _ => (⟨.other, "stream not poisoned"⟩, r)

variable [AsyncRead R]

/-- `poll_read` into a buffer with room for `cap` bytes; every branch of its loop returns. -/
def pollRead (r : CryptoReader R) (cap : ℕ) :
    Poll (Except IoError (List UInt8)) × CryptoReader R :=
  match r.state with
  | .poisoned _ => (.ready (.error r.takePoisonError.1), r.takePoisonError.2)
  | .yielding buffer =>
    if cap = 0 then (.ready (.ok []), r)
    else
      let (bs, buffer) := buffer.copyTo (min buffer.remaining cap)
      (.ready (.ok bs), { r with state := if buffer.isEmpty then .idle else .yielding buffer })
  | .idle =>
    if cap = 0 then (.ready (.ok []), r)
    else
      match AsyncRead.pollRead r.upstream cap with
      | (.pending, u) => (.pending, { r with upstream := u })
      | (.ready (.error e), u) => (.ready (.error e), { r with upstream := u }.poison e)
      | (.ready (.ok bs), u) =>
        if bs.isEmpty then (.ready (.ok []), { r with upstream := u })
        else
          (.ready (.ok (r.decryptor.apply bs).1),
            { r with upstream := u, decryptor := (r.decryptor.apply bs).2 })

/-- A poisoned reader stays poisoned, fails every read and leaves its upstream alone. -/
theorem poisoned_read {r : CryptoReader R} (h : r.isPoisoned = true) (cap : ℕ) :
    (r.pollRead cap).2.isPoisoned = true ∧ (∃ e, (r.pollRead cap).1 = .ready (.error e)) ∧
      (r.pollRead cap).2.upstream = r.upstream := by
  unfold isPoisoned at h
  split at h
  · rename_i e hst
    simp [pollRead, takePoisonError, hst, isPoisoned]
  · cases h

/-! ### Whole sessions -/

/-- The bytes a read hands out. -/
def received : Poll (Except IoError (List UInt8)) → List UInt8
  | .ready (.ok bs) => bs
  | _ => []

/-- A read in `Idle` is poisoned by its upstream, or decrypts the next bytes of the stream, if any. -/
theorem pollRead_idle {r : CryptoReader R} (h : r.state = .idle) (cap : ℕ) :
    ((r.pollRead cap).2.isPoisoned = true ∧ received (r.pollRead cap).1 = []) ∨
      ∃ bs, received (r.pollRead cap).1 = (r.decryptor.apply bs).1 ∧
        (r.pollRead cap).2.state = .idle ∧
        (r.pollRead cap).2.decryptor = (r.decryptor.apply bs).2 ∧
        AsyncRead.stream r.upstream = bs ++ AsyncRead.stream (r.pollRead cap).2.upstream := by
  rw [pollRead, h]
  simp only
  split
  · exact .inr ⟨[], rfl, h, rfl, rfl⟩
  · have hpending := AsyncRead.pollRead_pending r.upstream cap
    have hok := AsyncRead.pollRead_ok r.upstream cap
    rcases hread : AsyncRead.pollRead r.upstream cap with ⟨_ | (e | bs), u⟩
    · rw [hread] at hpending
      exact .inr ⟨[], rfl, rfl, rfl, (hpending rfl).symm⟩
    · exact .inl ⟨rfl, rfl⟩
    · rw [hread] at hok
      simp only
      split
      · next hnil =>
        obtain rfl : bs = [] := by simpa using hnil
        exact .inr ⟨[], rfl, rfl, rfl, hok [] rfl⟩
      · exact .inr ⟨bs, rfl, rfl, rfl, hok bs rfl⟩

/-- An answer of the upstream with its bytes decrypted. -/
def decrypted (decryptor : AesCtr) :
    Poll (Except IoError (List UInt8)) → Poll (Except IoError (List UInt8))
  | .ready (.ok bs) => .ready (.ok (decryptor.apply bs).1)
  | answer => answer

/-- A read in `Idle` gives the answer of the upstream, decrypted; only an error there poisons. -/
theorem pollRead_answer {r : CryptoReader R} (h : r.state = .idle) {cap : ℕ} (hcap : 0 < cap) :
    (r.pollRead cap).1 = decrypted r.decryptor (AsyncRead.pollRead r.upstream cap).1 ∧
      ((r.pollRead cap).2.isPoisoned = true →
        ∃ e, (AsyncRead.pollRead r.upstream cap).1 = .ready (.error e)) := by
  rw [pollRead, h]
  simp only [hcap.ne', if_false]
  rcases hread : AsyncRead.pollRead r.upstream cap with ⟨_ | (e | bs), u⟩
  · exact ⟨rfl, fun hp => nomatch hp⟩
  · exact ⟨rfl, fun _ => ⟨e, rfl⟩⟩
  · simp only
    split
    · next hnil =>
      obtain rfl : bs = [] := by simpa using hnil
      exact ⟨rfl, fun hp => nomatch hp⟩
    · exact ⟨rfl, fun hp => nomatch hp⟩

/-- A reader and everything it has handed out. -/
structure Session (R : Type) where
  reader : CryptoReader R
  plain : List UInt8

def Session.next (s : Session R) (cap : ℕ) : Session R :=
  ⟨(s.reader.pollRead cap).2, s.plain ++ received (s.reader.pollRead cap).1⟩

/-- The session after reads into buffers of the given sizes. -/
def session (r : CryptoReader R) (caps : List ℕ) : Session R := caps.foldl Session.next ⟨r, []⟩

/-- What was handed out is the beginning of `data`. Unless the reader is poisoned, the rest of `data`
    is what its cipher makes of the bytes that are still to come. -/
structure Decrypts (ks : ℕ → UInt8) (p : ℕ) (data : List UInt8) (s : Session R) : Prop where
  plain : s.plain <+: data
  rest : s.reader.isPoisoned = false → s.reader.state = .idle ∧
    s.reader.decryptor = ⟨ks, p + s.plain.length⟩ ∧
    s.plain ++ xorStream ks (p + s.plain.length) (AsyncRead.stream s.reader.upstream) = data

section
variable {ks : ℕ → UInt8} {p : ℕ} {data : List UInt8} {s : Session R}

theorem decrypts_new (upstream : R) (decryptor : AesCtr)
    (h : AsyncRead.stream upstream = xorStream decryptor.keystream decryptor.pos data) :
    Decrypts decryptor.keystream decryptor.pos data ⟨new upstream decryptor, []⟩ := by
  refine ⟨List.nil_prefix, fun _ => ⟨rfl, rfl, ?_⟩⟩
  rw [new, h]
  exact xorStream_xorStream ..

theorem decrypts_next (h : Decrypts ks p data s) (cap : ℕ) : Decrypts ks p data (s.next cap) := by
  cases hp : s.reader.isPoisoned with
  | true =>
    obtain ⟨hp', ⟨e, he⟩, -⟩ := poisoned_read hp cap
    refine ⟨?_, fun hn => ?_⟩
    · simpa [Session.next, he, received] using h.plain
    · rw [Session.next, hp'] at hn
      cases hn
  | false =>
    obtain ⟨hidle, hdec, hrest⟩ := h.rest hp
    rcases pollRead_idle hidle cap with ⟨hp', hnone⟩ | ⟨bs, hbs, hidle', hdec', hstream⟩
    · refine ⟨?_, fun hn => ?_⟩
      · simpa [Session.next, hnone] using h.plain
      · rw [Session.next, hp'] at hn
        cases hn
    · -- the bytes that were read are the next ones of the stream, and the cipher is where they start
      rw [hdec, AesCtr.apply] at hbs hdec'
      rw [hstream, xorStream_append, ← List.append_assoc] at hrest
      refine ⟨?_, fun _ => ⟨hidle', ?_, ?_⟩⟩
      · rw [Session.next, hbs]
        exact ⟨_, hrest⟩
      · simp [Session.next, hbs, hdec', Nat.add_assoc]
      · simpa [Session.next, hbs, Nat.add_assoc] using hrest

theorem session_decrypts (caps : List ℕ) (h : Decrypts ks p data s) :
    Decrypts ks p data (caps.foldl Session.next s) := by
  induction caps generalizing s with
  | nil => exact h
  | cons cap caps ih => exact ih (decrypts_next h cap)

end

end CryptoReader

end MtProxy.Stream
