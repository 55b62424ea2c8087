import MtProxy.Crypto.Ctr
import MtProxy.Schemes.Cbc
import MtProxy.Schemes.Loop

/-! `SecureRandom`: a generator whose output is encrypted before it is given out, in chunks of 512 bytes of
    which what is left is kept for the next call.

        generator   ├──── chunk ────┼──── chunk ────┼──── chunk ────┤
                              ⊕  one keystream
        given out   ├ 16 ┼ 48 ┼── 600 ──────────────┼ 4 ┤ buffer

    All callers share it behind one lock, so that a run is a sequence of calls. Whatever they ask for, what
    they get are consecutive pieces of one stream. -/

namespace MtProxy.Crypto.Random
open Schemes

def chunkSize : ℕ := 512

/-- The generator behind: `fill_bytes` for a whole chunk, and `gen_range`. -/
structure Rng (R : Type) where
  fillBytes : R → Block UInt8 chunkSize × R
  genRange : (max : ℕ) → 0 < max → R → Fin max × R

/-- `drawn` is what the generator has given for the buffer so far. -/
structure SecureRandomInner (R : Type) where
  rng : R
  cipher : AesCtr
  buffer : List UInt8
  drawn : List UInt8

/-- What is asked for. `shuffle`, `u32` and `u64` draw as `range` does and are left out, `bits` and
    `choose` are made of these two. -/
inductive Request where
  | fill (len : ℕ)
  | range (max : ℕ)

inductive Reply where
  | bytes (out : List UInt8)
  | number (n : ℕ)
  deriving DecidableEq

section
variable {R : Type} (g : Rng R)

def SecureRandomInner.new (r : R) (keystream : ℕ → UInt8) : SecureRandomInner R :=
  ⟨r, ⟨keystream, 0⟩, [], []⟩

/-- A new chunk for the buffer. -/
def drawChunk (s : SecureRandomInner R) : SecureRandomInner R :=
  let (chunk, rng) := g.fillBytes s.rng
  let (masked, cipher) := s.cipher.apply chunk.toList
  ⟨rng, cipher, s.buffer ++ masked, s.drawn ++ chunk.toList⟩

def refilled (s : SecureRandomInner R) : SecureRandomInner R :=
  if s.buffer.isEmpty then drawChunk g s else s

/-- One round of the loop in `fill`, with what was written so far. -/
def fillRound (len : ℕ) (x : SecureRandomInner R × List UInt8) :
    (SecureRandomInner R × List UInt8) ⊕ (List UInt8 × SecureRandomInner R) :=
  if len ≤ x.2.length then .inr (x.2, x.1)
  else
    let inner := refilled g x.1
    let take := min (len - x.2.length) inner.buffer.length
    .inl ({ inner with buffer := inner.buffer.drop take }, x.2 ++ inner.buffer.take take)

theorem refilled_buffer_pos (s : SecureRandomInner R) : 0 < (refilled g s).buffer.length := by
  unfold refilled
  split
  · have hmasked : ((s.cipher.apply (g.fillBytes s.rng).1.toList).1).length = chunkSize := by
      rw [AesCtr.apply, length_xorStream, (g.fillBytes s.rng).1.length_eq]
    change 0 < (s.buffer ++ (s.cipher.apply (g.fillBytes s.rng).1.toList).1).length
    rw [List.length_append, hmasked, chunkSize]
    omega
  · rename_i h
    exact List.length_pos_iff.mpr (by simpa using h)

theorem fillRound_lt (len : ℕ) (x x' : SecureRandomInner R × List UInt8)
    (h : fillRound g len x = .inl x') : len - x'.2.length < len - x.2.length := by
  unfold fillRound at h
  split at h
  · cases h
  · obtain rfl := Sum.inl.inj h
    have hpos := refilled_buffer_pos g x.1
    simp only [List.length_append, List.length_take]
    omega

def fill (len : ℕ) (s : SecureRandomInner R) : List UInt8 × SecureRandomInner R :=
  loop (fillRound g len) (fun x => len - x.2.length) (fillRound_lt g len) (s, [])

def range (max : ℕ) (s : SecureRandomInner R) : ℕ × SecureRandomInner R :=
  if h : max = 0 then (0, s)
  else
    let (n, rng) := g.genRange max (Nat.pos_of_ne_zero h) s.rng
    (n, { s with rng := rng })

def serve (s : SecureRandomInner R) : Request → Reply × SecureRandomInner R
  | .fill len => Prod.map .bytes id (fill g len s)
  | .range max => Prod.map .number id (range g max s)

def serveAll : SecureRandomInner R → List Request → List Reply × SecureRandomInner R
  | s, [] => ([], s)
  | s, req :: reqs =>
    let (reply, s) := serve g s req
    let (replies, s) := serveAll s reqs
    (reply :: replies, s)

end

/-! ### One stream -/

/-- What was asked for. -/
def Answers : Request → Reply → Prop
  | .fill len, .bytes out => out.length = len
  | .range max, .number n => n < max ∨ max = 0 ∧ n = 0
  | _, _ => False

def Reply.given : Reply → List UInt8
  | .bytes out => out
  | .number _ => []

/-- `out` has been given out, and with the buffer it is all that was drawn, encrypted. -/
structure Streams (keystream : ℕ → UInt8) (out : List UInt8) {R : Type} (s : SecureRandomInner R) :
    Prop where
  stream : out ++ s.buffer = xorStream keystream 0 s.drawn
  cipher : s.cipher = ⟨keystream, s.drawn.length⟩
  chunks : chunkSize ∣ s.drawn.length
  ahead : s.buffer.length < chunkSize

section
variable {R : Type} {g : Rng R} {keystream : ℕ → UInt8} {out : List UInt8} {s s' : SecureRandomInner R}

theorem Streams.new (r : R) (keystream : ℕ → UInt8) : Streams keystream [] (.new r keystream) :=
  ⟨rfl, rfl, dvd_zero chunkSize, Nat.zero_lt_succ 511⟩

/-- Behind `refilled` there may be a whole chunk. -/
theorem Streams.refilled (h : Streams keystream out s) :
    out ++ (refilled g s).buffer = xorStream keystream 0 (refilled g s).drawn ∧
      (refilled g s).cipher = ⟨keystream, (refilled g s).drawn.length⟩ ∧
      chunkSize ∣ (refilled g s).drawn.length ∧ (refilled g s).buffer.length ≤ chunkSize := by
  obtain ⟨hstream, hcipher, hchunks, hahead⟩ := h
  unfold Random.refilled
  split
  · rename_i hempty
    have hnil : s.buffer = [] := by simpa using hempty
    rw [hnil, List.append_nil] at hstream
    have hlen := (g.fillBytes s.rng).1.length_eq
    refine ⟨?_, ?_, ?_, ?_⟩
    · change out ++ (s.buffer ++ (s.cipher.apply (g.fillBytes s.rng).1.toList).1) =
        xorStream keystream 0 (s.drawn ++ (g.fillBytes s.rng).1.toList)
      rw [xorStream_append, ← hstream, hnil, List.nil_append, hcipher, AesCtr.apply, Nat.zero_add]
    · change (s.cipher.apply (g.fillBytes s.rng).1.toList).2 =
        ⟨keystream, (s.drawn ++ (g.fillBytes s.rng).1.toList).length⟩
      rw [hcipher, AesCtr.apply, List.length_append]
    · change chunkSize ∣ (s.drawn ++ (g.fillBytes s.rng).1.toList).length
      rw [List.length_append, hlen]
      exact dvd_add hchunks (dvd_refl _)
    · change (s.buffer ++ (s.cipher.apply (g.fillBytes s.rng).1.toList).1).length ≤ chunkSize
      rw [hnil, List.nil_append, AesCtr.apply, length_xorStream, hlen]
  · exact ⟨hstream, hcipher, hchunks, hahead.le⟩

/-- What `fill` gives continues the stream. -/
theorem Streams.fill (h : Streams keystream out s) (len : ℕ) :
    (fill g len s).1.length = len ∧ Streams keystream (out ++ (fill g len s).1) (fill g len s).2 := by
  refine loop_invariant (fillRound g len) (fun x => len - x.2.length) (fillRound_lt g len)
    (I := fun x => x.2.length ≤ len ∧ Streams keystream (out ++ x.2) x.1)
    (Q := fun r => r.1.length = len ∧ Streams keystream (out ++ r.1) r.2) ?_ ?_ (s, [])
    ⟨Nat.zero_le len, by rwa [List.append_nil]⟩
  · rintro ⟨s, written⟩ x' ⟨hle, hs⟩ hround
    unfold fillRound at hround
    split at hround
    · cases hround
    · rename_i hlt
      obtain rfl := Sum.inl.inj hround
      dsimp only at hle hs hlt ⊢
      obtain ⟨hstream, hcipher, hchunks, hahead⟩ := hs.refilled (g := g)
      have hpos := refilled_buffer_pos g s
      refine ⟨?_, ?_, hcipher, hchunks, ?_⟩
      · simp only [List.length_append, List.length_take]
        omega
      · rw [← List.append_assoc, List.append_assoc (out ++ written), List.take_append_drop]
        exact hstream
      · change ((Random.refilled g s).buffer.drop
          (min (len - written.length) (Random.refilled g s).buffer.length)).length < chunkSize
        rw [List.length_drop]
        omega
  · rintro ⟨s, written⟩ r ⟨hle, hs⟩ hround
    unfold fillRound at hround
    split at hround
    · rename_i hge
      obtain rfl := Sum.inr.inj hround
      exact ⟨le_antisymm hle hge, hs⟩
    · cases hround

theorem Streams.serve (h : Streams keystream out s) (req : Request) :
    Answers req (serve g s req).1 ∧
      Streams keystream (out ++ (serve g s req).1.given) (serve g s req).2 := by
  cases req with
  | fill len => exact h.fill len
  | range max =>
    have hnumber : (range g max s).1 < max ∨ max = 0 ∧ (range g max s).1 = 0 := by
      unfold range
      split
      · rename_i hmax
        exact .inr ⟨hmax, rfl⟩
      · exact .inl (Fin.is_lt _)
    refine ⟨hnumber, ?_⟩
    change Streams keystream (out ++ []) (range g max s).2
    rw [List.append_nil]
    unfold range
    split
    · exact h
    · exact ⟨h.stream, h.cipher, h.chunks, h.ahead⟩

theorem Streams.serveAll (h : Streams keystream out s) (reqs : List Request) :
    List.Forall₂ Answers reqs (serveAll g s reqs).1 ∧
      Streams keystream (out ++ (serveAll g s reqs).1.flatMap Reply.given) (serveAll g s reqs).2 := by
  induction reqs generalizing s out with
  | nil => exact ⟨.nil, by simpa [Random.serveAll] using h⟩
  | cons req reqs ih =>
    obtain ⟨hanswer, hserve⟩ := h.serve (g := g) req
    obtain ⟨hanswers, hall⟩ := ih hserve
    refine ⟨.cons hanswer hanswers, ?_⟩
    change Streams keystream (out ++ List.flatMap Reply.given (_ :: _)) _
    rw [List.flatMap_cons, ← List.append_assoc]
    exact hall

end

end MtProxy.Crypto.Random
