import Mathlib.Tactic

/-! The buffers of `stream/state.rs` behind the FakeTLS wrappers. Each carries the bound of its
    position as a field, so the slices taken from it never leave the buffer. -/

namespace MtProxy.Stream

/-! ### `WriteBuffer` -/

/-- `WriteBuffer`: the bytes from `position` on are still to be written. -/
structure WriteBuffer where
  buffer : List UInt8
  position : ℕ
  maxSize : ℕ
  position_le : position ≤ buffer.length

namespace WriteBuffer

theorem position_le_nil : 0 ≤ ([] : List UInt8).length := le_refl _

def withMaxSize (maxSize : ℕ) : WriteBuffer := ⟨[], 0, maxSize, position_le_nil⟩

def len (b : WriteBuffer) : ℕ := b.buffer.length - b.position

def isEmpty (b : WriteBuffer) : Bool := decide (b.buffer.length ≤ b.position)

/-- `extend`: append `data`, or refuse it when the buffer would pass its maximum. -/
def extend (b : WriteBuffer) (data : List UInt8) : Except Unit WriteBuffer :=
  if b.maxSize < b.buffer.length + data.length then .error ()
  else .ok ⟨b.buffer ++ data, b.position, b.maxSize, le_trans b.position_le (by simp)⟩

def pending (b : WriteBuffer) : List UInt8 := b.buffer.drop b.position

def advance (b : WriteBuffer) (n : ℕ) : WriteBuffer :=
  if h : b.buffer.length ≤ b.position + n then ⟨[], 0, b.maxSize, position_le_nil⟩
  else ⟨b.buffer, b.position + n, b.maxSize, le_of_lt (not_le.mp h)⟩

@[simp] theorem length_pending (b : WriteBuffer) : b.pending.length = b.len := by
  simp [pending, len]

theorem isEmpty_iff (b : WriteBuffer) : b.isEmpty = true ↔ b.pending = [] := by
  rw [isEmpty, decide_eq_true_iff, pending, List.drop_eq_nil_iff]

theorem advance_pending (b : WriteBuffer) (n : ℕ) :
    (b.advance n).pending = b.pending.drop n := by
  unfold advance pending
  rw [List.drop_drop]
  split_ifs with h
  · simp [List.drop_eq_nil_of_le h]
  · rfl

theorem advance_buffer_le (b : WriteBuffer) (n : ℕ) :
    (b.advance n).buffer.length ≤ b.buffer.length := by
  unfold advance
  split_ifs <;> simp

@[simp] theorem advance_maxSize (b : WriteBuffer) (n : ℕ) : (b.advance n).maxSize = b.maxSize := by
  unfold advance
  split_ifs <;> rfl

theorem advance_lt (b : WriteBuffer) {n : ℕ} (hn : 0 < n) (hb : b.isEmpty = false) :
    (b.advance n).len < b.len := by
  have hpos : ¬ b.buffer.length ≤ b.position := by simpa [isEmpty] using hb
  rw [← length_pending, advance_pending, List.length_drop, length_pending, len]
  omega

/-- Filling a fresh buffer within its bound succeeds and leaves exactly the data pending. -/
theorem extend_withMaxSize {maxSize : ℕ} {data : List UInt8} (h : data.length ≤ maxSize) :
    (withMaxSize maxSize).extend data = .ok ⟨data, 0, maxSize, Nat.zero_le _⟩ := by
  simp [extend, withMaxSize, not_lt.mpr h]

end WriteBuffer

/-! ### `HeaderBuffer` -/

/-- `HeaderBuffer<N>`: the bytes filled so far. -/
structure HeaderBuffer (N : ℕ) where
  filled : List UInt8
  filled_le : filled.length ≤ N

namespace HeaderBuffer
variable {N : ℕ}

def new : HeaderBuffer N := ⟨[], Nat.zero_le _⟩

def isComplete (h : HeaderBuffer N) : Bool := decide (N ≤ h.filled.length)

def remaining (h : HeaderBuffer N) : ℕ := N - h.filled.length

/-- Read `bs` into the unfilled part and advance over it. -/
def advance (h : HeaderBuffer N) (bs : List UInt8) : HeaderBuffer N :=
  ⟨(h.filled ++ bs).take N, by simp⟩

theorem advance_filled (h : HeaderBuffer N) {bs : List UInt8} (hbs : bs.length ≤ h.remaining) :
    (h.advance bs).filled = h.filled ++ bs := by
  refine List.take_of_length_le ?_
  have := h.filled_le
  rw [remaining] at hbs
  rw [List.length_append]
  omega

end HeaderBuffer

/-! ### `YieldBuffer` -/

/-- `YieldBuffer`: the bytes from `position` on are still to be handed out. -/
structure YieldBuffer where
  data : List UInt8
  position : ℕ
  position_le : position ≤ data.length

namespace YieldBuffer

theorem position_le_start (data : List UInt8) : 0 ≤ data.length := Nat.zero_le _

def new (data : List UInt8) : YieldBuffer := ⟨data, 0, position_le_start data⟩

def isEmpty (b : YieldBuffer) : Bool := decide (b.data.length ≤ b.position)

def remaining (b : YieldBuffer) : ℕ := b.data.length - b.position

def asSlice (b : YieldBuffer) : List UInt8 := b.data.drop b.position

/-- `copy_to` a slice of `n` bytes: the bytes copied and the advanced buffer. -/
def copyTo (b : YieldBuffer) (n : ℕ) : List UInt8 × YieldBuffer :=
  (b.asSlice.take n,
    ⟨b.data, b.position + min n b.remaining, by
      have := b.position_le
      rw [remaining]
      omega⟩)

theorem isEmpty_iff (b : YieldBuffer) : b.isEmpty = true ↔ b.asSlice = [] := by
  rw [isEmpty, decide_eq_true_iff, asSlice, List.drop_eq_nil_iff]

@[simp] theorem length_asSlice (b : YieldBuffer) : b.asSlice.length = b.remaining := by
  simp [asSlice, remaining]

/-- Nothing is lost or repeated: the copy and what is left are the old remainder. -/
theorem copyTo_append (b : YieldBuffer) (n : ℕ) :
    (b.copyTo n).1 ++ (b.copyTo n).2.asSlice = b.asSlice := by
  have hrest : (b.copyTo n).2.asSlice = b.asSlice.drop (min n b.remaining) := by
    simp only [copyTo, asSlice, List.drop_drop]
  have htake : b.asSlice.take n = b.asSlice.take (min n b.remaining) := by
    rw [← length_asSlice, ← List.take_take, List.take_length]
  rw [hrest, copyTo, htake, List.take_append_drop]

end YieldBuffer

end MtProxy.Stream
