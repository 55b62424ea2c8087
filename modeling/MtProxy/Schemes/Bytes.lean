import Mathlib.Data.Nat.Bitwise
import Mathlib.Tactic

/-! Fixed-width integers as bytes, least significant byte first (`to_le_bytes`,
    `from_le_bytes`). Writing truncates to the width, reading is exact, and the two are inverse on
    the integers that fit. Big-endian is the reverse. Then slices of a buffer and copying into one,
    and a flag kept in the highest bit of an integer. -/

namespace Schemes

/-- The `w` least significant bytes of `n`, lowest first. -/
def leBytes : ℕ → ℕ → List UInt8
  | 0, _ => []
  | w + 1, n => UInt8.ofNat n :: leBytes w (n / 256)

/-- The number a little-endian byte string stands for. -/
def leVal : List UInt8 → ℕ
  | [] => 0
  | b :: bs => b.toNat + 256 * leVal bs

/-- The number a big-endian byte string stands for. -/
def beVal (bs : List UInt8) : ℕ := leVal bs.reverse

@[simp] theorem length_leBytes (w n : ℕ) : (leBytes w n).length = w := by
  induction w generalizing n with
  | zero => rfl
  | succ w ih => rw [leBytes, List.length_cons, ih]

/-- Reading back what was written, cut to the width. -/
theorem leVal_leBytes (w n : ℕ) : leVal (leBytes w n) = n % 256 ^ w := by
  induction w generalizing n with
  | zero => simp [leBytes, leVal, Nat.mod_one]
  | succ w ih =>
    rw [leBytes, leVal, ih (n / 256), pow_succ, Nat.mul_comm (256 ^ w) 256, Nat.mod_mul,
      UInt8.toNat_ofNat']

theorem leVal_leBytes_of_lt {w n : ℕ} (h : n < 256 ^ w) : leVal (leBytes w n) = n := by
  rw [leVal_leBytes, Nat.mod_eq_of_lt h]

theorem leVal_lt (bs : List UInt8) : leVal bs < 256 ^ bs.length := by
  induction bs with
  | nil => simp [leVal]
  | cons b bs ih =>
    have hb : b.toNat < 256 := b.toNat_lt
    simp only [leVal, List.length_cons, pow_succ]
    omega

theorem leVal_lt_of_length {bs : List UInt8} {w : ℕ} (h : bs.length = w) :
    leVal bs < 2 ^ (8 * w) := by
  rw [pow_mul, ← h]
  exact leVal_lt bs

/-- Writing back what was read. -/
theorem leBytes_leVal (bs : List UInt8) : leBytes bs.length (leVal bs) = bs := by
  induction bs with
  | nil => rfl
  | cons b bs ih =>
    have hb : b.toNat < 256 := b.toNat_lt
    have hdiv : (b.toNat + 256 * leVal bs) / 256 = leVal bs := by omega
    rw [List.length_cons, leVal, leBytes, hdiv, ih]
    congr 1
    rw [← UInt8.toNat_inj, UInt8.toNat_ofNat']
    omega

/-! ### Slices -/

/-- `buf[pos..pos + len]`. -/
def slice (buf : List UInt8) (pos len : ℕ) : List UInt8 := (buf.drop pos).take len

/-- `buf[pos..pos + src.len()].copy_from_slice(src)`. -/
def copyInto (buf : List UInt8) (pos : ℕ) (src : List UInt8) : List UInt8 :=
  buf.take pos ++ (src ++ buf.drop (pos + src.length))

section
variable {buf src : List UInt8} {pos len i : ℕ}

@[simp] theorem length_slice : (slice buf pos len).length = min len (buf.length - pos) := by
  rw [slice, List.length_take, List.length_drop]

theorem length_copyInto (h : pos + src.length ≤ buf.length) :
    (copyInto buf pos src).length = buf.length := by
  simp only [copyInto, List.length_append, List.length_take, List.length_drop]
  omega

theorem drop_copyInto (h : pos + src.length ≤ buf.length) :
    (copyInto buf pos src).drop pos = src ++ buf.drop (pos + src.length) :=
  List.drop_left' (by rw [List.length_take]; omega)

theorem slice_copyInto (h : pos + src.length ≤ buf.length) :
    slice (copyInto buf pos src) pos src.length = src := by
  rw [slice, drop_copyInto h, List.take_left]

/-- What follows the buffer is left alone. -/
theorem copyInto_append (h : pos + src.length ≤ buf.length) (more : List UInt8) :
    copyInto (buf ++ more) pos src = copyInto buf pos src ++ more := by
  rw [copyInto, List.take_append_of_le_length (by omega), List.drop_append_of_le_length h, copyInto,
    List.append_assoc, List.append_assoc]

/-- The second copy to a place hides the first. -/
theorem copyInto_copyInto {old : List UInt8} (hlen : old.length = src.length)
    (h : pos + src.length ≤ buf.length) :
    copyInto (copyInto buf pos old) pos src = copyInto buf pos src := by
  have hold : pos + old.length ≤ buf.length := by omega
  have htake : (copyInto buf pos old).take pos = buf.take pos :=
    List.take_left' (by rw [List.length_take]; omega)
  have hdrop : (copyInto buf pos old).drop (pos + src.length) = buf.drop (pos + src.length) := by
    rw [← List.drop_drop, drop_copyInto hold, List.drop_left' hlen, hlen]
  rw [copyInto, htake, hdrop, copyInto]

/-- What lies before the overwritten part is as it was. -/
theorem slice_copyInto_before (h : pos + src.length ≤ buf.length) (hi : i + len ≤ pos) :
    slice (copyInto buf pos src) i len = slice buf i len := by
  have htake : (copyInto buf pos src).take pos = buf.take pos :=
    List.take_left' (by rw [List.length_take]; omega)
  have hcut : ∀ l : List UInt8, slice l i len = ((l.take pos).drop i).take len := by
    intro l
    rw [slice, List.drop_take, List.take_take, min_eq_left (by omega)]
  rw [hcut, htake, ← hcut]

/-- What lies behind the overwritten part is as it was. -/
theorem slice_copyInto_after (h : pos + src.length ≤ buf.length) (hi : pos + src.length ≤ i) :
    slice (copyInto buf pos src) i len = slice buf i len := by
  obtain ⟨k, rfl⟩ := Nat.exists_eq_add_of_le hi
  have hdrop : (copyInto buf pos src).drop (pos + src.length + k) =
      buf.drop (pos + src.length + k) := by
    rw [Nat.add_assoc, ← List.drop_drop, drop_copyInto h, ← List.drop_drop, List.drop_left,
      List.drop_drop, ← Nat.add_assoc]
  rw [slice, hdrop, slice]

end

/-! ### A flag in the highest bit -/

theorem or_two_pow {k n : ℕ} (h : n < 2 ^ (k + 1)) : n ||| 2 ^ k = 2 ^ k + n % 2 ^ k := by
  have hset : ∀ r, r < 2 ^ k → r ||| 2 ^ k = 2 ^ k + r := by
    intro r hr
    have hor := Nat.two_pow_add_eq_or_of_lt hr 1
    rw [Nat.mul_one] at hor
    rw [hor, Nat.or_comm]
  rcases lt_or_ge n (2 ^ k) with hlt | hge
  · rw [hset n hlt, Nat.mod_eq_of_lt hlt]
  · rw [pow_succ] at h
    have hr : n % 2 ^ k < 2 ^ k := Nat.mod_lt _ (by positivity)
    have hn : n = n % 2 ^ k ||| 2 ^ k := by
      rw [hset _ hr, Nat.mod_eq_sub_mod hge, Nat.mod_eq_of_lt (by omega)]
      omega
    conv_lhs => rw [hn, Nat.or_assoc, Nat.or_self]
    exact hset _ hr

theorem and_two_pow_ne_zero {k n : ℕ} (h : n < 2 ^ (k + 1)) : n &&& 2 ^ k ≠ 0 ↔ 2 ^ k ≤ n := by
  rw [Nat.and_two_pow]
  rcases lt_or_ge n (2 ^ k) with hlt | hge
  · simp [Nat.testBit_lt_two_pow hlt, hlt]
  · simp [Nat.testBit_of_two_pow_le_and_two_pow_add_one_gt hge h, hge]

theorem toNat_or_flag8 (b : UInt8) : (b ||| 0x80).toNat = 0x80 + b.toNat % 0x80 :=
  (UInt8.toNat_or b 0x80).trans (or_two_pow (k := 7) b.toNat_lt)

theorem toNat_and_flag8 (b : UInt8) : (b &&& 0x7f).toNat = b.toNat % 0x80 :=
  (UInt8.toNat_and b 0x7f).trans (Nat.and_two_pow_sub_one_eq_mod b.toNat 7)

theorem and_flag8_ne_zero (b : UInt8) : b &&& 0x80 ≠ 0 ↔ 0x80 ≤ b := by
  have hflag := and_two_pow_ne_zero (k := 7) b.toNat_lt
  rw [UInt8.le_iff_toNat_le, ne_eq, ← UInt8.toNat_inj, UInt8.toNat_and]
  exact hflag

theorem toNat_or_flag32 (v : UInt32) : (v ||| 0x80000000).toNat = 2 ^ 31 + v.toNat % 2 ^ 31 :=
  (UInt32.toNat_or v 0x80000000).trans (or_two_pow (k := 31) v.toNat_lt)

theorem toNat_and_flag32 (v : UInt32) : (v &&& 0x7fffffff).toNat = v.toNat % 2 ^ 31 :=
  (UInt32.toNat_and v 0x7fffffff).trans (Nat.and_two_pow_sub_one_eq_mod v.toNat 31)

end Schemes
