import Mathlib.Tactic

/-! AES-256-CTR as the proxy uses it: a cipher object that remembers how much of its keystream is
    spent. `apply` XORs a slice with the next keystream bytes and advances by the slice's length, so
    encrypting two slices one after the other is encrypting their concatenation, and a second cipher
    at the same position undoes the first. The keystream itself (the AES core) is a parameter. -/

namespace MtProxy.Crypto

/-- `data` XORed with the keystream from position `p` on. -/
def xorStream (ks : ℕ → UInt8) : ℕ → List UInt8 → List UInt8
  | _, [] => []
  | p, b :: bs => (b ^^^ ks p) :: xorStream ks (p + 1) bs

@[simp] theorem length_xorStream (ks : ℕ → UInt8) (p : ℕ) (l : List UInt8) :
    (xorStream ks p l).length = l.length := by
  induction l generalizing p with
  | nil => rfl
  | cons b bs ih => rw [xorStream, List.length_cons, List.length_cons, ih]

/-- Encryption of a concatenation: the second part continues where the first one stopped. -/
theorem xorStream_append (ks : ℕ → UInt8) (p : ℕ) (a b : List UInt8) :
    xorStream ks p (a ++ b) = xorStream ks p a ++ xorStream ks (p + a.length) b := by
  induction a generalizing p with
  | nil => simp [xorStream]
  | cons x a ih =>
    simp only [List.cons_append, xorStream, List.length_cons]
    rw [ih (p + 1), Nat.add_right_comm, Nat.add_assoc]

/-- The same keystream a second time gives the data back. -/
theorem xorStream_xorStream (ks : ℕ → UInt8) (p : ℕ) (l : List UInt8) :
    xorStream ks p (xorStream ks p l) = l := by
  induction l generalizing p with
  | nil => rfl
  | cons b bs ih =>
    rw [xorStream, xorStream, ih (p + 1), UInt8.xor_assoc, UInt8.xor_self, UInt8.xor_zero]

theorem drop_xorStream (ks : ℕ → UInt8) (n p : ℕ) (l : List UInt8) :
    (xorStream ks p l).drop n = xorStream ks (p + n) (l.drop n) := by
  induction n generalizing p l with
  | zero => rfl
  | succ n ih =>
    cases l with
    | nil => rfl
    | cons b bs =>
      rw [xorStream, List.drop_succ_cons, ih (p + 1) bs, List.drop_succ_cons, Nat.add_assoc,
        Nat.add_comm 1 n]

theorem take_xorStream (ks : ℕ → UInt8) (n p : ℕ) (l : List UInt8) :
    (xorStream ks p l).take n = xorStream ks p (l.take n) := by
  induction n generalizing p l with
  | zero => rfl
  | succ n ih =>
    cases l with
    | nil => rfl
    | cons b bs => rw [xorStream, List.take_succ_cons, ih (p + 1) bs, List.take_succ_cons, xorStream]

/-- The AES-256 core: the keystream that a 32-byte key and a 128-bit IV give. -/
abbrev Keystream := List UInt8 → BitVec 128 → ℕ → UInt8

/-- `AesCtr`: the keystream of key and IV, and the position in it. -/
structure AesCtr where
  keystream : ℕ → UInt8
  pos : ℕ

/-- `AesCtr::apply`: the transformed slice and the advanced cipher. -/
def AesCtr.apply (c : AesCtr) (data : List UInt8) : List UInt8 × AesCtr :=
  (xorStream c.keystream c.pos data, { c with pos := c.pos + data.length })

def AesCtr.new (aes : Keystream) (key : List UInt8) (iv : BitVec 128) : AesCtr := ⟨aes key iv, 0⟩

/-- One `apply` after the other: the outputs. -/
def AesCtr.applyAll : AesCtr → List (List UInt8) → List (List UInt8)
  | _, [] => []
  | c, data :: rest => (c.apply data).1 :: AesCtr.applyAll (c.apply data).2 rest

/-- A peer at the same position reads what was encrypted, piece by piece, as one stream. -/
theorem AesCtr.applyAll_decrypt (c : AesCtr) (pieces : List (List UInt8)) :
    xorStream c.keystream c.pos (c.applyAll pieces).flatten = pieces.flatten := by
  induction pieces generalizing c with
  | nil => rfl
  | cons data rest ih =>
    rw [applyAll, List.flatten_cons, List.flatten_cons, xorStream_append]
    refine congrArg₂ (· ++ ·) (xorStream_xorStream _ _ _) ?_
    rw [apply, length_xorStream]
    exact ih ⟨c.keystream, c.pos + data.length⟩

end MtProxy.Crypto
