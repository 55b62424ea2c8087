import MtProxy.Schemes.Bytes

/-! Reading a byte string from the front. A reader takes a value off the front and leaves the rest,
    or fails; what was written in front of any rest is read back and that rest is left. `Yields` is
    the same for a source of bytes of any kind, which may never end.

        block    length, big-endian in w bytes │ body
        items    item │ item │ ⋯ │ item            nothing left over -/

namespace Schemes

/-- `n` in `w` bytes, highest first. -/
def beBytes (w n : ℕ) : List UInt8 := (leBytes w n).reverse

@[simp] theorem length_beBytes (w n : ℕ) : (beBytes w n).length = w := by
  rw [beBytes, List.length_reverse, length_leBytes]

theorem beVal_beBytes (w n : ℕ) : beVal (beBytes w n) = n % 256 ^ w := by
  rw [beVal, beBytes, List.reverse_reverse, leVal_leBytes]

theorem beVal_beBytes_of_lt {w n : ℕ} (h : n < 256 ^ w) : beVal (beBytes w n) = n := by
  rw [beVal_beBytes, Nat.mod_eq_of_lt h]

/-! ### Readers -/

def takeBytes (n : ℕ) (bs : List UInt8) : Option (List UInt8 × List UInt8) :=
  if n ≤ bs.length then some (bs.take n, bs.drop n) else none

def takeByte : List UInt8 → Option (UInt8 × List UInt8)
  | [] => none
  | b :: bs => some (b, bs)

/-- A little-endian number of `w` bytes. -/
def takeLe (w : ℕ) (bs : List UInt8) : Option (ℕ × List UInt8) :=
  (takeBytes w bs).map (Prod.map leVal id)

/-- A big-endian number of `w` bytes. -/
def takeBe (w : ℕ) (bs : List UInt8) : Option (ℕ × List UInt8) :=
  (takeBytes w bs).map (Prod.map beVal id)

/-- A body behind its length. -/
def takeBlock (w : ℕ) (bs : List UInt8) : Option (List UInt8 × List UInt8) :=
  (takeBe w bs).bind fun len => takeBytes len.1 len.2

/-- What was read, if nothing is left over. -/
def whole {α : Type*} : Option (α × List UInt8) → Option α
  | some (a, []) => some a
  | _ => none

/-- `body` behind its length. -/
def block (w : ℕ) (body : List UInt8) : List UInt8 := beBytes w body.length ++ body

section
variable {w n : ℕ} {bs rest : List UInt8}

theorem takeBytes_append (h : bs.length = n) : takeBytes n (bs ++ rest) = some (bs, rest) := by
  rw [takeBytes, if_pos (by rw [List.length_append]; omega), List.take_left' h, List.drop_left' h]

theorem takeLe_leBytes (h : n < 256 ^ w) : takeLe w (leBytes w n ++ rest) = some (n, rest) := by
  rw [takeLe, takeBytes_append (length_leBytes w n), Option.map_some, Prod.map_apply, id_eq,
    leVal_leBytes_of_lt h]

theorem takeBe_beBytes (h : n < 256 ^ w) : takeBe w (beBytes w n ++ rest) = some (n, rest) := by
  rw [takeBe, takeBytes_append (length_beBytes w n), Option.map_some, Prod.map_apply, id_eq,
    beVal_beBytes_of_lt h]

theorem takeBlock_block (h : bs.length < 256 ^ w) :
    takeBlock w (block w bs ++ rest) = some (bs, rest) := by
  rw [takeBlock, block, List.append_assoc, takeBe_beBytes h, Option.bind_some,
    takeBytes_append rfl]

theorem takeBlock_all (h : bs.length < 256 ^ w) : whole (takeBlock w (block w bs)) = some bs := by
  have hall : takeBlock w (block w bs ++ []) = some (bs, []) := takeBlock_block h
  rw [List.append_nil] at hall
  rw [hall, whole]

@[simp] theorem length_block : (block w bs).length = w + bs.length := by
  rw [block, List.length_append, length_beBytes]

end

/-! ### From any source -/

section
variable {R : Type*} (read : R → Option (UInt8 × R))

/-- `read_exact` from a source that gives one byte after the other, until it fails. -/
def readExact : ℕ → R → Option (List UInt8 × R)
  | 0, r => some ([], r)
  | n + 1, r => (read r).bind fun p => (readExact n p.2).map (Prod.map (p.1 :: ·) id)

/-- The next bytes of `r` are `bs`, and what follows them is `r'`. -/
def Yields (bs : List UInt8) (r r' : R) : Prop := readExact read bs.length r = some (bs, r')

variable {read} {n : ℕ} {b : UInt8} {bs cs : List UInt8} {r r' : R}

theorem length_readExact (h : readExact read n r = some (bs, r')) : bs.length = n := by
  induction n generalizing r bs with
  | zero =>
    obtain ⟨rfl, -⟩ := Prod.mk.inj (Option.some.inj h)
    rfl
  | succ n ih =>
    rw [readExact, Option.bind_eq_some_iff] at h
    obtain ⟨p, -, h⟩ := h
    obtain ⟨q, hq, heq⟩ := Option.map_eq_some_iff.mp h
    obtain ⟨rfl, rfl⟩ := Prod.mk.inj heq
    rw [List.length_cons, ih hq]

theorem yields_cons : Yields read (b :: bs) r r' ↔
    ∃ r₁, read r = some (b, r₁) ∧ Yields read bs r₁ r' := by
  rw [Yields, List.length_cons, readExact, Option.bind_eq_some_iff]
  constructor
  · rintro ⟨⟨b', r₁⟩, hb, h⟩
    obtain ⟨⟨bs', r₂⟩, hbs, heq⟩ := Option.map_eq_some_iff.mp h
    obtain ⟨hcons, rfl⟩ := Prod.mk.inj heq
    obtain ⟨rfl, rfl⟩ := List.cons.inj hcons
    exact ⟨r₁, hb, hbs⟩
  · rintro ⟨r₁, hb, h⟩
    exact ⟨(b, r₁), hb, by rw [Yields] at h; rw [h]; rfl⟩

theorem yields_append : Yields read (bs ++ cs) r r' ↔
    ∃ r₁, Yields read bs r r₁ ∧ Yields read cs r₁ r' := by
  induction bs generalizing r with
  | nil => simp [Yields, readExact]
  | cons b bs ih =>
    simp only [List.cons_append, yields_cons, ih]
    constructor
    · rintro ⟨r₁, hb, r₂, hbs, hcs⟩
      exact ⟨r₂, ⟨r₁, hb, hbs⟩, hcs⟩
    · rintro ⟨r₂, ⟨r₁, hb, hbs⟩, hcs⟩
      exact ⟨r₁, hb, r₂, hbs, hcs⟩

/-- A byte string is a source that yields its bytes. -/
theorem yields_takeByte (bs rest : List UInt8) : Yields takeByte bs (bs ++ rest) rest := by
  induction bs with
  | nil => rfl
  | cons b bs ih => exact yields_cons.mpr ⟨bs ++ rest, rfl, ih⟩

end

/-! ### Accesses that can fail -/

/-- `buf[pos..pos + len]`; out of range it fails. -/
def sliceChecked (buf : List UInt8) (pos len : ℕ) : Option (List UInt8) :=
  if pos + len ≤ buf.length then some (slice buf pos len) else none

/-- `buf[pos..pos + src.len()].copy_from_slice(src)`; out of range it fails. -/
def copyIntoChecked (buf : List UInt8) (pos : ℕ) (src : List UInt8) : Option (List UInt8) :=
  if pos + src.length ≤ buf.length then some (copyInto buf pos src) else none

/-- `checked_add` on 64 bits. -/
def checkedAdd (a b : ℕ) : Option ℕ := if a + b < 2 ^ 64 then some (a + b) else none

theorem sliceChecked_eq {buf : List UInt8} {pos len : ℕ} (h : pos + len ≤ buf.length) :
    sliceChecked buf pos len = some (slice buf pos len) := if_pos h

theorem copyIntoChecked_eq {buf src : List UInt8} {pos : ℕ} (h : pos + src.length ≤ buf.length) :
    copyIntoChecked buf pos src = some (copyInto buf pos src) := if_pos h

/-! ### Lists of items -/

section
variable {α : Type*}

/-- Items to the end of the input, `n` bounding how many. -/
def takeItems (read : List UInt8 → Option (α × List UInt8)) : ℕ → List UInt8 → Option (List α)
  | _, [] => some []
  | 0, _ :: _ => none
  | n + 1, b :: bs =>
    (read (b :: bs)).bind fun item => (takeItems read n item.2).map (item.1 :: ·)

/-- The items a byte string consists of: no item is empty, so its length bounds their number. -/
def readAll (read : List UInt8 → Option (α × List UInt8)) (bs : List UInt8) : Option (List α) :=
  takeItems read bs.length bs

theorem takeItems_flatMap {read : List UInt8 → Option (α × List UInt8)} {write : α → List UInt8}
    {xs : List α} (hread : ∀ x ∈ xs, ∀ rest, read (write x ++ rest) = some (x, rest))
    (hne : ∀ x ∈ xs, write x ≠ []) {n : ℕ} (hn : xs.length ≤ n) :
    takeItems read n (xs.flatMap write) = some xs := by
  induction xs generalizing n with
  | nil => cases n <;> rfl
  | cons x xs ih =>
    obtain ⟨m, rfl⟩ : ∃ m, n = m + 1 := Nat.exists_eq_add_of_le' (by simp at hn; omega)
    have hx := hread x List.mem_cons_self (xs.flatMap write)
    have hrest := ih (fun y hy => hread y (List.mem_cons_of_mem _ hy))
      (fun y hy => hne y (List.mem_cons_of_mem _ hy)) (n := m) (by simpa using hn)
    obtain ⟨b, bs, hb⟩ := List.exists_cons_of_ne_nil (hne x List.mem_cons_self)
    rw [List.flatMap_cons]
    rw [hb] at hx ⊢
    rw [List.cons_append] at hx ⊢
    rw [takeItems, hx, Option.bind_some, hrest, Option.map_some]

theorem readAll_flatMap {read : List UInt8 → Option (α × List UInt8)} {write : α → List UInt8}
    {xs : List α} (hread : ∀ x ∈ xs, ∀ rest, read (write x ++ rest) = some (x, rest))
    (hne : ∀ x ∈ xs, write x ≠ []) : readAll read (xs.flatMap write) = some xs := by
  refine takeItems_flatMap hread hne ?_
  induction xs with
  | nil => exact Nat.zero_le _
  | cons x xs ih =>
    have hx := List.length_pos_iff.mpr (hne x List.mem_cons_self)
    have hxs := ih (fun y hy => hread y (List.mem_cons_of_mem _ hy))
      (fun y hy => hne y (List.mem_cons_of_mem _ hy))
    rw [List.flatMap_cons, List.length_append, List.length_cons]
    omega

end

end Schemes
