import Mathlib.Tactic

/-! Cipher block chaining over an arbitrary block type. `x` combines two blocks, `E` and `D` are the
    block cipher under one key. Decryption inverts encryption when `D` inverts `E` and `x` cancels,
    and both directions can be cut at any block boundary, the second part chained to the last
    cipher block of the first.

    The second part cuts byte strings into blocks of `k` bytes and puts them together again. The third
    is about the loops that compute a chaining mode: a block goes in with what is carried over from
    the one before, a block comes out and something is carried on. `copyRounds_map` is the loop that
    collects the result, `foldlM_inPlace` the one that overwrites its own input. -/

namespace Schemes

section
variable {B : Type*} (x : B → B → B) (E D : B → B)

/-- CBC encryption: each block is combined with the cipher block before it. -/
def cbcEnc : B → List B → List B
  | _, [] => []
  | iv, p :: ps => E (x p iv) :: cbcEnc (E (x p iv)) ps

/-- CBC decryption. -/
def cbcDec : B → List B → List B
  | _, [] => []
  | iv, c :: cs => x (D c) iv :: cbcDec c cs

theorem cbcDec_cbcEnc (hD : ∀ b, D (E b) = b) (hx : ∀ a b, x (x a b) b = a) (iv : B)
    (ps : List B) : cbcDec x D iv (cbcEnc x E iv ps) = ps := by
  induction ps generalizing iv with
  | nil => rfl
  | cons p ps ih => rw [cbcEnc, cbcDec, hD, hx, ih (E (x p iv))]

theorem cbcEnc_append (iv : B) (ps qs : List B) : cbcEnc x E iv (ps ++ qs) =
    cbcEnc x E iv ps ++ cbcEnc x E ((cbcEnc x E iv ps).getLastD iv) qs := by
  induction ps generalizing iv with
  | nil => rfl
  | cons p ps ih =>
    rw [List.cons_append, cbcEnc, cbcEnc, List.cons_append, ih, List.getLastD_cons]

theorem cbcDec_append (iv : B) (cs ds : List B) : cbcDec x D iv (cs ++ ds) =
    cbcDec x D iv cs ++ cbcDec x D (cs.getLastD iv) ds := by
  induction cs generalizing iv with
  | nil => rfl
  | cons c cs ih =>
    rw [List.cons_append, cbcDec, cbcDec, List.cons_append, ih, List.getLastD_cons]

@[simp] theorem length_cbcEnc (iv : B) (ps : List B) : (cbcEnc x E iv ps).length = ps.length := by
  induction ps generalizing iv with
  | nil => rfl
  | cons p ps ih => rw [cbcEnc, List.length_cons, List.length_cons, ih]

@[simp] theorem length_cbcDec (iv : B) (cs : List B) : (cbcDec x D iv cs).length = cs.length := by
  induction cs generalizing iv with
  | nil => rfl
  | cons c cs ih => rw [cbcDec, List.length_cons, List.length_cons, ih]

end

/-! ### Bytes and blocks -/

/-- `k` elements in a row. -/
@[ext] structure Block (α : Type*) (k : ℕ) where
  toList : List α
  length_eq : toList.length = k
  deriving DecidableEq

section
variable {α : Type*} (k : ℕ)

/-- The first `n` blocks of `k` elements. -/
def blocksAux : ℕ → List α → List (Block α k)
  | 0, _ => []
  | n + 1, l => if h : k ≤ l.length then ⟨l.take k, by simp [h]⟩ :: blocksAux n (l.drop k) else []

/-- All complete blocks of `l`, in order. -/
def toBlocks (l : List α) : List (Block α k) := blocksAux k (l.length / k) l

variable {k}

/-- The blocks put together again. -/
def ofBlocks (bs : List (Block α k)) : List α := (bs.map (·.toList)).flatten

@[simp] theorem ofBlocks_nil : ofBlocks ([] : List (Block α k)) = [] := rfl

@[simp] theorem ofBlocks_cons (b : Block α k) (bs : List (Block α k)) :
    ofBlocks (b :: bs) = b.toList ++ ofBlocks bs := rfl

@[simp] theorem ofBlocks_append (as bs : List (Block α k)) :
    ofBlocks (as ++ bs) = ofBlocks as ++ ofBlocks bs := by simp [ofBlocks]

@[simp] theorem length_ofBlocks (bs : List (Block α k)) :
    (ofBlocks bs).length = k * bs.length := by
  induction bs with
  | nil => simp
  | cons b bs ih =>
    rw [ofBlocks_cons, List.length_append, b.length_eq, ih, List.length_cons]
    ring

theorem blocksAux_ofBlocks (bs : List (Block α k)) (rest : List α) :
    blocksAux k bs.length (ofBlocks bs ++ rest) = bs := by
  induction bs with
  | nil => rfl
  | cons b bs ih =>
    have hb := b.length_eq
    rw [List.length_cons, blocksAux, ofBlocks_cons, List.append_assoc,
      dif_pos (by rw [List.length_append]; omega)]
    have htake : (b.toList ++ (ofBlocks bs ++ rest)).take k = b.toList := List.take_left' hb
    have hdrop : (b.toList ++ (ofBlocks bs ++ rest)).drop k = ofBlocks bs ++ rest := List.drop_left' hb
    simp only [htake, hdrop, ih]

/-- Cutting what was put together gives the blocks back. -/
theorem toBlocks_ofBlocks (hk : 0 < k) (bs : List (Block α k)) :
    toBlocks k (ofBlocks bs) = bs := by
  have := blocksAux_ofBlocks bs []
  rw [List.append_nil] at this
  rw [toBlocks, length_ofBlocks, Nat.mul_div_cancel_left _ hk, this]

theorem exists_ofBlocks (n : ℕ) : ∀ (l : List α), l.length = k * n →
    ∃ bs : List (Block α k), l = ofBlocks bs ∧ bs.length = n := by
  induction n with
  | zero => intro l h; exact ⟨[], List.length_eq_zero_iff.mp (by simpa using h), rfl⟩
  | succ n ih =>
    intro l h
    have hk : k ≤ l.length := by rw [h, Nat.mul_succ]; omega
    obtain ⟨bs, hbs, hlen⟩ := ih (l.drop k) (by rw [List.length_drop, h, Nat.mul_succ]; omega)
    refine ⟨⟨l.take k, by simp [hk]⟩ :: bs, ?_, by rw [List.length_cons, hlen]⟩
    rw [ofBlocks_cons, ← hbs, List.take_append_drop]

/-- A string of whole blocks is its blocks put together. -/
theorem ofBlocks_toBlocks (hk : 0 < k) {l : List α} (h : k ∣ l.length) :
    ofBlocks (toBlocks k l) = l := by
  obtain ⟨n, hn⟩ := h
  obtain ⟨bs, rfl, -⟩ := exists_ofBlocks n l hn
  rw [toBlocks_ofBlocks hk]

/-- Cutting at a block boundary. -/
theorem toBlocks_append (hk : 0 < k) {a b : List α} (ha : k ∣ a.length) (hb : k ∣ b.length) :
    toBlocks k (a ++ b) = toBlocks k a ++ toBlocks k b := by
  conv_lhs => rw [← ofBlocks_toBlocks hk ha, ← ofBlocks_toBlocks hk hb, ← ofBlocks_append]
  exact toBlocks_ofBlocks hk _

/-- The last `k` elements are the last block. -/
theorem drop_ofBlocks (bs : List (Block α k)) (b : Block α k) :
    (ofBlocks (bs ++ [b])).drop ((ofBlocks (bs ++ [b])).length - k) = b.toList := by
  rw [ofBlocks_append, ofBlocks_cons, ofBlocks_nil, List.append_nil, List.length_append, b.length_eq,
    Nat.add_sub_cancel, List.drop_left]

end

/-! ### Rounds -/

section
variable {S B : Type*}

/-- Block by block: `round` gives the block that comes out and what is carried on. -/
def carryMap (round : S → B → B × S) : S → List B → List B
  | _, [] => []
  | s, b :: bs => (round s b).1 :: carryMap round (round s b).2 bs

variable (x : B → B → B) (E D : B → B)

theorem cbcEnc_eq_carryMap (iv : B) (ps : List B) :
    cbcEnc x E iv ps = carryMap (fun prev p => (E (x p prev), E (x p prev))) iv ps := by
  induction ps generalizing iv with
  | nil => rfl
  | cons p ps ih => rw [cbcEnc, carryMap, ih]

theorem cbcDec_eq_carryMap (iv : B) (cs : List B) :
    cbcDec x D iv cs = carryMap (fun prev c => (x (D c) prev, c)) iv cs := by
  induction cs generalizing iv with
  | nil => rfl
  | cons c cs ih => rw [cbcDec, carryMap, ih]

end

section
variable {α S : Type*} {k : ℕ} {round : S → Block α k → Block α k × S}

/-- A list in pieces of `k`, `n` bounding their number; the last may be shorter. -/
def chunksAux (k : ℕ) : ℕ → List α → List (List α)
  | _, [] => []
  | 0, _ :: _ => []
  | n + 1, a :: l => (a :: l).take k :: chunksAux k n ((a :: l).drop k)

/-- `chunks(k)`. -/
def chunks (k : ℕ) (l : List α) : List (List α) := chunksAux k l.length l

theorem chunksAux_ofBlocks (hk : 0 < k) (bs : List (Block α k)) :
    ∀ n, bs.length ≤ n → chunksAux k n (ofBlocks bs) = bs.map (·.toList) := by
  induction bs with
  | nil => intro n _; cases n <;> rfl
  | cons b bs ih =>
    intro n hn
    obtain ⟨m, rfl⟩ : ∃ m, n = m + 1 := Nat.exists_eq_add_of_le' (Nat.lt_of_lt_of_le (by simp) hn)
    have hb := b.length_eq
    obtain ⟨a, l, hl⟩ := List.exists_cons_of_ne_nil
      (l := ofBlocks (b :: bs)) (List.ne_nil_of_length_pos (by simp [hb]; omega))
    have htake : (a :: l).take k = b.toList := by rw [← hl, ofBlocks_cons, List.take_left' hb]
    have hdrop : (a :: l).drop k = ofBlocks bs := by rw [← hl, ofBlocks_cons, List.drop_left' hb]
    rw [hl, chunksAux, htake, hdrop, ih m (by simpa using hn), List.map_cons]

theorem chunks_ofBlocks (hk : 0 < k) (bs : List (Block α k)) :
    chunks k (ofBlocks bs) = bs.map (·.toList) := by
  refine chunksAux_ofBlocks hk bs _ ?_
  rw [length_ofBlocks]
  exact Nat.le_mul_of_pos_left _ hk

/-- A piece as a block; a piece of another length fails. -/
def asBlock (k : ℕ) (l : List α) : Option (Block α k) :=
  if h : l.length = k then some ⟨l, h⟩ else none

@[simp] theorem asBlock_toList (b : Block α k) : asBlock k b.toList = some b := dif_pos b.length_eq

/-- The loop over the pieces that collects its blocks in `result`. -/
def copyRounds (round : S → Block α k → Block α k × S) :
    List (List α) → S → List α → Option (List α)
  | [], _, result => some result
  | chunk :: rest, s, result =>
    (asBlock k chunk).bind fun b =>
      copyRounds round rest (round s b).2 (result ++ (round s b).1.toList)

theorem copyRounds_map (bs : List (Block α k)) (s : S) (result : List α) :
    copyRounds round (bs.map (·.toList)) s result =
      some (result ++ ofBlocks (carryMap round s bs)) := by
  induction bs generalizing s result with
  | nil => simp [copyRounds, carryMap]
  | cons b bs ih =>
    rw [List.map_cons, copyRounds, asBlock_toList, Option.bind_some, ih, carryMap, ofBlocks_cons,
      List.append_assoc]

/-- `(0..len).step_by(k)`. -/
def stepBy (k len : ℕ) : List ℕ := (List.range ((len + (k - 1)) / k)).map (k * ·)

theorem stepBy_ofBlocks (hk : 0 < k) (bs : List (Block α k)) :
    stepBy k (ofBlocks bs).length = (List.range' 0 bs.length).map (k * ·) := by
  have hdiv : ((ofBlocks bs).length + (k - 1)) / k = bs.length := by
    rw [length_ofBlocks, Nat.mul_add_div hk, Nat.div_eq_of_lt (Nat.sub_one_lt_of_lt hk), Nat.add_zero]
  rw [stepBy, hdiv, List.range_eq_range']

/-- The loop that overwrites each block: what lies before is done, what lies behind still untouched,
    whatever the step does inside the block. -/
theorem foldlM_inPlace {step : List α × S → ℕ → Option (List α × S)}
    (hstep : ∀ pre b post s, step (pre ++ (b.toList ++ post), s) pre.length =
      some (pre ++ ((round s b).1.toList ++ post), (round s b).2)) (bs : List (Block α k)) :
    ∀ (n : ℕ) (pre : List α) (s : S), pre.length = k * n →
      ∃ s', ((List.range' n bs.length).map (k * ·)).foldlM step (pre ++ ofBlocks bs, s) =
        some (pre ++ ofBlocks (carryMap round s bs), s') := by
  induction bs with
  | nil => intro n pre s _; exact ⟨s, rfl⟩
  | cons b bs ih =>
    intro n pre s hpre
    have hlen : (pre ++ (round s b).1.toList).length = k * (n + 1) := by
      rw [List.length_append, hpre, (round s b).1.length_eq, Nat.mul_succ]
    obtain ⟨s', hs'⟩ := ih (n + 1) (pre ++ (round s b).1.toList) (round s b).2 hlen
    refine ⟨s', ?_⟩
    rw [List.length_cons, List.range'_succ, List.map_cons, List.foldlM_cons, ofBlocks_cons, ← hpre,
      hstep, carryMap, ofBlocks_cons, ← List.append_assoc, ← List.append_assoc]
    exact hs'

end

end Schemes
