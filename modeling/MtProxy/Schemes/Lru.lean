import Mathlib.Tactic

/-! A cache of bounded size that drops its least recently used entry. The entries are kept in the
    order of their last use, most recent first; no key occurs twice and there are never more of them
    than the capacity, so that a `LruCache` is a valid cache by construction.

        put k v ──▶ (k, v) │ entries without k ⋯ ──▶ the last one goes when there is no room

    `peek` is what the cache means: a partial function of the key. The lemmas say what every
    operation does to it; `put` is exact where there is room, and loses entries only otherwise. -/

namespace Schemes

structure LruCache (K V : Type) where
  cap : ℕ
  entries : List (K × V)
  cap_pos : 0 < cap
  nodup : (entries.map Prod.fst).Nodup
  length_le : entries.length ≤ cap

namespace LruCache
variable {K V : Type}

theorem nodup_nil : (([] : List (K × V)).map Prod.fst).Nodup := List.nodup_nil

theorem length_nil_le (cap : ℕ) : ([] : List (K × V)).length ≤ cap := Nat.zero_le cap

def new (cap : ℕ) (h : 0 < cap) : LruCache K V := ⟨cap, [], h, nodup_nil, length_nil_le cap⟩

theorem nodup_front {entries : List (K × V)} (h : (entries.map Prod.fst).Nodup) {k : K}
    (hk : ∀ e ∈ entries, e.1 ≠ k) (v : V) : (((k, v) :: entries).map Prod.fst).Nodup := by
  rw [List.map_cons, List.nodup_cons]
  refine ⟨fun hmem => ?_, h⟩
  obtain ⟨e, he, heq⟩ := List.mem_map.mp hmem
  exact hk e he heq

variable [DecidableEq K]

/-- The entries without the one of `k`. -/
def without (entries : List (K × V)) (k : K) : List (K × V) :=
  entries.filter (fun e => !decide (e.1 = k))

def peek (c : LruCache K V) (k : K) : Option V :=
  (c.entries.find? (fun e => decide (e.1 = k))).map Prod.snd

theorem mem_without {entries : List (K × V)} {k : K} {e : K × V} :
    e ∈ without entries k ↔ e ∈ entries ∧ e.1 ≠ k := by
  simp [without]

theorem without_sublist (entries : List (K × V)) (k : K) : (without entries k).Sublist entries :=
  List.filter_sublist

theorem nodup_without (c : LruCache K V) (k : K) : ((without c.entries k).map Prod.fst).Nodup :=
  c.nodup.sublist ((without_sublist c.entries k).map Prod.fst)

theorem length_without_le (c : LruCache K V) (k : K) : (without c.entries k).length ≤ c.cap :=
  (without_sublist c.entries k).length_le.trans c.length_le

def pop (c : LruCache K V) (k : K) : LruCache K V :=
  ⟨c.cap, without c.entries k, c.cap_pos, nodup_without c k, length_without_le c k⟩

theorem peek_eq_some {c : LruCache K V} {k : K} {v : V} :
    c.peek k = some v ↔ (k, v) ∈ c.entries := by
  have key : ∀ l : List (K × V), (l.map Prod.fst).Nodup →
      ((l.find? (fun e => decide (e.1 = k))).map Prod.snd = some v ↔ (k, v) ∈ l) := by
    intro l
    induction l with
    | nil => simp
    | cons e l ih =>
      intro hnodup
      rw [List.map_cons, List.nodup_cons] at hnodup
      by_cases he : e.1 = k
      · have hnot : (k, v) ∉ l := fun hmem => hnodup.1 (List.mem_map.mpr ⟨(k, v), hmem, he.symm⟩)
        rw [List.find?_cons_of_pos (by simpa using he), List.mem_cons]
        simp only [Option.map_some, Option.some.injEq, hnot, or_false]
        constructor
        · rintro rfl
          exact Prod.ext he.symm rfl
        · rintro rfl
          rfl
      · rw [List.find?_cons_of_neg (by simpa using he), ih hnodup.2, List.mem_cons]
        have hne : (k, v) ≠ e := fun h => he (congrArg Prod.fst h).symm
        simp [hne]
  exact key c.entries c.nodup

theorem peek_eq_none {c : LruCache K V} {k : K} : c.peek k = none ↔ ∀ e ∈ c.entries, e.1 ≠ k := by
  constructor
  · rintro hnone ⟨k', v⟩ he rfl
    rw [peek_eq_some.mpr he] at hnone
    cases hnone
  · intro h
    cases hp : c.peek k with
    | none => rfl
    | some v => exact absurd rfl (h _ (peek_eq_some.mp hp))

@[simp] theorem peek_new {cap : ℕ} (h : 0 < cap) (k : K) :
    (new cap h : LruCache K V).peek k = none := rfl

theorem peek_pop {c : LruCache K V} {k k' : K} {v : V} :
    (c.pop k).peek k' = some v ↔ c.peek k' = some v ∧ k' ≠ k := by
  rw [peek_eq_some, peek_eq_some]
  exact mem_without

/-! ### Use -/

theorem length_without_lt {c : LruCache K V} {k : K} {v : V} (h : c.peek k = some v) :
    (without c.entries k).length < c.entries.length := by
  refine List.length_filter_lt_length_iff_exists.mpr ⟨(k, v), peek_eq_some.mp h, by simp⟩

theorem not_mem_without (entries : List (K × V)) (k : K) : ∀ e ∈ without entries k, e.1 ≠ k :=
  fun _ he => (mem_without.mp he).2

theorem nodup_toFront (c : LruCache K V) (k : K) (v : V) :
    (((k, v) :: without c.entries k).map Prod.fst).Nodup :=
  nodup_front (nodup_without c k) (not_mem_without c.entries k) v

theorem length_toFront_le {c : LruCache K V} {k : K} {w : V} (h : c.peek k = some w) (v : V) :
    ((k, v) :: without c.entries k).length ≤ c.cap :=
  Nat.succ_le_of_lt (lt_of_lt_of_le (length_without_lt h) c.length_le)

/-- `k` with the value `v` becomes the most recent entry; there was one before. -/
def toFront (c : LruCache K V) (k : K) {w : V} (h : c.peek k = some w) (v : V) : LruCache K V :=
  ⟨c.cap, (k, v) :: without c.entries k, c.cap_pos, nodup_toFront c k v, length_toFront_le h v⟩

/-- `get`: the value, and the entry becomes the most recent one. -/
def get (c : LruCache K V) (k : K) : Option V × LruCache K V :=
  match h : c.peek k with
  | none => (none, c)
  | some v => (some v, c.toFront k h v)

theorem peek_toFront {c : LruCache K V} {k k' : K} {w v u : V} (h : c.peek k = some w) :
    (c.toFront k h v).peek k' = some u ↔ (k' = k ∧ u = v) ∨ (k' ≠ k ∧ c.peek k' = some u) := by
  rw [peek_eq_some, peek_eq_some, toFront]
  simp only [List.mem_cons, Prod.mk.injEq, mem_without]
  constructor
  · rintro (h | ⟨hmem, hne⟩)
    · exact Or.inl h
    · exact Or.inr ⟨hne, hmem⟩
  · rintro (h | ⟨hne, hmem⟩)
    · exact Or.inl h
    · exact Or.inr ⟨hmem, hne⟩

theorem get_fst (c : LruCache K V) (k : K) : (c.get k).1 = c.peek k := by
  unfold get
  split
  · rename_i h
    exact h.symm
  · rename_i v h
    exact h.symm

/-- Looking up changes the order of the entries only. -/
theorem peek_get {c : LruCache K V} {k k' : K} {u : V} :
    (c.get k).2.peek k' = some u ↔ c.peek k' = some u := by
  unfold get
  split
  · rfl
  · rename_i v h
    rw [peek_toFront]
    constructor
    · rintro (⟨rfl, rfl⟩ | ⟨-, h'⟩)
      · exact h
      · exact h'
    · intro h'
      by_cases hk : k' = k
      · subst hk
        exact Or.inl ⟨rfl, Option.some.inj (h'.symm.trans h)⟩
      · exact Or.inr ⟨hk, h'⟩

@[simp] theorem cap_get (c : LruCache K V) (k : K) : (c.get k).2.cap = c.cap := by
  unfold get
  split <;> rfl

/-! ### Insertion -/

theorem nodup_push {c : LruCache K V} {k : K} (h : c.peek k = none) (v : V) :
    (((k, v) :: c.entries).map Prod.fst).Nodup :=
  nodup_front c.nodup (peek_eq_none.mp h) v

theorem nodup_evict {c : LruCache K V} {k : K} (h : c.peek k = none) (v : V) :
    (((k, v) :: c.entries.dropLast).map Prod.fst).Nodup :=
  nodup_front (c.nodup.sublist ((List.dropLast_sublist c.entries).map Prod.fst))
    (fun e he => peek_eq_none.mp h e (List.dropLast_subset c.entries he)) v

omit [DecidableEq K] in
theorem length_push_le {c : LruCache K V} (h : c.entries.length < c.cap) (k : K) (v : V) :
    ((k, v) :: c.entries).length ≤ c.cap := h

omit [DecidableEq K] in
theorem length_evict_le (c : LruCache K V) (k : K) (v : V) :
    ((k, v) :: c.entries.dropLast).length ≤ c.cap := by
  have hle := c.length_le
  have hpos := c.cap_pos
  rw [List.length_cons, List.length_dropLast]
  omega

/-- `put`: `k` becomes the most recent entry; if it is new and the cache is full, the least recently
    used entry goes. -/
def put (c : LruCache K V) (k : K) (v : V) : LruCache K V :=
  match h : c.peek k with
  | some _ => c.toFront k h v
  | none =>
    if hroom : c.entries.length < c.cap then
      ⟨c.cap, (k, v) :: c.entries, c.cap_pos, nodup_push h v, length_push_le hroom k v⟩
    else
      ⟨c.cap, (k, v) :: c.entries.dropLast, c.cap_pos, nodup_evict h v, length_evict_le c k v⟩

@[simp] theorem cap_put (c : LruCache K V) (k : K) (v : V) : (c.put k v).cap = c.cap := by
  unfold put
  split
  · rfl
  · split_ifs <;> rfl

/-- The inserted entry is there, and every other one was there before. -/
theorem peek_put {c : LruCache K V} {k k' : K} {v u : V} (h : (c.put k v).peek k' = some u) :
    (k' = k ∧ u = v) ∨ (k' ≠ k ∧ c.peek k' = some u) := by
  have hfront : ∀ l : List (K × V), (∀ e ∈ l, e ∈ c.entries) → c.peek k = none →
      (k', u) ∈ (k, v) :: l → (k' = k ∧ u = v) ∨ (k' ≠ k ∧ c.peek k' = some u) := by
    intro l hl hnone hmem
    rcases List.mem_cons.mp hmem with heq | hmem
    · exact Or.inl (Prod.mk.inj heq)
    · have hin := hl _ hmem
      exact Or.inr ⟨peek_eq_none.mp hnone _ hin, peek_eq_some.mpr hin⟩
  unfold put at h
  split at h
  · exact peek_toFront _ |>.mp h
  · rename_i hnone
    split_ifs at h with hroom
    · exact hfront _ (fun _ he => he) hnone (peek_eq_some.mp h)
    · exact hfront _ (fun _ he => List.dropLast_subset _ he) hnone (peek_eq_some.mp h)

theorem peek_put_self (c : LruCache K V) (k : K) (v : V) : (c.put k v).peek k = some v := by
  unfold put
  split
  · exact (peek_toFront _).mpr (Or.inl ⟨rfl, rfl⟩)
  · split_ifs with hroom
    · exact peek_eq_some.mpr List.mem_cons_self
    · exact peek_eq_some.mpr List.mem_cons_self

/-- With room for `k`, nothing else is lost. -/
theorem peek_put_of_room {c : LruCache K V} {k k' : K} {v u : V}
    (hroom : c.peek k = none → c.entries.length < c.cap) (hne : k' ≠ k) (h : c.peek k' = some u) :
    (c.put k v).peek k' = some u := by
  unfold put
  split
  · exact (peek_toFront _).mpr (Or.inr ⟨hne, h⟩)
  · rename_i hnone
    rw [dif_pos (hroom hnone)]
    exact peek_eq_some.mpr (List.mem_cons_of_mem _ (peek_eq_some.mp h))

/-- All keys of the cache being among `keys`, there are at most that many entries. -/
theorem length_le_card (c : LruCache K V) (keys : Finset K)
    (h : ∀ k v, c.peek k = some v → k ∈ keys) : c.entries.length ≤ keys.card := by
  have hsub : (c.entries.map Prod.fst).toFinset ⊆ keys := by
    intro k hk
    obtain ⟨e, he, rfl⟩ := List.mem_map.mp (List.mem_toFinset.mp hk)
    exact h e.1 e.2 (peek_eq_some.mpr he)
  calc c.entries.length = (c.entries.map Prod.fst).toFinset.card := by
        rw [List.toFinset_card_of_nodup c.nodup, List.length_map]
    _ ≤ keys.card := Finset.card_le_card hsub

end LruCache

end Schemes
