import Mathlib.Tactic

/-! How long something has gone on: in time, by a clock that is started where it begins and thrown away
    where it ends, and in number, by a counter that starts again at every change.

        P    ✗ ✓ ✓ ✓ ✗ ✓ ✓            value   a b b b a
        clock  └─ τ u ─┘ └─           count   1 1 2 3 1

    `ClockAt` says what the clock stands for, one lemma for each thing that can happen to it;
    `elapsed_iff` reads it off. `agreeing` is the number the counter stands for, and `Writes` is a
    register that is written now and then. -/

namespace Schemes

/-! ### In time -/

section
variable {P : ℕ → Prop} {τ : ℕ → ℕ} {n d : ℕ} {since : Option ℕ}

/-- `P` at every event from `u` on, before `n`. -/
def HeldFrom (P : ℕ → Prop) (u n : ℕ) : Prop := ∀ i, u ≤ i → i < n → P i

theorem HeldFrom.mono {u m : ℕ} (h : HeldFrom P u n) (hm : m ≤ n) : HeldFrom P u m :=
  fun i hu hi => h i hu (hi.trans_le hm)

theorem HeldFrom.succ {u : ℕ} (h : HeldFrom P u n) (hP : P n) : HeldFrom P u (n + 1) := by
  intro i hu hi
  rcases Nat.lt_succ_iff_lt_or_eq.mp hi with hlt | rfl
  · exact h i hu hlt
  · exact hP

/-- Before event `n` the clock runs since the first event of the present streak of `P`. -/
structure ClockAt (P : ℕ → Prop) (τ : ℕ → ℕ) (n : ℕ) (since : Option ℕ) : Prop where
  started : ∀ s ∈ since, ∃ u < n, τ u = s ∧ HeldFrom P u n
  first : ∀ u < n, HeldFrom P u n → ∃ s ∈ since, s ≤ τ u

theorem ClockAt.zero : ClockAt P τ 0 none where
  started s hs := by cases hs
  first u hu := absurd hu (Nat.not_lt_zero u)

/-- An event without `P` throws the clock away. -/
theorem ClockAt.stop (hP : ¬ P n) : ClockAt P τ (n + 1) none where
  started s hs := by cases hs
  first u hu hheld := absurd (hheld n (Nat.lt_succ_iff.mp hu) (Nat.lt_succ_self n)) hP

/-- An event with `P` starts it, or lets it run on. -/
theorem ClockAt.next (h : ClockAt P τ n since) (hP : P n) (hτ : ∀ u < n, τ u ≤ τ n) :
    ClockAt P τ (n + 1) (some (since.getD (τ n))) where
  started s hs := by
    obtain rfl := Option.some.inj hs
    cases since with
    | none =>
      refine ⟨n, Nat.lt_succ_self n, rfl, ?_⟩
      intro i hu hi
      obtain rfl : i = n := by omega
      exact hP
    | some s =>
      obtain ⟨u, hu, rfl, hheld⟩ := h.started s rfl
      exact ⟨u, Nat.lt_succ_of_lt hu, rfl, hheld.succ hP⟩
  first u hu hheld := by
    refine ⟨_, rfl, ?_⟩
    rcases Nat.lt_succ_iff_lt_or_eq.mp hu with hlt | rfl
    · obtain ⟨s, hs, hle⟩ := h.first u hlt (hheld.mono (Nat.le_succ n))
      obtain rfl : since = some s := hs
      exact hle
    · cases since with
      | none => exact le_rfl
      | some s =>
        obtain ⟨v, hv, rfl, -⟩ := h.started s rfl
        exact hτ v hv

/-- The time on the clock at an event with `P`. -/
theorem ClockAt.elapsed_iff (h : ClockAt P τ n since) (hP : P n) (hτ : ∀ u < n, τ u ≤ τ n) :
    d ≤ τ n - since.getD (τ n) ↔ ∃ u ≤ n, τ u + d ≤ τ n ∧ HeldFrom P u (n + 1) := by
  constructor
  · intro hd
    obtain ⟨u, hu, hτu, hheld⟩ := (h.next hP hτ).started _ rfl
    have hle : τ u ≤ τ n := by
      rcases Nat.lt_succ_iff_lt_or_eq.mp hu with hlt | rfl
      · exact hτ u hlt
      · exact le_rfl
    exact ⟨u, Nat.lt_succ_iff.mp hu, by omega, hheld⟩
  · rintro ⟨u, hu, hτu, hheld⟩
    obtain ⟨s, hs, hle⟩ := (h.next hP hτ).first u (Nat.lt_succ_of_le hu) hheld
    obtain rfl := Option.some.inj hs
    omega

end

/-! ### In number -/

theorem le_length_takeWhile_iff {α : Type*} (p : α → Bool) {l : List α} {k : ℕ} :
    k ≤ (l.takeWhile p).length ↔ k ≤ l.length ∧ ∀ b ∈ l.take k, p b := by
  induction l generalizing k with
  | nil => simp
  | cons b l ih =>
    cases k with
    | zero => simp
    | succ k =>
      rw [List.takeWhile_cons, List.take_succ_cons, List.forall_mem_cons, List.length_cons]
      by_cases hb : p b
      · rw [if_pos hb, List.length_cons, Nat.succ_le_succ_iff, Nat.succ_le_succ_iff, ih]
        tauto
      · rw [if_neg hb]
        simp [hb]

section
variable {α : Type*} [DecidableEq α] {a b : α} {l : List α} {k : ℕ}

/-- How many values from the front are the same. -/
def agreeing : List α → ℕ
  | [] => 0
  | a :: l => (l.takeWhile (· = a)).length + 1

theorem agreeing_cons_self : agreeing (a :: a :: l) = agreeing (a :: l) + 1 := by
  simp [agreeing]

theorem agreeing_cons_ne (h : b ≠ a) : agreeing (a :: b :: l) = 1 := by
  simp [agreeing, h]

/-- A streak of `k` values: there are so many, and all are the first. -/
theorem le_agreeing_iff : k ≤ agreeing (a :: l) ↔
    k ≤ (a :: l).length ∧ ∀ b ∈ (a :: l).take k, b = a := by
  cases k with
  | zero => simp
  | succ k =>
    rw [agreeing, Nat.succ_le_succ_iff, le_length_takeWhile_iff, List.take_succ_cons,
      List.forall_mem_cons, List.length_cons, Nat.succ_le_succ_iff]
    simp

end

/-! ### What was last -/

section
variable {α : Type*} {reg : ℕ → Option α} {W : ℕ → α → Prop} {m n : ℕ} {a : α}

/-- What is written to a register is in it next, and stays if nothing is written. -/
structure Writes (reg : ℕ → Option α) (W : ℕ → α → Prop) : Prop where
  write : ∀ n a, W n a → reg (n + 1) = some a
  keep : ∀ n, (∀ a, ¬ W n a) → reg (n + 1) = reg n

/-- A register holds what was written to it as long as nothing else is. -/
theorem Writes.last (h : Writes reg W) (hm : W m a) (hmn : m < n)
    (hbetween : ∀ k b, m < k → k < n → W k b → b = a) : reg n = some a := by
  induction n with
  | zero => exact absurd hmn (Nat.not_lt_zero m)
  | succ n ih =>
    rcases Nat.lt_succ_iff_lt_or_eq.mp hmn with hlt | rfl
    · by_cases hn : ∃ b, W n b
      · obtain ⟨b, hb⟩ := hn
        obtain rfl := hbetween n b hlt (Nat.lt_succ_self n) hb
        exact h.write n b hb
      · rw [h.keep n (fun b hb => hn ⟨b, hb⟩)]
        exact ih hlt (fun k b hk hkn => hbetween k b hk (Nat.lt_succ_of_lt hkn))
    · exact h.write m a hm

/-- A register that holds something else was written to again. -/
theorem Writes.between (h : Writes reg W) (hm : W m a) (hmn : m < n) (hne : reg n ≠ some a) :
    ∃ k, m < k ∧ k < n ∧ ∃ b, W k b ∧ b ≠ a := by
  by_contra hnone
  refine hne (h.last hm hmn ?_)
  intro k b hk hkn hb
  by_contra hba
  exact hnone ⟨k, hk, hkn, b, hb, hba⟩

end

end Schemes
