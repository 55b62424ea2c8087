import Mathlib.Tactic

/-! Attempts with a delay that doubles as long as they fail, from `lo` up to `hi`, and goes back to `lo`
    when one succeeds. A delay is lengthened by some jitter, up to a half of it.

        attempt   ✗          ✗                    ✗          ✓       ✗
        delay     └── 2·lo ──┴─── 4·lo ───────────┴── hi ────┴─ lo ──┴─ ⋯

    A `Backoff` is what is kept of the attempts so far. `Describes` says what it stands for, `Spaced`
    that the attempts were apart by their delays; the bounds may differ from attempt to attempt. Where
    they do not, `delayOf_eq` gives the delay. -/

namespace Schemes

/-- The delay last used, and the time before which there is no other attempt. -/
structure Backoff where
  delay : Option ℕ
  next : Option ℕ
  deriving DecidableEq

/-- An attempt: when it was begun, the bounds it was made with and whether it succeeded. -/
structure Attempt where
  time : ℕ
  lo : ℕ
  hi : ℕ
  ok : Bool
  deriving DecidableEq

/-- The longest jitter. -/
def slack (delay : ℕ) : ℕ := max (delay / 2) 1

namespace Backoff

def new : Backoff := ⟨none, none⟩

def Due (b : Backoff) (now : ℕ) : Prop := ∀ ts ∈ b.next, ts ≤ now

instance (b : Backoff) (now : ℕ) : Decidable (b.Due now) :=
  match h : b.next with
  | none => .isTrue (fun ts hts => by rw [h] at hts; cases hts)
  | some ts => decidable_of_iff (ts ≤ now) (by simp [Due, h])

/-- The delay that follows an attempt. -/
def nextDelay (b : Backoff) (a : Attempt) : ℕ :=
  if a.ok then a.lo else min (2 * b.delay.getD a.lo) a.hi

def after (b : Backoff) (a : Attempt) (jitter : ∀ n, Fin (n + 1)) : Backoff :=
  let delay := b.nextDelay a
  ⟨some delay, some (a.time + (delay + jitter (slack delay)))⟩

end Backoff

/-- The delay that follows a list of attempts, newest first. -/
def delayOf : List Attempt → Option ℕ
  | [] => none
  | a :: as => some (if a.ok then a.lo else min (2 * (delayOf as).getD a.lo) a.hi)

/-- Every attempt was made after the delay that followed those before it. -/
def Spaced : List Attempt → Prop
  | [] => True
  | a :: as => (∀ a' ∈ as.head?, ∀ delay ∈ delayOf as, a'.time + delay ≤ a.time) ∧ Spaced as

/-- What is kept of a list of attempts. -/
inductive Describes : List Attempt → Backoff → Prop where
  | new : Describes [] .new
  | after {as : List Attempt} {b : Backoff} (a : Attempt) (jitter : ℕ) (h : Describes as b)
      (hjitter : jitter ≤ slack (b.nextDelay a)) :
      Describes (a :: as) ⟨some (b.nextDelay a), some (a.time + (b.nextDelay a + jitter))⟩

section
variable {as : List Attempt} {a : Attempt} {b : Backoff} {now lo hi : ℕ}

theorem Describes.attempt (h : Describes as b) (a : Attempt) (jitter : ∀ n, Fin (n + 1)) :
    Describes (a :: as) (b.after a jitter) :=
  .after a _ h (Nat.lt_succ_iff.mp (jitter _).isLt)

theorem Describes.delay_eq (h : Describes as b) : b.delay = delayOf as := by
  induction h with
  | new => rfl
  | after a jitter h hjitter ih => rw [delayOf, Backoff.nextDelay, ih]

/-- Attempts that are made only when they are due are apart by their delays. -/
theorem Describes.spaced (h : Describes as b) (hspaced : Spaced as) (hdue : b.Due a.time) :
    Spaced (a :: as) := by
  refine ⟨fun a' ha' delay hdelay => ?_, hspaced⟩
  have heq := h.delay_eq
  cases h with
  | new => cases ha'
  | after a₁ jitter h hjitter =>
    obtain rfl := Option.some.inj ha'
    rw [← heq] at hdelay
    obtain rfl := Option.some.inj hdelay
    have hle := hdue _ rfl
    omega

/-- An attempt is due as soon as the delay after the last one and its jitter can be over. -/
theorem Describes.due (h : Describes as b)
    (hlate : ∀ a ∈ as.head?, ∀ delay ∈ delayOf as, a.time + (delay + slack delay) ≤ now) :
    b.Due now := by
  have heq := h.delay_eq
  cases h with
  | new =>
    rintro ts ⟨⟩
  | after a jitter h hjitter =>
    have hle := hlate a rfl _ heq.symm
    rintro ts ⟨⟩
    omega

/-! ### With the same bounds throughout -/

/-- How many attempts have failed since the last one that succeeded. -/
def failures (as : List Attempt) : ℕ := (as.takeWhile (fun a => !a.ok)).length

theorem failures_cons (a : Attempt) (as : List Attempt) :
    failures (a :: as) = if a.ok then 0 else failures as + 1 := by
  cases hok : a.ok <;> simp [failures, hok]

/-- With every failure the delay doubles. -/
theorem delayOf_eq (hbounds : ∀ a ∈ as, a.lo = lo ∧ a.hi = hi) (hne : as ≠ []) :
    delayOf as = some (if failures as = 0 then lo else min (2 ^ failures as * lo) hi) := by
  induction as with
  | nil => exact absurd rfl hne
  | cons a as ih =>
    obtain ⟨hlo, hhi⟩ := hbounds a List.mem_cons_self
    rw [delayOf, failures_cons, hlo, hhi]
    cases hok : a.ok with
    | true => rfl
    | false =>
      simp only [Bool.false_eq_true, if_false, Nat.succ_ne_zero, pow_succ]
      cases as with
      | nil => simp [delayOf, failures]
      | cons a' as =>
        rw [ih (fun a ha => hbounds a (List.mem_cons_of_mem _ ha)) (by simp), Option.getD_some]
        by_cases hzero : failures (a' :: as) = 0
        · rw [if_pos hzero, hzero, pow_zero, one_mul]
        · rw [if_neg hzero]
          have hdouble : 2 ^ failures (a' :: as) * 2 * lo = 2 * (2 ^ failures (a' :: as) * lo) := by
            ring
          rw [hdouble, Option.some_inj]
          omega

end

end Schemes
