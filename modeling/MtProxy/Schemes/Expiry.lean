import Mathlib.Order.Nat
import Mathlib.Data.Option.Basic
import Mathlib.Logic.Function.Basic

/-! A table of entries that expire. Now and then those that have expired are dropped, and in between they
    may still be there.

        insert k t      k ↦ t
        retain now      what is left has  now < t

    Whoever drops what has expired before looking sees the same as if nothing had ever been dropped, as
    long as the clock does not go back: `Agrees`. -/

namespace Schemes.Expiry

variable {K : Type*} [DecidableEq K]

/-- When an entry expires, if there is one. -/
abbrev Table (K : Type*) := K → Option ℕ

def insert (k : K) (t : ℕ) (table : Table K) : Table K := Function.update table k (some t)

omit [DecidableEq K] in
def retain (now : ℕ) (table : Table K) : Table K := fun k => (table k).filter (now < ·)

section
omit [DecidableEq K]
variable {table other : Table K} {k : K} {now t clock : ℕ}

theorem retain_eq_some : retain now table k = some t ↔ table k = some t ∧ now < t := by
  rw [retain, Option.filter_eq_some_iff, decide_eq_true_iff]

theorem retain_retain (h : clock ≤ now) : retain now (retain clock table) = retain now table := by
  funext k
  ext t
  rw [retain_eq_some, retain_eq_some, retain_eq_some]
  exact ⟨fun ⟨⟨hk, _⟩, ht⟩ => ⟨hk, ht⟩, fun ⟨hk, ht⟩ => ⟨⟨hk, h.trans_lt ht⟩, ht⟩⟩

/-- From `clock` on, the two differ in expired entries only. -/
def Agrees (clock : ℕ) (table other : Table K) : Prop :=
  ∀ now, clock ≤ now → retain now table = retain now other

theorem Agrees.refl (clock : ℕ) (table : Table K) : Agrees clock table table := fun _ _ => rfl

theorem Agrees.mono (h : Agrees clock table other) (hclock : clock ≤ now) : Agrees now table other :=
  fun now' hnow => h now' (hclock.trans hnow)

theorem Agrees.retain (h : Agrees clock table other) : Agrees clock (retain clock table) other :=
  fun now hnow => by rw [retain_retain hnow, h now hnow]

theorem Agrees.lookup (h : Agrees clock table other) :
    Expiry.retain clock table k = some t ↔ other k = some t ∧ clock < t := by
  rw [h clock (le_refl clock), retain_eq_some]

end

variable {table other : Table K} {k : K} {now t clock : ℕ}

theorem retain_insert : retain now (insert k t table) =
    Function.update (retain now table) k ((some t).filter (now < ·)) := by
  funext k'
  by_cases hk : k' = k
  · subst hk
    simp [retain, insert]
  · simp [retain, insert, hk]

theorem Agrees.insert (h : Agrees clock table other) (k : K) (t : ℕ) :
    Agrees clock (insert k t table) (Expiry.insert k t other) := by
  intro now hnow
  rw [retain_insert, retain_insert, h now hnow]

end Schemes.Expiry
