import Mathlib.Data.List.Rotate
import Mathlib.Data.List.Sort

/-! Scans that start somewhere in a list and wrap around at its end. The list is sorted by a rank, and
    the scan takes the first entry that is usable.

        r₀ ≤ r₁ ≤ ⋯ ≤ rₛ₋₁ │ rₛ ≤ ⋯ ≤ rₙ₋₁        the scan runs s, ⋯, n-1, 0, ⋯, s-1
              before       │    behind

    What it takes is of the best usable rank unless a usable entry before the start is better than all
    the usable ones behind it: `rotation_best_iff`. -/

namespace Schemes

section
variable {α β : Type*}

/-- The entries at the positions `(start + offset) % n`. -/
def cycleFrom (start : ℕ) (l : List α) : List α :=
  (List.range l.length).filterMap (fun offset => l[(start + offset) % l.length]?)

theorem cycleFrom_eq_rotate (start : ℕ) (l : List α) : cycleFrom start l = l.rotate start := by
  have hmap : cycleFrom start l = (List.range l.length).filterMap ((l.rotate start)[·]?) := by
    refine List.filterMap_congr ?_
    intro offset hoffset
    rw [List.getElem?_rotate (List.mem_range.mp hoffset), Nat.add_comm]
  rw [hmap, ← List.length_rotate l start]
  generalize l.rotate start = l'
  induction l' with
  | nil => rfl
  | cons a l' ih =>
    rw [List.length_cons, List.range_succ_eq_map, List.filterMap_cons, List.filterMap_map]
    exact congrArg (a :: ·) ih

/-- A list sorted by a key. -/
theorem pairwise_insertionSort_key [LinearOrder β] (key : α → β) (l : List α) :
    (l.insertionSort (fun a b => key a ≤ key b)).Pairwise (fun a b => key a ≤ key b) := by
  have htotal : Std.Total (fun a b => key a ≤ key b) := ⟨fun a b => le_total _ _⟩
  have htrans : IsTrans α (fun a b => key a ≤ key b) := ⟨fun a b c => le_trans⟩
  exact List.pairwise_insertionSort _ l

variable {p : α → Bool}

/-- The first usable entry behind the start, or else before it. -/
theorem find?_rotate (start : ℕ) (l : List α) : (l.rotate start).find? p =
    ((l.drop (start % l.length)).find? p).or ((l.take (start % l.length)).find? p) := by
  rw [List.rotate_eq_drop_append_take_mod, List.find?_append]

/-- The first usable entry of a sorted list has the best rank. -/
theorem find?_le [Preorder β] {rank : α → β} {l : List α}
    (hsorted : l.Pairwise (rank · ≤ rank ·)) {w : α} (h : l.find? p = some w) :
    ∀ v ∈ l, p v → rank w ≤ rank v := by
  intro v hv hp
  obtain ⟨-, before, after, rfl, hbefore⟩ := List.find?_eq_some_iff_append.mp h
  rcases List.mem_append.mp hv with hv | hv
  · exact absurd hp (by simpa using hbefore v hv)
  · rcases List.mem_cons.mp hv with rfl | hv
    · exact le_refl _
    · exact (List.pairwise_cons.mp (List.pairwise_append.mp hsorted).2.1).1 v hv

/-- The start does not lie behind the best of what is usable: an entry before it is matched by one
    behind it, unless nothing behind it is usable. -/
def GoodStart [LE β] (rank : α → β) (p : α → Bool) (l : List α) (start : ℕ) : Prop :=
  (∀ u ∈ l.drop (start % l.length), ¬ p u) ∨
    ∀ v ∈ l.take (start % l.length), p v → ∃ u ∈ l.drop (start % l.length), p u ∧ rank u ≤ rank v

instance [LE β] [DecidableLE β] (rank : α → β) (p : α → Bool) (l : List α) (start : ℕ) :
    Decidable (GoodStart rank p l start) := by
  unfold GoodStart
  infer_instance

theorem rotation_best_iff [LinearOrder β] {rank : α → β} {l : List α}
    (hsorted : l.Pairwise (rank · ≤ rank ·)) (start : ℕ) :
    (∀ w, (l.rotate start).find? p = some w → ∀ v ∈ l, p v → ¬ rank v < rank w) ↔
      GoodStart rank p l start := by
  rw [find?_rotate, GoodStart]
  have hparts : l.take (start % l.length) ++ l.drop (start % l.length) = l :=
    List.take_append_drop _ l
  have hbehind : (l.drop (start % l.length)).Pairwise (rank · ≤ rank ·) := hsorted.drop
  cases hfind : (l.drop (start % l.length)).find? p with
  | none =>
    -- nothing behind the start is usable, and the scan finds the first of all
    have hnone : ∀ u ∈ l.drop (start % l.length), ¬ p u := List.find?_eq_none.mp hfind
    refine iff_of_true ?_ (Or.inl hnone)
    intro w hw v hv hp
    rw [Option.none_or] at hw
    rw [← hparts] at hv
    rcases List.mem_append.mp hv with hv | hv
    · exact not_lt.mpr (find?_le hsorted.take hw v hv hp)
    · exact absurd hp (hnone v hv)
  | some w =>
    have hw : w ∈ l.drop (start % l.length) := List.mem_of_find?_eq_some hfind
    have hpw : p w := List.find?_some hfind
    rw [Option.some_or]
    constructor
    · intro hbest
      refine Or.inr fun v hv hp => ⟨w, hw, hpw, ?_⟩
      exact not_lt.mp (hbest w rfl v (List.mem_of_mem_take hv) hp)
    · intro hgood w' hw' v hv hp
      obtain rfl := Option.some.inj hw'
      rw [← hparts] at hv
      rcases List.mem_append.mp hv with hv | hv
      · rcases hgood with hnone | hmatched
        · exact absurd hpw (hnone w hw)
        · obtain ⟨u, hu, hpu, hle⟩ := hmatched v hv hp
          exact not_lt.mpr ((find?_le hbehind hfind u hu hpu).trans hle)
      · exact not_lt.mpr (find?_le hbehind hfind v hv hp)

end

end Schemes
